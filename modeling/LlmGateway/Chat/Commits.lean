import LlmGateway.Chat.Blocks
import Mathlib.Data.List.Induction

/-!
# A replayable answer is a committed answer

An answer is kept in three places: the conversation, the exact cache and the
envelope of its idempotency key. A run may stop anywhere; where either of the
last two has the answer, the first is to have it as well.
-/

namespace LlmGateway

namespace Chat

open Effects Streaming

/-! ## The books -/

/-- Whether a settlement took effect. -/
def applied : Settled → Bool
  | .done => true
  | .raised _ b => b

/-- What has become of a turn's answer. -/
structure Books where
  /-- The row of the assistant is in the open transaction. -/
  pending : Bool := false
  /-- It is committed. -/
  committed : Bool := false
  /-- The answer comes from a stream of the router. -/
  live : Bool := false
  /-- The cache or the envelope has the answer. -/
  wrote : Bool := false
  /-- One of them got it when the conversation did not have it. -/
  early : Bool := false
  deriving DecidableEq, Repr

namespace Books

/-- A write to the cache or the envelope. -/
def write (b : Books) (a : Settled) : Books :=
  { b with wrote := b.wrote || applied a, early := b.early || (applied a && !b.committed) }

/-- The end of a transaction. -/
def commit (b : Books) (a : Settled) : Books :=
  { b with committed := b.committed || (b.pending && applied a), pending := false }

def note (b : Books) : Event iface → Books
  | ⟨.append .assistant _ _ _, (a : Except Exn String)⟩ => { b with pending := a.isOk }
  | ⟨.commitSession, a⟩ => b.commit a
  | ⟨.closeSession, _⟩ => { b with pending := false }
  | ⟨.routeStream, _⟩ => { b with live := true }
  | ⟨.complete _ _, a⟩ => b.write a
  | ⟨.cachePut _ _, a⟩ => b.write a
  | _ => b

/-- **The books of a trace.** -/
def of (tr : List (Event iface)) : Books := tr.foldl note {}

end Books

/-- **A replayable answer is a committed answer**, wherever the run stops. -/
def Durable (tr : List (Event iface)) : Prop :=
  ∀ tr', tr' <+: tr → (Books.of tr').wrote = true → (Books.of tr').committed = true

section

variable {b : Books}

/-- Once the conversation has the answer it keeps it. -/
theorem committed_note (h : b.committed = true) (e : Event iface) :
    (b.note e).committed = true := by
  obtain ⟨q, a⟩ := e
  cases q with
  | append role content messageId provenance => cases role <;> exact h
  | commitSession => simp [Books.note, Books.commit, h]
  | _ => exact h

theorem early_note (h : b.early = true) (e : Event iface) : (b.note e).early = true := by
  obtain ⟨q, a⟩ := e
  cases q with
  | append role content messageId provenance => cases role <;> exact h
  | complete response cacheStatus => simp [Books.note, Books.write, h]
  | cachePut key value => simp [Books.note, Books.write, h]
  | _ => exact h

/-- A write is early where the conversation does not have the answer. -/
theorem early_write (h : b.early = false) (hc : b.wrote = true → b.committed = true)
    (a : Settled) : (b.write a).early = false ↔
      ((b.write a).wrote = true → (b.write a).committed = true) := by
  simp only [Books.write, h, Bool.false_or]
  cases ha : applied a with
  | true => simp
  | false =>
    rw [Bool.false_and, Bool.or_false]
    exact iff_of_true rfl hc

/-- One event. -/
theorem early_note_iff (h : b.early = false) (hc : b.wrote = true → b.committed = true)
    (e : Event iface) : (b.note e).early = false ↔
      ((b.note e).wrote = true → (b.note e).committed = true) := by
  obtain ⟨q, a⟩ := e
  cases q with
  | append role content messageId provenance => cases role <;> exact iff_of_true h hc
  | commitSession =>
    exact iff_of_true h fun hw => committed_note (hc hw) ⟨.commitSession, a⟩
  | complete response cacheStatus => exact early_write h hc a
  | cachePut key value => exact early_write h hc a
  | _ => exact iff_of_true h hc

end

theorem books_append (tr : List (Event iface)) (e : Event iface) :
    Books.of (tr ++ [e]) = (Books.of tr).note e := by
  rw [Books.of, List.foldl_append]
  rfl

/-- **No write is early** just when the run may stop anywhere. -/
theorem durable_iff (tr : List (Event iface)) : Durable tr ↔ (Books.of tr).early = false := by
  induction tr using List.reverseRecOn with
  | nil =>
    refine iff_of_true (fun tr' hp hw => ?_) rfl
    rw [List.prefix_nil.mp hp] at hw
    cases hw
  | append_singleton tr e ih =>
    have hsplit : Durable (tr ++ [e]) ↔ Durable tr ∧
        ((Books.of (tr ++ [e])).wrote = true → (Books.of (tr ++ [e])).committed = true) := by
      constructor
      · exact fun h => ⟨fun tr' hp => h tr' (hp.trans (List.prefix_append tr [e])),
          h _ (List.prefix_refl _)⟩
      · rintro ⟨h, he⟩ tr' hp
        rcases List.prefix_concat_iff.mp hp with rfl | hp
        · exact he
        · exact h tr' hp
    rw [hsplit, books_append, ih]
    by_cases hb : (Books.of tr).early = false
    · have hc : (Books.of tr).wrote = true → (Books.of tr).committed = true :=
        (ih.mpr hb) tr (List.prefix_refl tr)
      rw [early_note_iff hb hc]
      exact and_iff_right hb
    · have hearly : (Books.of tr).early = true := by
        simpa using hb
      rw [early_note hearly e]
      exact iff_of_false (fun h => hb h.1) (by decide)

/-! ## A live stream -/

/-- What holds in the end: only what a live stream writes is early, and all of it
is. -/
def Final (b : Books) : Prop := b.early = (b.live && b.wrote)

/-- On a live stream the conversation does not have the answer yet. -/
structure Ahead (b : Books) : Prop where
  live : b.live = true
  committed : b.committed = false
  early : b.early = b.wrote

/-- Nor may it matter any more. -/
structure Behind (b : Books) : Prop where
  live : b.live = true
  early : b.early = b.wrote

section

variable {b : Books}

theorem Behind.final (h : Behind b) : Final b := by
  rw [Final, h.live, h.early, Bool.true_and]

theorem Ahead.behind (h : Ahead b) : Behind b := ⟨h.live, h.early⟩

theorem Ahead.write (h : Ahead b) (a : Settled) : Ahead (b.write a) := by
  refine ⟨h.live, h.committed, ?_⟩
  rw [Books.write, h.early, h.committed, Bool.not_false, Bool.and_true]

/-- A step of a collector ahead of its commit. -/
theorem wp_ahead {α β : Type} {p : Eff α} {q : Ask} {o : Ans q → Except Fault α}
    (hp : p = .ask q fun a => .ofExcept (o a)) (hq : ∀ b a, Ahead b → Ahead (b.note ⟨q, a⟩))
    {f : α → Eff β} {Q : Except Fault β → Books → Prop} (h : Ahead b)
    (herror : ∀ e b', Ahead b' → Q (.error e) b')
    (hok : ∀ x b', Ahead b' → wp (watch Books.note) (f x) Q b') :
    wp (watch Books.note) (p >>= f) Q b :=
  wp_watch_step hp (fun a e _ => herror e _ (hq b a h)) fun a x _ => hok x _ (hq b a h)

/-- What a collector promises before its commit. -/
def AheadPost {α : Type} (_ : Except Fault α) (b : Books) : Prop := Ahead b

/-- And what it promises of the whole. -/
def BehindPost {α : Type} (_ : Except Fault α) (b : Books) : Prop := Behind b

theorem wp_cacheAnswer_ahead (c : Collector) (result : StreamResult) (spec : ModelSpec)
    (h : Ahead b) : wp (watch Books.note) (c.cacheAnswer result spec) AheadPost b := by
  rw [Collector.cacheAnswer]
  cases c.cacheSlot result with
  | none => exact h
  | some key =>
    refine wp_ahead (q := .isoNow) (o := Except.ok) rfl (fun _ _ h => h) h (fun _ _ h => h) ?_
    intro createdAt b' h'
    exact wp_watch_last rfl fun a => h'.write a

theorem wp_completeClaim_ahead (c : Collector) (result : StreamResult) (spec : ModelSpec)
    (h : Ahead b) : wp (watch Books.note) (c.completeClaim result spec) AheadPost b := by
  rw [Collector.completeClaim]
  cases c.idempotency with
  | none => exact h
  | some requestId =>
    refine wp_ahead (q := .timestamp) (o := Except.ok) rfl (fun _ _ h => h) h (fun _ _ h => h) ?_
    intro created b' h'
    exact wp_watch_last rfl fun a => h'.write a

theorem wp_persistSuccess_ahead (c : Collector) (result : StreamResult) (h : Ahead b) :
    wp (watch Books.note) (c.persistSuccess result) AheadPost b := by
  rw [Collector.persistSuccess]
  cases result.spec with
  | none => exact h
  | some spec =>
    have happend : ∀ b a, Ahead b → Ahead (b.note ⟨.append .assistant result.text
        (some result.messageId) (Collector.provenance result spec), a⟩) :=
      fun _ _ h => ⟨h.live, h.committed, h.early⟩
    refine wp_ahead rfl happend h (fun _ _ h => h) fun _ b₁ h₁ => ?_
    refine wp_ahead (q := .record .success) rfl (fun _ _ h => h) h₁ (fun _ _ h => h)
      fun _ b₂ h₂ => ?_
    rw [wp_bind]
    refine wp_mono _ (wp_cacheAnswer_ahead c result spec h₂) ?_
    rintro (e | u) b₃ h₃
    · exact h₃
    · exact wp_completeClaim_ahead c result spec h₃

theorem wp_persistFailure_ahead (c : Collector) (h : Ahead b) :
    wp (watch Books.note) c.persistFailure AheadPost b := by
  rw [Collector.persistFailure]
  refine wp_ahead (q := .record .streamFailure) rfl (fun _ _ h => h) h (fun _ _ h => h)
    fun _ b₁ h₁ => ?_
  split
  · exact wp_watch_last rfl fun _ => h₁
  · exact h₁

/-- A session around a block that promises `Behind`. -/
theorem wp_withSession_behind {p : Eff Unit} (h : Ahead b)
    (hp : ∀ b', Ahead b' → wp (watch Books.note) p BehindPost b') :
    wp (watch Books.note) (Collector.withSession p) BehindPost b := by
  rw [Collector.withSession]
  refine wp_ahead (q := .openSession) rfl (fun _ _ h => h) h (fun _ _ h => h.behind)
    fun _ b₁ h₁ => ?_
  rw [wp_bind, wp_attempt]
  refine wp_mono _ (hp b₁ h₁) ?_
  rintro (e | u) b₂ h₂
  · exact wp_watch_step rfl (fun _ _ _ => ⟨h₂.live, h₂.early⟩) fun _ _ _ => ⟨h₂.live, h₂.early⟩
  · exact wp_watch_step rfl (fun _ _ _ => ⟨h₂.live, h₂.early⟩) fun _ _ _ => ⟨h₂.live, h₂.early⟩

/-- The collector writes all it writes ahead of its commit. -/
theorem wp_persist_behind (c : Collector) (result : StreamResult) (h : Ahead b) :
    wp (watch Books.note) (c.persist result) BehindPost b := by
  refine wp_withSession_behind h fun b₁ h₁ => ?_
  have hcommit : ∀ b', Ahead b' → wp (watch Books.note) commitSession BehindPost b' :=
    fun b' h' => wp_watch_last rfl fun _ => ⟨h'.live, h'.early⟩
  split
  · rw [wp_bind]
    refine wp_mono _ (wp_persistSuccess_ahead c result h₁) ?_
    rintro (e | u) b₂ h₂
    · exact h₂.behind
    · exact hcommit b₂ h₂
  · rw [wp_bind]
    refine wp_mono _ (wp_persistFailure_ahead c h₁) ?_
    rintro (e | u) b₂ h₂
    · exact h₂.behind
    · exact hcommit b₂ h₂

/-- The books say nothing of what a stream asks on its way. -/
theorem note_of_streams (b : Books) (q : Ask) (a : Ans q) (h : q.streams = true) :
    b.note ⟨q, a⟩ = b := by
  cases q <;> first | rfl | cases h

theorem wp_streams {α : Type} {p : Eff α} (hp : Streams p) {Q : Except Fault α → Books → Prop}
    (h : ∀ r, Q r b) : wp (watch Books.note) p Q b :=
  hp.wp_watch note_of_streams h

theorem wp_handOver_behind (c : Collector) (s : Turn) (h : Ahead b) :
    wp (watch Books.note) (handOver c.persist s) BehindPost b := by
  unfold handOver
  split
  · rw [wp_bind, wp_attempt]
    refine wp_mono _ (wp_persist_behind c s.result h) ?_
    intro r b' h'
    exact (wp_ofExcept _ _ _ _).mpr h'
  · exact h.behind

theorem wp_closeEvents_books {α : Type} {f : Unit → Eff α} {Q : Except Fault α → Books → Prop}
    (h : wp (watch Books.note) (f ()) Q b) : wp (watch Books.note) (closeEvents >>= f) Q b := by
  rintro a _ rfl
  exact h

/-- **A live stream**: all its writes are ahead of its commit. -/
theorem wp_streamCompletion_behind (c : Collector)
    (conversationId messageId requested : String) (pinned : Option String)
    (events : List RouteStreamEvent) (ending : Ending) (h : Ahead b) :
    wp (watch Books.note)
      (streamCompletion c.persist conversationId messageId requested pinned events ending)
      BehindPost b := by
  rw [streamCompletion, wp_bind, wp_attempt]
  refine wp_streams (streams_drive events ending _) fun r => ?_
  rcases r with e | driven
  · exact wp_closeEvents_books h.behind
  cases driven with
  | gone => exact wp_closeEvents_books h.behind
  | stopped s => exact wp_closeEvents_books (wp_handOver_behind c s h)
  | failed s failure =>
    dsimp only
    split
    · exact wp_closeEvents_books h.behind
    · rw [wp_bind, wp_attempt]
      refine wp_streams (streams_failInBand _) fun r => ?_
      rcases r with e | u
      · exact wp_closeEvents_books h.behind
      · exact wp_closeEvents_books (wp_handOver_behind c _ h)

end

/-! ## An answer at once, and a cached one -/

/-- Nothing was early, and there is no live stream. -/
structure Sober (b : Books) : Prop where
  live : b.live = false
  early : b.early = false

/-- The conversation has the answer as well. -/
structure Stored (b : Books) : Prop extends Sober b where
  committed : b.committed = true

section

variable {b : Books}

theorem Sober.final (h : Sober b) : Final b := by
  rw [Final, h.early, h.live, Bool.false_and]

theorem Stored.write (h : Stored b) (a : Settled) : Stored (b.write a) := by
  refine ⟨⟨h.live, ?_⟩, h.committed⟩
  rw [Books.write, h.early, h.committed]
  exact Bool.and_false _

/-- The books of a turn that has stored nothing. -/
theorem sober_blank : Sober {} := ⟨rfl, rfl⟩

/-- What a block promises that is never early. -/
def SoberPost {α : Type} (_ : Except Fault α) (b : Books) : Prop := Sober b

/-- And one behind the commit. -/
def AlwaysStored {α : Type} (_ : Except Fault α) (b : Books) : Prop := Stored b

/-- Where a block returns, the conversation has the answer. -/
def StoredPost {α : Type} (r : Except Fault α) (b : Books) : Prop :=
  Sober b ∧ ∀ x, r = .ok x → Stored b

theorem StoredPost.error {α : Type} {e : Fault} (h : Sober b) :
    StoredPost (.error e : Except Fault α) b :=
  ⟨h, fun _ hx => (nomatch hx)⟩

theorem StoredPost.ok {α : Type} {x : α} (h : Stored b) : StoredPost (.ok x) b :=
  ⟨h.toSober, fun _ _ => h⟩

/-- The row goes in. -/
theorem wp_append_row {α : Type} {content : String} {messageId : Option String}
    {provenance : MessageMeta} {f : String → Eff α} {Q : Except Fault α → Books → Prop}
    (herror : ∀ e b', Sober b' → Q (.error e) b')
    (h : ∀ x, wp (watch Books.note) (f x) Q { pending := true }) :
    wp (watch Books.note) (append .assistant content messageId provenance >>= f) Q {} := by
  refine wp_watch_step rfl (fun a e _ => herror e _ ⟨rfl, rfl⟩) fun a x hx => ?_
  rcases a with e' | x'
  · cases hx
  · exact h x

/-- The commit behind a row. -/
theorem wp_commit_row {α : Type} {f : Unit → Eff α} {Q : Except Fault α → Books → Prop}
    (herror : ∀ e b', Sober b' → Q (.error e) b')
    (h : ∀ b', Stored b' → wp (watch Books.note) (f ()) Q b') :
    wp (watch Books.note) (commitSession >>= f) Q { pending := true } := by
  refine wp_watch_step rfl (fun a e _ => herror e _ ⟨rfl, rfl⟩) fun a x hx => ?_
  cases a with
  | done => exact h _ ⟨⟨rfl, rfl⟩, rfl⟩
  | raised e applied => cases hx

/-- Its last step. -/
theorem wp_commit_row_last : wp (watch Books.note) commitSession StoredPost { pending := true } := by
  refine wp_watch_last rfl fun a => ?_
  cases a with
  | done => exact .ok ⟨⟨rfl, rfl⟩, rfl⟩
  | raised e applied => exact .error ⟨rfl, rfl⟩

/-- The collector's part of a cached turn. -/
theorem wp_persistCacheHit_sober (c : Collector) (cached : Exact.CachedResponse)
    (requestedSlot conversationId messageId : String) :
    wp (watch Books.note) (c.persistCacheHit cached requestedSlot conversationId messageId)
      SoberPost {} := by
  have hsession : wp (watch Books.note) (Collector.withSession do
      let _ ← append .assistant cached.text (some messageId)
        (Collector.cachedProvenance cached requestedSlot)
      record .cacheHit
      commitSession) StoredPost {} := by
    rw [Collector.withSession]
    refine wp_watch_skip rfl (fun _ => rfl) (fun _ => .error sober_blank) fun _ => ?_
    rw [wp_bind, wp_attempt]
    have hrow : wp (watch Books.note) (do
        let _ ← append .assistant cached.text (some messageId)
          (Collector.cachedProvenance cached requestedSlot)
        record .cacheHit
        commitSession) StoredPost {} := by
      refine wp_append_row (fun _ _ h => .error h) fun _ => ?_
      exact wp_skip rfl (fun _ => rfl) (fun _ => .error ⟨rfl, rfl⟩) fun _ => wp_commit_row_last
    refine wp_mono _ hrow ?_
    rintro (e | u) b' ⟨hs, hok⟩
    · exact wp_watch_step rfl (fun _ _ _ => .error ⟨hs.live, hs.early⟩)
        fun _ _ _ => .error ⟨hs.live, hs.early⟩
    · have hst := hok u rfl
      exact wp_watch_step rfl (fun _ _ _ => .error ⟨hs.live, hs.early⟩)
        fun _ _ _ => .ok ⟨⟨hst.live, hst.early⟩, hst.committed⟩
  rw [Collector.persistCacheHit, wp_bind]
  refine wp_mono _ hsession ?_
  rintro (e | u) b' ⟨hs, hok⟩
  · exact hs
  · have hst := hok u rfl
    dsimp only
    cases c.idempotency with
    | none => exact hs
    | some requestId =>
      refine wp_told (q := .timestamp) rfl (fun _ => rfl) fun created => ?_
      exact wp_watch_last rfl fun a => (hst.write a).toSober

/-- A stored answer, streamed. -/
theorem wp_streamCachedCompletion_sober {persistence : Option (Eff Unit)}
    (hp : ∀ p, persistence = some p → wp (watch Books.note) p SoberPost {})
    (cached : Exact.CachedResponse) (requestedSlot conversationId messageId : String) :
    wp (watch Books.note)
      (streamCachedCompletion persistence cached requestedSlot conversationId messageId)
      SoberPost {} := by
  rw [streamCachedCompletion.eq_def, wp_bind]
  refine wp_streams (streams_yieldAll _) fun r => ?_
  rcases r with e | u
  · exact sober_blank
  · dsimp only
    cases persistence with
    | none => exact sober_blank
    | some p =>
      rw [wp_bind, wp_attempt]
      refine wp_mono _ (hp p rfl) ?_
      intro r b' h'
      exact (wp_ofExcept _ _ _ _).mpr h'

theorem wp_cacheAnswer_stored (req : Request) (outcome : RouterOutcome) (h : Stored b) :
    wp (watch Books.note) (cacheAnswer req outcome) AlwaysStored b := by
  rw [cacheAnswer]
  cases cacheSlot req outcome.report with
  | none => exact h
  | some key =>
    refine wp_told (q := .isoNow) rfl (fun _ => rfl) fun createdAt => ?_
    exact wp_watch_last rfl fun a => h.write a

/-! ## The turn -/

/-- What is left when the endpoint's answer is there: the conversation has it, or
a stream is still to run. -/
def ServedPost (r : Except Fault Served) (b : Books) : Prop :=
  match r with
  | .ok (.json _ _) => Stored b
  | .ok (.stream body _) => wp (watch Books.note) body (fun _ b' => Final b') b
  | .error _ => Final b

/-- A stream that is handed over. -/
theorem wp_handed {body : Eff Unit} {xCache : Exact.CacheStatus} {Q : Except Fault Unit → Books → Prop}
    (h : wp (watch Books.note) body Q b) (hQ : ∀ r b', Q r b' → Final b') :
    wp (watch Books.note) (.ret (.stream body xCache)) ServedPost b := by
  rw [wp_ret]
  exact wp_mono _ h hQ

theorem wp_failTurn_final {α : Type} (failure : RoutingFailed)
    {Q : Except Fault α → Books → Prop} (hQ : ∀ e b', Final b' → Q (.error e) b') (h : Final b) :
    wp (watch Books.note) (failTurn failure) Q b :=
  wp_failTurn failure (fun _ => rfl) (fun _ => rfl) (fun e => hQ e _ h) fun e _ => hQ e _ h

theorem wp_serveOutcome_served (req : Request) (conversation : Conversation)
    (xCache : Exact.CacheStatus) (outcome : RouterOutcome) :
    wp (watch Books.note) (serveOutcome req conversation xCache outcome) ServedPost {} := by
  have herror : ∀ e b', Sober b' → ServedPost (.error e) b' := fun _ _ h => h.final
  rw [serveOutcome]
  refine wp_told (q := .elapsedMs) rfl (fun _ => rfl) fun _ => ?_
  refine wp_append_row herror fun _ => ?_
  refine wp_skip (q := .record .success) rfl (fun _ => rfl)
    (fun e => herror e _ ⟨rfl, rfl⟩) fun _ => ?_
  refine wp_commit_row herror fun b' h' => ?_
  rw [wp_bind]
  refine wp_mono _ (wp_cacheAnswer_stored req outcome h') ?_
  intro r b'' h''
  rcases r with e | u
  · exact herror e b'' h''.toSober
  · exact wp_told (q := .timestamp) rfl (fun _ => rfl) fun _ => h''

theorem wp_serveCacheHit_served (req : Request) (conversation : Conversation)
    (cached : Exact.CachedResponse) :
    wp (watch Books.note) (serveCacheHit req conversation cached) ServedPost {} := by
  have herror : ∀ e b', Sober b' → ServedPost (.error e) b' := fun _ _ h => h.final
  rw [serveCacheHit]
  refine wp_append_row herror fun _ => ?_
  refine wp_told (q := .elapsedMs) rfl (fun _ => rfl) fun _ => ?_
  refine wp_skip (q := .record .cacheHit) rfl (fun _ => rfl)
    (fun e => herror e _ ⟨rfl, rfl⟩) fun _ => ?_
  refine wp_commit_row herror fun b' h' => ?_
  exact wp_told (q := .timestamp) rfl (fun _ => rfl) fun _ => h'

theorem wp_serveRouted_served (req : Request) (conversation : Conversation)
    (xCache : Exact.CacheStatus) :
    wp (watch Books.note) (serveRouted req conversation xCache) ServedPost {} := by
  rw [serveRouted]
  refine wp_skip rfl (fun _ => rfl) (fun _ => sober_blank.final) fun r => ?_
  cases r with
  | error failure => exact wp_failTurn_final failure (fun _ _ h => h) sober_blank.final
  | ok outcome => exact wp_serveOutcome_served req conversation xCache outcome

theorem wp_completeChatCompletion_served (req : Request) (conversation : Conversation) :
    wp (watch Books.note) (completeChatCompletion req conversation) ServedPost {} := by
  rw [completeChatCompletion]
  cases req.cacheKey with
  | none => exact wp_serveRouted_served req conversation .bypass
  | some key =>
    refine wp_skip rfl (fun _ => rfl) (fun _ => sober_blank.final) fun found => ?_
    cases found with
    | none => exact wp_serveRouted_served req conversation .miss
    | some cached => exact wp_serveCacheHit_served req conversation cached

/-- A live stream. -/
theorem wp_serveLive_served (req : Request) (ticket : Option ClaimTicket)
    (conversation : Conversation) (messageId : String) :
    wp (watch Books.note) (serveLive req ticket conversation messageId) ServedPost {} := by
  rw [serveLive]
  rintro ⟨events, ending⟩ _ rfl
  have hahead : Ahead (Books.note {} ⟨.routeStream, ((events, ending) :
      List RouteStreamEvent × Ending)⟩) := ⟨rfl, rfl, rfl⟩
  have hstream := wp_streamCompletion_behind (req.collector ticket) conversation.id messageId
    req.body.model conversation.pinnedModel events ending hahead
  refine (wp_bind _ ((prime _).attempt) _ _ _).mpr ?_
  rw [wp_attempt]
  refine wp_mono _ (wp_prime _ (fun _ => True) (fun _ _ _ _ _ _ _ => trivial) trivial hstream) ?_
  rintro (e | ⟨frame, rest⟩) b' ⟨-, h'⟩
  · obtain ⟨_, hb⟩ := h'
    cases e with
    | routing failure => exact wp_failTurn_final failure (fun _ _ h => h) hb.final
    | _ => exact hb.final
  · exact wp_handed h' fun _ _ hb => hb.final

theorem wp_streamChatCompletion_served (req : Request) (ticket : Option ClaimTicket)
    (conversation : Conversation) :
    wp (watch Books.note) (streamChatCompletion req ticket conversation) ServedPost {} := by
  rw [streamChatCompletion]
  refine wp_told (q := .uuid4) rfl (fun _ => rfl) fun messageId => ?_
  cases req.cacheKey with
  | none => exact wp_serveLive_served req ticket conversation messageId
  | some key =>
    refine wp_skip rfl (fun _ => rfl) (fun _ => sober_blank.final) fun found => ?_
    cases found with
    | none => exact wp_serveLive_served req ticket conversation messageId
    | some cached =>
      refine wp_told (q := .elapsedMs) rfl (fun _ => rfl) fun _ => ?_
      have hpersist : ∀ p, some (Collector.persistCacheHit { idempotency := ticket } cached
          req.body.model conversation.id messageId) = some p →
          wp (watch Books.note) p SoberPost {} := by
        intro p hp
        cases hp
        exact wp_persistCacheHit_sober _ cached req.body.model conversation.id messageId
      exact wp_handed (wp_streamCachedCompletion_sober hpersist cached req.body.model
        conversation.id messageId) fun _ _ h => h.final

/-- The messages of a request are not the answer. -/
theorem wp_appendAll_books (messages : List InputMessage) {Q : Except Fault Unit → Books → Prop}
    (h : ∀ r, Q r b) : wp (watch Books.note) (appendAll messages) Q b := by
  induction messages with
  | nil => exact h _
  | cons message messages ih =>
    refine wp_skip rfl (fun a => ?_) (fun _ => h _) fun _ => ih
    cases message.role <;> rfl

theorem wp_serveCompletion_served (req : Request) (ticket : Option ClaimTicket) :
    wp (watch Books.note) (serveCompletion req ticket) ServedPost {} := by
  have herror : ∀ e, ServedPost (.error e) {} := fun _ => sober_blank.final
  rw [serveCompletion]
  refine wp_skip rfl (fun _ => rfl) herror fun conversation => ?_
  refine wp_skip rfl (fun _ => rfl) herror fun _ => ?_
  rw [wp_bind]
  refine wp_appendAll_books req.body.messages fun r => ?_
  rcases r with e | u
  · exact herror e
  refine wp_skip rfl (fun _ => rfl) herror fun _ => ?_
  refine wp_skip rfl (fun _ => rfl) herror fun _ => ?_
  refine wp_skip rfl (fun _ => rfl) herror fun _ => ?_
  split
  · exact wp_streamChatCompletion_served req ticket conversation
  · exact wp_completeChatCompletion_served req conversation

/-- What the endpoint leads to once its claim is dealt with. -/
def Leads (b : Books) : Served → Prop
  | .json _ _ => Final b
  | .stream body _ => wp (watch Books.note) body (fun _ b' => Final b') b

def LeadsPost (r : Except Fault Served) (b : Books) : Prop :=
  match r with
  | .ok served => Leads b served
  | .error _ => Final b

/-- What a replay leads to; an envelope that cannot be replayed leaves nothing. -/
def ReplayPost (r : Except Fault (Option Served)) (b : Books) : Prop :=
  match r with
  | .ok (some served) => Leads b served
  | .ok none => b = {}
  | .error _ => Final b

/-- A replay writes nothing. -/
theorem wp_serveReplay_leads (req : Request) (envelope : Envelope) :
    wp (watch Books.note) (serveReplay req envelope) ReplayPost {} := by
  have herror : ∀ e, ReplayPost (.error e) {} := fun _ => sober_blank.final
  rw [serveReplay]
  cases envelope.response with
  | none => exact rfl
  | some stored =>
    refine wp_told (q := .elapsedMs) rfl (fun _ => rfl) fun _ => ?_
    refine wp_skip rfl (fun _ => rfl) herror fun _ => ?_
    refine wp_skip rfl (fun _ => rfl) herror fun _ => ?_
    dsimp only
    split
    · refine wp_told (q := .isoNow) rfl (fun _ => rfl) fun createdAt => ?_
      have hreplay : wp (watch Books.note) (streamCachedCompletion none
          (asReplayable stored createdAt) req.body.model stored.conversationId stored.messageId)
          SoberPost {} := by
        refine wp_streamCachedCompletion_sober (fun p hp => ?_) _ _ _ _
        cases hp
      have hleads : Leads {} (.stream (streamCachedCompletion none (asReplayable stored createdAt)
          req.body.model stored.conversationId stored.messageId)
          (envelope.cacheStatus.getD .bypass)) := wp_mono _ hreplay fun _ _ h => h.final
      exact hleads
    · exact sober_blank.final

/-- The claim is completed behind the commit. -/
theorem wp_serveClaimed_leads (req : Request) (ticket : Option ClaimTicket) :
    wp (watch Books.note) (serveClaimed req ticket) LeadsPost {} := by
  rw [serveClaimed, wp_bind, wp_attempt]
  refine wp_mono _ (wp_serveCompletion_served req ticket) ?_
  intro r b' h'
  rcases r with e | served
  · dsimp only
    split
    · exact wp_skip rfl (fun _ => rfl) (fun _ => h') fun _ => h'
    · exact h'
  · cases served with
    | json response xCache =>
      have hstored : Stored b' := h'
      dsimp only
      split
      · exact wp_watch_step (p := complete response (some xCache)) rfl
          (fun a _ _ => (hstored.write a).final) fun a _ _ => (hstored.write a).final
      · exact hstored.final
    | stream body xCache => exact h'

theorem wp_createChatCompletion_leads (req : Request) :
    wp (watch Books.note) (createChatCompletion req) LeadsPost {} := by
  have herror : ∀ e, LeadsPost (.error e) {} := fun _ => sober_blank.final
  rw [createChatCompletion]
  refine wp_skip rfl (fun _ => rfl) herror fun _ => ?_
  cases req.idempotencyKey with
  | none => exact wp_serveClaimed_leads req none
  | some key =>
    dsimp only
    rw [wp_bind, gate]
    split
    · exact herror (.app "invalid_idempotency_key")
    · refine wp_skip rfl (fun _ => rfl) herror fun result => ?_
      cases result with
      | claimed => exact wp_serveClaimed_leads req (some req.requestId)
      | inFlight => exact herror (.app "idempotency_in_flight")
      | fingerprintMismatch => exact herror (.app "idempotency_key_reuse")
      | replay envelope =>
        dsimp only
        rw [wp_bind]
        refine wp_mono _ (wp_serveReplay_leads req envelope) ?_
        intro r b' h'
        rcases r with e | replayed
        · exact h'
        · cases replayed with
          | some served => exact h'
          | none =>
            have hblank : b' = {} := h'
            rw [hblank]
            exact wp_serveClaimed_leads req none

/-- **The books of a turn.** -/
theorem wp_turn_final (req : Request) :
    wp (watch Books.note) (turn req) (fun _ b => Final b) {} := by
  rw [turn, wp_bind]
  refine wp_mono _ (wp_createChatCompletion_leads req) ?_
  intro r b' h'
  rcases r with e | served
  · exact h'
  · cases served with
    | json response xCache => exact h'
    | stream body xCache => exact h'

end

/-- A live stream whose answer is written to the cache or the envelope. -/
def WritesLive (tr : List (Event iface)) : Prop :=
  (Books.of tr).live = true ∧ (Books.of tr).wrote = true

/-- **A turn is durable just when it is not a live stream that writes.** -/
theorem durable_iff_not_writesLive (req : Request) {tr : List (Event iface)}
    {r : Except Fault Unit} (h : (turn req).Runs tr r) : Durable tr ↔ ¬ WritesLive tr := by
  have hfinal : Final (Books.of tr) := wp_watch_sound (wp_turn_final req) h
  rw [durable_iff, hfinal, WritesLive]
  cases (Books.of tr).live <;> cases (Books.of tr).wrote <;> decide

instance (tr : List (Event iface)) : Decidable (WritesLive tr) :=
  inferInstanceAs (Decidable (_ ∧ _))

/-- An answer at once, to be cached. -/
theorem durable_iff_not_writesLive_atOnce :
    Durable (against answering (turn { cold with body.stream := false })).1 :=
  (durable_iff_not_writesLive { cold with body.stream := false }
    (against_runs answering (turn _))).mpr (by decide)

/-- **A replayable answer need not be committed.** A live stream completes its
claim before its session commits. -/
theorem not_durable :
    ¬ ∀ (req : Request) (tr : List (Event iface)) (r : Except Fault Unit),
      (turn req).Runs tr r → Durable tr := by
  intro h
  have hdurable := h { cold with idempotencyKey := some "k" } _ _
    (against_runs answering (turn _))
  exact absurd ((durable_iff _).mp hdurable) (by decide)

end Chat

end LlmGateway
