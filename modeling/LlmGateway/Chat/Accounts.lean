import LlmGateway.Chat.Blocks

/-!
# The rows of a turn

Every turn that is answered is one row of the `requests` table, and is counted as
often as that row is asked for. A turn asks for no second one, whatever fails on its
way, and an answer that is sent at once has asked for exactly one, of its own kind.
-/

namespace LlmGateway

namespace Chat

open Effects Streaming

/-! ## The rows of a trace -/

/-- The row of one event. -/
def rowOf : Event iface → Option UsageRow
  | ⟨.record row, _⟩ => some row
  | _ => none

/-- The rows that are asked for, in order. -/
def rows (tr : List (Event iface)) : List UsageRow := tr.filterMap rowOf

/-- The rows so far, and that of one more event. -/
def noteRow (asked : List UsageRow) (e : Event iface) : List UsageRow := asked ++ (rowOf e).toList

theorem foldl_noteRow (tr : List (Event iface)) (asked : List UsageRow) :
    tr.foldl noteRow asked = asked ++ rows tr := by
  induction tr generalizing asked with
  | nil => exact (List.append_nil asked).symm
  | cons e tr ih =>
    rw [List.foldl_cons, ih, noteRow, List.append_assoc, rows, rows, List.filterMap_cons]
    cases rowOf e <;> rfl

/-- What is not a row. -/
def Ask.quiet : Ask → Bool
  | .record _ => false
  | _ => true

/-- A program that asks for no row. -/
abbrev Quiet {α : Type} (p : Eff α) : Prop := p.Asks fun q => Ask.quiet q = true

section

variable {α β : Type} {asked : List UsageRow}

theorem noteRow_quiet {q : Ask} (hq : q.quiet = true) (a : Ans q) :
    noteRow asked ⟨q, a⟩ = asked := by
  cases q with
  | record row => cases hq
  | _ => exact List.append_nil asked

theorem wp_quiet {p : Eff α} (hp : Quiet p)
    {Q : Except Fault α → List UsageRow → Prop} (h : ∀ r, Q r asked) :
    wp (watch noteRow) p Q asked :=
  hp.wp_watch (fun _ _ a hq => noteRow_quiet hq a) h

/-- The same, with more behind it. -/
theorem wp_quietly {p : Eff α} (hp : Quiet p) {f : α → Eff β}
    {Q : Except Fault β → List UsageRow → Prop} (herror : ∀ e, Q (.error e) asked)
    (hok : ∀ a, wp (watch noteRow) (f a) Q asked) : wp (watch noteRow) (p >>= f) Q asked := by
  rw [wp_bind]
  refine wp_quiet hp fun r => ?_
  rcases r with e | a
  · exact herror e
  · exact hok a

/-- A row. -/
theorem wp_record {row : UsageRow} {f : Unit → Eff β} {Q : Except Fault β → List UsageRow → Prop}
    (herror : ∀ e, Q (.error e) (asked ++ [row]))
    (hok : wp (watch noteRow) (f ()) Q (asked ++ [row])) :
    wp (watch noteRow) (record row >>= f) Q asked :=
  wp_watch_step (p := record row) rfl (fun _ e _ => herror e) fun _ _ _ => hok

/-- One question that is not a row. -/
theorem quiet_ask {p : Eff α} {q : Ask} {o : Ans q → Except Fault α}
    (hp : p = .ask q fun a => .ofExcept (o a)) (hq : q.quiet = true) :
    Quiet p := by
  subst hp
  exact ⟨hq, fun a => Prog.asks_ofExcept _⟩

/-- What a stream asks on its way is not a row. -/
theorem quiet_streams {p : Eff α} (hp : Streams p) : Quiet p := by
  refine hp.mono fun q hq => ?_
  cases q with
  | record row => cases hq
  | _ => rfl

end

/-! ## The collector -/

/-- At most one row, whatever becomes of the program. -/
def AtMostOne {α : Type} (_ : Except Fault α) (asked : List UsageRow) : Prop := asked.length ≤ 1

theorem wp_withSession_rows {p : Eff Unit} (h : wp (watch noteRow) p AtMostOne []) :
    wp (watch noteRow) (Collector.withSession p) AtMostOne [] := by
  have hclose : Quiet closeSession := quiet_ask (q := .closeSession) rfl rfl
  rw [Collector.withSession]
  refine wp_quietly (quiet_ask (q := .openSession) rfl rfl) (fun _ => Nat.zero_le 1) fun _ => ?_
  rw [wp_bind, wp_attempt]
  refine wp_mono _ h fun r asked hasked => ?_
  rcases r with e | a
  · exact wp_quietly hclose (fun _ => hasked) fun _ => hasked
  · exact wp_quietly hclose (fun _ => hasked) fun _ => hasked

theorem quiet_cacheAnswer (c : Collector) (result : StreamResult) (spec : ModelSpec) :
    Quiet (c.cacheAnswer result spec) := by
  unfold Collector.cacheAnswer
  split
  · trivial
  · exact .bind (p := isoNow) ⟨rfl, fun _ => trivial⟩ fun _ =>
      ⟨rfl, fun a => Prog.asks_ofExcept _⟩

theorem quiet_completeClaim (c : Collector) (result : StreamResult) (spec : ModelSpec) :
    Quiet (c.completeClaim result spec) := by
  unfold Collector.completeClaim
  split
  · trivial
  · exact .bind (p := timestamp) ⟨rfl, fun _ => trivial⟩ fun _ =>
      ⟨rfl, fun a => Prog.asks_ofExcept _⟩

theorem wp_persist_rows (c : Collector) (result : StreamResult) :
    wp (watch noteRow) (c.persist result) AtMostOne [] := by
  have hcommit : Quiet commitSession :=
    quiet_ask (q := .commitSession) rfl rfl
  refine wp_withSession_rows ?_
  split
  · rw [wp_bind, Collector.persistSuccess]
    split
    · exact Nat.zero_le 1
    · refine wp_quietly (quiet_ask (q := .append _ _ _ _) rfl rfl) (fun _ => Nat.zero_le 1)
        fun _ => ?_
      refine wp_record (fun _ => Nat.le_refl 1) ?_
      refine wp_quietly (quiet_cacheAnswer c result _) (fun _ => Nat.le_refl 1) fun _ => ?_
      refine wp_quiet (quiet_completeClaim c result _) fun r => ?_
      rcases r with e | a
      · exact Nat.le_refl 1
      · exact wp_quiet hcommit fun _ => Nat.le_refl 1
  · rw [wp_bind, Collector.persistFailure]
    refine wp_record (fun _ => Nat.le_refl 1) ?_
    split
    · refine wp_quiet (quiet_ask (q := .release) rfl rfl) fun r => ?_
      rcases r with e | a
      · exact Nat.le_refl 1
      · exact wp_quiet hcommit fun _ => Nat.le_refl 1
    · exact wp_quiet hcommit fun _ => Nat.le_refl 1

theorem wp_persistCacheHit_rows (c : Collector) (cached : Exact.CachedResponse)
    (requestedSlot conversationId messageId : String) :
    wp (watch noteRow) (c.persistCacheHit cached requestedSlot conversationId messageId)
      AtMostOne [] := by
  rw [Collector.persistCacheHit, wp_bind]
  refine wp_mono _ (wp_withSession_rows ?_) fun r asked hasked => ?_
  · refine wp_quietly (quiet_ask (q := .append _ _ _ _) rfl rfl) (fun _ => Nat.zero_le 1)
      fun _ => ?_
    exact wp_record (fun _ => Nat.le_refl 1)
      (wp_quiet (quiet_ask (q := .commitSession) rfl rfl) fun _ => Nat.le_refl 1)
  · rcases r with e | a
    · exact hasked
    · dsimp only
      split
      · exact hasked
      · exact wp_quietly (p := timestamp) ⟨rfl, fun _ => trivial⟩ (fun _ => hasked) fun _ =>
          wp_quiet (quiet_ask (q := .complete _ _) rfl rfl) fun _ => hasked

/-! ## Streams -/

/-- A stream that fails before its first byte has asked for no row, and none ever asks for two. -/
def StreamRows (r : Except Fault Unit) (asked : List UsageRow) : Prop :=
  asked.length ≤ 1 ∧ ∀ failure, r = .error (.routing failure) → asked = []

/-- What is swallowed is no failure of the router. -/
theorem shrugged_ne_routing {r : Except Fault Unit} {failure : RoutingFailed} :
    shrugged r ≠ .error (.routing failure) := by
  intro h
  rcases r with e | u
  · unfold shrugged at h
    dsimp only at h
    split at h
    · cases h
    · next hexn =>
      obtain rfl := Except.error.inj h
      exact hexn rfl
  · cases h

theorem wp_shrug_rows {p : Eff Unit} (h : wp (watch noteRow) p AtMostOne []) :
    wp (watch noteRow) (p.attempt >>= fun r => .ofExcept (shrugged r)) StreamRows [] := by
  rw [wp_bind, wp_attempt]
  refine wp_mono _ h fun r asked hasked => ?_
  exact (wp_ofExcept _ _ _ _).mpr ⟨hasked, fun _ hrouting => absurd hrouting shrugged_ne_routing⟩

theorem wp_handOver_rows {persistence : StreamResult → Eff Unit}
    (h : ∀ result, wp (watch noteRow) (persistence result) AtMostOne []) (s : Turn) :
    wp (watch noteRow) (handOver persistence s) StreamRows [] := by
  unfold handOver
  split
  · exact wp_shrug_rows (h s.result)
  · exact ⟨Nat.zero_le 1, fun _ _ => rfl⟩

theorem wp_streamCompletion_rows {persistence : StreamResult → Eff Unit}
    (h : ∀ result, wp (watch noteRow) (persistence result) AtMostOne [])
    (conversationId messageId requested : String) (pinned : Option String)
    (events : List RouteStreamEvent) (ending : Ending) :
    wp (watch noteRow) (streamCompletion persistence conversationId messageId requested pinned
      events ending) StreamRows [] := by
  have hclose : Quiet closeEvents := ⟨rfl, fun _ => trivial⟩
  have hnone : ∀ r, StreamRows r [] := fun r => ⟨Nat.zero_le 1, fun _ _ => rfl⟩
  rw [streamCompletion]
  refine wp_quietly (quiet_streams (streams_drive events ending _)).attempt (fun e => hnone _)
    fun driven => ?_
  split
  · exact wp_quiet hclose hnone
  · exact wp_quietly hclose (fun e => hnone _) fun _ => wp_handOver_rows h _
  · split
    · exact wp_quietly hclose (fun e => hnone _) fun _ => hnone _
    · refine wp_quietly (quiet_streams (streams_failInBand _)).attempt (fun e => hnone _)
        fun told => ?_
      split
      · exact wp_quietly hclose (fun e => hnone _) fun _ => wp_handOver_rows h _
      · exact wp_quietly hclose (fun e => hnone _) fun _ => hnone _
  · exact wp_quietly hclose (fun e => hnone _) fun _ => hnone _

theorem quiet_yieldAll (frames : List Frame) : Quiet (yieldAll frames) :=
  quiet_streams (streams_yieldAll frames)

theorem wp_streamCachedCompletion_rows {persistence : Option (Eff Unit)}
    (h : ∀ p, persistence = some p → wp (watch noteRow) p AtMostOne [])
    (cached : Exact.CachedResponse) (requestedSlot conversationId messageId : String) :
    wp (watch noteRow) (streamCachedCompletion persistence cached requestedSlot conversationId
      messageId) AtMostOne [] := by
  unfold streamCachedCompletion
  refine wp_quietly (quiet_yieldAll _) (fun _ => Nat.zero_le 1) fun _ => ?_
  cases persistence with
  | none => exact Nat.zero_le 1
  | some persistCacheHit =>
    exact wp_mono _ (wp_shrug_rows (h persistCacheHit rfl)) fun r asked hasked => hasked.1

/-- A generator that is run up to its first frame, and what is left of it. -/
theorem wp_prime_rows {p : Eff Unit} {Q : Except Fault Unit → List UsageRow → Prop}
    {asked : List UsageRow} (h : wp (watch noteRow) p Q asked) :
    wp (watch noteRow) (prime p) (fun r asked' => match r with
      | .ok (frame, rest) => wp (watch noteRow) (.ask (.yield frame) rest) Q asked'
      | .error e => Q (.error e) asked' ∨
          (e = .exn (.other "StopAsyncIteration") ∧ Q (.ok ()) asked')) asked := by
  induction p generalizing asked with
  | ret a => exact .inr ⟨rfl, h⟩
  | raise e => exact .inl h
  | ask q k ih =>
    by_cases hq : ∃ frame, q = .yield frame
    · obtain ⟨frame, rfl⟩ := hq
      exact h
    · have hask : prime (.ask q k) = .ask q fun a => prime (k a) := by
        cases q <;> first | rfl | exact absurd ⟨_, rfl⟩ hq
      rw [hask]
      intro a asked' hw
      exact ih a (h a asked' hw)

/-! ## The endpoint -/

/-- What the endpoint answers: an answer at once has asked for one row, which is of its kind, and
the rest of a stream never makes it two. -/
def ServedRows (req : Request) (r : Except Fault Served) (asked : List UsageRow) : Prop :=
  match r with
  | .ok (.json _ xCache) => ∃ row, asked = [row] ∧
      (row = .success ∧ xCache ≠ .hit ∨ row = .cacheHit ∧ xCache = .hit ∨
        row = .replay ∧ req.idempotencyKey.isSome)
  | .ok (.stream body _) => wp (watch noteRow) body AtMostOne asked
  | .error _ => asked.length ≤ 1

theorem wp_failTurn_rows (req : Request) (failure : RoutingFailed) :
    wp (watch noteRow) (failTurn failure : Eff Served) (ServedRows req) [] := by
  rw [failTurn]
  refine wp_quietly (p := elapsedMs) ⟨rfl, fun _ => trivial⟩ (fun _ => Nat.zero_le 1) fun _ => ?_
  refine wp_record (fun _ => Nat.le_refl 1) ?_
  exact wp_quietly (quiet_ask (q := .commitSession) rfl rfl) (fun _ => Nat.le_refl 1)
    fun _ => Nat.le_refl 1

theorem wp_serveLive_rows (req : Request) (ticket : Option ClaimTicket)
    (conversation : Conversation) (messageId : String) :
    wp (watch noteRow) (serveLive req ticket conversation messageId) (ServedRows req) [] := by
  rw [serveLive]
  refine wp_quietly (p := routeStream) ⟨rfl, fun _ => trivial⟩ (fun _ => Nat.zero_le 1)
    fun streamed => ?_
  obtain ⟨events, ending⟩ := streamed
  have hstream := wp_streamCompletion_rows (wp_persist_rows (req.collector ticket)) conversation.id
    messageId req.body.model conversation.pinnedModel events ending
  rw [wp_bind, wp_attempt]
  refine wp_mono _ (wp_prime_rows hstream) fun r asked hasked => ?_
  rcases r with e | ⟨first, rest⟩
  · have hlength : asked.length ≤ 1 := by
      rcases hasked with hraised | ⟨-, hended⟩
      · exact hraised.1
      · exact hended.1
    cases e with
    | routing failure =>
      have hnone : asked = [] := by
        rcases hasked with hraised | ⟨hother, -⟩
        · exact hraised.2 failure rfl
        · cases hother
      rw [hnone]
      exact wp_failTurn_rows req failure
    | _ => exact hlength
  · have hbody : wp (watch noteRow) (.ask (.yield first) rest) StreamRows asked := hasked
    have hserved : wp (watch noteRow) (.ask (.yield first) rest) AtMostOne asked :=
      wp_mono _ hbody fun _ _ h => h.1
    exact hserved

theorem wp_streamChatCompletion_rows (req : Request) (ticket : Option ClaimTicket)
    (conversation : Conversation) :
    wp (watch noteRow) (streamChatCompletion req ticket conversation) (ServedRows req) [] := by
  rw [streamChatCompletion]
  refine wp_quietly (p := uuid4) ⟨rfl, fun _ => trivial⟩ (fun _ => Nat.zero_le 1) fun messageId => ?_
  split
  · exact wp_serveLive_rows req ticket conversation messageId
  · refine wp_quietly (quiet_ask (q := .cacheGet _) rfl rfl) (fun _ => Nat.zero_le 1) fun cached => ?_
    cases cached with
    | none => exact wp_serveLive_rows req ticket conversation messageId
    | some cached =>
      refine wp_quietly (p := elapsedMs) ⟨rfl, fun _ => trivial⟩ (fun _ => Nat.zero_le 1)
        fun _ => ?_
      have hpersist : ∀ p, some (Collector.persistCacheHit { idempotency := ticket } cached
          req.body.model conversation.id messageId) = some p →
          wp (watch noteRow) p AtMostOne [] := by
        intro p hp
        obtain rfl := Option.some.inj hp
        exact wp_persistCacheHit_rows _ _ _ _ _
      have hbody := wp_streamCachedCompletion_rows hpersist cached req.body.model conversation.id
        messageId
      exact hbody

theorem wp_serveCacheHit_rows (req : Request) (conversation : Conversation)
    (cached : Exact.CachedResponse) :
    wp (watch noteRow) (serveCacheHit req conversation cached) (ServedRows req) [] := by
  rw [serveCacheHit]
  refine wp_quietly (quiet_ask (q := .append _ _ _ _) rfl rfl) (fun _ => Nat.zero_le 1) fun _ => ?_
  refine wp_quietly (p := elapsedMs) ⟨rfl, fun _ => trivial⟩ (fun _ => Nat.zero_le 1) fun _ => ?_
  refine wp_record (fun _ => Nat.le_refl 1) ?_
  refine wp_quietly (quiet_ask (q := .commitSession) rfl rfl) (fun _ => Nat.le_refl 1) fun _ => ?_
  refine wp_quietly (p := timestamp) ⟨rfl, fun _ => trivial⟩ (fun _ => Nat.le_refl 1) fun _ => ?_
  exact ⟨.cacheHit, rfl, .inr (.inl ⟨rfl, rfl⟩)⟩

theorem quiet_cacheAnswer_outcome (req : Request) (outcome : RouterOutcome) :
    Quiet (cacheAnswer req outcome) := by
  unfold cacheAnswer
  split
  · trivial
  · exact .bind (p := isoNow) ⟨rfl, fun _ => trivial⟩ fun _ =>
      ⟨rfl, fun a => Prog.asks_ofExcept _⟩

theorem wp_serveRouted_rows (req : Request) (conversation : Conversation)
    {xCache : Exact.CacheStatus} (hmiss : xCache ≠ .hit) :
    wp (watch noteRow) (serveRouted req conversation xCache) (ServedRows req) [] := by
  rw [serveRouted]
  refine wp_quietly (quiet_ask (q := .route) rfl rfl) (fun _ => Nat.zero_le 1) fun routed => ?_
  split
  · exact wp_failTurn_rows req _
  · rw [serveOutcome]
    refine wp_quietly (p := elapsedMs) ⟨rfl, fun _ => trivial⟩ (fun _ => Nat.zero_le 1) fun _ => ?_
    refine wp_quietly (quiet_ask (q := .append _ _ _ _) rfl rfl) (fun _ => Nat.zero_le 1)
      fun _ => ?_
    refine wp_record (fun _ => Nat.le_refl 1) ?_
    refine wp_quietly (quiet_ask (q := .commitSession) rfl rfl) (fun _ => Nat.le_refl 1) fun _ => ?_
    refine wp_quietly (quiet_cacheAnswer_outcome req _) (fun _ => Nat.le_refl 1) fun _ => ?_
    refine wp_quietly (p := timestamp) ⟨rfl, fun _ => trivial⟩ (fun _ => Nat.le_refl 1) fun _ => ?_
    exact ⟨.success, rfl, .inl ⟨rfl, hmiss⟩⟩

theorem wp_completeChatCompletion_rows (req : Request) (conversation : Conversation) :
    wp (watch noteRow) (completeChatCompletion req conversation) (ServedRows req) [] := by
  rw [completeChatCompletion]
  split
  · exact wp_serveRouted_rows req conversation (by decide)
  · refine wp_quietly (quiet_ask (q := .cacheGet _) rfl rfl) (fun _ => Nat.zero_le 1) fun cached => ?_
    split
    · exact wp_serveRouted_rows req conversation (by decide)
    · exact wp_serveCacheHit_rows req conversation _

theorem quiet_appendAll (messages : List InputMessage) : Quiet (appendAll messages) := by
  induction messages with
  | nil => trivial
  | cons message messages ih => exact .bind (quiet_ask (q := .append _ _ _ _) rfl rfl) fun _ => ih

theorem wp_serveCompletion_rows (req : Request) (ticket : Option ClaimTicket) :
    wp (watch noteRow) (serveCompletion req ticket) (ServedRows req) [] := by
  have hnone : ∀ e, ServedRows req (.error e) [] := fun _ => Nat.zero_le 1
  rw [serveCompletion]
  refine wp_quietly (quiet_ask (q := .resolveConversation) rfl rfl) hnone fun conversation => ?_
  refine wp_quietly (quiet_ask (q := .resolveFileRefs) rfl rfl) hnone fun _ => ?_
  refine wp_quietly (quiet_appendAll req.body.messages) hnone fun _ => ?_
  refine wp_quietly (quiet_ask (q := .touch _) rfl rfl) hnone fun _ => ?_
  refine wp_quietly (quiet_ask (q := .commitSession) rfl rfl) hnone fun _ => ?_
  refine wp_quietly (quiet_ask (q := .listForConversation) rfl rfl) hnone fun _ => ?_
  split
  · exact wp_streamChatCompletion_rows req ticket conversation
  · exact wp_completeChatCompletion_rows req conversation

/-- A replay is a row of its own, and its stream asks for none. -/
theorem wp_serveReplay_rows (req : Request) (hkey : req.idempotencyKey.isSome)
    (envelope : Envelope) :
    wp (watch noteRow) (serveReplay req envelope) (fun r asked => match r with
      | .ok (some served) => ServedRows req (.ok served) asked
      | .ok none => asked = []
      | .error _ => asked.length ≤ 1) [] := by
  unfold serveReplay
  split
  · exact rfl
  · refine wp_quietly (p := elapsedMs) ⟨rfl, fun _ => trivial⟩ (fun _ => Nat.zero_le 1) fun _ => ?_
    refine wp_record (fun _ => Nat.le_refl 1) ?_
    refine wp_quietly (quiet_ask (q := .commitSession) rfl rfl) (fun _ => Nat.le_refl 1) fun _ => ?_
    dsimp only
    split
    · refine wp_quietly (p := isoNow) ⟨rfl, fun _ => trivial⟩ (fun _ => Nat.le_refl 1)
        fun createdAt => ?_
      have hbody : ∀ cached conversationId messageId, wp (watch noteRow)
          (streamCachedCompletion none cached req.body.model conversationId messageId) AtMostOne
          [.replay] := by
        intro cached conversationId messageId
        unfold streamCachedCompletion
        exact wp_quietly (quiet_yieldAll _) (fun _ => Nat.le_refl 1) fun _ => Nat.le_refl 1
      exact hbody _ _ _
    · exact ⟨.replay, rfl, .inr (.inr ⟨rfl, hkey⟩)⟩

theorem wp_serveClaimed_rows (req : Request) (ticket : Option ClaimTicket) :
    wp (watch noteRow) (serveClaimed req ticket) (ServedRows req) [] := by
  rw [serveClaimed, wp_bind, wp_attempt]
  refine wp_mono _ (wp_serveCompletion_rows req ticket) fun r asked hasked => ?_
  rcases r with e | served
  · have hlength : asked.length ≤ 1 := hasked
    dsimp only
    split
    · exact wp_quietly (quiet_ask (q := .release) rfl rfl) (fun _ => hlength) fun _ => hlength
    · exact hlength
  · cases served with
    | stream body xCache => exact hasked
    | json response xCache =>
      obtain ⟨row, hrow, hkind⟩ := hasked
      have hlength : asked.length ≤ 1 := hrow ▸ Nat.le_refl 1
      dsimp only
      split
      · exact wp_quietly (quiet_ask (q := .complete _ _) rfl rfl) (fun _ => hlength)
          fun _ => ⟨row, hrow, hkind⟩
      · exact ⟨row, hrow, hkind⟩

theorem wp_createChatCompletion_rows (req : Request) :
    wp (watch noteRow) (createChatCompletion req) (ServedRows req) [] := by
  have hnone : ∀ e, ServedRows req (.error e) [] := fun _ => Nat.zero_le 1
  rw [createChatCompletion]
  refine wp_quietly (quiet_ask (q := .validateSlot _) rfl rfl) hnone fun _ => ?_
  split
  · exact wp_serveClaimed_rows req none
  · next key hkey =>
    rw [wp_bind, gate]
    split
    · exact hnone (.app "invalid_idempotency_key")
    · refine wp_quietly (quiet_ask (q := .claim) rfl rfl) hnone fun result => ?_
      cases result with
      | claimed => exact wp_serveClaimed_rows req (some req.requestId)
      | inFlight => exact hnone (.app "idempotency_in_flight")
      | fingerprintMismatch => exact hnone (.app "idempotency_key_reuse")
      | replay envelope =>
        dsimp only
        rw [wp_bind]
        refine wp_mono _ (wp_serveReplay_rows req (by rw [hkey]; rfl) envelope) fun r asked hasked => ?_
        rcases r with e | replayed
        · exact hasked
        · cases replayed with
          | some served => exact hasked
          | none =>
            have hblank : asked = [] := hasked
            rw [hblank]
            exact wp_serveClaimed_rows req none

theorem wp_turn_rows (req : Request) : wp (watch noteRow) (turn req) AtMostOne [] := by
  rw [turn, wp_bind]
  refine wp_mono _ (wp_createChatCompletion_rows req) fun r asked hasked => ?_
  rcases r with e | served
  · exact hasked
  · cases served with
    | json response xCache =>
      obtain ⟨row, rfl, -⟩ := hasked
      exact Nat.le_refl 1
    | stream body xCache => exact hasked

end Chat

end LlmGateway
