import LlmGateway.Effects.Checked
import LlmGateway.Streaming.Delivery

/-!
# What is handed over

What a run of `stream_completion` hands to persistence, against what its client
has been told: the ids its `meta` promised, and the `done` it ended with.
-/

namespace LlmGateway

namespace Streaming

open Effects Chat

/-- The turn of a conversation, under the id its answer will have. -/
structure Turn.Addressed (conversationId messageId : String) (s : Turn) : Prop where
  conversation : s.conversationId = conversationId
  message : s.messageId = messageId

/-- A `meta` that promises these ids. -/
def MetaEvent.Promises (conversationId messageId : String) (e : MetaEvent) : Prop :=
  e.conversationId = conversationId ∧ e.messageId = messageId

/-- What the loop may ask for while the stream is open. -/
def Ongoing (conversationId messageId : String) : Ask → Prop
  | .yield (.meta e) => e.Promises conversationId messageId
  | .yield (.done _) | .persist _ => False
  | _ => True

/-- What is out keeps its promise. -/
def Promised (conversationId messageId : String) (f : Feed) : Prop :=
  ∀ e, Frame.meta e ∈ f.sent → e.Promises conversationId messageId

/-- No `done` has been read. -/
def Undone (f : Feed) : Prop := f.closed = true ∨ ∀ e, Frame.done e ∉ f.sent

/-- Nothing is over yet. -/
structure Open (conversationId messageId : String) (f : Feed) : Prop where
  promised : Promised conversationId messageId f
  undone : Undone f
  handed : f.handed = []

section

variable {conversationId messageId : String} {s s' : Turn} {f : Feed}

theorem Open.yield {frame : Frame} (h : Open conversationId messageId f)
    (hf : Ongoing conversationId messageId (.yield frame)) (a : Consumer) :
    Open conversationId messageId (f.note ⟨.yield frame, a⟩) := by
  have hdone : ∀ e, frame ≠ .done e := by
    rintro e rfl
    exact hf
  refine ⟨fun e he => ?_, ?_, h.handed⟩
  · rcases List.mem_append.mp he with he | he
    · exact h.promised e he
    · obtain rfl := List.mem_singleton.mp he
      exact hf
  · rcases h.undone with hc | hu
    · exact .inl (by simp [Feed.note, hc])
    · refine .inr fun e he => ?_
      rcases List.mem_append.mp he with he | he
      · exact hu e he
      · exact hdone e (List.mem_singleton.mp he).symm

theorem Open.note {q : Ask} {a : Ans q} (h : Open conversationId messageId f)
    (hq : Ongoing conversationId messageId q) : Open conversationId messageId (f.note ⟨q, a⟩) := by
  cases q with
  | yield frame => exact h.yield hq a
  | persist result => exact hq.elim
  | _ => exact ⟨h.promised, h.undone, h.handed⟩

/-- What a block may ask keeps the stream open. -/
theorem Open.wp {α : Type} {p : Eff α} (h : Open conversationId messageId f)
    (hp : p.Asks (Ongoing conversationId messageId)) :
    wp (watch Feed.note) p (fun _ f' => Open conversationId messageId f') f := by
  refine hp.wp_inv ?_ h
  rintro f q a _ hq rfl hf
  exact hf.note hq

/-! ## The blocks of the loop -/

theorem asks_clientGone : clientGone.Asks (Ongoing conversationId messageId) :=
  ⟨trivial, fun _ => Prog.asks_ofExcept _⟩

theorem asks_yieldFrame {frame : Frame} (h : Ongoing conversationId messageId (.yield frame)) :
    (yieldFrame frame).Asks (Ongoing conversationId messageId) :=
  ⟨h, fun _ => Prog.asks_ofExcept _⟩

theorem asks_beat (s : Turn) (n : Nat) : (beat s n).Asks (Ongoing conversationId messageId) := by
  induction n with
  | zero => trivial
  | succ n ih =>
    rw [beat]
    refine asks_clientGone.bind fun gone => ?_
    split
    · trivial
    · split
      · exact (asks_yieldFrame (show Ongoing _ _ (.yield .heartbeat) from trivial)).bind fun _ => ih
      · exact ih

theorem asks_awaitNext (s : Turn) (pulled : Pulled) :
    (awaitNext s pulled).Asks (Ongoing conversationId messageId) := by
  rw [awaitNext]
  have hwait : (wait pulled).Asks (Ongoing conversationId messageId) :=
    ⟨trivial, fun _ => trivial⟩
  refine hwait.bind fun waited => (asks_beat s _).bind fun gone => ?_
  split
  · trivial
  · split
    · trivial
    · exact asks_clientGone

theorem asks_yieldAll {frames : List Frame}
    (h : ∀ frame ∈ frames, Ongoing conversationId messageId (.yield frame)) :
    (yieldAll frames).Asks (Ongoing conversationId messageId) := by
  induction frames with
  | nil => trivial
  | cons frame frames ih =>
    rw [yieldAll]
    refine (asks_yieldFrame (h frame List.mem_cons_self)).bind fun _ => ?_
    exact ih fun frame hmem => h frame (List.mem_cons_of_mem _ hmem)

theorem asks_countAttempt (ev : RouteStreamEvent) :
    (countAttempt ev).Asks (Ongoing conversationId messageId) := by
  cases ev with
  | started _ _ => exact ⟨trivial, fun _ => Prog.asks_ofExcept _⟩
  | _ => trivial

/-! ## One event -/

/-- Only the end of the attempt that served puts a `done` out. -/
structure Turn.Keeps (ev : RouteStreamEvent) (s s' : Turn) (frames : List Frame) : Prop where
  conversation : s'.conversationId = s.conversationId
  message : s'.messageId = s.messageId
  ongoing : (∃ c, ev = .completed c ∧ s'.done = true) ∨
    ∀ frame ∈ frames, Ongoing s.conversationId s.messageId (.yield frame)

theorem Turn.promises {e : MetaEvent} (h : s.metaEvent = .ok e) :
    e.Promises s.conversationId s.messageId := by
  unfold metaEvent served at h
  split at h
  next =>
    cases h
    exact ⟨rfl, rfl⟩
  next => cases h

theorem Turn.announce_keeps {frames : List Frame} (h : s.announce = .ok (s', frames)) :
    s'.conversationId = s.conversationId ∧ s'.messageId = s.messageId ∧
      ∀ frame ∈ frames, Ongoing s.conversationId s.messageId (.yield frame) := by
  unfold announce at h
  split at h
  next =>
    obtain ⟨e, he, hok⟩ := bind_eq_ok_iff.mp h
    cases hok
    refine ⟨rfl, rfl, fun frame hmem => ?_⟩
    obtain rfl := List.mem_singleton.mp hmem
    exact Turn.promises he
  next =>
    split at h
    next =>
      obtain ⟨e, -, hok⟩ := bind_eq_ok_iff.mp h
      cases hok
      refine ⟨rfl, rfl, fun frame hmem => ?_⟩
      obtain rfl := List.mem_singleton.mp hmem
      trivial
    next =>
      cases h
      exact ⟨rfl, rfl, fun _ hmem => absurd hmem List.not_mem_nil⟩

theorem Turn.apply_keeps {ev : RouteStreamEvent} {frames : List Frame}
    (h : s.apply ev = .ok (s', frames)) : s.Keeps ev s' frames := by
  have hnone : ∀ frame ∈ ([] : List Frame),
      Ongoing s.conversationId s.messageId (.yield frame) :=
    fun _ hmem => absurd hmem List.not_mem_nil
  cases ev with
  | started attempt spec =>
    cases h
    exact ⟨rfl, rfl, .inr hnone⟩
  | aborted _ spec error discardedChars _ =>
    cases h
    exact ⟨rfl, rfl, .inr hnone⟩
  | completed c =>
    rw [apply] at h
    obtain ⟨e, -, hok⟩ := bind_eq_ok_iff.mp h
    cases hok
    exact ⟨rfl, rfl, .inl ⟨c, rfl, rfl⟩⟩
  | delta text =>
    rw [apply] at h
    obtain ⟨⟨s₁, announced⟩, hannounce, hok⟩ := bind_eq_ok_iff.mp h
    cases hok
    obtain ⟨hconversation, hmessage, hongoing⟩ := Turn.announce_keeps hannounce
    refine ⟨hconversation, hmessage, .inr fun frame hmem => ?_⟩
    rcases List.mem_append.mp hmem with hmem | hmem
    · exact hongoing frame hmem
    · obtain rfl := List.mem_singleton.mp hmem
      trivial

/-! ## The run -/

/-- How the loop is left: with a `done` only if the turn is over. -/
def LoopPost (conversationId messageId : String) (r : Except Fault Driven) (f : Feed) : Prop :=
  Promised conversationId messageId f ∧ f.handed = [] ∧ match r with
    | .ok (.stopped s) => s.Addressed conversationId messageId
    | .ok (.failed s _) => s.Addressed conversationId messageId ∧ Undone f
    | _ => Undone f

theorem Open.loopPost {r : Except Fault Driven} (h : Open conversationId messageId f)
    (hr : ∀ s failure, r = .ok (.failed s failure) → s.Addressed conversationId messageId)
    (hs : ∀ s, r = .ok (.stopped s) → s.Addressed conversationId messageId) :
    LoopPost conversationId messageId r f := by
  refine ⟨h.promised, h.handed, ?_⟩
  rcases r with e | driven
  · exact h.undone
  · cases driven with
    | gone => exact h.undone
    | stopped s => exact hs s rfl
    | failed s failure => exact ⟨hr s failure rfl, h.undone⟩

theorem Open.raised {e : Fault} (h : Open conversationId messageId f) :
    LoopPost conversationId messageId (.error e) f :=
  h.loopPost (fun _ _ he => by cases he) (fun _ he => by cases he)

theorem Open.left (h : Open conversationId messageId f) :
    LoopPost conversationId messageId (.ok .gone) f :=
  h.loopPost (fun _ _ he => by cases he) (fun _ he => by cases he)

/-- A `done` that is read, or the consumer closes the response at. -/
theorem Open.finish (h : Open conversationId messageId f) (e : DoneEvent) :
    Promised conversationId messageId (f.note ⟨.yield (.done e), Consumer.next⟩) ∧
      Open conversationId messageId (f.note ⟨.yield (.done e), Consumer.closes⟩) := by
  have hsame : ∀ a : Consumer, Promised conversationId messageId (f.note ⟨.yield (.done e), a⟩) := by
    intro a e' he'
    rcases List.mem_append.mp he' with he' | he'
    · exact h.promised e' he'
    · cases List.mem_singleton.mp he'
  exact ⟨hsame .next, hsame .closes, .inl (by simp [Feed.note]), h.handed⟩

theorem wp_drive_open {ending : Ending} (evs : List RouteStreamEvent)
    (h : Open conversationId messageId f) (hs : s.Addressed conversationId messageId) :
    wp (watch Feed.note) (drive s evs ending) (LoopPost conversationId messageId) f := by
  induction evs generalizing s f with
  | nil =>
    rw [drive, wp_bind]
    refine wp_mono _ (h.wp (asks_awaitNext s _)) ?_
    rintro (e | gone) f' hf'
    · exact hf'.raised
    dsimp only
    split
    · exact hf'.left
    · cases ending with
      | stopped => exact hf'.loopPost (fun _ _ he => by cases he) (fun _ he => by cases he; exact hs)
      | failed failure =>
        exact hf'.loopPost (fun _ _ he => by cases he; exact hs) (fun _ he => by cases he)
      | raised e => exact hf'.raised
  | cons ev evs ih =>
    rw [drive, wp_bind]
    refine wp_mono _ (h.wp (asks_awaitNext s _)) ?_
    rintro (e | gone) f₁ hf₁
    · exact hf₁.raised
    dsimp only
    split
    · exact hf₁.left
    rw [wp_bind, wp_ofExcept]
    cases happly : s.apply ev with
    | error e => exact hf₁.raised
    | ok out =>
      obtain ⟨s', frames⟩ := out
      have hkeeps := Turn.apply_keeps happly
      have hs' : s'.Addressed conversationId messageId :=
        ⟨hkeeps.conversation.trans hs.conversation, hkeeps.message.trans hs.message⟩
      change wp _ (yieldAll frames >>= fun _ => _) _ _
      rw [wp_bind]
      rcases hkeeps.ongoing with ⟨c, rfl, hdone⟩ | hongoing
      · -- The last event: its frame is the `done` of the turn.
        rw [Turn.apply] at happly
        obtain ⟨e, -, hok⟩ := bind_eq_ok_iff.mp happly
        cases hok
        obtain ⟨hread, hclosed⟩ := hf₁.finish e
        change wp _ (yieldFrame (.done e) >>= fun _ => .ret ()) _ _
        rw [wp_bind, wp_yieldFrame]
        refine ⟨⟨hread, hf₁.handed, hs'⟩, hclosed.raised⟩
      · have hyield : ∀ frame ∈ frames, Ongoing conversationId messageId (.yield frame) := by
          rw [← hs.conversation, ← hs.message]
          exact hongoing
        refine wp_mono _ (hf₁.wp (asks_yieldAll hyield)) ?_
        rintro (e | u) f₂ hf₂
        · exact hf₂.raised
        dsimp only
        rw [wp_bind]
        refine wp_mono _ (hf₂.wp (asks_countAttempt ev)) ?_
        rintro (e | u) f₃ hf₃
        · exact hf₃.raised
        dsimp only
        split
        · exact hf₃.loopPost (fun _ _ he => by cases he) (fun _ he => by cases he; exact hs')
        · exact ih hf₃ hs'

/-- **What is handed over** is the turn the client was told about: its ids, its end, and if it was
served its text. And a client that was told of an end and read it has had its turn handed over. -/
structure HandedOver (conversationId messageId : String) (f : Feed) (c : Client) : Prop where
  delivered : Delivered f c
  promised : Promised conversationId messageId f
  results : ∀ result ∈ f.handed, ∃ s e, result = Turn.result s ∧
    s.Addressed conversationId messageId ∧ s.doneEvent = .ok e ∧ c.ended = some e ∧
    (s.status = .ok → s.text = c.text)
  told : Undone f ∨ f.handed ≠ []

theorem HandedOver.of_none {c : Client} (hdel : Delivered f c)
    (hp : Promised conversationId messageId f) (hn : f.handed = []) (hu : Undone f) :
    HandedOver conversationId messageId f c := by
  refine ⟨hdel, hp, ?_, .inl hu⟩
  rw [hn]
  exact fun _ hmem => absurd hmem List.not_mem_nil

theorem wp_handOver_told {c : Client} {e : DoneEvent} (hdel : Delivered f c)
    (hp : Promised conversationId messageId f) (hn : f.handed = [])
    (hs : s.Addressed conversationId messageId) (hd : s.done = true) (he : s.doneEvent = .ok e)
    (hended : c.ended = some e) (htext : s.status = .ok → s.text = c.text) :
    wp (watch Feed.note) (handOver persist s)
      (fun _ f' => ∃ c, HandedOver conversationId messageId f' c) f := by
  refine wp_mono _ (wp_handOver s f) ?_
  rintro r f' ⟨hk, hhanded⟩
  rw [if_pos hd, hn] at hhanded
  have hdel' : Delivered f' c := by
    refine ⟨by rw [hk.sent]; exact hdel.heard, hk.early.trans hdel.early, ?_⟩
    rw [hk.closed]
    exact hdel.whole
  refine ⟨c, hdel', ?_, ?_, .inr ?_⟩
  · unfold Promised
    rw [hk.sent]
    exact hp
  · intro result hmem
    rw [hhanded] at hmem
    obtain rfl := List.mem_singleton.mp hmem
    exact ⟨s, e, rfl, hs, he, hended, htext⟩
  · rw [hhanded]
    simp

theorem Between.unended {c : Client} (h : Between s c) : c.ended = none := by
  rcases h with h | h
  · rw [h.client]
  · exact h.ended

theorem wp_streamCompletion_handedOver {r : Except Exn (Except RoutingFailed Unit)}
    (conversationId messageId requested : String) (pinned : Option String)
    (evs : List RouteStreamEvent)
    (hscript : Router.RunScript r (evs.foldlM Router.Scene.hear .quiet)) :
    wp (watch Feed.note)
      (streamCompletion persist conversationId messageId requested pinned evs (.of r))
      (fun _ f => ∃ c, HandedOver conversationId messageId f c) {} := by
  have hstart : AtLoop .quiet { conversationId, messageId, requested, pinned } {} {} :=
    ⟨rfl, rfl, rfl, fun hc => (by cases hc), rfl, .inl ⟨rfl, rfl, rfl, rfl, rfl⟩⟩
  have hopen : Open conversationId messageId {} :=
    ⟨fun _ he => (by cases he), .inr fun _ he => (by cases he), rfl⟩
  rw [streamCompletion, wp_bind, wp_attempt]
  refine wp_mono _ (wp_and _ (wp_drive evs hstart hscript)
    (wp_drive_open evs hopen ⟨rfl, rfl⟩)) ?_
  rintro (e | driven) f ⟨⟨c, hdel, hnone, hdriven⟩, hp, -, hend⟩
  · rintro _ _ rfl
    exact ⟨c, .of_none hdel hp hnone hend⟩
  cases driven with
  | gone =>
    rintro _ _ rfl
    exact ⟨c, .of_none hdel hp hnone hend⟩
  | stopped s =>
    obtain ⟨hd, hsettles⟩ := hdriven
    obtain ⟨e, he, hended⟩ := hsettles.ended
    rintro _ _ rfl
    exact wp_handOver_told hdel hp hnone hend hd he hended hsettles.text
  | failed s failure =>
    obtain ⟨hd, hb, hspoken⟩ := hdriven
    obtain ⟨hs, hu⟩ := hend
    dsimp only
    split
    next =>
      rintro _ _ rfl
      exact ⟨c, .of_none hdel hp hnone hu⟩
    next hc =>
      have hcommitted : s.committed = true := by
        simpa using hc
      have hw : Withdrawn s c := by
        rcases hb with hu | hw
        · exact absurd hu.committed hc
        · exact hw
      obtain ⟨e, he, hhear⟩ := hw.fail failure
      have hfinish := (Open.mk hp hu hnone).finish e
      rw [wp_bind, wp_attempt, failInBand, he, wp_bind, wp_ofExcept]
      change wp _ (yieldFrame (.done e)) _ _
      rw [wp_yieldFrame]
      have hdone : ∀ a : Consumer, Delivered (f.note ⟨.yield (Frame.done e), a⟩)
          { c with ended := some e } := by
        intro a
        refine ⟨?_, ?_, fun _ => .inr hw.said⟩
        · change (f.sent ++ [Frame.done e]).foldlM Client.hear {} = _
          rw [List.foldlM_append]
          refine Option.bind_eq_some_iff.mpr ⟨c, hdel.heard, ?_⟩
          rw [List.foldlM_cons]
          exact Option.bind_eq_some_iff.mpr ⟨_, hhear, rfl⟩
        · simp [Feed.note, hdel.early, hspoken hcommitted]
      constructor
      · rintro _ _ rfl
        exact wp_handOver_told (hdone .next) hfinish.1 hnone ⟨hs.conversation, hs.message⟩ rfl he
          rfl fun hok => (by cases hok)
      · rintro _ _ rfl
        exact ⟨_, .of_none (hdone .closes) hfinish.2.promised hnone hfinish.2.undone⟩

end

end Streaming

end LlmGateway
