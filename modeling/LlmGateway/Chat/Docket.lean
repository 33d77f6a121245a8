import LlmGateway.Chat.Commits
import LlmGateway.Streaming.InBand

/-!
# The claim of a turn

A turn that claims its key has to finish the claim: complete it or release it.
Up to the first byte of a stream the endpoint's handler sees to that; behind it
only the collector does, and whatever ends the body before the collector gets
there leaves the key in flight.
-/

namespace LlmGateway

namespace Chat

open Effects Streaming

/-! ## The docket -/

/-- What has become of a turn's claim. -/
structure Docket where
  /-- The claim was asked for. -/
  gated : Bool := false
  /-- It was taken. -/
  claimed : Bool := false
  /-- It was completed or released. -/
  settled : Bool := false
  /-- The first frame of the response body is out. -/
  streaming : Bool := false
  /-- An interruption came when nobody was left to settle it. -/
  dropped : Bool := false
  deriving DecidableEq, Repr

/-- The router's generator has ended, and not told how the turn came out. -/
def silent : Pulled → Bool
  | .ended .stopped | .ended (.raised _) => true
  | .ended (.failed _) | .event _ => false

/-- The claim has the key. -/
def taken : Claim → Bool
  | .result .claimed => true
  | .result _ => false
  | .raised _ taken => taken

/-- Its caller is cancelled, and nobody knows of what it took. An `Exception` out of
it is waved through. -/
def abandoned : Claim → Bool
  | .result _ => false
  | .raised e _ => !(Fault.exn e).isException

namespace Docket

/-- A settlement. One that does not take effect is the last. -/
def settle (d : Docket) (a : Settled) : Docket :=
  { d with settled := d.settled || applied a, dropped := d.dropped || (!d.settled && !applied a) }

/-- An interruption. -/
def hit (d : Docket) (b : Bool) : Docket :=
  { d with dropped := d.dropped || (d.streaming && !d.settled && b) }

/-- A frame. -/
def utter (d : Docket) : Docket := { d with streaming := true }

/-- The claim, unless there was one before. -/
def claim (d : Docket) (a : Claim) : Docket :=
  if d.gated then d
  else { d with gated := true, claimed := taken a, dropped := d.dropped || abandoned a }

def note (d : Docket) : Event iface → Docket
  | ⟨.claim, a⟩ => d.claim a
  | ⟨.complete _ _, a⟩ => d.settle a
  | ⟨.release, a⟩ => d.settle a
  | ⟨.yield _, (a : Consumer)⟩ => d.utter.hit (!(lift a.outcome).isOk)
  | ⟨.wait pulled, (a : Waited)⟩ => d.hit (a.cancelled || silent pulled)
  | ⟨.isDisconnected, a⟩ => d.hit (gone a != .ok false)
  | ⟨.recordAttempt, a⟩ => d.hit (!(shrugged (lift a)).isOk)
  | ⟨.openSession, a⟩ => d.hit (!(lift a).isOk)
  | ⟨.append _ _ _ _, a⟩ => d.hit (!(lift a).isOk)
  | ⟨.record _, a⟩ => d.hit (!(lift a).isOk)
  | ⟨.cachePut _ _, (a : Settled)⟩ => d.hit (!(shrugged (lift a.outcome)).isOk)
  | ⟨.commitSession, (a : Settled)⟩ => d.hit (!(lift a.outcome).isOk)
  | ⟨.closeSession, a⟩ => d.hit (!(lift a).isOk)
  | _ => d

/-- **The docket of a trace.** -/
def of (tr : List (Event iface)) : Docket := tr.foldl note {}

end Docket

namespace Docket

/-- The claim is settled just when nothing was dropped. -/
def Over (d : Docket) : Prop := d.settled = !d.dropped

/-- A stream whose claim is still open. -/
structure Live (d : Docket) : Prop where
  streaming : d.streaming = true
  settled : d.settled = false
  dropped : d.dropped = false

/-- An open claim, and no stream. -/
structure Idle (d : Docket) : Prop where
  streaming : d.streaming = false
  settled : d.settled = false
  dropped : d.dropped = false

/-- An open claim that is lost if there is a stream. -/
structure Lost (d : Docket) : Prop where
  settled : d.settled = false
  dropped : d.dropped = d.streaming

section

variable {d : Docket}

@[simp] theorem hit_false (d : Docket) : d.hit false = d := by
  rw [hit, Bool.and_false, Bool.or_false]

@[simp] theorem hit_streaming (d : Docket) (b : Bool) : (d.hit b).streaming = d.streaming := rfl

@[simp] theorem hit_settled (d : Docket) (b : Bool) : (d.hit b).settled = d.settled := rfl

theorem hit_dropped (d : Docket) (b : Bool) :
    (d.hit b).dropped = (d.dropped || (d.streaming && !d.settled && b)) := rfl

/-- Two interruptions are no worse than one. -/
theorem hit_hit (d : Docket) (b b' : Bool) : (d.hit b).hit b' = d.hit (b || b') := by
  obtain ⟨gated, claimed, settled, streaming, dropped⟩ := d
  simp only [hit, mk.injEq, true_and]
  cases settled <;> cases streaming <;> cases dropped <;> cases b <;> cases b' <;> rfl

theorem utter_of_streaming (h : d.streaming = true) : d.utter = d := by
  obtain ⟨gated, claimed, settled, streaming, dropped⟩ := d
  cases h
  rfl

/-- An open claim, behind an interruption. -/
theorem lost_hit (hs : d.settled = false) (hd : d.dropped = false) : Lost (d.hit true) := by
  refine ⟨hs, ?_⟩
  rw [hit_dropped, hit_streaming, hs, hd, Bool.false_or, Bool.not_false, Bool.and_true,
    Bool.and_true]

theorem Live.lost_hit (h : Live d) : Lost (d.hit true) := Docket.lost_hit h.settled h.dropped

/-- What is lost on a stream is lost for good. -/
theorem Lost.over (h : Lost d) (hs : d.streaming = true) : Over d := by
  rw [Over, h.settled, h.dropped, hs]
  rfl

/-- Nothing interrupts what has no stream. -/
theorem Idle.hit (h : Idle d) (b : Bool) : d.hit b = d := by
  obtain ⟨gated, claimed, settled, streaming, dropped⟩ := d
  cases h.streaming
  simp [Docket.hit]

theorem Idle.lost (h : Idle d) : Lost d := ⟨h.settled, h.dropped.trans h.streaming.symm⟩

/-- Behind its settlement a claim cannot be dropped, and a dropped one is not
settled by an interruption. -/
theorem Over.hit (h : Over d) (b : Bool) : Over (d.hit b) := by
  rw [Over, hit_settled, hit_dropped, h]
  cases d.dropped <;> simp

/-- The end of a stream whose claim is over. -/
structure Shut (d : Docket) : Prop where
  streaming : d.streaming = true
  done : Over d

theorem Shut.hit (h : Shut d) (b : Bool) : Shut (d.hit b) := ⟨h.streaming, h.done.hit b⟩

theorem Live.shut (h : Live d) : Shut (d.hit true) := ⟨h.streaming, h.lost_hit.over h.streaming⟩

/-- An open claim is over once it is settled, or not. -/
theorem over_settle (hs : d.settled = false) (hd : d.dropped = false) (a : Settled) :
    Over (d.settle a) := by
  rw [Over, settle, hs, hd, Bool.false_or, Bool.false_or, Bool.not_false, Bool.true_and,
    Bool.not_not]

theorem Live.settle (h : Live d) (a : Settled) : Shut (d.settle a) :=
  ⟨h.streaming, over_settle h.settled h.dropped a⟩

end

end Docket

open Docket

/-! ## Interrupted questions -/

section

variable {d : Docket} {α β : Type} {p : Eff α} {q : Ask} {o : Ans q → Except Fault α}

/-- The last question of a block, where failing it interrupts. -/
theorem wp_hit_last (hp : p = .ask q fun a => .ofExcept (o a))
    (hnote : ∀ a, d.note ⟨q, a⟩ = d.hit (!(o a).isOk)) {Q : Except Fault α → Docket → Prop}
    (herror : ∀ e, Q (.error e) (d.hit true)) (hok : ∀ x, Q (.ok x) d) :
    wp (watch Docket.note) p Q d := by
  refine wp_watch_last hp fun a => ?_
  rw [hnote a]
  cases o a with
  | error e => exact herror e
  | ok x =>
    rw [show (!(Except.ok x : Except Fault α).isOk) = false from rfl, hit_false]
    exact hok x

/-- Such a question, and what the program does behind it. -/
theorem wp_hit (hp : p = .ask q fun a => .ofExcept (o a))
    (hnote : ∀ a, d.note ⟨q, a⟩ = d.hit (!(o a).isOk)) {f : α → Eff β}
    {Q : Except Fault β → Docket → Prop} (herror : ∀ e, Q (.error e) (d.hit true))
    (hok : ∀ x, wp (watch Docket.note) (f x) Q d) : wp (watch Docket.note) (p >>= f) Q d := by
  rw [wp_bind]
  exact wp_hit_last hp hnote herror hok

end

/-! ## The loop of a stream -/

section

variable {d : Docket}

/-- A frame of a stream. -/
theorem note_yield (h : d.streaming = true) (frame : Frame) (a : Consumer) :
    d.note ⟨.yield frame, a⟩ = d.hit (!(lift a.outcome).isOk) := by
  change d.utter.hit _ = _
  rw [utter_of_streaming h]

/-- The check of the connection, in either outcome. -/
theorem wp_clientGone_docket {Q : Except Fault Bool → Docket → Prop}
    (herror : ∀ e, Q (.error e) (d.hit true)) (hgone : Q (.ok true) (d.hit true))
    (hstays : Q (.ok false) d) : wp (watch Docket.note) clientGone Q d := by
  refine wp_watch_last rfl fun a => ?_
  change Q (gone a) (d.hit (gone a != .ok false))
  rcases gone a with e | b
  · exact herror e
  · cases b with
    | true => exact hgone
    | false =>
      rw [show ((.ok false : Except Fault Bool) != .ok false) = false from rfl, hit_false]
      exact hstays

/-- What a wait comes to: the client is there still, or there was an interruption. -/
def WaitedPost (d d' : Docket) (r : Except Fault Bool) (d'' : Docket) : Prop :=
  match r with
  | .ok false => d'' = d'
  | _ => d'' = d.hit true

theorem wp_beat_docket (s : Turn) (hs : s.committed = true → d.streaming = true) (n : Nat) :
    wp (watch Docket.note) (beat s n) (WaitedPost d d) d := by
  induction n with
  | zero => exact rfl
  | succ n ih =>
    rw [beat, wp_bind]
    refine wp_clientGone_docket (fun _ => rfl) rfl ?_
    dsimp only
    rw [if_neg (by decide)]
    split
    next hc =>
      refine wp_hit (p := yieldFrame .heartbeat) rfl (note_yield (hs hc) .heartbeat) ?_ ?_
      · exact fun _ => rfl
      · exact fun _ => ih
    next => exact ih

theorem wp_awaitNext_docket (s : Turn) (hs : s.committed = true → d.streaming = true)
    (pulled : Pulled) :
    wp (watch Docket.note) (awaitNext s pulled) (WaitedPost d (d.hit (silent pulled))) d := by
  rw [awaitNext]
  rintro (waited : Waited) _ rfl
  change wp _ (beat s waited.timeouts >>= _) _ (d.hit (waited.cancelled || silent pulled))
  have hmore : ∀ b, (d.hit b).hit true = d.hit true := by
    intro b
    rw [hit_hit, Bool.or_true]
  rw [wp_bind]
  refine wp_mono _ (wp_beat_docket s (by simpa using hs) waited.timeouts) ?_
  rintro (e | gone) d' h'
  · exact h'.trans (hmore _)
  cases gone with
  | true => exact h'.trans (hmore _)
  | false =>
    have heq : d' = d.hit (waited.cancelled || silent pulled) := h'
    rw [heq]
    dsimp only
    rw [if_neg (by decide)]
    split
    next hc =>
      rw [hc, Bool.true_or]
      exact rfl
    next hc =>
      rw [Bool.eq_false_iff.mpr hc, Bool.false_or]
      exact wp_clientGone_docket (fun _ => hmore _) (hmore _) rfl

end

/-! ## The stream -/

/-- The loop is on its way: there is a stream just when the first byte is out. -/
structure Steady (s : Turn) (d : Docket) : Prop where
  running : s.done = false
  serving : s.committed = true → s.spec.isSome
  streaming : d.streaming = s.committed
  settled : d.settled = false
  dropped : d.dropped = false

section

variable {s : Turn} {d : Docket}

theorem Steady.lost_hit (h : Steady s d) : Lost (d.hit true) :=
  Docket.lost_hit h.settled h.dropped

/-- Before the first byte nothing is lost. -/
theorem Steady.idle (h : Steady s d) (hc : s.committed = false) : Idle d :=
  ⟨h.streaming.trans hc, h.settled, h.dropped⟩

/-- Behind it there is a stream. -/
theorem Steady.live (h : Steady s d) (hc : s.committed = true) : Live d :=
  ⟨h.streaming.trans hc, h.settled, h.dropped⟩

/-- What some frames come to: a stream, if there are any. -/
def UtteredPost (frames : List Frame) (d : Docket) (r : Except Fault Unit) (d' : Docket) : Prop :=
  match r with
  | .ok _ => d' = if frames = [] then d else d.utter
  | .error _ => Lost d'

theorem wp_yieldAll_docket (frames : List Frame) (hs : d.settled = false)
    (hd : d.dropped = false) :
    wp (watch Docket.note) (yieldAll frames) (UtteredPost frames d) d := by
  induction frames generalizing d with
  | nil => exact rfl
  | cons frame frames ih =>
    rw [yieldAll]
    refine wp_watch_step (p := yieldFrame frame) rfl (fun a e he => ?_) fun a x hx => ?_
    · change Lost (d.utter.hit (!(lift a.outcome).isOk))
      rw [he]
      exact Docket.lost_hit hs hd
    · change wp _ _ _ (d.utter.hit (!(lift a.outcome).isOk))
      rw [hx, show (!(Except.ok x : Except Fault Unit).isOk) = false from rfl, hit_false]
      refine wp_mono _ (ih (d := d.utter) hs hd) ?_
      intro r d' h'
      cases r with
      | error e => exact h'
      | ok u =>
        have heq : d' = if frames = [] then d.utter else d.utter.utter := h'
        rw [UtteredPost, if_neg (List.cons_ne_nil frame frames), heq]
        split
        · rfl
        · exact utter_of_streaming rfl

theorem wp_countAttempt_docket (ev : RouteStreamEvent) {Q : Except Fault Unit → Docket → Prop}
    (herror : ∀ e, Q (.error e) (d.hit true)) (hok : Q (.ok ()) d) :
    wp (watch Docket.note) (countAttempt ev) Q d := by
  cases ev with
  | started attempt spec =>
    exact wp_hit_last (p := recordAttempt) (q := .recordAttempt) rfl (fun _ => rfl) herror
      fun _ => hok
  | delta text => exact hok
  | aborted attempt spec error discardedChars wasted => exact hok
  | completed c => exact hok

/-- A turn that speaks for the first time has frames to send. -/
theorem frames_of_apply {s' : Turn} {ev : RouteStreamEvent} {frames : List Frame}
    (h : s.apply ev = .ok (s', frames)) (hc : s'.committed = true) :
    s.committed = true ∨ frames ≠ [] := by
  cases ev with
  | started attempt spec =>
    cases h
    exact .inl hc
  | aborted attempt spec error discardedChars wasted =>
    cases h
    exact .inl hc
  | completed c =>
    right
    obtain ⟨spec, hserved⟩ := Turn.served_of_isSome (s := s.complete c) rfl
    rw [Turn.apply, Turn.doneEvent, hserved] at h
    cases h
    exact List.cons_ne_nil _ _
  | delta text =>
    right
    rw [Turn.apply] at h
    cases ha : s.announce with
    | error e =>
      rw [ha] at h
      cases h
    | ok sent =>
      rw [ha] at h
      cases h
      exact List.append_ne_nil_of_right_ne_nil _ (List.cons_ne_nil _ _)

theorem turn_of_completed {s' : Turn} {c : StreamCompleted} {frames : List Frame}
    (h : s.apply (.completed c) = .ok (s', frames)) : s' = s.complete c := by
  obtain ⟨spec, hserved⟩ := Turn.served_of_isSome (s := s.complete c) rfl
  rw [Turn.apply, Turn.doneEvent, hserved] at h
  cases h
  rfl

/-- An event that completes nothing, and its frames. -/
theorem Steady.apply {s' : Turn} {d' : Docket} {ev : RouteStreamEvent} {frames : List Frame}
    (h : Steady s d) (he : s.apply ev = .ok (s', frames)) (hgoes : Goes ev s s' frames)
    (hd : d' = if frames = [] then d else d.utter) : Steady s' d' := by
  by_cases hf : frames = []
  · rw [if_pos hf] at hd
    subst hd
    refine ⟨hgoes.running, hgoes.serving, ?_, h.settled, h.dropped⟩
    cases hc : s'.committed with
    | false => exact h.streaming.trans (hgoes.silent hc).1
    | true => exact h.streaming.trans ((frames_of_apply he hc).resolve_right fun hne => hne hf)
  · rw [if_neg hf] at hd
    subst hd
    refine ⟨hgoes.running, hgoes.serving, ?_, h.settled, h.dropped⟩
    cases hc : s'.committed with
    | false => exact absurd (hgoes.silent hc).2 hf
    | true => rfl

/-- How the loop is left. -/
def DrivenPost (r : Except Fault Driven) (d : Docket) : Prop :=
  match r with
  | .ok (.stopped s) => (∃ t c, s = Turn.complete t c) ∧ Live d ∨ s.done = false ∧ Lost d
  | .ok (.failed s _) =>
    s.committed = false ∧ Idle d ∨ s.committed = true ∧ s.spec.isSome ∧ Live d
  | .ok .gone => Lost d
  | .error _ => Lost d

theorem wp_drive_docket (events : List RouteStreamEvent) (ending : Ending) (h : Steady s d) :
    wp (watch Docket.note) (drive s events ending) DrivenPost d := by
  induction events generalizing s d with
  | nil =>
    rw [drive, wp_bind]
    refine wp_mono _ (wp_awaitNext_docket s (fun hc => h.streaming.trans hc) (.ended ending)) ?_
    rintro (e | gone) d' h'
    · exact (show d' = d.hit true from h') ▸ h.lost_hit
    cases gone with
    | true => exact (show d' = d.hit true from h') ▸ h.lost_hit
    | false =>
      have heq : d' = d.hit (silent (.ended ending)) := h'
      rw [heq]
      cases ending with
      | stopped => exact .inr ⟨h.running, h.lost_hit⟩
      | raised e => exact h.lost_hit
      | failed failure =>
        rw [show silent (.ended (.failed failure)) = false from rfl, hit_false]
        cases hc : s.committed with
        | false => exact .inl ⟨hc, h.idle hc⟩
        | true => exact .inr ⟨hc, h.serving hc, h.live hc⟩
  | cons ev events ih =>
    rw [drive, wp_bind]
    refine wp_mono _ (wp_awaitNext_docket s (fun hc => h.streaming.trans hc) (.event ev)) ?_
    rintro (e | gone) d' h'
    · exact (show d' = d.hit true from h') ▸ h.lost_hit
    cases gone with
    | true => exact (show d' = d.hit true from h') ▸ h.lost_hit
    | false =>
      have heq : d' = d.hit (silent (.event ev)) := h'
      rw [heq, show silent (.event ev) = false from rfl, hit_false]
      dsimp only
      rw [if_neg (by decide)]
      rcases apply_cases h.running h.serving ev with
        ⟨e, he, hc, -⟩ | ⟨s', frames, he, hgoes, -⟩ | ⟨c, s', e, rfl, he, hdone⟩
      · -- The assertion fails, with nothing sent.
        rw [he]
        exact (h.idle hc).lost
      · rw [he, wp_bind, wp_ofExcept]
        change wp _ (yieldAll frames >>= fun _ => _) _ _
        rw [wp_bind]
        refine wp_mono _ (wp_yieldAll_docket frames h.settled h.dropped) ?_
        rintro (e | u) d₁ h₁
        · exact h₁
        have heq₁ : d₁ = if frames = [] then d else d.utter := h₁
        have hsteady : Steady s' d₁ := h.apply he hgoes heq₁
        dsimp only
        rw [wp_bind]
        refine wp_countAttempt_docket ev (fun _ => hsteady.lost_hit) ?_
        dsimp only
        rw [if_neg (Bool.eq_false_iff.mp hgoes.running)]
        exact ih hsteady
      · rw [he, wp_bind, wp_ofExcept]
        change wp _ (yieldAll [Frame.done e] >>= fun _ => _) _ _
        rw [wp_bind]
        refine wp_mono _ (wp_yieldAll_docket _ h.settled h.dropped) ?_
        rintro (e' | u) d₁ h₁
        · exact h₁
        have heq₁ : d₁ = d.utter := h₁
        change wp _ (if s'.done = true then (.ret (.stopped s') : Eff Driven)
          else drive s' events ending) _ _
        rw [if_pos hdone, heq₁]
        exact .inl ⟨⟨s, c, turn_of_completed he⟩, rfl, h.settled, h.dropped⟩

/-! ## The collector -/

/-- What a block of the collector promises: it goes on, or all is over. -/
def OnPost {α : Type} (A : Docket → Prop) (r : Except Fault α) (d : Docket) : Prop :=
  match r with
  | .ok _ => A d
  | .error _ => Shut d

theorem OnPost.shut {α : Type} (r : Except Fault α) (h : Shut d) : OnPost Shut r d := by
  cases r <;> exact h

theorem wp_cacheAnswer_docket (c : Collector) (result : StreamResult) (spec : ModelSpec)
    (h : Live d) : wp (watch Docket.note) (c.cacheAnswer result spec) (OnPost Live) d := by
  rw [Collector.cacheAnswer]
  cases c.cacheSlot result with
  | none => exact h
  | some key =>
    refine wp_told (q := .isoNow) rfl (fun _ => rfl) fun createdAt => ?_
    exact wp_hit_last (p := cachePut key _) rfl (fun _ => rfl) (fun _ => h.shut) fun _ => h

theorem wp_completeClaim_docket (c : Collector) (result : StreamResult) (spec : ModelSpec)
    (hc : c.idempotency.isSome) (h : Live d) :
    wp (watch Docket.note) (c.completeClaim result spec) (OnPost Shut) d := by
  obtain ⟨requestId, hid⟩ := Option.isSome_iff_exists.mp hc
  rw [Collector.completeClaim, hid]
  refine wp_told (q := .timestamp) rfl (fun _ => rfl) fun created => ?_
  exact wp_watch_last rfl fun a => .shut _ (h.settle a)

/-- A turn that was completed. -/
theorem wp_persistSuccess_docket (c : Collector) (t : Turn) (done : StreamCompleted)
    (hc : c.idempotency.isSome) (h : Live d) :
    wp (watch Docket.note) (c.persistSuccess (t.complete done).result) (OnPost Shut) d := by
  change wp _ (append .assistant _ _ _ >>= fun _ => _) _ _
  refine wp_hit rfl (fun _ => rfl) (fun _ => h.shut) fun _ => ?_
  refine wp_hit (q := .record .success) rfl (fun _ => rfl) (fun _ => h.shut) fun _ => ?_
  rw [wp_bind]
  refine wp_mono _ (wp_cacheAnswer_docket c _ _ h) ?_
  rintro (e | u) d' h'
  · exact h'
  · exact wp_completeClaim_docket c _ _ hc h'

/-- A turn that failed in band. -/
theorem wp_persistFailure_docket (c : Collector) (hc : c.idempotency.isSome) (h : Live d) :
    wp (watch Docket.note) c.persistFailure (OnPost Shut) d := by
  rw [Collector.persistFailure]
  refine wp_hit (q := .record .streamFailure) rfl (fun _ => rfl) (fun _ => h.shut) fun _ => ?_
  rw [if_pos hc]
  exact wp_watch_last rfl fun a => .shut _ (h.settle a)

/-- A session around a block. -/
theorem wp_withSession_docket {p : Eff Unit} {A : Docket → Prop}
    (hA : ∀ d, A d → Shut (d.hit true)) (h : Live d)
    (hp : wp (watch Docket.note) p (OnPost A) d) :
    wp (watch Docket.note) (Collector.withSession p) (OnPost A) d := by
  rw [Collector.withSession]
  refine wp_hit (q := .openSession) rfl (fun _ => rfl) (fun _ => h.shut) fun _ => ?_
  rw [wp_bind, wp_attempt]
  refine wp_mono _ hp ?_
  rintro (e | u) d' h'
  · exact wp_hit (p := closeSession) rfl (fun _ => rfl) (fun _ => Shut.hit h' true) fun _ => h'
  · exact wp_hit (p := closeSession) rfl (fun _ => rfl) (fun _ => hA d' h') fun _ => h'

/-- Behind the settlement the commit cannot undo it. -/
theorem wp_commitSession_shut (h : Shut d) :
    wp (watch Docket.note) commitSession (OnPost Shut) d :=
  wp_hit_last (p := commitSession) rfl (fun _ => rfl) (fun _ => h.hit true) fun _ => h

theorem wp_persist_docket (c : Collector) (result : StreamResult) (hc : c.idempotency.isSome)
    (hr : result.status = .ok → ∃ (t : Turn) (done : StreamCompleted),
      result = (t.complete done).result) (h : Live d) :
    wp (watch Docket.note) (c.persist result) (OnPost Shut) d := by
  refine wp_withSession_docket (fun _ h => h.hit true) h ?_
  split
  next hok =>
    obtain ⟨t, done, rfl⟩ := hr hok
    rw [wp_bind]
    refine wp_mono _ (wp_persistSuccess_docket c t done hc h) ?_
    rintro (e | u) d' h'
    · exact h'
    · exact wp_commitSession_shut h'
  next =>
    rw [wp_bind]
    refine wp_mono _ (wp_persistFailure_docket c hc h) ?_
    rintro (e | u) d' h'
    · exact h'
    · exact wp_commitSession_shut h'

/-- The collector's part of a cached turn. -/
theorem wp_persistCacheHit_docket (c : Collector) (hc : c.idempotency.isSome)
    (cached : Exact.CachedResponse) (requestedSlot conversationId messageId : String)
    (h : Live d) :
    wp (watch Docket.note) (c.persistCacheHit cached requestedSlot conversationId messageId)
      (OnPost Shut) d := by
  rw [Collector.persistCacheHit, wp_bind]
  have hrow : wp (watch Docket.note) (do
      let _ ← append .assistant cached.text (some messageId)
        (Collector.cachedProvenance cached requestedSlot)
      record .cacheHit
      commitSession) (OnPost Live) d := by
    refine wp_hit rfl (fun _ => rfl) (fun _ => h.shut) fun _ => ?_
    refine wp_hit (q := .record .cacheHit) rfl (fun _ => rfl) (fun _ => h.shut) fun _ => ?_
    exact wp_hit_last (p := commitSession) rfl (fun _ => rfl) (fun _ => h.shut) fun _ => h
  refine wp_mono _ (wp_withSession_docket (fun _ h => h.shut) h hrow) ?_
  rintro (e | u) d' h'
  · exact h'
  · have hlive : Live d' := h'
    obtain ⟨requestId, hid⟩ := Option.isSome_iff_exists.mp hc
    dsimp only
    rw [hid]
    refine wp_told (q := .timestamp) rfl (fun _ => rfl) fun created => ?_
    exact wp_watch_last rfl fun a => .shut _ (hlive.settle a)

/-! ## The response body -/

/-- What a stream comes to: its claim is over, or there was no frame. -/
def BodyPost {α : Type} (_ : Except Fault α) (d : Docket) : Prop := Shut d ∨ Idle d

theorem Docket.Lost.body {α : Type} (r : Except Fault α) (h : Lost d) : BodyPost r d := by
  cases hs : d.streaming with
  | true => exact .inl ⟨hs, h.over hs⟩
  | false => exact .inr ⟨hs, h.settled, h.dropped.trans hs⟩

theorem wp_closeEvents_docket {α : Type} {f : Unit → Eff α} {Q : Except Fault α → Docket → Prop}
    (h : wp (watch Docket.note) (f ()) Q d) :
    wp (watch Docket.note) (closeEvents >>= f) Q d :=
  wp_told (q := .closeEvents) rfl (fun _ => rfl) fun _ => h

/-- A turn that is handed over. -/
theorem wp_handOver_docket (c : Collector) (hc : c.idempotency.isSome) (hdone : s.done = true)
    (hr : s.result.status = .ok → ∃ (t : Turn) (done : StreamCompleted),
      s.result = (t.complete done).result) (h : Live d) :
    wp (watch Docket.note) (handOver c.persist s) BodyPost d := by
  unfold handOver
  rw [if_pos hdone, wp_bind, wp_attempt]
  refine wp_mono _ (wp_persist_docket c s.result hc hr h) ?_
  intro r d' h'
  have hshut : Shut d' := by
    cases r <;> exact h'
  exact (wp_ofExcept _ _ _ _).mpr (.inl hshut)

/-- **A live stream.** -/
theorem wp_streamCompletion_docket (c : Collector) (hc : c.idempotency.isSome)
    (conversationId messageId requested : String) (pinned : Option String)
    (events : List RouteStreamEvent) (ending : Ending) (h : Idle d) :
    wp (watch Docket.note)
      (streamCompletion c.persist conversationId messageId requested pinned events ending)
      BodyPost d := by
  have hstart : Steady { conversationId, messageId, requested, pinned } d :=
    ⟨rfl, fun hc => (by cases hc), h.streaming, h.settled, h.dropped⟩
  rw [streamCompletion, wp_bind, wp_attempt]
  refine wp_mono _ (wp_drive_docket events ending hstart) ?_
  rintro (e | driven) d' h'
  · exact wp_closeEvents_docket (Lost.body _ h')
  cases driven with
  | gone => exact wp_closeEvents_docket (Lost.body _ h')
  | stopped s =>
    refine wp_closeEvents_docket ?_
    rcases h' with ⟨⟨t, done, rfl⟩, hlive⟩ | ⟨hrunning, hlost⟩
    · exact wp_handOver_docket c hc rfl (fun _ => ⟨t, done, rfl⟩) hlive
    · unfold handOver
      rw [if_neg (Bool.eq_false_iff.mp hrunning)]
      exact hlost.body _
  | failed s failure =>
    dsimp only
    rcases h' with ⟨hcommitted, hidle⟩ | ⟨hcommitted, hspec, hlive⟩
    · rw [if_pos hcommitted]
      exact wp_closeEvents_docket (.inr hidle)
    · rw [if_neg (by rw [hcommitted]; decide)]
      obtain ⟨e, he, -⟩ := Turn.doneEvent_of_isSome (Turn.spec_recordFailure hspec failure)
      rw [wp_bind, wp_attempt, failInBand, he, wp_bind, wp_ofExcept]
      refine wp_hit_last (p := yieldFrame (.done e)) rfl (note_yield hlive.streaming _)
        (fun _ => ?_) fun _ => ?_
      · exact wp_closeEvents_docket (hlive.lost_hit.body _)
      · exact wp_closeEvents_docket
          (wp_handOver_docket c hc rfl (fun hok => (by cases hok)) hlive)

/-- **A stored answer, streamed.** -/
theorem wp_streamCachedCompletion_docket (c : Collector) (hc : c.idempotency.isSome)
    (cached : Exact.CachedResponse) (requestedSlot conversationId messageId : String)
    (h : Idle d) :
    wp (watch Docket.note)
      (streamCachedCompletion
        (some (c.persistCacheHit cached requestedSlot conversationId messageId))
        cached requestedSlot conversationId messageId) BodyPost d := by
  rw [streamCachedCompletion.eq_def, wp_bind]
  refine wp_mono _ (wp_yieldAll_docket _ h.settled h.dropped) ?_
  rintro (e | u) d' h'
  · exact Lost.body _ h'
  · have hlive : Live d' := by
      have heq : d' = d.utter := h'
      rw [heq]
      exact ⟨rfl, h.settled, h.dropped⟩
    dsimp only
    rw [wp_bind, wp_attempt]
    refine wp_mono _ (wp_persistCacheHit_docket c hc cached requestedSlot conversationId messageId
      hlive) ?_
    intro r d'' h''
    have hshut : Shut d'' := by
      cases r <;> exact h''
    exact (wp_ofExcept _ _ _ _).mpr (.inl hshut)

theorem claim_streaming (d : Docket) (a : Claim) : (d.claim a).streaming = d.streaming := by
  unfold Docket.claim
  split <;> rfl

/-- Nothing but a frame begins a stream. -/
theorem silent_note (d : Docket) (q : Ask) (a : Ans q) (hq : ∀ frame, q ≠ .yield frame) :
    (d.note ⟨q, a⟩).streaming = d.streaming := by
  cases q with
  | claim => exact claim_streaming d a
  | yield frame => exact absurd rfl (hq frame)
  | _ => rfl

/-- The first frame is out for good. -/
theorem streaming_note (h : d.streaming = true) (e : Event iface) :
    (d.note e).streaming = true := by
  obtain ⟨q, a⟩ := e
  cases q with
  | claim => exact (claim_streaming d a).trans h
  | yield frame => rfl
  | _ => exact h

/-- A body begins with a frame. -/
theorem wp_body {frame : Frame} {rest : Consumer → Eff Unit}
    (h : wp (watch Docket.note) (.ask (.yield frame) rest) BodyPost d) :
    wp (watch Docket.note) (.ask (.yield frame) rest) (fun _ d' => Over d') d := by
  intro a d' hd
  have hstreaming : d'.streaming = true := by
    rw [show d' = d.note ⟨.yield frame, a⟩ from hd]
    rfl
  have hkept := wp_inv (watch Docket.note) (fun d q a d' hd h =>
    (show d' = d.note ⟨q, a⟩ from hd) ▸ streaming_note h ⟨q, a⟩) (rest a) hstreaming
  refine wp_mono _ (wp_and _ (h a d' hd) hkept) ?_
  rintro r d'' ⟨hshut | hidle, hs⟩
  · exact hshut.done
  · rw [hidle.streaming] at hs
    cases hs

/-! ## The endpoint -/

/-- What the endpoint leads to under its claim: the claim is open yet, or a body is
to see to it. -/
def ServedOpen (r : Except Fault Served) (d : Docket) : Prop :=
  match r with
  | .ok (.stream body _) => wp (watch Docket.note) body (fun _ d' => Over d') d
  | _ => Idle d

theorem wp_failTurn_open (failure : RoutingFailed) (h : Idle d) :
    wp (watch Docket.note) (failTurn failure) ServedOpen d := by
  refine wp_failTurn failure (fun _ => rfl) (fun _ => h.hit _) (fun _ => h) fun _ a => ?_
  change Idle (d.hit _)
  rw [h.hit]
  exact h

theorem wp_serveOutcome_open (req : Request) (conversation : Conversation)
    (xCache : Exact.CacheStatus) (outcome : RouterOutcome) (h : Idle d) :
    wp (watch Docket.note) (serveOutcome req conversation xCache outcome) ServedOpen d := by
  rw [serveOutcome]
  refine wp_told (q := .elapsedMs) rfl (fun _ => rfl) fun _ => ?_
  refine wp_skip rfl (fun _ => h.hit _) (fun _ => h) fun _ => ?_
  refine wp_skip (q := .record .success) rfl (fun _ => h.hit _) (fun _ => h) fun _ => ?_
  refine wp_skip (p := commitSession) rfl (fun _ => h.hit _) (fun _ => h) fun _ => ?_
  rw [wp_bind]
  have hcache : wp (watch Docket.note) (cacheAnswer req outcome) (fun _ d' => d' = d) d := by
    rw [cacheAnswer]
    cases cacheSlot req outcome.report with
    | none => exact rfl
    | some key =>
      refine wp_told (q := .isoNow) rfl (fun _ => rfl) fun createdAt => ?_
      exact wp_watch_last (p := cachePut key _) rfl fun _ => h.hit _
  refine wp_mono _ hcache ?_
  rintro (e | u) _ rfl
  · exact h
  · exact wp_told (q := .timestamp) rfl (fun _ => rfl) fun _ => h

theorem wp_serveCacheHit_open (req : Request) (conversation : Conversation)
    (cached : Exact.CachedResponse) (h : Idle d) :
    wp (watch Docket.note) (serveCacheHit req conversation cached) ServedOpen d := by
  rw [serveCacheHit]
  refine wp_skip rfl (fun _ => h.hit _) (fun _ => h) fun _ => ?_
  refine wp_told (q := .elapsedMs) rfl (fun _ => rfl) fun _ => ?_
  refine wp_skip (q := .record .cacheHit) rfl (fun _ => h.hit _) (fun _ => h) fun _ => ?_
  refine wp_skip (p := commitSession) rfl (fun _ => h.hit _) (fun _ => h) fun _ => ?_
  exact wp_told (q := .timestamp) rfl (fun _ => rfl) fun _ => h

theorem wp_serveRouted_open (req : Request) (conversation : Conversation)
    (xCache : Exact.CacheStatus) (h : Idle d) :
    wp (watch Docket.note) (serveRouted req conversation xCache) ServedOpen d := by
  rw [serveRouted]
  refine wp_skip rfl (fun _ => rfl) (fun _ => h) fun r => ?_
  cases r with
  | error failure => exact wp_failTurn_open failure h
  | ok outcome => exact wp_serveOutcome_open req conversation xCache outcome h

theorem wp_completeChatCompletion_open (req : Request) (conversation : Conversation)
    (h : Idle d) :
    wp (watch Docket.note) (completeChatCompletion req conversation) ServedOpen d := by
  rw [completeChatCompletion]
  cases req.cacheKey with
  | none => exact wp_serveRouted_open req conversation .bypass h
  | some key =>
    refine wp_skip rfl (fun _ => rfl) (fun _ => h) fun found => ?_
    cases found with
    | none => exact wp_serveRouted_open req conversation .miss h
    | some cached => exact wp_serveCacheHit_open req conversation cached h

theorem wp_serveLive_open (req : Request) (ticket : ClaimTicket) (conversation : Conversation)
    (messageId : String) (h : Idle d) :
    wp (watch Docket.note) (serveLive req (some ticket) conversation messageId) ServedOpen d := by
  rw [serveLive]
  rintro ⟨events, ending⟩ _ rfl
  have hstream := wp_streamCompletion_docket (req.collector (some ticket)) rfl conversation.id
    messageId req.body.model conversation.pinnedModel events ending h
  refine (wp_bind _ ((prime _).attempt) _ _ _).mpr ?_
  rw [wp_attempt]
  -- Before the first frame nothing but a frame begins a stream.
  have hsilent : ∀ (d : Docket) (q : Ask) (a : Ans q) (d' : Docket),
      (∀ frame, q ≠ .yield frame) → d.streaming = false → watch Docket.note d q a d' →
      d'.streaming = false := by
    rintro d q a _ hq hs rfl
    exact (silent_note d q a hq).trans hs
  refine wp_mono _ (wp_prime _ (fun d => d.streaming = false) hsilent h.streaming hstream) ?_
  rintro (e | ⟨frame, rest⟩) d' ⟨hs, h'⟩
  · obtain ⟨_, hb⟩ := h'
    have hidle : Idle d' := hb.resolve_left fun hshut => by
      rw [hshut.streaming] at hs
      cases hs
    cases e with
    | routing failure => exact wp_failTurn_open failure hidle
    | _ => exact hidle
  · exact wp_body h'

theorem wp_streamChatCompletion_open (req : Request) (ticket : ClaimTicket)
    (conversation : Conversation) (h : Idle d) :
    wp (watch Docket.note) (streamChatCompletion req (some ticket) conversation) ServedOpen d := by
  rw [streamChatCompletion]
  refine wp_told (q := .uuid4) rfl (fun _ => rfl) fun messageId => ?_
  cases req.cacheKey with
  | none => exact wp_serveLive_open req ticket conversation messageId h
  | some key =>
    refine wp_skip rfl (fun _ => rfl) (fun _ => h) fun found => ?_
    cases found with
    | none => exact wp_serveLive_open req ticket conversation messageId h
    | some cached =>
      refine wp_told (q := .elapsedMs) rfl (fun _ => rfl) fun _ => ?_
      have hbody := wp_streamCachedCompletion_docket { idempotency := some ticket } rfl cached
        req.body.model conversation.id messageId h
      exact wp_body hbody

/-- Nothing ahead of the body settles a claim. -/
theorem wp_appendAll_docket (messages : List InputMessage) (h : Idle d) :
    wp (watch Docket.note) (appendAll messages) (fun _ d' => d' = d) d := by
  induction messages with
  | nil => exact rfl
  | cons message messages ih => exact wp_skip rfl (fun _ => h.hit _) (fun _ => rfl) fun _ => ih

theorem wp_serveCompletion_open (req : Request) (ticket : ClaimTicket) (h : Idle d) :
    wp (watch Docket.note) (serveCompletion req (some ticket)) ServedOpen d := by
  rw [serveCompletion]
  refine wp_skip rfl (fun _ => rfl) (fun _ => h) fun conversation => ?_
  refine wp_skip rfl (fun _ => rfl) (fun _ => h) fun _ => ?_
  rw [wp_bind]
  refine wp_mono _ (wp_appendAll_docket req.body.messages h) ?_
  rintro (e | u) _ rfl
  · exact h
  refine wp_skip rfl (fun _ => rfl) (fun _ => h) fun _ => ?_
  refine wp_skip (p := commitSession) rfl (fun _ => h.hit _) (fun _ => h) fun _ => ?_
  refine wp_skip rfl (fun _ => rfl) (fun _ => h) fun _ => ?_
  split
  · exact wp_streamChatCompletion_open req ticket conversation h
  · exact wp_completeChatCompletion_open req conversation h

/-- What the endpoint returns: the claim is over, or the body will see to it. -/
def ServedOver (P : Docket → Prop) (r : Except Fault Served) (d : Docket) : Prop :=
  match r with
  | .ok (.stream body _) => wp (watch Docket.note) body (fun _ d' => P d') d
  | _ => P d

theorem wp_serveClaimed_over (req : Request) (ticket : ClaimTicket) (h : Idle d) :
    wp (watch Docket.note) (serveClaimed req (some ticket)) (ServedOver Over) d := by
  rw [serveClaimed, wp_bind, wp_attempt]
  refine wp_mono _ (wp_serveCompletion_open req ticket h) ?_
  intro r d' h'
  rcases r with e | served
  · have hidle : Idle d' := h'
    refine wp_watch_step (p := release) rfl (fun a _ _ => ?_) fun a _ _ => ?_
    · exact over_settle hidle.settled hidle.dropped a
    · exact over_settle hidle.settled hidle.dropped a
  · cases served with
    | json response xCache =>
      have hidle : Idle d' := h'
      refine wp_watch_step (p := complete response (some xCache)) rfl (fun a _ _ => ?_)
        fun a _ _ => ?_
      · exact over_settle hidle.settled hidle.dropped a
      · exact over_settle hidle.settled hidle.dropped a
    | stream body xCache => exact h'

/-- A claim that was taken is over. -/
def Resolved (d : Docket) : Prop := d.claimed = true → Over d

/-- The claim was asked for, and not taken. -/
structure Refused (d : Docket) : Prop where
  gated : d.gated = true
  claimed : d.claimed = false

theorem Refused.resolved (h : Refused d) : Resolved d := by
  intro hc
  rw [h.claimed] at hc
  cases hc

/-- There is no second claim. -/
theorem Refused.note (h : Refused d) (e : Event iface) : Refused (d.note e) := by
  obtain ⟨q, a⟩ := e
  cases q with
  | claim =>
    change Refused (d.claim a)
    rw [show d.claim a = d from if_pos h.gated]
    exact h
  | _ => exact ⟨h.gated, h.claimed⟩

/-- A turn that holds no claim. -/
theorem wp_refused {α : Type} (p : Eff α) (h : Refused d) :
    wp (watch Docket.note) p (fun _ d' => Refused d') d :=
  wp_inv _ (fun d q a d' hd h => (show d' = d.note ⟨q, a⟩ from hd) ▸ h.note ⟨q, a⟩) p h

theorem wp_servedOver_of_refused (p : Eff Served) (h : Refused d) :
    wp (watch Docket.note) p (ServedOver Resolved) d := by
  refine wp_mono _ (wp_refused p h) ?_
  intro r d' h
  rcases r with e | served
  · exact h.resolved
  · cases served with
    | json response xCache => exact h.resolved
    | stream body xCache => exact wp_mono _ (wp_refused body h) fun _ _ h' => h'.resolved

/-- A turn under its claim. -/
theorem wp_held (req : Request) (ticket : ClaimTicket) (h : Idle d) :
    wp (watch Docket.note) (serveClaimed req (some ticket)) (ServedOver Resolved) d := by
  refine wp_mono _ (wp_serveClaimed_over req ticket h) ?_
  intro r d' h'
  rcases r with e | served
  · exact fun _ => h'
  · cases served with
    | json response xCache => exact fun _ => h'
    | stream body xCache => exact wp_mono _ h' fun _ _ hover _ => hover

/-- The gate, and what is behind it. -/
theorem wp_gated (req : Request) {key : String} (hkey : req.idempotencyKey = some key) :
    wp (watch Docket.note) (createChatCompletion req) (ServedOver Resolved) {} := by
  have hnone : Resolved {} := fun hc => (nomatch hc)
  rw [createChatCompletion]
  refine wp_skip rfl (fun _ => rfl) (fun _ => hnone) fun _ => ?_
  rw [hkey]
  dsimp only
  rw [gate]
  split
  · exact hnone
  rintro a _ rfl
  rcases a with result | ⟨exn, took⟩
  · cases result with
    | claimed => exact wp_held req req.requestId ⟨rfl, rfl, rfl⟩
    | inFlight => exact wp_servedOver_of_refused _ ⟨rfl, rfl⟩
    | fingerprintMismatch => exact wp_servedOver_of_refused _ ⟨rfl, rfl⟩
    | replay envelope => exact wp_servedOver_of_refused _ ⟨rfl, rfl⟩
  · change wp _ ((Prog.ofExcept (if (Fault.exn exn).isException then .ok ClaimResult.claimed
      else .error (Fault.exn exn)) >>= _) >>= _) _ _
    by_cases hexn : (Fault.exn exn).isException = true
    · rw [if_pos hexn]
      have hidle : Idle (Docket.note {} ⟨.claim, Claim.raised exn took⟩) := by
        refine ⟨rfl, rfl, ?_⟩
        change (false || !(Fault.exn exn).isException) = false
        rw [hexn]
        rfl
      exact wp_held req req.requestId hidle
    · rw [if_neg hexn]
      have hover : Over (Docket.note {} ⟨.claim, Claim.raised exn took⟩) := by
        change false = !(false || !(Fault.exn exn).isException)
        rw [Bool.eq_false_iff.mpr hexn]
        rfl
      exact fun _ => hover

/-- **The docket of a turn.** -/
theorem wp_turn_docket (req : Request) {key : String} (hkey : req.idempotencyKey = some key) :
    wp (watch Docket.note) (turn req) (fun _ d => Resolved d) {} := by
  rw [turn, wp_bind]
  refine wp_mono _ (wp_gated req hkey) ?_
  intro r d' h'
  rcases r with e | served
  · exact h'
  · cases served with
    | json response xCache => exact h'
    | stream body xCache => exact h'

end

/-- **A claim is settled just when no interruption meets it on its own.** -/
theorem settled_iff_not_dropped (req : Request) {key : String}
    (hkey : req.idempotencyKey = some key) {tr : List (Event iface)} {r : Except Fault Unit}
    (h : (turn req).Runs tr r) (hclaimed : (Docket.of tr).claimed = true) :
    (Docket.of tr).settled = true ↔ (Docket.of tr).dropped = false := by
  have hover : (Docket.of tr).settled = !(Docket.of tr).dropped :=
    wp_watch_sound (wp_turn_docket req hkey) h hclaimed
  rw [hover, Bool.not_eq_true']

/-- A Redis command that fails. -/
def fails : Event iface → Bool
  | ⟨.claim, .raised e _⟩ => (Fault.exn e).isException
  | ⟨.complete _ _, .raised e _⟩ => (Fault.exn e).isException
  | ⟨.release, .raised e _⟩ => (Fault.exn e).isException
  | ⟨.cachePut _ _, .raised e _⟩ => (Fault.exn e).isException
  | ⟨.cacheGet _, .error e⟩ => (Fault.exn e).isException
  | ⟨.recordAttempt, .error e⟩ => (Fault.exn e).isException
  | _ => false

/-- The reader closes the response behind its first frame. -/
def closing : (q : Ask) → Ans q
  | .yield _ => Consumer.closes
  | q => answering q

/-- A stream that is read to the end settles its claim. -/
theorem settled_iff_not_dropped_whole :
    (Docket.of (against answering (turn { cold with idempotencyKey := some "k" })).1).settled
      = true :=
  (settled_iff_not_dropped { cold with idempotencyKey := some "k" } rfl
    (against_runs answering (turn _)) (by decide)).mpr (by decide)

/-- **A claim may be left in flight**, and no command failed. -/
theorem not_settled :
    ¬ ∀ (req : Request) (key : String) (tr : List (Event iface)) (r : Except Fault Unit),
      req.idempotencyKey = some key → (turn req).Runs tr r →
      (∀ e ∈ tr, fails e = false) → (Docket.of tr).claimed = true →
      (Docket.of tr).settled = true := by
  intro h
  have hsettled := h { cold with idempotencyKey := some "k" } "k" _ _ rfl
    (against_runs closing (turn _)) (by decide) (by decide)
  exact absurd hsettled (by decide)

end Chat

end LlmGateway
