import LlmGateway.Chat.Rules
import LlmGateway.Effects.Twin

/-!
# What goes in and out of a stream

What a trace of `stream_completion` shows to one who watches it from outside,
and how each of its blocks adds to that.
-/

namespace LlmGateway

namespace Streaming

open Effects Chat

/-! ## The record -/

/-- A delta of the router. -/
def speaks : Pulled → Bool
  | .event (.delta _) => true
  | _ => false

/-- An exception that no `except Exception` catches: the task is cancelled. -/
def cancels (r : Except Exn Unit) : Bool :=
  match r with
  | .ok _ => false
  | .error e => !(Fault.exn e).isException

/-- A client that is found gone. -/
def departs (r : Except Exn Bool) : Bool :=
  match r with
  | .ok gone => gone
  | .error e => !(Fault.exn e).isException

/-- A call whose exceptions are shrugged off is got past, unless it is cancelled. -/
theorem shrugged_cases (r : Except Exn Unit) :
    shrugged (lift r) = .ok () ∧ cancels r = false ∨
      ∃ e, shrugged (lift r) = .error e ∧ cancels r = true := by
  rcases r with e | u
  · rw [lift, shrugged, cancels]
    cases he : (Fault.exn e).isException with
    | true => exact .inl ⟨rfl, rfl⟩
    | false => exact .inr ⟨.exn e, rfl, rfl⟩
  · exact .inl ⟨rfl, rfl⟩

/-- A check of the connection: still there, or not. -/
theorem gone_cases (r : Except Exn Bool) :
    gone r = .ok false ∧ departs r = false ∨ gone r ≠ .ok false ∧ departs r = true := by
  rcases r with e | b
  · rw [gone, departs]
    cases he : (Fault.exn e).isException with
    | true => exact .inl ⟨rfl, rfl⟩
    | false => exact .inr ⟨by rintro ⟨⟩, rfl⟩
  · cases b with
    | false => exact .inl ⟨rfl, rfl⟩
    | true => exact .inr ⟨by rintro ⟨⟩, rfl⟩

/-- Whether the consumer closes the response. -/
def closes : Consumer → Bool
  | .next => false
  | .closes => true

@[simp] theorem closes_next : closes .next = false := rfl

@[simp] theorem closes_closes : closes .closes = true := rfl

/-- What a trace has shown. -/
structure Feed where
  /-- A delta has come in. -/
  spoken : Bool := false
  /-- The frames that went out. -/
  sent : List Frame := []
  /-- One of them before any delta had come in. -/
  early : Bool := false
  /-- The results handed to persistence. -/
  handed : List StreamResult := []
  /-- The consumer closed the response at a `yield`. -/
  closed : Bool := false
  /-- The client left: it closed the response, was found gone, or the task was
  cancelled. -/
  left : Bool := false
  deriving DecidableEq, Repr

namespace Feed

def note (f : Feed) : Event iface → Feed
  | ⟨.yield frame, (a : Consumer)⟩ =>
    { f with
      sent := f.sent ++ [frame], early := f.early || !f.spoken
      closed := f.closed || closes a, left := f.left || closes a }
  | ⟨.wait pulled, (w : Waited)⟩ =>
    { f with spoken := f.spoken || speaks pulled, left := f.left || w.cancelled }
  | ⟨.isDisconnected, (a : Except Exn Bool)⟩ =>
    { f with left := f.left || departs a }
  | ⟨.recordAttempt, (a : Except Exn Unit)⟩ => { f with left := f.left || cancels a }
  | ⟨.persist result, (a : Except Exn Unit)⟩ =>
    { f with handed := f.handed ++ [result], left := f.left || cancels a }
  | _ => f

/-- **The record of a trace.** -/
def of (tr : List (Event iface)) : Feed := tr.foldl note {}

end Feed

/-- Nobody comes back. -/
theorem Feed.left_note {f : Feed} (h : f.left = true) (e : Event iface) :
    (f.note e).left = true := by
  obtain ⟨q, a⟩ := e
  cases q <;> first | exact h | simp [Feed.note, h]

theorem wp_left {α : Type} (p : Eff α) {f : Feed} (h : f.left = true) :
    wp (watch Feed.note) p (fun _ f' => f'.left = true) f := by
  induction p generalizing f with
  | ret a => exact h
  | raise e => exact h
  | ask q k ih =>
    rintro a _ rfl
    exact ih a (Feed.left_note h _)

theorem wp_wait (pulled : Pulled) (Q : Except Fault Waited → Feed → Prop) (f : Feed) :
    wp (watch Feed.note) (wait pulled) Q f ↔ ∀ w, Q (.ok w) (f.note ⟨.wait pulled, w⟩) := by
  constructor
  · intro h w
    exact h w _ rfl
  · rintro h w _ rfl
    exact h w

theorem wp_yieldFrame (frame : Frame) (Q : Except Fault Unit → Feed → Prop) (f : Feed) :
    wp (watch Feed.note) (yieldFrame frame) Q f ↔
      Q (.ok ()) (f.note ⟨.yield frame, Consumer.next⟩) ∧
        Q (.error (.exn .generatorExit)) (f.note ⟨.yield frame, Consumer.closes⟩) := by
  constructor
  · intro h
    exact ⟨h Consumer.next _ rfl, h Consumer.closes _ rfl⟩
  · rintro ⟨hnext, hcloses⟩ a _ rfl
    cases a with
    | next => exact hnext
    | closes => exact hcloses

/-! ## Waiting -/

/-- The frames of a wait are heartbeats, and none before the first byte. -/
structure Beaten (s : Turn) (f f' : Feed) : Prop where
  sent : ∃ k, f'.sent = f.sent ++ List.replicate k .heartbeat ∧ (s.committed = false → k = 0)
  spoken : f'.spoken = f.spoken
  early : f'.early = f.early
  handed : f'.handed = f.handed

theorem Beaten.refl {s : Turn} {f f' : Feed} (hsent : f'.sent = f.sent)
    (hspoken : f'.spoken = f.spoken) (hearly : f'.early = f.early)
    (hhanded : f'.handed = f.handed) : Beaten s f f' :=
  ⟨⟨0, by rw [hsent]; exact (List.append_nil _).symm, fun _ => rfl⟩, hspoken, hearly, hhanded⟩

theorem Beaten.trans {s : Turn} {f f' f'' : Feed} (h : Beaten s f f') (h' : Beaten s f' f'') :
    Beaten s f f'' := by
  obtain ⟨k, hk, hk0⟩ := h.sent
  obtain ⟨m, hm, hm0⟩ := h'.sent
  refine ⟨⟨k + m, ?_, ?_⟩, h'.spoken.trans h.spoken, h'.early.trans h.early,
    h'.handed.trans h.handed⟩
  · rw [hm, hk, List.append_assoc, List.replicate_append_replicate]
  · intro hs
    rw [hk0 hs, hm0 hs]

/-- How a wait came back: the client is gone, or it is not and nothing was
noted against it. -/
def Stays (r : Except Fault Bool) (f f' : Feed) : Prop :=
  match r with
  | .ok false => f'.left = f.left ∧ f'.closed = f.closed
  | .ok true | .error _ => f'.left = true

theorem stays_of_left {r : Except Fault Bool} {f f' : Feed} (hr : r ≠ .ok false)
    (h : f'.left = true) : Stays r f f' := by
  rcases r with e | b
  · exact h
  · cases b with
    | true => exact h
    | false => exact absurd rfl hr

theorem wp_clientGone (s : Turn) (f : Feed) :
    wp (watch Feed.note) clientGone (fun r f' => Beaten s f f' ∧ Stays r f f') f := by
  rw [Chat.wp_clientGone]
  rintro a _ rfl
  have hquiet : Beaten s f (f.note ⟨.isDisconnected, a⟩) := .refl rfl rfl rfl rfl
  refine ⟨hquiet, ?_⟩
  rcases gone_cases a with ⟨hr, hd⟩ | ⟨hr, hd⟩
  · rw [hr]
    exact ⟨by simp [Feed.note, hd], rfl⟩
  · exact stays_of_left hr (by simp [Feed.note, hd])

theorem wp_beat (s : Turn) (n : Nat) (f : Feed) (hf : s.committed = true → f.spoken = true) :
    wp (watch Feed.note) (beat s n) (fun r f' => Beaten s f f' ∧ Stays r f f') f := by
  induction n generalizing f with
  | zero => exact ⟨.refl rfl rfl rfl rfl, rfl, rfl⟩
  | succ n ih =>
    rw [beat]
    rw [wp_bind]
    refine wp_mono _ (wp_clientGone s f) ?_
    rintro (e | gone) f' ⟨hb, hs⟩
    · exact ⟨hb, hs⟩
    cases gone with
    | true => exact ⟨hb, hs⟩
    | false =>
      obtain ⟨hleft, hclosed⟩ := hs
      have hf' : s.committed = true → f'.spoken = true := fun hc => hb.spoken.trans (hf hc)
      have hgo : ∀ g, Beaten s f g → g.left = f.left → g.closed = f.closed →
          wp (watch Feed.note) (beat s n) (fun r f'' => Beaten s f f'' ∧ Stays r f f'') g := by
        intro g hg hl hcl
        refine wp_mono _ (ih g fun hc => hg.spoken.trans (hf hc)) ?_
        rintro r f'' ⟨hb', hs'⟩
        refine ⟨hg.trans hb', ?_⟩
        cases r with
        | error e => exact hs'
        | ok gone =>
          cases gone with
          | true => exact hs'
          | false => exact ⟨hs'.1.trans hl, hs'.2.trans hcl⟩
      dsimp only
      rw [if_neg (by decide)]
      split
      next hc =>
        have hsent : ∀ a : Consumer, Beaten s f (f'.note ⟨.yield .heartbeat, a⟩) := by
          intro a
          refine hb.trans ⟨⟨1, rfl, ?_⟩, rfl, by simp [Feed.note, hf' hc], rfl⟩
          rw [hc]
          exact fun h => absurd h (by decide)
        rw [wp_bind, wp_yieldFrame]
        constructor
        · exact hgo _ (hsent .next) (by simp [Feed.note, hleft]) (by simp [Feed.note, hclosed])
        · exact ⟨hsent .closes, by simp [Feed.note, Stays]⟩
      next => exact hgo f' hb hleft hclosed

/-- A wait: heartbeats, and then the client is gone or the next event is
there. -/
theorem wp_awaitNext (s : Turn) (pulled : Pulled) (f : Feed)
    (hf : s.committed = true → f.spoken = true) :
    wp (watch Feed.note) (awaitNext s pulled) (fun r f' =>
      Beaten s { f with spoken := f.spoken || speaks pulled } f' ∧ Stays r f f') f := by
  rw [awaitNext, wp_bind, wp_wait]
  intro waited
  have hwaited : Beaten s { f with spoken := f.spoken || speaks pulled }
      (f.note ⟨.wait pulled, waited⟩) := .refl rfl rfl rfl rfl
  dsimp only
  rw [wp_bind]
  refine wp_mono _ (wp_beat s waited.timeouts _ ?_) ?_
  · intro hc
    simp [Feed.note, hf hc]
  rintro (e | gone) f' ⟨hb, hs⟩
  · exact ⟨hwaited.trans hb, hs⟩
  cases gone with
  | true => exact ⟨hwaited.trans hb, hs⟩
  | false =>
    obtain ⟨hleft, hclosed⟩ := hs
    dsimp only
    rw [if_neg (by decide)]
    split
    next hc => exact ⟨hwaited.trans hb, by simp [Stays, hleft, Feed.note, hc]⟩
    next hc =>
      refine wp_mono _ (wp_clientGone s f') ?_
      rintro r f'' ⟨hb', hs'⟩
      refine ⟨(hwaited.trans hb).trans hb', ?_⟩
      rcases r with e | gone
      · exact hs'
      · cases gone with
        | true => exact hs'
        | false =>
          refine ⟨hs'.1.trans (hleft.trans ?_), hs'.2.trans hclosed⟩
          simp [Feed.note, hc]

/-! ## Frames -/

/-- The frames of an event went out: all of them, or some and the consumer
closed the response at the last. -/
structure Uttered (frames : List Frame) (r : Except Fault Unit) (f f' : Feed) : Prop where
  sent : ∃ out, f'.sent = f.sent ++ out ∧ out <+: frames
  spoken : f'.spoken = f.spoken
  early : frames = [] ∨ f.spoken = true → f'.early = f.early
  handed : f'.handed = f.handed
  through : ∀ u, r = .ok u → f'.sent = f.sent ++ frames ∧ f'.left = f.left ∧ f'.closed = f.closed
  cut : ∀ e, r = .error e → f'.closed = true ∧ f'.left = true

theorem wp_yieldAll (frames : List Frame) (f : Feed) :
    wp (watch Feed.note) (yieldAll frames) (fun r f' => Uttered frames r f f') f := by
  induction frames generalizing f with
  | nil =>
    exact ⟨⟨[], (List.append_nil _).symm, List.nil_prefix⟩, rfl, fun _ => rfl, rfl,
      fun _ _ => ⟨(List.append_nil _).symm, rfl, rfl⟩, fun _ he => (nomatch he)⟩
  | cons frame frames ih =>
    rw [yieldAll, wp_bind, wp_yieldFrame]
    constructor
    case right =>
      have hearly : frame :: frames = [] ∨ f.spoken = true →
          (f.note ⟨.yield frame, Consumer.closes⟩).early = f.early := by
        rintro (h | hf)
        · cases h
        · simp [Feed.note, hf]
      refine ⟨⟨[frame], rfl, ?_⟩, rfl, hearly, rfl,
        fun _ hu => (nomatch hu), fun e _ => by simp [Feed.note]⟩
      exact List.cons_prefix_cons.mpr ⟨rfl, List.nil_prefix⟩
    case left =>
      refine wp_mono _ (ih (f.note ⟨.yield frame, Consumer.next⟩)) ?_
      rintro r f' h
      obtain ⟨out, hout, hpre⟩ := h.sent
      refine ⟨⟨frame :: out, ?_, List.cons_prefix_cons.mpr ⟨rfl, hpre⟩⟩, h.spoken, ?_, h.handed,
        ?_, h.cut⟩
      · rw [hout]
        simp [Feed.note]
      · rintro (hnil | hf)
        · cases hnil
        · rw [h.early (.inr hf)]
          simp [Feed.note, hf]
      · intro u hu
        obtain ⟨hsent, hleft, hclosed⟩ := h.through u hu
        refine ⟨?_, hleft.trans (by simp [Feed.note]), hclosed.trans (by simp [Feed.note])⟩
        rw [hsent]
        simp [Feed.note]

/-! ## The rest -/

/-- A block that only a cancellation gets past. -/
structure Kept (r : Except Fault Unit) (f f' : Feed) : Prop where
  sent : f'.sent = f.sent
  spoken : f'.spoken = f.spoken
  early : f'.early = f.early
  closed : f'.closed = f.closed
  through : ∀ u, r = .ok u → f'.left = f.left
  cut : ∀ e, r = .error e → f'.left = true

/-- The call whose exceptions are shrugged off. -/
theorem Kept.of_shrugged {a : Except Exn Unit} {f f' : Feed} (hsent : f'.sent = f.sent)
    (hspoken : f'.spoken = f.spoken) (hearly : f'.early = f.early)
    (hclosed : f'.closed = f.closed) (hleft : f'.left = (f.left || cancels a)) :
    Kept (shrugged (lift a)) f f' := by
  refine ⟨hsent, hspoken, hearly, hclosed, ?_, ?_⟩
  · intro u hu
    rcases shrugged_cases a with ⟨-, hc⟩ | ⟨e, he, -⟩
    · rw [hleft, hc, Bool.or_false]
    · rw [he] at hu
      cases hu
  · intro e he
    rcases shrugged_cases a with ⟨hok, -⟩ | ⟨-, -, hc⟩
    · rw [hok] at he
      cases he
    · rw [hleft, hc, Bool.or_true]

theorem wp_countAttempt (ev : RouteStreamEvent) (f : Feed) :
    wp (watch Feed.note) (countAttempt ev) (fun r f' => Kept r f f' ∧ f'.handed = f.handed) f := by
  have hskip : Kept (.ok ()) f f := ⟨rfl, rfl, rfl, rfl, fun _ _ => rfl, fun _ he => (nomatch he)⟩
  cases ev with
  | delta _ => exact ⟨hskip, rfl⟩
  | aborted _ _ _ _ _ => exact ⟨hskip, rfl⟩
  | completed _ => exact ⟨hskip, rfl⟩
  | started _ _ =>
    change wp _ recordAttempt _ _
    rw [wp_recordAttempt]
    rintro a _ rfl
    refine ⟨.of_shrugged ?_ ?_ ?_ ?_ ?_, rfl⟩ <;> rfl

/-- A finished turn is handed over once, an unfinished one not at all. -/
theorem wp_handOver (s : Turn) (f : Feed) :
    wp (watch Feed.note) (handOver persist s) (fun r f' => Kept r f f' ∧
      f'.handed = if s.done = true then f.handed ++ [s.result] else f.handed) f := by
  unfold handOver
  split
  next hd =>
    rw [wp_bind, wp_attempt]
    rintro a _ rfl
    rw [wp_ofExcept]
    change wp _ (.ofExcept (shrugged (lift a)) : Eff Unit) _ _
    rw [wp_ofExcept]
    refine ⟨.of_shrugged ?_ ?_ ?_ ?_ ?_, rfl⟩ <;> rfl
  next hd => exact ⟨⟨rfl, rfl, rfl, rfl, fun _ _ => rfl, fun _ he => (nomatch he)⟩, rfl⟩

end Streaming

end LlmGateway
