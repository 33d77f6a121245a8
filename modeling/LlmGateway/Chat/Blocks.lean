import LlmGateway.Chat.Completions
import LlmGateway.Chat.Rules
import LlmGateway.Effects.Twin

/-!
# The blocks of a turn

What the loop of a stream may ask, and what priming a generator does to it.
-/

namespace LlmGateway

namespace Chat

open Effects Streaming

/-! ## The loop of a stream -/

/-- What a stream asks on its way. -/
def Ask.streams : Ask → Bool
  | .wait _ | .isDisconnected | .yield _ | .recordAttempt => true
  | _ => false

/-- A block that asks nothing else. -/
abbrev Streams {α : Type} (p : Eff α) : Prop := p.Asks fun q => Ask.streams q = true

theorem streams_yieldFrame (frame : Frame) : Streams (yieldFrame frame) :=
  ⟨rfl, fun _ => Prog.asks_ofExcept _⟩

theorem streams_clientGone : Streams clientGone := ⟨rfl, fun _ => Prog.asks_ofExcept _⟩

theorem streams_beat (s : Turn) (n : Nat) : Streams (beat s n) := by
  induction n with
  | zero => trivial
  | succ n ih =>
    rw [beat]
    refine .bind streams_clientGone fun gone => ?_
    split
    · trivial
    · split
      · exact .bind (streams_yieldFrame .heartbeat) fun _ => ih
      · exact ih

theorem streams_awaitNext (s : Turn) (pulled : Pulled) : Streams (awaitNext s pulled) := by
  rw [awaitNext]
  refine .bind (p := wait pulled) ⟨rfl, fun _ => trivial⟩ fun waited => ?_
  refine .bind (streams_beat s waited.timeouts) fun gone => ?_
  split
  · trivial
  · split
    · trivial
    · exact streams_clientGone

theorem streams_yieldAll (frames : List Frame) : Streams (yieldAll frames) := by
  induction frames with
  | nil => trivial
  | cons frame frames ih => exact .bind (streams_yieldFrame frame) fun _ => ih

theorem streams_countAttempt (ev : RouteStreamEvent) : Streams (countAttempt ev) := by
  cases ev with
  | started _ _ => exact ⟨rfl, fun _ => Prog.asks_ofExcept _⟩
  | delta _ => trivial
  | aborted _ _ _ _ _ => trivial
  | completed _ => trivial

theorem streams_leave (s : Turn) (ending : Ending) : Streams (leave s ending) := by
  cases ending <;> trivial

theorem streams_drive (events : List RouteStreamEvent) (ending : Ending) (s : Turn) :
    Streams (drive s events ending) := by
  induction events generalizing s with
  | nil =>
    rw [drive]
    refine .bind (streams_awaitNext s _) fun gone => ?_
    split
    · trivial
    · exact streams_leave s ending
  | cons ev events ih =>
    rw [drive]
    refine .bind (streams_awaitNext s _) fun gone => ?_
    split
    · trivial
    · refine .bind (Prog.asks_ofExcept _) fun ⟨s', frames⟩ => ?_
      refine .bind (streams_yieldAll frames) fun _ => ?_
      refine .bind (streams_countAttempt ev) fun _ => ?_
      split
      · trivial
      · exact ih s'

theorem streams_failInBand (s : Turn) : Streams (failInBand s) :=
  .bind (Prog.asks_ofExcept _) fun _ => streams_yieldFrame _

/-! ## Questions a monitor does not note -/

section

variable {σ α β : Type} {note : σ → Event iface → σ} {s : σ}

/-- A question that may fail. -/
theorem wp_skip {p : Eff α} {q : Ask} {o : Ans q → Except Fault α}
    (hp : p = .ask q fun a => .ofExcept (o a)) {f : α → Eff β} {Q : Except Fault β → σ → Prop}
    (hskip : ∀ a, note s ⟨q, a⟩ = s) (herror : ∀ e, Q (.error e) s)
    (hok : ∀ x, wp (watch note) (f x) Q s) : wp (watch note) (p >>= f) Q s :=
  wp_watch_skip hp hskip herror hok

/-- A question that is answered in any case. -/
theorem wp_told {q : Ask} {p : Eff (Ans q)} (hp : p = .ask q .ret) {f : Ans q → Eff β}
    {Q : Except Fault β → σ → Prop} (hskip : ∀ a, note s ⟨q, a⟩ = s)
    (hok : ∀ x, wp (watch note) (f x) Q s) : wp (watch note) (p >>= f) Q s := by
  subst hp
  rintro a _ rfl
  rw [hskip a]
  exact hok a

/-- The row of a failed turn, and its error. -/
theorem wp_failTurn (failure : RoutingFailed) {Q : Except Fault α → σ → Prop}
    (helapsed : ∀ a, note s ⟨.elapsedMs, a⟩ = s) (hrecord : ∀ a, note s ⟨.record .failure, a⟩ = s)
    (herror : ∀ e, Q (.error e) s) (hcommit : ∀ e a, Q (.error e) (note s ⟨.commitSession, a⟩)) :
    wp (watch note) (failTurn failure) Q s := by
  rw [failTurn]
  refine wp_told (q := .elapsedMs) rfl helapsed fun _ => ?_
  refine wp_skip (q := .record .failure) rfl hrecord herror fun _ => ?_
  refine wp_watch_step (p := commitSession) rfl ?_ ?_
  · exact fun a e _ => hcommit e a
  · exact fun a _ _ => hcommit _ a

end

/-! ## Priming -/

section

variable {σ : Type} (W : World iface σ)

/-- **Priming.** A generator that is run up to its first frame has done nothing it
would not have done anyway; what it still does is left to whoever takes the
frame. -/
theorem wp_prime {p : Eff Unit} {Q : Except Fault Unit → σ → Prop} (I : σ → Prop)
    (hI : ∀ s q a s', (∀ frame, q ≠ .yield frame) → I s → W s q a s' → I s') {s : σ}
    (hs : I s) (h : wp W p Q s) :
    wp W (prime p) (fun r s' => I s' ∧ match r with
      | .ok (frame, rest) => wp W (.ask (.yield frame) rest) Q s'
      | .error _ => ∃ r', Q r' s') s := by
  induction p generalizing s with
  | ret a => exact ⟨hs, _, h⟩
  | raise e => exact ⟨hs, _, h⟩
  | ask q k ih =>
    by_cases hq : ∃ frame, q = .yield frame
    · obtain ⟨frame, rfl⟩ := hq
      exact ⟨hs, h⟩
    · have hask : prime (.ask q k) = .ask q fun a => prime (k a) := by
        cases q <;> first | rfl | exact absurd ⟨_, rfl⟩ hq
      rw [hask]
      intro a s' hw
      exact ih a (hI s q a s' (fun frame he => hq ⟨frame, he⟩) hs hw) (h a s' hw)

end

end Chat

end LlmGateway
