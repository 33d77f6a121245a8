import Mathlib.Data.List.Basic

/-!
# What one party can learn of the others

A machine takes steps on behalf of many parties and answers each of them. A party
learns nothing of the others if its answers in any run are those of the run in which
the others do nothing. It is enough to say of one step what it leaves alike, in the
party's eyes: `Unwinds`.
-/

namespace Effects

section

variable {σ ε ο : Type} (step : σ → ε → ο × σ)

/-- The state a run leads to. -/
def after (s : σ) (events : List ε) : σ := events.foldl (fun s e => (step s e).2) s

/-- The events of a run, each with its answer. -/
def answered : σ → List ε → List (ε × ο)
  | _, [] => []
  | s, e :: events => (e, (step s e).1) :: answered (step s e).2 events

/-- **Unwinding.** Over states that keep `Inv`, two that look alike answer the party alike and
still look alike behind its own steps, and the steps of others cannot be seen. -/
structure Unwinds (own : ε → Bool) (Inv : σ → Prop) (Alike : σ → σ → Prop) : Prop where
  keeps : ∀ s e, Inv s → Inv (step s e).2
  alike : ∀ s s' e, Inv s → Inv s' → own e = true → Alike s s' →
    (step s e).1 = (step s' e).1 ∧ Alike (step s e).2 (step s' e).2
  unseen : ∀ s s' e, Inv s → Inv s' → own e = false → Alike s s' → Alike (step s e).2 s'

variable {step} {own : ε → Bool} {Inv : σ → Prop} {Alike : σ → σ → Prop}

@[simp] theorem after_cons (s : σ) (e : ε) (events : List ε) :
    after step s (e :: events) = after step (step s e).2 events := rfl

theorem after_append (s : σ) (before events : List ε) :
    after step s (before ++ events) = after step (after step s before) events :=
  List.foldl_append

/-- An invariant over a whole run. -/
theorem after_keeps (h : ∀ s e, Inv s → Inv (step s e).2) {s : σ} (hs : Inv s)
    (events : List ε) : Inv (after step s events) := by
  induction events generalizing s with
  | nil => exact hs
  | cons e events ih => exact ih (h s e hs)

/-- What a step says of events that keep a condition. -/
theorem after_keeps_of {A : ε → Prop} {J : σ → Prop} (h : ∀ s e, A e → J s → J (step s e).2)
    {s : σ} (hs : J s) {events : List ε} (hok : ∀ e ∈ events, A e) : J (after step s events) := by
  induction events generalizing s with
  | nil => exact hs
  | cons e events ih =>
    exact ih (h s e (hok e List.mem_cons_self) hs) fun e he => hok e (List.mem_cons_of_mem _ he)

/-- **A party is answered as if it were alone**, in every run, and is left with a state that looks
as if it had been. -/
theorem Unwinds.alone (h : Unwinds step own Inv Alike) {s s' : σ} (hs : Inv s) (hs' : Inv s')
    (halike : Alike s s') (events : List ε) :
    (answered step s events).filter (fun answer => own answer.1) =
        answered step s' (events.filter own) ∧
      Alike (after step s events) (after step s' (events.filter own)) := by
  induction events generalizing s s' with
  | nil => exact ⟨rfl, halike⟩
  | cons e events ih =>
    cases hown : own e with
    | true =>
      obtain ⟨hanswer, hafter⟩ := h.alike s s' e hs hs' hown halike
      obtain ⟨hall, hlast⟩ := ih (h.keeps s e hs) (h.keeps s' e hs') hafter
      rw [List.filter_cons_of_pos hown]
      refine ⟨?_, hlast⟩
      rw [answered, answered, List.filter_cons_of_pos (by exact hown), hall, hanswer]
    | false =>
      obtain ⟨hall, hlast⟩ := ih (h.keeps s e hs) hs' (h.unseen s s' e hs hs' hown halike)
      rw [List.filter_cons_of_neg (by rw [hown]; exact Bool.false_ne_true)]
      refine ⟨?_, hlast⟩
      rw [answered, List.filter_cons_of_neg (by rw [hown]; exact Bool.false_ne_true), hall]

end

end Effects
