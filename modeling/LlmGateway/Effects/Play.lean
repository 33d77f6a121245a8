import LlmGateway.Effects.Prog

/-!
# Running a program against one environment

Where the environment is a function of its own state, a program has one run:
what it ends with and what it leaves behind, by the program's constructors.
-/

namespace Effects

namespace Prog

variable {I : Iface} {σ ε ε' α β : Type} {E : σ → (q : I.Ask) → I.Ans q × σ} {s : σ}

/-- What a program ends with, and the state it leaves. -/
def eval (E : σ → (q : I.Ask) → I.Ans q × σ) (s : σ) (p : Prog I ε α) : Except ε α × σ :=
  ((p.play E s).2, p.finish E s)

@[simp] theorem eval_ask (q : I.Ask) (k : I.Ans q → Prog I ε α) :
    (Prog.ask q k).eval E s = (k (E s q).1).eval E (E s q).2 := rfl

theorem eval_bind (p : Prog I ε α) (f : α → Prog I ε β) :
    (p >>= f).eval E s = match p.eval E s with
      | (.ok a, s') => (f a).eval E s'
      | (.error e, s') => (.error e, s') := by
  induction p generalizing s with
  | ret a => rfl
  | raise e => rfl
  | ask q k ih =>
    rw [ask_bind, eval_ask, eval_ask]
    exact ih _

/-- What comes behind a part that returned. -/
theorem eval_bind_of_ok {p : Prog I ε α} {a : α} {s' : σ} (h : p.eval E s = (.ok a, s'))
    (f : α → Prog I ε β) : (p >>= f).eval E s = (f a).eval E s' := by
  rw [eval_bind, h]

theorem eval_attempt (p : Prog I ε α) :
    (p.attempt : Prog I ε' (Except ε α)).eval E s = (.ok (p.eval E s).1, (p.eval E s).2) := by
  induction p generalizing s with
  | ret a => rfl
  | raise e => rfl
  | ask q k ih =>
    rw [attempt, eval_ask, eval_ask]
    exact ih _

/-- Every answer in a run is the environment's. -/
theorem ans_of_mem_play {p : Prog I ε α} {e : Event I} (h : e ∈ (p.play E s).1) :
    ∃ s', e.ans = (E s' e.ask).1 := by
  induction p generalizing s with
  | ret a => cases h
  | raise e' => cases h
  | ask q k ih =>
    rcases List.mem_cons.mp h with rfl | h
    · exact ⟨s, rfl⟩
    · exact ih _ h

end Prog

end Effects
