import Mathlib.Tactic.Common

/-!
# Programs that ask their environment

A program is a tree of questions put to an environment it does not control:
each question has a type of answers, and the program goes on from the answer.
It returns a value or raises an error. Everything a program can do is then in
its traces, the sequences of questions asked and answers received, and a claim
about the program is a claim about every trace.
-/

namespace Effects

/-- The questions a program may ask, and the answers each admits. -/
structure Iface where
  /-- The questions. -/
  Ask : Type
  /-- The answers to a question. -/
  Ans : Ask → Type

/-- A question asked and the answer it received. -/
structure Event (I : Iface) where
  /-- The question asked. -/
  ask : I.Ask
  /-- The answer received. -/
  ans : I.Ans ask

/-- A program over an interface: it returns, raises, or asks and goes on from
the answer. -/
inductive Prog (I : Iface) (ε α : Type) where
  | ret (a : α)
  | raise (e : ε)
  | ask (q : I.Ask) (k : I.Ans q → Prog I ε α)

namespace Prog

variable {I : Iface} {ε ε' α β : Type}

/-! ## The monad -/

/-- Run `p`, then `f` on what it returned; an error ends the whole. -/
def bind : Prog I ε α → (α → Prog I ε β) → Prog I ε β
  | .ret a, f => f a
  | .raise e, _ => .raise e
  | .ask q k, f => .ask q fun a => (k a).bind f

instance : Monad (Prog I ε) where
  pure := .ret
  bind := .bind

@[simp] theorem pure_eq (a : α) : (pure a : Prog I ε α) = .ret a := rfl

@[simp] theorem ret_bind (a : α) (f : α → Prog I ε β) : (Prog.ret a >>= f) = f a := rfl

@[simp] theorem raise_bind (e : ε) (f : α → Prog I ε β) :
    (Prog.raise e >>= f) = .raise e := rfl

@[simp] theorem ask_bind (q : I.Ask) (k : I.Ans q → Prog I ε α) (f : α → Prog I ε β) :
    (Prog.ask q k >>= f) = .ask q fun a => k a >>= f := rfl

/-! ## Errors -/

/-- The program that ends at once with `r`. -/
def ofExcept : Except ε α → Prog I ε α
  | .ok a => .ret a
  | .error e => .raise e

@[simp] theorem ofExcept_ok (a : α) : (ofExcept (.ok a) : Prog I ε α) = .ret a := rfl

@[simp] theorem ofExcept_error (e : ε) : (ofExcept (.error e) : Prog I ε α) = .raise e := rfl

/-- `p` with its outcome reified: what a `try` block hands to its handlers. -/
def attempt : Prog I ε α → Prog I ε' (Except ε α)
  | .ret a => .ret (.ok a)
  | .raise e => .ret (.error e)
  | .ask q k => .ask q fun a => (k a).attempt

/-- `p` with its errors renamed. -/
def mapError (f : ε → ε') : Prog I ε α → Prog I ε' α
  | .ret a => .ret a
  | .raise e => .raise (f e)
  | .ask q k => .ask q fun a => (k a).mapError f

/-- `p` run while the enclosing function's locals are `l`: an error out of `p`
carries them, so a handler reads the values they had at that point. -/
abbrev withLocals {L : Type} (p : Prog I ε α) (l : L) : Prog I (ε × L) α :=
  p.mapError (·, l)

/-- No answer leads a program back to the question it is the answer to. -/
theorem ne_ask_self {p : Prog I ε α} {q : I.Ask} {k : I.Ans q → Prog I ε α} (hp : p = .ask q k)
    (a : I.Ans q) : k a ≠ p := by
  induction p generalizing q with
  | ret b => cases hp
  | raise e => cases hp
  | ask q' k' ih =>
    cases hp
    intro heq
    exact ih a heq a rfl

/-! ## Traces -/

/-- The question a program asks next, if it has not ended. -/
def question : Prog I ε α → Option I.Ask
  | .ask q _ => some q
  | .ret _ | .raise _ => none

theorem exists_of_question {p : Prog I ε α} {q : I.Ask} (h : p.question = some q) :
    ∃ k, p = .ask q k := by
  cases p with
  | ask q' k =>
    have hq : q' = q := Option.some.inj h
    subst hq
    exact ⟨k, rfl⟩
  | ret a => cases h
  | raise e => cases h

/-- **The complete traces.** `p.Runs tr r` when `p` can ask and be answered
`tr` and then end with `r`. -/
inductive Runs : Prog I ε α → List (Event I) → Except ε α → Prop
  | ret (a : α) : Runs (.ret a) [] (.ok a)
  | raise (e : ε) : Runs (.raise e) [] (.error e)
  | ask {q : I.Ask} {k : I.Ans q → Prog I ε α} {tr : List (Event I)} {r : Except ε α}
      (a : I.Ans q) (h : Runs (k a) tr r) : Runs (.ask q k) (⟨q, a⟩ :: tr) r

/-- What is left of a run whose first part is known. -/
theorem Runs.behind {p : Prog I ε α} {f : α → Prog I ε β} {tr₀ tr : List (Event I)} {a : α}
    {r : Except ε β} (hp : p.Runs tr₀ (.ok a)) (h : (p >>= f).Runs (tr₀ ++ tr) r) :
    (f a).Runs tr r := by
  generalize hr : Except.ok a = r₀ at hp
  induction hp with
  | ret b =>
    cases hr
    exact h
  | raise e => cases hr
  | ask b _ ih =>
    cases h with
    | ask _ h => exact ih h hr

/-- Run `p` against an environment given as a function of its own state: the
executable counterpart of `Runs`. -/
def play {σ : Type} (E : σ → (q : I.Ask) → I.Ans q × σ) :
    σ → Prog I ε α → List (Event I) × Except ε α
  | _, .ret a => ([], .ok a)
  | _, .raise e => ([], .error e)
  | s, .ask q k =>
      let (a, s') := E s q
      let (tr, r) := (k a).play E s'
      (⟨q, a⟩ :: tr, r)

/-- The environment's state at the end of that run. -/
def finish {σ : Type} (E : σ → (q : I.Ask) → I.Ans q × σ) : σ → Prog I ε α → σ
  | s, .ret _ | s, .raise _ => s
  | s, .ask q k => (k (E s q).1).finish E (E s q).2

/-- What `play` computes is a run. -/
theorem play_runs {σ : Type} (E : σ → (q : I.Ask) → I.Ans q × σ) (s : σ) (p : Prog I ε α) :
    p.Runs (p.play E s).1 (p.play E s).2 := by
  induction p generalizing s with
  | ret a => exact .ret a
  | raise e => exact .raise e
  | ask q k ih => exact .ask (E s q).1 (ih _ _)

/-- A run against such an environment exists whatever it answers: programs are
total. -/
theorem exists_runs (E : (q : I.Ask) → I.Ans q) (p : Prog I ε α) : ∃ tr r, p.Runs tr r :=
  ⟨_, _, p.play_runs (fun _ q => (E q, ())) ()⟩

end Prog

end Effects
