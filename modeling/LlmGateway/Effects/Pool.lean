import LlmGateway.Effects.Wp
import Mathlib.Logic.Function.Basic

/-!
# Pools of programs over a shared store

Any number of programs run against one store, one question at a time in any
order, with steps of the environment in between. `Settles` is the
rely-guarantee form of the weakest precondition: a program's assertions must
survive whatever the others may do, and its own steps must stay within what it
guarantees. `Reach.settles` is the one induction over interleavings; a proof
about a pool is then a proof about one program at a time.
-/

namespace Effects

variable {ι : Type} {I : Iface} {σ ε α β : Type}

/-- A store and what each member of the pool has still to do. -/
structure Pool (ι : Type) (I : Iface) (ε α σ : Type) where
  /-- The shared store. -/
  store : σ
  /-- What each member has left to run. -/
  prog : ι → Prog I ε α

namespace Pool

variable [DecidableEq ι]

/-- Member `i` asked `q`, was answered `a`, and left the store in `s`. -/
def answered (c : Pool ι I ε α σ) (i : ι) {q : I.Ask} (k : I.Ans q → Prog I ε α) (a : I.Ans q)
    (s : σ) : Pool ι I ε α σ :=
  ⟨s, Function.update c.prog i (k a)⟩

/-- **The reachable pools.** Each step is one question of one member, answered
by that member's view of the world, or a step of the environment. -/
inductive Reach (W : ι → World I σ) (env : σ → σ → Prop) (c₀ : Pool ι I ε α σ) :
    Pool ι I ε α σ → Prop
  | start : Reach W env c₀ c₀
  | act {c : Pool ι I ε α σ} {i : ι} {q : I.Ask} {k : I.Ans q → Prog I ε α} {a : I.Ans q} {s : σ}
      (h : Reach W env c₀ c) (hp : c.prog i = .ask q k) (hw : W i c.store q a s) :
      Reach W env c₀ (c.answered i k a s)
  | env {c : Pool ι I ε α σ} {s : σ} (h : Reach W env c₀ c) (he : env c.store s) :
      Reach W env c₀ ⟨s, c.prog⟩

end Pool

/-- One member may run to its end with nobody in between. -/
theorem Pool.Reach.runs [DecidableEq ι] {W : ι → World I σ} {env : σ → σ → Prop}
    {c₀ c : Pool ι I ε α σ} (h : Pool.Reach W env c₀ c) {i : ι} {tr : List (Event I)}
    {r : Except ε α} {s : σ} (hr : (c.prog i).Runs tr r) (ha : (W i).Accepts c.store tr s) :
    Pool.Reach W env c₀ ⟨s, Function.update c.prog i (.ofExcept r)⟩ := by
  generalize hp : c.prog i = p at hr
  induction hr generalizing c with
  | ret a =>
    cases ha
    change Pool.Reach W env c₀ ⟨c.store, Function.update c.prog i (.ret a)⟩
    rw [← hp, Function.update_eq_self]
    exact h
  | raise e =>
    cases ha
    change Pool.Reach W env c₀ ⟨c.store, Function.update c.prog i (.raise e)⟩
    rw [← hp, Function.update_eq_self]
    exact h
  | ask a _ ih =>
    cases ha with
    | cons hw ha =>
      have hrest := ih (h.act hp hw) ha (Function.update_self ..)
      simpa only [Pool.answered, Function.update_idem] using hrest

/-- An invariant of the store: kept by every answered question and by the
environment, whatever the members run. -/
theorem Pool.Reach.invariant [DecidableEq ι] {W : ι → World I σ} {env : σ → σ → Prop}
    {J : σ → Prop} {c₀ c : Pool ι I ε α σ} (h : Pool.Reach W env c₀ c) (hstart : J c₀.store)
    (hact : ∀ i s q a s', J s → W i s q a s' → J s') (henv : ∀ s s', J s → env s s' → J s') :
    J c.store := by
  induction h with
  | start => exact hstart
  | act _ _ hw ih => exact hact _ _ _ _ _ ih hw
  | env _ he ih => exact henv _ _ ih he

/-- Where nothing that has gone wrong is put right again, a run that ends well
is a run of the world confined to what is well. -/
theorem Pool.Reach.confine [DecidableEq ι] {W : ι → World I σ} {env : σ → σ → Prop}
    {c₀ c : Pool ι I ε α σ} (h : Pool.Reach W env c₀ c) (well : σ → Prop)
    (hact : ∀ i s q a s', W i s q a s' → well s' → well s)
    (henv : ∀ s s', env s s' → well s' → well s) (hc : well c.store) :
    Pool.Reach (fun i s q a s' => W i s q a s' ∧ well s') (fun s s' => env s s' ∧ well s') c₀ c := by
  induction h with
  | start => exact .start
  | act _ hp hw ih => exact .act (ih (hact _ _ _ _ _ hw hc)) hp ⟨hw, hc⟩
  | env _ he ih => exact .env (ih (henv _ _ he hc)) ⟨he, hc⟩

/-- **The pools of a fair run**: those reached by steps that are all `ok`, whoever takes them. -/
inductive Pool.Fair [DecidableEq ι] (W : ι → World I σ) (env : σ → σ → Prop)
    (ok : Pool ι I ε α σ → Pool ι I ε α σ → Prop) (c₀ : Pool ι I ε α σ) : Pool ι I ε α σ → Prop
  | start : Fair W env ok c₀ c₀
  | act {c : Pool ι I ε α σ} {i : ι} {q : I.Ask} {k : I.Ans q → Prog I ε α} {a : I.Ans q} {s : σ}
      (h : Fair W env ok c₀ c) (hp : c.prog i = .ask q k) (hw : W i c.store q a s)
      (hok : ok c (c.answered i k a s)) : Fair W env ok c₀ (c.answered i k a s)
  | env {c : Pool ι I ε α σ} {s : σ} (h : Fair W env ok c₀ c) (he : env c.store s)
      (hok : ok c ⟨s, c.prog⟩) : Fair W env ok c₀ ⟨s, c.prog⟩

/-- A pool of a fair run is one that can be reached. -/
theorem Pool.Fair.reach [DecidableEq ι] {W : ι → World I σ} {env : σ → σ → Prop}
    {ok : Pool ι I ε α σ → Pool ι I ε α σ → Prop} {c₀ c : Pool ι I ε α σ}
    (h : Pool.Fair W env ok c₀ c) : Pool.Reach W env c₀ c := by
  induction h with
  | start => exact .start
  | act _ hp hw _ ih => exact .act ih hp hw
  | env _ he _ ih => exact .env ih he

/-- An invariant of store and members: kept by every step that is `ok`. -/
theorem Pool.Fair.invariant [DecidableEq ι] {W : ι → World I σ} {env : σ → σ → Prop}
    {ok : Pool ι I ε α σ → Pool ι I ε α σ → Prop} {J : Pool ι I ε α σ → Prop}
    {c₀ c : Pool ι I ε α σ} (h : Pool.Fair W env ok c₀ c) (hstart : J c₀)
    (hact : ∀ c i q (k : I.Ans q → Prog I ε α) a s, J c → c.prog i = .ask q k →
      W i c.store q a s → ok c (c.answered i k a s) → J (c.answered i k a s))
    (henv : ∀ c s, J c → env c.store s → ok c ⟨s, c.prog⟩ → J ⟨s, c.prog⟩) : J c := by
  induction h with
  | start => exact hstart
  | act _ hp hw hok ih => exact hact _ _ _ _ _ _ ih hp hw hok
  | env _ he hok ih => exact henv _ _ ih he hok

/-! ## Schedules -/

/-- One step of a schedule: a member's turn, answered by a function of the
store, or a change of the store beside the members. -/
inductive Move (ι : Type) (I : Iface) (σ : Type) where
  | turn (i : ι) (answer : σ → (q : I.Ask) → I.Ans q × σ)
  | beside (f : σ → σ)

namespace Pool

variable [DecidableEq ι]

/-- The pool after one move; a member that has ended has no turn. -/
def move (c : Pool ι I ε α σ) : Move ι I σ → Pool ι I ε α σ
  | .turn i answer => match c.prog i with
    | .ask q k => c.answered i k (answer c.store q).1 (answer c.store q).2
    | .ret _ | .raise _ => c
  | .beside f => ⟨f c.store, c.prog⟩

/-- A move the world and the environment admit wherever it is made. -/
def Admits (W : ι → World I σ) (env : σ → σ → Prop) : Move ι I σ → Prop
  | .turn i answer => ∀ s q, W i s q (answer s q).1 (answer s q).2
  | .beside f => ∀ s, env s (f s)

/-- A schedule of admitted moves leads to a reachable pool. -/
theorem reach_of_moves {W : ι → World I σ} {env : σ → σ → Prop} {c₀ c : Pool ι I ε α σ}
    (moves : List (Move ι I σ)) (hm : ∀ m ∈ moves, Admits W env m) (h : Reach W env c₀ c) :
    Reach W env c₀ (moves.foldl move c) := by
  induction moves generalizing c with
  | nil => exact h
  | cons m moves ih =>
    refine ih (fun m' hm' => hm m' (List.mem_cons_of_mem _ hm')) ?_
    have hm₀ := hm m List.mem_cons_self
    cases m with
    | beside f => exact .env h (hm₀ c.store)
    | turn i answer =>
      simp only [move]
      split
      next q k hp => exact .act h hp (hm₀ c.store q)
      next => exact h
      next => exact h

end Pool

/-! ## Rely and guarantee -/

/-- What the others may do to the store: any number of steps, none included. -/
structure Rely (σ : Type) where
  /-- The others may take the store from the first state to the second. -/
  step : σ → σ → Prop
  refl : ∀ s, step s s
  trans : ∀ {s₁ s₂ s₃}, step s₁ s₂ → step s₂ s₃ → step s₁ s₃

section

variable (W : World I σ) (R : Rely σ) (G : σ → σ → Prop)

/-- **The precondition under interference.** Between any two of its questions
the others may take steps of `R`; its own steps stay within `G`; and `Q` holds
whenever it has ended, for as long as the others go on. -/
def Settles : Prog I ε α → (Except ε α → σ → Prop) → σ → Prop
  | .ret a, Q, s => ∀ s', R.step s s' → Q (.ok a) s'
  | .raise e, Q, s => ∀ s', R.step s s' → Q (.error e) s'
  | .ask q k, Q, s => ∀ s', R.step s s' → ∀ a s'', W s' q a s'' →
      G s' s'' ∧ Settles (k a) Q s''

variable {W R G}

/-- An assertion under interference survives the others' steps. -/
theorem Settles.stable {p : Prog I ε α} {Q : Except ε α → σ → Prop} {s s' : σ}
    (h : Settles W R G p Q s) (hs : R.step s s') : Settles W R G p Q s' := by
  cases p with
  | ret a => exact fun s'' hs' => h s'' (R.trans hs hs')
  | raise e => exact fun s'' hs' => h s'' (R.trans hs hs')
  | ask q k => exact fun s'' hs' => h s'' (R.trans hs hs')

/-- One question: it stays within the guarantee, and the program goes on. -/
theorem Settles.step {q : I.Ask} {k : I.Ans q → Prog I ε α} {Q : Except ε α → σ → Prop} {s s' : σ}
    {a : I.Ans q} (h : Settles W R G (.ask q k) Q s) (hw : W s q a s') :
    G s s' ∧ Settles W R G (k a) Q s' :=
  h s (R.refl s) a s' hw

/-- A question asked under an assertion the others respect. -/
theorem Settles.ask {q : I.Ask} {k : I.Ans q → Prog I ε α} {Q : Except ε α → σ → Prop}
    {P : σ → Prop} (hP : ∀ s s', R.step s s' → P s → P s')
    (h : ∀ s a s', P s → W s q a s' → G s s' ∧ Settles W R G (k a) Q s') {s : σ} (hs : P s) :
    Settles W R G (.ask q k) Q s :=
  fun s' hr a s'' hw => h s' a s'' (hP s s' hr hs) hw

theorem Settles.mono {p : Prog I ε α} {Q Q' : Except ε α → σ → Prop} {s : σ}
    (h : Settles W R G p Q s) (hQ : ∀ r s', Q r s' → Q' r s') : Settles W R G p Q' s := by
  induction p generalizing s with
  | ret a => exact fun s' hs => hQ _ _ (h s' hs)
  | raise e => exact fun s' hs => hQ _ _ (h s' hs)
  | ask q k ih =>
    intro s' hs a s'' hw
    obtain ⟨hG, hk⟩ := h s' hs a s'' hw
    exact ⟨hG, ih a hk⟩

/-- What settles under interference settles with none. -/
theorem Settles.finish {E : σ → (q : I.Ask) → I.Ans q × σ} {p : Prog I ε α}
    {Q : Except ε α → σ → Prop} {s : σ} (h : Settles W R G p Q s)
    (hE : ∀ s q, W s q (E s q).1 (E s q).2) : Q (p.play E s).2 (p.finish E s) := by
  induction p generalizing s with
  | ret a => exact h s (R.refl s)
  | raise e => exact h s (R.refl s)
  | ask q k ih => exact ih _ (h.step (hE s q)).2

/-- The rule of sequence. -/
theorem Settles.bind {p : Prog I ε α} {f : α → Prog I ε β} {Q : Except ε β → σ → Prop} {s : σ}
    (h : Settles W R G p (fun r s' => match r with
      | .ok a => Settles W R G (f a) Q s'
      | .error e => Q (.error e) s') s) : Settles W R G (p >>= f) Q s := by
  induction p generalizing s with
  | ret a => exact h s (R.refl s)
  | raise e => exact h
  | ask q k ih =>
    intro s' hs a s'' hw
    obtain ⟨hG, hk⟩ := h s' hs a s'' hw
    exact ⟨hG, ih a hk⟩

/-- The rule of a reified outcome. -/
theorem Settles.attempt {ε' : Type} {p : Prog I ε α} {Q : Except ε' (Except ε α) → σ → Prop} {s : σ}
    (h : Settles W R G p (fun r s' => Q (.ok r) s') s) : Settles W R G p.attempt Q s := by
  induction p generalizing s with
  | ret a => exact h
  | raise e => exact h
  | ask q k ih =>
    intro s' hs a s'' hw
    obtain ⟨hG, hk⟩ := h s' hs a s'' hw
    exact ⟨hG, ih a hk⟩

theorem settles_ofExcept {r : Except ε α} {Q : Except ε α → σ → Prop} {s : σ}
    (h : ∀ s', R.step s s' → Q r s') : Settles W R G (Prog.ofExcept r) Q s := by
  cases r with
  | ok a => exact h
  | error e => exact h

end

/-! ## The run rule -/

variable [DecidableEq ι]

/-- **The run rule.** If every member settles from the start, and every member
may rely on what the others and the environment do, then every member settles
wherever the pool gets. -/
theorem Pool.Reach.settles {W : ι → World I σ} {env : σ → σ → Prop} {R : ι → Rely σ}
    {G : ι → σ → σ → Prop} {Q : ι → Except ε α → σ → Prop} {c₀ c : Pool ι I ε α σ}
    (hothers : ∀ i j s s', i ≠ j → G i s s' → (R j).step s s')
    (henv : ∀ j s s', env s s' → (R j).step s s')
    (hstart : ∀ i, Settles (W i) (R i) (G i) (c₀.prog i) (Q i) c₀.store)
    (h : Pool.Reach W env c₀ c) : ∀ i, Settles (W i) (R i) (G i) (c.prog i) (Q i) c.store := by
  induction h with
  | start => exact hstart
  | @act c i q k a s _ hp hw ih =>
    have hi := ih i
    rw [hp] at hi
    obtain ⟨hG, hk⟩ := hi.step hw
    intro j
    by_cases hj : j = i
    · subst hj
      simpa [Pool.answered] using hk
    · have hstable := (ih j).stable (hothers i j _ _ (Ne.symm hj) hG)
      simpa [Pool.answered, Function.update_of_ne hj] using hstable
  | env _ he ih => exact fun i => (ih i).stable (henv i _ _ he)

/-- **The step rule.** Under the same conditions every step of a reachable pool
is within its member's guarantee. -/
theorem Pool.Reach.guarantee {W : ι → World I σ} {env : σ → σ → Prop} {R : ι → Rely σ}
    {G : ι → σ → σ → Prop} {Q : ι → Except ε α → σ → Prop} {c₀ c : Pool ι I ε α σ}
    (hothers : ∀ i j s s', i ≠ j → G i s s' → (R j).step s s')
    (henv : ∀ j s s', env s s' → (R j).step s s')
    (hstart : ∀ i, Settles (W i) (R i) (G i) (c₀.prog i) (Q i) c₀.store)
    (h : Pool.Reach W env c₀ c) {i : ι} {q : I.Ask} {k : I.Ans q → Prog I ε α} {a : I.Ans q}
    {s : σ} (hp : c.prog i = .ask q k) (hw : W i c.store q a s) : G i c.store s := by
  have hi := h.settles hothers henv hstart i
  rw [hp] at hi
  exact (hi.step hw).1

/-- An invariant kept by what the members guarantee. -/
theorem Pool.Reach.kept {W : ι → World I σ} {env : σ → σ → Prop} {R : ι → Rely σ}
    {G : ι → σ → σ → Prop} {Q : ι → Except ε α → σ → Prop} {J : σ → Prop} {c₀ c : Pool ι I ε α σ}
    (h : Pool.Reach W env c₀ c) (hothers : ∀ i j s s', i ≠ j → G i s s' → (R j).step s s')
    (henv : ∀ j s s', env s s' → (R j).step s s')
    (hstart : ∀ i, Settles (W i) (R i) (G i) (c₀.prog i) (Q i) c₀.store) (hJ : J c₀.store)
    (hact : ∀ i s s', G i s s' → J s → J s') (hbeside : ∀ s s', env s s' → J s → J s') :
    J c.store := by
  induction h with
  | start => exact hJ
  | act h hp hw ih => exact hact _ _ _ (h.guarantee hothers henv hstart hp hw) ih
  | env _ he ih => exact hbeside _ _ he ih

end Effects
