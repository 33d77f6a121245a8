import LlmGateway.Effects.Embed
import LlmGateway.Effects.Pool

/-!
# Programs that keep an order

Which question a program may ask next can depend on what it was answered so far:
a key is deleted only by who has just read their own mark in it, and what is
begun is finished before anything else. `Follows` is kept up by the rules of
sequence and of outcomes, and in a pool every member keeps its own order
whatever the others do.
-/

namespace Effects

variable {I J : Iface} {ι σ τ ε ε' α β : Type}

/-- **The order**: each question is one that what was noted allows, and at the end `K` holds. -/
def Prog.Follows (note : τ → Event I → τ) (may : τ → I.Ask → Prop) :
    Prog I ε α → (Except ε α → τ → Prop) → τ → Prop
  | .ret a, K, t => K (.ok a) t
  | .raise e, K, t => K (.error e) t
  | .ask q k, K, t => may t q ∧ ∀ a, (k a).Follows note may K (note t ⟨q, a⟩)

namespace Prog.Follows

variable {note : τ → Event I → τ} {may : τ → I.Ask → Prop} {t : τ}

theorem mono {p : Prog I ε α} {K K' : Except ε α → τ → Prop} (h : p.Follows note may K t)
    (hK : ∀ r t', K r t' → K' r t') : p.Follows note may K' t := by
  induction p generalizing t with
  | ret a => exact hK _ _ h
  | raise e => exact hK _ _ h
  | ask q k ih => exact ⟨h.1, fun a => ih a (h.2 a)⟩

/-- The rule of sequence. -/
theorem bind {p : Prog I ε α} {f : α → Prog I ε β} {K : Except ε β → τ → Prop}
    (h : p.Follows note may (fun r t' => match r with
      | .ok a => (f a).Follows note may K t'
      | .error e => K (.error e) t') t) : (p >>= f).Follows note may K t := by
  induction p generalizing t with
  | ret a => exact h
  | raise e => exact h
  | ask q k ih => exact ⟨h.1, fun a => ih a (h.2 a)⟩

/-- The rule of a reified outcome. -/
theorem attempt {p : Prog I ε α} {K : Except ε' (Except ε α) → τ → Prop}
    (h : p.Follows note may (fun r t' => K (.ok r) t') t) :
    (p.attempt : Prog I ε' (Except ε α)).Follows note may K t := by
  induction p generalizing t with
  | ret a => exact h
  | raise e => exact h
  | ask q k ih => exact ⟨h.1, fun a => ih a (h.2 a)⟩

theorem ofExcept {r : Except ε α} {K : Except ε α → τ → Prop} (h : K r t) :
    (Prog.ofExcept r).Follows note may K t := by
  cases r with
  | ok a => exact h
  | error e => exact h

/-- Questions that are always allowed, and leave what is noted within `L`. -/
theorem of_asks {A : I.Ask → Prop} {L : τ → Prop} {p : Prog I ε α} (hp : p.Asks A)
    (hA : ∀ t q, A q → L t → may t q ∧ ∀ a, L (note t ⟨q, a⟩)) (ht : L t) :
    p.Follows note may (fun _ t' => L t') t := by
  induction p generalizing t with
  | ret a => exact ht
  | raise e => exact ht
  | ask q k ih =>
    obtain ⟨hmay, hnote⟩ := hA t q hp.1 ht
    exact ⟨hmay, fun a => ih a (hp.2 a) (hnote a)⟩

/-- A program whose questions are answered by programs that each leave what is noted within `L`. -/
theorem inline {J : Iface} {note : τ → Event J → τ} {may : τ → J.Ask → Prop}
    {h : ∀ q : I.Ask, Prog J ε (I.Ans q)} {L : τ → Prop} {p : Prog I ε α}
    (hh : ∀ q t, L t → (h q).Follows note may (fun _ t' => L t') t) (ht : L t) :
    (p.inline h).Follows note may (fun _ t' => L t') t := by
  induction p generalizing t with
  | ret a => exact ht
  | raise e => exact ht
  | ask q k ih =>
    refine Prog.Follows.bind ((hh q t ht).mono fun r t' ht' => ?_)
    cases r with
    | error e => exact ht'
    | ok a => exact ih a ht'

/-- A question whose answer is handed on. -/
theorem ask {q : I.Ask} {k : I.Ans q → Prog I ε α} {K : Except ε α → τ → Prop} (hmay : may t q)
    (h : ∀ a, (k a).Follows note may K (note t ⟨q, a⟩)) :
    (Prog.ask q k).Follows note may K t := ⟨hmay, h⟩

end Prog.Follows

section

variable [DecidableEq ι]

/-- **The order in a pool.** Each member keeps its own, and an invariant of the store and of what
the members noted need only be kept by what their orders allow. -/
theorem Pool.Fair.follows {W : ι → World I σ} {env : σ → σ → Prop}
    {ok : Pool ι I ε α σ → Pool ι I ε α σ → Prop} {note : ι → τ → Event I → τ}
    {may : ι → τ → I.Ask → Prop} {K : ι → Except ε α → τ → Prop}
    {J : (ι → τ) → Pool ι I ε α σ → Prop} {c₀ c : Pool ι I ε α σ} (h : Pool.Fair W env ok c₀ c)
    {t₀ : ι → τ} (hstart : ∀ i, (c₀.prog i).Follows (note i) (may i) (K i) (t₀ i))
    (hJ : J t₀ c₀)
    (hact : ∀ t c i q (k : I.Ans q → Prog I ε α) a s,
      (∀ j, (c.prog j).Follows (note j) (may j) (K j) (t j)) → J t c → c.prog i = .ask q k →
      W i c.store q a s → ok c (c.answered i k a s) →
        J (Function.update t i (note i (t i) ⟨q, a⟩)) (c.answered i k a s))
    (henv : ∀ t c s, (∀ j, (c.prog j).Follows (note j) (may j) (K j) (t j)) → J t c →
      env c.store s → ok c ⟨s, c.prog⟩ → J t ⟨s, c.prog⟩) :
    ∃ t, (∀ i, (c.prog i).Follows (note i) (may i) (K i) (t i)) ∧ J t c := by
  induction h with
  | start => exact ⟨t₀, hstart, hJ⟩
  | @act c i q k a s _ hp hw hok ih =>
    obtain ⟨t, hfollows, hJ⟩ := ih
    refine ⟨_, fun j => ?_, hact t c i q k a s hfollows hJ hp hw hok⟩
    by_cases hj : j = i
    · subst hj
      have hnext := hfollows j
      rw [hp] at hnext
      simpa [Pool.answered] using hnext.2 a
    · simpa [Pool.answered, Function.update_of_ne hj] using hfollows j
  | @env c s _ he hok ih =>
    obtain ⟨t, hfollows, hJ⟩ := ih
    exact ⟨t, hfollows, henv t c s hfollows hJ he hok⟩

end

end Effects
