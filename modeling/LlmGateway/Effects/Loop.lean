import LlmGateway.Effects.Wp

/-!
# Loops

Two loops, both total by construction. `iterate` is a `while True` whose every
way round hands on a state that carries the proof of a smaller measure, so no
fuel is needed and none can run out. `forEach` is a `for` over a list, with
`continue`, `break` and `return`.
-/

namespace Effects

/-- How the body of a `for` ends: with `continue`, with `break`, or with the
enclosing function's `return`. -/
inductive Flow (σ ω : Type) where
  | next (s : σ)
  | stop (s : σ)
  | done (w : ω)
  deriving DecidableEq, Repr

namespace Prog

variable {I : Iface} {ε σ τ ω : Type}

/-- A state that goes round again, with the proof that it is smaller. -/
abbrev Again (m : σ → Nat) (s : σ) : Type := {s' : σ // m s' < m s}

/-- `iterate` with its bound shown, by recursion on the bound. -/
def iterateBelow (m : σ → Nat) (body : (s : σ) → Prog I ε (Again m s ⊕ τ)) :
    (n : Nat) → (s : σ) → m s < n → Prog I ε τ
  | 0, _, h => absurd h (Nat.not_lt_zero _)
  | n + 1, s, h => body s >>= fun
    | .inl s' => iterateBelow m body n s'.1 (Nat.lt_of_lt_of_le s'.2 (Nat.le_of_lt_succ h))
    | .inr b => .ret b

/-- **A `while True` loop** whose body either goes round with a smaller state
or leaves. -/
def iterate (m : σ → Nat) (body : (s : σ) → Prog I ε (Again m s ⊕ τ)) (s : σ) : Prog I ε τ :=
  iterateBelow m body (m s + 1) s (Nat.lt_succ_self _)

/-- **A `for` loop** over a list. The body sees the element, and what of the
list remains behind it. -/
def forEach {β : Type} (body : β → List β → σ → Prog I ε (Flow σ ω)) :
    List β → σ → Prog I ε (Flow σ ω)
  | [], s => .ret (.next s)
  | b :: bs, s => body b bs s >>= fun
    | .next s' => forEach body bs s'
    | .stop s' => .ret (.stop s')
    | .done w => .ret (.done w)

end Prog

section

variable {I : Iface} {γ ε σ τ ω : Type} (W : World I γ)

/-- **The loop rule.** An invariant of the body, with the postcondition on
every way out, gives the loop. -/
theorem wp_iterate (m : σ → Nat) {body : (s : σ) → Prog I ε (Prog.Again m s ⊕ τ)}
    {Q : Except ε τ → γ → Prop} (J : σ → γ → Prop)
    (hbody : ∀ s g, J s g → wp W (body s) (fun r g' => match r with
      | .ok (.inl s') => J s'.1 g'
      | .ok (.inr b) => Q (.ok b) g'
      | .error e => Q (.error e) g') g)
    {s : σ} {g : γ} (h : J s g) : wp W (Prog.iterate m body s) Q g := by
  suffices hall : ∀ n s (hn : m s < n) g, J s g → wp W (Prog.iterateBelow m body n s hn) Q g from
    hall _ s _ g h
  intro n
  induction n with
  | zero => exact fun s hn => absurd hn (Nat.not_lt_zero _)
  | succ n ih =>
    intro s hn g hJ
    rw [Prog.iterateBelow, wp_bind]
    refine wp_mono W (hbody s g hJ) ?_
    rintro (e | s' | b) g' hg'
    · exact hg'
    · exact ih s'.1 _ g' hg'
    · exact hg'

/-- **The `for` rule.** An invariant of the remaining list, the state and the
world, kept by the body. -/
theorem wp_forEach {β : Type} {body : β → List β → σ → Prog I ε (Flow σ ω)}
    {Q : Except ε (Flow σ ω) → γ → Prop} (J : List β → σ → γ → Prop)
    (hnil : ∀ s g, J [] s g → Q (.ok (.next s)) g)
    (hbody : ∀ b bs s g, J (b :: bs) s g → wp W (body b bs s) (fun r g' => match r with
      | .ok (.next s') => J bs s' g'
      | .ok (.stop s') => Q (.ok (.stop s')) g'
      | .ok (.done w) => Q (.ok (.done w)) g'
      | .error e => Q (.error e) g') g)
    {bs : List β} {s : σ} {g : γ} (h : J bs s g) : wp W (Prog.forEach body bs s) Q g := by
  induction bs generalizing s g with
  | nil => exact hnil s g h
  | cons b bs ih =>
    rw [Prog.forEach, wp_bind]
    refine wp_mono W (hbody b bs s g h) ?_
    rintro (e | s' | s' | w) g' hg'
    · exact hg'
    · exact ih hg'
    · exact hg'
    · exact hg'

end

/-! ## A `while` as a partial step -/

section

variable {σ : Type*}

/-- `n` rounds of a loop, if it goes round so often. -/
def rounds (step : σ → Option σ) : Nat → σ → Option σ
  | 0, s => some s
  | n + 1, s => (step s).bind (rounds step n)

/-- Where a loop has ended, it went no round more. -/
theorem eq_of_rounds_of_none {step : σ → Option σ} {n : Nat} {s s' : σ}
    (h : rounds step n s = some s') (hs : step s = none) : s' = s := by
  cases n with
  | zero => exact (Option.some.inj h).symm
  | succ n =>
    rw [rounds, hs] at h
    cases h

/-- Where a loop goes round, it ends behind that round. -/
theorem exists_rounds_of_some {step : σ → Option σ} {n : Nat} {s next s' : σ}
    (h : rounds step n s = some s') (hend : step s' = none) (hs : step s = some next) :
    ∃ k, rounds step k next = some s' := by
  cases n with
  | zero =>
    obtain rfl := Option.some.inj h
    rw [hend] at hs
    cases hs
  | succ n =>
    rw [rounds, hs] at h
    exact ⟨n, h⟩

/-- What every round keeps holds behind all of them. -/
theorem rounds_inv {step : σ → Option σ} {J : σ → Prop}
    (hJ : ∀ s s', J s → step s = some s' → J s') {n : Nat} {s s' : σ} (hs : J s)
    (h : rounds step n s = some s') : J s' := by
  induction n generalizing s with
  | zero => exact Option.some.inj h ▸ hs
  | succ n ih =>
    obtain ⟨next, hnext, hrest⟩ := Option.bind_eq_some_iff.mp h
    exact ih (hJ s next hs hnext) hrest

/-- **A loop whose every round is smaller ends**, after no more rounds than its measure. -/
theorem exists_rounds_end {step : σ → Option σ} (m : σ → Nat)
    (h : ∀ s s', step s = some s' → m s' < m s) (s : σ) :
    ∃ n ≤ m s, ∃ s', rounds step n s = some s' ∧ step s' = none := by
  induction hm : m s using Nat.strongRecOn generalizing s with
  | ind bound ih =>
    cases hstep : step s with
    | none => exact ⟨0, Nat.zero_le _, s, rfl, hstep⟩
    | some s' =>
      have hlt := h s s' hstep
      obtain ⟨n, hn, last, hrounds, hend⟩ := ih (m s') (by omega) s' rfl
      refine ⟨n + 1, by omega, last, ?_, hend⟩
      rw [rounds, hstep, Option.bind_some, hrounds]

end

end Effects
