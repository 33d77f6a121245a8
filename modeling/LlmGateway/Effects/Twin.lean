import LlmGateway.Effects.Loop

/-!
# Two programs at once

A relational precondition: two programs run in the same world, each from its own
state, and what is related before is related after, whatever either is answered.
The rules follow the two programs side by side: a question on one side alone, a
question on both, sequence, handlers and loops.
-/

namespace Effects

variable {I : Iface} {σ ε ε' ε₁ ε₁' α α' β β' : Type}

/-- `p` can run in `W` from `s` to `t`, with outcome `r`. -/
def Leads (W : World I σ) (p : Prog I ε α) (s : σ) (r : Except ε α) (t : σ) : Prop :=
  ∃ tr, p.Runs tr r ∧ W.Accepts s tr t

section

variable {W : World I σ} {s t : σ}

theorem leads_ret {a : α} {r : Except ε α} :
    Leads W (.ret a) s r t ↔ r = .ok a ∧ t = s := by
  constructor
  · rintro ⟨tr, hr, ha⟩
    cases hr
    cases ha
    exact ⟨rfl, rfl⟩
  · rintro ⟨rfl, rfl⟩
    exact ⟨[], .ret a, .nil _⟩

theorem leads_raise {e : ε} {r : Except ε α} :
    Leads W (.raise e) s r t ↔ r = .error e ∧ t = s := by
  constructor
  · rintro ⟨tr, hr, ha⟩
    cases hr
    cases ha
    exact ⟨rfl, rfl⟩
  · rintro ⟨rfl, rfl⟩
    exact ⟨[], .raise e, .nil _⟩

theorem leads_ask {q : I.Ask} {k : I.Ans q → Prog I ε α} {r : Except ε α} :
    Leads W (.ask q k) s r t ↔ ∃ a u, W s q a u ∧ Leads W (k a) u r t := by
  constructor
  · rintro ⟨tr, hr, ha⟩
    cases hr with
    | ask a hr =>
      cases ha with
      | cons hw ha => exact ⟨a, _, hw, _, hr, ha⟩
  · rintro ⟨a, u, hw, tr, hr, ha⟩
    exact ⟨_, .ask a hr, .cons hw ha⟩

theorem leads_bind {p : Prog I ε α} {f : α → Prog I ε β} {r : Except ε β}
    (h : Leads W (p >>= f) s r t) :
    (∃ a u, Leads W p s (.ok a) u ∧ Leads W (f a) u r t) ∨
      ∃ e, Leads W p s (.error e) t ∧ r = .error e := by
  induction p generalizing s with
  | ret a => exact .inl ⟨a, s, leads_ret.mpr ⟨rfl, rfl⟩, h⟩
  | raise e =>
    obtain ⟨rfl, rfl⟩ := leads_raise.mp h
    exact .inr ⟨e, leads_raise.mpr ⟨rfl, rfl⟩, rfl⟩
  | ask q k ih =>
    obtain ⟨a, u, hw, hl⟩ := leads_ask.mp h
    rcases ih a hl with ⟨b, u', hp, hf⟩ | ⟨e, hp, rfl⟩
    · exact .inl ⟨b, u', leads_ask.mpr ⟨a, u, hw, hp⟩, hf⟩
    · exact .inr ⟨e, leads_ask.mpr ⟨a, u, hw, hp⟩, rfl⟩

theorem leads_attempt {p : Prog I ε α} {r : Except ε' (Except ε α)}
    (h : Leads W (p.attempt : Prog I ε' _) s r t) : ∃ r', Leads W p s r' t ∧ r = .ok r' := by
  induction p generalizing s with
  | ret a =>
    obtain ⟨rfl, rfl⟩ := leads_ret.mp h
    exact ⟨_, leads_ret.mpr ⟨rfl, rfl⟩, rfl⟩
  | raise e =>
    obtain ⟨rfl, rfl⟩ := leads_ret.mp h
    exact ⟨_, leads_raise.mpr ⟨rfl, rfl⟩, rfl⟩
  | ask q k ih =>
    obtain ⟨a, u, hw, hl⟩ := leads_ask.mp h
    obtain ⟨r', hp, rfl⟩ := ih a hl
    exact ⟨r', leads_ask.mpr ⟨a, u, hw, hp⟩, rfl⟩

theorem leads_mapError {p : Prog I ε α} {f : ε → ε'} {r : Except ε' α}
    (h : Leads W (p.mapError f) s r t) :
    (∃ a, Leads W p s (.ok a) t ∧ r = .ok a) ∨ ∃ e, Leads W p s (.error e) t ∧ r = .error (f e) := by
  induction p generalizing s with
  | ret a =>
    obtain ⟨rfl, rfl⟩ := leads_ret.mp h
    exact .inl ⟨a, leads_ret.mpr ⟨rfl, rfl⟩, rfl⟩
  | raise e =>
    obtain ⟨rfl, rfl⟩ := leads_raise.mp h
    exact .inr ⟨e, leads_raise.mpr ⟨rfl, rfl⟩, rfl⟩
  | ask q k ih =>
    obtain ⟨a, u, hw, hl⟩ := leads_ask.mp h
    rcases ih a hl with ⟨b, hp, rfl⟩ | ⟨e, hp, rfl⟩
    · exact .inl ⟨b, leads_ask.mpr ⟨a, u, hw, hp⟩, rfl⟩
    · exact .inr ⟨e, leads_ask.mpr ⟨a, u, hw, hp⟩, rfl⟩

end

/-- Two outcomes that are both values, or both errors, and related. -/
def Paired (M : α → α' → Prop) (E : ε → ε' → Prop) : Except ε α → Except ε' α' → Prop
  | .ok a, .ok a' => M a a'
  | .error e, .error e' => E e e'
  | _, _ => False

/-- **Twins.** From related states, whatever the two programs are answered, they
come out alike and leave related states: by `M` where they return, by `E` where
they raise. -/
def Twins (W : World I σ) (P : σ → σ → Prop) (p : Prog I ε α) (p' : Prog I ε' α')
    (M : α → α' → σ → σ → Prop) (E : ε → ε' → σ → σ → Prop) : Prop :=
  ∀ s s', P s s' → ∀ r t r' t', Leads W p s r t → Leads W p' s' r' t' →
    Paired (M · · t t') (E · · t t') r r'

/-- Both loops go round again, related by `J`, or both are left, related by `N`. -/
def Turned {σ₁ σ₁' τ τ' : Type} {m : σ₁ → Nat} {m' : σ₁' → Nat} {v : σ₁} {v' : σ₁'}
    (J : σ₁ → σ₁' → σ → σ → Prop) (N : τ → τ' → σ → σ → Prop) :
    Prog.Again m v ⊕ τ → Prog.Again m' v' ⊕ τ' → σ → σ → Prop
  | .inl w, .inl w' => J w.1 w'.1
  | .inr b, .inr b' => N b b'
  | _, _ => fun _ _ => False

/-- Both bodies end alike: with `continue` or `break`, related by `J`, or with
`return`, related by `N`. -/
def Flowed {σ₁ σ₁' ω ω' : Type} (J : σ₁ → σ₁' → σ → σ → Prop) (N : ω → ω' → σ → σ → Prop) :
    Flow σ₁ ω → Flow σ₁' ω' → σ → σ → Prop
  | .next v, .next v' => J v v'
  | .stop v, .stop v' => J v v'
  | .done w, .done w' => N w w'
  | _, _ => fun _ _ => False

namespace Twins

variable {W : World I σ} {P P' : σ → σ → Prop} {p : Prog I ε α} {p' : Prog I ε' α'}
  {M M' : α → α' → σ → σ → Prop} {E E' : ε → ε' → σ → σ → Prop}

theorem ret {a : α} {a' : α'} (h : ∀ s s', P s s' → M a a' s s') :
    Twins W P (.ret a) (.ret a') M E := by
  intro s s' hP r t r' t' hl hl'
  obtain ⟨rfl, rfl⟩ := leads_ret.mp hl
  obtain ⟨rfl, rfl⟩ := leads_ret.mp hl'
  exact h _ _ hP

theorem raise {e : ε} {e' : ε'} (h : ∀ s s', P s s' → E e e' s s') :
    Twins W P (.raise e : Prog I ε α) (.raise e' : Prog I ε' α') M E := by
  intro s s' hP r t r' t' hl hl'
  obtain ⟨rfl, rfl⟩ := leads_raise.mp hl
  obtain ⟨rfl, rfl⟩ := leads_raise.mp hl'
  exact h _ _ hP

/-- The rule of consequence. -/
theorem mono (h : Twins W P p p' M E) (hP : ∀ s s', P' s s' → P s s')
    (hM : ∀ a a' t t', M a a' t t' → M' a a' t t') (hE : ∀ e e' t t', E e e' t t' → E' e e' t t') :
    Twins W P' p p' M' E' := by
  intro s s' hs r t r' t' hl hl'
  have hpair := h s s' (hP s s' hs) r t r' t' hl hl'
  rcases r with e | a <;> rcases r' with e' | a'
  · exact hE _ _ _ _ hpair
  · exact hpair.elim
  · exact hpair.elim
  · exact hM _ _ _ _ hpair

/-- The rule of sequence. -/
theorem bind {f : α → Prog I ε β} {f' : α' → Prog I ε' β'} {N : β → β' → σ → σ → Prop}
    (h : Twins W P p p' M E) (hf : ∀ a a', Twins W (M a a') (f a) (f' a') N E) :
    Twins W P (p >>= f) (p' >>= f') N E := by
  intro s s' hs r t r' t' hl hl'
  rcases leads_bind hl with ⟨a, u, hp, hk⟩ | ⟨e, hp, rfl⟩ <;>
    rcases leads_bind hl' with ⟨a', u', hp', hk'⟩ | ⟨e', hp', rfl⟩
  · exact hf a a' _ _ (h s s' hs _ _ _ _ hp hp') _ _ _ _ hk hk'
  · exact (h s s' hs _ _ _ _ hp hp').elim
  · exact (h s s' hs _ _ _ _ hp hp').elim
  · exact h s s' hs _ _ _ _ hp hp'

/-- A question on the left alone, whose answer leaves the states related. -/
theorem left {q : I.Ask} {k : I.Ans q → Prog I ε α} (hq : ∀ s s' a t, P s s' → W s q a t → P t s')
    (hk : ∀ a, Twins W P (k a) p' M E) : Twins W P (.ask q k) p' M E := by
  intro s s' hs r t r' t' hl hl'
  obtain ⟨a, u, hw, hl⟩ := leads_ask.mp hl
  exact hk a u s' (hq s s' a u hs hw) r t r' t' hl hl'

/-- A question on the right alone; `A` is what its answer is known to be. -/
theorem right {q : I.Ask} {k : I.Ans q → Prog I ε' α'} (A : I.Ans q → Prop)
    (hq : ∀ s s' a t', P s s' → W s' q a t' → P' s t' ∧ A a)
    (hk : ∀ a, A a → Twins W P' p (k a) M E) : Twins W P p (.ask q k) M E := by
  intro s s' hs r t r' t' hl hl'
  obtain ⟨a, u, hw, hl'⟩ := leads_ask.mp hl'
  obtain ⟨hP, hA⟩ := hq s s' a u hs hw
  exact hk a hA s u hP r t r' t' hl hl'

/-- A question on both sides, with related answers. -/
theorem ask {q q' : I.Ask} {k : I.Ans q → Prog I ε α} {k' : I.Ans q' → Prog I ε' α'}
    (A : I.Ans q → I.Ans q' → Prop)
    (hq : ∀ s s' a a' t t', P s s' → W s q a t → W s' q' a' t' → P t t' ∧ A a a')
    (hk : ∀ a a', A a a' → Twins W P (k a) (k' a') M E) :
    Twins W P (.ask q k) (.ask q' k') M E := by
  intro s s' hs r t r' t' hl hl'
  obtain ⟨a, u, hw, hl⟩ := leads_ask.mp hl
  obtain ⟨a', u', hw', hl'⟩ := leads_ask.mp hl'
  obtain ⟨hP, hA⟩ := hq s s' a a' u u' hs hw hw'
  exact hk a a' hA u u' hP r t r' t' hl hl'

/-- A program beside itself, where what it asks is answered alike. -/
theorem same {A : I.Ask → Prop} (hA : ∀ q, A q → ∀ s s' a a' t t', P s s' → W s q a t →
      W s' q a' t' → P t t' ∧ a = a') {p : Prog I ε α} (hp : p.Asks A) :
    Twins W P p p (fun a a' t t' => a = a' ∧ P t t') (fun e e' t t' => e = e' ∧ P t t') := by
  induction p with
  | ret a => exact .ret fun _ _ h => ⟨rfl, h⟩
  | raise e => exact .raise fun _ _ h => ⟨rfl, h⟩
  | ask q k ih =>
    refine .ask Eq (fun s s' a a' t t' => hA q hp.1 s s' a a' t t') ?_
    rintro a _ rfl
    exact ih a (hp.2 a)

/-- Two handlers of two `try` blocks. -/
theorem attempt {f : Except ε α → Prog I ε₁ β} {f' : Except ε' α' → Prog I ε₁' β'}
    {N : β → β' → σ → σ → Prop} {F : ε₁ → ε₁' → σ → σ → Prop} (h : Twins W P p p' M E)
    (hok : ∀ a a', Twins W (M a a') (f (.ok a)) (f' (.ok a')) N F)
    (herr : ∀ e e', Twins W (E e e') (f (.error e)) (f' (.error e')) N F) :
    Twins W P (p.attempt >>= f) (p'.attempt >>= f') N F := by
  intro s s' hs r t r' t' hl hl'
  rcases leads_bind hl with ⟨r₁, u, hp, hk⟩ | ⟨e, hp, rfl⟩
  · rcases leads_bind hl' with ⟨r₁', u', hp', hk'⟩ | ⟨e', hp', rfl⟩
    · obtain ⟨r₂, hp, he⟩ := leads_attempt hp
      obtain ⟨r₂', hp', he'⟩ := leads_attempt hp'
      cases he
      cases he'
      have hpair := h s s' hs _ _ _ _ hp hp'
      rcases r₁ with e | a <;> rcases r₁' with e' | a'
      · exact herr e e' _ _ hpair _ _ _ _ hk hk'
      · exact hpair.elim
      · exact hpair.elim
      · exact hok a a' _ _ hpair _ _ _ _ hk hk'
    · obtain ⟨_, _, he⟩ := leads_attempt hp'
      cases he
  · obtain ⟨_, _, he⟩ := leads_attempt hp
    cases he

theorem mapError {f : ε → ε₁} {f' : ε' → ε₁'} {F : ε₁ → ε₁' → σ → σ → Prop}
    (h : Twins W P p p' M fun e e' => F (f e) (f' e')) :
    Twins W P (p.mapError f) (p'.mapError f') M F := by
  intro s s' hs r t r' t' hl hl'
  rcases leads_mapError hl with ⟨a, hp, rfl⟩ | ⟨e, hp, rfl⟩ <;>
    rcases leads_mapError hl' with ⟨a', hp', rfl⟩ | ⟨e', hp', rfl⟩
  · exact h s s' hs _ _ _ _ hp hp'
  · exact (h s s' hs _ _ _ _ hp hp').elim
  · exact (h s s' hs _ _ _ _ hp hp').elim
  · exact h s s' hs _ _ _ _ hp hp'

/-- The left has ended with `r`: what the right does on its own. -/
theorem ended {r : Except ε α} (h : ∀ s s', P s s' →
      wp W p' (fun r' t' => Paired (M · · s t') (E · · s t') r r') s') :
    Twins W P (.ofExcept r) p' M E := by
  intro s s' hs r₁ t r' t' hl ⟨tr, hr, ha⟩
  have hright := wp_sound W (h s s' hs) hr ha
  cases r with
  | error e =>
    obtain ⟨rfl, rfl⟩ := leads_raise.mp hl
    exact hright
  | ok a =>
    obtain ⟨rfl, rfl⟩ := leads_ret.mp hl
    exact hright

/-- **The loop rule.** An invariant of the two loop states, kept by the two
bodies. -/
theorem iterate {σ₁ σ₁' τ τ' : Type} {m : σ₁ → Nat} {m' : σ₁' → Nat}
    {body : (v : σ₁) → Prog I ε (Prog.Again m v ⊕ τ)}
    {body' : (v : σ₁') → Prog I ε' (Prog.Again m' v ⊕ τ')} (J : σ₁ → σ₁' → σ → σ → Prop)
    {N : τ → τ' → σ → σ → Prop}
    (hbody : ∀ v v', Twins W (J v v') (body v) (body' v') (Turned J N) E) (v : σ₁) (v' : σ₁') :
    Twins W (J v v') (Prog.iterate m body v) (Prog.iterate m' body' v') N E := by
  suffices hall : ∀ n n' v v' (hn : m v < n) (hn' : m' v' < n'),
      Twins W (J v v') (Prog.iterateBelow m body n v hn) (Prog.iterateBelow m' body' n' v' hn') N E
    from hall _ _ v v' _ _
  intro n
  induction n with
  | zero => exact fun _ _ _ hn => absurd hn (Nat.not_lt_zero _)
  | succ n ih =>
    intro n' v v' hn hn'
    cases n' with
    | zero => exact absurd hn' (Nat.not_lt_zero _)
    | succ n' =>
      refine .bind (hbody v v') fun x x' => ?_
      rcases x with w | b <;> rcases x' with w' | b'
      · exact ih n' w.1 w'.1 _ _
      · exact fun _ _ h => h.elim
      · exact fun _ _ h => h.elim
      · exact .ret fun _ _ h => h

/-- **The `for` rule**, over the same list. -/
theorem forEach {σ₁ σ₁' ω ω' γ : Type} {body : γ → List γ → σ₁ → Prog I ε (Flow σ₁ ω)}
    {body' : γ → List γ → σ₁' → Prog I ε' (Flow σ₁' ω')} (J : σ₁ → σ₁' → σ → σ → Prop)
    {N : ω → ω' → σ → σ → Prop}
    (hbody : ∀ b bs v v', Twins W (J v v') (body b bs v) (body' b bs v') (Flowed J N) E)
    (bs : List γ) (v : σ₁) (v' : σ₁') :
    Twins W (J v v') (Prog.forEach body bs v) (Prog.forEach body' bs v') (Flowed J N) E := by
  induction bs generalizing v v' with
  | nil => exact .ret fun _ _ h => h
  | cons b bs ih =>
    refine .bind (hbody b bs v v') fun x x' => ?_
    rcases x with v | v | w <;> rcases x' with v' | v' | w'
    · exact ih v v'
    · exact fun _ _ h => h.elim
    · exact fun _ _ h => h.elim
    · exact fun _ _ h => h.elim
    · exact .ret fun _ _ h => h
    · exact fun _ _ h => h.elim
    · exact fun _ _ h => h.elim
    · exact fun _ _ h => h.elim
    · exact .ret fun _ _ h => h

end Twins

end Effects
