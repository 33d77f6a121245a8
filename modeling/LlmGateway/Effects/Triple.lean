import LlmGateway.Effects.Loop
import Mathlib.Data.List.Induction

/-!
# Triples over worlds

What a program makes of the states it may start in, block by block: the rules
of `wp` with the states named on both sides. A judged world is one of a
watcher that also says of each event whether it is in order, given what was
seen before; there a triple promises that every event on the way was.
-/

namespace Effects

variable {I : Iface} {σ ε ε' α β : Type}

/-- **The triple.** In `W`, every run of `p` from a state of `J` ends as `K` says. -/
def Triple (W : World I σ) (J : σ → Prop) (p : Prog I ε α) (K : Except ε α → σ → Prop) : Prop :=
  ∀ s, J s → wp W p K s

namespace Triple

variable {W : World I σ} {J : σ → Prop}

theorem ret {a : α} {K : Except ε α → σ → Prop} (h : ∀ s, J s → K (.ok a) s) :
    Triple W J (.ret a) K := h

theorem raise {e : ε} {K : Except ε α → σ → Prop} (h : ∀ s, J s → K (.error e) s) :
    Triple W J (.raise e) K := h

/-- A question whose answer is handed on as an outcome. -/
theorem ask {q : I.Ask} {f : I.Ans q → Except ε α} {K : Except ε α → σ → Prop}
    (h : ∀ s a s', J s → W s q a s' → K (f a) s') :
    Triple W J (.ask q fun a => .ofExcept (f a)) K :=
  fun s hs => (wp_await W (fun _ => rfl) K s).mpr fun a s' hw => h s a s' hs hw

theorem mono {p : Prog I ε α} {J' : σ → Prop} {K K' : Except ε α → σ → Prop}
    (h : Triple W J p K) (hJ : ∀ s, J' s → J s) (hK : ∀ r s, K r s → K' r s) :
    Triple W J' p K' :=
  fun s hs => wp_mono W (h s (hJ s hs)) hK

/-- From each state alone. -/
theorem pointwise {p : Prog I ε α} {K : Except ε α → σ → Prop}
    (h : ∀ s, J s → Triple W (· = s) p K) : Triple W J p K :=
  fun s hs => h s hs s rfl

theorem bind {p : Prog I ε α} {f : α → Prog I ε β} {K : Except ε α → σ → Prop}
    {K' : Except ε β → σ → Prop} (hp : Triple W J p K)
    (hf : ∀ a, Triple W (K (.ok a)) (f a) K') (he : ∀ e s, K (.error e) s → K' (.error e) s) :
    Triple W J (p >>= f) K' := by
  intro s hs
  refine (wp_bind ..).mpr (wp_mono W (hp s hs) ?_)
  rintro (e | a) s' hK
  · exact he e s' hK
  · exact hf a s' hK

theorem mapError {p : Prog I ε α} {f : ε → ε'} {K : Except ε' α → σ → Prop}
    (h : Triple W J p fun r s => K (match r with
      | .ok a => .ok a
      | .error e => .error (f e)) s) : Triple W J (p.mapError f) K := by
  intro s hs
  refine (wp_mapError ..).mpr (wp_mono W (h s hs) ?_)
  rintro (e | a) s' hK
  · exact hK
  · exact hK

/-- A `try` block, and what comes of how it ended. -/
theorem attempt {p : Prog I ε α} {f : Except ε α → Prog I ε' β} {K : Except ε α → σ → Prop}
    {K' : Except ε' β → σ → Prop} (hp : Triple W J p K) (hf : ∀ r, Triple W (K r) (f r) K') :
    Triple W J (p.attempt >>= f) K' :=
  fun s hs => (wp_bind ..).mpr ((wp_attempt ..).mpr
    (wp_mono W (hp s hs) fun r s' hK => hf r s' hK))

/-- **The loop rule.** What a pass hands round again is what the next pass starts from. -/
theorem iterate {τ ω : Type} (m : τ → Nat) {body : (t : τ) → Prog I ε (Prog.Again m t ⊕ ω)}
    {K : Except ε ω → σ → Prop} (L : τ → σ → Prop)
    (hbody : ∀ t, Triple W (L t) (body t) fun r s => match r with
      | .ok (.inl t') => L t'.1 s
      | .ok (.inr b) => K (.ok b) s
      | .error e => K (.error e) s) {t : τ} :
    Triple W (L t) (Prog.iterate m body t) K :=
  fun _ hs => wp_iterate W m L (fun t s h => hbody t s h) hs

/-- **The `for` rule.** -/
theorem forEach {γ τ ω : Type} {body : γ → List γ → τ → Prog I ε (Flow τ ω)}
    {K : Except ε (Flow τ ω) → σ → Prop} (L : τ → σ → Prop)
    (hnil : ∀ t s, L t s → K (.ok (.next t)) s)
    (hbody : ∀ c cs t, Triple W (L t) (body c cs t) fun r s => match r with
      | .ok (.next t') => L t' s
      | .ok (.stop t') => K (.ok (.stop t')) s
      | .ok (.done w) => K (.ok (.done w)) s
      | .error e => K (.error e) s) {cs : List γ} {t : τ} :
    Triple W (L t) (Prog.forEach body cs t) K :=
  fun _ hs => wp_forEach W (fun _ => L) hnil (fun c cs t s h => hbody c cs t s h) hs

end Triple

/-! ## Judging a run as it goes -/

/-- **Up to the standard**: every event of the trace, given what was seen before it. -/
def Heeds (note : σ → Event I → σ) (ok : σ → Event I → Prop) (s : σ) (tr : List (Event I)) : Prop :=
  ∀ before e behind, tr = before ++ e :: behind → ok (before.foldl note s) e

/-- What every event of a trace that is up to the standard keeps holds all along it. -/
theorem Heeds.prefix {note : σ → Event I → σ} {ok : σ → Event I → Prop} {J : σ → Prop} {s : σ}
    {tr : List (Event I)} (h : Heeds note ok s tr) (hs : J s)
    (hstep : ∀ s, ∀ e ∈ tr, ok s e → J s → J (note s e)) {before behind : List (Event I)}
    (heq : tr = before ++ behind) : J (before.foldl note s) := by
  induction before using List.reverseRecOn generalizing behind with
  | nil => exact hs
  | append_singleton before e ih =>
    rw [List.append_assoc, List.singleton_append] at heq
    rw [List.foldl_append]
    refine hstep _ e ?_ (h before e behind heq) (ih heq)
    rw [heq]
    exact List.mem_append_right _ List.mem_cons_self

/-- The watcher with its judgement of the events so far. -/
def judge (note : σ → Event I → σ) (ok : σ → Event I → Prop) (b : σ × Prop) (e : Event I) :
    σ × Prop :=
  (note b.1 e, b.2 ∧ ok b.1 e)

theorem foldl_judge (note : σ → Event I → σ) (ok : σ → Event I → Prop) (b : σ × Prop)
    (tr : List (Event I)) : (tr.foldl (judge note ok) b).1 = tr.foldl note b.1 ∧
      ((tr.foldl (judge note ok) b).2 → b.2 ∧ Heeds note ok b.1 tr) := by
  induction tr generalizing b with
  | nil =>
    refine ⟨rfl, fun h => ⟨h, fun before e behind heq => ?_⟩⟩
    cases before <;> cases heq
  | cons e tr ih =>
    obtain ⟨hseen, hjudged⟩ := ih (judge note ok b e)
    refine ⟨hseen, fun h => ?_⟩
    obtain ⟨⟨hb, he⟩, hrest⟩ := hjudged h
    refine ⟨hb, fun before e' behind heq => ?_⟩
    cases before with
    | nil =>
      obtain ⟨rfl, -⟩ := List.cons.inj heq
      exact he
    | cons c before =>
      obtain ⟨rfl, htail⟩ := List.cons.inj heq
      exact hrest before e' behind htail

/-- **The judged triple.** From what `J` allows to have been seen, every run of `p` keeps to the
standard and ends as `K` says. -/
def Upholds (note : σ → Event I → σ) (ok : σ → Event I → Prop) (J : σ → Prop) (p : Prog I ε α)
    (K : Except ε α → σ → Prop) : Prop :=
  Triple (watch (judge note ok)) (fun b => b.2 ∧ J b.1) p fun r b => b.2 ∧ K r b.1

namespace Upholds

variable {note : σ → Event I → σ} {ok : σ → Event I → Prop} {J : σ → Prop}

/-- What a judged triple says of the runs. -/
theorem runs {p : Prog I ε α} {K : Except ε α → σ → Prop} (h : Upholds note ok J p K) {s : σ}
    (hs : J s) {tr : List (Event I)} {r : Except ε α} (hr : p.Runs tr r) :
    Heeds note ok s tr ∧ K r (tr.foldl note s) := by
  have hend := wp_watch_sound (h (s, True) ⟨trivial, hs⟩) hr
  obtain ⟨hseen, hjudged⟩ := foldl_judge note ok (s, True) tr
  refine ⟨(hjudged hend.1).2, ?_⟩
  rw [hseen] at hend
  exact hend.2

theorem ret {a : α} {K : Except ε α → σ → Prop} (h : ∀ s, J s → K (.ok a) s) :
    Upholds note ok J (.ret a) K :=
  Triple.ret fun _ hb => ⟨hb.1, h _ hb.2⟩

theorem raise {e : ε} {K : Except ε α → σ → Prop} (h : ∀ s, J s → K (.error e) s) :
    Upholds note ok J (.raise e) K :=
  Triple.raise fun _ hb => ⟨hb.1, h _ hb.2⟩

theorem ask {q : I.Ask} {f : I.Ans q → Except ε α} {K : Except ε α → σ → Prop}
    (h : ∀ s a, J s → ok s ⟨q, a⟩ ∧ K (f a) (note s ⟨q, a⟩)) :
    Upholds note ok J (.ask q fun a => .ofExcept (f a)) K := by
  refine Triple.ask fun b a b' hb hw => ?_
  obtain rfl : b' = judge note ok b ⟨q, a⟩ := hw
  obtain ⟨hok, hK⟩ := h b.1 a hb.2
  exact ⟨⟨hb.1, hok⟩, hK⟩

theorem mono {p : Prog I ε α} {J' : σ → Prop} {K K' : Except ε α → σ → Prop}
    (h : Upholds note ok J p K) (hJ : ∀ s, J' s → J s) (hK : ∀ r s, K r s → K' r s) :
    Upholds note ok J' p K' :=
  Triple.mono h (fun _ hb => ⟨hb.1, hJ _ hb.2⟩) fun r _ hb => ⟨hb.1, hK r _ hb.2⟩

theorem pointwise {p : Prog I ε α} {K : Except ε α → σ → Prop}
    (h : ∀ s, J s → Upholds note ok (· = s) p K) : Upholds note ok J p K :=
  fun b hb => h b.1 hb.2 b ⟨hb.1, rfl⟩

theorem bind {p : Prog I ε α} {f : α → Prog I ε β} {K : Except ε α → σ → Prop}
    {K' : Except ε β → σ → Prop} (hp : Upholds note ok J p K)
    (hf : ∀ a, Upholds note ok (K (.ok a)) (f a) K')
    (he : ∀ e s, K (.error e) s → K' (.error e) s) : Upholds note ok J (p >>= f) K' :=
  Triple.bind hp hf fun e _ hb => ⟨hb.1, he e _ hb.2⟩

theorem mapError {p : Prog I ε α} {f : ε → ε'} {K : Except ε' α → σ → Prop}
    (h : Upholds note ok J p fun r s => K (match r with
      | .ok a => .ok a
      | .error e => .error (f e)) s) : Upholds note ok J (p.mapError f) K :=
  Triple.mapError (K := fun r (b : σ × Prop) => b.2 ∧ K r b.1) h

theorem attempt {p : Prog I ε α} {f : Except ε α → Prog I ε' β} {K : Except ε α → σ → Prop}
    {K' : Except ε' β → σ → Prop} (hp : Upholds note ok J p K)
    (hf : ∀ r, Upholds note ok (K r) (f r) K') : Upholds note ok J (p.attempt >>= f) K' :=
  Triple.attempt hp hf

/-- A program none of whose questions is noted, or judged. -/
theorem of_asks {A : I.Ask → Prop} {p : Prog I ε α} (hp : p.Asks A)
    (hnote : ∀ s q (a : I.Ans q), A q → note s ⟨q, a⟩ = s)
    (hok : ∀ s q (a : I.Ans q), A q → ok s ⟨q, a⟩) : Upholds note ok J p fun _ => J := by
  induction p with
  | ret a => exact ret fun _ hs => hs
  | raise e => exact raise fun _ hs => hs
  | ask q k ih =>
    rintro b ⟨hb, hs⟩ a b' hw
    obtain rfl : b' = judge note ok b ⟨q, a⟩ := hw
    refine ih a (hp.2 a) _ ⟨⟨hb, hok b.1 q a hp.1⟩, ?_⟩
    rw [judge, hnote b.1 q a hp.1]
    exact hs

theorem iterate {τ ω : Type} (m : τ → Nat) {body : (t : τ) → Prog I ε (Prog.Again m t ⊕ ω)}
    {K : Except ε ω → σ → Prop} (L : τ → σ → Prop)
    (hbody : ∀ t, Upholds note ok (L t) (body t) fun r s => match r with
      | .ok (.inl t') => L t'.1 s
      | .ok (.inr b) => K (.ok b) s
      | .error e => K (.error e) s) {t : τ} :
    Upholds note ok (L t) (Prog.iterate m body t) K := by
  refine Triple.iterate m (fun t (b : σ × Prop) => b.2 ∧ L t b.1) fun t => ?_
  refine Triple.mono (hbody t) (fun _ hb => hb) ?_
  rintro (e | t' | w) b hb
  · exact hb
  · exact hb
  · exact hb

theorem forEach {γ τ ω : Type} {body : γ → List γ → τ → Prog I ε (Flow τ ω)}
    {K : Except ε (Flow τ ω) → σ → Prop} (L : τ → σ → Prop)
    (hnil : ∀ t s, L t s → K (.ok (.next t)) s)
    (hbody : ∀ c cs t, Upholds note ok (L t) (body c cs t) fun r s => match r with
      | .ok (.next t') => L t' s
      | .ok (.stop t') => K (.ok (.stop t')) s
      | .ok (.done w) => K (.ok (.done w)) s
      | .error e => K (.error e) s) {cs : List γ} {t : τ} :
    Upholds note ok (L t) (Prog.forEach body cs t) K := by
  refine Triple.forEach (fun t (b : σ × Prop) => b.2 ∧ L t b.1) (fun t b hb => ⟨hb.1, hnil t b.1 hb.2⟩)
    fun c cs t => ?_
  refine Triple.mono (hbody c cs t) (fun _ hb => hb) ?_
  rintro (e | t' | t' | w) b hb
  · exact hb
  · exact hb
  · exact hb
  · exact hb

end Upholds

end Effects
