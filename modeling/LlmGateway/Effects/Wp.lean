import LlmGateway.Effects.Prog

/-!
# Weakest preconditions over worlds

A world says which answers an environment in a given state may give, and what
becomes of the state. It doubles as an observer: a world that admits every
answer and folds the events into a state of its own is a monitor, and what it
holds at the end of a trace is a fact about the trace. `wp` folds a world along
a program; the rules below follow the constructors of the program, and
`wp_sound` is the one bridge back to traces.
-/

namespace Effects

/-- Which answers an environment may give in a state, and the state after. -/
def World (I : Iface) (σ : Type) : Type := σ → (q : I.Ask) → I.Ans q → σ → Prop

/-- The world that admits every answer and notes each event. -/
def watch {I : Iface} {σ : Type} (note : σ → Event I → σ) : World I σ :=
  fun s q a s' => s' = note s ⟨q, a⟩

/-- `W` answers the trace from the first state and is then in the second. -/
inductive World.Accepts {I : Iface} {σ : Type} (W : World I σ) :
    σ → List (Event I) → σ → Prop
  | nil (s : σ) : Accepts W s [] s
  | cons {s s' s'' : σ} {q : I.Ask} {a : I.Ans q} {tr : List (Event I)}
      (h : W s q a s') (ht : Accepts W s' tr s'') : Accepts W s (⟨q, a⟩ :: tr) s''

theorem accepts_watch {I : Iface} {σ : Type} (note : σ → Event I → σ) (s : σ)
    (tr : List (Event I)) : (watch note).Accepts s tr (tr.foldl note s) := by
  induction tr generalizing s with
  | nil => exact .nil s
  | cons e tr ih => exact .cons rfl (ih _)

/-- A world answers what an environment within it answers. -/
theorem accepts_play {I : Iface} {σ ε α : Type} {W : World I σ}
    {E : σ → (q : I.Ask) → I.Ans q × σ} (h : ∀ s q, W s q (E s q).1 (E s q).2) (s : σ)
    (p : Prog I ε α) : W.Accepts s (p.play E s).1 (p.finish E s) := by
  induction p generalizing s with
  | ret a => exact .nil s
  | raise e => exact .nil s
  | ask q k ih => exact .cons (h s q) (ih _ _)

/-- A world that admits more accepts more. -/
theorem World.Accepts.mono {I : Iface} {σ : Type} {W W' : World I σ} {s s' : σ}
    {tr : List (Event I)} (h : W.Accepts s tr s')
    (hW : ∀ s q a s', W s q a s' → W' s q a s') : W'.Accepts s tr s' := by
  induction h with
  | nil s => exact .nil s
  | cons hw _ ih => exact .cons (hW _ _ _ _ hw) ih

/-- Where nothing that has gone wrong is put right again, a trace that ends well
is a trace of the world confined to what is well. -/
theorem World.Accepts.confine {I : Iface} {σ : Type} {W : World I σ} {s s' : σ}
    {tr : List (Event I)} (h : W.Accepts s tr s') (well : σ → Prop)
    (hback : ∀ s q a s', W s q a s' → well s' → well s) (hs : well s') :
    World.Accepts (fun s q a s' => W s q a s' ∧ well s') s tr s' ∧ well s := by
  induction h with
  | nil s => exact ⟨.nil s, hs⟩
  | cons hw _ ih =>
    obtain ⟨ht, hwell⟩ := ih hs
    exact ⟨.cons ⟨hw, hwell⟩ ht, hback _ _ _ _ hw hwell⟩

section

variable {I : Iface} {σ ε ε' α β : Type} (W : World I σ)

/-- **The weakest precondition.** `Q` holds of the outcome and the final state
of every run of the program in `W`. -/
def wp : Prog I ε α → (Except ε α → σ → Prop) → σ → Prop
  | .ret a, Q, s => Q (.ok a) s
  | .raise e, Q, s => Q (.error e) s
  | .ask q k, Q, s => ∀ a s', W s q a s' → wp (k a) Q s'

@[simp] theorem wp_ret (a : α) (Q : Except ε α → σ → Prop) (s : σ) :
    wp W (.ret a) Q s ↔ Q (.ok a) s := Iff.rfl

@[simp] theorem wp_raise (e : ε) (Q : Except ε α → σ → Prop) (s : σ) :
    wp W (.raise e) Q s ↔ Q (.error e) s := Iff.rfl

theorem wp_ask (q : I.Ask) (k : I.Ans q → Prog I ε α) (Q : Except ε α → σ → Prop) (s : σ) :
    wp W (.ask q k) Q s ↔ ∀ a s', W s q a s' → wp W (k a) Q s' := Iff.rfl

@[simp] theorem wp_watch_ask (note : σ → Event I → σ) (q : I.Ask) (k : I.Ans q → Prog I ε α)
    (Q : Except ε α → σ → Prop) (s : σ) :
    wp (watch note) (.ask q k) Q s ↔ ∀ a, wp (watch note) (k a) Q (note s ⟨q, a⟩) := by
  simp [wp_ask, watch]

/-- **Soundness.** What the weakest precondition promises holds of every run. -/
theorem wp_sound {p : Prog I ε α} {Q : Except ε α → σ → Prop} {s s' : σ}
    {tr : List (Event I)} {r : Except ε α} (h : wp W p Q s) (hr : p.Runs tr r)
    (ha : W.Accepts s tr s') : Q r s' := by
  induction hr generalizing s with
  | ret a => cases ha; exact h
  | raise e => cases ha; exact h
  | ask a _ ih =>
    cases ha with
    | cons hW ht => exact ih (h a _ hW) ht

/-- Soundness for a monitor, stated on the fold. -/
theorem wp_watch_sound {note : σ → Event I → σ} {p : Prog I ε α}
    {Q : Except ε α → σ → Prop} {s : σ} {tr : List (Event I)} {r : Except ε α}
    (h : wp (watch note) p Q s) (hr : p.Runs tr r) : Q r (tr.foldl note s) :=
  wp_sound _ h hr (accepts_watch note s tr)

/-! ## Structural rules -/

/-- A weaker postcondition is easier. -/
theorem wp_mono {p : Prog I ε α} {Q Q' : Except ε α → σ → Prop} {s : σ}
    (h : wp W p Q s) (hQ : ∀ r s', Q r s' → Q' r s') : wp W p Q' s := by
  induction p generalizing s with
  | ret a => exact hQ _ _ h
  | raise e => exact hQ _ _ h
  | ask q k ih => exact fun a s' ha => ih a (h a s' ha)

/-- What no answer breaks holds to the end of any program. -/
theorem wp_inv {J : σ → Prop} (hJ : ∀ s q a s', W s q a s' → J s → J s') (p : Prog I ε α) {s : σ}
    (hs : J s) : wp W p (fun _ s' => J s') s := by
  induction p generalizing s with
  | ret a => exact hs
  | raise e => exact hs
  | ask q k ih => exact fun a s' ha => ih a (hJ s q a s' ha hs)

/-- Two postconditions at once. -/
theorem wp_and {p : Prog I ε α} {Q Q' : Except ε α → σ → Prop} {s : σ} (h : wp W p Q s)
    (h' : wp W p Q' s) : wp W p (fun r s' => Q r s' ∧ Q' r s') s := by
  induction p generalizing s with
  | ret a => exact ⟨h, h'⟩
  | raise e => exact ⟨h, h'⟩
  | ask q k ih => exact fun a s' ha => ih a (h a s' ha) (h' a s' ha)

@[simp] theorem wp_bind (p : Prog I ε α) (f : α → Prog I ε β)
    (Q : Except ε β → σ → Prop) (s : σ) :
    wp W (p >>= f) Q s ↔
      wp W p (fun r s' => match r with
        | .ok a => wp W (f a) Q s'
        | .error e => Q (.error e) s') s := by
  induction p generalizing s with
  | ret a => rfl
  | raise e => rfl
  | ask q k ih =>
    rw [Prog.ask_bind, wp_ask, wp_ask]
    exact forall_congr' fun a => forall_congr' fun s' => imp_congr_right fun _ => ih a s'

@[simp] theorem wp_map (p : Prog I ε α) (f : α → β) (Q : Except ε β → σ → Prop) (s : σ) :
    wp W (f <$> p) Q s ↔
      wp W p (fun r s' => match r with
        | .ok a => Q (.ok (f a)) s'
        | .error e => Q (.error e) s') s :=
  wp_bind W p (fun a => .ret (f a)) Q s

@[simp] theorem wp_ofExcept (r : Except ε α) (Q : Except ε α → σ → Prop) (s : σ) :
    wp W (Prog.ofExcept r) Q s ↔ Q r s := by
  cases r <;> rfl

/-- A question whose answer is handed on as an outcome: nothing is left to do
but answer it. -/
theorem wp_await {q : I.Ask} {k : I.Ans q → Prog I ε α} {f : I.Ans q → Except ε α}
    (hk : ∀ a, k a = Prog.ofExcept (f a)) (Q : Except ε α → σ → Prop) (s : σ) :
    wp W (.ask q k) Q s ↔ ∀ a s', W s q a s' → Q (f a) s' := by
  rw [wp_ask]
  exact forall_congr' fun a => forall_congr' fun s' => imp_congr_right fun _ => by
    rw [hk, wp_ofExcept]

@[simp] theorem wp_attempt (p : Prog I ε α) (Q : Except ε' (Except ε α) → σ → Prop) (s : σ) :
    wp W p.attempt Q s ↔ wp W p (fun r s' => Q (.ok r) s') s := by
  induction p generalizing s with
  | ret a => rfl
  | raise e => rfl
  | ask q k ih =>
    rw [Prog.attempt, wp_ask, wp_ask]
    exact forall_congr' fun a => forall_congr' fun s' => imp_congr_right fun _ => ih a s'

@[simp] theorem wp_mapError (f : ε → ε') (p : Prog I ε α)
    (Q : Except ε' α → σ → Prop) (s : σ) :
    wp W (p.mapError f) Q s ↔
      wp W p (fun r s' => match r with
        | .ok a => Q (.ok a) s'
        | .error e => Q (.error (f e)) s') s := by
  induction p generalizing s with
  | ret a => rfl
  | raise e => rfl
  | ask q k ih =>
    rw [Prog.mapError, wp_ask, wp_ask]
    exact forall_congr' fun a => forall_congr' fun s' => imp_congr_right fun _ => ih a s'

end

/-! ## Watched questions -/

section

variable {I : Iface} {σ ε α β : Type} {note : σ → Event I → σ} {s : σ} {p : Prog I ε α}
  {q : I.Ask} {o : I.Ans q → Except ε α}

/-- The last question of a watched program. -/
theorem wp_watch_last (hp : p = .ask q fun a => .ofExcept (o a)) {Q : Except ε α → σ → Prop}
    (h : ∀ a, Q (o a) (note s ⟨q, a⟩)) : wp (watch note) p Q s := by
  subst hp
  rintro a _ rfl
  exact (wp_ofExcept _ _ _ _).mpr (h a)

/-- A question, and what the program does behind it. -/
theorem wp_watch_step (hp : p = .ask q fun a => .ofExcept (o a)) {f : α → Prog I ε β}
    {Q : Except ε β → σ → Prop} (herror : ∀ a e, o a = .error e → Q (.error e) (note s ⟨q, a⟩))
    (hok : ∀ a b, o a = .ok b → wp (watch note) (f b) Q (note s ⟨q, a⟩)) :
    wp (watch note) (p >>= f) Q s := by
  rw [wp_bind]
  refine wp_watch_last hp fun a => ?_
  cases h : o a with
  | error e => exact herror a e h
  | ok b => exact hok a b h

/-- A question the monitor does not note. -/
theorem wp_watch_skip (hp : p = .ask q fun a => .ofExcept (o a))
    (hskip : ∀ a, note s ⟨q, a⟩ = s) {f : α → Prog I ε β} {Q : Except ε β → σ → Prop}
    (herror : ∀ e, Q (.error e) s) (hok : ∀ b, wp (watch note) (f b) Q s) :
    wp (watch note) (p >>= f) Q s := by
  refine wp_watch_step hp (fun a e _ => ?_) fun a b _ => ?_
  · rw [hskip a]
    exact herror e
  · rw [hskip a]
    exact hok b

end

/-! ## What a program may ask -/

section

variable {I : Iface} {σ ε ε' α β : Type}

/-- All a program may ask lies in `A`. -/
def Prog.Asks (A : I.Ask → Prop) : Prog I ε α → Prop
  | .ask q k => A q ∧ ∀ a, (k a).Asks A
  | .ret _ | .raise _ => True

section

variable {A : I.Ask → Prop}

@[simp] theorem Prog.asks_ret (a : α) : (Prog.ret a : Prog I ε α).Asks A := trivial

@[simp] theorem Prog.asks_ask {q : I.Ask} {k : I.Ans q → Prog I ε α} :
    (Prog.ask q k).Asks A ↔ A q ∧ ∀ a, (k a).Asks A := Iff.rfl

@[simp] theorem Prog.asks_ofExcept (r : Except ε α) : (Prog.ofExcept r : Prog I ε α).Asks A := by
  cases r <;> trivial

theorem Prog.asks_of_forall (hA : ∀ q, A q) {p : Prog I ε α} : p.Asks A := by
  induction p with
  | ret a => trivial
  | raise e => trivial
  | ask q k ih => exact ⟨hA q, ih⟩

theorem Prog.Asks.bind {p : Prog I ε α} {f : α → Prog I ε β} (hp : p.Asks A)
    (hf : ∀ a, (f a).Asks A) : (p >>= f).Asks A := by
  induction p with
  | ret a => exact hf a
  | raise e => trivial
  | ask q k ih => exact ⟨hp.1, fun a => ih a (hp.2 a)⟩

end

theorem Prog.Asks.attempt {A : I.Ask → Prop} {p : Prog I ε α} (hp : p.Asks A) :
    (p.attempt : Prog I ε' (Except ε α)).Asks A := by
  induction p with
  | ret a => trivial
  | raise e => trivial
  | ask q k ih => exact ⟨hp.1, fun a => ih a (hp.2 a)⟩

theorem Prog.Asks.mapError {A : I.Ask → Prop} {p : Prog I ε α} (hp : p.Asks A) (f : ε → ε') :
    (p.mapError f).Asks A := by
  induction p with
  | ret a => trivial
  | raise e => trivial
  | ask q k ih => exact ⟨hp.1, fun a => ih a (hp.2 a)⟩

/-- A monitor that does not note what a program asks is left as it was. -/
theorem Prog.Asks.wp_watch {A : I.Ask → Prop} {note : σ → Event I → σ} {p : Prog I ε α}
    (hp : p.Asks A) (hnote : ∀ s q (a : I.Ans q), A q → note s ⟨q, a⟩ = s)
    {Q : Except ε α → σ → Prop} {s : σ} (h : ∀ r, Q r s) : wp (watch note) p Q s := by
  induction p with
  | ret a => exact h (.ok a)
  | raise e => exact h (.error e)
  | ask q k ih =>
    intro a s' hs
    rw [hs, hnote s q a hp.1]
    exact ih a (hp.2 a)

theorem Prog.Asks.mono {A B : I.Ask → Prop} {p : Prog I ε α} (hp : p.Asks A)
    (h : ∀ q, A q → B q) : p.Asks B := by
  induction p with
  | ret a => trivial
  | raise e => trivial
  | ask q k ih => exact ⟨h q hp.1, fun a => ih a (hp.2 a)⟩

/-- What no question of a program breaks holds to its end. -/
theorem Prog.Asks.wp_inv {A : I.Ask → Prop} {W : World I σ} {J : σ → Prop} {p : Prog I ε α}
    (hp : p.Asks A) (hJ : ∀ s q a s', A q → W s q a s' → J s → J s') {s : σ} (hs : J s) :
    wp W p (fun _ s' => J s') s := by
  induction p generalizing s with
  | ret a => exact hs
  | raise e => exact hs
  | ask q k ih => exact fun a s' hw => ih a (hp.2 a) (hJ s q a s' hp.1 hw hs)

end

end Effects
