import LlmGateway.Effects.Wp

/-!
# A program within a wider interface

A function that runs another passes that one's questions on. `embed` does this
for a program whose interface is part of a wider one, and a world of the wider
interface is a world of the narrower. `inline` puts a program in the place of
each question.
-/

namespace Effects

variable {I J : Iface} {ε α σ : Type}

/-- `p` over an interface that takes its questions by `f` and answers them by `back`. -/
def Prog.embed (f : I.Ask → J.Ask) (back : ∀ q, J.Ans (f q) → I.Ans q) :
    Prog I ε α → Prog J ε α
  | .ret a => .ret a
  | .raise e => .raise e
  | .ask q k => .ask (f q) fun a => (k (back q a)).embed f back

/-- `p` with each of its questions answered by running `h`. -/
def Prog.inline (h : ∀ q : I.Ask, Prog J ε (I.Ans q)) : Prog I ε α → Prog J ε α
  | .ret a => .ret a
  | .raise e => .raise e
  | .ask q k => h q >>= fun a => (k a).inline h

/-- What a program passes on is what it asks. -/
theorem Prog.asks_embed {A : J.Ask → Prop} {f : I.Ask → J.Ask}
    {back : ∀ q, J.Ans (f q) → I.Ans q} {p : Prog I ε α} (hp : p.Asks fun q => A (f q)) :
    (p.embed f back).Asks A := by
  induction p with
  | ret a => trivial
  | raise e => trivial
  | ask q k ih => exact ⟨hp.1, fun a => ih _ (hp.2 _)⟩

/-- The part of a world a narrower interface sees. -/
def World.within (W : World J σ) (f : I.Ask → J.Ask) (back : ∀ q, J.Ans (f q) → I.Ans q) :
    World I σ :=
  fun s q a s' => ∃ b, back q b = a ∧ W s (f q) b s'

/-- What holds of a program in the part of the world it sees holds of it in the world. -/
theorem wp_embed {W : World J σ} {f : I.Ask → J.Ask} {back : ∀ q, J.Ans (f q) → I.Ans q}
    {p : Prog I ε α} {Q : Except ε α → σ → Prop} {s : σ} (h : wp (W.within f back) p Q s) :
    wp W (p.embed f back) Q s := by
  induction p generalizing s with
  | ret a => exact h
  | raise e => exact h
  | ask q k ih =>
    intro a s' hW
    exact ih _ (h _ _ ⟨a, rfl, hW⟩)

end Effects
