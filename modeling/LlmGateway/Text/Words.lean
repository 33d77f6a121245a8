import Mathlib.Data.List.Basic
import Mathlib.Data.List.TakeWhile

/-!
# Spaces, words and separators

Which characters are white space, when a text is nothing but that, where its
words begin and end, and how a text is read back from both ends when its parts
are joined by a character they do not hold.
-/

namespace LlmGateway

namespace Text

/-! ## White space -/

/-- `str.isspace` of one character: the Unicode separators of category `Zs` and the characters of
bidirectional class `WS`, `B` or `S`. -/
def isSpace (c : Char) : Bool :=
  let n := c.toNat
  (9 ≤ n && n ≤ 13) || (28 ≤ n && n ≤ 32) || n = 0x85 || n = 0xa0 || n = 0x1680 ||
    (0x2000 ≤ n && n ≤ 0x200a) || n = 0x2028 || n = 0x2029 || n = 0x202f || n = 0x205f || n = 0x3000

/-- `str.strip()`. -/
def strip (text : List Char) : List Char :=
  ((text.dropWhile isSpace).reverse.dropWhile isSpace).reverse

/-- Stripping leaves nothing of a text exactly when it is all white space. -/
theorem strip_eq_nil_iff {text : List Char} : strip text = [] ↔ ∀ c ∈ text, isSpace c = true := by
  rw [strip, List.reverse_eq_nil_iff, List.dropWhile_eq_nil_iff]
  constructor
  · intro h c hc
    rcases List.mem_append.mp (List.takeWhile_append_dropWhile (p := isSpace) (l := text) ▸ hc)
      with hc | hc
    · exact List.mem_takeWhile_imp hc
    · exact h c (List.mem_reverse.mpr hc)
  · intro h c hc
    exact h c ((List.dropWhile_sublist isSpace).subset (List.mem_reverse.mp hc))

/-! ## Words -/

/-- The word from `a` up to `b`: a maximal run of characters that are no white space. -/
structure Word (text : List Char) (a b : Nat) : Prop where
  lt : a < b
  run : ∀ i, a ≤ i → i < b → ∃ c, text[i]? = some c ∧ isSpace c = false
  before : a ≠ 0 → ∃ c, text[a - 1]? = some c ∧ isSpace c = true
  behind : ∀ c, text[b]? = some c → isSpace c = true

theorem Word.le_length {text : List Char} {a b : Nat} (h : Word text a b) : b ≤ text.length := by
  have hlt := h.lt
  obtain ⟨c, hc, -⟩ := h.run (b - 1) (by omega) (by omega)
  have hlast := (List.getElem?_eq_some_iff.mp hc).1
  omega

/-- A word holds no white space. -/
theorem Word.not_space {text : List Char} {a b i : Nat} {c : Char} (h : Word text a b)
    (ha : a ≤ i) (hb : i < b) (hc : text[i]? = some c) : isSpace c = false := by
  obtain ⟨c', hc', hspace⟩ := h.run i ha hb
  rwa [Option.some.inj (hc.symm.trans hc')]

/-! ## Searching backwards -/

/-- `str.rfind` of one character, from `start` up to a given end. -/
def rfind (c : Char) (text : List Char) (start : Nat) : Nat → Option Nat
  | 0 => none
  | i + 1 =>
    if i < start then none
    else if text[i]? = some c then some i
    else rfind c text start i

section

variable {c : Char} {text : List Char} {start stop b : Nat}

/-- What is found is the last one. -/
theorem rfind_eq_some (h : rfind c text start stop = some b) :
    start ≤ b ∧ b < stop ∧ text[b]? = some c ∧ ∀ i, b < i → i < stop → text[i]? ≠ some c := by
  induction stop with
  | zero => cases h
  | succ i ih =>
    rw [rfind] at h
    split at h
    · cases h
    · next hstart =>
      split at h
      · next hc =>
        obtain rfl := Option.some.inj h
        exact ⟨by omega, by omega, hc, fun j hlt hj => by omega⟩
      · next hc =>
        obtain ⟨hle, hlt, hb, hlast⟩ := ih h
        refine ⟨hle, by omega, hb, fun j hj hji => ?_⟩
        by_cases heq : j = i
        · rwa [heq]
        · exact hlast j hj (by omega)

/-- What is not found is not there. -/
theorem rfind_eq_none (h : rfind c text start stop = none) :
    ∀ i, start ≤ i → i < stop → text[i]? ≠ some c := by
  induction stop with
  | zero => exact fun i _ hi => by omega
  | succ j ih =>
    intro i hstart hi
    rw [rfind] at h
    split at h
    · omega
    · split at h
      · cases h
      · next hc =>
        by_cases heq : i = j
        · rwa [heq]
        · exact ih h i hstart (by omega)

end

/-! ## Separators -/

section

variable {α : Type*} {sep : α} {a b a' b' : List α}

/-- Read from the front, up to the first separator. -/
theorem append_sep_inj (ha : sep ∉ a) (ha' : sep ∉ a') (h : a ++ sep :: b = a' ++ sep :: b') :
    a = a' ∧ b = b' := by
  induction a generalizing a' with
  | nil =>
    cases a' with
    | nil => exact ⟨rfl, List.tail_eq_of_cons_eq h⟩
    | cons x a' => exact absurd (List.head_eq_of_cons_eq h ▸ List.mem_cons_self) ha'
  | cons x a ih =>
    cases a' with
    | nil => exact absurd (List.head_eq_of_cons_eq h ▸ List.mem_cons_self) ha
    | cons x' a' =>
      obtain rfl := List.head_eq_of_cons_eq h
      have hmem := ih (fun hx => ha (List.mem_cons_of_mem x hx))
        (fun hx => ha' (List.mem_cons_of_mem x hx)) (List.tail_eq_of_cons_eq h)
      exact ⟨congrArg (x :: ·) hmem.1, hmem.2⟩

/-- Read from the back, down to the last separator. -/
theorem sep_append_inj (hb : sep ∉ b) (hb' : sep ∉ b') (h : a ++ sep :: b = a' ++ sep :: b') :
    a = a' ∧ b = b' := by
  have hrev := congrArg List.reverse h
  simp only [List.reverse_append, List.reverse_cons, List.append_assoc, List.singleton_append]
    at hrev
  obtain ⟨hb, ha⟩ := append_sep_inj (by simpa using hb) (by simpa using hb') hrev
  exact ⟨List.reverse_injective ha, List.reverse_injective hb⟩

end

end Text

end LlmGateway
