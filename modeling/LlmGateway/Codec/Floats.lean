import LlmGateway.Text.Words
import Mathlib.Algebra.Order.Field.Basic
import Mathlib.Algebra.Order.Ring.Rat
import Mathlib.Algebra.Order.Field.Power
import Mathlib.Tactic.Linarith
import Mathlib.Data.Nat.Digits.Defs
import Mathlib.Tactic.Positivity

/-!
# Floating-point numbers as they are written

Floats are finite rationals, two infinities and what is not a number. Arithmetic
is exact up to the bound from which on a result is rounded to an infinity.
Comparisons are those of floats: nothing is less than what is not a number, nor
greater, and `max` and `min` keep their first argument when they cannot tell.
-/

namespace LlmGateway

namespace Floats

open Text

/-! ## Numbers -/

inductive Number where
  | finite (q : ℚ)
  | infinite (negative : Bool)
  | nan
  deriving DecidableEq

/-- From here on a result is rounded to an infinity. -/
def bound : ℚ := 2 ^ 1024 - 2 ^ 970

theorem bound_pos : 0 < bound :=
  sub_pos.mpr (pow_lt_pow_right₀ (by norm_num) (by norm_num))

namespace Number

/-- A result, rounded. -/
def round (q : ℚ) : Number :=
  if bound ≤ q then .infinite false else if q ≤ -bound then .infinite true else .finite q

def add : Number → Number → Number
  | .finite a, .finite b => round (a + b)
  | .infinite s, .infinite t => if s = t then .infinite s else .nan
  | .infinite s, .finite _ => .infinite s
  | .finite _, .infinite t => .infinite t
  | .nan, _ => .nan
  | _, .nan => .nan

/-- A product with a finite number. -/
def times (k : ℚ) : Number → Number
  | .finite a => round (a * k)
  | .infinite s => if k = 0 then .nan else .infinite (s ^^ decide (k < 0))
  | .nan => .nan

/-- `x < y`. -/
def lt : Number → Number → Bool
  | .finite a, .finite b => a < b
  | .infinite s, .infinite t => s && !t
  | .infinite s, .finite _ => s
  | .finite _, .infinite t => !t
  | .nan, _ => false
  | _, .nan => false

/-- `max(x, y)`. -/
def max (x y : Number) : Number := if x.lt y then y else x

/-- `min(x, y)`. -/
def min (x y : Number) : Number := if y.lt x then y else x

/-- What `int` raises. -/
inductive ConversionError where
  | valueError
  | overflowError
  deriving DecidableEq, Repr

/-- `int(x)`: towards zero. -/
def toInt : Number → Except ConversionError ℤ
  | .finite q => return if 0 ≤ q then q.floor else q.ceil
  | .infinite _ => throw .overflowError
  | .nan => throw .valueError

/-- `float(n)` of an integer, which is not rounded to an infinity. -/
def ofInt (n : ℤ) : Except ConversionError Number :=
  if |(n : ℚ)| < bound then return .finite n else throw .overflowError

def IsFinite : Number → Prop
  | .finite _ => True
  | .infinite _ | .nan => False

instance : DecidablePred IsFinite := fun x => by
  cases x <;> unfold IsFinite <;> infer_instance

theorem round_of_lt {q : ℚ} (h : |q| < bound) : round q = .finite q := by
  obtain ⟨hlow, hhigh⟩ := abs_lt.mp h
  rw [round, if_neg (not_le.mpr hhigh), if_neg (not_le.mpr hlow)]

theorem isFinite_round {q : ℚ} : (round q).IsFinite ↔ |q| < bound := by
  refine ⟨fun h => ?_, fun h => by rw [round_of_lt h]; trivial⟩
  unfold round at h
  split at h
  · exact h.elim
  · split at h
    · exact h.elim
    next hhigh hlow => exact abs_lt.mpr ⟨not_le.mp hlow, not_le.mp hhigh⟩

theorem abs_lt_of_round {q r : ℚ} (h : round q = .finite r) : |r| < bound := by
  have hfinite : (round q).IsFinite := by
    rw [h]
    trivial
  rw [round_of_lt (isFinite_round.mp hfinite)] at h
  rw [← Number.finite.inj h]
  exact isFinite_round.mp hfinite

/-- What is too large is an infinity of its sign. -/
theorem round_of_nonneg {q : ℚ} (h : 0 ≤ q) :
    round q = if q < bound then .finite q else .infinite false := by
  by_cases hlt : q < bound
  · rw [if_pos hlt, round_of_lt (by rwa [abs_of_nonneg h])]
  · rw [if_neg hlt, round, if_pos (not_lt.mp hlt)]

/-- **What an integer is made of** is what is finite. -/
theorem toInt_isOk_iff {x : Number} : (∃ n, x.toInt = .ok n) ↔ x.IsFinite := by
  cases x with
  | finite q => exact iff_of_true ⟨_, rfl⟩ trivial
  | infinite s => exact iff_of_false (by rintro ⟨n, hn⟩; cases hn) id
  | nan => exact iff_of_false (by rintro ⟨n, hn⟩; cases hn) id

/-- Not less than one and not greater than the other, as floats are compared: what is not a number
is neither. -/
def Between (low high : ℚ) : Number → Prop
  | .finite q => low ≤ q ∧ q ≤ high
  | .infinite _ | .nan => False

theorem max_finite (a b : ℚ) :
    (Number.finite a).max (.finite b) = .finite (if a < b then b else a) := by
  unfold Number.max Number.lt
  by_cases h : a < b
  · simp [h]
  · simp [h]

theorem min_finite (a b : ℚ) :
    (Number.finite a).min (.finite b) = .finite (if b < a then b else a) := by
  unfold Number.min Number.lt
  by_cases h : b < a
  · simp [h]
  · simp [h]

/-- **A number is clamped between two others** unless it is not a number. -/
theorem between_clamp {low high : ℚ} (h : low ≤ high) {x : Number} :
    ((x.max (.finite low)).min (.finite high)).Between low high ↔ x ≠ .nan := by
  cases x with
  | nan => exact iff_of_false id (fun hne => hne rfl)
  | infinite s =>
    refine iff_of_true ?_ (fun heq => nomatch heq)
    cases s with
    | true =>
      change ((Number.finite low).min (.finite high)).Between low high
      rw [min_finite, if_neg (not_lt.mpr h)]
      exact ⟨le_rfl, h⟩
    | false => exact ⟨h, le_rfl⟩
  | finite q =>
    refine iff_of_true ?_ (fun heq => nomatch heq)
    have hlow : low ≤ if q < low then low else q := by
      split
      next => exact le_rfl
      next hlow => exact not_lt.mp hlow
    rw [max_finite, min_finite]
    generalize (if q < low then low else q) = raised at hlow ⊢
    by_cases hhigh : high < raised
    · rw [if_pos hhigh]
      exact ⟨h, le_rfl⟩
    · rw [if_neg hhigh]
      exact ⟨hlow, not_lt.mp hhigh⟩

/-- Not less than a finite number. -/
def AtLeast (low : ℚ) : Number → Prop
  | .finite q => low ≤ q
  | .infinite negative => negative = false
  | .nan => False

/-- A number is held down by another. -/
theorem between_min {low high : ℚ} (h : low ≤ high) {x : Number} :
    (x.min (.finite high)).Between low high ↔ x.AtLeast low := by
  cases x with
  | nan => exact Iff.rfl
  | infinite negative =>
    cases negative with
    | true => exact iff_of_false id (fun heq => nomatch heq)
    | false => exact iff_of_true ⟨h, le_rfl⟩ rfl
  | finite q =>
    rw [min_finite]
    by_cases hhigh : high < q
    · rw [if_pos hhigh]
      exact iff_of_true ⟨h, le_rfl⟩ (h.trans hhigh.le)
    · rw [if_neg hhigh]
      exact and_iff_left (not_lt.mp hhigh)

/-- What is not less than a positive number grows with a factor. -/
theorem AtLeast.times {low k : ℚ} (hlow : 0 < low) (hk : 1 ≤ k) {x : Number} (h : x.AtLeast low) :
    (x.times k).AtLeast low := by
  cases x with
  | nan => exact h.elim
  | infinite negative =>
    obtain rfl : negative = false := h
    have hpos : 0 < k := one_pos.trans_le hk
    rw [Number.times, if_neg hpos.ne', decide_eq_false (not_lt.mpr hpos.le)]
    rfl
  | finite q =>
    have hq : low ≤ q := h
    have hgrown : low ≤ q * k := hq.trans (le_mul_of_one_le_right (hlow.le.trans hq) hk)
    rw [Number.times, round_of_nonneg (hlow.le.trans hgrown)]
    split
    · exact hgrown
    · rfl

theorem Between.atLeast {low high : ℚ} {x : Number} (h : x.Between low high) : x.AtLeast low := by
  cases x with
  | finite q => exact h.1
  | infinite negative => exact h.elim
  | nan => exact h.elim

end Number

/-! ## Digits -/

/-- The zeros of the decimal digits of Unicode. Nine digits come behind each. -/
def zeros : List ℕ :=
  [0x30, 0x660, 0x6F0, 0x7C0, 0x966, 0x9E6, 0xA66, 0xAE6, 0xB66, 0xBE6, 0xC66, 0xCE6, 0xD66, 0xDE6,
    0xE50, 0xED0, 0xF20, 0x1040, 0x1090, 0x17E0, 0x1810, 0x1946, 0x19D0, 0x1A80, 0x1A90, 0x1B50,
    0x1BB0, 0x1C40, 0x1C50, 0xA620, 0xA8D0, 0xA900, 0xA9D0, 0xA9F0, 0xAA50, 0xABF0, 0xFF10,
    0x104A0, 0x10D30, 0x11066, 0x110F0, 0x11136, 0x111D0, 0x112F0, 0x11450, 0x114D0, 0x11650,
    0x116C0, 0x11730, 0x118E0, 0x11950, 0x11C50, 0x11D50, 0x11DA0, 0x11F50, 0x16A60, 0x16AC0,
    0x16B50, 0x1D7CE, 0x1D7D8, 0x1D7E2, 0x1D7EC, 0x1D7F6, 0x1E140, 0x1E2F0, 0x1E4F0, 0x1E950,
    0x1FBF0]

/-- `str.isdecimal` of one character, with its value. -/
def digit (c : Char) : Option ℕ :=
  (zeros.find? fun z => z ≤ c.toNat && c.toNat ≤ z + 9).map (c.toNat - ·)

/-- The digits a text begins with, and what is behind them. -/
def digits : List Char → List ℕ × List Char
  | [] => ([], [])
  | c :: rest =>
    match digit c with
    | none => ([], c :: rest)
    | some d => (d :: (digits rest).1, (digits rest).2)

/-- A decimal number without a sign. -/
structure Decimal where
  mantissa : ℕ
  exponent : ℤ
  deriving DecidableEq, Repr

/-- The number of digits before a point and digits behind it. -/
def Decimal.ofDigits (whole fraction : List ℕ) (exponent : ℤ) : Decimal where
  mantissa := Nat.ofDigits 10 (whole ++ fraction).reverse
  exponent := exponent - fraction.length

def Decimal.value (decimal : Decimal) : ℚ := decimal.mantissa * 10 ^ decimal.exponent

theorem Decimal.value_nonneg (decimal : Decimal) : 0 ≤ decimal.value := by
  unfold Decimal.value
  positivity

/-! ## Texts that are read as numbers -/

/-- What `float` reads. -/
inductive Literal where
  | numeral (negative : Bool) (decimal : Decimal)
  | infinity (negative : Bool)
  | nan
  deriving DecidableEq, Repr

/-- The rest of a `digitpart`: an underscore may stand between two digits. -/
def digitPartRest : List Char → List ℕ × List Char
  | [] => ([], [])
  | '_' :: c :: rest =>
    match digit c with
    | none => ([], '_' :: c :: rest)
    | some d => (d :: (digitPartRest rest).1, (digitPartRest rest).2)
  | c :: rest =>
    match digit c with
    | none => ([], c :: rest)
    | some d => (d :: (digitPartRest rest).1, (digitPartRest rest).2)

/-- A `digitpart`, or none. -/
def digitPart : List Char → List ℕ × List Char
  | [] => ([], [])
  | c :: rest =>
    match digit c with
    | none => ([], c :: rest)
    | some d => (d :: (digitPartRest rest).1, (digitPartRest rest).2)

/-- The `exponent` a text ends with. -/
def exponentOf : List Char → Option ℤ
  | [] => some 0
  | c :: rest =>
    if c = 'e' ∨ c = 'E' then
      let (negative, rest) := match rest with
        | '-' :: rest => (true, rest)
        | '+' :: rest => (false, rest)
        | rest => (false, rest)
      match digitPart rest with
      | (d :: ds, []) =>
        let n : ℤ := Nat.ofDigits 10 (d :: ds).reverse
        some (if negative then -n else n)
      | _ => none
    else none

/-- A `floatnumber`. -/
def floatNumber (text : List Char) : Option Decimal :=
  let (whole, rest) := digitPart text
  let (fraction, rest) := match rest with
    | '.' :: rest => digitPart rest
    | rest => ([], rest)
  if whole = [] ∧ fraction = [] then none
  else (exponentOf rest).map (Decimal.ofDigits whole fraction)

/-- A `floatvalue`, white space around it. -/
def literal (text : List Char) : Option Literal :=
  let (negative, text) := match strip text with
    | '-' :: rest => (true, rest)
    | '+' :: rest => (false, rest)
    | rest => (false, rest)
  let lower := text.map Char.toLower
  if lower = "inf".toList ∨ lower = "infinity".toList then some (.infinity negative)
  else if lower = "nan".toList then some .nan
  else (floatNumber text).map (.numeral negative)

namespace Literal

/-- The value of a literal. -/
def number : Literal → Number
  | .numeral negative decimal => .round (if negative then -decimal.value else decimal.value)
  | .infinity negative => .infinite negative
  | .nan => .nan

/-- A numeral within the bound. -/
def Within : Literal → Prop
  | .numeral _ decimal => decimal.value < bound
  | .infinity _ | .nan => False

theorem isFinite_number {l : Literal} : l.number.IsFinite ↔ l.Within := by
  cases l with
  | numeral negative decimal =>
    refine Number.isFinite_round.trans ?_
    have habs : |if negative then -decimal.value else decimal.value| = decimal.value := by
      split
      · rw [abs_neg, abs_of_nonneg decimal.value_nonneg]
      · exact abs_of_nonneg decimal.value_nonneg
    rw [habs]
    rfl
  | infinity negative => exact Iff.rfl
  | nan => exact Iff.rfl

theorem abs_lt_of_number {l : Literal} {q : ℚ} (h : l.number = .finite q) : |q| < bound := by
  cases l with
  | numeral negative decimal => exact Number.abs_lt_of_round h
  | infinity negative => cases h
  | nan => cases h

/-- Neither the positive infinity nor rounded to it. -/
def BoundedAbove : Literal → Prop
  | .numeral negative decimal => negative = true ∨ decimal.value < bound
  | .infinity negative => negative = true
  | .nan => True

theorem number_ne_infinite_iff {l : Literal} : l.number ≠ .infinite false ↔ l.BoundedAbove := by
  cases l with
  | numeral negative decimal =>
    have hnonneg := decimal.value_nonneg
    cases negative with
    | true =>
      have hlow : ¬ bound ≤ -decimal.value := by
        have hpos := bound_pos
        intro hle
        linarith
      refine iff_of_true ?_ (.inl rfl)
      change Number.round (-decimal.value) ≠ _
      rw [Number.round, if_neg hlow]
      split <;> exact nofun
    | false =>
      change Number.round decimal.value ≠ _ ↔ _
      rw [Number.round_of_nonneg hnonneg]
      by_cases hlt : decimal.value < bound
      · rw [if_pos hlt]
        exact iff_of_true nofun (.inr hlt)
      · rw [if_neg hlt]
        refine iff_of_false (fun hne => hne rfl) ?_
        rintro (h | h)
        · cases h
        · exact hlt h
  | infinity negative =>
    cases negative with
    | true => exact iff_of_true nofun rfl
    | false => exact iff_of_false (fun hne => hne rfl) nofun
  | nan => exact iff_of_true nofun trivial

end Literal

/-- `float(text)`, where it does not raise `ValueError`. -/
def float (text : List Char) : Option Number := (literal text).map Literal.number

end Floats

end LlmGateway
