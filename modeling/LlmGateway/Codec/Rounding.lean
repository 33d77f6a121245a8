import Mathlib.Algebra.Order.Ring.Rat
import Mathlib.Data.Int.Log
import Mathlib.Data.Rat.Floor
import Mathlib.Tactic.Linarith

/-!
# Rounding to a double

A number is rounded to the nearest one with 53 binary digits, the even one of two that
are as near. An integer of that many digits is never passed over.
-/

namespace LlmGateway

namespace Rounding

/-- The nearest integer, the even one of two that are as near. -/
def nearest (x : ℚ) : ℤ :=
  if 2 * (x - ⌊x⌋) < 1 ∨ 2 * (x - ⌊x⌋) = 1 ∧ ⌊x⌋ % 2 = 0 then ⌊x⌋ else ⌊x⌋ + 1

theorem le_nearest {x : ℚ} {n : ℤ} (h : (n : ℚ) ≤ x) : n ≤ nearest x := by
  have hfloor : n ≤ ⌊x⌋ := Int.le_floor.mpr h
  unfold nearest
  split <;> omega

theorem nearest_le {x : ℚ} {n : ℤ} (h : x ≤ n) : nearest x ≤ n := by
  have hfloor : ⌊x⌋ ≤ n := by exact_mod_cast (Int.floor_le x).trans h
  unfold nearest
  split
  next => exact hfloor
  next hup =>
    -- Rounded up, it is no integer.
    by_contra hlt
    have hint : ⌊x⌋ = n := by omega
    have hx : x = ⌊x⌋ := le_antisymm (hint ▸ h) (Int.floor_le x)
    exact hup (.inl (by rw [← hx]; norm_num))

/-- The binary places behind the point of a double of that size. -/
def places (x : ℚ) : ℤ := 52 - Int.log 2 |x|

/-- The nearest double, of a number that is neither too small nor too large. -/
def double (x : ℚ) : ℚ := nearest (x * 2 ^ places x) / 2 ^ places x

section

variable {x : ℚ} {n : ℤ}

/-- A number of at most 53 binary digits before the point has its places behind it. -/
theorem places_nonneg (hx : |x| < 2 ^ 53) : 0 ≤ places x := by
  have hlog : Int.log 2 |x| < 53 := by
    by_cases hzero : x = 0
    · rw [hzero, abs_zero, Int.log_zero_right]
      norm_num
    · rw [← Int.lt_zpow_iff_log_lt (by norm_num) (abs_pos.mpr hzero)]
      exact_mod_cast hx
  unfold places
  omega

/-- An integer in units of the last place. -/
theorem intCast_mul_places (hx : |x| < 2 ^ 53) :
    ((n * 2 ^ (places x).toNat : ℤ) : ℚ) = n * 2 ^ places x := by
  conv_rhs => rw [← Int.toNat_of_nonneg (places_nonneg hx)]
  push_cast
  rw [zpow_natCast]

theorem places_pos (x : ℚ) : (0 : ℚ) < 2 ^ places x := zpow_pos (by norm_num) _

/-- **No integer is passed over** from above. -/
theorem le_double (hx : |x| < 2 ^ 53) (h : (n : ℚ) ≤ x) : (n : ℚ) ≤ double x := by
  have hscaled : ((n * 2 ^ (places x).toNat : ℤ) : ℚ) ≤ x * 2 ^ places x := by
    rw [intCast_mul_places hx]
    exact mul_le_mul_of_nonneg_right h (places_pos x).le
  have hnearest : ((n * 2 ^ (places x).toNat : ℤ) : ℚ) ≤ nearest (x * 2 ^ places x) := by
    exact_mod_cast le_nearest hscaled
  rw [intCast_mul_places hx] at hnearest
  exact (le_div_iff₀ (places_pos x)).mpr hnearest

/-- **No integer is passed over** from below. -/
theorem double_le (hx : |x| < 2 ^ 53) (h : x ≤ n) : double x ≤ n := by
  have hscaled : x * 2 ^ places x ≤ ((n * 2 ^ (places x).toNat : ℤ) : ℚ) := by
    rw [intCast_mul_places hx]
    exact mul_le_mul_of_nonneg_right h (places_pos x).le
  have hnearest : (nearest (x * 2 ^ places x) : ℚ) ≤ ((n * 2 ^ (places x).toNat : ℤ) : ℚ) := by
    exact_mod_cast nearest_le hscaled
  rw [intCast_mul_places hx] at hnearest
  exact (div_le_iff₀ (places_pos x)).mpr hnearest

end

/-- `int(x)`: towards zero. -/
def truncate (x : ℚ) : ℤ := if 0 ≤ x then ⌊x⌋ else ⌈x⌉

theorem le_truncate {x : ℚ} {n : ℤ} (h : (n : ℚ) ≤ x) : n ≤ truncate x := by
  have hfloor : n ≤ ⌊x⌋ := Int.le_floor.mpr h
  unfold truncate
  split
  · exact hfloor
  · exact hfloor.trans (Int.floor_le_ceil x)

theorem truncate_le {x : ℚ} {n : ℤ} (h : x ≤ n) : truncate x ≤ n := by
  have hceil : ⌈x⌉ ≤ n := Int.ceil_le.mpr h
  unfold truncate
  split
  · exact (Int.floor_le_ceil x).trans hceil
  · exact hceil

end Rounding

end LlmGateway
