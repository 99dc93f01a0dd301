import Mathlib.Algebra.Order.Field.Rat
import Mathlib.Data.Int.Log
import Mathlib.Data.Rat.Floor
import Mathlib.Tactic.Linarith
import Mathlib.Tactic.NormNum

/-!
# Rounding to significant digits

A rational is scaled so that its leading digit stands at a fixed place, rounded to the nearest
integer with ties to even, and scaled back.
-/

namespace SignificantDigits

/-- The nearest integer, ties to even. -/
def roundEven (x : ℚ) : ℤ :=
  if x - ⌊x⌋ < 1 / 2 then ⌊x⌋
  else if 1 / 2 < x - ⌊x⌋ then ⌊x⌋ + 1
  else ⌊x⌋ + ⌊x⌋ % 2

/-- The power of ten that leaves `digits` digits in front of the point. -/
def scale (digits : ℕ) (x : ℚ) : ℚ := 10 ^ ((digits : ℤ) - 1 - Int.log 10 |x|)

def roundDigits (digits : ℕ) (x : ℚ) : ℚ :=
  if x = 0 then 0 else roundEven (x * scale digits x) / scale digits x

section Rounding

variable {digits : ℕ} {x : ℚ}

theorem roundEven_nonneg (h : 0 ≤ x) : 0 ≤ roundEven x := by
  have hfloor : 0 ≤ ⌊x⌋ := Int.floor_nonneg.mpr h
  unfold roundEven
  split_ifs <;> omega

theorem roundEven_error (x : ℚ) : |(roundEven x : ℚ) - x| ≤ 1 / 2 := by
  have hlow := Int.floor_le x
  have hparity : ((⌊x⌋ % 2 : ℤ) : ℚ) = 0 ∨ ((⌊x⌋ % 2 : ℤ) : ℚ) = 1 := by
    rcases Int.emod_two_eq_zero_or_one ⌊x⌋ with h | h <;> simp [h]
  unfold roundEven
  rw [abs_le]
  split_ifs with hsmall hlarge
  · constructor <;> linarith
  · have hhigh := Int.lt_floor_add_one x
    push_cast
    constructor <;> linarith
  · push_cast
    constructor <;> rcases hparity with h | h <;> rw [h] <;> linarith

theorem scale_pos (digits : ℕ) (x : ℚ) : 0 < scale digits x := by
  exact zpow_pos (by norm_num) _

theorem roundDigits_nonneg (h : 0 ≤ x) : 0 ≤ roundDigits digits x := by
  unfold roundDigits
  split_ifs
  · exact le_rfl
  · have hscale := scale_pos digits x
    have hround : (0 : ℚ) ≤ roundEven (x * scale digits x) :=
      Int.cast_nonneg (roundEven_nonneg (mul_nonneg h hscale.le))
    exact div_nonneg hround hscale.le

/-- Below `10 ^ k` the error is at most half a unit of the last of the digits. -/
theorem roundDigits_error {k : ℤ} (h : |x| < 10 ^ k) :
    |roundDigits digits x - x| ≤ 10 ^ (k - digits) / 2 := by
  unfold roundDigits
  split_ifs with hzero
  · rw [hzero, sub_zero, abs_zero]
    exact div_nonneg (zpow_nonneg (by norm_num) _) (by norm_num)
  · have hscale := scale_pos digits x
    have hlog : Int.log 10 |x| < k :=
      (Int.lt_zpow_iff_log_lt (by norm_num) (abs_pos.mpr hzero)).mp (by exact_mod_cast h)
    have hunit : (scale digits x)⁻¹ ≤ 10 ^ (k - digits) := by
      rw [scale, ← zpow_neg]
      exact zpow_le_zpow_right₀ (by norm_num) (by omega)
    have hdiff : (roundEven (x * scale digits x) : ℚ) / scale digits x - x =
        (roundEven (x * scale digits x) - x * scale digits x) * (scale digits x)⁻¹ := by
      rw [sub_mul, mul_inv_cancel_right₀ hscale.ne', div_eq_mul_inv]
    calc |(roundEven (x * scale digits x) : ℚ) / scale digits x - x|
        = |(roundEven (x * scale digits x) : ℚ) - x * scale digits x| * (scale digits x)⁻¹ := by
          rw [hdiff, abs_mul, abs_of_pos (inv_pos.mpr hscale)]
      _ ≤ 1 / 2 * 10 ^ (k - digits) := by
          gcongr
          exact roundEven_error _
      _ = 10 ^ (k - digits) / 2 := by ring

end Rounding

end SignificantDigits
