/-
# Numbers as the source's language has them

A number read from a text is the double nearest to the exact value, ties going to
the even one, and infinite when that lies past the largest double.  Here a double
is the rational it stands for.  An integer of at most 53 bits is its own double,
so whole seconds survive being written to a file and read back.
-/

import Mathlib.Data.Int.Log
import Mathlib.Data.Rat.Floor
import Mathlib.Tactic.NormNum
import Mathlib.Tactic.Linarith

namespace Turbopaneld.JavaScript

/-- The integer nearest to `q`, the even one of two that are equally near. -/
def roundHalfEven (q : ℚ) : ℤ :=
  let above := q - ⌊q⌋
  if above < 1 / 2 then ⌊q⌋
  else if 1 / 2 < above then ⌊q⌋ + 1
  else if ⌊q⌋ % 2 = 0 then ⌊q⌋
  else ⌊q⌋ + 1

theorem roundHalfEven_intCast (n : ℤ) : roundHalfEven n = n := by
  have hnear : ((n : ℚ) - ⌊(n : ℚ)⌋) < 1 / 2 := by
    rw [Int.floor_intCast, sub_self]
    norm_num
  rw [roundHalfEven, if_pos hnear, Int.floor_intCast]

/-- The exponent of the last bit a double near `q` has. -/
def lastBit (q : ℚ) : ℤ := max (Int.log 2 |q| - 52) (-1074)

/-- The double nearest to `q`, and `none` when that is an infinity. -/
def toDouble (q : ℚ) : Option ℚ :=
  let rounded : ℚ := roundHalfEven (q / 2 ^ lastBit q) * 2 ^ lastBit q
  if |rounded| < 2 ^ 1024 then some rounded else none

/-- `Number.MAX_SAFE_INTEGER`. -/
def maxSafeInteger : ℤ := 2 ^ 53 - 1

/-- `Number.isSafeInteger`, with the integer. -/
def safeInteger (q : ℚ) : Option ℤ :=
  if q.den = 1 ∧ |q.num| ≤ maxSafeInteger then some q.num else none

theorem lastBit_nonpos_of_safe {n : ℤ} (hsafe : |n| ≤ maxSafeInteger) : lastBit n ≤ 0 := by
  have hbound : (|n| : ℤ) < 2 ^ 53 := by
    rw [maxSafeInteger] at hsafe
    omega
  have hlog : Int.log 2 |(n : ℚ)| < 53 := by
    rcases eq_or_ne n 0 with hzero | hzero
    · simp [hzero]
    · have hpos : (0 : ℚ) < |(n : ℚ)| := by positivity
      rw [← Int.lt_zpow_iff_log_lt (by norm_num) hpos]
      exact_mod_cast hbound
  rw [lastBit]
  omega

/-- An integer of at most 53 bits is a double. -/
theorem toDouble_of_safe {n : ℤ} (hsafe : |n| ≤ maxSafeInteger) : toDouble n = some (n : ℚ) := by
  obtain ⟨k, hk⟩ := Int.eq_ofNat_of_zero_le (neg_nonneg.mpr (lastBit_nonpos_of_safe hsafe))
  have hbit : lastBit (n : ℚ) = -(k : ℤ) := by omega
  have hscale : (n : ℚ) / 2 ^ (-(k : ℤ)) = ((n * 2 ^ k : ℤ) : ℚ) := by
    rw [zpow_neg, zpow_natCast, div_inv_eq_mul]
    push_cast
    rfl
  have hback : ((n * 2 ^ k : ℤ) : ℚ) * 2 ^ (-(k : ℤ)) = n := by
    rw [zpow_neg, zpow_natCast]
    push_cast
    exact mul_inv_cancel_right₀ (by positivity) _
  have hfinite : |(n : ℚ)| < 2 ^ 1024 := by
    have hbound : |n| < 2 ^ 53 := by
      rw [maxSafeInteger] at hsafe
      omega
    calc |(n : ℚ)| < 2 ^ 53 := by exact_mod_cast hbound
      _ ≤ 2 ^ 1024 := pow_le_pow_right₀ (by norm_num) (by norm_num)
  rw [toDouble, hbit, hscale, roundHalfEven_intCast, hback, if_pos hfinite]

end Turbopaneld.JavaScript
