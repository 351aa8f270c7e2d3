/-
# How a number is written

The text of a double is the shortest run of decimal digits that reads as that double, with the
point or the exponent where the source's language puts it.  A double read again is itself, so
such digits always exist: the exact value has finitely many.
-/

import Mathlib.Data.List.DropRight
import Turbopaneld.JavaScript.Double
import Turbopaneld.JavaScript.Text

namespace Turbopaneld.JavaScript

/-! ## Digits -/

/-- The places at which `digits` of a number of this size end: it has its first digit at
`10 ^ (magnitude x - 1)`. -/
def magnitude (x : ℚ) : ℤ := Int.log 10 |x| + 1

/-- The whole numbers next to a positive one, the nearest first. -/
def roundings (y : ℚ) : List ℕ := [(roundHalfEven y).toNat, ⌊y⌋.toNat, ⌈y⌉.toNat]

/-- `coefficient * 10 ^ exponent`, with the sign of `x`. -/
def signedDecimal (x : ℚ) (coefficient : ℕ) (exponent : ℤ) : ℚ :=
  (if x < 0 then -1 else 1) * coefficient * 10 ^ exponent

/-- The exact value of a double, as a coefficient of `10 ^ -1074`. -/
def exactDecimal (x : ℚ) : ℕ := (x * 10 ^ 1074).num.natAbs

/-- `count` digits that read as `x`, if there are any. -/
def digitsThatRead (x : ℚ) (count : ℕ) : Option (ℕ × ℤ) :=
  let exponent := magnitude x - count
  ((roundings (|x| / 10 ^ exponent)).find? fun coefficient =>
    toDouble (signedDecimal x coefficient exponent) == some x).map fun coefficient =>
      (coefficient, exponent)

/-- The fewest digits that read as `x`.  Seventeen are always enough; the exact value stands in
for a proof of that. -/
def shortestDecimal (x : ℚ) : ℕ × ℤ :=
  (((List.range 17).map (· + 1)).findSome? (digitsThatRead x)).getD (exactDecimal x, -1074)

/-- `0.digits * 10 ^ n`, as `Number.prototype.toString` lays it out. -/
def layOut (digits : List Char) (n : ℤ) : List Char :=
  if digits.length ≤ n ∧ n ≤ 21 then digits ++ List.replicate (n - digits.length).toNat '0'
  else if 0 < n ∧ n ≤ 21 then digits.take n.toNat ++ '.' :: digits.drop n.toNat
  else if -6 < n ∧ n ≤ 0 then '0' :: '.' :: (List.replicate (-n).toNat '0' ++ digits)
  else
    digits.take 1 ++ (if digits.length = 1 then [] else '.' :: digits.drop 1) ++
      'e' :: (if n ≤ 0 then '-' else '+') :: Nat.toDigits 10 (n - 1).natAbs

/-- `Number.prototype.toString` of a double. -/
def numberToString (x : ℚ) : String :=
  if x = 0 then "0"
  else
    let (coefficient, exponent) := shortestDecimal x
    let digits := Nat.toDigits 10 coefficient
    let text := layOut (digits.rdropWhile (· = '0')) (digits.length + exponent)
    String.ofList (if x < 0 then '-' :: text else text)

/-! ## A double reads as itself -/

/-- A whole multiple of the last bit of a double, or of more, is that double. -/
theorem toDouble_of_multiple {x : ℚ} {n : ℤ} (hx : x = n * 2 ^ lastBit x) (hfinite : |x| < 2 ^ 1024) :
    toDouble x = some x := by
  have hscale : x / 2 ^ lastBit x = n := by
    rw [div_eq_iff (zpow_ne_zero _ (by norm_num))]
    exact hx
  rw [toDouble, hscale, roundHalfEven_intCast, ← hx, if_pos hfinite]

theorem abs_roundHalfEven_le {q : ℚ} {bound : ℤ} (h : |q| < bound) : |roundHalfEven q| ≤ bound := by
  obtain ⟨hlow, hhigh⟩ := abs_lt.mp h
  have hfloor : -bound ≤ ⌊q⌋ := Int.le_floor.mpr (by push_cast; exact hlow.le)
  have hlt : ⌊q⌋ < bound := Int.floor_lt.mpr hhigh
  rw [abs_le, roundHalfEven]
  split
  · omega
  · split
    · omega
    · split <;> omega

theorem abs_lt_pow_lastBit (q : ℚ) : |q / 2 ^ lastBit q| < (2 ^ 53 : ℤ) := by
  have hpos : (0 : ℚ) < 2 ^ lastBit q := zpow_pos (by norm_num) _
  rw [abs_div, abs_of_pos hpos, div_lt_iff₀ hpos]
  push_cast
  calc |q| < 2 ^ (Int.log 2 |q| + 1) := Int.lt_zpow_succ_log_self (by norm_num) _
    _ ≤ 2 ^ (53 + lastBit q) := zpow_le_zpow_right₀ (by norm_num) (by rw [lastBit]; omega)
    _ = 2 ^ 53 * 2 ^ lastBit q := by
      rw [zpow_add₀ (by norm_num)]
      norm_cast

/-- A double is a whole multiple of the last bit of what it was rounded from. -/
theorem exists_multiple {q x : ℚ} (h : toDouble q = some x) :
    ∃ n : ℤ, x = n * 2 ^ lastBit q ∧ |n| ≤ 2 ^ 53 ∧ |x| < 2 ^ 1024 := by
  rw [toDouble] at h
  obtain ⟨hfinite, hround⟩ := Option.ite_none_right_eq_some.mp h
  obtain rfl := Option.some.inj hround
  exact ⟨_, rfl, abs_roundHalfEven_le (abs_lt_pow_lastBit q), hfinite⟩

/-- A double read again is itself. -/
theorem toDouble_toDouble {q x : ℚ} (h : toDouble q = some x) : toDouble x = some x := by
  obtain ⟨n, hx, hbound, hfinite⟩ := exists_multiple h
  have hbase : (2 : ℚ) ≠ 0 := by norm_num
  have hbit : (0 : ℚ) < 2 ^ lastBit q := zpow_pos (by norm_num) _
  rcases eq_or_ne x 0 with rfl | hzero
  · exact toDouble_of_multiple (n := 0) (by simp) hfinite
  by_cases hle : lastBit x ≤ lastBit q
  · obtain ⟨k, hk⟩ := Int.eq_ofNat_of_zero_le (sub_nonneg.mpr hle)
    have hmultiple : x = ((n * 2 ^ k : ℤ) : ℚ) * 2 ^ lastBit x := by
      rw [show lastBit q = k + lastBit x by omega, zpow_add₀ hbase, zpow_natCast, ← mul_assoc] at hx
      push_cast
      exact hx
    exact toDouble_of_multiple hmultiple hfinite
  · -- rounding up to a power of two moves the last bit up by one
    have habs : |x| = |n| * 2 ^ lastBit q := by
      rw [hx, abs_mul, abs_of_pos hbit]
      push_cast
      rfl
    have hpow : ∀ k : ℕ, (2 : ℚ) ^ (k + lastBit q) = 2 ^ k * 2 ^ lastBit q := fun k => by
      rw [zpow_add₀ hbase, zpow_natCast]
    have hlog : Int.log 2 |x| < 54 + lastBit q := by
      rw [← Int.lt_zpow_iff_log_lt (by norm_num) (abs_pos.mpr hzero), habs]
      have hnat := hpow 54
      push_cast at hnat ⊢
      rw [hnat]
      have hn : ((|n| : ℤ) : ℚ) < 2 ^ 54 := by
        have hlt : |n| < 2 ^ 54 := by omega
        exact_mod_cast hlt
      push_cast at hn
      exact mul_lt_mul_of_pos_right hn hbit
    have hlast : lastBit x = lastBit q + 1 ∧ 53 + lastBit q ≤ Int.log 2 |x| := by
      rw [lastBit] at hle ⊢
      rw [lastBit] at hlog hle ⊢
      omega
    have hlow : (2 : ℚ) ^ 53 ≤ |(n : ℚ)| := by
      have hle := (Int.zpow_le_iff_le_log (b := 2) (by norm_num) (abs_pos.mpr hzero)).mpr hlast.2
      have hnat := hpow 53
      push_cast at hle hnat
      rw [habs, hnat] at hle
      push_cast at hle
      exact le_of_mul_le_mul_right hle hbit
    have hfull : |n| = 2 ^ 53 := by
      have hint : (2 : ℤ) ^ 53 ≤ |n| := by exact_mod_cast hlow
      omega
    have hdouble : ∃ m : ℤ, n = m * 2 := by
      rcases abs_eq (by norm_num) |>.mp hfull with rfl | rfl
      · exact ⟨2 ^ 52, by norm_num⟩
      · exact ⟨-2 ^ 52, by norm_num⟩
    obtain ⟨m, rfl⟩ := hdouble
    refine toDouble_of_multiple (n := m) ?_ hfinite
    rw [hlast.1, zpow_add₀ hbase, zpow_one, hx]
    push_cast
    ring

/-! ## The digits read back -/

/-- A multiple of a power of two has finitely many digits. -/
theorem signedDecimal_multiple {x : ℚ} {n b : ℤ} {places : ℕ} (hx : x = n * 2 ^ b)
    (hlow : -(places : ℤ) ≤ b) :
    signedDecimal x (x * 10 ^ places).num.natAbs (-places) = x := by
  obtain ⟨k, hk⟩ := Int.eq_ofNat_of_zero_le (show 0 ≤ b + places by omega)
  have hpos : (0 : ℚ) < 10 ^ places := by positivity
  have hint : x * 10 ^ places = ((n * 2 ^ k * 5 ^ places : ℤ) : ℚ) := by
    have hten : (10 : ℚ) ^ places = 2 ^ (places : ℤ) * 5 ^ places := by
      rw [show (10 : ℚ) = 2 * 5 by norm_num, mul_pow, zpow_natCast]
    rw [hx, hten, ← mul_assoc, mul_assoc (n : ℚ), ← zpow_add₀ (by norm_num), hk, zpow_natCast]
    push_cast
    rfl
  have hcoefficient : (((x * 10 ^ places).num.natAbs : ℕ) : ℚ) = |x * 10 ^ places| := by
    rw [hint, Rat.num_intCast, Nat.cast_natAbs]
    push_cast
    rfl
  have hcancel : (10 : ℚ) ^ places * (10 ^ places)⁻¹ = 1 := mul_inv_cancel₀ hpos.ne'
  rw [signedDecimal, hcoefficient, abs_mul, abs_of_pos hpos, zpow_neg, zpow_natCast, mul_assoc,
    mul_assoc, hcancel, mul_one]
  split
  case isTrue hneg => rw [abs_of_neg hneg, neg_one_mul, neg_neg]
  case isFalse hnonneg => rw [abs_of_nonneg (not_lt.mp hnonneg), one_mul]

theorem signedDecimal_exact {q x : ℚ} (h : toDouble q = some x) :
    signedDecimal x (exactDecimal x) (-1074) = x := by
  obtain ⟨n, hx, -, -⟩ := exists_multiple h
  exact signedDecimal_multiple hx (le_max_right _ _)

theorem reads_of_digitsThatRead {x : ℚ} {count : ℕ} {found : ℕ × ℤ}
    (h : digitsThatRead x count = some found) :
    toDouble (signedDecimal x found.1 found.2) = some x := by
  obtain ⟨coefficient, hfind, rfl⟩ := Option.map_eq_some_iff.mp h
  have hreads := List.find?_some hfind
  exact eq_of_beq hreads

/-- The digits of a double read as it. -/
theorem reads_shortestDecimal {x : ℚ} (h : toDouble x = some x) :
    toDouble (signedDecimal x (shortestDecimal x).1 (shortestDecimal x).2) = some x := by
  rw [shortestDecimal]
  cases hfound : ((List.range 17).map (· + 1)).findSome? (digitsThatRead x) with
  | some found =>
    obtain ⟨count, -, hcount⟩ := List.exists_of_findSome?_eq_some hfound
    exact reads_of_digitsThatRead hcount
  | none =>
    rw [Option.getD_none, signedDecimal_exact h]
    exact h

theorem shortestDecimal_ne_zero {x : ℚ} (h : toDouble x = some x) (hx : x ≠ 0) :
    (shortestDecimal x).1 ≠ 0 := by
  intro hzero
  have hreads := reads_shortestDecimal h
  rw [hzero, signedDecimal, Nat.cast_zero, mul_zero, zero_mul,
    toDouble_of_multiple (n := 0) (by simp) (by norm_num)] at hreads
  exact hx (Option.some.inj hreads).symm

end Turbopaneld.JavaScript
