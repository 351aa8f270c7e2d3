/-
# Hexadecimal text

How a non-negative `BigInt` is written in base sixteen and how such digits are read, in
either letter case.
-/

import Mathlib.Algebra.Ring.Nat
import Turbopaneld.JavaScript.Text

namespace Turbopaneld.JavaScript

/-- `[0-9A-Fa-f]`. -/
def isHexDigit (c : Char) : Bool :=
  isDigit c || ('a' ≤ c && c ≤ 'f') || ('A' ≤ c && c ≤ 'F')

/-- The value of a hexadecimal digit of either case. -/
def hexDigitValue (c : Char) : ℕ :=
  if isDigit c then c.toNat - '0'.toNat
  else if 'a' ≤ c then c.toNat - 'a'.toNat + 10
  else c.toNat - 'A'.toNat + 10

/-- The number that hexadecimal digits write. -/
def hexNumber (digits : List Char) : ℕ := digits.foldl (fun n c => 16 * n + hexDigitValue c) 0

/-- `n.toString(16).toUpperCase()`. -/
def upperHex (n : ℕ) : List Char := (Nat.toDigits 16 n).map Char.toUpper

theorem isHexDigit_of_isDigit {c : Char} (h : isDigit c = true) : isHexDigit c = true := by
  rw [isHexDigit, h]
  rfl

theorem isSpace_of_isHexDigit {c : Char} (h : isHexDigit c = true) : isSpace c = false := by
  have hcode : c.toNat < 128 := by
    simp only [isHexDigit, isDigit, Bool.or_eq_true, Bool.and_eq_true, decide_eq_true_eq] at h
    rcases h with (⟨-, hle⟩ | ⟨-, hle⟩) | ⟨-, hle⟩ <;>
      exact lt_of_le_of_lt (show c.toNat ≤ _ from hle) (by decide)
  have hall : ∀ n < 128, isHexDigit (Char.ofNat n) = true → isSpace (Char.ofNat n) = false := by
    decide
  have hchar := hall c.toNat hcode
  rw [Char.ofNat_toNat] at hchar
  exact hchar h

theorem hexDigit_upper :
    ∀ d < 16, isHexDigit (Nat.digitChar d).toUpper = true ∧
      hexDigitValue (Nat.digitChar d).toUpper = d := by
  decide

theorem hexNumber_append_singleton (digits : List Char) (c : Char) :
    hexNumber (digits ++ [c]) = 16 * hexNumber digits + hexDigitValue c := by
  rw [hexNumber, List.foldl_append]
  rfl

theorem upperHex_of_lt {n : ℕ} (hn : n < 16) : upperHex n = [(Nat.digitChar n).toUpper] := by
  rw [upperHex, Nat.toDigits_of_lt_base hn]
  rfl

theorem upperHex_of_le {n : ℕ} (hn : 16 ≤ n) :
    upperHex n = upperHex (n / 16) ++ [(Nat.digitChar (n % 16)).toUpper] := by
  rw [upperHex, Nat.toDigits_of_base_le (by decide) hn, List.map_append]
  rfl

/-- What is written is read back. -/
theorem hexNumber_upperHex (n : ℕ) : hexNumber (upperHex n) = n := by
  induction n using Nat.strong_induction_on with
  | _ n ih =>
    rcases lt_or_ge n 16 with hlt | hle
    · rw [upperHex_of_lt hlt]
      show 16 * 0 + _ = n
      rw [(hexDigit_upper n hlt).2, Nat.mul_zero, Nat.zero_add]
    · rw [upperHex_of_le hle, hexNumber_append_singleton, ih (n / 16) (by omega),
        (hexDigit_upper _ (Nat.mod_lt n (by decide))).2]
      exact Nat.div_add_mod n 16

theorem isHexDigit_of_mem_upperHex (n : ℕ) : ∀ c ∈ upperHex n, isHexDigit c = true := by
  induction n using Nat.strong_induction_on with
  | _ n ih =>
    rcases lt_or_ge n 16 with hlt | hle
    · rw [upperHex_of_lt hlt, List.forall_mem_singleton]
      exact (hexDigit_upper n hlt).1
    · rw [upperHex_of_le hle, List.forall_mem_append, List.forall_mem_singleton]
      exact ⟨ih (n / 16) (by omega), (hexDigit_upper _ (Nat.mod_lt n (by decide))).1⟩

theorem upperHex_ne_nil (n : ℕ) : upperHex n ≠ [] :=
  fun h => Nat.toDigits_ne_nil (List.map_eq_nil_iff.mp h)

/-- A number below `16 ^ k` takes at most `k` digits. -/
theorem length_upperHex_le {n k : ℕ} (hk : 0 < k) (hn : n < 16 ^ k) : (upperHex n).length ≤ k := by
  rw [upperHex, List.length_map]
  exact (Nat.length_toDigits_le_iff (by decide) hk).mpr hn

end Turbopaneld.JavaScript
