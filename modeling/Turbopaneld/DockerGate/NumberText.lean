/-
# The text of a number reads back

A number of a body is kept by its text.  What `JSON.stringify` writes for it depends only on the
double it reads as, and reads as the same double again.
-/

import Turbopaneld.DockerGate.Approval
import Turbopaneld.JavaScript.NumberText

namespace Turbopaneld.DockerGate

open JavaScript
open Json (decimal numberParts)

/-- What a number's text is as a number of the source's language. -/
inductive JsNumber
  | finite (value : ℚ)
  | infinite (negative : Bool)
deriving DecidableEq, Repr

/-- `Number(token)`. -/
def jsNumber (token : String) : JsNumber :=
  match numberOf token with
  | some value => .finite value
  | none => .infinite (token.toList.head? == some '-')

/-- `JSON.stringify` of a number: an infinite one is written as `null`. -/
def JsNumber.text : JsNumber → String
  | .finite value => numberToString value
  | .infinite _ => "null"

/-! ## The parts of a number's text -/

/-- The exponent part of a number's text, and the exponent. -/
def IsPower (power : List Char) (exponent : ℤ) : Prop :=
  power = [] ∧ exponent = 0 ∨
    (∃ digits, power = 'e' :: '-' :: digits ∧ exponent = -(decimal digits : ℤ)) ∨
    ∃ digits, power = 'e' :: '+' :: digits ∧ exponent = decimal digits

theorem takeWhile_append_of_head {p : Char → Bool} {front rest : List Char}
    (hfront : ∀ c ∈ front, p c = true) (hrest : ∀ c, rest.head? = some c → p c = false) :
    (front ++ rest).takeWhile p = front := by
  rw [List.takeWhile_append_of_pos hfront]
  cases rest with
  | nil => rw [List.takeWhile_nil, List.append_nil]
  | cons c rest => rw [List.takeWhile_cons_of_neg (by simp [hrest c rfl]), List.append_nil]

/-- The text of a number, taken apart. -/
theorem numberParts_written {sign whole point fraction power : List Char} {exponent : ℤ}
    (hsign : sign = [] ∨ sign = ['-']) (hwhole : whole ≠ [] ∧ ∀ c ∈ whole, c.isDigit = true)
    (hpoint : point = [] ∧ fraction = [] ∨ point = '.' :: fraction)
    (hfraction : ∀ c ∈ fraction, c.isDigit = true) (hpower : IsPower power exponent) :
    numberParts (String.ofList (sign ++ (whole ++ point ++ power))) =
      (decide (sign = ['-']), decimal (whole ++ fraction), exponent - fraction.length) := by
  have hdash : ∀ c ∈ whole, c ≠ '-' := fun c hc => digit_ne (hwhole.2 c hc) rfl
  have hnegative : ((sign ++ (whole ++ point ++ power)).head? == some '-') =
      decide (sign = ['-']) := by
    rcases hsign with rfl | rfl
    · obtain ⟨first, rest, rfl⟩ := List.exists_cons_of_ne_nil hwhole.1
      have hne : first ≠ '-' := hdash first List.mem_cons_self
      simp [hne]
    · rfl
  have hunsigned : (if decide (sign = ['-']) = true then (sign ++ (whole ++ point ++ power)).tail
      else sign ++ (whole ++ point ++ power)) = whole ++ point ++ power := by
    rcases hsign with rfl | rfl
    · rfl
    · rfl
  have hplain : ∀ c ∈ whole ++ point, (c ≠ 'e' && c ≠ 'E') = true := by
    have hdigit : ∀ c : Char, c.isDigit = true → (c ≠ 'e' && c ≠ 'E') = true := by
      intro c hc
      have he := digit_ne hc (show 'e'.isDigit = false by rfl)
      have hE := digit_ne hc (show 'E'.isDigit = false by rfl)
      simp [he, hE]
    intro c hc
    rcases List.mem_append.mp hc with hc | hc
    · exact hdigit c (hwhole.2 c hc)
    · rcases hpoint with ⟨rfl, -⟩ | rfl
      · cases hc
      · rcases List.mem_cons.mp hc with rfl | hc
        · rfl
        · exact hdigit c (hfraction c hc)
  have hcoefficient : (whole ++ point ++ power).takeWhile (fun c => c ≠ 'e' && c ≠ 'E') =
      whole ++ point := by
    refine takeWhile_append_of_head hplain fun c hc => ?_
    rcases hpower with ⟨rfl, -⟩ | ⟨digits, rfl, -⟩ | ⟨digits, rfl, -⟩
    · cases hc
    · obtain rfl := Option.some.inj hc
      rfl
    · obtain rfl := Option.some.inj hc
      rfl
  have hcut : (whole ++ point).takeWhile (fun c => decide (c ≠ '.')) = whole := by
    refine takeWhile_append_of_head (fun c hc => ?_) fun c hc => ?_
    · have hdot := digit_ne (hwhole.2 c hc) (show '.'.isDigit = false by rfl)
      simp [hdot]
    · rcases hpoint with ⟨rfl, -⟩ | rfl
      · cases hc
      · obtain rfl := Option.some.inj hc
        rfl
  have hrest : point.tail = fraction := by
    rcases hpoint with ⟨rfl, rfl⟩ | rfl
    · rfl
    · rfl
  rw [numberParts]
  simp only [String.toList_ofList, hnegative, hunsigned, hcoefficient, hcut, List.drop_left, hrest]
  rcases hpower with ⟨rfl, rfl⟩ | ⟨digits, rfl, rfl⟩ | ⟨digits, rfl, rfl⟩
  · rfl
  · rfl
  · rfl

/-! ## The value of a layout -/

theorem decimal_zero_cons (digits : List Char) : decimal ('0' :: digits) = decimal digits := rfl

theorem decimal_zeros (count : ℕ) (digits : List Char) :
    decimal (List.replicate count '0' ++ digits) = decimal digits := by
  induction count with
  | zero => rfl
  | succ count ih => rw [List.replicate_succ, List.cons_append, decimal_zero_cons, ih]

theorem decimal_append_zeros (digits : List Char) (count : ℕ) :
    decimal (digits ++ List.replicate count '0') = decimal digits * 10 ^ count := by
  induction count with
  | zero => rw [List.replicate_zero, List.append_nil, pow_zero, mul_one]
  | succ count ih =>
    rw [decimal] at ih ⊢
    rw [List.replicate_succ', ← List.append_assoc, List.foldl_append, ih, List.foldl_cons,
      List.foldl_nil, decimal, pow_succ]
    have hzero : '0'.toNat - 48 = 0 := rfl
    rw [hzero]
    ring

theorem isDigit_of_mem_zeros {count : ℕ} {c : Char} (h : c ∈ List.replicate count '0') :
    c.isDigit = true := by
  rw [List.eq_of_mem_replicate h]
  rfl

/-- The exponent that a layout writes. -/
theorem isPower_layOut {n : ℤ} (hrange : 21 < n ∨ n ≤ -6) :
    IsPower ('e' :: (if n ≤ 0 then '-' else '+') :: Nat.toDigits 10 (n - 1).natAbs) (n - 1) := by
  by_cases hn : n ≤ 0
  · rw [if_pos hn]
    refine .inr (.inl ⟨_, rfl, ?_⟩)
    rw [decimal_toDigits]
    omega
  · rw [if_neg hn]
    refine .inr (.inr ⟨_, rfl, ?_⟩)
    rw [decimal_toDigits]
    omega

/-- A layout reads as its digits behind the point, moved to where it puts them. -/
theorem numberParts_layOut {sign digits : List Char} {n : ℤ} (hsign : sign = [] ∨ sign = ['-'])
    (hne : digits ≠ []) (hdigits : ∀ c ∈ digits, c.isDigit = true) :
    ∃ coefficient exponent, numberParts (String.ofList (sign ++ layOut digits n)) =
        (decide (sign = ['-']), coefficient, exponent) ∧
      (coefficient : ℚ) * 10 ^ exponent = decimal digits * 10 ^ (n - digits.length) := by
  have hlength : 0 < digits.length := List.length_pos_of_ne_nil hne
  have hnopower : IsPower [] 0 := .inl ⟨rfl, rfl⟩
  have hempty : ∀ c ∈ ([] : List Char), c.isDigit = true := nofun
  have htake : ∀ k, ∀ c ∈ digits.take k, c.isDigit = true := fun k c hc =>
    hdigits c (List.mem_of_mem_take hc)
  have hdrop : ∀ k, ∀ c ∈ digits.drop k, c.isDigit = true := fun k c hc =>
    hdigits c (List.mem_of_mem_drop hc)
  have hten : (10 : ℚ) ≠ 0 := by norm_num
  rw [layOut]
  split
  case isTrue hwhole =>
    obtain ⟨k, hk⟩ := Int.eq_ofNat_of_zero_le (sub_nonneg.mpr hwhole.1)
    have htext : digits ++ List.replicate (n - digits.length).toNat '0' =
        digits ++ List.replicate k '0' ++ [] ++ [] := by
      rw [hk, Int.toNat_natCast, List.append_nil, List.append_nil]
    rw [htext]
    refine ⟨_, _, numberParts_written hsign ⟨List.append_ne_nil_of_left_ne_nil hne _, ?_⟩
      (.inl ⟨rfl, rfl⟩) hempty hnopower, ?_⟩
    · exact fun c hc => (List.mem_append.mp hc).elim (hdigits c) isDigit_of_mem_zeros
    · rw [List.append_nil, decimal_append_zeros, hk, zpow_natCast]
      push_cast
      simp
  case isFalse hwhole =>
    split
    case isTrue hpoint =>
      obtain ⟨k, rfl⟩ := Int.eq_ofNat_of_zero_le hpoint.1.le
      have hk : 0 < k := by exact_mod_cast hpoint.1
      have hlt : k < digits.length := by omega
      have htext : digits.take (k : ℤ).toNat ++ '.' :: digits.drop (k : ℤ).toNat =
          digits.take k ++ '.' :: digits.drop k ++ [] := by
        rw [Int.toNat_natCast, List.append_nil]
      have hfront : digits.take k ≠ [] := by
        rw [Ne, List.take_eq_nil_iff]
        rintro (hzero | hnil)
        · omega
        · exact hne hnil
      rw [htext]
      refine ⟨_, _, numberParts_written hsign ⟨hfront, htake k⟩ (.inr rfl) (hdrop k) hnopower, ?_⟩
      rw [List.take_append_drop, List.length_drop, Nat.cast_sub hlt.le]
      congr 2
      ring
    case isFalse hpoint =>
      split
      case isTrue hsmall =>
        obtain ⟨k, hk⟩ := Int.eq_ofNat_of_zero_le (neg_nonneg.mpr hsmall.2)
        have htext : '0' :: '.' :: (List.replicate (-n).toNat '0' ++ digits) =
            ['0'] ++ '.' :: (List.replicate k '0' ++ digits) ++ [] := by
          rw [hk, Int.toNat_natCast, List.append_nil]
          rfl
        rw [htext]
        refine ⟨_, _, numberParts_written hsign ⟨List.cons_ne_nil _ _, ?_⟩ (.inr rfl) ?_ hnopower, ?_⟩
        · exact List.forall_mem_singleton.mpr rfl
        · exact fun c hc => (List.mem_append.mp hc).elim isDigit_of_mem_zeros (hdigits c)
        · rw [List.singleton_append, decimal_zero_cons, decimal_zeros, List.length_append,
            List.length_replicate]
          congr 2
          push_cast
          omega
      case isFalse hsmall =>
        have hpower := isPower_layOut (n := n) (by omega)
        have hone : digits.take 1 ≠ [] := by
          rw [Ne, List.take_eq_nil_iff]
          rintro (hzero | hnil)
          · cases hzero
          · exact hne hnil
        by_cases hsingle : digits.length = 1
        · rw [if_pos hsingle]
          refine ⟨_, _, numberParts_written hsign ⟨hone, htake 1⟩ (.inl ⟨rfl, rfl⟩) hempty hpower, ?_⟩
          rw [List.append_nil, List.take_of_length_le hsingle.le, hsingle]
          simp
        · rw [if_neg hsingle]
          refine ⟨_, _, numberParts_written hsign ⟨hone, htake 1⟩ (.inr rfl) (hdrop 1) hpower, ?_⟩
          rw [List.take_append_drop, List.length_drop, Nat.cast_sub hlength]
          congr 2
          push_cast
          ring

/-! ## Reading a number's text -/

theorem exists_zeros (digits : List Char) : ∃ count,
    digits = digits.rdropWhile (· = '0') ++ List.replicate count '0' := by
  induction digits using List.reverseRecOn with
  | nil => exact ⟨0, rfl⟩
  | append_singleton digits c ih =>
    by_cases hc : c = '0'
    · obtain ⟨count, hcount⟩ := ih
      refine ⟨count + 1, ?_⟩
      rw [List.rdropWhile_concat_pos (· = '0') _ _ (decide_eq_true hc), List.replicate_succ',
        ← List.append_assoc, ← hcount, hc]
    · refine ⟨0, ?_⟩
      rw [List.rdropWhile_concat_neg (· = '0') _ _ (by simp [hc]), List.replicate_zero, List.append_nil]

/-- Zeros at the end of the digits of a coefficient make it ten times larger each. -/
theorem value_stripped (coefficient : ℕ) (exponent : ℤ) :
    (coefficient : ℚ) * 10 ^ exponent =
      decimal ((Nat.toDigits 10 coefficient).rdropWhile (· = '0')) *
        10 ^ ((Nat.toDigits 10 coefficient).length + exponent -
          ((Nat.toDigits 10 coefficient).rdropWhile (· = '0')).length) := by
  obtain ⟨count, hcount⟩ := exists_zeros (Nat.toDigits 10 coefficient)
  have hdecimal := congrArg decimal hcount
  have hlength := congrArg List.length hcount
  rw [decimal_toDigits, decimal_append_zeros] at hdecimal
  rw [List.length_append, List.length_replicate] at hlength
  have hmoved : ((Nat.toDigits 10 coefficient).length : ℤ) + exponent -
      ((Nat.toDigits 10 coefficient).rdropWhile (· = '0')).length = count + exponent := by
    omega
  rw [hmoved, zpow_add₀ (by norm_num), zpow_natCast, ← mul_assoc]
  congr 1
  exact_mod_cast hdecimal

/-- The digits and the exponent of a number that is not zero, as they are laid out. -/
structure LaidOut (x : ℚ) (digits : List Char) (n : ℤ) : Prop where
  text : numberToString x = String.ofList ((if x < 0 then ['-'] else []) ++ layOut digits n)
  ne_nil : digits ≠ []
  isDigit : ∀ c ∈ digits, c.isDigit = true
  value : ((shortestDecimal x).1 : ℚ) * 10 ^ (shortestDecimal x).2 =
    decimal digits * 10 ^ (n - digits.length)

theorem exists_laidOut {x : ℚ} (h : toDouble x = some x) (hx : x ≠ 0) :
    ∃ digits n, LaidOut x digits n := by
  refine ⟨(Nat.toDigits 10 (shortestDecimal x).1).rdropWhile (· = '0'),
    (Nat.toDigits 10 (shortestDecimal x).1).length + (shortestDecimal x).2, ?_, ?_, ?_,
    value_stripped _ _⟩
  · rw [numberToString, if_neg hx]
    dsimp only
    split
    · rfl
    · rfl
  · intro hnil
    obtain ⟨count, hcount⟩ := exists_zeros (Nat.toDigits 10 (shortestDecimal x).1)
    have hdecimal := congrArg decimal hcount
    rw [decimal_toDigits, decimal_append_zeros, hnil] at hdecimal
    exact shortestDecimal_ne_zero h hx (hdecimal.trans (Nat.zero_mul _))
  · intro c hc
    exact Nat.isDigit_of_mem_toDigits (by omega) (by omega)
      ((List.rdropWhile_prefix _ _).subset hc)

/-- The text of a double reads as it. -/
theorem numberOf_numberToString {x : ℚ} (h : toDouble x = some x) :
    numberOf (numberToString x) = some x := by
  rcases eq_or_ne x 0 with rfl | hx
  · rw [numberToString, if_pos rfl]
    have hzero : numberParts "0" = (false, 0, 0) := by decide
    rw [numberOf, hzero]
    simpa using toDouble_of_safe (n := 0) (by decide)
  · obtain ⟨digits, n, htext, hne, hdigits, hvalue⟩ := exists_laidOut h hx
    have hsign : (if x < 0 then ['-'] else []) = [] ∨ (if x < 0 then ['-'] else []) = ['-'] := by
      split
      · exact .inr rfl
      · exact .inl rfl
    obtain ⟨coefficient, exponent, hparts, hsame⟩ := numberParts_layOut (n := n) hsign hne hdigits
    have hreads := reads_shortestDecimal h
    have hnegative : decide ((if x < 0 then ['-'] else []) = ['-']) = decide (x < 0) := by
      by_cases hneg : x < 0
      · simp [hneg]
      · simp [hneg]
    rw [signedDecimal, mul_assoc, hvalue, ← hsame, ← mul_assoc] at hreads
    rw [numberOf, htext, hparts, hnegative]
    simpa using hreads

/-- A character of a number's text. -/
def isNumberChar (c : Char) : Bool :=
  c.isDigit || c == '-' || c == '+' || c == '.' || c == 'e'

theorem isNumberChar_of_mem_layOut {digits : List Char} {n : ℤ}
    (hdigits : ∀ c ∈ digits, c.isDigit = true) : ∀ c ∈ layOut digits n, isNumberChar c = true := by
  have hdigit : ∀ c : Char, c.isDigit = true → isNumberChar c = true := fun c hc => by
    simp [isNumberChar, hc]
  intro c hc
  rw [layOut] at hc
  split at hc
  · rcases List.mem_append.mp hc with hc | hc
    · exact hdigit c (hdigits c hc)
    · exact hdigit c (isDigit_of_mem_zeros hc)
  · split at hc
    · rcases List.mem_append.mp hc with hc | hc
      · exact hdigit c (hdigits c (List.mem_of_mem_take hc))
      · rcases List.mem_cons.mp hc with rfl | hc
        · rfl
        · exact hdigit c (hdigits c (List.mem_of_mem_drop hc))
    · split at hc
      · rcases List.mem_cons.mp hc with rfl | hc
        · rfl
        · rcases List.mem_cons.mp hc with rfl | hc
          · rfl
          · rcases List.mem_append.mp hc with hc | hc
            · exact hdigit c (isDigit_of_mem_zeros hc)
            · exact hdigit c (hdigits c hc)
      · rcases List.mem_append.mp hc with hc | hc
        · rcases List.mem_append.mp hc with hc | hc
          · exact hdigit c (hdigits c (List.mem_of_mem_take hc))
          · split at hc
            · cases hc
            · rcases List.mem_cons.mp hc with rfl | hc
              · rfl
              · exact hdigit c (hdigits c (List.mem_of_mem_drop hc))
        · rcases List.mem_cons.mp hc with rfl | hc
          · rfl
          · rcases List.mem_cons.mp hc with rfl | hc
            · split
              · rfl
              · rfl
            · exact hdigit c (Nat.isDigit_of_mem_toDigits (by omega) (by omega) hc)

theorem layOut_ne_nil {digits : List Char} {n : ℤ} (hne : digits ≠ []) : layOut digits n ≠ [] := by
  rw [layOut]
  split
  · exact List.append_ne_nil_of_left_ne_nil hne _
  · split
    · exact List.append_ne_nil_of_right_ne_nil _ (List.cons_ne_nil _ _)
    · split
      · exact List.cons_ne_nil _ _
      · exact List.append_ne_nil_of_right_ne_nil _ (List.cons_ne_nil _ _)

theorem isNumberChar_of_mem_numberToString {x : ℚ} (h : toDouble x = some x) :
    ∀ c ∈ (numberToString x).toList, isNumberChar c = true := by
  rcases eq_or_ne x 0 with rfl | hx
  · rw [numberToString, if_pos rfl]
    exact List.all_eq_true.mp (by decide)
  · obtain ⟨digits, n, htext, -, hdigits, -⟩ := exists_laidOut h hx
    rw [htext, String.toList_ofList]
    intro c hc
    rcases List.mem_append.mp hc with hc | hc
    · split at hc
      · rw [List.mem_singleton.mp hc]
        rfl
      · cases hc
    · exact isNumberChar_of_mem_layOut hdigits c hc

theorem numberToString_ne_nil {x : ℚ} (h : toDouble x = some x) :
    (numberToString x).toList ≠ [] := by
  rcases eq_or_ne x 0 with rfl | hx
  · rw [numberToString, if_pos rfl]
    exact nofun
  · obtain ⟨digits, n, htext, hne, -, -⟩ := exists_laidOut h hx
    rw [htext, String.toList_ofList]
    exact List.append_ne_nil_of_right_ne_nil _ (layOut_ne_nil hne)

/-- Numbers are written alike exactly when they are one number. -/
theorem numberToString_inj {x y : ℚ} (hx : toDouble x = some x) (hy : toDouble y = some y)
    (h : numberToString x = numberToString y) : x = y := by
  have hreads := numberOf_numberToString hx
  rw [h, numberOf_numberToString hy] at hreads
  exact (Option.some.inj hreads).symm

end Turbopaneld.DockerGate
