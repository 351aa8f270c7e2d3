/-
# Address literals and their values

What the checks of IPv4 and IPv6 literals accept, described by the texts themselves: octets,
groups of hexadecimal digits, at most one gap.  The value of a text is that of its octets and
groups, and the integers the code works with are these values.
-/

import Mathlib.Data.Nat.Digits.Lemmas
import Mathlib.Data.Set.Basic
import Turbopaneld.Firewall.Contract

namespace Turbopaneld.Firewall

open JavaScript

/-! ## Decimal numbers -/

theorem decimalNumber_concat (digits : List Char) (c : Char) :
    decimalNumber (digits ++ [c]) = 10 * decimalNumber digits + (c.toNat - '0'.toNat) := by
  rw [decimalNumber, Nat.ofDigitChars_append, Nat.ofDigitChars_cons, Nat.ofDigitChars_nil]
  rfl

theorem digit_of_isDigit {c : Char} (h : isDigit c = true) :
    c.toNat - '0'.toNat < 10 ∧ Nat.digitChar (c.toNat - '0'.toNat) = c := by
  rw [isDigit, Bool.and_eq_true, decide_eq_true_eq, decide_eq_true_eq] at h
  have hlow : '0'.toNat ≤ c.toNat := h.1
  have hhigh : c.toNat ≤ '9'.toNat := h.2
  have hall : ∀ n < 58, 48 ≤ n → Nat.digitChar (n - 48) = Char.ofNat n := by decide
  have hchar := hall c.toNat (Nat.lt_succ_of_le hhigh) hlow
  rw [Char.ofNat_toNat] at hchar
  exact ⟨by
    have h57 : '9'.toNat = 57 := rfl
    have h48 : '0'.toNat = 48 := rfl
    omega, hchar⟩

/-- Digits without a leading zero are how their number is written. -/
theorem toDigits_decimalNumber {digits : List Char} (hne : digits ≠ [])
    (hall : ∀ c ∈ digits, isDigit c = true) (hhead : digits = ['0'] ∨ digits.head? ≠ some '0') :
    Nat.toDigits 10 (decimalNumber digits) = digits := by
  induction digits using List.reverseRecOn with
  | nil => exact absurd rfl hne
  | append_singleton front last ih =>
    rw [List.forall_mem_append, List.forall_mem_singleton] at hall
    obtain ⟨hlt, hlast⟩ := digit_of_isDigit hall.2
    rw [decimalNumber_concat]
    cases front with
    | nil =>
      rw [decimalNumber, Nat.ofDigitChars_nil, Nat.mul_zero, Nat.zero_add,
        Nat.toDigits_of_lt_base hlt, hlast]
      rfl
    | cons first rest =>
      have hfirst : first ≠ '0' := by
        rintro rfl
        rcases hhead with heq | hnot
        · cases List.append_eq_nil_iff.mp (List.cons.inj heq).2 |>.2
        · exact hnot rfl
      have hfront := ih (List.cons_ne_nil first rest) hall.1
        (.inr fun h => hfirst (Option.some.inj h))
      have hpos : decimalNumber (first :: rest) ≠ 0 := by
        intro hzero
        rw [hzero] at hfront
        exact hfirst (List.cons.inj hfront).1.symm
      rw [Nat.toDigits_of_base_le (by decide) (by omega), Nat.mul_add_div (by decide),
        Nat.div_eq_of_lt hlt, Nat.add_zero, hfront, Nat.mul_add_mod, Nat.mod_eq_of_lt hlt, hlast]

/-! ## Four octets -/

/-- The octets of an IPv4 address. -/
structure Quad where
  (a b c d : Fin 256)
deriving DecidableEq

namespace Quad

def parts (q : Quad) : List String :=
  [toString q.a.val, toString q.b.val, toString q.c.val, toString q.d.val]

/-- The standard text: the octets in decimal, joined by dots. -/
def text (q : Quad) : String := (String.singleton '.').intercalate q.parts

def value (q : Quad) : ℕ := q.a.val * 2 ^ 24 + q.b.val * 2 ^ 16 + q.c.val * 2 ^ 8 + q.d.val

/-- The octets as two hextets. -/
def hextets (q : Quad) : List ℕ := [q.a.val * 256 + q.b.val, q.c.val * 256 + q.d.val]

theorem value_lt (q : Quad) : q.value < 2 ^ 32 := by
  have := q.a.isLt
  have := q.b.isLt
  have := q.c.isLt
  have := q.d.isLt
  rw [value]
  omega

end Quad

theorem digitChar_ne_zero : ∀ n < 10, 0 < n → Nat.digitChar n ≠ '0' := by decide

/-- A positive number is written without a leading zero. -/
theorem head?_toDigits_ne {n : ℕ} (hn : 0 < n) : (Nat.toDigits 10 n).head? ≠ some '0' := by
  induction n using Nat.strong_induction_on with
  | _ n ih =>
    rcases lt_or_ge n 10 with hlt | hle
    · rw [Nat.toDigits_of_lt_base hlt, List.head?_cons]
      exact fun h => digitChar_ne_zero n hlt hn (Option.some.inj h)
    · rw [Nat.toDigits_of_base_le (by decide) hle,
        List.head?_append_of_ne_nil _ Nat.toDigits_ne_nil]
      exact ih (n / 10) (by omega) (by omega)

theorem isOctet_toString {n : ℕ} (hn : n < 256) : isOctet (toString n) = true := by
  have hlength : (Nat.toDigits 10 n).length ≤ 3 :=
    (Nat.length_toDigits_le_iff (by decide) (by decide)).mpr (by omega)
  have hpos : 1 ≤ (Nat.toDigits 10 n).length := Nat.length_toDigits_pos
  have hhead : toString n = "0" ∨ (toString n).toList.head? ≠ some '0' := by
    rcases Nat.eq_zero_or_pos n with rfl | hpositive
    · exact .inl rfl
    · rw [toList_toString]
      exact .inr (head?_toDigits_ne hpositive)
  rw [isOctet, isDigits, List.all_eq_true.mpr (isDigit_of_mem_toString n), decimalNumber_toString,
    Bool.and_eq_true, Bool.and_eq_true, Bool.and_eq_true, Bool.and_eq_true, Bool.or_eq_true,
    decide_eq_true_eq, decide_eq_true_eq, decide_eq_true_eq, decide_eq_true_eq, decide_eq_true_eq,
    toList_toString]
  rw [toList_toString] at hhead
  exact ⟨⟨⟨⟨hpos, hlength⟩, rfl⟩, hhead⟩, Nat.le_of_lt_succ hn⟩

theorem isOctet_iff {octet : String} :
    isOctet octet = true ↔ ∃ n : Fin 256, toString n.val = octet := by
  constructor
  · intro h
    simp only [isOctet, isDigits, Bool.and_eq_true, Bool.or_eq_true, decide_eq_true_eq] at h
    obtain ⟨⟨⟨⟨hlength, -⟩, hall⟩, hhead⟩, hle⟩ := h
    refine ⟨⟨decimalNumber octet.toList, Nat.lt_succ_of_le hle⟩, ?_⟩
    rw [← String.toList_inj, toList_toString]
    refine toDigits_decimalNumber (List.ne_nil_of_length_pos hlength) (List.all_eq_true.mp hall) ?_
    refine hhead.imp ?_ id
    rintro rfl
    rfl
  · rintro ⟨n, rfl⟩
    exact isOctet_toString n.isLt

theorem notMem_toString {c : Char} (hc : isDigit c = false) (n : ℕ) : c ∉ (toString n).toList := by
  intro hmem
  rw [isDigit_of_mem_toString n c hmem] at hc
  cases hc

theorem split_quad (q : Quad) : split '.' q.text = q.parts := by
  refine split_intercalate ?_ (List.cons_ne_nil _ _)
  intro part hpart
  simp only [Quad.parts, List.mem_cons, List.not_mem_nil, or_false] at hpart
  rcases hpart with rfl | rfl | rfl | rfl <;> exact notMem_toString rfl _

/-- The literals the check accepts are the standard texts of octets. -/
theorem isValidIpv4Literal_iff {value : String} :
    isValidIpv4Literal value = true ↔ ∃ q : Quad, q.text = value := by
  constructor
  · intro h
    rw [isValidIpv4Literal, isIpv4Shape, Bool.and_eq_true, Bool.and_eq_true, decide_eq_true_eq] at h
    obtain ⟨⟨hlength, -⟩, hoctets⟩ := h
    obtain ⟨o₁, o₂, o₃, o₄, hparts⟩ := List.length_eq_four.mp hlength
    simp only [hparts, List.all_cons, List.all_nil, Bool.and_true, Bool.and_eq_true] at hoctets
    obtain ⟨a, rfl⟩ := isOctet_iff.mp hoctets.1
    obtain ⟨b, rfl⟩ := isOctet_iff.mp hoctets.2.1
    obtain ⟨c, rfl⟩ := isOctet_iff.mp hoctets.2.2.1
    obtain ⟨d, rfl⟩ := isOctet_iff.mp hoctets.2.2.2
    refine ⟨⟨a, b, c, d⟩, ?_⟩
    rw [Quad.text, Quad.parts, ← hparts, intercalate_split]
  · rintro ⟨q, rfl⟩
    have hoctets : ∀ part ∈ q.parts, isOctet part = true := by
      intro part hpart
      simp only [Quad.parts, List.mem_cons, List.not_mem_nil, or_false] at hpart
      rcases hpart with rfl | rfl | rfl | rfl <;> exact isOctet_iff.mpr ⟨_, rfl⟩
    have hshape : ∀ part ∈ q.parts, isDigits 1 3 part = true := by
      intro part hpart
      have hoctet := hoctets part hpart
      rw [isOctet, Bool.and_eq_true, Bool.and_eq_true] at hoctet
      exact hoctet.1.1
    rw [isValidIpv4Literal, isIpv4Shape, split_quad, List.all_eq_true.mpr hoctets,
      List.all_eq_true.mpr hshape]
    rfl

theorem ipv4ToBigInt_quad (q : Quad) : ipv4ToBigInt q.text = some q.value := by
  rw [ipv4ToBigInt, if_pos (isValidIpv4Literal_iff.mpr ⟨q, rfl⟩), split_quad, Quad.parts]
  simp only [List.foldl_cons, List.foldl_nil, decimalNumber_toString, Nat.shiftLeft_eq]
  refine congrArg some ?_
  rw [Quad.value, Nat.zero_mul, Nat.zero_add]
  omega

/-! ## Groups -/

/-- One to four hexadecimal digits. -/
structure Group where
  text : String
  length : 1 ≤ text.toList.length ∧ text.toList.length ≤ 4
  hex : ∀ c ∈ text.toList, isHexDigit c = true

def Group.value (g : Group) : ℕ := hexNumber g.text.toList

theorem isHextet_iff {part : String} : isHextet part = true ↔ ∃ g : Group, g.text = part := by
  rw [isHextet, Bool.and_eq_true, Bool.and_eq_true, decide_eq_true_eq, decide_eq_true_eq,
    List.all_eq_true]
  constructor
  · rintro ⟨hlength, hhex⟩
    exact ⟨⟨part, hlength, hhex⟩, rfl⟩
  · rintro ⟨g, rfl⟩
    exact ⟨g.length, g.hex⟩

theorem hexDigitValue_lt {c : Char} (h : isHexDigit c = true) : hexDigitValue c < 16 := by
  have hcode : c.toNat < 128 := by
    simp only [isHexDigit, isDigit, Bool.or_eq_true, Bool.and_eq_true, decide_eq_true_eq] at h
    rcases h with (⟨-, hle⟩ | ⟨-, hle⟩) | ⟨-, hle⟩ <;>
      exact lt_of_le_of_lt (show c.toNat ≤ _ from hle) (by decide)
  have hall : ∀ n < 128, isHexDigit (Char.ofNat n) = true → hexDigitValue (Char.ofNat n) < 16 := by
    decide
  have hchar := hall c.toNat hcode
  rw [Char.ofNat_toNat] at hchar
  exact hchar h

theorem hexNumber_lt {digits : List Char} (h : ∀ c ∈ digits, isHexDigit c = true) :
    hexNumber digits < 16 ^ digits.length := by
  induction digits using List.reverseRecOn with
  | nil => decide
  | append_singleton front last ih =>
    rw [List.forall_mem_append, List.forall_mem_singleton] at h
    have hfront := ih h.1
    have hlast := hexDigitValue_lt h.2
    rw [hexNumber_append_singleton, List.length_append, List.length_singleton, pow_succ]
    omega

theorem Group.value_lt (g : Group) : g.value < 65536 :=
  (hexNumber_lt g.hex).trans_le (Nat.pow_le_pow_right (by decide) g.length.2)

/-! ## Sides -/

/-- What stands on one side of a gap, or the whole of a text without one: groups, and at the
end an IPv4 text or none. -/
structure Side where
  groups : List Group
  quad : Option Quad

namespace Side

def parts (side : Side) : List String := side.groups.map Group.text ++ side.quad.toList.map Quad.text

def text (side : Side) : String := (String.singleton ':').intercalate side.parts

def hextets (side : Side) : List ℕ :=
  side.groups.map Group.value ++ side.quad.toList.flatMap Quad.hextets

end Side

theorem notMem_of_isHexDigit {c : Char} (hc : isHexDigit c = false) (g : Group) :
    c ∉ g.text.toList := by
  intro hmem
  rw [g.hex c hmem] at hc
  cases hc

theorem notMem_quad_text {c : Char} (hc : isDigit c = false) (hdot : c ≠ '.') (q : Quad) :
    c ∉ q.text.toList := by
  have hall : ∀ d ∈ q.text.toList, d ≠ c := by
    refine forall_mem_intercalate ?_ ?_
    · rw [String.toList_singleton, List.forall_mem_singleton]
      exact hdot.symm
    · intro part hpart d hd
      simp only [Quad.parts, List.mem_cons, List.not_mem_nil, or_false] at hpart
      rintro rfl
      rcases hpart with rfl | rfl | rfl | rfl <;> exact notMem_toString hc _ hd
  exact fun hmem => hall c hmem rfl

theorem dot_mem_quad_text (q : Quad) : '.' ∈ q.text.toList := by
  rw [Quad.text, Quad.parts, String.toList_intercalate, List.map_cons, List.map_cons,
    List.intercalate_cons_cons]
  simp

theorem includes_dot_iff {text : String} : includes text "." = true ↔ '.' ∈ text.toList := by
  rw [includes_iff]
  exact List.singleton_infix_iff '.' text.toList

/-- Parts of a side are not empty and have no colon. -/
theorem Side.of_mem_parts (side : Side) {part : String} (h : part ∈ side.parts) :
    part.toList ≠ [] ∧ ':' ∉ part.toList := by
  rcases List.mem_append.mp h with hgroup | hquad
  · obtain ⟨g, -, rfl⟩ := List.mem_map.mp hgroup
    exact ⟨List.ne_nil_of_length_pos g.length.1, notMem_of_isHexDigit rfl g⟩
  · obtain ⟨q, -, rfl⟩ := List.mem_map.mp hquad
    exact ⟨List.ne_nil_of_mem (dot_mem_quad_text q), notMem_quad_text rfl (by decide) q⟩

/-- What the count of the parts says: the parts are those of a side, of so many hextets. -/
theorem countHextets_eq_some_iff {parts : List String} {count : ℕ} :
    countHextets parts = some count ↔
      ∃ side : Side, side.parts = parts ∧ side.hextets.length = count := by
  constructor
  · intro h
    induction parts generalizing count with
    | nil => exact ⟨⟨[], none⟩, rfl, Option.some.inj h⟩
    | cons part rest ih =>
      rw [countHextets] at h
      split_ifs at h with hdot hlast hipv4 hhextet
      · rw [not_not] at hlast
        subst hlast
        obtain ⟨q, rfl⟩ := isValidIpv4Literal_iff.mp hipv4
        exact ⟨⟨[], some q⟩, rfl, Option.some.inj h⟩
      · obtain ⟨others, hothers, rfl⟩ := Option.map_eq_some_iff.mp h
        obtain ⟨side, rfl, rfl⟩ := ih hothers
        obtain ⟨g, rfl⟩ := isHextet_iff.mp hhextet
        exact ⟨⟨g :: side.groups, side.quad⟩, rfl, rfl⟩
  · rintro ⟨⟨groups, quad⟩, rfl, rfl⟩
    induction groups with
    | nil =>
      cases quad with
      | none => rfl
      | some q =>
        have hdot : includes q.text "." = true := includes_dot_iff.mpr (dot_mem_quad_text q)
        have hipv4 : isValidIpv4Literal q.text = true := isValidIpv4Literal_iff.mpr ⟨q, rfl⟩
        show countHextets [q.text] = some 2
        rw [countHextets, if_pos hdot, if_neg (by simp), if_pos hipv4]
    | cons g groups ih =>
      have hdot : ¬includes g.text "." = true :=
        fun h => notMem_of_isHexDigit rfl g (includes_dot_iff.mp h)
      show countHextets (g.text :: Side.parts ⟨groups, quad⟩) = _
      rw [countHextets, if_neg hdot, if_pos (isHextet_iff.mpr ⟨g, rfl⟩), ih]
      rfl

/-- The parts of a side expand to its hextets. -/
theorem foldlM_parts (side : Side) (front : List ℕ) :
    side.parts.foldlM (fun out part =>
      if includes part "." then
        (ipv4ToBigInt part).map fun v4 => out ++ [v4 >>> 16, v4 &&& 0xffff]
      else some (out ++ [hexNumber part.toList])) front = some (front ++ side.hextets) := by
  obtain ⟨groups, quad⟩ := side
  induction groups generalizing front with
  | nil =>
    cases quad with
    | none => simp [Side.parts, Side.hextets]
    | some q =>
      have hdot : includes q.text "." = true := includes_dot_iff.mpr (dot_mem_quad_text q)
      have hhigh : q.value >>> 16 = q.a.val * 256 + q.b.val := by
        have := q.c.isLt
        have := q.d.isLt
        rw [Nat.shiftRight_eq_div_pow, Quad.value]
        omega
      have hlow : q.value &&& 0xffff = q.c.val * 256 + q.d.val := by
        have := q.c.isLt
        have := q.d.isLt
        rw [show 0xffff = 2 ^ 16 - 1 from rfl, Nat.and_two_pow_sub_one_eq_mod, Quad.value]
        omega
      show (if includes q.text "." = true then
        (ipv4ToBigInt q.text).map fun v4 => front ++ [v4 >>> 16, v4 &&& 0xffff]
        else some (front ++ [hexNumber q.text.toList])) >>= _ = _
      rw [if_pos hdot, ipv4ToBigInt_quad, Option.map_some, hhigh, hlow]
      rfl
  | cons g groups ih =>
    have hdot : ¬includes g.text "." = true :=
      fun h => notMem_of_isHexDigit rfl g (includes_dot_iff.mp h)
    have hparts : Side.parts ⟨g :: groups, quad⟩ = g.text :: Side.parts ⟨groups, quad⟩ := rfl
    have hhextets : Side.hextets ⟨g :: groups, quad⟩ = g.value :: Side.hextets ⟨groups, quad⟩ := rfl
    rw [hparts, hhextets, List.foldlM_cons, if_neg hdot]
    refine (ih (front ++ [hexNumber g.text.toList])).trans ?_
    rw [List.append_assoc]
    rfl

theorem Side.text_eq_empty_iff {side : Side} : side.text = "" ↔ side.parts = [] := by
  constructor
  · intro h
    cases hparts : side.parts with
    | nil => rfl
    | cons part rest =>
      have hpart := Side.of_mem_parts side (hparts ▸ List.mem_cons_self)
      rw [Side.text, hparts, ← String.toList_inj, String.toList_intercalate] at h
      cases rest with
      | nil => exact absurd (by simpa using h) hpart.1
      | cons next rest => simp [List.intercalate_cons_cons] at h
  · intro h
    rw [Side.text, h]
    rfl

theorem split_side {side : Side} (h : side.text ≠ "") : split ':' side.text = side.parts :=
  split_intercalate (fun _ hpart => (Side.of_mem_parts _ hpart).2)
    fun hnil => h (Side.text_eq_empty_iff.mpr hnil)

/-- A side is parsed to the number of its hextets, and nothing else is parsed. -/
theorem parseSide_eq_some_iff {text : String} {count : ℕ} :
    parseSide text = some count ↔
      ∃ side : Side, side.text = text ∧ side.hextets.length = count := by
  rw [parseSide]
  split
  case isTrue hempty =>
    subst hempty
    constructor
    · intro h
      exact ⟨⟨[], none⟩, rfl, Option.some.inj h⟩
    · rintro ⟨side, htext, rfl⟩
      have hcount := countHextets_eq_some_iff.mpr ⟨side, rfl, rfl⟩
      rw [Side.text_eq_empty_iff.mp htext] at hcount
      exact hcount
  case isFalse hne =>
    rw [countHextets_eq_some_iff]
    constructor
    · rintro ⟨side, hparts, hcount⟩
      exact ⟨side, by rw [Side.text, hparts, intercalate_split], hcount⟩
    · rintro ⟨side, rfl, hcount⟩
      exact ⟨side, (split_side hne).symm, hcount⟩

theorem expandSide_side (side : Side) : expandSide side.text = some side.hextets := by
  rw [expandSide]
  split
  case isTrue hempty =>
    have hfold := foldlM_parts side []
    rw [Side.text_eq_empty_iff.mp hempty] at hfold
    exact hfold
  case isFalse hne =>
    rw [split_side hne]
    exact foldlM_parts side []

/-! ## Gaps -/

theorem splitDoubleColon_ne_nil (text : List Char) : splitDoubleColon text ≠ [] := by
  cases text using splitDoubleColon.fun_cases with
  | case1 => exact List.cons_ne_nil _ _
  | case2 rest =>
    rw [splitDoubleColon]
    exact List.cons_ne_nil _ _
  | case3 c rest hpair hnone =>
    rw [splitDoubleColon.eq_3 c rest hpair, hnone]
    exact List.cons_ne_nil _ _
  | case4 c rest hpair first others hsome =>
    rw [splitDoubleColon.eq_3 c rest hpair, hsome]
    exact List.cons_ne_nil _ _

/-- Away from a gap a character joins the part behind it. -/
theorem splitDoubleColon_cons {c : Char} {rest : List Char}
    (h : ∀ rest', c = ':' → rest = ':' :: rest' → False) :
    splitDoubleColon (c :: rest) = (splitDoubleColon rest).modifyHead (c :: ·) := by
  rw [splitDoubleColon.eq_3 c rest fun rest' => h rest']
  cases hsides : splitDoubleColon rest with
  | nil => exact absurd hsides (splitDoubleColon_ne_nil rest)
  | cons first others => rfl

theorem intercalate_splitDoubleColon (text : List Char) :
    [':', ':'].intercalate (splitDoubleColon text) = text := by
  induction text using splitDoubleColon.induct with
  | case1 => rfl
  | case2 rest ih =>
    obtain ⟨first, others, hsides⟩ := List.exists_cons_of_ne_nil (splitDoubleColon_ne_nil rest)
    rw [splitDoubleColon, hsides, List.intercalate_cons_cons, ← hsides, ih]
    rfl
  | case3 c rest hpair hnone ih => exact absurd hnone (splitDoubleColon_ne_nil rest)
  | case4 c rest hpair first others hsome ih =>
    rw [splitDoubleColon.eq_3 c rest hpair, hsome]
    rw [hsome] at ih
    cases others with
    | nil =>
      rw [List.intercalate_singleton] at ih ⊢
      rw [ih]
    | cons next others =>
      rw [List.intercalate_cons_cons] at ih ⊢
      rw [← ih]
      rfl

theorem modifyHead_nil_append {α : Type*} (lists : List (List α)) :
    lists.modifyHead ([] ++ ·) = lists := by
  cases lists <;> rfl

theorem splitDoubleColon_append_of_notMem {front : List Char} (hfront : ':' ∉ front)
    (rest : List Char) :
    splitDoubleColon (front ++ rest) = (splitDoubleColon rest).modifyHead (front ++ ·) := by
  induction front with
  | nil => exact (modifyHead_nil_append _).symm
  | cons c front ih =>
    rw [List.mem_cons, not_or] at hfront
    rw [List.cons_append, splitDoubleColon_cons fun _ hc _ => hfront.1 hc.symm, ih hfront.2,
      List.modifyHead_modifyHead]
    rfl

/-- The parts of a side, joined, lie on one side of a gap. -/
theorem splitDoubleColon_join {parts : List (List Char)}
    (hparts : ∀ part ∈ parts, part ≠ [] ∧ ':' ∉ part) (rest : List Char) :
    splitDoubleColon ([':'].intercalate parts ++ rest) =
      (splitDoubleColon rest).modifyHead ([':'].intercalate parts ++ ·) := by
  induction parts with
  | nil => exact (modifyHead_nil_append _).symm
  | cons part others ih =>
    obtain ⟨⟨-, hpart⟩, hothers⟩ := List.forall_mem_cons.mp hparts
    cases others with
    | nil =>
      rw [List.intercalate_singleton]
      exact splitDoubleColon_append_of_notMem hpart rest
    | cons next others =>
      obtain ⟨hne, hnext⟩ := hothers next List.mem_cons_self
      obtain ⟨c, tail, rfl⟩ := List.exists_cons_of_ne_nil hne
      have hc : c ≠ ':' := fun heq => hnext (heq ▸ List.mem_cons_self)
      have hhead : ∃ back, [':'].intercalate ((c :: tail) :: others) ++ rest = c :: back := by
        cases others with
        | nil => exact ⟨tail ++ rest, by simp [List.intercalate_singleton]⟩
        | cons _ _ =>
          rw [List.intercalate_cons_cons]
          exact ⟨_, rfl⟩
      obtain ⟨back, hback⟩ := hhead
      have hcolon : splitDoubleColon (':' :: ([':'].intercalate ((c :: tail) :: others) ++ rest)) =
          (splitDoubleColon ([':'].intercalate ((c :: tail) :: others) ++ rest)).modifyHead
            (':' :: ·) := by
        refine splitDoubleColon_cons ?_
        intro rest' _ heq
        rw [hback] at heq
        exact hc (List.cons.inj heq).1
      rw [List.intercalate_cons_cons, List.append_assoc, List.append_assoc,
        splitDoubleColon_append_of_notMem hpart, List.singleton_append, hcolon, ih hothers,
        List.modifyHead_modifyHead, List.modifyHead_modifyHead]
      simp [Function.comp_def]

theorem Side.toList_text (side : Side) :
    side.text.toList = [':'].intercalate (side.parts.map String.toList) := by
  rw [Side.text, String.toList_intercalate, String.toList_singleton]

theorem splitDoubleColon_side (side : Side) (rest : List Char) :
    splitDoubleColon (side.text.toList ++ rest) =
      (splitDoubleColon rest).modifyHead (side.text.toList ++ ·) := by
  rw [Side.toList_text]
  exact splitDoubleColon_join
    (List.forall_mem_map.mpr fun part hpart => Side.of_mem_parts _ hpart) rest

/-- A text in one part has no gap. -/
theorem not_infix_of_splitDoubleColon {text side : List Char} (h : splitDoubleColon text = [side]) :
    ¬[':', ':'] <:+: text := by
  induction text using splitDoubleColon.induct generalizing side with
  | case1 => simp
  | case2 rest ih =>
    rw [splitDoubleColon] at h
    exact absurd (List.cons.inj h).2 (splitDoubleColon_ne_nil rest)
  | case3 c rest hpair hnone ih => exact absurd hnone (splitDoubleColon_ne_nil rest)
  | case4 c rest hpair first others hsome ih =>
    rw [splitDoubleColon.eq_3 c rest hpair, hsome] at h
    obtain rfl := (List.cons.inj h).2
    rw [List.infix_cons_iff, not_or]
    refine ⟨?_, ih hsome⟩
    rintro ⟨back, hback⟩
    obtain ⟨rfl, rfl⟩ := List.cons.inj hback
    exact hpair back rfl rfl

/-- A text with one gap and three colons on end has a colon behind the gap. -/
theorem head_of_triple_colon {text left right : List Char}
    (h : splitDoubleColon text = [left, right]) (htriple : [':', ':', ':'] <:+: text) :
    right.head? = some ':' := by
  induction text using splitDoubleColon.induct generalizing left with
  | case1 => simp at htriple
  | case2 rest ih =>
    rw [splitDoubleColon] at h
    have hright : splitDoubleColon rest = [right] := (List.cons.inj h).2
    have hrest : rest = right := by
      have hjoin := intercalate_splitDoubleColon rest
      rw [hright, List.intercalate_singleton] at hjoin
      exact hjoin.symm
    have hnone := not_infix_of_splitDoubleColon hright
    rw [List.infix_cons_iff, List.infix_cons_iff] at htriple
    rcases htriple with ⟨back, hback⟩ | ⟨back, hback⟩ | hinside
    · rw [← hrest, (List.cons.inj (List.cons.inj hback).2).2.symm]
      rfl
    · have hcolons := (List.cons.inj hback).2
      rw [← hrest, ← hcolons]
      rfl
    · have hshort : [':', ':'] <:+: [':', ':', ':'] := ⟨[], [':'], rfl⟩
      exact absurd (hshort.trans hinside) hnone
  | case3 c rest hpair hnone ih => exact absurd hnone (splitDoubleColon_ne_nil rest)
  | case4 c rest hpair first others hsome ih =>
    rw [splitDoubleColon.eq_3 c rest hpair, hsome] at h
    obtain ⟨-, rfl⟩ := List.cons.inj h
    rw [List.infix_cons_iff] at htriple
    rcases htriple with ⟨back, hback⟩ | hinside
    · obtain ⟨rfl, rfl⟩ := List.cons.inj hback
      exact absurd rfl (hpair (':' :: back) rfl)
    · exact ih hsome hinside

/-! ## Texts of IPv6 addresses -/

/-- A text as the check accepts it: eight hextets, or a gap that stands for at least one. -/
inductive Ipv6Text
  | full (side : Side) (h : side.hextets.length = 8)
  | gap (left right : Side) (h : left.hextets.length + right.hextets.length < 8)

namespace Ipv6Text

def text : Ipv6Text → String
  | .full side _ => side.text
  | .gap left right _ => left.text ++ "::" ++ right.text

def hextets : Ipv6Text → List ℕ
  | .full side _ => side.hextets
  | .gap left right _ => left.hextets ++
      List.replicate (8 - left.hextets.length - right.hextets.length) 0 ++ right.hextets

/-- The number whose digits in base `2 ^ 16` are the hextets. -/
def value (a : Ipv6Text) : ℕ := Nat.ofDigits 65536 a.hextets.reverse

/-- The text is one of the forms of RFC 4291: an IPv4 text writes the last thirty-two bits only,
so none stands in front of a gap. -/
def Rfc4291 : Ipv6Text → Prop
  | .full _ _ => True
  | .gap left _ _ => left.quad = none

theorem length_hextets (a : Ipv6Text) : a.hextets.length = 8 := by
  cases a with
  | full side h => exact h
  | gap left right h =>
    rw [hextets, List.length_append, List.length_append, List.length_replicate]
    omega

end Ipv6Text

theorem Side.hextets_lt {side : Side} : ∀ hextet ∈ side.hextets, hextet < 65536 := by
  rw [Side.hextets, List.forall_mem_append, List.forall_mem_map]
  refine ⟨fun g _ => g.value_lt, ?_⟩
  intro hextet hmem
  obtain ⟨q, -, hq⟩ := List.mem_flatMap.mp hmem
  have := q.a.isLt
  have := q.b.isLt
  have := q.c.isLt
  have := q.d.isLt
  rcases List.mem_pair.mp hq with rfl | rfl <;> omega

theorem Ipv6Text.value_lt (a : Ipv6Text) : a.value < 2 ^ 128 := by
  have hlt : ∀ hextet ∈ a.hextets, hextet < 65536 := by
    cases a with
    | full side h => exact Side.hextets_lt
    | gap left right h =>
      rw [Ipv6Text.hextets, List.forall_mem_append, List.forall_mem_append]
      refine ⟨⟨Side.hextets_lt, ?_⟩, Side.hextets_lt⟩
      intro hextet hmem
      rw [List.eq_of_mem_replicate hmem]
      decide
  have hbound := Nat.ofDigits_lt_base_pow_length (b := 65536) (l := a.hextets.reverse) (by decide)
    fun hextet hmem => hlt hextet (List.mem_reverse.mp hmem)
  rw [List.length_reverse, a.length_hextets] at hbound
  exact hbound

theorem foldl_shift_eq_ofDigits (hextets : List ℕ) :
    hextets.foldl (fun out hextet => out <<< 16 + hextet) 0 = Nat.ofDigits 65536 hextets.reverse := by
  induction hextets using List.reverseRecOn with
  | nil => rfl
  | append_singleton front last ih =>
    rw [List.foldl_append, ih, List.foldl_cons, List.foldl_nil, List.reverse_append,
      List.reverse_singleton, List.singleton_append, Nat.ofDigits_cons, Nat.shiftLeft_eq]
    omega

/-- The parts of a text between its gaps. -/
theorem Ipv6Text.splitDoubleColon_text (a : Ipv6Text) :
    splitDoubleColon a.text.toList = match a with
      | .full side _ => [side.text.toList]
      | .gap left right _ => [left.text.toList, right.text.toList] := by
  cases a with
  | full side h =>
    have hside := splitDoubleColon_side side []
    rw [List.append_nil] at hside
    refine hside.trans ?_
    rw [splitDoubleColon, List.modifyHead_cons, List.append_nil]
  | gap left right h =>
    have hright := splitDoubleColon_side right []
    rw [List.append_nil] at hright
    have hgap : splitDoubleColon (':' :: ':' :: right.text.toList) = [[], right.text.toList] := by
      rw [splitDoubleColon, hright, splitDoubleColon, List.modifyHead_cons, List.append_nil]
    have htext : (Ipv6Text.gap left right h).text.toList =
        left.text.toList ++ ':' :: ':' :: right.text.toList := by
      rw [Ipv6Text.text, String.toList_append, String.toList_append, List.append_assoc]
      rfl
    rw [htext, splitDoubleColon_side left, hgap, List.modifyHead_cons,
      List.append_nil]

theorem Side.head_ne_colon (side : Side) : side.text.toList.head? ≠ some ':' := by
  rw [Side.toList_text]
  cases hparts : side.parts with
  | nil => simp
  | cons part rest =>
    obtain ⟨hne, hcolon⟩ := Side.of_mem_parts side (hparts ▸ List.mem_cons_self)
    obtain ⟨c, tail, hchars⟩ := List.exists_cons_of_ne_nil hne
    have hhead : ([':'].intercalate ((part :: rest).map String.toList)).head? = some c := by
      cases rest with
      | nil => rw [List.map_singleton, List.intercalate_singleton, hchars, List.head?_cons]
      | cons next rest =>
        rw [List.map_cons, List.map_cons, List.intercalate_cons_cons, hchars]
        rfl
    rw [hhead]
    intro heq
    rw [hchars, Option.some.inj heq] at hcolon
    exact hcolon List.mem_cons_self

theorem mem_intercalate_of_mem {α : Type*} {separator part : List α} {parts : List (List α)} {c : α}
    (hc : c ∈ part) (hpart : part ∈ parts) : c ∈ separator.intercalate parts := by
  induction parts with
  | nil => cases hpart
  | cons first rest ih =>
    cases rest with
    | nil =>
      rw [List.mem_singleton.mp hpart] at hc
      rwa [List.intercalate_singleton]
    | cons next rest =>
      rw [List.intercalate_cons_cons, List.mem_append, List.mem_append]
      rcases List.mem_cons.mp hpart with rfl | hmem
      · exact .inl (.inl hc)
      · exact .inr (ih hmem)

/-- Whether an IPv4 text stands on a side can be read off its characters. -/
theorem Side.dot_mem_iff {side : Side} : '.' ∈ side.text.toList ↔ side.quad ≠ none := by
  constructor
  · intro hdot hquad
    have hall : ∀ c ∈ side.text.toList, c ≠ '.' := by
      refine forall_mem_intercalate ?_ ?_
      · rw [String.toList_singleton, List.forall_mem_singleton]
        decide
      · intro part hpart
        rw [Side.parts, hquad] at hpart
        obtain ⟨g, -, rfl⟩ := List.mem_map.mp (by simpa using hpart)
        rintro c hc rfl
        exact notMem_of_isHexDigit rfl g hc
    exact hall '.' hdot rfl
  · intro hquad
    obtain ⟨q, hq⟩ := Option.ne_none_iff_exists'.mp hquad
    have hmem : q.text ∈ side.parts := by
      rw [Side.parts, hq]
      simp
    by_cases hne : side.text = ""
    · rw [Side.text_eq_empty_iff.mp hne] at hmem
      cases hmem
    · by_contra hdot
      have hpieces : ∀ c ∈ q.text.toList, c ∈ side.text.toList := by
        intro c hc
        rw [Side.toList_text]
        exact mem_intercalate_of_mem hc (List.mem_map_of_mem hmem)
      exact hdot (hpieces '.' (dot_mem_quad_text q))

/-! ## What the check accepts -/

theorem Ipv6Text.includes_colon (a : Ipv6Text) : includes a.text ":" = true := by
  rw [includes_iff]
  refine (List.singleton_infix_iff ':' a.text.toList).mpr ?_
  cases a with
  | full side h =>
    by_contra hnone
    -- Without a colon there is one part, and that stands for two hextets at most.
    have hparts : side.parts.length ≤ 1 := by
      by_cases hempty : side.text = ""
      · rw [Side.text_eq_empty_iff.mp hempty]
        decide
      · have hside : ':' ∉ side.text.toList := hnone
        rw [← split_side hempty, split_of_notMem hside]
        exact Nat.le_refl 1
    rw [Side.parts, List.length_append, List.length_map, List.length_map] at hparts
    rw [Side.hextets, List.length_append, List.length_map] at h
    cases hquad : side.quad with
    | none =>
      rw [hquad] at h hparts
      simp only [Option.toList_none, List.flatMap_nil, List.length_nil] at h hparts
      omega
    | some q =>
      rw [hquad] at h hparts
      simp only [Option.toList_some, List.flatMap_singleton, Quad.hextets, List.length_cons,
        List.length_nil] at h hparts
      omega
  | gap left right h =>
    rw [Ipv6Text.text, String.toList_append, String.toList_append]
    exact List.mem_append_left _ (List.mem_append_right _ List.mem_cons_self)

theorem Ipv6Text.isLiteralChar (a : Ipv6Text) : ∀ c ∈ a.text.toList, isLiteralChar c = true := by
  have hside : ∀ side : Side, ∀ c ∈ side.text.toList, Firewall.isLiteralChar c = true :=
    fun side => isLiteralChar_of_parseSide (parseSide_eq_some_iff.mpr ⟨side, rfl, rfl⟩)
  cases a with
  | full side h => exact hside side
  | gap left right h =>
    rw [Ipv6Text.text, String.toList_append, String.toList_append, List.forall_mem_append,
      List.forall_mem_append]
    exact ⟨⟨hside left, List.all_eq_true.mp (by decide)⟩, hside right⟩

theorem Ipv6Text.includes_percent (a : Ipv6Text) : includes a.text "%" = false := by
  rw [← Bool.not_eq_true, includes_iff]
  intro hinside
  exact absurd (a.isLiteralChar '%' (hinside.subset List.mem_cons_self)) (by decide)

theorem Ipv6Text.sides_fit (a : Ipv6Text) :
    (match (splitDoubleColon a.text.toList).map String.ofList with
      | [side] => parseSide side == some 8
      | [first, second] =>
        match parseSide first, parseSide second with
        | some left, some right => decide (left + right < 8)
        | _, _ => false
      | _ => false) = true := by
  rw [a.splitDoubleColon_text]
  cases a with
  | full side h =>
    have hside := parseSide_eq_some_iff.mpr ⟨side, rfl, h⟩
    simp only [List.map_cons, List.map_nil, String.ofList_toList, hside]
    rfl
  | gap left right h =>
    have hleft := parseSide_eq_some_iff.mpr ⟨left, rfl, rfl⟩
    have hright := parseSide_eq_some_iff.mpr ⟨right, rfl, rfl⟩
    simp only [List.map_cons, List.map_nil, String.ofList_toList, hleft, hright]
    exact decide_eq_true h

theorem Ipv6Text.isValidIpv6Literal (a : Ipv6Text) : isValidIpv6Literal a.text = true := by
  have htriple : includes a.text ":::" = false := by
    rw [← Bool.not_eq_true, includes_iff]
    have hsides := a.splitDoubleColon_text
    intro hinside
    cases a with
    | full side h =>
      have hshort : [':', ':'] <:+: ":::".toList := ⟨[], [':'], rfl⟩
      exact not_infix_of_splitDoubleColon hsides (hshort.trans hinside)
    | gap left right h => exact right.head_ne_colon (head_of_triple_colon hsides hinside)
  rw [Firewall.isValidIpv6Literal, a.includes_colon, a.includes_percent, htriple]
  exact a.sides_fit

/-- The literals the check accepts are these texts. -/
theorem isValidIpv6Literal_iff {value : String} :
    isValidIpv6Literal value = true ↔ ∃ a : Ipv6Text, a.text = value := by
  constructor
  · intro h
    rw [isValidIpv6Literal, Bool.and_eq_true] at h
    have hsides := h.2
    have hjoin := intercalate_splitDoubleColon value.toList
    split at hsides
    case h_3 => cases hsides
    case h_1 text hside =>
      obtain ⟨chars, hchars, rfl⟩ := List.map_eq_singleton_iff.mp hside
      obtain ⟨side, hside, hcount⟩ := parseSide_eq_some_iff.mp (eq_of_beq hsides)
      rw [hchars, List.intercalate_singleton] at hjoin
      refine ⟨.full side hcount, ?_⟩
      rw [Ipv6Text.text, hside, hjoin, String.ofList_toList]
    case h_2 first second hpair =>
      obtain ⟨chars, others, hchars, rfl, hothers⟩ := List.map_eq_cons_iff.mp hpair
      obtain ⟨chars', rfl, rfl⟩ := List.map_eq_singleton_iff.mp hothers
      split at hsides
      case h_2 => cases hsides
      case h_1 count count' hfirst hsecond =>
        obtain ⟨left, hleft, rfl⟩ := parseSide_eq_some_iff.mp hfirst
        obtain ⟨right, hright, rfl⟩ := parseSide_eq_some_iff.mp hsecond
        rw [hchars, List.intercalate_cons_cons, List.intercalate_singleton] at hjoin
        refine ⟨.gap left right (of_decide_eq_true hsides), ?_⟩
        rw [Ipv6Text.text, hleft, hright, ← String.toList_inj, ← hjoin]
        simp
  · rintro ⟨a, rfl⟩
    exact a.isValidIpv6Literal

/-- Such a text expands to its hextets. -/
theorem ipv6Hextets_text (a : Ipv6Text) : ipv6Hextets a.text = some a.hextets := by
  rw [ipv6Hextets, a.splitDoubleColon_text]
  cases a with
  | full side h =>
    simp only [List.map_cons, List.map_nil, String.ofList_toList, List.headD_cons, expandSide_side,
      List.length_singleton]
    simp [h, Ipv6Text.hextets]
  | gap left right h =>
    simp only [List.map_cons, List.map_nil, String.ofList_toList, List.headD_cons, expandSide_side,
      List.length_cons, List.length_nil, List.drop_succ_cons, List.drop_zero]
    simpa [Ipv6Text.hextets] using h

theorem not_isValidIpv4Literal_text (a : Ipv6Text) : isValidIpv4Literal a.text = false := by
  rw [← Bool.not_eq_true]
  intro h
  obtain ⟨q, hq⟩ := isValidIpv4Literal_iff.mp h
  have hcolon := a.includes_colon
  rw [← hq, includes_iff] at hcolon
  exact notMem_quad_text (c := ':') rfl (by decide) q (hcolon.subset List.mem_cons_self)

/-- The integer of an accepted text is its value. -/
theorem ipLiteralToBigInt_text (a : Ipv6Text) : ipLiteralToBigInt a.text = some a.value := by
  rw [ipLiteralToBigInt, not_isValidIpv4Literal_text, a.isValidIpv6Literal, ipv6Hextets_text]
  exact congrArg some (foldl_shift_eq_ofDigits a.hextets)

theorem ipLiteralToBigInt_quad (q : Quad) : ipLiteralToBigInt q.text = some q.value := by
  rw [ipLiteralToBigInt, if_pos (isValidIpv4Literal_iff.mpr ⟨q, rfl⟩), ipv4ToBigInt_quad]

/-! ## RFC 4291 -/

/-- The text is one of the forms of RFC 4291. -/
def IsRfc4291 (value : String) : Prop := ∃ a : Ipv6Text, a.Rfc4291 ∧ a.text = value

/-- The text has an IPv4 text right in front of its gap and is otherwise formed as it should. -/
def DottedBeforeGap (value : String) : Prop :=
  ∃ left right h, left.quad ≠ none ∧ (Ipv6Text.gap left right h).text = value

/-- Whether a text has that form is decided by its characters. -/
theorem rfc4291_of_text_eq {a b : Ipv6Text} (h : a.text = b.text) (ha : a.Rfc4291) : b.Rfc4291 := by
  have hsides := a.splitDoubleColon_text
  rw [h, b.splitDoubleColon_text] at hsides
  cases a with
  | full side hcount =>
    cases b with
    | full side' hcount' => trivial
    | gap left right hcount' => exact absurd (congrArg List.length hsides) (by simp)
  | gap left right hcount =>
    cases b with
    | full side' hcount' => trivial
    | gap left' right' hcount' =>
      have hleft : left'.text.toList = left.text.toList := (List.cons.inj hsides).1
      by_contra hquad
      have hdot := Side.dot_mem_iff.mpr (show left'.quad ≠ none from hquad)
      rw [hleft, Side.dot_mem_iff] at hdot
      exact hdot ha

theorem not_dottedBeforeGap_iff {value : String} :
    ¬DottedBeforeGap value ↔ ∀ a : Ipv6Text, a.text = value → a.Rfc4291 := by
  constructor
  · rintro hnone (⟨side, h⟩ | ⟨left, right, h⟩) htext
    · trivial
    · by_contra hquad
      exact hnone ⟨left, right, h, hquad, htext⟩
  · rintro hall ⟨left, right, h, hquad, htext⟩
    exact hquad (hall _ htext)

/-! ## Addresses and blocks -/

def cidrLiteralContains (parent child : String) : Bool :=
  match parseCidrLiteral parent, parseCidrLiteral child with
  | some outer, some inner =>
    outer.version = inner.version && decide (inner.base ≥ outer.base) &&
      decide (inner.last ≤ outer.last)
  | _, _ => false

def addressInCidrLiteral (address cidr : String) : Bool :=
  match parseCidrLiteral cidr, ipLiteralToBigInt address with
  | some range, some value =>
    let version := if isValidIpv4Literal address then FirewallFamily.four else .six
    version = range.version && decide (value ≥ range.base) && decide (value ≤ range.last)
  | _, _ => false

/-- The text of an address of either family. -/
inductive IpText
  | four (q : Quad)
  | six (a : Ipv6Text)

namespace IpText

def text : IpText → String
  | .four q => q.text
  | .six a => a.text

def family : IpText → FirewallFamily
  | .four _ => .four
  | .six _ => .six

/-- How many bits an address has. -/
def width : IpText → ℕ
  | .four _ => 32
  | .six _ => 128

def value : IpText → ℕ
  | .four q => q.value
  | .six a => a.value

theorem value_lt (ip : IpText) : ip.value < 2 ^ ip.width := by
  cases ip with
  | four q => exact q.value_lt
  | six a => exact a.value_lt

theorem ipLiteralToBigInt_text (ip : IpText) : ipLiteralToBigInt ip.text = some ip.value := by
  cases ip with
  | four q => exact ipLiteralToBigInt_quad q
  | six a => exact Firewall.ipLiteralToBigInt_text a

theorem family_eq (ip : IpText) :
    (if isValidIpv4Literal ip.text then FirewallFamily.four else .six) = ip.family := by
  cases ip with
  | four q => exact if_pos (isValidIpv4Literal_iff.mpr ⟨q, rfl⟩)
  | six a => exact if_neg (Bool.eq_false_iff.mp (not_isValidIpv4Literal_text a))

theorem width_eq (ip : IpText) : (if ip.family = .four then 32 else 128) = ip.width := by
  cases ip <;> rfl

theorem isLiteralChar (ip : IpText) : ∀ c ∈ ip.text.toList, isLiteralChar c = true := by
  cases ip with
  | four q => exact isLiteralChar_of_isValidIpv4Literal (isValidIpv4Literal_iff.mpr ⟨q, rfl⟩)
  | six a => exact a.isLiteralChar

theorem text_ne_empty (ip : IpText) : ip.text ≠ "" := by
  rw [ne_eq, ← String.toList_inj, String.toList_empty]
  cases ip with
  | four q => exact List.ne_nil_of_mem (dot_mem_quad_text q)
  | six a =>
    have hcolon := includes_iff.mp a.includes_colon
    exact List.ne_nil_of_mem (hcolon.subset List.mem_cons_self)

end IpText

/-- The text of a block: an address, a slash and the length of its prefix in decimal digits. -/
structure CidrText where
  address : IpText
  digits : String
  digits_ne : digits ≠ ""
  isDigit : ∀ c ∈ digits.toList, isDigit c = true
  le_width : decimalNumber digits.toList ≤ address.width

namespace CidrText

def text (c : CidrText) : String := c.address.text ++ String.singleton '/' ++ c.digits

def hostBits (c : CidrText) : ℕ := c.address.width - decimalNumber c.digits.toList

/-- The addresses of the block: those that agree with its own in all but the host bits. -/
def addresses (c : CidrText) : Set (FirewallFamily × ℕ) :=
  {x | x.1 = c.address.family ∧ x.2 < 2 ^ c.address.width ∧
    x.2 / 2 ^ c.hostBits = c.address.value / 2 ^ c.hostBits}

def base (c : CidrText) : ℕ := c.address.value / 2 ^ c.hostBits * 2 ^ c.hostBits

def last (c : CidrText) : ℕ := c.base + 2 ^ c.hostBits - 1

theorem base_le_last (c : CidrText) : c.base ≤ c.last := by
  have hpos : 0 < 2 ^ c.hostBits := Nat.two_pow_pos _
  rw [last]
  omega

theorem last_lt (c : CidrText) : c.last < 2 ^ c.address.width := by
  have hpos : 0 < 2 ^ c.hostBits := Nat.two_pow_pos _
  have hsplit : 2 ^ c.address.width = 2 ^ (c.address.width - c.hostBits) * 2 ^ c.hostBits := by
    rw [← Nat.pow_add, hostBits, Nat.sub_add_cancel (Nat.sub_le _ _)]
  have hquotient : c.address.value / 2 ^ c.hostBits < 2 ^ (c.address.width - c.hostBits) := by
    rw [Nat.div_lt_iff_lt_mul hpos, ← hsplit]
    exact c.address.value_lt
  have hroom : (c.address.value / 2 ^ c.hostBits + 1) * 2 ^ c.hostBits ≤ 2 ^ c.address.width := by
    rw [hsplit]
    exact Nat.mul_le_mul_right _ hquotient
  rw [Nat.add_mul, Nat.one_mul] at hroom
  rw [last, base]
  omega

/-- The addresses of a block are those from its first to its last. -/
theorem mem_addresses_iff {c : CidrText} {x : FirewallFamily × ℕ} :
    x ∈ c.addresses ↔ x.1 = c.address.family ∧ c.base ≤ x.2 ∧ x.2 ≤ c.last := by
  have hpos : 0 < 2 ^ c.hostBits := Nat.two_pow_pos _
  have hlast := c.last_lt
  have hdiv := Nat.div_add_mod x.2 (2 ^ c.hostBits)
  have hmod := Nat.mod_lt x.2 hpos
  refine and_congr_right fun _ => ⟨?_, ?_⟩
  · rintro ⟨-, hsame⟩
    rw [last, base, ← hsame, Nat.mul_comm]
    omega
  · rintro ⟨hbase, hle⟩
    refine ⟨hle.trans_lt hlast, ?_⟩
    rw [last, base] at hle
    rw [base] at hbase
    refine Nat.div_eq_of_lt_le hbase ?_
    rw [Nat.add_mul, Nat.one_mul]
    omega

theorem subset_iff {c d : CidrText} : d.addresses ⊆ c.addresses ↔
    c.address.family = d.address.family ∧ c.base ≤ d.base ∧ d.last ≤ c.last := by
  constructor
  · intro h
    have hbase : (d.address.family, d.base) ∈ d.addresses :=
      mem_addresses_iff.mpr ⟨rfl, le_rfl, d.base_le_last⟩
    have hend : (d.address.family, d.last) ∈ d.addresses :=
      mem_addresses_iff.mpr ⟨rfl, d.base_le_last, le_rfl⟩
    have hfirst := mem_addresses_iff.mp (h hbase)
    have hlast := mem_addresses_iff.mp (h hend)
    exact ⟨hfirst.1.symm, hfirst.2.1, hlast.2.2⟩
  · rintro ⟨hfamily, hbase, hlast⟩ x hx
    obtain ⟨hx, hlow, hhigh⟩ := mem_addresses_iff.mp hx
    exact mem_addresses_iff.mpr ⟨hx.trans hfamily.symm, hbase.trans hlow, hhigh.trans hlast⟩

end CidrText

theorem cutSlash_append {address length : String} (haddress : address ≠ "") (hlength : length ≠ "")
    (hslash : '/' ∉ length.toList) :
    cutSlash (address ++ String.singleton '/' ++ length) = some (address, length) := by
  have hpos : 0 < address.toList.length :=
    List.length_pos_of_ne_nil fun h => haddress (String.toList_eq_nil_iff.mp h)
  have hpos' : 0 < length.toList.length :=
    List.length_pos_of_ne_nil fun h => hlength (String.toList_eq_nil_iff.mp h)
  have hchars : (address ++ String.singleton '/' ++ length).toList =
      address.toList ++ '/' :: length.toList := by
    rw [String.toList_append, String.toList_append, String.toList_singleton, List.append_assoc]
    rfl
  have hcut : (address.length : ℤ).toNat = address.toList.length := by
    rw [Int.toNat_natCast, String.length_toList]
  rw [cutSlash, lastIndexOf_eq hslash, if_neg, takeChars, dropChars, hcut, hchars, List.take_left,
    String.ofList_toList]
  · have hdrop : (address.toList ++ '/' :: length.toList).drop (address.toList.length + 1) =
        length.toList := by
      rw [List.drop_append]
      simp
    rw [hdrop, String.ofList_toList]
  · rw [hchars, List.length_append, List.length_cons]
    rw [String.length_toList] at hpos ⊢
    simp only [not_or, Bool.or_eq_true, decide_eq_true_eq]
    omega

namespace CidrText

theorem cutSlash_text (c : CidrText) : cutSlash c.text = some (c.address.text, c.digits) := by
  refine cutSlash_append c.address.text_ne_empty c.digits_ne ?_
  intro hmem
  exact absurd (c.isDigit '/' hmem) (by decide)

theorem isLiteralChar (c : CidrText) : ∀ d ∈ c.text.toList, isLiteralChar d = true := by
  rw [text, String.toList_append, String.toList_append, String.toList_singleton,
    List.forall_mem_append, List.forall_mem_append, List.forall_mem_singleton]
  exact ⟨⟨c.address.isLiteralChar, rfl⟩, fun d hd => isLiteralChar_of_isDigit (c.isDigit d hd)⟩

theorem trim_text (c : CidrText) : trim c.text = c.text := by
  have hspace : ∀ d, Firewall.isLiteralChar d = true → isSpace d = false := by
    intro d hd
    simp only [Firewall.isLiteralChar, Bool.or_eq_true, beq_iff_eq] at hd
    rcases hd with ((hhex | rfl) | rfl) | rfl
    · exact isSpace_of_isHexDigit hhex
    all_goals decide
  exact trim_of_forall fun d hd => hspace d (c.isLiteralChar d hd)

theorem isValidWireguardAllowedIp_text (c : CidrText) :
    isValidWireguardAllowedIp c.text = true := by
  have hdigits : (c.digits ≠ "" && c.digits.toList.all JavaScript.isDigit) = true := by
    rw [Bool.and_eq_true, decide_eq_true_eq, List.all_eq_true]
    exact ⟨c.digits_ne, c.isDigit⟩
  rw [isValidWireguardAllowedIp, c.trim_text, c.cutSlash_text]
  dsimp only
  rw [if_pos hdigits]
  have hle := c.le_width
  cases haddress : c.address with
  | four q =>
    rw [haddress] at hle
    have hipv4 : isValidIpv4Literal (IpText.four q).text = true :=
      isValidIpv4Literal_iff.mpr ⟨q, rfl⟩
    rw [if_pos hipv4]
    exact decide_eq_true hle
  | six a =>
    rw [haddress] at hle
    have hipv4 : ¬isValidIpv4Literal (IpText.six a).text = true :=
      Bool.eq_false_iff.mp (not_isValidIpv4Literal_text a)
    have hipv6 : Firewall.isValidIpv6Literal (IpText.six a).text = true := a.isValidIpv6Literal
    rw [if_neg hipv4, if_pos hipv6]
    exact decide_eq_true hle

/-- The range of a block is that of its addresses. -/
theorem parseCidrLiteral_of_trim {c : CidrText} {value : String} (h : c.text = trim value) :
    parseCidrLiteral value =
      some ⟨c.address.family, decimalNumber c.digits.toList, c.base, c.last⟩ := by
  rw [parseCidrLiteral, ← h, c.isValidWireguardAllowedIp_text, c.cutSlash_text]
  simp only [Bool.not_true, Bool.false_eq_true, if_false, Option.bind_eq_bind, Option.bind_some,
    IpText.ipLiteralToBigInt_text, IpText.family_eq, IpText.width_eq]
  rw [last, base, hostBits, Nat.shiftRight_eq_div_pow, Nat.shiftLeft_eq]

end CidrText

theorem isValidWireguardAllowedIp_trim (value : String) :
    isValidWireguardAllowedIp (trim value) = isValidWireguardAllowedIp value := by
  rw [isValidWireguardAllowedIp, isValidWireguardAllowedIp, trim_trim]

/-- The blocks the check accepts are these texts, with white space around them or none. -/
theorem isValidWireguardAllowedIp_iff {value : String} :
    isValidWireguardAllowedIp value = true ↔ ∃ c : CidrText, c.text = trim value := by
  constructor
  · intro h
    rw [isValidWireguardAllowedIp] at h
    split at h
    case h_1 => cases h
    case h_2 addressPart prefixPart hcut =>
      obtain ⟨htrim, -⟩ := eq_of_cutSlash hcut
      split at h
      case isFalse => cases h
      case isTrue hdigits =>
        rw [Bool.and_eq_true, decide_eq_true_eq, List.all_eq_true] at hdigits
        split at h
        case isTrue hipv4 =>
          obtain ⟨q, rfl⟩ := isValidIpv4Literal_iff.mp hipv4
          exact ⟨⟨.four q, prefixPart, hdigits.1, hdigits.2, of_decide_eq_true h⟩, htrim.symm⟩
        case isFalse =>
          split at h
          case isFalse => cases h
          case isTrue hipv6 =>
            obtain ⟨a, rfl⟩ := isValidIpv6Literal_iff.mp hipv6
            exact ⟨⟨.six a, prefixPart, hdigits.1, hdigits.2, of_decide_eq_true h⟩, htrim.symm⟩
  · rintro ⟨c, htext⟩
    rw [← isValidWireguardAllowedIp_trim, ← htext]
    exact c.isValidWireguardAllowedIp_text

/-! ## Text and value agree -/

/-- The check accepts the forms of RFC 4291, and an accepted literal's integer is its value. -/
structure LiteralAgrees (value : String) : Prop where
  accepts : isValidIpv6Literal value = true ↔ IsRfc4291 value
  four : isValidIpv4Literal value = true → ∃ q : Quad, q.text = value ∧
    ipLiteralToBigInt value = some q.value ∧ q.value < 2 ^ 32
  six : isValidIpv6Literal value = true → ∃ a : Ipv6Text, a.Rfc4291 ∧ a.text = value ∧
    ipLiteralToBigInt value = some a.value ∧ a.value < 2 ^ 128

/-- Of two accepted blocks, one contains the other where its addresses are among the other's. -/
def ContainmentAgrees (parent child : String) : Prop :=
  isValidWireguardAllowedIp parent = true → isValidWireguardAllowedIp child = true →
    ∃ c d : CidrText, c.text = trim parent ∧ d.text = trim child ∧
      (cidrLiteralContains parent child = true ↔ d.addresses ⊆ c.addresses)

/-- An accepted address is inside an accepted block where it is one of its addresses. -/
def MembershipAgrees (address cidr : String) : Prop :=
  (isValidIpv4Literal address = true ∨ isValidIpv6Literal address = true) →
    isValidWireguardAllowedIp cidr = true →
      ∃ (ip : IpText) (c : CidrText), ip.text = address ∧ c.text = trim cidr ∧
        (addressInCidrLiteral address cidr = true ↔ (ip.family, ip.value) ∈ c.addresses)

theorem literalAgrees_iff {value : String} : LiteralAgrees value ↔ ¬DottedBeforeGap value := by
  rw [not_dottedBeforeGap_iff]
  constructor
  · intro hagrees a htext
    obtain ⟨b, hb, htext'⟩ :=
      hagrees.accepts.mp (isValidIpv6Literal_iff.mpr ⟨a, htext⟩)
    exact rfc4291_of_text_eq (htext'.trans htext.symm) hb
  · intro hall
    refine ⟨⟨?_, ?_⟩, ?_, ?_⟩
    · intro hvalid
      obtain ⟨a, htext⟩ := isValidIpv6Literal_iff.mp hvalid
      exact ⟨a, hall a htext, htext⟩
    · rintro ⟨a, -, htext⟩
      exact isValidIpv6Literal_iff.mpr ⟨a, htext⟩
    · intro hvalid
      obtain ⟨q, rfl⟩ := isValidIpv4Literal_iff.mp hvalid
      exact ⟨q, rfl, ipLiteralToBigInt_quad q, q.value_lt⟩
    · intro hvalid
      obtain ⟨a, rfl⟩ := isValidIpv6Literal_iff.mp hvalid
      exact ⟨a, hall a rfl, rfl, ipLiteralToBigInt_text a, a.value_lt⟩

theorem cidrLiteralContains_iff {parent child : String} {outer inner : ParsedCidrLiteral}
    (houter : parseCidrLiteral parent = some outer) (hinner : parseCidrLiteral child = some inner) :
    cidrLiteralContains parent child = true ↔
      outer.version = inner.version ∧ outer.base ≤ inner.base ∧ inner.last ≤ outer.last := by
  unfold cidrLiteralContains
  simp only [houter, hinner, Bool.and_eq_true, decide_eq_true_eq, and_assoc, ge_iff_le]

theorem addressInCidrLiteral_iff {address cidr : String} {range : ParsedCidrLiteral} {value : ℕ}
    (hrange : parseCidrLiteral cidr = some range) (hvalue : ipLiteralToBigInt address = some value) :
    addressInCidrLiteral address cidr = true ↔
      (if isValidIpv4Literal address then FirewallFamily.four else .six) = range.version ∧
        range.base ≤ value ∧ value ≤ range.last := by
  unfold addressInCidrLiteral
  simp only [hrange, hvalue, Bool.and_eq_true, decide_eq_true_eq, and_assoc, ge_iff_le]

theorem containmentAgrees (parent child : String) : ContainmentAgrees parent child := by
  intro hparent hchild
  obtain ⟨c, hc⟩ := isValidWireguardAllowedIp_iff.mp hparent
  obtain ⟨d, hd⟩ := isValidWireguardAllowedIp_iff.mp hchild
  refine ⟨c, d, hc, hd, ?_⟩
  rw [cidrLiteralContains_iff (CidrText.parseCidrLiteral_of_trim hc)
    (CidrText.parseCidrLiteral_of_trim hd), CidrText.subset_iff]

theorem membershipAgrees (address cidr : String) : MembershipAgrees address cidr := by
  intro haddress hcidr
  obtain ⟨c, hc⟩ := isValidWireguardAllowedIp_iff.mp hcidr
  have hip : ∃ ip : IpText, ip.text = address := by
    rcases haddress with hipv4 | hipv6
    · obtain ⟨q, hq⟩ := isValidIpv4Literal_iff.mp hipv4
      exact ⟨.four q, hq⟩
    · obtain ⟨a, ha⟩ := isValidIpv6Literal_iff.mp hipv6
      exact ⟨.six a, ha⟩
  obtain ⟨ip, rfl⟩ := hip
  refine ⟨ip, c, rfl, hc, ?_⟩
  rw [addressInCidrLiteral_iff (CidrText.parseCidrLiteral_of_trim hc) ip.ipLiteralToBigInt_text,
    ip.family_eq, CidrText.mem_addresses_iff]

/-- A literal is accepted by its form and read by its value exactly where no IPv4 text stands in
front of a gap; blocks are compared as the sets of their addresses throughout. -/
theorem literals_agree_iff (value parent child address cidr : String) :
    (LiteralAgrees value ↔ ¬DottedBeforeGap value) ∧ ContainmentAgrees parent child ∧
      MembershipAgrees address cidr :=
  ⟨literalAgrees_iff, containmentAgrees parent child, membershipAgrees address cidr⟩

/-- `1.2.3.4::` passes the check and is none of the forms. -/
theorem not_literalAgrees_leading_quad :
    isValidIpv6Literal "1.2.3.4::" = true ∧ ¬IsRfc4291 "1.2.3.4::" := by
  have hdotted : DottedBeforeGap "1.2.3.4::" :=
    ⟨⟨[], some ⟨1, 2, 3, 4⟩⟩, ⟨[], none⟩, by decide, by simp, by decide +kernel⟩
  obtain ⟨left, right, h, hquad, htext⟩ := hdotted
  refine ⟨isValidIpv6Literal_iff.mpr ⟨_, htext⟩, ?_⟩
  rintro ⟨a, ha, ha'⟩
  exact hquad (rfc4291_of_text_eq (ha'.trans htext.symm) ha)

end Turbopaneld.Firewall
