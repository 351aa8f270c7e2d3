/-
# Address literals

The checks of IPv4 and IPv6 literals and of CIDR blocks that a firewall payload's sources and
destinations pass through.  Whatever passes is written with hexadecimal digits, colons, dots
and one slash, so it can stand in a rendered line as a word of its own.
-/

import Turbopaneld.JavaScript.Hex

namespace Turbopaneld.Firewall

open JavaScript

inductive FirewallFamily where
  | four
  | six
deriving DecidableEq, Repr

/-! ## Literals -/

/-- `Number.parseInt(digits, 10)` of decimal digits. -/
def decimalNumber (digits : List Char) : ℕ := Nat.ofDigitChars 10 digits 0

/-- `\d{low,high}`. -/
def isDigits (low high : ℕ) (text : String) : Bool :=
  low ≤ text.toList.length && text.toList.length ≤ high && text.toList.all isDigit

/-- `IPV4_SHAPE_RE`. -/
def isIpv4Shape (value : String) : Bool :=
  (split '.' value).length = 4 && (split '.' value).all (isDigits 1 3)

/-- `/^(?:0|[1-9]\d{0,2})$/`, and at most 255. -/
def isOctet (octet : String) : Bool :=
  isDigits 1 3 octet && (octet = "0" || octet.toList.head? ≠ some '0') &&
    decimalNumber octet.toList ≤ 255

def isValidIpv4Literal (value : String) : Bool :=
  isIpv4Shape value && (split '.' value).all isOctet

/-- The parts of a text between its non-overlapping `::`. -/
def splitDoubleColon : List Char → List (List Char)
  | [] => [[]]
  | ':' :: ':' :: rest => [] :: splitDoubleColon rest
  | c :: rest =>
    match splitDoubleColon rest with
    | [] => [[c]]
    | first :: others => (c :: first) :: others

/-- `/^[0-9a-fA-F]{1,4}$/`. -/
def isHextet (part : String) : Bool :=
  1 ≤ part.toList.length && part.toList.length ≤ 4 && part.toList.all isHexDigit

/-- The hextets a list of parts stands for: an IPv4 literal, in the last place only, stands
for two. -/
def countHextets : List String → Option ℕ
  | [] => some 0
  | part :: rest =>
    if includes part "." then
      if rest ≠ [] then none
      else if isValidIpv4Literal part then some 2
      else none
    else if isHextet part then (countHextets rest).map (· + 1)
    else none

def parseSide (side : String) : Option ℕ :=
  if side = "" then some 0 else countHextets (split ':' side)

def isValidIpv6Literal (value : String) : Bool :=
  includes value ":" && !includes value "%" && !includes value ":::" &&
    match (splitDoubleColon value.toList).map String.ofList with
    | [side] => parseSide side == some 8
    | [first, second] =>
      match parseSide first, parseSide second with
      | some left, some right => left + right < 8
      | _, _ => false
    | _ => false

/-! ## Values -/

def ipv4ToBigInt (value : String) : Option ℕ :=
  if isValidIpv4Literal value then
    some ((split '.' value).foldl (fun out octet => out <<< 8 + decimalNumber octet.toList) 0)
  else none

def expandSide (side : String) : Option (List ℕ) :=
  if side = "" then some []
  else
    (split ':' side).foldlM (fun out part =>
      if includes part "." then
        (ipv4ToBigInt part).map fun v4 => out ++ [v4 >>> 16, v4 &&& 0xffff]
      else some (out ++ [hexNumber part.toList])) []

def ipv6Hextets (value : String) : Option (List ℕ) := do
  let sides := (splitDoubleColon value.toList).map String.ofList
  let left ← expandSide (sides.headD "")
  let right ← if sides.length = 2 then expandSide ((sides.drop 1).headD "") else some []
  if sides.length = 1 then (if left.length = 8 then some left else none)
  else if 8 < left.length + right.length + 1 then none
  else some (left ++ List.replicate (8 - left.length - right.length) 0 ++ right)

def ipLiteralToBigInt (value : String) : Option ℕ :=
  if isValidIpv4Literal value then ipv4ToBigInt value
  else if !isValidIpv6Literal value then none
  else (ipv6Hextets value).map fun hextets => hextets.foldl (fun out hextet => out <<< 16 + hextet) 0

/-! ## Blocks -/

/-- The text in front of the last slash and behind it; `none` where that is no more than a
slash at one end. -/
def cutSlash (text : String) : Option (String × String) :=
  let slash := lastIndexOf '/' text
  if slash ≤ 0 || slash = text.toList.length - 1 then none
  else some (takeChars text slash.toNat, dropChars text (slash.toNat + 1))

/-- `isValidWireguardAllowedIp` of a string. -/
def isValidWireguardAllowedIp (value : String) : Bool :=
  match cutSlash (trim value) with
  | none => false
  | some (addressPart, prefixPart) =>
    if prefixPart ≠ "" && prefixPart.toList.all isDigit then
      if isValidIpv4Literal addressPart then decimalNumber prefixPart.toList ≤ 32
      else if isValidIpv6Literal addressPart then decimalNumber prefixPart.toList ≤ 128
      else false
    else false

structure ParsedCidrLiteral where
  version : FirewallFamily
  prefixLength : ℕ
  base : ℕ
  last : ℕ
deriving DecidableEq, Repr

def parseCidrLiteral (value : String) : Option ParsedCidrLiteral := do
  let trimmed := trim value
  if !isValidWireguardAllowedIp trimmed then none
  else
    let (address, length) ← cutSlash trimmed
    let prefixLength := decimalNumber length.toList
    let version := if isValidIpv4Literal address then FirewallFamily.four else .six
    let raw ← ipLiteralToBigInt address
    let hostBits := (if version = .four then 32 else 128) - prefixLength
    let base := (raw >>> hostBits) <<< hostBits
    some ⟨version, prefixLength, base, base + 2 ^ hostBits - 1⟩

/-! ## The characters of a literal -/

/-- The characters a literal is written with. -/
def isLiteralChar (c : Char) : Bool := isHexDigit c || c == ':' || c == '.' || c == '/'

/-- A text written as an address literal is. -/
def IsLiteral (text : String) : Prop :=
  text ≠ "" ∧ ∀ c ∈ text.toList, isLiteralChar c = true

theorem isLiteralChar_of_isHexDigit {c : Char} (h : isHexDigit c = true) :
    isLiteralChar c = true := by
  rw [isLiteralChar, h]
  rfl

theorem isLiteralChar_of_isDigit {c : Char} (h : isDigit c = true) : isLiteralChar c = true := by
  refine isLiteralChar_of_isHexDigit ?_
  rw [isHexDigit, h]
  rfl

/-- A property of the separator and of every part's characters is one of the text's. -/
theorem forall_mem_of_split {separator : Char} {text : String} {P : Char → Prop}
    (hseparator : P separator) (hparts : ∀ part ∈ split separator text, ∀ c ∈ part.toList, P c) :
    ∀ c ∈ text.toList, P c := by
  have hjoined : (String.singleton separator).intercalate (split separator text) = text := by
    rw [← String.toList_inj, String.toList_intercalate, String.toList_singleton, split,
      List.map_map]
    simp
  rw [← hjoined]
  refine forall_mem_intercalate ?_ hparts
  rw [String.toList_singleton]
  exact List.forall_mem_singleton.mpr hseparator

theorem forall_mem_of_splitDoubleColon {text : List Char} {P : Char → Prop} (hcolon : P ':')
    (hsides : ∀ side ∈ splitDoubleColon text, ∀ c ∈ side, P c) : ∀ c ∈ text, P c := by
  induction text using splitDoubleColon.induct with
  | case1 => exact fun c hc => absurd hc List.not_mem_nil
  | case2 rest ih =>
    rw [splitDoubleColon, List.forall_mem_cons] at hsides
    exact List.forall_mem_cons.mpr ⟨hcolon, List.forall_mem_cons.mpr ⟨hcolon, ih hsides.2⟩⟩
  | case3 c rest hpair hnone ih =>
    rw [splitDoubleColon.eq_3 c rest hpair, hnone] at hsides
    rw [hnone] at ih
    refine List.forall_mem_cons.mpr ⟨?_, ih fun side hside => absurd hside List.not_mem_nil⟩
    exact hsides [c] List.mem_cons_self c List.mem_cons_self
  | case4 c rest hpair first others hsome ih =>
    rw [splitDoubleColon.eq_3 c rest hpair, hsome, List.forall_mem_cons,
      List.forall_mem_cons] at hsides
    rw [hsome, List.forall_mem_cons] at ih
    exact List.forall_mem_cons.mpr ⟨hsides.1.1, ih ⟨hsides.1.2, hsides.2⟩⟩

theorem isLiteralChar_of_isValidIpv4Literal {value : String} (h : isValidIpv4Literal value = true) :
    ∀ c ∈ value.toList, isLiteralChar c = true := by
  rw [isValidIpv4Literal, isIpv4Shape, Bool.and_eq_true, Bool.and_eq_true] at h
  have hdot : isLiteralChar '.' = true := by decide
  refine forall_mem_of_split hdot fun part hpart c hc => ?_
  have hdigits := List.all_eq_true.mp h.1.2 part hpart
  rw [isDigits, Bool.and_eq_true] at hdigits
  exact isLiteralChar_of_isDigit (List.all_eq_true.mp hdigits.2 c hc)

theorem isLiteralChar_of_countHextets {parts : List String} {count : ℕ}
    (h : countHextets parts = some count) :
    ∀ part ∈ parts, ∀ c ∈ part.toList, isLiteralChar c = true := by
  induction parts generalizing count with
  | nil => exact fun part hpart => absurd hpart List.not_mem_nil
  | cons part rest ih =>
    rw [countHextets] at h
    split_ifs at h with hdot hlast hipv4 hhextet
    · rw [not_not] at hlast
      subst hlast
      exact List.forall_mem_singleton.mpr (isLiteralChar_of_isValidIpv4Literal hipv4)
    · obtain ⟨others, hothers, -⟩ := Option.map_eq_some_iff.mp h
      rw [isHextet, Bool.and_eq_true] at hhextet
      refine List.forall_mem_cons.mpr ⟨fun c hc => ?_, ih hothers⟩
      exact isLiteralChar_of_isHexDigit (List.all_eq_true.mp hhextet.2 c hc)

theorem isLiteralChar_of_parseSide {side : String} {count : ℕ} (h : parseSide side = some count) :
    ∀ c ∈ side.toList, isLiteralChar c = true := by
  rw [parseSide] at h
  split_ifs at h with hempty
  · rw [hempty]
    exact fun c hc => absurd hc List.not_mem_nil
  · have hcolon : isLiteralChar ':' = true := by decide
    exact forall_mem_of_split hcolon (isLiteralChar_of_countHextets h)

theorem isLiteralChar_of_isValidIpv6Literal {value : String} (h : isValidIpv6Literal value = true) :
    ∀ c ∈ value.toList, isLiteralChar c = true := by
  rw [isValidIpv6Literal, Bool.and_eq_true] at h
  have hsides := h.2
  split at hsides
  case h_3 => cases hsides
  case h_1 side hside =>
    obtain ⟨chars, hchars, rfl⟩ := List.map_eq_singleton_iff.mp hside
    have hall := isLiteralChar_of_parseSide (eq_of_beq hsides)
    rw [String.toList_ofList] at hall
    refine forall_mem_of_splitDoubleColon (by decide) ?_
    rw [hchars, List.forall_mem_singleton]
    exact hall
  case h_2 first second hpair =>
    obtain ⟨chars, others, hchars, rfl, hothers⟩ := List.map_eq_cons_iff.mp hpair
    obtain ⟨chars', rfl, rfl⟩ := List.map_eq_singleton_iff.mp hothers
    split at hsides
    case h_2 => cases hsides
    case h_1 left right hleft hright =>
      have hfirst := isLiteralChar_of_parseSide hleft
      have hsecond := isLiteralChar_of_parseSide hright
      rw [String.toList_ofList] at hfirst hsecond
      refine forall_mem_of_splitDoubleColon (by decide) ?_
      rw [hchars]
      exact List.forall_mem_cons.mpr ⟨hfirst, List.forall_mem_singleton.mpr hsecond⟩

/-- What `cutSlash` cuts is the text in front of the last slash and behind it. -/
theorem eq_of_cutSlash {text address length : String} (h : cutSlash text = some (address, length)) :
    text = address ++ String.singleton '/' ++ length ∧ '/' ∉ length.toList := by
  rw [cutSlash] at h
  by_cases hmem : '/' ∈ text.toList
  · obtain ⟨front, back, rfl, hback⟩ := exists_of_mem hmem
    rw [lastIndexOf_eq hback] at h
    split_ifs at h
    obtain ⟨rfl, rfl⟩ := Prod.mk.injEq .. ▸ Option.some.inj h
    have hlength : ((front.length : ℤ)).toNat = front.toList.length := by
      rw [Int.toNat_natCast, String.length_toList]
    have hfront : takeChars (front ++ String.singleton '/' ++ back) (front.length : ℤ).toNat =
        front := by
      rw [takeChars, hlength, String.toList_append, String.toList_append, List.append_assoc,
        List.take_left, String.ofList_toList]
    have hrest : dropChars (front ++ String.singleton '/' ++ back) ((front.length : ℤ).toNat + 1) =
        back := by
      rw [dropChars, hlength, String.toList_append,
        show front.toList.length + 1 = (front ++ String.singleton '/').toList.length by simp,
        List.drop_left, String.ofList_toList]
    rw [hfront, hrest]
    exact ⟨rfl, hback⟩
  · rw [lastIndexOf_of_notMem hmem] at h
    cases h

theorem isLiteral_of_char_slash {text : String} (h : ∀ c ∈ text.toList, isLiteralChar c = true)
    {length : String} (hlength : ∀ c ∈ length.toList, isLiteralChar c = true) (hne : length ≠ "") :
    IsLiteral (text ++ length) := by
  constructor
  · intro hempty
    rw [← String.toList_inj, String.toList_append, String.toList_empty,
      List.append_eq_nil_iff] at hempty
    exact hne (String.toList_inj.mp hempty.2)
  · rw [String.toList_append, List.forall_mem_append]
    exact ⟨h, hlength⟩

theorem isLiteral_of_isValidWireguardAllowedIp {value : String} (htrimmed : trim value = value)
    (h : isValidWireguardAllowedIp value = true) : IsLiteral value := by
  rw [isValidWireguardAllowedIp, htrimmed] at h
  split at h
  case h_1 => cases h
  case h_2 addressPart prefixPart hcut =>
    obtain ⟨hvalue, -⟩ := eq_of_cutSlash hcut
    have hslash : ∀ c ∈ (String.singleton '/').toList, isLiteralChar c = true := by
      rw [String.toList_singleton, List.forall_mem_singleton]
      decide
    have hdigits : ∀ c ∈ prefixPart.toList, isLiteralChar c = true := by
      split_ifs at h with hdigits <;> rw [Bool.and_eq_true] at hdigits <;>
      exact fun c hc => isLiteralChar_of_isDigit (List.all_eq_true.mp hdigits.2 c hc)
    have haddress : ∀ c ∈ addressPart.toList, isLiteralChar c = true := by
      split_ifs at h with _ hipv4 hipv6
      · exact isLiteralChar_of_isValidIpv4Literal hipv4
      · exact isLiteralChar_of_isValidIpv6Literal hipv6
    rw [hvalue, String.append_assoc]
    refine isLiteral_of_char_slash haddress ?_ ?_
    · rw [String.toList_append, List.forall_mem_append]
      exact ⟨hslash, hdigits⟩
    · intro hempty
      rw [← String.toList_inj, String.toList_append, String.toList_singleton] at hempty
      cases hempty

end Turbopaneld.Firewall
