/-
# Default folder names

The folder name a web hosting service is given where its owner typed none: the primary
domain, cut and hashed where it does not fit the folder rule, and numbered where the name is
taken.  Whatever the domain, the name fits the rule.
-/

import Mathlib.Data.List.Chain
import Turbopaneld.Folders.Agreement
import Turbopaneld.JavaScript.Hex

namespace Turbopaneld.Folders

open JavaScript

/-! ## The hash -/

/-- A word of the hash; its arithmetic is that of `>>> 0`. -/
abbrev Word32 := BitVec 32

/-- `SHA256_K`. -/
def sha256K : List Word32 :=
  [0x428a2f98, 0x71374491, 0xb5c0fbcf, 0xe9b5dba5, 0x3956c25b, 0x59f111f1, 0x923f82a4, 0xab1c5ed5,
    0xd807aa98, 0x12835b01, 0x243185be, 0x550c7dc3, 0x72be5d74, 0x80deb1fe, 0x9bdc06a7, 0xc19bf174,
    0xe49b69c1, 0xefbe4786, 0x0fc19dc6, 0x240ca1cc, 0x2de92c6f, 0x4a7484aa, 0x5cb0a9dc, 0x76f988da,
    0x983e5152, 0xa831c66d, 0xb00327c8, 0xbf597fc7, 0xc6e00bf3, 0xd5a79147, 0x06ca6351, 0x14292967,
    0x27b70a85, 0x2e1b2138, 0x4d2c6dfc, 0x53380d13, 0x650a7354, 0x766a0abb, 0x81c2c92e, 0x92722c85,
    0xa2bfe8a1, 0xa81a664b, 0xc24b8b70, 0xc76c51a3, 0xd192e819, 0xd6990624, 0xf40e3585, 0x106aa070,
    0x19a4c116, 0x1e376c08, 0x2748774c, 0x34b0bcb5, 0x391c0cb3, 0x4ed8aa4a, 0x5b9cca4f, 0x682e6ff3,
    0x748f82ee, 0x78a5636f, 0x84c87814, 0x8cc70208, 0x90befffa, 0xa4506ceb, 0xbef9a3f7, 0xc67178f2]

def rotateRight (value : Word32) (bits : ℕ) : Word32 := value >>> bits ||| value <<< (32 - bits)

/-- The eight words `a` to `hh`. -/
structure Registers where
  (a b c d e f g hh : Word32)

/-- The sixteen words of a block, and the forty-eight worked out from them. -/
def schedule (block : List Word32) : List Word32 :=
  (List.range' 16 48).foldl (fun w i =>
    let s0 := rotateRight (w.getD (i - 15) 0) 7 ^^^ rotateRight (w.getD (i - 15) 0) 18 ^^^
      w.getD (i - 15) 0 >>> 3
    let s1 := rotateRight (w.getD (i - 2) 0) 17 ^^^ rotateRight (w.getD (i - 2) 0) 19 ^^^
      w.getD (i - 2) 0 >>> 10
    w ++ [w.getD (i - 16) 0 + s0 + w.getD (i - 7) 0 + s1]) block

/-- One round, with its constant and its word of the schedule. -/
def Registers.round (r : Registers) (k w : Word32) : Registers :=
  let s1 := rotateRight r.e 6 ^^^ rotateRight r.e 11 ^^^ rotateRight r.e 25
  let t1 := r.hh + s1 + ((r.e &&& r.f) ^^^ (~~~r.e &&& r.g)) + k + w
  let s0 := rotateRight r.a 2 ^^^ rotateRight r.a 13 ^^^ rotateRight r.a 22
  let t2 := s0 + ((r.a &&& r.b) ^^^ (r.a &&& r.c) ^^^ (r.b &&& r.c))
  ⟨t1 + t2, r.a, r.b, r.c, r.d + t1, r.e, r.f, r.g⟩

def sha256Block (h : Registers) (block : List Word32) : Registers :=
  let next := (sha256K.zip (schedule block)).foldl (fun r (k, w) => r.round k w) h
  ⟨h.a + next.a, h.b + next.b, h.c + next.c, h.d + next.d, h.e + next.e, h.f + next.f,
    h.g + next.g, h.hh + next.hh⟩

/-- The bytes of a word, the highest first. -/
def bytesOf (word : Word32) : List (BitVec 8) :=
  [(word >>> 24).setWidth 8, (word >>> 16).setWidth 8, (word >>> 8).setWidth 8, word.setWidth 8]

/-- The words that bytes make up, four bytes each. -/
def wordsOf : List (BitVec 8) → List Word32
  | b₁ :: b₂ :: b₃ :: b₄ :: rest => (b₁ ++ b₂ ++ b₃ ++ b₄) :: wordsOf rest
  | _ => []

/-- The data, a mark, zeros up to a whole number of blocks, and the length in bits. -/
def padded (data : List (BitVec 8)) : List (BitVec 8) :=
  let length := ((data.length + 9 + 63) >>> 6) <<< 6
  data ++ [0x80] ++ List.replicate (length - data.length - 9) 0 ++
    bytesOf (BitVec.ofNat 32 (data.length * 8 / 0x100000000)) ++
    bytesOf (BitVec.ofNat 32 (data.length * 8))

def initialRegisters : Registers :=
  ⟨0x6a09e667, 0xbb67ae85, 0x3c6ef372, 0xa54ff53a, 0x510e527f, 0x9b05688c, 0x1f83d9ab, 0x5be0cd19⟩

/-- `word.toString(16).padStart(8, "0")`. -/
def hexWord (word : Word32) : List Char :=
  let digits := Nat.toDigits 16 word.toNat
  List.replicate (8 - digits.length) '0' ++ digits

/-- `sha256Hex`. -/
def sha256Hex (text : String) : String :=
  let data := text.toUTF8.toList.map UInt8.toBitVec
  let h := ((wordsOf (padded data)).toChunks 16).foldl sha256Block initialRegisters
  String.ofList ([h.a, h.b, h.c, h.d, h.e, h.f, h.g, h.hh].flatMap hexWord)

/-! ## The domain -/

/-- What the runtime makes of a text: its normal form C, and the host name its URL parser
finds, an ASCII text; `none` where the parser throws. -/
structure DomainReader where
  normalizeNfc : String → String
  hostname : String → Option String

/-- `text.slice(0, -1)`, where the text ends in a dot. -/
def withoutLastDot (text : String) : String :=
  if endsWith text "." then takeChars text (text.toList.length - 1) else text

/-- `/[\s/?#@:\\%*[\]]/`. -/
def isOutsideHost (c : Char) : Bool := isSpace c || "/?#@:\\%*[]".toList.contains c

/-- `/^\d+$/`. -/
def isAllDigits (text : String) : Bool := text != "" && text.toList.all isDigit

/-- `domainToAscii`. -/
def domainToAscii (reader : DomainReader) (input : String) : Option String := do
  let text := withoutLastDot (reader.normalizeNfc (trim input))
  let wildcard := startsWith text "*."
  let rest := if wildcard then dropChars text 2 else text
  if rest == "" || rest.toList.any isOutsideHost then none
  else
    let labels := split '.' rest
    if labels.any (· == "") then none
    else if isAllDigits (labels.getLastD "") then none
    else
      let host := withoutLastDot (← reader.hostname ("http://" ++ rest))
      let hostLabels := split '.' host
      if hostLabels.any (· == "") then none
      else if host == "" || 253 < lengthInUnits host ||
          (hostLabels.length == 4 && hostLabels.all isAllDigits) then none
      else some ((if wildcard then "*." else "") ++ toLowerCase host)

/-! ## The name -/

/-- `DEFAULT_NAME_CUT_LENGTH`. -/
def defaultNameCutLength : ℕ := 54

/-- `DEFAULT_NAME_HASH_LENGTH`. -/
def defaultNameHashLength : ℕ := 8

/-- `COLLISION_SUFFIX_MIN`. -/
def collisionSuffixMin : ℕ := 2

/-- `COLLISION_SUFFIX_MAX`. -/
def collisionSuffixMax : ℕ := 99

/-- `FOLDER_NAME_MAX_LENGTH`. -/
def folderNameMaxLength : ℕ := 63

def isEdgeSeparator (c : Char) : Bool := ".-_".toList.contains c

/-- `trimEdgeSeparators`. -/
def trimEdgeSeparators (value : String) : String :=
  String.ofList ((value.toList.dropWhile isEdgeSeparator).rdropWhile isEdgeSeparator)

/-- `.replace(/\.{2,}/g, ".")`. -/
def collapseDots (chars : List Char) : List Char :=
  chars.foldr (fun c out => if c = '.' ∧ out.head? = some '.' then out else c :: out) []

/-- `defaultFolderNameFromDomain`. -/
def defaultFolderNameFromDomain (reader : DomainReader) (input : String) : Option String := do
  let ascii ← domainToAscii reader input
  let named := if startsWith ascii "*." then "wildcard." ++ dropChars ascii 2 else ascii
  if isValidFolderName named then some named
  else
    let cleaned := String.ofList (collapseDots (named.toList.filter isFolderChar))
    let base := trimEdgeSeparators (takeChars cleaned defaultNameCutLength)
    let hash := takeChars (sha256Hex ascii) defaultNameHashLength
    some (if base == "" then hash else base ++ "-" ++ hash)

/-- `withCollisionSuffix`. -/
def withCollisionSuffix (base : String) (n : ℕ) : Except String String :=
  if n < collisionSuffixMin ∨ collisionSuffixMax < n then
    .error "Collision suffix must be a whole number from 2 to 99"
  else
    let suffix := "-" ++ toString n
    let room := folderNameMaxLength - suffix.length
    let cut := if room < lengthInUnits base then trimEdgeSeparators (takeChars base room) else base
    .ok (cut ++ suffix)

/-- The loop of `firstFreeFolderName`, over the numbers not tried yet. -/
def firstFreeNumbered (base : String) (isTaken : String → Bool) : List ℕ → Except String (Option String)
  | [] => .ok none
  | n :: rest => do
    let candidate ← withCollisionSuffix base n
    if !isTaken candidate then return some candidate
    firstFreeNumbered base isTaken rest

/-- `firstFreeFolderName`. -/
def firstFreeFolderName (base : String) (isTaken : String → Bool) : Except String (Option String) :=
  if !isTaken base then .ok (some base)
  else
    firstFreeNumbered base isTaken
      (List.range' collisionSuffixMin (collisionSuffixMax + 1 - collisionSuffixMin))

/-! ## Characters -/

theorem isAlnum_digitChar : ∀ d < 16, isAlnum (Nat.digitChar d) = true := by decide

theorem isAlnum_of_mem_toDigits (n : ℕ) : ∀ c ∈ Nat.toDigits 16 n, isAlnum c = true := by
  induction n using Nat.strong_induction_on with
  | _ n ih =>
    rcases lt_or_ge n 16 with hlt | hle
    · rw [Nat.toDigits_of_lt_base hlt, List.forall_mem_singleton]
      exact isAlnum_digitChar n hlt
    · rw [Nat.toDigits_of_base_le (by decide) hle, List.forall_mem_append,
        List.forall_mem_singleton]
      exact ⟨ih (n / 16) (by omega), isAlnum_digitChar _ (Nat.mod_lt n (by decide))⟩

theorem isAlnum_of_mem_hexWord (word : Word32) : ∀ c ∈ hexWord word, isAlnum c = true := by
  rw [hexWord, List.forall_mem_append]
  refine ⟨?_, isAlnum_of_mem_toDigits word.toNat⟩
  intro c hc
  rw [List.eq_of_mem_replicate hc]
  rfl

theorem length_hexWord (word : Word32) : (hexWord word).length = 8 := by
  have hdigits : (Nat.toDigits 16 word.toNat).length ≤ 8 :=
    (Nat.length_toDigits_le_iff (by decide) (by decide)).mpr word.isLt
  rw [hexWord, List.length_append, List.length_replicate]
  omega

/-- A hash is sixty-four letters and digits. -/
theorem sha256Hex_digits (text : String) :
    (sha256Hex text).toList.length = 64 ∧ ∀ c ∈ (sha256Hex text).toList, isAlnum c = true := by
  rw [sha256Hex, String.toList_ofList]
  constructor
  · rw [List.length_flatMap]
    simp only [length_hexWord]
    rfl
  · intro c hc
    obtain ⟨word, -, hmem⟩ := List.mem_flatMap.mp hc
    exact isAlnum_of_mem_hexWord word c hmem

/-- What is left of a folder's characters at an edge that was trimmed is a letter or digit. -/
theorem isAlnum_of_not_isEdgeSeparator {c : Char} (hc : isFolderChar c = true)
    (hedge : isEdgeSeparator c = false) : isAlnum c = true := by
  simp only [isEdgeSeparator, List.contains_eq_mem, decide_eq_false_iff_not] at hedge
  simp only [isFolderChar, Bool.or_eq_true, beq_iff_eq] at hc
  obtain (((hlower | hdigit) | rfl) | rfl) | rfl := hc
  · rw [isAlnum, hlower, Bool.true_or]
  · rw [isAlnum, hdigit, Bool.or_true]
  all_goals exact absurd (by decide) hedge

theorem not_isEdgeSeparator_of_isAlnum {c : Char} (hc : isAlnum c = true) :
    ¬isEdgeSeparator c = true := by
  intro hedge
  have hnone : ".-_".toList.all (fun d => !isAlnum d) = true := by decide
  have hout := List.all_eq_true.mp hnone c (List.contains_iff_mem.mp hedge)
  rw [hc] at hout
  cases hout

/-! ## Dots -/

/-- No two dots follow each other. -/
def SingleDots (chars : List Char) : Prop := chars.IsChain fun c d => ¬(c = '.' ∧ d = '.')

theorem singleDots_iff {chars : List Char} : SingleDots chars ↔ ¬"..".toList <:+: chars := by
  rw [SingleDots, List.isChain_iff_forall_rel_of_append_cons_cons]
  constructor
  · rintro hsingle ⟨front, back, htext⟩
    have hsplit : chars = front ++ '.' :: '.' :: back := by simpa using htext.symm
    exact hsingle hsplit ⟨rfl, rfl⟩
  · rintro hnone c d front back rfl ⟨rfl, rfl⟩
    exact hnone ⟨front, back, by simp⟩

theorem head?_collapseDots (chars : List Char) : (collapseDots chars).head? = chars.head? := by
  cases chars with
  | nil => rfl
  | cons c rest =>
    rw [collapseDots, List.foldr_cons]
    split
    case isTrue hdot => rw [hdot.2, hdot.1, List.head?_cons]
    case isFalse => rfl

theorem singleDots_collapseDots (chars : List Char) : SingleDots (collapseDots chars) := by
  induction chars with
  | nil => exact List.IsChain.nil
  | cons c rest ih =>
    rw [collapseDots, List.foldr_cons]
    split
    case isTrue => exact ih
    case isFalse hdot =>
      rw [SingleDots, List.isChain_cons]
      refine ⟨?_, ih⟩
      rintro d hd ⟨rfl, rfl⟩
      exact hdot ⟨rfl, hd⟩

theorem mem_of_mem_collapseDots {chars : List Char} {c : Char} (hc : c ∈ collapseDots chars) :
    c ∈ chars := by
  induction chars with
  | nil => exact hc
  | cons first rest ih =>
    rw [collapseDots, List.foldr_cons] at hc
    split at hc
    case isTrue => exact List.mem_cons_of_mem first (ih hc)
    case isFalse =>
      rcases List.mem_cons.mp hc with rfl | hrest
      · exact List.mem_cons_self
      · exact List.mem_cons_of_mem first (ih hrest)

/-! ## Names built from a base and an end -/

/-- A text the end of a name may be put behind: what a valid name, or a trimmed piece of one,
is. -/
structure NameBase (chars : List Char) : Prop where
  head : ∀ c ∈ chars.head?, isAlnum c = true
  class_ : ∀ c ∈ chars, isFolderChar c = true
  singleDots : SingleDots chars

theorem FolderName.nameBase {chars : List Char} (h : FolderName chars) : NameBase chars := by
  refine ⟨?_, h.class_, singleDots_iff.mpr h.noDoubleDot⟩
  obtain ⟨c, rest, rfl, hc⟩ := h.head
  rintro _ ⟨⟩
  exact hc

/-- A name, a hyphen and letters or digits. -/
theorem NameBase.hyphenated {base tail : List Char} (hbase : NameBase base) (hne : base ≠ [])
    (htail : ∀ c ∈ tail, isAlnum c = true) (htailNe : tail ≠ [])
    (hlength : base.length + tail.length ≤ 62) : FolderName (base ++ '-' :: tail) where
  head := by
    obtain ⟨c, rest, rfl⟩ := List.exists_cons_of_ne_nil hne
    exact ⟨c, rest ++ '-' :: tail, rfl, hbase.head c rfl⟩
  class_ := by
    rw [List.forall_mem_append, List.forall_mem_cons]
    exact ⟨hbase.class_, rfl, fun c hc => isFolderChar_of_isAlnum (htail c hc)⟩
  last := by
    intro front c hsplit
    have hlast := congrArg List.getLast? hsplit
    rw [List.getLast?_concat, List.getLast?_append_of_ne_nil _ (List.cons_ne_nil _ _),
      List.getLast?_cons_of_ne_nil htailNe] at hlast
    exact htail c (List.mem_of_getLast? hlast)
  length := by
    rw [List.length_append, List.length_cons]
    omega
  noDoubleDot := by
    rw [← singleDots_iff, SingleDots, List.isChain_append, List.isChain_cons]
    have hdot : ∀ c, isAlnum c = true → c ≠ '.' := by
      rintro _ hc rfl
      exact absurd hc (by decide)
    refine ⟨hbase.singleDots, ⟨fun d hd h => absurd h.1 (by decide), ?_⟩, ?_⟩
    · rw [List.isChain_iff_forall_rel_of_append_cons_cons]
      rintro c d front back rfl ⟨rfl, -⟩
      exact hdot '.' (htail '.' (List.mem_append_right _ List.mem_cons_self)) rfl
    · rintro c - d ⟨⟩ ⟨-, h⟩
      exact absurd h (by decide)

theorem FolderName.of_isAlnum {chars : List Char} (hne : chars ≠ [])
    (hall : ∀ c ∈ chars, isAlnum c = true) (hlength : chars.length ≤ 63) : FolderName chars where
  head := by
    obtain ⟨c, rest, rfl⟩ := List.exists_cons_of_ne_nil hne
    exact ⟨c, rest, rfl, hall c List.mem_cons_self⟩
  class_ := fun c hc => isFolderChar_of_isAlnum (hall c hc)
  last := by
    rintro front c rfl
    exact hall c (List.mem_append_right front List.mem_cons_self)
  length := hlength
  noDoubleDot := by
    intro hdots
    exact absurd (hall '.' (hdots.subset List.mem_cons_self)) (by decide)

theorem toList_hyphenated (base tail : String) :
    (base ++ "-" ++ tail).toList = base.toList ++ '-' :: tail.toList := by
  rw [String.toList_append, String.toList_append, List.append_assoc]
  rfl

/-- Trimming a piece of a name leaves a base, of no more characters. -/
theorem nameBase_trimEdgeSeparators (chars : List Char)
    (hclass : ∀ c ∈ chars, isFolderChar c = true) (hdots : SingleDots chars) :
    NameBase (trimEdgeSeparators (String.ofList chars)).toList ∧
      (trimEdgeSeparators (String.ofList chars)).toList.length ≤ chars.length := by
  rw [trimEdgeSeparators, String.toList_ofList, String.toList_ofList]
  have hsuffix := List.dropWhile_suffix (l := chars) isEdgeSeparator
  have hfront := List.rdropWhile_prefix isEdgeSeparator (chars.dropWhile isEdgeSeparator)
  have hinside := hfront.isInfix.trans hsuffix.isInfix
  refine ⟨⟨?_, fun c hc => hclass c (hinside.subset hc), List.IsChain.infix hdots hinside⟩,
    hinside.length_le⟩
  intro c hc
  have hhead : (chars.dropWhile isEdgeSeparator).head? = some c := by
    obtain ⟨back, hback⟩ := hfront
    rw [← hback, List.head?_append, hc]
    rfl
  have hmem := List.mem_of_mem_head? hhead
  refine isAlnum_of_not_isEdgeSeparator (hclass c (hsuffix.subset hmem)) ?_
  have hne := List.ne_nil_of_mem hmem
  have hkept := List.head_dropWhile_not isEdgeSeparator hne
  rwa [List.head_eq_iff_head?_eq_some hne |>.mpr hhead] at hkept

/-! ## The default name -/

theorem isValidFolderName_of_defaultFolderNameFromDomain {reader : DomainReader}
    {input name : String} (h : defaultFolderNameFromDomain reader input = some name) :
    isValidFolderName name = true := by
  obtain ⟨ascii, -, hname⟩ := Option.bind_eq_some_iff.mp h
  dsimp only [defaultNameCutLength, defaultNameHashLength] at hname
  set named := if startsWith ascii "*." then "wildcard." ++ dropChars ascii 2 else ascii
  split at hname
  case isTrue hvalid =>
    obtain rfl := Option.some.inj hname
    exact hvalid
  case isFalse =>
    have hdigits := sha256Hex_digits ascii
    have hhash : ∀ c ∈ (sha256Hex ascii).toList.take 8, isAlnum c = true :=
      fun c hc => hdigits.2 c (List.mem_of_mem_take hc)
    have height : ((sha256Hex ascii).toList.take 8).length = 8 := by
      rw [List.length_take, hdigits.1]
      rfl
    have hhashNe : (sha256Hex ascii).toList.take 8 ≠ [] :=
      List.ne_nil_of_length_pos (by rw [height]; decide)
    -- What was cleaned and cut has only the characters of a name and single dots.
    set cleaned := collapseDots (named.toList.filter isFolderChar)
    have hclass : ∀ c ∈ cleaned.take 54, isFolderChar c = true := fun c hc =>
      (List.mem_filter.mp (mem_of_mem_collapseDots (List.mem_of_mem_take hc))).2
    have hdots : SingleDots (cleaned.take 54) :=
      List.IsChain.infix (singleDots_collapseDots _) (List.take_prefix 54 cleaned).isInfix
    obtain ⟨hbase, hlength⟩ := nameBase_trimEdgeSeparators _ hclass hdots
    rw [takeChars, String.toList_ofList] at hname
    have hcut : (cleaned.take 54).length ≤ 54 := List.length_take_le 54 cleaned
    obtain rfl := Option.some.inj hname
    rw [isValidFolderName_iff]
    split
    case isTrue =>
      rw [takeChars, String.toList_ofList]
      exact .of_isAlnum hhashNe hhash (by omega)
    case isFalse hempty =>
      have hne : (trimEdgeSeparators (String.ofList (cleaned.take 54))).toList ≠ [] :=
        fun hnil => hempty (beq_iff_eq.mpr (String.toList_eq_nil_iff.mp hnil))
      rw [toList_hyphenated, takeChars, String.toList_ofList]
      exact hbase.hyphenated hne hhash hhashNe (by omega)

/-! ## Numbered names -/

/-- A number of the range, in its two digits at most. -/
theorem suffix_digits : ∀ n ∈ List.range' 2 98, (toString n).toList ≠ [] ∧
    (toString n).toList.length ≤ 2 ∧ (toString n).toList.all isAlnum = true := by
  decide

theorem lengthInUnits_eq_of_folderName {base : String} (h : FolderName base.toList) :
    lengthInUnits base = base.toList.length := by
  have hsmall : lengthInUnits (String.ofList base.toList) = base.toList.length :=
    length_codeUnits_of_small fun c hc => (isFolderChar_ascii (h.class_ c hc)).trans (by decide)
  rwa [String.ofList_toList] at hsmall

theorem withCollisionSuffix_valid {base : String} {n : ℕ} (hbase : isValidFolderName base = true)
    (hlow : 2 ≤ n) (hhigh : n ≤ 99) :
    ∃ name, withCollisionSuffix base n = .ok name ∧ isValidFolderName name = true := by
  rw [isValidFolderName_iff] at hbase
  obtain ⟨hne, htwo, hall⟩ := suffix_digits n (List.mem_range'_1.mpr ⟨hlow, by omega⟩)
  have hlength : ("-" ++ toString n).length = (toString n).toList.length + 1 := by
    rw [← String.length_toList, String.toList_append, List.length_append, Nat.add_comm]
    rfl
  have hpos := List.length_pos_of_ne_nil hne
  rw [withCollisionSuffix, if_neg (by rw [collisionSuffixMin, collisionSuffixMax]; omega)]
  dsimp only
  rw [hlength, folderNameMaxLength, lengthInUnits_eq_of_folderName hbase]
  refine ⟨_, rfl, ?_⟩
  rw [isValidFolderName_iff, ← String.append_assoc, toList_hyphenated]
  obtain ⟨first, rest, hfirst, halnum⟩ := hbase.head
  split
  case isTrue hlong =>
    -- The first character of the base is a letter or digit, so the trimmed piece is not empty.
    set room := 63 - ((toString n).toList.length + 1)
    have hdots : SingleDots (base.toList.take room) :=
      List.IsChain.infix hbase.nameBase.singleDots (List.take_prefix room base.toList).isInfix
    obtain ⟨hcut, hcutLength⟩ := nameBase_trimEdgeSeparators (base.toList.take room)
      (fun c hc => hbase.class_ c (List.mem_of_mem_take hc)) hdots
    have hkept : (trimEdgeSeparators (String.ofList (base.toList.take room))).toList ≠ [] := by
      obtain ⟨count, hcount⟩ : ∃ count, room = count + 1 := ⟨room - 1, by omega⟩
      rw [trimEdgeSeparators, String.toList_ofList, String.toList_ofList, hfirst, hcount,
        List.take_succ_cons, List.dropWhile_cons_of_neg, ne_eq, List.rdropWhile_eq_nil_iff]
      · intro hall
        exact absurd (hall first List.mem_cons_self) (not_isEdgeSeparator_of_isAlnum halnum)
      · exact not_isEdgeSeparator_of_isAlnum halnum
    refine hcut.hyphenated hkept (List.all_eq_true.mp hall) hne ?_
    have htake := List.length_take_le room base.toList
    omega
  case isFalse hshort =>
    refine hbase.nameBase.hyphenated ?_ (List.all_eq_true.mp hall) hne (by omega)
    rw [hfirst]
    exact List.cons_ne_nil first rest

/-- The loop returns: a name that is not taken, or nothing where all it tried are. -/
theorem firstFreeNumbered_spec {base : String} (isTaken : String → Bool)
    (hbase : isValidFolderName base = true) (numbers : List ℕ)
    (hnumbers : ∀ n ∈ numbers, 2 ≤ n ∧ n ≤ 99) :
    ∃ found, firstFreeNumbered base isTaken numbers = .ok found ∧
      (∀ name, found = some name → isValidFolderName name = true ∧ isTaken name = false) ∧
        (found = none → ∀ n ∈ numbers, ∀ name, withCollisionSuffix base n = .ok name →
          isTaken name = true) := by
  induction numbers with
  | nil => exact ⟨none, rfl, by simp, by simp⟩
  | cons n rest ih =>
    obtain ⟨hn, hrest⟩ := List.forall_mem_cons.mp hnumbers
    obtain ⟨candidate, hcandidate, hvalid⟩ := withCollisionSuffix_valid hbase hn.1 hn.2
    rw [firstFreeNumbered, hcandidate]
    cases htaken : isTaken candidate with
    | false =>
      refine ⟨some candidate, by simp [bind, Except.bind, htaken, pure, Except.pure], ?_, by simp⟩
      rintro name ⟨⟩
      exact ⟨hvalid, htaken⟩
    | true =>
      obtain ⟨found, hfound, hname, hnone⟩ := ih hrest
      refine ⟨found, by simp [bind, Except.bind, htaken, hfound], hname, ?_⟩
      intro hempty
      rw [List.forall_mem_cons]
      refine ⟨?_, hnone hempty⟩
      intro name hsome
      rw [← Except.ok.inj (hcandidate.symm.trans hsome)]
      exact htaken

theorem firstFreeFolderName_spec {base : String} (isTaken : String → Bool)
    (hbase : isValidFolderName base = true) :
    ∃ found, firstFreeFolderName base isTaken = .ok found ∧
      (∀ name, found = some name → isValidFolderName name = true ∧ isTaken name = false) ∧
        (found = none → isTaken base = true ∧ ∀ n, 2 ≤ n → n ≤ 99 → ∀ name,
          withCollisionSuffix base n = .ok name → isTaken name = true) := by
  rw [firstFreeFolderName]
  cases htaken : isTaken base with
  | false =>
    refine ⟨some base, rfl, ?_, by simp⟩
    rintro name ⟨⟩
    exact ⟨hbase, htaken⟩
  | true =>
    obtain ⟨found, hfound, hname, hnone⟩ := firstFreeNumbered_spec isTaken hbase
      (List.range' 2 98) fun n hn => ⟨(List.mem_range'_1.mp hn).1, by
        have := (List.mem_range'_1.mp hn).2
        omega⟩
    refine ⟨found, hfound, hname, fun hempty => ⟨rfl, ?_⟩⟩
    intro n hlow hhigh
    exact hnone hempty n (List.mem_range'_1.mpr ⟨hlow, by omega⟩)

/-! ## Every default is valid and free -/

/-- Whatever the runtime makes of the domain, a default name fits the rule; so does every
numbered name, and the first free name is free or every name was taken. -/
theorem defaultNames_valid (reader : DomainReader) :
    (∀ input name, defaultFolderNameFromDomain reader input = some name →
      isValidFolderName name = true) ∧
    (∀ base n, isValidFolderName base = true → 2 ≤ n → n ≤ 99 →
      ∃ name, withCollisionSuffix base n = .ok name ∧ isValidFolderName name = true) ∧
    (∀ base isTaken, isValidFolderName base = true →
      ∃ found, firstFreeFolderName base isTaken = .ok found ∧
        (∀ name, found = some name → isValidFolderName name = true ∧ isTaken name = false) ∧
          (found = none → isTaken base = true ∧ ∀ n, 2 ≤ n → n ≤ 99 → ∀ name,
            withCollisionSuffix base n = .ok name → isTaken name = true)) :=
  ⟨fun _ _ h => isValidFolderName_of_defaultFolderNameFromDomain h,
    fun _ _ hbase hlow hhigh => withCollisionSuffix_valid hbase hlow hhigh,
    fun _ isTaken hbase => firstFreeFolderName_spec isTaken hbase⟩

/-- A reader for host names that are ASCII and lower-case as typed. -/
def plainReader : DomainReader := ⟨id, fun url => some (dropChars url 7)⟩

theorem defaultNames_valid_blog :
    isValidFolderName "blog.example.com" = true ∧
      (∃ name, withCollisionSuffix "blog.example.com" 7 = .ok name ∧
        isValidFolderName name = true) ∧
      ∃ found, firstFreeFolderName "blog.example.com" (· == "blog.example.com") = .ok found ∧
        ∀ name, found = some name → isValidFolderName name = true := by
  have hvalid := (defaultNames_valid plainReader).1 "blog.example.com" "blog.example.com"
    (by decide +kernel)
  obtain ⟨found, hfound, hname, -⟩ := (defaultNames_valid plainReader).2.2 "blog.example.com"
    (· == "blog.example.com") hvalid
  exact ⟨hvalid, (defaultNames_valid plainReader).2.1 _ 7 hvalid (by decide) (by decide),
    found, hfound, fun name h => (hname name h).1⟩

end Turbopaneld.Folders
