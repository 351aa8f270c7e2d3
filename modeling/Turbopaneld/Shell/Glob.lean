/-
# Shell words and patterns

A word of a shell script in the C locale is a string of bytes; here each byte is the
character of its number.  A `case` pattern is a list of pieces, and the expansions that
cut a word go by the same patterns.
-/

import Mathlib.Data.List.Infix
import Mathlib.Data.List.DropRight
import Mathlib.Tactic.SplitIfs

namespace Turbopaneld.Shell

/-- The bytes of a character, as characters. -/
def bytesOf (c : Char) : List Char := (String.utf8EncodeChar c).map fun byte => Char.ofNat byte.toNat

/-- A text as a word. -/
def word (text : String) : List Char := text.toList.flatMap bytesOf

/-- A piece of a pattern: a character, any run of characters, or a bracket expression. -/
inductive Piece
  | char (c : Char)
  | star
  | oneOf (accepts : Char → Bool)

/-- A pattern. -/
abbrev Glob := List Piece

/-- The characters of a quoted word match themselves. -/
def quoted (text : List Char) : Glob := text.map .char

/-- The whole word matches the pattern. -/
def globMatches : Glob → List Char → Bool
  | [], text => text.isEmpty
  | .char c :: rest, text =>
    match text with
    | [] => false
    | d :: more => d == c && globMatches rest more
  | .oneOf accepts :: rest, text =>
    match text with
    | [] => false
    | d :: more => accepts d && globMatches rest more
  | .star :: rest, text => text.tails.any (globMatches rest)

/-- One of the patterns of a `case` branch matches. -/
def caseMatches (patterns : List Glob) (text : List Char) : Bool :=
  patterns.any fun pattern => globMatches pattern text

/-- `${text#pattern}`: the shortest front that matches is cut off. -/
def cutFront (pattern : Glob) (text : List Char) : List Char :=
  match text.inits.find? (globMatches pattern) with
  | some front => text.drop front.length
  | none => text

/-- `${text%%pattern}`: the longest end that matches is cut off. -/
def cutLongestEnd (pattern : Glob) (text : List Char) : List Char :=
  match text.tails.find? (globMatches pattern) with
  | some back => text.take (text.length - back.length)
  | none => text

/-- What a command substitution makes of what was printed. -/
def substituted (printed : List Char) : List Char := printed.rdropWhile (· == '\n')

/-! ## Words -/

theorem word_append (front back : String) : word (front ++ back) = word front ++ word back := by
  rw [word, String.toList_append, List.flatMap_append]
  rfl

theorem bytesOf_ascii {c : Char} (hc : c.toNat < 128) : bytesOf c = [c] := by
  have hle : c.val.toNat ≤ 127 := Nat.le_of_lt_succ hc
  have hmod : c.val.toNat % 256 = c.val.toNat := Nat.mod_eq_of_lt (by omega)
  rw [bytesOf, String.utf8EncodeChar]
  simp only [if_pos hle, List.map_cons, List.map_nil, UInt8.toNat_ofNat']
  rw [show 2 ^ 8 = 256 from rfl, hmod]
  exact congrArg (fun c => [c]) (Char.ofNat_toNat c)

/-- A character beyond ASCII becomes bytes beyond ASCII. -/
theorem toNat_of_mem_bytesOf {c byte : Char} (hc : 128 ≤ c.toNat) (hbyte : byte ∈ bytesOf c) :
    128 ≤ byte.toNat := by
  have hgt : ¬c.val.toNat ≤ 127 := Nat.not_le.mpr (Nat.lt_of_succ_le hc)
  have hchar : ∀ byte : UInt8, (Char.ofNat byte.toNat).toNat = byte.toNat := by
    intro byte
    have hbyte := byte.toNat_lt
    have hvalid : byte.toNat.isValidChar := .inl (by omega)
    rw [Char.ofNat, dif_pos hvalid]
    rfl
  suffices h : ∀ byte ∈ String.utf8EncodeChar c, 128 ≤ byte.toNat by
    obtain ⟨encoded, hencoded, rfl⟩ := List.mem_map.mp hbyte
    rw [hchar]
    exact h encoded hencoded
  rw [String.utf8EncodeChar]
  simp only [if_neg hgt]
  split_ifs
  all_goals
    simp only [List.forall_mem_cons, List.not_mem_nil, false_implies, implies_true, and_true,
      UInt8.toNat_ofNat']
    omega

theorem bytesOf_ne_nil (c : Char) : bytesOf c ≠ [] := by
  rw [bytesOf, String.utf8EncodeChar]
  split_ifs <;> simp

theorem exists_byte_of_not_ascii {c : Char} (hc : 128 ≤ c.toNat) :
    ∃ byte ∈ bytesOf c, 128 ≤ byte.toNat := by
  obtain ⟨byte, hbyte⟩ := List.exists_mem_of_ne_nil _ (bytesOf_ne_nil c)
  exact ⟨byte, hbyte, toNat_of_mem_bytesOf hc hbyte⟩

/-- An ASCII character is in a word where it is in the text. -/
theorem mem_word_iff {c : Char} (hc : c.toNat < 128) {text : String} :
    c ∈ word text ↔ c ∈ text.toList := by
  rw [word, List.mem_flatMap]
  constructor
  · rintro ⟨d, hd, hmem⟩
    by_cases hascii : d.toNat < 128
    · rw [bytesOf_ascii hascii, List.mem_singleton] at hmem
      exact hmem ▸ hd
    · exact absurd (toNat_of_mem_bytesOf (Nat.not_lt.mp hascii) hmem) (Nat.not_le.mpr hc)
  · intro hmem
    refine ⟨c, hmem, ?_⟩
    rw [bytesOf_ascii hc]
    exact List.mem_singleton_self c

/-- An ASCII text is its own word. -/
theorem word_ascii {text : String} (htext : ∀ c ∈ text.toList, c.toNat < 128) :
    word text = text.toList := by
  rw [word]
  generalize text.toList = chars at htext
  induction chars with
  | nil => rfl
  | cons c rest ih =>
    obtain ⟨hc, hrest⟩ := List.forall_mem_cons.mp htext
    rw [List.flatMap_cons, bytesOf_ascii hc, ih hrest, List.singleton_append]

/-- A word of ASCII bytes is an ASCII text. -/
theorem ascii_of_word {text : String} (hword : ∀ byte ∈ word text, byte.toNat < 128) :
    ∀ c ∈ text.toList, c.toNat < 128 := by
  intro c hc
  by_contra hbeyond
  obtain ⟨byte, hbyte, hlarge⟩ := exists_byte_of_not_ascii (Nat.not_lt.mp hbeyond)
  have hmem : byte ∈ word text := List.mem_flatMap.mpr ⟨c, hc, hbyte⟩
  exact absurd (hword byte hmem) (Nat.not_lt.mpr hlarge)

/-! ## Patterns -/

@[simp]
theorem globMatches_nil (text : List Char) : globMatches [] text = text.isEmpty := rfl

@[simp]
theorem globMatches_char_nil (c : Char) (rest : Glob) : globMatches (.char c :: rest) [] = false := rfl

@[simp]
theorem globMatches_char_cons (c d : Char) (rest : Glob) (more : List Char) :
    globMatches (.char c :: rest) (d :: more) = (d == c && globMatches rest more) := rfl

@[simp]
theorem globMatches_oneOf_nil (accepts : Char → Bool) (rest : Glob) :
    globMatches (.oneOf accepts :: rest) [] = false := rfl

@[simp]
theorem globMatches_oneOf_cons (accepts : Char → Bool) (d : Char) (rest : Glob) (more : List Char) :
    globMatches (.oneOf accepts :: rest) (d :: more) = (accepts d && globMatches rest more) := rfl

theorem globMatches_star_cons {rest : Glob} {text : List Char} :
    globMatches (.star :: rest) text = true ↔
      ∃ first second, text = first ++ second ∧ globMatches rest second = true := by
  rw [globMatches, List.any_eq_true]
  constructor
  · rintro ⟨second, hsecond, hmatches⟩
    obtain ⟨first, rfl⟩ := (List.mem_tails _ _).mp hsecond
    exact ⟨first, second, rfl, hmatches⟩
  · rintro ⟨first, second, rfl, hmatches⟩
    exact ⟨second, (List.mem_tails _ _).mpr (List.suffix_append _ _), hmatches⟩

/-- A pattern in two parts matches a word in two parts. -/
theorem globMatches_append {front back : Glob} {text : List Char} :
    globMatches (front ++ back) text = true ↔
      ∃ first second, text = first ++ second ∧ globMatches front first = true ∧
        globMatches back second = true := by
  induction front generalizing text with
  | nil => simp
  | cons piece front ih =>
    cases piece with
    | char c =>
      cases text with
      | nil => simp
      | cons d more =>
        rw [List.cons_append, globMatches_char_cons, Bool.and_eq_true, ih]
        constructor
        · rintro ⟨hd, first, second, rfl, hfirst, hsecond⟩
          exact ⟨d :: first, second, rfl, by simp [hd, hfirst], hsecond⟩
        · rintro ⟨first, second, htext, hfirst, hsecond⟩
          cases first with
          | nil => simp at hfirst
          | cons d' first =>
            obtain ⟨rfl, rfl⟩ := List.cons.inj htext
            rw [globMatches_char_cons, Bool.and_eq_true] at hfirst
            exact ⟨hfirst.1, first, second, rfl, hfirst.2, hsecond⟩
    | oneOf accepts =>
      cases text with
      | nil => simp
      | cons d more =>
        rw [List.cons_append, globMatches_oneOf_cons, Bool.and_eq_true, ih]
        constructor
        · rintro ⟨hd, first, second, rfl, hfirst, hsecond⟩
          exact ⟨d :: first, second, rfl, by simp [hd, hfirst], hsecond⟩
        · rintro ⟨first, second, htext, hfirst, hsecond⟩
          cases first with
          | nil => simp at hfirst
          | cons d' first =>
            obtain ⟨rfl, rfl⟩ := List.cons.inj htext
            rw [globMatches_oneOf_cons, Bool.and_eq_true] at hfirst
            exact ⟨hfirst.1, first, second, rfl, hfirst.2, hsecond⟩
    | star =>
      simp only [List.cons_append, globMatches_star_cons, ih]
      constructor
      · rintro ⟨run, _, rfl, first, second, rfl, hfirst, hsecond⟩
        exact ⟨run ++ first, second, by rw [List.append_assoc], ⟨run, first, rfl, hfirst⟩, hsecond⟩
      · rintro ⟨_, second, rfl, ⟨run, first, rfl, hfirst⟩, hsecond⟩
        exact ⟨run, first ++ second, by rw [List.append_assoc], first, second, rfl, hfirst, hsecond⟩

@[simp]
theorem globMatches_star (text : List Char) : globMatches [.star] text = true := by
  rw [globMatches_star_cons]
  exact ⟨text, [], by simp, rfl⟩

theorem globMatches_quoted {chars text : List Char} :
    globMatches (quoted chars) text = true ↔ text = chars := by
  induction chars generalizing text with
  | nil => simp [quoted]
  | cons c chars ih =>
    rw [quoted, List.map_cons, ← quoted]
    cases text with
    | nil => simp
    | cons d more => simp [ih]

theorem globMatches_oneOf {accepts : Char → Bool} {text : List Char} :
    globMatches [.oneOf accepts] text = true ↔ ∃ c, text = [c] ∧ accepts c = true := by
  cases text with
  | nil => simp [globMatches]
  | cons c rest => simp [globMatches, and_comm]

/-- `text*` -/
theorem globMatches_front {chars text : List Char} :
    globMatches (quoted chars ++ [.star]) text = true ↔ chars <+: text := by
  rw [globMatches_append]
  constructor
  · rintro ⟨first, second, rfl, hfirst, -⟩
    rw [globMatches_quoted.mp hfirst]
    exact List.prefix_append _ _
  · rintro ⟨second, rfl⟩
    exact ⟨chars, second, rfl, globMatches_quoted.mpr rfl, globMatches_star second⟩

/-- `*text` -/
theorem globMatches_end {chars text : List Char} :
    globMatches (.star :: quoted chars) text = true ↔ chars <:+ text := by
  rw [← List.singleton_append, globMatches_append]
  constructor
  · rintro ⟨first, second, rfl, -, hsecond⟩
    rw [globMatches_quoted.mp hsecond]
    exact List.suffix_append _ _
  · rintro ⟨first, rfl⟩
    exact ⟨first, chars, rfl, globMatches_star first, globMatches_quoted.mpr rfl⟩

/-- `*text*` -/
theorem globMatches_inside {chars text : List Char} :
    globMatches (.star :: (quoted chars ++ [.star])) text = true ↔ chars <:+: text := by
  rw [← List.singleton_append, globMatches_append]
  constructor
  · rintro ⟨first, second, rfl, -, hsecond⟩
    obtain ⟨rest, rfl⟩ := globMatches_front.mp hsecond
    exact ⟨first, rest, by rw [List.append_assoc]⟩
  · rintro ⟨first, rest, rfl⟩
    exact ⟨first, chars ++ rest, by rw [List.append_assoc], globMatches_star first,
      globMatches_front.mpr (List.prefix_append _ _)⟩

/-- `[class]*` -/
theorem globMatches_head {accepts : Char → Bool} {text : List Char} :
    globMatches [.oneOf accepts, .star] text = true ↔
      ∃ c rest, text = c :: rest ∧ accepts c = true := by
  cases text with
  | nil => simp [globMatches]
  | cons c rest => simp [globMatches]

/-- `*[class]*` -/
theorem globMatches_any {accepts : Char → Bool} {text : List Char} :
    globMatches [.star, .oneOf accepts, .star] text = true ↔ ∃ c ∈ text, accepts c = true := by
  rw [globMatches_star_cons]
  simp only [globMatches_head]
  constructor
  · rintro ⟨first, _, rfl, c, rest, rfl, hc⟩
    exact ⟨c, by simp, hc⟩
  · rintro ⟨c, hmem, hc⟩
    obtain ⟨first, rest, rfl⟩ := List.append_of_mem hmem
    exact ⟨first, c :: rest, rfl, c, rest, rfl, hc⟩

/-- `*[class]` -/
theorem globMatches_last {accepts : Char → Bool} {text : List Char} :
    globMatches [.star, .oneOf accepts] text = true ↔
      ∃ front c, text = front ++ [c] ∧ accepts c = true := by
  rw [globMatches_star_cons]
  simp only [globMatches_oneOf]
  constructor
  · rintro ⟨front, _, rfl, c, rfl, hc⟩
    exact ⟨front, c, rfl, hc⟩
  · rintro ⟨front, c, rfl, hc⟩
    exact ⟨front, [c], rfl, c, rfl, hc⟩

theorem caseMatches_eq_false_iff {patterns : List Glob} {text : List Char} :
    caseMatches patterns text = false ↔ ∀ pattern ∈ patterns, globMatches pattern text ≠ true := by
  rw [caseMatches, List.any_eq_false]

/-- A piece that any run of characters matches. -/
def Piece.isStar : Piece → Bool
  | .star => true
  | _ => false

/-- A pattern without a star matches words of one length. -/
theorem length_of_globMatches {pattern : Glob} {text : List Char}
    (hpattern : pattern.all (fun piece => !piece.isStar) = true)
    (hmatches : globMatches pattern text = true) : text.length = pattern.length := by
  induction pattern generalizing text with
  | nil => simpa using hmatches
  | cons piece rest ih =>
    rw [List.all_cons, Bool.and_eq_true] at hpattern
    cases piece with
    | star => simp [Piece.isStar] at hpattern
    | char c =>
      cases text with
      | nil => simp at hmatches
      | cons d more =>
        rw [globMatches_char_cons, Bool.and_eq_true] at hmatches
        rw [List.length_cons, List.length_cons, ih hpattern.2 hmatches.2]
    | oneOf accepts =>
      cases text with
      | nil => simp at hmatches
      | cons d more =>
        rw [globMatches_oneOf_cons, Bool.and_eq_true] at hmatches
        rw [List.length_cons, List.length_cons, ih hpattern.2 hmatches.2]

/-- The characters a piece matches all have a property. -/
def Piece.Within (P : Char → Prop) : Piece → Prop
  | .star => False
  | .char c => P c
  | .oneOf accepts => ∀ c, accepts c = true → P c

theorem forall_of_globMatches {P : Char → Prop} {pattern : Glob} {text : List Char}
    (hpattern : ∀ piece ∈ pattern, piece.Within P) (hmatches : globMatches pattern text = true) :
    ∀ c ∈ text, P c := by
  induction pattern generalizing text with
  | nil =>
    obtain rfl : text = [] := by simpa using hmatches
    simp
  | cons piece rest ih =>
    obtain ⟨hpiece, hrest⟩ := List.forall_mem_cons.mp hpattern
    cases piece with
    | star => exact hpiece.elim
    | char c =>
      cases text with
      | nil => simp
      | cons d more =>
        rw [globMatches_char_cons, Bool.and_eq_true, beq_iff_eq] at hmatches
        exact List.forall_mem_cons.mpr ⟨hmatches.1 ▸ hpiece, ih hrest hmatches.2⟩
    | oneOf accepts =>
      cases text with
      | nil => simp
      | cons d more =>
        rw [globMatches_oneOf_cons, Bool.and_eq_true] at hmatches
        exact List.forall_mem_cons.mpr ⟨hpiece d hmatches.1, ih hrest hmatches.2⟩

/-- A check that only takes ASCII words says the same of a text and of its word. -/
theorem check_word {check : List Char → Bool}
    (hascii : ∀ chars, check chars = true → ∀ c ∈ chars, c.toNat < 128) (text : String) :
    check (word text) = check text.toList := by
  by_cases htext : ∀ c ∈ text.toList, c.toNat < 128
  · rw [word_ascii htext]
  · have hplain : check text.toList = false :=
      Bool.eq_false_iff.mpr fun htrue => htext (hascii _ htrue)
    have hword : check (word text) = false :=
      Bool.eq_false_iff.mpr fun htrue => htext (ascii_of_word (hascii _ htrue))
    rw [hplain, hword]

/-! ## Cutting at a slash -/

/-- `*c` for one character. -/
def upToChar (c : Char) : Glob := [.star, .char c]

/-- `c*` for one character. -/
def fromChar (c : Char) : Glob := [.char c, .star]

theorem globMatches_upToChar {c : Char} {text : List Char} :
    globMatches (upToChar c) text = true ↔ ∃ front, text = front ++ [c] := by
  rw [upToChar, globMatches_star_cons]
  constructor
  · rintro ⟨front, second, rfl, hsecond⟩
    rw [show [Piece.char c] = quoted [c] from rfl, globMatches_quoted] at hsecond
    exact ⟨front, by rw [hsecond]⟩
  · rintro ⟨front, rfl⟩
    exact ⟨front, [c], rfl, by simp⟩

theorem find?_inits_of_notMem {c : Char} {text : List Char} (htext : c ∉ text) :
    text.inits.find? (globMatches (upToChar c)) = none := by
  rw [List.find?_eq_none]
  intro front hfront hmatches
  obtain ⟨before, rfl⟩ := globMatches_upToChar.mp hmatches
  have hinit : before ++ [c] <+: text := (List.mem_inits _ _).mp hfront
  exact htext (hinit.subset (by simp))

theorem cutFront_upToChar {c : Char} {front : List Char} (hfront : c ∉ front) (rest : List Char) :
    cutFront (upToChar c) (front ++ c :: rest) = rest := by
  have hmatches : globMatches (upToChar c) (front ++ [c]) = true :=
    globMatches_upToChar.mpr ⟨front, rfl⟩
  have hinits : ∃ more, rest.inits = [] :: more := by
    cases rest with
    | nil => exact ⟨[], rfl⟩
    | cons d rest => exact ⟨_, List.inits_cons d rest⟩
  obtain ⟨more, hmore⟩ := hinits
  have hfound : (front ++ c :: rest).inits.find? (globMatches (upToChar c)) = some (front ++ [c]) := by
    rw [List.inits_append, List.find?_append, find?_inits_of_notMem hfront, List.inits_cons,
      List.tail_cons, hmore, List.map_cons, List.map_cons, List.find?_cons_of_pos hmatches]
    rfl
  rw [cutFront, hfound]
  simp

theorem cutFront_of_notMem {c : Char} {text : List Char} (htext : c ∉ text) :
    cutFront (upToChar c) text = text := by
  rw [cutFront, find?_inits_of_notMem htext]

theorem globMatches_fromChar (c : Char) (text : List Char) :
    globMatches (fromChar c) text = (text.head? == some c) := by
  cases text with
  | nil => rfl
  | cons d rest => rw [fromChar, globMatches_char_cons, globMatches_star]; simp

theorem cutLongestEnd_fromChar {c : Char} {front : List Char} (hfront : c ∉ front)
    (rest : List Char) : cutLongestEnd (fromChar c) (front ++ c :: rest) = front := by
  have hfound : (front ++ c :: rest).tails.find? (globMatches (fromChar c)) = some (c :: rest) := by
    induction front with
    | nil =>
      rw [List.nil_append, List.tails_cons, List.find?_cons_of_pos]
      simp [globMatches_fromChar]
    | cons d front ih =>
      rw [List.mem_cons, not_or] at hfront
      rw [List.cons_append, List.tails_cons, List.find?_cons_of_neg, ih hfront.2]
      rw [globMatches_fromChar]
      simpa using fun h => hfront.1 h.symm
  rw [cutLongestEnd, hfound]
  simp

theorem cutLongestEnd_of_notMem {c : Char} {text : List Char} (htext : c ∉ text) :
    cutLongestEnd (fromChar c) text = text := by
  have hnone : text.tails.find? (globMatches (fromChar c)) = none := by
    rw [List.find?_eq_none]
    intro back hback
    rw [globMatches_fromChar]
    intro hhead
    rw [beq_iff_eq] at hhead
    exact htext (((List.mem_tails _ _).mp hback).subset (List.mem_of_mem_head? hhead))
  rw [cutLongestEnd, hnone]

theorem cutFront_quoted (front rest : List Char) : cutFront (quoted front) (front ++ rest) = rest := by
  have hmem : front ∈ (front ++ rest).inits := (List.mem_inits _ _).mpr (List.prefix_append _ _)
  cases hfound : (front ++ rest).inits.find? (globMatches (quoted front)) with
  | none => exact absurd (globMatches_quoted.mpr rfl) (List.find?_eq_none.mp hfound front hmem)
  | some found =>
    obtain rfl := globMatches_quoted.mp (List.find?_some hfound)
    rw [cutFront, hfound]
    exact List.drop_left

end Turbopaneld.Shell
