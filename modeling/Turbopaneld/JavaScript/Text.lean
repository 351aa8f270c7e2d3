/-
# Strings as the source's language has them

The few string functions the gate and the deploy code use, on Lean strings.  A
separator is always one ASCII character and an index is never taken inside a
character, so working on code points gives what the source's code units give.
-/

import Mathlib.Data.List.Infix
import Mathlib.Data.List.DropRight

namespace Turbopaneld.JavaScript

/-- `text.split(separator)` for a separator of one character. -/
def split (separator : Char) (text : String) : List String :=
  (text.toList.splitOn separator).map String.ofList

/-- `text.startsWith(front)`. -/
def startsWith (text front : String) : Bool := front.toList.isPrefixOf text.toList

/-- `text.endsWith(back)`. -/
def endsWith (text back : String) : Bool := back.toList.isSuffixOf text.toList

/-- `text.includes(needle)`. -/
def includes (text needle : String) : Bool :=
  text.toList.tails.any fun tail => needle.toList.isPrefixOf tail

/-- `text.slice(count)`. -/
def dropChars (text : String) (count : ℕ) : String := String.ofList (text.toList.drop count)

/-- `text.slice(0, count)`. -/
def takeChars (text : String) (count : ℕ) : String := String.ofList (text.toList.take count)

/-- `text.lastIndexOf(separator)` for a separator of one character; `-1` when there is none. -/
def lastIndexOf (separator : Char) (text : String) : ℤ :=
  match text.toList.reverse.idxOf? separator with
  | none => -1
  | some back => text.length - 1 - back

/-- The text after `front`, when there is one: the capture of `^front(.*)$`. -/
def afterFront (front text : String) : Option String :=
  if startsWith text front then some (dropChars text front.length) else none

/-- The text between `front` and `back`, when it is not empty: the capture of
`^front([^]+)back$`. -/
def between (front back text : String) : Option String := do
  let rest ← afterFront front text
  if endsWith rest back && back.length < rest.length then
    some (takeChars rest (rest.length - back.length))
  else none

/-- The code units of a text. -/
def codeUnits (text : String) : List ℕ :=
  text.toList.flatMap fun c =>
    if c.toNat < 0x10000 then [c.toNat]
    else [0xd800 + (c.toNat - 0x10000) / 0x400, 0xdc00 + (c.toNat - 0x10000) % 0x400]

/-- `text.length`. -/
def lengthInUnits (text : String) : ℕ := (codeUnits text).length

/-- The characters `.` of a pattern does not match. -/
def isLineTerminator (c : Char) : Bool :=
  c == '\n' || c == '\r' || c == '\u2028' || c == '\u2029'

/-- Every character is one that `.` matches. -/
def isDotted (text : String) : Bool := text.toList.all fun c => !isLineTerminator c

/-- The characters `trim` removes. -/
def isSpace (c : Char) : Bool :=
  c == ' ' || c == '\t' || c == '\n' || c == '\u000b' || c == '\u000c' || c == '\r' ||
    c == '\u00a0' || c == '\u1680' || ('\u2000' ≤ c && c ≤ '\u200a') || c == '\u2028' ||
    c == '\u2029' || c == '\u202f' || c == '\u205f' || c == '\u3000' || c == '\ufeff'

/-- `text.trim()`. -/
def trim (text : String) : String :=
  String.ofList ((text.toList.dropWhile isSpace).rdropWhile isSpace)

/-- `text.toLowerCase()` of an ASCII text. -/
def toLowerCase (text : String) : String := String.ofList (text.toList.map Char.toLower)

/-- `/^[0-9]$/`. -/
def isDigit (c : Char) : Bool := '0' ≤ c && c ≤ '9'

/-- `/^[a-z]$/`. -/
def isLower (c : Char) : Bool := 'a' ≤ c && c ≤ 'z'

/-- `/^[A-Za-z]$/`. -/
def isLetter (c : Char) : Bool := isLower c || ('A' ≤ c && c ≤ 'Z')

/-- The word characters of a pattern's `\b`. -/
def isWord (c : Char) : Bool := isLetter c || isDigit c || c == '_'

/-- Characters below `0x10000` take one code unit each. -/
theorem length_codeUnits_of_small {chars : List Char} (hsmall : ∀ c ∈ chars, c.toNat < 0x10000) :
    lengthInUnits (String.ofList chars) = chars.length := by
  rw [lengthInUnits, codeUnits, String.toList_ofList, List.length_flatMap]
  have hone : chars.map (fun c => List.length (if c.toNat < 0x10000 then [c.toNat]
      else [0xd800 + (c.toNat - 0x10000) / 0x400, 0xdc00 + (c.toNat - 0x10000) % 0x400])) =
      chars.map fun _ => 1 := by
    apply List.map_congr_left
    intro c hc
    rw [if_pos (hsmall c hc)]
    rfl
  rw [hone]
  simp

/-- `trim` leaves a text without white space alone. -/
theorem trim_of_forall {text : String} (h : ∀ c ∈ text.toList, isSpace c = false) :
    trim text = text := by
  have hfront : text.toList.dropWhile isSpace = text.toList := by
    rw [List.dropWhile_eq_self_iff]
    intro hpos
    simp [h _ (List.getElem_mem hpos)]
  have hback : text.toList.rdropWhile isSpace = text.toList := by
    rw [List.rdropWhile_eq_self_iff]
    intro hne
    simp [h _ (List.getLast_mem hne)]
  rw [trim, hfront, hback, String.ofList_toList]

/-- A trimmed text has nothing left to trim. -/
theorem trim_trim (text : String) : trim (trim text) = trim text := by
  have hfront : ((text.toList.dropWhile isSpace).rdropWhile isSpace).dropWhile isSpace =
      (text.toList.dropWhile isSpace).rdropWhile isSpace := by
    rw [List.dropWhile_eq_self_iff]
    intro hpos
    have hshort := List.rdropWhile_prefix isSpace (text.toList.dropWhile isSpace)
    rw [hshort.getElem hpos]
    exact List.dropWhile_eq_self_iff.mp (List.dropWhile_idempotent isSpace _)
      (hpos.trans_le hshort.length_le)
  rw [trim, trim, String.toList_ofList, hfront, List.rdropWhile_idempotent]

theorem startsWith_iff {text front : String} :
    startsWith text front = true ↔ front.toList <+: text.toList := by
  rw [startsWith, List.isPrefixOf_iff_prefix]

theorem endsWith_iff {text back : String} :
    endsWith text back = true ↔ back.toList <:+ text.toList := by
  rw [endsWith, List.isSuffixOf_iff_suffix]

theorem includes_iff {text needle : String} :
    includes text needle = true ↔ needle.toList <:+: text.toList := by
  rw [includes, List.any_eq_true]
  constructor
  · rintro ⟨tail, htail, hneedle⟩
    exact (List.isPrefixOf_iff_prefix.mp hneedle).isInfix.trans ((List.mem_tails _ _).mp htail).isInfix
  · rintro ⟨front, back, htext⟩
    refine ⟨needle.toList ++ back, (List.mem_tails _ _).mpr ⟨front, ?_⟩, ?_⟩
    · rw [← List.append_assoc, htext]
    · exact List.isPrefixOf_iff_prefix.mpr (List.prefix_append _ _)

/-! ## What the captures say -/

theorem afterFront_eq_some_iff {front text rest : String} :
    afterFront front text = some rest ↔ text = front ++ rest := by
  rw [afterFront, ← String.toList_inj, String.toList_append]
  constructor
  · intro hafter
    split at hafter
    · rename_i hfront
      rw [startsWith, List.isPrefixOf_iff_prefix] at hfront
      obtain ⟨tail, htail⟩ := hfront
      have hrest : rest.toList = tail := by
        rw [← Option.some.inj hafter, dropChars, String.toList_ofList, ← htail, ← String.length_toList,
          List.drop_left]
      rw [hrest, htail]
    · exact absurd hafter (by simp)
  · intro htext
    have hfront : startsWith text front = true := by
      rw [startsWith, List.isPrefixOf_iff_prefix, htext]
      exact List.prefix_append _ _
    rw [if_pos hfront, dropChars, htext, ← String.length_toList, List.drop_left, String.ofList_toList]

theorem between_eq_some_iff {front back text name : String} :
    between front back text = some name ↔ text = front ++ name ++ back ∧ name ≠ "" := by
  constructor
  · intro hbetween
    rw [between] at hbetween
    obtain ⟨rest, hrest, hname⟩ := Option.bind_eq_some_iff.mp hbetween
    split at hname
    · rename_i hends
      rw [Bool.and_eq_true, endsWith, List.isSuffixOf_iff_suffix, decide_eq_true_iff] at hends
      obtain ⟨⟨head, hhead⟩, hlength⟩ := hends
      have hnames : name.toList = head := by
        rw [← Option.some.inj hname, takeChars, String.toList_ofList, ← hhead,
          ← String.length_toList, ← String.length_toList, ← hhead, List.length_append,
          Nat.add_sub_cancel, List.take_left]
      have hjoin : rest = name ++ back := by
        rw [← String.toList_inj, String.toList_append, hnames, hhead]
      constructor
      · rw [afterFront_eq_some_iff.mp hrest, hjoin, String.append_assoc]
      · intro hempty
        rw [hjoin, hempty, String.empty_append] at hlength
        exact absurd hlength (lt_irrefl _)
    · exact absurd hname (by simp)
  · rintro ⟨htext, hname⟩
    have hrest : afterFront front text = some (name ++ back) := by
      rw [afterFront_eq_some_iff, htext, String.append_assoc]
    have hpos : 0 < name.toList.length := by
      rw [List.length_pos_iff]
      intro hnil
      exact hname (String.toList_inj.mp hnil)
    have hends : (endsWith (name ++ back) back && decide (back.length < (name ++ back).length)) =
        true := by
      rw [Bool.and_eq_true, endsWith, List.isSuffixOf_iff_suffix, decide_eq_true_iff,
        String.toList_append, ← String.length_toList, ← String.length_toList, String.toList_append,
        List.length_append]
      exact ⟨List.suffix_append _ _, by omega⟩
    rw [between, hrest, Option.bind_eq_bind, Option.bind_some, if_pos hends, takeChars,
      ← String.length_toList, ← String.length_toList, String.toList_append, List.length_append,
      Nat.add_sub_cancel, List.take_left, String.ofList_toList]

theorem afterFront_append (front rest : String) : afterFront front (front ++ rest) = some rest :=
  afterFront_eq_some_iff.mpr rfl

/-- A text that starts with another character. -/
theorem afterFront_append_of_head {front head rest : String} (hfront : front ≠ "")
    (hhead : head ≠ "") (hne : front.toList.head? ≠ head.toList.head?) :
    afterFront front (head ++ rest) = none := by
  cases hafter : afterFront front (head ++ rest) with
  | none => rfl
  | some after =>
    rw [afterFront_eq_some_iff, ← String.toList_inj, String.toList_append,
      String.toList_append] at hafter
    have hheads := congrArg List.head? hafter
    rw [List.head?_append_of_ne_nil _ (by simpa using hhead),
      List.head?_append_of_ne_nil _ (by simpa using hfront)] at hheads
    exact absurd hheads.symm hne

/-! ## What the pieces of a text say -/

/-- A text that parts from the front at some character. -/
theorem afterFront_append_of_not_prefix {front head rest : String}
    (hfront : ¬front.toList <+: head.toList) (hhead : ¬head.toList <+: front.toList) :
    afterFront front (head ++ rest) = none := by
  cases hafter : afterFront front (head ++ rest) with
  | none => rfl
  | some after =>
    rw [afterFront_eq_some_iff, ← String.toList_inj, String.toList_append,
      String.toList_append] at hafter
    have hstarts : front.toList <+: head.toList ++ rest.toList := ⟨after.toList, hafter.symm⟩
    exact (List.prefix_or_prefix_of_prefix hstarts ⟨rest.toList, rfl⟩).elim
      (fun h => absurd h hfront) fun h => absurd h hhead

theorem lastIndexOf_eq {separator : Char} {front back : String} (hback : separator ∉ back.toList) :
    lastIndexOf separator (front ++ String.singleton separator ++ back) = front.length := by
  have hindex : (front ++ String.singleton separator ++ back).toList.reverse.idxOf? separator =
      some back.length := by
    rw [String.toList_append, String.toList_append, String.toList_singleton, List.reverse_append,
      List.reverse_append, List.reverse_singleton, List.idxOf?, List.findIdx?_append]
    have hnone : back.toList.reverse.findIdx? (· == separator) = none := by
      rw [List.findIdx?_eq_none_iff]
      intro c hc
      rw [List.mem_reverse] at hc
      rw [beq_eq_false_iff_ne]
      intro heq
      exact hback (heq ▸ hc)
    rw [hnone]
    simp [List.findIdx?_cons, String.length_toList]
  rw [lastIndexOf, hindex, String.length_append, String.length_append, String.length_singleton]
  dsimp only
  omega

/-- Where a separator stands in a text, the text splits at its last place. -/
theorem exists_of_mem {separator : Char} {text : String} (h : separator ∈ text.toList) :
    ∃ front back, text = front ++ String.singleton separator ++ back ∧ separator ∉ back.toList := by
  obtain ⟨back, front, hsplit, hback⟩ := List.eq_append_cons_of_mem (List.mem_reverse.mpr h)
  refine ⟨String.ofList front.reverse, String.ofList back.reverse, ?_, ?_⟩
  · rw [← String.toList_inj, String.toList_append, String.toList_append, String.toList_ofList,
      String.toList_ofList, String.toList_singleton, ← List.reverse_reverse text.toList, hsplit]
    simp
  · rw [String.toList_ofList, List.mem_reverse]
    exact hback

theorem lastIndexOf_of_notMem {separator : Char} {text : String} (h : separator ∉ text.toList) :
    lastIndexOf separator text = -1 := by
  have hindex : text.toList.reverse.idxOf? separator = none := by
    rw [List.idxOf?, List.findIdx?_eq_none_iff]
    intro c hc
    rw [List.mem_reverse] at hc
    rw [beq_eq_false_iff_ne]
    intro heq
    exact h (heq ▸ hc)
  rw [lastIndexOf, hindex]

theorem notMem_of_mem_splitOn {α : Type*} [DecidableEq α] {separator : α} {items piece : List α}
    (hpiece : piece ∈ items.splitOn separator) : separator ∉ piece := by
  induction items generalizing piece with
  | nil =>
    rw [List.splitOn_nil, List.mem_singleton] at hpiece
    simp [hpiece]
  | cons item items ih =>
    rw [List.splitOn_cons_eq_if_modifyHead] at hpiece
    split at hpiece
    · obtain rfl | hpiece := List.mem_cons.mp hpiece
      · exact List.not_mem_nil
      · exact ih hpiece
    · rename_i hitem
      cases hsplit : items.splitOn separator with
      | nil => exact absurd hsplit (List.splitOn_ne_nil separator items)
      | cons first rest =>
        rw [hsplit, List.modifyHead_cons, List.mem_cons] at hpiece
        obtain rfl | hpiece := hpiece
        · rw [List.mem_cons, not_or]
          refine ⟨fun heq => hitem (by simp [heq]), ih ?_⟩
          rw [hsplit]
          exact List.mem_cons_self
        · apply ih
          rw [hsplit]
          exact List.mem_cons_of_mem _ hpiece

theorem notMem_of_mem_split {separator : Char} {text piece : String}
    (hpiece : piece ∈ split separator text) : separator ∉ piece.toList := by
  obtain ⟨chars, hchars, rfl⟩ := List.mem_map.mp hpiece
  rw [String.toList_ofList]
  exact notMem_of_mem_splitOn hchars

theorem split_append (separator : Char) (front rest : String) :
    split separator (front ++ String.singleton separator ++ rest) =
      split separator front ++ split separator rest := by
  rw [split, split, split, String.toList_append, String.toList_append, String.toList_singleton,
    List.append_assoc, List.singleton_append, List.splitOn_append_cons_self, List.map_append]

theorem split_append_cons {separator : Char} {front rest : String}
    (hfront : separator ∉ front.toList) :
    split separator (front ++ String.singleton separator ++ rest) =
      front :: split separator rest := by
  rw [split, split, String.toList_append, String.toList_append, String.toList_singleton,
    List.append_assoc, List.singleton_append, List.splitOn_append_cons_self_of_not_mem hfront,
    List.map_cons, String.ofList_toList]

theorem split_append_singleton {separator : Char} {front : String}
    (hfront : separator ∉ front.toList) :
    split separator (front ++ String.singleton separator) = [front, ""] := by
  have hsplit : split separator (front ++ String.singleton separator ++ "") = front :: _ :=
    split_append_cons hfront
  rw [String.append_empty] at hsplit
  rw [hsplit]
  rfl

theorem split_of_notMem {separator : Char} {text : String} (htext : separator ∉ text.toList) :
    split separator text = [text] := by
  rw [split, List.splitOn_eq_singleton htext, List.map_singleton, String.ofList_toList]

/-- What holds of the separator's characters and of every part's holds in the joined text. -/
theorem forall_mem_intercalate {separator : String} {parts : List String} {P : Char → Prop}
    (hseparator : ∀ c ∈ separator.toList, P c) (hparts : ∀ part ∈ parts, ∀ c ∈ part.toList, P c) :
    ∀ c ∈ (separator.intercalate parts).toList, P c := by
  intro c hc
  rw [String.toList_intercalate] at hc
  induction parts with
  | nil => simp at hc
  | cons part parts ih =>
    obtain ⟨hpart, hrest⟩ := List.forall_mem_cons.mp hparts
    cases parts with
    | nil =>
      rw [List.map_singleton, List.intercalate_singleton] at hc
      exact hpart c hc
    | cons next parts =>
      rw [List.map_cons, List.map_cons, List.intercalate_cons_cons, List.append_assoc,
        List.mem_append, List.mem_append] at hc
      rcases hc with hc | hc | hc
      · exact hpart c hc
      · exact hseparator c hc
      · exact ih hrest hc

/-- The parts of a joined text are read back where none of them holds the separator. -/
theorem split_intercalate {separator : Char} {parts : List String}
    (hparts : ∀ part ∈ parts, separator ∉ part.toList) (hne : parts ≠ []) :
    split separator ((String.singleton separator).intercalate parts) = parts := by
  have hchars : ∀ chars ∈ parts.map String.toList, separator ∉ chars :=
    List.forall_mem_map.mpr hparts
  rw [split, String.toList_intercalate, String.toList_singleton,
    List.splitOn_intercalate separator hchars (by simpa using hne), List.map_map]
  simp

/-- A text is the join of what it splits into. -/
theorem intercalate_split (separator : Char) (text : String) :
    (String.singleton separator).intercalate (split separator text) = text := by
  rw [← String.toList_inj, String.toList_intercalate, String.toList_singleton, split, List.map_map]
  simp

end Turbopaneld.JavaScript
