/-
# One language of folder names

The daemon's rules are regular expressions with conditions added, the root helper's are
`case` patterns with a length test.  Each pair is brought to one description of the
names it takes, by their characters.  From that the path of a folder reference names
its reference and is one the helper takes.
-/

import Turbopaneld.Folders.Helper

namespace Turbopaneld.Folders

open JavaScript Shell

/-! ## Brackets and counts -/

section

variable {accepts : Char → Bool} {chars : List Char}

theorem not_globMatches_head :
    globMatches [noneOf accepts, .star] chars ≠ true ↔
      ∀ c rest, chars = c :: rest → accepts c = true := by
  rw [noneOf, ne_eq, globMatches_head]
  simp

theorem not_globMatches_any :
    globMatches [.star, noneOf accepts, .star] chars ≠ true ↔ ∀ c ∈ chars, accepts c = true := by
  rw [noneOf, ne_eq, globMatches_any]
  simp

theorem not_globMatches_last :
    globMatches [.star, noneOf accepts] chars ≠ true ↔
      ∀ front c, chars = front ++ [c] → accepts c = true := by
  rw [noneOf, ne_eq, globMatches_last]
  simp

end

theorem toNat_le_of_le {c bound : Char} (hc : c ≤ bound) : c.toNat ≤ bound.toNat := hc

theorem isAlnum_ascii {c : Char} (hc : isAlnum c = true) : c.toNat < 128 := by
  simp only [isAlnum, isLower, isDigit, Bool.or_eq_true, Bool.and_eq_true, decide_eq_true_eq] at hc
  obtain ⟨-, hz⟩ | ⟨-, hnine⟩ := hc
  · exact (toNat_le_of_le hz).trans_lt (by decide)
  · exact (toNat_le_of_le hnine).trans_lt (by decide)

theorem isFolderChar_ascii {c : Char} (hc : isFolderChar c = true) : c.toNat < 128 := by
  simp only [isFolderChar, Bool.or_eq_true, beq_iff_eq] at hc
  obtain (((hletter | hdigit) | rfl) | rfl) | rfl := hc
  · exact isAlnum_ascii (by rw [isAlnum, hletter, Bool.true_or])
  · exact isAlnum_ascii (by rw [isAlnum, hdigit, Bool.or_true])
  all_goals decide

theorem isFolderChar_of_isNameChar {c : Char} (hc : isNameChar c = true) : isFolderChar c = true := by
  simp only [isNameChar, Bool.or_eq_true] at hc
  simp only [isFolderChar, Bool.or_eq_true]
  tauto

theorem isFolderChar_of_isAlnum {c : Char} (hc : isAlnum c = true) : isFolderChar c = true := by
  simp only [isAlnum, Bool.or_eq_true] at hc
  simp only [isFolderChar, Bool.or_eq_true]
  tauto

/-! ## Owners -/

/-- An owner's name, by its characters. -/
structure OwnerName (chars : List Char) : Prop where
  head : ∃ c rest, chars = c :: rest ∧ isOwnerFirst c = true
  class_ : ∀ c ∈ chars, isNameChar c = true
  length : chars.length ≤ 28
  noDashEnd : ¬"-".toList <:+ chars
  noDoubleDash : ¬"--".toList <:+: chars
  noGroup : ¬"-grp".toList <:+ chars
  noPlatform : ¬"tp".toList <+: chars
  noSystemd : ¬"systemd-".toList <+: chars

theorem isNameChar_of_isOwnerFirst {c : Char} (hc : isOwnerFirst c = true) : isNameChar c = true := by
  rw [isOwnerFirst, Bool.or_eq_true] at hc
  rw [isNameChar]
  obtain hc | hc := hc
  · simp [hc]
  · simp [hc]

theorem isValidOwnerName_iff (value : String) :
    isValidOwnerName value = true ↔ OwnerName value.toList := by
  have hre : ownerNameRe.test value = true ↔
      (∃ c rest, value.toList = c :: rest ∧ isOwnerFirst c = true) ∧
        (∀ c ∈ value.toList, isNameChar c = true) ∧ value.toList.length ≤ 28 := by
    rw [ownerNameRe, test_seq_upTo]
    constructor
    · rintro ⟨c, rest, htext, hfirst, hlength, hall⟩
      rw [htext]
      exact ⟨⟨c, rest, rfl, hfirst⟩,
        List.forall_mem_cons.mpr ⟨isNameChar_of_isOwnerFirst hfirst, hall⟩, Nat.succ_le_succ hlength⟩
    · rintro ⟨⟨c, rest, htext, hfirst⟩, hall, hlength⟩
      rw [htext] at hall hlength
      exact ⟨c, rest, htext, hfirst, Nat.le_of_succ_le_succ hlength, (List.forall_mem_cons.mp hall).2⟩
  have hrule : isValidOwnerName value = true ↔ ownerNameRe.test value = true ∧
      ¬endsWith value "-" = true ∧ ¬includes value "--" = true ∧ ¬startsWith value "tp" = true ∧
        ¬startsWith value "systemd-" = true ∧ ¬endsWith value "-grp" = true := by
    simp only [isValidOwnerName, ownerReservedPrefixes, ownerReservedSuffix, List.any_cons,
      List.any_nil, Bool.or_false]
    simp [Bool.if_false_left, and_assoc]
  rw [hrule, hre, endsWith_iff, endsWith_iff, includes_iff, startsWith_iff, startsWith_iff]
  constructor
  · rintro ⟨⟨hhead, hall, hlength⟩, hdash, hdouble, hplatform, hsystemd, hgroup⟩
    exact ⟨hhead, hall, hlength, hdash, hdouble, hgroup, hplatform, hsystemd⟩
  · rintro ⟨hhead, hall, hlength, hdash, hdouble, hgroup, hplatform, hsystemd⟩
    exact ⟨⟨hhead, hall, hlength⟩, hdash, hdouble, hplatform, hsystemd, hgroup⟩

theorem tpOwnerShapeOk_iff (chars : List Char) :
    tpOwnerShapeOk chars = true ↔ OwnerName chars := by
  have hcase : caseMatches [[], [noneOf isOwnerFirst, .star], [.star, noneOf isNameChar, .star],
      .star :: lit "-", .star :: (lit "--" ++ [.star]), .star :: lit "-grp", lit "tp" ++ [.star],
      lit "systemd-" ++ [.star]] chars = false ↔
      chars ≠ [] ∧ (∀ c rest, chars = c :: rest → isOwnerFirst c = true) ∧
        (∀ c ∈ chars, isNameChar c = true) ∧ ¬"-".toList <:+ chars ∧ ¬"--".toList <:+: chars ∧
          ¬"-grp".toList <:+ chars ∧ ¬"tp".toList <+: chars ∧ ¬"systemd-".toList <+: chars := by
    rw [caseMatches_eq_false_iff]
    simp only [List.forall_mem_cons, not_globMatches_head, not_globMatches_any, lit, ne_eq,
      globMatches_end, globMatches_inside, globMatches_front, globMatches_nil, List.isEmpty_iff,
      List.not_mem_nil, false_implies, implies_true, and_true]
  rw [tpOwnerShapeOk]
  constructor
  · intro hok
    split at hok
    case isTrue => cases hok
    case isFalse hnone =>
      rw [Bool.not_eq_true, hcase] at hnone
      obtain ⟨hne, hhead, hall, hdash, hdouble, hgroup, hplatform, hsystemd⟩ := hnone
      obtain ⟨c, rest, rfl⟩ := List.exists_cons_of_ne_nil hne
      exact ⟨⟨c, rest, rfl, hhead c rest rfl⟩, hall, by simpa using hok, hdash, hdouble, hgroup,
        hplatform, hsystemd⟩
  · rintro ⟨⟨c, rest, rfl, hfirst⟩, hall, hlength, hdash, hdouble, hgroup, hplatform, hsystemd⟩
    have hnone := hcase.mpr ⟨List.cons_ne_nil _ _, fun c' rest' heq => (List.cons.inj heq).1 ▸ hfirst,
      hall, hdash, hdouble, hgroup, hplatform, hsystemd⟩
    rw [hnone]
    simpa using hlength

theorem tpOwnerShapeOk_word (text : String) : tpOwnerShapeOk (word text) = isValidOwnerName text := by
  have hascii : ∀ chars, tpOwnerShapeOk chars = true → ∀ c ∈ chars, c.toNat < 128 :=
    fun chars hok c hc =>
      isFolderChar_ascii (isFolderChar_of_isNameChar (((tpOwnerShapeOk_iff chars).mp hok).class_ c hc))
  rw [check_word hascii, Bool.eq_iff_iff, tpOwnerShapeOk_iff, isValidOwnerName_iff]

/-! ## Environments and scopes -/

/-- A name between two spaces of a list of names that are kept apart by spaces. -/
theorem infix_separated_iff {separator : Char} {name chars : List Char} (hname : separator ∉ name) :
    separator :: (name ++ [separator]) <:+: separator :: (chars ++ [separator]) ↔
      name ∈ chars.splitOn separator := by
  constructor
  · rintro ⟨front, back, heq⟩
    have hleft : (front ++ (separator :: (name ++ [separator])) ++ back).splitOn separator =
        front.splitOn separator ++ name :: back.splitOn separator := by
      rw [List.append_assoc, List.cons_append, List.splitOn_append_cons_self, List.append_assoc,
        List.singleton_append, List.splitOn_append_cons_self_of_not_mem hname]
    have hright : (separator :: (chars ++ [separator])).splitOn separator =
        [] :: (chars.splitOn separator ++ [[]]) := by
      rw [← List.nil_append (separator :: _), List.splitOn_append_cons_self,
        List.splitOn_append_cons_self]
      simp
    rw [heq, hright] at hleft
    obtain ⟨first, rest, hfirst⟩ := List.exists_cons_of_ne_nil (List.splitOn_ne_nil separator front)
    obtain ⟨others, last, hlast⟩ := (List.eq_nil_or_concat' (back.splitOn separator)).resolve_left
      (List.splitOn_ne_nil separator back)
    rw [hfirst, hlast, List.cons_append] at hleft
    have hinner : chars.splitOn separator ++ [[]] = (rest ++ name :: others) ++ [last] := by
      rw [List.append_assoc, List.cons_append]
      exact (List.cons.inj hleft).2
    rw [(List.append_inj' hinner rfl).1]
    simp
  · intro hmem
    have hchars : [separator].intercalate (chars.splitOn separator) = chars :=
      List.intercalate_splitOn separator
    conv_rhs => rw [← hchars]
    generalize chars.splitOn separator = parts at hmem
    induction parts with
    | nil => cases hmem
    | cons part rest ih =>
      cases rest with
      | nil =>
        obtain rfl : name = part := by simpa using hmem
        rw [List.intercalate_singleton]
      | cons next rest =>
        rw [List.intercalate_cons_cons]
        obtain rfl | hlater := List.mem_cons.mp hmem
        · exact ⟨[], [separator].intercalate (next :: rest) ++ [separator], by simp⟩
        · obtain ⟨front, back, heq⟩ := ih hlater
          have hlonger : separator :: (part ++ front) ++ separator :: (name ++ [separator]) ++ back =
              separator :: (part ++ (front ++ separator :: (name ++ [separator]) ++ back)) := by
            simp
          refine ⟨separator :: (part ++ front), back, ?_⟩
          rw [hlonger, heq]
          simp

/-- An environment's name, by its characters. -/
structure EnvironmentName (chars : List Char) : Prop where
  head : ∃ c rest, chars = c :: rest ∧ isAlnum c = true
  class_ : ∀ c ∈ chars, isNameChar c = true
  length : chars.length ≤ 32
  free : chars ∉ reservedScopeText.toList.splitOn ' '

theorem isNameChar_of_isAlnum {c : Char} (hc : isAlnum c = true) : isNameChar c = true := by
  simp only [isAlnum, Bool.or_eq_true] at hc
  simp only [isNameChar, Bool.or_eq_true]
  tauto

theorem isValidEnvironmentName_iff (value : String) :
    isValidEnvironmentName value = true ↔ EnvironmentName value.toList := by
  have hre : environmentNameRe.test value = true ↔
      (∃ c rest, value.toList = c :: rest ∧ isAlnum c = true) ∧
        (∀ c ∈ value.toList, isNameChar c = true) ∧ value.toList.length ≤ 32 := by
    rw [environmentNameRe, test_seq_upTo]
    constructor
    · rintro ⟨c, rest, htext, hfirst, hlength, hall⟩
      rw [htext]
      exact ⟨⟨c, rest, rfl, hfirst⟩,
        List.forall_mem_cons.mpr ⟨isNameChar_of_isAlnum hfirst, hall⟩, Nat.succ_le_succ hlength⟩
    · rintro ⟨⟨c, rest, htext, hfirst⟩, hall, hlength⟩
      rw [htext] at hall hlength
      exact ⟨c, rest, htext, hfirst, Nat.le_of_succ_le_succ hlength, (List.forall_mem_cons.mp hall).2⟩
  have hreserved : isReservedScopeName value = true ↔
      value.toList ∈ reservedScopeText.toList.splitOn ' ' := by
    rw [isReservedScopeName, List.contains_iff_mem, reservedScopeNames, split, List.mem_map]
    constructor
    · rintro ⟨chars, hchars, rfl⟩
      rwa [String.toList_ofList]
    · intro hmem
      exact ⟨value.toList, hmem, String.ofList_toList⟩
  rw [isValidEnvironmentName, Bool.and_eq_true, Bool.not_eq_true', hre, ← Bool.not_eq_true, hreserved]
  constructor
  · rintro ⟨⟨hhead, hall, hlength⟩, hfree⟩
    exact ⟨hhead, hall, hlength, hfree⟩
  · rintro ⟨hhead, hall, hlength, hfree⟩
    exact ⟨⟨hhead, hall, hlength⟩, hfree⟩

theorem tpEnvironmentNameOk_iff (chars : List Char) :
    tpEnvironmentNameOk chars = true ↔ EnvironmentName chars := by
  have hcase : caseMatches [[], [noneOf isAlnum, .star], [.star, noneOf isNameChar, .star]] chars =
      false ↔ chars ≠ [] ∧ (∀ c rest, chars = c :: rest → isAlnum c = true) ∧
        ∀ c ∈ chars, isNameChar c = true := by
    rw [caseMatches_eq_false_iff]
    simp only [List.forall_mem_cons, not_globMatches_head, not_globMatches_any, ne_eq,
      globMatches_nil, List.isEmpty_iff, List.not_mem_nil, false_implies, implies_true, and_true]
  have hreserved (hall : ∀ c ∈ chars, isNameChar c = true) :
      caseMatches [.star :: (quoted (' ' :: (chars ++ [' '])) ++ [.star])] tpReservedScopes = true ↔
        chars ∈ reservedScopeText.toList.splitOn ' ' := by
    have hspace : ' ' ∉ chars := fun hmem => absurd (hall ' ' hmem) (by decide)
    have hscopes : tpReservedScopes = ' ' :: (reservedScopeText.toList ++ [' ']) := by
      decide +kernel
    rw [caseMatches, List.any_cons, List.any_nil, Bool.or_false, globMatches_inside, hscopes,
      infix_separated_iff hspace]
  rw [tpEnvironmentNameOk]
  constructor
  · intro hok
    split at hok
    case isTrue => cases hok
    case isFalse hnone =>
      rw [Bool.not_eq_true, hcase] at hnone
      obtain ⟨hne, hhead, hall⟩ := hnone
      split at hok
      case isTrue => cases hok
      case isFalse hlength =>
        rw [Bool.not_eq_true', ← Bool.not_eq_true, hreserved hall] at hok
        obtain ⟨c, rest, rfl⟩ := List.exists_cons_of_ne_nil hne
        exact ⟨⟨c, rest, rfl, hhead c rest rfl⟩, hall, by simpa using hlength, hok⟩
  · rintro ⟨⟨c, rest, rfl, hfirst⟩, hall, hlength, hfree⟩
    have hnone := hcase.mpr ⟨List.cons_ne_nil _ _, fun c' rest' heq => (List.cons.inj heq).1 ▸ hfirst,
      hall⟩
    rw [← hreserved hall, Bool.not_eq_true] at hfree
    rw [hnone, hfree]
    simpa using hlength

theorem tpEnvironmentNameOk_word (text : String) :
    tpEnvironmentNameOk (word text) = isValidEnvironmentName text := by
  have hascii : ∀ chars, tpEnvironmentNameOk chars = true → ∀ c ∈ chars, c.toNat < 128 :=
    fun chars hok c hc =>
      isFolderChar_ascii (isFolderChar_of_isNameChar
        (((tpEnvironmentNameOk_iff chars).mp hok).class_ c hc))
  rw [check_word hascii, Bool.eq_iff_iff, tpEnvironmentNameOk_iff, isValidEnvironmentName_iff]

theorem tpScopeOk_word (text : String) : tpScopeOk (word text) = isValidScope text := by
  have hascii : ∀ chars, (chars == "common".toList) = true → ∀ c ∈ chars, c.toNat < 128 := by
    intro chars hcommon
    rw [beq_iff_eq] at hcommon
    rw [hcommon]
    exact fun c hc => of_decide_eq_true
      (List.all_eq_true.mp (by decide : "common".toList.all (fun c => c.toNat < 128) = true) c hc)
  have hcommon : (word text == "common".toList) = (text == commonScope) := by
    rw [check_word hascii, Bool.eq_iff_iff, beq_iff_eq, beq_iff_eq, String.toList_inj, commonScope]
  rw [tpScopeOk, isValidScope, tpEnvironmentNameOk_word, hcommon]

/-! ## Folders and ids -/

/-- A folder's name, by its characters. -/
structure FolderName (chars : List Char) : Prop where
  head : ∃ c rest, chars = c :: rest ∧ isAlnum c = true
  class_ : ∀ c ∈ chars, isFolderChar c = true
  last : ∀ front c, chars = front ++ [c] → isAlnum c = true
  length : chars.length ≤ 63
  noDoubleDot : ¬"..".toList <:+: chars

theorem test_folderNameRe (value : String) :
    folderNameRe.test value = true ↔
      (∃ c rest, value.toList = c :: rest ∧ isAlnum c = true) ∧
        (∀ c ∈ value.toList, isFolderChar c = true) ∧
          (∀ front c, value.toList = front ++ [c] → isAlnum c = true) ∧ value.toList.length ≤ 63 := by
  have hre : folderNameRe = .seq (.one isAlnum)
      (.upTo 1 (.seq (.upTo 61 (.one isFolderChar)) (.one isAlnum))) := rfl
  rw [Pattern.test, hre, Pattern.run_seq]
  cases value.toList with
  | nil => simp
  | cons c rest =>
    rw [Pattern.run_one_cons, Bool.and_eq_true, Pattern.run_upTo_succ, Pattern.run_upTo_zero,
      Pattern.run_seq, Bool.or_eq_true, Pattern.run_upTo_one_last, List.isEmpty_iff]
    constructor
    · rintro ⟨hc, ⟨front, last, rfl, hfront, hall, hlast⟩ | rfl⟩
      · refine ⟨⟨c, _, rfl, hc⟩, ?_, ?_, ?_⟩
        · rw [List.forall_mem_cons, List.forall_mem_append, List.forall_mem_singleton]
          exact ⟨isFolderChar_of_isAlnum hc, hall, isFolderChar_of_isAlnum hlast⟩
        · intro front' c' heq
          have hends := congrArg List.getLast? heq
          rw [← List.cons_append, List.getLast?_concat, List.getLast?_concat] at hends
          exact Option.some.inj hends ▸ hlast
        · simp only [List.length_cons, List.length_append, List.length_nil]
          omega
      · refine ⟨⟨c, _, rfl, hc⟩, ?_, ?_, by simp⟩
        · rw [List.forall_mem_singleton]
          exact isFolderChar_of_isAlnum hc
        · intro front' c' heq
          have hends := congrArg List.getLast? heq
          rw [List.getLast?_singleton, List.getLast?_concat] at hends
          exact Option.some.inj hends ▸ hc
    · rintro ⟨⟨c', rest', heq, hc⟩, hall, hends, hlength⟩
      obtain ⟨rfl, rfl⟩ := List.cons.inj heq
      refine ⟨hc, ?_⟩
      obtain rfl | ⟨front, last, rfl⟩ := List.eq_nil_or_concat' rest
      · exact .inr rfl
      · rw [List.forall_mem_cons, List.forall_mem_append] at hall
        have hfront : front.length ≤ 61 := by
          simp only [List.length_cons, List.length_append, List.length_nil] at hlength
          omega
        exact .inl ⟨front, last, rfl, hfront, hall.2.1, hends (c :: front) last rfl⟩

theorem isValidFolderName_iff (value : String) :
    isValidFolderName value = true ↔ FolderName value.toList := by
  rw [isValidFolderName, Bool.and_eq_true, test_folderNameRe, Bool.not_eq_true', ← Bool.not_eq_true,
    includes_iff]
  constructor
  · rintro ⟨⟨hhead, hall, hlast, hlength⟩, hdots⟩
    exact ⟨hhead, hall, hlast, hlength, hdots⟩
  · rintro ⟨hhead, hall, hlast, hlength, hdots⟩
    exact ⟨⟨hhead, hall, hlast, hlength⟩, hdots⟩

theorem tpFolderNameOk_iff (chars : List Char) :
    tpFolderNameOk chars = true ↔ FolderName chars := by
  have hcase : caseMatches [[], [noneOf isAlnum, .star], [.star, noneOf isFolderChar, .star],
      [.star, noneOf isAlnum], .star :: (lit ".." ++ [.star])] chars = false ↔
      chars ≠ [] ∧ (∀ c rest, chars = c :: rest → isAlnum c = true) ∧
        (∀ c ∈ chars, isFolderChar c = true) ∧
          (∀ front c, chars = front ++ [c] → isAlnum c = true) ∧ ¬"..".toList <:+: chars := by
    rw [caseMatches_eq_false_iff]
    simp only [List.forall_mem_cons, not_globMatches_head, not_globMatches_any, not_globMatches_last,
      lit, ne_eq, globMatches_inside, globMatches_nil, List.isEmpty_iff, List.not_mem_nil,
      false_implies, implies_true, and_true]
  rw [tpFolderNameOk]
  constructor
  · intro hok
    split at hok
    case isTrue => cases hok
    case isFalse hnone =>
      rw [Bool.not_eq_true, hcase] at hnone
      obtain ⟨hne, hhead, hall, hlast, hdots⟩ := hnone
      obtain ⟨c, rest, rfl⟩ := List.exists_cons_of_ne_nil hne
      exact ⟨⟨c, rest, rfl, hhead c rest rfl⟩, hall, hlast, by simpa using hok, hdots⟩
  · rintro ⟨⟨c, rest, rfl, hfirst⟩, hall, hlast, hlength, hdots⟩
    have hnone := hcase.mpr ⟨List.cons_ne_nil _ _, fun c' rest' heq => (List.cons.inj heq).1 ▸ hfirst,
      hall, hlast, hdots⟩
    rw [hnone]
    simpa using hlength

theorem tpFolderNameOk_word (text : String) : tpFolderNameOk (word text) = isValidFolderName text := by
  have hascii : ∀ chars, tpFolderNameOk chars = true → ∀ c ∈ chars, c.toNat < 128 :=
    fun chars hok c hc => isFolderChar_ascii (((tpFolderNameOk_iff chars).mp hok).class_ c hc)
  rw [check_word hascii, Bool.eq_iff_iff, tpFolderNameOk_iff, isValidFolderName_iff]

theorem isHex_ascii {c : Char} (hc : isHex c = true) : c.toNat < 128 := by
  simp only [isHex, isDigit, Bool.or_eq_true, Bool.and_eq_true, decide_eq_true_eq] at hc
  obtain ⟨-, hnine⟩ | ⟨-, hf⟩ := hc
  · exact (toNat_le_of_le hnine).trans_lt (by decide)
  · exact (toNat_le_of_le hf).trans_lt (by decide)

/-- Bracket expressions in a row match as a counted class does. -/
theorem globMatches_replicate (accepts : Char → Bool) (count : ℕ) (rest : Glob) :
    globMatches (List.replicate count (.oneOf accepts) ++ rest) =
      (Pattern.times count (.one accepts)).run (globMatches rest) := by
  induction count with
  | zero => rfl
  | succ count ih =>
    rw [List.replicate_succ, List.cons_append, Pattern.run_times_succ, ← ih]
    funext text
    cases text with
    | nil => rfl
    | cons c text => rfl

theorem globMatches_char (c : Char) (rest : Glob) :
    globMatches (.char c :: rest) = (Pattern.char c).run (globMatches rest) := by
  funext text
  cases text with
  | nil => rfl
  | cons d text => rfl

/-- `$_uu_4$_uu_4-$_uu_4-$_uu_4-$_uu_4-$_uu_4$_uu_4$_uu_4` -/
def uuidGlob : Glob :=
  hexFour ++ hexFour ++ lit "-" ++ hexFour ++ lit "-" ++ hexFour ++ lit "-" ++ hexFour ++
    lit "-" ++ hexFour ++ hexFour ++ hexFour

theorem globMatches_uuid (chars : List Char) :
    globMatches uuidGlob chars = pathIdRe.run List.isEmpty chars := by
  have hglob : uuidGlob = List.replicate 8 (.oneOf isHex) ++ (.char '-' ::
      (List.replicate 4 (.oneOf isHex) ++ (.char '-' :: (List.replicate 4 (.oneOf isHex) ++
        (.char '-' :: (List.replicate 4 (.oneOf isHex) ++ (.char '-' ::
          (List.replicate 12 (.oneOf isHex) ++ [])))))))) := rfl
  have hempty : globMatches [] = List.isEmpty := rfl
  rw [hglob]
  simp only [globMatches_replicate, globMatches_char, hempty]
  rfl

theorem tpUuidOk_eq (chars : List Char) : tpUuidOk chars = pathIdRe.run List.isEmpty chars := by
  rw [tpUuidOk, ← globMatches_uuid, caseMatches, List.any_cons, List.any_nil, Bool.or_false,
    ← uuidGlob]
  split
  case isFalse => rfl
  case isTrue hlength =>
    symm
    rw [Bool.eq_false_iff]
    intro hmatches
    have hcount : chars.length = 36 := length_of_globMatches rfl hmatches
    simp [hcount] at hlength

theorem tpUuidOk_word (text : String) : tpUuidOk (word text) = isPathId text := by
  have hpieces : ∀ piece ∈ uuidGlob, piece = .char '-' ∨ piece = .oneOf isHex := by
    simp [uuidGlob, hexFour, lit, quoted]
  have hascii : ∀ chars, tpUuidOk chars = true → ∀ c ∈ chars, c.toNat < 128 := by
    intro chars hok
    rw [tpUuidOk_eq, ← globMatches_uuid] at hok
    have hwithin : ∀ piece ∈ uuidGlob, piece.Within fun c => c.toNat < 128 := by
      intro piece hpiece
      obtain rfl | rfl := hpieces piece hpiece
      · exact Nat.lt_of_sub_pos (by decide)
      · exact fun c hc => isHex_ascii hc
    exact forall_of_globMatches hwithin hok
  rw [check_word hascii, tpUuidOk_eq, isPathId, Pattern.test]

/-! ## Paths -/

/-- What stands between the slashes of an absolute path. -/
def pathParts (path : String) : List String := (split '/' path).tail

/-- A part that is no name. -/
def Improper (part : String) : Prop := part = "" ∨ part = "." ∨ part = ".."

/-- A folder reference that passes the checks. -/
structure ValidRef (ref : FolderRef) : Prop where
  owner : isValidOwnerName ref.owner = true
  scope : isValidScope ref.scope = true
  slug : isValidFolderName ref.slug = true

/-- A root the path is joined onto. -/
structure ValidRoot (root : String) : Prop where
  absolute : startsWith root "/" = true
  long : 2 ≤ lengthInUnits root
  noSlashEnd : endsWith root "/" = false

/-- The path of a reference below a root. -/
def joined (root : String) (ref : FolderRef) : String :=
  root ++ "/" ++ ref.owner ++ folderJailPath ref

theorem checkFolderParts_eq_ok_iff {ref : FolderRef} :
    checkFolderParts ref = .ok () ↔ ValidRef ref := by
  rw [checkFolderParts]
  constructor
  · intro hok
    split at hok
    case isTrue => cases hok
    case isFalse howner =>
      split at hok
      case isTrue => cases hok
      case isFalse hscope =>
        split at hok
        case isTrue => cases hok
        case isFalse hslug => exact ⟨by simpa using howner, by simpa using hscope, by simpa using hslug⟩
  · rintro ⟨howner, hscope, hslug⟩
    simp [howner, hscope, hslug]

theorem folderHostPath_eq_ok_iff {root path : String} {ref : FolderRef} :
    folderHostPath root ref = .ok path ↔ ValidRoot root ∧ ValidRef ref ∧ path = joined root ref := by
  have hroot : (!startsWith root "/" || lengthInUnits root < 2 || endsWith root "/") = false ↔
      ValidRoot root := by
    rw [Bool.or_eq_false_iff, Bool.or_eq_false_iff, Bool.not_eq_false', decide_eq_false_iff_not,
      Nat.not_lt]
    exact ⟨fun h => ⟨h.1.1, h.1.2, h.2⟩, fun h => ⟨⟨h.absolute, h.long⟩, h.noSlashEnd⟩⟩
  rw [folderHostPath, parseFolderRef, ← hroot, ← checkFolderParts_eq_ok_iff]
  cases !startsWith root "/" || lengthInUnits root < 2 || endsWith root "/" with
  | true => simp
  | false =>
    cases checkFolderParts ref with
    | error e => simp [bind, Except.bind]
    | ok _ => simp [bind, Except.bind, pure, Except.pure, joined, eq_comm]

/-- The characters of a name that passed are no slash. -/
theorem notMem_slash {chars : List Char} (hall : ∀ c ∈ chars, isFolderChar c = true) : '/' ∉ chars :=
  fun hmem => absurd (hall '/' hmem) (by decide)

namespace ValidRef

variable {ref : FolderRef}

theorem owner_chars (hvalid : ValidRef ref) : ∀ c ∈ ref.owner.toList, isFolderChar c = true :=
  fun c hc => isFolderChar_of_isNameChar (((isValidOwnerName_iff _).mp hvalid.owner).class_ c hc)

theorem scope_name (hvalid : ValidRef ref) :
    (∃ c rest, ref.scope.toList = c :: rest ∧ isAlnum c = true) ∧
      ∀ c ∈ ref.scope.toList, isFolderChar c = true := by
  have hscope := hvalid.scope
  rw [isValidScope, Bool.or_eq_true, beq_iff_eq] at hscope
  obtain hcommon | henvironment := hscope
  · rw [hcommon]
    exact ⟨⟨'c', _, rfl, rfl⟩, List.all_eq_true.mp (by decide)⟩
  · have hname := (isValidEnvironmentName_iff _).mp henvironment
    exact ⟨hname.head, fun c hc => isFolderChar_of_isNameChar (hname.class_ c hc)⟩

theorem slug_chars (hvalid : ValidRef ref) : ∀ c ∈ ref.slug.toList, isFolderChar c = true :=
  ((isValidFolderName_iff _).mp hvalid.slug).class_

end ValidRef

theorem pathParts_joined {root : String} {ref : FolderRef} (hroot : ValidRoot root)
    (hvalid : ValidRef ref) :
    pathParts (joined root ref) =
      pathParts root ++ [ref.owner, ref.scope, ref.kind.folder, ref.slug] := by
  have hfolder : '/' ∉ ref.kind.folder.toList := by
    cases ref.kind with
    | service => decide
    | volume => decide
  have hsplit : split '/' (joined root ref) =
      split '/' root ++ [ref.owner, ref.scope, ref.kind.folder, ref.slug] := by
    have hjoined : joined root ref = root ++ String.singleton '/' ++ (ref.owner ++ String.singleton '/' ++
        (ref.scope ++ String.singleton '/' ++ (ref.kind.folder ++ String.singleton '/' ++ ref.slug))) := by
      simp only [joined, folderJailPath, String.append_assoc]
      rfl
    rw [hjoined, split_append, split_append_cons (notMem_slash hvalid.owner_chars),
      split_append_cons (notMem_slash hvalid.scope_name.2), split_append_cons hfolder,
      split_of_notMem (notMem_slash hvalid.slug_chars)]
  rw [pathParts, hsplit, pathParts, List.tail_append_of_ne_nil]
  rw [split]
  simp [List.splitOn_ne_nil]

theorem not_improper_of_head (accepts : Char → Bool) {name : String}
    (hhead : ∃ c rest, name.toList = c :: rest ∧ accepts c = true) (hdot : accepts '.' = false) :
    ¬Improper name := by
  obtain ⟨c, rest, hname, hc⟩ := hhead
  rintro (rfl | rfl | rfl)
  · cases hname
  · obtain rfl := (List.cons.inj hname).1
    exact Bool.false_ne_true (hdot.symm.trans hc)
  · obtain rfl := (List.cons.inj hname).1
    exact Bool.false_ne_true (hdot.symm.trans hc)

/-- A valid reference adds only proper names to its root. -/
theorem not_improper_of_validRef {ref : FolderRef} (hvalid : ValidRef ref) :
    ∀ part ∈ [ref.owner, ref.scope, ref.kind.folder, ref.slug], ¬Improper part := by
  simp only [List.forall_mem_cons, List.not_mem_nil, false_implies, implies_true, and_true]
  refine ⟨not_improper_of_head isOwnerFirst ((isValidOwnerName_iff _).mp hvalid.owner).head rfl,
    not_improper_of_head isAlnum hvalid.scope_name.1 rfl, ?_,
    not_improper_of_head isAlnum ((isValidFolderName_iff _).mp hvalid.slug).head rfl⟩
  cases ref.kind with
  | service => exact not_improper_of_head isAlnum ⟨'s', _, rfl, rfl⟩ rfl
  | volume => exact not_improper_of_head isAlnum ⟨'v', _, rfl, rfl⟩ rfl

theorem FolderKind.folder_injective : Function.Injective FolderKind.folder := by
  intro kind kind' heq
  cases kind with
  | service =>
    cases kind' with
    | service => rfl
    | volume => exact absurd heq (by decide)
  | volume =>
    cases kind' with
    | service => exact absurd heq (by decide)
    | volume => rfl

/-- A path names its reference. -/
theorem joined_injective {root : String} {ref ref' : FolderRef} (hroot : ValidRoot root)
    (hvalid : ValidRef ref) (hvalid' : ValidRef ref') (heq : joined root ref = joined root ref') :
    ref = ref' := by
  have hparts := congrArg pathParts heq
  rw [pathParts_joined hroot hvalid, pathParts_joined hroot hvalid', List.append_cancel_left_eq] at hparts
  obtain ⟨owner, scope, kind, slug⟩ := ref
  obtain ⟨owner', scope', kind', slug'⟩ := ref'
  simp only [List.cons.injEq, and_true] at hparts
  obtain ⟨rfl, rfl, hfolder, rfl⟩ := hparts
  rw [FolderKind.folder_injective hfolder]

/-! ## The helper takes the path -/

theorem substituted_of_folderChars {chars : List Char} (hall : ∀ c ∈ chars, c ≠ '\n') :
    substituted chars = chars := by
  rw [substituted, List.rdropWhile_eq_self_iff]
  intro hne
  simpa using hall _ (List.getLast_mem hne)

theorem tpFolderShapeOk_folder {folder slug : List Char} (hfolder : '/' ∉ folder)
    (hslug : '/' ∉ slug) (hok : tpFolderNameOk slug = true) :
    tpFolderShapeOk (folder ++ '/' :: slug) = true := by
  rw [tpFolderShapeOk, cutFront_upToChar hfolder, cutLongestEnd_of_notMem hslug]
  simp [hok]

theorem tpScopeShapeOk_folder {scope slug : List Char} {kind : FolderKind} (hscope : '/' ∉ scope)
    (hslug : '/' ∉ slug) (hscopeOk : tpScopeOk scope = true) (hslugOk : tpFolderNameOk slug = true) :
    tpScopeShapeOk (scope ++ '/' :: (kind.folder.toList ++ '/' :: slug)) = true := by
  have hfolder : '/' ∉ kind.folder.toList := by
    cases kind with
    | service => decide
    | volume => decide
  have hbelow : caseMatches [lit "services/" ++ [.star], lit "volumes/" ++ [.star]]
      (kind.folder.toList ++ '/' :: slug) = true := by
    rw [caseMatches, List.any_cons, List.any_cons, Bool.or_eq_true, Bool.or_eq_true, lit, lit,
      globMatches_front, globMatches_front]
    cases kind with
    | service => exact .inl ⟨slug, by simp [FolderKind.folder]⟩
    | volume => exact .inr (.inl ⟨slug, by simp [FolderKind.folder]⟩)
  rw [tpScopeShapeOk, cutLongestEnd_fromChar hscope, cutFront_upToChar hscope]
  simp only [hscopeOk, hbelow, tpFolderShapeOk_folder hfolder hslug hslugOk]
  simp

/-- The path of a valid reference, as a word. -/
theorem word_joined {root : String} {ref : FolderRef} (hvalid : ValidRef ref) :
    word (joined root ref) = (word root ++ ['/']) ++ (ref.owner.toList ++ '/' ::
      (ref.scope.toList ++ '/' :: (ref.kind.folder.toList ++ '/' :: ref.slug.toList))) := by
  have hslash : word "/" = ['/'] := by decide
  have hfolder : word ref.kind.folder = ref.kind.folder.toList := by
    cases ref.kind with
    | service => decide
    | volume => decide
  rw [joined, folderJailPath]
  simp only [word_append, hslash, hfolder,
    word_ascii fun c hc => isFolderChar_ascii (hvalid.owner_chars c hc),
    word_ascii fun c hc => isFolderChar_ascii (hvalid.scope_name.2 c hc),
    word_ascii fun c hc => isFolderChar_ascii (hvalid.slug_chars c hc), List.append_assoc,
    List.cons_append, List.nil_append]

/-- The helper lets the path of a valid reference sit where it does. -/
theorem tpHomeShapeOk_joined {root : String} {ref : FolderRef} (hvalid : ValidRef ref) :
    tpHomeShapeOk (word root) (word (joined root ref)) = true := by
  have howner := notMem_slash hvalid.owner_chars
  have hscope := notMem_slash hvalid.scope_name.2
  have hslug := notMem_slash hvalid.slug_chars
  have hscopeOk : tpScopeOk ref.scope.toList = true := by
    rw [← word_ascii fun c hc => isFolderChar_ascii (hvalid.scope_name.2 c hc), tpScopeOk_word]
    exact hvalid.scope
  have hslugOk : tpFolderNameOk ref.slug.toList = true :=
    (tpFolderNameOk_iff _).mpr ((isValidFolderName_iff _).mp hvalid.slug)
  have hpattern : quoted (word root) ++ lit "/" = quoted (word root ++ ['/']) :=
    (List.map_append ..).symm
  have hlines : ∀ c ∈ ref.scope.toList ++ '/' :: (ref.kind.folder.toList ++ '/' :: ref.slug.toList),
      c ≠ '\n' := by
    have hfolder : ∀ c ∈ ref.kind.folder.toList, isFolderChar c = true := by
      cases ref.kind with
      | service => exact List.all_eq_true.mp (by decide)
      | volume => exact List.all_eq_true.mp (by decide)
    have hname : ∀ c, isFolderChar c = true → c ≠ '\n' := by
      rintro c hc rfl
      exact absurd hc (by decide)
    simp only [List.forall_mem_append, List.forall_mem_cons]
    exact ⟨fun c hc => hname c (hvalid.scope_name.2 c hc), by decide,
      fun c hc => hname c (hfolder c hc), by decide, fun c hc => hname c (hvalid.slug_chars c hc)⟩
  have hlonger : ∀ rest : List Char, rest ≠ (word root ++ ['/']) ++ rest := by
    intro rest heq
    have hlength := congrArg List.length heq
    simp only [List.length_append, List.length_singleton] at hlength
    omega
  have hslashes : caseMatches [[.star, .char '/', .star]] (ref.owner.toList ++ '/' ::
      (ref.scope.toList ++ '/' :: (ref.kind.folder.toList ++ '/' :: ref.slug.toList))) = true := by
    have hinfix : ['/'] <:+: ref.owner.toList ++ '/' ::
        (ref.scope.toList ++ '/' :: (ref.kind.folder.toList ++ '/' :: ref.slug.toList)) :=
      ⟨ref.owner.toList, ref.scope.toList ++ '/' :: (ref.kind.folder.toList ++ '/' :: ref.slug.toList),
        by rw [List.append_assoc, List.singleton_append]⟩
    rw [caseMatches, List.any_cons, List.any_nil, Bool.or_false]
    exact globMatches_inside.mpr hinfix
  have hshape : tpScopeShapeOk (ref.scope.toList ++ '/' ::
      (ref.kind.folder.toList ++ '/' :: ref.slug.toList)) = true :=
    tpScopeShapeOk_folder hscope hslug hscopeOk hslugOk
  rw [word_joined hvalid, tpHomeShapeOk, tpHomeOwnerOf, tpHomeRel, hpattern]
  simp only [cutFront_quoted, if_neg (hlonger _), cutLongestEnd_fromChar howner, hslashes, if_true,
    cutFront_upToChar howner, substituted_of_folderChars hlines, hshape, ite_self]

/-! ## The agreement -/

/-- The daemon and the helper take the same names. -/
structure SameNames (name : String) : Prop where
  owner : tpOwnerShapeOk (word name) = isValidOwnerName name
  environment : tpEnvironmentNameOk (word name) = isValidEnvironmentName name
  scope : tpScopeOk (word name) = isValidScope name
  folder : tpFolderNameOk (word name) = isValidFolderName name
  id : tpUuidOk (word name) = isPathId name

/-- The paths of valid references below a root name them, have no improper part but the
root's own, and are ones the helper takes below that root. -/
structure GoodPaths (root : String) : Prop where
  made : ValidRoot root → ∀ ref, ValidRef ref → ∃ path, folderHostPath root ref = .ok path
  injective : ∀ ref ref' path, folderHostPath root ref = .ok path →
    folderHostPath root ref' = .ok path → ref = ref'
  shaped : ∀ ref path, folderHostPath root ref = .ok path →
    tpHomeShapeOk (word root) (word path) = true
  proper : ∀ ref path, folderHostPath root ref = .ok path →
    ((∀ part ∈ pathParts path, ¬Improper part) ↔ ∀ part ∈ pathParts root, ¬Improper part)

theorem folders_agree : (∀ name, SameNames name) ∧ ∀ root, GoodPaths root := by
  refine ⟨fun name => ⟨tpOwnerShapeOk_word name, tpEnvironmentNameOk_word name, tpScopeOk_word name,
    tpFolderNameOk_word name, tpUuidOk_word name⟩, fun root => ⟨?_, ?_, ?_, ?_⟩⟩
  · intro hroot ref hvalid
    exact ⟨_, folderHostPath_eq_ok_iff.mpr ⟨hroot, hvalid, rfl⟩⟩
  · intro ref ref' path hpath hpath'
    obtain ⟨hroot, hvalid, rfl⟩ := folderHostPath_eq_ok_iff.mp hpath
    obtain ⟨-, hvalid', heq⟩ := folderHostPath_eq_ok_iff.mp hpath'
    exact joined_injective hroot hvalid hvalid' heq
  · intro ref path hpath
    obtain ⟨-, hvalid, rfl⟩ := folderHostPath_eq_ok_iff.mp hpath
    exact tpHomeShapeOk_joined hvalid
  · intro ref path hpath
    obtain ⟨hroot, hvalid, rfl⟩ := folderHostPath_eq_ok_iff.mp hpath
    rw [pathParts_joined hroot hvalid, List.forall_mem_append]
    exact and_iff_left (not_improper_of_validRef hvalid)

end Turbopaneld.Folders
