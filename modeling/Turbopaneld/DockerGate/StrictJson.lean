/-
# The strict parser against `JSON.parse`

The gate judges what its own parser makes of a body, and has an approval cover what
`JSON.parse` makes of it.  The parser reads exactly the texts of the JSON grammar: what
it makes of one is `judged` of the value as written, which refuses a text only for its
depth or for the names of its structs.
-/

import Turbopaneld.DockerGate.Alike
import Turbopaneld.DockerGate.Tokens

namespace Turbopaneld.DockerGate

open JavaScript

/-! ## What the parser makes of a written value -/

mutual

/-- The strict reading of a written value at a depth. -/
def judged (context : Context) (depth : ℕ) : Json → Except BodyError Json
  | .array items =>
    if depth > maxDepth then .error .tooDeep
    else (judgedItems (depth + 1) items).map Json.array
  | .object fields =>
    if depth > maxDepth then .error .tooDeep
    else (judgedFields context (depth + 1) [] fields).map fun entries =>
      .object (fromEntries entries)
  | value => if depth > maxDepth then .error .tooDeep else .ok value

/-- The strict reading of an array's items, in turn. -/
def judgedItems (depth : ℕ) : List Json → Except BodyError (List Json)
  | [] => .ok []
  | item :: rest => do
    let value ← judged .struct depth item
    let values ← judgedItems depth rest
    return value :: values

/-- The strict reading of an object's members, in turn, after the folded names in `seen`. -/
def judgedFields (context : Context) (depth : ℕ) :
    List String → List (String × Json) → Except BodyError (List (String × Json))
  | _, [] => .ok []
  | seen, field :: rest => do
    let key ← strictNames.key context field.1 seen
    let value ← judged (childContext context key) depth field.2
    let entries ← judgedFields context depth (JavaScript.toLowerCase field.1 :: seen) rest
    return (key, value) :: entries

end

/-! ## The parser follows the grammar -/

/-- What the parser does on a text that a symbol derives a written value from. -/
def Follows : Symbol → List Char → Json → Prop
  | .value, text, written =>
    ∀ fuel context depth before rest, Spaces before → Delimited rest →
      2 * (before ++ (text ++ rest)).length < fuel →
      parseValue strictNames fuel context depth (before ++ (text ++ rest)) =
        (judged context depth written).map fun value => (value, rest)
  | .element, text, written =>
    ∃ after, Spaces after ∧ ∀ fuel context depth rest, Delimited rest →
      2 * (text ++ rest).length < fuel →
      parseValue strictNames fuel context depth (text ++ rest) =
        (judged context depth written).map fun value => (value, after ++ rest)
  | .elements, text, .array items =>
    ∀ fuel depth rest, 2 * (text ++ ']' :: rest).length + 1 < fuel →
      parseItems strictNames fuel depth (text ++ ']' :: rest) =
        (judgedItems depth items).map fun values => (values, rest)
  | .member, text, .object [field] =>
    ∃ after, Spaces after ∧ ∀ rest, Delimited rest → ∃ afterName afterColon,
      parseString (skipWhitespace (text ++ rest)) = .ok (field.1, afterName) ∧
      expect ':' afterName = .ok afterColon ∧ afterColon.length < (text ++ rest).length ∧
      ∀ fuel context depth, 2 * afterColon.length < fuel →
        parseValue strictNames fuel context depth afterColon =
          (judged context depth field.2).map fun value => (value, after ++ rest)
  | .members, text, .object fields =>
    ∀ fuel context depth seen rest, 2 * (text ++ '\x7d' :: rest).length < fuel →
      parseMembers strictNames fuel context depth seen (text ++ '\x7d' :: rest) =
        (judgedFields context depth seen fields).map fun entries => (entries, rest)
  | _, _, _ => False

theorem judged_leaf {value : Json} (hleaf : value.isLeaf = true) (context : Context) (depth : ℕ) :
    judged context depth value = if depth > maxDepth then .error .tooDeep else .ok value := by
  cases value with
  | null => rfl
  | bool => rfl
  | number => rfl
  | string => rfl
  | array => cases hleaf
  | object => cases hleaf

section

variable {text rest : List Char} (fuel : ℕ) (context : Context) (depth : ℕ)

/-- An object, as the parser's own steps. -/
theorem parseValue_brace (htext : skipWhitespace text = '\x7b' :: rest) :
    parseValue strictNames (fuel + 1) context depth text =
      if depth > maxDepth then .error .tooDeep
      else
        match eat '\x7d' rest with
        | some after => .ok (.object (strictNames.build []), after)
        | none => do
            let (entries, after) ← parseMembers strictNames fuel context (depth + 1) [] rest
            return (.object (strictNames.build entries), after) := by
  rw [parseValue, htext]
  rfl

theorem parseValue_object (htext : skipWhitespace text = '\x7b' :: rest) :
    parseValue strictNames (fuel + 1) context depth text =
      if depth > maxDepth then .error .tooDeep
      else
        match eat '\x7d' rest with
        | some after => .ok (.object [], after)
        | none => (parseMembers strictNames fuel context (depth + 1) [] rest).map fun cut =>
            (.object (fromEntries cut.1), cut.2) := by
  rw [parseValue_brace fuel context depth htext]
  cases parseMembers strictNames fuel context (depth + 1) [] rest with
  | error e => rfl
  | ok cut => rfl

/-- An array, as the parser's own steps. -/
theorem parseValue_bracket (htext : skipWhitespace text = '[' :: rest) :
    parseValue strictNames (fuel + 1) context depth text =
      if depth > maxDepth then .error .tooDeep
      else
        match eat ']' rest with
        | some after => .ok (.array [], after)
        | none => do
            let (items, after) ← parseItems strictNames fuel (depth + 1) rest
            return (.array items, after) := by
  rw [parseValue, htext]
  rfl

theorem parseValue_array (htext : skipWhitespace text = '[' :: rest) :
    parseValue strictNames (fuel + 1) context depth text =
      if depth > maxDepth then .error .tooDeep
      else
        match eat ']' rest with
        | some after => .ok (.array [], after)
        | none => (parseItems strictNames fuel (depth + 1) rest).map fun cut =>
            (.array cut.1, cut.2) := by
  rw [parseValue_bracket fuel context depth htext]
  cases parseItems strictNames fuel (depth + 1) rest with
  | error e => rfl
  | ok cut => rfl

theorem parseValue_string (htext : skipWhitespace text = '"' :: rest) :
    parseValue strictNames (fuel + 1) context depth text =
      if depth > maxDepth then .error .tooDeep
      else (parseString ('"' :: rest)).map fun cut => (.string cut.1, cut.2) := by
  rw [parseValue, htext]
  rfl

theorem parseValue_scalar
    (htext : ∀ c, (skipWhitespace text).head? = some c → c ≠ '\x7b' ∧ c ≠ '[' ∧ c ≠ '"') :
    parseValue strictNames (fuel + 1) context depth text =
      if depth > maxDepth then .error .tooDeep else parseScalar (skipWhitespace text) := by
  rw [parseValue]
  split
  · rfl
  · split
    case h_1 heq => exact absurd rfl (htext '\x7b' (by rw [heq]; rfl)).1
    case h_2 heq => exact absurd rfl (htext '[' (by rw [heq]; rfl)).2.1
    case h_3 heq => exact absurd rfl (htext '"' (by rw [heq]; rfl)).2.2
    case h_4 => rfl

end

/-- A text that derives a scalar is read by the scalar's scanner. -/
theorem follows_scalar {text : List Char} {value : Json} (hleaf : value.isLeaf = true)
    (hread : ∀ rest, Delimited rest → ∃ c more, text ++ rest = c :: more ∧ ¬IsSpace c ∧
      (c ≠ '\x7b' ∧ c ≠ '[' ∧ c ≠ '"') ∧ parseScalar (text ++ rest) = .ok (value, rest)) :
    Follows .value text value := by
  intro fuel context depth before rest hbefore hrest hfuel
  obtain ⟨c, more, htext, hspace, hplain, hscalar⟩ := hread rest hrest
  obtain ⟨fuel, rfl⟩ := Nat.exists_eq_succ_of_ne_zero (Nat.ne_zero_of_lt hfuel)
  have hskip : skipWhitespace (before ++ (text ++ rest)) = text ++ rest := by
    rw [skipWhitespace_append hbefore, htext, skipWhitespace_cons hspace]
  rw [judged_leaf hleaf, parseValue_scalar, hskip, hscalar]
  · split
    · rfl
    · rfl
  · rw [hskip, htext]
    intro c' hc'
    obtain rfl : c = c' := by simpa using hc'
    exact hplain

/-- A derived text starts, after white space, with a character that closes nothing. -/
theorem exists_first {symbol : Symbol} {text : List Char} {written : Json}
    (hderives : Derives symbol text written) :
    ∃ space c more, Spaces space ∧ text = space ++ c :: more ∧ ¬IsSpace c ∧
      c ≠ ']' ∧ c ≠ '\x7d' := by
  induction hderives with
  | null => exact ⟨[], 'n', _, by simp [Spaces], rfl, by decide, by decide, by decide⟩
  | true => exact ⟨[], 't', _, by simp [Spaces], rfl, by decide, by decide, by decide⟩
  | false => exact ⟨[], 'f', _, by simp [Spaces], rfl, by decide, by decide, by decide⟩
  | number htoken =>
    obtain ⟨c, more, htext, hc⟩ := head?_number htoken []
    rw [List.append_nil] at htext
    refine ⟨[], c, more, by simp [Spaces], htext, ?_⟩
    obtain rfl | hdigit := hc
    · decide
    · exact notSpecial_of_isDigit hdigit
  | string => exact ⟨[], '"', _, by simp [Spaces], rfl, by decide, by decide, by decide⟩
  | emptyArray => exact ⟨[], '[', _, by simp [Spaces], rfl, by decide, by decide, by decide⟩
  | array => exact ⟨[], '[', _, by simp [Spaces], rfl, by decide, by decide, by decide⟩
  | emptyObject => exact ⟨[], '\x7b', _, by simp [Spaces], rfl, by decide, by decide, by decide⟩
  | object => exact ⟨[], '\x7b', _, by simp [Spaces], rfl, by decide, by decide, by decide⟩
  | element hbefore _ _ ih =>
    obtain ⟨space, c, more, hspace, rfl, hc⟩ := ih
    refine ⟨_ ++ space, c, _, ?_, by simp only [List.append_assoc, List.cons_append]; rfl, hc⟩
    exact List.forall_mem_append.mpr ⟨hbefore, hspace⟩
  | lastElement _ ih => exact ih
  | moreElements _ _ ih _ =>
    obtain ⟨space, c, more, hspace, rfl, hc⟩ := ih
    exact ⟨space, c, _, hspace, by rw [List.append_assoc, List.cons_append], hc⟩
  | member hbefore _ _ _ _ =>
    exact ⟨_, '"', _, hbefore, rfl, by decide, by decide, by decide⟩
  | lastMember _ ih => exact ih
  | moreMembers _ _ ih _ =>
    obtain ⟨space, c, more, hspace, rfl, hc⟩ := ih
    exact ⟨space, c, _, hspace, by rw [List.append_assoc, List.cons_append], hc⟩

/-- What is in an array or an object is not its closing character. -/
theorem eat_derived {symbol : Symbol} {text : List Char} {written : Json}
    (hderives : Derives symbol text written) {close : Char} (hclose : close = ']' ∨ close = '\x7d')
    (rest : List Char) : eat close (text ++ rest) = none := by
  obtain ⟨space, c, more, hspace, rfl, hc, harray, hobject⟩ := exists_first hderives
  rw [List.append_assoc, List.cons_append]
  apply eat_eq_none hc _ hspace
  obtain rfl | rfl := hclose
  · exact harray
  · exact hobject

theorem follows_of_derives {symbol : Symbol} {text : List Char} {written : Json}
    (hderives : Derives symbol text written) : Follows symbol text written := by
  induction hderives with
  | null =>
    apply follows_scalar rfl
    intro rest _
    exact ⟨'n', _, rfl, by decide, by decide, parseScalar_word (by simp [literals]) rest⟩
  | true =>
    apply follows_scalar rfl
    intro rest _
    exact ⟨'t', _, rfl, by decide, by decide, parseScalar_word (by simp [literals]) rest⟩
  | false =>
    apply follows_scalar rfl
    intro rest _
    exact ⟨'f', _, rfl, by decide, by decide, parseScalar_word (by simp [literals]) rest⟩
  | number htoken =>
    apply follows_scalar rfl
    intro rest hrest
    obtain ⟨c, more, htext, hc⟩ := head?_number htoken rest
    refine ⟨c, more, htext, ?_, ?_, parseScalar_number htoken hrest⟩
    · obtain rfl | hdigit := hc
      · decide
      · exact (notSpecial_of_isDigit hdigit).1
    · obtain rfl | hdigit := hc
      · decide
      · refine ⟨?_, ?_, ?_⟩
        all_goals
          rintro rfl
          exact absurd hdigit (by decide)
  | @string inside value hinside =>
    intro fuel context depth before rest hbefore _ hfuel
    obtain ⟨fuel, rfl⟩ := Nat.exists_eq_succ_of_ne_zero (Nat.ne_zero_of_lt hfuel)
    rw [List.cons_append, List.append_assoc, List.singleton_append, judged_leaf rfl,
      parseValue_string _ _ _ (skipWhitespace_front hbefore (by decide) _), parseString_append hinside]
    split
    · rfl
    · rfl
  | @emptyArray space hspace =>
    intro fuel context depth before rest hbefore _ hfuel
    obtain ⟨fuel, rfl⟩ := Nat.exists_eq_succ_of_ne_zero (Nat.ne_zero_of_lt hfuel)
    rw [List.cons_append, List.append_assoc, List.singleton_append, judged,
      parseValue_array _ _ _ (skipWhitespace_front hbefore (by decide) _),
      eat_append (by decide) hspace]
    split
    · rfl
    · rfl
  | @array inside items hinside ih =>
    intro fuel context depth before rest hbefore _ hfuel
    obtain ⟨fuel, rfl⟩ := Nat.exists_eq_succ_of_ne_zero (Nat.ne_zero_of_lt hfuel)
    rw [List.cons_append, List.append_assoc, List.singleton_append, judged,
      parseValue_array _ _ _ (skipWhitespace_front hbefore (by decide) _),
      eat_derived hinside (.inl rfl)]
    dsimp only
    rw [ih fuel (depth + 1) rest (by simp at hfuel ⊢; omega)]
    split
    · rfl
    · cases judgedItems (depth + 1) items with
      | error e => rfl
      | ok values => rfl
  | @emptyObject space hspace =>
    intro fuel context depth before rest hbefore _ hfuel
    obtain ⟨fuel, rfl⟩ := Nat.exists_eq_succ_of_ne_zero (Nat.ne_zero_of_lt hfuel)
    rw [List.cons_append, List.append_assoc, List.singleton_append, judged,
      parseValue_object _ _ _ (skipWhitespace_front hbefore (by decide) _),
      eat_append (by decide) hspace]
    split
    · rfl
    · rfl
  | @object inside fields hinside ih =>
    intro fuel context depth before rest hbefore _ hfuel
    obtain ⟨fuel, rfl⟩ := Nat.exists_eq_succ_of_ne_zero (Nat.ne_zero_of_lt hfuel)
    rw [List.cons_append, List.append_assoc, List.singleton_append, judged,
      parseValue_object _ _ _ (skipWhitespace_front hbefore (by decide) _),
      eat_derived hinside (.inr rfl)]
    dsimp only
    rw [ih fuel context (depth + 1) [] rest (by simp at hfuel ⊢; omega)]
    split
    · rfl
    · cases judgedFields context (depth + 1) [] fields with
      | error e => rfl
      | ok entries => rfl
  | @element before text after value hbefore _ hafter ih =>
    refine ⟨after, hafter, ?_⟩
    intro fuel context depth rest hrest hfuel
    rw [List.append_assoc, List.append_assoc] at hfuel ⊢
    exact ih fuel context depth before (after ++ rest) hbefore (.spaces hafter hrest) hfuel
  | @lastElement text item _ ih =>
    intro fuel depth rest hfuel
    obtain ⟨after, hafter, hread⟩ := ih
    obtain ⟨fuel, rfl⟩ := Nat.exists_eq_succ_of_ne_zero (Nat.ne_zero_of_lt hfuel)
    rw [parseItems, hread fuel .struct depth _ (delimited_cons (.inr (.inl rfl)) rest) (by omega),
      judgedItems]
    cases judged .struct depth item with
    | error e => rfl
    | ok value =>
      simp only [Except.map, bind, Except.bind]
      rw [eat_eq_none (by decide) (by decide) hafter, expect_append (by decide) hafter]
      rfl
  | @moreElements text more item items _ _ ih ihRest =>
    intro fuel depth rest hfuel
    obtain ⟨after, hafter, hread⟩ := ih
    obtain ⟨fuel, rfl⟩ := Nat.exists_eq_succ_of_ne_zero (Nat.ne_zero_of_lt hfuel)
    rw [List.append_assoc, List.cons_append] at hfuel ⊢
    rw [parseItems, hread fuel .struct depth _ (delimited_cons (.inl rfl) _) (by omega), judgedItems]
    cases judged .struct depth item with
    | error e => rfl
    | ok value =>
      simp only [Except.map, bind, Except.bind]
      rw [eat_append (by decide) hafter]
      dsimp only
      rw [ihRest fuel depth rest (by simp at hfuel ⊢; omega)]
      cases judgedItems depth items with
      | error e => rfl
      | ok values => rfl
  | @member before inside after text name value hbefore hname hafter _ ih =>
    obtain ⟨behind, hbehind, hread⟩ := ih
    refine ⟨behind, hbehind, ?_⟩
    intro rest hrest
    simp only [List.append_assoc, List.cons_append]
    refine ⟨after ++ ':' :: (text ++ rest), text ++ rest, ?_, expect_append (by decide) hafter _,
      by simp; omega, fun fuel context depth hfuel => hread fuel context depth rest hrest hfuel⟩
    rw [skipWhitespace_front hbefore (by decide), parseString_append hname]
  | @lastMember text field _ ih =>
    intro fuel context depth seen rest hfuel
    obtain ⟨after, hafter, hread⟩ := ih
    obtain ⟨afterName, afterColon, hname, hcolon, hshort, hvalue⟩ :=
      hread ('\x7d' :: rest) (delimited_cons (.inr (.inr rfl)) rest)
    obtain ⟨fuel, rfl⟩ := Nat.exists_eq_succ_of_ne_zero (Nat.ne_zero_of_lt hfuel)
    rw [parseMembers, hname, judgedFields]
    simp only [bind, Except.bind]
    cases strictNames.key context field.1 seen with
    | error e => rfl
    | ok key =>
      dsimp only
      rw [hcolon]
      dsimp only
      rw [hvalue fuel (childContext context key) depth (by omega)]
      cases judged (childContext context key) depth field.2 with
      | error e => rfl
      | ok value =>
        dsimp only [Except.map]
        rw [eat_eq_none (by decide) (by decide) hafter, expect_append (by decide) hafter]
        rfl
  | @moreMembers text more field fields _ _ ih ihRest =>
    intro fuel context depth seen rest hfuel
    obtain ⟨after, hafter, hread⟩ := ih
    rw [List.append_assoc, List.cons_append] at hfuel ⊢
    obtain ⟨afterName, afterColon, hname, hcolon, hshort, hvalue⟩ :=
      hread (',' :: (more ++ '\x7d' :: rest)) (delimited_cons (.inl rfl) _)
    obtain ⟨fuel, rfl⟩ := Nat.exists_eq_succ_of_ne_zero (Nat.ne_zero_of_lt hfuel)
    rw [parseMembers, hname, judgedFields]
    simp only [bind, Except.bind]
    cases strictNames.key context field.1 seen with
    | error e => rfl
    | ok key =>
      dsimp only
      rw [hcolon]
      dsimp only
      rw [hvalue fuel (childContext context key) depth (by omega)]
      cases judged (childContext context key) depth field.2 with
      | error e => rfl
      | ok value =>
        dsimp only [Except.map]
        rw [eat_append (by decide) hafter]
        dsimp only
        rw [ihRest fuel context depth _ rest (by simp at hfuel ⊢; omega)]
        cases judgedFields context depth (JavaScript.toLowerCase field.1 :: seen) fields with
        | error e => rfl
        | ok entries => rfl

/-! ## The grammar follows the parser -/

/-- A successful reading took a derived text off the front. -/
theorem derives_of_parse (fuel : ℕ) :
    (∀ context depth text value rest,
      parseValue strictNames fuel context depth text = .ok (value, rest) →
        ∃ before inner written, Spaces before ∧ text = before ++ (inner ++ rest) ∧
          Derives .value inner written) ∧
    (∀ context depth seen text entries rest,
      parseMembers strictNames fuel context depth seen text = .ok (entries, rest) →
        ∃ inside fields, text = inside ++ '\x7d' :: rest ∧ Derives .members inside (.object fields)) ∧
    (∀ depth text values rest, parseItems strictNames fuel depth text = .ok (values, rest) →
      ∃ inside items, text = inside ++ ']' :: rest ∧ Derives .elements inside (.array items)) := by
  induction fuel with
  | zero => exact ⟨nofun, nofun, nofun⟩
  | succ fuel ih =>
    obtain ⟨ihValue, ihMembers, ihItems⟩ := ih
    refine ⟨?_, ?_, ?_⟩
    · intro context depth text value rest hparse
      obtain ⟨before, hbefore, htext⟩ := exists_spaces text
      rw [parseValue] at hparse
      split at hparse
      case isTrue => cases hparse
      case isFalse =>
        split at hparse
        case h_1 after hskip =>
          rw [hskip] at htext
          cases heat : eat '\x7d' after with
          | some behind =>
            rw [heat] at hparse
            obtain ⟨-, rfl⟩ := Prod.mk.inj (Except.ok.inj hparse)
            obtain ⟨space, hspace, rfl⟩ := exists_of_eat heat
            exact ⟨before, _, _, hbefore, by simpa using htext, .emptyObject hspace⟩
          | none =>
            rw [heat] at hparse
            obtain ⟨⟨entries, behind⟩, hentries, hparse⟩ := bind_eq_ok hparse
            obtain ⟨-, rfl⟩ := Prod.mk.inj (Except.ok.inj hparse)
            obtain ⟨inside, fields, rfl, hderives⟩ := ihMembers _ _ _ _ _ _ hentries
            exact ⟨before, _, _, hbefore, by simpa using htext, .object hderives⟩
        case h_2 after hskip =>
          rw [hskip] at htext
          cases heat : eat ']' after with
          | some behind =>
            rw [heat] at hparse
            obtain ⟨-, rfl⟩ := Prod.mk.inj (Except.ok.inj hparse)
            obtain ⟨space, hspace, rfl⟩ := exists_of_eat heat
            exact ⟨before, _, _, hbefore, by simpa using htext, .emptyArray hspace⟩
          | none =>
            rw [heat] at hparse
            obtain ⟨⟨values, behind⟩, hvalues, hparse⟩ := bind_eq_ok hparse
            obtain ⟨-, rfl⟩ := Prod.mk.inj (Except.ok.inj hparse)
            obtain ⟨inside, items, rfl, hderives⟩ := ihItems _ _ _ _ hvalues
            exact ⟨before, _, _, hbefore, by simpa using htext, .array hderives⟩
        case h_3 after hskip =>
          rw [hskip] at htext
          cases hstring : parseString ('"' :: after) with
          | error e => simp [hstring, Except.map] at hparse
          | ok cut =>
            rw [hstring] at hparse
            obtain ⟨-, rfl⟩ := Prod.mk.inj (Except.ok.inj hparse)
            obtain ⟨inside, hinside, hcut⟩ := exists_of_parseString hstring
            exact ⟨before, _, _, hbefore, by simpa [hcut] using htext, .string hinside⟩
        case h_4 =>
          obtain ⟨token, htoken, written, hderives⟩ := derives_of_parseScalar hparse
          exact ⟨before, token, written, hbefore, by rw [← htoken]; exact htext, hderives⟩
    · intro context depth seen text entries rest hparse
      obtain ⟨before, hbefore, htext⟩ := exists_spaces text
      rw [parseMembers] at hparse
      obtain ⟨⟨raw, afterName⟩, hname, hparse⟩ := bind_eq_ok hparse
      obtain ⟨key, -, hparse⟩ := bind_eq_ok hparse
      obtain ⟨afterColon, hcolon, hparse⟩ := bind_eq_ok hparse
      obtain ⟨⟨value, afterValue⟩, hvalue, hbody⟩ := bind_eq_ok hparse
      obtain ⟨inside, hinside, hskip⟩ := exists_of_parseString hname
      obtain ⟨space, hspace, rfl⟩ := exists_of_expect hcolon
      obtain ⟨front, inner, written, hfront, rfl, hderives⟩ := ihValue _ _ _ _ _ hvalue
      rw [hskip] at htext
      dsimp only at hbody
      cases heat : eat ',' afterValue with
      | some next =>
        rw [heat] at hbody
        obtain ⟨⟨more, after⟩, hmore, hresult⟩ := bind_eq_ok hbody
        obtain ⟨-, rfl⟩ := Prod.mk.inj (Except.ok.inj hresult)
        obtain ⟨back, hback, rfl⟩ := exists_of_eat heat
        obtain ⟨others, fields, rfl, hothers⟩ := ihMembers _ _ _ _ _ _ hmore
        have hmember := Derives.member hbefore hinside hspace (.element hfront hderives hback)
        exact ⟨_, _, by simpa using htext, .moreMembers hmember hothers⟩
      | none =>
        rw [heat] at hbody
        obtain ⟨after, hclose, hresult⟩ := bind_eq_ok hbody
        obtain ⟨-, rfl⟩ := Prod.mk.inj (Except.ok.inj hresult)
        obtain ⟨back, hback, rfl⟩ := exists_of_expect hclose
        have hmember := Derives.member hbefore hinside hspace (.element hfront hderives hback)
        exact ⟨_, _, by simpa using htext, .lastMember hmember⟩
    · intro depth text values rest hparse
      rw [parseItems] at hparse
      obtain ⟨⟨value, afterValue⟩, hvalue, hbody⟩ := bind_eq_ok hparse
      obtain ⟨front, inner, written, hfront, rfl, hderives⟩ := ihValue _ _ _ _ _ hvalue
      dsimp only at hbody
      cases heat : eat ',' afterValue with
      | some next =>
        rw [heat] at hbody
        obtain ⟨⟨more, after⟩, hmore, hresult⟩ := bind_eq_ok hbody
        obtain ⟨-, rfl⟩ := Prod.mk.inj (Except.ok.inj hresult)
        obtain ⟨back, hback, rfl⟩ := exists_of_eat heat
        obtain ⟨others, items, rfl, hothers⟩ := ihItems _ _ _ _ hmore
        exact ⟨_, _, by simp, .moreElements (.element hfront hderives hback) hothers⟩
      | none =>
        rw [heat] at hbody
        obtain ⟨after, hclose, hresult⟩ := bind_eq_ok hbody
        obtain ⟨-, rfl⟩ := Prod.mk.inj (Except.ok.inj hresult)
        obtain ⟨back, hback, rfl⟩ := exists_of_expect hclose
        exact ⟨_, _, by simp, .lastElement (.element hfront hderives hback)⟩

/-- On the texts of the grammar the parser makes `judged` of the value as written. -/
theorem parseText_of_isDocument {text : List Char} {written : Json}
    (hdocument : IsDocument text written) :
    parseText strictNames text = judged .struct 0 written := by
  obtain ⟨after, hafter, hread⟩ := follows_of_derives hdocument
  have hread := hread (2 * text.length + 1) .struct 0 [] delimited_nil (by simp)
  rw [List.append_nil] at hread
  rw [parseText, hread]
  cases judged .struct 0 written with
  | error e => rfl
  | ok value =>
    have hend : skipWhitespace (after ++ []) = [] := by rw [skipWhitespace_append hafter]; rfl
    simp only [Except.map, bind, Except.bind]
    rw [if_pos hend]
    rfl

/-- The parser reads no text outside the grammar. -/
theorem isDocument_of_parseText {text : List Char} {value : Json}
    (hparse : parseText strictNames text = .ok value) : ∃ written, IsDocument text written := by
  obtain ⟨⟨value', rest⟩, hvalue, hend⟩ := bind_eq_ok hparse
  obtain ⟨before, inner, written, hbefore, rfl, hderives⟩ :=
    (derives_of_parse _).1 _ _ _ _ _ hvalue
  dsimp only at hend
  split at hend
  case isFalse => cases hend
  case isTrue hrest =>
    obtain ⟨space, hspace, hspaces⟩ := exists_spaces rest
    rw [hrest, List.append_nil] at hspaces
    rw [hspaces]
    exact ⟨written, .element hbefore hderives hspace⟩

/-! ## When a written value is refused -/

theorem structKey_ok_iff {raw : String} {seen : List String} :
    (∃ key, structKey raw seen = .ok key) ↔ Printable raw ∧ JavaScript.toLowerCase raw ∉ seen := by
  have hany : (raw.toList.any fun c => c < ' ' || '~' < c) = true ↔ ¬Printable raw := by
    simp only [Printable, List.any_eq_true, Bool.or_eq_true, decide_eq_true_eq, not_forall,
      not_and_or, not_le]
    simp
  rw [structKey]
  split
  case isTrue hbad => simp [hany.mp hbad]
  case isFalse hgood =>
    rw [hany, not_not] at hgood
    split
    case isTrue hseen => simp_all
    case isFalse hnew => simp_all

/-- The names of a struct, after those in `seen`, are ones the parser takes. -/
structure Fresh (seen : List String) (fields : List (String × Json)) : Prop where
  printable : ∀ field ∈ fields, Printable field.1
  nodup : (fields.map fun field => JavaScript.toLowerCase field.1).Nodup
  unseen : ∀ field ∈ fields, JavaScript.toLowerCase field.1 ∉ seen

theorem fresh_cons_iff {seen : List String} {field : String × Json} {rest : List (String × Json)} :
    Fresh seen (field :: rest) ↔
      (Printable field.1 ∧ JavaScript.toLowerCase field.1 ∉ seen) ∧
        Fresh (JavaScript.toLowerCase field.1 :: seen) rest := by
  have hnew : (∀ other ∈ rest,
      JavaScript.toLowerCase other.1 ∉ JavaScript.toLowerCase field.1 :: seen) ↔
      JavaScript.toLowerCase field.1 ∉ rest.map (fun other => JavaScript.toLowerCase other.1) ∧
        ∀ other ∈ rest, JavaScript.toLowerCase other.1 ∉ seen := by
    simp only [List.mem_cons, not_or, List.mem_map, not_exists, not_and]
    exact ⟨fun h => ⟨fun other hother => (h other hother).1, fun other hother => (h other hother).2⟩,
      fun h other hother => ⟨h.1 other hother, h.2 other hother⟩⟩
  constructor
  · rintro ⟨hprintable, hnodup, hunseen⟩
    rw [List.forall_mem_cons] at hprintable hunseen
    rw [List.map_cons, List.nodup_cons] at hnodup
    exact ⟨⟨hprintable.1, hunseen.1⟩, hprintable.2, hnodup.2, hnew.mpr ⟨hnodup.1, hunseen.2⟩⟩
  · rintro ⟨⟨hprintable, hunseen⟩, hrest⟩
    obtain ⟨hnotMem, hrestUnseen⟩ := hnew.mp hrest.unseen
    exact ⟨List.forall_mem_cons.mpr ⟨hprintable, hrest.printable⟩,
      List.nodup_cons.mpr ⟨hnotMem, hrest.nodup⟩, List.forall_mem_cons.mpr ⟨hunseen, hrestUnseen⟩⟩

theorem judgedItems_ok_iff {depth : ℕ} {items : List Json} :
    (∃ values, judgedItems depth items = .ok values) ↔
      ∀ item ∈ items, ∃ value, judged .struct depth item = .ok value := by
  induction items with
  | nil => simp [judgedItems]
  | cons item rest ih =>
    rw [List.forall_mem_cons, ← ih, judgedItems]
    cases judged .struct depth item with
    | error e => simp [bind, Except.bind]
    | ok value =>
      cases judgedItems depth rest with
      | error e => simp [bind, Except.bind]
      | ok values => simp [bind, Except.bind, pure, Except.pure]

/-- The treatment of a name, by context. -/
theorem key_ok_iff {context : Context} {raw : String} {seen : List String} :
    (∃ key, strictNames.key context raw seen = .ok key) ↔
      (context = .struct → Printable raw ∧ JavaScript.toLowerCase raw ∉ seen) := by
  cases context with
  | map => simp [strictNames]
  | struct =>
    rw [← structKey_ok_iff]
    simp [strictNames]

theorem judgedFields_cons_ok_iff {context : Context} {depth : ℕ} {seen : List String}
    {field : String × Json} {rest : List (String × Json)} :
    (∃ entries, judgedFields context depth seen (field :: rest) = .ok entries) ↔
      (∃ key, strictNames.key context field.1 seen = .ok key) ∧
        (∃ value, judged (childContext context field.1) depth field.2 = .ok value) ∧
          ∃ entries,
            judgedFields context depth (JavaScript.toLowerCase field.1 :: seen) rest = .ok entries := by
  rw [judgedFields]
  constructor
  · rintro ⟨entries, hentries⟩
    obtain ⟨key, hkey, hbody⟩ := bind_eq_ok hentries
    obtain ⟨value, hvalue, hbody⟩ := bind_eq_ok hbody
    obtain ⟨others, hothers, -⟩ := bind_eq_ok hbody
    rw [childContext_key hkey] at hvalue
    exact ⟨⟨key, hkey⟩, ⟨value, hvalue⟩, others, hothers⟩
  · rintro ⟨⟨key, hkey⟩, ⟨value, hvalue⟩, others, hothers⟩
    rw [← childContext_key hkey] at hvalue
    exact ⟨(key, value) :: others, by simp [bind, Except.bind, pure, Except.pure, hkey, hvalue, hothers]⟩

theorem judgedFields_ok_iff {context : Context} {depth : ℕ} {seen : List String}
    {fields : List (String × Json)} :
    (∃ entries, judgedFields context depth seen fields = .ok entries) ↔
      (context = .struct → Fresh seen fields) ∧
        ∀ field ∈ fields, ∃ value, judged (childContext context field.1) depth field.2 = .ok value := by
  induction fields generalizing seen with
  | nil =>
    exact iff_of_true ⟨[], rfl⟩ ⟨fun _ => ⟨by simp, by simp, by simp⟩, by simp⟩
  | cons field rest ih =>
    have hfresh : (context = .struct → Fresh seen (field :: rest)) ↔
        (context = .struct → Printable field.1 ∧ JavaScript.toLowerCase field.1 ∉ seen) ∧
          (context = .struct → Fresh (JavaScript.toLowerCase field.1 :: seen) rest) := by
      rw [fresh_cons_iff]
      exact imp_and
    rw [judgedFields_cons_ok_iff, key_ok_iff, ih, hfresh, List.forall_mem_cons]
    tauto

theorem heightOfItems_le_iff {items : List Json} {bound : ℕ} :
    heightOfItems items ≤ bound ↔ ∀ item ∈ items, height item + 1 ≤ bound := by
  induction items with
  | nil => simp [heightOfItems]
  | cons item rest ih => rw [heightOfItems, Nat.max_le, ih, List.forall_mem_cons]

theorem heightOfFields_le_iff {fields : List (String × Json)} {bound : ℕ} :
    heightOfFields fields ≤ bound ↔ ∀ field ∈ fields, height field.2 + 1 ≤ bound := by
  induction fields with
  | nil => simp [heightOfFields]
  | cons field rest ih => rw [heightOfFields, Nat.max_le, ih, List.forall_mem_cons]

theorem badName_array_iff {context : Context} {items : List Json} :
    BadName context (.array items) ↔ ∃ item ∈ items, BadName .struct item := by
  constructor
  · intro hbad
    cases hbad with
    | item hitem hvalue => exact ⟨_, hitem, hvalue⟩
  · rintro ⟨item, hitem, hvalue⟩
    exact .item hitem hvalue

theorem badName_object_iff {context : Context} {fields : List (String × Json)} :
    BadName context (.object fields) ↔ ¬(context = .struct → Fresh [] fields) ∨
      ∃ field ∈ fields, BadName (childContext context field.1) field.2 := by
  constructor
  · intro hbad
    cases hbad with
    | unprintable hfield hname => exact .inl fun hfresh => hname ((hfresh rfl).printable _ hfield)
    | repeated hnames => exact .inl fun hfresh => hnames (hfresh rfl).nodup
    | field hfield hvalue => exact .inr ⟨_, hfield, hvalue⟩
  · rintro (hnames | ⟨field, hfield, hvalue⟩)
    · rw [Classical.not_imp] at hnames
      obtain ⟨rfl, hfresh⟩ := hnames
      by_cases hnodup : (fields.map fun field => JavaScript.toLowerCase field.1).Nodup
      · have hprintable : ¬∀ field ∈ fields, Printable field.1 := fun hall =>
          hfresh ⟨hall, hnodup, by simp⟩
        push Not at hprintable
        obtain ⟨field, hfield, hname⟩ := hprintable
        exact .unprintable hfield hname
      · exact .repeated hnodup
    · exact .field hfield hvalue

theorem height_leaf {value : Json} (hleaf : value.isLeaf = true) : height value = 0 := by
  cases value with
  | null => rfl
  | bool => rfl
  | number => rfl
  | string => rfl
  | array => cases hleaf
  | object => cases hleaf

theorem not_badName_leaf {value : Json} (hleaf : value.isLeaf = true) (context : Context) :
    ¬BadName context value := by
  intro hbad
  cases hbad with
  | unprintable => cases hleaf
  | repeated => cases hleaf
  | field => cases hleaf
  | item => cases hleaf

theorem ok_below_maxDepth_iff {α : Type} {depth : ℕ} {x : Except BodyError α} {f : α → Json} :
    (∃ value, (if depth > maxDepth then .error .tooDeep else x.map f) = .ok value) ↔
      depth ≤ maxDepth ∧ ∃ a, x = .ok a := by
  split
  case isTrue hdeep => simp; omega
  case isFalse hdeep =>
    cases x with
    | error e => simp [Except.map]
    | ok a => simp [Except.map]; omega

/-- A written value is taken when it is not too deep and its structs have good names. -/
theorem judged_ok_iff (written : Json) (context : Context) (depth : ℕ) :
    (∃ value, judged context depth written = .ok value) ↔
      depth + height written ≤ maxDepth ∧ ¬BadName context written := by
  induction written using Json.induction generalizing context depth with
  | leaf value hleaf =>
    rw [judged_leaf hleaf, height_leaf hleaf]
    split
    case isTrue hdeep => simp; omega
    case isFalse hdeep =>
      exact iff_of_true ⟨value, rfl⟩ ⟨by omega, not_badName_leaf hleaf context⟩
  | array items ih =>
    have hitems : (∀ item ∈ items, ∃ value, judged .struct (depth + 1) item = .ok value) ↔
        (∀ item ∈ items, depth + 1 + height item ≤ maxDepth) ∧
          ∀ item ∈ items, ¬BadName .struct item := by
      constructor
      · intro h
        exact ⟨fun item hitem => ((ih item hitem _ _).mp (h item hitem)).1,
          fun item hitem => ((ih item hitem _ _).mp (h item hitem)).2⟩
      · intro h item hitem
        exact (ih item hitem _ _).mpr ⟨h.1 item hitem, h.2 item hitem⟩
    have hheight : depth + heightOfItems items ≤ maxDepth ↔
        depth ≤ maxDepth ∧ ∀ item ∈ items, depth + 1 + height item ≤ maxDepth := by
      constructor
      · intro hle
        have hle' := heightOfItems_le_iff.mp (Nat.le_sub_of_add_le' hle)
        exact ⟨by omega, fun item hitem => by have := hle' item hitem; omega⟩
      · rintro ⟨hdepth, hle⟩
        have hle' : heightOfItems items ≤ maxDepth - depth :=
          heightOfItems_le_iff.mpr fun item hitem => by have := hle item hitem; omega
        omega
    rw [judged, ok_below_maxDepth_iff, judgedItems_ok_iff, badName_array_iff, height, hitems, hheight]
    push Not
    exact and_assoc.symm
  | object fields ih =>
    have hfields : (∀ field ∈ fields,
          ∃ value, judged (childContext context field.1) (depth + 1) field.2 = .ok value) ↔
        (∀ field ∈ fields, depth + 1 + height field.2 ≤ maxDepth) ∧
          ∀ field ∈ fields, ¬BadName (childContext context field.1) field.2 := by
      constructor
      · intro h
        exact ⟨fun field hfield => ((ih field hfield _ _).mp (h field hfield)).1,
          fun field hfield => ((ih field hfield _ _).mp (h field hfield)).2⟩
      · intro h field hfield
        exact (ih field hfield _ _).mpr ⟨h.1 field hfield, h.2 field hfield⟩
    have hheight : depth + heightOfFields fields ≤ maxDepth ↔
        depth ≤ maxDepth ∧ ∀ field ∈ fields, depth + 1 + height field.2 ≤ maxDepth := by
      constructor
      · intro hle
        have hle' := heightOfFields_le_iff.mp (Nat.le_sub_of_add_le' hle)
        exact ⟨by omega, fun field hfield => by have := hle' field hfield; omega⟩
      · rintro ⟨hdepth, hle⟩
        have hle' : heightOfFields fields ≤ maxDepth - depth :=
          heightOfFields_le_iff.mpr fun field hfield => by have := hle field hfield; omega
        omega
    rw [judged, ok_below_maxDepth_iff, judgedFields_ok_iff, badName_object_iff, height, hfields,
      hheight, not_or, not_not]
    push Not
    tauto

/-! ## What it is taken as -/

theorem plainFields_eq (fields : List (String × Json)) :
    plainFields fields = fields.map fun field => (field.1, plainly field.2) := by
  induction fields with
  | nil => rfl
  | cons field rest ih => rw [plainFields, ih, List.map_cons]

theorem renamedFields_eq (context : Context) (fields : List (String × Json)) :
    renamedFields context fields = fields.map fun field =>
      (nameIn context field.1, renamed (childContext context field.1) field.2) := by
  induction fields with
  | nil => rfl
  | cons field rest ih => rw [renamedFields, ih, List.map_cons]

theorem key_eq_nameIn {context : Context} {raw key : String} {seen : List String}
    (hkey : strictNames.key context raw seen = .ok key) : key = nameIn context raw := by
  cases context with
  | map => exact (Except.ok.inj hkey).symm
  | struct => exact (structKey_ok hkey).2

theorem judgedItems_eq {depth : ℕ} {items values : List Json}
    (ih : ∀ item ∈ items, ∀ context depth value, judged context depth item = .ok value →
      value = renamed context (plainly item))
    (hvalues : judgedItems depth items = .ok values) : values = renamedItems (plainItems items) := by
  induction items generalizing values with
  | nil => exact (Except.ok.inj hvalues).symm
  | cons item rest ihRest =>
    obtain ⟨hitem, hrest⟩ := List.forall_mem_cons.mp ih
    obtain ⟨value, hvalue, hbody⟩ := bind_eq_ok hvalues
    obtain ⟨others, hothers, hresult⟩ := bind_eq_ok hbody
    obtain rfl := Except.ok.inj hresult
    rw [plainItems, renamedItems, ← hitem _ _ _ hvalue, ← ihRest hrest hothers]

theorem judgedFields_eq {context : Context} {depth : ℕ} {seen : List String}
    {fields entries : List (String × Json)}
    (ih : ∀ field ∈ fields, ∀ context depth value, judged context depth field.2 = .ok value →
      value = renamed context (plainly field.2))
    (hentries : judgedFields context depth seen fields = .ok entries) :
    entries = renamedFields context (plainFields fields) := by
  induction fields generalizing seen entries with
  | nil => exact (Except.ok.inj hentries).symm
  | cons field rest ihRest =>
    obtain ⟨hfield, hrest⟩ := List.forall_mem_cons.mp ih
    obtain ⟨key, hkey, hbody⟩ := bind_eq_ok hentries
    obtain ⟨value, hvalue, hbody⟩ := bind_eq_ok hbody
    obtain ⟨others, hothers, hresult⟩ := bind_eq_ok hbody
    obtain rfl := Except.ok.inj hresult
    rw [childContext_key hkey] at hvalue
    rw [plainFields, renamedFields_eq, List.map_cons, ← renamedFields_eq, ← hfield _ _ _ hvalue,
      ← ihRest hrest hothers, key_eq_nameIn hkey]

theorem eq_map_of_sameKey {g : Json → Json} {fields fields' : List (String × Json)}
    (h : List.Forall₂ (SameKey fun value value' => value' = g value) fields fields') :
    fields' = fields.map fun field => (field.1, g field.2) := by
  induction h with
  | nil => rfl
  | cons hfield _ ih => rw [List.map_cons, ih, hfield.1, ← hfield.2]

/-- Making an object and renaming its fields can be done in either order, where the struct
names are fresh. -/
theorem fromEntries_renamedFields {context : Context} {fields : List (String × Json)}
    (hfresh : context = .struct → (fields.map fun field => JavaScript.toLowerCase field.1).Nodup) :
    fromEntries (renamedFields context fields) = renamedFields context (fromEntries fields) := by
  rw [renamedFields_eq, renamedFields_eq]
  cases context with
  | struct =>
    have hnodup := hfresh rfl
    have hnames : (fields.map Prod.fst).Nodup := by
      apply List.Nodup.of_map JavaScript.toLowerCase
      rwa [List.map_map]
    have hcanonical : ((fields.map fun field =>
        (nameIn .struct field.1, renamed (childContext .struct field.1) field.2)).map
          Prod.fst).Nodup := by
      apply List.Nodup.of_map JavaScript.toLowerCase
      rw [List.map_map, List.map_map]
      simpa only [Function.comp_def, nameIn, toLowerCase_canonicalName] using hnodup
    rw [fromEntries_of_nodup hcanonical, fromEntries_of_nodup hnames]
  | map =>
    have hsame : List.Forall₂ (SameKey fun value value' => value' = renamed .struct value) fields
        (fields.map fun field => (nameIn .map field.1, renamed (childContext .map field.1) field.2)) := by
      rw [List.forall₂_map_right_iff]
      exact List.forall₂_same.mpr fun field _ => ⟨rfl, rfl⟩
    exact eq_map_of_sameKey (forall₂_fromEntries hsame)

/-- What the parser makes of a written value is what `JSON.parse` makes of it, renamed. -/
theorem judged_eq (written : Json) {context : Context} {depth : ℕ} {value : Json}
    (hvalue : judged context depth written = .ok value) : value = renamed context (plainly written) := by
  induction written using Json.induction generalizing context depth value with
  | leaf value' hleaf =>
    rw [judged_leaf hleaf] at hvalue
    split at hvalue
    case isTrue => cases hvalue
    case isFalse =>
      rw [← Except.ok.inj hvalue]
      cases value' with
      | null => rfl
      | bool => rfl
      | number => rfl
      | string => rfl
      | array => cases hleaf
      | object => cases hleaf
  | array items ih =>
    rw [judged] at hvalue
    split at hvalue
    case isTrue => cases hvalue
    case isFalse =>
      cases hitems : judgedItems (depth + 1) items with
      | error e => simp [hitems, Except.map] at hvalue
      | ok values =>
        rw [hitems] at hvalue
        obtain rfl := Except.ok.inj hvalue
        rw [plainly, renamed, ← judgedItems_eq (fun item hitem _ _ _ h => ih item hitem h) hitems]
  | object fields ih =>
    rw [judged] at hvalue
    split at hvalue
    case isTrue => cases hvalue
    case isFalse =>
      cases hfields : judgedFields context (depth + 1) [] fields with
      | error e => simp [hfields, Except.map] at hvalue
      | ok entries =>
        rw [hfields] at hvalue
        obtain rfl := Except.ok.inj hvalue
        have hfresh := (judgedFields_ok_iff.mp ⟨entries, hfields⟩).1
        rw [plainly, renamed, ← fromEntries_renamedFields,
          ← judgedFields_eq (fun field hfield _ _ _ h => ih field hfield h) hfields]
        intro hstruct
        rw [plainFields_eq, List.map_map]
        exact (hfresh hstruct).nodup

/-! ## The agreement -/

/-- What the strict parser and `JSON.parse` have in common on a text. -/
structure Agrees (text : List Char) : Prop where
  ends : parseText strictNames text ≠ .error .diverged
  reads : ∀ value, parseText strictNames text = .ok value → ∃ written, IsDocument text written
  renames : ∀ value written, parseText strictNames text = .ok value → IsDocument text written →
    value = renamed .struct (plainly written)
  refuses : ∀ written, IsDocument text written →
    ((∃ error, parseText strictNames text = .error error) ↔
      maxDepth < height written ∨ BadName .struct written)

/-- The strict parser ends on every text.  What it takes, `JSON.parse` takes, and makes the
same value of but for the spelling of struct fields; and of what `JSON.parse` takes it
refuses only what is too deep or has a bad struct field name. -/
theorem strictJson_agrees (text : List Char) : Agrees text where
  ends := parse_ne_diverged text
  reads _ hparse := isDocument_of_parseText hparse
  renames value written hparse hdocument := by
    rw [parseText_of_isDocument hdocument] at hparse
    exact judged_eq written hparse
  refuses written hdocument := by
    rw [parseText_of_isDocument hdocument]
    have hok := judged_ok_iff written .struct 0
    rw [Nat.zero_add] at hok
    cases hjudged : judged .struct 0 written with
    | ok value =>
      obtain ⟨hheight, hnames⟩ := hok.mp ⟨value, hjudged⟩
      exact iff_of_false (by simp) (not_or.mpr ⟨by omega, hnames⟩)
    | error e =>
      refine iff_of_true ⟨e, rfl⟩ ?_
      by_contra hgood
      rw [not_or, Nat.not_lt] at hgood
      obtain ⟨value, hvalue⟩ := hok.mpr hgood
      rw [hjudged] at hvalue
      cases hvalue

end Turbopaneld.DockerGate
