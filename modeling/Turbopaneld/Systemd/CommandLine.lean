/-
# How systemd reads a command line

A line becomes words at its blanks, with single and double quotes around what is kept
together.  A backslash begins an escape inside of quotes and outside.  Then the percent
sequences of a word are replaced, and last the variables, where a word that is one variable
may become several words.

What a reader replaces a sequence by is left open, and so is which letters are specifiers and
what is a name.
-/

import Mathlib.Algebra.Ring.Nat
import Mathlib.Data.List.Basic
import Mathlib.Data.List.SplitOn

namespace Turbopaneld.Systemd

/-! ## Escapes -/

/-- The escapes of one character. -/
def simpleEscape : Char → Option Char
  | 'a' => some '\x07'
  | 'b' => some '\x08'
  | 'f' => some '\x0c'
  | 'n' => some '\n'
  | 'r' => some '\r'
  | 't' => some '\t'
  | 'v' => some '\x0b'
  | '\\' => some '\\'
  | '"' => some '"'
  | '\'' => some '\''
  | 's' => some ' '
  | _ => none

def hexValue (c : Char) : Option ℕ :=
  if '0' ≤ c ∧ c ≤ '9' then some (c.toNat - '0'.toNat)
  else if 'a' ≤ c ∧ c ≤ 'f' then some (c.toNat - 'a'.toNat + 10)
  else if 'A' ≤ c ∧ c ≤ 'F' then some (c.toNat - 'A'.toNat + 10)
  else none

def octalValue (c : Char) : Option ℕ :=
  if '0' ≤ c ∧ c ≤ '7' then some (c.toNat - '0'.toNat) else none

/-- So many digits behind the code `code`. -/
def takeCode (digit : Char → Option ℕ) (base : ℕ) : ℕ → ℕ → List Char → Option (ℕ × List Char)
  | 0, code, text => some (code, text)
  | _ + 1, _, [] => none
  | count + 1, code, c :: rest =>
    match digit c with
    | none => none
    | some value => takeCode digit base count (code * base + value) rest

/-- A code at most `limit` that is a character, and not the first one. -/
def characterAt (limit : ℕ) : ℕ × List Char → Option (Char × List Char)
  | (code, rest) =>
    if code ≠ 0 ∧ code ≤ limit ∧ code.isValidChar then some (Char.ofNat code, rest) else none

/-- What a backslash before a text stands for, and the text behind the escape. -/
def unescape : List Char → Option (Char × List Char)
  | [] => none
  | c :: rest =>
    match simpleEscape c with
    | some d => some (d, rest)
    | none =>
      if c = 'x' then (takeCode hexValue 16 2 0 rest).bind (characterAt 255)
      else if c = 'u' then (takeCode hexValue 16 4 0 rest).bind (characterAt 0x10ffff)
      else if c = 'U' then (takeCode hexValue 16 8 0 rest).bind (characterAt 0x10ffff)
      else (takeCode octalValue 8 3 0 (c :: rest)).bind (characterAt 255)

theorem suffix_of_takeCode {digit : Char → Option ℕ} {base count code value : ℕ}
    {text rest : List Char} (h : takeCode digit base count code text = some (value, rest)) :
    rest <:+ text := by
  induction count generalizing code text with
  | zero =>
    obtain ⟨-, rfl⟩ := Prod.mk.inj (Option.some.inj h)
    exact List.suffix_refl _
  | succ count ih =>
    cases text with
    | nil => cases h
    | cons c text =>
      rw [takeCode] at h
      split at h
      · cases h
      · exact (ih h).trans (List.suffix_cons c text)

theorem characterAt_eq_some {limit code : ℕ} {rest text : List Char} {c : Char}
    (h : characterAt limit (code, rest) = some (c, text)) : text = rest := by
  rw [characterAt] at h
  split at h
  · exact (Prod.mk.inj (Option.some.inj h)).2.symm
  · cases h

theorem suffix_of_code {digit : Char → Option ℕ} {base count limit : ℕ} {text rest : List Char}
    {c : Char} (h : (takeCode digit base count 0 text).bind (characterAt limit) = some (c, rest)) :
    rest <:+ text := by
  obtain ⟨⟨code, behind⟩, hcode, hcharacter⟩ := Option.bind_eq_some_iff.mp h
  rw [characterAt_eq_some hcharacter]
  exact suffix_of_takeCode hcode

/-- An escape has at least one character. -/
theorem suffix_of_unescape {c d : Char} {text rest : List Char}
    (h : unescape (c :: text) = some (d, rest)) : rest <:+ text := by
  rw [unescape] at h
  split at h
  · obtain ⟨-, rfl⟩ := Prod.mk.inj (Option.some.inj h)
    exact List.suffix_refl _
  · split at h
    · exact suffix_of_code h
    · split at h
      · exact suffix_of_code h
      · split at h
        · exact suffix_of_code h
        · obtain ⟨⟨code, behind⟩, hcode, hcharacter⟩ := Option.bind_eq_some_iff.mp h
          rw [characterAt_eq_some hcharacter]
          rw [takeCode] at hcode
          split at hcode
          · cases hcode
          · exact suffix_of_takeCode hcode

theorem length_of_unescape {d : Char} {text rest : List Char}
    (h : unescape text = some (d, rest)) : rest.length < text.length := by
  cases text with
  | nil => cases h
  | cons c text => exact Nat.lt_succ_of_le (suffix_of_unescape h).length_le

/-! ## Words -/

def isBlank (c : Char) : Bool := c == ' ' || c == '\t' || c == '\n' || c == '\r'

/-- More characters of the word under way. -/
def push (word : Option (List Char)) (more : List Char) : Option (List Char) :=
  some (word.getD [] ++ more)

/-- The words of a text, from inside of a quote or outside.  An escape that is none is kept as
it is, and a quote that is not closed is refused. -/
def readWords (quote : Option Char) (word : Option (List Char)) (text : List Char) :
    Option (List (List Char)) :=
  match text with
  | [] => if quote.isSome then none else some word.toList
  | c :: rest =>
    if c = '\\' then
      match h : unescape rest with
      | some (d, behind) => readWords quote (push word [d]) behind
      | none =>
        match rest with
        | [] => readWords quote (push word ['\\']) []
        | d :: behind => readWords quote (push word ['\\', d]) behind
    else
      match quote with
      | some q =>
        if c = q then readWords none (push word []) rest else readWords quote (push word [c]) rest
      | none =>
        if c = '\'' ∨ c = '"' then readWords (some c) (push word []) rest
        else if isBlank c then (readWords none none rest).map (word.toList ++ ·)
        else readWords none (push word [c]) rest
termination_by text.length
decreasing_by
  all_goals first
    | exact Nat.lt_succ_of_lt (length_of_unescape h)
    | simp only [List.length_cons]; omega

@[simp]
theorem push_some (word more : List Char) : push (some word) more = some (word ++ more) := rfl

@[simp]
theorem push_none (more : List Char) : push none more = some more := rfl

section

variable {quote : Option Char} {word : Option (List Char)} {c d : Char} {rest behind : List Char}

theorem readWords_nil : readWords none word [] = some word.toList := by
  rw [readWords]
  rfl

theorem readWords_escape (h : unescape rest = some (d, behind)) :
    readWords quote word ('\\' :: rest) = readWords quote (push word [d]) behind := by
  rw [readWords.eq_def]
  dsimp only
  rw [if_pos rfl]
  split
  · rename_i hescape
    rw [h] at hescape
    obtain ⟨rfl, rfl⟩ := Prod.mk.inj (Option.some.inj hescape)
    rfl
  · rename_i hescape
    cases h.symm.trans hescape

theorem readWords_keep (h : unescape (d :: behind) = none) :
    readWords quote word ('\\' :: d :: behind) = readWords quote (push word ['\\', d]) behind := by
  rw [readWords.eq_def]
  dsimp only
  rw [if_pos rfl]
  split
  · rename_i hescape
    cases h.symm.trans hescape
  · rfl

theorem readWords_close (hc : c ≠ '\\') :
    readWords (some c) word (c :: rest) = readWords none (push word []) rest := by
  rw [readWords, if_neg hc]
  exact if_pos rfl

theorem readWords_quoted {q : Char} (hc : c ≠ '\\') (hq : c ≠ q) :
    readWords (some q) word (c :: rest) = readWords (some q) (push word [c]) rest := by
  rw [readWords, if_neg hc]
  exact if_neg hq

theorem readWords_open (hc : c = '\'' ∨ c = '"') :
    readWords none word (c :: rest) = readWords (some c) (push word []) rest := by
  have hne : c ≠ '\\' := by
    rintro rfl
    exact absurd hc (by decide)
  rw [readWords, if_neg hne]
  exact if_pos hc

theorem readWords_blank : readWords none word (' ' :: rest) =
    (readWords none none rest).map (word.toList ++ ·) := by
  rw [readWords]
  rfl

theorem readWords_plain (hc : c ≠ '\\') (hquote : ¬(c = '\'' ∨ c = '"')) (hblank : isBlank c = false) :
    readWords none word (c :: rest) = readWords none (push word [c]) rest := by
  rw [readWords, if_neg hc, if_neg hquote, if_neg (by rw [hblank]; exact Bool.false_ne_true)]

/-- A character that stands for itself outside of quotes. -/
def isBare (c : Char) : Bool := c != '\\' && c != '\'' && c != '"' && !isBlank c

theorem readWords_bare {more : List Char} (hbare : more.all isBare) (hmore : more ≠ []) :
    readWords none word (more ++ rest) = readWords none (push word more) rest := by
  induction more generalizing word with
  | nil => exact absurd rfl hmore
  | cons c more ih =>
    rw [List.all_cons, Bool.and_eq_true] at hbare
    obtain ⟨hc, hrest⟩ := hbare
    simp only [isBare, Bool.and_eq_true, bne_iff_ne, Bool.not_eq_true'] at hc
    obtain ⟨⟨⟨hbackslash, hsingle⟩, hdouble⟩, hblank⟩ := hc
    rw [List.cons_append, readWords_plain hbackslash (not_or.mpr ⟨hsingle, hdouble⟩) hblank]
    by_cases hnil : more = []
    · rw [hnil]
      rfl
    · rw [ih hrest hnil]
      exact congrArg (readWords none · rest)
        (congrArg some (List.append_assoc (word.getD []) [c] more))

end

/-! ## What words hold besides single quotes -/

/-- The characters that are no single quotes. -/
def unquoted (text : List Char) : ℕ := text.countP (· != '\'')

/-- The characters of a line that are no single quotes and do not escape one. -/
def weight : List Char → ℕ
  | [] => 0
  | c :: rest =>
    weight rest + if c = '\'' ∨ (c = '\\' ∧ rest.head? = some '\'') then 0 else 1

theorem unquoted_append (a b : List Char) : unquoted (a ++ b) = unquoted a + unquoted b :=
  List.countP_append

theorem unquoted_singleton_le (c : Char) : unquoted [c] ≤ 1 := List.countP_le_length

theorem unquoted_push (word : Option (List Char)) (more : List Char) :
    unquoted ((push word more).getD []) = unquoted (word.getD []) + unquoted more :=
  unquoted_append _ _

theorem weight_le_cons (c : Char) (rest : List Char) : weight rest ≤ weight (c :: rest) :=
  Nat.le_add_right _ _

theorem weight_le_of_suffix {text rest : List Char} (h : rest <:+ text) :
    weight rest ≤ weight text := by
  obtain ⟨front, rfl⟩ := h
  induction front with
  | nil => exact Nat.le_refl _
  | cons c front ih => exact Nat.le_trans ih (weight_le_cons c _)

theorem weight_cons {c : Char} {rest : List Char} (hc : c ≠ '\'')
    (hrest : c = '\\' → rest.head? ≠ some '\'') : weight (c :: rest) = weight rest + 1 := by
  rw [weight, if_neg]
  rintro (rfl | ⟨rfl, hhead⟩)
  · exact hc rfl
  · exact hrest rfl hhead

theorem unquoted_singleton_add_le {c : Char} (hc : c ≠ '\\') (rest : List Char) :
    unquoted [c] + weight rest ≤ weight (c :: rest) := by
  by_cases hquote : c = '\''
  · subst hquote
    exact Nat.le_of_eq (Nat.add_comm _ _)
  · rw [weight_cons hquote fun h => absurd h hc, Nat.add_comm]
    exact Nat.add_le_add_left (unquoted_singleton_le c) _

/-- An escape adds at most what it takes. -/
theorem unquoted_unescape_le {d : Char} {rest behind : List Char}
    (h : unescape rest = some (d, behind)) :
    unquoted [d] + weight behind ≤ weight ('\\' :: rest) := by
  cases rest with
  | nil => cases h
  | cons c rest =>
    have hle : weight behind ≤ weight rest := weight_le_of_suffix (suffix_of_unescape h)
    by_cases hc : c = '\''
    · subst hc
      obtain ⟨rfl, rfl⟩ := Prod.mk.inj (Option.some.inj h)
      have hfirst := weight_le_cons '\'' rest
      have hsecond := weight_le_cons '\\' ('\'' :: rest)
      have hnone : unquoted ['\''] = 0 := rfl
      omega
    · have hweight : weight ('\\' :: c :: rest) = weight (c :: rest) + 1 :=
        weight_cons (by decide) fun _ hhead => hc (Option.some.inj hhead)
      rw [hweight]
      have hone := unquoted_singleton_le d
      have hnext := weight_le_cons c rest
      omega

theorem sum_unquoted_toList (word : Option (List Char)) :
    (word.toList.map unquoted).sum = unquoted (word.getD []) := by
  cases word with
  | none => rfl
  | some word => exact List.sum_singleton

/-- No words hold more than the line. -/
theorem unquoted_readWords_le {quote : Option Char} {word : Option (List Char)}
    {text : List Char} {words : List (List Char)} (h : readWords quote word text = some words) :
    (words.map unquoted).sum ≤ unquoted (word.getD []) + weight text := by
  fun_induction readWords generalizing words with
  | case1 => cases h
  | case2 quote word =>
    obtain rfl := Option.some.inj h
    exact Nat.le_of_eq (sum_unquoted_toList word)
  | case3 quote word rest d behind hescape ih =>
    have hwords := ih h
    have htaken := unquoted_unescape_le hescape
    rw [unquoted_push] at hwords
    omega
  | case4 quote word _ ih =>
    have hwords := ih h
    rw [unquoted_push] at hwords
    exact hwords
  | case5 quote word d behind hescape ih =>
    have hwords := ih h
    rw [unquoted_push] at hwords
    have htwo : unquoted ['\\', d] ≤ 2 := List.countP_le_length
    have hd : weight (d :: behind) = weight behind + 1 := by
      refine weight_cons ?_ ?_
      · rintro rfl
        cases hescape
      · rintro rfl
        cases hescape
    have hbackslash : weight ('\\' :: d :: behind) = weight (d :: behind) + 1 := by
      refine weight_cons (by decide) fun _ hhead => ?_
      obtain rfl := Option.some.inj hhead
      cases hescape
    omega
  | case6 word rest d _ ih =>
    have hwords := ih h
    rw [unquoted_push] at hwords
    exact Nat.le_trans hwords (Nat.add_le_add_left (weight_le_cons _ _) _)
  | case7 word c rest hc q hq ih =>
    have hwords := ih h
    rw [unquoted_push] at hwords
    have hpush := unquoted_singleton_add_le hc rest
    omega
  | case8 word c rest hc hquote ih =>
    have hwords := ih h
    rw [unquoted_push] at hwords
    exact Nat.le_trans hwords (Nat.add_le_add_left (weight_le_cons _ _) _)
  | case9 word c rest hc hquote hblank ih =>
    obtain ⟨others, hothers, rfl⟩ := Option.map_eq_some_iff.mp h
    have hwords := ih hothers
    rw [List.map_append, List.sum_append, sum_unquoted_toList]
    have hle := weight_le_cons c rest
    have hnone : unquoted ((none : Option (List Char)).getD []) = 0 := rfl
    omega
  | case10 word c rest hc hquote hblank ih =>
    have hwords := ih h
    rw [unquoted_push] at hwords
    have hpush := unquoted_singleton_add_le hc rest
    omega

/-! ## Sequences -/

/-- Replace from the left what a rule replaces: it gives what stands for a text's beginning and
how many characters besides the first one that takes. -/
def rewrite (rule : List Char → Option (List Char × ℕ)) (text : List Char) : List Char :=
  match text with
  | [] => []
  | c :: rest =>
    match rule (c :: rest) with
    | some (out, more) => out ++ rewrite rule (rest.drop more)
    | none => c :: rewrite rule rest
termination_by text.length
decreasing_by
  all_goals
    simp only [List.length_cons, List.length_drop]
    omega

section

variable {rule : List Char → Option (List Char × ℕ)} {c : Char} {rest text : List Char}

@[simp]
theorem rewrite_nil : rewrite rule [] = [] := by rw [rewrite]

theorem rewrite_cons_of_none (h : rule (c :: rest) = none) :
    rewrite rule (c :: rest) = c :: rewrite rule rest := by
  rw [rewrite]
  split
  · rename_i hsome
    cases h.symm.trans hsome
  · rfl

theorem rewrite_cons_of_some {out : List Char} {more : ℕ} (h : rule (c :: rest) = some (out, more)) :
    rewrite rule (c :: rest) = out ++ rewrite rule (rest.drop more) := by
  rw [rewrite]
  split
  · rename_i hsome
    obtain ⟨rfl, rfl⟩ := Prod.mk.inj (Option.some.inj (h.symm.trans hsome))
    rfl
  · rename_i hnone
    cases h.symm.trans hnone

theorem rewrite_eq_self (h : ∀ c rest, c :: rest <:+ text → rule (c :: rest) = none) :
    rewrite rule text = text := by
  induction text with
  | nil => exact rewrite_nil
  | cons c text ih =>
    rw [rewrite_cons_of_none (h c text (List.suffix_refl _)),
      ih fun d rest hrest => h d rest (hrest.trans (List.suffix_cons c text))]

/-- A rule that keeps only characters of what it replaces, and not the first one. -/
def Shrinks (rule : List Char → Option (List Char × ℕ)) : Prop :=
  ∀ c rest out more, rule (c :: rest) = some (out, more) → out.Sublist (rest.take more)

theorem rewrite_sublist (h : Shrinks rule) : (rewrite rule text).Sublist text := by
  fun_induction rewrite rule text with
  | case1 => exact List.Sublist.refl _
  | case2 c rest out more hsome ih =>
    have hrest : (out ++ rewrite rule (rest.drop more)).Sublist (rest.take more ++ rest.drop more) :=
      (h c rest out more hsome).append ih
    rw [List.take_append_drop] at hrest
    exact hrest.cons c
  | case3 c rest _ ih => exact ih.cons_cons c

theorem rule_eq_none_of_rewrite_eq (h : Shrinks rule) (hsame : rewrite rule text = text)
    (hsuffix : c :: rest <:+ text) : rule (c :: rest) = none := by
  induction text with
  | nil => cases List.suffix_nil.mp hsuffix
  | cons d text ih =>
    cases hrule : rule (d :: text) with
    | none =>
      rw [rewrite_cons_of_none hrule] at hsame
      obtain heq | hrest := List.suffix_cons_iff.mp hsuffix
      · rw [heq]
        exact hrule
      · exact ih (List.cons.inj hsame).2 hrest
    | some replaced =>
      obtain ⟨out, more⟩ := replaced
      rw [rewrite_cons_of_some hrule] at hsame
      have hout := (h d text out more hrule).length_le
      have hbehind : (rewrite rule (text.drop more)).length ≤ (text.drop more).length :=
        (rewrite_sublist h).length_le
      have hlength := congrArg List.length hsame
      rw [List.length_append, List.length_cons] at hlength
      rw [List.length_take] at hout
      rw [List.length_drop] at hbehind
      omega

end

/-- What counts as a specifier and as the name of a variable. -/
structure Grammar where
  isSpecifier : Char → Bool
  isName : List Char → Bool
  notDollar : ∀ rest, isName ('$' :: rest) = false

/-- What is put in the place of specifiers and variables. -/
structure Values where
  specifier : Char → List Char
  value : List Char → List Char

variable (g : Grammar)

def specifierRule (specifier : Char → List Char) : List Char → Option (List Char × ℕ)
  | '%' :: c :: _ =>
    if c = '%' then some (['%'], 1)
    else if g.isSpecifier c then some (specifier c, 1)
    else none
  | _ => none

def variableRule (value : List Char → List Char) : List Char → Option (List Char × ℕ)
  | '$' :: '$' :: _ => some (['$'], 1)
  | '$' :: '{' :: rest =>
    let name := rest.takeWhile (· != '}')
    if '}' ∈ rest ∧ g.isName name then some (value name, name.length + 2) else none
  | _ => none

/-- A specifier, or two percent signs. -/
def beginsSpecifier : List Char → Bool
  | '%' :: c :: _ => c == '%' || g.isSpecifier c
  | _ => false

/-- A variable in braces, or two dollar signs. -/
def beginsVariable : List Char → Bool
  | '$' :: '$' :: _ => true
  | '$' :: '{' :: rest => rest.contains '}' && g.isName (rest.takeWhile (· != '}'))
  | _ => false

/-- The words of a value. -/
def wordsOf (value : List Char) : List (List Char) :=
  (value.splitOnP isBlank).filter fun word => !word.isEmpty

/-- The name where a word is one variable. -/
def wholeName : List Char → Option (List Char)
  | '$' :: name => if g.isName name then some name else none
  | _ => none

def expandWord (value : List Char → List Char) (word : List Char) : List (List Char) :=
  match wholeName g word with
  | some name => wordsOf (value name)
  | none => [rewrite (variableRule g value) word]

/-- The arguments of a line. -/
def readCommandLine (values : Values) (line : List Char) : Option (List (List Char)) :=
  (readWords none none line).map fun words =>
    (words.map (rewrite (specifierRule g values.specifier))).flatMap
      (expandWord g values.value)

variable {g}

theorem specifierRule_eq_none_iff {specifier : Char → List Char} {text : List Char} :
    specifierRule g specifier text = none ↔ beginsSpecifier g text = false := by
  rw [specifierRule.eq_def, beginsSpecifier.eq_def]
  split
  · rename_i c _
    split
    · simp [*]
    · split
      · simp [*]
      · simp [*]
  · simp

theorem variableRule_eq_none_iff {value : List Char → List Char} {text : List Char} :
    variableRule g value text = none ↔ beginsVariable g text = false := by
  rw [variableRule.eq_def, beginsVariable.eq_def]
  split
  · simp
  · simp
  · simp

theorem beginsSpecifier_of_ne {c : Char} {rest : List Char} (hc : c ≠ '%') :
    beginsSpecifier g (c :: rest) = false := by
  rw [beginsSpecifier.eq_def]
  split
  · rename_i heq
    exact absurd (List.cons.inj heq).1 hc
  · rfl

theorem beginsVariable_of_ne {c : Char} {rest : List Char} (hc : c ≠ '$') :
    beginsVariable g (c :: rest) = false := by
  rw [beginsVariable.eq_def]
  split
  · rename_i heq
    exact absurd (List.cons.inj heq).1 hc
  · rename_i heq
    exact absurd (List.cons.inj heq).1 hc
  · rfl

theorem wholeName_of_ne {c : Char} {rest : List Char} (hc : c ≠ '$') :
    wholeName g (c :: rest) = none := by
  rw [wholeName.eq_def]
  split
  · rename_i heq
    exact absurd (List.cons.inj heq).1 hc
  · rfl

/-- Where every specifier stands for nothing. -/
theorem specifierRule_shrinks : Shrinks (specifierRule g fun _ => []) := by
  intro c rest out more h
  rw [specifierRule.eq_def] at h
  split at h
  · rename_i d behind hcons
    obtain ⟨rfl, rfl⟩ := List.cons.inj hcons
    split at h
    · rename_i hpercent
      obtain ⟨rfl, rfl⟩ := Prod.mk.inj (Option.some.inj h)
      rw [hpercent]
      exact List.Sublist.refl _
    · split at h
      · obtain ⟨rfl, rfl⟩ := Prod.mk.inj (Option.some.inj h)
        exact List.nil_sublist _
      · cases h
  · cases h

theorem variableRule_shrinks : Shrinks (variableRule g fun _ => []) := by
  intro c rest out more h
  rw [variableRule.eq_def] at h
  split at h
  · rename_i behind hcons
    obtain ⟨rfl, rfl⟩ := List.cons.inj hcons
    obtain ⟨rfl, rfl⟩ := Prod.mk.inj (Option.some.inj h)
    exact List.Sublist.refl _
  · dsimp only at h
    split at h
    · obtain ⟨rfl, rfl⟩ := Prod.mk.inj (Option.some.inj h)
      exact List.nil_sublist _
    · cases h
  · cases h

/-- Where every variable is empty, an argument is the word or part of it. -/
theorem expandWord_sublist {word arg : List Char} (h : arg ∈ expandWord g (fun _ => []) word) :
    wholeName g word = none ∧ arg = rewrite (variableRule g fun _ => []) word := by
  rw [expandWord] at h
  split at h
  · cases h
  · rename_i hname
    exact ⟨hname, List.mem_singleton.mp h⟩

/-- A text that is read back as it is, whatever the specifiers and the variables are. -/
structure Plain (g : Grammar) (text : List Char) : Prop where
  noSpecifier : ∀ rest, rest <:+ text → beginsSpecifier g rest = false
  noVariable : ∀ rest, rest <:+ text → beginsVariable g rest = false
  noName : wholeName g text = none

theorem Plain.rewrite_specifiers {text : List Char} (h : Plain g text)
    (specifier : Char → List Char) : rewrite (specifierRule g specifier) text = text :=
  rewrite_eq_self fun _ _ hrest => specifierRule_eq_none_iff.mpr (h.noSpecifier _ hrest)

theorem Plain.expandWord {text : List Char} (h : Plain g text) (value : List Char → List Char) :
    expandWord g value text = [text] := by
  rw [Systemd.expandWord, h.noName]
  exact congrArg (fun word => [word])
    (rewrite_eq_self fun _ _ hrest => variableRule_eq_none_iff.mpr (h.noVariable _ hrest))

/-- The word that is read back where everything stands for nothing is plain. -/
theorem plain_of_expandWord {text : List Char}
    (h : expandWord g (fun _ => []) (rewrite (specifierRule g fun _ => []) text) = [text]) :
    Plain g text := by
  obtain ⟨hname, heq⟩ := expandWord_sublist (h ▸ List.mem_singleton_self text)
  have hsame : rewrite (specifierRule g fun _ => []) text = text := by
    refine (rewrite_sublist specifierRule_shrinks).antisymm ?_
    have hvariable : (rewrite (variableRule g fun _ => [])
        (rewrite (specifierRule g fun _ => []) text)).Sublist _ :=
      rewrite_sublist variableRule_shrinks
    rwa [← heq] at hvariable
  rw [hsame] at hname heq
  constructor
  case noSpecifier =>
    intro rest hrest
    cases rest with
    | nil => rfl
    | cons c rest =>
      exact specifierRule_eq_none_iff.mp (rule_eq_none_of_rewrite_eq specifierRule_shrinks hsame hrest)
  case noVariable =>
    intro rest hrest
    cases rest with
    | nil => rfl
    | cons c rest =>
      exact variableRule_eq_none_iff.mp
        (rule_eq_none_of_rewrite_eq variableRule_shrinks heq.symm hrest)
  case noName => exact hname

/-- A text without percent and dollar signs is plain. -/
theorem plain_of_notMem {word : List Char} (hpercent : '%' ∉ word)
    (hdollar : '$' ∉ word) : Plain g word := by
  constructor
  case noSpecifier =>
    intro rest hrest
    cases rest with
    | nil => rfl
    | cons c rest =>
      have hc : c ≠ '%' := fun heq => hpercent (heq ▸ hrest.subset (List.mem_cons_self ..))
      exact beginsSpecifier_of_ne hc
  case noVariable =>
    intro rest hrest
    cases rest with
    | nil => rfl
    | cons c rest =>
      have hc : c ≠ '$' := fun heq => hdollar (heq ▸ hrest.subset (List.mem_cons_self ..))
      exact beginsVariable_of_ne hc
  case noName =>
    cases word with
    | nil => rfl
    | cons c rest =>
      exact wholeName_of_ne fun heq => hdollar (heq ▸ List.mem_cons_self ..)

/-- Where everything stands for nothing, the arguments hold no more than the words. -/
theorem unquoted_arguments_le (words : List (List Char)) :
    (((words.map (rewrite (specifierRule g fun _ => []))).flatMap
      (expandWord g fun _ => [])).map unquoted).sum ≤ (words.map unquoted).sum := by
  induction words with
  | nil => exact Nat.le_refl _
  | cons word words ih =>
    rw [List.map_cons, List.flatMap_cons, List.map_append, List.sum_append, List.map_cons,
      List.sum_cons]
    refine Nat.add_le_add ?_ ih
    rw [expandWord]
    split
    · exact Nat.zero_le _
    · rw [List.map_singleton, List.sum_singleton]
      exact ((rewrite_sublist variableRule_shrinks).trans
        (rewrite_sublist specifierRule_shrinks)).countP_le

end Turbopaneld.Systemd
