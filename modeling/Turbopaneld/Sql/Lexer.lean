/-
# Reading SQL text

A server splits the text of a script into tokens before it knows any statement.  Two families of
servers are covered: names stand between double quotes or backquotes, a literal may or may not
know backslash escapes, and text between two equal dollar tags may or may not be one token.
What a generated script has no need of (comments, numbers with a point, literals with a letter
before them) is no text here: such a script has no tokens at all.

A text made of fixed code and quoted values reads as the code's own tokens with the given values
between them.  Code between dollar tags is one token as long as the tag does not occur in it.
-/

import Mathlib.Data.List.Infix
import Mathlib.Data.List.DropRight
import Turbopaneld.Sequences.Cut

namespace Turbopaneld.Sql

/-- The characters of words. -/
def isWordChar (c : Char) : Bool := c.isAlphanum || c == '_'

/-- The characters between tokens. -/
def isBlank (c : Char) : Bool := c == ' ' || c == '\n' || c == '\t' || c == '\r'

/-- The characters that are a token each. -/
def isSymbol (c : Char) : Bool :=
  c == '(' || c == ')' || c == ',' || c == ';' || c == '.' || c == '=' || c == '>' || c == '*' ||
    c == '@'

/-- What the two families of servers differ in. -/
structure Dialect where
  nameQuote : Char
  /-- The quote of names has no other meaning. -/
  nameQuote_spec : isWordChar nameQuote = false ∧ isBlank nameQuote = false ∧
    isSymbol nameQuote = false ∧ nameQuote ≠ '\''
  backslash : Bool
  dollar : Bool

/-- A token; the value of a quoted one is the text its quotes and escapes stand for. -/
inductive Token
  | word (text : String)
  | symbol (c : Char)
  | name (value : String)
  | literal (value : String)
  | dollar (tag body : String)
  deriving DecidableEq, Repr

/-- Where the reader stands; what it has gathered is kept backwards. -/
inductive State
  | code (word : List Char)
  | literal (value : List Char)
  | literalEscape (value : List Char)
  | literalQuote (value : List Char)
  | name (value : List Char)
  | nameQuote (value : List Char)
  | dollarTag (tag : List Char)
  | dollar (tag seen : List Char)
  deriving DecidableEq, Repr

/-- A gathered text. -/
def gathered (chars : List Char) : String := String.ofList chars.reverse

/-- The word that ends here, when there is one. -/
def flush (word : List Char) : List Token := if word.isEmpty then [] else [.word (gathered word)]

/-- What a backslash and a character stand for in a literal. -/
def unescape (c : Char) : List Char :=
  if c == 'n' then ['\n'] else if c == 't' then ['\t'] else if c == 'r' then ['\r']
  else if c == 'b' then ['\x08'] else if c == '0' then ['\x00'] else if c == 'Z' then ['\x1a']
  else if c == '%' || c == '_' then ['\\', c] else [c]

/-- The tag of a dollar quote, with its dollars. -/
def fence (tag : List Char) : List Char := '$' :: (tag ++ ['$'])

variable (d : Dialect)

/-- A character outside all quotes. -/
def stepCode (word : List Char) (c : Char) : Option (State × List Token) :=
  if isWordChar c then some (.code (c :: word), [])
  else if isBlank c then some (.code [], flush word)
  else if isSymbol c then some (.code [], flush word ++ [.symbol c])
  else if !word.isEmpty then none
  else if c == '\'' then some (.literal [], [])
  else if c == d.nameQuote then some (.name [], [])
  else if c == '$' && d.dollar then some (.dollarTag [], [])
  else none

/-- Tokens that come first. -/
def after (first : List Token) (p : State × List Token) : State × List Token :=
  (p.1, first ++ p.2)

/-- One character. -/
def step : State → Char → Option (State × List Token)
  | .code word, c => stepCode d word c
  | .literal value, c =>
    if c == '\'' then some (.literalQuote value, [])
    else if c == '\\' && d.backslash then some (.literalEscape value, [])
    else some (.literal (c :: value), [])
  | .literalEscape value, c => some (.literal ((unescape c).reverse ++ value), [])
  | .literalQuote value, c =>
    if c == '\'' then some (.literal (c :: value), [])
    else (stepCode d [] c).map (after [.literal (gathered value)])
  | .name value, c =>
    if c == d.nameQuote then some (.nameQuote value, []) else some (.name (c :: value), [])
  | .nameQuote value, c =>
    if c == d.nameQuote then some (.name (c :: value), [])
    else (stepCode d [] c).map (after [.name (gathered value)])
  | .dollarTag tag, c =>
    if c == '$' then some (.dollar tag.reverse [], [])
    else if isWordChar c && !(tag.isEmpty && c.isDigit) then some (.dollarTag (c :: tag), [])
    else none
  | .dollar tag seen, c =>
    if fence tag <:+ (c :: seen).reverse then
      some (.code [], [.dollar (String.ofList tag)
        (gathered ((c :: seen).drop (fence tag).length))])
    else some (.dollar tag (c :: seen), [])

/-- A run of characters. -/
def scan : State → List Char → Option (State × List Token)
  | s, [] => some (s, [])
  | s, c :: text => (step d s c).bind fun p => (scan p.1 text).map (after p.2)

/-- What is left when the text ends; it may not end inside quotes. -/
def finish : State → Option (List Token)
  | .code word => some (flush word)
  | .literalQuote value => some [.literal (gathered value)]
  | .nameQuote value => some [.name (gathered value)]
  | _ => none

/-- The tokens of a text. -/
def lex (text : String) : Option (List Token) :=
  (scan d (.code []) text.toList).bind fun p => (finish p.1).map (p.2 ++ ·)

/-- Two quotes for each quote of the text. -/
def doubled (quote : Char) (text : List Char) : List Char :=
  text.flatMap fun c => if c == quote then [quote, quote] else [c]

/-- A backslash before each backslash and single quote. -/
def escaped (text : List Char) : List Char :=
  text.flatMap fun c => if c == '\\' || c == '\'' then ['\\', c] else [c]

/-- What stands between the quotes of a literal. -/
def literalBody (value : String) : List Char :=
  if d.backslash then escaped value.toList else doubled '\'' value.toList

/-! ## Running on -/

variable {d}

@[simp]
theorem after_nil (p : State × List Token) : after [] p = p := rfl

theorem after_after (first next : List Token) (p : State × List Token) :
    after first (after next p) = after (first ++ next) p := by
  rw [after, after, after, List.append_assoc]

theorem scan_append {s s' : State} {front : List Char} {out : List Token}
    (h : scan d s front = some (s', out)) (back : List Char) :
    scan d s (front ++ back) = (scan d s' back).map (after out) := by
  induction front generalizing s out with
  | nil =>
    obtain ⟨rfl, rfl⟩ := Prod.mk.inj (Option.some.inj h)
    exact (Option.map_id' (x := scan d s back)).symm
  | cons c front ih =>
    rw [scan] at h
    obtain ⟨⟨next, first⟩, hstep, hrest⟩ := Option.bind_eq_some_iff.mp h
    obtain ⟨⟨last, rest⟩, hscan, hafter⟩ := Option.map_eq_some_iff.mp hrest
    obtain ⟨rfl, rfl⟩ := Prod.mk.inj hafter
    rw [List.cons_append, scan, hstep, Option.bind_some, ih hscan, Option.map_map]
    congr 1
    funext p
    exact after_after first rest p

/-- Two runs, the second from where the first one ends. -/
theorem scan_trans {s s' s'' : State} {front back : List Char} {first last : List Token}
    (hfront : scan d s front = some (s', first)) (hback : scan d s' back = some (s'', last)) :
    scan d s (front ++ back) = some (s'', first ++ last) := by
  rw [scan_append hfront, hback]
  rfl

theorem scan_single {s s' : State} {c : Char} {out : List Token}
    (h : step d s c = some (s', out)) : scan d s [c] = some (s', out) := by
  rw [scan, h, Option.bind_some, scan, Option.map_some, after, List.append_nil]

theorem scan_cons {s s' s'' : State} {c : Char} {text : List Char} {first last : List Token}
    (hstep : step d s c = some (s', first)) (htext : scan d s' text = some (s'', last)) :
    scan d s (c :: text) = some (s'', first ++ last) :=
  scan_trans (scan_single hstep) htext

/-! ## Inside quotes -/

theorem scan_doubled (hbackslash : d.backslash = false) (text value : List Char) :
    scan d (.literal value) (doubled '\'' text) = some (.literal (text.reverse ++ value), []) := by
  induction text generalizing value with
  | nil => rfl
  | cons c text ih =>
    have hone : scan d (.literal value) (if c == '\'' then ['\'', '\''] else [c]) =
        some (.literal (c :: value), []) := by
      by_cases hc : c = '\''
      · subst hc
        rfl
      · have hstep : step d (.literal value) c = some (.literal (c :: value), []) := by
          simp [step, hc, hbackslash]
        rw [if_neg (by simpa using hc)]
        exact scan_single hstep
    rw [doubled, List.flatMap_cons, List.reverse_cons, List.append_assoc]
    exact scan_trans hone (ih (c :: value))

theorem scan_escaped (hbackslash : d.backslash = true) (text value : List Char) :
    scan d (.literal value) (escaped text) = some (.literal (text.reverse ++ value), []) := by
  induction text generalizing value with
  | nil => rfl
  | cons c text ih =>
    have hone : scan d (.literal value) (if c == '\\' || c == '\'' then ['\\', c] else [c]) =
        some (.literal (c :: value), []) := by
      have hescape : step d (.literal value) '\\' = some (.literalEscape value, []) := by
        simp [step, hbackslash]
      by_cases hslash : c = '\\'
      · subst hslash
        exact scan_cons hescape rfl
      · by_cases hquote : c = '\''
        · subst hquote
          exact scan_cons hescape rfl
        · have hstep : step d (.literal value) c = some (.literal (c :: value), []) := by
            simp [step, hslash, hquote]
          rw [if_neg (by simp [hslash, hquote])]
          exact scan_single hstep
    rw [escaped, List.flatMap_cons, List.reverse_cons, List.append_assoc]
    exact scan_trans hone (ih (c :: value))

theorem scan_literalBody (value : String) (seen : List Char) :
    scan d (.literal seen) (literalBody d value) =
      some (.literal (value.toList.reverse ++ seen), []) := by
  unfold literalBody
  split
  · next hbackslash => exact scan_escaped hbackslash _ _
  · next hbackslash => exact scan_doubled (by simpa using hbackslash) _ _

theorem scan_doubledName (text value : List Char) :
    scan d (.name value) (doubled d.nameQuote text) =
      some (.name (text.reverse ++ value), []) := by
  induction text generalizing value with
  | nil => rfl
  | cons c text ih =>
    have hone : scan d (.name value)
        (if c == d.nameQuote then [d.nameQuote, d.nameQuote] else [c]) =
        some (.name (c :: value), []) := by
      by_cases hc : c = d.nameQuote
      · have hopen : step d (.name value) d.nameQuote = some (.nameQuote value, []) := by
          simp [step]
        have hagain : step d (.nameQuote value) d.nameQuote =
            some (.name (d.nameQuote :: value), []) := by simp [step]
        rw [if_pos (by simpa using hc), hc]
        exact scan_cons hopen (scan_single hagain)
      · have hstep : step d (.name value) c = some (.name (c :: value), []) := by simp [step, hc]
        rw [if_neg (by simpa using hc)]
        exact scan_single hstep
    rw [doubled, List.flatMap_cons, List.reverse_cons, List.append_assoc]
    exact scan_trans hone (ih (c :: value))

/-! ## Code with values in it -/

/-- What may stand after a run of code. -/
inductive Hole
  | nothing
  | name (value : String)
  | literal (value : String)

/-- Fixed code, the tokens it is meant to be, and the value after it. -/
structure Clause where
  code : String
  tokens : List Token
  hole : Hole

/-- A name between its quotes. -/
def quoteName (d : Dialect) (value : String) : String :=
  String.ofList (d.nameQuote :: (doubled d.nameQuote value.toList ++ [d.nameQuote]))

/-- A literal between its quotes. -/
def quoteLiteral (d : Dialect) (value : String) : String :=
  String.ofList ('\'' :: (literalBody d value ++ ['\'']))

/-- The text of a hole. -/
def Hole.render (d : Dialect) : Hole → String
  | .nothing => ""
  | .name value => quoteName d value
  | .literal value => quoteLiteral d value

/-- The token of a hole. -/
def Hole.tokens : Hole → List Token
  | .nothing => []
  | .name value => [.name value]
  | .literal value => [.literal value]

/-- The text of a clause. -/
def Clause.render (d : Dialect) (clause : Clause) : String := clause.code ++ clause.hole.render d

/-- The text of clauses. -/
def render (d : Dialect) : List Clause → String
  | [] => ""
  | clause :: clauses => clause.render d ++ render d clauses

/-- The tokens of a clause and of the value after it. -/
def Clause.reads (clause : Clause) : List Token := clause.tokens ++ clause.hole.tokens

/-- The text starts with a character other than a quote. -/
def startsPlain (d : Dialect) : List Char → Bool
  | [] => false
  | c :: _ => c != '\'' && c != d.nameQuote

/-- The text is the tokens it is meant to be, and it starts with no quote. -/
def isPlainText (d : Dialect) (text : List Char) (tokens : List Token) : Bool :=
  startsPlain d text && scan d (.code []) text == some (.code [], tokens)

/-- The code is the tokens it is meant to be. -/
def isPlain (d : Dialect) (code : String) (tokens : List Token) : Bool :=
  isPlainText d code.toList tokens

/-- The code of every clause is the tokens it is meant to be. -/
def Plain (d : Dialect) (clauses : List Clause) : Prop :=
  ∀ clause ∈ clauses, isPlain d clause.code clause.tokens = true

/-- The tokens a place outside quotes has in hand, when no word is begun there. -/
def settled : State → Option (List Token)
  | .code [] => some []
  | .literalQuote value => some [.literal (gathered value)]
  | .nameQuote value => some [.name (gathered value)]
  | _ => none

theorem finish_of_settled {s : State} {out : List Token} (h : settled s = some out) :
    finish s = some out := by
  cases s with
  | code word => cases word <;> simp_all [settled, finish, flush]
  | _ => simp_all [settled, finish]

theorem step_of_settled {s : State} {out : List Token} {c : Char} (h : settled s = some out)
    (hliteral : c ≠ '\'') (hname : c ≠ d.nameQuote) :
    step d s c = (step d (.code []) c).map (after out) := by
  cases s with
  | code word =>
    cases word with
    | nil =>
      cases h
      exact (Option.map_id' (x := step d (.code []) c)).symm
    | cons _ _ => cases h
  | literalQuote value =>
    cases h
    simp [step, hliteral]
  | nameQuote value =>
    cases h
    simp [step, hname]
  | _ => cases h

theorem scan_of_settled {s : State} {out : List Token} {c : Char} {text : List Char}
    (h : settled s = some out) (hliteral : c ≠ '\'') (hname : c ≠ d.nameQuote) :
    scan d s (c :: text) = (scan d (.code []) (c :: text)).map (after out) := by
  rw [scan, scan, step_of_settled h hliteral hname]
  cases step d (.code []) c with
  | none => rfl
  | some p =>
    rw [Option.map_some, Option.bind_some, Option.bind_some, Option.map_map]
    congr 1
    funext q
    exact (after_after out p.2 q).symm

theorem step_quote : step d (.code []) '\'' = some (.literal [], []) := by
  simp [step, stepCode, isWordChar, isBlank, isSymbol]

theorem step_nameQuote : step d (.code []) d.nameQuote = some (.name [], []) := by
  obtain ⟨hword, hblank, hsymbol, hquote⟩ := d.nameQuote_spec
  simp [step, stepCode, hword, hblank, hsymbol, hquote]

theorem scan_hole (hole : Hole) :
    ∃ s, settled s = some hole.tokens ∧
      scan d (.code []) (hole.render d).toList = some (s, []) := by
  cases hole with
  | nothing => exact ⟨.code [], rfl, rfl⟩
  | name value =>
    have hclose : step d (.name (value.toList.reverse ++ [])) d.nameQuote =
        some (.nameQuote (value.toList.reverse ++ []), []) := by simp [step]
    refine ⟨.nameQuote (value.toList.reverse ++ []), ?_, ?_⟩
    · simp [settled, gathered, Hole.tokens]
    · rw [Hole.render, quoteName, String.toList_ofList]
      exact scan_cons step_nameQuote (scan_trans (scan_doubledName _ _) (scan_single hclose))
  | literal value =>
    have hclose : step d (.literal (value.toList.reverse ++ [])) '\'' =
        some (.literalQuote (value.toList.reverse ++ []), []) := by simp [step]
    refine ⟨.literalQuote (value.toList.reverse ++ []), ?_, ?_⟩
    · simp [settled, gathered, Hole.tokens]
    · rw [Hole.render, quoteLiteral, String.toList_ofList]
      exact scan_cons step_quote (scan_trans (scan_literalBody _ _) (scan_single hclose))

theorem scan_plain {s : State} {out tokens : List Token} {code : String} (hs : settled s = some out)
    (hplain : isPlain d code tokens = true) :
    scan d s code.toList = some (.code [], out ++ tokens) := by
  rw [isPlain, isPlainText, Bool.and_eq_true, beq_iff_eq] at hplain
  obtain ⟨hhead, hscan⟩ := hplain
  cases hchars : code.toList with
  | nil =>
    rw [hchars] at hhead
    cases hhead
  | cons c text =>
    rw [hchars] at hhead hscan
    rw [startsPlain, Bool.and_eq_true, bne_iff_ne, bne_iff_ne] at hhead
    rw [scan_of_settled hs hhead.1 hhead.2, hscan]
    rfl

theorem scan_clause {s : State} {out : List Token} {clause : Clause} (hs : settled s = some out)
    (hplain : isPlain d clause.code clause.tokens = true) :
    ∃ s' rest, settled s' = some rest ∧ ∃ out', scan d s (clause.render d).toList =
      some (s', out') ∧
      out' ++ rest = out ++ clause.reads := by
  obtain ⟨s', hs', hhole⟩ := scan_hole (d := d) clause.hole
  have hboth := scan_trans (scan_plain hs hplain) hhole
  rw [← String.toList_append] at hboth
  refine ⟨s', _, hs', _, hboth, ?_⟩
  rw [List.append_nil, List.append_assoc, Clause.reads]

theorem scan_render {clauses : List Clause} (hplain : Plain d clauses) {s : State}
    {out : List Token} (hs : settled s = some out) :
    ∃ s' rest, settled s' = some rest ∧
      ∃ out', scan d s (render d clauses).toList = some (s', out') ∧
        out' ++ rest = out ++ clauses.flatMap Clause.reads := by
  induction clauses generalizing s out with
  | nil => exact ⟨s, out, hs, [], rfl, by simp⟩
  | cons clause clauses ih =>
    obtain ⟨hfirst, hrest⟩ := List.forall_mem_cons.mp hplain
    obtain ⟨mid, ready, hmid, first, hscan, hout⟩ := scan_clause hs hfirst
    obtain ⟨last, left, hlast, second, hscans, houts⟩ := ih hrest hmid
    refine ⟨last, left, hlast, first ++ second, ?_, ?_⟩
    · rw [render, String.toList_append]
      exact scan_trans hscan hscans
    · rw [List.append_assoc, houts, ← List.append_assoc, hout, List.flatMap_cons, List.append_assoc]

/-- The text of clauses reads as the tokens they are meant to be, each value as itself. -/
theorem lex_render {clauses : List Clause} (hplain : Plain d clauses) :
    lex d (render d clauses) = some (clauses.flatMap Clause.reads) := by
  have hstart : settled (.code []) = some [] := rfl
  obtain ⟨s, rest, hs, out, hscan, hout⟩ := scan_render hplain hstart
  rw [lex, hscan, Option.bind_some, finish_of_settled hs, Option.map_some, hout, List.nil_append]

theorem render_append (d : Dialect) (front back : List Clause) :
    render d (front ++ back) = render d front ++ render d back := by
  induction front with
  | nil => simp [render]
  | cons clause front ih => rw [List.cons_append, render, ih, render, String.append_assoc]

/-! ## Fixed code, read character by character -/

/-- The characters of a literal of the program. -/
theorem toList_of_chars {code : String} {chars : List Char} (h : String.ofList chars = code) :
    code.toList = chars := by
  rw [← h, String.toList_ofList]

theorem toList_of_append {first second : String} {front back : List Char}
    (hfirst : first.toList = front) (hsecond : second.toList = back) :
    (first ++ second).toList = front ++ back := by
  rw [String.toList_append, hfirst, hsecond]

theorem isPlainText_append {front back : List Char} {first last : List Token}
    (hfront : isPlainText d front first = true)
    (hback : scan d (.code []) back = some (.code [], last)) :
    isPlainText d (front ++ back) (first ++ last) = true := by
  rw [isPlainText, Bool.and_eq_true, beq_iff_eq] at hfront ⊢
  obtain ⟨hhead, hscan⟩ := hfront
  constructor
  · cases front with
    | nil => cases hhead
    | cons c front => exact hhead
  · exact scan_trans hscan hback

theorem scan_of_isPlainText {text : List Char} {tokens : List Token}
    (h : isPlainText d text tokens = true) :
    scan d (.code []) text = some (.code [], tokens) := by
  rw [isPlainText, Bool.and_eq_true, beq_iff_eq] at h
  exact h.2

/-- The characters of a word are gathered. -/
theorem scan_word {text word : List Char} (h : ∀ c ∈ text, isWordChar c = true) :
    scan d (.code word) text = some (.code (text.reverse ++ word), []) := by
  induction text generalizing word with
  | nil => rfl
  | cons c text ih =>
    obtain ⟨hc, htext⟩ := List.forall_mem_cons.mp h
    have hstep : step d (.code word) c = some (.code (c :: word), []) := by
      simp [step, stepCode, hc]
    rw [List.reverse_cons, List.append_assoc]
    exact scan_cons hstep (ih htext)

/-- A blank ends a word. -/
theorem scan_blank {c : Char} (hc : isWordChar c = false ∧ isBlank c = true)
    (word text : List Char) :
    scan d (.code word) (c :: text) = (scan d (.code []) text).map (after (flush word)) := by
  have hstep : step d (.code word) c = some (.code [], flush word) := by
    simp [step, stepCode, hc]
  rw [scan, hstep, Option.bind_some]

/-- A symbol ends a word. -/
theorem scan_symbol {c : Char} (hc : isWordChar c = false ∧ isBlank c = false ∧ isSymbol c = true)
    (word text : List Char) :
    scan d (.code word) (c :: text) =
      (scan d (.code []) text).map (after (flush word ++ [.symbol c])) := by
  have hstep : step d (.code word) c = some (.code [], flush word ++ [.symbol c]) := by
    simp [step, stepCode, hc]
  rw [scan, hstep, Option.bind_some]

theorem Plain.nil : Plain d [] := List.forall_mem_nil _

theorem Plain.cons {code : String} {tokens : List Token} {hole : Hole} {clauses : List Clause}
    {chars : List Char} (hchars : code.toList = chars) (hplain : isPlainText d chars tokens = true)
    (hrest : Plain d clauses) : Plain d (⟨code, tokens, hole⟩ :: clauses) := by
  rw [Plain, List.forall_mem_cons]
  rw [← hchars] at hplain
  exact ⟨hplain, hrest⟩

theorem Plain.append {front back : List Clause} (hfront : Plain d front) (hback : Plain d back) :
    Plain d (front ++ back) := by
  intro clause hclause
  exact (List.mem_append.mp hclause).elim (hfront clause) (hback clause)

/-! ## Code between dollar tags -/

/-- As long as the tag has not occurred, the text is gathered. -/
theorem scan_dollar_inside {tag seen text : List Char}
    (habsent : ¬ fence tag <:+: seen.reverse ++ text) :
    scan d (.dollar tag seen) text = some (.dollar tag (text.reverse ++ seen), []) := by
  induction text generalizing seen with
  | nil => rfl
  | cons c text ih =>
    have hnext : ¬ fence tag <:+: (c :: seen).reverse ++ text := by
      rwa [List.reverse_cons, List.append_assoc, List.singleton_append]
    have hstay : ¬ fence tag <:+ (c :: seen).reverse := by
      intro hsuffix
      exact hnext (hsuffix.isInfix.trans (List.prefix_append _ _).isInfix)
    have hstep : step d (.dollar tag seen) c = some (.dollar tag (c :: seen), []) := by
      rw [step, if_neg hstay]
    rw [List.reverse_cons, List.append_assoc]
    exact scan_cons hstep (ih hnext)

/-- The first occurrence of the tag ends the text between the tags. -/
theorem scan_dollar {tag body : List Char} (hbody : ¬ fence tag <:+: body ++ '$' :: tag) :
    scan d (.dollar tag []) (body ++ fence tag) =
      some (.code [], [.dollar (String.ofList tag) (String.ofList body)]) := by
  have hinside := @scan_dollar_inside d tag [] _ hbody
  have hreverse : ('$' :: ((body ++ '$' :: tag).reverse ++ [])).reverse = body ++ fence tag := by
    simp [fence]
  have hclose : step d (.dollar tag ((body ++ '$' :: tag).reverse ++ [])) '$' =
      some (.code [], [.dollar (String.ofList tag) (String.ofList body)]) := by
    rw [step, hreverse, if_pos (List.suffix_append _ _)]
    have hdrop : ('$' :: ((body ++ '$' :: tag).reverse ++ [])).drop (fence tag).length =
        body.reverse := by
      rw [← List.reverse_reverse ('$' :: _), hreverse, List.reverse_append,
        ← @List.length_reverse _ (fence tag), List.drop_left]
    rw [hdrop, gathered, List.reverse_reverse]
  have hsplit : body ++ fence tag = (body ++ '$' :: tag) ++ ['$'] := by simp [fence]
  rw [hsplit]
  exact scan_trans hinside (scan_single hclose)

/-! ## Where a tag can occur -/

theorem doubled_append (quote : Char) (front back : List Char) :
    doubled quote (front ++ back) = doubled quote front ++ doubled quote back :=
  List.flatMap_append

theorem doubled_of_notMem {quote : Char} {text : List Char} (h : quote ∉ text) :
    doubled quote text = text := by
  have hsame : doubled quote text = text.flatMap fun x => [x] := by
    apply List.flatMap_congr
    intro x hx
    rw [if_neg]
    rw [beq_iff_eq]
    exact fun heq => h (heq ▸ hx)
  rw [hsame, List.flatMap_singleton']

theorem prefix_doubled_iff {quote : Char} {needle text : List Char} (hneedle : quote ∉ needle) :
    needle <+: doubled quote text ↔ needle <+: text := by
  induction text generalizing needle with
  | nil => rfl
  | cons c text ih =>
    cases needle with
    | nil => simp
    | cons n needle =>
      rw [List.mem_cons, not_or] at hneedle
      by_cases hc : c = quote
      · have hne : n ≠ c := fun heq => hneedle.1 (hc ▸ heq.symm)
        simp [doubled, hc, List.cons_prefix_cons, hc ▸ hne]
      · have hone : doubled quote (c :: text) = c :: doubled quote text := by simp [doubled, hc]
        rw [hone, List.cons_prefix_cons, List.cons_prefix_cons, ih hneedle.2]

theorem infix_doubled_iff {quote : Char} {needle text : List Char} (hneedle : quote ∉ needle) :
    needle <:+: doubled quote text ↔ needle <:+: text := by
  induction text with
  | nil => rfl
  | cons c text ih =>
    by_cases hc : c = quote
    · have htwo : doubled quote (c :: text) = 
          [] ++ quote :: ([] ++ quote :: doubled quote text) := by
        simp [doubled, hc]
      have hone : c :: text = [] ++ quote :: text := by rw [hc, List.nil_append]
      rw [htwo, hone, Sequences.infix_append_cons_iff hneedle,
        Sequences.infix_append_cons_iff hneedle, Sequences.infix_append_cons_iff hneedle, ih]
      tauto
    · have hone : doubled quote (c :: text) = c :: doubled quote text := by simp [doubled, hc]
      have hprefix := @prefix_doubled_iff _ _ (c :: text) hneedle
      rw [hone] at hprefix
      rw [hone, List.infix_cons_iff, List.infix_cons_iff, hprefix, ih]

end Turbopaneld.Sql
