/-
# How systemd reads an environment file

The reader goes over the characters once and keeps the quotes it is in.  An empty line or
one that starts with `#` or `;` says nothing; any other line is a name, `=` and a value.
Single quotes keep what is in them; in double quotes a backslash escapes `"`, a backslash,
a backtick and `$` only.  Quotes go on over a line feed.
-/

import Mathlib.Data.List.Basic

namespace Turbopaneld.Shell.EnvironmentFile

/-- An assignment: a name and a value. -/
abbrev Assignment := List Char × List Char

/-- Where the reader is. -/
inductive Mode
  | start
  | comment
  | commentEscape
  | name
  | beforeValue
  | value
  | valueEscape
  | single
  | double
  | doubleEscape
deriving DecidableEq, Repr

/-- The reader.  The last run of blanks of a name or of a bare value is cut off when its
line ends. -/
structure Reader where
  mode : Mode
  name : List Char
  nameBlanks : Option ℕ
  value : List Char
  valueBlanks : Option ℕ
  read : List Assignment
deriving DecidableEq, Repr

/-- Nothing of an assignment was read yet. -/
def Reader.fresh (read : List Assignment) : Reader := ⟨.start, [], none, [], none, read⟩

def isBlank (c : Char) : Bool := c == ' ' || c == '\t' || c == '\n' || c == '\r'

def isLineEnd (c : Char) : Bool := c == '\n' || c == '\r'

/-- What a backslash escapes in double quotes. -/
def isEscaped (c : Char) : Bool := c == '"' || c == '\\' || c == '`' || c == '$'

/-- The text up to a cut. -/
def upTo (cut : Option ℕ) (text : List Char) : List Char :=
  match cut with
  | none => text
  | some length => text.take length

/-- The assignment of the line that ends. -/
def Reader.assignment (r : Reader) : Assignment :=
  (upTo r.nameBlanks r.name, if r.mode = .value then upTo r.valueBlanks r.value else r.value)

def Reader.push (r : Reader) : Reader := .fresh (r.read ++ [r.assignment])

/-- Where the last run of blanks begins after another character. -/
def blanksAfter (blanks : Option ℕ) (text : List Char) (c : Char) : Option ℕ :=
  if isBlank c then some (blanks.getD text.length) else none

def Reader.step (r : Reader) (c : Char) : Reader :=
  match r.mode with
  | .start =>
    if c == '#' || c == ';' then { r with mode := .comment }
    else if isBlank c then r
    else { r with mode := .name, name := [c], nameBlanks := none }
  | .comment =>
    if c == '\\' then { r with mode := .commentEscape }
    else if isLineEnd c then { r with mode := .start }
    else r
  | .commentEscape => { r with mode := if isLineEnd c then .start else .comment }
  | .name =>
    if isLineEnd c then .fresh r.read
    else if c == '=' then { r with mode := .beforeValue, value := [], valueBlanks := none }
    else { r with name := r.name ++ [c], nameBlanks := blanksAfter r.nameBlanks r.name c }
  | .beforeValue =>
    if isLineEnd c then r.push
    else if c == '\'' then { r with mode := .single }
    else if c == '"' then { r with mode := .double }
    else if c == '\\' then { r with mode := .valueEscape }
    else if isBlank c then r
    else { r with mode := .value, value := r.value ++ [c] }
  | .value =>
    if isLineEnd c then r.push
    else if c == '\\' then { r with mode := .valueEscape, valueBlanks := none }
    else { r with value := r.value ++ [c], valueBlanks := blanksAfter r.valueBlanks r.value c }
  | .valueEscape =>
    { r with mode := .value, value := if isLineEnd c then r.value else r.value ++ [c] }
  | .single =>
    if c == '\'' then { r with mode := .beforeValue } else { r with value := r.value ++ [c] }
  | .double =>
    if c == '"' then { r with mode := .beforeValue }
    else if c == '\\' then { r with mode := .doubleEscape }
    else { r with value := r.value ++ [c] }
  | .doubleEscape =>
    if isEscaped c then { r with mode := .double, value := r.value ++ [c] }
    else if c == '\n' then { r with mode := .double }
    else { r with mode := .double, value := r.value ++ ['\\', c] }

/-- At the end of the file a line that got to its value is an assignment. -/
def Reader.finish (r : Reader) : List Assignment :=
  match r.mode with
  | .start | .comment | .commentEscape | .name => r.read
  | _ => r.push.read

def run (r : Reader) (text : List Char) : Reader := text.foldl Reader.step r

/-- The assignments of a file, in order. -/
def assignments (text : List Char) : List Assignment := (run (.fresh []) text).finish

/-! ## Runs -/

@[simp] theorem run_nil (r : Reader) : run r [] = r := rfl

@[simp] theorem run_cons (r : Reader) (c : Char) (rest : List Char) :
    run r (c :: rest) = run (r.step c) rest := rfl

@[simp] theorem run_append (r : Reader) (front back : List Char) :
    run r (front ++ back) = run (run r front) back := List.foldl_append

/-- A comment goes on to the end of its line. -/
theorem run_comment {r : Reader} {line : List Char} (hline : ∀ c ∈ line, isLineEnd c = false)
    (hmode : r.mode = .comment ∨ r.mode = .commentEscape) :
    ∃ mode, (mode = .comment ∨ mode = .commentEscape) ∧ run r line = { r with mode := mode } := by
  induction line generalizing r with
  | nil => exact ⟨r.mode, hmode, rfl⟩
  | cons c rest ih =>
    obtain ⟨hc, hrest⟩ := List.forall_mem_cons.mp hline
    have hnext : ∃ mode, (mode = .comment ∨ mode = .commentEscape) ∧
        r.step c = { r with mode := mode } := by
      obtain hmode | hmode := hmode
      · simp only [Reader.step, hmode, hc, Bool.false_eq_true, if_false]
        split_ifs
        · exact ⟨.commentEscape, .inr rfl, rfl⟩
        · exact ⟨.comment, .inl rfl, by rw [← hmode]⟩
      · simp only [Reader.step, hmode, hc, Bool.false_eq_true, if_false]
        exact ⟨.comment, .inl rfl, rfl⟩
    obtain ⟨mode, hmode, hstep⟩ := hnext
    rw [run_cons, hstep]
    exact ih hrest hmode

/-- The characters of a name are taken as they are. -/
theorem run_name {r : Reader} (hmode : r.mode = .name) (hblanks : r.nameBlanks = none)
    {text : List Char} (htext : ∀ c ∈ text, isBlank c = false ∧ c ≠ '=') :
    run r text = { r with name := r.name ++ text } := by
  induction text generalizing r with
  | nil =>
    rw [run_nil, List.append_nil]
  | cons c rest ih =>
    obtain ⟨⟨hblank, hequals⟩, hrest⟩ := List.forall_mem_cons.mp htext
    have hend : isLineEnd c = false := by
      simp only [isBlank, isLineEnd, Bool.or_eq_false_iff] at hblank ⊢
      exact ⟨hblank.1.2, hblank.2⟩
    have hstep : r.step c = { r with name := r.name ++ [c] } := by
      simp only [Reader.step, hmode, hend, Bool.false_eq_true, if_false, beq_iff_eq, hequals,
        blanksAfter, hblank]
      rw [← hblanks]
    rw [run_cons, hstep]
    refine (ih (r := { r with name := r.name ++ [c] }) hmode hblanks hrest).trans ?_
    simp only [List.append_assoc, List.singleton_append]

/-- Single quotes keep what is in them. -/
theorem run_single {r : Reader} (hmode : r.mode = .single) {text : List Char}
    (htext : '\'' ∉ text) : run r text = { r with value := r.value ++ text } := by
  induction text generalizing r with
  | nil => rw [run_nil, List.append_nil]
  | cons c rest ih =>
    rw [List.mem_cons, not_or] at htext
    have hstep : r.step c = { r with value := r.value ++ [c] } := by
      simp only [Reader.step, hmode, beq_iff_eq, Ne.symm htext.1, if_false]
    rw [run_cons, hstep]
    refine (ih (r := { r with value := r.value ++ [c] }) hmode htext.2).trans ?_
    simp only [List.append_assoc, List.singleton_append]

/-! ## Double quotes -/

/-- A text between double quotes and what is read from it. -/
inductive Escaped : List Char → List Char → Prop
  | nil : Escaped [] []
  | plain {c : Char} {raw value : List Char} : c ≠ '"' → c ≠ '\\' → Escaped raw value →
      Escaped (c :: raw) (c :: value)
  | escape {c : Char} {raw value : List Char} : isEscaped c = true → Escaped raw value →
      Escaped ('\\' :: c :: raw) (c :: value)

/-- Double quotes keep what is in them but for the backslashes of escapes. -/
theorem run_double {r : Reader} (hmode : r.mode = .double) {raw value : List Char}
    (h : Escaped raw value) : run r raw = { r with value := r.value ++ value } := by
  induction h generalizing r with
  | nil => rw [run_nil, List.append_nil]
  | @plain c raw value hquote hslash _ ih =>
    have hstep : r.step c = { r with value := r.value ++ [c] } := by
      simp only [Reader.step, hmode, beq_iff_eq, hquote, hslash, if_false]
    rw [run_cons, hstep]
    refine (ih (r := { r with value := r.value ++ [c] }) hmode).trans ?_
    simp only [List.append_assoc, List.singleton_append]
  | @escape c raw value hescaped _ ih =>
    have hstep : (r.step '\\').step c = { r with value := r.value ++ [c] } := by
      have hslash : r.step '\\' = { r with mode := .doubleEscape } := by
        simp [Reader.step, hmode]
      rw [hslash]
      simp only [Reader.step, hescaped, if_true]
      rw [← hmode]
    rw [run_cons, run_cons, hstep]
    refine (ih (r := { r with value := r.value ++ [c] }) hmode).trans ?_
    simp only [List.append_assoc, List.singleton_append]

end Turbopaneld.Shell.EnvironmentFile
