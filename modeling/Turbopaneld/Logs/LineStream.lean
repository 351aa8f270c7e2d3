/-
# Lines of a stream

A process' output arrives in chunks that are cut anywhere.  Its reader hands complete lines on
as they arrive, cuts lines that grow too long, and keeps the text or its end.  What it hands on
is compared with the lines of the whole text.
-/

import Turbopaneld.JavaScript.Text

namespace Turbopaneld.Logs

open JavaScript

/-! ## The reader -/

/-- A string of the source's language: its code units. -/
abbrev Units := List UInt16

def newline : UInt16 := 10

def carriageReturn : UInt16 := 13

/-- `line.endsWith("\r")`. -/
def endsInReturn (line : Units) : Bool := line.getLast? == some carriageReturn

/-- `stripCarriageReturn`. -/
def stripCarriageReturn (line : Units) : Units := if endsInReturn line then line.dropLast else line

/-- `text.trim().length === 0`. -/
def isBlank (text : Units) : Bool := text.all fun unit => isSpace (Char.ofNat unit.toNat)

/-- `text.slice(-count)`, which is the whole text for `-0`. -/
def sliceLast (count : ℕ) (text : Units) : Units :=
  if count = 0 then text else text.drop (text.length - count)

/-- `PumpLimits`; `onLimit` is the flag of the result. -/
structure PumpLimits where
  tailChars : Option ℕ := none
  maxLineChars : Option ℕ := none
  maxTotalChars : Option ℕ := none

/-- The lines `emit` hands to `onLine`: one, or none. -/
def emit (raw : Units) : List Units :=
  let line := stripCarriageReturn raw
  if line.length > 0 then [line] else []

/-- The loop of `splitLongPending`: the pieces it emits and what stays pending.  A bound of
zero is never reached, and the loop does not end. -/
def longPieces (max : ℕ) (pending : Units) : Option (List Units × Units) :=
  if pending.length ≤ max then some ([], pending)
  else if max = 0 then none
  else (longPieces max (pending.drop max)).map fun (pieces, rest) =>
    (pending.take max :: pieces, rest)
termination_by pending.length
decreasing_by
  rw [List.length_drop]
  omega

/-- `splitLongPending`. -/
def splitLongPending (maxLineChars : Option ℕ) (pending : Units) : Option (List Units × Units) :=
  match maxLineChars with
  | none => some ([], pending)
  | some max => longPieces max pending

/-- `LineSplitter.push`: the lines handed on, and what stays pending.  The loop cuts the value
at its newlines; the first piece goes behind what was pending. -/
def splitterPush (maxLineChars : Option ℕ) (pending value : Units) :
    Option (List Units × Units) :=
  let cut := (value.splitOn newline).modifyHead (pending ++ ·)
  (splitLongPending maxLineChars (cut.getLastD [])).map fun (pieces, rest) =>
    (cut.dropLast.flatMap emit ++ pieces.flatMap emit, rest)

/-- `LineSplitter.finish`. -/
def splitterFinish (pending : Units) : List Units := if isBlank pending then [] else emit pending

/-- `TextKeeper`. -/
structure TextKeeper where
  parts : List Units := []
  chars : ℕ := 0

def TextKeeper.push (keeper : TextKeeper) (tailChars : Option ℕ) (value : Units) : TextKeeper :=
  let parts := keeper.parts ++ [value]
  let chars := keeper.chars + value.length
  match tailChars with
  | none => ⟨parts, chars⟩
  | some tail =>
    if chars > tail * 2 then
      let joined := sliceLast tail parts.flatten
      ⟨[joined], joined.length⟩
    else ⟨parts, chars⟩

def TextKeeper.text (keeper : TextKeeper) (tailChars : Option ℕ) : Units :=
  match tailChars with
  | none => keeper.parts.flatten
  | some tail => sliceLast tail keeper.parts.flatten

/-- What the loop of `pumpLines` holds between two reads. -/
structure Pump where
  keeper : TextKeeper := {}
  pending : Units := []
  /-- What `onLine` was called with. -/
  lines : List Units := []
  total : ℕ := 0
  limitHit : Bool := false

/-- One read of the loop. -/
def Pump.read (limits : PumpLimits) (p : Pump) (value : Units) : Option Pump :=
  if value = [] ∨ p.limitHit then some p
  else
    let total := p.total + value.length
    if limits.maxTotalChars.any (total > ·) then some { p with total, limitHit := true }
    else (splitterPush limits.maxLineChars p.pending value).map fun (lines, pending) =>
      { p with keeper := p.keeper.push limits.tailChars value, pending,
               lines := p.lines ++ lines, total }

/-- The lines handed on, the text returned, and whether `onLimit` was called. -/
structure Pumped where
  lines : List Units
  text : Units
  limitHit : Bool

/-- `pumpLines` of the decoded chunks; `none` where it does not return. -/
def pumpLines (limits : PumpLimits) (chunks : List Units) : Option Pumped := do
  let p ← chunks.foldlM (Pump.read limits) {}
  return ⟨p.lines ++ splitterFinish p.pending, p.keeper.text limits.tailChars, p.limitHit⟩

/-! ## Lines of a text -/

/-- The lines a newline ends, and what stands behind the last newline. -/
def terminated (text : Units) : List Units := (text.splitOn newline).dropLast

def remainder (text : Units) : Units := (text.splitOn newline).getLastD []

/-- The lines of a text: one trailing carriage return removed, the empty ones left out, and
what stands behind the last newline left out where it is white space. -/
def textLines (text : Units) : List Units :=
  ((terminated text).map stripCarriageReturn ++
    if isBlank (remainder text) then [] else [stripCarriageReturn (remainder text)]).filter
      (· ≠ [])

/-! ## Cutting a text at its newlines -/

theorem splitOn_append (front back : Units) :
    (front ++ back).splitOn newline = terminated front ++
      (back.splitOn newline).modifyHead (remainder front ++ ·) := by
  induction front with
  | nil =>
    have hnil : (([] : Units) ++ · : Units → Units) = id := funext fun _ => rfl
    rw [terminated, remainder, List.splitOn_nil]
    change back.splitOn newline = (back.splitOn newline).modifyHead ([] ++ ·)
    rw [hnil, List.modifyHead_id]
    rfl
  | cons unit front ih =>
    obtain ⟨first, rest, hfront⟩ :=
      List.exists_cons_of_ne_nil (List.splitOn_ne_nil newline front)
    obtain ⟨head, others, hback⟩ :=
      List.exists_cons_of_ne_nil (List.splitOn_ne_nil newline back)
    rw [terminated, remainder, hfront, hback] at ih
    rw [List.cons_append, List.splitOn_cons_eq_if_modifyHead, ih, terminated, remainder,
      List.splitOn_cons_eq_if_modifyHead, hfront, hback]
    cases hunit : unit == newline <;> cases rest <;> simp

theorem splitOn_eq (text : Units) :
    text.splitOn newline = terminated text ++ [remainder text] := by
  have hsplit := splitOn_append text []
  rw [List.append_nil, List.splitOn_nil, List.modifyHead_cons, List.append_nil] at hsplit
  exact hsplit

theorem terminated_append_newline (front back : Units) :
    terminated (front ++ newline :: back) = terminated front ++ remainder front :: terminated back ∧
      remainder (front ++ newline :: back) = remainder back := by
  have hsplit := List.splitOn_append_cons_self (a := newline) front back
  rw [splitOn_eq, splitOn_eq front, splitOn_eq back, ← List.append_assoc] at hsplit
  obtain ⟨hterminated, hremainder⟩ := List.append_inj' hsplit rfl
  refine ⟨?_, List.singleton_inj.mp hremainder⟩
  rw [hterminated, List.append_assoc]
  rfl

/-- A text without a newline behind `front` only makes its last line longer. -/
theorem splitOn_cases (front back : Units) :
    (back.splitOn newline = [back] ∧ terminated (front ++ back) = terminated front ∧
        remainder (front ++ back) = remainder front ++ back) ∨
      ∃ first others last, back.splitOn newline = first :: (others ++ [last]) ∧
        terminated (front ++ back) = terminated front ++ (remainder front ++ first) :: others ∧
        remainder (front ++ back) = last := by
  have hsplit := splitOn_append front back
  rw [splitOn_eq (front ++ back)] at hsplit
  by_cases hback : newline ∈ back
  · obtain ⟨before, after, hparts⟩ := List.append_of_mem hback
    right
    have hne : (back.splitOn newline).dropLast ≠ [] := by
      rw [hparts, List.splitOn_append_cons_self]
      intro hnil
      have hlength := congrArg List.length hnil
      have hbefore := List.length_pos_of_ne_nil (List.splitOn_ne_nil newline before)
      have hafter := List.length_pos_of_ne_nil (List.splitOn_ne_nil newline after)
      rw [List.length_dropLast, List.length_append, List.length_nil] at hlength
      omega
    obtain ⟨first, others, hfirst⟩ := List.exists_cons_of_ne_nil hne
    have hcut : back.splitOn newline = first :: (others ++ [remainder back]) := by
      rw [splitOn_eq back, terminated, hfirst, List.cons_append]
    rw [hcut, List.modifyHead_cons, ← List.cons_append, ← List.append_assoc] at hsplit
    obtain ⟨hterminated, hremainder⟩ := List.append_inj' hsplit rfl
    exact ⟨first, others, _, hcut, hterminated, List.singleton_inj.mp hremainder⟩
  · left
    have hcut := List.splitOn_eq_singleton hback
    rw [hcut, List.modifyHead_cons] at hsplit
    obtain ⟨hterminated, hremainder⟩ := List.append_inj' hsplit rfl
    exact ⟨hcut, hterminated, List.singleton_inj.mp hremainder⟩

theorem intercalate_append_cons (separator line next : Units) (front back : List Units) :
    separator.intercalate ((front ++ [line]) ++ next :: back) =
      separator.intercalate (front ++ [line]) ++ separator ++ separator.intercalate (next :: back) := by
  induction front with
  | nil => simp [List.intercalate_cons_cons]
  | cons first front ih =>
    obtain ⟨second, rest, hrest⟩ := List.exists_cons_of_ne_nil
      (List.append_ne_nil_of_right_ne_nil front (List.cons_ne_nil line []))
    rw [hrest] at ih
    rw [List.cons_append, hrest, List.cons_append, List.cons_append, List.intercalate_cons_cons,
      List.intercalate_cons_cons, ← List.cons_append, ih]
    simp only [List.append_assoc]

/-- A terminated line is the remainder of what stands before its newline. -/
theorem exists_of_mem_terminated {text line : Units} (hline : line ∈ terminated text) :
    ∃ before after, text = before ++ newline :: after ∧ remainder before = line := by
  obtain ⟨front, back, hsplit⟩ := List.append_of_mem hline
  obtain ⟨next, others, hback⟩ := List.exists_cons_of_ne_nil
    (List.append_ne_nil_of_right_ne_nil back (List.cons_ne_nil (remainder text) []))
  have hlines : text.splitOn newline = (front ++ [line]) ++ next :: others := by
    rw [splitOn_eq, hsplit, ← hback]
    simp
  have hfree : ∀ piece ∈ front ++ [line], newline ∉ piece := fun piece hpiece =>
    notMem_of_mem_splitOn (hlines ▸ List.mem_append_left _ hpiece)
  have hbefore : ([newline].intercalate (front ++ [line])).splitOn newline = front ++ [line] :=
    List.splitOn_intercalate newline hfree (by simp)
  refine ⟨[newline].intercalate (front ++ [line]), [newline].intercalate (next :: others), ?_, ?_⟩
  · calc text = [newline].intercalate (text.splitOn newline) :=
          (List.intercalate_splitOn newline).symm
      _ = _ := by rw [hlines, intercalate_append_cons, List.append_assoc, List.singleton_append]
  · rw [remainder, hbefore]
    simp

/-! ## Pieces of a long line -/

/-- A text cut after every `max`-th unit, as long as something stands behind the cut. -/
structure CutInto (max : ℕ) (text : Units) (pieces : List Units) (rest : Units) : Prop where
  text_eq : text = pieces.flatten ++ rest
  length_piece : ∀ piece ∈ pieces, piece.length = max
  length_rest : rest.length ≤ max
  rest_ne_nil : pieces ≠ [] → rest ≠ []

theorem CutInto.length_lt {max : ℕ} {text rest : Units} {pieces : List Units}
    (hcut : CutInto max text pieces rest) (hpieces : pieces ≠ []) : max < text.length := by
  obtain ⟨piece, others, rfl⟩ := List.exists_cons_of_ne_nil hpieces
  have hpiece := hcut.length_piece piece List.mem_cons_self
  have hrest := List.length_pos_of_ne_nil (hcut.rest_ne_nil hpieces)
  have htext := congrArg List.length hcut.text_eq
  rw [List.flatten_cons, List.length_append, List.length_append] at htext
  omega

theorem longPieces_eq_some_iff {max : ℕ} {text rest : Units} {pieces : List Units} :
    longPieces max text = some (pieces, rest) ↔ CutInto max text pieces rest := by
  fun_induction longPieces max text generalizing pieces with
  | case1 text hshort =>
    constructor
    · rintro ⟨⟩
      exact ⟨rfl, by simp, hshort, by simp⟩
    · intro hcut
      have hpieces : pieces = [] := by
        by_contra hne
        exact absurd (hcut.length_lt hne) (by omega)
      have htext := hcut.text_eq
      subst hpieces
      rw [List.flatten_nil, List.nil_append] at htext
      rw [htext]
  | case2 text hlong hmax =>
    constructor
    · intro hnone
      cases hnone
    · intro hcut
      have hrest : rest = [] :=
        List.eq_nil_of_length_eq_zero (by have := hcut.length_rest; omega)
      have hpieces : pieces = [] := by
        by_contra hne
        exact hcut.rest_ne_nil hne hrest
      have htext := hcut.text_eq
      rw [hpieces, hrest] at htext
      rw [htext] at hlong
      exact absurd (Nat.zero_le max) hlong
  | case3 text hlong hmax ih =>
    have hlength : (text.take max).length = max := by rw [List.length_take]; omega
    rw [Option.map_eq_some_iff]
    constructor
    · rintro ⟨⟨others, last⟩, hothers, ⟨⟩⟩
      have hcut := ih.mp hothers
      refine ⟨?_, List.forall_mem_cons.mpr ⟨hlength, hcut.length_piece⟩, hcut.length_rest, ?_⟩
      · rw [List.flatten_cons, List.append_assoc, ← hcut.text_eq, List.take_append_drop]
      · rintro - rfl
        have hothers : others = [] := by
          by_contra hne
          exact hcut.rest_ne_nil hne rfl
        have htext := congrArg List.length hcut.text_eq
        rw [hothers, List.length_drop] at htext
        simp only [List.flatten_nil, List.append_nil, List.length_nil] at htext
        omega
    · intro hcut
      cases pieces with
      | nil =>
        have htext := congrArg List.length hcut.text_eq
        have hrest := hcut.length_rest
        simp only [List.flatten_nil, List.nil_append] at htext
        omega
      | cons piece others =>
        obtain ⟨hpiece, hothers⟩ := List.forall_mem_cons.mp hcut.length_piece
        have htext := hcut.text_eq
        rw [List.flatten_cons, List.append_assoc] at htext
        refine ⟨(others, rest), ih.mpr ⟨?_, hothers, hcut.length_rest, fun _ =>
          hcut.rest_ne_nil (List.cons_ne_nil _ _)⟩, ?_⟩
        · rw [htext, ← hpiece, List.drop_left]
        · rw [htext, ← hpiece, List.take_left]

theorem longPieces_append {max : ℕ} {text rest : Units} {pieces : List Units}
    (h : longPieces max text = some (pieces, rest)) (more : Units) :
    longPieces max (text ++ more) =
      (longPieces max (rest ++ more)).map fun (others, last) => (pieces ++ others, last) := by
  fun_induction longPieces max text generalizing pieces with
  | case1 text hshort =>
    obtain ⟨⟩ := h
    exact Option.map_id'.symm
  | case2 text hlong hmax => exact nomatch h
  | case3 text hlong hmax ih =>
    obtain ⟨⟨others, last⟩, hothers, ⟨⟩⟩ := Option.map_eq_some_iff.mp h
    have hle : max ≤ text.length := by omega
    rw [longPieces, if_neg (by rw [List.length_append]; omega), if_neg hmax,
      List.drop_append_of_le_length hle, List.take_append_of_le_length hle, ih hothers,
      Option.map_map]
    rfl

theorem splitLongPending_append {maxLineChars : Option ℕ} {text rest : Units}
    {pieces : List Units} (h : splitLongPending maxLineChars text = some (pieces, rest))
    (more : Units) :
    splitLongPending maxLineChars (text ++ more) =
      (splitLongPending maxLineChars (rest ++ more)).map fun (others, last) =>
        (pieces ++ others, last) := by
  cases maxLineChars with
  | none =>
    obtain ⟨⟩ := h
    rfl
  | some max => exact longPieces_append h more

theorem splitLongPending_nil (maxLineChars : Option ℕ) :
    splitLongPending maxLineChars [] = some ([], []) := by
  cases maxLineChars with
  | none => rfl
  | some max => rw [splitLongPending, longPieces, if_pos (by simp)]

/-- A bound above zero always cuts. -/
theorem exists_longPieces {max : ℕ} (hmax : max ≠ 0) (text : Units) :
    ∃ pieces rest, longPieces max text = some (pieces, rest) := by
  fun_induction longPieces max text with
  | case1 text hshort => exact ⟨_, _, rfl⟩
  | case2 text hlong hzero => exact absurd hzero hmax
  | case3 text hlong hzero ih =>
    obtain ⟨pieces, rest, h⟩ := ih
    exact ⟨_, _, by rw [h]; rfl⟩

/-! ## Lines that are handed on whole -/

theorem emit_eq (line : Units) :
    emit line = if stripCarriageReturn line = [] then [] else [stripCarriageReturn line] := by
  simp only [emit, List.length_pos_iff, ne_eq]
  split <;> simp_all

theorem flatten_emit (line : Units) : (emit line).flatten = stripCarriageReturn line := by
  rw [emit_eq]
  split
  · rename_i hnil
    rw [hnil, List.flatten_nil]
  · exact List.flatten_singleton

theorem flatMap_emit (lines : List Units) :
    lines.flatMap emit = (lines.map stripCarriageReturn).filter (· ≠ []) := by
  induction lines with
  | nil => rfl
  | cons line lines ih =>
    rw [List.flatMap_cons, ih, emit_eq, List.map_cons, List.filter_cons]
    by_cases hnil : stripCarriageReturn line = [] <;> simp [hnil]

theorem stripCarriageReturn_append (front : Units) :
    stripCarriageReturn (front ++ [carriageReturn]) = front := by
  simp [stripCarriageReturn, endsInReturn]

theorem stripCarriageReturn_of_not {line : Units} (h : endsInReturn line = false) :
    stripCarriageReturn line = line := by
  simp [stripCarriageReturn, h]

theorem endsInReturn_iff {line : Units} :
    endsInReturn line = true ↔ ∃ front, line = front ++ [carriageReturn] := by
  rw [endsInReturn, beq_iff_eq, List.getLast?_eq_some_iff]

theorem length_stripCarriageReturn_le (line : Units) :
    (stripCarriageReturn line).length ≤ line.length := by
  unfold stripCarriageReturn
  split
  · rw [List.length_dropLast]
    omega
  · exact le_rfl

/-- A terminated line within the bound.  One carriage return may stand behind it, unless
cutting in front of that return would strip another one. -/
def EndsWithin (max : ℕ) (line : Units) : Prop :=
  line.length ≤ max ∨ ∃ front, line = front ++ [carriageReturn] ∧ front.length = max ∧
    front ≠ [] ∧ endsInReturn front = false

/-- However such a line arrives, what is emitted of it is the line. -/
theorem emit_eq_of_endsWithin {max : ℕ} {front back rest : Units} {pieces : List Units}
    (hline : EndsWithin max (front ++ back))
    (hcut : longPieces max front = some (pieces, rest)) :
    pieces.flatMap emit ++ emit (rest ++ back) = emit (front ++ back) := by
  have hcut := longPieces_eq_some_iff.mp hcut
  by_cases hpieces : pieces = []
  · have htext := hcut.text_eq
    rw [hpieces, List.flatten_nil, List.nil_append] at htext
    rw [hpieces, htext, List.flatMap_nil, List.nil_append]
  · have hlong := hcut.length_lt hpieces
    obtain hshort | ⟨kept, hkept, hlength, hne, hend⟩ := hline
    · rw [List.length_append] at hshort
      omega
    · -- only the carriage return stands behind the cut
      have htotal := congrArg List.length hkept
      rw [List.length_append, List.length_append, List.length_singleton] at htotal
      have hback : back = [] := List.eq_nil_of_length_eq_zero (by omega)
      subst hback
      rw [List.append_nil] at hkept ⊢
      have hone : CutInto max front [kept] [carriageReturn] := by
        refine ⟨by simpa using hkept, by simpa using hlength, ?_, by simp⟩
        have hpos := List.length_pos_of_ne_nil hne
        rw [List.length_singleton]
        omega
      have hsame := (longPieces_eq_some_iff.mpr hcut).symm.trans (longPieces_eq_some_iff.mpr hone)
      obtain ⟨rfl, rfl⟩ := Prod.mk.inj (Option.some.inj hsame)
      have hpiece : emit kept = [kept] := by
        rw [emit_eq, stripCarriageReturn_of_not hend, if_neg hne]
      have hreturn : emit [carriageReturn] = [] := rfl
      rw [hkept, List.append_nil, hreturn, List.flatMap_singleton, hpiece, emit_eq,
        stripCarriageReturn_append, if_neg hne, List.append_nil]

/-! ## What has been read -/

/-- The lines handed on and the text pending, as the text so far determines them. -/
def HasRead (maxLineChars : Option ℕ) (text pending : Units) (lines : List Units) : Prop :=
  ∃ pieces, splitLongPending maxLineChars (remainder text) = some (pieces, pending) ∧
    lines = (terminated text).flatMap emit ++ pieces.flatMap emit

theorem HasRead.push {maxLineChars : Option ℕ} {text pending value : Units} {lines : List Units}
    (hread : HasRead maxLineChars text pending lines)
    (hjoin : ∀ pieces more, splitLongPending maxLineChars (remainder text) = some (pieces, pending) →
      remainder text ++ more ∈ terminated (text ++ value) →
        pieces.flatMap emit ++ emit (pending ++ more) = emit (remainder text ++ more))
    (hcuts : ∃ pieces rest,
      splitLongPending maxLineChars (remainder (text ++ value)) = some (pieces, rest)) :
    ∃ more rest, splitterPush maxLineChars pending value = some (more, rest) ∧
      HasRead maxLineChars (text ++ value) rest (lines ++ more) := by
  obtain ⟨pieces, hpieces, rfl⟩ := hread
  obtain ⟨later, rest, hlater⟩ := hcuts
  obtain ⟨hcut, hterminated, hremainder⟩ | ⟨first, others, last, hcut, hterminated, hremainder⟩ :=
    splitOn_cases text value
  · -- no newline: the pending text grows
    have happend := splitLongPending_append hpieces value
    rw [← hremainder, hlater] at happend
    obtain ⟨⟨added, last⟩, hadded, hpair⟩ := Option.map_eq_some_iff.mp happend.symm
    obtain ⟨rfl, rfl⟩ := Prod.mk.inj hpair
    refine ⟨added.flatMap emit, last, ?_, pieces ++ added, hlater, ?_⟩
    · simp [splitterPush, hcut, hadded]
    · rw [hterminated, List.flatMap_append, List.append_assoc]
  · rw [hremainder] at hlater
    refine ⟨((pending ++ first) :: others).flatMap emit ++ later.flatMap emit, rest, ?_, later,
      hremainder ▸ hlater, ?_⟩
    · have hlast : ((pending ++ first) :: (others ++ [last])).getLastD [] = last := by
        rw [← List.cons_append, List.getLastD_concat]
      have hdropLast : ((pending ++ first) :: (others ++ [last])).dropLast =
          (pending ++ first) :: others := by
        rw [← List.cons_append, List.dropLast_concat]
      rw [splitterPush, hcut, List.modifyHead_cons]
      simp only [hlast, hdropLast, hlater, Option.map_some]
    · have hfirst := hjoin pieces first hpieces (by rw [hterminated]; simp)
      rw [hterminated, List.flatMap_append, List.flatMap_cons, List.flatMap_cons, ← hfirst]
      simp only [List.append_assoc]

/-- A text whose lines are all handed on whole, and whose end can be cut. -/
structure Readable (maxLineChars : Option ℕ) (text : Units) : Prop where
  endsWithin : ∀ line ∈ terminated text, ∀ max, maxLineChars = some max → EndsWithin max line
  cuts : ∃ pieces rest, splitLongPending maxLineChars (remainder text) = some (pieces, rest)

/-- What has arrived of a readable text is readable. -/
theorem Readable.of_append {maxLineChars : Option ℕ} {front back : Units}
    (hreadable : Readable maxLineChars (front ++ back)) : Readable maxLineChars front := by
  refine ⟨fun line hline => hreadable.endsWithin line ?_, ?_⟩
  · obtain ⟨-, hterminated, -⟩ | ⟨_, _, _, -, hterminated, -⟩ := splitOn_cases front back
    · rwa [hterminated]
    · rw [hterminated]
      exact List.mem_append_left _ hline
  · cases maxLineChars with
    | none => exact ⟨_, _, rfl⟩
    | some max =>
      by_cases hmax : max = 0
      · -- nothing but newlines can be read
        subst hmax
        have hnil : remainder front = [] := by
          obtain ⟨-, -, hremainder⟩ | ⟨first, _, _, -, hterminated, -⟩ := splitOn_cases front back
          · obtain ⟨pieces, rest, hcut⟩ := hreadable.cuts
            have hcut := longPieces_eq_some_iff.mp hcut
            have hrest := List.eq_nil_of_length_eq_zero (Nat.le_zero.mp hcut.length_rest)
            have hpieces : pieces = [] := by
              by_contra hne
              exact hcut.rest_ne_nil hne hrest
            have htext := hcut.text_eq
            rw [hremainder, hpieces, hrest] at htext
            exact (List.append_eq_nil_iff.mp htext).1
          · have hline := hreadable.endsWithin (remainder front ++ first)
              (by rw [hterminated]; simp) 0 rfl
            obtain hshort | ⟨kept, -, hlength, hne, -⟩ := hline
            · have hzero := List.eq_nil_of_length_eq_zero (Nat.le_zero.mp hshort)
              exact (List.append_eq_nil_iff.mp hzero).1
            · exact absurd (List.eq_nil_of_length_eq_zero hlength) hne
        rw [hnil]
        exact ⟨_, _, splitLongPending_nil _⟩
      · exact exists_longPieces hmax _

/-! ## What is kept -/

/-- The kept parts are an end of the text, and they are all of it unless they hold the tail. -/
def Keeps (tailChars : Option ℕ) (keeper : TextKeeper) (text : Units) : Prop :=
  keeper.chars = keeper.parts.flatten.length ∧ ∃ dropped, text = dropped ++ keeper.parts.flatten ∧
    (dropped = [] ∨ ∃ tail, tailChars = some tail ∧ 0 < tail ∧ tail ≤ keeper.parts.flatten.length)

theorem Keeps.push {tailChars : Option ℕ} {keeper : TextKeeper} {text : Units}
    (hkeeps : Keeps tailChars keeper text) (value : Units) :
    Keeps tailChars (keeper.push tailChars value) (text ++ value) := by
  obtain ⟨hchars, dropped, htext, hdropped⟩ := hkeeps
  have hflatten : (keeper.parts ++ [value]).flatten = keeper.parts.flatten ++ value := by simp
  have hwhole : text ++ value = dropped ++ (keeper.parts ++ [value]).flatten := by
    rw [hflatten, htext, List.append_assoc]
  have hlength : keeper.chars + value.length = (keeper.parts ++ [value]).flatten.length := by
    rw [hflatten, List.length_append, hchars]
  have hkept : Keeps tailChars ⟨keeper.parts ++ [value], keeper.chars + value.length⟩
      (text ++ value) := by
    refine ⟨hlength, dropped, hwhole, hdropped.imp_right ?_⟩
    rintro ⟨tail, htail, hpos, hle⟩
    refine ⟨tail, htail, hpos, ?_⟩
    change tail ≤ (keeper.parts ++ [value]).flatten.length
    rw [hflatten, List.length_append]
    omega
  cases tailChars with
  | none => exact hkept
  | some tail =>
    unfold TextKeeper.push
    dsimp only
    split
    · rename_i hlong
      by_cases hzero : tail = 0
      · subst hzero
        obtain rfl | ⟨_, ⟨⟩, hpos, -⟩ := hdropped
        · exact ⟨by simp, [], by simpa [sliceLast] using hwhole, Or.inl rfl⟩
        · exact absurd hpos (lt_irrefl 0)
      · set joined := (keeper.parts ++ [value]).flatten with hjoined
        have hslice : sliceLast tail joined = joined.drop (joined.length - tail) := if_neg hzero
        refine ⟨by simp, dropped ++ joined.take (joined.length - tail), ?_, Or.inr
          ⟨tail, rfl, Nat.pos_of_ne_zero hzero, ?_⟩⟩
        · rw [List.flatten_singleton, hslice, List.append_assoc, List.take_append_drop, hwhole]
        · rw [List.flatten_singleton, hslice, List.length_drop]
          omega
    · exact hkept

/-- The text that is asked for. -/
def keptText (tailChars : Option ℕ) (text : Units) : Units :=
  match tailChars with
  | none => text
  | some tail => sliceLast tail text

theorem Keeps.text_eq {tailChars : Option ℕ} {keeper : TextKeeper} {text : Units}
    (hkeeps : Keeps tailChars keeper text) : keeper.text tailChars = keptText tailChars text := by
  obtain ⟨-, dropped, rfl, rfl | ⟨tail, rfl, hpos, hle⟩⟩ := hkeeps
  · cases tailChars <;> rfl
  · have hdrop : (dropped ++ keeper.parts.flatten).length - tail =
        dropped.length + (keeper.parts.flatten.length - tail) := by
      rw [List.length_append]
      omega
    simp only [TextKeeper.text, keptText, sliceLast, if_neg (Nat.pos_iff_ne_zero.mp hpos), hdrop,
      List.drop_append]
    simp

/-! ## Whole readings -/

structure HasPumped (limits : PumpLimits) (text : Units) (p : Pump) : Prop where
  read : HasRead limits.maxLineChars text p.pending p.lines
  kept : Keeps limits.tailChars p.keeper text
  total : p.total = text.length
  limitHit : p.limitHit = false

theorem hasPumped_start (limits : PumpLimits) : HasPumped limits [] {} :=
  ⟨⟨[], splitLongPending_nil _, rfl⟩, ⟨rfl, [], rfl, Or.inl rfl⟩, rfl, rfl⟩

theorem any_total_eq_false {limits : PumpLimits} {total : ℕ}
    (hfits : limits.maxTotalChars.all (total ≤ ·) = true) :
    limits.maxTotalChars.any (total > ·) = false := by
  cases hmax : limits.maxTotalChars with
  | none => rfl
  | some max =>
    rw [hmax] at hfits
    simpa using hfits

/-- A read within the total goes through the splitter and the keeper. -/
theorem Pump.read_eq {limits : PumpLimits} {p : Pump} {value : Units} (hvalue : value ≠ [])
    (hlimitHit : p.limitHit = false)
    (hfits : limits.maxTotalChars.all (p.total + value.length ≤ ·) = true) :
    p.read limits value = (splitterPush limits.maxLineChars p.pending value).map
      fun (lines, pending) =>
        { p with keeper := p.keeper.push limits.tailChars value, pending,
                 lines := p.lines ++ lines, total := p.total + value.length } := by
  have hskip : ¬ (value = [] ∨ p.limitHit = true) := by simp [hvalue, hlimitHit]
  have hany : ¬ limits.maxTotalChars.any (p.total + value.length > ·) = true := by
    rw [any_total_eq_false hfits]
    exact Bool.false_ne_true
  rw [Pump.read, if_neg hskip, if_neg hany]

/-- One read keeps it, where the splitter takes the value as the text asks. -/
theorem HasPumped.read_some {limits : PumpLimits} {text : Units} {p : Pump} (value : Units)
    (hp : HasPumped limits text p)
    (hfits : limits.maxTotalChars.all ((text ++ value).length ≤ ·) = true)
    (hpush : ∃ more rest, splitterPush limits.maxLineChars p.pending value = some (more, rest) ∧
      HasRead limits.maxLineChars (text ++ value) rest (p.lines ++ more)) :
    ∃ q, p.read limits value = some q ∧ HasPumped limits (text ++ value) q := by
  by_cases hvalue : value = []
  · refine ⟨p, by rw [Pump.read, if_pos (Or.inl hvalue)], ?_⟩
    rw [hvalue, List.append_nil]
    exact hp
  · obtain ⟨more, rest, hmore, hread⟩ := hpush
    have htotal : p.total + value.length = (text ++ value).length := by
      rw [hp.total, List.length_append]
    have hstep := p.read_eq hvalue hp.limitHit (htotal ▸ hfits)
    rw [hmore, Option.map_some] at hstep
    exact ⟨_, hstep, hread, hp.kept.push value, htotal, hp.limitHit⟩

theorem Readable.exists_push {limits : PumpLimits} {text value : Units} {p : Pump}
    (hreadable : Readable limits.maxLineChars (text ++ value)) (hp : HasPumped limits text p) :
    ∃ more rest, splitterPush limits.maxLineChars p.pending value = some (more, rest) ∧
      HasRead limits.maxLineChars (text ++ value) rest (p.lines ++ more) := by
  refine hp.read.push (fun pieces more hpieces hline => ?_) hreadable.cuts
  cases hmax : limits.maxLineChars with
  | none =>
    rw [hmax] at hpieces
    obtain ⟨rfl, hpending⟩ := Prod.mk.inj (Option.some.inj hpieces)
    rw [hpending, List.flatMap_nil, List.nil_append]
  | some max =>
    rw [hmax] at hpieces
    exact emit_eq_of_endsWithin (hreadable.endsWithin _ hline max hmax) hpieces

/-- However a readable text arrives, the loop ends in the state the text determines. -/
theorem Readable.foldlM_read {limits : PumpLimits} {chunks : List Units}
    (hreadable : Readable limits.maxLineChars chunks.flatten)
    (hfits : limits.maxTotalChars.all (chunks.flatten.length ≤ ·) = true) :
    ∃ p, chunks.foldlM (Pump.read limits) {} = some p ∧ HasPumped limits chunks.flatten p := by
  induction chunks using List.reverseRecOn with
  | nil => exact ⟨_, rfl, hasPumped_start limits⟩
  | append_singleton chunks value ih =>
    rw [List.flatten_append, List.flatten_singleton] at hreadable hfits ⊢
    have hbefore : limits.maxTotalChars.all (chunks.flatten.length ≤ ·) = true := by
      cases hmax : limits.maxTotalChars with
      | none => rfl
      | some max =>
        rw [hmax] at hfits
        have hle : (chunks.flatten ++ value).length ≤ max := by simpa using hfits
        rw [List.length_append] at hle
        simp only [Option.all_some, decide_eq_true_eq]
        omega
    obtain ⟨p, hrun, hp⟩ := ih hreadable.of_append hbefore
    obtain ⟨q, hstep, hq⟩ := hp.read_some _ hfits (hreadable.exists_push hp)
    refine ⟨q, ?_, hq⟩
    rw [List.foldlM_append, hrun]
    simpa using hstep

/-- The lines of a reading that has reached the end of the text. -/
def ReadLines (maxLineChars : Option ℕ) (text : Units) (lines : List Units) : Prop :=
  ∃ pieces rest, splitLongPending maxLineChars (remainder text) = some (pieces, rest) ∧
    lines = (terminated text).flatMap emit ++ (pieces.flatMap emit ++ splitterFinish rest)

theorem HasPumped.pumpLines_eq {limits : PumpLimits} {chunks : List Units} {p : Pump}
    {text : Units} (hrun : chunks.foldlM (Pump.read limits) {} = some p)
    (hp : HasPumped limits text p) :
    ∃ lines, pumpLines limits chunks = some ⟨lines, keptText limits.tailChars text, false⟩ ∧
      ReadLines limits.maxLineChars text lines := by
  obtain ⟨pieces, hpieces, hlines⟩ := hp.read
  refine ⟨p.lines ++ splitterFinish p.pending, ?_, pieces, p.pending, hpieces, ?_⟩
  · rw [pumpLines, hrun, ← hp.kept.text_eq, ← hp.limitHit]
    rfl
  · rw [hlines, List.append_assoc]

theorem ReadLines.unique {maxLineChars : Option ℕ} {text : Units} {lines other : List Units}
    (hlines : ReadLines maxLineChars text lines) (hother : ReadLines maxLineChars text other) :
    lines = other := by
  obtain ⟨pieces, rest, hcut, rfl⟩ := hlines
  obtain ⟨pieces', rest', hcut', rfl⟩ := hother
  obtain ⟨rfl, rfl⟩ := Prod.mk.inj (Option.some.inj (hcut.symm.trans hcut'))
  rfl

/-! ### One chunk, and a chunk that ends in front of a newline -/

theorem splitterPush_nil {maxLineChars : Option ℕ} {value : Units} {lines : List Units}
    {rest : Units} (h : splitterPush maxLineChars [] value = some (lines, rest)) :
    ∃ pieces, splitLongPending maxLineChars (remainder value) = some (pieces, rest) ∧
      lines = (terminated value).flatMap emit ++ pieces.flatMap emit := by
  obtain ⟨⟨pieces, last⟩, hcut, hpair⟩ := Option.map_eq_some_iff.mp h
  obtain ⟨rfl, rfl⟩ := Prod.mk.inj hpair
  have hid : (([] : Units) ++ · : Units → Units) = id := funext fun _ => rfl
  rw [hid, List.modifyHead_id] at hcut ⊢
  exact ⟨pieces, hcut, rfl⟩

theorem splitterPush_newline {maxLineChars : Option ℕ} {pending value : Units}
    {lines : List Units} {rest : Units}
    (h : splitterPush maxLineChars pending (newline :: value) = some (lines, rest)) :
    ∃ pieces, splitLongPending maxLineChars (remainder value) = some (pieces, rest) ∧
      lines = emit pending ++ ((terminated value).flatMap emit ++ pieces.flatMap emit) := by
  have hcut : ((newline :: value).splitOn newline).modifyHead (pending ++ ·) =
      (pending :: terminated value) ++ [remainder value] := by
    have hsplit := List.splitOn_append_cons_self (a := newline) [] value
    rw [List.nil_append, List.splitOn_nil, splitOn_eq value] at hsplit
    rw [hsplit, List.singleton_append, List.modifyHead_cons, List.append_nil, List.cons_append]
  rw [splitterPush] at h
  simp only [hcut, List.getLastD_concat, List.dropLast_concat, Option.map_eq_some_iff] at h
  obtain ⟨⟨pieces, last⟩, hpieces, hpair⟩ := h
  obtain ⟨rfl, rfl⟩ := Prod.mk.inj hpair
  exact ⟨pieces, hpieces, by rw [List.flatMap_cons, List.append_assoc]⟩

theorem hasPumped_of_read {limits : PumpLimits} {value : Units} {p : Pump}
    (hfits : limits.maxTotalChars.all (value.length ≤ ·) = true)
    (hp : Pump.read limits {} value = some p) : HasPumped limits value p := by
  by_cases hvalue : value = []
  · rw [Pump.read, if_pos (Or.inl hvalue)] at hp
    obtain rfl := Option.some.inj hp
    rw [hvalue]
    exact hasPumped_start limits
  · have hzero : limits.maxTotalChars.all (({} : Pump).total + value.length ≤ ·) = true := by
      rwa [Nat.zero_add]
    have hstep := hp
    rw [Pump.read_eq hvalue rfl hzero, Option.map_eq_some_iff] at hstep
    obtain ⟨⟨lines, rest⟩, hpush, -⟩ := hstep
    obtain ⟨pieces, hpieces, rfl⟩ := splitterPush_nil hpush
    obtain ⟨q, hread, hq⟩ := (hasPumped_start limits).read_some value hfits
      ⟨_, rest, hpush, pieces, hpieces, rfl⟩
    obtain rfl := Option.some.inj (hp.symm.trans hread)
    exact hq

theorem ReadLines.of_singleton {limits : PumpLimits} {text : Units} {r : Pumped}
    (hfits : limits.maxTotalChars.all (text.length ≤ ·) = true)
    (hr : pumpLines limits [text] = some r) : ReadLines limits.maxLineChars text r.lines := by
  obtain ⟨p, hp, -⟩ := Option.bind_eq_some_iff.mp hr
  have hread : Pump.read limits {} text = some p := by simpa using hp
  obtain ⟨lines, hpumped, hlines⟩ := (hasPumped_of_read hfits hread).pumpLines_eq hp
  obtain rfl := Option.some.inj (hr.symm.trans hpumped)
  exact hlines

/-- Read in one chunk and cut in front of a newline, a text gives the same lines only if the
pieces cut off in front of the newline are the line. -/
theorem emit_eq_of_same_lines {limits : PumpLimits} {before after : Units} {r : Pumped}
    {lines : List Units}
    (hfits : limits.maxTotalChars.all ((before ++ newline :: after).length ≤ ·) = true)
    (hr : pumpLines limits [before, newline :: after] = some r)
    (hlines : ReadLines limits.maxLineChars (before ++ newline :: after) lines)
    (hsame : r.lines = lines) :
    ∃ pieces rest, splitLongPending limits.maxLineChars (remainder before) = some (pieces, rest) ∧
      pieces.flatMap emit ++ emit rest = emit (remainder before) := by
  obtain ⟨q, hq, hpumped⟩ := Option.bind_eq_some_iff.mp hr
  rw [List.foldlM_cons] at hq
  obtain ⟨p, hp, hq⟩ := Option.bind_eq_some_iff.mp hq
  have hbefore : limits.maxTotalChars.all (before.length ≤ ·) = true := by
    cases hmax : limits.maxTotalChars with
    | none => rfl
    | some max =>
      rw [hmax] at hfits
      have hle : (before ++ newline :: after).length ≤ max := by simpa using hfits
      rw [List.length_append] at hle
      simp only [Option.all_some, decide_eq_true_eq]
      omega
  have hread := hasPumped_of_read hbefore hp
  have hstep : p.read limits (newline :: after) = some q := by simpa using hq
  rw [Pump.read_eq (List.cons_ne_nil _ _) hread.limitHit
    (by rwa [hread.total, ← List.length_append]), Option.map_eq_some_iff] at hstep
  obtain ⟨⟨more, rest⟩, hpush, rfl⟩ := hstep
  obtain ⟨later, hlater, rfl⟩ := splitterPush_newline hpush
  obtain ⟨pieces, hpieces, hp⟩ := hread.read
  obtain ⟨later', rest', hcut, rfl⟩ := hlines
  obtain ⟨hterminated, hremainder⟩ := terminated_append_newline before after
  rw [hremainder, hlater] at hcut
  obtain ⟨rfl, rfl⟩ := Prod.mk.inj (Option.some.inj hcut)
  refine ⟨pieces, p.pending, hpieces, ?_⟩
  obtain rfl := Option.some.inj hpumped
  simp only [hp, hterminated, List.flatMap_append, List.flatMap_cons, List.append_assoc] at hsame
  rw [List.append_cancel_left_eq, ← List.append_assoc] at hsame
  exact List.append_cancel_right hsame
/-! ## The lines do not depend on the chunks -/

/-- The pieces are those of the lines, each line's one after another. -/
def ArePiecesOf (lines pieces : List Units) : Prop :=
  ∃ groups : List (List Units), groups.flatten = pieces ∧ groups.map List.flatten = lines

/-- However the text arrives, its reader returns, and what it hands on and returns is the same:
the lines, or pieces of them within the bound, and the text that is asked for. -/
def SplitsText (limits : PumpLimits) (text : Units) : Prop :=
  ∃ lines,
    (∀ chunks : List Units, chunks.flatten = text → ∃ r, pumpLines limits chunks = some r ∧
      r.lines = lines ∧ r.text = keptText limits.tailChars text) ∧
    (limits.maxLineChars = none → lines = textLines text) ∧
    ∀ max, limits.maxLineChars = some max →
      (∀ piece ∈ lines, piece.length ≤ max) ∧ ArePiecesOf (textLines text) lines

/-- An unterminated line whose pieces are all of it: none loses a carriage return, and no
white space is dropped behind them. -/
def EndsWhole (line : Units) (pieces : List Units) (rest : Units) : Prop :=
  pieces = [] ∨
    (isBlank line = true ∧ ∀ piece ∈ pieces, piece = [carriageReturn]) ∨
    (isBlank line = false ∧ (∀ piece ∈ pieces, endsInReturn piece = false) ∧
      (isBlank rest = false ∨ rest = [carriageReturn]))

/-- Every terminated line is within the bound, and what stands behind the last newline is so,
or is cut where nothing is lost. -/
structure LinesFit (max : ℕ) (text : Units) : Prop where
  endsWithin : ∀ line ∈ terminated text, EndsWithin max line
  endsWhole : ∃ pieces rest, CutInto max (remainder text) pieces rest ∧
    EndsWhole (remainder text) pieces rest

theorem isBlank_append (front back : Units) :
    isBlank (front ++ back) = (isBlank front && isBlank back) := List.all_append

theorem splitterFinish_eq (rest : Units) :
    splitterFinish rest =
      (if isBlank rest then [] else [stripCarriageReturn rest]).filter (· ≠ []) := by
  rw [splitterFinish]
  split
  · rfl
  · rw [← List.flatMap_singleton emit rest, flatMap_emit]
    rfl

theorem textLines_eq (text : Units) :
    textLines text = (terminated text).flatMap emit ++ splitterFinish (remainder text) := by
  rw [textLines, List.filter_append, flatMap_emit, splitterFinish_eq]

theorem flatten_flatMap_emit (lines : List Units) :
    (lines.flatMap emit).flatten = (lines.map stripCarriageReturn).flatten := by
  induction lines with
  | nil => rfl
  | cons line lines ih =>
    rw [List.flatMap_cons, List.flatten_append, flatten_emit, ih, List.map_cons, List.flatten_cons]

theorem flatten_splitterFinish (rest : Units) :
    (splitterFinish rest).flatten = if isBlank rest then [] else stripCarriageReturn rest := by
  rw [splitterFinish]
  split
  · rfl
  · exact flatten_emit rest

/-- Lines that are handed on whole are their own pieces. -/
theorem ArePiecesOf.refl (lines : List Units) : ArePiecesOf lines lines := by
  have hid : List.flatten ∘ (fun line : Units => [line]) = id := funext fun _ =>
    List.flatten_singleton
  refine ⟨lines.map fun line => [line], List.flatMap_singleton' lines, ?_⟩
  rw [List.map_map, hid, List.map_id]

theorem ArePiecesOf.append {lines lines' pieces pieces' : List Units}
    (h : ArePiecesOf lines pieces) (h' : ArePiecesOf lines' pieces') :
    ArePiecesOf (lines ++ lines') (pieces ++ pieces') := by
  obtain ⟨groups, rfl, rfl⟩ := h
  obtain ⟨groups', rfl, rfl⟩ := h'
  exact ⟨groups ++ groups', List.flatten_append, List.map_append⟩

theorem ArePiecesOf.flatten_eq {lines pieces : List Units} (h : ArePiecesOf lines pieces) :
    pieces.flatten = lines.flatten := by
  obtain ⟨groups, rfl, rfl⟩ := h
  exact List.flatten_flatten

theorem stripCarriageReturn_append_of_ne_nil {rest : Units} (hrest : rest ≠ []) (front : Units) :
    stripCarriageReturn (front ++ rest) = front ++ stripCarriageReturn rest := by
  have hlast : endsInReturn (front ++ rest) = endsInReturn rest := by
    rw [endsInReturn, endsInReturn, List.getLast?_append_of_ne_nil _ hrest]
  rw [stripCarriageReturn, stripCarriageReturn, hlast]
  split
  · exact List.dropLast_append_of_ne_nil hrest
  · rfl

/-- A line that is cut where nothing is lost arrives in pieces that are the line. -/
theorem EndsWhole.arePiecesOf {max : ℕ} {line rest : Units} {pieces : List Units}
    (hcut : CutInto max line pieces rest) (hwhole : EndsWhole line pieces rest) :
    ArePiecesOf (splitterFinish line) (pieces.flatMap emit ++ splitterFinish rest) := by
  obtain rfl | hne := eq_or_ne pieces []
  · have hline := hcut.text_eq
    rw [List.flatten_nil, List.nil_append] at hline
    rw [hline, List.flatMap_nil, List.nil_append]
    exact ArePiecesOf.refl _
  have hrest := hcut.rest_ne_nil hne
  obtain hnil | ⟨hblank, hreturns⟩ | ⟨hblank, hkept, hlast⟩ := hwhole
  · exact absurd hnil hne
  · have hemit : pieces.flatMap emit = [] := by
      rw [List.flatMap_eq_nil_iff]
      intro piece hpiece
      rw [hreturns piece hpiece]
      rfl
    have hend : isBlank rest = true := by
      rw [hcut.text_eq, isBlank_append, Bool.and_eq_true] at hblank
      exact hblank.2
    rw [hemit, splitterFinish, splitterFinish, if_pos hblank, if_pos hend]
    exact ArePiecesOf.refl _
  · have hstrip : pieces.map stripCarriageReturn = pieces :=
      (List.map_congr_left fun piece hpiece =>
        stripCarriageReturn_of_not (hkept piece hpiece)).trans (List.map_id' pieces)
    have hflatten : (pieces.flatMap emit ++ splitterFinish rest).flatten =
        stripCarriageReturn line := by
      rw [List.flatten_append, flatten_flatMap_emit, hstrip, flatten_splitterFinish]
      rw [hcut.text_eq, stripCarriageReturn_append_of_ne_nil hrest]
      obtain hfull | rfl := hlast
      · rw [hfull, if_neg Bool.false_ne_true]
      · rfl
    have hlong : stripCarriageReturn line ≠ [] := by
      obtain ⟨piece, others, rfl⟩ := List.exists_cons_of_ne_nil hne
      have hpiece := hcut.length_piece piece List.mem_cons_self
      have hpos := List.length_pos_of_ne_nil hrest
      have hle := hcut.length_rest
      rw [hcut.text_eq, stripCarriageReturn_append_of_ne_nil hrest, List.flatten_cons]
      intro hnil
      have hzero := (List.append_eq_nil_iff.mp (List.append_eq_nil_iff.mp hnil).1).1
      rw [hzero, List.length_nil] at hpiece
      omega
    rw [splitterFinish, if_neg (by rw [hblank]; exact Bool.false_ne_true), emit_eq, if_neg hlong]
    exact ⟨[_], List.flatten_singleton, by rw [List.map_singleton, hflatten]⟩

theorem LinesFit.readable {limits : PumpLimits} {text : Units}
    (hfit : ∀ max, limits.maxLineChars = some max → LinesFit max text) :
    Readable limits.maxLineChars text := by
  refine ⟨fun line hline max hmax => (hfit max hmax).endsWithin line hline, ?_⟩
  cases hmax : limits.maxLineChars with
  | none => exact ⟨_, _, rfl⟩
  | some max =>
    obtain ⟨pieces, rest, hcut, -⟩ := (hfit max hmax).endsWhole
    exact ⟨pieces, rest, longPieces_eq_some_iff.mpr hcut⟩

theorem EndsWithin.length_le {max : ℕ} {line : Units} (hline : EndsWithin max line) :
    (stripCarriageReturn line).length ≤ max := by
  obtain hshort | ⟨front, rfl, hlength, -, -⟩ := hline
  · exact (length_stripCarriageReturn_le line).trans hshort
  · rw [stripCarriageReturn_append, hlength]

theorem eq_of_mem_emit {line piece : Units} (hpiece : piece ∈ emit line) :
    piece = stripCarriageReturn line := by
  rw [emit_eq] at hpiece
  split at hpiece
  · exact absurd hpiece List.not_mem_nil
  · exact List.mem_singleton.mp hpiece

theorem LinesFit.length_le {max : ℕ} {text rest : Units} {pieces : List Units}
    (hfit : LinesFit max text) (hcut : CutInto max (remainder text) pieces rest) :
    ∀ piece ∈ (terminated text).flatMap emit ++ (pieces.flatMap emit ++ splitterFinish rest),
      piece.length ≤ max := by
  intro piece hpiece
  rw [List.mem_append, List.mem_append, List.mem_flatMap, List.mem_flatMap] at hpiece
  obtain ⟨line, hline, hpiece⟩ | ⟨whole, hwhole, hpiece⟩ | hpiece := hpiece
  · rw [eq_of_mem_emit hpiece]
    exact (hfit.endsWithin line hline).length_le
  · rw [eq_of_mem_emit hpiece, ← hcut.length_piece whole hwhole]
    exact length_stripCarriageReturn_le whole
  · rw [splitterFinish] at hpiece
    split at hpiece
    · exact absurd hpiece List.not_mem_nil
    · rw [eq_of_mem_emit hpiece]
      exact (length_stripCarriageReturn_le rest).trans hcut.length_rest

/-- Lines that fit are handed on whatever the chunks. -/
theorem splitsText_of_linesFit {limits : PumpLimits} {text : Units}
    (hfits : limits.maxTotalChars.all (text.length ≤ ·) = true)
    (hfit : ∀ max, limits.maxLineChars = some max → LinesFit max text) :
    SplitsText limits text := by
  have hreadable := LinesFit.readable hfit
  obtain ⟨pieces, rest, hcut⟩ := hreadable.cuts
  refine ⟨(terminated text).flatMap emit ++ (pieces.flatMap emit ++ splitterFinish rest),
    fun chunks hchunks => ?_, fun hmax => ?_, fun max hmax => ?_⟩
  · subst hchunks
    obtain ⟨p, hrun, hp⟩ := hreadable.foldlM_read hfits
    obtain ⟨lines, hr, hlines⟩ := hp.pumpLines_eq hrun
    exact ⟨_, hr, hlines.unique ⟨pieces, rest, hcut, rfl⟩, rfl⟩
  · rw [hmax] at hcut
    obtain ⟨rfl, rfl⟩ := Prod.mk.inj (Option.some.inj hcut)
    rw [textLines_eq, List.flatMap_nil, List.nil_append]
  · rw [hmax] at hcut
    obtain ⟨pieces', rest', hcut', hwhole⟩ := (hfit max hmax).endsWhole
    have hsame := hcut.symm.trans (longPieces_eq_some_iff.mpr hcut')
    obtain ⟨rfl, rfl⟩ := Prod.mk.inj (Option.some.inj hsame)
    refine ⟨(hfit max hmax).length_le hcut', ?_⟩
    rw [textLines_eq]
    exact (ArePiecesOf.refl _).append (hwhole.arePiecesOf hcut')

/-! ### Only lines that fit -/

theorem longPieces_concat_return {front : Units} (hfront : front ≠ []) :
    longPieces front.length (front ++ [carriageReturn]) = some ([front], [carriageReturn]) := by
  have hpos := List.length_pos_of_ne_nil hfront
  rw [longPieces_eq_some_iff]
  exact ⟨by simp, by simp, hpos, by simp⟩

theorem length_stripCarriageReturn (line : Units) :
    (stripCarriageReturn line).length + (if endsInReturn line then 1 else 0) = line.length := by
  rw [stripCarriageReturn]
  split
  · rename_i hend
    obtain ⟨front, rfl⟩ := endsInReturn_iff.mp hend
    rw [List.dropLast_concat, List.length_append, List.length_singleton]
  · rfl

theorem length_flatten_strip (lines : List Units) :
    ((lines.map stripCarriageReturn).flatten).length + lines.countP endsInReturn =
      lines.flatten.length := by
  induction lines with
  | nil => rfl
  | cons line lines ih =>
    have hline := length_stripCarriageReturn line
    rw [List.map_cons, List.flatten_cons, List.flatten_cons, List.length_append,
      List.length_append, List.countP_cons]
    omega

/-- A line whose pieces are within the bound and the same lines either way ends within it. -/
theorem endsWithin_of_emit_eq {max : ℕ} {line rest : Units} {pieces : List Units}
    (hcut : longPieces max line = some (pieces, rest))
    (hlength : (stripCarriageReturn line).length ≤ max)
    (hsame : pieces.flatMap emit ++ emit rest = emit line) : EndsWithin max line := by
  by_cases hshort : line.length ≤ max
  · exact Or.inl hshort
  · have htotal := length_stripCarriageReturn line
    have hend : endsInReturn line = true := by
      by_contra hend
      rw [if_neg hend] at htotal
      omega
    obtain ⟨front, rfl⟩ := endsInReturn_iff.mp hend
    rw [if_pos hend, List.length_append, List.length_singleton] at htotal
    rw [List.length_append, List.length_singleton] at hshort
    have hmax : front.length = max := by omega
    have hfront : front ≠ [] := by
      rintro rfl
      have hzero : max = 0 := hmax.symm
      rw [hzero, List.nil_append, longPieces] at hcut
      exact absurd hcut (by simp)
    refine Or.inr ⟨front, rfl, hmax, hfront, ?_⟩
    rw [← hmax, longPieces_concat_return hfront] at hcut
    obtain ⟨rfl, rfl⟩ := Prod.mk.inj (Option.some.inj hcut)
    have hreturn : emit [carriageReturn] = [] := rfl
    rw [hreturn, List.append_nil, List.flatMap_singleton, emit_eq (front ++ _),
      stripCarriageReturn_append, if_neg hfront] at hsame
    have hkept : front = stripCarriageReturn front :=
      eq_of_mem_emit (hsame ▸ List.mem_singleton_self front)
    have hsize := length_stripCarriageReturn front
    rw [← hkept] at hsize
    by_contra hreturns
    rw [Bool.not_eq_false] at hreturns
    rw [if_pos hreturns] at hsize
    omega

/-- Pieces that are all of an unterminated line have lost nothing. -/
theorem endsWhole_of_flatten_eq {max : ℕ} {line rest : Units} {pieces : List Units}
    (hcut : CutInto max line pieces rest)
    (hsame : (pieces.flatMap emit ++ splitterFinish rest).flatten =
      (splitterFinish line).flatten) : EndsWhole line pieces rest := by
  obtain hnil | hne := eq_or_ne pieces []
  · exact Or.inl hnil
  have hrest := hcut.rest_ne_nil hne
  have hpos := List.length_pos_of_ne_nil hrest
  have hmax := hcut.length_rest
  rw [List.flatten_append, flatten_flatMap_emit, flatten_splitterFinish,
    flatten_splitterFinish] at hsame
  cases hblank : isBlank line with
  | true =>
    refine Or.inr (Or.inl ⟨hblank, fun piece hpiece => ?_⟩)
    rw [if_pos hblank] at hsame
    have hstrip : stripCarriageReturn piece = [] :=
      List.flatten_eq_nil_iff.mp (List.append_eq_nil_iff.mp hsame).1 _
        (List.mem_map_of_mem hpiece)
    have hlength := hcut.length_piece piece hpiece
    have htotal := length_stripCarriageReturn piece
    rw [hstrip, List.length_nil] at htotal
    have hend : endsInReturn piece = true := by
      by_contra hend
      rw [if_neg hend] at htotal
      omega
    obtain ⟨front, rfl⟩ := endsInReturn_iff.mp hend
    rw [stripCarriageReturn_append] at hstrip
    rw [hstrip, List.nil_append]
  | false =>
    rw [hblank, if_neg Bool.false_ne_true, hcut.text_eq,
      stripCarriageReturn_append_of_ne_nil hrest] at hsame
    have hlengths := congrArg List.length hsame
    rw [List.length_append, List.length_append] at hlengths
    have hpieces := length_flatten_strip pieces
    have hlast := length_stripCarriageReturn rest
    have hnone : pieces.countP endsInReturn = 0 → ∀ piece ∈ pieces, endsInReturn piece = false :=
      fun hcount piece hpiece => Bool.eq_false_iff.mpr (List.countP_eq_zero.mp hcount piece hpiece)
    refine Or.inr (Or.inr ⟨hblank, ?_⟩)
    cases hend : isBlank rest with
    | true =>
      rw [hend, if_pos rfl, List.length_nil] at hlengths
      have hreturn : endsInReturn rest = true := by
        by_contra hreturn
        rw [if_neg hreturn] at hlast
        omega
      rw [if_pos hreturn] at hlast
      obtain ⟨front, rfl⟩ := endsInReturn_iff.mp hreturn
      have hfront : front = [] := List.eq_nil_of_length_eq_zero (by
        rw [stripCarriageReturn_append] at hlast hlengths
        omega)
      exact ⟨hnone (by omega), Or.inr (by rw [hfront, List.nil_append])⟩
    | false =>
      rw [hend, if_neg Bool.false_ne_true] at hlengths
      exact ⟨hnone (by omega), Or.inl rfl⟩

/-- Read in one chunk, and cut in front of each newline, only lines that fit are the same. -/
theorem linesFit_of_splitsText {limits : PumpLimits} {text : Units} {max : ℕ}
    (hfits : limits.maxTotalChars.all (text.length ≤ ·) = true)
    (hmax : limits.maxLineChars = some max) (hsplits : SplitsText limits text) :
    LinesFit max text := by
  obtain ⟨lines, hall, -, hpieces⟩ := hsplits
  obtain ⟨hlengths, hgroups⟩ := hpieces max hmax
  obtain ⟨r, hr, rfl, -⟩ := hall [text] (by simp)
  have hlines := ReadLines.of_singleton hfits hr
  have hread := hlines
  obtain ⟨pieces, rest, hcut, hr⟩ := hlines
  constructor
  · intro line hline
    obtain ⟨before, after, rfl, rfl⟩ := exists_of_mem_terminated hline
    obtain ⟨r', hr', hsame, -⟩ := hall [before, newline :: after] (by simp)
    obtain ⟨pieces', rest', hcut', hemit⟩ := emit_eq_of_same_lines hfits hr' hread hsame
    rw [hmax] at hcut'
    refine endsWithin_of_emit_eq hcut' ?_ hemit
    by_cases hnil : stripCarriageReturn (remainder before) = []
    · rw [hnil]
      exact Nat.zero_le max
    · apply hlengths
      rw [hr]
      refine List.mem_append_left _ (List.mem_flatMap.mpr ⟨_, hline, ?_⟩)
      rw [emit_eq, if_neg hnil]
      exact List.mem_singleton_self _
  · rw [hmax] at hcut
    have hcut := longPieces_eq_some_iff.mp hcut
    refine ⟨pieces, rest, hcut, endsWhole_of_flatten_eq hcut ?_⟩
    have hflatten := hgroups.flatten_eq
    have hexpected : (textLines text).flatten = ((terminated text).flatMap emit).flatten ++
        (splitterFinish (remainder text)).flatten := by
      rw [textLines_eq, List.flatten_append]
    rw [hexpected, hr, List.flatten_append] at hflatten
    exact List.append_cancel_left hflatten

/-- Where the total bound does not stop the reading, the lines are the same however the output
arrives, and are within the line bound, exactly where there is no line bound or the lines fit it.
The bound is not kept for a line that arrives with its newline, and a carriage return in front of
a cut is lost. -/
theorem splitsText_iff (limits : PumpLimits) (text : Units)
    (hfits : limits.maxTotalChars.all (text.length ≤ ·) = true) :
    SplitsText limits text ↔ ∀ max, limits.maxLineChars = some max → LinesFit max text :=
  ⟨fun hsplits _ hmax => linesFit_of_splitsText hfits hmax hsplits, splitsText_of_linesFit hfits⟩

/-- `"ab\n"` within lines of two. -/
theorem splitsText_short :
    SplitsText { maxLineChars := some 2 } [97, 98, 10] :=
  (splitsText_iff { maxLineChars := some 2 } [97, 98, 10] rfl).mpr (by
    rintro max ⟨⟩
    refine ⟨fun line hline => Or.inl ?_, [], [], ⟨rfl, by simp, by simp, by simp⟩, Or.inl rfl⟩
    have hlines : terminated [97, 98, 10] = [[97, 98]] := by decide
    rw [hlines, List.mem_singleton] at hline
    rw [hline]
    rfl)

/-- `"abcd\n"` in one chunk is handed on as one piece of four, where two are allowed. -/
theorem not_splitsText_long : ¬ SplitsText { maxLineChars := some 2 } [97, 98, 99, 100, 10] := by
  rintro ⟨lines, hall, -, hpieces⟩
  obtain ⟨r, hr, rfl, -⟩ := hall [[97, 98, 99, 100, 10]] rfl
  obtain ⟨pieces, rest, hcut, hlines⟩ := ReadLines.of_singleton rfl hr
  have hmem : [97, 98, 99, 100] ∈ r.lines := by
    have hterminated : terminated [97, 98, 99, 100, 10] = [[97, 98, 99, 100]] := by decide
    rw [hlines, hterminated]
    exact List.mem_append_left _ (by decide)
  have hle : ([97, 98, 99, 100] : Units).length ≤ 2 := (hpieces 2 rfl).1 _ hmem
  exact absurd hle (by decide)

end Turbopaneld.Logs
