/-
# The items of a snippet

The items of a snippet hold its lines.  Where every line could be placed, each item is read
back from its own lines, whatever stands around them; so a list of items that are read back is
what is parsed from their lines.
-/

import Turbopaneld.Deploy.CaddySnippet

namespace Turbopaneld.Deploy.Caddy

open JavaScript

/-! ## Blocks -/

variable {depth : ℤ} {line : String} {lines rest taken : List String}

theorem takeBlock_cons_of_closed (h : depth + braceBalance line ≤ 0) :
    takeBlock depth (line :: rest) = ([line], true) := by
  rw [takeBlock]
  exact if_pos h

theorem takeBlock_cons_of_open (h : ¬depth + braceBalance line ≤ 0) :
    takeBlock depth (line :: rest) =
      (line :: (takeBlock (depth + braceBalance line) rest).1,
        (takeBlock (depth + braceBalance line) rest).2) := by
  rw [takeBlock]
  exact if_neg h

theorem takeBlock_lines (depth : ℤ) (lines : List String) :
    (takeBlock depth lines).1 <+: lines := by
  induction lines generalizing depth with
  | nil => exact List.prefix_refl _
  | cons line lines ih =>
    by_cases h : depth + braceBalance line ≤ 0
    · rw [takeBlock_cons_of_closed h]
      exact ⟨lines, rfl⟩
    · rw [takeBlock_cons_of_open h]
      exact List.cons_prefix_cons.mpr ⟨rfl, ih _⟩

theorem takeBlock_ne_nil (depth : ℤ) (line : String) (rest : List String) :
    (takeBlock depth (line :: rest)).1 ≠ [] := by
  by_cases h : depth + braceBalance line ≤ 0
  · rw [takeBlock_cons_of_closed h]
    exact List.cons_ne_nil _ _
  · rw [takeBlock_cons_of_open h]
    exact List.cons_ne_nil _ _

/-- A closed block is taken from its own lines. -/
theorem takeBlock_taken (h : takeBlock depth lines = (taken, true)) :
    takeBlock depth taken = (taken, true) := by
  induction lines generalizing depth taken with
  | nil => cases h
  | cons line lines ih =>
    by_cases hclosed : depth + braceBalance line ≤ 0
    · rw [takeBlock_cons_of_closed hclosed] at h
      obtain ⟨rfl, -⟩ := Prod.mk.inj h
      exact takeBlock_cons_of_closed hclosed
    · rw [takeBlock_cons_of_open hclosed] at h
      obtain ⟨rfl, hrest⟩ := Prod.mk.inj h
      have hself := ih (Prod.ext rfl hrest)
      rw [takeBlock_cons_of_open hclosed, hself]

/-- What stands behind a closed block is not taken. -/
theorem takeBlock_append (h : takeBlock depth lines = (lines, true)) (rest : List String) :
    takeBlock depth (lines ++ rest) = (lines, true) := by
  induction lines generalizing depth with
  | nil => cases h
  | cons line lines ih =>
    by_cases hclosed : depth + braceBalance line ≤ 0
    · rw [takeBlock_cons_of_closed hclosed] at h
      obtain ⟨hlines, -⟩ := Prod.mk.inj h
      rw [List.cons_append, takeBlock_cons_of_closed hclosed, hlines]
    · rw [takeBlock_cons_of_open hclosed] at h
      obtain ⟨hlines, hrest⟩ := Prod.mk.inj h
      have hself := ih (Prod.ext (List.cons.inj hlines).2 hrest)
      rw [List.cons_append, takeBlock_cons_of_open hclosed, hself]

/-! ## Items that are read back -/

/-- A block whose first line is that of such a site and whose braces balance at its end. -/
structure BlockRead (site : Option (List String)) (lines : List String) : Prop where
  first : ∃ line body, lines = line :: body ∧ isNeutral line = false ∧ topLevel line = .block site
  closed : takeBlock 0 lines = (lines, true)

/-- The item is what is parsed from its lines. -/
def SnippetItem.Read : SnippetItem → Prop
  | .site addresses lines => BlockRead (some addresses) lines
  | .other false lines => ∃ line, lines = [line] ∧ isNeutral line = true
  | .other true lines =>
    (∃ line, lines = [line] ∧ isNeutral line = false ∧ topLevel line = .importLine) ∨
      BlockRead none lines

theorem parseLines_of_neutral (h : isNeutral line = true) :
    parseLines (line :: rest) = (parseLines rest).cons (.other false [line]) false := by
  rw [parseLines, if_pos h]

theorem parseLines_of_import (h : isNeutral line = false) (htop : topLevel line = .importLine) :
    parseLines (line :: rest) = (parseLines rest).cons (.other true [line]) false := by
  rw [parseLines, if_neg (Bool.eq_false_iff.mp h), htop]

theorem parseLines_of_unknown (h : isNeutral line = false) (htop : topLevel line = .unknown) :
    parseLines (line :: rest) = (parseLines rest).cons (.other true [line]) true := by
  rw [parseLines, if_neg (Bool.eq_false_iff.mp h), htop]

theorem parseLines_of_block {site : Option (List String)} (h : isNeutral line = false)
    (htop : topLevel line = .block site) :
    parseLines (line :: rest) =
      (parseLines ((line :: rest).drop (takeBlock 0 (line :: rest)).1.length)).cons
        (blockItem site (takeBlock 0 (line :: rest)).1) !(takeBlock 0 (line :: rest)).2 := by
  rw [parseLines, if_neg (Bool.eq_false_iff.mp h), htop]
  obtain ⟨first, body, hbody⟩ := List.exists_cons_of_ne_nil (takeBlock_ne_nil 0 line rest)
  dsimp only
  rw [hbody]
  rfl

theorem BlockRead.parseLines {site : Option (List String)} (h : BlockRead site lines)
    (rest : List String) :
    parseLines (lines ++ rest) = (parseLines rest).cons (blockItem site lines) false := by
  obtain ⟨line, body, rfl, hneutral, htop⟩ := h.first
  have htaken : takeBlock 0 (line :: (body ++ rest)) = (line :: body, true) :=
    takeBlock_append h.closed rest
  rw [List.cons_append, parseLines_of_block hneutral htop, htaken]
  dsimp only
  rw [← List.cons_append, List.drop_left]
  rfl

theorem SnippetItem.Read.parseLines {item : SnippetItem} (h : item.Read) (rest : List String) :
    parseLines (item.lines ++ rest) = (parseLines rest).cons item false := by
  match item, h with
  | .site addresses lines, h => exact BlockRead.parseLines h rest
  | .other false _, ⟨line, rfl, hneutral⟩ => exact parseLines_of_neutral hneutral
  | .other true _, .inl ⟨line, rfl, hneutral, htop⟩ => exact parseLines_of_import hneutral htop
  | .other true lines, .inr h => exact BlockRead.parseLines h rest

/-- Items that are read back are parsed from their lines. -/
theorem parseLines_flatMap {items : List SnippetItem} (h : ∀ item ∈ items, item.Read) :
    parseLines (items.flatMap (·.lines)) = ⟨items, false⟩ := by
  induction items with
  | nil =>
    rw [List.flatMap_nil, parseLines]
  | cons item items ih =>
    obtain ⟨hitem, hrest⟩ := List.forall_mem_cons.mp h
    rw [List.flatMap_cons, hitem.parseLines, ih hrest]
    rfl

theorem lines_blockItem (site : Option (List String)) (lines : List String) :
    (blockItem site lines).lines = lines := by
  cases site with
  | none => rfl
  | some addresses => rfl

theorem read_blockItem {site : Option (List String)} (h : BlockRead site lines) :
    (blockItem site lines).Read := by
  cases site with
  | none => exact .inr h
  | some addresses => exact h

theorem length_drop_takeBlock (depth : ℤ) (line : String) (rest : List String) :
    ((line :: rest).drop (takeBlock depth (line :: rest)).1.length).length < rest.length + 1 := by
  have hpos := List.length_pos_of_ne_nil (takeBlock_ne_nil depth line rest)
  rw [List.length_drop, List.length_cons]
  omega

/-- The items hold all lines, and where every line was placed each item is read back. -/
theorem parseLines_spec (lines : List String) :
    (parseLines lines).items.flatMap (·.lines) = lines ∧
      ((parseLines lines).uninterpretable = false →
        ∀ item ∈ (parseLines lines).items, item.Read) := by
  match lines with
  | [] =>
    rw [parseLines]
    exact ⟨rfl, fun _ => List.forall_mem_nil _⟩
  | line :: rest =>
    by_cases hneutral : isNeutral line = true
    · obtain ⟨hlines, hread⟩ := parseLines_spec rest
      rw [parseLines_of_neutral hneutral]
      refine ⟨congrArg (line :: ·) hlines, fun hplaced => ?_⟩
      exact List.forall_mem_cons.mpr ⟨⟨line, rfl, hneutral⟩, hread hplaced⟩
    · have hmeaningful : isNeutral line = false := Bool.eq_false_iff.mpr hneutral
      cases htop : topLevel line with
      | importLine =>
        obtain ⟨hlines, hread⟩ := parseLines_spec rest
        rw [parseLines_of_import hmeaningful htop]
        refine ⟨congrArg (line :: ·) hlines, fun hplaced => ?_⟩
        exact List.forall_mem_cons.mpr ⟨.inl ⟨line, rfl, hmeaningful, htop⟩, hread hplaced⟩
      | unknown =>
        obtain ⟨hlines, -⟩ := parseLines_spec rest
        rw [parseLines_of_unknown hmeaningful htop]
        exact ⟨congrArg (line :: ·) hlines, fun hplaced => Bool.noConfusion hplaced⟩
      | block site =>
        have hshorter := length_drop_takeBlock 0 line rest
        obtain ⟨hlines, hread⟩ := parseLines_spec
          ((line :: rest).drop (takeBlock 0 (line :: rest)).1.length)
        rw [parseLines_of_block hmeaningful htop]
        constructor
        · rw [ParsedSnippet.cons, List.flatMap_cons, hlines, lines_blockItem]
          exact (List.prefix_append_drop (takeBlock_lines 0 (line :: rest))).symm
        · intro hplaced
          obtain ⟨hclosed, hrest⟩ := Bool.or_eq_false_iff.mp hplaced
          refine List.forall_mem_cons.mpr ⟨read_blockItem ⟨?_, ?_⟩, hread hrest⟩
          · obtain ⟨first, body, hbody⟩ := List.exists_cons_of_ne_nil (takeBlock_ne_nil 0 line rest)
            have hfront := takeBlock_lines 0 (line :: rest)
            rw [hbody] at hfront
            obtain ⟨rfl, -⟩ := List.cons_prefix_cons.mp hfront
            exact ⟨first, body, hbody, hmeaningful, htop⟩
          · exact takeBlock_taken (Prod.ext rfl (by simpa using hclosed))
termination_by lines.length
decreasing_by
  all_goals first
    | exact hshorter
    | exact Nat.lt_succ_self _

end Turbopaneld.Deploy.Caddy
