/-
# Lines of a file

A line-based tool reads the lines of a file in order.  A line ends before its line feed or
at the end of the file, and nothing after the last line feed is no line.
-/

import Mathlib.Data.List.Basic
import Mathlib.Tactic.SplitIfs
import Mathlib.Order.Basic

namespace Turbopaneld.Shell

/-- The lines of a text. -/
def records (text : List Char) : List (List Char) :=
  if (text.splitOn '\n').getLast? = some [] then (text.splitOn '\n').dropLast
  else text.splitOn '\n'

@[simp] theorem records_nil : records [] = [] := rfl

theorem records_append {line : List Char} (hline : '\n' ∉ line) (rest : List Char) :
    records (line ++ '\n' :: rest) = line :: records rest := by
  have hsplit : (line ++ '\n' :: rest).splitOn '\n' = line :: rest.splitOn '\n' :=
    List.splitOn_append_cons_self_of_not_mem hline rest
  obtain ⟨first, more, hmore⟩ := List.exists_cons_of_ne_nil (List.splitOn_ne_nil '\n' rest)
  rw [records, records, hsplit, hmore, List.getLast?_cons_cons]
  split_ifs
  · rw [List.dropLast_cons_of_ne_nil (List.cons_ne_nil _ _)]
  · rfl

theorem records_of_notMem {line : List Char} (hline : '\n' ∉ line) (hne : line ≠ []) :
    records line = [line] := by
  rw [records, List.splitOn_eq_singleton hline, List.getLast?_singleton, if_neg]
  simpa using hne

/-- Induction on the lines of a text. -/
theorem lines_induction {P : List Char → Prop} (empty : P [])
    (last : ∀ line, '\n' ∉ line → line ≠ [] → P line)
    (more : ∀ line rest, '\n' ∉ line → P rest → P (line ++ '\n' :: rest)) (text : List Char) :
    P text := by
  induction hlength : text.length using Nat.strongRecOn generalizing text with
  | _ length ih =>
    by_cases hmem : '\n' ∈ text
    · obtain ⟨line, rest, rfl, hline⟩ := List.eq_append_cons_of_mem hmem
      refine more line rest hline (ih rest.length ?_ rest rfl)
      rw [← hlength, List.length_append, List.length_cons]
      omega
    · by_cases hne : text = []
      · exact hne ▸ empty
      · exact last text hmem hne

end Turbopaneld.Shell
