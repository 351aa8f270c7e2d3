/-
# Cutting a sequence after a delimiter

A reader that looks for a delimiter sees only the part of its input that has
arrived.  The facts here say when that does not matter: the cut after the first
occurrence of a delimiter is decided by the input up to that occurrence, so
input that arrives later moves to the remainder and changes nothing else.

Everything is stated for lists over an arbitrary type with decidable equality.
-/

import Mathlib.Data.List.Infix
import Mathlib.Data.List.TakeDrop

namespace Turbopaneld.Sequences

universe u

variable {α : Type u} [DecidableEq α]

/-- Split a sequence right after the first occurrence of `needle`, when there is
one. -/
def cutThrough (needle : List α) : List α → Option (List α × List α)
  | [] => if needle = [] then some ([], []) else none
  | x :: xs =>
      if needle <+: x :: xs then some (needle, (x :: xs).drop needle.length)
      else (cutThrough needle xs).map fun cut => (x :: cut.1, cut.2)

/-- One record of a delimited stream: it ends in the delimiter and holds no
earlier occurrence of it. -/
def IsRecord (needle record : List α) : Prop :=
  cutThrough needle record = some (record, [])

instance (needle record : List α) : Decidable (IsRecord needle record) :=
  inferInstanceAs (Decidable (cutThrough needle record = some (record, [])))

/-- The two halves of a cut are the sequence again. -/
theorem append_of_cutThrough {needle xs before after : List α}
    (hcut : cutThrough needle xs = some (before, after)) : xs = before ++ after := by
  induction xs generalizing before after with
  | nil =>
      unfold cutThrough at hcut
      split at hcut
      · simp_all
      · simp at hcut
  | cons x xs ih =>
      unfold cutThrough at hcut
      split at hcut
      · next hprefix =>
          obtain ⟨tail, htail⟩ := hprefix
          simp only [Option.some.injEq, Prod.mk.injEq] at hcut
          obtain ⟨rfl, rfl⟩ := hcut
          rw [← htail]
          simp
      · simp only [Option.map_eq_some_iff, Prod.mk.injEq] at hcut
        obtain ⟨⟨first, rest⟩, hrest, rfl, rfl⟩ := hcut
        simp [ih hrest]

/-- What is cut off ends in the delimiter. -/
theorem suffix_of_cutThrough {needle xs before after : List α}
    (hcut : cutThrough needle xs = some (before, after)) : needle <:+ before := by
  induction xs generalizing before after with
  | nil =>
      unfold cutThrough at hcut
      split at hcut
      · simp_all
      · simp at hcut
  | cons x xs ih =>
      unfold cutThrough at hcut
      split at hcut
      · simp only [Option.some.injEq, Prod.mk.injEq] at hcut
        exact hcut.1 ▸ List.suffix_rfl
      · simp only [Option.map_eq_some_iff, Prod.mk.injEq] at hcut
        obtain ⟨⟨first, rest⟩, hrest, rfl, rfl⟩ := hcut
        exact (ih hrest).trans (List.suffix_cons x first)

/-- A cut that succeeds found the whole delimiter. -/
theorem length_le_of_cutThrough {needle xs before after : List α}
    (hcut : cutThrough needle xs = some (before, after)) : needle.length ≤ xs.length := by
  have hsuffix := (suffix_of_cutThrough hcut).length_le
  have happend := congrArg List.length (append_of_cutThrough hcut)
  rw [List.length_append] at happend
  omega

/-- Input that arrives after the delimiter only lengthens the remainder. -/
theorem cutThrough_append {needle xs before after : List α} (more : List α)
    (hcut : cutThrough needle xs = some (before, after)) :
    cutThrough needle (xs ++ more) = some (before, after ++ more) := by
  induction xs generalizing before after with
  | nil =>
      unfold cutThrough at hcut
      split at hcut
      · next hempty =>
          simp only [Option.some.injEq, Prod.mk.injEq] at hcut
          obtain ⟨rfl, rfl⟩ := hcut
          subst hempty
          cases more <;> simp [cutThrough]
      · simp at hcut
  | cons x xs ih =>
      have hlength := length_le_of_cutThrough hcut
      unfold cutThrough at hcut
      split at hcut
      · next hprefix =>
          simp only [Option.some.injEq, Prod.mk.injEq] at hcut
          obtain ⟨rfl, rfl⟩ := hcut
          have hlonger : needle <+: x :: (xs ++ more) :=
            hprefix.trans (List.prefix_append (x :: xs) more)
          rw [List.cons_append, cutThrough, if_pos hlonger, ← List.cons_append,
            List.drop_append_of_le_length hlength]
      · next hprefix =>
          simp only [Option.map_eq_some_iff, Prod.mk.injEq] at hcut
          obtain ⟨⟨first, rest⟩, hrest, rfl, rfl⟩ := hcut
          -- the delimiter fits in what was already there, so later input
          -- cannot make it start here
          have hstill : ¬ needle <+: x :: (xs ++ more) := fun hlonger =>
            hprefix (List.prefix_of_prefix_length_le hlonger
              (List.prefix_append (x :: xs) more) hlength)
          rw [List.cons_append, cutThrough, if_neg hstill, ih hrest]
          rfl

/-- What is cut off is a record. -/
theorem isRecord_of_cutThrough {needle xs before after : List α}
    (hcut : cutThrough needle xs = some (before, after)) : IsRecord needle before := by
  induction xs generalizing before after with
  | nil =>
      unfold cutThrough at hcut
      split at hcut
      · next hempty =>
          simp only [Option.some.injEq, Prod.mk.injEq] at hcut
          obtain ⟨rfl, rfl⟩ := hcut
          simp [IsRecord, cutThrough, hempty]
      · simp at hcut
  | cons x xs ih =>
      unfold cutThrough at hcut
      split at hcut
      · simp only [Option.some.injEq, Prod.mk.injEq] at hcut
        obtain ⟨rfl, rfl⟩ := hcut
        cases needle <;> simp [IsRecord, cutThrough]
      · next hprefix =>
          simp only [Option.map_eq_some_iff, Prod.mk.injEq] at hcut
          obtain ⟨⟨first, rest⟩, hrest, rfl, rfl⟩ := hcut
          have hshorter : ¬ needle <+: x :: first := fun hfirst =>
            hprefix (hfirst.trans ⟨rest, by rw [append_of_cutThrough hrest]; rfl⟩)
          have hrecord : cutThrough needle first = some (first, []) := ih hrest
          rw [IsRecord, cutThrough, if_neg hshorter, hrecord]
          rfl

/-- Cutting a stream that begins with a record takes off exactly that record. -/
theorem IsRecord.cutThrough_append {needle record : List α}
    (hrecord : IsRecord needle record) (rest : List α) :
    cutThrough needle (record ++ rest) = some (record, rest) := by
  simpa using Sequences.cutThrough_append rest hrecord

/-- A stream begins with at most one record. -/
theorem IsRecord.unique {needle first second restFirst restSecond : List α}
    (hfirst : IsRecord needle first) (hsecond : IsRecord needle second)
    (hsame : first ++ restFirst = second ++ restSecond) :
    first = second ∧ restFirst = restSecond := by
  have hcut := hfirst.cutThrough_append restFirst
  rw [hsame, hsecond.cutThrough_append restSecond] at hcut
  simp only [Option.some.injEq, Prod.mk.injEq] at hcut
  exact ⟨hcut.1.symm, hcut.2.symm⟩

/-- The cut is decided by the first position at which the delimiter stands. -/
theorem cutThrough_of_first {needle xs : List α} (hneedle : needle ≠ []) {i : ℕ}
    (hfound : needle <+: xs.drop i) (hfirst : ∀ j < i, ¬ needle <+: xs.drop j) :
    cutThrough needle xs =
      some (xs.take (i + needle.length), xs.drop (i + needle.length)) := by
  induction xs generalizing i with
  | nil => simp_all
  | cons x xs ih =>
      cases i with
      | zero =>
          have hprefix : needle <+: x :: xs := by simpa using hfound
          rw [cutThrough, if_pos hprefix, Nat.zero_add, ← List.prefix_iff_eq_take.mp hprefix]
      | succ i =>
          have hnot : ¬ needle <+: x :: xs := by simpa using hfirst 0 (Nat.succ_pos i)
          have hrest := ih (i := i) (by simpa using hfound)
            (fun j hj => by simpa using hfirst (j + 1) (by omega))
          rw [cutThrough, if_neg hnot, hrest, Nat.succ_add]
          rfl

/-- A delimiter that stands nowhere cuts nothing. -/
theorem cutThrough_eq_none {needle xs : List α} (hneedle : needle ≠ [])
    (habsent : ∀ i, ¬ needle <+: xs.drop i) : cutThrough needle xs = none := by
  induction xs with
  | nil => simp [cutThrough, hneedle]
  | cons x xs ih =>
      have hnot : ¬ needle <+: x :: xs := by simpa using habsent 0
      rw [cutThrough, if_neg hnot, ih fun i => by simpa using habsent (i + 1)]
      rfl

/-- A sequence without the separator stands on one side of it. -/
theorem infix_append_cons_iff {separator : α} {needle front back : List α}
    (hneedle : separator ∉ needle) :
    needle <:+: front ++ separator :: back ↔ needle <:+: front ∨ needle <:+: back := by
  rw [List.infix_append_iff]
  constructor
  · rintro (hfront | hback | ⟨first, second, rfl, hfirst, hsecond⟩)
    · exact Or.inl hfront
    · rcases List.infix_cons_iff.mp hback with hprefix | hback
      · cases needle with
        | nil => exact Or.inr (List.nil_prefix.isInfix)
        | cons x needle =>
          exact absurd (List.cons_prefix_cons.mp hprefix).1 fun h => hneedle
            (h ▸ List.mem_cons_self)
      · exact Or.inr hback
    · cases second with
      | nil => exact Or.inl (by simpa using hfirst.isInfix)
      | cons x second =>
        have hx := (List.cons_prefix_cons.mp hsecond).1
        exact absurd (by simp [hx]) hneedle
  · rintro (hfront | hback)
    · exact Or.inl hfront
    · exact Or.inr (Or.inl (hback.trans (List.suffix_cons _ _).isInfix))

/-- The first place where a sequence occurs: it does not occur before its last element is there. -/
theorem exists_first_infix {needle xs : List α} (hne : needle ≠ []) (h : needle <:+: xs) :
    ∃ front back, xs = front ++ needle ++ back ∧ ¬ needle <:+: front ++ needle.dropLast := by
  induction xs with
  | nil => exact absurd (List.infix_nil.mp h) hne
  | cons x xs ih =>
    by_cases hprefix : needle <+: x :: xs
    · obtain ⟨back, hback⟩ := hprefix
      refine ⟨[], back, hback.symm, fun hinfix => ?_⟩
      have hlength := hinfix.length_le
      rw [List.nil_append, List.length_dropLast] at hlength
      have hpos := List.length_pos_iff.mpr hne
      omega
    · obtain ⟨front, back, hxs, hfirst⟩ := ih ((List.infix_cons_iff.mp h).resolve_left hprefix)
      refine ⟨x :: front, back, by rw [hxs]; rfl, fun hinfix => ?_⟩
      rcases List.infix_cons_iff.mp hinfix with hhere | hlater
      · apply hprefix
        have hshort : x :: (front ++ needle.dropLast) <+: x :: xs := by
          rw [List.cons_prefix_cons, hxs, List.append_assoc]
          refine ⟨rfl, (List.prefix_append_right_inj front).mpr ?_⟩
          exact (List.dropLast_prefix needle).trans (List.prefix_append _ _)
        exact hhere.trans hshort
      · exact hfirst hlater

end Turbopaneld.Sequences
