/-
# Occurrences since the last clearing

A counter that one kind of step raises and another clears stands, at every moment, for the
occurrences since the last clearing.  Both kinds are arbitrary predicates on the steps.
-/

import Mathlib.Data.Finset.Card
import Mathlib.Order.Interval.Finset.Nat

namespace Turbopaneld.Sequences

open Classical in
/-- The steps before `n` at which something occurred, with no clearing since. -/
noncomputable def sinceLast (occurs clears : ℕ → Prop) (n : ℕ) : Finset ℕ :=
  (Finset.range n).filter fun k => occurs k ∧ ∀ i, k ≤ i → i < n → ¬clears i

variable {occurs clears : ℕ → Prop} {n : ℕ}

theorem mem_sinceLast {k : ℕ} :
    k ∈ sinceLast occurs clears n ↔ k < n ∧ occurs k ∧ ∀ i, k ≤ i → i < n → ¬clears i := by
  simp only [sinceLast, Finset.mem_filter, Finset.mem_range]

@[simp]
theorem sinceLast_zero : sinceLast occurs clears 0 = ∅ := by
  simp only [sinceLast, Finset.range_zero, Finset.filter_empty]

theorem sinceLast_succ_of_clears (hclears : clears n) : sinceLast occurs clears (n + 1) = ∅ := by
  rw [Finset.eq_empty_iff_forall_notMem]
  intro k hk
  obtain ⟨hlt, -, hkept⟩ := mem_sinceLast.mp hk
  exact hkept n (Nat.lt_succ_iff.mp hlt) (Nat.lt_succ_self n) hclears

theorem mem_sinceLast_succ {k : ℕ} (hclears : ¬clears n) :
    k ∈ sinceLast occurs clears (n + 1) ↔
      k = n ∧ occurs n ∨ k ∈ sinceLast occurs clears n := by
  rw [mem_sinceLast, mem_sinceLast]
  constructor
  · rintro ⟨hlt, hoccurs, hkept⟩
    rcases Nat.lt_succ_iff_lt_or_eq.mp hlt with hlt | rfl
    · exact .inr ⟨hlt, hoccurs, fun i hki hin => hkept i hki (Nat.lt_succ_of_lt hin)⟩
    · exact .inl ⟨rfl, hoccurs⟩
  · rintro (⟨rfl, hoccurs⟩ | ⟨hlt, hoccurs, hkept⟩)
    · refine ⟨Nat.lt_succ_self k, hoccurs, ?_⟩
      intro i hki hin
      rwa [Nat.le_antisymm (Nat.lt_succ_iff.mp hin) hki]
    · refine ⟨Nat.lt_succ_of_lt hlt, hoccurs, ?_⟩
      intro i hki hin
      rcases Nat.lt_succ_iff_lt_or_eq.mp hin with hlt | rfl
      · exact hkept i hki hlt
      · exact hclears

theorem sinceLast_succ_of_occurs (hclears : ¬clears n) (hoccurs : occurs n) :
    sinceLast occurs clears (n + 1) = insert n (sinceLast occurs clears n) := by
  ext k
  rw [mem_sinceLast_succ hclears, Finset.mem_insert]
  simp only [hoccurs, and_true]

theorem sinceLast_succ_of_not_occurs (hclears : ¬clears n) (hoccurs : ¬occurs n) :
    sinceLast occurs clears (n + 1) = sinceLast occurs clears n := by
  ext k
  rw [mem_sinceLast_succ hclears]
  simp only [hoccurs, and_false, false_or]

theorem lt_of_mem_sinceLast {k : ℕ} (h : k ∈ sinceLast occurs clears n) : k < n :=
  (mem_sinceLast.mp h).1

theorem card_insert_sinceLast :
    (insert n (sinceLast occurs clears n)).card = (sinceLast occurs clears n).card + 1 :=
  Finset.card_insert_of_notMem fun hmem => absurd (lt_of_mem_sinceLast hmem) (lt_irrefl n)

end Turbopaneld.Sequences
