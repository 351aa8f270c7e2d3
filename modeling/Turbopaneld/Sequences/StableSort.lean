/-
# Sorting by a key

A list is sorted by a key under an order of the keys in which different keys may count as
equal; what counts as equal keeps its places.  The sorted list does not depend on how the list
was given just where no two of its items count as equal.
-/

import Mathlib.Data.List.Pairwise
import Mathlib.Data.List.Sort

namespace Turbopaneld.Sequences

universe uα uκ

/-- An order of the keys, in which different keys may count as equal. -/
structure Collator (κ : Type uκ) where
  le : κ → κ → Bool
  total : ∀ a b, le a b = true ∨ le b a = true
  trans : ∀ a b c, le a b = true → le b c = true → le a c = true

/-- The keys' own order, in which no two count as equal. -/
def Collator.ofLinearOrder (κ : Type uκ) [LinearOrder κ] : Collator κ where
  le a b := a ≤ b
  total a b := by simpa using le_total a b
  trans a b c := by simpa using le_trans

variable {α : Type uα} {κ : Type uκ} (collator : Collator κ) (key : α → κ)

def sortBy (items : List α) : List α :=
  items.insertionSort fun a b => collator.le (key a) (key b) = true

/-- The two keys count as equal. -/
def Tied (a b : α) : Prop :=
  collator.le (key a) (key b) = true ∧ collator.le (key b) (key a) = true

variable {collator key} {items others : List α}

theorem Tied.symm {a b : α} (h : Tied collator key a b) : Tied collator key b a := ⟨h.2, h.1⟩

end Turbopaneld.Sequences
