/-
# Tables with slots

Every entry of a table lies in a slot.  An entry that is put into the table takes the place of
what its slot held.  After several entries have been put, the table holds these and what lay in
other slots.
-/

import Mathlib.Data.List.Basic

namespace Turbopaneld.Sequences

variable {Entry Slot : Type*} [DecidableEq Slot] (slot : Entry → Slot)

/-- Put an entry into its slot. -/
def put (table : List Entry) (entry : Entry) : List Entry :=
  table.filter (fun other => slot other ≠ slot entry) ++ [entry]

theorem mem_put {table : List Entry} {entry e : Entry} :
    e ∈ put slot table entry ↔ e = entry ∨ (e ∈ table ∧ slot e ≠ slot entry) := by
  rw [put, List.mem_append, List.mem_filter, List.mem_singleton, decide_eq_true_eq, or_comm]

/-- What a table holds after several entries have been put, where entries of one slot are one. -/
theorem mem_foldl_put {entries table : List Entry}
    (hsame : ∀ a ∈ entries, ∀ b ∈ entries, slot a = slot b → a = b) {e : Entry} :
    e ∈ entries.foldl (put slot) table ↔
      e ∈ entries ∨ (e ∈ table ∧ ∀ a ∈ entries, slot e ≠ slot a) := by
  induction entries generalizing table with
  | nil => simp
  | cons entry entries ih =>
    have hrest : ∀ a ∈ entries, ∀ b ∈ entries, slot a = slot b → a = b := fun a ha b hb =>
      hsame a (List.mem_cons_of_mem _ ha) b (List.mem_cons_of_mem _ hb)
    rw [List.foldl_cons, ih hrest, mem_put, List.mem_cons, List.forall_mem_cons]
    constructor
    case mp =>
      rintro (he | ⟨rfl | ⟨he, hslot⟩, hother⟩)
      · exact .inl (.inr he)
      · exact .inl (.inl rfl)
      · exact .inr ⟨he, hslot, hother⟩
    case mpr =>
      rintro ((rfl | he) | ⟨he, hslot, hother⟩)
      · by_cases hagain : e ∈ entries
        · exact .inl hagain
        · refine .inr ⟨.inl rfl, fun a ha hslot => ?_⟩
          rw [hsame e List.mem_cons_self a (List.mem_cons_of_mem _ ha) hslot] at hagain
          exact hagain ha
      · exact .inl he
      · exact .inr ⟨.inr ⟨he, hslot⟩, hother⟩

/-- Put an entry if there is one. -/
def putSome (table : List Entry) : Option Entry → List Entry
  | none => table
  | some entry => put slot table entry

theorem foldl_putSome {Item : Type*} (entry : Item → Option Entry) (items : List Item)
    (table : List Entry) :
    items.foldl (fun table item => putSome slot table (entry item)) table =
      (items.filterMap entry).foldl (put slot) table := by
  induction items generalizing table with
  | nil => rfl
  | cons item items ih =>
    rw [List.foldl_cons, List.filterMap_cons, ih]
    cases entry item <;> rfl

/-- Entries of a kind that is neither put nor displaced stay as they are, in their order. -/
theorem filter_foldl_put {entries table : List Entry} {p : Entry → Bool}
    (hnew : ∀ a ∈ entries, p a = false)
    (hold : ∀ e ∈ table, p e = true → ∀ a ∈ entries, slot e ≠ slot a) :
    (entries.foldl (put slot) table).filter p = table.filter p := by
  induction entries generalizing table with
  | nil => rfl
  | cons entry entries ih =>
    rw [List.foldl_cons, ih fun a ha => hnew a (List.mem_cons_of_mem _ ha)]
    · have hkept : ∀ e ∈ table, (p e && decide (slot e ≠ slot entry)) = p e := by
        intro e he
        cases hp : p e with
        | false => rfl
        | true => exact decide_eq_true (hold e he hp entry List.mem_cons_self)
      rw [put, List.filter_append, List.filter_filter, List.filter_congr hkept,
        List.filter_cons_of_neg (by rw [hnew entry List.mem_cons_self]; exact Bool.false_ne_true),
        List.filter_nil, List.append_nil]
    · intro e he hp a ha
      rcases (mem_put slot).mp he with rfl | ⟨he, -⟩
      · rw [hnew e List.mem_cons_self] at hp
        cases hp
      · exact hold e he hp a (List.mem_cons_of_mem _ ha)

/-- Removing one after the other is removing all. -/
theorem foldl_filter {Item : Type*} (hits : Item → Entry → Bool) (items : List Item)
    (table : List Entry) :
    items.foldl (fun table item => table.filter (!hits item ·)) table =
      table.filter fun e => !items.any (hits · e) := by
  induction items generalizing table with
  | nil => simp
  | cons item items ih =>
    rw [List.foldl_cons, ih, List.filter_filter]
    apply List.filter_congr
    intro e _
    rw [List.any_cons, Bool.not_or, Bool.and_comm]

end Turbopaneld.Sequences
