/-
# Programs that may fail

Peeling the first step off a computation that succeeded, and taking a whole list of
them apart.
-/

import Mathlib.Data.List.Forall2

namespace Turbopaneld.Programs

variable {ε α β : Type*}

/-- A sequence succeeds exactly when its first step does and the rest does from there. -/
theorem bind_eq_ok_iff {x : Except ε α} {f : α → Except ε β} {b : β} :
    x.bind f = .ok b ↔ ∃ a, x = .ok a ∧ f a = .ok b := by
  cases x with
  | error e => simp [Except.bind]
  | ok a => simp [Except.bind]

/-- A list of steps succeeds exactly when every step does. -/
theorem mapM_eq_some_iff {f : α → Option β} {items : List α} {results : List β} :
    items.mapM f = some results ↔ List.Forall₂ (fun a b => f a = some b) items results := by
  induction items generalizing results with
  | nil => simp [eq_comm]
  | cons head tail ih =>
    rw [List.mapM_cons, Option.bind_eq_bind, Option.bind_eq_some_iff]
    constructor
    · rintro ⟨first, hfirst, hrest⟩
      obtain ⟨rest, htail, hresults⟩ := Option.bind_eq_some_iff.mp hrest
      obtain rfl := Option.some.inj hresults
      exact .cons hfirst (ih.mp htail)
    · rintro (_ | ⟨hfirst, hrest⟩)
      refine ⟨_, hfirst, ?_⟩
      rw [Option.bind_eq_bind, Option.bind_eq_some_iff]
      exact ⟨_, ih.mpr hrest, rfl⟩

/-- A list of steps succeeds where each does, and its results are those of the steps. -/
theorem exists_mapM_eq_ok {f : α → Except ε β} {P : α → β → Prop} {items : List α}
    (h : ∀ a ∈ items, ∃ b, f a = .ok b ∧ P a b) :
    ∃ results, items.mapM f = .ok results ∧ (∀ a ∈ items, ∃ b ∈ results, P a b) ∧
      ∀ b ∈ results, ∃ a ∈ items, P a b := by
  induction items with
  | nil => exact ⟨[], rfl, by simp, by simp⟩
  | cons head tail ih =>
    obtain ⟨⟨first, hfirst, hP⟩, htail⟩ := List.forall_mem_cons.mp h
    obtain ⟨rest, hrest, hto, hfrom⟩ := ih htail
    refine ⟨first :: rest, ?_, ?_, ?_⟩
    · rw [List.mapM_cons, hfirst, hrest]
      rfl
    · refine List.forall_mem_cons.mpr ⟨⟨first, List.mem_cons_self, hP⟩, ?_⟩
      intro a ha
      obtain ⟨b, hb, hab⟩ := hto a ha
      exact ⟨b, List.mem_cons_of_mem first hb, hab⟩
    · refine List.forall_mem_cons.mpr ⟨⟨head, List.mem_cons_self, hP⟩, ?_⟩
      intro b hb
      obtain ⟨a, ha, hab⟩ := hfrom b hb
      exact ⟨a, List.mem_cons_of_mem head ha, hab⟩

end Turbopaneld.Programs
