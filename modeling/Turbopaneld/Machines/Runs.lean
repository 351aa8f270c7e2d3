/-
# Runs of a machine

A machine has states, actions and a step function that says which actions are enabled.  A
run may be restricted: an action is then taken only where it is allowed.  What holds at the
start and is kept by every allowed step holds in every state a restricted run reaches.
-/

import Mathlib.Order.Basic

namespace Turbopaneld.Machines

universe uσ uα

variable {σ : Type uσ} {α : Type uα}

/-- The states reached from `start` by enabled actions, each allowed where it is taken. -/
inductive Reaches (step : σ → α → Option σ) (allowed : σ → α → Prop) (start : σ) : σ → Prop
  | refl : Reaches step allowed start start
  | tail {s s' : σ} {a : α} : Reaches step allowed start s → allowed s a → step s a = some s' →
      Reaches step allowed start s'

variable {step : σ → α → Option σ} {allowed : σ → α → Prop} {start : σ}

/-- The invariant rule. -/
theorem Reaches.invariant {inv : σ → Prop} (hstart : inv start)
    (hstep : ∀ s a s', inv s → allowed s a → step s a = some s' → inv s') {s : σ}
    (h : Reaches step allowed start s) : inv s := by
  induction h with
  | refl => exact hstart
  | tail _ hallowed hnext ih => exact hstep _ _ _ ih hallowed hnext

/-- A run is one under every rule that allows its steps. -/
theorem Reaches.mono {allowed' : σ → α → Prop} (hallowed : ∀ s a, allowed s a → allowed' s a) {s : σ}
    (h : Reaches step allowed start s) : Reaches step allowed' start s := by
  induction h with
  | refl => exact .refl
  | tail _ ha hnext ih => exact ih.tail (hallowed _ _ ha) hnext

/-- Take actions one after the other. -/
def runFrom (step : σ → α → Option σ) : σ → List α → Option σ
  | s, [] => some s
  | s, a :: rest => (step s a).bind fun s' => runFrom step s' rest

/-- A list of actions, each of which passes a check, reaches where it ends. -/
theorem Reaches.of_checked {p : σ → α → Bool} (hp : ∀ s a, p s a = true → allowed s a)
    {s s' : σ} {actions : List α} (h : Reaches step allowed start s)
    (hrun : runFrom (fun s a => if p s a then step s a else none) s actions = some s') :
    Reaches step allowed start s' := by
  induction actions generalizing s with
  | nil =>
    obtain rfl := Option.some.inj hrun
    exact h
  | cons a rest ih =>
    obtain ⟨next, hnext, hrest⟩ := Option.bind_eq_some_iff.mp hrun
    dsimp only at hnext
    split at hnext
    case isTrue hpasses => exact ih (h.tail (hp s a hpasses) hnext) hrest
    case isFalse => cases hnext

/-- An unrestricted list of actions reaches where it ends. -/
theorem Reaches.of_runFrom {s s' : σ} {actions : List α}
    (h : Reaches step (fun _ _ => True) start s) (hrun : runFrom step s actions = some s') :
    Reaches step (fun _ _ => True) start s' :=
  h.of_checked (p := fun _ _ => true) (fun _ _ _ => trivial) hrun

end Turbopaneld.Machines
