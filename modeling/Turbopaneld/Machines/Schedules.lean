/-
# Schedules

A scheduler offers a machine one action at a time, for ever; an action that is not enabled changes
nothing.  Where the scheduler takes, sooner or later, an action of every kind that can be taken,
what such an action brings about comes about.
-/

import Mathlib.Order.Basic
import Turbopaneld.Machines.Runs

namespace Turbopaneld.Machines

universe uσ uα

variable {σ : Type uσ} {α : Type uα}

/-- The state after the first actions of a schedule. -/
def stateAt (step : σ → α → Option σ) (start : σ) (schedule : ℕ → α) : ℕ → σ
  | 0 => start
  | n + 1 =>
    (step (stateAt step start schedule n) (schedule n)).getD (stateAt step start schedule n)

variable {step : σ → α → Option σ} {start : σ} {schedule : ℕ → α}

theorem stateAt_succ_of_step {n : ℕ} {s' : σ}
    (h : step (stateAt step start schedule n) (schedule n) = some s') :
    stateAt step start schedule (n + 1) = s' := by
  rw [stateAt, h, Option.getD_some]

variable (step start schedule) in
/-- The next state is the same one or that of a step. -/
theorem stateAt_succ (n : ℕ) :
    stateAt step start schedule (n + 1) = stateAt step start schedule n ∨
      step (stateAt step start schedule n) (schedule n) =
        some (stateAt step start schedule (n + 1)) := by
  cases h : step (stateAt step start schedule n) (schedule n) with
  | none =>
    left
    rw [stateAt, h, Option.getD_none]
  | some s' =>
    right
    rw [stateAt_succ_of_step h]

/-- What every step keeps stays. -/
theorem stays {P : σ → Prop} (hkeep : ∀ s a s', P s → step s a = some s' → P s') {n m : ℕ}
    (hle : n ≤ m) (h : P (stateAt step start schedule n)) :
    P (stateAt step start schedule m) := by
  induction hle with
  | refl => exact h
  | @step m _ ih =>
    rcases stateAt_succ step start schedule m with hsame | hstep
    · rwa [hsame]
    · exact hkeep _ _ _ ih hstep

variable (step start schedule)

/-- From every moment at which `P` holds, `Q` holds then or later. -/
def LeadsTo (P Q : σ → Prop) : Prop :=
  ∀ n, P (stateAt step start schedule n) → ∃ m, n ≤ m ∧ Q (stateAt step start schedule m)

variable {step start schedule}

theorem LeadsTo.trans {P Q R : σ → Prop} (hPQ : LeadsTo step start schedule P Q)
    (hQR : LeadsTo step start schedule Q R) : LeadsTo step start schedule P R := by
  intro n hn
  obtain ⟨m, hm, hQ⟩ := hPQ n hn
  obtain ⟨l, hl, hR⟩ := hQR m hQ
  exact ⟨l, Nat.le_trans hm hl, hR⟩

end Turbopaneld.Machines
