/-
# Stateful programs that may fail

An asynchronous function that reads and writes the world and may throw leaves
the world where the exception found it: bytes already written stay written.  The
programs here keep that state on both outcomes, and a triple therefore has two
postconditions, one for the value returned and one for the failure.

Loops carry their own local variables and a bound on their rounds.  The loop rule
asks for a measure that falls in every round and concludes that the bound was
never reached, so a triple about a loop is a statement of total correctness.
-/

import Mathlib.Order.Basic

namespace Turbopaneld.Programs

universe uε uσ u v

/-- A program over states `σ`: it returns a value or fails with an `ε`, and in
both cases leaves a state behind. -/
def Prog (ε : Type uε) (σ : Type uσ) (α : Type u) : Type (max uε uσ u) :=
  σ → Except ε α × σ

variable {ε : Type uε} {σ : Type uσ} {α : Type u} {β : Type u}

namespace Prog

/-- Return a value without touching the state. -/
def ret (value : α) : Prog ε σ α := fun s => (.ok value, s)

/-- Run one program and then another; a failure skips the second. -/
def andThen (x : Prog ε σ α) (f : α → Prog ε σ β) : Prog ε σ β := fun s =>
  match x s with
  | (.ok a, s') => f a s'
  | (.error e, s') => (.error e, s')

instance : Monad (Prog ε σ) where
  pure := ret
  bind := andThen

/-- Throw. -/
def fail (e : ε) : Prog ε σ α := fun s => (.error e, s)

/-- The state as it is now. -/
def current : Prog ε σ σ := fun s => (.ok s, s)

/-- Change the state. -/
def update (f : σ → σ) : Prog ε σ PUnit := fun s => (.ok ⟨⟩, f s)

/-- Run a program and hand its outcome to the caller instead of failing. -/
def attempt (x : Prog ε σ α) : Prog ε σ (Except ε α) := fun s =>
  match x s with
  | (outcome, s') => (.ok outcome, s')

/-- Repeat a round for as long as it asks for another one, at most `fuel` times.
A round gets the loop's local variables and returns them. -/
def iterate (stuck : ε) (round : α → Prog ε σ (Bool × α)) : ℕ → α → Prog ε σ α
  | 0, _ => fail stuck
  | fuel + 1, a => do
      let (again, a') ← round a
      if again then iterate stuck round fuel a' else ret a'

@[simp]
theorem pure_apply (a : α) (s : σ) : (pure a : Prog ε σ α) s = (.ok a, s) := rfl

@[simp]
theorem ret_apply (a : α) (s : σ) : (ret a : Prog ε σ α) s = (.ok a, s) := rfl

@[simp]
theorem fail_apply (e : ε) (s : σ) : (fail e : Prog ε σ α) s = (.error e, s) := rfl

@[simp]
theorem update_apply (f : σ → σ) (s : σ) : (update f : Prog ε σ PUnit) s = (.ok ⟨⟩, f s) := rfl

@[simp]
theorem current_apply (s : σ) : (current : Prog ε σ σ) s = (.ok s, s) := rfl

theorem bind_apply (x : Prog ε σ α) (f : α → Prog ε σ β) (s : σ) :
    (x >>= f) s = match x s with
      | (.ok a, s') => f a s'
      | (.error e, s') => (.error e, s') := rfl

theorem bind_apply_of_ok {x : Prog ε σ α} {f : α → Prog ε σ β} {s s' : σ} {a : α}
    (hx : x s = (.ok a, s')) : (x >>= f) s = f a s' := by
  rw [bind_apply, hx]

theorem bind_apply_of_error {x : Prog ε σ α} {f : α → Prog ε σ β} {s s' : σ} {e : ε}
    (hx : x s = (.error e, s')) : (x >>= f) s = (.error e, s') := by
  rw [bind_apply, hx]

end Prog

/-- What a triple asks of an outcome. -/
def Ends (Q : α → σ → Prop) (R : ε → σ → Prop) : Except ε α × σ → Prop
  | (.ok a, s) => Q a s
  | (.error e, s) => R e s

/-- Started where `P` holds, the program returns where `Q` holds or fails
where `R` holds. -/
def Triple (P : σ → Prop) (x : Prog ε σ α) (Q : α → σ → Prop)
    (R : ε → σ → Prop) : Prop :=
  ∀ s, P s → Ends Q R (x s)

section Rules

variable {P P' : σ → Prop} {Q Q' : α → σ → Prop} {R R' : ε → σ → Prop}
  {x : Prog ε σ α}

/-- What a triple says about a run that returned. -/
theorem Triple.of_ok (h : Triple P x Q R) {s s' : σ} {a : α} (hpre : P s)
    (hrun : x s = (.ok a, s')) : Q a s' := by
  have hend := h s hpre
  rwa [hrun] at hend

/-- What a triple says about a run that failed. -/
theorem Triple.of_error (h : Triple P x Q R) {s s' : σ} {e : ε} (hpre : P s)
    (hrun : x s = (.error e, s')) : R e s' := by
  have hend := h s hpre
  rwa [hrun] at hend

/-- A triple that allows no failure says that the program returns. -/
theorem Triple.exists_ok (h : Triple P x Q fun _ _ => False) {s : σ} (hpre : P s) :
    ∃ a s', x s = (.ok a, s') ∧ Q a s' := by
  have hend := h s hpre
  rcases hx : x s with ⟨outcome, s'⟩
  rw [hx] at hend
  cases outcome with
  | ok a => exact ⟨a, s', rfl, hend⟩
  | error e => exact hend.elim

/-- Where the program is known to return, its failures need no assertion. -/
theorem Triple.of_returns {I J : σ → Prop} (h : Triple P x Q R)
    (hreturns : ∀ s, P s → I s → ∃ a s', x s = (.ok a, s') ∧ J s') :
    Triple (fun s => P s ∧ I s) x (fun a s => Q a s ∧ J s) fun _ _ => False := by
  rintro s ⟨hpre, hinv⟩
  obtain ⟨a, s', hrun, hkept⟩ := hreturns s hpre hinv
  rw [hrun]
  exact ⟨h.of_ok hpre hrun, hkept⟩

theorem Triple.conseq (h : Triple P x Q R) (hpre : ∀ s, P' s → P s)
    (hpost : ∀ a s, Q a s → Q' a s) (hthrown : ∀ e s, R e s → R' e s) :
    Triple P' x Q' R' := by
  intro s hs
  have hend := h s (hpre s hs)
  rcases hx : x s with ⟨outcome, s'⟩
  rw [hx] at hend
  cases outcome with
  | ok a => exact hpost a s' hend
  | error e => exact hthrown e s' hend

theorem Triple.pure (a : α) (h : ∀ s, P s → Q a s) :
    Triple P (Pure.pure a : Prog ε σ α) Q R := h

theorem Triple.fail (e : ε) (h : ∀ s, P s → R e s) :
    Triple P (Prog.fail e : Prog ε σ α) Q R := h

/-- Sequencing, with an assertion about the value and the state in between. -/
theorem Triple.bind {f : α → Prog ε σ β} {last : β → σ → Prop}
    (hx : Triple P x Q R) (hf : ∀ a, Triple (Q a) (f a) last R) :
    Triple P (x >>= f) last R := by
  intro s hs
  have hend := hx s hs
  rcases hrun : x s with ⟨outcome, s'⟩
  rw [hrun] at hend
  cases outcome with
  | ok a =>
      rw [Prog.bind_apply_of_ok hrun]
      exact hf a s' hend
  | error e =>
      rw [Prog.bind_apply_of_error hrun]
      exact hend

/-- The loop rule.  A round that asks for another one keeps the invariant and
lowers the measure, so the bound is never what ends the loop. -/
theorem Triple.iterate {e : ε} {round : α → Prog ε σ (Bool × α)}
    (invariant : α → σ → Prop) (measure : α → σ → ℕ)
    (hround : ∀ a n, Triple (fun s => invariant a s ∧ measure a s = n) (round a)
      (fun r s => if r.1 then invariant r.2 s ∧ measure r.2 s < n else Q r.2 s) R) :
    ∀ fuel a, Triple (fun s => invariant a s ∧ measure a s < fuel)
      (Prog.iterate e round fuel a) Q R := by
  intro fuel
  induction fuel with
  | zero =>
      rintro a s ⟨-, hfuel⟩
      exact absurd hfuel (Nat.not_lt_zero _)
  | succ fuel ih =>
      rintro a s ⟨hinv, hfuel⟩
      have hend := hround a (measure a s) s ⟨hinv, rfl⟩
      rcases hrun : round a s with ⟨outcome, s'⟩
      rw [hrun] at hend
      cases outcome with
      | error _ =>
          rw [Prog.iterate, Prog.bind_apply_of_error hrun]
          exact hend
      | ok r =>
          obtain ⟨again, a'⟩ := r
          rw [Prog.iterate, Prog.bind_apply_of_ok hrun]
          cases again with
          | false => simpa [Ends] using hend
          | true =>
              simp only [Ends, if_true] at hend
              simpa using ih a' s' ⟨hend.1, by omega⟩

end Rules

end Turbopaneld.Programs
