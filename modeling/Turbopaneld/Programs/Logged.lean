/-
# Programs that keep a log

A program whose state is the log of what it did only ever adds to it.  A specification of
such a program is about the entries it adds, whatever the log was before; sequencing two
programs puts their entries one after the other.
-/

import Turbopaneld.Programs.Stateful

namespace Turbopaneld.Programs

universe uε uσ u

variable {ε : Type uε} {event : Type uσ} {α β : Type u}

/-- Whatever the log, the program adds entries such that `Q` holds of them and the value it
returns, or `R` holds of them and its failure. -/
def Logs (x : Prog ε (List event) α) (Q : α → List event → Prop) (R : ε → List event → Prop) :
    Prop :=
  ∀ log, ∃ entries, (x log).2 = log ++ entries ∧
    match (x log).1 with
    | .ok a => Q a entries
    | .error e => R e entries

variable {x : Prog ε (List event) α} {Q Q' : α → List event → Prop}
  {R R' : ε → List event → Prop}

theorem Logs.conseq (h : Logs x Q R) (hvalue : ∀ a entries, Q a entries → Q' a entries)
    (hthrown : ∀ e entries, R e entries → R' e entries) : Logs x Q' R' := by
  intro log
  obtain ⟨entries, hlog, hend⟩ := h log
  refine ⟨entries, hlog, ?_⟩
  cases hrun : (x log).1 with
  | ok a =>
    rw [hrun] at hend
    exact hvalue a entries hend
  | error e =>
    rw [hrun] at hend
    exact hthrown e entries hend

theorem Logs.pure {a : α} (h : Q a []) : Logs (Pure.pure a : Prog ε (List event) α) Q R :=
  fun log => ⟨[], (List.append_nil log).symm, h⟩

theorem Logs.fail {e : ε} (h : R e []) : Logs (Prog.fail e : Prog ε (List event) α) Q R :=
  fun log => ⟨[], (List.append_nil log).symm, h⟩

/-- Sequencing: what the first program added stands in front of what the second adds. -/
theorem Logs.bind {f : α → Prog ε (List event) β} {last : β → List event → Prop}
    {thrown : ε → List event → Prop} (hx : Logs x Q thrown)
    (hf : ∀ a front, Q a front → Logs (f a) (fun b entries => last b (front ++ entries))
      (fun e entries => thrown e (front ++ entries))) :
    Logs (x >>= f) last thrown := by
  intro log
  obtain ⟨front, hlog, hend⟩ := hx log
  rcases hrun : x log with ⟨outcome, log'⟩
  rw [hrun] at hlog hend
  cases outcome with
  | error e =>
    rw [Prog.bind_apply_of_error hrun]
    exact ⟨front, hlog, hend⟩
  | ok a =>
    rw [Prog.bind_apply_of_ok hrun]
    obtain ⟨entries, hlog', hend'⟩ := hf a front hend log'
    refine ⟨front ++ entries, ?_, hend'⟩
    dsimp only at hlog
    rw [hlog', hlog, List.append_assoc]

/-- Ask the environment, whose answer may depend on all that was done before, and note the
answer. -/
def perform (step : List event → Except ε α) (note : Except ε α → event) :
    Prog ε (List event) α :=
  fun log => (step log, log ++ [note (step log)])

theorem logs_perform (step : List event → Except ε α) (note : Except ε α → event) :
    Logs (perform step note) (fun a entries => entries = [note (.ok a)])
      (fun e entries => entries = [note (.error e)]) := by
  intro log
  refine ⟨[note (step log)], rfl, ?_⟩
  cases hstep : step log with
  | ok a => simp [perform, hstep]
  | error e => simp [perform, hstep]

/-- Write an entry. -/
def append (entry : event) : Prog ε (List event) PUnit := Prog.update (· ++ [entry])

/-- A failure that is handed to the caller. -/
theorem Logs.attempt {last : Except ε α → List event → Prop}
    (h : Logs x (fun a => last (.ok a)) (fun e => last (.error e))) :
    Logs (Prog.attempt x) last R := by
  intro log
  obtain ⟨entries, hlog, hend⟩ := h log
  rcases hrun : x log with ⟨outcome, log'⟩
  rw [hrun] at hlog hend
  have hattempt : Prog.attempt x log = (.ok outcome, log') := by rw [Prog.attempt, hrun]
  rw [hattempt]
  refine ⟨entries, hlog, ?_⟩
  cases outcome with
  | ok a => exact hend
  | error e => exact hend

/-! ## Programs whose entries are all of one kind -/

/-- Whatever the program does, its entries satisfy `P`. -/
def LogsOnly (x : Prog ε (List event) α) (P : event → Prop) : Prop :=
  Logs x (fun _ entries => ∀ entry ∈ entries, P entry) fun _ entries => ∀ entry ∈ entries, P entry

variable {P : event → Prop}

theorem LogsOnly.mono {P' : event → Prop} (h : LogsOnly x P) (hP : ∀ entry, P entry → P' entry) :
    LogsOnly x P' :=
  h.conseq (fun _ _ hentries entry hentry => hP entry (hentries entry hentry))
    (fun _ _ hentries entry hentry => hP entry (hentries entry hentry))

theorem LogsOnly.pure (a : α) : LogsOnly (Pure.pure a : Prog ε (List event) α) P :=
  Logs.pure fun _ h => absurd h List.not_mem_nil

theorem LogsOnly.fail (e : ε) : LogsOnly (Prog.fail e : Prog ε (List event) α) P :=
  Logs.fail fun _ h => absurd h List.not_mem_nil

theorem LogsOnly.bind {f : α → Prog ε (List event) β} (hx : LogsOnly x P)
    (hf : ∀ a, LogsOnly (f a) P) : LogsOnly (x >>= f) P := by
  refine Logs.bind hx ?_
  intro a front hfront
  have hjoin : ∀ entries : List event, (∀ entry ∈ entries, P entry) →
      ∀ entry ∈ front ++ entries, P entry := by
    intro entries hentries entry hentry
    rcases List.mem_append.mp hentry with h | h
    · exact hfront entry h
    · exact hentries entry h
  exact (hf a).conseq (fun _ entries => hjoin entries) (fun _ entries => hjoin entries)

theorem LogsOnly.attempt (hx : LogsOnly x P) : LogsOnly (Prog.attempt x) P :=
  Logs.attempt (hx.conseq (fun _ _ h => h) (fun _ _ h => h))

theorem logsOnly_perform {step : List event → Except ε α} {note : Except ε α → event}
    (h : ∀ answer, P (note answer)) : LogsOnly (perform step note) P := by
  refine (logs_perform step note).conseq ?_ ?_
  · rintro a _ rfl entry hentry
    rw [List.mem_singleton.mp hentry]
    exact h _
  · rintro e _ rfl entry hentry
    rw [List.mem_singleton.mp hentry]
    exact h _

theorem logs_append (entry : event) :
    Logs (append entry : Prog ε (List event) PUnit) (fun _ entries => entries = [entry])
      (fun _ _ => False) :=
  fun _ => ⟨[entry], rfl, rfl⟩

/-! ## Programs that do not fail -/

/-- The program returns a value, whatever the log. -/
def Returns (x : Prog ε (List event) α) : Prop := ∀ log, ∃ a, (x log).1 = .ok a

theorem Logs.of_returns (h : Logs x Q R) (hx : Returns x) : Logs x Q fun _ _ => False := by
  intro log
  obtain ⟨entries, hlog, hend⟩ := h log
  obtain ⟨a, ha⟩ := hx log
  rw [ha] at hend
  refine ⟨entries, hlog, ?_⟩
  rw [ha]
  exact hend

theorem Returns.pure (a : α) : Returns (Pure.pure a : Prog ε (List event) α) := fun _ => ⟨a, rfl⟩

theorem Returns.attempt (x : Prog ε (List event) α) : Returns (Prog.attempt x) :=
  fun log => ⟨(x log).1, rfl⟩

theorem Returns.append (entry : event) :
    Returns (Programs.append entry : Prog ε (List event) PUnit) :=
  fun _ => ⟨_, rfl⟩

theorem Returns.bind {f : α → Prog ε (List event) β} (hx : Returns x) (hf : ∀ a, Returns (f a)) :
    Returns (x >>= f) := by
  intro log
  obtain ⟨a, ha⟩ := hx log
  rw [Prog.bind_apply_of_ok (Prod.ext ha rfl)]
  exact hf a _

end Turbopaneld.Programs
