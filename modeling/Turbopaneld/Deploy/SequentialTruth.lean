/-
# The outcome a sequential deploy reports

The control plane acts on the reported outcome alone.  It is right about a rollback and
about migrations in every run.  It is wrong where `up` or the health gate throws instead of
reporting a failure after the previous version was stopped: no handler takes that, and the
run ends with a plain error, which stands for "nothing changed".
-/

import Turbopaneld.Deploy.Sequential
import Turbopaneld.Programs.Logged

namespace Turbopaneld.Deploy.Sequential

open Programs (Prog Logs)

/-! ## Kinds of calls -/

/-- A stop of services of the previous version. -/
def Event.IsStop : Event → Prop
  | .streamed (.stop _ _) _ => True
  | _ => False

/-- Part of starting a version: `up` or its gate. -/
def Event.IsStart : Event → Prop
  | .streamed (.up _) _ => True
  | .gate _ _ => True
  | _ => False

def Event.IsRestore : Event → Prop
  | .restore _ => True
  | _ => False

/-- An `up` or a gate that threw. -/
def Event.StartThrew : Event → Prop
  | .streamed (.up _) (.error _) => True
  | .gate _ (.error _) => True
  | _ => False

/-- A hook that may migrate, or an `up` under a declared breaking migration. -/
def Event.MayMigrate (input : Input) : Event → Prop
  | .hooks _ => input.hooksMigrate = true
  | .streamed (.up _) _ => input.breakingMigration = true
  | _ => False

/-- The event that starts the previous version: an `up` after the restore gave its files. -/
def StartsPrevious (earlier : History) (event : Event) : Prop :=
  (∃ paths answer, event = .streamed (.up paths) answer) ∧
    ∃ paths, Event.restore (.ok (some paths)) ∈ earlier

/-- From this event on the schema may have changed: a hook that may migrate, or the start of the
new version (no restore before) under a declared breaking migration. -/
def Migrates (input : Input) (earlier : History) (event : Event) : Prop :=
  event.MayMigrate input ∧ ∀ other ∈ earlier, ¬other.IsRestore

/-- The reported outcome tells the truth about the calls that were made. -/
structure TellsTruth (input : Input) (result : Except Exit Unit) (history : History) : Prop where
  plain : ∀ thrown, result = .error (.plain thrown) →
    (∀ event ∈ history, ¬event.IsStop) ∨ input.previousComposePaths = none
  rolledBack : ∀ reason, result = .error (.sequential .rolledBack reason) →
    ∃ before paths up, up.success = true ∧ history = before ++
      [.restore (.ok (some paths)), .streamed (.up paths) (.ok up), .gate paths (.ok .passed)]
  migrated : ∀ before event middle later after,
    history = before ++ event :: (middle ++ later :: after) → Migrates input before event →
    ¬StartsPrevious (before ++ event :: middle) later

/-- Once a stop was issued, no `up` and no gate throws. -/
def StartsReturn (history : History) : Prop :=
  (∃ event ∈ history, event.IsStop) → ∀ event ∈ history, ¬event.StartThrew

/-! ## What the parts of a run add to the history -/

/-- What a part adds after the previous version may have been stopped, with its result. -/
structure Summary (input : Input) (result : Except Exit Unit) (entries : History) : Prop where
  stops : input.previousComposePaths = none → ∀ event ∈ entries, ¬event.IsStop
  plain : ∀ thrown, result = .error (.plain thrown) →
    input.previousComposePaths = none ∨ ∃ event ∈ entries, event.StartThrew
  threw : (∃ event ∈ entries, event.StartThrew) → ∃ thrown, result = .error (.plain thrown)
  rolledBack : ∀ reason, result = .error (.sequential .rolledBack reason) →
    ∃ before paths up, up.success = true ∧ entries = before ++
      [.restore (.ok (some paths)), .streamed (.up paths) (.ok up), .gate paths (.ok .passed)]
  migrated : (∀ event ∈ entries, ¬event.IsRestore) ∨ ∃ front answer starts,
    entries = front ++ .restore answer :: starts ∧
      (∀ event ∈ front, ¬event.MayMigrate input ∧ ¬event.IsRestore) ∧
      ∀ event ∈ starts, event.IsStart

/-- A part whose entries and result have a summary. -/
def Summarized (input : Input) (part : Part Unit) : Prop :=
  Logs part (fun _ entries => Summary input (.ok ()) entries)
    (fun exit entries => Summary input (.error exit) entries)

section

variable {input : Input}

/-- Calls in front that start, restore and migrate nothing. -/
theorem Summary.append {result : Except Exit Unit} {front entries : History}
    (h : Summary input result entries)
    (hstops : input.previousComposePaths = none → ∀ event ∈ front, ¬event.IsStop)
    (hthrew : ∀ event ∈ front, ¬event.StartThrew) (hrestore : ∀ event ∈ front, ¬event.IsRestore)
    (hmigrate : (∀ event ∈ front, ¬event.MayMigrate input) ∨
      ∀ event ∈ entries, ¬event.IsRestore) :
    Summary input result (front ++ entries) := by
  constructor
  case stops =>
    intro hnone event hevent
    rcases List.mem_append.mp hevent with hfront | hentries
    · exact hstops hnone event hfront
    · exact h.stops hnone event hentries
  case plain =>
    intro thrown hresult
    rcases h.plain thrown hresult with hnone | ⟨event, hevent, hstart⟩
    · exact .inl hnone
    · exact .inr ⟨event, List.mem_append_right front hevent, hstart⟩
  case threw =>
    rintro ⟨event, hevent, hstart⟩
    rcases List.mem_append.mp hevent with hfront | hentries
    · exact absurd hstart (hthrew event hfront)
    · exact h.threw ⟨event, hentries, hstart⟩
  case rolledBack =>
    intro reason hresult
    obtain ⟨before, paths, up, hup, hentries⟩ := h.rolledBack reason hresult
    refine ⟨front ++ before, paths, up, hup, ?_⟩
    rw [hentries, List.append_assoc]
  case migrated =>
    have hnone : (∀ event ∈ entries, ¬event.IsRestore) →
        ∀ event ∈ front ++ entries, ¬event.IsRestore := by
      intro hentries event hevent
      rcases List.mem_append.mp hevent with hfront | hmem
      · exact hrestore event hfront
      · exact hentries event hmem
    rcases h.migrated with hentries | ⟨more, answer, starts, hentries, hmore, hstarts⟩
    · exact .inl (hnone hentries)
    · rcases hmigrate with hmigrate | hmigrate
      · refine .inr ⟨front ++ more, answer, starts, ?_, ?_, hstarts⟩
        · rw [hentries, List.append_assoc]
        · intro event hevent
          rcases List.mem_append.mp hevent with hfront | hmem
          · exact ⟨hmigrate event hfront, hrestore event hfront⟩
          · exact hmore event hmem
      · exact .inl (hnone hmigrate)

theorem logs_perform {α : Type} (step : History → Answer α) (event : Answer α → Event) :
    Logs (perform step event) (fun a entries => entries = [event (.ok a)])
      (fun exit entries => ∃ thrown, exit = .plain thrown ∧ entries = [event (.error thrown)]) := by
  intro log
  rw [perform]
  cases step log with
  | ok value => exact ⟨_, rfl, rfl⟩
  | error thrown => exact ⟨_, rfl, thrown, rfl, rfl⟩

/-- A stop of the previous version lists its services and stops them, and nothing else. -/
def OnlyStops (input : Input) (entries : History) : Prop :=
  ∀ event ∈ entries, (∃ paths answer, event = .listServices paths answer) ∨
    input.previousComposePaths ≠ none ∧ ∃ paths names answer,
      event = .streamed (.stop paths names) answer

theorem onlyStops_append {front entries : History} (hfront : OnlyStops input front)
    (hentries : OnlyStops input entries) : OnlyStops input (front ++ entries) := by
  intro event hevent
  rcases List.mem_append.mp hevent with hmem | hmem
  · exact hfront event hmem
  · exact hentries event hmem

theorem logs_servicesToStop (previous : List String) :
    Logs (servicesToStop input previous) (fun _ => OnlyStops input)
      (fun _ => OnlyStops input) := by
  refine Logs.bind (Q := fun _ => OnlyStops input) ?_ ?_
  · refine (logs_perform _ _).conseq ?_ ?_
    · rintro listed _ rfl event hevent
      rw [List.mem_singleton] at hevent
      exact .inl ⟨_, _, hevent⟩
    · rintro exit _ ⟨thrown, -, rfl⟩ event hevent
      rw [List.mem_singleton] at hevent
      exact .inl ⟨_, _, hevent⟩
  · intro listed front hfront
    split
    · refine Logs.pure ?_
      rwa [List.append_nil]
    · refine Logs.fail ?_
      rwa [List.append_nil]

theorem logs_stopServices {previous : List String} (names : List String)
    (hprevious : input.previousComposePaths = some previous) :
    Logs (stopServices input previous names) (fun _ => OnlyStops input)
      (fun _ => OnlyStops input) := by
  have hsome : input.previousComposePaths ≠ none := by
    rw [hprevious]
    exact Option.some_ne_none previous
  have hempty : OnlyStops input [] := fun event hevent => absurd hevent List.not_mem_nil
  rw [stopServices]
  split
  · exact Logs.pure hempty
  · refine Logs.bind (Q := fun _ => OnlyStops input) ?_ ?_
    · refine (logs_perform _ _).conseq ?_ ?_
      · rintro stop _ rfl event hevent
        rw [List.mem_singleton] at hevent
        exact .inr ⟨hsome, _, _, _, hevent⟩
      · rintro exit _ ⟨thrown, -, rfl⟩ event hevent
        rw [List.mem_singleton] at hevent
        exact .inr ⟨hsome, _, _, _, hevent⟩
    · intro stop front hfront
      split
      · refine Logs.pure ?_
        rwa [List.append_nil]
      · refine Logs.fail ?_
        rwa [List.append_nil]

theorem logs_stopPrevious (input : Input) :
    Logs (stopPrevious input) (fun _ => OnlyStops input) (fun _ => OnlyStops input) := by
  rw [stopPrevious]
  cases hprevious : input.previousComposePaths with
  | none => exact Logs.pure fun event hevent => absurd hevent List.not_mem_nil
  | some previous =>
    refine Logs.bind (logs_servicesToStop previous) ?_
    intro names front hfront
    exact (logs_stopServices names hprevious).conseq
      (fun _ _ hentries => onlyStops_append hfront hentries)
      (fun _ _ hentries => onlyStops_append hfront hentries)

/-- A version was started and its gate waited for, without anything thrown. -/
def StartedQuietly (entries : History) : Prop :=
  ∀ event ∈ entries, event.IsStart ∧ ¬event.StartThrew

/-- The version is running and its gate passed. -/
def Running (paths : List String) (entries : History) : Prop :=
  ∃ up, up.success = true ∧
    entries = [.streamed (.up paths) (.ok up), .gate paths (.ok .passed)]

/-- A start that threw. -/
def Broke (exit : Exit) (entries : History) : Prop :=
  (∃ thrown, exit = .plain thrown) ∧ (∀ event ∈ entries, event.IsStart) ∧
    ∃ event ∈ entries, event.StartThrew

theorem logs_gateOf (paths : List String) :
    Logs (gateOf input paths)
      (fun failure entries => StartedQuietly entries ∧
        (failure = none → entries = [.gate paths (.ok .passed)]))
      Broke := by
  refine Logs.bind (Q := fun gate entries => entries = [.gate paths (.ok gate)]) ?_ ?_
  · refine (logs_perform _ _).conseq (fun _ _ hentries => hentries) ?_
    rintro exit _ ⟨thrown, rfl, rfl⟩
    refine ⟨⟨thrown, rfl⟩, ?_, _, List.mem_singleton_self _, trivial⟩
    simp [Event.IsStart]
  · rintro gate _ rfl
    cases gate with
    | passed =>
      refine Logs.pure ⟨?_, fun _ => rfl⟩
      simp [StartedQuietly, Event.IsStart, Event.StartThrew]
    | failed detail =>
      refine Logs.pure ⟨?_, fun h => absurd h (by simp)⟩
      simp [StartedQuietly, Event.IsStart, Event.StartThrew]

theorem logs_startAndGate (input : Input) (paths : List String) :
    Logs (startAndGate input paths)
      (fun failure entries => StartedQuietly entries ∧ (failure = none → Running paths entries))
      Broke := by
  refine Logs.bind (Q := fun up entries => entries = [.streamed (.up paths) (.ok up)]) ?_ ?_
  · refine (logs_perform _ _).conseq (fun _ _ hentries => hentries) ?_
    rintro exit _ ⟨thrown, rfl, rfl⟩
    refine ⟨⟨thrown, rfl⟩, ?_, _, List.mem_singleton_self _, trivial⟩
    simp [Event.IsStart]
  · rintro up _ rfl
    split
    · rename_i hup
      refine (logs_gateOf paths).conseq ?_ ?_
      · rintro failure entries ⟨hquiet, hpassed⟩
        constructor
        · intro event hevent
          rcases List.mem_cons.mp hevent with rfl | hmem
          · exact ⟨trivial, not_false⟩
          · exact hquiet event hmem
        · intro hnone
          exact ⟨up, hup, by rw [hpassed hnone]; rfl⟩
      · rintro exit entries ⟨hplain, hstart, event, hmem, hthrew⟩
        refine ⟨hplain, ?_, event, List.mem_cons_of_mem _ hmem, hthrew⟩
        intro event hevent
        rcases List.mem_cons.mp hevent with rfl | hmem
        · exact trivial
        · exact hstart event hmem
    · refine Logs.pure ⟨?_, fun h => absurd h (by simp)⟩
      simp [StartedQuietly, Event.IsStart, Event.StartThrew]

theorem not_isRestore_of_isStart {event : Event} (h : event.IsStart) : ¬event.IsRestore := by
  cases event with
  | restore answer => exact h.elim
  | _ => exact id

theorem not_isStop_of_isStart {event : Event} (h : event.IsStart) : ¬event.IsStop := by
  cases event with
  | streamed command answer =>
    cases command with
    | stop paths names => exact h.elim
    | up paths => exact id
  | _ => exact id

/-- A version that was started, whatever came of it, and no rollback. -/
theorem summary_of_startedQuietly {result : Except Exit Unit} {entries : History}
    (hquiet : StartedQuietly entries)
    (hplain : ∀ thrown, result = .error (.plain thrown) → input.previousComposePaths = none)
    (hrolledBack : ∀ reason, result ≠ .error (.sequential .rolledBack reason)) :
    Summary input result entries where
  stops _ event hevent := not_isStop_of_isStart (hquiet event hevent).1
  plain thrown hresult := .inl (hplain thrown hresult)
  threw := fun ⟨event, hevent, hthrew⟩ => absurd hthrew (hquiet event hevent).2
  rolledBack reason hresult := absurd hresult (hrolledBack reason)
  migrated := .inl fun event hevent => not_isRestore_of_isStart (hquiet event hevent).1

theorem summary_of_broke {exit : Exit} {entries : History} (h : Broke exit entries) :
    Summary input (.error exit) entries := by
  obtain ⟨⟨thrown, rfl⟩, hstart, hthrew⟩ := h
  exact
    { stops := fun _ event hevent => not_isStop_of_isStart (hstart event hevent)
      plain := fun _ _ => .inr hthrew
      threw := fun _ => ⟨thrown, rfl⟩
      rolledBack := fun reason hresult => by simp at hresult
      migrated := .inl fun event hevent => not_isRestore_of_isStart (hstart event hevent) }

/-- A restore, and the starts after it. -/
theorem summary_restore {result : Except Exit Unit} {starts : History}
    (answer : Answer (Option (List String))) (hstarts : ∀ event ∈ starts, event.IsStart)
    (hplain : ∀ thrown, result = .error (.plain thrown) → ∃ event ∈ starts, event.StartThrew)
    (hthrew : (∃ event ∈ starts, event.StartThrew) → ∃ thrown, result = .error (.plain thrown))
    (hrolledBack : ∀ reason, result = .error (.sequential .rolledBack reason) →
      ∃ paths, answer = .ok (some paths) ∧ Running paths starts) :
    Summary input result (.restore answer :: starts) := by
  constructor
  case stops =>
    rintro - event hevent
    rcases List.mem_cons.mp hevent with rfl | hmem
    · exact id
    · exact not_isStop_of_isStart (hstarts event hmem)
  case plain =>
    intro thrown hresult
    obtain ⟨event, hmem, hstart⟩ := hplain thrown hresult
    exact .inr ⟨event, List.mem_cons_of_mem _ hmem, hstart⟩
  case threw =>
    rintro ⟨event, hevent, hstart⟩
    rcases List.mem_cons.mp hevent with rfl | hmem
    · exact hstart.elim
    · exact hthrew ⟨event, hmem, hstart⟩
  case rolledBack =>
    intro reason hresult
    obtain ⟨paths, rfl, up, hup, rfl⟩ := hrolledBack reason hresult
    exact ⟨[], paths, up, hup, rfl⟩
  case migrated =>
    exact .inr ⟨[], answer, starts, rfl, fun event hevent => absurd hevent List.not_mem_nil, hstarts⟩

theorem summarized_restart (reason : String) (restored : List String) :
    Logs (restart input reason restored)
      (fun _ entries => Summary input (.ok ()) (.restore (.ok (some restored)) :: entries))
      (fun exit entries =>
        Summary input (.error exit) (.restore (.ok (some restored)) :: entries)) := by
  refine Logs.bind (Q := fun failure entries => StartedQuietly entries ∧
    (failure = none → Running restored entries)) ?_ ?_
  · refine (logs_startAndGate input restored).conseq (fun _ _ h => h) ?_
    rintro exit entries ⟨⟨thrown, rfl⟩, hstart, hthrew⟩
    exact summary_restore _ hstart (fun _ _ => hthrew) (fun _ => ⟨thrown, rfl⟩)
      (fun _ hresult => by simp at hresult)
  · rintro failure entries ⟨hquiet, hrunning⟩
    cases failure with
    | some failure =>
      refine Logs.fail ?_
      rw [List.append_nil]
      exact summary_restore _ (fun event hevent => (hquiet event hevent).1)
        (fun _ hresult => by simp at hresult)
        (fun ⟨event, hevent, hthrew⟩ => absurd hthrew (hquiet event hevent).2)
        (fun _ hresult => by simp at hresult)
    | none =>
      refine Logs.fail ?_
      rw [List.append_nil]
      exact summary_restore _ (fun event hevent => (hquiet event hevent).1)
        (fun _ hresult => by simp at hresult)
        (fun ⟨event, hevent, hthrew⟩ => absurd hthrew (hquiet event hevent).2)
        (fun _ _ => ⟨restored, rfl, hrunning rfl⟩)

theorem summarized_rollBack (input : Input) (reason : String) :
    Summarized input (rollBack input reason) := by
  rw [rollBack]
  cases hprevious : input.previousComposePaths with
  | none =>
    exact Logs.fail (summary_of_startedQuietly (fun event hevent => absurd hevent List.not_mem_nil)
      (fun _ _ => hprevious) (fun _ hresult => by simp at hresult))
  | some previous =>
    refine Logs.bind (Q := fun restored entries => ∃ answer, entries = [.restore answer] ∧
      (∀ value, restored = .ok value → answer = .ok value)) ?_ ?_
    · refine Logs.attempt ((logs_perform _ _).conseq ?_ ?_)
      · rintro value _ rfl
        exact ⟨.ok value, rfl, fun other hother => by rw [Except.ok.inj hother]⟩
      · rintro exit _ ⟨thrown, -, rfl⟩
        exact ⟨.error thrown, rfl, fun other hother => by simp at hother⟩
    · rintro restored _ ⟨answer, rfl, hanswer⟩
      have hsilent : ∀ text : String, Summary input (.error (.sequential .needsAttention text))
          [.restore answer] := by
        intro text
        exact summary_restore answer (fun event hevent => absurd hevent List.not_mem_nil)
          (fun _ hresult => by simp at hresult) (fun ⟨_, hevent, _⟩ => absurd hevent List.not_mem_nil)
          (fun _ hresult => by simp at hresult)
      cases restored with
      | error exit => exact Logs.fail (hsilent _)
      | ok value =>
        cases value with
        | none => exact Logs.fail (hsilent _)
        | some restored =>
          rw [hanswer (some restored) rfl]
          exact summarized_restart reason restored

/-- A part that ends with a restore does so only where no migration can have run. -/
def NoRestoreAfter (input : Input) (entries : History) : Prop :=
  input.hooksMigrate = true → ∀ event ∈ entries, ¬event.IsRestore

theorem logs_startNew (input : Input) :
    Logs (startNew input)
      (fun _ entries => Summary input (.ok ()) entries ∧ NoRestoreAfter input entries)
      (fun exit entries => Summary input (.error exit) entries ∧ NoRestoreAfter input entries) := by
  refine Logs.bind (Q := fun _ entries => StartedQuietly entries) ?_ ?_
  · refine (logs_startAndGate input input.composePaths).conseq (fun _ _ h => h.1) ?_
    intro exit entries hbroke
    exact ⟨summary_of_broke hbroke,
      fun _ event hevent => not_isRestore_of_isStart (hbroke.2.1 event hevent)⟩
  · intro failure entries hquiet
    have hkept : ∀ event ∈ entries, ¬event.IsRestore :=
      fun event hevent => not_isRestore_of_isStart (hquiet event hevent).1
    cases failure with
    | none =>
      refine Logs.pure ?_
      rw [List.append_nil]
      exact ⟨summary_of_startedQuietly hquiet (fun _ hresult => by simp at hresult)
        (fun _ hresult => by simp at hresult), fun _ => hkept⟩
    | some failure =>
      simp only
      split
      · refine Logs.fail ?_
        rw [List.append_nil]
        exact ⟨summary_of_startedQuietly hquiet (fun _ hresult => by simp at hresult)
          (fun _ hresult => by simp at hresult), fun _ => hkept⟩
      · rename_i hmigrated
        rw [Bool.or_eq_true, not_or] at hmigrated
        have hmay : ∀ event ∈ entries, ¬event.MayMigrate input := by
          intro event hevent
          have hstart := (hquiet event hevent).1
          cases event with
          | streamed command answer =>
            cases command with
            | stop paths names => exact hstart.elim
            | up paths => exact hmigrated.2
          | gate paths answer => exact id
          | _ => exact hstart.elim
        have hfront : ∀ {result : Except Exit Unit} {more : History}, Summary input result more →
            Summary input result (entries ++ more) ∧ NoRestoreAfter input (entries ++ more) := by
          intro result more hsummary
          refine ⟨hsummary.append (fun _ event hevent =>
            not_isStop_of_isStart (hquiet event hevent).1)
            (fun event hevent => (hquiet event hevent).2) hkept (.inl hmay), ?_⟩
          intro hhooks
          exact absurd hhooks hmigrated.1
        exact (summarized_rollBack input failure).conseq (fun _ _ => hfront) (fun _ _ => hfront)

theorem summary_hooks {result : Except Exit Unit} {entries : History} (answer : Answer Unit)
    (h : Summary input result entries) (hrestore : NoRestoreAfter input entries) :
    Summary input result (.hooks answer :: entries) := by
  have hmigrate : (∀ event ∈ [Event.hooks answer], ¬event.MayMigrate input) ∨
      ∀ event ∈ entries, ¬event.IsRestore := by
    by_cases hmigrate : input.hooksMigrate = true
    · exact .inr (hrestore hmigrate)
    · refine .inl ?_
      simp [Event.MayMigrate, hmigrate]
  exact h.append (by simp [Event.IsStop]) (by simp [Event.StartThrew]) (by simp [Event.IsRestore])
    hmigrate

theorem summarized_hooksAndStart (input : Input) : Summarized input (hooksAndStart input) := by
  rw [hooksAndStart]
  split
  · refine Logs.bind (Q := fun _ entries => ∃ answer, entries = [.hooks answer]) ?_ ?_
    · refine Logs.bind (Q := fun _ entries => ∃ answer, entries = [.hooks answer]) ?_ ?_
      · refine Logs.attempt ((logs_perform _ _).conseq ?_ ?_)
        · rintro value _ rfl
          exact ⟨_, rfl⟩
        · rintro exit _ ⟨thrown, -, rfl⟩
          exact ⟨_, rfl⟩
      · rintro outcome _ ⟨answer, rfl⟩
        cases outcome with
        | ok _ => exact Logs.pure ⟨answer, rfl⟩
        | error exit => exact Logs.pure ⟨answer, rfl⟩
    · rintro failure _ ⟨answer, rfl⟩
      cases failure with
      | none =>
        exact (logs_startNew input).conseq (fun _ _ h => summary_hooks answer h.1 h.2)
          (fun _ _ h => summary_hooks answer h.1 h.2)
      | some failure =>
        simp only
        split
        · refine Logs.fail (summary_hooks answer ?_
            fun _ event hevent => absurd hevent List.not_mem_nil)
          exact summary_of_startedQuietly (fun event hevent => absurd hevent List.not_mem_nil)
            (fun _ hresult => by simp at hresult) (fun _ hresult => by simp at hresult)
        · rename_i hmigrate
          exact (summarized_rollBack input failure).conseq
            (fun _ _ h => summary_hooks answer h fun hhooks => absurd hhooks hmigrate)
            (fun _ _ h => summary_hooks answer h fun hhooks => absurd hhooks hmigrate)
  · exact (logs_startNew input).conseq (fun _ _ h => h.1) (fun _ _ h => h.1)

/-- Calls before anything is stopped. -/
def Preparing (entries : History) : Prop :=
  ∀ event ∈ entries, (∃ answer, event = .prepare answer) ∨ ∃ answer, event = .commit answer

theorem logs_commitPoint (input : Input) :
    Logs (commitPoint input) (fun _ => Preparing)
      (fun exit entries => (∃ thrown, exit = .plain thrown) ∧ Preparing entries) := by
  rw [commitPoint]
  cases input.steps.commit with
  | none => exact Logs.pure fun event hevent => absurd hevent List.not_mem_nil
  | some commit =>
    refine (logs_perform _ _).conseq ?_ ?_
    · rintro value _ rfl event hevent
      exact .inr ⟨_, List.mem_singleton.mp hevent⟩
    · rintro exit _ ⟨thrown, rfl, rfl⟩
      refine ⟨⟨thrown, rfl⟩, ?_⟩
      intro event hevent
      exact .inr ⟨_, List.mem_singleton.mp hevent⟩

theorem Summary.append_preparing {result : Except Exit Unit} {front entries : History}
    (h : Summary input result entries) (hfront : Preparing front) :
    Summary input result (front ++ entries) := by
  refine h.append ?_ ?_ ?_ (.inl ?_)
  · rintro - event hevent
    obtain ⟨_, rfl⟩ | ⟨_, rfl⟩ := hfront event hevent
    · exact id
    · exact id
  · intro event hevent
    obtain ⟨_, rfl⟩ | ⟨_, rfl⟩ := hfront event hevent
    · exact id
    · exact id
  · intro event hevent
    obtain ⟨_, rfl⟩ | ⟨_, rfl⟩ := hfront event hevent
    · exact id
    · exact id
  · intro event hevent
    obtain ⟨_, rfl⟩ | ⟨_, rfl⟩ := hfront event hevent
    · exact id
    · exact id

theorem Summary.append_onlyStops {result : Except Exit Unit} {front entries : History}
    (h : Summary input result entries) (hfront : OnlyStops input front) :
    Summary input result (front ++ entries) := by
  refine h.append ?_ ?_ ?_ (.inl ?_)
  · intro hnone event hevent
    obtain ⟨_, _, rfl⟩ | ⟨hsome, -⟩ := hfront event hevent
    · exact id
    · exact absurd hnone hsome
  · intro event hevent
    obtain ⟨_, _, rfl⟩ | ⟨-, _, _, _, rfl⟩ := hfront event hevent
    · exact id
    · exact id
  · intro event hevent
    obtain ⟨_, _, rfl⟩ | ⟨-, _, _, _, rfl⟩ := hfront event hevent
    · exact id
    · exact id
  · intro event hevent
    obtain ⟨_, _, rfl⟩ | ⟨-, _, _, _, rfl⟩ := hfront event hevent
    · exact id
    · exact id

/-- A whole run: a throw before anything is stopped, or a summary. -/
theorem logs_runSequentialDeploy (input : Input) :
    Logs (runSequentialDeploy input) (fun _ entries => Summary input (.ok ()) entries)
      (fun exit entries => (∃ thrown, exit = .plain thrown) ∧ Preparing entries ∨
        Summary input (.error exit) entries) := by
  refine Logs.bind (Q := fun _ => Preparing) ?_ ?_
  · refine (logs_perform _ _).conseq ?_ ?_
    · rintro value _ rfl event hevent
      exact .inl ⟨_, List.mem_singleton.mp hevent⟩
    · rintro exit _ ⟨thrown, rfl, rfl⟩
      refine .inl ⟨⟨thrown, rfl⟩, ?_⟩
      intro event hevent
      exact .inl ⟨_, List.mem_singleton.mp hevent⟩
  intro _ prepared hprepared
  have hjoin : ∀ {committed : History}, Preparing committed →
      Preparing (prepared ++ committed) := by
    intro committed hcommitted event hevent
    rcases List.mem_append.mp hevent with hmem | hmem
    · exact hprepared event hmem
    · exact hcommitted event hmem
  refine Logs.bind (Q := fun _ => Preparing) ?_ ?_
  · refine (logs_commitPoint input).conseq (fun _ _ h => h) ?_
    rintro exit committed ⟨hplain, hcommitted⟩
    exact .inl ⟨hplain, hjoin hcommitted⟩
  intro _ committed hcommitted
  refine Logs.bind (Q := fun _ => OnlyStops input) (Logs.attempt (logs_stopPrevious input)) ?_
  intro stopped stops hstops
  have hfront : ∀ {result : Except Exit Unit} {entries : History}, Summary input result entries →
      Summary input result (prepared ++ (committed ++ (stops ++ entries))) := by
    intro result entries hsummary
    exact ((hsummary.append_onlyStops hstops).append_preparing hcommitted).append_preparing
      hprepared
  cases stopped with
  | error exit =>
    exact (summarized_rollBack input _).conseq (fun _ _ => hfront) (fun _ _ h => .inr (hfront h))
  | ok _ =>
    exact (summarized_hooksAndStart input).conseq (fun _ _ => hfront) (fun _ _ h => .inr (hfront h))

/-! ## What a summary says about the outcome -/

/-- Where a restore ran, no event before it can have migrated. -/
theorem Summary.not_startsPrevious {result : Except Exit Unit} {history : History}
    (h : Summary input result history) (before : History) (event : Event)
    (middle : History) (later : Event) (after : History)
    (hhistory : history = before ++ event :: (middle ++ later :: after))
    (hmigrates : Migrates input before event) : ¬StartsPrevious (before ++ event :: middle) later := by
  rintro ⟨-, paths, hrestored⟩
  have hmem : Event.restore (.ok (some paths)) ∈ history := by
    rw [hhistory]
    rcases List.mem_append.mp hrestored with hmem | hmem
    · exact List.mem_append_left _ hmem
    · apply List.mem_append_right
      rcases List.mem_cons.mp hmem with heq | hmem
      · rw [heq]
        exact List.mem_cons_self
      · exact List.mem_cons_of_mem _ (List.mem_append_left _ hmem)
  rcases h.migrated with hnone | ⟨front, answer, starts, hentries, hfront, hstarts⟩
  · exact hnone _ hmem trivial
  · -- The event stands before the restore, where nothing migrates, or after it.
    rw [hhistory] at hentries
    rcases List.append_eq_append_iff.mp hentries with ⟨more, hmore, hrest⟩ | ⟨more, hmore, hrest⟩
    · cases more with
      | nil =>
        obtain ⟨rfl, -⟩ := List.cons.inj hrest
        exact hmigrates.1
      | cons first more =>
        obtain ⟨rfl, -⟩ := List.cons.inj hrest
        have hin : event ∈ front := by
          rw [hmore]
          exact List.mem_append_right _ List.mem_cons_self
        exact (hfront event hin).1 hmigrates.1
    · cases more with
      | nil =>
        obtain ⟨heq, -⟩ := List.cons.inj hrest
        rw [← heq] at hmigrates
        exact hmigrates.1
      | cons first more =>
        obtain ⟨rfl, -⟩ := List.cons.inj hrest
        refine hmigrates.2 (.restore answer) ?_ trivial
        rw [hmore]
        exact List.mem_append_right _ List.mem_cons_self

theorem Summary.tellsTruth_iff {result : Except Exit Unit} {history : History}
    (h : Summary input result history) :
    TellsTruth input result history ↔ StartsReturn history := by
  constructor
  · rintro htruth ⟨stop, hstop, hisStop⟩ event hevent hthrew
    obtain ⟨thrown, hresult⟩ := h.threw ⟨event, hevent, hthrew⟩
    rcases htruth.plain thrown hresult with hnone | hnone
    · exact hnone stop hstop hisStop
    · exact h.stops hnone stop hstop hisStop
  · intro hreturn
    constructor
    case plain =>
      intro thrown hresult
      rcases h.plain thrown hresult with hnone | ⟨event, hevent, hthrew⟩
      · exact .inr hnone
      · refine .inl ?_
        intro stop hstop hisStop
        exact hreturn ⟨stop, hstop, hisStop⟩ event hevent hthrew
    case rolledBack => exact h.rolledBack
    case migrated => exact h.not_startsPrevious

/-- A throw before anything is stopped. -/
theorem Preparing.tellsTruth_iff {history : History} (h : Preparing history) (thrown : Thrown) :
    TellsTruth input (.error (.plain thrown)) history ↔ StartsReturn history := by
  have hstop : ∀ event ∈ history, ¬event.IsStop := by
    intro event hevent
    obtain ⟨_, rfl⟩ | ⟨_, rfl⟩ := h event hevent
    · exact id
    · exact id
  constructor
  · rintro - ⟨stop, hmem, hisStop⟩
    exact absurd hisStop (hstop stop hmem)
  · intro _
    constructor
    case plain => exact fun _ _ => .inl hstop
    case rolledBack =>
      intro reason hresult
      simp at hresult
    case migrated =>
      rintro before event middle later after rfl - ⟨⟨paths, answer, rfl⟩, -⟩
      obtain ⟨_, heq⟩ | ⟨_, heq⟩ := h (.streamed (.up paths) answer) (by simp)
      · cases heq
      · cases heq

end

/-- For every input and every behaviour of the steps: the reported outcome tells the truth about
the calls that were made if and only if no `up` and no gate throws once a stop was issued. -/
theorem tellsTruth_iff_startsReturn (input : Input) :
    TellsTruth input (runSequentialDeploy input []).1 (runSequentialDeploy input []).2 ↔
      StartsReturn (runSequentialDeploy input []).2 := by
  obtain ⟨entries, hlog, hend⟩ := logs_runSequentialDeploy input []
  rw [List.nil_append] at hlog
  rw [hlog]
  cases hresult : (runSequentialDeploy input []).1 with
  | ok done =>
    rw [hresult] at hend
    exact hend.tellsTruth_iff
  | error exit =>
    rw [hresult] at hend
    rcases hend with ⟨⟨thrown, rfl⟩, hpreparing⟩ | hsummary
    · exact hpreparing.tellsTruth_iff thrown
    · exact hsummary.tellsTruth_iff

/-- Steps that list and stop the one service of the previous version; then the client that
streams `up` cannot be spawned. -/
def brokenUp : Steps where
  prepare _ := .ok ()
  run _ _ := .ok { success := true, stderr := "", stdout := "web" }
  runStreamed _ args :=
    if args.contains "up" then .error (.error "spawn docker EAGAIN")
    else .ok { success := true, stderr := "" }
  runPreDeployHooks _ := .ok ()
  gate _ _ := .ok .passed
  restorePrevious _ := .ok (some ["previous.yml"])
  commit := none
  composeArgs paths := "compose" :: paths
  redact text := text

def brokenUpInput : Input where
  composePaths := ["new.yml"]
  previousComposePaths := some ["previous.yml"]
  keepRunning := []
  hasHooks := false
  hooksMigrate := false
  breakingMigration := false
  steps := brokenUp

theorem runSequentialDeploy_brokenUp : runSequentialDeploy brokenUpInput [] =
    (.error (.plain (.error "spawn docker EAGAIN")),
      [.prepare (.ok ()), .listServices ["previous.yml"] (.ok ⟨true, "", "web"⟩),
        .streamed (.stop ["previous.yml"] ["web"]) (.ok ⟨true, ""⟩),
        .streamed (.up ["new.yml"]) (.error (.error "spawn docker EAGAIN"))]) := by
  rfl

/-- The previous version is stopped, and the run ends with a plain error. -/
theorem brokenUp_not_tellsTruth :
    ¬TellsTruth brokenUpInput (runSequentialDeploy brokenUpInput []).1
      (runSequentialDeploy brokenUpInput []).2 := by
  rw [runSequentialDeploy_brokenUp]
  intro htruth
  rcases htruth.plain _ rfl with hnone | hnone
  · refine hnone (.streamed (.stop ["previous.yml"] ["web"]) (.ok ⟨true, ""⟩)) ?_ trivial
    simp
  · exact absurd hnone (Option.some_ne_none _)

end Turbopaneld.Deploy.Sequential
