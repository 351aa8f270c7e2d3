/-
# When a marker covers every running command

Overlapping commands share one marker.  The end of one of them lets the marker run out while
another is still running, and a begin or end that looked before a stop was held writes over
the hold.  As long as an end that writes finds no other command in flight, a begin does not
write over a held marker and its write takes no time, the marker covers every running
command, and a stop is held until a later command releases it.
-/

import Turbopaneld.Managed.Intent

namespace Turbopaneld.Managed.Intent

open Machines

/-! ## What is asked of the marker -/

/-- Begin has been called and end has not returned. -/
def Command.InFlight (command : Command) : Prop := command.phase ≠ .ended

/-- The probe ignores the cluster. -/
def State.Active (s : State) : Prop := isIntentLookupActive s.lookup s.nowMs = true

/-- A running command is covered for six hours, and a stop that ended with success is until a
command that began after it, or a destroy, ends with success. -/
structure Protected (s : State) : Prop where
  running : ∀ c command ownId returnedAtMs, s.commands c = some command →
    command.phase = .running ownId returnedAtMs →
    s.nowMs < returnedAtMs + managedIntentMaxRunningMs → s.Active
  stopped : 0 < s.stops → s.released = false → s.Active

/-- No command but `c` is in flight. -/
def State.OnlyInFlight (s : State) (c : ℕ) : Prop :=
  ∀ other command, s.commands other = some command → command.InFlight → other = c

/-- The steps at which nothing goes wrong. -/
def Orderly (s : State) : Action → Prop
  | .advance ms => ms = 0 ∨ ∀ c command written, s.commands c = some command →
      command.phase ≠ .beginWriting written
  | .decide c => ∀ command, s.commands c = some command →
      (∀ current, command.phase = .beginLooked current → command.kind ≠ .destroy →
        isHeldIntent current = false → isHeldIntent s.lookup = false) ∧
      ∀ ownId succeeded current, command.phase = .endLooked ownId succeeded current →
        endWrite command.kind ownId succeeded current ≠ Option.none → s.OnlyInFlight c
  | .callEnd c succeeded keepHeld => ∀ command, s.commands c = some command →
      command.kind = .destroy → succeeded = true → keepHeld = false → s.OnlyInFlight c
  | _ => True

/-! ## The invariant -/

/-- The marker is held, or it is a running one with a ceiling at or after `deadline`. -/
def Covers (lookup : IntentLookup) (deadline : ℕ) : Prop :=
  isHeldIntent lookup = true ∨ ∃ intent ceiling, lookup = .found intent ∧
    intent.untilMs = Option.none ∧ intent.maxUntilMs = some ceiling ∧ deadline ≤ ceiling

/-- What a command relies on. -/
def Command.Relies (nowMs : ℕ) (lookup disk : IntentLookup) (command : Command) : Prop :=
  match command.phase with
  | .beginReading => isHeldIntent disk = true → isHeldIntent lookup = true
  | .beginLooked current =>
    command.kind ≠ .destroy → isHeldIntent current = true → isHeldIntent lookup = true
  | .beginWriting written => Covers lookup (nowMs + managedIntentMaxRunningMs) ∧
      (isHeldIntent (.found written) = true → isHeldIntent lookup = true)
  | .running _ returnedAtMs =>
    returnedAtMs ≤ nowMs ∧ Covers lookup (returnedAtMs + managedIntentMaxRunningMs)
  | _ => True

/-- A command that began after the stop, and does not write over its hold. -/
def Command.Respects (stops : ℕ) (command : Command) : Prop :=
  match command.phase with
  | .beginReading => False
  | .beginLooked current => isHeldIntent current = true ∧ command.beganAfter = stops
  | .beginWriting _ => command.kind = .destroy ∧ command.beganAfter = stops
  | .running ownId _ =>
    (command.kind = .destroy ∨ ownId = Option.none) ∧ command.beganAfter = stops
  | .endReading _ _ => False
  | .endLooked ownId succeeded current =>
    endWrite command.kind ownId succeeded current ≠ some .transient
  | _ => True

/-- The end of a command has written or removed the marker. -/
def Phase.AfterEndWrite : Phase → Prop
  | .endWriting _ => True
  | .endRemoving => True
  | _ => False

/-- The command has written or removed the marker and waits for the disk. -/
def Phase.Wrote : Phase → Prop
  | .beginWriting _ => True
  | .endWriting _ => True
  | .endRemoving => True
  | _ => False

theorem Phase.AfterEndWrite.wrote {phase : Phase} (h : phase.AfterEndWrite) : phase.Wrote := by
  cases phase with
  | endWriting written => trivial
  | endRemoving => trivial
  | _ => exact h.elim

structure Inv (s : State) : Prop where
  relies : ∀ c command, s.commands c = some command → command.Relies s.nowMs s.lookup s.disk
  fresh : s.memory = Option.none → ∀ c command, s.commands c = some command →
    ¬command.phase.Wrote
  alone : ∀ c command other reader, s.commands c = some command → command.phase.AfterEndWrite →
    s.commands other = some reader → reader.phase ≠ .beginReading
  holds : 0 < s.stops → s.released = false → isHeldIntent s.lookup = true ∧
    s.memory ≠ Option.none ∧ ∀ c command, s.commands c = some command → command.Respects s.stops

theorem inv_start (disk : IntentLookup) (nowMs : ℕ) : Inv (start disk nowMs) where
  relies _ _ h := by simp [start] at h
  fresh _ _ _ h := by simp [start] at h
  alone _ _ _ _ h := by simp [start] at h
  holds h := by simp [start] at h

/-- What the invariant is for. -/
theorem Inv.protected {s : State} (h : Inv s) : Protected s := by
  have hheld : isHeldIntent s.lookup = true → s.Active := by
    intro hheld
    rw [State.Active]
    cases hlookup : s.lookup with
    | none => simp [hlookup, isHeldIntent] at hheld
    | unreadable => rfl
    | found intent =>
      rw [hlookup] at hheld
      simp only [isHeldIntent, Bool.and_eq_true, decide_eq_true_eq] at hheld
      simp [isIntentLookupActive, isManagedIntentActive, hheld.1, hheld.2]
  constructor
  case running =>
    intro c command ownId returnedAtMs hcommand hphase hwindow
    have hrelies := h.relies c command hcommand
    rw [Command.Relies, hphase] at hrelies
    rcases hrelies.2 with hcovered | ⟨intent, ceiling, hlookup, huntil, hmax, hceiling⟩
    · exact hheld hcovered
    · rw [State.Active, hlookup]
      simp only [isIntentLookupActive, isManagedIntentActive, huntil, hmax, decide_eq_true_eq]
      exact Nat.lt_of_lt_of_le hwindow hceiling
  case stopped =>
    intro hstops hreleased
    exact hheld (h.holds hstops hreleased).1

/-! ## One step -/

section

variable {s : State} {c : ℕ} {command : Command}

theorem update_eq_some {commands : ℕ → Option Command} {other : ℕ} {new found : Command}
    (h : Function.update commands c (some new) other = some found) :
    other = c ∧ found = new ∨ other ≠ c ∧ commands other = some found := by
  by_cases hother : other = c
  · subst hother
    rw [Function.update_self] at h
    exact .inl ⟨rfl, (Option.some.inj h).symm⟩
  · rw [Function.update_of_ne hother] at h
    exact .inr ⟨hother, h⟩

/-- A step of one command that leaves the marker alone. -/
theorem Inv.setPhase_released (h : Inv s) (hcommand : s.commands c = some command) {phase : Phase}
    (released : Bool)
    (hrelies : ({ command with phase } : Command).Relies s.nowMs s.lookup s.disk)
    (hwrote : ¬phase.Wrote) (hreading : phase ≠ .beginReading)
    (hrespects : released = false → s.released = false ∧ (command.Respects s.stops →
      isHeldIntent s.lookup = true → s.memory ≠ Option.none →
      ({ command with phase } : Command).Respects s.stops)) :
    Inv { s.setPhase c command phase with released } := by
  constructor
  case relies =>
    intro other found hfound
    rcases update_eq_some hfound with ⟨-, rfl⟩ | ⟨-, hold⟩
    · exact hrelies
    · exact h.relies other found hold
  case fresh =>
    intro hmemory other found hfound
    rcases update_eq_some hfound with ⟨-, rfl⟩ | ⟨-, hold⟩
    · exact hwrote
    · exact h.fresh hmemory other found hold
  case alone =>
    intro writer found other reader hfound hafter hreader
    rcases update_eq_some hfound with ⟨-, rfl⟩ | ⟨-, hold⟩
    · exact absurd hafter.wrote hwrote
    · rcases update_eq_some hreader with ⟨-, rfl⟩ | ⟨-, hreader⟩
      · exact hreading
      · exact h.alone writer found other reader hold hafter hreader
  case holds =>
    intro hstops hreleased
    obtain ⟨hunreleased, hnew⟩ := hrespects hreleased
    obtain ⟨hheld, hmemory, hall⟩ := h.holds hstops hunreleased
    refine ⟨hheld, hmemory, ?_⟩
    intro other found hfound
    rcases update_eq_some hfound with ⟨-, rfl⟩ | ⟨-, hold⟩
    · exact hnew (hall c command hcommand) hheld hmemory
    · exact hall other found hold

theorem Inv.setPhase (h : Inv s) (hcommand : s.commands c = some command) {phase : Phase}
    (hrelies : ({ command with phase } : Command).Relies s.nowMs s.lookup s.disk)
    (hwrote : ¬phase.Wrote) (hreading : phase ≠ .beginReading)
    (hrespects : command.Respects s.stops →
      ({ command with phase } : Command).Respects s.stops) :
    Inv (s.setPhase c command phase) :=
  h.setPhase_released hcommand s.released hrelies hwrote hreading
    fun hreleased => ⟨hreleased, fun hold _ _ => hrespects hold⟩

theorem inv_begin {kind : ManagedIntentKind} {s' : State} (h : Inv s)
    (hstep : begin s c kind = some s') : Inv s' := by
  rw [begin] at hstep
  cases hfree : s.commands c with
  | some command => simp [hfree] at hstep
  | none =>
    rw [hfree] at hstep
    obtain rfl := Option.some.inj hstep
    by_cases hmemory : s.memory = Option.none
    · rw [if_pos hmemory]
      constructor
      case relies =>
        intro other found hfound
        rcases update_eq_some hfound with ⟨-, rfl⟩ | ⟨-, hold⟩
        · intro hdisk
          rw [State.lookup, hmemory]
          exact hdisk
        · exact h.relies other found hold
      case fresh =>
        intro _ other found hfound
        rcases update_eq_some hfound with ⟨-, rfl⟩ | ⟨-, hold⟩
        · exact id
        · exact h.fresh hmemory other found hold
      case alone =>
        intro writer found other reader hfound hwrote _
        rcases update_eq_some hfound with ⟨-, rfl⟩ | ⟨-, hold⟩
        · exact hwrote.elim
        · exact absurd hwrote.wrote (h.fresh hmemory writer found hold)
      case holds =>
        intro hstops hreleased
        exact absurd hmemory (h.holds hstops hreleased).2.1
    · rw [if_neg hmemory]
      constructor
      case relies =>
        intro other found hfound
        rcases update_eq_some hfound with ⟨-, rfl⟩ | ⟨-, hold⟩
        · exact fun _ hheld => hheld
        · exact h.relies other found hold
      case fresh =>
        intro hnone
        exact absurd hnone hmemory
      case alone =>
        intro writer found other reader hfound hwrote hreader
        rcases update_eq_some hfound with ⟨-, rfl⟩ | ⟨-, hold⟩
        · exact hwrote.elim
        · rcases update_eq_some hreader with ⟨-, rfl⟩ | ⟨-, hreader⟩
          · exact Phase.noConfusion
          · exact h.alone writer found other reader hold hwrote hreader
      case holds =>
        intro hstops hreleased
        obtain ⟨hheld, -, hall⟩ := h.holds hstops hreleased
        refine ⟨hheld, hmemory, ?_⟩
        intro other found hfound
        rcases update_eq_some hfound with ⟨-, rfl⟩ | ⟨-, hold⟩
        · exact ⟨hheld, rfl⟩
        · exact hall other found hold

/-- A held marker covers everything. -/
theorem Command.Relies.of_held {nowMs : ℕ} {lookup disk lookup' disk' : IntentLookup}
    (h : command.Relies nowMs lookup disk) (hheld : isHeldIntent lookup' = true) :
    command.Relies nowMs lookup' disk' := by
  rw [Command.Relies] at h ⊢
  cases hphase : command.phase with
  | beginReading => exact fun _ => hheld
  | beginLooked current => exact fun _ _ => hheld
  | beginWriting written => exact ⟨.inl hheld, fun _ => hheld⟩
  | running ownId returnedAtMs =>
    rw [hphase] at h
    exact ⟨h.1, .inl hheld⟩
  | _ => trivial

/-- Where the marker was not held, a new running one covers everything. -/
theorem Command.Relies.of_running {nowMs : ℕ} {lookup disk : IntentLookup} {id : ℕ}
    {kind : ManagedIntentKind} (h : command.Relies nowMs lookup disk)
    (hnot : isHeldIntent lookup = false) :
    command.Relies nowMs (.found (newIntent id kind .running nowMs managedIntentTtlMs)) disk := by
  have hcovers : ∀ deadline ≤ nowMs + managedIntentMaxRunningMs,
      Covers (.found (newIntent id kind .running nowMs managedIntentTtlMs)) deadline :=
    fun deadline hdeadline => .inr ⟨_, _, rfl, rfl, rfl, hdeadline⟩
  rw [Command.Relies] at h ⊢
  cases hphase : command.phase with
  | beginReading =>
    rw [hphase] at h
    intro hdisk
    exact absurd (h hdisk) (by simp [hnot])
  | beginLooked current =>
    rw [hphase] at h
    intro hkind hcurrent
    exact absurd (h hkind hcurrent) (by simp [hnot])
  | beginWriting written =>
    rw [hphase] at h
    refine ⟨hcovers _ (Nat.le_refl _), ?_⟩
    intro hwritten
    exact absurd (h.2 hwritten) (by simp [hnot])
  | running ownId returnedAtMs =>
    rw [hphase] at h
    exact ⟨h.1, hcovers _ (Nat.add_le_add_right h.1 _)⟩
  | _ => trivial

/-- A begin that writes a marker. -/
theorem Inv.beginWrite (h : Inv s) {written : ManagedIntent}
    (hrelies : ∀ other found, s.commands other = some found →
      found.Relies s.nowMs (.found written) s.disk)
    (hnew : ({ command with phase := .beginWriting written } : Command).Relies s.nowMs
      (.found written) s.disk)
    (hholds : 0 < s.stops → s.released = false → isHeldIntent (.found written) = true ∧
      command.kind = .destroy ∧ command.beganAfter = s.stops) :
    Inv (({ s with nextId := s.nextId + 1, memory := some (.marker written) } : State).setPhase c
      command (.beginWriting written)) := by
  constructor
  case relies =>
    intro other found hfound
    rcases update_eq_some hfound with ⟨-, rfl⟩ | ⟨-, hold⟩
    · exact hnew
    · exact hrelies other found hold
  case fresh => exact fun hnone => nomatch hnone
  case alone =>
    intro writer found other reader hfound hwrote hreader
    rcases update_eq_some hfound with ⟨-, rfl⟩ | ⟨-, hold⟩
    · exact hwrote.elim
    · rcases update_eq_some hreader with ⟨-, rfl⟩ | ⟨-, hreader⟩
      · exact Phase.noConfusion
      · exact h.alone writer found other reader hold hwrote hreader
  case holds =>
    intro hstops hreleased
    obtain ⟨hheld, hrespects⟩ := hholds hstops hreleased
    refine ⟨hheld, Option.some_ne_none _, ?_⟩
    intro other found hfound
    rcases update_eq_some hfound with ⟨-, rfl⟩ | ⟨-, hold⟩
    · exact hrespects
    · exact (h.holds hstops hreleased).2.2 other found hold

/-- An end that writes or removes the marker while no other command is in flight. -/
theorem Inv.of_onlyInFlight (honly : s.OnlyInFlight c) {s' : State} {new : Command}
    (hcommands : s'.commands = Function.update s.commands c (some new))
    (hmemory : s'.memory ≠ Option.none) (hnew : new.phase.AfterEndWrite)
    (hholds : 0 < s'.stops → s'.released = false → isHeldIntent s'.lookup = true) : Inv s' := by
  -- Every other command has ended.
  have hended : ∀ other found, s'.commands other = some found →
      found.phase.AfterEndWrite ∨ found.phase = .ended := by
    intro other found hfound
    rw [hcommands] at hfound
    rcases update_eq_some hfound with ⟨-, rfl⟩ | ⟨hother, hold⟩
    · exact .inl hnew
    · refine .inr ?_
      by_contra hinFlight
      exact hother (honly other found hold hinFlight)
  constructor
  case relies =>
    intro other found hfound
    rw [Command.Relies]
    rcases hended other found hfound with hphase | hphase
    · cases hcase : found.phase with
      | endWriting written => trivial
      | endRemoving => trivial
      | _ => simp [hcase, Phase.AfterEndWrite] at hphase
    · rw [hphase]
      trivial
  case fresh => exact fun hnone => absurd hnone hmemory
  case alone =>
    intro writer found other reader _ _ hreader hreading
    rcases hended other reader hreader with hphase | hphase
    · simp [hreading, Phase.AfterEndWrite] at hphase
    · simp [hreading] at hphase
  case holds =>
    intro hstops hreleased
    refine ⟨hholds hstops hreleased, hmemory, ?_⟩
    intro other found hfound
    rw [Command.Respects]
    rcases hended other found hfound with hphase | hphase
    · cases hcase : found.phase with
      | endWriting written => trivial
      | endRemoving => trivial
      | _ => simp [hcase, Phase.AfterEndWrite] at hphase
    · rw [hphase]
      trivial

theorem inv_beginDecide (h : Inv s) {current : IntentLookup}
    (hcommand : s.commands c = some command) (hphase : command.phase = .beginLooked current)
    (horderly : command.kind ≠ .destroy → isHeldIntent current = false →
      isHeldIntent s.lookup = false) : Inv (beginDecide s c command current) := by
  have hrelies := h.relies c command hcommand
  rw [Command.Relies, hphase] at hrelies
  have hrespects : 0 < s.stops → s.released = false →
      isHeldIntent current = true ∧ command.beganAfter = s.stops := by
    intro hstops hreleased
    have hold := (h.holds hstops hreleased).2.2 c command hcommand
    rwa [Command.Respects, hphase] at hold
  rw [beginDecide]
  split
  · -- A held marker is kept.
    rename_i hkept
    rw [Bool.and_eq_true, decide_eq_true_eq] at hkept
    refine h.setPhase hcommand ?_ id Phase.noConfusion ?_
    · exact ⟨Nat.le_refl _, .inl (hrelies hkept.1 hkept.2)⟩
    · intro hold
      rw [Command.Respects, hphase] at hold
      exact ⟨.inr rfl, hold.2⟩
  · rename_i hkept
    by_cases hkind : command.kind = .destroy
    · rw [if_pos hkind]
      refine h.beginWrite ?_ ?_ ?_
      · exact fun other found hold => (h.relies other found hold).of_held rfl
      · exact ⟨.inl rfl, fun _ => rfl⟩
      · intro hstops hreleased
        exact ⟨rfl, hkind, (hrespects hstops hreleased).2⟩
    · have hcurrent : isHeldIntent current = false := by
        simpa [hkind] using hkept
      rw [if_neg hkind]
      refine h.beginWrite ?_ ?_ ?_
      · exact fun other found hold =>
          (h.relies other found hold).of_running (horderly hkind hcurrent)
      · exact ⟨.inr ⟨_, _, rfl, rfl, rfl, Nat.le_refl _⟩, fun hheld => nomatch hheld⟩
      · intro hstops hreleased
        exact absurd (hrespects hstops hreleased).1 (by simp [hcurrent])

/-- What an end writes: the hold of a stop, or a marker that runs out. -/
theorem endWrite_cases (kind : ManagedIntentKind) (ownId : Option ℕ) (succeeded : Bool)
    (current : IntentLookup) :
    endWrite kind ownId succeeded current = Option.none ∨
      endWrite kind ownId succeeded current = some .held ∨
      endWrite kind ownId succeeded current = some .transient := by
  rw [endWrite]
  split
  · exact .inr (.inl rfl)
  · split
    · exact .inr (.inr rfl)
    · split
      · exact .inl rfl
      · exact .inr (.inr rfl)

theorem inv_endDecide (h : Inv s) {ownId : Option ℕ} {succeeded : Bool} {current : IntentLookup}
    (hcommand : s.commands c = some command)
    (hphase : command.phase = .endLooked ownId succeeded current)
    (horderly : endWrite command.kind ownId succeeded current ≠ Option.none → s.OnlyInFlight c) :
    Inv (endDecide s c command ownId succeeded current) := by
  rw [endDecide]
  rcases endWrite_cases command.kind ownId succeeded current with hwrite | hwrite | hwrite
  · rw [hwrite]
    exact h.setPhase hcommand trivial id Phase.noConfusion
      fun _ => trivial
  · rw [hwrite]
    apply Inv.of_onlyInFlight (horderly (by simp [hwrite]))
    case hcommands => rfl
    case hmemory => exact Option.some_ne_none _
    case hnew => trivial
    case hholds => exact fun _ _ => rfl
  · rw [hwrite]
    apply Inv.of_onlyInFlight (horderly (by simp [hwrite]))
    case hcommands => rfl
    case hmemory => exact Option.some_ne_none _
    case hnew => trivial
    case hholds =>
      intro hstops hreleased
      have hold := (h.holds hstops hreleased).2.2 c command hcommand
      rw [Command.Respects, hphase] at hold
      exact absurd hwrite hold

theorem inv_callEnd (h : Inv s) {ownId : Option ℕ} {returnedAtMs : ℕ} {succeeded keepHeld : Bool}
    (hcommand : s.commands c = some command)
    (hphase : command.phase = .running ownId returnedAtMs)
    (horderly : command.kind = .destroy → succeeded = true → keepHeld = false → s.OnlyInFlight c) :
    Inv (callEnd s c command ownId succeeded keepHeld) := by
  rw [callEnd]
  split
  · exact h.setPhase hcommand trivial id Phase.noConfusion
      fun _ => trivial
  · rename_i hkept
    split
    · rename_i hdestroyed
      simp only [Bool.and_eq_true, decide_eq_true_eq] at hdestroyed
      have hremoved : keepHeld = false := by simpa [hdestroyed] using hkept
      apply Inv.of_onlyInFlight (horderly hdestroyed.2 hdestroyed.1 hremoved)
      case hcommands => rfl
      case hmemory => exact Option.some_ne_none _
      case hnew => trivial
      case hholds => exact fun _ hreleased => nomatch hreleased
    · rename_i hdestroyed
      have hnew : ∀ {phase : Phase}, phase = (if s.memory = Option.none then
            .endReading ownId succeeded else .endLooked ownId succeeded s.lookup) →
          ({ command with phase } : Command).Relies s.nowMs s.lookup s.disk ∧
            ¬phase.Wrote ∧ phase ≠ .beginReading := by
        rintro phase rfl
        split
        · exact ⟨trivial, id, Phase.noConfusion⟩
        · exact ⟨trivial, id, Phase.noConfusion⟩
      obtain ⟨hrelies, hwrote, hreading⟩ := hnew rfl
      refine h.setPhase_released hcommand _ hrelies hwrote hreading ?_
      intro hreleased
      rw [Bool.or_eq_false_iff] at hreleased
      refine ⟨hreleased.1, ?_⟩
      intro hold hheld hmemory
      rw [Command.Respects, hphase] at hold
      rw [if_neg hmemory]
      change endWrite command.kind ownId succeeded s.lookup ≠ some .transient
      -- The command began after the stop, so it does not release it with success.
      have hnotReleasing : (succeeded && releasesHeld command.kind) = false := by
        simpa [hold.2] using hreleased.2
      have hnotOwner : (!owns ownId s.lookup || decide (command.kind = .destroy)) = true := by
        rcases hold.1 with hkind | hown
        · simp [hkind]
        · rw [hown]
          cases s.lookup with
          | _ => rfl
      unfold endWrite
      rw [hnotReleasing, hnotOwner, Bool.false_and, if_neg Bool.false_ne_true, if_pos rfl]
      split
      · exact fun heq => nomatch heq
      · exact fun heq => nomatch heq

theorem inv_advance (h : Inv s) {ms : ℕ} (horderly : Orderly s (.advance ms)) :
    Inv { s with nowMs := s.nowMs + ms } := by
  constructor
  case relies =>
    intro other found hfound
    have hrelies := h.relies other found hfound
    rw [Command.Relies] at hrelies ⊢
    cases hphase : found.phase with
    | beginWriting written =>
      rw [hphase] at hrelies
      rcases horderly with rfl | hnone
      · exact hrelies
      · exact absurd hphase (hnone other found written hfound)
    | running ownId returnedAtMs =>
      rw [hphase] at hrelies
      exact ⟨Nat.le_trans hrelies.1 (Nat.le_add_right _ _), hrelies.2⟩
    | _ =>
      rw [hphase] at hrelies
      exact hrelies
  case fresh => exact h.fresh
  case alone => exact h.alone
  case holds => exact h.holds

/-- A disk write or removal that takes effect. -/
theorem Inv.setDisk (h : Inv s) {disk : IntentLookup}
    (hdisk : ∀ other reader, s.commands other = some reader → reader.phase = .beginReading →
      isHeldIntent disk = true → isHeldIntent s.lookup = true)
    (hmemory : s.memory ≠ Option.none) : Inv { s with disk } := by
  have hlookup : ({ s with disk } : State).lookup = s.lookup := by
    obtain ⟨slot, hslot⟩ := Option.ne_none_iff_exists'.mp hmemory
    simp only [State.lookup, hslot]
    cases slot with
    | cleared => rfl
    | marker intent => rfl
  constructor
  case relies =>
    intro other found hfound
    have hrelies := h.relies other found hfound
    rw [hlookup]
    rw [Command.Relies] at hrelies ⊢
    cases hphase : found.phase with
    | beginReading => exact hdisk other found hfound hphase
    | _ =>
      rw [hphase] at hrelies
      exact hrelies
  case fresh => exact h.fresh
  case alone => exact h.alone
  case holds =>
    rw [hlookup]
    exact h.holds

theorem inv_land {s' : State} (h : Inv s) (hstep : step s (.land c) = some s') : Inv s' := by
  obtain ⟨command, hcommand, hstep⟩ := Option.bind_eq_some_iff.mp hstep
  have hmemory : command.phase.Wrote → s.memory ≠ Option.none :=
    fun hwrote hnone => h.fresh hnone c command hcommand hwrote
  cases hphase : command.phase with
  | beginWriting written =>
    rw [hphase] at hstep hmemory
    obtain rfl := Option.some.inj hstep
    refine h.setDisk ?_ (hmemory trivial)
    intro _ _ _ _ hwritten
    have hrelies := h.relies c command hcommand
    rw [Command.Relies, hphase] at hrelies
    exact hrelies.2 hwritten
  | endWriting written =>
    rw [hphase] at hstep hmemory
    obtain rfl := Option.some.inj hstep
    refine h.setDisk ?_ (hmemory trivial)
    intro other reader hreader hreading
    have hafter : command.phase.AfterEndWrite := by
      rw [hphase]
      trivial
    exact absurd hreading (h.alone c command other reader hcommand hafter hreader)
  | endRemoving =>
    rw [hphase] at hstep hmemory
    obtain rfl := Option.some.inj hstep
    refine h.setDisk ?_ (hmemory trivial)
    exact fun _ _ _ _ hheld => nomatch hheld
  | _ => simp [hphase] at hstep

theorem inv_settle {s' : State} (h : Inv s) (hstep : step s (.settle c) = some s') : Inv s' := by
  obtain ⟨command, hcommand, hstep⟩ := Option.bind_eq_some_iff.mp hstep
  cases hphase : command.phase with
  | beginWriting written =>
    rw [hphase] at hstep
    obtain rfl := Option.some.inj hstep
    have hrelies := h.relies c command hcommand
    rw [Command.Relies, hphase] at hrelies
    refine h.setPhase hcommand ⟨Nat.le_refl _, hrelies.1⟩ id Phase.noConfusion ?_
    intro hold
    rw [Command.Respects, hphase] at hold
    exact ⟨.inl hold.1, hold.2⟩
  | endWriting written =>
    rw [hphase] at hstep
    obtain rfl := Option.some.inj hstep
    exact h.setPhase hcommand trivial id Phase.noConfusion fun _ => trivial
  | endRemoving =>
    rw [hphase] at hstep
    obtain rfl := Option.some.inj hstep
    exact h.setPhase hcommand trivial id Phase.noConfusion fun _ => trivial
  | _ => simp [hphase] at hstep

theorem inv_read {s' : State} (h : Inv s) (hstep : step s (.read c) = some s') : Inv s' := by
  obtain ⟨command, hcommand, hstep⟩ := Option.bind_eq_some_iff.mp hstep
  cases hphase : command.phase with
  | beginReading =>
    rw [hphase] at hstep
    obtain rfl := Option.some.inj hstep
    have hrelies := h.relies c command hcommand
    rw [Command.Relies, hphase] at hrelies
    refine h.setPhase hcommand (fun _ => hrelies) id Phase.noConfusion ?_
    intro hold
    rw [Command.Respects, hphase] at hold
    exact hold.elim
  | endReading ownId succeeded =>
    rw [hphase] at hstep
    obtain rfl := Option.some.inj hstep
    refine h.setPhase hcommand trivial id Phase.noConfusion ?_
    intro hold
    rw [Command.Respects, hphase] at hold
    exact hold.elim
  | _ => simp [hphase] at hstep

end

/-- Every orderly step keeps the invariant. -/
theorem inv_step (s : State) (a : Action) (s' : State) (h : Inv s) (horderly : Orderly s a)
    (hstep : step s a = some s') : Inv s' := by
  cases a with
  | advance ms =>
    obtain rfl := Option.some.inj hstep
    exact inv_advance h horderly
  | begin c kind => exact inv_begin h hstep
  | read c => exact inv_read h hstep
  | decide c =>
    obtain ⟨command, hcommand, hstep⟩ := Option.bind_eq_some_iff.mp hstep
    obtain ⟨hbegin, hend⟩ := horderly command hcommand
    cases hphase : command.phase with
    | beginLooked current =>
      rw [hphase] at hstep
      obtain rfl := Option.some.inj hstep
      exact inv_beginDecide h hcommand hphase (hbegin current hphase)
    | endLooked ownId succeeded current =>
      rw [hphase] at hstep
      obtain rfl := Option.some.inj hstep
      exact inv_endDecide h hcommand hphase (hend ownId succeeded current hphase)
    | _ => simp [hphase] at hstep
  | land c => exact inv_land h hstep
  | settle c => exact inv_settle h hstep
  | callEnd c succeeded keepHeld =>
    obtain ⟨command, hcommand, hstep⟩ := Option.bind_eq_some_iff.mp hstep
    cases hphase : command.phase with
    | running ownId returnedAtMs =>
      rw [hphase] at hstep
      obtain rfl := Option.some.inj hstep
      exact inv_callEnd h hcommand hphase (horderly command hcommand)
    | _ => simp [hphase] at hstep

/-- In every run of orderly steps the marker protects the commands on the cluster. -/
theorem protected_of_orderly {disk : IntentLookup} {nowMs : ℕ} {s : State}
    (h : Reaches step Orderly (start disk nowMs) s) : Protected s :=
  (h.invariant (inv_start disk nowMs) inv_step).protected

/-- A restart that begins and ends while an apply is running; ten minutes and a half later the
marker has run out, and the apply is still running. -/
def overlappingRun : List Action :=
  [.begin 0 .apply, .read 0, .decide 0, .settle 0, .begin 1 .restart, .decide 1, .settle 1,
    .callEnd 1 true false, .decide 1, .settle 1, .advance 630000]

/-- The probe is not told of a command that is running. -/
theorem overlappingRun_not_protected :
    ∃ s, Reaches step (fun _ _ => True) (start .none 0) s ∧ ¬Protected s := by
  have hends : (runFrom step (start .none 0) overlappingRun).map (fun s =>
      (s.commands 0, s.nowMs, isIntentLookupActive s.lookup s.nowMs)) =
      some (some ⟨.apply, .running (some 0) 0, 0⟩, 630000, false) := by
    decide +kernel
  obtain ⟨s, hrun, hstate⟩ := Option.map_eq_some_iff.mp hends
  obtain ⟨hcommand, hnow, hinactive⟩ : s.commands 0 = some ⟨.apply, .running (some 0) 0, 0⟩ ∧
      s.nowMs = 630000 ∧ isIntentLookupActive s.lookup s.nowMs = false := by
    simpa using hstate
  refine ⟨s, Reaches.refl.of_runFrom hrun, ?_⟩
  intro hprotected
  have hactive := hprotected.running 0 _ (some 0) 0 hcommand rfl (by rw [hnow]; decide)
  rw [State.Active, hinactive] at hactive
  exact Bool.false_ne_true hactive

/-- The hold of a stop of an earlier process. -/
def heldStop : ManagedIntent := newIntent 0 .stop .held 0 managedIntentTtlMs

/-- An apply on a stopped cluster keeps the hold; an hour passes. -/
theorem protected_of_soloRun : ∃ s command, Reaches step Orderly (start (.found heldStop) 0) s ∧
    s.commands 0 = some command ∧ command.phase = .running Option.none 0 ∧ s.nowMs = 3600000 ∧
    Protected s := by
  have hbegin : Reaches step Orderly (start (.found heldStop) 0) _ :=
    Reaches.refl.tail (a := Action.begin 0 .apply) trivial rfl
  have hread := hbegin.tail (a := Action.read 0) trivial rfl
  have hdecide := hread.tail (a := Action.decide 0) (by
    intro command hcommand
    obtain rfl := Option.some.inj hcommand
    refine ⟨?_, fun _ _ _ hphase => Phase.noConfusion hphase⟩
    intro current hphase _ hnot
    obtain rfl := Phase.beginLooked.inj hphase
    exact absurd hnot (by decide)) rfl
  have hadvance := hdecide.tail (a := Action.advance 3600000) (.inr (by
    intro c command written hcommand hphase
    rcases update_eq_some hcommand with ⟨-, rfl⟩ | ⟨hne, hold⟩
    · exact Phase.noConfusion hphase
    · rcases update_eq_some hold with ⟨heq, -⟩ | ⟨-, hold⟩
      · exact hne heq
      · rcases update_eq_some hold with ⟨heq, -⟩ | ⟨-, hold⟩
        · exact hne heq
        · cases hold)) rfl
  exact ⟨_, _, hadvance, rfl, rfl, rfl, protected_of_orderly hadvance⟩

end Turbopaneld.Managed.Intent
