/-
# The marker of a hold

The boot hold, commands, the guard and the probe write one marker for each cluster.  While a
cluster is held its marker is a held stop that no command takes for its own, so that only the
end of a command that succeeds, or a destroy, replaces it: as long as a command writes on a
look that still holds.
-/

import Turbopaneld.Managed.BootHold
import Turbopaneld.Managed.IntentRuns

namespace Turbopaneld.Managed.BootHold

open Programs Machines Intent

/-! ## Markers in memory -/

/-- A command never takes its marker out of memory. -/
theorem memory_ne_none_of_step {s s' : Intent.State} {action : Intent.Action}
    (h : Intent.step s action = some s') (hmemory : s.memory ≠ none) : s'.memory ≠ none := by
  cases action with
  | advance ms =>
    obtain rfl := Option.some.inj h
    exact hmemory
  | begin c kind =>
    rw [Intent.step, Intent.begin] at h
    cases hfree : s.commands c with
    | some command => simp [hfree] at h
    | none =>
      rw [hfree] at h
      obtain rfl := Option.some.inj h
      exact hmemory
  | read c =>
    obtain ⟨command, -, h⟩ := Option.bind_eq_some_iff.mp h
    split at h <;> first | (obtain rfl := Option.some.inj h; exact hmemory) | cases h
  | decide c =>
    obtain ⟨command, -, h⟩ := Option.bind_eq_some_iff.mp h
    split at h
    · obtain rfl := Option.some.inj h
      rw [beginDecide]
      split
      · exact hmemory
      · exact Option.some_ne_none _
    · obtain rfl := Option.some.inj h
      rw [endDecide]
      split
      · exact hmemory
      · dsimp only
        split <;> exact Option.some_ne_none _
    · cases h
  | land c =>
    obtain ⟨command, -, h⟩ := Option.bind_eq_some_iff.mp h
    split at h <;> first | (obtain rfl := Option.some.inj h; exact hmemory) | cases h
  | settle c =>
    obtain ⟨command, -, h⟩ := Option.bind_eq_some_iff.mp h
    split at h <;> first | (obtain rfl := Option.some.inj h; exact hmemory) | cases h
  | callEnd c succeeded keepHeld =>
    obtain ⟨command, -, h⟩ := Option.bind_eq_some_iff.mp h
    split at h
    · obtain rfl := Option.some.inj h
      rw [callEnd]
      split
      · exact hmemory
      · split
        · exact Option.some_ne_none _
        · exact hmemory
    · cases h

/-- A command that releases its cluster leaves a marker, or a cleared one. -/
theorem memory_ne_none_of_releasing {s s' : Intent.State} {action : Intent.Action}
    (h : Intent.step s action = some s') (hreleasing : releasing s action = true) :
    s'.memory ≠ none := by
  cases action with
  | decide c =>
    obtain ⟨⟨kind, phase, beganAfter⟩, hcommand, h⟩ := Option.bind_eq_some_iff.mp h
    rw [releasing, hcommand] at hreleasing
    cases phase with
    | endLooked ownId succeeded current =>
      obtain rfl := Option.some.inj h
      simp only [Bool.and_eq_true] at hreleasing
      obtain ⟨mode, hmode⟩ := Option.isSome_iff_exists.mp hreleasing.2
      rw [endDecide]
      simp only [hmode]
      split <;> exact Option.some_ne_none _
    | _ => cases hreleasing
  | callEnd c succeeded keepHeld =>
    obtain ⟨⟨kind, phase, beganAfter⟩, hcommand, h⟩ := Option.bind_eq_some_iff.mp h
    rw [releasing, hcommand] at hreleasing
    cases phase with
    | running ownId returnedAtMs =>
      obtain rfl := Option.some.inj h
      simp only [Bool.and_eq_true, decide_eq_true_eq, Bool.not_eq_true'] at hreleasing
      obtain ⟨⟨rfl, rfl⟩, rfl⟩ := hreleasing
      exact Option.some_ne_none _
    | _ => cases hreleasing
  | _ => cases hreleasing

theorem setIntent_memory {s : Host} {id : String} {intent : Intent.State} {managedId : String}
    (h : (s.intents id).memory ≠ none) (hintent : id = managedId → intent.memory ≠ none) :
    ((s.setIntent managedId intent).intents id).memory ≠ none := by
  change (Function.update s.intents managedId intent id).memory ≠ none
  by_cases hid : id = managedId
  · subst hid
    rw [Function.update_self]
    exact hintent rfl
  · rwa [Function.update_of_ne hid]

theorem commandStep_eq_some {s s' : Host} {managedId : String} {action : Intent.Action}
    (h : commandStep s managedId action = some s') :
    ∃ intent, Intent.step (s.intents managedId) action = some intent ∧
      (if releasing (s.intents managedId) action then (s.setIntent managedId intent).release managedId
        else s.setIntent managedId intent) = s' := by
  cases action with
  | advance ms => cases h
  | _ => exact Option.map_eq_some_iff.mp h

/-! ## The marker of a hold -/

/-- The marker a command wrote and may refresh. -/
def ownMarker : Phase → Option ℕ
  | .beginWriting written => some written.id
  | .running ownId _ => ownId
  | .endReading ownId _ => ownId
  | .endLooked ownId _ _ => ownId
  | _ => none

/-- While the cluster is held its marker is a held stop that no command takes for its own. -/
structure MarkerKept (s : Intent.State) (held : Bool) : Prop where
  fresh : ∀ c command id, s.commands c = some command → ownMarker command.phase = some id →
    id < s.nextId
  wrote : s.memory = none → ∀ c command, s.commands c = some command → ¬command.phase.Wrote
  marker : held = true → ∃ intent, s.lookup = .found intent ∧
    isHeldStop (.found intent) = true ∧ intent.id < s.nextId ∧
    ∀ c command, s.commands c = some command → ownMarker command.phase ≠ some intent.id

/-- A command writes a marker on a look that still holds, and a destroy does not begin on a
cluster that is held. -/
def KeepingDecision (s : Intent.State) (held : Bool) (command : Command) : Prop :=
  match command.phase with
  | .beginLooked current =>
    (command.kind = .destroy → held = false) ∧
      (command.kind ≠ .destroy → isHeldStop s.lookup = true → isHeldIntent current = true)
  | .endLooked _ _ current => isHeldStop s.lookup = true → current = s.lookup
  | _ => True

section

variable {s s' : Intent.State} {held : Bool} {c : ℕ} {command : Command}

theorem MarkerKept.mono {held' : Bool} (h : MarkerKept s held)
    (hheld : held' = true → held = true) : MarkerKept s held' :=
  ⟨h.fresh, h.wrote, fun hheld' => h.marker (hheld hheld')⟩

/-- While a marker is in memory the disk copy is not looked at. -/
theorem MarkerKept.setDisk (h : MarkerKept s held) (hmemory : s.memory ≠ none)
    (disk : IntentLookup) : MarkerKept { s with disk } held := by
  refine ⟨h.fresh, h.wrote, ?_⟩
  intro hheld
  obtain ⟨intent, hlookup, hkept⟩ := h.marker hheld
  refine ⟨intent, ?_, hkept⟩
  rw [← hlookup]
  change lookupManagedIntent s.memory disk = lookupManagedIntent s.memory s.disk
  obtain ⟨slot, hslot⟩ := Option.ne_none_iff_exists'.mp hmemory
  rw [hslot]
  cases slot <;> rfl

/-- A step of one command that leaves the marker alone. -/
theorem MarkerKept.setCommand (h : MarkerKept s held) {new : Command} (stops : ℕ) (released : Bool)
    (hown : ∀ id, ownMarker new.phase = some id →
      ∃ old, s.commands c = some old ∧ ownMarker old.phase = some id)
    (hwrote : ¬new.phase.Wrote) :
    MarkerKept { s with
      commands := Function.update s.commands c (some new), stops, released } held := by
  constructor
  case fresh =>
    intro other found id hfound hid
    rcases update_eq_some hfound with ⟨-, rfl⟩ | ⟨-, hold⟩
    · obtain ⟨old, hold, hold_own⟩ := hown id hid
      exact h.fresh c old id hold hold_own
    · exact h.fresh other found id hold hid
  case wrote =>
    intro hmemory other found hfound
    rcases update_eq_some hfound with ⟨-, rfl⟩ | ⟨-, hold⟩
    · exact hwrote
    · exact h.wrote hmemory other found hold
  case marker =>
    intro hheld
    obtain ⟨intent, hlookup, hstop, hid, hunowned⟩ := h.marker hheld
    refine ⟨intent, hlookup, hstop, hid, ?_⟩
    intro other found hfound hown_id
    rcases update_eq_some hfound with ⟨-, rfl⟩ | ⟨-, hold⟩
    · obtain ⟨old, hold, hold_own⟩ := hown _ hown_id
      exact hunowned c old hold hold_own
    · exact hunowned other found hold hown_id

/-- A step of one command that writes a marker.  The cluster is held after it only where the
marker is a held stop that is no one's own. -/
theorem MarkerKept.record (h : MarkerKept s held) {new : Command} {intent : ManagedIntent}
    {held' : Bool} (stops : ℕ) (released : Bool) (hintent : intent.id = s.nextId)
    (hown : ∀ id, ownMarker new.phase = some id → id = s.nextId)
    (hheld : held' = true → isHeldStop (.found intent) = true ∧ ownMarker new.phase = none) :
    MarkerKept { s with
      nextId := s.nextId + 1, memory := some (.marker intent),
      commands := Function.update s.commands c (some new), stops, released } held' := by
  constructor
  case fresh =>
    intro other found id hfound hid
    rcases update_eq_some hfound with ⟨-, rfl⟩ | ⟨-, hold⟩
    · rw [hown id hid]
      exact Nat.lt_succ_self _
    · exact Nat.lt_succ_of_lt (h.fresh other found id hold hid)
  case wrote => exact fun hmemory => nomatch hmemory
  case marker =>
    intro hheld'
    obtain ⟨hstop, hnone⟩ := hheld hheld'
    refine ⟨intent, rfl, hstop, hintent ▸ Nat.lt_succ_self _, ?_⟩
    intro other found hfound hown_id
    rcases update_eq_some hfound with ⟨-, rfl⟩ | ⟨-, hold⟩
    · exact absurd hown_id (by simp [hnone])
    · exact absurd (h.fresh other found _ hold hown_id) (by simp [hintent])

/-- What the end of a command writes, and why. -/
theorem endWrite_eq_some {kind : ManagedIntentKind} {ownId : Option ℕ} {succeeded : Bool}
    {current : IntentLookup} {mode : ManagedIntentMode}
    (h : endWrite kind ownId succeeded current = some mode) :
    mode = .held ∧ kind = .stop ∨ mode = .transient ∧
      (succeeded = true ∧ releasesHeld kind = true ∨ owns ownId current = true) := by
  rw [endWrite] at h
  split at h
  case isTrue hstop =>
    simp only [Bool.and_eq_true, decide_eq_true_eq] at hstop
    exact .inl ⟨(Option.some.inj h).symm, hstop.2⟩
  case isFalse =>
    split at h
    case isTrue hrelease =>
      simp only [Bool.and_eq_true] at hrelease
      exact .inr ⟨(Option.some.inj h).symm, .inl hrelease.1⟩
    case isFalse =>
      split at h
      case isTrue => cases h
      case isFalse howns =>
        simp only [Bool.or_eq_true, Bool.not_eq_true', decide_eq_true_eq, not_or,
          Bool.not_eq_false] at howns
        exact .inr ⟨(Option.some.inj h).symm, .inr howns.1⟩

/-- The end of a command keeps the marker of a hold, or releases it. -/
theorem MarkerKept.endDecide (h : MarkerKept s held) {ownId : Option ℕ} {succeeded : Bool}
    {current : IntentLookup} (hcommand : s.commands c = some command)
    (hphase : command.phase = .endLooked ownId succeeded current)
    (hkeeping : isHeldStop s.lookup = true → current = s.lookup) {held' : Bool}
    (hheld : held' = true → held = true ∧ ¬(succeeded = true ∧ releasesHeld command.kind = true ∧
      (endWrite command.kind ownId succeeded current).isSome = true)) :
    MarkerKept (Intent.endDecide s c command ownId succeeded current) held' := by
  rw [Intent.endDecide]
  cases hwrite : endWrite command.kind ownId succeeded current with
  | none =>
    exact (h.mono fun hheld' => (hheld hheld').1).setCommand s.stops s.released
      (fun _ hid => by cases hid) (fun hwrote => hwrote)
  | some mode =>
    rw [hwrite] at hheld
    rcases endWrite_eq_some hwrite with ⟨rfl, hstop⟩ | ⟨rfl, hwhy⟩
    · exact h.record (s.stops + 1) false rfl (fun _ hid => by cases hid) fun _ =>
        ⟨by simp [isHeldStop, isHeldIntent, newIntent, hstop], rfl⟩
    · refine h.record s.stops s.released rfl (fun _ hid => by cases hid) ?_
      intro hheld'
      obtain ⟨hbefore, hnot⟩ := hheld hheld'
      obtain ⟨intent, hlookup, hstop, -, hunowned⟩ := h.marker hbefore
      have hcurrent : current = .found intent :=
        (hkeeping (by rw [hlookup]; exact hstop)).trans hlookup
      rcases hwhy with ⟨hsucceeded, hreleases⟩ | howns
      · exact absurd ⟨hsucceeded, hreleases, rfl⟩ hnot
      · -- No command owns the marker of a hold.
        rw [hcurrent] at howns
        have hne := hunowned c command hcommand
        rw [hphase] at hne
        cases ownId with
        | none => cases howns
        | some id => exact absurd (congrArg some (of_decide_eq_true howns).symm) hne

/-- The begin of a command keeps the marker of a hold. -/
theorem MarkerKept.beginDecide (h : MarkerKept s held) {current : IntentLookup}
    (hdestroy : command.kind = .destroy → held = false)
    (hlooked : command.kind ≠ .destroy → isHeldStop s.lookup = true →
      isHeldIntent current = true) :
    MarkerKept (Intent.beginDecide s c command current) held := by
  rw [Intent.beginDecide]
  split
  case isTrue =>
    exact h.setCommand s.stops s.released (fun _ hid => by cases hid) (fun hwrote => hwrote)
  case isFalse hwrites =>
    refine h.record s.stops s.released rfl (fun id hid => (Option.some.inj hid).symm) ?_
    intro hheld
    obtain ⟨intent, hlookup, hstop, -⟩ := h.marker hheld
    by_cases hkind : command.kind = .destroy
    · exact absurd hheld (by simp [hdestroy hkind])
    · have hcurrent := hlooked hkind (by rw [hlookup]; exact hstop)
      exact absurd hwrites (by simp [hkind, hcurrent])

/-- A step of a command keeps the marker of a hold, or releases it. -/
theorem MarkerKept.step {action : Intent.Action} {held' : Bool} (h : MarkerKept s held)
    (hstep : Intent.step s action = some s')
    (hkeeping : ∀ c command, action = .decide c → s.commands c = some command →
      KeepingDecision s held command)
    (hheld : held' = true → held = true ∧ releasing s action = false) :
    MarkerKept s' held' := by
  have hkept : MarkerKept s held' := h.mono fun hheld' => (hheld hheld').1
  cases action with
  | advance ms =>
    obtain rfl := Option.some.inj hstep
    exact ⟨hkept.fresh, hkept.wrote, hkept.marker⟩
  | begin c kind =>
    rw [Intent.step, Intent.begin] at hstep
    cases hfree : s.commands c with
    | some command => simp [hfree] at hstep
    | none =>
      rw [hfree] at hstep
      obtain rfl := Option.some.inj hstep
      refine hkept.setCommand s.stops s.released ?_ ?_
      · intro id hid
        dsimp only at hid
        split at hid <;> cases hid
      · dsimp only
        split <;> exact fun hwrote => hwrote
  | read c =>
    obtain ⟨command, hcommand, hstep⟩ := Option.bind_eq_some_iff.mp hstep
    cases hphase : command.phase with
    | beginReading =>
      rw [hphase] at hstep
      obtain rfl := Option.some.inj hstep
      exact hkept.setCommand s.stops s.released (fun _ hid => by cases hid) (fun hwrote => hwrote)
    | endReading ownId succeeded =>
      rw [hphase] at hstep
      obtain rfl := Option.some.inj hstep
      exact hkept.setCommand s.stops s.released
        (fun id hid => ⟨command, hcommand, by rw [hphase]; exact hid⟩) (fun hwrote => hwrote)
    | _ =>
      rw [hphase] at hstep
      cases hstep
  | decide c =>
    obtain ⟨command, hcommand, hstep⟩ := Option.bind_eq_some_iff.mp hstep
    have hkeeps := hkeeping c command rfl hcommand
    rw [KeepingDecision] at hkeeps
    cases hphase : command.phase with
    | beginLooked current =>
      rw [hphase] at hstep hkeeps
      obtain rfl := Option.some.inj hstep
      exact (h.beginDecide hkeeps.1 hkeeps.2).mono fun hheld' => (hheld hheld').1
    | endLooked ownId succeeded current =>
      rw [hphase] at hstep hkeeps
      obtain rfl := Option.some.inj hstep
      refine h.endDecide hcommand hphase hkeeps ?_
      intro hheld'
      obtain ⟨hbefore, hreleasing⟩ := hheld hheld'
      refine ⟨hbefore, ?_⟩
      rintro ⟨hsucceeded, hreleases, hwrites⟩
      obtain ⟨kind, phase, beganAfter⟩ := command
      dsimp only at hphase
      subst hphase
      rw [releasing, hcommand] at hreleasing
      simp [hsucceeded, hreleases] at hreleasing hwrites
      simp [hreleasing] at hwrites
    | _ =>
      rw [hphase] at hstep
      cases hstep
  | land c =>
    obtain ⟨command, hcommand, hstep⟩ := Option.bind_eq_some_iff.mp hstep
    have hmemory : command.phase.Wrote → s.memory ≠ none := fun hwrote hnone =>
      h.wrote hnone c command hcommand hwrote
    cases hphase : command.phase with
    | beginWriting written =>
      rw [hphase] at hstep hmemory
      obtain rfl := Option.some.inj hstep
      exact hkept.setDisk (hmemory trivial) _
    | endWriting written =>
      rw [hphase] at hstep hmemory
      obtain rfl := Option.some.inj hstep
      exact hkept.setDisk (hmemory trivial) _
    | endRemoving =>
      rw [hphase] at hstep hmemory
      obtain rfl := Option.some.inj hstep
      exact hkept.setDisk (hmemory trivial) _
    | _ =>
      rw [hphase] at hstep
      cases hstep
  | settle c =>
    obtain ⟨command, hcommand, hstep⟩ := Option.bind_eq_some_iff.mp hstep
    cases hphase : command.phase with
    | beginWriting written =>
      rw [hphase] at hstep
      obtain rfl := Option.some.inj hstep
      exact hkept.setCommand s.stops s.released
        (fun id hid => ⟨command, hcommand, by rw [hphase]; exact hid⟩) (fun hwrote => hwrote)
    | endWriting written =>
      rw [hphase] at hstep
      obtain rfl := Option.some.inj hstep
      exact hkept.setCommand s.stops s.released (fun _ hid => by cases hid) (fun hwrote => hwrote)
    | endRemoving =>
      rw [hphase] at hstep
      obtain rfl := Option.some.inj hstep
      exact hkept.setCommand s.stops s.released (fun _ hid => by cases hid) (fun hwrote => hwrote)
    | _ =>
      rw [hphase] at hstep
      cases hstep
  | callEnd c succeeded keepHeld =>
    obtain ⟨command, hcommand, hstep⟩ := Option.bind_eq_some_iff.mp hstep
    cases hphase : command.phase with
    | running ownId returnedAtMs =>
      rw [hphase] at hstep
      obtain rfl := Option.some.inj hstep
      rw [Intent.callEnd]
      split
      case isTrue =>
        exact hkept.setCommand s.stops s.released (fun _ hid => by cases hid) (fun hwrote => hwrote)
      case isFalse hkeep =>
        split
        case isTrue hdestroy =>
          -- A destroy that succeeded releases the cluster.
          refine ⟨?_, (fun hmemory => by cases hmemory), ?_⟩
          · intro other found id hfound hid
            rcases update_eq_some hfound with ⟨-, rfl⟩ | ⟨-, hold⟩
            · cases hid
            · exact h.fresh other found id hold hid
          · intro hheld'
            obtain ⟨kind, phase, beganAfter⟩ := command
            dsimp only at hphase hdestroy hkeep
            subst hphase
            have hreleasing := (hheld hheld').2
            rw [releasing, hcommand] at hreleasing
            simp only [Bool.and_eq_true, decide_eq_true_eq] at hdestroy
            simp [hdestroy.1, hdestroy.2] at hreleasing hkeep
            simp [hreleasing] at hkeep
        case isFalse =>
          refine hkept.setCommand s.stops _ ?_ ?_
          · intro id hid
            refine ⟨command, hcommand, ?_⟩
            rw [hphase]
            dsimp only at hid
            split at hid <;> exact hid
          · dsimp only
            split <;> exact fun hwrote => hwrote
    | _ =>
      rw [hphase] at hstep
      cases hstep

/-- The boot hold, or another, records a held stop. -/
theorem MarkerKept.recordStop (h : MarkerKept s held) {intent : ManagedIntent} (held' : Bool)
    (hintent : intent.id = s.nextId) (hstop : isHeldStop (.found intent) = true) :
    MarkerKept { s with nextId := s.nextId + 1, memory := some (.marker intent) } held' := by
  refine ⟨?_, (fun hmemory => nomatch hmemory), ?_⟩
  · intro c command id hcommand hid
    exact Nat.lt_succ_of_lt (h.fresh c command id hcommand hid)
  · intro _
    refine ⟨intent, rfl, hstop, hintent ▸ Nat.lt_succ_self _, ?_⟩
    intro c command hcommand hid
    exact absurd (h.fresh c command _ hcommand hid) (by simp [hintent])

end

end Turbopaneld.Managed.BootHold
