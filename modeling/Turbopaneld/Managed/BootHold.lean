/-
# The boot hold

After a restart of the host that was not clean, or took long, every primary with a peer is
held: a held stop marker is written, then a hold file, and the engine is stopped.  A timer
stops again what could not be stopped, a reporter asks the control plane or releases a hold
by itself, and commands, a probe and a guard write the same markers in between.

The hold is spread over the marker in memory, its disk copy, the hold file, and a set of
clusters the process has not settled.  A daemon restart keeps only what is on disk.  Each
asynchronous function is a program that awaits one call after the other; the fields a
specification talks about stand at the end of the state and no function reads them.
-/

import Mathlib.Algebra.Order.Ring.Rat
import Turbopaneld.Managed.DemotedGuard
import Turbopaneld.Managed.Intent
import Turbopaneld.Machines.Threads

namespace Turbopaneld.Managed.BootHold

open Programs Machines Intent

/-! ## Records -/

/-- The boot record, with whether it has the stamp of a clean shutdown. -/
structure HostBootRecord where
  bootId : String
  cleanShutdown : Bool
deriving DecidableEq

inductive HostBootKind where
  | first
  | sameBoot
  | cleanReboot
  | unclean
deriving DecidableEq

def classifyHostBoot (previous : Option HostBootRecord) (currentBootId : Option String) :
    HostBootKind :=
  match currentBootId, previous with
  | none, _ => .sameBoot
  | some _, none => .first
  | some bootId, some record =>
    if record.bootId = bootId then .sameBoot
    else if record.cleanShutdown then .cleanReboot
    else .unclean

inductive Role where
  | primary
  | replica
deriving DecidableEq

/-- What the hold reads of a member record.  A record with another kind of id is not parsed. -/
structure Member where
  managedId : String
  memberId : String
  engine : String
  role : Role
  peerCount : Option ℚ
  replicaPeerCount : ℚ
  safe : DemotedGuard.isSafeManagedId managedId = true

/-- A primary with at least one other member. -/
def isHoldablePrimary (record : Member) : Bool :=
  record.role = .primary && decide (0 < record.peerCount.getD record.replicaPeerCount)

/-- The contents of a hold file that parses; its cluster is the one it lies at. -/
structure HoldFile where
  memberId : String
  engine : String
  heldAt : String
  engineStopped : Bool
deriving DecidableEq

structure BootHoldRecord extends HoldFile where
  managedId : String
deriving DecidableEq

/-- The marker is a held stop. -/
def isHeldStop (lookup : IntentLookup) : Bool :=
  match lookup with
  | .found intent => isHeldIntent lookup && intent.kind = .stop
  | _ => false

/-! ## Calls -/

/-- Who looks at a marker. -/
inductive Looker where
  | listing
  | retry
deriving DecidableEq

/-- Who clears a marker: the release of a hold, or the probe that saw a healthy engine. -/
inductive Clearer where
  | release
  | probe
deriving DecidableEq

/-- Who holds a stop: the boot hold, or the guard or probe. -/
inductive Holder where
  | boot
  | other
deriving DecidableEq

/-- The calls, each with the type of its answer.  An answer that may be missing stands for a
call that throws. -/
inductive Call : Type → Type
  | readProcBootId : Call (Option String)
  | readHostBootRecord : Call (Option HostBootRecord)
  | writeBootRecord (bootId : String) : Call Bool
  | listMembers : Call (Option (List Member))
  | isManagedMemberDemoted (managedId : String) : Call Bool
  | nowIso : Call String
  | readHold (managedId : String) : Call (Option BootHoldRecord)
  /-- The part of `recordManagedIntent` before its first await.  It answers with the marker
  and, for the specification, how often the cluster has been released. -/
  | recordStop (holder : Holder) (managedId : String) : Call (ManagedIntent × ℕ)
  | writeMarker (managedId : String) (intent : ManagedIntent) : Call Unit
  | mkdir (managedId : String) : Call Bool
  | writeHold (record : BootHoldRecord) : Call Bool
  | composeStop (managedId : String) : Call Bool
  | composeStart (managedId : String) : Call (Option Bool)
  | setUnsettled (managedId : String) (unsettled : Bool) : Call Unit
  | unsettledHolds : Call (List String)
  | readDir : Call (Option (List String))
  | lookupMemory (looker : Looker) (managedId : String) : Call (Option Slot)
  | readMarker (managedId : String) : Call IntentLookup
  /-- The removal of a hold file, with what its caller knows of the marker. -/
  | removeHold (managedId : String) (seen : IntentLookup) : Call Unit
  | clearMemory (clearer : Clearer) (managedId : String) : Call Unit
  | removeMarker (managedId : String) : Call Unit
  | reapply : Call (Option HostBootKind)
  | setReapply (kind : Option HostBootKind) : Call Unit
  | startRetry : Call Unit
  | settling : Call Bool
  | stopRetry : Call Unit
  | endTick : Call Unit
  | peerBootHoldSupport : Call (Option Bool)
  /-- For the specification: a hold of these clusters has returned true. -/
  | held (clusters : List (String × ℕ)) : Call Unit

/-- What the host makes of a call. -/
structure Reply where
  /-- A file or docker operation succeeds. -/
  ok : Bool := true
  /-- A docker operation that does not succeed throws. -/
  throws : Bool := false
  members : List Member := []
  demoted : Bool := false
  bootId : Option String := none
  nowIso : String := ""
  support : Option Bool := none

/-! ## Programs -/

def recordHeldStop (holder : Holder) (managedId : String) : Async Call ℕ := do
  let (intent, releases) ← Async.perform (.recordStop holder managedId)
  Async.perform (.writeMarker managedId intent)
  return releases

def lookupIntent (looker : Looker) (managedId : String) : Async Call IntentLookup := do
  match ← Async.perform (.lookupMemory looker managedId) with
  | some .cleared => return .none
  | some (.marker intent) => return .found intent
  | none => Async.perform (.readMarker managedId)

/-- Clear a marker, in memory and then on disk. -/
def clearManagedIntent (clearer : Clearer) (managedId : String) : Async Call Unit := do
  Async.perform (.clearMemory clearer managedId)
  Async.perform (.removeMarker managedId)

/-- The hold that is there, or a new one. -/
def holdFor (member : Member) : Option BootHoldRecord → Async Call BootHoldRecord
  | some existing => return existing
  | none => do
    let heldAt ← Async.perform .nowIso
    return {
      managedId := member.managedId, memberId := member.memberId, engine := member.engine,
      heldAt, engineStopped := false }

/-- The directory and the hold file; false where a write throws. -/
def writeFirst (managedId : String) (record : BootHoldRecord) : Async Call Bool := do
  if ← Async.perform (.mkdir managedId) then Async.perform (.writeHold record)
  else return false

/-- The second write, for a stop that the file does not say yet. -/
def writeFinal (record : BootHoldRecord) (stopped : Bool) : Async Call Bool :=
  if stopped && !record.engineStopped then
    Async.perform (.writeHold { record with engineStopped := true })
  else return true

/-- Hold one cluster; `none` where it throws.  The stop is tried whatever was written. -/
def holdOne (member : Member) : Async Call (Option ℕ) := do
  let existing ← Async.perform (.readHold member.managedId)
  let record ← holdFor member existing
  let releases ← recordHeldStop .boot member.managedId
  let written ← writeFirst member.managedId record
  let stopped ← Async.perform (.composeStop member.managedId)
  Async.perform (.setUnsettled member.managedId !stopped)
  if written then do
    let noted ← writeFinal record stopped
    return if noted then some releases else none
  else return none

/-- A primary with a peer, or a member that was demoted. -/
def isToHold (member : Member) : Async Call Bool :=
  if isHoldablePrimary member then return true
  else Async.perform (.isManagedMemberDemoted member.managedId)

def membersToHold : List Member → Async Call (List Member)
  | [] => return []
  | member :: rest => do
    let hold ← isToHold member
    let others ← membersToHold rest
    return if hold then member :: others else others

/-- Hold them all, with those that were held and whether one failed. -/
def holdMembers : List Member → Async Call (List (String × ℕ) × Bool)
  | [] => return ([], false)
  | member :: rest => do
    match ← holdOne member with
    | some releases => do
      let (held, failed) ← holdMembers rest
      return ((member.managedId, releases) :: held, failed)
    | none => do
      Async.perform (.setUnsettled member.managedId true)
      let (held, _) ← holdMembers rest
      return (held, true)

/-- Hold the listed members; true where none failed. -/
def holdListed (members : List Member) : Async Call Bool := do
  let toHold ← membersToHold members
  let (held, failed) ← holdMembers toHold
  if failed then return false
  else do
    Async.perform (.held held)
    return true

/-- Hold every primary; `none` where the members cannot be listed. -/
def applyBootHold (kind : HostBootKind) : Async Call (Option Bool) := do
  if kind = .unclean || kind = .cleanReboot then
    match ← Async.perform .listMembers with
    | none => return none
    | some members => do
      let done ← holdListed members
      return some done
  else return some true

/-- One cluster of the listing.  A hold whose marker is gone is removed. -/
def listOne (managedId : String) : Async Call (Option BootHoldRecord) := do
  match ← Async.perform (.readHold managedId) with
  | none => return none
  | some record => do
    let lookup ← lookupIntent .listing managedId
    if isHeldStop lookup then return some record
    else do
      Async.perform (.removeHold managedId lookup)
      return none

def listEach : List String → Async Call (List BootHoldRecord)
  | [] => return []
  | managedId :: rest => do
    let found ← listOne managedId
    let others ← listEach rest
    return found.toList ++ others

def listActiveBootHolds : Async Call (List BootHoldRecord) := do
  match ← Async.perform .readDir with
  | none => return []
  | some ids => listEach ids

/-- Retry the stop; the note about it may be lost. -/
def ensureHoldStopped (record : BootHoldRecord) : Async Call Unit := do
  if record.engineStopped then return ()
  else if ← Async.perform (.composeStop record.managedId) then do
    let _ ← Async.perform (.writeHold { record with engineStopped := true })
    return ()
  else return ()

/-- Release a hold; false where docker throws. -/
def releaseBootHoldLocally (record : BootHoldRecord) : Async Call Bool := do
  if ← Async.perform (.isManagedMemberDemoted record.managedId) then return true
  else do
    clearManagedIntent .release record.managedId
    Async.perform (.removeHold record.managedId .none)
    let started ← Async.perform (.composeStart record.managedId)
    return started.isSome

/-- `recordHostBootPersist`; false where the write throws. -/
def recordHostBootPersist : Async Call Bool := do
  match ← Async.perform .readProcBootId with
  | none => return true
  | some bootId => Async.perform (.writeBootRecord bootId)

/-! ### The retry -/

/-- Hold again, for a boot whose members could not be listed. -/
def reapplyOnce : Async Call Unit := do
  match ← Async.perform .reapply with
  | none => return ()
  | some kind =>
    match ← applyBootHold kind with
    | some true =>
      if ← recordHostBootPersist then Async.perform (.setReapply none)
      else return ()
    | _ => return ()

/-- A hold of the listing.  One that says stopped is stopped again while docker settles. -/
def retryHold (settling : Bool) (hold : BootHoldRecord) : Async Call Unit := do
  if !hold.engineStopped then ensureHoldStopped hold
  else if settling then do
    let _ ← Async.perform (.composeStop hold.managedId)
    return ()
  else return ()

/-- Stop a cluster that is not settled, and settle it where that worked. -/
def stopUnsettled (managedId : String) : Async Call Unit := do
  if ← Async.perform (.composeStop managedId) then
    Async.perform (.setUnsettled managedId false)
  else return ()

def retryUnsettled (heldIds : List String) (managedId : String) : Async Call Unit := do
  if heldIds.contains managedId then stopUnsettled managedId
  else
    match ← lookupIntent .retry managedId with
    | .found intent =>
      if isHeldStop (.found intent) then stopUnsettled managedId
      else Async.perform (.setUnsettled managedId false)
    | _ => stopUnsettled managedId

/-- The timer stops once nothing is left to do. -/
def stopWhenSettled (holds : List BootHoldRecord) (settling : Bool) : Async Call Unit := do
  let pending ← Async.perform .reapply
  let unsettled ← Async.perform .unsettledHolds
  if pending.isNone && holds.all (·.engineStopped) && unsettled.isEmpty && !settling then
    Async.perform .stopRetry
  else return ()

/-- `BootHoldLocalRetry.tick`. -/
def tick : Async Call Unit := do
  reapplyOnce
  let holds ← listActiveBootHolds
  let settling ← Async.perform .settling
  Async.forEach (retryHold settling) holds
  let unsettled ← Async.perform .unsettledHolds
  Async.forEach (retryUnsettled (holds.map (·.managedId))) unsettled
  stopWhenSettled holds settling
  Async.perform .endTick

/-! ### The other programs -/

/-- Release one hold after the other, up to one that throws. -/
def releaseAll : List BootHoldRecord → Async Call Unit
  | [] => return ()
  | hold :: rest => do
    if ← releaseBootHoldLocally hold then releaseAll rest else return ()

/-- `BootHoldReporter.tick`, less the frames it sends. -/
def report : Async Call Unit := do
  let holds ← listActiveBootHolds
  if holds.isEmpty then return ()
  else
    match ← Async.perform .peerBootHoldSupport with
    | none => return ()
    | some false => releaseAll holds
    | some true => Async.forEach ensureHoldStopped holds

/-- The boot record is written once the hold is complete. -/
def persistWhen (outcome : Option Bool) : Async Call Unit := do
  if outcome = some true then do
    let _ ← recordHostBootPersist
    return ()
  else return ()

/-- `applyManagedBootHoldAtStart`. -/
def boot : Async Call Unit := do
  let bootId ← Async.perform .readProcBootId
  let previous ← Async.perform .readHostBootRecord
  let kind := classifyHostBoot previous bootId
  let outcome ← applyBootHold kind
  Async.perform (.setReapply (if outcome.isNone then some kind else none))
  Async.perform .startRetry
  persistWhen outcome

/-- The guard over demoted members, or the probe, holds a stop. -/
def holdStop (managedId : String) : Async Call Unit := do
  let _ ← recordHeldStop .other managedId
  return ()

/-! ## The host -/

structure Host where
  /-- The marker of each cluster, in memory and on disk, and the commands on it. -/
  intents : String → Intent.State
  directories : List String
  holds : String → Option HoldFile
  bootRecord : Option HostBootRecord
  nowMs : ℕ
  unsettled : List String
  reapply : Option HostBootKind
  settleUntilMs : ℕ
  timer : Bool
  ticking : Bool
  booted : Bool
  /-- A compose stop of the cluster has succeeded since this boot. -/
  stopped : String → Bool
  /-- The boot hold has written its marker and the cluster has not been released. -/
  bootHeld : String → Bool
  /-- How often the cluster has been released. -/
  releases : String → ℕ
  /-- A cluster that was held has been released. -/
  released : String → Bool
  /-- The clusters of every hold that returned true, with how often each had been released
  when it was held. -/
  applied : List (String × ℕ)

/-- A process at its start, over what an earlier one left on disk. -/
def start (disk : String → IntentLookup) (directories : List String)
    (holds : String → Option HoldFile) (bootRecord : Option HostBootRecord) (nowMs : ℕ) : Host where
  intents := fun managedId => Intent.start (disk managedId) nowMs
  directories := directories
  holds := holds
  bootRecord := bootRecord
  nowMs := nowMs
  unsettled := []
  reapply := none
  settleUntilMs := 0
  timer := false
  ticking := false
  booted := false
  stopped := fun _ => false
  bootHeld := fun _ => false
  releases := fun _ => 0
  released := fun _ => false
  applied := []

/-- A daemon restart on the same boot: what was in memory is gone. -/
def restart (s : Host) : Host :=
  { s with
    intents := fun managedId => { s.intents managedId with
      memory := none, commands := fun _ => none }
    unsettled := []
    reapply := none
    settleUntilMs := 0
    timer := false
    ticking := false
    booted := false }

/-- A hold file, an unsettled hold or a marker of the boot hold. -/
def Host.isHeld (s : Host) (managedId : String) : Bool :=
  (s.holds managedId).isSome || s.unsettled.contains managedId || s.bootHeld managedId

/-- The cluster has been released. -/
def Host.release (s : Host) (managedId : String) : Host :=
  { s with
    bootHeld := Function.update s.bootHeld managedId false
    releases := Function.update s.releases managedId (s.releases managedId + 1)
    released := Function.update s.released managedId
      (s.released managedId || s.isHeld managedId) }

def Host.setIntent (s : Host) (managedId : String) (intent : Intent.State) : Host :=
  { s with intents := Function.update s.intents managedId intent }

/-- How long held engines are stopped again after the start. -/
def settleMs : ℕ := 60000

def Host.setUnsettled (s : Host) (managedId : String) (unsettled : Bool) : Host :=
  if unsettled then
    { s with unsettled :=
        if s.unsettled.contains managedId then s.unsettled else s.unsettled ++ [managedId] }
  else { s with unsettled := s.unsettled.filter (· ≠ managedId) }

/-- A file operation of the hold, where it succeeds. -/
def Host.writeHold (s : Host) (record : BootHoldRecord) : Host :=
  { s with holds := Function.update s.holds record.managedId (some record.toHoldFile) }

def perform {β : Type} : Call β → Reply → Host → β × Host
  | .readProcBootId, reply, s => (reply.bootId, s)
  | .readHostBootRecord, reply, s => (if reply.ok then s.bootRecord else none, s)
  | .writeBootRecord bootId, reply, s =>
    (reply.ok, if reply.ok then { s with bootRecord := some ⟨bootId, false⟩ } else s)
  | .listMembers, reply, s => (if reply.ok then some reply.members else none, s)
  | .isManagedMemberDemoted _, reply, s => (reply.demoted, s)
  | .nowIso, reply, s => (reply.nowIso, s)
  | .readHold managedId, reply, s =>
    (if reply.ok then (s.holds managedId).map (⟨·, managedId⟩) else none, s)
  | .recordStop holder managedId, _, s =>
    let (intent, marked) := (s.intents managedId).record .stop .held managedIntentTtlMs
    let s' := s.setIntent managedId marked
    ((intent, s.releases managedId),
      if holder = .boot then { s' with bootHeld := Function.update s.bootHeld managedId true }
      else s')
  | .writeMarker managedId intent, reply, s =>
    ((), if reply.ok then s.setIntent managedId { s.intents managedId with disk := .found intent }
      else s)
  | .mkdir managedId, reply, s =>
    (reply.ok,
      if reply.ok && !s.directories.contains managedId then
        { s with directories := s.directories ++ [managedId] }
      else s)
  | .writeHold record, reply, s =>
    let ok := reply.ok && s.directories.contains record.managedId
    (ok, if ok then s.writeHold record else s)
  | .composeStop managedId, reply, s =>
    (reply.ok,
      if reply.ok then { s with stopped := Function.update s.stopped managedId true } else s)
  | .composeStart _, reply, s => (if reply.throws then none else some reply.ok, s)
  | .setUnsettled managedId unsettled, _, s => ((), s.setUnsettled managedId unsettled)
  | .unsettledHolds, _, s => (s.unsettled, s)
  | .readDir, reply, s =>
    (if reply.ok then some (s.directories.filter DemotedGuard.isSafeManagedId) else none, s)
  | .lookupMemory _ managedId, _, s => ((s.intents managedId).memory, s)
  | .readMarker managedId, reply, s =>
    (if reply.ok then (s.intents managedId).disk else .unreadable, s)
  | .removeHold managedId _, reply, s =>
    ((), if reply.ok then { s with holds := Function.update s.holds managedId none } else s)
  | .clearMemory clearer managedId, _, s =>
    let s' := s.setIntent managedId { s.intents managedId with memory := some .cleared }
    ((), if clearer = .release then s'.release managedId else s')
  | .removeMarker managedId, reply, s =>
    ((), if reply.ok then s.setIntent managedId { s.intents managedId with disk := .none } else s)
  | .reapply, _, s => (s.reapply, s)
  | .setReapply kind, _, s => ((), { s with reapply := kind })
  | .startRetry, _, s => ((), { s with settleUntilMs := s.nowMs + settleMs, timer := true })
  | .settling, _, s => (decide (s.nowMs < s.settleUntilMs), s)
  | .stopRetry, _, s => ((), { s with timer := false })
  | .endTick, _, s => ((), { s with ticking := false })
  | .peerBootHoldSupport, reply, s => (reply.support, s)
  | .held clusters, _, s => ((), { s with applied := clusters ++ s.applied })

/-! ## The process -/

/-- What a program is.  A tick knows which clusters had been released when it began. -/
inductive Tag where
  | plain
  | tick (releasedBefore : String → Bool)

inductive Spawn where
  | boot
  | tick
  | report
  | probeClears (managedId : String)
  | holdStop (managedId : String)

def spawn (kind : Spawn) (s : Host) : Option (Host × Thread Tag Call) :=
  match kind with
  | .boot => if s.booted then none else some ({ s with booted := true }, ⟨.plain, boot⟩)
  | .tick =>
    if s.timer && !s.ticking then some ({ s with ticking := true }, ⟨.tick s.released, tick⟩)
    else none
  | .report => some (s, ⟨.plain, report⟩)
  | .probeClears managedId => some (s, ⟨.plain, clearManagedIntent .probe managedId⟩)
  | .holdStop managedId => some (s, ⟨.plain, holdStop managedId⟩)

inductive Act where
  | advance (ms : ℕ)
  /-- A command on the cluster takes a step. -/
  | command (managedId : String) (action : Intent.Action)
  /-- The handler of a destroy that is running removes the directory. -/
  | removeDirectory (managedId : String) (c : ℕ)

/-- A command that succeeds replaces the marker. -/
def releasing (s : Intent.State) : Intent.Action → Bool
  | .decide c =>
    match s.commands c with
    | some ⟨kind, .endLooked ownId succeeded current, _⟩ =>
      succeeded && releasesHeld kind && (endWrite kind ownId succeeded current).isSome
    | _ => false
  | .callEnd c succeeded keepHeld =>
    match s.commands c with
    | some ⟨kind, .running _ _, _⟩ => succeeded && kind = .destroy && !keepHeld
    | _ => false
  | _ => false

/-- A command's step is one of its marker, and may release the cluster. -/
def commandStep (s : Host) (managedId : String) (action : Intent.Action) : Option Host :=
  match action with
  | .advance _ => none
  | action => (Intent.step (s.intents managedId) action).map fun intent =>
      let s' := s.setIntent managedId intent
      if releasing (s.intents managedId) action then s'.release managedId else s'

def act (action : Act) (s : Host) : Option Host :=
  match action with
  | .advance ms => some { s with
      nowMs := s.nowMs + ms
      intents := fun managedId => { s.intents managedId with
        nowMs := (s.intents managedId).nowMs + ms } }
  | .command managedId action => commandStep s managedId action
  | .removeDirectory managedId c =>
    match (s.intents managedId).commands c with
    | some ⟨.destroy, .running _ _, _⟩ => some { s with
        directories := s.directories.filter (· ≠ managedId)
        holds := Function.update s.holds managedId none }
    | _ => none

/-- The daemon. -/
def daemon : Process Tag Call Host Reply Spawn Act where
  perform := perform
  spawn := spawn
  act := act
  restart := restart

end Turbopaneld.Managed.BootHold
