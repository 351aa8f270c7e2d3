/-
# Presence frames on one socket

A daemon tells the control plane what its host looks like: once in the hello of a socket and
then, on a timer, by heartbeats that carry only what moved.  What moved is judged against
what the instance remembers.  The functions here are total: each returns the instance as it
leaves it and what became of its sends.
-/

import Mathlib.Algebra.Order.Ring.Int

namespace Turbopaneld.Presence

/-- The build of the daemon as the wire has it. -/
structure DaemonBuild where
  commit : String
  buildId : String
  builtAt : String
  sourceUrl : String
  channel : String
  version : String
deriving DecidableEq, Repr

/-- The memory figures of a host. -/
structure Memory where
  totalBytes : Option ℕ
  pageSizeBytes : Option ℕ
  presentBytes : Option ℕ
  blockSizeBytes : Option ℕ
deriving DecidableEq, Repr

/-- The resources of a host without its addresses.  `P` is the JSON of a part that the
reporter only copies and compares. -/
structure HostResources (P : Type) where
  cpus : Option P
  gpus : Option P
  memory : Option Memory
  swap : Option P
  virtualizationKind : Option P
  dynamicMemory : Option P
deriving DecidableEq, Repr

/-- The part of the resources a heartbeat sends again when it moves. -/
structure HostCapacitySnapshot (P : Type) where
  memory : Option Memory
  swap : Option P
  cpus : Option P
  dynamicMemory : Option P
deriving DecidableEq, Repr

/-- What presence is about, as one look at the host shows it. -/
structure PresenceSnapshot (P : Type) where
  timeSync : P
  ips : P
  docker : Option P
  runtimes : Option P
  services : Option P
  releaseLinkScan : Option P
deriving DecidableEq, Repr

/-- Who the host says it is in a hello. -/
structure HostHelloIdentity (P : Type) where
  hostname : Option P
  machineKey : Option P
  os : Option P
  resources : Option (HostResources P)
deriving DecidableEq, Repr

structure Hello (P : Type) where
  daemonBuild : DaemonBuild
  hostname : Option P
  machineKey : Option P
  os : Option P
  resources : Option (HostResources P)
  ips : P
  timeSync : P
  docker : Option P
  runtimes : Option P
  services : Option P
  releaseLinkScan : Option P
  commands : Option P
deriving DecidableEq, Repr

/-- The `resources` of a heartbeat: the addresses, the capacity or both. -/
structure MovedResources (P : Type) where
  ips : Option P
  capacity : Option (HostCapacitySnapshot P)
deriving DecidableEq, Repr

structure Heartbeat (P : Type) where
  daemonBuild : Option DaemonBuild
  timeSync : Option P
  resources : Option (MovedResources P)
  docker : Option P
  runtimes : Option P
  services : Option P
  releaseLinkScan : Option P
  commands : Option P
deriving DecidableEq, Repr

inductive Frame (P : Type) where
  | ping
  | hello (payload : Hello P)
  | heartbeat (payload : Heartbeat P)
deriving DecidableEq, Repr

/-- What a step does to the outside: a frame goes out, `ws.send` throws, or the owner is
told to close the socket. -/
inductive Effect (P : Type) where
  | sent (frame : Frame P)
  | threw
  | maxAge
  | stale
deriving DecidableEq, Repr

/-- The instance.  Times are milliseconds. -/
structure IdlePresence (P : Type) where
  idleCheckIntervalMs : ℤ
  idleThresholdMs : ℤ
  minPresenceIntervalMs : ℤ
  presenceRefreshIntervalMs : ℤ
  staleConnectionMs : ℤ
  maxConnectionAgeMs : ℤ
  connectedAtMs : ℤ
  lastActivityAt : ℤ
  lastInboundAt : ℤ
  lastPresenceSendAt : ℤ
  lastPresenceFrameAt : ℤ
  lastDaemonBuildCommit : Option String
  lastPresenceSnapshot : Option (List (String × P))
  lastCapacity : Option (HostCapacitySnapshot P)
  staleReported : Bool
  maxAgeReported : Bool
deriving DecidableEq, Repr

variable {P : Type}

/-! ## What moved -/

/-- The text of a snapshot, as the members it lists: a part that is not there is not
written. -/
def serializePresenceSnapshot (snapshot : PresenceSnapshot P) : List (String × P) :=
  [("timeSync", snapshot.timeSync), ("ips", snapshot.ips)] ++
    snapshot.docker.toList.map ("docker", ·) ++
    snapshot.runtimes.toList.map ("runtimes", ·) ++
    snapshot.services.toList.map ("services", ·) ++
    snapshot.releaseLinkScan.toList.map ("releaseLinkScan", ·)

/-- Capacity fields of `resources`, or `none` when it has none. -/
def hostCapacityFromResources (resources : Option (HostResources P)) :
    Option (HostCapacitySnapshot P) :=
  resources.bind fun r =>
    if r.memory.isSome || r.swap.isSome || r.cpus.isSome || r.dynamicMemory.isSome then
      some { memory := r.memory, swap := r.swap, cpus := r.cpus, dynamicMemory := r.dynamicMemory }
    else none

/-- Memory that moves by no more than this is not told again. -/
def HOST_CAPACITY_TOLERANCE_BYTES : ℕ := 32 * (1024 * 1024)

def movedBeyondTolerance (previous next : Option ℕ) : Bool :=
  match previous, next with
  | some previous, some next =>
    decide ((HOST_CAPACITY_TOLERANCE_BYTES : ℤ) < |(next : ℤ) - (previous : ℤ)|)
  | none, none => false
  | _, _ => true

/-- `next` is worth a heartbeat against what was last remembered.  An unreadable `next`
never sends. -/
def hostCapacityMoved [DecidableEq P] (previous next : Option (HostCapacitySnapshot P)) : Bool :=
  match next with
  | none => false
  | some next =>
    match previous with
    | none => true
    | some previous =>
      movedBeyondTolerance (previous.memory.bind Memory.totalBytes)
          (next.memory.bind Memory.totalBytes) ||
        movedBeyondTolerance (previous.memory.bind Memory.presentBytes)
          (next.memory.bind Memory.presentBytes) ||
        decide (previous.cpus ≠ next.cpus) ||
        decide (previous.dynamicMemory.isSome ≠ next.dynamicMemory.isSome)

/-! ## The hello -/

/-- What the environment gives when a socket is attached. -/
structure Attach (P : Type) where
  nowMs : ℤ
  maxConnectionAgeMs : ℤ
  build : DaemonBuild
  host : HostHelloIdentity P
  snapshot : PresenceSnapshot P
  commandReport : Option P
  helloThrows : Bool
deriving DecidableEq, Repr

def helloOf (a : Attach P) : Hello P :=
  { daemonBuild := a.build
    hostname := a.host.hostname
    machineKey := a.host.machineKey
    os := a.host.os
    resources := a.host.resources
    ips := a.snapshot.ips
    timeSync := a.snapshot.timeSync
    docker := a.snapshot.docker
    runtimes := a.snapshot.runtimes
    services := a.snapshot.services
    releaseLinkScan := a.snapshot.releaseLinkScan
    commands := a.commandReport }

def sendHello (presence : IdlePresence P) (a : Attach P) : IdlePresence P × List (Effect P) :=
  -- What the hello is to tell is remembered before it is sent.
  let remembering :=
    { presence with
      lastDaemonBuildCommit := some a.build.commit
      lastPresenceSnapshot := some (serializePresenceSnapshot a.snapshot)
      lastCapacity := hostCapacityFromResources a.host.resources }
  if a.helloThrows then (remembering, [.threw])
  else
    ({ remembering with lastActivityAt := a.nowMs, lastPresenceFrameAt := a.nowMs },
      [.sent (.hello (helloOf a))])

/-- Presence starts on a new socket. -/
def attach (presence : IdlePresence P) (a : Attach P) : IdlePresence P × List (Effect P) :=
  sendHello
    { presence with
      lastActivityAt := a.nowMs
      lastInboundAt := a.nowMs
      staleReported := false
      connectedAtMs := a.nowMs
      maxConnectionAgeMs := a.maxConnectionAgeMs
      maxAgeReported := false
      lastPresenceFrameAt := 0 } a

/-! ## A tick of the timer -/

/-- The places of a tick that read the clock. -/
inductive Reading where
  | age
  | silence
  | due
  | ping
  | refresh
  | frame

/-- What the environment gives in a tick.  The clock may move between two readings. -/
structure Tick (P : Type) where
  now : Reading → ℤ
  build : DaemonBuild
  snapshot : PresenceSnapshot P
  resources : Option (HostResources P)
  hostCapacityFlag : Bool
  commandReport : Option P
  peerSupports : Bool
  pingThrows : Bool
  heartbeatThrows : Bool

def checkMaxConnectionAge (presence : IdlePresence P) (nowMs : ℤ) : IdlePresence P × Bool :=
  if presence.maxAgeReported then (presence, false)
  else if nowMs - presence.connectedAtMs < presence.maxConnectionAgeMs then (presence, false)
  else ({ presence with maxAgeReported := true }, true)

def checkStaleConnection (presence : IdlePresence P) (nowMs : ℤ) :
    IdlePresence P × List (Effect P) :=
  if presence.staleReported then (presence, [])
  else if nowMs - presence.lastInboundAt ≤ presence.staleConnectionMs then (presence, [])
  else ({ presence with staleReported := true }, [.stale])

def presencePingDue (presence : IdlePresence P) (nowMs : ℤ) : Bool :=
  if presence.lastPresenceSendAt ≤ 0 then true
  else
    let skipBelowMs :=
      if presence.idleCheckIntervalMs < presence.minPresenceIntervalMs then
        presence.minPresenceIntervalMs
      else max 0 (presence.minPresenceIntervalMs - 5000)
    decide (skipBelowMs ≤ nowMs - presence.lastPresenceSendAt)

def sendCellPing (presence : IdlePresence P) (nowMs : ℤ) (throws : Bool) :
    IdlePresence P × List (Effect P) :=
  if throws then (presence, [.threw])
  else
    ({ presence with lastActivityAt := nowMs, lastPresenceSendAt := nowMs }, [.sent .ping])

/-- Moved capacity to send again; it is remembered as soon as it is read. -/
def capacityToSend [DecidableEq P] (presence : IdlePresence P) (hostCapacityFlag : Bool)
    (resources : Option (HostResources P)) :
    IdlePresence P × Option (HostCapacitySnapshot P) :=
  if hostCapacityFlag then
    let next := hostCapacityFromResources resources
    if hostCapacityMoved presence.lastCapacity next then
      ({ presence with lastCapacity := next }, next)
    else (presence, none)
  else (presence, none)

/-- The command report goes to a control plane that knows the feature. -/
def commandsField (t : Tick P) : Option P := if t.peerSupports then t.commandReport else none

def sendHeartbeat (presence : IdlePresence P) (payload : Heartbeat P) (nowMs : ℤ) (throws : Bool) :
    IdlePresence P × List (Effect P) :=
  let remembering :=
    { presence with
      lastDaemonBuildCommit :=
        (payload.daemonBuild.map DaemonBuild.commit).or presence.lastDaemonBuildCommit }
  if throws then (remembering, [.threw])
  else
    ({ remembering with lastActivityAt := nowMs, lastPresenceFrameAt := nowMs },
      [.sent (.heartbeat payload)])

/-- The heartbeat of the parts that moved; `none` for a part means that it is left out. -/
def heartbeatOf (daemonBuild : Option DaemonBuild) (presence : Option (PresenceSnapshot P))
    (capacity : Option (HostCapacitySnapshot P)) (commands : Option P) : Heartbeat P :=
  { daemonBuild := daemonBuild
    timeSync := presence.map PresenceSnapshot.timeSync
    resources :=
      if presence.isSome || capacity.isSome then
        some { ips := presence.map PresenceSnapshot.ips, capacity := capacity }
      else none
    docker := presence.bind PresenceSnapshot.docker
    runtimes := presence.bind PresenceSnapshot.runtimes
    services := presence.bind PresenceSnapshot.services
    releaseLinkScan := presence.bind PresenceSnapshot.releaseLinkScan
    commands := commands }

/-- The build of the tick has another commit than the one remembered. -/
def buildChanged (presence : IdlePresence P) (t : Tick P) : Bool :=
  decide (some t.build.commit ≠ presence.lastDaemonBuildCommit)

/-- The snapshot of the tick has another text than the one remembered. -/
def presenceChanged [DecidableEq P] (presence : IdlePresence P) (t : Tick P) : Bool :=
  decide (some (serializePresenceSnapshot t.snapshot) ≠ presence.lastPresenceSnapshot)

def refreshDue (presence : IdlePresence P) (nowMs : ℤ) : Bool :=
  decide (presence.lastPresenceFrameAt = 0 ∨
    presence.presenceRefreshIntervalMs ≤ nowMs - presence.lastPresenceFrameAt)

/-- Presence facts that moved go out in a heartbeat.  The snapshot is remembered when the
heartbeat was tried, whether it went out or not. -/
def sendMoved [DecidableEq P] (presence : IdlePresence P) (t : Tick P) :
    IdlePresence P × List (Effect P) :=
  let build := if buildChanged presence t then some t.build else none
  let changed := presenceChanged presence t
  let (remembering, capacity) := capacityToSend presence t.hostCapacityFlag t.resources
  if build.isSome || changed || capacity.isSome || refreshDue presence (t.now .refresh) then
    let (after, effects) :=
      sendHeartbeat remembering
        (heartbeatOf build (if changed then some t.snapshot else none) capacity (commandsField t))
        (t.now .frame) t.heartbeatThrows
    (if changed then
        { after with lastPresenceSnapshot := some (serializePresenceSnapshot t.snapshot) }
      else after,
      effects)
  else (remembering, [])

def maybeSendPresence [DecidableEq P] (presence : IdlePresence P) (t : Tick P) :
    IdlePresence P × List (Effect P) :=
  if presencePingDue presence (t.now .due) then
    let (pinged, ping) := sendCellPing presence (t.now .ping) t.pingThrows
    let (after, effects) := sendMoved pinged t
    (after, ping ++ effects)
  else (presence, [])

/-- The timer fires.  A connection that is recycled ends the tick before its ping. -/
def onTimer [DecidableEq P] (presence : IdlePresence P) (t : Tick P) :
    IdlePresence P × List (Effect P) :=
  let (aged, recycled) := checkMaxConnectionAge presence (t.now .age)
  if recycled then (aged, [.maxAge])
  else
    let (checked, stale) := checkStaleConnection aged (t.now .silence)
    let (after, effects) := maybeSendPresence checked t
    (after, stale ++ effects)

/-! ## What else happens to an attached instance -/

def touchActivity (presence : IdlePresence P) (nowMs : ℤ) : IdlePresence P :=
  { presence with lastActivityAt := nowMs }

def noteInboundActivity (presence : IdlePresence P) (nowMs : ℤ) : IdlePresence P :=
  { presence with lastActivityAt := nowMs, lastInboundAt := nowMs, staleReported := false }

/-- An advised heartbeat sets the cadence of the ping and what follows it. -/
def setIdleThresholdMs (presence : IdlePresence P) (ms : ℤ) : IdlePresence P :=
  { presence with
    idleCheckIntervalMs := ms
    idleThresholdMs := ms
    minPresenceIntervalMs := ms
    staleConnectionMs := ms * 3 }

end Turbopaneld.Presence
