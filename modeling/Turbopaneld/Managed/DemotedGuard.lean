/-
# The guard over demoted members

A primary that was replaced keeps a marker, and a guard looks at every marked cluster every
few seconds: it stops, and if need be kills, an engine that accepts writes.  The clusters to
look at come from two scans of the state directory.  The first takes the member records, the
second the markers; a file that is missing, unreadable or corrupt is treated differently in
each.

The files do not change during a tick, except that the guard rewrites a marker in place.
What docker and the engines answer may depend on everything that was done before, so a tick
keeps a log of its calls.
-/

import Turbopaneld.DockerGate.Json
import Turbopaneld.Programs.Logged

namespace Turbopaneld.Managed.DemotedGuard

open JavaScript DockerGate Programs

/-! ## Files -/

/-- Reading a file of a cluster: not there, not readable, or its text parsed as JSON. -/
inductive FileRead where
  | missing
  | unreadable
  | contents (value : Option Json)

/-- The files of one cluster the guard reads, and what it takes from its compose file. -/
structure ClusterFiles where
  demoted : FileRead
  member : FileRead
  destroyed : FileRead
  composeImage : Option String
  composeContainerName : Option String

inductive ReadFailure where
  | notFound
  | other

structure DirEntry where
  name : String
  isDirectory : Bool

/-- The host's files, the locks and the clock.  A directory holds a name once. -/
structure Host where
  entries : List DirEntry
  readDirFailure : Option ReadFailure
  files : String → ClusterFiles
  tryLock : String → Except String Bool
  now : ℤ
  dateParse : String → Option ℤ
  names_nodup : (entries.map DirEntry.name).Nodup

/-- `SAFE_MANAGED_ID_RE`. -/
def isSafeManagedId (id : String) : Bool :=
  id ≠ "" && id.toList.all fun c => isWord c || c == '-'

/-- The clusters of the host. -/
def Host.clusters (host : Host) : List String :=
  (host.entries.filter fun entry => entry.isDirectory && isSafeManagedId entry.name).map
    DirEntry.name

/-! ## Engines -/

inductive Engine where
  | postgres
  | mysql
  | mariadb
deriving DecidableEq

def Engine.code : Engine → String
  | .postgres => "postgres"
  | .mysql => "mysql"
  | .mariadb => "mariadb"

def engineOf (code : String) : Option Engine :=
  if code = "postgres" then some .postgres
  else if code = "mysql" then some .mysql
  else if code = "mariadb" then some .mariadb
  else none

/-- What every object inherits. -/
def inheritedKeys : List String :=
  ["constructor", "__defineGetter__", "__defineSetter__", "hasOwnProperty", "__lookupGetter__",
    "__lookupSetter__", "isPrototypeOf", "propertyIsEnumerable", "toString", "valueOf",
    "toLocaleString"]

/-- An entry of the runtime table; an inherited one has no replication. -/
inductive Runtime where
  | engine (engine : Engine)
  | inherited

/-- `RUNTIMES[code]`. -/
def runtimeOf (code : String) : Option Runtime :=
  match engineOf code with
  | some engine => some (.engine engine)
  | none => if inheritedKeys.contains code then some .inherited else none

/-! ## Markers and records -/

structure DemotedMarker where
  memberId : String
  engine : Option Engine

/-- A string field. -/
def textField (value : Json) (name : String) : Option String :=
  match value.field name with
  | some (.string text) => some text
  | _ => none

def isNumberField (value : Json) (name : String) : Bool :=
  match value.field name with
  | some (.number _) => true
  | _ => false

def parseMarker (value : Option Json) : Option DemotedMarker := do
  let value ← value
  let memberId ← textField value "memberId"
  let _ ← textField value "demotedAt"
  return { memberId, engine := (textField value "engine").bind engineOf }

/-- The fields of a member record the guard uses. -/
structure MemberRecord where
  managedId : String
  memberId : String
  engine : String
  containerName : String

def parseRecord (value : Option Json) : Option MemberRecord := do
  let value ← value
  let managedId ← textField value "managedId"
  let memberId ← textField value "memberId"
  let engine ← textField value "engine"
  let role ← textField value "role"
  let containerName ← textField value "containerName"
  let _ ← textField value "updatedAt"
  if isSafeManagedId managedId && (role == "primary" || role == "replica") &&
      isNumberField value "replicaPeerCount" then
    some { managedId, memberId, engine, containerName }
  else none

def readManagedHaMember (host : Host) (managedId : String) : Option MemberRecord :=
  match (host.files managedId).member with
  | .contents value => (parseRecord value).filter (·.managedId = managedId)
  | _ => none

/-- A marker that cannot be read throws; a corrupt one is none. -/
def readManagedDemotedMarker (host : Host) (managedId : String) :
    Except String (Option DemotedMarker) :=
  match (host.files managedId).demoted with
  | .missing => .ok none
  | .unreadable => .error "demoted.json cannot be read"
  | .contents value => .ok (parseMarker value)

/-- Fails closed: whatever is not missing counts. -/
def isManagedMemberDemoted (host : Host) (managedId : String) : Bool :=
  match (host.files managedId).demoted with
  | .missing => false
  | _ => true

/-- `DESTROYED_MARKER_TTL_MS`. -/
def destroyedMarkerTtlMs : ℤ := 24 * 60 * 60000

/-- Fails closed: an unreadable or corrupt marker counts. -/
def isManagedMemberDestroyed (host : Host) (managedId : String) (memberId : Option String) :
    Bool :=
  match (host.files managedId).destroyed with
  | .missing => false
  | .unreadable => true
  | .contents none => true
  | .contents (some value) =>
    match (textField value "destroyedAt").bind host.dateParse with
    | none => true
    | some destroyedAt =>
      if host.now - destroyedAt ≥ destroyedMarkerTtlMs then false
      else
        match value.field "memberId" with
        | none | some .null => true
        | some (.string marked) => memberId = none || memberId = some marked
        | some _ => memberId = none

/-! ## The clusters to look at -/

/-- Every record on this host; a scan that fails has none. -/
def listManagedHaMembers (host : Host) : List MemberRecord :=
  match host.readDirFailure with
  | some _ => []
  | none =>
    (host.clusters.filterMap (readManagedHaMember host)).filter fun record =>
      !isManagedMemberDestroyed host record.managedId (some record.memberId)

def listDemotedManagedIds (host : Host) : Except String (List String) :=
  match host.readDirFailure with
  | some .notFound => .ok []
  | some .other => .error "the state directory cannot be read"
  | none => .ok (host.clusters.filter (isManagedMemberDemoted host))

structure FenceTarget where
  managedId : String
  memberId : Option String
  engine : String

def inferEngineFromComposeImage (image : String) : Option Engine :=
  let lower := toLowerCase image
  if includes lower "postgres" then some .postgres
  else if includes lower "mariadb" then some .mariadb
  else if includes lower "mysql" then some .mysql
  else none

def resolveDemotedEngine (host : Host) (managedId : String) (marker : Option DemotedMarker) :
    Option String :=
  match marker.bind DemotedMarker.engine with
  | some engine => some engine.code
  | none =>
    match (readManagedHaMember host managedId).map MemberRecord.engine with
    | some engine =>
      if engine ≠ "" then some engine
      else ((host.files managedId).composeImage.bind inferEngineFromComposeImage).map Engine.code
    | none => ((host.files managedId).composeImage.bind inferEngineFromComposeImage).map Engine.code

/-- `addOrphanDemotedFenceTarget`: the target of a marker without a record. -/
def orphanTarget (host : Host) (managedId : String) : Except String FenceTarget := do
  let marker ← readManagedDemotedMarker host managedId
  return {
    managedId
    memberId := (marker.map DemotedMarker.memberId).filter (· ≠ "")
    engine := (resolveDemotedEngine host managedId marker).getD "postgres" }

def addOrphanDemotedFenceTarget (host : Host) (byId : List FenceTarget) (managedId : String) :
    Except String (List FenceTarget) :=
  if byId.any (·.managedId == managedId) then .ok byId
  else do
    let target ← orphanTarget host managedId
    return byId ++ [target]

def recordTarget (record : MemberRecord) : FenceTarget where
  managedId := record.managedId
  memberId := some record.memberId
  engine := record.engine

def listDemotedFenceTargets (host : Host) : Except String (List FenceTarget) := do
  let members := (listManagedHaMembers host).filter fun record =>
    isManagedMemberDemoted host record.managedId
  let ids ← listDemotedManagedIds host
  ids.foldlM (addOrphanDemotedFenceTarget host) (members.map recordTarget)

/-- A member to fence.  An empty member id is no member id. -/
structure GuardMember where
  managedId : String
  memberId : String
  engine : String

def GuardMember.knownMemberId (member : GuardMember) : Option String :=
  if member.memberId ≠ "" then some member.memberId else none

/-- The guard's `listMembers`: a target without an engine is dropped. -/
def listTargets (host : Host) : Except String (List GuardMember) := do
  let targets ← listDemotedFenceTargets host
  return targets.filterMap fun target =>
    if target.engine = "" then none
    else some {
      managedId := target.managedId
      memberId := target.memberId.getD ""
      engine := target.engine }

/-! ## What a tick does -/

structure DockerResult where
  success : Bool
  stdout : String
  stderr : String

/-- The calls of a tick, each for one cluster and with its answer. -/
inductive Call where
  | docker (args : List String) (answer : Except String DockerResult)
  /-- Planting the fence on the data volume. -/
  | volumeFence (answer : Except String Unit)
  /-- Asking the engine whether it accepts writes. -/
  | probe (answer : Except String Bool)
  /-- Making the engine read-only. -/
  | readOnly (answer : Except String Unit)
  /-- The held stop intent and the notes on the marker. -/
  | note (answer : Except String Unit)
  /-- The result of `isFencedMemberStillWritable`. -/
  | checked (writable : Bool)

structure Event where
  managedId : String
  call : Call

abbrev History : Type := List Event

abbrev Part (α : Type) : Type := Prog String History α

/-- What the guard's calls answer. -/
structure World where
  docker : History → List String → Except String DockerResult
  volumeFence : History → Except String Unit
  probe : History → Except String Bool
  readOnly : History → Except String Unit
  note : History → Except String Unit
  jsonParse : String → Option Json

section

variable (host : Host) (world : World)

/-- `target.run(args)`. -/
def run (managedId : String) (args : List String) : Part DockerResult :=
  perform (world.docker · args) fun answer => ⟨managedId, .docker args answer⟩

/-- `bestEffort`. -/
def bestEffort {α : Type} (part : Part α) : Part Unit := do
  let _ ← Prog.attempt part
  pure ()

/-- A note that is kept if it can be. -/
def keepNote (managedId : String) : Part Unit :=
  bestEffort (perform world.note fun answer => ⟨managedId, .note answer⟩)

/-- `text.trim().split(/\s+/)`. -/
def words (text : String) : List String :=
  (((trim text).toList.splitOnP isSpace).filter (· ≠ [])).map String.ofList

/-- `SAFE_CONTAINER_ID_RE`. -/
def isSafeContainerId (id : String) : Bool :=
  12 ≤ id.toList.length && id.toList.length ≤ 64 &&
    id.toList.all fun c => isDigit c || ('a' ≤ c && c ≤ 'f') || ('A' ≤ c && c ≤ 'F')

/-- `SAFE_CONTAINER_NAME_RE`. -/
def isSafeContainerName (name : String) : Bool :=
  match name.toList with
  | [] => false
  | first :: rest =>
    (isLetter first || isDigit first) && rest.length ≤ 254 &&
      rest.all fun c => isWord c || c == '.' || c == '-'

def parseComposeProjectContainerIds (stdout : String) : List String :=
  (words stdout).filter isSafeContainerId

def projectFilter (project : String) : String := "label=com.docker.compose.project=" ++ project

/-- The ids of the project's containers; `none` when the listing failed. -/
def listComposeProjectContainerIds (managedId : String) : Part (Option (List String)) := do
  let listed ← run world managedId ["ps", "-aq", "--filter", projectFilter managedId]
  if listed.success then pure (some (parseComposeProjectContainerIds listed.stdout))
  else pure none

/-- The ids of `collectRunningContainersByComposeProjectLabel`. -/
def collectRunningContainersByComposeProjectLabel (managedId : String) :
    Part (Option (List String)) := do
  let listed ← run world managedId
    ["ps", "-q", "--filter", projectFilter managedId, "--filter", "status=running"]
  if listed.success then
    let ids := parseComposeProjectContainerIds listed.stdout
    if ids.isEmpty then pure (some [])
    else
      let format := "\x7b\x7bindex .Config.Labels \"com.docker.compose.service\"\x7d\x7d"
      let _ ← run world managedId (["inspect", "--format", format] ++ ids)
      pure (some ids)
  else pure none

/-- Running ids by label, else by `compose ps -q`; `none` when both fail. -/
def fallbackComposeProjectContainerIds (managedId : String) : Part (Option (List String)) := do
  let byLabel ← collectRunningContainersByComposeProjectLabel world managedId
  if !(byLabel.getD []).isEmpty then pure byLabel
  else
    let composeListed ← run world managedId ["compose", "-p", managedId, "ps", "-q"]
    if composeListed.success then
      pure (some (parseComposeProjectContainerIds composeListed.stdout))
    else if byLabel.isSome then pure (some [])
    else pure none

/-- The container names of the record and of the compose file. -/
def demotedContainerNames (managedId : String) : List String :=
  let names := [(readManagedHaMember host managedId).map MemberRecord.containerName,
    (host.files managedId).composeContainerName]
  ((names.filterMap id).filter isSafeContainerName).reverse.dedup.reverse

def stopOrKill (managedId : String) (refs : List String) : Part Unit := do
  if refs.isEmpty then pure ()
  else
    let stopped ← run world managedId ("stop" :: refs)
    if stopped.success then pure ()
    else
      let _ ← run world managedId ("kill" :: refs)
      pure ()

/-- Every listing failed: kill the compose project, then stop or kill by name. -/
def stopByNameWithoutListing (managedId : String) : Part Unit := do
  let _ ← run world managedId ["compose", "-p", managedId, "kill"]
  stopOrKill world managedId (demotedContainerNames host managedId)

/-- `ids ??= await next`. -/
def orNext (ids : Option (List String)) (next : Part (Option (List String))) :
    Part (Option (List String)) :=
  match ids with
  | some ids => pure (some ids)
  | none => next

def forceStopComposeProjectContainers (managedId : String) : Part Unit := do
  let first ← listComposeProjectContainerIds world managedId
  let second ← orNext first (listComposeProjectContainerIds world managedId)
  let ids ← orNext second (fallbackComposeProjectContainerIds world managedId)
  match ids with
  | none => stopByNameWithoutListing host world managedId
  | some ids => stopOrKill world managedId ids

def stopDemotedEngine (managedId : String) : Part Unit := do
  let _ ← run world managedId ["compose", "-p", managedId, "stop"]
  forceStopComposeProjectContainers host world managedId

/-- Kill what there is to kill. -/
def killRefs (managedId : String) (refs : List String) : Part Unit := do
  if refs.isEmpty then pure ()
  else
    let _ ← run world managedId ("kill" :: refs)
    pure ()

/-- Last resort for one tick: kill by project, by running id and by name. -/
def killDemotedEngine (managedId : String) : Part Unit := do
  let _ ← run world managedId ["compose", "-p", managedId, "kill"]
  let ids ← fallbackComposeProjectContainerIds world managedId
  killRefs world managedId (ids.getD [])
  killRefs world managedId (demotedContainerNames host managedId)

/-- `parseComposePsEntries`: an array, one object, or one object a line. -/
def parseComposePsEntries (stdout : String) : List Json :=
  let trimmed := trim stdout
  if trimmed = "" then []
  else
    match world.jsonParse trimmed with
    | some (.array items) => items.filter Json.isRecord
    | some (.object fields) => [.object fields]
    | _ =>
      let rows := ((split '\n' trimmed).map trim).filter (· ≠ "")
      match rows.mapM world.jsonParse with
      | some values => values.filter Json.isRecord
      | none => []

/-- The states of the rows with an id, a name, a service and a state. -/
def containerStates (entries : List Json) : List String :=
  entries.filterMap fun entry => do
    let _ ← (textField entry "ID").filter (· ≠ "")
    let _ ← (textField entry "Name").filter (· ≠ "")
    let _ ← (textField entry "Service").filter (· ≠ "")
    (textField entry "State").filter (· ≠ "")

/-- `collectManagedContainers`: never throws; `none` when the collection failed. -/
def collectManagedContainers (managedId : String) : Part (Option (List String)) := do
  let listed ← Prog.attempt (run world managedId
    ["compose", "-p", managedId, "ps", "--format", "json"])
  match listed with
  | .error _ => pure none
  | .ok result =>
    if result.success then pure (some (containerStates (parseComposePsEntries world result.stdout)))
    else pure none

/-- Ask the engine.  What cannot be asked counts as writable. -/
def probeWritable (managedId : String) : Part Bool := do
  let probed ← Prog.attempt (perform world.probe fun answer => ⟨managedId, .probe answer⟩)
  match probed with
  | .ok writable => pure writable
  | .error _ => pure true

/-- What `isFencedMemberStillWritable` finds out; an engine without a runtime throws. -/
def stillWritable (managedId engine : String) : Part Bool :=
  match runtimeOf engine with
  | none => Prog.fail ("managed engine not supported on this daemon: " ++ engine)
  | some .inherited => pure false
  | some (.engine _) => do
    let observed ← collectManagedContainers world managedId
    match observed with
    | some [] => pure false
    | none => pure true
    | some _ => probeWritable world managedId

def isFencedMemberStillWritable (managedId engine : String) : Part Bool := do
  let writable ← stillWritable world managedId engine
  append ⟨managedId, .checked writable⟩
  pure writable

/-- Plant the fence on the volume; a failure is noted on the marker. -/
def persistDemotedVolumeFenceBestEffort (managedId : String) : Part Unit := do
  let planted ← Prog.attempt
    (perform world.volumeFence fun answer => ⟨managedId, .volumeFence answer⟩)
  match planted with
  | .ok _ => pure ()
  | .error _ => keepNote world managedId

/-- What cannot be listed may be running. -/
def enginePossiblyRunning : Option (List String) → Bool
  | none => true
  | some states => states.any fun state => toLowerCase state == "running"

/-- Make the engine read-only if it may be running; a failure is noted on the marker. -/
def enforceFencedReadOnlySql (managedId engine : String) : Part Unit :=
  match runtimeOf engine with
  | none => Prog.fail ("managed engine not supported on this daemon: " ++ engine)
  | some .inherited => pure ()
  | some (.engine _) => do
    let containers ← collectManagedContainers world managedId
    if enginePossiblyRunning containers then
      let enforced ← Prog.attempt
        (perform world.readOnly fun answer => ⟨managedId, .readOnly answer⟩)
      match enforced with
      | .ok _ => pure ()
      | .error _ => keepNote world managedId
    else pure ()

/-- Bounded retry: true once not writable. -/
def stopUntilNotWritable (managedId engine : String) : ℕ → Part Bool
  | 0 => pure false
  | passesLeft + 1 => do
    stopDemotedEngine host world managedId
    let writable ← isFencedMemberStillWritable world managedId engine
    if writable then stopUntilNotWritable managedId engine passesLeft else pure true

def maxStopPasses : ℕ := 3

/-- The stop passes left it writable: kill, and flag the marker. -/
def escalate (managedId : String) : Part Unit := do
  bestEffort (killDemotedEngine host world managedId)
  keepNote world managedId

/-- `#checkAndStop`, under the lifecycle lock. -/
def checkAndStop (member : GuardMember) : Part Unit := do
  let managedId := member.managedId
  if isManagedMemberDemoted host managedId then
    persistDemotedVolumeFenceBestEffort world managedId
    let writable ← isFencedMemberStillWritable world managedId member.engine
    if writable then
      keepNote world managedId
      enforceFencedReadOnlySql world managedId member.engine
      let stopped ← Prog.attempt
        (stopUntilNotWritable host world managedId member.engine maxStopPasses)
      match stopped with
      | .ok true => keepNote world managedId
      | _ => escalate host world managedId
    else keepNote world managedId
  else pure ()

/-- `#fenceOne`. -/
def fenceOne (member : GuardMember) : Part Unit := do
  if isManagedMemberDestroyed host member.managedId member.knownMemberId then pure ()
  else if !isManagedMemberDemoted host member.managedId then pure ()
  else
    match host.tryLock member.managedId with
    | .error failure => Prog.fail failure
    | .ok false => pure ()
    | .ok true => checkAndStop host world member

/-- One member after the other; a member's failure never skips the others. -/
def fenceAll : List GuardMember → Part Unit
  | [] => pure ()
  | member :: rest => do
    bestEffort (fenceOne host world member)
    fenceAll rest

/-- `tick`.  What discovery throws is logged, and the tick is over. -/
def tick : Part Unit :=
  match listTargets host with
  | .error _ => pure ()
  | .ok members => fenceAll host world members

end

end Turbopaneld.Managed.DemotedGuard
