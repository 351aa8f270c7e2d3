/-
# The generation of the topology

The slots of the hardware that metrics are reported for have a generation, which goes up when
the fingerprint of the hardware changes.  The fingerprint holds sorted ids and the slots; while
sizes are not negotiated it also holds the machine's sizes, of which memory and swap may differ
a little.  The stored fingerprint is that of the generation's first tick.
-/

import Mathlib.Data.Option.Basic
import Turbopaneld.Sequences.StableSort

namespace Turbopaneld.Metrics

open Sequences (Collator sortBy)

/-! ## Snapshots -/

inductive NetworkDeviceKind
  | uplink
  | member
  | virtual
  | fabric
  | containerBridge
  | loopback
deriving DecidableEq, Repr

/-- `NetworkDeviceTopology`. -/
structure NetworkDevice where
  deviceId : String
  kind : NetworkDeviceKind
  defaultRoute : Bool := false
deriving DecidableEq, Repr

inductive FilesystemRole
  | root
  | hosting
  | docker
  | backup
  | logs
  | application
  | custom
deriving DecidableEq, Repr

/-- `FilesystemTopology`. -/
structure Filesystem where
  filesystemId : String
  roles : List FilesystemRole
  totalBytes : Option ℕ
  totalInodes : Option ℕ
deriving DecidableEq, Repr

inductive BlockDeviceType
  | physical
  | virtual
  | partition
deriving DecidableEq, Repr

/-- `BlockDeviceTopology`. -/
structure BlockDevice where
  deviceId : String
  deviceType : BlockDeviceType
  isServiceDevice : Bool
deriving DecidableEq, Repr

/-- `CpuTopology`, where `logicalCores` is the number of its cores. -/
structure CpuShape where
  sockets : ℕ
  coresPerSocket : ℕ
  threadsPerSocket : ℕ
  logicalCores : ℕ
deriving DecidableEq, Repr

/-- `TopologySnapshotInputs`.  Of a GPU and of a signal only the id is read. -/
structure TopologySnapshot where
  networks : List NetworkDevice
  filesystems : List Filesystem
  blockDevices : List BlockDevice
  gpus : List String
  hardwareSignals : List String
  cpu : CpuShape
  memoryTotalBytes : Option ℕ
  swapTotalBytes : Option ℕ
deriving DecidableEq, Repr

structure TopologyOverrides where
  nicSlotDeviceIds : List String
  hostingFilesystemId : Option String
deriving DecidableEq, Repr

/-! ## Slots -/

/-- `MAX_NIC_SLOTS`. -/
def maxNicSlots : ℕ := 11

/-- The loop of `normalizeNicSlotList`, behind the ids in `out`. -/
def nicSlotsFrom (out : List String) : List String → List String
  | [] => out
  | id :: ids =>
    if id = "" ∨ id ∈ out then nicSlotsFrom out ids
    else if maxNicSlots ≤ (out ++ [id]).length then out ++ [id]
    else nicSlotsFrom (out ++ [id]) ids

def normalizeNicSlotList (ids : List String) : List String := nicSlotsFrom [] ids

section

variable (collator : Collator String)

/-- Ids in the order of `localeCompare`. -/
def sortIds (ids : List String) : List String := sortBy collator id ids

def isUplink (device : NetworkDevice) : Bool := device.kind = .uplink

def resolveDefaultNicSlots (networks : List NetworkDevice) : List String :=
  let uplinks := networks.filter isUplink
  match uplinks.find? (·.defaultRoute) with
  | some gateway => [gateway.deviceId]
  | none => (sortIds collator (uplinks.map (·.deviceId))).head?.toList

/-- `FILESYSTEM_ROLE_PRIORITY`. -/
def filesystemRolePriority : List FilesystemRole := [.root, .hosting, .docker, .backup, .logs]

def isWholeDisk (device : BlockDevice) : Bool := device.deviceType = .physical

def Filesystem.hasRole (role : FilesystemRole) (fs : Filesystem) : Bool := role ∈ fs.roles

/-- Pin an id that is known and not pinned yet. -/
def pin (known pinned : List String) (id : String) : List String :=
  if id = "" ∨ id ∉ known ∨ id ∈ pinned then pinned else pinned ++ [id]

def resolveFilesystemPageOrder (filesystems : List Filesystem) (hostingOverride : Option String) :
    List String :=
  let allSorted := sortIds collator (filesystems.map (·.filesystemId))
  let first := pin allSorted [] (hostingOverride.getD "")
  let pinned := filesystemRolePriority.foldl (fun pinned role =>
    (sortIds collator ((filesystems.filter (·.hasRole role)).map (·.filesystemId))).foldl
      (pin allSorted) pinned) first
  pinned ++ allSorted.filter (· ∉ pinned)

structure SlotMapping where
  normalNicSlots : List String
  fabricDeviceIds : List String
  rootFilesystemId : Option String
  gpuPageOrder : List String
  blockPageOrder : List String
  filesystemPageOrder : List String
  hardwareSignalPageOrder : List String
deriving DecidableEq, Repr

def computeSlotMapping (snapshot : TopologySnapshot) (overrides : TopologyOverrides) :
    SlotMapping :=
  let explicit := normalizeNicSlotList overrides.nicSlotDeviceIds
  { normalNicSlots :=
      if explicit ≠ [] then explicit else resolveDefaultNicSlots collator snapshot.networks
    fabricDeviceIds := sortIds collator
      ((snapshot.networks.filter (·.kind = .fabric)).map (·.deviceId))
    rootFilesystemId := (snapshot.filesystems.find? (·.hasRole .root)).map (·.filesystemId)
    gpuPageOrder := sortIds collator snapshot.gpus
    blockPageOrder := sortIds collator ((snapshot.blockDevices.filter isWholeDisk).map (·.deviceId))
    filesystemPageOrder :=
      resolveFilesystemPageOrder collator snapshot.filesystems overrides.hostingFilesystemId
    hardwareSignalPageOrder := sortIds collator snapshot.hardwareSignals }

/-! ## Fingerprints -/

structure FilesystemCapacity where
  filesystemId : String
  totalBytes : Option ℕ
  totalInodes : Option ℕ
deriving DecidableEq, Repr

structure TopologySizes where
  memoryTotalBytes : Option ℕ
  swapTotalBytes : Option ℕ
  filesystemCapacities : List FilesystemCapacity
  cpuShape : CpuShape
deriving DecidableEq, Repr

/-- The fields of a fingerprint besides the sizes. -/
structure TopologyIdentity where
  networkDeviceIds : List String
  filesystemIds : List String
  serviceBlockDeviceIds : List String
  gpuIds : List String
  hardwareSignalIds : List String
  slotMapping : SlotMapping
deriving DecidableEq, Repr

structure TopologyFingerprint where
  identity : TopologyIdentity
  sizes : Option TopologySizes
deriving DecidableEq, Repr

def sizesOf (current : TopologySnapshot) : TopologySizes where
  memoryTotalBytes := current.memoryTotalBytes
  swapTotalBytes := current.swapTotalBytes
  filesystemCapacities := sortBy collator (·.filesystemId)
    (current.filesystems.map fun fs => ⟨fs.filesystemId, fs.totalBytes, fs.totalInodes⟩)
  cpuShape := current.cpu

def computeTopologyFingerprint (current : TopologySnapshot) (overrides : TopologyOverrides)
    (includeSizes : Bool) : TopologyFingerprint where
  identity :=
    { networkDeviceIds := sortIds collator (current.networks.map (·.deviceId))
      filesystemIds := sortIds collator (current.filesystems.map (·.filesystemId))
      serviceBlockDeviceIds := sortIds collator
        ((current.blockDevices.filter (·.isServiceDevice)).map (·.deviceId))
      gpuIds := sortIds collator current.gpus
      hardwareSignalIds := sortIds collator current.hardwareSignals
      slotMapping := computeSlotMapping collator current overrides }
  sizes := if includeSizes then some (sizesOf collator current) else none

end

/-- `MEMORY_TOTAL_TOLERANCE_BYTES`. -/
def memoryTotalToleranceBytes : ℕ := 32 * 1024 * 1024

def totalWithinTolerance : Option ℕ → Option ℕ → Bool
  | some a, some b => a ≤ b + memoryTotalToleranceBytes && b ≤ a + memoryTotalToleranceBytes
  | none, none => true
  | _, _ => false

def sizesEqual (a : Option TopologySizes) (b : TopologySizes) : Bool :=
  match a with
  | none => true
  | some a =>
    totalWithinTolerance a.memoryTotalBytes b.memoryTotalBytes &&
      totalWithinTolerance a.swapTotalBytes b.swapTotalBytes &&
      a.filesystemCapacities == b.filesystemCapacities && a.cpuShape == b.cpuShape

def fingerprintsEqual (a b : TopologyFingerprint) : Bool :=
  a.identity == b.identity && b.sizes.all (sizesEqual a.sizes)

/-! ## Ticks -/

def computeTopologyGeneration (previous : Option (ℕ × TopologyFingerprint))
    (fingerprint : TopologyFingerprint) : ℕ :=
  match previous with
  | none => 0
  | some (generation, stored) =>
    if fingerprintsEqual stored fingerprint then generation else generation + 1

/-- What the state file holds. -/
structure TopologyGenerationState where
  generation : ℕ
  appliedAt : String
  fingerprint : TopologyFingerprint
deriving DecidableEq, Repr

/-- A call of `resolveTopologyGeneration`: what it reads, besides the state file. -/
structure TopologyTick where
  current : TopologySnapshot
  overrides : TopologyOverrides
  now : String
  sizesNegotiated : Bool

def TopologyTick.fingerprint (collator : Collator String) (tick : TopologyTick) :
    TopologyFingerprint :=
  computeTopologyFingerprint collator tick.current tick.overrides !tick.sizesNegotiated

/-- The generation of the tick, and the state file behind it. -/
def resolveTopologyGeneration (collator : Collator String)
    (previous : Option TopologyGenerationState) (tick : TopologyTick) :
    ℕ × TopologyGenerationState :=
  let fingerprint := tick.fingerprint collator
  let generation := computeTopologyGeneration
    (previous.map fun state => (state.generation, state.fingerprint)) fingerprint
  match previous with
  | none => (generation, ⟨generation, tick.now, fingerprint⟩)
  | some state =>
    let reused := state.generation = generation
    (generation,
      { generation
        appliedAt := if reused then state.appliedAt else tick.now
        fingerprint :=
          if reused ∧ fingerprint.sizes.isSome ∧ state.fingerprint.sizes.isSome then
            state.fingerprint
          else fingerprint })

end Turbopaneld.Metrics
