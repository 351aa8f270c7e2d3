/-
# Intent markers

A command that may take an engine down leaves a marker, and the dead-primary probe ignores a
cluster whose marker is active.  There is one slot for each cluster, in memory and on disk,
shared by all commands on it.  A command's begin reads the slot and then writes it; so does
its end.  Other commands run at every await in between, so begin and end are taken apart
here into the pieces that run without a break.
-/

import Mathlib.Logic.Function.Basic
import Turbopaneld.Machines.Runs

namespace Turbopaneld.Managed.Intent

/-! ## Markers -/

inductive ManagedIntentKind where
  | apply
  | start
  | stop
  | restart
  | destroy
  | promote
  | failover
  | restore
deriving DecidableEq

/-- A marker.  The id is unique to one write. -/
structure ManagedIntent where
  id : ℕ
  kind : ManagedIntentKind
  setAtMs : ℕ
  untilMs : Option ℕ
  maxUntilMs : Option ℕ
deriving DecidableEq

inductive ManagedIntentMode where
  | running
  | transient
  | held
deriving DecidableEq

def managedIntentMaxRunningMs : ℕ := 6 * 60 * 60000

def managedIntentTtlMs : ℕ := 10 * 60000

def managedIntentSettledTtlMs : ℕ := 60000

def managedIntentGraceMs : ℕ := 30000

/-- The marker `recordManagedIntent` writes. -/
def newIntent (id : ℕ) (kind : ManagedIntentKind) (mode : ManagedIntentMode) (nowMs ttlMs : ℕ) :
    ManagedIntent where
  id := id
  kind := kind
  setAtMs := nowMs
  untilMs := if mode = .transient then some (nowMs + ttlMs) else none
  maxUntilMs := if mode = .running then some (nowMs + managedIntentMaxRunningMs) else none

/-- What memory holds for a cluster once this process has written. -/
inductive Slot where
  | marker (intent : ManagedIntent)
  | cleared
deriving DecidableEq

inductive IntentLookup where
  | none
  | found (intent : ManagedIntent)
  | unreadable
deriving DecidableEq

/-- The current marker: this process's own write wins, else the disk copy. -/
def lookupManagedIntent (memory : Option Slot) (disk : IntentLookup) : IntentLookup :=
  match memory with
  | some .cleared => .none
  | some (.marker intent) => .found intent
  | Option.none => disk

def isManagedIntentActive (intent : ManagedIntent) (nowMs : ℕ) : Bool :=
  match intent.untilMs with
  | some untilMs => nowMs < untilMs + managedIntentGraceMs
  | Option.none =>
    match intent.maxUntilMs with
    | Option.none => true
    | some maxUntilMs => nowMs < maxUntilMs

/-- Fail closed: an unreadable marker is active. -/
def isIntentLookupActive (lookup : IntentLookup) (nowMs : ℕ) : Bool :=
  match lookup with
  | .unreadable => true
  | .found intent => isManagedIntentActive intent nowMs
  | .none => false

def isHeldIntent : IntentLookup → Bool
  | .found intent => intent.untilMs = Option.none && intent.maxUntilMs = Option.none
  | _ => false

/-- The kinds whose success releases a held stop. -/
def releasesHeld : ManagedIntentKind → Bool
  | .start | .restart | .apply | .promote | .failover => true
  | _ => false

def settlesQuickly : ManagedIntentKind → Bool
  | .apply | .promote | .failover => true
  | _ => false

/-- How long the marker of an ended command stays. -/
def endTtlMs (kind : ManagedIntentKind) (succeeded : Bool) : ℕ :=
  if succeeded && settlesQuickly kind then managedIntentSettledTtlMs else managedIntentTtlMs

/-! ## Commands on one cluster -/

/-- Where a command is. -/
inductive Phase where
  /-- Begin was called; the disk copy is being read. -/
  | beginReading
  /-- Begin has its lookup. -/
  | beginLooked (current : IntentLookup)
  /-- Begin has set the marker in memory; the disk copy is being written. -/
  | beginWriting (written : ManagedIntent)
  /-- Begin has returned, end is not called. -/
  | running (ownId : Option ℕ) (returnedAtMs : ℕ)
  | endReading (ownId : Option ℕ) (succeeded : Bool)
  | endLooked (ownId : Option ℕ) (succeeded : Bool) (current : IntentLookup)
  | endWriting (written : ManagedIntent)
  /-- A destroy that succeeded: the disk copy is being removed. -/
  | endRemoving
  | ended
deriving DecidableEq

structure Command where
  kind : ManagedIntentKind
  phase : Phase
  /-- How many stops had ended with success when this command began. -/
  beganAfter : ℕ
deriving DecidableEq

/-- The slot of one cluster in one daemon process, the commands on it, and the clock. -/
structure State where
  nowMs : ℕ
  nextId : ℕ
  memory : Option Slot
  disk : IntentLookup
  commands : ℕ → Option Command
  /-- The stops that have ended with success. -/
  stops : ℕ
  /-- A command that began after the last of them has ended with success, or a destroy has. -/
  released : Bool

/-- A process that has not written yet, over whatever is on disk. -/
def start (disk : IntentLookup) (nowMs : ℕ) : State where
  nowMs := nowMs
  nextId := 0
  memory := Option.none
  disk := disk
  commands := fun _ => Option.none
  stops := 0
  released := true

def State.lookup (s : State) : IntentLookup := lookupManagedIntent s.memory s.disk

def State.setPhase (s : State) (c : ℕ) (command : Command) (phase : Phase) : State :=
  { s with commands := Function.update s.commands c (some { command with phase }) }

/-- The part of `recordManagedIntent` before its first await. -/
def State.record (s : State) (kind : ManagedIntentKind) (mode : ManagedIntentMode) (ttlMs : ℕ) :
    ManagedIntent × State :=
  let intent := newIntent s.nextId kind mode s.nowMs ttlMs
  (intent, { s with nextId := s.nextId + 1, memory := some (.marker intent) })

/-- Begin is called.  A lookup in memory is done at once. -/
def begin (s : State) (c : ℕ) (kind : ManagedIntentKind) : Option State :=
  match s.commands c with
  | some _ => Option.none
  | Option.none =>
    let phase := if s.memory = Option.none then .beginReading else .beginLooked s.lookup
    some { s with
      commands := Function.update s.commands c
        (some { kind, phase, beganAfter := s.stops }) }

/-- Begin goes on after its lookup. -/
def beginDecide (s : State) (c : ℕ) (command : Command) (current : IntentLookup) : State :=
  if command.kind ≠ .destroy && isHeldIntent current then
    s.setPhase c command (.running Option.none s.nowMs)
  else
    let mode := if command.kind = .destroy then .held else .running
    let (written, s') := s.record command.kind mode managedIntentTtlMs
    s'.setPhase c command (.beginWriting written)

/-- End is called. -/
def callEnd (s : State) (c : ℕ) (command : Command) (ownId : Option ℕ) (succeeded keepHeld : Bool) :
    State :=
  if succeeded && command.kind = .destroy && keepHeld then s.setPhase c command .ended
  else if succeeded && command.kind = .destroy then
    { s.setPhase c command .endRemoving with memory := some .cleared, released := true }
  else
    let phase :=
      if s.memory = Option.none then .endReading ownId succeeded
      else .endLooked ownId succeeded s.lookup
    let released := s.released ||
      (succeeded && releasesHeld command.kind && command.beganAfter = s.stops)
    { s.setPhase c command phase with released }

/-- The marker of this command is the current one. -/
def owns (ownId : Option ℕ) (current : IntentLookup) : Bool :=
  match current, ownId with
  | .found intent, some id => intent.id = id
  | _, _ => false

/-- What end writes after its lookup, if anything. -/
def endWrite (kind : ManagedIntentKind) (ownId : Option ℕ) (succeeded : Bool)
    (current : IntentLookup) : Option ManagedIntentMode :=
  if succeeded && kind = .stop then some .held
  else if succeeded && releasesHeld kind && isHeldIntent current then some .transient
  else if !owns ownId current || kind = .destroy then Option.none
  else some .transient

/-- End goes on after its lookup. -/
def endDecide (s : State) (c : ℕ) (command : Command) (ownId : Option ℕ) (succeeded : Bool)
    (current : IntentLookup) : State :=
  match endWrite command.kind ownId succeeded current with
  | Option.none => s.setPhase c command .ended
  | some mode =>
    let (written, s') := s.record command.kind mode (endTtlMs command.kind succeeded)
    let s'' := s'.setPhase c command (.endWriting written)
    if mode = .held then { s'' with stops := s.stops + 1, released := false } else s''

inductive Action where
  | advance (ms : ℕ)
  | begin (c : ℕ) (kind : ManagedIntentKind)
  /-- A read of the disk copy comes back. -/
  | read (c : ℕ)
  /-- The continuation after a lookup. -/
  | decide (c : ℕ)
  /-- A write or removal of the disk copy takes effect. -/
  | land (c : ℕ)
  /-- A write or removal comes back, with or without having taken effect. -/
  | settle (c : ℕ)
  | callEnd (c : ℕ) (succeeded keepHeld : Bool)

def step (s : State) : Action → Option State
  | .advance ms => some { s with nowMs := s.nowMs + ms }
  | .begin c kind => begin s c kind
  | .read c => do
    let command ← s.commands c
    match command.phase with
    | .beginReading => some (s.setPhase c command (.beginLooked s.disk))
    | .endReading ownId succeeded => some (s.setPhase c command (.endLooked ownId succeeded s.disk))
    | _ => Option.none
  | .decide c => do
    let command ← s.commands c
    match command.phase with
    | .beginLooked current => some (beginDecide s c command current)
    | .endLooked ownId succeeded current => some (endDecide s c command ownId succeeded current)
    | _ => Option.none
  | .land c => do
    let command ← s.commands c
    match command.phase with
    | .beginWriting written => some { s with disk := .found written }
    | .endWriting written => some { s with disk := .found written }
    | .endRemoving => some { s with disk := .none }
    | _ => Option.none
  | .settle c => do
    let command ← s.commands c
    match command.phase with
    | .beginWriting written => some (s.setPhase c command (.running (some written.id) s.nowMs))
    | .endWriting _ => some (s.setPhase c command .ended)
    | .endRemoving => some (s.setPhase c command .ended)
    | _ => Option.none
  | .callEnd c succeeded keepHeld => do
    let command ← s.commands c
    match command.phase with
    | .running ownId _ => some (callEnd s c command ownId succeeded keepHeld)
    | _ => Option.none

end Turbopaneld.Managed.Intent
