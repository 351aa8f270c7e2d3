/-
# The metrics scheduler

A scheduler that is attached to a sink collects a sample on every tick of a timer and gives it
to the sink.  A second timer may stream samples beside it, from a collector of its own.  A
collect that outlives its deadline is abandoned and goes on running.

An emit is known by the sequence number it took.  The model keeps, beside what the source keeps,
the collects that have not settled and what was given to sinks.
-/

import Mathlib.Logic.Function.Basic
import Mathlib.Order.Basic
import Turbopaneld.Machines.Runs

namespace Turbopaneld.Metrics

/-- `MetricsSink`: sinks and collectors are known by number. -/
abbrev Sink := ℕ

abbrev Collector := ℕ

/-- How a collect ends for the emit that waits for it. -/
inductive Outcome
  | supported
  | unsupported
  | failed
  /-- The deadline passed first. -/
  | deadline
deriving DecidableEq, Repr

/-- What an emit waits for. -/
inductive Phase
  | collecting
  /-- The collect has ended, and the emit goes on in its turn. -/
  | collected (outcome : Outcome)
  | sending
deriving DecidableEq, Repr

/-- A call of `#emit`, whose samples are durable, or of `#emitStream`. -/
structure Emit where
  durable : Bool
  generation : ℕ
  send : Sink
  collector : Collector
  phase : Phase
deriving DecidableEq, Repr

/-- What the callback of a timer closes over. -/
structure Tick where
  generation : ℕ
  send : Sink

/-- A sample that was given to a sink, with what was attached then. -/
structure Given where
  durable : Bool
  generation : ℕ
  send : Sink
  sequence : ℕ
  attachedGeneration : ℕ
  attachedSend : Option Sink

structure MetricsScheduler where
  /-- `#primeMs` and the jitter. -/
  delayMs : ℕ
  intervalMs : ℕ
  streamCollector : Option Collector := none
  streamTimer : Option Tick := none
  streamIntervalMs : Option ℕ := none
  streamEmitting : Bool := false
  send : Option Sink := none
  collector : Option Collector := none
  /-- The first timer, and whether it is the primed one. -/
  firstTimer : Option (Bool × Tick) := none
  intervalTimer : Option Tick := none
  sequence : ℕ := 0
  unsupportedStopped : Bool := false
  attachGeneration : ℕ := 0
  activeEmitGeneration : Option ℕ := none
  /-- The number of the collector the factory makes next. -/
  nextCollector : Collector := 0
  /-- The emits under way. -/
  emits : ℕ → Option Emit := fun _ => none
  /-- The collects that have not settled, each by the emit that called it. -/
  unsettled : ℕ → Option Collector := fun _ => none
  given : List Given := []

namespace MetricsScheduler

/-! ## Emits -/

/-- A call of `collect`, with the next sequence number. -/
def callCollect (s : MetricsScheduler) (durable : Bool) (generation : ℕ) (send : Sink)
    (collector : Collector) : MetricsScheduler :=
  let sequence := s.sequence + 1
  { s with
    sequence
    emits := Function.update s.emits sequence
      (some ⟨durable, generation, send, collector, .collecting⟩)
    unsettled := Function.update s.unsettled sequence (some collector) }

/-- `#emit`, up to its collect. -/
def emit (s : MetricsScheduler) (tick : Tick) : MetricsScheduler :=
  if tick.generation ≠ s.attachGeneration then s
  else if s.unsupportedStopped then s
  else if s.activeEmitGeneration = some tick.generation then s
  else
    match s.collector with
    | none => s
    | some collector =>
      callCollect { s with activeEmitGeneration := some tick.generation } true tick.generation
        tick.send collector

/-- `#emitStream`, up to its collect. -/
def emitStream (s : MetricsScheduler) (tick : Tick) : MetricsScheduler :=
  match s.streamCollector with
  | none => s
  | some collector =>
    if tick.generation ≠ s.attachGeneration ∨ s.streamEmitting then s
    else callCollect { s with streamEmitting := true } false tick.generation tick.send collector

/-- A collector of the factory's. -/
def makeCollector (s : MetricsScheduler) : Collector × MetricsScheduler :=
  (s.nextCollector, { s with nextCollector := s.nextCollector + 1 })

/-- `#freshCollector`, where `made` says whether the factory returns. -/
def freshCollector (s : MetricsScheduler) (generation : ℕ) (current : Collector) (made : Bool) :
    Collector × MetricsScheduler :=
  if generation ≠ s.attachGeneration then (current, s)
  else if made then s.makeCollector
  else (current, s)

/-- The `finally` of both emits. -/
def finish (s : MetricsScheduler) (sequence : ℕ) (e : Emit) : MetricsScheduler :=
  let s := { s with emits := Function.update s.emits sequence none }
  if e.durable then
    if s.activeEmitGeneration = some e.generation then { s with activeEmitGeneration := none } else s
  else { s with streamEmitting := false }

def setPhase (s : MetricsScheduler) (sequence : ℕ) (e : Emit) (phase : Phase) : MetricsScheduler :=
  { s with emits := Function.update s.emits sequence (some { e with phase }) }

/-- The call of the sink. -/
def give (s : MetricsScheduler) (sequence : ℕ) (e : Emit) : MetricsScheduler :=
  { s.setPhase sequence e .sending with
    given := s.given ++
      [⟨e.durable, e.generation, e.send, sequence, s.attachGeneration, s.send⟩] }

def stopPeriodicTimer (s : MetricsScheduler) : MetricsScheduler := { s with intervalTimer := none }

/-- `#emit` from the end of its collect. -/
def resumeEmit (s : MetricsScheduler) (sequence : ℕ) (e : Emit) (made : Bool) :
    Outcome → MetricsScheduler
  | .failed => s.finish sequence e
  | .deadline =>
    if e.generation ≠ s.attachGeneration then s.finish sequence e
    else if s.collector = some e.collector then
      let (collector, s) := s.freshCollector e.generation e.collector made
      finish { s with collector := some collector } sequence e
    else s.finish sequence e
  | .unsupported =>
    if e.generation ≠ s.attachGeneration then s.finish sequence e
    else finish { s.stopPeriodicTimer with unsupportedStopped := true } sequence e
  | .supported =>
    if e.generation ≠ s.attachGeneration then s.finish sequence e
    else if s.send ≠ some e.send then s.finish sequence e
    else s.give sequence e

/-- `#emitStream` from the end of its collect. -/
def resumeStream (s : MetricsScheduler) (sequence : ℕ) (e : Emit) (made : Bool) :
    Outcome → MetricsScheduler
  | .failed => s.finish sequence e
  | .deadline =>
    if s.streamCollector = some e.collector then
      let (collector, s) := s.freshCollector e.generation e.collector made
      finish { s with streamCollector := some collector } sequence e
    else s.finish sequence e
  | .unsupported => s.finish sequence e
  | .supported =>
    if e.generation ≠ s.attachGeneration then s.finish sequence e
    else if s.send ≠ some e.send then s.finish sequence e
    else s.give sequence e

/-! ## Calls and timers -/

def stopStreamTimer (s : MetricsScheduler) : MetricsScheduler := { s with streamTimer := none }

def detach (s : MetricsScheduler) : MetricsScheduler :=
  { s.stopStreamTimer with
    attachGeneration := s.attachGeneration + 1
    firstTimer := none
    intervalTimer := none
    streamIntervalMs := none
    streamCollector := none
    send := none
    collector := none }

/-- `attach`, where `made` says whether the factory returns. -/
def attach (s : MetricsScheduler) (send : Sink) (made : Bool) : MetricsScheduler :=
  let s := s.detach
  let s := { s with attachGeneration := s.attachGeneration + 1 }
  if !made then s
  else
    let (collector, s) := s.makeCollector
    { s with
      send := some send
      collector := some collector
      unsupportedStopped := false
      firstTimer := some (false, ⟨s.attachGeneration, send⟩) }

def armInterval (s : MetricsScheduler) (tick : Tick) : MetricsScheduler :=
  if tick.generation ≠ s.attachGeneration then s
  else if s.unsupportedStopped ∨ s.send ≠ some tick.send then s
  else if s.intervalTimer.isSome then s
  else { s with intervalTimer := some tick }

def schedulePrimedCadence (s : MetricsScheduler) (tick : Tick) : MetricsScheduler :=
  if tick.generation ≠ s.attachGeneration then s
  else if s.unsupportedStopped ∨ s.send ≠ some tick.send then s
  else if s.delayMs = 0 then s.armInterval tick
  else { s with firstTimer := some (true, tick) }

/-- The callbacks of the first timer. -/
def onFirstTimer (s : MetricsScheduler) (primed : Bool) (tick : Tick) : MetricsScheduler :=
  let s := emit { s with firstTimer := none } tick
  if primed then s.armInterval tick else s.schedulePrimedCadence tick

def setIntervalMs (s : MetricsScheduler) (ms : ℕ) : MetricsScheduler :=
  if ms = s.intervalMs then s
  else
    let s := { s with intervalMs := ms }
    if s.intervalTimer.isNone then s
    else
      let s := { s with intervalTimer := none }
      match s.send with
      | none => s
      | some send => s.armInterval ⟨s.attachGeneration, send⟩

/-- `setStreamIntervalMs` from where the collector is chosen. -/
def startStream (s : MetricsScheduler) (send : Sink) (collector : Collector) : MetricsScheduler :=
  let tick : Tick := ⟨s.attachGeneration, send⟩
  { emitStream { s with streamCollector := some collector } tick with streamTimer := some tick }

def setStreamIntervalMs (s : MetricsScheduler) (ms : Option ℕ) (made : Bool) : MetricsScheduler :=
  if ms = s.streamIntervalMs then s
  else
    let s := stopStreamTimer { s with streamIntervalMs := ms }
    match ms, s.send with
    | some _, some send =>
      match s.streamCollector with
      | some collector => s.startStream send collector
      | none =>
        if made then s.makeCollector.2.startStream send s.makeCollector.1
        else s
    | _, _ => s

/-! ## Steps -/

inductive Action
  | attach (send : Sink) (made : Bool)
  | detach
  | setServerId (delayMs : ℕ)
  | setIntervalMs (ms : ℕ)
  | setStreamIntervalMs (ms : Option ℕ) (made : Bool)
  | firstTimer
  | intervalTimer
  | streamTimer
  /-- A collect settles, whether it was abandoned or not. -/
  | settle (sequence : ℕ) (outcome : Outcome)
  | deadline (sequence : ℕ)
  /-- An emit goes on behind its collect; `made` says whether the factory returns. -/
  | resume (sequence : ℕ) (made : Bool)
  /-- The promise of a send settles. -/
  | sent (sequence : ℕ)

def step (s : MetricsScheduler) : Action → Option MetricsScheduler
  | .attach send made => some (s.attach send made)
  | .detach => some s.detach
  | .setServerId delayMs => some { s with delayMs }
  | .setIntervalMs ms => some (s.setIntervalMs ms)
  | .setStreamIntervalMs ms made => some (s.setStreamIntervalMs ms made)
  | .firstTimer => s.firstTimer.map fun (primed, tick) => s.onFirstTimer primed tick
  | .intervalTimer => s.intervalTimer.map s.emit
  | .streamTimer => s.streamTimer.map s.emitStream
  | .settle sequence outcome =>
    if outcome = .deadline then none
    else
      match s.unsettled sequence, s.emits sequence with
      | none, _ => none
      | some _, some e =>
        let s := { s with unsettled := Function.update s.unsettled sequence none }
        if e.phase = .collecting then
          some (s.setPhase sequence e (.collected outcome))
        else some s
      | some _, none =>
        some { s with unsettled := Function.update s.unsettled sequence none }
  | .deadline sequence =>
    match s.emits sequence with
    | none => none
    | some e =>
      if e.phase = .collecting then
        some (s.setPhase sequence e (.collected .deadline))
      else none
  | .resume sequence made =>
    match s.emits sequence with
    | some ⟨durable, generation, send, collector, .collected outcome⟩ =>
      let e : Emit := ⟨durable, generation, send, collector, .collected outcome⟩
      some (if durable then s.resumeEmit sequence e made outcome
        else s.resumeStream sequence e made outcome)
    | _ => none
  | .sent sequence =>
    match s.emits sequence with
    | none => none
    | some e => if e.phase = .sending then some (s.finish sequence e) else none

end MetricsScheduler

end Turbopaneld.Metrics
