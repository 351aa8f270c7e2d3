/-
# The dead-primary detector

The daemon on a managed PostgreSQL primary's own host probes the engine and feeds each
sample to a small state machine.  A false alarm fails over a healthy cluster, so a sample
that cannot be read resets the streak, and a server that rejects connections or does not
answer counts only once its grace has run out.

Times are exact milliseconds.  Reading Docker's `StartedAt` and cleaning a text for the
log are parameters.
-/

import Mathlib.Data.Rat.Defs
import Mathlib.Order.Lattice
import Mathlib.Algebra.Order.Field.Rat

namespace Turbopaneld.Managed

/-- The settings of the detector that it reads. -/
structure PgDeadPrimaryConfig where
  failureThreshold : ℕ
  minFailureSpanMs : ℚ
  rejectingGraceMs : ℚ
  crashRecoveryGraceMs : ℚ
  startGraceMs : ℚ
  unresponsiveGraceMs : ℚ
  backoffMs : ℚ
  resendBaseMs : ℚ
  resendMaxMs : ℚ
  maxEventsPerIncident : ℕ

structure ContainerSnapshot where
  status : String
  exitCode : ℤ
  restartCount : ℕ
  startedAt : Option String
  health : Option String
  oomKilled : Option Bool

inductive ContainerRead where
  | present (state : ContainerSnapshot)
  | absent
  | unreadable (reason : String)

/-- `pg_isready`: an exit code, or why there is none. -/
inductive PgReadyRead where
  | exit (code : ℤ) (output : String)
  | unreadable (reason : String)

inductive ControlDataState where
  | inProduction
  | inCrashRecovery
  | inArchiveRecovery
  | shutDown
  | shutDownInRecovery
  | shuttingDown
  | unknown
  | unreadable
deriving DecidableEq

def ControlDataState.text : ControlDataState → String
  | .inProduction => "in production"
  | .inCrashRecovery => "in crash recovery"
  | .inArchiveRecovery => "in archive recovery"
  | .shutDown => "shut down"
  | .shutDownInRecovery => "shut down in recovery"
  | .shuttingDown => "shutting down"
  | .unknown => "unknown"
  | .unreadable => "unreadable"

inductive PostmasterState where
  | running
  | stopped
  | unknown
deriving DecidableEq

def PostmasterState.text : PostmasterState → String
  | .running => "running"
  | .stopped => "stopped"
  | .unknown => "unknown"

structure ProbeSample where
  container : ContainerRead
  pgReady : Option PgReadyRead
  controlData : Option ControlDataState
  postmaster : Option PostmasterState

/-- What a sample shows. -/
inductive Observation where
  | healthy
  | inconclusive (reason : String)
  /-- Not dead yet: counts as hard only once its grace has run out. -/
  | soft (reason : String) (graceMs : ℚ)
  | hard (reason : String)
  /-- The node is in archive recovery: never fire. -/
  | notPrimary (reason : String)

def deadContainerStates : List String :=
  ["exited", "dead", "restarting", "created", "paused", "removing"]

def crashRecoveryGraceStates : List ControlDataState := [.inCrashRecovery, .unknown, .unreadable]

section

-- `Date.parse`, `none` for what is no date.
variable (parseDate : String → Option ℚ)

/-- The age of a container, `none` for a start that is not known (an endless age). -/
def containerAgeMs (state : ContainerSnapshot) (nowMs : ℚ) : Option ℚ :=
  (state.startedAt.bind parseDate).map fun started => nowMs - started

def classifyNoResponse (sample : ProbeSample) (state : ContainerSnapshot) (wallMs : ℚ)
    (config : PgDeadPrimaryConfig) : Observation :=
  if (containerAgeMs parseDate state wallMs).any fun age => decide (age < config.startGraceMs) then
    .soft "postgres not answering yet after container start" config.startGraceMs
  else if sample.postmaster = some .stopped then
    .hard "postgres not answering and postmaster gone"
  else
    .soft ("postgres not answering (pg_isready 2), postmaster " ++
      (sample.postmaster.getD .unknown).text) config.unresponsiveGraceMs

def classifyRejecting (sample : ProbeSample) (config : PgDeadPrimaryConfig) : Observation :=
  if sample.controlData = some .inArchiveRecovery then .notPrimary "engine is in archive recovery"
  else if crashRecoveryGraceStates.contains (sample.controlData.getD .unreadable) then
    .soft ("postgres rejecting connections (57P03), control data: " ++
      (sample.controlData.map ControlDataState.text).getD "not read") config.crashRecoveryGraceMs
  else .soft "postgres rejecting connections (57P03)" config.rejectingGraceMs

def classifyPgReady (sample : ProbeSample) (state : ContainerSnapshot) (nowMs : ℚ)
    (config : PgDeadPrimaryConfig) : Observation :=
  match sample.pgReady with
  | none => .inconclusive "pg_isready unreadable: not run"
  | some (.unreadable reason) => .inconclusive ("pg_isready unreadable: " ++ reason)
  | some (.exit code _) =>
    if code = 0 then .healthy
    else if code = 1 then classifyRejecting sample config
    else if code = 2 then classifyNoResponse parseDate sample state nowMs config
    else .inconclusive ("pg_isready exit " ++ toString code)

/-- One sample to one observation; `nowMs` is wall time. -/
def classifyProbeSample (sample : ProbeSample) (nowMs : ℚ) (config : PgDeadPrimaryConfig) :
    Observation :=
  match sample.container with
  | .unreadable reason => .inconclusive ("container state unreadable: " ++ reason)
  | .absent => .hard "engine container absent"
  | .present state =>
    if deadContainerStates.contains state.status then
      .hard ("container " ++ state.status ++ " exit=" ++ toString state.exitCode ++
        (if state.oomKilled.getD false then " oom" else ""))
    else if state.status ≠ "running" then .inconclusive ("container status " ++ state.status)
    else classifyPgReady parseDate sample state nowMs config

end

structure DeadPrimaryEvidence where
  failures : ℕ
  spanMs : ℚ
  lastError : String
  container : Option ContainerSnapshot
  scope : String
  attempt : ℕ

structure DetectorStepContext where
  /-- Monotonic time. -/
  nowMs : ℚ
  /-- Wall time, only compared with Docker's `StartedAt`. -/
  wallMs : Option ℚ
  /-- A platform action holds an intent marker for the cluster. -/
  intentActive : Bool

/-- The fields of the detector. -/
structure DeadPrimaryDetector where
  streak : ℕ
  streakStartMs : Option ℚ
  softSinceMs : Option ℚ
  lastError : String
  lastContainer : Option ContainerSnapshot
  incidentEvents : ℕ
  nextResendMs : Option ℚ
  lastEmitMs : Option ℚ

namespace DeadPrimaryDetector

/-- A new detector. -/
def initial : DeadPrimaryDetector where
  streak := 0
  streakStartMs := none
  softSinceMs := none
  lastError := ""
  lastContainer := none
  incidentEvents := 0
  nextResendMs := none
  lastEmitMs := none

/-- Forget the failure run, not the incident and its back-off. -/
def resetStreak (detector : DeadPrimaryDetector) : DeadPrimaryDetector :=
  { detector with streak := 0, streakStartMs := none, softSinceMs := none }

def recordHard (detector : DeadPrimaryDetector) (reason : String) (nowMs : ℚ) :
    DeadPrimaryDetector :=
  { detector with
    streak := detector.streak + 1
    streakStartMs := some (detector.streakStartMs.getD nowMs)
    lastError := reason }

/-- Inside its grace a soft failure holds the streak: no reset, no count. -/
def applySoft (detector : DeadPrimaryDetector) (reason : String) (graceMs nowMs : ℚ) :
    DeadPrimaryDetector :=
  let since := detector.softSinceMs.getD nowMs
  let detector := { detector with softSinceMs := some since }
  if graceMs ≤ nowMs - since then detector.recordHard (reason ++ " beyond grace") nowMs
  else detector

def apply (detector : DeadPrimaryDetector) (observation : Observation) (nowMs : ℚ) :
    DeadPrimaryDetector :=
  match observation with
  | .healthy => { detector.resetStreak with incidentEvents := 0, nextResendMs := none }
  | .inconclusive _ => detector.resetStreak
  | .notPrimary _ => detector.resetStreak
  | .soft reason graceMs => detector.applySoft reason graceMs nowMs
  | .hard reason => { detector with softSinceMs := none }.recordHard reason nowMs

def canFire (config : PgDeadPrimaryConfig) (detector : DeadPrimaryDetector) (nowMs : ℚ) : Bool :=
  if detector.streak < config.failureThreshold then false
  else
    match detector.streakStartMs with
    | none => false
    | some start =>
      if nowMs - start < config.minFailureSpanMs then false
      else if 0 < detector.incidentEvents then
        detector.incidentEvents < config.maxEventsPerIncident &&
          detector.nextResendMs.any fun next => next ≤ nowMs
      else
        match detector.lastEmitMs with
        | none => true
        | some last => config.backoffMs ≤ nowMs - last

/-- `DEAD_PRIMARY_DETECTION_SCOPE`. -/
def detectionScope : String := "engine-dead-host-alive"

section

-- `clean` is `clipKeepingEnd(sanitizeForLog(text), 300)`.
variable (parseDate : String → Option ℚ) (clean : String → String)
  (config : PgDeadPrimaryConfig)

/-- What one sample shows the detector. -/
def observe (sample : ProbeSample) (context : DetectorStepContext) : Observation :=
  classifyProbeSample parseDate sample (context.wallMs.getD context.nowMs) config

/-- The detector once a sample has been applied. -/
def afterSample (detector : DeadPrimaryDetector) (sample : ProbeSample)
    (context : DetectorStepContext) : DeadPrimaryDetector :=
  let detector :=
    match sample.container with
    | .present state => { detector with lastContainer := some state }
    | _ => detector
  detector.apply (observe parseDate config sample context) context.nowMs

/-- One step: the verdict (evidence when it fires) and the detector after it. -/
def step (detector : DeadPrimaryDetector) (sample : ProbeSample) (context : DetectorStepContext) :
    Option DeadPrimaryEvidence × DeadPrimaryDetector :=
  if context.intentActive then (none, detector.resetStreak)
  else
    let after := detector.afterSample parseDate config sample context
    if after.canFire config context.nowMs then
      (some
        { failures := after.streak
          spanMs := context.nowMs - after.streakStartMs.getD context.nowMs
          lastError := clean after.lastError
          container := after.lastContainer
          scope := detectionScope
          attempt := after.incidentEvents + 1 }, after)
    else (none, after)

end

/-- The time between the event with this number and the next one of its incident. -/
def resendInterval (config : PgDeadPrimaryConfig) (events : ℕ) : ℚ :=
  min (config.resendBaseMs * 2 ^ (events - 1)) config.resendMaxMs

def markEmitted (config : PgDeadPrimaryConfig) (detector : DeadPrimaryDetector) (nowMs : ℚ) :
    DeadPrimaryDetector :=
  { detector with
    incidentEvents := detector.incidentEvents + 1
    lastEmitMs := some nowMs
    nextResendMs := some (nowMs + resendInterval config (detector.incidentEvents + 1)) }

end DeadPrimaryDetector

/-! ## Runs -/

/-- One step of a run, and when its event was marked as emitted, should it fire. -/
structure Tick where
  sample : ProbeSample
  context : DetectorStepContext
  emittedAt : Option ℚ

section

variable (parseDate : String → Option ℚ) (clean : String → String) (config : PgDeadPrimaryConfig)

/-- A step, and the mark that follows it when it fired and its event went out. -/
def DeadPrimaryDetector.tick (detector : DeadPrimaryDetector) (tick : Tick) :
    DeadPrimaryDetector :=
  let (verdict, after) := detector.step parseDate clean config tick.sample tick.context
  match verdict, tick.emittedAt with
  | some _, some nowMs => after.markEmitted config nowMs
  | _, _ => after

/-- The detector before the step with this number. -/
def detectorAt (ticks : ℕ → Tick) : ℕ → DeadPrimaryDetector
  | 0 => .initial
  | n + 1 => (detectorAt ticks n).tick parseDate clean config (ticks n)

/-- The verdict of the step with this number. -/
def verdictAt (ticks : ℕ → Tick) (n : ℕ) : Option DeadPrimaryEvidence :=
  ((detectorAt parseDate clean config ticks n).step parseDate clean config (ticks n).sample
    (ticks n).context).1

end

end Turbopaneld.Managed
