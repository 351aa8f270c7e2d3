/-
# The crash-loop guard

The guard looks at every service container whenever Docker reports a change and on every presence
tick.  It counts the restarts since a container last stayed up, and stops one that has restarted
too often.  The stop runs in the background, and other reviews may come before it is answered.

An entry of the guard's map is an object that a stop in the background still holds after the map
has dropped it, so entries are known by number here.  Beside what the source keeps, the model keeps
the stops that were sent and what the reviews saw of each entry.
-/

import Mathlib.Algebra.Order.Ring.Rat
import Mathlib.Logic.Function.Basic
import Turbopaneld.JavaScript.Text
import Turbopaneld.Machines.Runs

namespace Turbopaneld.Monitor

open JavaScript

/-- `SERVICE_CRASH_LIMIT` -/
def SERVICE_CRASH_LIMIT : ℕ := 10

/-- `SERVICE_SETTLE_MS` -/
def SERVICE_SETTLE_MS : ℚ := 60000

/-- `inspect.State` -/
structure ContainerState where
  Status : Option String
  StartedAt : Option String
  FinishedAt : Option String
deriving DecidableEq

/-- `ContainerInspect`, as far as the guard reads it. -/
structure ContainerInspect where
  RestartCount : Option ℕ
  State : Option ContainerState
deriving DecidableEq

/-- `ServiceContainerObservation`, as far as the guard reads it; `summaryState` is
`summary?.State`. -/
structure ServiceContainerObservation where
  containerId : String
  summaryState : Option String
  inspect : Option ContainerInspect
deriving DecidableEq

namespace ServiceContainerObservation

variable (obs : ServiceContainerObservation)

/-- `obs.inspect?.State` -/
def state : Option ContainerState := obs.inspect.bind (·.State)

/-- `obs.inspect?.State?.StartedAt` -/
def startedAt : Option String := obs.state.bind (·.StartedAt)

/-- `obs.inspect?.RestartCount ?? 0` -/
def restartCount : ℕ := (obs.inspect.bind (·.RestartCount)).getD 0

end ServiceContainerObservation

/-- `dockerStatusOf` -/
def dockerStatusOf (obs : ServiceContainerObservation) : String :=
  toLowerCase (((obs.state.bind (·.Status)).or obs.summaryState).getD "")

/-- `Date.parse`, where the result is finite, is a parameter. -/
def upForMs (parseDate : String → Option ℚ) (obs : ServiceContainerObservation) (nowMs : ℚ) :
    Option ℚ :=
  match obs.startedAt with
  | none => none
  | some startedAt => if startedAt == "" then none else (parseDate startedAt).map (nowMs - ·)

/-- `provedStable` -/
def provedStable (parseDate : String → Option ℚ) (obs : ServiceContainerObservation)
    (status : String) (nowMs : ℚ) : Bool :=
  if status == "running" then
    (upForMs parseDate obs nowMs).any fun upMs => decide (SERVICE_SETTLE_MS ≤ upMs)
  else if status != "restarting" && status != "exited" then false
  else
    match parseDate (obs.startedAt.getD ""),
      parseDate ((obs.state.bind (·.FinishedAt)).getD "") with
    | some started, some finished => decide (SERVICE_SETTLE_MS ≤ finished - started)
    | _, _ => false

/-- The statuses a container that is up or coming up has. -/
def isFailing (status : String) : Bool := status == "restarting" || status == "running"

/-- `Tracked` -/
structure Tracked where
  baseline : ℕ
  stopped : Bool
  stoppedRun : Option String
  stopping : Bool
deriving DecidableEq

/-- `#clearIfStartedAgain` -/
def Tracked.clearIfStartedAgain (entry : Tracked) (obs : ServiceContainerObservation) : Tracked :=
  if !entry.stopped || entry.stopping then entry
  else if obs.startedAt ≠ entry.stoppedRun then { entry with stopped := false, stoppedRun := none }
  else entry

/-- The new entry of `#entryFor`. -/
def newEntry (status : String) (count : ℕ) : Tracked where
  baseline := if status == "running" then count else 0
  stopped := false
  stoppedRun := none
  stopping := false

/-- What `#reviewOne` does to an entry before it looks at the streak. -/
def Tracked.observe (parseDate : String → Option ℚ) (entry : Tracked)
    (obs : ServiceContainerObservation) (nowMs : ℚ) : Tracked :=
  let status := dockerStatusOf obs
  let count := obs.restartCount
  let zeroed := if count < entry.baseline then { entry with baseline := 0 } else entry
  let cleared := if isFailing status then zeroed.clearIfStartedAgain obs else zeroed
  if provedStable parseDate obs status nowMs && !cleared.stopped then
    { cleared with baseline := count }
  else cleared

/-- How far a stop has come: sent, answered, or answered and cleaned up after. -/
inductive Phase
  | sent
  | answered (ok : Bool)
  | finished (ok : Bool)
deriving DecidableEq

/-- What a review saw of an entry: whether the container was stable then and not stopped. -/
structure Seen where
  obs : ServiceContainerObservation
  stable : Bool

/-- A stop, with what had been seen of its entry when it was sent, the newest first. -/
structure Stop where
  entry : ℕ
  containerId : String
  run : Option String
  phase : Phase
  seen : List Seen

/-- `CrashLoopGuard` -/
structure CrashLoopGuard where
  tracked : String → Option ℕ
  entries : ℕ → Tracked
  created : ℕ
  stops : ℕ → Stop
  sent : ℕ
  seen : ℕ → List Seen

namespace CrashLoopGuard

/-- The object of `#entryFor`, put into the map where there is none. -/
def entryFor (guard : CrashLoopGuard) (obs : ServiceContainerObservation) : CrashLoopGuard × ℕ :=
  match guard.tracked obs.containerId with
  | some known => (guard, known)
  | none =>
    let entry := newEntry (dockerStatusOf obs) obs.restartCount
    ({ guard with
        tracked := Function.update guard.tracked obs.containerId (some guard.created)
        entries := Function.update guard.entries guard.created entry
        created := guard.created + 1
        seen := Function.update guard.seen guard.created [] },
      guard.created)

/-- `#stopInBackground` -/
def stopInBackground (guard : CrashLoopGuard) (obs : ServiceContainerObservation) (known : ℕ) :
    CrashLoopGuard :=
  { guard with
    entries := Function.update guard.entries known { guard.entries known with stopping := true }
    stops := Function.update guard.stops guard.sent
      ⟨known, obs.containerId, obs.startedAt, .sent, guard.seen known⟩
    sent := guard.sent + 1 }

/-- An entry after a look at its container. -/
def look (parseDate : String → Option ℚ) (guard : CrashLoopGuard)
    (obs : ServiceContainerObservation) (nowMs : ℚ) (known : ℕ) : CrashLoopGuard :=
  let entry := (guard.entries known).observe parseDate obs nowMs
  let stable := provedStable parseDate obs (dockerStatusOf obs) nowMs && !entry.stopped
  { guard with
    entries := Function.update guard.entries known entry
    seen := Function.update guard.seen known (⟨obs, stable⟩ :: guard.seen known) }

/-- Whether `#reviewOne` sends a stop, once the entry is looked at. -/
def mustStop (limit : ℕ) (obs : ServiceContainerObservation) (entry : Tracked) : Bool :=
  decide (limit ≤ obs.restartCount - entry.baseline) && isFailing (dockerStatusOf obs) &&
    !entry.stopped && !entry.stopping

/-- `#reviewOne`, with the `crashStreak` and `crashStopped` of the result. -/
def reviewOne (parseDate : String → Option ℚ) (limit : ℕ) (nowMs : ℚ) (guard : CrashLoopGuard)
    (obs : ServiceContainerObservation) : CrashLoopGuard × (ℕ × Bool) :=
  let (made, known) := guard.entryFor obs
  let looked := made.look parseDate obs nowMs known
  let entry := looked.entries known
  (if mustStop limit obs entry then looked.stopInBackground obs known else looked,
    obs.restartCount - entry.baseline, entry.stopped)

/-- The map without the containers that are gone. -/
def dropGone (guard : CrashLoopGuard) (observations : List ServiceContainerObservation) :
    CrashLoopGuard :=
  { guard with
    tracked := fun id =>
      if observations.any fun obs => obs.containerId == id then guard.tracked id else none }

/-- `review` -/
def review (parseDate : String → Option ℚ) (limit : ℕ) (guard : CrashLoopGuard)
    (observations : List ServiceContainerObservation) (nowMs : ℚ) :
    CrashLoopGuard × List (ℕ × Bool) :=
  observations.foldl
    (fun (done : CrashLoopGuard × List (ℕ × Bool)) obs =>
      let (next, result) := done.1.reviewOne parseDate limit nowMs obs
      (next, done.2 ++ [result]))
    (guard.dropGone observations, [])

/-- The answer to a stop. -/
def answer (guard : CrashLoopGuard) (i : ℕ) (ok : Bool) : CrashLoopGuard :=
  let stop := guard.stops i
  let entry := guard.entries stop.entry
  { guard with
    entries := Function.update guard.entries stop.entry
      (if ok then { entry with stopped := true, stoppedRun := stop.run } else entry)
    stops := Function.update guard.stops i { stop with phase := .answered ok } }

/-- The `finally` after the answer. -/
def finish (guard : CrashLoopGuard) (i : ℕ) (ok : Bool) : CrashLoopGuard :=
  let stop := guard.stops i
  { guard with
    entries := Function.update guard.entries stop.entry
      { guard.entries stop.entry with stopping := false }
    stops := Function.update guard.stops i { stop with phase := .finished ok } }

/-- What may happen: a review, the answer to a stop that was sent, and what comes after it. -/
inductive Action
  | review (observations : List ServiceContainerObservation) (nowMs : ℚ)
  | answer (i : ℕ) (ok : Bool)
  | finish (i : ℕ)

/-- One step. -/
def step (parseDate : String → Option ℚ) (limit : ℕ) (guard : CrashLoopGuard) :
    Action → Option CrashLoopGuard
  | .review observations nowMs => some (guard.review parseDate limit observations nowMs).1
  | .answer i ok =>
    if i < guard.sent ∧ (guard.stops i).phase = .sent then some (guard.answer i ok) else none
  | .finish i =>
    match (guard.stops i).phase with
    | .answered ok => if i < guard.sent then some (guard.finish i ok) else none
    | _ => none

/-- A guard that has seen nothing. -/
def new : CrashLoopGuard where
  tracked _ := none
  entries _ := newEntry "" 0
  created := 0
  stops _ := ⟨0, "", none, .sent, []⟩
  sent := 0
  seen _ := []

end CrashLoopGuard

end Turbopaneld.Monitor
