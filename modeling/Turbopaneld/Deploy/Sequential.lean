/-
# Sequential deploys

Stop the previous version, run the pre-deploy hooks, start the new version, wait for it to
be healthy, and bring the previous version back when that is safe.  Everything the engine
does goes through injected steps; each of them may return, report a failure or throw, and
what it does may depend on everything that was called before.  A run therefore keeps the
calls made so far, each with its answer.
-/

import Turbopaneld.JavaScript.Text
import Turbopaneld.Programs.Stateful

namespace Turbopaneld.Deploy.Sequential

open Programs (Prog)

/-- What a step throws. -/
inductive Thrown where
  | error (message : String)
  | other

/-- A step returns a value or throws. -/
abbrev Answer (α : Type) : Type := Except Thrown α

structure DockerResult where
  success : Bool
  stderr : String

structure RunResult where
  success : Bool
  stderr : String
  stdout : String

inductive HealthGateResult where
  | passed
  | failed (detail : String)

/-- The streamed `docker compose` commands, with their compose chain. -/
inductive Command where
  | stop (paths : List String) (names : List String)
  | up (paths : List String)

/-- The arguments of a command. -/
def Command.args (composeArgs : List String → List String) : Command → List String
  | .stop paths names => composeArgs paths ++ "stop" :: names
  | .up paths => composeArgs paths ++ ["up", "-d", "--remove-orphans"]

/-- A call of a step, with its answer. -/
inductive Event where
  | prepare (answer : Answer Unit)
  | commit (answer : Answer Unit)
  | listServices (paths : List String) (answer : Answer RunResult)
  | streamed (command : Command) (answer : Answer DockerResult)
  | hooks (answer : Answer Unit)
  | gate (paths : List String) (answer : Answer HealthGateResult)
  | restore (answer : Answer (Option (List String)))

abbrev History : Type := List Event

/-- The injected steps. -/
structure Steps where
  prepare : History → Answer Unit
  run : History → List String → Answer RunResult
  runStreamed : History → List String → Answer DockerResult
  runPreDeployHooks : History → Answer Unit
  gate : History → List String → Answer HealthGateResult
  restorePrevious : History → Answer (Option (List String))
  commit : Option (History → Answer Unit)
  composeArgs : List String → List String
  redact : String → String

structure Input where
  composePaths : List String
  previousComposePaths : Option (List String)
  keepRunning : List String
  hasHooks : Bool
  hooksMigrate : Bool
  breakingMigration : Bool
  steps : Steps

inductive Outcome where
  | rolledBack
  | needsAttention
deriving DecidableEq

def Outcome.text : Outcome → String
  | .rolledBack => "rolled_back"
  | .needsAttention => "needs_attention"

/-- How a run ends without success: with something a step threw or a plain error, or with a
`SequentialDeployError`. -/
inductive Exit where
  | plain (thrown : Thrown)
  | sequential (outcome : Outcome) (reason : String)

/-- A part of a run. -/
abbrev Part (α : Type) : Type := Prog Exit History α

/-- Call a step and note the call. -/
def perform {α : Type} (step : History → Answer α) (event : Answer α → Event) : Part α :=
  fun history =>
    match step history with
    | .ok value => (.ok value, history ++ [event (.ok value)])
    | .error thrown => (.error (.plain thrown), history ++ [event (.error thrown)])

/-- `throw new Error(message)`. -/
def throwPlain {α : Type} (message : String) : Part α := Prog.fail (.plain (.error message))

/-- `text || fallback`. -/
def orText (text fallback : String) : String := if text = "" then fallback else text

/-- `fail`. -/
def failWith {α : Type} (outcome : Outcome) (reason : String) : Part α :=
  Prog.fail (.sequential outcome reason)

section

variable (input : Input)

/-- The names a service list gives, the kept ones apart. -/
def stoppable (stdout : String) : List String :=
  ((JavaScript.split '\n' stdout).map JavaScript.trim).filter fun name =>
    name != "" && !input.keepRunning.contains name

def servicesToStop (previous : List String) : Part (List String) := do
  let args := input.steps.composeArgs previous ++ ["config", "--services"]
  let listed ← perform (input.steps.run · args) (.listServices previous)
  if listed.success then pure (stoppable input listed.stdout)
  else throwPlain (orText (input.steps.redact listed.stderr) "could not list the running services")

/-- A streamed command. -/
def stream (command : Command) : Part DockerResult :=
  perform (input.steps.runStreamed · (command.args input.steps.composeArgs)) (.streamed command)

/-- Stop the services by name, if there are any. -/
def stopServices (previous names : List String) : Part Unit := do
  if names.isEmpty then pure ()
  else
    let stop ← stream input (.stop previous names)
    if stop.success then pure ()
    else throwPlain (orText (input.steps.redact stop.stderr) "docker compose stop failed")

def stopPrevious : Part Unit :=
  match input.previousComposePaths with
  | none => pure ()
  | some previous => do
    let names ← servicesToStop input previous
    stopServices input previous names

/-- The health gate of a version: why it failed, `none` when it passed. -/
def gateOf (paths : List String) : Part (Option String) := do
  let gate ← perform (input.steps.gate · paths) (.gate paths)
  match gate with
  | .passed => pure none
  | .failed detail => pure (some (input.steps.redact detail))

/-- Start a version and wait for it: why that failed, `none` when it did not. -/
def startAndGate (paths : List String) : Part (Option String) := do
  let up ← stream input (.up paths)
  if up.success then gateOf input paths
  else pure (some (orText (input.steps.redact up.stderr) "docker compose up failed"))

/-- The text of what was caught. -/
def errorReason : Exit → String
  | .plain (.error message) => input.steps.redact message
  | .plain .other => input.steps.redact "unexpected failure"
  | .sequential outcome reason => input.steps.redact (outcome.text ++ ": " ++ reason)

/-- The end of a rollback once the files are back. -/
def restart (reason : String) (restored : List String) : Part Unit := do
  let failure ← startAndGate input restored
  match failure with
  | some failure =>
    failWith .needsAttention
      (reason ++ "; the previous version did not come back healthy: " ++ failure)
  | none => failWith .rolledBack (reason ++ "; the previous version is running again")

/-- Bring the previous version back.  Always throws. -/
def rollBack (reason : String) : Part Unit :=
  match input.previousComposePaths with
  | none => throwPlain (reason ++ " (first deploy: nothing to roll back to)")
  | some _ => do
    let restored ← Prog.attempt (perform input.steps.restorePrevious .restore)
    match restored with
    | .error exit =>
      failWith .needsAttention
        (reason ++ "; restoring the previous version failed: " ++ errorReason input exit)
    | .ok none =>
      failWith .needsAttention
        (reason ++ "; the previous version's files are missing, so it was not restarted")
    | .ok (some restored) => restart input reason restored

def afterMigration (reason : String) : Part Unit :=
  failWith .needsAttention
    (reason ++ "; a migration already ran, so the previous version was not restarted")

/-- Run the pre-deploy hooks: why they failed, `none` when they passed. -/
def runHooks : Part (Option String) := do
  let outcome ← Prog.attempt (perform input.steps.runPreDeployHooks .hooks)
  match outcome with
  | .ok () => pure none
  | .error exit => pure (some ("the pre-deploy step failed: " ++ errorReason input exit))

/-- `steps.commit?.()`. -/
def commitPoint : Part Unit :=
  match input.steps.commit with
  | none => pure ()
  | some commit => perform commit .commit

/-- Start the new version. -/
def startNew : Part Unit := do
  let failure ← startAndGate input input.composePaths
  match failure with
  | none => pure ()
  | some failure =>
    if input.hooksMigrate || input.breakingMigration then afterMigration failure
    else rollBack input failure

/-- Run the hooks, if there are any, and start the new version. -/
def hooksAndStart : Part Unit :=
  if input.hasHooks then do
    let hookFailure ← runHooks input
    match hookFailure with
    | none => startNew input
    | some failure =>
      if input.hooksMigrate then afterMigration failure else rollBack input failure
  else startNew input

/-- The whole sequence. -/
def runSequentialDeploy : Part Unit := do
  perform input.steps.prepare .prepare
  commitPoint input
  let stopped ← Prog.attempt (stopPrevious input)
  match stopped with
  | .error exit => rollBack input (errorReason input exit)
  | .ok () => hooksAndStart input

end

end Turbopaneld.Deploy.Sequential
