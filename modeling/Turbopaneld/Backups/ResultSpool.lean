/-
# The result spool and its reporter

A scheduled run is a process of its own.  It writes its result under a name that begins with a
dot and renames it into place.  The daemon lists the spool on a timer and whenever its socket
attaches, sends the oldest results and removes one when the control plane answers for it; what
cannot be sent is parked under a name that begins with a dot.  Runs, ticks and answers go on at
the same time, sockets come and go, and a restart drops what the daemon had in flight.

What `attach` and its interval do is to begin ticks, so here a tick may begin at any time.
-/

import Turbopaneld.Backups.RunResult
import Turbopaneld.Machines.Threads

namespace Turbopaneld.Backups.Results

open DockerGate (Json)
open JavaScript Machines Programs

/-- `MAX_REPORTS_PER_TICK` -/
def MAX_REPORTS_PER_TICK : ℕ := 20

/-! ## Names -/

/-- `<runId>.json` -/
def resultFile (runId : String) : String := runId ++ ".json"

/-- `.<runId>.json.tmp` -/
def tmpFile (runId : String) : String := "." ++ runId ++ ".json.tmp"

/-- `.<runId>.json.invalid` -/
def invalidFile (runId : String) : String := "." ++ runId ++ ".json.invalid"

/-- `RESULT_FILE_RE.exec(name)?.[1]` -/
def resultFileId (name : String) : Option String :=
  (between "" ".json" name).filter fun runId => RUN_TOKEN_RE.test runId

/-! ## The host -/

/-- A file, with what `JSON.parse` makes of its text; a text that is not JSON is `none`. -/
structure SpooledFile where
  text : Option Json
  mtime : ℤ

inductive WriterPhase
  /-- The directory is being made. -/
  | making
  /-- The file is about to be made under its first name. -/
  | creating
  /-- The file is there, and not all of its text. -/
  | filling
  | changingMode
  | placing
  /-- A step has failed, and the file is being removed. -/
  | removing
  | placed
  | failed
deriving DecidableEq, Repr

/-- The file is there under its first name, with all of its text. -/
def WriterPhase.isStaged : WriterPhase → Bool
  | .changingMode | .placing => true
  | _ => false

/-- A run that calls `writeBackupRunResult`. -/
structure Writer where
  result : BackupRunResult
  phase : WriterPhase

/-- `BackupRunReportMessage` -/
structure BackupRunReport where
  id : String
  result : BackupRunResult
  nextRunAt : Option String

/-- The directory and the runs that write into it, by their ids, and what the daemon has. -/
structure Spool where
  files : String → Option SpooledFile
  writers : String → Option Writer
  clock : ℤ
  socketOpen : Bool
  /-- `#ticking` -/
  ticking : Bool
  /-- The reports that were sent, the newest first. -/
  frames : List BackupRunReport
  /-- How many of them were sent since a tick last began. -/
  sentInTick : ℕ
  /-- The ids the control plane has answered for. -/
  answered : List String

/-- A host no run has ended on. -/
def Spool.fresh : Spool where
  files _ := none
  writers _ := none
  clock := 0
  socketOpen := false
  ticking := false
  frames := []
  sentInTick := 0
  answered := []

/-! ## Writing a result -/

def Spool.setWriter (s : Spool) (writer : Writer) (phase : WriterPhase) : Spool :=
  { s with
    writers := Function.update s.writers writer.result.runId (some { writer with phase }) }

def Spool.setFile (s : Spool) (name : String) (file : Option SpooledFile) : Spool :=
  { s with files := Function.update s.files name file }

section

variable (s : Spool) (writer : Writer) (phase : WriterPhase) (file : Option SpooledFile)
  {name other runId : String}

@[simp]
theorem Spool.files_setWriter : (s.setWriter writer phase).files = s.files := rfl

@[simp]
theorem Spool.frames_setWriter : (s.setWriter writer phase).frames = s.frames := rfl

@[simp]
theorem Spool.answered_setWriter : (s.setWriter writer phase).answered = s.answered := rfl

@[simp]
theorem Spool.writers_setFile : (s.setFile name file).writers = s.writers := rfl

@[simp]
theorem Spool.frames_setFile : (s.setFile name file).frames = s.frames := rfl

@[simp]
theorem Spool.answered_setFile : (s.setFile name file).answered = s.answered := rfl

@[simp]
theorem Spool.files_setFile_self : (s.setFile name file).files name = file :=
  Function.update_self ..

theorem Spool.files_setFile_of_ne (h : other ≠ name) :
    (s.setFile name file).files other = s.files other :=
  Function.update_of_ne h ..

theorem Spool.writers_setWriter_self :
    (s.setWriter writer phase).writers writer.result.runId = some { writer with phase } :=
  Function.update_self ..

theorem Spool.writers_setWriter_of_ne (h : runId ≠ writer.result.runId) :
    (s.setWriter writer phase).writers runId = s.writers runId :=
  Function.update_of_ne h ..

end

/-- A run calls `writeBackupRunResult`.  It has an id of its own, from `mintRunId`. -/
def beginWrite (result : BackupRunResult) (s : Spool) : Option Spool :=
  if (s.writers result.runId).isSome then none
  else
    some (s.setWriter ⟨result, .making⟩
      (if RUN_TOKEN_RE.test result.runId then .making else .failed))

/-- The call a run waits on succeeds or fails, and the run goes on to the next one. -/
def Spool.afterCall (s : Spool) (writer : Writer) (ok : Bool) : Option Spool :=
  let tmp := tmpFile writer.result.runId
  match writer.phase, ok with
  | .making, true => some (s.setWriter writer .creating)
  | .making, false => some (s.setWriter writer .failed)
  | .creating, true =>
    -- `createNew`
    if (s.files tmp).isSome then some (s.setWriter writer .removing)
    else some ((s.setFile tmp (some ⟨none, s.clock⟩)).setWriter writer .filling)
  | .filling, true =>
    some ((s.setFile tmp (some ⟨some writer.result.spooled, s.clock⟩)).setWriter writer
      .changingMode)
  | .changingMode, true => some (s.setWriter writer .placing)
  | .placing, true =>
    match s.files tmp with
    | none => some (s.setWriter writer .removing)
    | some file =>
      some (((s.setFile tmp none).setFile (resultFile writer.result.runId) (some file)).setWriter
        writer .placed)
  | .creating, false | .filling, false | .changingMode, false | .placing, false =>
    some (s.setWriter writer .removing)
  | .removing, true => some ((s.setFile tmp none).setWriter writer .failed)
  | .removing, false => some (s.setWriter writer .failed)
  | .placed, _ | .failed, _ => none

inductive Act
  | beginWrite (result : BackupRunResult)
  | afterCall (runId : String) (ok : Bool)
  | setOpen (socketOpen : Bool)
  | advance (ms : ℕ)

def act : Act → Spool → Option Spool
  | .beginWrite result, s => beginWrite result s
  | .afterCall runId ok, s => (s.writers runId).bind fun writer => s.afterCall writer ok
  | .setOpen socketOpen, s => some { s with socketOpen }
  | .advance ms, s => some { s with clock := s.clock + ms }

/-! ## What the daemon asks of its host -/

inductive IoError
  | notFound
  | other

inductive SpoolCall : Type → Type
  | readDir : SpoolCall (Except IoError (List String))
  | stat (name : String) : SpoolCall (Except IoError ℤ)
  | readTextFile (name : String) : SpoolCall (Except IoError (Option Json))
  | rename (before after : String) : SpoolCall (Except IoError Unit)
  | remove (name : String) : SpoolCall (Except IoError Unit)
  | readNextRun (policyId : String) : SpoolCall (Option String)
  | send (message : BackupRunReport) : SpoolCall Bool
  /-- `#ticking = false` -/
  | endTick : SpoolCall Unit

/-- How a call comes out, where that is open. -/
structure Reply where
  error : Option IoError
  entries : List String
  nextRunAt : Option String

/-- A call for a file, which may fail also when the file is there. -/
def Reply.file (reply : Reply) (s : Spool) (name : String) : Except IoError SpooledFile :=
  match reply.error, s.files name with
  | some error, _ => .error error
  | none, none => .error .notFound
  | none, some file => .ok file

def perform : ∀ {β : Type}, SpoolCall β → Reply → Spool → β × Spool
  | _, .readDir, reply, s =>
    match reply.error with
    | some error => (.error error, s)
    | none => (.ok (reply.entries.filter fun name => (s.files name).isSome), s)
  | _, .stat name, reply, s => ((reply.file s name).map SpooledFile.mtime, s)
  | _, .readTextFile name, reply, s => ((reply.file s name).map SpooledFile.text, s)
  | _, .rename before after, reply, s =>
    match reply.file s before with
    | .error error => (.error error, s)
    | .ok file => (.ok (), (s.setFile before none).setFile after (some file))
  | _, .remove name, reply, s =>
    match reply.file s name with
    | .error error => (.error error, s)
    | .ok _ => (.ok (), s.setFile name none)
  | _, .readNextRun _, reply, s => (reply.nextRunAt, s)
  | _, .send message, _, s =>
    if s.socketOpen then
      (true, { s with frames := message :: s.frames, sentInTick := s.sentInTick + 1 })
    else (false, s)
  | _, .endTick, _, s => ((), { s with ticking := false })

/-! ## Reporting -/

/-- `a.mtime - b.mtime || a.runId.localeCompare(b.runId)` -/
def compareStamped (localeCompare : String → String → ℤ) (a b : String × ℤ) : ℤ :=
  if a.2 - b.2 ≠ 0 then a.2 - b.2 else localeCompare a.1 b.1

/-- The times of the results, each looked up on its own; the first failure is the answer. -/
def statAll : List String → Async SpoolCall (Except IoError (List (String × ℤ)))
  | [] => pure (.ok [])
  | runId :: rest => do
    match ← Async.perform (.stat (resultFile runId)) with
    | .error error => pure (.error error)
    | .ok mtime => do
      let others ← statAll rest
      pure (others.map ((runId, mtime) :: ·))

/-- The oldest results. -/
def oldest (localeCompare : String → String → ℤ) (stamped : List (String × ℤ)) : List String :=
  ((stamped.mergeSort fun a b => compareStamped localeCompare a b ≤ 0).take
    MAX_REPORTS_PER_TICK).map Prod.fst

/-- `listSpooledRunIds` -/
def listSpooledRunIds (localeCompare : String → String → ℤ) :
    Async SpoolCall (Except IoError (List String)) := do
  match ← Async.perform .readDir with
  | .error .notFound => pure (.ok [])
  | .error .other => pure (.error .other)
  | .ok names => do
    let stamped ← statAll (names.filterMap resultFileId)
    pure (stamped.map (oldest localeCompare))

/-- `#quarantine` -/
def quarantine (runId : String) : Async SpoolCall (Except IoError Unit) :=
  Async.perform (.rename (resultFile runId) (invalidFile runId))

/-- `#report`; `true` stands for "stop". -/
def report (parseDate : String → Option ℚ) (runId : String) :
    Async SpoolCall (Except IoError Bool) := do
  match ← Async.perform (.readTextFile (resultFile runId)) with
  | .error .notFound => pure (.ok false)
  | .error .other => pure (.error .other)
  | .ok text =>
    match parseSpooledBackupRunResult parseDate text runId with
    | .error _ => do
      let parked ← quarantine runId
      pure (parked.map fun _ => false)
    | .ok result => do
      let nextRunAt ← Async.perform (.readNextRun result.policyId)
      let sent ← Async.perform (.send ⟨runId, result, nextRunAt⟩)
      pure (.ok !sent)

/-- `firstSequential`, where a step that fails ends it as well. -/
def firstSequential (step : String → Async SpoolCall (Except IoError Bool)) :
    List String → Async SpoolCall Unit
  | [] => pure ()
  | item :: rest => do
    match ← step item with
    | .ok false => firstSequential step rest
    | .ok true | .error _ => pure ()

/-- `tick`, once no other is under way. -/
def tick (parseDate : String → Option ℚ) (localeCompare : String → String → ℤ) :
    Async SpoolCall Unit := do
  let listed ← listSpooledRunIds localeCompare
  match listed with
  | .error _ => pure ()
  | .ok runIds => firstSequential (report parseDate) runIds
  Async.perform .endTick

/-- `handleResult`; whether the control plane stored the result only decides what is logged. -/
def handleResult (id : String) : Async SpoolCall Unit :=
  if !RUN_TOKEN_RE.test id then pure ()
  else do
    let _ ← Async.perform (.remove (resultFile id))
    pure ()

inductive Kind
  | tick
  | handleResult (id : String)
deriving DecidableEq

/-- The daemon. -/
def reporter (parseDate : String → Option ℚ) (localeCompare : String → String → ℤ) :
    Process Kind SpoolCall Spool Reply Kind Act where
  perform := perform
  spawn
    | .tick, s =>
      if s.ticking then some (s, ⟨.tick, pure ()⟩)
      else
        some ({ s with ticking := true, sentInTick := 0 }, ⟨.tick, tick parseDate localeCompare⟩)
    | .handleResult id, s =>
      some ({ s with answered := id :: s.answered }, ⟨.handleResult id, handleResult id⟩)
  act
  restart s := { s with ticking := false, socketOpen := false }

end Turbopaneld.Backups.Results
