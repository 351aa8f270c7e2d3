/-
# Uploading a transcript

A command's lines are written to a spool file, taken from the spool in numbered chunks and sent
to the control plane one at a time, by tasks that a chain of promises runs one after the other.
The control plane appends the chunk whose number it expects, acknowledges an earlier one, and
answers a later one with the number it expects.  A request or its answer may be lost.
-/

import Turbopaneld.Logs.LineStream
import Turbopaneld.Machines.Runs

namespace Turbopaneld.Logs

open JavaScript

/-! ## The spool -/

structure PendingChunk where
  seq : ℕ
  bytes : Units
deriving DecidableEq, Repr

/-- `CommandLogSpool`, with the lines that are in its file. -/
structure CommandLogSpool where
  file : List Units := []
  isOpen : Bool := true
  removed : Bool := false
  buffer : List Units := []
  bufferBytes : ℕ := 0
  chunkSeq : ℕ := 0

namespace CommandLogSpool

/-- `append`: a write that fails leaves the line in the buffer only. -/
def append (spool : CommandLogSpool) (line : Units) (written : Bool) : CommandLogSpool :=
  { spool with
    file := if written && spool.isOpen then spool.file ++ [line] else spool.file
    buffer := spool.buffer ++ [line]
    bufferBytes := spool.bufferBytes + line.length }

/-- `flushDue`, where `elapsed` says whether the flush interval is over. -/
def flushDue (spool : CommandLogSpool) (flushBytes : ℕ) (elapsed : Bool) : Bool :=
  if spool.bufferBytes = 0 then false
  else if spool.bufferBytes ≥ flushBytes then true
  else elapsed

def takePendingChunk (spool : CommandLogSpool) : Option PendingChunk × CommandLogSpool :=
  if spool.buffer = [] then (none, spool)
  else (some ⟨spool.chunkSeq, spool.buffer.flatten⟩,
    { spool with chunkSeq := spool.chunkSeq + 1, buffer := [], bufferBytes := 0 })

def close (spool : CommandLogSpool) : CommandLogSpool := { spool with isOpen := false }

end CommandLogSpool

/-! ## The sink and its uploader -/

/-- `CommandLogUploader`. -/
structure CommandLogUploader where
  uploadedBytes : ℕ := 0
  truncated : Bool := false
  stopped : Bool := false
  conflictNextSeq : Option ℕ := none
  refused : Bool := false

def truncationMarker : Units := (codeUnits "... transcript truncated ...\n").map UInt16.ofNat

/-- `LOG_FINALIZE_RETRY_ROUNDS`. -/
def logFinalizeRetryRounds : ℕ := 12

/-- `BACKLOG_SLACK_BYTES`. -/
def backlogSlackBytes : ℕ := 64 * 1024

structure SinkOptions where
  flushBytes : ℕ
  maxBytes : ℕ
  maxAttempts : ℕ

/-- What the chain of promises runs. -/
inductive Task
  | flush
  | settleQueue
  | settleSpool

/-- Who waits for a `#drain`. -/
inductive Caller
  | flush
  | settleQueue (rounds : ℕ)

/-- A chunk on its way, itself or as the marker that is sent in its place. -/
structure Upload where
  chunk : PendingChunk
  truncates : Bool
deriving DecidableEq, Repr

/-- What the running task waits for. -/
inductive Stage
  | idle
  | sending (upload : Upload) (attempt : ℕ) (caller : Caller)
  /-- The pause in front of an attempt. -/
  | backoff (upload : Upload) (attempt : ℕ) (caller : Caller)
  /-- The pause behind a round of `#settleQueue`. -/
  | pausing (rounds : ℕ)
  | removing

/-- `CommandOutputSinkImpl`. -/
structure CommandOutputSink where
  spool : CommandLogSpool := {}
  uploader : CommandLogUploader := {}
  chain : List Task := []
  stage : Stage := .idle
  allAcked : Bool := true
  finalized : Bool := false
  chunks : List PendingChunk := []
  nextIndex : ℕ := 0
  backlogBytes : ℕ := 0
  retryScheduled : Bool := false

/-- What a request to the control plane ends with. -/
inductive Answer
  | acked
  | conflict (nextSeq : ℕ)
  | refused
  | failed

namespace CommandOutputSink

def allSent (s : CommandOutputSink) : Bool :=
  s.uploader.truncated || s.nextIndex ≥ s.chunks.length

def queueFlush (s : CommandOutputSink) : CommandOutputSink := { s with chain := s.chain ++ [.flush] }

/-- `onLine` of a line that was encoded, or of one that redaction left nothing of. -/
def onLine (options : SinkOptions) (s : CommandOutputSink) (line : Option Units)
    (written elapsed : Bool) : CommandOutputSink :=
  if s.finalized || s.uploader.truncated then s
  else if s.backlogBytes ≥ options.maxBytes + backlogSlackBytes then s
  else
    match line with
    | none => s
    | some line =>
      let s := { s with spool := s.spool.append line written }
      if s.spool.flushDue options.flushBytes elapsed then s.queueFlush else s

def stopRetry (s : CommandOutputSink) : CommandOutputSink := { s with retryScheduled := false }

def scheduleRetry (s : CommandOutputSink) : CommandOutputSink :=
  if s.retryScheduled || s.uploader.refused then s else { s with retryScheduled := true }

/-- The callback of the retry timer. -/
def onRetryTimer (s : CommandOutputSink) : CommandOutputSink :=
  let s := { s with retryScheduled := false }
  if !s.finalized then s.queueFlush else s

def finalize (s : CommandOutputSink) : CommandOutputSink :=
  if s.finalized then s
  else
    let s := stopRetry { s with finalized := true }
    { s.queueFlush with chain := s.queueFlush.chain ++ [.settleQueue, .settleSpool] }

/-- `#resyncOnConflict`, with `takeConflict`. -/
def resyncOnConflict (s : CommandOutputSink) : CommandOutputSink :=
  match s.uploader.conflictNextSeq with
  | none => s
  | some expected =>
    let s := { s with uploader := { s.uploader with conflictNextSeq := none } }
    match s.chunks.findIdx? fun chunk => chunk.seq ≥ expected with
    | none => s
    | some index => if index < s.nextIndex then { s with nextIndex := index } else s

/-- What follows a `#drain`. -/
def afterDrain (caller : Caller) (s : CommandOutputSink) : CommandOutputSink :=
  match caller with
  | .flush => { (if !s.finalized && !s.allSent then s.scheduleRetry else s) with stage := .idle }
  | .settleQueue rounds => { s with stage := if s.allSent then .idle else .pausing rounds }

/-- The end of a `#drain` whose chunk was not acknowledged. -/
def notAcked (caller : Caller) (s : CommandOutputSink) : CommandOutputSink :=
  afterDrain caller (resyncOnConflict { s with allAcked := false })

/-- `#sendWithRetry`, up to its request. -/
def sendWithRetry (options : SinkOptions) (upload : Upload) (attempt : ℕ) (caller : Caller)
    (s : CommandOutputSink) : CommandOutputSink :=
  if attempt > options.maxAttempts then s.notAcked caller
  else { s with stage := .sending upload attempt caller }

/-- `#drain`, with `upload`, up to its request. -/
def drain (options : SinkOptions) (caller : Caller) (s : CommandOutputSink) : CommandOutputSink :=
  if s.allSent || s.uploader.refused then s.afterDrain caller
  else
    match s.chunks[s.nextIndex]? with
    | none => s.afterDrain caller
    | some chunk =>
      if s.uploader.stopped then s.notAcked caller
      else
        let truncates := s.uploader.uploadedBytes + chunk.bytes.length > options.maxBytes
        s.sendWithRetry options ⟨chunk, truncates⟩ 1 caller

/-- What `upload` and `#truncate` note of an upload that was acknowledged. -/
def noteSent (upload : Upload) (uploader : CommandLogUploader) : CommandLogUploader :=
  if upload.truncates then
    { uploader with
      truncated := true, stopped := true
      uploadedBytes := uploader.uploadedBytes + truncationMarker.length }
  else { uploader with uploadedBytes := uploader.uploadedBytes + upload.chunk.bytes.length }

/-- The answer of a request: `#sendWithRetry` goes on, or `#drain` does. -/
def answered (options : SinkOptions) (upload : Upload) (attempt : ℕ) (caller : Caller)
    (answer : Answer) (s : CommandOutputSink) : CommandOutputSink :=
  match answer with
  | .acked =>
    let s := { s with uploader := noteSent upload s.uploader, nextIndex := s.nextIndex + 1 }
    drain options caller { s with allAcked := s.allAcked || s.allSent }
  | .conflict nextSeq =>
    notAcked caller { s with uploader := { s.uploader with conflictNextSeq := some nextSeq } }
  | .refused => notAcked caller { s with uploader := { s.uploader with refused := true } }
  | .failed =>
    if attempt = options.maxAttempts then s.notAcked caller
    else { s with stage := .backoff upload (attempt + 1) caller }

/-- `#settleQueue`. -/
def settleQueue (options : SinkOptions) (rounds : ℕ) (s : CommandOutputSink) : CommandOutputSink :=
  if s.allSent || s.uploader.refused || rounds = 0 then { s with stage := .idle }
  else s.drain options (.settleQueue rounds)

/-- The start of a task, up to what it waits for first. -/
def begin (options : SinkOptions) (s : CommandOutputSink) : Task → CommandOutputSink
  | .flush =>
    match s.spool.takePendingChunk with
    | (none, spool) => drain options .flush { s with spool }
    | (some chunk, spool) =>
      drain options .flush
        { s with spool, chunks := s.chunks ++ [chunk]
                 backlogBytes := s.backlogBytes + chunk.bytes.length }
  | .settleQueue => s.settleQueue options logFinalizeRetryRounds
  | .settleSpool =>
    { s with spool := s.spool.close, stage := if s.allAcked then .removing else .idle }

end CommandOutputSink

/-! ## The sink and the control plane -/

structure Request where
  seq : ℕ
  bytes : Units

def Upload.request (upload : Upload) : Request :=
  ⟨upload.chunk.seq, if upload.truncates then truncationMarker else upload.chunk.bytes⟩

/-- What the control plane makes of a request. -/
def takeRequest (held : List Units) (request : Request) : Answer × List Units :=
  if request.seq = held.length then (.acked, held ++ [request.bytes])
  else if request.seq < held.length then (.acked, held)
  else (.conflict held.length, held)

/-- A sink, what the control plane holds of its command, and the requests that were given up
and may still arrive. -/
structure Transcript where
  sink : CommandOutputSink := {}
  held : List Units := []
  late : List Request := []

/-- What happens to a request. -/
inductive RequestFate
  | answered
  | answerLost
  | requestLost
  /-- The control plane answers that the transcript is sealed. -/
  | refused

inductive TranscriptAction
  | line (line : Option Units) (written elapsed : Bool)
  | retryTimer
  | finalize
  /-- The next task of the chain begins. -/
  | next
  /-- A pause is over. -/
  | wake
  | request (fate : RequestFate)
  | fileRemoved (done : Bool)
  /-- A request that was given up arrives. -/
  | arrive (i : ℕ)
  /-- The control plane is left with its first chunks. -/
  | forget (count : ℕ)

namespace Transcript

variable (options : SinkOptions)

/-- The request the running task waits on meets its fate. -/
def meet (s : Transcript) (upload : Upload) (attempt : ℕ) (caller : Caller) :
    RequestFate → Transcript
  | .answered =>
    let (answer, held) := takeRequest s.held upload.request
    { s with sink := s.sink.answered options upload attempt caller answer, held }
  | .answerLost =>
    { s with sink := s.sink.answered options upload attempt caller .failed
             held := (takeRequest s.held upload.request).2 }
  | .requestLost =>
    { s with sink := s.sink.answered options upload attempt caller .failed
             late := s.late ++ [upload.request] }
  | .refused => { s with sink := s.sink.answered options upload attempt caller .refused }

def step (s : Transcript) : TranscriptAction → Option Transcript
  | .line line written elapsed =>
    some { s with sink := s.sink.onLine options line written elapsed }
  | .retryTimer => if s.sink.retryScheduled then some { s with sink := s.sink.onRetryTimer } else none
  | .finalize => some { s with sink := s.sink.finalize }
  | .next =>
    match s.sink.stage, s.sink.chain with
    | .idle, task :: chain => some { s with sink := { s.sink with chain }.begin options task }
    | _, _ => none
  | .wake =>
    match s.sink.stage with
    | .backoff upload attempt caller =>
      some { s with sink := s.sink.sendWithRetry options upload attempt caller }
    | .pausing rounds => some { s with sink := s.sink.settleQueue options (rounds - 1) }
    | _ => none
  | .request fate =>
    match s.sink.stage with
    | .sending upload attempt caller => some (s.meet options upload attempt caller fate)
    | _ => none
  | .fileRemoved done =>
    match s.sink.stage with
    | .removing =>
      some { s with sink := { s.sink with
        stage := .idle, spool := { s.sink.spool with removed := done } } }
    | _ => none
  | .arrive i => s.late[i]?.map fun request =>
      { s with held := (takeRequest s.held request).2, late := s.late.eraseIdx i }
  | .forget count => some { s with held := s.held.take count }

end Transcript

end Turbopaneld.Logs
