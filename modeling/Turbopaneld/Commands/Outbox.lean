/-
# The command outbox

A command's outcome is kept until the control plane has it: journaled before it is sent, held
or unconfirmed after, and sent again on later sockets.  The module's variables, the journal
directory and what the module sees of its host are one state.  A stretch of code without an
await is one block; a queued write, a removal and every read of the journal end one.
-/

import Turbopaneld.DockerGate.Json
import Turbopaneld.Machines.Threads
import Turbopaneld.Programs.Stateful

namespace Turbopaneld.Commands

open Programs
open DockerGate (Json)

/-! ## Messages -/

structure ProgressStep where
  id : String
  label : String
  state : String
deriving DecidableEq, Repr

structure CommandProgress where
  steps : List ProgressStep
  /-- The id of the running step. -/
  current : Option String
  runningSince : Option String
deriving DecidableEq, Repr

/-- A `command-outcome`.  Times are milliseconds; a text that is no readable time is absent. -/
structure OutcomeMessage where
  id : String
  ok : Bool
  error : Option String
  result : Option Json
  /-- `at`. -/
  atMs : Option ℕ
  daemonRespondedAt : Option ℕ

structure JournalEntry where
  id : String
  acceptedAt : Option ℕ
  progress : Option CommandProgress
  outcome : Option OutcomeMessage
  journaledAt : Option ℕ

/-- `RESEND_INTERVAL_MS`. -/
def resendIntervalMs : ℕ := 30000

/-- `PROGRESS_JOURNAL_INTERVAL_MS`. -/
def progressJournalIntervalMs : ℕ := 30000

/-- `UNACKED_RETENTION_MS`. -/
def unackedRetentionMs : ℕ := 7 * 24 * 60 * 60 * 1000

/-- `UNACKED_MAX_ENTRIES`. -/
def unackedMaxEntries : ℕ := 64

/-- `OUTCOME_BURST_MAX`. -/
def outcomeBurstMax : ℕ := 20

/-! ## What a step plan shows -/

structure InterruptedFacts where
  lastStep : Option String
  releasePromoted : Option Bool
deriving DecidableEq, Repr

def CommandProgress.step (progress : CommandProgress) (id : String) : Option ProgressStep :=
  progress.steps.find? fun step => step.id = id

def trafficSwitched (progress : CommandProgress) (switchStep : ProgressStep) : Option Bool :=
  let started := progress.step "start"
  let stopped := (progress.step "stop-old").any fun step => step.state ≠ "pending"
  let nextAppUnderWay := started.any (fun step => step.state = "running") ||
    (progress.step "health").any fun step => step.state = "running"
  if switchStep.state = "done" || stopped then if nextAppUnderWay then none else some true
  else if switchStep.state ≠ "pending" then none
  else if started.any fun step => step.state = "pending" then some false
  else none

def releasePromoted (progress : CommandProgress) : Option Bool :=
  match progress.step "switch" with
  | some switchStep => trafficSwitched progress switchStep
  | none =>
    match progress.step "start" with
    | none => none
    | some start =>
      if start.state = "done" ||
          (progress.step "health").any fun step => step.state ≠ "pending" then
        some true
      else if start.state = "pending" then some false
      else none

def interruptedFacts : Option CommandProgress → InterruptedFacts
  | none => ⟨none, none⟩
  | some progress =>
    let started := progress.steps.reverse.find? fun step =>
      step.state = "running" || step.state = "done" || step.state = "failed"
    let last := (progress.current.bind progress.step).or started
    ⟨last.map (·.label), releasePromoted progress⟩

def releaseNote : Option Bool → String
  | none => ""
  | some true => "; the new release had been made live"
  | some false => "; the new release had not been made live"

def interruptedMessage (facts : InterruptedFacts) : String :=
  let step := match facts.lastStep with
    | some label => if label = "" then "no step reported" else "last step: " ++ label
    | none => "no step reported"
  "The daemon restarted while this command was running (" ++ step ++
    releaseNote facts.releasePromoted ++
    "). The host may be partly changed; check it before running again."

/-- `{ interrupted: true, ...facts }`. -/
def InterruptedFacts.result (facts : InterruptedFacts) : Json :=
  .object ([("interrupted", .bool true)] ++
    (facts.lastStep.map fun label => ("lastStep", Json.string label)).toList ++
    (facts.releasePromoted.map fun promoted => ("releasePromoted", Json.bool promoted)).toList)

/-- `planSignature`: what of a plan is journaled at once when it changes. -/
def planSignature (progress : CommandProgress) : List String × Option String × Option String :=
  (progress.steps.map fun step => step.id ++ ":" ++ step.state, progress.current,
    progress.runningSince)

/-! ## Insertion-ordered maps -/

section

variable {α : Type}

/-- `map.set`: a key keeps its place. -/
def setEntry (id : String) (value : α) : List (String × α) → List (String × α)
  | [] => [(id, value)]
  | (key, old) :: rest =>
    if key = id then (key, value) :: rest else (key, old) :: setEntry id value rest

/-- `map.set` of every entry. -/
def setEntries (entries into : List (String × α)) : List (String × α) :=
  entries.foldl (fun result entry => setEntry entry.1 entry.2 result) into

/-- `map.delete`. -/
def deleteEntry (id : String) (entries : List (String × α)) : List (String × α) :=
  entries.filter fun entry => entry.1 ≠ id

def hasEntry (id : String) (entries : List (String × α)) : Bool := (entries.lookup id).isSome

end

/-! ## The state -/

abbrev SocketId := ℕ

/-- What a control plane has said it supports, as its peer object answers. -/
structure PeerView where
  recovers : Bool
  known : Bool

structure BurstWindow where
  start : ℕ
  used : ℕ

structure LastProgress where
  progress : CommandProgress
  signature : List String × Option String × Option String
  writtenAt : ℕ

/-- What a queued job does once its turn comes. -/
inductive Work
  /-- Write an entry that is complete. -/
  | entry (entry : JournalEntry)
  /-- Write that the command was accepted. -/
  | accepted (id : String)
  /-- Write the step plan, if the command is still running by then. -/
  | progress (id : String) (progress : CommandProgress)
  /-- Write the answer given for a command of a dead daemon. -/
  | answer (id : String) (reply : OutcomeMessage)
  | remove (id : String)

inductive JobPhase
  | queued
  /-- The entry is on its way to the disk. -/
  | writing (entry : JournalEntry)
  | settled

/-- A promise the module made: it starts when the one it follows is settled. -/
structure Job where
  after : Option ℕ
  work : Work
  phase : JobPhase

inductive FrameContent
  | outcome (message : OutcomeMessage)
  | progress (id : String)

/-- A frame that went out, with when, and whether `sendKept` sent it. -/
structure Frame where
  socket : SocketId
  sentAt : ℕ
  kept : Bool
  content : FrameContent

structure Outbox where
  held : List (String × OutcomeMessage)
  unacked : List (String × OutcomeMessage)
  running : List String
  acceptedAt : List (String × ℕ)
  lastProgress : List (String × LastProgress)
  writeChains : List (String × ℕ)
  currentSocket : Option SocketId
  currentPeer : Option ℕ
  /-- When the resend timer fires, if one is set. -/
  resendTimer : Option ℕ
  sentOnSocket : List (String × ℕ)
  burstWindow : BurstWindow
  keptSince : List (String × ℕ)
  /-- Every promise made so far; its ticket is its place. -/
  jobs : List Job
  journal : List (String × JournalEntry)
  clock : ℕ
  /-- By how much each further reading of the clock is later than the last. -/
  ticks : ℕ → ℕ
  /-- The journal files, or the directory, that cannot be read. -/
  unreadable : Option String → Bool
  isOpen : SocketId → Bool
  /-- `send` throws. -/
  sendFails : SocketId → Bool
  peers : ℕ → PeerView
  /-- How many sockets the connect loops have made. -/
  sockets : ℕ
  /-- The socket whose session the connect loop runs. -/
  loopSocket : Option SocketId
  /-- The socket that may drive the daemon, `#ws` of the client. -/
  clientSocket : Option SocketId
  /-- Everything sent, the newest first. -/
  frames : List Frame

abbrev Block := Prog Empty Outbox

/-- `timers.now()`. -/
def readClock : Block ℕ := do
  Prog.update fun s => { s with clock := s.clock + s.ticks 0, ticks := fun n => s.ticks (n + 1) }
  return (← Prog.current).clock

/-- Run a block for each item, while it says to go on. -/
def whileEach {α : Type} (block : α → Block Bool) : List α → Block Unit
  | [] => pure ()
  | item :: rest => do
    if ← block item then whileEach block rest else pure ()

/-- Run a block for each item. -/
def eachOf {α β : Type} (block : α → Block β) : List α → Block (List β)
  | [] => pure []
  | item :: rest => do
    let result ← block item
    let results ← eachOf block rest
    return result :: results

/-! ## Sending -/

/-- Make `ws` the session socket; a different socket starts with nothing sent. -/
def useSocket (ws : SocketId) : Block Unit := do
  if (← Prog.current).currentSocket = some ws then pure ()
  else do
    let now ← readClock
    Prog.update fun s =>
      { s with currentSocket := some ws, sentOnSocket := [], burstWindow := ⟨now, 0⟩ }

def burstLeft : Block ℤ := do
  let now ← readClock
  if resendIntervalMs ≤ now - (← Prog.current).burstWindow.start then
    Prog.update fun s => { s with burstWindow := ⟨now, 0⟩ }
  else pure ()
  return (outcomeBurstMax : ℤ) - (← Prog.current).burstWindow.used

def noteSent (id : String) : Block Unit := do
  let now ← readClock
  Prog.update fun s =>
    { s with sentOnSocket := setEntry id now s.sentOnSocket
             burstWindow := { s.burstWindow with used := s.burstWindow.used + 1 } }

def recovers (s : Outbox) : Bool := s.currentPeer.any fun peer => (s.peers peer).recovers

/-- Keep a result until the control plane confirms it: it says it confirms results, or it has
not said yet on this socket. -/
def keepsUntilAck (s : Outbox) : Bool :=
  recovers s || s.currentPeer.any fun peer => !(s.peers peer).known

def trySend (ws : Option SocketId) (kept : Bool) (content : FrameContent) : Block Bool := do
  match ws with
  | none => return false
  | some socket =>
    if !(← Prog.current).isOpen socket || (← Prog.current).sendFails socket then return false
    else do
      let sentAt ← readClock
      Prog.update fun s => { s with frames := ⟨socket, sentAt, kept, content⟩ :: s.frames }
      return true

/-- Send on the newest attached socket, falling back to `ws`.  Not paced. -/
def sendLive (ws : Option SocketId) (outcome : OutcomeMessage) : Block Bool := do
  if ← trySend (← Prog.current).currentSocket false (.outcome outcome) then do
    noteSent outcome.id
    return true
  else trySend ws false (.outcome outcome)

/-- `sendLive` with the send time stamped. -/
def sendOutcome (ws : Option SocketId) (outcome : OutcomeMessage) : Block Bool := do
  let now ← readClock
  sendLive ws { outcome with atMs := some now }

/-- Send a kept outcome on the session socket while this window allows. -/
def sendKept (outcome : OutcomeMessage) : Block Bool := do
  if (← burstLeft) ≤ 0 then return false
  else do
    let now ← readClock
    let stamped := { outcome with atMs := some now }
    if ← trySend (← Prog.current).currentSocket true (.outcome stamped) then do
      noteSent outcome.id
      return true
    else return false

/-- `sendCommandFrame` of a progress frame. -/
def sendCommandFrame (ws : SocketId) (id : String) : Block Bool := do
  if ← trySend (← Prog.current).currentSocket false (.progress id) then return true
  else trySend (some ws) false (.progress id)

/-! ## The journal -/

/-- An id that may name a journal file. -/
def isSafeId (id : String) : Bool :=
  id.toList.all fun c =>
    ('A' ≤ c && c ≤ 'Z') || ('a' ≤ c && c ≤ 'z') || ('0' ≤ c && c ≤ '9') ||
      c == '_' || c == '-'

/-- Make a promise; its ticket is awaited. -/
def addJob (job : Job) : Block ℕ := do
  let ticket := (← Prog.current).jobs.length
  Prog.update fun s => { s with jobs := s.jobs ++ [job] }
  return ticket

/-- Writes for one command run one after another. -/
def queueWrite (id : String) (work : Work) : Block ℕ := do
  let previous := (← Prog.current).writeChains.lookup id
  let ticket ← addJob ⟨previous, work, .queued⟩
  Prog.update fun s => { s with writeChains := setEntry id ticket s.writeChains }
  return ticket

def removeJournal (id : String) : Block ℕ := addJob ⟨none, .remove id, .queued⟩

def entryFor (id : String) (progress : Option CommandProgress) (outcome : Option OutcomeMessage)
    (journaledAt : Option ℕ) : Block JournalEntry := do
  match (← Prog.current).acceptedAt.lookup id with
  | some acceptedAt => return ⟨id, some acceptedAt, progress, outcome, journaledAt⟩
  | none => do
    let now ← readClock
    return ⟨id, some now, progress, outcome, journaledAt⟩

/-- A job whose turn has come does what it is for: a removal and a skipped write are over at
once, a write is on its way. -/
def startJob (ticket : ℕ) : Block Unit := do
  let s ← Prog.current
  match s.jobs[ticket]? with
  | none => pure ()
  | some job =>
    match job.work with
    | .entry entry => setPhase (.writing entry)
    | .accepted id => do
      let entry ← entryFor id none none none
      setPhase (.writing entry)
    | .progress id progress =>
      if s.running.contains id then do
        let entry ← entryFor id (some progress) none none
        setPhase (.writing entry)
      else setPhase .settled
    | .answer id reply => do
      let now ← readClock
      let entry ← entryFor id none (some reply) (reply.atMs.or (some now))
      setPhase (.writing entry)
    | .remove id => do
      setPhase .settled
      Prog.update fun s => { s with journal := deleteEntry id s.journal }
where
  setPhase (phase : JobPhase) : Block Unit :=
    Prog.update fun s => { s with jobs := s.jobs.modify ticket fun job => { job with phase } }

/-- The write lands, or fails and leaves the file as it was. -/
def finishJob (ticket : ℕ) (succeeds : Bool) : Block Unit := do
  match (← Prog.current).jobs[ticket]? with
  | some ⟨_, _, .writing entry⟩ =>
    Prog.update fun s =>
      { s with
        jobs := s.jobs.modify ticket fun job => { job with phase := .settled }
        journal :=
          if succeeds && isSafeId entry.id then setEntry entry.id entry s.journal else s.journal }
  | _ => pure ()

/-! ## Resending -/

def scheduleResend : Block Unit := do
  let s ← Prog.current
  if s.resendTimer.isSome || (s.unacked.isEmpty && s.held.isEmpty) then pure ()
  else Prog.update fun s => { s with resendTimer := some (s.clock + resendIntervalMs) }

/-- Unconfirmed outcomes not sent on this socket in the last `minAgeMs` (`none`: ever). -/
def dueOutcomes (s : Outbox) (now : ℕ) (minAgeMs : Option ℕ) : List OutcomeMessage :=
  let sentAt (outcome : OutcomeMessage) : ℤ :=
    ((s.sentOnSocket.lookup outcome.id).map Nat.cast).getD (-1)
  ((s.unacked.map Prod.snd).filter fun outcome =>
    !hasEntry outcome.id s.sentOnSocket ||
      minAgeMs.any fun age => (age : ℤ) ≤ now - sentAt outcome).mergeSort fun a b =>
        sentAt a ≤ sentAt b

def resendUnacked (minAgeMs : Option ℕ) : Block Unit := do
  let s ← Prog.current
  if s.currentSocket.any s.isOpen then do
    let now ← readClock
    whileEach sendKept (dueOutcomes (← Prog.current) now minAgeMs)
  else pure ()

/-- Send held outcomes, and start removing the journals of those that went out. -/
def flushOne (entry : String × OutcomeMessage) : Block Bool := do
  let goesOn ← if hasEntry entry.1 (← Prog.current).sentOnSocket then pure true
    else sendKept entry.2
  if goesOn then
    Prog.update fun s => { s with held := deleteEntry entry.1 s.held }
  else pure ()
  return goesOn

/-- The part of `flushHeld` in front of its await; the tickets are the removals it awaits. -/
def flushHeld : Block (List ℕ) := do
  let s ← Prog.current
  if recovers s then do
    Prog.update fun s =>
      { s with unacked := setEntries s.held s.unacked, held := [] }
    return []
  else do
    let before := s.held
    whileEach flushOne before
    let after := (← Prog.current).held
    eachOf removeJournal ((before.map Prod.fst).filter fun id => !hasEntry id after)

/-- Outcomes kept while the features were unknown, once the control plane turns out not to
confirm results. -/
def releaseForOlderPeer : Block Unit := do
  if recovers (← Prog.current) then pure ()
  else
    Prog.update fun s =>
      { s with held := setEntries s.unacked s.held, unacked := [] }

/-! ## Calls that do not await -/

/-- A dispatch for a command already accepted is answered, and not run again. -/
def answerRepeatedDispatch (ws : SocketId) (id : String) : Block Bool := do
  if (← Prog.current).isOpen ws then useSocket ws else pure ()
  let s ← Prog.current
  if s.running.contains id then do
    if hasEntry id s.lastProgress then discard (sendCommandFrame ws id) else pure ()
    return true
  else
    match (s.held.lookup id).or (s.unacked.lookup id) with
    | none => return false
    | some kept => do
      discard (sendOutcome (some ws) kept)
      return true

def noteCommandProgress (id : String) (progress : CommandProgress) : Block Unit := do
  if (← Prog.current).running.contains id then do
    let now ← readClock
    let signature := planSignature progress
    let previous := (← Prog.current).lastProgress.lookup id
    if previous.all fun last =>
        last.signature ≠ signature || last.writtenAt + progressJournalIntervalMs ≤ now then do
      Prog.update fun s =>
        { s with lastProgress := setEntry id ⟨progress, signature, now⟩ s.lastProgress }
      discard (queueWrite id (.progress id progress))
    else
      match previous with
      | none => pure ()
      | some last =>
        Prog.update fun s =>
          { s with lastProgress := setEntry id { last with progress } s.lastProgress }
  else pure ()

/-- A socket just opened, before its attach frame says what the control plane supports. -/
def noteSessionOpen (ws : SocketId) (peer : Option ℕ) : Block Unit := do
  Prog.update fun s => { s with currentPeer := peer.or s.currentPeer }
  if (← Prog.current).isOpen ws then do
    useSocket ws
    let s ← Prog.current
    whileEach sendKept (s.unacked.map Prod.snd ++ s.held.map Prod.snd)
    scheduleResend
  else pure ()

/-- What the resend timer runs. -/
def onResendTimer : Block Unit := do
  Prog.update fun s => { s with resendTimer := none }
  resendUnacked (some resendIntervalMs)
  if keepsUntilAck (← Prog.current) then pure () else discard flushHeld
  scheduleResend

/-! ## Calls that await -/

inductive OutboxCall : Type → Type 1
  /-- Code up to the next await. -/
  | run {α : Type} (block : Block α) : OutboxCall α
  | settled (ticket : ℕ) : OutboxCall Unit

def run {α : Type} (block : Block α) : Async OutboxCall α := Async.perform (.run block)

def awaitAll (tickets : List ℕ) : Async OutboxCall Unit :=
  Async.forEach (fun ticket => Async.perform (.settled ticket)) tickets

/-- The part of `markCommandInFlight` in front of its await. -/
def accept (id : String) : Block (List ℕ) := do
  let now ← readClock
  Prog.update fun s =>
    { s with running := if s.running.contains id then s.running else s.running ++ [id]
             acceptedAt := setEntry id now s.acceptedAt }
  let ticket ← queueWrite id (.accepted id)
  return [ticket]

/-- `handleCommandDispatch` up to where the command runs. -/
def handleCommandDispatch (ws : SocketId) (id : String) : Async OutboxCall Unit := do
  let tickets ← run do
    if ← answerRepeatedDispatch ws id then return [] else accept id
  awaitAll tickets

def deliverCommandOutcome (ws : SocketId) (outcome : OutcomeMessage) : Async OutboxCall Unit := do
  let ticket ← run do
    Prog.update fun s =>
      { s with running := s.running.erase outcome.id
               lastProgress := deleteEntry outcome.id s.lastProgress }
    let now ← readClock
    let entry ← entryFor outcome.id none (some outcome) (some now)
    queueWrite outcome.id (.entry entry)
  awaitAll [ticket]
  let removals ← run do
    Prog.update fun s => { s with acceptedAt := deleteEntry outcome.id s.acceptedAt }
    let sent ← sendLive (some ws) outcome
    if keepsUntilAck (← Prog.current) then do
      Prog.update fun s => { s with unacked := setEntry outcome.id outcome s.unacked }
      scheduleResend
      return []
    else if sent then do
      let removal ← removeJournal outcome.id
      return [removal]
    else do
      Prog.update fun s => { s with held := setEntry outcome.id outcome s.held }
      return []
  awaitAll removals

/-- The part of `acknowledgeCommandOutcome` in front of its await. -/
def acknowledgeNow (id : String) : Block (List ℕ) := do
  if (← Prog.current).running.contains id then return []
  else do
    Prog.update fun s =>
      { s with unacked := deleteEntry id s.unacked
               held := deleteEntry id s.held
               keptSince := deleteEntry id s.keptSince
               writeChains := deleteEntry id s.writeChains }
    let removal ← removeJournal id
    return [removal]

def acknowledgeCommandOutcome (id : String) : Async OutboxCall Unit := do
  let removals ← run (acknowledgeNow id)
  awaitAll removals

def journaledOutcome (entry : Option JournalEntry) (id : String) : Option OutcomeMessage :=
  (entry.bind (·.outcome)).filter fun outcome => outcome.id = id

def entryRecordedMs (entry : Option JournalEntry) : Option ℕ :=
  entry.bind fun entry =>
    (entry.journaledAt.or (entry.outcome.bind (·.atMs))).or entry.acceptedAt

def orphanReply (id : String) (entry : Option JournalEntry) : Block OutcomeMessage := do
  let now ← readClock
  match journaledOutcome entry id with
  | some journaled => return { journaled with atMs := some now }
  | none =>
    let facts := interruptedFacts (entry.bind (·.progress))
    return ⟨id, false, some (interruptedMessage facts), some facts.result, some now, some now⟩

/-- Answer one journal entry of a daemon that died. -/
def answerOrphan (keep : Bool) (orphan : String × Option JournalEntry) : Block Unit := do
  let (id, entry) := orphan
  match entryRecordedMs entry with
  | some recorded => Prog.update fun s => { s with keptSince := setEntry id recorded s.keptSince }
  | none => pure ()
  let reply ← orphanReply id entry
  Prog.update fun s =>
    if keep then { s with unacked := setEntry id reply s.unacked }
    else { s with held := setEntry id reply s.held }

/-- Journal the answer to a command that had no outcome. -/
def journalAnswer (orphan : String × Option JournalEntry) : Block (List ℕ) := do
  let (id, entry) := orphan
  match (← Prog.current).unacked.lookup id with
  | none => return []
  | some reply =>
    if (journaledOutcome entry id).isSome then return []
    else do
      let ticket ← queueWrite id (.answer id reply)
      return [ticket]

def readEntries : List String → Async OutboxCall (List (String × Option JournalEntry))
  | [] => pure []
  | id :: rest => do
    let entry ← run do
      let s ← Prog.current
      return if s.unreadable (some id) || !isSafeId id then none else s.journal.lookup id
    let entries ← readEntries rest
    return (id, entry) :: entries

/-- Ids journaled on disk that this process is neither running nor holding. -/
def orphanedIds : Async OutboxCall (List String) := do
  let names ← run do
    let s ← Prog.current
    return if s.unreadable none then [] else s.journal.map Prod.fst
  run do
    let s ← Prog.current
    return names.filter fun id =>
      !s.running.contains id && !hasEntry id s.held && !hasEntry id s.unacked

def answerOrphans : Async OutboxCall Unit := do
  let ids ← orphanedIds
  let orphans ← readEntries ids
  let tickets ← run do
    let keep := recovers (← Prog.current)
    discard (eachOf (answerOrphan keep) orphans)
    if keep then return (← eachOf journalAnswer orphans).flatten else flushHeld
  awaitAll tickets

/-- When an unconfirmed outcome was recorded. -/
def recordedAtMs (s : Outbox) (id : String) : Option ℕ :=
  (s.keptSince.lookup id).or ((s.unacked.lookup id).bind (·.atMs))

/-- The unconfirmed outcomes that are too old or beyond the cap. -/
def droppedIds (s : Outbox) (now : ℕ) : List String :=
  let ids := s.unacked.map Prod.fst
  let recorded (id : String) : ℤ := ((recordedAtMs s id).map Nat.cast).getD (-1)
  let stale := ids.filter fun id =>
    (recordedAtMs s id).any fun at_ => (at_ : ℤ) < now - (unackedRetentionMs : ℤ)
  let others := (ids.filter fun id => !stale.contains id).mergeSort fun a b =>
    recorded a ≤ recorded b
  stale ++ others.take (ids.length - stale.length - unackedMaxEntries)

def pruneUnacked : Async OutboxCall Unit := do
  let removals ← run do
    let now ← readClock
    return (← eachOf acknowledgeNow (droppedIds (← Prog.current) now)).flatten
  awaitAll removals

/-- On a new session: send held outcomes, send unconfirmed ones again, then answer the journal
of a daemon that died. -/
def flushCommandOutcomes (ws : SocketId) (peer : Option ℕ) : Async OutboxCall Unit := do
  let removals ← run do
    useSocket ws
    Prog.update fun s => { s with currentPeer := peer.or s.currentPeer }
    releaseForOlderPeer
    flushHeld
  awaitAll removals
  if ← run do return (← Prog.current).isOpen ws then do
    answerOrphans
    pruneUnacked
    run do
      resendUnacked none
      scheduleResend
  else pure ()

/-! ## The process -/

inductive Call
  | dispatch (ws : SocketId) (id : String)
  | deliver (ws : SocketId) (outcome : OutcomeMessage)
  | acknowledge (id : String)
  | attach (ws : SocketId) (peer : Option ℕ)

def Call.program : Call → Async OutboxCall Unit
  | .dispatch ws id => handleCommandDispatch ws id
  | .deliver ws outcome => deliverCommandOutcome ws outcome
  | .acknowledge id => acknowledgeCommandOutcome id
  | .attach ws peer => flushCommandOutcomes ws peer

/-- The socket of a frame: only the client's current one is listened to. -/
def Call.frameSocket : Call → Option SocketId
  | .dispatch ws _ => some ws
  | .attach ws _ => some ws
  | _ => none

inductive Act
  /-- The socket of the connect loop opened, or its hello verified. -/
  | sessionOpen (peer : Option ℕ)
  /-- A dispatch the client has seen before. -/
  | repeated (ws : SocketId) (id : String)
  | progress (id : String) (progress : CommandProgress)
  | timer
  | startJob (ticket : ℕ)
  | finishJob (ticket : ℕ) (succeeds : Bool)
  /-- The connect loop makes a new socket. -/
  | connect
  /-- The socket of the client is closed or abandoned. -/
  | disconnect
  | setOpen (isOpen : SocketId → Bool)
  | setFails (sendFails : SocketId → Bool)
  | setPeers (peers : ℕ → PeerView)
  | setUnreadable (unreadable : Option String → Bool)
  | advance (ms : ℕ)

/-- The state a block leaves, and its value. -/
def Block.run {α : Type} (block : Block α) (s : Outbox) : α × Outbox :=
  match block s with
  | (.ok a, s') => (a, s')
  | (.error e, _) => e.elim

def perform {β : Type} : OutboxCall β → Outbox → β × Outbox
  | .run block, s => Block.run block s
  | .settled _, s => ((), s)

/-- An asynchronous function runs at once up to its first await. -/
def begin (program : Async OutboxCall Unit) (s : Outbox) : Outbox × Async OutboxCall Unit :=
  match program with
  | .done a => (s, .done a)
  | .await c next => ((perform c s).2, next (perform c s).1)

def Outbox.isSettled (s : Outbox) (ticket : ℕ) : Bool :=
  match s.jobs[ticket]? with
  | some ⟨_, _, .settled⟩ => true
  | _ => false

/-- The job's turn has come. -/
def Outbox.mayStart (s : Outbox) (ticket : ℕ) : Bool :=
  match s.jobs[ticket]? with
  | some ⟨after, _, .queued⟩ => after.all s.isSettled
  | _ => false

def act : Act → Outbox → Option Outbox
  | .sessionOpen peer, s => s.loopSocket.map fun ws => (Block.run (noteSessionOpen ws peer) s).2
  | .repeated ws id, s =>
    if s.clientSocket = some ws then some (Block.run (answerRepeatedDispatch ws id) s).2 else none
  | .progress id progress, s => some (Block.run (noteCommandProgress id progress) s).2
  | .timer, s =>
    if s.resendTimer.any (· ≤ s.clock) then some (Block.run onResendTimer s).2 else none
  | .startJob ticket, s =>
    if s.mayStart ticket then some (Block.run (startJob ticket) s).2 else none
  | .finishJob ticket succeeds, s => some (Block.run (finishJob ticket succeeds) s).2
  | .connect, s =>
    some { s with sockets := s.sockets + 1, loopSocket := some s.sockets
                  clientSocket := some s.sockets }
  | .disconnect, s => some { s with clientSocket := none }
  | .setOpen isOpen, s => some { s with isOpen }
  | .setFails sendFails, s => some { s with sendFails }
  | .setPeers peers, s => some { s with peers }
  | .setUnreadable unreadable, s => some { s with unreadable }
  | .advance ms, s => some { s with clock := s.clock + ms }

/-- A daemon that has just started: the module's variables are empty, nothing is in flight and
the sockets of its predecessor are gone. -/
def boot (s : Outbox) : Outbox :=
  { s with
    held := [], unacked := [], running := [], acceptedAt := [], lastProgress := []
    writeChains := [], currentSocket := none, currentPeer := none, resendTimer := none
    sentOnSocket := [], burstWindow := ⟨0, 0⟩, keptSince := [], jobs := [], loopSocket := none
    clientSocket := none }

def outboxProcess : Machines.Process Unit OutboxCall Outbox Unit Call Act where
  perform c _ s := perform c s
  spawn call s :=
    if call.frameSocket.all fun ws => s.clientSocket = some ws then
      let (s', program) := begin call.program s
      some (s', ⟨(), program⟩)
    else none
  act
  restart := boot

/-- A promise is awaited until it is settled. -/
def outboxAllowed : Machines.Allowed Unit OutboxCall Outbox Unit Act where
  call _ _ c _ s :=
    match c with
    | .run _ => True
    | .settled ticket => s.isSettled ticket = true
  act _ _ := True
  restart _ := True

/-- The first daemon on a host: nothing has been sent on any socket. -/
def firstBoot (host : Outbox) : Outbox := boot { host with sockets := 0, frames := [] }

/-- A step that waits for no promise, or for one that is settled. -/
def waitsNoMore (s : Machines.Pool Unit OutboxCall Outbox) : Machines.Event Unit Call Act → Bool
  | .answer i _ =>
    match s.threads i with
    | some ⟨_, .await (.settled ticket) _⟩ => s.shared.isSettled ticket
    | _ => true
  | _ => true

theorem allowed_of_waitsNoMore (s : Machines.Pool Unit OutboxCall Outbox)
    (event : Machines.Event Unit Call Act) (h : waitsNoMore s event = true) :
    outboxAllowed.event s event := by
  cases event with
  | answer i reply =>
    intro tag β c next hthread
    cases c with
    | run block => trivial
    | settled ticket =>
      have hsettled : s.shared.isSettled ticket = true := by simpa [waitsNoMore, hthread] using h
      exact hsettled
  | spawn i kind => trivial
  | act action => trivial
  | restart => trivial

end Turbopaneld.Commands
