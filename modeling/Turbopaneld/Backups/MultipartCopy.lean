/-
# Copying a backup to a bucket

A small file goes to the bucket in one request, a large one in parts.  What was uploaded is
kept in a state file, so that a later attempt continues where an earlier one was cut off.  The
storage may get a request and the answer be lost, and it may get it late or more than once.

The model keeps, beside what the source keeps, from what file and in what parts an upload was
begun, and what was completed and returned.
-/

import Mathlib.Data.List.Sort
import Turbopaneld.Machines.Threads
import Turbopaneld.Programs.Throwing

namespace Turbopaneld.Backups

open Machines (Process Thread)
open Programs

abbrev Bytes := List UInt8

/-! ## The file and its parts -/

/-- `MAX_PARTS`. -/
def maxParts : ℕ := 9000

/-- `Math.ceil(a / b)` of file sizes.  Below 2^53 the quotient is never rounded to a whole number
it does not reach. -/
def ceilDiv (a b : ℕ) : ℕ := (a + b - 1) / b

def partSizeFor (size preferred : ℕ) : ℕ := max preferred (ceilDiv size maxParts)

/-- What `stat` tells of a file. -/
structure FileVersion where
  size : ℕ
  mtimeMs : ℤ
deriving DecidableEq, Repr

/-- The contents of the file, which are those of its versions. -/
structure FileHistory where
  content : FileVersion → Bytes
  length_content : ∀ version, (content version).length = version.size

/-- What parts are taken under. -/
structure Source where
  key : String
  partBytes : ℕ
  version : FileVersion
deriving DecidableEq, Repr

/-- The number of parts. -/
def Source.total (source : Source) : ℕ := ceilDiv source.version.size source.partBytes

def Source.offset (source : Source) (n : ℕ) : ℕ := (n - 1) * source.partBytes

def Source.length (source : Source) (n : ℕ) : ℕ :=
  min source.partBytes (source.version.size - source.offset n)

def FileHistory.range (files : FileHistory) (version : FileVersion) (offset length : ℕ) : Bytes :=
  ((files.content version).drop offset).take length

def FileHistory.part (files : FileHistory) (source : Source) (n : ℕ) : Bytes :=
  files.range source.version (source.offset n) (source.length n)

/-! ## The state file and the storage -/

structure PartTag where
  n : ℕ
  etag : String
deriving DecidableEq, Repr

structure UploadState where
  key : String
  uploadId : ℕ
  partBytes : ℕ
  size : ℕ
  mtimeMs : ℤ
  parts : List PartTag
deriving DecidableEq, Repr

/-- A part the storage has, with what the attempt that sent it took it under. -/
structure StoredPart where
  etag : String
  bytes : Bytes
  source : Source

structure StoredUpload where
  key : String
  parts : ℕ → Option StoredPart := fun _ => none

/-- An upload that an attempt completed, with the attempt's own key, part size and file. -/
structure Completion where
  attempt : Source
  parts : List (ℕ × StoredPart)

/-- An attempt that returned, with the file versions copied to its key so far and the object. -/
structure Returned where
  key : String
  version : FileVersion
  copied : List (String × FileVersion)
  object : Option Bytes

inductive StorageRequest
  | put (key : String) (body : Bytes)
  | create (source : Source)
  | uploadPart (id n : ℕ) (body : Bytes) (source : Source)
  | complete (id : ℕ) (tags : List PartTag) (attempt : Source)
  | abort (key : String) (id : ℕ)

structure World where
  /-- The state file, where it can be read. -/
  stateFile : Option UploadState := none
  tmp : Option UploadState := none
  objects : String → Option Bytes := fun _ => none
  uploads : ℕ → Option StoredUpload := fun _ => none
  nextId : ℕ := 0
  /-- The requests that were made, each of which may still arrive. -/
  sent : List StorageRequest := []
  /-- The keys attempts were begun for, and of which file. -/
  copied : List (String × FileVersion) := []
  /-- What uploads were begun for. -/
  begun : ℕ → Option Source := fun _ => none
  completed : List Completion := []
  returned : List Returned := []

/-- What a call throws. -/
inductive Failure
  | noSuchUpload
  | other
deriving DecidableEq, Repr

def byNumber (a b : PartTag) : Prop := a.n ≤ b.n

instance : DecidableRel byNumber := fun a b => inferInstanceAs (Decidable (a.n ≤ b.n))

instance : Std.Total byNumber := ⟨fun a b => Nat.le_total a.n b.n⟩

instance : IsTrans PartTag byNumber := ⟨fun _ _ _ => Nat.le_trans⟩

namespace World

def put (w : World) (key : String) (body : Bytes) : World :=
  { w with objects := Function.update w.objects key (some body) }

def create (w : World) (source : Source) : ℕ × World :=
  (w.nextId, { w with
    nextId := w.nextId + 1
    uploads := Function.update w.uploads w.nextId (some { key := source.key })
    begun := Function.update w.begun w.nextId (some source) })

def uploadPart (w : World) (id n : ℕ) (body : Bytes) (source : Source) (etag : String) :
    Except Failure String × World :=
  match w.uploads id with
  | none => (.error .noSuchUpload, w)
  | some upload =>
    if upload.key ≠ source.key then (.error .noSuchUpload, w)
    else
      let parts := Function.update upload.parts n (some ⟨etag, body, source⟩)
      (.ok etag, { w with uploads := Function.update w.uploads id (some { upload with parts }) })

/-- The parts a request to complete names, in the order of their numbers. -/
def listed (upload : StoredUpload) (tags : List PartTag) : Option (List (ℕ × StoredPart)) :=
  (tags.insertionSort byNumber).mapM fun tag =>
    (upload.parts tag.n).bind fun part =>
      if part.etag = tag.etag then some (tag.n, part) else none

def complete (w : World) (id : ℕ) (tags : List PartTag) (attempt : Source) :
    Except Failure Unit × World :=
  match w.uploads id with
  | none => (.error .noSuchUpload, w)
  | some upload =>
    if upload.key ≠ attempt.key then (.error .noSuchUpload, w)
    else
      match listed upload tags with
      | none => (.error .other, w)
      | some parts => (.ok (), { w with
          objects := Function.update w.objects attempt.key
            (some (parts.flatMap fun part => part.2.bytes))
          uploads := Function.update w.uploads id none
          completed := w.completed ++ [⟨attempt, parts⟩] })

def abort (w : World) (key : String) (id : ℕ) : World :=
  match w.uploads id with
  | none => w
  | some upload =>
    if upload.key ≠ key then w else { w with uploads := Function.update w.uploads id none }

@[simp]
theorem objects_put (w : World) (key : String) (body : Bytes) :
    (w.put key body).objects = Function.update w.objects key (some body) := rfl

@[simp]
theorem uploads_create (w : World) (source : Source) : (w.create source).2.uploads =
    Function.update w.uploads w.nextId (some { key := source.key }) := rfl

@[simp]
theorem begun_create (w : World) (source : Source) :
    (w.create source).2.begun = Function.update w.begun w.nextId (some source) := rfl

/-- A request reaches the storage, whether anyone waits for the answer or not. -/
def arrive (w : World) (etag : String) : StorageRequest → World
  | .put key body => w.put key body
  | .create source => (w.create source).2
  | .uploadPart id n body source => (w.uploadPart id n body source etag).2
  | .complete id tags attempt => (w.complete id tags attempt).2
  | .abort key id => w.abort key id

end World

/-! ## The program -/

/-- What an attempt awaits. -/
inductive Call : Type → Type
  | stat : Call (Except Failure Unit)
  | openFile : Call (Except Failure Unit)
  | readRange (version : FileVersion) (offset length : ℕ) : Call (Except Failure Bytes)
  /-- `readState`. -/
  | readState : Call (Option UploadState)
  | writeTmp (state : UploadState) : Call (Except Failure Unit)
  | renameTmp : Call (Except Failure Unit)
  /-- The removal of the state file, whose failure is ignored. -/
  | removeState : Call Unit
  | put (key : String) (body : Bytes) : Call (Except Failure Unit)
  | create (source : Source) : Call (Except Failure ℕ)
  | uploadPart (id n : ℕ) (body : Bytes) (source : Source) : Call (Except Failure String)
  | complete (id : ℕ) (tags : List PartTag) (attempt : Source) : Call (Except Failure Unit)
  | abort (key : String) (id : ℕ) : Call (Except Failure Unit)
  /-- `headObject`, of which the size is used. -/
  | head (key : String) : Call (Except Failure (Option ℕ))
  /-- The attempt returns. -/
  | return (key : String) (version : FileVersion) : Call Unit

abbrev Program := Throwing Call Failure

def writeState (state : UploadState) : Program Unit := do
  Throwing.perform (.writeTmp state)
  Throwing.perform .renameTmp

/-- The old upload is aborted, whatever becomes of the request. -/
def abortOld : Option UploadState → Program Unit
  | none => pure ()
  | some old => discard (Throwing.ask (.abort old.key old.uploadId))

/-- The part of `resumableState` behind the check of the old state. -/
def freshState (old : Option UploadState) (source : Source) : Program UploadState := do
  abortOld old
  let uploadId ← Throwing.perform (.create source)
  let fresh : UploadState :=
    ⟨source.key, uploadId, source.partBytes, source.version.size, source.version.mtimeMs, []⟩
  writeState fresh
  return fresh

def resumableState (source : Source) : Program UploadState := do
  let old ← Throwing.ask .readState
  match old with
  | none => freshState none source
  | some old =>
    if old.key = source.key ∧ old.size = source.version.size ∧
        old.mtimeMs = source.version.mtimeMs ∧ old.partBytes = source.partBytes then
      return old
    else freshState (some old) source

/-- One round of `uploadParts`. -/
def uploadOne (key : String) (version : FileVersion) (state : UploadState) (n : ℕ) :
    Program UploadState := do
  let offset := (n - 1) * state.partBytes
  let length := min state.partBytes (state.size - offset)
  let body ← Throwing.perform (.readRange version offset length)
  let etag ← Throwing.perform (.uploadPart state.uploadId n body ⟨key, state.partBytes, version⟩)
  let state := { state with parts := state.parts ++ [⟨n, etag⟩] }
  writeState state
  return state

def uploadParts (key : String) (version : FileVersion) (state : UploadState) :
    Program UploadState :=
  let total := ceilDiv state.size state.partBytes
  let done := state.parts.map PartTag.n
  let pending := (List.range' 1 total).filter (· ∉ done)
  pending.foldlM (uploadOne key version) state

/-- The storage forgot the upload: the next attempt starts clean. -/
def forgetUpload (failure : Failure) : Program Unit :=
  if failure = .noSuchUpload then Throwing.ask .removeState else pure ()

/-- The upload in parts, with its handler. -/
def uploadInParts (source : Source) : Program Unit := do
  let state ← resumableState source
  tryCatch (do
    let state ← uploadParts source.key source.version state
    Throwing.perform (.complete state.uploadId (state.parts.insertionSort byNumber) source))
    fun failure => do
      forgetUpload failure
      throw failure

/-- The part of `uploadBackupFile` between the opening of the file and its closing. -/
def sendFile (source : Source) : Program Unit :=
  if source.version.size ≤ source.partBytes then do
    let body ← Throwing.perform (.readRange source.version 0 source.version.size)
    Throwing.perform (.put source.key body)
  else uploadInParts source

/-- `uploadBackupFile`, of the file as `stat` finds it. -/
def uploadBackupFile (key : String) (preferred : ℕ) (version : FileVersion) : Program Unit := do
  Throwing.perform .stat
  let partBytes := partSizeFor version.size preferred
  Throwing.perform .openFile
  sendFile ⟨key, partBytes, version⟩
  Throwing.ask .removeState
  let head ← Throwing.perform (.head key)
  if head ≠ some version.size then throw .other
  else Throwing.ask (.return key version)

def abandonUpload : Program Unit := do
  let state ← Throwing.ask .readState
  abortOld state
  Throwing.ask .removeState

/-! ## Runs -/

/-- How a call ends: with its answer, or with a failure that may come after its effect. -/
inductive Reply
  | done (etag : String)
  | failed (arrived : Bool) (failure : Failure)

/-- A request to the storage, with what it answers. -/
def World.request {α : Type} (w : World) (request : StorageRequest) (reply : Reply)
    (answer : String → World → Except Failure α × World) : Except Failure α × World :=
  let w := { w with sent := w.sent ++ [request] }
  match reply with
  | .done etag => answer etag w
  | .failed arrived failure => (.error failure, if arrived then w.arrive "" request else w)

/-- A call that leaves the world as it is unless it succeeds, or was cut off behind its effect. -/
def World.locally (w after : World) : Reply → Except Failure Unit × World
  | .done _ => (.ok (), after)
  | .failed arrived failure => (.error failure, if arrived then after else w)

def perform (files : FileHistory) : ∀ {β : Type}, Call β → Reply → World → β × World
  | _, .stat, reply, w => w.locally w reply
  | _, .openFile, reply, w => w.locally w reply
  | _, .readRange version offset length, .done _, w => (.ok (files.range version offset length), w)
  | _, .readRange _ _ _, .failed _ failure, w => (.error failure, w)
  | _, .readState, .done _, w => (w.stateFile, w)
  | _, .readState, .failed _ _, w => (none, w)
  | _, .writeTmp state, .done _, w => (.ok (), { w with tmp := some state })
  -- a write that fails may leave a part of the text
  | _, .writeTmp _, .failed _ failure, w => (.error failure, { w with tmp := none })
  | _, .renameTmp, reply, w => w.locally { w with stateFile := w.tmp, tmp := none } reply
  | _, .removeState, reply, w => ((), (w.locally { w with stateFile := none } reply).2)
  | _, .put key body, reply, w => w.request (.put key body) reply fun _ w =>
      (.ok (), w.put key body)
  | _, .create source, reply, w => w.request (.create source) reply fun _ w =>
      ((w.create source).map .ok id)
  | _, .uploadPart id n body source, reply, w =>
    w.request (.uploadPart id n body source) reply fun etag w => w.uploadPart id n body source etag
  | _, .complete id tags attempt, reply, w =>
    w.request (.complete id tags attempt) reply fun _ w => w.complete id tags attempt
  | _, .abort key id, reply, w => w.request (.abort key id) reply fun _ w =>
      (.ok (), w.abort key id)
  | _, .head key, .done _, w => (.ok ((w.objects key).map List.length), w)
  | _, .head _, .failed _ failure, w => (.error failure, w)
  | _, .return key version, _, w =>
    ((), { w with returned := w.returned ++ [⟨key, version, w.copied, w.objects key⟩] })

inductive Kind
  | upload (key : String) (preferred : ℕ) (version : FileVersion)
  | abandon

/-- A request that was made arrives, late or once more. -/
structure LateArrival where
  i : ℕ
  etag : String

/-- Attempts, each cut off anywhere, over one state file and the storage. -/
def copier (files : FileHistory) : Process Unit Call World Reply Kind LateArrival where
  perform := perform files
  spawn
    | .upload key preferred version, w =>
      some ({ w with copied := w.copied ++ [(key, version)] },
        ⟨(), (do discard (uploadBackupFile key preferred version).run)⟩)
    | .abandon, w => some (w, ⟨(), (do discard abandonUpload.run)⟩)
  act late w := w.sent[late.i]?.map (w.arrive late.etag)
  restart w := w

end Turbopaneld.Backups
