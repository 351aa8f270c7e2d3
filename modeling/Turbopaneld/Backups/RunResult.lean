/-
# The result of a scheduled backup run

A finished run leaves its result in a file of its own, and the reporter reads the file back,
checks it against what the control plane takes and sends it.  A text is kept as the value
`JSON.parse` makes of it.  What is sent is what the run wrote, and a result is sent exactly when
its fields pass the checks.
-/

import Turbopaneld.DockerGate.NumberText
import Turbopaneld.JavaScript.Pattern

namespace Turbopaneld.Backups

open DockerGate (Json numberOf numberOf_numberToString numberOf_toString)
open JavaScript

/-- A number of the source's language that is finite. -/
structure FiniteNumber where
  value : ℚ
  isDouble : toDouble value = some value
deriving DecidableEq

/-- `status` -/
inductive RunStatus
  | succeeded
  | failed
deriving DecidableEq, Repr

/-- `BackupRunResult` -/
structure BackupRunResult where
  policyId : String
  runId : String
  startedAt : String
  finishedAt : String
  status : RunStatus
  error : Option String
  backupId : Option String
  sizeBytes : Option FiniteNumber
  checksum : Option String
  path : Option String
  database : Option String
  pruned : Option (List String)
deriving DecidableEq

/-! ## The file -/

def RunStatus.text : RunStatus → String
  | .succeeded => "succeeded"
  | .failed => "failed"

/-- The fields of an object that are not `undefined`. -/
def definedFields (fields : List (String × Option Json)) : List (String × Json) :=
  fields.filterMap fun field => field.2.map fun value => (field.1, value)

/-- `{ version: RESULT_FILE_VERSION, ...result }`, with `undefined` for what is absent. -/
def BackupRunResult.fields (result : BackupRunResult) : List (String × Option Json) :=
  [("version", some (.number "1")),
    ("policyId", some (.string result.policyId)),
    ("runId", some (.string result.runId)),
    ("startedAt", some (.string result.startedAt)),
    ("finishedAt", some (.string result.finishedAt)),
    ("status", some (.string result.status.text)),
    ("error", result.error.map .string),
    ("backupId", result.backupId.map .string),
    ("sizeBytes", result.sizeBytes.map fun size => .number (numberToString size.value)),
    ("checksum", result.checksum.map .string),
    ("path", result.path.map .string),
    ("database", result.database.map .string),
    ("pruned", result.pruned.map fun ids => .array (ids.map .string))]

/-- What `writeBackupRunResult` writes. -/
def BackupRunResult.spooled (result : BackupRunResult) : Json :=
  .object (definedFields result.fields)

/-! ## The checks -/

/-- A character of `[\w-]`. -/
def isRunTokenChar (c : Char) : Bool := isWord c || c == '-'

/-- `RUN_TOKEN_RE`, and `SAFE_RUN_ID_RE`. -/
def RUN_TOKEN_RE : Pattern := .seq (.one isRunTokenChar) (.upTo 63 (.one isRunTokenChar))

/-- `[0-9a-f]` -/
def isLowerHex (c : Char) : Bool := isDigit c || ('a' ≤ c && c ≤ 'f')

/-- `POLICY_ID_RE` -/
def POLICY_ID_RE : Pattern :=
  .inTurn (.times 8 (.one isLowerHex)) [.char '-', .times 4 (.one isLowerHex), .char '-',
    .times 4 (.one isLowerHex), .char '-', .times 4 (.one isLowerHex), .char '-',
    .times 12 (.one isLowerHex)]

/-- `CHECKSUM_RE` -/
def CHECKSUM_RE : Pattern := .times 64 (.one isLowerHex)

/-- The part of `ISO_TIMESTAMP_RE` in front of the zone, and the zone. -/
def isoTimestamp (zone : List Pattern) : Pattern :=
  .inTurn (.times 4 (.one isDigit)) ([.char '-', .times 2 (.one isDigit), .char '-',
    .times 2 (.one isDigit), .char 'T', .times 2 (.one isDigit), .char ':',
    .times 2 (.one isDigit), .char ':', .times 2 (.one isDigit),
    .upTo 1 (.inTurn (.char '.') [.one isDigit, .upTo 8 (.one isDigit)])] ++ zone)

/-- `ISO_TIMESTAMP_RE.test`: the zone is `Z` or an offset. -/
def isIsoText (text : String) : Bool :=
  (isoTimestamp [.char 'Z']).test text ||
    (isoTimestamp [.one fun c => c == '+' || c == '-', .times 2 (.one isDigit), .char ':',
      .times 2 (.one isDigit)]).test text

def MAX_RESULT_ERROR_LENGTH : ℕ := 2000
def MAX_PATH_CHARS : ℕ := 1024
def MAX_PRUNED : ℕ := 256
def MAX_DATABASE_CHARS : ℕ := 128

/-- A value that is a string, and passes a test. -/
def isStringThat (test : String → Bool) : Option Json → Bool
  | some (.string text) => test text
  | _ => false

/-- `isIsoTimestamp`; `Date.parse`, where the result is finite, is a parameter. -/
def isIsoTimestamp (parseDate : String → Option ℚ) : Option Json → Bool :=
  isStringThat fun text => isIsoText text && (parseDate text).isSome

def isRunToken : Option Json → Bool := isStringThat RUN_TOKEN_RE.test

/-- `isAbsent`: `value === undefined`. -/
def isAbsent (value : Option Json) : Bool := value.isNone

/-- `isPrunedList` -/
def isPrunedList : Option Json → Bool
  | some (.array items) =>
    decide (items.length ≤ MAX_PRUNED) && items.all fun entry => isRunToken (some entry)
  | _ => false

/-- `isDatabaseName` -/
def isDatabaseName : Option Json → Bool :=
  isStringThat fun text =>
    decide (0 < lengthInUnits text) && decide (lengthInUnits text ≤ MAX_DATABASE_CHARS)

/-- The value of a number. -/
def numberValue : Option Json → Option ℚ
  | some (.number token) => numberOf token
  | _ => none

/-- `typeof value === "number" && Number.isSafeInteger(value) && value >= 0` -/
def isSize (value : Option Json) : Bool :=
  (numberValue value).any fun size => (safeInteger size).isSome && decide (0 ≤ size)

/-- `checkRunFields` -/
def checkRunFields (parseDate : String → Option ℚ) (raw : Json) (runId : String) :
    Option String :=
  if numberValue (raw.field "version") ≠ some 1 then some "unsupported version"
  else if !isStringThat POLICY_ID_RE.test (raw.field "policyId") then some "invalid policyId"
  else if !isStringThat (· == runId) (raw.field "runId") then
    some "runId does not match the file name"
  else if !isIsoTimestamp parseDate (raw.field "startedAt") ||
      !isIsoTimestamp parseDate (raw.field "finishedAt") then
    some "invalid timestamps"
  else if !isStringThat (· == "succeeded") (raw.field "status") &&
      !isStringThat (· == "failed") (raw.field "status") then
    some "invalid status"
  else if !isAbsent (raw.field "error") &&
      !isStringThat (fun text => decide (lengthInUnits text ≤ MAX_RESULT_ERROR_LENGTH))
        (raw.field "error") then
    some "invalid error"
  else none

/-- `checkArtifactFields` -/
def checkArtifactFields (raw : Json) : Option String :=
  if !isAbsent (raw.field "backupId") && !isRunToken (raw.field "backupId") then
    some "invalid backupId"
  else if !isAbsent (raw.field "sizeBytes") && !isSize (raw.field "sizeBytes") then
    some "invalid sizeBytes"
  else if !isAbsent (raw.field "checksum") &&
      !isStringThat CHECKSUM_RE.test (raw.field "checksum") then
    some "invalid checksum"
  else if !isAbsent (raw.field "path") &&
      !isStringThat (fun text => decide (lengthInUnits text ≤ MAX_PATH_CHARS))
        (raw.field "path") then
    some "invalid path"
  else if !isAbsent (raw.field "database") && !isDatabaseName (raw.field "database") then
    some "invalid database"
  else if !isAbsent (raw.field "pruned") && !isPrunedList (raw.field "pruned") then
    some "invalid pruned"
  else none

/-! ## Reading a file -/

/-- `value` as a number; what a text is read as is a double. -/
def sizeOf? (value : Option Json) : Option FiniteNumber :=
  (numberValue value).bind fun size =>
    if h : toDouble size = some size then some ⟨size, h⟩ else none

/-- `parseSpooledBackupRunResult`; a text that is not JSON is `none`. -/
def parseSpooledBackupRunResult (parseDate : String → Option ℚ) (text : Option Json)
    (runId : String) : Except String BackupRunResult :=
  match text with
  | none => .error "not JSON"
  | some raw =>
    if !raw.isRecord then .error "not an object"
    else
      match (checkRunFields parseDate raw runId).or (checkArtifactFields raw) with
      | some issue => .error issue
      | none =>
        .ok
          { policyId := Json.textOf (raw.field "policyId")
            runId := Json.textOf (raw.field "runId")
            startedAt := Json.textOf (raw.field "startedAt")
            finishedAt := Json.textOf (raw.field "finishedAt")
            status :=
              if isStringThat (· == "succeeded") (raw.field "status") then .succeeded else .failed
            error := (raw.field "error").map fun value => Json.textOf (some value)
            backupId := (raw.field "backupId").map fun value => Json.textOf (some value)
            sizeBytes := sizeOf? (raw.field "sizeBytes")
            checksum := (raw.field "checksum").map fun value => Json.textOf (some value)
            path := (raw.field "path").map fun value => Json.textOf (some value)
            database := (raw.field "database").map fun value => Json.textOf (some value)
            pruned := (raw.field "pruned").map fun value => Json.stringList (some value) }

/-! ## What was written is read -/

/-- The fields the control plane takes. -/
structure BackupRunResult.Sendable (parseDate : String → Option ℚ) (result : BackupRunResult) :
    Prop where
  policyId : POLICY_ID_RE.test result.policyId = true
  startedAt : isIsoText result.startedAt = true ∧ (parseDate result.startedAt).isSome = true
  finishedAt : isIsoText result.finishedAt = true ∧ (parseDate result.finishedAt).isSome = true
  error : ∀ text ∈ result.error, lengthInUnits text ≤ MAX_RESULT_ERROR_LENGTH
  backupId : ∀ id ∈ result.backupId, RUN_TOKEN_RE.test id = true
  sizeBytes : ∀ size ∈ result.sizeBytes, (safeInteger size.value).isSome = true ∧ 0 ≤ size.value
  checksum : ∀ text ∈ result.checksum, CHECKSUM_RE.test text = true
  path : ∀ text ∈ result.path, lengthInUnits text ≤ MAX_PATH_CHARS
  database : ∀ name ∈ result.database,
    0 < lengthInUnits name ∧ lengthInUnits name ≤ MAX_DATABASE_CHARS
  pruned : ∀ ids ∈ result.pruned, ids.length ≤ MAX_PRUNED ∧ ∀ id ∈ ids, RUN_TOKEN_RE.test id = true

theorem lookup_definedFields {fields : List (String × Option Json)}
    (h : (fields.map Prod.fst).Nodup) (name : String) :
    (definedFields fields).lookup name = (fields.lookup name).join := by
  induction fields with
  | nil => rfl
  | cons field rest ih =>
    obtain ⟨key, value⟩ := field
    obtain ⟨hkey, hrest⟩ := List.nodup_cons.mp h
    cases value with
    | some value =>
      by_cases hname : name = key
      · subst hname
        simp [definedFields]
      · have hne : (name == key) = false := beq_eq_false_iff_ne.mpr hname
        simpa [definedFields, List.lookup_cons, hne] using ih hrest
    | none =>
      have hskip : definedFields ((key, none) :: rest) = definedFields rest := rfl
      rw [hskip, ih hrest, List.lookup_cons]
      split
      case h_2 => rfl
      case h_1 hname =>
        -- the rest has no field of that name
        obtain rfl := beq_iff_eq.mp hname
        have hnone : rest.lookup name = none := by
          rw [List.lookup_eq_none_iff]
          intro other hother
          exact bne_iff_ne.mpr fun heq => hkey (List.mem_map.mpr ⟨other, hother, heq.symm⟩)
        rw [hnone]
        rfl

theorem field_spooled (result : BackupRunResult) (name : String) :
    result.spooled.field name = (result.fields.lookup name).join := by
  have hnames : (result.fields.map Prod.fst).Nodup := by
    have hmap : result.fields.map Prod.fst = ["version", "policyId", "runId", "startedAt",
      "finishedAt", "status", "error", "backupId", "sizeBytes", "checksum", "path", "database",
      "pruned"] := rfl
    rw [hmap]
    decide
  exact lookup_definedFields hnames name

theorem sizeOf?_of_numberOf {token : String} {size : FiniteNumber}
    (h : numberOf token = some size.value) : sizeOf? (some (.number token)) = some size := by
  rw [sizeOf?, numberValue, h, Option.bind_some, dif_pos size.isDouble]

theorem sizeOf?_written (size : FiniteNumber) :
    sizeOf? (some (.number (numberToString size.value))) = some size :=
  sizeOf?_of_numberOf (numberOf_numberToString size.isDouble)

theorem stringList_map (texts : List String) :
    Json.stringList (some (.array (texts.map .string))) = texts := by
  rw [Json.stringList, Json.items, List.filterMap_map]
  exact List.filterMap_some

theorem isPrunedList_map (ids : List String) :
    isPrunedList (some (.array (ids.map .string))) = true ↔
      ids.length ≤ MAX_PRUNED ∧ ∀ id ∈ ids, RUN_TOKEN_RE.test id = true := by
  rw [isPrunedList, List.length_map, Bool.and_eq_true, decide_eq_true_eq, List.all_map,
    List.all_eq_true]
  rfl

theorem isSize_of_numberOf {token : String} {size : ℚ} (h : numberOf token = some size) :
    isSize (some (.number token)) = true ↔ (safeInteger size).isSome = true ∧ 0 ≤ size := by
  rw [isSize, numberValue, h, Option.any_some, Bool.and_eq_true, decide_eq_true_eq]

/-- A check that finds nothing has not found its first issue, and the rest finds nothing. -/
theorem issue_eq_none {c : Prop} [Decidable c] {issue : String} {rest : Option String} :
    (if c then some issue else rest) = none ↔ ¬c ∧ rest = none := by
  split
  case isTrue h => simp [h]
  case isFalse h => simp [h]

/-- A field that may be absent passes its check if its value does. -/
theorem optional_passes {α : Type} {write : α → Json} {check : Option Json → Bool} {P : α → Prop}
    (h : ∀ a, check (some (write a)) = true ↔ P a) (value : Option α) :
    ¬(!isAbsent (value.map write) && !check (value.map write)) = true ↔ ∀ a ∈ value, P a := by
  cases value with
  | none => simp [isAbsent]
  | some a => simp [isAbsent, ← h a]

section

variable (parseDate : String → Option ℚ) (result : BackupRunResult)

theorem isIsoTimestamp_string (text : String) :
    isIsoTimestamp parseDate (some (.string text)) = true ↔
      isIsoText text = true ∧ (parseDate text).isSome = true := by
  rw [isIsoTimestamp, isStringThat, Bool.and_eq_true]

/-- The fields of the file are those of the result. -/
theorem fields_spooled :
    result.spooled.field "version" = some (.number "1") ∧
      result.spooled.field "policyId" = some (.string result.policyId) ∧
      result.spooled.field "runId" = some (.string result.runId) ∧
      result.spooled.field "startedAt" = some (.string result.startedAt) ∧
      result.spooled.field "finishedAt" = some (.string result.finishedAt) ∧
      result.spooled.field "status" = some (.string result.status.text) ∧
      result.spooled.field "error" = result.error.map .string ∧
      result.spooled.field "backupId" = result.backupId.map .string ∧
      result.spooled.field "sizeBytes" =
        result.sizeBytes.map (fun size => .number (numberToString size.value)) ∧
      result.spooled.field "checksum" = result.checksum.map .string ∧
      result.spooled.field "path" = result.path.map .string ∧
      result.spooled.field "database" = result.database.map .string ∧
      result.spooled.field "pruned" =
        result.pruned.map fun ids => .array (ids.map .string) :=
  ⟨field_spooled result _, field_spooled result _, field_spooled result _, field_spooled result _,
    field_spooled result _, field_spooled result _, field_spooled result _, field_spooled result _,
    field_spooled result _, field_spooled result _, field_spooled result _, field_spooled result _,
    field_spooled result _⟩

theorem numberValue_version : numberValue (some (.number "1")) = some 1 := by
  have hone : numberOf (toString ((1 : ℕ) : ℤ)) = some ((1 : ℕ) : ℤ) :=
    numberOf_toString (by decide)
  exact hone

theorem checkRunFields_spooled :
    checkRunFields parseDate result.spooled result.runId = none ↔
      POLICY_ID_RE.test result.policyId = true ∧
        (isIsoText result.startedAt = true ∧ (parseDate result.startedAt).isSome = true) ∧
        (isIsoText result.finishedAt = true ∧ (parseDate result.finishedAt).isSome = true) ∧
        ∀ text ∈ result.error, lengthInUnits text ≤ MAX_RESULT_ERROR_LENGTH := by
  obtain ⟨hversion, hpolicyId, hrunId, hstartedAt, hfinishedAt, hstatus, herror, -⟩ :=
    fields_spooled result
  have hknown : ¬(!isStringThat (· == "succeeded") (some (.string result.status.text)) &&
      !isStringThat (· == "failed") (some (.string result.status.text))) = true := by
    cases result.status <;> decide
  have herrors : ¬(!isAbsent (result.error.map .string) &&
      !isStringThat (fun text => decide (lengthInUnits text ≤ MAX_RESULT_ERROR_LENGTH))
        (result.error.map .string)) = true ↔
      ∀ text ∈ result.error, lengthInUnits text ≤ MAX_RESULT_ERROR_LENGTH :=
    optional_passes (fun _ => decide_eq_true_iff) result.error
  simp only [checkRunFields, issue_eq_none, hversion, hpolicyId, hrunId, hstartedAt, hfinishedAt,
    hstatus, herror, hknown, herrors]
  simp [numberValue_version, isIsoTimestamp_string, isStringThat, and_assoc]

theorem checkArtifactFields_spooled :
    checkArtifactFields result.spooled = none ↔
      (∀ id ∈ result.backupId, RUN_TOKEN_RE.test id = true) ∧
        (∀ size ∈ result.sizeBytes, (safeInteger size.value).isSome = true ∧ 0 ≤ size.value) ∧
        (∀ text ∈ result.checksum, CHECKSUM_RE.test text = true) ∧
        (∀ text ∈ result.path, lengthInUnits text ≤ MAX_PATH_CHARS) ∧
        (∀ name ∈ result.database,
          0 < lengthInUnits name ∧ lengthInUnits name ≤ MAX_DATABASE_CHARS) ∧
        ∀ ids ∈ result.pruned, ids.length ≤ MAX_PRUNED ∧
          ∀ id ∈ ids, RUN_TOKEN_RE.test id = true := by
  obtain ⟨-, -, -, -, -, -, -, hbackupId, hsizeBytes, hchecksum, hpath, hdatabase, hpruned⟩ :=
    fields_spooled result
  rw [checkArtifactFields, issue_eq_none, issue_eq_none, issue_eq_none, issue_eq_none,
    issue_eq_none, issue_eq_none, hbackupId, hsizeBytes, hchecksum, hpath, hdatabase, hpruned]
  rw [optional_passes (P := fun id => RUN_TOKEN_RE.test id = true) fun _ => Iff.rfl,
    optional_passes fun size => isSize_of_numberOf (numberOf_numberToString size.isDouble),
    optional_passes (P := fun text => CHECKSUM_RE.test text = true) fun _ => Iff.rfl,
    optional_passes fun _ => decide_eq_true_iff,
    optional_passes (P := fun name => 0 < lengthInUnits name ∧
      lengthInUnits name ≤ MAX_DATABASE_CHARS) fun name => by
        rw [isDatabaseName, isStringThat, Bool.and_eq_true, decide_eq_true_eq, decide_eq_true_eq],
    optional_passes isPrunedList_map]
  simp only [and_true]

/-- The checks pass exactly where the result may be sent. -/
theorem checks_spooled :
    (checkRunFields parseDate result.spooled result.runId).or
        (checkArtifactFields result.spooled) = none ↔ result.Sendable parseDate := by
  rw [Option.or_eq_none_iff, checkRunFields_spooled, checkArtifactFields_spooled]
  constructor
  · rintro ⟨⟨hpolicyId, hstartedAt, hfinishedAt, herror⟩, hbackupId, hsizeBytes, hchecksum, hpath,
      hdatabase, hpruned⟩
    exact ⟨hpolicyId, hstartedAt, hfinishedAt, herror, hbackupId, hsizeBytes, hchecksum, hpath,
      hdatabase, hpruned⟩
  · intro h
    exact ⟨⟨h.policyId, h.startedAt, h.finishedAt, h.error⟩, h.backupId, h.sizeBytes, h.checksum,
      h.path, h.database, h.pruned⟩

/-- A file that a run wrote is read as what was written, where that may be sent. -/
theorem parseSpooledBackupRunResult_of_sendable (h : result.Sendable parseDate) :
    parseSpooledBackupRunResult parseDate (some result.spooled) result.runId = .ok result := by
  have hrecord : ¬(!result.spooled.isRecord) = true := Bool.false_ne_true
  rw [parseSpooledBackupRunResult, if_neg hrecord, (checks_spooled parseDate result).mpr h]
  obtain ⟨-, hpolicyId, hrunId, hstartedAt, hfinishedAt, hstatus, herror, hbackupId, hsizeBytes,
    hchecksum, hpath, hdatabase, hpruned⟩ := fields_spooled result
  dsimp only
  rw [hpolicyId, hrunId, hstartedAt, hfinishedAt, hstatus, herror, hbackupId, hsizeBytes,
    hchecksum, hpath, hdatabase, hpruned]
  have htexts (value : Option String) :
      (value.map Json.string).map (fun value => Json.textOf (some value)) = value := by
    rw [Option.map_map]
    exact congrFun Option.map_id_fun' value
  have hsize : sizeOf? (result.sizeBytes.map
      fun size => .number (numberToString size.value)) = result.sizeBytes := by
    cases result.sizeBytes with
    | none => rfl
    | some size => exact sizeOf?_written size
  have hids : (result.pruned.map fun ids => Json.array (ids.map .string)).map
      (fun value => Json.stringList (some value)) = result.pruned := by
    cases result.pruned with
    | none => rfl
    | some ids => exact congrArg some (stringList_map ids)
  have hstatusText : (if isStringThat (· == "succeeded") (some (.string result.status.text)) = true
      then RunStatus.succeeded else .failed) = result.status := by
    cases result.status <;> decide
  rw [htexts, htexts, htexts, htexts, htexts, hsize, hids, hstatusText]
  rfl

/-- A file that a run wrote is not read where it may not be sent. -/
theorem parseSpooledBackupRunResult_of_not_sendable (h : ¬result.Sendable parseDate) :
    ∃ issue, parseSpooledBackupRunResult parseDate (some result.spooled) result.runId =
      .error issue := by
  have hrecord : ¬(!result.spooled.isRecord) = true := Bool.false_ne_true
  rw [parseSpooledBackupRunResult, if_neg hrecord]
  cases hchecks : (checkRunFields parseDate result.spooled result.runId).or
      (checkArtifactFields result.spooled) with
  | some issue => exact ⟨issue, rfl⟩
  | none => exact absurd ((checks_spooled parseDate result).mp hchecks) h

end

end Turbopaneld.Backups
