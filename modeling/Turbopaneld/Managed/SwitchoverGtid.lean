/-
# The catch-up proof of a planned switchover

The old primary is made read-only and its final GTID position is captured.  Before the
promotion target is promoted it waits, with the engine's own wait function, until it has
applied that position.  What it waits for is the captured set less the components whose
first dash-separated field the target has never received.

MySQL and MariaDB share this code, although a component of the first begins with a server
UUID and one of the second with a replication domain.
-/

import Turbopaneld.JavaScript.Text

namespace Turbopaneld.Managed.Switchover

open JavaScript

/-! ## GTID text -/

def gtidMaxLength : ℕ := 4096

/-- `replaceAll(/\\[nr]|[\r\n]/g, "")`. -/
def withoutBreaks : List Char → List Char
  | '\\' :: 'n' :: rest => withoutBreaks rest
  | '\\' :: 'r' :: rest => withoutBreaks rest
  | c :: rest => if c = '\r' || c = '\n' then withoutBreaks rest else c :: withoutBreaks rest
  | [] => []

/-- One character of `GTID_TEXT_RE`. -/
def isGtidChar (c : Char) : Bool :=
  isDigit c || isLetter c || c == ':' || c == '-' || c == ',' || c == ' ' || c == '.' || c == '_'

/-- Trimmed GTID text, `none` when it is too long or not GTID-shaped. -/
def boundedGtid (raw : String) : Option String :=
  let text := trim (String.ofList (withoutBreaks raw.toList))
  if text = "NULL" then some ""
  else if lengthInUnits text > gtidMaxLength || !text.toList.all isGtidChar then none
  else some text

def assertBoundedSwitchoverGtidSet (raw : String) : Except String String :=
  let gtid := (boundedGtid (trim raw)).getD ""
  if gtid = "" then .error "switchover: invalid required GTID set" else .ok gtid

def gtidComponents (set : String) : List String :=
  ((split ',' (String.ofList (withoutBreaks set.toList))).map trim).filter (· ≠ "")

def domainId (component : String) : String := (split '-' component).headD ""

/-- The components that stay in the wait set. -/
def keptParts (requiredParts receivedDomainIds : List String) : List String :=
  requiredParts.filter fun part => domainId part = "0" || receivedDomainIds.contains (domainId part)

/-- Drop the components of domains the target does not receive. -/
def filterGtidSetForSwitchoverWait (required targetReceived : String) : String :=
  let requiredParts := gtidComponents required
  if requiredParts.isEmpty then required
  else
    let kept := keptParts requiredParts ((gtidComponents targetReceived).map domainId)
    if !kept.isEmpty then ",".intercalate kept
    else
      let replicationOnly := requiredParts.filter fun part => domainId part = "0"
      if !replicationOnly.isEmpty then ",".intercalate replicationOnly else required

/-! ## Waiting -/

inductive ManagedEngineCode where
  | postgres
  | mysql
  | mariadb
  | redis
  | clickhouse
deriving DecidableEq

inductive GtidWaitEngineFamily where
  | mysql
  | mariadb
deriving DecidableEq

def parseGtidWaitScalar (stdout : String) : Option String :=
  let line := String.ofList ((trim stdout).toList.takeWhile fun c => !isSpace c)
  if line = "" || line = "NULL" then none else some line

inductive SwitchoverPromoteFailureCode where
  | gtidWaitTimeout
  | gtidWaitError

def SwitchoverPromoteFailureCode.text : SwitchoverPromoteFailureCode → String
  | .gtidWaitTimeout => "gtid_wait_timeout"
  | .gtidWaitError => "gtid_wait_error"

def switchoverPromoteErrorMessage (code : SwitchoverPromoteFailureCode) (detail : String) :
    String :=
  "switchover_promote:" ++ code.text ++ ": " ++ detail

def gtidWaitTimedOutMessage (timeoutSeconds : ℕ) : String :=
  "the promotion target did not apply the old primary GTID position within " ++
    toString timeoutSeconds ++ "s"

def gtidWaitFailedMessage : Option String → String
  | none => "switchover GTID wait failed"
  | some detail => "switchover GTID wait failed: " ++ detail

def interpretGtidWaitResult (code : Option String) (timeoutSeconds : ℕ)
    (family : GtidWaitEngineFamily) : Except String Unit :=
  if code = some "0" then .ok ()
  else if code = some "1" || (family = .mariadb && code = some "-1") then
    .error (switchoverPromoteErrorMessage .gtidWaitTimeout (gtidWaitTimedOutMessage timeoutSeconds))
  else
    match code with
    | none => .error (switchoverPromoteErrorMessage .gtidWaitError (gtidWaitFailedMessage none))
    | some code =>
      .error (switchoverPromoteErrorMessage .gtidWaitError
        (gtidWaitFailedMessage (some ("unexpected wait result " ++ code))))

/-- A string literal of the family's SQL: backslashes and quotes escaped, control characters
refused. -/
def quoteLiteral (family : GtidWaitEngineFamily) (value : String) : Except String String :=
  if value.toList.any fun c => c.toNat ≤ 0x1f || c.toNat = 0x7f then
    .error (match family with
      | .mysql => "mysql literal contains control characters"
      | .mariadb => "mariadb literal contains control characters")
  else
    .ok ("'" ++ String.ofList (value.toList.flatMap fun c =>
      if c = '\\' then ['\\', '\\'] else if c = '\'' then ['\\', '\''] else [c]) ++ "'")

/-- `masterGtidWaitSql` and `waitForExecutedGtidSetSql`. -/
def waitSql (family : GtidWaitEngineFamily) (gtidSet : String) (timeoutSeconds : ℕ) :
    Except String String := do
  let literal ← quoteLiteral family gtidSet
  let name := match family with
    | .mysql => "WAIT_FOR_EXECUTED_GTID_SET"
    | .mariadb => "MASTER_GTID_WAIT"
  .ok ("SELECT " ++ name ++ "(" ++ literal ++ ", " ++ toString timeoutSeconds ++ ");")

def replicationGtidReceivedSql : GtidWaitEngineFamily → String
  | .mariadb => "SELECT " ++ "@@GLOBAL" ++ ".gtid_slave_pos;"
  | .mysql =>
    "SELECT " ++ "REPLACE" ++ "(COALESCE(RECEIVED_TRANSACTION_SET, ''), CHAR(10), '') " ++
      "FROM performance_schema.replication_connection_status " ++
      "WHERE CHANNEL_NAME = '' LIMIT 1;"

def waitForRequiredGtidSet (runScalarQuery : String → Except String String)
    (requiredExecutedGtidSet : String) (gtidWaitTimeoutSeconds : ℕ)
    (family : GtidWaitEngineFamily) : Except String Unit := do
  let gtidSet ← assertBoundedSwitchoverGtidSet requiredExecutedGtidSet
  let timeout := max 1 gtidWaitTimeoutSeconds
  let sql ← waitSql family gtidSet timeout
  let out ← runScalarQuery sql
  interpretGtidWaitResult (parseGtidWaitScalar out) timeout family

/-- The parameters of the proof.  The payload's timeout is a positive whole number. -/
structure SwitchoverGtidProofParams where
  engine : Option ManagedEngineCode
  requiredExecutedGtidSet : String
  gtidWaitTimeoutSeconds : Option ℕ

/-- The host of the promotion target: finding its engine container may throw, and so may a
query. -/
structure Host where
  resolveLocalReplicationEngine : Except String Unit
  runQuery : String → Except String String

def switchoverGtidWaitDefaultSeconds : ℕ := 90

/-- The family of an engine, `none` for the engines without GTIDs. -/
def familyOf : ManagedEngineCode → Option GtidWaitEngineFamily
  | .mysql => some .mysql
  | .mariadb => some .mariadb
  | _ => none

def proveSwitchoverGtidBeforePromote (params : SwitchoverGtidProofParams) (host : Host) :
    Except String Unit :=
  match familyOf (params.engine.getD .postgres) with
  | none => .error "switchover: GTID proof is only for MySQL-family engines"
  | some family => do
    host.resolveLocalReplicationEngine
    let timeout := params.gtidWaitTimeoutSeconds.getD switchoverGtidWaitDefaultSeconds
    let received ← host.runQuery (replicationGtidReceivedSql family)
    let waitSet := filterGtidSetForSwitchoverWait params.requiredExecutedGtidSet (trim received)
    waitForRequiredGtidSet host.runQuery waitSet timeout family

end Turbopaneld.Managed.Switchover
