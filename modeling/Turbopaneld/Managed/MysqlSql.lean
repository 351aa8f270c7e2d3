/-
# The account and grant builders of MySQL and MariaDB

Both engines read backquoted names and literals with backslash escapes, and take the database of
a grant for a pattern.  A revoke that may have nothing to take away is written as a literal the
server prepares, so what is quoted there is read twice.
-/

import Turbopaneld.Managed.SqlQuoting
import Turbopaneld.Shell.Glob

namespace Turbopaneld.Managed

open Turbopaneld JavaScript Sql

/-- Backquotes around names, backslash escapes, no dollar tags. -/
def mysqlDialect : Dialect where
  nameQuote := '\x60'
  nameQuote_spec := by decide
  backslash := true
  dollar := false

/-- The two dialect files, which differ in their messages and in two lists of privileges. -/
inductive Engine
  | mysql
  | mariadb
  deriving DecidableEq, Repr

/-- The engine's name in messages. -/
def Engine.label : Engine → String
  | .mysql => "mysql"
  | .mariadb => "mariadb"

/-- `ACCOUNT_MAX_LENGTH` -/
def ACCOUNT_MAX_LENGTH : ℕ := 32

/-- `SCHEMA_MAX_LENGTH` -/
def SCHEMA_MAX_LENGTH : ℕ := 64

/-- `GRANT_SCHEMA_MAX_LENGTH` -/
def GRANT_SCHEMA_MAX_LENGTH : ℕ := 64

/-- `ManagedDatabasePrivilege` -/
inductive ManagedDatabasePrivilege
  | admin
  | owner
  | readWrite
  | readOnly
  deriving DecidableEq, Repr

namespace Engine

variable (engine : Engine)

/-- `quoteIdentifier` -/
def quoteIdentifier (value : String) (maxLength : ℕ) : Except String String :=
  if !acceptsIdentifier value maxLength then
    .error ("invalid " ++ engine.label ++ " identifier: " ++ value)
  else .ok ("\x60" ++ replaceAll '\x60' ['\x60', '\x60'] value ++ "\x60")

/-- `quoteAccount` -/
def quoteAccount (value : String) : Except String String :=
  engine.quoteIdentifier value ACCOUNT_MAX_LENGTH

/-- `quoteLiteral` -/
def quoteLiteral (value : String) : Except String String :=
  if hasControlChar value then .error (engine.label ++ " literal contains control characters")
  else .ok ("'" ++ replaceAll '\'' ['\\', '\''] (replaceAll '\\' ['\\', '\\'] value) ++ "'")

/-- `accountAt` -/
def accountAt (username host : String) : Except String String := do
  let name ← engine.quoteAccount username
  let place ← engine.quoteLiteral host
  return name ++ "@" ++ place

/-- `createOrAlterAccountSql` -/
def createOrAlterAccountSql (username password host : String) : Except String String := do
  let account ← engine.accountAt username host
  let lit ← engine.quoteLiteral password
  return joinLines [
    "CREATE USER IF NOT EXISTS " ++ account ++ " IDENTIFIED BY " ++ lit ++ ";",
    "ALTER USER " ++ account ++ " IDENTIFIED BY " ++ lit ++ ";"]

end Engine

/-! ## Grants on one database -/

/-- `GrantQuoting`, without the lists an engine may leave out. -/
structure GrantQuoting where
  quoteIdentifier : String → Except String String
  quoteLiteral : String → Except String String
  accountAt : String → String → Except String String
  extraPrivileges : List (String × String)
  backupPrivileges : List String

/-- What the two dialect files hand to `grantSqlFor`. -/
def Engine.quoting (engine : Engine) : GrantQuoting where
  quoteIdentifier value := engine.quoteIdentifier value SCHEMA_MAX_LENGTH
  quoteLiteral := engine.quoteLiteral
  accountAt := engine.accountAt
  extraPrivileges :=
    match engine with
    | .mysql => []
    | .mariadb =>
      [("DELETE HISTORY", "Delete_history_priv"),
        ("SHOW CREATE ROUTINE", "Show_create_routine_priv")]
  backupPrivileges :=
    match engine with
    | .mysql => ["SELECT", "SHOW VIEW", "TRIGGER", "EVENT", "SHOW_ROUTINE", "FLUSH_TABLES"]
    | .mariadb => ["SELECT", "SHOW VIEW", "TRIGGER", "EVENT", "LOCK TABLES", "SHOW CREATE ROUTINE"]

/-- `escapeGrantSchemaPattern` -/
def escapeGrantSchemaPattern (name : String) : String :=
  String.ofList (name.toList.flatMap fun c =>
    if c == '\\' || c == '_' || c == '%' then ['\\', c] else [c])

/-- `hasGrantWildcard` -/
def hasGrantWildcard (name : String) : Bool := name.toList.any fun c => c == '_' || c == '%'

/-- `quoteGrantSchema` -/
def quoteGrantSchema (quoting : GrantQuoting) (name : String) : Except String String := do
  let _ ← quoting.quoteIdentifier name
  let escaped := escapeGrantSchemaPattern name
  if GRANT_SCHEMA_MAX_LENGTH < lengthInUnits escaped then
    throw ("database name too long to grant on once escaped: " ++ name)
  return "\x60" ++ escaped ++ "\x60"

/-- One of the two revokes of `revokePlainPatternGrantSql`. -/
def revokePlainStep (quoting : GrantQuoting) (database username host revoke : String) :
    Except String String := do
  let db ← quoting.quoteLiteral database
  let user ← quoting.quoteLiteral username
  let place ← quoting.quoteLiteral host
  let statement ← quoting.quoteLiteral revoke
  return joinLines [
    "SET @tp_plain_grant = (SELECT COUNT(*) FROM mysql.db WHERE Db = " ++ db ++ " AND User = " ++
      user ++ " AND Host = " ++ place ++ ");",
    "SET @tp_plain_revoke = IF(@tp_plain_grant > 0, " ++ statement ++ ", 'DO 0');",
    "PREPARE tp_plain_revoke FROM @tp_plain_revoke;",
    "EXECUTE tp_plain_revoke;",
    "DEALLOCATE PREPARE tp_plain_revoke;"]

/-- `revokePlainPatternGrantSql` -/
def revokePlainPatternGrantSql (quoting : GrantQuoting) (database username host : String) :
    Except String String := do
  let db ← quoting.quoteIdentifier database
  let account ← quoting.accountAt username host
  let target := db ++ ".* FROM " ++ account
  let all ← revokePlainStep quoting database username host ("REVOKE ALL PRIVILEGES ON " ++ target)
  let option ← revokePlainStep quoting database username host ("REVOKE GRANT OPTION ON " ++ target)
  return joinLines [all, option]

/-- `DATABASE_PRIVILEGES` -/
def DATABASE_PRIVILEGES : List (String × String) := [
  ("SELECT", "Select_priv"),
  ("INSERT", "Insert_priv"),
  ("UPDATE", "Update_priv"),
  ("DELETE", "Delete_priv"),
  ("CREATE", "Create_priv"),
  ("DROP", "Drop_priv"),
  ("REFERENCES", "References_priv"),
  ("INDEX", "Index_priv"),
  ("ALTER", "Alter_priv"),
  ("CREATE TEMPORARY TABLES", "Create_tmp_table_priv"),
  ("LOCK TABLES", "Lock_tables_priv"),
  ("EXECUTE", "Execute_priv"),
  ("CREATE VIEW", "Create_view_priv"),
  ("SHOW VIEW", "Show_view_priv"),
  ("CREATE ROUTINE", "Create_routine_priv"),
  ("ALTER ROUTINE", "Alter_routine_priv"),
  ("EVENT", "Event_priv"),
  ("TRIGGER", "Trigger_priv")]

/-- `LEVEL_PRIVILEGES["read-only"]` -/
def readOnlyPrivileges : List String := ["SELECT", "SHOW VIEW"]

/-- `LEVEL_PRIVILEGES["read-write"]` -/
def readWritePrivileges : List String :=
  ["SELECT", "INSERT", "UPDATE", "DELETE", "EXECUTE", "LOCK TABLES", "CREATE TEMPORARY TABLES",
    "SHOW VIEW"]

/-- `definedBy[column]`: what keeps a privilege on a login that still defines something. -/
def definedBy (schemaName definer column : String) : Option String :=
  if column == "Trigger_priv" then
    some ("SELECT 1 FROM information_schema.TRIGGERS WHERE TRIGGER_SCHEMA = " ++ schemaName ++
      " AND DEFINER = " ++ definer)
  else if column == "Event_priv" then
    some ("SELECT 1 FROM information_schema.EVENTS WHERE EVENT_SCHEMA = " ++ schemaName ++
      " AND DEFINER = " ++ definer)
  else none

/-- `held` -/
def held (quoting : GrantQuoting) (schemaName definer : String) (privilege : String × String) :
    Except String String := do
  let test :=
    match definedBy schemaName definer privilege.2 with
    | none => privilege.2 ++ " = 'Y'"
    | some lookup => privilege.2 ++ " = 'Y' AND NOT EXISTS (" ++ lookup ++ ")"
  let name ← quoting.quoteLiteral privilege.1
  return "IF(" ++ test ++ ", " ++ name ++ ", NULL)"

/-- `addRevokeStep` -/
def addRevokeStep (quoting : GrantQuoting) (row tail variableName list front : String) :
    Except String (List String) := do
  let start ← quoting.quoteLiteral front
  let rest ← quoting.quoteLiteral tail
  return [
    "SET @" ++ variableName ++ " = (SELECT " ++ list ++ " " ++ row ++ ");",
    "SET @" ++ variableName ++ "_sql = IF(@" ++ variableName ++ " IS NULL OR @" ++ variableName ++
      " = '', 'DO 0', CONCAT(" ++ start ++ ", @" ++ variableName ++ ", " ++ rest ++ "));",
    "PREPARE " ++ variableName ++ " FROM @" ++ variableName ++ "_sql;",
    "EXECUTE " ++ variableName ++ ";",
    "DEALLOCATE PREPARE " ++ variableName ++ ";"]

/-- `revokeExcessSql` -/
def revokeExcessSql (quoting : GrantQuoting) (schema database username host : String)
    (revoked : List (String × String)) (withGrantOption : Bool) : Except String String := do
  let db ← quoting.quoteLiteral schema
  let user ← quoting.quoteLiteral username
  let place ← quoting.quoteLiteral host
  let row := "FROM mysql.db WHERE Db = " ++ db ++ " AND User = " ++ user ++ " AND Host = " ++ place
  let account ← quoting.accountAt username host
  let tail := " ON \x60" ++ schema ++ "\x60.* FROM " ++ account
  let definer ← quoting.quoteLiteral (username ++ "@" ++ host)
  let schemaName ← quoting.quoteLiteral database
  let excess ←
    if revoked.isEmpty then pure []
    else do
      let tests ← revoked.mapM (held quoting schemaName definer)
      addRevokeStep quoting row tail "tp_excess" ("CONCAT_WS(', ', " ++ ", ".intercalate tests ++
        ")")
        "REVOKE "
  let option ←
    if withGrantOption then
      addRevokeStep quoting row tail "tp_excess_option" "IF(Grant_priv = 'Y', 'GRANT OPTION', NULL)"
        "REVOKE "
    else pure []
  return joinLines (excess ++ option)

/-- The privileges `revokeAllButSql` takes back. -/
def allBut (quoting : GrantQuoting) (kept : List String) : List (String × String) :=
  (DATABASE_PRIVILEGES ++ quoting.extraPrivileges).filter fun privilege =>
    !kept.contains privilege.1

/-- `revokeAllButSql` -/
def revokeAllButSql (quoting : GrantQuoting) (schema database username host : String)
    (kept : List String) : Except String String :=
  revokeExcessSql quoting schema database username host (allBut quoting kept) true

/-- `grantOnDatabaseSql` -/
def grantOnDatabaseSql (quoting : GrantQuoting) (database username : String)
    (privilege : ManagedDatabasePrivilege) (host : String) : Except String String := do
  let db ← quoteGrantSchema quoting database
  let account ← quoting.accountAt username host
  -- `db.slice(1, -1)`
  let schema := takeChars (dropChars db 1) (db.length - 2)
  match privilege with
  | .admin => return "GRANT ALL PRIVILEGES ON " ++ db ++ ".* TO " ++ account ++
    " WITH GRANT OPTION;"
  | .owner =>
    let revoke ← revokeExcessSql quoting schema database username host [] true
    return joinLines ["GRANT ALL PRIVILEGES ON " ++ db ++ ".* TO " ++ account ++ ";", revoke]
  | .readWrite =>
    let revoke ← revokeAllButSql quoting schema database username host readWritePrivileges
    return joinLines [
      "GRANT " ++ ", ".intercalate readWritePrivileges ++ " ON " ++ db ++ ".* TO " ++ account ++
        ";",
      revoke]
  | .readOnly =>
    let revoke ← revokeAllButSql quoting schema database username host readOnlyPrivileges
    return joinLines [
      "GRANT " ++ ", ".intercalate readOnlyPrivileges ++ " ON " ++ db ++ ".* TO " ++ account ++ ";",
      revoke]

/-- `grantBackupOnAllSql` -/
def grantBackupOnAllSql (quoting : GrantQuoting) (username host : String) :
    Except String String := do
  let account ← quoting.accountAt username host
  return "GRANT " ++ ", ".intercalate quoting.backupPrivileges ++ " ON *.* TO " ++ account ++ ";"

/-! ## The schema as a pattern -/

/-- How the servers read the schema of a grant: a backslash takes the meaning from the character
after it, `_` is any character and `%` any run. -/
def schemaPattern : List Char → Shell.Glob
  | [] => []
  | ['\\'] => [.char '\\']
  | '\\' :: c :: rest => .char c :: schemaPattern rest
  | '_' :: rest => .oneOf (fun _ => true) :: schemaPattern rest
  | '%' :: rest => .star :: schemaPattern rest
  | c :: rest => .char c :: schemaPattern rest

/-- Whether a grant on the schema reaches a database. -/
def schemaReaches (schema database : String) : Bool :=
  Shell.globMatches (schemaPattern schema.toList) database.toList

end Turbopaneld.Managed
