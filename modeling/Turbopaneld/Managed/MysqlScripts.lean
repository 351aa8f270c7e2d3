/-
# The account and grant scripts

A script is a list of statements, and each statement has its text as code with values in it.  Some
statements carry the text of a revoke in a literal.  The builders write exactly these texts, for
the names, accounts and passwords they take.
-/

import Turbopaneld.Managed.MysqlSql
import Turbopaneld.Programs.Fallible

namespace Turbopaneld.Managed

open Turbopaneld JavaScript Sql

/-- An account at one host. -/
structure Account where
  username : String
  host : String

/-- The row of `mysql.db` a statement looks at. -/
structure GrantRow where
  schema : String
  account : Account

/-- The statements of the scripts. -/
inductive Statement
  | createUser (account : Account) (password : String)
  | alterUser (account : Account) (password : String)
  | grant (privileges : List String) (schema : String) (account : Account) (withGrantOption : Bool)
  | grantOnAll (privileges : List String) (account : Account)
  /-- Count the rows. -/
  | setPlainGrant (row : GrantRow)
  /-- The revoke, where the count is not zero. -/
  | setPlainRevoke (revoke : String)
  /-- The names of the privileges the row holds, but for those that keep what the login defines. -/
  | setHeld (database definer : String) (privileges : List (String × String)) (row : GrantRow)
  | setHeldOption (row : GrantRow)
  /-- The text of a revoke of what the variable names. -/
  | setRevoke (variableName tail : String)
  | prepare (name variableName : String)
  | execute (name : String)
  | deallocate (name : String)

/-- A revoke, as a prepared text has it. -/
structure Revoke where
  privileges : List String
  schema : String
  account : Account

/-! ## The clauses of a statement -/

/-- The words of a privilege. -/
def wordTokens (privilege : String) : List Token :=
  (privilege.toList.splitOn ' ').map fun word => .word (String.ofList word)

/-- A list of privileges. -/
def privilegeTokens : List String → List Token
  | [] => []
  | [privilege] => wordTokens privilege
  | privilege :: rest => wordTokens privilege ++ .symbol ',' :: privilegeTokens rest

/-- Code that leads up to an account, and the account. -/
def accountClauses (code : String) (tokens : List Token) (account : Account) : List Clause :=
  [⟨code, tokens, .name account.username⟩, ⟨"@", [.symbol '@'], .literal account.host⟩]

/-- Privileges on a schema, for an account. -/
def privilegeClauses (verb preposition : String) (privileges : List String) (schema : String)
    (account : Account) : List Clause :=
  ⟨verb ++ " " ++ ", ".intercalate privileges ++ " ON ",
      .word verb :: privilegeTokens privileges ++ [.word "ON"], .name schema⟩ ::
    accountClauses (".* " ++ preposition ++ " ") [.symbol '.', .symbol '*', .word preposition]
      account

/-- Code that ends a statement; the last one has no line after it. -/
def endClause (code : String) (tokens : List Token) (last : Bool) : Clause :=
  ⟨code ++ (if last then "" else "\n"), tokens, .nothing⟩

/-- The conditions on a row, with the code before them. -/
def rowClauses (code : String) (tokens : List Token) (row : GrantRow) : List Clause :=
  [⟨code ++ " " ++ "FROM mysql.db WHERE Db = ",
      tokens ++ [.word "FROM", .word "mysql", .symbol '.', .word "db", .word "WHERE", .word "Db",
        .symbol '='],
      .literal row.schema⟩,
    ⟨" AND User = ", [.word "AND", .word "User", .symbol '='], .literal row.account.username⟩,
    ⟨" AND Host = ", [.word "AND", .word "Host", .symbol '='], .literal row.account.host⟩]

/-- The query for what a login defines in a database, up to the database's name. -/
def definitionsOf (table column : String) : List Token :=
  [.word "SELECT", .word "1", .word "FROM", .word "information_schema", .symbol '.', .word table,
    .word "WHERE", .word column, .symbol '=']

/-- What keeps a privilege on a login. -/
def keeping (column : String) : Option (String × List Token) :=
  if column == "Trigger_priv" then
    some ("SELECT 1 FROM information_schema.TRIGGERS WHERE TRIGGER_SCHEMA = ",
      definitionsOf "TRIGGERS" "TRIGGER_SCHEMA")
  else if column == "Event_priv" then
    some ("SELECT 1 FROM information_schema.EVENTS WHERE EVENT_SCHEMA = ",
      definitionsOf "EVENTS" "EVENT_SCHEMA")
  else none

/-- One privilege of `setHeld`, up to its name. -/
def heldClause (database definer : String) (code : String) (tokens : List Token)
    (privilege : String × String) : List Clause :=
  let test := tokens ++ [.word "IF", .symbol '(', .word privilege.2, .symbol '=', .literal "Y"]
  match keeping privilege.2 with
  | none =>
    [⟨code ++ "IF(" ++ privilege.2 ++ " = 'Y'" ++ ", ", test ++ [.symbol ','],
      .literal privilege.1⟩]
  | some (lookup, words) =>
    [⟨code ++ "IF(" ++ privilege.2 ++ " = 'Y' AND NOT EXISTS (" ++ lookup,
        test ++ [.word "AND", .word "NOT", .word "EXISTS", .symbol '('] ++ words,
          .literal database⟩,
      ⟨" AND DEFINER = ", [.word "AND", .word "DEFINER", .symbol '='], .literal definer⟩,
      ⟨")" ++ ", ", [.symbol ')', .symbol ','], .literal privilege.1⟩]

/-- What stands after the name of a privilege. -/
def heldEnd : List Token := [.symbol ',', .word "NULL", .symbol ')']

/-- The privileges of `setHeld`, the first after the given code. -/
def heldClauses (database definer : String) : String → List Token → List (String × String) →
    List Clause
  | _, _, [] => []
  | code, tokens, privilege :: rest =>
    heldClause database definer code tokens privilege ++
      heldClauses database definer ", NULL), " (heldEnd ++ [.symbol ',']) rest

/-- The clauses of a statement. -/
def Statement.clauses (last : Bool) : Statement → List Clause
  | .createUser account password =>
    accountClauses "CREATE USER IF NOT EXISTS "
        [.word "CREATE", .word "USER", .word "IF", .word "NOT", .word "EXISTS"] account ++
      [⟨" IDENTIFIED BY ", [.word "IDENTIFIED", .word "BY"], .literal password⟩] ++
      [endClause ";" [.symbol ';'] last]
  | .alterUser account password =>
    accountClauses "ALTER USER " [.word "ALTER", .word "USER"] account ++
      [⟨" IDENTIFIED BY ", [.word "IDENTIFIED", .word "BY"], .literal password⟩] ++
      [endClause ";" [.symbol ';'] last]
  | .grant privileges schema account true =>
    privilegeClauses "GRANT" "TO" privileges schema account ++
      [endClause " WITH GRANT OPTION;"
        [.word "WITH", .word "GRANT", .word "OPTION", .symbol ';'] last]
  | .grant privileges schema account false =>
    privilegeClauses "GRANT" "TO" privileges schema account ++ [endClause ";" [.symbol ';'] last]
  | .grantOnAll privileges account =>
    accountClauses ("GRANT " ++ ", ".intercalate privileges ++ " ON *.* TO ")
        (.word "GRANT" :: privilegeTokens privileges ++
          [.word "ON", .symbol '*', .symbol '.', .symbol '*', .word "TO"]) account ++
      [endClause ";" [.symbol ';'] last]
  | .setPlainGrant row =>
    rowClauses "SET @tp_plain_grant = (SELECT COUNT(*)"
        [.word "SET", .symbol '@', .word "tp_plain_grant", .symbol '=', .symbol '(', .word "SELECT",
          .word "COUNT", .symbol '(', .symbol '*', .symbol ')'] row ++
      [endClause ");" [.symbol ')', .symbol ';'] last]
  | .setPlainRevoke revoke =>
    [⟨"SET @tp_plain_revoke = IF(@tp_plain_grant > 0, ",
        [.word "SET", .symbol '@', .word "tp_plain_revoke", .symbol '=', .word "IF", .symbol '(',
          .symbol '@', .word "tp_plain_grant", .symbol '>', .word "0", .symbol ','],
        .literal revoke⟩,
      endClause ", 'DO 0');" [.symbol ',', .literal "DO 0", .symbol ')', .symbol ';'] last]
  | .setHeld database definer privileges row =>
    heldClauses database definer ("SET @" ++ "tp_excess" ++ " = (SELECT " ++ "CONCAT_WS(', ', ")
        [.word "SET", .symbol '@', .word "tp_excess", .symbol '=', .symbol '(', .word "SELECT",
          .word "CONCAT_WS", .symbol '(', .literal ", ", .symbol ','] privileges ++
      rowClauses (", NULL)" ++ ")") (heldEnd ++ [.symbol ')']) row ++
        [endClause ");" [.symbol ')', .symbol ';'] last]
  | .setHeldOption row =>
    rowClauses ("SET @" ++ "tp_excess_option" ++ " = (SELECT " ++
          "IF(Grant_priv = 'Y', 'GRANT OPTION', NULL)")
        [.word "SET", .symbol '@', .word "tp_excess_option", .symbol '=', .symbol '(',
          .word "SELECT", .word "IF", .symbol '(', .word "Grant_priv", .symbol '=', .literal "Y",
          .symbol ',', .literal "GRANT OPTION", .symbol ',', .word "NULL", .symbol ')'] row ++
      [endClause ");" [.symbol ')', .symbol ';'] last]
  | .setRevoke variableName tail =>
    [⟨"SET @" ++ variableName ++ "_sql = IF(@" ++ variableName ++ " IS NULL OR @" ++ variableName ++
          " = '', 'DO 0', CONCAT(",
        [.word "SET", .symbol '@', .word (variableName ++ "_sql"), .symbol '=', .word "IF",
          .symbol '(',
          .symbol '@', .word variableName, .word "IS", .word "NULL", .word "OR", .symbol '@',
          .word variableName, .symbol '=', .literal "", .symbol ',', .literal "DO 0", .symbol ',',
          .word "CONCAT", .symbol '('],
        .literal "REVOKE "⟩,
      ⟨", @" ++ variableName ++ ", ", [.symbol ',', .symbol '@', .word variableName, .symbol ','],
        .literal tail⟩,
      endClause "));" [.symbol ')', .symbol ')', .symbol ';'] last]
  | .prepare name variableName =>
    [endClause ("PREPARE " ++ name ++ " FROM @" ++ variableName ++ ";")
      [.word "PREPARE", .word name, .word "FROM", .symbol '@', .word variableName,
        .symbol ';'] last]
  | .execute name =>
    [endClause ("EXECUTE " ++ name ++ ";") [.word "EXECUTE", .word name, .symbol ';'] last]
  | .deallocate name =>
    [endClause ("DEALLOCATE PREPARE " ++ name ++ ";")
      [.word "DEALLOCATE", .word "PREPARE", .word name, .symbol ';'] last]

/-- The clauses of a script. -/
def scriptClauses : List Statement → List Clause
  | [] => []
  | [statement] => statement.clauses true
  | statement :: rest => statement.clauses false ++ scriptClauses rest

/-- What a script says. -/
def scriptTokens (statements : List Statement) : List Token :=
  (scriptClauses statements).flatMap Clause.reads

/-- The clauses of a revoke. -/
def Revoke.clauses (revoke : Revoke) : List Clause :=
  privilegeClauses "REVOKE" "FROM" revoke.privileges revoke.schema revoke.account

/-- What a revoke says. -/
def Revoke.tokens (revoke : Revoke) : List Token := revoke.clauses.flatMap Clause.reads

/-- The text of a revoke. -/
def Revoke.text (revoke : Revoke) : String := render mysqlDialect revoke.clauses

/-- A revoke without its privileges. -/
def revokeTail (schema : String) (account : Account) : String :=
  render mysqlDialect (⟨" ON ", [.word "ON"], .name schema⟩ ::
    accountClauses ".* FROM " [.symbol '.', .symbol '*', .word "FROM"] account)

/-! ## The text of a script -/

/-- A statement that is the last one. -/
def Statement.text (statement : Statement) : String := render mysqlDialect (statement.clauses true)

theorem render_singleton (clause : Clause) :
    render mysqlDialect [clause] = clause.render mysqlDialect := by
  rw [render, render, String.append_empty]

theorem render_endClause (clauses : List Clause) (code : String) (tokens : List Token) :
    render mysqlDialect (clauses ++ [endClause code tokens false]) =
      render mysqlDialect (clauses ++ [endClause code tokens true]) ++ "\n" := by
  rw [render_append, render_append, render_singleton, render_singleton, String.append_assoc]
  simp only [endClause, Clause.render, Hole.render, Bool.false_eq_true, if_false, if_true,
    String.append_empty]

theorem render_line (statement : Statement) :
    render mysqlDialect (statement.clauses false) = statement.text ++ "\n" := by
  rw [Statement.text]
  cases statement with
  | grant privileges schema account withGrantOption =>
    cases withGrantOption with
    | false => exact render_endClause _ _ _
    | true => exact render_endClause _ _ _
  | setPlainRevoke revoke => exact render_endClause [_] _ _
  | setRevoke variableName tail => exact render_endClause [_, _] _ _
  | prepare name variableName => exact render_endClause [] _ _
  | execute name => exact render_endClause [] _ _
  | deallocate name => exact render_endClause [] _ _
  | _ => exact render_endClause _ _ _

theorem render_scriptClauses (statements : List Statement) :
    render mysqlDialect (scriptClauses statements) = joinLines (statements.map Statement.text) := by
  induction statements with
  | nil => rfl
  | cons statement rest ih =>
    cases rest with
    | nil => exact (String.intercalate_singleton ..).symm
    | cons next rest =>
      rw [scriptClauses, render_append, render_line, ih, joinLines, joinLines, List.map_cons,
        List.map_cons, List.map_cons, String.intercalate_cons_cons]
      exact List.cons_ne_nil _ _

theorem joinLines_cons (line : String) {lines : List String} (h : lines ≠ []) :
    joinLines (line :: lines) = line ++ "\n" ++ joinLines lines := by
  cases lines with
  | nil => exact absurd rfl h
  | cons next rest =>
    rw [joinLines, joinLines, String.intercalate_cons_cons]

theorem joinLines_singleton (line : String) : joinLines [line] = line :=
    String.intercalate_singleton ..

theorem joinLines_append {front back : List String} (hfront : front ≠ []) (hback : back ≠ []) :
    joinLines (front ++ back) = joinLines [joinLines front, joinLines back] := by
  induction front with
  | nil => exact absurd rfl hfront
  | cons line front ih =>
    cases front with
    | nil =>
      rw [List.singleton_append, joinLines_cons line hback,
        joinLines_cons _ (List.cons_ne_nil _ _)]
      simp [joinLines]
    | cons next front =>
      rw [List.cons_append, joinLines_cons line (by simp), ih (List.cons_ne_nil _ _),
        joinLines_cons line (List.cons_ne_nil _ _), joinLines_cons _ (List.cons_ne_nil _ _),
        joinLines_cons (line ++ _ ++ _) (List.cons_ne_nil _ _)]
      simp only [String.append_assoc]

/-! ## What the builders accept -/

section Builders

variable (engine : Engine)

theorem replaceAll_backslashes (value : String) :
    (replaceAll '\'' ['\\', '\''] (replaceAll '\\' ['\\', '\\'] value)).toList =
      escaped value.toList := by
  rw [replaceAll, replaceAll, String.toList_ofList, String.toList_ofList, escaped,
    List.flatMap_assoc]
  apply List.flatMap_congr
  intro c _
  by_cases hslash : c = '\\'
  · subst hslash
    rfl
  · by_cases hquote : c = '\''
    · subst hquote
      rfl
    · simp [hslash, hquote]

theorem Engine.quoteLiteral_eq_ok_iff {value text : String} :
    engine.quoteLiteral value = .ok text ↔
      hasControlChar value = false ∧ Sql.quoteLiteral mysqlDialect value = text := by
  rw [Engine.quoteLiteral]
  cases hasControlChar value with
  | true => simp
  | false =>
    have htext : Sql.quoteLiteral mysqlDialect value =
        "'" ++ replaceAll '\'' ['\\', '\''] (replaceAll '\\' ['\\', '\\'] value) ++ "'" := by
      rw [← String.toList_inj, String.toList_append, String.toList_append, replaceAll_backslashes]
      simp [Sql.quoteLiteral, literalBody, mysqlDialect]
    simp [htext]

theorem Engine.quoteIdentifier_eq_ok_iff {value text : String} {maxLength : ℕ} :
    engine.quoteIdentifier value maxLength = .ok text ↔
      acceptsIdentifier value maxLength = true ∧ quoteName mysqlDialect value = text := by
  rw [Engine.quoteIdentifier]
  cases acceptsIdentifier value maxLength with
  | false => simp
  | true =>
    have htext : quoteName mysqlDialect value =
        "\x60" ++ replaceAll '\x60' ['\x60', '\x60'] value ++ "\x60" := by
      simp [quoteName, replaceAll, doubled, mysqlDialect, ← String.toList_inj]
    simp [htext]

/-- The accounts the builders do not throw on. -/
def Account.Accepted (account : Account) : Prop :=
  acceptsIdentifier account.username ACCOUNT_MAX_LENGTH = true ∧ hasControlChar account.host = false

/-- An account between its quotes. -/
def Account.text (account : Account) : String :=
  quoteName mysqlDialect account.username ++ "@" ++ Sql.quoteLiteral mysqlDialect account.host

theorem Engine.accountAt_eq_ok_iff {username host text : String} :
    engine.accountAt username host = .ok text ↔
      Account.Accepted ⟨username, host⟩ ∧ Account.text ⟨username, host⟩ = text := by
  simp only [Engine.accountAt, bind, pure, Except.pure, Programs.bind_eq_ok_iff,
    Engine.quoteAccount,
    Engine.quoteIdentifier_eq_ok_iff, Engine.quoteLiteral_eq_ok_iff, Except.ok.injEq,
    Account.Accepted, Account.text]
  constructor
  · rintro ⟨_, ⟨husername, rfl⟩, _, ⟨hhost, rfl⟩, rfl⟩
    exact ⟨⟨husername, hhost⟩, rfl⟩
  · rintro ⟨⟨husername, hhost⟩, rfl⟩
    exact ⟨_, ⟨husername, rfl⟩, _, ⟨hhost, rfl⟩, rfl⟩

/-- The account script. -/
def accountScript (account : Account) (password : String) : List Statement :=
  [.createUser account password, .alterUser account password]

theorem Engine.createOrAlterAccountSql_eq_ok_iff {username password host sql : String} :
    engine.createOrAlterAccountSql username password host = .ok sql ↔
      (Account.Accepted ⟨username, host⟩ ∧ hasControlChar password = false) ∧
        render mysqlDialect (scriptClauses (accountScript ⟨username, host⟩ password)) = sql := by
  have htext : render mysqlDialect (scriptClauses (accountScript ⟨username, host⟩ password)) =
      joinLines [
      "CREATE USER IF NOT EXISTS " ++ Account.text ⟨username, host⟩ ++ " IDENTIFIED BY " ++
        Sql.quoteLiteral mysqlDialect password ++ ";",
      "ALTER USER " ++ Account.text ⟨username, host⟩ ++ " IDENTIFIED BY " ++
        Sql.quoteLiteral mysqlDialect password ++ ";"] := by
    rw [render_scriptClauses]
    simp [accountScript, Statement.text, Statement.clauses, accountClauses, endClause, render,
      Clause.render, Hole.render, Account.text, String.append_assoc]
  rw [htext]
  simp only [Engine.createOrAlterAccountSql, bind, pure, Except.pure, Programs.bind_eq_ok_iff,
    Engine.accountAt_eq_ok_iff, Engine.quoteLiteral_eq_ok_iff, Except.ok.injEq]
  constructor
  · rintro ⟨_, ⟨haccount, rfl⟩, _, ⟨hpassword, rfl⟩, rfl⟩
    exact ⟨⟨haccount, hpassword⟩, rfl⟩
  · rintro ⟨⟨haccount, hpassword⟩, rfl⟩
    exact ⟨_, ⟨haccount, rfl⟩, _, ⟨hpassword, rfl⟩, rfl⟩

end Builders

/-! ## The schema of a grant -/

theorem hasControlChar_ofList {chars : List Char} :
    hasControlChar (String.ofList chars) = false ↔
      ∀ c ∈ chars, ¬ (c.toNat ≤ 0x1f ∨ c.toNat = 0x7f) := by
  rw [hasControlChar, String.toList_ofList, List.any_eq_false]
  simp only [Bool.or_eq_true, decide_eq_true_eq, beq_iff_eq]

theorem hasControlChar_append (front back : String) :
    hasControlChar (front ++ back) = (hasControlChar front || hasControlChar back) := by
  rw [hasControlChar, String.toList_append, List.any_append]
  rfl

theorem hasControlChar_escapeGrantSchemaPattern {name : String} (h : hasControlChar name = false) :
    hasControlChar (escapeGrantSchemaPattern name) = false := by
  rw [← String.ofList_toList (s := name), hasControlChar_ofList] at h
  rw [escapeGrantSchemaPattern, hasControlChar_ofList]
  intro x hx
  obtain ⟨c, hc, hescaped⟩ := List.mem_flatMap.mp hx
  split at hescaped
  · rcases List.mem_cons.mp hescaped with rfl | hlast
    · decide
    · rw [List.mem_singleton.mp hlast]
      exact h c hc
  · rw [List.mem_singleton.mp hescaped]
    exact h c hc

theorem hasControlChar_quoteLiteral {value : String} (h : hasControlChar value = false) :
    hasControlChar (Sql.quoteLiteral mysqlDialect value) = false := by
  rw [← String.ofList_toList (s := value), hasControlChar_ofList] at h
  rw [Sql.quoteLiteral, hasControlChar_ofList]
  intro x hx
  simp only [literalBody, mysqlDialect, if_true, List.mem_cons, List.mem_append,
    List.not_mem_nil, or_false] at hx
  rcases hx with rfl | hx | rfl
  · decide
  · obtain ⟨c, hc, hescaped⟩ := List.mem_flatMap.mp hx
    split at hescaped
    · rcases List.mem_cons.mp hescaped with rfl | hlast
      · decide
      · rw [List.mem_singleton.mp hlast]
        exact h c hc
    · rw [List.mem_singleton.mp hescaped]
      exact h c hc
  · decide

/-- A name without a backquote is quoted as it stands. -/
theorem quoteName_of_notMem {name : String} (h : '\x60' ∉ name.toList) :
    quoteName mysqlDialect name = "\x60" ++ name ++ "\x60" := by
  have hsame : doubled mysqlDialect.nameQuote name.toList = name.toList := doubled_of_notMem h
  rw [quoteName, hsame, ← String.toList_inj]
  simp [mysqlDialect]

theorem backquote_notMem_escape {name : String} {maxLength : ℕ}
    (h : acceptsIdentifier name maxLength = true) :
    '\x60' ∉ (escapeGrantSchemaPattern name).toList := by
  have hname : '\x60' ∉ name.toList := notMem_of_acceptsIdentifier rfl h
  rw [escapeGrantSchemaPattern, String.toList_ofList]
  intro hmem
  obtain ⟨c, hc, hescaped⟩ := List.mem_flatMap.mp hmem
  have hsame : '\x60' = c := by
    split at hescaped
    · rcases List.mem_cons.mp hescaped with hslash | hlast
      · cases hslash
      · exact List.mem_singleton.mp hlast
    · exact List.mem_singleton.mp hescaped
  exact hname (hsame ▸ hc)

/-- The databases a grant can be on. -/
def GrantableDatabase (database : String) : Prop :=
  acceptsIdentifier database SCHEMA_MAX_LENGTH = true ∧
    lengthInUnits (escapeGrantSchemaPattern database) ≤ GRANT_SCHEMA_MAX_LENGTH

theorem quoteGrantSchema_eq_ok_iff (engine : Engine) {database text : String} :
    quoteGrantSchema engine.quoting database = .ok text ↔
      GrantableDatabase database ∧
        quoteName mysqlDialect (escapeGrantSchemaPattern database) = text := by
  simp only [quoteGrantSchema, bind, pure, Except.pure, Programs.bind_eq_ok_iff, Engine.quoting,
    Engine.quoteIdentifier_eq_ok_iff, GrantableDatabase]
  by_cases hlength : GRANT_SCHEMA_MAX_LENGTH < lengthInUnits (escapeGrantSchemaPattern database)
  · rw [if_pos hlength]
    constructor
    · rintro ⟨_, _, hthrown⟩
      cases hthrown
    · rintro ⟨⟨-, hshort⟩, -⟩
      omega
  · rw [if_neg hlength]
    constructor
    · rintro ⟨_, ⟨haccepts, rfl⟩, htext⟩
      refine ⟨⟨haccepts, Nat.le_of_not_lt hlength⟩, ?_⟩
      rw [quoteName_of_notMem (backquote_notMem_escape haccepts)]
      exact Except.ok.inj htext
    · rintro ⟨⟨haccepts, -⟩, htext⟩
      refine ⟨_, ⟨haccepts, rfl⟩, ?_⟩
      rw [← htext, quoteName_of_notMem (backquote_notMem_escape haccepts)]

/-- `db.slice(1, -1)` is the schema without its quotes. -/
theorem slice_quoteName {schema : String} (h : '\x60' ∉ schema.toList) :
    takeChars (dropChars (quoteName mysqlDialect schema) 1)
      ((quoteName mysqlDialect schema).length - 2) = schema := by
  have hlength : (quoteName mysqlDialect schema).length - 2 = schema.toList.length := by
    have hquote : "\x60".length = 1 := rfl
    rw [quoteName_of_notMem h, String.length_append, String.length_append, hquote,
      String.length_toList]
    omega
  rw [hlength, quoteName_of_notMem h, ← String.toList_inj]
  simp [takeChars, dropChars]

/-! ## The revokes of what a level does not hold -/

/-- What `held` writes. -/
def heldText (schemaName definer : String) (privilege : String × String) : String :=
  let test :=
    match definedBy schemaName definer privilege.2 with
    | none => privilege.2 ++ " = 'Y'"
    | some lookup => privilege.2 ++ " = 'Y' AND NOT EXISTS (" ++ lookup ++ ")"
  "IF(" ++ test ++ ", " ++ Sql.quoteLiteral mysqlDialect privilege.1 ++ ", NULL)"

theorem held_eq_ok {engine : Engine} (schemaName definer : String) {privilege : String × String}
    (h : hasControlChar privilege.1 = false) :
    held engine.quoting schemaName definer privilege =
      .ok (heldText schemaName definer privilege) := by
  have hname := engine.quoteLiteral_eq_ok_iff.mpr ⟨h, rfl⟩
  have hquoting : engine.quoting.quoteLiteral privilege.1 = engine.quoteLiteral privilege.1 := rfl
  rw [held, hquoting, hname]
  rfl

theorem mapM_held {engine : Engine} (schemaName definer : String)
    {privileges : List (String × String)}
    (h : ∀ privilege ∈ privileges, hasControlChar privilege.1 = false) :
    privileges.mapM (held engine.quoting schemaName definer) =
      .ok (privileges.map (heldText schemaName definer)) := by
  induction privileges with
  | nil => rfl
  | cons privilege rest ih =>
    obtain ⟨hfirst, hrest⟩ := List.forall_mem_cons.mp h
    rw [List.mapM_cons, held_eq_ok schemaName definer hfirst, ih hrest]
    rfl

theorem render_heldClause (database definer code : String) (tokens : List Token)
    (privilege : String × String) :
    render mysqlDialect (heldClause database definer code tokens privilege) ++ ", NULL)" =
      code ++ heldText (Sql.quoteLiteral mysqlDialect database)
        (Sql.quoteLiteral mysqlDialect definer) privilege := by
  rw [heldClause, heldText, keeping, definedBy]
  by_cases htrigger : privilege.2 == "Trigger_priv"
  · simp only [htrigger, if_true, render, Clause.render, Hole.render, String.append_assoc,
      String.append_empty]
  · by_cases hevent : privilege.2 == "Event_priv"
    · simp only [htrigger, hevent, Bool.false_eq_true, if_false, if_true, render, Clause.render,
        Hole.render, String.append_assoc, String.append_empty]
    · simp only [htrigger, hevent, Bool.false_eq_true, if_false, render, Clause.render,
        Hole.render, String.append_assoc, String.append_empty]

theorem render_heldClauses (database definer code : String) (tokens : List Token)
    {privileges : List (String × String)} (h : privileges ≠ []) :
    render mysqlDialect (heldClauses database definer code tokens privileges) ++ ", NULL)" =
      code ++ ", ".intercalate (privileges.map (heldText (Sql.quoteLiteral mysqlDialect database)
        (Sql.quoteLiteral mysqlDialect definer))) := by
  induction privileges generalizing code tokens with
  | nil => exact absurd rfl h
  | cons privilege rest ih =>
    rw [heldClauses, render_append]
    cases rest with
    | nil =>
      rw [heldClauses, render, String.append_empty, render_heldClause, List.map_singleton,
        String.intercalate_singleton]
    | cons next rest =>
      have hsplit : ", NULL), " = ", NULL)" ++ ", " := rfl
      rw [String.append_assoc, ih _ _ (List.cons_ne_nil _ _), List.map_cons, List.map_cons,
        List.map_cons, String.intercalate_cons_cons, hsplit, String.append_assoc,
        ← String.append_assoc, render_heldClause, String.append_assoc, String.append_assoc]

/-- The conditions on a row. -/
def GrantRow.text (row : GrantRow) : String :=
  "FROM mysql.db WHERE Db = " ++ Sql.quoteLiteral mysqlDialect row.schema ++ " AND User = " ++
    Sql.quoteLiteral mysqlDialect row.account.username ++ " AND Host = " ++
    Sql.quoteLiteral mysqlDialect row.account.host

theorem render_rowClauses (code : String) (tokens : List Token) (row : GrantRow) :
    render mysqlDialect (rowClauses code tokens row) = code ++ " " ++ row.text := by
  have hrow : row.text = "FROM mysql.db WHERE Db = " ++ Sql.quoteLiteral mysqlDialect row.schema ++
      " AND User = " ++ Sql.quoteLiteral mysqlDialect row.account.username ++ " AND Host = " ++
      Sql.quoteLiteral mysqlDialect row.account.host := rfl
  rw [hrow, rowClauses]
  simp only [render, Clause.render, Hole.render, String.append_assoc, String.append_empty]

/-- One revoke of `revokeExcessSql`, after the statement that sets its variable. -/
def excessSteps (variableName tail : String) (first : Statement) : List Statement :=
  [first, .setRevoke variableName tail, .prepare variableName (variableName ++ "_sql"),
    .execute variableName, .deallocate variableName]

/-- The revokes of privileges, and of the grant option. -/
def excessScript (schema database : String) (account : Account) (revoked : List (String × String))
    (withGrantOption : Bool) : List Statement :=
  let definer := account.username ++ "@" ++ account.host
  let tail := revokeTail schema account
  (if revoked.isEmpty then []
    else excessSteps "tp_excess" tail (.setHeld database definer revoked ⟨schema, account⟩)) ++
  (if withGrantOption then excessSteps "tp_excess_option" tail (.setHeldOption ⟨schema, account⟩)
    else [])

theorem addRevokeStep_eq_ok (engine : Engine) {row tail variableName list : String}
    {first : Statement}
    (htail : hasControlChar tail = false)
    (hfirst : first.text = "SET @" ++ variableName ++ " = (SELECT " ++ list ++ " " ++ row ++ ");") :
    addRevokeStep engine.quoting row tail variableName list "REVOKE " =
      .ok ((excessSteps variableName tail first).map Statement.text) := by
  have hverb : hasControlChar "REVOKE " = false := by decide
  have hstart := engine.quoteLiteral_eq_ok_iff.mpr ⟨hverb, rfl⟩
  have hrest := engine.quoteLiteral_eq_ok_iff.mpr ⟨htail, rfl⟩
  have hquoting : engine.quoting.quoteLiteral = engine.quoteLiteral := rfl
  have hend : "_sql;" = "_sql" ++ ";" := rfl
  simp only [addRevokeStep, hend, hquoting, hstart, hrest, bind, Except.bind, pure, Except.pure,
    excessSteps, List.map_cons, List.map_nil, hfirst]
  simp only [Statement.text, Statement.clauses, endClause, if_true, render, Clause.render,
    Hole.render, String.append_assoc, String.append_empty]

theorem text_setHeld (database definer : String) {privileges : List (String × String)}
    (h : privileges ≠ []) (row : GrantRow) :
    (Statement.setHeld database definer privileges row).text =
      "SET @" ++ "tp_excess" ++ " = (SELECT " ++ ("CONCAT_WS(', ', " ++ ", ".intercalate
        (privileges.map (heldText (Sql.quoteLiteral mysqlDialect database)
          (Sql.quoteLiteral mysqlDialect definer))) ++ ")") ++ " " ++ row.text ++ ");" := by
  have hheld := render_heldClauses database definer
    ("SET @" ++ "tp_excess" ++ " = (SELECT " ++ "CONCAT_WS(', ', ")
    [.word "SET", .symbol '@', .word "tp_excess", .symbol '=', .symbol '(', .word "SELECT",
      .word "CONCAT_WS", .symbol '(', .literal ", ", .symbol ','] h
  rw [Statement.text, Statement.clauses, render_append, render_append, render_rowClauses,
    render_singleton, String.append_assoc]
  simp only [endClause, if_true, Clause.render, Hole.render, String.append_empty]
  simp only [String.append_assoc] at hheld ⊢
  rw [← String.append_assoc, hheld]
  simp only [String.append_assoc]

theorem text_setHeldOption (row : GrantRow) :
    (Statement.setHeldOption row).text =
      "SET @" ++ "tp_excess_option" ++ " = (SELECT " ++
        "IF(Grant_priv = 'Y', 'GRANT OPTION', NULL)" ++ " " ++ row.text ++ ");" := by
  rw [Statement.text, Statement.clauses, render_append, render_rowClauses, render_singleton]
  simp only [endClause, if_true, Clause.render, Hole.render, String.append_empty,
    String.append_assoc]

/-- The database, the account and the host hold no control character. -/
theorem hasControlChar_revokeTail {schema : String} {account : Account}
    (hschema : '\x60' ∉ schema.toList ∧ hasControlChar schema = false)
    (haccount : account.Accepted) :
    hasControlChar (revokeTail schema account) = false := by
  have husername : '\x60' ∉ account.username.toList := notMem_of_acceptsIdentifier rfl haccount.1
  have hplain : hasControlChar account.username = false :=
    hasControlChar_of_acceptsIdentifier haccount.1
  have hhost := hasControlChar_quoteLiteral haccount.2
  have hcode : hasControlChar " ON " = false ∧ hasControlChar "\x60" = false ∧
      hasControlChar ".* FROM " = false ∧ hasControlChar "@" = false := by decide
  simp only [revokeTail, accountClauses, render, Clause.render, Hole.render, String.append_empty,
    quoteName_of_notMem husername, quoteName_of_notMem hschema.1, hasControlChar_append, hschema.2,
    hplain, hhost, hcode, Bool.or_false]

theorem revokeTail_eq {schema : String} {account : Account} (hschema : '\x60' ∉ schema.toList) :
    revokeTail schema account = " ON \x60" ++ schema ++ "\x60.* FROM " ++ account.text := by
  have hcode : " ON \x60" = " ON " ++ "\x60" ∧ "\x60.* FROM " = "\x60" ++ ".* FROM " := ⟨rfl, rfl⟩
  simp only [revokeTail, accountClauses, render, Clause.render, Hole.render, String.append_empty,
    quoteName_of_notMem hschema, hcode, Account.text, String.append_assoc]

theorem revokeExcessSql_eq_ok (engine : Engine) {schema database : String} {account : Account}
    (hschema : '\x60' ∉ schema.toList ∧ hasControlChar schema = false)
    (hdatabase : hasControlChar database = false) (haccount : account.Accepted)
    {revoked : List (String × String)}
    (hrevoked : ∀ privilege ∈ revoked, hasControlChar privilege.1 = false)
    (withGrantOption : Bool) :
    revokeExcessSql engine.quoting schema database account.username account.host revoked
        withGrantOption =
      .ok (joinLines
        ((excessScript schema database account revoked withGrantOption).map Statement.text)) := by
  have husername : hasControlChar account.username = false :=
    hasControlChar_of_acceptsIdentifier haccount.1
  have hdefiner : hasControlChar (account.username ++ "@" ++ account.host) = false := by
    rw [hasControlChar_append, hasControlChar_append, husername, haccount.2]
    rfl
  have htail := hasControlChar_revokeTail hschema haccount
  have hquoteLiteral {value : String} (h : hasControlChar value = false) :
      engine.quoting.quoteLiteral value = .ok (Sql.quoteLiteral mysqlDialect value) :=
    engine.quoteLiteral_eq_ok_iff.mpr ⟨h, rfl⟩
  have haccountAt : engine.quoting.accountAt account.username account.host = .ok account.text :=
    engine.accountAt_eq_ok_iff.mpr ⟨haccount, rfl⟩
  have hoption := addRevokeStep_eq_ok engine htail (text_setHeldOption ⟨schema, account⟩)
  have hrow : GrantRow.text ⟨schema, account⟩ = "FROM mysql.db WHERE Db = " ++
      Sql.quoteLiteral mysqlDialect schema ++ " AND User = " ++
      Sql.quoteLiteral mysqlDialect account.username ++ " AND Host = " ++
      Sql.quoteLiteral mysqlDialect account.host := rfl
  rw [revokeTail_eq hschema.1, hrow] at hoption
  simp only [revokeExcessSql, hquoteLiteral hschema.2, hquoteLiteral husername,
    hquoteLiteral haccount.2, hquoteLiteral hdefiner, hquoteLiteral hdatabase, haccountAt,
    mapM_held _ _ hrevoked, bind, Except.bind, pure, Except.pure, hoption, excessScript,
    revokeTail_eq hschema.1]
  by_cases hempty : revoked = []
  · subst hempty
    cases withGrantOption with
    | false => rfl
    | true => rfl
  · have hexcess := addRevokeStep_eq_ok engine htail
      (text_setHeld database (account.username ++ "@" ++ account.host) hempty ⟨schema, account⟩)
    rw [revokeTail_eq hschema.1, hrow] at hexcess
    have hsome : revoked.isEmpty = false := by simpa using hempty
    simp only [hexcess, hsome, Bool.false_eq_true, if_false, List.map_append]
    cases withGrantOption with
    | false => rfl
    | true => rfl

/-! ## The grant builders -/

/-- The script for one level on one database. -/
def grantScript (engine : Engine) (database : String) (account : Account) :
    ManagedDatabasePrivilege → List Statement
  | .admin => [.grant ["ALL PRIVILEGES"] (escapeGrantSchemaPattern database) account true]
  | .owner =>
    .grant ["ALL PRIVILEGES"] (escapeGrantSchemaPattern database) account false ::
      excessScript (escapeGrantSchemaPattern database) database account [] true
  | .readWrite =>
    .grant readWritePrivileges (escapeGrantSchemaPattern database) account false ::
      excessScript (escapeGrantSchemaPattern database) database account
        (allBut engine.quoting readWritePrivileges) true
  | .readOnly =>
    .grant readOnlyPrivileges (escapeGrantSchemaPattern database) account false ::
      excessScript (escapeGrantSchemaPattern database) database account
        (allBut engine.quoting readOnlyPrivileges) true

theorem text_grant (privileges : List String) (schema : String) (account : Account) :
    (Statement.grant privileges schema account false).text =
        "GRANT " ++ ", ".intercalate privileges ++ " ON " ++ quoteName mysqlDialect schema ++
          ".* TO " ++ account.text ++ ";" ∧
      (Statement.grant privileges schema account true).text =
        "GRANT " ++ ", ".intercalate privileges ++ " ON " ++ quoteName mysqlDialect schema ++
          ".* TO " ++ account.text ++ " WITH GRANT OPTION;" := by
  have hverb : "GRANT" ++ " " = "GRANT " ∧ ".* " ++ "TO" ++ " " = ".* TO " := ⟨rfl, rfl⟩
  simp only [Statement.text, Statement.clauses, privilegeClauses, accountClauses, endClause,
    if_true,
    render, Clause.render, Hole.render, Account.text, hverb, List.cons_append, List.nil_append,
    String.append_assoc, String.append_empty, and_self]

theorem hasControlChar_allBut (engine : Engine) (kept : List String) :
    ∀ privilege ∈ allBut engine.quoting kept, hasControlChar privilege.1 = false := by
  have hall : ∀ privilege ∈ DATABASE_PRIVILEGES ++ engine.quoting.extraPrivileges,
      hasControlChar privilege.1 = false := by
    cases engine with
    | mysql => decide
    | mariadb => decide
  intro privilege hprivilege
  exact hall privilege (List.mem_of_mem_filter hprivilege)

theorem grantOnDatabaseSql_eq_ok (engine : Engine) {database : String} {account : Account}
    (hdatabase : GrantableDatabase database) (haccount : account.Accepted)
    (privilege : ManagedDatabasePrivilege) :
    grantOnDatabaseSql engine.quoting database account.username privilege account.host =
      .ok (render mysqlDialect
        (scriptClauses (grantScript engine database account privilege))) := by
  have hname : hasControlChar database = false := hasControlChar_of_acceptsIdentifier hdatabase.1
  have hbackquote := backquote_notMem_escape hdatabase.1
  have hschema : '\x60' ∉ (escapeGrantSchemaPattern database).toList ∧
      hasControlChar (escapeGrantSchemaPattern database) = false :=
    ⟨hbackquote, hasControlChar_escapeGrantSchemaPattern hname⟩
  have hquoted := (quoteGrantSchema_eq_ok_iff engine).mpr ⟨hdatabase, rfl⟩
  have haccountAt : engine.quoting.accountAt account.username account.host = .ok account.text :=
    engine.accountAt_eq_ok_iff.mpr ⟨haccount, rfl⟩
  have hrevoke {revoked : List (String × String)}
      (hrevoked : ∀ privilege ∈ revoked, hasControlChar privilege.1 = false) :=
    revokeExcessSql_eq_ok engine hschema hname haccount hrevoked true
  have hsome (revoked : List (String × String)) :
      (excessScript (escapeGrantSchemaPattern database) database account revoked true).map
        Statement.text ≠ [] := by
    simp [excessScript, excessSteps]
  rw [render_scriptClauses]
  simp only [grantOnDatabaseSql, hquoted, haccountAt, bind, Except.bind, slice_quoteName hbackquote,
    revokeAllButSql, pure, Except.pure]
  have hlines (grant : String) (revoked : List (String × String)) :
      joinLines [grant, joinLines ((excessScript (escapeGrantSchemaPattern database) database
        account
          revoked true).map Statement.text)] =
        joinLines (grant :: (excessScript (escapeGrantSchemaPattern database) database account
          revoked true).map Statement.text) := by
    rw [joinLines_cons _ (List.cons_ne_nil _ _), joinLines_cons _ (hsome revoked),
      joinLines_singleton]
  have hall : "GRANT ALL PRIVILEGES ON " = "GRANT " ++ "ALL PRIVILEGES" ++ " ON " := rfl
  cases privilege with
  | admin =>
    simp only [grantScript, List.map_cons, List.map_nil, joinLines_singleton, (text_grant _ _ _).2,
      String.intercalate_singleton, hall]
  | owner =>
    simp only [hrevoke (List.forall_mem_nil _), hlines, grantScript, List.map_cons,
      (text_grant _ _ _).1, String.intercalate_singleton, hall]
  | readWrite =>
    simp only [hrevoke (hasControlChar_allBut engine _), hlines, grantScript, List.map_cons,
      (text_grant _ _ _).1]
  | readOnly =>
    simp only [hrevoke (hasControlChar_allBut engine _), hlines, grantScript, List.map_cons,
      (text_grant _ _ _).1]

theorem accepted_of_grantOnDatabaseSql {engine : Engine} {database sql : String} {account : Account}
    {privilege : ManagedDatabasePrivilege}
    (h : grantOnDatabaseSql engine.quoting database account.username privilege account.host =
      .ok sql) :
    GrantableDatabase database ∧ account.Accepted := by
  rw [grantOnDatabaseSql] at h
  obtain ⟨db, hdb, hrest⟩ := Programs.bind_eq_ok_iff.mp h
  obtain ⟨text, htext, -⟩ := Programs.bind_eq_ok_iff.mp hrest
  exact ⟨((quoteGrantSchema_eq_ok_iff engine).mp hdb).1, (engine.accountAt_eq_ok_iff.mp htext).1⟩

/-- What the server joins from a list of names and the rest of a revoke. -/
theorem text_revoke (privileges : List String) (schema : String) (account : Account) :
    Revoke.text ⟨privileges, schema, account⟩ =
      "REVOKE " ++ ", ".intercalate privileges ++ revokeTail schema account := by
  have hverb : "REVOKE" ++ " " = "REVOKE " ∧ ".* " ++ "FROM" ++ " " = ".* FROM " := ⟨rfl, rfl⟩
  simp only [Revoke.text, Revoke.clauses, privilegeClauses, revokeTail, accountClauses, render,
    Clause.render, Hole.render, hverb, String.append_assoc]

/-- One of the two revokes of the grant on the name read as a pattern. -/
def plainSteps (database : String) (account : Account) (privilege : String) : List Statement :=
  [.setPlainGrant ⟨database, account⟩,
    .setPlainRevoke (Revoke.text ⟨[privilege], database, account⟩),
    .prepare "tp_plain_revoke" "tp_plain_revoke", .execute "tp_plain_revoke",
    .deallocate "tp_plain_revoke"]

/-- The script that takes back the grant on the name read as a pattern. -/
def plainScript (database : String) (account : Account) : List Statement :=
  plainSteps database account "ALL PRIVILEGES" ++ plainSteps database account "GRANT OPTION"

theorem hasControlChar_revoke {privilege database : String} {account : Account} {maxLength : ℕ}
    (hprivilege : hasControlChar privilege = false)
    (hdatabase : acceptsIdentifier database maxLength = true) (haccount : account.Accepted) :
    hasControlChar (Revoke.text ⟨[privilege], database, account⟩) = false := by
  have hschema : '\x60' ∉ database.toList ∧ hasControlChar database = false :=
    ⟨notMem_of_acceptsIdentifier rfl hdatabase, hasControlChar_of_acceptsIdentifier hdatabase⟩
  have hverb : hasControlChar "REVOKE " = false := by decide
  rw [text_revoke, String.intercalate_singleton, hasControlChar_append, hasControlChar_append,
    hverb,
    hprivilege, hasControlChar_revokeTail hschema haccount]
  rfl

theorem revokePlainStep_eq_ok (engine : Engine) {database privilege : String} {account : Account}
    (hprivilege : hasControlChar privilege = false)
    (hdatabase : acceptsIdentifier database SCHEMA_MAX_LENGTH = true)
    (haccount : account.Accepted) :
    revokePlainStep engine.quoting database account.username account.host
        (Revoke.text ⟨[privilege], database, account⟩) =
      .ok (joinLines ((plainSteps database account privilege).map Statement.text)) := by
  have hquoteLiteral {value : String} (h : hasControlChar value = false) :
      engine.quoting.quoteLiteral value = .ok (Sql.quoteLiteral mysqlDialect value) :=
    engine.quoteLiteral_eq_ok_iff.mpr ⟨h, rfl⟩
  have hrow : GrantRow.text ⟨database, account⟩ = "FROM mysql.db WHERE Db = " ++
      Sql.quoteLiteral mysqlDialect database ++ " AND User = " ++
      Sql.quoteLiteral mysqlDialect account.username ++ " AND Host = " ++
      Sql.quoteLiteral mysqlDialect account.host := rfl
  have hcode : "SET @tp_plain_grant = (SELECT COUNT(*) FROM mysql.db WHERE Db = " =
      "SET @tp_plain_grant = (SELECT COUNT(*)" ++ " " ++ "FROM mysql.db WHERE Db = " := rfl
  have hends : "PREPARE tp_plain_revoke FROM @tp_plain_revoke;" =
        "PREPARE " ++ "tp_plain_revoke" ++ " FROM @" ++ "tp_plain_revoke" ++ ";" ∧
      "EXECUTE tp_plain_revoke;" = "EXECUTE " ++ "tp_plain_revoke" ++ ";" ∧
      "DEALLOCATE PREPARE tp_plain_revoke;" = "DEALLOCATE PREPARE " ++ "tp_plain_revoke" ++ ";" :=
    ⟨rfl, rfl, rfl⟩
  have hcount : (Statement.setPlainGrant ⟨database, account⟩).text =
      "SET @tp_plain_grant = (SELECT COUNT(*)" ++ " " ++ GrantRow.text ⟨database, account⟩ ++
        ");" := by
    rw [Statement.text, Statement.clauses, render_append, render_rowClauses, render_singleton]
    simp only [endClause, if_true, Clause.render, Hole.render, String.append_empty]
  have htext := hasControlChar_revoke hprivilege hdatabase haccount
  have husername : hasControlChar account.username = false :=
    hasControlChar_of_acceptsIdentifier haccount.1
  simp only [revokePlainStep, hquoteLiteral (hasControlChar_of_acceptsIdentifier hdatabase),
    hquoteLiteral husername, hquoteLiteral haccount.2, hquoteLiteral htext, bind, Except.bind, pure,
    Except.pure, plainSteps, List.map_cons, List.map_nil, hcount, hrow]
  simp only [Statement.text, Statement.clauses, endClause, if_true, render, Clause.render,
    Hole.render,
    hcode, hends]
  simp only [String.append_assoc, String.append_empty]

end Turbopaneld.Managed
