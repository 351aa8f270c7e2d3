/-
# What a server reads in the account and grant scripts

The code of every statement is plain, so a server reads the scripts as the statements they are
written from, with the given values.  The text of a revoke that a server prepares is read once more,
and is a revoke from the same account on the same schema.  The schema of a grant is a pattern:
the escaped name reaches one database.
-/

import Turbopaneld.Managed.MysqlScripts

namespace Turbopaneld.Managed

open Turbopaneld JavaScript Sql

/-! ## Every script is plain -/

theorem plain_endClause {code : String} {chars : List Char} {tokens : List Token}
    (hchars : code.toList = chars) (hplain : isPlainText mysqlDialect chars tokens = true)
    (last : Bool) : Plain mysqlDialect [endClause code tokens last] := by
  have hline : isPlainText mysqlDialect (chars ++ ['\n']) (tokens ++ []) = true :=
    isPlainText_append hplain rfl
  rw [List.append_nil] at hline
  cases last with
  | true => exact .cons (toList_of_append hchars (toList_of_chars rfl)) (by simpa using hplain) .nil
  | false => exact .cons (toList_of_append hchars (toList_of_chars rfl)) hline .nil

theorem plain_accountClauses {code : String} {chars : List Char} {tokens : List Token}
    (hchars : code.toList = chars) (hplain : isPlainText mysqlDialect chars tokens = true)
    (account : Account) : Plain mysqlDialect (accountClauses code tokens account) :=
  .cons hchars hplain (.cons (toList_of_chars rfl) (by decide) .nil)

theorem plain_rowClauses {code : String} {chars : List Char} {tokens : List Token}
    (hchars : code.toList = chars) (hplain : isPlainText mysqlDialect chars tokens = true)
    (row : GrantRow) : Plain mysqlDialect (rowClauses code tokens row) := by
  apply Plain.cons
  · exact toList_of_append (toList_of_append hchars (toList_of_chars rfl)) (toList_of_chars rfl)
  · rw [List.append_assoc]
    exact isPlainText_append hplain (by decide)
  · exact .cons (toList_of_chars rfl) (by decide)
      (.cons (toList_of_chars rfl) (by decide) .nil)

/-! ### Lists of privileges -/

/-- The text of a privilege is its words. -/
def isWords (privilege : String) : Bool :=
  match scan mysqlDialect (.code []) privilege.toList with
  | some (.code word, out) => out ++ flush word == wordTokens privilege
  | _ => false

/-- Every privilege a script names. -/
def knownPrivileges : List String :=
  DATABASE_PRIVILEGES.map (·.1) ++
    ["DELETE HISTORY", "SHOW CREATE ROUTINE", "SHOW_ROUTINE", "FLUSH_TABLES", "ALL PRIVILEGES",
      "GRANT OPTION"]

theorem isWords_of_known : ∀ privilege ∈ knownPrivileges, isWords privilege = true := by
  decide

theorem scan_of_isWords {privilege : String} (h : isWords privilege = true) :
    ∃ word out, scan mysqlDialect (.code []) privilege.toList = some (.code word, out) ∧
      out ++ flush word = wordTokens privilege := by
  rw [isWords] at h
  split at h
  case h_1 word out hscan => exact ⟨word, out, hscan, beq_iff_eq.mp h⟩
  case h_2 => cases h

theorem scan_privileges {privileges : List String} (hsome : privileges ≠ [])
    (hknown : ∀ privilege ∈ privileges, privilege ∈ knownPrivileges) :
    ∃ word out, scan mysqlDialect (.code []) (", ".intercalate privileges).toList =
        some (.code word, out) ∧ out ++ flush word = privilegeTokens privileges := by
  induction privileges with
  | nil => exact absurd rfl hsome
  | cons privilege rest ih =>
    obtain ⟨hprivilege, hrest⟩ := List.forall_mem_cons.mp hknown
    obtain ⟨word, out, hscan, hout⟩ := scan_of_isWords (isWords_of_known _ hprivilege)
    cases rest with
    | nil =>
      rw [String.intercalate_singleton]
      exact ⟨word, out, hscan, hout⟩
    | cons next rest =>
      obtain ⟨last, more, hmore, htokens⟩ := ih (List.cons_ne_nil _ _) hrest
      have hcomma : ", ".toList = [',', ' '] := toList_of_chars rfl
      have hseparator : scan mysqlDialect (.code word) [',', ' '] =
          some (.code [], flush word ++ [.symbol ',']) := by
        rw [scan_symbol (by decide)]
        exact congrArg (fun tokens => some (State.code [], tokens)) (List.append_nil _)
      refine ⟨last, out ++ (flush word ++ [.symbol ',']) ++ more, ?_, ?_⟩
      · rw [String.intercalate_cons_cons]
        have hfirst : (privilege ++ ", ").toList = privilege.toList ++ [',', ' '] :=
          toList_of_append rfl hcomma
        rw [String.toList_append, hfirst]
        exact scan_trans (scan_trans hscan hseparator) hmore
      · rw [List.append_assoc, htokens, ← List.append_assoc, hout, List.append_assoc]
        rfl

/-- Code around a list of privileges. -/
theorem isPlainText_privileges {privileges : List String} (hsome : privileges ≠ [])
    (hknown : ∀ privilege ∈ privileges, privilege ∈ knownPrivileges) {front back : List Char}
    {first last : List Token} (hfront : isPlainText mysqlDialect front first = true)
    (hback : scan mysqlDialect (.code []) back = some (.code [], last)) :
    isPlainText mysqlDialect (front ++ ((", ".intercalate privileges).toList ++ ' ' :: back))
      (first ++ (privilegeTokens privileges ++ last)) = true := by
  obtain ⟨word, out, hscan, hout⟩ := scan_privileges hsome hknown
  have hend : scan mysqlDialect (.code word) (' ' :: back) =
      some (.code [], flush word ++ last) := by
    rw [scan_blank (by decide), hback]
    rfl
  have hmiddle := scan_trans hscan hend
  rw [← List.append_assoc, hout] at hmiddle
  exact isPlainText_append hfront hmiddle

theorem plain_privilegeClauses {verb preposition : String} {front middle : List Char}
    {privileges : List String} (hsome : privileges ≠ [])
    (hknown : ∀ privilege ∈ privileges, privilege ∈ knownPrivileges)
    (hfront : (verb ++ " ").toList = front)
    (hverb : isPlainText mysqlDialect front [.word verb] = true)
    (hmiddle : (".* " ++ preposition ++ " ").toList = middle)
    (hpreposition : isPlainText mysqlDialect middle
      [.symbol '.', .symbol '*', .word preposition] = true)
    (schema : String) (account : Account) :
    Plain mysqlDialect (privilegeClauses verb preposition privileges schema account) := by
  have hback : scan mysqlDialect (.code []) "ON ".toList = some (.code [], [.word "ON"]) := by
    decide
  have hon : " ON ".toList = ' ' :: "ON ".toList :=
    (toList_of_chars rfl).trans (congrArg (' ' :: ·) (toList_of_chars rfl).symm)
  apply Plain.cons
  · exact toList_of_append (toList_of_append hfront rfl) hon
  · rw [List.append_assoc]
    exact isPlainText_privileges hsome hknown hverb hback
  · exact plain_accountClauses hmiddle hpreposition account

/-! ### The tests of the privileges a row holds -/

/-- A column is one word. -/
def isColumn (column : String) : Bool := !column.toList.isEmpty && column.toList.all isWordChar

/-- Every privilege of a database, in either engine. -/
def databasePrivileges : List (String × String) :=
  DATABASE_PRIVILEGES ++ Engine.mariadb.quoting.extraPrivileges

theorem isColumn_of_known : ∀ privilege ∈ databasePrivileges, isColumn privilege.2 = true := by
  decide

/-- A test of a column, whatever code comes after it. -/
theorem scan_column {column : String} (h : isColumn column = true) {back : List Char}
    {last : List Token} (hback : scan mysqlDialect (.code []) back = some (.code [], last)) :
    scan mysqlDialect (.code []) (['I', 'F', '('] ++ (column.toList ++ ' ' :: back)) =
      some (.code [], [.word "IF", .symbol '('] ++ (.word column :: last)) := by
  rw [isColumn, Bool.and_eq_true, Bool.not_eq_true', List.all_eq_true] at h
  obtain ⟨hsome, hword⟩ := h
  have hopen : scan mysqlDialect (.code []) ['I', 'F', '('] =
      some (.code [], [.word "IF", .symbol '(']) := by decide
  have hflush : flush (column.toList.reverse ++ []) = [.word column] := by
    rw [List.append_nil, flush, List.isEmpty_reverse, hsome, gathered, List.reverse_reverse,
      String.ofList_toList]
    rfl
  have hrest : scan mysqlDialect (.code (column.toList.reverse ++ [])) (' ' :: back) =
      some (.code [], .word column :: last) := by
    rw [scan_blank (by decide), hback, hflush]
    rfl
  exact scan_trans hopen (scan_trans (scan_word hword) hrest)

theorem plain_heldClause {code : String} {front : List Char} {tokens : List Token}
    (hfront : code.toList = front) (hplain : isPlainText mysqlDialect front tokens = true)
    {privilege : String × String} (hcolumn : isColumn privilege.2 = true)
    (database definer : String) :
    Plain mysqlDialect (heldClause database definer code tokens privilege) := by
  have htest : (code ++ "IF(" ++ privilege.2).toList = front ++ ['I', 'F', '('] ++
      privilege.2.toList :=
    toList_of_append (toList_of_append hfront (toList_of_chars rfl)) rfl
  have hkept {lookup : String} {chars : List Char} {words : List Token}
      (hlookup : lookup.toList = chars)
      (hwords : scan mysqlDialect (.code []) chars = some (.code [], words)) :
      Plain mysqlDialect
        [⟨code ++ "IF(" ++ privilege.2 ++ " = 'Y' AND NOT EXISTS (" ++ lookup,
            tokens ++ [.word "IF", .symbol '(', .word privilege.2, .symbol '=', .literal "Y"] ++
              [.word "AND", .word "NOT", .word "EXISTS", .symbol '('] ++ words, .literal database⟩,
          ⟨" AND DEFINER = ", [.word "AND", .word "DEFINER", .symbol '='], .literal definer⟩,
          ⟨")" ++ ", ", [.symbol ')', .symbol ','], .literal privilege.1⟩] := by
    have hback : scan mysqlDialect (.code []) "= 'Y' AND NOT EXISTS (".toList = some (.code [],
        [.symbol '=', .literal "Y", .word "AND", .word "NOT", .word "EXISTS", .symbol '(']) := by
      decide
    have hblank : " = 'Y' AND NOT EXISTS (".toList = ' ' :: "= 'Y' AND NOT EXISTS (".toList :=
      (toList_of_chars rfl).trans (congrArg (' ' :: ·) (toList_of_chars rfl).symm)
    have hfirst := isPlainText_append hplain (scan_column hcolumn (scan_trans hback hwords))
    apply Plain.cons (toList_of_append (toList_of_append htest hblank) hlookup)
    · simpa only [List.append_assoc, List.cons_append, List.nil_append] using hfirst
    · exact .cons (toList_of_chars rfl) (by decide)
        (.cons (toList_of_append (toList_of_chars rfl) (toList_of_chars rfl)) (by decide)
          .nil)
  rw [heldClause, keeping]
  by_cases htrigger : privilege.2 == "Trigger_priv"
  · simp only [htrigger, if_true]
    exact hkept (toList_of_chars rfl) (by decide)
  · by_cases hevent : privilege.2 == "Event_priv"
    · simp only [htrigger, hevent, Bool.false_eq_true, if_false, if_true]
      exact hkept (toList_of_chars rfl) (by decide)
    · simp only [htrigger, hevent, Bool.false_eq_true, if_false]
      have hback : scan mysqlDialect (.code []) ("= 'Y'".toList ++ [',', ' ']) =
          some (.code [], [.symbol '=', .literal "Y", .symbol ',']) := by decide
      have hblank : " = 'Y'".toList = ' ' :: "= 'Y'".toList :=
        (toList_of_chars rfl).trans (congrArg (' ' :: ·) (toList_of_chars rfl).symm)
      have hfirst := isPlainText_append hplain (scan_column hcolumn hback)
      apply Plain.cons (toList_of_append (toList_of_append htest hblank) (toList_of_chars rfl))
      · simpa only [List.append_assoc, List.cons_append, List.nil_append] using hfirst
      · exact .nil

theorem plain_heldClauses {code : String} {front : List Char} {tokens : List Token}
    (hfront : code.toList = front) (hplain : isPlainText mysqlDialect front tokens = true)
    {privileges : List (String × String)}
    (hcolumns : ∀ privilege ∈ privileges, isColumn privilege.2 = true) (database definer : String) :
    Plain mysqlDialect (heldClauses database definer code tokens privileges) := by
  induction privileges generalizing code front tokens with
  | nil => exact .nil
  | cons privilege rest ih =>
    obtain ⟨hfirst, hrest⟩ := List.forall_mem_cons.mp hcolumns
    have hclause := plain_heldClause hfront hplain hfirst database definer
    exact hclause.append (ih (toList_of_chars rfl) (by decide) hrest)

/-! ### Statements -/

/-- Every clause of the statement is plain, on whichever line it stands. -/
def Statement.IsPlain (statement : Statement) : Prop :=
  ∀ last, Plain mysqlDialect (statement.clauses last)

theorem isPlain_createUser (account : Account) (password : String) :
    (Statement.createUser account password).IsPlain := by
  intro last
  rw [Statement.clauses]
  apply Plain.append
  · apply Plain.append
    · exact plain_accountClauses (toList_of_chars rfl) (by decide) account
    · exact .cons (toList_of_chars rfl) (by decide) .nil
  · exact plain_endClause (toList_of_chars rfl) (by decide) last

theorem isPlain_alterUser (account : Account) (password : String) :
    (Statement.alterUser account password).IsPlain := by
  intro last
  rw [Statement.clauses]
  apply Plain.append
  · apply Plain.append
    · exact plain_accountClauses (toList_of_chars rfl) (by decide) account
    · exact .cons (toList_of_chars rfl) (by decide) .nil
  · exact plain_endClause (toList_of_chars rfl) (by decide) last

theorem isPlain_grant {privileges : List String} (hsome : privileges ≠ [])
    (hknown : ∀ privilege ∈ privileges, privilege ∈ knownPrivileges) (schema : String)
    (account : Account) (withGrantOption : Bool) :
    (Statement.grant privileges schema account withGrantOption).IsPlain := by
  intro last
  have hlist : Plain mysqlDialect (privilegeClauses "GRANT" "TO" privileges schema account) :=
    plain_privilegeClauses hsome hknown (toList_of_append (toList_of_chars rfl)
      (toList_of_chars rfl))
      (by decide) (toList_of_append (toList_of_append (toList_of_chars rfl)
        (toList_of_chars rfl)) (toList_of_chars rfl)) (by decide) schema account
  cases withGrantOption with
  | true => exact hlist.append (plain_endClause (toList_of_chars rfl) (by decide) last)
  | false => exact hlist.append (plain_endClause (toList_of_chars rfl) (by decide) last)

theorem isPlain_grantOnAll {privileges : List String} (hsome : privileges ≠ [])
    (hknown : ∀ privilege ∈ privileges, privilege ∈ knownPrivileges) (account : Account) :
    (Statement.grantOnAll privileges account).IsPlain := by
  intro last
  have hback : scan mysqlDialect (.code []) "ON *.* TO ".toList =
      some (.code [], [.word "ON", .symbol '*', .symbol '.', .symbol '*', .word "TO"]) := by
    decide
  have hon : " ON *.* TO ".toList = ' ' :: "ON *.* TO ".toList :=
    (toList_of_chars rfl).trans (congrArg (' ' :: ·) (toList_of_chars rfl).symm)
  have hgrant : "GRANT ".toList = ['G', 'R', 'A', 'N', 'T', ' '] := toList_of_chars rfl
  have hverb : isPlainText mysqlDialect ['G', 'R', 'A', 'N', 'T', ' '] [.word "GRANT"] = true := by
    decide
  rw [Statement.clauses]
  apply Plain.append
  · apply plain_accountClauses
    · exact toList_of_append (toList_of_append hgrant rfl) hon
    · rw [List.append_assoc]
      exact isPlainText_privileges hsome hknown hverb hback
  · exact plain_endClause (toList_of_chars rfl) (by decide) last

theorem isPlain_setPlainGrant (row : GrantRow) : (Statement.setPlainGrant row).IsPlain := by
  intro last
  rw [Statement.clauses]
  apply Plain.append
  · exact plain_rowClauses (toList_of_chars rfl) (by decide) row
  · exact plain_endClause (toList_of_chars rfl) (by decide) last

theorem isPlain_setPlainRevoke (revoke : String) : (Statement.setPlainRevoke revoke).IsPlain := by
  intro last
  apply Plain.cons (toList_of_chars rfl)
  · decide
  · exact plain_endClause (toList_of_chars rfl) (by decide) last

theorem isPlain_setHeld {privileges : List (String × String)}
    (hcolumns : ∀ privilege ∈ privileges, isColumn privilege.2 = true) (database definer : String)
    (row : GrantRow) : (Statement.setHeld database definer privileges row).IsPlain := by
  intro last
  rw [Statement.clauses]
  apply Plain.append
  · apply Plain.append
    · exact plain_heldClauses (toList_of_append (toList_of_append (toList_of_append
        (toList_of_chars rfl) (toList_of_chars rfl)) (toList_of_chars rfl)) (toList_of_chars rfl))
        (by decide) hcolumns database definer
    · exact plain_rowClauses (toList_of_append (toList_of_chars rfl) (toList_of_chars rfl))
        (by decide) row
  · exact plain_endClause (toList_of_chars rfl) (by decide) last

theorem isPlain_setHeldOption (row : GrantRow) : (Statement.setHeldOption row).IsPlain := by
  intro last
  rw [Statement.clauses]
  apply Plain.append
  · exact plain_rowClauses (toList_of_append (toList_of_append (toList_of_append
      (toList_of_chars rfl) (toList_of_chars rfl)) (toList_of_chars rfl)) (toList_of_chars rfl))
      (by decide) row
  · exact plain_endClause (toList_of_chars rfl) (by decide) last

theorem isPlain_setRevoke {variableName : String}
    (h : variableName = "tp_excess" ∨ variableName = "tp_excess_option") (tail : String) :
    (Statement.setRevoke variableName tail).IsPlain := by
  intro last
  rcases h with rfl | rfl <;>
  · apply Plain.cons
    · exact toList_of_append (toList_of_append (toList_of_append (toList_of_append (toList_of_append
        (toList_of_append (toList_of_chars rfl) (toList_of_chars rfl)) (toList_of_chars rfl))
        (toList_of_chars rfl)) (toList_of_chars rfl)) (toList_of_chars rfl)) (toList_of_chars rfl)
    · decide
    · apply Plain.cons
      · exact toList_of_append (toList_of_append (toList_of_chars rfl) (toList_of_chars rfl))
          (toList_of_chars rfl)
      · decide
      · exact plain_endClause (toList_of_chars rfl) (by decide) last

/-- The names that stand in the prepared statements. -/
def isPrepared (name variableName : String) : Prop :=
  (name, variableName) ∈ [("tp_plain_revoke", "tp_plain_revoke"), ("tp_excess", "tp_excess_sql"),
    ("tp_excess_option", "tp_excess_option_sql")]

theorem isPlain_prepare {name variableName : String} (h : isPrepared name variableName) :
    (Statement.prepare name variableName).IsPlain ∧ (Statement.execute name).IsPlain ∧
      (Statement.deallocate name).IsPlain := by
  simp only [isPrepared, List.mem_cons, Prod.mk.injEq, List.not_mem_nil, or_false] at h
  rcases h with ⟨rfl, rfl⟩ | ⟨rfl, rfl⟩ | ⟨rfl, rfl⟩ <;>
  · refine ⟨?_, ?_, ?_⟩
    · exact plain_endClause (toList_of_append (toList_of_append (toList_of_append (toList_of_append
        (toList_of_chars rfl) (toList_of_chars rfl)) (toList_of_chars rfl)) (toList_of_chars rfl))
        (toList_of_chars rfl)) (by decide)
    · exact plain_endClause (toList_of_append (toList_of_append (toList_of_chars rfl)
        (toList_of_chars rfl)) (toList_of_chars rfl)) (by decide)
    · exact plain_endClause (toList_of_append (toList_of_append (toList_of_chars rfl)
        (toList_of_chars rfl)) (toList_of_chars rfl)) (by decide)

theorem plain_scriptClauses {statements : List Statement}
    (h : ∀ statement ∈ statements, statement.IsPlain) :
    Plain mysqlDialect (scriptClauses statements) := by
  induction statements with
  | nil => exact .nil
  | cons statement rest ih =>
    obtain ⟨hfirst, hrest⟩ := List.forall_mem_cons.mp h
    cases rest with
    | nil => exact hfirst true
    | cons next rest => exact (hfirst false).append (ih hrest)

theorem isPlain_excessSteps {variableName tail : String} {first : Statement}
    (hname : variableName = "tp_excess" ∨ variableName = "tp_excess_option")
    (hfirst : first.IsPlain) :
    ∀ statement ∈ excessSteps variableName tail first, statement.IsPlain := by
  have hprepared : isPrepared variableName (variableName ++ "_sql") := by
    rcases hname with rfl | rfl
    · exact .tail _ (.head _)
    · exact .tail _ (.tail _ (.head _))
  obtain ⟨hprepare, hexecute, hdeallocate⟩ := isPlain_prepare hprepared
  intro statement hstatement
  simp only [excessSteps, List.mem_cons, List.not_mem_nil, or_false] at hstatement
  rcases hstatement with rfl | rfl | rfl | rfl | rfl
  · exact hfirst
  · exact isPlain_setRevoke hname tail
  · exact hprepare
  · exact hexecute
  · exact hdeallocate

theorem isPlain_excessScript {revoked : List (String × String)}
    (hcolumns : ∀ privilege ∈ revoked, isColumn privilege.2 = true) (schema database : String)
    (account : Account) (withGrantOption : Bool) :
    ∀ statement ∈ excessScript schema database account revoked withGrantOption,
      statement.IsPlain := by
  intro statement hstatement
  rcases List.mem_append.mp hstatement with hexcess | hoption
  · split at hexcess
    · cases hexcess
    · exact isPlain_excessSteps (Or.inl rfl) (isPlain_setHeld hcolumns _ _ _) statement hexcess
  · split at hoption
    · exact isPlain_excessSteps (Or.inr rfl) (isPlain_setHeldOption _) statement hoption
    · cases hoption

theorem isColumn_of_allBut (engine : Engine) (kept : List String) :
    ∀ privilege ∈ allBut engine.quoting kept, isColumn privilege.2 = true := by
  intro privilege hprivilege
  apply isColumn_of_known
  rw [databasePrivileges, List.mem_append]
  rcases List.mem_append.mp (List.mem_of_mem_filter hprivilege) with hshared | hextra
  · exact Or.inl hshared
  · cases engine with
    | mysql => cases hextra
    | mariadb => exact Or.inr hextra

theorem known_of_level : (∀ privilege ∈ readWritePrivileges, privilege ∈ knownPrivileges) ∧
    (∀ privilege ∈ readOnlyPrivileges, privilege ∈ knownPrivileges) ∧
    (∀ privilege ∈ ["ALL PRIVILEGES"], privilege ∈ knownPrivileges) ∧
    ∀ privilege ∈ ["GRANT OPTION"], privilege ∈ knownPrivileges := by decide

theorem isPlain_grantScript (engine : Engine) (database : String) (account : Account)
    (privilege : ManagedDatabasePrivilege) :
    ∀ statement ∈ grantScript engine database account privilege, statement.IsPlain := by
  obtain ⟨hreadWrite, hreadOnly, hall, -⟩ := known_of_level
  have hsome {privilege : String} {rest : List String} : privilege :: rest ≠ [] :=
      List.cons_ne_nil _ _
  cases privilege with
  | admin => exact List.forall_mem_singleton.mpr (isPlain_grant hsome hall _ _ _)
  | owner =>
    exact List.forall_mem_cons.mpr ⟨isPlain_grant hsome hall _ _ _,
      isPlain_excessScript (List.forall_mem_nil _) _ _ _ _⟩
  | readWrite =>
    exact List.forall_mem_cons.mpr ⟨isPlain_grant hsome hreadWrite _ _ _,
      isPlain_excessScript (isColumn_of_allBut engine _) _ _ _ _⟩
  | readOnly =>
    exact List.forall_mem_cons.mpr ⟨isPlain_grant hsome hreadOnly _ _ _,
      isPlain_excessScript (isColumn_of_allBut engine _) _ _ _ _⟩

/-! ## What the servers read -/

theorem lex_script {statements : List Statement} (h : ∀ statement ∈ statements, statement.IsPlain) :
    lex mysqlDialect (render mysqlDialect (scriptClauses statements)) =
      some (scriptTokens statements) :=
  lex_render (plain_scriptClauses h)

/-- A revoke, read on its own. -/
theorem lex_revoke {revoke : Revoke} (hsome : revoke.privileges ≠ [])
    (hknown : ∀ privilege ∈ revoke.privileges, privilege ∈ knownPrivileges) :
    lex mysqlDialect revoke.text = some revoke.tokens := by
  apply lex_render
  exact plain_privilegeClauses hsome hknown
    (toList_of_append (toList_of_chars rfl) (toList_of_chars rfl)) (by decide)
    (toList_of_append (toList_of_append (toList_of_chars rfl) (toList_of_chars rfl))
      (toList_of_chars rfl)) (by decide) _ _

/-- The account builder gives a text exactly for accounts it takes and passwords without a control
character, and a server reads it as the account script with the given values. -/
theorem createOrAlterAccountSql_reads (engine : Engine) (account : Account) (password : String) :
    (∃ sql, engine.createOrAlterAccountSql account.username password account.host = .ok sql ∧
        lex mysqlDialect sql = some (scriptTokens (accountScript account password))) ↔
      account.Accepted ∧ hasControlChar password = false := by
  constructor
  · rintro ⟨sql, hsql, -⟩
    exact (engine.createOrAlterAccountSql_eq_ok_iff.mp hsql).1
  · intro haccepted
    refine ⟨_, engine.createOrAlterAccountSql_eq_ok_iff.mpr ⟨haccepted, rfl⟩, ?_⟩
    apply lex_script
    exact List.forall_mem_cons.mpr ⟨isPlain_createUser account password,
      List.forall_mem_singleton.mpr (isPlain_alterUser account password)⟩

/-- The literals a script prepares revokes from. -/
theorem eq_of_setRevoke_mem {schema database : String} {account : Account}
    {revoked : List (String × String)} {withGrantOption : Bool} {variableName tail : String}
    (h : .setRevoke variableName tail ∈
      excessScript schema database account revoked withGrantOption) :
    tail = revokeTail schema account := by
  rcases List.mem_append.mp h with hexcess | hoption
  · split at hexcess
    · cases hexcess
    · simp only [excessSteps, List.mem_cons, reduceCtorEq, List.not_mem_nil, or_false, false_or,
        Statement.setRevoke.injEq] at hexcess
      exact hexcess.2
  · split at hoption
    · simp only [excessSteps, List.mem_cons, reduceCtorEq, List.not_mem_nil, or_false, false_or,
        Statement.setRevoke.injEq] at hoption
      exact hoption.2
    · cases hoption

theorem tail_of_grantScript {engine : Engine} {database : String} {account : Account}
    {privilege : ManagedDatabasePrivilege} {variableName tail : String}
    (h : .setRevoke variableName tail ∈ grantScript engine database account privilege) :
    tail = revokeTail (escapeGrantSchemaPattern database) account := by
  cases privilege with
  | admin => simp [grantScript] at h
  | _ =>
    rcases List.mem_cons.mp h with hgrant | hrest
    · cases hgrant
    · exact eq_of_setRevoke_mem hrest

/-- The grant builder gives a text exactly for the databases and accounts it takes.  A server reads
it as the script of that level with the given values, and whatever privileges it then finds to be
held, the text it prepares is the revoke of just those, on the one schema and from the one
account. -/
theorem grantOnDatabaseSql_reads (engine : Engine) (database : String) (account : Account)
    (privilege : ManagedDatabasePrivilege) :
    (∃ sql, grantOnDatabaseSql engine.quoting database account.username privilege account.host =
      .ok sql ∧
        lex mysqlDialect sql = some (scriptTokens (grantScript engine database account privilege)) ∧
        ∀ variableName tail, .setRevoke variableName tail ∈ grantScript engine database account
          privilege →
          ∀ held, held ≠ [] → (∀ name ∈ held, name ∈ knownPrivileges) →
            lex mysqlDialect ("REVOKE " ++ ", ".intercalate held ++ tail) =
              some (Revoke.tokens ⟨held, escapeGrantSchemaPattern database, account⟩)) ↔
      GrantableDatabase database ∧ account.Accepted := by
  constructor
  · rintro ⟨sql, hsql, -⟩
    exact accepted_of_grantOnDatabaseSql hsql
  · rintro ⟨hdatabase, haccount⟩
    refine ⟨_, grantOnDatabaseSql_eq_ok engine hdatabase haccount privilege, ?_, ?_⟩
    · exact lex_script (isPlain_grantScript engine database account privilege)
    · intro variableName tail hmem held hsome hknown
      rw [tail_of_grantScript hmem, ← text_revoke]
      exact lex_revoke hsome hknown

theorem revokePlainPatternGrantSql_eq_ok (engine : Engine) {database : String} {account : Account}
    (hdatabase : acceptsIdentifier database SCHEMA_MAX_LENGTH = true)
    (haccount : account.Accepted) :
    revokePlainPatternGrantSql engine.quoting database account.username account.host =
      .ok (render mysqlDialect (scriptClauses (plainScript database account))) := by
  have htarget (privilege : String) : Revoke.text ⟨[privilege], database, account⟩ =
      "REVOKE " ++ privilege ++ " ON " ++
        (quoteName mysqlDialect database ++ ".* FROM " ++ account.text) := by
    rw [text_revoke, String.intercalate_singleton]
    simp only [revokeTail, accountClauses, render, Clause.render, Hole.render, Account.text,
      String.append_assoc, String.append_empty]
  have hcode : "REVOKE ALL PRIVILEGES ON " = "REVOKE " ++ "ALL PRIVILEGES" ++ " ON " ∧
      "REVOKE GRANT OPTION ON " = "REVOKE " ++ "GRANT OPTION" ++ " ON " := ⟨rfl, rfl⟩
  have hnames : hasControlChar "ALL PRIVILEGES" = false ∧
      hasControlChar "GRANT OPTION" = false := by
    decide
  have hall := revokePlainStep_eq_ok engine hnames.1 hdatabase haccount
  have hoption := revokePlainStep_eq_ok engine hnames.2 hdatabase haccount
  rw [htarget] at hall hoption
  have hquoted : engine.quoting.quoteIdentifier database = .ok (quoteName mysqlDialect database) :=
    engine.quoteIdentifier_eq_ok_iff.mpr ⟨hdatabase, rfl⟩
  have haccountAt : engine.quoting.accountAt account.username account.host = .ok account.text :=
    engine.accountAt_eq_ok_iff.mpr ⟨haccount, rfl⟩
  have hsome (privilege : String) :
      (plainSteps database account privilege).map Statement.text ≠ [] := by
    simp [plainSteps]
  simp only [revokePlainPatternGrantSql, hquoted, haccountAt, bind, Except.bind, hcode, hall,
    hoption,
    pure, Except.pure]
  rw [render_scriptClauses, plainScript, List.map_append, joinLines_append (hsome _) (hsome _)]

theorem accepted_of_revokePlainPatternGrantSql {engine : Engine} {database sql : String}
    {account : Account}
    (h : revokePlainPatternGrantSql engine.quoting database account.username account.host =
      .ok sql) :
    acceptsIdentifier database SCHEMA_MAX_LENGTH = true ∧ account.Accepted := by
  rw [revokePlainPatternGrantSql] at h
  obtain ⟨db, hdb, hrest⟩ := Programs.bind_eq_ok_iff.mp h
  obtain ⟨text, htext, -⟩ := Programs.bind_eq_ok_iff.mp hrest
  exact ⟨(engine.quoteIdentifier_eq_ok_iff.mp hdb).1, (engine.accountAt_eq_ok_iff.mp htext).1⟩

theorem isPlain_plainSteps (database : String) (account : Account) (privilege : String) :
    ∀ statement ∈ plainSteps database account privilege, statement.IsPlain := by
  obtain ⟨hprepare, hexecute, hdeallocate⟩ := isPlain_prepare (.head _)
  intro statement hstatement
  simp only [plainSteps, List.mem_cons, List.not_mem_nil, or_false] at hstatement
  rcases hstatement with rfl | rfl | rfl | rfl | rfl
  · exact isPlain_setPlainGrant _
  · exact isPlain_setPlainRevoke _
  · exact hprepare
  · exact hexecute
  · exact hdeallocate

/-- The plain revoke builder gives a text exactly for the databases and accounts it takes.  A server
reads it as the plain script with the given values, and the two literals it prepares are the
revokes of all privileges and of the grant option, from the one account on the plain name. -/
theorem revokePlainPatternGrantSql_reads (engine : Engine) (database : String) (account : Account) :
    (∃ sql, revokePlainPatternGrantSql engine.quoting database account.username account.host =
      .ok sql ∧
        lex mysqlDialect sql = some (scriptTokens (plainScript database account)) ∧
        ∀ revoke, .setPlainRevoke revoke ∈ plainScript database account →
          ∃ privilege ∈ ["ALL PRIVILEGES", "GRANT OPTION"],
            lex mysqlDialect revoke = some (Revoke.tokens ⟨[privilege], database, account⟩)) ↔
      acceptsIdentifier database SCHEMA_MAX_LENGTH = true ∧ account.Accepted := by
  constructor
  · rintro ⟨sql, hsql, -⟩
    exact accepted_of_revokePlainPatternGrantSql hsql
  · rintro ⟨hdatabase, haccount⟩
    refine ⟨_, revokePlainPatternGrantSql_eq_ok engine hdatabase haccount, ?_, ?_⟩
    · apply lex_script
      intro statement hstatement
      rcases List.mem_append.mp hstatement with hall | hoption
      · exact isPlain_plainSteps _ _ _ statement hall
      · exact isPlain_plainSteps _ _ _ statement hoption
    · obtain ⟨-, -, hall, hoption⟩ := known_of_level
      intro revoke hmem
      simp only [plainScript, plainSteps, List.mem_append, List.mem_cons, reduceCtorEq,
        Statement.setPlainRevoke.injEq, List.not_mem_nil, or_false, false_or] at hmem
      rcases hmem with rfl | rfl
      · exact ⟨_, .head _, lex_revoke (List.cons_ne_nil _ _) hall⟩
      · exact ⟨_, .tail _ (.head _), lex_revoke (List.cons_ne_nil _ _) hoption⟩

theorem known_of_backup (engine : Engine) :
    engine.quoting.backupPrivileges ≠ [] ∧
      ∀ privilege ∈ engine.quoting.backupPrivileges, privilege ∈ knownPrivileges := by
  cases engine with
  | mysql => decide
  | mariadb => decide

/-- The backup builder gives a text exactly for the accounts it takes, and a server reads it as one
grant of the engine's backup privileges on every database. -/
theorem grantBackupOnAllSql_reads (engine : Engine) (account : Account) :
    (∃ sql, grantBackupOnAllSql engine.quoting account.username account.host = .ok sql ∧
        lex mysqlDialect sql =
          some (scriptTokens [.grantOnAll engine.quoting.backupPrivileges account])) ↔
      account.Accepted := by
  constructor
  · rintro ⟨sql, hsql, -⟩
    rw [grantBackupOnAllSql] at hsql
    obtain ⟨text, htext, -⟩ := Programs.bind_eq_ok_iff.mp hsql
    exact (engine.accountAt_eq_ok_iff.mp htext).1
  · intro haccount
    have haccountAt : engine.quoting.accountAt account.username account.host = .ok account.text :=
      engine.accountAt_eq_ok_iff.mpr ⟨haccount, rfl⟩
    have htext : render mysqlDialect (scriptClauses
        [.grantOnAll engine.quoting.backupPrivileges account]) =
        "GRANT " ++ ", ".intercalate engine.quoting.backupPrivileges ++ " ON *.* TO " ++
          account.text ++ ";" := by
      simp only [scriptClauses, Statement.clauses, accountClauses, endClause, if_true, render,
        Clause.render, Hole.render, Account.text, List.cons_append, List.nil_append]
      simp only [String.append_assoc, String.append_empty]
    have hbuilt : grantBackupOnAllSql engine.quoting account.username account.host =
        .ok (render mysqlDialect (scriptClauses
          [.grantOnAll engine.quoting.backupPrivileges account])) := by
      rw [grantBackupOnAllSql, haccountAt, htext]
      rfl
    obtain ⟨hsome, hknown⟩ := known_of_backup engine
    refine ⟨_, hbuilt, ?_⟩
    apply lex_script
    exact List.forall_mem_singleton.mpr (isPlain_grantOnAll hsome hknown account)

/-! ## The databases a grant reaches -/

theorem schemaPattern_escape (text : List Char) :
    schemaPattern (text.flatMap fun c =>
      if c == '\\' || c == '_' || c == '%' then ['\\', c] else [c]) = Shell.quoted text := by
  induction text with
  | nil => rfl
  | cons c text ih =>
    rw [List.flatMap_cons, Shell.quoted, List.map_cons, ← Shell.quoted, ← ih]
    by_cases hspecial : (c == '\\' || c == '_' || c == '%') = true
    · rw [if_pos hspecial]
      rfl
    · rw [if_neg hspecial]
      simp only [Bool.or_eq_true, beq_iff_eq, not_or] at hspecial
      obtain ⟨⟨hslash, hline⟩, hpercent⟩ := hspecial
      rw [List.singleton_append, schemaPattern]
      · exact fun h => absurd h hslash
      · exact fun _ _ h => absurd h hslash
      · exact hline
      · exact hpercent

/-- The escaped name of a database reaches that database and no other. -/
theorem schemaReaches_escape (name database : String) :
    schemaReaches (escapeGrantSchemaPattern name) database = true ↔ database = name := by
  rw [schemaReaches, escapeGrantSchemaPattern, String.toList_ofList, schemaPattern_escape,
    Shell.globMatches_quoted, String.toList_inj]

/-- A name without `\` and `%`, read as a pattern. -/
theorem schemaPattern_of_notMem {text : List Char} (hslash : '\\' ∉ text) (hpercent : '%' ∉ text) :
    schemaPattern text =
      text.map fun c => if c == '_' then .oneOf (fun _ => true) else .char c := by
  induction text with
  | nil => rfl
  | cons c text ih =>
    rw [List.mem_cons, not_or] at hslash hpercent
    rw [List.map_cons, ← ih hslash.2 hpercent.2]
    by_cases hline : c = '_'
    · subst hline
      rfl
    · rw [if_neg (by simpa using hline), schemaPattern]
      · exact fun h => absurd h.symm hslash.1
      · exact fun _ _ h => absurd h.symm hslash.1
      · exact hline
      · exact fun h => hpercent.1 h.symm

theorem globMatches_replaced (text : List Char) :
    Shell.globMatches (text.map fun c => if c == '_' then .oneOf (fun _ => true) else .char c)
      (text.map fun c => if c == '_' then '-' else c) = true := by
  induction text with
  | nil => rfl
  | cons c text ih =>
    by_cases hline : c = '_'
    · subst hline
      exact ih
    · rw [List.map_cons, List.map_cons, if_neg (by simpa using hline),
        if_neg (by simpa using hline),
        Shell.globMatches_char_cons, ih]
      simp

/-- A grant on the escaped name reaches that database only.  A grant on the plain name, as older
versions wrote it, reaches another one exactly where the name is said to hold a wildcard. -/
theorem schemaReaches_iff {name : String} {maxLength : ℕ}
    (h : acceptsIdentifier name maxLength = true) :
    (∀ database, schemaReaches (escapeGrantSchemaPattern name) database = true ↔ database = name) ∧
      ((∃ database, database ≠ name ∧ schemaReaches name database = true) ↔
        hasGrantWildcard name = true) := by
  have hslash : '\\' ∉ name.toList := notMem_of_acceptsIdentifier rfl h
  have hpercent : '%' ∉ name.toList := notMem_of_acceptsIdentifier rfl h
  have hpattern := schemaPattern_of_notMem hslash hpercent
  have hwildcard : hasGrantWildcard name = true ↔ '_' ∈ name.toList := by
    simp only [hasGrantWildcard, List.any_eq_true, Bool.or_eq_true, beq_iff_eq]
    constructor
    · rintro ⟨c, hc, rfl | rfl⟩
      · exact hc
      · exact absurd hc hpercent
    · exact fun hmem => ⟨'_', hmem, Or.inl rfl⟩
  refine ⟨schemaReaches_escape name, ?_⟩
  rw [hwildcard]
  constructor
  · rintro ⟨database, hother, hreaches⟩
    by_contra habsent
    have hquoted : (name.toList.map fun c => if c == '_' then .oneOf (fun _ => true) else .char c) =
        Shell.quoted name.toList := by
      apply List.map_congr_left
      intro c hc
      rw [if_neg]
      rw [beq_iff_eq]
      exact fun heq => habsent (heq ▸ hc)
    rw [schemaReaches, hpattern, hquoted, Shell.globMatches_quoted, String.toList_inj] at hreaches
    exact hother hreaches
  · intro hmem
    refine ⟨String.ofList (name.toList.map fun c => if c == '_' then '-' else c), ?_, ?_⟩
    · intro hsame
      rw [← hsame, String.toList_ofList] at hmem
      obtain ⟨c, -, hline⟩ := List.mem_map.mp hmem
      split at hline
      · cases hline
      · next hc => exact hc (beq_iff_eq.mpr hline)
    · rw [schemaReaches, hpattern, String.toList_ofList]
      exact globMatches_replaced _

theorem schemaReaches_wp_site :
    (∀ database, schemaReaches (escapeGrantSchemaPattern "wp_site") database = true ↔
        database = "wp_site") ∧
      ((∃ database, database ≠ "wp_site" ∧ schemaReaches "wp_site" database = true) ↔
        hasGrantWildcard "wp_site" = true) :=
  schemaReaches_iff (by decide : acceptsIdentifier "wp_site" 64 = true)

end Turbopaneld.Managed
