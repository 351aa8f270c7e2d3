/-
# The Postgres role builder

`createOrAlterRoleSql` writes a `DO` block between `$turbopanel$` tags, with the password as a
literal inside.  Postgres looks for the closing tag before it looks for quotes, so the block is
what the builder meant exactly as long as the password does not hold the tag itself.
-/

import Turbopaneld.Managed.SqlQuoting

namespace Turbopaneld.Managed

open Turbopaneld JavaScript Sql

/-- Double quotes around names, dollar tags, no backslash escapes. -/
def postgresDialect : Dialect where
  nameQuote := '"'
  nameQuote_spec := by decide
  backslash := false
  dollar := true

namespace Postgres

/-- `MAX_IDENTIFIER_LENGTH` -/
def MAX_IDENTIFIER_LENGTH : ℕ := 63

/-- `quoteIdentifier` -/
def quoteIdentifier (value : String) : Except String String :=
  if !acceptsIdentifier value MAX_IDENTIFIER_LENGTH then
    .error ("invalid postgres identifier: " ++ value)
  else .ok ("\"" ++ replaceAll '"' ['"', '"'] value ++ "\"")

/-- `quoteLiteral` -/
def quoteLiteral (value : String) : Except String String :=
  if hasControlChar value then .error "postgres literal contains control characters"
  else .ok ("'" ++ replaceAll '\'' ['\'', '\''] value ++ "'")

/-- The options of `createOrAlterRoleSql`. -/
structure RoleOptions where
  login : Option Bool
  superuser : Option Bool

/-- `options?.login === false ? "NOLOGIN" : "LOGIN"` -/
def loginWord (options : Option RoleOptions) : String :=
  if (options.bind (·.login)) == some false then "NOLOGIN" else "LOGIN"

/-- `options?.superuser ? "SUPERUSER" : "NOSUPERUSER"` -/
def superuserWord (options : Option RoleOptions) : String :=
  if (options.bind (·.superuser)) == some true then "SUPERUSER" else "NOSUPERUSER"

/-- `createOrAlterRoleSql` -/
def createOrAlterRoleSql (username password : String) (options : Option RoleOptions) :
    Except String String := do
  let ident ← quoteIdentifier username
  let lit ← quoteLiteral password
  let login := loginWord options
  let superuser := superuserWord options
  let name ← quoteLiteral username
  return joinLines [
    "DO $turbopanel$",
    "BEGIN",
    "  IF NOT EXISTS (SELECT 1 FROM pg_catalog.pg_roles WHERE rolname = " ++ name ++ ") THEN",
    "    CREATE ROLE " ++ ident ++ " WITH " ++ login ++ " " ++ superuser ++ " PASSWORD " ++ lit ++
      ";",
    "  ELSE",
    "    ALTER ROLE " ++ ident ++ " WITH " ++ login ++ " " ++ superuser ++ " PASSWORD " ++ lit ++
      ";",
    "  END IF;",
    "END",
    "$turbopanel$;"]

/-! ## What the block is meant to say -/

/-- The statement that sets the role up. -/
def roleTokens (verb username password : String) (options : Option RoleOptions) : List Token :=
  [.word verb, .word "ROLE", .name username, .word "WITH", .word (loginWord options),
    .word (superuserWord options), .word "PASSWORD", .literal password, .symbol ';']

/-- The test for a role of that name. -/
def conditionTokens (username : String) : List Token :=
  [.word "IF", .word "NOT", .word "EXISTS", .symbol '(', .word "SELECT", .word "1", .word "FROM",
    .word "pg_catalog", .symbol '.', .word "pg_roles", .word "WHERE", .word "rolname", .symbol '=',
    .literal username, .symbol ')', .word "THEN"]

/-- The block: create the role when there is none of that name, else alter it. -/
def blockTokens (username password : String) (options : Option RoleOptions) : List Token :=
  .word "BEGIN" :: (conditionTokens username ++ (roleTokens "CREATE" username password options ++
    (.word "ELSE" :: (roleTokens "ALTER" username password options ++
      [.word "END", .word "IF", .symbol ';', .word "END"]))))

/-- The text is one `DO` statement, and its block is the intended one. -/
def IsRoleScript (username password : String) (options : Option RoleOptions) (sql : String) :
    Prop :=
  ∃ block, lex postgresDialect sql = some [.word "DO", .dollar "turbopanel" block, .symbol ';'] ∧
    lex postgresDialect block = some (blockTokens username password options)

/-! ## The block as clauses -/

/-- The code between a role's name and its password. -/
def attributes (options : Option RoleOptions) : String :=
  " WITH " ++ loginWord options ++ " " ++ superuserWord options ++ " PASSWORD "

/-- The clause that ends before a password. -/
def attributesClause (options : Option RoleOptions) (hole : Hole) : Clause where
  code := attributes options
  tokens := [.word "WITH", .word (loginWord options), .word (superuserWord options),
    .word "PASSWORD"]
  hole := hole

/-- The block up to the first role's name. -/
def openingClauses (username : String) : List Clause :=
  [⟨"\n" ++ "BEGIN" ++ "\n" ++
      "  IF NOT EXISTS (SELECT 1 FROM pg_catalog.pg_roles WHERE rolname = ",
    [.word "BEGIN", .word "IF", .word "NOT", .word "EXISTS", .symbol '(', .word "SELECT", .word "1",
      .word "FROM", .word "pg_catalog", .symbol '.', .word "pg_roles", .word "WHERE",
      .word "rolname", .symbol '='], .literal username⟩,
    ⟨") THEN" ++ "\n" ++ "    CREATE ROLE ", [.symbol ')', .word "THEN", .word "CREATE",
      .word "ROLE"],
      .name username⟩]

/-- The block between the two passwords, up to the second role's name. -/
def middleClauses (username : String) : List Clause :=
  [⟨";" ++ "\n" ++ "  ELSE" ++ "\n" ++ "    ALTER ROLE ",
    [.symbol ';', .word "ELSE", .word "ALTER", .word "ROLE"], .name username⟩]

/-- The end of the block. -/
def closingClauses : List Clause :=
  [⟨";" ++ "\n" ++ "  END IF;" ++ "\n" ++ "END" ++ "\n",
    [.symbol ';', .word "END", .word "IF", .symbol ';', .word "END"], .nothing⟩]

/-- The block between its tags. -/
def blockClauses (username password : String) (options : Option RoleOptions) : List Clause :=
  openingClauses username ++ [attributesClause options (.literal password)] ++
  middleClauses username ++ [attributesClause options (.literal password)] ++ closingClauses

theorem loginWord_or (options : Option RoleOptions) :
    loginWord options = "NOLOGIN" ∨ loginWord options = "LOGIN" := by
  unfold loginWord
  split
  · exact Or.inl rfl
  · exact Or.inr rfl

theorem superuserWord_or (options : Option RoleOptions) :
    superuserWord options = "SUPERUSER" ∨ superuserWord options = "NOSUPERUSER" := by
  unfold superuserWord
  split
  · exact Or.inl rfl
  · exact Or.inr rfl

theorem plain_attributesClause (options : Option RoleOptions) (hole : Hole) :
    Plain postgresDialect [attributesClause options hole] := by
  rw [attributesClause, attributes]
  rcases loginWord_or options with hlogin | hlogin <;>
    rcases superuserWord_or options with hsuperuser | hsuperuser <;>
    · rw [hlogin, hsuperuser]
      apply Plain.cons
      · exact toList_of_append (toList_of_append (toList_of_append (toList_of_append
          (toList_of_chars rfl) (toList_of_chars rfl)) (toList_of_chars rfl)) (toList_of_chars rfl))
          (toList_of_chars rfl)
      · decide
      · exact Plain.nil

theorem plain_openingClauses (username : String) :
    Plain postgresDialect (openingClauses username) := by
  apply Plain.cons
  · exact toList_of_append (toList_of_append (toList_of_append (toList_of_chars rfl)
      (toList_of_chars rfl)) (toList_of_chars rfl)) (toList_of_chars rfl)
  · decide
  · apply Plain.cons
    · exact toList_of_append (toList_of_append (toList_of_chars rfl) (toList_of_chars rfl))
        (toList_of_chars rfl)
    · decide
    · exact Plain.nil

theorem plain_middleClauses (username : String) :
    Plain postgresDialect (middleClauses username) := by
  apply Plain.cons
  · exact toList_of_append (toList_of_append (toList_of_append (toList_of_append
      (toList_of_chars rfl) (toList_of_chars rfl)) (toList_of_chars rfl)) (toList_of_chars rfl))
      (toList_of_chars rfl)
  · decide
  · exact Plain.nil

theorem plain_closingClauses : Plain postgresDialect closingClauses := by
  apply Plain.cons
  · exact toList_of_append (toList_of_append (toList_of_append (toList_of_append (toList_of_append
      (toList_of_chars rfl) (toList_of_chars rfl)) (toList_of_chars rfl)) (toList_of_chars rfl))
      (toList_of_chars rfl)) (toList_of_chars rfl)
  · decide
  · exact Plain.nil

theorem plain_blockClauses (username password : String) (options : Option RoleOptions) :
    Plain postgresDialect (blockClauses username password options) := by
  have hattributes := plain_attributesClause options (.literal password)
  exact ((((plain_openingClauses username).append hattributes).append
    (plain_middleClauses username)).append hattributes).append plain_closingClauses

theorem reads_blockClauses (username password : String) (options : Option RoleOptions) :
    (blockClauses username password options).flatMap Clause.reads =
      blockTokens username password options := rfl

/-- The text around the block. -/
def roleScript (username password : String) (options : Option RoleOptions) : String :=
  "DO $turbopanel$" ++ render postgresDialect (blockClauses username password options) ++
    "$turbopanel$;"

theorem quoteIdentifier_of_accepts {value : String}
    (h : acceptsIdentifier value MAX_IDENTIFIER_LENGTH = true) :
    quoteIdentifier value = .ok (quoteName postgresDialect value) := by
  rw [quoteIdentifier, h]
  simp [quoteName, replaceAll, doubled, postgresDialect, ← String.toList_inj]

theorem quoteLiteral_of_accepts {value : String} (h : hasControlChar value = false) :
    quoteLiteral value = .ok (Sql.quoteLiteral postgresDialect value) := by
  rw [quoteLiteral, h]
  simp [Sql.quoteLiteral, replaceAll, doubled, literalBody, postgresDialect, ← String.toList_inj]

theorem createOrAlterRoleSql_of_accepts {username password : String} (options : Option RoleOptions)
    (husername : acceptsIdentifier username MAX_IDENTIFIER_LENGTH = true)
    (hpassword : hasControlChar password = false) :
    createOrAlterRoleSql username password options =
      .ok (roleScript username password options) := by
  rw [createOrAlterRoleSql, quoteIdentifier_of_accepts husername,
    quoteLiteral_of_accepts hpassword,
    quoteLiteral_of_accepts (hasControlChar_of_acceptsIdentifier husername)]
  simp only [bind, Except.bind, pure, Except.pure, joinLines, String.intercalate_cons_cons,
    String.intercalate_singleton]
  delta roleScript
  simp only [blockClauses, openingClauses, middleClauses, closingClauses, attributesClause,
    attributes, render, Clause.render, Hole.render, List.cons_append, List.nil_append]
  simp only [String.append_assoc, String.append_empty]

/-! ## Where the tag can stand in the block -/

/-- The tag of the block. -/
def blockTag : List Char := "turbopanel".toList

theorem fence_absent {text : List Char} (h : '$' ∉ text) : ¬ fence blockTag <:+: text :=
  fun hpresent => h (hpresent.subset List.mem_cons_self)

theorem quote_notMem_fence : '\'' ∉ fence blockTag := by decide

/-- The text of clauses that have no dollar in their code and in their values. -/
theorem dollar_notMem_render {clauses : List Clause}
    (hcode : ∀ clause ∈ clauses, '$' ∉ clause.code.toList)
    (hhole : ∀ clause ∈ clauses, '$' ∉ (clause.hole.render postgresDialect).toList) :
    '$' ∉ (render postgresDialect clauses).toList := by
  induction clauses with
  | nil => exact List.not_mem_nil
  | cons clause clauses ih =>
    rw [List.forall_mem_cons] at hcode hhole
    rw [render, Clause.render, String.toList_append, String.toList_append, List.mem_append,
      List.mem_append, not_or, not_or]
    exact ⟨⟨hcode.1, hhole.1⟩, ih hcode.2 hhole.2⟩

/-- The block before the first password's quote. -/
def beforePassword (username : String) (options : Option RoleOptions) : String :=
  render postgresDialect (openingClauses username) ++ attributes options

/-- The block between the quotes of the two passwords. -/
def betweenPasswords (username : String) (options : Option RoleOptions) : String :=
  render postgresDialect (middleClauses username) ++ attributes options

theorem render_blockClauses (username password : String) (options : Option RoleOptions) :
    (render postgresDialect (blockClauses username password options)).toList =
      (beforePassword username options).toList ++ '\'' :: (doubled '\'' password.toList ++
        '\'' :: ((betweenPasswords username options).toList ++ '\'' ::
          (doubled '\'' password.toList ++
            '\'' :: (render postgresDialect closingClauses).toList))) := by
  have hliteral : (Sql.quoteLiteral postgresDialect password).toList =
      '\'' :: (doubled '\'' password.toList ++ ['\'']) := by
    rw [Sql.quoteLiteral, String.toList_ofList]
    rfl
  have hpassword : (render postgresDialect [attributesClause options (.literal password)]).toList =
      (attributes options).toList ++ '\'' :: (doubled '\'' password.toList ++ ['\'']) := by
    rw [render, render, String.append_empty, Clause.render, String.toList_append, ← hliteral]
    rfl
  rw [blockClauses, render_append, render_append, render_append, render_append]
  simp only [String.toList_append, hpassword, beforePassword, betweenPasswords, List.append_assoc,
    List.cons_append, List.nil_append]

section Dollars

variable {username : String} (husername : acceptsIdentifier username MAX_IDENTIFIER_LENGTH = true)
  (options : Option RoleOptions)

include husername

theorem dollar_notMem_quoteName : '$' ∉ (quoteName postgresDialect username).toList := by
  have hdollar : '$' ∉ username.toList := notMem_of_acceptsIdentifier rfl husername
  have hquote : '"' ∉ username.toList := notMem_of_acceptsIdentifier rfl husername
  have hsame : doubled postgresDialect.nameQuote username.toList = username.toList :=
      doubled_of_notMem hquote
  rw [quoteName, String.toList_ofList, hsame]
  simp [postgresDialect, hdollar]

theorem dollar_notMem_quoteLiteral : '$' ∉ (Sql.quoteLiteral postgresDialect username).toList := by
  have hdollar : '$' ∉ username.toList := notMem_of_acceptsIdentifier rfl husername
  have hquote : '\'' ∉ username.toList := notMem_of_acceptsIdentifier rfl husername
  have hsame : literalBody postgresDialect username = username.toList := doubled_of_notMem hquote
  rw [Sql.quoteLiteral, String.toList_ofList, hsame]
  simp [hdollar]

omit husername in
theorem dollar_notMem_attributes : '$' ∉ (attributes options).toList := by
  rw [attributes]
  rcases loginWord_or options with hlogin | hlogin <;>
    rcases superuserWord_or options with hsuperuser | hsuperuser <;>
    · rw [hlogin, hsuperuser]
      decide

theorem dollar_notMem_beforePassword : '$' ∉ (beforePassword username options).toList := by
  rw [beforePassword, String.toList_append, List.mem_append, not_or]
  refine ⟨dollar_notMem_render ?_ ?_, dollar_notMem_attributes options⟩
  · rw [openingClauses, List.forall_mem_cons, List.forall_mem_singleton]
    dsimp only
    constructor <;> decide
  · rw [openingClauses, List.forall_mem_cons, List.forall_mem_singleton]
    exact ⟨dollar_notMem_quoteLiteral husername, dollar_notMem_quoteName husername⟩

theorem dollar_notMem_betweenPasswords : '$' ∉ (betweenPasswords username options).toList := by
  rw [betweenPasswords, String.toList_append, List.mem_append, not_or]
  refine ⟨dollar_notMem_render ?_ ?_, dollar_notMem_attributes options⟩
  · rw [middleClauses, List.forall_mem_singleton]
    dsimp only
    decide
  · rw [middleClauses, List.forall_mem_singleton]
    exact dollar_notMem_quoteName husername

/-- The tag stands in the block, or starts in it, exactly where it stands in the password. -/
theorem fence_infix_block_iff (password : String) :
    fence blockTag <:+:
        (render postgresDialect (blockClauses username password options)).toList ++
          '$' :: blockTag ↔
      fence blockTag <:+: password.toList := by
  have hclosing : ¬ fence blockTag <:+: (render postgresDialect closingClauses).toList ++
      '$' :: blockTag := by
    decide
  rw [render_blockClauses]
  simp only [List.append_assoc, List.cons_append]
  simp only [Sequences.infix_append_cons_iff quote_notMem_fence,
    infix_doubled_iff quote_notMem_fence, hclosing,
    fence_absent (dollar_notMem_beforePassword husername options),
    fence_absent (dollar_notMem_betweenPasswords husername options), false_or, or_false, or_self]

end Dollars

/-! ## The block read by the server -/

/-- The script up to its block. -/
def opening : List Char := "DO $turbopanel$".toList

theorem scan_opening : scan postgresDialect (.code []) opening =
    some (.dollar blockTag [], [.word "DO"]) := by decide

/-- The script after its block. -/
def closing : List Char := "$turbopanel$;".toList

theorem closing_eq : closing = fence blockTag ++ [';'] := by decide

/-- The server's reading of the script, for the first place of the tag. -/
theorem lex_script {block rest : List Char}
    (hblock : ¬ fence blockTag <:+: block ++ '$' :: blockTag) :
    lex postgresDialect (String.ofList (opening ++ (block ++ fence blockTag ++ rest))) =
      (lex postgresDialect (String.ofList rest)).map
        ([.word "DO", .dollar "turbopanel" (String.ofList block)] ++ ·) := by
  have hscan := scan_trans scan_opening (scan_dollar (d := postgresDialect) hblock)
  have htag : String.ofList blockTag = "turbopanel" := String.ofList_toList
  rw [htag] at hscan
  rw [lex, lex, String.toList_ofList, String.toList_ofList, ← List.append_assoc, scan_append hscan]
  cases hrest : scan postgresDialect (.code []) rest with
  | none => rfl
  | some p =>
    rw [Option.map_some, Option.bind_some, Option.bind_some, Option.map_map]
    rfl

theorem toList_roleScript (username password : String) (options : Option RoleOptions) :
    (roleScript username password options).toList =
      opening ++ ((render postgresDialect (blockClauses username password options)).toList ++
        fence blockTag ++ [';']) := by
  have hparts : (roleScript username password options).toList =
      opening ++ (render postgresDialect (blockClauses username password options)).toList ++
        closing :=
    toList_of_append (toList_of_append rfl rfl) rfl
  rw [hparts, closing_eq, List.append_assoc, List.append_assoc]

theorem lex_end : lex postgresDialect (String.ofList [';']) =
    some [.symbol ';'] := by decide

theorem isRoleScript_of_absent {username password : String} (options : Option RoleOptions)
    (husername : acceptsIdentifier username MAX_IDENTIFIER_LENGTH = true)
    (habsent : ¬ fence blockTag <:+: password.toList) :
    IsRoleScript username password options (roleScript username password options) := by
  have hblock := mt (fence_infix_block_iff husername options password).mp habsent
  have hlex := @lex_script _ [';'] hblock
  rw [← toList_roleScript, String.ofList_toList, String.ofList_toList, lex_end] at hlex
  refine ⟨render postgresDialect (blockClauses username password options), hlex, ?_⟩
  rw [lex_render (plain_blockClauses username password options), reads_blockClauses]

/-- A block that ends inside the first password is no text at all. -/
theorem lex_cut (username : String) (options : Option RoleOptions) (front : List Char) :
    lex postgresDialect (String.ofList ((beforePassword username options).toList ++
      '\'' :: doubled '\'' front)) = none := by
  have hempty : settled (.code []) = some [] := rfl
  obtain ⟨s, rest, hs, out, hscan, -⟩ := scan_render (plain_openingClauses username) hempty
  have hattributes : isPlain postgresDialect (attributes options) _ = true :=
    plain_attributesClause options .nothing (attributesClause options .nothing) List.mem_cons_self
  have hcode := scan_trans hscan (scan_plain hs hattributes)
  have hpassword := scan_doubled (rfl : postgresDialect.backslash = false) front []
  have hopen := scan_trans hcode (scan_cons step_quote hpassword)
  rw [lex, beforePassword, String.toList_ofList, String.toList_append, hopen]
  rfl

/-- Where the password holds the tag, the block the server sees ends inside the password. -/
theorem not_isRoleScript_of_present {username password : String} (options : Option RoleOptions)
    (husername : acceptsIdentifier username MAX_IDENTIFIER_LENGTH = true)
    (hpresent : fence blockTag <:+: password.toList) :
    ¬ IsRoleScript username password options (roleScript username password options) := by
  obtain ⟨front, back, hpassword, hfirst⟩ := Sequences.exists_first_infix (by simp [fence]) hpresent
  have hdrop : (fence blockTag).dropLast = '$' :: blockTag := by decide
  rw [hdrop] at hfirst
  have hdoubled : doubled '\'' (front ++ fence blockTag ++ back) =
      doubled '\'' front ++ fence blockTag ++ doubled '\'' back := by
    rw [doubled_append, doubled_append, doubled_of_notMem quote_notMem_fence]
  -- the block the server sees, and what it takes for code after it
  generalize hseen : (beforePassword username options).toList ++ '\'' :: doubled '\'' front = seen
  obtain ⟨rest, hrest⟩ : ∃ rest, (roleScript username password options).toList =
      opening ++ (seen ++ fence blockTag ++ rest) := by
    refine ⟨doubled '\'' back ++ '\'' :: ((betweenPasswords username options).toList ++ '\'' ::
      (doubled '\'' password.toList ++ '\'' :: ((render postgresDialect closingClauses).toList ++
        (fence blockTag ++ [';'])))), ?_⟩
    rw [toList_roleScript, render_blockClauses, ← hseen]
    nth_rewrite 1 [hpassword]
    rw [hdoubled]
    simp only [List.append_assoc, List.cons_append]
  have hblock : ¬ fence blockTag <:+: seen ++ '$' :: blockTag := by
    have htag : doubled '\'' ('$' :: blockTag) = '$' :: blockTag :=
        doubled_of_notMem (by decide)
    rw [← hseen, List.append_assoc, List.cons_append,
      Sequences.infix_append_cons_iff quote_notMem_fence, not_or, ← htag, ← doubled_append,
      infix_doubled_iff quote_notMem_fence]
    exact ⟨fence_absent (dollar_notMem_beforePassword husername options), hfirst⟩
  rintro ⟨block, hscript, hread⟩
  rw [← String.ofList_toList (s := roleScript username password options), hrest,
    lex_script hblock] at hscript
  obtain ⟨tokens, -, htokens⟩ := Option.map_eq_some_iff.mp hscript
  have hsame : String.ofList seen = block := by
    rw [List.cons_append, List.cons_append, List.nil_append, List.cons.injEq,
      List.cons.injEq] at htokens
    exact (Token.dollar.inj htokens.2.1).2
  rw [← hsame, ← hseen, lex_cut] at hread
  cases hread

/-- The builder's text for the names and passwords it does not throw on. -/
theorem createOrAlterRoleSql_eq_ok_iff {username password sql : String}
    {options : Option RoleOptions} :
    createOrAlterRoleSql username password options = .ok sql ↔
      acceptsIdentifier username MAX_IDENTIFIER_LENGTH = true ∧ hasControlChar password = false ∧
        roleScript username password options = sql := by
  by_cases husername : acceptsIdentifier username MAX_IDENTIFIER_LENGTH = true
  · by_cases hpassword : hasControlChar password = false
    · rw [createOrAlterRoleSql_of_accepts options husername hpassword, Except.ok.injEq]
      simp only [husername, hpassword, true_and]
    · have hthrows : createOrAlterRoleSql username password options =
          .error "postgres literal contains control characters" := by
        rw [createOrAlterRoleSql, quoteIdentifier_of_accepts husername, quoteLiteral,
          if_pos (by simpa using hpassword)]
        rfl
      rw [hthrows]
      simp only [hpassword, reduceCtorEq, false_and, and_false]
  · have hthrows : createOrAlterRoleSql username password options =
        .error ("invalid postgres identifier: " ++ username) := by
      rw [createOrAlterRoleSql, quoteIdentifier, if_pos (by simpa using husername)]
      rfl
    rw [hthrows]
    simp only [husername, reduceCtorEq, false_and]

/-- The builder gives the server one `DO` statement with the intended block exactly for the names
it takes and for the passwords without a control character and without the block's own tag. -/
theorem isRoleScript_iff (username password : String) (options : Option RoleOptions) :
    (∃ sql, createOrAlterRoleSql username password options = .ok sql ∧
        IsRoleScript username password options sql) ↔
      acceptsIdentifier username MAX_IDENTIFIER_LENGTH = true ∧ hasControlChar password = false ∧
        ¬ fence blockTag <:+: password.toList := by
  constructor
  · rintro ⟨sql, hsql, hscript⟩
    obtain ⟨husername, hpassword, rfl⟩ := createOrAlterRoleSql_eq_ok_iff.mp hsql
    refine ⟨husername, hpassword, fun hpresent => ?_⟩
    exact not_isRoleScript_of_present options husername hpresent hscript
  · rintro ⟨husername, hpassword, habsent⟩
    refine ⟨roleScript username password options, ?_, ?_⟩
    · exact createOrAlterRoleSql_of_accepts options husername hpassword
    · exact isRoleScript_of_absent options husername habsent

end Postgres

end Turbopaneld.Managed
