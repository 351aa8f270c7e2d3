/-
# What systemd runs

The start line of a native app is a shell with the command in single quotes, that of a
scheduled job its arguments in double quotes.  Systemd decodes escapes inside of single quotes
too, and afterwards replaces specifiers and variables, which only the job's quoting allows for.
-/

import Turbopaneld.NativeApp.StartCommand
import Turbopaneld.Systemd.CommandLine

namespace Turbopaneld.NativeApp

open Systemd

/-! ## Escapes in a command -/

/-- The command as it stands between the quotes. -/
def quoted (command : List Char) : List Char := command.flatMap quoteSystemdChar

@[simp]
theorem quoted_nil : quoted [] = [] := rfl

theorem quoted_quote (rest : List Char) :
    quoted ('\'' :: rest) = '\'' :: '\\' :: '\'' :: '\'' :: quoted rest := rfl

theorem quoted_cons {c : Char} (hc : c ≠ '\'') (rest : List Char) :
    quoted (c :: rest) = c :: quoted rest := by
  rw [quoted, List.flatMap_cons, quoteSystemdChar, if_neg hc]
  rfl

/-- Digits are read from the quoted text as from the command before a closing quote. -/
theorem takeCode_quoted {digit : Char → Option ℕ} (hquote : digit '\'' = none) (base count code : ℕ)
    (command : List Char) :
    (takeCode digit base count code (command ++ ['\'']) = none ∧
        takeCode digit base count code (quoted command ++ ['\'']) = none) ∨
      ∃ value rest,
        takeCode digit base count code (command ++ ['\'']) = some (value, rest ++ ['\'']) ∧
        takeCode digit base count code (quoted command ++ ['\'']) =
          some (value, quoted rest ++ ['\'']) := by
  induction count generalizing code command with
  | zero => exact Or.inr ⟨code, command, rfl, rfl⟩
  | succ count ih =>
    cases command with
    | nil =>
      refine Or.inl ⟨?_, ?_⟩
      · simp only [List.nil_append, takeCode, hquote]
      · simp only [quoted_nil, List.nil_append, takeCode, hquote]
    | cons c command =>
      by_cases hc : c = '\''
      · subst hc
        refine Or.inl ⟨?_, ?_⟩
        · simp only [List.cons_append, takeCode, hquote]
        · simp only [quoted_quote, List.cons_append, takeCode, hquote]
      · rw [quoted_cons hc]
        simp only [List.cons_append, takeCode]
        cases digit c with
        | none => exact Or.inl ⟨rfl, rfl⟩
        | some value =>
          exact ih (code * base + value) command

theorem code_quoted {digit : Char → Option ℕ} (hquote : digit '\'' = none) (base count limit : ℕ)
    (command : List Char) :
    ((takeCode digit base count 0 (command ++ ['\''])).bind (characterAt limit) = none ∧
        (takeCode digit base count 0 (quoted command ++ ['\''])).bind (characterAt limit) = none) ∨
      ∃ d rest,
        (takeCode digit base count 0 (command ++ ['\''])).bind (characterAt limit) =
          some (d, rest ++ ['\'']) ∧
        (takeCode digit base count 0 (quoted command ++ ['\''])).bind (characterAt limit) =
          some (d, quoted rest ++ ['\'']) := by
  obtain ⟨hplain, hquoted⟩ | ⟨value, rest, hplain, hquoted⟩ :=
    takeCode_quoted hquote base count 0 command
  · rw [hplain, hquoted]
    exact Or.inl ⟨rfl, rfl⟩
  · rw [hplain, hquoted]
    simp only [Option.bind_some, characterAt]
    split
    · exact Or.inr ⟨_, rest, rfl, rfl⟩
    · exact Or.inl ⟨rfl, rfl⟩

/-- So is an escape that does not begin with a quote. -/
theorem unescape_quoted {c : Char} (hc : c ≠ '\'') (command : List Char) :
    (Systemd.unescape (c :: command ++ ['\'']) = none ∧
        Systemd.unescape (quoted (c :: command) ++ ['\'']) = none) ∨
      ∃ d rest,
        Systemd.unescape (c :: command ++ ['\'']) = some (d, rest ++ ['\'']) ∧
        Systemd.unescape (quoted (c :: command) ++ ['\'']) = some (d, quoted rest ++ ['\'']) := by
  have hoctal := code_quoted (show octalValue '\'' = none from rfl) 8 3 255 (c :: command)
  rw [quoted_cons hc] at hoctal ⊢
  simp only [List.cons_append, Systemd.unescape]
  cases simpleEscape c with
  | some d => exact Or.inr ⟨d, command, rfl, rfl⟩
  | none =>
    dsimp only
    split
    · exact code_quoted rfl 16 2 255 command
    · split
      · exact code_quoted rfl 16 4 0x10ffff command
      · split
        · exact code_quoted rfl 16 8 0x10ffff command
        · exact hoctal

/-- What stands behind the escape is the end of the command. -/
theorem suffix_of_unescape_quote {c d : Char} {command rest : List Char}
    (h : Systemd.unescape (c :: command ++ ['\'']) = some (d, rest ++ ['\''])) :
    rest <:+ command := by
  exact List.suffix_append_self_iff.mp (suffix_of_unescape h)

/-- No backslash begins an escape, with the closing quote behind the command. -/
def NoEscape (command : List Char) : Prop :=
  ∀ rest, '\\' :: rest <:+ command → Systemd.unescape (rest ++ ['\'']) = none

theorem noEscape_nil : NoEscape [] := fun _ hrest => nomatch List.suffix_nil.mp hrest

theorem noEscape_cons {c : Char} (hc : c ≠ '\\') (command : List Char) :
    NoEscape (c :: command) ↔ NoEscape command := by
  constructor
  · intro h rest hrest
    exact h rest (hrest.trans (List.suffix_cons c command))
  · intro h rest hrest
    obtain heq | hrest := List.suffix_cons_iff.mp hrest
    · exact absurd (List.cons.inj heq).1.symm hc
    · exact h rest hrest

theorem noEscape_backslash (command : List Char) :
    NoEscape ('\\' :: command) ↔
      Systemd.unescape (command ++ ['\'']) = none ∧ NoEscape command := by
  constructor
  · intro h
    exact ⟨h command (List.suffix_refl _),
      fun rest hrest => h rest (hrest.trans (List.suffix_cons _ command))⟩
  · rintro ⟨hfirst, h⟩ rest hrest
    obtain heq | hrest := List.suffix_cons_iff.mp hrest
    · rw [(List.cons.inj heq).2]
      exact hfirst
    · exact h rest hrest

/-! ## The shell's argument -/

theorem weight_quoted_le (command : List Char) :
    weight (quoted command ++ ['\'']) ≤ unquoted command := by
  induction command with
  | nil => exact Nat.le_refl _
  | cons c command ih =>
    by_cases hc : c = '\''
    · subst hc
      exact ih
    · rw [quoted_cons hc, unquoted, List.countP_cons_of_pos (by simpa using hc)]
      refine Nat.add_le_add ih ?_
      split
      · exact Nat.zero_le _
      · exact Nat.le_refl _

theorem unquoted_cons {c : Char} (hc : c ≠ '\'') (text : List Char) :
    unquoted (c :: text) = unquoted text + 1 :=
  List.countP_cons_of_pos (by simpa using hc)

/-- A backslash before a quote is lost. -/
theorem unquoted_lt_of_quote {word command : List Char} {words : List (List Char)}
    (h : readWords (some '\'') (some word) (quoted ('\\' :: '\'' :: command) ++ ['\'']) =
      some words) :
    (words.map unquoted).sum < unquoted word + unquoted ('\\' :: '\'' :: command) := by
  have hwords := unquoted_readWords_le h
  have hweight := weight_quoted_le ('\'' :: command)
  have hlost : weight (quoted ('\\' :: '\'' :: command) ++ ['\'']) =
      weight (quoted ('\'' :: command) ++ ['\'']) := rfl
  rw [unquoted_cons (by decide)]
  rw [hlost] at hwords
  exact Nat.lt_succ_of_le (Nat.le_trans hwords (Nat.add_le_add_left hweight _))

/-- An escape takes at least two characters for one. -/
theorem unquoted_lt_of_escape {c d : Char} {word command rest : List Char}
    {words : List (List Char)} (hc : c ≠ '\'')
    (hplain : Systemd.unescape (c :: command ++ ['\'']) = some (d, rest ++ ['\'']))
    (hquoted : Systemd.unescape (quoted (c :: command) ++ ['\'']) = some (d, quoted rest ++ ['\'']))
    (h : readWords (some '\'') (some word) (quoted ('\\' :: c :: command) ++ ['\'']) = some words) :
    (words.map unquoted).sum < unquoted word + unquoted ('\\' :: c :: command) := by
  rw [quoted_cons (by decide), List.cons_append, readWords_escape hquoted] at h
  have hwords := unquoted_readWords_le h
  rw [unquoted_push] at hwords
  have hone := unquoted_singleton_le d
  have hrest : unquoted rest ≤ unquoted command :=
    (suffix_of_unescape_quote hplain).sublist.countP_le
  have hweight := weight_quoted_le rest
  rw [unquoted_cons (by decide), unquoted_cons hc]
  have hword : unquoted ((some word).getD []) = unquoted word := rfl
  omega

/-- From inside of the quote the command is read as it is where it holds no escape, and as less
where it does. -/
theorem readWords_quoted_command (command word : List Char) :
    (NoEscape command →
        readWords (some '\'') (some word) (quoted command ++ ['\'']) = some [word ++ command]) ∧
      (¬NoEscape command → ∀ words,
        readWords (some '\'') (some word) (quoted command ++ ['\'']) = some words →
          (words.map unquoted).sum < unquoted word + unquoted command) := by
  match command with
  | [] =>
    refine ⟨fun _ => ?_, fun h => absurd noEscape_nil h⟩
    rw [quoted_nil, List.nil_append, readWords_close (by decide), push_some, readWords_nil,
      List.append_nil]
    rfl
  | c :: rest =>
    by_cases hquote : c = '\''
    · subst hquote
      -- the quote is closed, escaped and opened
      have hread : readWords (some '\'') (some word) (quoted ('\'' :: rest) ++ ['\'']) =
          readWords (some '\'') (some (word ++ ['\''])) (quoted rest ++ ['\'']) := by
        rw [quoted_quote]
        simp only [List.cons_append]
        rw [readWords_close (by decide), readWords_escape (d := '\'') rfl,
          readWords_open (Or.inl rfl)]
        simp only [push_some, List.append_nil]
      have hunquoted : unquoted ('\'' :: rest) = unquoted rest := rfl
      rw [noEscape_cons (by decide), hread, hunquoted]
      obtain ⟨hplain, hescape⟩ := readWords_quoted_command rest (word ++ ['\''])
      refine ⟨fun h => ?_, fun h words hwords => ?_⟩
      · rw [hplain h, List.append_assoc]
        rfl
      · have hless := hescape h words hwords
        rw [unquoted_append] at hless
        exact hless
    · by_cases hbackslash : c = '\\'
      · subst hbackslash
        rw [noEscape_backslash]
        match rest with
        | [] =>
          refine ⟨fun h => (nomatch h.1), fun _ words hwords => ?_⟩
          exact Nat.lt_succ_of_le (unquoted_readWords_le hwords)
        | d :: behind =>
          by_cases hd : d = '\''
          · subst hd
            refine ⟨fun h => (nomatch h.1), fun _ words hwords => ?_⟩
            exact unquoted_lt_of_quote hwords
          · obtain ⟨hplain, hquoted⟩ | ⟨e, after, hplain, hquoted⟩ := unescape_quoted hd behind
            · -- no escape, and both characters are kept
              have hd' : d ≠ '\\' := by
                rintro rfl
                cases hplain
              have hread : readWords (some '\'') (some word)
                    (quoted ('\\' :: d :: behind) ++ ['\'']) =
                  readWords (some '\'') (some (word ++ ['\\', d])) (quoted behind ++ ['\'']) := by
                rw [quoted_cons hd] at hquoted
                rw [quoted_cons (by decide), quoted_cons hd]
                simp only [List.cons_append] at hquoted ⊢
                rw [readWords_keep hquoted, push_some]
              rw [noEscape_cons hd', hread]
              obtain ⟨hkept, hescape⟩ := readWords_quoted_command behind (word ++ ['\\', d])
              refine ⟨fun h => ?_, fun h words hwords => ?_⟩
              · rw [hkept h.2, List.append_assoc]
                rfl
              · have hless := hescape (fun hrest => h ⟨hplain, hrest⟩) words hwords
                rw [unquoted_append, Nat.add_assoc, ← unquoted_append] at hless
                exact hless
            · refine ⟨fun h => (nomatch hplain.symm.trans h.1), fun _ words hwords => ?_⟩
              exact unquoted_lt_of_escape hd hplain hquoted hwords
      · have hread : readWords (some '\'') (some word) (quoted (c :: rest) ++ ['\'']) =
            readWords (some '\'') (some (word ++ [c])) (quoted rest ++ ['\'']) := by
          rw [quoted_cons hquote, List.cons_append, readWords_quoted hbackslash hquote, push_some]
        rw [noEscape_cons hbackslash, hread]
        obtain ⟨hplain, hescape⟩ := readWords_quoted_command rest (word ++ [c])
        refine ⟨fun h => ?_, fun h words hwords => ?_⟩
        · rw [hplain h, List.append_assoc]
          rfl
        · have hless := hescape h words hwords
          rw [unquoted_append] at hless
          rw [← List.singleton_append, unquoted_append, ← Nat.add_assoc]
          exact hless

/-- The shell and its option before what is read behind them. -/
theorem readWords_shell (rest : List Char) :
    readWords none none ("/bin/sh -c ".toList ++ rest) =
      (readWords none none rest).map (["/bin/sh".toList, "-c".toList] ++ ·) := by
  have hline : "/bin/sh -c ".toList ++ rest =
      "/bin/sh".toList ++ (' ' :: ("-c".toList ++ ' ' :: rest)) := rfl
  rw [hline, readWords_bare (by decide) (by decide), readWords_blank,
    readWords_bare (by decide) (by decide), readWords_blank, Option.map_map]
  rfl

/-- A command that systemd hands to the shell as it is. -/
structure ReadPlainly (g : Grammar) (command : List Char) : Prop where
  noEscape : NoEscape command
  plain : Plain g command

theorem toList_quoteSystemdArgument (command : String) :
    (quoteSystemdArgument command).toList = '\'' :: (quoted command.toList ++ ['\'']) := by
  simp [quoteSystemdArgument, quoted]

variable {g : Grammar}

/-- The arguments of the shell, where the command holds no escape. -/
theorem readCommandLine_shell {command : List Char} (h : NoEscape command) (values : Values) :
    readCommandLine g values ("/bin/sh -c ".toList ++ '\'' :: (quoted command ++ ['\''])) =
      some ("/bin/sh".toList :: "-c".toList ::
        expandWord g values.value (rewrite (specifierRule g values.specifier) command)) := by
  have hshell : Plain g "/bin/sh".toList := plain_of_notMem (by decide) (by decide)
  have hoption : Plain g "-c".toList := plain_of_notMem (by decide) (by decide)
  have hwords : readWords none none ("/bin/sh -c ".toList ++ '\'' :: (quoted command ++ ['\''])) =
      some ["/bin/sh".toList, "-c".toList, command] := by
    rw [readWords_shell, readWords_open (Or.inl rfl), push_none,
      (readWords_quoted_command command []).1 h]
    rfl
  rw [readCommandLine, hwords, Option.map_some, List.map_cons, List.map_cons, List.map_singleton,
    hshell.rewrite_specifiers, hoption.rewrite_specifiers, List.flatMap_cons, List.flatMap_cons,
    List.flatMap_singleton, hshell.expandWord, hoption.expandWord]
  rfl

/-- The shell gets exactly the command, whatever the specifiers and the variables are, where it
is read plainly and only there. -/
theorem readCommandLine_shell_iff {command : List Char} :
    (∀ values, readCommandLine g values
        ("/bin/sh -c ".toList ++ '\'' :: (quoted command ++ ['\''])) =
          some ["/bin/sh".toList, "-c".toList, command]) ↔ ReadPlainly g command := by
  constructor
  · intro h
    -- where everything stands for nothing, nothing is added to what was read
    have hempty := h ⟨fun _ => [], fun _ => []⟩
    by_cases hescape : NoEscape command
    · rw [readCommandLine_shell hescape] at hempty
      exact ⟨hescape, plain_of_expandWord
        (List.cons.inj (List.cons.inj (Option.some.inj hempty)).2).2⟩
    · obtain ⟨words, hwords, hargv⟩ := Option.map_eq_some_iff.mp hempty
      have hle := unquoted_arguments_le (g := g) words
      rw [hargv] at hle
      rw [readWords_shell, readWords_open (Or.inl rfl), push_none] at hwords
      obtain ⟨argument, hargument, rfl⟩ := Option.map_eq_some_iff.mp hwords
      have hless := (readWords_quoted_command command []).2 hescape argument hargument
      have hnone : unquoted [] = 0 := rfl
      rw [List.map_append, List.sum_append] at hle
      simp only [List.map_cons, List.map_nil, List.sum_cons, List.sum_nil] at hle
      omega
  · rintro ⟨hescape, hplain⟩ values
    rw [readCommandLine_shell hescape, hplain.rewrite_specifiers, hplain.expandWord]

/-! ## A job's arguments -/

open Deploy.Cron (quoteExecChar quoteExecArg)

/-- What is left of an argument's characters behind its escapes. -/
def doubled (c : Char) : List Char :=
  if c = '$' then ['$', '$'] else if c = '%' then ['%', '%'] else [c]

/-- An argument is read up to its closing quote. -/
theorem readWords_quotedArg (arg word rest : List Char) :
    readWords (some '"') (some word) (arg.flatMap quoteExecChar ++ '"' :: rest) =
      readWords none (some (word ++ arg.flatMap doubled)) rest := by
  induction arg generalizing word with
  | nil =>
    rw [List.flatMap_nil, List.nil_append, readWords_close (by decide), push_some]
    rfl
  | cons c arg ih =>
    rw [List.flatMap_cons, List.flatMap_cons, ← List.append_assoc, ← ih (word ++ doubled c),
      List.append_assoc, quoteExecChar, doubled]
    split
    · rename_i hescaped
      have hunescape : Systemd.unescape (c :: (arg.flatMap quoteExecChar ++ '"' :: rest)) =
          some (c, arg.flatMap quoteExecChar ++ '"' :: rest) := by
        obtain rfl | rfl := hescaped
        · rfl
        · rfl
      have hdollar : c ≠ '$' := by
        rintro rfl
        exact absurd hescaped (by decide)
      have hpercent : c ≠ '%' := by
        rintro rfl
        exact absurd hescaped (by decide)
      rw [if_neg hdollar, if_neg hpercent]
      exact readWords_escape hunescape
    · rename_i hplain
      obtain ⟨hquote, hbackslash⟩ := not_or.mp hplain
      split
      · rename_i hc
        subst hc
        simp only [List.cons_append, List.nil_append]
        rw [readWords_quoted (by decide) (by decide), readWords_quoted (by decide) (by decide),
          push_some, push_some, List.append_assoc]
        rfl
      · split
        · rename_i hc
          subst hc
          simp only [List.cons_append, List.nil_append]
          rw [readWords_quoted (by decide) (by decide), readWords_quoted (by decide) (by decide),
            push_some, push_some, List.append_assoc]
          rfl
        · exact readWords_quoted hbackslash hquote

/-- Doubled dollar signs are what the specifiers leave, and the variables halve them. -/
theorem rewrite_specifiers_doubled (specifier : Char → List Char) (arg : List Char) :
    rewrite (specifierRule g specifier) (arg.flatMap doubled) =
      arg.flatMap fun c => if c = '$' then ['$', '$'] else [c] := by
  induction arg with
  | nil => exact rewrite_nil
  | cons c arg ih =>
    rw [List.flatMap_cons, List.flatMap_cons, ← ih, doubled]
    split
    · simp only [List.cons_append, List.nil_append]
      rw [rewrite_cons_of_none rfl, rewrite_cons_of_none rfl]
    · split
      · rename_i hpercent
        subst hpercent
        have hfires : specifierRule g specifier ('%' :: '%' :: arg.flatMap doubled) =
            some (['%'], 1) := rfl
        exact rewrite_cons_of_some hfires
      · rename_i hpercent
        exact rewrite_cons_of_none (specifierRule_eq_none_iff.mpr (beginsSpecifier_of_ne hpercent))

theorem rewrite_variables_doubled (value : List Char → List Char) (arg : List Char) :
    rewrite (variableRule g value) (arg.flatMap fun c => if c = '$' then ['$', '$'] else [c]) =
      arg := by
  induction arg with
  | nil => exact rewrite_nil
  | cons c arg ih =>
    rw [List.flatMap_cons]
    split
    · rename_i hdollar
      subst hdollar
      have hfires : variableRule g value ('$' :: '$' ::
          arg.flatMap fun c => if c = '$' then ['$', '$'] else [c]) = some (['$'], 1) := rfl
      exact (rewrite_cons_of_some hfires).trans (congrArg ('$' :: ·) ih)
    · rename_i hdollar
      have hnone : variableRule g value (c :: arg.flatMap fun c => if c = '$' then ['$', '$'] else [c]) =
          none := variableRule_eq_none_iff.mpr (beginsVariable_of_ne hdollar)
      refine (rewrite_cons_of_none hnone).trans ?_
      exact congrArg (c :: ·) ih

theorem expandWord_doubled (values : Values) (arg : List Char) :
    expandWord g values.value
      (rewrite (specifierRule g values.specifier) (arg.flatMap doubled)) = [arg] := by
  rw [rewrite_specifiers_doubled, expandWord]
  have hname : wholeName g (arg.flatMap fun c => if c = '$' then ['$', '$'] else [c]) = none := by
    cases arg with
    | nil => rfl
    | cons c arg =>
      rw [List.flatMap_cons]
      split
      · -- what stands behind the first dollar sign begins with another one
        exact if_neg (Bool.eq_false_iff.mp (g.notDollar _))
      · rename_i hdollar
        exact wholeName_of_ne hdollar
  rw [hname]
  exact congrArg (fun word => [word]) (rewrite_variables_doubled values.value arg)

theorem toList_quoteExecArg (arg : String) :
    (quoteExecArg arg).toList = '"' :: (arg.toList.flatMap quoteExecChar ++ ['"']) := by
  simp [quoteExecArg]

theorem readWords_quoteExecArgs (args : List String) :
    readWords none none (" ".intercalate (args.map quoteExecArg)).toList =
      some (args.map fun arg => arg.toList.flatMap doubled) := by
  induction args with
  | nil => exact readWords_nil
  | cons arg args ih =>
    cases args with
    | nil =>
      rw [List.map_singleton, String.intercalate_singleton, toList_quoteExecArg,
        readWords_open (Or.inr rfl), push_none, readWords_quotedArg, readWords_nil]
      rfl
    | cons next args =>
      rw [List.map_cons, List.map_cons, String.intercalate_cons_cons, ← List.map_cons]
      have hline : (quoteExecArg arg ++ " " ++ " ".intercalate ((next :: args).map quoteExecArg)).toList =
          '"' :: (arg.toList.flatMap quoteExecChar ++ '"' ::
            ' ' :: (" ".intercalate ((next :: args).map quoteExecArg)).toList) := by
        rw [String.toList_append, String.toList_append, toList_quoteExecArg]
        simp
      rw [hline, readWords_open (Or.inr rfl), push_none, readWords_quotedArg, readWords_blank, ih]
      rfl

/-- A job's line is read as its arguments. -/
theorem readCommandLine_quoteExecArgs (values : Values) (args : List String) :
    readCommandLine g values (" ".intercalate (args.map quoteExecArg)).toList =
      some (args.map String.toList) := by
  rw [readCommandLine, readWords_quoteExecArgs, Option.map_some, List.map_map, List.flatMap_map]
  refine congrArg some ?_
  induction args with
  | nil => rfl
  | cons arg args ih =>
    rw [List.flatMap_cons, List.map_cons, ih]
    exact congrArg (· ++ args.map String.toList) (expandWord_doubled values arg.toList)

/-! ## The lines of the units -/

/-- No character of a job's line ends the line, where none of an argument does. -/
theorem forall_mem_quoteExecArgs {args : List String} {P : Char → Prop}
    (hfixed : P ' ' ∧ P '"' ∧ P '\\' ∧ P '$' ∧ P '%')
    (hargs : ∀ arg ∈ args, ∀ c ∈ arg.toList, P c) :
    ∀ c ∈ (" ".intercalate (args.map quoteExecArg)).toList, P c := by
  obtain ⟨hblank, hquote, hbackslash, hdollar, hpercent⟩ := hfixed
  refine JavaScript.forall_mem_intercalate (List.forall_mem_singleton.mpr hblank) ?_
  refine List.forall_mem_map.mpr fun arg harg c hc => ?_
  rw [toList_quoteExecArg] at hc
  obtain rfl | hc := List.mem_cons.mp hc
  · exact hquote
  · obtain hc | hc := List.mem_append.mp hc
    · obtain ⟨d, hd, hc⟩ := List.mem_flatMap.mp hc
      have hd := hargs arg harg d hd
      rw [quoteExecChar] at hc
      split at hc
      · obtain rfl | hc := List.mem_cons.mp hc
        · exact hbackslash
        · exact List.mem_singleton.mp hc ▸ hd
      · split at hc
        · obtain rfl | hc := List.mem_cons.mp hc
          · exact hdollar
          · exact List.mem_singleton.mp hc ▸ hdollar
        · split at hc
          · obtain rfl | hc := List.mem_cons.mp hc
            · exact hpercent
            · exact List.mem_singleton.mp hc ▸ hpercent
          · exact List.mem_singleton.mp hc ▸ hd
    · exact List.mem_singleton.mp hc ▸ hquote

/-- NUL and the two characters that end a line. -/
def endsLine (c : Char) : Bool := c == '\x00' || c == '\n' || c == '\r'

open Deploy.Cron (CronUnitOpts cronServiceContent)
open String (intercalate_append_of_ne_nil intercalate_cons_of_ne_nil)

/-- A line between others in a text. -/
theorem exists_of_intercalate {above below : List String} {line : String} (habove : above ≠ [])
    (hbelow : below ≠ []) : ∃ front back,
      "\n".intercalate (above ++ line :: below) = front ++ "\n" ++ line ++ "\n" ++ back := by
  refine ⟨"\n".intercalate above, "\n".intercalate below, ?_⟩
  rw [intercalate_append_of_ne_nil habove (List.cons_ne_nil _ _), intercalate_cons_of_ne_nil hbelow]
  simp only [String.append_assoc]

/-- The start line stands on a line of its own in a job's service unit. -/
theorem exists_of_cronServiceContent {opts : CronUnitOpts} {text : String}
    (h : cronServiceContent opts = .ok text) :
    ∃ front back, text = front ++ "\n" ++
      ("ExecStart=" ++ " ".intercalate (opts.job.command.map quoteExecArg)) ++ "\n" ++ back := by
  obtain ⟨lines, hlines, htext⟩ := Programs.bind_eq_ok_iff.mp h
  obtain ⟨service, -, hlines⟩ := Programs.bind_eq_ok_iff.mp hlines
  obtain ⟨unit, -, hlines⟩ := Programs.bind_eq_ok_iff.mp hlines
  obtain rfl := Except.ok.inj htext
  obtain rfl := Except.ok.inj hlines
  exact exists_of_intercalate (List.append_ne_nil_of_left_ne_nil (List.cons_ne_nil _ _) _)
    (List.cons_ne_nil _ _)

/-- What systemd runs: the command of a native app's start line is the shell's argument just
where it is read plainly, and the arguments of a job's line are always the job's. -/
theorem execLines_iff (g : Grammar) :
    (∀ params command line, given params.startCommand = some command →
        resolveExecStart params = .ok line →
        ((∀ values, readCommandLine g values line.toList =
            some ["/bin/sh".toList, "-c".toList, (runtimeCommand params command).toList]) ↔
          ReadPlainly g (runtimeCommand params command).toList)) ∧
      ∀ opts text, cronServiceContent opts = .ok text →
        (∀ arg ∈ opts.job.command, ∀ c ∈ arg.toList, endsLine c = false) →
        ∃ front line back, text = front ++ "\n" ++ ("ExecStart=" ++ line) ++ "\n" ++ back ∧
          (∀ c ∈ line.toList, endsLine c = false) ∧
          ∀ values, readCommandLine g values line.toList =
            some (opts.job.command.map String.toList) := by
  constructor
  · intro params command line hcommand hline
    rw [resolveExecStart_of_given hcommand hline]
    have hchars : ("/bin/sh -c " ++ quoteSystemdArgument (runtimeCommand params command)).toList =
        "/bin/sh -c ".toList ++
          '\'' :: (quoted (runtimeCommand params command).toList ++ ['\'']) := by
      rw [String.toList_append, toList_quoteSystemdArgument]
    rw [hchars]
    exact readCommandLine_shell_iff
  · intro opts text htext hargs
    obtain ⟨front, back, hfront⟩ := exists_of_cronServiceContent htext
    exact ⟨front, _, back, hfront,
      forall_mem_quoteExecArgs ⟨by decide, by decide, by decide, by decide, by decide⟩ hargs,
      fun values => readCommandLine_quoteExecArgs values _⟩

/-- Every percent sequence is a specifier, and a name is a word. -/
def wordGrammar : Grammar where
  isSpecifier _ := true
  isName name := !name.isEmpty && name.all JavaScript.isWord
  notDollar _ := rfl

def appParams (startCommand : String) : ExecStartParams :=
  { nodeBinary := "/opt/node/bin/node", startCommand := some startCommand }

def reportOpts : CronUnitOpts where
  layout := Deploy.Cron.usersLayout
  environmentId := "env1"
  composeServiceName := "web"
  job := { name := "report", schedule := "hourly", command := ["date", "+%H", "$HOME"] }
  username := "site"
  workingDirectory := "/srv/users/site"

theorem execLines_iff_quotes :
    (∀ values, readCommandLine wordGrammar values
        "/bin/sh -c 'node app.js --title it'\\''s'".toList =
      some ["/bin/sh".toList, "-c".toList, "node app.js --title it's".toList]) ∧
    ∃ line : String, ∀ values, readCommandLine wordGrammar values line.toList =
      some ["date".toList, "+%H".toList, "$HOME".toList] := by
  have hplain : ReadPlainly wordGrammar "node app.js --title it's".toList :=
    ⟨fun rest hrest => absurd (hrest.subset (List.mem_cons_self ..)) (by decide),
      plain_of_notMem (by decide) (by decide)⟩
  obtain ⟨happ, hjob⟩ := execLines_iff wordGrammar
  have hcommand : (reportOpts.job.command.all fun arg =>
      arg.toList.all fun c => !endsLine c) = true := by decide +kernel
  simp only [List.all_eq_true, Bool.not_eq_true'] at hcommand
  obtain ⟨front, line, back, -, -, hline⟩ := hjob reportOpts _ rfl hcommand
  exact ⟨(happ (appParams "node app.js --title it's") _ _ rfl rfl).mpr hplain, line, hline⟩

/-- The specifier of the unit's name is replaced in the name of a log file. -/
theorem not_readsCommand_specifier :
    ¬∀ params command line, given params.startCommand = some command →
      resolveExecStart params = .ok line → ∀ values,
        readCommandLine wordGrammar values line.toList =
          some ["/bin/sh".toList, "-c".toList, (runtimeCommand params command).toList] := by
  intro h
  have hread := h (appParams "node app.js --log app-%p.log") "node app.js --log app-%p.log"
    "/bin/sh -c 'node app.js --log app-%p.log'" rfl rfl
  have hplain : ReadPlainly wordGrammar "node app.js --log app-%p.log".toList :=
    readCommandLine_shell_iff.mp hread
  exact Bool.false_ne_true
    (hplain.plain.noSpecifier "%p.log".toList ⟨"node app.js --log app-".toList, rfl⟩).symm

end Turbopaneld.NativeApp
