/-
# The first line of a trimmed block

The addresses a block keeps are written back without the quotes they may have had.  The line
is read as those addresses where none of them holds a separator or a quote, no comment begins
in it, and it is not that of an import or of a snippet; and only there.
-/

import Turbopaneld.Deploy.CaddySnippet

namespace Turbopaneld.Deploy.Caddy

open JavaScript

/-! ## Tokens -/

/-- Neither a separator nor a quote. -/
def isPlain (c : Char) : Bool := !isSeparator c && !isAddressQuote c

variable {quote : Option Char} {current text : List Char} {tokens : List (List Char)}

theorem flatten_flush (current : List Char) : (flush current).flatten = current := by
  rw [flush]
  split
  · rename_i hnil
    rw [hnil]
    rfl
  · exact List.append_nil current

theorem ne_nil_of_mem_flush {token : List Char} (h : token ∈ flush current) : token ≠ [] := by
  rw [flush] at h
  split at h
  · cases h
  · rename_i hne
    rwa [List.mem_singleton.mp h]

theorem mem_push {current rest : List Char} {c d : Char} (h : c ∈ current ++ [d] ∨ c ∈ rest) :
    c ∈ current ∨ c ∈ d :: rest := by
  rw [List.mem_append, List.mem_singleton] at h
  rw [List.mem_cons]
  exact or_assoc.mp h

/-- No token is empty. -/
theorem ne_nil_of_tokensFrom (h : tokensFrom quote current text = some tokens) :
    ∀ token ∈ tokens, token ≠ [] := by
  fun_induction tokensFrom generalizing tokens with
  | case1 => cases h
  | case2 =>
    obtain rfl := Option.some.inj h
    exact fun token htoken => ne_nil_of_mem_flush htoken
  | case3 _ _ _ ih => exact ih h
  | case4 _ _ _ _ _ ih => exact ih h
  | case5 _ _ _ _ ih => exact ih h
  | case6 _ _ _ _ _ ih =>
    obtain ⟨others, hothers, rfl⟩ := Option.map_eq_some_iff.mp h
    intro token htoken
    obtain hflush | hrest := List.mem_append.mp htoken
    · exact ne_nil_of_mem_flush hflush
    · exact ih hothers token hrest
  | case7 _ _ _ _ _ ih => exact ih h

theorem countP_push (p : Char → Bool) (current rest : List Char) (c : Char) :
    (current ++ [c]).countP p + rest.countP p = current.countP p + (c :: rest).countP p := by
  rw [List.countP_append, Nat.add_assoc, ← List.countP_append]
  rfl

theorem countP_skip {p : Char → Bool} {c : Char} (hc : p c = false) (rest : List Char) :
    (c :: rest).countP p = rest.countP p :=
  List.countP_cons_of_neg (Bool.eq_false_iff.mp hc)

theorem isPlain_of_quote {c : Char} (h : isAddressQuote c = true) : isPlain c = false := by
  rw [isPlain, h, Bool.not_true, Bool.and_false]

theorem isPlain_of_separator {c : Char} (h : isSeparator c = true) : isPlain c = false := by
  rw [isPlain, h]
  rfl

/-- The plain characters are kept. -/
theorem countP_isPlain_tokensFrom (hquote : ∀ q, quote = some q → isAddressQuote q = true)
    (h : tokensFrom quote current text = some tokens) :
    tokens.flatten.countP isPlain = current.countP isPlain + text.countP isPlain := by
  fun_induction tokensFrom generalizing tokens with
  | case1 => cases h
  | case2 =>
    obtain rfl := Option.some.inj h
    rw [flatten_flush]
    rfl
  | case3 current rest q ih =>
    rw [ih nofun h, countP_skip (isPlain_of_quote (hquote q rfl))]
  | case4 current c rest q hc ih =>
    rw [ih hquote h, countP_push]
  | case5 current c rest hc ih =>
    rw [ih (fun q hq => Option.some.inj hq ▸ hc) h, countP_skip (isPlain_of_quote hc)]
  | case6 current c rest hc hseparator ih =>
    obtain ⟨others, hothers, rfl⟩ := Option.map_eq_some_iff.mp h
    rw [List.flatten_append, flatten_flush, List.countP_append, ih nofun hothers,
      countP_skip (isPlain_of_separator hseparator), List.countP_nil, Nat.zero_add]
  | case7 current c rest hc hseparator ih =>
    rw [ih nofun h, countP_push]

/-- Quotes may be lost. -/
theorem countP_isAddressQuote_tokensFrom (h : tokensFrom quote current text = some tokens) :
    tokens.flatten.countP isAddressQuote ≤
      current.countP isAddressQuote + text.countP isAddressQuote := by
  have hskip : ∀ (c : Char) (rest : List Char),
      rest.countP isAddressQuote ≤ (c :: rest).countP isAddressQuote :=
    fun c rest => (List.sublist_cons_self c rest).countP_le
  fun_induction tokensFrom generalizing tokens with
  | case1 => cases h
  | case2 =>
    obtain rfl := Option.some.inj h
    rw [flatten_flush]
    exact Nat.le_refl _
  | case3 current rest q ih =>
    exact Nat.le_trans (ih h) (Nat.add_le_add_left (hskip q rest) _)
  | case4 current c rest q hc ih =>
    rw [← countP_push]
    exact ih h
  | case5 current c rest hc ih =>
    exact Nat.le_trans (ih h) (Nat.add_le_add_left (hskip c rest) _)
  | case6 current c rest hc hseparator ih =>
    obtain ⟨others, hothers, rfl⟩ := Option.map_eq_some_iff.mp h
    rw [List.flatten_append, flatten_flush, List.countP_append]
    have hrest := ih hothers
    rw [List.countP_nil, Nat.zero_add] at hrest
    exact Nat.add_le_add_left (Nat.le_trans hrest (hskip c rest)) _
  | case7 current c rest hc hseparator ih =>
    rw [← countP_push]
    exact ih h

/-- Outside of quotes the first quote is lost. -/
theorem countP_isAddressQuote_lt (h : tokensFrom none current text = some tokens)
    (hquote : ∃ c ∈ text, isAddressQuote c = true) :
    tokens.flatten.countP isAddressQuote <
      current.countP isAddressQuote + text.countP isAddressQuote := by
  induction text generalizing current tokens with
  | nil => exact absurd hquote (by simp)
  | cons c rest ih =>
    rw [tokensFrom] at h
    split at h
    · rename_i hc
      have hle := countP_isAddressQuote_tokensFrom h
      rw [List.countP_cons_of_pos hc]
      omega
    · rename_i hc
      have hrest : ∃ d ∈ rest, isAddressQuote d = true := by
        obtain ⟨d, hd, hquoted⟩ := hquote
        obtain rfl | hd := List.mem_cons.mp hd
        · exact absurd hquoted hc
        · exact ⟨d, hd, hquoted⟩
      split at h
      · obtain ⟨others, hothers, rfl⟩ := Option.map_eq_some_iff.mp h
        have hless := ih hothers hrest
        rw [List.flatten_append, flatten_flush, List.countP_append,
          countP_skip (Bool.eq_false_iff.mpr hc)]
        rw [List.countP_nil, Nat.zero_add] at hless
        omega
      · rw [← countP_push]
        exact ih h hrest

/-- Without quotes no token holds a separator. -/
theorem isSeparator_of_tokensFrom (h : tokensFrom none current text = some tokens)
    (hquote : ∀ c ∈ text, isAddressQuote c = false) (hcurrent : ∀ c ∈ current, isSeparator c = false) :
    ∀ token ∈ tokens, ∀ c ∈ token, isSeparator c = false := by
  have hflush : ∀ current : List Char, (∀ c ∈ current, isSeparator c = false) →
      ∀ token ∈ flush current, ∀ c ∈ token, isSeparator c = false := by
    intro current hcurrent token htoken c hc
    refine hcurrent c ?_
    rw [← flatten_flush current]
    exact List.mem_flatten_of_mem htoken hc
  induction text generalizing current tokens with
  | nil =>
    obtain rfl := Option.some.inj h
    exact hflush current hcurrent
  | cons c rest ih =>
    obtain ⟨hc, hrest⟩ := List.forall_mem_cons.mp hquote
    rw [tokensFrom, if_neg (Bool.eq_false_iff.mp hc)] at h
    split at h
    · obtain ⟨others, hothers, rfl⟩ := Option.map_eq_some_iff.mp h
      intro token htoken
      obtain hfront | hback := List.mem_append.mp htoken
      · exact hflush current hcurrent token hfront
      · exact ih hothers hrest nofun token hback
    · rename_i hseparator
      refine ih h hrest fun d hd => ?_
      obtain hd | hd := List.mem_append.mp hd
      · exact hcurrent d hd
      · rw [List.mem_singleton.mp hd]
        exact Bool.eq_false_iff.mpr hseparator

/-! ## Joined addresses -/

/-- The addresses with a comma and a blank between them. -/
def joined (addresses : List String) : List Char :=
  [',', ' '].intercalate (addresses.map String.toList)

theorem joined_singleton (token : String) : joined [token] = token.toList :=
  List.intercalate_singleton

theorem joined_cons_cons (token next : String) (rest : List String) :
    joined (token :: next :: rest) = token.toList ++ ',' :: ' ' :: joined (next :: rest) := by
  rw [joined, List.map_cons, List.map_cons, List.intercalate_cons_cons, List.append_assoc]
  rfl

theorem toList_siteHeader (addresses : List String) :
    (siteHeader addresses).toList = joined addresses ++ [' ', '{'] := by
  rw [siteHeader, String.toList_append, String.toList_intercalate]
  rfl

theorem countP_joined {p : Char → Bool} (hcomma : p ',' = false) (hblank : p ' ' = false)
    (addresses : List String) :
    (joined addresses).countP p = (addresses.map String.toList).flatten.countP p := by
  induction addresses with
  | nil => rfl
  | cons token rest ih =>
    cases rest with
    | nil => rw [joined_singleton, List.map_singleton, List.flatten_singleton]
    | cons next rest =>
      have hflatten : ((token :: next :: rest).map String.toList).flatten =
          token.toList ++ ((next :: rest).map String.toList).flatten := rfl
      rw [joined_cons_cons, List.countP_append, countP_skip hcomma, countP_skip hblank, ih,
        hflatten, List.countP_append]

theorem tokensFrom_append_plain {token : List Char} (htoken : ∀ c ∈ token, isPlain c = true)
    (current rest : List Char) :
    tokensFrom none current (token ++ rest) = tokensFrom none (current ++ token) rest := by
  induction token generalizing current with
  | nil => rw [List.nil_append, List.append_nil]
  | cons c token ih =>
    obtain ⟨hc, hrest⟩ := List.forall_mem_cons.mp htoken
    rw [isPlain, Bool.and_eq_true, Bool.not_eq_true', Bool.not_eq_true'] at hc
    rw [List.cons_append, tokensFrom, if_neg (Bool.eq_false_iff.mp hc.2),
      if_neg (Bool.eq_false_iff.mp hc.1), ih hrest, List.append_assoc]
    rfl

/-- Plain tokens are read back. -/
theorem addressTokens_joined {addresses : List String}
    (hplain : ∀ token ∈ addresses, ∀ c ∈ token.toList, isPlain c = true)
    (hne : ∀ token ∈ addresses, token.toList ≠ []) (hsome : addresses ≠ []) :
    tokensFrom none [] (joined addresses) = some (addresses.map String.toList) := by
  induction addresses with
  | nil => exact absurd rfl hsome
  | cons token rest ih =>
    obtain ⟨htoken, hrest⟩ := List.forall_mem_cons.mp hplain
    obtain ⟨hnil, hnils⟩ := List.forall_mem_cons.mp hne
    have hflush : flush token.toList = [token.toList] := if_neg hnil
    cases rest with
    | nil =>
      have hread := tokensFrom_append_plain htoken [] []
      rw [List.append_nil, tokensFrom, List.nil_append, hflush] at hread
      rw [joined_singleton, hread]
      rfl
    | cons next rest =>
      rw [joined_cons_cons, tokensFrom_append_plain htoken, List.nil_append]
      have hread := ih hrest hnils (List.cons_ne_nil _ _)
      rw [tokensFrom, if_neg (by decide), if_pos (by decide), tokensFrom, if_neg (by decide),
        if_pos (by decide), hread, hflush]
      rfl

/-! ## Comments -/

/-- What is left out begins with a number sign. -/
theorem uncommented_cases (quote : Option Char) (fresh : Bool) (line : List Char) :
    uncommented quote fresh line = line ∨
      ∃ rest, line = uncommented quote fresh line ++ '#' :: rest := by
  have hcons : ∀ (c : Char) (kept line : List Char), (kept = line ∨ ∃ rest, line = kept ++ '#' :: rest) →
      (c :: kept = c :: line ∨ ∃ rest, c :: line = c :: kept ++ '#' :: rest) := by
    intro c kept line h
    obtain heq | ⟨rest, hrest⟩ := h
    · exact Or.inl (congrArg (c :: ·) heq)
    · exact Or.inr ⟨rest, congrArg (c :: ·) hrest⟩
  fun_induction uncommented with
  | case1 => exact Or.inl rfl
  | case2 => exact Or.inl rfl
  | case3 _ _ _ _ _ _ ih => exact hcons _ _ _ (hcons _ _ _ ih)
  | case4 _ _ _ _ ih => exact hcons _ _ _ ih
  | case5 _ _ _ _ _ _ ih => exact hcons _ _ _ ih
  | case6 _ _ _ _ ih => exact hcons _ _ _ ih
  | case7 _ _ rest _ hc => exact Or.inr ⟨rest, congrArg (· :: rest) hc.1⟩
  | case8 _ _ _ _ _ ih => exact hcons _ _ _ ih

/-! ## The line -/

variable {line : String} {addresses : List String} {head : List Char}

theorem classifyTopLevel_eq_site (h : classifyTopLevel line = .block (some addresses)) :
    ∃ head, (withoutComment line.toList).rdropWhile isSpace = head ++ ['{'] ∧
      isImport (head ++ ['{']) = false ∧ isSnippetName (trimChars head) = false ∧
      addressTokens (trimChars head) = some addresses ∧ addresses ≠ [] := by
  rw [classifyTopLevel] at h
  dsimp only at h
  split at h
  · cases h
  · rename_i himport
    split at h
    · cases h
    · rename_i hbrace
      obtain ⟨head, htext⟩ := List.getLast?_eq_some_iff.mp (not_not.mp hbrace)
      rw [htext, List.dropLast_concat] at h
      rw [htext] at himport
      split at h
      · cases h
      · split at h
        · cases h
        · split at h
          · cases h
          · rename_i hsnippet
            split at h
            · cases h
            · split at h
              · cases h
              · cases h
              · rename_i hsome htokens
                obtain rfl := Option.some.inj (TopLevel.block.inj h)
                exact ⟨head, htext, Bool.eq_false_iff.mpr himport, Bool.eq_false_iff.mpr hsnippet,
                  htokens, hsome⟩

theorem classifyTopLevel_of_head
    (htext : (withoutComment line.toList).rdropWhile isSpace = head ++ ['{'])
    (himport : isImport (head ++ ['{']) = false) (hblank : head.getLast?.any isSpace = true)
    (htrimmed : trimChars head ≠ []) (hsnippet : isSnippetName (trimChars head) = false)
    (hcomma : (trimChars head).getLast? ≠ some ',')
    (htokens : addressTokens (trimChars head) = some addresses) (hne : addresses ≠ []) :
    classifyTopLevel line = .block (some addresses) := by
  rw [classifyTopLevel, htext, himport]
  dsimp only
  rw [if_neg Bool.false_ne_true, if_neg (by simp), List.dropLast_concat, if_neg htrimmed, hblank,
    if_neg (by simp), hsnippet, if_neg Bool.false_ne_true, if_neg hcomma, htokens]
  obtain ⟨token, rest, rfl⟩ := List.exists_cons_of_ne_nil hne
  rfl

/-! ## The new first line -/

/-- The line of the addresses a block keeps is read as these addresses. -/
structure HeaderKept (addresses : List String) : Prop where
  plain : ∀ token ∈ addresses, ∀ c ∈ token.toList, isPlain c = true
  noComment : withoutComment (siteHeader addresses).toList = (siteHeader addresses).toList
  notImport : addresses ≠ ["import"]
  notSnippet : ∀ token, addresses = [token] → isSnippetName token.toList = false

theorem isSpace_of_isPlain {c : Char} (h : isPlain c = true) : isSpace c = false := by
  rw [isPlain, isSeparator, Bool.and_eq_true, Bool.not_eq_true', Bool.or_eq_false_iff] at h
  exact h.1.2

/-- The joined addresses begin and end with a plain character. -/
theorem exists_joined (hplain : ∀ token ∈ addresses, ∀ c ∈ token.toList, isPlain c = true)
    (hne : ∀ token ∈ addresses, token.toList ≠ []) (hsome : addresses ≠ []) :
    (∃ c rest, joined addresses = c :: rest ∧ isPlain c = true) ∧
      ∃ front c, joined addresses = front ++ [c] ∧ isPlain c = true := by
  induction addresses with
  | nil => exact absurd rfl hsome
  | cons token rest ih =>
    obtain ⟨htoken, hrest⟩ := List.forall_mem_cons.mp hplain
    obtain ⟨hnil, hnils⟩ := List.forall_mem_cons.mp hne
    obtain ⟨c, chars, hchars⟩ := List.exists_cons_of_ne_nil hnil
    have hc : isPlain c = true := htoken c (hchars ▸ List.mem_cons_self ..)
    cases rest with
    | nil =>
      rw [joined_singleton]
      refine ⟨⟨c, chars, hchars, hc⟩, _, _, (List.dropLast_concat_getLast hnil).symm, ?_⟩
      exact htoken _ (List.getLast_mem hnil)
    | cons next rest =>
      obtain ⟨-, front, last, hfront, hlast⟩ := ih hrest hnils (List.cons_ne_nil _ _)
      rw [joined_cons_cons, hfront]
      refine ⟨⟨c, _, by rw [hchars]; rfl, hc⟩, token.toList ++ ',' :: ' ' :: front, last, ?_, hlast⟩
      rw [List.append_assoc]
      rfl

theorem trimChars_joined (hplain : ∀ token ∈ addresses, ∀ c ∈ token.toList, isPlain c = true)
    (hne : ∀ token ∈ addresses, token.toList ≠ []) (hsome : addresses ≠ []) :
    trimChars (joined addresses ++ [' ']) = joined addresses := by
  obtain ⟨⟨c, rest, hfirst, hc⟩, front, d, hlast, hd⟩ := exists_joined hplain hne hsome
  rw [trimChars, hfirst, List.cons_append, List.dropWhile_cons_of_neg (by rw [isSpace_of_isPlain hc]; exact Bool.false_ne_true),
    ← List.cons_append, ← hfirst, List.rdropWhile_concat_pos _ _ _ (by decide), hlast,
    List.rdropWhile_concat_neg _ _ _ (by rw [isSpace_of_isPlain hd]; exact Bool.false_ne_true)]

/-- A text that begins with a plain word is an import where the word says so and a blank
follows. -/
theorem isImport_append {token : List Char} {c : Char} {rest : List Char}
    (htoken : ∀ c ∈ token, isPlain c = true) (hc : isPlain c = false) :
    isImport (token ++ c :: rest) = true ↔ token = "import".toList ∧ isSpace c = true := by
  constructor
  · intro h
    rw [isImport, Bool.and_eq_true, List.isPrefixOf_iff_prefix] at h
    obtain ⟨⟨behind, hbehind⟩, hspace⟩ := h
    have htake : (token ++ c :: rest).takeWhile isPlain = token := by
      rw [List.takeWhile_append_of_pos htoken, List.takeWhile_cons_of_neg (Bool.eq_false_iff.mp hc),
        List.append_nil]
    have hdrop : (token ++ c :: rest).drop 6 = behind := by
      rw [← hbehind]
      rfl
    have hhead : ∀ d, behind.head? = some d → isPlain d = false := by
      intro d hd
      rw [hdrop, hd] at hspace
      exact isPlain_of_separator (by rw [isSeparator, show isSpace d = true from hspace, Bool.or_true])
    have hword : ("import".toList ++ behind).takeWhile isPlain = "import".toList := by
      rw [List.takeWhile_append_of_pos (List.all_eq_true.mp (by decide))]
      cases behind with
      | nil => rfl
      | cons d behind =>
        rw [List.takeWhile_cons_of_neg (Bool.eq_false_iff.mp (hhead d rfl)), List.append_nil]
    rw [hbehind, htake] at hword
    subst hword
    refine ⟨rfl, ?_⟩
    obtain rfl := List.append_cancel_left hbehind
    rw [hdrop] at hspace
    exact hspace
  · rintro ⟨rfl, hspace⟩
    rw [isImport, Bool.and_eq_true]
    exact ⟨by rw [List.isPrefixOf_iff_prefix]; exact ⟨_, rfl⟩, hspace⟩

theorem isImport_header (hplain : ∀ token ∈ addresses, ∀ c ∈ token.toList, isPlain c = true)
    (hsome : addresses ≠ []) (hnot : addresses ≠ ["import"]) :
    isImport (joined addresses ++ [' '] ++ ['{']) = false := by
  rw [Bool.eq_false_iff, Ne, List.append_assoc]
  intro h
  match addresses with
  | [] => exact hsome rfl
  | [token] =>
    rw [joined_singleton] at h
    have htoken := (isImport_append (hplain token (List.mem_singleton_self token)) (by decide)).mp h
    exact hnot (congrArg (fun word => [word]) (String.toList_inj.mp htoken.1))
  | token :: next :: rest =>
    rw [joined_cons_cons, List.append_assoc] at h
    have htoken := (isImport_append (hplain token (List.mem_cons_self ..)) (by decide)).mp h
    exact absurd htoken.2 (by decide)

theorem isSpace_of_isSnippetName {text : List Char} (h : isSnippetName text = true) :
    ∀ c ∈ text, isSpace c = false := by
  rw [isSnippetName.eq_def] at h
  split at h
  · rename_i rest
    simp only [Bool.and_eq_true, beq_iff_eq, List.all_eq_true, Bool.not_eq_true'] at h
    obtain ⟨⟨hlast, -⟩, hmiddle⟩ := h
    obtain ⟨middle, rfl⟩ := List.getLast?_eq_some_iff.mp hlast
    rw [List.dropLast_concat] at hmiddle
    intro c hc
    obtain rfl | hc := List.mem_cons.mp hc
    · rfl
    · obtain hc | hc := List.mem_append.mp hc
      · exact (hmiddle c hc).2
      · rw [List.mem_singleton.mp hc]
        rfl
  · cases h

theorem isSnippetName_joined (hsnippet : ∀ token, addresses = [token] →
      isSnippetName token.toList = false) :
    isSnippetName (joined addresses) = false := by
  match addresses with
  | [] => rfl
  | [token] =>
    rw [joined_singleton]
    exact hsnippet token rfl
  | token :: next :: rest =>
    rw [Bool.eq_false_iff, joined_cons_cons]
    intro h
    have hblank := isSpace_of_isSnippetName h ' ' (by simp)
    exact absurd hblank (by decide)

theorem rdropWhile_header (addresses : List String) :
    ((siteHeader addresses).toList).rdropWhile isSpace = joined addresses ++ [' '] ++ ['{'] := by
  have hline : (siteHeader addresses).toList = joined addresses ++ [' '] ++ ['{'] := by
    rw [toList_siteHeader, List.append_assoc]
    rfl
  rw [hline, List.rdropWhile_concat_neg _ _ _ (by decide)]

theorem topLevel_of_headerKept (h : HeaderKept addresses)
    (hne : ∀ token ∈ addresses, token.toList ≠ []) (hsome : addresses ≠ []) :
    isNeutral (siteHeader addresses) = false ∧
      topLevel (siteHeader addresses) = .block (some addresses) := by
  obtain ⟨⟨c, rest, hfirst, hc⟩, front, d, hlast, hd⟩ := exists_joined h.plain hne hsome
  have hline : (siteHeader addresses).toList = c :: (rest ++ [' ', '{']) := by
    rw [toList_siteHeader, hfirst]
    rfl
  have hspace : isSpace c = false := isSpace_of_isPlain hc
  have htrim : (trim (siteHeader addresses)).toList = (siteHeader addresses).toList := by
    rw [trim, String.toList_ofList, hline,
      List.dropWhile_cons_of_neg (by rw [hspace]; exact Bool.false_ne_true), ← hline,
      rdropWhile_header, toList_siteHeader, List.append_assoc]
    rfl
  have hstart : ∀ mark : Char, c ≠ mark → startsWith (siteHeader addresses) (String.singleton mark) =
      false := by
    intro mark hmark
    rw [startsWith, hline, String.toList_singleton, List.isPrefixOf, beq_false_of_ne hmark.symm]
    rfl
  constructor
  · have hcomment : c ≠ '#' := by
      rintro rfl
      have hkept := h.noComment
      rw [hline, withoutComment, uncommented] at hkept
      cases hkept
    have hmark := hstart '#' hcomment
    rw [isNeutral, Bool.or_eq_false_iff]
    rw [← String.toList_inj.mp htrim] at hmark
    refine ⟨beq_false_of_ne fun hempty => ?_, hmark⟩
    rw [hempty, hline] at htrim
    cases htrim
  · have hblank : startsWith (siteHeader addresses) " " = false :=
      hstart ' ' (by rintro rfl; exact absurd hspace (by decide))
    have htab : startsWith (siteHeader addresses) "\t" = false :=
      hstart '\t' (by rintro rfl; exact absurd hspace (by decide))
    rw [topLevel, hblank, htab]
    refine (if_neg Bool.false_ne_true).trans ?_
    have htrimmed := trimChars_joined h.plain hne hsome
    have htext : (withoutComment (siteHeader addresses).toList).rdropWhile isSpace =
        joined addresses ++ [' '] ++ ['{'] := by
      rw [h.noComment, rdropWhile_header]
    refine classifyTopLevel_of_head htext (isImport_header h.plain hsome h.notImport) ?_ ?_ ?_ ?_ ?_
      hsome
    · rw [List.getLast?_concat]
      rfl
    · rw [htrimmed, hfirst]
      exact List.cons_ne_nil _ _
    · rw [htrimmed]
      exact isSnippetName_joined h.notSnippet
    · rw [htrimmed, hlast, List.getLast?_concat]
      rintro ⟨⟩
      exact absurd hd (by decide)
    · rw [htrimmed, addressTokens, addressTokens_joined h.plain hne hsome, Option.map_some,
        List.map_map]
      refine congrArg some ((List.map_congr_left fun token _ => ?_).trans (List.map_id _))
      exact String.ofList_toList

theorem tokensFrom_of_addressTokens (h : addressTokens text = some addresses) :
    tokensFrom none [] text = some (addresses.map String.toList) := by
  obtain ⟨tokens, htokens, rfl⟩ := Option.map_eq_some_iff.mp h
  rw [htokens, List.map_map]
  refine congrArg some ((List.map_congr_left fun token _ => ?_).trans (List.map_id _)).symm
  exact String.toList_ofList

theorem trimChars_sublist (text : List Char) : (trimChars text).Sublist text :=
  (List.rdropWhile_prefix isSpace _).sublist.trans (List.dropWhile_suffix isSpace).sublist

theorem classifyTopLevel_of_topLevel {site : Option (List String)}
    (h : topLevel line = .block site) : classifyTopLevel line = .block site := by
  rw [topLevel] at h
  split at h
  · cases h
  · exact h

/-- A site block has addresses, none of which is empty. -/
theorem ne_nil_of_topLevel (h : topLevel line = .block (some addresses)) :
    addresses ≠ [] ∧ ∀ token ∈ addresses, token.toList ≠ [] := by
  obtain ⟨head, -, -, -, haddresses, hsome⟩ :=
    classifyTopLevel_eq_site (classifyTopLevel_of_topLevel h)
  exact ⟨hsome, fun token htoken => ne_nil_of_tokensFrom (tokensFrom_of_addressTokens haddresses) _
    (List.mem_map_of_mem htoken)⟩

theorem mem_of_tokensFrom (h : tokensFrom quote current text = some tokens) :
    ∀ c ∈ tokens.flatten, c ∈ current ∨ c ∈ text := by
  fun_induction tokensFrom generalizing tokens with
  | case1 => cases h
  | case2 =>
    obtain rfl := Option.some.inj h
    rw [flatten_flush]
    exact fun c hc => Or.inl hc
  | case3 _ _ _ ih =>
    exact fun c hc => (ih h c hc).imp_right (List.mem_cons_of_mem _)
  | case4 _ _ _ _ _ ih => exact fun c hc => mem_push (ih h c hc)
  | case5 _ _ _ _ ih =>
    exact fun c hc => (ih h c hc).imp_right (List.mem_cons_of_mem _)
  | case6 _ _ _ _ _ ih =>
    obtain ⟨others, hothers, rfl⟩ := Option.map_eq_some_iff.mp h
    intro c hc
    rw [List.flatten_append, flatten_flush] at hc
    obtain hc | hc := List.mem_append.mp hc
    · exact Or.inl hc
    · exact Or.inr (List.mem_cons_of_mem _ ((ih hothers c hc).resolve_left List.not_mem_nil))
  | case7 _ _ _ _ _ ih => exact fun c hc => mem_push (ih h c hc)

/-- The characters of an address are characters of the line. -/
theorem mem_line_of_mem_address (h : topLevel line = .block (some addresses)) {token : String}
    (htoken : token ∈ addresses) {c : Char} (hc : c ∈ token.toList) : c ∈ line.toList := by
  obtain ⟨head, htext, -, -, haddresses, -⟩ :=
    classifyTopLevel_eq_site (classifyTopLevel_of_topLevel h)
  have hmem := mem_of_tokensFrom (tokensFrom_of_addressTokens haddresses) c
    (List.mem_flatten_of_mem (List.mem_map_of_mem htoken) hc)
  have hhead : c ∈ head := (trimChars_sublist head).subset (hmem.resolve_left List.not_mem_nil)
  have hkept : c ∈ withoutComment line.toList := by
    refine (List.rdropWhile_prefix isSpace _).subset ?_
    rw [htext]
    exact List.mem_append_left _ hhead
  obtain heq | ⟨rest, hrest⟩ := uncommented_cases none true line.toList
  · rwa [withoutComment, heq] at hkept
  · rw [hrest]
    exact List.mem_append_left _ hkept

/-- A comment in the line would take a character of an address or the brace. -/
theorem noComment_of_tokens
    (htext : (withoutComment (siteHeader addresses).toList).rdropWhile isSpace = head ++ ['{'])
    (htokens : tokensFrom none [] (trimChars head) = some (addresses.map String.toList)) :
    withoutComment (siteHeader addresses).toList = (siteHeader addresses).toList := by
  refine (uncommented_cases none true (siteHeader addresses).toList).resolve_right ?_
  rintro ⟨rest, hrest⟩
  -- the plain characters of the addresses are all in front of the number sign
  have houtside : ∀ q, (none : Option Char) = some q → isAddressQuote q = true := nofun
  have hkept := countP_isPlain_tokensFrom houtside htokens
  rw [← countP_joined (by decide) (by decide), List.countP_nil, Nat.zero_add] at hkept
  have htrimmed : (trimChars head).countP isPlain ≤ head.countP isPlain :=
    (trimChars_sublist head).countP_le
  have hfront : (head ++ ['{']).countP isPlain ≤
      (withoutComment (siteHeader addresses).toList).countP isPlain := by
    rw [← htext]
    exact (List.rdropWhile_prefix isSpace _).sublist.countP_le
  have hline : (siteHeader addresses).toList.countP isPlain = (joined addresses).countP isPlain + 1 := by
    rw [toList_siteHeader, List.countP_append]
    rfl
  have hsplit : (siteHeader addresses).toList.countP isPlain =
      (withoutComment (siteHeader addresses).toList).countP isPlain + ('#' :: rest).countP isPlain := by
    rw [← List.countP_append]
    exact congrArg (List.countP isPlain) hrest
  have hmark : ('#' :: rest).countP isPlain = rest.countP isPlain + 1 :=
    List.countP_cons_of_pos (by decide)
  rw [List.countP_append, show ['{'].countP isPlain = 1 from rfl] at hfront
  omega

/-- Nothing in the tokens was a quote or a separator. -/
theorem isPlain_of_tokens
    (htokens : tokensFrom none [] (trimChars (joined addresses ++ [' '])) =
      some (addresses.map String.toList)) :
    ∀ token ∈ addresses, ∀ c ∈ token.toList, isPlain c = true := by
  have hjoined := countP_joined (p := isAddressQuote) (by decide) (by decide) addresses
  have hle : (trimChars (joined addresses ++ [' '])).countP isAddressQuote ≤
      (joined addresses).countP isAddressQuote := by
    refine Nat.le_trans (trimChars_sublist _).countP_le ?_
    rw [List.countP_append]
    exact Nat.le_refl _
  have hnone : ∀ c ∈ trimChars (joined addresses ++ [' ']), isAddressQuote c = false := by
    intro c hc
    by_contra hquote
    have hlost := countP_isAddressQuote_lt htokens ⟨c, hc, Bool.not_eq_false _ ▸ hquote⟩
    rw [List.countP_nil, Nat.zero_add] at hlost
    omega
  have hquotes : ((addresses.map String.toList).flatten).countP isAddressQuote = 0 := by
    have hkept := countP_isAddressQuote_tokensFrom htokens
    have hzero : (trimChars (joined addresses ++ [' '])).countP isAddressQuote = 0 :=
      List.countP_eq_zero.mpr fun c hc => Bool.eq_false_iff.mp (hnone c hc)
    rw [hzero, List.countP_nil] at hkept
    exact Nat.le_zero.mp hkept
  have hseparators := isSeparator_of_tokensFrom htokens hnone (List.forall_mem_nil _)
  intro token htoken c hc
  have hmem : token.toList ∈ addresses.map String.toList := List.mem_map_of_mem htoken
  have hquote : isAddressQuote c = false :=
    Bool.eq_false_iff.mpr (List.countP_eq_zero.mp hquotes c (List.mem_flatten_of_mem hmem hc))
  rw [isPlain, hquote, hseparators _ hmem c hc]
  rfl

/-- The new first line is that of the block's addresses just where they are kept. -/
theorem headerKept_iff (hne : ∀ token ∈ addresses, token.toList ≠ []) (hsome : addresses ≠ []) :
    (isNeutral (siteHeader addresses) = false ∧
      topLevel (siteHeader addresses) = .block (some addresses)) ↔ HeaderKept addresses := by
  constructor
  · rintro ⟨-, htop⟩
    rw [topLevel] at htop
    split at htop
    · cases htop
    · obtain ⟨head, htext, himport, hsnippet, haddresses, -⟩ := classifyTopLevel_eq_site htop
      have htokens := tokensFrom_of_addressTokens haddresses
      have hcomment := noComment_of_tokens htext htokens
      rw [hcomment, rdropWhile_header] at htext
      obtain rfl := List.append_cancel_right htext
      have hplain := isPlain_of_tokens htokens
      refine ⟨hplain, hcomment, ?_, ?_⟩
      · rintro rfl
        exact absurd himport (by decide)
      · rintro token rfl
        rwa [trimChars_joined hplain hne hsome, joined_singleton] at hsnippet
  · exact fun h => topLevel_of_headerKept h hne hsome

end Turbopaneld.Deploy.Caddy
