/-
# Reading rule lines back

`fold.ts` reads the live forward chain before it removes the legacy one.  A flag's argument is
the first that looks like one anywhere in the line, and the comment of a rule stands inside its
line: what is read is what was rendered exactly when the comment does not name a flag of which
the line has none in front of it.
-/

import Turbopaneld.Firewall.Lines

namespace Turbopaneld.Firewall

open JavaScript
open DockerGate (Json)

structure ParsedRule where
  chain : String
  source : Option String
  dest : Option String
  port : Option String
  target : String
deriving DecidableEq, Repr

/-- `flag (\S+)` at the start of a text. -/
def argumentOf (flag : String) (text : List Char) : Option String :=
  if (flag.toList ++ [' ']).isPrefixOf text then
    let word := (text.drop (flag.toList.length + 1)).takeWhile fun c => !isSpace c
    if word = [] then none else some (String.ofList word)
  else none

/-- ` flag (\S+)` anywhere in a text, the first time. -/
def searchArgument (flag : String) : List Char → Option String
  | [] => none
  | c :: rest =>
    if c = ' ' then (argumentOf flag rest).or (searchArgument flag rest)
    else searchArgument flag rest

/-- `(?:^| )flag (\S+)`. -/
def field (line flag : String) : Option String :=
  (argumentOf flag line.toList).or (searchArgument flag line.toList)

/-- Parse one `iptables -S` rule line; `none` for chain declarations and others. -/
def parseRuleLine (line : String) : Option ParsedRule := do
  let chain ← argumentOf "-A" (trim line).toList
  let target ← field line "-j"
  some
    { chain
      source := field line "-s"
      dest := field line "--ctorigdst"
      port := field line "--ctorigdstport"
      target }

/-! ## Words -/

/-- The word behind the first `flag` that has one. -/
def wordBehind (flag : String) : List String → Option String
  | word :: next :: rest =>
    if word = flag ∧ next ≠ "" then some next else wordBehind flag (next :: rest)
  | _ => none

/-- The words of a text, with nothing taken from the spaces between them. -/
def spaced (text : List Char) : List String := (text.splitOn ' ').map String.ofList

theorem spaced_of_notMem {text : List Char} (h : ' ' ∉ text) : spaced text = [String.ofList text] := by
  rw [spaced, List.splitOn_eq_singleton h]
  rfl

theorem spaced_append_cons {front : List Char} (h : ' ' ∉ front) (back : List Char) :
    spaced (front ++ ' ' :: back) = String.ofList front :: spaced back := by
  rw [spaced, List.splitOn_append_cons_self_of_not_mem h]
  rfl

/-- The characters of a line that has no blank but the space. -/
def Spaced (text : List Char) : Prop := ∀ c ∈ text, isSpace c = true → c = ' '

section

variable {flag : String} {front back text : List Char}

/-- A text starts with its first word. -/
theorem exists_spaced_eq (htext : Spaced text) :
    ∃ rest, spaced text = String.ofList (text.takeWhile fun c => !isSpace c) :: rest := by
  have htake : ∀ {word : List Char}, Spaced word → ' ' ∉ word → ∀ rest : List Char,
      (word ++ rest).takeWhile (fun c => !isSpace c) =
        word ++ rest.takeWhile fun c => !isSpace c := by
    intro word hword hspace rest
    refine List.takeWhile_append_of_pos fun c hc => ?_
    rw [Bool.not_eq_true', Bool.eq_false_iff]
    intro hblank
    exact hspace (hword c hc hblank ▸ hc)
  by_cases hmem : ' ' ∈ text
  · obtain ⟨word, rest, rfl, hword⟩ := List.eq_append_cons_of_mem hmem
    have hfirst := htake (fun c hc => htext c (List.mem_append_left _ hc)) hword (' ' :: rest)
    rw [List.takeWhile_cons_of_neg (by decide), List.append_nil] at hfirst
    exact ⟨spaced rest, by rw [spaced_append_cons hword, hfirst]⟩
  · have hfirst := htake htext hmem []
    rw [List.takeWhile_nil, List.append_nil] at hfirst
    exact ⟨[], by rw [spaced_of_notMem hmem, hfirst]⟩

theorem argumentOf_of_notMem (h : ' ' ∉ text) : argumentOf flag text = none := by
  rw [argumentOf, if_neg]
  intro hstarts
  obtain ⟨rest, rfl⟩ := List.isPrefixOf_iff_prefix.mp hstarts
  exact h (by simp)

theorem searchArgument_of_notMem (h : ' ' ∉ text) : searchArgument flag text = none := by
  induction text with
  | nil => rfl
  | cons c text ih =>
    obtain ⟨hc, htext⟩ := not_or.mp (List.mem_cons.not.mp h)
    rw [searchArgument, if_neg (Ne.symm hc), ih htext]

theorem searchArgument_append_cons (h : ' ' ∉ front) :
    searchArgument flag (front ++ ' ' :: back) =
      (argumentOf flag back).or (searchArgument flag back) := by
  induction front with
  | nil => rw [List.nil_append, searchArgument, if_pos rfl]
  | cons c front ih =>
    obtain ⟨hc, hfront⟩ := not_or.mp (List.mem_cons.not.mp h)
    rw [List.cons_append, searchArgument, if_neg (Ne.symm hc), ih hfront]

/-- Before a space, a flag is the whole word. -/
theorem argumentOf_append_cons (hflag : ' ' ∉ flag.toList) (h : ' ' ∉ front) :
    argumentOf flag (front ++ ' ' :: back) =
      if String.ofList front = flag ∧ (back.takeWhile fun c => !isSpace c) ≠ [] then
        some (String.ofList (back.takeWhile fun c => !isSpace c))
      else none := by
  have hstarts : (flag.toList ++ [' ']).isPrefixOf (front ++ ' ' :: back) = true ↔
      String.ofList front = flag := by
    rw [List.isPrefixOf_iff_prefix]
    constructor
    · rintro ⟨rest, hrest⟩
      have hsplit := congrArg (List.splitOn ' ') hrest
      rw [List.append_assoc, List.singleton_append,
        List.splitOn_append_cons_self_of_not_mem hflag,
        List.splitOn_append_cons_self_of_not_mem h] at hsplit
      rw [← (List.cons.inj hsplit).1, String.ofList_toList]
    · rintro rfl
      exact ⟨back, by simp⟩
  rw [argumentOf]
  by_cases hsame : String.ofList front = flag
  · have hdrop : (front ++ ' ' :: back).drop (flag.toList.length + 1) = back := by
      rw [← hsame, String.toList_ofList, List.drop_append]
      simp
    rw [if_pos (hstarts.mpr hsame), hdrop]
    by_cases hword : (back.takeWhile fun c => !isSpace c) = []
    · rw [if_pos hword, if_neg fun h' => h'.2 hword]
    · rw [if_neg hword, if_pos ⟨hsame, hword⟩]
  · rw [if_neg (hstarts.not.mpr hsame), if_neg fun h' => hsame h'.1]

/-- A flag's argument is the word behind it. -/
theorem argument_eq_wordBehind (hflag : ' ' ∉ flag.toList) (htext : Spaced text) :
    (argumentOf flag text).or (searchArgument flag text) = wordBehind flag (spaced text) := by
  induction hlength : text.length using Nat.strong_induction_on generalizing text with
  | _ length ih =>
    by_cases hmem : ' ' ∈ text
    · obtain ⟨front, back, rfl, hfront⟩ := List.eq_append_cons_of_mem hmem
      have hback : Spaced back := fun c hc =>
        htext c (List.mem_append_right _ (List.mem_cons_of_mem _ hc))
      have hshorter : back.length < length := by
        rw [← hlength, List.length_append, List.length_cons]
        omega
      have hrest := ih back.length hshorter hback rfl
      obtain ⟨others, hothers⟩ := exists_spaced_eq hback
      rw [argumentOf_append_cons hflag hfront, searchArgument_append_cons hfront, hrest,
        spaced_append_cons hfront, hothers, wordBehind]
      have hempty : String.ofList (back.takeWhile fun c => !isSpace c) ≠ "" ↔
          (back.takeWhile fun c => !isSpace c) ≠ [] := by
        rw [ne_eq, ne_eq, ← String.toList_inj, String.toList_ofList, String.toList_empty]
      simp only [hempty]
      split_ifs <;> rfl
    · rw [argumentOf_of_notMem hmem, searchArgument_of_notMem hmem, spaced_of_notMem hmem]
      rfl

/-- A text whose first word is the flag has its second as the argument. -/
theorem argumentOf_of_spaced (hflag : ' ' ∉ flag.toList) (htext : Spaced text) {next : String}
    {rest : List String} (hwords : spaced text = flag :: next :: rest) (hnext : next ≠ "") :
    argumentOf flag text = some next := by
  by_cases hmem : ' ' ∈ text
  · obtain ⟨front, back, rfl, hfront⟩ := List.eq_append_cons_of_mem hmem
    obtain ⟨others, hothers⟩ := exists_spaced_eq fun c (hc : c ∈ back) =>
      htext c (List.mem_append_right _ (List.mem_cons_of_mem _ hc))
    rw [spaced_append_cons hfront, hothers] at hwords
    obtain ⟨hfirst, hwords⟩ := List.cons.inj hwords
    obtain ⟨hsecond, -⟩ := List.cons.inj hwords
    have hne : (back.takeWhile fun c => !isSpace c) ≠ [] := by
      intro hnil
      rw [hnil] at hsecond
      exact hnext hsecond.symm
    rw [argumentOf_append_cons hflag hfront, if_pos ⟨hfirst, hne⟩, hsecond]
  · rw [spaced_of_notMem hmem] at hwords
    cases hwords

end

theorem field_eq_wordBehind {flag line : String} (hflag : ' ' ∉ flag.toList)
    (hline : Spaced line.toList) : field line flag = wordBehind flag (split ' ' line) :=
  argument_eq_wordBehind hflag hline

/-! ## The words of a published line -/

/-- The text falls into these words at its spaces, and has no other blanks. -/
structure FallsInto (text : String) (words : List String) : Prop where
  text_ne : text ≠ ""
  words_eq : split ' ' text = words
  spaced : Spaced text.toList

theorem FallsInto.append {text other : String} {values others : List String}
    (h : FallsInto text values) (h' : FallsInto other others) :
    FallsInto (text ++ " " ++ other) (values ++ others) where
  text_ne := by
    intro hempty
    have hchars := congrArg String.toList hempty
    rw [String.toList_append, String.toList_empty, List.append_eq_nil_iff] at hchars
    exact h'.text_ne (String.toList_inj.mp hchars.2)
  words_eq := by
    have hjoined := split_append ' ' text other
    rw [h.words_eq, h'.words_eq] at hjoined
    exact hjoined
  spaced := by
    rw [Spaced, String.toList_append, String.toList_append, List.forall_mem_append,
      List.forall_mem_append]
    exact ⟨⟨h.spaced, List.forall_mem_singleton.mpr fun _ => rfl⟩, h'.spaced⟩

theorem FallsInto.ne_nil {text : String} {values : List String} (h : FallsInto text values) :
    values ≠ [] := by
  intro hnil
  have hsplit := h.words_eq
  rw [hnil, split, List.map_eq_nil_iff] at hsplit
  exact List.splitOn_ne_nil _ _ hsplit

theorem readsWords_fallsInto : ReadsWords FallsInto :=
  ⟨FallsInto.append, FallsInto.text_ne, FallsInto.ne_nil⟩

theorem fallsInto_word {text : String} (hne : text ≠ "")
    (h : ∀ c ∈ text.toList, isSpace c = false) : FallsInto text [text] where
  text_ne := hne
  words_eq := by
    refine split_of_notMem fun hmem => ?_
    exact absurd (h _ hmem) (by decide)
  spaced := fun c hc hblank => by
    rw [h c hc] at hblank
    cases hblank

theorem fallsInto_closed {text : String} (hne : text ≠ "")
    (h : (text.toList.all fun c => !isSpace c) = true) : FallsInto text [text] := by
  refine fallsInto_word hne fun c hc => ?_
  have hchar := List.all_eq_true.mp h c hc
  rwa [Bool.not_eq_true'] at hchar

/-- Nothing is trimmed from a line that neither starts nor ends with an empty word. -/
theorem FallsInto.trim_eq {text : String} {values : List String} (h : FallsInto text values)
    (hfirst : values.head? ≠ some "") (hlast : values.getLast? ≠ some "") : trim text = text := by
  have hfront : text.toList.dropWhile isSpace = text.toList := by
    rw [List.dropWhile_eq_self_iff]
    intro hpos hblank
    apply hfirst
    rw [← h.words_eq]
    obtain ⟨c, rest, hchars⟩ := List.exists_cons_of_length_pos hpos
    have hc : c = ' ' := by
      apply h.spaced c (by simp [hchars])
      simpa [hchars] using hblank
    rw [split, hchars, hc, ← List.nil_append (' ' :: rest),
      List.splitOn_append_cons_self_of_not_mem List.not_mem_nil]
    rfl
  have hback : text.toList.rdropWhile isSpace = text.toList := by
    rw [List.rdropWhile_eq_self_iff]
    intro hne hblank
    apply hlast
    rw [← h.words_eq]
    have hc := h.spaced _ (List.getLast_mem hne) hblank
    have hchars := List.dropLast_append_getLast hne
    rw [hc] at hchars
    rw [split, ← hchars, List.splitOn_append_cons_self]
    simp
  rw [trim, hfront, hback, String.ofList_toList]

theorem isSpace_of_isLiteralChar {c : Char} (h : isLiteralChar c = true) : isSpace c = false := by
  rw [isLiteralChar, Bool.or_eq_true, Bool.or_eq_true, Bool.or_eq_true] at h
  rcases h with ((h | h) | h) | h
  · exact isSpace_of_isHexDigit h
  all_goals
    rw [beq_iff_eq] at h
    rw [h]
    decide

theorem IsLiteral.fallsInto {text : String} (h : IsLiteral text) : FallsInto text [text] :=
  fallsInto_word h.1 fun c hc => isSpace_of_isLiteralChar (h.2 c hc)

/-- The only blank of a comment is the space. -/
theorem eq_space_of_isCommentChar {c : Char} (h : isCommentChar c = true)
    (hblank : isSpace c = true) : c = ' ' := by
  have hcode : c.toNat < 128 := by
    simp only [isCommentChar, isLetter, isLower, isDigit, Bool.or_eq_true, Bool.and_eq_true,
      decide_eq_true_eq, beq_iff_eq] at h
    rcases h with (((((((⟨-, hle⟩ | ⟨-, hle⟩) | ⟨-, hle⟩) | rfl) | rfl) | rfl) | rfl) | rfl) | rfl
    case inr => decide
    all_goals first | decide | exact lt_of_le_of_lt (show c.toNat ≤ _ from hle) (by decide)
  have hall : ∀ n < 128, isCommentChar (Char.ofNat n) = true → isSpace (Char.ofNat n) = true →
      Char.ofNat n = ' ' := by
    decide
  have hchar := hall c.toNat hcode
  rw [Char.ofNat_toNat] at hchar
  exact hchar h hblank

/-- The words of a rule's comment as it stands in a line, the quotes included. -/
def commentWords (rule : FirewallRule) : List String :=
  split ' ' ("\"" ++ commentText rule ++ "\"")

theorem fallsInto_quoted {rule : FirewallRule} (hrule : rule.WellFormed) :
    FallsInto ("\"" ++ commentText rule ++ "\"") (commentWords rule) where
  text_ne := by
    intro hempty
    have hchars := congrArg String.toList hempty
    simp only [String.toList_append] at hchars
    cases hchars
  words_eq := rfl
  spaced := by
    have hquote : ∀ c ∈ "\"".toList, isSpace c = true → c = ' ' :=
      List.forall_mem_singleton.mpr fun h => absurd h (by decide)
    rw [Spaced, String.toList_append, String.toList_append, List.forall_mem_append,
      List.forall_mem_append]
    exact ⟨⟨hquote, fun c hc =>
      eq_space_of_isCommentChar (isCommentChar_of_mem_commentText hrule c hc)⟩, hquote⟩

theorem fallsInto_comment {text : String} {words : List String}
    (h : FallsInto ("\"" ++ text ++ "\"") words) :
    FallsInto ("-m comment --comment \"" ++ text ++ "\"")
      (["-m", "comment", "--comment"] ++ words) := by
  have hm : FallsInto "-m" ["-m"] := fallsInto_closed (by decide) (by decide)
  have hmodule : FallsInto "comment" ["comment"] := fallsInto_closed (by decide) (by decide)
  have hflag : FallsInto "--comment" ["--comment"] := fallsInto_closed (by decide) (by decide)
  rw [comment_eq]
  exact (hm.append hmodule).append (hflag.append h)

theorem fallsInto_argument (range : PortRange) : FallsInto range.argument [range.argument] := by
  have hdigits : ∀ n : ℕ, ∀ c ∈ (toString n).toList, isSpace c = false := fun n c hc =>
    isSpace_of_isHexDigit (isHexDigit_of_isDigit (isDigit_of_mem_toString n c hc))
  refine fallsInto_word (shows_argument range).text_ne ?_
  rw [PortRange.argument]
  split_ifs
  · exact hdigits _
  · rw [String.toList_append, String.toList_append, List.forall_mem_append, List.forall_mem_append]
    exact ⟨⟨hdigits _, List.forall_mem_singleton.mpr (by decide)⟩, hdigits _⟩

theorem fallsInto_flag {flag argument : String} (hflag : FallsInto flag [flag])
    (hargument : FallsInto argument [argument]) :
    FallsInto (flag ++ " " ++ argument) [flag, argument] :=
  hflag.append hargument

/-- The words that match the port and the address a connection was made to. -/
def conntrackWords (rule : FirewallRule) (dest : Option String) : List String :=
  let words := option "--ctorigdstport" ((portRange rule).map PortRange.argument) ++
    option "--ctorigdst" dest
  if words = [] then [] else ["-m", "conntrack"] ++ words

theorem part_publishedMatchArgs (rule : FirewallRule) {dest : Option String}
    (hdest : ∀ text ∈ dest, IsLiteral text) :
    Part FallsInto (some (publishedMatchArgs rule dest)) (conntrackWords rule dest) := by
  have hm : FallsInto "-m" ["-m"] := fallsInto_closed (by decide) (by decide)
  have hmodule : FallsInto "conntrack" ["conntrack"] := fallsInto_closed (by decide) (by decide)
  have hport : FallsInto "--ctorigdstport" ["--ctorigdstport"] :=
    fallsInto_closed (by decide) (by decide)
  have hdestination : FallsInto "--ctorigdst" ["--ctorigdst"] :=
    fallsInto_closed (by decide) (by decide)
  rw [publishedMatchArgs, conntrackWords]
  cases portRange rule with
  | none =>
    cases dest with
    | none => exact .empty
    | some text =>
      exact .shown ((fallsInto_flag hm hmodule).append
        (fallsInto_flag hdestination (hdest text rfl).fallsInto))
  | some range =>
    have hrange := fallsInto_flag hport (fallsInto_argument range)
    cases dest with
    | none => exact .shown ((fallsInto_flag hm hmodule).append hrange)
    | some text =>
      exact .shown ((fallsInto_flag hm hmodule).append
        (hrange.append (fallsInto_flag hdestination (hdest text rfl).fallsInto)))

/-- The words of a published line. -/
def publishedWords (rule : FirewallRule) (line : PublishedLine) : List (List String) :=
  [["-A", "TP-FWD"], option "-s" line.source,
    if rule.proto = .any then [] else ["-p", rule.proto.text], conntrackWords rule line.dest,
    ["-m", "comment", "--comment"] ++ commentWords rule, "-j" :: split ' ' line.target]

/-- The line as it is written. -/
def PublishedLine.text (rule : FirewallRule) (line : PublishedLine) : String :=
  publishedLine rule line.dest line.source line.target

/-- The targets of rules. -/
def targetTexts : List String :=
  ["ACCEPT", "RETURN", "DROP", "REJECT --reject-with tcp-reset",
    "REJECT --reject-with icmp-port-unreachable", "REJECT --reject-with icmp6-port-unreachable"]

theorem targetFor_mem (rule : FirewallRule) (family : FirewallFamily) :
    targetFor rule family ∈ targetTexts := by
  rw [targetFor]
  cases rule.action with
  | accept => simp [targetTexts]
  | drop => simp [targetTexts]
  | reject =>
    dsimp only
    split_ifs <;> simp [targetTexts]

/-- What a line of a rule is rendered from. -/
structure PublishedLine.Renders (line : PublishedLine) : Prop where
  dest : ∀ text ∈ line.dest, IsLiteral text
  source : ∀ text ∈ line.source, IsLiteral text
  target : line.target ∈ targetTexts

theorem renders_of_mem_publishedLines {rule : FirewallRule} (hrule : rule.WellFormed)
    {family : FirewallFamily} {line : PublishedLine} (h : line ∈ publishedLines rule family) :
    line.Renders := by
  obtain ⟨hdest, hsource, htarget⟩ := mem_publishedLines h
  refine ⟨isLiteral_of_mem_destinationsFor hrule hdest, ?_, ?_⟩
  · rcases hsource with hnone | hsource
    · rw [hnone]
      rintro _ ⟨⟩
    · exact isLiteral_of_mem_sourcesFor hrule hsource
  · rcases htarget with htarget | htarget | htarget <;> rw [htarget]
    · simp [targetTexts]
    · simp [targetTexts]
    · exact targetFor_mem rule family

theorem fallsInto_target {target : String} (h : target ∈ targetTexts) :
    FallsInto target (split ' ' target) := by
  have hall : (targetTexts.all fun text =>
      text != "" && text.toList.all fun c => c == ' ' || !isSpace c) = true := by decide
  have htarget := List.all_eq_true.mp hall target h
  rw [Bool.and_eq_true, bne_iff_ne] at htarget
  refine ⟨htarget.1, rfl, fun c hc hblank => ?_⟩
  have hchar := List.all_eq_true.mp htarget.2 c hc
  rw [hblank, Bool.not_true, Bool.or_false, beq_iff_eq] at hchar
  exact hchar

/-- The parts of a published line. -/
def publishedParts (rule : FirewallRule) (line : PublishedLine) : List (Option String) :=
  [some ("-A " ++ firewallForwardChain), line.source.map ("-s " ++ ·), some (protoArgs rule),
    some (publishedMatchArgs rule line.dest), some (commentFor rule), some ("-j " ++ line.target)]

theorem part_publishedParts {rule : FirewallRule} (hrule : rule.WellFormed) {line : PublishedLine}
    (hline : line.Renders) :
    List.Forall₂ (Part FallsInto) (publishedParts rule line) (publishedWords rule line) := by
  have hchain : FallsInto ("-A" ++ " " ++ "TP-FWD") ["-A", "TP-FWD"] :=
    fallsInto_flag (fallsInto_closed (by decide) (by decide))
      (fallsInto_closed (by decide) (by decide))
  have hs : FallsInto "-s" ["-s"] := fallsInto_closed (by decide) (by decide)
  have hj : FallsInto "-j" ["-j"] := fallsInto_closed (by decide) (by decide)
  have hproto := part_protoArgs readsWords_fallsInto rule
    (fallsInto_closed (by decide) (by decide)) (fallsInto_closed (by decide) (by decide))
    (fallsInto_closed (by decide) (by decide))
  refine .cons (.shown hchain) ?_
  refine .cons (part_option readsWords_fallsInto hs fun text htext =>
    (hline.source text htext).fallsInto) ?_
  refine .cons hproto (.cons (part_publishedMatchArgs rule hline.dest) ?_)
  exact .cons (.shown (fallsInto_comment (fallsInto_quoted hrule)))
    (.cons (.shown (hj.append (fallsInto_target hline.target))) .nil)

theorem fallsInto_text {rule : FirewallRule} (hrule : rule.WellFormed) {line : PublishedLine}
    (hline : line.Renders) : FallsInto (line.text rule) (publishedWords rule line).flatten := by
  have hreads : FallsInto (joinArgs (publishedParts rule line))
      (publishedWords rule line).flatten :=
    reads_joinArgs readsWords_fallsInto (part_publishedParts hrule hline) (List.cons_ne_nil _ _)
  exact hreads

/-! ## Where a flag is found -/

/-- Words that end otherwise than with the flag are searched on their own. -/
theorem wordBehind_append {flag : String} {words others : List String}
    (h : words.getLast? ≠ some flag) :
    wordBehind flag (words ++ others) = (wordBehind flag words).or (wordBehind flag others) := by
  induction words with
  | nil => rfl
  | cons word words ih =>
    cases words with
    | nil =>
      have hword : word ≠ flag := fun heq => h (congrArg some heq)
      cases others with
      | nil => rfl
      | cons next rest =>
        rw [List.singleton_append, wordBehind, if_neg fun h' => hword h'.1]
        rfl
    | cons next rest =>
      rw [List.getLast?_cons_cons] at h
      rw [List.cons_append, List.cons_append, wordBehind, wordBehind]
      split_ifs
      · rw [Option.some_or]
      · exact ih h

theorem wordBehind_of_notMem {flag : String} {words : List String} (h : flag ∉ words) :
    wordBehind flag words = none := by
  induction words with
  | nil => rfl
  | cons word words ih =>
    obtain ⟨hword, hrest⟩ := not_or.mp (List.mem_cons.not.mp h)
    cases words with
    | nil => rfl
    | cons next rest => rw [wordBehind, if_neg fun h' => hword h'.1.symm, ih hrest]

/-- The flags a line is searched for. -/
def isFlag (flag : String) : Bool :=
  flag = "-s" || flag = "--ctorigdst" || flag = "--ctorigdstport" || flag = "-j"

theorem eq_of_isFlag {flag : String} (h : isFlag flag = true) :
    flag = "-s" ∨ flag = "--ctorigdst" ∨ flag = "--ctorigdstport" ∨ flag = "-j" := by
  simpa [isFlag, or_assoc] using h

/-- An argument is not a flag. -/
theorem ne_of_dash_notMem {flag text : String} (hflag : isFlag flag = true)
    (h : '-' ∉ text.toList) : text ≠ flag := by
  rintro rfl
  rcases eq_of_isFlag hflag with rfl | rfl | rfl | rfl <;> exact absurd h (by decide)

theorem IsLiteral.ne_flag {flag text : String} (h : IsLiteral text) (hflag : isFlag flag = true) :
    text ≠ flag :=
  ne_of_dash_notMem hflag fun hmem => absurd (h.2 _ hmem) (by decide)

theorem argument_ne_flag (range : PortRange) {flag : String} (hflag : isFlag flag = true) :
    range.argument ≠ flag := by
  have hdigits : ∀ n : ℕ, '-' ∉ (toString n).toList := fun n hmem =>
    absurd (isDigit_of_mem_toString n _ hmem) (by decide)
  refine ne_of_dash_notMem hflag ?_
  rw [PortRange.argument]
  split_ifs
  · exact hdigits _
  · rw [String.toList_append, String.toList_append, List.mem_append, List.mem_append]
    exact not_or.mpr ⟨not_or.mpr ⟨hdigits _, by decide⟩, hdigits _⟩

/-- What is put at the end of a text ends its last word. -/
theorem exists_getLast?_split (text : String) {tail : String} (htail : ' ' ∉ tail.toList) :
    ∃ front, (split ' ' (text ++ tail)).getLast? = some (front ++ tail) := by
  by_cases hmem : ' ' ∈ text.toList
  · obtain ⟨front, back, rfl, hback⟩ := exists_of_mem hmem
    have hlast : ' ' ∉ (back ++ tail).toList := by
      rw [String.toList_append, List.mem_append]
      exact not_or.mpr ⟨hback, htail⟩
    refine ⟨back, ?_⟩
    rw [String.append_assoc, split_append, split_of_notMem hlast, List.getLast?_concat]
  · have hlast : ' ' ∉ (text ++ tail).toList := by
      rw [String.toList_append, List.mem_append]
      exact not_or.mpr ⟨hmem, htail⟩
    exact ⟨text, by rw [split_of_notMem hlast, List.getLast?_singleton]⟩

/-- The last word of a comment holds the closing quote, so it is no flag. -/
theorem getLast?_commentWords (rule : FirewallRule) {flag : String} (hflag : isFlag flag = true) :
    (commentWords rule).getLast? ≠ some flag := by
  have hquote : ' ' ∉ "\"".toList := by decide
  obtain ⟨front, hfront⟩ := exists_getLast?_split ("\"" ++ commentText rule) hquote
  rw [commentWords, hfront]
  intro hlast
  have hmem : '"' ∈ flag.toList := by
    rw [← Option.some.inj hlast, String.toList_append]
    exact List.mem_append_right _ (by decide)
  rcases eq_of_isFlag hflag with rfl | rfl | rfl | rfl <;> exact absurd hmem (by decide)

theorem wordBehind_option {flag other : String} {argument : Option String}
    (h : ∀ text ∈ argument, text ≠ "" ∧ text ≠ flag) :
    wordBehind flag (option other argument) = if other = flag then argument else none := by
  cases argument with
  | none => simp [option, wordBehind]
  | some text =>
    rw [option, wordBehind]
    by_cases hsame : other = flag
    · rw [if_pos ⟨hsame, (h text rfl).1⟩, if_pos hsame]
    · rw [if_neg fun h' => hsame h'.1, if_neg hsame]
      rfl

theorem getLast?_option {flag other : String} {argument : Option String}
    (h : ∀ text ∈ argument, text ≠ flag) : (option other argument).getLast? ≠ some flag := by
  cases argument with
  | none => exact Option.some_ne_none flag ∘ Eq.symm
  | some text => exact fun hlast => h text rfl (Option.some.inj hlast)

section

variable {rule : FirewallRule} {line : PublishedLine} {flag : String}

theorem getLast?_conntrackWords (hdest : ∀ text ∈ line.dest, IsLiteral text)
    (hflag : isFlag flag = true) : (conntrackWords rule line.dest).getLast? ≠ some flag := by
  have hport : ∀ text ∈ (portRange rule).map PortRange.argument, text ≠ flag := by
    intro text htext
    obtain ⟨range, -, rfl⟩ := Option.map_eq_some_iff.mp htext
    exact argument_ne_flag range hflag
  rw [conntrackWords]
  cases hd : line.dest with
  | none =>
    cases hp : portRange rule with
    | none => exact Option.some_ne_none flag ∘ Eq.symm
    | some range =>
      exact fun hlast => argument_ne_flag range hflag (Option.some.inj hlast)
  | some text =>
    have hne := (hdest text hd).ne_flag hflag
    cases hp : portRange rule with
    | none => exact fun hlast => hne (Option.some.inj hlast)
    | some range => exact fun hlast => hne (Option.some.inj hlast)

/-- A flag is looked for in the source, the matches, the comment and the jump, in this order. -/
theorem wordBehind_publishedWords (hline : line.Renders) (hflag : isFlag flag = true) :
    wordBehind flag (publishedWords rule line).flatten =
      (wordBehind flag (option "-s" line.source)).or
        ((wordBehind flag (conntrackWords rule line.dest)).or
          ((wordBehind flag (commentWords rule)).or
            (wordBehind flag ("-j" :: split ' ' line.target)))) := by
  have hchain : wordBehind flag ["-A", "TP-FWD"] = none ∧ ["-A", "TP-FWD"].getLast? ≠ some flag := by
    rcases eq_of_isFlag hflag with rfl | rfl | rfl | rfl <;> decide
  have hproto : wordBehind flag (if rule.proto = .any then [] else ["-p", rule.proto.text]) = none ∧
      (if rule.proto = .any then [] else ["-p", rule.proto.text]).getLast? ≠ some flag := by
    cases rule.proto <;> rcases eq_of_isFlag hflag with rfl | rfl | rfl | rfl <;> decide
  have hmodule : wordBehind flag ["-m", "comment", "--comment"] = none ∧
      ["-m", "comment", "--comment"].getLast? ≠ some flag := by
    rcases eq_of_isFlag hflag with rfl | rfl | rfl | rfl <;> decide
  have hsource : (option "-s" line.source).getLast? ≠ some flag :=
    getLast?_option fun text htext => (hline.source text htext).ne_flag hflag
  rw [publishedWords]
  simp only [List.flatten_cons, List.flatten_nil, List.append_nil, List.append_assoc]
  rw [wordBehind_append hchain.2, wordBehind_append hsource, wordBehind_append hproto.2,
    wordBehind_append (getLast?_conntrackWords hline.dest hflag), wordBehind_append hmodule.2,
    wordBehind_append (getLast?_commentWords rule hflag), hchain.1, hproto.1, hmodule.1]
  simp only [Option.none_or]

theorem wordBehind_conntrackWords (hflag : isFlag flag = true) :
    wordBehind flag (conntrackWords rule line.dest) =
      (wordBehind flag (option "--ctorigdstport" ((portRange rule).map PortRange.argument))).or
        (wordBehind flag (option "--ctorigdst" line.dest)) := by
  have hmodule : wordBehind flag ["-m", "conntrack"] = none ∧
      ["-m", "conntrack"].getLast? ≠ some flag := by
    rcases eq_of_isFlag hflag with rfl | rfl | rfl | rfl <;> decide
  have hport : (option "--ctorigdstport" ((portRange rule).map PortRange.argument)).getLast? ≠
      some flag := by
    refine getLast?_option fun text htext => ?_
    obtain ⟨range, -, rfl⟩ := Option.map_eq_some_iff.mp htext
    exact argument_ne_flag range hflag
  rw [conntrackWords]
  split_ifs with hnone
  · rw [← wordBehind_append hport, hnone]
  · rw [wordBehind_append hmodule.2, hmodule.1, Option.none_or, wordBehind_append hport]

/-- The name of a line's target, without what a reject answers. -/
def PublishedLine.targetName (line : PublishedLine) : String := (split ' ' line.target).headD ""

theorem wordBehind_target (hline : line.Renders) :
    wordBehind "-s" ("-j" :: split ' ' line.target) = none ∧
      wordBehind "--ctorigdst" ("-j" :: split ' ' line.target) = none ∧
        wordBehind "--ctorigdstport" ("-j" :: split ' ' line.target) = none ∧
          wordBehind "-j" ("-j" :: split ' ' line.target) = some line.targetName := by
  have hall : ∀ target ∈ targetTexts, wordBehind "-s" ("-j" :: split ' ' target) = none ∧
      wordBehind "--ctorigdst" ("-j" :: split ' ' target) = none ∧
        wordBehind "--ctorigdstport" ("-j" :: split ' ' target) = none ∧
          wordBehind "-j" ("-j" :: split ' ' target) = some ((split ' ' target).headD "") := by
    simp only [targetTexts, List.forall_mem_cons]
    decide
  exact hall line.target hline.target

theorem argument_conditions (rule : FirewallRule) (hline : line.Renders)
    (hflag : isFlag flag = true) :
    (∀ text ∈ line.source, text ≠ "" ∧ text ≠ flag) ∧
      (∀ text ∈ line.dest, text ≠ "" ∧ text ≠ flag) ∧
        ∀ text ∈ (portRange rule).map PortRange.argument, text ≠ "" ∧ text ≠ flag := by
  refine ⟨fun text htext => ?_, fun text htext => ?_, fun text htext => ?_⟩
  · exact ⟨(hline.source text htext).1, (hline.source text htext).ne_flag hflag⟩
  · exact ⟨(hline.dest text htext).1, (hline.dest text htext).ne_flag hflag⟩
  · obtain ⟨range, -, rfl⟩ := Option.map_eq_some_iff.mp htext
    exact ⟨(shows_argument range).text_ne, argument_ne_flag range hflag⟩

/-- What is found for each flag. -/
theorem field_text (hrule : rule.WellFormed) (hline : line.Renders) (hflag : isFlag flag = true) :
    field (line.text rule) flag =
      (if "-s" = flag then line.source else none).or
        (((if "--ctorigdstport" = flag then (portRange rule).map PortRange.argument else none).or
          (if "--ctorigdst" = flag then line.dest else none)).or
            ((wordBehind flag (commentWords rule)).or
              (wordBehind flag ("-j" :: split ' ' line.target)))) := by
  have hfalls := fallsInto_text hrule hline
  have hspace : ' ' ∉ flag.toList := by
    rcases eq_of_isFlag hflag with rfl | rfl | rfl | rfl <;> decide
  obtain ⟨hsource, hdest, hport⟩ := argument_conditions rule hline hflag
  rw [field_eq_wordBehind hspace hfalls.spaced, hfalls.words_eq,
    wordBehind_publishedWords hline hflag, wordBehind_conntrackWords hflag,
    wordBehind_option hsource, wordBehind_option hdest, wordBehind_option hport]

theorem trim_text (hrule : rule.WellFormed) (hline : line.Renders) :
    trim (line.text rule) = line.text rule := by
  have hall : ∀ target ∈ targetTexts, ("-j" :: split ' ' target).getLast? ≠ some "" := by
    simp only [targetTexts, List.forall_mem_cons]
    decide
  have hfirst : (publishedWords rule line).flatten.head? = some "-A" := rfl
  have hlast : (publishedWords rule line).flatten.getLast? =
      ("-j" :: split ' ' line.target).getLast? := by
    rw [publishedWords]
    simp [List.getLast?_append, List.getLast?_cons]
  apply (fallsInto_text hrule hline).trim_eq
  · rw [hfirst]
    decide
  · rw [hlast]
    exact hall line.target hline.target

/-- What is read from a line, whatever its comment. -/
theorem parseRuleLine_text (hrule : rule.WellFormed) (hline : line.Renders) :
    parseRuleLine (line.text rule) = some
      { chain := firewallForwardChain
        source := line.source.or (wordBehind "-s" (commentWords rule))
        dest := line.dest.or (wordBehind "--ctorigdst" (commentWords rule))
        port := ((portRange rule).map PortRange.argument).or
          (wordBehind "--ctorigdstport" (commentWords rule))
        target := (wordBehind "-j" (commentWords rule)).getD line.targetName } := by
  have hfalls := fallsInto_text hrule hline
  have hdash : ' ' ∉ "-A".toList := by decide
  have hne : "TP-FWD" ≠ "" := by decide
  have hchain : argumentOf "-A" (line.text rule).toList = some "TP-FWD" :=
    argumentOf_of_spaced hdash hfalls.spaced hfalls.words_eq hne
  obtain ⟨hs, hd, hp, hj⟩ := wordBehind_target hline
  have hsource : field (line.text rule) "-s" = _ := field_text hrule hline rfl
  have hdest : field (line.text rule) "--ctorigdst" = _ := field_text hrule hline rfl
  have hport : field (line.text rule) "--ctorigdstport" = _ := field_text hrule hline rfl
  have htarget : field (line.text rule) "-j" = _ := field_text hrule hline rfl
  rw [parseRuleLine, trim_text hrule hline, hchain, hsource, hdest, hport, htarget, hs, hd, hp, hj]
  simp
  rfl

/-- What a line was rendered with, as a reader would have it. -/
def PublishedLine.parsed (rule : FirewallRule) (line : PublishedLine) : ParsedRule where
  chain := firewallForwardChain
  source := line.source
  dest := line.dest
  port := (portRange rule).map PortRange.argument
  target := line.targetName

/-- The comment names no flag of which the line has none, and no other jump than the line's. -/
structure PublishedLine.CommentReadable (rule : FirewallRule) (line : PublishedLine) : Prop where
  source : line.source = none → wordBehind "-s" (commentWords rule) = none
  dest : line.dest = none → wordBehind "--ctorigdst" (commentWords rule) = none
  port : portRange rule = none → wordBehind "--ctorigdstport" (commentWords rule) = none
  target : ∀ word ∈ wordBehind "-j" (commentWords rule), word = line.targetName

/-- A value that comes first stays, unless there is none. -/
theorem or_eq_left_iff {α : Type} {first second : Option α} :
    first.or second = first ↔ (first = none → second = none) := by
  cases first with
  | none => simp
  | some value => simp

theorem getD_eq_right_iff {α : Type} {found : Option α} {value : α} :
    found.getD value = value ↔ ∀ word ∈ found, word = value := by
  cases found with
  | none => simp
  | some word => simp

theorem parseRuleLine_text_iff (hrule : rule.WellFormed) (hline : line.Renders) :
    parseRuleLine (line.text rule) = some (line.parsed rule) ↔ line.CommentReadable rule := by
  rw [parseRuleLine_text hrule hline, Option.some_inj, PublishedLine.parsed, ParsedRule.mk.injEq,
    or_eq_left_iff, or_eq_left_iff, or_eq_left_iff, getD_eq_right_iff, Option.map_eq_none_iff]
  constructor
  · rintro ⟨-, hsource, hdest, hport, htarget⟩
    exact ⟨hsource, hdest, hport, htarget⟩
  · rintro ⟨hsource, hdest, hport, htarget⟩
    exact ⟨rfl, hsource, hdest, hport, htarget⟩

end

/-- A published line is read back as it was rendered exactly when its comment is readable. -/
theorem readBack_iff {value : Json} {payload : FirewallReconcilePayload}
    (h : parseFirewallReconcilePayload value = .ok payload) :
    ∀ rule ∈ payload.rules, ∀ family : FirewallFamily,
      renderPublishedRule rule family = (publishedLines rule family).map (PublishedLine.text rule) ∧
        ∀ line ∈ publishedLines rule family,
          (parseRuleLine (line.text rule) = some (line.parsed rule) ↔
            line.CommentReadable rule) := by
  intro rule hrule family
  have hwf := wellFormed_of_parse h rule hrule
  refine ⟨renderPublishedRule_eq rule family, fun line hline => ?_⟩
  exact parseRuleLine_text_iff hwf (renders_of_mem_publishedLines hwf hline)

/-- A payload whose only rule drops, and says another jump in its comment. -/
def namesJump : Json :=
  .object [("generation", .number "1"), ("mode", .string "managed"),
    ("policy", .object [("inputDefault", .string "accept"), ("ipv6", .string "skip")]),
    ("rules", .array [.object [("id", .string "r1"), ("scope", .string "published"),
      ("action", .string "drop"), ("proto", .string "tcp"), ("origin", .string "user"),
      ("sources", .array [.string "any"]), ("ports", .string "3306"),
      ("comment", .string "see -j RETURN above")]])]

def namesJumpRule : FirewallRule :=
  ⟨"r1", .published, .drop, .tcp, .user, ["any"], some "3306", none, some "see -j RETURN above"⟩

def namesJumpPayload : FirewallReconcilePayload where
  generation := 1
  mode := .managed
  policy := ⟨.accept, .skip⟩
  rules := [namesJumpRule]
  controlPlane := none
  sshPorts := none

theorem parse_namesJump : parseFirewallReconcilePayload namesJump = .ok namesJumpPayload := by
  decide +kernel

theorem readBack_iff_namesJump :
    parseRuleLine (PublishedLine.text namesJumpRule ⟨none, none, "DROP"⟩) =
        some (PublishedLine.parsed namesJumpRule ⟨none, none, "DROP"⟩) ↔
      PublishedLine.CommentReadable namesJumpRule ⟨none, none, "DROP"⟩ :=
  (readBack_iff parse_namesJump namesJumpRule List.mem_cons_self .four).2 _ List.mem_cons_self

/-- The line that drops is read as one that returns. -/
theorem not_readBack_namesJump :
    ¬∀ (value : Json) (payload : FirewallReconcilePayload),
      parseFirewallReconcilePayload value = .ok payload → ∀ rule ∈ payload.rules,
        ∀ (family : FirewallFamily), ∀ line ∈ publishedLines rule family,
          parseRuleLine (line.text rule) = some (line.parsed rule) := by
  intro h
  have hread := h namesJump namesJumpPayload parse_namesJump namesJumpRule
    List.mem_cons_self .four ⟨none, none, "DROP"⟩ List.mem_cons_self
  have hline : parseRuleLine (PublishedLine.text namesJumpRule ⟨none, none, "DROP"⟩) =
      some ⟨"TP-FWD", none, none, some "3306", "RETURN"⟩ := by decide +kernel
  rw [hline] at hread
  exact absurd (congrArg ParsedRule.target (Option.some.inj hread)) (by decide)

end Turbopaneld.Firewall
