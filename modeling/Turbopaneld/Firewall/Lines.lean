/-
# Rendered lines

The words of a line the renderer joins, the rule that a line of the host chain appends when it
is read back, and that no rule can make more of its lines than they are.
-/

import Turbopaneld.Firewall.Render
import Turbopaneld.Netfilter.Chain

namespace Turbopaneld.Firewall

open JavaScript Netfilter

/-! ## Words of a joined line -/

/-- A way to read words from a text, under which a space parts words. -/
structure ReadsWords (R : String → List String → Prop) : Prop where
  append : ∀ {text other : String} {values others : List String},
    R text values → R other others → R (text ++ " " ++ other) (values ++ others)
  text_ne : ∀ {text : String} {values : List String}, R text values → text ≠ ""
  ne_nil : ∀ {text : String} {values : List String}, R text values → values ≠ []

theorem readsWords_shows : ReadsWords Shows := ⟨Shows.append, Shows.text_ne, Shows.ne_nil⟩

/-- A part of a line and the words read from it, if any. -/
inductive Part (R : String → List String → Prop) : Option String → List String → Prop
  | absent : Part R none []
  | empty : Part R (some "") []
  | shown {text : String} {values : List String} (h : R text values) : Part R (some text) values

/-- The parts `joinArgs` joins. -/
def keptArgs (parts : List (Option String)) : List String := parts.reduceOption.filter (· ≠ "")

theorem joinArgs_eq (parts : List (Option String)) : joinArgs parts = " ".intercalate (keptArgs parts) :=
  rfl

theorem keptArgs_cons {text : String} (hne : text ≠ "") (parts : List (Option String)) :
    keptArgs (some text :: parts) = text :: keptArgs parts := by
  have hkept : decide (text ≠ "") = true := decide_eq_true hne
  have hhead : (some text :: parts).reduceOption = text :: parts.reduceOption := rfl
  rw [keptArgs, hhead, List.filter_cons, if_pos hkept]
  rfl

theorem joinArgs_cons {text : String} (hne : text ≠ "") {parts : List (Option String)}
    (hparts : keptArgs parts ≠ []) : joinArgs (some text :: parts) = text ++ " " ++ joinArgs parts := by
  rw [joinArgs_eq, joinArgs_eq, keptArgs_cons hne, ← String.toList_inj, String.toList_intercalate,
    String.toList_append, String.toList_append, String.toList_intercalate, List.map_cons,
    List.intercalate_cons_of_ne_nil fun h => hparts (List.map_eq_nil_iff.mp h)]

/-- A joined line starts with its first argument. -/
theorem exists_joinArgs_cons {text : String} (hne : text ≠ "") (parts : List (Option String)) :
    ∃ rest, joinArgs (some text :: parts) = text ++ rest := by
  by_cases hparts : keptArgs parts = []
  · refine ⟨"", ?_⟩
    rw [joinArgs_eq, keptArgs_cons hne, hparts, String.intercalate_singleton, String.append_empty]
  · exact ⟨" " ++ joinArgs parts, by rw [joinArgs_cons hne hparts, String.append_assoc]⟩

section

variable {R : String → List String → Prop} {parts : List (Option String)}
  {values : List (List String)}

theorem keptArgs_eq_nil (hR : ReadsWords R) (h : List.Forall₂ (Part R) parts values)
    (hnone : values.flatten = []) : keptArgs parts = [] := by
  induction h with
  | nil => rfl
  | cons hpart _ ih =>
    rw [List.flatten_cons, List.append_eq_nil_iff] at hnone
    cases hpart with
    | absent => exact ih hnone.2
    | empty => exact ih hnone.2
    | shown hshown => exact absurd hnone.1 (hR.ne_nil hshown)

theorem keptArgs_ne_nil (hR : ReadsWords R) (h : List.Forall₂ (Part R) parts values)
    (hsome : values.flatten ≠ []) : keptArgs parts ≠ [] := by
  induction h with
  | nil => exact absurd rfl hsome
  | cons hpart _ ih =>
    rw [List.flatten_cons] at hsome
    cases hpart with
    | absent => exact ih hsome
    | empty => exact ih hsome
    | shown hshown =>
      rw [keptArgs_cons (hR.text_ne hshown)]
      exact List.cons_ne_nil _ _

/-- The words of a joined line are those of its parts. -/
theorem reads_joinArgs (hR : ReadsWords R) (h : List.Forall₂ (Part R) parts values)
    (hsome : values.flatten ≠ []) : R (joinArgs parts) values.flatten := by
  induction h with
  | nil => exact absurd rfl hsome
  | @cons part words parts values hpart hparts ih =>
    rw [List.flatten_cons] at hsome ⊢
    cases hpart with
    | absent => exact ih hsome
    | empty => exact ih hsome
    | @shown text _ hshown =>
      have hne := hR.text_ne hshown
      by_cases hrest : values.flatten = []
      · rw [joinArgs_eq, keptArgs_cons hne, keptArgs_eq_nil hR hparts hrest, hrest,
          List.append_nil, String.intercalate_singleton]
        exact hshown
      · rw [joinArgs_cons hne (keptArgs_ne_nil hR hparts hrest)]
        exact hR.append hshown (ih hrest)

end

/-! ## A host rule read back -/

/-- A flag and its argument, where there is one. -/
def option (flag : String) : Option String → List String
  | none => []
  | some argument => [flag, argument]

def protocolOf : FirewallRuleProto → Option Protocol
  | .tcp => some .tcp
  | .udp => some .udp
  | .any => none

/-- The reply of a rejecting rule. -/
def rejectReply (rule : FirewallRule) (family : FirewallFamily) : String :=
  if rule.proto = .tcp then "tcp-reset"
  else if family = .four then "icmp-port-unreachable"
  else "icmp6-port-unreachable"

def targetOf (rule : FirewallRule) (family : FirewallFamily) : Target :=
  match rule.action with
  | .accept => .accept
  | .drop => .drop
  | .reject => .reject (rejectReply rule family)

def targetWords (rule : FirewallRule) (family : FirewallFamily) : List String :=
  match rule.action with
  | .accept => ["ACCEPT"]
  | .drop => ["DROP"]
  | .reject => ["REJECT", "--reject-with", rejectReply rule family]

/-- The words of a host line after its chain. -/
def hostWords (rule : FirewallRule) (family : FirewallFamily) (dest source : Option String) :
    List (List String) :=
  [option "-s" source, option "-d" dest,
    if rule.proto = .any then [] else ["-p", rule.proto.text],
    option "--dport" ((portRange rule).map PortRange.argument),
    ["-m", "comment", "--comment", commentText rule],
    "-j" :: targetWords rule family]

/-- What a host line asks for. -/
def hostRule (rule : FirewallRule) (family : FirewallFamily) (dest source : Option String) :
    Netfilter.Rule where
  source := source
  dest := dest
  protocol := protocolOf rule.proto
  destPorts := (portRange rule).map fun range => ⟨range.first, range.last⟩
  target := some (targetOf rule family)

theorem isPlain_of_isLiteralChar {c : Char} (h : isLiteralChar c = true) : isPlain c = true := by
  rw [isPlain, Bool.and_eq_true, bne_iff_ne, bne_iff_ne]
  constructor <;>
  · rintro rfl
    exact absurd h (by decide)

theorem IsLiteral.shows {text : String} (h : IsLiteral text) : Shows text [text] :=
  shows_plain h.1 (List.all_eq_true.mpr fun c hc => isPlain_of_isLiteralChar (h.2 c hc))

/-- A flag with an argument of one word. -/
theorem shows_flag {flag argument : String} (hflag : Shows flag [flag])
    (hargument : Shows argument [argument]) : Shows (flag ++ " " ++ argument) [flag, argument] :=
  hflag.append hargument

section

variable {R : String → List String → Prop}

theorem part_option (hR : ReadsWords R) {flag : String} (hflag : R flag [flag]) {argument : Option String}
    (h : ∀ text ∈ argument, R text [text]) :
    Part R (argument.map ((flag ++ " ") ++ ·)) (option flag argument) := by
  cases argument with
  | none => exact .absent
  | some text => exact .shown (hR.append hflag (h text rfl))

theorem part_protoArgs (hR : ReadsWords R) (rule : FirewallRule) (hp : R "-p" ["-p"]) (htcp : R "tcp" ["tcp"])
    (hudp : R "udp" ["udp"]) :
    Part R (some (protoArgs rule))
      (if rule.proto = .any then [] else ["-p", rule.proto.text]) := by
  rw [protoArgs]
  cases rule.proto with
  | tcp => exact .shown (hR.append hp htcp)
  | udp => exact .shown (hR.append hp hudp)
  | any => exact .empty

end

theorem isCommentChar_of_isRuleIdChar {c : Char} (h : isRuleIdChar c = true) :
    isCommentChar c = true := by
  simp only [isRuleIdChar, Bool.or_eq_true] at h
  simp only [isCommentChar, Bool.or_eq_true]
  tauto

/-- The characters of a rule's comment, its head included. -/
theorem isCommentChar_of_mem_commentText {rule : FirewallRule} (hrule : rule.WellFormed) :
    ∀ c ∈ (commentText rule).toList, isCommentChar c = true := by
  have hhead : ∀ c ∈ "tp:".toList, isCommentChar c = true := List.all_eq_true.mp (by decide)
  have hcolon : ∀ c ∈ ":".toList, isCommentChar c = true := List.all_eq_true.mp (by decide)
  have hspace : ∀ c ∈ " ".toList, isCommentChar c = true := List.all_eq_true.mp (by decide)
  have horigin : ∀ c ∈ rule.origin.text.toList, isCommentChar c = true := by
    cases rule.origin <;> exact List.all_eq_true.mp (by decide)
  have hid : ∀ c ∈ rule.id.toList, isCommentChar c = true := fun c hc =>
    isCommentChar_of_isRuleIdChar (hrule.id c hc)
  simp only [commentText, String.toList_append, List.forall_mem_append]
  refine ⟨⟨⟨⟨hhead, horigin⟩, hcolon⟩, hid⟩, ?_⟩
  cases hcomment : rule.comment with
  | none => exact fun c hc => absurd hc List.not_mem_nil
  | some comment =>
    have hchars := hrule.comment comment hcomment
    dsimp only
    rw [if_neg hchars.1, String.toList_append, List.forall_mem_append]
    exact ⟨hspace, hchars.2⟩

theorem quote_notMem_commentText {rule : FirewallRule} (hrule : rule.WellFormed) :
    '"' ∉ (commentText rule).toList := fun hmem =>
  absurd (isCommentChar_of_mem_commentText hrule _ hmem) (by decide)

theorem commentText_ne (rule : FirewallRule) : commentText rule ≠ "" := by
  intro hempty
  have hchars := congrArg String.toList hempty
  simp only [commentText, String.toList_append] at hchars
  cases hchars

theorem comment_eq (text : String) : "-m comment --comment \"" ++ text ++ "\"" =
    "-m" ++ " " ++ "comment" ++ " " ++ ("--comment" ++ " " ++ ("\"" ++ text ++ "\"")) := by
  apply String.toList_inj.mp
  simp only [String.toList_append, List.append_assoc]
  simp

/-- A comment is one quoted word behind its flags. -/
theorem shows_comment {text : String} (hne : text ≠ "") (hquote : '"' ∉ text.toList) :
    Shows ("-m comment --comment \"" ++ text ++ "\"") ["-m", "comment", "--comment", text] := by
  have hm : Shows "-m" ["-m"] := shows_plain (by decide) (by decide)
  have hmodule : Shows "comment" ["comment"] := shows_plain (by decide) (by decide)
  have hflag : Shows "--comment" ["--comment"] := shows_plain (by decide) (by decide)
  have hline := (hm.append hmodule).append (hflag.append (shows_quoted hne hquote))
  rw [comment_eq]
  exact hline

theorem shows_commentFor {rule : FirewallRule} (hrule : rule.WellFormed) :
    Shows (commentFor rule) ["-m", "comment", "--comment", commentText rule] :=
  shows_comment (commentText_ne rule) (quote_notMem_commentText hrule)

theorem shows_target (rule : FirewallRule) (family : FirewallFamily) :
    Shows ("-j " ++ targetFor rule family) ("-j" :: targetWords rule family) := by
  have hj : Shows "-j" ["-j"] := shows_plain (by decide) (by decide)
  have hreject : Shows "REJECT" ["REJECT"] := shows_plain (by decide) (by decide)
  have hwith : Shows "--reject-with" ["--reject-with"] := shows_plain (by decide) (by decide)
  have hreply : Shows (rejectReply rule family) [rejectReply rule family] := by
    rw [rejectReply]
    split_ifs <;> exact shows_plain (by decide) (by decide)
  rw [targetFor, targetWords]
  cases rule.action with
  | accept =>
    have haccept : Shows "ACCEPT" ["ACCEPT"] := shows_plain (by decide) (by decide)
    exact hj.append haccept
  | drop =>
    have hdrop : Shows "DROP" ["DROP"] := shows_plain (by decide) (by decide)
    exact hj.append hdrop
  | reject =>
    have hline := (hj.append hreject).append (hwith.append hreply)
    rw [rejectReply] at hline ⊢
    split_ifs at hline ⊢ <;> exact hline

/-! ## Ports -/

theorem isPlain_of_isDigit {c : Char} (h : isDigit c = true) : isPlain c = true :=
  isPlain_of_isLiteralChar (isLiteralChar_of_isDigit h)

theorem toString_ne (n : ℕ) : toString n ≠ "" := by
  intro hempty
  have hchars := congrArg String.toList hempty
  rw [toList_toString] at hchars
  exact Nat.toDigits_ne_nil hchars

theorem shows_toString (n : ℕ) : Shows (toString n) [toString n] :=
  shows_plain (toString_ne n)
    (List.all_eq_true.mpr fun c hc => isPlain_of_isDigit (isDigit_of_mem_toString n c hc))

theorem shows_argument (range : PortRange) : Shows range.argument [range.argument] := by
  have hdigits : ∀ n : ℕ, (toString n).toList.all isPlain = true := fun n =>
    List.all_eq_true.mpr fun c hc => isPlain_of_isDigit (isDigit_of_mem_toString n c hc)
  rw [PortRange.argument]
  split
  case isTrue => exact shows_plain (toString_ne _) (hdigits _)
  case isFalse =>
    refine shows_plain ?_ ?_
    · intro hempty
      have hchars := congrArg String.toList hempty
      rw [String.toList_append, String.toList_append, String.toList_empty] at hchars
      exact absurd (List.append_eq_nil_iff.mp (List.append_eq_nil_iff.mp hchars).1).2 (by decide)
    · rw [String.toList_append, String.toList_append, List.all_append, List.all_append, hdigits,
        hdigits]
      rfl

theorem portNumber_toString (n : ℕ) : portNumber (toString n) = some n := by
  have hdigits : (toString n).toList.all isDigit = true :=
    List.all_eq_true.mpr (isDigit_of_mem_toString n)
  have hnumber := decimalNumber_toString n
  rw [decimalNumber] at hnumber
  rw [portNumber, hdigits, hnumber]
  simp

/-- The argument of a range is read back as the range. -/
theorem portsNamed_argument {range : PortRange} (hvalid : range.Valid) :
    portsNamed range.argument = some ⟨range.first, range.last⟩ := by
  have hcolon : ∀ n : ℕ, ':' ∉ (toString n).toList := fun n hmem =>
    absurd (isDigit_of_mem_toString n _ hmem) (by decide)
  rw [portsNamed, PortRange.argument]
  by_cases hsame : range.first = range.last
  · rw [if_pos hsame, split_of_notMem (hcolon _)]
    dsimp only
    rw [portNumber_toString, hsame]
    rfl
  · have htext : toString range.first ++ ":" ++ toString range.last =
        toString range.first ++ String.singleton ':' ++ toString range.last := rfl
    rw [if_neg hsame, htext, split_append_cons (hcolon _), split_of_notMem (hcolon _)]
    dsimp only
    rw [portNumber_toString, portNumber_toString]
    exact if_pos hvalid.ordered

theorem portsNamed_toString (port : ℕ) : portsNamed (toString port) = some ⟨port, port⟩ := by
  have hcolon : ':' ∉ (toString port).toList := fun hmem =>
    absurd (isDigit_of_mem_toString port _ hmem) (by decide)
  rw [portsNamed, split_of_notMem hcolon]
  dsimp only
  rw [portNumber_toString]
  rfl

/-! ## The line -/

/-- What follows the chain in a host line. -/
def hostParts (rule : FirewallRule) (family : FirewallFamily) (dest source : Option String) :
    List (Option String) :=
  [source.map ("-s " ++ ·), dest.map ("-d " ++ ·), some (protoArgs rule), some (hostPortArgs rule),
    some (commentFor rule), some ("-j " ++ targetFor rule family)]

theorem showsPart_hostPortArgs (rule : FirewallRule) :
    Part Shows (some (hostPortArgs rule))
      (option "--dport" ((portRange rule).map PortRange.argument)) := by
  have hdport : Shows "--dport" ["--dport"] := shows_plain (by decide) (by decide)
  rw [hostPortArgs]
  cases portRange rule with
  | none => exact .empty
  | some range => exact .shown (shows_flag hdport (shows_argument range))

section

variable {rule : FirewallRule} {family : FirewallFamily} {dest source : Option String}

theorem showsPart_hostParts (hrule : rule.WellFormed) (hdest : ∀ text ∈ dest, IsLiteral text)
    (hsource : ∀ text ∈ source, IsLiteral text) :
    List.Forall₂ (Part Shows) (hostParts rule family dest source)
      (hostWords rule family dest source) := by
  have hs : Shows "-s" ["-s"] := shows_plain (by decide) (by decide)
  have hd : Shows "-d" ["-d"] := shows_plain (by decide) (by decide)
  have hproto := part_protoArgs readsWords_shows rule (shows_plain (by decide) (by decide))
    (shows_plain (by decide) (by decide)) (shows_plain (by decide) (by decide))
  refine .cons (part_option readsWords_shows hs fun text htext => (hsource text htext).shows) ?_
  refine .cons (part_option readsWords_shows hd fun text htext => (hdest text htext).shows) ?_
  refine .cons hproto (.cons (showsPart_hostPortArgs rule) ?_)
  exact .cons (.shown (shows_commentFor hrule)) (.cons (.shown (shows_target rule family)) .nil)

theorem flatten_hostWords_ne : (hostWords rule family dest source).flatten ≠ [] := by
  intro h
  have hcomment := List.flatten_eq_nil_iff.mp h ["-m", "comment", "--comment", commentText rule]
  rw [hostWords] at hcomment
  exact absurd (hcomment (by simp)) (List.cons_ne_nil _ _)

theorem hostLine_eq (hrule : rule.WellFormed) (hdest : ∀ text ∈ dest, IsLiteral text)
    (hsource : ∀ text ∈ source, IsLiteral text) :
    hostLine rule family dest source =
      "-A TP-INPUT" ++ " " ++ joinArgs (hostParts rule family dest source) :=
  joinArgs_cons (by decide)
    (keptArgs_ne_nil readsWords_shows (showsPart_hostParts hrule hdest hsource) flatten_hostWords_ne)

theorem readWords_option_source (rest : List String) (read : Netfilter.Rule) :
    readWords (option "-s" source ++ rest) read =
      readWords rest { read with source := source.or read.source } := by
  cases source <;> rfl

theorem readWords_option_dest (rest : List String) (read : Netfilter.Rule) :
    readWords (option "-d" dest ++ rest) read =
      readWords rest { read with dest := dest.or read.dest } := by
  cases dest <;> rfl

theorem readWords_proto (proto : FirewallRuleProto) (rest : List String) (read : Netfilter.Rule) :
    readWords ((if proto = .any then [] else ["-p", proto.text]) ++ rest) read =
      readWords rest { read with protocol := (protocolOf proto).or read.protocol } := by
  cases proto <;> rfl

theorem readWords_dport {range : Option PortRange} (hvalid : ∀ ports ∈ range, ports.Valid)
    (rest : List String) (read : Netfilter.Rule) :
    readWords (option "--dport" (range.map PortRange.argument) ++ rest) read =
      readWords rest { read with
        destPorts := (range.map fun ports => ⟨ports.first, ports.last⟩).or read.destPorts } := by
  cases range with
  | none => rfl
  | some ports =>
    show readWords ("--dport" :: ports.argument :: rest) read = _
    rw [readWords, portsNamed_argument (hvalid ports rfl)]
    rfl

theorem readWords_comment (text : String) (rest : List String) (read : Netfilter.Rule) :
    readWords (["-m", "comment", "--comment", text] ++ rest) read = readWords rest read := rfl

theorem readWords_target (read : Netfilter.Rule) :
    readWords ("-j" :: targetWords rule family) read =
      some { read with target := some (targetOf rule family) } := by
  rw [targetWords, targetOf]
  cases rule.action <;> rfl

/-- The range of an accepted rule's ports is one. -/
theorem valid_of_mem_portRange : ∀ range ∈ portRange rule, range.Valid := by
  intro range hrange
  obtain ⟨text, -, hrange⟩ := Option.bind_eq_some_iff.mp hrange
  exact valid_of_parseFirewallPortRange hrange

theorem readWords_hostWords :
    readWords (hostWords rule family dest source).flatten {} =
      some (hostRule rule family dest source) := by
  simp only [hostWords, List.flatten_cons, List.flatten_nil, List.append_nil]
  rw [readWords_option_source, readWords_option_dest, readWords_proto,
    readWords_dport valid_of_mem_portRange, readWords_comment, readWords_target]
  simp only [Option.or_none]
  rfl

/-- A rule with ports names a protocol that has them. -/
theorem protocolOf_of_portRange (hrule : rule.WellFormed) (hports : portRange rule ≠ none) :
    protocolOf rule.proto = some .tcp ∨ protocolOf rule.proto = some .udp := by
  obtain ⟨range, hrange⟩ := Option.ne_none_iff_exists'.mp hports
  obtain ⟨text, htext, -⟩ := Option.bind_eq_some_iff.mp hrange
  have hproto := (hrule.ports text htext).1
  cases h : rule.proto with
  | tcp => exact .inl rfl
  | udp => exact .inr rfl
  | any => exact absurd h hproto

theorem loads_hostRule (hrule : rule.WellFormed) :
    (hostRule rule family dest source).loads = true := by
  rw [Netfilter.Rule.loads, Bool.and_eq_true]
  constructor
  · cases hrange : portRange rule with
    | none =>
      rw [hostRule, hrange]
      rfl
    | some range =>
      have hports : portRange rule ≠ none := by
        rw [hrange]
        exact Option.some_ne_none _
      rw [hostRule]
      rcases protocolOf_of_portRange hrule hports with h | h <;>
      · rw [h]
        simp
  · rw [hostRule, targetOf]
    cases rule.action with
    | accept => rfl
    | drop => rfl
    | reject =>
      dsimp only
      rw [rejectReply]
      cases rule.proto <;> cases family <;> rfl

theorem readLine_hostLine (hrule : rule.WellFormed) (hdest : ∀ text ∈ dest, IsLiteral text)
    (hsource : ∀ text ∈ source, IsLiteral text) :
    readLine firewallInputChain (hostLine rule family dest source) =
      some (some (hostRule rule family dest source)) := by
  have hshows : Shows (joinArgs (hostParts rule family dest source))
      (hostWords rule family dest source).flatten :=
    reads_joinArgs readsWords_shows (showsPart_hostParts hrule hdest hsource) flatten_hostWords_ne
  rw [hostLine_eq hrule hdest hsource]
  exact readLine_of_shows hshows readWords_hostWords (loads_hostRule hrule)

end

/-! ## The lines of a host rule -/

theorem isLiteral_of_mem_sourcesFor {rule : FirewallRule} (hrule : rule.WellFormed)
    {family : FirewallFamily} {source : Option String} (h : source ∈ sourcesFor rule family) :
    ∀ text ∈ source, IsLiteral text := by
  rw [sourcesFor] at h
  split at h
  case isTrue =>
    rw [List.mem_singleton.mp h]
    rintro _ ⟨⟩
  case isFalse hany =>
    obtain ⟨text, htext, rfl⟩ := List.mem_map.mp h
    intro other hother
    obtain rfl := Option.mem_some_iff.mp hother
    have hmem := (List.mem_filter.mp htext).1
    refine (hrule.sources text hmem).resolve_left ?_
    rintro rfl
    exact hany (List.contains_iff_mem.mpr hmem)

theorem isLiteral_of_mem_destinationsFor {rule : FirewallRule} (hrule : rule.WellFormed)
    {family : FirewallFamily} {dest : Option String} (h : dest ∈ destinationsFor rule family) :
    ∀ text ∈ dest, IsLiteral text := by
  rw [destinationsFor] at h
  split at h
  case h_1 =>
    rw [List.mem_singleton.mp h]
    rintro _ ⟨⟩
  case h_2 destinations hdestinations =>
    split_ifs at h
    · rw [List.mem_singleton.mp h]
      rintro _ ⟨⟩
    · obtain ⟨text, htext, rfl⟩ := List.mem_map.mp h
      intro other hother
      obtain rfl := Option.mem_some_iff.mp hother
      exact hrule.destinations destinations hdestinations text (List.mem_filter.mp htext).1

/-- The rules a host rule's lines append. -/
def hostRules (rule : FirewallRule) (family : FirewallFamily) : List Netfilter.Rule :=
  (destinationsFor rule family).flatMap fun dest =>
    (sourcesFor rule family).map fun source => hostRule rule family dest source

theorem appends_renderHostRule {rule : FirewallRule} (hrule : rule.WellFormed)
    (family : FirewallFamily) :
    Appends firewallInputChain (renderHostRule rule family) (hostRules rule family) := by
  apply appends_flatMap
  intro dest hdest
  apply appends_map
  intro source hsource
  exact readLine_hostLine hrule (isLiteral_of_mem_destinationsFor hrule hdest)
    (isLiteral_of_mem_sourcesFor hrule hsource)

/-! ## No line holds a line break -/

/-- A text that stays on its line. -/
def OnOneLine (text : String) : Prop := '\n' ∉ text.toList

theorem onOneLine_of_decide {text : String} (h : text.toList.all (· != '\n') = true) :
    OnOneLine text := fun hmem => absurd (List.all_eq_true.mp h _ hmem) (by decide)

theorem onOneLine_append {first second : String} (hfirst : OnOneLine first)
    (hsecond : OnOneLine second) : OnOneLine (first ++ second) := by
  rw [OnOneLine, String.toList_append, List.mem_append]
  exact not_or.mpr ⟨hfirst, hsecond⟩

theorem onOneLine_of_all {text : String} {P : Char → Bool} (h : ∀ c ∈ text.toList, P c = true)
    (hbreak : P '\n' = false) : OnOneLine text := by
  intro hmem
  rw [h _ hmem] at hbreak
  cases hbreak

theorem onOneLine_joinArgs {parts : List (Option String)}
    (h : ∀ part ∈ parts, ∀ text ∈ part, OnOneLine text) : OnOneLine (joinArgs parts) := by
  have hkept : ∀ text ∈ keptArgs parts, ∀ c ∈ text.toList, c ≠ '\n' := by
    intro text htext c hc
    rintro rfl
    obtain ⟨part, hpart, hsome⟩ := List.mem_filterMap.mp (List.mem_of_mem_filter htext)
    exact h part hpart text hsome hc
  have hspace : ∀ c ∈ " ".toList, c ≠ '\n' := List.forall_mem_singleton.mpr (by decide)
  exact fun hmem => forall_mem_intercalate hspace hkept _ hmem rfl

theorem onOneLine_toString (n : ℕ) : OnOneLine (toString n) :=
  onOneLine_of_all (isDigit_of_mem_toString n) (by decide)

theorem IsLiteral.onOneLine {text : String} (h : IsLiteral text) : OnOneLine text :=
  onOneLine_of_all h.2 (by decide)

theorem onOneLine_argument (range : PortRange) : OnOneLine range.argument := by
  have hcolon : OnOneLine ":" := onOneLine_of_decide (by decide)
  rw [PortRange.argument]
  split_ifs
  · exact onOneLine_toString _
  · exact onOneLine_append (onOneLine_append (onOneLine_toString _) hcolon) (onOneLine_toString _)

theorem onOneLine_commentFor {rule : FirewallRule} (hrule : rule.WellFormed) :
    OnOneLine (commentFor rule) := by
  have hfront : OnOneLine "-m comment --comment \"" := onOneLine_of_decide (by decide)
  have hquote : OnOneLine "\"" := onOneLine_of_decide (by decide)
  have htext : OnOneLine (commentText rule) :=
    onOneLine_of_all (isCommentChar_of_mem_commentText hrule) (by decide)
  exact onOneLine_append (onOneLine_append hfront htext) hquote

theorem onOneLine_targetFor (rule : FirewallRule) (family : FirewallFamily) :
    OnOneLine (targetFor rule family) := by
  have haccept : OnOneLine "ACCEPT" := onOneLine_of_decide (by decide)
  have hdrop : OnOneLine "DROP" := onOneLine_of_decide (by decide)
  rw [targetFor]
  cases rule.action with
  | accept => exact haccept
  | drop => exact hdrop
  | reject =>
    dsimp only
    split_ifs <;> exact onOneLine_of_decide (by decide)

theorem onOneLine_protoArgs (rule : FirewallRule) : OnOneLine (protoArgs rule) := by
  rw [protoArgs]
  cases rule.proto <;> exact onOneLine_of_decide (by decide)

/-- A flag in front of an argument that may be missing. -/
theorem onOneLine_of_mem_map {flag : String} (hflag : OnOneLine flag) {argument : Option String}
    (h : ∀ text ∈ argument, IsLiteral text) :
    ∀ text ∈ argument.map (flag ++ ·), OnOneLine text := by
  intro text htext
  obtain ⟨literal, hliteral, rfl⟩ := Option.map_eq_some_iff.mp htext
  exact onOneLine_append hflag (h literal hliteral).onOneLine

section

variable {rule : FirewallRule} {dest source : Option String}

theorem onOneLine_hostLine (hrule : rule.WellFormed) {family : FirewallFamily}
    (hdest : ∀ text ∈ dest, IsLiteral text) (hsource : ∀ text ∈ source, IsLiteral text) :
    OnOneLine (hostLine rule family dest source) := by
  have hports : OnOneLine (hostPortArgs rule) := by
    rw [hostPortArgs]
    cases portRange rule with
    | none => exact onOneLine_of_decide (by decide)
    | some range => exact onOneLine_append (onOneLine_of_decide (by decide)) (onOneLine_argument _)
  have htarget : OnOneLine ("-j " ++ targetFor rule family) :=
    onOneLine_append (onOneLine_of_decide (by decide)) (onOneLine_targetFor rule family)
  have hchain : OnOneLine ("-A " ++ firewallInputChain) := onOneLine_of_decide (by decide)
  apply onOneLine_joinArgs
  simp only [List.forall_mem_cons, Option.mem_some_iff, forall_eq']
  exact ⟨hchain, onOneLine_of_mem_map (onOneLine_of_decide (by decide)) hsource,
    onOneLine_of_mem_map (onOneLine_of_decide (by decide)) hdest, onOneLine_protoArgs rule, hports,
    onOneLine_commentFor hrule, htarget, fun part hpart => absurd hpart List.not_mem_nil⟩

theorem onOneLine_publishedMatchArgs (hdest : ∀ text ∈ dest, IsLiteral text) :
    OnOneLine (publishedMatchArgs rule dest) := by
  rw [publishedMatchArgs]
  split_ifs
  · exact onOneLine_of_decide (by decide)
  · have hspace : ∀ c ∈ " ".toList, c ≠ '\n' := List.forall_mem_singleton.mpr (by decide)
    refine onOneLine_append (onOneLine_of_decide (by decide)) fun hmem =>
      forall_mem_intercalate hspace ?_ _ hmem rfl
    intro part hpart c hc
    rintro rfl
    rw [List.mem_append, Option.mem_toList, Option.mem_toList] at hpart
    rcases hpart with hport | hdestination
    · obtain ⟨range, -, rfl⟩ := Option.map_eq_some_iff.mp hport
      exact onOneLine_append (onOneLine_of_decide (by decide)) (onOneLine_argument range) hc
    · exact onOneLine_of_mem_map (onOneLine_of_decide (by decide)) hdest part hdestination hc

theorem onOneLine_publishedLine (hrule : rule.WellFormed) {target : String}
    (hdest : ∀ text ∈ dest, IsLiteral text) (hsource : ∀ text ∈ source, IsLiteral text)
    (htarget : OnOneLine target) : OnOneLine (publishedLine rule dest source target) := by
  have hjump : OnOneLine ("-j " ++ target) :=
    onOneLine_append (onOneLine_of_decide (by decide)) htarget
  have hchain : OnOneLine ("-A " ++ firewallForwardChain) := onOneLine_of_decide (by decide)
  apply onOneLine_joinArgs
  simp only [List.forall_mem_cons, Option.mem_some_iff, forall_eq']
  exact ⟨hchain, onOneLine_of_mem_map (onOneLine_of_decide (by decide)) hsource,
    onOneLine_protoArgs rule, onOneLine_publishedMatchArgs hdest, onOneLine_commentFor hrule, hjump,
    fun part hpart => absurd hpart List.not_mem_nil⟩

end

theorem onOneLine_renderHostRule {rule : FirewallRule} (hrule : rule.WellFormed)
    {family : FirewallFamily} : ∀ line ∈ renderHostRule rule family, OnOneLine line := by
  intro line hline
  obtain ⟨dest, hdest, hline⟩ := List.mem_flatMap.mp hline
  obtain ⟨source, hsource, rfl⟩ := List.mem_map.mp hline
  exact onOneLine_hostLine hrule (isLiteral_of_mem_destinationsFor hrule hdest)
    (isLiteral_of_mem_sourcesFor hrule hsource)

/-- A line of a published rule, with what it was rendered from. -/
structure PublishedLine where
  dest : Option String
  source : Option String
  target : String

/-- The published lines of a rule, before they are written. -/
def publishedLines (rule : FirewallRule) (family : FirewallFamily) : List PublishedLine :=
  let destinations := destinationsFor rule family
  if destinations.isEmpty then []
  else if rule.action = .accept then
    if rule.sources.contains "any" then []
    else destinations.flatMap fun dest =>
      (sourcesFor rule family).map (fun source => ⟨dest, source, "RETURN"⟩) ++
        [⟨dest, none, "DROP"⟩]
  else destinations.flatMap fun dest =>
    (sourcesFor rule family).map fun source => ⟨dest, source, targetFor rule family⟩

theorem renderPublishedRule_eq (rule : FirewallRule) (family : FirewallFamily) :
    renderPublishedRule rule family = (publishedLines rule family).map fun line =>
      publishedLine rule line.dest line.source line.target := by
  rw [renderPublishedRule, publishedLines]
  split_ifs
  · rfl
  · rfl
  · rw [List.map_flatMap]
    congr
    funext dest
    rw [List.map_append, List.map_map]
    rfl
  · rw [List.map_flatMap]
    congr
    funext dest
    rw [List.map_map]
    rfl

/-- What a published line is rendered from. -/
theorem mem_publishedLines {rule : FirewallRule} {family : FirewallFamily} {line : PublishedLine}
    (h : line ∈ publishedLines rule family) :
    line.dest ∈ destinationsFor rule family ∧
      (line.source = none ∨ line.source ∈ sourcesFor rule family) ∧
        (line.target = "RETURN" ∨ line.target = "DROP" ∨ line.target = targetFor rule family) := by
  rw [publishedLines] at h
  split_ifs at h
  · exact absurd h List.not_mem_nil
  · exact absurd h List.not_mem_nil
  · obtain ⟨dest, hdest, h⟩ := List.mem_flatMap.mp h
    rcases List.mem_append.mp h with h | h
    · obtain ⟨source, hsource, rfl⟩ := List.mem_map.mp h
      exact ⟨hdest, .inr hsource, .inl rfl⟩
    · rw [List.mem_singleton.mp h]
      exact ⟨hdest, .inl rfl, .inr (.inl rfl)⟩
  · obtain ⟨dest, hdest, h⟩ := List.mem_flatMap.mp h
    obtain ⟨source, hsource, rfl⟩ := List.mem_map.mp h
    exact ⟨hdest, .inr hsource, .inr (.inr rfl)⟩

theorem onOneLine_renderPublishedRule {rule : FirewallRule} (hrule : rule.WellFormed)
    {family : FirewallFamily} : ∀ line ∈ renderPublishedRule rule family, OnOneLine line := by
  intro text htext
  rw [renderPublishedRule_eq] at htext
  obtain ⟨line, hline, rfl⟩ := List.mem_map.mp htext
  obtain ⟨hdest, hsource, htarget⟩ := mem_publishedLines hline
  apply onOneLine_publishedLine hrule (isLiteral_of_mem_destinationsFor hrule hdest)
  · rcases hsource with hnone | hsource
    · rw [hnone]
      rintro _ ⟨⟩
    · exact isLiteral_of_mem_sourcesFor hrule hsource
  · rcases htarget with h | h | h <;> rw [h]
    · exact onOneLine_of_decide (by decide)
    · exact onOneLine_of_decide (by decide)
    · exact onOneLine_targetFor rule family

end Turbopaneld.Firewall
