/-
# Chains read back from their text

The lines of an `iptables-restore` document: how a line falls into words, what the words of an
appended rule ask of a packet, and which rule of a chain decides.  How an address literal
covers an address is left to whoever uses this.
-/

import Mathlib.Data.List.Basic
import Turbopaneld.JavaScript.Text
import Turbopaneld.Programs.Fallible

namespace Turbopaneld.Netfilter

/-! ## Words -/

/-- A word that has been collected, if it is one. -/
def flushWord (word : List Char) : List (List Char) := if word = [] then [] else [word]

/-- The words of a line: separated by spaces, which quotes take the meaning from. -/
def wordsFrom : List Char → Bool → List Char → List (List Char)
  | [], _, word => flushWord word
  | c :: rest, inside, word =>
    if c = '"' then wordsFrom rest (!inside) word
    else if c = ' ' ∧ inside = false then flushWord word ++ wordsFrom rest false []
    else wordsFrom rest inside (word ++ [c])

def words (line : String) : List String := (wordsFrom line.toList false []).map String.ofList

/-- A stretch of text that puts `value` into the word being collected. -/
def Puts (shown value : List Char) : Prop :=
  ∀ rest word, wordsFrom (shown ++ rest) false word = wordsFrom rest false (word ++ value)

/-- Text without spaces and quotes is put as it stands. -/
theorem puts_plain {text : List Char} (h : ∀ c ∈ text, c ≠ '"' ∧ c ≠ ' ') : Puts text text := by
  induction text with
  | nil =>
    intro rest word
    rw [List.nil_append, List.append_nil]
  | cons c text ih =>
    obtain ⟨⟨hquote, hspace⟩, htext⟩ := List.forall_mem_cons.mp h
    intro rest word
    rw [List.cons_append, wordsFrom, if_neg hquote, if_neg fun h => hspace h.1, ih htext,
      List.append_assoc, List.singleton_append]

/-- Between quotes only a quote ends the word. -/
theorem wordsFrom_inside {text : List Char} (h : '"' ∉ text) (rest word : List Char) :
    wordsFrom (text ++ '"' :: rest) true word = wordsFrom rest false (word ++ text) := by
  induction text generalizing word with
  | nil =>
    rw [List.nil_append, List.append_nil, wordsFrom, if_pos rfl]
    rfl
  | cons c text ih =>
    obtain ⟨hquote, htext⟩ := not_or.mp fun hmem => h (List.mem_cons.mpr hmem)
    have hinside : ¬(c = ' ' ∧ true = false) := fun h => Bool.noConfusion h.2
    rw [List.cons_append, wordsFrom, if_neg (Ne.symm hquote), if_neg hinside, ih htext,
      List.append_assoc, List.singleton_append]

theorem puts_quoted {text : List Char} (h : '"' ∉ text) : Puts ('"' :: (text ++ ['"'])) text := by
  intro rest word
  rw [List.cons_append, wordsFrom, if_pos rfl, List.append_assoc, List.singleton_append]
  exact wordsFrom_inside h rest word

/-- A word as it is shown and the value it has. -/
structure Word where
  shown : List Char
  value : List Char
  puts : Puts shown value
  ne_nil : value ≠ []

/-- Words with a space between them are read as those words. -/
theorem wordsFrom_intercalate (items : List Word) :
    wordsFrom ([' '].intercalate (items.map Word.shown)) false [] = items.map Word.value := by
  induction items with
  | nil => rfl
  | cons item items ih =>
    cases items with
    | nil =>
      rw [List.map_singleton, List.intercalate_singleton, List.map_singleton,
        ← List.append_nil item.shown, item.puts, wordsFrom, List.nil_append, flushWord,
        if_neg item.ne_nil]
    | cons next items =>
      have hspace : ¬(' ' = '"') := by decide
      rw [List.map_cons, List.map_cons, List.intercalate_cons_cons, List.append_assoc, item.puts,
        List.nil_append, List.singleton_append, wordsFrom, if_neg hspace, if_pos ⟨rfl, rfl⟩,
        ← List.map_cons, ih, flushWord, if_neg item.ne_nil]
      rfl

/-- Two stretches joined, with the separator between them. -/
theorem intercalate_append {α : Type} (separator : List α) {first second : List (List α)}
    (hfirst : first ≠ []) (hsecond : second ≠ []) :
    separator.intercalate (first ++ second) =
      separator.intercalate first ++ separator ++ separator.intercalate second := by
  induction first with
  | nil => exact absurd rfl hfirst
  | cons piece first ih =>
    cases first with
    | nil =>
      rw [List.singleton_append, List.intercalate_cons_of_ne_nil hsecond,
        List.intercalate_singleton]
    | cons next first =>
      rw [List.cons_append, List.cons_append, List.intercalate_cons_cons, ← List.cons_append,
        ih (List.cons_ne_nil _ _), List.intercalate_cons_cons]
      simp only [List.append_assoc]

/-- The text shows the words `values`, one space between any two. -/
def Shows (text : String) (values : List String) : Prop :=
  ∃ items : List Word, text.toList = [' '].intercalate (items.map Word.shown) ∧
    items.map Word.value = values.map String.toList ∧ items ≠ []

theorem Shows.words_eq {text : String} {values : List String} (h : Shows text values) :
    words text = values := by
  obtain ⟨items, htext, hvalues, -⟩ := h
  rw [words, htext, wordsFrom_intercalate, hvalues, List.map_map]
  simp

theorem Shows.ne_nil {text : String} {values : List String} (h : Shows text values) :
    values ≠ [] := by
  obtain ⟨items, -, hvalues, hne⟩ := h
  rintro rfl
  exact hne (List.map_eq_nil_iff.mp hvalues)

theorem Shows.text_ne {text : String} {values : List String} (h : Shows text values) :
    text ≠ "" := by
  rintro rfl
  exact h.ne_nil h.words_eq.symm

/-- A character that neither parts words nor quotes them. -/
def isPlain (c : Char) : Bool := c != '"' && c != ' '

theorem shows_plain {text : String} (hne : text ≠ "") (h : text.toList.all isPlain = true) :
    Shows text [text] := by
  have hchars : ∀ c ∈ text.toList, c ≠ '"' ∧ c ≠ ' ' := by
    intro c hc
    have hplain := List.all_eq_true.mp h c hc
    rw [isPlain, Bool.and_eq_true, bne_iff_ne, bne_iff_ne] at hplain
    exact hplain
  exact ⟨[⟨text.toList, text.toList, puts_plain hchars,
    fun hnil => hne (String.toList_inj.mp hnil)⟩], List.intercalate_singleton.symm, rfl,
    List.cons_ne_nil _ _⟩

theorem shows_quoted {text : String} (hne : text ≠ "") (h : '"' ∉ text.toList) :
    Shows ("\"" ++ text ++ "\"") [text] := by
  refine ⟨[⟨'"' :: (text.toList ++ ['"']), text.toList, puts_quoted h,
    fun hnil => hne (String.toList_inj.mp hnil)⟩], ?_, rfl, List.cons_ne_nil _ _⟩
  rw [String.toList_append, String.toList_append, List.map_singleton, List.intercalate_singleton]
  rfl

/-- Two texts of words with a space between them. -/
theorem Shows.append {first second : String} {values others : List String}
    (hfirst : Shows first values) (hsecond : Shows second others) :
    Shows (first ++ " " ++ second) (values ++ others) := by
  obtain ⟨items, htext, hvalues, hne⟩ := hfirst
  obtain ⟨items', htext', hvalues', hne'⟩ := hsecond
  refine ⟨items ++ items', ?_, ?_, fun h => hne (List.append_eq_nil_iff.mp h).1⟩
  · rw [String.toList_append, String.toList_append, htext, htext', List.map_append]
    exact (intercalate_append [' '] (fun h => hne (List.map_eq_nil_iff.mp h))
      fun h => hne' (List.map_eq_nil_iff.mp h)).symm
  · rw [List.map_append, List.map_append, hvalues, hvalues']

/-! ## Rules -/

inductive Protocol where
  | tcp
  | udp
  | icmp
  | icmp6
  | other (number : ℕ)
deriving DecidableEq, Repr

inductive ConnectionState where
  | new
  | established
  | related
  | invalid
deriving DecidableEq, Repr

inductive Target where
  | accept
  | drop
  | reject (reply : String)
  | goBack
deriving DecidableEq, Repr

/-- An inclusive range of ports. -/
structure Ports where
  first : ℕ
  last : ℕ
deriving DecidableEq, Repr

/-- What an appended rule asks of a packet, and what becomes of the packet. -/
structure Rule where
  source : Option String := none
  dest : Option String := none
  interface : Option String := none
  protocol : Option Protocol := none
  sourcePorts : Option Ports := none
  destPorts : Option Ports := none
  states : Option (List ConnectionState) := none
  target : Option Target := none
deriving DecidableEq, Repr

def protocolNamed : String → Option Protocol
  | "tcp" => some .tcp
  | "udp" => some .udp
  | "icmp" => some .icmp
  | "ipv6-icmp" => some .icmp6
  | _ => none

def stateNamed : String → Option ConnectionState
  | "NEW" => some .new
  | "ESTABLISHED" => some .established
  | "RELATED" => some .related
  | "INVALID" => some .invalid
  | _ => none

/-- A port of decimal digits. -/
def portNumber (text : String) : Option ℕ :=
  if text ≠ "" && text.toList.all JavaScript.isDigit then some (Nat.ofDigitChars 10 text.toList 0)
  else none

/-- `N`, or `N:M` with `N ≤ M`. -/
def portsNamed (text : String) : Option Ports :=
  match JavaScript.split ':' text with
  | [port] => (portNumber port).map fun n => ⟨n, n⟩
  | [low, high] => do
    let first ← portNumber low
    let last ← portNumber high
    if first ≤ last then some ⟨first, last⟩ else none
  | _ => none

/-- The words of a rule after its chain, added to what earlier words said.  The jump comes
last. -/
def readWords : List String → Rule → Option Rule
  | "-s" :: literal :: rest, rule => readWords rest { rule with source := some literal }
  | "-d" :: literal :: rest, rule => readWords rest { rule with dest := some literal }
  | "-i" :: name :: rest, rule => readWords rest { rule with interface := some name }
  | "-p" :: name :: rest, rule =>
    (protocolNamed name).bind fun protocol =>
      readWords rest { rule with protocol := some protocol }
  | "--sport" :: text :: rest, rule =>
    (portsNamed text).bind fun ports => readWords rest { rule with sourcePorts := some ports }
  | "--dport" :: text :: rest, rule =>
    (portsNamed text).bind fun ports => readWords rest { rule with destPorts := some ports }
  | "-m" :: _ :: rest, rule => readWords rest rule
  | "--comment" :: _ :: rest, rule => readWords rest rule
  | "--ctstate" :: text :: rest, rule =>
    ((JavaScript.split ',' text).mapM stateNamed).bind fun states =>
      readWords rest { rule with states := some states }
  | ["-j", "ACCEPT"], rule => some { rule with target := some .accept }
  | ["-j", "DROP"], rule => some { rule with target := some .drop }
  | ["-j", "RETURN"], rule => some { rule with target := some .goBack }
  | ["-j", "REJECT", "--reject-with", reply], rule =>
    some { rule with target := some (.reject reply) }
  | _, _ => none

/-- Ports are asked of `tcp` and `udp` only, and a reset answers `tcp` only. -/
def Rule.loads (rule : Rule) : Bool :=
  (rule.sourcePorts.isNone && rule.destPorts.isNone ||
      rule.protocol == some .tcp || rule.protocol == some .udp) &&
    (rule.target != some (.reject "tcp-reset") || rule.protocol == some .tcp)

/-- The rule a line appends to `chain`: `none` when the line is another's, and `some none` when
it does not load. -/
def readLine (chain line : String) : Option (Option Rule) :=
  (JavaScript.afterFront ("-A " ++ chain ++ " ") line).map fun text =>
    (readWords (words text) {}).filter Rule.loads

/-- The rules a document appends to `chain`, in order. -/
def readChain (chain document : String) : Option (List Rule) :=
  ((JavaScript.split '\n' document).filterMap (readLine chain)).mapM id

/-! ## Lines that append rules -/

/-- The lines append exactly these rules to the chain. -/
def Appends (chain : String) (lines : List String) (rules : List Rule) : Prop :=
  lines.filterMap (readLine chain) = rules.map some

section

variable {chain : String}

theorem appends_nil : Appends chain [] [] := rfl

theorem Appends.append {lines lines' : List String} {rules rules' : List Rule}
    (h : Appends chain lines rules) (h' : Appends chain lines' rules') :
    Appends chain (lines ++ lines') (rules ++ rules') := by
  rw [Appends, List.filterMap_append, List.map_append, h, h']

theorem appends_of_none {lines : List String} (h : ∀ line ∈ lines, readLine chain line = none) :
    Appends chain lines [] :=
  List.filterMap_eq_nil_iff.mpr h

theorem appends_map {α : Type} {items : List α} {line : α → String} {rule : α → Rule}
    (h : ∀ item ∈ items, readLine chain (line item) = some (some (rule item))) :
    Appends chain (items.map line) (items.map rule) := by
  rw [Appends, List.filterMap_map, List.map_map]
  induction items with
  | nil => rfl
  | cons item items ih =>
    obtain ⟨hitem, hitems⟩ := List.forall_mem_cons.mp h
    have hline : (readLine chain ∘ line) item = some (some (rule item)) := hitem
    rw [List.filterMap_cons_some hline, ih hitems]
    rfl

theorem appends_flatMap {α : Type} {items : List α} {lines : α → List String}
    {rules : α → List Rule} (h : ∀ item ∈ items, Appends chain (lines item) (rules item)) :
    Appends chain (items.flatMap lines) (items.flatMap rules) := by
  induction items with
  | nil => exact appends_nil
  | cons item items ih =>
    obtain ⟨hitem, hitems⟩ := List.forall_mem_cons.mp h
    rw [List.flatMap_cons, List.flatMap_cons]
    exact hitem.append (ih hitems)

/-- A line whose words are those of a rule appends it. -/
theorem readLine_of_shows {text : String} {values : List String} {rule : Rule}
    (htext : Shows text values) (hread : readWords values {} = some rule)
    (hloads : rule.loads = true) : readLine chain ("-A " ++ chain ++ " " ++ text) = some (some rule) := by
  rw [readLine, JavaScript.afterFront_append, Option.map_some, htext.words_eq, hread,
    Option.filter_some, if_pos hloads]

/-- A line that starts otherwise appends nothing. -/
theorem readLine_of_head {line : String} (h : line.toList.head? ≠ some '-') :
    readLine chain line = none := by
  have hfront : JavaScript.afterFront ("-A " ++ chain ++ " ") line = none := by
    cases hafter : JavaScript.afterFront ("-A " ++ chain ++ " ") line with
    | none => rfl
    | some rest =>
      refine absurd ?_ h
      rw [JavaScript.afterFront_eq_some_iff.mp hafter]
      simp only [String.toList_append]
      rfl
  rw [readLine, hfront, Option.map_none]

/-- A chain is read from the lines of its document. -/
theorem readChain_of_appends {lines : List String} {rules : List Rule} (h : Appends chain lines rules)
    (hlines : ∀ line ∈ lines, '\n' ∉ line.toList) (hne : lines ≠ []) :
    readChain chain ("\n".intercalate lines ++ "\n") = some rules := by
  have hsplit : JavaScript.split '\n' ("\n".intercalate lines ++ "\n") = lines ++ [""] := by
    have hjoined : "\n".intercalate lines ++ "\n" =
        (String.singleton '\n').intercalate lines ++ String.singleton '\n' ++ "" := by
      rw [String.append_empty]
      rfl
    rw [hjoined, JavaScript.split_append, JavaScript.split_intercalate hlines hne]
    rfl
  have hempty : readLine chain "" = none := readLine_of_head (by decide)
  have happends := h.append (appends_of_none (List.forall_mem_singleton.mpr hempty))
  rw [List.append_nil] at happends
  rw [readChain, hsplit, happends, List.mapM_map, Programs.mapM_eq_some_iff]
  exact List.forall₂_same.mpr fun _ _ => rfl

end

/-! ## What decides a packet -/

structure Packet (A : Type) where
  interface : String
  state : ConnectionState
  protocol : Protocol
  source : A
  dest : A
  sourcePort : ℕ
  destPort : ℕ

def Ports.holds (ports : Ports) (port : ℕ) : Bool := ports.first ≤ port && port ≤ ports.last

/-- Whether a pattern names an interface: a plus at its end stands for any ending. -/
def namesInterface (pattern name : String) : Bool :=
  if pattern.toList.getLast? = some '+' then pattern.toList.dropLast.isPrefixOf name.toList
  else name == pattern

/-- Whether the packet is what the rule asks for; `covers` tells which addresses a literal
covers. -/
def Rule.matches {A : Type} (covers : String → A → Bool) (rule : Rule) (packet : Packet A) : Bool :=
  rule.source.all (covers · packet.source) && rule.dest.all (covers · packet.dest) &&
    rule.interface.all (namesInterface · packet.interface) && rule.protocol.all (packet.protocol == ·) &&
    rule.sourcePorts.all (·.holds packet.sourcePort) &&
    rule.destPorts.all (·.holds packet.destPort) && rule.states.all (·.contains packet.state)

/-- The target of the first rule that matches, `none` at the end of the chain. -/
def verdict {A : Type} (covers : String → A → Bool) (chain : List Rule) (packet : Packet A) :
    Option Target :=
  (chain.find? (·.matches covers packet)).bind Rule.target

section

variable {A : Type} {covers : String → A → Bool} {packet : Packet A}

/-- Rules none of which matches do not decide. -/
theorem verdict_append_of_not {front back : List Rule}
    (h : ∀ rule ∈ front, rule.matches covers packet = false) :
    verdict covers (front ++ back) packet = verdict covers back packet := by
  rw [verdict, verdict, List.find?_append]
  have hnone : front.find? (·.matches covers packet) = none := by
    rw [List.find?_eq_none]
    intro rule hrule
    rw [h rule hrule]
    exact Bool.false_ne_true
  rw [hnone, Option.none_or]

/-- Where a rule matches and all rules of the stretch have one target, that target decides. -/
theorem verdict_append_of_mem {front back : List Rule} {target : Target}
    (htarget : ∀ rule ∈ front, rule.target = some target) {rule : Rule} (hrule : rule ∈ front)
    (h : rule.matches covers packet = true) :
    verdict covers (front ++ back) packet = some target := by
  rw [verdict, List.find?_append]
  obtain ⟨found, hfound⟩ := Option.isSome_iff_exists.mp
    (List.find?_isSome (p := fun rule => rule.matches covers packet) |>.mpr ⟨rule, hrule, h⟩)
  rw [hfound, Option.some_or, Option.bind_some]
  exact htarget found (List.mem_of_find?_eq_some hfound)

/-- Stretches with one target each: the first of which a rule matches decides. -/
theorem verdict_flatMap_append {α : Type} {items : List α} {rules : α → List Rule}
    {target : α → Target} (htarget : ∀ item, ∀ rule ∈ rules item, rule.target = some (target item))
    (back : List Rule) :
    verdict covers (items.flatMap rules ++ back) packet =
      match items.find? fun item => (rules item).any (·.matches covers packet) with
      | some item => some (target item)
      | none => verdict covers back packet := by
  induction items with
  | nil => rfl
  | cons item items ih =>
    rw [List.flatMap_cons, List.append_assoc, List.find?_cons]
    cases hany : (rules item).any (·.matches covers packet) with
    | true =>
      obtain ⟨rule, hrule, hmatches⟩ := List.any_eq_true.mp hany
      exact verdict_append_of_mem (htarget item) hrule hmatches
    | false =>
      rw [verdict_append_of_not fun rule hrule => Bool.not_eq_true _ ▸ List.any_eq_false.mp hany rule hrule]
      exact ih

end

end Turbopaneld.Netfilter
