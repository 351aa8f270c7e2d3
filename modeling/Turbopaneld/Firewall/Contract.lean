/-
# The contract of a firewall payload

`parseFirewallReconcilePayload` checks what the control plane sends before anything is
rendered from it.  What the rest of the development needs of an accepted payload is said once,
by `FirewallRule.WellFormed`.
-/

import Turbopaneld.DockerGate.Approval
import Turbopaneld.Firewall.Addresses
import Turbopaneld.Programs.Fallible

namespace Turbopaneld.Firewall

open JavaScript
open DockerGate (Json numberOf)

/-! ## The payload -/

inductive FirewallRuleScope where
  | host
  | published
deriving DecidableEq, Repr

inductive FirewallRuleAction where
  | accept
  | drop
  | reject
deriving DecidableEq, Repr

inductive FirewallRuleProto where
  | tcp
  | udp
  | any
deriving DecidableEq, Repr

inductive FirewallRuleOrigin where
  | system
  | derived
  | user
deriving DecidableEq, Repr

inductive FirewallMode where
  | managed
  | observe
  | off
deriving DecidableEq, Repr

inductive InputDefault where
  | accept
  | drop
deriving DecidableEq, Repr

inductive Ipv6Policy where
  | mirror
  | skip
deriving DecidableEq, Repr

structure FirewallRule where
  id : String
  scope : FirewallRuleScope
  action : FirewallRuleAction
  proto : FirewallRuleProto
  origin : FirewallRuleOrigin
  sources : List String
  ports : Option String
  destinations : Option (List String)
  comment : Option String
deriving DecidableEq, Repr

structure FirewallPolicy where
  inputDefault : InputDefault
  ipv6 : Ipv6Policy
deriving DecidableEq, Repr

structure FirewallReconcilePayload where
  generation : ℕ
  mode : FirewallMode
  policy : FirewallPolicy
  rules : List FirewallRule
  /-- `controlPlane.tcpPorts`. -/
  controlPlane : Option (List ℕ)
  sshPorts : Option (List ℕ)
deriving DecidableEq, Repr

/-! ## Texts and numbers -/

def isRuleIdChar (c : Char) : Bool :=
  isLetter c || isDigit c || c == '_' || c == '.' || c == ':' || c == '-'

def isCommentChar (c : Char) : Bool :=
  isLetter c || isDigit c || c == ' ' || c == '.' || c == '_' || c == ':' || c == '/' || c == '-'

/-- `FIREWALL_RULE_ID_RE`. -/
def isRuleId (text : String) : Bool :=
  1 ≤ text.toList.length && text.toList.length ≤ 64 && text.toList.all isRuleIdChar

/-- `FIREWALL_COMMENT_RE`. -/
def isComment (text : String) : Bool :=
  1 ≤ text.toList.length && text.toList.length ≤ 48 && text.toList.all isCommentChar

def firewallMaxRules : ℕ := 1024

def firewallMaxSources : ℕ := 256

/-- A number that is an integer of at least `low`. -/
def integerFrom (low : ℕ) : Option Json → Option ℕ
  | some (.number token) =>
    (numberOf token).bind fun q => if q.den = 1 ∧ (low : ℤ) ≤ q.num then some q.num.toNat else none
  | _ => none

/-- `isValidFirewallPort` of a parsed number. -/
def isPort (port : ℕ) : Bool := 1 ≤ port && port ≤ 65535

/-- A value that is a valid port. -/
def portOf (value : Json) : Option ℕ := (integerFrom 1 (some value)).filter fun n => n ≤ 65535

structure PortRange where
  first : ℕ
  last : ℕ
deriving DecidableEq, Repr

/-- `8443` or `5432-5440`, inclusive and ascending. -/
def parseFirewallPortRange (value : String) : Option PortRange :=
  match split '-' (trim value) with
  | [low] =>
    let port := decimalNumber low.toList
    if isDigits 1 5 low && isPort port then some ⟨port, port⟩ else none
  | [low, high] =>
    let first := decimalNumber low.toList
    let last := decimalNumber high.toList
    if isDigits 1 5 low && isDigits 1 5 high && isPort first && isPort last && first ≤ last then
      some ⟨first, last⟩
    else none
  | _ => none

/-- `typeof` of a JSON value. -/
def typeOf : Json → String
  | .bool _ => "boolean"
  | .number _ => "number"
  | .string _ => "string"
  | _ => "object"

/-- `any`, a block, or a bare address made a block of one. -/
def parseFirewallAddress : Json → Option String
  | .string value =>
    let trimmed := trim value
    if trimmed = "any" then some "any"
    else if isValidIpv4Literal trimmed then some (trimmed ++ "/32")
    else if isValidIpv6Literal trimmed then some (trimmed ++ "/128")
    else if (parseCidrLiteral trimmed).isSome then some trimmed
    else none
  | _ => none

/-- `if (!out.includes(item)) out.push(item)`. -/
def pushNew {α : Type} [BEq α] (out : List α) (item : α) : List α :=
  if out.contains item then out else out ++ [item]

/-! ## The parsers -/

/-- One entry of an address list. -/
def pushFirewallAddress (field : String) (out : List String) (entry : Json) :
    Except String (List String) :=
  match parseFirewallAddress entry with
  | some parsed => .ok (pushNew out parsed)
  | none =>
    let shown := match entry with
      | .string text => text
      | value => typeOf value
    .error (field ++ " entry must be \"any\", an IP literal or a CIDR: " ++ shown)

def parseFirewallAddressList (value : Option Json) (field : String) (allowEmpty : Bool) :
    Except String (List String) :=
  match value with
  | some (.array entries) =>
    if !allowEmpty && entries.isEmpty then
      .error (field ++ " must name at least one address or \"any\"")
    else if firewallMaxSources < entries.length then .error (field ++ " exceeds " ++ toString firewallMaxSources ++ " entries")
    else entries.foldlM (pushFirewallAddress field) []
  | _ => .error (field ++ " must be an array")

/-- A field checked against the values it may have. -/
def closedSet {α : Type} (values : List (String × α)) (value : Option Json) (complaint : String) :
    Except String α :=
  match value with
  | some (.string text) =>
    match values.lookup text with
    | some found => .ok found
    | none => .error complaint
  | _ => .error complaint

def firewallScopes : List (String × FirewallRuleScope) :=
  [("host", .host), ("published", .published)]

def firewallActions : List (String × FirewallRuleAction) :=
  [("accept", .accept), ("drop", .drop), ("reject", .reject)]

def firewallProtos : List (String × FirewallRuleProto) :=
  [("tcp", .tcp), ("udp", .udp), ("any", .any)]

def firewallOrigins : List (String × FirewallRuleOrigin) :=
  [("system", .system), ("derived", .derived), ("user", .user)]

def firewallModes : List (String × FirewallMode) :=
  [("managed", .managed), ("observe", .observe), ("off", .off)]

/-- `rules[index].name`. -/
def ruleField (index : ℕ) (name : String) : String := s!"rules[{index}]." ++ name

def parseFirewallRuleId (value : Option Json) (index : ℕ) : Except String String :=
  let complaint := ruleField index "id must match /^[A-Za-z0-9_.:-]\x7b1,64\x7d$/"
  match value with
  | some (.string id) => if isRuleId id then .ok id else .error complaint
  | _ => .error complaint

structure FirewallRuleHead where
  id : String
  scope : FirewallRuleScope
  action : FirewallRuleAction
  proto : FirewallRuleProto
  origin : FirewallRuleOrigin

def parseFirewallRuleHead (value : Json) (index : ℕ) : Except String FirewallRuleHead := do
  let id ← parseFirewallRuleId (value.field "id") index
  let scope ← closedSet firewallScopes (value.field "scope")
    (ruleField index "scope must be host or published")
  let action ← closedSet firewallActions (value.field "action")
    (ruleField index "action must be accept, drop or reject")
  let proto ← closedSet firewallProtos (value.field "proto")
    (ruleField index "proto must be tcp, udp or any")
  let origin ← closedSet firewallOrigins (value.field "origin")
    (ruleField index "origin must be system, derived or user")
  return ⟨id, scope, action, proto, origin⟩

/-- `N` or `N-M`. -/
def PortRange.normal (range : PortRange) : String :=
  if range.first = range.last then toString range.first
  else toString range.first ++ "-" ++ toString range.last

def parseFirewallRulePorts (value : Option Json) (rule : FirewallRuleHead) (index : ℕ) :
    Except String (Option String) :=
  match value with
  | none =>
    if rule.action = .accept then
      .error (ruleField index "ports is required on an accept rule")
    else .ok none
  | some (.string text) =>
    match parseFirewallPortRange text with
    | none => .error (ruleField index "ports must be a port or an ascending range 1-65535")
    | some range =>
      if rule.proto = .any then .error (ruleField index "ports requires proto tcp or udp")
      else .ok (some range.normal)
  | some _ => .error (ruleField index "ports must be a string")

def parseFirewallRuleDestinations (value : Option Json) (index : ℕ) :
    Except String (Option (List String)) :=
  match value with
  | none => .ok none
  | some value => do
    let destinations ← parseFirewallAddressList (some value) (ruleField index "destinations") true
    if destinations.contains "any" then
      .error (ruleField index "destinations lists addresses, not \"any\" (omit it instead)")
    else return if destinations.isEmpty then none else some destinations

def parseFirewallRuleComment (value : Option Json) (index : ℕ) : Except String (Option String) :=
  let complaint :=
    ruleField index "comment must be 1-48 chars of letters, digits, space . _ : / -"
  match value with
  | none => .ok none
  | some (.string text) => if isComment text then .ok (some text) else .error complaint
  | some _ => .error complaint

def parseFirewallRule (value : Json) (index : ℕ) : Except String FirewallRule :=
  if !value.isRecord then .error (s!"rules[{index}]" ++ " must be an object")
  else do
    let head ← parseFirewallRuleHead value index
    let sources ← parseFirewallAddressList (value.field "sources") (ruleField index "sources") false
    let ports ← parseFirewallRulePorts (value.field "ports") head index
    let destinations ← parseFirewallRuleDestinations (value.field "destinations") index
    let comment ← parseFirewallRuleComment (value.field "comment") index
    return ⟨head.id, head.scope, head.action, head.proto, head.origin, sources, ports,
      destinations, comment⟩

/-- One entry of a port list. -/
def pushFirewallPort (field : String) (out : List ℕ) (entry : Json) : Except String (List ℕ) :=
  match portOf entry with
  | some port => .ok (pushNew out port)
  | none => .error (field ++ " entries must be integers 1-65535")

def parseFirewallPortList (value : Option Json) (field : String) : Except String (List ℕ) :=
  match value with
  | some (.array entries) => do
    let out ← entries.foldlM (pushFirewallPort field) []
    return out.mergeSort (· ≤ ·)
  | _ => .error (field ++ " must be an array of ports")

def parseFirewallPolicy (value : Option Json) : Except String FirewallPolicy :=
  match value with
  | some (.object fields) => do
    let record := Json.object fields
    let inputDefault ← closedSet [("accept", InputDefault.accept), ("drop", .drop)]
      (record.field "inputDefault") "policy.inputDefault must be accept or drop"
    let ipv6 ← closedSet [("mirror", Ipv6Policy.mirror), ("skip", .skip)] (record.field "ipv6")
      "policy.ipv6 must be mirror or skip"
    return ⟨inputDefault, ipv6⟩
  | _ => .error "policy must be an object"

/-- The rules in order, each with its index. -/
def parseRulesFrom : ℕ → List Json → Except String (List FirewallRule)
  | _, [] => .ok []
  | index, value :: rest => do
    let rule ← parseFirewallRule value index
    let others ← parseRulesFrom (index + 1) rest
    return rule :: others

/-- The first id that an earlier rule already has. -/
def repeatedId : List String → List FirewallRule → Option String
  | _, [] => none
  | seen, rule :: rest => if seen.contains rule.id then some rule.id else repeatedId (rule.id :: seen) rest

def parseFirewallRules (value : Option Json) : Except String (List FirewallRule) :=
  match value with
  | some (.array values) =>
    if firewallMaxRules < values.length then .error ("rules exceeds " ++ toString firewallMaxRules ++ " entries")
    else do
      let rules ← parseRulesFrom 0 values
      match repeatedId [] rules with
      | some id => .error ("rules contains id " ++ id ++ " more than once")
      | none => return rules
  | _ => .error "rules must be an array"

/-- The `controlPlane` of a payload, when there is one. -/
def parseControlPlane : Option Json → Except String (Option (List ℕ))
  | none => .ok none
  | some (.object fields) =>
    some <$> parseFirewallPortList ((Json.object fields).field "tcpPorts") "controlPlane.tcpPorts"
  | some _ => .error "controlPlane must be an object"

/-- The `sshPorts` of a payload, when there are any. -/
def parseSshPorts : Option Json → Except String (Option (List ℕ))
  | none => .ok none
  | some ports => some <$> parseFirewallPortList (some ports) "sshPorts"

def parseFirewallReconcilePayload (value : Json) : Except String FirewallReconcilePayload :=
  if !value.isRecord then .error "Invalid firewall reconcile payload"
  else
    match integerFrom 0 (value.field "generation") with
    | none => .error "generation must be a non-negative integer"
    | some generation => do
      let mode ← closedSet firewallModes (value.field "mode") "mode must be managed, observe or off"
      let policy ← parseFirewallPolicy (value.field "policy")
      let rules ← parseFirewallRules (value.field "rules")
      let controlPlane ← parseControlPlane (value.field "controlPlane")
      let sshPorts ← parseSshPorts (value.field "sshPorts")
      return ⟨generation, mode, policy, rules, controlPlane, sshPorts⟩

/-! ## What is accepted -/

/-- What the parser checked of a rule. -/
structure FirewallRule.WellFormed (rule : FirewallRule) : Prop where
  id : ∀ c ∈ rule.id.toList, isRuleIdChar c = true
  sources : ∀ source ∈ rule.sources, source = "any" ∨ IsLiteral source
  destinations : ∀ destinations ∈ rule.destinations, ∀ dest ∈ destinations, IsLiteral dest
  ports : ∀ text ∈ rule.ports, rule.proto ≠ .any ∧ ∃ range, parseFirewallPortRange text = some range
  accept : rule.action = .accept → rule.ports ≠ none
  comment : ∀ text ∈ rule.comment, text ≠ "" ∧ ∀ c ∈ text.toList, isCommentChar c = true

/-- A step of a fallible loop that keeps a property of what is collected. -/
theorem foldlM_invariant {α β : Type} {P : β → Prop} {step : β → α → Except String β}
    (hstep : ∀ out item out', P out → step out item = .ok out' → P out') {items : List α}
    {out out' : β} (hout : P out) (h : items.foldlM step out = .ok out') : P out' := by
  induction items generalizing out with
  | nil =>
    obtain rfl := Except.ok.inj h
    exact hout
  | cons item items ih =>
    rw [List.foldlM_cons] at h
    obtain ⟨next, hnext, hrest⟩ := Programs.bind_eq_ok_iff.mp h
    exact ih (hstep _ _ _ hout hnext) hrest

theorem forall_mem_pushNew {α : Type} [BEq α] {P : α → Prop} {out : List α} {item : α}
    (hout : ∀ x ∈ out, P x) (hitem : P item) : ∀ x ∈ pushNew out item, P x := by
  rw [pushNew]
  split
  · exact hout
  · rw [List.forall_mem_append]
    exact ⟨hout, List.forall_mem_singleton.mpr hitem⟩

theorem isLiteral_of_parseFirewallAddress {value : Json} {parsed : String}
    (h : parseFirewallAddress value = some parsed) : parsed = "any" ∨ IsLiteral parsed := by
  unfold parseFirewallAddress at h
  split at h
  case h_2 => cases h
  case h_1 text =>
    dsimp only at h
    split_ifs at h with hany hipv4 hipv6 hcidr
    · exact .inl (Option.some.inj h).symm
    · obtain rfl := Option.some.inj h
      exact .inr (isLiteral_of_char_slash (isLiteralChar_of_isValidIpv4Literal hipv4)
        (List.all_eq_true.mp (by decide)) (by decide))
    · obtain rfl := Option.some.inj h
      exact .inr (isLiteral_of_char_slash (isLiteralChar_of_isValidIpv6Literal hipv6)
        (List.all_eq_true.mp (by decide)) (by decide))
    · obtain rfl := Option.some.inj h
      rw [parseCidrLiteral, trim_trim] at hcidr
      split_ifs at hcidr with hinvalid
      · cases hcidr
      · rw [Bool.not_eq_true', Bool.not_eq_false] at hinvalid
        exact .inr (isLiteral_of_isValidWireguardAllowedIp (trim_trim text) hinvalid)

theorem isLiteral_of_parseFirewallAddressList {value : Option Json} {field : String}
    {allowEmpty : Bool} {parsed : List String}
    (h : parseFirewallAddressList value field allowEmpty = .ok parsed) :
    ∀ address ∈ parsed, address = "any" ∨ IsLiteral address := by
  unfold parseFirewallAddressList at h
  split at h
  case h_2 => cases h
  case h_1 entries =>
    split_ifs at h
    refine foldlM_invariant (P := fun out : List String =>
      ∀ address ∈ out, address = "any" ∨ IsLiteral address) ?_ ?_ h
    · intro out entry out' hout hstep
      unfold pushFirewallAddress at hstep
      split at hstep
      case h_1 address haddress =>
        obtain rfl := Except.ok.inj hstep
        exact forall_mem_pushNew hout (isLiteral_of_parseFirewallAddress haddress)
      case h_2 => cases hstep
    · exact fun address haddress => absurd haddress List.not_mem_nil

/-! ## Ports as they are normalised -/

/-- What a parsed range satisfies. -/
structure PortRange.Valid (range : PortRange) : Prop where
  low : 1 ≤ range.first
  ordered : range.first ≤ range.last
  high : range.last ≤ 65535

theorem valid_of_parseFirewallPortRange {text : String} {range : PortRange}
    (h : parseFirewallPortRange text = some range) : range.Valid := by
  unfold parseFirewallPortRange at h
  split at h
  case h_1 low =>
    dsimp only at h
    split_ifs at h with hvalid
    obtain rfl := Option.some.inj h
    rw [isPort, Bool.and_eq_true, Bool.and_eq_true, decide_eq_true_eq, decide_eq_true_eq] at hvalid
    exact ⟨hvalid.2.1, le_rfl, hvalid.2.2⟩
  case h_2 low high =>
    dsimp only at h
    split_ifs at h with hvalid
    obtain rfl := Option.some.inj h
    simp only [isPort, Bool.and_eq_true, decide_eq_true_eq] at hvalid
    exact ⟨hvalid.1.1.2.1, hvalid.2, hvalid.1.2.2⟩
  case h_3 => cases h

theorem toList_toString (n : ℕ) : (toString n).toList = Nat.toDigits 10 n := by
  rw [Nat.toString_eq_ofList_toDigits, String.toList_ofList]

theorem isDigit_of_mem_toString (n : ℕ) : ∀ c ∈ (toString n).toList, isDigit c = true := by
  intro c hc
  rw [toList_toString] at hc
  have hdigit := Nat.isDigit_of_mem_toDigits (by decide) le_rfl hc
  rw [Char.isDigit, Bool.and_eq_true, decide_eq_true_eq, decide_eq_true_eq] at hdigit
  rw [isDigit, Bool.and_eq_true, decide_eq_true_eq, decide_eq_true_eq]
  exact hdigit

theorem decimalNumber_toString (n : ℕ) : decimalNumber (toString n).toList = n := by
  rw [decimalNumber, toList_toString, Nat.ofDigitChars_ten_toDigits]

theorem isDigits_toString {n : ℕ} (hn : n ≤ 65535) : isDigits 1 5 (toString n) = true := by
  have hlength : (Nat.toDigits 10 n).length ≤ 5 :=
    (Nat.length_toDigits_le_iff (by decide) (by decide)).mpr (by omega)
  have hpos : 1 ≤ (Nat.toDigits 10 n).length := Nat.length_toDigits_pos
  rw [isDigits, List.all_eq_true.mpr (isDigit_of_mem_toString n), toList_toString,
    decide_eq_true hlength, decide_eq_true hpos]
  rfl

/-- The normal text of a range is read back as that range. -/
theorem parseFirewallPortRange_normal {range : PortRange} (hvalid : range.Valid) :
    parseFirewallPortRange range.normal = some range := by
  obtain ⟨first, last⟩ := range
  obtain ⟨hlow, hordered, hhigh⟩ := hvalid
  dsimp only at hlow hordered hhigh
  have hdash : ∀ n : ℕ, '-' ∉ (toString n).toList := by
    intro n hmem
    exact absurd (isDigit_of_mem_toString n _ hmem) (by decide)
  have hspace : ∀ n : ℕ, ∀ c ∈ (toString n).toList, isSpace c = false := fun n c hc =>
    isSpace_of_isHexDigit (isHexDigit_of_isDigit (isDigit_of_mem_toString n c hc))
  have hport : ∀ n, 1 ≤ n → n ≤ 65535 → isPort n = true := by
    intro n hn hn'
    rw [isPort, decide_eq_true hn, decide_eq_true hn']
    rfl
  have hfirst := hordered.trans hhigh
  rw [parseFirewallPortRange, PortRange.normal]
  by_cases hsame : first = last
  · subst hsame
    rw [if_pos rfl, trim_of_forall (hspace first), split_of_notMem (hdash first)]
    dsimp only
    rw [decimalNumber_toString, isDigits_toString hhigh, hport first hlow hhigh]
    rfl
  · have htext : toString first ++ "-" ++ toString last =
        toString first ++ String.singleton '-' ++ toString last := rfl
    have hclean : ∀ c ∈ (toString first ++ String.singleton '-' ++ toString last).toList,
        isSpace c = false := by
      rw [String.toList_append, String.toList_append, List.forall_mem_append,
        List.forall_mem_append, String.toList_singleton, List.forall_mem_singleton]
      exact ⟨⟨hspace first, by decide⟩, hspace last⟩
    rw [if_neg hsame, htext, trim_of_forall hclean, split_append_cons (hdash first),
      split_of_notMem (hdash last)]
    dsimp only
    rw [decimalNumber_toString, decimalNumber_toString, isDigits_toString hfirst,
      isDigits_toString hhigh, hport first hlow hfirst,
      hport last (hlow.trans hordered) hhigh, decide_eq_true hordered]
    rfl

/-! ## Accepted rules -/

theorem isRuleIdChar_of_parseFirewallRuleHead {value : Json} {index : ℕ} {head : FirewallRuleHead}
    (h : parseFirewallRuleHead value index = .ok head) :
    ∀ c ∈ head.id.toList, isRuleIdChar c = true := by
  obtain ⟨id, hid, h⟩ := Programs.bind_eq_ok_iff.mp h
  obtain ⟨scope, -, h⟩ := Programs.bind_eq_ok_iff.mp h
  obtain ⟨action, -, h⟩ := Programs.bind_eq_ok_iff.mp h
  obtain ⟨proto, -, h⟩ := Programs.bind_eq_ok_iff.mp h
  obtain ⟨origin, -, h⟩ := Programs.bind_eq_ok_iff.mp h
  obtain rfl := Except.ok.inj h
  unfold parseFirewallRuleId at hid
  dsimp only at hid
  split at hid
  case h_2 => cases hid
  case h_1 text =>
    split_ifs at hid with hvalid
    obtain rfl := Except.ok.inj hid
    rw [isRuleId, Bool.and_eq_true] at hvalid
    exact List.all_eq_true.mp hvalid.2

theorem isLiteral_of_parseFirewallRuleDestinations {value : Option Json} {index : ℕ}
    {destinations : Option (List String)}
    (h : parseFirewallRuleDestinations value index = .ok destinations) :
    ∀ others ∈ destinations, ∀ dest ∈ others, IsLiteral dest := by
  unfold parseFirewallRuleDestinations at h
  split at h
  case h_1 =>
    obtain rfl := Except.ok.inj h
    rintro _ ⟨⟩
  case h_2 value =>
    obtain ⟨parsed, hparsed, h⟩ := Programs.bind_eq_ok_iff.mp h
    split_ifs at h with hany
    · obtain rfl := Except.ok.inj h
      rintro _ ⟨⟩
    · obtain rfl := Except.ok.inj h
      intro others hothers dest hdest
      obtain rfl := Option.mem_some_iff.mp hothers
      refine (isLiteral_of_parseFirewallAddressList hparsed dest hdest).resolve_left ?_
      rintro rfl
      exact hany (List.contains_iff_mem.mpr hdest)

/-- An accept names its ports, and ports go with `tcp` or `udp`. -/
theorem ports_of_parseFirewallRulePorts {value : Option Json} {head : FirewallRuleHead} {index : ℕ}
    {ports : Option String} (h : parseFirewallRulePorts value head index = .ok ports) :
    (∀ text ∈ ports, head.proto ≠ .any ∧ ∃ range, parseFirewallPortRange text = some range) ∧
      (head.action = .accept → ports ≠ none) := by
  unfold parseFirewallRulePorts at h
  split at h
  case h_1 =>
    split_ifs at h with haccept
    obtain rfl := Except.ok.inj h
    exact ⟨by rintro _ ⟨⟩, fun hsame => absurd hsame haccept⟩
  case h_2 text =>
    split at h
    case h_1 => cases h
    case h_2 range hrange =>
      split_ifs at h with hproto
      obtain rfl := Except.ok.inj h
      refine ⟨fun normal hnormal => ?_, fun _ => Option.some_ne_none _⟩
      obtain rfl := Option.mem_some_iff.mp hnormal
      exact ⟨hproto, range,
        parseFirewallPortRange_normal (valid_of_parseFirewallPortRange hrange)⟩
  case h_3 => cases h

theorem isCommentChar_of_parseFirewallRuleComment {value : Option Json} {index : ℕ}
    {comment : Option String} (h : parseFirewallRuleComment value index = .ok comment) :
    ∀ text ∈ comment, text ≠ "" ∧ ∀ c ∈ text.toList, isCommentChar c = true := by
  unfold parseFirewallRuleComment at h
  dsimp only at h
  split at h
  case h_1 =>
    obtain rfl := Except.ok.inj h
    rintro _ ⟨⟩
  case h_2 text =>
    split_ifs at h with hvalid
    obtain rfl := Except.ok.inj h
    intro other hother
    obtain rfl := Option.mem_some_iff.mp hother
    rw [isComment, Bool.and_eq_true, Bool.and_eq_true, decide_eq_true_eq] at hvalid
    refine ⟨?_, List.all_eq_true.mp hvalid.2⟩
    rintro rfl
    exact absurd hvalid.1.1 (by decide)
  case h_3 => cases h

theorem wellFormed_of_parseFirewallRule {value : Json} {index : ℕ} {rule : FirewallRule}
    (h : parseFirewallRule value index = .ok rule) : rule.WellFormed := by
  rw [parseFirewallRule] at h
  split_ifs at h
  obtain ⟨head, hhead, h⟩ := Programs.bind_eq_ok_iff.mp h
  obtain ⟨sources, hsources, h⟩ := Programs.bind_eq_ok_iff.mp h
  obtain ⟨ports, hports, h⟩ := Programs.bind_eq_ok_iff.mp h
  obtain ⟨destinations, hdestinations, h⟩ := Programs.bind_eq_ok_iff.mp h
  obtain ⟨comment, hcomment, h⟩ := Programs.bind_eq_ok_iff.mp h
  obtain rfl := Except.ok.inj h
  constructor
  · exact isRuleIdChar_of_parseFirewallRuleHead hhead
  · exact isLiteral_of_parseFirewallAddressList hsources
  · exact isLiteral_of_parseFirewallRuleDestinations hdestinations
  · exact (ports_of_parseFirewallRulePorts hports).1
  · exact (ports_of_parseFirewallRulePorts hports).2
  · exact isCommentChar_of_parseFirewallRuleComment hcomment

theorem wellFormed_of_parseRulesFrom {values : List Json} {index : ℕ} {rules : List FirewallRule}
    (h : parseRulesFrom index values = .ok rules) : ∀ rule ∈ rules, rule.WellFormed := by
  induction values generalizing index rules with
  | nil =>
    obtain rfl := Except.ok.inj h
    exact fun rule hrule => absurd hrule List.not_mem_nil
  | cons value rest ih =>
    obtain ⟨rule, hrule, h⟩ := Programs.bind_eq_ok_iff.mp h
    obtain ⟨others, hothers, h⟩ := Programs.bind_eq_ok_iff.mp h
    obtain rfl := Except.ok.inj h
    exact List.forall_mem_cons.mpr ⟨wellFormed_of_parseFirewallRule hrule, ih hothers⟩

/-- Every rule of an accepted payload is well formed. -/
theorem wellFormed_of_parse {value : Json} {payload : FirewallReconcilePayload}
    (h : parseFirewallReconcilePayload value = .ok payload) :
    ∀ rule ∈ payload.rules, rule.WellFormed := by
  unfold parseFirewallReconcilePayload at h
  split_ifs at h
  split at h
  case h_1 => cases h
  case h_2 generation hgeneration =>
    obtain ⟨mode, -, h⟩ := Programs.bind_eq_ok_iff.mp h
    obtain ⟨policy, -, h⟩ := Programs.bind_eq_ok_iff.mp h
    obtain ⟨rules, hrules, h⟩ := Programs.bind_eq_ok_iff.mp h
    obtain ⟨controlPlane, -, h⟩ := Programs.bind_eq_ok_iff.mp h
    obtain ⟨sshPorts, -, h⟩ := Programs.bind_eq_ok_iff.mp h
    obtain rfl := Except.ok.inj h
    unfold parseFirewallRules at hrules
    split at hrules
    case h_2 => cases hrules
    case h_1 values =>
      split_ifs at hrules
      obtain ⟨parsed, hparsed, hrules⟩ := Programs.bind_eq_ok_iff.mp hrules
      split at hrules
      case h_1 => cases hrules
      case h_2 =>
        obtain rfl := Except.ok.inj hrules
        exact wellFormed_of_parseRulesFrom hparsed

end Turbopaneld.Firewall
