/-
# What the host chain means

The rendered `TP-INPUT` chain, taken rule by rule, treats a packet as the payload's rules say:
what may not be cut off is accepted first, then the first block that matches decides, then any
accept, then the default.
-/

import Turbopaneld.Firewall.HostDocument

namespace Turbopaneld.Firewall

open JavaScript Netfilter
open DockerGate (Json)

/-! ## What the payload says -/

/-- A port of sshd, 22 where none is known, or of the control plane. -/
def isGuaranteed (input : RenderFirewallInput) (port : ℕ) : Bool :=
  input.sshPorts.contains port || (input.sshPorts.isEmpty && port == 22) ||
    (input.payload.controlPlane.getD []).contains port

section

variable {A : Type}

/-- What no rule may cut off. -/
def isExempt (input : RenderFirewallInput) (family : FirewallFamily) (packet : Packet A) : Bool :=
  packet.interface == "lo" || packet.state == .established || packet.state == .related ||
    packet.protocol == icmpOf family ||
    (packet.protocol == .udp && packet.sourcePort == dhcpServerPort family &&
      packet.destPort == dhcpClientPort family) ||
    (packet.protocol == .tcp && isGuaranteed input packet.destPort)

variable (covers : String → A → Bool)

/-- Whether one of the literals is of the family and covers the address. -/
def someCovers (literals : List String) (family : FirewallFamily) (address : A) : Bool :=
  literals.any fun literal => familyOf literal = family && covers literal address

/-- Whether a host rule is about the packet. -/
def matchesRule (rule : FirewallRule) (family : FirewallFamily) (packet : Packet A) : Bool :=
  (rule.sources.contains "any" || someCovers covers rule.sources family packet.source) &&
    rule.destinations.all (fun destinations =>
      destinations.isEmpty || someCovers covers destinations family packet.dest) &&
    (protocolOf rule.proto).all (packet.protocol == ·) &&
    (portRange rule).all fun range =>
      range.first ≤ packet.destPort && packet.destPort ≤ range.last

/-- What the payload says of an inbound packet; `none` leaves it to what follows the chain. -/
def hostVerdict (input : RenderFirewallInput) (family : FirewallFamily) (packet : Packet A) :
    Option Target :=
  let hosts := input.payload.rules.filter fun rule => rule.scope = .host
  if isExempt input family packet then some .accept
  else
    match hosts.find? fun rule => rule.action ≠ .accept && matchesRule covers rule family packet with
    | some block => some (targetOf block family)
    | none =>
      if hosts.any fun rule => rule.action = .accept && matchesRule covers rule family packet then
        some .accept
      else if input.payload.policy.inputDefault = .drop then some .drop
      else none

end

/-! ## Guaranteed ports -/

theorem mem_pushNew {α : Type} [BEq α] [LawfulBEq α] {out : List α} {item x : α} :
    x ∈ pushNew out item ↔ x ∈ out ∨ x = item := by
  rw [pushNew]
  split
  case isTrue h =>
    refine ⟨.inl, fun hx => hx.elim id ?_⟩
    rintro rfl
    exact List.contains_iff_mem.mp h
  case isFalse h => rw [List.mem_append, List.mem_singleton]

theorem mem_foldl_pushNew {α : Type} [BEq α] [LawfulBEq α] {items out : List α} {x : α} :
    x ∈ items.foldl pushNew out ↔ x ∈ out ∨ x ∈ items := by
  induction items generalizing out with
  | nil => simp
  | cons item items ih =>
    rw [List.foldl_cons, ih, mem_pushNew, List.mem_cons, or_assoc]

theorem mem_sortedSet {ports : List ℕ} {port : ℕ} : port ∈ sortedSet ports ↔ port ∈ ports := by
  rw [sortedSet, (List.mergeSort_perm _ _).mem_iff, mem_foldl_pushNew]
  simp

theorem mem_effectiveSshPorts {input : RenderFirewallInput} {port : ℕ} :
    port ∈ effectiveSshPorts input ↔
      port ∈ input.sshPorts ∨ input.sshPorts = [] ∧ port = 22 := by
  have hempty : (sortedSet input.sshPorts).isEmpty = true ↔ input.sshPorts = [] := by
    rw [List.isEmpty_iff, List.eq_nil_iff_forall_not_mem, List.eq_nil_iff_forall_not_mem]
    simp only [mem_sortedSet]
  rw [effectiveSshPorts]
  by_cases h : input.sshPorts = []
  · rw [if_pos (hempty.mpr h), h, List.mem_singleton]
    simp
  · rw [if_neg fun h' => h (hempty.mp h'), mem_sortedSet]
    simp [h]

theorem mem_guaranteedPorts {input : RenderFirewallInput} {port : ℕ} :
    port ∈ guaranteedPorts input ↔ isGuaranteed input port = true := by
  rw [guaranteedPorts, mem_sortedSet, List.mem_append, mem_effectiveSshPorts, isGuaranteed]
  simp

/-! ## The chain against the payload -/

section

variable {A : Type} {covers : String → A → Bool} {input : RenderFirewallInput}
  {family : FirewallFamily} {packet : Packet A}

theorem target_of_mem_invariantRules {ports : List ℕ} :
    ∀ rule ∈ invariantRules family ports, rule.target = some .accept := by
  intro rule hrule
  rcases List.mem_append.mp hrule with hrule | hrule
  · simp only [List.mem_cons, List.not_mem_nil, or_false] at hrule
    rcases hrule with rfl | rfl | rfl | rfl <;> rfl
  · obtain ⟨port, -, rfl⟩ := List.mem_map.mp hrule
    rfl

theorem holds_single (port port' : ℕ) : Ports.holds ⟨port, port⟩ port' = (port' == port) := by
  rw [Ports.holds, Bool.eq_iff_iff, Bool.and_eq_true, decide_eq_true_eq, decide_eq_true_eq,
    beq_iff_eq]
  show port ≤ port' ∧ port' ≤ port ↔ port' = port
  omega

theorem namesInterface_lo (name : String) : namesInterface "lo" name = (name == "lo") := by
  have hlast : "lo".toList.getLast? ≠ some '+' := by decide
  rw [namesInterface, if_neg hlast]

/-- Some rule in front of every other matches what may not be cut off, and nothing else. -/
theorem any_invariantRules :
    (invariantRules family (guaranteedPorts input)).any (·.matches covers packet) =
      isExempt input family packet := by
  have hguaranteed : ((guaranteedPorts input).map fun port : ℕ =>
      ({ protocol := some .tcp, destPorts := some ⟨port, port⟩,
         target := some .accept } : Netfilter.Rule)).any (·.matches covers packet) =
      (packet.protocol == .tcp && isGuaranteed input packet.destPort) := by
    rw [List.any_map, Bool.eq_iff_iff, List.any_eq_true, Bool.and_eq_true, ← mem_guaranteedPorts]
    simp only [Function.comp_apply, Rule.matches, Option.all_some, Option.all_none, Bool.true_and,
      Bool.and_true, holds_single, Bool.and_eq_true, beq_iff_eq]
    constructor
    · rintro ⟨port, hport, htcp, hdest⟩
      exact ⟨htcp, hdest ▸ hport⟩
    · rintro ⟨htcp, hport⟩
      exact ⟨_, hport, htcp, rfl⟩
  rw [invariantRules, List.any_append, hguaranteed, isExempt]
  simp only [List.any_cons, List.any_nil, Rule.matches, Option.all_some, Option.all_none,
    Bool.true_and, Bool.and_true, holds_single, namesInterface_lo, Bool.or_false,
    List.contains_cons, List.contains_nil, Bool.or_assoc, Bool.and_assoc]

theorem any_sourcesFor (rule : FirewallRule) (address : A) :
    ((sourcesFor rule family).any fun source => source.all (covers · address)) =
      (rule.sources.contains "any" || someCovers covers rule.sources family address) := by
  rw [sourcesFor]
  cases rule.sources.contains "any" with
  | true => rfl
  | false =>
    rw [if_neg Bool.false_ne_true, List.any_map, List.any_filter, Bool.false_or]
    rfl

theorem any_destinationsFor (rule : FirewallRule) (address : A) :
    ((destinationsFor rule family).any fun dest => dest.all (covers · address)) =
      rule.destinations.all fun destinations =>
        destinations.isEmpty || someCovers covers destinations family address := by
  rw [destinationsFor]
  cases rule.destinations with
  | none => rfl
  | some destinations =>
    dsimp only
    rw [Option.all_some]
    cases destinations.isEmpty with
    | true => rfl
    | false =>
      rw [if_neg Bool.false_ne_true, List.any_map, List.any_filter, Bool.false_or]
      rfl

theorem matches_hostRule (rule : FirewallRule) (dest source : Option String) :
    (hostRule rule family dest source).matches covers packet =
      (source.all (covers · packet.source) && dest.all (covers · packet.dest) &&
        ((protocolOf rule.proto).all (packet.protocol == ·) &&
          (portRange rule).all fun range =>
            range.first ≤ packet.destPort && packet.destPort ≤ range.last)) := by
  have hports : ((portRange rule).map fun range => (⟨range.first, range.last⟩ : Ports)).all
      (·.holds packet.destPort) = (portRange rule).all fun range =>
        range.first ≤ packet.destPort && packet.destPort ≤ range.last := by
    cases portRange rule <;> rfl
  rw [Rule.matches, hostRule]
  dsimp only
  rw [hports]
  simp only [Option.all_none, Bool.and_true, Bool.and_assoc]

/-- The rules of a host rule match what the rule is about. -/
theorem any_hostRules (rule : FirewallRule) :
    (hostRules rule family).any (·.matches covers packet) =
      matchesRule covers rule family packet := by
  rw [hostRules, List.any_flatMap]
  simp only [List.any_map, Function.comp_def, matches_hostRule]
  rw [matchesRule, ← any_sourcesFor, ← any_destinationsFor, Bool.eq_iff_iff]
  simp only [List.any_eq_true, Bool.and_eq_true]
  constructor
  · rintro ⟨dest, hdest, source, hsource, ⟨hsrc, hdst⟩, hproto, hports⟩
    exact ⟨⟨⟨⟨source, hsource, hsrc⟩, ⟨dest, hdest, hdst⟩⟩, hproto⟩, hports⟩
  · rintro ⟨⟨⟨⟨source, hsource, hsrc⟩, ⟨dest, hdest, hdst⟩⟩, hproto⟩, hports⟩
    exact ⟨dest, hdest, source, hsource, ⟨hsrc, hdst⟩, hproto, hports⟩

theorem target_of_mem_hostRules (rule : FirewallRule) :
    ∀ appended ∈ hostRules rule family, appended.target = some (targetOf rule family) := by
  intro appended happended
  obtain ⟨dest, -, happended⟩ := List.mem_flatMap.mp happended
  obtain ⟨source, -, rfl⟩ := List.mem_map.mp happended
  rfl

theorem verdict_defaultRules (policy : FirewallPolicy) :
    verdict covers (defaultRules policy) packet =
      if policy.inputDefault = .drop then some .drop else none := by
  rw [defaultRules]
  split_ifs <;> rfl

/-- The first rule that matches, in rendering order, is the first block that does, else the
first accept. -/
theorem find?_orderedRules (rules : List FirewallRule) (p : FirewallRule → Bool) :
    (orderedRules rules).find? p =
      (rules.find? fun rule => rule.action ≠ .accept && p rule).or
        (rules.find? fun rule => rule.action = .accept && p rule) := by
  rw [orderedRules, List.find?_append, List.find?_filter, List.find?_filter]
  simp only [Bool.decide_and, Bool.decide_eq_true]

/-- The chain of a payload treats a packet as the payload says. -/
theorem verdict_chainRules :
    verdict covers (chainRules input.payload family (guaranteedPorts input)) packet =
      hostVerdict covers input family packet := by
  have hany : (invariantRules family (guaranteedPorts input)).any (·.matches covers packet) =
      isExempt input family packet := any_invariantRules
  rw [chainRules, List.append_assoc, hostVerdict]
  cases hexempt : isExempt input family packet with
  | true =>
    rw [← hany, List.any_eq_true] at hexempt
    obtain ⟨rule, hrule, hmatches⟩ := hexempt
    exact verdict_append_of_mem target_of_mem_invariantRules hrule hmatches
  | false =>
    rw [← hany, List.any_eq_false] at hexempt
    have hnone : ∀ rule ∈ invariantRules family (guaranteedPorts input),
        rule.matches covers packet = false := fun rule hrule =>
      Bool.not_eq_true _ ▸ hexempt rule hrule
    rw [verdict_append_of_not hnone, verdict_flatMap_append target_of_mem_hostRules,
      verdict_defaultRules]
    simp only [any_hostRules, orderedHostRules, find?_orderedRules]
    rw [if_neg Bool.false_ne_true]
    cases hblock : (input.payload.rules.filter fun rule => rule.scope = .host).find? fun rule =>
        rule.action ≠ .accept && matchesRule covers rule family packet with
    | some block => rfl
    | none =>
      rw [Option.none_or]
      cases haccept : (input.payload.rules.filter fun rule => rule.scope = .host).find? fun rule =>
          rule.action = .accept && matchesRule covers rule family packet with
      | some rule =>
        have hrule := List.find?_some haccept
        have hany : ((input.payload.rules.filter fun rule => rule.scope = .host).any fun rule =>
            rule.action = .accept && matchesRule covers rule family packet) = true :=
          List.any_eq_true.mpr ⟨rule, List.mem_of_find?_eq_some haccept, hrule⟩
        rw [Bool.and_eq_true, decide_eq_true_eq] at hrule
        dsimp only
        rw [hany, if_pos rfl, targetOf, hrule.1]
      | none =>
        rw [List.find?_eq_none] at haccept
        dsimp only
        rw [List.any_eq_false.mpr haccept, if_neg Bool.false_ne_true]

end

/-- The document of a family, when there is one. -/
def RenderedFirewall.document (rendered : RenderedFirewall) : FirewallFamily → Option String
  | .four => some rendered.v4
  | .six => rendered.v6

/-- A document that is rendered is the family's. -/
theorem document_renderFirewall {sha256Hex : String → String} {input : RenderFirewallInput}
    {family : FirewallFamily} {document : String}
    (h : (renderFirewall sha256Hex input).document family = some document) :
    document = (renderFamily input family (guaranteedPorts input)).1 := by
  cases family with
  | four => exact (Option.some.inj h).symm
  | six =>
    cases hpolicy : input.payload.policy.ipv6 with
    | mirror =>
      simp only [RenderedFirewall.document, renderFirewall, hpolicy] at h
      exact (Option.some.inj h).symm
    | skip =>
      simp only [RenderedFirewall.document, renderFirewall, hpolicy] at h
      cases h

/-- The rendered host chain of an accepted payload decides every packet as the payload says, and
a guaranteed port is let in whatever the rules are. -/
theorem hostChain_verdict {value : Json} {payload : FirewallReconcilePayload}
    (h : parseFirewallReconcilePayload value = .ok payload) {sshPorts : List ℕ}
    {includeForward : FirewallFamily → Bool} {sha256Hex : String → String}
    {family : FirewallFamily} {document : String}
    (hdocument : (renderFirewall sha256Hex ⟨payload, sshPorts, includeForward⟩).document family =
      some document) :
    ∃ chain, readChain firewallInputChain document = some chain ∧
      ∀ {A : Type} (covers : String → A → Bool) (packet : Packet A),
        verdict covers chain packet =
            hostVerdict covers ⟨payload, sshPorts, includeForward⟩ family packet ∧
          (packet.protocol = .tcp →
            isGuaranteed ⟨payload, sshPorts, includeForward⟩ packet.destPort = true →
              verdict covers chain packet = some .accept) := by
  refine ⟨chainRules payload family (guaranteedPorts ⟨payload, sshPorts, includeForward⟩), ?_, ?_⟩
  · rw [document_renderFirewall hdocument]
    exact readChain_renderFamily (wellFormed_of_parse h)
  · intro A covers packet
    have hverdict : verdict covers (chainRules payload family
        (guaranteedPorts ⟨payload, sshPorts, includeForward⟩)) packet =
          hostVerdict covers ⟨payload, sshPorts, includeForward⟩ family packet :=
      verdict_chainRules
    refine ⟨hverdict, fun htcp hport => ?_⟩
    rw [hverdict, hostVerdict, if_pos]
    rw [isExempt, htcp, hport]
    simp

/-- A payload that blocks everything on the host. -/
def blockAll : Json :=
  .object [("generation", .number "1"), ("mode", .string "managed"),
    ("policy", .object [("inputDefault", .string "drop"), ("ipv6", .string "skip")]),
    ("rules", .array [.object [("id", .string "r1"), ("scope", .string "host"),
      ("action", .string "drop"), ("proto", .string "any"), ("origin", .string "user"),
      ("sources", .array [.string "any"])]])]

def blockAllPayload : FirewallReconcilePayload where
  generation := 1
  mode := .managed
  policy := ⟨.drop, .skip⟩
  rules := [⟨"r1", .host, .drop, .any, .user, ["any"], none, none, none⟩]
  controlPlane := none
  sshPorts := none

theorem hostChain_verdict_blockAll :
    ∃ chain, readChain firewallInputChain
        (renderFirewall id ⟨blockAllPayload, [2222], fun _ => false⟩).v4 = some chain ∧
      ∀ {A : Type} (covers : String → A → Bool) (packet : Packet A),
        verdict covers chain packet =
            hostVerdict covers ⟨blockAllPayload, [2222], fun _ => false⟩ .four packet ∧
          (packet.protocol = .tcp →
            isGuaranteed ⟨blockAllPayload, [2222], fun _ => false⟩ packet.destPort = true →
              verdict covers chain packet = some .accept) := by
  have hparse : parseFirewallReconcilePayload blockAll = .ok blockAllPayload := by decide +kernel
  have hdocument : (renderFirewall id ⟨blockAllPayload, [2222], fun _ => false⟩).document .four =
      some (renderFirewall id ⟨blockAllPayload, [2222], fun _ => false⟩).v4 := rfl
  exact hostChain_verdict hparse hdocument

end Turbopaneld.Firewall
