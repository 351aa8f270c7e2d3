/-
# Rendering a firewall payload

A payload becomes one `iptables-restore` document a family.  Host rules go into `TP-INPUT`,
behind what no rule can remove, and rules on published ports into `TP-FWD`.
-/

import Turbopaneld.Firewall.Contract

namespace Turbopaneld.Firewall

open JavaScript

/-- `FIREWALL_INPUT_CHAIN`. -/
def firewallInputChain : String := "TP-INPUT"

/-- `FIREWALL_FORWARD_CHAIN`. -/
def firewallForwardChain : String := "TP-FWD"

/-- `CONTAINER_INGRESS_INTERFACES`. -/
def containerIngressInterfaces : List String := ["docker0", "br-+", "tp0"]

structure RenderFirewallInput where
  payload : FirewallReconcilePayload
  sshPorts : List ℕ
  includeForward : FirewallFamily → Bool

structure RenderedFirewall where
  v4 : String
  v6 : Option String
  digest : String
  ruleCount : ℕ
  guaranteedTcpPorts : List ℕ
  sshPorts : List ℕ
  warnings : List String
deriving DecidableEq, Repr

/-! ## The arguments of a rule -/

def FirewallRuleOrigin.text : FirewallRuleOrigin → String
  | .system => "system"
  | .derived => "derived"
  | .user => "user"

def FirewallRuleProto.text : FirewallRuleProto → String
  | .tcp => "tcp"
  | .udp => "udp"
  | .any => "any"

/-- The comment a rule carries, without its quotes. -/
def commentText (rule : FirewallRule) : String :=
  let label := match rule.comment with
    | some comment => if comment = "" then "" else " " ++ comment
    | none => ""
  "tp:" ++ rule.origin.text ++ ":" ++ rule.id ++ label

def commentFor (rule : FirewallRule) : String :=
  "-m comment --comment \"" ++ commentText rule ++ "\""

def systemComment (label : String) : String :=
  "-m comment --comment \"tp:system:" ++ label ++ "\""

def familyOf (literal : String) : FirewallFamily :=
  let slash := lastIndexOf '/' literal
  let address := if slash = -1 then literal else takeChars literal slash.toNat
  if isValidIpv4Literal address then .four else .six

/-- `none` stands for any source. -/
def sourcesFor (rule : FirewallRule) (family : FirewallFamily) : List (Option String) :=
  if rule.sources.contains "any" then [none]
  else (rule.sources.filter fun source => familyOf source = family).map some

/-- `none` stands for any destination. -/
def destinationsFor (rule : FirewallRule) (family : FirewallFamily) : List (Option String) :=
  match rule.destinations with
  | none => [none]
  | some destinations =>
    if destinations.isEmpty then [none]
    else (destinations.filter fun dest => familyOf dest = family).map some

def protoArgs (rule : FirewallRule) : String :=
  if rule.proto = .any then "" else "-p " ++ rule.proto.text

/-- The range of a rule's ports.  The parser lets no text through that is none. -/
def portRange (rule : FirewallRule) : Option PortRange := rule.ports.bind parseFirewallPortRange

/-- `80` or `80:90`. -/
def PortRange.argument (range : PortRange) : String :=
  if range.first = range.last then toString range.first
  else toString range.first ++ ":" ++ toString range.last

def hostPortArgs (rule : FirewallRule) : String :=
  match portRange rule with
  | none => ""
  | some range => "--dport " ++ range.argument

def publishedMatchArgs (rule : FirewallRule) (dest : Option String) : String :=
  let port := (portRange rule).map fun range => "--ctorigdstport " ++ range.argument
  let parts := port.toList ++ (dest.map fun dest => "--ctorigdst " ++ dest).toList
  if parts.isEmpty then "" else "-m conntrack " ++ " ".intercalate parts

def targetFor (rule : FirewallRule) (family : FirewallFamily) : String :=
  match rule.action with
  | .accept => "ACCEPT"
  | .drop => "DROP"
  | .reject =>
    if rule.proto = .tcp then "REJECT --reject-with tcp-reset"
    else if family = .four then "REJECT --reject-with icmp-port-unreachable"
    else "REJECT --reject-with icmp6-port-unreachable"

def joinArgs (parts : List (Option String)) : String :=
  " ".intercalate (parts.reduceOption.filter (· ≠ ""))

/-! ## The lines of a rule -/

def hostLine (rule : FirewallRule) (family : FirewallFamily) (dest source : Option String) :
    String :=
  joinArgs [
    some ("-A " ++ firewallInputChain),
    source.map ("-s " ++ ·),
    dest.map ("-d " ++ ·),
    some (protoArgs rule),
    some (hostPortArgs rule),
    some (commentFor rule),
    some ("-j " ++ targetFor rule family)]

def renderHostRule (rule : FirewallRule) (family : FirewallFamily) : List String :=
  (destinationsFor rule family).flatMap fun dest =>
    (sourcesFor rule family).map fun source => hostLine rule family dest source

def publishedLine (rule : FirewallRule) (dest source : Option String) (target : String) : String :=
  joinArgs [
    some ("-A " ++ firewallForwardChain),
    source.map ("-s " ++ ·),
    some (protoArgs rule),
    some (publishedMatchArgs rule dest),
    some (commentFor rule),
    some ("-j " ++ target)]

def renderPublishedRule (rule : FirewallRule) (family : FirewallFamily) : List String :=
  let destinations := destinationsFor rule family
  if destinations.isEmpty then []
  else if rule.action = .accept then
    if rule.sources.contains "any" then []
    else destinations.flatMap fun dest =>
      (sourcesFor rule family).map (fun source => publishedLine rule dest source "RETURN") ++
        [publishedLine rule dest none "DROP"]
  else destinations.flatMap fun dest =>
    (sourcesFor rule family).map fun source =>
      publishedLine rule dest source (targetFor rule family)

/-! ## A document -/

def inputInvariants (family : FirewallFamily) (guaranteedTcpPorts : List ℕ) : List String :=
  let c := firewallInputChain
  ["-A " ++ c ++ " -i lo " ++ systemComment "loopback" ++ " -j ACCEPT",
    "-A " ++ c ++ " -m conntrack --ctstate ESTABLISHED,RELATED " ++ systemComment "established" ++
      " -j ACCEPT"] ++
  (if family = .four then
    ["-A " ++ c ++ " -p icmp " ++ systemComment "icmp" ++ " -j ACCEPT",
      "-A " ++ c ++ " -p udp --sport 67 --dport 68 " ++ systemComment "dhcp" ++ " -j ACCEPT"]
  else
    ["-A " ++ c ++ " -p ipv6-icmp " ++ systemComment "icmpv6" ++ " -j ACCEPT",
      "-A " ++ c ++ " -p udp --sport 547 --dport 546 " ++ systemComment "dhcpv6" ++
        " -j ACCEPT"]) ++
  guaranteedTcpPorts.map fun port =>
    "-A " ++ c ++ " -p tcp --dport " ++ toString port ++ " " ++
      systemComment ("tcp-" ++ toString port) ++ " -j ACCEPT"

def forwardPrefix : List String :=
  let c := firewallForwardChain
  ("-A " ++ c ++ " -m conntrack --ctstate ESTABLISHED,RELATED " ++ systemComment "established" ++
      " -j RETURN") ::
    containerIngressInterfaces.map fun iface =>
      "-A " ++ c ++ " -i " ++ iface ++ " " ++ systemComment "container-egress" ++ " -j RETURN"

/-- Blocks first, then accepts, in payload order within each group. -/
def orderedRules (rules : List FirewallRule) : List FirewallRule :=
  rules.filter (fun rule => rule.action ≠ .accept) ++ rules.filter fun rule => rule.action = .accept

/-- The rules of a scope in rendering order, each with its lines. -/
def scopeLines (payload : FirewallReconcilePayload) (scope : FirewallRuleScope)
    (render : FirewallRule → List String) : List (FirewallRule × List String) :=
  (orderedRules (payload.rules.filter fun rule => rule.scope = scope)).map fun rule =>
    (rule, render rule)

/-- `-A TP-INPUT … -j DROP` when that is the default. -/
def defaultLines (policy : FirewallPolicy) : List String :=
  if policy.inputDefault = .drop then
    ["-A " ++ firewallInputChain ++ " " ++ systemComment "default" ++ " -j DROP"]
  else []

/-- The lines of the document, and the ids of the rules that rendered one. -/
def familyLines (input : RenderFirewallInput) (family : FirewallFamily)
    (guaranteedTcpPorts : List ℕ) : List String × List String :=
  let hosts := scopeLines input.payload .host fun rule => renderHostRule rule family
  let forwards :=
    if input.includeForward family then
      scopeLines input.payload .published fun rule => renderPublishedRule rule family
    else []
  let lines :=
    ["*filter", ":" ++ firewallInputChain ++ " - [0:0]"] ++
    (if input.includeForward family then [":" ++ firewallForwardChain ++ " - [0:0]"] else []) ++
    inputInvariants family guaranteedTcpPorts ++ hosts.flatMap Prod.snd ++
    defaultLines input.payload.policy ++
    (if input.includeForward family then forwardPrefix else []) ++ forwards.flatMap Prod.snd ++
    ["COMMIT"]
  (lines, ((hosts ++ forwards).filter fun entry => !entry.2.isEmpty).map fun entry => entry.1.id)

def renderFamily (input : RenderFirewallInput) (family : FirewallFamily)
    (guaranteedTcpPorts : List ℕ) : String × List String :=
  let (lines, rendered) := familyLines input family guaranteedTcpPorts
  ("\n".intercalate lines ++ "\n", rendered)

/-! ## The whole -/

/-- `[...new Set(ports)].sort((a, b) => a - b)`. -/
def sortedSet (ports : List ℕ) : List ℕ := (ports.foldl pushNew []).mergeSort (· ≤ ·)

/-- The sshd ports, 22 where none is known. -/
def effectiveSshPorts (input : RenderFirewallInput) : List ℕ :=
  let sshPorts := sortedSet input.sshPorts
  if sshPorts.isEmpty then [22] else sshPorts

def guaranteedPorts (input : RenderFirewallInput) : List ℕ :=
  sortedSet (effectiveSshPorts input ++ input.payload.controlPlane.getD [])

/-- Why a rule rendered nothing, where that is worth a warning. -/
def warningFor (input : RenderFirewallInput) (rendered : List String) (rule : FirewallRule) :
    Option String :=
  if rendered.contains rule.id then none
  else if rule.scope = .published && !input.includeForward .four then
    some ("rule " ++ rule.id ++
      " targets a published port but DOCKER-USER is absent; deferred until dockerd creates it")
  else if rule.scope = .published && rule.action = .accept && rule.sources.contains "any" then none
  else
    some ("rule " ++ rule.id ++
      " rendered no line (every source or destination is of a family this ruleset does not cover)")

/-- `renderFirewall`, over the hexadecimal SHA-256 of a text. -/
def renderFirewall (sha256Hex : String → String) (input : RenderFirewallInput) :
    RenderedFirewall :=
  let sshPorts := effectiveSshPorts input
  let portWarnings :=
    if (sortedSet input.sshPorts).isEmpty then
      ["no sshd port was detected or supplied; port 22 is kept open as the invariant"]
    else []
  let guaranteedTcpPorts := guaranteedPorts input
  let (v4, rendered4) := renderFamily input .four guaranteedTcpPorts
  let (v6, rendered6) :=
    if input.payload.policy.ipv6 = .mirror then
      let (text, rendered) := renderFamily input .six guaranteedTcpPorts
      (some text, rendered)
    else (none, [])
  let rendered := (rendered4 ++ rendered6).foldl pushNew []
  { v4, v6
    digest := sha256Hex (v4 ++ "\n" ++ v6.getD "")
    ruleCount := rendered.length
    guaranteedTcpPorts, sshPorts
    warnings := portWarnings ++ input.payload.rules.filterMap (warningFor input rendered) }

end Turbopaneld.Firewall
