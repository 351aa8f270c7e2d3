/-
# The host chain of a document

Every line of a rendered document is read back, the ones the renderer adds of its own included:
what `TP-INPUT` is left with is `chainRules`.
-/

import Turbopaneld.Firewall.Lines

namespace Turbopaneld.Firewall

open JavaScript Netfilter

/-! ## The lines the renderer adds of its own -/

theorem system_eq (label : String) :
    "-m comment --comment \"tp:system:" ++ label ++ "\"" =
      "-m comment --comment \"" ++ ("tp:system:" ++ label) ++ "\"" := by
  apply String.toList_inj.mp
  simp only [String.toList_append, List.append_assoc]
  simp

theorem systemComment_eq (label : String) :
    systemComment label = "-m comment --comment \"" ++ ("tp:system:" ++ label) ++ "\"" :=
  system_eq label

/-- A comment of the renderer's own and a jump. -/
theorem shows_system {label word : String} (hlabel : '"' ∉ label.toList) (hword : Shows word [word]) :
    Shows (systemComment label ++ " " ++ ("-j" ++ " " ++ word))
      ["-m", "comment", "--comment", "tp:system:" ++ label, "-j", word] := by
  have hj : Shows "-j" ["-j"] := shows_plain (by decide) (by decide)
  have hne : "tp:system:" ++ label ≠ "" := by
    intro hempty
    have hchars := congrArg String.toList hempty
    rw [String.toList_append] at hchars
    cases hchars
  have hquote : '"' ∉ ("tp:system:" ++ label).toList := by
    rw [String.toList_append, List.mem_append]
    exact not_or.mpr ⟨by decide, hlabel⟩
  rw [systemComment_eq]
  exact (shows_comment hne hquote).append (hj.append hword)

theorem shows_accept : Shows "ACCEPT" ["ACCEPT"] := shows_plain (by decide) (by decide)

theorem shows_drop : Shows "DROP" ["DROP"] := shows_plain (by decide) (by decide)

theorem system_line_eq (chain given comment : String) :
    "-A " ++ chain ++ (" " ++ given ++ " ") ++ comment ++ " -j ACCEPT" =
      "-A " ++ chain ++ " " ++ (given ++ " " ++ (comment ++ " " ++ ("-j" ++ " " ++ "ACCEPT"))) := by
  apply String.toList_inj.mp
  simp only [String.toList_append, List.append_assoc]
  simp

theorem default_line_eq (chain comment : String) :
    "-A " ++ chain ++ " " ++ comment ++ " -j DROP" =
      "-A " ++ chain ++ " " ++ (comment ++ " " ++ ("-j" ++ " " ++ "DROP")) := by
  apply String.toList_inj.mp
  simp only [String.toList_append, List.append_assoc]
  simp

/-- A line of the renderer's own that accepts. -/
theorem readLine_system {chain given between label : String} {values : List String}
    {rule : Netfilter.Rule} (hbetween : between = " " ++ given ++ " ") (hgiven : Shows given values)
    (hlabel : '"' ∉ label.toList)
    (hread : readWords (values ++
      ["-m", "comment", "--comment", "tp:system:" ++ label, "-j", "ACCEPT"]) {} = some rule)
    (hloads : rule.loads = true) :
    readLine chain ("-A " ++ chain ++ between ++ systemComment label ++ " -j ACCEPT") =
      some (some rule) := by
  rw [hbetween, system_line_eq]
  exact readLine_of_shows (hgiven.append (shows_system hlabel shows_accept)) hread hloads

def icmpOf : FirewallFamily → Protocol
  | .four => .icmp
  | .six => .icmp6

/-- The ports a DHCP server answers from. -/
def dhcpServerPort : FirewallFamily → ℕ
  | .four => 67
  | .six => 547

/-- The port a DHCP client listens on. -/
def dhcpClientPort : FirewallFamily → ℕ
  | .four => 68
  | .six => 546

/-- The rules in front of every other. -/
def invariantRules (family : FirewallFamily) (guaranteedTcpPorts : List ℕ) :
    List Netfilter.Rule :=
  [{ interface := some "lo", target := some .accept },
    { states := some [.established, .related], target := some .accept },
    { protocol := some (icmpOf family), target := some .accept },
    { protocol := some .udp
      sourcePorts := some ⟨dhcpServerPort family, dhcpServerPort family⟩
      destPorts := some ⟨dhcpClientPort family, dhcpClientPort family⟩
      target := some .accept }] ++
  guaranteedTcpPorts.map fun port =>
    { protocol := some .tcp, destPorts := some ⟨port, port⟩, target := some .accept }

theorem readLine_loopback : readLine firewallInputChain
    ("-A " ++ firewallInputChain ++ " -i lo " ++ systemComment "loopback" ++ " -j ACCEPT") =
      some (some { interface := some "lo", target := some .accept }) := by
  have hi : Shows "-i" ["-i"] := shows_plain (by decide) (by decide)
  have hlo : Shows "lo" ["lo"] := shows_plain (by decide) (by decide)
  have hlabel : '"' ∉ "loopback".toList := by decide
  have hbetween : " -i lo " = " " ++ ("-i" ++ " " ++ "lo") ++ " " := by decide
  exact readLine_system hbetween (shows_flag hi hlo) hlabel rfl rfl

theorem readLine_established : readLine firewallInputChain
    ("-A " ++ firewallInputChain ++ " -m conntrack --ctstate ESTABLISHED,RELATED " ++
      systemComment "established" ++ " -j ACCEPT") =
      some (some { states := some [.established, .related], target := some .accept }) := by
  have hm : Shows "-m" ["-m"] := shows_plain (by decide) (by decide)
  have hmodule : Shows "conntrack" ["conntrack"] := shows_plain (by decide) (by decide)
  have hstate : Shows "--ctstate" ["--ctstate"] := shows_plain (by decide) (by decide)
  have hstates : Shows "ESTABLISHED,RELATED" ["ESTABLISHED,RELATED"] :=
    shows_plain (by decide) (by decide)
  have hlabel : '"' ∉ "established".toList := by decide
  have hbetween : " -m conntrack --ctstate ESTABLISHED,RELATED " =
      " " ++ ("-m" ++ " " ++ "conntrack" ++ " " ++
        ("--ctstate" ++ " " ++ "ESTABLISHED,RELATED")) ++ " " := by decide
  exact readLine_system hbetween ((shows_flag hm hmodule).append (shows_flag hstate hstates)) hlabel
    rfl rfl

/-- The line for the family's ICMP. -/
theorem readLine_icmp (family : FirewallFamily) {name label : String} (hname : Shows name [name])
    (hprotocol : protocolNamed name = some (icmpOf family)) (hlabel : '"' ∉ label.toList)
    {between : String} (hbetween : between = " " ++ ("-p" ++ " " ++ name) ++ " ") :
    readLine firewallInputChain
      ("-A " ++ firewallInputChain ++ between ++ systemComment label ++ " -j ACCEPT") =
      some (some { protocol := some (icmpOf family), target := some .accept }) := by
  have hp : Shows "-p" ["-p"] := shows_plain (by decide) (by decide)
  refine readLine_system hbetween (shows_flag hp hname) hlabel ?_ ?_
  · show readWords ("-p" :: name :: _) {} = _
    rw [readWords, hprotocol]
    rfl
  · cases family <;> rfl

theorem readLine_dhcp {server client : ℕ} {label between : String} (hlabel : '"' ∉ label.toList)
    (hbetween : between = " " ++ ("-p" ++ " " ++ "udp" ++ " " ++ (("--sport" ++ " " ++ toString server) ++
      " " ++ ("--dport" ++ " " ++ toString client))) ++ " ") :
    readLine firewallInputChain
      ("-A " ++ firewallInputChain ++ between ++ systemComment label ++ " -j ACCEPT") =
      some (some { protocol := some .udp, sourcePorts := some ⟨server, server⟩
                   destPorts := some ⟨client, client⟩, target := some .accept }) := by
  have hp : Shows "-p" ["-p"] := shows_plain (by decide) (by decide)
  have hudp : Shows "udp" ["udp"] := shows_plain (by decide) (by decide)
  have hsport : Shows "--sport" ["--sport"] := shows_plain (by decide) (by decide)
  have hdport : Shows "--dport" ["--dport"] := shows_plain (by decide) (by decide)
  have hgiven := (shows_flag hp hudp).append
    ((shows_flag hsport (shows_toString server)).append (shows_flag hdport (shows_toString client)))
  refine readLine_system hbetween hgiven hlabel ?_ ?_
  · show readWords ("-p" :: "udp" :: "--sport" :: _ :: "--dport" :: _ :: _) {} = _
    rw [readWords]
    show readWords ("--sport" :: _ :: "--dport" :: _ :: _) _ = _
    rw [readWords, portsNamed_toString]
    show readWords ("--dport" :: _ :: _) _ = _
    rw [readWords, portsNamed_toString]
    rfl
  · rfl

theorem readLine_guaranteed (port : ℕ) : readLine firewallInputChain
    ("-A " ++ firewallInputChain ++ " -p tcp --dport " ++ toString port ++ " " ++
      systemComment ("tcp-" ++ toString port) ++ " -j ACCEPT") =
      some (some { protocol := some .tcp, destPorts := some ⟨port, port⟩,
                   target := some .accept }) := by
  have hp : Shows "-p" ["-p"] := shows_plain (by decide) (by decide)
  have htcp : Shows "tcp" ["tcp"] := shows_plain (by decide) (by decide)
  have hdport : Shows "--dport" ["--dport"] := shows_plain (by decide) (by decide)
  have hgiven := (shows_flag hp htcp).append (shows_flag hdport (shows_toString port))
  have hlabel : '"' ∉ ("tcp-" ++ toString port).toList := by
    rw [String.toList_append, List.mem_append]
    refine not_or.mpr ⟨by decide, fun hmem => ?_⟩
    exact absurd (isDigit_of_mem_toString port _ hmem) (by decide)
  have hbetween : " -p tcp --dport " ++ toString port ++ " " =
      " " ++ ("-p" ++ " " ++ "tcp" ++ " " ++ ("--dport" ++ " " ++ toString port)) ++ " " := by
    apply String.toList_inj.mp
    simp only [String.toList_append, List.append_assoc]
    simp
  have hread : readWords (["-p", "tcp"] ++ ["--dport", toString port] ++
      ["-m", "comment", "--comment", "tp:system:" ++ ("tcp-" ++ toString port), "-j", "ACCEPT"])
      {} = some { protocol := some .tcp, destPorts := some ⟨port, port⟩,
                  target := some .accept } := by
    show readWords ("-p" :: "tcp" :: "--dport" :: _ :: _) {} = _
    rw [readWords]
    show readWords ("--dport" :: _ :: _) _ = _
    rw [readWords, portsNamed_toString]
    rfl
  have hline : readLine firewallInputChain
      ("-A " ++ firewallInputChain ++ (" -p tcp --dport " ++ toString port ++ " ") ++
        systemComment ("tcp-" ++ toString port) ++ " -j ACCEPT") = _ :=
    readLine_system hbetween hgiven hlabel hread rfl
  rw [← String.append_assoc, ← String.append_assoc] at hline
  exact hline

/-- The two lines that depend on the family. -/
theorem appends_familyInvariants (family : FirewallFamily)
    {name label dhcp between between' : String} {server client : ℕ} (hname : Shows name [name])
    (hprotocol : protocolNamed name = some (icmpOf family)) (hlabel : '"' ∉ label.toList)
    (hdhcp : '"' ∉ dhcp.toList) (hbetween : between = " " ++ ("-p" ++ " " ++ name) ++ " ")
    (hbetween' : between' = " " ++ ("-p" ++ " " ++ "udp" ++ " " ++
      (("--sport" ++ " " ++ toString server) ++ " " ++ ("--dport" ++ " " ++ toString client))) ++
        " ") :
    Appends firewallInputChain
      ["-A " ++ firewallInputChain ++ between ++ systemComment label ++ " -j ACCEPT",
        "-A " ++ firewallInputChain ++ between' ++ systemComment dhcp ++ " -j ACCEPT"]
      [{ protocol := some (icmpOf family), target := some .accept },
        { protocol := some .udp, sourcePorts := some ⟨server, server⟩
          destPorts := some ⟨client, client⟩, target := some .accept }] := by
  simp only [Appends, List.filterMap_cons, readLine_icmp family hname hprotocol hlabel hbetween,
    readLine_dhcp hdhcp hbetween']
  rfl

theorem appends_inputInvariants (family : FirewallFamily) (guaranteedTcpPorts : List ℕ) :
    Appends firewallInputChain (inputInvariants family guaranteedTcpPorts)
      (invariantRules family guaranteedTcpPorts) := by
  have hguaranteed := appends_map fun port (_ : port ∈ guaranteedTcpPorts) =>
    readLine_guaranteed port
  have hfront : Appends firewallInputChain
      ["-A " ++ firewallInputChain ++ " -i lo " ++ systemComment "loopback" ++ " -j ACCEPT",
        "-A " ++ firewallInputChain ++ " -m conntrack --ctstate ESTABLISHED,RELATED " ++
          systemComment "established" ++ " -j ACCEPT"]
      [{ interface := some "lo", target := some .accept },
        { states := some [.established, .related], target := some .accept }] := by
    simp only [Appends, List.filterMap_cons, readLine_loopback, readLine_established]
    rfl
  rw [inputInvariants, invariantRules]
  cases family with
  | four =>
    have hicmp : Shows "icmp" ["icmp"] := shows_plain (by decide) (by decide)
    have hbetween : " -p icmp " = " " ++ ("-p" ++ " " ++ "icmp") ++ " " := by decide
    have hports : " -p udp --sport 67 --dport 68 " = " " ++ ("-p" ++ " " ++ "udp" ++ " " ++
        (("--sport" ++ " " ++ toString 67) ++ " " ++ ("--dport" ++ " " ++ toString 68))) ++
          " " := by decide
    have hlabel : '"' ∉ "icmp".toList := by decide
    have hdhcp : '"' ∉ "dhcp".toList := by decide
    exact (hfront.append (appends_familyInvariants .four hicmp rfl hlabel hdhcp hbetween
      hports)).append hguaranteed
  | six =>
    have hicmp : Shows "ipv6-icmp" ["ipv6-icmp"] := shows_plain (by decide) (by decide)
    have hbetween : " -p ipv6-icmp " = " " ++ ("-p" ++ " " ++ "ipv6-icmp") ++ " " := by decide
    have hports : " -p udp --sport 547 --dport 546 " = " " ++ ("-p" ++ " " ++ "udp" ++ " " ++
        (("--sport" ++ " " ++ toString 547) ++ " " ++ ("--dport" ++ " " ++ toString 546))) ++
          " " := by decide
    have hlabel : '"' ∉ "icmpv6".toList := by decide
    have hdhcp : '"' ∉ "dhcpv6".toList := by decide
    exact (hfront.append (appends_familyInvariants .six hicmp rfl hlabel hdhcp hbetween
      hports)).append hguaranteed

/-- The rules behind every other. -/
def defaultRules (policy : FirewallPolicy) : List Netfilter.Rule :=
  if policy.inputDefault = .drop then [{ target := some .drop }] else []

theorem appends_defaultLines (policy : FirewallPolicy) :
    Appends firewallInputChain (defaultLines policy) (defaultRules policy) := by
  rw [defaultLines, defaultRules]
  split_ifs
  · have hlabel : '"' ∉ "default".toList := by decide
    have hread : readLine firewallInputChain ("-A " ++ firewallInputChain ++ " " ++
        (systemComment "default" ++ " " ++ ("-j" ++ " " ++ "DROP"))) =
          some (some { target := some .drop }) :=
      readLine_of_shows (shows_system hlabel shows_drop) rfl rfl
    have hline : "-A " ++ firewallInputChain ++ " " ++ systemComment "default" ++ " -j DROP" =
        "-A " ++ firewallInputChain ++ " " ++
          (systemComment "default" ++ " " ++ ("-j" ++ " " ++ "DROP")) := default_line_eq _ _
    simp only [Appends, hline, List.filterMap_cons, hread]
    rfl
  · exact appends_nil

/-- A line of the forward chain appends nothing here. -/
theorem readLine_forward (rest : String) :
    readLine firewallInputChain ("-A " ++ firewallForwardChain ++ rest) = none := by
  have hfront : ¬("-A " ++ firewallInputChain ++ " ").toList <+:
      ("-A " ++ firewallForwardChain).toList := by decide
  have hhead : ¬("-A " ++ firewallForwardChain).toList <+:
      ("-A " ++ firewallInputChain ++ " ").toList := by decide
  rw [readLine, afterFront_append_of_not_prefix hfront hhead, Option.map_none]

theorem readLine_publishedLine (rule : FirewallRule) (dest source : Option String)
    (target : String) :
    readLine firewallInputChain (publishedLine rule dest source target) = none := by
  have hne : "-A " ++ firewallForwardChain ≠ "" := by decide
  obtain ⟨rest, hrest⟩ := exists_joinArgs_cons hne [source.map ("-s " ++ ·), some (protoArgs rule),
    some (publishedMatchArgs rule dest), some (commentFor rule), some ("-j " ++ target)]
  rw [publishedLine, hrest]
  exact readLine_forward rest

theorem appends_renderPublishedRule (rule : FirewallRule) (family : FirewallFamily) :
    Appends firewallInputChain (renderPublishedRule rule family) [] := by
  apply appends_of_none
  intro text htext
  rw [renderPublishedRule_eq] at htext
  obtain ⟨line, -, rfl⟩ := List.mem_map.mp htext
  exact readLine_publishedLine rule line.dest line.source line.target

theorem appends_forwardPrefix : Appends firewallInputChain forwardPrefix [] := by
  apply appends_of_none
  intro line hline
  rcases List.mem_cons.mp hline with rfl | hline
  · have hrest : "-A " ++ firewallForwardChain ++ " -m conntrack --ctstate ESTABLISHED,RELATED " ++
        systemComment "established" ++ " -j RETURN" = "-A " ++ firewallForwardChain ++
          (" -m conntrack --ctstate ESTABLISHED,RELATED " ++ systemComment "established" ++
            " -j RETURN") := by simp only [String.append_assoc]
    rw [hrest]
    exact readLine_forward _
  · obtain ⟨iface, -, rfl⟩ := List.mem_map.mp hline
    have hrest : "-A " ++ firewallForwardChain ++ " -i " ++ iface ++ " " ++
        systemComment "container-egress" ++ " -j RETURN" = "-A " ++ firewallForwardChain ++
          (" -i " ++ iface ++ " " ++ systemComment "container-egress" ++ " -j RETURN") := by
      simp only [String.append_assoc]
    rw [hrest]
    exact readLine_forward _

/-! ## The document -/

/-- The host rules in rendering order. -/
def orderedHostRules (payload : FirewallReconcilePayload) : List FirewallRule :=
  orderedRules (payload.rules.filter fun rule => rule.scope = .host)

/-- The rules of the rendered host chain. -/
def chainRules (payload : FirewallReconcilePayload) (family : FirewallFamily)
    (guaranteedTcpPorts : List ℕ) : List Netfilter.Rule :=
  invariantRules family guaranteedTcpPorts ++
    (orderedHostRules payload).flatMap (hostRules · family) ++ defaultRules payload.policy

theorem mem_orderedRules {rules : List FirewallRule} {rule : FirewallRule}
    (h : rule ∈ orderedRules rules) : rule ∈ rules := by
  rcases List.mem_append.mp h with h | h
  · exact List.mem_of_mem_filter h
  · exact List.mem_of_mem_filter h

theorem flatMap_scopeLines (payload : FirewallReconcilePayload) (scope : FirewallRuleScope)
    (render : FirewallRule → List String) :
    (scopeLines payload scope render).flatMap Prod.snd =
      (orderedRules (payload.rules.filter fun rule => rule.scope = scope)).flatMap render := by
  rw [scopeLines, List.flatMap_map]

section

variable {input : RenderFirewallInput} {family : FirewallFamily} {guaranteedTcpPorts : List ℕ}

theorem appends_familyLines (hrules : ∀ rule ∈ input.payload.rules, rule.WellFormed) :
    Appends firewallInputChain (familyLines input family guaranteedTcpPorts).1
      (chainRules input.payload family guaranteedTcpPorts) := by
  have hhead : Appends firewallInputChain ["*filter", ":" ++ firewallInputChain ++ " - [0:0]"] [] :=
    appends_of_none (List.forall_mem_cons.mpr ⟨readLine_of_head (by decide),
      List.forall_mem_singleton.mpr (readLine_of_head (by decide))⟩)
  have hforwardHead : Appends firewallInputChain
      (if input.includeForward family then [":" ++ firewallForwardChain ++ " - [0:0]"] else []) [] := by
    split_ifs
    · exact appends_of_none (List.forall_mem_singleton.mpr (readLine_of_head (by decide)))
    · exact appends_nil
  have hhosts : Appends firewallInputChain
      ((scopeLines input.payload .host fun rule => renderHostRule rule family).flatMap Prod.snd)
      ((orderedHostRules input.payload).flatMap (hostRules · family)) := by
    rw [flatMap_scopeLines]
    apply appends_flatMap
    intro rule hrule
    exact appends_renderHostRule (hrules rule (List.mem_of_mem_filter (mem_orderedRules hrule)))
      family
  have hprefix : Appends firewallInputChain
      (if input.includeForward family then forwardPrefix else []) [] := by
    split_ifs
    · exact appends_forwardPrefix
    · exact appends_nil
  have hforwards : Appends firewallInputChain
      ((if input.includeForward family then
        scopeLines input.payload .published fun rule => renderPublishedRule rule family
      else []).flatMap Prod.snd) [] := by
    split_ifs
    · rw [flatMap_scopeLines]
      have happends := appends_flatMap fun rule (_ : rule ∈ orderedRules
        (input.payload.rules.filter fun rule => rule.scope = .published)) =>
          appends_renderPublishedRule rule family
      rwa [List.flatMap_eq_nil_iff.mpr fun _ _ => rfl] at happends
    · exact appends_nil
  have hcommit : Appends firewallInputChain ["COMMIT"] [] :=
    appends_of_none (List.forall_mem_singleton.mpr (readLine_of_head (by decide)))
  have hall := ((((((hhead.append hforwardHead).append
    (appends_inputInvariants family guaranteedTcpPorts)).append hhosts).append
      (appends_defaultLines input.payload.policy)).append hprefix).append hforwards).append hcommit
  simp only [List.nil_append, List.append_nil] at hall
  exact hall

theorem onOneLine_systemComment {label : String} (h : OnOneLine label) :
    OnOneLine (systemComment label) :=
  onOneLine_append (onOneLine_append (onOneLine_of_decide (by decide)) h)
    (onOneLine_of_decide (by decide))

theorem onOneLine_closed {lines : List String}
    (h : (lines.all fun line => line.toList.all (· != '\n')) = true) :
    ∀ line ∈ lines, OnOneLine line := fun line hline =>
  onOneLine_of_decide (List.all_eq_true.mp h line hline)

theorem onOneLine_inputInvariants :
    ∀ line ∈ inputInvariants family guaranteedTcpPorts, OnOneLine line := by
  have hports : ∀ line ∈ guaranteedTcpPorts.map fun port =>
      "-A " ++ firewallInputChain ++ " -p tcp --dport " ++ toString port ++ " " ++
        systemComment ("tcp-" ++ toString port) ++ " -j ACCEPT", OnOneLine line := by
    intro line hline
    obtain ⟨port, -, rfl⟩ := List.mem_map.mp hline
    have hfront : OnOneLine ("-A " ++ firewallInputChain ++ " -p tcp --dport ") :=
      onOneLine_of_decide (by decide)
    have hspace : OnOneLine " " := onOneLine_of_decide (by decide)
    have hjump : OnOneLine " -j ACCEPT" := onOneLine_of_decide (by decide)
    have hport := onOneLine_toString port
    have hlabel : OnOneLine ("tcp-" ++ toString port) :=
      onOneLine_append (onOneLine_of_decide (by decide)) hport
    exact onOneLine_append (onOneLine_append (onOneLine_append (onOneLine_append hfront hport)
      hspace) (onOneLine_systemComment hlabel)) hjump
  rw [inputInvariants, List.forall_mem_append, List.forall_mem_append]
  refine ⟨⟨onOneLine_closed (by decide), ?_⟩, hports⟩
  cases family with
  | four => exact onOneLine_closed (by decide)
  | six => exact onOneLine_closed (by decide)

theorem onOneLine_forwardPrefix : ∀ line ∈ forwardPrefix, OnOneLine line :=
  onOneLine_closed (by decide)

theorem onOneLine_defaultLines (policy : FirewallPolicy) :
    ∀ line ∈ defaultLines policy, OnOneLine line := by
  rw [defaultLines]
  split_ifs
  · exact List.forall_mem_singleton.mpr (onOneLine_of_decide (by decide))
  · exact fun line hline => absurd hline List.not_mem_nil

/-- The lines of a scope stay on their lines when those of every rule do. -/
theorem onOneLine_scopeLines (hrules : ∀ rule ∈ input.payload.rules, rule.WellFormed)
    {scope : FirewallRuleScope} {render : FirewallRule → List String}
    (h : ∀ rule : FirewallRule, rule.WellFormed → ∀ line ∈ render rule, OnOneLine line) :
    ∀ line ∈ (scopeLines input.payload scope render).flatMap Prod.snd, OnOneLine line := by
  intro line hline
  rw [flatMap_scopeLines] at hline
  obtain ⟨rule, hrule, hline⟩ := List.mem_flatMap.mp hline
  exact h rule (hrules rule (List.mem_of_mem_filter (mem_orderedRules hrule))) line hline

theorem onOneLine_familyLines (hrules : ∀ rule ∈ input.payload.rules, rule.WellFormed) :
    ∀ line ∈ (familyLines input family guaranteedTcpPorts).1, OnOneLine line := by
  have hnil : ∀ line ∈ ([] : List String), OnOneLine line := fun line hline =>
    absurd hline List.not_mem_nil
  have hhead : ∀ line ∈ ["*filter", ":" ++ firewallInputChain ++ " - [0:0]"], OnOneLine line :=
    List.forall_mem_cons.mpr ⟨onOneLine_of_decide (by decide),
      List.forall_mem_singleton.mpr (onOneLine_of_decide (by decide))⟩
  have hforwardHead : ∀ line ∈ (if input.includeForward family then
      [":" ++ firewallForwardChain ++ " - [0:0]"] else []), OnOneLine line := by
    split_ifs
    · exact List.forall_mem_singleton.mpr (onOneLine_of_decide (by decide))
    · exact hnil
  have hhosts : ∀ line ∈ (scopeLines input.payload .host fun rule =>
      renderHostRule rule family).flatMap Prod.snd, OnOneLine line :=
    onOneLine_scopeLines hrules fun rule hrule => onOneLine_renderHostRule hrule
  have hprefix : ∀ line ∈ (if input.includeForward family then forwardPrefix else []),
      OnOneLine line := by
    split_ifs
    · exact onOneLine_forwardPrefix
    · exact hnil
  have hforwards : ∀ line ∈ (if input.includeForward family then
      scopeLines input.payload .published fun rule => renderPublishedRule rule family
        else []).flatMap Prod.snd, OnOneLine line := by
    split_ifs
    · exact onOneLine_scopeLines hrules fun rule hrule => onOneLine_renderPublishedRule hrule
    · exact hnil
  have hcommit : ∀ line ∈ ["COMMIT"], OnOneLine line :=
    List.forall_mem_singleton.mpr (onOneLine_of_decide (by decide))
  simp only [familyLines, List.forall_mem_append]
  exact ⟨⟨⟨⟨⟨⟨⟨hhead, hforwardHead⟩, onOneLine_inputInvariants⟩, hhosts⟩,
    onOneLine_defaultLines _⟩, hprefix⟩, hforwards⟩, hcommit⟩

/-- The host chain is read back from the document. -/
theorem readChain_renderFamily (hrules : ∀ rule ∈ input.payload.rules, rule.WellFormed) :
    readChain firewallInputChain (renderFamily input family guaranteedTcpPorts).1 =
      some (chainRules input.payload family guaranteedTcpPorts) := by
  have hne : (familyLines input family guaranteedTcpPorts).1 ≠ [] :=
    List.append_ne_nil_of_right_ne_nil _ (List.cons_ne_nil _ _)
  exact readChain_of_appends (appends_familyLines hrules) (onOneLine_familyLines hrules) hne

end

end Turbopaneld.Firewall
