/-
# The kernel's routes

The main table holds routes to networks.  `ip route show` prints a line for each, in which the
network can be spelled in any way the parser accepts, and `ip route replace` and `ip route del`
change the table.  What is read from the output is the table again.
-/

import Turbopaneld.Fabric.Routes
import Turbopaneld.Sequences.Slots

namespace Turbopaneld.Fabric

open Firewall JavaScript Sequences

/-! ## Routes -/

/-- A network: its first and last address share the prefix. -/
structure Network where
  parsed : ParsedCidrLiteral
  isNetwork : IsNetwork parsed
deriving DecidableEq

namespace Network

def version (network : Network) : FirewallFamily := network.parsed.version

def route (network : Network) : FabricRoute := routeOf network.parsed

def key (network : Network) : RouteKey := network.route.key

theorem fabricRoute_cidr (network : Network) :
    fabricRoute network.route.cidr = some network.route := by
  rw [fabricRoute, route, parseCidrLiteral_cidr network.isNetwork, Option.map_some]

theorem key_injective {a b : Network} (h : a.key = b.key) : a = b := by
  have hroute := fabricRoute_eq_of_key a.fabricRoute_cidr b.fabricRoute_cidr h
  obtain ⟨p, hp⟩ := a
  obtain ⟨q, hq⟩ := b
  have hparsed : p = q := congrArg FabricRoute.parsed hroute
  subst hparsed
  rfl

end Network

/-- The network a range's text stands for. -/
def networkOf (value : String) : Option Network :=
  (parseCidrLiteral (trim value)).pmap Network.mk fun _ h => isNetwork_of_parse h

theorem map_route_pmap (parsed : Option ParsedCidrLiteral) (h : ∀ p ∈ parsed, IsNetwork p) :
    (parsed.pmap Network.mk h).map Network.route = parsed.map routeOf := by
  cases parsed <;> rfl

theorem fabricRoute_eq_networkOf (value : String) :
    fabricRoute value = (networkOf value).map Network.route :=
  (map_route_pmap (parseCidrLiteral (trim value)) fun _ h => isNetwork_of_parse h).symm

theorem networkOf_cidr (network : Network) : networkOf network.route.cidr = some network := by
  have hroute := network.fabricRoute_cidr
  rw [fabricRoute_eq_networkOf] at hroute
  obtain ⟨other, hother, hsame⟩ := Option.map_eq_some_iff.mp hroute
  rw [hother, Network.key_injective (congrArg FabricRoute.key hsame)]

/-- A route of the main table. -/
structure KernelRoute where
  network : Network
  dev : Option String
  /-- The next hop, as it is shown. -/
  via : Option String
  /-- The kernel made the route (`proto kernel`). -/
  kernel : Bool
  /-- `scope link`. -/
  linkScope : Bool
  linkdown : Bool
deriving DecidableEq

namespace KernelRoute

/-- The host is directly attached to the network: a route of an interface, without a next hop, that
the kernel made or that stays on the link; the daemon's own routes are no such network. -/
def connected (route : KernelRoute) : Bool :=
  route.dev ≠ none && route.via = none &&
    (route.kernel || (route.dev ≠ some fabricInterfaceName &&
      (route.network.version = .six || route.linkScope)))

/-- What the planner is to see of the route. -/
def observed (route : KernelRoute) : ObservedRoute :=
  { route.network.route with
    dev := route.dev
    kernel := route.kernel
    connected := route.connected
    via := route.via
    linkdown := route.linkdown }

@[simp] theorem observed_key (route : KernelRoute) : route.observed.key = route.network.key := rfl

@[simp] theorem observed_parsed (route : KernelRoute) :
    route.observed.parsed = route.network.parsed := rfl

@[simp] theorem observed_cidr (route : KernelRoute) :
    route.observed.cidr = route.network.route.cidr := rfl

@[simp] theorem observed_dev (route : KernelRoute) : route.observed.dev = route.dev := rfl

@[simp] theorem observed_via (route : KernelRoute) : route.observed.via = route.via := rfl

@[simp] theorem observed_kernel (route : KernelRoute) : route.observed.kernel = route.kernel := rfl

@[simp] theorem observed_connected (route : KernelRoute) :
    route.observed.connected = route.connected := rfl

end KernelRoute

/-! ## What `ip route show` prints -/

/-- The route of every address, which is shown as `default`. -/
def KernelRoute.isDefault (route : KernelRoute) : Bool := route.network.parsed.prefixLength = 0

/-- A line shows a route: its first word spells the network, with the length of the prefix left out
for a single host or not, and the other words say the rest. -/
structure Shows (route : KernelRoute) (line : String) : Prop where
  destination : ∃ destination rest, tokensOf line = destination :: rest ∧
    destination ≠ "default" ∧ destination ∉ routeTypes ∧
    ∃ c : CidrText, c.text = withHostPrefix destination route.network.version ∧
      (c.address.family, c.base, decimalNumber c.digits.toList) = route.network.key
  dev : tokenAfter (tokensOf line) "dev" = route.dev
  via : tokenAfter (tokensOf line) "via" = route.via
  kernel : tokenAfter (tokensOf line) "proto" = some "kernel" ↔ route.kernel = true
  linkScope : tokenAfter (tokensOf line) "scope" = some "link" ↔ route.linkScope = true
  linkdown : "linkdown" ∈ tokensOf line ↔ route.linkdown = true

/-- The lines for the routes of one family, among them lines for routes that are not plain unicast
ones. -/
inductive Prints (version : FirewallFamily) : List KernelRoute → List String → Prop
  | nil : Prints version [] []
  | route {route : KernelRoute} {line : String} {routes : List KernelRoute} {lines : List String}
      (hdefault : route.isDefault = false) (hshows : Shows route line)
      (hrest : Prints version routes lines) : Prints version (route :: routes) (line :: lines)
  | default {route : KernelRoute} {line : String} {routes : List KernelRoute} {lines : List String}
      (hdefault : route.isDefault = true) (hline : (tokensOf line).head? = some "default")
      (hrest : Prints version routes lines) : Prints version (route :: routes) (line :: lines)
  | other {line : String} {routes : List KernelRoute} {lines : List String}
      (hother : ∀ word, (tokensOf line).head? = some word → word ∈ routeTypes)
      (hrest : Prints version routes lines) : Prints version routes (line :: lines)

/-- The output of `ip -4|-6 route show`. -/
def Output (version : FirewallFamily) (routes : List KernelRoute) (stdout : String) : Prop :=
  Prints version (routes.filter (·.network.version = version)) (split '\n' stdout)

theorem parseRouteLine_of_shows {route : KernelRoute} {line : String} (h : Shows route line) :
    parseRouteLine line route.network.version = some route.observed := by
  obtain ⟨destination, rest, htokens, hdefault, htype, c, hc, hkey⟩ := h.destination
  have hroute : fabricRoute (withHostPrefix destination route.network.version) =
      some route.network.route := by
    have hparse := CidrText.parseCidrLiteral_of_trim
      (show c.text = trim (trim c.text) by rw [c.trim_text, c.trim_text])
    have hsome := congrArg (Option.map routeOf) hparse
    rw [Option.map_some] at hsome
    rw [← hc, fabricRoute, hsome]
    exact congrArg some (fabricRoute_eq_of_key hsome route.network.fabricRoute_cidr hkey)
  have hkernel : isKernelRoute (tokensOf line) = route.kernel := by
    rw [isKernelRoute, Bool.eq_iff_iff, decide_eq_true_eq, h.kernel]
  have hscope : decide (tokenAfter (tokensOf line) "scope" = some "link") = route.linkScope := by
    rw [Bool.eq_iff_iff, decide_eq_true_eq, h.linkScope]
  have hlinkdown : (tokensOf line).contains "linkdown" = route.linkdown := by
    rw [Bool.eq_iff_iff, List.contains_iff_mem, h.linkdown]
  have hconnected : isConnectedRoute (tokensOf line) route.dev route.via route.network.version =
      route.connected := by
    rw [isConnectedRoute, hkernel, hscope, KernelRoute.connected]
    by_cases hdev : route.dev = none ∨ route.via ≠ none
    · rw [if_pos hdev]
      rcases hdev with hdev | hvia
      · simp [hdev]
      · simp [hvia]
    · rw [if_neg hdev]
      obtain ⟨hdev, hvia⟩ := not_or.mp hdev
      rw [not_not] at hvia
      by_cases htp0 : route.dev = some fabricInterfaceName
      · simp [htp0, hvia]
      · simp [htp0, hdev, hvia]
  have hversion : route.network.route.parsed.version = route.network.version := rfl
  rw [parseRouteLine, htokens]
  simp only [List.head?_cons, hdefault, htype, or_self, if_false, hroute, hversion, ne_eq,
    not_true_eq_false]
  rw [← htokens, h.dev, h.via, hkernel, hconnected, hlinkdown]
  rfl

theorem parseRouteLine_of_other {line : String} (version : FirewallFamily)
    (h : ∀ word, (tokensOf line).head? = some word → word = "default" ∨ word ∈ routeTypes) :
    parseRouteLine line version = none := by
  rw [parseRouteLine]
  cases hhead : (tokensOf line).head? with
  | none => rfl
  | some word =>
    dsimp only
    rw [if_pos (h word hhead)]

/-- What is read from the output is the table, but for the default routes. -/
theorem parseRouteShow_of_output {version : FirewallFamily} {routes : List KernelRoute}
    {stdout : String} (h : Output version routes stdout) :
    parseRouteShow stdout version =
      ((routes.filter (·.network.version = version)).filter (!·.isDefault)).map
        KernelRoute.observed := by
  have hread : ∀ {routes : List KernelRoute} {lines : List String}, Prints version routes lines →
      (∀ route ∈ routes, route.network.version = version) →
      lines.filterMap (parseRouteLine · version) =
        (routes.filter (!·.isDefault)).map KernelRoute.observed := by
    intro routes lines hprints
    induction hprints with
    | nil => exact fun _ => rfl
    | route hdefault hshows _ ih =>
      intro hversion
      rw [List.forall_mem_cons] at hversion
      rw [← hversion.1] at ih ⊢
      rw [List.filterMap_cons, parseRouteLine_of_shows hshows, List.filter_cons, hdefault,
        Bool.not_false, if_pos rfl, List.map_cons]
      exact congrArg (_ :: ·) (ih (hversion.1 ▸ hversion.2))
    | default hdefault hline _ ih =>
      intro hversion
      rw [List.filterMap_cons, parseRouteLine_of_other version fun word hword =>
        .inl (Option.some.inj (hword.symm.trans hline)), List.filter_cons, hdefault, Bool.not_true,
        if_neg Bool.false_ne_true]
      exact ih fun route hroute => hversion route (List.mem_cons_of_mem _ hroute)
    | other hother _ ih =>
      intro hversion
      rw [List.filterMap_cons, parseRouteLine_of_other version fun word hword =>
        .inr (hother word hword)]
      exact ih hversion
  exact hread h fun route hroute => of_decide_eq_true (List.mem_filter.mp hroute).2

/-- An interface that is shown has a name. -/
theorem dev_ne_of_output {version : FirewallFamily} {routes : List KernelRoute} {stdout : String}
    (h : Output version routes stdout) :
    ∀ route ∈ routes, route.network.version = version → route.isDefault = false →
      route.dev ≠ some "" := by
  have htokens : ∀ (line : String), "" ∉ tokensOf line := by
    intro line hmem
    obtain ⟨word, hword, hempty⟩ := List.mem_map.mp hmem
    obtain ⟨-, hne⟩ := List.mem_filter.mp hword
    rw [← String.toList_inj, String.toList_ofList] at hempty
    rw [hempty] at hne
    cases hne
  have hshown : ∀ {routes : List KernelRoute} {lines : List String}, Prints version routes lines →
      ∀ route ∈ routes, route.isDefault = false → route.dev ≠ some "" := by
    intro routes lines hprints
    induction hprints with
    | nil => exact nofun
    | route _ hshows _ ih =>
      rw [List.forall_mem_cons]
      refine ⟨fun _ hdev => ?_, ih⟩
      have hword := hshows.dev.trans hdev
      rw [tokenAfter] at hword
      split at hword
      case isTrue => exact htokens _ (List.mem_of_getElem? hword)
      case isFalse => cases hword
    | default hdefault _ _ ih =>
      rw [List.forall_mem_cons]
      refine ⟨fun hplain => ?_, ih⟩
      rw [hdefault] at hplain
      cases hplain
    | other _ _ ih => exact ih
  intro route hroute hversion
  exact hshown h route (List.mem_filter.mpr ⟨hroute, decide_eq_true hversion⟩)

/-! ## Changes -/

/-- One network on one interface. -/
def KernelRoute.slot (route : KernelRoute) : Network × Option String := (route.network, route.dev)

/-- The route that `ip route replace network [via address] dev interface` leaves. -/
def addedRoute (dev : String) (via : Option String) (network : Network) : KernelRoute :=
  { network, dev := some dev, via, kernel := false, linkScope := via.isNone, linkdown := false }

/-- `ip route replace`, which fails when the range is none. -/
def ipReplace (routes : List KernelRoute) (cidr : String) (via : Option String) (dev : String) :
    List KernelRoute :=
  putSome KernelRoute.slot routes ((networkOf cidr).map (addedRoute dev via))

/-- `ip route del cidr dev interface`. -/
def ipDelete (routes : List KernelRoute) (cidr dev : String) : List KernelRoute :=
  routes.filter fun route => !(networkOf cidr = some route.network && route.dev = some dev)

end Turbopaneld.Fabric
