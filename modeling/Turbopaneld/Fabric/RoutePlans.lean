/-
# The plan for `tp0` settles

Executing the plan leaves on `tp0` the wanted networks that no other interface routes, and what the
daemon does not manage.  Routes of other interfaces and unmanaged routes stay as they are, and the
next plan changes nothing, however the table is printed.
-/

import Turbopaneld.Fabric.RouteTable

namespace Turbopaneld.Fabric

open Firewall JavaScript Sequences

/-! ## Reading the table -/

/-- `readRouteFamily` of both families. -/
def readTable (stdout4 stdout6 : String) : List ObservedRoute :=
  parseRouteShow stdout4 .four ++ parseRouteShow stdout6 .six

/-- The two outputs show the table. -/
def TableOutput (routes : List KernelRoute) (stdout4 stdout6 : String) : Prop :=
  Output .four routes stdout4 ∧ Output .six routes stdout6

theorem mem_readTable {routes : List KernelRoute} {stdout4 stdout6 : String}
    (h : TableOutput routes stdout4 stdout6) {observed : ObservedRoute} :
    observed ∈ readTable stdout4 stdout6 ↔
      ∃ route ∈ routes, route.isDefault = false ∧ route.observed = observed := by
  rw [readTable, parseRouteShow_of_output h.1, parseRouteShow_of_output h.2]
  simp only [List.mem_append, List.mem_map, List.mem_filter, decide_eq_true_eq,
    Bool.not_eq_true']
  constructor
  case mp =>
    rintro (⟨route, ⟨⟨hroute, -⟩, hplain⟩, heq⟩ | ⟨route, ⟨⟨hroute, -⟩, hplain⟩, heq⟩)
    · exact ⟨route, hroute, hplain, heq⟩
    · exact ⟨route, hroute, hplain, heq⟩
  case mpr =>
    rintro ⟨route, hroute, hplain, heq⟩
    cases hversion : route.network.version with
    | four => exact .inl ⟨route, ⟨⟨hroute, hversion⟩, hplain⟩, heq⟩
    | six => exact .inr ⟨route, ⟨⟨hroute, hversion⟩, hplain⟩, heq⟩

theorem dev_ne_of_tableOutput {routes : List KernelRoute} {stdout4 stdout6 : String}
    (h : TableOutput routes stdout4 stdout6) {route : KernelRoute} (hroute : route ∈ routes)
    (hplain : route.isDefault = false) : route.dev ≠ some "" := by
  cases hversion : route.network.version with
  | four => exact dev_ne_of_output h.1 route hroute hversion hplain
  | six => exact dev_ne_of_output h.2 route hroute hversion hplain

/-! ## What is wanted -/

/-- Ranges that the policy lets a peer claim. -/
def Allowed (desired : List FabricRoute) : Prop :=
  ∀ route ∈ desired, ∃ value, fabricRoute value = some route ∧ fabricRangeProblem value = none

/-- Another interface has a route to the network, or the host is attached to a network that shares
addresses with it. -/
def RoutedElsewhere (routes : List KernelRoute) (network : Network) : Prop :=
  ∃ other ∈ routes, other.isDefault = false ∧ other.dev ≠ some fabricInterfaceName ∧
    (other.network = network ∨
      (other.connected = true ∧ rangesShare network.parsed other.network.parsed = true))

/-- The networks that belong on `tp0`. -/
def Wanted (desired : List FabricRoute) (routes : List KernelRoute) (network : Network) : Prop :=
  network.route ∈ desired ∧ ¬RoutedElsewhere routes network

/-- A route on `tp0` that the daemon manages. -/
def Managed (route : KernelRoute) : Prop :=
  route.dev = some fabricInterfaceName ∧ isManagedTp0Route route.observed = true

theorem Managed.not_kernel {route : KernelRoute} (h : Managed route) : route.kernel = false := by
  have hmanaged := h.2
  rw [isManagedTp0Route, Bool.and_eq_true, Bool.and_eq_true, Bool.not_eq_true'] at hmanaged
  exact hmanaged.1.1

theorem Managed.not_default {route : KernelRoute} (h : Managed route) :
    route.isDefault = false := by
  have hmanaged := h.2
  rw [isManagedTp0Route, Bool.and_eq_true, Bool.and_eq_true, Bool.not_eq_true',
    Bool.not_eq_true', decide_eq_false_iff_not] at hmanaged
  have hbound : 0 < minPrefix route.network.parsed.version := by
    cases route.network.parsed.version <;> decide
  have hlength : ¬route.network.parsed.prefixLength < minPrefix route.network.parsed.version :=
    hmanaged.1.2
  rw [KernelRoute.isDefault, decide_eq_false_iff_not]
  omega

theorem exists_network {value : String} {route : FabricRoute} (h : fabricRoute value = some route) :
    ∃ network : Network, network.route = route := by
  rw [fabricRoute_eq_networkOf] at h
  obtain ⟨network, -, hroute⟩ := Option.map_eq_some_iff.mp h
  exact ⟨network, hroute⟩

theorem Network.route_injective {a b : Network} (h : a.route = b.route) : a = b :=
  Network.key_injective (congrArg FabricRoute.key h)

/-- An allowed range is not the route of every address. -/
theorem Allowed.length_ne {desired : List FabricRoute} (h : Allowed desired) {network : Network}
    (hmem : network.route ∈ desired) : network.parsed.prefixLength ≠ 0 := by
  obtain ⟨value, hroute, hproblem⟩ := h _ hmem
  obtain ⟨parsed, hparsed, hsame⟩ := Option.map_eq_some_iff.mp hroute
  rw [parseCidrLiteral_trim] at hparsed
  have hnetwork : parsed = network.parsed := congrArg FabricRoute.parsed hsame
  unfold fabricRangeProblem at hproblem
  rw [hparsed] at hproblem
  dsimp only at hproblem
  split at hproblem
  case isTrue => cases hproblem
  case isFalse hlong =>
    have hbound : 0 < minPrefix parsed.version := by
      cases parsed.version <;> decide
    rw [← hnetwork]
    omega

theorem allowed_setRoute {routes : List FabricRoute} {route : FabricRoute} (h : Allowed routes)
    (hroute : Allowed [route]) : Allowed (setRoute routes route) := by
  rw [setRoute]
  split
  case isFalse => exact List.forall_mem_append.mpr ⟨h, hroute⟩
  case isTrue =>
    rw [Allowed, List.forall_mem_map]
    intro other hother
    split
    case isTrue => exact hroute route List.mem_cons_self
    case isFalse => exact h other hother

theorem allowed_addDesired (own : Option FabricRoute) {routes : List FabricRoute} {cidr : String}
    (h : Allowed routes) (hcidr : fabricRangeProblem cidr = none) :
    Allowed (addDesired own routes cidr) := by
  unfold addDesired
  generalize hroute : fabricRoute cidr = found
  cases found with
  | none => exact h
  | some route =>
    dsimp only
    split
    case isTrue => exact h
    case isFalse =>
      apply allowed_setRoute h
      rw [Allowed, List.forall_mem_singleton]
      exact ⟨cidr, hroute, hcidr⟩

theorem allowed_foldl_addDesired (own : Option FabricRoute) {cidrs : List String}
    (hcidrs : ∀ cidr ∈ cidrs, fabricRangeProblem cidr = none) {routes : List FabricRoute}
    (h : Allowed routes) : Allowed (cidrs.foldl (addDesired own) routes) := by
  induction cidrs generalizing routes with
  | nil => exact h
  | cons cidr cidrs ih =>
    rw [List.forall_mem_cons] at hcidrs
    rw [List.foldl_cons]
    exact ih hcidrs.2 (allowed_addDesired own h hcidrs.1)

/-- The ranges of a payload that passes the policy are allowed. -/
theorem allowed_desiredFabricRoutes {payload : PolicyPayload}
    (h : fabricAllowedIpsPolicyError payload = none) : Allowed (desiredFabricRoutes payload) := by
  have hranges : ∀ cidr ∈ payload.peers.flatten, fabricRangeProblem cidr = none := by
    intro cidr hcidr
    obtain ⟨allowedIPs, hpeer, hmem⟩ := List.mem_flatten.mp hcidr
    obtain ⟨i, hi⟩ := List.mem_iff_getElem?.mp hpeer
    exact (of_peerRouteError (peerRouteError_eq_none h hi hmem)).1
  have hstart : Allowed [] := fun _ hroute => absurd hroute List.not_mem_nil
  unfold desiredFabricRoutes
  exact allowed_foldl_addDesired _ hranges hstart

/-! ## The plan in terms of the table -/

section

variable {desired : List FabricRoute} {routes : List KernelRoute} {stdout4 stdout6 : String}

/-- The plan that is made from the outputs. -/
def planOf (desired : List FabricRoute) (stdout4 stdout6 : String) : FabricRoutePlan :=
  planFabricRoutes desired (readTable stdout4 stdout6)

/-- A range is skipped exactly when another interface routes it. -/
theorem conflict_isNone_iff (htable : TableOutput routes stdout4 stdout6) (network : Network) :
    ((conflictingDev network.route ((readTable stdout4 stdout6).filter fun route =>
      route.dev ≠ some fabricInterfaceName)).filter (· ≠ "")).isNone = true ↔
      ¬RoutedElsewhere routes network := by
  have hnone : ((conflictingDev network.route ((readTable stdout4 stdout6).filter fun route =>
      route.dev ≠ some fabricInterfaceName)).filter (· ≠ "")).isNone = true ↔
      conflictingDev network.route ((readTable stdout4 stdout6).filter fun route =>
        route.dev ≠ some fabricInterfaceName) = none := by
    rw [Option.isNone_iff_eq_none, Option.filter_eq_none_iff]
    constructor
    case mpr => exact fun h => by rw [h]; exact nofun
    case mp =>
      intro hempty
      by_contra hsome
      obtain ⟨dev, hdev⟩ := Option.ne_none_iff_exists'.mp hsome
      have hfound := List.exists_of_findSome?_eq_some hdev
      obtain ⟨other, hother, hvalue⟩ := hfound
      obtain ⟨hother, -⟩ := List.mem_filter.mp hother
      obtain ⟨route, hroute, hplain, rfl⟩ := (mem_readTable htable).mp hother
      split at hvalue
      case isFalse => cases hvalue
      case isTrue =>
        have hname := hempty dev hdev
        rw [decide_eq_true_eq, not_not] at hname
        rw [hname] at hvalue
        rw [KernelRoute.observed_dev] at hvalue
        cases hroutedev : route.dev with
        | none =>
          rw [hroutedev] at hvalue
          exact absurd (Option.some.inj hvalue) (by decide)
        | some name =>
          have hne := dev_ne_of_tableOutput htable hroute hplain
          rw [hroutedev] at hvalue hne
          exact hne hvalue
  rw [hnone, conflictingDev, List.findSome?_eq_none_iff]
  constructor
  case mp =>
    rintro hall ⟨other, hother, hplain, hdev, hconflict⟩
    have hseen := hall other.observed (List.mem_filter.mpr
      ⟨(mem_readTable htable).mpr ⟨other, hother, hplain, rfl⟩, decide_eq_true hdev⟩)
    rw [if_pos] at hseen
    · cases hseen
    · rw [Bool.or_eq_true, Bool.and_eq_true, decide_eq_true_eq]
      rcases hconflict with rfl | hshare
      · exact .inl rfl
      · exact .inr hshare
  case mpr =>
    intro hfree observed hobserved
    obtain ⟨hobserved, hdev⟩ := List.mem_filter.mp hobserved
    obtain ⟨other, hother, hplain, rfl⟩ := (mem_readTable htable).mp hobserved
    rw [if_neg]
    intro hconflict
    rw [Bool.or_eq_true, Bool.and_eq_true, decide_eq_true_eq] at hconflict
    refine hfree ⟨other, hother, hplain, of_decide_eq_true hdev, ?_⟩
    rcases hconflict with hkey | hshare
    · exact .inl (Network.key_injective hkey)
    · exact .inr hshare

/-- `wanted` holds the keys of the networks that belong on `tp0`. -/
theorem mem_wanted (hallowed : Allowed desired) (htable : TableOutput routes stdout4 stdout6)
    (network : Network) :
    network.key ∈ ((desired.filter fun route =>
      ((conflictingDev route ((readTable stdout4 stdout6).filter fun route =>
        route.dev ≠ some fabricInterfaceName)).filter (· ≠ "")).isNone).map (·.key)) ↔
      Wanted desired routes network := by
  rw [List.mem_map]
  constructor
  case mp =>
    rintro ⟨route, hroute, hkey⟩
    obtain ⟨hroute, hfree⟩ := List.mem_filter.mp hroute
    obtain ⟨value, hvalue, -⟩ := hallowed route hroute
    obtain ⟨other, rfl⟩ := exists_network hvalue
    obtain rfl := Network.key_injective hkey
    exact ⟨hroute, (conflict_isNone_iff htable other).mp hfree⟩
  case mpr =>
    rintro ⟨hroute, hfree⟩
    exact ⟨network.route, List.mem_filter.mpr ⟨hroute, (conflict_isNone_iff htable network).mpr
      hfree⟩, rfl⟩

/-- `present` holds the keys of the networks on `tp0`. -/
theorem mem_present (htable : TableOutput routes stdout4 stdout6) {network : Network}
    (hlength : network.parsed.prefixLength ≠ 0) :
    network.key ∈ (((readTable stdout4 stdout6).filter fun route =>
      route.dev = some fabricInterfaceName).map (·.key)) ↔
      ∃ route ∈ routes, route.dev = some fabricInterfaceName ∧ route.network = network := by
  rw [List.mem_map]
  constructor
  case mp =>
    rintro ⟨observed, hobserved, hkey⟩
    obtain ⟨hobserved, hdev⟩ := List.mem_filter.mp hobserved
    obtain ⟨route, hroute, -, rfl⟩ := (mem_readTable htable).mp hobserved
    exact ⟨route, hroute, of_decide_eq_true hdev, Network.key_injective hkey⟩
  case mpr =>
    rintro ⟨route, hroute, hdev, rfl⟩
    exact ⟨route.observed, List.mem_filter.mpr ⟨(mem_readTable htable).mpr
      ⟨route, hroute, decide_eq_false hlength, rfl⟩, decide_eq_true hdev⟩, rfl⟩

theorem mem_add_iff (hallowed : Allowed desired) (htable : TableOutput routes stdout4 stdout6)
    {cidr : String} :
    cidr ∈ (planOf desired stdout4 stdout6).add ↔ ∃ network : Network, network.route.cidr = cidr ∧
      Wanted desired routes network ∧
      ¬∃ route ∈ routes, route.dev = some fabricInterfaceName ∧ route.network = network := by
  rw [planOf, planFabricRoutes]
  dsimp only
  rw [List.mem_map]
  constructor
  case mp =>
    rintro ⟨route, hroute, rfl⟩
    obtain ⟨hroute, hadd⟩ := List.mem_filter.mp hroute
    obtain ⟨value, hvalue, -⟩ := hallowed route hroute
    obtain ⟨network, rfl⟩ := exists_network hvalue
    rw [Bool.and_eq_true, Bool.not_eq_true', List.contains_iff_mem, ← Bool.not_eq_true,
      List.contains_iff_mem] at hadd
    exact ⟨network, rfl, (mem_wanted hallowed htable network).mp hadd.1, fun hpresent =>
      hadd.2 ((mem_present htable (hallowed.length_ne hroute)).mpr hpresent)⟩
  case mpr =>
    rintro ⟨network, rfl, hwanted, hmissing⟩
    refine ⟨network.route, List.mem_filter.mpr ⟨hwanted.1, ?_⟩, rfl⟩
    rw [Bool.and_eq_true, Bool.not_eq_true', List.contains_iff_mem, ← Bool.not_eq_true,
      List.contains_iff_mem]
    exact ⟨(mem_wanted hallowed htable network).mpr hwanted, fun hpresent =>
      hmissing ((mem_present htable (hallowed.length_ne hwanted.1)).mp hpresent)⟩

theorem mem_remove_iff (hallowed : Allowed desired) (htable : TableOutput routes stdout4 stdout6)
    {cidr : String} :
    cidr ∈ (planOf desired stdout4 stdout6).remove ↔ ∃ route ∈ routes,
      route.network.route.cidr = cidr ∧ Managed route ∧ ¬Wanted desired routes route.network := by
  rw [planOf, planFabricRoutes]
  dsimp only
  rw [List.mem_map]
  constructor
  case mp =>
    rintro ⟨observed, hobserved, rfl⟩
    obtain ⟨hobserved, hremove⟩ := List.mem_filter.mp hobserved
    obtain ⟨hobserved, hdev⟩ := List.mem_filter.mp hobserved
    obtain ⟨route, hroute, -, rfl⟩ := (mem_readTable htable).mp hobserved
    rw [Bool.and_eq_true, Bool.not_eq_true', ← Bool.not_eq_true, List.contains_iff_mem] at hremove
    exact ⟨route, hroute, rfl, ⟨of_decide_eq_true hdev, hremove.2⟩, fun hwanted =>
      hremove.1 ((mem_wanted hallowed htable route.network).mpr hwanted)⟩
  case mpr =>
    rintro ⟨route, hroute, rfl, hmanaged, hunwanted⟩
    refine ⟨route.observed, List.mem_filter.mpr ⟨List.mem_filter.mpr
      ⟨(mem_readTable htable).mpr ⟨route, hroute, hmanaged.not_default, rfl⟩,
        decide_eq_true hmanaged.1⟩, ?_⟩, rfl⟩
    rw [Bool.and_eq_true, Bool.not_eq_true', ← Bool.not_eq_true, List.contains_iff_mem]
    exact ⟨fun hmem => hunwanted ((mem_wanted hallowed htable route.network).mp hmem), hmanaged.2⟩

/-! ## Execution -/

/-- `reconcileFabricRoutes`: what is missing is added, then what nobody wants is removed. -/
def executePlan (plan : FabricRoutePlan) (routes : List KernelRoute) : List KernelRoute :=
  let added := plan.add.foldl (fun routes cidr => ipReplace routes cidr none fabricInterfaceName)
    routes
  plan.remove.foldl (fun routes cidr => ipDelete routes cidr fabricInterfaceName) added

/-- The routes that the plan adds. -/
def addedRoutes (plan : FabricRoutePlan) : List KernelRoute :=
  plan.add.filterMap fun cidr => (networkOf cidr).map (addedRoute fabricInterfaceName none)

theorem mem_executePlan {plan : FabricRoutePlan} {route : KernelRoute} :
    route ∈ executePlan plan routes ↔
      (route ∈ addedRoutes plan ∨
        (route ∈ routes ∧ ∀ added ∈ addedRoutes plan, route.slot ≠ added.slot)) ∧
      ¬(route.dev = some fabricInterfaceName ∧
        ∃ cidr ∈ plan.remove, networkOf cidr = some route.network) := by
  have hadded : plan.add.foldl (fun routes cidr =>
      ipReplace routes cidr none fabricInterfaceName) routes =
      (addedRoutes plan).foldl (put KernelRoute.slot) routes :=
    foldl_putSome KernelRoute.slot (fun cidr : String =>
      (networkOf cidr).map (addedRoute fabricInterfaceName none)) plan.add routes
  have hsame : ∀ a ∈ addedRoutes plan, ∀ b ∈ addedRoutes plan, a.slot = b.slot → a = b := by
    intro a ha b hb hslot
    obtain ⟨cidr, -, hcidr⟩ := List.mem_filterMap.mp ha
    obtain ⟨other, -, hother⟩ := List.mem_filterMap.mp hb
    obtain ⟨network, -, rfl⟩ := Option.map_eq_some_iff.mp hcidr
    obtain ⟨network', -, rfl⟩ := Option.map_eq_some_iff.mp hother
    have hnetwork : network = network' := congrArg Prod.fst hslot
    rw [hnetwork]
  rw [executePlan, hadded]
  have hdeleted : ∀ table : List KernelRoute, plan.remove.foldl (fun routes cidr =>
      ipDelete routes cidr fabricInterfaceName) table = table.filter fun route =>
        !plan.remove.any fun cidr => decide (networkOf cidr = some route.network) &&
          decide (route.dev = some fabricInterfaceName) := fun table =>
    foldl_filter (fun cidr (route : KernelRoute) => decide (networkOf cidr = some route.network) &&
      decide (route.dev = some fabricInterfaceName)) plan.remove table
  rw [hdeleted, List.mem_filter, mem_foldl_put KernelRoute.slot hsame, Bool.not_eq_true',
    ← Bool.not_eq_true, List.any_eq_true]
  refine and_congr_right fun _ => not_congr ?_
  simp only [Bool.and_eq_true, decide_eq_true_eq]
  exact ⟨fun ⟨cidr, hcidr, hnetwork, hdev⟩ => ⟨hdev, cidr, hcidr, hnetwork⟩,
    fun ⟨hdev, cidr, hcidr, hnetwork⟩ => ⟨cidr, hcidr, hnetwork, hdev⟩⟩

/-- `tp0` has one entry for a network. -/
def OneEntry (routes : List KernelRoute) : Prop :=
  ∀ a ∈ routes, ∀ b ∈ routes, a.dev = some fabricInterfaceName →
    b.dev = some fabricInterfaceName → a.network = b.network → a = b

/-- The table after the plan: what was there, without the managed routes that nobody wants, and what
was wanted and missing. -/
theorem mem_execute_iff (hallowed : Allowed desired) (hone : OneEntry routes)
    (htable : TableOutput routes stdout4 stdout6) {route : KernelRoute} :
    route ∈ executePlan (planOf desired stdout4 stdout6) routes ↔
      (route ∈ routes ∧ ¬(Managed route ∧ ¬Wanted desired routes route.network)) ∨
      ((∃ network, route = addedRoute fabricInterfaceName none network) ∧
        Wanted desired routes route.network ∧
        ¬∃ other ∈ routes, other.dev = some fabricInterfaceName ∧
          other.network = route.network) := by
  have hadded : ∀ {route}, route ∈ addedRoutes (planOf desired stdout4 stdout6) ↔
      (∃ network, route = addedRoute fabricInterfaceName none network) ∧
        Wanted desired routes route.network ∧
        ¬∃ other ∈ routes, other.dev = some fabricInterfaceName ∧
          other.network = route.network := by
    intro route
    rw [addedRoutes, List.mem_filterMap]
    constructor
    case mp =>
      rintro ⟨cidr, hcidr, hroute⟩
      obtain ⟨network, hnetwork, rfl⟩ := Option.map_eq_some_iff.mp hroute
      obtain ⟨other, rfl, hwanted, hmissing⟩ := (mem_add_iff hallowed htable).mp hcidr
      rw [networkOf_cidr] at hnetwork
      obtain rfl := Option.some.inj hnetwork
      exact ⟨⟨other, rfl⟩, hwanted, hmissing⟩
    case mpr =>
      rintro ⟨⟨network, rfl⟩, hwanted, hmissing⟩
      refine ⟨network.route.cidr, (mem_add_iff hallowed htable).mpr
        ⟨network, rfl, hwanted, hmissing⟩, ?_⟩
      rw [networkOf_cidr, Option.map_some]
  have hremoved : ∀ {network : Network},
      (∃ cidr ∈ (planOf desired stdout4 stdout6).remove, networkOf cidr = some network) ↔
        ∃ route ∈ routes, route.network = network ∧ Managed route ∧
          ¬Wanted desired routes network := by
    intro network
    constructor
    case mp =>
      rintro ⟨cidr, hcidr, hnetwork⟩
      obtain ⟨route, hroute, rfl, hmanaged, hunwanted⟩ := (mem_remove_iff hallowed htable).mp hcidr
      rw [networkOf_cidr] at hnetwork
      obtain rfl := Option.some.inj hnetwork
      exact ⟨route, hroute, rfl, hmanaged, hunwanted⟩
    case mpr =>
      rintro ⟨route, hroute, rfl, hmanaged, hunwanted⟩
      exact ⟨_, (mem_remove_iff hallowed htable).mpr ⟨route, hroute, rfl, hmanaged, hunwanted⟩,
        networkOf_cidr route.network⟩
  rw [mem_executePlan, hremoved]
  constructor
  case mp =>
    rintro ⟨hroute | ⟨hroute, -⟩, hkept⟩
    · exact .inr (hadded.mp hroute)
    · exact .inl ⟨hroute, fun ⟨hmanaged, hunwanted⟩ =>
        hkept ⟨hmanaged.1, route, hroute, rfl, hmanaged, hunwanted⟩⟩
  case mpr =>
    rintro (⟨hroute, hkept⟩ | hnew)
    · refine ⟨.inr ⟨hroute, fun added hmem hslot => ?_⟩, ?_⟩
      · obtain ⟨⟨network, rfl⟩, -, hmissing⟩ := hadded.mp hmem
        exact hmissing ⟨route, hroute, congrArg Prod.snd hslot, congrArg Prod.fst hslot⟩
      · rintro ⟨hdev, other, hother, hnetwork, hmanaged, hunwanted⟩
        obtain rfl := hone other hother route hroute hmanaged.1 hdev hnetwork
        exact hkept ⟨hmanaged, hunwanted⟩
    · refine ⟨.inl (hadded.mpr hnew), ?_⟩
      rintro ⟨-, -, -, -, -, hunwanted⟩
      exact hunwanted hnew.2.1

/-- Other interfaces' routes are the same after the plan, so what they route is too. -/
theorem wanted_execute (hallowed : Allowed desired) (hone : OneEntry routes)
    (htable : TableOutput routes stdout4 stdout6) (network : Network) :
    Wanted desired (executePlan (planOf desired stdout4 stdout6) routes) network ↔
      Wanted desired routes network := by
  refine and_congr_right fun _ => not_congr ⟨?_, ?_⟩
  · rintro ⟨other, hother, hplain, hdev, hconflict⟩
    rcases (mem_execute_iff hallowed hone htable).mp hother with ⟨hroute, -⟩ | ⟨⟨added, rfl⟩, -⟩
    · exact ⟨other, hroute, hplain, hdev, hconflict⟩
    · exact absurd rfl hdev
  · rintro ⟨other, hother, hplain, hdev, hconflict⟩
    exact ⟨other, (mem_execute_iff hallowed hone htable).mpr (.inl ⟨hother, fun hmanaged =>
      hdev hmanaged.1.1⟩), hplain, hdev, hconflict⟩

/-- What executing the plan for `tp0` comes to. -/
structure Tp0Reconciled (desired : List FabricRoute) (routes routes' : List KernelRoute) : Prop where
  /-- The interface carries the wanted networks and what is not managed. -/
  device : ∀ network : Network,
    (∃ route ∈ routes', route.dev = some fabricInterfaceName ∧ route.network = network) ↔
      Wanted desired routes network ∨ ∃ route ∈ routes, route.dev = some fabricInterfaceName ∧
        ¬Managed route ∧ route.network = network
  /-- Only managed routes are removed, none of which the kernel made. -/
  removed : ∀ route ∈ routes, route ∉ routes' → Managed route ∧ route.kernel = false
  added : ∀ route ∈ routes', route ∉ routes → route.dev = some fabricInterfaceName
  /-- The next plan is empty. -/
  settled : ∀ stdout4 stdout6, TableOutput routes' stdout4 stdout6 →
    fabricRoutePlanIsEmpty (planFabricRoutes desired (readTable stdout4 stdout6)) = true

/-- The plan for `tp0` reaches what is wanted and settles. -/
theorem tp0Reconciled (hallowed : Allowed desired) (hone : OneEntry routes)
    (htable : TableOutput routes stdout4 stdout6) :
    Tp0Reconciled desired routes (executePlan (planOf desired stdout4 stdout6) routes) where
  device network := by
    constructor
    case mp =>
      rintro ⟨route, hroute, hdev, rfl⟩
      rcases (mem_execute_iff hallowed hone htable).mp hroute with ⟨hroute, hkept⟩ | ⟨-, hwanted, -⟩
      · by_cases hwanted : Wanted desired routes route.network
        · exact .inl hwanted
        · exact .inr ⟨route, hroute, hdev, fun hmanaged => hkept ⟨hmanaged, hwanted⟩, rfl⟩
      · exact .inl hwanted
    case mpr =>
      rintro (hwanted | ⟨route, hroute, hdev, hmanaged, rfl⟩)
      · by_cases hpresent : ∃ other ∈ routes, other.dev = some fabricInterfaceName ∧
            other.network = network
        · obtain ⟨other, hother, hdev, rfl⟩ := hpresent
          exact ⟨other, (mem_execute_iff hallowed hone htable).mpr (.inl ⟨hother, fun hstale =>
            hstale.2 hwanted⟩), hdev, rfl⟩
        · exact ⟨addedRoute fabricInterfaceName none network,
            (mem_execute_iff hallowed hone htable).mpr (.inr ⟨⟨network, rfl⟩, hwanted, hpresent⟩),
            rfl, rfl⟩
      · exact ⟨route, (mem_execute_iff hallowed hone htable).mpr (.inl ⟨hroute, fun hstale =>
          hmanaged hstale.1⟩), hdev, rfl⟩
  removed route hroute hgone := by
    have hmanaged : Managed route := by
      by_contra hmanaged
      exact hgone ((mem_execute_iff hallowed hone htable).mpr (.inl ⟨hroute, fun hstale =>
        hmanaged hstale.1⟩))
    exact ⟨hmanaged, hmanaged.not_kernel⟩
  added route hroute hnew := by
    rcases (mem_execute_iff hallowed hone htable).mp hroute with ⟨hold, -⟩ | ⟨⟨network, rfl⟩, -⟩
    · exact absurd hold hnew
    · rfl
  settled stdout4' stdout6' htable' := by
    have hadd : (planOf desired stdout4' stdout6').add = [] := by
      rw [List.eq_nil_iff_forall_not_mem]
      intro cidr hcidr
      obtain ⟨network, -, hwanted, hmissing⟩ := (mem_add_iff hallowed htable').mp hcidr
      have hwanted' := (wanted_execute hallowed hone htable network).mp hwanted
      by_cases hpresent : ∃ other ∈ routes, other.dev = some fabricInterfaceName ∧
          other.network = network
      · obtain ⟨other, hother, hdev, rfl⟩ := hpresent
        exact hmissing ⟨other, (mem_execute_iff hallowed hone htable).mpr (.inl ⟨hother,
          fun hstale => hstale.2 hwanted'⟩), hdev, rfl⟩
      · exact hmissing ⟨addedRoute fabricInterfaceName none network,
          (mem_execute_iff hallowed hone htable).mpr (.inr ⟨⟨network, rfl⟩, hwanted', hpresent⟩),
          rfl, rfl⟩
    have hremove : (planOf desired stdout4' stdout6').remove = [] := by
      rw [List.eq_nil_iff_forall_not_mem]
      intro cidr hcidr
      obtain ⟨route, hroute, -, hmanaged, hunwanted⟩ := (mem_remove_iff hallowed htable').mp hcidr
      rw [wanted_execute hallowed hone htable] at hunwanted
      rcases (mem_execute_iff hallowed hone htable).mp hroute with ⟨-, hkept⟩ | ⟨-, hwanted, -⟩
      · exact hkept ⟨hmanaged, hunwanted⟩
      · exact hunwanted hwanted
    rw [← planOf, fabricRoutePlanIsEmpty, hadd, hremove]
    rfl

end

end Turbopaneld.Fabric
