/-
# The plan for a shared network settles

Executing the plan removes recorded routes only, leaves in place what it records, and the next plan
changes nothing.  The accepted ranges are disjoint, so no two of them ask for one network, and a
route with a next hop is no connected network, so the interface found for a next hop stays.
-/

import Turbopaneld.Fabric.LanRoutes
import Turbopaneld.Fabric.RoutePlans

namespace Turbopaneld.Fabric

open Firewall JavaScript Sequences

/-! ## Accepted ranges -/

/-- Equal networks overlap. -/
theorem rangesOverlap_of_networkOf {a b : String} {network : Network}
    (ha : networkOf a = some network) (hb : networkOf b = some network) :
    rangesOverlap a b = true := by
  have hparsed : ∀ {value : String}, networkOf value = some network →
      parseCidrLiteral value = some network.parsed := by
    intro value h
    rw [networkOf, Option.pmap_eq_some_iff] at h
    obtain ⟨parsed, -, hparsed, rfl⟩ := h
    exact (parseCidrLiteral_trim value).symm.trans hparsed
  rw [rangesOverlap, Bool.or_eq_true]
  left
  rw [cidrLiteralContains_iff (hparsed ha) (hparsed hb)]
  exact ⟨rfl, le_rfl, le_rfl⟩

/-- What `lanRouteProblem` lets through. -/
theorem of_lanRouteProblem {route : LanRoute} {index : ℕ} {payload : LanPolicyPayload}
    (h : lanRouteProblem route index payload = none) :
    fabricRangeProblem route.cidr = none ∧
      overlapsEarlierLanRoute route.cidr index payload.lanRoutes = none := by
  unfold lanRouteProblem at h
  generalize hproblem : fabricRangeProblem route.cidr = problem at h
  generalize hclash : overlapsEarlierLanRoute route.cidr index payload.lanRoutes = clash at h
  cases problem with
  | some problem => cases h
  | none =>
    refine ⟨rfl, ?_⟩
    dsimp only at h
    split at h
    case isTrue => cases h
    case isFalse =>
      split at h
      case isTrue => cases h
      case isFalse =>
        cases clash with
        | none => rfl
        | some clash =>
          dsimp only at h
          split at h
          case isTrue hempty =>
            rw [overlapsEarlierLanRoute] at hclash
            have hoverlap := List.find?_some hclash
            rw [hempty, not_rangesOverlap_empty] at hoverlap
            cases hoverlap
          case isFalse => cases h

section

variable {payload : LanPolicyPayload}

theorem lanRouteProblem_eq_none (h : fabricLanRoutesPolicyError payload = none) {i : ℕ}
    {route : LanRoute} (hi : payload.lanRoutes[i]? = some route) :
    lanRouteProblem route i payload = none := by
  rw [fabricLanRoutesPolicyError] at h
  exact Option.map_eq_none_iff.mp
    (List.findSome?_eq_none_iff.mp h (route, i) (List.mem_zipIdx_iff_getElem?.mpr hi))

/-- No two entries ask for one network. -/
theorem lanRoute_unique (h : fabricLanRoutesPolicyError payload = none) {a b : LanRoute}
    (ha : a ∈ payload.lanRoutes) (hb : b ∈ payload.lanRoutes) {network : Network}
    (haNetwork : networkOf a.cidr = some network) (hbNetwork : networkOf b.cidr = some network) :
    a = b := by
  have hearlier : ∀ {i j : ℕ} {a b : LanRoute}, i < j → payload.lanRoutes[i]? = some a →
      payload.lanRoutes[j]? = some b → networkOf a.cidr = some network →
      networkOf b.cidr = some network → False := by
    intro i j a b hlt hi hj haNetwork hbNetwork
    obtain ⟨-, hclash⟩ := of_lanRouteProblem (lanRouteProblem_eq_none h hj)
    rw [overlapsEarlierLanRoute] at hclash
    have hmem : a.cidr ∈ (payload.lanRoutes.take j).map (·.cidr) :=
      List.mem_map.mpr ⟨a, List.mem_of_getElem? ((List.getElem?_take_of_lt hlt).trans hi), rfl⟩
    exact List.find?_eq_none.mp hclash a.cidr hmem (rangesOverlap_of_networkOf hbNetwork haNetwork)
  obtain ⟨i, hi⟩ := List.mem_iff_getElem?.mp ha
  obtain ⟨j, hj⟩ := List.mem_iff_getElem?.mp hb
  rcases lt_trichotomy i j with hlt | rfl | hlt
  · exact (hearlier hlt hi hj haNetwork hbNetwork).elim
  · exact Option.some.inj (hi.symm.trans hj)
  · exact (hearlier hlt hj hi hbNetwork haNetwork).elim

/-- An accepted range is not that of every address. -/
theorem lanRoute_length_ne (h : fabricLanRoutesPolicyError payload = none) {wanted : LanRoute}
    (hwanted : wanted ∈ payload.lanRoutes) {network : Network}
    (hnetwork : networkOf wanted.cidr = some network) : network.parsed.prefixLength ≠ 0 := by
  obtain ⟨i, hi⟩ := List.mem_iff_getElem?.mp hwanted
  obtain ⟨hproblem, -⟩ := of_lanRouteProblem (lanRouteProblem_eq_none h hi)
  have hroute : fabricRoute wanted.cidr = some network.route := by
    rw [fabricRoute_eq_networkOf, hnetwork, Option.map_some]
  have hallowed : Allowed [network.route] := by
    rw [Allowed, List.forall_mem_singleton]
    exact ⟨wanted.cidr, hroute, hproblem⟩
  exact hallowed.length_ne List.mem_cons_self

end

/-! ## The steps of the plan -/

/-- What the loop has put into the plan. -/
theorem foldl_recordPlacement (place : LanRoute → Except String (InstalledLanRoute × Bool))
    (desired : List LanRoute) (state : LanRoutePlan × List RouteKey) :
    (∀ e, e ∈ (desired.foldl (fun state wanted => recordPlacement state wanted (place wanted))
        state).1.add ↔
      e ∈ state.1.add ∨ ∃ wanted ∈ desired, place wanted = .ok (e, false)) ∧
    (∀ e, e ∈ (desired.foldl (fun state wanted => recordPlacement state wanted (place wanted))
        state).1.keep ↔
      e ∈ state.1.keep ∨ ∃ wanted ∈ desired, place wanted = .ok (e, true)) ∧
    (∀ key, key ∈ (desired.foldl (fun state wanted => recordPlacement state wanted (place wanted))
        state).2 ↔
      key ∈ state.2 ∨ ∃ wanted ∈ desired, ∃ e present, place wanted = .ok (e, present) ∧
        (fabricRoute e.cidr).map (·.key) = some key) := by
  induction desired generalizing state with
  | nil => simp
  | cons wanted desired ih =>
    rw [List.foldl_cons]
    have hrest := ih (recordPlacement state wanted (place wanted))
    cases hplace : place wanted with
    | error reason =>
      rw [hplace] at hrest
      refine ⟨fun e => ?_, fun e => ?_, fun key => ?_⟩
      · rw [hrest.1 e]
        simp [recordPlacement, hplace]
      · rw [hrest.2.1 e]
        simp [recordPlacement, hplace]
      · rw [hrest.2.2 key]
        simp [recordPlacement, hplace]
    | ok placed =>
      obtain ⟨route, present⟩ := placed
      rw [hplace] at hrest
      refine ⟨fun e => ?_, fun e => ?_, fun key => ?_⟩
      · rw [hrest.1 e]
        cases present with
        | true => simp [recordPlacement, hplace]
        | false => simp [recordPlacement, hplace, or_assoc, eq_comm]
      · rw [hrest.2.1 e]
        cases present with
        | true => simp [recordPlacement, hplace, or_assoc, eq_comm]
        | false => simp [recordPlacement, hplace]
      · rw [hrest.2.2 key, recordPlacement, List.mem_append, Option.mem_toList, or_assoc]
        apply or_congr_right
        constructor
        · rintro (hkey | ⟨other, hother, hmore⟩)
          · exact ⟨wanted, List.mem_cons_self, route, present, hplace, hkey⟩
          · exact ⟨other, List.mem_cons_of_mem _ hother, hmore⟩
        · rintro ⟨other, hother, e, found, hfound, hkey⟩
          rcases List.mem_cons.mp hother with rfl | hother
          · obtain ⟨rfl, rfl⟩ := Prod.mk.inj (Except.ok.inj (hplace.symm.trans hfound))
            exact .inl hkey
          · exact .inr ⟨other, hother, e, found, hfound, hkey⟩

section

variable (input : PlanInput)

theorem mem_planLanRoutes_add {e : InstalledLanRoute} : e ∈ (planLanRoutes input).add ↔
    ∃ wanted ∈ input.desired, placeLanRoute wanted input = .ok (e, false) := by
  have h := (foldl_recordPlacement (placeLanRoute · input) input.desired (⟨[], [], [], []⟩, [])).1 e
  rw [List.mem_nil_iff, false_or] at h
  exact h

theorem mem_planLanRoutes_keep {e : InstalledLanRoute} : e ∈ (planLanRoutes input).keep ↔
    ∃ wanted ∈ input.desired, placeLanRoute wanted input = .ok (e, true) := by
  have h := (foldl_recordPlacement (placeLanRoute · input) input.desired (⟨[], [], [], []⟩, [])).2.1 e
  rw [List.mem_nil_iff, false_or] at h
  exact h

theorem mem_installedAfter {e : InstalledLanRoute} :
    e ∈ installedAfter (planLanRoutes input) ↔
      ∃ wanted ∈ input.desired, ∃ present, placeLanRoute wanted input = .ok (e, present) := by
  rw [installedAfter, List.mem_append, mem_planLanRoutes_keep, mem_planLanRoutes_add]
  constructor
  case mp =>
    rintro (⟨wanted, hwanted, hplace⟩ | ⟨wanted, hwanted, hplace⟩)
    · exact ⟨wanted, hwanted, true, hplace⟩
    · exact ⟨wanted, hwanted, false, hplace⟩
  case mpr =>
    rintro ⟨wanted, hwanted, present, hplace⟩
    cases present with
    | true => exact .inl ⟨wanted, hwanted, hplace⟩
    | false => exact .inr ⟨wanted, hwanted, hplace⟩

end

/-- What a placed route is. -/
structure Places (input : PlanInput) (wanted : LanRoute) (e : InstalledLanRoute)
    (network : Network) : Prop where
  network_eq : networkOf wanted.cidr = some network
  version_eq : network.version = .four
  cidr_eq : e.cidr = network.route.cidr
  via_eq : e.via = wanted.via
  host : (hostRange wanted.via).map (·.parsed.version) = some .four
  bridge : overlappingBridge network.route input.bridgeSubnets = none
  dev : connectedDevFor wanted.via input.table input.bridgeSubnets = some e.dev

theorem placeLanRoute_eq_ok_iff {input : PlanInput} {wanted : LanRoute} {e : InstalledLanRoute}
    {present : Bool} : placeLanRoute wanted input = .ok (e, present) ↔
      ∃ network, Places input wanted e network ∧
        present = input.table.any (isExactly · network.route wanted.via e.dev) ∧
        (routedElsewhere network.route input.table input.installed = none ∨ present = true) := by
  unfold placeLanRoute
  rw [fabricRoute_eq_networkOf]
  generalize hnetwork : networkOf wanted.cidr = found
  have hcases : (found.map Network.route).filter (·.parsed.version = .four) =
      (found.filter (·.version = .four)).map Network.route := by
    cases found with
    | none => rfl
    | some network =>
      show (if decide (network.version = .four) = true then some network.route else none) =
        Option.map Network.route (if decide (network.version = .four) = true then some network
          else none)
      split <;> rfl
  rw [hcases]
  constructor
  case mp =>
    intro h
    cases hfour : found.filter (·.version = .four) with
    | none =>
      rw [hfour] at h
      cases h
    | some network =>
      obtain ⟨hfound, hversion⟩ := Option.filter_eq_some_iff.mp hfour
      rw [hfour] at h
      dsimp only [Option.map_some] at h
      split at h
      case isTrue => cases h
      case isFalse hhost =>
        cases hbridge : overlappingBridge network.route input.bridgeSubnets with
        | some bridge =>
          rw [hbridge] at h
          cases h
        | none =>
          rw [hbridge] at h
          cases hdev : connectedDevFor wanted.via input.table input.bridgeSubnets with
          | none =>
            rw [hdev] at h
            cases h
          | some dev =>
            rw [hdev] at h
            cases hconflict : routedElsewhere network.route input.table input.installed with
            | none =>
              rw [hconflict] at h
              obtain ⟨rfl, rfl⟩ := Prod.mk.inj (Except.ok.inj h)
              exact ⟨network, ⟨hfound ▸ hnetwork, of_decide_eq_true hversion, rfl, rfl,
                not_not.mp hhost, hbridge, hdev⟩, rfl, .inl hconflict⟩
            | some conflict =>
              rw [hconflict] at h
              dsimp only at h
              split at h
              case isFalse => cases h
              case isTrue hexactly =>
                obtain ⟨rfl, rfl⟩ := Prod.mk.inj (Except.ok.inj h)
                exact ⟨network, ⟨hfound ▸ hnetwork, of_decide_eq_true hversion, rfl, rfl,
                  not_not.mp hhost, hbridge, hdev⟩, rfl, .inr hexactly⟩
  case mpr =>
    rintro ⟨network, hplaces, rfl, hfree⟩
    obtain rfl := hnetwork.symm.trans hplaces.network_eq
    obtain ⟨cidr, via, dev⟩ := e
    obtain ⟨-, hversion, rfl, rfl, hhost, hbridge, hdev⟩ := hplaces
    rw [Option.filter_some, if_pos (decide_eq_true hversion), Option.map_some]
    dsimp only at hdev hfree ⊢
    rw [if_neg (not_not.mpr hhost), hbridge]
    dsimp only
    rw [hdev]
    dsimp only
    cases hconflict : routedElsewhere network.route input.table input.installed with
    | none => rfl
    | some conflict =>
      dsimp only
      rw [hconflict] at hfree
      rw [if_pos (hfree.resolve_left nofun)]

/-! ## The plan in terms of the table -/

/-- The route is the one that the entry records. -/
structure InstalledLanRoute.At (e : InstalledLanRoute) (route : KernelRoute) : Prop where
  network : networkOf e.cidr = some route.network
  dev : route.dev = some e.dev
  via : route.via.any (sameAddress · e.via) = true

/-- A route with a next hop is no connected network. -/
theorem InstalledLanRoute.At.not_connected {e : InstalledLanRoute} {route : KernelRoute}
    (h : e.At route) : route.connected = false := by
  have hvia := h.via
  rw [KernelRoute.connected]
  cases hnext : route.via with
  | none =>
    rw [hnext] at hvia
    cases hvia
  | some via => simp

theorem isExactly_iff {route : KernelRoute} {network : Network} {via dev : String} :
    isExactly route.observed network.route via dev = true ↔
      route.network = network ∧ route.dev = some dev ∧
        route.via.any (sameAddress · via) = true := by
  rw [isExactly, Bool.and_eq_true, Bool.and_eq_true, decide_eq_true_eq, decide_eq_true_eq, and_assoc]
  exact and_congr_left fun _ => ⟨fun h => Network.key_injective h, fun h => h ▸ rfl⟩

theorem exactly_iff_at {route : KernelRoute} {e : InstalledLanRoute} {network : Network}
    (hnetwork : networkOf e.cidr = some network) :
    isExactly route.observed network.route e.via e.dev = true ↔ e.At route := by
  rw [isExactly_iff]
  constructor
  case mp => exact fun ⟨heq, hdev, hvia⟩ => ⟨heq ▸ hnetwork, hdev, hvia⟩
  case mpr => exact fun h => ⟨Option.some.inj (h.network.symm.trans hnetwork), h.dev, h.via⟩

theorem wasInstalled_iff {route : KernelRoute} {installed : List InstalledLanRoute} :
    wasInstalled route.observed installed = true ↔ ∃ e ∈ installed, e.At route := by
  rw [wasInstalled, List.any_eq_true]
  apply exists_congr
  intro e
  apply and_congr_right
  intro _
  rw [fabricRoute_eq_networkOf]
  generalize hnetwork : networkOf e.cidr = found
  cases found with
  | none => exact ⟨nofun, fun h => by rw [h.network] at hnetwork; cases hnetwork⟩
  | some network => exact exactly_iff_at hnetwork

/-- An entry as the daemon writes it: an IPv4 network in canonical form, and an address. -/
def Recorded (e : InstalledLanRoute) : Prop :=
  ∃ network : Network, network.version = .four ∧ network.parsed.prefixLength ≠ 0 ∧
    e.cidr = network.route.cidr ∧ (hostRange e.via).isSome = true

/-- What can be seen of the IPv4 table. -/
def Seen (routes : List KernelRoute) (route : KernelRoute) : Prop :=
  route ∈ routes ∧ route.network.version = .four ∧ route.isDefault = false

theorem mem_parseRouteShow {routes : List KernelRoute} {stdout4 : String}
    (h : Output .four routes stdout4) {observed : ObservedRoute} :
    observed ∈ parseRouteShow stdout4 .four ↔
      ∃ route, Seen routes route ∧ route.observed = observed := by
  rw [parseRouteShow_of_output h]
  simp only [List.mem_map, List.mem_filter, decide_eq_true_eq, Bool.not_eq_true', Seen, and_assoc]

theorem Recorded.seen {e : InstalledLanRoute} (h : Recorded e) {routes : List KernelRoute}
    {route : KernelRoute} (hroute : route ∈ routes) (hat : e.At route) : Seen routes route := by
  obtain ⟨network, hversion, hlength, hcidr, -⟩ := h
  have hnetwork := hat.network
  rw [hcidr, networkOf_cidr] at hnetwork
  obtain rfl := Option.some.inj hnetwork
  exact ⟨hroute, hversion, decide_eq_false hlength⟩

section

variable {payload : LanPolicyPayload} {bridgeSubnets : List String}
  {installed : List InstalledLanRoute} {routes : List KernelRoute} {stdout4 : String}

/-- What the plan is made from. -/
def inputOf (payload : LanPolicyPayload) (bridgeSubnets : List String)
    (installed : List InstalledLanRoute) (stdout4 : String) : PlanInput :=
  { desired := payload.lanRoutes, table := parseRouteShow stdout4 .four, bridgeSubnets, installed }

/-- A table that is not read makes no difference: there is nothing to do. -/
theorem planHostLanRoutes_eq : planHostLanRoutes payload.lanRoutes installed bridgeSubnets stdout4 =
    planLanRoutes (inputOf payload bridgeSubnets installed stdout4) := by
  rw [planHostLanRoutes, inputOf]
  cases hdesired : payload.lanRoutes with
  | cons wanted desired => simp
  | nil =>
    cases installed with
    | cons e installed => simp
    | nil => simp [planLanRoutes, placements, staleInstalledRoutes]

theorem Places.networkOf_cidr {input : PlanInput} {wanted : LanRoute} {e : InstalledLanRoute}
    {network : Network} (h : Places input wanted e network) : networkOf e.cidr = some network := by
  rw [h.cidr_eq, Fabric.networkOf_cidr]

/-- What is recorded afterwards is as the daemon writes it. -/
theorem recorded_installedAfter (hpolicy : fabricLanRoutesPolicyError payload = none) :
    ∀ e ∈ installedAfter (planLanRoutes (inputOf payload bridgeSubnets installed stdout4)),
      Recorded e := by
  intro e he
  obtain ⟨wanted, hwanted, present, hplace⟩ := (mem_installedAfter _).mp he
  obtain ⟨network, hplaces, -⟩ := placeLanRoute_eq_ok_iff.mp hplace
  refine ⟨network, hplaces.version_eq, lanRoute_length_ne hpolicy hwanted hplaces.network_eq,
    hplaces.cidr_eq, ?_⟩
  rw [hplaces.via_eq]
  obtain ⟨host, hhost, -⟩ := Option.map_eq_some_iff.mp hplaces.host
  rw [hhost, Option.isSome_some]

/-- The networks that are recorded are those of the entries that were placed. -/
theorem exists_installedAfter_iff {network : Network} :
    (∃ e ∈ installedAfter (planLanRoutes (inputOf payload bridgeSubnets installed stdout4)),
      networkOf e.cidr = some network) ↔
    ∃ wanted ∈ payload.lanRoutes, networkOf wanted.cidr = some network ∧
      ∃ placed, placeLanRoute wanted (inputOf payload bridgeSubnets installed stdout4) =
        .ok placed := by
  constructor
  case mp =>
    rintro ⟨e, he, hnetwork⟩
    obtain ⟨wanted, hwanted, present, hplace⟩ := (mem_installedAfter _).mp he
    obtain ⟨other, hplaces, -⟩ := placeLanRoute_eq_ok_iff.mp hplace
    rw [hplaces.networkOf_cidr] at hnetwork
    exact ⟨wanted, hwanted, hplaces.network_eq.trans hnetwork, _, hplace⟩
  case mpr =>
    rintro ⟨wanted, hwanted, hnetwork, ⟨e, present⟩, hplace⟩
    obtain ⟨other, hplaces, -⟩ := placeLanRoute_eq_ok_iff.mp hplace
    refine ⟨e, (mem_installedAfter _).mpr ⟨wanted, hwanted, present, hplace⟩, ?_⟩
    rw [hplaces.networkOf_cidr, ← hplaces.network_eq, hnetwork]

theorem mem_planLanRoutes_remove (htable : Output .four routes stdout4) {e : InstalledLanRoute} :
    e ∈ (planLanRoutes (inputOf payload bridgeSubnets installed stdout4)).remove ↔
      e ∈ installed ∧ (∃ route, Seen routes route ∧ e.At route) ∧
        ¬∃ other ∈ installedAfter (planLanRoutes (inputOf payload bridgeSubnets installed stdout4)),
          networkOf other.cidr = networkOf e.cidr := by
  have hplaced : ∀ network : Network,
      network.key ∈ (placements (inputOf payload bridgeSubnets installed stdout4)).2 ↔
        ∃ other ∈ installedAfter (planLanRoutes (inputOf payload bridgeSubnets installed stdout4)),
          networkOf other.cidr = some network := by
    have hkeys := (foldl_recordPlacement
      (placeLanRoute · (inputOf payload bridgeSubnets installed stdout4)) payload.lanRoutes
      (⟨[], [], [], []⟩, [])).2.2
    intro network
    rw [placements, inputOf]
    dsimp only
    rw [← inputOf, hkeys, List.mem_nil_iff, false_or]
    constructor
    case mp =>
      rintro ⟨wanted, hwanted, other, present, hplace, hkey⟩
      obtain ⟨found, hplaces, -⟩ := placeLanRoute_eq_ok_iff.mp hplace
      refine ⟨other, (mem_installedAfter _).mpr ⟨wanted, hwanted, present, hplace⟩, ?_⟩
      rw [fabricRoute_eq_networkOf, hplaces.networkOf_cidr, Option.map_some, Option.map_some] at hkey
      rw [hplaces.networkOf_cidr, Network.key_injective (Option.some.inj hkey)]
    case mpr =>
      rintro ⟨other, hother, hnetwork⟩
      obtain ⟨wanted, hwanted, present, hplace⟩ := (mem_installedAfter _).mp hother
      refine ⟨wanted, hwanted, other, present, hplace, ?_⟩
      rw [fabricRoute_eq_networkOf, hnetwork, Option.map_some, Option.map_some]
      rfl
  rw [planLanRoutes, staleInstalledRoutes, List.mem_filter]
  apply and_congr_right
  intro _
  rw [fabricRoute_eq_networkOf]
  generalize hnetwork : networkOf e.cidr = found
  cases found with
  | none =>
    refine ⟨nofun, ?_⟩
    rintro ⟨⟨route, -, hat⟩, -⟩
    rw [hat.network] at hnetwork
    cases hnetwork
  | some network =>
    dsimp only [Option.map_some]
    rw [Bool.and_eq_true, Bool.not_eq_true', ← Bool.not_eq_true, List.contains_iff_mem, and_comm]
    refine and_congr ?_ (not_congr (hplaced network))
    rw [List.any_eq_true]
    constructor
    case mp =>
      rintro ⟨observed, hobserved, hexactly⟩
      obtain ⟨route, hseen, rfl⟩ := (mem_parseRouteShow htable).mp hobserved
      exact ⟨route, hseen, (exactly_iff_at hnetwork).mp hexactly⟩
    case mpr =>
      rintro ⟨route, hseen, hat⟩
      exact ⟨route.observed, (mem_parseRouteShow htable).mpr ⟨route, hseen, rfl⟩,
        (exactly_iff_at hnetwork).mpr hat⟩

theorem routedElsewhere_eq_none_iff (htable : Output .four routes stdout4) {network : Network} :
    routedElsewhere network.route (parseRouteShow stdout4 .four) installed = none ↔
      ∀ route, Seen routes route →
        ¬(route.connected = true ∧ rangesShare network.parsed route.network.parsed = true) ∧
        (route.network = network → ∃ e ∈ installed, e.At route) := by
  rw [routedElsewhere, List.findSome?_eq_none_iff]
  constructor
  case mp =>
    intro hall route hseen
    have hfree := hall route.observed ((mem_parseRouteShow htable).mpr ⟨route, hseen, rfl⟩)
    have hno := (ite_eq_right_iff.mp hfree)
    rw [Bool.or_eq_true, Bool.and_eq_true, Bool.and_eq_true, decide_eq_true_eq,
      Bool.not_eq_true'] at hno
    constructor
    case left => exact fun hshare => absurd (hno (.inl hshare)) nofun
    case right =>
      rintro rfl
      by_contra hforeign
      rw [← wasInstalled_iff, Bool.not_eq_true] at hforeign
      exact absurd (hno (.inr ⟨rfl, hforeign⟩)) nofun
  case mpr =>
    intro hall observed hobserved
    obtain ⟨route, hseen, rfl⟩ := (mem_parseRouteShow htable).mp hobserved
    obtain ⟨hapart, hours⟩ := hall route hseen
    rw [if_neg]
    rw [Bool.or_eq_true, Bool.and_eq_true, Bool.and_eq_true, decide_eq_true_eq,
      Bool.not_eq_true']
    rintro (hshare | ⟨hkey, hforeign⟩)
    · exact hapart hshare
    · rw [wasInstalled_iff.mpr (hours (Network.key_injective hkey))] at hforeign
      cases hforeign

/-! ## Execution -/

/-- The routes that the plan installs. -/
def addedLanRoutes (plan : LanRoutePlan) : List KernelRoute :=
  plan.add.filterMap fun e => (networkOf e.cidr).map (addedRoute e.dev (some e.via))

theorem mem_addedLanRoutes {route : KernelRoute} :
    route ∈ addedLanRoutes (planLanRoutes (inputOf payload bridgeSubnets installed stdout4)) ↔
      ∃ wanted ∈ payload.lanRoutes, ∃ e network,
        placeLanRoute wanted (inputOf payload bridgeSubnets installed stdout4) = .ok (e, false) ∧
          Places (inputOf payload bridgeSubnets installed stdout4) wanted e network ∧
          route = addedRoute e.dev (some e.via) network := by
  rw [addedLanRoutes, List.mem_filterMap]
  constructor
  case mp =>
    rintro ⟨e, he, hroute⟩
    obtain ⟨wanted, hwanted, hplace⟩ := (mem_planLanRoutes_add _).mp he
    obtain ⟨network, hplaces, -⟩ := placeLanRoute_eq_ok_iff.mp hplace
    rw [hplaces.networkOf_cidr, Option.map_some] at hroute
    exact ⟨wanted, hwanted, e, network, hplace, hplaces, (Option.some.inj hroute).symm⟩
  case mpr =>
    rintro ⟨wanted, hwanted, e, network, hplace, hplaces, rfl⟩
    refine ⟨e, (mem_planLanRoutes_add _).mpr ⟨wanted, hwanted, hplace⟩, ?_⟩
    rw [hplaces.networkOf_cidr, Option.map_some]

theorem sameAddress_self (address : String) : sameAddress address address = true := by
  rw [sameAddress]
  generalize (hostRange address).map (·.key) = key
  exact decide_eq_true rfl

theorem addedRoute_at {input : PlanInput} {wanted : LanRoute} {e : InstalledLanRoute}
    {network : Network} (h : Places input wanted e network) :
    e.At (addedRoute e.dev (some e.via) network) where
  network := h.networkOf_cidr
  dev := rfl
  via := by
    rw [show (addedRoute e.dev (some e.via) network).via = some e.via from rfl, Option.any_some]
    exact sameAddress_self e.via

/-- The routes that the plan takes away. -/
def Deleted (payload : LanPolicyPayload) (bridgeSubnets : List String)
    (installed : List InstalledLanRoute) (stdout4 : String) (route : KernelRoute) : Prop :=
  ∃ e ∈ (planLanRoutes (inputOf payload bridgeSubnets installed stdout4)).remove,
    e.At route ∧ (hostRange e.via).isSome = true

/-- The table in which the routes that nothing wants are gone. -/
theorem foldl_ipDeleteVia (entries : List InstalledLanRoute) (routes : List KernelRoute) :
    entries.foldl ipDeleteVia routes = routes.filter fun route => !entries.any fun entry =>
      decide (networkOf entry.cidr = some route.network) && decide (route.dev = some entry.dev) &&
        (hostRange entry.via).isSome && route.via.any (sameAddress · entry.via) :=
  foldl_filter (fun (entry : InstalledLanRoute) (route : KernelRoute) =>
    decide (networkOf entry.cidr = some route.network) && decide (route.dev = some entry.dev) &&
      (hostRange entry.via).isSome && route.via.any (sameAddress · entry.via)) entries routes

theorem any_deletes_iff {route : KernelRoute} :
    ((planLanRoutes (inputOf payload bridgeSubnets installed stdout4)).remove.any fun entry =>
      decide (networkOf entry.cidr = some route.network) && decide (route.dev = some entry.dev) &&
        (hostRange entry.via).isSome && route.via.any (sameAddress · entry.via)) = true ↔
      Deleted payload bridgeSubnets installed stdout4 route := by
  rw [List.any_eq_true]
  apply exists_congr
  intro e
  apply and_congr_right
  intro _
  rw [Bool.and_eq_true, Bool.and_eq_true, Bool.and_eq_true, decide_eq_true_eq, decide_eq_true_eq]
  constructor
  case mp => exact fun ⟨⟨⟨hnetwork, hdev⟩, hhost⟩, hvia⟩ => ⟨⟨hnetwork, hdev, hvia⟩, hhost⟩
  case mpr => exact fun ⟨hat, hhost⟩ => ⟨⟨⟨hat.network, hat.dev⟩, hhost⟩, hat.via⟩

/-- The table after the plan. -/
def lanRoutesAfter (payload : LanPolicyPayload) (bridgeSubnets : List String)
    (installed : List InstalledLanRoute) (stdout4 : String) (routes : List KernelRoute) :
    List KernelRoute :=
  executeLanPlan (planLanRoutes (inputOf payload bridgeSubnets installed stdout4)) routes

theorem executeLanPlan_eq : lanRoutesAfter payload bridgeSubnets installed stdout4 routes =
    (addedLanRoutes (planLanRoutes (inputOf payload bridgeSubnets installed stdout4))).foldl
      (put KernelRoute.slot)
      ((planLanRoutes (inputOf payload bridgeSubnets installed stdout4)).remove.foldl ipDeleteVia
        routes) :=
  foldl_putSome KernelRoute.slot (fun e : InstalledLanRoute =>
    (networkOf e.cidr).map (addedRoute e.dev (some e.via))) _ _

theorem mem_lanRoutesAfter (hpolicy : fabricLanRoutesPolicyError payload = none)
    {route : KernelRoute} :
    route ∈ lanRoutesAfter payload bridgeSubnets installed stdout4 routes ↔
      route ∈ addedLanRoutes (planLanRoutes (inputOf payload bridgeSubnets installed stdout4)) ∨
      ((route ∈ routes ∧ ¬Deleted payload bridgeSubnets installed stdout4 route) ∧
        ∀ added ∈ addedLanRoutes (planLanRoutes (inputOf payload bridgeSubnets installed stdout4)),
          route.slot ≠ added.slot) := by
  have hsame : ∀ a ∈ addedLanRoutes (planLanRoutes (inputOf payload bridgeSubnets installed stdout4)),
      ∀ b ∈ addedLanRoutes (planLanRoutes (inputOf payload bridgeSubnets installed stdout4)),
        a.slot = b.slot → a = b := by
    intro a ha b hb hslot
    obtain ⟨wanted, hwanted, e, network, hplace, hplaces, rfl⟩ := mem_addedLanRoutes.mp ha
    obtain ⟨wanted', hwanted', e', network', hplace', hplaces', rfl⟩ := mem_addedLanRoutes.mp hb
    have hnetwork : network = network' := congrArg Prod.fst hslot
    subst hnetwork
    obtain rfl := lanRoute_unique hpolicy hwanted hwanted' hplaces.network_eq hplaces'.network_eq
    obtain ⟨rfl, -⟩ := Prod.mk.inj (Except.ok.inj (hplace.symm.trans hplace'))
    rfl
  rw [executeLanPlan_eq, mem_foldl_put KernelRoute.slot hsame, foldl_ipDeleteVia, List.mem_filter,
    Bool.not_eq_true', ← Bool.not_eq_true, any_deletes_iff]

/-- A route that gives way to a new one is recorded, since nothing stood in the way. -/
theorem recorded_of_displaced (htable : Output .four routes stdout4)
    (hpolicy : fabricLanRoutesPolicyError payload = none) {route added : KernelRoute}
    (hroute : route ∈ routes)
    (hadded : added ∈ addedLanRoutes (planLanRoutes (inputOf payload bridgeSubnets installed stdout4)))
    (hnetwork : route.network = added.network) :
    (∃ e ∈ installed, e.At route) ∧ route.connected = false := by
  obtain ⟨wanted, hwanted, e, network, hplace, hplaces, rfl⟩ := mem_addedLanRoutes.mp hadded
  obtain ⟨found, hplaces', -, hfree⟩ := placeLanRoute_eq_ok_iff.mp hplace
  obtain rfl := Option.some.inj (hplaces.network_eq.symm.trans hplaces'.network_eq)
  have hfree := (routedElsewhere_eq_none_iff htable).mp (hfree.resolve_right nofun)
  obtain rfl : route.network = network := hnetwork
  have hseen : Seen routes route := ⟨hroute, hplaces.version_eq,
    decide_eq_false (lanRoute_length_ne hpolicy hwanted hplaces.network_eq)⟩
  obtain ⟨e', he', hat⟩ := (hfree route hseen).2 rfl
  exact ⟨⟨e', he', hat⟩, hat.not_connected⟩

/-- Connected networks stay, in their order. -/
theorem filter_connected_lanRoutesAfter (htable : Output .four routes stdout4)
    (hpolicy : fabricLanRoutesPolicyError payload = none) :
    (lanRoutesAfter payload bridgeSubnets installed stdout4 routes).filter (·.connected) =
      routes.filter (·.connected) := by
  have hdeleted : ((planLanRoutes (inputOf payload bridgeSubnets installed stdout4)).remove.foldl
      ipDeleteVia routes).filter (·.connected) = routes.filter (·.connected) := by
    rw [foldl_ipDeleteVia, List.filter_filter]
    apply List.filter_congr
    intro route _
    cases hconnected : route.connected with
    | false => rfl
    | true =>
      rw [Bool.true_and, Bool.not_eq_true', ← Bool.not_eq_true, any_deletes_iff]
      rintro ⟨e, -, hat, -⟩
      rw [hat.not_connected] at hconnected
      cases hconnected
  rw [executeLanPlan_eq, filter_foldl_put KernelRoute.slot ?new ?old, hdeleted]
  case new =>
    intro added hadded
    obtain ⟨_, -, e, network, -, hplaces, rfl⟩ := mem_addedLanRoutes.mp hadded
    exact (addedRoute_at hplaces).not_connected
  case old =>
    intro route hroute hconnected added hadded hslot
    rw [foldl_ipDeleteVia] at hroute
    obtain ⟨-, hnot⟩ := recorded_of_displaced htable hpolicy (List.mem_of_mem_filter hroute) hadded
      (congrArg Prod.fst hslot)
    rw [hnot] at hconnected
    cases hconnected

/-! ## The next plan -/

theorem foldl_betterRoute (host : FabricRoute) (bridgeKeys : List RouteKey)
    (table : List ObservedRoute) (best : Option ObservedRoute) :
    table.foldl (betterRoute host bridgeKeys) best =
      (table.filter (·.connected)).foldl (betterRoute host bridgeKeys) best := by
  induction table generalizing best with
  | nil => rfl
  | cons route table ih =>
    rw [List.foldl_cons, ih]
    cases hconnected : route.connected with
    | true => rw [List.filter_cons_of_pos hconnected, List.foldl_cons]
    | false =>
      have hsame : betterRoute host bridgeKeys best route = best := by
        rw [betterRoute, isUsableConnectedRoute, hconnected]
        rfl
      rw [hsame, List.filter_cons_of_neg (by rw [hconnected]; exact Bool.false_ne_true)]

/-- The interface of a next hop depends on the connected networks only. -/
theorem connectedDevFor_congr {table table' : List ObservedRoute}
    (h : table.filter (·.connected) = table'.filter (·.connected)) (via : String)
    (bridgeSubnets : List String) :
    connectedDevFor via table bridgeSubnets = connectedDevFor via table' bridgeSubnets := by
  unfold connectedDevFor
  generalize hostRange via = host
  cases host with
  | none => rfl
  | some host =>
    dsimp only
    rw [foldl_betterRoute host _ table, foldl_betterRoute host _ table', h]

theorem connectedDevFor_lanRoutesAfter (htable : Output .four routes stdout4)
    (hpolicy : fabricLanRoutesPolicyError payload = none) {stdout4' : String}
    (htable' : Output .four (lanRoutesAfter payload bridgeSubnets installed stdout4 routes) stdout4')
    (via : String) :
    connectedDevFor via (parseRouteShow stdout4' .four) bridgeSubnets =
      connectedDevFor via (parseRouteShow stdout4 .four) bridgeSubnets := by
  have hconnected : ∀ (routes : List KernelRoute) (stdout4 : String), Output .four routes stdout4 →
      (parseRouteShow stdout4 .four).filter (·.connected) =
        (((routes.filter (·.connected)).filter (·.network.version = .four)).filter
          (!·.isDefault)).map KernelRoute.observed := by
    intro routes stdout4 h
    rw [parseRouteShow_of_output h, List.filter_map, List.filter_filter, List.filter_filter,
      List.filter_filter, List.filter_filter]
    refine congrArg (List.map _) (List.filter_congr fun route _ => ?_)
    rw [Function.comp_apply, KernelRoute.observed_connected]
    cases route.connected <;> simp [Bool.and_comm]
  apply connectedDevFor_congr
  rw [hconnected _ _ htable', hconnected _ _ htable,
    filter_connected_lanRoutesAfter htable hpolicy]

end

end Turbopaneld.Fabric
