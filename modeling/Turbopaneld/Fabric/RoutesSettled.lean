/-
# Reconciled routes settle

What one reconcile of the shared-network routes comes to, and the two plans together.  A placed
route is found in place by the next plan, and a skipped one is skipped again, for nothing that stood
in its way was the daemon's to remove.
-/

import Turbopaneld.Fabric.LanPlans

namespace Turbopaneld.Fabric

open Firewall JavaScript Sequences

section

variable {payload : LanPolicyPayload} {bridgeSubnets : List String}
  {installed : List InstalledLanRoute} {routes : List KernelRoute} {stdout4 : String}

/-- What is recorded after the plan. -/
def recordAfter (payload : LanPolicyPayload) (bridgeSubnets : List String)
    (installed : List InstalledLanRoute) (stdout4 : String) : List InstalledLanRoute :=
  installedAfter (planLanRoutes (inputOf payload bridgeSubnets installed stdout4))

theorem any_isExactly_iff (htable : Output .four routes stdout4) {input : PlanInput}
    {wanted : LanRoute} {e : InstalledLanRoute} {network : Network}
    (h : Places input wanted e network) :
    (parseRouteShow stdout4 .four).any (isExactly · network.route wanted.via e.dev) = true ↔
      ∃ route, Seen routes route ∧ e.At route := by
  rw [List.any_eq_true, ← h.via_eq]
  constructor
  case mp =>
    rintro ⟨observed, hobserved, hexactly⟩
    obtain ⟨route, hseen, rfl⟩ := (mem_parseRouteShow htable).mp hobserved
    exact ⟨route, hseen, (exactly_iff_at h.networkOf_cidr).mp hexactly⟩
  case mpr =>
    rintro ⟨route, hseen, hat⟩
    exact ⟨route.observed, (mem_parseRouteShow htable).mpr ⟨route, hseen, rfl⟩,
      (exactly_iff_at h.networkOf_cidr).mpr hat⟩

/-- An accepted network can be seen in the table. -/
theorem seen_of_places (hpolicy : fabricLanRoutesPolicyError payload = none) {input : PlanInput}
    {wanted : LanRoute} (hwanted : wanted ∈ payload.lanRoutes) {e : InstalledLanRoute}
    {network : Network} (h : Places input wanted e network) {routes : List KernelRoute}
    {route : KernelRoute} (hroute : route ∈ routes) (hnetwork : route.network = network) :
    Seen routes route := by
  subst hnetwork
  exact ⟨hroute, h.version_eq, decide_eq_false (lanRoute_length_ne hpolicy hwanted h.network_eq)⟩

/-- A route is only installed for an entry that was placed and was not there. -/
theorem placed_of_added (hpolicy : fabricLanRoutesPolicyError payload = none) {wanted : LanRoute}
    (hwanted : wanted ∈ payload.lanRoutes) {network : Network}
    (hnetwork : networkOf wanted.cidr = some network) {added : KernelRoute}
    (hadded : added ∈ addedLanRoutes (planLanRoutes (inputOf payload bridgeSubnets installed stdout4)))
    (hsame : added.network = network) :
    ∃ e, placeLanRoute wanted (inputOf payload bridgeSubnets installed stdout4) =
      .ok (e, false) := by
  obtain ⟨other, hother, e, found, hplace, hplaces, rfl⟩ := mem_addedLanRoutes.mp hadded
  obtain rfl : found = network := hsame
  obtain rfl := lanRoute_unique hpolicy hwanted hother hnetwork hplaces.network_eq
  exact ⟨e, hplace⟩

/-- What is placed is in place after the plan. -/
theorem exists_at_after (hpolicy : fabricLanRoutesPolicyError payload = none)
    (htable : Output .four routes stdout4) {wanted : LanRoute}
    (hwanted : wanted ∈ payload.lanRoutes) {e : InstalledLanRoute} {present : Bool}
    (hplace : placeLanRoute wanted (inputOf payload bridgeSubnets installed stdout4) =
      .ok (e, present)) :
    ∃ route, Seen (lanRoutesAfter payload bridgeSubnets installed stdout4 routes) route ∧
      e.At route := by
  obtain ⟨network, hplaces, hpresent, -⟩ := placeLanRoute_eq_ok_iff.mp hplace
  cases present with
  | false =>
    have hmem := mem_addedLanRoutes.mpr ⟨wanted, hwanted, e, network, hplace, hplaces, rfl⟩
    exact ⟨_, seen_of_places hpolicy hwanted hplaces
      ((mem_lanRoutesAfter hpolicy).mpr (.inl hmem)) rfl, addedRoute_at hplaces⟩
  | true =>
    obtain ⟨route, hseen, hat⟩ := (any_isExactly_iff htable hplaces).mp hpresent.symm
    have hnetwork : route.network = network :=
      Option.some.inj (hat.network.symm.trans hplaces.networkOf_cidr)
    refine ⟨route, seen_of_places hpolicy hwanted hplaces ((mem_lanRoutesAfter hpolicy).mpr
      (.inr ⟨⟨hseen.1, ?kept⟩, ?stays⟩)) hnetwork, hat⟩
    case kept =>
      rintro ⟨stale, hstale, hatStale, -⟩
      obtain ⟨-, -, hunplaced⟩ := (mem_planLanRoutes_remove htable).mp hstale
      exact hunplaced ⟨e, (mem_installedAfter _).mpr ⟨wanted, hwanted, true, hplace⟩,
        hat.network.trans hatStale.network.symm⟩
    case stays =>
      intro added hadded hslot
      have hsame : added.network = network := (congrArg Prod.fst hslot).symm.trans hnetwork
      obtain ⟨e', hplace'⟩ := placed_of_added hpolicy hwanted hplaces.network_eq hadded hsame
      rw [hplace] at hplace'
      cases hplace'

section

variable {stdout4' : String}

/-- The places of an entry are the same in the next plan. -/
theorem places_after_iff (hpolicy : fabricLanRoutesPolicyError payload = none)
    (htable : Output .four routes stdout4)
    (htable' : Output .four (lanRoutesAfter payload bridgeSubnets installed stdout4 routes) stdout4')
    {record : List InstalledLanRoute} {wanted : LanRoute} {e : InstalledLanRoute}
    {network : Network} : Places (inputOf payload bridgeSubnets record stdout4') wanted e network ↔
      Places (inputOf payload bridgeSubnets installed stdout4) wanted e network := by
  have hdev := connectedDevFor_lanRoutesAfter htable hpolicy htable' wanted.via
  constructor
  case mp => exact fun h => { h with dev := hdev.symm.trans h.dev }
  case mpr => exact fun h => { h with dev := hdev.trans h.dev }

/-- What was placed is found by the next plan. -/
theorem place_after (hpolicy : fabricLanRoutesPolicyError payload = none)
    (htable : Output .four routes stdout4)
    (htable' : Output .four (lanRoutesAfter payload bridgeSubnets installed stdout4 routes) stdout4')
    {record : List InstalledLanRoute} {wanted : LanRoute} (hwanted : wanted ∈ payload.lanRoutes)
    {e : InstalledLanRoute} {present : Bool}
    (hplace : placeLanRoute wanted (inputOf payload bridgeSubnets installed stdout4) =
      .ok (e, present)) :
    placeLanRoute wanted (inputOf payload bridgeSubnets record stdout4') = .ok (e, true) := by
  obtain ⟨network, hplaces, -, -⟩ := placeLanRoute_eq_ok_iff.mp hplace
  have hthere := (any_isExactly_iff htable' hplaces).mpr
    (exists_at_after hpolicy htable hwanted hplace)
  exact placeLanRoute_eq_ok_iff.mpr ⟨network, (places_after_iff hpolicy htable htable').mpr hplaces,
    hthere.symm, .inr rfl⟩

/-- What was skipped is skipped by the next plan. -/
theorem place_before (hpolicy : fabricLanRoutesPolicyError payload = none)
    (htable : Output .four routes stdout4)
    (htable' : Output .four (lanRoutesAfter payload bridgeSubnets installed stdout4 routes) stdout4')
    {wanted : LanRoute} (hwanted : wanted ∈ payload.lanRoutes) {e : InstalledLanRoute}
    {present' : Bool}
    (hplace' : placeLanRoute wanted (inputOf payload bridgeSubnets
      (recordAfter payload bridgeSubnets installed stdout4) stdout4') = .ok (e, present')) :
    ∃ present, placeLanRoute wanted (inputOf payload bridgeSubnets installed stdout4) =
      .ok (e, present) := by
  by_contra hnone
  obtain ⟨network, hplaces', hpresent', hfree'⟩ := placeLanRoute_eq_ok_iff.mp hplace'
  have hplaces := (places_after_iff hpolicy htable htable').mp hplaces'
  have hunplaced : ∀ placed, placeLanRoute wanted
      (inputOf payload bridgeSubnets installed stdout4) ≠ .ok placed := by
    rintro ⟨other, present⟩ hplace
    obtain ⟨found, hother, -⟩ := placeLanRoute_eq_ok_iff.mp hplace
    obtain rfl := Option.some.inj (hplaces.network_eq.symm.trans hother.network_eq)
    have hsame : other = e := by
      obtain ⟨cidr, via, dev⟩ := other
      obtain ⟨cidr', via', dev'⟩ := e
      obtain rfl : cidr = cidr' := hother.cidr_eq.trans hplaces.cidr_eq.symm
      obtain rfl : via = via' := hother.via_eq.trans hplaces.via_eq.symm
      obtain rfl : dev = dev' := Option.some.inj (hother.dev.symm.trans hplaces.dev)
      rfl
    exact hnone ⟨present, hsame ▸ hplace⟩
  have hnotAdded : ∀ added ∈ addedLanRoutes (planLanRoutes
      (inputOf payload bridgeSubnets installed stdout4)), added.network ≠ network := by
    intro added hadded hsame
    obtain ⟨other, hplace⟩ := placed_of_added hpolicy hwanted hplaces.network_eq hadded hsame
    exact hunplaced _ hplace
  -- What stood in the way, or was missing, is still so.
  have hmissing : present' = false := by
    rw [← Bool.not_eq_true, hpresent', inputOf]
    dsimp only
    rw [any_isExactly_iff htable' hplaces]
    rintro ⟨route, hseen, hat⟩
    have hnetwork : route.network = network :=
      Option.some.inj (hat.network.symm.trans hplaces.networkOf_cidr)
    rcases (mem_lanRoutesAfter hpolicy).mp hseen.1 with hadded | ⟨⟨hroute, -⟩, -⟩
    · exact hnotAdded route hadded hnetwork
    · have hthere := (any_isExactly_iff htable hplaces).mpr
        ⟨route, seen_of_places hpolicy hwanted hplaces hroute hnetwork, hat⟩
      exact hunplaced _ (placeLanRoute_eq_ok_iff.mpr ⟨network, hplaces, hthere.symm, .inr rfl⟩)
  have hfree' := (routedElsewhere_eq_none_iff htable').mp
    (hfree'.resolve_right (by rw [hmissing]; exact Bool.false_ne_true))
  have hfree : routedElsewhere network.route (parseRouteShow stdout4 .four) installed = none := by
    rw [routedElsewhere_eq_none_iff htable]
    intro route hseen
    constructor
    case left =>
      rintro ⟨hconnected, hshare⟩
      have hstays : route ∈ lanRoutesAfter payload bridgeSubnets installed stdout4 routes := by
        have hmem : route ∈ routes.filter (·.connected) :=
          List.mem_filter.mpr ⟨hseen.1, hconnected⟩
        have hkept : (lanRoutesAfter payload bridgeSubnets installed stdout4 routes).filter
            (·.connected) = routes.filter (·.connected) :=
          filter_connected_lanRoutesAfter htable hpolicy
        rw [← hkept] at hmem
        exact List.mem_of_mem_filter hmem
      exact (hfree' route ⟨hstays, hseen.2⟩).1 ⟨hconnected, hshare⟩
    case right =>
      intro hnetwork
      by_contra hforeign
      have hstays : route ∈ lanRoutesAfter payload bridgeSubnets installed stdout4 routes := by
        refine (mem_lanRoutesAfter hpolicy).mpr (.inr ⟨⟨hseen.1, ?_⟩, fun added hadded hslot => ?_⟩)
        · rintro ⟨stale, hstale, hat, -⟩
          exact hforeign ⟨stale, ((mem_planLanRoutes_remove htable).mp hstale).1, hat⟩
        · exact hnotAdded added hadded ((congrArg Prod.fst hslot).symm.trans hnetwork)
      obtain ⟨other, hother, hat⟩ := (hfree' route ⟨hstays, hseen.2⟩).2 hnetwork
      obtain ⟨wanted', hwanted', hsame, placed, hplace⟩ :=
        exists_installedAfter_iff.mp ⟨other, hother, by rw [hat.network, hnetwork]⟩
      obtain rfl := lanRoute_unique hpolicy hwanted hwanted' hplaces.network_eq hsame
      exact hunplaced _ hplace
  exact hunplaced _ (placeLanRoute_eq_ok_iff.mpr ⟨network, hplaces, rfl, .inl hfree⟩)

end

/-- What executing the plan for a shared network comes to. -/
structure LanReconciled (payload : LanPolicyPayload) (bridgeSubnets : List String)
    (installed : List InstalledLanRoute) (stdout4 : String) (routes : List KernelRoute)
    (plan : LanRoutePlan) : Prop where
  /-- Of what was or is recorded, the table carries the wanted networks that could be placed. -/
  recorded : ∀ network : Network,
    (∃ route ∈ executeLanPlan plan routes,
      (∃ e ∈ installed ++ installedAfter plan, e.At route) ∧ route.network = network) ↔
      ∃ wanted ∈ payload.lanRoutes, networkOf wanted.cidr = some network ∧
        ∃ placed, placeLanRoute wanted (inputOf payload bridgeSubnets installed stdout4) = .ok placed
  /-- What is recorded is in place. -/
  inPlace : ∀ e ∈ installedAfter plan, ∃ route ∈ executeLanPlan plan routes, e.At route
  /-- Only routes that were recorded go, and no connected network does. -/
  removed : ∀ route ∈ routes, route ∉ executeLanPlan plan routes →
    (∃ e ∈ installed, e.At route) ∧ route.connected = false
  added : ∀ route ∈ executeLanPlan plan routes, route ∉ routes →
    ∃ e ∈ installedAfter plan, e.At route
  /-- The next plan is empty. -/
  settled : ∀ stdout4', Output .four (executeLanPlan plan routes) stdout4' →
    lanRoutePlanIsEmpty (planHostLanRoutes payload.lanRoutes (installedAfter plan) bridgeSubnets
      stdout4') = true

theorem lanReconciled (hpolicy : fabricLanRoutesPolicyError payload = none)
    (hrecorded : ∀ e ∈ installed, Recorded e) (htable : Output .four routes stdout4) :
    LanReconciled payload bridgeSubnets installed stdout4 routes
      (planHostLanRoutes payload.lanRoutes installed bridgeSubnets stdout4) := by
  rw [planHostLanRoutes_eq]
  constructor
  case recorded =>
    intro network
    rw [← exists_installedAfter_iff]
    constructor
    case mp =>
      rintro ⟨route, hroute, ⟨e, he, hat⟩, rfl⟩
      rcases List.mem_append.mp he with hold | hnew
      · by_contra hunplaced
        rcases (mem_lanRoutesAfter hpolicy).mp hroute with hadded | ⟨⟨hroute, hkept⟩, -⟩
        · obtain ⟨wanted, hwanted, e', network, hplace, hplaces, rfl⟩ :=
            mem_addedLanRoutes.mp hadded
          exact hunplaced ⟨e', (mem_installedAfter _).mpr ⟨wanted, hwanted, false, hplace⟩,
            hplaces.networkOf_cidr⟩
        · obtain ⟨-, -, -, -, hhost⟩ := hrecorded e hold
          refine hkept ⟨e, (mem_planLanRoutes_remove htable).mpr ⟨hold,
            ⟨route, (hrecorded e hold).seen hroute hat, hat⟩, ?_⟩, hat, hhost⟩
          rw [hat.network]
          exact hunplaced
      · exact ⟨e, hnew, hat.network⟩
    case mpr =>
      rintro ⟨e, he, hnetwork⟩
      obtain ⟨wanted, hwanted, present, hplace⟩ := (mem_installedAfter _).mp he
      obtain ⟨route, hseen, hat⟩ := exists_at_after hpolicy htable hwanted hplace
      exact ⟨route, hseen.1, ⟨e, List.mem_append_right _ he, hat⟩,
        Option.some.inj (hat.network.symm.trans hnetwork)⟩
  case inPlace =>
    intro e he
    obtain ⟨wanted, hwanted, present, hplace⟩ := (mem_installedAfter _).mp he
    obtain ⟨route, hseen, hat⟩ := exists_at_after hpolicy htable hwanted hplace
    exact ⟨route, hseen.1, hat⟩
  case removed =>
    intro route hroute hgone
    by_cases hdeleted : Deleted payload bridgeSubnets installed stdout4 route
    · obtain ⟨e, he, hat, -⟩ := hdeleted
      exact ⟨⟨e, ((mem_planLanRoutes_remove htable).mp he).1, hat⟩, hat.not_connected⟩
    · have hdisplaced : ∃ added ∈ addedLanRoutes (planLanRoutes
          (inputOf payload bridgeSubnets installed stdout4)), route.slot = added.slot := by
        by_contra hnone
        exact hgone ((mem_lanRoutesAfter hpolicy).mpr (.inr ⟨⟨hroute, hdeleted⟩,
          fun added hadded hslot => hnone ⟨added, hadded, hslot⟩⟩))
      obtain ⟨added, hadded, hslot⟩ := hdisplaced
      exact recorded_of_displaced htable hpolicy hroute hadded (congrArg Prod.fst hslot)
  case added =>
    intro route hroute hnew
    rcases (mem_lanRoutesAfter hpolicy).mp hroute with hadded | ⟨⟨hold, -⟩, -⟩
    · obtain ⟨wanted, hwanted, e, network, hplace, hplaces, rfl⟩ := mem_addedLanRoutes.mp hadded
      exact ⟨e, (mem_installedAfter _).mpr ⟨wanted, hwanted, false, hplace⟩, addedRoute_at hplaces⟩
    · exact absurd hold hnew
  case settled =>
    intro stdout4' htable'
    rw [planHostLanRoutes_eq]
    have hagain : ∀ wanted ∈ payload.lanRoutes, ∀ e present,
        placeLanRoute wanted (inputOf payload bridgeSubnets
          (recordAfter payload bridgeSubnets installed stdout4) stdout4') = .ok (e, present) →
        present = true := by
      intro wanted hwanted e present hplace'
      obtain ⟨before, hplace⟩ := place_before hpolicy htable htable' hwanted hplace'
      rw [place_after hpolicy htable htable' hwanted hplace] at hplace'
      exact (Prod.mk.inj (Except.ok.inj hplace')).2.symm
    have hadd : (planLanRoutes (inputOf payload bridgeSubnets
        (recordAfter payload bridgeSubnets installed stdout4) stdout4')).add = [] := by
      rw [List.eq_nil_iff_forall_not_mem]
      intro e he
      obtain ⟨wanted, hwanted, hplace'⟩ := (mem_planLanRoutes_add _).mp he
      exact Bool.false_ne_true (hagain wanted hwanted e false hplace')
    have hremove : (planLanRoutes (inputOf payload bridgeSubnets
        (recordAfter payload bridgeSubnets installed stdout4) stdout4')).remove = [] := by
      rw [List.eq_nil_iff_forall_not_mem]
      intro e he
      obtain ⟨hrecord, -, hunplaced⟩ := (mem_planLanRoutes_remove htable').mp he
      obtain ⟨wanted, hwanted, present, hplace⟩ := (mem_installedAfter _).mp hrecord
      exact hunplaced ⟨e, (mem_installedAfter _).mpr ⟨wanted, hwanted, true,
        place_after hpolicy htable htable' hwanted hplace⟩, rfl⟩
    rw [lanRoutePlanIsEmpty]
    exact Bool.and_eq_true_iff.mpr ⟨decide_eq_true (congrArg List.length hadd),
      decide_eq_true (congrArg List.length hremove)⟩

end

/-- Both plans reach what is wanted as far as nothing else routes it, remove only what is the
daemon's own, and settle. -/
theorem plans_settle :
    (∀ (desired : List FabricRoute) (routes : List KernelRoute) (stdout4 stdout6 : String),
      Allowed desired → OneEntry routes → TableOutput routes stdout4 stdout6 →
        Tp0Reconciled desired routes
          (executePlan (planFabricRoutes desired (readTable stdout4 stdout6)) routes)) ∧
    ∀ (payload : LanPolicyPayload) (bridgeSubnets : List String)
      (installed : List InstalledLanRoute) (routes : List KernelRoute) (stdout4 : String),
      fabricLanRoutesPolicyError payload = none → (∀ e ∈ installed, Recorded e) →
        Output .four routes stdout4 →
        LanReconciled payload bridgeSubnets installed stdout4 routes
          (planHostLanRoutes payload.lanRoutes installed bridgeSubnets stdout4) :=
  ⟨fun _ _ _ _ hallowed hone htable => tp0Reconciled hallowed hone htable,
    fun _ _ _ _ _ hpolicy hrecorded htable => lanReconciled hpolicy hrecorded htable⟩

/-! ## A host on a shared network -/

/-- The network `10.second.0.0/16`. -/
def tenNetwork (second : Fin 256) : Network where
  parsed := ⟨.four, 16, 10 * 2 ^ 24 + second * 2 ^ 16, 10 * 2 ^ 24 + second * 2 ^ 16 + 2 ^ 16 - 1⟩
  isNetwork := by
    refine ⟨?_, ?_, ?_, rfl⟩
    · show 16 ≤ 32
      decide
    · show 10 * 2 ^ 24 + second.val * 2 ^ 16 < 2 ^ 32
      omega
    · show (10 * 2 ^ 24 + second.val * 2 ^ 16) / 2 ^ 16 * 2 ^ 16 = 10 * 2 ^ 24 + second.val * 2 ^ 16
      omega

def tenText (second : Fin 256) : CidrText where
  address := .four ⟨10, second, 0, 0⟩
  digits := "16"
  digits_ne := by decide
  isDigit := List.all_eq_true.mp (by decide)
  le_width := by
    show decimalNumber "16".toList ≤ 32
    decide

/-- The connected network of `eth1`. -/
def connectedRoute (second : Fin 256) : KernelRoute :=
  { network := tenNetwork second, dev := some "eth1", via := none, kernel := true, linkScope := true
    linkdown := false }

def eth1Line : String := "10.0.0.0/16 dev eth1 proto kernel scope link src 10.0.0.5 metric 100"

def tp0Line : String := "10.199.0.0/16 dev tp0 scope link"

def lanLine : String := "10.199.0.0/16 via 10.0.0.7 dev eth1"

theorem tokensOf_eth1Line : tokensOf eth1Line = ["10.0.0.0/16", "dev", "eth1", "proto", "kernel",
    "scope", "link", "src", "10.0.0.5", "metric", "100"] := by decide

theorem tokensOf_tp0Line : tokensOf tp0Line =
    ["10.199.0.0/16", "dev", "tp0", "scope", "link"] := by decide

theorem tokensOf_lanLine : tokensOf lanLine =
    ["10.199.0.0/16", "via", "10.0.0.7", "dev", "eth1"] := by decide

theorem shows_connectedRoute : Shows (connectedRoute 0) eth1Line where
  destination := ⟨_, _, tokensOf_eth1Line, by decide, by decide, tenText 0, by decide, rfl⟩
  dev := by rw [tokensOf_eth1Line]; decide
  via := by rw [tokensOf_eth1Line]; decide
  kernel := by rw [tokensOf_eth1Line]; decide
  linkScope := by rw [tokensOf_eth1Line]; decide
  linkdown := by rw [tokensOf_eth1Line]; decide

theorem output_empty (version : FirewallFamily) (routes : List KernelRoute)
    (h : routes.filter (·.network.version = version) = []) : Output version routes "" := by
  have hlines : split '\n' "" = [""] := rfl
  have hnone : (tokensOf "").head? = none := rfl
  rw [Output, h, hlines]
  refine .other (fun word hword => ?_) .nil
  rw [hnone] at hword
  cases hword

/-- A stale tunnel route beside the connected network, before `10.193.0.0/16` is wanted, and a
recorded route over the shared network, before it is replaced by another. -/
theorem plans_settle_host :
    Tp0Reconciled [(tenNetwork 193).route]
      [addedRoute fabricInterfaceName none (tenNetwork 199), connectedRoute 0]
      (executePlan (planFabricRoutes [(tenNetwork 193).route] (readTable
        (tp0Line ++ "\n" ++ eth1Line) ""))
        [addedRoute fabricInterfaceName none (tenNetwork 199), connectedRoute 0]) ∧
    LanReconciled
      { address := some "10.250.0.11/32", fabricPrefix := "10.192.0.0/16", peers := []
        lanRoutes := [⟨"10.193.7.0/16", "10.0.0.7"⟩] } []
      [⟨"10.199.0.0/16", "10.0.0.7", "eth1"⟩]
      (eth1Line ++ "\n" ++ lanLine)
      [connectedRoute 0, addedRoute "eth1" (some "10.0.0.7") (tenNetwork 199)]
      (planHostLanRoutes [⟨"10.193.7.0/16", "10.0.0.7"⟩] [⟨"10.199.0.0/16", "10.0.0.7", "eth1"⟩] []
        (eth1Line ++ "\n" ++ lanLine)) := by
  have htp0 : Shows (addedRoute fabricInterfaceName none (tenNetwork 199)) tp0Line :=
    { destination := ⟨_, _, tokensOf_tp0Line, by decide, by decide, tenText 199, by decide,
        rfl⟩
      dev := by rw [tokensOf_tp0Line]; decide
      via := by rw [tokensOf_tp0Line]; decide
      kernel := by rw [tokensOf_tp0Line]; decide
      linkScope := by rw [tokensOf_tp0Line]; decide
      linkdown := by rw [tokensOf_tp0Line]; decide }
  have hlan : Shows (addedRoute "eth1" (some "10.0.0.7") (tenNetwork 199)) lanLine :=
    { destination := ⟨_, _, tokensOf_lanLine, by decide, by decide, tenText 199, by decide,
        rfl⟩
      dev := by rw [tokensOf_lanLine]; decide
      via := by rw [tokensOf_lanLine]; decide
      kernel := by rw [tokensOf_lanLine]; decide
      linkScope := by rw [tokensOf_lanLine]; decide
      linkdown := by rw [tokensOf_lanLine]; decide }
  constructor
  · apply plans_settle.1
    · rw [Allowed, List.forall_mem_singleton]
      exact ⟨"10.193.7.9/16", by decide, by decide⟩
    · intro a ha b hb haDev hbDev _
      have honly : ∀ route ∈ [addedRoute fabricInterfaceName none (tenNetwork 199),
          connectedRoute 0], route.dev = some fabricInterfaceName →
          route = addedRoute fabricInterfaceName none (tenNetwork 199) := by decide
      rw [honly a ha haDev, honly b hb hbDev]
    · constructor
      · have hlines : split '\n' (tp0Line ++ "\n" ++ eth1Line) = [tp0Line, eth1Line] := by
          decide
        rw [Output, hlines]
        exact .route rfl htp0 (.route rfl shows_connectedRoute .nil)
      · exact output_empty .six _ rfl
  · apply plans_settle.2
    · decide
    · rw [List.forall_mem_singleton]
      exact ⟨tenNetwork 199, rfl, by decide, by decide, by decide⟩
    · have hlines : split '\n' (eth1Line ++ "\n" ++ lanLine) = [eth1Line, lanLine] := by
        decide
      rw [Output, hlines]
      exact .route rfl shows_connectedRoute (.route rfl hlan .nil)

/-- A wanted network that the host is attached to is left out, so `tp0` does not carry it. -/
theorem tp0_not_exactly_desired :
    TableOutput [connectedRoute 0] eth1Line "" ∧
      Allowed [(tenNetwork 0).route] ∧
      ¬∃ route ∈ executePlan (planFabricRoutes [(tenNetwork 0).route] (readTable
          eth1Line "")) [connectedRoute 0],
        route.dev = some fabricInterfaceName ∧ route.network = tenNetwork 0 := by
  refine ⟨⟨?_, output_empty .six _ rfl⟩, ?_, by decide⟩
  · have hlines : split '\n' eth1Line = [eth1Line] := by decide
    rw [Output, hlines]
    exact .route rfl shows_connectedRoute .nil
  · rw [Allowed, List.forall_mem_singleton]
    exact ⟨"10.0.0.0/16", by decide, by decide⟩

end Turbopaneld.Fabric
