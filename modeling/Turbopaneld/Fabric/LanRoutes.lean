/-
# Routes over a shared network

Servers on one trusted network reach each other's container subnets over that network: each subnet
is routed via the other server's address, out of the interface whose connected network holds it.
The daemon records what it installs, and removes only what it recorded and still finds as recorded.
-/

import Turbopaneld.Fabric.RouteTable

namespace Turbopaneld.Fabric

open Firewall JavaScript

/-! ## The payload -/

/-- `FabricReconcileLanRoute`. -/
structure LanRoute where
  cidr : String
  via : String
deriving DecidableEq

/-- A LAN route the daemon installed, as recorded in `state.json`. -/
structure InstalledLanRoute where
  cidr : String
  via : String
  dev : String
deriving DecidableEq

structure LanPolicyPayload extends PolicyPayload where
  lanRoutes : List LanRoute
deriving DecidableEq

def sameRange (a b : String) : Bool :=
  match fabricRoute a with
  | none => false
  | some left => (fabricRoute b).map (·.key) = some left.key

def peerClaims (cidr : String) (payload : LanPolicyPayload) : Bool :=
  payload.peers.any fun allowedIPs => allowedIPs.any (sameRange · cidr)

def overlapsEarlierLanRoute (cidr : String) (index : ℕ) (routes : List LanRoute) : Option String :=
  ((routes.take index).map (·.cidr)).find? (rangesOverlap cidr)

def lanRouteProblem (route : LanRoute) (index : ℕ) (payload : LanPolicyPayload) : Option String :=
  match fabricRangeProblem route.cidr with
  | some problem => some problem
  | none =>
    if claimsOwnAddress route.cidr payload.toPolicyPayload then
      some (route.cidr ++ " overlaps this server's own fabric range")
    else if peerClaims route.cidr payload then
      some (route.cidr ++ " is also a tunnel peer's range")
    else
      match overlapsEarlierLanRoute route.cidr index payload.lanRoutes with
      | none => none
      | some clash =>
        -- An empty text counts as no clash.
        if clash = "" then none
        else some (route.cidr ++ " overlaps another LAN route " ++ clash)

def fabricLanRoutesPolicyError (payload : LanPolicyPayload) : Option String :=
  payload.lanRoutes.zipIdx.findSome? fun (route, index) =>
    (lanRouteProblem route index payload).map ("TurboFabric refused a LAN route: " ++ ·)

/-! ## The interface of a next hop -/

def isNeverLanDev (dev : String) : Bool :=
  [fabricInterfaceName, "lo"].contains dev || ["docker", "br-", "veth", "tpn"].any (startsWith dev)

def hostRange (address : String) : Option FabricRoute :=
  fabricRoute (address ++ "/" ++ if includes address ":" then "128" else "32")

def isUsableConnectedRoute (route : ObservedRoute) (bridgeKeys : List RouteKey) : Bool :=
  if !route.connected || route.linkdown then false
  else
    match route.dev with
    | none => false
    | some dev => dev ≠ "" && !isNeverLanDev dev && !bridgeKeys.contains route.key

/-- `host` is a usable address of the connected `route`: inside it, and not its IPv4 network or
broadcast address (a /31 or /32 has neither). -/
def holdsHost (route : ObservedRoute) (host : FabricRoute) : Bool :=
  if !rangeInside host.parsed route.parsed then false
  else if route.parsed.version ≠ .four ∨ route.parsed.prefixLength ≥ 31 then true
  else host.parsed.base ≠ route.parsed.base && host.parsed.base ≠ route.parsed.last

/-- The most specific of the routes that hold the host, so far. -/
def betterRoute (host : FabricRoute) (bridgeKeys : List RouteKey) (best : Option ObservedRoute)
    (route : ObservedRoute) : Option ObservedRoute :=
  if isUsableConnectedRoute route bridgeKeys && holdsHost route host &&
      best.all fun best => decide (route.parsed.prefixLength > best.parsed.prefixLength) then
    some route
  else best

/-- The local interface whose connected subnet holds `via`. -/
def connectedDevFor (via : String) (table : List ObservedRoute) (bridgeSubnets : List String) :
    Option String :=
  match hostRange via with
  | none => none
  | some host =>
    let bridgeKeys := bridgeSubnets.filterMap fun subnet => (fabricRoute subnet).map (·.key)
    (table.foldl (betterRoute host bridgeKeys) none).bind (·.dev)

/-- A refused interface whose subnet holds `via`. -/
def refusedDevHolding (via : String) (table : List ObservedRoute) : Option String :=
  match hostRange via with
  | none => none
  | some host => (table.find? fun observed =>
      observed.connected && observed.dev.any isNeverLanDev &&
        rangeInside host.parsed observed.parsed).bind (·.dev)

/-- The usable connected networks, for the warning. -/
def connectedList (table : List ObservedRoute) : String :=
  let seen := table.filterMap fun route =>
    match route.dev with
    | none => none
    | some dev =>
      if route.connected && !route.linkdown && !isNeverLanDev dev then
        some (dev ++ " " ++ route.cidr)
      else none
  if seen.length = 0 then "checked: none" else "checked: " ++ ", ".intercalate seen

def noDevReason (via : String) (table : List ObservedRoute) : String :=
  match refusedDevHolding via table with
  | some refused => via ++ " is on " ++ refused ++ ", which never carries a LAN route"
  | none => "no directly connected network holds " ++ via ++ " as a host address (" ++
      connectedList table ++ ")"

/-! ## Placing a route -/

def sameAddress (a b : String) : Bool :=
  (hostRange a).map (·.key) = (hostRange b).map (·.key)

def isExactly (observed : ObservedRoute) (route : FabricRoute) (via dev : String) : Bool :=
  observed.key = route.key && observed.dev = some dev && observed.via.any (sameAddress · via)

def wasInstalled (observed : ObservedRoute) (installed : List InstalledLanRoute) : Bool :=
  installed.any fun entry =>
    match fabricRoute entry.cidr with
    | none => false
    | some route => isExactly observed route entry.via entry.dev

/-- Why another route stands in the way of `route`. -/
def routedElsewhere (route : FabricRoute) (table : List ObservedRoute)
    (installed : List InstalledLanRoute) : Option String :=
  table.findSome? fun other =>
    if (other.connected && rangesShare route.parsed other.parsed) ||
        (other.key = route.key && !wasInstalled other installed) then
      some (other.dev.getD "another interface" ++ " already routes it")
    else none

def overlappingBridge (route : FabricRoute) (bridgeSubnets : List String) : Option String :=
  bridgeSubnets.find? (rangesOverlap route.cidr)

structure PlanInput where
  desired : List LanRoute
  table : List ObservedRoute
  bridgeSubnets : List String
  installed : List InstalledLanRoute

/-- `placeLanRoute`: the reason to skip the route, or the route to install and whether it is
there. -/
def placeLanRoute (wanted : LanRoute) (input : PlanInput) :
    Except String (InstalledLanRoute × Bool) :=
  match (fabricRoute wanted.cidr).filter (·.parsed.version = .four) with
  | none => .error "IPv6 LAN routes are not installed (forwarding is IPv4)"
  | some route =>
    if (hostRange wanted.via).map (·.parsed.version) ≠ some .four then
      .error ("next hop " ++ wanted.via ++ " is not an IPv4 address")
    else
      -- An empty text overlaps nothing.
      match overlappingBridge route input.bridgeSubnets with
      | some bridge => .error ("it overlaps the local bridge subnet " ++ bridge)
      | none =>
        match connectedDevFor wanted.via input.table input.bridgeSubnets with
        | none => .error (noDevReason wanted.via input.table)
        | some dev =>
          let exactly := input.table.any (isExactly · route wanted.via dev)
          match routedElsewhere route input.table input.installed with
          | some conflict =>
            if exactly then .ok (⟨route.cidr, wanted.via, dev⟩, exactly) else .error conflict
          | none => .ok (⟨route.cidr, wanted.via, dev⟩, exactly)

structure LanRoutePlan where
  /-- Routes to install (`ip route replace`). -/
  add : List InstalledLanRoute
  /-- Desired routes already present exactly as wanted. -/
  keep : List InstalledLanRoute
  /-- Routes this daemon installed earlier that nothing wants any more. -/
  remove : List InstalledLanRoute
  skipped : List (LanRoute × String)

def staleInstalledRoutes (input : PlanInput) (placedKeys : List RouteKey) :
    List InstalledLanRoute :=
  input.installed.filter fun entry =>
    match fabricRoute entry.cidr with
    | none => false
    | some route => !placedKeys.contains route.key &&
        input.table.any (isExactly · route entry.via entry.dev)

/-- What the loop of `planLanRoutes` does with a placement. -/
def recordPlacement (state : LanRoutePlan × List RouteKey) (wanted : LanRoute) :
    Except String (InstalledLanRoute × Bool) → LanRoutePlan × List RouteKey
  | .error reason => ({ state.1 with skipped := state.1.skipped ++ [(wanted, reason)] }, state.2)
  | .ok (route, present) =>
    (if present then { state.1 with keep := state.1.keep ++ [route] }
      else { state.1 with add := state.1.add ++ [route] },
      state.2 ++ ((fabricRoute route.cidr).map (·.key)).toList)

/-- The plan of the loop, and `placedKeys`. -/
def placements (input : PlanInput) : LanRoutePlan × List RouteKey :=
  input.desired.foldl
    (fun state wanted => recordPlacement state wanted (placeLanRoute wanted input))
    (⟨[], [], [], []⟩, [])

def planLanRoutes (input : PlanInput) : LanRoutePlan :=
  { (placements input).1 with remove := staleInstalledRoutes input (placements input).2 }

/-- The plan changes nothing. -/
def lanRoutePlanIsEmpty (plan : LanRoutePlan) : Bool :=
  plan.add.length = 0 && plan.remove.length = 0

/-- `planHostLanRoutes`: the table is read where there is something to do. -/
def planHostLanRoutes (lanRoutes : List LanRoute) (installed : List InstalledLanRoute)
    (bridgeSubnets : List String) (stdout4 : String) : LanRoutePlan :=
  let needed := decide (lanRoutes.length > 0) || decide (installed.length > 0)
  planLanRoutes
    { desired := lanRoutes
      table := if needed then parseRouteShow stdout4 .four else []
      bridgeSubnets, installed }

/-! ## Execution -/

/-- `ip route del cidr via address dev interface`; the next hop is compared as an address. -/
def ipDeleteVia (routes : List KernelRoute) (entry : InstalledLanRoute) : List KernelRoute :=
  routes.filter fun route => !(networkOf entry.cidr = some route.network &&
    route.dev = some entry.dev && (hostRange entry.via).isSome &&
      route.via.any (sameAddress · entry.via))

/-- `reconcileLanRoutes`: what nothing wants is removed, then what is missing is installed. -/
def executeLanPlan (plan : LanRoutePlan) (routes : List KernelRoute) : List KernelRoute :=
  plan.add.foldl (fun routes entry => ipReplace routes entry.cidr (some entry.via) entry.dev)
    (plan.remove.foldl ipDeleteVia routes)

/-- What is recorded afterwards. -/
def installedAfter (plan : LanRoutePlan) : List InstalledLanRoute := plan.keep ++ plan.add

end Turbopaneld.Fabric
