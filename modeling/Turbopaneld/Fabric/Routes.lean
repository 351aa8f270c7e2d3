/-
# Routes of the fabric interface

A range is brought into one form: the family, the first address and the length of its prefix.
Lines of `ip route show` are read into it too, and the plan compares what is wanted on `tp0` with
what the table shows.  The text a range is written in reads as the same range again.
-/

import Turbopaneld.Fabric.AllowedIps

namespace Turbopaneld.Fabric

open Firewall JavaScript

/-! ## Ranges in one form -/

/-- `FABRIC_INTERFACE_NAME`. -/
def fabricInterfaceName : String := "tp0"

/-- `HOST_PREFIX`. -/
def hostPrefix : FirewallFamily → ℕ
  | .four => 32
  | .six => 128

/-- What the source joins to `version|base|prefix`. -/
abbrev RouteKey := FirewallFamily × ℕ × ℕ

/-- One route, keyed so that equal ranges written differently compare equal. -/
structure FabricRoute where
  key : RouteKey
  cidr : String
  parsed : ParsedCidrLiteral
deriving DecidableEq

def ipv4Text (value : ℕ) : String :=
  ".".intercalate ([24, 16, 8, 0].map fun shift => toString ((value >>> shift) &&& 0xff))

def ipv6Text (value : ℕ) : String :=
  ":".intercalate ([112, 96, 80, 64, 48, 32, 16, 0].map fun shift =>
    String.ofList (Nat.toDigits 16 ((value >>> shift) &&& 0xffff)))

/-- The route of a parsed range. -/
def routeOf (parsed : ParsedCidrLiteral) : FabricRoute :=
  let address := match parsed.version with
    | .four => ipv4Text parsed.base
    | .six => ipv6Text parsed.base
  { key := (parsed.version, parsed.base, parsed.prefixLength)
    cidr := address ++ "/" ++ toString parsed.prefixLength
    parsed }

/-- A range in canonical form, or `none` when it is not a valid CIDR. -/
def fabricRoute (value : String) : Option FabricRoute :=
  (parseCidrLiteral (trim value)).map routeOf

def rangeInside (inner outer : ParsedCidrLiteral) : Bool :=
  inner.version = outer.version && decide (inner.base ≥ outer.base) &&
    decide (inner.last ≤ outer.last)

/-- One range equals, contains or sits inside the other. -/
def rangesShare (a b : ParsedCidrLiteral) : Bool := rangeInside a b || rangeInside b a

def withHostPrefix (destination : String) (version : FirewallFamily) : String :=
  if includes destination "/" then destination
  else destination ++ "/" ++ toString (hostPrefix version)

/-! ## Lines of `ip route show` -/

/-- A line of `ip route show` (main table). -/
structure ObservedRoute extends FabricRoute where
  dev : Option String
  kernel : Bool
  connected : Bool
  via : Option String
  linkdown : Bool
deriving DecidableEq

/-- `ROUTE_TYPES`. -/
def routeTypes : List String :=
  ["unreachable", "blackhole", "prohibit", "local", "broadcast", "multicast", "throw", "nat",
    "anycast"]

/-- `line.trim().split(/\s+/)`; of an empty line nothing is left. -/
def tokensOf (line : String) : List String :=
  ((line.toList.splitOnP isSpace).filter fun word => !word.isEmpty).map String.ofList

def tokenAfter (tokens : List String) (word : String) : Option String :=
  if word ∈ tokens then tokens[tokens.idxOf word + 1]? else none

def isKernelRoute (tokens : List String) : Bool := tokenAfter tokens "proto" = some "kernel"

def isConnectedRoute (tokens : List String) (dev via : Option String) (version : FirewallFamily) :
    Bool :=
  if dev = none ∨ via ≠ none then false
  else if isKernelRoute tokens then true
  else if dev = some fabricInterfaceName then false
  else version = .six || tokenAfter tokens "scope" = some "link"

def parseRouteLine (line : String) (version : FirewallFamily) : Option ObservedRoute :=
  let tokens := tokensOf line
  match tokens.head? with
  | none => none
  | some destination =>
    if destination = "default" ∨ destination ∈ routeTypes then none
    else
      match fabricRoute (withHostPrefix destination version) with
      | none => none
      | some route =>
        if route.parsed.version ≠ version then none
        else
          let dev := tokenAfter tokens "dev"
          let via := tokenAfter tokens "via"
          some { route with
            dev, via
            kernel := isKernelRoute tokens
            connected := isConnectedRoute tokens dev via version
            linkdown := tokens.contains "linkdown" }

/-- Unicast routes of one family from `ip -4|-6 route show` output. -/
def parseRouteShow (stdout : String) (version : FirewallFamily) : List ObservedRoute :=
  (split '\n' stdout).filterMap (parseRouteLine · version)

/-! ## The plan -/

/-- `routes.set(route.key, route)`: a key that comes again keeps its place and takes the later
route. -/
def setRoute (routes : List FabricRoute) (route : FabricRoute) : List FabricRoute :=
  if routes.any (·.key = route.key) then
    routes.map fun other => if other.key = route.key then route else other
  else routes ++ [route]

/-- One turn of the loop of `desiredFabricRoutes`. -/
def addDesired (own : Option FabricRoute) (routes : List FabricRoute) (cidr : String) :
    List FabricRoute :=
  match fabricRoute cidr with
  | none => routes
  | some route => if own.map (·.key) = some route.key then routes else setRoute routes route

/-- Unique canonical ranges of every peer's `allowedIPs`, without this server's own address. -/
def desiredFabricRoutes (payload : PolicyPayload) : List FabricRoute :=
  let ownAddress := (payload.address.map fun text => (split '/' text).headD "").getD ""
  let own := fabricRoute (withHostPrefix ownAddress (if includes ownAddress ":" then .six else .four))
  payload.peers.flatten.foldl (addDesired own) []

/-- The interface of another route that already covers `route`, if any. -/
def conflictingDev (route : FabricRoute) (others : List ObservedRoute) : Option String :=
  others.findSome? fun other =>
    if other.key = route.key || (other.connected && rangesShare route.parsed other.parsed) then
      some (other.dev.getD "another interface")
    else none

/-- `UNMANAGED_RANGES`: link-local and multicast. -/
def unmanagedRanges : List ParsedCidrLiteral :=
  let ipv4Range (octets : List ℕ) (bits : ℕ) :=
    ".".intercalate (octets.map toString) ++ "/" ++ toString bits
  let ipv6Range (firstGroup bits : ℕ) :=
    String.ofList (Nat.toDigits 16 firstGroup) ++ "::/" ++ toString bits
  [ipv4Range [169, 254, 0, 0] 16, ipv4Range [224, 0, 0, 0] 4, ipv6Range 0xfe80 10,
    ipv6Range 0xff00 8].filterMap parseCidrLiteral

/-- A `tp0` route the daemon may remove when no peer wants it. -/
def isManagedTp0Route (route : ObservedRoute) : Bool :=
  !route.kernel && !(route.parsed.prefixLength < minPrefix route.parsed.version) &&
    !unmanagedRanges.any (rangeInside route.parsed)

structure FabricRoutePlan where
  add : List String
  remove : List String
  skipped : List (String × String)
deriving DecidableEq

def planFabricRoutes (desired : List FabricRoute) (table : List ObservedRoute) :
    FabricRoutePlan :=
  let onTp0 := table.filter fun route => route.dev = some fabricInterfaceName
  let elsewhere := table.filter fun route => route.dev ≠ some fabricInterfaceName
  -- An interface without a name would count as none.
  let conflict (route : FabricRoute) : Option String :=
    (conflictingDev route elsewhere).filter (· ≠ "")
  let wanted := (desired.filter fun route => (conflict route).isNone).map (·.key)
  let present := onTp0.map (·.key)
  { add := (desired.filter fun route => wanted.contains route.key && !present.contains route.key).map
      (·.cidr)
    remove := (onTp0.filter fun route => !wanted.contains route.key && isManagedTp0Route route).map
      (·.cidr)
    skipped := desired.filterMap fun route => (conflict route).map (route.cidr, ·) }

/-- The plan changes nothing. -/
def fabricRoutePlanIsEmpty (plan : FabricRoutePlan) : Bool :=
  plan.add.length = 0 && plan.remove.length = 0

/-! ## The canonical text -/

theorem hexNumber_toDigits (n : ℕ) : hexNumber (Nat.toDigits 16 n) = n := by
  have hdigit : ∀ d < 16, hexDigitValue (Nat.digitChar d) = d := by decide
  induction n using Nat.strong_induction_on with
  | _ n ih =>
    rcases lt_or_ge n 16 with hlt | hle
    · rw [Nat.toDigits_of_lt_base hlt]
      show 16 * 0 + _ = n
      rw [hdigit n hlt, Nat.mul_zero, Nat.zero_add]
    · rw [Nat.toDigits_of_base_le (by decide) hle, hexNumber_append_singleton,
        ih (n / 16) (by omega), hdigit _ (Nat.mod_lt n (by decide))]
      exact Nat.div_add_mod n 16

theorem isHexDigit_of_mem_toDigits (n : ℕ) : ∀ c ∈ Nat.toDigits 16 n, isHexDigit c = true := by
  have hdigit : ∀ d < 16, isHexDigit (Nat.digitChar d) = true := by decide
  induction n using Nat.strong_induction_on with
  | _ n ih =>
    rcases lt_or_ge n 16 with hlt | hle
    · rw [Nat.toDigits_of_lt_base hlt, List.forall_mem_singleton]
      exact hdigit n hlt
    · rw [Nat.toDigits_of_base_le (by decide) hle, List.forall_mem_append,
        List.forall_mem_singleton]
      exact ⟨ih (n / 16) (by omega), hdigit _ (Nat.mod_lt n (by decide))⟩

theorem shift_and_byte (value shift : ℕ) : (value >>> shift) &&& 0xff = value / 2 ^ shift % 256 := by
  rw [Nat.shiftRight_eq_div_pow]
  exact Nat.and_two_pow_sub_one_eq_mod _ 8

theorem shift_and_group (value shift : ℕ) :
    (value >>> shift) &&& 0xffff = value / 2 ^ shift % 65536 := by
  rw [Nat.shiftRight_eq_div_pow]
  exact Nat.and_two_pow_sub_one_eq_mod _ 16

/-- The text of an IPv4 address is that of four octets. -/
theorem exists_quad {value : ℕ} (h : value < 2 ^ 32) :
    ∃ q : Quad, q.text = ipv4Text value ∧ q.value = value := by
  refine ⟨⟨⟨value / 2 ^ 24 % 256, by omega⟩, ⟨value / 2 ^ 16 % 256, by omega⟩,
    ⟨value / 2 ^ 8 % 256, by omega⟩, ⟨value / 2 ^ 0 % 256, by omega⟩⟩, ?_, ?_⟩
  · rw [Quad.text, Quad.parts, ipv4Text]
    simp only [List.map_cons, List.map_nil, shift_and_byte]
    rfl
  · simp only [Quad.value]
    omega

/-- The digits of a number below `65536` as a group. -/
def groupOf (n : ℕ) (h : n < 65536) : Group where
  text := String.ofList (Nat.toDigits 16 n)
  length := by
    rw [String.toList_ofList]
    exact ⟨Nat.length_toDigits_pos, (Nat.length_toDigits_le_iff (by decide) (by decide)).mpr h⟩
  hex := by
    rw [String.toList_ofList]
    exact isHexDigit_of_mem_toDigits n

theorem groupOf_value (n : ℕ) (h : n < 65536) : (groupOf n h).value = n := by
  rw [Group.value, groupOf, String.toList_ofList, hexNumber_toDigits]

/-- The text of an IPv6 address is that of eight groups. -/
theorem exists_ipv6Text {value : ℕ} (h : value < 2 ^ 128) :
    ∃ a : Ipv6Text, a.text = ipv6Text value ∧ a.value = value := by
  have hlt : ∀ n : ℕ, n % 65536 < 65536 := fun n => Nat.mod_lt n (by decide)
  let side : Side := ⟨[112, 96, 80, 64, 48, 32, 16, 0].map fun shift =>
    groupOf (value / 2 ^ shift % 65536) (hlt _), none⟩
  have hhextets : side.hextets = [112, 96, 80, 64, 48, 32, 16, 0].map fun shift =>
      value / 2 ^ shift % 65536 := by
    simp [side, Side.hextets, groupOf_value]
  refine ⟨.full side (by rw [hhextets]; rfl), ?_, ?_⟩
  · show (String.singleton ':').intercalate side.parts = ipv6Text value
    rw [ipv6Text]
    simp only [side, Side.parts, groupOf, List.map_map, Function.comp_def, Option.toList_none,
      List.map_nil, List.append_nil, shift_and_group]
    rfl
  · rw [Ipv6Text.value, Ipv6Text.hextets, hhextets]
    simp only [List.map_cons, List.map_nil, List.reverse_cons, List.reverse_nil, List.nil_append,
      List.cons_append, Nat.ofDigits_cons, Nat.ofDigits_nil]
    omega

/-- What a parsed range is: the first and the last address with one prefix. -/
def IsNetwork (parsed : ParsedCidrLiteral) : Prop :=
  parsed.prefixLength ≤ hostPrefix parsed.version ∧
    parsed.base < 2 ^ hostPrefix parsed.version ∧
    parsed.base / 2 ^ (hostPrefix parsed.version - parsed.prefixLength) *
      2 ^ (hostPrefix parsed.version - parsed.prefixLength) = parsed.base ∧
    parsed.last = parsed.base + 2 ^ (hostPrefix parsed.version - parsed.prefixLength) - 1

theorem width_eq_hostPrefix (ip : IpText) : ip.width = hostPrefix ip.family := by
  cases ip <;> rfl

theorem parseCidrLiteral_trim (value : String) :
    parseCidrLiteral (trim value) = parseCidrLiteral value := by
  simp only [parseCidrLiteral, trim_trim]

theorem isNetwork_of_parse {value : String} {parsed : ParsedCidrLiteral}
    (h : parseCidrLiteral value = some parsed) : IsNetwork parsed := by
  obtain ⟨c, hc⟩ := isRange_of_parse h
  rw [CidrText.parseCidrLiteral_of_trim hc] at h
  obtain rfl := Option.some.inj h
  have hpos : 0 < 2 ^ c.hostBits := Nat.two_pow_pos _
  have hbits : hostPrefix c.address.family - decimalNumber c.digits.toList = c.hostBits := by
    rw [CidrText.hostBits, width_eq_hostPrefix]
  refine ⟨width_eq_hostPrefix c.address ▸ c.le_width, ?_, ?_, ?_⟩
  · rw [← width_eq_hostPrefix]
    exact c.base_le_last.trans_lt c.last_lt
  · dsimp only
    rw [hbits, CidrText.base, Nat.mul_div_cancel _ hpos]
  · dsimp only
    rw [hbits, CidrText.last]

/-- A network is read from the text it is written in. -/
theorem parseCidrLiteral_cidr {parsed : ParsedCidrLiteral} (h : IsNetwork parsed) :
    parseCidrLiteral (trim (routeOf parsed).cidr) = some parsed := by
  obtain ⟨version, length, base, last⟩ := parsed
  obtain ⟨hlength, hbase, haligned, hlast⟩ := h
  dsimp only at hlength hbase haligned hlast
  have haddress : ∃ ip : IpText, ip.family = version ∧ ip.value = base ∧
      (routeOf ⟨version, length, base, last⟩).cidr =
        ip.text ++ String.singleton '/' ++ toString length := by
    cases version with
    | four =>
      obtain ⟨q, htext, hvalue⟩ := exists_quad hbase
      exact ⟨.four q, rfl, hvalue, by rw [routeOf, IpText.text, htext]; rfl⟩
    | six =>
      obtain ⟨a, htext, hvalue⟩ := exists_ipv6Text hbase
      exact ⟨.six a, rfl, hvalue, by rw [routeOf, IpText.text, htext]; rfl⟩
  obtain ⟨ip, rfl, rfl, hcidr⟩ := haddress
  have hdigits : decimalNumber (toString length : String).toList = length :=
    decimalNumber_toString length
  let c : CidrText := {
    address := ip
    digits := toString length
    digits_ne := by
      rw [ne_eq, ← String.toList_inj, toList_toString]
      exact Nat.toDigits_ne_nil
    isDigit := isDigit_of_mem_toString length
    le_width := by rw [hdigits, width_eq_hostPrefix]; exact hlength }
  have htext : c.text = (routeOf ⟨ip.family, length, ip.value, last⟩).cidr := hcidr.symm
  have hbits : c.hostBits = hostPrefix ip.family - length := by
    rw [CidrText.hostBits, hdigits, width_eq_hostPrefix]
  have hcbase : c.base = ip.value := by
    rw [CidrText.base, hbits]
    exact haligned
  rw [← htext, c.trim_text, CidrText.parseCidrLiteral_of_trim c.trim_text.symm]
  rw [CidrText.last, hcbase, hbits, ← hlast, hdigits]

/-- The canonical text of a range stands for the same range. -/
theorem fabricRoute_cidr {value : String} {route : FabricRoute} (h : fabricRoute value = some route) :
    fabricRoute route.cidr = some route := by
  obtain ⟨parsed, hparsed, rfl⟩ := Option.map_eq_some_iff.mp h
  rw [fabricRoute, parseCidrLiteral_cidr (isNetwork_of_parse hparsed), Option.map_some]

/-- Routes of one key are one route. -/
theorem fabricRoute_eq_of_key {value other : String} {a b : FabricRoute}
    (ha : fabricRoute value = some a) (hb : fabricRoute other = some b) (hkey : a.key = b.key) :
    a = b := by
  obtain ⟨p, hp, rfl⟩ := Option.map_eq_some_iff.mp ha
  obtain ⟨q, hq, rfl⟩ := Option.map_eq_some_iff.mp hb
  obtain ⟨-, -, -, hpLast⟩ := isNetwork_of_parse hp
  obtain ⟨-, -, -, hqLast⟩ := isNetwork_of_parse hq
  obtain ⟨version, length, base, last⟩ := p
  obtain ⟨version', length', base', last'⟩ := q
  simp only [routeOf, Prod.mk.injEq] at hkey
  obtain ⟨rfl, rfl, rfl⟩ := hkey
  dsimp only at hpLast hqLast
  rw [hpLast, hqLast]

end Turbopaneld.Fabric
