/-
# The ranges a fabric peer may claim

Every range of a peer becomes a route of the kernel and a forwarding accept, so the daemon refuses
a payload in which a range is too broad, not private, holds this server's own addresses, or takes
part of another peer's range.  Texts are compared as the ranges of integers they parse to.
-/

import Mathlib
import Turbopaneld.Firewall.AddressValues
import Turbopaneld.Programs.Fallible

namespace Turbopaneld.Fabric

open Firewall JavaScript

/-! ## The payload -/

/-- What the policy reads of an enabled reconcile payload; a peer is its `allowedIPs`. -/
structure PolicyPayload where
  address : Option String
  fabricPrefix : String
  peers : List (List String)
deriving DecidableEq

/-- `parseFabricAddress`: no address is needed where no tunnel is asked for. -/
def parseFabricAddress (value : Option String) (tunnel : Option Bool) :
    Except String (Option String) :=
  match value with
  | none => if tunnel = some false then .ok none else .error "Invalid fabric address"
  | some text =>
    if isValidWireguardAllowedIp text then .ok (some (trim text))
    else .error "Invalid fabric address"

/-- The `allowedIPs` of `parseFabricPeerEntry`. -/
def parseAllowedIps (entries : List String) : Except String (List String) :=
  if entries.isEmpty then .error "Invalid fabric peer allowedIPs"
  else entries.mapM fun entry =>
    if isValidWireguardAllowedIp entry then .ok (trim entry)
    else .error "Invalid fabric peer allowedIPs"

/-- `parseEnabledFabricPayload`, as far as the policy reads its result. -/
def parseEnabledFabricPayload (tunnel : Option Bool) (address : Option String)
    (fabricPrefix : String) (peers : List (List String)) : Except String PolicyPayload := do
  let address ← parseFabricAddress address tunnel
  if !isValidWireguardAllowedIp fabricPrefix then .error "Invalid fabric prefix"
  else if tunnel = some false ∧ peers ≠ [] then
    .error "Invalid fabric peers: a payload with no tunnel"
  else do
    let peers ← peers.mapM parseAllowedIps
    return { address, fabricPrefix := trim fabricPrefix, peers }

/-! ## The policy -/

/-- `MIN_PREFIX_V4` and `MIN_PREFIX_V6`. -/
def minPrefix : FirewallFamily → ℕ
  | .four => 8
  | .six => 48

/-- `PRIVATE_BLOCKS`: RFC 1918, RFC 6598 and RFC 4193. -/
def privateBlocks : List String :=
  [([10, 0, 0, 0], 8), ([172, 16, 0, 0], 12), ([192, 168, 0, 0], 16), ([100, 64, 0, 0], 10)].map
    (fun (octets, bits) =>
      ".".intercalate (octets.map (toString : ℕ → String)) ++ "/" ++ toString (bits : ℕ)) ++
    ["::/".intercalate ["fc00", "7"]]

def rangesOverlap (a b : String) : Bool := cidrLiteralContains a b || cidrLiteralContains b a

/-- Why one range is unacceptable on its own. -/
def fabricRangeProblem (cidr : String) : Option String :=
  match parseCidrLiteral cidr with
  | none => some (cidr ++ " is not a valid range")
  | some parsed =>
    if parsed.prefixLength < minPrefix parsed.version then
      some (cidr ++ " is a default route or too broad a range")
    else if !privateBlocks.any (cidrLiteralContains · cidr) then
      some (cidr ++ " is not a private range")
    else none

/-- The range overlaps this server's own fabric address or the fabric range. -/
def claimsOwnAddress (cidr : String) (payload : PolicyPayload) : Bool :=
  ((payload.address.toList ++ [payload.fabricPrefix]).map fun value =>
    if includes value "/" then value else value ++ "/32").any (rangesOverlap cidr)

/-- The first range that overlaps, but is not equal to, a range of an earlier peer. -/
def overlapsOtherPeer (cidr : String) (index : ℕ) (payload : PolicyPayload) : Option String :=
  (payload.peers.take index).flatten.find? fun range =>
    !(cidrLiteralContains cidr range && cidrLiteralContains range cidr) && rangesOverlap cidr range

/-- What is wrong with one range of the peer at an index. -/
def peerRouteError (payload : PolicyPayload) (index : ℕ) (cidr : String) : Option String :=
  match fabricRangeProblem cidr with
  | some problem => some ("TurboFabric refused a peer route: " ++ problem)
  | none =>
    if claimsOwnAddress cidr payload then
      some ("TurboFabric refused a peer route: " ++ cidr ++
        " overlaps this server's own fabric range")
    else
      match overlapsOtherPeer cidr index payload with
      | none => none
      | some clash =>
        -- An empty text counts as no clash.
        if clash = "" then none
        else some ("TurboFabric refused a peer route: " ++ cidr ++
          " overlaps another peer's range " ++ clash)

def fabricAllowedIpsPolicyError (payload : PolicyPayload) : Option String :=
  payload.peers.zipIdx.findSome? fun (allowedIPs, index) =>
    allowedIPs.findSome? (peerRouteError payload index)

/-! ## Ranges as sets of addresses -/

/-- The addresses a text stands for. -/
def addressesOf (value : String) : Set (FirewallFamily × ℕ) :=
  {x | ∃ c : CidrText, c.text = trim value ∧ x ∈ c.addresses}

/-- The address in front of a text's slash. -/
def ownAddressOf (value : String) : Set (FirewallFamily × ℕ) :=
  {x | ∃ c : CidrText, c.text = trim value ∧ x = (c.address.family, c.address.value)}

/-- A text that parses as a range. -/
def IsRange (value : String) : Prop := ∃ c : CidrText, c.text = trim value

/-- Of two ranges that share an address, the narrower one lies in the wider one. -/
theorem subset_of_mem {c d : CidrText} {x : FirewallFamily × ℕ} (hc : x ∈ c.addresses)
    (hd : x ∈ d.addresses) (hbits : c.hostBits ≤ d.hostBits) : c.addresses ⊆ d.addresses := by
  obtain ⟨hcFamily, hlt, hcSame⟩ := hc
  obtain ⟨hdFamily, hdlt, hdSame⟩ := hd
  have hwidth : c.address.width = d.address.width := by
    rw [← IpText.width_eq, ← IpText.width_eq, ← hcFamily, ← hdFamily]
  rintro y ⟨hyFamily, hylt, hySame⟩
  refine ⟨hyFamily.trans (hcFamily.symm.trans hdFamily), hwidth ▸ hylt, ?_⟩
  have hsplit : 2 ^ d.hostBits = 2 ^ c.hostBits * 2 ^ (d.hostBits - c.hostBits) := by
    rw [← Nat.pow_add, Nat.add_sub_cancel' hbits]
  calc y.2 / 2 ^ d.hostBits
      = y.2 / 2 ^ c.hostBits / 2 ^ (d.hostBits - c.hostBits) := by
        rw [hsplit, Nat.div_div_eq_div_mul]
    _ = x.2 / 2 ^ c.hostBits / 2 ^ (d.hostBits - c.hostBits) := by rw [hySame, hcSame]
    _ = x.2 / 2 ^ d.hostBits := by rw [hsplit, Nat.div_div_eq_div_mul]
    _ = d.address.value / 2 ^ d.hostBits := hdSame

/-- Two ranges are disjoint, or one lies in the other. -/
theorem subset_or_disjoint (c d : CidrText) :
    c.addresses ⊆ d.addresses ∨ d.addresses ⊆ c.addresses ∨
      Disjoint c.addresses d.addresses := by
  by_cases hdisjoint : Disjoint c.addresses d.addresses
  · exact .inr (.inr hdisjoint)
  · obtain ⟨x, hc, hd⟩ := Set.not_disjoint_iff.mp hdisjoint
    rcases le_total c.hostBits d.hostBits with hle | hle
    · exact .inl (subset_of_mem hc hd hle)
    · exact .inr (.inl (subset_of_mem hd hc hle))

/-- A text stands for the addresses of every way to read it as a range, as it has only one. -/
theorem addressesOf_eq {c : CidrText} {value : String} (h : c.text = trim value) :
    addressesOf value = c.addresses := by
  ext x
  constructor
  · rintro ⟨d, hd, hx⟩
    have hd := CidrText.parseCidrLiteral_of_trim hd
    rw [CidrText.parseCidrLiteral_of_trim h] at hd
    obtain ⟨hfamily, -, hbase, hlast⟩ := ParsedCidrLiteral.mk.inj (Option.some.inj hd)
    rw [CidrText.mem_addresses_iff] at hx ⊢
    rwa [← hfamily, ← hbase, ← hlast] at hx
  · intro hx
    exact ⟨c, h, hx⟩

theorem isRange_of_parse {value : String} {parsed : ParsedCidrLiteral}
    (h : parseCidrLiteral value = some parsed) : IsRange value := by
  apply isValidWireguardAllowedIp_iff.mp
  rw [← isValidWireguardAllowedIp_trim]
  by_contra hinvalid
  rw [parseCidrLiteral, if_pos (by simpa using hinvalid)] at h
  cases h

theorem cidrLiteralContains_iff_subset {parent child : String} (hparent : IsRange parent)
    (hchild : IsRange child) :
    cidrLiteralContains parent child = true ↔ addressesOf child ⊆ addressesOf parent := by
  obtain ⟨c, hc⟩ := hparent
  obtain ⟨d, hd⟩ := hchild
  rw [cidrLiteralContains_iff (CidrText.parseCidrLiteral_of_trim hc)
    (CidrText.parseCidrLiteral_of_trim hd), addressesOf_eq hc, addressesOf_eq hd,
    CidrText.subset_iff]

theorem isRange_of_contains {parent child : String} (h : cidrLiteralContains parent child = true) :
    IsRange parent ∧ IsRange child := by
  unfold cidrLiteralContains at h
  generalize houter : parseCidrLiteral parent = outer at h
  generalize hinner : parseCidrLiteral child = inner at h
  match outer, inner with
  | none, _ => cases h
  | some _, none => cases h
  | some _, some _ => exact ⟨isRange_of_parse houter, isRange_of_parse hinner⟩

/-- Ranges that do not overlap have no address in common. -/
theorem disjoint_of_not_overlap {a b : String} (ha : IsRange a) (hb : IsRange b)
    (h : rangesOverlap a b = false) : Disjoint (addressesOf a) (addressesOf b) := by
  rw [rangesOverlap, Bool.or_eq_false_iff] at h
  obtain ⟨hab, hba⟩ := h
  have hnotLeft := mt (cidrLiteralContains_iff_subset ha hb).mpr (Bool.eq_false_iff.mp hab)
  have hnotRight := mt (cidrLiteralContains_iff_subset hb ha).mpr (Bool.eq_false_iff.mp hba)
  obtain ⟨c, hc⟩ := ha
  obtain ⟨d, hd⟩ := hb
  rw [addressesOf_eq hc, addressesOf_eq hd] at hnotLeft hnotRight ⊢
  rcases subset_or_disjoint c d with hsub | hsub | hdisjoint
  · exact absurd hsub hnotRight
  · exact absurd hsub hnotLeft
  · exact hdisjoint

/-! ## What the policy accepts -/

/-- One range of a peer, as the policy is meant to have it. -/
structure RangeAllowed (payload : PolicyPayload) (cidr : String) : Prop where
  /-- It is no wider than the minimum prefix of its family. -/
  narrow : ∃ c : CidrText, c.text = trim cidr ∧
    minPrefix c.address.family ≤ decimalNumber c.digits.toList
  inPrivateBlock : ∃ block ∈ privateBlocks, addressesOf cidr ⊆ addressesOf block
  notOwnAddress : ∀ address ∈ payload.address, Disjoint (addressesOf cidr) (ownAddressOf address)
  notFabric : Disjoint (addressesOf cidr) (addressesOf payload.fabricPrefix)

/-- The ranges of all peers. -/
structure PeersAllowed (payload : PolicyPayload) : Prop where
  range : ∀ allowedIPs ∈ payload.peers, ∀ cidr ∈ allowedIPs, RangeAllowed payload cidr
  /-- Ranges of different peers are equal or disjoint. -/
  apart : ∀ (i j : ℕ) first second, i ≠ j → payload.peers[i]? = some first →
    payload.peers[j]? = some second → ∀ a ∈ first, ∀ b ∈ second,
      addressesOf a = addressesOf b ∨ Disjoint (addressesOf a) (addressesOf b)

variable {payload : PolicyPayload} {cidr : String}

theorem of_fabricRangeProblem (h : fabricRangeProblem cidr = none) :
    (∃ c : CidrText, c.text = trim cidr ∧
      minPrefix c.address.family ≤ decimalNumber c.digits.toList) ∧
      ∃ block ∈ privateBlocks, addressesOf cidr ⊆ addressesOf block := by
  unfold fabricRangeProblem at h
  generalize hparsed : parseCidrLiteral cidr = parsed at h
  cases parsed with
  | none => cases h
  | some parsed =>
    obtain ⟨c, hc⟩ := isRange_of_parse hparsed
    rw [CidrText.parseCidrLiteral_of_trim hc, Option.some_inj] at hparsed
    subst hparsed
    dsimp only at h
    split at h
    case isTrue => cases h
    case isFalse hnarrow =>
      split at h
      case isTrue => cases h
      case isFalse hblock =>
        have hany : privateBlocks.any (cidrLiteralContains · cidr) = true := by
          simpa using hblock
        obtain ⟨block, hmem, hcontains⟩ := List.any_eq_true.mp hany
        obtain ⟨hblockRange, hcidrRange⟩ := isRange_of_contains hcontains
        exact ⟨⟨c, hc, Nat.le_of_not_lt hnarrow⟩, block, hmem,
          (cidrLiteralContains_iff_subset hblockRange hcidrRange).mp hcontains⟩

/-- A range has a slash, so it is taken as it is. -/
theorem includes_slash {c : CidrText} {value : String} (h : c.text = value) :
    includes value "/" = true := by
  rw [includes_iff, ← h, CidrText.text, String.toList_append, String.toList_append]
  refine ⟨c.address.text.toList, c.digits.toList, ?_⟩
  simp

theorem disjoint_of_not_claims {value : String} (h : claimsOwnAddress cidr payload = false)
    (hcidr : IsRange cidr) (hvalue : value ∈ payload.address.toList ++ [payload.fabricPrefix])
    (hrange : IsRange value) (htrim : trim value = value) :
    Disjoint (addressesOf cidr) (addressesOf value) := by
  obtain ⟨c, hc⟩ := hrange
  have hslash := includes_slash (hc.trans htrim)
  rw [claimsOwnAddress, List.any_eq_false] at h
  have hnot := h value (List.mem_map.mpr ⟨value, hvalue, if_pos hslash⟩)
  exact disjoint_of_not_overlap hcidr ⟨c, hc⟩ (Bool.eq_false_iff.mpr hnot)

/-- The address of a text is among those of its range. -/
theorem ownAddressOf_subset (value : String) : ownAddressOf value ⊆ addressesOf value := by
  rintro x ⟨c, hc, rfl⟩
  exact ⟨c, hc, rfl, c.address.value_lt, rfl⟩

theorem not_rangesOverlap_empty (cidr : String) : rangesOverlap cidr "" = false := by
  by_contra hoverlap
  have hempty : ¬IsRange "" := by
    rintro ⟨c, hc⟩
    have hslash := includes_slash hc
    revert hslash
    decide
  rw [Bool.not_eq_false, rangesOverlap, Bool.or_eq_true] at hoverlap
  rcases hoverlap with h | h
  · exact hempty (isRange_of_contains h).2
  · exact hempty (isRange_of_contains h).1

/-- What `peerRouteError` lets through. -/
theorem of_peerRouteError {index : ℕ} (h : peerRouteError payload index cidr = none) :
    fabricRangeProblem cidr = none ∧ claimsOwnAddress cidr payload = false ∧
      overlapsOtherPeer cidr index payload = none := by
  unfold peerRouteError at h
  generalize hproblem : fabricRangeProblem cidr = problem at h
  generalize hclash : overlapsOtherPeer cidr index payload = clash at h
  cases problem with
  | some problem => cases h
  | none =>
    dsimp only at h
    split at h
    case isTrue => cases h
    case isFalse hown =>
      refine ⟨rfl, Bool.eq_false_iff.mpr hown, ?_⟩
      cases clash with
      | none => rfl
      | some clash =>
        dsimp only at h
        split at h
        case isTrue hempty =>
          rw [overlapsOtherPeer] at hclash
          have hoverlap := List.find?_some hclash
          rw [hempty, not_rangesOverlap_empty, Bool.and_false] at hoverlap
          cases hoverlap
        case isFalse => cases h

/-- Where the whole payload passes, every range of every peer does. -/
theorem peerRouteError_eq_none (h : fabricAllowedIpsPolicyError payload = none) {i : ℕ}
    {allowedIPs : List String} (hi : payload.peers[i]? = some allowedIPs) (hcidr : cidr ∈ allowedIPs) :
    peerRouteError payload i cidr = none := by
  rw [fabricAllowedIpsPolicyError] at h
  have hpeer := List.findSome?_eq_none_iff.mp h (allowedIPs, i)
    (List.mem_zipIdx_iff_getElem?.mpr hi)
  exact List.findSome?_eq_none_iff.mp hpeer cidr hcidr

/-- A range of a later peer is equal to or disjoint from one of an earlier peer. -/
theorem apart_of_lt (h : fabricAllowedIpsPolicyError payload = none) {i j : ℕ} (hlt : j < i)
    {first second : List String} (hi : payload.peers[i]? = some first)
    (hj : payload.peers[j]? = some second) {a b : String} (ha : a ∈ first) (hb : b ∈ second) :
    addressesOf a = addressesOf b ∨ Disjoint (addressesOf a) (addressesOf b) := by
  obtain ⟨haProblem, -, hclash⟩ := of_peerRouteError (peerRouteError_eq_none h hi ha)
  obtain ⟨hbProblem, -, -⟩ := of_peerRouteError (peerRouteError_eq_none h hj hb)
  obtain ⟨⟨c, hc, -⟩, -⟩ := of_fabricRangeProblem haProblem
  obtain ⟨⟨d, hd, -⟩, -⟩ := of_fabricRangeProblem hbProblem
  have hearlier : b ∈ (payload.peers.take i).flatten := by
    apply List.mem_flatten.mpr
    refine ⟨second, List.mem_of_getElem? (i := j) ?_, hb⟩
    rw [List.getElem?_take_of_lt hlt]
    exact hj
  rw [overlapsOtherPeer] at hclash
  have hnot := List.find?_eq_none.mp hclash b hearlier
  by_cases hsame : cidrLiteralContains a b && cidrLiteralContains b a
  · left
    rw [Bool.and_eq_true] at hsame
    apply Set.Subset.antisymm
    · exact (cidrLiteralContains_iff_subset ⟨d, hd⟩ ⟨c, hc⟩).mp hsame.2
    · exact (cidrLiteralContains_iff_subset ⟨c, hc⟩ ⟨d, hd⟩).mp hsame.1
  · right
    apply disjoint_of_not_overlap ⟨c, hc⟩ ⟨d, hd⟩
    simpa [hsame] using hnot

/-! ## Parsed payloads -/

/-- What the parser leaves of the own address and the fabric prefix are ranges without white
space around them. -/
structure Parsed (payload : PolicyPayload) : Prop where
  address : ∀ address ∈ payload.address, IsRange address ∧ trim address = address
  fabricPrefix : IsRange payload.fabricPrefix ∧ trim payload.fabricPrefix = payload.fabricPrefix

theorem isRange_trim {value : String} (h : isValidWireguardAllowedIp value = true) :
    IsRange (trim value) ∧ trim (trim value) = trim value := by
  obtain ⟨c, hc⟩ := isValidWireguardAllowedIp_iff.mp h
  exact ⟨⟨c, hc.trans (trim_trim value).symm⟩, trim_trim value⟩

theorem parsed_of_parse {tunnel : Option Bool} {address : Option String} {fabricPrefix : String}
    {peers : List (List String)}
    (h : parseEnabledFabricPayload tunnel address fabricPrefix peers = .ok payload) :
    Parsed payload := by
  obtain ⟨parsedAddress, haddress, h⟩ := Programs.bind_eq_ok_iff.mp h
  split at h
  case isTrue => cases h
  case isFalse hprefix =>
    split at h
    case isTrue => cases h
    case isFalse =>
      obtain ⟨parsedPeers, -, h⟩ := Programs.bind_eq_ok_iff.mp h
      obtain rfl := Except.ok.inj h
      refine ⟨?_, isRange_trim (by simpa using hprefix)⟩
      intro text htext
      cases address with
      | none =>
        rw [parseFabricAddress] at haddress
        split at haddress
        case isTrue =>
          obtain rfl := Except.ok.inj haddress
          cases htext
        case isFalse => cases haddress
      | some value =>
        rw [parseFabricAddress] at haddress
        split at haddress
        case isTrue hvalid =>
          obtain rfl := Except.ok.inj haddress
          obtain rfl := Option.some.inj htext
          exact isRange_trim hvalid
        case isFalse => cases haddress

/-- Peers whose ranges pass the policy of a parsed payload are kept to private blocks, away from
this server's own addresses and apart from each other. -/
theorem peersAllowed_of_policy {tunnel : Option Bool} {address : Option String}
    {fabricPrefix : String} {peers : List (List String)} {payload : PolicyPayload}
    (hparse : parseEnabledFabricPayload tunnel address fabricPrefix peers = .ok payload)
    (hpolicy : fabricAllowedIpsPolicyError payload = none) : PeersAllowed payload := by
  have hparsed := parsed_of_parse hparse
  constructor
  case range =>
    intro allowedIPs hpeer cidr hcidr
    obtain ⟨i, hi⟩ := List.mem_iff_getElem?.mp hpeer
    obtain ⟨hproblem, hown, -⟩ := of_peerRouteError (peerRouteError_eq_none hpolicy hi hcidr)
    obtain ⟨⟨c, hc, hnarrow⟩, hblock⟩ := of_fabricRangeProblem hproblem
    refine ⟨⟨c, hc, hnarrow⟩, hblock, ?_, ?_⟩
    · intro text htext
      obtain ⟨hrange, htrim⟩ := hparsed.address text htext
      have hmem : text ∈ payload.address.toList ++ [payload.fabricPrefix] :=
        List.mem_append_left _ (Option.mem_toList.mpr htext)
      exact (disjoint_of_not_claims hown ⟨c, hc⟩ hmem hrange htrim).mono_right
        (ownAddressOf_subset text)
    · have hmem : payload.fabricPrefix ∈ payload.address.toList ++ [payload.fabricPrefix] :=
        List.mem_append_right _ List.mem_cons_self
      exact disjoint_of_not_claims hown ⟨c, hc⟩ hmem hparsed.fabricPrefix.1
        hparsed.fabricPrefix.2
  case apart =>
    intro i j first second hne hi hj a ha b hb
    rcases Nat.lt_or_gt_of_ne hne with hlt | hlt
    · rcases apart_of_lt hpolicy hlt hj hi hb ha with hsame | hdisjoint
      · exact .inl hsame.symm
      · exact .inr hdisjoint.symm
    · exact apart_of_lt hpolicy hlt hi hj ha hb

/-- A member and a gateway with a LAN of its own. -/
theorem peersAllowed_of_policy_gateway :
    PeersAllowed ⟨some "10.250.0.11/32", "10.192.0.0/16",
      [["10.250.0.12/32", "10.193.0.0/16"], ["10.250.0.13/32", "192.168.20.0/24"]]⟩ :=
  have hparse : parseEnabledFabricPayload none (some "10.250.0.11/32") "10.192.0.0/16"
      [["10.250.0.12/32", "10.193.0.0/16"], ["10.250.0.13/32", "192.168.20.0/24"]] =
      .ok ⟨some "10.250.0.11/32", "10.192.0.0/16",
        [["10.250.0.12/32", "10.193.0.0/16"], ["10.250.0.13/32", "192.168.20.0/24"]]⟩ := by
    decide +kernel
  peersAllowed_of_policy hparse (by decide +kernel)

end Turbopaneld.Fabric
