/-
# What a clean create can bind

A create body names host paths in three ways: the strings of `Binds`, the
`Mounts` entries of type `bind`, and volume mounts whose driver options turn the
local driver into a bind.  `HostPath` lists them in the body's own terms, and
`Confined` says where such a path may lead.  Neither mentions the checks; the
module proves that a create without a finding only asks for confined paths.
-/

import Mathlib.Tactic.Common
import Turbopaneld.DockerGate.Policy

namespace Turbopaneld.DockerGate

open JavaScript

/-! ## What is allowed -/

/-- The places of a principal's home that the layout makes for containers, by the
path segments below the root. -/
inductive PrincipalArea : List String → Prop
  | data {owner area : String} {tail : List String} (howner : startsWith owner "." = false)
      (harea : area ∈ principalDataAreas) : PrincipalArea (owner :: area :: tail)
  | volume {owner name : String} {tail : List String} (howner : startsWith owner "." = false) :
      PrincipalArea (owner :: "volumes" :: name :: tail)
  | scopeVolume {owner scope name : String} {tail : List String}
      (howner : startsWith owner "." = false) (hscope : scope ∉ principalNotScopes)
      (hname : isScopeName scope = true) :
      PrincipalArea (owner :: scope :: "volumes" :: name :: tail)
  | site {owner service area : String} {tail : List String}
      (howner : startsWith owner "." = false) (harea : area ∈ principalSiteAreas) :
      PrincipalArea (owner :: "sites" :: service :: area :: tail)

/-- A path any tenant may bind. -/
structure TenantPath (config : PolicyConfig) (path : String) : Prop where
  inRoot : ∃ root ∈ config.bindRoots, within path root = true
  notDenied : ∀ root ∈ config.denyPrefixes, within path root = false
  notSocket : path ∉ config.dockerSockets
  notHostRoot : path ≠ "/"
  area : (∃ root ∈ config.principalRoots, within path root = true) →
    ∃ root ∈ config.principalRoots, within path root = true ∧
      PrincipalArea (segmentsBelow root path)

/-- A path the platform's own containers may bind: below one of their trees, and
below a read-only tree only when asked read-only. -/
structure PlatformPath (roots : PlatformRoots) (path : String) (readOnly : Bool) : Prop where
  inTree : ∃ root ∈ roots.readOnly ++ roots.writable, withinTree path root = true
  mode : (∃ root ∈ roots.readOnly, withinTree path root = true) → readOnly = true

/-- Where a bind asked for by a container with these labels may lead. -/
inductive Confined (config : PolicyConfig) (labels : Labels) (path : String) (readOnly : Bool) :
    Prop
  | ingress (hlabel : isIngressContainer labels = true) (hmode : readOnly = true)
      (hdir : path = config.ingressSocketDir)
  | platform (hlabel : isPlatformContainer labels = true)
      (hpath : PlatformPath config.platform path readOnly)
  | tenant (hpath : TenantPath config path)

/-! ## What is asked -/

/-- The driver options of a volume mount make the local driver bind `device`. -/
def BindsDevice (options : Option Json) (device : String) : Prop :=
  (volumeMountOptions options).bind = true ∧ (volumeMountOptions options).device = device

/-- A host path the body asks to bind, and whether read-only.  The engine takes
only an absolute source for a bind. -/
inductive HostPath (hostConfig : Json) : String → Bool → Prop
  | bindString {spec : String}
      (hspec : Json.string spec ∈ Json.items (hostConfig.field "Binds"))
      (habsolute : startsWith (bindSource spec) "/" = true) :
      HostPath hostConfig (bindSource spec) (bindIsReadOnly spec)
  | bindMount {mount : Json} {source : String}
      (hmount : mount ∈ Json.items (hostConfig.field "Mounts"))
      (htype : mount.field "Type" = some (.string "bind"))
      (hsource : mount.field "Source" = some (.string source))
      (habsolute : startsWith source "/" = true) :
      HostPath hostConfig source (Json.isTrue (mount.field "ReadOnly"))
  | volumeDevice {mount : Json} {device : String}
      (hmount : mount ∈ Json.items (hostConfig.field "Mounts"))
      (htype : mount.field "Type" = some (.string "volume"))
      (hbind : BindsDevice ((driverConfig mount).field "Options") device) :
      HostPath hostConfig device false

/-- A driver name that means the engine's own driver. -/
def LocalDriver (name : Option Json) : Prop :=
  name = none ∨ name = some .null ∨ name = some (.string "") ∨ name = some (.string "local")

/-- A propagation that keeps mounts made in the container there. -/
def PrivatePropagation (value : Option Json) : Prop :=
  value = none ∨ value = some .null ∨ ∃ text ∈ safePropagation, value = some (.string text)

/-- What a create without a finding is: its host paths are confined, its volumes
local, its mounts of a known kind and its propagation private. -/
structure ConfinedCreate (config : PolicyConfig) (runtime : Runtime) (labels : Labels)
    (hostConfig : Json) : Prop where
  paths : ∀ source readOnly, HostPath hostConfig source readOnly →
    Confined config labels (resolvedSource source runtime) readOnly
  defaultDriver : LocalDriver (hostConfig.field "VolumeDriver")
  mountDriver : ∀ mount ∈ Json.items (hostConfig.field "Mounts"),
    mount.field "Type" = some (.string "volume") → LocalDriver ((driverConfig mount).field "Name")
  mountType : ∀ mount ∈ Json.items (hostConfig.field "Mounts"), mount.isRecord = true →
    ∃ type ∈ safeMountTypes, mount.field "Type" = some (.string type)
  mountPropagation : ∀ mount ∈ Json.items (hostConfig.field "Mounts"), mount.isRecord = true →
    PrivatePropagation (nestedField mount "BindOptions" "Propagation")
  bindPropagation : ∀ spec, Json.string spec ∈ Json.items (hostConfig.field "Binds") →
    ∀ option ∈ bindOptions spec, option ∉ sharedPropagation

/-! ## The checks, one lemma each -/

/-- The segment test of the source is the list of places above. -/
theorem principalArea_of_isPrincipalArea {segments : List String}
    (harea : isPrincipalArea segments = true) : PrincipalArea segments := by
  unfold isPrincipalArea at harea
  rcases segments with _ | ⟨owner, _ | ⟨area, tail⟩⟩
  · simp at harea
  · simp [principalDataAreas, principalNotScopes] at harea
  · simp only [List.headD_cons, List.tail_cons, Bool.and_eq_true, Bool.or_eq_true,
      Bool.not_eq_true', List.contains_iff_mem, beq_iff_eq] at harea
    obtain ⟨howner, ((hdata | ⟨rfl, hlong⟩) | ⟨⟨⟨hvolumes, hlong⟩, hscope⟩, hname⟩) |
      ⟨⟨rfl, hlong⟩, hsite⟩⟩ := harea
    · exact .data howner hdata
    · rcases tail with _ | ⟨name, tail⟩
      · simp at hlong
      · exact .volume howner
    · rcases tail with _ | ⟨first, _ | ⟨name, tail⟩⟩
      · simp at hvolumes
      · simp at hlong
      · obtain rfl := Option.some.inj hvolumes
        exact .scopeVolume howner (by simpa using hscope) hname
    · rcases tail with _ | ⟨service, _ | ⟨part, tail⟩⟩
      · simp at hlong
      · simp at hlong
      · exact .site howner (by simpa using hsite)

/-- Without a principal finding, a path below a principal root is in an allowed
area. -/
theorem area_of_principalViolation {config : PolicyConfig} {path : String}
    (hclean : principalViolation path config = none)
    (hbelow : ∃ root ∈ config.principalRoots, within path root = true) :
    ∃ root ∈ config.principalRoots, within path root = true ∧
      PrincipalArea (segmentsBelow root path) := by
  unfold principalViolation at hclean
  cases hfind : config.principalRoots.find? (within path) with
  | none =>
      obtain ⟨root, hroot, hwithin⟩ := hbelow
      exact absurd hwithin (List.find?_eq_none.mp hfind root hroot)
  | some root =>
      rw [hfind] at hclean
      have harea : isPrincipalArea (segmentsBelow root path) = true := by
        by_contra hnot
        simp [hnot] at hclean
      exact ⟨root, List.mem_of_find?_eq_some hfind, List.find?_some hfind,
        principalArea_of_isPrincipalArea harea⟩

/-- Without a bind finding, a path is one any tenant may bind. -/
theorem tenantPath_of_bindViolation {config : PolicyConfig} {path : String}
    (hclean : bindViolation path config = none) : TenantPath config path := by
  unfold bindViolation at hclean
  split_ifs at hclean with hroot hsocket hdenied hbind
  rw [Bool.not_eq_true, List.any_eq_false] at hdenied
  rw [Bool.not_eq_true, Bool.not_eq_false', List.any_eq_true] at hbind
  exact {
    inRoot := hbind
    notDenied := fun root hmem => by simpa using hdenied root hmem
    notSocket := by simpa using hsocket
    notHostRoot := hroot
    area := area_of_principalViolation hclean }

/-- An allowed platform verdict is about a platform path. -/
theorem platformPath_of_verdict {roots : PlatformRoots} {path : String} {readOnly : Bool}
    (hverdict : platformBindVerdict path readOnly roots = some .allowed) :
    PlatformPath roots path readOnly := by
  unfold platformBindVerdict at hverdict
  by_cases hreadOnly : roots.readOnly.any (withinTree path) = true
  · rw [if_pos hreadOnly] at hverdict
    have hmode : readOnly = true := by
      by_contra hnot
      simp [hnot] at hverdict
    obtain ⟨root, hmem, hwithin⟩ := List.any_eq_true.mp hreadOnly
    exact ⟨⟨root, List.mem_append_left _ hmem, hwithin⟩, fun _ => hmode⟩
  · rw [if_neg hreadOnly] at hverdict
    by_cases hwritable : roots.writable.any (withinTree path) = true
    · obtain ⟨root, hmem, hwithin⟩ := List.any_eq_true.mp hwritable
      refine ⟨⟨root, List.mem_append_right _ hmem, hwithin⟩, fun hbelow => ?_⟩
      exact absurd (List.any_eq_true.mpr hbelow) hreadOnly
    · simp [hwritable] at hverdict

/-- A bind source without a finding leads to a confined path. -/
theorem confined_of_checkBindSource {config : PolicyConfig} {runtime : Runtime}
    {labels : Labels} {source : String} {readOnly : Bool}
    (habsolute : startsWith source "/" = true)
    (hclean : (checkBindSource ⟨source, readOnly⟩ ⟨config, runtime, isPlatformContainer labels,
      isIngressContainer labels⟩).violation? = none) :
    Confined config labels (resolvedSource source runtime) readOnly := by
  unfold checkBindSource at hclean
  dsimp only at hclean
  rw [habsolute, Bool.not_true, if_neg Bool.false_ne_true] at hclean
  by_cases hcanonical : pathIsCanonical source = true
  · rw [hcanonical, Bool.not_true, if_neg Bool.false_ne_true] at hclean
    by_cases hingress : isIngressSocketBind (resolvedSource source runtime) ⟨source, readOnly⟩
        ⟨config, runtime, isPlatformContainer labels, isIngressContainer labels⟩ = true
    · simp only [isIngressSocketBind, Bool.and_eq_true, beq_iff_eq] at hingress
      exact .ingress hingress.1.1 hingress.1.2 hingress.2
    · rw [if_neg hingress] at hclean
      unfold platformOutcome at hclean
      by_cases hplatform : isPlatformContainer labels = true
      · simp only [hplatform, Bool.not_true, Bool.false_eq_true, if_false] at hclean
        cases hverdict : platformBindVerdict (resolvedSource source runtime) readOnly
            config.platform with
        | none =>
            cases hbind : bindViolation (resolvedSource source runtime) config with
            | none => exact .tenant (tenantPath_of_bindViolation hbind)
            | some found => simp [hverdict, hbind, BindOutcome.violation?] at hclean
        | some verdict =>
            cases verdict with
            | allowed => exact .platform hplatform (platformPath_of_verdict hverdict)
            | configWritable => simp [hverdict, BindOutcome.violation?] at hclean
      · simp only [hplatform, Bool.not_false, if_true] at hclean
        cases hbind : bindViolation (resolvedSource source runtime) config with
        | none => exact .tenant (tenantPath_of_bindViolation hbind)
        | some found => simp [hbind, BindOutcome.violation?] at hclean
  · simp [hcanonical, BindOutcome.violation?] at hclean

/-- Options that make a bind are options that are present. -/
theorem present_of_bind {options : Option Json}
    (hbind : (volumeMountOptions options).bind = true) :
    (volumeMountOptions options).present = true := by
  unfold volumeMountOptions at hbind ⊢
  split at hbind
  · unfold volumeMountOf at hbind ⊢
    simp only [Bool.or_eq_true, List.any_eq_true, beq_iff_eq, decide_eq_true_eq] at hbind ⊢
    rcases hbind with ⟨option, hmem, hword⟩ | htype
    · refine .inr ⟨option, hmem, ?_⟩
      rcases hword with rfl | rfl
      · decide
      · decide
    · refine .inl (.inr ?_)
      rw [htype]
      decide
  · simp at hbind

/-- A volume device without a finding leads to a path any tenant may bind. -/
theorem tenantPath_of_checkVolumeDevice {config : PolicyConfig} {runtime : Runtime}
    {options : Option Json} {device : String} (hbind : BindsDevice options device)
    (hclean : checkVolumeDevice options config runtime = []) :
    TenantPath config (resolvedSource device runtime) := by
  obtain ⟨hbind, rfl⟩ := hbind
  have hpresent := present_of_bind hbind
  unfold checkVolumeDevice at hclean
  simp only [hpresent, hbind, Bool.not_true, Bool.false_eq_true, if_false, Bool.true_and,
    Bool.true_or, if_true] at hclean
  by_cases habsolute : startsWith (volumeMountOptions options).device "/" = true
  · rw [if_pos habsolute] at hclean
    -- the volume path is checked as a container without labels would be
    have hnone : (checkBindSource ⟨(volumeMountOptions options).device, false⟩
        ⟨config, runtime, isPlatformContainer [], isIngressContainer []⟩).violation? = none := by
      have hunlabelled : isPlatformContainer [] = false ∧ isIngressContainer [] = false := by
        decide
      rw [hunlabelled.1, hunlabelled.2]
      cases houtcome : checkBindSource ⟨(volumeMountOptions options).device, false⟩
          ⟨config, runtime, false, false⟩ with
      | violation found => simp [houtcome] at hclean
      | allowance name => rfl
      | clean => rfl
    have hconfined : Confined config []
        (resolvedSource (volumeMountOptions options).device runtime) false :=
      confined_of_checkBindSource habsolute hnone
    cases hconfined with
    | ingress hlabel => exact absurd hlabel (by decide)
    | platform hlabel => exact absurd hlabel (by decide)
    | tenant hpath => exact hpath
  · simp [habsolute] at hclean

/-- The driver test of the source. -/
theorem localDriver_of_driverViolation {name : Option Json}
    (hclean : driverViolation name = none) : LocalDriver name := by
  have hlocal : isLocalDriver name = true := by
    by_contra hnot
    simp [driverViolation, hnot] at hclean
  unfold isLocalDriver at hlocal
  split at hlocal
  · exact .inl rfl
  · exact .inr (.inl rfl)
  · next text =>
      simp only [Bool.or_eq_true, beq_iff_eq] at hlocal
      rcases hlocal with rfl | rfl
      · exact .inr (.inr (.inl rfl))
      · exact .inr (.inr (.inr rfl))
  · exact absurd hlocal Bool.false_ne_true

/-- What the word test of a field says about the field. -/
theorem mem_of_isOneOf {value : Option Json} {texts : List String}
    (hone : isOneOf value texts = true) : ∃ text ∈ texts, value = some (.string text) := by
  unfold isOneOf at hone
  split at hone
  · next text => exact ⟨text, by simpa using hone, rfl⟩
  · exact absurd hone Bool.false_ne_true

/-- A mount without a finding has a known type and a private propagation. -/
theorem mount_of_checkMountEntry {mount : Json} (hclean : checkMountEntry mount = []) :
    (∃ type ∈ safeMountTypes, mount.field "Type" = some (.string type)) ∧
      PrivatePropagation (nestedField mount "BindOptions" "Propagation") := by
  unfold checkMountEntry at hclean
  obtain ⟨htype, hpropagation⟩ := List.append_eq_nil_iff.mp hclean
  constructor
  · apply mem_of_isOneOf
    by_contra hnot
    simp [hnot] at htype
  · have hone : isOneOf (some (Json.orEmpty (nestedField mount "BindOptions" "Propagation")))
        safePropagation = true := by
      by_contra hnot
      simp [hnot] at hpropagation
    obtain ⟨text, htext, hvalue⟩ := mem_of_isOneOf hone
    rcases hfound : nestedField mount "BindOptions" "Propagation" with _ | value
    · exact .inl rfl
    · rw [hfound] at hvalue
      cases value with
      | null => exact .inr (.inl rfl)
      | _ => exact .inr (.inr ⟨text, htext, hvalue⟩)

/-- An object with a text field `Type` is a record. -/
theorem isRecord_of_field {value found : Json} {name : String}
    (hfield : value.field name = some found) : value.isRecord = true := by
  cases value with
  | object fields => rfl
  | _ => simp [Json.field] at hfield

/-- The host paths of a body are among what `checkMounts` looks at. -/
theorem mem_bindEntries_of_bindString {hostConfig : Json} {spec : String}
    (hspec : Json.string spec ∈ Json.items (hostConfig.field "Binds")) :
    ⟨bindSource spec, bindIsReadOnly spec⟩ ∈ bindEntries hostConfig := by
  apply List.mem_append_left
  apply List.mem_map.mpr
  exact ⟨spec, List.mem_filterMap.mpr ⟨.string spec, hspec, rfl⟩, rfl⟩

theorem mem_bindEntries_of_bindMount {hostConfig mount : Json} {source : String}
    (hmount : mount ∈ Json.items (hostConfig.field "Mounts"))
    (htype : mount.field "Type" = some (.string "bind"))
    (hsource : mount.field "Source" = some (.string source)) :
    ⟨source, Json.isTrue (mount.field "ReadOnly")⟩ ∈ bindEntries hostConfig := by
  apply List.mem_append_right
  apply List.mem_filterMap.mpr
  refine ⟨mount, hmount, ?_⟩
  simp [mountBind, isRecord_of_field htype, htype, hsource, Json.isText, Json.textOf]

theorem mem_volumeMounts {hostConfig mount : Json}
    (hmount : mount ∈ Json.items (hostConfig.field "Mounts"))
    (htype : mount.field "Type" = some (.string "volume")) :
    ((driverConfig mount).field "Name", (driverConfig mount).field "Options") ∈
      volumeMounts hostConfig := by
  apply List.mem_map.mpr
  refine ⟨mount, List.mem_filter.mpr ⟨hmount, ?_⟩, rfl⟩
  simp [isRecord_of_field htype, htype, Json.isText]

/-! ## A clean create -/

/-- `checkMounts` without a finding confines every host path and keeps every
volume local. -/
theorem confined_of_checkMounts {config : PolicyConfig} {runtime : Runtime} {labels : Labels}
    {hostConfig : Json}
    (hclean : (checkMounts hostConfig ⟨config, runtime, isPlatformContainer labels,
      isIngressContainer labels⟩).violations = []) :
    (∀ source readOnly, HostPath hostConfig source readOnly →
      Confined config labels (resolvedSource source runtime) readOnly) ∧
    LocalDriver (hostConfig.field "VolumeDriver") ∧
    ∀ mount ∈ Json.items (hostConfig.field "Mounts"),
      mount.field "Type" = some (.string "volume") →
        LocalDriver ((driverConfig mount).field "Name") := by
  simp only [checkMounts, List.append_eq_nil_iff, Option.toList_eq_nil_iff] at hclean
  obtain ⟨⟨⟨⟨hbinds, hdefault⟩, hdrivers⟩, hdevices⟩, -⟩ := hclean
  rw [List.filterMap_eq_nil_iff] at hbinds hdrivers
  rw [List.flatMap_eq_nil_iff] at hdevices
  have hentry : ∀ entry ∈ bindEntries hostConfig, startsWith entry.source "/" = true →
      Confined config labels (resolvedSource entry.source runtime) entry.readOnly := by
    intro entry hmem habsolute
    apply confined_of_checkBindSource habsolute
    exact hbinds _ (List.mem_map.mpr ⟨entry, hmem, rfl⟩)
  refine ⟨?_, localDriver_of_driverViolation hdefault, ?_⟩
  · intro source readOnly hpath
    cases hpath with
    | @bindString spec hspec habsolute =>
        exact hentry ⟨bindSource spec, bindIsReadOnly spec⟩ (mem_bindEntries_of_bindString hspec)
          habsolute
    | @bindMount mount source hmount htype hsource habsolute =>
        exact hentry ⟨source, Json.isTrue (mount.field "ReadOnly")⟩
          (mem_bindEntries_of_bindMount hmount htype hsource) habsolute
    | @volumeDevice mount device hmount htype hbind =>
        have hdevice := hdevices _ (mem_volumeMounts hmount htype)
        exact .tenant (tenantPath_of_checkVolumeDevice hbind hdevice)
  · intro mount hmount htype
    exact localDriver_of_driverViolation (hdrivers _ (mem_volumeMounts hmount htype))

/-- `checkMountKinds` without a finding leaves known mount types and private
propagation. -/
theorem kinds_of_checkMountKinds {hostConfig : Json} (hclean : checkMountKinds hostConfig = []) :
    (∀ spec, Json.string spec ∈ Json.items (hostConfig.field "Binds") →
      ∀ option ∈ bindOptions spec, option ∉ sharedPropagation) ∧
    ∀ mount ∈ Json.items (hostConfig.field "Mounts"), mount.isRecord = true →
      (∃ type ∈ safeMountTypes, mount.field "Type" = some (.string type)) ∧
        PrivatePropagation (nestedField mount "BindOptions" "Propagation") := by
  obtain ⟨hstrings, hmounts⟩ := List.append_eq_nil_iff.mp hclean
  constructor
  · intro spec hspec option hoption hshared
    rw [checkBindStrings, List.map_eq_nil_iff, List.filter_eq_nil_iff] at hstrings
    apply hstrings spec (List.mem_filterMap.mpr ⟨.string spec, hspec, rfl⟩)
    exact List.any_eq_true.mpr ⟨option, hoption, by simpa using hshared⟩
  · intro mount hmount hrecord
    rw [List.flatMap_eq_nil_iff] at hmounts
    exact mount_of_checkMountEntry (hmounts mount (List.mem_filter.mpr ⟨hmount, hrecord⟩))

/-- The route of a create. -/
theorem classifyRoute_create {facts : RequestFacts} (hmethod : facts.method = "POST")
    (hpath : routePath facts.path = "/containers/create") :
    (classifyRoute facts.method facts.path).route = .containersCreate := by
  rw [classifyRoute, hmethod, hpath]
  decide

/-- For every configuration, every path resolver and every body: a create the
strict profile has no finding for asks only for confined host paths, local
volumes, known mount types and private propagation. -/
theorem confinedCreate_of_clean (config : PolicyConfig) (runtime : Runtime)
    (facts : RequestFacts) (hmethod : facts.method = "POST")
    (hpath : routePath facts.path = "/containers/create")
    (hclean : (evaluateDetailed facts config runtime).violations = []) :
    ∃ fields, facts.body = some (.object fields) ∧
      ConfinedCreate config runtime (labelsOf (fields.lookup "Labels"))
        (Json.asRecord (fields.lookup "HostConfig")) := by
  unfold evaluateDetailed at hclean
  cases herror : facts.bodyError with
  | some error => simp [herror] at hclean
  | none =>
      rw [herror] at hclean
      simp only [classifyRoute_create hmethod hpath, evaluateByRoute,
        List.append_eq_nil_iff] at hclean
      obtain ⟨-, hcreate⟩ := hclean
      unfold evaluateContainerCreate at hcreate
      split at hcreate
      · next fields hbody =>
          simp only [List.append_eq_nil_iff] at hcreate
          obtain ⟨⟨-, hkinds⟩, hmounts⟩ := hcreate
          obtain ⟨hpaths, hdefault, hdrivers⟩ := confined_of_checkMounts hmounts
          obtain ⟨hstrings, hentries⟩ := kinds_of_checkMountKinds hkinds
          exact ⟨fields, hbody, {
            paths := hpaths
            defaultDriver := hdefault
            mountDriver := hdrivers
            mountType := fun mount hmount hrecord => (hentries mount hmount hrecord).1
            mountPropagation := fun mount hmount hrecord => (hentries mount hmount hrecord).2
            bindPropagation := hstrings }⟩
      · simp [plain] at hcreate

/-- The create of a container with one mount of each syntax. -/
def createWith (bind source device : String) : RequestFacts where
  method := "POST"
  path := "/v1.47/containers/create"
  query := [("name", "web")]
  body := some (.object [
    ("Labels", .object [("com.docker.compose.project", .string "shop")]),
    ("HostConfig", .object [
      ("Binds", .array [.string bind, .string "cache:/cache"]),
      ("Mounts", .array [
        .object [("Type", .string "bind"), ("Source", .string source),
          ("BindOptions", .object [("Propagation", .string "rprivate")])],
        .object [("Type", .string "volume"), ("VolumeOptions", .object [("DriverConfig",
          .object [("Name", .string "local"), ("Options",
            .object [("type", .string "none"), ("o", .string "bind"),
              ("device", .string device)])])])]])])])

/-- A site's container that keeps to its owner's places. -/
def siteCreate : RequestFacts :=
  createWith "/srv/users/ann/data:/data:ro" "/srv/users/ann/sites/s1/shared"
    "/srv/users/ann/shop/volumes/db"

theorem confinedCreate_siteCreate :
    (evaluateDetailed siteCreate defaultPolicyConfig plainRuntime).violations = [] ∧
      ∃ fields, siteCreate.body = some (.object fields) ∧
        ConfinedCreate defaultPolicyConfig plainRuntime (labelsOf (fields.lookup "Labels"))
          (Json.asRecord (fields.lookup "HostConfig")) := by
  have hclean : (evaluateDetailed siteCreate defaultPolicyConfig plainRuntime).violations = [] := by
    decide +kernel
  exact ⟨hclean, confinedCreate_of_clean defaultPolicyConfig plainRuntime siteCreate rfl
    (by decide +kernel) hclean⟩

example : (evaluateDetailed (createWith "/etc:/e" "/srv/users/ann" "/srv/users/ann/data")
    defaultPolicyConfig plainRuntime).violations =
      [⟨"bind-forbidden-path", some "/etc"⟩, ⟨"bind-principal-path", some "/srv/users/ann"⟩] := by
  decide +kernel

end Turbopaneld.DockerGate
