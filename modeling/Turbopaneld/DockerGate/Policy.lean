/-
# The strict profile

Every rule a request would break (policy.ts).  The checks read the parsed body
field by field and return findings in the source's order; a finding names its
rule and a value that carries no secret.

The policy asks its runtime for two things that are not in the source: where a
path leads once symlinks are resolved, and the upper-case form of a capability
name.  `Runtime` holds both, and results quantify over it.
-/

import Turbopaneld.DockerGate.Platform
import Turbopaneld.DockerGate.Routes

namespace Turbopaneld.DockerGate

open JavaScript

/-- `Violation`. -/
structure Violation where
  rule : String
  detail : Option String := none
  deriving DecidableEq, Repr

/-- `PolicyConfig`. -/
structure PolicyConfig where
  bindRoots : List String
  principalRoots : List String
  denyPrefixes : List String
  dockerSockets : List String
  capAllowlist : List String
  platform : PlatformRoots
  ingressSocketDir : String
  deriving DecidableEq, Repr

/-- `DEFAULT_POLICY_CONFIG`. -/
def defaultPolicyConfig : PolicyConfig where
  bindRoots := ["/srv/users", "/var/lib/turbopanel/storage"]
  principalRoots := ["/srv/users"]
  denyPrefixes := ["/etc", "/var/run", "/run", "/proc", "/sys", "/dev", "/root", "/boot",
    "/opt/turbopanel", backupRoot]
  dockerSockets := ["/var/run/docker.sock", "/run/docker.sock"]
  capAllowlist := []
  platform := defaultPlatformRoots
  ingressSocketDir := "/run/turbopanel-gate/ro"

/-- What the policy asks of its surroundings: `resolvePath`, with `none` when it
throws, and the language's `toUpperCase`. -/
structure Runtime where
  resolvePath : String → Option String
  toUpperCase : String → String

/-- A runtime on a host without symlinks, for ASCII capability names. -/
def plainRuntime : Runtime where
  resolvePath := some
  toUpperCase := fun text => String.ofList (text.toList.map Char.toUpper)

/-- `RequestFacts`; the query is the list of its decoded pairs. -/
structure RequestFacts where
  method : String
  path : String
  query : List (String × String)
  body : Option Json := none
  plainBody : Option Json := none
  formBody : Bool := false
  bodyError : Option String := none

/-- `Verdict`. -/
structure Verdict where
  violations : List Violation
  allowances : List String
  deriving DecidableEq, Repr

/-! ## Paths -/

/-- The segments `normalizeAbsolute` keeps: `.` and empty ones are skipped, `..`
takes the last one back. -/
def normalSegments (segments : List String) : List String :=
  segments.foldl (fun out segment =>
    if segment = "" ∨ segment = "." then out
    else if segment = ".." then out.dropLast
    else out ++ [segment]) []

/-- `normalizeAbsolute`. -/
def normalizeAbsolute (path : String) : String :=
  "/" ++ "/".intercalate (normalSegments (split '/' path))

/-- `within` of policy.ts: everything is within `/`. -/
def within (path root : String) : Bool := root == "/" || withinTree path root

/-- `PRINCIPAL_DATA_AREAS`. -/
def principalDataAreas : List String := ["data", "tmp"]

/-- `PRINCIPAL_NOT_SCOPES`. -/
def principalNotScopes : List String :=
  ["home", "tmp", "services", "volumes", "data", "sites", "backup", "backups", "logs", "cache",
    "run", "var", "etc", "bin", "root", "public", "releases", "current", "shared", "lost-found",
    "tmp-staging", "base"]

/-- `PRINCIPAL_SITE_AREAS`. -/
def principalSiteAreas : List String := ["shared", "webroot", "releases"]

/-- `/^[a-z0-9][a-z0-9_-]{0,31}$/`. -/
def isScopeName (name : String) : Bool :=
  match name.toList with
  | [] => false
  | c :: rest => (isLower c || isDigit c) && rest.length ≤ 31 &&
      rest.all fun d => isLower d || isDigit d || d == '_' || d == '-'

/-- Whether the part of a path below a principal root is one the home layout makes
for containers: the test of `principalViolation`. -/
def isPrincipalArea (segments : List String) : Bool :=
  match segments with
  | [] => false
  | owner :: rest =>
      let area := rest.headD ""
      let tail := rest.tail
      !startsWith owner "." &&
        (principalDataAreas.contains area ||
          (area == "volumes" && 1 ≤ tail.length) ||
          (tail.head? == some "volumes" && 2 ≤ tail.length && !principalNotScopes.contains area &&
            isScopeName area) ||
          (area == "sites" && 2 ≤ tail.length && principalSiteAreas.contains (tail.getD 1 "")))

/-- The path segments below a root. -/
def segmentsBelow (root path : String) : List String :=
  (split '/' (dropChars path root.length)).filter (· ≠ "")

/-- `principalViolation`. -/
def principalViolation (resolved : String) (config : PolicyConfig) : Option Violation :=
  match config.principalRoots.find? (within resolved) with
  | none => none
  | some root =>
      if isPrincipalArea (segmentsBelow root resolved) then none
      else some ⟨"bind-principal-path", some resolved⟩

/-! ## Bind sources -/

/-- `bindViolation`: the cases a bind source can break, most specific first. -/
def bindViolation (resolved : String) (config : PolicyConfig) : Option Violation :=
  if resolved = "/" then some ⟨"bind-host-root", some resolved⟩
  else if config.dockerSockets.contains resolved then some ⟨"bind-docker-socket", some resolved⟩
  else if config.denyPrefixes.any (within resolved) then
    some ⟨"bind-forbidden-path", some resolved⟩
  else if !config.bindRoots.any (within resolved) then some ⟨"bind-outside-roots", some resolved⟩
  else principalViolation resolved config

/-- `BindEntry`: one bind as authored. -/
structure BindEntry where
  source : String
  readOnly : Bool
  deriving DecidableEq, Repr

/-- `BindOutcome`: a finding, an allowance that applied, or neither. -/
inductive BindOutcome
  | violation (violation : Violation)
  | allowance (name : String)
  | clean
  deriving DecidableEq, Repr

/-- `BindContext`: who is asking. -/
structure BindContext where
  config : PolicyConfig
  runtime : Runtime
  platform : Bool
  ingress : Bool

/-- `isIngressSocketBind`. -/
def isIngressSocketBind (resolved : String) (entry : BindEntry) (ctx : BindContext) : Bool :=
  ctx.ingress && entry.readOnly && resolved == ctx.config.ingressSocketDir

/-- `platformOutcome`. -/
def platformOutcome (resolved : String) (entry : BindEntry) (ctx : BindContext) :
    Option BindOutcome :=
  if !ctx.platform then none
  else
    match platformBindVerdict resolved entry.readOnly ctx.config.platform with
    | some .allowed => some (.allowance "platform-bind")
    | some .configWritable => some (.violation ⟨"platform-config-writable", some resolved⟩)
    | none => none

/-- `resolvedSource`. -/
def resolvedSource (source : String) (runtime : Runtime) : String :=
  normalizeAbsolute ((runtime.resolvePath source).getD source)

/-- `checkBindSource`; a source without a leading slash is a named volume. -/
def checkBindSource (entry : BindEntry) (ctx : BindContext) : BindOutcome :=
  if !startsWith entry.source "/" then .clean
  else if !pathIsCanonical entry.source then
    .violation ⟨"bind-noncanonical-path", some (normalizeAbsolute entry.source)⟩
  else
    let resolved := resolvedSource entry.source ctx.runtime
    if isIngressSocketBind resolved entry ctx then .allowance "ingress-socket"
    else
      match platformOutcome resolved entry ctx with
      | some outcome => outcome
      | none =>
          match bindViolation resolved ctx.config with
          | some violation => .violation violation
          | none => .clean

/-- The options of a bind string: its third part, comma-split. -/
def bindOptions (spec : String) : List String := split ',' (((split ':' spec)[2]?).getD "")

/-- `bindIsReadOnly`. -/
def bindIsReadOnly (spec : String) : Bool := (bindOptions spec).contains "ro"

/-- The source of a bind string. -/
def bindSource (spec : String) : String := (split ':' spec).headD ""

/-- The bind a `Mounts` entry of type `bind` asks for. -/
def mountBind (mount : Json) : Option BindEntry :=
  if Json.isRecord mount && Json.isText (mount.field "Type") "bind" then
    some ⟨Json.textOf (mount.field "Source"), Json.isTrue (mount.field "ReadOnly")⟩
  else none

/-- `bindEntries`. -/
def bindEntries (hostConfig : Json) : List BindEntry :=
  (Json.stringList (hostConfig.field "Binds")).map (fun bind => ⟨bindSource bind, bindIsReadOnly bind⟩)
    ++ (Json.items (hostConfig.field "Mounts")).filterMap mountBind

/-! ## Volumes -/

/-- `isLocalDriver`. -/
def isLocalDriver : Option Json → Bool
  | none | some .null => true
  | some (.string name) => name == "" || name == "local"
  | some _ => false

/-- A string's text, or the fixed word for anything else. -/
def stringDetail : Option Json → String
  | some (.string text) => text
  | _ => "<non-string>"

/-- `driverViolation`. -/
def driverViolation (name : Option Json) : Option Violation :=
  if isLocalDriver name then none else some ⟨"volume-driver", some (stringDetail name)⟩

/-- `VolumeMount`: what a `local`-driver volume would mount. -/
structure VolumeMount where
  device : String
  type : String
  bind : Bool
  present : Bool
  deriving DecidableEq, Repr

/-- What the three options the driver accepts come to. -/
def volumeMountOf (device type o : String) : VolumeMount :=
  let options := (split ',' o).map trim
  { device, type
    bind := (options.any fun option => option == "bind" || option == "rbind") || type == "none"
    present := device ≠ "" || type ≠ "" || options.any fun option => option ≠ "" }

/-- `volumeMountOptions`. -/
def volumeMountOptions : Option Json → VolumeMount
  | some (.object fields) =>
      volumeMountOf (Json.textOf (fields.lookup "device")) (Json.textOf (fields.lookup "type"))
        (Json.textOf (fields.lookup "o"))
  | _ => ⟨"", "", false, false⟩

/-- `checkVolumeDevice`. -/
def checkVolumeDevice (opts : Option Json) (config : PolicyConfig) (runtime : Runtime) :
    List Violation :=
  let mount := volumeMountOptions opts
  if !mount.present then []
  else if mount.bind && startsWith mount.device "/" then
    match checkBindSource ⟨mount.device, false⟩ ⟨config, runtime, false, false⟩ with
    | .violation verdict => [⟨"volume-" ++ verdict.rule, verdict.detail⟩]
    | _ => []
  else if startsWith mount.device "/" then [⟨"volume-device", some mount.device⟩]
  else if mount.bind || mount.type ≠ "tmpfs" then
    [⟨"volume-mount-type", some (if mount.type = "" then "<none>" else mount.type)⟩]
  else []

/-- The driver configuration of a volume mount. -/
def driverConfig (mount : Json) : Json :=
  match mount.field "VolumeOptions" with
  | some options => Json.asRecord (options.field "DriverConfig")
  | none => .object []

/-- `volumeMounts`: driver name and options of every `Mounts` entry of type
volume. -/
def volumeMounts (hostConfig : Json) : List (Option Json × Option Json) :=
  ((Json.items (hostConfig.field "Mounts")).filter fun mount =>
    Json.isRecord mount && Json.isText (mount.field "Type") "volume").map fun mount =>
      ((driverConfig mount).field "Name", (driverConfig mount).field "Options")

/-! ## Mount kinds and options -/

/-- `SAFE_MOUNT_TYPES`. -/
def safeMountTypes : List String := ["bind", "volume", "tmpfs"]

/-- `SAFE_PROPAGATION`. -/
def safePropagation : List String := ["", "private", "rprivate"]

/-- `SHARED_PROPAGATION`. -/
def sharedPropagation : List String := ["shared", "rshared", "slave", "rslave"]

/-- `checkBindStrings`. -/
def checkBindStrings (hostConfig : Json) : List Violation :=
  ((Json.stringList (hostConfig.field "Binds")).filter fun bind =>
    (bindOptions bind).any sharedPropagation.contains).map fun _ => ⟨"bind-propagation", none⟩

/-- `fieldDetail`. -/
def fieldDetail (key : String) : String :=
  if key.toList.all isLetter && 1 ≤ key.length && key.length ≤ 40 then key else "<odd>"

/-- `typeof value === "string"` and one of the given texts. -/
def isOneOf (value : Option Json) (texts : List String) : Bool :=
  match value with
  | some (.string text) => texts.contains text
  | _ => false

/-- A field of a nested object, when there is one. -/
def nestedField (value : Json) (outer inner : String) : Option Json :=
  match value.field outer with
  | some (.object fields) => fields.lookup inner
  | _ => none

/-- How a finding shows a mount type. -/
def mountTypeDetail : Option Json → String
  | some (.string type) => fieldDetail type
  | _ => "<non-string>"

/-- `checkMountEntry`. -/
def checkMountEntry (mount : Json) : List Violation :=
  (if isOneOf (mount.field "Type") safeMountTypes then []
    else [⟨"mount-type", some (mountTypeDetail (mount.field "Type"))⟩]) ++
  (if isOneOf (some (Json.orEmpty (nestedField mount "BindOptions" "Propagation")))
      safePropagation then []
    else [⟨"bind-propagation", none⟩])

/-- The `Mounts` entries that are objects. -/
def mountRecords (hostConfig : Json) : List Json :=
  (Json.items (hostConfig.field "Mounts")).filter Json.isRecord

/-- `checkMountKinds`. -/
def checkMountKinds (hostConfig : Json) : List Violation :=
  checkBindStrings hostConfig ++ (mountRecords hostConfig).flatMap checkMountEntry

/-- `subpathViolation`: a subpath is relative, without `..`. -/
def subpathViolation (mount : Json) : List Violation :=
  match Json.orEmpty (nestedField mount "VolumeOptions" "Subpath") with
  | .string subpath =>
      if subpath = "" then []
      else if startsWith subpath "/" || (split '/' subpath).contains ".." then
        [⟨"volume-subpath", none⟩]
      else []
  | _ => [⟨"volume-subpath", none⟩]

/-- `SAFE_TMPFS_OPTIONS`. -/
def safeTmpfsOptions : List String := ["noexec", "exec", "nosuid", "nodev", "ro", "rw"]

/-- Whether one entry of a tmpfs mount's options only narrows the mount. -/
def isSafeTmpfsOption : Json → Bool
  | .array (word :: _) => safeTmpfsOptions.contains word.toText
  | _ => false

/-- The findings of a tmpfs mount's options. -/
def tmpfsFindings : Option Json → List Violation
  | none | some .null => []
  | some (.array options) => options.flatMap fun option =>
      if isSafeTmpfsOption option then [] else [⟨"tmpfs-options", none⟩]
  | some _ => [⟨"tmpfs-options", none⟩]

/-- `tmpfsOptionViolations`. -/
def tmpfsOptionViolations (mount : Json) : List Violation :=
  tmpfsFindings (nestedField mount "TmpfsOptions" "Options")

/-- `checkMountOptions`. -/
def checkMountOptions (hostConfig : Json) : List Violation :=
  (mountRecords hostConfig).flatMap fun mount =>
    subpathViolation mount ++ tmpfsOptionViolations mount

/-- The finding of an outcome. -/
def BindOutcome.violation? : BindOutcome → Option Violation
  | .violation found => some found
  | _ => none

/-- The allowance of an outcome. -/
def BindOutcome.allowance? : BindOutcome → Option String
  | .allowance found => some found
  | _ => none

/-- `checkMounts`. -/
def checkMounts (hostConfig : Json) (ctx : BindContext) : Verdict :=
  let outcomes := (bindEntries hostConfig).map fun entry => checkBindSource entry ctx
  let mounts := volumeMounts hostConfig
  { violations :=
      outcomes.filterMap BindOutcome.violation? ++
        (driverViolation (hostConfig.field "VolumeDriver")).toList ++
        mounts.filterMap (fun mount => driverViolation mount.1) ++
        mounts.flatMap (fun mount => checkVolumeDevice mount.2 ctx.config ctx.runtime) ++
        checkMountOptions hostConfig
    allowances := outcomes.filterMap BindOutcome.allowance? }

/-! ## Security options and namespaces -/

/-- `isSafeSecurityOpt`. -/
def isSafeSecurityOpt (option : String) : Bool :=
  ["no-new-privileges", "no-new-privileges=true", "no-new-privileges:true"].contains option

/-- `WEAKENING_SECURITY_OPTS.test`: one of the words, ending at a word boundary. -/
def isWeakeningSecurityOpt (option : String) : Bool :=
  ["seccomp", "apparmor", "label", "systempaths", "no-new-privileges"].any fun word =>
    (afterFront word option).any fun rest => !(rest.toList.head?.any isWord)

/-- `securityOptDetail`. -/
def securityOptDetail (option : String) : String :=
  let parts := (option.toList.splitOnP fun c => c == '=' || c == ':').map String.ofList
  let key := parts.headD ""
  let value := parts.getD 1 ""
  if ["unconfined", "disable", "false", "true", "default"].contains value then key ++ "=" ++ value
  else key ++ "=<value>"

/-- `checkSecurityOpt`. -/
def checkSecurityOpt (hostConfig : Json) : List Violation :=
  ((Json.stringList (hostConfig.field "SecurityOpt")).filter fun option =>
    !isSafeSecurityOpt option).map fun option =>
      ⟨if isWeakeningSecurityOpt option then "security-opt-weakened" else "security-opt-unknown",
        some (securityOptDetail option)⟩

/-- `namespaceViolation`. -/
def namespaceViolation (rule : String) (mode : Option Json) : Option Violation :=
  match mode with
  | some (.string mode) =>
      if mode = "host" then some ⟨rule ++ "-host", some mode⟩
      else if startsWith mode "container:" then
        some ⟨rule ++ "-container", some "container:<id>"⟩
      else none
  | _ => none

/-- The namespaces `checkNamespaces` looks at: rule and field. -/
def namespaceFields : List (String × String) :=
  [("network-mode", "NetworkMode"), ("pid-mode", "PidMode"), ("ipc-mode", "IpcMode"),
    ("userns-mode", "UsernsMode"), ("uts-mode", "UTSMode"), ("cgroupns-mode", "CgroupnsMode")]

/-- `checkNamespaces`. -/
def checkNamespaces (hostConfig : Json) : List Violation :=
  namespaceFields.filterMap fun pair => namespaceViolation pair.1 (hostConfig.field pair.2)

/-! ## Fields of the host configuration -/

/-- `BANNED_HOSTCONFIG_FIELDS`. -/
def bannedHostConfigFields : List (String × String) :=
  [("Devices", "devices"), ("DeviceCgroupRules", "device-cgroup-rules"),
    ("DeviceRequests", "device-requests"), ("CgroupParent", "cgroup-parent"),
    ("Sysctls", "sysctls"), ("VolumesFrom", "volumes-from"), ("Cgroup", "cgroup-join"),
    ("Links", "links"), ("Annotations", "annotations")]

/-- `BANNED_IF_SENT`. -/
def bannedIfSent : List (String × String) :=
  [("MaskedPaths", "masked-paths"), ("ReadonlyPaths", "readonly-paths")]

/-- `BANNED_IF_POSITIVE`. -/
def bannedIfPositive : List (String × String) :=
  [("CpuRealtimePeriod", "cpu-realtime"), ("CpuRealtimeRuntime", "cpu-realtime")]

/-- `BENIGN_HOSTCONFIG_FIELDS`. -/
def benignHostConfigFields : List String :=
  ["AutoRemove", "BlkioDeviceReadBps", "BlkioDeviceReadIOps", "BlkioDeviceWriteBps",
    "BlkioDeviceWriteIOps", "BlkioWeight", "BlkioWeightDevice", "CapDrop", "ConsoleSize",
    "ContainerIDFile", "CpuCount", "CpuPercent", "CpuPeriod", "CpuQuota", "CpuShares",
    "CpusetCpus", "CpusetMems", "Dns", "DnsOptions", "DnsSearch", "ExtraHosts",
    "IOMaximumBandwidth", "IOMaximumIOps", "Init", "Isolation", "KernelMemoryTCP", "Memory",
    "MemoryReservation", "MemorySwap", "MemorySwappiness", "NanoCpus", "OomKillDisable",
    "PidsLimit", "PortBindings", "PublishAllPorts", "ReadonlyRootfs", "RestartPolicy", "ShmSize",
    "StorageOpt", "Tmpfs", "Ulimits"]

/-- `RULED_HOSTCONFIG_FIELDS`. -/
def ruledHostConfigFields : List String :=
  bannedHostConfigFields.map Prod.fst ++ bannedIfSent.map Prod.fst ++
    bannedIfPositive.map Prod.fst ++
    ["Binds", "CapAdd", "Capabilities", "CgroupnsMode", "GroupAdd", "IpcMode", "LogConfig",
      "Mounts", "NetworkMode", "OomScoreAdj", "PidMode", "Privileged", "Runtime", "SecurityOpt",
      "UTSMode", "UsernsMode", "VolumeDriver"]

/-- `SAFE_LOG_DRIVERS`. -/
def safeLogDrivers : List String := ["", "json-file", "local", "none"]

/-- `checkLogConfig`; no `Type` (or `null`) is the engine's default driver, as is no
`LogConfig` object. -/
def checkLogConfig (hostConfig : Json) : List Violation :=
  let type := Json.orEmpty (nestedField hostConfig "LogConfig" "Type")
  if isOneOf (some type) safeLogDrivers then []
  else [⟨"log-driver", some (stringDetail (some type))⟩]

/-- `Object.keys` of an object. -/
def keysOf : Json → List String
  | .object fields => fields.map Prod.fst
  | _ => []

/-- Whether a host-configuration field is in neither table. -/
def isUnknownField (key : String) : Bool :=
  !benignHostConfigFields.contains key && !ruledHostConfigFields.contains key

/-- `checkUnknownFields`. -/
def checkUnknownFields (hostConfig : Json) : List Violation :=
  ((keysOf hostConfig).filter isUnknownField).map fun key =>
    ⟨"hostconfig-unknown-field", some (fieldDetail key)⟩

/-- Whether a field was sent with a value other than `null`. -/
def isSent : Option Json → Bool
  | none | some .null => false
  | some _ => true

/-- `checkPresentFields`. -/
def checkPresentFields (hostConfig : Json) : List Violation :=
  (bannedHostConfigFields.filter fun pair => Json.isPresent (hostConfig.field pair.1)).map
      (⟨·.2, none⟩) ++
    (bannedIfSent.filter fun pair => isSent (hostConfig.field pair.1)).map (⟨·.2, none⟩) ++
    (bannedIfPositive.filter fun pair => Json.isPositive (hostConfig.field pair.1)).map
      (⟨·.2, none⟩)

/-- `/^[1-9]\d{0,9}$/`. -/
def isGroupNumber (group : String) : Bool :=
  match group.toList with
  | [] => false
  | c :: rest => isDigit c && c ≠ '0' && rest.length ≤ 9 && rest.all isDigit

/-- `checkGroupAdd`: a platform container may add numeric groups. -/
def checkGroupAdd (hostConfig : Json) (platform : Bool) : List Violation :=
  let groups := Json.stringList (hostConfig.field "GroupAdd")
  if groups = [] then []
  else if platform && groups.all isGroupNumber then []
  else [⟨"group-add", none⟩]

/-- The finding of a runtime other than the engine's own. -/
def runtimeFindings : Option Json → List Violation
  | some (.string runtime) =>
      if runtime ≠ "" ∧ runtime ≠ "runc" then [⟨"runtime", some runtime⟩] else []
  | _ => []

/-- `checkScalarFields`. -/
def checkScalarFields (hostConfig : Json) : List Violation :=
  (if Json.isTrue (hostConfig.field "Privileged") then [⟨"privileged", none⟩] else []) ++
    (if Json.isNegative (hostConfig.field "OomScoreAdj") then [⟨"oom-score-adj", none⟩] else []) ++
    runtimeFindings (hostConfig.field "Runtime")

/-- A capability's name, upper-cased and without `CAP_`. -/
def capabilityName (runtime : Runtime) (cap : String) : String :=
  (afterFront "CAP_" (runtime.toUpperCase cap)).getD (runtime.toUpperCase cap)

/-- `checkCapabilities`. -/
def checkCapabilities (hostConfig : Json) (config : PolicyConfig) (runtime : Runtime) :
    List Violation :=
  (((Json.stringList (hostConfig.field "CapAdd") ++
    Json.stringList (hostConfig.field "Capabilities")).map (capabilityName runtime)).filter
      fun name => !config.capAllowlist.contains name).map fun name => ⟨"cap-add", some name⟩

/-- `checkHostConfigFlags`. -/
def checkHostConfigFlags (hostConfig : Json) (config : PolicyConfig) (runtime : Runtime)
    (platform : Bool) : List Violation :=
  checkScalarFields hostConfig ++ checkGroupAdd hostConfig platform ++
    checkPresentFields hostConfig ++ checkCapabilities hostConfig config runtime ++
    checkLogConfig hostConfig ++ checkUnknownFields hostConfig

/-! ## Requests -/

/-- A verdict without allowances. -/
def plain (violations : List Violation) : Verdict := ⟨violations, []⟩

/-- `evaluateContainerCreate`. -/
def evaluateContainerCreate (body : Option Json) (config : PolicyConfig) (runtime : Runtime) :
    Verdict :=
  match body with
  | some (.object fields) =>
      let hostConfig := Json.asRecord (fields.lookup "HostConfig")
      let labels := labelsOf (fields.lookup "Labels")
      let platform := isPlatformContainer labels
      let mounts := checkMounts hostConfig ⟨config, runtime, platform, isIngressContainer labels⟩
      { violations := checkHostConfigFlags hostConfig config runtime platform ++
          checkNamespaces hostConfig ++ checkSecurityOpt hostConfig ++
          checkMountKinds hostConfig ++ mounts.violations
        allowances := mounts.allowances }
  | _ => plain [⟨"body-unparseable", none⟩]

/-- `StartDoc`: the parts of an inspect answer the start check judges. -/
structure StartDoc where
  labels : Labels
  hostConfig : Json
  mounts : List Json

/-- An object with one field replaced: `{ ...value, name: ... }`. -/
def withField (value : Json) (name : String) (field : Json) : Json :=
  .object (fromEntries ((match value with | .object fields => fields | _ => []) ++ [(name, field)]))

/-- `evaluateStartBinds`: the bind policy over a container as it exists now, each
finding once. -/
def evaluateStartBinds (doc : StartDoc) (config : PolicyConfig) (runtime : Runtime) : Verdict :=
  let specs := Json.items (doc.hostConfig.field "Mounts")
  let hostConfig := withField doc.hostConfig "Mounts" (.array (specs ++ doc.mounts))
  let result := checkMounts hostConfig
    ⟨config, runtime, isPlatformContainer doc.labels, isIngressContainer doc.labels⟩
  let once := result.violations.foldl (fun kept v =>
    if kept.any fun w => w.rule == v.rule && w.detail.getD "" == v.detail.getD "" then kept
    else kept ++ [v]) []
  { violations := once.map fun v => { v with rule := "start-" ++ v.rule }
    allowances := result.allowances }

/-- `evaluateExecCreate`. -/
def evaluateExecCreate : Option Json → List Violation
  | some (.object fields) =>
      if Json.isTrue (fields.lookup "Privileged") then [⟨"exec-privileged", none⟩] else []
  | _ => [⟨"body-unparseable", none⟩]

/-- `evaluateNetworkCreate`. -/
def evaluateNetworkCreate : Option Json → List Violation
  | some (.object fields) =>
      let driver := Json.textOf (fields.lookup "Driver")
      if ["", "bridge"].contains driver then [] else [⟨"network-driver", some driver⟩]
  | _ => [⟨"body-unparseable", none⟩]

/-- `evaluateVolumeCreate`. -/
def evaluateVolumeCreate (body : Option Json) (config : PolicyConfig) (runtime : Runtime) :
    List Violation :=
  match body with
  | some (.object fields) =>
      match driverViolation (fields.lookup "Driver") with
      | some violation => [violation]
      | none => checkVolumeDevice (fields.lookup "DriverOpts") config runtime
  | _ => [⟨"body-unparseable", none⟩]

/-- `evaluateBuild`. -/
def evaluateBuild (query : List (String × String)) : List Violation :=
  (if query.lookup "networkmode" = some "host" then [⟨"build-host-network", none⟩] else []) ++
    if (query.lookup "cgroupparent").any (· ≠ "") then [⟨"build-cgroup-parent", none⟩] else []

/-- `firstSegment`. -/
def firstSegment (path : String) : String := (split '/' (routePath path)).getD 1 ""

/-- `evaluateByRoute`. -/
def evaluateByRoute (route : Route) (facts : RequestFacts) (config : PolicyConfig)
    (runtime : Runtime) : Verdict :=
  match route with
  | .containersCreate => evaluateContainerCreate facts.body config runtime
  | .containersExecCreate => plain (evaluateExecCreate facts.body)
  | .networksCreate => plain (evaluateNetworkCreate facts.body)
  | .volumesCreate => plain (evaluateVolumeCreate facts.body config runtime)
  | .build => plain (evaluateBuild facts.query)
  | .containersArchivePut => plain [⟨"archive-put", none⟩]
  | .unclassified => plain [⟨"unclassified-route", none⟩]
  | .restrictedGroup => plain [⟨"restricted-api-group", some (firstSegment facts.path)⟩]
  | _ => plain []

/-- What a request's path and encoding come to before its route is looked at. -/
def requestFindings (facts : RequestFacts) : List Violation :=
  (if pathIsCanonical facts.path then [] else [⟨"path-noncanonical", none⟩]) ++
    (if versionPrefixIsCanonical facts.path then [] else [⟨"path-version-prefix", none⟩]) ++
    if facts.formBody then [⟨"form-encoded-body", none⟩] else []

/-- `evaluateDetailed`: every strict-profile rule a request would break, and the
allowances that removed a finding. -/
def evaluateDetailed (facts : RequestFacts) (config : PolicyConfig) (runtime : Runtime) :
    Verdict :=
  match facts.bodyError with
  | some error => ⟨requestFindings facts ++ [⟨"body-unparseable", some error⟩], []⟩
  | none =>
      let found := evaluateByRoute (classifyRoute facts.method facts.path).route facts config runtime
      ⟨requestFindings facts ++ found.violations, found.allowances⟩

end Turbopaneld.DockerGate
