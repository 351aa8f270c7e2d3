/-
# Whose container it is

Labels, who a container belongs to, and the bind allowance the platform's own
containers get (platform.ts).  The patterns that name the object of a request
are here too; a name is one path segment, so unlike in the route table it holds
no slash.
-/

import Turbopaneld.DockerGate.Json

namespace Turbopaneld.DockerGate

open JavaScript

/-- `Labels`. -/
abbrev Labels := List (String × String)

/-- `PLATFORM_ROLES`. -/
def platformRoles : List String := ["turbopanel", "ingress"]

/-- `PLATFORM_COMPONENTS`. -/
def platformComponents : List String :=
  ["hosting-ingress", "managed-ingress", "managed-ha", "database", "queue", "backup-copy",
    "backup-restore", "managed-files", "volume-copy"]

/-- `LABEL_ROLE`. -/
def labelRole : String := "turbopanel.role"

/-- `LABEL_SYSTEM_COMPONENT`. -/
def labelSystemComponent : String := "com.turbopanel.system.component"

/-- `LABEL_MANAGED_ENGINE`. -/
def labelManagedEngine : String := "tp.managed.engine"

/-- `LABEL_COMPOSE_PROJECT`. -/
def labelComposeProject : String := "com.docker.compose.project"

/-- `Owner`. -/
inductive Owner
  | platform
  | tenant
  | unlabeled
  deriving DecidableEq, Repr

/-- `PlatformRoots`: the trees a platform container may bind, by mode. -/
structure PlatformRoots where
  readOnly : List String
  writable : List String
  deriving DecidableEq, Repr

/-- `BACKUP_ROOT`. -/
def backupRoot : String := "/backup"

/-- `DEFAULT_PLATFORM_ROOTS`. -/
def defaultPlatformRoots : PlatformRoots where
  readOnly := ["/etc/turbopanel/proxysql", "/etc/turbopanel/orchestrator", backupRoot]
  writable := ["/var/lib/turbopanel/orchestrator", "/var/lib/turbopanel/managed"]

/-- One entry of a `Labels` object, when it is a string.  Assigning a string to
`__proto__` sets nothing. -/
def labelEntry : String × Json → Option (String × String)
  | (key, .string text) => if key = "__proto__" then none else some (key, text)
  | _ => none

/-- `labelsOf`: the string-valued entries of a `Labels` object. -/
def labelsOf : Option Json → Labels
  | some (.object fields) => fields.filterMap labelEntry
  | _ => []

/-- `labels[name] ?? ""`. -/
def labelOf (labels : Labels) (name : String) : String := (labels.lookup name).getD ""

/-- `isIngressContainer`. -/
def isIngressContainer (labels : Labels) : Bool := labels.lookup labelRole == some "ingress"

/-- `isPlatformContainer`. -/
def isPlatformContainer (labels : Labels) : Bool :=
  if labelOf labels labelManagedEngine ≠ "" then true
  else platformRoles.contains (labelOf labels labelRole) &&
    platformComponents.contains (labelOf labels labelSystemComponent)

/-- `hasTurbopanelLabel`. -/
def hasTurbopanelLabel (labels : Labels) : Bool :=
  labels.any fun label => startsWith label.1 "com.turbopanel." || label.1 == labelRole

/-- `ownerOf`. -/
def ownerOf (labels : Labels) : Owner :=
  if isPlatformContainer labels then .platform
  else if labelOf labels labelComposeProject ≠ "" || hasTurbopanelLabel labels then .tenant
  else .unlabeled

/-- `within` of platform.ts: the root itself or below it. -/
def withinTree (path root : String) : Bool := path == root || startsWith path (root ++ "/")

/-- `PlatformBind`. -/
inductive PlatformBind
  | allowed
  | configWritable
  deriving DecidableEq, Repr

/-- `platformBindVerdict`. -/
def platformBindVerdict (resolved : String) (readOnly : Bool) (roots : PlatformRoots) :
    Option PlatformBind :=
  if roots.readOnly.any (withinTree resolved) then
    some (if readOnly then .allowed else .configWritable)
  else if roots.writable.any (withinTree resolved) then some .allowed
  else none

/-! ## The object of a request -/

/-- `[^/]+` between two texts: the capture of `^front([^/]+)back$`. -/
def segmentBetween (front back path : String) : Option String :=
  (between front back path).filter fun name => !name.toList.contains '/'

/-- `[^/]+` at the end: the capture of `^front([^/]+)$`. -/
def segmentAfter (front path : String) : Option String :=
  (afterFront front path).filter fun name => name ≠ "" && !name.toList.contains '/'

/-- The actions of `OWNED_TARGET`. -/
def ownedActions : List String :=
  ["/start", "/stop", "/restart", "/kill", "/pause", "/unpause", "/rename", "/update", "/exec",
    "/attach", "/archive", "/wait", "/resize", "/export", "/attach/ws"]

/-- `OWNED_TARGET.exec(path)?.[1]`. -/
def ownedTargetName (path : String) : Option String :=
  ownedActions.findSome? fun action => segmentBetween "/containers/" action path

/-- `ownedTarget`: the container an owned-only route addresses. -/
def ownedTarget (method path : String) : Option String :=
  if method == "DELETE" then segmentAfter "/containers/" path
  else if method == "POST" || method == "PUT" || method == "GET" || method == "HEAD" then
    (ownedTargetName path).filter (· ≠ "json")
  else none

/-- What kind of object an inspect asks for. -/
inductive InspectKind
  | container
  | volume
  | network
  deriving DecidableEq, Repr

/-- The kind's name in findings. -/
def InspectKind.name : InspectKind → String
  | .container => "container"
  | .volume => "volume"
  | .network => "network"

/-- The object a request acts on. -/
structure Subject where
  kind : InspectKind
  name : String
  deriving DecidableEq, Repr

/-- `NOT_AN_OBJECT`. -/
def notAnObject : List String := ["create", "prune"]

/-- `ownedObject`: the volume or network a request removes or attaches to. -/
def ownedObject (method path : String) : Option Subject :=
  if method == "DELETE" then
    match segmentAfter "/volumes/" path, segmentAfter "/networks/" path with
    | some name, _ => if notAnObject.contains name then none else some ⟨.volume, name⟩
    | none, some name => if notAnObject.contains name then none else some ⟨.network, name⟩
    | none, none => none
  else if method ≠ "POST" then none
  else
    (["/connect", "/disconnect"].findSome? fun action =>
      segmentBetween "/networks/" action path).map (⟨.network, ·⟩)

/-! ## Reaching into platform containers -/

/-- `ExecAllowance`. -/
structure ExecAllowance where
  engine : Bool := false
  component : Option String := none
  commands : Option (List String) := none
  deriving DecidableEq, Repr

/-- `PLATFORM_EXEC_ALLOWLIST`. -/
def platformExecAllowlist : List ExecAllowance :=
  [{ engine := true }, { component := some "managed-ingress", commands := some ["mysql"] }]

/-- `PLATFORM_ATTACH_ALLOWLIST`. -/
def platformAttachAllowlist : List String :=
  ["backup-copy", "backup-restore", "managed-files", "volume-copy"]

/-- The accesses of `PLATFORM_ACCESS`. -/
def platformAccesses : List String := ["exec", "attach", "attach/ws", "archive", "export"]

/-- `PLATFORM_ACCESS.exec(path)?.[1]`. -/
def platformAccessKind (path : String) : Option String :=
  platformAccesses.find? fun access => (segmentBetween "/containers/" ("/" ++ access) path).isSome

/-- `execCommand`: the base name of the command's first word. -/
def execCommand (body : Option Json) : Option String :=
  match body.bind (·.field "Cmd") with
  | some (.array (.string word :: _)) => (split '/' word).getLast?
  | _ => none

/-- `allowanceMatches`. -/
def allowanceMatches (allowance : ExecAllowance) (labels : Labels) (command : Option String) :
    Bool :=
  let same :=
    if allowance.engine then labelOf labels labelManagedEngine ≠ ""
    else labels.lookup labelSystemComponent == allowance.component
  same && match allowance.commands with
    | none => true
    | some commands => command.any commands.contains

/-- `platformAccessRule`. -/
def platformAccessRule (path : String) (labels : Labels) (body : Option Json) : Option String :=
  match platformAccessKind path with
  | none => none
  | some kind =>
      if !isPlatformContainer labels then none
      else if kind == "archive" then some "platform-archive"
      else if kind == "export" then some "platform-export"
      else if kind ≠ "exec" then
        if platformAttachAllowlist.contains (labelOf labels labelSystemComponent) then none
        else some "platform-attach"
      else if platformExecAllowlist.any fun allowance =>
          allowanceMatches allowance labels (execCommand body) then none
      else some "platform-exec"

end Turbopaneld.DockerGate
