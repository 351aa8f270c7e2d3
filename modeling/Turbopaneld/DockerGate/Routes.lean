/-
# Routes

Which engine route a request is (policy.ts).  The source's table is a list of
patterns tried in order; each pattern is kept as the predicate it is.  A name of
the engine's `{name:.*}` is `.+` there: any text without a line terminator,
slashes included.
-/

import Turbopaneld.JavaScript.Text

namespace Turbopaneld.DockerGate

open JavaScript

/-- The route templates of the table, with `read` and the two defaults. -/
inductive Route
  | restrictedGroup
  | containersCreate
  | containersExecCreate
  | networksCreate
  | volumesCreate
  | build
  | commit
  | session
  | grpc
  | containersArchivePut
  | containersArchiveGet
  | containersAttach
  | containersAction
  | execStart
  | containersRemove
  | objectRemove
  | imagesPull
  | imagesLoad
  | imagesWrite
  | networksAttach
  | prune
  | auth
  | read
  | unclassified
  deriving DecidableEq, Repr

/-- A row of `ROUTES`. -/
structure RouteRule where
  methods : List String
  pattern : String → Bool
  route : Route
  needsBody : Bool := false

/-- `RouteInfo`. -/
structure RouteInfo where
  route : Route
  needsBody : Bool
  deriving DecidableEq, Repr

/-! ## The version in front of a path -/

/-- What follows `/v[0-9.]+` when a slash does, in the characters of a path. -/
def afterVersion : List Char → Option (List Char)
  | '/' :: 'v' :: rest =>
      let version := rest.takeWhile fun c => isDigit c || c == '.'
      if version ≠ [] && (rest.drop version.length).head? == some '/' then
        some (rest.drop version.length)
      else none
  | _ => none

/-- `routePath`: the path as the engine routes it, without the version. -/
def routePath (rawPath : String) : String :=
  match afterVersion rawPath.toList with
  | some rest => String.ofList rest
  | none => rawPath

/-- `CANONICAL_VERSION_PREFIX.test`: `/v`, digits, a dot, digits, a slash. -/
def hasCanonicalVersion : List Char → Bool
  | '/' :: 'v' :: rest =>
      let major := rest.takeWhile isDigit
      match rest.drop major.length with
      | '.' :: rest' =>
          let minor := rest'.takeWhile isDigit
          major ≠ [] && minor ≠ [] && (rest'.drop minor.length).head? == some '/'
      | _ => false
  | _ => false

/-- `versionPrefixIsCanonical`. -/
def versionPrefixIsCanonical (rawPath : String) : Bool :=
  if (afterVersion rawPath.toList).isNone then true
  else if !hasCanonicalVersion rawPath.toList then false
  else (afterVersion (routePath rawPath).toList).isNone

/-- `pathIsCanonical`. -/
def pathIsCanonical (path : String) : Bool :=
  if includes path "\x00" || includes path "\\" || includes path "//" then false
  else !(split '/' path).any fun segment => segment == ".." || segment == "."

/-! ## The table -/

/-- `^front.+back$` for one of the endings. -/
def named (front : String) (backs : List String) (path : String) : Bool :=
  backs.any fun back => (between front back path).any isDotted

/-- `^front.+$`. -/
def namedLast (front : String) (path : String) : Bool :=
  (afterFront front path).any fun name => name ≠ "" && isDotted name

/-- One of the given paths. -/
def oneOf (paths : List String) (path : String) : Bool := paths.contains path

/-- `checkpoints(?:/.*)?$` at the front of a text. -/
def isCheckpointsTail (text : List Char) : Bool :=
  match (afterFront "checkpoints" (String.ofList text)) with
  | some rest => rest == "" || (startsWith rest "/" && isDotted rest)
  | none => false

/-- `^/(containers/.+/)?checkpoints(?:/.*)?$`. -/
def isCheckpoints (path : String) : Bool :=
  (afterFront "/" path).any (fun rest => isCheckpointsTail rest.toList) ||
    (afterFront "/containers/" path).any fun rest =>
      isDotted rest && rest.toList.tail.tails.any fun tail =>
        tail.head? == some '/' && isCheckpointsTail tail.tail

/-- The actions of `containers.action`. -/
def containerActions : List String :=
  ["/start", "/stop", "/restart", "/kill", "/pause", "/unpause", "/wait", "/resize", "/rename",
    "/update"]

/-- `ROUTES`. -/
def routes : List RouteRule :=
  [{ methods := ["GET", "POST", "DELETE"], pattern := isCheckpoints, route := .restrictedGroup },
    { methods := ["POST"], pattern := oneOf ["/containers/create"], route := .containersCreate,
      needsBody := true },
    { methods := ["POST"], pattern := named "/containers/" ["/exec"],
      route := .containersExecCreate, needsBody := true },
    { methods := ["POST"], pattern := oneOf ["/networks/create"], route := .networksCreate,
      needsBody := true },
    { methods := ["POST"], pattern := oneOf ["/volumes/create"], route := .volumesCreate,
      needsBody := true },
    { methods := ["POST"], pattern := oneOf ["/build"], route := .build },
    { methods := ["POST"], pattern := oneOf ["/commit"], route := .commit },
    { methods := ["POST"], pattern := oneOf ["/session"], route := .session },
    { methods := ["POST"], pattern := oneOf ["/grpc"], route := .grpc },
    { methods := ["PUT"], pattern := named "/containers/" ["/archive"],
      route := .containersArchivePut },
    { methods := ["GET", "HEAD"], pattern := named "/containers/" ["/archive"],
      route := .containersArchiveGet },
    { methods := ["POST"], pattern := named "/containers/" ["/attach"],
      route := .containersAttach },
    { methods := ["POST"], pattern := named "/containers/" containerActions,
      route := .containersAction },
    { methods := ["POST"], pattern := named "/exec/" ["/start", "/resize"], route := .execStart },
    { methods := ["DELETE"], pattern := namedLast "/containers/", route := .containersRemove },
    { methods := ["DELETE"],
      pattern := fun path => namedLast "/networks/" path || namedLast "/volumes/" path,
      route := .objectRemove },
    { methods := ["DELETE"], pattern := namedLast "/images/", route := .objectRemove },
    { methods := ["POST"], pattern := oneOf ["/images/create"], route := .imagesPull },
    { methods := ["POST"], pattern := oneOf ["/images/load"], route := .imagesLoad },
    { methods := ["POST"], pattern := named "/images/" ["/push", "/tag"], route := .imagesWrite },
    { methods := ["POST"], pattern := named "/networks/" ["/connect", "/disconnect"],
      route := .networksAttach },
    { methods := ["POST"],
      pattern := oneOf ["/containers/prune", "/images/prune", "/networks/prune", "/volumes/prune",
        "/build/prune"],
      route := .prune },
    { methods := ["POST"], pattern := oneOf ["/auth"], route := .auth },
    { methods := ["PUT"], pattern := namedLast "/volumes/", route := .restrictedGroup }]

/-- `READ_ROUTES`. -/
def readRoutes : List (String → Bool) :=
  [oneOf ["/_ping", "/version", "/info", "/events", "/networks", "/volumes", "/plugins"],
    oneOf ["/system/df"],
    namedLast "/distribution/",
    oneOf ["/containers/json"],
    named "/containers/" ["/json", "/top", "/logs", "/changes", "/export", "/stats", "/attach/ws"],
    named "/exec/" ["/json"],
    oneOf ["/images/json", "/images/search", "/images/get"],
    named "/images/" ["/json", "/history", "/get"],
    namedLast "/networks/",
    namedLast "/volumes/",
    named "/plugins/" ["/json"]]

/-- `MUTATING_GROUPS.test`. -/
def isMutatingGroup (path : String) : Bool :=
  ["/plugins", "/swarm", "/nodes", "/services", "/tasks", "/secrets", "/configs", "/debug"].any
    fun group => path == group || startsWith path (group ++ "/")

/-- Whether a row of the table applies. -/
def RouteRule.applies (rule : RouteRule) (method path : String) : Bool :=
  rule.methods.contains method && rule.pattern path

/-- `classifyRoute`. -/
def classifyRoute (method rawPath : String) : RouteInfo :=
  let path := routePath rawPath
  match routes.find? fun rule => rule.applies method path with
  | some rule => ⟨rule.route, rule.needsBody⟩
  | none =>
      if (method == "GET" || method == "HEAD") && readRoutes.any fun pattern => pattern path then
        ⟨.read, false⟩
      else if isMutatingGroup path then ⟨.restrictedGroup, false⟩
      else ⟨.unclassified, false⟩

end Turbopaneld.DockerGate
