/-
# What the gate concludes about a request

The findings left once platform allowances, signed approvals and the ownership of
the request's object are taken into account (review.ts), with the engine lookups
ownership costs (inspect.ts).  Logging and counters are left out.

The engine's answers are a parameter.  A lookup is a step of its own that leaves a
trace, so that what was looked up can be told from the state after a review.
-/

import Turbopaneld.DockerGate.ControlPlane
import Turbopaneld.DockerGate.Replay

namespace Turbopaneld.DockerGate

open JavaScript

variable {Key : Type}

/-- `ReviewDeps`, at one moment: the clock and how a write of the used ids ends are
values here.  `inspect` is what an engine answer parses to; `none` stands for every
failure of `fetchInspect`. -/
structure ReviewDeps (Key : Type) where
  policy : PolicyConfig
  runtime : Runtime
  crypto : Crypto Key
  approvalKeys : List Key
  nowSec : ℕ
  enforce : Bool
  write : ReplayCache.Write
  inspect : Subject → Option Json

/-- What a review reads and changes: the used approval ids with their file, and the
objects looked up so far. -/
structure ReviewState where
  cache : ReplayCache
  file : StateFile
  looked : List Subject

/-- A review under way. -/
abbrev Reviewing := StateM ReviewState

/-- A gate without approval keys, in front of an engine that answers like this. -/
def keylessDeps (inspect : Subject → Option Json) : ReviewDeps Unit where
  policy := defaultPolicyConfig
  runtime := plainRuntime
  crypto := signing [] []
  approvalKeys := []
  nowSec := 100
  enforce := true
  write := .whole
  inspect := inspect

/-! ## Lookups -/

/-- `parseInspect`, of the value an answer parses to: only an object counts. -/
def parseInspect : Option Json → Option Json
  | some (.object fields) => some (.object fields)
  | some (.array items) => some (.array items)
  | _ => none

/-- `fetchInspect`: one lookup. -/
def fetchInspect (deps : ReviewDeps Key) (subject : Subject) : Reviewing (Option Json) :=
  fun state =>
    (parseInspect (deps.inspect subject), { state with looked := state.looked ++ [subject] })

/-- `labelsFromDoc`. -/
def labelsFromDoc (doc : Option Json) (kind : InspectKind) : Option Labels :=
  doc.map fun record =>
    labelsOf (match kind with
      | .container => (record.field "Config").bind (·.field "Labels")
      | _ => record.field "Labels")

/-- `fetchLabels`. -/
def fetchLabels (deps : ReviewDeps Key) (subject : Subject) : Reviewing (Option Labels) := do
  return labelsFromDoc (← fetchInspect deps subject) subject.kind

/-- A live bind mount as a `HostConfig.Mounts` spec. -/
def bindSpec (mount : Json) : Option Json :=
  if Json.isText (mount.field "Type") "bind" then
    some (.object ([("Type", .string "bind")] ++
      ((mount.field "Source").map fun source => ("Source", source)).toList ++
      [("ReadOnly", .bool (mount.field "RW" == some (.bool false)))]))
  else none

/-- The start check's reading of an inspect answer. -/
def startDocOf (record : Json) : StartDoc where
  labels := (labelsFromDoc (some record) .container).getD []
  hostConfig := Json.asRecord (record.field "HostConfig")
  mounts := (Json.items (record.field "Mounts")).filterMap bindSpec

/-- `fetchContainerDoc`. -/
def fetchContainerDoc (deps : ReviewDeps Key) (name : String) : Reviewing (Option StartDoc) := do
  return (← fetchInspect deps ⟨.container, name⟩).map startDocOf

/-! ## Creates -/

/-- The claim of a verified token on the used ids. -/
def claimApproval (deps : ReviewDeps Key) (payload : ApprovalPayload) : Reviewing Bool :=
  fun state =>
    let (answer, cache, file) :=
      state.cache.claim deps.enforce state.file payload.jti payload.exp deps.nowSec deps.write
    (answer, { state with cache, file })

/-- The verification of the token a create carries. -/
def verifyCreate (facts : RequestFacts) (labels : Labels) (token : String)
    (deps : ReviewDeps Key) : ApprovalResult :=
  verifyApproval deps.crypto token deps.approvalKeys (labelOf labels labelComposeProject)
    (approvalBodyDigest deps.crypto facts.plainBody) ((facts.query.lookup "name").getD "")
    deps.nowSec

/-- `applyApproval`: the findings left after a create's signed approval. -/
def applyApproval (facts : RequestFacts) (labels : Labels) (violations : List Violation)
    (deps : ReviewDeps Key) : Reviewing (List Violation) :=
  match labels.lookup approvalLabel with
  | none => return violations
  | some token =>
      match verifyCreate facts labels token deps with
      | .error _ => return violations
      | .ok payload => do
          if ← claimApproval deps payload then return (splitApproved violations payload).1
          else return violations

/-- The labels of a create's body. -/
def createLabels (facts : RequestFacts) : Labels := labelsOf (facts.body.bind (·.field "Labels"))

/-- `createFindings`. -/
def createFindings (facts : RequestFacts) (found : List Violation) (deps : ReviewDeps Key) :
    Reviewing (List Violation) :=
  let labels := createLabels facts
  let withOwner :=
    if ownerOf labels = .unlabeled then found ++ [⟨"unlabeled-create", none⟩] else found
  applyApproval facts labels withOwner deps

/-! ## The object a request acts on -/

/-- `ownedSubject`. -/
def ownedSubject (facts : RequestFacts) : Option Subject :=
  match ownedTarget facts.method (routePath facts.path) with
  | some container => some ⟨.container, container⟩
  | none => ownedObject facts.method (routePath facts.path)

/-- `startTarget`: the container a `start` or `restart` acts on. -/
def startTarget (facts : RequestFacts) : Option String :=
  if facts.method ≠ "POST" then none
  else ["/start", "/restart"].findSome? fun action =>
    segmentBetween "/containers/" action (routePath facts.path)

/-- `applyStartApproval`: the findings left once the container's own approval label is
applied. -/
def applyStartApproval (doc : StartDoc) (found : List Violation) (deps : ReviewDeps Key) :
    List Violation :=
  match doc.labels.lookup approvalLabel with
  | none => found
  | some token =>
      let features := startApprovalFeatures deps.crypto token deps.approvalKeys
        (labelOf doc.labels labelComposeProject)
      found.filter fun violation =>
        !covers features ((afterFront "start-" violation.rule).getD violation.rule)

/-- The findings about a container that is started, from its inspect answer. -/
def docFindings (name : String) (deps : ReviewDeps Key) : Option StartDoc → List Violation
  | none => [⟨"owner-unknown", some (takeChars name 64)⟩]
  | some doc =>
      let owned :=
        if ownerOf doc.labels = .unlabeled then
          [⟨"unowned-container", some (takeChars name 64)⟩]
        else []
      let binds := evaluateStartBinds doc deps.policy deps.runtime
      owned ++ applyStartApproval doc binds.violations deps

/-- `startFindings`. -/
def startFindings (name : String) (deps : ReviewDeps Key) : Reviewing (List Violation) := do
  return docFindings name deps (← fetchContainerDoc deps name)

/-- The findings about an object whose labels were looked up. -/
def subjectFindings (facts : RequestFacts) (subject : Subject) : Option Labels → List Violation
  | none => [⟨"owner-unknown", some (takeChars subject.name 64)⟩]
  | some labels =>
      let platformRule :=
        if subject.kind = .container then
          platformAccessRule (routePath facts.path) labels facts.body
        else none
      match platformRule with
      | some rule => [⟨rule, some (takeChars subject.name 64)⟩]
      | none =>
          if ownerOf labels = .unlabeled then
            [⟨"unowned-" ++ subject.kind.name, some (takeChars subject.name 64)⟩]
          else []

/-- `unownedFinding`. -/
def unownedFinding (facts : RequestFacts) (deps : ReviewDeps Key) :
    Reviewing (List Violation) :=
  match startTarget facts with
  | some starting => startFindings starting deps
  | none =>
      match ownedSubject facts with
      | none => return []
      | some subject => return subjectFindings facts subject (← fetchLabels deps subject)

/-- `review`. -/
def review (facts : RequestFacts) (route : Route) (deps : ReviewDeps Key)
    (extra : List Violation) : Reviewing (List Violation) := do
  let detail := evaluateDetailed facts deps.policy deps.runtime
  let findings ←
    if route = .containersCreate then createFindings facts detail.violations deps
    else pure detail.violations
  let unowned ← unownedFinding facts deps
  return findings ++ unowned ++ extra

/-! ## Reviews of requests that are not creates -/

section

variable {facts : RequestFacts} {deps : ReviewDeps Key} {extra : List Violation}

theorem review_apply_of_ne_create {route : Route} (hroute : route ≠ .containersCreate)
    (state : ReviewState) :
    review facts route deps extra state =
      ((evaluateDetailed facts deps.policy deps.runtime).violations ++
          (unownedFinding facts deps state).1 ++ extra,
        (unownedFinding facts deps state).2) := by
  rw [review, if_neg hroute]
  rfl

theorem review_apply_of_create (state : ReviewState) :
    review facts .containersCreate deps extra state =
      let created := createFindings facts
        (evaluateDetailed facts deps.policy deps.runtime).violations deps state
      (created.1 ++ (unownedFinding facts deps created.2).1 ++ extra,
        (unownedFinding facts deps created.2).2) := by
  rw [review, if_pos rfl]
  rfl

/-- A review that leaves no finding leaves none about the object of the request. -/
theorem unownedFinding_of_review {route : Route} {state : ReviewState}
    (hclean : (review facts route deps extra state).1 = []) :
    ∃ state', (unownedFinding facts deps state').1 = [] := by
  by_cases hroute : route = .containersCreate
  · rw [hroute, review_apply_of_create] at hclean
    simp only [List.append_eq_nil_iff] at hclean
    exact ⟨_, hclean.1.2⟩
  · rw [review_apply_of_ne_create hroute] at hclean
    simp only [List.append_eq_nil_iff] at hclean
    exact ⟨state, hclean.1.2⟩

theorem unownedFinding_of_start {name : String} (hstart : startTarget facts = some name)
    (state : ReviewState) :
    unownedFinding facts deps state =
      (docFindings name deps ((parseInspect (deps.inspect ⟨.container, name⟩)).map startDocOf),
        { state with looked := state.looked ++ [⟨.container, name⟩] }) := by
  rw [unownedFinding, hstart]
  rfl

theorem unownedFinding_of_subject {subject : Subject} (hstart : startTarget facts = none)
    (hsubject : ownedSubject facts = some subject) (state : ReviewState) :
    unownedFinding facts deps state =
      (subjectFindings facts subject
          (labelsFromDoc (parseInspect (deps.inspect subject)) subject.kind),
        { state with looked := state.looked ++ [subject] }) := by
  rw [unownedFinding, hstart, hsubject]
  rfl

theorem unownedFinding_of_none (hstart : startTarget facts = none)
    (hsubject : ownedSubject facts = none) (state : ReviewState) :
    unownedFinding facts deps state = ([], state) := by
  rw [unownedFinding, hstart, hsubject]
  rfl

end

end Turbopaneld.DockerGate
