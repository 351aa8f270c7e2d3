/-
# What a start's approval rests on

At a start the gate honours the approval label of the container when its signature
and project are right; expiry, body digest, name and single use are taken to have
been enforced when the container was created.  Here both moments are put together:
runs of creates in which bind sources, clocks and used ids change at will, and
starts of the containers they leave.

The engine gives a container the labels of its create, and those of its image under
names the create does not use.  What else an inspect answer holds is left to the
engine.
-/

import Turbopaneld.DockerGate.Review

namespace Turbopaneld.DockerGate

open JavaScript

variable {Key : Type}

/-- What stays the same during a run. -/
structure Installation (Key : Type) where
  policy : PolicyConfig
  crypto : Crypto Key
  approvalKeys : List Key

/-- What changes from request to request. -/
structure Moment where
  runtime : Runtime
  nowSec : ℕ
  write : ReplayCache.Write
  inspect : Subject → Option Json

/-- The dependencies of a review in enforce mode. -/
def Installation.deps (gate : Installation Key) (moment : Moment) : ReviewDeps Key where
  policy := gate.policy
  runtime := moment.runtime
  crypto := gate.crypto
  approvalKeys := gate.approvalKeys
  nowSec := moment.nowSec
  enforce := true
  write := moment.write
  inspect := moment.inspect

/-- A create as the gate met it: the request, the moment, and the used ids then. -/
structure Create where
  facts : RequestFacts
  moment : Moment
  cache : ReplayCache
  file : StateFile
  imageLabels : Labels

/-- The labels of the container a create leaves. -/
def Create.labels (create : Create) : Labels :=
  createLabels create.facts ++ create.imageLabels.filter fun label =>
    ((createLabels create.facts).lookup label.1).isNone

/-- The create was accepted with the token in its container's label: the token
verified for the create's body digest and name, and its id was claimed. -/
def Create.Approved (gate : Installation Key) (create : Create) : Prop :=
  ∃ token payload, create.labels.lookup approvalLabel = some token ∧
    (createLabels create.facts).lookup approvalLabel = some token ∧
    verifyCreate create.facts (createLabels create.facts) token (gate.deps create.moment) =
      .ok payload ∧
    (create.cache.claim true create.file payload.jti payload.exp create.moment.nowSec
      create.moment.write).1 = true

/-- The features the approval label of a container has at a start. -/
def honouredFeatures (gate : Installation Key) (labels : Labels) : List String :=
  match labels.lookup approvalLabel with
  | none => []
  | some token =>
      startApprovalFeatures gate.crypto token gate.approvalKeys
        (labelOf labels labelComposeProject)

/-- A start would honour the label for one of the bind rules an approval can relax. -/
def startHonours (gate : Installation Key) (labels : Labels) : Bool :=
  covers (honouredFeatures gate labels) "bind-docker-socket" ||
    covers (honouredFeatures gate labels) "bind-outside-roots"

/-! ## Runs -/

/-- The used ids of the running gate, and the creates of the containers there are. -/
structure GateWorld where
  cache : ReplayCache
  file : StateFile
  containers : List Create

/-- No containers yet. -/
def GateWorld.empty (cache : ReplayCache) (file : StateFile) : GateWorld := ⟨cache, file, []⟩

/-- What can happen between two starts: a create, or a restart of the gate that leaves
whatever used ids it leaves. -/
inductive GateEvent
  | create (facts : RequestFacts) (moment : Moment) (imageLabels : Labels)
  | reload (cache : ReplayCache) (file : StateFile)

/-- The create an event is, in a world. -/
def GateWorld.createOf (world : GateWorld) (facts : RequestFacts) (moment : Moment)
    (imageLabels : Labels) : Create where
  facts := facts
  moment := moment
  cache := world.cache
  file := world.file
  imageLabels := imageLabels

/-- One event.  A create with a finding left is refused; the others leave a container. -/
def GateWorld.step (gate : Installation Key) (world : GateWorld) : GateEvent → GateWorld
  | .create facts moment imageLabels =>
      let route := (classifyRoute facts.method facts.path).route
      let reviewed := review facts route (gate.deps moment) [] ⟨world.cache, world.file, []⟩
      { cache := reviewed.2.cache
        file := reviewed.2.file
        containers :=
          if reviewed.1 = [] ∧ route = .containersCreate then
            world.containers ++ [world.createOf facts moment imageLabels]
          else world.containers }
  | .reload cache file => { world with cache, file }

/-- A whole run. -/
def GateWorld.after (gate : Installation Key) (world : GateWorld) (events : List GateEvent) :
    GateWorld :=
  events.foldl (GateWorld.step gate) world

/-- The policy itself has no finding about a create, so no approval is needed for it. -/
def Create.Clean (gate : Installation Key) (create : Create) : Prop :=
  (evaluateDetailed create.facts gate.policy create.moment.runtime).violations = [] ∧
    ownerOf (createLabels create.facts) ≠ .unlabeled

/-- A create that needs no approval is approved nevertheless if a start would honour the
label of its container. -/
def ApprovedIfHonoured (gate : Installation Key) (world : GateWorld) : GateEvent → Prop
  | .create facts moment imageLabels =>
      (world.createOf facts moment imageLabels).Clean gate →
        startHonours gate (world.createOf facts moment imageLabels).labels = true →
          (world.createOf facts moment imageLabels).Approved gate
  | .reload _ _ => True

/-- So it is at every event of a run. -/
def AllApprovedIfHonoured (gate : Installation Key) : GateWorld → List GateEvent → Prop
  | _, [] => True
  | world, event :: events =>
      ApprovedIfHonoured gate world event ∧
        AllApprovedIfHonoured gate (world.step gate event) events

/-- The engine's answer about a container, with whatever host configuration and mounts
it has by now. -/
def inspectAnswer (create : Create) (hostConfig mounts : Json) : Json :=
  .object [("Config", .object [("Labels",
      .object (create.labels.map fun label => (label.1, .string label.2)))]),
    ("HostConfig", hostConfig), ("Mounts", mounts)]

/-- A start or restart of a container is let through although the bind policy has a
finding about it. -/
def StartedAnyway (gate : Installation Key) (create : Create) (facts : RequestFacts)
    (moment : Moment) : Prop :=
  (∃ name, startTarget facts = some name ∧
    ∃ hostConfig mounts,
      moment.inspect ⟨.container, name⟩ = some (inspectAnswer create hostConfig mounts) ∧
      (evaluateStartBinds (startDocOf (inspectAnswer create hostConfig mounts)) gate.policy
        moment.runtime).violations ≠ []) ∧
  ∃ state, (review facts (classifyRoute facts.method facts.path).route (gate.deps moment) []
    state).1 = []

/-! ## The rules of the bind policy -/

/-- The rules of one bind source. -/
def bindRules : List String :=
  ["bind-noncanonical-path", "platform-config-writable", "bind-host-root", "bind-docker-socket",
    "bind-forbidden-path", "bind-outside-roots", "bind-principal-path"]

/-- Every rule `checkMounts` reports. -/
def mountRules : List String :=
  bindRules ++ ["volume-driver"] ++ bindRules.map ("volume-" ++ ·) ++
    ["volume-device", "volume-mount-type", "volume-subpath", "tmpfs-options"]

section Rules

variable {ctx : BindContext} {violation : Violation}

theorem rule_of_bindViolation {resolved : String} {config : PolicyConfig}
    (hfound : bindViolation resolved config = some violation) : violation.rule ∈ bindRules := by
  rw [bindViolation] at hfound
  split at hfound
  · rw [← Option.some.inj hfound]
    simp [bindRules]
  split at hfound
  · rw [← Option.some.inj hfound]
    simp [bindRules]
  split at hfound
  · rw [← Option.some.inj hfound]
    simp [bindRules]
  split at hfound
  · rw [← Option.some.inj hfound]
    simp [bindRules]
  rw [principalViolation] at hfound
  split at hfound
  · exact absurd hfound (by simp)
  split at hfound
  · exact absurd hfound (by simp)
  rw [← Option.some.inj hfound]
  simp [bindRules]

theorem rule_of_platformOutcome {resolved : String} {entry : BindEntry}
    (hfound : platformOutcome resolved entry ctx = some (.violation violation)) :
    violation.rule ∈ bindRules := by
  rw [platformOutcome] at hfound
  split at hfound
  · exact absurd hfound (by simp)
  split at hfound
  · exact absurd hfound (by simp)
  · rw [← BindOutcome.violation.inj (Option.some.inj hfound)]
    simp [bindRules]
  · exact absurd hfound (by simp)

theorem rule_of_checkBindSource {entry : BindEntry}
    (hcheck : checkBindSource entry ctx = .violation violation) :
    violation.rule ∈ bindRules := by
  simp only [checkBindSource] at hcheck
  split at hcheck
  · exact absurd hcheck (by simp)
  split at hcheck
  · rw [← BindOutcome.violation.inj hcheck]
    simp [bindRules]
  split at hcheck
  · exact absurd hcheck (by simp)
  split at hcheck
  · rename_i outcome houtcome
    rw [hcheck] at houtcome
    exact rule_of_platformOutcome houtcome
  · split at hcheck
    · rename_i found hfound
      rw [← BindOutcome.violation.inj hcheck]
      exact rule_of_bindViolation hfound
    · exact absurd hcheck (by simp)

theorem rule_of_checkVolumeDevice {opts : Option Json} {config : PolicyConfig} {runtime : Runtime}
    (hmem : violation ∈ checkVolumeDevice opts config runtime) :
    violation.rule ∈ bindRules.map ("volume-" ++ ·) ++ ["volume-device", "volume-mount-type"] := by
  simp only [checkVolumeDevice] at hmem
  split at hmem
  · exact absurd hmem List.not_mem_nil
  split at hmem
  · split at hmem
    · rename_i verdict hverdict
      rw [List.mem_singleton.mp hmem]
      exact List.mem_append_left _ (List.mem_map_of_mem (rule_of_checkBindSource hverdict))
    · exact absurd hmem List.not_mem_nil
  split at hmem
  · rw [List.mem_singleton.mp hmem]
    simp
  split at hmem
  · rw [List.mem_singleton.mp hmem]
    simp
  · exact absurd hmem List.not_mem_nil

theorem rule_of_checkMountOptions {hostConfig : Json}
    (hmem : violation ∈ checkMountOptions hostConfig) :
    violation.rule ∈ ["volume-subpath", "tmpfs-options"] := by
  rw [checkMountOptions, List.mem_flatMap] at hmem
  obtain ⟨mount, -, hmem⟩ := hmem
  rcases List.mem_append.mp hmem with hsubpath | htmpfs
  · rw [subpathViolation] at hsubpath
    split at hsubpath
    · split at hsubpath
      · exact absurd hsubpath List.not_mem_nil
      split at hsubpath
      · rw [List.mem_singleton.mp hsubpath]
        simp
      · exact absurd hsubpath List.not_mem_nil
    · rw [List.mem_singleton.mp hsubpath]
      simp
  · rw [tmpfsOptionViolations, tmpfsFindings.eq_def] at htmpfs
    split at htmpfs
    · exact absurd htmpfs List.not_mem_nil
    · exact absurd htmpfs List.not_mem_nil
    · obtain ⟨option, -, hoption⟩ := List.mem_flatMap.mp htmpfs
      split at hoption
      · exact absurd hoption List.not_mem_nil
      · rw [List.mem_singleton.mp hoption]
        simp
    · rw [List.mem_singleton.mp htmpfs]
      simp

theorem rule_of_driverViolation {name : Option Json}
    (hfound : driverViolation name = some violation) : violation.rule = "volume-driver" := by
  rw [driverViolation] at hfound
  split at hfound
  · exact absurd hfound (by simp)
  · rw [← Option.some.inj hfound]

theorem rule_of_checkMounts {hostConfig : Json}
    (hmem : violation ∈ (checkMounts hostConfig ctx).violations) :
    violation.rule ∈ mountRules := by
  simp only [checkMounts, List.mem_append, or_assoc] at hmem
  rw [mountRules]
  rcases hmem with hbind | hdriver | hmount | hdevice | hoptions
  · obtain ⟨outcome, houtcome, hfound⟩ := List.mem_filterMap.mp hbind
    obtain ⟨entry, -, hentry⟩ := List.mem_map.mp houtcome
    have hcheck : checkBindSource entry ctx = .violation violation := by
      rw [hentry]
      cases outcome with
      | violation found => rw [Option.some.inj hfound]
      | allowance name => exact absurd hfound (by simp [BindOutcome.violation?])
      | clean => exact absurd hfound (by simp [BindOutcome.violation?])
    have hrule := rule_of_checkBindSource hcheck
    simp [hrule]
  · simp [rule_of_driverViolation (Option.mem_toList.mp hdriver)]
  · obtain ⟨mount, -, hfound⟩ := List.mem_filterMap.mp hmount
    simp [rule_of_driverViolation hfound]
  · obtain ⟨mount, -, hfound⟩ := List.mem_flatMap.mp hdevice
    rcases List.mem_append.mp (rule_of_checkVolumeDevice hfound) with hrule | hrule
    · exact List.mem_append_left _ (List.mem_append_right _ hrule)
    · apply List.mem_append_right
      simp only [List.mem_cons, List.not_mem_nil, or_false] at hrule ⊢
      tauto
  · have hrule := rule_of_checkMountOptions hoptions
    apply List.mem_append_right
    simp only [List.mem_cons, List.not_mem_nil, or_false] at hrule ⊢
    tauto

/-- Of the rules of the bind policy an approval can relax two. -/
theorem covered_mountRule {features : List String} {rule : String} (hrule : rule ∈ mountRules)
    (hcovers : covers features rule = true) :
    (covers features "bind-docker-socket" || covers features "bind-outside-roots") = true := by
  have honly : ∀ rule ∈ mountRules, rule = "bind-docker-socket" ∨ rule = "bind-outside-roots" ∨
      approvableRules.lookup rule = none := by
    decide
  rcases honly rule hrule with heq | heq | hnone
  · rw [← heq, hcovers, Bool.true_or]
  · rw [← heq, hcovers, Bool.or_true]
  · rw [covers, hnone] at hcovers
    exact absurd hcovers (by simp)

/-- What is kept once was there. -/
theorem mem_of_mem_once {α : Type} (seen : List α → α → Bool) (items kept : List α) {a : α}
    (hmem : a ∈ items.foldl (fun kept v => if seen kept v then kept else kept ++ [v]) kept) :
    a ∈ kept ∨ a ∈ items := by
  induction items generalizing kept with
  | nil => exact .inl hmem
  | cons head tail ih =>
      rw [List.foldl_cons] at hmem
      rcases ih _ hmem with hkept | htail
      · split at hkept
        · exact .inl hkept
        · rcases List.mem_append.mp hkept with hkept | hhead
          · exact .inl hkept
          · exact .inr (List.mem_cons.mpr (.inl (List.mem_singleton.mp hhead)))
      · exact .inr (List.mem_cons_of_mem _ htail)

/-- A finding at a start is one of the bind policy, with `start-` in front. -/
theorem rule_of_evaluateStartBinds {doc : StartDoc} {config : PolicyConfig} {runtime : Runtime}
    (hmem : violation ∈ (evaluateStartBinds doc config runtime).violations) :
    ∃ rule ∈ mountRules, violation.rule = "start-" ++ rule := by
  simp only [evaluateStartBinds, List.mem_map] at hmem
  obtain ⟨found, hfound, heq⟩ := hmem
  rcases mem_of_mem_once (fun (kept : List Violation) v =>
    kept.any fun w => w.rule == v.rule && w.detail.getD "" == v.detail.getD "") _ _ hfound with
    hnone | hmem
  · exact absurd hnone List.not_mem_nil
  · exact ⟨found.rule, rule_of_checkMounts hmem, by rw [← heq]⟩

end Rules

/-! ## Starts -/

section Starts

variable {gate : Installation Key} {create : Create} {facts : RequestFacts} {moment : Moment}

theorem lookup_labelsOf (labels : Labels) {name : String} (hname : name ≠ "__proto__") :
    (labelsOf (some (.object (labels.map fun label => (label.1, .string label.2))))).lookup name =
      labels.lookup name := by
  rw [labelsOf]
  induction labels with
  | nil => rfl
  | cons label labels ih =>
      obtain ⟨key, text⟩ := label
      rw [List.map_cons, List.filterMap_cons]
      by_cases hproto : key = "__proto__"
      · have hne : (name == key) = false := by
          rw [hproto]
          exact beq_false_of_ne hname
        simp only [labelEntry, hproto, if_true, ih, List.lookup_cons]
        rw [hproto] at hne
        rw [hne]
      · simp only [labelEntry, hproto, if_false, List.lookup_cons, ih]

theorem labels_startDocOf (hostConfig mounts : Json) {name : String} (hname : name ≠ "__proto__") :
    (startDocOf (inspectAnswer create hostConfig mounts)).labels.lookup name =
      create.labels.lookup name :=
  lookup_labelsOf create.labels hname

theorem honouredFeatures_startDocOf (hostConfig mounts : Json) :
    honouredFeatures gate (startDocOf (inspectAnswer create hostConfig mounts)).labels =
      honouredFeatures gate create.labels := by
  rw [honouredFeatures, honouredFeatures, labels_startDocOf hostConfig mounts (by decide), labelOf,
    labelOf, labels_startDocOf hostConfig mounts (by decide)]

/-- A finding that the container's label removes is one its features cover. -/
theorem covers_of_applyStartApproval {doc : StartDoc} {found : List Violation}
    (hclean : applyStartApproval doc found (gate.deps moment) = []) {violation : Violation}
    (hmem : violation ∈ found) {rule : String} (hrule : violation.rule = "start-" ++ rule) :
    covers (honouredFeatures gate doc.labels) rule = true := by
  cases htoken : doc.labels.lookup approvalLabel with
  | none =>
      simp only [applyStartApproval, htoken] at hclean
      rw [hclean] at hmem
      exact absurd hmem List.not_mem_nil
  | some token =>
      simp only [applyStartApproval, htoken] at hclean
      have hcovered := List.filter_eq_nil_iff.mp hclean violation hmem
      have hafter : afterFront "start-" violation.rule = some rule :=
        afterFront_eq_some_iff.mpr hrule
      rw [hafter, Option.getD_some, Bool.not_eq_true, Bool.not_eq_false'] at hcovered
      simp only [honouredFeatures, htoken]
      exact hcovered

/-- A start with bind findings that is let through honours the container's label. -/
theorem honours_of_startedAnyway (hstarted : StartedAnyway gate create facts moment) :
    startHonours gate create.labels = true := by
  obtain ⟨⟨name, hstart, hostConfig, mounts, hinspect, hfindings⟩, state, hclean⟩ := hstarted
  obtain ⟨state', hunowned⟩ := unownedFinding_of_review hclean
  rw [unownedFinding_of_start hstart] at hunowned
  have hdoc : docFindings name (gate.deps moment)
      (some (startDocOf (inspectAnswer create hostConfig mounts))) = [] := by
    rw [← hunowned]
    show _ = docFindings name _ ((parseInspect (moment.inspect _)).map startDocOf)
    rw [hinspect]
    rfl
  rw [docFindings, List.append_eq_nil_iff] at hdoc
  obtain ⟨violation, hviolation⟩ := List.exists_mem_of_ne_nil _ hfindings
  obtain ⟨rule, hrule, hstartRule⟩ := rule_of_evaluateStartBinds hviolation
  have hcovers := covers_of_applyStartApproval hdoc.2 hviolation hstartRule
  rw [honouredFeatures_startDocOf] at hcovers
  exact covered_mountRule hrule hcovers

end Starts

/-! ## Creates -/

section Creates

variable {gate : Installation Key} {create : Create}

/-- The findings are left as they are unless the token is verified and claimed. -/
theorem applyApproval_eq_or_claimed (facts : RequestFacts) (labels : Labels)
    (violations : List Violation) (deps : ReviewDeps Key) (state : ReviewState) :
    (applyApproval facts labels violations deps state).1 = violations ∨
      ∃ token payload, labels.lookup approvalLabel = some token ∧
        verifyCreate facts labels token deps = .ok payload ∧
        (state.cache.claim deps.enforce state.file payload.jti payload.exp deps.nowSec
          deps.write).1 = true := by
  cases htoken : labels.lookup approvalLabel with
  | none =>
      left
      rw [applyApproval, htoken]
      rfl
  | some token =>
      cases hverified : verifyCreate facts labels token deps with
      | error rejected =>
          left
          simp only [applyApproval, htoken, hverified]
          rfl
      | ok payload =>
          cases hclaim : (state.cache.claim deps.enforce state.file payload.jti payload.exp
              deps.nowSec deps.write).1 with
          | true => exact .inr ⟨token, payload, rfl, hverified, hclaim⟩
          | false =>
              left
              have hanswer : (claimApproval deps payload state).1 = false := hclaim
              rcases hrun : claimApproval deps payload state with ⟨answer, after⟩
              rw [hrun] at hanswer
              simp only at hanswer
              simp only [applyApproval, htoken, hverified, bind, StateT.bind, hrun, hanswer]
              rfl

/-- A create that leaves no finding had none, or its token was verified and claimed. -/
theorem clean_or_approved {facts : RequestFacts} {deps : ReviewDeps Key} {found : List Violation}
    {state : ReviewState} (hclean : (createFindings facts found deps state).1 = []) :
    (found = [] ∧ ownerOf (createLabels facts) ≠ .unlabeled) ∨
      ∃ token payload, (createLabels facts).lookup approvalLabel = some token ∧
        verifyCreate facts (createLabels facts) token deps = .ok payload ∧
        (state.cache.claim deps.enforce state.file payload.jti payload.exp deps.nowSec
          deps.write).1 = true := by
  rw [createFindings] at hclean
  rcases applyApproval_eq_or_claimed facts (createLabels facts) _ deps state with hsame | hclaimed
  · rw [hsame] at hclean
    left
    split at hclean
    · exact absurd hclean (by simp)
    · rename_i howner
      exact ⟨hclean, howner⟩
  · exact .inr hclaimed

theorem lookup_labels_of_createLabels {token : String}
    (htoken : (createLabels create.facts).lookup approvalLabel = some token) :
    create.labels.lookup approvalLabel = some token := by
  rw [Create.labels, List.lookup_append, htoken]
  rfl

/-- A create that is let through is clean or approved. -/
theorem Create.clean_or_approved (hroute :
    (classifyRoute create.facts.method create.facts.path).route = .containersCreate)
    (hclean : (review create.facts
      (classifyRoute create.facts.method create.facts.path).route (gate.deps create.moment) []
      ⟨create.cache, create.file, []⟩).1 = []) :
    create.Clean gate ∨ create.Approved gate := by
  rw [hroute, review_apply_of_create] at hclean
  simp only [List.append_eq_nil_iff] at hclean
  rcases DockerGate.clean_or_approved hclean.1.1 with hclean | ⟨token, payload, htoken, hverified, hclaim⟩
  · exact .inl hclean
  · exact .inr ⟨token, payload, lookup_labels_of_createLabels htoken, htoken, hverified, hclaim⟩

end Creates

/-! ## Runs -/

section Runs

variable {gate : Installation Key} {world : GateWorld}

/-- Every container whose label a start would honour was approved. -/
def Backed (gate : Installation Key) (world : GateWorld) : Prop :=
  ∀ create ∈ world.containers, startHonours gate create.labels = true → create.Approved gate

theorem Backed.step (hbacked : Backed gate world) {event : GateEvent}
    (hevent : ApprovedIfHonoured gate world event) : Backed gate (world.step gate event) := by
  cases event with
  | reload cache file => exact hbacked
  | create facts moment imageLabels =>
      intro create hmem hhonours
      simp only [GateWorld.step] at hmem
      split at hmem
      · rename_i hlet
        rcases List.mem_append.mp hmem with hold | hnew
        · exact hbacked create hold hhonours
        · have hcreate := List.mem_singleton.mp hnew
          rw [hcreate] at hhonours ⊢
          have hcases : (world.createOf facts moment imageLabels).Clean gate ∨
              (world.createOf facts moment imageLabels).Approved gate :=
            Create.clean_or_approved hlet.2 hlet.1
          rcases hcases with hclean | happroved
          · exact hevent hclean hhonours
          · exact happroved
      · exact hbacked create hmem hhonours

theorem Backed.after {events : List GateEvent} (hbacked : Backed gate world)
    (hevents : AllApprovedIfHonoured gate world events) :
    Backed gate (world.after gate events) := by
  induction events generalizing world with
  | nil => exact hbacked
  | cons event events ih => exact ih (hbacked.step hevents.1) hevents.2

end Runs

/-- In every run of creates in which a create that needs no approval is approved
nevertheless if a start would honour its container's label, a start that is let through
although the bind policy has a finding is of a container whose create was approved. -/
theorem approved_of_startedAnyway (gate : Installation Key) (cache : ReplayCache)
    (file : StateFile) (events : List GateEvent)
    (hevents : AllApprovedIfHonoured gate (.empty cache file) events) (create : Create)
    (hmem : create ∈ ((GateWorld.empty cache file).after gate events).containers)
    (facts : RequestFacts) (moment : Moment)
    (hstarted : StartedAnyway gate create facts moment) : create.Approved gate := by
  have hempty : Backed gate (.empty cache file) := fun create hmem =>
    absurd hmem List.not_mem_nil
  exact hempty.after hevents create hmem (honours_of_startedAnyway hstarted)

/-! ## A rejected token that a start honours -/

/-- The body of a create that binds a site's data folder and carries a token. -/
def dataBody (token : String) : Json :=
  .object [("HostConfig", .object [("Binds", .array [.string "/srv/users/ann/data:/d"])]),
    ("Labels", .object [(labelComposeProject, .string "shop"), (approvalLabel, .string token)])]

/-- That create. -/
def dataCreate (token : String) : RequestFacts where
  method := "POST"
  path := "/v1.47/containers/create"
  query := [("name", "web")]
  body := some (dataBody token)
  plainBody := some (dataBody token)

/-- The canonical text of its body without the token, and that text's SHA-256. -/
def dataDigest : String × Bytes :=
  ("\x7b\"HostConfig\":\x7b\"Binds\":[\"/srv/users/ann/data:/d\"]\x7d,\"Labels\":" ++
      "\x7b\"com.docker.compose.project\":\"shop\"\x7d\x7d",
    [72, 9, 31, 80, 216, 168, 234, 10, 61, 190, 142, 17, 177, 71, 20, 46, 131, 78, 15, 52, 131,
      201, 157, 187, 39, 196, 159, 226, 141, 67, 181, 182])

/-- A payload text for another body, and one for this body. -/
def otherText : String :=
  shopText "AAAAAAAAAAAAAAAAAAAAAAAAAAAAAAAAAAAAAAAAAAA" "t1" (toString (101 : ℤ))

/-- A payload text for this body. -/
def dataText : String :=
  shopText "SAkfUNio6go9vo4RsUcULoNODzSDyZ27J8Sf4o1DtbY" "t2" (toString (101 : ℤ))

/-- An installation whose control plane signed both. -/
def shopGate : Installation Unit where
  policy := defaultPolicyConfig
  crypto := signing [otherText, dataText] [dataDigest]
  approvalKeys := [()]

/-- The moment of the create: second 100, every path its own. -/
def createMoment : Moment where
  runtime := plainRuntime
  nowSec := 100
  write := .whole
  inspect := fun _ => none

/-- The container of that create. -/
def dataContainer (token : String) : Create where
  facts := dataCreate token
  moment := createMoment
  cache := ⟨[], false⟩
  file := .absent
  imageLabels := []

/-- A host on which the data folder is a link out of the bind roots. -/
def linkedRuntime : Runtime where
  resolvePath := fun path => some (if path = "/srv/users/ann/data" then "/mnt/shared" else path)
  toUpperCase := plainRuntime.toUpperCase

/-- The moment of a restart, after the data folder was made that link. -/
def restartMoment (token : String) : Moment where
  runtime := linkedRuntime
  nowSec := 5000
  write := .whole
  inspect := fun _ => some (inspectAnswer (dataContainer token)
    (.object [("Binds", .array [.string "/srv/users/ann/data:/d"])]) (.array []))

/-- The restart. -/
def restartWeb : RequestFacts where
  method := "POST"
  path := "/v1.47/containers/web/restart"
  query := []

example : startTarget restartWeb = some "web" := by decide

theorem payloadOfText_otherText : payloadOfText otherText =
    some (shopPayload "AAAAAAAAAAAAAAAAAAAAAAAAAAAAAAAAAAAAAAAAAAA" "t1" 101) :=
  payloadOfText_shopText 101 (by decide +kernel) (by decide) (by decide) (by decide)

theorem payloadOfText_dataText : payloadOfText dataText =
    some (shopPayload "SAkfUNio6go9vo4RsUcULoNODzSDyZ27J8Sf4o1DtbY" "t2" 101) :=
  payloadOfText_shopText 101 (by decide +kernel) (by decide) (by decide) (by decide)

theorem approvalBodyDigest_dataBody (token : String) :
    approvalBodyDigest shopGate.crypto (some (dataBody token)) =
      "SAkfUNio6go9vo4RsUcULoNODzSDyZ27J8Sf4o1DtbY" := by
  have hbody : withoutApproval (dataBody token) = .object
      [("HostConfig", .object [("Binds", .array [.string "/srv/users/ann/data:/d"])]),
        ("Labels", .object [(labelComposeProject, .string "shop")])] := by
    simp [withoutApproval, dataBody, labelComposeProject, approvalLabel]
  rw [approvalBodyDigest, Option.map_some, hbody]
  decide

theorem createLabels_dataCreate (token : String) :
    createLabels (dataCreate token) = [(labelComposeProject, "shop"), (approvalLabel, token)] := by
  simp [createLabels, dataCreate, dataBody, Json.field, labelsOf, labelEntry, List.lookup_cons,
    labelComposeProject, approvalLabel]

theorem lookup_dataCreate (token : String) :
    (createLabels (dataCreate token)).lookup approvalLabel = some token := by
  rw [createLabels_dataCreate]
  simp [List.lookup_cons, labelComposeProject, approvalLabel]

theorem verifyCreate_dataCreate (token : String) :
    verifyCreate (dataCreate token) (createLabels (dataCreate token)) token
        (shopGate.deps createMoment) =
      verifyApproval shopGate.crypto token [()] "shop"
        "SAkfUNio6go9vo4RsUcULoNODzSDyZ27J8Sf4o1DtbY" "web" 100 := by
  have hproject : labelOf (createLabels (dataCreate token)) labelComposeProject = "shop" := by
    rw [createLabels_dataCreate, labelOf, List.lookup_cons_self, Option.getD_some]
  have hdigest := approvalBodyDigest_dataBody token
  rw [verifyCreate, hproject]
  show verifyApproval shopGate.crypto token [()] "shop"
    (approvalBodyDigest shopGate.crypto (some (dataBody token))) _ 100 = _
  rw [hdigest]
  rfl

theorem applyApproval_nil (facts : RequestFacts) (labels : Labels) (deps : ReviewDeps Key)
    (state : ReviewState) : (applyApproval facts labels [] deps state).1 = [] := by
  cases htoken : labels.lookup approvalLabel with
  | none =>
      simp only [applyApproval, htoken]
      rfl
  | some token =>
      cases hverified : verifyCreate facts labels token deps with
      | error rejected =>
          simp only [applyApproval, htoken, hverified]
          rfl
      | ok payload =>
          rcases hrun : claimApproval deps payload state with ⟨answer, after⟩
          simp only [applyApproval, htoken, hverified, bind, StateT.bind, hrun]
          cases answer <;> rfl

theorem GateWorld.mem_step_create {gate : Installation Key} {world : GateWorld}
    {facts : RequestFacts} {moment : Moment} {imageLabels : Labels}
    (hroute : (classifyRoute facts.method facts.path).route = .containersCreate)
    (hlet : (review facts (classifyRoute facts.method facts.path).route (gate.deps moment) []
      ⟨world.cache, world.file, []⟩).1 = []) :
    world.createOf facts moment imageLabels ∈
      (world.step gate (.create facts moment imageLabels)).containers := by
  simp only [GateWorld.step]
  rw [if_pos ⟨hlet, hroute⟩]
  exact List.mem_append_right _ (List.mem_singleton.mpr rfl)

/-- The create is let through, whatever its token is worth. -/
theorem mem_containers_dataCreate {token : String}
    (hclean : (evaluateDetailed (dataCreate token) defaultPolicyConfig plainRuntime).violations = [])
    (howner : ownerOf (createLabels (dataCreate token)) ≠ .unlabeled) :
    dataContainer token ∈ ((GateWorld.empty ⟨[], false⟩ .absent).after shopGate
      [.create (dataCreate token) createMoment []]).containers := by
  have hroute : (classifyRoute (dataCreate token).method (dataCreate token).path).route =
      .containersCreate := by
    show (classifyRoute "POST" "/v1.47/containers/create").route = .containersCreate
    decide
  have hfindings : ∀ state, (review (dataCreate token)
      (classifyRoute (dataCreate token).method (dataCreate token).path).route
      (shopGate.deps createMoment) [] state).1 = [] := by
    intro state
    have hcreated : (createFindings (dataCreate token) [] (shopGate.deps createMoment) state).1 =
        [] := by
      rw [createFindings, if_neg howner]
      exact applyApproval_nil _ _ _ _
    have hstart : startTarget (dataCreate token) = none := by
      show startTarget { method := "POST", path := "/v1.47/containers/create", query := [] } = none
      decide
    have htarget : ownedTarget "POST" (routePath "/v1.47/containers/create") = none := by
      decide
    have hobject : ownedObject "POST" (routePath "/v1.47/containers/create") = none := by
      decide
    have hsubject : ownedSubject (dataCreate token) = none := by
      simp only [ownedSubject, dataCreate, htarget, hobject]
    have hdetail : (evaluateDetailed (dataCreate token) (shopGate.deps createMoment).policy
      (shopGate.deps createMoment).runtime).violations = [] := hclean
    rw [hroute, review_apply_of_create, hdetail]
    simp only [unownedFinding_of_none hstart hsubject, hcreated, List.append_nil]
  exact GateWorld.mem_step_create hroute (hfindings _)

example : (classifyRoute restartWeb.method restartWeb.path).route = .containersAction := by
  decide

/-- A restart that honours host paths is let through, with the data folder a link out of
the bind roots. -/
theorem startedAnyway_restartWeb {token : String}
    (hfeatures : startApprovalFeatures shopGate.crypto token [()] "shop" = ["host-paths"]) :
    StartedAnyway shopGate (dataContainer token) restartWeb (restartMoment token) := by
  have hstart : startTarget restartWeb = some "web" := by decide
  have hlabels : (dataContainer token).labels =
      [(labelComposeProject, "shop"), (approvalLabel, token)] := by
    simp [Create.labels, dataContainer, createLabels_dataCreate]
  have hdoc : startDocOf (inspectAnswer (dataContainer token)
      (.object [("Binds", .array [.string "/srv/users/ann/data:/d"])]) (.array [])) =
      ⟨[(labelComposeProject, "shop"), (approvalLabel, token)],
        .object [("Binds", .array [.string "/srv/users/ann/data:/d"])], []⟩ := by
    rw [inspectAnswer, hlabels]
    simp [startDocOf, labelsFromDoc, Json.field, List.lookup_cons, labelsOf, labelEntry,
      labelComposeProject, approvalLabel, Json.asRecord, Json.items]
  have hplatform : isPlatformContainer
      [(labelComposeProject, "shop"), (approvalLabel, token)] = false := by
    simp [isPlatformContainer, labelOf, List.lookup_cons, labelManagedEngine, labelRole,
      labelComposeProject, approvalLabel, platformRoles]
  have hingress : isIngressContainer
      [(labelComposeProject, "shop"), (approvalLabel, token)] = false := by
    simp [isIngressContainer, List.lookup_cons, labelRole, labelComposeProject, approvalLabel]
  have hbinds : (evaluateStartBinds
      ⟨[(labelComposeProject, "shop"), (approvalLabel, token)],
        .object [("Binds", .array [.string "/srv/users/ann/data:/d"])], []⟩
      defaultPolicyConfig linkedRuntime).violations =
      [⟨"start-bind-outside-roots", some "/mnt/shared"⟩] := by
    simp only [evaluateStartBinds, hplatform, hingress]
    decide
  have howner : ownerOf [(labelComposeProject, "shop"), (approvalLabel, token)] ≠ .unlabeled := by
    rw [ownerOf, hplatform]
    simp [labelOf, List.lookup_cons, labelComposeProject]
  have happly : applyStartApproval
      ⟨[(labelComposeProject, "shop"), (approvalLabel, token)],
        .object [("Binds", .array [.string "/srv/users/ann/data:/d"])], []⟩
      [⟨"start-bind-outside-roots", some "/mnt/shared"⟩]
      (shopGate.deps (restartMoment token)) = [] := by
    have hlookup : [(labelComposeProject, "shop"), (approvalLabel, token)].lookup approvalLabel =
        some token := by
      simp [List.lookup_cons, labelComposeProject, approvalLabel]
    have hproject : labelOf [(labelComposeProject, "shop"), (approvalLabel, token)]
        labelComposeProject = "shop" := by
      simp [labelOf, List.lookup_cons]
    have hcovers : covers ["host-paths"] ((afterFront "start-" "start-bind-outside-roots").getD
        "start-bind-outside-roots") = true := by
      decide
    have hkept : startApprovalFeatures (shopGate.deps (restartMoment token)).crypto token
        (shopGate.deps (restartMoment token)).approvalKeys "shop" = ["host-paths"] := hfeatures
    simp only [applyStartApproval, hlookup, hproject, hkept, List.filter_cons, hcovers,
      Bool.not_true, Bool.false_eq_true, if_false, List.filter_nil]
  have hfindings : docFindings "web" (shopGate.deps (restartMoment token)) (some
      ⟨[(labelComposeProject, "shop"), (approvalLabel, token)],
        .object [("Binds", .array [.string "/srv/users/ann/data:/d"])], []⟩) = [] := by
    have hverdict : (evaluateStartBinds
      ⟨[(labelComposeProject, "shop"), (approvalLabel, token)],
        .object [("Binds", .array [.string "/srv/users/ann/data:/d"])], []⟩
      (shopGate.deps (restartMoment token)).policy
      (shopGate.deps (restartMoment token)).runtime).violations =
      [⟨"start-bind-outside-roots", some "/mnt/shared"⟩] := hbinds
    rw [docFindings, if_neg howner, hverdict, happly]
    rfl
  have hroute : (classifyRoute restartWeb.method restartWeb.path).route = .containersAction := by
    decide
  have hdetail : (evaluateDetailed restartWeb defaultPolicyConfig linkedRuntime).violations = [] := by
    decide
  refine ⟨⟨"web", hstart, _, _, rfl, ?_⟩, ⟨⟨[], false⟩, .absent, []⟩, ?_⟩
  · have hverdict : (evaluateStartBinds (startDocOf (inspectAnswer (dataContainer token)
        (.object [("Binds", .array [.string "/srv/users/ann/data:/d"])]) (.array [])))
        shopGate.policy (restartMoment token).runtime).violations =
        [⟨"start-bind-outside-roots", some "/mnt/shared"⟩] := by
      rw [hdoc]
      exact hbinds
    rw [hverdict]
    exact List.cons_ne_nil _ _
  · rw [review_apply_of_ne_create (by rw [hroute]; decide), unownedFinding_of_start hstart]
    show (evaluateDetailed restartWeb defaultPolicyConfig linkedRuntime).violations ++
      docFindings "web" (shopGate.deps (restartMoment token))
        (some (startDocOf (inspectAnswer (dataContainer token)
          (.object [("Binds", .array [.string "/srv/users/ann/data:/d"])]) (.array [])))) ++ [] = []
    rw [hdetail, hdoc, hfindings]
    rfl

theorem features_of_signedText {text digest jti : String} {exp : ℤ}
    (hmem : text ∈ [otherText, dataText]) (hlength : (utf8 text).length ≤ 2000)
    (hpayload : payloadOfText text = some (shopPayload digest jti exp)) :
    startApprovalFeatures shopGate.crypto (tokenOf text) [()] "shop" = ["host-paths"] := by
  have hsigned : signedPayload shopGate.crypto [()] (tokenOf text) =
      some (shopPayload digest jti exp) := signedPayload_tokenOf hmem hlength hpayload
  rw [startApprovalFeatures_eq, hsigned]
  exact if_pos rfl

/-- The token of another body is rejected at the create, which passes without it, and
honoured at the restart. -/
theorem startedAnyway_unapproved :
    dataContainer (tokenOf otherText) ∈ ((GateWorld.empty ⟨[], false⟩ .absent).after shopGate
      [.create (dataCreate (tokenOf otherText)) createMoment []]).containers ∧
    StartedAnyway shopGate (dataContainer (tokenOf otherText)) restartWeb
      (restartMoment (tokenOf otherText)) ∧
    ¬ (dataContainer (tokenOf otherText)).Approved shopGate := by
  refine ⟨mem_containers_dataCreate (by decide) (by decide),
    startedAnyway_restartWeb (features_of_signedText (by simp) (by decide +kernel)
      payloadOfText_otherText), ?_⟩
  intro happroved
  obtain ⟨token, payload, -, htoken, hverified, -⟩ := happroved
  have hsame : token = tokenOf otherText :=
    (Option.some.inj ((lookup_dataCreate (tokenOf otherText)).symm.trans htoken)).symm
  rw [hsame] at hverified
  have hok := (verifyCreate_dataCreate (tokenOf otherText)).symm.trans hverified
  obtain ⟨hsigned, hclaims⟩ := verifyApproval_eq_ok_iff.mp hok
  have hother : signedPayload shopGate.crypto [()] (tokenOf otherText) = some
      (shopPayload "AAAAAAAAAAAAAAAAAAAAAAAAAAAAAAAAAAAAAAAAAAA" "t1" 101) :=
    signedPayload_tokenOf (by simp) (by decide +kernel) payloadOfText_otherText
  rw [← Option.some.inj (hother.symm.trans hsigned)] at hclaims
  exact absurd hclaims (by decide)

/-- With a token for its own body, the same create is approved and the same restart let
through. -/
theorem approved_dataContainer : StartedAnyway shopGate (dataContainer (tokenOf dataText))
    restartWeb (restartMoment (tokenOf dataText)) ∧
    (dataContainer (tokenOf dataText)).Approved shopGate := by
  have hsigned : signedPayload shopGate.crypto [()] (tokenOf dataText) = some
      (shopPayload "SAkfUNio6go9vo4RsUcULoNODzSDyZ27J8Sf4o1DtbY" "t2" 101) :=
    signedPayload_tokenOf (by simp) (by decide +kernel) payloadOfText_dataText
  have hverified : verifyCreate (dataCreate (tokenOf dataText))
      (createLabels (dataCreate (tokenOf dataText))) (tokenOf dataText)
      (shopGate.deps createMoment) = .ok
        (shopPayload "SAkfUNio6go9vo4RsUcULoNODzSDyZ27J8Sf4o1DtbY" "t2" 101) := by
    rw [verifyCreate_dataCreate, verifyApproval_eq_ok_iff]
    exact ⟨hsigned, by decide⟩
  have happroved : (dataContainer (tokenOf dataText)).Approved shopGate := by
    refine ⟨_, _, lookup_labels_of_createLabels (lookup_dataCreate _), lookup_dataCreate _,
      hverified, ?_⟩
    show (ReplayCache.claim true ⟨[], false⟩ .absent "t2" 101 100 .whole).1 = true
    decide
  have hstarted := startedAnyway_restartWeb (features_of_signedText (by simp) (by decide +kernel)
    payloadOfText_dataText)
  refine ⟨hstarted, approved_of_startedAnyway shopGate ⟨[], false⟩ .absent
    [.create (dataCreate (tokenOf dataText)) createMoment []] ?_ _
    (mem_containers_dataCreate (by decide) (by decide)) restartWeb _ hstarted⟩
  exact ⟨fun _ _ => happroved, trivial⟩

end Turbopaneld.DockerGate
