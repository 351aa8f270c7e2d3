/-
# Which demoted members a tick fences

A tick never issues anything for a cluster without a marker.  It fences every marked cluster
whose lock is free, except in two cases.  A marker that cannot be read and has no usable
member record beside it makes discovery throw, and then no cluster is looked at.  A record
that names an engine without a runtime makes the check of that cluster throw.
-/

import Turbopaneld.Managed.DemotedGuard
import Turbopaneld.Programs.Fallible

namespace Turbopaneld.Managed.DemotedGuard

open Programs

/-! ## What is asked of a tick -/

/-- A docker command that stops or kills. -/
def stopsOrKills (args : List String) : Bool :=
  args.head? = some "stop" || args.head? = some "kill" ||
    (args.take 2 = ["compose", "-p"] && (args[3]? = some "stop" || args[3]? = some "kill"))

def Call.StopsOrKills : Call → Prop
  | .docker args _ => stopsOrKills args = true
  | _ => False

def stopArgs (managedId : String) : List String := ["compose", "-p", managedId, "stop"]

def killArgs (managedId : String) : List String := ["compose", "-p", managedId, "kill"]

/-- The cluster was checked, and unless it was found not writable it got stop commands, and a
kill after them where no check among them found it not writable. -/
def Handled (managedId : String) (history : History) : Prop :=
  ∃ before writable after, history = before ++ ⟨managedId, .checked writable⟩ :: after ∧
    (writable = true → ∃ passes rest, after = passes ++ rest ∧
      (∃ answer, ⟨managedId, .docker (stopArgs managedId) answer⟩ ∈ passes) ∧
      (⟨managedId, .checked false⟩ ∉ passes →
        ∃ answer, ⟨managedId, .docker (killArgs managedId) answer⟩ ∈ rest))

/-- The record the first scan keeps. -/
def usableRecord (host : Host) (managedId : String) : Option MemberRecord :=
  (readManagedHaMember host managedId).filter fun record =>
    !isManagedMemberDestroyed host managedId (some record.memberId)

/-- What discovery makes of a marked cluster. -/
def targetOf (host : Host) (managedId : String) : Except String FenceTarget :=
  match usableRecord host managedId with
  | some record => .ok (recordTarget record)
  | none => orphanTarget host managedId

/-- The member id the guard knows a cluster by. -/
def memberIdOf (host : Host) (managedId : String) : Option String :=
  match targetOf host managedId with
  | .ok target => target.memberId.filter (· ≠ "")
  | .error _ => none

/-- A cluster that has to be handled: on the host, with a marker, not destroyed, its lifecycle
lock free. -/
structure Eligible (host : Host) (managedId : String) : Prop where
  cluster : managedId ∈ host.clusters
  demoted : (host.files managedId).demoted ≠ .missing
  not_destroyed : isManagedMemberDestroyed host managedId (memberIdOf host managedId) = false
  lock_free : host.tryLock managedId = .ok true

/-- Every marked cluster is handled and nothing else is touched. -/
structure Guards (host : Host) (history : History) : Prop where
  handled : ∀ managedId, Eligible host managedId → Handled managedId history
  untouched : ∀ event ∈ history, event.call.StopsOrKills →
    (host.files event.managedId).demoted ≠ .missing

/-- The state directory can be listed, and a marker that cannot be read has a usable record
beside it. -/
structure Discovers (host : Host) : Prop where
  listed : host.readDirFailure = none
  readable : ∀ managedId ∈ host.clusters, (host.files managedId).demoted = .unreadable →
    usableRecord host managedId ≠ none

/-- The engine of a cluster, as its record, its marker or its compose file names it, has a
runtime. -/
def HasRuntime (host : Host) (managedId : String) : Prop :=
  ∀ target, targetOf host managedId = .ok target → runtimeOf target.engine ≠ none

/-- When a tick does what is asked of it. -/
def GuardsWhen (host : Host) : Prop :=
  (∀ managedId, ¬Eligible host managedId) ∨
    Discovers host ∧ ∀ managedId, Eligible host managedId → HasRuntime host managedId

/-! ## Discovery -/

section

variable {host : Host}

theorem isManagedMemberDemoted_iff {managedId : String} :
    isManagedMemberDemoted host managedId = true ↔ (host.files managedId).demoted ≠ .missing := by
  rw [isManagedMemberDemoted]
  cases (host.files managedId).demoted with
  | missing => simp
  | unreadable => simp
  | contents value => simp

theorem managedId_of_orphanTarget {managedId : String} {target : FenceTarget}
    (h : orphanTarget host managedId = .ok target) : target.managedId = managedId := by
  obtain ⟨marker, -, htarget⟩ := bind_eq_ok_iff.mp h
  rw [← Except.ok.inj htarget]

theorem orphanTarget_error_iff {managedId : String} :
    (∃ failure, orphanTarget host managedId = .error failure) ↔
      (host.files managedId).demoted = .unreadable := by
  rw [orphanTarget, readManagedDemotedMarker]
  cases (host.files managedId).demoted with
  | missing => simp [bind, Except.bind, pure, Except.pure]
  | unreadable => simp [bind, Except.bind]
  | contents value => simp [bind, Except.bind, pure, Except.pure]

/-- One marker after the other: what is found stays, and every marker gets a target. -/
theorem foldlM_addOrphan {ids : List String} {byId targets : List FenceTarget}
    (h : ids.foldlM (addOrphanDemotedFenceTarget host) byId = .ok targets) :
    (∀ target ∈ byId, target ∈ targets) ∧
      (∀ target ∈ targets, target ∈ byId ∨ (target.managedId ∈ ids ∧
        (∀ other ∈ byId, other.managedId ≠ target.managedId) ∧
        orphanTarget host target.managedId = .ok target)) ∧
      ∀ id ∈ ids, ∃ target ∈ targets, target.managedId = id := by
  induction ids generalizing byId with
  | nil =>
    obtain rfl := Except.ok.inj h
    exact ⟨fun _ h => h, fun _ h => .inl h, fun _ h => absurd h List.not_mem_nil⟩
  | cons id ids ih =>
    rw [List.foldlM_cons] at h
    obtain ⟨next, hnext, hrest⟩ := bind_eq_ok_iff.mp h
    obtain ⟨hkept, hfound, hall⟩ := ih hrest
    rw [addOrphanDemotedFenceTarget] at hnext
    split at hnext
    · rename_i hknown
      obtain rfl := Except.ok.inj hnext
      refine ⟨hkept, ?_, ?_⟩
      · intro target htarget
        rcases hfound target htarget with hold | ⟨hmem, hnew⟩
        · exact .inl hold
        · exact .inr ⟨List.mem_cons_of_mem _ hmem, hnew⟩
      · intro other hother
        rcases List.mem_cons.mp hother with rfl | hmem
        · obtain ⟨target, htarget, hid⟩ := List.any_eq_true.mp hknown
          exact ⟨target, hkept target htarget, by simpa using hid⟩
        · exact hall other hmem
    · rename_i hknown
      obtain ⟨target, htarget, hnext⟩ := bind_eq_ok_iff.mp hnext
      obtain rfl := Except.ok.inj hnext
      have hid := managedId_of_orphanTarget htarget
      have hnew : ∀ other ∈ byId, other.managedId ≠ id := by
        intro other hother heq
        exact hknown (List.any_eq_true.mpr ⟨other, hother, by simpa using heq⟩)
      refine ⟨fun other hother => hkept other (List.mem_append_left _ hother), ?_, ?_⟩
      · intro other hother
        rcases hfound other hother with hold | ⟨hmem, hfresh, horphan⟩
        · rcases List.mem_append.mp hold with hold | hlast
          · exact .inl hold
          · rw [List.mem_singleton.mp hlast, hid]
            exact .inr ⟨List.mem_cons_self, hnew, htarget⟩
        · exact .inr ⟨List.mem_cons_of_mem _ hmem,
            fun old hold => hfresh old (List.mem_append_left _ hold), horphan⟩
      · intro other hother
        rcases List.mem_cons.mp hother with rfl | hmem
        · exact ⟨target, hkept target (List.mem_append_right _ (List.mem_singleton_self _)), hid⟩
        · exact hall other hmem

/-- Only a marker that cannot be read ends the walk early. -/
theorem foldlM_addOrphan_isOk {ids : List String} {byId : List FenceTarget}
    (h : ∀ id ∈ ids, (∃ target ∈ byId, target.managedId = id) ∨
      ∃ target, orphanTarget host id = .ok target) :
    ∃ targets, ids.foldlM (addOrphanDemotedFenceTarget host) byId = .ok targets := by
  induction ids generalizing byId with
  | nil => exact ⟨byId, rfl⟩
  | cons id ids ih =>
    obtain ⟨hid, hids⟩ := List.forall_mem_cons.mp h
    rw [List.foldlM_cons]
    by_cases hknown : (byId.any (·.managedId == id)) = true
    · have hnext : addOrphanDemotedFenceTarget host byId id = .ok byId := by
        rw [addOrphanDemotedFenceTarget, if_pos hknown]
      rw [hnext]
      exact ih hids
    · rcases hid with ⟨target, htarget, heq⟩ | ⟨target, htarget⟩
      · exact absurd (List.any_eq_true.mpr ⟨target, htarget, by simpa using heq⟩) hknown
      · have hnext : addOrphanDemotedFenceTarget host byId id = .ok (byId ++ [target]) := by
          rw [addOrphanDemotedFenceTarget, if_neg hknown, htarget]
          rfl
        rw [hnext]
        refine ih ?_
        intro other hother
        rcases hids other hother with ⟨found, hfound, heq⟩ | horphan
        · exact .inl ⟨found, List.mem_append_left _ hfound, heq⟩
        · exact .inr horphan

/-- The records the first scan keeps, with a marker. -/
theorem mem_markedMembers_iff (hlisted : host.readDirFailure = none) {record : MemberRecord} :
    record ∈ (listManagedHaMembers host).filter (fun record =>
        isManagedMemberDemoted host record.managedId) ↔
      record.managedId ∈ host.clusters ∧ usableRecord host record.managedId = some record ∧
        isManagedMemberDemoted host record.managedId = true := by
  have hown : ∀ {id : String}, readManagedHaMember host id = some record →
      record.managedId = id := by
    intro id hread
    rw [readManagedHaMember] at hread
    split at hread
    · exact of_decide_eq_true (Option.filter_eq_some_iff.mp hread).2
    · cases hread
  simp only [listManagedHaMembers, hlisted, List.mem_filter, List.mem_filterMap, usableRecord,
    Option.filter_eq_some_iff]
  constructor
  · rintro ⟨⟨⟨id, hid, hread⟩, hlive⟩, hdemoted⟩
    rw [hown hread] at hlive ⊢
    rw [hown hread] at hdemoted
    exact ⟨hid, ⟨hread, hlive⟩, hdemoted⟩
  · rintro ⟨hid, ⟨hread, hlive⟩, hdemoted⟩
    exact ⟨⟨⟨_, hid, hread⟩, hlive⟩, hdemoted⟩

/-- The targets of the first scan. -/
def recordTargets (host : Host) : List FenceTarget :=
  ((listManagedHaMembers host).filter fun record =>
    isManagedMemberDemoted host record.managedId).map recordTarget

theorem mem_recordTargets_iff (hlisted : host.readDirFailure = none) {target : FenceTarget} :
    target ∈ recordTargets host ↔ ∃ record, usableRecord host target.managedId = some record ∧
      recordTarget record = target ∧ target.managedId ∈ host.clusters ∧
      isManagedMemberDemoted host target.managedId = true := by
  rw [recordTargets, List.mem_map]
  constructor
  · rintro ⟨record, hrecord, rfl⟩
    obtain ⟨hcluster, husable, hdemoted⟩ := (mem_markedMembers_iff hlisted).mp hrecord
    exact ⟨record, husable, rfl, hcluster, hdemoted⟩
  · rintro ⟨record, husable, rfl, hcluster, hdemoted⟩
    exact ⟨record, (mem_markedMembers_iff hlisted).mpr ⟨hcluster, husable, hdemoted⟩, rfl⟩

theorem managedId_of_usableRecord {id : String} {record : MemberRecord}
    (h : usableRecord host id = some record) : record.managedId = id := by
  rw [usableRecord, Option.filter_eq_some_iff] at h
  have hread := h.1
  rw [readManagedHaMember] at hread
  split at hread
  · exact of_decide_eq_true (Option.filter_eq_some_iff.mp hread).2
  · cases hread

/-- A marked cluster with a usable record has its target from the first scan. -/
theorem exists_recordTarget_iff (hlisted : host.readDirFailure = none) {id : String}
    (hcluster : id ∈ host.clusters) (hdemoted : isManagedMemberDemoted host id = true) :
    (∃ target ∈ recordTargets host, target.managedId = id) ↔ usableRecord host id ≠ none := by
  constructor
  · rintro ⟨target, htarget, rfl⟩
    obtain ⟨record, husable, -⟩ := (mem_recordTargets_iff hlisted).mp htarget
    rw [husable]
    exact Option.some_ne_none record
  · intro husable
    obtain ⟨record, hrecord⟩ := Option.ne_none_iff_exists'.mp husable
    have hid : (recordTarget record).managedId = id := managedId_of_usableRecord hrecord
    refine ⟨recordTarget record, (mem_recordTargets_iff hlisted).mpr ⟨record, ?_⟩, hid⟩
    rw [hid]
    exact ⟨hrecord, rfl, hcluster, hdemoted⟩

theorem listDemotedFenceTargets_eq (hlisted : host.readDirFailure = none) :
    listDemotedFenceTargets host = (host.clusters.filter (isManagedMemberDemoted host)).foldlM
      (addOrphanDemotedFenceTarget host) (recordTargets host) := by
  rw [listDemotedFenceTargets, listDemotedManagedIds, hlisted]
  rfl

/-- What discovery finds: the target of every marked cluster, and nothing else. -/
theorem listDemotedFenceTargets_spec (hlisted : host.readDirFailure = none)
    {targets : List FenceTarget} (h : listDemotedFenceTargets host = .ok targets) :
    (∀ target ∈ targets, target.managedId ∈ host.clusters ∧
        isManagedMemberDemoted host target.managedId = true ∧
        targetOf host target.managedId = .ok target) ∧
      ∀ id ∈ host.clusters, isManagedMemberDemoted host id = true →
        ∃ target ∈ targets, target.managedId = id := by
  rw [listDemotedFenceTargets_eq hlisted] at h
  obtain ⟨-, hfound, hall⟩ := foldlM_addOrphan h
  constructor
  · intro target htarget
    rcases hfound target htarget with hrecord | ⟨hid, hfresh, horphan⟩
    · obtain ⟨record, husable, hrecord, hcluster, hdemoted⟩ :=
        (mem_recordTargets_iff hlisted).mp hrecord
      refine ⟨hcluster, hdemoted, ?_⟩
      rw [targetOf, husable]
      exact congrArg Except.ok hrecord
    · obtain ⟨hcluster, hdemoted⟩ := List.mem_filter.mp hid
      refine ⟨hcluster, hdemoted, ?_⟩
      have hnone : usableRecord host target.managedId = none := by
        by_contra husable
        obtain ⟨other, hother, heq⟩ :=
          (exists_recordTarget_iff hlisted hcluster hdemoted).mpr husable
        exact hfresh other hother heq
      rw [targetOf, hnone, horphan]
  · intro id hcluster hdemoted
    exact hall id (List.mem_filter.mpr ⟨hcluster, hdemoted⟩)

/-- Discovery succeeds unless a marker without a usable record cannot be read. -/
theorem listDemotedFenceTargets_isOk_iff (hlisted : host.readDirFailure = none) :
    (∃ targets, listDemotedFenceTargets host = .ok targets) ↔ Discovers host := by
  have hdemoted : ∀ {id}, (host.files id).demoted = .unreadable →
      isManagedMemberDemoted host id = true := by
    intro id hunreadable
    rw [isManagedMemberDemoted_iff, hunreadable]
    exact FileRead.noConfusion
  constructor
  · rintro ⟨targets, htargets⟩
    refine ⟨hlisted, ?_⟩
    intro id hcluster hunreadable hnone
    obtain ⟨hspec, hall⟩ := listDemotedFenceTargets_spec hlisted htargets
    obtain ⟨target, htarget, rfl⟩ := hall id hcluster (hdemoted hunreadable)
    have horphan := (hspec target htarget).2.2
    rw [targetOf, hnone] at horphan
    obtain ⟨failure, hfailure⟩ := orphanTarget_error_iff.mpr hunreadable
    rw [hfailure] at horphan
    cases horphan
  · intro hdiscovers
    rw [listDemotedFenceTargets_eq hlisted]
    refine foldlM_addOrphan_isOk ?_
    intro id hid
    obtain ⟨hcluster, hmarked⟩ := List.mem_filter.mp hid
    rw [exists_recordTarget_iff hlisted hcluster hmarked]
    by_cases husable : usableRecord host id = none
    · refine .inr ?_
      cases horphan : orphanTarget host id with
      | ok target => exact ⟨target, rfl⟩
      | error failure =>
        have hunreadable := orphanTarget_error_iff.mp ⟨failure, horphan⟩
        exact absurd husable (hdiscovers.readable id hcluster hunreadable)
    · exact .inl husable

/-! ## The calls of a tick -/

variable {world : World} {managedId engine : String}

/-- A call for this cluster that is not a check's result. -/
def Quiet (managedId : String) (event : Event) : Prop :=
  event.managedId = managedId ∧ ∀ writable, event.call ≠ .checked writable

theorem quiet_run (args : List String) : LogsOnly (run world managedId args) (Quiet managedId) :=
  logsOnly_perform fun _ => ⟨rfl, fun _ => Call.noConfusion⟩

theorem quiet_bestEffort {α : Type} {part : Part α} (h : LogsOnly part (Quiet managedId)) :
    LogsOnly (bestEffort part) (Quiet managedId) :=
  h.attempt.bind fun _ => LogsOnly.pure ()

theorem quiet_keepNote : LogsOnly (keepNote world managedId) (Quiet managedId) :=
  quiet_bestEffort (logsOnly_perform fun _ => ⟨rfl, fun _ => Call.noConfusion⟩)

theorem quiet_listComposeProjectContainerIds :
    LogsOnly (listComposeProjectContainerIds world managedId) (Quiet managedId) := by
  refine (quiet_run _).bind ?_
  intro listed
  split
  · exact LogsOnly.pure _
  · exact LogsOnly.pure _

theorem quiet_collectRunning :
    LogsOnly (collectRunningContainersByComposeProjectLabel world managedId) (Quiet managedId) := by
  refine (quiet_run _).bind ?_
  intro listed
  split
  · dsimp only
    split
    · exact LogsOnly.pure _
    · exact (quiet_run _).bind fun _ => LogsOnly.pure _
  · exact LogsOnly.pure _

theorem quiet_fallback :
    LogsOnly (fallbackComposeProjectContainerIds world managedId) (Quiet managedId) := by
  refine quiet_collectRunning.bind ?_
  intro byLabel
  split
  · exact LogsOnly.pure _
  · refine (quiet_run _).bind ?_
    intro composeListed
    split
    · exact LogsOnly.pure _
    · split
      · exact LogsOnly.pure _
      · exact LogsOnly.pure _

theorem quiet_stopOrKill (refs : List String) :
    LogsOnly (stopOrKill world managedId refs) (Quiet managedId) := by
  rw [stopOrKill]
  split
  · exact LogsOnly.pure _
  · refine (quiet_run _).bind ?_
    intro stopped
    split
    · exact LogsOnly.pure _
    · exact (quiet_run _).bind fun _ => LogsOnly.pure _

theorem quiet_orNext {ids : Option (List String)} {next : Part (Option (List String))}
    (h : LogsOnly next (Quiet managedId)) : LogsOnly (orNext ids next) (Quiet managedId) := by
  cases ids with
  | some ids => exact LogsOnly.pure _
  | none => exact h

theorem quiet_forceStop :
    LogsOnly (forceStopComposeProjectContainers host world managedId) (Quiet managedId) := by
  refine quiet_listComposeProjectContainerIds.bind fun first => ?_
  refine (quiet_orNext quiet_listComposeProjectContainerIds).bind fun second => ?_
  refine (quiet_orNext quiet_fallback).bind fun ids => ?_
  cases ids with
  | none => exact (quiet_run _).bind fun _ => quiet_stopOrKill _
  | some ids => exact quiet_stopOrKill ids

theorem quiet_killRefs (refs : List String) :
    LogsOnly (killRefs world managedId refs) (Quiet managedId) := by
  rw [killRefs]
  split
  · exact LogsOnly.pure _
  · exact (quiet_run _).bind fun _ => LogsOnly.pure _

theorem quiet_collectManagedContainers :
    LogsOnly (collectManagedContainers world managedId) (Quiet managedId) := by
  refine (quiet_run _).attempt.bind ?_
  intro listed
  cases listed with
  | error failure => exact LogsOnly.pure _
  | ok result =>
    dsimp only
    split
    · exact LogsOnly.pure _
    · exact LogsOnly.pure _

theorem quiet_stillWritable : LogsOnly (stillWritable world managedId engine) (Quiet managedId) := by
  rw [stillWritable]
  cases runtimeOf engine with
  | none => exact LogsOnly.fail _
  | some runtime =>
    cases runtime with
    | inherited => exact LogsOnly.pure _
    | engine _ =>
      refine quiet_collectManagedContainers.bind ?_
      intro observed
      split
      · exact LogsOnly.pure _
      · exact LogsOnly.pure _
      · refine LogsOnly.bind ?_ ?_
        · exact LogsOnly.attempt (logsOnly_perform fun _ => ⟨rfl, fun _ => Call.noConfusion⟩)
        · intro probed
          cases probed with
          | ok writable => exact LogsOnly.pure _
          | error failure => exact LogsOnly.pure _

theorem returns_keepNote : Returns (keepNote world managedId) :=
  (Returns.attempt _).bind fun _ => Returns.pure _

theorem returns_collectManagedContainers : Returns (collectManagedContainers world managedId) := by
  refine (Returns.attempt _).bind ?_
  intro listed
  cases listed with
  | error failure => exact Returns.pure _
  | ok result =>
    dsimp only
    split
    · exact Returns.pure _
    · exact Returns.pure _

theorem returns_stillWritable (h : runtimeOf engine ≠ none) :
    Returns (stillWritable world managedId engine) := by
  rw [stillWritable]
  cases hruntime : runtimeOf engine with
  | none => exact absurd hruntime h
  | some runtime =>
    cases runtime with
    | inherited => exact Returns.pure _
    | engine _ =>
      refine returns_collectManagedContainers.bind ?_
      intro observed
      split
      · exact Returns.pure _
      · exact Returns.pure _
      · refine (Returns.attempt _).bind ?_
        intro probed
        cases probed with
        | ok writable => exact Returns.pure _
        | error failure => exact Returns.pure _

theorem returns_enforceFencedReadOnlySql (h : runtimeOf engine ≠ none) :
    Returns (enforceFencedReadOnlySql world managedId engine) := by
  rw [enforceFencedReadOnlySql]
  cases hruntime : runtimeOf engine with
  | none => exact absurd hruntime h
  | some runtime =>
    cases runtime with
    | inherited => exact Returns.pure _
    | engine _ =>
      refine returns_collectManagedContainers.bind ?_
      intro containers
      split
      · refine (Returns.attempt _).bind ?_
        intro enforced
        cases enforced with
        | ok _ => exact Returns.pure _
        | error failure => exact returns_keepNote
      · exact Returns.pure _

theorem quiet_enforceFencedReadOnlySql :
    LogsOnly (enforceFencedReadOnlySql world managedId engine) (Quiet managedId) := by
  rw [enforceFencedReadOnlySql]
  cases runtimeOf engine with
  | none => exact LogsOnly.fail _
  | some runtime =>
    cases runtime with
    | inherited => exact LogsOnly.pure _
    | engine _ =>
      refine quiet_collectManagedContainers.bind ?_
      intro containers
      split
      · refine LogsOnly.bind
          (LogsOnly.attempt (logsOnly_perform fun _ => ⟨rfl, fun _ => Call.noConfusion⟩)) ?_
        intro enforced
        cases enforced with
        | ok _ => exact LogsOnly.pure _
        | error failure => exact quiet_keepNote
      · exact LogsOnly.pure _

theorem returns_persistDemotedVolumeFence :
    Returns (persistDemotedVolumeFenceBestEffort world managedId) := by
  refine (Returns.attempt _).bind ?_
  intro planted
  cases planted with
  | ok _ => exact Returns.pure _
  | error failure => exact returns_keepNote

theorem quiet_persistDemotedVolumeFence :
    LogsOnly (persistDemotedVolumeFenceBestEffort world managedId) (Quiet managedId) := by
  refine LogsOnly.bind
    (LogsOnly.attempt (logsOnly_perform fun _ => ⟨rfl, fun _ => Call.noConfusion⟩)) ?_
  intro planted
  cases planted with
  | ok _ => exact LogsOnly.pure _
  | error failure => exact quiet_keepNote

/-- A check ends with its result; it throws only where the engine has no runtime. -/
theorem logs_isFencedMemberStillWritable (world : World) (managedId engine : String) :
    Logs (isFencedMemberStillWritable world managedId engine)
      (fun writable entries => ∃ front, entries = front ++ [⟨managedId, .checked writable⟩] ∧
        ∀ event ∈ front, Quiet managedId event)
      (fun _ entries => ∀ event ∈ entries, Quiet managedId event) := by
  refine Logs.bind (Q := fun _ entries => ∀ event ∈ entries, Quiet managedId event)
    quiet_stillWritable ?_
  intro writable front hfront
  refine Logs.bind (Q := fun _ entries => entries = [⟨managedId, .checked writable⟩])
    ((logs_append _).conseq (fun _ _ h => h) (fun _ _ h => h.elim)) ?_
  rintro _ _ rfl
  exact Logs.pure ⟨front, rfl, hfront⟩

theorem returns_isFencedMemberStillWritable (h : runtimeOf engine ≠ none) :
    Returns (isFencedMemberStillWritable world managedId engine) :=
  (returns_stillWritable h).bind fun _ => (Returns.append _).bind fun _ => Returns.pure _

/-! ## Stopping -/

/-- Calls for this cluster. -/
def About (managedId : String) (entries : History) : Prop :=
  ∀ event ∈ entries, event.managedId = managedId

theorem about_of_quiet {entries : History} (h : ∀ event ∈ entries, Quiet managedId event) :
    About managedId entries :=
  fun event hevent => (h event hevent).1

theorem about_append {front entries : History} (hfront : About managedId front)
    (hentries : About managedId entries) : About managedId (front ++ entries) := by
  intro event hevent
  rcases List.mem_append.mp hevent with h | h
  · exact hfront event h
  · exact hentries event h

/-- A docker command was issued for the cluster. -/
def Issued (managedId : String) (args : List String) (entries : History) : Prop :=
  ∃ answer, ⟨managedId, .docker args answer⟩ ∈ entries

/-- The first command of a part is issued whatever comes of it. -/
theorem logs_run_bind {α : Type} {args : List String} {next : DockerResult → Part α}
    (hnext : ∀ result, LogsOnly (next result) (Quiet managedId)) :
    Logs (run world managedId args >>= next)
      (fun _ entries => About managedId entries ∧ Issued managedId args entries)
      (fun _ entries => About managedId entries ∧ Issued managedId args entries) := by
  have hself : ∀ answer, About managedId [⟨managedId, .docker args answer⟩] := by
    intro answer event hevent
    rw [List.mem_singleton.mp hevent]
  refine Logs.bind (Q := fun result entries =>
    entries = [⟨managedId, .docker args (.ok result)⟩]) ?_ ?_
  · refine (logs_perform _ _).conseq (fun _ _ h => h) ?_
    rintro failure _ rfl
    exact ⟨hself _, _, List.mem_singleton_self _⟩
  · rintro result _ rfl
    have hrest : ∀ entries : History, (∀ event ∈ entries, Quiet managedId event) →
        About managedId ([⟨managedId, .docker args (.ok result)⟩] ++ entries) ∧
          Issued managedId args ([⟨managedId, .docker args (.ok result)⟩] ++ entries) := by
      intro entries hentries
      exact ⟨about_append (hself _) (about_of_quiet hentries), _, List.mem_cons_self⟩
    exact (hnext result).conseq (fun _ => hrest) (fun _ => hrest)

theorem logs_stopDemotedEngine (host : Host) (world : World) (managedId : String) :
    Logs (stopDemotedEngine host world managedId)
      (fun _ entries => About managedId entries ∧ Issued managedId (stopArgs managedId) entries)
      (fun _ entries => About managedId entries ∧ Issued managedId (stopArgs managedId) entries) :=
  logs_run_bind fun _ => quiet_forceStop

theorem logs_killDemotedEngine (host : Host) (world : World) (managedId : String) :
    Logs (killDemotedEngine host world managedId)
      (fun _ entries => About managedId entries ∧ Issued managedId (killArgs managedId) entries)
      (fun _ entries => About managedId entries ∧ Issued managedId (killArgs managedId) entries) :=
  logs_run_bind fun _ => quiet_fallback.bind fun _ =>
    (quiet_killRefs _).bind fun _ => quiet_killRefs _

theorem Issued.append_left {args : List String} {front entries : History}
    (h : Issued managedId args front) : Issued managedId args (front ++ entries) := by
  obtain ⟨answer, hmem⟩ := h
  exact ⟨answer, List.mem_append_left _ hmem⟩

/-- The stop passes: the first one issues a stop, and only a check that finds the engine not
writable ends them with success. -/
theorem logs_stopUntilNotWritable (host : Host) (world : World) (managedId engine : String)
    (passes : ℕ) :
    Logs (stopUntilNotWritable host world managedId engine passes)
      (fun stopped entries => About managedId entries ∧
        (0 < passes → Issued managedId (stopArgs managedId) entries) ∧
        (stopped = true → ⟨managedId, .checked false⟩ ∈ entries))
      (fun _ entries => About managedId entries ∧
        (0 < passes → Issued managedId (stopArgs managedId) entries)) := by
  induction passes with
  | zero =>
    exact Logs.pure ⟨fun _ h => absurd h List.not_mem_nil, fun h => absurd h (lt_irrefl 0),
      fun h => absurd h Bool.false_ne_true⟩
  | succ passesLeft ih =>
    refine Logs.bind (Q := fun _ entries => About managedId entries ∧
      Issued managedId (stopArgs managedId) entries) ?_ ?_
    · exact (logs_stopDemotedEngine host world managedId).conseq (fun _ _ h => h)
        (fun _ _ h => ⟨h.1, fun _ => h.2⟩)
    rintro _ stops ⟨hstops, hissued⟩
    refine Logs.bind (Q := fun writable entries => About managedId entries ∧
      ⟨managedId, .checked writable⟩ ∈ entries) ?_ ?_
    · refine (logs_isFencedMemberStillWritable world managedId engine).conseq ?_ ?_
      · rintro writable _ ⟨front, rfl, hfront⟩
        refine ⟨about_append (about_of_quiet hfront) ?_, by simp⟩
        intro event hevent
        rw [List.mem_singleton.mp hevent]
      · intro failure entries hentries
        exact ⟨about_append hstops (about_of_quiet hentries), fun _ => hissued.append_left⟩
    rintro writable check ⟨hcheck, hmem⟩
    cases writable with
    | true =>
      refine ih.conseq ?_ ?_
      · rintro stopped entries ⟨hentries, -, hstopped⟩
        refine ⟨about_append hstops (about_append hcheck hentries),
          fun _ => hissued.append_left, ?_⟩
        intro h
        exact List.mem_append_right _ (List.mem_append_right _ (hstopped h))
      · rintro failure entries ⟨hentries, -⟩
        exact ⟨about_append hstops (about_append hcheck hentries), fun _ => hissued.append_left⟩
    | false =>
      refine Logs.pure ?_
      rw [List.append_nil]
      exact ⟨about_append hstops hcheck, fun _ => hissued.append_left,
        fun _ => List.mem_append_right _ hmem⟩

/-- An escalation issues a kill, whatever comes of it. -/
theorem logs_escalate (host : Host) (world : World) (managedId : String) :
    Logs (escalate host world managedId)
      (fun _ entries => About managedId entries ∧ Issued managedId (killArgs managedId) entries)
      (fun _ _ => False) := by
  refine Logs.bind (Q := fun _ entries => About managedId entries ∧
    Issued managedId (killArgs managedId) entries) ?_ ?_
  · refine Logs.bind (Q := fun _ entries => About managedId entries ∧
      Issued managedId (killArgs managedId) entries)
      (Logs.attempt (logs_killDemotedEngine host world managedId)) ?_
    intro outcome entries hentries
    refine Logs.pure ?_
    rwa [List.append_nil]
  · rintro _ entries ⟨hentries, hissued⟩
    refine (Logs.of_returns quiet_keepNote returns_keepNote).conseq ?_ (fun _ _ h => h)
    intro _ more hmore
    exact ⟨about_append hentries (about_of_quiet hmore), hissued.append_left⟩

/-! ## One cluster -/

/-- What follows a check that found the engine writable. -/
def StoppedAfter (managedId : String) (after : History) : Prop :=
  ∃ passes rest, after = passes ++ rest ∧ Issued managedId (stopArgs managedId) passes ∧
    (⟨managedId, .checked false⟩ ∉ passes → Issued managedId (killArgs managedId) rest)

theorem StoppedAfter.append_left {entries : History} (h : StoppedAfter managedId entries)
    (front : History) : StoppedAfter managedId (front ++ entries) := by
  obtain ⟨passes, rest, rfl, ⟨answer, hissued⟩, hkill⟩ := h
  refine ⟨front ++ passes, rest, by rw [List.append_assoc],
    ⟨answer, List.mem_append_right _ hissued⟩, ?_⟩
  intro hnot
  exact hkill fun hmem => hnot (List.mem_append_right _ hmem)

/-- Stop passes and, where they did not help, a kill. -/
theorem logs_stopPasses (host : Host) (world : World) (managedId engine : String) :
    Logs (do
        let stopped ← Prog.attempt (stopUntilNotWritable host world managedId engine maxStopPasses)
        match stopped with
        | .ok true => keepNote world managedId
        | _ => escalate host world managedId)
      (fun _ entries => About managedId entries ∧ StoppedAfter managedId entries)
      (fun _ _ => False) := by
  refine Logs.bind (Q := fun stopped entries => About managedId entries ∧
    Issued managedId (stopArgs managedId) entries ∧
    (stopped = .ok true → ⟨managedId, .checked false⟩ ∈ entries)) ?_ ?_
  · refine Logs.attempt ?_
    refine (logs_stopUntilNotWritable host world managedId engine maxStopPasses).conseq ?_ ?_
    · rintro stopped entries ⟨habout, hissued, hstopped⟩
      exact ⟨habout, hissued (by decide), fun h => hstopped (Except.ok.inj h)⟩
    · rintro failure entries ⟨habout, hissued⟩
      exact ⟨habout, hissued (by decide), fun h => nomatch h⟩
  · rintro stopped passes ⟨habout, hissued, hstopped⟩
    have hkilled : Logs (escalate host world managedId)
        (fun _ entries => About managedId (passes ++ entries) ∧
          StoppedAfter managedId (passes ++ entries)) (fun _ _ => False) := by
      refine (logs_escalate host world managedId).conseq ?_ (fun _ _ h => h)
      rintro _ entries ⟨hentries, hkill⟩
      exact ⟨about_append habout hentries, passes, entries, rfl, hissued, fun _ => hkill⟩
    split
    · refine (Logs.of_returns quiet_keepNote returns_keepNote).conseq ?_ (fun _ _ h => h)
      intro _ entries hentries
      exact ⟨about_append habout (about_of_quiet hentries), passes, entries, rfl, hissued,
        fun hnot => absurd (hstopped rfl) hnot⟩
    · exact hkilled

/-- A marked cluster whose engine has a runtime is handled, and nothing is thrown. -/
theorem logs_checkAndStop (host : Host) (world : World) {member : GuardMember}
    (hdemoted : isManagedMemberDemoted host member.managedId = true)
    (hruntime : runtimeOf member.engine ≠ none) :
    Logs (checkAndStop host world member)
      (fun _ entries => Handled member.managedId entries) (fun _ _ => False) := by
  rw [checkAndStop, if_pos hdemoted]
  refine Logs.bind (Q := fun _ _ => True) ?_ ?_
  · exact (Logs.of_returns quiet_persistDemotedVolumeFence returns_persistDemotedVolumeFence).conseq
      (fun _ _ _ => trivial) (fun _ _ h => h)
  intro _ planted _
  refine Logs.bind (Q := fun writable entries =>
    ∃ front, entries = front ++ [⟨member.managedId, .checked writable⟩]) ?_ ?_
  · refine (Logs.of_returns (logs_isFencedMemberStillWritable world member.managedId member.engine)
      (returns_isFencedMemberStillWritable hruntime)).conseq ?_ (fun _ _ h => h)
    rintro writable _ ⟨front, rfl, -⟩
    exact ⟨front, rfl⟩
  rintro writable _ ⟨front, rfl⟩
  have hend : ∀ {after : History}, (writable = true → StoppedAfter member.managedId after) →
      Handled member.managedId
        (planted ++ ((front ++ [⟨member.managedId, .checked writable⟩]) ++ after)) := by
    intro after hafter
    exact ⟨planted ++ front, writable, after, by simp, hafter⟩
  cases writable with
  | false =>
    rw [if_neg Bool.false_ne_true]
    refine (Logs.of_returns quiet_keepNote returns_keepNote).conseq ?_ (fun _ _ h => h)
    intro _ after _
    exact hend fun h => absurd h Bool.false_ne_true
  | true =>
    rw [if_pos rfl]
    refine Logs.bind (Logs.of_returns quiet_keepNote returns_keepNote) ?_
    intro _ noted _
    refine Logs.bind (Logs.of_returns quiet_enforceFencedReadOnlySql
      (returns_enforceFencedReadOnlySql hruntime)) ?_
    intro _ enforced _
    refine (logs_stopPasses host world member.managedId member.engine).conseq ?_ (fun _ _ h => h)
    rintro _ after ⟨-, hstopped⟩
    exact hend fun _ => (hstopped.append_left enforced).append_left noted

theorem about_isFencedMemberStillWritable :
    LogsOnly (isFencedMemberStillWritable world managedId engine)
      fun event => event.managedId = managedId := by
  refine (logs_isFencedMemberStillWritable world managedId engine).conseq ?_ ?_
  · rintro writable _ ⟨front, rfl, hfront⟩
    refine about_append (about_of_quiet hfront) ?_
    intro event hevent
    rw [List.mem_singleton.mp hevent]
  · exact fun _ _ hentries => about_of_quiet hentries

theorem about_checkAndStop (host : Host) (world : World) (member : GuardMember) :
    LogsOnly (checkAndStop host world member) fun event =>
      event.managedId = member.managedId := by
  have hquiet : ∀ {α : Type} {part : Part α}, LogsOnly part (Quiet member.managedId) →
      LogsOnly part fun event => event.managedId = member.managedId :=
    fun h => h.mono fun _ hevent => hevent.1
  rw [checkAndStop]
  split
  · refine (hquiet quiet_persistDemotedVolumeFence).bind fun _ => ?_
    refine about_isFencedMemberStillWritable.bind fun writable => ?_
    split
    · refine (hquiet quiet_keepNote).bind fun _ => ?_
      refine (hquiet quiet_enforceFencedReadOnlySql).bind fun _ => ?_
      exact (logs_stopPasses host world member.managedId member.engine).conseq
        (fun _ _ h => h.1) (fun _ _ h => h.elim)
    · exact hquiet quiet_keepNote
  · exact LogsOnly.pure _

/-- Whatever happens, the calls are for this cluster, and only if it is marked. -/
theorem logsOnly_fenceOne (host : Host) (world : World) (member : GuardMember) :
    LogsOnly (fenceOne host world member) fun event =>
      event.managedId = member.managedId ∧
        isManagedMemberDemoted host member.managedId = true := by
  rw [fenceOne]
  split
  · exact LogsOnly.pure _
  · split
    · exact LogsOnly.pure _
    · rename_i hdemoted
      rw [Bool.not_eq_true', Bool.not_eq_false] at hdemoted
      split
      · exact LogsOnly.fail _
      · exact LogsOnly.pure _
      · exact (about_checkAndStop host world member).mono fun _ hevent => ⟨hevent, hdemoted⟩

/-- Without a runtime nothing is checked. -/
theorem quiet_checkAndStop (host : Host) (world : World) {member : GuardMember}
    (hruntime : runtimeOf member.engine = none) :
    LogsOnly (checkAndStop host world member) (Quiet member.managedId) := by
  have hthrows : Logs (isFencedMemberStillWritable world member.managedId member.engine)
      (fun _ _ => False) (fun _ entries => entries = []) := by
    rw [isFencedMemberStillWritable, stillWritable, hruntime]
    exact Logs.bind (Q := fun _ _ => False) (Logs.fail rfl) fun _ _ h => h.elim
  rw [checkAndStop]
  split
  · refine Logs.bind quiet_persistDemotedVolumeFence ?_
    intro _ planted hplanted
    refine Logs.bind (Q := fun _ _ => False) (hthrows.conseq (fun _ _ h => h) ?_)
      fun _ _ h => h.elim
    rintro failure _ rfl
    rwa [List.append_nil]
  · exact LogsOnly.pure _

theorem quiet_fenceOne (host : Host) (world : World) (member : GuardMember)
    (hruntime : runtimeOf member.engine = none) :
    LogsOnly (fenceOne host world member) (Quiet member.managedId) := by
  rw [fenceOne]
  split
  · exact LogsOnly.pure _
  · split
    · exact LogsOnly.pure _
    · split
      · exact LogsOnly.fail _
      · exact LogsOnly.pure _
      · exact quiet_checkAndStop host world hruntime

/-! ## The whole tick -/

/-- Calls around a cluster's own do not undo that it was handled. -/
theorem Handled.append {front entries more : History} (h : Handled managedId entries) :
    Handled managedId (front ++ (entries ++ more)) := by
  obtain ⟨before, writable, after, rfl, hafter⟩ := h
  refine ⟨front ++ before, writable, after ++ more, by simp, ?_⟩
  intro hwritable
  obtain ⟨passes, rest, rfl, hstop, hkill⟩ := hafter hwritable
  refine ⟨passes, rest ++ more, by simp, hstop, ?_⟩
  intro hnot
  obtain ⟨answer, hmem⟩ := hkill hnot
  exact ⟨answer, List.mem_append_left _ hmem⟩

theorem logs_bestEffort {α : Type} {part : Part α} {Q : History → Prop}
    (h : Logs part (fun _ => Q) (fun _ => Q)) :
    Logs (bestEffort part) (fun _ => Q) (fun _ _ => False) := by
  refine Logs.bind (Q := fun _ => Q) (Logs.attempt h) ?_
  intro outcome entries hentries
  refine Logs.pure ?_
  rwa [List.append_nil]

theorem logsOnly_bestEffort {α : Type} {part : Part α} {P : Event → Prop} (h : LogsOnly part P) :
    LogsOnly (bestEffort part) P :=
  h.attempt.bind fun _ => LogsOnly.pure _

/-- A member that is handled on its own is handled among the others. -/
theorem logs_fenceAll (host : Host) (world : World) {members : List GuardMember}
    {member : GuardMember} (hmember : member ∈ members)
    (h : Logs (fenceOne host world member) (fun _ => Handled member.managedId)
      (fun _ _ => False)) :
    Logs (fenceAll host world members) (fun _ => Handled member.managedId) (fun _ _ => False) := by
  have hall : ∀ others, Logs (fenceAll host world others) (fun _ _ => True) (fun _ _ => False) := by
    intro others
    induction others with
    | nil => exact Logs.pure trivial
    | cons other others ih =>
      refine Logs.bind (Q := fun _ _ => True) ?_ fun _ _ _ => ih
      exact logs_bestEffort ((logsOnly_fenceOne host world other).conseq
        (fun _ _ _ => trivial) (fun _ _ _ => trivial))
  induction members with
  | nil => exact absurd hmember List.not_mem_nil
  | cons first rest ih =>
    rcases List.mem_cons.mp hmember with rfl | hmem
    · refine Logs.bind (Q := fun _ => Handled member.managedId)
        (logs_bestEffort (h.conseq (fun _ _ h => h) (fun _ _ h => h.elim))) ?_
      intro _ entries hentries
      refine (hall rest).conseq ?_ (fun _ _ h => h)
      intro _ more _
      have hhandled : Handled member.managedId ([] ++ (entries ++ more)) := hentries.append
      rwa [List.nil_append] at hhandled
    · refine Logs.bind (Q := fun _ _ => True) ?_ ?_
      · exact logs_bestEffort ((logsOnly_fenceOne host world first).conseq
          (fun _ _ _ => trivial) (fun _ _ _ => trivial))
      intro _ front _
      refine (ih hmem).conseq ?_ (fun _ _ h => h)
      intro _ entries hentries
      have hhandled : Handled member.managedId (front ++ (entries ++ [])) := hentries.append
      rwa [List.append_nil] at hhandled

theorem logsOnly_fenceAll (host : Host) (world : World) {members : List GuardMember}
    {P : Event → Prop} (h : ∀ member ∈ members, LogsOnly (fenceOne host world member) P) :
    LogsOnly (fenceAll host world members) P := by
  induction members with
  | nil => exact LogsOnly.pure _
  | cons first rest ih =>
    obtain ⟨hfirst, hrest⟩ := List.forall_mem_cons.mp h
    exact (logsOnly_bestEffort hfirst).bind fun _ => ih hrest

/-- The member the guard makes of a target with an engine. -/
def memberOf (target : FenceTarget) : GuardMember where
  managedId := target.managedId
  memberId := target.memberId.getD ""
  engine := target.engine

theorem mem_listTargets_iff {targets : List FenceTarget} {members : List GuardMember}
    (htargets : listDemotedFenceTargets host = .ok targets)
    (hmembers : listTargets host = .ok members) {member : GuardMember} :
    member ∈ members ↔ ∃ target ∈ targets, target.engine ≠ "" ∧ memberOf target = member := by
  rw [listTargets, htargets] at hmembers
  obtain rfl := Except.ok.inj hmembers
  rw [List.mem_filterMap]
  constructor
  · rintro ⟨target, htarget, hmember⟩
    split at hmember
    · cases hmember
    · rename_i hengine
      exact ⟨target, htarget, hengine, Option.some.inj hmember⟩
  · rintro ⟨target, htarget, hengine, hmember⟩
    refine ⟨target, htarget, ?_⟩
    rw [if_neg hengine]
    exact congrArg some hmember

theorem listTargets_eq_ok_iff : (∃ members, listTargets host = .ok members) ↔
    ∃ targets, listDemotedFenceTargets host = .ok targets := by
  rw [listTargets]
  cases listDemotedFenceTargets host with
  | ok targets => simp [bind, Except.bind, pure, Except.pure]
  | error failure => simp [bind, Except.bind]

theorem knownMemberId_memberOf {target : FenceTarget} :
    (memberOf target).knownMemberId = target.memberId.filter (· ≠ "") := by
  cases hmember : target.memberId with
  | none => simp [memberOf, GuardMember.knownMemberId, hmember]
  | some memberId =>
    by_cases hempty : memberId = ""
    · simp [memberOf, GuardMember.knownMemberId, hmember, hempty, Option.filter]
    · simp [memberOf, GuardMember.knownMemberId, hmember, hempty, Option.filter]

/-- A member found for an eligible cluster is handled where its engine has a runtime. -/
theorem logs_fenceOne_of_eligible (world : World) {target : FenceTarget}
    (heligible : Eligible host target.managedId)
    (htarget : targetOf host target.managedId = .ok target)
    (hruntime : runtimeOf target.engine ≠ none) :
    Logs (fenceOne host world (memberOf target)) (fun _ => Handled target.managedId)
      (fun _ _ => False) := by
  have hmemberId : memberIdOf host target.managedId = (memberOf target).knownMemberId := by
    rw [memberIdOf, htarget]
    exact knownMemberId_memberOf.symm
  have hlive : isManagedMemberDestroyed host (memberOf target).managedId
      (memberOf target).knownMemberId = false := by
    rw [← hmemberId]
    exact heligible.not_destroyed
  have hdemoted : isManagedMemberDemoted host (memberOf target).managedId = true :=
    isManagedMemberDemoted_iff.mpr heligible.demoted
  have hlock : host.tryLock (memberOf target).managedId = .ok true := heligible.lock_free
  rw [fenceOne, hlive, hdemoted, hlock, if_neg Bool.false_ne_true, if_neg (by decide)]
  exact logs_checkAndStop host world hdemoted hruntime

/-- A tick that cannot discover the clusters does nothing. -/
theorem tick_of_not_discovers (world : World) (h : ¬Discovers host) :
    (tick host world []).2 = [] := by
  rw [tick]
  cases hlisted : host.readDirFailure with
  | none =>
    cases htargets : listTargets host with
    | error failure => rfl
    | ok members =>
      have hok := listTargets_eq_ok_iff.mp ⟨members, htargets⟩
      exact absurd ((listDemotedFenceTargets_isOk_iff hlisted).mp hok) h
  | some failure =>
    have hmembers : listManagedHaMembers host = [] := by rw [listManagedHaMembers, hlisted]
    cases failure with
    | notFound =>
      have htargets : listTargets host = .ok [] := by
        rw [listTargets, listDemotedFenceTargets, listDemotedManagedIds, hlisted, hmembers]
        rfl
      rw [htargets]
      rfl
    | other =>
      have htargets : listTargets host = .error "the state directory cannot be read" := by
        rw [listTargets, listDemotedFenceTargets, listDemotedManagedIds, hlisted]
        rfl
      rw [htargets]
      rfl

/-- What a kind of program leaves in an empty log. -/
theorem forall_mem_of_logsOnly {part : Part Unit} {P : Event → Prop} (h : LogsOnly part P) :
    ∀ event ∈ (part []).2, P event := by
  obtain ⟨entries, hlog, hend⟩ := h []
  rw [hlog, List.nil_append]
  cases hresult : (part []).1 with
  | ok value =>
    rw [hresult] at hend
    exact hend
  | error failure =>
    rw [hresult] at hend
    exact hend

theorem logsOnly_tick {P : Event → Prop}
    (h : ∀ members, listTargets host = .ok members →
      ∀ member ∈ members, LogsOnly (fenceOne host world member) P) :
    LogsOnly (tick host world) P := by
  rw [tick]
  cases htargets : listTargets host with
  | error failure => exact LogsOnly.pure _
  | ok members => exact logsOnly_fenceAll host world (h members htargets)

/-- Nothing is issued for a cluster without a marker. -/
theorem tick_untouched (host : Host) (world : World) :
    ∀ event ∈ (tick host world []).2, (host.files event.managedId).demoted ≠ .missing := by
  refine forall_mem_of_logsOnly (logsOnly_tick fun members _ member _ => ?_)
  refine (logsOnly_fenceOne host world member).mono ?_
  rintro event ⟨hid, hdemoted⟩
  rw [hid]
  exact isManagedMemberDemoted_iff.mp hdemoted

/-- Every eligible cluster whose engine has a runtime is handled. -/
theorem tick_handled (world : World) (hdiscovers : Discovers host)
    (heligible : Eligible host managedId) (hruntime : HasRuntime host managedId) :
    Handled managedId (tick host world []).2 := by
  obtain ⟨targets, htargets⟩ := (listDemotedFenceTargets_isOk_iff hdiscovers.listed).mpr hdiscovers
  obtain ⟨hspec, hall⟩ := listDemotedFenceTargets_spec hdiscovers.listed htargets
  obtain ⟨target, htarget, rfl⟩ :=
    hall managedId heligible.cluster (isManagedMemberDemoted_iff.mpr heligible.demoted)
  have htargetOf := (hspec target htarget).2.2
  have hengine := hruntime target htargetOf
  obtain ⟨members, hmembers⟩ := listTargets_eq_ok_iff.mpr ⟨targets, htargets⟩
  have hne : target.engine ≠ "" := by
    intro hempty
    rw [hempty] at hengine
    exact hengine (by decide)
  have hmember : memberOf target ∈ members :=
    (mem_listTargets_iff htargets hmembers).mpr ⟨target, htarget, hne, rfl⟩
  have hlogs := logs_fenceAll host world hmember
    (logs_fenceOne_of_eligible world heligible htargetOf hengine)
  rw [tick, hmembers]
  obtain ⟨entries, hlog, hend⟩ := hlogs []
  rw [List.nil_append] at hlog
  dsimp only
  rw [hlog]
  split at hend
  · exact hend
  · exact hend.elim

/-- A cluster whose engine has no runtime is never checked. -/
theorem tick_not_handled (world : World) (hdiscovers : Discovers host) {target : FenceTarget}
    (htarget : targetOf host managedId = .ok target) (hruntime : runtimeOf target.engine = none) :
    ¬Handled managedId (tick host world []).2 := by
  obtain ⟨targets, htargets⟩ := (listDemotedFenceTargets_isOk_iff hdiscovers.listed).mpr hdiscovers
  obtain ⟨hspec, -⟩ := listDemotedFenceTargets_spec hdiscovers.listed htargets
  have hunchecked : ∀ event ∈ (tick host world []).2, event.managedId = managedId →
      ∀ writable, event.call ≠ .checked writable := by
    refine forall_mem_of_logsOnly (logsOnly_tick fun members hmembers member hmember => ?_)
    obtain ⟨found, hfound, -, rfl⟩ := (mem_listTargets_iff htargets hmembers).mp hmember
    by_cases hid : found.managedId = managedId
    · have hsame : found = target := by
        have hfoundOf := (hspec found hfound).2.2
        rw [hid, htarget] at hfoundOf
        exact (Except.ok.inj hfoundOf).symm
      rw [← hsame] at hruntime
      exact (quiet_fenceOne host world (memberOf found) hruntime).mono
        fun event hquiet _ => hquiet.2
    · refine (logsOnly_fenceOne host world (memberOf found)).mono ?_
      rintro event ⟨hevent, -⟩ hown
      exact absurd (hevent.symm.trans hown) hid
  rintro ⟨before, writable, after, hhistory, -⟩
  refine hunchecked ⟨managedId, .checked writable⟩ ?_ rfl writable rfl
  rw [hhistory]
  exact List.mem_append_right _ List.mem_cons_self

end

/-- For every set of clusters, every state of their files and every behaviour of docker and the
engines: a tick handles every marked cluster and touches nothing else if and only if there is
nothing to handle, or discovery gets through and the engines to handle have a runtime. -/
theorem guards_iff_guardsWhen (host : Host) (world : World) :
    Guards host (tick host world []).2 ↔ GuardsWhen host := by
  constructor
  · intro hguards
    by_cases hnone : ∀ managedId, ¬Eligible host managedId
    · exact .inl hnone
    · push Not at hnone
      obtain ⟨managedId, heligible⟩ := hnone
      have hdiscovers : Discovers host := by
        by_contra hnot
        obtain ⟨before, writable, after, hhistory, -⟩ := hguards.handled managedId heligible
        rw [tick_of_not_discovers world hnot] at hhistory
        exact absurd hhistory.symm (by simp)
      refine .inr ⟨hdiscovers, ?_⟩
      intro other hother target htarget hruntime
      exact tick_not_handled world hdiscovers htarget hruntime (hguards.handled other hother)
  · intro hwhen
    constructor
    case handled =>
      intro managedId heligible
      rcases hwhen with hnone | ⟨hdiscovers, hruntime⟩
      · exact absurd heligible (hnone managedId)
      · exact tick_handled world hdiscovers heligible (hruntime managedId heligible)
    case untouched =>
      intro event hevent _
      exact tick_untouched host world event hevent

/-- The files of a cluster with a marker and nothing else. -/
def markedFiles (demoted : FileRead) : ClusterFiles where
  demoted := demoted
  member := .missing
  destroyed := .missing
  composeImage := none
  composeContainerName := none

/-- Two marked clusters.  The marker of the first cannot be read and has no record beside it. -/
def unreadableHost : Host where
  entries := [⟨"cluster-a", true⟩, ⟨"cluster-b", true⟩]
  readDirFailure := none
  files id :=
    if id = "cluster-a" then markedFiles .unreadable
    else markedFiles (.contents (some (.object [("memberId", .string "member-b"),
      ("demotedAt", .string "2026-01-01T00:00:00.000Z"), ("engine", .string "postgres")])))
  tryLock _ := .ok true
  now := 0
  dateParse _ := none
  names_nodup := by decide

/-- Everything answers; the engines accept writes. -/
def writableWorld : World where
  docker _ _ := .ok ⟨true, "", ""⟩
  volumeFence _ := .ok ()
  probe _ := .ok true
  readOnly _ := .ok ()
  note _ := .ok ()
  jsonParse _ := none

theorem eligible_unreadableHost : Eligible unreadableHost "cluster-b" where
  cluster := by decide
  demoted := FileRead.noConfusion
  not_destroyed := rfl
  lock_free := rfl

/-- The second cluster is not looked at. -/
theorem unreadableHost_not_guards :
    ¬Guards unreadableHost (tick unreadableHost writableWorld []).2 := by
  intro hguards
  have hnot : ¬Discovers unreadableHost := by
    intro hdiscovers
    exact hdiscovers.readable "cluster-a" (by decide) rfl rfl
  obtain ⟨before, writable, after, hhistory, -⟩ :=
    hguards.handled "cluster-b" eligible_unreadableHost
  rw [tick_of_not_discovers writableWorld hnot] at hhistory
  exact absurd hhistory.symm (by simp)

end Turbopaneld.Managed.DemotedGuard
