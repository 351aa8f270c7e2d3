/-
# Clusters that were released and the retry

Once a held cluster has been released, a later tick of the retry should leave it alone.  Three
things make a tick stop it again: a reapply that lists it among the members to hold, a marker
that a later stop has made a held one while the hold file is still there, and a cleared marker
of a cluster whose hold was never settled, which the tick takes for a hold that is still
wanted.  Where a tick meets none of them it records no stop for a released cluster and does
not stop it.
-/

import Turbopaneld.Managed.HoldMarker

namespace Turbopaneld.Managed.BootHold

open Programs Machines Intent

/-! ## What is asked of a tick -/

/-- The call neither records a held stop for one of the clusters nor stops it. -/
def Spares (clusters : String → Bool) : {β : Type} → Call β → Prop
  | _, .recordStop _ managedId => clusters managedId = false
  | _, .composeStop managedId => clusters managedId = false
  | _, _ => True

/-- No tick in flight is about to hold or stop a cluster that was released before it began. -/
def LeavesReleased (s : Pool Tag Call Host) : Prop :=
  ∀ i releasedBefore β (c : Call β) next,
    s.threads i = some ⟨.tick releasedBefore, .await c next⟩ → Spares releasedBefore c

/-- What a tick finds when it looks at the marker of a released cluster.  The listing must not
find a held stop; for a hold that was not settled a marker has to be there as well. -/
def Looker.Spared (looker : Looker) : Option Slot → Prop
  | some (.marker intent) => isHeldStop (.found intent) = false
  | some .cleared => looker = .listing
  | none => True

/-- The calls of a tick at which nothing goes wrong. -/
def SparingCall : {β : Type} → Call β → Reply → Host → Prop
  | _, .listMembers, reply, s => ∀ member ∈ reply.members,
      s.released member.managedId = true → isHoldablePrimary member = false
  | _, .isManagedMemberDemoted managedId, reply, s =>
      s.released managedId = true → reply.demoted = false
  | _, .lookupMemory looker managedId, _, s =>
      s.released managedId = true → looker.Spared (s.intents managedId).memory
  | _, _, _, _ => True

/-- The runs of one process in which every tick meets only such calls. -/
def sparing : Allowed Tag Call Host Reply Act where
  call := fun tag _ c reply s =>
    match tag with
    | .plain => True
    | .tick _ => SparingCall c reply s
  act := fun _ _ => True
  restart := fun _ => False

/-! ## One step -/

section

variable {β : Type} (c : Call β) (reply : Reply) {s : Host} {id : String}

theorem released_release (managedId : String) (h : s.released id = true) :
    (s.release managedId).released id = true := by
  change Function.update s.released managedId _ id = true
  by_cases hid : id = managedId
  · subst hid
    rw [Function.update_self, h, Bool.true_or]
  · rwa [Function.update_of_ne hid]

/-- Only the cluster a release is about becomes a released one. -/
theorem of_released_release {managedId : String}
    (h : (s.release managedId).released id = true) : id = managedId ∨ s.released id = true := by
  change Function.update s.released managedId _ id = true at h
  by_cases hid : id = managedId
  · exact .inl hid
  · rw [Function.update_of_ne hid] at h
    exact .inr h

/-- What was released stays so. -/
theorem released_perform (h : s.released id = true) :
    (perform c reply s).2.released id = true := by
  cases c with
  | clearMemory clearer managedId =>
    simp only [perform]
    split
    · exact released_release managedId h
    · exact h
  | setUnsettled managedId unsettled =>
    simp only [perform, Host.setUnsettled]
    split <;> exact h
  | _ => first | exact h | (simp only [perform]; split <;> exact h)

/-- A marker stays in memory. -/
theorem memory_perform (h : (s.intents id).memory ≠ none) :
    ((perform c reply s).2.intents id).memory ≠ none := by
  cases c with
  | recordStop holder managedId =>
    simp only [perform]
    split <;> exact setIntent_memory h fun _ => Option.some_ne_none _
  | writeMarker managedId intent =>
    simp only [perform]
    split
    · exact setIntent_memory h fun hid => hid ▸ h
    · exact h
  | removeMarker managedId =>
    simp only [perform]
    split
    · exact setIntent_memory h fun hid => hid ▸ h
    · exact h
  | clearMemory clearer managedId =>
    simp only [perform]
    split <;> exact setIntent_memory h fun _ => Option.some_ne_none _
  | setUnsettled managedId unsettled =>
    simp only [perform, Host.setUnsettled]
    split <;> exact h
  | _ => first | exact h | (simp only [perform]; split <;> exact h)

/-- A cluster that is released has a marker in memory from then on. -/
theorem memory_of_released_perform (h : ∀ id, s.released id = true →
      (s.intents id).memory ≠ none) (hid : (perform c reply s).2.released id = true) :
    ((perform c reply s).2.intents id).memory ≠ none := by
  by_cases hbefore : s.released id = true
  · exact memory_perform c reply (h id hbefore)
  · cases c with
    | clearMemory clearer managedId =>
      simp only [perform] at hid ⊢
      split at hid
      case isTrue hclearer =>
        rw [if_pos hclearer]
        rcases of_released_release hid with rfl | hold
        · change (Function.update s.intents id _ id).memory ≠ none
          rw [Function.update_self]
          exact Option.some_ne_none _
        · exact absurd hold hbefore
      case isFalse => exact absurd hid hbefore
    | setUnsettled managedId unsettled =>
      simp only [perform, Host.setUnsettled] at hid
      split at hid <;> exact absurd hid hbefore
    | _ =>
      first
      | exact absurd hid hbefore
      | (simp only [perform] at hid; split at hid <;> exact absurd hid hbefore)

end

/-- What the programs of the process keep towards a tick. -/
def sparingContract : Contract Tag Call Host where
  inv := fun s => ∀ id, s.released id = true → (s.intents id).memory ≠ none
  rely := fun s s' => ∀ id, s.released id = true → s'.released id = true
  pre := fun tag _ c _ =>
    match tag with
    | .plain => True
    | .tick releasedBefore => Spares releasedBefore c
  effect := daemon.Effect sparing
  rely_refl := fun _ _ h => h
  rely_trans := fun h h' id hid => h' id (h id hid)
  pre_stable := fun _ h => h
  keeps := by
    rintro t β c s b s' hinv - ⟨reply, -, rfl, rfl⟩
    exact ⟨fun id hid => memory_of_released_perform c reply hinv hid,
      fun id hid => released_perform c reply hid⟩

theorem act_keeps_released {action : Act} {s s' : Host} (hinv : sparingContract.inv s)
    (h : act action s = some s') : sparingContract.inv s' ∧ sparingContract.rely s s' := by
  cases action with
  | advance ms =>
    obtain rfl := Option.some.inj h
    exact ⟨hinv, fun _ hid => hid⟩
  | removeDirectory managedId c =>
    rw [act] at h
    split at h
    · obtain rfl := Option.some.inj h
      exact ⟨hinv, fun _ hid => hid⟩
    · cases h
  | command managedId action =>
    obtain ⟨intent, hstep, rfl⟩ := commandStep_eq_some h
    have hmemory : ∀ id, s.released id = true →
        ((s.setIntent managedId intent).intents id).memory ≠ none := fun id hid =>
      setIntent_memory (hinv id hid) fun heq =>
        memory_ne_none_of_step hstep (heq ▸ hinv id hid)
    split
    case isFalse => exact ⟨hmemory, fun _ hid => hid⟩
    case isTrue hreleasing =>
      refine ⟨?_, fun id hid => released_release managedId hid⟩
      intro id hid
      rcases of_released_release hid with rfl | hold
      · change (Function.update s.intents id intent id).memory ≠ none
        rw [Function.update_self]
        exact memory_ne_none_of_releasing hstep hreleasing
      · exact hmemory id hold

/-- A program that is no tick has nothing to see to. -/
theorem safe_plain {α : Type} (p : Async Call α) (s : Host) :
    p.Safe sparingContract .plain (fun _ _ => True) s := by
  induction p generalizing s with
  | done a => trivial
  | await c next ih => exact ⟨trivial, fun _ _ _ b s' _ => ih b s'⟩

/-! ## A tick -/

/-- The clusters are all released ones. -/
def Covers (clusters : String → Bool) (s : Host) : Prop :=
  ∀ id, clusters id = true → s.released id = true

section

variable {before : String → Bool} {s : Host}

theorem Covers.rely {s' : Host} (h : Covers before s) (hrely : sparingContract.rely s s') :
    Covers before s' :=
  fun id hid => hrely id (h id hid)

/-- A call that is no record and no stop. -/
theorem safe_call {α : Type} {c : Call α} (hspares : Spares before c) (h : Covers before s) :
    (Async.perform c).Safe sparingContract (.tick before) (fun _ => Covers before) s :=
  Async.Safe.perform hspares fun _ _ _ _ _ _ hrely _ => h.rely hrely

/-- What a look at the marker of a released cluster finds. -/
theorem safe_lookupIntent (looker : Looker) (managedId : String) (h : Covers before s) :
    (lookupIntent looker managedId).Safe sparingContract (.tick before)
      (fun lookup s => Covers before s ∧ (before managedId = true → isHeldStop lookup = false ∧
        (looker = .retry → ∃ intent, lookup = .found intent))) s := by
  refine Async.Safe.perform_bind trivial ?_
  rintro _ _ hinv slot s' ⟨reply, hsparing, rfl, rfl⟩ hrely _
  have hcovers := h.rely hrely
  have hspared : before managedId = true → looker.Spared (s'.intents managedId).memory :=
    fun hbefore => hsparing (hcovers managedId hbefore)
  have hread : (daemon.perform (.lookupMemory looker managedId) reply s').1 =
      (s'.intents managedId).memory := rfl
  rw [hread]
  cases hmemory : (s'.intents managedId).memory with
  | some slot =>
    rw [hmemory] at hspared
    cases slot with
    | cleared => exact ⟨hcovers, fun hbefore => ⟨rfl, fun hretry => by
        cases (hspared hbefore).symm.trans hretry⟩⟩
    | marker intent => exact ⟨hcovers, fun hbefore => ⟨hspared hbefore, fun _ => ⟨intent, rfl⟩⟩⟩
  | none =>
    refine (safe_call (c := .readMarker managedId) trivial hcovers).conseq ?_
    intro lookup s₂ hcovers₂
    refine ⟨hcovers₂, ?_⟩
    intro hbefore
    exact absurd hmemory (hinv managedId (hcovers managedId hbefore))

/-- The holds a tick works on are not of released clusters. -/
def Fresh (before : String → Bool) (holds : List BootHoldRecord) : Prop :=
  ∀ hold ∈ holds, before hold.managedId = false

theorem safe_listOne (managedId : String) (h : Covers before s) :
    (listOne managedId).Safe sparingContract (.tick before)
      (fun found s => Covers before s ∧ Fresh before found.toList) s := by
  refine Async.Safe.perform_bind trivial ?_
  rintro _ _ _ found s' ⟨reply, -, hfound, -⟩ hrely _
  have hcovers := h.rely hrely
  cases hcase : found with
  | none => exact ⟨hcovers, fun _ hmem => nomatch hmem⟩
  | some record =>
    have hid : record.managedId = managedId := by
      rw [hcase] at hfound
      change some record = if reply.ok then _ else none at hfound
      split at hfound
      · obtain ⟨file, -, rfl⟩ := Option.map_eq_some_iff.mp hfound.symm
        rfl
      · cases hfound
    refine Async.Safe.bind (safe_lookupIntent .listing managedId hcovers) ?_
    rintro lookup s₁ ⟨hcovers₁, hspared⟩
    cases hheld : isHeldStop lookup with
    | true =>
      rw [if_pos rfl]
      refine ⟨hcovers₁, ?_⟩
      intro hold hmem
      obtain rfl := List.mem_singleton.mp hmem
      rw [hid]
      cases hbefore : before managedId with
      | false => rfl
      | true => exact absurd hheld (by simp [(hspared hbefore).1])
    | false =>
      rw [if_neg Bool.false_ne_true]
      refine Async.Safe.bind (safe_call (c := .removeHold managedId lookup) trivial hcovers₁) ?_
      intro _ s₂ hcovers₂
      exact ⟨hcovers₂, fun _ hmem => nomatch hmem⟩

theorem safe_listEach (ids : List String) (h : Covers before s) :
    (listEach ids).Safe sparingContract (.tick before)
      (fun holds s => Covers before s ∧ Fresh before holds) s := by
  induction ids generalizing s with
  | nil => exact ⟨h, fun _ hmem => nomatch hmem⟩
  | cons managedId rest ih =>
    refine Async.Safe.bind (safe_listOne managedId h) ?_
    rintro found s₁ ⟨hcovers₁, hfound⟩
    refine Async.Safe.bind (ih hcovers₁) ?_
    rintro others s₂ ⟨hcovers₂, hothers⟩
    refine ⟨hcovers₂, ?_⟩
    intro hold hmem
    rcases List.mem_append.mp hmem with hmem | hmem
    · exact hfound hold hmem
    · exact hothers hold hmem

theorem safe_listActiveBootHolds (h : Covers before s) :
    listActiveBootHolds.Safe sparingContract (.tick before)
      (fun holds s => Covers before s ∧ Fresh before holds) s := by
  refine Async.Safe.bind (safe_call (c := .readDir) trivial h) ?_
  intro ids s₁ hcovers
  cases ids with
  | none => exact ⟨hcovers, fun _ hmem => nomatch hmem⟩
  | some ids => exact safe_listEach ids hcovers

/-! ### Holding again -/

theorem safe_holdFor (member : Member) (existing : Option BootHoldRecord) (h : Covers before s) :
    (holdFor member existing).Safe sparingContract (.tick before) (fun _ => Covers before) s := by
  cases existing with
  | some record => exact h
  | none => exact Async.Safe.bind (safe_call (c := .nowIso) trivial h) fun _ _ hcovers => hcovers

theorem safe_recordHeldStop {holder : Holder} {managedId : String}
    (hid : before managedId = false) (h : Covers before s) :
    (recordHeldStop holder managedId).Safe sparingContract (.tick before)
      (fun _ => Covers before) s := by
  refine Async.Safe.bind (safe_call (c := .recordStop holder managedId) hid h) ?_
  rintro ⟨intent, releases⟩ s₁ hcovers
  exact Async.Safe.bind (safe_call (c := .writeMarker managedId intent) trivial hcovers)
    fun _ _ hcovers => hcovers

theorem safe_writeFirst (managedId : String) (record : BootHoldRecord) (h : Covers before s) :
    (writeFirst managedId record).Safe sparingContract (.tick before)
      (fun _ => Covers before) s := by
  refine Async.Safe.bind (safe_call (c := .mkdir managedId) trivial h) ?_
  intro made s₁ hcovers
  cases made with
  | true => exact safe_call (c := .writeHold record) trivial hcovers
  | false => exact hcovers

theorem safe_writeFinal (record : BootHoldRecord) (stopped : Bool) (h : Covers before s) :
    (writeFinal record stopped).Safe sparingContract (.tick before)
      (fun _ => Covers before) s := by
  rw [writeFinal]
  split
  · exact safe_call (c := .writeHold { record with engineStopped := true }) trivial h
  · exact h

theorem safe_holdOne {member : Member} (hmember : before member.managedId = false)
    (h : Covers before s) :
    (holdOne member).Safe sparingContract (.tick before) (fun _ => Covers before) s := by
  refine Async.Safe.bind (safe_call (c := .readHold member.managedId) trivial h) ?_
  intro existing s₁ h₁
  refine Async.Safe.bind (safe_holdFor member existing h₁) ?_
  intro record s₂ h₂
  refine Async.Safe.bind (safe_recordHeldStop hmember h₂) ?_
  intro releases s₃ h₃
  refine Async.Safe.bind (safe_writeFirst member.managedId record h₃) ?_
  intro written s₄ h₄
  refine Async.Safe.bind (safe_call (c := .composeStop member.managedId) hmember h₄) ?_
  intro stopped s₅ h₅
  refine Async.Safe.bind (safe_call (c := .setUnsettled member.managedId !stopped) trivial h₅) ?_
  intro _ s₆ h₆
  cases written with
  | false => exact h₆
  | true => exact Async.Safe.bind (safe_writeFinal record stopped h₆) fun _ _ hcovers => hcovers

theorem safe_holdMembers {members : List Member}
    (hmembers : ∀ member ∈ members, before member.managedId = false) (h : Covers before s) :
    (holdMembers members).Safe sparingContract (.tick before) (fun _ => Covers before) s := by
  induction members generalizing s with
  | nil => exact h
  | cons member rest ih =>
    have hrest : ∀ s, Covers before s → _ := fun s =>
      ih (s := s) fun other hother => hmembers other (List.mem_cons_of_mem member hother)
    refine Async.Safe.bind (safe_holdOne (hmembers member List.mem_cons_self) h) ?_
    intro outcome s₁ h₁
    cases outcome with
    | some releases => exact Async.Safe.bind (hrest s₁ h₁) fun _ _ hcovers => hcovers
    | none =>
      refine Async.Safe.bind
        (safe_call (c := .setUnsettled member.managedId true) trivial h₁) ?_
      intro _ s₂ h₂
      exact Async.Safe.bind (hrest s₂ h₂) fun _ _ hcovers => hcovers

/-- A released member is not one of those to hold. -/
theorem safe_isToHold {member : Member}
    (hmember : before member.managedId = true → isHoldablePrimary member = false)
    (h : Covers before s) :
    (isToHold member).Safe sparingContract (.tick before)
      (fun hold s => Covers before s ∧ (hold = true → before member.managedId = false)) s := by
  rw [isToHold]
  cases hprimary : isHoldablePrimary member with
  | true =>
    refine ⟨h, ?_⟩
    intro _
    cases hbefore : before member.managedId with
    | false => rfl
    | true => exact absurd hprimary (by simp [hmember hbefore])
  | false =>
    refine Async.Safe.perform trivial ?_
    rintro s₁ hrely₁ _ demoted s' ⟨reply, hsparing, rfl, -⟩ hrely _
    refine ⟨h.rely hrely, ?_⟩
    intro hdemoted
    cases hbefore : before member.managedId with
    | false => rfl
    | true =>
      have hnot : reply.demoted = false := hsparing (h.rely hrely₁ member.managedId hbefore)
      change reply.demoted = true at hdemoted
      exact absurd hdemoted (by simp [hnot])

theorem safe_membersToHold {members : List Member}
    (hmembers : ∀ member ∈ members, before member.managedId = true →
      isHoldablePrimary member = false) (h : Covers before s) :
    (membersToHold members).Safe sparingContract (.tick before)
      (fun toHold s => Covers before s ∧ ∀ member ∈ toHold, before member.managedId = false)
      s := by
  induction members generalizing s with
  | nil => exact ⟨h, fun _ hmem => nomatch hmem⟩
  | cons member rest ih =>
    refine Async.Safe.bind (safe_isToHold (hmembers member List.mem_cons_self) h) ?_
    rintro hold s₁ ⟨h₁, hhold⟩
    refine Async.Safe.bind
      (ih (fun other hother => hmembers other (List.mem_cons_of_mem member hother)) h₁) ?_
    rintro others s₂ ⟨h₂, hothers⟩
    refine ⟨h₂, ?_⟩
    intro found hmem
    cases hold with
    | false => exact hothers found hmem
    | true =>
      rcases List.mem_cons.mp hmem with rfl | hmem
      · exact hhold rfl
      · exact hothers found hmem

theorem safe_holdListed {members : List Member}
    (hmembers : ∀ member ∈ members, before member.managedId = true →
      isHoldablePrimary member = false) (h : Covers before s) :
    (holdListed members).Safe sparingContract (.tick before) (fun _ => Covers before) s := by
  refine Async.Safe.bind (safe_membersToHold hmembers h) ?_
  rintro toHold s₁ ⟨h₁, hfree⟩
  refine Async.Safe.bind (safe_holdMembers hfree h₁) ?_
  rintro ⟨held, failed⟩ s₂ h₂
  cases failed with
  | true => exact h₂
  | false =>
    refine Async.Safe.bind (safe_call (c := .held held) trivial h₂) ?_
    exact fun _ _ hcovers => hcovers

theorem safe_applyBootHold (kind : HostBootKind) (h : Covers before s) :
    (applyBootHold kind).Safe sparingContract (.tick before) (fun _ => Covers before) s := by
  rw [applyBootHold]
  split
  case isFalse => exact h
  case isTrue =>
    refine Async.Safe.perform_bind trivial ?_
    rintro s₁ hrely₁ _ listed s' ⟨reply, hsparing, rfl, -⟩ hrely _
    have hcovers := h.rely hrely
    have hlisted : ∀ member ∈ reply.members, before member.managedId = true →
        isHoldablePrimary member = false := fun member hmember hbefore =>
      hsparing member hmember (h.rely hrely₁ member.managedId hbefore)
    have hread : (daemon.perform .listMembers reply s₁).1 =
        if reply.ok then some reply.members else none := rfl
    rw [hread]
    cases reply.ok with
    | false => exact hcovers
    | true => exact Async.Safe.bind (safe_holdListed hlisted hcovers) fun _ _ h => h

theorem safe_recordHostBootPersist (h : Covers before s) :
    recordHostBootPersist.Safe sparingContract (.tick before) (fun _ => Covers before) s := by
  refine Async.Safe.bind (safe_call (c := .readProcBootId) trivial h) ?_
  intro bootId s₁ h₁
  cases bootId with
  | none => exact h₁
  | some bootId => exact safe_call (c := .writeBootRecord bootId) trivial h₁

theorem safe_reapplyOnce (h : Covers before s) :
    reapplyOnce.Safe sparingContract (.tick before) (fun _ => Covers before) s := by
  refine Async.Safe.bind (safe_call (c := .reapply) trivial h) ?_
  intro pending s₁ h₁
  cases pending with
  | none => exact h₁
  | some kind =>
    refine Async.Safe.bind (safe_applyBootHold kind h₁) ?_
    intro outcome s₂ h₂
    match outcome with
    | none => exact h₂
    | some false => exact h₂
    | some true =>
      refine Async.Safe.bind (safe_recordHostBootPersist h₂) ?_
      intro persisted s₃ h₃
      cases persisted with
      | false => exact h₃
      | true => exact safe_call (c := .setReapply none) trivial h₃

/-! ### Stopping again -/

theorem safe_ensureHoldStopped {hold : BootHoldRecord} (hhold : before hold.managedId = false)
    (h : Covers before s) :
    (ensureHoldStopped hold).Safe sparingContract (.tick before) (fun _ => Covers before) s := by
  rw [ensureHoldStopped]
  split
  case isTrue => exact h
  case isFalse =>
    refine Async.Safe.bind (safe_call (c := .composeStop hold.managedId) hhold h) ?_
    intro stopped s₁ h₁
    cases stopped with
    | false => exact h₁
    | true =>
      refine Async.Safe.bind
        (safe_call (c := .writeHold { hold with engineStopped := true }) trivial h₁) ?_
      exact fun _ _ hcovers => hcovers

theorem safe_retryHold {hold : BootHoldRecord} (settling : Bool)
    (hhold : before hold.managedId = false) (h : Covers before s) :
    (retryHold settling hold).Safe sparingContract (.tick before) (fun _ => Covers before) s := by
  rw [retryHold]
  split
  · exact safe_ensureHoldStopped hhold h
  · split
    · exact Async.Safe.bind (safe_call (c := .composeStop hold.managedId) hhold h)
        fun _ _ hcovers => hcovers
    · exact h

theorem safe_stopUnsettled {managedId : String} (hid : before managedId = false)
    (h : Covers before s) :
    (stopUnsettled managedId).Safe sparingContract (.tick before) (fun _ => Covers before) s := by
  refine Async.Safe.bind (safe_call (c := .composeStop managedId) hid h) ?_
  intro stopped s₁ h₁
  cases stopped with
  | false => exact h₁
  | true => exact safe_call (c := .setUnsettled managedId false) trivial h₁

theorem safe_retryUnsettled {heldIds : List String} (managedId : String)
    (hheldIds : ∀ id ∈ heldIds, before id = false) (h : Covers before s) :
    (retryUnsettled heldIds managedId).Safe sparingContract (.tick before)
      (fun _ => Covers before) s := by
  rw [retryUnsettled]
  split
  case isTrue hcontains =>
    exact safe_stopUnsettled (hheldIds managedId (List.contains_iff_mem.mp hcontains)) h
  case isFalse =>
    refine Async.Safe.bind (safe_lookupIntent .retry managedId h) ?_
    rintro lookup s₁ ⟨h₁, hspared⟩
    -- Where the cluster was not released before, a stop is fine; else the look settles it.
    cases hbefore : before managedId with
    | false =>
      cases lookup with
      | found intent =>
        dsimp only
        split
        · exact safe_stopUnsettled hbefore h₁
        · exact safe_call (c := .setUnsettled managedId false) trivial h₁
      | none => exact safe_stopUnsettled hbefore h₁
      | unreadable => exact safe_stopUnsettled hbefore h₁
    | true =>
      obtain ⟨hnot, hfound⟩ := hspared hbefore
      obtain ⟨intent, rfl⟩ := hfound rfl
      dsimp only
      rw [if_neg (by simp [hnot])]
      exact safe_call (c := .setUnsettled managedId false) trivial h₁

theorem safe_stopWhenSettled (holds : List BootHoldRecord) (settling : Bool)
    (h : Covers before s) :
    (stopWhenSettled holds settling).Safe sparingContract (.tick before)
      (fun _ => Covers before) s := by
  refine Async.Safe.bind (safe_call (c := .reapply) trivial h) ?_
  intro pending s₁ h₁
  refine Async.Safe.bind (safe_call (c := .unsettledHolds) trivial h₁) ?_
  intro unsettled s₂ h₂
  split
  · exact safe_call (c := .stopRetry) trivial h₂
  · exact h₂

theorem safe_tick (h : Covers before s) :
    tick.Safe sparingContract (.tick before) (fun _ _ => True) s := by
  refine Async.Safe.bind (safe_reapplyOnce h) ?_
  intro _ s₁ h₁
  refine Async.Safe.bind (safe_listActiveBootHolds h₁) ?_
  rintro holds s₂ ⟨h₂, hholds⟩
  refine Async.Safe.bind (safe_call (c := .settling) trivial h₂) ?_
  intro settling s₃ h₃
  refine Async.Safe.bind (Async.Safe.forEach
    (fun hold hmem s hs => safe_retryHold settling (hholds hold hmem) hs) h₃) ?_
  intro _ s₄ h₄
  refine Async.Safe.bind (safe_call (c := .unsettledHolds) trivial h₄) ?_
  intro unsettled s₅ h₅
  have hheldIds : ∀ id ∈ holds.map (·.managedId), before id = false := by
    intro id hmem
    obtain ⟨hold, hhold, rfl⟩ := List.mem_map.mp hmem
    exact hholds hold hhold
  refine Async.Safe.bind (Async.Safe.forEach
    (fun managedId _ s hs => safe_retryUnsettled managedId hheldIds hs) h₅) ?_
  intro _ s₆ h₆
  refine Async.Safe.bind (safe_stopWhenSettled holds settling h₆) ?_
  intro _ s₇ h₇
  exact (safe_call (c := .endTick) trivial h₇).conseq fun _ _ _ => trivial

end

/-! ## Runs -/

theorem spawn_keeps_released {kind : Spawn} {s s' : Host} {thread : Thread Tag Call}
    (hinv : sparingContract.inv s) (h : spawn kind s = some (s', thread)) :
    sparingContract.inv s' ∧ sparingContract.rely s s' ∧
      thread.program.Safe sparingContract thread.tag (fun _ _ => True) s' := by
  cases kind with
  | boot =>
    rw [spawn] at h
    split at h
    · cases h
    · obtain ⟨rfl, rfl⟩ := Prod.mk.inj (Option.some.inj h)
      exact ⟨hinv, fun _ hid => hid, safe_plain _ _⟩
  | tick =>
    rw [spawn] at h
    split at h
    · obtain ⟨rfl, rfl⟩ := Prod.mk.inj (Option.some.inj h)
      exact ⟨hinv, fun _ hid => hid, safe_tick fun _ hid => hid⟩
    · cases h
  | _ =>
    obtain ⟨rfl, rfl⟩ := Prod.mk.inj (Option.some.inj h)
    exact ⟨hinv, fun _ hid => hid, safe_plain _ _⟩

/-- In every run of one process in which a tick's reapply lists no released member to hold,
and a tick finds no held stop and no unsettled cleared marker of a released cluster, a tick
leaves alone what was released before it began. -/
theorem leavesReleased_of_sparing {disk : String → IntentLookup} {directories : List String}
    {holds : String → Option HoldFile} {bootRecord : Option HostBootRecord} {nowMs : ℕ}
    {s : Pool Tag Call Host}
    (h : Reaches daemon.step sparing.event
      (Pool.idle (start disk directories holds bootRecord nowMs)) s) : LeavesReleased s := by
  have hsound : s.Sound sparingContract := by
    refine Process.sound_of_reaches id ?_ ?_ ?_ ?_ h
    · exact fun kind s s' thread hinv hspawn => spawn_keeps_released hinv hspawn
    · exact fun action s s' hinv _ hact => act_keeps_released hinv hact
    · exact fun _ _ hrestart => hrestart.elim
    · exact fun _ hid => nomatch hid
  intro i releasedBefore β c next hthread
  exact (hsound.safe i _ hthread).1

/-! ## Two runs -/

instance (looker : Looker) (slot : Option Slot) : Decidable (looker.Spared slot) :=
  match slot with
  | some (.marker intent) => inferInstanceAs (Decidable (isHeldStop (.found intent) = false))
  | some .cleared => inferInstanceAs (Decidable (looker = .listing))
  | none => isTrue trivial

/-- The steps of one process; a tick's calls are sparing ones. -/
def isSparing (s : Pool Tag Call Host) : Event Reply Spawn Act → Bool
  | .answer i reply =>
    match s.threads i with
    | some ⟨.tick _, .await (.listMembers) _⟩ => reply.members.all fun member =>
        !s.shared.released member.managedId || !isHoldablePrimary member
    | some ⟨.tick _, .await (.isManagedMemberDemoted managedId) _⟩ =>
        !s.shared.released managedId || !reply.demoted
    | some ⟨.tick _, .await (.lookupMemory looker managedId) _⟩ =>
        !s.shared.released managedId ||
          decide (looker.Spared (s.shared.intents managedId).memory)
    | _ => true
  | .restart => false
  | _ => true

theorem sparing_of_isSparing (s : Pool Tag Call Host) (event : Event Reply Spawn Act)
    (h : isSparing s event = true) : sparing.event s event := by
  cases event with
  | answer i reply =>
    intro tag β c next hthread
    cases tag with
    | plain => trivial
    | tick before =>
      cases c with
      | listMembers =>
        simp only [isSparing, hthread, List.all_eq_true, Bool.or_eq_true, Bool.not_eq_true'] at h
        intro member hmember hreleased
        exact (h member hmember).resolve_left (by simp [hreleased])
      | isManagedMemberDemoted managedId =>
        simp only [isSparing, hthread, Bool.or_eq_true, Bool.not_eq_true'] at h
        intro hreleased
        exact h.resolve_left (by simp [hreleased])
      | lookupMemory looker managedId =>
        simp only [isSparing, hthread, Bool.or_eq_true, Bool.not_eq_true', decide_eq_true_eq] at h
        intro hreleased
        exact h.resolve_left (by simp [hreleased])
      | _ => trivial
  | restart => cases h
  | _ => trivial

/-- The runs of one process. -/
def oneProcess : Allowed Tag Call Host Reply Act where
  call := fun _ _ _ _ _ => True
  act := fun _ _ => True
  restart := fun _ => False

/-- A primary with one peer. -/
def primaryA : Member := ⟨"a", "m", "postgres", .primary, some 1, 1, by decide⟩

/-- A host that went down uncleanly. -/
def downHost : Host := start (fun _ => .none) [] (fun _ => none) (some ⟨"0", false⟩) 0

/-- Calls that go well. -/
def goesWell (i calls : ℕ) : List (Event Reply Spawn Act) := List.replicate calls (.answer i {})

/-- The boot hold of one primary, with what its compose stop makes. -/
def bootRun (stops : Bool) : List (Event Reply Spawn Act) :=
  [.spawn 0 .boot, .answer 0 { bootId := some "1" }, .answer 0 {},
    .answer 0 { members := [primaryA] }] ++ goesWell 0 6 ++ [.answer 0 { ok := stops }] ++
    goesWell 0 (if stops then 5 else 4) ++ [.answer 0 { bootId := some "1" }, .answer 0 {}]

/-- Docker does not stop the engine.  The control plane cannot answer, so the reporter releases
the hold; the next tick finds the cluster unsettled and its marker cleared. -/
def clearedRun : List (Event Reply Spawn Act) :=
  bootRun false ++ [.spawn 1 .tick] ++ goesWell 1 5 ++ [.answer 1 { ok := false }] ++
    goesWell 1 1 ++ [.answer 1 { ok := false }] ++ goesWell 1 3 ++
    [.spawn 2 .report] ++ goesWell 2 3 ++ [.answer 2 { support := some false }] ++ goesWell 2 5 ++
    [.spawn 3 .tick] ++ goesWell 3 6

/-- Thread `i` is a tick about to stop a cluster that was released before it began. -/
def stopsReleased (i : ℕ) (s : Pool Tag Call Host) : Bool :=
  match s.threads i with
  | some ⟨.tick before, .await (.composeStop managedId) _⟩ => before managedId
  | _ => false

theorem not_leavesReleased_of_stopsReleased {i : ℕ} {s : Pool Tag Call Host}
    (h : stopsReleased i s = true) : ¬LeavesReleased s := by
  intro hleaves
  rw [stopsReleased] at h
  split at h
  case h_1 before managedId next hthread =>
    have hspares : before managedId = false := hleaves i before _ _ next hthread
    exact absurd h (by simp [hspares])
  case h_2 => cases h

/-- A released primary is stopped again. -/
theorem clearedRun_not_leavesReleased :
    ∃ s, Reaches daemon.step oneProcess.event (Pool.idle downHost) s ∧ ¬LeavesReleased s := by
  have hends : (runFrom (fun s event => if (match event with | .restart => false | _ => true) then
      daemon.step s event else none) (Pool.idle downHost) clearedRun).map (stopsReleased 3) =
      some true := by
    decide +kernel
  obtain ⟨s, hrun, hstops⟩ := Option.map_eq_some_iff.mp hends
  refine ⟨s, Reaches.refl.of_checked ?_ hrun, not_leavesReleased_of_stopsReleased hstops⟩
  intro s event hevent
  cases event with
  | answer i reply => exact fun _ _ _ _ _ => trivial
  | restart => cases hevent
  | _ => trivial

/-- The hold is complete, a start succeeds, and a tick looks at the cluster again. -/
def startedRun : List (Event Reply Spawn Act) :=
  bootRun true ++ [.spawn 1 .tick] ++ goesWell 1 10 ++
    [.act (.command "a" (.begin 0 .start)), .act (.command "a" (.decide 0)),
      .act (.command "a" (.callEnd 0 true false)), .act (.command "a" (.decide 0)),
      .act (.command "a" (.settle 0)), .spawn 2 .tick] ++ goesWell 2 4

/-- Thread `i` is a tick in flight that began after the cluster was released. -/
def beganAfterRelease (i : ℕ) (managedId : String) (s : Pool Tag Call Host) : Bool :=
  match s.threads i with
  | some ⟨.tick before, .await _ _⟩ => before managedId
  | _ => false

/-- A primary that was confirmed is left alone. -/
theorem leavesReleased_of_startedRun :
    ∃ s, Reaches daemon.step sparing.event (Pool.idle downHost) s ∧
      beganAfterRelease 2 "a" s = true ∧ LeavesReleased s := by
  have hends : (runFrom (fun s event => if isSparing s event then daemon.step s event else none)
      (Pool.idle downHost) startedRun).map (beganAfterRelease 2 "a") = some true := by
    decide +kernel
  obtain ⟨s, hrun, hbegan⟩ := Option.map_eq_some_iff.mp hends
  have hreaches : Reaches daemon.step sparing.event (Pool.idle downHost) s :=
    Reaches.refl.of_checked sparing_of_isSparing hrun
  exact ⟨s, hreaches, hbegan, leavesReleased_of_sparing hreaches⟩

end Turbopaneld.Managed.BootHold
