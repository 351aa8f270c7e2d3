/-
# How long a boot hold lasts

A hold that was taken should last until a command or the reporter releases it, also over a
restart of the daemon, and a hold file should say that the engine is stopped only after a stop
on this boot.  Both fail: the disk copy of the marker may not have been written, and a hold
file of an earlier boot is used again as it is.

A hold lasts where a restart finds its marker on disk, a hold file is removed and a marker
written only on a look that still holds, and no destroy begins and no probe clears the marker
while the hold stands.  What a hold file says is true where none said so at the boot.
-/

import Turbopaneld.Managed.BootContract
import Turbopaneld.Managed.BootReleased

namespace Turbopaneld.Managed.BootHold

open Programs Machines Intent

/-! ## What is asked of a hold -/

/-- An operation that goes well. -/
def goesWellNow {β : Type} (c : Call β) (s : Host) : β × Host := perform c {} s

/-- A listing made now, whose own reads succeed. -/
def listedNow (s : Host) : List BootHoldRecord := (listActiveBootHolds.alone goesWellNow s).1

structure HoldsKept (s : Host) : Prop where
  /-- What a hold that returned true held is listed until it is released. -/
  listed : ∀ managedId releases, (managedId, releases) ∈ s.applied →
    s.releases managedId = releases → ∃ record ∈ listedNow s, record.managedId = managedId
  /-- A hold file says that the engine is stopped only after a stop. -/
  stopped : ∀ managedId file, s.holds managedId = some file → file.engineStopped = true →
    s.stopped managedId = true

/-! ## The programs -/

section

variable {t : Tag} {s : Host}

/-- A call whose answer does not matter. -/
theorem keeps_call {α : Type} {c : Call α} (hpre : KeepingPre c s) :
    (Async.perform c).Safe keepingContract t (fun _ _ => True) s :=
  Async.Safe.perform hpre fun _ _ _ _ _ _ _ _ => trivial

/-- A hold record that was read says what the host knows. -/
theorem keeps_readHold (managedId : String) :
    (Async.perform (.readHold managedId)).Safe keepingContract t
      (fun found s => ∀ record, found = some record →
        record.managedId = managedId ∧ Truthful record s) s := by
  refine Async.Safe.perform trivial ?_
  rintro _ _ hinv found s' ⟨reply, -, hfound, rfl⟩ _ _ record rfl
  change some record = if reply.ok then _ else none at hfound
  split at hfound
  · obtain ⟨file, hfile, rfl⟩ := Option.map_eq_some_iff.mp hfound.symm
    exact ⟨rfl, hinv.stopped managedId file hfile⟩
  · cases hfound

theorem keeps_composeStop (managedId : String) :
    (Async.perform (.composeStop managedId)).Safe keepingContract t
      (fun stopped s => stopped = true → s.stopped managedId = true) s := by
  refine Async.Safe.perform trivial ?_
  rintro s₁ _ _ stopped s' ⟨reply, -, rfl, rfl⟩ _ _ hok
  change reply.ok = true at hok
  change (if reply.ok then _ else s₁).stopped managedId = true
  rw [if_pos hok]
  exact Function.update_self managedId true s₁.stopped

theorem keeps_lookupIntent (looker : Looker) (managedId : String) :
    (lookupIntent looker managedId).Safe keepingContract t (fun _ _ => True) s := by
  refine Async.Safe.bind (keeps_call (c := .lookupMemory looker managedId) trivial) ?_
  rintro slot s₁ -
  match slot with
  | some .cleared => trivial
  | some (.marker intent) => trivial
  | none => exact keeps_call (c := .readMarker managedId) trivial

/-- Since its marker was recorded, a cluster is held. -/
theorem keeps_recordHeldStop (holder : Holder) (managedId : String) :
    (recordHeldStop holder managedId).Safe keepingContract t
      (fun releases s => holder = .boot → Since s managedId releases True) s := by
  refine Async.Safe.perform_bind trivial ?_
  rintro s₁ _ _ ⟨intent, releases⟩ s' ⟨reply, -, hanswer, rfl⟩ _ _
  have hreleases : releases = s₁.releases managedId := congrArg Prod.snd hanswer
  have hsince : holder = .boot →
      Since (daemon.perform (.recordStop holder managedId) reply s₁).2 managedId releases True := by
    rintro rfl
    refine ⟨hreleases ▸ Nat.le_refl _, ?_⟩
    intro _
    have hheld : Function.update s₁.bootHeld managedId true managedId = true :=
      Function.update_self managedId true s₁.bootHeld
    exact ⟨hheld, trivial⟩
  have hmemory : ((daemon.perform (.recordStop holder managedId) reply s₁).2.intents
      managedId).memory ≠ none := by
    have hupdate : (Function.update s₁.intents managedId
        ((s₁.intents managedId).record .stop .held managedIntentTtlMs).2 managedId).memory ≠
          none := by
      rw [Function.update_self]
      exact Option.some_ne_none _
    cases holder with
    | boot => exact hupdate
    | other => exact hupdate
  refine Async.Safe.bind ((keeps_call (c := .writeMarker managedId intent) hmemory).frame ?_
    hsince) fun _ _ h => h.2
  exact fun hrely h hboot => (h hboot).stable hrely fun _ _ h => h

theorem keeps_clearManagedIntent (clearer : Clearer) (managedId : String) :
    (clearManagedIntent clearer managedId).Safe keepingContract t (fun _ _ => True) s := by
  refine Async.Safe.perform_bind trivial ?_
  rintro s₁ _ _ _ s' ⟨reply, -, -, rfl⟩ _ _
  refine keeps_call (c := .removeMarker managedId) ?_
  have hupdate : (Function.update s₁.intents managedId
      { s₁.intents managedId with memory := some .cleared } managedId).memory ≠ none := by
    rw [Function.update_self]
    exact Option.some_ne_none _
  cases clearer with
  | release => exact hupdate
  | probe => exact hupdate

/-! ### Holding -/

theorem keeps_holdFor (member : Member) {existing : Option BootHoldRecord}
    (hexisting : ∀ record, existing = some record →
      record.managedId = member.managedId ∧ Truthful record s) :
    (holdFor member existing).Safe keepingContract t
      (fun record s => record.managedId = member.managedId ∧ Truthful record s) s := by
  cases existing with
  | some record => exact hexisting record rfl
  | none =>
    refine Async.Safe.bind (keeps_call (c := .nowIso) trivial) ?_
    exact fun _ _ _ => ⟨rfl, fun hstopped => nomatch hstopped⟩

/-- Where both writes went well, the cluster has its hold file. -/
theorem keeps_writeFirst {managedId : String} {record : BootHoldRecord} {releases : ℕ}
    (hid : record.managedId = managedId) (hrecord : Truthful record s)
    (hsince : Since s managedId releases True) :
    (writeFirst managedId record).Safe keepingContract t
      (fun written s => written = true → Since s managedId releases
        (managedId ∈ s.directories ∧ (s.holds managedId).isSome = true)) s := by
  refine Async.Safe.perform_bind trivial ?_
  rintro s₁ _ _ made s' ⟨reply, -, hmade, hs'⟩ hrely _
  cases made with
  | false => exact fun hwritten => nomatch hwritten
  | true =>
    have hok : reply.ok = true := hmade.symm
    have hdirectory : managedId ∈ s'.directories := by
      rw [hs']
      change managedId ∈ (if reply.ok && !s₁.directories.contains managedId then _
        else s₁).directories
      rw [hok, Bool.true_and]
      by_cases hmem : s₁.directories.contains managedId = true
      · rw [hmem]
        exact List.contains_iff_mem.mp hmem
      · rw [Bool.not_eq_true] at hmem
        rw [hmem]
        exact List.mem_append_right _ (List.mem_singleton.mpr rfl)
    have hmade' : Since s' managedId releases (managedId ∈ s'.directories) :=
      hsince.stable hrely fun _ _ _ => hdirectory
    refine Async.Safe.perform (Truthful.stable hrely hrecord) ?_
    rintro s₂ _ _ written s₃ ⟨reply', -, hwritten, hs₃⟩ hrely' _ hok'
    refine hmade'.stable hrely' ?_
    intro hsame hheld hmem
    refine ⟨hrely'.directory managedId hsame hheld hmem, ?_⟩
    have hwrote : (reply'.ok && s₂.directories.contains record.managedId) = true :=
      hwritten.symm.trans hok'
    rw [hs₃]
    change ((if reply'.ok && s₂.directories.contains record.managedId then s₂.writeHold record
      else s₂).holds managedId).isSome = true
    rw [hwrote, ← hid]
    change (Function.update s₂.holds record.managedId _ record.managedId).isSome = true
    rw [Function.update_self]
    rfl

theorem keeps_writeFinal {record : BootHoldRecord} {stopped : Bool}
    (hstopped : stopped = true → s.stopped record.managedId = true) :
    (writeFinal record stopped).Safe keepingContract t (fun _ _ => True) s := by
  rw [writeFinal]
  split
  case isTrue hwrites =>
    simp only [Bool.and_eq_true] at hwrites
    exact keeps_call (c := .writeHold { record with engineStopped := true })
      fun _ => hstopped hwrites.1
  case isFalse => trivial

/-- A cluster whose hold does not throw is held until it is released. -/
theorem keeps_holdOne (member : Member) :
    (holdOne member).Safe keepingContract t
      (fun outcome s => ∀ releases, outcome = some releases → Stands s member.managedId releases)
      s := by
  refine Async.Safe.bind (keeps_readHold member.managedId) ?_
  intro existing s₁ hexisting
  refine Async.Safe.bind (keeps_holdFor member hexisting) ?_
  rintro record s₂ ⟨hid, hrecord₂⟩
  refine Async.Safe.bind
    ((keeps_recordHeldStop .boot member.managedId).frame Truthful.stable hrecord₂) ?_
  rintro releases s₃ ⟨hsince, hrecord₃⟩
  refine Async.Safe.bind (keeps_writeFirst hid hrecord₃ (hsince rfl)) ?_
  intro written s₄ hwritten
  have hstands₄ : written = true → Stands s₄ member.managedId releases :=
    fun h => ⟨member.safe, hwritten h⟩
  refine Async.Safe.bind ((keeps_composeStop member.managedId).frame
    (F := fun s => written = true → Stands s member.managedId releases)
    (fun hrely h hw => (h hw).stable hrely) hstands₄) ?_
  rintro stopped s₅ ⟨hstopped, hstands₅⟩
  refine Async.Safe.bind
    ((keeps_call (c := .setUnsettled member.managedId !stopped) trivial).frame
      (F := fun s => (stopped = true → s.stopped member.managedId = true) ∧
        (written = true → Stands s member.managedId releases))
      (fun hrely h => ⟨fun hs => hrely.stopped _ (h.1 hs), fun hw => (h.2 hw).stable hrely⟩)
      ⟨hstopped, hstands₅⟩) ?_
  rintro _ s₆ ⟨-, hstopped₆, hstands₆⟩
  cases written with
  | false => exact fun _ hnone => nomatch hnone
  | true =>
    refine Async.Safe.bind ((keeps_writeFinal (hid ▸ hstopped₆)).frame
      (fun hrely h => Stands.stable hrely h) (hstands₆ rfl)) ?_
    rintro noted s₇ ⟨-, hstands₇⟩ releases' houtcome
    cases noted with
    | false => cases houtcome
    | true =>
      obtain rfl := Option.some.inj houtcome
      exact hstands₇

theorem keeps_isToHold (member : Member) :
    (isToHold member).Safe keepingContract t (fun _ _ => True) s := by
  rw [isToHold]
  split
  · trivial
  · exact keeps_call (c := .isManagedMemberDemoted member.managedId) trivial

theorem keeps_membersToHold (members : List Member) :
    (membersToHold members).Safe keepingContract t (fun _ _ => True) s := by
  induction members generalizing s with
  | nil => trivial
  | cons member rest ih =>
    refine Async.Safe.bind (keeps_isToHold member) ?_
    rintro hold s₁ -
    exact Async.Safe.bind ih fun _ _ _ => trivial

theorem keeps_holdMembers (members : List Member) :
    (holdMembers members).Safe keepingContract t
      (fun outcome s => ∀ id releases, (id, releases) ∈ outcome.1 → Stands s id releases) s := by
  induction members generalizing s with
  | nil => exact fun _ _ hmem => nomatch hmem
  | cons member rest ih =>
    refine Async.Safe.bind (keeps_holdOne member) ?_
    intro outcome s₁ houtcome
    cases outcome with
    | none =>
      refine Async.Safe.bind
        (keeps_call (c := .setUnsettled member.managedId true) trivial) ?_
      rintro _ s₂ -
      exact Async.Safe.bind ih fun _ _ hheld => hheld
    | some releases =>
      refine Async.Safe.bind (ih.frame (fun hrely h => Stands.stable hrely h)
        (houtcome releases rfl)) ?_
      rintro ⟨held, failed⟩ s₂ ⟨hheld, hstands⟩ id releases' hmem
      rcases List.mem_cons.mp hmem with heq | hmem
      · obtain ⟨rfl, rfl⟩ := Prod.mk.inj heq
        exact hstands
      · exact hheld id releases' hmem

theorem keeps_holdListed (members : List Member) :
    (holdListed members).Safe keepingContract t (fun _ _ => True) s := by
  refine Async.Safe.bind (keeps_membersToHold members) ?_
  rintro toHold s₁ -
  refine Async.Safe.bind (keeps_holdMembers toHold) ?_
  rintro ⟨held, failed⟩ s₂ hheld
  cases failed with
  | true => trivial
  | false => exact Async.Safe.bind (keeps_call (c := .held held) hheld) fun _ _ _ => trivial

theorem keeps_applyBootHold (kind : HostBootKind) :
    (applyBootHold kind).Safe keepingContract t (fun _ _ => True) s := by
  rw [applyBootHold]
  split
  case isFalse => trivial
  case isTrue =>
    refine Async.Safe.bind (keeps_call (c := .listMembers) trivial) ?_
    rintro listed s₁ -
    cases listed with
    | none => trivial
    | some members => exact Async.Safe.bind (keeps_holdListed members) fun _ _ _ => trivial

/-! ### Listing, stopping and releasing -/

theorem keeps_listOne (managedId : String) :
    (listOne managedId).Safe keepingContract t
      (fun found s => ∀ record ∈ found.toList, Truthful record s) s := by
  refine Async.Safe.bind (keeps_readHold managedId) ?_
  intro found s₁ hfound
  cases found with
  | none => exact fun _ hmem => nomatch hmem
  | some record =>
    refine Async.Safe.bind ((keeps_lookupIntent .listing managedId).frame Truthful.stable
      (hfound record rfl).2) ?_
    rintro lookup s₂ ⟨-, hrecord⟩
    cases hheld : isHeldStop lookup with
    | true =>
      rw [if_pos rfl]
      intro hold hmem
      obtain rfl := List.mem_singleton.mp hmem
      exact hrecord
    | false =>
      rw [if_neg Bool.false_ne_true]
      exact Async.Safe.bind (keeps_call (c := .removeHold managedId lookup) hheld)
        fun _ _ _ _ hmem => nomatch hmem

theorem keeps_listEach (ids : List String) :
    (listEach ids).Safe keepingContract t
      (fun holds s => ∀ record ∈ holds, Truthful record s) s := by
  induction ids generalizing s with
  | nil => exact fun _ hmem => nomatch hmem
  | cons managedId rest ih =>
    refine Async.Safe.bind (keeps_listOne managedId) ?_
    intro found s₁ hfound
    refine Async.Safe.bind (ih.frame (F := fun s => ∀ record ∈ found.toList, Truthful record s)
      (fun hrely h record hmem => (h record hmem).stable hrely) hfound) ?_
    rintro others s₂ ⟨hothers, hfound₂⟩ record hmem
    rcases List.mem_append.mp hmem with hmem | hmem
    · exact hfound₂ record hmem
    · exact hothers record hmem

theorem keeps_listActiveBootHolds :
    listActiveBootHolds.Safe keepingContract t
      (fun holds s => ∀ record ∈ holds, Truthful record s) s := by
  refine Async.Safe.bind (keeps_call (c := .readDir) trivial) ?_
  rintro ids s₁ -
  cases ids with
  | none => exact fun _ hmem => nomatch hmem
  | some ids => exact keeps_listEach ids

theorem keeps_ensureHoldStopped (record : BootHoldRecord) :
    (ensureHoldStopped record).Safe keepingContract t (fun _ _ => True) s := by
  rw [ensureHoldStopped]
  split
  · trivial
  · refine Async.Safe.bind (keeps_composeStop record.managedId) ?_
    intro stopped s₁ hstopped
    cases stopped with
    | false => trivial
    | true =>
      refine Async.Safe.bind (keeps_call
        (c := .writeHold { record with engineStopped := true }) fun _ => hstopped rfl) ?_
      exact fun _ _ _ => trivial

theorem keeps_releaseBootHoldLocally (record : BootHoldRecord) :
    (releaseBootHoldLocally record).Safe keepingContract t (fun _ _ => True) s := by
  refine Async.Safe.bind
    (keeps_call (c := .isManagedMemberDemoted record.managedId) trivial) ?_
  rintro demoted s₁ -
  cases demoted with
  | true => trivial
  | false =>
    refine Async.Safe.bind (keeps_clearManagedIntent .release record.managedId) ?_
    rintro _ s₂ -
    refine Async.Safe.bind (keeps_call (c := .removeHold record.managedId .none) rfl) ?_
    rintro _ s₃ -
    exact Async.Safe.bind (keeps_call (c := .composeStart record.managedId) trivial)
      fun _ _ _ => trivial

theorem keeps_recordHostBootPersist :
    recordHostBootPersist.Safe keepingContract t (fun _ _ => True) s := by
  refine Async.Safe.bind (keeps_call (c := .readProcBootId) trivial) ?_
  rintro bootId s₁ -
  cases bootId with
  | none => trivial
  | some bootId => exact keeps_call (c := .writeBootRecord bootId) trivial

theorem keeps_reapplyOnce : reapplyOnce.Safe keepingContract t (fun _ _ => True) s := by
  refine Async.Safe.bind (keeps_call (c := .reapply) trivial) ?_
  rintro pending s₁ -
  cases pending with
  | none => trivial
  | some kind =>
    refine Async.Safe.bind (keeps_applyBootHold kind) ?_
    rintro outcome s₂ -
    match outcome with
    | none => trivial
    | some false => trivial
    | some true =>
      refine Async.Safe.bind keeps_recordHostBootPersist ?_
      rintro persisted s₃ -
      cases persisted with
      | false => trivial
      | true => exact keeps_call (c := .setReapply none) trivial

theorem keeps_retryHold (settling : Bool) (hold : BootHoldRecord) :
    (retryHold settling hold).Safe keepingContract t (fun _ _ => True) s := by
  rw [retryHold]
  split
  · exact keeps_ensureHoldStopped hold
  · split
    · exact Async.Safe.bind (keeps_call (c := .composeStop hold.managedId) trivial)
        fun _ _ _ => trivial
    · trivial

theorem keeps_stopUnsettled (managedId : String) :
    (stopUnsettled managedId).Safe keepingContract t (fun _ _ => True) s := by
  refine Async.Safe.bind (keeps_call (c := .composeStop managedId) trivial) ?_
  rintro stopped s₁ -
  cases stopped with
  | false => trivial
  | true => exact keeps_call (c := .setUnsettled managedId false) trivial

theorem keeps_retryUnsettled (heldIds : List String) (managedId : String) :
    (retryUnsettled heldIds managedId).Safe keepingContract t (fun _ _ => True) s := by
  rw [retryUnsettled]
  split
  · exact keeps_stopUnsettled managedId
  · refine Async.Safe.bind (keeps_lookupIntent .retry managedId) ?_
    rintro lookup s₁ -
    cases lookup with
    | found intent =>
      dsimp only
      split
      · exact keeps_stopUnsettled managedId
      · exact keeps_call (c := .setUnsettled managedId false) trivial
    | none => exact keeps_stopUnsettled managedId
    | unreadable => exact keeps_stopUnsettled managedId

theorem keeps_stopWhenSettled (holds : List BootHoldRecord) (settling : Bool) :
    (stopWhenSettled holds settling).Safe keepingContract t (fun _ _ => True) s := by
  refine Async.Safe.bind (keeps_call (c := .reapply) trivial) ?_
  rintro pending s₁ -
  refine Async.Safe.bind (keeps_call (c := .unsettledHolds) trivial) ?_
  rintro rest s₂ -
  split
  · exact keeps_call (c := .stopRetry) trivial
  · trivial

theorem keeps_tick : tick.Safe keepingContract t (fun _ _ => True) s := by
  refine Async.Safe.bind keeps_reapplyOnce ?_
  rintro _ s₁ -
  refine Async.Safe.bind keeps_listActiveBootHolds ?_
  rintro holds s₂ -
  refine Async.Safe.bind (keeps_call (c := .settling) trivial) ?_
  rintro settling s₃ -
  refine Async.Safe.bind
    (Async.Safe.forEach (fun hold _ _ _ => keeps_retryHold settling hold) trivial) ?_
  rintro _ s₄ -
  refine Async.Safe.bind (keeps_call (c := .unsettledHolds) trivial) ?_
  rintro unsettled s₅ -
  refine Async.Safe.bind
    (Async.Safe.forEach (fun managedId _ _ _ => keeps_retryUnsettled _ managedId) trivial) ?_
  rintro _ s₆ -
  exact Async.Safe.bind (keeps_stopWhenSettled holds settling) fun _ _ _ =>
    keeps_call (c := .endTick) trivial

theorem keeps_releaseAll (holds : List BootHoldRecord) :
    (releaseAll holds).Safe keepingContract t (fun _ _ => True) s := by
  induction holds generalizing s with
  | nil => trivial
  | cons hold rest ih =>
    refine Async.Safe.bind (keeps_releaseBootHoldLocally hold) ?_
    rintro goesOn s₁ -
    cases goesOn with
    | true => exact ih
    | false => trivial

theorem keeps_report : report.Safe keepingContract t (fun _ _ => True) s := by
  refine Async.Safe.bind keeps_listActiveBootHolds ?_
  rintro holds s₁ -
  split
  · trivial
  · refine Async.Safe.bind (keeps_call (c := .peerBootHoldSupport) trivial) ?_
    rintro support s₂ -
    match support with
    | none => trivial
    | some false => exact keeps_releaseAll holds
    | some true =>
      exact Async.Safe.forEach (fun hold _ _ _ => keeps_ensureHoldStopped hold) trivial

theorem keeps_boot : boot.Safe keepingContract t (fun _ _ => True) s := by
  refine Async.Safe.bind (keeps_call (c := .readProcBootId) trivial) ?_
  rintro bootId s₁ -
  refine Async.Safe.bind (keeps_call (c := .readHostBootRecord) trivial) ?_
  rintro previous s₂ -
  refine Async.Safe.bind (keeps_applyBootHold _) ?_
  rintro outcome s₃ -
  refine Async.Safe.bind (keeps_call (c := .setReapply _) trivial) ?_
  rintro _ s₄ -
  refine Async.Safe.bind (keeps_call (c := .startRetry) trivial) ?_
  rintro _ s₅ -
  rw [persistWhen]
  split
  · exact Async.Safe.bind keeps_recordHostBootPersist fun _ _ _ => trivial
  · trivial

theorem keeps_holdStop (managedId : String) :
    (holdStop managedId).Safe keepingContract t (fun _ _ => True) s :=
  Async.Safe.bind (keeps_recordHeldStop .other managedId) fun _ _ _ => trivial

end

/-! ## Runs -/

theorem spawn_keeps_holds {kind : Spawn} {s s' : Host} {thread : Thread Tag Call}
    (hinv : KeptInv s) (h : spawn kind s = some (s', thread)) :
    KeptInv s' ∧ KeepsHolds s s' ∧
      thread.program.Safe keepingContract thread.tag (fun _ _ => True) s' := by
  cases kind with
  | boot =>
    rw [spawn] at h
    split at h
    · cases h
    · obtain ⟨rfl, rfl⟩ := Prod.mk.inj (Option.some.inj h)
      have hsame : KeptInv { s with booted := true } ∧ KeepsHolds s { s with booted := true } :=
        hinv.same rfl rfl rfl rfl rfl rfl rfl
      exact ⟨hsame.1, hsame.2, keeps_boot⟩
  | tick =>
    rw [spawn] at h
    split at h
    · obtain ⟨rfl, rfl⟩ := Prod.mk.inj (Option.some.inj h)
      have hsame : KeptInv { s with ticking := true } ∧ KeepsHolds s { s with ticking := true } :=
        hinv.same rfl rfl rfl rfl rfl rfl rfl
      exact ⟨hsame.1, hsame.2, keeps_tick⟩
    · cases h
  | report =>
    obtain ⟨rfl, rfl⟩ := Prod.mk.inj (Option.some.inj h)
    exact ⟨hinv, KeepsHolds.refl _, keeps_report⟩
  | probeClears managedId =>
    obtain ⟨rfl, rfl⟩ := Prod.mk.inj (Option.some.inj h)
    exact ⟨hinv, KeepsHolds.refl _, keeps_clearManagedIntent .probe managedId⟩
  | holdStop managedId =>
    obtain ⟨rfl, rfl⟩ := Prod.mk.inj (Option.some.inj h)
    exact ⟨hinv, KeepsHolds.refl _, keeps_holdStop managedId⟩

theorem act_keeps_holds {action : Act} {s s' : Host} (hinv : KeptInv s)
    (hallowed : KeepingAct action s) (h : act action s = some s') :
    KeptInv s' ∧ KeepsHolds s s' := by
  cases action with
  | advance ms =>
    obtain rfl := Option.some.inj h
    have hmarker : ∀ id, MarkerKept { s.intents id with nowMs := (s.intents id).nowMs + ms }
        (s.bootHeld id) := fun id =>
      ⟨(hinv.marker id).fresh, (hinv.marker id).wrote, (hinv.marker id).marker⟩
    exact hinv.next ⟨fun _ => Nat.le_refl _, fun _ _ hid => hid, fun _ _ _ hid => hid,
      fun _ _ _ hid => hid, fun _ hid => hid, fun _ hid => hid⟩ rfl hmarker hinv.stopped
  | removeDirectory managedId c =>
    rw [act] at h
    split at h
    · obtain rfl := Option.some.inj h
      refine hinv.removeHold hallowed _ ?_
      intro id hid hmem
      exact List.mem_filter.mpr ⟨hmem, by simpa using hid⟩
    · cases h
  | command managedId action =>
    obtain ⟨intent, hstep, rfl⟩ := commandStep_eq_some h
    have hkeeping : ∀ c command, action = .decide c →
        (s.intents managedId).commands c = some command →
        KeepingDecision (s.intents managedId) (s.bootHeld managedId) command := by
      rintro c command rfl hcommand
      exact hallowed command hcommand
    have hmemory := memory_ne_none_of_step hstep
    split
    case isTrue =>
      exact hinv.release ((hinv.marker managedId).step hstep hkeeping fun hheld => Bool.noConfusion hheld)
        hmemory
    case isFalse hreleasing =>
      rw [Bool.not_eq_true] at hreleasing
      exact hinv.writeMarker s.bootHeld
        ((hinv.marker managedId).step hstep hkeeping fun hheld => ⟨hheld, hreleasing⟩) hmemory id
        fun _ _ => rfl

/-- Where the markers of the holds are on disk, a restart finds them. -/
theorem restart_keeps_holds {s : Host} (hinv : KeptInv s) (hallowed : keeping.restart s) :
    KeptInv (restart s) := by
  refine ⟨?_, hinv.stopped, hinv.applied⟩
  intro id
  refine ⟨(fun _ _ _ hcommand => nomatch hcommand), (fun _ _ _ hcommand => nomatch hcommand), ?_⟩
  intro hheld
  obtain ⟨intent, hlookup, hstop, hfresh, -⟩ := (hinv.marker id).marker hheld
  exact ⟨intent, (hallowed id hheld).trans hlookup, hstop, hfresh,
    fun _ _ hcommand => nomatch hcommand⟩

/-! ### A listing -/

section

variable (s : Host) (managedId : String)

theorem lookupIntent_alone (looker : Looker) :
    (lookupIntent looker managedId).alone goesWellNow s = ((s.intents managedId).lookup, s) := by
  have hread : (Async.perform (.lookupMemory looker managedId)).alone goesWellNow s =
      ((s.intents managedId).memory, s) := rfl
  have hlookup : (s.intents managedId).lookup =
      lookupManagedIntent (s.intents managedId).memory (s.intents managedId).disk := rfl
  rw [lookupIntent, Async.alone_bind, hread, hlookup]
  dsimp only
  cases (s.intents managedId).memory with
  | none => rfl
  | some slot => cases slot <;> rfl

theorem listOne_alone : (listOne managedId).alone goesWellNow s =
    match s.holds managedId with
    | none => (none, s)
    | some file =>
      if isHeldStop (s.intents managedId).lookup then (some ⟨file, managedId⟩, s)
      else (none, { s with holds := Function.update s.holds managedId none }) := by
  have hread : (Async.perform (.readHold managedId)).alone goesWellNow s =
      ((s.holds managedId).map fun file => ⟨file, managedId⟩, s) := rfl
  rw [listOne, Async.alone_bind, hread]
  dsimp only
  cases s.holds managedId with
  | none => rfl
  | some file =>
    change Async.alone goesWellNow (lookupIntent .listing managedId >>= _) s = _
    rw [Async.alone_bind, lookupIntent_alone]
    cases isHeldStop (s.intents managedId).lookup with
    | true => rfl
    | false => rfl

variable {s managedId}

/-- A cluster with a hold file and a held stop is listed. -/
theorem mem_listEach_alone {ids : List String} (hmem : managedId ∈ ids)
    (hfile : (s.holds managedId).isSome = true)
    (hheld : isHeldStop (s.intents managedId).lookup = true) :
    ∃ record ∈ ((listEach ids).alone goesWellNow s).1, record.managedId = managedId := by
  induction ids generalizing s with
  | nil => cases hmem
  | cons first rest ih =>
    rw [listEach, Async.alone_bind, Async.alone_bind]
    by_cases hfirst : managedId = first
    · subst hfirst
      obtain ⟨file, hsome⟩ := Option.isSome_iff_exists.mp hfile
      have hone : ((listOne managedId).alone goesWellNow s).1 = some ⟨file, managedId⟩ := by
        rw [listOne_alone, hsome]
        dsimp only
        rw [if_pos hheld]
      refine ⟨⟨file, managedId⟩, ?_, rfl⟩
      rw [hone]
      exact List.mem_append_left _ (List.mem_singleton.mpr rfl)
    · -- The listing of another cluster leaves this one's file and marker alone.
      have hother : ((listOne first).alone goesWellNow s).2.holds managedId = s.holds managedId ∧
          ((listOne first).alone goesWellNow s).2.intents = s.intents := by
        rw [listOne_alone]
        cases s.holds first with
        | none => exact ⟨rfl, rfl⟩
        | some file =>
          dsimp only
          split
          · exact ⟨rfl, rfl⟩
          · exact ⟨Function.update_of_ne hfirst _ _, rfl⟩
      obtain ⟨record, hrecord, hid⟩ := ih ((List.mem_cons.mp hmem).resolve_left hfirst)
        (by rw [hother.1]; exact hfile) (by rw [hother.2]; exact hheld)
      exact ⟨record, List.mem_append_right _ hrecord, hid⟩

end

/-- In every run in which a hold is taken over by no stale look, no destroy and no probe, and a
restart finds its marker on disk, a hold lasts until it is released; and a hold file is true,
where none said at the boot that its engine is stopped. -/
theorem holdsKept_of_keeping {disk : String → IntentLookup} {directories : List String}
    {holds : String → Option HoldFile} {bootRecord : Option HostBootRecord} {nowMs : ℕ}
    (hholds : ∀ managedId file, holds managedId = some file → file.engineStopped = false)
    {s : Pool Tag Call Host}
    (h : Reaches daemon.step keeping.event
      (Pool.idle (start disk directories holds bootRecord nowMs)) s) : HoldsKept s.shared := by
  have hstart : KeptInv (start disk directories holds bootRecord nowMs) := by
    refine ⟨?_, ?_, fun _ _ hmem => nomatch hmem⟩
    · exact fun id => ⟨(fun _ _ _ hcommand => nomatch hcommand),
        (fun _ _ _ hcommand => nomatch hcommand), (fun hheld => nomatch hheld)⟩
    · intro id file hfile hstopped
      rw [hholds id file hfile] at hstopped
      cases hstopped
  have hsound : s.Sound keepingContract := by
    refine Process.sound_of_reaches id ?_ ?_ ?_ hstart h
    · exact fun kind s s' thread hinv hspawn => spawn_keeps_holds hinv hspawn
    · exact fun action s s' hinv hallowed hact => act_keeps_holds hinv hallowed hact
    · exact fun s hinv hallowed => restart_keeps_holds hinv hallowed
  have hinv : KeptInv s.shared := hsound.inv
  refine ⟨?_, hinv.stopped⟩
  intro managedId releases hmem hsame
  obtain ⟨hsafe, -, hsince⟩ := hinv.applied managedId releases hmem
  obtain ⟨hheld, hdirectory, hfile⟩ := hsince hsame
  exact mem_listEach_alone (List.mem_filter.mpr ⟨hdirectory, hsafe⟩) hfile
    (hinv.isHeldStop hheld)

/-! ## Two runs -/

/-- The disk copy of the marker is not written, and nothing tells.  The boot record is, so after
a daemon restart the boot is the same one and the hold is not taken again. -/
def unwrittenRun : List (Event Reply Spawn Act) :=
  [.spawn 0 .boot, .answer 0 { bootId := some "1" }, .answer 0 {},
    .answer 0 { members := [primaryA] }] ++ goesWell 0 3 ++ [.answer 0 { ok := false }] ++
    goesWell 0 8 ++ [.answer 0 { bootId := some "1" }, .answer 0 {}, .restart, .spawn 0 .boot,
    .answer 0 { bootId := some "1" }] ++ goesWell 0 3 ++
    [.answer 0 { bootId := some "1" }, .answer 0 {}]

/-- A hold that was complete is gone after a restart that nobody released it in. -/
theorem unwrittenRun_not_holdsKept :
    ∃ s, Reaches daemon.step (fun _ _ => True) (Pool.idle downHost) s ∧ ¬HoldsKept s.shared := by
  have hends : (runFrom daemon.step (Pool.idle downHost) unwrittenRun).map (fun s =>
      (s.shared.applied, s.shared.releases "a", listedNow s.shared)) =
      some ([("a", 0)], 0, []) := by
    decide +kernel
  obtain ⟨s, hrun, hstate⟩ := Option.map_eq_some_iff.mp hends
  obtain ⟨happlied, hreleases, hlisted⟩ : s.shared.applied = [("a", 0)] ∧
      s.shared.releases "a" = 0 ∧ listedNow s.shared = [] := by
    simpa using hstate
  refine ⟨s, Reaches.refl.of_runFrom hrun, ?_⟩
  intro hkept
  obtain ⟨record, hrecord, -⟩ := hkept.listed "a" 0 (by rw [happlied]; exact List.mem_singleton.mpr rfl)
    hreleases
  rw [hlisted] at hrecord
  cases hrecord

/-- A step that removes no hold file, clears no marker and decides nothing for a command. -/
def isQuiet (s : Pool Tag Call Host) : Event Reply Spawn Act → Bool
  | .answer i _ =>
    match s.threads i with
    | some ⟨_, .await (.removeHold _ _) _⟩ => false
    | some ⟨_, .await (.clearMemory _ _) _⟩ => false
    | _ => true
  | .spawn _ _ => true
  | .act (.advance _) => true
  | _ => false

theorem keeping_of_isQuiet (s : Pool Tag Call Host) (event : Event Reply Spawn Act)
    (h : isQuiet s event = true) : keeping.event s event := by
  cases event with
  | answer i reply =>
    intro tag β c next hthread
    cases c with
    | removeHold managedId seen => simp [isQuiet, hthread] at h
    | clearMemory clearer managedId => simp [isQuiet, hthread] at h
    | _ => trivial
  | spawn i kind => trivial
  | act action =>
    cases action with
    | advance ms => trivial
    | _ => cases h
  | restart => cases h

/-- A hold that goes well, and a tick after it. -/
def heldRun : List (Event Reply Spawn Act) := bootRun true ++ [.spawn 1 .tick] ++ goesWell 1 10

/-- A restarted daemon finds the same boot, and a tick looks at the hold. -/
def restartedRun : List (Event Reply Spawn Act) :=
  [.spawn 0 .boot, .answer 0 { bootId := some "1" }] ++ goesWell 0 3 ++
    [.answer 0 { bootId := some "1" }, .answer 0 {}, .spawn 1 .tick] ++ goesWell 1 5

/-- A hold that went well is kept over a restart. -/
theorem holdsKept_of_restartedRun :
    ∃ s, Reaches daemon.step keeping.event (Pool.idle downHost) s ∧ s.shared.timer = true ∧
      s.shared.applied = [("a", 0)] ∧ s.shared.releases "a" = 0 ∧ HoldsKept s.shared := by
  have hheld : (runFrom (fun s event => if isQuiet s event then daemon.step s event else none)
      (Pool.idle downHost) heldRun).map (fun s => s.shared.bootHeld) =
      some (Function.update (fun _ => false) "a" true) := rfl
  have hrest : ((runFrom (fun s event => if isQuiet s event then daemon.step s event else none)
      (Pool.idle downHost) heldRun).bind fun s => runFrom (fun s event => if isQuiet s event then
        daemon.step s event else none) (Pool.idle (restart s.shared)) restartedRun).map (fun s =>
        (s.shared.timer, s.shared.applied, s.shared.releases "a")) =
      some (true, [("a", 0)], 0) := by
    decide +kernel
  have hdisk : (runFrom (fun s event => if isQuiet s event then daemon.step s event else none)
      (Pool.idle downHost) heldRun).map (fun s =>
        decide ((s.shared.intents "a").disk = (s.shared.intents "a").lookup)) = some true := by
    decide +kernel
  obtain ⟨s₁, hrun₁, hheld⟩ := Option.map_eq_some_iff.mp hheld
  rw [hrun₁] at hdisk hrest
  obtain ⟨s₂, hrun₂, hstate⟩ := Option.map_eq_some_iff.mp hrest
  have hreaches₁ : Reaches daemon.step keeping.event (Pool.idle downHost) s₁ :=
    Reaches.refl.of_checked keeping_of_isQuiet hrun₁
  have hrestart : keeping.restart s₁.shared := by
    intro managedId hmanaged
    rw [hheld] at hmanaged
    by_cases hid : managedId = "a"
    · subst hid
      exact of_decide_eq_true (Option.some.inj hdisk)
    · rw [Function.update_of_ne hid] at hmanaged
      cases hmanaged
  have hreaches₂ : Reaches daemon.step keeping.event (Pool.idle downHost) s₂ :=
    (hreaches₁.tail (a := Event.restart) hrestart rfl).of_checked keeping_of_isQuiet hrun₂
  obtain ⟨htimer, happlied, hreleases⟩ : s₂.shared.timer = true ∧ s₂.shared.applied = [("a", 0)] ∧
      s₂.shared.releases "a" = 0 := by
    simpa using hstate
  refine ⟨s₂, hreaches₂, htimer, happlied, hreleases, holdsKept_of_keeping ?_ hreaches₂⟩
  intro managedId file hfile
  cases hfile

end Turbopaneld.Managed.BootHold
