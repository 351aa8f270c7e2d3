/-
# What the programs of the daemon keep towards a hold

Every program in flight reads and writes the same markers and files.  While none of them
removes a hold file or writes a marker on a look that no longer holds, and no destroy and no
probe gets in the way, only a release ends a hold, and what a hold file says stays true.
-/

import Turbopaneld.Managed.HoldMarker

namespace Turbopaneld.Managed.BootHold

open Programs Machines Intent

/-! ## The steps that keep a hold -/

/-- A hold file is removed on a look at the marker that still holds, and the probe does not
clear the marker of a hold. -/
def KeepingCall : {β : Type} → Call β → Reply → Host → Prop
  | _, .removeHold managedId seen, reply, s => reply.ok = true →
      isHeldStop (s.intents managedId).lookup = isHeldStop seen
  | _, .clearMemory .probe managedId, _, s => s.bootHeld managedId = false
  | _, _, _, _ => True

def KeepingAct : Act → Host → Prop
  | .command managedId (.decide c), s => ∀ command,
      (s.intents managedId).commands c = some command →
      KeepingDecision (s.intents managedId) (s.bootHeld managedId) command
  | .removeDirectory managedId _, s => s.bootHeld managedId = false
  | _, _ => True

/-- The runs in which no hold is lost. -/
def keeping : Allowed Tag Call Host Reply Act where
  call := fun _ _ c reply s => KeepingCall c reply s
  act := KeepingAct
  restart := fun s => ∀ managedId, s.bootHeld managedId = true →
    (s.intents managedId).disk = (s.intents managedId).lookup

/-! ## What the programs keep -/

/-- Unless it has been released since, the cluster is held and a fact is true of it. -/
def Since (s : Host) (managedId : String) (releases : ℕ) (fact : Prop) : Prop :=
  releases ≤ s.releases managedId ∧
    (s.releases managedId = releases → s.bootHeld managedId = true ∧ fact)

/-- Unless it has been released since, the cluster has a hold file where a listing looks. -/
def Stands (s : Host) (managedId : String) (releases : ℕ) : Prop :=
  DemotedGuard.isSafeManagedId managedId = true ∧ Since s managedId releases
    (managedId ∈ s.directories ∧ (s.holds managedId).isSome = true)

/-- What no step undoes.  Only a release ends a hold. -/
structure KeepsHolds (s s' : Host) : Prop where
  releases : ∀ id, s.releases id ≤ s'.releases id
  held : ∀ id, s'.releases id = s.releases id → s.bootHeld id = true → s'.bootHeld id = true
  directory : ∀ id, s'.releases id = s.releases id → s.bootHeld id = true →
    id ∈ s.directories → id ∈ s'.directories
  file : ∀ id, s'.releases id = s.releases id → s.bootHeld id = true →
    (s.holds id).isSome = true → (s'.holds id).isSome = true
  stopped : ∀ id, s.stopped id = true → s'.stopped id = true
  memory : ∀ id, (s.intents id).memory ≠ none → (s'.intents id).memory ≠ none

section

variable {s s' s'' : Host} {managedId : String} {releases : ℕ}

theorem KeepsHolds.refl (s : Host) : KeepsHolds s s where
  releases _ := Nat.le_refl _
  held _ _ h := h
  directory _ _ _ h := h
  file _ _ _ h := h
  stopped _ h := h
  memory _ h := h

theorem KeepsHolds.trans (h : KeepsHolds s s') (h' : KeepsHolds s' s'') : KeepsHolds s s'' := by
  -- Releases only grow, so where none has come in two steps none has come in either.
  have hsame : ∀ id, s''.releases id = s.releases id →
      s'.releases id = s.releases id ∧ s''.releases id = s'.releases id := by
    intro id heq
    have hle := h.releases id
    have hle' := h'.releases id
    omega
  constructor
  case releases => exact fun id => Nat.le_trans (h.releases id) (h'.releases id)
  case held =>
    intro id heq hheld
    obtain ⟨heq₁, heq₂⟩ := hsame id heq
    exact h'.held id heq₂ (h.held id heq₁ hheld)
  case directory =>
    intro id heq hheld hmem
    obtain ⟨heq₁, heq₂⟩ := hsame id heq
    exact h'.directory id heq₂ (h.held id heq₁ hheld) (h.directory id heq₁ hheld hmem)
  case file =>
    intro id heq hheld hsome
    obtain ⟨heq₁, heq₂⟩ := hsame id heq
    exact h'.file id heq₂ (h.held id heq₁ hheld) (h.file id heq₁ hheld hsome)
  case stopped => exact fun id hstopped => h'.stopped id (h.stopped id hstopped)
  case memory => exact fun id hmemory => h'.memory id (h.memory id hmemory)

/-- What is true since a hold was taken stays so, where the fact does while the hold stands. -/
theorem Since.stable {fact fact' : Prop} (h : Since s managedId releases fact)
    (hrely : KeepsHolds s s')
    (hfact : s'.releases managedId = s.releases managedId → s.bootHeld managedId = true →
      fact → fact') : Since s' managedId releases fact' := by
  refine ⟨Nat.le_trans h.1 (hrely.releases managedId), ?_⟩
  intro heq
  have hle := hrely.releases managedId
  have hle' := h.1
  have hsame : s'.releases managedId = s.releases managedId := by omega
  obtain ⟨hheld, hold⟩ := h.2 (hsame ▸ heq)
  exact ⟨hrely.held managedId hsame hheld, hfact hsame hheld hold⟩

theorem Stands.stable (hrely : KeepsHolds s s') (h : Stands s managedId releases) :
    Stands s' managedId releases :=
  ⟨h.1, h.2.stable hrely fun hsame hheld hold =>
    ⟨hrely.directory managedId hsame hheld hold.1, hrely.file managedId hsame hheld hold.2⟩⟩

/-- The invariant of every run that keeps its holds. -/
structure KeptInv (s : Host) : Prop where
  marker : ∀ id, MarkerKept (s.intents id) (s.bootHeld id)
  stopped : ∀ id file, s.holds id = some file → file.engineStopped = true → s.stopped id = true
  applied : ∀ id releases, (id, releases) ∈ s.applied → Stands s id releases

/-- A hold record may say that the engine is stopped. -/
def Truthful (record : BootHoldRecord) (s : Host) : Prop :=
  record.engineStopped = true → s.stopped record.managedId = true

theorem Truthful.stable {record : BootHoldRecord} (hrely : KeepsHolds s s')
    (h : Truthful record s) : Truthful record s' :=
  fun hstopped => hrely.stopped record.managedId (h hstopped)

/-- What a program has to see to before a call. -/
def KeepingPre : {β : Type} → Call β → Host → Prop
  | _, .writeMarker managedId _, s => (s.intents managedId).memory ≠ none
  | _, .removeMarker managedId, s => (s.intents managedId).memory ≠ none
  | _, .removeHold _ seen, _ => isHeldStop seen = false
  | _, .writeHold record, s => Truthful record s
  | _, .held clusters, s => ∀ id releases, (id, releases) ∈ clusters → Stands s id releases
  | _, _, _ => True

theorem KeepingPre.stable {β : Type} {c : Call β} (hrely : KeepsHolds s s')
    (h : KeepingPre c s) : KeepingPre c s' := by
  cases c with
  | writeMarker managedId intent => exact hrely.memory managedId h
  | removeMarker managedId => exact hrely.memory managedId h
  | removeHold managedId seen => exact h
  | writeHold record => exact Truthful.stable hrely h
  | held clusters => exact fun id releases hmem => (h id releases hmem).stable hrely
  | _ => trivial

/-! ### One call -/

theorem KeptInv.next (h : KeptInv s) (hrely : KeepsHolds s s') (happlied : s'.applied = s.applied)
    (hmarker : ∀ id, MarkerKept (s'.intents id) (s'.bootHeld id))
    (hstopped : ∀ id file, s'.holds id = some file → file.engineStopped = true →
      s'.stopped id = true) : KeptInv s' ∧ KeepsHolds s s' := by
  refine ⟨⟨hmarker, hstopped, ?_⟩, hrely⟩
  intro id releases hmem
  rw [happlied] at hmem
  exact (h.applied id releases hmem).stable hrely

/-- A step that touches neither markers nor files nor engines. -/
theorem KeptInv.same (h : KeptInv s) (hintents : s'.intents = s.intents)
    (hdirectories : s'.directories = s.directories) (hholds : s'.holds = s.holds)
    (hstopped : s'.stopped = s.stopped) (hheld : s'.bootHeld = s.bootHeld)
    (hreleases : s'.releases = s.releases) (happlied : s'.applied = s.applied) :
    KeptInv s' ∧ KeepsHolds s s' := by
  refine h.next ?_ happlied (by rw [hintents, hheld]; exact h.marker)
    (by rw [hholds, hstopped]; exact h.stopped)
  constructor
  case releases => exact fun id => by rw [hreleases]
  case held => exact fun id _ hid => by rw [hheld]; exact hid
  case directory => exact fun id _ _ hid => by rw [hdirectories]; exact hid
  case file => exact fun id _ _ hid => by rw [hholds]; exact hid
  case stopped => exact fun id hid => by rw [hstopped]; exact hid
  case memory => exact fun id hid => by rw [hintents]; exact hid

/-- A new marker of one cluster. -/
theorem KeptInv.setIntent (h : KeptInv s) {new : Intent.State} {held : String → Bool}
    (hnew : MarkerKept new (held managedId))
    (hother : ∀ id, id ≠ managedId → held id = s.bootHeld id) (id : String) :
    MarkerKept ((s.setIntent managedId new).intents id) (held id) := by
  change MarkerKept (Function.update s.intents managedId new id) (held id)
  by_cases hid : id = managedId
  · subst hid
    rwa [Function.update_self]
  · rw [Function.update_of_ne hid, hother id hid]
    exact h.marker id

/-- A marker that is written over, while the cluster is not released. -/
theorem KeptInv.writeMarker (h : KeptInv s) {new : Intent.State} (held : String → Bool)
    (hnew : MarkerKept new (held managedId))
    (hmemory : (s.intents managedId).memory ≠ none → new.memory ≠ none)
    (hheld : s.bootHeld managedId = true → held managedId = true)
    (hother : ∀ id, id ≠ managedId → held id = s.bootHeld id) :
    KeptInv { s.setIntent managedId new with bootHeld := held } ∧
      KeepsHolds s { s.setIntent managedId new with bootHeld := held } := by
  refine h.next ?_ rfl (h.setIntent hnew hother) h.stopped
  constructor
  case releases => exact fun _ => Nat.le_refl _
  case held =>
    intro id _ hid
    by_cases hcluster : id = managedId
    · subst hcluster
      exact hheld hid
    · exact (hother id hcluster).trans hid
  case directory => exact fun _ _ _ hid => hid
  case file => exact fun _ _ _ hid => hid
  case stopped => exact fun _ hid => hid
  case memory => exact fun id hid => setIntent_memory hid fun heq => hmemory (heq ▸ hid)

/-- The cluster is released, and its marker is another one. -/
theorem KeptInv.release (h : KeptInv s) {new : Intent.State} (hnew : MarkerKept new false)
    (hmemory : (s.intents managedId).memory ≠ none → new.memory ≠ none) :
    KeptInv ((s.setIntent managedId new).release managedId) ∧
      KeepsHolds s ((s.setIntent managedId new).release managedId) := by
  have hother : ∀ id, id ≠ managedId →
      Function.update s.bootHeld managedId false id = s.bootHeld id :=
    fun id hid => Function.update_of_ne hid _ _
  have hself : MarkerKept new (Function.update s.bootHeld managedId false managedId) := by
    rwa [Function.update_self]
  refine h.next ?_ rfl (h.setIntent hself hother) h.stopped
  -- The count of releases tells the hold that ends from those that stand.
  have hcount : ∀ id, s.releases id ≤ ((s.setIntent managedId new).release managedId).releases id ∧
      (((s.setIntent managedId new).release managedId).releases id = s.releases id →
        id ≠ managedId) := by
    intro id
    change s.releases id ≤ Function.update s.releases managedId _ id ∧
      (Function.update s.releases managedId _ id = s.releases id → id ≠ managedId)
    by_cases hid : id = managedId
    · subst hid
      rw [Function.update_self]
      exact ⟨Nat.le_succ _, fun heq => absurd heq (Nat.succ_ne_self _)⟩
    · rw [Function.update_of_ne hid]
      exact ⟨Nat.le_refl _, fun _ => hid⟩
  constructor
  case releases => exact fun id => (hcount id).1
  case held => exact fun id hsame hid => (hother id ((hcount id).2 hsame)).trans hid
  case directory => exact fun _ _ _ hid => hid
  case file => exact fun _ _ _ hid => hid
  case stopped => exact fun _ hid => hid
  case memory => exact fun id hid => setIntent_memory hid fun heq => hmemory (heq ▸ hid)

/-- The hold file of a cluster that is not held goes. -/
theorem KeptInv.removeHold (h : KeptInv s) (hnot : s.bootHeld managedId = false)
    (directories : List String)
    (hdirectories : ∀ id, id ≠ managedId → id ∈ s.directories → id ∈ directories) :
    KeptInv { s with directories, holds := Function.update s.holds managedId none } ∧
      KeepsHolds s { s with directories, holds := Function.update s.holds managedId none } := by
  have hne : ∀ id, s.bootHeld id = true → id ≠ managedId := by
    rintro id hid rfl
    rw [hnot] at hid
    cases hid
  refine h.next ?_ rfl h.marker ?_
  · constructor
    case releases => exact fun _ => Nat.le_refl _
    case held => exact fun _ _ hid => hid
    case directory => exact fun id _ hheld hid => hdirectories id (hne id hheld) hid
    case file =>
      intro id _ hheld hid
      change (Function.update s.holds managedId none id).isSome = true
      rwa [Function.update_of_ne (hne id hheld)]
    case stopped => exact fun _ hid => hid
    case memory => exact fun _ hid => hid
  · intro id file hfile
    change Function.update s.holds managedId none id = some file at hfile
    by_cases hid : id = managedId
    · subst hid
      rw [Function.update_self] at hfile
      cases hfile
    · rw [Function.update_of_ne hid] at hfile
      exact h.stopped id file hfile

theorem KeptInv.makeDirectory (h : KeptInv s) (managedId : String) :
    KeptInv { s with directories := s.directories ++ [managedId] } ∧
      KeepsHolds s { s with directories := s.directories ++ [managedId] } := by
  refine h.next ?_ rfl h.marker h.stopped
  constructor
  case releases => exact fun _ => Nat.le_refl _
  case held => exact fun _ _ hid => hid
  case directory => exact fun _ _ _ hid => List.mem_append_left _ hid
  case file => exact fun _ _ _ hid => hid
  case stopped => exact fun _ hid => hid
  case memory => exact fun _ hid => hid

theorem KeptInv.writeHold (h : KeptInv s) {record : BootHoldRecord} (hrecord : Truthful record s) :
    KeptInv (s.writeHold record) ∧ KeepsHolds s (s.writeHold record) := by
  refine h.next ?_ rfl h.marker ?_
  · constructor
    case releases => exact fun _ => Nat.le_refl _
    case held => exact fun _ _ hid => hid
    case directory => exact fun _ _ _ hid => hid
    case file =>
      intro id _ _ hid
      change (Function.update s.holds record.managedId (some record.toHoldFile) id).isSome = true
      by_cases hcluster : id = record.managedId
      · subst hcluster
        rw [Function.update_self]
        rfl
      · rwa [Function.update_of_ne hcluster]
    case stopped => exact fun _ hid => hid
    case memory => exact fun _ hid => hid
  · intro id file hfile
    change Function.update s.holds record.managedId (some record.toHoldFile) id = some file at hfile
    by_cases hcluster : id = record.managedId
    · subst hcluster
      rw [Function.update_self] at hfile
      obtain rfl := Option.some.inj hfile
      exact hrecord
    · rw [Function.update_of_ne hcluster] at hfile
      exact h.stopped id file hfile

theorem KeptInv.stopEngine (h : KeptInv s) (managedId : String) :
    KeptInv { s with stopped := Function.update s.stopped managedId true } ∧
      KeepsHolds s { s with stopped := Function.update s.stopped managedId true } := by
  have hstopped : ∀ id, s.stopped id = true →
      Function.update s.stopped managedId true id = true := by
    intro id hid
    by_cases hcluster : id = managedId
    · subst hcluster
      rw [Function.update_self]
    · rwa [Function.update_of_ne hcluster]
  refine h.next ?_ rfl h.marker fun id file hfile htrue =>
    hstopped id (h.stopped id file hfile htrue)
  constructor
  case releases => exact fun _ => Nat.le_refl _
  case held => exact fun _ _ hid => hid
  case directory => exact fun _ _ _ hid => hid
  case file => exact fun _ _ _ hid => hid
  case stopped => exact hstopped
  case memory => exact fun _ hid => hid

/-- A cluster that is held has a held stop as its marker. -/
theorem KeptInv.isHeldStop (h : KeptInv s) (hheld : s.bootHeld managedId = true) :
    isHeldStop (s.intents managedId).lookup = true := by
  obtain ⟨intent, hlookup, hstop, -⟩ := (h.marker managedId).marker hheld
  rw [hlookup]
  exact hstop

/-- Every call that is allowed keeps the invariant. -/
theorem perform_keeps {β : Type} (c : Call β) (reply : Reply) (h : KeptInv s)
    (hpre : KeepingPre c s) (hallowed : KeepingCall c reply s) :
    KeptInv (perform c reply s).2 ∧ KeepsHolds s (perform c reply s).2 := by
  cases c with
  | recordStop holder managedId =>
    have hnew : ∀ held', MarkerKept ((s.intents managedId).record .stop .held managedIntentTtlMs).2
        held' := fun held' => (h.marker managedId).recordStop held' rfl rfl
    cases holder with
    | boot =>
      refine h.writeMarker (Function.update s.bootHeld managedId true) (hnew _)
        (fun _ => Option.some_ne_none _) ?_ fun id hid => Function.update_of_ne hid _ _
      intro _
      rw [Function.update_self]
    | other =>
      exact h.writeMarker s.bootHeld (hnew _) (fun _ => Option.some_ne_none _) id fun _ _ => rfl
  | writeMarker managedId intent =>
    simp only [perform]
    split
    · exact h.writeMarker s.bootHeld ((h.marker managedId).setDisk hpre _) id id fun _ _ => rfl
    · exact ⟨h, KeepsHolds.refl s⟩
  | removeMarker managedId =>
    simp only [perform]
    split
    · exact h.writeMarker s.bootHeld ((h.marker managedId).setDisk hpre _) id id fun _ _ => rfl
    · exact ⟨h, KeepsHolds.refl s⟩
  | mkdir managedId =>
    simp only [perform]
    split
    · exact h.makeDirectory managedId
    · exact ⟨h, KeepsHolds.refl s⟩
  | writeHold record =>
    simp only [perform]
    split
    · exact h.writeHold hpre
    · exact ⟨h, KeepsHolds.refl s⟩
  | composeStop managedId =>
    simp only [perform]
    split
    · exact h.stopEngine managedId
    · exact ⟨h, KeepsHolds.refl s⟩
  | removeHold managedId seen =>
    simp only [perform]
    split
    case isTrue hok =>
      -- The look still holds, so the marker is no held stop and the cluster is not held.
      have hnot : s.bootHeld managedId = false := by
        cases hheld : s.bootHeld managedId with
        | false => rfl
        | true =>
          have hstop := h.isHeldStop hheld
          rw [hallowed hok, hpre] at hstop
          cases hstop
      exact h.removeHold hnot s.directories fun _ _ hid => hid
    case isFalse => exact ⟨h, KeepsHolds.refl s⟩
  | clearMemory clearer managedId =>
    have hcleared : MarkerKept { s.intents managedId with memory := some .cleared } false :=
      ⟨(h.marker managedId).fresh, (fun hmemory => nomatch hmemory), (fun hheld => nomatch hheld)⟩
    cases clearer with
    | release => exact h.release hcleared fun _ => Option.some_ne_none _
    | probe =>
      refine h.writeMarker s.bootHeld ?_ (fun _ => Option.some_ne_none _) id fun _ _ => rfl
      rw [show s.bootHeld managedId = false from hallowed]
      exact hcleared
  | held clusters =>
    have hsame : KeepsHolds s { s with applied := clusters ++ s.applied } :=
      ⟨fun _ => Nat.le_refl _, fun _ _ hid => hid, fun _ _ _ hid => hid, fun _ _ _ hid => hid,
        fun _ hid => hid, fun _ hid => hid⟩
    refine ⟨⟨h.marker, h.stopped, ?_⟩, hsame⟩
    intro id releases hmem
    rcases List.mem_append.mp hmem with hmem | hmem
    · exact (hpre id releases hmem).stable hsame
    · exact (h.applied id releases hmem).stable hsame
  | setUnsettled managedId unsettled =>
    simp only [perform, Host.setUnsettled]
    split <;> exact h.same rfl rfl rfl rfl rfl rfl rfl
  | _ =>
    first
    | exact h.same rfl rfl rfl rfl rfl rfl rfl
    | (simp only [perform]; split <;> exact h.same rfl rfl rfl rfl rfl rfl rfl)

/-- What the programs of the daemon keep towards each other. -/
def keepingContract : Contract Tag Call Host where
  inv := KeptInv
  rely := KeepsHolds
  pre := fun _ _ c s => KeepingPre c s
  effect := daemon.Effect keeping
  rely_refl := KeepsHolds.refl
  rely_trans := KeepsHolds.trans
  pre_stable := KeepingPre.stable
  keeps := by
    rintro t β c s b s' hinv hpre ⟨reply, hallowed, rfl, rfl⟩
    exact perform_keeps c reply hinv hpre hallowed

end

end Turbopaneld.Managed.BootHold
