/-
# No change is lost

The control plane knows what the frames that went out told it.  The instance compares a new
look at the host with what it remembers, so no change is lost as long as what it remembers
is what the control plane knows.  Each step keeps the two equal when its heartbeat arrives
or has nothing to tell, when no part goes away, and when a build is known by its commit.
-/

import Turbopaneld.Machines.Runs
import Turbopaneld.Presence.IdlePresence

namespace Turbopaneld.Presence

variable {P : Type}

/-! ## What the control plane knows -/

/-- The fields of the hello, overwritten by the fields of each heartbeat that went out. -/
structure View (P : Type) where
  daemonBuild : Option DaemonBuild
  timeSync : Option P
  ips : Option P
  docker : Option P
  runtimes : Option P
  services : Option P
  releaseLinkScan : Option P
  memory : Option Memory
deriving DecidableEq

/-- A socket on which nothing arrived yet. -/
def View.blank : View P := ⟨none, none, none, none, none, none, none, none⟩

def View.hear (view : View P) : Effect P → View P
  | .sent (.hello hello) =>
    { daemonBuild := some hello.daemonBuild
      timeSync := some hello.timeSync
      ips := some hello.ips
      docker := hello.docker
      runtimes := hello.runtimes
      services := hello.services
      releaseLinkScan := hello.releaseLinkScan
      memory := hello.resources.bind HostResources.memory }
  | .sent (.heartbeat heartbeat) =>
    { daemonBuild := heartbeat.daemonBuild.or view.daemonBuild
      timeSync := heartbeat.timeSync.or view.timeSync
      ips := (heartbeat.resources.bind MovedResources.ips).or view.ips
      docker := heartbeat.docker.or view.docker
      runtimes := heartbeat.runtimes.or view.runtimes
      services := heartbeat.services.or view.services
      releaseLinkScan := heartbeat.releaseLinkScan.or view.releaseLinkScan
      memory :=
        ((heartbeat.resources.bind MovedResources.capacity).bind HostCapacitySnapshot.memory).or
          view.memory }
  | .sent .ping | .threw | .maxAge | .stale => view

/-- The view is that of a snapshot: a part the snapshot lacks is absent. -/
structure View.Shows (view : View P) (snapshot : PresenceSnapshot P) : Prop where
  timeSync : view.timeSync = some snapshot.timeSync
  ips : view.ips = some snapshot.ips
  docker : view.docker = snapshot.docker
  runtimes : view.runtimes = snapshot.runtimes
  services : view.services = snapshot.services
  releaseLinkScan : view.releaseLinkScan = snapshot.releaseLinkScan

/-- A figure that is read is known within the tolerance. -/
def Close (known read : Option ℕ) : Prop :=
  ∀ figure, read = some figure →
    ∃ told, known = some told ∧ |(figure : ℤ) - (told : ℤ)| ≤ HOST_CAPACITY_TOLERANCE_BYTES

/-- The memory figures of the view are within the tolerance of those of a reading. -/
def View.Near (view : View P) (resources : Option (HostResources P)) : Prop :=
  ∀ memory, resources.bind HostResources.memory = some memory →
    Close (view.memory.bind Memory.totalBytes) memory.totalBytes ∧
      Close (view.memory.bind Memory.presentBytes) memory.presentBytes

/-! ## Runs on one socket -/

/-- An attached instance and what the control plane knows from its socket. -/
structure Session (P : Type) where
  presence : IdlePresence P
  view : View P

inductive Event (P : Type) where
  | tick (t : Tick P)
  | touch (nowMs : ℤ)
  | inbound (nowMs : ℤ)
  | advise (ms : ℤ)

def Session.hear (s : Session P) (outcome : IdlePresence P × List (Effect P)) : Session P :=
  { presence := outcome.1, view := outcome.2.foldl View.hear s.view }

/-- An instance right after it was attached, whatever it did on earlier sockets. -/
def attached (presence : IdlePresence P) (a : Attach P) : Session P :=
  Session.hear { presence := presence, view := .blank } (attach presence a)

variable [DecidableEq P]

def Session.step (s : Session P) : Event P → Session P
  | .tick t => s.hear (onTimer s.presence t)
  | .touch nowMs => { s with presence := touchActivity s.presence nowMs }
  | .inbound nowMs => { s with presence := noteInboundActivity s.presence nowMs }
  | .advise ms => { s with presence := setIdleThresholdMs s.presence ms }

/-- The tick gets to its ping: the connection is not recycled and the ping is due. -/
def pingsNow (presence : IdlePresence P) (t : Tick P) : Bool :=
  !(checkMaxConnectionAge presence (t.now .age)).2 && presencePingDue presence (t.now .due)

/-- If no send throws in a tick whose ping is due, then after it the control plane knows
what the tick saw. -/
def Told (s : Session P) (t : Tick P) : Prop :=
  pingsNow s.presence t = true → Effect.threw ∉ (onTimer s.presence t).2 →
    (s.step (.tick t)).view.daemonBuild = some t.build ∧
      (s.step (.tick t)).view.Shows t.snapshot ∧
      (t.hostCapacityFlag = true → (s.step (.tick t)).view.Near t.resources)

/-- Every tick of every run of allowed steps is told. -/
def NoChangeLost (allowed : Session P → Event P → Prop) (start : Session P) : Prop :=
  ∀ s t, Machines.Reaches (fun s e => some (Session.step s e)) allowed start s →
    allowed s (.tick t) → Told s t

/-! ## The steps that lose nothing -/

/-- Something moved that the heartbeat of a tick is to tell. -/
def hasNews (presence : IdlePresence P) (t : Tick P) : Bool :=
  buildChanged presence t || presenceChanged presence t ||
    (capacityToSend presence t.hostCapacityFlag t.resources).2.isSome

/-- A tick that loses nothing. -/
structure Delivers (buildOf : String → DaemonBuild) (presence : IdlePresence P) (t : Tick P) :
    Prop where
  /-- A heartbeat with news does not throw. -/
  sends : hasNews presence t = true → t.heartbeatThrows = false
  /-- No part that was remembered has gone away. -/
  stays : ∀ text, presence.lastPresenceSnapshot = some text →
    ∀ part ∈ text.map Prod.fst, part ∈ (serializePresenceSnapshot t.snapshot).map Prod.fst
  /-- The commit names the build. -/
  named : buildOf t.build.commit = t.build

/-- Ticks that get to their ping deliver; every other step is free. -/
def Delivering (buildOf : String → DaemonBuild) (s : Session P) : Event P → Prop
  | .tick t => pingsNow s.presence t = true → Delivers buildOf s.presence t
  | _ => True

/-! ## What the text of a snapshot says -/

omit [DecidableEq P] in
/-- No optional part of `earlier` is missing from `later` when the members of its text are
members of the other's. -/
theorem parts_stay {earlier later : PresenceSnapshot P}
    (hstays : ∀ part ∈ (serializePresenceSnapshot earlier).map Prod.fst,
      part ∈ (serializePresenceSnapshot later).map Prod.fst) :
    (earlier.docker.isSome → later.docker.isSome) ∧
      (earlier.runtimes.isSome → later.runtimes.isSome) ∧
        (earlier.services.isSome → later.services.isSome) ∧
          (earlier.releaseLinkScan.isSome → later.releaseLinkScan.isSome) := by
  have hnames : ∀ snapshot : PresenceSnapshot P,
      (serializePresenceSnapshot snapshot).map Prod.fst =
        ["timeSync", "ips"] ++ snapshot.docker.toList.map (fun _ => "docker") ++
          snapshot.runtimes.toList.map (fun _ => "runtimes") ++
          snapshot.services.toList.map (fun _ => "services") ++
          snapshot.releaseLinkScan.toList.map (fun _ => "releaseLinkScan") := by
    intro snapshot
    simp [serializePresenceSnapshot, Function.comp_def]
  rw [hnames, hnames] at hstays
  refine ⟨?_, ?_, ?_, ?_⟩
  · have hpart := hstays "docker"
    revert hpart
    cases earlier.docker <;> cases later.docker <;> simp
  · have hpart := hstays "runtimes"
    revert hpart
    cases earlier.runtimes <;> cases later.runtimes <;> simp
  · have hpart := hstays "services"
    revert hpart
    cases earlier.services <;> cases later.services <;> simp
  · have hpart := hstays "releaseLinkScan"
    revert hpart
    cases earlier.releaseLinkScan <;> cases later.releaseLinkScan <;> simp

omit [DecidableEq P] in
/-- The text determines the snapshot. -/
theorem serializePresenceSnapshot_injective :
    Function.Injective (serializePresenceSnapshot : PresenceSnapshot P → List (String × P)) := by
  intro first second heq
  have hlookup : ∀ snapshot : PresenceSnapshot P,
      (serializePresenceSnapshot snapshot).lookup "docker" = snapshot.docker ∧
        (serializePresenceSnapshot snapshot).lookup "runtimes" = snapshot.runtimes ∧
          (serializePresenceSnapshot snapshot).lookup "services" = snapshot.services ∧
            (serializePresenceSnapshot snapshot).lookup "releaseLinkScan" =
              snapshot.releaseLinkScan := by
    rintro ⟨timeSync, ips, docker, runtimes, services, releaseLinkScan⟩
    cases docker <;> cases runtimes <;> cases services <;> cases releaseLinkScan <;>
      simp [serializePresenceSnapshot, List.lookup_cons]
  obtain ⟨hdocker, hruntimes, hservices, hscan⟩ := hlookup first
  obtain ⟨hdocker', hruntimes', hservices', hscan'⟩ := hlookup second
  rw [heq] at hdocker hruntimes hservices hscan
  have hfront : first.timeSync = second.timeSync ∧ first.ips = second.ips := by
    simp only [serializePresenceSnapshot, List.cons_append, List.nil_append, List.cons.injEq,
      Prod.mk.injEq, true_and] at heq
    exact ⟨heq.1, heq.2.1⟩
  cases first
  cases second
  simp_all

/-! ## What the control plane knows is what is remembered -/

/-- The instance remembers a build and a snapshot, and these and the remembered memory are
what the view holds. -/
structure Session.KnowsFrom (s : Session P) (build : DaemonBuild)
    (snapshot : PresenceSnapshot P) : Prop where
  commit : s.presence.lastDaemonBuildCommit = some build.commit
  build : s.view.daemonBuild = some build
  text : s.presence.lastPresenceSnapshot = some (serializePresenceSnapshot snapshot)
  shows : s.view.Shows snapshot
  memory : ∀ capacity, s.presence.lastCapacity = some capacity →
    ∀ memory, capacity.memory = some memory → s.view.memory = some memory

/-- The control plane knows what the instance remembers, its build by the commit. -/
def Session.UpToDate (buildOf : String → DaemonBuild) (s : Session P) : Prop :=
  ∃ build snapshot, buildOf build.commit = build ∧ s.KnowsFrom build snapshot

/-- What an instance remembers to compare with. -/
def IdlePresence.remembered (presence : IdlePresence P) :
    Option String × Option (List (String × P)) × Option (HostCapacitySnapshot P) :=
  (presence.lastDaemonBuildCommit, presence.lastPresenceSnapshot, presence.lastCapacity)

variable {buildOf : String → DaemonBuild} {s s' : Session P} {build : DaemonBuild}
  {snapshot : PresenceSnapshot P} {t : Tick P} {presence : IdlePresence P}

omit [DecidableEq P] in
/-- Only what is remembered and the view matter. -/
theorem Session.KnowsFrom.congr (hremembered : s'.presence.remembered = s.presence.remembered)
    (hview : s'.view = s.view) (h : s.KnowsFrom build snapshot) : s'.KnowsFrom build snapshot := by
  simp only [IdlePresence.remembered, Prod.mk.injEq] at hremembered
  obtain ⟨hcommit, htext, hcapacity⟩ := hremembered
  exact ⟨hcommit.trans h.commit, hview ▸ h.build, htext.trans h.text, hview ▸ h.shows,
    fun capacity hlast memory hmemory =>
      hview ▸ h.memory capacity (hcapacity ▸ hlast) memory hmemory⟩

omit [DecidableEq P] in
theorem knowsFrom_attached (presence : IdlePresence P) {a : Attach P}
    (hsent : a.helloThrows = false) : (attached presence a).KnowsFrom a.build a.snapshot := by
  have hoffer : ∀ capacity, hostCapacityFromResources a.host.resources = some capacity →
      ∀ memory, capacity.memory = some memory →
        a.host.resources.bind HostResources.memory = some memory := by
    intro capacity hcapacity memory hmemory
    obtain ⟨resources, hresources, hsome⟩ := Option.bind_eq_some_iff.mp hcapacity
    split at hsome
    case isTrue =>
      obtain rfl := Option.some.inj hsome
      rw [hresources]
      exact hmemory
    case isFalse => cases hsome
  simp only [attached, attach, sendHello, hsent, Session.hear]
  exact ⟨rfl, rfl, rfl, ⟨rfl, rfl, rfl, rfl, rfl, rfl⟩, hoffer⟩

/-! ## A tick -/

omit [DecidableEq P] in
@[simp] theorem remembered_checkMaxConnectionAge (nowMs : ℤ) :
    (checkMaxConnectionAge presence nowMs).1.remembered = presence.remembered := by
  unfold checkMaxConnectionAge
  split_ifs <;> rfl

omit [DecidableEq P] in
@[simp] theorem remembered_checkStaleConnection (nowMs : ℤ) :
    (checkStaleConnection presence nowMs).1.remembered = presence.remembered := by
  unfold checkStaleConnection
  split_ifs <;> rfl

omit [DecidableEq P] in
@[simp] theorem remembered_sendCellPing (nowMs : ℤ) (throws : Bool) :
    (sendCellPing presence nowMs throws).1.remembered = presence.remembered := by
  unfold sendCellPing
  split_ifs <;> rfl

omit [DecidableEq P] in
@[simp] theorem hear_checkStaleConnection (nowMs : ℤ) (view : View P) :
    (checkStaleConnection presence nowMs).2.foldl View.hear view = view := by
  unfold checkStaleConnection
  split_ifs <;> rfl

omit [DecidableEq P] in
@[simp] theorem hear_sendCellPing (nowMs : ℤ) (throws : Bool) (view : View P) :
    (sendCellPing presence nowMs throws).2.foldl View.hear view = view := by
  unfold sendCellPing
  split_ifs <;> rfl

/-- What there is to tell depends on what is remembered only. -/
theorem hasNews_congr {first second : IdlePresence P} (h : first.remembered = second.remembered)
    (t : Tick P) : hasNews first t = hasNews second t := by
  simp only [IdlePresence.remembered, Prod.mk.injEq] at h
  obtain ⟨hcommit, htext, hcapacity⟩ := h
  simp only [hasNews, buildChanged, presenceChanged, capacityToSend, hcommit, htext, hcapacity]
  split_ifs <;> rfl

theorem Delivers.congr {first second : IdlePresence P} (h : first.remembered = second.remembered)
    (hdelivers : Delivers buildOf first t) : Delivers buildOf second t := by
  refine ⟨fun hnews => hdelivers.sends ((hasNews_congr h t).trans hnews), fun text htext => ?_,
    hdelivers.named⟩
  simp only [IdlePresence.remembered, Prod.mk.injEq] at h
  exact hdelivers.stays text (h.2.1.trans htext)

omit [DecidableEq P] in
theorem close_self (figure : Option ℕ) : Close figure figure := by
  intro n hn
  refine ⟨n, hn, ?_⟩
  rw [sub_self, abs_zero]
  exact Int.natCast_nonneg _

omit [DecidableEq P] in
theorem close_of_not_moved {known read : Option ℕ} (h : movedBeyondTolerance known read = false) :
    Close known read := by
  rintro n rfl
  cases known with
  | none => cases h
  | some m =>
    refine ⟨m, rfl, ?_⟩
    simpa [movedBeyondTolerance] using h

/-- The capacity remembered after a look at it is near what was read. -/
theorem near_of_capacityToSend {capacity : HostCapacitySnapshot P}
    (hlast : (capacityToSend presence true t.resources).1.lastCapacity = some capacity)
    {memory : Memory} (hread : t.resources.bind HostResources.memory = some memory) :
    Close (capacity.memory.bind Memory.totalBytes) memory.totalBytes ∧
      Close (capacity.memory.bind Memory.presentBytes) memory.presentBytes := by
  obtain ⟨resources, hresources, hmemory⟩ := Option.bind_eq_some_iff.mp hread
  have hnext : hostCapacityFromResources t.resources = some
      { memory := some memory
        swap := resources.swap
        cpus := resources.cpus
        dynamicMemory := resources.dynamicMemory } := by
    simp [hostCapacityFromResources, hresources, hmemory]
  simp only [capacityToSend, hnext, if_true] at hlast
  split at hlast
  case isTrue =>
    obtain rfl := Option.some.inj hlast
    exact ⟨close_self _, close_self _⟩
  case isFalse hmoved =>
    have hkept : presence.lastCapacity = some capacity := hlast
    simp only [hkept, hostCapacityMoved, Option.bind_some, Bool.or_eq_true, not_or,
      Bool.not_eq_true] at hmoved
    exact ⟨close_of_not_moved hmoved.1.1.1, close_of_not_moved hmoved.1.1.2⟩

/-- A reading with memory leaves some capacity remembered. -/
theorem isSome_capacityToSend (hread : (t.resources.bind HostResources.memory).isSome) :
    (capacityToSend presence true t.resources).1.lastCapacity.isSome := by
  obtain ⟨memory, hmemory⟩ := Option.isSome_iff_exists.mp hread
  obtain ⟨resources, hresources, hmemory⟩ := Option.bind_eq_some_iff.mp hmemory
  simp only [capacityToSend, hresources, hostCapacityFromResources, Option.bind_some, hmemory,
    Option.isSome_some, Bool.true_or, if_true]
  split
  case isTrue => rfl
  case isFalse hmoved =>
    cases hlast : presence.lastCapacity with
    | none => simp [hostCapacityMoved, hlast] at hmoved
    | some previous => rfl

/-- The memory of the view is near the reading once it is that of the remembered capacity. -/
theorem Session.KnowsFrom.near (h : s.KnowsFrom build snapshot)
    (hlast : s.presence.lastCapacity = (capacityToSend presence true t.resources).1.lastCapacity) :
    s.view.Near t.resources := by
  intro memory hread
  have hsome : (capacityToSend presence true t.resources).1.lastCapacity.isSome :=
    isSome_capacityToSend (Option.isSome_of_eq_some hread)
  obtain ⟨capacity, hcapacity⟩ := Option.isSome_iff_exists.mp hsome
  have hnear := near_of_capacityToSend hcapacity hread
  have hknown := h.memory capacity (hlast.trans hcapacity)
  cases hmemory : capacity.memory with
  | none =>
    rw [hmemory] at hnear
    exact ⟨fun n hn => absurd (hnear.1 n hn) (by simp), fun n hn => absurd (hnear.2 n hn) (by simp)⟩
  | some known =>
    rw [hknown known hmemory, ← hmemory]
    exact hnear

/-- Capacity is sent and remembered, or neither. -/
theorem capacityToSend_cases (presence : IdlePresence P) (hostCapacityFlag : Bool)
    (resources : Option (HostResources P)) :
    (∃ next, capacityToSend presence hostCapacityFlag resources =
      ({ presence with lastCapacity := some next }, some next)) ∨
      capacityToSend presence hostCapacityFlag resources = (presence, none) := by
  simp only [capacityToSend]
  split_ifs with hflag hmoved
  · cases hnext : hostCapacityFromResources resources with
    | none => simp [hostCapacityMoved, hnext] at hmoved
    | some next => exact .inl ⟨next, rfl⟩
  · exact .inr rfl
  · exact .inr rfl

theorem sendMoved_of_no_news (hquiet : hasNews presence t = false) :
    (sendMoved presence t).1.remembered = presence.remembered ∧
      ∀ view : View P, (sendMoved presence t).2.foldl View.hear view = view := by
  simp only [hasNews, Bool.or_eq_false_iff] at hquiet
  obtain ⟨⟨hbuild, htext⟩, hcapacity⟩ := hquiet
  have hkept : capacityToSend presence t.hostCapacityFlag t.resources = (presence, none) := by
    obtain ⟨next, hnext⟩ | hkept := capacityToSend_cases presence t.hostCapacityFlag t.resources
    · rw [hnext] at hcapacity
      cases hcapacity
    · exact hkept
  simp only [sendMoved, hbuild, htext, hkept, Bool.false_eq_true, if_false]
  split_ifs
  · unfold sendHeartbeat
    split_ifs <;> exact ⟨rfl, fun view => rfl⟩
  · exact ⟨rfl, fun view => rfl⟩

theorem sendMoved_of_news (hnews : hasNews presence t = true) (hsent : t.heartbeatThrows = false) :
    (sendMoved presence t).1.remembered =
        (some t.build.commit, some (serializePresenceSnapshot t.snapshot),
          (capacityToSend presence t.hostCapacityFlag t.resources).1.lastCapacity) ∧
      (sendMoved presence t).2 = [.sent (.heartbeat (heartbeatOf
        (if buildChanged presence t then some t.build else none)
        (if presenceChanged presence t then some t.snapshot else none)
        (capacityToSend presence t.hostCapacityFlag t.resources).2 (commandsField t)))] := by
  have hcommit : ((if buildChanged presence t then some t.build else none).map
      DaemonBuild.commit).or presence.lastDaemonBuildCommit = some t.build.commit := by
    split_ifs with hchanged
    · rfl
    · rw [buildChanged, decide_eq_true_iff, not_not] at hchanged
      exact hchanged.symm
  have htext : presenceChanged presence t = false →
      presence.lastPresenceSnapshot = some (serializePresenceSnapshot t.snapshot) := by
    intro hsame
    rw [presenceChanged, decide_eq_false_iff_not, not_not] at hsame
    exact hsame.symm
  have hsends : ((if buildChanged presence t then some t.build else none).isSome ||
      presenceChanged presence t ||
        (capacityToSend presence t.hostCapacityFlag t.resources).2.isSome ||
          refreshDue presence (t.now .refresh)) = true := by
    rw [hasNews] at hnews
    cases hbuild : buildChanged presence t <;> simp_all
  have hother : (capacityToSend presence t.hostCapacityFlag t.resources).1.lastDaemonBuildCommit =
      presence.lastDaemonBuildCommit ∧
      (capacityToSend presence t.hostCapacityFlag t.resources).1.lastPresenceSnapshot =
        presence.lastPresenceSnapshot := by
    obtain ⟨next, hnext⟩ | hkept := capacityToSend_cases presence t.hostCapacityFlag t.resources
    · rw [hnext]
      exact ⟨rfl, rfl⟩
    · rw [hkept]
      exact ⟨rfl, rfl⟩
  simp only [sendMoved, hsends, if_true, sendHeartbeat, hsent, Bool.false_eq_true, if_false]
  refine ⟨?_, trivial⟩
  cases hchanged : presenceChanged presence t with
  | true => simp only [if_true, IdlePresence.remembered, heartbeatOf, hother.1, hcommit]
  | false =>
    simp only [Bool.false_eq_true, if_false, IdlePresence.remembered, heartbeatOf, hother.1,
      hcommit, hother.2, htext hchanged]

omit [DecidableEq P] in
/-- A part that stays overwrites what was there before. -/
theorem or_eq_of_stays {later earlier : Option P} (h : earlier.isSome → later.isSome) :
    later.or earlier = later := by
  cases later with
  | some part => rfl
  | none =>
    cases earlier with
    | none => rfl
    | some part => cases h rfl

/-- A tick's presence that delivers leaves the control plane knowing what the tick saw. -/
theorem knowsFrom_sendMoved (h : s.UpToDate buildOf) (hdelivers : Delivers buildOf s.presence t) :
    (s.hear (sendMoved s.presence t)).KnowsFrom t.build t.snapshot ∧
      (s.hear (sendMoved s.presence t)).presence.lastCapacity =
        (capacityToSend s.presence t.hostCapacityFlag t.resources).1.lastCapacity := by
  obtain ⟨build, snapshot, hbuildOf, hknows⟩ := h
  cases hnews : hasNews s.presence t with
  | false =>
    obtain ⟨hkept, hview⟩ := sendMoved_of_no_news hnews
    simp only [hasNews, Bool.or_eq_false_iff, buildChanged, presenceChanged, decide_eq_false_iff_not,
      not_not] at hnews
    obtain ⟨⟨hcommit, htext⟩, hcapacity⟩ := hnews
    have hsame : build = t.build := by
      rw [← hbuildOf, ← hdelivers.named]
      exact congrArg buildOf (Option.some.inj (hknows.commit.symm.trans hcommit.symm))
    have hseen : snapshot = t.snapshot := serializePresenceSnapshot_injective
      (Option.some.inj (hknows.text.symm.trans htext.symm))
    refine ⟨hsame ▸ hseen ▸ hknows.congr hkept (hview _), ?_⟩
    obtain ⟨next, hnext⟩ | hnone := capacityToSend_cases s.presence t.hostCapacityFlag t.resources
    · rw [hnext] at hcapacity
      cases hcapacity
    · rw [hnone]
      simp only [IdlePresence.remembered, Prod.mk.injEq] at hkept
      exact hkept.2.2
  | true =>
    obtain ⟨hremembered, heffects⟩ := sendMoved_of_news hnews (hdelivers.sends hnews)
    simp only [IdlePresence.remembered, Prod.mk.injEq] at hremembered
    obtain ⟨hcommit, htext, hlast⟩ := hremembered
    have hview : (s.hear (sendMoved s.presence t)).view = s.view.hear (.sent (.heartbeat (heartbeatOf
        (if buildChanged s.presence t then some t.build else none)
        (if presenceChanged s.presence t then some t.snapshot else none)
        (capacityToSend s.presence t.hostCapacityFlag t.resources).2 (commandsField t)))) := by
      rw [Session.hear, heffects, List.foldl_cons, List.foldl_nil]
    refine ⟨⟨hcommit, ?_, htext, ?_, ?_⟩, hlast⟩
    · rw [hview]
      show (if buildChanged s.presence t then some t.build else none).or s.view.daemonBuild = _
      split_ifs with hchanged
      · rfl
      · rw [buildChanged, decide_eq_true_iff, not_not] at hchanged
        rw [Option.none_or, hknows.build, ← hbuildOf, ← hdelivers.named]
        exact congrArg (some ∘ buildOf) (Option.some.inj (hknows.commit.symm.trans hchanged.symm))
    · rw [hview]
      cases hchanged : presenceChanged s.presence t with
      | true =>
        obtain ⟨hdocker, hruntimes, hservices, hscan⟩ :=
          parts_stay (hdelivers.stays _ hknows.text)
        rw [← hknows.shows.docker] at hdocker
        rw [← hknows.shows.runtimes] at hruntimes
        rw [← hknows.shows.services] at hservices
        rw [← hknows.shows.releaseLinkScan] at hscan
        exact ⟨rfl, rfl, or_eq_of_stays hdocker, or_eq_of_stays hruntimes,
          or_eq_of_stays hservices, or_eq_of_stays hscan⟩
      | false =>
        rw [presenceChanged, decide_eq_false_iff_not, not_not] at hchanged
        have hseen : snapshot = t.snapshot := serializePresenceSnapshot_injective
          (Option.some.inj (hknows.text.symm.trans hchanged.symm))
        rw [← hseen]
        obtain ⟨next, hnext⟩ | hnone :=
          capacityToSend_cases s.presence t.hostCapacityFlag t.resources
        · rw [hnext]
          exact ⟨hknows.shows.1, hknows.shows.2, hknows.shows.3, hknows.shows.4, hknows.shows.5,
            hknows.shows.6⟩
        · rw [hnone]
          exact ⟨hknows.shows.1, hknows.shows.2, hknows.shows.3, hknows.shows.4, hknows.shows.5,
            hknows.shows.6⟩
    · intro capacity hcapacity memory hmemory
      have hmoved := hlast.symm.trans hcapacity
      rw [hview]
      obtain ⟨next, hnext⟩ | hnone := capacityToSend_cases s.presence t.hostCapacityFlag t.resources
      · rw [hnext] at hmoved ⊢
        obtain rfl : next = capacity := Option.some.inj hmoved
        simp only [View.hear, heartbeatOf, Option.isSome_some, Bool.or_true, if_true,
          Option.bind_some, hmemory, Option.some_or]
      · rw [hnone] at hmoved ⊢
        have hbefore := hknows.memory capacity hmoved memory hmemory
        simp only [View.hear, heartbeatOf]
        split_ifs <;> simp [hbefore]

omit [DecidableEq P] in
theorem presencePingDue_checked (ageMs silenceMs dueMs : ℤ) :
    presencePingDue (checkStaleConnection (checkMaxConnectionAge presence ageMs).1 silenceMs).1
      dueMs = presencePingDue presence dueMs := by
  unfold checkStaleConnection checkMaxConnectionAge
  split_ifs <;> rfl

/-- A tick that gets to its ping sends what moved from an instance that remembers the
same. -/
theorem onTimer_of_pingsNow (hpings : pingsNow presence t = true) :
    ∃ pinged : IdlePresence P, pinged.remembered = presence.remembered ∧
      (onTimer presence t).1 = (sendMoved pinged t).1 ∧
        ∀ view : View P, (onTimer presence t).2.foldl View.hear view =
          (sendMoved pinged t).2.foldl View.hear view := by
  rw [pingsNow, Bool.and_eq_true, Bool.not_eq_true'] at hpings
  obtain ⟨hage, hdue⟩ := hpings
  refine ⟨(sendCellPing (checkStaleConnection (checkMaxConnectionAge presence (t.now .age)).1
    (t.now .silence)).1 (t.now .ping) t.pingThrows).1, by simp, ?_, ?_⟩
  · simp only [onTimer, hage, Bool.false_eq_true, if_false, maybeSendPresence,
      presencePingDue_checked, hdue, if_true]
  · intro view
    simp only [onTimer, hage, Bool.false_eq_true, if_false, maybeSendPresence,
      presencePingDue_checked, hdue, if_true, List.foldl_append, hear_checkStaleConnection,
      hear_sendCellPing]

theorem onTimer_of_not_pingsNow (hpings : pingsNow presence t = false) :
    (onTimer presence t).1.remembered = presence.remembered ∧
      ∀ view : View P, (onTimer presence t).2.foldl View.hear view = view := by
  rw [pingsNow, Bool.and_eq_false_iff, Bool.not_eq_false'] at hpings
  cases hage : (checkMaxConnectionAge presence (t.now .age)).2 with
  | true =>
    simp only [onTimer, hage, if_true]
    exact ⟨remembered_checkMaxConnectionAge _, fun view => rfl⟩
  | false =>
    have hdue : presencePingDue presence (t.now .due) = false :=
      hpings.resolve_left (by rw [hage]; exact Bool.false_ne_true)
    simp [onTimer, hage, maybeSendPresence, presencePingDue_checked, hdue]

/-- A delivering tick that gets to its ping. -/
theorem knowsFrom_tick (h : s.UpToDate buildOf) (hpings : pingsNow s.presence t = true)
    (hdelivers : Delivers buildOf s.presence t) :
    (s.step (.tick t)).KnowsFrom t.build t.snapshot ∧
      (t.hostCapacityFlag = true → (s.step (.tick t)).view.Near t.resources) := by
  obtain ⟨pinged, hremembered, hafter, hview⟩ := onTimer_of_pingsNow hpings
  obtain ⟨build, snapshot, hbuildOf, hknows⟩ := h
  have hpinged : Session.UpToDate buildOf { presence := pinged, view := s.view } :=
    ⟨build, snapshot, hbuildOf, hknows.congr hremembered rfl⟩
  obtain ⟨hsent, hlast⟩ := knowsFrom_sendMoved hpinged (hdelivers.congr hremembered.symm)
  have hstep : s.step (.tick t) =
      Session.hear { presence := pinged, view := s.view } (sendMoved pinged t) := by
    simp only [Session.step, Session.hear, hafter, hview]
  rw [hstep]
  refine ⟨hsent, fun hflag => ?_⟩
  rw [hflag] at hlast
  exact hsent.near hlast

/-- Every allowed step keeps the control plane up to date. -/
theorem upToDate_step {e : Event P} (h : s.UpToDate buildOf) (hallowed : Delivering buildOf s e) :
    (s.step e).UpToDate buildOf := by
  cases e with
  | tick t =>
    cases hpings : pingsNow s.presence t with
    | true =>
      exact ⟨t.build, t.snapshot, (hallowed hpings).named,
        (knowsFrom_tick h hpings (hallowed hpings)).1⟩
    | false =>
      obtain ⟨build, snapshot, hbuildOf, hknows⟩ := h
      obtain ⟨hremembered, hview⟩ := onTimer_of_not_pingsNow hpings
      exact ⟨build, snapshot, hbuildOf, hknows.congr hremembered (hview _)⟩
  | touch nowMs =>
    obtain ⟨build, snapshot, hbuildOf, hknows⟩ := h
    have hremembered : (s.step (.touch nowMs)).presence.remembered = s.presence.remembered := rfl
    exact ⟨build, snapshot, hbuildOf, hknows.congr hremembered rfl⟩
  | inbound nowMs =>
    obtain ⟨build, snapshot, hbuildOf, hknows⟩ := h
    have hremembered : (s.step (.inbound nowMs)).presence.remembered = s.presence.remembered := rfl
    exact ⟨build, snapshot, hbuildOf, hknows.congr hremembered rfl⟩
  | advise ms =>
    obtain ⟨build, snapshot, hbuildOf, hknows⟩ := h
    have hremembered : (s.step (.advise ms)).presence.remembered = s.presence.remembered := rfl
    exact ⟨build, snapshot, hbuildOf, hknows.congr hremembered rfl⟩

/-- In every run whose hello goes out and whose ticks deliver, no change is lost. -/
theorem noChangeLost_of_delivering (buildOf : String → DaemonBuild) (presence : IdlePresence P)
    (a : Attach P) (hsent : a.helloThrows = false) (hnamed : buildOf a.build.commit = a.build) :
    NoChangeLost (Delivering buildOf) (attached presence a) := by
  intro s t hreaches hallowed hpings _
  have hupToDate : s.UpToDate buildOf := by
    refine hreaches.invariant ⟨a.build, a.snapshot, hnamed, knowsFrom_attached presence hsent⟩ ?_
    intro s e s' hs hallowed hnext
    obtain rfl := Option.some.inj hnext
    exact upToDate_step hs hallowed
  obtain ⟨hknows, hnear⟩ := knowsFrom_tick hupToDate hpings (hallowed hpings)
  exact ⟨hknows.build, hknows.shows, hnear⟩

/-! ## A run that loses a change -/

/-- A build. -/
def stampedBuild : DaemonBuild := ⟨"abc1234", "7", "2026-10-04", "", "trunk", "1"⟩

/-- A host without Docker, and the same host with it. -/
def plainHost : PresenceSnapshot String := ⟨"UTC", "203.0.113.10", none, none, none, none⟩

def dockerHost : PresenceSnapshot String := { plainHost with docker := some "28.3.3" }

/-- An instance that was never attached, with the default intervals. -/
def freshPresence : IdlePresence String where
  idleCheckIntervalMs := 60000
  idleThresholdMs := 60000
  minPresenceIntervalMs := 60000
  presenceRefreshIntervalMs := 300000
  staleConnectionMs := 180000
  maxConnectionAgeMs := 7200000
  connectedAtMs := 0
  lastActivityAt := 0
  lastInboundAt := 0
  lastPresenceSendAt := 0
  lastPresenceFrameAt := 0
  lastDaemonBuildCommit := none
  lastPresenceSnapshot := none
  lastCapacity := none
  staleReported := false
  maxAgeReported := false

/-- The hello of a host without Docker goes out. -/
def plainAttach : Attach String where
  nowMs := 1000
  maxConnectionAgeMs := 7200000
  build := stampedBuild
  host := ⟨none, none, none, none⟩
  snapshot := plainHost
  commandReport := none
  helloThrows := false

/-- A tick of a host with Docker at a time. -/
def dockerTick (nowMs : ℤ) (heartbeatThrows : Bool) : Tick String where
  now := fun _ => nowMs
  build := stampedBuild
  snapshot := dockerHost
  resources := none
  hostCapacityFlag := false
  commandReport := none
  peerSupports := false
  pingThrows := false
  heartbeatThrows := heartbeatThrows

/-- Docker appears, the heartbeat that tells it throws, and the next tick has nothing to
tell. -/
theorem not_noChangeLost_thrown :
    ¬NoChangeLost (fun _ _ => True) (attached freshPresence plainAttach) := by
  intro h
  have htold := h _ (dockerTick 121000 false)
    (.tail .refl trivial (a := .tick (dockerTick 61000 true)) rfl) trivial
  have hdocker := (htold (by decide) (by decide)).2.1.docker
  exact absurd hdocker (by decide)

/-- Docker appears and the heartbeat that tells it goes out. -/
theorem docker_told_delivered :
    (Session.step (attached freshPresence plainAttach)
      (.tick (dockerTick 61000 false))).view.docker = some "28.3.3" := by
  have hallowed : Delivering (fun _ => stampedBuild) (attached freshPresence plainAttach)
      (.tick (dockerTick 61000 false)) := by
    intro hpings
    refine ⟨fun hnews => rfl, ?_, rfl⟩
    intro text htext part hpart
    obtain rfl := Option.some.inj htext
    revert part
    decide
  exact ((noChangeLost_of_delivering (fun _ => stampedBuild) freshPresence plainAttach rfl rfl
    _ _ .refl hallowed) (by decide) (by decide)).2.1.docker

end Turbopaneld.Presence
