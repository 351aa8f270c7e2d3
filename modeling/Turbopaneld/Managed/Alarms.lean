/-
# No early and no excessive alarms

The detector keeps counters and times that different samples reset.  Along every run they
stand for what they are named after: the streak for the counted failures since the last
step that cleared it, the incident's events for the marks since the last healthy step.
From this follow the bounds on when an event fires and how many are emitted.
-/

import Turbopaneld.Managed.DeadPrimary
import Turbopaneld.Sequences.SinceLast

namespace Turbopaneld.Managed

open DeadPrimaryDetector

section

variable (parseDate : String → Option ℚ) (clean : String → String) (config : PgDeadPrimaryConfig)
  (ticks : ℕ → Tick)

/-! ## What the steps of a run are -/

/-- The time of a step. -/
def timeAt (n : ℕ) : ℚ := (ticks n).context.nowMs

/-- What a step's sample shows, `none` while an intent marker suppresses it. -/
def observationAt (n : ℕ) : Option Observation :=
  if (ticks n).context.intentActive then none
  else some (observe parseDate config (ticks n).sample (ticks n).context)

/-- The primary answered. -/
def IsHealthy (n : ℕ) : Prop := observationAt parseDate config ticks n = some .healthy

/-- The step is soft, with some grace. -/
def IsSoft (n : ℕ) : Prop :=
  ∃ reason graceMs, observationAt parseDate config ticks n = some (.soft reason graceMs)

/-- A healthy, inconclusive, not-primary or intent-suppressed step. -/
def ClearsStreak (n : ℕ) : Prop :=
  match observationAt parseDate config ticks n with
  | none | some .healthy | some (.inconclusive _) | some (.notPrimary _) => True
  | _ => False

/-- The soft steps before `n` without a break start at `first`. -/
structure SoftRun (first n : ℕ) : Prop where
  lt : first < n
  soft : ∀ i, first ≤ i → i < n → IsSoft parseDate config ticks i
  start : ∀ i, i + 1 = first → ¬IsSoft parseDate config ticks i

/-- A counted failure: hard, or soft beyond its grace. -/
def IsCounted (n : ℕ) : Prop :=
  match observationAt parseDate config ticks n with
  | some (.hard _) => True
  | some (.soft _ graceMs) =>
    ∃ first, SoftRun parseDate config ticks first (n + 1) ∧ graceMs ≤ timeAt ticks n - timeAt ticks first
  | _ => False

/-- The event of a step was marked as emitted at a time. -/
def IsEmitted (n : ℕ) (nowMs : ℚ) : Prop :=
  verdictAt parseDate clean config ticks n ≠ none ∧ (ticks n).emittedAt = some nowMs

/-- The counted failures before step `n` since the last step that cleared the streak. -/
noncomputable def failuresBefore (n : ℕ) : Finset ℕ :=
  Sequences.sinceLast (IsCounted parseDate config ticks) (ClearsStreak parseDate config ticks) n

/-- The events emitted before step `n` since the last healthy step. -/
noncomputable def eventsBefore (n : ℕ) : Finset ℕ :=
  Sequences.sinceLast (fun k => ∃ nowMs, IsEmitted parseDate clean config ticks k nowMs)
    (IsHealthy parseDate config ticks) n

end

section

variable {parseDate : String → Option ℚ} {clean : String → String} {config : PgDeadPrimaryConfig}
  {ticks : ℕ → Tick}

/-! ## The soft run -/

theorem softRun_unique {first other n : ℕ} (h : SoftRun parseDate config ticks first n)
    (h' : SoftRun parseDate config ticks other n) : first = other := by
  have hle : ∀ {a b : ℕ}, SoftRun parseDate config ticks a n →
      SoftRun parseDate config ticks b n → a ≤ b := by
    intro a b ha hb
    by_contra hlt
    obtain ⟨i, rfl⟩ : ∃ i, a = i + 1 := ⟨a - 1, by omega⟩
    exact ha.start i rfl (hb.soft i (by omega) (by have := ha.lt; omega))
  exact Nat.le_antisymm (hle h h') (hle h' h)

/-- What `softSinceMs` stands for before step `n`. -/
def SoftSince (parseDate : String → Option ℚ) (config : PgDeadPrimaryConfig) (ticks : ℕ → Tick)
    (n : ℕ) (since : Option ℚ) : Prop :=
  match since with
  | none => ∀ i, i + 1 = n → ¬IsSoft parseDate config ticks i
  | some nowMs => ∃ first, SoftRun parseDate config ticks first n ∧ nowMs = timeAt ticks first

/-- A soft step goes on with the run of soft steps before it, or starts one. -/
theorem exists_softRun_succ {n : ℕ} {since : Option ℚ}
    (hsince : SoftSince parseDate config ticks n since) (hsoft : IsSoft parseDate config ticks n) :
    ∃ first, SoftRun parseDate config ticks first (n + 1) ∧
      since.getD (timeAt ticks n) = timeAt ticks first := by
  cases since with
  | none =>
    refine ⟨n, ⟨Nat.lt_succ_self n, ?_, hsince⟩, rfl⟩
    intro i hni hin
    rwa [Nat.le_antisymm (Nat.lt_succ_iff.mp hin) hni]
  | some nowMs =>
    obtain ⟨first, hrun, rfl⟩ := hsince
    refine ⟨first, ⟨Nat.lt_succ_of_lt hrun.lt, ?_, hrun.start⟩, rfl⟩
    intro i hfirst hin
    rcases Nat.lt_succ_iff_lt_or_eq.mp hin with hlt | rfl
    · exact hrun.soft i hfirst hlt
    · exact hsoft

/-! ## The streak stands for the counted failures -/

/-- The streak fields before step `n` are what they are named after. -/
structure StreakStands (parseDate : String → Option ℚ) (config : PgDeadPrimaryConfig)
    (ticks : ℕ → Tick) (n : ℕ) (detector : DeadPrimaryDetector) : Prop where
  soft : SoftSince parseDate config ticks n detector.softSinceMs
  count : detector.streak = (failuresBefore parseDate config ticks n).card
  start : match detector.streakStartMs with
    | none => failuresBefore parseDate config ticks n = ∅
    | some nowMs => ∃ first ∈ failuresBefore parseDate config ticks n,
      (∀ k ∈ failuresBefore parseDate config ticks n, first ≤ k) ∧ nowMs = timeAt ticks first

theorem isSoft_iff {n : ℕ} {observation : Observation}
    (h : observationAt parseDate config ticks n = some observation) :
    IsSoft parseDate config ticks n ↔ ∃ reason graceMs, observation = .soft reason graceMs := by
  simp only [IsSoft, h, Option.some.injEq]

/-- A step that clears the streak. -/
theorem streakStands_resetStreak {n : ℕ} {detector : DeadPrimaryDetector}
    (hclears : ClearsStreak parseDate config ticks n)
    (hstreak : detector.streak = 0) (hstart : detector.streakStartMs = none)
    (hsoft : detector.softSinceMs = none) :
    StreakStands parseDate config ticks (n + 1) detector := by
  have hempty : failuresBefore parseDate config ticks (n + 1) = ∅ :=
    Sequences.sinceLast_succ_of_clears hclears
  constructor
  case soft =>
    rw [hsoft]
    intro i hi
    obtain rfl : i = n := by omega
    rintro ⟨reason, graceMs, hobservation⟩
    rw [ClearsStreak, hobservation] at hclears
    exact hclears
  case count => rw [hempty, hstreak, Finset.card_empty]
  case start =>
    rw [hstart]
    exact hempty

/-- A step that counts one more failure. -/
theorem streakStands_counted {n : ℕ} {before after : DeadPrimaryDetector}
    (h : StreakStands parseDate config ticks n before)
    (hclears : ¬ClearsStreak parseDate config ticks n)
    (hcounted : IsCounted parseDate config ticks n)
    (hsoft : SoftSince parseDate config ticks (n + 1) after.softSinceMs)
    (hstreak : after.streak = before.streak + 1)
    (hstart : after.streakStartMs = some (before.streakStartMs.getD (timeAt ticks n))) :
    StreakStands parseDate config ticks (n + 1) after := by
  have hinsert : failuresBefore parseDate config ticks (n + 1) =
      insert n (failuresBefore parseDate config ticks n) :=
    Sequences.sinceLast_succ_of_occurs hclears hcounted
  constructor
  case soft => exact hsoft
  case count =>
    rw [hinsert, hstreak, h.count]
    exact Sequences.card_insert_sinceLast.symm
  case start =>
    rw [hstart, hinsert]
    have hbefore := h.start
    cases hstarted : before.streakStartMs with
    | none =>
      rw [hstarted] at hbefore
      refine ⟨n, Finset.mem_insert_self n _, ?_, rfl⟩
      rw [hbefore]
      simp
    | some nowMs =>
      rw [hstarted] at hbefore
      obtain ⟨first, hfirst, hleast, htime⟩ := hbefore
      refine ⟨first, Finset.mem_insert_of_mem hfirst, ?_, htime⟩
      rw [Finset.forall_mem_insert]
      exact ⟨(Sequences.lt_of_mem_sinceLast hfirst).le, hleast⟩

/-- A soft step within its grace holds the streak. -/
theorem streakStands_held {n : ℕ} {before after : DeadPrimaryDetector}
    (h : StreakStands parseDate config ticks n before)
    (hclears : ¬ClearsStreak parseDate config ticks n)
    (hcounted : ¬IsCounted parseDate config ticks n)
    (hsoft : SoftSince parseDate config ticks (n + 1) after.softSinceMs)
    (hstreak : after.streak = before.streak)
    (hstart : after.streakStartMs = before.streakStartMs) :
    StreakStands parseDate config ticks (n + 1) after := by
  have hsame : failuresBefore parseDate config ticks (n + 1) =
      failuresBefore parseDate config ticks n :=
    Sequences.sinceLast_succ_of_not_occurs hclears hcounted
  constructor
  case soft => exact hsoft
  case count => rw [hsame, hstreak, h.count]
  case start =>
    rw [hstart, hsame]
    exact h.start

theorem streakStands_applySoft {n : ℕ} {detector : DeadPrimaryDetector} {reason : String}
    {graceMs : ℚ} (h : StreakStands parseDate config ticks n detector)
    (hobservation : observationAt parseDate config ticks n = some (.soft reason graceMs)) :
    StreakStands parseDate config ticks (n + 1)
      (detector.applySoft reason graceMs (timeAt ticks n)) := by
  have hclears : ¬ClearsStreak parseDate config ticks n := by
    rw [ClearsStreak, hobservation]
    exact not_false
  obtain ⟨first, hrun, hsince⟩ :=
    exists_softRun_succ h.soft ((isSoft_iff hobservation).mpr ⟨reason, graceMs, rfl⟩)
  have hsoft : SoftSince parseDate config ticks (n + 1)
      (some (detector.softSinceMs.getD (timeAt ticks n))) := ⟨first, hrun, hsince⟩
  have hcounted : IsCounted parseDate config ticks n ↔
      graceMs ≤ timeAt ticks n - timeAt ticks first := by
    rw [IsCounted, hobservation]
    constructor
    · rintro ⟨other, hother, hgrace⟩
      rwa [softRun_unique hrun hother]
    · intro hgrace
      exact ⟨first, hrun, hgrace⟩
  simp only [applySoft]
  split
  · rename_i hgrace
    rw [hsince] at hgrace
    exact streakStands_counted h hclears (hcounted.mpr hgrace) hsoft rfl rfl
  · rename_i hgrace
    rw [hsince] at hgrace
    exact streakStands_held h hclears (fun hc => hgrace (hcounted.mp hc)) hsoft rfl rfl

theorem streakStands_apply {n : ℕ} {detector : DeadPrimaryDetector} {observation : Observation}
    (h : StreakStands parseDate config ticks n detector)
    (hobservation : observationAt parseDate config ticks n = some observation) :
    StreakStands parseDate config ticks (n + 1)
      (detector.apply observation (timeAt ticks n)) := by
  cases observation with
  | healthy =>
    refine streakStands_resetStreak ?_ rfl rfl rfl
    rw [ClearsStreak, hobservation]
    trivial
  | inconclusive reason =>
    refine streakStands_resetStreak ?_ rfl rfl rfl
    rw [ClearsStreak, hobservation]
    trivial
  | notPrimary reason =>
    refine streakStands_resetStreak ?_ rfl rfl rfl
    rw [ClearsStreak, hobservation]
    trivial
  | soft reason graceMs => exact streakStands_applySoft h hobservation
  | hard reason =>
    have hclears : ¬ClearsStreak parseDate config ticks n := by
      rw [ClearsStreak, hobservation]
      exact not_false
    have hcounted : IsCounted parseDate config ticks n := by
      rw [IsCounted, hobservation]
      trivial
    refine streakStands_counted h hclears hcounted ?_ rfl rfl
    intro i hi
    obtain rfl : i = n := by omega
    rw [isSoft_iff hobservation]
    rintro ⟨_, _, hsoft⟩
    exact Observation.noConfusion hsoft

/-- Only the snapshot of the container changes before the observation is applied. -/
theorem afterSample_eq (parseDate : String → Option ℚ) (config : PgDeadPrimaryConfig)
    (detector : DeadPrimaryDetector) (sample : ProbeSample) (context : DetectorStepContext) :
    ∃ container, detector.afterSample parseDate config sample context =
      { detector with lastContainer := container }.apply (observe parseDate config sample context)
        context.nowMs := by
  rw [afterSample]
  cases sample.container with
  | present state => exact ⟨some state, rfl⟩
  | absent => exact ⟨detector.lastContainer, rfl⟩
  | unreadable reason => exact ⟨detector.lastContainer, rfl⟩

theorem step_of_intentActive {detector : DeadPrimaryDetector} {sample : ProbeSample}
    {context : DetectorStepContext} (h : context.intentActive = true) :
    detector.step parseDate clean config sample context = (none, detector.resetStreak) := by
  rw [step, if_pos h]

theorem step_snd_of_not_intentActive (clean : String → String) {detector : DeadPrimaryDetector}
    {sample : ProbeSample} {context : DetectorStepContext} (h : context.intentActive = false) :
    (detector.step parseDate clean config sample context).2 =
      detector.afterSample parseDate config sample context := by
  rw [step, h, if_neg (by decide)]
  dsimp only
  split
  · rfl
  · rfl

theorem streakStands_step {n : ℕ} {detector : DeadPrimaryDetector}
    (h : StreakStands parseDate config ticks n detector) :
    StreakStands parseDate config ticks (n + 1)
      (detector.step parseDate clean config (ticks n).sample (ticks n).context).2 := by
  cases hintent : (ticks n).context.intentActive with
  | true =>
    rw [step_of_intentActive hintent]
    refine streakStands_resetStreak ?_ rfl rfl rfl
    rw [ClearsStreak, observationAt, if_pos hintent]
    trivial
  | false =>
    rw [step_snd_of_not_intentActive clean hintent]
    obtain ⟨container, hafter⟩ :=
      afterSample_eq parseDate config detector (ticks n).sample (ticks n).context
    rw [hafter]
    have hkept : StreakStands parseDate config ticks n
        { detector with lastContainer := container } := ⟨h.soft, h.count, h.start⟩
    refine streakStands_apply hkept ?_
    rw [observationAt, hintent, if_neg (by decide)]

/-- A mark leaves the streak alone. -/
theorem streakStands_tick {n : ℕ} {detector : DeadPrimaryDetector}
    (h : StreakStands parseDate config ticks n detector) :
    StreakStands parseDate config ticks (n + 1)
      (detector.tick parseDate clean config (ticks n)) := by
  have hstep : StreakStands parseDate config ticks (n + 1)
      (detector.step parseDate clean config (ticks n).sample (ticks n).context).2 :=
    streakStands_step h
  rw [tick]
  dsimp only
  split
  · exact ⟨hstep.soft, hstep.count, hstep.start⟩
  · exact hstep

theorem streakStands_detectorAt (parseDate : String → Option ℚ) (clean : String → String)
    (config : PgDeadPrimaryConfig) (ticks : ℕ → Tick) (n : ℕ) :
    StreakStands parseDate config ticks n (detectorAt parseDate clean config ticks n) := by
  induction n with
  | zero =>
    constructor
    case soft =>
      intro i hi
      omega
    case count => rw [failuresBefore, Sequences.sinceLast_zero]; rfl
    case start => exact Sequences.sinceLast_zero
  | succ n ih => exact streakStands_tick ih

/-! ## When a step fires -/

/-- A step that fires is no step that clears the streak, and its detector may fire. -/
theorem canFire_of_verdict {n : ℕ} (h : verdictAt parseDate clean config ticks n ≠ none) :
    (ticks n).context.intentActive = false ∧
      ((detectorAt parseDate clean config ticks n).afterSample parseDate config (ticks n).sample
        (ticks n).context).canFire config (timeAt ticks n) = true := by
  rw [verdictAt] at h
  cases hintent : (ticks n).context.intentActive with
  | true =>
    rw [step_of_intentActive hintent] at h
    exact absurd rfl h
  | false =>
    refine ⟨rfl, ?_⟩
    rw [step, hintent, if_neg (by decide)] at h
    dsimp only at h
    split at h
    · assumption
    · exact absurd rfl h

/-- What a detector that may fire has seen. -/
theorem canFire_eq_true {detector : DeadPrimaryDetector} {nowMs : ℚ}
    (h : detector.canFire config nowMs = true) :
    config.failureThreshold ≤ detector.streak ∧
      (∃ start, detector.streakStartMs = some start ∧ config.minFailureSpanMs ≤ nowMs - start) ∧
      (0 < detector.incidentEvents → detector.incidentEvents < config.maxEventsPerIncident ∧
        ∃ next, detector.nextResendMs = some next ∧ next ≤ nowMs) ∧
      (detector.incidentEvents = 0 →
        ∀ last, detector.lastEmitMs = some last → config.backoffMs ≤ nowMs - last) := by
  rw [canFire] at h
  split at h
  · exact absurd h (by decide)
  rename_i hthreshold
  split at h
  · exact absurd h (by decide)
  rename_i start hstart
  split at h
  · exact absurd h (by decide)
  rename_i hspan
  refine ⟨not_lt.mp hthreshold, ⟨start, hstart, not_lt.mp hspan⟩, ?_, ?_⟩
  · intro hevents
    rw [if_pos hevents, Bool.and_eq_true, decide_eq_true_iff, Option.any_eq_true] at h
    obtain ⟨hbound, next, hnext, hdue⟩ := h
    exact ⟨hbound, next, hnext, decide_eq_true_iff.mp hdue⟩
  · intro hevents last hlast
    rw [if_neg (by omega), hlast] at h
    exact decide_eq_true_iff.mp h

/-! ## The incident stands for the emitted events -/

/-- Two detectors agree on the incident and its back-off. -/
structure SameIncident (before after : DeadPrimaryDetector) : Prop where
  events : after.incidentEvents = before.incidentEvents
  next : after.nextResendMs = before.nextResendMs
  last : after.lastEmitMs = before.lastEmitMs

theorem sameIncident_applySoft (detector : DeadPrimaryDetector) (reason : String)
    (graceMs nowMs : ℚ) : SameIncident detector (detector.applySoft reason graceMs nowMs) := by
  rw [applySoft]
  split
  · exact ⟨rfl, rfl, rfl⟩
  · exact ⟨rfl, rfl, rfl⟩

theorem sameIncident_step {n : ℕ} (clean : String → String) (detector : DeadPrimaryDetector)
    (hhealthy : ¬IsHealthy parseDate config ticks n) :
    SameIncident detector
      (detector.step parseDate clean config (ticks n).sample (ticks n).context).2 := by
  cases hintent : (ticks n).context.intentActive with
  | true =>
    rw [step_of_intentActive hintent]
    exact ⟨rfl, rfl, rfl⟩
  | false =>
    rw [step_snd_of_not_intentActive clean hintent]
    obtain ⟨container, hafter⟩ :=
      afterSample_eq parseDate config detector (ticks n).sample (ticks n).context
    rw [hafter]
    cases hobserved : observe parseDate config (ticks n).sample (ticks n).context with
    | healthy =>
      refine absurd ?_ hhealthy
      rw [IsHealthy, observationAt, hintent, if_neg (by decide), hobserved]
    | inconclusive reason => exact ⟨rfl, rfl, rfl⟩
    | notPrimary reason => exact ⟨rfl, rfl, rfl⟩
    | hard reason => exact ⟨rfl, rfl, rfl⟩
    | soft reason graceMs =>
      have hsame := sameIncident_applySoft { detector with lastContainer := container } reason
        graceMs (ticks n).context.nowMs
      exact ⟨hsame.events, hsame.next, hsame.last⟩

/-- A healthy step ends the incident and does not fire. -/
theorem step_of_isHealthy {n : ℕ} (clean : String → String) (detector : DeadPrimaryDetector)
    (hhealthy : IsHealthy parseDate config ticks n) :
    (detector.step parseDate clean config (ticks n).sample (ticks n).context).1 = none ∧
      (detector.step parseDate clean config (ticks n).sample (ticks n).context).2.incidentEvents = 0 ∧
      (detector.step parseDate clean config (ticks n).sample (ticks n).context).2.lastEmitMs =
        detector.lastEmitMs := by
  rw [IsHealthy, observationAt] at hhealthy
  split at hhealthy
  · exact absurd hhealthy (by simp)
  rename_i hintent
  have hobserved := Option.some.inj hhealthy
  obtain ⟨container, hafter⟩ :=
    afterSample_eq parseDate config detector (ticks n).sample (ticks n).context
  rw [hobserved] at hafter
  have hsilent : canFire config (detector.afterSample parseDate config (ticks n).sample
      (ticks n).context) (ticks n).context.nowMs = false := by
    rw [hafter, canFire]
    split
    · rfl
    · rfl
  rw [step, if_neg hintent]
  dsimp only
  rw [hsilent, if_neg (by decide), hafter]
  exact ⟨rfl, rfl, rfl⟩

/-- The time of the last mark before step `n`, if there was one. -/
def IsLastEmission (parseDate : String → Option ℚ) (clean : String → String)
    (config : PgDeadPrimaryConfig) (ticks : ℕ → Tick) (n : ℕ) (lastEmitMs : Option ℚ) : Prop :=
  match lastEmitMs with
  | none => ∀ k < n, ∀ nowMs, ¬IsEmitted parseDate clean config ticks k nowMs
  | some nowMs => ∃ j < n, IsEmitted parseDate clean config ticks j nowMs ∧
    ∀ i, j < i → i < n → ∀ later, ¬IsEmitted parseDate clean config ticks i later

/-- The incident fields before step `n` are what they are named after. -/
structure EventsStand (parseDate : String → Option ℚ) (clean : String → String)
    (config : PgDeadPrimaryConfig) (ticks : ℕ → Tick) (n : ℕ) (detector : DeadPrimaryDetector) :
    Prop where
  count : detector.incidentEvents = (eventsBefore parseDate clean config ticks n).card
  bound : detector.incidentEvents ≤ config.maxEventsPerIncident
  last : IsLastEmission parseDate clean config ticks n detector.lastEmitMs
  next : 0 < detector.incidentEvents → ∃ nowMs, detector.lastEmitMs = some nowMs ∧
    detector.nextResendMs = some (nowMs + resendInterval config detector.incidentEvents)

/-- A step without a mark leaves the last emission the last one. -/
theorem isLastEmission_succ {n : ℕ} {lastEmitMs : Option ℚ}
    (h : IsLastEmission parseDate clean config ticks n lastEmitMs)
    (hnot : ∀ nowMs, ¬IsEmitted parseDate clean config ticks n nowMs) :
    IsLastEmission parseDate clean config ticks (n + 1) lastEmitMs := by
  cases lastEmitMs with
  | none =>
    intro k hk
    rcases Nat.lt_succ_iff_lt_or_eq.mp hk with hlt | rfl
    · exact h k hlt
    · exact hnot
  | some nowMs =>
    obtain ⟨j, hj, hemitted, hafter⟩ := h
    refine ⟨j, Nat.lt_succ_of_lt hj, hemitted, ?_⟩
    intro i hji hi
    rcases Nat.lt_succ_iff_lt_or_eq.mp hi with hlt | rfl
    · exact hafter i hji hlt
    · exact hnot

theorem tick_of_emitted {n : ℕ} {nowMs : ℚ}
    (h : IsEmitted parseDate clean config ticks n nowMs) :
    detectorAt parseDate clean config ticks (n + 1) =
      ((detectorAt parseDate clean config ticks n).step parseDate clean config (ticks n).sample
        (ticks n).context).2.markEmitted config nowMs := by
  obtain ⟨hverdict, hemitted⟩ := h
  rw [verdictAt] at hverdict
  obtain ⟨evidence, hevidence⟩ := Option.ne_none_iff_exists'.mp hverdict
  rw [detectorAt, tick, hemitted]
  dsimp only
  rw [hevidence]

theorem tick_of_not_emitted {n : ℕ}
    (h : ∀ nowMs, ¬IsEmitted parseDate clean config ticks n nowMs) :
    detectorAt parseDate clean config ticks (n + 1) =
      ((detectorAt parseDate clean config ticks n).step parseDate clean config (ticks n).sample
        (ticks n).context).2 := by
  rw [detectorAt, tick]
  dsimp only
  split
  · rename_i evidence nowMs hverdict hemitted
    refine absurd ⟨?_, hemitted⟩ (h nowMs)
    rw [verdictAt, hverdict]
    exact Option.some_ne_none evidence
  · rfl

/-- The last mark is the one the detector remembers. -/
theorem lastEmitMs_eq {j n : ℕ} {nowMs : ℚ} {lastEmitMs : Option ℚ}
    (h : IsLastEmission parseDate clean config ticks n lastEmitMs)
    (hemitted : IsEmitted parseDate clean config ticks j nowMs) (hjn : j < n)
    (hlater : ∀ i, j < i → i < n → ∀ later, ¬IsEmitted parseDate clean config ticks i later) :
    lastEmitMs = some nowMs := by
  cases lastEmitMs with
  | none => exact absurd hemitted (h j hjn nowMs)
  | some other =>
    obtain ⟨k, hkn, hother, hafter⟩ := h
    rcases lt_trichotomy j k with hlt | rfl | hlt
    · exact absurd hother (hlater k hlt hkn other)
    · rw [← hother.2, hemitted.2]
    · exact absurd hemitted (hafter j hlt hjn nowMs)

theorem eventsStand_succ {n : ℕ} (hmax : 1 ≤ config.maxEventsPerIncident)
    (h : EventsStand parseDate clean config ticks n (detectorAt parseDate clean config ticks n)) :
    EventsStand parseDate clean config ticks (n + 1)
      (detectorAt parseDate clean config ticks (n + 1)) := by
  by_cases hhealthy : IsHealthy parseDate config ticks n
  · -- A healthy step clears the incident and is not marked.
    obtain ⟨hverdict, hevents, hlast⟩ :=
      step_of_isHealthy clean (detectorAt parseDate clean config ticks n) hhealthy
    have hnot : ∀ nowMs, ¬IsEmitted parseDate clean config ticks n nowMs :=
      fun nowMs hemitted => hemitted.1 hverdict
    rw [tick_of_not_emitted hnot]
    constructor
    case count =>
      rw [hevents, eventsBefore, Sequences.sinceLast_succ_of_clears hhealthy, Finset.card_empty]
    case bound =>
      rw [hevents]
      exact Nat.zero_le _
    case last =>
      rw [hlast]
      exact isLastEmission_succ h.last hnot
    case next =>
      intro hpos
      rw [hevents] at hpos
      exact absurd hpos (lt_irrefl 0)
  have hsame := sameIncident_step clean (detectorAt parseDate clean config ticks n) hhealthy
  by_cases hemitted : ∃ nowMs, IsEmitted parseDate clean config ticks n nowMs
  · obtain ⟨nowMs, hemitted⟩ := hemitted
    have hcount : (eventsBefore parseDate clean config ticks (n + 1)).card =
        (eventsBefore parseDate clean config ticks n).card + 1 := by
      rw [eventsBefore, Sequences.sinceLast_succ_of_occurs hhealthy ⟨nowMs, hemitted⟩]
      exact Sequences.card_insert_sinceLast
    obtain ⟨hintent, hfires⟩ := canFire_of_verdict hemitted.1
    rw [← step_snd_of_not_intentActive clean hintent] at hfires
    rw [tick_of_emitted hemitted]
    constructor
    case count => rw [hcount, ← h.count, ← hsame.events]; rfl
    case bound =>
      -- Either this is the first event, or the detector checked the bound.
      change _ + 1 ≤ _
      rcases Nat.eq_zero_or_pos (((detectorAt parseDate clean config ticks n).step parseDate clean
        config (ticks n).sample (ticks n).context).2.incidentEvents) with hzero | hpos
      · rw [hzero]
        exact hmax
      · exact ((canFire_eq_true hfires).2.2.1 hpos).1
    case last =>
      refine ⟨n, Nat.lt_succ_self n, hemitted, ?_⟩
      intro i hni hi
      omega
    case next =>
      intro _
      exact ⟨nowMs, rfl, rfl⟩
  · have hnot : ∀ nowMs, ¬IsEmitted parseDate clean config ticks n nowMs :=
      fun nowMs hnow => hemitted ⟨nowMs, hnow⟩
    rw [tick_of_not_emitted hnot]
    constructor
    case count =>
      rw [hsame.events, h.count, eventsBefore, eventsBefore,
        Sequences.sinceLast_succ_of_not_occurs hhealthy hemitted]
    case bound =>
      rw [hsame.events]
      exact h.bound
    case last =>
      rw [hsame.last]
      exact isLastEmission_succ h.last hnot
    case next =>
      rw [hsame.events, hsame.last, hsame.next]
      exact h.next

theorem eventsStand_detectorAt (hmax : 1 ≤ config.maxEventsPerIncident) (n : ℕ) :
    EventsStand parseDate clean config ticks n (detectorAt parseDate clean config ticks n) := by
  induction n with
  | zero =>
    constructor
    case count => rw [eventsBefore, Sequences.sinceLast_zero]; rfl
    case bound => exact Nat.zero_le _
    case last =>
      intro k hk
      omega
    case next =>
      intro hpos
      exact absurd hpos (lt_irrefl 0)
  | succ n ih => exact eventsStand_succ hmax ih

/-- In every run of the detector whose marks follow a step that fired: an event fires only after
enough counted failures since the last step that cleared the streak, the first of them long
enough ago; without a healthy step in between at most the allowed number of events is emitted;
and an event comes no sooner after the last mark than the back-off, or than the interval for the
events its incident already has. -/
theorem alarms_bounded (parseDate : String → Option ℚ) (clean : String → String)
    (config : PgDeadPrimaryConfig) (ticks : ℕ → Tick) (hmax : 1 ≤ config.maxEventsPerIncident) :
    (∀ n, verdictAt parseDate clean config ticks n ≠ none →
      config.failureThreshold ≤ (failuresBefore parseDate config ticks (n + 1)).card ∧
      ∃ first ∈ failuresBefore parseDate config ticks (n + 1),
        (∀ k ∈ failuresBefore parseDate config ticks (n + 1), first ≤ k) ∧
        config.minFailureSpanMs ≤ timeAt ticks n - timeAt ticks first) ∧
    (∀ a b, (∀ i, a ≤ i → i < b → ¬IsHealthy parseDate config ticks i) →
      ∀ events : Finset ℕ, (∀ k ∈ events, a ≤ k ∧ k < b ∧
        ∃ nowMs, IsEmitted parseDate clean config ticks k nowMs) →
      events.card ≤ config.maxEventsPerIncident) ∧
    (∀ j n nowMs, verdictAt parseDate clean config ticks n ≠ none →
      IsEmitted parseDate clean config ticks j nowMs → j < n →
      (∀ i, j < i → i < n → ∀ later, ¬IsEmitted parseDate clean config ticks i later) →
      if (eventsBefore parseDate clean config ticks n).card = 0 then
        config.backoffMs ≤ timeAt ticks n - nowMs
      else
        nowMs + min (config.resendBaseMs *
            2 ^ ((eventsBefore parseDate clean config ticks n).card - 1)) config.resendMaxMs ≤
          timeAt ticks n) := by
  refine ⟨?_, ?_, ?_⟩
  · intro n hfires
    obtain ⟨hintent, hcan⟩ := canFire_of_verdict hfires
    rw [← step_snd_of_not_intentActive clean hintent] at hcan
    have hstands : StreakStands parseDate config ticks (n + 1)
        ((detectorAt parseDate clean config ticks n).step parseDate clean config (ticks n).sample
          (ticks n).context).2 :=
      streakStands_step (streakStands_detectorAt parseDate clean config ticks n)
    obtain ⟨hthreshold, ⟨start, hstart, hspan⟩, -, -⟩ := canFire_eq_true hcan
    have hfirst := hstands.start
    rw [hstart] at hfirst
    obtain ⟨first, hmem, hleast, rfl⟩ := hfirst
    rw [hstands.count] at hthreshold
    exact ⟨hthreshold, first, hmem, hleast, hspan⟩
  · intro a b hhealthy events hevents
    have hsubset : events ⊆ eventsBefore parseDate clean config ticks b := by
      intro k hk
      obtain ⟨hak, hkb, hemitted⟩ := hevents k hk
      exact Sequences.mem_sinceLast.mpr
        ⟨hkb, hemitted, fun i hki hib => hhealthy i (hak.trans hki) hib⟩
    have hstands : EventsStand parseDate clean config ticks b _ := eventsStand_detectorAt hmax b
    calc events.card ≤ (eventsBefore parseDate clean config ticks b).card :=
          Finset.card_le_card hsubset
      _ = (detectorAt parseDate clean config ticks b).incidentEvents := hstands.count.symm
      _ ≤ config.maxEventsPerIncident := hstands.bound
  · intro j n nowMs hfires hemitted hjn hlater
    have hstands : EventsStand parseDate clean config ticks n _ := eventsStand_detectorAt hmax n
    obtain ⟨hintent, hcan⟩ := canFire_of_verdict hfires
    rw [← step_snd_of_not_intentActive clean hintent] at hcan
    have hhealthy : ¬IsHealthy parseDate config ticks n := by
      intro hhealthy
      exact hfires (step_of_isHealthy clean _ hhealthy).1
    have hsame := sameIncident_step clean (detectorAt parseDate clean config ticks n) hhealthy
    obtain ⟨-, -, hresend, hbackoff⟩ := canFire_eq_true hcan
    rw [hsame.events, hsame.next] at hresend
    rw [hsame.events, hsame.last] at hbackoff
    have hlast := lastEmitMs_eq hstands.last hemitted hjn hlater
    split
    · rename_i hzero
      exact hbackoff (hstands.count.trans hzero) nowMs hlast
    · rename_i hnonzero
      have hpos : 0 < (detectorAt parseDate clean config ticks n).incidentEvents := by
        rw [hstands.count]
        exact Nat.pos_of_ne_zero hnonzero
      obtain ⟨other, hother, hnext⟩ := hstands.next hpos
      obtain rfl : other = nowMs := Option.some.inj (hother.symm.trans hlast)
      obtain ⟨-, next, hnext', hdue⟩ := hresend hpos
      rw [hnext, Option.some.injEq] at hnext'
      rw [← hnext', resendInterval, hstands.count] at hdue
      exact hdue

end

/-- A configuration that fires at the first counted failure. -/
def quickConfig : PgDeadPrimaryConfig where
  failureThreshold := 1
  minFailureSpanMs := 0
  rejectingGraceMs := 600000
  crashRecoveryGraceMs := 1800000
  startGraceMs := 60000
  unresponsiveGraceMs := 300000
  backoffMs := 300000
  resendBaseMs := 60000
  resendMaxMs := 60000
  maxEventsPerIncident := 25

/-- A container that is gone, seen once a second. -/
def absentTick (n : ℕ) : Tick where
  sample := { container := .absent, pgReady := none, controlData := none, postmaster := none }
  context := { nowMs := 1000 * n, wallMs := none, intentActive := false }
  emittedAt := some (1000 * n)

/-- The first step fires, and rightly so. -/
theorem alarms_bounded_absentTick :
    verdictAt (fun _ => none) id quickConfig absentTick 0 ≠ none ∧
      1 ≤ (failuresBefore (fun _ => none) quickConfig absentTick 1).card := by
  have hfires : verdictAt (fun _ => none) id quickConfig absentTick 0 ≠ none := by
    simp [verdictAt, detectorAt, step, afterSample, observe, classifyProbeSample, apply, recordHard,
      canFire, initial, absentTick, quickConfig]
  exact ⟨hfires, ((alarms_bounded (fun _ => none) id quickConfig absentTick (by decide)).1 0
    hfires).1⟩

end Turbopaneld.Managed
