/-
# A tolerated state and its grace

There are four states the detector tolerates for a while, each with a grace of its own, but
one start time for all of them.  Inside the grace of its own state a step is harmless just
when the whole run of tolerated states, of whatever kinds, is younger than that grace and
the failures counted before do not fire by themselves.
-/

import Turbopaneld.Managed.Alarms

namespace Turbopaneld.Managed

open DeadPrimaryDetector

/-- The states a sample is called soft for. -/
inductive SoftKind where
  | justStarted
  | unresponsive
  | crashRecovery
  | rejecting
deriving DecidableEq, Repr

def SoftKind.grace (config : PgDeadPrimaryConfig) : SoftKind → ℚ
  | .justStarted => config.startGraceMs
  | .unresponsive => config.unresponsiveGraceMs
  | .crashRecovery => config.crashRecoveryGraceMs
  | .rejecting => config.rejectingGraceMs

/-- The kind of soft state a sample of a running container shows. -/
def softKindOf (parseDate : String → Option ℚ) (sample : ProbeSample) (state : ContainerSnapshot)
    (wallMs : ℚ) (config : PgDeadPrimaryConfig) : Option SoftKind :=
  match sample.pgReady with
  | some (.exit code _) =>
    if code = 1 then
      if sample.controlData = some .inArchiveRecovery then none
      else if crashRecoveryGraceStates.contains (sample.controlData.getD .unreadable) then
        some .crashRecovery
      else some .rejecting
    else if code = 2 then
      if (containerAgeMs parseDate state wallMs).any fun age => decide (age < config.startGraceMs)
      then some .justStarted
      else if sample.postmaster = some .stopped then none
      else some .unresponsive
    else none
  | _ => none

/-- The kind of soft state a sample shows. -/
def softKind (parseDate : String → Option ℚ) (sample : ProbeSample) (wallMs : ℚ)
    (config : PgDeadPrimaryConfig) : Option SoftKind :=
  match sample.container with
  | .present state =>
    if state.status = "running" then softKindOf parseDate sample state wallMs config else none
  | _ => none

variable {parseDate : String → Option ℚ} {clean : String → String} {config : PgDeadPrimaryConfig}
  {ticks : ℕ → Tick} {n : ℕ} {kind : SoftKind}

/-- A sample is called soft for its kind, with that kind's grace. -/
theorem classifyProbeSample_of_softKind {sample : ProbeSample} {wallMs : ℚ}
    (h : softKind parseDate sample wallMs config = some kind) :
    ∃ reason, classifyProbeSample parseDate sample wallMs config = .soft reason (kind.grace config) := by
  unfold softKind at h
  split at h
  case h_2 => cases h
  case h_1 state hcontainer =>
    split_ifs at h with hrunning
    have halive : deadContainerStates.contains state.status = false := by
      rw [hrunning]
      decide
    rw [hrunning] at halive
    simp only [classifyProbeSample, hcontainer, hrunning, halive, Bool.false_eq_true, if_false, ne_eq,
      not_true_eq_false]
    unfold softKindOf at h
    split at h
    case h_2 => cases h
    case h_1 code output hready =>
      simp only [classifyPgReady, hready]
      split_ifs at h with hrejecting harchive hrecovery hsilent hstarted hstopped
      · subst hrejecting
        obtain rfl := Option.some.inj h
        rw [if_neg (by decide), if_pos rfl, classifyRejecting, if_neg harchive, if_pos hrecovery]
        exact ⟨_, rfl⟩
      · subst hrejecting
        obtain rfl := Option.some.inj h
        rw [if_neg (by decide), if_pos rfl, classifyRejecting, if_neg harchive, if_neg hrecovery]
        exact ⟨_, rfl⟩
      · subst hsilent
        obtain rfl := Option.some.inj h
        rw [if_neg (by decide), if_neg (by decide), if_pos rfl, classifyNoResponse, if_pos hstarted]
        exact ⟨_, rfl⟩
      · subst hsilent
        obtain rfl := Option.some.inj h
        rw [if_neg (by decide), if_neg (by decide), if_pos rfl, classifyNoResponse,
          if_neg hstarted, if_neg hstopped]
        exact ⟨_, rfl⟩

/-- A sample that is called soft has a kind. -/
theorem softKind_of_classifyProbeSample {sample : ProbeSample} {wallMs graceMs : ℚ}
    {reason : String}
    (h : classifyProbeSample parseDate sample wallMs config = .soft reason graceMs) :
    ∃ kind, softKind parseDate sample wallMs config = some kind := by
  unfold classifyProbeSample at h
  split at h
  case h_1 => cases h
  case h_2 => cases h
  case h_3 state hcontainer =>
    split_ifs at h with hdead hrunning
    rw [not_not] at hrunning
    simp only [softKind, hcontainer, hrunning, if_true, softKindOf]
    unfold classifyPgReady at h
    split at h
    case h_1 => cases h
    case h_2 => cases h
    case h_3 code output hready =>
      rw [hready]
      dsimp only
      split_ifs at h with hhealthy hrejecting hsilent
      · rw [if_pos hrejecting]
        unfold classifyRejecting at h
        split_ifs at h with harchive hrecovery
        · rw [if_neg harchive, if_pos hrecovery]
          exact ⟨_, rfl⟩
        · rw [if_neg harchive, if_neg hrecovery]
          exact ⟨_, rfl⟩
      · rw [if_neg hrejecting, if_pos hsilent]
        unfold classifyNoResponse at h
        split_ifs at h with hstarted hstopped
        · rw [if_pos hstarted]
          exact ⟨_, rfl⟩
        · rw [if_neg hstarted, if_neg hstopped]
          exact ⟨_, rfl⟩

section

variable (parseDate config ticks)

/-- The soft state of a step, `none` while an intent marker suppresses it. -/
def kindAt (n : ℕ) : Option SoftKind :=
  if (ticks n).context.intentActive then none
  else softKind parseDate (ticks n).sample
    ((ticks n).context.wallMs.getD (ticks n).context.nowMs) config

/-- The steps from `first` to `n` without a break are of one soft kind, and the step before
`first` is not. -/
structure KindRun (kind : SoftKind) (first n : ℕ) : Prop where
  le : first ≤ n
  same : ∀ i, first ≤ i → i ≤ n → kindAt parseDate config ticks i = some kind
  start : ∀ i, i + 1 = first → kindAt parseDate config ticks i ≠ some kind

/-- Step `n` is in a run of one soft kind that began less than its grace ago. -/
def InGrace (kind : SoftKind) (n : ℕ) : Prop :=
  ∃ first, KindRun parseDate config ticks kind first n ∧
    timeAt ticks n - timeAt ticks first < kind.grace config

/-- The soft steps up to `n`, of whatever kinds, began less than the grace ago. -/
def WholeRunInGrace (kind : SoftKind) (n : ℕ) : Prop :=
  ∃ first, SoftRun parseDate config ticks first (n + 1) ∧
    timeAt ticks n - timeAt ticks first < kind.grace config

/-- A step inside the grace of its soft kind neither adds to the streak nor fires. -/
def GraceKept (clean : String → String) (n : ℕ) : Prop :=
  ∀ kind, InGrace parseDate config ticks kind n →
    (detectorAt parseDate clean config ticks (n + 1)).streak =
        (detectorAt parseDate clean config ticks n).streak ∧
      verdictAt parseDate clean config ticks n = none

end

/-- What a step with a kind shows. -/
theorem observationAt_of_kindAt (h : kindAt parseDate config ticks n = some kind) :
    (ticks n).context.intentActive = false ∧
      ∃ reason, observe parseDate config (ticks n).sample (ticks n).context =
        .soft reason (kind.grace config) := by
  unfold kindAt at h
  split_ifs at h with hintent
  rw [Bool.not_eq_true] at hintent
  exact ⟨hintent, classifyProbeSample_of_softKind h⟩

theorem isSoft_of_kindAt (h : kindAt parseDate config ticks n = some kind) :
    IsSoft parseDate config ticks n := by
  obtain ⟨hintent, reason, hreason⟩ := observationAt_of_kindAt h
  refine ⟨reason, kind.grace config, ?_⟩
  rw [observationAt, hintent, if_neg Bool.false_ne_true, hreason]

/-- The mark that may follow a step does not touch the streak. -/
theorem streak_detectorAt_succ (clean : String → String) (n : ℕ) :
    (detectorAt parseDate clean config ticks (n + 1)).streak =
      ((detectorAt parseDate clean config ticks n).step parseDate clean config (ticks n).sample
        (ticks n).context).2.streak := by
  rw [detectorAt, tick]
  dsimp only
  split <;> rfl

/-- Firing depends on the streak, the incident and the back-off only. -/
theorem canFire_congr (first second : DeadPrimaryDetector) (nowMs : ℚ)
    (hstreak : first.streak = second.streak) (hstart : first.streakStartMs = second.streakStartMs)
    (hsame : SameIncident first second) : canFire config first nowMs = canFire config second nowMs := by
  simp only [canFire, hstreak, hstart, hsame.events, hsame.next, hsame.last]

/-- What a step inside the grace of its kind does is settled by the whole run of soft steps and
by what was counted before it. -/
theorem kept_iff_of_inGrace (clean : String → String)
    (hin : InGrace parseDate config ticks kind n) :
    ((detectorAt parseDate clean config ticks (n + 1)).streak =
          (detectorAt parseDate clean config ticks n).streak ∧
        verdictAt parseDate clean config ticks n = none) ↔
      WholeRunInGrace parseDate config ticks kind n ∧
        canFire config (detectorAt parseDate clean config ticks n) (timeAt ticks n) = false := by
  obtain ⟨first, hrun, -⟩ := hin
  have hkind := hrun.same n hrun.le le_rfl
  obtain ⟨hintent, reason, hreason⟩ := observationAt_of_kindAt hkind
  have hstands := streakStands_detectorAt parseDate clean config ticks n
  obtain ⟨start, hsoft, hsince⟩ := exists_softRun_succ hstands.soft (isSoft_of_kindAt hkind)
  obtain ⟨container, hafter⟩ := afterSample_eq parseDate config
    (detectorAt parseDate clean config ticks n) (ticks n).sample (ticks n).context
  have hyoung : WholeRunInGrace parseDate config ticks kind n ↔
      timeAt ticks n - timeAt ticks start < kind.grace config := by
    constructor
    · rintro ⟨other, hother, hlt⟩
      rwa [softRun_unique hother hsoft] at hlt
    · exact fun hlt => ⟨start, hsoft, hlt⟩
  have hnow : (ticks n).context.nowMs = timeAt ticks n := rfl
  rw [streak_detectorAt_succ, step_snd_of_not_intentActive clean hintent, verdictAt, step, hintent,
    if_neg Bool.false_ne_true, hyoung, hafter, hreason]
  simp only [apply, applySoft, hnow, hsince]
  by_cases hlt : timeAt ticks n - timeAt ticks start < kind.grace config
  · rw [if_neg (not_le.mpr hlt)]
    rw [canFire_congr
      { detectorAt parseDate clean config ticks n with
        lastContainer := container
        softSinceMs := some (timeAt ticks start) }
      (detectorAt parseDate clean config ticks n) (timeAt ticks n) rfl rfl ⟨rfl, rfl, rfl⟩]
    cases canFire config (detectorAt parseDate clean config ticks n) (timeAt ticks n) with
    | true => exact iff_of_false (fun h => Option.some_ne_none _ h.2) (fun h => by cases h.2)
    | false => exact iff_of_true ⟨rfl, rfl⟩ ⟨hlt, rfl⟩
  · rw [if_pos (not_lt.mp hlt)]
    exact iff_of_false (fun h => Nat.succ_ne_self _ h.1) (fun h => hlt h.1)

/-- For every configuration and run and every step: the step's grace is kept if and only if,
when it is inside the grace of its kind, the whole run of soft steps is too and what was
counted before the step does not fire at its time. -/
theorem graceKept_iff (parseDate : String → Option ℚ) (clean : String → String)
    (config : PgDeadPrimaryConfig) (ticks : ℕ → Tick) (n : ℕ) :
    GraceKept parseDate config ticks clean n ↔
      ∀ kind, InGrace parseDate config ticks kind n →
        WholeRunInGrace parseDate config ticks kind n ∧
          canFire config (detectorAt parseDate clean config ticks n) (timeAt ticks n) = false := by
  apply forall_congr'
  intro kind
  exact imp_congr_right fun hin => kept_iff_of_inGrace clean hin

/-! ## A grace used up by another state -/

/-- A server that rejects connections, and 400 seconds later one that does not answer while
its postmaster runs. -/
def usedUpTick (n : ℕ) : Tick where
  sample :=
    { container := .present ⟨"running", 0, 0, none, none, none⟩
      pgReady := some (.exit (if n = 0 then 1 else 2) "")
      controlData := some .inProduction
      postmaster := some .running }
  context := { nowMs := 400000 * n, wallMs := none, intentActive := false }
  emittedAt := none

/-- The second step has just begun to be unresponsive, counts, and fires. -/
theorem not_graceKept_usedUp :
    ¬GraceKept (fun _ => none) quickConfig usedUpTick id 1 := by
  intro hkept
  have hfirst : kindAt (fun _ => none) quickConfig usedUpTick 0 = some .rejecting := by decide
  have hsecond : kindAt (fun _ => none) quickConfig usedUpTick 1 = some .unresponsive := by decide
  have hrun : KindRun (fun _ => none) quickConfig usedUpTick .unresponsive 1 1 := by
    refine ⟨le_rfl, fun i hi hi' => ?_, fun i hi => ?_⟩
    · rw [Nat.le_antisymm hi' hi]
      exact hsecond
    · rw [Nat.succ.inj hi, hfirst]
      decide
  have hin : InGrace (fun _ => none) quickConfig usedUpTick .unresponsive 1 := by
    refine ⟨1, hrun, ?_⟩
    rw [sub_self]
    show (0 : ℚ) < 300000
    decide
  have hsoft : SoftRun (fun _ => none) quickConfig usedUpTick 0 2 := by
    refine ⟨by decide, fun i _ hi => ?_, fun i hi => absurd hi (Nat.succ_ne_zero i)⟩
    obtain rfl | rfl : i = 0 ∨ i = 1 := by omega
    · exact isSoft_of_kindAt hfirst
    · exact isSoft_of_kindAt hsecond
  obtain ⟨⟨start, hstart, hyoung⟩, -⟩ := (kept_iff_of_inGrace id hin).mp (hkept _ hin)
  rw [softRun_unique hstart hsoft] at hyoung
  have hspan : (400000 * ((1 : ℕ) : ℚ) - 400000 * ((0 : ℕ) : ℚ)) < 300000 := hyoung
  rw [Nat.cast_one, Nat.cast_zero, mul_one, mul_zero, sub_zero] at hspan
  exact absurd hspan (by decide)

end Turbopaneld.Managed
