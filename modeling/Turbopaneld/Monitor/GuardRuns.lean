/-
# What the guard stops

Reviews, answers to stops and their cleanups come in any order.  In every run, a stop is sent only
for restarts in a row: since the container was last seen to be stable, or since its restarts were
counted from zero, none of the reviews found it stable and its restarts have gone up by the limit.
Two stops of one entry never overlap, and after one that Docker carried out the next is sent only
when the container has been seen to run again from another start.
-/

import Mathlib.Data.List.Infix
import Turbopaneld.Monitor.CrashLoopGuard

namespace Turbopaneld.Monitor

open Machines

/-! ## One look at an entry -/

namespace Tracked

variable (parseDate : String → Option ℚ) (entry : Tracked) (obs : ServiceContainerObservation)
  (nowMs : ℚ)

/-- What `#reviewOne` does to the flags of an entry. -/
theorem clearIfStartedAgain_cases :
    entry.clearIfStartedAgain obs = entry ∨
      (entry.stopped = true ∧ entry.stopping = false ∧ obs.startedAt ≠ entry.stoppedRun ∧
        entry.clearIfStartedAgain obs = { entry with stopped := false, stoppedRun := none }) := by
  unfold clearIfStartedAgain
  split
  case isTrue => exact Or.inl rfl
  case isFalse hguarded =>
    split
    case isTrue hrun =>
      rw [Bool.or_eq_true, Bool.not_eq_true', not_or, Bool.not_eq_false] at hguarded
      exact Or.inr ⟨hguarded.1, by simpa using hguarded.2, hrun, rfl⟩
    case isFalse => exact Or.inl rfl

/-- The entry of `observe` before a stable container sets the baseline. -/
def cleared : Tracked :=
  let zeroed := if obs.restartCount < entry.baseline then { entry with baseline := 0 } else entry
  if isFailing (dockerStatusOf obs) then zeroed.clearIfStartedAgain obs else zeroed

theorem observe_eq :
    entry.observe parseDate obs nowMs =
      if provedStable parseDate obs (dockerStatusOf obs) nowMs && !(entry.cleared obs).stopped then
        { entry.cleared obs with baseline := obs.restartCount }
      else entry.cleared obs := rfl

theorem cleared_cases :
    ((entry.cleared obs).stopped = entry.stopped ∧ (entry.cleared obs).stoppedRun =
      entry.stoppedRun ∨
      entry.stopped = true ∧ (entry.cleared obs).stopped = false ∧
        isFailing (dockerStatusOf obs) = true ∧ obs.startedAt ≠ entry.stoppedRun) ∧
      (entry.cleared obs).stopping = entry.stopping ∧
      (entry.cleared obs).baseline ≤ obs.restartCount ∧
      (obs.restartCount < entry.baseline ∧ (entry.cleared obs).baseline = 0 ∨
        (entry.cleared obs).baseline = entry.baseline) := by
  unfold cleared
  generalize hzeroed :
    (if obs.restartCount < entry.baseline then { entry with baseline := 0 } else entry) = zeroed
  have hflags : zeroed.stopped = entry.stopped ∧ zeroed.stoppedRun = entry.stoppedRun ∧
      zeroed.stopping = entry.stopping ∧ zeroed.baseline ≤ obs.restartCount ∧
      (obs.restartCount < entry.baseline ∧ zeroed.baseline = 0 ∨
        zeroed.baseline = entry.baseline) := by
    subst hzeroed
    split
    case isTrue hcount => exact ⟨rfl, rfl, rfl, Nat.zero_le _, Or.inl ⟨hcount, rfl⟩⟩
    case isFalse hcount => exact ⟨rfl, rfl, rfl, Nat.le_of_not_lt hcount, Or.inr rfl⟩
  obtain ⟨hstopped, hrun, hstopping, hle, hbaseline⟩ := hflags
  dsimp only
  split
  case isFalse => exact ⟨Or.inl ⟨hstopped, hrun⟩, hstopping, hle, hbaseline⟩
  case isTrue hfailing =>
    rcases zeroed.clearIfStartedAgain_cases obs with hsame | ⟨hwas, -, hother, hclear⟩
    · rw [hsame]
      exact ⟨Or.inl ⟨hstopped, hrun⟩, hstopping, hle, hbaseline⟩
    · rw [hclear]
      exact ⟨Or.inr ⟨hstopped ▸ hwas, rfl, hfailing, hrun ▸ hother⟩, hstopping, hle, hbaseline⟩

theorem observe_stopping : (entry.observe parseDate obs nowMs).stopping = entry.stopping := by
  rw [observe_eq]
  split <;> exact (entry.cleared_cases obs).2.1

/-- A container that was stopped stays so, or has been started again. -/
theorem observe_of_stopped (h : entry.stopped = true) :
    (entry.observe parseDate obs nowMs).stopped = true ∧
        (entry.observe parseDate obs nowMs).stoppedRun = entry.stoppedRun ∨
      isFailing (dockerStatusOf obs) = true ∧ obs.startedAt ≠ entry.stoppedRun := by
  have hflags : (entry.observe parseDate obs nowMs).stopped = (entry.cleared obs).stopped ∧
      (entry.observe parseDate obs nowMs).stoppedRun = (entry.cleared obs).stoppedRun := by
    rw [observe_eq]
    split <;> exact ⟨rfl, rfl⟩
  rw [hflags.1, hflags.2]
  rcases (entry.cleared_cases obs).1 with ⟨hstopped, hrun⟩ | ⟨-, -, hfailing, hother⟩
  · exact Or.inl ⟨hstopped.trans h, hrun⟩
  · exact Or.inr ⟨hfailing, hother⟩

theorem observe_of_not_stopped (h : entry.stopped = false) :
    (entry.observe parseDate obs nowMs).stopped = false := by
  have hflag : (entry.observe parseDate obs nowMs).stopped = (entry.cleared obs).stopped := by
    rw [observe_eq]
    split <;> rfl
  rw [hflag]
  rcases (entry.cleared_cases obs).1 with ⟨hstopped, -⟩ | ⟨-, hstopped, -⟩
  · exact hstopped.trans h
  · exact hstopped

/-- The baseline never exceeds the count, so the streak is a difference of numbers. -/
theorem observe_baseline_le : (entry.observe parseDate obs nowMs).baseline ≤ obs.restartCount := by
  rw [observe_eq]
  split
  · exact le_refl _
  · exact (entry.cleared_cases obs).2.2.1

/-- The baseline moves to the count of a container that is stable, and else to zero, where the
count has gone down, or not at all. -/
theorem observe_baseline :
    if provedStable parseDate obs (dockerStatusOf obs) nowMs &&
        !(entry.observe parseDate obs nowMs).stopped then
      (entry.observe parseDate obs nowMs).baseline = obs.restartCount
    else
      obs.restartCount < entry.baseline ∧ (entry.observe parseDate obs nowMs).baseline = 0 ∨
        (entry.observe parseDate obs nowMs).baseline = entry.baseline := by
  rw [observe_eq]
  by_cases hstable :
      (provedStable parseDate obs (dockerStatusOf obs) nowMs && !(entry.cleared obs).stopped) = true
  · rw [if_pos hstable, if_pos hstable]
  · rw [if_neg hstable, if_neg hstable]
    exact (entry.cleared_cases obs).2.2.2

end Tracked

/-! ## What holds in every run -/

/-- The restarts beyond the baseline are restarts in a row.  They are counted from a look that
found the container stable, from a first look at a running container, from a first look at all, or
from a look that found them counted from zero again, and no look since then found it stable. -/
inductive Since : List Seen → ℕ → Prop
  | counted (look : Seen) {seen : List Seen}
      (h : look.stable = true ∨ seen = [] ∧ dockerStatusOf look.obs = "running") :
      Since (look :: seen) look.obs.restartCount
  | first {look : Seen} (h : look.stable = false) : Since [look] 0
  | again {look earlier : Seen} {seen : List Seen} (h : look.stable = false)
      (hearlier : earlier ∈ seen) (hcount : look.obs.restartCount < earlier.obs.restartCount) :
      Since (look :: seen) 0
  | cons {look : Seen} {seen : List Seen} {baseline : ℕ} (h : look.stable = false)
      (hseen : Since seen baseline) : Since (look :: seen) baseline

/-- A baseline is a count that was seen, or zero. -/
theorem Since.exists_count {seen : List Seen} {baseline : ℕ} (h : Since seen baseline) :
    baseline = 0 ∨ ∃ look ∈ seen, look.obs.restartCount = baseline := by
  induction h with
  | counted look _ => exact Or.inr ⟨look, List.mem_cons_self, rfl⟩
  | first _ => exact Or.inl rfl
  | again _ _ _ => exact Or.inl rfl
  | cons _ _ ih =>
    rcases ih with hzero | ⟨look, hlook, hcount⟩
    · exact Or.inl hzero
    · exact Or.inr ⟨look, List.mem_cons_of_mem _ hlook, hcount⟩

/-- A count below the baseline is below one that was seen. -/
theorem Since.again_of_lt {seen : List Seen} {baseline : ℕ} (h : Since seen baseline) {look : Seen}
    (hlook : look.stable = false) (hcount : look.obs.restartCount < baseline) :
    Since (look :: seen) 0 := by
  rcases h.exists_count with hzero | ⟨earlier, hearlier, hvalue⟩
  · rw [hzero] at hcount
    exact absurd hcount (Nat.not_lt_zero _)
  · rw [← hvalue] at hcount
    exact .again hlook hearlier hcount

/-- After the stop, the container was seen to be up from another start. -/
def Released (stop : Stop) (seen : List Seen) : Prop :=
  ∃ fresh, seen = fresh ++ stop.seen ∧
    ∃ look ∈ fresh, isFailing (dockerStatusOf look.obs) = true ∧ look.obs.startedAt ≠ stop.run

theorem Released.cons {stop : Stop} {seen : List Seen} (h : Released stop seen) (look : Seen) :
    Released stop (look :: seen) := by
  obtain ⟨fresh, rfl, other, hother, hup⟩ := h
  exact ⟨look :: fresh, rfl, other, List.mem_cons_of_mem look hother, hup⟩

/-- The stop was sent for restarts in a row, of the container and the run that were seen last. -/
def Justified (limit : ℕ) (stop : Stop) : Prop :=
  ∃ baseline, Since stop.seen baseline ∧ ∃ look ∈ stop.seen.head?,
    baseline + limit ≤ look.obs.restartCount ∧ isFailing (dockerStatusOf look.obs) = true ∧
      look.obs.containerId = stop.containerId ∧ look.obs.startedAt = stop.run

/-- Docker carried the stop out. -/
def Phase.isDone : Phase → Bool
  | .sent => false
  | .answered ok => ok
  | .finished ok => ok

/-- What holds of the guard in every run. -/
structure CrashLoopGuard.Sound (limit : ℕ) (guard : CrashLoopGuard) : Prop where
  entry : ∀ i < guard.sent, (guard.stops i).entry < guard.created
  since : ∀ known, guard.seen known ≠ [] → Since (guard.seen known) (guard.entries known).baseline
  busy : ∀ i < guard.sent, (∀ ok, (guard.stops i).phase ≠ .finished ok) →
    (guard.entries (guard.stops i).entry).stopping = true
  waiting : ∀ i < guard.sent, (guard.stops i).phase = .sent →
    (guard.entries (guard.stops i).entry).stopped = false
  suffix : ∀ i < guard.sent, (guard.stops i).seen <:+ guard.seen (guard.stops i).entry
  done : ∀ i < guard.sent, (guard.stops i).phase.isDone = true →
    (guard.entries (guard.stops i).entry).stopped = true ∧
        (guard.entries (guard.stops i).entry).stoppedRun = (guard.stops i).run ∨
      Released (guard.stops i) (guard.seen (guard.stops i).entry)
  apart : ∀ i j, i < j → j < guard.sent → (guard.stops i).entry = (guard.stops j).entry →
    ∃ ok, (guard.stops i).phase = .finished ok ∧
      (ok = true → Released (guard.stops i) (guard.stops j).seen)
  justified : ∀ i < guard.sent, Justified limit (guard.stops i)

/-- The map holds entries that were looked at. -/
def CrashLoopGuard.Indexed (guard : CrashLoopGuard) : Prop :=
  ∀ id known, guard.tracked id = some known → known < guard.created ∧ guard.seen known ≠ []

namespace CrashLoopGuard

variable {parseDate : String → Option ℚ} {limit : ℕ} {guard : CrashLoopGuard}

/-- Two stops of one entry that are not cleaned up after are one. -/
theorem Sound.eq_of_unfinished (h : guard.Sound limit) {i j : ℕ} (hi : i < guard.sent)
    (hj : j < guard.sent) (hentry : (guard.stops i).entry = (guard.stops j).entry)
    (hiphase : ∀ ok, (guard.stops i).phase ≠ .finished ok)
    (hjphase : ∀ ok, (guard.stops j).phase ≠ .finished ok) : i = j := by
  rcases Nat.lt_trichotomy i j with hlt | heq | hlt
  · obtain ⟨ok, hphase, -⟩ := h.apart i j hlt hj hentry
    exact absurd hphase (hiphase ok)
  · exact heq
  · obtain ⟨ok, hphase, -⟩ := h.apart j i hlt hi hentry.symm
    exact absurd hphase (hjphase ok)

theorem since_look {seen : List Seen} {entry : Tracked} (obs : ServiceContainerObservation)
    (nowMs : ℚ) (hnew : seen = [] → entry = newEntry (dockerStatusOf obs) obs.restartCount)
    (hsince : seen ≠ [] → Since seen entry.baseline) :
    Since (⟨obs, provedStable parseDate obs (dockerStatusOf obs) nowMs &&
        !(entry.observe parseDate obs nowMs).stopped⟩ :: seen)
      (entry.observe parseDate obs nowMs).baseline := by
  have hbaseline := entry.observe_baseline parseDate obs nowMs
  generalize entry.observe parseDate obs nowMs = observed at hbaseline
  split at hbaseline
  case isTrue hstable =>
    rw [hbaseline]
    exact .counted ⟨obs, _⟩ (Or.inl hstable)
  case isFalse hunstable =>
    rw [Bool.not_eq_true] at hunstable
    by_cases hempty : seen = []
    · subst hempty
      obtain rfl := hnew rfl
      rw [newEntry] at hbaseline
      dsimp only at hbaseline
      split at hbaseline
      case isTrue hrunning =>
        rcases hbaseline with ⟨hcount, -⟩ | hvalue
        · exact absurd hcount (Nat.lt_irrefl _)
        · rw [hvalue]
          exact .counted ⟨obs, _⟩ (Or.inr ⟨rfl, beq_iff_eq.mp hrunning⟩)
      case isFalse =>
        rw [(hbaseline.elim And.right id : observed.baseline = 0)]
        exact .first hunstable
    · rcases hbaseline with ⟨hcount, hvalue⟩ | hvalue
      · rw [hvalue]
        exact (hsince hempty).again_of_lt hunstable hcount
      · rw [hvalue]
        exact .cons hunstable (hsince hempty)

theorem Sound.look (h : guard.Sound limit) (obs : ServiceContainerObservation) (nowMs : ℚ)
    {known : ℕ}
    (hnew : guard.seen known = [] →
      guard.entries known = newEntry (dockerStatusOf obs) obs.restartCount) :
    (guard.look parseDate obs nowMs known).Sound limit := by
  have hentries (r : ℕ) : (guard.look parseDate obs nowMs known).entries r =
      if r = known then (guard.entries known).observe parseDate obs nowMs else guard.entries r := by
    rw [CrashLoopGuard.look]
    exact Function.update_apply ..
  have hstops : (guard.look parseDate obs nowMs known).stops = guard.stops := rfl
  have hseen (r : ℕ) : ∃ front, (guard.look parseDate obs nowMs known).seen r =
      front ++ guard.seen r ∧
      (r ≠ known → front = []) := by
    rw [CrashLoopGuard.look]
    dsimp only
    by_cases hr : r = known
    · subst hr
      rw [Function.update_self]
      exact ⟨[_], rfl, fun hne => absurd rfl hne⟩
    · rw [Function.update_of_ne hr]
      exact ⟨[], rfl, fun _ => rfl⟩
  refine ⟨h.entry, ?since, ?busy, ?waiting, ?suffix, ?done, h.apart, h.justified⟩
  case since =>
    intro r hr
    by_cases hknown : r = known
    · subst hknown
      rw [hentries, if_pos rfl, CrashLoopGuard.look]
      dsimp only
      rw [Function.update_self]
      exact since_look obs nowMs hnew (h.since r)
    · obtain ⟨front, hfront, hnil⟩ := hseen r
      rw [hfront, hnil hknown, List.nil_append] at hr ⊢
      rw [hentries, if_neg hknown]
      exact h.since r hr
  case busy =>
    intro i hi hphase
    rw [hentries]
    split
    case isTrue heq =>
      rw [Tracked.observe_stopping, ← heq]
      exact h.busy i hi hphase
    case isFalse => exact h.busy i hi hphase
  case waiting =>
    intro i hi hphase
    rw [hentries]
    split
    case isTrue heq =>
      apply Tracked.observe_of_not_stopped
      rw [← heq]
      exact h.waiting i hi hphase
    case isFalse => exact h.waiting i hi hphase
  case suffix =>
    intro i hi
    obtain ⟨front, hfront, -⟩ := hseen (guard.stops i).entry
    rw [hstops, hfront]
    exact (h.suffix i hi).trans (List.suffix_append front _)
  case done =>
    intro i hi hdone
    rw [hstops, hentries]
    by_cases heq : (guard.stops i).entry = known
    · rw [if_pos heq, CrashLoopGuard.look]
      dsimp only
      rw [heq, Function.update_self]
      rcases h.done i hi hdone with ⟨hstopped, hrun⟩ | hreleased
      · rw [heq] at hstopped hrun
        rcases (guard.entries known).observe_of_stopped parseDate obs nowMs hstopped with
          ⟨hstill, hsame⟩ | ⟨hfailing, hother⟩
        · exact Or.inl ⟨hstill, hsame.trans hrun⟩
        · right
          obtain ⟨fresh, hfresh⟩ := h.suffix i hi
          rw [heq] at hfresh
          exact ⟨_ :: fresh, congrArg (List.cons _) hfresh.symm, _, List.mem_cons_self, hfailing,
            hrun ▸ hother⟩
      · rw [heq] at hreleased
        exact Or.inr (hreleased.cons _)
    · rw [if_neg heq]
      obtain ⟨front, hfront, hnil⟩ := hseen (guard.stops i).entry
      rw [hfront, hnil heq]
      exact h.done i hi hdone

theorem Sound.stopInBackground (h : guard.Sound limit) {obs : ServiceContainerObservation}
    {known : ℕ}
    {stable : Bool} (hknown : known < guard.created)
    (hseen : (guard.seen known).head? = some ⟨obs, stable⟩)
    (hle : (guard.entries known).baseline ≤ obs.restartCount)
    (hmust : mustStop limit obs (guard.entries known) = true) :
    (guard.stopInBackground obs known).Sound limit := by
  simp only [mustStop, Bool.and_eq_true, decide_eq_true_eq, Bool.not_eq_true'] at hmust
  obtain ⟨⟨⟨hstreak, hfailing⟩, hstopped⟩, hstopping⟩ := hmust
  have hsome : guard.seen known ≠ [] := by
    intro hempty
    rw [hempty] at hseen
    cases hseen
  have hentries (r : ℕ) : (guard.stopInBackground obs known).entries r =
      if r = known then { guard.entries known with stopping := true } else guard.entries r :=
    Function.update_apply ..
  have hold {i : ℕ} (hi : i < guard.sent) :
      (guard.stopInBackground obs known).stops i = guard.stops i :=
    Function.update_of_ne (Nat.ne_of_lt hi) ..
  have hlast : (guard.stopInBackground obs known).stops guard.sent =
      ⟨known, obs.containerId, obs.startedAt, .sent, guard.seen known⟩ := Function.update_self ..
  have hflags (r : ℕ) : ((guard.stopInBackground obs known).entries r).stopped =
        (guard.entries r).stopped ∧
      ((guard.stopInBackground obs known).entries r).stoppedRun = (guard.entries r).stoppedRun ∧
      ((guard.stopInBackground obs known).entries r).baseline = (guard.entries r).baseline := by
    rw [hentries]
    split
    case isTrue heq =>
      rw [heq]
      exact ⟨rfl, rfl, rfl⟩
    case isFalse => exact ⟨rfl, rfl, rfl⟩
  refine ⟨?entry, ?since, ?busy, ?waiting, ?suffix, ?done, ?apart, ?justified⟩
  case entry =>
    intro i hi
    rcases Nat.lt_succ_iff_lt_or_eq.mp hi with hlt | rfl
    · rw [hold hlt]
      exact h.entry i hlt
    · rw [hlast]
      exact hknown
  case since =>
    intro r hr
    rw [(hflags r).2.2]
    exact h.since r hr
  case busy =>
    intro i hi hphase
    rcases Nat.lt_succ_iff_lt_or_eq.mp hi with hlt | rfl
    · rw [hold hlt] at hphase ⊢
      rw [hentries]
      split
      case isTrue => rfl
      case isFalse => exact h.busy i hlt hphase
    · rw [hlast, hentries, if_pos rfl]
  case waiting =>
    intro i hi hphase
    rw [(hflags _).1]
    rcases Nat.lt_succ_iff_lt_or_eq.mp hi with hlt | rfl
    · rw [hold hlt] at hphase ⊢
      exact h.waiting i hlt hphase
    · rw [hlast]
      exact hstopped
  case suffix =>
    intro i hi
    rcases Nat.lt_succ_iff_lt_or_eq.mp hi with hlt | rfl
    · rw [hold hlt]
      exact h.suffix i hlt
    · rw [hlast]
      exact List.suffix_refl _
  case done =>
    intro i hi hdone
    rw [(hflags _).1, (hflags _).2.1]
    rcases Nat.lt_succ_iff_lt_or_eq.mp hi with hlt | rfl
    · rw [hold hlt] at hdone ⊢
      exact h.done i hlt hdone
    · rw [hlast] at hdone
      cases hdone
  case apart =>
    intro i j hij hj hentry
    rcases Nat.lt_succ_iff_lt_or_eq.mp hj with hlt | rfl
    · rw [hold hlt, hold (hij.trans hlt)] at hentry ⊢
      exact h.apart i j hij hlt hentry
    · rw [hold hij, hlast] at hentry ⊢
      -- no stop of the entry is under way, and the entry is not marked as stopped
      have hfinished : ∃ ok, (guard.stops i).phase = .finished ok := by
        by_contra hunfinished
        have hbusy := h.busy i hij fun ok hphase => hunfinished ⟨ok, hphase⟩
        rw [hentry, hstopping] at hbusy
        cases hbusy
      obtain ⟨ok, hphase⟩ := hfinished
      refine ⟨ok, hphase, fun hok => ?_⟩
      have hdone : (guard.stops i).phase.isDone = true := by
        rw [hphase]
        exact hok
      rcases h.done i hij hdone with ⟨hmarked, -⟩ | hreleased
      · rw [hentry, hstopped] at hmarked
        cases hmarked
      · rwa [hentry] at hreleased
  case justified =>
    intro i hi
    rcases Nat.lt_succ_iff_lt_or_eq.mp hi with hlt | rfl
    · rw [hold hlt]
      exact h.justified i hlt
    · rw [hlast]
      refine ⟨(guard.entries known).baseline, h.since known hsome, ⟨obs, stable⟩, hseen, ?_,
        hfailing,
        rfl, rfl⟩
      have hdifference : limit ≤ obs.restartCount - (guard.entries known).baseline := hstreak
      change (guard.entries known).baseline + limit ≤ obs.restartCount
      omega

/-- What `#entryFor` hands out, and what it leaves as it was. -/
theorem entryFor_spec (h : guard.Sound limit) (hindexed : guard.Indexed)
    (obs : ServiceContainerObservation) :
    (guard.entryFor obs).1.Sound limit ∧
      (guard.entryFor obs).2 < (guard.entryFor obs).1.created ∧
      ((guard.entryFor obs).1.seen (guard.entryFor obs).2 = [] →
        (guard.entryFor obs).1.entries (guard.entryFor obs).2 =
          newEntry (dockerStatusOf obs) obs.restartCount) ∧
      ∀ id known, (guard.entryFor obs).1.tracked id = some known →
        known < (guard.entryFor obs).1.created ∧
          ((guard.entryFor obs).1.seen known ≠ [] ∨ known = (guard.entryFor obs).2) := by
  unfold entryFor
  cases hknown : guard.tracked obs.containerId with
  | some known =>
    obtain ⟨hlt, hsome⟩ := hindexed _ _ hknown
    refine ⟨h, hlt, fun hempty => absurd hempty hsome, fun id other hother => ?_⟩
    obtain ⟨hlt, hsome⟩ := hindexed id other hother
    exact ⟨hlt, Or.inl hsome⟩
  | none =>
    dsimp only
    have hother {r : ℕ} (hr : r < guard.created) (entry : Tracked) :
        Function.update guard.entries guard.created entry r = guard.entries r ∧
          Function.update guard.seen guard.created [] r = guard.seen r :=
      ⟨Function.update_of_ne (Nat.ne_of_lt hr) .., Function.update_of_ne (Nat.ne_of_lt hr) ..⟩
    refine ⟨⟨?entry, ?since, ?busy, ?waiting, ?suffix, ?done, h.apart, h.justified⟩,
      Nat.lt_succ_self _, ?new, ?tracked⟩
    case entry => exact fun i hi => (h.entry i hi).trans (Nat.lt_succ_self _)
    case since =>
      intro r hr
      dsimp only at hr ⊢
      by_cases heq : r = guard.created
      · rw [heq, Function.update_self] at hr
        exact absurd rfl hr
      · rw [Function.update_of_ne heq] at hr ⊢
        rw [Function.update_of_ne heq]
        exact h.since r hr
    case busy =>
      intro i hi hphase
      dsimp only
      rw [(hother (h.entry i hi) _).1]
      exact h.busy i hi hphase
    case waiting =>
      intro i hi hphase
      dsimp only
      rw [(hother (h.entry i hi) _).1]
      exact h.waiting i hi hphase
    case suffix =>
      intro i hi
      dsimp only
      rw [(hother (h.entry i hi) (newEntry "" 0)).2]
      exact h.suffix i hi
    case done =>
      intro i hi hdone
      dsimp only
      rw [(hother (h.entry i hi) _).1, (hother (h.entry i hi) (newEntry "" 0)).2]
      exact h.done i hi hdone
    case new => exact fun _ => Function.update_self ..
    case tracked =>
      intro id known htracked
      by_cases hid : id = obs.containerId
      · rw [hid, Function.update_self] at htracked
        obtain rfl := Option.some.inj htracked
        exact ⟨Nat.lt_succ_self _, Or.inr rfl⟩
      · rw [Function.update_of_ne hid] at htracked
        obtain ⟨hlt, hsome⟩ := hindexed id known htracked
        rw [(hother hlt (newEntry "" 0)).2]
        exact ⟨hlt.trans (Nat.lt_succ_self _), Or.inl hsome⟩

theorem Sound.reviewOne (h : guard.Sound limit) (hindexed : guard.Indexed) (nowMs : ℚ)
    (obs : ServiceContainerObservation) :
    (guard.reviewOne parseDate limit nowMs obs).1.Sound limit ∧
      (guard.reviewOne parseDate limit nowMs obs).1.Indexed := by
  obtain ⟨hmade, hlt, hnew, htracked⟩ := entryFor_spec h hindexed obs
  unfold CrashLoopGuard.reviewOne
  generalize guard.entryFor obs = made at hmade hlt hnew htracked
  obtain ⟨made, known⟩ := made
  dsimp only at hmade hlt hnew htracked ⊢
  have hlooked : (made.look parseDate obs nowMs known).Sound limit := hmade.look obs nowMs hnew
  have hentry : (made.look parseDate obs nowMs known).entries known =
      (made.entries known).observe parseDate obs nowMs := Function.update_self ..
  have hseen : (made.look parseDate obs nowMs known).seen known = _ :: made.seen known :=
    Function.update_self ..
  obtain ⟨stable, hhead⟩ : ∃ stable,
      ((made.look parseDate obs nowMs known).seen known).head? = some ⟨obs, stable⟩ := by
    rw [hseen]
    exact ⟨_, rfl⟩
  have hindex : (made.look parseDate obs nowMs known).Indexed := by
    intro id r hr
    obtain ⟨hr, hsome⟩ := htracked id r hr
    refine ⟨hr, ?_⟩
    by_cases heq : r = known
    · rw [heq, hseen]
      exact List.cons_ne_nil _ _
    · have hsame : (made.look parseDate obs nowMs known).seen r = made.seen r :=
        Function.update_of_ne heq ..
      rw [hsame]
      exact hsome.resolve_right heq
  split
  case isTrue hmust =>
    refine ⟨hlooked.stopInBackground hlt hhead ?_ hmust, hindex⟩
    rw [hentry]
    exact Tracked.observe_baseline_le ..
  case isFalse => exact ⟨hlooked, hindex⟩

theorem Sound.review (h : guard.Sound limit) (hindexed : guard.Indexed)
    (observations : List ServiceContainerObservation) (nowMs : ℚ) :
    (guard.review parseDate limit observations nowMs).1.Sound limit ∧
      (guard.review parseDate limit observations nowMs).1.Indexed := by
  unfold CrashLoopGuard.review
  have hstart : (guard.dropGone observations).Sound limit ∧
      (guard.dropGone observations).Indexed := by
    refine ⟨⟨h.entry, h.since, h.busy, h.waiting, h.suffix, h.done, h.apart, h.justified⟩, ?_⟩
    intro id known hknown
    change (if _ then guard.tracked id else none) = some known at hknown
    split at hknown
    case isTrue => exact hindexed id known hknown
    case isFalse => cases hknown
  generalize guard.dropGone observations = start at hstart
  exact List.foldlRecOn (motive := fun done : CrashLoopGuard × List (ℕ × Bool) =>
      done.1.Sound limit ∧ done.1.Indexed) observations _ hstart
    fun _ hdone obs _ => hdone.1.reviewOne hdone.2 nowMs obs

/-- What `answer` and `finish` leave of a stop. -/
theorem Sound.setPhase (h : guard.Sound limit) {i : ℕ} (hi : i < guard.sent)
    (hunfinished : ∀ ok, (guard.stops i).phase ≠ .finished ok) {phase : Phase}
    {entries : ℕ → Tracked}
    (hother : ∀ r ≠ (guard.stops i).entry, entries r = guard.entries r)
    (hbaseline : (entries (guard.stops i).entry).baseline =
      (guard.entries (guard.stops i).entry).baseline)
    (hbusy : (∀ ok, phase ≠ .finished ok) → (entries (guard.stops i).entry).stopping = true)
    (hwaiting : phase ≠ .sent)
    (hdone : phase.isDone = true → (entries (guard.stops i).entry).stopped = true ∧
      (entries (guard.stops i).entry).stoppedRun = (guard.stops i).run ∨
        Released (guard.stops i) (guard.seen (guard.stops i).entry)) :
    Sound limit { guard with
      entries := entries
      stops := Function.update guard.stops i { guard.stops i with phase := phase } } := by
  have hstop (j : ℕ) : ∃ phase', Function.update guard.stops i { guard.stops i with phase :=
      phase } j =
      { guard.stops j with phase := phase' } ∧ (j = i → phase' = phase) ∧
        (j ≠ i → phase' = (guard.stops j).phase) := by
    by_cases hj : j = i
    · subst hj
      rw [Function.update_self]
      exact ⟨phase, rfl, fun _ => rfl, fun hne => absurd rfl hne⟩
    · rw [Function.update_of_ne hj]
      exact ⟨(guard.stops j).phase, rfl, fun heq => absurd heq hj, fun _ => rfl⟩
  -- another stop of the same entry is finished
  have hapart {j : ℕ} (hj : j < guard.sent) (hne : j ≠ i)
      (hentry : (guard.stops j).entry = (guard.stops i).entry) :
      j < i ∧ ∃ ok, (guard.stops j).phase = .finished ok ∧
        (ok = true → Released (guard.stops j) (guard.stops i).seen) := by
    rcases Nat.lt_or_gt_of_ne hne with hlt | hlt
    · exact ⟨hlt, h.apart j i hlt hi hentry⟩
    · obtain ⟨ok, hphase, -⟩ := h.apart i j hlt hj hentry.symm
      exact absurd hphase (hunfinished ok)
  refine ⟨?entry, ?since, ?busy, ?waiting, ?suffix, ?done, ?apart, ?justified⟩ <;> dsimp only
  case entry =>
    intro j hj
    obtain ⟨phase', hj', -⟩ := hstop j
    rw [hj']
    exact h.entry j hj
  case since =>
    intro r hr
    by_cases heq : r = (guard.stops i).entry
    · rw [heq, hbaseline, ← heq]
      exact h.since r hr
    · rw [hother r heq]
      exact h.since r hr
  case busy =>
    intro j hj hphase
    obtain ⟨phase', hj', hself, hsame⟩ := hstop j
    rw [hj'] at hphase ⊢
    dsimp only at hphase ⊢
    by_cases hji : j = i
    · rw [hself hji] at hphase
      rw [hji]
      exact hbusy hphase
    · rw [hsame hji] at hphase
      by_cases hentry : (guard.stops j).entry = (guard.stops i).entry
      · obtain ⟨-, ok, hfinished, -⟩ := hapart hj hji hentry
        exact absurd hfinished (hphase ok)
      · rw [hother _ hentry]
        exact h.busy j hj hphase
  case waiting =>
    intro j hj hphase
    obtain ⟨phase', hj', hself, hsame⟩ := hstop j
    rw [hj'] at hphase ⊢
    dsimp only at hphase ⊢
    by_cases hji : j = i
    · rw [hself hji] at hphase
      exact absurd hphase hwaiting
    · rw [hsame hji] at hphase
      by_cases hentry : (guard.stops j).entry = (guard.stops i).entry
      · obtain ⟨-, ok, hfinished, -⟩ := hapart hj hji hentry
        rw [hphase] at hfinished
        cases hfinished
      · rw [hother _ hentry]
        exact h.waiting j hj hphase
  case suffix =>
    intro j hj
    obtain ⟨phase', hj', -⟩ := hstop j
    rw [hj']
    exact h.suffix j hj
  case done =>
    intro j hj hjdone
    obtain ⟨phase', hj', hself, hsame⟩ := hstop j
    rw [hj'] at hjdone ⊢
    dsimp only at hjdone ⊢
    by_cases hji : j = i
    · rw [hself hji] at hjdone
      subst hji
      exact hdone hjdone
    · rw [hsame hji] at hjdone
      by_cases hentry : (guard.stops j).entry = (guard.stops i).entry
      · obtain ⟨-, ok, hfinished, hreleased⟩ := hapart hj hji hentry
        rw [hfinished] at hjdone
        obtain ⟨fresh, hseen, hup⟩ := hreleased hjdone
        obtain ⟨front, hfront⟩ := h.suffix i hi
        right
        refine ⟨front ++ fresh, ?_, ?_⟩
        · rw [hentry, ← hfront, hseen, List.append_assoc]
        · obtain ⟨look, hlook, hother⟩ := hup
          exact ⟨look, List.mem_append_right front hlook, hother⟩
      · rw [hother _ hentry]
        exact h.done j hj hjdone
  case apart =>
    intro j k hjk hk hentry
    obtain ⟨phase', hj', hself, hsame⟩ := hstop j
    obtain ⟨phase'', hk', -⟩ := hstop k
    rw [hj', hk'] at hentry ⊢
    obtain ⟨ok, hfinished, hreleased⟩ := h.apart j k hjk hk hentry
    have hji : j ≠ i := fun heq => hunfinished ok (heq ▸ hfinished)
    exact ⟨ok, (hsame hji).trans hfinished, hreleased⟩
  case justified =>
    intro j hj
    obtain ⟨phase', hj', -⟩ := hstop j
    rw [hj']
    exact h.justified j hj

theorem Sound.step (h : guard.Sound limit) (hindexed : guard.Indexed) {action : Action}
    {next : CrashLoopGuard} (hstep : guard.step parseDate limit action = some next) :
    next.Sound limit ∧ next.Indexed := by
  cases action with
  | review observations nowMs =>
    obtain rfl := Option.some.inj hstep
    exact h.review hindexed observations nowMs
  | answer i ok =>
    dsimp only [CrashLoopGuard.step] at hstep
    split at hstep
    case isFalse => cases hstep
    case isTrue hwaits =>
      obtain rfl := Option.some.inj hstep
      obtain ⟨hi, hphase⟩ := hwaits
      have hunfinished (done : Bool) : (guard.stops i).phase ≠ .finished done := by
        rw [hphase]
        exact Phase.noConfusion
      refine ⟨?_, hindexed⟩
      apply h.setPhase hi hunfinished
      · exact fun r hr => Function.update_of_ne hr ..
      · rw [Function.update_self]
        split <;> rfl
      · intro _
        rw [Function.update_self]
        split <;> exact h.busy i hi hunfinished
      · exact Phase.noConfusion
      · intro hok
        have hok : ok = true := hok
        rw [Function.update_self, if_pos hok]
        exact Or.inl ⟨rfl, rfl⟩
  | finish i =>
    dsimp only [CrashLoopGuard.step] at hstep
    split at hstep
    case h_2 => cases hstep
    case h_1 ok hphase =>
      split at hstep
      case isFalse => cases hstep
      case isTrue hi =>
        obtain rfl := Option.some.inj hstep
        have hunfinished (done : Bool) : (guard.stops i).phase ≠ .finished done := by
          rw [hphase]
          exact Phase.noConfusion
        refine ⟨?_, hindexed⟩
        apply h.setPhase hi hunfinished
        · exact fun r hr => Function.update_of_ne hr ..
        · rw [Function.update_self]
        · exact fun hopen => absurd rfl (hopen ok)
        · exact Phase.noConfusion
        · intro hok
          rw [Function.update_self]
          apply h.done i hi
          rw [hphase]
          exact hok

theorem sound_new (limit : ℕ) : new.Sound limit ∧ new.Indexed := by
  refine ⟨⟨?entry, ?since, ?busy, ?waiting, ?suffix, ?done, ?apart, ?justified⟩, ?indexed⟩
  case since => exact fun _ hsome => absurd rfl hsome
  case apart => exact fun _ _ _ hj => absurd hj (Nat.not_lt_zero _)
  case indexed =>
    intro _ _ hknown
    cases hknown
  all_goals exact fun _ hi => absurd hi (Nat.not_lt_zero _)

/-- In every run of the guard, a stop is sent only for restarts in a row, and the next stop of the
same entry only after the one before it, if Docker carried that out, was undone by a new start. -/
theorem guardSound_of_reaches
    (h : Reaches (CrashLoopGuard.step parseDate limit) (fun _ _ => True) new guard) :
    guard.Sound limit := by
  have hboth := @Reaches.invariant _ _ (CrashLoopGuard.step parseDate limit) (fun _ _ => True) new
    (fun guard => guard.Sound limit ∧ guard.Indexed) (sound_new limit)
    (fun _ _ _ hbefore _ hstep => hbefore.1.step hbefore.2 hstep) guard h
  exact hboth.1

/-- A container that restarts for the `count`-th time. -/
def restartingWith (count : ℕ) : ServiceContainerObservation where
  containerId := "c1"
  summaryState := none
  inspect := some ⟨some count, some ⟨some "restarting", some "run", none⟩⟩

/-- Two restarts, the stop that is sent for them, and the answer to it. -/
def stopRun : List Action :=
  [.review [restartingWith 0] 0, .review [restartingWith 2] 0, .answer 0 true, .finish 0]

theorem guardSound_of_reaches_stopped : ∃ guard : CrashLoopGuard,
    runFrom (CrashLoopGuard.step (fun _ => none) 2) new stopRun = some guard ∧ guard.sent = 1 ∧
      (guard.stops 0).phase = .finished true ∧ guard.Sound 2 := by
  have hrun : ((runFrom (CrashLoopGuard.step (fun _ => none) 2) new stopRun).map
      fun guard => (guard.sent, (guard.stops 0).phase)) = some (1, .finished true) := by
    decide
  obtain ⟨guard, hguard, hvalue⟩ := Option.map_eq_some_iff.mp hrun
  obtain ⟨hsent, hphase⟩ := Prod.mk.inj hvalue
  exact ⟨guard, hguard, hsent, hphase, guardSound_of_reaches (Reaches.refl.of_runFrom hguard)⟩

end CrashLoopGuard

end Turbopaneld.Monitor
