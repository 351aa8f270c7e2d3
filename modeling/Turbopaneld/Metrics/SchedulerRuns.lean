/-
# Collects never overlap on a collector

Whatever the timers, the collects and the sends do, a sample is given to a sink only while it is
attached, and the samples of one attach are given in the order of their numbers.  A collector is
never called while a collect runs on it, as long as the factory returns when an abandoned
collect's collector is to be replaced.
-/

import Turbopaneld.Metrics.Scheduler

namespace Turbopaneld.Metrics

open Machines (Reaches runFrom)

theorem update_some_eq_some {α : Type} {f : ℕ → Option α} {i j : ℕ} {a b : α} :
    Function.update f i (some a) j = some b ↔ j = i ∧ a = b ∨ j ≠ i ∧ f j = some b := by
  by_cases hj : j = i
  · subst hj
    simp
  · simp [hj]

theorem update_none_eq_some {α : Type} {f : ℕ → Option α} {i j : ℕ} {b : α} :
    Function.update f i none j = some b ↔ j ≠ i ∧ f j = some b := by
  by_cases hj : j = i
  · subst hj
    simp
  · simp [hj]

/-! ## What is kept -/

/-- The collect of an emit may still be running. -/
def Phase.mayRun : Phase → Bool
  | .collecting => true
  | .collected .deadline => true
  | _ => false

/-- Two samples of one attach, in the order of their numbers. -/
def Given.Before (a b : Given) : Prop :=
  a.generation = b.generation → a.durable = b.durable → a.sequence < b.sequence

namespace MetricsScheduler

/-- A collect that runs on the collector is that of an emit of the current attach. -/
structure Owned (s : MetricsScheduler) (durable : Bool) (collector : Collector) : Prop where
  lt : collector < s.nextCollector
  running : ∀ i, s.unsettled i = some collector → ∃ e, s.emits i = some e ∧
    e.durable = durable ∧ e.generation = s.attachGeneration ∧ e.phase.mayRun = true

structure Sound (s : MetricsScheduler) : Prop where
  emits : ∀ i e, s.emits i = some e →
    i ≤ s.sequence ∧ e.collector < s.nextCollector ∧ e.generation ≤ s.attachGeneration
  unsettled : ∀ i collector, s.unsettled i = some collector →
    i ≤ s.sequence ∧ collector < s.nextCollector
  calls : ∀ i e collector, s.emits i = some e → s.unsettled i = some collector →
    e.collector = collector
  collector : ∀ collector, s.collector = some collector → s.Owned true collector
  streamCollector : ∀ collector, s.streamCollector = some collector → s.Owned false collector
  distinct : ∀ collector, s.collector = some collector → s.streamCollector ≠ some collector
  active : ∀ i e, s.emits i = some e → e.durable = true → e.generation = s.attachGeneration →
    s.activeEmitGeneration = some s.attachGeneration
  emitting : ∀ i e, s.emits i = some e → e.durable = false → s.streamEmitting = true
  unique : ∀ i j e e', s.emits i = some e → s.emits j = some e' → e.durable = e'.durable →
    (e.durable = true → e.generation = e'.generation) → i = j
  apart : ∀ i j collector, s.unsettled i = some collector → s.unsettled j = some collector → i = j
  attached : ∀ g ∈ s.given, g.generation = g.attachedGeneration ∧ g.attachedSend = some g.send
  ordered : s.given.Pairwise Given.Before
  early : ∀ g ∈ s.given, g.sequence ≤ s.sequence
  later : ∀ i e, s.emits i = some e → e.phase ≠ .sending → ∀ g ∈ s.given,
    g.generation = e.generation → g.durable = e.durable → g.sequence < i

variable {s : MetricsScheduler}

/-- The collectors in use are not running the collect of an emit. -/
def Released (s : MetricsScheduler) (i : ℕ) : Prop :=
  ∀ collector, s.collector = some collector ∨ s.streamCollector = some collector →
    s.unsettled i ≠ some collector

theorem Sound.released {i : ℕ} {e : Emit} (h : s.Sound) (he : s.emits i = some e)
    (hrun : e.phase.mayRun = false) : s.Released i := by
  rintro collector hcollector hunsettled
  have howned : ∃ durable, s.Owned durable collector :=
    hcollector.elim (fun hin => ⟨true, h.collector collector hin⟩)
      fun hin => ⟨false, h.streamCollector collector hin⟩
  obtain ⟨durable, howned⟩ := howned
  obtain ⟨e', he', -, -, hrun'⟩ := howned.running i hunsettled
  obtain rfl := Option.some.inj (he.symm.trans he')
  exact Bool.false_ne_true (hrun.symm.trans hrun')

theorem Sound.released_of_settled {i : ℕ} (h : s.Sound)
    (hsettled : (s.unsettled i).isSome → false = true) : s.Released i := by
  intro collector _ hunsettled
  refine Bool.false_ne_true (hsettled ?_)
  rw [hunsettled]
  rfl

/-! ## Emits -/

/-- A new emit that is the only one of its kind. -/
theorem Sound.callCollect (durable : Bool) {send : Sink} {collector : Collector} (h : s.Sound)
    (hcollector : (if durable then s.collector else s.streamCollector) = some collector)
    (hfree : ∀ i e, s.emits i = some e → e.durable = durable →
      durable = true ∧ e.generation ≠ s.attachGeneration)
    (hflag : if durable then s.activeEmitGeneration = some s.attachGeneration
      else s.streamEmitting = true) :
    (s.callCollect durable s.attachGeneration send collector).Sound := by
  have hnew : ∀ i, i ≤ s.sequence → i ≠ s.sequence + 1 := fun i hi => by omega
  have howned : s.Owned durable collector := by
    cases durable with
    | true => exact h.collector collector hcollector
    | false => exact h.streamCollector collector hcollector
  have hidle : ∀ i, s.unsettled i ≠ some collector := by
    intro i hi
    obtain ⟨e, he, hdurable, hgeneration, -⟩ := howned.running i hi
    exact (hfree i e he hdurable).2 hgeneration
  -- the other collector's collects are as they were
  have hother : ∀ other durable', s.Owned durable' other →
      (other = collector → durable' = durable) →
      (s.callCollect durable s.attachGeneration send collector).Owned durable' other := by
    intro other durable' howned' hsame
    refine ⟨howned'.lt, fun i hi => ?_⟩
    obtain ⟨rfl, hcollector⟩ | ⟨hne, hold⟩ := update_some_eq_some.mp hi
    · exact ⟨_, Function.update_self .., (hsame hcollector.symm).symm, rfl, rfl⟩
    · obtain ⟨e, he, hrest⟩ := howned'.running i hold
      exact ⟨e, update_some_eq_some.mpr (Or.inr ⟨hne, he⟩), hrest⟩
  constructor
  case emits =>
    intro i e he
    obtain ⟨rfl, rfl⟩ | ⟨-, hold⟩ := update_some_eq_some.mp he
    · exact ⟨Nat.le_refl _, howned.lt, Nat.le_refl _⟩
    · obtain ⟨hi, hrest⟩ := h.emits i e hold
      exact ⟨Nat.le_succ_of_le hi, hrest⟩
  case unsettled =>
    intro i other hi
    obtain ⟨rfl, rfl⟩ | ⟨-, hold⟩ := update_some_eq_some.mp hi
    · exact ⟨Nat.le_refl _, howned.lt⟩
    · obtain ⟨hi, hlt⟩ := h.unsettled i other hold
      exact ⟨Nat.le_succ_of_le hi, hlt⟩
  case calls =>
    intro i e other he hi
    obtain ⟨rfl, rfl⟩ | ⟨hne, hold⟩ := update_some_eq_some.mp he
    · obtain ⟨-, hsame⟩ | ⟨hne, -⟩ := update_some_eq_some.mp hi
      · exact hsame
      · exact absurd rfl hne
    · obtain ⟨hsame, -⟩ | ⟨-, hi⟩ := update_some_eq_some.mp hi
      · exact absurd hsame hne
      · exact h.calls i e other hold hi
  case collector =>
    intro other hin
    refine hother other true (h.collector other hin) ?_
    rintro rfl
    cases durable with
    | true => rfl
    | false => exact absurd hcollector (h.distinct other hin)
  case streamCollector =>
    intro other hin
    refine hother other false (h.streamCollector other hin) ?_
    rintro rfl
    cases durable with
    | true => exact absurd hin (h.distinct other hcollector)
    | false => rfl
  case distinct => exact h.distinct
  case active =>
    intro i e he hdurable hgeneration
    obtain ⟨rfl, rfl⟩ | ⟨-, hold⟩ := update_some_eq_some.mp he
    · obtain rfl : durable = true := hdurable
      exact hflag
    · exact h.active i e hold hdurable hgeneration
  case emitting =>
    intro i e he hdurable
    obtain ⟨rfl, rfl⟩ | ⟨-, hold⟩ := update_some_eq_some.mp he
    · obtain rfl : durable = false := hdurable
      exact hflag
    · exact h.emitting i e hold hdurable
  case unique =>
    intro i j e e' he he' hdurable hgeneration
    obtain ⟨rfl, rfl⟩ | ⟨-, hold⟩ := update_some_eq_some.mp he <;>
      obtain ⟨rfl, rfl⟩ | ⟨-, hold'⟩ := update_some_eq_some.mp he'
    · rfl
    · obtain ⟨htrue, hne⟩ := hfree j e' hold' hdurable.symm
      exact absurd (hgeneration htrue).symm hne
    · obtain ⟨htrue, hne⟩ := hfree i e hold hdurable
      exact absurd (hgeneration (hdurable.trans htrue)) hne
    · exact h.unique i j e e' hold hold' hdurable hgeneration
  case apart =>
    intro i j other hi hj
    obtain ⟨rfl, rfl⟩ | ⟨-, hold⟩ := update_some_eq_some.mp hi <;>
      obtain ⟨rfl, hsame⟩ | ⟨-, hold'⟩ := update_some_eq_some.mp hj
    · rfl
    · exact absurd hold' (hidle j)
    · exact absurd (hsame ▸ hold) (hidle i)
    · exact h.apart i j other hold hold'
  case attached => exact h.attached
  case ordered => exact h.ordered
  case early => exact fun g hg => Nat.le_succ_of_le (h.early g hg)
  case later =>
    intro i e he hphase g hg hgeneration hdurable
    obtain ⟨rfl, rfl⟩ | ⟨-, hold⟩ := update_some_eq_some.mp he
    · exact Nat.lt_succ_of_le (h.early g hg)
    · exact h.later i e hold hphase g hg hgeneration hdurable

theorem Sound.emit (h : s.Sound) (tick : Tick) : (s.emit tick).Sound := by
  rw [MetricsScheduler.emit]
  split
  · exact h
  · rename_i hgeneration
    have hgeneration : tick.generation = s.attachGeneration := not_not.mp hgeneration
    split
    · exact h
    · split
      · exact h
      · rename_i hactive
        split
        · exact h
        · rename_i collector hcollector
          rw [hgeneration] at hactive ⊢
          have hflagged : Sound { s with activeEmitGeneration := some s.attachGeneration } :=
            { h with
              collector := fun other hin => ⟨(h.collector other hin).lt,
                (h.collector other hin).running⟩
              streamCollector := fun other hin => ⟨(h.streamCollector other hin).lt,
                (h.streamCollector other hin).running⟩
              active := fun _ _ _ _ _ => rfl }
          refine hflagged.callCollect true hcollector (fun i e he hdurable => ?_) rfl
          exact ⟨rfl, fun hsame => hactive (h.active i e he hdurable hsame)⟩

theorem Sound.emitStream (h : s.Sound) (tick : Tick) : (s.emitStream tick).Sound := by
  rw [MetricsScheduler.emitStream]
  split
  · exact h
  · rename_i collector hcollector
    split
    · exact h
    · rename_i hidle
      obtain ⟨hgeneration, hemitting⟩ := not_or.mp hidle
      rw [not_not.mp hgeneration]
      have hflagged : Sound { s with streamEmitting := true } :=
        { h with
          collector := fun other hin => ⟨(h.collector other hin).lt,
            (h.collector other hin).running⟩
          streamCollector := fun other hin => ⟨(h.streamCollector other hin).lt,
            (h.streamCollector other hin).running⟩
          emitting := fun _ _ _ _ => rfl }
      refine hflagged.callCollect false hcollector (fun i e he hdurable => ?_) rfl
      exact absurd (h.emitting i e he hdurable) hemitting

/-- The end of an emit whose collect does not run on a collector in use. -/
theorem Sound.finish {i : ℕ} {e : Emit} (h : s.Sound) (he : s.emits i = some e)
    (hreleased : s.Released i) : (s.finish i e).Sound := by
  have howned : ∀ durable collector, s.Owned durable collector → s.unsettled i ≠ some collector →
      Owned { s with emits := Function.update s.emits i none } durable collector := by
    intro durable collector howned hne
    refine ⟨howned.lt, fun j hj => ?_⟩
    obtain ⟨e', he', hrest⟩ := howned.running j hj
    exact ⟨e', update_none_eq_some.mpr ⟨fun hsame => hne (hsame ▸ hj), he'⟩, hrest⟩
  have hsound : Sound { s with emits := Function.update s.emits i none } :=
    { h with
      emits := fun j e' he' => h.emits j e' (update_none_eq_some.mp he').2
      calls := fun j e' collector he' => h.calls j e' collector (update_none_eq_some.mp he').2
      collector := fun collector hin => howned true collector (h.collector collector hin)
        (hreleased collector (Or.inl hin))
      streamCollector := fun collector hin => howned false collector
        (h.streamCollector collector hin) (hreleased collector (Or.inr hin))
      active := fun j e' he' => h.active j e' (update_none_eq_some.mp he').2
      emitting := fun j e' he' => h.emitting j e' (update_none_eq_some.mp he').2
      unique := fun j k e₁ e₂ hj hk => h.unique j k e₁ e₂ (update_none_eq_some.mp hj).2
        (update_none_eq_some.mp hk).2
      later := fun j e' he' => h.later j e' (update_none_eq_some.mp he').2 }
  rw [MetricsScheduler.finish]
  dsimp only
  split
  · rename_i hdurable
    split
    · rename_i hactive
      refine { hsound with
        collector := fun collector hin => ⟨(hsound.collector collector hin).lt,
          (hsound.collector collector hin).running⟩
        streamCollector := fun collector hin => ⟨(hsound.streamCollector collector hin).lt,
          (hsound.streamCollector collector hin).running⟩
        active := fun j e' he' hdurable' hgeneration => ?_ }
      obtain ⟨hne, hold⟩ := update_none_eq_some.mp he'
      have hcurrent := h.active j e' hold hdurable' hgeneration
      have hsame : e.generation = e'.generation :=
        (Option.some.inj (hactive.symm.trans hcurrent)).trans hgeneration.symm
      exact absurd (h.unique i j e e' he hold (hdurable.trans hdurable'.symm) fun _ => hsame).symm
        hne
    · exact hsound
  · rename_i hstream
    refine { hsound with
      collector := fun collector hin => ⟨(hsound.collector collector hin).lt,
        (hsound.collector collector hin).running⟩
      streamCollector := fun collector hin => ⟨(hsound.streamCollector collector hin).lt,
        (hsound.streamCollector collector hin).running⟩
      emitting := fun j e' he' hdurable' => ?_ }
    obtain ⟨hne, hold⟩ := update_none_eq_some.mp he'
    have hfalse : e.durable = false := Bool.eq_false_iff.mpr hstream
    exact absurd (h.unique i j e e' he hold (hfalse.trans hdurable'.symm)
      fun htrue => absurd htrue hstream).symm hne

/-! ## Collectors -/

/-- A collector of the factory's that has not been called. -/
theorem Sound.owned_makeCollector (h : s.Sound) (durable : Bool) :
    s.makeCollector.2.Owned durable s.makeCollector.1 := by
  refine ⟨Nat.lt_succ_self s.nextCollector, fun i hi => ?_⟩
  exact absurd (h.unsettled i s.nextCollector hi).2 (Nat.lt_irrefl _)

theorem Owned.makeCollector {durable : Bool} {collector : Collector}
    (h : s.Owned durable collector) : s.makeCollector.2.Owned durable collector :=
  ⟨Nat.lt_succ_of_lt h.lt, h.running⟩

theorem Sound.makeCollector (h : s.Sound) : s.makeCollector.2.Sound :=
  { h with
    emits := fun i e he => ⟨(Sound.emits h i e he).1,
      Nat.lt_succ_of_lt (Sound.emits h i e he).2.1, (Sound.emits h i e he).2.2⟩
    unsettled := fun i collector hi =>
      ⟨(h.unsettled i collector hi).1, Nat.lt_succ_of_lt (h.unsettled i collector hi).2⟩
    collector := fun collector hin => (h.collector collector hin).makeCollector
    streamCollector := fun collector hin => (h.streamCollector collector hin).makeCollector }

/-- Only some fields matter. -/
theorem Sound.congr {s' : MetricsScheduler} (h : s.Sound)
    (hsame : s' = { s' with
      emits := s.emits, unsettled := s.unsettled, collector := s.collector
      streamCollector := s.streamCollector, nextCollector := s.nextCollector
      sequence := s.sequence, attachGeneration := s.attachGeneration
      activeEmitGeneration := s.activeEmitGeneration, streamEmitting := s.streamEmitting
      given := s.given }) : s'.Sound := by
  rw [hsame]
  exact { h with
    collector := fun collector hin => ⟨(h.collector collector hin).lt,
      (h.collector collector hin).running⟩
    streamCollector := fun collector hin => ⟨(h.streamCollector collector hin).lt,
      (h.streamCollector collector hin).running⟩ }

/-- Another collector for the baseline. -/
theorem Sound.setCollector {collector : Collector} (h : s.Sound) (howned : s.Owned true collector)
    (hdistinct : s.streamCollector ≠ some collector) :
    Sound { s with collector := some collector } :=
  { h with
    collector := by
      rintro _ ⟨⟩
      exact ⟨howned.lt, howned.running⟩
    streamCollector := fun other hin => ⟨(h.streamCollector other hin).lt,
      (h.streamCollector other hin).running⟩
    distinct := by
      rintro _ ⟨⟩
      exact hdistinct }

/-- Another collector for the stream. -/
theorem Sound.setStreamCollector {collector : Collector} (h : s.Sound)
    (howned : s.Owned false collector) (hdistinct : s.collector ≠ some collector) :
    Sound { s with streamCollector := some collector } :=
  { h with
    collector := fun other hin => ⟨(h.collector other hin).lt, (h.collector other hin).running⟩
    streamCollector := by
      rintro _ ⟨⟩
      exact ⟨howned.lt, howned.running⟩
    distinct := by
      rintro other hother ⟨⟩
      exact hdistinct hother }

theorem Sound.collector_ne_next (h : s.Sound) : s.collector ≠ some s.nextCollector :=
  fun hin => absurd (h.collector _ hin).lt (Nat.lt_irrefl _)

theorem Sound.streamCollector_ne_next (h : s.Sound) : s.streamCollector ≠ some s.nextCollector :=
  fun hin => absurd (h.streamCollector _ hin).lt (Nat.lt_irrefl _)

/-! ## The end of a collect -/

/-- An emit goes on to its next phase. -/
theorem Sound.setPhase {i : ℕ} {e : Emit} {phase : Phase} (h : s.Sound) (he : s.emits i = some e)
    (hrun : phase.mayRun = true ∨ s.Released i) (hphase : phase ≠ .sending → e.phase ≠ .sending) :
    (s.setPhase i e phase).Sound := by
  have howned : ∀ durable collector, s.Owned durable collector →
      s.collector = some collector ∨ s.streamCollector = some collector →
      (s.setPhase i e phase).Owned durable collector := by
    intro durable collector howned hin
    refine ⟨howned.lt, fun j hj => ?_⟩
    obtain ⟨e', he', hdurable, hgeneration, hrun'⟩ := howned.running j hj
    by_cases hji : j = i
    · subst hji
      obtain rfl := Option.some.inj (he.symm.trans he')
      have hmay := hrun.resolve_right fun hreleased => hreleased collector hin hj
      exact ⟨_, Function.update_self .., hdurable, hgeneration, hmay⟩
    · exact ⟨e', update_some_eq_some.mpr (Or.inr ⟨hji, he'⟩), hdurable, hgeneration, hrun'⟩
  -- an emit is the same but for its phase
  have hold : ∀ j e', (s.setPhase i e phase).emits j = some e' → ∃ e'', s.emits j = some e'' ∧
      e''.durable = e'.durable ∧ e''.generation = e'.generation ∧ e''.collector = e'.collector ∧
        (e'.phase ≠ .sending → e''.phase ≠ .sending) := by
    intro j e' he'
    obtain ⟨rfl, rfl⟩ | ⟨-, hold⟩ := update_some_eq_some.mp he'
    · exact ⟨e, he, rfl, rfl, rfl, hphase⟩
    · exact ⟨e', hold, rfl, rfl, rfl, id⟩
  constructor
  case emits =>
    intro j e' he'
    obtain ⟨e'', he'', -, hsame, hcollector, -⟩ := hold j e' he'
    rw [← hsame, ← hcollector]
    exact h.emits j e'' he''
  case unsettled => exact h.unsettled
  case calls =>
    intro j e' collector he' hj
    obtain ⟨e'', he'', -, -, hcollector, -⟩ := hold j e' he'
    exact hcollector.symm.trans (h.calls j e'' collector he'' hj)
  case collector =>
    exact fun collector hin => howned true collector (h.collector collector hin) (Or.inl hin)
  case streamCollector =>
    exact fun collector hin =>
      howned false collector (h.streamCollector collector hin) (Or.inr hin)
  case distinct => exact h.distinct
  case active =>
    intro j e' he' hdurable hcurrent
    obtain ⟨e'', he'', hsame, hsame', -⟩ := hold j e' he'
    exact h.active j e'' he'' (hsame.trans hdurable) (hsame'.trans hcurrent)
  case emitting =>
    intro j e' he' hdurable
    obtain ⟨e'', he'', hsame, -⟩ := hold j e' he'
    exact h.emitting j e'' he'' (hsame.trans hdurable)
  case unique =>
    intro j k e₁ e₂ hj hk hdurable hgen
    obtain ⟨e₁', hj', hd₁, hg₁, -⟩ := hold j e₁ hj
    obtain ⟨e₂', hk', hd₂, hg₂, -⟩ := hold k e₂ hk
    refine h.unique j k e₁' e₂' hj' hk' ((hd₁.trans hdurable).trans hd₂.symm) fun htrue => ?_
    exact (hg₁.trans (hgen (hd₁.symm.trans htrue))).trans hg₂.symm
  case apart => exact h.apart
  case attached => exact h.attached
  case ordered => exact h.ordered
  case early => exact h.early
  case later =>
    intro j e' he' hphase' g hg hsame hdurable
    obtain ⟨e'', he'', hd, hgen, -, hkeep⟩ := hold j e' he'
    exact h.later j e'' he'' (hkeep hphase') g hg (hsame.trans hgen.symm) (hdurable.trans hd.symm)

/-- The sink gets a sample of the emit while it is attached. -/
theorem Sound.give {i : ℕ} {e : Emit} (h : s.Sound) (he : s.emits i = some e)
    (hphase : e.phase = .collected .supported) (hgeneration : e.generation = s.attachGeneration)
    (hsend : s.send = some e.send) : (s.give i e).Sound := by
  have hnot : e.phase ≠ .sending := by
    rw [hphase]
    exact nofun
  have hset : (s.setPhase i e .sending).Sound :=
    h.setPhase he (Or.inr (h.released he (by rw [hphase]; rfl))) fun hsending => absurd rfl hsending
  refine { hset with
    collector := fun other hin => ⟨(hset.collector other hin).lt,
      (hset.collector other hin).running⟩
    streamCollector := fun other hin => ⟨(hset.streamCollector other hin).lt,
      (hset.streamCollector other hin).running⟩
    attached := fun g hg => ?_
    ordered := List.pairwise_append.mpr ⟨h.ordered, List.pairwise_singleton _ _, ?_⟩
    early := fun g hg => ?_
    later := fun j e' he' hphase' g hg hsame hdurable => ?_ }
  · obtain hold | hnew := List.mem_append.mp hg
    · exact h.attached g hold
    · rw [List.mem_singleton.mp hnew]
      exact ⟨hgeneration, hsend⟩
  · rintro g hg other hother hsame hdurable
    rw [List.mem_singleton.mp hother] at hsame hdurable ⊢
    exact h.later i e he hnot g hg hsame hdurable
  · obtain hold | hnew := List.mem_append.mp hg
    · exact h.early g hold
    · rw [List.mem_singleton.mp hnew]
      exact (h.emits i e he).1
  · obtain ⟨rfl, rfl⟩ | ⟨hne, hj⟩ := update_some_eq_some.mp he'
    · exact absurd rfl hphase'
    · obtain hin | hnew := List.mem_append.mp hg
      · exact h.later j e' hj hphase' g hin hsame hdurable
      · rw [List.mem_singleton.mp hnew] at hsame hdurable
        exact absurd (h.unique i j e e' he hj hdurable fun _ => hsame).symm hne

/-- The collect of an emit does not run on the other kind's collector. -/
theorem Owned.unsettled_ne {i : ℕ} {e : Emit} {durable : Bool} {collector : Collector}
    (h : s.Owned durable collector) (he : s.emits i = some e)
    (hother : e.durable ≠ durable ∨ e.generation ≠ s.attachGeneration) :
    s.unsettled i ≠ some collector := by
  intro hunsettled
  obtain ⟨e', he', hdurable, hgeneration, -⟩ := h.running i hunsettled
  obtain rfl := Option.some.inj (he.symm.trans he')
  exact hother.elim (absurd hdurable) (absurd hgeneration)

/-- The end of an emit of an earlier attach. -/
theorem Sound.finish_of_ne {i : ℕ} {e : Emit} (h : s.Sound) (he : s.emits i = some e)
    (hgeneration : e.generation ≠ s.attachGeneration) : (s.finish i e).Sound := by
  refine h.finish he ?_
  rintro collector (hin | hin)
  · exact (h.collector collector hin).unsettled_ne he (Or.inr hgeneration)
  · exact (h.streamCollector collector hin).unsettled_ne he (Or.inr hgeneration)

theorem Sound.resumeEmit {i : ℕ} {e : Emit} {outcome : Outcome} {made : Bool} (h : s.Sound)
    (he : s.emits i = some e) (hphase : e.phase = .collected outcome) (hdurable : e.durable = true)
    (hmade : outcome = .deadline → e.generation = s.attachGeneration → (s.unsettled i).isSome →
      made = true) : (s.resumeEmit i e made outcome).Sound := by
  have hfinish : outcome ≠ .deadline → (s.finish i e).Sound := by
    intro hne
    refine h.finish he (h.released he ?_)
    rw [hphase]
    cases outcome with
    | deadline => exact absurd rfl hne
    | _ => rfl
  cases outcome with
  | failed => exact hfinish nofun
  | unsupported =>
    rw [MetricsScheduler.resumeEmit]
    split
    · exact hfinish nofun
    · refine Sound.finish (s := { s.stopPeriodicTimer with unsupportedStopped := true })
        (h.congr rfl) he ?_
      exact h.released he (by rw [hphase]; rfl)
  | supported =>
    rw [MetricsScheduler.resumeEmit]
    split
    · exact hfinish nofun
    · rename_i hgeneration
      split
      · exact hfinish nofun
      · rename_i hsend
        exact h.give he hphase (not_not.mp hgeneration) (not_not.mp hsend)
  | deadline =>
    rw [MetricsScheduler.resumeEmit]
    split
    · rename_i hgeneration
      exact h.finish_of_ne he hgeneration
    · rename_i hgeneration
      split
      · rename_i hcollector
        rw [freshCollector, if_neg hgeneration]
        cases made with
        | true =>
          rw [if_pos rfl]
          have hset := h.makeCollector.setCollector (h.owned_makeCollector true)
            h.streamCollector_ne_next
          refine hset.finish he ?_
          rintro collector (⟨⟨⟩⟩ | hin)
          · exact fun hunsettled => absurd (h.unsettled i _ hunsettled).2 (Nat.lt_irrefl _)
          · refine (h.streamCollector collector hin).unsettled_ne he (Or.inl ?_)
            rw [hdurable]
            exact nofun
        | false =>
          have hsame : ({ s with collector := some e.collector } : MetricsScheduler) = s := by
            rw [← hcollector]
          rw [if_neg Bool.false_ne_true]
          dsimp only
          rw [hsame]
          exact h.finish he (h.released_of_settled (hmade rfl (not_not.mp hgeneration)))
      · rename_i hcollector
        refine h.finish he ?_
        rintro collector (hin | hin)
        · exact fun hunsettled => hcollector (h.calls i e collector he hunsettled ▸ hin)
        · refine (h.streamCollector collector hin).unsettled_ne he (Or.inl ?_)
          rw [hdurable]
          exact nofun

theorem Sound.resumeStream {i : ℕ} {e : Emit} {outcome : Outcome} {made : Bool} (h : s.Sound)
    (he : s.emits i = some e) (hphase : e.phase = .collected outcome) (hdurable : e.durable = false)
    (hmade : outcome = .deadline → e.generation = s.attachGeneration → (s.unsettled i).isSome →
      made = true) : (s.resumeStream i e made outcome).Sound := by
  have hfinish : outcome ≠ .deadline → (s.finish i e).Sound := by
    intro hne
    refine h.finish he (h.released he ?_)
    rw [hphase]
    cases outcome with
    | deadline => exact absurd rfl hne
    | _ => rfl
  have hbaseline : ∀ collector, s.collector = some collector → s.unsettled i ≠ some collector := by
    intro collector hin
    refine (h.collector collector hin).unsettled_ne he (Or.inl ?_)
    rw [hdurable]
    exact nofun
  cases outcome with
  | failed => exact hfinish nofun
  | unsupported => exact hfinish nofun
  | supported =>
    rw [MetricsScheduler.resumeStream]
    split
    · exact hfinish nofun
    · rename_i hgeneration
      split
      · exact hfinish nofun
      · rename_i hsend
        exact h.give he hphase (not_not.mp hgeneration) (not_not.mp hsend)
  | deadline =>
    rw [MetricsScheduler.resumeStream]
    split
    · rename_i hstream
      have hsame : ({ s with streamCollector := some e.collector } : MetricsScheduler) = s := by
        rw [← hstream]
      by_cases hgeneration : e.generation = s.attachGeneration
      · rw [freshCollector, if_neg (not_not.mpr hgeneration)]
        cases made with
        | true =>
          rw [if_pos rfl]
          have hset := h.makeCollector.setStreamCollector (h.owned_makeCollector false)
            h.collector_ne_next
          refine hset.finish he ?_
          rintro collector (hin | ⟨⟨⟩⟩)
          · exact hbaseline collector hin
          · exact fun hunsettled => absurd (h.unsettled i _ hunsettled).2 (Nat.lt_irrefl _)
        | false =>
          rw [if_neg Bool.false_ne_true]
          dsimp only
          rw [hsame]
          exact h.finish he (h.released_of_settled (hmade rfl hgeneration))
      · -- the collect of an earlier attach has settled, or this would not be its collector
        rw [freshCollector, if_pos hgeneration]
        dsimp only
        rw [hsame]
        exact h.finish_of_ne he hgeneration
    · rename_i hstream
      refine h.finish he ?_
      rintro collector (hin | hin)
      · exact hbaseline collector hin
      · exact fun hunsettled => hstream (h.calls i e collector he hunsettled ▸ hin)

/-! ## Calls and timers -/

/-- Nothing is in use after a detach. -/
theorem Sound.detach (h : s.Sound) : s.detach.Sound where
  emits i e he := ⟨(h.emits i e he).1, (h.emits i e he).2.1, Nat.le_succ_of_le (h.emits i e he).2.2⟩
  unsettled := h.unsettled
  calls := h.calls
  collector := nofun
  streamCollector := nofun
  distinct := nofun
  active i e he _ hgeneration := by
    have hle := (h.emits i e he).2.2
    have hnext : e.generation = s.attachGeneration + 1 := hgeneration
    omega
  emitting := h.emitting
  unique := h.unique
  apart := h.apart
  attached := h.attached
  ordered := h.ordered
  early := h.early
  later := h.later

theorem Sound.attach (h : s.Sound) (send : Sink) (made : Bool) : (s.attach send made).Sound := by
  have hdetached : Sound { s.detach with attachGeneration := s.detach.attachGeneration + 1 } :=
    h.detach.detach.congr rfl
  rw [MetricsScheduler.attach]
  dsimp only
  split
  · exact hdetached
  · exact (hdetached.makeCollector.setCollector (hdetached.owned_makeCollector true) nofun).congr rfl

theorem Sound.armInterval (h : s.Sound) (tick : Tick) : (s.armInterval tick).Sound := by
  rw [MetricsScheduler.armInterval]
  split
  · exact h
  · split
    · exact h
    · split
      · exact h
      · exact h.congr rfl

theorem Sound.schedulePrimedCadence (h : s.Sound) (tick : Tick) :
    (s.schedulePrimedCadence tick).Sound := by
  rw [MetricsScheduler.schedulePrimedCadence]
  split
  · exact h
  · split
    · exact h
    · split
      · exact h.armInterval tick
      · exact h.congr rfl

theorem Sound.onFirstTimer (h : s.Sound) (primed : Bool) (tick : Tick) :
    (s.onFirstTimer primed tick).Sound := by
  have hemit : (MetricsScheduler.emit { s with firstTimer := none } tick).Sound :=
    Sound.emit (s := { s with firstTimer := none }) (h.congr rfl) tick
  rw [MetricsScheduler.onFirstTimer]
  split
  · exact hemit.armInterval tick
  · exact hemit.schedulePrimedCadence tick

theorem Sound.setIntervalMs (h : s.Sound) (ms : ℕ) : (s.setIntervalMs ms).Sound := by
  rw [MetricsScheduler.setIntervalMs]
  split
  · exact h
  · dsimp only
    split
    · exact h.congr rfl
    · split
      · exact h.congr rfl
      · exact Sound.armInterval (s := { s with intervalMs := ms, intervalTimer := none })
          (h.congr rfl) _

theorem Sound.startStream {collector : Collector} (h : s.Sound) (howned : s.Owned false collector)
    (hdistinct : s.collector ≠ some collector) (send : Sink) :
    (s.startStream send collector).Sound :=
  ((h.setStreamCollector howned hdistinct).emitStream _).congr rfl

theorem Sound.setStreamIntervalMs (h : s.Sound) (ms : Option ℕ) (made : Bool) :
    (s.setStreamIntervalMs ms made).Sound := by
  rw [MetricsScheduler.setStreamIntervalMs]
  split
  · exact h
  · have hset : Sound (stopStreamTimer { s with streamIntervalMs := ms }) := h.congr rfl
    dsimp only
    split
    · split
      · rename_i collector hin
        exact hset.startStream (hset.streamCollector collector hin)
          (fun hbaseline => hset.distinct collector hbaseline hin) _
      · split
        · exact hset.makeCollector.startStream (hset.owned_makeCollector false)
            hset.collector_ne_next _
        · exact hset
    · exact hset

/-! ## Runs -/

/-- The factory returns where the collector of a collect that still runs is to be replaced. -/
def Replaces (s : MetricsScheduler) : Action → Prop
  | .resume i made => ∀ e, s.emits i = some e → e.phase = .collected .deadline →
      e.generation = s.attachGeneration → (s.unsettled i).isSome → made = true
  | _ => True

/-- Whether the factory returns in an action. -/
def Action.made : Action → Bool
  | .resume _ made => made
  | _ => true

theorem replaces_of_made {a : Action} (h : a.made = true) : Replaces s a := by
  cases a with
  | resume i made => exact fun _ _ _ _ _ => h
  | _ => trivial

/-- A collect that settles leaves every collector as free as it was. -/
theorem Sound.settle (h : s.Sound) (i : ℕ) :
    Sound { s with unsettled := Function.update s.unsettled i none } :=
  { h with
    unsettled := fun j collector hj => h.unsettled j collector (update_none_eq_some.mp hj).2
    calls := fun j e collector he hj => h.calls j e collector he (update_none_eq_some.mp hj).2
    collector := fun collector hin => ⟨(h.collector collector hin).lt, fun j hj =>
      (h.collector collector hin).running j (update_none_eq_some.mp hj).2⟩
    streamCollector := fun collector hin => ⟨(h.streamCollector collector hin).lt, fun j hj =>
      (h.streamCollector collector hin).running j (update_none_eq_some.mp hj).2⟩
    apart := fun j k collector hj hk => h.apart j k collector (update_none_eq_some.mp hj).2
      (update_none_eq_some.mp hk).2 }

/-- Every step keeps it where the factory replaces what it is asked to. -/
theorem Sound.step {s' : MetricsScheduler} {a : Action} (h : s.Sound) (hreplaces : Replaces s a)
    (hstep : s.step a = some s') : s'.Sound := by
  cases a with
  | attach send made =>
    obtain rfl := Option.some.inj hstep
    exact h.attach send made
  | detach =>
    obtain rfl := Option.some.inj hstep
    exact h.detach
  | setServerId delayMs =>
    obtain rfl := Option.some.inj hstep
    exact h.congr rfl
  | setIntervalMs ms =>
    obtain rfl := Option.some.inj hstep
    exact h.setIntervalMs ms
  | setStreamIntervalMs ms made =>
    obtain rfl := Option.some.inj hstep
    exact h.setStreamIntervalMs ms made
  | firstTimer =>
    obtain ⟨⟨primed, tick⟩, -, rfl⟩ := Option.map_eq_some_iff.mp hstep
    exact h.onFirstTimer primed tick
  | intervalTimer =>
    obtain ⟨tick, -, rfl⟩ := Option.map_eq_some_iff.mp hstep
    exact h.emit tick
  | streamTimer =>
    obtain ⟨tick, -, rfl⟩ := Option.map_eq_some_iff.mp hstep
    exact h.emitStream tick
  | settle i outcome =>
    rw [MetricsScheduler.step] at hstep
    split at hstep
    · cases hstep
    · split at hstep
      · cases hstep
      · rename_i e _ he
        dsimp only at hstep
        split at hstep
        · rename_i hcollecting
          obtain rfl := Option.some.inj hstep
          refine (h.settle i).setPhase he (Or.inr fun collector _ => ?_) fun _ => ?_
          · dsimp only
            rw [Function.update_self]
            exact nofun
          · rw [hcollecting]
            exact nofun
        · obtain rfl := Option.some.inj hstep
          exact h.settle i
      · obtain rfl := Option.some.inj hstep
        exact h.settle i
  | deadline i =>
    rw [MetricsScheduler.step] at hstep
    split at hstep
    · cases hstep
    · rename_i e he
      split at hstep
      · rename_i hcollecting
        obtain rfl := Option.some.inj hstep
        refine h.setPhase he (Or.inl rfl) fun _ => ?_
        rw [hcollecting]
        exact nofun
      · cases hstep
  | resume i made =>
    rw [MetricsScheduler.step] at hstep
    split at hstep
    · rename_i durable generation send collector outcome he
      obtain rfl := Option.some.inj hstep
      have hmade : outcome = .deadline → generation = s.attachGeneration →
          (s.unsettled i).isSome → made = true := by
        rintro rfl
        exact hreplaces _ he rfl
      cases durable with
      | true => exact h.resumeEmit he rfl rfl hmade
      | false => exact h.resumeStream he rfl rfl hmade
    · cases hstep
  | sent i =>
    rw [MetricsScheduler.step] at hstep
    split at hstep
    · cases hstep
    · rename_i e he
      split at hstep
      · rename_i hsending
        obtain rfl := Option.some.inj hstep
        exact h.finish he (h.released he (by rw [hsending]; rfl))
      · cases hstep

/-- No collector's collect was called while another one ran on it, each sample was given while
its attach was the current one, and those of one attach in the order of their numbers. -/
structure KeepsApart (s : MetricsScheduler) : Prop where
  collects : ∀ i j collector, s.unsettled i = some collector → s.unsettled j = some collector →
    i = j
  attached : ∀ g ∈ s.given, g.generation = g.attachedGeneration ∧ g.attachedSend = some g.send
  ordered : s.given.Pairwise Given.Before

theorem sound_start (delayMs intervalMs : ℕ) : Sound { delayMs, intervalMs } where
  emits := nofun
  unsettled := nofun
  calls := nofun
  collector := nofun
  streamCollector := nofun
  distinct := nofun
  active := nofun
  emitting := nofun
  unique := nofun
  apart := nofun
  attached := nofun
  ordered := List.Pairwise.nil
  early := nofun
  later := nofun

theorem keepsApart_of_reaches (delayMs intervalMs : ℕ)
    (h : Reaches MetricsScheduler.step Replaces { delayMs, intervalMs } s) : s.KeepsApart := by
  have hsound : s.Sound := h.invariant (sound_start delayMs intervalMs)
    fun _ _ _ hsound hreplaces hstep => hsound.step hreplaces hstep
  exact ⟨hsound.apart, hsound.attached, hsound.ordered⟩

/-- The second emit runs on a new collector while the abandoned collect goes on. -/
theorem keepsApart_of_reaches_abandoned :
    ∃ s : MetricsScheduler, s.unsettled 1 = some 0 ∧ s.given = [⟨true, 2, 7, 2, 2, some 7⟩] ∧
      s.KeepsApart :=
  let actions : List Action := [.attach 7 true, .firstTimer, .deadline 1, .resume 1 true,
    .firstTimer, .settle 2 .supported, .resume 2 true]
  ⟨_, rfl, rfl, keepsApart_of_reaches 2000 60000 (Reaches.refl.of_checked
    (fun s a ha => replaces_of_made ha)
    (show runFrom _ _ actions = some _ from rfl))⟩

/-- Where the factory throws, the next emit collects from the collector that is still busy. -/
theorem not_keepsApart_kept :
    ∃ s : MetricsScheduler,
      Reaches MetricsScheduler.step (fun _ _ => True) { delayMs := 2000, intervalMs := 60000 } s ∧
        ¬s.KeepsApart :=
  let actions : List Action := [.attach 7 true, .firstTimer, .deadline 1, .resume 1 false,
    .firstTimer]
  ⟨_, Reaches.refl.of_runFrom (show runFrom _ _ actions = some _ from rfl),
    fun h => absurd (h.collects 1 2 0 rfl rfl) (by decide)⟩

end MetricsScheduler

end Turbopaneld.Metrics
