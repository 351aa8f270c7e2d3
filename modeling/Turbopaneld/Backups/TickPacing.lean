/-
# Ticks are apart, and bounded

A tick that begins while another is under way does nothing, so in every run at most one tick is
under way; and a tick sends no more reports than its limit, however the answers to its calls and
everything else that goes on are interleaved.
-/

import Turbopaneld.Backups.ResultSpool

namespace Turbopaneld.Backups.Results

open Machines Programs

/-! ## What a program may still send -/

variable {α β : Type}

def SpoolCall.endsTick : ∀ {β : Type}, SpoolCall β → Bool
  | _, .endTick => true
  | _, _ => false

/-- How many reports a call sends at most. -/
def SpoolCall.reports : ∀ {β : Type}, SpoolCall β → ℕ
  | _, .send _ => 1
  | _, _ => 0

/-- The program sends at most `n` reports and does not end the tick. -/
def Sends (post : α → Prop) : ℕ → Async SpoolCall α → Prop
  | _, .done a => post a
  | n, .await c next => c.endsTick = false ∧ c.reports ≤ n ∧
      ∀ b, Sends post (n - c.reports) (next b)

/-- The program sends at most `n` reports, and the end of the tick is the last it does. -/
def Ends : ℕ → Async SpoolCall Unit → Prop
  | _, .done _ => False
  | n, .await c next =>
    if c.endsTick then ∀ b, next b = .done ()
    else c.reports ≤ n ∧ ∀ b, Ends (n - c.reports) (next b)

theorem Sends.mono {post : α → Prop} {m n : ℕ} {p : Async SpoolCall α} (h : Sends post m p)
    (hle : m ≤ n) : Sends post n p := by
  induction p generalizing m n with
  | done a => exact h
  | await c next ih =>
    exact ⟨h.1, h.2.1.trans hle, fun b => ih b (h.2.2 b) (Nat.sub_le_sub_right hle _)⟩

theorem Ends.mono {m n : ℕ} {p : Async SpoolCall Unit} (h : Ends m p) (hle : m ≤ n) :
    Ends n p := by
  induction p generalizing m n with
  | done a => exact h
  | await c next ih =>
    unfold Ends at h ⊢
    split at h
    case isTrue hend =>
      rw [if_pos hend]
      exact h
    case isFalse hend =>
      rw [if_neg hend]
      exact ⟨h.1.trans hle, fun b => ih b (h.2 b) (Nat.sub_le_sub_right hle _)⟩

theorem Sends.bind {post : α → Prop} {post' : β → Prop} {m n : ℕ} {p : Async SpoolCall α}
    {f : α → Async SpoolCall β} (hp : Sends post m p) (hf : ∀ a, post a → Sends post' n (f a)) :
    Sends post' (m + n) (p >>= f) := by
  induction p generalizing m with
  | done a => exact (hf a hp).mono (Nat.le_add_left n m)
  | await c next ih =>
    obtain ⟨hend, hle, hnext⟩ := hp
    refine ⟨hend, hle.trans (Nat.le_add_right m n), fun b => ?_⟩
    rw [Nat.sub_add_comm hle]
    exact ih b (hnext b)

/-- A program after one that sends nothing. -/
theorem Sends.bind_of_quiet {post : α → Prop} {post' : β → Prop} {n : ℕ} {p : Async SpoolCall α}
    {f : α → Async SpoolCall β} (hp : Sends post 0 p) (hf : ∀ a, post a → Sends post' n (f a)) :
    Sends post' n (p >>= f) :=
  (hp.bind hf).mono (Nat.zero_add n).le

theorem Sends.ends {post : α → Prop} {m n : ℕ} {p : Async SpoolCall α}
    {f : α → Async SpoolCall Unit} (hp : Sends post m p) (hf : ∀ a, post a → Ends n (f a)) :
    Ends (m + n) (p >>= f) := by
  induction p generalizing m with
  | done a => exact (hf a hp).mono (Nat.le_add_left n m)
  | await c next ih =>
    obtain ⟨hend, hle, hnext⟩ := hp
    change if c.endsTick then _ else _
    rw [if_neg (Bool.not_eq_true _ ▸ hend)]
    refine ⟨hle.trans (Nat.le_add_right m n), fun b => ?_⟩
    rw [Nat.sub_add_comm hle]
    exact ih b (hnext b)

/-- One call that is neither a report nor the end of the tick, and a program after it. -/
theorem Sends.perform_bind {post : β → Prop} {n : ℕ} {c : SpoolCall α}
    {f : α → Async SpoolCall β} (hend : c.endsTick = false) (hreports : c.reports ≤ n)
    (hf : ∀ a, Sends post (n - c.reports) (f a)) : Sends post n (Async.perform c >>= f) :=
  ⟨hend, hreports, hf⟩

/-! ## The functions of the daemon -/

variable {parseDate : String → Option ℚ} {localeCompare : String → String → ℤ}

theorem statAll_sends (runIds : List String) : Sends (fun _ => True) 0 (statAll runIds) := by
  induction runIds with
  | nil => trivial
  | cons runId rest ih =>
    refine Sends.perform_bind rfl (Nat.zero_le 0) fun answer => ?_
    cases answer with
    | error error => trivial
    | ok mtime => exact ih.bind_of_quiet fun _ _ => trivial

theorem length_oldest_le (stamped : List (String × ℤ)) :
    (oldest localeCompare stamped).length ≤ MAX_REPORTS_PER_TICK := by
  rw [oldest, List.length_map, List.length_take]
  exact Nat.min_le_left _ _

theorem listSpooledRunIds_sends :
    Sends (fun listed => ∀ runIds, listed = .ok runIds → runIds.length ≤ MAX_REPORTS_PER_TICK) 0
      (listSpooledRunIds localeCompare) := by
  refine Sends.perform_bind rfl (Nat.zero_le 0) fun answer => ?_
  cases answer with
  | error error =>
    cases error with
    | notFound =>
      intro runIds hrunIds
      obtain rfl := Except.ok.inj hrunIds
      exact Nat.zero_le _
    | other =>
      intro runIds hrunIds
      cases hrunIds
  | ok names =>
    refine (statAll_sends _).bind_of_quiet fun stamped _ => ?_
    intro runIds hrunIds
    cases stamped with
    | error error => cases hrunIds
    | ok stamped =>
      obtain rfl := Except.ok.inj hrunIds
      exact length_oldest_le stamped

theorem report_sends (runId : String) : Sends (fun _ => True) 1 (report parseDate runId) := by
  refine Sends.perform_bind rfl (Nat.zero_le 1) fun answer => ?_
  cases answer with
  | error error => cases error <;> trivial
  | ok text =>
    dsimp only
    cases parseSpooledBackupRunResult parseDate text runId with
    | error issue => exact Sends.perform_bind rfl (Nat.zero_le 1) fun _ => trivial
    | ok result =>
      refine Sends.perform_bind rfl (Nat.zero_le 1) fun nextRunAt => ?_
      exact Sends.perform_bind rfl (le_refl 1) fun _ => trivial

theorem firstSequential_sends (runIds : List String) :
    Sends (fun _ => True) runIds.length (firstSequential (report parseDate) runIds) := by
  induction runIds with
  | nil => trivial
  | cons runId rest ih =>
    rw [List.length_cons, Nat.add_comm]
    refine (report_sends runId).bind fun stop _ => ?_
    cases stop with
    | error error => trivial
    | ok stop =>
      cases stop with
      | true => trivial
      | false => exact ih

theorem tick_ends : Ends MAX_REPORTS_PER_TICK (tick parseDate localeCompare) := by
  rw [← Nat.zero_add MAX_REPORTS_PER_TICK]
  refine listSpooledRunIds_sends.ends fun listed hlisted => ?_
  have hend (n : ℕ) : Ends n (Async.perform .endTick) := fun _ => rfl
  cases listed with
  | error error => exact hend _
  | ok runIds =>
    exact ((firstSequential_sends runIds).ends fun _ _ => hend 0).mono (hlisted runIds rfl)

theorem handleResult_sends (id : String) : Sends (fun _ => True) 0 (handleResult id) := by
  rw [handleResult]
  split
  case isTrue => trivial
  case isFalse => exact Sends.perform_bind rfl (Nat.zero_le 0) fun _ => trivial

/-! ## Runs -/

/-- The program has not come to its end. -/
def Unfinished (program : Async SpoolCall Unit) : Prop := program ≠ .done ()

/-- What holds of the ticks in every run. -/
structure TicksApart (pool : Pool Kind SpoolCall Spool) : Prop where
  bounded : pool.shared.sentInTick ≤ MAX_REPORTS_PER_TICK
  apart : ∀ i j p q, pool.threads i = some ⟨.tick, p⟩ → pool.threads j = some ⟨.tick, q⟩ →
    Unfinished p → Unfinished q → i = j
  begun : ∀ i p, pool.threads i = some ⟨.tick, p⟩ → Unfinished p →
    pool.shared.ticking = true ∧
      ∃ n, Ends n p ∧ pool.shared.sentInTick + n ≤ MAX_REPORTS_PER_TICK
  answer : ∀ i id p, pool.threads i = some ⟨.handleResult id, p⟩ → Sends (fun _ => True) 0 p

/-- What a call does to the counter and the flag. -/
theorem perform_sentInTick {β : Type} (c : SpoolCall β) (reply : Reply) (s : Spool) :
    (perform c reply s).2.sentInTick ≤ s.sentInTick + c.reports := by
  cases c with
  | send message =>
    rw [perform]
    split
    · exact le_refl _
    · exact Nat.le_add_right _ _
  | readDir =>
    rw [perform]
    split <;> exact le_refl _
  | rename before after =>
    rw [perform]
    split <;> exact le_refl _
  | remove name =>
    rw [perform]
    split <;> exact le_refl _
  | stat name => exact le_refl _
  | readTextFile name => exact le_refl _
  | readNextRun policyId => exact le_refl _
  | endTick => exact le_refl _

theorem perform_ticking {β : Type} {c : SpoolCall β} (h : c.endsTick = false) (reply : Reply)
    (s : Spool) : (perform c reply s).2.ticking = s.ticking := by
  cases c with
  | endTick => cases h
  | readDir =>
    rw [perform]
    split <;> rfl
  | send message =>
    rw [perform]
    split <;> rfl
  | rename before after =>
    rw [perform]
    split <;> rfl
  | remove name =>
    rw [perform]
    split <;> rfl
  | stat name => rfl
  | readTextFile name => rfl
  | readNextRun policyId => rfl

theorem act_sentInTick {action : Act} {s s' : Spool} (h : act action s = some s') :
    s'.sentInTick = s.sentInTick ∧ s'.ticking = s.ticking := by
  cases action with
  | beginWrite result =>
    change beginWrite result s = some s' at h
    rw [beginWrite] at h
    split at h
    · cases h
    · rw [← Option.some.inj h]
      exact ⟨rfl, rfl⟩
  | afterCall runId ok =>
    obtain ⟨writer, -, hstep⟩ := Option.bind_eq_some_iff.mp h
    unfold Spool.afterCall at hstep
    dsimp only at hstep
    split at hstep
    all_goals try split at hstep
    all_goals cases hstep
    all_goals exact ⟨rfl, rfl⟩
  | setOpen socketOpen =>
    rw [← Option.some.inj h]
    exact ⟨rfl, rfl⟩
  | advance ms =>
    rw [← Option.some.inj h]
    exact ⟨rfl, rfl⟩

theorem reports_eq_zero {β : Type} {c : SpoolCall β} (h : c.endsTick = true) : c.reports = 0 := by
  cases c with
  | endTick => rfl
  | readDir => cases h
  | send message => cases h
  | rename before after => cases h
  | remove name => cases h
  | stat name => cases h
  | readTextFile name => cases h
  | readNextRun policyId => cases h

theorem unfinished_await {β : Type} (c : SpoolCall β) (next : β → Async SpoolCall Unit) :
    Unfinished (.await c next) := by
  intro heq
  cases heq

variable {pool next : Pool Kind SpoolCall Spool}

theorem TicksApart.resume (h : TicksApart pool) {i : ℕ} {reply : Reply}
    {thread : Thread Kind SpoolCall} (hthread : pool.threads i = some thread)
    (hstep : (reporter parseDate localeCompare).resume pool i reply thread = some next) :
    TicksApart next := by
  obtain ⟨kind, program⟩ := thread
  cases program with
  | done a => cases hstep
  | @await β c rest =>
    obtain rfl := Option.some.inj hstep
    change TicksApart ⟨(perform c reply pool.shared).2,
      Function.update pool.threads i (some ⟨kind, rest (perform c reply pool.shared).1⟩)⟩
    have hsent := perform_sentInTick c reply pool.shared
    have hfound {j : ℕ} {found : Thread Kind SpoolCall} (hj : Function.update pool.threads i
        (some ⟨kind, rest (perform c reply pool.shared).1⟩) j = some found) :
        j = i ∧ found = ⟨kind, rest (perform c reply pool.shared).1⟩ ∨
          j ≠ i ∧ pool.threads j = some found := by
      by_cases heq : j = i
      · subst heq
        rw [Function.update_self] at hj
        exact Or.inl ⟨rfl, (Option.some.inj hj).symm⟩
      · rw [Function.update_of_ne heq] at hj
        exact Or.inr ⟨heq, hj⟩
    generalize (perform c reply pool.shared).1 = b at hfound ⊢
    cases kind with
    | handleResult id =>
      obtain ⟨hend, hreports, hrest⟩ := h.answer i id _ hthread
      have htick {j : ℕ} {p : Async SpoolCall Unit} (hj : Function.update pool.threads i
          (some ⟨.handleResult id, rest b⟩) j = some ⟨.tick, p⟩) :
          pool.threads j = some ⟨.tick, p⟩ := by
        rcases hfound hj with ⟨-, hkind⟩ | ⟨-, hj⟩
        · cases hkind
        · exact hj
      refine ⟨by dsimp only; have := h.bounded; omega, ?apart, ?begun, ?answer⟩
      case apart =>
        intro j k p q hj hk
        exact h.apart j k p q (htick hj) (htick hk)
      case begun =>
        intro j p hj hp
        obtain ⟨hticking, n, hends, hle⟩ := h.begun j p (htick hj) hp
        refine ⟨(perform_ticking hend reply pool.shared).trans hticking, n, hends, ?_⟩
        dsimp only
        omega
      case answer =>
        intro j other p hj
        rcases hfound hj with ⟨-, hthread'⟩ | ⟨-, hj⟩
        · cases hthread'
          exact (hrest b).mono (Nat.sub_le _ _)
        · exact h.answer j other p hj
    | tick =>
      have hwaits := unfinished_await c rest
      obtain ⟨hticking, n, hends, hle⟩ := h.begun i _ hthread hwaits
      -- no other tick is under way
      have hother {j : ℕ} {p : Async SpoolCall Unit} (hj : Function.update pool.threads i
          (some ⟨.tick, rest b⟩) j = some ⟨.tick, p⟩) (hp : Unfinished p) :
          j = i ∧ p = rest b := by
        rcases hfound hj with ⟨hi, hthread'⟩ | ⟨hne, hj⟩
        · cases hthread'
          exact ⟨hi, rfl⟩
        · exact absurd (h.apart j i p _ hj hthread hp hwaits) hne
      refine ⟨?bounded, ?apart, ?begun, ?answer⟩
      case bounded =>
        dsimp only
        unfold Ends at hends
        split at hends
        case isTrue hend =>
          rw [reports_eq_zero hend] at hsent
          omega
        case isFalse => omega
      case apart =>
        intro j k p q hj hk hp hq
        exact (hother hj hp).1.trans (hother hk hq).1.symm
      case begun =>
        intro j p hj hp
        obtain ⟨-, rfl⟩ := hother hj hp
        unfold Ends at hends
        split at hends
        case isTrue => exact absurd (hends b) hp
        case isFalse hend =>
          rw [Bool.not_eq_true] at hend
          refine ⟨(perform_ticking hend reply pool.shared).trans hticking, n - c.reports,
            hends.2 b, ?_⟩
          dsimp only
          omega
      case answer =>
        intro j other p hj
        rcases hfound hj with ⟨-, hthread'⟩ | ⟨-, hj⟩
        · cases hthread'
        · exact h.answer j other p hj

theorem TicksApart.spawn (h : TicksApart pool) {i : ℕ} {kind : Kind} {shared : Spool}
    {thread : Thread Kind SpoolCall}
    (hspawn : (reporter parseDate localeCompare).spawn kind pool.shared = some (shared, thread)) :
    TicksApart ⟨shared, Function.update pool.threads i (some thread)⟩ := by
  have hfound {j : ℕ} {found : Thread Kind SpoolCall}
      (hj : Function.update pool.threads i (some thread) j = some found) :
      j = i ∧ found = thread ∨ pool.threads j = some found := by
    by_cases heq : j = i
    · subst heq
      rw [Function.update_self] at hj
      exact Or.inl ⟨rfl, (Option.some.inj hj).symm⟩
    · rw [Function.update_of_ne heq] at hj
      exact Or.inr hj
  -- a new thread that is no tick, or has come to its end, leaves the ticks as they are
  have hquiet (hsent : shared.sentInTick = pool.shared.sentInTick)
      (hticking : shared.ticking = pool.shared.ticking)
      (htick : ∀ p, thread = ⟨.tick, p⟩ → ¬Unfinished p)
      (hanswer : ∀ id p, thread = ⟨.handleResult id, p⟩ → Sends (fun _ => True) 0 p) :
      TicksApart ⟨shared, Function.update pool.threads i (some thread)⟩ := by
    have hold {j : ℕ} {p : Async SpoolCall Unit}
        (hj : Function.update pool.threads i (some thread) j = some ⟨.tick, p⟩)
        (hp : Unfinished p) : pool.threads j = some ⟨.tick, p⟩ := by
      rcases hfound hj with ⟨-, hthread⟩ | hj
      · exact absurd hp (htick p hthread.symm)
      · exact hj
    refine ⟨hsent.trans_le h.bounded, ?_, ?_, ?_⟩
    · intro j k p q hj hk hp hq
      exact h.apart j k p q (hold hj hp) (hold hk hq) hp hq
    · intro j p hj hp
      obtain ⟨hflag, n, hends, hle⟩ := h.begun j p (hold hj hp) hp
      exact ⟨hticking.trans hflag, n, hends, hsent.symm ▸ hle⟩
    · intro j id p hj
      rcases hfound hj with ⟨-, hthread⟩ | hj
      · exact hanswer id p hthread.symm
      · exact h.answer j id p hj
  cases kind with
  | handleResult id =>
    obtain ⟨rfl, rfl⟩ := Prod.mk.inj (Option.some.inj hspawn)
    refine hquiet rfl rfl ?_ ?_
    · intro p hthread
      cases hthread
    · intro other p hthread
      cases hthread
      exact handleResult_sends id
  | tick =>
    dsimp only [reporter] at hspawn
    split at hspawn
    case isTrue =>
      obtain ⟨rfl, rfl⟩ := Prod.mk.inj (Option.some.inj hspawn)
      refine hquiet rfl rfl ?_ ?_
      · intro p hthread hp
        cases hthread
        exact hp rfl
      · intro id p hthread
        cases hthread
    case isFalse hidle =>
      obtain ⟨rfl, rfl⟩ := Prod.mk.inj (Option.some.inj hspawn)
      -- no tick was under way
      have hother {j : ℕ} {p : Async SpoolCall Unit}
          (hj : Function.update pool.threads i (some ⟨.tick, tick parseDate localeCompare⟩) j =
            some ⟨.tick, p⟩) (hp : Unfinished p) :
          j = i ∧ p = tick parseDate localeCompare := by
        rcases hfound hj with ⟨hi, hthread⟩ | hj
        · cases hthread
          exact ⟨hi, rfl⟩
        · exact absurd (h.begun j p hj hp).1 hidle
      refine ⟨Nat.zero_le _, ?_, ?_, ?_⟩
      · intro j k p q hj hk hp hq
        exact (hother hj hp).1.trans (hother hk hq).1.symm
      · intro j p hj hp
        obtain ⟨-, rfl⟩ := hother hj hp
        exact ⟨rfl, _, tick_ends, (Nat.zero_add _).le⟩
      · intro j id p hj
        rcases hfound hj with ⟨-, hthread⟩ | hj
        · cases hthread
        · exact h.answer j id p hj

theorem ticksApart_idle {shared : Spool} (h : shared.sentInTick ≤ MAX_REPORTS_PER_TICK) :
    TicksApart (Pool.idle shared) := by
  refine ⟨h, ?_, ?_, ?_⟩
  · intro _ _ _ _ hthread
    cases hthread
  · intro _ _ hthread
    cases hthread
  · intro _ _ _ hthread
    cases hthread

/-- In every run, at most one tick is under way, and it has sent no more reports than the limit. -/
theorem ticksApart_of_reaches
    (h : Reaches (reporter parseDate localeCompare).step (fun _ _ => True) (Pool.idle Spool.fresh)
      pool) : TicksApart pool := by
  refine h.invariant (ticksApart_idle (Nat.zero_le _)) ?_
  intro pool event next hpool _ hstep
  cases event with
  | answer i reply =>
    obtain ⟨thread, hthread, hresume⟩ := Option.bind_eq_some_iff.mp hstep
    exact hpool.resume hthread hresume
  | spawn i kind =>
    rw [Process.step] at hstep
    split at hstep
    · cases hstep
    · obtain ⟨⟨shared, thread⟩, hspawn, rfl⟩ := Option.map_eq_some_iff.mp hstep
      exact hpool.spawn hspawn
  | act action =>
    obtain ⟨shared, hact, rfl⟩ := Option.map_eq_some_iff.mp hstep
    obtain ⟨hsent, hticking⟩ := act_sentInTick hact
    refine ⟨hsent.trans_le hpool.bounded, hpool.apart, ?_, hpool.answer⟩
    intro i p hthread hp
    obtain ⟨hflag, n, hends, hle⟩ := hpool.begun i p hthread hp
    exact ⟨hticking.trans hflag, n, hends, hsent.symm ▸ hle⟩
  | restart =>
    obtain rfl := Option.some.inj hstep
    exact ticksApart_idle hpool.bounded

/-- A tick lists the spool while another one begins. -/
def twoTicks : List (Event Reply Kind Act) :=
  [.spawn 0 .tick, .answer 0 ⟨none, [], none⟩, .spawn 1 .tick]

theorem ticksApart_of_two : ∃ pool,
    runFrom (reporter (fun _ => none) fun _ _ => 0).step (Pool.idle Spool.fresh) twoTicks =
        some pool ∧ pool.shared.ticking = true ∧ TicksApart pool := by
  have hends : (runFrom (reporter (fun _ => none) fun _ _ => 0).step (Pool.idle Spool.fresh)
      twoTicks).map (fun pool => pool.shared.ticking) = some true := rfl
  obtain ⟨pool, hrun, hticking⟩ := Option.map_eq_some_iff.mp hends
  exact ⟨pool, hrun, hticking, ticksApart_of_reaches (Reaches.refl.of_runFrom hrun)⟩

end Turbopaneld.Backups.Results
