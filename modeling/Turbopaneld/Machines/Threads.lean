/-
# Threads over a shared state

A process runs any number of asynchronous programs over one shared state.  One step answers
the call a program is waiting on, starts a program, changes the shared state from outside, or
restarts the process, which drops every program in flight.  Where every program is safe under
a contract when it starts, it stays so in every state of every run.
-/

import Mathlib.Logic.Function.Basic
import Turbopaneld.Machines.Runs
import Turbopaneld.Programs.Awaiting

namespace Turbopaneld.Machines

open Programs

universe uc uσ uτ uρ uκ uα

structure Thread (τ : Type uτ) (call : Type → Type uc) where
  tag : τ
  program : Async call Unit

/-- What the steps of a process do. -/
structure Process (τ : Type uτ) (call : Type → Type uc) (σ : Type uσ) (ρ : Type uρ)
    (κ : Type uκ) (α : Type uα) where
  /-- A call, with what the host makes of it. -/
  perform : ∀ {β : Type}, call β → ρ → σ → β × σ
  spawn : κ → σ → Option (σ × Thread τ call)
  act : α → σ → Option σ
  restart : σ → σ

structure Pool (τ : Type uτ) (call : Type → Type uc) (σ : Type uσ) where
  shared : σ
  threads : ℕ → Option (Thread τ call)

inductive Event (ρ : Type uρ) (κ : Type uκ) (α : Type uα)
  /-- The call thread `i` waits on is answered. -/
  | answer (i : ℕ) (reply : ρ)
  | spawn (i : ℕ) (kind : κ)
  | act (action : α)
  | restart

variable {τ : Type uτ} {call : Type → Type uc} {σ : Type uσ} {ρ : Type uρ} {κ : Type uκ}
  {α : Type uα}

/-- A process with nothing in flight. -/
def Pool.idle (s : σ) : Pool τ call σ := ⟨s, fun _ => none⟩

/-- Answer the call a thread waits on. -/
def Process.resume (M : Process τ call σ ρ κ α) (s : Pool τ call σ) (i : ℕ) (reply : ρ) :
    Thread τ call → Option (Pool τ call σ)
  | ⟨_, .done _⟩ => none
  | ⟨tag, .await c next⟩ =>
    let (b, shared) := M.perform c reply s.shared
    some ⟨shared, Function.update s.threads i (some ⟨tag, next b⟩)⟩

def Process.step (M : Process τ call σ ρ κ α) (s : Pool τ call σ) :
    Event ρ κ α → Option (Pool τ call σ)
  | .answer i reply => (s.threads i).bind (M.resume s i reply)
  | .spawn i kind =>
    match s.threads i with
    | some ⟨_, .await _ _⟩ => none
    | _ => (M.spawn kind s.shared).map fun (shared, thread) =>
        ⟨shared, Function.update s.threads i (some thread)⟩
  | .act action => (M.act action s.shared).map fun shared => { s with shared }
  | .restart => some (Pool.idle (M.restart s.shared))

/-- Where each kind of step is allowed. -/
structure Allowed (τ : Type uτ) (call : Type → Type uc) (σ : Type uσ) (ρ : Type uρ)
    (α : Type uα) where
  call : τ → ∀ {β : Type}, call β → ρ → σ → Prop
  act : α → σ → Prop
  restart : σ → Prop

/-- The steps of a run, each allowed where it is taken. -/
def Allowed.event (A : Allowed τ call σ ρ α) (s : Pool τ call σ) : Event ρ κ α → Prop
  | .answer i reply => ∀ tag β (c : call β) next, s.threads i = some ⟨tag, .await c next⟩ →
      A.call tag c reply s.shared
  | .spawn _ _ => True
  | .act action => A.act action s.shared
  | .restart => A.restart s.shared

/-- Every step is allowed. -/
def Allowed.any : Allowed τ call σ ρ α where
  call _ _ _ _ _ := True
  act _ _ := True
  restart _ := True

theorem Allowed.event_any (s : Pool τ call σ) (event : Event ρ κ α) :
    (Allowed.any : Allowed τ call σ ρ α).event s event := by
  cases event with
  | answer i reply => exact fun _ _ _ _ _ => trivial
  | spawn i kind => trivial
  | act action => trivial
  | restart => trivial

/-- The effect of a call that is allowed. -/
def Process.Effect (M : Process τ call σ ρ κ α) (A : Allowed τ call σ ρ α) (t : τ) {β : Type}
    (c : call β) (s : σ) (b : β) (s' : σ) : Prop :=
  ∃ reply, A.call t c reply s ∧ b = (M.perform c reply s).1 ∧ s' = (M.perform c reply s).2

/-- The invariant holds and every thread is safe. -/
structure Pool.Sound (K : Contract τ call σ) (s : Pool τ call σ) : Prop where
  inv : K.inv s.shared
  safe : ∀ i thread, s.threads i = some thread →
    thread.program.Safe K thread.tag (fun _ _ => True) s.shared

/-- The rule for runs of a process. -/
theorem Process.sound_of_reaches {M : Process τ call σ ρ κ α} {A : Allowed τ call σ ρ α}
    {K : Contract τ call σ}
    (hcall : ∀ {t : τ} {β : Type} {c : call β} {s b s'}, M.Effect A t c s b s' →
      K.effect t c s b s')
    (hspawn : ∀ kind s s' thread, K.inv s → M.spawn kind s = some (s', thread) →
      K.inv s' ∧ K.rely s s' ∧ thread.program.Safe K thread.tag (fun _ _ => True) s')
    (hact : ∀ action s s', K.inv s → A.act action s → M.act action s = some s' →
      K.inv s' ∧ K.rely s s')
    (hrestart : ∀ s, K.inv s → A.restart s → K.inv (M.restart s))
    {start : σ} (hstart : K.inv start) {s : Pool τ call σ}
    (h : Reaches M.step A.event (Pool.idle start) s) : s.Sound K := by
  refine h.invariant ⟨hstart, fun _ _ hthread => nomatch hthread⟩ ?_
  intro s event s' hsound hallowed hstep
  cases event with
  | answer i reply =>
    obtain ⟨⟨tag, program⟩, hthread, hresume⟩ := Option.bind_eq_some_iff.mp hstep
    cases program with
    | done a => cases hresume
    | await c next =>
      obtain rfl := Option.some.inj hresume
      have heffect : K.effect tag c s.shared (M.perform c reply s.shared).1
          (M.perform c reply s.shared).2 :=
        hcall ⟨reply, hallowed tag _ c next hthread, rfl, rfl⟩
      have hsafe := hsound.safe i _ hthread
      have hkeeps := K.keeps hsound.inv hsafe.1 heffect
      refine ⟨hkeeps.1, ?_⟩
      intro j thread hfound
      by_cases hj : j = i
      · subst hj
        change Function.update s.threads j _ j = some thread at hfound
        rw [Function.update_self] at hfound
        obtain rfl := Option.some.inj hfound
        exact hsafe.2 s.shared (K.rely_refl _) hsound.inv _ _ heffect
      · change Function.update s.threads i _ j = some thread at hfound
        rw [Function.update_of_ne hj] at hfound
        exact (hsound.safe j thread hfound).stable hkeeps.2
  | spawn i kind =>
    have hspawned : ∃ shared thread, M.spawn kind s.shared = some (shared, thread) ∧
        s' = ⟨shared, Function.update s.threads i (some thread)⟩ := by
      rw [Process.step] at hstep
      split at hstep
      · cases hstep
      · obtain ⟨⟨shared, thread⟩, hspawned, rfl⟩ := Option.map_eq_some_iff.mp hstep
        exact ⟨shared, thread, hspawned, rfl⟩
    obtain ⟨shared, thread, hspawned, rfl⟩ := hspawned
    obtain ⟨hinv, hrely, hsafe⟩ := hspawn kind s.shared shared thread hsound.inv hspawned
    refine ⟨hinv, ?_⟩
    intro j found hfound
    by_cases hj : j = i
    · subst hj
      change Function.update s.threads j _ j = some found at hfound
      rw [Function.update_self] at hfound
      obtain rfl := Option.some.inj hfound
      exact hsafe
    · change Function.update s.threads i _ j = some found at hfound
      rw [Function.update_of_ne hj] at hfound
      exact (hsound.safe j found hfound).stable hrely
  | act action =>
    obtain ⟨shared, hshared, rfl⟩ := Option.map_eq_some_iff.mp hstep
    obtain ⟨hinv, hrely⟩ := hact action s.shared shared hsound.inv hallowed hshared
    exact ⟨hinv, fun j thread hfound => (hsound.safe j thread hfound).stable hrely⟩
  | restart =>
    obtain rfl := Option.some.inj hstep
    exact ⟨hrestart s.shared hsound.inv hallowed, fun _ _ hthread => nomatch hthread⟩

end Turbopaneld.Machines
