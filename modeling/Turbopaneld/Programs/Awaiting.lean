/-
# Programs that await

An asynchronous function runs without a break up to its next await, hands a call to its host
and goes on with the answer.  Between the call and the answer every other function in flight
may run.  A contract says what all of them keep (an invariant), what each may do to the
others (a rely relation), and what a function has to see to before a call.  A program that
is safe under its contract stays safe whatever the others do in between.
-/

import Mathlib.Order.Basic

namespace Turbopaneld.Programs

universe uc uσ uτ

/-- A program over calls that are indexed by the type of their answers. -/
inductive Async (call : Type → Type uc) (α : Type) : Type (max 1 uc)
  | done (a : α)
  | await {β : Type} (c : call β) (next : β → Async call α)

namespace Async

variable {call : Type → Type uc} {α β : Type}

/-- Run one program and then another. -/
def andThen : Async call α → (α → Async call β) → Async call β
  | .done a, f => f a
  | .await c next, f => .await c fun b => (next b).andThen f

instance : Monad (Async call) where
  pure := .done
  bind := andThen

/-- One call, awaited. -/
def perform (c : call α) : Async call α := .await c .done

/-- Run a step for each item, in order. -/
def forEach (step : α → Async call Unit) : List α → Async call Unit
  | [] => pure ()
  | item :: rest => do
    step item
    forEach step rest

/-- Run a program while nothing else runs. -/
def alone {σ : Type uσ} (answer : ∀ {β : Type}, call β → σ → β × σ) :
    Async call α → σ → α × σ
  | .done a, s => (a, s)
  | .await c next, s => (next (answer c s).1).alone answer (answer c s).2

theorem alone_bind {σ : Type uσ} (answer : ∀ {β : Type}, call β → σ → β × σ)
    (p : Async call α) (f : α → Async call β) (s : σ) :
    (p >>= f).alone answer s = (f (p.alone answer s).1).alone answer (p.alone answer s).2 := by
  induction p generalizing s with
  | done a => rfl
  | await c next ih => exact ih (answer c s).1 (answer c s).2

end Async

/-! ## Contracts -/

/-- What the programs in flight promise each other.  A program carries a tag that may decide
what it has to see to before a call. -/
structure Contract (τ : Type uτ) (call : Type → Type uc) (σ : Type uσ) where
  inv : σ → Prop
  rely : σ → σ → Prop
  /-- What has to hold before a call. -/
  pre : τ → ∀ {β : Type}, call β → σ → Prop
  /-- The answers and effects a call may have. -/
  effect : τ → ∀ {β : Type}, call β → σ → β → σ → Prop
  rely_refl : ∀ s, rely s s
  rely_trans : ∀ {s s₁ s₂}, rely s s₁ → rely s₁ s₂ → rely s s₂
  pre_stable : ∀ {t : τ} {β : Type} {c : call β} {s s'}, rely s s' → pre t c s → pre t c s'
  keeps : ∀ {t : τ} {β : Type} {c : call β} {s b s'}, inv s → pre t c s → effect t c s b s' →
    inv s' ∧ rely s s'

namespace Async

variable {τ : Type uτ} {call : Type → Type uc} {σ : Type uσ} {α β : Type}
  {K : Contract τ call σ} {t : τ} {s : σ} {post post' : α → σ → Prop}

/-- Started in `s`, the program sees to what its calls need and ends with `post`, whatever the
others do in between. -/
def Safe (K : Contract τ call σ) (t : τ) (post : α → σ → Prop) : Async call α → σ → Prop
  | .done a, s => post a s
  | .await c next, s => K.pre t c s ∧ ∀ s₁, K.rely s s₁ → K.inv s₁ → ∀ b s',
      K.effect t c s₁ b s' → Safe K t post (next b) s'

theorem Safe.pure {a : α} (h : post a s) : Safe K t post (Pure.pure a) s := h

theorem Safe.conseq {p : Async call α} (h : Safe K t post p s)
    (hpost : ∀ a s, post a s → post' a s) : Safe K t post' p s := by
  induction p generalizing s with
  | done a => exact hpost a s h
  | await c next ih => exact ⟨h.1, fun s₁ hrely hinv b s' heffect =>
      ih b (h.2 s₁ hrely hinv b s' heffect)⟩

theorem Safe.bind {p : Async call α} {f : α → Async call β} {last : β → σ → Prop}
    (hp : Safe K t post p s) (hf : ∀ a s, post a s → Safe K t last (f a) s) :
    Safe K t last (p >>= f) s := by
  induction p generalizing s with
  | done a => exact hf a s hp
  | await c next ih => exact ⟨hp.1, fun s₁ hrely hinv b s' heffect =>
      ih b (hp.2 s₁ hrely hinv b s' heffect)⟩

/-- One call. -/
theorem Safe.perform {c : call α} (hpre : K.pre t c s)
    (hpost : ∀ s₁, K.rely s s₁ → K.inv s₁ → ∀ b s', K.effect t c s₁ b s' → K.rely s s' →
      K.inv s' → post b s') : Safe K t post (Async.perform c) s := by
  refine ⟨hpre, ?_⟩
  intro s₁ hrely hinv b s' heffect
  have hkeeps := K.keeps hinv (K.pre_stable hrely hpre) heffect
  exact hpost s₁ hrely hinv b s' heffect (K.rely_trans hrely hkeeps.2) hkeeps.1

/-- One call, and a program after it. -/
theorem Safe.perform_bind {c : call α} {f : α → Async call β} {last : β → σ → Prop}
    (hpre : K.pre t c s)
    (hf : ∀ s₁, K.rely s s₁ → K.inv s₁ → ∀ b s', K.effect t c s₁ b s' → K.rely s s' →
      K.inv s' → Safe K t last (f b) s') : Safe K t last (Async.perform c >>= f) s := by
  refine ⟨hpre, ?_⟩
  intro s₁ hrely hinv b s' heffect
  have hkeeps := K.keeps hinv (K.pre_stable hrely hpre) heffect
  exact hf s₁ hrely hinv b s' heffect (K.rely_trans hrely hkeeps.2) hkeeps.1

/-- A fact that the others keep is there when the program ends. -/
theorem Safe.frame {p : Async call α} {F : σ → Prop} (h : Safe K t post p s)
    (hstable : ∀ {s s'}, K.rely s s' → F s → F s') (hfact : F s) :
    Safe K t (fun a s => post a s ∧ F s) p s := by
  induction p generalizing s with
  | done a => exact ⟨h, hfact⟩
  | await c next ih =>
    refine ⟨h.1, ?_⟩
    intro s₁ hrely hinv b s' heffect
    have hkeeps := K.keeps hinv (K.pre_stable hrely h.1) heffect
    exact ih b (h.2 s₁ hrely hinv b s' heffect) (hstable hkeeps.2 (hstable hrely hfact))

/-- A loop whose every round keeps a fact. -/
theorem Safe.forEach {step : α → Async call Unit} {F : σ → Prop} {items : List α}
    (hstep : ∀ item ∈ items, ∀ s, F s → Safe K t (fun _ => F) (step item) s)
    (h : F s) : Safe K t (fun _ => F) (Async.forEach step items) s := by
  induction items generalizing s with
  | nil => exact h
  | cons item rest ih =>
    refine Safe.bind (hstep item List.mem_cons_self s h) ?_
    intro _ s' hs'
    exact ih (fun other hother => hstep other (List.mem_cons_of_mem item hother)) hs'

/-- A program that only has to be safe stays so while the others run. -/
theorem Safe.stable {p : Async call α} {s' : σ} (h : Safe K t (fun _ _ => True) p s)
    (hrely : K.rely s s') : Safe K t (fun _ _ => True) p s' := by
  cases p with
  | done a => trivial
  | await c next => exact ⟨K.pre_stable hrely h.1, fun s₁ hrely' =>
      h.2 s₁ (K.rely_trans hrely hrely')⟩

end Async

end Turbopaneld.Programs
