/-
# Programs that await and throw

An asynchronous function that throws skips what is left of it, up to the handler that catches
what was thrown.  What is promised of such a program is promised of its value; where it throws,
nothing is.
-/

import Turbopaneld.Programs.Awaiting

namespace Turbopaneld.Programs

universe uc uσ uτ

/-- A program over calls that returns a value or throws an `ε`. -/
abbrev Throwing (call : Type → Type uc) (ε α : Type) : Type (max 1 uc) := ExceptT ε (Async call) α

namespace Throwing

variable {call : Type → Type uc} {ε α β : Type}

/-- One call that may throw. -/
def perform (c : call (Except ε α)) : Throwing call ε α := ExceptT.mk (Async.perform c)

/-- One call, whose answer the program looks at itself. -/
def ask (c : call α) : Throwing call ε α := ExceptT.lift (Async.perform c)

variable {τ : Type uτ} {σ : Type uσ} {K : Contract τ call σ} {t : τ} {s : σ}
  {post : α → σ → Prop} {last : β → σ → Prop}

/-- Started in `s`, the program sees to what its calls need, and where it returns, it returns
with `post`. -/
def Ensures (K : Contract τ call σ) (t : τ) (post : α → σ → Prop) (x : Throwing call ε α) (s : σ) :
    Prop :=
  Async.Safe K t (fun outcome s => ∀ a, outcome = .ok a → post a s) x.run s

theorem Ensures.pure {a : α} (h : post a s) :
    Ensures K t post (Pure.pure a : Throwing call ε α) s := by
  refine Async.Safe.pure ?_
  rintro _ ⟨⟩
  exact h

theorem Ensures.throw (e : ε) : Ensures K t post (MonadExcept.throw e : Throwing call ε α) s :=
  Async.Safe.pure fun _ h => nomatch h

theorem Ensures.bind {x : Throwing call ε α} {f : α → Throwing call ε β}
    (hx : Ensures K t post x s) (hf : ∀ a s, post a s → Ensures K t last (f a) s) :
    Ensures K t last (x >>= f) s := by
  refine Async.Safe.bind (f := ExceptT.bindCont f) hx ?_
  intro outcome s hpost
  cases outcome with
  | ok a => exact hf a s (hpost a rfl)
  | error e => exact Async.Safe.pure fun _ h => nomatch h

theorem Ensures.conseq {post' : α → σ → Prop} {x : Throwing call ε α} (h : Ensures K t post x s)
    (hpost : ∀ a s, post a s → post' a s) : Ensures K t post' x s :=
  Async.Safe.conseq h fun _ _ hend a ha => hpost a _ (hend a ha)

theorem Ensures.perform {c : call (Except ε α)} (hpre : K.pre t c s)
    (hpost : ∀ s₁, K.rely s s₁ → K.inv s₁ → ∀ a s', K.effect t c s₁ (.ok a) s' → K.rely s s' →
      K.inv s' → post a s') : Ensures K t post (Throwing.perform c) s := by
  refine Async.Safe.perform hpre ?_
  rintro s₁ hrely hinv _ s' heffect hrely' hinv' a rfl
  exact hpost s₁ hrely hinv a s' heffect hrely' hinv'

theorem Ensures.ask {c : call α} (hpre : K.pre t c s)
    (hpost : ∀ s₁, K.rely s s₁ → K.inv s₁ → ∀ a s', K.effect t c s₁ a s' → K.rely s s' →
      K.inv s' → post a s') : Ensures K t post (Throwing.ask c : Throwing call ε α) s := by
  refine Async.Safe.perform_bind hpre ?_
  intro s₁ hrely hinv a s' heffect hrely' hinv'
  refine Async.Safe.pure ?_
  rintro _ ⟨⟩
  exact hpost s₁ hrely hinv a s' heffect hrely' hinv'

/-- A handler that throws on. -/
theorem Ensures.tryCatch {x : Throwing call ε α} {handler : ε → Throwing call ε α}
    (hx : Ensures K t post x s) (hthrown : ∀ e s, Ensures K t post (handler e) s) :
    Ensures K t post (tryCatch x handler) s := by
  refine Async.Safe.bind hx ?_
  intro outcome s hpost
  cases outcome with
  | ok a =>
    refine Async.Safe.pure ?_
    rintro _ ⟨⟩
    exact hpost a rfl
  | error e => exact hthrown e s

/-- What a program ends with is reached from where it started. -/
theorem Ensures.rely {x : Throwing call ε α} (h : Ensures K t post x s) :
    Ensures K t (fun a s' => post a s' ∧ K.rely s s') x s := by
  refine Async.Safe.conseq (Async.Safe.frame (F := K.rely s) h
    (fun hstep hrely => K.rely_trans hrely hstep) (K.rely_refl s)) ?_
  rintro outcome s' ⟨hend, hrely⟩ a ha
  exact ⟨hend a ha, hrely⟩

/-- A loop over items whose every round keeps an invariant of its local variables. -/
theorem Ensures.foldlM {ι : Type} {round : α → ι → Throwing call ε α}
    (inv : List ι → α → σ → Prop) {items : List ι} {a : α}
    (hround : ∀ done item rest, items = done ++ item :: rest → ∀ a s, inv done a s →
      Ensures K t (inv (done ++ [item])) (round a item) s)
    (h : inv [] a s) : Ensures K t (inv items) (items.foldlM round a) s := by
  suffices hrest : ∀ rest done a s, items = done ++ rest → inv done a s →
      Ensures K t (inv items) (rest.foldlM round a) s from hrest items [] a s rfl h
  intro rest
  induction rest with
  | nil =>
    intro done a s hitems h
    rw [List.append_nil] at hitems
    subst hitems
    exact Ensures.pure h
  | cons item rest ih =>
    intro done a s hitems h
    rw [List.foldlM_cons]
    refine Ensures.bind (hround done item rest hitems a s h) ?_
    intro a' s' h'
    exact ih (done ++ [item]) a' s' (by rw [hitems, List.append_assoc]; rfl) h'

end Throwing

end Turbopaneld.Programs
