/-
# The keyed lock

`withKeyedLock` runs at most one body a key at a time.  The queue of a key is a chain of promises:
each call waits for the tail of the call before it, and its own tail is fulfilled after that one
and after its body.  The map keeps the last tail of each key, and a call takes its own out again.
A step here is one call, one job of the promise machinery, or the end of a body; jobs run in any
order, of which the order of the job queue is one.
-/

import Mathlib.Logic.Function.Basic
import Turbopaneld.Machines.Schedules

namespace Turbopaneld.KeyedLock

universe uκ uε uτ

/-- How far `previous.then(() => mine)` is: its handler has not run, it follows the promise the
handler returned, or it is fulfilled. -/
inductive TailState
  | pending
  | followsMine
  | fulfilled
deriving DecidableEq

/-- Where a call of `withKeyedLock` stands. -/
inductive Phase (ε : Type uε) (τ : Type uτ)
  /-- At `await previous`. -/
  | awaitsPrevious
  /-- At `await fn()`. -/
  | awaitsBody
  /-- The caller's promise has its value or error. -/
  | settled (outcome : Except ε τ)

/-- A call, with the promises it has made.  A promise `previous` is named by the call whose tail
it is; `none` is `Promise.resolve()`. -/
structure Call (κ : Type uκ) (ε : Type uε) (τ : Type uτ) where
  key : κ
  previous : Option ℕ
  tail : TailState := .pending
  /-- `release` has resolved `mine`. -/
  mineResolved : Bool := false
  phase : Phase ε τ := .awaitsPrevious

/-- The calls in the order they were made, and the map `tails`; with the bodies that have begun
and the outcomes of those that have ended. -/
structure Locks (κ : Type uκ) (ε : Type uε) (τ : Type uτ) where
  calls : ℕ → Option (Call κ ε τ) := fun _ => none
  count : ℕ := 0
  tails : κ → Option ℕ := fun _ => none
  begun : List ℕ := []
  ended : List (ℕ × Except ε τ) := []

inductive Action (κ : Type uκ) (ε : Type uε) (τ : Type uτ)
  /-- `withKeyedLock(key, fn)`, up to its first `await`. -/
  | call (key : κ)
  /-- The handler `() => mine`. -/
  | runHandler (i : ℕ)
  /-- The tail takes over that `mine` is fulfilled. -/
  | fulfilTail (i : ℕ)
  /-- `await previous` returns, and `fn` is called. -/
  | resume (i : ℕ)
  /-- The body returns, throws or rejects; `finally` runs. -/
  | bodyEnds (i : ℕ) (outcome : Except ε τ)

variable {κ : Type uκ} {ε : Type uε} {τ : Type uτ}

namespace Call

def isSettled (c : Call κ ε τ) : Bool :=
  match c.phase with
  | .settled _ => true
  | _ => false

def hasBegun (c : Call κ ε τ) : Bool :=
  match c.phase with
  | .awaitsPrevious => false
  | _ => true

end Call

namespace Locks

/-- Whether the promise a call waits for is fulfilled. -/
def isFulfilled (s : Locks κ ε τ) : Option ℕ → Bool
  | none => true
  | some i => (s.calls i).any fun c => c.tail = .fulfilled

def update (s : Locks κ ε τ) (i : ℕ) (c : Call κ ε τ) : Locks κ ε τ :=
  { s with calls := Function.update s.calls i (some c) }

variable [DecidableEq κ]

/-- The synchronous part of a call: `previous` is the key's tail, and the new tail takes its
place. -/
def enter (s : Locks κ ε τ) (key : κ) : Locks κ ε τ :=
  { s with
    calls := Function.update s.calls s.count (some { key, previous := s.tails key })
    count := s.count + 1
    tails := Function.update s.tails key (some s.count) }

/-- `release()`, and the entry is deleted if it is still this call's own tail. -/
def leave (s : Locks κ ε τ) (i : ℕ) (c : Call κ ε τ) (outcome : Except ε τ) : Locks κ ε τ :=
  { s.update i { c with mineResolved := true, phase := .settled outcome } with
    tails := if s.tails c.key = some i then Function.update s.tails c.key none else s.tails
    ended := s.ended ++ [(i, outcome)] }

def step (s : Locks κ ε τ) : Action κ ε τ → Option (Locks κ ε τ)
  | .call key => some (s.enter key)
  | .runHandler i => (s.calls i).bind fun c =>
    if c.tail = .pending ∧ s.isFulfilled c.previous then
      some (s.update i { c with tail := .followsMine })
    else none
  | .fulfilTail i => (s.calls i).bind fun c =>
    if c.tail = .followsMine ∧ c.mineResolved then some (s.update i { c with tail := .fulfilled })
    else none
  | .resume i => (s.calls i).bind fun c =>
    match c.phase with
    | .awaitsPrevious =>
      if s.isFulfilled c.previous then
        some { s.update i { c with phase := .awaitsBody } with begun := s.begun ++ [i] }
      else none
    | _ => none
  | .bodyEnds i outcome => (s.calls i).bind fun c =>
    match c.phase with
    | .awaitsBody => some (s.leave i c outcome)
    | _ => none

/-- What a step can be. -/
inductive Steps (s : Locks κ ε τ) : Action κ ε τ → Locks κ ε τ → Prop
  | call (key : κ) : Steps s (.call key) (s.enter key)
  | runHandler {i : ℕ} {c : Call κ ε τ} (hi : s.calls i = some c) (htail : c.tail = .pending)
      (hready : s.isFulfilled c.previous = true) :
      Steps s (.runHandler i) (s.update i { c with tail := .followsMine })
  | fulfilTail {i : ℕ} {c : Call κ ε τ} (hi : s.calls i = some c) (htail : c.tail = .followsMine)
      (hmine : c.mineResolved = true) :
      Steps s (.fulfilTail i) (s.update i { c with tail := .fulfilled })
  | resume {i : ℕ} {c : Call κ ε τ} (hi : s.calls i = some c) (hphase : c.phase = .awaitsPrevious)
      (hready : s.isFulfilled c.previous = true) :
      Steps s (.resume i)
        { s.update i { c with phase := .awaitsBody } with begun := s.begun ++ [i] }
  | bodyEnds {i : ℕ} {c : Call κ ε τ} {outcome : Except ε τ} (hi : s.calls i = some c)
      (hphase : c.phase = .awaitsBody) : Steps s (.bodyEnds i outcome) (s.leave i c outcome)

variable {s s' : Locks κ ε τ} {a : Action κ ε τ}

theorem steps_of_step (h : s.step a = some s') : Steps s a s' := by
  cases a with
  | call key =>
    obtain rfl := Option.some.inj h
    exact .call key
  | runHandler i =>
    obtain ⟨c, hi, hc⟩ := Option.bind_eq_some_iff.mp h
    split at hc
    case isTrue hif =>
      obtain rfl := Option.some.inj hc
      exact .runHandler hi hif.1 hif.2
    case isFalse => cases hc
  | fulfilTail i =>
    obtain ⟨c, hi, hc⟩ := Option.bind_eq_some_iff.mp h
    split at hc
    case isTrue hif =>
      obtain rfl := Option.some.inj hc
      exact .fulfilTail hi hif.1 hif.2
    case isFalse => cases hc
  | resume i =>
    obtain ⟨c, hi, hc⟩ := Option.bind_eq_some_iff.mp h
    split at hc
    case h_1 hphase =>
      split at hc
      case isTrue hready =>
        obtain rfl := Option.some.inj hc
        exact .resume hi hphase hready
      case isFalse => cases hc
    case h_2 => cases hc
  | bodyEnds i outcome =>
    obtain ⟨c, hi, hc⟩ := Option.bind_eq_some_iff.mp h
    split at hc
    case h_1 hphase =>
      obtain rfl := Option.some.inj hc
      exact .bodyEnds hi hphase
    case h_2 => cases hc

end Locks

end Turbopaneld.KeyedLock
