/-
# Command ids seen before

A command-dispatch frame may arrive twice: the control plane resends it, or it is replayed after
a reconnect.  The daemon keeps the ids it has recorded in one map, in the order of recording, and
forgets from the front of the map what is too old or too much.  What it remembers so is what the
log of all recordings says.
-/

import Mathlib.Algebra.Order.Group.Defs
import Mathlib.Algebra.Order.Group.Int
import Mathlib.Algebra.Order.Sub.Basic
import Mathlib.Data.Finset.Card
import Mathlib.Data.List.Nodup

namespace Turbopaneld.Instance

universe uι uT

/-- The map's entries, each an id with the time it was recorded at, in the order of the map. -/
structure SeenCommandIds (ι : Type uι) (T : Type uT) where
  seen : List (ι × T) := []
  ttlMs : T
  max : ℕ

/-- The bounds of `new SeenCommandIds()`. -/
def defaultSeenCommandIds (ι : Type uι) : SeenCommandIds ι ℤ where
  ttlMs := 60 * 60000
  max := 2000

section Time

variable {ι : Type uι} {T : Type uT} [AddCommGroup T] [LinearOrder T]

/-- `#evict`: what is left of the map's entries.  The first entry that stays ends the loop. -/
def evict (ttlMs : T) (max : ℕ) (now : T) : List (ι × T) → List (ι × T)
  | [] => []
  | (id, time) :: rest =>
    if now - time < ttlMs ∧ rest.length + 1 ≤ max then (id, time) :: rest
    else evict ttlMs max now rest

/-- Whether the id was seen, and the map afterwards. -/
def SeenCommandIds.seenBefore [DecidableEq ι] (s : SeenCommandIds ι T) (id : ι) (now : T) :
    Bool × SeenCommandIds ι T :=
  let seen := evict s.ttlMs s.max now s.seen
  if id ∈ seen.map Prod.fst then (true, { s with seen })
  else (false, { s with seen := seen ++ [(id, now)] })

/-! ## Sequences of calls -/

/-- One more call, with the log of the calls that returned `false`. -/
def SeenCommandIds.observe [DecidableEq ι] (state : SeenCommandIds ι T × List (ι × T))
    (call : ι × T) : SeenCommandIds ι T × List (ι × T) :=
  let answer := state.1.seenBefore call.1 call.2
  (answer.2, if answer.1 then state.2 else state.2 ++ [call])

/-- Calls one after the other, on an empty map. -/
def SeenCommandIds.run [DecidableEq ι] (ttlMs : T) (max : ℕ) (calls : List (ι × T)) :
    SeenCommandIds ι T × List (ι × T) :=
  calls.foldl SeenCommandIds.observe ({ ttlMs, max }, [])

/-- The latest recording of the id is less than `ttlMs` old, and fewer than `max` other ids were
recorded after it. -/
def Remembered [DecidableEq ι] (ttlMs : T) (max : ℕ) (recorded : List (ι × T)) (id : ι) (now : T) :
    Prop :=
  ∃ older time newer, recorded = older ++ (id, time) :: newer ∧ id ∉ newer.map Prod.fst ∧
    now - time < ttlMs ∧ (newer.map Prod.fst).toFinset.card < max

/-! ## The map and the log -/

/-- The map holds the end of the log, and what it has forgotten is not remembered. -/
structure Follows [DecidableEq ι] (ttlMs : T) (max : ℕ) (recorded seen : List (ι × T)) (now : T) :
    Prop where
  forgotten : ∃ gone, recorded = gone ++ seen ∧
    ∀ older id time newer, gone = older ++ (id, time) :: newer →
      ttlMs ≤ now - time ∨ max ≤ ((newer ++ seen).map Prod.fst).toFinset.card
  nodup : (seen.map Prod.fst).Nodup
  sorted : seen.Pairwise fun a b => a.2 ≤ b.2
  le_now : ∀ entry ∈ seen, entry.2 ≤ now

variable [DecidableEq ι] {ttlMs : T} {max : ℕ} {recorded seen : List (ι × T)} {now : T}

theorem follows_nil : Follows ttlMs max ([] : List (ι × T)) [] now where
  forgotten := ⟨[], rfl, fun older id time newer h => by simp at h⟩
  nodup := List.nodup_nil
  sorted := List.Pairwise.nil
  le_now _ h := absurd h List.not_mem_nil

/-- The ids of a list without duplicates are as many as its entries. -/
theorem card_ids (h : (seen.map Prod.fst).Nodup) :
    (seen.map Prod.fst).toFinset.card = seen.length := by
  rw [List.toFinset_card_of_nodup h, List.length_map]

variable [IsOrderedAddMonoid T]

/-- Time passes. -/
theorem Follows.later (h : Follows ttlMs max recorded seen now) {later : T} (hlater : now ≤ later) :
    Follows ttlMs max recorded seen later := by
  obtain ⟨gone, hrecorded, hgone⟩ := h.forgotten
  refine { h with forgotten := ⟨gone, hrecorded, ?_⟩, le_now := ?_ }
  · intro older id time newer hsplit
    apply (hgone older id time newer hsplit).imp_left
    intro hold
    exact hold.trans (sub_le_sub_right hlater time)
  · intro entry hentry
    exact (h.le_now entry hentry).trans hlater

omit [IsOrderedAddMonoid T] in
/-- The first entry is forgotten, as it is too old or one too many. -/
theorem Follows.forget {id : ι} {time : T} (h : Follows ttlMs max recorded ((id, time) :: seen) now)
    (hout : ¬(now - time < ttlMs ∧ seen.length + 1 ≤ max)) :
    Follows ttlMs max recorded seen now := by
  obtain ⟨gone, hrecorded, hgone⟩ := h.forgotten
  have hnodup : (seen.map Prod.fst).Nodup := (List.nodup_cons.mp h.nodup).2
  refine ⟨⟨gone ++ [(id, time)], ?_, ?_⟩, hnodup, h.sorted.of_cons,
    fun entry hentry => h.le_now entry (List.mem_cons_of_mem _ hentry)⟩
  · rw [hrecorded, List.append_assoc, List.singleton_append]
  · intro older id' time' newer hsplit
    rcases List.eq_nil_or_concat' newer with hnil | ⟨front, last, hconcat⟩
    · -- the entry that goes now
      subst hnil
      obtain ⟨-, hentry⟩ := List.append_inj' hsplit rfl
      obtain ⟨rfl, rfl⟩ := Prod.mk.inj (List.singleton_inj.mp hentry)
      by_cases hfresh : now - time < ttlMs
      · right
        have hmany : max ≤ seen.length := by
          by_contra hroom
          exact hout ⟨hfresh, by omega⟩
        rw [List.nil_append, card_ids hnodup]
        exact hmany
      · exact .inl (not_lt.mp hfresh)
    · -- an entry that went before
      subst hconcat
      rw [← List.cons_append, ← List.append_assoc] at hsplit
      obtain ⟨hbefore, hlast⟩ := List.append_inj' hsplit rfl
      obtain rfl := List.singleton_inj.mp hlast
      rw [List.append_assoc, List.singleton_append]
      exact hgone older id' time' front hbefore

theorem Follows.evict (h : Follows ttlMs max recorded seen now) :
    Follows ttlMs max recorded (evict ttlMs max now seen) now ∧
      (Instance.evict ttlMs max now seen).length ≤ max ∧
      ∀ entry ∈ Instance.evict ttlMs max now seen, now - entry.2 < ttlMs := by
  induction seen with
  | nil => exact ⟨h, Nat.zero_le _, fun _ hentry => absurd hentry List.not_mem_nil⟩
  | cons entry rest ih =>
    obtain ⟨id, time⟩ := entry
    rw [Instance.evict]
    split
    case isTrue hstays =>
      refine ⟨h, hstays.2, ?_⟩
      intro entry hentry
      have hle : time ≤ entry.2 := by
        rcases List.mem_cons.mp hentry with rfl | hrest
        · exact le_rfl
        · exact List.rel_of_pairwise_cons h.sorted hrest
      exact (sub_le_sub_left hle now).trans_lt hstays.1
    case isFalse hgoes => exact ih (h.forget hgoes)

omit [IsOrderedAddMonoid T] in
theorem Follows.record {id : ι} (h : Follows ttlMs max recorded seen now)
    (hnew : id ∉ seen.map Prod.fst) :
    Follows ttlMs max (recorded ++ [(id, now)]) (seen ++ [(id, now)]) now := by
  obtain ⟨gone, hrecorded, hgone⟩ := h.forgotten
  refine ⟨⟨gone, by rw [hrecorded, List.append_assoc], ?_⟩, ?_, ?_, ?_⟩
  · intro older id' time newer hsplit
    apply (hgone older id' time newer hsplit).imp_right
    intro hmany
    refine hmany.trans (Finset.card_le_card fun other hother => ?_)
    rw [List.mem_toFinset] at hother ⊢
    apply List.map_subset _ _ hother
    rw [← List.append_assoc]
    exact List.subset_append_left _ _
  · rw [List.map_append, List.map_singleton]
    refine List.nodup_append.mpr ⟨h.nodup, List.nodup_singleton _, ?_⟩
    intro other hother last hlast heq
    rw [heq, List.mem_singleton.mp hlast] at hother
    exact hnew hother
  · refine List.pairwise_append.mpr ⟨h.sorted, List.pairwise_singleton _ _, ?_⟩
    intro entry hentry last hlast
    rw [List.mem_singleton.mp hlast]
    exact h.le_now entry hentry
  · intro entry hentry
    rcases List.mem_append.mp hentry with hold | hlast
    · exact h.le_now entry hold
    · rw [List.mem_singleton.mp hlast]

omit [IsOrderedAddMonoid T] in
/-- A map without old and superfluous entries holds the ids that are remembered. -/
theorem Follows.mem_iff (h : Follows ttlMs max recorded seen now) (hlength : seen.length ≤ max)
    (hfresh : ∀ entry ∈ seen, now - entry.2 < ttlMs) (id : ι) :
    id ∈ seen.map Prod.fst ↔ Remembered ttlMs max recorded id now := by
  obtain ⟨gone, hrecorded, hgone⟩ := h.forgotten
  constructor
  · intro hmem
    obtain ⟨⟨id, time⟩, hentry, rfl⟩ := List.mem_map.mp hmem
    obtain ⟨older, newer, rfl⟩ := List.append_of_mem hentry
    have hnodup := h.nodup
    rw [List.map_append, List.map_cons, List.nodup_append] at hnodup
    have hnewer := List.nodup_cons.mp hnodup.2.1
    refine ⟨gone ++ older, time, newer, by rw [hrecorded, List.append_assoc], hnewer.1,
      hfresh _ hentry, ?_⟩
    rw [card_ids hnewer.2]
    rw [List.length_append, List.length_cons] at hlength
    omega
  · rintro ⟨older, time, newer, hsplit, hlatest, hyoung, hfew⟩
    rcases List.append_eq_append_iff.mp (hrecorded.symm.trans hsplit) with
      ⟨front, -, hseen⟩ | ⟨front, hgoneEq, hrest⟩
    · rw [hseen]
      simp
    · cases front with
      | nil =>
        rw [List.nil_append] at hrest
        rw [← hrest]
        simp
      | cons entry front =>
        rw [List.cons_append] at hrest
        obtain ⟨rfl, rfl⟩ := List.cons.inj hrest
        rcases hgone older id time front hgoneEq with hold | hmany
        · exact absurd hyoung (not_lt.mpr hold)
        · exact absurd hfew (not_lt.mpr hmany)

/-- A state of a run: the map follows the log and is bounded. -/
structure Running (ttlMs : T) (max : ℕ) (state : SeenCommandIds ι T × List (ι × T)) (now : T) :
    Prop where
  ttlMs_eq : state.1.ttlMs = ttlMs
  max_eq : state.1.max = max
  follows : Follows ttlMs max state.2 state.1.seen now
  length_le : state.1.seen.length ≤ max + 1

variable {state : SeenCommandIds ι T × List (ι × T)}

/-- One call: its answer says whether the id is remembered, and the map keeps to the log. -/
theorem Running.seenBefore (h : Running ttlMs max state now) (id : ι) :
    ((state.1.seenBefore id now).1 = true ↔ Remembered ttlMs max state.2 id now) ∧
      Running ttlMs max (SeenCommandIds.observe state (id, now)) now := by
  obtain ⟨hfollows, hlength, hfresh⟩ := h.follows.evict
  have hanswer := hfollows.mem_iff hlength hfresh id
  rw [SeenCommandIds.observe, SeenCommandIds.seenBefore, h.ttlMs_eq, h.max_eq]
  by_cases hmem : id ∈ (evict ttlMs max now state.1.seen).map Prod.fst
  · simp only [if_pos hmem]
    refine ⟨iff_of_true trivial (hanswer.mp hmem), rfl, rfl, hfollows, ?_⟩
    exact hlength.trans (Nat.le_succ max)
  · simp only [if_neg hmem]
    refine ⟨iff_of_false Bool.false_ne_true fun hold => hmem (hanswer.mpr hold),
      rfl, rfl, hfollows.record hmem, ?_⟩
    rw [List.length_append]
    exact Nat.add_le_add_right hlength 1

theorem running_run (ttlMs : T) (max : ℕ) (calls : List (ι × T)) {now : T}
    (hclock : (calls.map Prod.snd ++ [now]).Pairwise (· ≤ ·)) :
    Running ttlMs max (SeenCommandIds.run ttlMs max calls) now := by
  induction calls using List.reverseRecOn generalizing now with
  | nil => exact ⟨rfl, rfl, follows_nil, Nat.zero_le _⟩
  | append_singleton calls call ih =>
    rw [List.map_append, List.map_singleton] at hclock
    obtain ⟨hbefore, -, hnow⟩ := List.pairwise_append.mp hclock
    have hle : call.2 ≤ now := hnow call.2 (by simp) now List.mem_cons_self
    have hnext := ((ih hbefore).seenBefore call.1).2
    rw [SeenCommandIds.run, List.foldl_concat]
    exact { hnext with follows := hnext.follows.later hle }

/-- However the calls come, as long as the clock does not go back: an id is seen before exactly
where the log of the recordings remembers it, and the map is bounded. -/
theorem seenBefore_iff_remembered (ttlMs : T) (max : ℕ) (calls : List (ι × T)) (id : ι) (now : T)
    (hclock : ((calls ++ [(id, now)]).map Prod.snd).Pairwise (· ≤ ·)) :
    (((SeenCommandIds.run ttlMs max calls).1.seenBefore id now).1 = true ↔
        Remembered ttlMs max (SeenCommandIds.run ttlMs max calls).2 id now) ∧
      (SeenCommandIds.run ttlMs max calls).1.seen.length ≤ max + 1 ∧
        ((SeenCommandIds.run ttlMs max calls).1.seenBefore id now).2.seen.length ≤ max + 1 := by
  rw [List.map_append] at hclock
  have hrunning := running_run ttlMs max calls hclock
  obtain ⟨hanswer, hnext⟩ := hrunning.seenBefore id
  exact ⟨hanswer, hrunning.length_le, hnext.length_le⟩

/-- An id comes again within the hour and after it. -/
theorem seenBefore_iff_remembered_twice :
    let calls : List (String × ℤ) := [("a", 0), ("a", 500), ("b", 500)]
    (((SeenCommandIds.run 1000 10 calls).1.seenBefore "a" 1500).1 = true ↔
        Remembered 1000 10 (SeenCommandIds.run 1000 10 calls).2 "a" 1500) ∧
      (SeenCommandIds.run 1000 10 calls).1.seen.length ≤ 11 ∧
        ((SeenCommandIds.run 1000 10 calls).1.seenBefore "a" 1500).2.seen.length ≤ 11 :=
  seenBefore_iff_remembered 1000 10 [("a", 0), ("a", 500), ("b", 500)] "a" 1500 (by decide)

end Time

end Turbopaneld.Instance
