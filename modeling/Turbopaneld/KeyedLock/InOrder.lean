/-
# One body a key at a time, in call order

The tail of a call is fulfilled only once the call has settled and the tail before it is
fulfilled.  So a call whose `previous` is fulfilled finds every earlier call of its key settled.
-/

import Mathlib.Data.List.Nodup
import Turbopaneld.KeyedLock.Calls

namespace Turbopaneld.KeyedLock

universe uκ uε uτ

variable {κ : Type uκ} {ε : Type uε} {τ : Type uτ}

namespace Locks

/-- The chain of promises of each key. -/
structure Chained (s : Locks κ ε τ) : Prop where
  lt_count : ∀ i c, s.calls i = some c → i < s.count
  /-- A call that found no tail found every call of its key settled. -/
  first : ∀ i c, s.calls i = some c → c.previous = none →
    ∀ j d, j < i → s.calls j = some d → d.key = c.key → d.isSettled = true
  /-- A call that found a tail found that of the last call of its key. -/
  next : ∀ i c p, s.calls i = some c → c.previous = some p →
    p < i ∧ (∃ d, s.calls p = some d ∧ d.key = c.key) ∧
      ∀ j d, j < i → s.calls j = some d → d.key = c.key → j ≤ p
  resolved : ∀ i c, s.calls i = some c → c.mineResolved = c.isSettled
  tail_ready : ∀ i c, s.calls i = some c → c.tail ≠ .pending → s.isFulfilled c.previous = true
  tail_mine : ∀ i c, s.calls i = some c → c.tail = .fulfilled → c.mineResolved = true
  begun_ready : ∀ i c, s.calls i = some c → c.hasBegun = true → s.isFulfilled c.previous = true

/-- The map holds the last call of each key that has one that has not settled. -/
structure Mapped (s : Locks κ ε τ) : Prop where
  absent : ∀ key, s.tails key = none → ∀ i c, s.calls i = some c → c.key = key → c.isSettled = true
  present : ∀ key i, s.tails key = some i → (∃ c, s.calls i = some c ∧ c.key = key ∧
    c.isSettled = false) ∧ ∀ j d, s.calls j = some d → d.key = key → j ≤ i

/-- What has begun and what has ended is on record. -/
structure Recorded (s : Locks κ ε τ) : Prop where
  begun : ∀ i, i ∈ s.begun ↔ ∃ c, s.calls i = some c ∧ c.hasBegun = true
  begun_nodup : s.begun.Nodup
  begun_order : s.begun.Pairwise fun i j => ∀ c d, s.calls i = some c → s.calls j = some d →
    c.key = d.key → i < j
  ended : ∀ i outcome, (i, outcome) ∈ s.ended ↔
    ∃ c, s.calls i = some c ∧ c.phase = .settled outcome
  ended_nodup : (s.ended.map Prod.fst).Nodup

variable {s s' : Locks κ ε τ} {i : ℕ} {c : Call κ ε τ}

theorem isFulfilled_some {p : ℕ} (h : s.isFulfilled (some p) = true) :
    ∃ d, s.calls p = some d ∧ d.tail = .fulfilled := by
  cases hp : s.calls p with
  | none =>
    rw [isFulfilled, hp] at h
    cases h
  | some d =>
    rw [isFulfilled, hp] at h
    exact ⟨d, rfl, of_decide_eq_true h⟩

/-- Every earlier call of the key has settled where the promise a call waits for is fulfilled. -/
theorem Chained.earlier (h : Chained s) (hi : s.calls i = some c)
    (hready : s.isFulfilled c.previous = true) :
    ∀ j d, j < i → s.calls j = some d → d.key = c.key → d.isSettled = true := by
  induction i using Nat.strongRecOn generalizing c with
  | ind i ih =>
    cases hprevious : c.previous with
    | none => exact h.first i c hi hprevious
    | some p =>
      intro j d hj hd hkey
      obtain ⟨hlt, ⟨e, he, hekey⟩, hlast⟩ := h.next i c p hi hprevious
      rw [hprevious] at hready
      obtain ⟨e', he', htail⟩ := isFulfilled_some hready
      obtain rfl := Option.some.inj (he.symm.trans he')
      rcases Nat.eq_or_lt_of_le (hlast j d hj hd hkey) with rfl | hbefore
      · obtain rfl := Option.some.inj (he.symm.trans hd)
        rw [← h.resolved _ _ he]
        exact h.tail_mine _ _ he htail
      · have htailReady := h.tail_ready p e he (by rw [htail]; decide)
        exact ih p hlt he htailReady j d hbefore hd (hkey.trans hekey.symm)

/-! ## Updates -/

theorem calls_update (s : Locks κ ε τ) (i : ℕ) (c : Call κ ε τ) {j : ℕ} {d : Call κ ε τ} :
    (s.update i c).calls j = some d ↔ (j = i ∧ d = c) ∨ (j ≠ i ∧ s.calls j = some d) := by
  by_cases hj : j = i
  · subst hj
    simp [update, eq_comm]
  · simp [update, hj]

/-- One call goes on: its key and `previous` stay, and what is settled or fulfilled stays so. -/
structure GoesOn (c c' : Call κ ε τ) : Prop where
  key : c'.key = c.key
  previous : c'.previous = c.previous
  settled : c.isSettled = true → c'.isSettled = true
  fulfilled : c.tail = .fulfilled → c'.tail = .fulfilled

theorem isFulfilled_update {c' : Call κ ε τ} (hi : s.calls i = some c) (hgoes : GoesOn c c')
    {previous : Option ℕ} (h : s.isFulfilled previous = true) :
    (s.update i c').isFulfilled previous = true := by
  cases previous with
  | none => rfl
  | some p =>
    obtain ⟨d, hd, htail⟩ := isFulfilled_some h
    by_cases hp : p = i
    · subst hp
      obtain rfl := Option.some.inj (hi.symm.trans hd)
      rw [isFulfilled, (calls_update s p c').mpr (.inl ⟨rfl, rfl⟩)]
      exact decide_eq_true (hgoes.fulfilled htail)
    · rw [isFulfilled, (calls_update s i c').mpr (.inr ⟨hp, hd⟩)]
      exact decide_eq_true htail

theorem Chained.update {c' : Call κ ε τ} (h : Chained s) (hi : s.calls i = some c)
    (hgoes : GoesOn c c') (hresolved : c'.mineResolved = c'.isSettled)
    (hready : c'.tail ≠ .pending ∨ c'.hasBegun = true → s.isFulfilled c.previous = true)
    (hmine : c'.tail = .fulfilled → c'.mineResolved = true) : Chained (s.update i c') := by
  -- The record of a call before and after.
  have hback : ∀ j d, (s.update i c').calls j = some d → ∃ e, s.calls j = some e ∧ GoesOn e d := by
    intro j d hd
    rcases (calls_update s i c').mp hd with ⟨rfl, rfl⟩ | ⟨-, hd⟩
    · exact ⟨c, hi, hgoes⟩
    · exact ⟨d, hd, rfl, rfl, id, id⟩
  have hmono : ∀ previous, s.isFulfilled previous = true →
      (s.update i c').isFulfilled previous = true := fun _ => isFulfilled_update hi hgoes
  constructor
  case lt_count =>
    intro j d hd
    obtain ⟨e, he, -⟩ := hback j d hd
    exact h.lt_count j e he
  case first =>
    intro j d hd hnone k e hk he hkey
    obtain ⟨d', hd', hgoesD⟩ := hback j d hd
    obtain ⟨e', he', hgoesE⟩ := hback k e he
    apply hgoesE.settled
    apply h.first j d' hd' (hgoesD.previous.symm.trans hnone) k e' hk he'
    rw [← hgoesE.key, ← hgoesD.key]
    exact hkey
  case next =>
    intro j d p hd hsome
    obtain ⟨d', hd', hgoesD⟩ := hback j d hd
    obtain ⟨hlt, ⟨e, he, hekey⟩, hlast⟩ := h.next j d' p hd' (hgoesD.previous.symm.trans hsome)
    refine ⟨hlt, ?_, ?_⟩
    · by_cases hp : p = i
      · subst hp
        obtain rfl := Option.some.inj (hi.symm.trans he)
        refine ⟨c', (calls_update s p c').mpr (.inl ⟨rfl, rfl⟩), ?_⟩
        rw [hgoes.key, hekey, hgoesD.key]
      · exact ⟨e, (calls_update s i c').mpr (.inr ⟨hp, he⟩), hekey.trans hgoesD.key.symm⟩
    · intro k f hk hf hkey
      obtain ⟨f', hf', hgoesF⟩ := hback k f hf
      apply hlast k f' hk hf'
      rw [← hgoesF.key, ← hgoesD.key]
      exact hkey
  case resolved =>
    intro j d hd
    rcases (calls_update s i c').mp hd with ⟨rfl, rfl⟩ | ⟨-, hd⟩
    · exact hresolved
    · exact h.resolved j d hd
  case tail_ready =>
    intro j d hd htail
    apply hmono
    rcases (calls_update s i c').mp hd with ⟨rfl, rfl⟩ | ⟨-, hd⟩
    · rw [hgoes.previous]
      exact hready (.inl htail)
    · exact h.tail_ready j d hd htail
  case tail_mine =>
    intro j d hd htail
    rcases (calls_update s i c').mp hd with ⟨rfl, rfl⟩ | ⟨-, hd⟩
    · exact hmine htail
    · exact h.tail_mine j d hd htail
  case begun_ready =>
    intro j d hd hbegun
    apply hmono
    rcases (calls_update s i c').mp hd with ⟨rfl, rfl⟩ | ⟨-, hd⟩
    · rw [hgoes.previous]
      exact hready (.inr hbegun)
    · exact h.begun_ready j d hd hbegun

/-- The chain is one of the calls. -/
theorem Chained.congr (h : Chained s) (hcalls : s'.calls = s.calls) (hcount : s'.count = s.count) :
    Chained s' := by
  have hready : s'.isFulfilled = s.isFulfilled := by
    funext previous
    cases previous with
    | none => rfl
    | some p => rw [isFulfilled, isFulfilled, hcalls]
  exact
    { lt_count := hcalls ▸ hcount ▸ h.lt_count
      first := hcalls ▸ h.first
      next := hcalls ▸ h.next
      resolved := hcalls ▸ h.resolved
      tail_ready := hcalls ▸ hready ▸ h.tail_ready
      tail_mine := hcalls ▸ h.tail_mine
      begun_ready := hcalls ▸ hready ▸ h.begun_ready }

theorem Mapped.congr (h : Mapped s) (hcalls : s'.calls = s.calls) (htails : s'.tails = s.tails) :
    Mapped s' :=
  ⟨hcalls ▸ htails ▸ h.absent, hcalls ▸ htails ▸ h.present⟩

/-! ## A new call -/

variable [DecidableEq κ] {key : κ}

theorem calls_enter (h : Chained s) (key : κ) {j : ℕ} {d : Call κ ε τ} :
    (s.enter key).calls j = some d ↔
      (j = s.count ∧ d = { key, previous := s.tails key }) ∨ s.calls j = some d := by
  by_cases hj : j = s.count
  · subst hj
    have hfree : s.calls s.count ≠ some d := fun hd => absurd (h.lt_count _ d hd) (Nat.lt_irrefl _)
    simp [enter, hfree, eq_comm]
  · simp [enter, hj]

/-- The calls before the new one are the old ones. -/
theorem old_of_lt (h : Chained s) (key : κ) {j : ℕ} {d : Call κ ε τ} (hj : j < s.count)
    (hd : (s.enter key).calls j = some d) : s.calls j = some d :=
  ((calls_enter h key).mp hd).resolve_left fun hnew => absurd hnew.1 (Nat.ne_of_lt hj)

theorem isFulfilled_enter (h : Chained s) {previous : Option ℕ}
    (hready : s.isFulfilled previous = true) : (s.enter key).isFulfilled previous = true := by
  cases previous with
  | none => rfl
  | some p =>
    obtain ⟨d, hd, htail⟩ := isFulfilled_some hready
    rw [isFulfilled, (calls_enter h key).mpr (.inr hd)]
    exact decide_eq_true htail

theorem Chained.enter (h : Chained s) (hmapped : Mapped s) : Chained (s.enter key) := by
  constructor
  case lt_count =>
    intro j d hd
    rcases (calls_enter h key).mp hd with ⟨rfl, -⟩ | hold
    · exact Nat.lt_succ_self _
    · exact Nat.lt_succ_of_lt (h.lt_count j d hold)
  case first =>
    intro j d hd hnone k e hk he hkey
    rcases (calls_enter h key).mp hd with ⟨rfl, rfl⟩ | hold
    · exact hmapped.absent key hnone k e (old_of_lt h key hk he) hkey
    · have hlt := Nat.lt_trans hk (h.lt_count j d hold)
      exact h.first j d hold hnone k e hk (old_of_lt h key hlt he) hkey
  case next =>
    intro j d p hd hsome
    rcases (calls_enter h key).mp hd with ⟨rfl, rfl⟩ | hold
    · obtain ⟨⟨e, he, hekey, -⟩, hlast⟩ := hmapped.present key p hsome
      refine ⟨h.lt_count p e he, ⟨e, (calls_enter h key).mpr (.inr he), hekey⟩, ?_⟩
      intro k f hk hf hkey
      exact hlast k f (old_of_lt h key hk hf) hkey
    · obtain ⟨hlt, ⟨e, he, hekey⟩, hlast⟩ := h.next j d p hold hsome
      refine ⟨hlt, ⟨e, (calls_enter h key).mpr (.inr he), hekey⟩, ?_⟩
      intro k f hk hf hkey
      exact hlast k f hk (old_of_lt h key (Nat.lt_trans hk (h.lt_count j d hold)) hf) hkey
  case resolved =>
    intro j d hd
    rcases (calls_enter h key).mp hd with ⟨-, rfl⟩ | hold
    · rfl
    · exact h.resolved j d hold
  case tail_ready =>
    intro j d hd htail
    rcases (calls_enter h key).mp hd with ⟨-, rfl⟩ | hold
    · exact absurd rfl htail
    · exact isFulfilled_enter h (h.tail_ready j d hold htail)
  case tail_mine =>
    intro j d hd htail
    rcases (calls_enter h key).mp hd with ⟨-, rfl⟩ | hold
    · cases htail
    · exact h.tail_mine j d hold htail
  case begun_ready =>
    intro j d hd hbegun
    rcases (calls_enter h key).mp hd with ⟨-, rfl⟩ | hold
    · cases hbegun
    · exact isFulfilled_enter h (h.begun_ready j d hold hbegun)

/-! ## The map -/

omit [DecidableEq κ] in
theorem Mapped.update {c' : Call κ ε τ} (h : Mapped s) (hi : s.calls i = some c)
    (hkey : c'.key = c.key) (hsettled : c'.isSettled = c.isSettled) : Mapped (s.update i c') := by
  constructor
  case absent =>
    intro key hnone j d hd hdkey
    rcases (calls_update s i c').mp hd with ⟨rfl, rfl⟩ | ⟨-, hd⟩
    · rw [hsettled]
      exact h.absent key hnone j c hi (hkey.symm.trans hdkey)
    · exact h.absent key hnone j d hd hdkey
  case present =>
    intro key p hp
    obtain ⟨⟨d, hd, hdkey, hopen⟩, hlast⟩ := h.present key p hp
    constructor
    · by_cases hpi : p = i
      · subst hpi
        obtain rfl := Option.some.inj (hi.symm.trans hd)
        exact ⟨c', (calls_update s p c').mpr (.inl ⟨rfl, rfl⟩), hkey.trans hdkey,
          hsettled.trans hopen⟩
      · exact ⟨d, (calls_update s i c').mpr (.inr ⟨hpi, hd⟩), hdkey, hopen⟩
    · intro j e he hekey
      rcases (calls_update s i c').mp he with ⟨rfl, rfl⟩ | ⟨-, he⟩
      · exact hlast j c hi (hkey.symm.trans hekey)
      · exact hlast j e he hekey

theorem Mapped.enter (h : Mapped s) (hchained : Chained s) : Mapped (s.enter key) := by
  constructor
  case absent =>
    intro other hnone j d hd hdkey
    by_cases hother : other = key
    · subst hother
      simp [Locks.enter] at hnone
    · have hold : s.tails other = none := by simpa [Locks.enter, hother] using hnone
      rcases (calls_enter hchained key).mp hd with ⟨-, rfl⟩ | hd
      · exact absurd hdkey.symm hother
      · exact h.absent other hold j d hd hdkey
  case present =>
    intro other p hp
    by_cases hother : other = key
    · subst hother
      obtain rfl : s.count = p := by simpa [Locks.enter] using hp
      refine ⟨⟨_, (calls_enter hchained other).mpr (.inl ⟨rfl, rfl⟩), rfl, rfl⟩, ?_⟩
      intro j d hd _
      rcases (calls_enter hchained other).mp hd with ⟨rfl, -⟩ | hd
      · exact Nat.le_refl _
      · exact Nat.le_of_lt (hchained.lt_count j d hd)
    · have hold : s.tails other = some p := by simpa [Locks.enter, hother] using hp
      obtain ⟨⟨d, hd, hdkey, hopen⟩, hlast⟩ := h.present other p hold
      refine ⟨⟨d, (calls_enter hchained key).mpr (.inr hd), hdkey, hopen⟩, ?_⟩
      intro j e he hekey
      rcases (calls_enter hchained key).mp he with ⟨-, rfl⟩ | he
      · exact absurd hekey.symm hother
      · exact hlast j e he hekey

/-- The record of a call that has settled. -/
def settledCall (c : Call κ ε τ) (outcome : Except ε τ) : Call κ ε τ :=
  { c with mineResolved := true, phase := .settled outcome }

/-- A call that settles takes its entry out of the map where no later call has replaced it. -/
theorem Mapped.leave {outcome : Except ε τ} (h : Mapped s) (hchained : Chained s)
    (hi : s.calls i = some c) (hphase : c.phase = .awaitsBody) : Mapped (s.leave i c outcome) := by
  have hcalls : ∀ j d, (s.leave i c outcome).calls j = some d ↔
      (j = i ∧ d = settledCall c outcome) ∨ (j ≠ i ∧ s.calls j = some d) :=
    fun j d => calls_update s i (settledCall c outcome)
  have hbegun : c.hasBegun = true := by
    rw [Call.hasBegun, hphase]
  have hearlier := hchained.earlier hi (hchained.begun_ready i c hi hbegun)
  -- A call that is left of another key, or of this key while its entry is another one.
  have hleft : ∀ other p, s.tails other = some p → p ≠ i →
      (∃ d, (s.leave i c outcome).calls p = some d ∧ d.key = other ∧ d.isSettled = false) ∧
        ∀ j d, (s.leave i c outcome).calls j = some d → d.key = other → j ≤ p := by
    intro other p hp hpi
    obtain ⟨⟨d, hd, hdkey, hopen⟩, hlast⟩ := h.present other p hp
    refine ⟨⟨d, (hcalls p d).mpr (.inr ⟨hpi, hd⟩), hdkey, hopen⟩, ?_⟩
    intro j e he hekey
    rcases (hcalls j e).mp he with ⟨rfl, rfl⟩ | ⟨-, he⟩
    · exact hlast j c hi hekey
    · exact hlast j e he hekey
  have hsettledOld : ∀ other, s.tails other = none → ∀ j d,
      (s.leave i c outcome).calls j = some d → d.key = other → d.isSettled = true := by
    intro other hnone j d hd hdkey
    rcases (hcalls j d).mp hd with ⟨-, rfl⟩ | ⟨-, hd⟩
    · rfl
    · exact h.absent other hnone j d hd hdkey
  by_cases hown : s.tails c.key = some i
  · have htails : (s.leave i c outcome).tails = Function.update s.tails c.key none := if_pos hown
    constructor
    case absent =>
      intro other hnone j d hd hdkey
      rw [htails] at hnone
      by_cases hother : other = c.key
      · subst hother
        rcases (hcalls j d).mp hd with ⟨-, rfl⟩ | ⟨hj, hd⟩
        · rfl
        · have hle := (h.present c.key i hown).2 j d hd hdkey
          exact hearlier j d (Nat.lt_of_le_of_ne hle hj) hd hdkey
      · rw [Function.update_of_ne hother] at hnone
        exact hsettledOld other hnone j d hd hdkey
    case present =>
      intro other p hp
      rw [htails] at hp
      by_cases hother : other = c.key
      · rw [hother, Function.update_self] at hp
        cases hp
      · rw [Function.update_of_ne hother] at hp
        apply hleft other p hp
        intro hpi
        subst hpi
        obtain ⟨⟨d, hd, hdkey, -⟩, -⟩ := h.present other p hp
        obtain rfl := Option.some.inj (hi.symm.trans hd)
        exact hother hdkey.symm
  · have htails : (s.leave i c outcome).tails = s.tails := if_neg hown
    constructor
    case absent =>
      intro other hnone
      rw [htails] at hnone
      exact hsettledOld other hnone
    case present =>
      intro other p hp
      rw [htails] at hp
      apply hleft other p hp
      intro hpi
      subst hpi
      obtain ⟨⟨d, hd, hdkey, -⟩, -⟩ := h.present other p hp
      obtain rfl := Option.some.inj (hi.symm.trans hd)
      exact hown (hdkey ▸ hp)

/-! ## The record -/

/-- The keys of the calls stay. -/
def KeepsKeys (s s' : Locks κ ε τ) : Prop :=
  ∀ j ∈ s.begun, ∀ d, s'.calls j = some d → ∃ e, s.calls j = some e ∧ e.key = d.key

omit [DecidableEq κ] in
theorem keepsKeys_update {c' : Call κ ε τ} (hi : s.calls i = some c) (hkey : c'.key = c.key) :
    KeepsKeys s (s.update i c') := by
  intro j _ d hd
  rcases (calls_update s i c').mp hd with ⟨rfl, rfl⟩ | ⟨-, hd⟩
  · exact ⟨c, hi, hkey.symm⟩
  · exact ⟨d, hd, rfl⟩

omit [DecidableEq κ] in
theorem Recorded.order (h : Recorded s) (hkeys : KeepsKeys s s') :
    s.begun.Pairwise fun i j => ∀ c d, s'.calls i = some c → s'.calls j = some d →
      c.key = d.key → i < j := by
  apply h.begun_order.imp_of_mem
  intro i j hi hj hlt c d hc hd hkey
  obtain ⟨c', hc', hckey⟩ := hkeys i hi c hc
  obtain ⟨d', hd', hdkey⟩ := hkeys j hj d hd
  exact hlt c' d' hc' hd' (hckey.trans (hkey.trans hdkey.symm))

omit [DecidableEq κ] in
/-- What is on record stays where no body begins or ends. -/
theorem Recorded.update {c' : Call κ ε τ} (h : Recorded s) (hi : s.calls i = some c)
    (hkey : c'.key = c.key) (hphase : c'.phase = c.phase) : Recorded (s.update i c') := by
  have hbegun : c'.hasBegun = c.hasBegun := by
    rw [Call.hasBegun, hphase, Call.hasBegun]
  constructor
  case begun =>
    intro j
    apply (h.begun j).trans
    by_cases hj : j = i
    · subst hj
      simp [Locks.update, hi, hbegun]
    · simp [Locks.update, hj]
  case begun_nodup => exact h.begun_nodup
  case begun_order => exact h.order (keepsKeys_update hi hkey)
  case ended =>
    intro j outcome
    apply (h.ended j outcome).trans
    by_cases hj : j = i
    · subst hj
      simp [Locks.update, hi, hphase]
    · simp [Locks.update, hj]
  case ended_nodup => exact h.ended_nodup

theorem Recorded.enter (h : Recorded s) (hchained : Chained s) : Recorded (s.enter key) := by
  constructor
  case begun =>
    intro j
    apply (h.begun j).trans
    constructor
    · rintro ⟨d, hd, hbegun⟩
      exact ⟨d, (calls_enter hchained key).mpr (.inr hd), hbegun⟩
    · rintro ⟨d, hd, hbegun⟩
      rcases (calls_enter hchained key).mp hd with ⟨-, rfl⟩ | hd
      · cases hbegun
      · exact ⟨d, hd, hbegun⟩
  case begun_nodup => exact h.begun_nodup
  case begun_order =>
    apply h.order
    intro j hj d hd
    obtain ⟨e, he, -⟩ := (h.begun j).mp hj
    exact ⟨d, old_of_lt hchained key (hchained.lt_count j e he) hd, rfl⟩
  case ended =>
    intro j outcome
    apply (h.ended j outcome).trans
    constructor
    · rintro ⟨d, hd, hphase⟩
      exact ⟨d, (calls_enter hchained key).mpr (.inr hd), hphase⟩
    · rintro ⟨d, hd, hphase⟩
      rcases (calls_enter hchained key).mp hd with ⟨-, rfl⟩ | hd
      · cases hphase
      · exact ⟨d, hd, hphase⟩
  case ended_nodup => exact h.ended_nodup

omit [DecidableEq κ] in
/-- A body begins once, and after those of the earlier calls of its key. -/
theorem Recorded.resume (h : Recorded s) (hchained : Chained s) (hi : s.calls i = some c)
    (hphase : c.phase = .awaitsPrevious) :
    Recorded { s.update i { c with phase := .awaitsBody } with begun := s.begun ++ [i] } := by
  have hnotBegun : c.hasBegun = false := by
    rw [Call.hasBegun, hphase]
  have hnew : i ∉ s.begun := by
    intro hmem
    obtain ⟨d, hd, hbegun⟩ := (h.begun i).mp hmem
    obtain rfl := Option.some.inj (hi.symm.trans hd)
    exact absurd hbegun (Bool.eq_false_iff.mp hnotBegun)
  have hkeys : KeepsKeys s (s.update i { c with phase := .awaitsBody }) := keepsKeys_update hi rfl
  constructor
  case begun =>
    intro j
    rw [List.mem_append, List.mem_singleton]
    by_cases hj : j = i
    · subst hj
      simp [Locks.update, Call.hasBegun]
    · simp only [Locks.update, Function.update_of_ne hj, hj, or_false]
      exact h.begun j
  case begun_nodup =>
    refine List.nodup_append.mpr ⟨h.begun_nodup, List.nodup_singleton i, ?_⟩
    intro j hj k hk hjk
    rw [hjk, List.mem_singleton.mp hk] at hj
    exact hnew hj
  case begun_order =>
    refine List.pairwise_append.mpr ⟨h.order hkeys, List.pairwise_singleton _ _, ?_⟩
    intro j hj k hk d e hd he hkey
    obtain rfl := List.mem_singleton.mp hk
    obtain ⟨d', hd', hdkey⟩ := hkeys j hj d hd
    have hekey : e.key = c.key := by
      rcases (calls_update s k _).mp he with ⟨-, rfl⟩ | ⟨hne, -⟩
      · rfl
      · exact absurd rfl hne
    -- A later call of the key that had begun would have found this one settled.
    by_contra hnotBefore
    obtain ⟨d'', hd'', hdbegun⟩ := (h.begun j).mp hj
    obtain rfl := Option.some.inj (hd'.symm.trans hd'')
    have hne : j ≠ k := fun hjk => hnew (hjk ▸ hj)
    have hafter : k < j := by omega
    have hsettled := hchained.earlier hd' (hchained.begun_ready j d' hd' hdbegun) k c hafter hi
      (hekey.symm.trans (hkey.symm.trans hdkey.symm))
    rw [Call.isSettled, hphase] at hsettled
    cases hsettled
  case ended =>
    intro j outcome
    apply (h.ended j outcome).trans
    by_cases hj : j = i
    · subst hj
      simp [Locks.update, hi, hphase]
    · simp [Locks.update, hj]
  case ended_nodup => exact h.ended_nodup

/-- A body ends once. -/
theorem Recorded.leave {outcome : Except ε τ} (h : Recorded s) (hi : s.calls i = some c)
    (hphase : c.phase = .awaitsBody) : Recorded (s.leave i c outcome) := by
  have hnew : i ∉ s.ended.map Prod.fst := by
    intro hmem
    obtain ⟨⟨j, other⟩, hentry, rfl⟩ := List.mem_map.mp hmem
    obtain ⟨d, hd, hsettled⟩ := (h.ended j other).mp hentry
    obtain rfl := Option.some.inj (hi.symm.trans hd)
    rw [hphase] at hsettled
    cases hsettled
  constructor
  case begun =>
    intro j
    apply (h.begun j).trans
    by_cases hj : j = i
    · subst hj
      simp [Locks.leave, Locks.update, hi, Call.hasBegun, hphase]
    · simp [Locks.leave, Locks.update, hj]
  case begun_nodup => exact h.begun_nodup
  case begun_order =>
    have hkeys : KeepsKeys s (s.update i (settledCall c outcome)) := keepsKeys_update hi rfl
    exact h.order hkeys
  case ended =>
    intro j other
    rw [Locks.leave, List.mem_append, List.mem_singleton, Prod.mk.injEq]
    by_cases hj : j = i
    · subst hj
      have hnone : (j, other) ∉ s.ended := fun hmem => hnew (List.mem_map.mpr ⟨_, hmem, rfl⟩)
      simp [Locks.update, hnone, eq_comm]
    · simp only [Locks.update, Function.update_of_ne hj, hj, false_and, or_false]
      exact h.ended j other
  case ended_nodup =>
    rw [Locks.leave, List.map_append, List.map_singleton]
    refine List.nodup_append.mpr ⟨h.ended_nodup, List.nodup_singleton i, ?_⟩
    intro j hj k hk hjk
    rw [hjk, List.mem_singleton.mp hk] at hj
    exact hnew hj

/-! ## Every run -/

structure Sound (s : Locks κ ε τ) : Prop where
  chained : Chained s
  mapped : Mapped s
  recorded : Recorded s

theorem Sound.step {a : Action κ ε τ} (h : Sound s) (hstep : s.step a = some s') : Sound s' := by
  cases steps_of_step hstep with
  | call key =>
    exact ⟨h.chained.enter h.mapped, h.mapped.enter h.chained, h.recorded.enter h.chained⟩
  | @runHandler i c hi htail hready =>
    have hgoes : GoesOn c { c with tail := .followsMine } :=
      ⟨rfl, rfl, id, fun hdone => by rw [htail] at hdone; cases hdone⟩
    exact ⟨h.chained.update hi hgoes (h.chained.resolved i c hi :) (fun _ => hready) nofun,
      h.mapped.update hi rfl rfl, h.recorded.update hi rfl rfl⟩
  | @fulfilTail i c hi htail hmine =>
    have hready := h.chained.tail_ready i c hi (by rw [htail]; decide)
    have hgoes : GoesOn c { c with tail := .fulfilled } := ⟨rfl, rfl, id, fun _ => rfl⟩
    exact ⟨h.chained.update hi hgoes (h.chained.resolved i c hi :) (fun _ => hready)
        (fun _ => hmine),
      h.mapped.update hi rfl rfl, h.recorded.update hi rfl rfl⟩
  | @resume i c hi hphase hready =>
    have hopen : c.isSettled = false := by
      rw [Call.isSettled, hphase]
    have hgoes : GoesOn c { c with phase := .awaitsBody } :=
      ⟨rfl, rfl, fun hsettled => absurd hsettled (Bool.eq_false_iff.mp hopen), id⟩
    have hchained := h.chained.update hi hgoes ((h.chained.resolved i c hi).trans hopen :)
      (fun _ => hready) (h.chained.tail_mine i c hi :)
    have hmapped : Mapped (s.update i { c with phase := .awaitsBody }) :=
      h.mapped.update hi rfl hopen.symm
    exact ⟨hchained.congr rfl rfl, hmapped.congr rfl rfl, h.recorded.resume h.chained hi hphase⟩
  | @bodyEnds i c outcome hi hphase =>
    have hready := h.chained.begun_ready i c hi (by rw [Call.hasBegun, hphase])
    have hgoes : GoesOn c (settledCall c outcome) := ⟨rfl, rfl, fun _ => rfl, id⟩
    have hchained := h.chained.update hi hgoes rfl (fun _ => hready) (fun _ => rfl)
    exact ⟨hchained.congr rfl rfl, h.mapped.leave h.chained hi hphase, h.recorded.leave hi hphase⟩

end Locks

end Turbopaneld.KeyedLock
