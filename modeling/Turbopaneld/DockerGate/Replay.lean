/-
# Used approval ids

The used token ids that survive a restart of the gate (replay.ts).  The state file
is kept as the JSON value its text parses to, since `JSON.parse` gives back what
`JSON.stringify` wrote; a text that does not parse is `none`.

An expiry in the file may be any finite number.  The clock is in whole seconds, so
no comparison can tell an expiry from the next whole second, and that is what the
cache holds here.
-/

import Turbopaneld.DockerGate.Approval

namespace Turbopaneld.DockerGate

open JavaScript

/-- `MAX_REMEMBERED_APPROVALS`. -/
def maxRememberedApprovals : ℕ := 10000

/-- The ids of a cache with their expiries, oldest first. -/
abbrev UsedIds := List (String × ℤ)

/-- An expiry of the state file: any finite number. -/
def expiryOf : Json → Option ℤ
  | .number token => (numberOf token).map (⌈·⌉)
  | _ => none

/-- Whether a state file's `v` is `FILE_VERSION`. -/
def isFileVersion : Option Json → Bool
  | some (.number token) => numberOf token == some 1
  | _ => false

/-- The entries of a state file that have not expired, none of them kept longer
than a token can live. -/
def liveIds (entries : UsedIds) (nowSec : ℕ) : UsedIds :=
  (entries.filter fun entry => entry.2 > (nowSec : ℤ)).map fun entry =>
    (entry.1, min entry.2 (nowSec + maxApprovalTtlSec + approvalClockSkewSec))

/-- `parseUsedIds`, of the value the text parses to; `none` when it throws. -/
def parseUsedIds (parsed : Option Json) (nowSec : ℕ) : Option UsedIds :=
  match parsed with
  | some (.object fields) =>
      if !isFileVersion (fields.lookup "v") then none
      else
        match fields.lookup "ids" with
        | some (.object ids) => do
            let entries ← ids.mapM fun entry => (expiryOf entry.2).map fun exp => (entry.1, exp)
            if maxRememberedApprovals < (liveIds entries nowSec).length then none
            else return liveIds entries nowSec
        | _ => none
  | _ => none

/-- What `persist` writes. -/
def stateOf (ids : UsedIds) : Json :=
  .object [("v", .number "1"),
    ("ids", .object (ids.map fun entry => (entry.1, .number (toString entry.2))))]

/-- The state file on disk. -/
inductive StateFile
  | absent
  | holds (parsed : Option Json)

/-- `PersistentReplayCache`: the ids, and whether the file could not be trusted at
start. -/
structure ReplayCache where
  ids : UsedIds
  broken : Bool
  deriving DecidableEq, Repr

namespace ReplayCache

/-- The constructor's `load`.  A file that is there may be unreadable. -/
def load (enforce : Bool) (nowSec : ℕ) (file : StateFile) (readable : Bool) : ReplayCache :=
  match file with
  | .absent => if readable then ⟨[], false⟩ else ⟨[], enforce⟩
  | .holds parsed =>
      if !readable then ⟨[], enforce⟩
      else
        match parseUsedIds parsed nowSec with
        | some ids => ⟨ids, false⟩
        | none => ⟨[], enforce⟩

/-- The ids left once those expired at `nowSec` are dropped. -/
def pruned (ids : UsedIds) (nowSec : ℕ) : UsedIds :=
  ids.filter fun entry => (nowSec : ℤ) < entry.2

/-- How a write of the state file ends: renamed into place, whole or cut short by a
full disk; or failing with the old file still there. -/
inductive Write
  | whole
  | short
  | failed
  deriving DecidableEq, Repr

/-- `claim`: the answer, the cache, and the file. -/
def claim (enforce : Bool) (cache : ReplayCache) (file : StateFile) (jti : String) (exp : ℤ)
    (nowSec : ℕ) (write : Write) : Bool × ReplayCache × StateFile :=
  if cache.broken then (false, cache, file)
  else
    let live := pruned cache.ids nowSec
    if live.any (·.1 == jti) then (false, ⟨live, false⟩, file)
    else if maxRememberedApprovals ≤ live.length then (false, ⟨live, false⟩, file)
    else
      let ids := live ++ [(jti, exp)]
      match write with
      | .whole => (true, ⟨ids, false⟩, .holds (some (stateOf ids)))
      | .short => (true, ⟨ids, false⟩, .holds none)
      | .failed => (!enforce, ⟨ids, false⟩, file)

end ReplayCache

/-! ## What is written is read back -/

/-- A whole second of at most 53 bits is read back from the file as it was written. -/
theorem expiryOf_toString {exp : ℤ} (hpos : 0 ≤ exp) (hsafe : |exp| ≤ maxSafeInteger) :
    expiryOf (.number (toString exp)) = some exp := by
  obtain ⟨n, rfl⟩ := Int.eq_ofNat_of_zero_le hpos
  rw [expiryOf, numberOf_toString hsafe, Option.map_some, Int.ceil_intCast]

theorem mem_of_mapM_eq_some {α β : Type} {f : α → Option β} {items : List α} {results : List β}
    (hall : items.mapM f = some results) {a : α} {b : β} (hmem : a ∈ items)
    (hfa : f a = some b) : b ∈ results := by
  induction items generalizing results with
  | nil => exact absurd hmem List.not_mem_nil
  | cons head tail ih =>
      rw [List.mapM_cons] at hall
      cases hhead : f head with
      | none =>
          rw [hhead] at hall
          exact absurd hall (by simp)
      | some first =>
          cases htail : tail.mapM f with
          | none =>
              rw [hhead, htail] at hall
              exact absurd hall (by simp)
          | some others =>
              rw [hhead, htail] at hall
              have hresults : first :: others = results := by simpa using hall
              rw [← hresults]
              rcases List.mem_cons.mp hmem with heq | hmem
              · rw [heq, hhead] at hfa
                rw [Option.some.inj hfa]
                exact List.mem_cons_self
              · exact List.mem_cons_of_mem first (ih htail hmem)

/-- What a state file that is accepted holds. -/
theorem parseUsedIds_eq_some {fields : List (String × Json)} {nowSec : ℕ} {live : UsedIds}
    (hparse : parseUsedIds (some (.object fields)) nowSec = some live) :
    ∃ ids entries, fields.lookup "ids" = some (.object ids) ∧
      (ids.mapM fun entry => (expiryOf entry.2).map fun exp => (entry.1, exp)) = some entries ∧
      liveIds entries nowSec = live := by
  rw [parseUsedIds] at hparse
  split at hparse
  · exact absurd hparse (by simp)
  · split at hparse
    · rename_i ids hids
      rw [Option.bind_eq_bind, Option.bind_eq_some_iff] at hparse
      obtain ⟨entries, hentries, hlive⟩ := hparse
      split at hlive
      · exact absurd hlive (by simp)
      · exact ⟨ids, entries, hids, hentries, Option.some.inj hlive⟩
    · exact absurd hparse (by simp)

/-- An unexpired id that the gate wrote is found again, with its expiry, unless that
lies further out than a token can live. -/
theorem mem_of_parseUsedIds_stateOf {ids live : UsedIds} {nowSec : ℕ} {jti : String} {exp : ℤ}
    (hparse : parseUsedIds (some (stateOf ids)) nowSec = some live) (hmem : (jti, exp) ∈ ids)
    (hsafe : |exp| ≤ maxSafeInteger) (hlive : nowSec < exp)
    (hnear : exp ≤ nowSec + maxApprovalTtlSec + approvalClockSkewSec) : (jti, exp) ∈ live := by
  obtain ⟨written, entries, hwritten, hentries, hlives⟩ := parseUsedIds_eq_some hparse
  have hobject : ids.map (fun entry => (entry.1, Json.number (toString entry.2))) = written :=
    Json.object.inj (Option.some.inj hwritten)
  have hentry : (jti, exp) ∈ entries := by
    apply mem_of_mapM_eq_some hentries
    · rw [← hobject]
      exact List.mem_map_of_mem hmem
    · rw [expiryOf_toString (by omega) hsafe]
      rfl
  rw [← hlives, liveIds, List.mem_map]
  refine ⟨(jti, exp), ?_, ?_⟩
  · rw [List.mem_filter]
    exact ⟨hentry, decide_eq_true hlive⟩
  · rw [min_eq_left hnear]

/-! ## Claims -/

namespace ReplayCache

theorem mem_pruned {ids : UsedIds} {nowSec : ℕ} {entry : String × ℤ} :
    entry ∈ pruned ids nowSec ↔ entry ∈ ids ∧ (nowSec : ℤ) < entry.2 := by
  rw [pruned, List.mem_filter, decide_eq_true_iff]

/-- Everything a claim can do.  A broken cache refuses and stays as it is; else the
expired ids go, and the claim is refused with the file untouched, or the id is
remembered and the claim's answer says whether the file was written. -/
theorem claim_cases (cache : ReplayCache) (file : StateFile) (jti : String) (exp : ℤ)
    (nowSec : ℕ) (write : Write) :
    (cache.broken = true ∧ claim true cache file jti exp nowSec write = (false, cache, file)) ∨
    (cache.broken = false ∧
      claim true cache file jti exp nowSec write =
        (false, ⟨pruned cache.ids nowSec, false⟩, file)) ∨
    (cache.broken = false ∧ (∀ kept, (jti, kept) ∉ pruned cache.ids nowSec) ∧
      ((claim true cache file jti exp nowSec write =
          (false, ⟨pruned cache.ids nowSec ++ [(jti, exp)], false⟩, file)) ∨
        ∃ parsed, (parsed = none ∨
            parsed = some (stateOf (pruned cache.ids nowSec ++ [(jti, exp)]))) ∧
          claim true cache file jti exp nowSec write =
            (true, ⟨pruned cache.ids nowSec ++ [(jti, exp)], false⟩, .holds parsed))) := by
  cases hbroken : cache.broken with
  | true =>
      left
      exact ⟨rfl, by rw [claim, if_pos hbroken]⟩
  | false =>
      right
      have hopen : ¬ cache.broken = true := by simp [hbroken]
      by_cases hseen : (pruned cache.ids nowSec).any (·.1 == jti)
      · left
        exact ⟨rfl, by rw [claim, if_neg hopen]; exact if_pos hseen⟩
      · by_cases hfull : maxRememberedApprovals ≤ (pruned cache.ids nowSec).length
        · left
          exact ⟨rfl, by rw [claim, if_neg hopen]; exact (if_neg hseen).trans (if_pos hfull)⟩
        · right
          have hclaim : claim true cache file jti exp nowSec write = match write with
              | .whole => (true, ⟨pruned cache.ids nowSec ++ [(jti, exp)], false⟩,
                  .holds (some (stateOf (pruned cache.ids nowSec ++ [(jti, exp)]))))
              | .short => (true, ⟨pruned cache.ids nowSec ++ [(jti, exp)], false⟩, .holds none)
              | .failed => (false, ⟨pruned cache.ids nowSec ++ [(jti, exp)], false⟩, file) := by
            rw [claim, if_neg hopen]
            exact (if_neg hseen).trans (if_neg hfull)
          refine ⟨rfl, ?_, ?_⟩
          · intro kept hmem
            exact hseen (List.any_eq_true.mpr ⟨_, hmem, beq_self_eq_true jti⟩)
          · rw [hclaim]
            cases write with
            | whole => exact .inr ⟨_, .inr rfl, rfl⟩
            | short => exact .inr ⟨_, .inl rfl, rfl⟩
            | failed => exact .inl rfl

end ReplayCache

end Turbopaneld.DockerGate
