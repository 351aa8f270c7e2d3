/-
# A token is accepted once

Runs of the gate in enforce mode as far as approvals go: the clock moves, creates
present their tokens, the gate stops and starts.  `applyApproval` reads the clock
and then awaits the digest and the signature, so between the reading and the claim
other requests may make theirs; a verified token therefore waits here together
with the reading it was verified at.

A gate may stop at any point, between the temporary file and its rename too: the
temporary file is never read, so that leaves what stopping before the claim does.
-/

import Mathlib.Data.List.Nodup
import Turbopaneld.DockerGate.ControlPlane
import Turbopaneld.DockerGate.Replay

namespace Turbopaneld.DockerGate

open JavaScript

variable {Key : Type}

/-- A create whose token verified and that has not made its claim yet. -/
structure Waiting where
  payload : ApprovalPayload
  nowSec : ℕ
  deriving DecidableEq, Repr

/-- The gate between two events, with the payloads accepted so far. -/
structure ApprovalRun where
  clock : ℕ
  file : StateFile
  cache : Option ReplayCache
  waiting : List Waiting
  accepted : List ApprovalPayload

namespace ApprovalRun

/-- What can happen next. -/
inductive Event
  | tick (seconds : ℕ)
  | present (token project bodyDigest containerName : String)
  | claim (index : ℕ) (write : ReplayCache.Write)
  | stop
  | start (readable : Bool)

/-- A gate that is not running. -/
def stopped (clock : ℕ) (file : StateFile) : ApprovalRun where
  clock := clock
  file := file
  cache := none
  waiting := []
  accepted := []

/-- The claim of a waiting request. -/
def claimed (run : ApprovalRun) (cache : ReplayCache) (request : Waiting) (index : ℕ)
    (write : ReplayCache.Write) : ApprovalRun :=
  let (answer, cache', file') :=
    cache.claim true run.file request.payload.jti request.payload.exp request.nowSec write
  { run with
    cache := some cache'
    file := file'
    waiting := run.waiting.eraseIdx index
    accepted := if answer then run.accepted ++ [request.payload] else run.accepted }

/-- One event. -/
def step (crypto : Crypto Key) (keys : List Key) (run : ApprovalRun) : Event → ApprovalRun
  | .tick seconds => { run with clock := run.clock + seconds }
  | .present token project bodyDigest containerName =>
      match run.cache,
        verifyApproval crypto token keys project bodyDigest containerName run.clock with
      | some _, .ok payload => { run with waiting := run.waiting ++ [⟨payload, run.clock⟩] }
      | _, _ => run
  | .claim index write =>
      match run.cache, run.waiting[index]? with
      | some cache, some request => claimed run cache request index write
      | _, _ => run
  | .stop => { run with cache := none, waiting := [] }
  | .start readable =>
      match run.cache with
      | some _ => run
      | none =>
          { run with
            cache := some (ReplayCache.load true run.clock run.file readable)
            waiting := [] }

/-- A whole run. -/
def after (crypto : Crypto Key) (keys : List Key) (run : ApprovalRun) (events : List Event) :
    ApprovalRun :=
  events.foldl (step crypto keys) run

/-- A claim drops no id that a waiting request presents: at the clock reading the
claim was verified with, no such id has expired. -/
def keepsWaiting (run : ApprovalRun) : Event → Bool
  | .claim index _ =>
      match run.cache, run.waiting[index]? with
      | some cache, some request =>
          run.waiting.all fun other => cache.ids.all fun entry =>
            entry.1 ≠ other.payload.jti || (request.nowSec : ℤ) < entry.2
      | _, _ => true
  | _ => true

/-- Every claim of a run drops no id that a waiting request presents. -/
def KeepsWaiting (crypto : Crypto Key) (keys : List Key) : ApprovalRun → List Event → Prop
  | _, [] => True
  | run, event :: events =>
      run.keepsWaiting event = true ∧ KeepsWaiting crypto keys (step crypto keys run event) events

end ApprovalRun

/-- The control plane gives no two tokens one id. -/
def UniqueIds (crypto : Crypto Key) (keys : List Key) : Prop :=
  ∀ token token' payload payload', signedPayload crypto keys token = some payload →
    signedPayload crypto keys token' = some payload' → payload.jti = payload'.jti →
    payload = payload'

/-- Some token with this payload is signed. -/
def IsSigned (crypto : Crypto Key) (keys : List Key) (payload : ApprovalPayload) : Prop :=
  ∃ token, signedPayload crypto keys token = some payload

theorem IsSigned.eq_of_jti {crypto : Crypto Key} {keys : List Key}
    (hunique : UniqueIds crypto keys) {p q : ApprovalPayload} (hp : IsSigned crypto keys p)
    (hq : IsSigned crypto keys q) (hjti : p.jti = q.jti) : p = q := by
  obtain ⟨token, hp⟩ := hp
  obtain ⟨token', hq⟩ := hq
  exact hunique token token' p q hp hq hjti

theorem IsSigned.safe {crypto : Crypto Key} {keys : List Key} {p : ApprovalPayload}
    (hp : IsSigned crypto keys p) : |p.exp| ≤ maxSafeInteger := by
  obtain ⟨token, hp⟩ := hp
  obtain ⟨json, hparse⟩ := parsePayload_of_signedPayload hp
  exact safe_of_parsePayload hparse

/-! ## The invariant -/

/-- The state file keeps a payload's id: the payload has expired, or any later
loading of the file finds the id until it expires. -/
def Filed (file : StateFile) (clock : ℕ) (p : ApprovalPayload) : Prop :=
  p.exp ≤ clock ∨ ∃ parsed, file = .holds parsed ∧
    ∀ now live, clock ≤ now → parseUsedIds parsed now = some live → (now : ℤ) < p.exp →
      (p.jti, p.exp) ∈ live

/-- A running cache keeps a payload's id: it refuses everything, or it holds the id,
or the payload has expired and nobody waits with it. -/
def Held (cache : ReplayCache) (waiting : List Waiting) (clock : ℕ) (p : ApprovalPayload) : Prop :=
  cache.broken = true ∨ (p.jti, p.exp) ∈ cache.ids ∨
    (p.exp ≤ clock ∧ ∀ request ∈ waiting, request.payload.jti ≠ p.jti)

/-- A waiting request was verified at a clock reading of the past. -/
structure Verified (crypto : Crypto Key) (keys : List Key) (clock : ℕ) (request : Waiting) :
    Prop where
  signed : IsSigned crypto keys request.payload
  unexpired : request.nowSec < request.payload.exp
  near : request.payload.exp ≤ clock + maxApprovalTtlSec + approvalClockSkewSec
  past : request.nowSec ≤ clock

/-- What holds between any two events. -/
structure Guarded (crypto : Crypto Key) (keys : List Key) (run : ApprovalRun) : Prop where
  once : (run.accepted.map (·.jti)).Nodup
  signed : ∀ p ∈ run.accepted, IsSigned crypto keys p
  near : ∀ p ∈ run.accepted, p.exp ≤ run.clock + maxApprovalTtlSec + approvalClockSkewSec
  verified : ∀ request ∈ run.waiting, Verified crypto keys run.clock request
  filed : ∀ p ∈ run.accepted, Filed run.file run.clock p
  held : ∀ cache, run.cache = some cache → ∀ p ∈ run.accepted,
    Held cache run.waiting run.clock p

variable {crypto : Crypto Key} {keys : List Key} {run : ApprovalRun}

theorem guarded_stopped (clock : ℕ) (file : StateFile) :
    Guarded crypto keys (.stopped clock file) where
  once := List.nodup_nil
  signed := by simp [ApprovalRun.stopped]
  near := by simp [ApprovalRun.stopped]
  verified := by simp [ApprovalRun.stopped]
  filed := by simp [ApprovalRun.stopped]
  held := by simp [ApprovalRun.stopped]

theorem Filed.later {file : StateFile} {clock : ℕ} {p : ApprovalPayload}
    (hfiled : Filed file clock p) (seconds : ℕ) : Filed file (clock + seconds) p := by
  rcases hfiled with hexpired | ⟨parsed, hfile, hlive⟩
  · left
    push_cast
    omega
  · right
    refine ⟨parsed, hfile, ?_⟩
    intro now live hnow
    exact hlive now live (by omega)

theorem Held.later {cache : ReplayCache} {waiting : List Waiting} {clock : ℕ}
    {p : ApprovalPayload} (hheld : Held cache waiting clock p) (seconds : ℕ) :
    Held cache waiting (clock + seconds) p := by
  rcases hheld with hbroken | hmem | ⟨hexpired, hnobody⟩
  · exact .inl hbroken
  · exact .inr (.inl hmem)
  · refine .inr (.inr ⟨?_, hnobody⟩)
    push_cast
    omega

theorem Guarded.tick (hrun : Guarded crypto keys run) (seconds : ℕ) :
    Guarded crypto keys (run.step crypto keys (.tick seconds)) where
  once := hrun.once
  signed := hrun.signed
  near := by
    intro p hp
    have hnear := hrun.near p hp
    simp only [ApprovalRun.step]
    push_cast
    omega
  verified := by
    intro request hrequest
    have hverified := hrun.verified request hrequest
    have hnear := hverified.near
    have hpast := hverified.past
    refine ⟨hverified.signed, hverified.unexpired, ?_, ?_⟩
    · simp only [ApprovalRun.step]
      push_cast
      omega
    · simp only [ApprovalRun.step]
      omega
  filed := fun p hp => (hrun.filed p hp).later seconds
  held := fun cache hcache p hp => (hrun.held cache hcache p hp).later seconds

theorem Guarded.stop (hrun : Guarded crypto keys run) :
    Guarded crypto keys (run.step crypto keys .stop) where
  once := hrun.once
  signed := hrun.signed
  near := hrun.near
  verified := by simp [ApprovalRun.step]
  filed := hrun.filed
  held := by simp [ApprovalRun.step]

/-- A gate that starts has every id of the file that is still alive, or refuses
everything. -/
theorem held_load {file : StateFile} {clock : ℕ} {p : ApprovalPayload}
    (hfiled : Filed file clock p) (readable : Bool) :
    Held (.load true clock file readable) [] clock p := by
  rcases hfiled with hexpired | ⟨parsed, hfile, hlive⟩
  · exact .inr (.inr ⟨hexpired, by simp⟩)
  · rw [hfile, ReplayCache.load.eq_def]
    cases readable with
    | false => exact .inl rfl
    | true =>
        simp only [Bool.not_true, Bool.false_eq_true, if_false]
        cases hparse : parseUsedIds parsed clock with
        | none => exact .inl rfl
        | some live =>
            rcases lt_or_ge (clock : ℤ) p.exp with halive | hexpired
            · exact .inr (.inl (hlive clock live le_rfl hparse halive))
            · exact .inr (.inr ⟨hexpired, by simp⟩)

theorem Guarded.start (hrun : Guarded crypto keys run) (readable : Bool) :
    Guarded crypto keys (run.step crypto keys (.start readable)) := by
  cases hcache : run.cache with
  | some cache =>
      have hstep : run.step crypto keys (.start readable) = run := by
        simp [ApprovalRun.step, hcache]
      rw [hstep]
      exact hrun
  | none =>
      have hstep : run.step crypto keys (.start readable) =
          { run with
            cache := some (ReplayCache.load true run.clock run.file readable)
            waiting := [] } := by
        simp [ApprovalRun.step, hcache]
      rw [hstep]
      constructor
      · exact hrun.once
      · exact hrun.signed
      · exact hrun.near
      · simp
      · exact hrun.filed
      · intro cache hload p hp
        rw [← Option.some.inj hload]
        exact held_load (hrun.filed p hp) readable

/-- A token that verifies now has not expired, so nobody can present an accepted id
whose expiry has passed. -/
theorem Guarded.present (hunique : UniqueIds crypto keys) (hrun : Guarded crypto keys run)
    (token project bodyDigest containerName : String) :
    Guarded crypto keys
      (run.step crypto keys (.present token project bodyDigest containerName)) := by
  simp only [ApprovalRun.step]
  split
  · rename_i cache payload hcache hok
    obtain ⟨hsigned, hclaims⟩ := verifyApproval_eq_ok_iff.mp hok
    obtain ⟨hunexpired, hnear⟩ := times_of_claimsFailure hclaims
    constructor
    · exact hrun.once
    · exact hrun.signed
    · exact hrun.near
    · intro request hrequest
      rcases List.mem_append.mp hrequest with hold | hnew
      · exact hrun.verified request hold
      · rw [List.mem_singleton.mp hnew]
        exact ⟨⟨token, hsigned⟩, hunexpired, hnear, le_rfl⟩
    · exact hrun.filed
    · intro cache' hcache' p hp
      rcases hrun.held cache' hcache' p hp with hbroken | hmem | ⟨hexpired, hnobody⟩
      · exact .inl hbroken
      · exact .inr (.inl hmem)
      · refine .inr (.inr ⟨hexpired, ?_⟩)
        intro request hrequest
        rcases List.mem_append.mp hrequest with hold | hnew
        · exact hnobody request hold
        · rw [List.mem_singleton.mp hnew]
          intro hjti
          have hsame : payload = p :=
            IsSigned.eq_of_jti hunique ⟨token, hsigned⟩ (hrun.signed p hp) hjti
          rw [hsame] at hunexpired
          exact absurd hunexpired (not_lt.mpr hexpired)
  · exact hrun

/-! ## Claims -/

section Claim

variable {cache : ReplayCache} {request : Waiting} {index : ℕ}

/-- What the condition on a claim says of the ids it drops. -/
theorem unexpired_of_keepsWaiting {write : ReplayCache.Write} (hcache : run.cache = some cache)
    (hrequest : run.waiting[index]? = some request)
    (hkeeps : run.keepsWaiting (.claim index write) = true) {other : Waiting}
    (hother : other ∈ run.waiting) {kept : ℤ} (hkept : (other.payload.jti, kept) ∈ cache.ids) :
    (request.nowSec : ℤ) < kept := by
  simp only [ApprovalRun.keepsWaiting, hcache, hrequest, List.all_eq_true] at hkeeps
  simpa using hkeeps other hother _ hkept

/-- Dropping the ids expired at the reading leaves every accepted id held. -/
theorem held_pruned {p : ApprovalPayload} {waiting : List Waiting}
    (hheld : Held cache waiting run.clock p) (hopen : cache.broken = false)
    (hpast : request.nowSec ≤ run.clock)
    (hkeeps : ∀ other ∈ waiting, ∀ kept, (other.payload.jti, kept) ∈ cache.ids →
      (request.nowSec : ℤ) < kept) :
    Held ⟨ReplayCache.pruned cache.ids request.nowSec, false⟩ waiting run.clock p := by
  rcases hheld with hbroken | hmem | hexpired
  · rw [hopen] at hbroken
    exact absurd hbroken Bool.false_ne_true
  · rcases lt_or_ge (request.nowSec : ℤ) p.exp with halive | hdropped
    · exact .inr (.inl (ReplayCache.mem_pruned.mpr ⟨hmem, halive⟩))
    · refine .inr (.inr ⟨by omega, ?_⟩)
      intro other hother hjti
      have hlater := hkeeps other hother p.exp (hjti ▸ hmem)
      exact absurd hlater (not_lt.mpr hdropped)
  · exact .inr (.inr hexpired)

/-- Nobody is accepted a second time: the id of an accepted payload is still among
the ids when a request that waits with it makes its claim. -/
theorem not_accepted (hunique : UniqueIds crypto keys) (hrun : Guarded crypto keys run)
    (hcache : run.cache = some cache) (hopen : cache.broken = false)
    (hwaits : request ∈ run.waiting)
    (hfresh : ∀ kept, (request.payload.jti, kept) ∉
      ReplayCache.pruned cache.ids request.nowSec) :
    request.payload.jti ∉ run.accepted.map (·.jti) := by
  intro haccepted
  obtain ⟨p, hp, hjti⟩ := List.mem_map.mp haccepted
  have hverified := hrun.verified request hwaits
  have hsame : p = request.payload :=
    IsSigned.eq_of_jti hunique (hrun.signed p hp) hverified.signed hjti
  rcases hrun.held cache hcache p hp with hbroken | hmem | ⟨-, hnobody⟩
  · rw [hopen] at hbroken
    exact absurd hbroken Bool.false_ne_true
  · rw [hsame] at hmem
    exact hfresh _ (ReplayCache.mem_pruned.mpr ⟨hmem, hverified.unexpired⟩)
  · exact hnobody request hwaits hjti.symm

theorem Held.fewer {waiting waiting' : List Waiting} {clock : ℕ} {p : ApprovalPayload}
    (hheld : Held cache waiting clock p) (hsub : waiting' ⊆ waiting) :
    Held cache waiting' clock p := by
  rcases hheld with hbroken | hmem | ⟨hexpired, hnobody⟩
  · exact .inl hbroken
  · exact .inr (.inl hmem)
  · exact .inr (.inr ⟨hexpired, fun other hother => hnobody other (hsub hother)⟩)

theorem Held.more {ids : UsedIds} {waiting : List Waiting} {clock : ℕ} {p : ApprovalPayload}
    (hheld : Held ⟨ids, false⟩ waiting clock p) (entry : String × ℤ) :
    Held ⟨ids ++ [entry], false⟩ waiting clock p := by
  rcases hheld with hbroken | hmem | hexpired
  · exact .inl hbroken
  · exact .inr (.inl (List.mem_append_left _ hmem))
  · exact .inr (.inr hexpired)

/-- What a cache holds is what its file keeps once the file is written. -/
theorem Held.filed {ids : UsedIds} {waiting : List Waiting} {clock : ℕ} {p : ApprovalPayload}
    {parsed : Option Json} (hheld : Held ⟨ids, false⟩ waiting clock p)
    (hsafe : |p.exp| ≤ maxSafeInteger)
    (hnear : p.exp ≤ clock + maxApprovalTtlSec + approvalClockSkewSec)
    (hparsed : parsed = none ∨ parsed = some (stateOf ids)) : Filed (.holds parsed) clock p := by
  rcases hheld with hbroken | hmem | ⟨hexpired, -⟩
  · exact absurd hbroken Bool.false_ne_true
  · right
    refine ⟨parsed, rfl, ?_⟩
    intro now live hnow hparse halive
    rcases hparsed with hnone | hstate
    · rw [hnone] at hparse
      exact absurd hparse (by simp [parseUsedIds])
    · rw [hstate] at hparse
      exact mem_of_parseUsedIds_stateOf hparse hmem hsafe halive (by omega)
  · exact .inl hexpired

/-- A claim that is refused. -/
theorem Guarded.refused (hrun : Guarded crypto keys run) {cache' : ReplayCache}
    (hheld : ∀ p ∈ run.accepted, Held cache' run.waiting run.clock p) :
    Guarded crypto keys { run with cache := some cache', waiting := run.waiting.eraseIdx index } where
  once := hrun.once
  signed := hrun.signed
  near := hrun.near
  verified := fun other hother => hrun.verified other (List.mem_of_mem_eraseIdx hother)
  filed := hrun.filed
  held := by
    intro found hfound p hp
    rw [← Option.some.inj hfound]
    exact (hheld p hp).fewer fun _ hother => List.mem_of_mem_eraseIdx hother

/-- A claim that is accepted. -/
theorem Guarded.accepted (hrun : Guarded crypto keys run) {ids : UsedIds} {parsed : Option Json}
    (hparsed : parsed = none ∨ parsed = some (stateOf ids))
    (hwaits : request ∈ run.waiting)
    (hfresh : request.payload.jti ∉ run.accepted.map (·.jti))
    (hheld : ∀ p ∈ run.accepted ++ [request.payload], Held ⟨ids, false⟩ run.waiting run.clock p) :
    Guarded crypto keys
      { run with
        cache := some ⟨ids, false⟩
        file := .holds parsed
        waiting := run.waiting.eraseIdx index
        accepted := run.accepted ++ [request.payload] } := by
  have hverified := hrun.verified request hwaits
  have hsigned : ∀ p ∈ run.accepted ++ [request.payload], IsSigned crypto keys p := by
    intro p hp
    rcases List.mem_append.mp hp with hold | hnew
    · exact hrun.signed p hold
    · rw [List.mem_singleton.mp hnew]
      exact hverified.signed
  have hnear : ∀ p ∈ run.accepted ++ [request.payload],
      p.exp ≤ run.clock + maxApprovalTtlSec + approvalClockSkewSec := by
    intro p hp
    rcases List.mem_append.mp hp with hold | hnew
    · exact hrun.near p hold
    · rw [List.mem_singleton.mp hnew]
      exact hverified.near
  constructor
  · rw [List.map_append, List.map_singleton, ← List.concat_eq_append, List.nodup_concat]
    exact ⟨hfresh, hrun.once⟩
  · exact hsigned
  · exact hnear
  · exact fun other hother => hrun.verified other (List.mem_of_mem_eraseIdx hother)
  · exact fun p hp => (hheld p hp).filed (hsigned p hp).safe (hnear p hp) hparsed
  · intro found hfound p hp
    rw [← Option.some.inj hfound]
    exact (hheld p hp).fewer fun _ hother => List.mem_of_mem_eraseIdx hother

theorem Guarded.claim (hunique : UniqueIds crypto keys) (hrun : Guarded crypto keys run)
    {write : ReplayCache.Write} (hkeeps : run.keepsWaiting (.claim index write) = true) :
    Guarded crypto keys (run.step crypto keys (.claim index write)) := by
  simp only [ApprovalRun.step]
  split
  · rename_i cache request hcache hrequest
    have hwaits : request ∈ run.waiting := List.mem_of_getElem? hrequest
    have hverified := hrun.verified request hwaits
    have hpruned : cache.broken = false → ∀ p ∈ run.accepted,
        Held ⟨ReplayCache.pruned cache.ids request.nowSec, false⟩ run.waiting run.clock p := by
      intro hopen p hp
      exact held_pruned (hrun.held cache hcache p hp) hopen hverified.past
        fun other hother kept hkept =>
          unexpired_of_keepsWaiting hcache hrequest hkeeps hother hkept
    rw [ApprovalRun.claimed]
    rcases ReplayCache.claim_cases cache run.file request.payload.jti request.payload.exp
        request.nowSec write with
      ⟨hbroken, hclaim⟩ | ⟨hopen, hclaim⟩ | ⟨hopen, hfresh, hclaim | ⟨parsed, hparsed, hclaim⟩⟩
    · rw [hclaim]
      exact hrun.refused fun p hp => .inl hbroken
    · rw [hclaim]
      exact hrun.refused (hpruned hopen)
    · rw [hclaim]
      exact hrun.refused fun p hp => (hpruned hopen p hp).more _
    · rw [hclaim]
      apply hrun.accepted hparsed hwaits (not_accepted hunique hrun hcache hopen hwaits hfresh)
      intro p hp
      rcases List.mem_append.mp hp with hold | hnew
      · exact (hpruned hopen p hold).more _
      · rw [List.mem_singleton.mp hnew]
        exact .inr (.inl (List.mem_append_right _ List.mem_cons_self))
  · exact hrun

end Claim

/-! ## Runs -/

theorem Guarded.step (hunique : UniqueIds crypto keys) (hrun : Guarded crypto keys run)
    {event : ApprovalRun.Event} (hkeeps : run.keepsWaiting event = true) :
    Guarded crypto keys (run.step crypto keys event) := by
  cases event with
  | tick seconds => exact hrun.tick seconds
  | present token project bodyDigest containerName =>
      exact hrun.present hunique token project bodyDigest containerName
  | claim index write => exact hrun.claim hunique hkeeps
  | stop => exact hrun.stop
  | start readable => exact hrun.start readable

theorem Guarded.after (hunique : UniqueIds crypto keys) {events : List ApprovalRun.Event}
    (hrun : Guarded crypto keys run) (hkeeps : ApprovalRun.KeepsWaiting crypto keys run events) :
    Guarded crypto keys (run.after crypto keys events) := by
  induction events generalizing run with
  | nil => exact hrun
  | cons event events ih => exact ih (hrun.step hunique hkeeps.1) hkeeps.2

/-- In every run whose claims drop no id that a waiting request presents, no id is
accepted twice, from any state file and across any stops and starts. -/
theorem accepted_once_of_keepsWaiting (crypto : Crypto Key) (keys : List Key)
    (hunique : UniqueIds crypto keys) (clock : ℕ) (file : StateFile)
    (events : List ApprovalRun.Event)
    (hkeeps : ApprovalRun.KeepsWaiting crypto keys (.stopped clock file) events) :
    (((ApprovalRun.stopped clock file).after crypto keys events).accepted.map (·.jti)).Nodup :=
  ((guarded_stopped clock file).after hunique hkeeps).once

/-! ## A token that is accepted twice -/

/-- The body digest both tokens are for. -/
def zeroDigest : String := "AAAAAAAAAAAAAAAAAAAAAAAAAAAAAAAAAAAAAAAAAAA"

/-- A payload text that expires at 101. -/
def shortPayload : String := shopText zeroDigest "t1" (toString (101 : ℤ))

/-- A payload text that expires at 200. -/
def longPayload : String := shopText zeroDigest "u1" (toString (200 : ℤ))

/-- A control plane that signed the two. -/
def shopCrypto : Crypto Unit := signing [shortPayload, longPayload] []

example : payloadOfText "[]" = none := by decide

theorem payloadOfText_shortPayload :
    payloadOfText shortPayload = some (shopPayload zeroDigest "t1" 101) :=
  payloadOfText_shopText 101 (by decide +kernel) (by decide) (by decide)
    (by decide)

theorem payloadOfText_longPayload :
    payloadOfText longPayload = some (shopPayload zeroDigest "u1" 200) :=
  payloadOfText_shopText 200 (by decide +kernel) (by decide) (by decide)
    (by decide)

theorem signedPayload_shopCrypto {token : String} {payload : ApprovalPayload}
    (hsigned : signedPayload shopCrypto [()] token = some payload) :
    payload = shopPayload zeroDigest "t1" 101 ∨ payload = shopPayload zeroDigest "u1" 200 := by
  obtain ⟨text, htext, hpayload⟩ := payloadOfText_of_signing hsigned
  rcases List.mem_cons.mp htext with hshort | hlong
  · left
    rw [hshort, payloadOfText_shortPayload] at hpayload
    exact (Option.some.inj hpayload).symm
  · right
    rw [List.mem_singleton.mp hlong, payloadOfText_longPayload] at hpayload
    exact (Option.some.inj hpayload).symm

theorem uniqueIds_shopCrypto : UniqueIds shopCrypto [()] := by
  intro token token' payload payload' hsigned hsigned' hjti
  have hdistinct : "t1" ≠ "u1" := by decide
  rcases signedPayload_shopCrypto hsigned with h | h <;>
    rcases signedPayload_shopCrypto hsigned' with h' | h'
  · rw [h, h']
  · rw [h, h'] at hjti
    exact absurd hjti hdistinct
  · rw [h, h'] at hjti
    exact absurd hjti.symm hdistinct
  · rw [h, h']

theorem verify_shortPayload {nowSec : ℕ} (hclaims :
    claimsFailure (shopPayload zeroDigest "t1" 101) "shop" zeroDigest "web" nowSec = none) :
    verifyApproval shopCrypto (tokenOf shortPayload) [()] "shop" zeroDigest "web" nowSec =
      .ok (shopPayload zeroDigest "t1" 101) := by
  rw [verifyApproval_eq_ok_iff]
  exact ⟨signedPayload_tokenOf (by simp) (by decide +kernel) payloadOfText_shortPayload, hclaims⟩

theorem verify_longPayload {nowSec : ℕ} (hclaims :
    claimsFailure (shopPayload zeroDigest "u1" 200) "shop" zeroDigest "web" nowSec = none) :
    verifyApproval shopCrypto (tokenOf longPayload) [()] "shop" zeroDigest "web" nowSec =
      .ok (shopPayload zeroDigest "u1" 200) := by
  rw [verifyApproval_eq_ok_iff]
  exact ⟨signedPayload_tokenOf (by simp) (by decide +kernel) payloadOfText_longPayload, hclaims⟩

/-- A create of the shop's container that carries a token. -/
def presentToken (token : String) : ApprovalRun.Event := .present token "shop" zeroDigest "web"

/-- The token is accepted at second 100 and presented again in the same second; before
that second claim is made, the clock moves on and a third request makes its own. -/
def overtaken (short long : String) : List ApprovalRun.Event :=
  [.start true, presentToken short, .claim 0 .whole, presentToken short, .tick 1,
    presentToken long, .claim 1 .whole, .claim 0 .whole]

-- The tokens stay variables here, so that nothing has to evaluate them.
theorem accepted_overtaken {short long : String}
    (hshort : verifyApproval crypto short keys "shop" zeroDigest "web" 100 =
      .ok (shopPayload zeroDigest "t1" 101))
    (hlong : verifyApproval crypto long keys "shop" zeroDigest "web" 101 =
      .ok (shopPayload zeroDigest "u1" 200)) :
    ((ApprovalRun.stopped 100 .absent).after crypto keys (overtaken short long)).accepted =
      [shopPayload zeroDigest "t1" 101, shopPayload zeroDigest "u1" 200, shopPayload zeroDigest "t1" 101] := by
  simp [ApprovalRun.after, overtaken, ApprovalRun.step, ApprovalRun.stopped, presentToken, hshort,
    hlong, ReplayCache.load, ApprovalRun.claimed, ReplayCache.claim, ReplayCache.pruned,
    maxRememberedApprovals]

/-- The overtaken claim is accepted: the token is used twice. -/
theorem accepted_twice_overtaken : UniqueIds shopCrypto [()] ∧
    ¬ (((ApprovalRun.stopped 100 .absent).after shopCrypto [()]
      (overtaken (tokenOf shortPayload) (tokenOf longPayload))).accepted.map (·.jti)).Nodup := by
  have hshort := verify_shortPayload (show claimsFailure (shopPayload zeroDigest "t1" 101) "shop" zeroDigest
    "web" 100 = none by decide)
  have hlong := verify_longPayload (show claimsFailure (shopPayload zeroDigest "u1" 200) "shop" zeroDigest
    "web" 101 = none by decide)
  refine ⟨uniqueIds_shopCrypto, ?_⟩
  rw [accepted_overtaken hshort hlong]
  decide

/-- Two creates whose claims are made in the other order, a token presented again, and
a restart. -/
def inTime (short long : String) : List ApprovalRun.Event :=
  [.start true, presentToken short, presentToken long, .claim 1 .whole, .claim 0 .whole,
    presentToken short, .claim 0 .whole, .stop, .tick 1, .start true, presentToken short]

theorem keepsWaiting_inTime {short long : String}
    (hshort : verifyApproval crypto short keys "shop" zeroDigest "web" 100 =
      .ok (shopPayload zeroDigest "t1" 101))
    (hlong : verifyApproval crypto long keys "shop" zeroDigest "web" 100 =
      .ok (shopPayload zeroDigest "u1" 200)) :
    ApprovalRun.KeepsWaiting crypto keys (.stopped 100 .absent) (inTime short long) := by
  simp [ApprovalRun.KeepsWaiting, ApprovalRun.keepsWaiting, inTime, ApprovalRun.step,
    ApprovalRun.stopped, presentToken, hshort, hlong, ReplayCache.load, ApprovalRun.claimed,
    ReplayCache.claim, ReplayCache.pruned, maxRememberedApprovals]

theorem accepted_once_inTime :
    (((ApprovalRun.stopped 100 .absent).after shopCrypto [()]
      (inTime (tokenOf shortPayload) (tokenOf longPayload))).accepted.map (·.jti)).Nodup := by
  have hshort := verify_shortPayload (show claimsFailure (shopPayload zeroDigest "t1" 101) "shop" zeroDigest
    "web" 100 = none by decide)
  have hlong := verify_longPayload (show claimsFailure (shopPayload zeroDigest "u1" 200) "shop" zeroDigest
    "web" 100 = none by decide)
  exact accepted_once_of_keepsWaiting shopCrypto [()] uniqueIds_shopCrypto 100 .absent
    (inTime (tokenOf shortPayload) (tokenOf longPayload)) (keepsWaiting_inTime hshort hlong)

end Turbopaneld.DockerGate
