/-
# Frames keep their order, and reports wait

Whatever is handed to a verified session and however long signing takes, what goes to the
socket and what waits in the chain are, in this order, the frames that were handed over, and
no report goes out before the feature list is known.
-/

import Turbopaneld.Instance.Outgoing

namespace Turbopaneld.Instance

open Machines (Reaches)

namespace Outgoing

/-- What was passed on to the socket: the frames that went out and those that wait. -/
def line (s : Outgoing) : List Frame := s.sent.map Sent.frame ++ s.chain.map Waiting.frame

def ofFate (fate : Fate) (frames : List Frame) : List Frame :=
  frames.filter fun frame => frame.fate = fate

end Outgoing

/-- The feature list is known. -/
def Knows (signing : Option ReportSigning) : Prop :=
  ∃ signer, signing = some signer ∧ signer.known = some true

/-- The control plane lists signed reports. -/
def Lists (signing : Option ReportSigning) : Prop :=
  ∃ signer, signing = some signer ∧ signer.enabled = true

/-- A frame that goes out at its time: a report, and one that was held, once the feature list is
known, and a report not as it was given where the control plane lists signed reports. -/
structure GoesWell (sent : Sent) : Prop where
  known : sent.frame.fate = .held ∨ sent.frame.data.IsReport → Knows sent.signing
  signed : sent.frame.data.IsReport → Lists sent.signing → sent.wire ≠ .asGiven

/-- The text has the marker of a report. -/
def SendData.marked : SendData → Bool
  | .binary _ => false
  | .text body _ => mayBeSignedReport body

theorem SendData.IsReport.marked {data : SendData} (h : data.IsReport) : data.marked = true := by
  obtain ⟨fields, type, rfl, hlookup, htype⟩ := h
  exact mayBeSignedReport_of_isReport hlookup htype

/-- A report is signed, or cannot be. -/
theorem SendData.IsReport.signing {fields : List (String × DockerGate.Json)} {type : String}
    (hlookup : fields.lookup "type" = some (.string type)) (htype : type ∈ signedReportTypes)
    (ctx : SigningContext) : signReportFrame (some (.object fields)) ctx ≠ .unchanged := by
  have hrecord : reportRecord (some (.object fields)) = some ⟨type, fields⟩ := by
    rw [reportRecord, hlookup]
    exact if_pos (List.contains_iff_mem.mpr htype)
  rw [signReportFrame, hrecord]
  dsimp only
  split
  · exact nofun
  · exact nofun

namespace Outgoing

/-! ## One frame -/

/-- An open session with a key. -/
structure Opened (signedReports : Bool) (s : Outgoing) : Prop where
  session : s.session.isSome = true
  closed : s.closed = false
  isOpen : s.isOpen = true
  signer : ∃ keyId enabled known, s.reportSigning = some ⟨some keyId, enabled, some known⟩ ∧
    (known = true → enabled = signedReports)

variable {signedReports : Bool} {s s' : Outgoing} {frame : Frame}

/-- Only what the session is about matters to that. -/
theorem Opened.congr (h : Opened signedReports s)
    (hsame : s' = { s' with session := s.session, closed := s.closed, isOpen := s.isOpen
                            reportSigning := s.reportSigning }) : Opened signedReports s' := by
  rw [hsame]
  exact ⟨h.session, h.closed, h.isOpen, h.signer⟩

theorem Opened.holdsReport_iff (h : Opened signedReports s) (data : SendData) :
    s.holdsReport data = true ↔ data.marked = true ∧ ¬Knows s.reportSigning := by
  obtain ⟨keyId, enabled, known, hsigner, -⟩ := h.signer
  cases data with
  | binary bytes => simp [holdsReport, SendData.marked]
  | text text parsed =>
    cases known with
    | true => simp [holdsReport, hsigner, Knows]
    | false => simp [holdsReport, hsigner, Knows, SendData.marked, h.session]

/-- The promise that a report waits for does not send it as it is. -/
theorem reportSigningFor_of_isReport (h : Opened signedReports s) {data : SendData}
    (hreport : data.IsReport) (hlists : Lists s.reportSigning) :
    ∃ ready, s.reportSigningFor data = some ready ∧ ready ≠ .settled .asGiven := by
  obtain ⟨keyId, enabled, known, hsigner, -⟩ := h.signer
  obtain ⟨sessionId, hsession⟩ := Option.isSome_iff_exists.mp h.session
  obtain ⟨signer, hsame, henabled⟩ := hlists
  obtain rfl := Option.some.inj (hsigner.symm.trans hsame)
  have hmarked := hreport.marked
  obtain ⟨fields, type, rfl, hlookup, htype⟩ := hreport
  dsimp only at henabled
  subst henabled
  change mayBeSignedReport _ = true at hmarked
  have hsigning := SendData.IsReport.signing hlookup htype ⟨sessionId, keyId, s.nowMs⟩
  rw [SendData.ofMessage, reportSigningFor, hsigner, hsession]
  simp only [hmarked, Bool.not_true, Bool.or_false, Bool.false_eq_true, if_false, Option.map_some,
    Option.some.injEq, exists_eq_left']
  cases hcase : signReportFrame (some (.object fields)) ⟨sessionId, keyId, s.nowMs⟩ with
  | unchanged => exact absurd hcase hsigning
  | refused message => exact nofun
  | challenge unsigned input => exact nofun

/-- What `sendVerified` does with a frame it does not hold. -/
structure PassesOn (s : Outgoing) (frame : Frame) (s' : Outgoing) : Prop where
  line : s'.line = s.line ++ [frame]
  same : s' = { s with sent := s'.sent, chain := s'.chain, queued := s'.queued }
  queued : s'.queued = s'.chain.length + s'.finishing.toNat
  waiting : ∀ waiting ∈ s'.chain, waiting ∈ s.chain ∨ waiting.frame = frame ∧
    (frame.data.IsReport → Lists s.reportSigning → waiting.ready ≠ .settled .asGiven)
  sent : ∀ sent ∈ s'.sent, sent ∈ s.sent ∨ sent.frame = frame ∧ sent.signing = s.reportSigning ∧
    (frame.data.IsReport → ¬Lists s.reportSigning)

theorem sendVerified_passesOn (h : Opened signedReports s)
    (hqueued : s.queued = s.chain.length + s.finishing.toNat)
    (hholds : s.holdsReport frame.data = false) : s.PassesOn frame (s.sendVerified frame) := by
  have hend : ∀ ready : Ready,
      (frame.data.IsReport → Lists s.reportSigning → ready ≠ .settled .asGiven) →
      s.PassesOn frame
        { s with queued := s.queued + 1, chain := s.chain ++ [⟨frame, ready⟩] } := by
    intro ready hready
    refine ⟨?_, rfl, ?_, ?_, fun sent hsent => .inl hsent⟩
    · simp [Outgoing.line]
    · simp only [List.length_append, List.length_singleton]
      omega
    · intro waiting hwaiting
      rcases List.mem_append.mp hwaiting with hold | hnew
      · exact .inl hold
      · obtain rfl := List.mem_singleton.mp hnew
        exact .inr ⟨rfl, hready⟩
  rw [sendVerified, if_neg (by simp [hholds])]
  cases hsigning : s.reportSigningFor frame.data with
  | some ready =>
    refine hend ready fun hreport hlists => ?_
    obtain ⟨ready', hready', hne⟩ := reportSigningFor_of_isReport h hreport hlists
    rw [hsigning] at hready'
    obtain rfl := Option.some.inj hready'
    exact hne
  | none =>
    have hunlisted : frame.data.IsReport → ¬Lists s.reportSigning := by
      intro hreport hlists
      obtain ⟨ready, hready, -⟩ := reportSigningFor_of_isReport h hreport hlists
      rw [hsigning] at hready
      cases hready
    dsimp only
    split
    case isTrue hempty =>
      have hchain : s.chain = [] := List.length_eq_zero_iff.mp (by omega)
      refine ⟨?_, rfl, hqueued, fun waiting hwaiting => .inl hwaiting, ?_⟩
      · simp [Outgoing.line, realSend, hchain]
      · intro sent hsent
        rcases List.mem_append.mp hsent with hold | hnew
        · exact .inl hold
        · obtain rfl := List.mem_singleton.mp hnew
          exact .inr ⟨rfl, rfl, hunlisted⟩
    case isFalse => exact hend _ fun hreport hlists => absurd hlists (hunlisted hreport)

/-! ## The invariant -/

/-- What holds of the single frames of a session. -/
structure Sound (signedReports : Bool) (s : Outgoing) : Prop where
  opened : Opened signedReports s
  queued : s.queued = s.chain.length + s.finishing.toNat
  waiting : ∀ waiting ∈ s.chain,
    (waiting.frame.fate = .held ∨ waiting.frame.data.IsReport → Knows s.reportSigning) ∧
    (waiting.frame.data.IsReport → Lists s.reportSigning → waiting.ready ≠ .settled .asGiven)
  sent : ∀ sent ∈ s.sent, GoesWell sent

/-- What was given is where it belongs, with `rest` of the held frames about to be let go. -/
structure Accounts (rest : List Frame) (s : Outgoing) : Prop where
  passed : ofFate .passed s.line = ofFate .passed s.given
  held : ofFate .held s.line ++ (s.held ++ rest) = ofFate .held s.given
  isHeld : ∀ frame ∈ s.held ++ rest, frame.fate = .held ∧ frame.data.marked = true
  room : (s.held ++ rest).length ≤ maxHeldReports

@[simp]
theorem ofFate_append (fate : Fate) (front back : List Frame) :
    ofFate fate (front ++ back) = ofFate fate front ++ ofFate fate back := List.filter_append _ _

theorem ofFate_singleton_self (frame : Frame) : ofFate frame.fate [frame] = [frame] := by
  simp [ofFate]

theorem ofFate_singleton_of_ne {fate : Fate} (h : frame.fate ≠ fate) :
    ofFate fate [frame] = [] := by
  simp [ofFate, h]

/-- A frame that is passed on at its time. -/
theorem Sound.passOn (h : Sound signedReports s) (hpass : s.PassesOn frame s')
    (hknown : frame.fate = .held ∨ frame.data.IsReport → Knows s.reportSigning) :
    Sound signedReports s' := by
  obtain ⟨hline, hsame, hqueued, hwaiting, hsent⟩ := hpass
  have hsigning : s'.reportSigning = s.reportSigning := by rw [hsame]
  constructor
  case opened =>
    refine h.opened.congr ?_
    rw [hsame]
  case queued => exact hqueued
  case waiting =>
    intro waiting hmem
    rw [hsigning]
    rcases hwaiting waiting hmem with hold | ⟨rfl, hready⟩
    · exact h.waiting waiting hold
    · exact ⟨hknown, hready⟩
  case sent =>
    intro sent hmem
    rcases hsent sent hmem with hold | ⟨rfl, hthen, hunlisted⟩
    · exact h.sent sent hold
    · refine ⟨fun hwants => ?_, fun hreport hlists => ?_⟩
      · rw [hthen]
        exact hknown hwants
      · rw [hthen] at hlists
        exact absurd hlists (hunlisted hreport)

/-! ## Steps -/

/-- A frame that is given and passed on. -/
theorem Accounts.pass (h : Accounts [] s) (hfate : frame.fate = .passed)
    (hpass : PassesOn { s with given := s.given ++ [frame] } frame s') : Accounts [] s' := by
  have hline : s'.line = s.line ++ [frame] := hpass.line
  have hheld : s'.held = s.held := by rw [hpass.same]
  have hgiven : s'.given = s.given ++ [frame] := by rw [hpass.same]
  have hne : frame.fate ≠ .held := by
    rw [hfate]
    exact nofun
  refine ⟨?_, ?_, ?_, ?_⟩
  · rw [hline, hgiven, ofFate_append, ofFate_append, h.passed]
  · rw [hline, hgiven, hheld, ofFate_append, ofFate_append, ofFate_singleton_of_ne hne,
      List.append_nil, List.append_nil (ofFate .held s.given)]
    exact h.held
  · rw [hheld]
    exact h.isHeld
  · rw [hheld]
    exact h.room

/-- A frame that was held is let go.  No other is held meanwhile. -/
theorem Accounts.letGo {rest : List Frame} (h : Accounts (frame :: rest) s) (hnone : s.held = [])
    (hpass : s.PassesOn frame s') : Accounts rest s' := by
  have hheld : s'.held = [] := by rw [hpass.same, hnone]
  have hgiven : s'.given = s.given := by rw [hpass.same]
  have hfate := (h.isHeld frame (by simp)).1
  have hne : frame.fate ≠ .passed := by
    rw [hfate]
    exact nofun
  refine ⟨?_, ?_, ?_, ?_⟩
  · rw [hpass.line, hgiven, ofFate_append, ofFate_singleton_of_ne hne, List.append_nil]
    exact h.passed
  · have hself := ofFate_singleton_self frame
    rw [hfate] at hself
    rw [hpass.line, hgiven, hheld, ofFate_append, hself, ← h.held, hnone]
    simp
  · intro other hother
    rw [hheld] at hother
    exact h.isHeld other (List.mem_append_right _ (List.mem_cons_of_mem _ hother))
  · have hroom := h.room
    rw [hnone] at hroom
    rw [hheld]
    exact (Nat.le_succ _).trans hroom

/-- A frame that is given and dropped. -/
theorem Accounts.drop (h : Accounts [] s) (hfate : frame.fate = .dropped) :
    Accounts [] { s with given := s.given ++ [frame] } := by
  have hother : ∀ fate, fate ≠ .dropped →
      ofFate fate (s.given ++ [frame]) = ofFate fate s.given := by
    intro fate hne
    rw [ofFate_append, ofFate_singleton_of_ne (by rw [hfate]; exact hne.symm), List.append_nil]
  refine ⟨?_, ?_, h.isHeld, h.room⟩
  · rw [hother .passed nofun]
    exact h.passed
  · rw [hother .held nofun]
    exact h.held

/-- A frame that is given and held. -/
theorem Accounts.hold (h : Accounts [] s) (hfate : frame.fate = .held)
    (hmarked : frame.data.marked = true) (hroom : s.held.length < maxHeldReports) :
    Accounts [] { s with given := s.given ++ [frame], held := s.held ++ [frame] } := by
  have hne : frame.fate ≠ .passed := by
    rw [hfate]
    exact nofun
  have hself := ofFate_singleton_self frame
  rw [hfate] at hself
  have hheld := h.held
  rw [List.append_nil] at hheld
  refine ⟨?_, ?_, ?_, ?_⟩
  · rw [ofFate_append, ofFate_singleton_of_ne hne, List.append_nil]
    exact h.passed
  · rw [ofFate_append, hself, ← hheld, List.append_nil, List.append_assoc]
    rfl
  · intro other hother
    rw [List.append_nil] at hother
    rcases List.mem_append.mp hother with hold | hnew
    · exact h.isHeld other (List.mem_append_left _ hold)
    · obtain rfl := List.mem_singleton.mp hnew
      exact ⟨hfate, hmarked⟩
  · rw [List.append_nil, List.length_append]
    exact hroom

theorem sendVerified_of_holds (hholds : s.holdsReport frame.data = true) :
    s.sendVerified frame = s.hold frame := if_pos hholds

theorem hold_of_room (hroom : s.held.length < maxHeldReports) :
    s.hold frame = { s with held := s.held ++ [frame] } := if_neg (Nat.not_le_of_lt hroom)

theorem hold_of_full (hfull : maxHeldReports ≤ s.held.length) : s.hold frame = s := if_pos hfull

/-- Only what a session is about matters to the single frames. -/
theorem Sound.congr (h : Sound signedReports s)
    (hsame : s' = { s with held := s'.held, given := s'.given }) : Sound signedReports s' := by
  rw [hsame]
  exact ⟨h.opened.congr rfl, h.queued, h.waiting, h.sent⟩

theorem inv_send (h : Sound signedReports s) (haccounts : Accounts [] s) (data : SendData) :
    Sound signedReports (s.send data) ∧ Accounts [] (s.send data) := by
  have hverified : (s.session.isSome && !s.closed) = true := by
    rw [h.opened.session, h.opened.closed]
    rfl
  rw [send, if_pos hverified]
  obtain ⟨frame, hframe⟩ : ∃ frame : Frame, frame = ⟨data, s.fateOf data⟩ := ⟨_, rfl⟩
  rw [← hframe]
  have hgiven : Sound signedReports { s with given := s.given ++ [frame] } := h.congr rfl
  have hsame : { s with given := s.given ++ [frame] }.holdsReport frame.data =
      s.holdsReport data := by rw [hframe]; rfl
  have hfate : frame.fate = s.fateOf data := by rw [hframe]
  have hdata : frame.data = data := by rw [hframe]
  by_cases hholds : s.holdsReport data = true
  · rw [sendVerified_of_holds (hsame.trans hholds)]
    by_cases hfull : maxHeldReports ≤ s.held.length
    · rw [fateOf, if_pos hholds, if_pos hfull] at hfate
      rw [hold_of_full (s := { s with given := s.given ++ [frame] }) hfull]
      exact ⟨hgiven, haccounts.drop hfate⟩
    · rw [fateOf, if_pos hholds, if_neg hfull] at hfate
      have hmarked := ((h.opened.holdsReport_iff data).mp hholds).1
      rw [hold_of_room (s := { s with given := s.given ++ [frame] }) (Nat.lt_of_not_le hfull)]
      exact ⟨h.congr rfl, haccounts.hold hfate (hdata ▸ hmarked) (Nat.lt_of_not_le hfull)⟩
  · rw [fateOf, if_neg hholds] at hfate
    have hpass := sendVerified_passesOn hgiven.opened hgiven.queued
      (hsame.trans (Bool.eq_false_iff.mpr hholds))
    refine ⟨hgiven.passOn hpass ?_, haccounts.pass hfate hpass⟩
    rintro (hheld | hreport)
    · rw [hfate] at hheld
      cases hheld
    · by_contra hunknown
      exact hholds ((h.opened.holdsReport_iff data).mpr ⟨hdata ▸ hreport.marked, hunknown⟩)

/-- Letting the held frames go, one after the other. -/
theorem inv_letGo {rest : List Frame} (h : Sound signedReports s) (haccounts : Accounts rest s)
    (hnone : Knows s.reportSigning → s.held = []) :
    Sound signedReports (rest.foldl sendVerified s) ∧ Accounts [] (rest.foldl sendVerified s) ∧
      (Knows s.reportSigning → (rest.foldl sendVerified s).held = []) := by
  induction rest generalizing s with
  | nil => exact ⟨h, haccounts, hnone⟩
  | cons frame rest ih =>
    obtain ⟨hfate, hmarked⟩ := haccounts.isHeld frame (by simp)
    by_cases hknows : Knows s.reportSigning
    · have hpasses : s.holdsReport frame.data = false :=
        Bool.eq_false_iff.mpr fun hholds =>
          ((h.opened.holdsReport_iff frame.data).mp hholds).2 hknows
      have hpass := sendVerified_passesOn h.opened h.queued hpasses
      have hheld : (s.sendVerified frame).held = [] := by
        rw [hpass.same]
        exact hnone hknows
      have hsigning : (s.sendVerified frame).reportSigning = s.reportSigning := by rw [hpass.same]
      have hrest := ih (h.passOn hpass fun _ => hknows) (haccounts.letGo (hnone hknows) hpass)
        fun _ => hheld
      rw [hsigning] at hrest
      exact hrest
    · -- the feature list is still unknown, and the frame is held again
      have hholds := (h.opened.holdsReport_iff frame.data).mpr ⟨hmarked, hknows⟩
      have hroom : s.held.length < maxHeldReports := by
        have hroom := haccounts.room
        rw [List.length_append, List.length_cons] at hroom
        omega
      rw [List.foldl_cons, sendVerified_of_holds hholds, hold_of_room hroom]
      have happend : s.held ++ [frame] ++ rest = s.held ++ frame :: rest := by
        rw [List.append_assoc, List.singleton_append]
      refine ih (h.congr rfl) ⟨haccounts.passed, ?_, ?_, ?_⟩ fun hnow => absurd hnow hknows
      · rw [happend]
        exact haccounts.held
      · rw [happend]
        exact haccounts.isHeld
      · rw [happend]
        exact haccounts.room

theorem inv_peerFeaturesKnown (h : Sound signedReports s) (haccounts : Accounts [] s) :
    Sound signedReports s.peerFeaturesKnown ∧ Accounts [] s.peerFeaturesKnown ∧
      (Knows s.reportSigning → s.peerFeaturesKnown.held = []) := by
  have hopen : (s.closed || s.session.isNone) = false := by
    rw [h.opened.closed, Bool.false_or, ← Option.not_isSome, h.opened.session]
    rfl
  rw [peerFeaturesKnown, if_neg (by rw [hopen]; exact Bool.false_ne_true)]
  have hall : Accounts s.held { s with held := [] } := by
    have hheld := haccounts.held
    have hisHeld := haccounts.isHeld
    have hroom := haccounts.room
    rw [List.append_nil] at hheld hisHeld hroom
    exact ⟨haccounts.passed, hheld, hisHeld, hroom⟩
  exact inv_letGo (h.congr rfl) hall fun _ => rfl

/-- The attach frame changes what is known, and nothing that is known becomes unknown. -/
theorem inv_attach (h : Sound signedReports s) (haccounts : Accounts [] s)
    (hstep : s.step (.attach signedReports) = some s') :
    Sound signedReports s' ∧ Accounts [] s' := by
  obtain rfl := Option.some.inj hstep
  obtain ⟨keyId, enabled, known, hsigner, hlisted⟩ := h.opened.signer
  have hafter : (s.reportSigning.map fun signer => { signer with
      enabled := signedReports, known := signer.known.map fun _ => true }) =
      some ⟨some keyId, signedReports, some true⟩ := by rw [hsigner]; rfl
  refine ⟨⟨⟨h.opened.session, h.opened.closed, h.opened.isOpen,
    ⟨keyId, signedReports, true, hafter, fun _ => rfl⟩⟩, h.queued, ?_, h.sent⟩,
    haccounts.passed, haccounts.held, haccounts.isHeld, haccounts.room⟩
  intro waiting hmem
  obtain ⟨hknown, hready⟩ := h.waiting waiting hmem
  refine ⟨fun _ => ⟨_, hafter, rfl⟩, fun hreport hlists => hready hreport ?_⟩
  -- a report only waits where the list was known already
  obtain ⟨signer, hsame, hknew⟩ := hknown (.inr hreport)
  rw [hsigner] at hsame
  obtain rfl := Option.some.inj hsame
  obtain ⟨signer, hsame, henabled⟩ := hlists
  obtain rfl := Option.some.inj (hafter.symm.trans hsame)
  exact ⟨_, hsigner, (hlisted (Option.some.inj hknew)).trans henabled⟩

theorem map_set {α β : Type} (f : α → β) {items : List α} {i : ℕ} {old new : α}
    (hold : items[i]? = some old) (hsame : f new = f old) :
    (items.set i new).map f = items.map f := by
  rw [List.map_set, hsame]
  refine List.ext_getElem? fun j => ?_
  by_cases hj : i = j
  · subst hj
    rw [List.getElem?_set_self' , List.getElem?_map, hold]
    rfl
  · rw [List.getElem?_set_ne hj]

theorem inv_settle {i : ℕ} {sig : Option String} (h : Sound signedReports s)
    (haccounts : Accounts [] s) (hstep : s.settle i sig = some s') :
    Sound signedReports s' ∧ Accounts [] s' := by
  rw [settle] at hstep
  split at hstep
  case h_1 frame unsigned hfound =>
    obtain rfl := Option.some.inj hstep
    have hold : ⟨frame, .signing unsigned⟩ ∈ s.chain := List.mem_of_getElem? hfound
    have hline : ∀ wire : Wire, (s.chain.set i ⟨frame, .settled wire⟩).map Waiting.frame =
        s.chain.map Waiting.frame := fun wire => map_set _ hfound rfl
    refine ⟨⟨h.opened.congr rfl, ?_, ?_, h.sent⟩,
      ?_, ?_, haccounts.isHeld, haccounts.room⟩
    · rw [List.length_set]
      exact h.queued
    · intro waiting hmem
      rcases List.mem_or_eq_of_mem_set hmem with hother | rfl
      · exact h.waiting waiting hother
      · refine ⟨(h.waiting _ hold).1, fun _ _ => ?_⟩
        cases sig with
        | none => exact nofun
        | some sig => exact nofun
    · have hpassed := haccounts.passed
      rw [Outgoing.line] at hpassed ⊢
      rw [hline]
      exact hpassed
    · have hheld := haccounts.held
      rw [Outgoing.line] at hheld ⊢
      rw [hline]
      exact hheld
  case h_2 => cases hstep

theorem inv_sendNext (h : Sound signedReports s) (haccounts : Accounts [] s)
    (hstep : s.sendNext = some s') : Sound signedReports s' ∧ Accounts [] s' := by
  rw [sendNext] at hstep
  split at hstep
  case h_1 frame wire rest hfinishing hchain =>
    have hopen : (!s.closed && s.isOpen) = true := by
      rw [h.opened.closed, h.opened.isOpen]
      rfl
    dsimp only at hstep
    rw [if_pos hopen] at hstep
    obtain rfl := Option.some.inj hstep
    have hline : ({ s with chain := rest, finishing := true }.realSend frame wire).line =
        s.line := by
      simp [Outgoing.line, realSend, hchain]
    have hqueued := h.queued
    rw [hchain, hfinishing, List.length_cons] at hqueued
    have hfirst : (⟨frame, .settled wire⟩ : Waiting) ∈ s.chain := by
      rw [hchain]
      exact List.mem_cons_self
    obtain ⟨hknown, hready⟩ := h.waiting _ hfirst
    refine ⟨⟨h.opened.congr rfl, hqueued, ?_, ?_⟩,
      ?_, ?_, haccounts.isHeld, haccounts.room⟩
    · intro waiting hmem
      exact h.waiting waiting (by rw [hchain]; exact List.mem_cons_of_mem _ hmem)
    · intro sent hmem
      rcases List.mem_append.mp hmem with hold | hnew
      · exact h.sent sent hold
      · obtain rfl := List.mem_singleton.mp hnew
        exact ⟨hknown, fun hreport hlists hwire => hready hreport hlists (congrArg _ hwire)⟩
    · rw [hline]
      exact haccounts.passed
    · rw [hline]
      exact haccounts.held
  case h_2 => cases hstep

theorem inv_finish (h : Sound signedReports s) (haccounts : Accounts [] s)
    (hstep : s.finish = some s') : Sound signedReports s' ∧ Accounts [] s' := by
  obtain ⟨hfinishing, hstep⟩ := Option.ite_none_right_eq_some.mp hstep
  obtain rfl := Option.some.inj hstep
  have hqueued := h.queued
  rw [hfinishing] at hqueued
  refine ⟨⟨h.opened.congr rfl, ?_, h.waiting,
    h.sent⟩, haccounts.passed, haccounts.held, haccounts.isHeld, haccounts.room⟩
  rw [hqueued]
  rfl

/-- The invariant of a session. -/
def Inv (signedReports : Bool) (s : Outgoing) : Prop := Sound signedReports s ∧ Accounts [] s

theorem inv_step {event : Event} (h : Inv signedReports s)
    (hlisting : listing signedReports s event) (hstep : s.step event = some s') :
    Inv signedReports s' := by
  obtain ⟨hsound, haccounts⟩ := h
  cases event with
  | send data =>
    obtain rfl := Option.some.inj hstep
    exact inv_send hsound haccounts data
  | attach found =>
    obtain rfl : found = signedReports := hlisting
    exact inv_attach hsound haccounts hstep
  | peerFeaturesKnown =>
    obtain rfl := Option.some.inj hstep
    have hafter := inv_peerFeaturesKnown hsound haccounts
    exact ⟨hafter.1, hafter.2.1⟩
  | settle i sig => exact inv_settle hsound haccounts hstep
  | sendNext => exact inv_sendNext hsound haccounts hstep
  | finish => exact inv_finish hsound haccounts hstep
  | clock nowMs =>
    obtain rfl := Option.some.inj hstep
    exact ⟨⟨hsound.opened.congr rfl, hsound.queued, hsound.waiting, hsound.sent⟩,
      haccounts.passed, haccounts.held, haccounts.isHeld, haccounts.room⟩

/-! ## The chain drains -/

theorem step_finish (hfinishing : s.finishing = true) :
    s.step .finish = some { s with finishing := false, queued := s.queued - 1 } :=
  if_pos hfinishing

/-- The first send of the chain gets its signature. -/
theorem exists_settled {unsigned : String} {rest : List Waiting}
    (hchain : s.chain = ⟨frame, .signing unsigned⟩ :: rest) (sig : Option String) :
    ∃ wire, s.step (.settle 0 sig) =
      some { s with chain := ⟨frame, .settled wire⟩ :: rest } := by
  have hfirst : s.chain[0]? = some ⟨frame, .signing unsigned⟩ := by rw [hchain]; rfl
  rw [step, settle, hfirst, hchain]
  exact ⟨_, rfl⟩

/-- Only the chain moves: signatures come out as `sign` has it, `none` where signing fails. -/
def Draining (sign : String → Option String) (s : Outgoing) : Event → Prop
  | .settle i sig => ∃ frame unsigned,
      s.chain[i]? = some ⟨frame, .signing unsigned⟩ ∧ sig = sign unsigned
  | .sendNext => True
  | .finish => True
  | _ => False

/-- A session on the way to `line`, with nothing of its chain in the middle of a send. -/
structure Drained (line : List Frame) (s : Outgoing) : Prop where
  closed : s.closed = false
  isOpen : s.isOpen = true
  finishing : s.finishing = false
  line : s.line = line

theorem drains_from (sign : String → Option String) {start : Outgoing} {line : List Frame}
    (rest : List Waiting) {s : Outgoing} (hreaches : Reaches step (Draining sign) start s)
    (h : Drained line s) (hchain : s.chain = rest) :
    ∃ s', Reaches step (Draining sign) start s' ∧ Drained line s' ∧ s'.chain = [] := by
  induction rest generalizing s with
  | nil => exact ⟨s, hreaches, h, hchain⟩
  | cons first rest ih =>
    have hsettled : ∃ frame wire t, Reaches step (Draining sign) start t ∧ Drained line t ∧
        t.chain = ⟨frame, .settled wire⟩ :: rest := by
      obtain ⟨frame, ready⟩ := first
      cases ready with
      | settled wire => exact ⟨frame, wire, s, hreaches, h, hchain⟩
      | signing unsigned =>
        have hfirst : s.chain[0]? = some ⟨frame, .signing unsigned⟩ := by rw [hchain]; rfl
        obtain ⟨wire, hstep⟩ := exists_settled hchain (sign unsigned)
        have hallowed : Draining sign s (.settle 0 (sign unsigned)) :=
          ⟨frame, unsigned, hfirst, rfl⟩
        refine ⟨frame, wire, _, hreaches.tail hallowed hstep,
          ⟨h.closed, h.isOpen, h.finishing, ?_⟩, rfl⟩
        rw [← h.line, Outgoing.line, Outgoing.line, hchain]
        rfl
    obtain ⟨frame, wire, t, hreaches, ht, hchain⟩ := hsettled
    have hnext : t.step .sendNext =
        some ({ t with chain := rest, finishing := true }.realSend frame wire) := by
      rw [step, sendNext, ht.finishing, hchain]
      dsimp only
      rw [ht.closed, ht.isOpen]
      rfl
    have hsent := hreaches.tail (a := Event.sendNext) trivial hnext
    refine ih (hsent.tail (a := Event.finish) trivial (step_finish rfl))
      ⟨ht.closed, ht.isOpen, rfl, ?_⟩ rfl
    rw [← ht.line]
    simp [Outgoing.line, realSend, hchain]

/-- Whatever signing gives, everything that was passed on goes out, in its order. -/
theorem drains (h : Opened signedReports s) (sign : String → Option String) :
    ∃ s', Reaches step (Draining sign) s s' ∧ s'.chain = [] ∧ s'.sent.map Sent.frame = s.line := by
  have hfrom : ∃ t, Reaches step (Draining sign) s t ∧ Drained s.line t := by
    by_cases hfinishing : s.finishing = true
    · exact ⟨_, .tail (a := Event.finish) .refl trivial (step_finish hfinishing), h.closed,
        h.isOpen, rfl, rfl⟩
    · exact ⟨s, .refl, h.closed, h.isOpen, Bool.eq_false_iff.mpr hfinishing, rfl⟩
  obtain ⟨t, hreaches, ht⟩ := hfrom
  obtain ⟨s', hreaches, hs', hchain⟩ := drains_from sign t.chain hreaches ht rfl
  refine ⟨s', hreaches, hchain, ?_⟩
  have hline := hs'.line
  rw [Outgoing.line, hchain, List.map_nil, List.append_nil] at hline
  exact hline

/-! ## Runs -/

/-- What holds of a session at any moment: where its frames are, what became of reports, and
what is going to happen to those that wait. -/
structure InOrder (s : Outgoing) : Prop where
  passed : ofFate .passed s.line = ofFate .passed s.given
  held : ofFate .held s.line ++ s.held = ofFate .held s.given
  goesWell : ∀ sent ∈ s.sent, GoesWell sent
  drains : ∀ sign, ∃ s', Reaches step (Draining sign) s s' ∧ s'.chain = [] ∧
    s'.sent.map Sent.frame = s.line
  holds : ∀ data, s.holdsReport data = true → s.held.length < maxHeldReports →
    (s.send data).held = s.held ++ [⟨data, .held⟩]
  letsGo : Knows s.reportSigning → s.peerFeaturesKnown.held = []

theorem holds_send (h : Opened signedReports s) {data : SendData}
    (hholds : s.holdsReport data = true) (hroom : s.held.length < maxHeldReports) :
    (s.send data).held = s.held ++ [⟨data, .held⟩] := by
  have hverified : (s.session.isSome && !s.closed) = true := by
    rw [h.session, h.closed]
    rfl
  have hfate : s.fateOf data = .held := by
    rw [fateOf, if_pos hholds, if_neg (Nat.not_le_of_lt hroom)]
  rw [send, if_pos hverified, hfate]
  have hsend : Outgoing.sendVerified { s with given := s.given ++ [⟨data, .held⟩] } ⟨data, .held⟩ =
      Outgoing.hold { s with given := s.given ++ [⟨data, .held⟩] } ⟨data, .held⟩ :=
    sendVerified_of_holds hholds
  rw [hsend, hold_of_room (s := { s with given := s.given ++ [⟨data, .held⟩] }) hroom]

/-- In every run of a verified open session, frames keep their order, each goes out once, and
no report goes out early or unsigned. -/
theorem inOrder_of_reaches {sessionId keyId : String} {stale : Bool} {nowMs : ℕ}
    (h : Reaches step (listing signedReports) (verifiedOpen sessionId keyId stale nowMs) s) :
    InOrder s := by
  have hstart : Inv signedReports (verifiedOpen sessionId keyId stale nowMs) :=
    ⟨⟨⟨rfl, rfl, rfl, ⟨keyId, stale, false, rfl, nofun⟩⟩, rfl, nofun, nofun⟩, rfl, rfl, nofun,
      Nat.zero_le _⟩
  obtain ⟨hsound, haccounts⟩ := h.invariant hstart fun _ _ _ => inv_step
  have hheld := haccounts.held
  rw [List.append_nil] at hheld
  refine ⟨haccounts.passed, hheld, hsound.sent, drains hsound.opened,
    fun data => holds_send hsound.opened, (inv_peerFeaturesKnown hsound haccounts).2.2⟩

/-- The outcome of a command. -/
def smallOutcome : DockerGate.Json :=
  .object [("type", .string "command-outcome"), ("id", .string "c1")]

def smallPing : DockerGate.Json := .object [("type", .string "ping")]

/-- An outcome before the attach frame, and two other frames around its signing. -/
def heldRun : List Event :=
  [.send (.ofMessage smallOutcome), .send (.ofMessage smallPing), .attach true, .peerFeaturesKnown,
    .send (.ofMessage smallPing), .settle 0 (some "c2ln"), .sendNext, .finish, .sendNext, .finish]

def signedOutcome : String :=
  "\x7b\"type\":\"command-outcome\",\"id\":\"c1\",\"sessionId\":\"s1\",\"iat\":1," ++
    "\"kid\":\"k1\",\"sig\":\"c2ln\"\x7d"

/-- An attach frame in the run lists signed reports. -/
def listsReports (_ : Outgoing) : Event → Bool
  | .attach found => found
  | _ => true

theorem listing_of_listsReports (s : Outgoing) (event : Event) (h : listsReports s event = true) :
    listing true s event := by
  cases event with
  | attach found => exact h
  | _ => trivial

theorem inOrder_of_heldRun :
    ∃ s, Reaches step (listing true) (verifiedOpen "s1" "k1" false 1000) s ∧
      s.sent.map (fun sent => (sent.frame.fate, sent.wire)) =
        [(.passed, .asGiven), (.held, .signed signedOutcome), (.passed, .asGiven)] ∧
      InOrder s := by
  have hends : (Machines.runFrom (fun s event => if listsReports s event then step s event else
      none) (verifiedOpen "s1" "k1" false 1000) heldRun).map (fun s =>
        s.sent.map fun sent => (sent.frame.fate, sent.wire)) =
      some [(.passed, .asGiven), (.held, .signed signedOutcome), (.passed, .asGiven)] := by
    decide +kernel
  obtain ⟨s, hrun, hsent⟩ := Option.map_eq_some_iff.mp hends
  have hreaches : Reaches step (listing true) (verifiedOpen "s1" "k1" false 1000) s :=
    Reaches.refl.of_checked listing_of_listsReports hrun
  exact ⟨s, hreaches, hsent, inOrder_of_reaches hreaches⟩

end Outgoing

end Turbopaneld.Instance
