/-
# Only the control plane's frames, once and in order

Whatever texts arrive, in whatever order, and whatever comes in between: what a session hands on
is what the control plane signed for it under the numbers one, two, three and so on.  Before the
hello has verified nothing goes out but the nonce, and once the session has ended nothing goes
out any more and at most the one text whose signature was being checked is still handed on.
-/

import Mathlib.Data.List.Basic
import Mathlib.Data.Set.Basic
import Turbopaneld.Instance.SignedSession

namespace Turbopaneld.Instance

open DockerGate (Json JsNumber jsNumber numberOf numberOf_toString)
open JavaScript Machines

/-! ## What the control plane signs -/

/-- The texts the pinned key has signed, by what they are for. -/
structure ControlPlane (parse : String → Option Json) where
  hellos : Set String
  frames : Set String
  /-- A path, a line break and a body. -/
  responses : Set String
  /-- Statements that change the key. -/
  rotations : Set String
  /-- A frame is a typed object, written on one line. -/
  typed : ∀ unsigned ∈ frames, '\n' ∉ unsigned.toList ∧ ∃ frame type,
    parseObject parse unsigned = some frame ∧ frame.lookup "type" = some (.string type) ∧
      '\n' ∉ type.toList
  /-- A session has one frame of each number. -/
  once : ∀ first ∈ frames, ∀ second ∈ frames, ∀ frame other sessionId seq,
    parseObject parse first = some frame → parseObject parse second = some other →
      frame.lookup "sessionId" = some (.string sessionId) →
        other.lookup "sessionId" = some (.string sessionId) →
          numberOfJson (frame.lookup "seq") = some seq →
            numberOfJson (other.lookup "seq") = some seq → first = second

variable {parse : String → Option Json}

/-- The texts under the signatures. -/
inductive ControlPlane.Signed (panel : ControlPlane parse) : String → Prop
  | hello {unsigned : String} (h : unsigned ∈ panel.hellos) : Signed panel (helloPrefix ++ unsigned)
  | frame {unsigned type : String} {frame : List (String × Json)} (h : unsigned ∈ panel.frames)
      (hframe : parseObject parse unsigned = some frame)
      (htype : frame.lookup "type" = some (.string type)) :
      Signed panel (framePrefix ++ type ++ "\n" ++ unsigned)
  | response {text : String} (h : text ∈ panel.responses) : Signed panel (httpPrefix ++ text)
  | rotation {text : String} (h : text ∈ panel.rotations) : Signed panel ("tp-rotation\n" ++ text)

/-- The message the control plane signed for a session under a number. -/
def ControlPlane.Signs (panel : ControlPlane parse) (sessionId : String) (seq : ℕ)
    (message : Message) : Prop :=
  ∃ unsigned ∈ panel.frames, ∃ frame, parseObject parse unsigned = some frame ∧
    frame.lookup "sessionId" = some (.string sessionId) ∧
      numberOfJson (frame.lookup "seq") = some (.finite seq) ∧ message = withoutEnvelope frame

/-- The hello the control plane signed for a nonce. -/
def ControlPlane.Greets (panel : ControlPlane parse) (nonce sessionId : String) : Prop :=
  ∃ unsigned ∈ panel.hellos, ∃ hello, parseObject parse unsigned = some hello ∧
    hello.lookup "nonce" = some (.string nonce) ∧
      hello.lookup "sessionId" = some (.string sessionId)

/-- A session has one message of each number. -/
theorem ControlPlane.Signs.unique {panel : ControlPlane parse} {sessionId : String} {seq : ℕ}
    {message other : Message} (h : panel.Signs sessionId seq message)
    (h' : panel.Signs sessionId seq other) : message = other := by
  obtain ⟨unsigned, hmem, frame, hparse, hsession, hseq, rfl⟩ := h
  obtain ⟨unsigned', hmem', frame', hparse', hsession', hseq', rfl⟩ := h'
  obtain rfl := panel.once unsigned hmem unsigned' hmem' frame frame' sessionId _ hparse hparse'
    hsession hsession' hseq hseq'
  rw [Option.some.inj (hparse.symm.trans hparse')]

/-! ## What verifies -/

theorem lookup_of_isText {value : Option Json} {text : String} (h : isText value text = true) :
    value = some (.string text) := by
  unfold isText at h
  split at h
  case h_1 found =>
    obtain rfl := beq_iff_eq.mp h
    rfl
  case h_2 => cases h

theorem append_left_inj_of_text {front first second : String}
    (h : front ++ first = front ++ second) : first = second := by
  have hchars := congrArg String.toList h
  rw [String.toList_append, String.toList_append, List.append_cancel_left_eq] at hchars
  exact String.toList_inj.mp hchars

/-- A text signed as a hello is a hello. -/
theorem ControlPlane.hello_of_signed {panel : ControlPlane parse} {unsigned : String}
    (h : panel.Signed (helloPrefix ++ unsigned)) : unsigned ∈ panel.hellos := by
  generalize htext : helloPrefix ++ unsigned = text at h
  have hchars := congrArg String.toList htext
  cases h with
  | hello hmem => exact append_left_inj_of_text htext ▸ hmem
  | frame => simp [helloPrefix, framePrefix] at hchars
  | response => simp [helloPrefix, httpPrefix] at hchars
  | rotation => simp [helloPrefix] at hchars

/-- A text signed as a frame of its own type is a frame. -/
theorem ControlPlane.frame_of_signed {panel : ControlPlane parse} {unsigned type : String}
    (h : panel.Signed (framePrefix ++ type ++ "\n" ++ unsigned)) : unsigned ∈ panel.frames := by
  generalize htext : framePrefix ++ type ++ "\n" ++ unsigned = text at h
  have hchars := congrArg String.toList htext
  cases h with
  | hello => simp [helloPrefix, framePrefix] at hchars
  | response => simp [framePrefix, httpPrefix] at hchars
  | rotation => simp [framePrefix] at hchars
  | @frame signed signedType frame hmem hparse htype =>
    obtain ⟨hline, frame', type', hparse', htype', htypeLine⟩ := panel.typed signed hmem
    obtain rfl := Option.some.inj (hparse.symm.trans hparse')
    obtain rfl := Json.string.inj (Option.some.inj (htype.symm.trans htype'))
    -- the signed text has one line break behind the prefix
    have hbreak : type.toList ++ '\n' :: unsigned.toList =
        signedType.toList ++ '\n' :: signed.toList := by
      simpa [String.toList_append, List.append_assoc] using hchars
    obtain ⟨-, -, hsame⟩ := (List.append_cons_inj_of_notMem htypeLine hline).mp hbreak.symm
    exact String.toList_inj.mp hsame ▸ hmem

section

variable {check : SessionCheck} {panel : ControlPlane check.parse}

/-- The pinned key signs for the control plane alone. -/
def SessionCheck.Trusts (check : SessionCheck) (panel : ControlPlane check.parse) : Prop :=
  ∀ input sig, check.verifies input sig = true → panel.Signed input

theorem greets_of_verifyHello (htrust : check.Trusts panel) {raw nonce : String} {nowMs : ℚ}
    {hello : VerifiedHello} (h : verifyHello check raw nonce nowMs = .ok hello) :
    panel.Greets nonce hello.sessionId := by
  unfold verifyHello at h
  split at h
  case h_1 => cases h
  case h_2 unsigned sig _ =>
    split at h
    case isTrue => cases h
    case isFalse hverifies =>
      rw [Bool.not_eq_true', Bool.not_eq_false] at hverifies
      split at h
      case h_1 => cases h
      case h_2 fields hparse =>
        have hfields : fields.lookup "nonce" = some (.string nonce) ∧
            fields.lookup "sessionId" = some (.string hello.sessionId) := by
          unfold helloFields at h
          split_ifs at h with htype hnonce hkid hiat hkeyset
          split at h
          case h_2 => cases h
          case h_1 sessionId hsession =>
            split at h
            case isTrue => cases h
            case isFalse =>
              rw [← Except.ok.inj h]
              rw [Bool.not_eq_true', Bool.not_eq_false] at hnonce
              exact ⟨lookup_of_isText hnonce, hsession⟩
        exact ⟨unsigned, ControlPlane.hello_of_signed (htrust _ _ hverifies), fields, hparse,
          hfields⟩

theorem signs_of_verifyEnvelopedFrame (htrust : check.Trusts panel) {raw sessionId : String}
    {lastSeq : ℕ} {nowMs : ℚ} {message : Message}
    (h : verifyEnvelopedFrame check raw sessionId lastSeq nowMs = .ok message) :
    panel.Signs sessionId (lastSeq + 1) message := by
  unfold verifyEnvelopedFrame at h
  split at h
  case h_1 => cases h
  case h_2 unsigned sig _ =>
    split at h
    case h_1 => cases h
    case h_2 frame hparse =>
      split at h
      case h_2 => cases h
      case h_1 type htype =>
        split_ifs at h with hverifies hsession hseq hkid hiat
        rw [Bool.not_eq_true', Bool.not_eq_false] at hverifies hsession
        rw [not_not] at hseq
        refine ⟨unsigned, ControlPlane.frame_of_signed (htrust _ _ hverifies), frame, hparse,
          lookup_of_isText hsession, ?_, (Except.ok.inj h).symm⟩
        rw [hseq, Nat.cast_add, Nat.cast_one]

/-- What the control plane signs for a nonce, under a pinned key and in time, is its hello. -/
theorem verifyHello_of_signed {raw unsigned sig nonce : String} {hello : List (String × Json)}
    {nowMs : ℚ} {sessionId : String} (hsplit : splitSignature raw = some (unsigned, sig))
    (hverifies : check.verifies (helloPrefix ++ unsigned) sig = true)
    (hparse : parseObject check.parse unsigned = some hello)
    (htype : hello.lookup "type" = some (.string "hello"))
    (hnonce : hello.lookup "nonce" = some (.string nonce))
    (hkid : hello.lookup "kid" = some (.string check.kid))
    (hpin : pinAccepts check.pin check.kid = true)
    (hiat : iatFresh (hello.lookup "iat") nowMs = true)
    (hkeyset : keysetAtLeast check.pin.keyset (hello.lookup "keyset") = true)
    (hsession : hello.lookup "sessionId" = some (.string sessionId))
    (hlength : lengthInUnits sessionId ≠ 0 ∧ lengthInUnits sessionId ≤ 64) :
    verifyHello check raw nonce nowMs = .ok ⟨sessionId, check.kid,
      numberOfJson (hello.lookup "heartbeatSeconds"), Json.stringList (hello.lookup "urls")⟩ := by
  simp only [verifyHello, hsplit, hverifies, hparse, helloFields, isText, htype, hnonce, hkid, hpin,
    hiat, hkeyset, hsession, beq_self_eq_true, Bool.not_true, Bool.or_self, Bool.false_eq_true,
    if_false, hlength.1, decide_false, Nat.not_lt.mpr hlength.2]

/-- What the control plane signs for a session under the next number, under a pinned key and in
time, is handed on. -/
theorem verifyEnvelopedFrame_of_signed {raw unsigned sig type sessionId : String}
    {frame : List (String × Json)} {lastSeq : ℕ} {nowMs : ℚ}
    (hsplit : splitSignature raw = some (unsigned, sig))
    (hparse : parseObject check.parse unsigned = some frame)
    (htype : frame.lookup "type" = some (.string type))
    (hverifies : check.verifies (framePrefix ++ type ++ "\n" ++ unsigned) sig = true)
    (hsession : frame.lookup "sessionId" = some (.string sessionId))
    (hseq : numberOfJson (frame.lookup "seq") = some (.finite (lastSeq + 1)))
    (hkid : frame.lookup "kid" = some (.string check.kid))
    (hpin : pinAccepts check.pin check.kid = true)
    (hiat : iatFresh (frame.lookup "iat") nowMs = true) :
    verifyEnvelopedFrame check raw sessionId lastSeq nowMs = .ok (withoutEnvelope frame) := by
  simp only [verifyEnvelopedFrame, hsplit, hparse, htype, hverifies, isText, hsession, hseq, hkid,
    hpin, hiat, beq_self_eq_true, Bool.not_true, Bool.or_self, Bool.false_eq_true, if_false,
    ne_eq, not_true_eq_false]

/-! ## What holds of a session -/

/-- The signature of a text is being checked. -/
def Handling.isChecking : Handling → Bool
  | .hello _ _ | .frame _ _ => true
  | .verified => false

namespace SignedPanelSession

/-- What holds of a session in every run. -/
structure Ordered (panel : ControlPlane check.parse) (nonce : String) (s : SignedPanelSession) :
    Prop where
  ours : s.nonce = nonce
  /-- Before the hello has verified, nothing is handed on and only the nonce goes out. -/
  unverified : s.session = none → s.verified = [] ∧ s.handed = [] ∧ s.wire = [.nonce nonce]
  /-- The control plane greeted this session, and its messages came in order. -/
  ordered : ∀ live, s.session = some live → panel.Greets nonce live.sessionId ∧
    live.lastSeq = s.handed.length ∧
      ∀ i (hi : i < s.handed.length), panel.Signs live.sessionId (i + 1) s.handed[i]
  /-- A hello is checked while there is no session. -/
  hello : ∀ raw nowMs, s.handling = some (.hello raw nowMs) → s.session = none
  ended : s.closed = true ↔ s.atEnd.isSome = true
  /-- After the end nothing goes out, and what was being checked may still be handed on. -/
  after : ∀ calls wire, s.atEnd = some (calls, wire) → s.wire = wire ∧
    (s.calls = calls ∨ s.calls = calls + 1 ∧ s.handling.all (!·.isChecking) = true)

variable {nonce : String} {s s' : SignedPanelSession}

/-- The session ends, or has ended before. -/
theorem Ordered.close (h : s.Ordered panel nonce) (failure : Option Failure)
    (handling : Option Handling) (hhandling : handling = s.handling ∨ handling = none) :
    Ordered panel nonce { s.close with failure := failure, handling := handling } := by
  refine ⟨h.ours, h.unverified, h.ordered, ?_, ?_, ?_⟩
  · intro raw nowMs hhello
    rcases hhandling with rfl | rfl
    · exact h.hello raw nowMs hhello
    · cases hhello
  · change true = true ↔ (s.atEnd.or (some (s.calls, s.wire))).isSome = true
    cases s.atEnd <;> exact ⟨fun _ => rfl, fun _ => rfl⟩
  · intro calls wire hend
    change s.atEnd.or (some (s.calls, s.wire)) = some (calls, wire) at hend
    change s.wire = wire ∧ (s.calls = calls ∨ s.calls = calls + 1 ∧ _)
    cases hbefore : s.atEnd with
    | none =>
      rw [hbefore, Option.none_or] at hend
      obtain ⟨rfl, rfl⟩ := Prod.mk.inj (Option.some.inj hend)
      exact ⟨rfl, Or.inl rfl⟩
    | some before =>
      rw [hbefore, Option.some_or] at hend
      obtain ⟨hwire, hcalls⟩ := h.after calls wire (hbefore.trans hend)
      refine ⟨hwire, hcalls.imp id ?_⟩
      rintro ⟨hcount, hchecking⟩
      refine ⟨hcount, ?_⟩
      rcases hhandling with rfl | rfl
      · exact hchecking
      · rfl

/-- The next text is begun, or dropped. -/
theorem Ordered.handleNow (h : s.Ordered panel nonce) {nowMs : ℚ}
    (hstep : s.handleNow nowMs = some s') : s'.Ordered panel nonce := by
  unfold SignedPanelSession.handleNow at hstep
  split at hstep
  case h_2 => cases hstep
  case h_1 raw rest hidle _ =>
    split_ifs at hstep with hover hpong hsession <;> obtain rfl := Option.some.inj hstep
    · exact ⟨h.ours, h.unverified, h.ordered, h.hello, h.ended, h.after⟩
    · exact ⟨h.ours, h.unverified, h.ordered, h.hello, h.ended, h.after⟩
    all_goals
      -- the session has not ended
      have hopen : s.atEnd = none := by
        rw [Bool.or_eq_true, not_or] at hover
        rw [← Option.not_isSome_iff_eq_none, ← h.ended]
        exact hover.1
    · refine ⟨h.ours, h.unverified, h.ordered, ?_, h.ended, ?_⟩
      · intro _ _ _
        exact Option.isNone_iff_eq_none.mp hsession
      · intro calls wire hend
        cases hopen.symm.trans hend
    · refine ⟨h.ours, h.unverified, h.ordered, ?_, h.ended, ?_⟩
      · intro _ _ hhello
        cases hhello
      · intro calls wire hend
        cases hopen.symm.trans hend

theorem Ordered.checked (htrust : check.Trusts panel) (h : s.Ordered panel nonce)
    (hstep : s.checked check = some s') : s'.Ordered panel nonce := by
  unfold SignedPanelSession.checked at hstep
  split at hstep
  case h_3 => cases hstep
  case h_1 raw nowMs hhandling =>
    split at hstep
    case h_1 reason hrefused =>
      obtain rfl := Option.some.inj hstep
      exact h.close _ none (Or.inr rfl)
    case h_2 hello hverified =>
      obtain rfl := Option.some.inj hstep
      obtain ⟨hnone, hempty, hwire⟩ := h.unverified (h.hello raw nowMs hhandling)
      rw [h.ours] at hverified
      refine ⟨h.ours, ?_, ?_, ?_, h.ended, ?_⟩
      · intro hsession
        cases hsession
      · intro live hlive
        obtain rfl := Option.some.inj hlive
        refine ⟨greets_of_verifyHello htrust hverified, (congrArg List.length hempty).symm, ?_⟩
        intro i hi
        rw [hempty] at hi
        exact absurd hi (Nat.not_lt_zero i)
      · intro _ _ hhello
        cases hhello
      · intro calls wire hend
        obtain ⟨hsame, hcalls⟩ := h.after calls wire hend
        refine ⟨hsame, Or.inr ⟨?_, rfl⟩⟩
        rcases hcalls with hcalls | ⟨-, hchecking⟩
        · rw [← hcalls, SignedPanelSession.calls, SignedPanelSession.calls, List.length_append]
          exact Nat.add_right_comm ..
        · rw [hhandling] at hchecking
          cases hchecking
  case h_2 raw nowMs live hhandling hsession =>
    obtain ⟨hgreets, hlast, hsigned⟩ := h.ordered live hsession
    split at hstep
    case h_1 reason hrefused =>
      obtain rfl := Option.some.inj hstep
      exact h.close _ none (Or.inr rfl)
    case h_2 message hverified =>
      obtain rfl := Option.some.inj hstep
      refine ⟨h.ours, ?_, ?_, ?_, h.ended, ?_⟩
      · intro hnone
        cases hnone
      · intro live' hlive
        obtain rfl := Option.some.inj hlive
        refine ⟨hgreets, ?_, ?_⟩
        · rw [List.length_append, hlast]
          rfl
        · intro i hi
          dsimp only at hi ⊢
          rw [List.length_append, List.length_singleton] at hi
          by_cases hlt : i < s.handed.length
          · rw [List.getElem_append_left hlt]
            exact hsigned i hlt
          · obtain rfl : i = s.handed.length := by omega
            rw [List.getElem_append_right (le_refl _)]
            simp only [Nat.sub_self, List.getElem_singleton]
            rw [← hlast]
            exact signs_of_verifyEnvelopedFrame htrust hverified
      · intro _ _ hhello
        cases hhello
      · intro calls wire hend
        obtain ⟨hsame, hcalls⟩ := h.after calls wire hend
        refine ⟨hsame, Or.inr ⟨?_, rfl⟩⟩
        rcases hcalls with hcalls | ⟨-, hchecking⟩
        · rw [← hcalls, SignedPanelSession.calls, SignedPanelSession.calls, List.length_append]
          exact (Nat.add_assoc ..).symm
        · rw [hhandling] at hchecking
          cases hchecking

theorem Ordered.step (htrust : check.Trusts panel) (h : s.Ordered panel nonce) {event : Event}
    (hstep : s.step check event = some s') : s'.Ordered panel nonce := by
  cases event with
  | handle raw =>
    obtain rfl := Option.some.inj hstep
    exact ⟨h.ours, h.unverified, h.ordered, h.hello, h.ended, h.after⟩
  | handleNow nowMs => exact h.handleNow hstep
  | checked => exact h.checked htrust hstep
  | verifiedReturned =>
    dsimp only [SignedPanelSession.step] at hstep
    split at hstep
    case isFalse => cases hstep
    case isTrue hverified =>
      obtain rfl := Option.some.inj hstep
      refine ⟨h.ours, h.unverified, h.ordered, ?_, h.ended, ?_⟩
      · intro _ _ hhello
        cases hhello
      · intro calls wire hend
        obtain ⟨hsame, hcalls⟩ := h.after calls wire hend
        exact ⟨hsame, hcalls.imp id fun hcount => ⟨hcount.1, rfl⟩⟩
  | helloTimer =>
    dsimp only [SignedPanelSession.step] at hstep
    split at hstep
    case isFalse => cases hstep
    case isTrue =>
      obtain rfl := Option.some.inj hstep
      rw [onHelloTimer]
      split
      · exact ⟨h.ours, h.unverified, h.ordered, h.hello, h.ended, h.after⟩
      · exact h.close _ _ (Or.inl rfl)
  | noteClosed code =>
    obtain rfl := Option.some.inj hstep
    unfold noteClosed
    split
    · exact h.close _ _ (Or.inl rfl)
    · split_ifs
      all_goals exact h.close _ _ (Or.inl rfl)
  | send =>
    obtain rfl := Option.some.inj hstep
    split
    case isFalse => exact h
    case isTrue hsends =>
      rw [Bool.and_eq_true, Bool.not_eq_true'] at hsends
      refine ⟨h.ours, ?_, h.ordered, h.hello, h.ended, ?_⟩
      · intro hnone
        have hsome : s.session.isSome = true := hsends.1
        rw [show s.session = none from hnone] at hsome
        cases hsome
      · intro calls wire hend
        have hclosed : s.closed = true := h.ended.mpr (Option.isSome_iff_exists.mpr ⟨_, hend⟩)
        rw [hsends.2] at hclosed
        cases hclosed

theorem ordered_start (nonce : String) : (start nonce).Ordered panel nonce := by
  refine ⟨rfl, fun _ => ⟨rfl, rfl, rfl⟩, ?_, ?_, ?_, ?_⟩
  · intro live hlive
    cases hlive
  · intro _ _ hhello
    cases hhello
  · exact ⟨fun hclosed => Bool.noConfusion hclosed, fun hsome => Bool.noConfusion hsome⟩
  · intro calls wire hend
    cases hend

/-- Under a key that signs for the control plane alone, a session hands on the control plane's
messages for it, once and in order, whatever texts arrive. -/
theorem ordered_of_reaches (htrust : check.Trusts panel)
    (h : Reaches (fun s => s.step check) (fun _ _ => True) (start nonce) s) :
    s.Ordered panel nonce :=
  h.invariant (ordered_start nonce) fun _ _ _ hs _ hstep => hs.step htrust hstep

end SignedPanelSession

/-! ## A session with one message -/

namespace SignedPanelSession

/-- An object whose members are these. -/
def objectText (members : String) : String := "\x7b" ++ members ++ "\x7d"

def helloText : String :=
  objectText ("\"type\":\"hello\",\"nonce\":\"n\",\"kid\":\"k\",\"iat\":0,\"keyset\":0," ++
    "\"sessionId\":\"s\"")

def pingText : String :=
  objectText "\"type\":\"ping\",\"sessionId\":\"s\",\"seq\":1,\"iat\":0,\"kid\":\"k\""

def oneMessage : SessionCheck where
  parse text :=
    if text = helloText then
      some (.object [("type", .string "hello"), ("nonce", .string "n"), ("kid", .string "k"),
        ("iat", .number "0"), ("keyset", .number "0"), ("sessionId", .string "s")])
    else if text = pingText then
      some (.object [("type", .string "ping"), ("sessionId", .string "s"), ("seq", .number "1"),
        ("iat", .number "0"), ("kid", .string "k")])
    else none
  verifies input sig :=
    sig == "a" && (input == helloPrefix ++ helloText ||
      input == framePrefix ++ "ping" ++ "\n" ++ pingText)
  kid := "k"
  pin := ⟨"k", none, 0⟩

theorem pingText_ne_helloText : pingText ≠ helloText := by
  simp [pingText, helloText, objectText]

theorem splitSignature_objectText (members : String) :
    splitSignature (signedFrame (objectText members) "a") = some (objectText members, "a") := by
  have htext : objectText members = String.ofList (("\x7b" ++ members).toList ++ ['\x7d']) := by
    rw [String.ofList_append, String.ofList_toList]
    rfl
  rw [htext]
  exact splitSignature_signedFrame (by decide) (List.all_eq_true.mp (by decide))

theorem signedFrame_ne_unsignedPong (members : String) :
    signedFrame (objectText members) "a" ≠ unsignedPong := by
  intro heq
  have hpong : splitSignature unsignedPong = none := by decide
  rw [← heq, splitSignature_objectText] at hpong
  cases hpong

theorem numberOf_zero : numberOf "0" = some 0 := by
  have hzero := numberOf_toString (n := 0) (by decide)
  rw [Nat.cast_zero, Int.cast_zero] at hzero
  exact hzero

theorem numberOf_one : numberOf "1" = some 1 := by
  have hone := numberOf_toString (n := 1) (by decide)
  rw [Nat.cast_one, Int.cast_one] at hone
  exact hone

theorem jsNumber_of_numberOf {token : String} {value : ℚ} (h : numberOf token = some value) :
    jsNumber token = .finite value := by
  delta jsNumber
  rw [h]

theorem iatFresh_zero : iatFresh (some (.number "0")) 0 = true := by
  have hskew : |(0 : ℚ) * 1000 - 0| ≤ maxClockSkewMs := by norm_num [maxClockSkewMs]
  rw [iatFresh, numberOf_zero, Option.any_some, Rat.den_zero, decide_eq_true hskew]
  rfl

theorem keysetAtLeast_zero : keysetAtLeast 0 (some (.number "0")) = true := by
  have hzero : numberOfJson (some (.number "0")) = some (.finite 0) :=
    congrArg some (jsNumber_of_numberOf numberOf_zero)
  rw [keysetAtLeast, hzero, Option.any_some]
  exact decide_eq_true (le_refl _)

theorem verifyHello_helloText :
    verifyHello oneMessage (signedFrame helloText "a") "n" 0 = .ok ⟨"s", "k", none, []⟩ := by
  have hverifies : oneMessage.verifies (helloPrefix ++ helloText) "a" = true := by
    simp [oneMessage]
  have hparse : parseObject oneMessage.parse helloText = some [("type", .string "hello"),
      ("nonce", .string "n"), ("kid", .string "k"), ("iat", .number "0"),
      ("keyset", .number "0"), ("sessionId", .string "s")] := by
    simp [oneMessage, parseObject]
  exact verifyHello_of_signed (splitSignature_objectText _) hverifies hparse rfl rfl rfl (by decide)
    iatFresh_zero keysetAtLeast_zero rfl (by decide)

theorem parseObject_pingText : parseObject oneMessage.parse pingText =
    some [("type", .string "ping"), ("sessionId", .string "s"), ("seq", .number "1"),
      ("iat", .number "0"), ("kid", .string "k")] := by
  simp [oneMessage, parseObject, pingText_ne_helloText]

theorem verifyEnvelopedFrame_pingText :
    verifyEnvelopedFrame oneMessage (signedFrame pingText "a") "s" 0 0 =
      .ok [("type", .string "ping")] := by
  have hverifies : oneMessage.verifies (framePrefix ++ "ping" ++ "\n" ++ pingText) "a" = true := by
    simp [oneMessage]
  have hseq : numberOfJson (some (.number "1")) = some (.finite ((0 : ℕ) + 1)) := by
    rw [Nat.cast_zero, zero_add]
    exact congrArg some (jsNumber_of_numberOf numberOf_one)
  exact verifyEnvelopedFrame_of_signed (splitSignature_objectText _) parseObject_pingText rfl
    hverifies rfl hseq rfl (by decide) iatFresh_zero

/-- The control plane that signed these two texts. -/
def onePanel : ControlPlane oneMessage.parse where
  hellos := {helloText}
  frames := {pingText}
  responses := ∅
  rotations := ∅
  typed := by
    rintro unsigned rfl
    exact ⟨by decide, _, "ping", parseObject_pingText, rfl, by decide⟩
  once := by
    rintro first rfl second rfl
    intros
    rfl

theorem oneMessage_trusts : oneMessage.Trusts onePanel := by
  intro input sig hverifies
  simp only [oneMessage, Bool.and_eq_true, Bool.or_eq_true, beq_iff_eq] at hverifies
  obtain ⟨-, rfl | rfl⟩ := hverifies
  · exact .hello rfl
  · exact .frame rfl parseObject_pingText rfl

/-- A hello and one message arrive. -/
def greetedRun (hello message : String) : List Event :=
  [.handle hello, .handleNow 0, .checked, .verifiedReturned, .handle message, .handleNow 0,
    .checked]

theorem handed_of_greetedRun {raw raw' nonce : String} {hello : VerifiedHello} {message : Message}
    (hraw : raw ≠ unsignedPong) (hraw' : raw' ≠ unsignedPong)
    (hhello : verifyHello check raw nonce 0 = .ok hello)
    (hmessage : verifyEnvelopedFrame check raw' hello.sessionId 0 0 = .ok message) :
    ∃ s, runFrom (fun s => step s check) (start nonce) (greetedRun raw raw') = some s ∧
      s.handed = [message] := by
  simp [runFrom, greetedRun, step, start, handleNow, checked, hraw, hraw', hhello, hmessage]

theorem ordered_of_oneMessage : ∃ s,
    runFrom (fun s => step s oneMessage) (start "n")
        (greetedRun (signedFrame helloText "a") (signedFrame pingText "a")) = some s ∧
      s.handed = [[("type", .string "ping")]] ∧ s.Ordered onePanel "n" := by
  obtain ⟨s, hrun, hhanded⟩ := handed_of_greetedRun (signedFrame_ne_unsignedPong _)
    (signedFrame_ne_unsignedPong _) verifyHello_helloText verifyEnvelopedFrame_pingText
  exact ⟨s, hrun, hhanded, ordered_of_reaches oneMessage_trusts (Reaches.refl.of_runFrom hrun)⟩

end SignedPanelSession

end

end Turbopaneld.Instance
