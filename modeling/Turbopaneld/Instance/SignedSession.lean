/-
# The incoming side of a signed session

The daemon sends its nonce and waits for the signed hello.  Texts are handled one after the
other, each up to where its signature is checked and from there on; the hello timer, a close and
other sends may come in between.

What goes out of the queue of signed reports passes the same check of the session as a plain
send, so here a send is one step.  Beside what the source keeps, the model keeps what was handed
on and what went to the socket.
-/

import Turbopaneld.Instance.SignedFrames
import Turbopaneld.Machines.Runs

namespace Turbopaneld.Instance

open DockerGate (Json)

/-- `UNSIGNED_PONG` -/
def unsignedPong : String := "\x7b\"type\":\"pong\"\x7d"

/-- `PANEL_IDENTITY_CLOSE_CODE` -/
def panelIdentityCloseCode : ℕ := 4403

/-- Why a session ended. -/
inductive Failure
  | refused (reason : String)
  | helloTimeout
  | closedByPanel
  | closedEarly
deriving DecidableEq, Repr

/-- The session of a verified hello. -/
structure LiveSession where
  sessionId : String
  lastSeq : ℕ
deriving DecidableEq, Repr

/-- Where the handling of a text has come to. -/
inductive Handling
  /-- The signature of a hello is being checked. -/
  | hello (raw : String) (nowMs : ℚ)
  /-- The signature of a frame is being checked. -/
  | frame (raw : String) (nowMs : ℚ)
  /-- `onVerified` is awaited. -/
  | verified
deriving DecidableEq, Repr

/-- What went to the socket. -/
inductive Outbound
  | nonce (nonce : String)
  | other
deriving DecidableEq, Repr

/-- A frame without its envelope, which `onFrame` gets as text. -/
abbrev Message := List (String × Json)

/-- `SignedPanelSession` -/
structure SignedPanelSession where
  nonce : String
  session : Option LiveSession
  failure : Option Failure
  closed : Bool
  timer : Bool
  /-- `#chain`: the texts that came and are not handled yet. -/
  waiting : List String
  handling : Option Handling
  pongs : ℕ
  /-- The calls of `onVerified`. -/
  verified : List VerifiedHello
  /-- The calls of `onFrame`. -/
  handed : List Message
  wire : List Outbound
  /-- How many calls there were and how much had gone out when the session ended. -/
  atEnd : Option (ℕ × List Outbound)

namespace SignedPanelSession

/-- `start` -/
def start (nonce : String) : SignedPanelSession where
  nonce := nonce
  session := none
  failure := none
  closed := false
  timer := true
  waiting := []
  handling := none
  pongs := 0
  verified := []
  handed := []
  wire := [.nonce nonce]
  atEnd := none

variable (s : SignedPanelSession)

/-- How often `onVerified` and `onFrame` were called. -/
def calls : ℕ := s.verified.length + s.handed.length

/-- `#closed = true`, and no timer. -/
def close : SignedPanelSession :=
  { s with closed := true, timer := false, atEnd := s.atEnd.or (some (s.calls, s.wire)) }

/-- `#fail` -/
def fail (failure : Failure) : SignedPanelSession := { s.close with failure := some failure }

/-- `#refuse` -/
def refuse (reason : String) : SignedPanelSession := s.fail (.refused reason)

/-- `noteClosed` -/
def noteClosed (code : ℕ) : SignedPanelSession :=
  match s.failure with
  | some _ => s.close
  | none =>
    if code = panelIdentityCloseCode then { s.close with failure := some .closedByPanel }
    else if s.session.isNone then { s.close with failure := some .closedEarly }
    else s.close

/-- What the hello timer runs. -/
def onHelloTimer : SignedPanelSession :=
  if s.session.isSome || s.closed then s else s.fail .helloTimeout

/-- The first text that waits is handled, up to where its signature is checked. -/
def handleNow (nowMs : ℚ) : Option SignedPanelSession :=
  match s.handling, s.waiting with
  | none, raw :: rest =>
    if s.closed || s.failure.isSome then some { s with waiting := rest }
    else if raw = unsignedPong then some { s with waiting := rest, pongs := s.pongs + 1 }
    else if s.session.isNone then
      some { s with waiting := rest, handling := some (.hello raw nowMs) }
    else some { s with waiting := rest, handling := some (.frame raw nowMs) }
  | _, _ => none

/-- The signature of the text that is handled has been checked. -/
def checked (check : SessionCheck) : Option SignedPanelSession :=
  match s.handling, s.session with
  | some (.hello raw nowMs), _ =>
    match verifyHello check raw s.nonce nowMs with
    | .error reason => some { s.refuse ("hello refused: " ++ reason) with handling := none }
    | .ok hello =>
      some
        { s with
          session := some ⟨hello.sessionId, 0⟩
          timer := false
          verified := s.verified ++ [hello]
          handling := some .verified }
  | some (.frame raw nowMs), some live =>
    match verifyEnvelopedFrame check raw live.sessionId live.lastSeq nowMs with
    | .error reason => some { s.refuse ("refused frame: " ++ reason) with handling := none }
    | .ok message =>
      some
        { s with
          session := some { live with lastSeq := live.lastSeq + 1 }
          handed := s.handed ++ [message]
          handling := none }
  | _, _ => none

/-- What may happen. -/
inductive Event
  /-- `handle`: a text arrives, whoever sent it. -/
  | handle (raw : String)
  | handleNow (nowMs : ℚ)
  | checked
  /-- `onVerified` has returned. -/
  | verifiedReturned
  | helloTimer
  | noteClosed (code : ℕ)
  /-- `ws.send`, or a queued send whose turn has come. -/
  | send

/-- One step. -/
def step (check : SessionCheck) : Event → Option SignedPanelSession
  | .handle raw => some { s with waiting := s.waiting ++ [raw] }
  | .handleNow nowMs => s.handleNow nowMs
  | .checked => s.checked check
  | .verifiedReturned =>
    if s.handling = some .verified then some { s with handling := none } else none
  | .helloTimer => if s.timer then some { s.onHelloTimer with timer := false } else none
  | .noteClosed code => some (s.noteClosed code)
  | .send =>
    some (if s.session.isSome && !s.closed then { s with wire := s.wire ++ [.other] } else s)

end SignedPanelSession

end Turbopaneld.Instance
