/-
# The outgoing side of a signed session

Most frames go straight to the socket.  A report is signed first, and whatever is sent while
it is being signed waits behind it, in a chain of promises with a counter that says when the
chain is empty again.  A report that comes before the control plane's feature list is held.

The model keeps, beside what the source keeps, what was handed to the session and what became
of it.
-/

import Turbopaneld.Instance.ReportSigning
import Turbopaneld.Machines.Runs

namespace Turbopaneld.Instance

/-- `MAX_HELD_REPORTS`. -/
def maxHeldReports : ℕ := 64

/-- What `reportSigning` of the options answers now. -/
structure ReportSigning where
  /-- The key id of `key()`, if there is a key. -/
  key : Option String
  enabled : Bool
  /-- `known()`, where the options have it. -/
  known : Option Bool

/-- What becomes of a frame that is handed to the session. -/
inductive Fate
  | passed
  | held
  /-- Dropped: too many are held. -/
  | dropped
deriving DecidableEq, Repr

structure Frame where
  data : SendData
  fate : Fate

/-- What goes to the socket for a frame. -/
inductive Wire
  | asGiven
  /-- Signing failed, and the frame goes as it is. -/
  | signingFailed
  | signed (text : String)
deriving DecidableEq, Repr

/-- The promise that a queued send waits for. -/
inductive Ready
  | signing (unsigned : String)
  | settled (wire : Wire)
deriving DecidableEq, Repr

structure Waiting where
  frame : Frame
  ready : Ready

/-- A frame that went to the socket, with what was known of the control plane then. -/
structure Sent where
  frame : Frame
  wire : Wire
  signing : Option ReportSigning

structure Outgoing where
  /-- The id of the verified session. -/
  session : Option String
  closed : Bool
  /-- `ws.readyState === WebSocket.OPEN`. -/
  isOpen : Bool
  reportSigning : Option ReportSigning
  nowMs : ℕ
  /-- `#queued`. -/
  queued : ℕ
  /-- `#outbound`: the sends that have not gone to the socket. -/
  chain : List Waiting
  /-- The send before them went to the socket, and its `finally` has not run. -/
  finishing : Bool
  /-- `#held`. -/
  held : List Frame
  sent : List Sent
  /-- Every frame handed to the session. -/
  given : List Frame

namespace Outgoing

/-- `realSend`. -/
def realSend (s : Outgoing) (frame : Frame) (wire : Wire) : Outgoing :=
  { s with sent := s.sent ++ [⟨frame, wire, s.reportSigning⟩] }

/-- `#holdsReport`. -/
def holdsReport (s : Outgoing) : SendData → Bool
  | .binary _ => false
  | .text text _ =>
    match s.reportSigning with
    | none => false
    | some signer =>
      s.session.isSome && signer.known.any (!·) && mayBeSignedReport text && signer.key.isSome

/-- `#hold`. -/
def hold (s : Outgoing) (frame : Frame) : Outgoing :=
  if maxHeldReports ≤ s.held.length then s else { s with held := s.held ++ [frame] }

/-- `#reportSigningFor`: what the send waits for; `none` to send the frame as it is. -/
def reportSigningFor (s : Outgoing) : SendData → Option Ready
  | .binary _ => none
  | .text text parsed =>
    match s.reportSigning, s.session with
    | some signer, some sessionId =>
      if !mayBeSignedReport text || !signer.enabled then none
      else
        signer.key.map fun keyId =>
          match signReportFrame parsed ⟨sessionId, keyId, s.nowMs⟩ with
          | .unchanged => .settled .asGiven
          | .refused _ => .settled .signingFailed
          | .challenge unsigned _ => .signing unsigned
    | _, _ => none

/-- `#sendVerified`. -/
def sendVerified (s : Outgoing) (frame : Frame) : Outgoing :=
  if s.holdsReport frame.data then s.hold frame
  else
    match s.reportSigningFor frame.data with
    | none =>
      if s.queued = 0 then s.realSend frame .asGiven
      else
        { s with queued := s.queued + 1, chain := s.chain ++ [⟨frame, .settled .asGiven⟩] }
    | some ready => { s with queued := s.queued + 1, chain := s.chain ++ [⟨frame, ready⟩] }

/-- What becomes of a frame that is handed over now. -/
def fateOf (s : Outgoing) (data : SendData) : Fate :=
  if s.holdsReport data then if maxHeldReports ≤ s.held.length then .dropped else .held
  else .passed

/-- The socket's own `send`, as `start` replaced it. -/
def send (s : Outgoing) (data : SendData) : Outgoing :=
  if s.session.isSome && !s.closed then
    let frame := ⟨data, s.fateOf data⟩
    sendVerified { s with given := s.given ++ [frame] } frame
  else s

def peerFeaturesKnown (s : Outgoing) : Outgoing :=
  if s.closed || s.session.isNone then { s with held := [] }
  else s.held.foldl sendVerified { s with held := [] }

/-- The signature of a report is there, or failed. -/
def settle (s : Outgoing) (i : ℕ) (sig : Option String) : Option Outgoing :=
  match s.chain[i]? with
  | some ⟨frame, .signing unsigned⟩ =>
    let wire := match sig with
      | some sig => Wire.signed (signedFrame unsigned sig)
      | none => .signingFailed
    some { s with chain := s.chain.set i ⟨frame, .settled wire⟩ }
  | _ => none

/-- The first send of the chain has what it waited for. -/
def sendNext (s : Outgoing) : Option Outgoing :=
  match s.finishing, s.chain with
  | false, ⟨frame, .settled wire⟩ :: rest =>
    let s' := { s with chain := rest, finishing := true }
    some (if !s.closed && s.isOpen then s'.realSend frame wire else s')
  | _, _ => none

/-- The `finally` of a send. -/
def finish (s : Outgoing) : Option Outgoing :=
  if s.finishing then some { s with finishing := false, queued := s.queued - 1 } else none

/-! ## Runs -/

inductive Event
  | send (data : SendData)
  /-- The attach frame says what the control plane supports. -/
  | attach (signedReports : Bool)
  | peerFeaturesKnown
  | settle (i : ℕ) (sig : Option String)
  | sendNext
  | finish
  /-- The clock is set, to any time. -/
  | clock (nowMs : ℕ)

def step (s : Outgoing) : Event → Option Outgoing
  | .send data => some (s.send data)
  | .attach signedReports =>
    some { s with
      reportSigning := s.reportSigning.map fun signer =>
        { signer with enabled := signedReports, known := signer.known.map fun _ => true } }
  | .peerFeaturesKnown => some s.peerFeaturesKnown
  | .settle i sig => s.settle i sig
  | .sendNext => s.sendNext
  | .finish => s.finish
  | .clock nowMs => some { s with nowMs }

/-- A session whose hello has just verified, on an open socket and with a daemon key.  What the
features of the last session said may still stand. -/
def verifiedOpen (sessionId keyId : String) (stale : Bool) (nowMs : ℕ) : Outgoing where
  session := some sessionId
  closed := false
  isOpen := true
  reportSigning := some ⟨some keyId, stale, some false⟩
  nowMs
  queued := 0
  chain := []
  finishing := false
  held := []
  sent := []
  given := []

/-- Every attach frame of the session has the same feature list. -/
def listing (signedReports : Bool) (_ : Outgoing) : Event → Prop
  | .attach found => found = signedReports
  | _ => True

end Outgoing

end Turbopaneld.Instance
