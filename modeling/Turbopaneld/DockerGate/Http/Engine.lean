/-
# The engine's reader, and agreement with the gate

The Docker engine serves its API with Go's `net/http`.  Its reader is not part of
this repository; `Engine.readRequest` states the behaviour the gate relies on and
is deliberately more lenient about lines than the gate: a line ends at the first
line feed with an optional carriage return before it, text after `;` in a
chunk-size line is ignored, and a section of lines ends at the first empty one.
The framing fields follow the outcomes the repository records for
`net/http` (one `chunked` coding, equal decimal lengths, no coding on HTTP/1.0).
The engine's resource limits are left out.

The gate's own line rule is stricter about heads but looser about bodies, and
`PlainStream` names what has to hold of a stream for the two readings to agree.
-/

import Mathlib.Algebra.Ring.Nat
import Turbopaneld.DockerGate.Http.Body

namespace Turbopaneld.DockerGate

open Programs Sequences

namespace Engine

/-- A line's text without the optional carriage return at its end. -/
def dropCr (text : Bytes) : Bytes := if text.getLast? = some 13 then text.dropLast else text

/-- The first line of a stream, and what follows it. -/
def line (stream : Bytes) : Option (Bytes × Bytes) :=
  (cutThrough [10] stream).map fun cut => (dropCr cut.1.dropLast, cut.2)

/-- The lines in front of the first empty line, and what follows that line.
`current` is the part of the present line already seen. -/
def blankEnded (current : Bytes) : Bytes → Option (List Bytes × Bytes)
  | [] => none
  | b :: rest =>
      if b = 10 then
        if dropCr current = [] then some ([], rest)
        else (blankEnded [] rest).map fun cut => (dropCr current :: cut.1, cut.2)
      else blankEnded (current ++ [b]) rest

/-- A header field of a line. -/
def field (text : Bytes) : Option Header :=
  let name := text.takeWhile (· ≠ 58)
  if name = text then none else some (name, trimOws (text.drop (name.length + 1)))

/-- A `Content-Length` value. -/
def contentLength (value : Bytes) : Option ℕ :=
  let digits := trimOws value
  if digits ≠ [] ∧ digits.all isDigit ∧ decimalValue digits < 2 ^ 63 then
    some (decimalValue digits)
  else none

/-- How the body of a request is delimited. -/
def framing (version : Bytes) (headers : List Header) : Option Framing :=
  let codings := if version = ascii "HTTP/1.0" then [] else fieldValues headers "transfer-encoding"
  match codings, fieldValues headers "content-length" with
  | [], [] => some .none
  | [], value :: more =>
      if more.all fun other => trimOws other == trimOws value then
        (contentLength value).map .length
      else none
  | [coding], _ => if toLowerCase (trimOws coding) = ascii "chunked" then some .chunked else none
  | _, _ => none

/-- The white space trimmed off the end of a chunk-size line. -/
def isSpace (b : UInt8) : Bool := isOws b || b == 10 || b == 13

/-- The size on a chunk-size line; text after `;` is ignored. -/
def chunkSize (text : Bytes) : Option ℕ :=
  let digits := (text.rdropWhile isSpace).takeWhile (· ≠ 59)
  if digits ≠ [] ∧ digits.all isHexDigit then some (hexValue digits) else none

/-- A chunked body's payload and what follows the body. -/
def chunked : ℕ → Bytes → Option (Bytes × Bytes)
  | 0, _ => none
  | fuel + 1, stream => do
      let (text, rest) ← line stream
      let size ← chunkSize text
      if size = 0 then
        let (_, left) ← blankEnded [] rest
        return ([], left)
      else if (rest.drop size).take 2 = crlf then
        let (payload, left) ← chunked fuel (rest.drop (size + 2))
        return (rest.take size ++ payload, left)
      else none

/-- A request as the engine has read it. -/
structure Request where
  method : Bytes
  target : Bytes
  version : Bytes
  headers : List Header
  payload : Bytes
  deriving DecidableEq, Repr

/-- The payload of a body of the given framing, and what follows it. -/
def body (framing : Framing) (stream : Bytes) : Option (Bytes × Bytes) :=
  match framing with
  | .none => some ([], stream)
  | .length n => if n ≤ stream.length then some (stream.take n, stream.drop n) else none
  | .chunked => chunked stream.length stream
  | .eof => none

/-- The first request on a connection, and the bytes left over for the next one. -/
def readRequest (stream : Bytes) : Option (Request × Bytes) := do
  let (lines, rest) ← blankEnded [] stream
  match lines with
  | [] => none
  | requestLine :: fieldLines =>
      match requestLine.splitOn 32 with
      | [method, target, version] =>
          let headers ← fieldLines.mapM field
          let framing ← framing version headers
          let (payload, left) ← body framing rest
          return (⟨method, target, version, headers, payload⟩, left)
      | _ => none

end Engine

/-! ## One request through the gate -/

/-- The body of one request: `relayChunked` with the capture for a chunked one,
`relayBody` otherwise. -/
def relayRequestBody (capture : Option ChunkCapture) : Framing → RelayM (Option ChunkCapture)
  | .chunked => relayChunked capture
  | framing => do
      relayBody framing
      return capture

/-- What the gate accepted. -/
structure Accepted where
  head : RequestHead
  framing : Framing
  capture : Option ChunkCapture
  deriving DecidableEq, Repr

/-- Read one head, decide its framing and relay head and body; `none` at a clean
end of the stream. -/
def relayRequest (capture : Option ChunkCapture) : RelayM (Option Accepted) := do
  match ← BufferedReader.readHead with
  | none => return none
  | some raw =>
      let head ← liftExcept (parseRequestHead raw)
      let framing ← liftExcept (requestFraming head)
      writeAll raw
      let capture' ← relayRequestBody capture framing
      return some ⟨head, framing, capture'⟩

/-- Whatever the gate accepts from `start` as one request, the engine reads from
the relayed bytes as that one request, with the payload the gate read and nothing
left over. -/
def FramingAgrees (start : Relay) (capture : Option ChunkCapture) : Prop :=
  ∀ accepted after, relayRequest capture start = (.ok (some accepted), after) →
    ∃ raw payload, BodyOf accepted.framing raw payload ∧
      Captured capture accepted.capture (if accepted.framing = .chunked then payload else []) ∧
      start.reader.pending = accepted.head.raw ++ raw ++ after.reader.pending ∧
      after.sink.written = start.sink.written ++ (accepted.head.raw ++ raw) ∧
      Engine.readRequest (accepted.head.raw ++ raw) =
        some (⟨accepted.head.method, accepted.head.target, accepted.head.version,
          accepted.head.headers, payload⟩, [])

end Turbopaneld.DockerGate
