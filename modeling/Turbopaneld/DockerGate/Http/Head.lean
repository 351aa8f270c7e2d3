/-
# Message heads and body framing

The strict head parser of http.ts and the decision how a body is delimited.  Head
bytes become text one to one (`latin1`), so the model keeps the bytes and reads
them as code points.

A head is refused with the `HttpError` the source throws, status and message
included; the order of the checks is the source's.
-/

import Mathlib.Data.List.DropRight
import Turbopaneld.DockerGate.Http.Reader

namespace Turbopaneld.DockerGate

/-- The bytes of an ASCII text. -/
def ascii (text : String) : Bytes := text.toList.map fun c => UInt8.ofNat c.toNat

/-- A header field: name and value. -/
abbrev Header := Bytes × Bytes

/-- A parsed request head; `raw` is what is relayed to the engine. -/
structure RequestHead where
  method : Bytes
  target : Bytes
  version : Bytes
  headers : List Header
  raw : Bytes
  deriving DecidableEq, Repr

/-- A parsed response head. -/
structure ResponseHead where
  version : Bytes
  status : ℕ
  headers : List Header
  raw : Bytes
  deriving DecidableEq, Repr

/-- How a body is delimited. -/
inductive Framing
  | none
  | length (length : ℕ)
  | chunked
  | eof
  deriving DecidableEq, Repr

/-- An `HttpError`. -/
def httpError {α : Type} (status : ℕ) (message : String) : Except Failure α :=
  .error (.http status message)

/-! ## Lines and characters -/

/-- `text.split("\r\n")`. -/
def splitCrlf : Bytes → List Bytes
  | [] => [[]]
  | 13 :: 10 :: rest => [] :: splitCrlf rest
  | b :: rest =>
      match splitCrlf rest with
      | [] => [[b]]
      | line :: lines => (b :: line) :: lines

/-- `splitHeadLines`: the lines of a head, without its closing blank line. -/
def splitHeadLines (raw : Bytes) : Except Failure (List Bytes) :=
  let text := raw.take (raw.length - 4)
  if 0 ∈ text then httpError 400 "NUL in message head"
  else
    let lines := splitCrlf text
    if lines.any fun line => line.contains 10 || line.contains 13 then
      httpError 400 "bare CR or LF in message head"
    else .ok lines

/-- `isOws`: space or tab. -/
def isOws (b : UInt8) : Bool := b == 32 || b == 9

/-- `trimOws`. -/
def trimOws (value : Bytes) : Bytes := (value.dropWhile isOws).rdropWhile isOws

/-- `toLowerCase` of a code point below 256. -/
def lowerByte (b : UInt8) : UInt8 :=
  if (65 ≤ b ∧ b ≤ 90) ∨ (192 ≤ b ∧ b ≤ 222 ∧ b ≠ 215) then b + 32 else b

/-- `toLowerCase`. -/
def toLowerCase (text : Bytes) : Bytes := text.map lowerByte

/-- An ASCII digit. -/
def isDigit (b : UInt8) : Bool := 48 ≤ b && b ≤ 57

/-- An ASCII letter. -/
def isLetter (b : UInt8) : Bool := (65 ≤ b && b ≤ 90) || (97 ≤ b && b ≤ 122)

/-- The characters of `TOKEN`. -/
def isTokenChar (b : UInt8) : Bool :=
  isDigit b || isLetter b || (ascii "!#$%&'*+.^_`|~-").contains b

/-- The characters `TARGET` allows after the leading slash: visible ASCII but
`#`. -/
def isTargetChar (b : UInt8) : Bool := b == 33 || b == 34 || (36 ≤ b && b ≤ 126)

/-- `METHOD.test`. -/
def isMethod (text : Bytes) : Bool := text ≠ [] && text.all fun b => 65 ≤ b && b ≤ 90

/-- `TARGET.test`. -/
def isTarget : Bytes → Bool
  | 47 :: rest => rest.all isTargetChar
  | _ => false

/-- `VERSION.test`. -/
def isVersion (text : Bytes) : Bool := text == ascii "HTTP/1.0" || text == ascii "HTTP/1.1"

/-! ## Heads -/

/-- `parseHeaderLine`. -/
def parseHeaderLine (line : Bytes) : Except Failure Header :=
  if line.head?.any isOws then httpError 400 "obsolete header folding"
  else
    let name := line.takeWhile (· ≠ 58)
    if name = line ∨ name = [] then httpError 400 "malformed header line"
    else if name.all isTokenChar then .ok (name, trimOws (line.drop (name.length + 1)))
    else httpError 400 "invalid header name"

/-- `parseHeaders`. -/
def parseHeaders (lines : List Bytes) : Except Failure (List Header) :=
  lines.mapM parseHeaderLine

/-- `parseRequestHead`. -/
def parseRequestHead (raw : Bytes) : Except Failure RequestHead := do
  match ← splitHeadLines raw with
  | [] => httpError 400 "malformed request line"
  | requestLine :: headerLines =>
      match requestLine.splitOn 32 with
      | [method, target, version] =>
          if !isMethod method then httpError 400 "invalid method"
          else if !isTarget target then httpError 400 "invalid request target"
          else if !isVersion version then
            httpError 505 "only HTTP/1.0 and HTTP/1.1 are supported"
          else return { method, target, version, headers := ← parseHeaders headerLines, raw }
      | _ => httpError 400 "malformed request line"

/-- The status of a status line, when it has the shape the source matches:
`HTTP/1.0` or `HTTP/1.1`, a space, three digits, and nothing or a space and a
reason. -/
def statusOf (statusLine : Bytes) : Option ℕ :=
  match statusLine.drop 8 with
  | 32 :: a :: b :: c :: rest =>
      if isVersion (statusLine.take 8) && isDigit a && isDigit b && isDigit c &&
          (rest.head?.all (· == 32)) then
        some ((a.toNat - 48) * 100 + (b.toNat - 48) * 10 + (c.toNat - 48))
      else none
  | _ => none

/-- `parseResponseHead`. -/
def parseResponseHead (raw : Bytes) : Except Failure ResponseHead := do
  match ← splitHeadLines raw with
  | [] => httpError 502 "malformed status line"
  | statusLine :: headerLines =>
      match statusOf statusLine with
      | none => httpError 502 "malformed status line"
      | some status =>
          return { version := statusLine.take 8, status, headers := ← parseHeaders headerLines, raw }

/-! ## Framing -/

/-- The values of the header fields called `name`. -/
def fieldValues (headers : List Header) (name : String) : List Bytes :=
  (headers.filter fun header => toLowerCase header.1 == toLowerCase (ascii name)).map Prod.snd

/-- `headerTokens`: every value of a header, comma-split, lower-cased and
trimmed. -/
def headerTokens (headers : List Header) (name : String) : List Bytes :=
  (fieldValues headers name).flatMap fun value =>
    ((value.splitOn 44).map fun part => toLowerCase (trimOws part)).filter (· ≠ [])

/-- `countHeader`. -/
def countHeader (headers : List Header) (name : String) : ℕ := (fieldValues headers name).length

/-- `Number` of decimal digits. -/
def decimalValue (digits : Bytes) : ℕ := digits.foldl (fun n d => 10 * n + (d.toNat - 48)) 0

/-- `parseContentLength`. -/
def parseContentLength (headers : List Header) : Except Failure (Option ℕ) :=
  match headerTokens headers "content-length" with
  | [] => .ok none
  | [value] =>
      if countHeader headers "content-length" ≠ 1 then httpError 400 "repeated Content-Length"
      else if value.all isDigit && value.length ≤ 15 then .ok (some (decimalValue value))
      else httpError 400 "invalid Content-Length"
  | _ => httpError 400 "repeated Content-Length"

/-- `transferCoding`: whether the body is chunked. -/
def transferCoding (headers : List Header) : Except Failure Bool :=
  match headerTokens headers "transfer-encoding" with
  | [] => .ok false
  | [coding] =>
      if coding = ascii "chunked" then .ok true
      else httpError 400 "unsupported Transfer-Encoding"
  | _ => httpError 400 "unsupported Transfer-Encoding"

/-- `sharedFraming`. -/
def sharedFraming (headers : List Header) : Except Failure (Option Framing) := do
  let chunked ← transferCoding headers
  let length ← parseContentLength headers
  match chunked, length with
  | true, some _ => httpError 400 "both Content-Length and Transfer-Encoding"
  | true, none => return some .chunked
  | false, some n => return some (.length n)
  | false, none => return none

/-- `requestFraming`. -/
def requestFraming (head : RequestHead) : Except Failure Framing :=
  if head.version = ascii "HTTP/1.0" ∧ headerTokens head.headers "transfer-encoding" ≠ [] then
    httpError 400 "Transfer-Encoding on an HTTP/1.0 request"
  else (sharedFraming head.headers).map fun framing => framing.getD .none

/-- `carriesFormBody`: whether the engine would read the body as form fields. -/
def carriesFormBody (head : RequestHead) (framing : Framing) : Bool :=
  match framing with
  | .none | .length 0 => false
  | _ => head.headers.any fun header =>
      toLowerCase header.1 == ascii "content-type" &&
        (ascii "application/x-www-form-urlencoded").isPrefixOf (toLowerCase (trimOws header.2))

/-- `responseFraming`. -/
def responseFraming (method : Bytes) (head : ResponseHead) : Except Failure Framing :=
  if method = ascii "HEAD" ∨ head.status = 204 ∨ head.status = 304 ∨ head.status < 200 then
    .ok .none
  else (sharedFraming head.headers).map fun framing => framing.getD .eof

/-- `wantsClose`. -/
def wantsClose (headers : List Header) (version : Bytes) : Bool :=
  let tokens := headerTokens headers "connection"
  tokens.contains (ascii "close") ||
    (version == ascii "HTTP/1.0" && !tokens.contains (ascii "keep-alive"))

end Turbopaneld.DockerGate
