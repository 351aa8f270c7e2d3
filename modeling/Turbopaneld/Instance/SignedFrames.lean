/-
# Frames the control plane signs

A frame carries its signature as its last member.  The receiver splits it off at the last
marker, checks it over the bytes before it and only then reads what else the frame says: the
hello has to echo the nonce, and every frame after it names the session and the next number.

`JSON.parse` and the check of a signature under the pinned key are parameters.
-/

import Turbopaneld.DockerGate.NumberText
import Turbopaneld.Instance.ReportSigning

namespace Turbopaneld.Instance

open DockerGate (Json JsNumber jsNumber numberOf)
open JavaScript

/-- `HELLO_PREFIX` -/
def helloPrefix : String := "tp-hello\n"

/-- `FRAME_PREFIX` -/
def framePrefix : String := "tp-frame\n"

/-- `HTTP_PREFIX` -/
def httpPrefix : String := "tp-http\n"

/-- `MAX_CLOCK_SKEW_MS` -/
def maxClockSkewMs : ℚ := 300000

/-- `ENVELOPE_FIELDS` -/
def envelopeFields : List String := ["sessionId", "seq", "iat", "kid", "sig"]

/-- A character of `SIG_RE`. -/
def isSigChar (c : Char) : Bool := isWord c || c == '-'

/-- `PanelIdentityPin`, as far as a session reads it. -/
structure PanelIdentityPin where
  current : String
  next : Option String
  keyset : ℕ
deriving DecidableEq, Repr

/-- `pinAccepts` -/
def pinAccepts (pin : PanelIdentityPin) (kid : String) : Bool :=
  kid != "" && (kid == pin.current || some kid == pin.next)

/-- `VerifiedHello` -/
structure VerifiedHello where
  sessionId : String
  kid : String
  heartbeatSeconds : Option JsNumber
  urls : List String
deriving DecidableEq, Repr

/-- Where a needle begins for the last time, in characters. -/
def lastStart (needle text : List Char) : Option ℕ :=
  (List.range (text.length + 1)).reverse.find? fun at_ => needle.isPrefixOf (text.drop at_)

/-- `splitSignature`: the unsigned text and the signature. -/
def splitSignature (raw : String) : Option (String × String) :=
  (lastStart sigSuffixMarker.toList raw.toList).bind fun at_ =>
    if !endsWith raw "\"\x7d" then none
    else
      let behind := raw.toList.drop (at_ + sigSuffixMarker.length)
      let sig := behind.take (behind.length - 2)
      if sig != [] && sig.all isSigChar then
        some (String.ofList (raw.toList.take at_) ++ "\x7d", String.ofList sig)
      else none

/-- What a session checks its frames with. -/
structure SessionCheck where
  /-- `JSON.parse` -/
  parse : String → Option Json
  /-- The signature of a text verifies under the pinned key. -/
  verifies : String → String → Bool
  /-- The fingerprint of that key. -/
  kid : String
  pin : PanelIdentityPin

/-- `parseObject` -/
def parseObject (parse : String → Option Json) (text : String) : Option (List (String × Json)) :=
  match parse text with
  | some (.object fields) => some fields
  | _ => none

/-- `iatFresh` -/
def iatFresh (iat : Option Json) (nowMs : ℚ) : Bool :=
  match iat with
  | some (.number token) =>
    (numberOf token).any fun seconds =>
      seconds.den == 1 && decide (|seconds * 1000 - nowMs| ≤ maxClockSkewMs)
  | _ => false

/-- A value as a number of the source's language. -/
def numberOfJson : Option Json → Option JsNumber
  | some (.number token) => some (jsNumber token)
  | _ => none

/-- `typeof keyset === "number" && keyset >= pinned` -/
def keysetAtLeast (pinned : ℕ) (keyset : Option Json) : Bool :=
  (numberOfJson keyset).any fun number =>
    match number with
    | .finite value => decide ((pinned : ℚ) ≤ value)
    | .infinite negative => !negative

/-- A value that is this text. -/
def isText (value : Option Json) (text : String) : Bool :=
  match value with
  | some (.string found) => found == text
  | _ => false

section

variable (check : SessionCheck)

/-- `helloFields` -/
def helloFields (hello : List (String × Json)) (nonce : String) (nowMs : ℚ) :
    Except String VerifiedHello :=
  if !isText (hello.lookup "type") "hello" then .error "not a hello"
  else if !isText (hello.lookup "nonce") nonce then .error "nonce does not match"
  else if !isText (hello.lookup "kid") check.kid || !pinAccepts check.pin check.kid then
    .error "key is not pinned"
  else if !iatFresh (hello.lookup "iat") nowMs then .error "iat out of range"
  else if !keysetAtLeast check.pin.keyset (hello.lookup "keyset") then
    .error "keyset lower than pinned"
  else
    match hello.lookup "sessionId" with
    | some (.string sessionId) =>
      if lengthInUnits sessionId = 0 || 64 < lengthInUnits sessionId then .error "bad sessionId"
      else
        .ok ⟨sessionId, check.kid, numberOfJson (hello.lookup "heartbeatSeconds"),
          Json.stringList (hello.lookup "urls")⟩
    | _ => .error "bad sessionId"

/-- `verifyHello` -/
def verifyHello (raw nonce : String) (nowMs : ℚ) : Except String VerifiedHello :=
  match splitSignature raw with
  | none => .error "hello is not signed"
  | some (unsigned, sig) =>
    if !check.verifies (helloPrefix ++ unsigned) sig then .error "hello signature does not verify"
    else
      match parseObject check.parse unsigned with
      | none => .error "hello is not a JSON object"
      | some hello => helloFields check hello nonce nowMs

/-- A frame without its envelope. -/
def withoutEnvelope (frame : List (String × Json)) : List (String × Json) :=
  frame.filter fun field => !envelopeFields.contains field.1

/-- `verifyEnvelopedFrame` -/
def verifyEnvelopedFrame (raw sessionId : String) (lastSeq : ℕ) (nowMs : ℚ) :
    Except String (List (String × Json)) :=
  match splitSignature raw with
  | none => .error "frame is not signed"
  | some (unsigned, sig) =>
    match parseObject check.parse unsigned with
    | none => .error "frame is not a typed JSON object"
    | some frame =>
      match frame.lookup "type" with
      | some (.string type) =>
        if !check.verifies (framePrefix ++ type ++ "\n" ++ unsigned) sig then
          .error ("signature does not verify (type=" ++ type ++ ")")
        else if !isText (frame.lookup "sessionId") sessionId then
          .error "frame is for another session"
        else if numberOfJson (frame.lookup "seq") ≠ some (.finite (lastSeq + 1)) then
          .error ("seq is not " ++ toString (lastSeq + 1))
        else if !isText (frame.lookup "kid") check.kid || !pinAccepts check.pin check.kid then
          .error "key is not pinned"
        else if !iatFresh (frame.lookup "iat") nowMs then .error "iat out of range"
        else .ok (withoutEnvelope frame)
      | _ => .error "frame is not a typed JSON object"

end

/-! ## What is signed splits again -/

theorem find?_reverse_range {p : ℕ → Bool} {n k : ℕ} (hk : k ≤ n) (hp : p k = true)
    (hlater : ∀ j, k < j → j ≤ n → p j = false) :
    (List.range (n + 1)).reverse.find? p = some k := by
  induction n with
  | zero =>
    obtain rfl := Nat.le_zero.mp hk
    rw [List.range_succ, List.reverse_append, List.range_zero]
    exact List.find?_cons_of_pos hp
  | succ n ih =>
    rw [List.range_succ, List.reverse_append, List.reverse_singleton, List.singleton_append]
    rcases Nat.lt_or_eq_of_le hk with hlt | rfl
    · have hlast : ¬p (n + 1) = true := by
        rw [hlater (n + 1) hlt (le_refl _)]
        exact Bool.false_ne_true
      rw [List.find?_cons_of_neg hlast]
      exact ih (Nat.le_of_lt_succ hlt) fun j hkj hj => hlater j hkj (Nat.le_succ_of_le hj)
    · exact List.find?_cons_of_pos hp

/-- A needle begins for the last time where its first character is for the last time. -/
theorem lastStart_append {c : Char} {needle front rest : List Char} (hneedle : needle <+: rest)
    (hrest : c ∉ rest) : lastStart (c :: needle) (front ++ c :: rest) = some front.length := by
  apply find?_reverse_range
  · rw [List.length_append]
    exact Nat.le_add_right _ _
  · rw [List.drop_left, List.isPrefixOf_iff_prefix]
    exact (List.prefix_cons_inj c).mpr hneedle
  · intro j hj _
    rw [← Bool.not_eq_true, List.isPrefixOf_iff_prefix]
    rintro ⟨behind, hbehind⟩
    obtain ⟨d, rfl⟩ := Nat.exists_eq_add_of_lt hj
    have hdrop : (front ++ c :: rest).drop (front.length + d + 1) = rest.drop d := by
      rw [Nat.add_assoc, List.drop_length_add_append, List.drop_succ_cons]
    rw [hdrop] at hbehind
    apply hrest
    apply List.mem_of_mem_drop (i := d)
    rw [← hbehind]
    exact List.mem_cons_self

/-- What is signed splits into the text and its signature, whatever the text contains. -/
theorem splitSignature_signedFrame {unsigned : List Char} {sig : String} (hsig : sig ≠ "")
    (hchars : ∀ c ∈ sig.toList, isSigChar c = true) :
    splitSignature (signedFrame (String.ofList (unsigned ++ ['\x7d'])) sig) =
      some (String.ofList (unsigned ++ ['\x7d']), sig) := by
  have hmarker : sigSuffixMarker.toList = ',' :: "\"sig\":\"".toList := rfl
  have hclose : ("\"\x7d" : String).toList = ['"', '\x7d'] := rfl
  have hraw : (signedFrame (String.ofList (unsigned ++ ['\x7d'])) sig).toList =
      unsigned ++ ',' :: ("\"sig\":\"".toList ++ (sig.toList ++ ['"', '\x7d'])) := by
    rw [signedFrame, String.toList_append, String.toList_append, String.toList_append,
      String.toList_ofList, String.toList_ofList, List.dropLast_concat, hmarker, hclose]
    simp only [List.append_assoc, List.cons_append]
  generalize signedFrame (String.ofList (unsigned ++ ['\x7d'])) sig = raw at hraw
  have htail : ("\"sig\":\"" : String).toList = ['"', 's', 'i', 'g', '"', ':', '"'] := rfl
  rw [htail] at hmarker hraw
  generalize hrest : ['"', 's', 'i', 'g', '"', ':', '"'] ++ (sig.toList ++ ['"', '\x7d']) = rest
    at hraw
  -- a signature has no comma
  have hcomma : ',' ∉ rest := by
    rw [← hrest, List.mem_append, List.mem_append]
    rintro (hfront | hmem | hback)
    · exact absurd hfront (by decide)
    · exact absurd (hchars ',' hmem) (by decide)
    · exact absurd hback (by decide)
  have hends : endsWith raw "\"\x7d" = true := by
    rw [endsWith_iff, hclose, hraw, ← hrest]
    exact ⟨unsigned ++ ',' :: (['"', 's', 'i', 'g', '"', ':', '"'] ++ sig.toList), by simp⟩
  have hne : (sig.toList != []) = true := by
    rw [bne_iff_ne]
    exact fun hnil => hsig (String.toList_inj.mp hnil)
  have hlength : sigSuffixMarker.length = 8 := by
    rw [← String.length_toList, hmarker]
    rfl
  have hbehind : raw.toList.drop (unsigned.length + sigSuffixMarker.length) =
      sig.toList ++ ['"', '\x7d'] := by
    rw [hlength, hraw, List.drop_length_add_append, ← hrest]
    rfl
  have hsigChars : (sig.toList ++ ['"', '\x7d']).take
      ((sig.toList ++ ['"', '\x7d']).length - 2) = sig.toList := by
    rw [List.length_append]
    exact List.take_left
  rw [splitSignature, hmarker, hraw, lastStart_append ⟨_, hrest⟩ hcomma, Option.bind_some,
    ← hraw, hends]
  dsimp only
  rw [hbehind, hsigChars, hne, List.all_eq_true.mpr hchars, hraw, List.take_left,
    String.ofList_append, String.ofList_toList]
  rfl

end Turbopaneld.Instance
