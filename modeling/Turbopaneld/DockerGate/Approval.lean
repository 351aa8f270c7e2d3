/-
# Signed approvals

The verifier of the control plane's per-deploy approvals (approval.ts).  What it
takes from its surroundings is a parameter: the Ed25519 and SHA-256 of WebCrypto,
`JSON.parse` of a payload's bytes, and how a number is written.  Nothing is
assumed of these; a result about approvals holds for any of them.
-/

import Mathlib.Data.List.Lex
import Mathlib.Data.List.Sort
import Turbopaneld.DockerGate.Body
import Turbopaneld.DockerGate.Policy
import Turbopaneld.JavaScript.Base64
import Turbopaneld.JavaScript.Double

namespace Turbopaneld.DockerGate

open JavaScript

/-- What the verifier asks of its surroundings. -/
structure Crypto (Key : Type) where
  /-- `crypto.subtle.verify` with a key, a signature and the signed bytes; `false`
  when it throws. -/
  verify : Key → Bytes → Bytes → Bool
  sha256 : Bytes → Bytes
  /-- `JSON.parse(new TextDecoder().decode(bytes))`; `none` when it throws. -/
  parseJson : Bytes → Option Json
  /-- `JSON.stringify` of the number a text reads as. -/
  numberText : String → String

/-- `APPROVAL_LABEL`. -/
def approvalLabel : String := "com.turbopanel.approval"

/-- `APPROVAL_VERSION`. -/
def approvalVersion : String := "v2"

/-- `APPROVAL_DOMAIN`. -/
def approvalDomain : String := "turbopanel-docker-gate-approval-v2\n"

/-- `MAX_APPROVAL_TTL_SEC`. -/
def maxApprovalTtlSec : ℤ := 900

/-- `APPROVAL_CLOCK_SKEW_SEC`. -/
def approvalClockSkewSec : ℤ := 60

/-- `MAX_APPROVAL_TOKEN_BYTES`. -/
def maxApprovalTokenBytes : ℕ := 4096

/-- `APPROVABLE_RULES`: the rules an approval can relax, each under a feature. -/
def approvableRules : List (String × String) :=
  [("privileged", "privileged"), ("bind-docker-socket", "docker-socket"),
    ("bind-outside-roots", "host-paths"), ("network-mode-host", "host-network"),
    ("cap-add", "cap-add"), ("devices", "devices")]

/-- `ApprovalPayload`.  The compose digest is only ever logged and is left out. -/
structure ApprovalPayload where
  deployId : String
  project : String
  bodyDigest : String
  containerName : String
  jti : String
  features : List String
  iat : ℤ
  exp : ℤ
  deriving DecidableEq, Repr

/-- Why a token is rejected. -/
inductive RejectReason
  | approvalsOff
  | malformed
  | unsupportedVersion
  | badSignature
  | expired
  | notYetValid
  | ttlTooLong
  | wrongProject
  | wrongBody
  | wrongName
  | noFeatures
  | replayed
  deriving DecidableEq, Repr

/-- The reason's stable code. -/
def RejectReason.code : RejectReason → String
  | .approvalsOff => "approvals-off"
  | .malformed => "malformed"
  | .unsupportedVersion => "unsupported-version"
  | .badSignature => "bad-signature"
  | .expired => "expired"
  | .notYetValid => "not-yet-valid"
  | .ttlTooLong => "ttl-too-long"
  | .wrongProject => "wrong-project"
  | .wrongBody => "wrong-body"
  | .wrongName => "wrong-name"
  | .noFeatures => "no-features"
  | .replayed => "replayed"

/-- A rejection: the reason, and whose token it was when that could be read. -/
structure Rejected where
  reason : RejectReason
  deployId : Option String := none
  project : Option String := none
  deriving DecidableEq, Repr

/-- `ApprovalResult`. -/
abbrev ApprovalResult := Except Rejected ApprovalPayload

/-! ## The digest of a create body -/

/-- The escape of one character in `JSON.stringify`. -/
def quoteChar (c : Char) : List Char :=
  if c == '"' then ['\\', '"']
  else if c == '\\' then ['\\', '\\']
  else if c == '\u0008' then ['\\', 'b']
  else if c == '\u000c' then ['\\', 'f']
  else if c == '\n' then ['\\', 'n']
  else if c == '\r' then ['\\', 'r']
  else if c == '\t' then ['\\', 't']
  else if c.toNat < 32 then
    ['\\', 'u', '0', '0', Nat.digitChar (c.toNat / 16), Nat.digitChar (c.toNat % 16)]
  else [c]

/-- `JSON.stringify` of a string. -/
def quote (text : String) : String :=
  String.ofList ('"' :: text.toList.flatMap quoteChar ++ ['"'])

/-- The order of texts by code unit. -/
def unitsLe (a b : String) : Bool := !List.lt (codeUnits b) (codeUnits a)

mutual

/-- `canonicalJson`. -/
def canonicalJson {Key : Type} (crypto : Crypto Key) : Json → String
  | .null => "null"
  | .bool true => "true"
  | .bool false => "false"
  | .number token => crypto.numberText token
  | .string text => quote text
  | .array items => "[" ++ ",".intercalate (canonicalItems crypto items) ++ "]"
  | .object fields =>
      let members := (canonicalMembers crypto fields).insertionSort fun a b => unitsLe a.1 b.1
      "\x7b" ++ ",".intercalate (members.map fun member => quote member.1 ++ ":" ++ member.2) ++
        "\x7d"

/-- The canonical texts of an array's items. -/
def canonicalItems {Key : Type} (crypto : Crypto Key) : List Json → List String
  | [] => []
  | item :: items => canonicalJson crypto item :: canonicalItems crypto items

/-- The canonical texts of an object's values, with their keys. -/
def canonicalMembers {Key : Type} (crypto : Crypto Key) :
    List (String × Json) → List (String × String)
  | [] => []
  | (key, value) :: fields => (key, canonicalJson crypto value) :: canonicalMembers crypto fields

end

/-- A body without its approval label. -/
def withoutApproval : Json → Json
  | .object fields => .object (fields.map fun entry =>
      match entry with
      | ("Labels", .object labels) =>
          ("Labels", .object (labels.filter fun label => label.1 ≠ approvalLabel))
      | other => other)
  | other => other

variable {Key : Type}

/-- `approvalBodyDigest`; an absent body is digested as `null`. -/
def approvalBodyDigest (crypto : Crypto Key) (body : Option Json) : String :=
  let text := (body.map fun value => canonicalJson crypto (withoutApproval value)).getD "null"
  toBase64Url (crypto.sha256 (utf8 text))

/-! ## The payload -/

/-- `isShortString`, with the string. -/
def shortString (value : Option Json) (max : ℕ) : Option String :=
  match value with
  | some (.string text) =>
      if 0 < lengthInUnits text ∧ lengthInUnits text ≤ max then some text else none
  | _ => none

/-- The value of a number's text. -/
def numberOf (token : String) : Option ℚ :=
  let (negative, coefficient, exponent) := Json.numberParts token
  toDouble ((if negative then -1 else 1) * coefficient * 10 ^ exponent)

/-- A field that passes `Number.isSafeInteger`. -/
def wholeNumber : Option Json → Option ℤ
  | some (.number token) => (numberOf token).bind safeInteger
  | _ => none

/-- `DIGEST.test`: unpadded base64url of 32 bytes. -/
def isDigest (text : String) : Bool :=
  text.length == 43 && text.toList.all base64UrlAlphabet.contains

/-- The feature names of a payload: at most sixteen short strings. -/
def featureNames : Option Json → Option (List String)
  | some (.array items) =>
      if items.length ≤ 16 then items.mapM fun item => shortString (some item) 32 else none
  | _ => none

/-- `parsePayload`, of the value the payload's bytes parse to. -/
def parsePayload : Json → Option ApprovalPayload
  | .object p => do
      let features ← featureNames (p.lookup "features")
      let iat ← wholeNumber (p.lookup "iat")
      let exp ← wholeNumber (p.lookup "exp")
      let deployId ← shortString (p.lookup "deployId") 128
      let project ← shortString (p.lookup "project") 128
      let .string _ ← p.lookup "composeDigest" | none
      let containerName ← shortString (p.lookup "containerName") 255
      let .string bodyDigest ← p.lookup "bodyDigest" | none
      let jti ← shortString (p.lookup "jti") 128
      if isDigest bodyDigest then
        return { deployId, project, bodyDigest, containerName, jti, features, iat, exp }
      else none
  | _ => none

/-! ## Verifying a token -/

/-- `signatureValid`: one of the keys verifies the signature. -/
def signatureValid (crypto : Crypto Key) (keys : List Key) (signature : Bytes)
    (signed : String) : Bool :=
  keys.any fun key => crypto.verify key signature (utf8 (approvalDomain ++ signed))

/-- `claimsFailure`. -/
def claimsFailure (payload : ApprovalPayload) (project bodyDigest containerName : String)
    (nowSec : ℕ) : Option RejectReason :=
  if payload.exp ≤ nowSec then some .expired
  else if payload.iat > nowSec + approvalClockSkewSec then some .notYetValid
  else if payload.exp - payload.iat > maxApprovalTtlSec then some .ttlTooLong
  else if payload.project ≠ project then some .wrongProject
  else if payload.bodyDigest ≠ bodyDigest then some .wrongBody
  else if payload.containerName ≠ containerName then some .wrongName
  else if payload.features = [] then some .noFeatures
  else none

/-- The dot-separated parts of a token that is not too long. -/
def tokenParts (token : String) : List String :=
  if lengthInUnits token ≤ maxApprovalTokenBytes then split '.' token else []

/-- `startApprovalFeatures`: what a container's own label covers at a later start.
Signature and project are checked, nothing else. -/
def startApprovalFeatures (crypto : Crypto Key) (token : String) (keys : List Key)
    (project : String) : List String :=
  match tokenParts token with
  | [version, body, mark] =>
      if keys.isEmpty then []
      else if version ≠ approvalVersion then []
      else
        match fromBase64Url body, fromBase64Url mark with
        | some payloadBytes, some signature =>
            if !signatureValid crypto keys signature body then []
            else
              match (crypto.parseJson payloadBytes).bind parsePayload with
              | some payload => if payload.project = project then payload.features else []
              | none => []
        | _, _ => []
  | _ => []

/-- `verifyApproval`. -/
def verifyApproval (crypto : Crypto Key) (token : String) (keys : List Key)
    (project bodyDigest containerName : String) (nowSec : ℕ) : ApprovalResult :=
  if keys.isEmpty then .error { reason := .approvalsOff }
  else
    match tokenParts token with
    | [version, body, mark] =>
        if version ≠ approvalVersion then .error { reason := .unsupportedVersion }
        else
          match fromBase64Url body, fromBase64Url mark with
          | some payloadBytes, some signature =>
              if !signatureValid crypto keys signature body then
                .error { reason := .badSignature }
              else
                match (crypto.parseJson payloadBytes).bind parsePayload with
                | none => .error { reason := .malformed }
                | some payload =>
                    match claimsFailure payload project bodyDigest containerName nowSec with
                    | some reason => .error ⟨reason, some payload.deployId, some payload.project⟩
                    | none => .ok payload
          | _, _ => .error { reason := .malformed }
    | _ => .error { reason := .malformed }

/-- The payload of a token whose form and signature are right. -/
def signedPayload (crypto : Crypto Key) (keys : List Key) (token : String) :
    Option ApprovalPayload :=
  match tokenParts token with
  | [version, body, mark] =>
      if keys.isEmpty || version ≠ approvalVersion then none
      else
        match fromBase64Url body, fromBase64Url mark with
        | some payloadBytes, some signature =>
            if signatureValid crypto keys signature body then
              (crypto.parseJson payloadBytes).bind parsePayload
            else none
        | _, _ => none
  | _ => none

/-- Whether an approval's features cover a rule. -/
def covers (features : List String) (rule : String) : Bool :=
  (approvableRules.lookup rule).any features.contains

/-- `splitApproved`: the findings still standing, and those the approval covers. -/
def splitApproved (violations : List Violation) (payload : ApprovalPayload) :
    List Violation × List Violation :=
  violations.partition fun violation => !covers payload.features violation.rule

/-! ## What the two checks have in common -/

/-- A token is accepted exactly when it is signed and its claims hold. -/
theorem verifyApproval_eq_ok_iff {crypto : Crypto Key} {keys : List Key} {token project : String}
    {bodyDigest containerName : String} {nowSec : ℕ} {payload : ApprovalPayload} :
    verifyApproval crypto token keys project bodyDigest containerName nowSec = .ok payload ↔
      signedPayload crypto keys token = some payload ∧
        claimsFailure payload project bodyDigest containerName nowSec = none := by
  rw [verifyApproval, signedPayload]
  rcases tokenParts token with _ | ⟨version, _ | ⟨body, _ | ⟨mark, _ | ⟨extra, rest⟩⟩⟩⟩
  case cons.cons.cons.nil =>
    by_cases hkeys : keys.isEmpty
    · simp [hkeys]
    by_cases hversion : version = approvalVersion
    · cases hbody : fromBase64Url body with
      | none => simp [hkeys, hversion, hbody]
      | some payloadBytes =>
          cases hmark : fromBase64Url mark with
          | none => simp [hkeys, hversion, hbody, hmark]
          | some signature =>
              by_cases hsigned : signatureValid crypto keys signature body
              · cases hfound : (crypto.parseJson payloadBytes).bind parsePayload with
                | none => simp [hkeys, hversion, hbody, hmark, hsigned, hfound]
                | some found =>
                    simp only [hkeys, hversion, hbody, hmark, hsigned, hfound, Bool.not_true,
                      Bool.false_eq_true, if_false, if_true, ne_eq, not_true_eq_false, decide_false, Bool.or_false,
                      Option.some.injEq]
                    constructor
                    · intro hok
                      split at hok
                      · exact absurd hok (by simp)
                      · rename_i hclaims
                        have heq : found = payload := by simpa using hok
                        exact ⟨heq, heq ▸ hclaims⟩
                    · rintro ⟨rfl, hclaims⟩
                      rw [hclaims]
              · simp [hkeys, hversion, hbody, hmark, hsigned]
    · simp [hkeys, hversion]
  all_goals
    cases keys.isEmpty <;> simp

/-- What a start honours is the feature list of a signed token of the project. -/
theorem startApprovalFeatures_eq (crypto : Crypto Key) (token : String) (keys : List Key)
    (project : String) :
    startApprovalFeatures crypto token keys project =
      match signedPayload crypto keys token with
      | some payload => if payload.project = project then payload.features else []
      | none => [] := by
  rw [startApprovalFeatures, signedPayload]
  rcases tokenParts token with _ | ⟨version, _ | ⟨body, _ | ⟨mark, _ | ⟨extra, rest⟩⟩⟩⟩
  case cons.cons.cons.nil =>
    by_cases hkeys : keys.isEmpty
    · simp [hkeys]
    by_cases hversion : version = approvalVersion
    · cases hbody : fromBase64Url body with
      | none => simp [hkeys, hversion, hbody]
      | some payloadBytes =>
          cases hmark : fromBase64Url mark with
          | none => simp [hkeys, hversion, hbody, hmark]
          | some signature =>
              by_cases hsigned : signatureValid crypto keys signature body
              · simp [hkeys, hversion, hbody, hmark, hsigned]
              · simp [hkeys, hversion, hbody, hmark, hsigned]
    · simp [hkeys, hversion]
  all_goals rfl

theorem safe_of_wholeNumber {value : Option Json} {n : ℤ} (hwhole : wholeNumber value = some n) :
    |n| ≤ maxSafeInteger := by
  rw [wholeNumber.eq_def] at hwhole
  split at hwhole
  · rw [Option.bind_eq_some_iff] at hwhole
    obtain ⟨q, -, hq⟩ := hwhole
    rw [safeInteger] at hq
    split at hq
    · rename_i hsafe
      rw [← Option.some.inj hq]
      exact hsafe.2
    · exact absurd hq (by simp)
  · exact absurd hwhole (by simp)

/-- A payload's expiry is a safe integer. -/
theorem safe_of_parsePayload {json : Json} {payload : ApprovalPayload}
    (hparse : parsePayload json = some payload) : |payload.exp| ≤ maxSafeInteger := by
  rw [parsePayload.eq_def] at hparse
  split at hparse
  · simp only [Option.bind_eq_bind, Option.bind_eq_some_iff] at hparse
    obtain ⟨features, -, iat, -, exp, hexp, deployId, -, project, -, compose, -, hrest⟩ := hparse
    split at hrest
    · simp only [Option.bind_eq_some_iff] at hrest
      obtain ⟨containerName, -, digest, -, hrest⟩ := hrest
      split at hrest
      · rw [Option.bind_eq_some_iff] at hrest
        obtain ⟨jti, -, hrest⟩ := hrest
        split at hrest
        · rw [← Option.some.inj hrest]
          exact safe_of_wholeNumber hexp
        · exact absurd hrest (by simp)
      · exact absurd hrest (by simp)
    · exact absurd hrest (by simp)
  · exact absurd hparse (by simp)

/-- A signed token's payload is one that parsed. -/
theorem parsePayload_of_signedPayload {crypto : Crypto Key} {keys : List Key} {token : String}
    {payload : ApprovalPayload} (hsigned : signedPayload crypto keys token = some payload) :
    ∃ json, parsePayload json = some payload := by
  rw [signedPayload] at hsigned
  split at hsigned
  · split at hsigned
    · exact absurd hsigned (by simp)
    · split at hsigned
      · split at hsigned
        · obtain ⟨json, -, hjson⟩ := Option.bind_eq_some_iff.mp hsigned
          exact ⟨json, hjson⟩
        · exact absurd hsigned (by simp)
      · exact absurd hsigned (by simp)
  · exact absurd hsigned (by simp)

/-- The times of a token whose claims hold. -/
theorem times_of_claimsFailure {payload : ApprovalPayload}
    {project bodyDigest containerName : String} {nowSec : ℕ}
    (hclaims : claimsFailure payload project bodyDigest containerName nowSec = none) :
    nowSec < payload.exp ∧ payload.exp ≤ nowSec + maxApprovalTtlSec + approvalClockSkewSec := by
  rw [claimsFailure] at hclaims
  split at hclaims
  · exact absurd hclaims (by simp)
  · split at hclaims
    · exact absurd hclaims (by simp)
    · split at hclaims
      · exact absurd hclaims (by simp)
      · constructor <;> omega

/-! ## Whole numbers -/

theorem decimal_digitChar {n : ℕ} (hsmall : n < 10) : (Nat.digitChar n).toNat - 48 = n := by
  rw [Nat.toNat_digitChar_of_lt_ten hsmall]
  omega

theorem decimal_toDigits (n : ℕ) : Json.decimal (Nat.toDigits 10 n) = n := by
  induction n using Nat.strongRecOn with
  | _ n ih =>
    rcases lt_or_ge n 10 with hsmall | hlarge
    · rw [Nat.toDigits_of_lt_base hsmall, Json.decimal, List.foldl_cons, List.foldl_nil,
        decimal_digitChar hsmall]
      omega
    · have hfront := ih (n / 10) (by omega)
      rw [Json.decimal] at hfront ⊢
      rw [Nat.toDigits_of_base_le (by omega) hlarge, List.foldl_append, hfront, List.foldl_cons,
        List.foldl_nil, decimal_digitChar (Nat.mod_lt n (by omega))]
      omega

theorem digit_ne {c d : Char} (hdigit : c.isDigit) (hd : d.isDigit = false) : c ≠ d := by
  intro heq
  rw [heq, hd] at hdigit
  exact Bool.false_ne_true hdigit

theorem numberParts_toString (n : ℕ) : Json.numberParts (toString (n : ℤ)) = (false, n, 0) := by
  have htext : (toString (n : ℤ)).toList = Nat.toDigits 10 n := Nat.toList_repr
  have hdigit : ∀ c ∈ Nat.toDigits 10 n, c.isDigit := fun c hc =>
    Nat.isDigit_of_mem_toDigits (by omega) (by omega) hc
  have hsign : ((Nat.toDigits 10 n).head? == some '-') = false := by
    cases hhead : (Nat.toDigits 10 n).head? with
    | none => rfl
    | some c =>
        have hc := digit_ne (hdigit c (List.mem_of_mem_head? hhead)) (show '-'.isDigit = false by rfl)
        simp [hc]
  have hcoefficient : (Nat.toDigits 10 n).takeWhile (fun c => c ≠ 'e' && c ≠ 'E') =
      Nat.toDigits 10 n := by
    rw [List.takeWhile_eq_self_iff]
    intro c hc
    have he := digit_ne (hdigit c hc) (show 'e'.isDigit = false by rfl)
    have hE := digit_ne (hdigit c hc) (show 'E'.isDigit = false by rfl)
    simp [he, hE]
  have hwhole : (Nat.toDigits 10 n).takeWhile (fun c => decide (c ≠ '.')) = Nat.toDigits 10 n := by
    rw [List.takeWhile_eq_self_iff]
    intro c hc
    have hdot := digit_ne (hdigit c hc) (show '.'.isDigit = false by rfl)
    simp [hdot]
  simp only [Json.numberParts, htext, hsign, hcoefficient, hwhole, List.drop_length,
    List.tail_nil, List.append_nil, List.length_nil, decimal_toDigits, Bool.false_eq_true, if_false]
  rfl

theorem numberOf_toString {n : ℕ} (hsafe : |(n : ℤ)| ≤ maxSafeInteger) :
    numberOf (toString (n : ℤ)) = some ((n : ℤ) : ℚ) := by
  rw [numberOf, numberParts_toString]
  simp only [Bool.false_eq_true, if_false, zpow_zero, mul_one, one_mul]
  exact toDouble_of_safe hsafe

theorem wholeNumber_toString {n : ℕ} (hsafe : |(n : ℤ)| ≤ maxSafeInteger) :
    wholeNumber (some (.number (toString (n : ℤ)))) = some (n : ℤ) := by
  rw [wholeNumber, numberOf_toString hsafe, Option.bind_some, safeInteger]
  exact if_pos ⟨rfl, hsafe⟩

end Turbopaneld.DockerGate
