/-
# Signed reports

A command's outcome and a fabric peers report are signed with the daemon key before they go
out.  A frame is told to be one of them by a marker in its text, which every report written by
`JSON.stringify` contains; only then is the text parsed.
-/

import Turbopaneld.DockerGate.Approval

namespace Turbopaneld.Instance

open DockerGate (Json quote)
open JavaScript (includes)

/-! ## `JSON.stringify` -/

mutual

/-- `JSON.stringify` of a message.  A number is its own text. -/
def stringify : Json → String
  | .null => "null"
  | .bool true => "true"
  | .bool false => "false"
  | .number token => token
  | .string text => quote text
  | .array items => "[" ++ ",".intercalate (stringifyItems items) ++ "]"
  | .object fields => "\x7b" ++ ",".intercalate (stringifyMembers fields) ++ "\x7d"

/-- The texts of an array's items. -/
def stringifyItems : List Json → List String
  | [] => []
  | item :: items => stringify item :: stringifyItems items

/-- The texts of an object's members. -/
def stringifyMembers : List (String × Json) → List String
  | [] => []
  | (key, value) :: fields => (quote key ++ ":" ++ stringify value) :: stringifyMembers fields

end

theorem mem_stringifyMembers {fields : List (String × Json)} {key : String} {value : Json}
    (h : (key, value) ∈ fields) :
    quote key ++ ":" ++ stringify value ∈ stringifyMembers fields := by
  induction fields with
  | nil => cases h
  | cons field rest ih =>
    obtain ⟨name, other⟩ := field
    rw [stringifyMembers]
    rcases List.mem_cons.mp h with hfirst | hrest
    · obtain ⟨rfl, rfl⟩ := Prod.mk.inj hfirst
      exact List.mem_cons_self
    · exact List.mem_cons_of_mem _ (ih hrest)

/-! ## What is handed to a socket -/

/-- `SendData`.  With a text stands what `JSON.parse` makes of it. -/
inductive SendData
  | binary (bytes : List ℕ)
  | text (text : String) (parsed : Option Json)

/-- A message as the daemon sends it. -/
def SendData.ofMessage (message : Json) : SendData := .text (stringify message) (some message)

/-- `SIGNED_REPORT_TYPES`. -/
def signedReportTypes : List String := ["command-outcome", "fabric-peers-report"]

/-- `REPORT_ENVELOPE_FIELDS`. -/
def reportEnvelopeFields : List String := ["sessionId", "iat", "kid", "sig"]

/-- `TYPE_MARKERS`. -/
def typeMarkers : List String :=
  signedReportTypes.map fun type => "\"type\":" ++ stringify (.string type)

/-- `REPORT_PREFIX`. -/
def reportPrefixText : String := "tp-report\n"

/-- `SIG_SUFFIX_MARKER`. -/
def sigSuffixMarker : String := ",\"sig\":\""

/-- `reportSigningInput`: the text the daemon key signs. -/
def reportSigningInput (type unsigned : String) : String :=
  reportPrefixText ++ type ++ "\n" ++ unsigned

/-- `mayBeSignedReport`. -/
def mayBeSignedReport (data : String) : Bool := typeMarkers.any fun marker => includes data marker

structure ReportRecord where
  type : String
  fields : List (String × Json)

/-- `reportRecord` of what `JSON.parse` made of a text, or of nothing where it threw. -/
def reportRecord : Option Json → Option ReportRecord
  | some (.object fields) =>
    match fields.lookup "type" with
    | some (.string type) =>
      if signedReportTypes.contains type then some ⟨type, fields⟩ else none
    | _ => none
  | _ => none

structure SigningContext where
  sessionId : String
  keyId : String
  nowMs : ℕ

/-- What `signReportFrame` comes to before its signature is there. -/
inductive Signing
  /-- The text is no report, and stays as it is. -/
  | unchanged
  /-- It throws: the report uses the name of an envelope member. -/
  | refused (message : String)
  /-- `signChallenge` is asked to sign the input. -/
  | challenge (unsigned input : String)
deriving DecidableEq, Repr

/-- `signReportFrame` up to its await. -/
def signReportFrame (parsed : Option Json) (ctx : SigningContext) : Signing :=
  match reportRecord parsed with
  | none => .unchanged
  | some record =>
    match reportEnvelopeFields.find? fun field => (record.fields.lookup field).isSome with
    | some field => .refused (record.type ++ " already has envelope member " ++ field)
    | none =>
      let unsigned := stringify (.object (record.fields ++
        [("sessionId", .string ctx.sessionId), ("iat", .number (toString (ctx.nowMs / 1000))),
          ("kid", .string ctx.keyId)]))
      .challenge unsigned (reportSigningInput record.type unsigned)

/-- The frame that carries a signature. -/
def signedFrame (unsigned sig : String) : String :=
  String.ofList unsigned.toList.dropLast ++ sigSuffixMarker ++ sig ++ "\"\x7d"

/-! ## Reports are told by their marker -/

/-- A frame that is a report: the text of an object whose type is one of the signed ones. -/
def SendData.IsReport (data : SendData) : Prop :=
  ∃ fields type, data = .ofMessage (.object fields) ∧
    fields.lookup "type" = some (.string type) ∧ type ∈ signedReportTypes

theorem infix_intercalate (separator : String) {part : String} {parts : List String}
    (h : part ∈ parts) : part.toList <:+: (separator.intercalate parts).toList := by
  rw [String.toList_intercalate]
  induction parts with
  | nil => cases h
  | cons first rest ih =>
    cases rest with
    | nil =>
      rw [List.mem_singleton.mp h, List.map_singleton, List.intercalate_singleton]
    | cons next rest =>
      rw [List.map_cons, List.map_cons, List.intercalate_cons_cons]
      rcases List.mem_cons.mp h with rfl | hrest
      · exact ((List.prefix_append _ _).trans (List.prefix_append _ _)).isInfix
      · exact (ih hrest).trans (List.suffix_append _ _).isInfix

/-- The text of a report contains the marker of its type. -/
theorem mayBeSignedReport_of_isReport {fields : List (String × Json)} {type : String}
    (hlookup : fields.lookup "type" = some (.string type)) (htype : type ∈ signedReportTypes) :
    mayBeSignedReport (stringify (.object fields)) = true := by
  refine List.any_eq_true.mpr ⟨_, List.mem_map_of_mem htype, ?_⟩
  obtain ⟨front, back, hfields, -⟩ := List.lookup_eq_some_iff.mp hlookup
  have hmember : ("type", Json.string type) ∈ fields := by
    rw [hfields]
    exact List.mem_append_right _ List.mem_cons_self
  have hinside := infix_intercalate "," (mem_stringifyMembers hmember)
  have htext : stringify (.object fields) =
      "\x7b" ++ ",".intercalate (stringifyMembers fields) ++ "\x7d" := by rw [stringify]
  rw [JavaScript.includes_iff, htext]
  refine hinside.trans ?_
  rw [String.toList_append, String.toList_append]
  exact (List.suffix_append _ _).isInfix.trans (List.prefix_append _ _).isInfix

end Turbopaneld.Instance
