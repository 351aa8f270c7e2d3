/-
# Request bodies

The strict JSON parser of body.ts.  It is one grammar with two ways to take an
object's names: `strictNames` is the source's, which refuses a struct field name
that is not printable ASCII or repeats, and rewrites the ones the policy reads to
their canonical spelling; `writtenNames` keeps every name as it was written and
only serves to say what a text is.  A text is read after UTF-8 decoding.

The source recurses as deep as the text does; the model carries a bound that the
length of the text satisfies, and `parse_ne_diverged` shows it is never reached.
An escaped surrogate without its partner becomes the replacement character.
-/

import Mathlib.Tactic.Common
import Turbopaneld.DockerGate.Http.Reader
import Turbopaneld.DockerGate.Json

namespace Turbopaneld.DockerGate

open JavaScript

/-- Why a body is refused: `BodyError` and the two reasons of
`parseRequestBody`. -/
inductive BodyError
  | empty
  | invalidUtf8
  | invalidJson
  | tooDeep
  | nonAsciiKey
  | duplicateKey
  | diverged
  deriving DecidableEq, Repr

/-- The fixed reason in a finding. -/
def BodyError.reason : BodyError → String
  | .empty => "empty"
  | .invalidUtf8 => "invalid-utf8"
  | .invalidJson => "invalid-json"
  | .tooDeep => "too-deep"
  | .nonAsciiKey => "non-ascii-key"
  | .duplicateKey => "duplicate-key"
  | .diverged => "diverged"

/-- `MAP_FIELDS`. -/
def mapFields : List String :=
  ["annotations", "auxiliaryaddresses", "config", "driveropts", "endpointsconfig",
    "exposedports", "labels", "options", "portbindings", "storageopt", "sysctls", "tmpfs",
    "volumes"]

/-- `CANONICAL_FIELDS`. -/
def canonicalFields : List String :=
  ["Annotations", "BindOptions", "Binds", "Capabilities", "CapAdd", "Cgroup", "CgroupParent",
    "CgroupnsMode", "Cmd", "CpuRealtimePeriod", "CpuRealtimeRuntime", "DeviceCgroupRules",
    "DeviceRequests", "Devices", "Driver", "DriverConfig", "DriverOpts", "GroupAdd",
    "HostConfig", "IpcMode", "Labels", "Links", "LogConfig", "MaskedPaths", "Mounts", "Name",
    "NetworkMode", "OomScoreAdj", "Options", "PidMode", "Privileged", "Propagation", "ReadOnly",
    "ReadonlyPaths", "Runtime", "SecurityOpt", "Source", "Subpath", "Sysctls", "TmpfsOptions",
    "Type", "UTSMode", "UsernsMode", "VolumeDriver", "VolumeOptions", "VolumesFrom"]

/-- `MAX_DEPTH`. -/
def maxDepth : ℕ := 64

/-- `Context`: whether an object's keys are struct field names or map keys. -/
inductive Context
  | struct
  | map
  deriving DecidableEq, Repr

/-- `CANONICAL.get(folded) ?? raw`. -/
def canonicalName (raw : String) : String :=
  (canonicalFields.find? fun field => toLowerCase field == toLowerCase raw).getD raw

/-- `structKey`. -/
def structKey (raw : String) (seen : List String) : Except BodyError String :=
  if raw.toList.any fun c => c < ' ' || '~' < c then .error .nonAsciiKey
  else if seen.contains (toLowerCase raw) then .error .duplicateKey
  else .ok (canonicalName raw)

/-- `childContext`: a map's values are structs again; a struct field named like a
map is a map. -/
def childContext (context : Context) (key : String) : Context :=
  match context with
  | .struct => if mapFields.contains (toLowerCase key) then .map else .struct
  | .map => .struct

/-- How a reading takes the names of an object and makes the object. -/
structure Names where
  key : Context → String → List String → Except BodyError String
  build : List (String × Json) → List (String × Json)

/-- The source's way: `structKey` in a struct, `Object.fromEntries`. -/
def strictNames : Names where
  key := fun context raw seen =>
    match context with
    | .struct => structKey raw seen
    | .map => .ok raw
  build := fromEntries

/-- Every name as written, repeated ones included. -/
def writtenNames : Names where
  key := fun _ raw _ => .ok raw
  build := id

/-! ## Tokens -/

/-- `skipWhitespace`. -/
def skipWhitespace (text : List Char) : List Char :=
  text.dropWhile fun c => c == ' ' || c == '\t' || c == '\n' || c == '\r'

/-- `eat`: what follows the character, when it comes next. -/
def eat (ch : Char) (text : List Char) : Option (List Char) :=
  match skipWhitespace text with
  | c :: rest => if c = ch then some rest else none
  | [] => none

/-- `expect`. -/
def expect (ch : Char) (text : List Char) : Except BodyError (List Char) :=
  match eat ch text with
  | some rest => .ok rest
  | none => .error .invalidJson

/-- The inside of a string token, from behind its opening quote, and what follows
the closing one. -/
def scanString : List Char → Option (List Char × List Char)
  | [] => none
  | '"' :: rest => some ([], rest)
  | '\\' :: c :: rest => (scanString rest).map fun cut => ('\\' :: c :: cut.1, cut.2)
  | c :: rest => (scanString rest).map fun cut => (c :: cut.1, cut.2)

/-- The value of a hexadecimal digit. -/
def hexDigitOf (c : Char) : Option ℕ :=
  if isDigit c then some (c.toNat - 48)
  else if 'a' ≤ c ∧ c ≤ 'f' then some (c.toNat - 87)
  else if 'A' ≤ c ∧ c ≤ 'F' then some (c.toNat - 55)
  else none

/-- The character of a one-letter escape. -/
def simpleEscape (c : Char) : Option ℕ :=
  match c with
  | '"' => some 34
  | '\\' => some 92
  | '/' => some 47
  | 'b' => some 8
  | 'f' => some 12
  | 'n' => some 10
  | 'r' => some 13
  | 't' => some 9
  | _ => none

/-- The code points of a string token's inside, with its escapes checked. -/
def decodeUnits : List Char → Option (List ℕ)
  | [] => some []
  | '\\' :: 'u' :: a :: b :: c :: d :: rest => do
      let high ← hexDigitOf a
      let second ← hexDigitOf b
      let third ← hexDigitOf c
      let low ← hexDigitOf d
      return (4096 * high + 256 * second + 16 * third + low) :: (← decodeUnits rest)
  | '\\' :: e :: rest => do
      let unit ← simpleEscape e
      return unit :: (← decodeUnits rest)
  | c :: rest => do
      if c.toNat < 32 ∨ c = '"' ∨ c = '\\' then none
      else return c.toNat :: (← decodeUnits rest)

/-- A code point as a character; half a surrogate pair is none. -/
def unitChar (unit : ℕ) : Char :=
  if 0xd800 ≤ unit ∧ unit ≤ 0xdfff then '\ufffd' else Char.ofNat unit

/-- Put escaped surrogate pairs together. -/
def joinSurrogates : List ℕ → List Char
  | [] => []
  | [unit] => [unitChar unit]
  | high :: low :: rest =>
      if 0xd800 ≤ high ∧ high ≤ 0xdbff ∧ 0xdc00 ≤ low ∧ low ≤ 0xdfff then
        Char.ofNat (0x10000 + 1024 * (high - 0xd800) + (low - 0xdc00)) :: joinSurrogates rest
      else unitChar high :: joinSurrogates (low :: rest)

/-- `decodeToken` of a string token. -/
def decodeToken (inside : List Char) : Except BodyError String :=
  match decodeUnits inside with
  | some units => .ok (String.ofList (joinSurrogates units))
  | none => .error .invalidJson

/-- `string`. -/
def parseString (text : List Char) : Except BodyError (String × List Char) :=
  match text with
  | '"' :: rest =>
      match scanString rest with
      | some (inside, after) => (decodeToken inside).map fun decoded => (decoded, after)
      | none => .error .invalidJson
  | _ => .error .invalidJson

/-- The digits of an exponent, with its sign. -/
def takeExponent (text : List Char) : List Char :=
  match text with
  | c :: rest =>
      if c = 'e' ∨ c = 'E' then
        let sign := rest.take 1 |>.filter fun s => s == '+' || s == '-'
        let digits := (rest.drop sign.length).takeWhile isDigit
        if digits = [] then [] else c :: (sign ++ digits)
      else []
  | [] => []

/-- A fraction with its dot. -/
def takeFraction (text : List Char) : List Char :=
  match text with
  | '.' :: rest => if rest.takeWhile isDigit = [] then [] else '.' :: rest.takeWhile isDigit
  | _ => []

/-- What `NUMBER` matches at the front of a text; empty when it does not. -/
def takeNumber (text : List Char) : List Char :=
  let sign := text.take 1 |>.filter fun s => s == '-'
  let unsigned := text.drop sign.length
  let whole := if unsigned.head? = some '0' then ['0'] else unsigned.takeWhile isDigit
  if whole = [] then []
  else
    let fraction := takeFraction (unsigned.drop whole.length)
    let exponent := takeExponent ((unsigned.drop whole.length).drop fraction.length)
    sign ++ whole ++ fraction ++ exponent

/-- `LITERALS`. -/
def literals : List (List Char × Json) :=
  [("true".toList, .bool true), ("false".toList, .bool false), ("null".toList, .null)]

/-- `scalar`. -/
def parseScalar (text : List Char) : Except BodyError (Json × List Char) :=
  match literals.find? fun literal => literal.1.isPrefixOf text with
  | some (word, value) => .ok (value, text.drop word.length)
  | none =>
      if takeNumber text = [] then .error .invalidJson
      else .ok (.number (String.ofList (takeNumber text)), text.drop (takeNumber text).length)

/-! ## Values -/

mutual

/-- `value`. -/
def parseValue (names : Names) : ℕ → Context → ℕ → List Char →
    Except BodyError (Json × List Char)
  | 0, _, _, _ => .error .diverged
  | fuel + 1, context, depth, text =>
      if depth > maxDepth then .error .tooDeep
      else
        match skipWhitespace text with
        | '{' :: rest =>
            match eat '}' rest with
            | some after => .ok (.object (names.build []), after)
            | none => do
                let (entries, after) ← parseMembers names fuel context (depth + 1) [] rest
                return (.object (names.build entries), after)
        | '[' :: rest =>
            match eat ']' rest with
            | some after => .ok (.array [], after)
            | none => do
                let (items, after) ← parseItems names fuel (depth + 1) rest
                return (.array items, after)
        | '"' :: rest => (parseString ('"' :: rest)).map fun cut => (.string cut.1, cut.2)
        | rest => parseScalar rest

/-- The loop of `object`; `seen` holds the folded names so far. -/
def parseMembers (names : Names) : ℕ → Context → ℕ → List String → List Char →
    Except BodyError (List (String × Json) × List Char)
  | 0, _, _, _, _ => .error .diverged
  | fuel + 1, context, depth, seen, text => do
      let (raw, afterName) ← parseString (skipWhitespace text)
      let key ← names.key context raw seen
      let afterColon ← expect ':' afterName
      let (value, afterValue) ← parseValue names fuel (childContext context key) depth afterColon
      match eat ',' afterValue with
      | some next => do
          let (entries, after) ←
            parseMembers names fuel context depth (toLowerCase raw :: seen) next
          return ((key, value) :: entries, after)
      | none => do
          let after ← expect '}' afterValue
          return ([(key, value)], after)

/-- The loop of `array`. -/
def parseItems (names : Names) : ℕ → ℕ → List Char → Except BodyError (List Json × List Char)
  | 0, _, _ => .error .diverged
  | fuel + 1, depth, text => do
      let (value, afterValue) ← parseValue names fuel .struct depth text
      match eat ',' afterValue with
      | some next => do
          let (items, after) ← parseItems names fuel depth next
          return (value :: items, after)
      | none => do
          let after ← expect ']' afterValue
          return ([value], after)

end

/-- `StrictJson.parse`, with the given treatment of names. -/
def parseText (names : Names) (text : List Char) : Except BodyError Json := do
  let (value, rest) ← parseValue names (2 * text.length + 1) .struct 0 text
  if skipWhitespace rest = [] then return value else .error .invalidJson

/-- `TextDecoder("utf-8", { fatal: true }).decode`. -/
def decodeUtf8 (bytes : Bytes) : Option (List Char) :=
  (String.fromUTF8? ⟨bytes.toArray⟩).map String.toList

/-- The bytes of a text. -/
def utf8 (text : String) : Bytes := text.toUTF8.data.toList

theorem decodeUtf8_utf8 (text : String) : decodeUtf8 (utf8 text) = some text.toList := by
  have hbytes : (⟨(utf8 text).toArray⟩ : ByteArray) = text.toUTF8 := by
    simp [utf8]
  have hvalid : text.toUTF8.IsValidUTF8 := text.isValidUTF8
  rw [decodeUtf8, hbytes, String.fromUTF8?, dif_pos hvalid]
  rfl

/-- A parser's result on a text: not out of bound, and what is left over is
shorter than the text. -/
structure Consumes {α : Type} (text : List Char) (result : Except BodyError (α × List Char)) :
    Prop where
  bounded : result ≠ .error .diverged
  shorter : ∀ {value rest}, result = .ok (value, rest) → rest.length < text.length

section Consumes

variable {α β : Type} {text : List Char}

theorem Consumes.mono {short : List Char} {result : Except BodyError (α × List Char)}
    (hresult : Consumes short result) (hshort : short.length ≤ text.length) :
    Consumes text result :=
  ⟨hresult.bounded, fun hok => (hresult.shorter hok).trans_le hshort⟩

theorem Consumes.ok {value : α} {rest : List Char} (hrest : rest.length < text.length) :
    Consumes text (.ok (value, rest)) := by
  refine ⟨by simp, fun hok => ?_⟩
  simp only [Except.ok.injEq, Prod.mk.injEq] at hok
  rw [← hok.2]
  exact hrest

theorem Consumes.error {e : BodyError} (he : e ≠ .diverged) :
    Consumes text (.error e : Except BodyError (α × List Char)) :=
  ⟨by simpa using he, by simp⟩

/-- Reading on from what a first reading left. -/
theorem Consumes.bind {x : Except BodyError (α × List Char)}
    {f : α × List Char → Except BodyError (β × List Char)} (hx : Consumes text x)
    (hf : ∀ value rest, rest.length < text.length → Consumes text (f (value, rest))) :
    Consumes text (x >>= f) := by
  cases hresult : x with
  | error e =>
      have he : e ≠ .diverged := by
        intro h
        exact hx.bounded (by rw [hresult, h])
      exact Consumes.error he
  | ok pair => exact hf pair.1 pair.2 (hx.shorter hresult)

/-- Reading on after a decision that takes nothing off the text. -/
theorem Consumes.bind_decision {x : Except BodyError α}
    {f : α → Except BodyError (β × List Char)} (hx : x ≠ .error .diverged)
    (hf : ∀ value, Consumes text (f value)) : Consumes text (x >>= f) := by
  cases x with
  | error e => exact Consumes.error fun he => hx (by rw [he])
  | ok value => exact hf value

end Consumes

theorem length_skipWhitespace_le (text : List Char) :
    (skipWhitespace text).length ≤ text.length :=
  (List.dropWhile_suffix _).length_le

theorem length_lt_of_eat {ch : Char} {text rest : List Char} (heat : eat ch text = some rest) :
    rest.length < text.length := by
  unfold eat at heat
  have hskip := length_skipWhitespace_le text
  split at heat
  · next c after hafter =>
      split_ifs at heat with hc
      obtain rfl := Option.some.inj heat
      rw [hafter, List.length_cons] at hskip
      exact hskip
  · exact absurd heat (by simp)

/-- Reading on after an expected character. -/
theorem consumes_expect {α : Type} {ch : Char} {text whole : List Char}
    {f : List Char → Except BodyError (α × List Char)}
    (hf : ∀ rest, rest.length < text.length → Consumes whole (f rest)) :
    Consumes whole (expect ch text >>= f) := by
  unfold expect
  cases heat : eat ch text with
  | none => exact Consumes.error (by simp)
  | some rest => exact hf rest (length_lt_of_eat heat)

theorem length_lt_of_scanString {text inside rest : List Char}
    (hscan : scanString text = some (inside, rest)) : rest.length < text.length := by
  induction text using scanString.induct generalizing inside rest with
  | case1 => simp [scanString] at hscan
  | case2 after =>
      simp only [scanString, Option.some.injEq, Prod.mk.injEq] at hscan
      simp [← hscan.2]
  | case3 c after ih =>
      simp only [scanString, Option.map_eq_some_iff, Prod.mk.injEq] at hscan
      obtain ⟨⟨inside', rest'⟩, hinner, -, rfl⟩ := hscan
      have hshorter := ih hinner
      simp only [List.length_cons]
      omega
  | case4 c after hquote hescape ih =>
      rw [scanString] at hscan
      · simp only [Option.map_eq_some_iff, Prod.mk.injEq] at hscan
        obtain ⟨⟨inside', rest'⟩, hinner, -, rfl⟩ := hscan
        have hshorter := ih hinner
        simp only [List.length_cons]
        omega
      · exact hquote
      · exact hescape

theorem consumes_parseString (text : List Char) : Consumes text (parseString text) := by
  unfold parseString
  split
  · next rest =>
      rcases hscan : scanString rest with _ | ⟨inside, after⟩
      · exact ⟨by simp, by simp⟩
      · have hshorter := length_lt_of_scanString hscan
        dsimp only [decodeToken]
        cases decodeUnits inside with
        | none => exact ⟨by simp [Except.map], by simp [Except.map]⟩
        | some units =>
            refine ⟨by simp [Except.map], fun hok => ?_⟩
            simp only [Except.map, Except.ok.injEq, Prod.mk.injEq] at hok
            rw [← hok.2, List.length_cons]
            exact Nat.lt_succ_of_lt hshorter
  · exact ⟨by simp, by simp⟩

theorem length_drop_lt {text : List Char} {count : ℕ} (htext : text ≠ []) (hcount : count ≠ 0) :
    (text.drop count).length < text.length := by
  have hlength := List.length_pos_iff.mpr htext
  rw [List.length_drop]
  omega

theorem consumes_parseScalar (text : List Char) : Consumes text (parseScalar text) := by
  unfold parseScalar
  split
  · next word value hfind =>
      refine ⟨by simp, fun hok => ?_⟩
      have hprefix : word <+: text := by simpa using List.find?_some hfind
      have hword : word ≠ [] := by
        have hmem := List.mem_of_find?_eq_some hfind
        simp only [literals, List.mem_cons, Prod.mk.injEq, List.not_mem_nil, or_false] at hmem
        rcases hmem with ⟨rfl, -⟩ | ⟨rfl, -⟩ | ⟨rfl, -⟩
        · decide
        · decide
        · decide
      have htext : text ≠ [] := fun hnil => hword (List.prefix_nil.mp (hnil ▸ hprefix))
      simp only [Except.ok.injEq, Prod.mk.injEq] at hok
      rw [← hok.2]
      exact length_drop_lt htext (by simpa using hword)
  · by_cases hnumber : takeNumber text = []
    · rw [if_pos hnumber]
      exact ⟨by simp, by simp⟩
    · rw [if_neg hnumber]
      refine ⟨by simp, fun hok => ?_⟩
      have htext : text ≠ [] := by
        intro hnil
        rw [hnil] at hnumber
        exact hnumber (by decide)
      simp only [Except.ok.injEq, Prod.mk.injEq] at hok
      rw [← hok.2]
      exact length_drop_lt htext (by simpa using hnumber)

/-- A treatment of names that always decides. -/
def Names.Decides (names : Names) : Prop :=
  ∀ context raw seen, names.key context raw seen ≠ .error .diverged

theorem decides_strictNames : strictNames.Decides := by
  intro context raw seen
  cases context with
  | map => simp [strictNames]
  | struct =>
      simp only [strictNames, structKey]
      split_ifs
      all_goals simp

theorem consumes_parse {names : Names} (hnames : names.Decides) (fuel : ℕ) :
    (∀ context depth text, 2 * text.length < fuel →
      Consumes text (parseValue names fuel context depth text)) ∧
    (∀ context depth seen text, 2 * text.length < fuel →
      Consumes text (parseMembers names fuel context depth seen text)) ∧
    (∀ depth text, 2 * text.length + 1 < fuel →
      Consumes text (parseItems names fuel depth text)) := by
  induction fuel with
  | zero => exact ⟨by simp, by simp, by simp⟩
  | succ fuel ih =>
      obtain ⟨ihValue, ihMembers, ihItems⟩ := ih
      refine ⟨?_, ?_, ?_⟩
      · intro context depth text hfuel
        have hskip := length_skipWhitespace_le text
        rw [parseValue]
        by_cases hdepth : depth > maxDepth
        · rw [if_pos hdepth]
          exact Consumes.error (by simp)
        · rw [if_neg hdepth]
          split
          · next rest hrest =>
              rw [hrest, List.length_cons] at hskip
              cases heat : eat '}' rest with
              | some after => exact Consumes.ok ((length_lt_of_eat heat).trans (by omega))
              | none =>
                  apply Consumes.bind ((ihMembers context (depth + 1) [] rest (by omega)).mono
                    (by omega))
                  intro entries after hafter
                  exact Consumes.ok hafter
          · next rest hrest =>
              rw [hrest, List.length_cons] at hskip
              cases heat : eat ']' rest with
              | some after => exact Consumes.ok ((length_lt_of_eat heat).trans (by omega))
              | none =>
                  apply Consumes.bind ((ihItems (depth + 1) rest (by omega)).mono (by omega))
                  intro items after hafter
                  exact Consumes.ok hafter
          · next rest hrest =>
              rw [hrest] at hskip
              have hstring := (consumes_parseString ('"' :: rest)).mono hskip
              cases hresult : parseString ('"' :: rest) with
              | error e => exact Consumes.error fun he => hstring.bounded (by rw [hresult, he])
              | ok pair => exact Consumes.ok (hstring.shorter hresult)
          · exact (consumes_parseScalar _).mono hskip
      · intro context depth seen text hfuel
        rw [parseMembers]
        apply Consumes.bind ((consumes_parseString _).mono (length_skipWhitespace_le text))
        intro raw afterName hname
        apply Consumes.bind_decision (hnames context raw seen)
        intro key
        apply consumes_expect
        intro afterColon hcolon
        apply Consumes.bind ((ihValue _ depth afterColon (by omega)).mono (by omega))
        intro value afterValue hvalue
        dsimp only
        cases heat : eat ',' afterValue with
        | some next =>
            have hnext := length_lt_of_eat heat
            apply Consumes.bind ((ihMembers context depth _ next (by omega)).mono (by omega))
            intro entries after hafter
            exact Consumes.ok hafter
        | none =>
            apply consumes_expect
            intro after hafter
            exact Consumes.ok (hafter.trans hvalue)
      · intro depth text hfuel
        rw [parseItems]
        apply Consumes.bind (ihValue .struct depth text (by omega))
        intro value afterValue hvalue
        dsimp only
        cases heat : eat ',' afterValue with
        | some next =>
            have hnext := length_lt_of_eat heat
            apply Consumes.bind ((ihItems depth next (by omega)).mono (by omega))
            intro items after hafter
            exact Consumes.ok hafter
        | none =>
            apply consumes_expect
            intro after hafter
            exact Consumes.ok (hafter.trans hvalue)

/-- The strict parser ends within its bound on every text. -/
theorem parse_ne_diverged (text : List Char) :
    parseText strictNames text ≠ .error .diverged := by
  have hvalue := (consumes_parse decides_strictNames (2 * text.length + 1)).1 .struct 0 text
    (Nat.lt_succ_self _)
  unfold parseText
  cases hresult : parseValue strictNames (2 * text.length + 1) .struct 0 text with
  | error e =>
      intro hdiverged
      have he : e = .diverged := Except.error.inj hdiverged
      exact hvalue.bounded (by rw [hresult, he])
  | ok pair =>
      simp only [bind, Except.bind]
      split_ifs
      · simp [pure, Except.pure]
      · simp

end Turbopaneld.DockerGate
