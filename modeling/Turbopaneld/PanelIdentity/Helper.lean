/-
# The host helper's `panel-identity-write`

The one way the daemon updates the pin file.  Without an argument the verb takes the
panel's identity document with its signature header in front; with `statement` it takes
a rotation or revoke statement with its signatures appended.  A Python program checks
the input against the pinned fields and prints what it accepts to a file, one field a
line; `openssl` verifies the signatures; then the shell picks the fields by their line
and writes `lib/update-origin` and `lib/panel-identity`, in that order.

What is not the helper's own code is a parameter: the JSON reader, text decoding, the
hash, the signature check and the reading of timestamps.
-/

import Turbopaneld.PanelIdentity.PinFile

namespace Turbopaneld.PanelIdentity

open JavaScript (split startsWith afterFront toBase64Url)

/-- What the helper calls. -/
structure World where
  /-- `json.loads` of a text. -/
  loads : String → Option Py
  /-- The text `json.loads` takes bytes for. -/
  jsonText : Bytes → Option String
  /-- `Path.read_text`. -/
  readText : Bytes → Option String
  /-- `text.encode()`. -/
  encode : String → Bytes
  sha256 : Bytes → Bytes
  /-- `openssl pkeyutl -verify`, for a public key, a message and a signature. -/
  verifies : Bytes → Bytes → Bytes → Bool
  /-- `datetime.fromisoformat` of a text with an offset, in seconds. -/
  fromIsoFormat : String → Option ℤ

/-- A condition, or why the program ends. -/
def require (condition : Bool) (why : String) : Except String Unit :=
  if condition then .ok () else .error why

/-- The value, or why the program ends. -/
def orElse {α : Type} (why : String) : Option α → Except String α
  | some value => .ok value
  | none => .error why

/-- An exception no handler takes. -/
def traceback : String := "Traceback (most recent call last):"

/-- The text of a value that is used as one. -/
def textOf : Py → Except String String
  | .str text => .ok text
  | _ => .error traceback

/-- The host's files: the pin, when it is a regular file owned by root, and the update
origin, when it is a regular file, with whether root owns it. -/
structure Host where
  pin : Option String
  origin : Option (String × Bool)

/-- The contents the verb writes, the update origin first. -/
structure Writes where
  origin : Option String
  pin : String

section

variable (world : World)

/-- The fingerprint of a public key. -/
def World.fingerprint (pub : Bytes) : String := toBase64Url (world.sha256 pub)

/-! ## Identity documents -/

/-- What the program takes from an identity document. -/
structure Document where
  current : List (String × Py)
  next : Option (List (String × Py))
  keyset : Py
  expires : Py
  urls : Py

/-- `k.get("role") == role`. -/
def hasRole (role : String) (key : List (String × Py)) : Bool :=
  match lookup "role" key with
  | some (.str text) => text == role
  | _ => false

/-- The keys of a document: a list of dictionaries, or something empty. -/
def keysOf : Py → Option (List (List (String × Py)))
  | .list items => items.mapM fun
    | .dict fields => some fields
    | _ => none
  | .str "" | .dict [] => some []
  | _ => none

def readDocument (value : Py) : Except String Document := do
  match value with
  | .dict fields =>
    let keys ← orElse "identity document is malformed" ((lookup "keys" fields).bind keysOf)
    let keyset ← orElse "identity document is malformed" (lookup "keyset" fields)
    let expires ← orElse "identity document is malformed" (lookup "expires" fields)
    let urls ← orElse "identity document is malformed" (lookup "urls" fields)
    match keys.filter (hasRole "current"), keys.filter (hasRole "next") with
    | [current], [] => .ok { current, next := none, keyset, expires, urls }
    | [current], [next] => .ok { current, next := some next, keyset, expires, urls }
    | _, _ => .error "identity document needs one current key and at most one next"
  | _ => .error "identity document is malformed"

/-- The next fingerprint as the document gives it. -/
def Document.nextKid (document : Document) : Py :=
  match document.next with
  | none => .str ""
  | some next => (lookup "kid" next).getD (.str "")

/-- `[A-Za-z0-9]`. -/
def isAlphanumeric (c : Char) : Bool := JavaScript.isLetter c || JavaScript.isDigit c

/-- `(?::[0-9]{1,5})?` to the end of the text. -/
def isPortPart : List Char → Bool
  | [] => true
  | c :: digits =>
    c == ':' && digits.all JavaScript.isDigit && 1 ≤ digits.length && digits.length ≤ 5

/-- A DNS name or an IPv4 address. -/
def isHostName (host : List Char) : Bool :=
  host.all (fun c => isAlphanumeric c || c == '.' || c == '-') &&
    (host.head?.any isAlphanumeric && host.getLast?.any isAlphanumeric)

/-- A bracketed IPv6 address, without its first bracket, and what follows it. -/
def isBracketed (rest : List Char) : Bool :=
  let address := rest.takeWhile (· != ']')
  address != [] &&
    address.all (fun c => JavaScript.isDigit c || ('a' ≤ c && c ≤ 'f') || ('A' ≤ c && c ≤ 'F') ||
      c == ':' || c == '.') &&
    (rest.dropWhile (· != ']')).head? == some ']' &&
    isPortPart (rest.dropWhile (· != ']')).tail

/-- `ORIGIN.fullmatch(url)`. -/
def isOrigin (url : String) : Bool :=
  match afterFront "https://" url with
  | none => false
  | some rest =>
    match rest.toList with
    | '[' :: rest => isBracketed rest
    | chars =>
      isHostName (chars.takeWhile (· != ':')) && isPortPart (chars.dropWhile (· != ':'))

/-- An entry of the list of addresses. -/
def originOf : Py → Option String
  | .str url => if isOrigin url then some url else none
  | _ => none

/-- The list of addresses. -/
def urlsOf : Py → Except String (List String)
  | .list items =>
    if items.isEmpty then .error "url list is empty"
    else orElse "url list holds a bad entry" (items.mapM originOf)
  | _ => .error "url list is empty"

/-- What the program passes on for an accepted document. -/
structure AcceptedDocument where
  document : Document
  keyset : ℕ
  urls : List String
  pub : Bytes
  message : Bytes
  signature : Bytes

/-- The path whose answers are signed with the body. -/
def identityPath : String := "/api/daemon/v1/instance/identity"

/-- The message a signature header covers. -/
def World.documentMessage (body : Bytes) : Bytes :=
  world.encode ("tp-http\n" ++ identityPath ++ "\n") ++ body

/-- The document a body holds. -/
def World.documentOf (body : Bytes) : Except String Document := do
  let value ← orElse "identity document is malformed" ((world.jsonText body).bind world.loads)
  readDocument value

/-- The keyset of a document, which must not be lower than the pinned one. -/
def keysetAtLeast (pinnedKeyset : ℕ) (value : Py) : Except String ℕ :=
  match value.asInt with
  | some keyset =>
    if (pinnedKeyset : ℤ) ≤ keyset then .ok keyset.toNat
    else .error "keyset is lower than the pinned one"
  | none => .error "keyset is lower than the pinned one"

/-- `expires` lies after now. -/
def World.checkExpiry (now : ℤ) (expires : Py) : Except String Unit :=
  match expires with
  | .str text =>
    match world.fromIsoFormat (text.replace "Z" "+00:00") with
    | none => .error "expires is not a timestamp"
    | some expiry => require (decide (now < expiry)) "identity document has expired"
  | _ => .error "expires is not a timestamp"

/-- The next fingerprint decodes to a digest, unless there is none. -/
def checkNext (kid : Py) : Except String Unit :=
  if kid.truthy then do
    let text ← textOf kid
    let digest ← b64d text
    require (digest.length == 32) "next fingerprint is malformed"
  else .ok ()

/-- `tp_panel_identity_python`. -/
def World.acceptDocument (body header : Bytes) (pinned : String) (pinnedKeyset : ℕ) (now : ℤ) :
    Except String AcceptedDocument := do
  let headerText ← orElse traceback (world.readText header)
  let document ← world.documentOf body
  let pubText ← textOf ((lookup "pub" document.current).getD (.str ""))
  let pub ← b64d pubText
  let kid := world.fingerprint pub
  require (pub.length == 32 && hasKid kid document.current)
    "current key does not match its fingerprint"
  require (kid == pinned) "the document names a different current key than the pin"
  let keyset ← keysetAtLeast pinnedKeyset document.keyset
  world.checkExpiry now document.expires
  let signature ← b64d (partition ':' (strip headerText)).2
  require ((partition ':' (strip headerText)).1 == kid && signature.length == 64)
    "signature header is wrong"
  let urls ← urlsOf document.urls
  checkNext document.nextKid
  .ok { document, keyset, urls, pub, message := world.documentMessage body, signature }
where
  /-- `current[0].get("kid")` is the fingerprint. -/
  hasKid (kid : String) (key : List (String × Py)) : Bool :=
    match lookup "kid" key with
    | some (.str text) => text == kid
    | _ => false

/-- The file of fields the program prints for a document. -/
def AcceptedDocument.fieldsText (accepted : AcceptedDocument) : String :=
  accepted.document.nextKid.print ++ "\n" ++ (toString accepted.keyset ++ "\n" ++
    (",".intercalate accepted.urls ++ "\n"))

/-- The line a byte stream starts with, and what follows its line break. -/
def splitFirstLine (input : Bytes) : Bytes × Bytes :=
  (input.takeWhile (· != 10), (input.dropWhile (· != 10)).tail)

/-- The lines of a file. -/
def fileLines (text : String) : List String :=
  let lines := split '\n' text
  if lines.getLast? = some "" then lines.dropLast else lines

/-- The update origin with the address list of the pin. -/
def withHosts (origin urls : String) : String :=
  String.join (((fileLines origin).filter fun line => !startsWith line "hosts=").map (· ++ "\n")) ++
    ("hosts=" ++ urls ++ "\n")

/-- The fields of a pin the verbs need: the current key and the key set. -/
def pinnedFields (pin : String) : Except String (String × ℕ) :=
  if pinFieldOf pin "current" = "" then
    .error "panel-identity-write: this host was installed without a panel key"
  else if isDigits (pinFieldOf pin "keyset") then
    .ok (pinFieldOf pin "current", decimalOf (pinFieldOf pin "keyset"))
  else .error "panel-identity-write: the pin file has no valid keyset"

/-- The pin file the verb writes for an accepted document. -/
def documentPin (pin updated : String) (accepted : AcceptedDocument) : PinFields where
  current := pinFieldOf pin "current"
  next := lineOf accepted.fieldsText 0
  keyset := lineOf accepted.fieldsText 1
  urls := lineOf accepted.fieldsText 2
  pinnedBy := pinFieldOf pin "pinned_by"
  updated := updated

/-- `panel-identity-write` with an identity document on standard input. -/
def World.documentWrite (host : Host) (input : Bytes) (now : ℤ) (updated : String) :
    Except String Writes := do
  let pin ← orElse "panel-identity-write: no panel key is pinned on this host" host.pin
  let (current, keyset) ← pinnedFields pin
  require (decide (input.length ≤ 65536)) "panel-identity-write: input too large"
  require (input.getLast? != some 10) "panel-identity-write: the body must not end in a newline"
  let accepted ← world.acceptDocument (splitFirstLine input).2 (splitFirstLine input).1 current
    keyset now
  require (world.verifies accepted.pub accepted.message accepted.signature)
    "panel-identity-write: the identity document signature is invalid"
  let fields := documentPin pin updated accepted
  match host.origin with
  | none => .ok { origin := none, pin := fields.text }
  | some (_, false) => .error "panel-identity-write: update-origin is not root-owned"
  | some (origin, true) => .ok { origin := some (withHosts origin fields.urls), pin := fields.text }

/-! ## Rotation and revoke statements -/

/-- The two kinds of statement. -/
inductive StatementKind where
  | rotation
  | revoke
deriving DecidableEq

def StatementKind.text : StatementKind → String
  | .rotation => "rotation"
  | .revoke => "revoke"

/-- `[A-Za-z0-9_-]{86}`. -/
def isSignatureText (chars : List Char) : Bool :=
  chars.length == 86 && chars.all JavaScript.base64UrlAlphabet.contains

/-- The end of a text: what is before the last `count` characters, and these. -/
def cutEnd (count : ℕ) (chars : List Char) : List Char × List Char :=
  (chars.take (chars.length - count), chars.drop (chars.length - count))

/-- `,"<name>":"<86 characters>"` at the end of a text: what is before it, and the
characters. -/
def takeSignature (name : String) (chars : List Char) : Option (List Char × List Char) :=
  let front := ",\"".toList ++ name.toList ++ "\":\"".toList
  let (before, field) := cutEnd (front.length + 87) chars
  let signature := (field.drop front.length).take 86
  if field == front ++ signature ++ ['"'] && isSignatureText signature then
    some (before, signature)
  else none

/-- A statement taken apart: its kind, the text its signatures cover, and these. -/
structure SignedStatement where
  kind : StatementKind
  body : String
  signNext : String
  signCurrent : String

/-- The signatures at the end of a statement.  A pattern's `$` also matches before one last
line break. -/
def splitSignatures (raw : String) : Option SignedStatement := do
  let chars := if raw.toList.getLast? = some '\n' then raw.toList.dropLast else raw.toList
  let (chars, last) := cutEnd 1 chars
  if last != ['\x7d'] then none
  else
    let (before, signNext) ← takeSignature "sigNext" chars
    match takeSignature "sigCurrent" before with
    | some (before, signCurrent) =>
      some
        { kind := .rotation
          body := String.ofList (before ++ ['\x7d'])
          signNext := String.ofList signNext
          signCurrent := String.ofList signCurrent }
    | none =>
      some
        { kind := .revoke
          body := String.ofList (before ++ ['\x7d'])
          signNext := String.ofList signNext
          signCurrent := "" }

/-- What the program takes from a statement. -/
structure Statement where
  keyset : Py
  current : Py
  next : Py
  signers : Py
  name : Option Py
  revoked : Option Py

def readStatement (value : Py) : Except String Statement :=
  match value with
  | .dict fields => do
    let keyset ← orElse "statement is malformed" (lookup "keyset" fields)
    let current ← orElse "statement is malformed" (lookup "current" fields)
    let signers ← orElse "statement is malformed" (lookup "signers" fields)
    .ok
      { keyset
        current
        next := (lookup "next" fields).getD (.str "")
        signers
        name := (lookup "type" fields).orElse fun _ => lookup "t" fields
        revoked := lookup "revoked" fields }
  | _ => .error "statement is malformed"

/-- `value == text`. -/
def isText (text : String) : Option Py → Bool
  | some (.str other) => other == text
  | _ => false

/-- The statement a signed text holds. -/
def World.statementOf (body : String) : Except String Statement := do
  let value ← orElse "statement is malformed" (world.loads body)
  readStatement value

/-- The public key a statement gives for a fingerprint. -/
def World.signer (signers : List (String × Py)) (fingerprint : String) : Except String Bytes := do
  let text ← textOf ((lookup fingerprint signers).getD (.str ""))
  let pub ← b64d text
  require (pub.length == 32 && world.fingerprint pub == fingerprint)
    "a signer key does not hash to the pinned fingerprint"
  .ok pub

/-- The keyset of a statement, which must be higher than the pinned one. -/
def keysetAbove (pinnedKeyset : ℕ) (value : Py) : Except String ℕ :=
  match value.asInt with
  | some keyset =>
    if (pinnedKeyset : ℤ) < keyset then .ok keyset.toNat else .error "keyset does not increase"
  | none => .error "keyset does not increase"

/-- The next fingerprint of a statement is empty or decodes to a digest. -/
def checkStatementNext : Py → Except String String
  | .str text =>
    if text = "" then .ok text
    else do
      let digest ← b64d text
      require (digest.length == 32) "next fingerprint is malformed"
      .ok text
  | _ => .error "next fingerprint is malformed"

/-- What the program passes on for an accepted statement. -/
structure AcceptedStatement where
  signed : SignedStatement
  current : String
  keyset : ℕ
  next : String
  pubNext : Bytes
  signNext : Bytes
  pubCurrent : Option Bytes
  signCurrent : Bytes

/-- The message the signatures of a statement cover. -/
def World.statementMessage (body : String) : Bytes := world.encode ("tp-rotation\n" ++ body)

/-- The signers of a statement whose type is that of its signatures. -/
def Statement.signersFor (statement : Statement) (kind : StatementKind) :
    Except String (List (String × Py)) :=
  match statement.signers with
  | .dict signers =>
    if isText kind.text statement.name then .ok signers
    else .error "statement type does not match its signatures"
  | _ => .error "statement type does not match its signatures"

/-- The public key of the old current key, which a rotation needs. -/
def World.currentSigner (kind : StatementKind) (signers : List (String × Py)) (pinCurrent : String) :
    Except String (Option Bytes) :=
  match kind with
  | .rotation => (world.signer signers pinCurrent).map some
  | .revoke => .ok none

/-- `tp_panel_statement_python`. -/
def World.acceptStatement (input : Bytes) (pinCurrent pinNext : String) (pinKeyset : ℕ) :
    Except String AcceptedStatement := do
  let raw ← orElse traceback (world.readText input)
  require (pinNext != "") "no next key is pinned"
  let signed ← orElse "statement signatures are missing or malformed" (splitSignatures raw)
  let statement ← world.statementOf signed.body
  let signers ← statement.signersFor signed.kind
  let keyset ← keysetAbove pinKeyset statement.keyset
  require (isText pinNext (some statement.current))
    "the new current key is not the pinned next key"
  let next ← checkStatementNext statement.next
  require (signed.kind != .revoke || isText pinCurrent statement.revoked)
    "the revoked key is not the pinned current key"
  let pubNext ← world.signer signers pinNext
  let signNext ← b64d signed.signNext
  let pubCurrent ← world.currentSigner signed.kind signers pinCurrent
  let signCurrent ← b64d signed.signCurrent
  .ok { signed, current := pinNext, keyset, next, pubNext, signNext, pubCurrent, signCurrent }

/-- The file of fields the program prints for a statement. -/
def AcceptedStatement.fieldsText (accepted : AcceptedStatement) : String :=
  accepted.signed.kind.text ++ "\n" ++ (accepted.current ++ "\n" ++
    (toString accepted.keyset ++ "\n" ++ (accepted.next ++ "\n")))

/-- The pin file the verb writes for an accepted statement. -/
def statementPin (pin updated : String) (accepted : AcceptedStatement) : PinFields where
  current := lineOf accepted.fieldsText 1
  next := lineOf accepted.fieldsText 3
  keyset := lineOf accepted.fieldsText 2
  urls := pinFieldOf pin "urls"
  pinnedBy := pinFieldOf pin "pinned_by"
  updated := updated

/-- The update origin with the pinned key. -/
def withPanelKey (origin current : String) : String :=
  String.join ((fileLines origin).map fun line =>
    (if startsWith line "panel_key=" then "panel_key=" ++ current else line) ++ "\n")

/-- The signatures of an accepted statement verify: that of the next key, and for a rotation
that of the current key. -/
def World.signaturesVerify (accepted : AcceptedStatement) : Bool :=
  world.verifies accepted.pubNext (world.statementMessage accepted.signed.body)
      accepted.signNext &&
    (lineOf accepted.fieldsText 0 != "rotation" ||
      accepted.pubCurrent.any fun pub =>
        world.verifies pub (world.statementMessage accepted.signed.body) accepted.signCurrent)

/-- `panel-identity-write statement`. -/
def World.statementWrite (host : Host) (input : Bytes) (updated : String) :
    Except String Writes := do
  let pin ← orElse "panel-identity-write: no panel key is pinned on this host" host.pin
  let (current, keyset) ← pinnedFields pin
  require (decide (input.length ≤ 8192)) "panel-identity-write: statement too large"
  let accepted ← world.acceptStatement input current (pinFieldOf pin "next") keyset
  require (world.signaturesVerify accepted) "panel-identity-write: a signature is invalid"
  let fields := statementPin pin updated accepted
  .ok { origin := host.origin.map fun origin => withPanelKey origin.1 fields.current
        pin := fields.text }

/-! ## Runs -/

/-- How far a run gets with its writes. -/
inductive Stop where
  | beforeWrites
  | betweenWrites
  | completed

/-- One run of the verb. -/
structure Run where
  isStatement : Bool
  input : Bytes
  now : ℤ
  updated : String
  stop : Stop

/-- What a run would write. -/
def World.writes (host : Host) (run : Run) : Except String Writes :=
  if run.isStatement then world.statementWrite host run.input run.updated
  else world.documentWrite host run.input run.now run.updated

/-- The update origin after its write. -/
def Host.withOrigin (host : Host) (writes : Writes) : Host :=
  { host with origin := writes.origin.map fun text => (text, true) }

/-- The files after a run. -/
def World.hostAfter (host : Host) (run : Run) : Host :=
  match world.writes host run with
  | .error _ => host
  | .ok writes =>
    match run.stop with
    | .beforeWrites => host
    | .betweenWrites => host.withOrigin writes
    | .completed => { host.withOrigin writes with pin := some writes.pin }

/-- The files after so many of a sequence of runs. -/
def World.hostAt (host : Host) (runs : ℕ → Run) : ℕ → Host
  | 0 => host
  | n + 1 => world.hostAfter (World.hostAt host runs n) (runs n)

end

end Turbopaneld.PanelIdentity
