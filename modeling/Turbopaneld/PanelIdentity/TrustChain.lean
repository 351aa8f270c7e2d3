/-
# The trust chain of the pinned panel key

Whatever is fed to `panel-identity-write`, in whatever order and however often, each run
leaves the pinned fields alone or changes them the way a signed document or a signed
statement says.  Key sets only rise, and so no statement takes effect twice.  The one gap
is in how the accepted fields reach the shell, one a line: a next fingerprint with a line
break in it, which the base64 decoder passes over, moves the fields after it.
-/

import Turbopaneld.PanelIdentity.Helper

namespace Turbopaneld.PanelIdentity

open JavaScript (split)
open Programs (bind_eq_ok_iff)

/-! ## What the programs accept -/

theorem require_eq_ok_iff {condition : Bool} {why : String} {done : Unit} :
    require condition why = .ok done ↔ condition = true := by
  cases condition with
  | false => simp [require]
  | true => simp [require]

theorem orElse_eq_ok_iff {α : Type} {why : String} {value : Option α} {result : α} :
    orElse why value = .ok result ↔ value = some result := by
  cases value with
  | none => simp [orElse]
  | some value => simp [orElse]

theorem keysetAtLeast_eq_ok {pinned keyset : ℕ} {value : Py}
    (h : keysetAtLeast pinned value = .ok keyset) : value = .int keyset ∧ pinned ≤ keyset := by
  cases value with
  | int number =>
    simp only [keysetAtLeast, Py.asInt] at h
    split at h
    · rename_i hle
      obtain rfl := Except.ok.inj h
      rw [Int.toNat_of_nonneg (by omega)]
      exact ⟨rfl, by omega⟩
    · exact absurd h (by simp)
  | _ => simp [keysetAtLeast, Py.asInt] at h

theorem keysetAbove_eq_ok {pinned keyset : ℕ} {value : Py}
    (h : keysetAbove pinned value = .ok keyset) : value = .int keyset ∧ pinned < keyset := by
  cases value with
  | int number =>
    simp only [keysetAbove, Py.asInt] at h
    split at h
    · rename_i hlt
      obtain rfl := Except.ok.inj h
      rw [Int.toNat_of_nonneg (by omega)]
      exact ⟨rfl, by omega⟩
    · exact absurd h (by simp)
  | _ => simp [keysetAbove, Py.asInt] at h

theorem isText_eq_true {text : String} {value : Option Py} (h : isText text value = true) :
    value = some (.str text) := by
  cases value with
  | none => simp [isText] at h
  | some value =>
    cases value with
    | str other =>
      rw [isText, beq_iff_eq] at h
      rw [h]
    | _ => simp [isText] at h

theorem originOf_eq_some {value : Py} {url : String} (h : originOf value = some url) :
    value = .str url ∧ isOrigin url = true := by
  cases value with
  | str text =>
    simp only [originOf] at h
    split at h
    · rename_i horigin
      obtain rfl := Option.some.inj h
      exact ⟨rfl, horigin⟩
    · exact absurd h (by simp)
  | _ => simp [originOf] at h

/-- The list of addresses is a list of texts, each of which is an origin. -/
theorem urlsOf_eq_ok {value : Py} {urls : List String} (h : urlsOf value = .ok urls) :
    value = .list (urls.map .str) ∧ urls ≠ [] ∧ ∀ url ∈ urls, isOrigin url = true := by
  cases value with
  | list items =>
    simp only [urlsOf] at h
    split at h
    · exact absurd h (by simp)
    rename_i hitems
    rw [orElse_eq_ok_iff, Programs.mapM_eq_some_iff] at h
    have hnonempty : urls ≠ [] := by
      rintro rfl
      cases h
      exact hitems rfl
    clear hitems
    have hboth : items = urls.map .str ∧ ∀ url ∈ urls, isOrigin url = true := by
      clear hnonempty
      induction h with
      | nil => simp
      | cons hfirst _ ih =>
        obtain ⟨rfl, horigin⟩ := originOf_eq_some hfirst
        rw [ih.1]
        refine ⟨rfl, ?_⟩
        rw [List.forall_mem_cons]
        exact ⟨horigin, ih.2⟩
    rw [hboth.1]
    exact ⟨rfl, hnonempty, hboth.2⟩
  | _ => simp [urlsOf] at h

theorem checkStatementNext_eq_ok {value : Py} {next : String}
    (h : checkStatementNext value = .ok next) : value = .str next := by
  cases value with
  | str text =>
    simp only [checkStatementNext] at h
    split at h
    · rw [Except.ok.inj h]
    · obtain ⟨digest, -, h⟩ := bind_eq_ok_iff.mp h
      obtain ⟨-, -, h⟩ := bind_eq_ok_iff.mp h
      rw [Except.ok.inj h]
  | _ => simp [checkStatementNext] at h

section

variable {world : World}

/-- What an accepted document says. -/
structure DocumentAccepted (world : World) (body : Bytes) (pinned : String) (pinnedKeyset : ℕ)
    (now : ℤ) (accepted : AcceptedDocument) : Prop where
  document : world.documentOf body = .ok accepted.document
  kid : lookup "kid" accepted.document.current = some (.str pinned)
  pub : world.fingerprint accepted.pub = pinned
  keyset : accepted.document.keyset = .int accepted.keyset ∧ pinnedKeyset ≤ accepted.keyset
  expiry : world.checkExpiry now accepted.document.expires = .ok ()
  urls : accepted.document.urls = .list (accepted.urls.map .str) ∧ accepted.urls ≠ [] ∧
    ∀ url ∈ accepted.urls, isOrigin url = true
  next : checkNext accepted.document.nextKid = .ok ()
  message : accepted.message = world.documentMessage body

theorem lookup_of_hasKid {kid : String} {key : List (String × Py)}
    (h : World.acceptDocument.hasKid kid key = true) : lookup "kid" key = some (.str kid) := by
  rw [World.acceptDocument.hasKid] at h
  split at h
  · rename_i hlookup
    rw [hlookup, beq_iff_eq.mp h]
  · exact absurd h (by simp)

theorem documentAccepted_of_acceptDocument {body header : Bytes} {pinned : String}
    {pinnedKeyset : ℕ} {now : ℤ} {accepted : AcceptedDocument}
    (h : world.acceptDocument body header pinned pinnedKeyset now = .ok accepted) :
    DocumentAccepted world body pinned pinnedKeyset now accepted := by
  rw [World.acceptDocument] at h
  obtain ⟨headerText, -, h⟩ := bind_eq_ok_iff.mp h
  obtain ⟨document, hdocument, h⟩ := bind_eq_ok_iff.mp h
  obtain ⟨pubText, -, h⟩ := bind_eq_ok_iff.mp h
  obtain ⟨pub, -, h⟩ := bind_eq_ok_iff.mp h
  obtain ⟨_, hkid, h⟩ := bind_eq_ok_iff.mp h
  obtain ⟨_, hpinned, h⟩ := bind_eq_ok_iff.mp h
  obtain ⟨keyset, hkeyset, h⟩ := bind_eq_ok_iff.mp h
  obtain ⟨_, hexpiry, h⟩ := bind_eq_ok_iff.mp h
  obtain ⟨signature, -, h⟩ := bind_eq_ok_iff.mp h
  obtain ⟨-, -, h⟩ := bind_eq_ok_iff.mp h
  obtain ⟨urls, hurls, h⟩ := bind_eq_ok_iff.mp h
  obtain ⟨_, hnext, h⟩ := bind_eq_ok_iff.mp h
  obtain rfl := Except.ok.inj h
  rw [require_eq_ok_iff, beq_iff_eq] at hpinned
  rw [require_eq_ok_iff, Bool.and_eq_true, hpinned] at hkid
  exact
    { document := hdocument
      kid := lookup_of_hasKid hkid.2
      pub := hpinned
      keyset := keysetAtLeast_eq_ok hkeyset
      expiry := hexpiry
      urls := urlsOf_eq_ok hurls
      next := hnext
      message := rfl }

theorem fingerprint_of_signer {signers : List (String × Py)} {fingerprint : String} {pub : Bytes}
    (h : world.signer signers fingerprint = .ok pub) : world.fingerprint pub = fingerprint := by
  rw [World.signer] at h
  obtain ⟨_, -, h⟩ := bind_eq_ok_iff.mp h
  obtain ⟨_, -, h⟩ := bind_eq_ok_iff.mp h
  obtain ⟨_, hrequired, h⟩ := bind_eq_ok_iff.mp h
  obtain rfl := Except.ok.inj h
  rw [require_eq_ok_iff, Bool.and_eq_true] at hrequired
  exact beq_iff_eq.mp hrequired.2

/-- What an accepted statement says. -/
structure StatementAccepted (world : World) (input : Bytes) (pinCurrent pinNext : String)
    (pinKeyset : ℕ) (accepted : AcceptedStatement) (statement : Statement) : Prop where
  pinned : pinNext ≠ ""
  signed : (world.readText input).bind splitSignatures = some accepted.signed
  held : world.statementOf accepted.signed.body = .ok statement
  keyset : statement.keyset = .int accepted.keyset ∧ pinKeyset < accepted.keyset
  current : statement.current = .str pinNext ∧ accepted.current = pinNext
  next : statement.next = .str accepted.next ∧ checkStatementNext statement.next = .ok accepted.next
  pubNext : world.fingerprint accepted.pubNext = pinNext
  revoked : accepted.signed.kind = .revoke → statement.revoked = some (.str pinCurrent)
  pubCurrent : accepted.signed.kind = .rotation →
    ∃ pub, accepted.pubCurrent = some pub ∧ world.fingerprint pub = pinCurrent

theorem statementAccepted_of_acceptStatement {input : Bytes} {pinCurrent pinNext : String}
    {pinKeyset : ℕ} {accepted : AcceptedStatement}
    (h : world.acceptStatement input pinCurrent pinNext pinKeyset = .ok accepted) :
    ∃ statement, StatementAccepted world input pinCurrent pinNext pinKeyset accepted statement := by
  rw [World.acceptStatement] at h
  obtain ⟨raw, hraw, h⟩ := bind_eq_ok_iff.mp h
  obtain ⟨_, hpinned, h⟩ := bind_eq_ok_iff.mp h
  obtain ⟨signed, hsigned, h⟩ := bind_eq_ok_iff.mp h
  obtain ⟨statement, hstatement, h⟩ := bind_eq_ok_iff.mp h
  obtain ⟨signers, -, h⟩ := bind_eq_ok_iff.mp h
  obtain ⟨keyset, hkeyset, h⟩ := bind_eq_ok_iff.mp h
  obtain ⟨_, hcurrent, h⟩ := bind_eq_ok_iff.mp h
  obtain ⟨next, hnext, h⟩ := bind_eq_ok_iff.mp h
  obtain ⟨_, hrevoked, h⟩ := bind_eq_ok_iff.mp h
  obtain ⟨pubNext, hpubNext, h⟩ := bind_eq_ok_iff.mp h
  obtain ⟨signNext, -, h⟩ := bind_eq_ok_iff.mp h
  obtain ⟨pubCurrent, hpubCurrent, h⟩ := bind_eq_ok_iff.mp h
  obtain ⟨signCurrent, -, h⟩ := bind_eq_ok_iff.mp h
  obtain rfl := Except.ok.inj h
  rw [orElse_eq_ok_iff] at hraw hsigned
  rw [require_eq_ok_iff] at hcurrent hrevoked
  refine ⟨statement, ?_⟩
  constructor
  case pinned => exact bne_iff_ne.mp (require_eq_ok_iff.mp hpinned)
  case signed => rw [hraw, Option.bind_some, hsigned]
  case held => exact hstatement
  case keyset => exact keysetAbove_eq_ok hkeyset
  case current => exact ⟨Option.some.inj (isText_eq_true hcurrent), rfl⟩
  case next => exact ⟨checkStatementNext_eq_ok hnext, hnext⟩
  case pubNext => exact fingerprint_of_signer hpubNext
  case revoked =>
    intro hkind
    simp only at hkind
    rw [hkind] at hrevoked
    exact isText_eq_true hrevoked
  case pubCurrent =>
    intro hkind
    simp only at hkind
    rw [hkind, World.currentSigner] at hpubCurrent
    cases hsigner : world.signer signers pinCurrent with
    | error why =>
      rw [hsigner] at hpubCurrent
      exact absurd hpubCurrent (by simp [Except.map])
    | ok pub =>
      rw [hsigner] at hpubCurrent
      exact ⟨pub, (Except.ok.inj hpubCurrent).symm, fingerprint_of_signer hsigner⟩

end

/-! ## The file of fields -/

/-- The characters an origin can hold. -/
def isOriginChar (c : Char) : Bool :=
  isAlphanumeric c || ['.', '-', ':', '[', ']', '/'].contains c

theorem isOriginChar_of_isPortPart {chars : List Char} (h : isPortPart chars = true) :
    chars.all isOriginChar = true := by
  cases chars with
  | nil => rfl
  | cons c digits =>
    simp only [isPortPart, Bool.and_eq_true, beq_iff_eq, List.all_eq_true] at h
    simp only [List.all_cons, Bool.and_eq_true, List.all_eq_true]
    obtain ⟨⟨⟨rfl, hdigits⟩, -⟩, -⟩ := h
    refine ⟨rfl, fun d hd => ?_⟩
    simp [isOriginChar, isAlphanumeric, hdigits d hd]

theorem isOriginChar_of_isBracketed {rest : List Char} (h : isBracketed rest = true) :
    rest.all isOriginChar = true := by
  simp only [isBracketed, Bool.and_eq_true, List.all_eq_true] at h
  obtain ⟨⟨⟨-, haddress⟩, hclose⟩, hport⟩ := h
  have hfront : (rest.takeWhile (· != ']')).all isOriginChar = true := by
    rw [List.all_eq_true]
    intro c hc
    have hkind := haddress c hc
    simp only [Bool.or_eq_true, Bool.and_eq_true, decide_eq_true_eq, beq_iff_eq] at hkind
    simp only [isOriginChar, isAlphanumeric, JavaScript.isLetter, JavaScript.isLower,
      Bool.or_eq_true, Bool.and_eq_true, decide_eq_true_eq]
    obtain (((hdigit | hlower) | hupper) | rfl) | rfl := hkind
    · exact .inl (.inr hdigit)
    · exact .inl (.inl (.inl ⟨hlower.1, Char.le_trans hlower.2 (by decide)⟩))
    · exact .inl (.inl (.inr ⟨hupper.1, Char.le_trans hupper.2 (by decide)⟩))
    · exact .inr (by decide)
    · exact .inr (by decide)
  have hback : (rest.dropWhile (· != ']')).all isOriginChar = true := by
    cases hdrop : rest.dropWhile (· != ']') with
    | nil => rfl
    | cons c tail =>
      rw [hdrop] at hclose hport
      rw [List.tail_cons] at hport
      rw [List.head?_cons, beq_iff_eq, Option.some.injEq] at hclose
      rw [List.all_cons, hclose, isOriginChar_of_isPortPart hport]
      rfl
  rw [← List.takeWhile_append_dropWhile (p := (· != ']')) (l := rest), List.all_append, hfront, hback]
  rfl

theorem isOriginChar_of_isHostName {host : List Char} (h : isHostName host = true) :
    host.all isOriginChar = true := by
  simp only [isHostName, Bool.and_eq_true, List.all_eq_true] at h
  rw [List.all_eq_true]
  intro c hc
  have hkind := h.1 c hc
  simp only [Bool.or_eq_true, beq_iff_eq] at hkind
  rw [isOriginChar, Bool.or_eq_true]
  obtain (halphanumeric | rfl) | rfl := hkind
  · exact .inl halphanumeric
  · exact .inr (by decide)
  · exact .inr (by decide)

theorem isOriginChar_of_isOrigin {url : String} (h : isOrigin url = true) :
    url.toList.all isOriginChar = true := by
  rw [isOrigin] at h
  cases hafter : JavaScript.afterFront "https://" url with
  | none => simp [hafter] at h
  | some rest =>
    simp only [hafter] at h
    rw [JavaScript.afterFront_eq_some_iff] at hafter
    have hrest : rest.toList.all isOriginChar = true := by
      split at h
      · rename_i chars hchars
        rw [hchars, List.all_cons, isOriginChar_of_isBracketed h]
        rfl
      · rename_i chars _
        rw [Bool.and_eq_true] at h
        rw [← List.takeWhile_append_dropWhile (p := (· != ':')) (l := rest.toList), List.all_append,
          isOriginChar_of_isHostName h.1, isOriginChar_of_isPortPart h.2]
        rfl
    rw [hafter, String.toList_append, List.all_append, hrest]
    decide

/-- A character no origin holds does not stand in an origin. -/
theorem notMem_of_isOrigin {url : String} (h : isOrigin url = true) {c : Char}
    (hc : isOriginChar c = false) : c ∉ url.toList := by
  intro hmem
  have hall := List.all_eq_true.mp (isOriginChar_of_isOrigin h) c hmem
  rw [hc] at hall
  exact Bool.false_ne_true hall

theorem notMem_intercalate {urls : List String} (horigins : ∀ url ∈ urls, isOrigin url = true)
    {c : Char} (hc : isOriginChar c = false) (hcomma : c ≠ ',') :
    c ∉ (",".intercalate urls).toList := by
  rw [String.toList_intercalate]
  induction urls with
  | nil => simp
  | cons url urls ih =>
    rw [List.forall_mem_cons] at horigins
    cases urls with
    | nil => simpa using notMem_of_isOrigin horigins.1 hc
    | cons next urls =>
      rw [List.map_cons, List.map_cons, List.intercalate_cons_cons, List.append_assoc,
        List.mem_append, List.mem_append]
      rintro (hmem | hmem | hmem)
      · exact notMem_of_isOrigin horigins.1 hc hmem
      · exact hcomma (by simpa using hmem)
      · exact ih horigins.2 hmem

theorem oneLine_decimal (n : ℕ) : OneLine (toString n) := by
  have hdigit : ∀ c ∈ (toString n).toList, c.isDigit = true := by
    intro c hc
    rw [Nat.toString_eq_ofList_toDigits, String.toList_ofList] at hc
    exact Nat.isDigit_of_mem_toDigits (by decide) (by decide) hc
  exact ⟨fun hmem => absurd (hdigit _ hmem) (by decide),
    fun hmem => absurd (hdigit _ hmem) (by decide)⟩

theorem decimalOf_toString (n : ℕ) : decimalOf (toString n) = n := by
  rw [decimalOf, Nat.toString_eq_ofList_toDigits, String.toList_ofList]
  exact Nat.ofDigitChars_toDigits (by decide) (by decide)

theorem oneLine_urls {urls : List String} (horigins : ∀ url ∈ urls, isOrigin url = true) :
    OneLine (",".intercalate urls) :=
  ⟨notMem_intercalate horigins (by decide) (by decide),
    notMem_intercalate horigins (by decide) (by decide)⟩

/-- Where the next fingerprint stands on one line, every field is on the line the shell takes
it from. -/
theorem documentPin_fields {pin updated next : String} {accepted : AcceptedDocument}
    (hnext : accepted.document.nextKid.print = next) (hone : OneLine next)
    (horigins : ∀ url ∈ accepted.urls, isOrigin url = true) :
    documentPin pin updated accepted =
      { current := pinFieldOf pin "current"
        next := next
        keyset := toString accepted.keyset
        urls := ",".intercalate accepted.urls
        pinnedBy := pinFieldOf pin "pinned_by"
        updated := updated } := by
  have hlines : split '\n' accepted.fieldsText =
      [next, toString accepted.keyset, ",".intercalate accepted.urls, ""] := by
    rw [AcceptedDocument.fieldsText, hnext]
    change split '\n' (next ++ String.singleton '\n' ++ (toString accepted.keyset ++
      String.singleton '\n' ++ (",".intercalate accepted.urls ++ String.singleton '\n'))) = _
    rw [JavaScript.split_append_cons hone.1,
      JavaScript.split_append_cons (oneLine_decimal _).1,
      JavaScript.split_append_singleton (oneLine_urls horigins).1]
  rw [documentPin, lineOf, lineOf, lineOf, hlines]
  simp only [List.getD_cons_zero, List.getD_cons_succ, substituted_of_oneLine hone,
    substituted_of_oneLine (oneLine_decimal _), substituted_of_oneLine (oneLine_urls horigins)]

theorem oneLine_kind (kind : StatementKind) : OneLine kind.text := by
  cases kind with
  | rotation => decide
  | revoke => decide

theorem statementPin_fields {pin updated : String} {accepted : AcceptedStatement}
    (hcurrent : OneLine accepted.current) (hnext : OneLine accepted.next) :
    statementPin pin updated accepted =
      { current := accepted.current
        next := accepted.next
        keyset := toString accepted.keyset
        urls := pinFieldOf pin "urls"
        pinnedBy := pinFieldOf pin "pinned_by"
        updated := updated } := by
  have hkind := oneLine_kind accepted.signed.kind
  have hlines : split '\n' accepted.fieldsText =
      [accepted.signed.kind.text, accepted.current, toString accepted.keyset, accepted.next, ""] := by
    rw [AcceptedStatement.fieldsText]
    change split '\n' (accepted.signed.kind.text ++ String.singleton '\n' ++ (accepted.current ++
      String.singleton '\n' ++ (toString accepted.keyset ++ String.singleton '\n' ++
        (accepted.next ++ String.singleton '\n')))) = _
    rw [JavaScript.split_append_cons hkind.1, JavaScript.split_append_cons hcurrent.1,
      JavaScript.split_append_cons (oneLine_decimal _).1, JavaScript.split_append_singleton hnext.1]
  rw [statementPin, lineOf, lineOf, lineOf, hlines]
  simp only [List.getD_cons_zero, List.getD_cons_succ, substituted_of_oneLine hcurrent,
    substituted_of_oneLine hnext, substituted_of_oneLine (oneLine_decimal _)]

/-! ## The pinned fields and how a run may change them -/

/-- The fields the trust rests on. -/
structure Pinned where
  current : String
  next : String
  keyset : ℕ
  urls : String

/-- What a host has pinned. -/
def Host.pinned (host : Host) : Pinned where
  current := pinFieldOf (host.pin.getD "") "current"
  next := pinFieldOf (host.pin.getD "") "next"
  keyset := decimalOf (pinFieldOf (host.pin.getD "") "keyset")
  urls := pinFieldOf (host.pin.getD "") "urls"

/-- What a written pin file pins. -/
theorem pinned_written {host : Host} {fields : PinFields} (hpin : host.pin = some fields.text)
    (hcurrent : OneLine fields.current) (hnext : OneLine fields.next)
    (hkeyset : OneLine fields.keyset) (hurls : OneLine fields.urls)
    (hpinnedBy : OneLine fields.pinnedBy) :
    host.pinned =
      { current := fields.current
        next := fields.next
        keyset := decimalOf fields.keyset
        urls := fields.urls } := by
  obtain ⟨hcurrent', hnext', hkeyset', hurls'⟩ := pinFieldOf_text hcurrent hnext hkeyset hurls hpinnedBy
  rw [Host.pinned, hpin, Option.getD_some, hcurrent', hnext', hkeyset', hurls']

theorem pinned_of_pin {host : Host} {pin : String} (hpin : host.pin = some pin) :
    host.pinned.current = pinFieldOf pin "current" ∧ host.pinned.next = pinFieldOf pin "next" ∧
      host.pinned.keyset = decimalOf (pinFieldOf pin "keyset") ∧
      host.pinned.urls = pinFieldOf pin "urls" := by
  rw [Host.pinned, hpin, Option.getD_some]
  exact ⟨rfl, rfl, rfl, rfl⟩

/-- The document of a run. -/
def Run.body (run : Run) : Bytes := (splitFirstLine run.input).2

/-- The signed part of a run's statement. -/
def World.signedStatement (world : World) (run : Run) : Option SignedStatement :=
  (world.readText run.input).bind splitSignatures

/-- How a run may change the pinned fields, where `signed` says which texts a key has signed. -/
inductive Justified (world : World) (signed : Bytes → Bytes → Prop) (run : Run)
    (before after : Pinned) : Prop
  | unchanged (hafter : after = before)
  | document {document : Document} {next : String} {keyset : ℕ} {urls : List String} {pub : Bytes}
    (hverb : run.isStatement = false) (hdocument : world.documentOf run.body = .ok document)
    (hnext : document.nextKid = .str next) (hkeyset : document.keyset = .int keyset)
    (hurls : document.urls = .list (urls.map .str))
    (hexpiry : world.checkExpiry run.now document.expires = .ok ())
    (hpub : world.fingerprint pub = before.current)
    (hsigned : signed pub (world.documentMessage run.body)) (hraised : before.keyset ≤ keyset)
    (hafter : after =
      { current := before.current, next, keyset, urls := ",".intercalate urls })
  | statement {part : SignedStatement} {statement : Statement} {next : String} {keyset : ℕ}
    {pubNext : Bytes} (hverb : run.isStatement = true)
    (hpart : world.signedStatement run = some part)
    (hstatement : world.statementOf part.body = .ok statement)
    (hcurrent : statement.current = .str before.next) (hnext : statement.next = .str next)
    (hkeyset : statement.keyset = .int keyset) (hraised : before.keyset < keyset)
    (hpubNext : world.fingerprint pubNext = before.next)
    (hsigned : signed pubNext (world.statementMessage part.body))
    (hold : statement.revoked = some (.str before.current) ∧ part.kind = .revoke ∨
      ∃ pub, world.fingerprint pub = before.current ∧
        signed pub (world.statementMessage part.body))
    (hafter : after = { current := before.next, next, keyset, urls := before.urls })

/-- The next fingerprint a run's input gives, when it decodes to a digest, stands on one line;
a value that is no text is one the programs refuse. -/
def KeepsLines (world : World) (run : Run) : Prop :=
  if run.isStatement then
    ∀ part statement text, world.signedStatement run = some part →
      world.statementOf part.body = .ok statement → statement.next = .str text →
      checkStatementNext statement.next = .ok text → OneLine text
  else
    ∀ document, world.documentOf run.body = .ok document →
      checkNext document.nextKid = .ok () →
      ∃ text, document.nextKid = .str text ∧ OneLine text

section

variable {world : World} {host : Host}

theorem pinnedFields_eq_ok {pin current : String} {keyset : ℕ}
    (h : pinnedFields pin = .ok (current, keyset)) :
    current = pinFieldOf pin "current" ∧ keyset = decimalOf (pinFieldOf pin "keyset") := by
  rw [pinnedFields] at h
  split at h
  · exact absurd h (by simp)
  · split at h
    · have hboth := Prod.mk.inj (Except.ok.inj h)
      exact ⟨hboth.1.symm, hboth.2.symm⟩
    · exact absurd h (by simp)

/-- What stands behind the writes of a document. -/
theorem documentWrite_eq_ok {input : Bytes} {now : ℤ} {updated : String} {writes : Writes}
    (h : world.documentWrite host input now updated = .ok writes) :
    ∃ pin accepted, host.pin = some pin ∧
      DocumentAccepted world (splitFirstLine input).2 (pinFieldOf pin "current")
        (decimalOf (pinFieldOf pin "keyset")) now accepted ∧
      world.verifies accepted.pub accepted.message accepted.signature = true ∧
      writes.pin = (documentPin pin updated accepted).text := by
  rw [World.documentWrite] at h
  obtain ⟨pin, hpin, h⟩ := bind_eq_ok_iff.mp h
  obtain ⟨⟨current, keyset⟩, hfields, h⟩ := bind_eq_ok_iff.mp h
  obtain ⟨-, -, h⟩ := bind_eq_ok_iff.mp h
  obtain ⟨-, -, h⟩ := bind_eq_ok_iff.mp h
  obtain ⟨accepted, haccepted, h⟩ := bind_eq_ok_iff.mp h
  obtain ⟨_, hverifies, h⟩ := bind_eq_ok_iff.mp h
  obtain ⟨hcurrent, hkeyset⟩ := pinnedFields_eq_ok hfields
  rw [hcurrent, hkeyset] at haccepted
  refine ⟨pin, accepted, orElse_eq_ok_iff.mp hpin, documentAccepted_of_acceptDocument haccepted,
    require_eq_ok_iff.mp hverifies, ?_⟩
  simp only at h
  split at h
  · exact congrArg Writes.pin (Except.ok.inj h).symm
  · exact absurd h (by simp)
  · exact congrArg Writes.pin (Except.ok.inj h).symm

/-- What stands behind the writes of a statement. -/
theorem statementWrite_eq_ok {input : Bytes} {updated : String} {writes : Writes}
    (h : world.statementWrite host input updated = .ok writes) :
    ∃ pin accepted statement, host.pin = some pin ∧
      StatementAccepted world input (pinFieldOf pin "current") (pinFieldOf pin "next")
        (decimalOf (pinFieldOf pin "keyset")) accepted statement ∧
      world.signaturesVerify accepted = true ∧
      writes.pin = (statementPin pin updated accepted).text := by
  rw [World.statementWrite] at h
  obtain ⟨pin, hpin, h⟩ := bind_eq_ok_iff.mp h
  obtain ⟨⟨current, keyset⟩, hfields, h⟩ := bind_eq_ok_iff.mp h
  obtain ⟨-, -, h⟩ := bind_eq_ok_iff.mp h
  obtain ⟨accepted, haccepted, h⟩ := bind_eq_ok_iff.mp h
  obtain ⟨_, hverifies, h⟩ := bind_eq_ok_iff.mp h
  obtain ⟨hcurrent, hkeyset⟩ := pinnedFields_eq_ok hfields
  rw [hcurrent, hkeyset] at haccepted
  obtain ⟨statement, hstatement⟩ := statementAccepted_of_acceptStatement haccepted
  refine ⟨pin, accepted, statement, orElse_eq_ok_iff.mp hpin, hstatement,
    require_eq_ok_iff.mp hverifies, ?_⟩
  exact congrArg Writes.pin (Except.ok.inj h).symm

/-- The first line of the fields of a statement is its kind. -/
theorem lineOf_kind (accepted : AcceptedStatement) :
    lineOf accepted.fieldsText 0 = accepted.signed.kind.text := by
  have hkind := oneLine_kind accepted.signed.kind
  have hlines : split '\n' accepted.fieldsText = accepted.signed.kind.text :: _ :=
    JavaScript.split_append_cons hkind.1
  rw [lineOf, hlines, List.getD_cons_zero, substituted_of_oneLine hkind]

/-- What a host pins once the pin file of an accepted statement is in place. -/
theorem pinned_statement {run : Run} {pin : String} {accepted : AcceptedStatement}
    {statement : Statement} (hverb : run.isStatement = true) (hkeeps : KeepsLines world run)
    (hpin : host.pin = some pin)
    (haccepted : StatementAccepted world run.input (pinFieldOf pin "current")
      (pinFieldOf pin "next") (decimalOf (pinFieldOf pin "keyset")) accepted statement)
    {after : Host} (hafter : after.pin = some (statementPin pin run.updated accepted).text) :
    after.pinned =
      { current := host.pinned.next
        next := accepted.next
        keyset := accepted.keyset
        urls := host.pinned.urls } := by
  rw [KeepsLines, if_pos hverb] at hkeeps
  have hnext : OneLine accepted.next :=
    hkeeps accepted.signed statement accepted.next haccepted.signed haccepted.held
      haccepted.next.1 haccepted.next.2
  have hcurrent : OneLine accepted.current := by
    rw [haccepted.current.2]
    exact oneLine_pinFieldOf pin "next"
  have hfields : statementPin pin run.updated accepted = _ := statementPin_fields hcurrent hnext
  rw [hfields] at hafter
  have hpinned := pinned_written hafter hcurrent hnext (oneLine_decimal _)
    (oneLine_pinFieldOf pin "urls") (oneLine_pinFieldOf pin "pinned_by")
  obtain ⟨-, hnxt, -, hurls⟩ := pinned_of_pin hpin
  simp only [decimalOf_toString, haccepted.current.2, ← hnxt, ← hurls] at hpinned
  exact hpinned

variable {signed : Bytes → Bytes → Prop}
  (hsound : ∀ pub message signature, world.verifies pub message signature = true →
    signed pub message)
include hsound

/-- A completed write of a document. -/
theorem justified_document {run : Run} {writes : Writes} (hverb : run.isStatement = false)
    (hkeeps : KeepsLines world run)
    (hwrites : world.documentWrite host run.input run.now run.updated = .ok writes) {after : Host}
    (hafter : after.pin = some writes.pin) :
    Justified world signed run host.pinned after.pinned := by
  obtain ⟨pin, accepted, hpin, haccepted, hverifies, hwritten⟩ := documentWrite_eq_ok hwrites
  rw [KeepsLines, hverb] at hkeeps
  obtain ⟨text, htext, hone⟩ := hkeeps accepted.document haccepted.document haccepted.next
  have horigins := haccepted.urls.2.2
  have hprint : accepted.document.nextKid.print = text := by
    rw [htext]
    rfl
  have hfields : documentPin pin run.updated accepted = _ := documentPin_fields hprint hone horigins
  rw [hwritten, hfields] at hafter
  have hpinned := pinned_written hafter (oneLine_pinFieldOf pin "current") hone
    (oneLine_decimal _) (oneLine_urls horigins) (oneLine_pinFieldOf pin "pinned_by")
  simp only [decimalOf_toString] at hpinned
  obtain ⟨hcurrent, -, hkeyset, -⟩ := pinned_of_pin hpin
  have hpub := haccepted.pub
  have hraised := haccepted.keyset.2
  have hmessage := hsound _ _ _ hverifies
  rw [← hcurrent] at hpub hpinned
  rw [← hkeyset] at hraised
  rw [haccepted.message] at hmessage
  exact .document hverb haccepted.document htext haccepted.keyset.1 haccepted.urls.1
    haccepted.expiry hpub hmessage hraised hpinned

/-- A completed write of a statement. -/
theorem justified_statement {run : Run} {writes : Writes} (hverb : run.isStatement = true)
    (hkeeps : KeepsLines world run)
    (hwrites : world.statementWrite host run.input run.updated = .ok writes) {after : Host}
    (hafter : after.pin = some writes.pin) :
    Justified world signed run host.pinned after.pinned := by
  obtain ⟨pin, accepted, statement, hpin, haccepted, hverifies, hwritten⟩ :=
    statementWrite_eq_ok hwrites
  rw [hwritten] at hafter
  have hpinned := pinned_statement hverb hkeeps hpin haccepted hafter
  obtain ⟨hcur, hnxt, hkeyset, -⟩ := pinned_of_pin hpin
  have hraised := haccepted.keyset.2
  rw [← hkeyset] at hraised
  have hstated := haccepted.current.1
  have hpubNext := haccepted.pubNext
  rw [← hnxt] at hstated hpubNext
  rw [World.signaturesVerify, Bool.and_eq_true, lineOf_kind] at hverifies
  have hold : statement.revoked = some (.str host.pinned.current) ∧
      accepted.signed.kind = .revoke ∨ ∃ pub, world.fingerprint pub = host.pinned.current ∧
        signed pub (world.statementMessage accepted.signed.body) := by
    rw [hcur]
    cases hkind : accepted.signed.kind with
    | revoke => exact .inl ⟨haccepted.revoked hkind, rfl⟩
    | rotation =>
      obtain ⟨pub, hpub, hfingerprint⟩ := haccepted.pubCurrent hkind
      have hverified := hverifies.2
      rw [hkind, hpub] at hverified
      exact .inr ⟨pub, hfingerprint, hsound _ _ _ hverified⟩
  exact .statement hverb haccepted.signed haccepted.held hstated haccepted.next.1
    haccepted.keyset.1 hraised hpubNext (hsound _ _ _ hverifies.1) hold hpinned

/-- Every run leaves the pinned fields alone or changes them as a signed input says. -/
theorem justified_hostAfter {run : Run} (hkeeps : KeepsLines world run) :
    Justified world signed run host.pinned (world.hostAfter host run).pinned := by
  rw [World.hostAfter]
  cases hwrites : world.writes host run with
  | error why => exact .unchanged rfl
  | ok writes =>
    simp only
    cases run.stop with
    | beforeWrites => exact .unchanged rfl
    | betweenWrites => exact .unchanged rfl
    | completed =>
      rw [World.writes] at hwrites
      split at hwrites
      · rename_i hverb
        exact justified_statement hsound hverb hkeeps hwrites rfl
      · rename_i hverb
        exact justified_document hsound (Bool.eq_false_iff.mpr hverb) hkeeps hwrites rfl

end

/-! ## Sequences of runs -/

theorem Justified.keyset_le {world : World} {signed : Bytes → Bytes → Prop} {run : Run}
    {before after : Pinned} (h : Justified world signed run before after) :
    before.keyset ≤ after.keyset := by
  cases h with
  | unchanged hafter => rw [hafter]
  | document _ _ _ _ _ _ _ _ hraised hafter =>
    rw [hafter]
    exact hraised
  | statement _ _ _ _ _ _ hraised _ _ _ hafter =>
    rw [hafter]
    exact Nat.le_of_lt hraised

/-- A run replaces the pin by what a statement says. -/
def World.takesEffect (world : World) (host : Host) (run : Run) : Prop :=
  run.isStatement = true ∧ run.stop = .completed ∧
    ∃ writes, world.statementWrite host run.input run.updated = .ok writes

/-- The text a run's statement has signed. -/
def World.signedText (world : World) (run : Run) : Option String :=
  (world.signedStatement run).map SignedStatement.body

/-- A statement that takes effect has a higher key set than the one pinned, and this is pinned
from then on. -/
theorem keyset_of_takesEffect {world : World} {host : Host} {run : Run}
    (hkeeps : KeepsLines world run) (heffect : world.takesEffect host run) :
    ∃ text statement keyset, world.signedText run = some text ∧
      world.statementOf text = .ok statement ∧ statement.keyset = .int (keyset : ℕ) ∧
      host.pinned.keyset < keyset ∧ (world.hostAfter host run).pinned.keyset = keyset := by
  obtain ⟨hverb, hstop, writes, hwrites⟩ := heffect
  obtain ⟨pin, accepted, statement, hpin, haccepted, -, hwritten⟩ := statementWrite_eq_ok hwrites
  refine ⟨accepted.signed.body, statement, accepted.keyset, ?_, haccepted.held,
    haccepted.keyset.1, ?_, ?_⟩
  · rw [World.signedText, World.signedStatement, haccepted.signed, Option.map_some]
  · rw [(pinned_of_pin hpin).2.2.1]
    exact haccepted.keyset.2
  · have hafter : (world.hostAfter host run).pin =
        some (statementPin pin run.updated accepted).text := by
      rw [World.hostAfter, World.writes, if_pos hverb, hwrites, hstop]
      exact congrArg some hwritten
    rw [pinned_statement hverb hkeeps hpin haccepted hafter]

section

variable {world : World} {host : Host} {runs : ℕ → Run}

theorem keyset_mono (hle : ∀ n, (world.hostAt host runs n).pinned.keyset ≤
      (world.hostAt host runs (n + 1)).pinned.keyset) {m n : ℕ} (hmn : m ≤ n) :
    (world.hostAt host runs m).pinned.keyset ≤ (world.hostAt host runs n).pinned.keyset := by
  induction hmn with
  | refl => exact le_rfl
  | step _ ih => exact ih.trans (hle _)

end

/-- In every sequence of runs, replayed and stopped as may be, in which every next fingerprint
that is accepted stands on one line: each run leaves the pinned fields alone or changes them
as a signed document or statement says, the pinned key set never falls, and no statement takes
effect twice. -/
theorem trust_chain_holds (world : World) (signed : Bytes → Bytes → Prop)
    (hsound : ∀ pub message signature, world.verifies pub message signature = true →
      signed pub message)
    (host : Host) (runs : ℕ → Run) (hkeeps : ∀ n, KeepsLines world (runs n)) :
    (∀ n, Justified world signed (runs n) (world.hostAt host runs n).pinned
      (world.hostAt host runs (n + 1)).pinned) ∧
    (∀ m n, m ≤ n → (world.hostAt host runs m).pinned.keyset ≤
      (world.hostAt host runs n).pinned.keyset) ∧
    ∀ m n, m < n → world.takesEffect (world.hostAt host runs m) (runs m) →
      world.takesEffect (world.hostAt host runs n) (runs n) →
      world.signedText (runs m) ≠ world.signedText (runs n) := by
  have hjustified : ∀ n, Justified world signed (runs n) (world.hostAt host runs n).pinned
      (world.hostAt host runs (n + 1)).pinned := fun n => justified_hostAfter hsound (hkeeps n)
  have hmono : ∀ m n, m ≤ n → (world.hostAt host runs m).pinned.keyset ≤
      (world.hostAt host runs n).pinned.keyset :=
    fun m n => keyset_mono fun n => (hjustified n).keyset_le
  refine ⟨hjustified, hmono, ?_⟩
  intro m n hmn hfirst hsecond hsame
  obtain ⟨text, statement, keyset, htext, hstatement, hkeyset, -, hafter⟩ :=
    keyset_of_takesEffect (hkeeps m) hfirst
  obtain ⟨text', statement', keyset', htext', hstatement', hkeyset', hhigher, -⟩ :=
    keyset_of_takesEffect (hkeeps n) hsecond
  -- The same signed text holds the same key set, which the pin has reached by then.
  rw [htext, htext', Option.some.injEq] at hsame
  rw [hsame, hstatement', Except.ok.injEq] at hstatement
  rw [← hstatement, hkeyset', Py.int.injEq, Nat.cast_inj] at hkeyset
  have hreached := hmono (m + 1) n hmn
  rw [World.hostAt, hafter] at hreached
  omega

/-! ## A run on either side of the condition -/

/-- The SHA-256 digest of the key of thirty-two zero bytes. -/
def zeroKeyDigest : Bytes :=
  [102, 104, 122, 173, 248, 98, 189, 119, 108, 143, 193, 139, 142, 159, 142, 32, 8, 151, 20, 133,
    110, 226, 51, 179, 144, 42, 89, 29, 13, 95, 41, 37]

/-- The fingerprint of that key. -/
def zeroKeyKid : String := "Zmh6rfhivXdsj8GLjp-OIAiXFIVu4jOzkCpZHQ1fKSU"

/-- A document of that key with another key as the next one. -/
def zeroKeyDocument (next : String) : Py :=
  .dict
    [("keys", .list
      [.dict [("role", .str "current"), ("kid", .str zeroKeyKid),
        ("pub", .str (String.ofList (List.replicate 43 'A')))],
      .dict [("role", .str "next"), ("kid", .str next)]]),
    ("keyset", .int 5), ("expires", .str "2099-01-01T00:00:00Z"),
    ("urls", .list [.str "https://panel.example"])]

/-- The text of that document before its last bracket, where the next fingerprint stands as
JSON writes it. -/
def zeroKeyFront (written : List Char) : List Char :=
  "\x7b\"keys\":[\x7b\"role\":\"current\",\"kid\":\"".toList ++ zeroKeyKid.toList ++
    ("\",\"pub\":\"".toList ++ List.replicate 43 'A' ++
      ("\"\x7d,\x7b\"role\":\"next\",\"kid\":\"".toList ++ written ++
        ("\"\x7d],\"keyset\":5,\"expires\":\"2099-01-01T00:00:00Z\"".toList ++
          ",\"urls\":[\"https://panel.example\"]".toList)))

/-- The text of that document. -/
def zeroKeyText (written : List Char) : List Char := zeroKeyFront written ++ ['\x7d']

/-- The bytes of an ASCII text. -/
def asciiBytes (chars : List Char) : Bytes := chars.map fun c => UInt8.ofNat c.toNat

/-- The text of ASCII bytes. -/
def asciiText (bytes : Bytes) : String := String.ofList (bytes.map fun b => Char.ofNat b.toNat)

/-- The message that signs a text as an identity document. -/
def messageOf (chars : List Char) : Bytes :=
  asciiBytes ("tp-http\n" ++ identityPath ++ "\n").toList ++ asciiBytes chars

/-- A world in which that key has signed one document, the one text that is JSON. -/
def zeroKeyWorld (next : String) (written : List Char) : World where
  loads _ := some (zeroKeyDocument next)
  jsonText bytes := if bytes = asciiBytes (zeroKeyText written) then some (asciiText bytes) else none
  readText bytes := some (asciiText bytes)
  encode text := asciiBytes text.toList
  sha256 _ := zeroKeyDigest
  verifies pub message _ :=
    pub == List.replicate 32 0 && message == messageOf (zeroKeyText written)
  fromIsoFormat _ := some 4070908800

/-- A pin of that key with key set 5. -/
def zeroKeyPin : PinFields where
  current := zeroKeyKid
  next := ""
  keyset := "5"
  urls := "https://panel.example"
  pinnedBy := "install"
  updated := "2026-01-01T00:00:00Z"

/-- A host that has pinned that key. -/
def zeroKeyHost : Host where
  pin := some zeroKeyPin.text
  origin := none

/-- The header of a signature by that key. -/
def zeroKeyHeader : List Char := zeroKeyKid.toList ++ ':' :: List.replicate 86 'A'

/-- A run that takes in that document. -/
def zeroKeyRun (written : List Char) : Run where
  isStatement := false
  input := asciiBytes zeroKeyHeader ++ 10 :: asciiBytes (zeroKeyText written)
  now := 0
  updated := "2026-01-02T00:00:00Z"
  stop := .completed

/-- What the program passes on for that document. -/
def zeroKeyAccepted (next : String) (written : List Char) : AcceptedDocument where
  document :=
    { current := [("role", .str "current"), ("kid", .str zeroKeyKid),
        ("pub", .str (String.ofList (List.replicate 43 'A')))]
      next := some [("role", .str "next"), ("kid", .str next)]
      keyset := .int 5
      expires := .str "2099-01-01T00:00:00Z"
      urls := .list [.str "https://panel.example"] }
  keyset := 5
  urls := ["https://panel.example"]
  pub := List.replicate 32 0
  message := messageOf (zeroKeyText written)
  signature := List.replicate 64 0

/-- The parts of the header, evaluated once. -/
theorem zeroKeyHeader_parts :
    (∀ b ∈ asciiBytes zeroKeyHeader, (b != 10) = true) ∧
      ((((asciiBytes zeroKeyHeader).map fun b => Char.ofNat b.toNat).dropWhile
        isPythonSpace).rdropWhile isPythonSpace) = zeroKeyHeader ∧
      zeroKeyHeader.takeWhile (· != ':') = zeroKeyKid.toList ∧
      (zeroKeyHeader.dropWhile (· != ':')).tail = List.replicate 86 'A' := by
  decide +kernel

/-- What the checks find in the document and the pin, evaluated once. -/
theorem zeroKey_checks :
    JavaScript.toBase64Url zeroKeyDigest = zeroKeyKid ∧
      b64d (String.ofList (List.replicate 43 'A')) = .ok (List.replicate 32 0) ∧
      b64d (String.ofList (List.replicate 86 'A')) = .ok (List.replicate 64 0) ∧
      urlsOf (.list [.str "https://panel.example"]) = .ok ["https://panel.example"] ∧
      pinnedFields zeroKeyPin.text = .ok (zeroKeyKid, 5) := by
  decide +kernel

theorem splitFirstLine_zeroKeyRun (written : List Char) :
    splitFirstLine (zeroKeyRun written).input =
      (asciiBytes zeroKeyHeader, asciiBytes (zeroKeyText written)) := by
  have hline := zeroKeyHeader_parts.1
  rw [splitFirstLine, zeroKeyRun, List.takeWhile_append_of_pos hline,
    List.dropWhile_append_of_pos hline]
  simp

theorem getLast?_zeroKeyRun (written : List Char) :
    (zeroKeyRun written).input.getLast? = some 125 := by
  have hlast : asciiBytes (zeroKeyText written) = asciiBytes (zeroKeyFront written) ++ [125] :=
    List.map_append
  rw [zeroKeyRun, hlast, ← List.cons_append, ← List.append_assoc, List.getLast?_concat]

theorem verifies_zeroKeyWorld (next : String) (written : List Char) (signature : Bytes) :
    (zeroKeyWorld next written).verifies (List.replicate 32 0) (messageOf (zeroKeyText written))
      signature = true := by
  rw [zeroKeyWorld]
  simp only [beq_self_eq_true, Bool.and_self]

theorem strip_zeroKeyHeader :
    strip (asciiText (asciiBytes zeroKeyHeader)) = String.ofList zeroKeyHeader := by
  rw [strip, asciiText, String.toList_ofList, zeroKeyHeader_parts.2.1]

theorem partition_zeroKeyHeader :
    partition ':' (String.ofList zeroKeyHeader) =
      (zeroKeyKid, String.ofList (List.replicate 86 'A')) := by
  obtain ⟨-, -, hkid, hsignature⟩ := zeroKeyHeader_parts
  rw [partition, String.toList_ofList, hkid, hsignature, String.ofList_toList]

theorem fingerprint_zeroKeyWorld (next : String) (written : List Char) (pub : Bytes) :
    (zeroKeyWorld next written).fingerprint pub = zeroKeyKid :=
  zeroKey_checks.1

theorem acceptDocument_zeroKey {next : String} (written : List Char)
    (hnext : checkNext (.str next) = .ok ()) :
    (zeroKeyWorld next written).acceptDocument (asciiBytes (zeroKeyText written))
      (asciiBytes zeroKeyHeader) zeroKeyKid 5 0 = .ok (zeroKeyAccepted next written) := by
  obtain ⟨-, hpub, hsignature, hurls, -⟩ := zeroKey_checks
  rw [World.acceptDocument]
  refine bind_eq_ok_iff.mpr ⟨asciiText (asciiBytes zeroKeyHeader), rfl, ?_⟩
  refine bind_eq_ok_iff.mpr ⟨(zeroKeyAccepted next written).document, ?_, ?_⟩
  · rw [World.documentOf]
    refine bind_eq_ok_iff.mpr ⟨zeroKeyDocument next, ?_, rfl⟩
    simp [zeroKeyWorld, orElse_eq_ok_iff]
  refine bind_eq_ok_iff.mpr ⟨String.ofList (List.replicate 43 'A'), rfl, ?_⟩
  refine bind_eq_ok_iff.mpr ⟨List.replicate 32 0, hpub, ?_⟩
  rw [fingerprint_zeroKeyWorld]
  refine bind_eq_ok_iff.mpr ⟨(), require_eq_ok_iff.mpr (beq_self_eq_true zeroKeyKid), ?_⟩
  refine bind_eq_ok_iff.mpr ⟨(), require_eq_ok_iff.mpr (beq_self_eq_true zeroKeyKid), ?_⟩
  refine bind_eq_ok_iff.mpr ⟨5, rfl, ?_⟩
  refine bind_eq_ok_iff.mpr ⟨(), rfl, ?_⟩
  rw [strip_zeroKeyHeader, partition_zeroKeyHeader]
  refine bind_eq_ok_iff.mpr ⟨List.replicate 64 0, hsignature, ?_⟩
  refine bind_eq_ok_iff.mpr ⟨(), require_eq_ok_iff.mpr ?_, ?_⟩
  · rw [beq_self_eq_true, List.length_replicate]
    rfl
  refine bind_eq_ok_iff.mpr ⟨["https://panel.example"], hurls, ?_⟩
  exact bind_eq_ok_iff.mpr ⟨(), hnext, rfl⟩

/-- The host takes the document in when its next fingerprint decodes to a digest. -/
theorem writes_zeroKey {next : String} {written : List Char}
    (hnext : checkNext (.str next) = .ok ()) (hlength : (zeroKeyRun written).input.length ≤ 65536) :
    (zeroKeyWorld next written).writes zeroKeyHost (zeroKeyRun written) =
      .ok
        { origin := none
          pin := (documentPin zeroKeyPin.text "2026-01-02T00:00:00Z"
            (zeroKeyAccepted next written)).text } := by
  change (zeroKeyWorld next written).documentWrite zeroKeyHost (zeroKeyRun written).input 0
    "2026-01-02T00:00:00Z" = _
  rw [World.documentWrite]
  refine bind_eq_ok_iff.mpr ⟨_, rfl, ?_⟩
  refine bind_eq_ok_iff.mpr ⟨(zeroKeyKid, 5), zeroKey_checks.2.2.2.2, ?_⟩
  refine bind_eq_ok_iff.mpr ⟨(), require_eq_ok_iff.mpr (decide_eq_true hlength), ?_⟩
  refine bind_eq_ok_iff.mpr ⟨(), require_eq_ok_iff.mpr ?_, ?_⟩
  · rw [getLast?_zeroKeyRun]
    rfl
  rw [splitFirstLine_zeroKeyRun]
  refine bind_eq_ok_iff.mpr ⟨_, acceptDocument_zeroKey written hnext, ?_⟩
  exact bind_eq_ok_iff.mpr ⟨(), require_eq_ok_iff.mpr (verifies_zeroKeyWorld next written _), rfl⟩

/-- What the host pins after it has taken the document in: the lines the fields stand on. -/
theorem pinned_zeroKey {next : String} {written : List Char}
    (hnext : checkNext (.str next) = .ok ()) (hlength : (zeroKeyRun written).input.length ≤ 65536) :
    ((zeroKeyWorld next written).hostAfter zeroKeyHost (zeroKeyRun written)).pinned =
      { current := zeroKeyHost.pinned.current
        next := lineOf (zeroKeyAccepted next written).fieldsText 0
        keyset := decimalOf (lineOf (zeroKeyAccepted next written).fieldsText 1)
        urls := lineOf (zeroKeyAccepted next written).fieldsText 2 } := by
  have hafter : ((zeroKeyWorld next written).hostAfter zeroKeyHost (zeroKeyRun written)).pin =
      some (documentPin zeroKeyPin.text "2026-01-02T00:00:00Z" (zeroKeyAccepted next written)).text := by
    rw [World.hostAfter, writes_zeroKey hnext hlength]
    rfl
  have hpin : zeroKeyHost.pin = some zeroKeyPin.text := rfl
  rw [(pinned_of_pin hpin).1, pinned_written hafter (oneLine_pinFieldOf _ "current")
    (oneLine_lineOf _ 0) (oneLine_lineOf _ 1) (oneLine_lineOf _ 2)
    (oneLine_pinFieldOf _ "pinned_by")]
  rfl

theorem keyset_zeroKeyHost : zeroKeyHost.pinned.keyset = 5 := by
  have hpin : zeroKeyHost.pin = some zeroKeyPin.text := rfl
  rw [(pinned_of_pin hpin).2.2.1]
  exact (pinnedFields_eq_ok zeroKey_checks.2.2.2.2).2.symm

/-- What only holds of signed texts in the world of that key. -/
theorem signed_of_verifies {next : String} {written : List Char} (pub message signature : Bytes)
    (hverifies : (zeroKeyWorld next written).verifies pub message signature = true) :
    pub = List.replicate 32 0 ∧ message = messageOf (zeroKeyText written) := by
  rw [zeroKeyWorld] at hverifies
  exact ⟨beq_iff_eq.mp (Bool.and_eq_true_iff.mp hverifies).1,
    beq_iff_eq.mp (Bool.and_eq_true_iff.mp hverifies).2⟩

/-- The one document there is in the world of that key. -/
theorem documentOf_zeroKey {next : String} {written : List Char} {body : Bytes}
    {document : Document} (h : (zeroKeyWorld next written).documentOf body = .ok document) :
    document = (zeroKeyAccepted next written).document := by
  rw [World.documentOf] at h
  obtain ⟨value, hvalue, hread⟩ := bind_eq_ok_iff.mp h
  rw [orElse_eq_ok_iff, Option.bind_eq_some_iff] at hvalue
  obtain ⟨_, -, hvalue⟩ := hvalue
  rw [← Option.some.inj hvalue] at hread
  exact (Except.ok.inj hread).symm

/-- A next fingerprint of 42 characters `A` and a `3` between line breaks. -/
def brokenNext : String := String.ofList ('\n' :: '3' :: '\n' :: List.replicate 42 'A')

/-- That fingerprint as JSON writes it. -/
def brokenWritten : List Char := "\\n3\\n".toList ++ List.replicate 42 'A'

/-- A signed document whose next fingerprint has line breaks lowers the pinned key set. -/
theorem not_keyset_mono_broken_next :
    ∃ (world : World) (signed : Bytes → Bytes → Prop) (host : Host) (runs : ℕ → Run),
      (∀ pub message signature, world.verifies pub message signature = true →
        signed pub message) ∧
      (world.hostAt host runs 0).pinned.keyset = 5 ∧
      (world.hostAt host runs 1).pinned.keyset = 3 := by
  refine ⟨zeroKeyWorld brokenNext brokenWritten,
    fun pub message => pub = List.replicate 32 0 ∧ message = messageOf (zeroKeyText brokenWritten),
    zeroKeyHost, fun _ => zeroKeyRun brokenWritten, signed_of_verifies, keyset_zeroKeyHost, ?_⟩
  have hline : lineOf (zeroKeyAccepted brokenNext brokenWritten).fieldsText 1 = toString 3 := by
    decide +kernel
  rw [World.hostAt, World.hostAt, pinned_zeroKey (by decide +kernel) (by decide +kernel), hline]
  exact decimalOf_toString 3

/-- A next fingerprint on one line. -/
def plainNext : List Char := List.replicate 43 'A'

theorem keepsLines_plainNext :
    KeepsLines (zeroKeyWorld (String.ofList plainNext) plainNext) (zeroKeyRun plainNext) := by
  intro document hdocument _
  have hnext : document.nextKid = .str (String.ofList plainNext) := by
    rw [documentOf_zeroKey hdocument]
    rfl
  refine ⟨String.ofList plainNext, hnext, ?_⟩
  rw [OneLine, String.toList_ofList]
  exact ⟨by decide, by decide⟩

/-- With a plain fingerprint the document takes effect, and the key set never falls. -/
theorem trust_chain_plain_next :
    let world := zeroKeyWorld (String.ofList plainNext) plainNext
    let runs := fun _ => zeroKeyRun plainNext
    (world.hostAt zeroKeyHost runs 1).pinned.next = String.ofList plainNext ∧
      ∀ m n, m ≤ n → (world.hostAt zeroKeyHost runs m).pinned.keyset ≤
        (world.hostAt zeroKeyHost runs n).pinned.keyset := by
  refine ⟨?_, ?_⟩
  · rw [World.hostAt, World.hostAt, pinned_zeroKey (by decide +kernel) (by decide +kernel)]
    decide +kernel
  · exact (trust_chain_holds (zeroKeyWorld (String.ofList plainNext) plainNext)
      (fun pub message => pub = List.replicate 32 0 ∧ message = messageOf (zeroKeyText plainNext))
      signed_of_verifies zeroKeyHost (fun _ => zeroKeyRun plainNext)
      fun _ => keepsLines_plainNext).2.1

end Turbopaneld.PanelIdentity
