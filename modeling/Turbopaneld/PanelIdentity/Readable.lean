/-
# What the helper writes, the daemon reads

The daemon refuses every session while it cannot parse the pin file.  The helper checks a
next fingerprint by decoding it, the daemon by its spelling; a key set is exact in the
helper and a double in the daemon.  Where the two agree on the input, and only there, the
file an accepted input leaves behind is read as what that input says.
-/

import Turbopaneld.PanelIdentity.TrustChain

namespace Turbopaneld.PanelIdentity

open JavaScript (split afterFront)
open Programs (bind_eq_ok_iff)

/-! ## Lines of the file -/

/-- A text with a character that is no space is not blank. -/
theorem trim_ne_empty {text : String} {c : Char} (hmem : c ∈ text.toList)
    (hc : JavaScript.isSpace c = false) : JavaScript.trim text ≠ "" := by
  intro htrim
  rw [JavaScript.trim, ← String.toList_inj, String.toList_ofList, String.toList_empty,
    List.rdropWhile_eq_nil_iff] at htrim
  rw [← List.takeWhile_append_dropWhile (p := JavaScript.isSpace) (l := text.toList),
    List.mem_append] at hmem
  have hspace : JavaScript.isSpace c = true := by
    cases hmem with
    | inl htake => exact List.mem_takeWhile_imp htake
    | inr hdrop => exact htrim c hdrop
  rw [hc] at hspace
  exact absurd hspace (by decide)

theorem takeWhile_ne_append_cons {c : Char} {front back : List Char} (hfront : c ∉ front) :
    (front ++ c :: back).takeWhile (· != c) = front := by
  rw [List.takeWhile_append_of_pos]
  · simp
  · intro other hother
    rw [bne_iff_ne]
    rintro rfl
    exact hfront hother

theorem toList_line (key value : String) :
    (key ++ "=" ++ value).toList = key.toList ++ '=' :: value.toList := by
  simp [String.toList_append]

theorem keyValue_append {key value : String} (hkey : key ≠ "") (hplain : '=' ∉ key.toList) :
    keyValue (key ++ "=" ++ value) = .ok (some (key, value)) := by
  have hmem : '=' ∈ (key ++ "=" ++ value).toList := by simp
  have htake : (key ++ "=" ++ value).toList.takeWhile (· != '=') = key.toList := by
    rw [toList_line, takeWhile_ne_append_cons hplain]
  have hgood : (!(key ++ "=" ++ value).toList.contains '=' || key.toList.isEmpty) = false := by
    simp [hkey]
  have hrest : (key ++ "=" ++ value).toList.drop (key.toList.length + 1) = value.toList := by
    rw [toList_line, List.drop_append]
    simp
  simp only [keyValue, if_neg (trim_ne_empty hmem (by decide)), htake, hgood, hrest,
    String.ofList_toList, Bool.false_eq_true, if_false]

theorem keyValue_eq_ok_none {line : String} (h : keyValue line = .ok none) :
    JavaScript.trim line = "" := by
  rw [keyValue] at h
  split at h
  · assumption
  · simp only at h
    split at h
    · exact absurd h (by simp)
    · exact absurd h (by simp)

/-- A line with a key and a value is just these around the first equals sign. -/
theorem keyValue_eq_ok_some {line key value : String}
    (h : keyValue line = .ok (some (key, value))) :
    line = key ++ "=" ++ value ∧ '=' ∉ key.toList := by
  rw [keyValue] at h
  split at h
  · exact absurd h (by simp)
  · simp only at h
    split at h
    · exact absurd h (by simp)
    rename_i hgood
    rw [Bool.or_eq_true, not_or] at hgood
    have hmem : '=' ∈ line.toList := by simpa using hgood.1
    obtain ⟨front, back, hsplit, hfront⟩ := List.eq_append_cons_of_mem hmem
    rw [hsplit, takeWhile_ne_append_cons hfront] at h
    obtain ⟨hkey, hvalue⟩ := Prod.mk.inj (Option.some.inj (Except.ok.inj h))
    constructor
    · rw [← hkey, ← hvalue, ← String.toList_inj, toList_line, hsplit]
      simp
    · rw [← hkey, String.toList_ofList]
      exact hfront

/-- What the shell finds on a line, for a key without an equals sign. -/
theorem afterFront_of_keyValue {line name : String} {found : Option (String × String)}
    (hname : '=' ∉ name.toList) (h : keyValue line = .ok found) :
    afterFront (name ++ "=") line =
      found.bind fun field => if name = field.1 then some field.2 else none := by
  cases found with
  | none =>
    cases hafter : afterFront (name ++ "=") line with
    | none => rfl
    | some value =>
      rw [JavaScript.afterFront_eq_some_iff] at hafter
      have hblank := keyValue_eq_ok_none h
      rw [hafter] at hblank
      have hmem : '=' ∈ (name ++ "=" ++ value).toList := by simp
      exact absurd hblank (trim_ne_empty hmem (by decide))
  | some field =>
    obtain ⟨hline, hplain⟩ := keyValue_eq_ok_some h
    rw [Option.bind_some]
    split
    · rename_i hsame
      rw [JavaScript.afterFront_eq_some_iff, hsame, hline]
    · rename_i hother
      cases hafter : afterFront (name ++ "=") line with
      | none => rfl
      | some value =>
        rw [JavaScript.afterFront_eq_some_iff, hline] at hafter
        have hchars := congrArg (fun text => text.toList.takeWhile (· != '=')) hafter
        simp only [toList_line, takeWhile_ne_append_cons hplain,
          takeWhile_ne_append_cons hname] at hchars
        exact absurd (String.toList_inj.mp hchars).symm hother

/-! ## The fields both sides read -/

/-- The loop over the lines keeps, for every key, the value of the first line that has it. -/
theorem lookup_collectFields {lines : List String} {found result : List (String × String)}
    {name : String} (hname : '=' ∉ name.toList) (h : collectFields lines found = .ok result) :
    result.lookup name =
      (found.lookup name).or (lines.findSome? (afterFront (name ++ "="))) := by
  induction lines generalizing found with
  | nil =>
    rw [collectFields, Except.ok.injEq] at h
    simp [h]
  | cons line lines ih =>
    rw [collectFields] at h
    obtain ⟨field, hfield, h⟩ := bind_eq_ok_iff.mp h
    have hafter := afterFront_of_keyValue hname hfield
    rw [List.findSome?_cons, hafter]
    cases field with
    | none => exact ih h
    | some field =>
      simp only at h
      split at h
      · exact absurd h (by simp)
      have hone : [(field.1, field.2)].lookup name =
          if name = field.1 then some field.2 else none := by
        by_cases hsame : name = field.1
        · rw [if_pos hsame, hsame, List.lookup_cons_self]
        · simp [hsame]
      rw [ih h, List.lookup_append, hone, Option.or_assoc, Option.bind_some]
      cases (if name = field.1 then some field.2 else none) with
      | none => rfl
      | some value => rfl

theorem valueOf_eq_ok_iff {found : List (String × String)} {key value : String} :
    valueOf found key = .ok value ↔ found.lookup key = some value := by
  rw [valueOf]
  cases found.lookup key with
  | none => simp
  | some other => simp

/-- Each field the daemon reads is, as far as a command substitution keeps it, the one the
shell reads. -/
theorem pinFieldOf_of_fields {text : String} {values : PinFields}
    (h : fields text = .ok values) :
    pinFieldOf text "current" = substituted values.current ∧
      pinFieldOf text "next" = substituted values.next ∧
      pinFieldOf text "keyset" = substituted values.keyset ∧
      pinFieldOf text "pinned_by" = substituted values.pinnedBy := by
  rw [fields] at h
  obtain ⟨found, hfound, h⟩ := bind_eq_ok_iff.mp h
  obtain ⟨current, hcurrent, h⟩ := bind_eq_ok_iff.mp h
  obtain ⟨next, hnext, h⟩ := bind_eq_ok_iff.mp h
  obtain ⟨keyset, hkeyset, h⟩ := bind_eq_ok_iff.mp h
  obtain ⟨urls, -, h⟩ := bind_eq_ok_iff.mp h
  obtain ⟨pinnedBy, hpinnedBy, h⟩ := bind_eq_ok_iff.mp h
  obtain ⟨updated, -, h⟩ := bind_eq_ok_iff.mp h
  obtain rfl := Except.ok.inj h
  have hread : ∀ {name value : String}, '=' ∉ name.toList → valueOf found name = .ok value →
      pinFieldOf text name = substituted value := by
    intro name value hname hvalue
    have hlookup := lookup_collectFields hname hfound
    rw [valueOf_eq_ok_iff.mp hvalue, List.lookup_nil, Option.none_or] at hlookup
    rw [pinFieldOf, ← hlookup, Option.getD_some]
  exact ⟨hread (by decide) hcurrent, hread (by decide) hnext, hread (by decide) hkeyset,
    hread (by decide) hpinnedBy⟩

/-- One line of the file adds its field. -/
theorem collectFields_cons {key value : String} {rest : List String}
    {found : List (String × String)} (hkey : key ∈ pinKeys) (hplain : '=' ∉ key.toList)
    (hfresh : key ∉ found.map Prod.fst) :
    collectFields ((key ++ "=" ++ value) :: rest) found =
      collectFields rest (found ++ [(key, value)]) := by
  have hempty : key ≠ "" := by
    rintro rfl
    exact absurd hkey (by decide)
  have hgood : (!pinKeys.contains key || (found.map Prod.fst).contains key) = false := by
    rw [Bool.or_eq_false_iff, Bool.not_eq_false', List.contains_iff_mem, ← Bool.not_eq_true,
      List.contains_iff_mem]
    exact ⟨hkey, hfresh⟩
  rw [collectFields, keyValue_append hempty hplain]
  change (if (!pinKeys.contains key || (found.map Prod.fst).contains key) = true then _ else _) = _
  rw [hgood, if_neg (by decide)]

/-- Five of the six fields keep to their line; the sixth ends the file. -/
structure PinFields.OneLines (values : PinFields) : Prop where
  current : OneLine values.current
  next : OneLine values.next
  keyset : OneLine values.keyset
  urls : OneLine values.urls
  pinnedBy : OneLine values.pinnedBy
  updated : '\n' ∉ values.updated.toList

theorem fields_text {values : PinFields} (h : values.OneLines) : fields values.text = .ok values := by
  have hlast : split '\n' ("updated=" ++ values.updated ++ "\n") =
      ["updated=" ++ values.updated, ""] := by
    apply JavaScript.split_append_singleton
    rw [String.toList_append, List.mem_append]
    exact not_or.mpr ⟨by decide, h.updated⟩
  have hlines : split '\n' values.text =
      ["current" ++ "=" ++ values.current, "next" ++ "=" ++ values.next,
        "keyset" ++ "=" ++ values.keyset, "urls" ++ "=" ++ values.urls,
        "pinned_by" ++ "=" ++ values.pinnedBy, "updated" ++ "=" ++ values.updated, ""] := by
    rw [lines_text h.current h.next h.keyset h.urls h.pinnedBy, hlast]
    rfl
  have hblank : collectFields [""] [("current", values.current), ("next", values.next),
      ("keyset", values.keyset), ("urls", values.urls), ("pinned_by", values.pinnedBy),
      ("updated", values.updated)] = .ok _ := rfl
  rw [fields, hlines, collectFields_cons (by decide) (by decide) (by simp),
    collectFields_cons (by decide) (by decide) (by simp),
    collectFields_cons (by decide) (by decide) (by simp),
    collectFields_cons (by decide) (by decide) (by simp),
    collectFields_cons (by decide) (by decide) (by simp),
    collectFields_cons (by decide) (by decide) (by simp)]
  simp only [List.nil_append, List.cons_append, hblank]
  rfl

theorem parsePanelIdentityPin_text {values : PinFields} (h : values.OneLines) :
    parsePanelIdentityPin values.text = pinOfFields values := by
  rw [parsePanelIdentityPin, fields_text h]
  rfl

/-- What the daemon takes for a pin. -/
theorem pinOfFields_eq_ok_iff {values : PinFields} {pin : PanelIdentityPin} :
    pinOfFields values = .ok pin ↔
      ∃ pinnedBy, PinnedBy.ofText values.pinnedBy = some pinnedBy ∧
        (if values.current = "" then pinnedBy = .skipped else isFingerprint values.current = true) ∧
        (values.next = "" ∨ isFingerprint values.next = true) ∧ isDigits values.keyset = true ∧
        pin =
          { current := values.current
            next := if values.next = "" then none else some values.next
            keyset := JavaScript.toDouble (decimalOf values.keyset)
            urls := urlList values.urls
            pinnedBy
            updated := values.updated } := by
  rw [pinOfFields]
  cases PinnedBy.ofText values.pinnedBy with
  | none => simp
  | some pinnedBy =>
    have hcurrent : (if values.current = "" then pinnedBy != .skipped
          else !isFingerprint values.current) = false ↔
        (if values.current = "" then pinnedBy = .skipped
          else isFingerprint values.current = true) := by
      split
      · simp
      · simp
    have hnext : (values.next != "" && !isFingerprint values.next) = false ↔
        (values.next = "" ∨ isFingerprint values.next = true) := by
      simp [Classical.or_iff_not_imp_left]
    simp only [Option.some.injEq, exists_eq_left']
    rw [← hcurrent, ← hnext]
    generalize (if values.current = "" then pinnedBy != .skipped
      else !isFingerprint values.current) = badCurrent
    generalize (values.next != "" && !isFingerprint values.next) = badNext
    generalize isDigits values.keyset = digits
    cases badCurrent with
    | true => simp
    | false =>
      cases badNext with
      | true => simp
      | false =>
        cases digits with
        | false => simp
        | true =>
          simp only [Bool.false_eq_true, if_false, Bool.not_true, Except.ok.injEq, true_and]
          exact eq_comm

/-! ## The pin the helper starts from -/

theorem oneLine_of_isFingerprint {text : String} (h : isFingerprint text = true) : OneLine text := by
  rw [isFingerprint, Bool.and_eq_true, List.all_eq_true] at h
  exact ⟨fun hmem => absurd (h.2 _ hmem) (by decide), fun hmem => absurd (h.2 _ hmem) (by decide)⟩

theorem substituted_of_isFingerprint {text : String} (h : isFingerprint text = true) :
    substituted text = text :=
  substituted_of_oneLine (oneLine_of_isFingerprint h)

theorem substituted_of_ofText {text : String} {pinnedBy : PinnedBy}
    (h : PinnedBy.ofText text = some pinnedBy) : substituted text = text := by
  apply substituted_of_oneLine
  rw [PinnedBy.ofText.eq_def] at h
  split at h
  · decide
  · decide
  · decide
  · exact absurd h (by simp)

/-- What the shell reads of a pin the daemon accepts: a current key that is empty or spelled as a
fingerprint, a next key likewise, and who pinned it. -/
structure PinRead (text : String) : Prop where
  current : pinFieldOf text "current" = "" ∨ isFingerprint (pinFieldOf text "current") = true
  next : pinFieldOf text "next" = "" ∨ isFingerprint (pinFieldOf text "next") = true
  pinnedBy : ∃ pinnedBy, PinnedBy.ofText (pinFieldOf text "pinned_by") = some pinnedBy

theorem pinRead_of_parse {text : String} {pin : PanelIdentityPin}
    (h : parsePanelIdentityPin text = .ok pin) : PinRead text := by
  rw [parsePanelIdentityPin] at h
  obtain ⟨values, hvalues, h⟩ := bind_eq_ok_iff.mp h
  obtain ⟨pinnedBy, hpinnedBy, hcurrent, hnext, -, -⟩ := pinOfFields_eq_ok_iff.mp h
  obtain ⟨hreadCurrent, hreadNext, -, hreadPinnedBy⟩ := pinFieldOf_of_fields hvalues
  constructor
  case current =>
    rw [hreadCurrent]
    split at hcurrent
    · rename_i hempty
      left
      rw [hempty]
      decide
    · right
      rw [substituted_of_isFingerprint hcurrent]
      exact hcurrent
  case next =>
    rw [hreadNext]
    cases hnext with
    | inl hempty =>
      left
      rw [hempty]
      decide
    | inr hspelled =>
      right
      rw [substituted_of_isFingerprint hspelled]
      exact hspelled
  case pinnedBy =>
    rw [hreadPinnedBy, substituted_of_ofText hpinnedBy]
    exact ⟨pinnedBy, hpinnedBy⟩

theorem isDigits_decimal (n : ℕ) : isDigits (toString n) = true := by
  rw [isDigits, Bool.and_eq_true, bne_iff_ne, List.all_eq_true, Nat.toString_eq_ofList_toDigits,
    String.toList_ofList]
  constructor
  · rw [Ne, ← String.toList_inj, String.toList_ofList, String.toList_empty]
    exact Nat.toDigits_ne_nil
  · intro c hc
    exact Nat.isDigit_of_mem_toDigits (by decide) (by decide) hc

theorem urlList_intercalate {urls : List String} (hne : urls ≠ [])
    (horigins : ∀ url ∈ urls, isOrigin url = true) : urlList (",".intercalate urls) = urls := by
  have hsplit : split ',' (",".intercalate urls) = urls := by
    have hchars : ∀ chars ∈ urls.map String.toList, ',' ∉ chars := by
      rw [List.forall_mem_map]
      exact fun url hurl => notMem_of_isOrigin (horigins url hurl) (by decide)
    have hcomma : ",".toList = [','] := by decide
    rw [split, String.toList_intercalate, hcomma,
      List.splitOn_intercalate ',' hchars (by simpa using hne)]
    simp
  rw [urlList, hsplit]
  split
  · rename_i hempty
    -- No text would be one empty address, and that is no origin.
    rw [hempty] at hsplit
    have hmem : "" ∈ urls := by
      rw [← hsplit]
      decide
    exact absurd (horigins "" hmem) (by decide)
  · rfl

/-- The daemon reads a written pin exactly when its next key is spelled as a fingerprint. -/
theorem parse_written_iff {text : String} {values : PinFields} {pin : PanelIdentityPin}
    (hread : PinRead text) (hlines : values.OneLines) (hcurrent : isFingerprint values.current = true)
    (hpinnedBy : values.pinnedBy = pinFieldOf text "pinned_by") :
    parsePanelIdentityPin values.text = .ok pin ↔
      (values.next = "" ∨ isFingerprint values.next = true) ∧ isDigits values.keyset = true ∧
      ∃ pinnedBy, PinnedBy.ofText values.pinnedBy = some pinnedBy ∧
        pin =
          { current := values.current
            next := if values.next = "" then none else some values.next
            keyset := JavaScript.toDouble (decimalOf values.keyset)
            urls := urlList values.urls
            pinnedBy
            updated := values.updated } := by
  obtain ⟨pinnedBy, hby⟩ := hread.pinnedBy
  have hempty : values.current ≠ "" := by
    intro hempty
    rw [hempty] at hcurrent
    exact absurd hcurrent (by decide)
  rw [parsePanelIdentityPin_text hlines, pinOfFields_eq_ok_iff]
  simp only [if_neg hempty, hpinnedBy, hby, Option.some.injEq, exists_eq_left', hcurrent, true_and]

/-- A written pin is read as the fields an input gives exactly when the next key is spelled as
a fingerprint and the key set is a double. -/
theorem parse_as_given_iff {text next : String} {values : PinFields} {keyset : ℕ}
    {urls : List String} (hread : PinRead text) (hlines : values.OneLines)
    (hcurrent : isFingerprint values.current = true)
    (hpinnedBy : values.pinnedBy = pinFieldOf text "pinned_by")
    (hgiven : OneLine next → values.next = next ∧ values.keyset = toString keyset ∧
      urlList values.urls = urls) :
    (∃ pin, parsePanelIdentityPin values.text = .ok pin ∧ pin.current = values.current ∧
        pin.next.getD "" = next ∧ pin.keyset = some (keyset : ℚ) ∧ pin.urls = urls) ↔
      (next = "" ∨ isFingerprint next = true) ∧
        JavaScript.toDouble keyset = some (keyset : ℚ) := by
  have hone : next = "" ∨ isFingerprint next = true → OneLine next := by
    rintro (rfl | hspelled)
    · decide
    · exact oneLine_of_isFingerprint hspelled
  constructor
  · rintro ⟨pin, hparse, -, hnext, hkeyset, -⟩
    obtain ⟨hspelled, -, pinnedBy, -, rfl⟩ :=
      (parse_written_iff hread hlines hcurrent hpinnedBy).mp hparse
    have hsame : values.next = next := by
      rw [← hnext]
      by_cases hempty : values.next = ""
      · simp [hempty]
      · simp [hempty]
    rw [hsame] at hspelled
    obtain ⟨-, hdecimal, -⟩ := hgiven (hone hspelled)
    simp only [hdecimal, decimalOf_toString] at hkeyset
    exact ⟨hspelled, hkeyset⟩
  · rintro ⟨hspelled, hexact⟩
    obtain ⟨hnext, hdecimal, hurls⟩ := hgiven (hone hspelled)
    obtain ⟨pinnedBy, hby⟩ := hread.pinnedBy
    rw [← hnext] at hspelled
    refine ⟨_, (parse_written_iff hread hlines hcurrent hpinnedBy).mpr
      ⟨hspelled, hdecimal ▸ isDigits_decimal keyset, pinnedBy, by rw [hpinnedBy, hby], rfl⟩,
      rfl, ?_, ?_, hurls⟩
    · rw [← hnext]
      by_cases hempty : values.next = ""
      · simp [hempty]
      · simp [hempty]
    · simp only [hdecimal, decimalOf_toString, hexact]

/-! ## What an input says -/

/-- The pin is what an identity document says. -/
structure DocumentSays (document : Document) (pin : PanelIdentityPin) : Prop where
  current : lookup "kid" document.current = some (.str pin.current)
  next : document.nextKid = .str (pin.next.getD "")
  keyset : ∃ keyset : ℤ, document.keyset = .int keyset ∧ pin.keyset = some (keyset : ℚ)
  urls : document.urls = .list (pin.urls.map .str)

/-- The pin is what a statement says, with the addresses that were pinned before. -/
structure StatementSays (statement : Statement) (urls : List String) (pin : PanelIdentityPin) :
    Prop where
  current : statement.current = .str pin.current
  next : statement.next = .str (pin.next.getD "")
  keyset : ∃ keyset : ℤ, statement.keyset = .int keyset ∧ pin.keyset = some (keyset : ℚ)
  urls : pin.urls = urls

/-- The daemon parses a file to what the input of a run says, where the run found the pin
`text`. -/
def ReadsBack (world : World) (run : Run) (text written : String) : Prop :=
  ∃ pin, parsePanelIdentityPin written = .ok pin ∧
    if run.isStatement then
      ∃ part statement, world.signedStatement run = some part ∧
        world.statementOf part.body = .ok statement ∧
        StatementSays statement (urlList (pinFieldOf text "urls")) pin
    else ∃ document, world.documentOf run.body = .ok document ∧ DocumentSays document pin

/-- A next key that is absent or spelled as a fingerprint. -/
def StrictNext (value : Py) : Prop :=
  ∃ text, value = .str text ∧ (text = "" ∨ isFingerprint text = true)

/-- A key set that is a double. -/
def ExactKeyset (value : Py) : Prop :=
  ∀ keyset : ℤ, value = .int keyset → JavaScript.toDouble keyset = some (keyset : ℚ)

/-- The input of a run spells its next key as a fingerprint and has a key set that is a
double. -/
def StrictInput (world : World) (run : Run) : Prop :=
  if run.isStatement then
    ∀ part statement, world.signedStatement run = some part →
      world.statementOf part.body = .ok statement →
      StrictNext statement.next ∧ ExactKeyset statement.keyset
  else
    ∀ document, world.documentOf run.body = .ok document →
      StrictNext document.nextKid ∧ ExactKeyset document.keyset

section

variable {world : World} {host : Host} {run : Run} {text : String} {writes : Writes}

/-- The current key of a pin that the verb works on is a fingerprint. -/
theorem isFingerprint_current {input : Bytes} {now : ℤ} {updated : String}
    (hpin : host.pin = some text) (hread : PinRead text)
    (h : world.documentWrite host input now updated = .ok writes) :
    isFingerprint (pinFieldOf text "current") = true := by
  rw [World.documentWrite, hpin] at h
  obtain ⟨pin, hpin, h⟩ := bind_eq_ok_iff.mp h
  obtain ⟨pinned, hfields, -⟩ := bind_eq_ok_iff.mp h
  obtain rfl := Except.ok.inj hpin
  rw [pinnedFields] at hfields
  split at hfields
  · exact absurd hfields (by simp)
  · rename_i hempty
    exact hread.current.resolve_left hempty

theorem documentPin_oneLines (text : String) (accepted : AcceptedDocument) {updated : String}
    (hdate : '\n' ∉ updated.toList) : (documentPin text updated accepted).OneLines where
  current := oneLine_pinFieldOf text "current"
  next := oneLine_lineOf _ 0
  keyset := oneLine_lineOf _ 1
  urls := oneLine_lineOf _ 2
  pinnedBy := oneLine_pinFieldOf text "pinned_by"
  updated := hdate

theorem readsBack_document_iff (hverb : run.isStatement = false) (hpin : host.pin = some text)
    (hread : PinRead text) (hdate : '\n' ∉ run.updated.toList)
    (hwrites : world.documentWrite host run.input run.now run.updated = .ok writes) :
    ReadsBack world run text writes.pin ↔ StrictInput world run := by
  have hfingerprint := isFingerprint_current hpin hread hwrites
  obtain ⟨pin, accepted, hpin', haccepted, -, hwritten⟩ := documentWrite_eq_ok hwrites
  obtain rfl : pin = text := Option.some.inj (hpin'.symm.trans hpin)
  have hlines := documentPin_oneLines pin accepted hdate
  have hurls := haccepted.urls.2
  have hgiven : ∀ {next : String}, accepted.document.nextKid = .str next → OneLine next →
      (documentPin pin run.updated accepted).next = next ∧
      (documentPin pin run.updated accepted).keyset = toString accepted.keyset ∧
      urlList (documentPin pin run.updated accepted).urls = accepted.urls := by
    intro next hnext hone
    have hprint : accepted.document.nextKid.print = next := by
      rw [hnext]
      rfl
    rw [documentPin_fields hprint hone hurls.2]
    exact ⟨rfl, rfl, urlList_intercalate hurls.1 hurls.2⟩
  rw [hwritten, ReadsBack, StrictInput, hverb]
  simp only [Bool.false_eq_true, if_false]
  constructor
  · rintro ⟨parsed, hparsed, document, hdocument, hsays⟩ document' hdocument'
    rw [Run.body, haccepted.document, Except.ok.injEq] at hdocument hdocument'
    subst hdocument hdocument'
    have hcurrent := hsays.current
    rw [haccepted.kid, Option.some.injEq, Py.str.injEq] at hcurrent
    obtain ⟨keyset, hkeyset, hexact⟩ := hsays.keyset
    rw [haccepted.keyset.1, Py.int.injEq] at hkeyset
    rw [← hkeyset, Int.cast_natCast] at hexact
    have hlist := hsays.urls
    rw [haccepted.urls.1, Py.list.injEq, List.map_inj_right (fun _ _ => Py.str.inj)] at hlist
    obtain ⟨hspelled, hdouble⟩ :=
      (parse_as_given_iff hread hlines hfingerprint rfl (hgiven hsays.next)).mp
        ⟨parsed, hparsed, hcurrent.symm, rfl, hexact, hlist.symm⟩
    refine ⟨⟨_, hsays.next, hspelled⟩, ?_⟩
    intro other hother
    rw [haccepted.keyset.1, Py.int.injEq] at hother
    rw [← hother, Int.cast_natCast]
    exact hdouble
  · intro hstrict
    obtain ⟨⟨next, hnext, hspelled⟩, hexact⟩ := hstrict accepted.document haccepted.document
    have hdouble := hexact accepted.keyset haccepted.keyset.1
    rw [Int.cast_natCast] at hdouble
    obtain ⟨parsed, hparsed, hcurrent, hparsedNext, hkeyset, hparsedUrls⟩ :=
      (parse_as_given_iff hread hlines hfingerprint rfl (hgiven hnext)).mpr ⟨hspelled, hdouble⟩
    refine ⟨parsed, hparsed, accepted.document, haccepted.document, ?_⟩
    exact
      { current := by
          rw [haccepted.kid, hcurrent]
          rfl
        next := by rw [hnext, hparsedNext]
        keyset := ⟨accepted.keyset, haccepted.keyset.1, by rw [hkeyset, Int.cast_natCast]⟩
        urls := by rw [haccepted.urls.1, hparsedUrls] }

/-- The second line of the fields of a statement is its current key. -/
theorem lineOf_current {accepted : AcceptedStatement} (hcurrent : OneLine accepted.current) :
    lineOf accepted.fieldsText 1 = accepted.current := by
  have hlines : split '\n' accepted.fieldsText =
      accepted.signed.kind.text :: accepted.current ::
        split '\n' (toString accepted.keyset ++ "\n" ++ (accepted.next ++ "\n")) := by
    rw [AcceptedStatement.fieldsText]
    change split '\n' (accepted.signed.kind.text ++ String.singleton '\n' ++ (accepted.current ++
      String.singleton '\n' ++ _)) = _
    rw [JavaScript.split_append_cons (oneLine_kind _).1, JavaScript.split_append_cons hcurrent.1]
  rw [lineOf, hlines, List.getD_cons_succ, List.getD_cons_zero, substituted_of_oneLine hcurrent]

theorem readsBack_statement_iff (hverb : run.isStatement = true) (hpin : host.pin = some text)
    (hread : PinRead text) (hdate : '\n' ∉ run.updated.toList)
    (hwrites : world.statementWrite host run.input run.updated = .ok writes) :
    ReadsBack world run text writes.pin ↔ StrictInput world run := by
  obtain ⟨pin, accepted, statement, hpin', haccepted, -, hwritten⟩ := statementWrite_eq_ok hwrites
  obtain rfl : pin = text := Option.some.inj (hpin'.symm.trans hpin)
  have hlines : (statementPin pin run.updated accepted).OneLines :=
    { current := oneLine_lineOf _ 1
      next := oneLine_lineOf _ 3
      keyset := oneLine_lineOf _ 2
      urls := oneLine_pinFieldOf pin "urls"
      pinnedBy := oneLine_pinFieldOf pin "pinned_by"
      updated := hdate }
  have hone : OneLine accepted.current := by
    rw [haccepted.current.2]
    exact oneLine_pinFieldOf pin "next"
  have hline : (statementPin pin run.updated accepted).current = pinFieldOf pin "next" :=
    (lineOf_current hone).trans haccepted.current.2
  have hfingerprint : isFingerprint (statementPin pin run.updated accepted).current = true := by
    rw [hline]
    exact hread.next.resolve_left haccepted.pinned
  have hgiven : OneLine accepted.next →
      (statementPin pin run.updated accepted).next = accepted.next ∧
      (statementPin pin run.updated accepted).keyset = toString accepted.keyset ∧
      urlList (statementPin pin run.updated accepted).urls = urlList (pinFieldOf pin "urls") := by
    intro hnext
    rw [statementPin_fields hone hnext]
    exact ⟨rfl, rfl, rfl⟩
  have hiff := parse_as_given_iff hread hlines hfingerprint rfl hgiven
  have hsigned : world.signedStatement run = some accepted.signed := haccepted.signed
  rw [hwritten, ReadsBack, StrictInput, if_pos hverb]
  simp only [hverb, if_true]
  constructor
  · rintro ⟨parsed, hparsed, part, said, hpart, hsaid, hsays⟩ part' said' hpart' hsaid'
    obtain rfl : accepted.signed = part := Option.some.inj (hsigned.symm.trans hpart)
    obtain rfl : accepted.signed = part' := Option.some.inj (hsigned.symm.trans hpart')
    rw [haccepted.held, Except.ok.injEq] at hsaid hsaid'
    subst hsaid hsaid'
    have hcurrent := hsays.current
    rw [haccepted.current.1, Py.str.injEq] at hcurrent
    have hnext := hsays.next
    rw [haccepted.next.1, Py.str.injEq] at hnext
    obtain ⟨keyset, hkeyset, hexact⟩ := hsays.keyset
    rw [haccepted.keyset.1, Py.int.injEq] at hkeyset
    rw [← hkeyset, Int.cast_natCast] at hexact
    obtain ⟨hspelled, hdouble⟩ := hiff.mp
      ⟨parsed, hparsed, hcurrent.symm.trans hline.symm, hnext.symm, hexact, hsays.urls⟩
    refine ⟨⟨_, haccepted.next.1, hspelled⟩, ?_⟩
    intro other hother
    rw [haccepted.keyset.1, Py.int.injEq] at hother
    rw [← hother, Int.cast_natCast]
    exact hdouble
  · intro hstrict
    obtain ⟨⟨next, hnext, hspelled⟩, hexact⟩ := hstrict accepted.signed statement hsigned
      haccepted.held
    rw [haccepted.next.1, Py.str.injEq] at hnext
    rw [← hnext] at hspelled
    have hdouble := hexact accepted.keyset haccepted.keyset.1
    rw [Int.cast_natCast] at hdouble
    obtain ⟨parsed, hparsed, hcurrent, hparsedNext, hkeyset, hparsedUrls⟩ :=
      hiff.mpr ⟨hspelled, hdouble⟩
    refine ⟨parsed, hparsed, accepted.signed, statement, hsigned, haccepted.held, ?_⟩
    exact
      { current := by rw [haccepted.current.1, hcurrent, hline]
        next := by rw [haccepted.next.1, hparsedNext]
        keyset := ⟨accepted.keyset, haccepted.keyset.1, by rw [hkeyset, Int.cast_natCast]⟩
        urls := hparsedUrls }

end

/-- Starting from a pin the daemon accepts, the pin that an accepted input leaves behind is one
the daemon parses to what the input says, exactly when the input spells its next key as a
fingerprint and its key set is a double. -/
theorem readsBack_iff_strictInput (world : World) (host : Host) (run : Run) (text : String)
    (pin : PanelIdentityPin) (writes : Writes) (hpin : host.pin = some text)
    (hparse : parsePanelIdentityPin text = .ok pin) (hdate : '\n' ∉ run.updated.toList)
    (hwrites : world.writes host run = .ok writes) :
    ReadsBack world run text writes.pin ↔ StrictInput world run := by
  have hread := pinRead_of_parse hparse
  rw [World.writes] at hwrites
  cases hverb : run.isStatement with
  | true =>
    rw [if_pos hverb] at hwrites
    exact readsBack_statement_iff hverb hpin hread hdate hwrites
  | false =>
    rw [hverb] at hwrites
    exact readsBack_document_iff hverb hpin hread hdate hwrites

theorem parse_zeroKeyPin : ∃ pin, parsePanelIdentityPin zeroKeyPin.text = .ok pin := by
  have hlines : zeroKeyPin.OneLines :=
    { current := by decide
      next := by decide
      keyset := by decide
      urls := by decide
      pinnedBy := by decide
      updated := by decide }
  rw [parsePanelIdentityPin_text hlines]
  exact ⟨_, pinOfFields_eq_ok_iff.mpr
    ⟨.install, rfl, by decide, by decide, by decide, rfl⟩⟩

/-- A digest with the padding that the helper's decoder takes and the daemon does not. -/
def paddedNext : List Char := List.replicate 43 'A' ++ ['=']

/-- An accepted document with a padded next fingerprint leaves a pin the daemon cannot parse. -/
theorem not_readsBack_padded_next :
    ∃ (world : World) (host : Host) (run : Run) (text : String) (pin : PanelIdentityPin)
      (writes : Writes), host.pin = some text ∧ parsePanelIdentityPin text = .ok pin ∧
      '\n' ∉ run.updated.toList ∧ world.writes host run = .ok writes ∧
      ¬ReadsBack world run text writes.pin ∧
      ∃ why, parsePanelIdentityPin writes.pin = .error why := by
  obtain ⟨pin, hparse⟩ := parse_zeroKeyPin
  have hnext : checkNext (.str (String.ofList paddedNext)) = .ok () := by decide +kernel
  have hlength : (zeroKeyRun paddedNext).input.length ≤ 65536 := by decide +kernel
  have hone : OneLine (String.ofList paddedNext) := by decide
  have hfields : documentPin zeroKeyPin.text "2026-01-02T00:00:00Z"
      (zeroKeyAccepted (String.ofList paddedNext) paddedNext) = _ :=
    documentPin_fields rfl hone (by decide)
  have hdate : '\n' ∉ "2026-01-02T00:00:00Z".toList := by decide
  have hlines := documentPin_oneLines zeroKeyPin.text
    (zeroKeyAccepted (String.ofList paddedNext) paddedNext) hdate
  have herror : ∃ why, parsePanelIdentityPin (documentPin zeroKeyPin.text "2026-01-02T00:00:00Z"
      (zeroKeyAccepted (String.ofList paddedNext) paddedNext)).text = .error why := by
    cases hpinned : parsePanelIdentityPin (documentPin zeroKeyPin.text "2026-01-02T00:00:00Z"
        (zeroKeyAccepted (String.ofList paddedNext) paddedNext)).text with
    | error why => exact ⟨why, rfl⟩
    | ok parsed =>
      rw [parsePanelIdentityPin_text hlines] at hpinned
      obtain ⟨_, -, -, hspelled, -⟩ := pinOfFields_eq_ok_iff.mp hpinned
      rw [hfields] at hspelled
      exact absurd hspelled (by decide)
  refine ⟨zeroKeyWorld (String.ofList paddedNext) paddedNext, zeroKeyHost, zeroKeyRun paddedNext,
    zeroKeyPin.text, pin, _, rfl, hparse, hdate, writes_zeroKey hnext hlength, ?_,
    herror⟩
  rintro ⟨parsed, hparsed, -⟩
  obtain ⟨why, hwhy⟩ := herror
  rw [hwhy] at hparsed
  exact absurd hparsed (by simp)

/-- A document with a plain fingerprint and a small key set is read back. -/
theorem readsBack_plain_next :
    ∃ writes, (zeroKeyWorld (String.ofList plainNext) plainNext).writes zeroKeyHost
        (zeroKeyRun plainNext) = .ok writes ∧
      ReadsBack (zeroKeyWorld (String.ofList plainNext) plainNext) (zeroKeyRun plainNext)
        zeroKeyPin.text writes.pin := by
  obtain ⟨pin, hparse⟩ := parse_zeroKeyPin
  have hnext : checkNext (.str (String.ofList plainNext)) = .ok () := by decide +kernel
  have hlength : (zeroKeyRun plainNext).input.length ≤ 65536 := by decide +kernel
  have hwrites := writes_zeroKey hnext hlength
  refine ⟨_, hwrites, (readsBack_iff_strictInput _ zeroKeyHost _ zeroKeyPin.text pin _ rfl hparse
    (by decide) hwrites).mpr ?_⟩
  intro document hdocument
  rw [documentOf_zeroKey hdocument]
  refine ⟨⟨String.ofList plainNext, rfl, .inr (by decide)⟩, ?_⟩
  intro keyset hkeyset
  obtain rfl : 5 = keyset := Py.int.inj hkeyset
  exact JavaScript.toDouble_of_safe (by decide)

end Turbopaneld.PanelIdentity
