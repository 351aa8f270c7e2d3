/-
# The panel key pin file

`lib/panel-identity` holds `key=value` lines.  The host helper reads single fields of
it with `sed` and writes it whole; the daemon parses it strictly.  This module has both
sides and how they read what the helper writes.
-/

import Turbopaneld.JavaScript.Double
import Turbopaneld.PanelIdentity.Python
import Turbopaneld.Programs.Fallible

namespace Turbopaneld.PanelIdentity

open JavaScript (split afterFront)

/-! ## The shell's side -/

/-- What a command substitution keeps of one line of output. -/
def substituted (line : String) : String := String.ofList (line.toList.filter (· != '\x00'))

/-- `sed -n '<n>p'` in a command substitution, counting lines from zero. -/
def lineOf (text : String) (n : ℕ) : String := substituted ((split '\n' text).getD n "")

/-- `tp_pin_field_of`: the rest of the first line that starts with `<name>=`. -/
def pinFieldOf (text name : String) : String :=
  substituted (((split '\n' text).findSome? (afterFront (name ++ "="))).getD "")

/-- The fields of a pin file. -/
structure PinFields where
  current : String
  next : String
  keyset : String
  urls : String
  pinnedBy : String
  updated : String

/-- The text the helper writes for the fields. -/
def PinFields.text (fields : PinFields) : String :=
  "current=" ++ fields.current ++ "\n" ++ ("next=" ++ fields.next ++ "\n" ++
    ("keyset=" ++ fields.keyset ++ "\n" ++ ("urls=" ++ fields.urls ++ "\n" ++
      ("pinned_by=" ++ fields.pinnedBy ++ "\n" ++ ("updated=" ++ fields.updated ++ "\n")))))

/-- The shell pattern `''|*[!0-9]*` does not match. -/
def isDigits (text : String) : Bool := text != "" && text.toList.all JavaScript.isDigit

/-- `int(text)` and `Number(text)` of decimal digits, exactly. -/
@[irreducible]
def decimalOf (text : String) : ℕ := Nat.ofDigitChars 10 text.toList 0

/-! ## The daemon's side -/

/-- Who pinned the key. -/
inductive PinnedBy where
  | install
  | upgrade
  | skipped
deriving DecidableEq

def PinnedBy.ofText : String → Option PinnedBy
  | "install" => some .install
  | "upgrade" => some .upgrade
  | "unsafe" => some .skipped
  | _ => none

/-- The parsed pin.  The key set is `none` when it is past every double. -/
structure PanelIdentityPin where
  current : String
  next : Option String
  keyset : Option ℚ
  urls : List String
  pinnedBy : PinnedBy
  updated : String

/-- `/^[A-Za-z0-9_-]{43}$/`. -/
def isFingerprint (text : String) : Bool :=
  text.toList.length == 43 && text.toList.all JavaScript.base64UrlAlphabet.contains

def pinKeys : List String := ["current", "next", "keyset", "urls", "pinned_by", "updated"]

/-- One line of the file: its key and value, `none` for a blank line. -/
def keyValue (line : String) : Except String (Option (String × String)) :=
  if JavaScript.trim line = "" then .ok none
  else
    let key := line.toList.takeWhile (· != '=')
    if !line.toList.contains '=' || key.isEmpty then
      .error ("panel-identity: bad line \"" ++ line ++ "\"")
    else
      .ok (some (String.ofList key, String.ofList (line.toList.drop (key.length + 1))))

/-- The loop of `fields` over the lines, with the map so far. -/
def collectFields : List String → List (String × String) → Except String (List (String × String))
  | [], found => .ok found
  | line :: rest, found => do
    match ← keyValue line with
    | none => collectFields rest found
    | some (key, value) =>
      if !pinKeys.contains key || (found.map Prod.fst).contains key then
        .error ("panel-identity: unexpected key \"" ++ key ++ "\"")
      else collectFields rest (found ++ [(key, value)])

/-- The value of a key that has to be there. -/
def valueOf (found : List (String × String)) (key : String) : Except String String :=
  match found.lookup key with
  | some value => .ok value
  | none => .error ("panel-identity: missing " ++ key)

def fields (text : String) : Except String PinFields := do
  let found ← collectFields (split '\n' text) []
  let current ← valueOf found "current"
  let next ← valueOf found "next"
  let keyset ← valueOf found "keyset"
  let urls ← valueOf found "urls"
  let pinnedBy ← valueOf found "pinned_by"
  let updated ← valueOf found "updated"
  .ok { current, next, keyset, urls, pinnedBy, updated }

/-- `urls === "" ? [] : urls.split(",")`. -/
def urlList (urls : String) : List String := if urls = "" then [] else split ',' urls

/-- The checks of `parsePanelIdentityPin` on the fields. -/
def pinOfFields (values : PinFields) : Except String PanelIdentityPin :=
  match PinnedBy.ofText values.pinnedBy with
  | none => .error "panel-identity: pinned_by is not install, upgrade or unsafe"
  | some pinnedBy =>
    if (if values.current = "" then pinnedBy != .skipped else !isFingerprint values.current) then
      .error "panel-identity: current is not a 43-character fingerprint"
    else if values.next != "" && !isFingerprint values.next then
      .error "panel-identity: next is not a 43-character fingerprint"
    else if !isDigits values.keyset then .error "panel-identity: keyset is not an integer"
    else
      .ok
        { current := values.current
          next := if values.next = "" then none else some values.next
          keyset := JavaScript.toDouble (decimalOf values.keyset)
          urls := urlList values.urls
          pinnedBy
          updated := values.updated }

/-- Parse the pin file; an error names the first problem. -/
def parsePanelIdentityPin (text : String) : Except String PanelIdentityPin := do
  let values ← fields text
  pinOfFields values

/-! ## What the shell reads of what it wrote -/

/-- A text a line can hold and a command substitution keeps. -/
def OneLine (text : String) : Prop := '\n' ∉ text.toList ∧ '\x00' ∉ text.toList

instance (text : String) : Decidable (OneLine text) :=
  inferInstanceAs (Decidable ('\n' ∉ text.toList ∧ '\x00' ∉ text.toList))

theorem substituted_of_oneLine {text : String} (h : OneLine text) : substituted text = text := by
  rw [substituted, List.filter_eq_self.mpr, String.ofList_toList]
  intro c hc
  rw [bne_iff_ne]
  rintro rfl
  exact h.2 hc

theorem oneLine_substituted {line : String} (hline : '\n' ∉ line.toList) :
    OneLine (substituted line) := by
  rw [OneLine, substituted, String.toList_ofList]
  constructor
  · intro hmem
    exact hline (List.mem_of_mem_filter hmem)
  · intro hmem
    exact absurd (List.mem_filter.mp hmem).2 (by simp)

theorem oneLine_lineOf (text : String) (n : ℕ) : OneLine (lineOf text n) := by
  apply oneLine_substituted
  rw [List.getD_eq_getElem?_getD]
  cases hline : (split '\n' text)[n]? with
  | none => simp
  | some line => exact JavaScript.notMem_of_mem_split (List.mem_of_getElem? hline)

theorem oneLine_pinFieldOf (text name : String) : OneLine (pinFieldOf text name) := by
  apply oneLine_substituted
  cases hfind : (split '\n' text).findSome? (afterFront (name ++ "=")) with
  | none => simp
  | some value =>
    obtain ⟨line, hline, hvalue⟩ := List.exists_of_findSome?_eq_some hfind
    rw [JavaScript.afterFront_eq_some_iff] at hvalue
    have hnotMem := JavaScript.notMem_of_mem_split hline
    rw [hvalue, String.toList_append] at hnotMem
    exact fun hmem => hnotMem (List.mem_append_right _ hmem)

/-- A field's line, as the file has it. -/
theorem newline_notMem_append {name value : String} (hname : '\n' ∉ name.toList)
    (hvalue : OneLine value) : '\n' ∉ (name ++ value).toList := by
  rw [String.toList_append, List.mem_append]
  exact not_or.mpr ⟨hname, hvalue.1⟩

theorem lines_text {fields : PinFields} (hcurrent : OneLine fields.current)
    (hnext : OneLine fields.next) (hkeyset : OneLine fields.keyset) (hurls : OneLine fields.urls)
    (hpinnedBy : OneLine fields.pinnedBy) :
    split '\n' fields.text =
      ["current=" ++ fields.current, "next=" ++ fields.next, "keyset=" ++ fields.keyset,
        "urls=" ++ fields.urls, "pinned_by=" ++ fields.pinnedBy] ++
        split '\n' ("updated=" ++ fields.updated ++ "\n") := by
  rw [PinFields.text]
  change split '\n' ("current=" ++ fields.current ++ String.singleton '\n' ++
    ("next=" ++ fields.next ++ String.singleton '\n' ++
      ("keyset=" ++ fields.keyset ++ String.singleton '\n' ++
        ("urls=" ++ fields.urls ++ String.singleton '\n' ++
          ("pinned_by=" ++ fields.pinnedBy ++ String.singleton '\n' ++
            ("updated=" ++ fields.updated ++ "\n")))))) = _
  rw [JavaScript.split_append_cons (newline_notMem_append (by decide) hcurrent),
    JavaScript.split_append_cons (newline_notMem_append (by decide) hnext),
    JavaScript.split_append_cons (newline_notMem_append (by decide) hkeyset),
    JavaScript.split_append_cons (newline_notMem_append (by decide) hurls),
    JavaScript.split_append_cons (newline_notMem_append (by decide) hpinnedBy)]
  rfl

/-- The first line with the name of a field gives its value. -/
theorem pinFieldOf_of_lines {text name value : String} (front : List String) {rest : List String}
    (hlines : split '\n' text = front ++ (name ++ "=" ++ value) :: rest)
    (hfront : ∀ line ∈ front, afterFront (name ++ "=") line = none) (hvalue : OneLine value) :
    pinFieldOf text name = value := by
  have hnone : front.findSome? (afterFront (name ++ "=")) = none :=
    List.findSome?_eq_none_iff.mpr hfront
  rw [pinFieldOf, hlines, List.findSome?_append, hnone, Option.none_or, List.findSome?_cons,
    JavaScript.afterFront_append, Option.getD_some, substituted_of_oneLine hvalue]

/-- The fields the shell reads of a pin file it wrote are those it wrote. -/
theorem pinFieldOf_text {fields : PinFields} (hcurrent : OneLine fields.current)
    (hnext : OneLine fields.next) (hkeyset : OneLine fields.keyset) (hurls : OneLine fields.urls)
    (hpinnedBy : OneLine fields.pinnedBy) :
    pinFieldOf fields.text "current" = fields.current ∧
      pinFieldOf fields.text "next" = fields.next ∧
      pinFieldOf fields.text "keyset" = fields.keyset ∧
      pinFieldOf fields.text "urls" = fields.urls := by
  have hlines := lines_text hcurrent hnext hkeyset hurls hpinnedBy
  have hother : ∀ {front key value : String}, front ≠ "" → key ≠ "" →
      front.toList.head? ≠ key.toList.head? → afterFront front (key ++ value) = none :=
    JavaScript.afterFront_append_of_head
  refine ⟨?_, ?_, ?_, ?_⟩
  · exact pinFieldOf_of_lines [] hlines (by simp) hcurrent
  · apply pinFieldOf_of_lines ["current=" ++ fields.current] hlines _ hnext
    simp only [List.mem_singleton, forall_eq]
    exact hother (by decide) (by decide) (by decide)
  · apply pinFieldOf_of_lines ["current=" ++ fields.current, "next=" ++ fields.next] hlines _ hkeyset
    simp only [List.mem_cons, List.not_mem_nil, or_false, forall_eq_or_imp, forall_eq]
    exact ⟨hother (by decide) (by decide) (by decide), hother (by decide) (by decide) (by decide)⟩
  · apply pinFieldOf_of_lines ["current=" ++ fields.current, "next=" ++ fields.next,
      "keyset=" ++ fields.keyset] hlines _ hurls
    simp only [List.mem_cons, List.not_mem_nil, or_false, forall_eq_or_imp, forall_eq]
    exact ⟨hother (by decide) (by decide) (by decide), hother (by decide) (by decide) (by decide),
      hother (by decide) (by decide) (by decide)⟩

end Turbopaneld.PanelIdentity
