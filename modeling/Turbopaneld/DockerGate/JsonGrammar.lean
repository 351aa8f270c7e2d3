/-
# What `JSON.parse` accepts

The JSON grammar, one production for each rule of the standard, as derivations of a
written value from a text.  A written value keeps every member of an object as it
stands in the text, repeated names included; `plainly` is what `JSON.parse` makes of it.

Nothing here looks at the gate's parser.  How a single string token is decoded is
shared with it.
-/

import Turbopaneld.DockerGate.Body

namespace Turbopaneld.DockerGate

open JavaScript

/-! ## Tokens -/

/-- White space between tokens. -/
def IsSpace (c : Char) : Prop := c = ' ' ∨ c = '\t' ∨ c = '\n' ∨ c = '\r'

instance (c : Char) : Decidable (IsSpace c) :=
  inferInstanceAs (Decidable (c = ' ' ∨ c = '\t' ∨ c = '\n' ∨ c = '\r'))

/-- A run of white space. -/
def Spaces (text : List Char) : Prop := ∀ c ∈ text, IsSpace c

/-- A run of digits, at least one. -/
def Digits (text : List Char) : Prop := text ≠ [] ∧ ∀ c ∈ text, JavaScript.isDigit c = true

/-- The whole part of a number: no leading zero. -/
def IsWhole (text : List Char) : Prop := text = ['0'] ∨ Digits text ∧ text.head? ≠ some '0'

/-- The fraction of a number, which may be left out. -/
def IsFraction (text : List Char) : Prop :=
  text = [] ∨ ∃ digits, Digits digits ∧ text = '.' :: digits

/-- The exponent of a number, which may be left out. -/
def IsExponent (text : List Char) : Prop :=
  text = [] ∨ ∃ mark sign digits, (mark = 'e' ∨ mark = 'E') ∧
    (sign = [] ∨ sign = ['+'] ∨ sign = ['-']) ∧ Digits digits ∧ text = mark :: (sign ++ digits)

/-- A number token. -/
def IsNumber (text : List Char) : Prop :=
  ∃ sign whole fraction exponent, (sign = [] ∨ sign = ['-']) ∧ IsWhole whole ∧
    IsFraction fraction ∧ IsExponent exponent ∧ text = sign ++ whole ++ fraction ++ exponent

/-- The inside of a string token, and the string it is. -/
def IsString (inside : List Char) (value : String) : Prop := decodeToken inside = .ok value

/-! ## Values -/

/-- The symbols of the grammar. -/
inductive Symbol
  | value
  | element
  | elements
  | member
  | members

/-- What a symbol derives from a text.  Elements stand for the array they make, and members
for the object. -/
inductive Derives : Symbol → List Char → Json → Prop
  | null : Derives .value "null".toList .null
  | true : Derives .value "true".toList (.bool true)
  | false : Derives .value "false".toList (.bool false)
  | number {token : List Char} (htoken : IsNumber token) :
    Derives .value token (.number (String.ofList token))
  | string {inside : List Char} {value : String} (hinside : IsString inside value) :
    Derives .value ('"' :: (inside ++ ['"'])) (.string value)
  | emptyArray {space : List Char} (hspace : Spaces space) :
    Derives .value ('[' :: (space ++ [']'])) (.array [])
  | array {inside : List Char} {items : List Json} (hinside : Derives .elements inside (.array items)) :
    Derives .value ('[' :: (inside ++ [']'])) (.array items)
  | emptyObject {space : List Char} (hspace : Spaces space) :
    Derives .value ('\x7b' :: (space ++ ['\x7d'])) (.object [])
  | object {inside : List Char} {fields : List (String × Json)}
    (hinside : Derives .members inside (.object fields)) :
    Derives .value ('\x7b' :: (inside ++ ['\x7d'])) (.object fields)
  | element {before text after : List Char} {value : Json} (hbefore : Spaces before)
    (hvalue : Derives .value text value) (hafter : Spaces after) :
    Derives .element (before ++ (text ++ after)) value
  | lastElement {text : List Char} {item : Json} (hitem : Derives .element text item) :
    Derives .elements text (.array [item])
  | moreElements {text rest : List Char} {item : Json} {items : List Json}
    (hitem : Derives .element text item) (hitems : Derives .elements rest (.array items)) :
    Derives .elements (text ++ ',' :: rest) (.array (item :: items))
  | member {before inside after text : List Char} {name : String} {value : Json}
    (hbefore : Spaces before) (hname : IsString inside name) (hafter : Spaces after)
    (hvalue : Derives .element text value) :
    Derives .member (before ++ '"' :: (inside ++ '"' :: (after ++ ':' :: text)))
      (.object [(name, value)])
  | lastMember {text : List Char} {field : String × Json}
    (hfield : Derives .member text (.object [field])) : Derives .members text (.object [field])
  | moreMembers {text rest : List Char} {field : String × Json} {fields : List (String × Json)}
    (hfield : Derives .member text (.object [field]))
    (hfields : Derives .members rest (.object fields)) :
    Derives .members (text ++ ',' :: rest) (.object (field :: fields))

/-- A text that is one JSON value, and the value as written. -/
def IsDocument (text : List Char) (written : Json) : Prop := Derives .element text written

/-! ## What is made of it -/

mutual

/-- What `JSON.parse` makes of a written value: of the members of an object with one name,
the first one's place and the last one's value stay. -/
def plainly : Json → Json
  | .array items => .array (plainItems items)
  | .object fields => .object (fromEntries (plainFields fields))
  | value => value

/-- `plainly` of every item. -/
def plainItems : List Json → List Json
  | [] => []
  | item :: rest => plainly item :: plainItems rest

/-- `plainly` of every member's value. -/
def plainFields : List (String × Json) → List (String × Json)
  | [] => []
  | field :: rest => (field.1, plainly field.2) :: plainFields rest

end

mutual

/-- How many arrays and objects the deepest value of a written value lies in. -/
def height : Json → ℕ
  | .array items => heightOfItems items
  | .object fields => heightOfFields fields
  | _ => 0

/-- The height of an array with these items. -/
def heightOfItems : List Json → ℕ
  | [] => 0
  | item :: rest => max (height item + 1) (heightOfItems rest)

/-- The height of an object with these members. -/
def heightOfFields : List (String × Json) → ℕ
  | [] => 0
  | field :: rest => max (height field.2 + 1) (heightOfFields rest)

end

/-- Printable ASCII. -/
def Printable (name : String) : Prop := ∀ c ∈ name.toList, ' ' ≤ c ∧ c ≤ '~'

/-- Some object of the written value whose names are struct field names has a name that is
not printable ASCII, or two names that differ in letter case at most. -/
inductive BadName : Context → Json → Prop
  | unprintable {fields : List (String × Json)} {field : String × Json} (hfield : field ∈ fields)
    (hname : ¬Printable field.1) : BadName .struct (.object fields)
  | repeated {fields : List (String × Json)}
    (hnames : ¬(fields.map fun field => JavaScript.toLowerCase field.1).Nodup) :
    BadName .struct (.object fields)
  | field {context : Context} {fields : List (String × Json)} {field : String × Json}
    (hfield : field ∈ fields) (hvalue : BadName (childContext context field.1) field.2) :
    BadName context (.object fields)
  | item {context : Context} {items : List Json} {item : Json} (hitem : item ∈ items)
    (hvalue : BadName .struct item) : BadName context (.array items)

/-- A name of an object as the policy reads it. -/
def nameIn (context : Context) (name : String) : String :=
  match context with
  | .struct => canonicalName name
  | .map => name

mutual

/-- A value with the names of its struct fields in their canonical spelling. -/
def renamed : Context → Json → Json
  | _, .array items => .array (renamedItems items)
  | context, .object fields => .object (renamedFields context fields)
  | _, value => value

/-- `renamed` of every item: an array's items are structs. -/
def renamedItems : List Json → List Json
  | [] => []
  | item :: rest => renamed .struct item :: renamedItems rest

/-- `renamed` of every field's value, and of its name in a struct. -/
def renamedFields : Context → List (String × Json) → List (String × Json)
  | _, [] => []
  | context, field :: rest =>
    (nameIn context field.1, renamed (childContext context field.1) field.2) ::
      renamedFields context rest

end

end Turbopaneld.DockerGate
