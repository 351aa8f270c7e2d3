/-
# Parsed bodies

The JSON values the gate's checks read.  An object keeps its entries in order and
holds a key at most once; `Object.fromEntries` is what makes it so.  A number
keeps its text, since the checks only ask for its sign.  A field that is absent
(`undefined`) is `none`, which the source keeps apart from `null`.
-/

import Mathlib.Algebra.Ring.Nat
import Turbopaneld.JavaScript.Text

namespace Turbopaneld.DockerGate

open JavaScript

/-- A JSON value. -/
inductive Json
  | null
  | bool (value : Bool)
  | number (token : String)
  | string (value : String)
  | array (items : List Json)
  | object (fields : List (String × Json))
  deriving Repr

namespace Json

/-- `value.name`: a field of an object.  The other values have none of the fields
the gate reads. -/
def field : Json → String → Option Json
  | .object fields, name => fields.lookup name
  | _, _ => none

/-- `isRecord`. -/
def isRecord : Json → Bool
  | .object _ => true
  | _ => false

/-- A value when it is an object, as in `isRecord(value) ? value : {}`. -/
def asRecord : Option Json → Json
  | some (.object fields) => .object fields
  | _ => .object []

/-- The items of a value that is an array, and none otherwise. -/
def items : Option Json → List Json
  | some (.array items) => items
  | _ => []

/-- `stringList`: the strings of an array. -/
def stringList (value : Option Json) : List String :=
  (items value).filterMap fun
    | .string text => some text
    | _ => none

/-- `isPresent`. -/
def isPresent : Option Json → Bool
  | none | some .null => false
  | some (.string text) => text ≠ ""
  | some (.array items) => items ≠ []
  | some (.object fields) => fields ≠ []
  | some _ => true

/-- A string, or the empty text: `typeof value === "string" ? value : ""`. -/
def textOf : Option Json → String
  | some (.string text) => text
  | _ => ""

/-- `value ?? ""` as a value: `null` and `undefined` become the empty string. -/
def orEmpty : Option Json → Json
  | none | some .null => .string ""
  | some value => value

/-- `value === true`. -/
def isTrue : Option Json → Bool
  | some (.bool true) => true
  | _ => false

/-- `value === text`. -/
def isText (value : Option Json) (text : String) : Bool :=
  match value with
  | some (.string found) => found == text
  | _ => false

/-! ## Numbers -/

/-- The value of decimal digits. -/
def decimal (digits : List Char) : ℕ := digits.foldl (fun n d => 10 * n + (d.toNat - 48)) 0

/-- Sign, coefficient and power of ten of a number's text. -/
def numberParts (token : String) : Bool × ℕ × ℤ :=
  let negative := token.toList.head? == some '-'
  let unsigned := if negative then token.toList.tail else token.toList
  let coefficient := unsigned.takeWhile fun c => c ≠ 'e' && c ≠ 'E'
  let power := (unsigned.drop coefficient.length).tail
  let whole := coefficient.takeWhile (· ≠ '.')
  let fraction := (coefficient.drop whole.length).tail
  let exponent : ℤ :=
    match power with
    | '-' :: digits => -(decimal digits : ℤ)
    | '+' :: digits => decimal digits
    | digits => decimal digits
  (negative, decimal (whole ++ fraction), exponent - fraction.length)

/-- Whether a number's text reads as zero: its coefficient is zero, or it lies at
or below half the smallest double. -/
def readsAsZero (coefficient : ℕ) (exponent : ℤ) : Bool :=
  if exponent < 0 then coefficient * 2 ^ 1075 ≤ 10 ^ exponent.natAbs else coefficient = 0

/-- `typeof value === "number" && value > 0`. -/
def isPositive : Option Json → Bool
  | some (.number token) =>
      let (negative, coefficient, exponent) := numberParts token
      !negative && !readsAsZero coefficient exponent
  | _ => false

/-- `typeof value === "number" && value < 0`. -/
def isNegative : Option Json → Bool
  | some (.number token) =>
      let (negative, coefficient, exponent) := numberParts token
      negative && !readsAsZero coefficient exponent
  | _ => false

/-! ## `String(value)` -/

mutual

/-- `String(value)`.  A number is shown by its own text; it is never one of the
words the gate compares with. -/
def toText : Json → String
  | .null => "null"
  | .bool true => "true"
  | .bool false => "false"
  | .number token => token
  | .string text => text
  | .array items => ",".intercalate (itemTexts items)
  | .object _ => "[object Object]"

/-- The texts an array joins; `null` joins as nothing. -/
def itemTexts : List Json → List String
  | [] => []
  | .null :: rest => "" :: itemTexts rest
  | item :: rest => toText item :: itemTexts rest

end

/-- Neither an array nor an object. -/
def isLeaf : Json → Bool
  | .array _ | .object _ => false
  | _ => true

/-- Induction over a value: what holds of all items holds of the array, and what
holds of all field values holds of the object. -/
@[elab_as_elim]
theorem induction {P : Json → Prop} (value : Json)
    (leaf : ∀ value, value.isLeaf = true → P value)
    (array : ∀ items, (∀ item ∈ items, P item) → P (.array items))
    (object : ∀ fields : List (String × Json), (∀ field ∈ fields, P field.2) → P (.object fields)) :
    P value := by
  match value with
  | .null => exact leaf .null rfl
  | .bool b => exact leaf (.bool b) rfl
  | .number token => exact leaf (.number token) rfl
  | .string text => exact leaf (.string text) rfl
  | .array items => exact array items fun item _ => induction item leaf array object
  | .object fields => exact object fields fun field _ => induction field.2 leaf array object
termination_by sizeOf value
decreasing_by
  · next hitem =>
      have hsize := List.sizeOf_lt_of_mem hitem
      simp only [Json.array.sizeOf_spec]
      omega
  · next hfield =>
      have hsize := List.sizeOf_lt_of_mem hfield
      have hpair : sizeOf field.2 < sizeOf field := by
        obtain ⟨name, value⟩ := field
        rw [Prod.mk.sizeOf_spec]
        show sizeOf value < 1 + sizeOf name + sizeOf value
        omega
      simp only [Json.object.sizeOf_spec]
      omega

/-! ## Equality -/

mutual

/-- Whether two values are the same. -/
def same : Json → Json → Bool
  | .null, .null => true
  | .bool b, .bool c => b == c
  | .number s, .number t => s == t
  | .string s, .string t => s == t
  | .array items, .array others => sameItems items others
  | .object fields, .object others => sameFields fields others
  | _, _ => false

/-- `same` of each item in turn. -/
def sameItems : List Json → List Json → Bool
  | [], [] => true
  | item :: items, other :: others => same item other && sameItems items others
  | _, _ => false

/-- `same` of each field in turn. -/
def sameFields : List (String × Json) → List (String × Json) → Bool
  | [], [] => true
  | (name, value) :: fields, (name', value') :: fields' =>
      name == name' && same value value' && sameFields fields fields'
  | _, _ => false

end

mutual

theorem eq_of_same : ∀ {value other : Json}, same value other = true → value = other
  | .null, other, hsame => by cases other <;> simp_all [same]
  | .bool _, other, hsame => by cases other <;> simp_all [same]
  | .number _, other, hsame => by cases other <;> simp_all [same]
  | .string _, other, hsame => by cases other <;> simp_all [same]
  | .array items, other, hsame => by
      cases other with
      | array others =>
          rw [same] at hsame
          rw [eq_of_sameItems hsame]
      | _ => simp [same] at hsame
  | .object fields, other, hsame => by
      cases other with
      | object others =>
          rw [same] at hsame
          rw [eq_of_sameFields hsame]
      | _ => simp [same] at hsame

theorem eq_of_sameItems : ∀ {items others : List Json}, sameItems items others = true →
    items = others
  | [], others, hsame => by cases others <;> simp_all [sameItems]
  | item :: items, others, hsame => by
      cases others with
      | nil => simp [sameItems] at hsame
      | cons other others =>
          rw [sameItems, Bool.and_eq_true] at hsame
          rw [eq_of_same hsame.1, eq_of_sameItems hsame.2]

theorem eq_of_sameFields : ∀ {fields others : List (String × Json)},
    sameFields fields others = true → fields = others
  | [], others, hsame => by cases others <;> simp_all [sameFields]
  | (name, value) :: fields, others, hsame => by
      cases others with
      | nil => simp [sameFields] at hsame
      | cons other others =>
          obtain ⟨name', value'⟩ := other
          simp only [sameFields, Bool.and_eq_true, beq_iff_eq] at hsame
          rw [hsame.1.1, eq_of_same hsame.1.2, eq_of_sameFields hsame.2]

end

theorem same_self (value : Json) : same value value = true := by
  induction value using induction with
  | leaf value hleaf => cases value <;> simp_all [same, isLeaf]
  | array items ih =>
      rw [same]
      induction items with
      | nil => rfl
      | cons item items ihItems =>
          rw [sameItems, ih item List.mem_cons_self, Bool.true_and]
          exact ihItems fun other hother => ih other (List.mem_cons_of_mem item hother)
  | object fields ih =>
      rw [same]
      induction fields with
      | nil => rfl
      | cons field fields ihFields =>
          obtain ⟨name, value⟩ := field
          rw [sameFields, ih (name, value) List.mem_cons_self, BEq.rfl, Bool.true_and,
            Bool.true_and]
          exact ihFields fun other hother => ih other (List.mem_cons_of_mem _ hother)

instance : DecidableEq Json := fun value other =>
  decidable_of_iff (same value other = true) ⟨eq_of_same, fun heq => heq ▸ same_self value⟩

end Json

/-- Set a key of an object: a key that comes again keeps its place and takes the
later value. -/
def setField (fields : List (String × Json)) (entry : String × Json) : List (String × Json) :=
  if fields.any fun field => field.1 == entry.1 then
    fields.map fun field => if field.1 == entry.1 then entry else field
  else fields ++ [entry]

/-- `Object.fromEntries`. -/
def fromEntries (entries : List (String × Json)) : List (String × Json) :=
  entries.foldl setField []

end Turbopaneld.DockerGate
