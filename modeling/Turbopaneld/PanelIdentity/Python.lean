/-
# Values of the host helper's Python programs

The helper checks what the panel sends in two short Python programs.  Here are the
values `json.loads` gives them and the few library functions they use.  Of these the
base64 decoder matters most: it passes over characters outside its alphabet, takes
both alphabets, and stops at the padding, so one digest has many spellings.
-/

import Turbopaneld.JavaScript.Base64

namespace Turbopaneld.PanelIdentity

open JavaScript (split)

abbrev Bytes : Type := List UInt8

/-- A value `json.loads` gives.  A float is kept as the text it prints as, the zeros apart. -/
inductive Py where
  | none
  | bool (value : Bool)
  | int (value : ℤ)
  | zero (negative : Bool)
  | float (text : String)
  | str (text : String)
  | list (items : List Py)
  | dict (fields : List (String × Py))

/-- `bool(value)`. -/
def Py.truthy : Py → Bool
  | .none => false
  | .bool value => value
  | .int value => value != 0
  | .zero _ => false
  | .float _ => true
  | .str text => text != ""
  | .list items => !items.isEmpty
  | .dict fields => !fields.isEmpty

/-- `"%s" % value` of a string and of every value that is not truthy. -/
def Py.print : Py → String
  | .none => "None"
  | .bool value => if value then "True" else "False"
  | .int value => toString value
  | .zero negative => if negative then "-0.0" else "0.0"
  | .float text => text
  | .str text => text
  | .list _ => "[]"
  | .dict _ => "\x7b\x7d"

/-- `value.get(key, default)` of a dictionary; the last of two equal keys stays. -/
def lookup (key : String) (fields : List (String × Py)) : Option Py :=
  (fields.reverse.find? fun field => field.1 == key).map Prod.snd

/-- `isinstance(value, int) and not isinstance(value, bool)`, with the integer. -/
def Py.asInt : Py → Option ℤ
  | .int value => some value
  | _ => Option.none

/-- The six bits of a character in either alphabet. -/
def sextetOf (c : Char) : Option ℕ :=
  if c == '+' then some 62
  else if c == '/' then some 63
  else
    let index := JavaScript.base64UrlAlphabet.idxOf c
    if index < 64 then some index else none

/-- The six-bit values `binascii.a2b_base64` reads: a character of neither alphabet is passed
over, a padding that completes a group ends the text, and a text that ends inside a group is
refused. -/
def lenientSextets : ℕ → ℕ → List Char → Option (List ℕ)
  | group, _, [] => if group = 0 then some [] else none
  | group, pads, c :: rest =>
    if c == '=' then
      if 2 ≤ group ∧ 4 ≤ group + (pads + 1) then some []
      else lenientSextets group (if 2 ≤ group then pads + 1 else pads) rest
    else
      match sextetOf c with
      | none => lenientSextets group pads rest
      | some sextet => (lenientSextets ((group + 1) % 4) 0 rest).map (sextet :: ·)

/-- `b64d`: `urlsafe_b64decode` of the text with as many `=` as fill up its length. -/
def b64d (text : String) : Except String Bytes :=
  let padded := text.toList ++ List.replicate ((4 - text.toList.length % 4) % 4) '='
  if padded.all fun c => c.toNat < 128 then
    match (lenientSextets 0 0 padded).bind JavaScript.ofSextets with
    | some bytes => .ok bytes
    | none => .error "not base64url"
  else .error "not base64url"

/-- The characters `str.strip` removes. -/
def isPythonSpace (c : Char) : Bool :=
  ('\t' ≤ c && c ≤ '\r') || ('\x1c' ≤ c && c ≤ ' ') || c == '\x85' || c == '\u00a0' ||
    c == '\u1680' || ('\u2000' ≤ c && c ≤ '\u200a') || c == '\u2028' || c == '\u2029' ||
    c == '\u202f' || c == '\u205f' || c == '\u3000'

/-- `text.strip()`. -/
def strip (text : String) : String :=
  String.ofList ((text.toList.dropWhile isPythonSpace).rdropWhile isPythonSpace)

/-- `text.partition(separator)`: what is before and after the first separator. -/
def partition (separator : Char) (text : String) : String × String :=
  (String.ofList (text.toList.takeWhile (· != separator)),
    String.ofList (text.toList.dropWhile (· != separator)).tail)

/-- A digest spelled with a line break in front of its first and second character is read as
its thirty-two bytes. -/
example : (b64d (String.ofList ('\n' :: '3' :: '\n' :: List.replicate 42 'A'))).toOption.map
    List.length = some 32 := by
  decide +kernel

end Turbopaneld.PanelIdentity
