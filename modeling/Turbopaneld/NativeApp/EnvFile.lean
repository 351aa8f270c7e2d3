/-
# The variables file of a native app

The daemon writes an app's variables as a file that systemd reads, and the host's helper
checks the file before it is installed.  The daemon works on text; the helper's checker
goes over the bytes of each line, in the C locale, and keeps the quote a value is in from
one line to the next.
-/

import Mathlib.Data.List.Basic
import Turbopaneld.JavaScript.Text
import Turbopaneld.Shell.Glob
import Turbopaneld.Shell.Records

namespace Turbopaneld.NativeApp

open Shell

/-! ## The daemon -/

structure NativeAppEnvEntry where
  name : String
  value : String
deriving DecidableEq, Repr

/-- CR LF becomes LF, from the left. -/
def joinLineEnds : List Char → List Char
  | '\r' :: '\n' :: rest => '\n' :: joinLineEnds rest
  | c :: rest => c :: joinLineEnds rest
  | [] => []

/-- A value as the file will carry it.  A carriage return that is not half of a Windows line
ending, or a NUL, cannot be carried. -/
def normalizeNativeAppEnvValue (composeServiceName name value : String) : Except String String :=
  let normalized := joinLineEnds value.toList
  if '\r' ∈ normalized then
    .error ("native app " ++ composeServiceName ++ ": variable " ++ name ++
      " holds a carriage return that is not part of a Windows line ending (CR LF); " ++
      "remove it and deploy again")
  else if '\x00' ∈ normalized then
    .error ("native app " ++ composeServiceName ++ ": variable " ++ name ++
      " holds a NUL character, which an environment variable cannot carry")
  else .ok (String.ofList normalized)

/-- The characters that get a backslash in double quotes. -/
def isSpecial (c : Char) : Bool := c == '\\' || c == '"' || c == '`' || c == '$'

def escapeSpecials (text : List Char) : List Char :=
  text.flatMap fun c => if isSpecial c then ['\\', c] else [c]

/-- One `NAME=value` line: single quotes unless the value holds one. -/
def renderNativeAppEnvLine (entry : NativeAppEnvEntry) : String :=
  if '\'' ∉ entry.value.toList then entry.name ++ "='" ++ entry.value ++ "'"
  else entry.name ++ "=\"" ++ String.ofList (escapeSpecials entry.value.toList) ++ "\""

def envFileHeader : String :=
  "# Managed by TurboPanel — rewritten on every deploy; edits are overwritten."

def renderNativeAppEnvFile (entries : List NativeAppEnvEntry) : String :=
  "\n".intercalate (envFileHeader :: entries.map renderNativeAppEnvLine ++ [""])

/-! ## The helper's checker -/

inductive Quote
  | single
  | double
deriving DecidableEq, Repr

def Quote.char : Quote → Char
  | .single => '\''
  | .double => '"'

/-- An entry as the scan delimits it: what stands between its quotes is kept as it is. -/
structure Delimited where
  name : List Char
  quote : Quote
  raw : List Char
deriving DecidableEq, Repr

/-- No NUL and no carriage return. -/
def tpContentPlain (text : List Char) : Bool := !text.contains '\x00' && !text.contains '\r'

/-- What is left of a line in a quoted value: how much of it the value takes, and whether it
gets to its closing quote, after which the line ends. -/
def scanValue : Quote → List Char → Option (List Char × Bool)
  | _, [] => some ([], false)
  | .single, c :: rest =>
    if c == '\'' then if rest.isEmpty then some ([], true) else none
    else (scanValue .single rest).map fun (taken, closed) => (c :: taken, closed)
  | .double, c :: rest =>
    if c == '"' then if rest.isEmpty then some ([], true) else none
    else if c == '\\' then
      match rest with
      | [] => none
      | d :: more =>
        if isSpecial d then
          (scanValue .double more).map fun (taken, closed) => (c :: d :: taken, closed)
        else none
    else if c == '`' || c == '$' then none
    else (scanValue .double rest).map fun (taken, closed) => (c :: taken, closed)

/-- The entries scanned so far, and the entry whose value is still open. -/
structure Scan where
  entries : List Delimited
  opened : Option Delimited
deriving DecidableEq, Repr

def isNameStart (c : Char) : Bool := JavaScript.isLetter c || c == '_'

/-- The value of `entry` goes on with the rest of a line. -/
def Scan.goOn (s : Scan) (entry : Delimited) (line : List Char) : Option Scan :=
  (scanValue entry.quote line).map fun (taken, closed) =>
    let entry := { entry with raw := entry.raw ++ taken }
    if closed then { entries := s.entries ++ [entry], opened := none }
    else { s with opened := some entry }

/-- A line that starts outside of quotes: blank, a comment, or a name and a quoted value. -/
def Scan.startLine (s : Scan) (line : List Char) : Option Scan :=
  if line.isEmpty || line.head? == some '#' || line.head? == some ';' then some s
  else
    let name := line.takeWhile JavaScript.isWord
    if !(name.head?.any isNameStart) then none
    else
      match line.drop name.length with
      | '=' :: rest =>
        if 255 < name.length then none
        else if name ∈ s.entries.map Delimited.name then none
        else
          match rest with
          | '\'' :: more => s.goOn ⟨name, .single, []⟩ more
          | '"' :: more => s.goOn ⟨name, .double, []⟩ more
          | _ => none
      | _ => none

/-- A line.  The line feed before it belongs to a value that is open. -/
def scanLine (s : Scan) (line : List Char) : Option Scan :=
  match s.opened with
  | none => s.startLine line
  | some entry => s.goOn { entry with raw := entry.raw ++ ['\n'] } line

/-- The entries that the scan of a file delimits, `none` where it fails. -/
def scanned (text : List Char) : Option (List Delimited) :=
  match (records text).foldlM scanLine ⟨[], none⟩ with
  | some ⟨entries, none⟩ => some entries
  | _ => none

def tpAppenvContentOk (text : List Char) : Bool := tpContentPlain text && (scanned text).isSome

end Turbopaneld.NativeApp
