/-
# The root helper's folder names

The same names as the root helper checks them, with `case` patterns and length tests
over words of the C locale, and where in a principal's home it lets a path sit.
-/

import Mathlib.Tactic.Common
import Turbopaneld.Folders.DirectoryNames
import Turbopaneld.Shell.Glob

namespace Turbopaneld.Folders

open JavaScript Shell

/-! ## Bracket expressions -/

/-- `[a-z_]`. -/
def isOwnerFirst (c : Char) : Bool := isLower c || c == '_'

/-- `[a-z0-9_-]`. -/
def isNameChar (c : Char) : Bool := isLower c || isDigit c || c == '_' || c == '-'

/-- `[a-z0-9]`. -/
def isAlnum (c : Char) : Bool := isLower c || isDigit c

/-- `[a-z0-9._-]`. -/
def isFolderChar (c : Char) : Bool := isLower c || isDigit c || c == '.' || c == '_' || c == '-'

/-- `[!class]`. -/
def noneOf (accepts : Char → Bool) : Piece := .oneOf fun c => !accepts c

/-- A literal pattern. -/
def lit (text : String) : Glob := quoted text.toList

/-! ## The checks -/

/-- `tp_owner_shape_ok`. -/
def tpOwnerShapeOk (name : List Char) : Bool :=
  if caseMatches [[], [noneOf isOwnerFirst, .star], [.star, noneOf isNameChar, .star],
      .star :: lit "-", .star :: (lit "--" ++ [.star]), .star :: lit "-grp", lit "tp" ++ [.star],
      lit "systemd-" ++ [.star]] name then false
  else name.length ≤ 28

/-- `TP_RESERVED_SCOPES`. -/
def tpReservedScopes : List Char :=
  (" common home tmp services volumes data sites backup backups logs cache run var etc bin root " ++
    "public releases current shared lost-found tmp-staging base ").toList

/-- `tp_environment_name_ok`. -/
def tpEnvironmentNameOk (name : List Char) : Bool :=
  if caseMatches [[], [noneOf isAlnum, .star], [.star, noneOf isNameChar, .star]] name then false
  else if !(name.length ≤ 32) then false
  else !caseMatches [.star :: (quoted (' ' :: (name ++ [' '])) ++ [.star])] tpReservedScopes

/-- `tp_scope_ok`. -/
def tpScopeOk (name : List Char) : Bool := name == "common".toList || tpEnvironmentNameOk name

/-- `tp_folder_name_ok`. -/
def tpFolderNameOk (name : List Char) : Bool :=
  if caseMatches [[], [noneOf isAlnum, .star], [.star, noneOf isFolderChar, .star],
      [.star, noneOf isAlnum], .star :: (lit ".." ++ [.star])] name then false
  else name.length ≤ 63

/-- `$_uu_4`: four bracket expressions. -/
def hexFour : Glob := List.replicate 4 (.oneOf isHex)

/-- `tp_uuid_ok`. -/
def tpUuidOk (name : List Char) : Bool :=
  if !(name.length == 36) then false
  else
    caseMatches
      [hexFour ++ hexFour ++ lit "-" ++ hexFour ++ lit "-" ++ hexFour ++ lit "-" ++ hexFour ++
        lit "-" ++ hexFour ++ hexFour ++ hexFour] name

/-! ## Paths in a home -/

/-- `tp_home_owner_of`, with `R_PRINCIPALS` given. -/
def tpHomeOwnerOf (principals path : List Char) : Option (List Char) :=
  let rest := cutFront (quoted principals ++ lit "/") path
  if rest = path then none else some (cutLongestEnd (fromChar '/') rest)

/-- `tp_home_rel`. -/
def tpHomeRel (principals path : List Char) : Option (List Char) :=
  let rest := cutFront (quoted principals ++ lit "/") path
  if rest = path then none
  else
    some (if caseMatches [[.star, .char '/', .star]] rest then cutFront (upToChar '/') rest else [])

/-- What stands in a service folder. -/
def inService : List Glob :=
  [lit "releases", lit "releases/" ++ [.star], lit "current", lit "shared", lit "shared/" ++ [.star],
    lit "public", lit "public/" ++ [.star], lit "logs", lit "logs/" ++ [.star],
    lit ".turbopanel-hosting", lit ".turbopanel-hosting/" ++ [.star]]

/-- The part of `tp_home_shape_ok` below a scope's `services` or `volumes`. -/
def tpFolderShapeOk (rest : List Char) : Bool :=
  let kind := cutLongestEnd (fromChar '/') rest
  let below := cutFront (upToChar '/') rest
  let name := cutLongestEnd (fromChar '/') below
  if !tpFolderNameOk name then false
  else if name = below then true
  else if !(kind = "services".toList) then true
  else caseMatches inService (cutFront (upToChar '/') below)

/-- The part of `tp_home_shape_ok` that looks at the path below the home. -/
def tpScopeShapeOk (rel : List Char) : Bool :=
  let top := cutLongestEnd (fromChar '/') rel
  if caseMatches [[], lit "home", lit "data", lit "tmp", lit "sites", lit "volumes"] top then true
  else if !tpScopeOk top then false
  else if top = rel then true
  else
    let rest := cutFront (upToChar '/') rel
    if caseMatches [lit "services", lit "volumes"] rest then true
    else if caseMatches [lit "services/" ++ [.star], lit "volumes/" ++ [.star]] rest then
      tpFolderShapeOk rest
    else false

/-- `tp_home_shape_ok`, with `R_PRINCIPALS` given. -/
def tpHomeShapeOk (principals path : List Char) : Bool :=
  if path = principals then true
  else
    match tpHomeOwnerOf principals path with
    | none => true
    | some owner =>
      if substituted owner = ".tp-staging".toList then true
      else
        match tpHomeRel principals path with
        | none => true
        | some rel => tpScopeShapeOk (substituted rel)

end Turbopaneld.Folders
