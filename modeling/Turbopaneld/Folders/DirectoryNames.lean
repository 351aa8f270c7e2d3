/-
# Folder names

The rules for every name that becomes a directory under a site owner's tree, as the
daemon and the control plane check them, and the path a folder reference stands for.
-/

import Turbopaneld.JavaScript.Pattern

namespace Turbopaneld.Folders

open JavaScript

/-! ## The rules -/

/-- `COMMON_SCOPE`. -/
def commonScope : String := "common"

/-- `OWNER_NAME_RE`. -/
def ownerNameRe : Pattern :=
  .seq (.one fun c => isLower c || c == '_')
    (.upTo 27 (.one fun c => isLower c || isDigit c || c == '_' || c == '-'))

/-- `ENVIRONMENT_NAME_RE`. -/
def environmentNameRe : Pattern :=
  .seq (.one fun c => isLower c || isDigit c)
    (.upTo 31 (.one fun c => isLower c || isDigit c || c == '_' || c == '-'))

/-- `FOLDER_NAME_RE`. -/
def folderNameRe : Pattern :=
  .seq (.one fun c => isLower c || isDigit c)
    (.upTo 1
      (.seq (.upTo 61 (.one fun c => isLower c || isDigit c || c == '.' || c == '_' || c == '-'))
        (.one fun c => isLower c || isDigit c)))

/-- `[0-9a-f]`. -/
def isHex (c : Char) : Bool := isDigit c || ('a' ≤ c && c ≤ 'f')

/-- `PATH_ID_RE`. -/
def pathIdRe : Pattern :=
  Pattern.inTurn (.times 8 (.one isHex))
    [.char '-', .times 4 (.one isHex), .char '-', .times 4 (.one isHex), .char '-',
      .times 4 (.one isHex), .char '-', .times 12 (.one isHex)]

/-- `RESERVED_SCOPE_NAMES`, before the split. -/
def reservedScopeText : String :=
  "common home tmp services volumes data sites backup backups logs cache run var etc bin root " ++
    "public releases current shared lost-found tmp-staging base"

/-- `RESERVED_SCOPE_NAMES`. -/
def reservedScopeNames : List String := split ' ' reservedScopeText

/-- `OWNER_RESERVED_PREFIXES`. -/
def ownerReservedPrefixes : List String := ["tp", "systemd-"]

/-- `OWNER_RESERVED_SUFFIX`. -/
def ownerReservedSuffix : String := "-grp"

/-- `isPathId`. -/
def isPathId (value : String) : Bool := pathIdRe.test value

/-- `isValidOwnerName`. -/
def isValidOwnerName (value : String) : Bool :=
  if !ownerNameRe.test value then false
  else if endsWith value "-" || includes value "--" then false
  else if ownerReservedPrefixes.any (startsWith value) then false
  else !endsWith value ownerReservedSuffix

/-- `isReservedScopeName`. -/
def isReservedScopeName (value : String) : Bool := reservedScopeNames.contains value

/-- `isValidEnvironmentName`. -/
def isValidEnvironmentName (value : String) : Bool :=
  environmentNameRe.test value && !isReservedScopeName value

/-- `isValidScope`. -/
def isValidScope (value : String) : Bool := value == commonScope || isValidEnvironmentName value

/-- `isValidFolderName`. -/
def isValidFolderName (value : String) : Bool := folderNameRe.test value && !includes value ".."

/-! ## References -/

/-- `FolderKind`. -/
inductive FolderKind
  | service
  | volume
deriving DecidableEq

/-- `FolderRef`. -/
structure FolderRef where
  owner : String
  scope : String
  kind : FolderKind
  slug : String

/-- `checkFolderParts`: the first bad part, by the text of its error. -/
def checkFolderParts (ref : FolderRef) : Except String Unit :=
  if !isValidOwnerName ref.owner then .error "Invalid folder reference owner"
  else if !isValidScope ref.scope then .error "Invalid folder reference scope"
  else if !isValidFolderName ref.slug then .error "Invalid folder reference slug"
  else .ok ()

/-- `parseFolderRef` of a value that has the four fields and no others. -/
def parseFolderRef (ref : FolderRef) : Except String FolderRef := do
  checkFolderParts ref
  return ref

/-- The folder a kind of asset lies in. -/
def FolderKind.folder : FolderKind → String
  | .service => "services"
  | .volume => "volumes"

/-- `folderJailPath`. -/
def folderJailPath (ref : FolderRef) : String :=
  "/" ++ ref.scope ++ "/" ++ ref.kind.folder ++ "/" ++ ref.slug

/-- `folderHostPath`. -/
def folderHostPath (root : String) (ref : FolderRef) : Except String String :=
  if !startsWith root "/" || lengthInUnits root < 2 || endsWith root "/" then
    .error "Invalid folder root"
  else do
    let checked ← parseFolderRef ref
    return root ++ "/" ++ checked.owner ++ folderJailPath checked

end Turbopaneld.Folders
