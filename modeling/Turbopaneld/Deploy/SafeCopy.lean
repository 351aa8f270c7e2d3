/-
# The symlink-safe copy of the build hand-off

Every copy between a tree a build wrote, the build work directory and the release
tree goes through `copyContainedTree`.  Entries are looked at without following
them: directories are recreated, regular files copied, special files dropped, and
a symlink is kept only when its own text, judged by its own depth, cannot leave the
tree.  A kept link is made by running `ln -sfn <text> <link>`.

The source tree does not change while it is copied, so what the copy checks twice
(inodes, the directory after its listing) is as it was.  Modes are left out.
-/

import Mathlib.Algebra.Ring.Nat
import Turbopaneld.JavaScript.Text
import Turbopaneld.Paths.Walk

namespace Turbopaneld.Deploy

open JavaScript (startsWith split)

/-! ## Source and destination -/

/-- A name in a directory. -/
structure Name where
  text : String
  valid : text ≠ "" ∧ '/' ∉ text.toList ∧ text ≠ "." ∧ text ≠ ".."
deriving DecidableEq

mutual

/-- What the copy finds at a name, with the owner as the file system reports it. -/
inductive Node where
  | file (uid : Option ℕ) (content : List UInt8)
  | link (uid : Option ℕ) (text : String)
  | special (uid : Option ℕ)
  | dir (uid : Option ℕ) (entries : Entries)

/-- The entries of a directory, in the order the copy takes them: sorted by
`localeCompare` of their names. -/
inductive Entries where
  | nil
  | cons (name : Name) (node : Node) (rest : Entries)

end

def Node.uid : Node → Option ℕ
  | .file uid _ | .link uid _ | .special uid | .dir uid _ => uid

/-- The entry with a name. -/
def Entries.find (entry : String) : Entries → Option Node
  | .nil => none
  | .cons name node rest => if name.text = entry then some node else rest.find entry

/-- What stands at a place of the destination. -/
inductive Entry where
  | dir
  | file (content : List UInt8)
  | link (text : String)
  | special
deriving DecidableEq

/-- The destination directory: what stands at each place below it. -/
abbrev Dest : Type := List (List String × Entry)

def Dest.lookup (dest : Dest) (place : List String) : Option Entry :=
  (dest.find? fun entry => entry.1 == place).map Prod.snd

/-- Put an entry at a place, in the stead of what stands there. -/
def Dest.put (dest : Dest) (place : List String) (entry : Entry) : Dest :=
  dest.filter (fun other => other.1 != place) ++ [(place, entry)]

/-! ## Limits, report, and paths -/

structure HandoffLimits where
  maxEntries : ℕ
  maxBytes : ℕ
  maxDepth : ℕ

def defaultHandoffLimits : HandoffLimits where
  maxEntries := 500000
  maxBytes := 16 * 1024 ^ 3
  maxDepth := 128

/-- The limits a caller gives, each of which may be left out. -/
structure GivenLimits where
  maxEntries : Option ℕ
  maxBytes : Option ℕ
  maxDepth : Option ℕ

/-- `{ ...DEFAULT_HANDOFF_LIMITS, ...limits }`. -/
def GivenLimits.filled (limits : GivenLimits) : HandoffLimits where
  maxEntries := limits.maxEntries.getD defaultHandoffLimits.maxEntries
  maxBytes := limits.maxBytes.getD defaultHandoffLimits.maxBytes
  maxDepth := limits.maxDepth.getD defaultHandoffLimits.maxDepth

structure HandoffReport where
  entries : ℕ
  bytes : ℕ
  droppedLinks : List String
  skippedSpecial : List String

/-- Split a tenant-supplied relative path, refusing anything that could name a place
outside the root. -/
def containedSegments (value : String) : Except String (List String) :=
  if startsWith value "/" then .error ("refusing absolute path " ++ value)
  else
    let segments := (split '/' value).filter fun s => s != "" && s != "."
    if segments.contains ".." then .error ("refusing " ++ value ++ ": it leaves its tree")
    else .ok segments

/-- True when a symlink at `linkRelative` with this target resolves inside the tree,
whatever the other entries are.  `findIdx` is the length where no name is found. -/
def linkStaysInside (linkRelative target : String) : Bool :=
  if target = "" || startsWith target "/" then false
  else
    let depth := (split '/' linkRelative).length - 1
    let segments := (split '/' target).filter fun s => s != "" && s != "."
    let ups := segments.findIdx (· != "..")
    if (segments.drop ups).contains ".." then false else ups ≤ depth

/-! ## The copy -/

/-- The report so far and what has been written. -/
structure Copy where
  report : HandoffReport
  dest : Dest

/-- A text the option parser of `ln` takes as options. -/
def readsAsOptions (text : String) : Bool := startsWith text "-" && text != "-"

/-- The last name of a path, as a link to it made in a directory is called. -/
def lastName (target : String) : Option String :=
  ((split '/' target).filter (· != "")).getLast?.filter fun name => name != "." && name != ".."

section

-- What `ln` does when the text is read as options: its message, or the destination after.
variable (lnOptions : String → List String → Dest → Except String Dest)

/-- `ln -sfn <target> <link>`, with no `--` before the target: a target that is an operand
becomes the text of a new link, in the stead of a file or a link at that place, and inside a
directory at that place. -/
def createSymlink (target : String) (link : List String) (dest : Dest) : Except String Dest :=
  if readsAsOptions target then lnOptions target link dest
  else
    match dest.lookup link with
    | some .dir =>
      match lastName target with
      | none => .error "cannot overwrite directory"
      | some name =>
        if dest.lookup (link ++ [name]) = some .dir then .error "cannot overwrite directory"
        else .ok (dest.put (link ++ [name]) (.link target))
    | _ => .ok (dest.put link (.link target))

/-- Create one destination directory, or accept a real one already there. -/
def makeDestDir (place : List String) (relative : String) (dest : Dest) : Except String Dest :=
  match dest.lookup place with
  | none => .ok (dest.put place .dir)
  | some .dir => .ok dest
  | some (.link _) => .error ("refusing " ++ relative ++ ": it is a symlink")
  | some _ => .error ("refusing " ++ relative ++ ": it is not a directory")

/-- Create a new destination file; a regular file already there is replaced. -/
def openNewFile (place : List String) (relative : String) (content : List UInt8) (dest : Dest) :
    Except String Dest :=
  match dest.lookup place with
  | none | some (.file _) => .ok (dest.put place (.file content))
  | some _ => .error ("refusing " ++ relative ++ ": it is not a regular file")

def countEntry (limits : HandoffLimits) (relative : String) (copy : Copy) : Except String Copy :=
  if limits.maxEntries < copy.report.entries + 1 then
    .error ("refusing the tree: more than " ++ toString limits.maxEntries ++ " entries (at " ++
      relative ++ ")")
  else .ok { copy with report := { copy.report with entries := copy.report.entries + 1 } }

def checkOwner (ownerUid : Option ℕ) (relative : String) (uid : Option ℕ) : Except String Unit :=
  match ownerUid, uid with
  | some owner, some uid =>
    if uid = owner then .ok ()
    else .error ("refusing " ++ relative ++ ": owned by uid " ++ toString uid ++
      ", not the tree's owner")
  | _, _ => .ok ()

def copyLink (place : List String) (relative target : String) (copy : Copy) : Except String Copy :=
  if linkStaysInside relative target then do
    let dest ← createSymlink lnOptions target place copy.dest
    .ok { copy with dest }
  else
    .ok { copy with
      report := { copy.report with droppedLinks := copy.report.droppedLinks ++ [relative] } }

def copyFileEntry (limits : HandoffLimits) (place : List String) (relative : String)
    (content : List UInt8) (copy : Copy) : Except String Copy :=
  if limits.maxBytes < copy.report.bytes + content.length then
    .error ("refusing the tree: more than " ++ toString limits.maxBytes ++ " bytes")
  else do
    let dest ← openNewFile place relative content copy.dest
    .ok { report := { copy.report with bytes := copy.report.bytes + content.length }, dest }

/-- A directory being copied: where it is in the tree, and how deep. -/
structure Dir where
  place : List String
  relative : String
  depth : ℕ

def Dir.child (dir : Dir) (name : Name) : Dir where
  place := dir.place ++ [name.text]
  relative := if dir.relative ≠ "" then dir.relative ++ "/" ++ name.text else name.text
  depth := dir.depth + 1

/-- Never copied: build metadata, not shipped artifacts. -/
def isExcluded (name : Name) : Bool := name.text == ".git"

variable (limits : HandoffLimits) (ownerUid : Option ℕ)

mutual

/-- Copy what stands at a name; `here` is the place of the entry itself. -/
def copyEntry (here : Dir) : Node → Copy → Except String Copy
  | .link uid target, copy => do
    let copy ← countEntry limits here.relative copy
    checkOwner ownerUid here.relative uid
    copyLink lnOptions here.place here.relative target copy
  | .file uid content, copy => do
    let copy ← countEntry limits here.relative copy
    checkOwner ownerUid here.relative uid
    copyFileEntry limits here.place here.relative content copy
  | .special uid, copy => do
    let copy ← countEntry limits here.relative copy
    checkOwner ownerUid here.relative uid
    .ok { copy with
      report :=
        { copy.report with skippedSpecial := copy.report.skippedSpecial ++ [here.relative] } }
  | .dir uid entries, copy => do
    let copy ← countEntry limits here.relative copy
    checkOwner ownerUid here.relative uid
    if limits.maxDepth < here.depth then
      .error ("refusing " ++ here.relative ++ ": deeper than " ++ toString limits.maxDepth ++
        " levels")
    else
      let dest ← makeDestDir here.place here.relative copy.dest
      copyDirectory here entries { copy with dest }

/-- Copy the entries of a directory one after the other. -/
def copyDirectory (dir : Dir) : Entries → Copy → Except String Copy
  | .nil, copy => .ok copy
  | .cons name node rest, copy =>
    if isExcluded name then copyDirectory dir rest copy
    else do
      let copy ← copyEntry (dir.child name) node copy
      copyDirectory dir rest copy

end

end

/-- Whether `root/relative` is a real directory reached without a symlink: its entries. -/
def requireContainedDir (whole path : String) : Node → List String → Except String Entries
  | .link _ _, _ => .error ("refusing " ++ path ++ ": it is a symlink")
  | .dir _ entries, [] => .ok entries
  | .dir _ entries, segment :: rest =>
    match entries.find segment with
    | none => .error ("release output directory not found: " ++ whole)
    | some node => requireContainedDir whole (path ++ "/" ++ segment) node rest
  | .file _ _, _ | .special _, _ => .error ("release output is not a directory: " ++ whole)

/-- A tree at a root the daemon chose, and a tenant-supplied path below it. -/
structure ContainedPath where
  root : String
  relative : String

/-- The entries of the source directory. -/
def sourceEntries (tree : Node) (source : ContainedPath) : Except String Entries := do
  let segments ← containedSegments source.relative
  requireContainedDir ("/".intercalate (source.root :: segments)) source.root tree segments

/-- Copy the contained directory `source` into the new contained directory `dest`. -/
def copyContainedTree (lnOptions : String → List String → Dest → Except String Dest)
    (tree : Node) (source dest : ContainedPath) (limits : GivenLimits) : Except String Copy := do
  let entries ← sourceEntries tree source
  let _ ← containedSegments dest.relative
  copyDirectory lnOptions limits.filled tree.uid { place := [], relative := "", depth := 0 } entries
    { report := { entries := 0, bytes := 0, droppedLinks := [], skippedSpecial := [] }, dest := [] }

end Turbopaneld.Deploy
