/-
# Release retention

After a deploy the releases of a service are pruned to the newest few and the one `current`
points at.  Listing and link reading each have an unprivileged lane and one through `sudo`,
and a failure of the second is read by its text.  The privileged reading of `current` takes
several failures for "nothing is published", and it is then that the running release can be
swept; nothing else can go wrong.
-/

import Mathlib.Data.Rat.Defs
import Mathlib.Algebra.Order.Field.Rat
import Turbopaneld.JavaScript.Text

namespace Turbopaneld.Deploy.Retention

open JavaScript

/-! ## The host -/

structure RunResult where
  success : Bool
  stdout : String
  stderr : String
deriving DecidableEq, Repr

inductive DenoError where
  | notFound
  | permissionDenied
  | other (message : String)
deriving DecidableEq, Repr

/-- An entry of `Deno.readDir`.  `stat` is `none` when it throws, and its value has no `mtime`
where the platform keeps none. -/
structure DirEntry where
  name : String
  isDirectory : Bool
  stat : Option (Option ℤ)
deriving DecidableEq, Repr

/-- What the host's calls come to during one sweep. -/
structure Host where
  readDir : Except DenoError (List DirEntry)
  readLink : Except DenoError String
  runFn : List String → RunResult

structure ReleasePaths where
  releasesDir : String
  currentLink : String
deriving DecidableEq, Repr

/-- `text || fallback`. -/
def orElse (text fallback : String) : String := if text = "" then fallback else text

/-- `join` of a directory and one plain segment. -/
def join (dir name : String) : String := dir ++ "/" ++ name

/-- `basename`: the last segment, without the slashes behind it. -/
def basename (path : String) : String :=
  match ((split '/' path).filter (· ≠ "")).getLast? with
  | some name => name
  | none => if path = "" then "" else "/"

/-! ## Listing -/

/-- `/^[A-Za-z0-9._-]+$/`, but neither `.` nor `..`. -/
def isSafeReleaseName (name : String) : Bool :=
  name ≠ "." && name ≠ ".." && name ≠ "" &&
    name.toList.all fun c => isLetter c || isDigit c || c == '.' || c == '_' || c == '-'

def DirEntry.mtime (entry : DirEntry) : ℤ := entry.stat.join.getD 0

/-- `b.mtime - a.mtime || b.name.localeCompare(a.name)`. -/
def compareEntries (localeCompare : String → String → ℤ) (a b : DirEntry) : ℤ :=
  if b.mtime - a.mtime ≠ 0 then b.mtime - a.mtime else localeCompare b.name a.name

def isMissingPrivilegedPathError (stderr : String) : Bool :=
  let text := toLowerCase stderr
  includes text "no such file" || includes text "not found"

def listReleaseIdsPrivileged (host : Host) (releasesDir : String) : Except String (List String) :=
  let result := host.runFn ["-n", "ls", "-1t", "--", releasesDir]
  if !result.success then
    if isMissingPrivilegedPathError result.stderr then .ok []
    else .error (orElse result.stderr ("Failed to list " ++ releasesDir))
  else .ok (((split '\n' result.stdout).map trim).filter isSafeReleaseName)

/-- Directory entries under `releases/`, newest first. -/
def listReleaseIds (localeCompare : String → String → ℤ) (host : Host) (releasesDir : String) :
    Except String (List String) :=
  match host.readDir with
  | .error .notFound => .ok []
  | .error .permissionDenied => listReleaseIdsPrivileged host releasesDir
  | .error (.other message) => .error message
  | .ok entries =>
    .ok ((((entries.filter DirEntry.isDirectory).mergeSort
      fun a b => compareEntries localeCompare a b ≤ 0).map DirEntry.name).filter isSafeReleaseName)

/-! ## Reading `current` -/

def isSudoInvocationError (stderr : String) : Bool :=
  let text := toLowerCase stderr
  includes text "password" || includes text "not allowed" ||
    includes text "a terminal is required" || includes text "command not found" ||
    includes text "sudo:"

/-- `name.length > 0 ? name : null`. -/
def namedRelease (target : String) : Option String :=
  if basename target = "" then none else some (basename target)

def readCurrentReleaseIdPrivileged (host : Host) (currentLink : String) :
    Except String (Option String) :=
  let existing := host.runFn ["-n", "test", "-e", currentLink]
  if !existing.success then
    if isSudoInvocationError existing.stderr then
      .error (orElse existing.stderr ("Failed to stat " ++ currentLink))
    else .ok none
  else
    let isLink := host.runFn ["-n", "test", "-L", currentLink]
    if !isLink.success then .ok none
    else
      let result := host.runFn ["-n", "readlink", "--", currentLink]
      if result.success then .ok (namedRelease (trim result.stdout))
      else if isMissingPrivilegedPathError result.stderr ||
          isMissingPrivilegedPathError result.stdout || result.stderr = "" then .ok none
      else .error (orElse result.stderr ("Failed to readlink " ++ currentLink))

/-- The release `current` resolves to, `none` when nothing is published. -/
def readCurrentReleaseId (host : Host) (currentLink : String) : Except String (Option String) :=
  match host.readLink with
  | .ok target => .ok (namedRelease target)
  | .error .notFound => .ok none
  | .error .permissionDenied => readCurrentReleaseIdPrivileged host currentLink
  | .error (.other message) => .error message

/-! ## Pruning -/

/-- A number a caller may pass for `keep`. -/
inductive KeepNumber where
  | nan
  | negativeInfinity
  | positiveInfinity
  | finite (value : ℚ)
deriving DecidableEq, Repr

/-- `releaseIds.slice(0, Math.max(keep, 0))`. -/
def keptNewest (releaseIds : List String) : KeepNumber → List String
  | .nan => []
  | .negativeInfinity => []
  | .positiveInfinity => releaseIds
  | .finite value => releaseIds.take (max value 0).floor.toNat

def releasesToPrune (releaseIds : List String) (currentReleaseId : Option String)
    (keep : KeepNumber) : List String :=
  let kept := keptNewest releaseIds keep ++ currentReleaseId.toList.filter (· ≠ "")
  releaseIds.filter fun id => !kept.contains id

def removePublishedRelease (host : Host) (releaseDir : String) : Except String Unit :=
  let result := host.runFn ["-n", "rm", "-rf", "--", releaseDir]
  if result.success then .ok ()
  else .error (orElse result.stderr ("Failed to remove release " ++ releaseDir))

/-- What a sweep did: the paths it passed to `rm`, the releases it removed, and what it
reported. -/
structure Pruned where
  attempted : List String
  removed : List String
  output : List String
deriving DecidableEq, Repr

def pruneOne (host : Host) (releasesDir : String) (sofar : Pruned) (releaseId : String) : Pruned :=
  let releaseDir := join releasesDir releaseId
  match removePublishedRelease host releaseDir with
  | .ok () =>
    { sofar with attempted := sofar.attempted ++ [releaseDir], removed := sofar.removed ++ [releaseId] }
  | .error message =>
    { sofar with
      attempted := sofar.attempted ++ [releaseDir]
      output := sofar.output ++
        ["release retention could not remove " ++ releaseId ++ ": " ++ message] }

def pruneReleases (localeCompare : String → String → ℤ) (host : Host) (paths : ReleasePaths)
    (keep : KeepNumber) : Except String Pruned := do
  let releaseIds ← listReleaseIds localeCompare host paths.releasesDir
  let currentReleaseId ← readCurrentReleaseId host paths.currentLink
  let doomed := releasesToPrune releaseIds currentReleaseId keep
  return doomed.foldl (pruneOne host paths.releasesDir) ⟨[], [], []⟩

/-- The paths a sweep passes to `rm`, none when it throws before. -/
def attempted (localeCompare : String → String → ℤ) (host : Host) (paths : ReleasePaths)
    (keep : KeepNumber) : List String :=
  match pruneReleases localeCompare host paths keep with
  | .ok pruned => pruned.attempted
  | .error _ => []

/-! ## The running release -/

/-- `current` points at `running`: whichever lane reads the link, reads that. -/
structure PointsAt (host : Host) (paths : ReleasePaths) (running : String) : Prop where
  named : running ≠ ""
  present : host.readLink ≠ .error .notFound
  direct : ∀ target, host.readLink = .ok target → basename target = running
  privileged : (host.runFn ["-n", "readlink", "--", paths.currentLink]).success = true →
    basename (trim (host.runFn ["-n", "readlink", "--", paths.currentLink]).stdout) = running

/-- The failures of the privileged lane that are taken for "nothing is published". -/
def TakenForUnpublished (host : Host) (paths : ReleasePaths) : Prop :=
  host.readLink = .error .permissionDenied ∧
    let existing := host.runFn ["-n", "test", "-e", paths.currentLink]
    let link := host.runFn ["-n", "test", "-L", paths.currentLink]
    let target := host.runFn ["-n", "readlink", "--", paths.currentLink]
    existing.success = false ∧ isSudoInvocationError existing.stderr = false ∨
      existing.success = true ∧ link.success = false ∨
      existing.success = true ∧ link.success = true ∧ target.success = false ∧
        (isMissingPrivilegedPathError target.stderr = true ∨
          isMissingPrivilegedPathError target.stdout = true ∨ target.stderr = "")

/-- The sweep keeps what it must: never the running release nor one of the newest listed, and
nothing but direct children that were listed. -/
structure RetentionHolds (localeCompare : String → String → ℤ) (host : Host)
    (paths : ReleasePaths) (keep : KeepNumber) (running : String) : Prop where
  running : join paths.releasesDir running ∉ attempted localeCompare host paths keep
  newest : ∀ ids, listReleaseIds localeCompare host paths.releasesDir = .ok ids →
    ∀ id ∈ keptNewest ids keep, join paths.releasesDir id ∉ attempted localeCompare host paths keep
  listed : ∀ path ∈ attempted localeCompare host paths keep,
    ∃ ids, listReleaseIds localeCompare host paths.releasesDir = .ok ids ∧
      ∃ id ∈ ids, isSafeReleaseName id = true ∧ path = join paths.releasesDir id

variable {localeCompare : String → String → ℤ} {host : Host} {paths : ReleasePaths}
  {keep : KeepNumber} {running : String} {ids : List String}

theorem join_injective (dir : String) : Function.Injective (join dir) := by
  intro first second h
  have hchars := congrArg String.toList h
  rw [join, join, String.toList_append, String.toList_append, String.toList_append,
    String.toList_append] at hchars
  exact String.toList_inj.mp (List.append_cancel_left hchars)

theorem attempted_pruneOne (host : Host) (releasesDir : String) (sofar : Pruned)
    (releaseId : String) :
    (pruneOne host releasesDir sofar releaseId).attempted =
      sofar.attempted ++ [join releasesDir releaseId] := by
  rw [pruneOne]
  split <;> rfl

theorem attempted_foldl (host : Host) (releasesDir : String) (doomed : List String)
    (sofar : Pruned) :
    (doomed.foldl (pruneOne host releasesDir) sofar).attempted =
      sofar.attempted ++ doomed.map (join releasesDir) := by
  induction doomed generalizing sofar with
  | nil => exact (List.append_nil _).symm
  | cons id doomed ih =>
    rw [List.foldl_cons, ih, attempted_pruneOne, List.append_assoc, List.map_cons]
    rfl

/-- A sweep that gets to prune tries exactly what `releasesToPrune` names. -/
theorem attempted_of_ok {current : Option String}
    (hids : listReleaseIds localeCompare host paths.releasesDir = .ok ids)
    (hcurrent : readCurrentReleaseId host paths.currentLink = .ok current) :
    attempted localeCompare host paths keep =
      (releasesToPrune ids current keep).map (join paths.releasesDir) := by
  rw [attempted, pruneReleases, hids, hcurrent]
  exact attempted_foldl host paths.releasesDir _ ⟨[], [], []⟩

/-- Whatever is tried, listing and reading `current` succeeded before. -/
theorem exists_of_mem_attempted {path : String}
    (h : path ∈ attempted localeCompare host paths keep) :
    ∃ ids current, listReleaseIds localeCompare host paths.releasesDir = .ok ids ∧
      readCurrentReleaseId host paths.currentLink = .ok current ∧
      ∃ id ∈ releasesToPrune ids current keep, join paths.releasesDir id = path := by
  cases hids : listReleaseIds localeCompare host paths.releasesDir with
  | error message =>
    rw [attempted, pruneReleases, hids] at h
    cases h
  | ok ids =>
    cases hcurrent : readCurrentReleaseId host paths.currentLink with
    | error message =>
      rw [attempted, pruneReleases, hids, hcurrent] at h
      cases h
    | ok current =>
      rw [attempted_of_ok hids hcurrent] at h
      obtain ⟨id, hid, hpath⟩ := List.mem_map.mp h
      exact ⟨ids, current, rfl, rfl, id, hid, hpath⟩

theorem mem_releasesToPrune {current : Option String} {id : String} :
    id ∈ releasesToPrune ids current keep ↔
      id ∈ ids ∧ id ∉ keptNewest ids keep ∧ (current = some id → id = "") := by
  rw [releasesToPrune, List.mem_filter, Bool.not_eq_true', List.contains_eq_mem,
    decide_eq_false_iff_not, List.mem_append, not_or, List.mem_filter, Option.mem_toList,
    decide_eq_true_eq]
  refine and_congr_right fun _ => and_congr_right fun _ => ?_
  rw [not_and, not_not]

theorem isSafe_of_mem_listReleaseIds
    (hids : listReleaseIds localeCompare host paths.releasesDir = .ok ids) {id : String}
    (h : id ∈ ids) : isSafeReleaseName id = true := by
  unfold listReleaseIds at hids
  split at hids
  case h_1 =>
    obtain rfl := Except.ok.inj hids
    cases h
  case h_2 =>
    unfold listReleaseIdsPrivileged at hids
    dsimp only at hids
    split_ifs at hids
    · obtain rfl := Except.ok.inj hids
      cases h
    · obtain rfl := Except.ok.inj hids
      exact (List.mem_filter.mp h).2
  case h_3 => cases hids
  case h_4 =>
    obtain rfl := Except.ok.inj hids
    exact (List.mem_filter.mp h).2

theorem namedRelease_eq {target : String} (hrunning : running ≠ "")
    (h : basename target = running) : namedRelease target = some running := by
  rw [namedRelease, h, if_neg hrunning]

/-- Reading `current` finds the running release, throws, or takes a failure for its absence. -/
theorem readCurrentReleaseId_cases (hpoints : PointsAt host paths running) :
    readCurrentReleaseId host paths.currentLink = .ok none ∧ TakenForUnpublished host paths ∨
      (readCurrentReleaseId host paths.currentLink = .ok (some running) ∨
        ∃ message, readCurrentReleaseId host paths.currentLink = .error message) ∧
      ¬TakenForUnpublished host paths := by
  cases hread : host.readLink with
  | ok target =>
    refine .inr ⟨.inl ?_, fun h => ?_⟩
    · rw [readCurrentReleaseId, hread]
      exact congrArg Except.ok (namedRelease_eq hpoints.named (hpoints.direct _ hread))
    · rw [TakenForUnpublished, hread] at h
      cases h.1
  | error error =>
    cases error with
    | notFound => exact absurd hread hpoints.present
    | other message =>
      refine .inr ⟨.inr ⟨message, ?_⟩, fun h => ?_⟩
      · rw [readCurrentReleaseId, hread]
      · rw [TakenForUnpublished, hread] at h
        cases h.1
    | permissionDenied =>
      have hlane : readCurrentReleaseId host paths.currentLink =
          readCurrentReleaseIdPrivileged host paths.currentLink := by
        rw [readCurrentReleaseId, hread]
      rw [hlane, readCurrentReleaseIdPrivileged, TakenForUnpublished, hread]
      dsimp only
      cases hexists : (host.runFn ["-n", "test", "-e", paths.currentLink]).success with
      | false =>
        cases hsudo : isSudoInvocationError
            (host.runFn ["-n", "test", "-e", paths.currentLink]).stderr <;> simp
      | true =>
        cases hlink : (host.runFn ["-n", "test", "-L", paths.currentLink]).success with
        | false => simp
        | true =>
          cases htarget : (host.runFn ["-n", "readlink", "--", paths.currentLink]).success with
          | true =>
            have hname := namedRelease_eq hpoints.named (hpoints.privileged htarget)
            simp [hname]
          | false =>
            by_cases hmissing : isMissingPrivilegedPathError
                (host.runFn ["-n", "readlink", "--", paths.currentLink]).stderr = true ∨
              isMissingPrivilegedPathError
                (host.runFn ["-n", "readlink", "--", paths.currentLink]).stdout = true ∨
              (host.runFn ["-n", "readlink", "--", paths.currentLink]).stderr = ""
            · simp [hmissing, or_assoc]
            · simp [hmissing, or_assoc]

/-- The running release is tried just when its reading was taken for unpublished while it is
listed and not among the newest. -/
theorem mem_attempted_iff (hpoints : PointsAt host paths running) :
    join paths.releasesDir running ∈ attempted localeCompare host paths keep ↔
      TakenForUnpublished host paths ∧
        ∃ ids, listReleaseIds localeCompare host paths.releasesDir = .ok ids ∧
          running ∈ ids ∧ running ∉ keptNewest ids keep := by
  constructor
  · intro h
    obtain ⟨ids, current, hids, hcurrent, id, hid, hpath⟩ := exists_of_mem_attempted h
    obtain rfl := join_injective _ hpath
    obtain ⟨hmem, hnewest, hkept⟩ := mem_releasesToPrune.mp hid
    rcases readCurrentReleaseId_cases hpoints with ⟨-, htaken⟩ | ⟨hfound | ⟨message, herror⟩, -⟩
    · exact ⟨htaken, ids, hids, hmem, hnewest⟩
    · rw [hfound] at hcurrent
      exact absurd (hkept (Except.ok.inj hcurrent).symm) hpoints.named
    · rw [herror] at hcurrent
      cases hcurrent
  · rintro ⟨htaken, ids, hids, hmem, hnewest⟩
    rcases readCurrentReleaseId_cases hpoints with ⟨hnone, -⟩ | ⟨-, hnot⟩
    · rw [attempted_of_ok hids hnone]
      refine List.mem_map_of_mem (mem_releasesToPrune.mpr ⟨hmem, hnewest, ?_⟩)
      rintro ⟨⟩
    · exact absurd htaken hnot

/-- The newest listed are kept whatever the commands come to. -/
theorem newest_notMem_attempted
    (hids : listReleaseIds localeCompare host paths.releasesDir = .ok ids) {id : String}
    (h : id ∈ keptNewest ids keep) :
    join paths.releasesDir id ∉ attempted localeCompare host paths keep := by
  intro hmem
  obtain ⟨others, current, hothers, -, other, hother, hpath⟩ := exists_of_mem_attempted hmem
  obtain rfl := join_injective _ hpath
  obtain rfl := Except.ok.inj (hids.symm.trans hothers)
  exact (mem_releasesToPrune.mp hother).2.1 h

/-- Every path tried is that of a listed, safely named release. -/
theorem listed_of_mem_attempted {path : String}
    (h : path ∈ attempted localeCompare host paths keep) :
    ∃ ids, listReleaseIds localeCompare host paths.releasesDir = .ok ids ∧
      ∃ id ∈ ids, isSafeReleaseName id = true ∧ path = join paths.releasesDir id := by
  obtain ⟨ids, current, hids, -, id, hid, hpath⟩ := exists_of_mem_attempted h
  have hmem := (mem_releasesToPrune.mp hid).1
  exact ⟨ids, hids, id, hmem, isSafe_of_mem_listReleaseIds hids hmem, hpath.symm⟩

/-- For every listing, every `keep` and every pattern of failing commands: retention holds if
and only if the running release is not both taken for unpublished and listed behind the
newest. -/
theorem retentionHolds_iff (localeCompare : String → String → ℤ) (host : Host)
    (paths : ReleasePaths) (keep : KeepNumber) (running : String)
    (hpoints : PointsAt host paths running) :
    RetentionHolds localeCompare host paths keep running ↔
      ¬(TakenForUnpublished host paths ∧
        ∃ ids, listReleaseIds localeCompare host paths.releasesDir = .ok ids ∧
          running ∈ ids ∧ running ∉ keptNewest ids keep) := by
  rw [← mem_attempted_iff hpoints]
  constructor
  · exact RetentionHolds.running
  · intro h
    exact ⟨h, fun _ hids _ => newest_notMem_attempted hids, fun _ => listed_of_mem_attempted⟩

/-! ## A rolled-back release swept -/

/-- Two releases, the older of which is running after a rollback; `sudo` stops granting `test`
between the two questions. -/
def refusingHost : Host where
  readDir := .error .permissionDenied
  readLink := .error .permissionDenied
  runFn args :=
    if args = ["-n", "ls", "-1t", "--", "/srv/releases"] then ⟨true, "v2\nv1\n", ""⟩
    else if args = ["-n", "test", "-e", "/srv/current"] then ⟨true, "", ""⟩
    else if args = ["-n", "readlink", "--", "/srv/current"] then ⟨true, "releases/v1\n", ""⟩
    else if args = ["-n", "test", "-L", "/srv/current"] then
      ⟨false, "", "sudo: a password is required"⟩
    else ⟨true, "", ""⟩

def servicePaths : ReleasePaths where
  releasesDir := "/srv/releases"
  currentLink := "/srv/current"

theorem pointsAt_refusingHost : PointsAt refusingHost servicePaths "v1" where
  named := by decide
  present := by decide
  direct := by
    rintro _ ⟨⟩
  privileged := fun _ => by decide

theorem not_retentionHolds_refusingHost :
    PointsAt refusingHost servicePaths "v1" ∧
      ¬RetentionHolds (fun _ _ => 0) refusingHost servicePaths (.finite 1) "v1" := by
  refine ⟨pointsAt_refusingHost, fun h => h.running ?_⟩
  refine (mem_attempted_iff pointsAt_refusingHost).mpr ⟨⟨rfl, .inr (.inl ⟨rfl, rfl⟩)⟩, ["v2", "v1"],
    ?_, ?_, ?_⟩
  · decide
  · decide
  · decide

/-- Where reading `current` goes through, the running release stays. -/
theorem retentionHolds_iff_readable :
    RetentionHolds (fun _ _ => 0)
      { refusingHost with readLink := .ok "releases/v1" } servicePaths (.finite 1) "v1" := by
  refine (retentionHolds_iff _ _ servicePaths _ _ ⟨by decide, by decide, ?_, ?_⟩).mpr ?_
  · rintro _ ⟨⟩
    decide
  · exact pointsAt_refusingHost.privileged
  · rintro ⟨⟨h, -⟩, -⟩
    cases h

end Turbopaneld.Deploy.Retention
