/-
# Scheduled jobs as systemd units

A job of an environment is one service unit and one timer unit.  The names of both join the
environment, the compose service and the job with hyphens, which all three may contain.  What
an apply installs and what its sweep removes is decided by these names alone.
-/

import Turbopaneld.JavaScript.Pattern
import Turbopaneld.Programs.Fallible

namespace Turbopaneld.Deploy.Cron

open JavaScript

/-! ## Accepted names -/

/-- `ConfigValueError`. -/
structure ConfigValueError where
  field : String
  reason : String
deriving DecidableEq

/-- `MAX_CONFIG_TOKEN_LENGTH`. -/
def maxConfigTokenLength : ℕ := 128

/-- `CONFIG_TOKEN_RE`. -/
def isConfigToken (value : String) : Bool :=
  value.toList.head?.any (fun c => isLetter c || isDigit c) &&
    value.toList.tail.all fun c => isWord c || c == '.' || c == '-'

def safeConfigToken (field value : String) : Except ConfigValueError String :=
  if maxConfigTokenLength < lengthInUnits value || !isConfigToken value then
    .error ⟨field, "must be a letter or digit followed by letters, digits, '_', '.' or '-'"⟩
  else .ok value

/-- `CRON_JOB_NAME_RE`, the deploy contract's rule for a job's name. -/
def cronJobNameRe : Pattern :=
  .seq (.one fun c => isLower c || isDigit c)
    (.upTo 31 (.one fun c => isLower c || isDigit c || c == '-'))

/-- `SAFE_PATH_ID_RE`, the deploy's rule for an environment's id. -/
def isSafePathId (value : String) : Bool :=
  value != "" && value.toList.all fun c => isWord c || c == '-'

/-! ## The renderers -/

/-- The directories of an account, as the layout places them. -/
structure Layout where
  principalUserHome : String → String
  principalTmpDir : String → String

/-- `EnvironmentDeployCronJob`. -/
structure CronJob where
  name : String
  schedule : String
  command : List String
  timeoutSeconds : Option ℕ := none
deriving DecidableEq

/-- `CronUnitIdentity`. -/
structure CronUnitIdentity where
  environmentId : String
  composeServiceName : String
  jobName : String
deriving DecidableEq

/-- `SYSTEMD_UNIT_DIR`. -/
def systemdUnitDir : String := "/etc/systemd/system"

/-- `CRON_UNIT_PREFIX`. -/
def cronUnitPrefix : String := "turbopanel-cron-"

/-- `CRON_RANDOMIZED_DELAY_SEC`. -/
def cronRandomizedDelaySec : ℕ := 120

/-- `DEFAULT_CRON_TIMEOUT_SECONDS`. -/
def defaultCronTimeoutSeconds : ℕ := 900

def cronServiceToken (composeServiceName : String) : Except ConfigValueError String :=
  safeConfigToken "cron composeServiceName" composeServiceName

def cronUnitName (identity : CronUnitIdentity) : Except ConfigValueError String := do
  let service ← cronServiceToken identity.composeServiceName
  return cronUnitPrefix ++ identity.environmentId ++ "-" ++ service ++ "-" ++ identity.jobName

def cronServicePath (identity : CronUnitIdentity) (unitDir : String := systemdUnitDir) :
    Except ConfigValueError String := do
  return unitDir ++ "/" ++ (← cronUnitName identity) ++ ".service"

def cronTimerPath (identity : CronUnitIdentity) (unitDir : String := systemdUnitDir) :
    Except ConfigValueError String := do
  return unitDir ++ "/" ++ (← cronUnitName identity) ++ ".timer"

/-- What a character of an argument is written as between double quotes. -/
def quoteExecChar (c : Char) : List Char :=
  if c = '"' ∨ c = '\\' then ['\\', c]
  else if c = '$' then ['$', '$']
  else if c = '%' then ['%', '%']
  else [c]

/-- `quoteExecArg`: the three replacements do not meet, so each character is written by
itself. -/
def quoteExecArg (arg : String) : String :=
  "\"" ++ String.ofList (arg.toList.flatMap quoteExecChar) ++ "\""

/-- `principalUnixGroupName`. -/
def principalUnixGroupName (username : String) : String := username

/-- `principalSliceName`. -/
def principalSliceName (username : String) : String :=
  "turbopanel-" ++ String.ofList (username.toList.map fun c => if c = '-' then '.' else c) ++ ".slice"

/-- `principalUnitEnvironment`. -/
def principalUnitEnvironment (layout : Layout) (username : String) : List String :=
  ["Environment=HOME=" ++ layout.principalUserHome username,
    "Environment=TMPDIR=" ++ layout.principalTmpDir username]

/-- `principalReadWritePaths`. -/
def principalReadWritePaths (layout : Layout) (username : String) (siteDirs : List String) :
    String :=
  "ReadWritePaths=" ++ " ".intercalate
    (siteDirs ++ [layout.principalUserHome username, layout.principalTmpDir username])

/-- `CronUnitOpts`. -/
structure CronUnitOpts where
  layout : Layout
  environmentId : String
  composeServiceName : String
  job : CronJob
  username : String
  workingDirectory : String
  siteWritableDirs : List String := []

def CronUnitOpts.identity (opts : CronUnitOpts) : CronUnitIdentity :=
  ⟨opts.environmentId, opts.composeServiceName, opts.job.name⟩

/-- The `ExecStart` line of `cronServiceContent`. -/
def execStartLine (command : List String) : String :=
  "ExecStart=" ++ " ".intercalate (command.map quoteExecArg)

/-- The lines of `cronServiceContent`. -/
def cronServiceLines (opts : CronUnitOpts) : Except ConfigValueError (List String) := do
  let service ← cronServiceToken opts.composeServiceName
  let unit ← cronUnitName opts.identity
  return ["# Managed by TurboPanel — regenerated on deploy; edits are overwritten.",
    "[Unit]",
    "Description=TurboPanel job " ++ opts.job.name ++ " (" ++ service ++ ")",
    "X-TurboPanel-Environment=" ++ opts.environmentId,
    "",
    "[Service]",
    "Type=oneshot",
    "User=" ++ opts.username,
    "Group=" ++ principalUnixGroupName opts.username,
    "Slice=" ++ principalSliceName opts.username,
    "WorkingDirectory=" ++ opts.workingDirectory] ++
    principalUnitEnvironment opts.layout opts.username ++
    [execStartLine opts.job.command,
    "StandardOutput=journal",
    "StandardError=journal",
    "SyslogIdentifier=" ++ unit,
    "TimeoutStartSec=" ++ toString (opts.job.timeoutSeconds.getD defaultCronTimeoutSeconds),
    "NoNewPrivileges=yes",
    "PrivateTmp=yes",
    "ProtectSystem=strict",
    "ProtectKernelTunables=yes",
    "ProtectKernelModules=yes",
    "ProtectControlGroups=yes",
    "RestrictSUIDSGID=yes",
    "RestrictRealtime=yes",
    "LockPersonality=yes",
    "CapabilityBoundingSet=",
    "AmbientCapabilities=",
    principalReadWritePaths opts.layout opts.username opts.siteWritableDirs,
    ""]

def cronServiceContent (opts : CronUnitOpts) : Except ConfigValueError String := do
  return "\n".intercalate (← cronServiceLines opts)

def cronTimerContent (opts : CronUnitOpts) : Except ConfigValueError String := do
  let unit ← cronUnitName opts.identity
  let service ← cronServiceToken opts.composeServiceName
  return "\n".intercalate
    ["# Managed by TurboPanel — regenerated on deploy; edits are overwritten.",
    "[Unit]",
    "Description=TurboPanel schedule for " ++ opts.job.name ++ " (" ++ service ++ ")",
    "X-TurboPanel-Environment=" ++ opts.environmentId,
    "",
    "[Timer]",
    "Unit=" ++ unit ++ ".service",
    "OnCalendar=" ++ opts.job.schedule,
    "RandomizedDelaySec=" ++ toString cronRandomizedDelaySec,
    "Persistent=false",
    "AccuracySec=1s",
    "",
    "[Install]",
    "WantedBy=timers.target",
    ""]

/-! ## Unit sets -/

/-- The files of the host, by path. -/
abbrev Files := List (String × String)

/-- `UnitSetFile`. -/
structure UnitSetFile where
  path : String
  contents : String

/-- `UnitSetMember`. -/
structure UnitSetMember where
  unit : String
  files : List UnitSetFile

/-- `TIMER_STAMP_DIR`. -/
def timerStampDir : String := "/var/lib/systemd/timers"

/-- `installUnit` on a host whose commands succeed: whether the bytes moved, and the files. -/
def installUnit (host : Files) (file : UnitSetFile) : Bool × Files :=
  if host.lookup file.path = some file.contents then (false, host)
  else (true, (file.path, file.contents) :: host.filter (·.1 ≠ file.path))

/-- Install every file of a member. -/
def installMember (host : Files) (member : UnitSetMember) : Bool × Files :=
  member.files.foldl (fun state file =>
    let (moved, host) := installUnit state.2 file
    (state.1 || moved, host)) (false, host)

/-- The names `ls -1` prints for a directory. -/
def listing (unitDir : String) (host : Files) : List String :=
  (host.filterMap fun (path, _) => afterFront (unitDir ++ "/") path).filter fun name =>
    !name.toList.contains '/'

/-- `installedTimerUnits`. -/
def installedTimerUnits (unitDir front : String) (host : Files) : List String :=
  (((listing unitDir host).map trim).filter fun name =>
    startsWith name front && endsWith name ".timer").map fun name =>
      takeChars name (name.toList.length - ".timer".length)

/-- `removeUnit`. -/
def removeUnit (unitDir : String) (host : Files) (unit : String) : Files :=
  let paths := [unitDir ++ "/" ++ unit ++ ".timer", unitDir ++ "/" ++ unit ++ ".service",
    timerStampDir ++ "/stamp-" ++ unit ++ ".timer"]
  host.filter fun file => file.1 ∉ paths

/-- `UnitSetResult`. -/
structure UnitSetResult where
  changed : List String
  removed : List String

/-- `desired.set(unit, { changed })`. -/
def setUnit (desired : List (String × Bool)) (unit : String) (changed : Bool) :
    List (String × Bool) :=
  if desired.any (·.1 = unit) then
    desired.map fun entry => if entry.1 = unit then (unit, changed) else entry
  else desired ++ [(unit, changed)]

/-- The first phase of `applyUnitSet`: every file is installed and every unit noted. -/
def installMembers (host : Files) (members : List UnitSetMember) : List (String × Bool) × Files :=
  members.foldl (fun state member =>
    let (changed, host) := installMember state.2 member
    (setUnit state.1 member.unit changed, host)) ([], host)

/-- `applyUnitSet` on a host whose commands succeed; the timers' states are left out. -/
def applyUnitSet (members : List UnitSetMember) (front unitDir : String) (host : Files) :
    UnitSetResult × Files :=
  let (desired, host) := installMembers host members
  let stale := (installedTimerUnits unitDir front host).filter fun unit =>
    !desired.any (·.1 = unit)
  (⟨(desired.filter (·.2)).map (·.1), stale⟩, stale.foldl (removeUnit unitDir) host)

/-! ## Applying an environment's jobs -/

/-- `CronApplySpec`. -/
structure CronApplySpec where
  composeServiceName : String
  username : String
  workingDirectory : String
  siteWritableDirs : List String := []
  jobs : List CronJob

/-- The prefix of `cronFamily`. -/
def cronFamilyPrefix (environmentId : String) : String := cronUnitPrefix ++ environmentId ++ "-"

/-- What a job of a service is rendered from. -/
def CronApplySpec.opts (layout : Layout) (environmentId : String) (spec : CronApplySpec)
    (job : CronJob) : CronUnitOpts :=
  ⟨layout, environmentId, spec.composeServiceName, job, spec.username, spec.workingDirectory,
    spec.siteWritableDirs⟩

/-- The jobs `forEachSpecJob` goes through. -/
def specJobs (layout : Layout) (environmentId : String) (specs : List CronApplySpec) :
    List CronUnitOpts :=
  specs.flatMap fun spec => spec.jobs.map (spec.opts layout environmentId)

/-- The member of one job. -/
def cronMember (opts : CronUnitOpts) : Except ConfigValueError UnitSetMember := do
  return ⟨← cronUnitName opts.identity,
    [⟨← cronServicePath opts.identity, ← cronServiceContent opts⟩,
      ⟨← cronTimerPath opts.identity, ← cronTimerContent opts⟩]⟩

def cronMembers (layout : Layout) (environmentId : String) (specs : List CronApplySpec) :
    Except ConfigValueError (List UnitSetMember) :=
  (specJobs layout environmentId specs).mapM cronMember

def applyCronJobs (layout : Layout) (environmentId : String) (specs : List CronApplySpec)
    (host : Files) : Except ConfigValueError (UnitSetResult × Files) := do
  return applyUnitSet (← cronMembers layout environmentId specs) (cronFamilyPrefix environmentId)
    systemdUnitDir host

/-! ## Names joined by a separator -/

section

variable {α : Type*} {separator : α} {a b c d : List α}

/-- Two joined pairs are one text only where they are one pair, or where the separator of one
stands in a part of the other. -/
theorem join_eq_join_iff : a ++ separator :: b = c ++ separator :: d ↔
    (a = c ∧ b = d) ∨ (∃ x, c = a ++ separator :: x ∧ b = x ++ separator :: d) ∨
      ∃ x, a = c ++ separator :: x ∧ d = x ++ separator :: b := by
  rw [List.append_eq_append_iff]
  constructor
  · rintro (⟨middle, rfl, hrest⟩ | ⟨middle, rfl, hrest⟩)
    · cases middle with
      | nil => exact .inl ⟨(List.append_nil a).symm, (List.cons.inj hrest).2⟩
      | cons first x =>
        obtain ⟨rfl, rfl⟩ := List.cons.inj hrest
        exact .inr (.inl ⟨x, rfl, rfl⟩)
    · cases middle with
      | nil => exact .inl ⟨List.append_nil c, (List.cons.inj hrest).2.symm⟩
      | cons first x =>
        obtain ⟨rfl, rfl⟩ := List.cons.inj hrest
        exact .inr (.inr ⟨x, rfl, rfl⟩)
  · rintro (⟨rfl, rfl⟩ | ⟨x, rfl, rfl⟩ | ⟨x, rfl, rfl⟩)
    · exact .inl ⟨[], (List.append_nil a).symm, rfl⟩
    · exact .inl ⟨separator :: x, rfl, rfl⟩
    · exact .inr ⟨separator :: x, rfl, rfl⟩

/-- A part with its separator stands at the front of a joined pair. -/
theorem concat_prefix_join_iff : a ++ [separator] <+: c ++ separator :: d ↔
    a = c ∨ (∃ x, c = a ++ separator :: x) ∨
      ∃ x, a = c ++ separator :: x ∧ x ++ [separator] <+: d := by
  constructor
  · rintro ⟨rest, hrest⟩
    rw [List.append_assoc, List.singleton_append, join_eq_join_iff] at hrest
    rcases hrest with ⟨rfl, -⟩ | ⟨x, rfl, -⟩ | ⟨x, rfl, rfl⟩
    · exact .inl rfl
    · exact .inr (.inl ⟨x, rfl⟩)
    · exact .inr (.inr ⟨x, rfl, rest, by simp⟩)
  · rintro (rfl | ⟨x, rfl⟩ | ⟨x, rfl, rest, rfl⟩)
    · exact ⟨d, by simp⟩
    · exact ⟨x ++ separator :: d, by simp⟩
    · exact ⟨rest, by simp⟩

end

/-! ## The host's files -/

theorem lookup_filter_key (keep : String → Bool) (host : Files) (path : String) :
    (host.filter fun file => keep file.1).lookup path =
      if keep path then host.lookup path else none := by
  induction host with
  | nil => simp
  | cons file rest ih =>
    obtain ⟨name, contents⟩ := file
    rw [List.filter_cons]
    by_cases hname : path = name
    · subst hname
      cases hkeep : keep path with
      | true => simp
      | false => simpa [hkeep] using ih
    · have hbeq : (path == name) = false := beq_false_of_ne hname
      cases keep name with
      | true => simpa [List.lookup_cons, hbeq] using ih
      | false => simpa [List.lookup_cons, hbeq] using ih

/-- Installing a file leaves its bytes at its path and the other files alone. -/
theorem lookup_installUnit (host : Files) (file : UnitSetFile) (path : String) :
    (installUnit host file).2.lookup path =
      if path = file.path then some file.contents else host.lookup path := by
  rw [installUnit]
  by_cases hpath : path = file.path
  · subst hpath
    rw [if_pos rfl]
    split
    case isTrue hsame => exact hsame
    case isFalse => simp
  · rw [if_neg hpath]
    split
    case isTrue => rfl
    case isFalse =>
      have hbeq : (path == file.path) = false := beq_false_of_ne hpath
      have hkept := lookup_filter_key (fun name => decide (name ≠ file.path)) host path
      rw [List.lookup_cons, hbeq]
      simpa [hpath] using hkept

/-- Write files, in order. -/
def writeFiles (host : Files) (files : List UnitSetFile) : Files :=
  files.foldl (fun host file => (installUnit host file).2) host

theorem writeFiles_append (host : Files) (files others : List UnitSetFile) :
    writeFiles host (files ++ others) = writeFiles (writeFiles host files) others :=
  List.foldl_append

/-- A path that was written holds the bytes of one of the files written to it. -/
theorem lookup_writeFiles (files : List UnitSetFile) {path : String}
    (h : ∃ file ∈ files, file.path = path) (host : Files) :
    ∃ file ∈ files, file.path = path ∧
      (writeFiles host files).lookup path = some file.contents := by
  induction files using List.reverseRecOn generalizing host with
  | nil => simp at h
  | append_singleton front last ih =>
    rw [writeFiles_append]
    change ∃ file ∈ front ++ [last], file.path = path ∧
      (installUnit (writeFiles host front) last).2.lookup path = some file.contents
    rw [lookup_installUnit]
    by_cases hlast : path = last.path
    · exact ⟨last, by simp, hlast.symm, if_pos hlast⟩
    · obtain ⟨file, hfile, hpath⟩ := h
      have hfront : file ∈ front := by
        rcases List.mem_append.mp hfile with hmem | hmem
        · exact hmem
        · exact absurd (List.mem_singleton.mp hmem ▸ hpath.symm) hlast
      obtain ⟨found, hfound, hfoundPath, hlookup⟩ := ih ⟨file, hfront, hpath⟩ host
      exact ⟨found, List.mem_append_left _ hfound, hfoundPath, (if_neg hlast).trans hlookup⟩

theorem installMember_snd (host : Files) (member : UnitSetMember) :
    (installMember host member).2 = writeFiles host member.files := by
  rw [installMember, writeFiles]
  generalize false = changed
  induction member.files generalizing changed host with
  | nil => rfl
  | cons file rest ih => exact ih _ _

theorem any_setUnit (desired : List (String × Bool)) (unit : String) (changed : Bool)
    (name : String) : (setUnit desired unit changed).any (·.1 = name) =
      (desired.any (·.1 = name) || decide (unit = name)) := by
  rw [setUnit]
  split
  case isTrue hany =>
    have hkeys : (desired.map fun entry => if entry.1 = unit then (unit, changed) else entry).map
        (·.1) = desired.map (·.1) := by
      rw [List.map_map]
      apply List.map_congr_left
      intro entry _
      by_cases hentry : entry.1 = unit
      · simp [hentry]
      · simp [hentry]
    have hsame := congrArg (List.any · fun key => decide (key = name)) hkeys
    simp only [List.any_map] at hsame
    rw [List.any_map]
    refine hsame.trans ?_
    by_cases hname : unit = name
    · subst hname
      simpa using hany
    · simp [hname, Function.comp_def]
  case isFalse => simp

/-- The first phase writes the files of every member and notes every unit. -/
theorem installMembers_spec (host : Files) (members : List UnitSetMember) :
    (installMembers host members).2 = writeFiles host (members.flatMap (·.files)) ∧
      ∀ member ∈ members, (installMembers host members).1.any (·.1 = member.unit) = true := by
  induction members using List.reverseRecOn with
  | nil => exact ⟨rfl, by simp⟩
  | append_singleton front last ih =>
    have hstep : installMembers host (front ++ [last]) =
        (setUnit (installMembers host front).1 last.unit
          (installMember (installMembers host front).2 last).1,
          (installMember (installMembers host front).2 last).2) := by
      rw [installMembers, List.foldl_append]
      rfl
    rw [hstep]
    constructor
    · rw [installMember_snd, ih.1, List.flatMap_append, writeFiles_append, List.flatMap_singleton]
    · intro member hmember
      rw [any_setUnit]
      rcases List.mem_append.mp hmember with hfront | hlast
      · rw [ih.2 member hfront, Bool.true_or]
      · rw [List.mem_singleton.mp hlast, decide_eq_true rfl, Bool.or_true]

/-- A sweep takes away only the three files of each unit it names. -/
theorem lookup_foldl_removeUnit {unitDir path : String} {units : List String}
    (h : ∀ unit ∈ units, path ≠ unitDir ++ "/" ++ unit ++ ".timer" ∧
      path ≠ unitDir ++ "/" ++ unit ++ ".service" ∧
      path ≠ timerStampDir ++ "/stamp-" ++ unit ++ ".timer") (host : Files) :
    (units.foldl (removeUnit unitDir) host).lookup path = host.lookup path := by
  induction units generalizing host with
  | nil => rfl
  | cons unit rest ih =>
    obtain ⟨⟨htimer, hservice, hstamp⟩, hrest⟩ := List.forall_mem_cons.mp h
    rw [List.foldl_cons, ih hrest, removeUnit]
    have hkept := lookup_filter_key (fun name => decide (name ∉
      [unitDir ++ "/" ++ unit ++ ".timer", unitDir ++ "/" ++ unit ++ ".service",
        timerStampDir ++ "/stamp-" ++ unit ++ ".timer"])) host path
    refine hkept.trans (if_pos ?_)
    simp [htimer, hservice, hstamp]

/-! ## The names of jobs -/

/-- What the deploy contract and `safeConfigToken` accept. -/
structure CronUnitIdentity.Accepted (identity : CronUnitIdentity) : Prop where
  environment : isSafePathId identity.environmentId = true
  service : ∃ token, safeConfigToken "cron composeServiceName" identity.composeServiceName = .ok token
  job : cronJobNameRe.test identity.jobName = true

/-- The characters of a unit's name, behind its prefix. -/
def CronUnitIdentity.chars (identity : CronUnitIdentity) : List Char :=
  identity.environmentId.toList ++ '-' :: (identity.composeServiceName.toList ++
    '-' :: identity.jobName.toList)

variable {identity other : CronUnitIdentity}

theorem eq_of_safeConfigToken {field value token : String}
    (h : safeConfigToken field value = .ok token) : token = value ∧ isConfigToken value = true := by
  rw [safeConfigToken] at h
  split at h
  case isTrue => cases h
  case isFalse hok =>
    simp only [Bool.or_eq_true, Bool.not_eq_true', not_or, Bool.not_eq_false] at hok
    exact ⟨(Except.ok.inj h).symm, hok.2⟩

/-- The characters unit names are written with. -/
def isUnitChar (c : Char) : Bool := isWord c || c == '.' || c == '-'

theorem isSpace_of_isUnitChar {c : Char} (h : isUnitChar c = true) : isSpace c = false := by
  have hcode : c.toNat < 128 := by
    simp only [isUnitChar, isWord, isLetter, isLower, isDigit, Bool.or_eq_true, Bool.and_eq_true,
      decide_eq_true_eq, beq_iff_eq] at h
    rcases h with ((((⟨-, hle⟩ | ⟨-, hle⟩) | ⟨-, hle⟩) | rfl) | rfl) | rfl
    · exact lt_of_le_of_lt (show c.toNat ≤ _ from hle) (by decide)
    · exact lt_of_le_of_lt (show c.toNat ≤ _ from hle) (by decide)
    · exact lt_of_le_of_lt (show c.toNat ≤ _ from hle) (by decide)
    all_goals decide
  have hall : ∀ n < 128, isUnitChar (Char.ofNat n) = true → isSpace (Char.ofNat n) = false := by
    decide
  have hchar := hall c.toNat hcode
  rw [Char.ofNat_toNat] at hchar
  exact hchar h

theorem CronUnitIdentity.Accepted.isUnitChar (h : identity.Accepted) :
    ∀ c ∈ identity.chars, isUnitChar c = true := by
  have hword : ∀ {c : Char}, isWord c = true → Cron.isUnitChar c = true := by
    intro c hc
    rw [Cron.isUnitChar, hc]
    rfl
  rw [CronUnitIdentity.chars, List.forall_mem_append, List.forall_mem_cons, List.forall_mem_append,
    List.forall_mem_cons]
  refine ⟨?_, rfl, ?_, rfl, ?_⟩
  · have henvironment := h.environment
    rw [isSafePathId, Bool.and_eq_true] at henvironment
    intro c hc
    have hclass := List.all_eq_true.mp henvironment.2 c hc
    rw [Bool.or_eq_true] at hclass
    rcases hclass with hclass | hclass
    · exact hword hclass
    · rw [Cron.isUnitChar, hclass, Bool.or_true]
  · obtain ⟨token, htoken⟩ := h.service
    have hservice := (eq_of_safeConfigToken htoken).2
    rw [isConfigToken] at hservice
    cases hchars : identity.composeServiceName.toList with
    | nil => exact fun _ hc => absurd hc List.not_mem_nil
    | cons first rest =>
      rw [hchars, List.head?_cons, Option.any_some, List.tail_cons, Bool.and_eq_true] at hservice
      refine List.forall_mem_cons.mpr ⟨hword ?_, List.all_eq_true.mp hservice.2⟩
      rw [isWord, hservice.1, Bool.true_or]
  · obtain ⟨first, rest, hchars, hfirst, -, hrest⟩ := test_seq_upTo.mp h.job
    rw [hchars, List.forall_mem_cons]
    constructor
    · refine hword ?_
      rw [Bool.or_eq_true] at hfirst
      rcases hfirst with hlower | hdigit
      · rw [isWord, isLetter, hlower, Bool.true_or, Bool.true_or, Bool.true_or]
      · rw [isWord, hdigit, Bool.or_true, Bool.true_or]
    · intro c hc
      have hclass := hrest c hc
      rw [Bool.or_eq_true, Bool.or_eq_true] at hclass
      rcases hclass with (hlower | hdigit) | hhyphen
      · refine hword ?_
        rw [isWord, isLetter, hlower, Bool.true_or, Bool.true_or, Bool.true_or]
      · refine hword ?_
        rw [isWord, hdigit, Bool.or_true, Bool.true_or]
      · rw [Cron.isUnitChar, hhyphen, Bool.or_true]

/-- The name of an accepted identity's unit. -/
theorem CronUnitIdentity.Accepted.cronUnitName (h : identity.Accepted) :
    cronUnitName identity = .ok (cronUnitPrefix ++ String.ofList identity.chars) := by
  obtain ⟨token, htoken⟩ := h.service
  rw [Cron.cronUnitName, cronServiceToken, htoken, (eq_of_safeConfigToken htoken).1]
  refine congrArg Except.ok ?_
  rw [← String.toList_inj]
  simp [CronUnitIdentity.chars]

def CronUnitIdentity.unit (identity : CronUnitIdentity) : String :=
  cronUnitPrefix ++ String.ofList identity.chars

/-- The service of `other` continues that of `identity` behind a hyphen, and the job of
`identity` begins with that rest. -/
def HyphenMoves (identity other : CronUnitIdentity) : Prop :=
  ∃ rest, other.composeServiceName = identity.composeServiceName ++ "-" ++ rest ∧
    identity.jobName = rest ++ "-" ++ other.jobName

theorem toList_hyphen (front back : String) :
    (front ++ "-" ++ back).toList = front.toList ++ '-' :: back.toList := by
  rw [String.toList_append, String.toList_append, List.append_assoc]
  rfl

theorem hyphenMoves_iff : HyphenMoves identity other ↔
    ∃ x, other.composeServiceName.toList = identity.composeServiceName.toList ++ '-' :: x ∧
      identity.jobName.toList = x ++ '-' :: other.jobName.toList := by
  constructor
  · rintro ⟨rest, hservice, hjob⟩
    exact ⟨rest.toList, by rw [hservice, toList_hyphen], by rw [hjob, toList_hyphen]⟩
  · rintro ⟨x, hservice, hjob⟩
    refine ⟨String.ofList x, ?_, ?_⟩
    · rw [← String.toList_inj, hservice, toList_hyphen, String.toList_ofList]
    · rw [← String.toList_inj, hjob, toList_hyphen, String.toList_ofList]

/-- Two units of one environment share their name only where they are one, or where a hyphen
moves between the service and the job. -/
theorem unit_eq_iff (henvironment : identity.environmentId = other.environmentId) :
    identity.unit = other.unit ↔
      identity = other ∨ HyphenMoves identity other ∨ HyphenMoves other identity := by
  rw [CronUnitIdentity.unit, CronUnitIdentity.unit, ← String.toList_inj, String.toList_append,
    String.toList_append, String.toList_ofList, String.toList_ofList, List.append_cancel_left_eq,
    CronUnitIdentity.chars, CronUnitIdentity.chars, henvironment, List.append_cancel_left_eq,
    List.cons_inj_right, join_eq_join_iff, hyphenMoves_iff, hyphenMoves_iff, String.toList_inj,
    String.toList_inj]
  refine or_congr_left ⟨?_, ?_⟩
  · rintro ⟨hservice, hjob⟩
    cases identity
    cases other
    cases henvironment
    cases hservice
    cases hjob
    rfl
  · rintro rfl
    exact ⟨rfl, rfl⟩

theorem ne_of_hyphenMoves (h : HyphenMoves identity other) : identity ≠ other := by
  rintro rfl
  obtain ⟨x, hservice, -⟩ := hyphenMoves_iff.mp h
  have hlength := congrArg List.length hservice
  rw [List.length_append, List.length_cons] at hlength
  omega

/-! ## One unit for each job -/

variable {layout : Layout} {environmentId : String} {specs : List CronApplySpec}

/-- The path holds the contents. -/
def Holds (host : Files) (path contents : Except ConfigValueError String) : Prop :=
  ∃ name text, path = .ok name ∧ contents = .ok text ∧ host.lookup name = some text

/-- Every declared job has a unit of its own: names differ where service or job do, and an
apply leaves the service and the timer file of each, rendered from a job of that service and
name. -/
structure OwnUnits (layout : Layout) (environmentId : String) (specs : List CronApplySpec) :
    Prop where
  distinct : ∀ a ∈ specJobs layout environmentId specs, ∀ b ∈ specJobs layout environmentId specs,
    a.identity ≠ b.identity → cronUnitName a.identity ≠ cronUnitName b.identity
  installed : ∀ host, ∃ result host',
    applyCronJobs layout environmentId specs host = .ok (result, host') ∧
      ∀ a ∈ specJobs layout environmentId specs,
        (∃ b ∈ specJobs layout environmentId specs, b.identity = a.identity ∧
          Holds host' (cronServicePath a.identity) (cronServiceContent b)) ∧
        ∃ b ∈ specJobs layout environmentId specs, b.identity = a.identity ∧
          Holds host' (cronTimerPath a.identity) (cronTimerContent b)

theorem environmentId_of_mem_specJobs {opts : CronUnitOpts}
    (h : opts ∈ specJobs layout environmentId specs) : opts.identity.environmentId = environmentId := by
  obtain ⟨spec, -, hjob⟩ := List.mem_flatMap.mp h
  obtain ⟨job, -, rfl⟩ := List.mem_map.mp hjob
  rfl

/-- The member of an accepted job. -/
theorem cronMember_of_accepted {opts : CronUnitOpts} (h : opts.identity.Accepted) :
    ∃ service timer, cronServiceContent opts = .ok service ∧ cronTimerContent opts = .ok timer ∧
      cronServicePath opts.identity = .ok (systemdUnitDir ++ "/" ++ opts.identity.unit ++ ".service") ∧
      cronTimerPath opts.identity = .ok (systemdUnitDir ++ "/" ++ opts.identity.unit ++ ".timer") ∧
      cronMember opts = .ok ⟨opts.identity.unit,
        [⟨systemdUnitDir ++ "/" ++ opts.identity.unit ++ ".service", service⟩,
          ⟨systemdUnitDir ++ "/" ++ opts.identity.unit ++ ".timer", timer⟩]⟩ := by
  obtain ⟨token, htoken⟩ := h.service
  have hunit : cronUnitName opts.identity = .ok opts.identity.unit := h.cronUnitName
  have htoken' : cronServiceToken opts.composeServiceName = .ok token := htoken
  have hservice : ∃ service, cronServiceContent opts = .ok service := by
    rw [cronServiceContent, cronServiceLines, htoken', hunit]
    exact ⟨_, rfl⟩
  have htimer : ∃ timer, cronTimerContent opts = .ok timer := by
    rw [cronTimerContent, htoken', hunit]
    exact ⟨_, rfl⟩
  have hservicePath : cronServicePath opts.identity =
      .ok (systemdUnitDir ++ "/" ++ opts.identity.unit ++ ".service") := by
    rw [cronServicePath, hunit]
    rfl
  have htimerPath : cronTimerPath opts.identity =
      .ok (systemdUnitDir ++ "/" ++ opts.identity.unit ++ ".timer") := by
    rw [cronTimerPath, hunit]
    rfl
  obtain ⟨service, hservice⟩ := hservice
  obtain ⟨timer, htimer⟩ := htimer
  refine ⟨service, timer, hservice, htimer, hservicePath, htimerPath, ?_⟩
  rw [cronMember, hunit, hservice, htimer, hservicePath, htimerPath]
  rfl

theorem service_ne_timer (front back : String) : front ++ ".service" ≠ back ++ ".timer" := by
  intro h
  have hlast := congrArg (fun text : String => text.toList.getLast?) h
  rw [String.toList_append, String.toList_append,
    List.getLast?_append_of_ne_nil _ (by decide : ".service".toList ≠ []),
    List.getLast?_append_of_ne_nil _ (by decide : ".timer".toList ≠ [])] at hlast
  exact absurd hlast (by decide)

theorem unitPath_inj {unit unit' ending : String}
    (h : systemdUnitDir ++ "/" ++ unit ++ ending = systemdUnitDir ++ "/" ++ unit' ++ ending) :
    unit = unit' := by
  simp only [← String.toList_inj, String.toList_append, List.append_assoc,
    List.append_cancel_left_eq, List.append_cancel_right_eq] at h
  exact String.toList_inj.mp h

theorem unitPath_ne_stamp (front back : String) :
    systemdUnitDir ++ "/" ++ front ≠ timerStampDir ++ "/stamp-" ++ back := by
  intro h
  have hfront := congrArg (fun text : String => text.toList.take 2) h
  simp only [String.toList_append, List.append_assoc] at hfront
  rw [List.take_append_of_le_length (by decide), List.take_append_of_le_length (by decide)] at hfront
  exact absurd hfront (by decide)

/-- A sweep leaves the files of the units it does not name. -/
theorem lookup_unit_of_notMem {units : List String} {unit ending : String}
    (hending : ending = ".service" ∨ ending = ".timer") (h : unit ∉ units) (host : Files) :
    (units.foldl (removeUnit systemdUnitDir) host).lookup
        (systemdUnitDir ++ "/" ++ unit ++ ending) =
      host.lookup (systemdUnitDir ++ "/" ++ unit ++ ending) := by
  refine lookup_foldl_removeUnit ?_ host
  intro stale hstale
  have hne : unit ≠ stale := fun heq => h (heq ▸ hstale)
  have hstamp : systemdUnitDir ++ "/" ++ unit ++ ending ≠
      timerStampDir ++ "/stamp-" ++ stale ++ ".timer" := by
    simpa only [String.append_assoc] using unitPath_ne_stamp (unit ++ ending) (stale ++ ".timer")
  rcases hending with rfl | rfl
  · exact ⟨service_ne_timer _ _, fun heq => hne (unitPath_inj heq), hstamp⟩
  · exact ⟨fun heq => hne (unitPath_inj heq), (service_ne_timer _ _).symm, hstamp⟩

/-- The member of a job: its unit, with the files rendered for it. -/
def MemberOf (opts : CronUnitOpts) (member : UnitSetMember) : Prop :=
  ∃ service timer, cronServiceContent opts = .ok service ∧ cronTimerContent opts = .ok timer ∧
    member = ⟨opts.identity.unit,
      [⟨systemdUnitDir ++ "/" ++ opts.identity.unit ++ ".service", service⟩,
        ⟨systemdUnitDir ++ "/" ++ opts.identity.unit ++ ".timer", timer⟩]⟩

theorem exists_memberOf {opts : CronUnitOpts} (h : opts.identity.Accepted) :
    ∃ member, cronMember opts = .ok member ∧ MemberOf opts member := by
  obtain ⟨service, timer, hservice, htimer, -, -, hmember⟩ := cronMember_of_accepted h
  exact ⟨_, hmember, service, timer, hservice, htimer, rfl⟩

/-- Where the names differ, an apply leaves the files of every job. -/
theorem holds_of_distinct
    (haccepted : ∀ a ∈ specJobs layout environmentId specs, a.identity.Accepted)
    (hdistinct : ∀ a ∈ specJobs layout environmentId specs,
      ∀ b ∈ specJobs layout environmentId specs, a.identity.unit = b.identity.unit →
        a.identity = b.identity) (host : Files) :
    ∃ result host', applyCronJobs layout environmentId specs host = .ok (result, host') ∧
      ∀ a ∈ specJobs layout environmentId specs,
        (∃ b ∈ specJobs layout environmentId specs, b.identity = a.identity ∧
          Holds host' (cronServicePath a.identity) (cronServiceContent b)) ∧
        ∃ b ∈ specJobs layout environmentId specs, b.identity = a.identity ∧
          Holds host' (cronTimerPath a.identity) (cronTimerContent b) := by
  set jobs := specJobs layout environmentId specs with hjobs
  have hmember : ∀ a ∈ jobs, ∃ member, cronMember a = .ok member ∧ MemberOf a member :=
    fun a ha => exists_memberOf (haccepted a ha)
  obtain ⟨members, hmembers, hto, hfrom⟩ := Programs.exists_mapM_eq_ok hmember
  have hcron : cronMembers layout environmentId specs = .ok members := hmembers
  obtain ⟨hfiles, hnoted⟩ := installMembers_spec host members
  set after := applyUnitSet members (cronFamilyPrefix environmentId) systemdUnitDir host
  refine ⟨after.1, after.2, by rw [applyCronJobs, hcron]; rfl, ?_⟩
  intro a ha
  obtain ⟨member, hmember, service, timer, hservice, htimer, rfl⟩ := hto a ha
  obtain ⟨-, -, -, -, hservicePath, htimerPath, -⟩ := cronMember_of_accepted (haccepted a ha)
  -- The unit is noted, so the sweep does not name it.
  have hkept : a.identity.unit ∉ (installedTimerUnits systemdUnitDir
      (cronFamilyPrefix environmentId) (installMembers host members).2).filter fun unit =>
        !(installMembers host members).1.any (·.1 = unit) := by
    rw [List.mem_filter, hnoted _ hmember]
    simp
  constructor
  · obtain ⟨file, hfile, hpath, hlookup⟩ := lookup_writeFiles (members.flatMap (·.files))
      ⟨_, List.mem_flatMap.mpr ⟨_, hmember, List.mem_cons_self⟩, rfl⟩ host
    obtain ⟨other, hother, hin⟩ := List.mem_flatMap.mp hfile
    obtain ⟨b, hb, text, timer', htext, -, rfl⟩ := hfrom other hother
    rcases List.mem_pair.mp hin with rfl | rfl
    · refine ⟨b, hb, hdistinct b hb a ha (unitPath_inj hpath), _, text, hservicePath, htext, ?_⟩
      refine (lookup_unit_of_notMem (.inl rfl) hkept (installMembers host members).2).trans ?_
      rw [hfiles]
      exact hlookup
    · exact absurd hpath.symm (service_ne_timer _ _)
  · obtain ⟨file, hfile, hpath, hlookup⟩ := lookup_writeFiles (members.flatMap (·.files))
      ⟨_, List.mem_flatMap.mpr ⟨_, hmember, List.mem_cons_of_mem _ List.mem_cons_self⟩, rfl⟩ host
    obtain ⟨other, hother, hin⟩ := List.mem_flatMap.mp hfile
    obtain ⟨b, hb, service', text, -, htext, rfl⟩ := hfrom other hother
    rcases List.mem_pair.mp hin with rfl | rfl
    · exact absurd hpath (service_ne_timer _ _)
    · refine ⟨b, hb, hdistinct b hb a ha (unitPath_inj hpath), _, text, htimerPath, htext, ?_⟩
      refine (lookup_unit_of_notMem (.inr rfl) hkept (installMembers host members).2).trans ?_
      rw [hfiles]
      exact hlookup

/-- Every job has units of its own exactly where no hyphen can move between a service and a
job. -/
theorem ownUnits_iff
    (haccepted : ∀ a ∈ specJobs layout environmentId specs, a.identity.Accepted) :
    OwnUnits layout environmentId specs ↔ ∀ a ∈ specJobs layout environmentId specs,
      ∀ b ∈ specJobs layout environmentId specs, ¬HyphenMoves a.identity b.identity := by
  have hname : ∀ a ∈ specJobs layout environmentId specs,
      cronUnitName a.identity = .ok a.identity.unit := fun a ha => (haccepted a ha).cronUnitName
  have hsame : ∀ a ∈ specJobs layout environmentId specs,
      ∀ b ∈ specJobs layout environmentId specs,
        a.identity.environmentId = b.identity.environmentId := fun a ha b hb =>
    (environmentId_of_mem_specJobs ha).trans (environmentId_of_mem_specJobs hb).symm
  constructor
  · intro hown a ha b hb hmoves
    refine hown.distinct a ha b hb (ne_of_hyphenMoves hmoves) ?_
    rw [hname a ha, hname b hb, (unit_eq_iff (hsame a ha b hb)).mpr (.inr (.inl hmoves))]
  · intro hnone
    have hdistinct : ∀ a ∈ specJobs layout environmentId specs,
        ∀ b ∈ specJobs layout environmentId specs, a.identity.unit = b.identity.unit →
          a.identity = b.identity := by
      intro a ha b hb hunit
      rcases (unit_eq_iff (hsame a ha b hb)).mp hunit with heq | hmoves | hmoves
      · exact heq
      · exact absurd hmoves (hnone a ha b hb)
      · exact absurd hmoves (hnone b hb a ha)
    refine ⟨?_, holds_of_distinct haccepted hdistinct⟩
    intro a ha b hb hne heq
    rw [hname a ha, hname b hb] at heq
    exact hne (hdistinct a ha b hb (Except.ok.inj heq))

/-! ## Sweeps of other environments -/

/-- A sweep for one environment does not name a unit of another. -/
def Unswept (environmentId : String) (other : CronUnitIdentity) : Prop :=
  ∀ host unit, cronUnitName other = .ok unit →
    unit ∉ installedTimerUnits systemdUnitDir (cronFamilyPrefix environmentId) host

/-- The other environment's id continues this one behind a hyphen, or this one's id continues
the other with what its service and job begin with. -/
def SharesHyphen (environmentId : String) (other : CronUnitIdentity) : Prop :=
  (∃ rest, other.environmentId = environmentId ++ "-" ++ rest) ∨
    ∃ rest, environmentId = other.environmentId ++ "-" ++ rest ∧
      startsWith (other.composeServiceName ++ "-" ++ other.jobName) (rest ++ "-") = true

theorem concat_prefix_of_append {α : Type*} {separator : α} {front text back : List α}
    (h : front ++ [separator] <+: text ++ back) (hback : separator ∉ back) :
    front ++ [separator] <+: text := by
  obtain ⟨rest, hrest⟩ := h
  rcases List.append_eq_append_iff.mp hrest with ⟨middle, rfl, -⟩ | ⟨middle, hfront, rfl⟩
  · exact List.prefix_append _ _
  · obtain rfl | ⟨init, last, rfl⟩ := List.eq_nil_or_concat' middle
    · rw [hfront, List.append_nil]
    · rw [← List.append_assoc, List.append_singleton_inj] at hfront
      rw [hfront.2] at hback
      exact absurd (by simp) hback

theorem sharesHyphen_iff (hne : environmentId ≠ other.environmentId) :
    SharesHyphen environmentId other ↔ environmentId.toList ++ ['-'] <+: other.chars := by
  rw [CronUnitIdentity.chars, concat_prefix_join_iff, String.toList_inj, or_iff_right hne]
  refine or_congr ⟨?_, ?_⟩ ⟨?_, ?_⟩
  · rintro ⟨rest, hrest⟩
    exact ⟨rest.toList, by rw [hrest, toList_hyphen]⟩
  · rintro ⟨x, hx⟩
    exact ⟨String.ofList x, by rw [← String.toList_inj, hx, toList_hyphen, String.toList_ofList]⟩
  · rintro ⟨rest, hrest, hfront⟩
    rw [startsWith_iff, String.toList_append, toList_hyphen] at hfront
    exact ⟨rest.toList, by rw [hrest, toList_hyphen], hfront⟩
  · rintro ⟨x, hx, hfront⟩
    refine ⟨String.ofList x, ?_, ?_⟩
    · rw [← String.toList_inj, hx, toList_hyphen, String.toList_ofList]
    · rw [startsWith_iff, String.toList_append, toList_hyphen, String.toList_ofList]
      exact hfront

/-- A unit that a sweep names has the sweep's prefix. -/
theorem prefix_of_mem_installedTimerUnits {unitDir front unit : String} {host : Files}
    (h : unit ∈ installedTimerUnits unitDir front host) :
    front.toList <+: unit.toList ++ ".timer".toList := by
  obtain ⟨name, hname, rfl⟩ := List.mem_map.mp h
  obtain ⟨-, hends⟩ := List.mem_filter.mp hname
  rw [Bool.and_eq_true, startsWith_iff, endsWith_iff] at hends
  obtain ⟨hfront, stem, hstem⟩ := hends
  have hcut : name.toList.length - ".timer".length = stem.length := by
    rw [← hstem, List.length_append]
    exact Nat.add_sub_cancel _ _
  rw [takeChars, hcut, String.toList_ofList, ← hstem, List.take_left, hstem]
  exact hfront

/-- A unit's timer file, where its name has the sweep's prefix, is named by the sweep. -/
theorem mem_installedTimerUnits {front unit : String} (hunit : ∀ c ∈ unit.toList, isUnitChar c = true)
    (hfront : front.toList <+: unit.toList) :
    unit ∈ installedTimerUnits systemdUnitDir front
      [(systemdUnitDir ++ "/" ++ unit ++ ".timer", "")] := by
  have hname : ∀ c ∈ (unit ++ ".timer").toList, isUnitChar c = true := by
    rw [String.toList_append, List.forall_mem_append]
    exact ⟨hunit, List.all_eq_true.mp (by decide)⟩
  have hslash : (unit ++ ".timer").toList.contains '/' = false := by
    rw [← Bool.not_eq_true, List.contains_iff_mem]
    exact fun hmem => absurd (hname '/' hmem) (by decide)
  have hlisting : listing systemdUnitDir [(systemdUnitDir ++ "/" ++ unit ++ ".timer", "")] =
      [unit ++ ".timer"] := by
    have hjoin : systemdUnitDir ++ "/" ++ unit ++ ".timer" =
        systemdUnitDir ++ "/" ++ (unit ++ ".timer") := String.append_assoc
    simp only [listing, List.filterMap_cons, List.filterMap_nil, hjoin, afterFront_append]
    rw [List.filter_cons, hslash]
    rfl
  have htrim : trim (unit ++ ".timer") = unit ++ ".timer" :=
    trim_of_forall fun c hc => isSpace_of_isUnitChar (hname c hc)
  have hstarts : startsWith (unit ++ ".timer") front = true := by
    rw [startsWith_iff, String.toList_append]
    exact hfront.trans (List.prefix_append _ _)
  have hends : endsWith (unit ++ ".timer") ".timer" = true := by
    rw [endsWith_iff, String.toList_append]
    exact List.suffix_append _ _
  rw [installedTimerUnits, hlisting, List.map_singleton, htrim, List.filter_cons_of_pos (by
    rw [hstarts, hends]; rfl), List.filter_nil, List.map_singleton, List.mem_singleton,
    ← String.toList_inj, takeChars, String.toList_ofList, String.toList_append, List.length_append]
  have hcut : unit.toList.length + ".timer".toList.length - ".timer".length = unit.toList.length :=
    Nat.add_sub_cancel _ _
  rw [hcut, List.take_left]

/-- A sweep leaves another environment's unit unnamed exactly where their ids do not share a
hyphen. -/
theorem unswept_iff (haccepted : other.Accepted) (hne : environmentId ≠ other.environmentId) :
    Unswept environmentId other ↔ ¬SharesHyphen environmentId other := by
  have hfront : (cronFamilyPrefix environmentId).toList =
      cronUnitPrefix.toList ++ (environmentId.toList ++ ['-']) := by
    rw [cronFamilyPrefix, String.toList_append, String.toList_append, List.append_assoc]
    rfl
  have hunit : other.unit.toList = cronUnitPrefix.toList ++ other.chars := by
    rw [CronUnitIdentity.unit, String.toList_append, String.toList_ofList]
  constructor
  · intro hunswept hshares
    refine hunswept [(systemdUnitDir ++ "/" ++ other.unit ++ ".timer", "")] other.unit
      haccepted.cronUnitName (mem_installedTimerUnits ?_ ?_)
    · rw [hunit, List.forall_mem_append]
      exact ⟨List.all_eq_true.mp (by decide), haccepted.isUnitChar⟩
    · rw [hfront, hunit, List.prefix_append_right_inj]
      exact (sharesHyphen_iff hne).mp hshares
  · intro hnone host unit hname hmem
    rw [haccepted.cronUnitName] at hname
    obtain rfl : other.unit = unit := Except.ok.inj hname
    have hfound := prefix_of_mem_installedTimerUnits hmem
    rw [hfront, hunit, List.append_assoc, List.prefix_append_right_inj] at hfound
    exact hnone ((sharesHyphen_iff hne).mpr (concat_prefix_of_append hfound (by decide)))

/-- Ids of one length, such as UUIDs, share no hyphen. -/
theorem not_sharesHyphen_of_length
    (h : environmentId.toList.length = other.environmentId.toList.length) :
    ¬SharesHyphen environmentId other := by
  rintro (⟨rest, hrest⟩ | ⟨rest, hrest, -⟩) <;>
  · rw [hrest, toList_hyphen, List.length_append, List.length_cons] at h
    omega

/-- The jobs of an environment have units of their own, and its sweep names none of another
environment's, exactly where no hyphen can be read in two ways. -/
theorem ownUnits_unswept_iff
    (haccepted : ∀ a ∈ specJobs layout environmentId specs, a.identity.Accepted)
    (hother : other.Accepted) (hne : environmentId ≠ other.environmentId) :
    (OwnUnits layout environmentId specs ∧ Unswept environmentId other) ↔
      (∀ a ∈ specJobs layout environmentId specs, ∀ b ∈ specJobs layout environmentId specs,
        ¬HyphenMoves a.identity b.identity) ∧ ¬SharesHyphen environmentId other := by
  rw [ownUnits_iff haccepted, unswept_iff hother hne]

/-! ## Two services of a site -/

/-- An account's directories below `/srv/users`. -/
def usersLayout : Layout := ⟨fun user => "/srv/users/" ++ user ++ "/home",
  fun user => "/srv/users/" ++ user ++ "/tmp"⟩

def syncJob (name : String) : CronJob := ⟨name, "*-*-* 03:00:00", ["/usr/bin/true"], none⟩

/-- One service, and another whose name continues it. -/
def webSpecs : List CronApplySpec :=
  [{ composeServiceName := "web", username := "u1", workingDirectory := "/srv/users/u1",
     jobs := [syncJob "api-sync"] },
    { composeServiceName := "web-api", username := "u1", workingDirectory := "/srv/users/u1",
      jobs := [syncJob "sync"] }]

theorem accepted_of_checks (henvironment : isSafePathId identity.environmentId = true)
    (hlength : lengthInUnits identity.composeServiceName ≤ 128)
    (hservice : isConfigToken identity.composeServiceName = true)
    (hjob : cronJobNameRe.test identity.jobName = true) : identity.Accepted := by
  refine ⟨henvironment, ⟨identity.composeServiceName, ?_⟩, hjob⟩
  rw [safeConfigToken, if_neg]
  rw [Bool.or_eq_true, decide_eq_true_eq, hservice, Bool.not_true]
  rintro (hlong | hfalse)
  · exact absurd hlength (Nat.not_le.mpr hlong)
  · cases hfalse

/-- The identity of a job of `webSpecs`. -/
def webIdentity (environmentId service job : String) : CronUnitIdentity :=
  ⟨environmentId, service, job⟩

theorem webIdentity_accepted : (webIdentity "env1" "web" "api-sync").Accepted ∧
    (webIdentity "env1" "web-api" "sync").Accepted ∧
      (webIdentity "env2" "web" "sync").Accepted := by
  have hjobs : cronJobNameRe.test "api-sync" = true ∧ cronJobNameRe.test "sync" = true := by
    decide +kernel
  exact ⟨accepted_of_checks (by decide) (by decide) (by decide) hjobs.1,
    accepted_of_checks (by decide) (by decide) (by decide) hjobs.2,
    accepted_of_checks (by decide) (by decide) (by decide) hjobs.2⟩

theorem identity_webSpecs (a : CronUnitOpts) (h : a ∈ specJobs usersLayout "env1" webSpecs) :
    a.identity = webIdentity "env1" "web" "api-sync" ∨
      a.identity = webIdentity "env1" "web-api" "sync" := by
  rcases List.mem_pair.mp h with rfl | rfl
  · exact .inl rfl
  · exact .inr rfl

/-- Both services and both jobs are accepted, and the unit of one is that of the other. -/
theorem not_ownUnits_web :
    (∀ a ∈ specJobs usersLayout "env1" webSpecs, a.identity.Accepted) ∧
      ¬OwnUnits usersLayout "env1" webSpecs := by
  have haccepted : ∀ a ∈ specJobs usersLayout "env1" webSpecs, a.identity.Accepted := by
    intro a ha
    rcases identity_webSpecs a ha with hweb | hapi
    · exact hweb ▸ webIdentity_accepted.1
    · exact hapi ▸ webIdentity_accepted.2.1
  refine ⟨haccepted, ?_⟩
  rw [ownUnits_iff haccepted]
  intro hnone
  exact hnone _ List.mem_cons_self _ (List.mem_cons_of_mem _ List.mem_cons_self)
    ⟨"api", by decide, by decide⟩

/-- One job, beside another environment of an id of the same length. -/
theorem ownUnits_unswept_web :
    OwnUnits usersLayout "env1" (webSpecs.take 1) ∧ Unswept "env1" (webIdentity "env2" "web" "sync") := by
  have hjob : ∀ a ∈ specJobs usersLayout "env1" (webSpecs.take 1),
      a.identity = webIdentity "env1" "web" "api-sync" := by
    intro a ha
    rw [List.mem_singleton.mp ha]
    rfl
  refine (ownUnits_unswept_iff ?_ webIdentity_accepted.2.2 (by decide)).mpr ⟨?_, ?_⟩
  · exact fun a ha => hjob a ha ▸ webIdentity_accepted.1
  · intro a ha b hb hmoves
    exact ne_of_hyphenMoves hmoves ((hjob a ha).trans (hjob b hb).symm)
  · exact not_sharesHyphen_of_length (by decide)

end Turbopaneld.Deploy.Cron
