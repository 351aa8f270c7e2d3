/-
# How a native app is started

The start line of an app's unit is, from the most specific on, the author's start command run
by a shell, the author's startup file, what the build recorded, or a default.
-/

import Turbopaneld.Deploy.CronUnits

namespace Turbopaneld.NativeApp

open JavaScript
open Deploy.Cron (ConfigValueError)

/-- What the renderer throws. -/
inductive StartFault
  | configValue (error : ConfigValueError)
  | typeError (message : String)
deriving DecidableEq

def hasLineBreakOrControl (value : String) : Bool :=
  value.toList.any fun c =>
    c.toNat < 0x20 || (0x7f ≤ c.toNat && c.toNat ≤ 0x9f) || c.toNat == 0x2028 || c.toNat == 0x2029

def safeConfigLine (field value : String) : Except StartFault String :=
  if hasLineBreakOrControl value then
    .error (.configValue ⟨field, "must not contain line breaks or control characters"⟩)
  else .ok value

/-! ## Package managers -/

/-- The words between runs of blanks. -/
def spacedWords (text : String) : List String :=
  ((text.toList.splitOnP isSpace).filter fun word => !word.isEmpty).map String.ofList

def isPackageManager (word : String) : Bool := word == "pnpm" || word == "yarn" || word == "npm"

/-- `isPackageManagerStart`: a bare start, with or without Corepack. -/
def isPackageManagerStart (command : String) : Bool :=
  match spacedWords (trim command) with
  | [manager, start] => isPackageManager manager && start == "start"
  | [corepack, manager, start] =>
    corepack == "corepack" && isPackageManager manager && start == "start"
  | _ => false

/-- The text starts with a word, which ends there or before a blank. -/
def startsWithWord (word text : String) : Bool :=
  startsWith text word && (text.toList.drop word.length).head?.all isSpace

def trimStart (text : String) : String := String.ofList (text.toList.dropWhile isSpace)

def normalizeNodePackageManagerCommand (command : String) : String :=
  let trimmed := trimStart command
  if startsWith trimmed "corepack " then command
  else if startsWithWord "pnpm" trimmed || startsWithWord "yarn" trimmed then
    "corepack " ++ trimmed
  else command

def resolveNativeAppRuntimeStartCommand (command nodeBinary : String) : String :=
  let trimmed := trim command
  if isPackageManagerStart trimmed then nodeBinary ++ " --run start"
  else normalizeNodePackageManagerCommand trimmed

/-! ## Recorded starts -/

/-- `NEXT_CLI_PATH`. -/
def nextCliPath : String := "node_modules/next/dist/bin/next"

/-- `NATIVE_APP_BIND_ADDRESS`. -/
def nativeAppBindAddress : String := "127.0.0.1"

/-- `DENO_RUN_FLAGS`. -/
def denoRunFlags : String := "--allow-all"

/-- `DEFAULT_START_SCRIPT`. -/
def defaultStartScript : String := "server.js"

inductive NativeAppStart
  | file (path : String)
  | startScript (prestart : Bool)
  | nextStart
  | denoTask
  | denoFile (path : String)
deriving DecidableEq

/-- A kind that starts with `deno-`. -/
def NativeAppStart.isDeno : NativeAppStart → Bool
  | .denoTask | .denoFile _ => true
  | _ => false

/-- `SAFE_START_PATH_RE`. -/
def isSafeStartPath (path : String) : Bool :=
  path != "" && path.toList.all fun c =>
    isLetter c || isDigit c || c == '.' || c == '_' || c == '/' || c == '-'

/-- A text without the `./` it starts with, however often. -/
def dropDotSlash : List Char → List Char
  | '.' :: '/' :: rest => dropDotSlash rest
  | text => text

def normalizeNativeAppStartPath (value : String) : Option String :=
  let path := String.ofList (dropDotSlash (trim value).toList)
  if path = "" || 200 < lengthInUnits path then none
  else if !isSafeStartPath path then none
  else if startsWith path "/" || startsWith path "-" then none
  else if endsWith path "/" then none
  else if (split '/' path).any fun segment => segment = "" || segment = ".." then none
  else some path

/-- A recorded file behind the command that runs it. -/
def startFile (front path : String) : Except StartFault String :=
  match normalizeNativeAppStartPath path with
  | none => .error (.typeError ("unsafe native app start file: " ++ path))
  | some path => .ok (front ++ path)

def startWithPrestart (nodeBinary : String) : Except StartFault String :=
  if !isSafeStartPath nodeBinary then .error (.typeError ("unexpected Node path: " ++ nodeBinary))
  else .ok ("/bin/sh -c '" ++ nodeBinary ++ " --run prestart && exec " ++ nodeBinary ++ " --run start'")

def nativeAppStartExec (start : NativeAppStart) (nodeBinary : String) (listenPort : ℕ) :
    Except StartFault String :=
  match start with
  | .startScript true => startWithPrestart nodeBinary
  | .startScript false => .ok (nodeBinary ++ " --run start")
  | .nextStart => .ok (nodeBinary ++ " " ++ nextCliPath ++ " start --hostname " ++
      nativeAppBindAddress ++ " --port " ++ toString listenPort)
  | .denoTask => .ok (nodeBinary ++ " task start")
  | .denoFile path => startFile (nodeBinary ++ " run " ++ denoRunFlags ++ " ") path
  | .file path => startFile (nodeBinary ++ " ") path

/-! ## The start line -/

/-- `quoteSystemdArgument`, character by character. -/
def quoteSystemdChar (c : Char) : List Char :=
  if c = '\'' then ['\'', '\\', '\'', '\''] else [c]

def quoteSystemdArgument (value : String) : String :=
  "'" ++ String.ofList (value.toList.flatMap quoteSystemdChar) ++ "'"

/-- The parameters of `resolveExecStart`. -/
structure ExecStartParams where
  nodeBinary : String
  denoBinary : Option String := none
  startCommand : Option String := none
  startupFile : Option String := none
  nativeStart : Option NativeAppStart := none
  listenPort : Option ℕ := none

/-- A field that holds more than blanks, without those around it. -/
def given (field : Option String) : Option String := (field.map trim).filter (· != "")

def resolveDenoExecStart (params : ExecStartParams) (denoBinary : String) :
    Except StartFault String :=
  match given params.startCommand with
  | some startCommand => do
    let command ← safeConfigLine "startCommand" startCommand
    return "/bin/sh -c " ++ quoteSystemdArgument command
  | none =>
    match given params.startupFile with
    | some startupFile => .ok (denoBinary ++ " run " ++ denoRunFlags ++ " " ++ startupFile)
    | none =>
      match params.nativeStart with
      | some (.denoFile path) =>
        nativeAppStartExec (.denoFile path) denoBinary (params.listenPort.getD 0)
      | _ => nativeAppStartExec .denoTask denoBinary (params.listenPort.getD 0)

def resolveExecStart (params : ExecStartParams) : Except StartFault String :=
  match params.denoBinary with
  | some denoBinary => resolveDenoExecStart params denoBinary
  | none =>
    match given params.startCommand with
    | some startCommand => do
      let command ← safeConfigLine "startCommand" startCommand
      return "/bin/sh -c " ++
        quoteSystemdArgument (resolveNativeAppRuntimeStartCommand command params.nodeBinary)
    | none =>
      match given params.startupFile with
      | some startupFile => .ok (params.nodeBinary ++ " " ++ startupFile)
      | none =>
        match params.nativeStart, params.listenPort with
        | some start, some listenPort =>
          if start.isDeno then .ok (params.nodeBinary ++ " " ++ defaultStartScript)
          else nativeAppStartExec start params.nodeBinary listenPort
        | _, _ => .ok (params.nodeBinary ++ " " ++ defaultStartScript)

/-- The command the shell is to run: the author's, with a package manager's rewritten where
Node runs the app. -/
def runtimeCommand (params : ExecStartParams) (command : String) : String :=
  match params.denoBinary with
  | some _ => command
  | none => resolveNativeAppRuntimeStartCommand command params.nodeBinary

/-- A start command that is accepted becomes one argument of a shell. -/
theorem resolveExecStart_of_given {params : ExecStartParams} {command line : String}
    (hcommand : given params.startCommand = some command)
    (h : resolveExecStart params = .ok line) :
    line = "/bin/sh -c " ++ quoteSystemdArgument (runtimeCommand params command) := by
  rw [resolveExecStart] at h
  rw [runtimeCommand]
  cases hdeno : params.denoBinary with
  | some denoBinary =>
    rw [hdeno] at h
    dsimp only at h ⊢
    rw [resolveDenoExecStart, hcommand] at h
    dsimp only at h
    rw [safeConfigLine] at h
    split at h
    · cases h
    · exact (Except.ok.inj h).symm
  | none =>
    rw [hdeno, hcommand] at h
    dsimp only at h ⊢
    rw [safeConfigLine] at h
    split at h
    · cases h
    · exact (Except.ok.inj h).symm

end Turbopaneld.NativeApp
