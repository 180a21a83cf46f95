/-
**Runtime tickets, as the editor makes them.**

The editor parses a target, starts the sidecar for it, and later makes tickets from what the sidecar
has said: `descriptor_for_identity` and `normalize_process_spec` in
`lua/nvim_remote_mirror/workspace.lua`, `runtime_ticket` in `lua/nvim_remote_mirror/runtime.lua`.

Texts are valid UTF-8: each function here rejects others.  The options of a process have the types
they must have, as tables of other types are rejected first.  `:p` of `fnamemodify` is a parameter.

Main definitions:

* `Ticket.parseTarget`, `Ticket.sidecarAgent` — the targets of `:RemoteConnect`, and the agent asked
  for;
* `Ticket.normalizeAbsolute`, `Ticket.normalizeRelativePath`, `Ticket.relativeWithin` — paths in the
  editor;
* `Ticket.descriptorFor` — a workspace, from the sidecar's answers;
* `Ticket.normalizeProcessSpec` — a process;
* `Ticket.runtimeTicket` — the ticket.
-/

import RemoteMirror.AgentScan
import RemoteMirror.TicketProxy

namespace RemoteMirror.Ticket

open Checks
open RemoteMirror.Runtime (TerminalSize isControl)

/-! ### Texts -/

/-- An error of the editor. -/
structure LuaError where
  code : String
  message : String
  deriving DecidableEq, Repr

def invalidPath (message : String) : LuaError := ⟨"invalid_path", message⟩

def invalidSpec (message : String) : LuaError := ⟨"invalid_process_spec", message⟩

def invalidState (message : String) : LuaError := ⟨"invalid_provider_state", message⟩

def maxPathBytes : ℕ := 16 * 1024

/-- `contains_control`: the bytes `\194[\128-\159]` are the characters from 128 to 159. -/
def containsControl (value : String) : Bool := value.toList.any isControl

def optionalString (value : String) : Option String := if value = "" then none else some value

/-- The value of a hexadecimal digit. -/
def hexValue (byte : UInt8) : Option ℕ :=
  let n := byte.toNat
  if 48 ≤ n ∧ n ≤ 57 then some (n - 48)
  else if 65 ≤ n ∧ n ≤ 70 then some (n - 55)
  else if 97 ≤ n ∧ n ≤ 102 then some (n - 87)
  else none

/-- Percent escapes are replaced by their bytes. -/
def decodeBytes : List UInt8 → Option (List UInt8)
  | [] => some []
  | byte :: rest =>
    if byte = 37 then
      match rest with
      | high :: low :: rest =>
        match hexValue high, hexValue low with
        | some high, some low => (decodeBytes rest).map (UInt8.ofNat (16 * high + low) :: ·)
        | _, _ => none
      | _ => none
    else (decodeBytes rest).map (byte :: ·)

/-- `percent_decode`: a text without control characters. -/
def percentDecode (value : String) : Option String :=
  match (decodeBytes (TextSlice.utf8 value.toList)).bind Agent.fromUtf8 with
  | some text => if text.any isControl then none else some (String.ofList text)
  | none => none

def percentEncode (value : String) : String :=
  String.ofList ((TextSlice.utf8 value.toList).flatMap fun byte =>
    let c := Char.ofNat byte.toNat
    if c.isAlphanum || c = '-' || c = '.' || c = '_' || c = '~' || c = '/' || c = ':' then [c]
    else ['%', (hexDigit (byte.toNat / 16)).toUpper, (hexDigit (byte.toNat % 16)).toUpper])

/-! ### Paths -/

/-- The text matches `^%a:[/\\]`. -/
def hasDrive : List Char → Bool
  | drive :: ':' :: slash :: _ => drive.isAlpha && (slash = '/' || slash = '\\')
  | _ => false

def pathStyleFor (path : String) : RemotePathStyle :=
  if hasDrive path.toList then .windows else .posix

/-- The reserved names of Windows. -/
def reservedStems : List String :=
  ["CON", "PRN", "AUX", "NUL", "CONIN$", "CONOUT$", "COM1", "COM2", "COM3", "COM4", "COM5", "COM6",
    "COM7", "COM8",
    "COM9", "LPT1", "LPT2", "LPT3", "LPT4", "LPT5", "LPT6", "LPT7", "LPT8", "LPT9", "COM¹",
    "COM²", "COM³",
    "LPT¹", "LPT²", "LPT³"]

def validWindowsSegment (segment : List Char) : Bool :=
  !(segment.any fun c => c = '<' || c = '>' || c = ':' || c = '"' || c = '|' || c =
    '?' || c = '*') &&
    segment.getLast? ≠ some ' ' && segment.getLast? ≠ some '.' &&
    !reservedStems.contains (String.ofList ((segment.takeWhile fun c => c ≠ '.').map Char.toUpper))

/-- `gmatch("[^/]+")` -/
def segmentsOf (text : List Char) : List (List Char) :=
  (text.splitOn '/').filter fun segment => !segment.isEmpty

/-- The loops over segments: `.` is skipped, `..` takes back a segment. -/
def resolveSegments (style : RemotePathStyle) (escapes reserved : LuaError)
    (segments : List (List Char)) : List (List Char) → Except LuaError (List (List Char))
  | [] => .ok segments
  | segment :: rest =>
    if segment = ['.'] then resolveSegments style escapes reserved segments rest
    else if segment = ['.', '.'] then
      if segments.isEmpty then .error escapes
      else resolveSegments style escapes reserved segments.dropLast rest
    else if style = .windows && !validWindowsSegment segment then .error reserved
    else resolveSegments style escapes reserved (segments ++ [segment]) rest

/-- `table.concat(segments, "/")` -/
def joinSegments (segments : List (List Char)) : List Char := List.intercalate ['/'] segments

/-- What stands before the segments of an absolute path, and the rest. -/
def splitRoot (path : List Char) : RemotePathStyle → Except LuaError (List Char × List Char)
  | .windows =>
    match path.map fun c => if c = '\\' then '/' else c with
    | '/' :: '/' :: _ => .error (invalidPath "UNC paths are not supported")
    | drive :: ':' :: '/' :: rest =>
      if drive.isAlpha then .ok ([drive.toUpper, ':', '/'], rest)
      else .error (invalidPath "Windows paths must use an absolute drive root")
    | _ => .error (invalidPath "Windows paths must use an absolute drive root")
  | .posix =>
    match path with
    | '/' :: rest =>
      if path.contains '\\' then .error (invalidPath "POSIX paths must use forward slashes")
      else .ok (['/'], rest)
    | _ => .error (invalidPath "POSIX paths must be absolute")

def normalizeAbsolute (path : String) (style : RemotePathStyle) : Except LuaError String := do
  rejectIf (path = "") (invalidPath "path must be a non-empty string")
  rejectIf (containsControl path || maxPathBytes < path.utf8ByteSize)
    (invalidPath "path must be control-free UTF-8 within the protocol limit")
  let (root, remainder) ← splitRoot path.toList style
  let segments ← resolveSegments style (invalidPath "path escapes its filesystem root")
    (invalidPath "Windows path contains an invalid or reserved segment") [] (segmentsOf remainder)
  return String.ofList (root ++ joinSegments segments)

/-- Paths are compared without case on Windows. -/
def compared (style : RemotePathStyle) (text : List Char) : List Char :=
  if style = .windows then text.map Char.toLower else text

/-- `relative_within`: the path below the root -/
def relativeWithin (root path : String) (style : RemotePathStyle) : Except LuaError String := do
  let normalizedRoot ← normalizeAbsolute root style
  let normalizedPath ← normalizeAbsolute path style
  let comparedRoot := compared style normalizedRoot.toList
  let comparedPath := compared style normalizedPath.toList
  if comparedPath = comparedRoot then return ""
  let front := if comparedRoot.getLast? = some '/' then comparedRoot else comparedRoot ++ ['/']
  rejectIf (!front.isPrefixOf comparedPath) (invalidPath "path is outside the workspace root")
  return String.ofList (normalizedPath.toList.drop front.length)

def normalizeRelativePath (path : Option String) (style : RemotePathStyle) :
    Except LuaError String :=
  match path with
  | none => .ok ""
  | some path =>
    if path = "" || path = "." then .ok ""
    else do
      let text := path.toList
      rejectIf (containsControl path || maxPathBytes < path.utf8ByteSize)
        (invalidPath "workspace-relative path is invalid")
      rejectIf (text.head? = some '/' || text.head? = some '\\' ||
          (text.head?.any Char.isAlpha && (text.drop 1).head? = some ':'))
        (invalidPath "workspace-relative path must not be absolute")
      rejectIf (text.contains '\\')
        (invalidPath "workspace-relative paths must use forward slashes")
      let segments ← resolveSegments style
        (invalidPath "workspace-relative path escapes the workspace")
        (invalidPath "Windows cwd contains an invalid or reserved segment") [] (segmentsOf text)
      return String.ofList (joinSegments segments)

/-! ### Targets -/

/-- `validate_ssh_path`, of a text without control characters -/
def validateSshPath (path : String) : Except String String := do
  let text := path.toList
  rejectIf (text.head? ≠ some '/') "expected ssh://host/absolute/path"
  rejectIf ((text.drop 1).head? = some '/' || (text.drop 1).head? = some '\\')
    "ssh target path must not use a UNC root"
  let firstSegment := (text.drop 1).takeWhile fun c => c ≠ '/'
  if firstSegment.head?.any Char.isAlpha && (firstSegment.drop 1).head? = some ':' then do
    rejectIf (firstSegment.length ≠ 2 || text.length < 4)
      "ssh target path must use an absolute drive root"
    let windowsPath := (firstSegment.take 1).map Char.toUpper ++ text.drop 2
    rejectIf (windowsPath.contains '\\') "ssh target drive paths must use forward slashes"
    rejectIf (decide (['/', '/'] <:+: windowsPath))
      "ssh target drive paths must not contain empty segments"
    forEach (fun segment => do
      rejectIf (isDots segment) "ssh target drive paths must not contain dot segments"
      rejectIf (segment.contains ':')
        "ssh target drive paths must not contain alternate data streams"
      rejectIf (segment.getLast? = some ' ' || segment.getLast? = some '.')
        "ssh target drive path segments must not end in a dot or space")
        (segmentsOf (windowsPath.drop 3))
    return String.ofList windowsPath
  else do
    rejectIf (firstSegment.getLast? = some ':') "ssh target path contains an invalid drive root"
    rejectIf (decide (['/', '/'] <:+: text.drop 1))
      "ssh target paths must not contain empty segments"
    forEach (fun segment =>
      rejectIf (isDots segment) "ssh target paths must not contain dot segments")
      (segmentsOf text)
    return path

/-- The destination and the path of a target, `^([^/]+)(/.*)$` -/
def splitDestination (body : List Char) : Option (String × String) :=
  let destination := body.takeWhile fun c => c ≠ '/'
  let path := body.dropWhile fun c => c ≠ '/'
  if destination.isEmpty || path.isEmpty then none
  else some (String.ofList destination, String.ofList path)

/-- The scheme of remote targets. -/
def sshScheme : List Char := ['s', 's', 'h', ':', '/', '/']

/-- `normalize_local_root`; `fullPath` is `fnamemodify(path, ":p")` -/
def normalizeLocalRoot (fullPath : String → String) (path : String) : String :=
  let full := (fullPath path).toList
  let stripped := full.rdropWhile fun c => c = '/' || c = '\\'
  if stripped.isEmpty || (stripped.length = 2 && stripped.head?.any Char.isAlpha &&
      stripped.getLast? = some ':')
  then fullPath path else String.ofList stripped

/-- `validate_ssh_destination` of `init.lua`: the checks of the sidecar, in another order and by
bytes -/
def checkDestination (destination : String) : Except String Unit := do
  let text := destination.toList
  rejectIf text.isEmpty "ssh destination must not be empty"
  rejectIf (text.head? = some '-') "ssh destination must not begin with '-'"
  rejectIf (text.contains '/' || text.contains '\\')
    "ssh destination must not contain path separators"
  rejectIf (text.any fun c => c.toNat ≤ 32 || c.toNat = 127)
    "ssh destination must not contain whitespace or control characters"
  match text.splitOn '@' with
  | [host] => validateSshHost host
  | [user, host] => do
      rejectIf (user.isEmpty || !user.all hostNameChar)
        "ssh destination contains an invalid user name"
      validateSshHost host
  | _ => .error "ssh destination must contain at most one '@'"

/-- `parse_target` of `init.lua` -/
def parseTarget (fullPath : String → String) (cwd target : String) : Except String Target :=
  if target = "" then .ok ⟨none, normalizeLocalRoot fullPath cwd⟩
  else if sshScheme.isPrefixOf target.toList then do
    let (host, path) ← okOr (splitDestination (target.toList.drop 6))
      "expected ssh://host/absolute/path"
    checkDestination host
    let bytes ← okOr (decodeBytes (TextSlice.utf8 path.toList))
      "ssh target path contains a malformed percent escape"
    let decoded ← okOr (Agent.fromUtf8 bytes) "ssh target path must be valid UTF-8"
    rejectIf (decoded.any isControl) "ssh target path must not contain control characters"
    let path ← validateSshPath (String.ofList decoded)
    return ⟨some host, path⟩
  else .ok ⟨none, normalizeLocalRoot fullPath target⟩

def reconnectArg (target : Target) : String :=
  match target.ssh with
  | some ssh =>
    let path := target.remoteRoot.toList
    let path := if hasDrive path && (path.drop 2).head? = some '/' then '/' :: path else path
    "ssh://" ++ ssh ++ percentEncode (String.ofList path)
  | none => target.remoteRoot

/-- What a target argument says: the destination, and the root of its workspace. -/
structure Parsed where
  destination : Option String
  remoteRoot : String
  deriving DecidableEq, Repr

/-- `parse_target` of `workspace.lua` -/
def parseTargetArg (target : String) : Option Parsed :=
  if target = "" then none
  else if !sshScheme.isPrefixOf target.toList then some ⟨none, target⟩
  else
    match splitDestination (target.toList.drop 6) with
    | none => none
    | some (destination, encodedPath) =>
      if 1024 < destination.utf8ByteSize || destination.toList.head? = some '-' ||
          destination.toList.any (fun c => c = ' ' || (9 ≤ c.toNat && c.toNat ≤ 13)) ||
          containsControl destination
      then none
      else (percentDecode encodedPath).map fun root =>
        ⟨some destination, if root.toList.head? = some '/' && hasDrive (root.toList.drop 1) &&
          (root.toList.drop 3).head? = some '/' then String.ofList (root.toList.drop 1) else root⟩

/-! ### Workspaces -/

/-- What the editor has configured when it connected. -/
structure RuntimeConfig where
  agent : String
  remoteAgent : Option String
  requestTimeoutMs : ℤ
  sshConnectTimeoutSeconds : ℤ
  deriving DecidableEq, Repr

/-- `sidecar_args`: the agent that the sidecar is started with -/
def sidecarAgent (config : RuntimeConfig) (target : Target) : String :=
  if target.ssh.isSome then (config.remoteAgent.bind optionalString).getD "nrm-agent"
  else config.agent

/-- What the sidecar supports. -/
structure RuntimeSupport where
  contractVersion : ℕ
  process : Bool
  terminal : Bool
  deriving DecidableEq, Repr

/-- The parts of a descriptor from which tickets are made. -/
structure Snapshot where
  workspaceKey : Option String
  workspaceId : String
  authorityRoot : Option String
  editorRoot : Option String
  pathStyle : RemotePathStyle
  shell : Option String
  ssh : Option String
  remoteHost : Option RemoteHostInfo
  relativePath : Option String
  support : RuntimeSupport
  config : RuntimeConfig

/-- The style of the host, or else of the root. -/
def authorityStyle (host : Option RemoteHostInfo) (remoteRoot : Option String) : RemotePathStyle :=
  (host.map RemoteHostInfo.pathStyle).getD ((remoteRoot.map pathStyleFor).getD .posix)

/-- The root, in its normal form. -/
def authorityRoot (style : RemotePathStyle) : Option String → Except LuaError (Option String)
  | none => .ok none
  | some remoteRoot =>
    match normalizeAbsolute remoteRoot style with
    | .ok normalizedRoot => .ok (some normalizedRoot)
    | .error _ => .error (invalidState "remote buffer contains an invalid authority root")

section Editor

variable (workspaceHash : List String → String)

/-- `descriptor_for_identity`, of the workspace the editor is connected to -/
def descriptorFor (hello : Hello) (targetArg : String) (relativePath : Option String)
    (support : RuntimeSupport) (config : RuntimeConfig) : Except LuaError Snapshot := do
  let source := optionalString targetArg
  let target := source.bind parseTargetArg
  rejectIf (source.isSome && target.isNone)
    (invalidState "remote buffer contains an invalid target identity")
  let remoteRoot := (optionalString hello.remoteRoot).or (target.map Parsed.remoteRoot)
  let pathStyle := authorityStyle hello.remoteHost remoteRoot
  let normalizedRoot ← authorityRoot pathStyle remoteRoot
  let key := optionalString hello.workspaceKey
  return { workspaceKey := key
           workspaceId :=
             key.getD (workspaceHash [targetArg, hello.filesRoot, normalizedRoot.getD ""])
           authorityRoot := normalizedRoot
           editorRoot := optionalString hello.filesRoot
           pathStyle := pathStyle
           shell := (hello.remoteHost.map RemoteHostInfo.shell).bind optionalString
           ssh := target.bind Parsed.destination
           remoteHost := hello.remoteHost
           relativePath := relativePath
           support := support
           config := config }

/-! ### Processes -/

inductive Command
  | argv (arguments : List String)
  | shell (name : String)
  deriving DecidableEq, Repr

inductive Cwd
  | workspace (path : Option String)
  | buffer
  | editor (path : String)
  | authority (path : String)
  deriving DecidableEq, Repr

structure EnvOptions where
  clear : Bool
  set : List (String × String)
  unset : List String
  deriving DecidableEq, Repr

inductive Stdio
  | pipe
  | pty
  deriving DecidableEq, Repr

inductive Persistence
  | attached
  | detached
  deriving DecidableEq, Repr

structure SizeOptions where
  cols : Option ℤ
  rows : Option ℤ
  pixelWidth : Option ℤ
  pixelHeight : Option ℤ
  deriving DecidableEq, Repr

/-- The options of a process. -/
structure ProcessOptions where
  command : Command
  cwd : Option Cwd
  env : EnvOptions
  stdio : Option Stdio
  persistence : Option Persistence
  maxOutputBytes : Option ℤ
  timeoutMs : Option ℤ
  initialSize : Option SizeOptions
  deriving DecidableEq, Repr

/-- A process as it is asked for, once it is checked. -/
structure ProcessRequest where
  command : Command
  cwd : String
  env : EnvOptions
  stdio : Stdio
  persistence : Persistence
  maxOutputBytes : Option ℕ
  timeoutMs : Option ℕ
  initialSize : Option TerminalSize
  deriving DecidableEq, Repr

def maxArgv : ℕ := 1024

def maxEnvChanges : ℕ := 2048

def maxProcessTextBytes : ℕ := 192 * 1024

def maxOutputBytes : ℕ := 128 * 1024 * 1024

def maxTimeoutMs : ℕ := 24 * 60 * 60 * 1000

def maxTerminalCells : ℕ := 32767

def maxTerminalPixels : ℕ := 65535

def normalizeCommand : Command → Except LuaError Command
  | .argv arguments => do
      rejectIf arguments.isEmpty (invalidSpec "command.argv must not be empty")
      rejectIf (maxArgv < arguments.length)
        (invalidSpec "command.argv exceeds the protocol argument limit")
      rejectIf (arguments.head?.any containsControl)
        (invalidSpec "command arguments must be control-free UTF-8 strings")
      rejectIf (arguments.head? = some "") (invalidSpec "command executable must not be empty")
      rejectIf (arguments.tail.any containsControl)
        (invalidSpec "command arguments must be control-free UTF-8 strings")
      return .argv arguments
  | .shell name => do
      rejectIf (name ≠ "default") (invalidSpec
        "command.shell must be 'default'; use an explicit argv shell invocation for shell programs")
      return .shell name

/-- `match("^(.*)/[^/]+$") or ""` -/
def directoryOf (path : String) : String :=
  let name := path.toList.rtakeWhile fun c => c ≠ '/'
  let front := path.toList.rdropWhile fun c => c ≠ '/'
  if name.isEmpty then "" else String.ofList front.dropLast

def normalizeCwd (snapshot : Snapshot) : Option Cwd → Except LuaError String
  | none => .ok ""
  | some .buffer => do
      let relativePath ← okOr (snapshot.relativePath.bind optionalString)
        (invalidSpec "buffer cwd requires a buffer-backed context")
      let normalized ← normalizeRelativePath (some relativePath) snapshot.pathStyle
      return directoryOf normalized
  | some (.workspace path) => normalizeRelativePath path snapshot.pathStyle
  | some (.editor path) => do
      rejectIf (path = "") (invalidSpec "absolute cwd spaces require a path")
      let root ← okOr snapshot.editorRoot ⟨"unsupported", "workspace cwd root is unavailable"⟩
      relativeWithin root path (pathStyleFor root)
  | some (.authority path) => do
      rejectIf (path = "") (invalidSpec "absolute cwd spaces require a path")
      let root ← okOr snapshot.authorityRoot ⟨"unsupported", "workspace cwd root is unavailable"⟩
      relativeWithin root path snapshot.pathStyle

/-- Names are compared without case on Windows. -/
def comparedName (style : RemotePathStyle) (name : String) : String :=
  if style = .windows then asciiLowercase name else name

def validEnvName (name : String) : Bool :=
  name ≠ "" && !containsControl name && !name.toList.contains '='

/-- The loop over `env.set`. -/
def checkEnvSet (style : RemotePathStyle) (seen : List String) :
    List (String × String) → Except LuaError (List String)
  | [] => .ok seen
  | (name, value) :: rest => do
      rejectIf (!validEnvName name || value.toList.contains '\x00')
        (invalidSpec "environment entries must be valid NUL-free strings")
      rejectIf (seen.contains (comparedName style name))
        (invalidSpec "environment contains duplicate variable names")
      checkEnvSet style (comparedName style name :: seen) rest

/-- The loop over `env.unset`. -/
def checkEnvUnset (style : RemotePathStyle) (seen : List String) :
    List String → Except LuaError Unit
  | [] => .ok ()
  | name :: rest => do
      rejectIf (!validEnvName name) (invalidSpec "env.unset names must be valid strings")
      rejectIf (seen.contains (comparedName style name))
        (invalidSpec "environment variable is both set and unset")
      checkEnvUnset style (comparedName style name :: seen) rest

/-- `table.sort` by compared names. -/
def sortNames {α : Type} (style : RemotePathStyle) (name : α → String) (values : List α) : List α :=
  values.mergeSort fun a b => !decide (comparedName style (name b) < comparedName style (name a))

def normalizeEnv (style : RemotePathStyle) (env : EnvOptions) : Except LuaError EnvOptions := do
  let seen ← checkEnvSet style [] env.set
  rejectIf (maxEnvChanges < env.set.length + env.unset.length)
    (invalidSpec "environment changes exceed the protocol limit")
  checkEnvUnset style seen env.unset
  return { env with unset := sortNames style id env.unset }

def boundedInteger (value : ℤ) (name : String) (minimum maximum : ℕ) : Except LuaError ℕ := do
  rejectIf (decide (value < minimum) || decide ((maximum : ℤ) < value))
    (invalidSpec (name ++ " must be an integer from " ++ toString minimum ++ " to " ++
    toString maximum))
  return value.toNat

/-- A value that may be left out. -/
def boundedOption (value : Option ℤ) (name : String) (maximum : ℕ) : Except LuaError (Option ℕ) :=
  match value with
  | none => .ok none
  | some value => (boundedInteger value name 1 maximum).map some

/-- Pixel sizes come in pairs. -/
def normalizePixels : Option ℤ → Option ℤ → Except LuaError (Option ℕ × Option ℕ)
  | none, none => .ok (none, none)
  | some width, some height => do
      let width ← boundedInteger width "initial_size.pixel_width" 0 maxTerminalPixels
      let height ← boundedInteger height "initial_size.pixel_height" 0 maxTerminalPixels
      return (some width, some height)
  | _, _ => .error (invalidSpec "initial_size pixel width and height must be provided together")

def normalizeInitialSize (size : Option SizeOptions) : Except LuaError TerminalSize := do
  let size := size.getD ⟨none, none, none, none⟩
  let cols ← boundedInteger (size.cols.getD 80) "initial_size.cols" 1 maxTerminalCells
  let rows ← boundedInteger (size.rows.getD 24) "initial_size.rows" 1 maxTerminalCells
  let (width, height) ← normalizePixels size.pixelWidth size.pixelHeight
  return ⟨cols, rows, width, height⟩

/-- The texts of a process, as they count for the frame. -/
def textBytes (command : Command) (cwd : String) (env : EnvOptions) : ℕ :=
  cwd.utf8ByteSize +
    (match command with
      | .argv arguments => (arguments.map String.utf8ByteSize).sum
      | .shell name => name.utf8ByteSize) +
    (env.set.map fun entry => entry.1.utf8ByteSize + entry.2.utf8ByteSize).sum +
    (env.unset.map String.utf8ByteSize).sum

/-- The output limit, which only pipes have. -/
def normalizeOutput (stdio : Stdio) (limit : Option ℤ) : Except LuaError (Option ℕ) :=
  match stdio with
  | .pty => do
      rejectIf limit.isSome (invalidSpec "max_output_bytes applies only to pipe processes")
      return none
  | .pipe =>
    (boundedInteger (limit.getD (4 * 1024 * 1024)) "max_output_bytes" 1 maxOutputBytes).map some

/-- The terminal size, which only terminals have. -/
def normalizeSize (stdio : Stdio) (size : Option SizeOptions) :
    Except LuaError (Option TerminalSize) :=
  match stdio with
  | .pty => (normalizeInitialSize size).map some
  | .pipe => .ok none

def normalizeProcessSpec (snapshot : Snapshot) (opts : ProcessOptions) :
    Except LuaError ProcessRequest := do
  let command ← normalizeCommand opts.command
  let cwd ← normalizeCwd snapshot opts.cwd
  let env ← normalizeEnv snapshot.pathStyle opts.env
  let stdio := opts.stdio.getD .pipe
  let persistence := opts.persistence.getD .attached
  rejectIf (persistence = .detached && stdio ≠ .pty)
    (invalidSpec "detached persistence requires stdio = 'pty'")
  rejectIf (opts.initialSize.isSome && stdio ≠ .pty)
    (invalidSpec "initial_size requires stdio = 'pty'")
  let maxOutputBytes ← normalizeOutput stdio opts.maxOutputBytes
  let timeoutMs ← boundedOption opts.timeoutMs "timeout_ms" maxTimeoutMs
  let initialSize ← normalizeSize stdio opts.initialSize
  rejectIf (maxProcessTextBytes < textBytes command cwd env)
    (invalidSpec "process text exceeds the runtime frame budget")
  return ⟨command, cwd, env, stdio, persistence, maxOutputBytes, timeoutMs, initialSize⟩

/-! ### Tickets -/

/-- The configuration of remote processes, which `setup` has checked. -/
structure RemoteRuntime where
  enabled : Bool
  detachedTtlMs : ℕ
  ttl_pos : 1 ≤ detachedTtlMs

def shellArgv (snapshot : Snapshot) : List String :=
  if snapshot.pathStyle = .windows || snapshot.shell =
      some "powershell" then ["powershell.exe", "-NoLogo"]
  else
    match snapshot.shell with
    | some shell =>
      if shell.toList.head? = some '/' && shell.utf8ByteSize ≤ 16 * 1024 &&
          !containsControl shell &&
          !(segmentsOf shell.toList).any isDots
      then [shell] else ["/bin/sh"]
    | none => ["/bin/sh"]

/-- A field of the host that a ticket may carry. -/
def plainField (value : String) : Bool :=
  value ≠ "" && value.utf8ByteSize ≤ 16 * 1024 && !containsControl value

/-- `REMOTE_HOST_TARGETS` -/
def knownTarget (os arch : String) : Bool :=
  (os = "linux" || os = "macos" || os = "windows") && (arch = "x86_64" || arch = "aarch64")

/-- `remote_host_hint`; `local_app_data` is `vim.NIL` where there is none -/
def remoteHostHint (snapshot : Snapshot) : Option RemoteHostInfo :=
  match snapshot.ssh, snapshot.remoteHost with
  | some _, some source =>
    if !([source.os, source.arch, source.shell, source.home, source.target].all plainField) then
        none
    else if !knownTarget source.os source.arch || source.target ≠
        hostTarget source.os source.arch then none
    else if source.pathStyle ≠ (if source.os = "windows" then .windows else .posix) then none
    else if source.os = "windows" then
      if source.shell = "powershell" && source.localAppData.any plainField then some source
      else none
    else if source.localAppData.isSome then none
    else some source
  | _, _ => none

/-- `ticket_config`: the agent and the timeouts -/
def ticketConfig (snapshot : Snapshot) : Except LuaError (String × ℕ × ℕ) := do
  let agent := if snapshot.ssh.isSome then snapshot.config.remoteAgent.getD "nrm-agent" else
    snapshot.config.agent
  rejectIf (agent = "") (invalidState "runtime agent executable is not configured")
  rejectIf (containsControl agent || agent.toList.head? = some '-')
    (invalidState "runtime agent executable is invalid")
  rejectIf (decide (snapshot.config.requestTimeoutMs < 1) ||
      decide ((maxRuntimeTimeoutMs : ℤ) < snapshot.config.requestTimeoutMs))
    (invalidState "runtime request timeout is invalid")
  rejectIf (decide (snapshot.config.sshConnectTimeoutSeconds < 1) ||
      decide ((maxSshConnectTimeoutSeconds : ℤ) < snapshot.config.sshConnectTimeoutSeconds))
    (invalidState "runtime SSH timeout is invalid")
  return (agent, snapshot.config.requestTimeoutMs.toNat,
    snapshot.config.sshConnectTimeoutSeconds.toNat)

def runtimeTicket (runtime : RemoteRuntime) (snapshot : Snapshot) (request : ProcessRequest) :
    Except LuaError RuntimeTicket := do
  rejectIf (!runtime.enabled) ⟨"runtime_disabled", "remote workspace process execution is disabled"⟩
  let supported :=
    if request.stdio = .pty then snapshot.support.terminal else snapshot.support.process
  rejectIf (snapshot.support.contractVersion ≠ 2 || !supported)
    ⟨"unsupported", "connected sidecar does not support the v2 private runtime bridge"⟩
  let workspaceKey := snapshot.workspaceKey.getD snapshot.workspaceId
  rejectIf (workspaceKey.utf8ByteSize ≠ 24 || !workspaceKey.toList.all keyChar)
    (invalidState "runtime workspace key is invalid")
  let remoteRoot ← okOr (snapshot.authorityRoot.bind optionalString)
    (invalidState "runtime workspace root is unavailable")
  let (agent, requestTimeoutMs, sshConnectTimeoutSeconds) ← ticketConfig snapshot
  return {
    schemaVersion := 1
    workspaceKey := workspaceKey
    remoteRoot := remoteRoot
    ssh := snapshot.ssh
    agent := agent
    sshConnectTimeoutSeconds := sshConnectTimeoutSeconds
    requestTimeoutMs := requestTimeoutMs
    capability := if request.stdio = .pty then .processPtyV1 else .processPipeV1
    remoteHost := remoteHostHint snapshot
    spec := {
      argv := match request.command with
        | .argv arguments => arguments
        | .shell _ => shellArgv snapshot
      cwd := if request.cwd = "" then .workspaceRoot else .workspaceRelative request.cwd
      env := {
        clear := request.env.clear
        set := (sortNames snapshot.pathStyle Prod.fst request.env.set).map fun entry =>
          ⟨entry.1, entry.2⟩
        unset := request.env.unset }
      persistence :=
        if request.persistence = .attached then .attached else .detachable runtime.detachedTtlMs
      terminalSize := request.initialSize
      timeoutMs := request.timeoutMs
      maxOutputBytes := request.maxOutputBytes } }

/-- A process of the workspace the editor is connected to, as a ticket. -/
def ticketFor (runtime : RemoteRuntime) (hello : Hello) (targetArg : String)
    (relativePath : Option String)
    (support : RuntimeSupport) (config : RuntimeConfig) (opts : ProcessOptions) :
    Except LuaError RuntimeTicket := do
  let snapshot ← descriptorFor workspaceHash hello targetArg relativePath support config
  let request ← normalizeProcessSpec snapshot opts
  runtimeTicket runtime snapshot request

end Editor

end RemoteMirror.Ticket
