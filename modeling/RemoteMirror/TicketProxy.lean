/-
**Runtime tickets, as the proxy checks them.**

The editor starts remote processes through a proxy, which it hands a ticket: the workspace with its
key, root and host, the agent, and the process.  The proxy derives the key again from the root and
checks the rest (`validate_ticket` in `crates/nrm-sidecar/src/runtime_proxy.rs`).  The key, the root
and the host come from the sidecar, which has made the same checks when it launched the agent
(`serve`).

Texts are valid UTF-8.  `blake3` is a parameter, and so is whether the sidecar runs on Windows.

Main definitions:

* `Ticket.RemoteHostInfo`, `Ticket.validateRemoteHostInfo`, `Ticket.Detected` — hosts, and those
  that are detected;
* `Ticket.RemoteTransport`, `Ticket.normalizeRemoteRoot`, `Ticket.validateRemoteRoot`,
  `Ticket.workspaceKey`;
* `Ticket.serve`, `Ticket.Hello` — what the sidecar accepts and reports;
* `Ticket.RuntimeTicket`, `Ticket.validateTicket`.
-/

import RemoteMirror.RuntimeMachine
import RemoteMirror.TextSlice

namespace RemoteMirror.Ticket

open Checks
open RemoteMirror.Runtime (RuntimeCapability RuntimeProcessSpec RuntimeStateError
  RuntimeStateMachine isControl
  packageVersion protocolVersion)
open TextSlice (isWhitespace)

/-! ### Hosts -/

inductive RemotePathStyle
  | posix
  | windows
  deriving DecidableEq, Repr

structure RemoteHostInfo where
  os : String
  arch : String
  shell : String
  home : String
  localAppData : Option String
  pathStyle : RemotePathStyle
  target : String
  deriving DecidableEq, Repr

def remoteHostPathMaxBytes : ℕ := 16 * 1024

def posixShellPathMaxBytes : ℕ := 4096

/-- `.` or `..` -/
def isDots (segment : List Char) : Bool := segment = ['.'] || segment = ['.', '.']

def rejectFieldControls (name value : String) : Except String Unit :=
  rejectIf (value.isEmpty || value.toList.any isControl)
    (name ++ " must not be empty or contain control characters")

def validateCanonicalPosixPath (name value : String) : Except String Unit := do
  rejectFieldControls name value
  rejectIf (remoteHostPathMaxBytes < value.utf8ByteSize || value.toList.head? ≠ some '/')
    (name ++ " must be a bounded absolute POSIX path")
  rejectIf (value ≠ "/" && value.toList.getLast? = some '/')
    (name ++ " must not have a trailing separator")
  rejectIf (1 < value.utf8ByteSize &&
      ((value.toList.drop 1).splitOn '/').any fun component => component.isEmpty ||
      isDots component)
    (name ++ " must be a canonical POSIX path")

/-- The characters of an executable path that need no quoting. -/
def safeExecutableChar (c : Char) : Bool :=
  c.isAlphanum || c = '/' || c = '.' || c = '_' || c = '+' || c = '-'

def validateCanonicalPosixExecutable (name value : String) : Except String Unit := do
  validateCanonicalPosixPath name value
  rejectIf (!value.toList.all safeExecutableChar)
    (name ++ " contains characters outside the safe executable-path set")

/-- The first three bytes are ASCII, so they are the first three characters. -/
def validateCanonicalWindowsPath (name value : String) : Except String Unit := do
  rejectFieldControls name value
  rejectIf (remoteHostPathMaxBytes < value.utf8ByteSize || value.utf8ByteSize < 3)
    (name ++ " must be a bounded absolute Windows path")
  match value.toList with
  | drive :: colon :: separator :: rest => do
      rejectIf (!drive.isUpper || colon ≠ ':' || !(separator = '/' || separator = '\\'))
        (name ++ " must use an absolute local drive root")
      let otherSeparator := if separator = '/' then '\\' else '/'
      rejectIf (value.toList.contains otherSeparator)
        (name ++ " must use one canonical separator style")
      rejectIf (!rest.isEmpty && value.toList.getLast? = some separator)
        (name ++ " must not have a trailing separator")
      rejectIf (!rest.isEmpty && (rest.splitOn separator).any fun component => component.isEmpty ||
        isDots component)
        (name ++ " must be a canonical Windows path")
  | _ => .error (name ++ " must use an absolute local drive root")

/-- `to_ascii_lowercase` -/
def asciiLowercase (text : String) : String := String.ofList (text.toList.map Char.toLower)

def hostOs (os : String) : Except String String :=
  let other := asciiLowercase os
  if other = "linux" then .ok "linux"
  else if other = "darwin" || other = "macos" then .ok "macos"
  else if other = "windows" || other = "windows_nt" then .ok "windows"
  else .error ("unsupported remote operating system `" ++ other ++ "`")

def hostArch (arch : String) : Except String String :=
  let other := asciiLowercase arch
  if other = "x86_64" || other = "amd64" then .ok "x86_64"
  else if other = "aarch64" || other = "arm64" then .ok "aarch64"
  else .error ("unsupported remote architecture `" ++ other ++ "`")

/-- The target of a pair that was looked up by `hostOs` and `hostArch`. -/
def hostTarget (os arch : String) : String :=
  if os = "linux" then (if arch = "x86_64" then "x86_64-unknown-linux-musl" else
      "aarch64-unknown-linux-musl")
  else if os = "macos" then (if arch = "x86_64" then "x86_64-apple-darwin" else
      "aarch64-apple-darwin")
  else if arch = "x86_64" then "x86_64-pc-windows-msvc" else "aarch64-pc-windows-msvc"

/-- The home directory, and on Windows the directory for application data. -/
def validateHostPaths (home : String) (localAppData : Option String) :
    RemotePathStyle → Except String Unit
  | .posix => validateCanonicalPosixPath "home" home
  | .windows => do
      validateCanonicalWindowsPath "home" home
      match localAppData with
      | some localAppData => validateCanonicalWindowsPath "local_app_data" localAppData
      | none => pure ()

def buildHostInfo (os arch shell home : String) (localAppData : Option String)
    (pathStyle : RemotePathStyle) : Except String RemoteHostInfo := do
  let os ← hostOs os
  let arch ← hostArch arch
  rejectFieldControls "shell" shell
  rejectFieldControls "home" home
  match localAppData with
  | some localAppData => rejectFieldControls "local_app_data" localAppData
  | none => pure ()
  validateHostPaths home localAppData pathStyle
  return ⟨os, arch, shell, home, localAppData, pathStyle, hostTarget os arch⟩

def validateRemoteHostInfo (info : RemoteHostInfo) : Except String Unit := do
  let expectedStyle := if info.os = "windows" then RemotePathStyle.windows else .posix
  rejectIf (info.pathStyle ≠ expectedStyle)
    "remote host path style does not match its operating system"
  rejectIf (decide (info.pathStyle = .windows) != info.localAppData.isSome)
    "remote host local app-data metadata does not match its platform"
  rejectIf (info.shell.isEmpty || info.shell.toList.any isControl)
    "remote host shell must not be empty or contain control characters"
  rejectIf (info.pathStyle = .windows && info.shell ≠ "powershell")
    "Windows remote host must use the PowerShell planner"
  match info.pathStyle with
  | .posix => do
      validateCanonicalPosixPath "remote host home" info.home
      validateCanonicalPosixExecutable "remote host shell" info.shell
  | .windows => do
      validateCanonicalWindowsPath "remote host home" info.home
      let localAppData ← okOr info.localAppData "Windows remote host has no local app-data path"
      validateCanonicalWindowsPath "remote host local app-data" localAppData
  let rebuilt ← buildHostInfo info.os info.arch info.shell info.home info.localAppData
    info.pathStyle
  rejectIf (rebuilt ≠ info) "remote host metadata is not canonical"

/-! ### Detecting a host -/

def isSafePosixShellPath (shell : String) : Bool :=
  !(shell.utf8ByteSize < 2 || posixShellPathMaxBytes < shell.utf8ByteSize ||
    shell.toList.head? ≠ some '/' ||
      !shell.toList.all safeExecutableChar) &&
    ((shell.toList.drop 1).splitOn '/').all fun component => !component.isEmpty && !isDots component

/-- `parse_posix_probe` of `remote_host.rs`, on the fields of the probe. -/
def parseLegacyPosixProbe (magic os arch home : String) : Except String RemoteHostInfo := do
  rejectIf ([magic, os, arch, home].any fun field => field.toList.any isControl)
    "host probe response contains control characters"
  rejectIf (magic ≠ "NRM_HOST_INFO_V1") "POSIX host probe returned an invalid response"
  rejectIf (home.isEmpty || home.toList.head? ≠ some '/')
    "POSIX host probe returned an invalid home directory"
  buildHostInfo os arch "sh" home none .posix

/-- The shell of the account, if it can be used. -/
def accountShell (shell : Option String) : String :=
  (shell.filter isSafePosixShellPath).getD "/bin/sh"

/-- `parse_posix_probe`: the lines of the probe, of which the fifth may be missing. -/
def parsePosixProbe : List String → Except String RemoteHostInfo
  | [magic, os, arch, home] => do
      let host ← parseLegacyPosixProbe magic os arch home
      return { host with shell := accountShell none }
  | [magic, os, arch, home, shell] => do
      let host ← parseLegacyPosixProbe magic os arch home
      return { host with shell := accountShell (some shell) }
  | _ => .error "POSIX host probe returned an invalid response"

structure PowerShellProbe where
  schemaVersion : ℕ
  os : String
  arch : String
  shell : String
  home : String
  localAppData : String
  pathStyle : String
  deriving DecidableEq, Repr

/-- `parse_powershell_probe`, of an answer that is JSON of the right form -/
def parsePowershellProbe (probe : PowerShellProbe) : Except String RemoteHostInfo := do
  rejectIf (probe.schemaVersion ≠ 1 || asciiLowercase probe.os ≠ "windows" ||
      asciiLowercase probe.shell ≠ "powershell" || asciiLowercase probe.pathStyle ≠ "windows")
    "PowerShell host probe returned incompatible platform metadata"
  rejectIf (probe.home.isEmpty || probe.localAppData.isEmpty)
    "PowerShell host probe returned an empty required directory"
  rejectFieldControls "home" probe.home
  rejectFieldControls "local_app_data" probe.localAppData
  buildHostInfo "windows" probe.arch "powershell" probe.home (some probe.localAppData) .windows

/-- What the sidecar finds about the host it runs on. -/
structure LocalEnvironment where
  os : String
  arch : String
  home : Option String
  localAppData : Option String
  shell : Option String

/-- The shell of the user, if it can be used. -/
def localShell (windows : Bool) (shell : Option String) : String :=
  if windows then "powershell"
  else (shell.filter fun shell =>
    (validateCanonicalPosixExecutable "local shell" shell).toOption.isSome).getD "/bin/sh"

def localHostInfo (windows : Bool) (env : LocalEnvironment) : Except String RemoteHostInfo := do
  let home ← okOr env.home "local home directory is not available"
  if windows then do
    let localAppData ← okOr env.localAppData "LOCALAPPDATA is not available"
    buildHostInfo env.os env.arch (localShell windows env.shell) home (some localAppData) .windows
  else buildHostInfo env.os env.arch (localShell windows env.shell) home none .posix

/-! ### Transports and roots -/

structure SshTransport where
  target : String
  connectTimeoutSeconds : ℕ
  deriving DecidableEq, Repr

inductive RemoteTransport
  | localHost
  | ssh (transport : SshTransport)
  deriving DecidableEq, Repr

/-- The characters of user and host names. -/
def hostNameChar (c : Char) : Bool := c.isAlphanum || c = '.' || c = '_' || c = '-'

/-- The host of an ssh destination. -/
def validateSshHost (host : List Char) : Except String Unit := do
  rejectIf (host.isEmpty || host.head? = some '-') "ssh destination contains an invalid host name"
  if host.head? = some '[' || host.getLast? = some ']' then do
    rejectIf (!(host.head? = some '[' && host.getLast? = some ']') || host.length ≤ 2)
      "ssh destination contains an invalid bracketed host"
    rejectIf (!(host.drop 1).dropLast.all fun c => hostNameChar c || c = ':' || c = '%')
      "ssh destination contains an invalid bracketed host"
  else rejectIf (!host.all hostNameChar) "ssh destination contains an invalid host name"

def validateSshDestination (destination : String) : Except String Unit := do
  let text := destination.toList
  rejectIf text.isEmpty "ssh destination must not be empty"
  rejectIf (text.head? = some '-') "ssh destination must not begin with `-`"
  rejectIf (text.any fun c => isWhitespace c || isControl c)
    "ssh destination must not contain whitespace or control characters"
  rejectIf (text.contains '/' || text.contains '\\')
    "ssh destination must not contain path separators"
  match text.splitOn '@' with
  | [host] => validateSshHost host
  | [user, host] => do
      rejectIf (user.isEmpty || !user.all hostNameChar)
        "ssh destination contains an invalid user name"
      validateSshHost host
  | _ => .error "ssh destination must contain at most one `@`"

def RemoteTransport.fromSsh (ssh : Option String) (connectTimeoutSeconds : ℕ) :
    Except String RemoteTransport :=
  match ssh with
  | some target => do
      validateSshDestination target
      return .ssh ⟨target, connectTimeoutSeconds⟩
  | none => .ok .localHost

def RemoteTransport.workspaceIdentity : RemoteTransport → String
  | .localHost => "local"
  | .ssh transport => transport.target

/-- A drive letter is written in upper case. -/
def upperDrive : List Char → List Char
  | drive :: ':' :: '/' :: rest => if drive.isAlpha then drive.toUpper :: ':' :: '/' :: rest
      else drive :: ':' :: '/' :: rest
  | path => path

def normalizeRemoteRoot (transport : RemoteTransport) (remoteRoot : String) :
    Except String String :=
  match transport with
  | .localHost => .ok remoteRoot
  | .ssh _ => do
      rejectIf (remoteRoot.toList.any isControl)
        "SSH remote root must not contain control characters"
      return String.ofList (upperDrive remoteRoot.toList)

def validateRemoteRoot (host : RemoteHostInfo) (root : String) : Except String Unit := do
  let text := root.toList
  rejectFieldControls "remote root" root
  rejectIf (['/', '/'].isPrefixOf text || ['\\', '\\'].isPrefixOf text ||
    ['/', '\\'].isPrefixOf text)
    "remote root must not use a UNC path"
  match host.pathStyle with
  | .posix => do
      rejectIf (text.head? ≠ some '/') "POSIX remote root must be absolute"
      rejectIf (decide (['/', '/'] <:+: text.drop 1))
        "POSIX remote root must not contain empty segments"
      rejectIf ((text.splitOn '/').any isDots) "POSIX remote root must not contain dot segments"
  | .windows => do
      match text with
      | drive :: ':' :: '/' :: rest => do
          rejectIf (!drive.isUpper)
            "Windows remote root must use an absolute drive path such as B:/repo"
          rejectIf (text.contains '\\') "Windows remote root must use forward slashes"
          rejectIf (rest.head? = some '/' || decide (['/', '/'] <:+: rest))
            "Windows remote root must not contain empty segments"
          forEach (fun segment => do
            rejectIf (isDots segment) "Windows remote root must not contain dot segments"
            rejectIf (segment.contains ':')
              "Windows remote root must not contain alternate data streams"
            rejectIf (segment.getLast? = some '.' || segment.getLast? = some ' ')
              "Windows remote root segments must not end in a dot or space")
            ((rest.splitOn '/').filter fun segment => !segment.isEmpty)
      | _ => .error "Windows remote root must use an absolute drive path such as B:/repo"

/-! ### Agents -/

def remoteAgentUsesManagedPath (agent : String) : Bool :=
  !(agent.toList.contains '/' || agent.toList.contains '\\' || agent.toList.contains ':')

def validateManagedRemoteAgentName (agent : String) : Except String Unit :=
  rejectIf (agent.isEmpty || isDots agent.toList || agent.toList.head? = some '-' ||
    !agent.toList.all hostNameChar)
    "remote_agent must be an absolute path or a safe bare command name"

/-- The components of a Windows path behind its drive. -/
def validateWindowsComponents (separator : Char) (rest : List Char) : Except String Unit :=
  forEach (fun component => rejectIf
    (component.contains ':' || component.getLast? = some '.' || component.getLast? = some ' ' ||
      component.any fun c => c = '<' || c = '>' || c = '"' || c = '|' || c = '?' || c = '*')
    "remote_agent executable contains an invalid Windows path segment") (rest.splitOn separator)

def validateRemoteAgentReferenceForStyle (agent : String) (pathStyle : RemotePathStyle) :
    Except String Unit :=
  if remoteAgentUsesManagedPath agent then validateManagedRemoteAgentName agent
  else do
    rejectIf (agent.isEmpty || agent.toList.any isControl || agent.toList.head? = some '-')
      "remote_agent executable path is invalid"
    match pathStyle with
    | .posix => do
        validateCanonicalPosixExecutable "remote_agent executable" agent
        rejectIf (agent = "/") "remote_agent executable must name a file"
    | .windows => do
        validateCanonicalWindowsPath "remote_agent executable" agent
        rejectIf (agent.utf8ByteSize = 3) "remote_agent executable must name a file"
        match agent.toList with
        | _ :: _ :: separator :: rest => validateWindowsComponents separator rest
        | _ => pure ()

def validateRemoteAgentReference (agent : String) (host : RemoteHostInfo) : Except String Unit :=
  validateRemoteAgentReferenceForStyle agent host.pathStyle

def validateUnresolvedRemoteAgentReference (agent : String) : Except String Unit :=
  if remoteAgentUsesManagedPath agent then validateManagedRemoteAgentName agent
  else validateRemoteAgentReferenceForStyle agent (if agent.toList.head? =
    some '/' then .posix else .windows)

/-! ### The sidecar -/

def hexDigit (n : ℕ) : Char := if n < 10 then Char.ofNat (48 + n) else Char.ofNat (87 + n)

def toHex (bytes : List UInt8) : List Char :=
  bytes.flatMap fun byte => [hexDigit (byte.toNat / 16), hexDigit (byte.toNat % 16)]

section Keys

variable (blake3 : List UInt8 → Vector UInt8 32)

def workspaceKey (transport : RemoteTransport) (remoteRoot : String) : String :=
  String.ofList ((toHex (blake3 (TextSlice.utf8 transport.workspaceIdentity.toList ++ 0 ::
    TextSlice.utf8 remoteRoot.toList)).toList).take 24)

/-- What the sidecar says about its workspace. -/
structure Hello where
  workspaceKey : String
  remoteRoot : String
  filesRoot : String
  remoteHost : Option RemoteHostInfo
  deriving DecidableEq, Repr

/-- A workspace as the editor asks for it. -/
structure Target where
  ssh : Option String
  remoteRoot : String
  deriving DecidableEq, Repr

/-- The sidecar takes a workspace and launches its agent; `cached` says that it still knows the
host. -/
def serve (target : Target) (agent filesRoot : String) (connectTimeoutSeconds : ℕ)
    (host : RemoteHostInfo) (cached : Bool) : Except String (RemoteTransport × Hello) := do
  let transport ← RemoteTransport.fromSsh target.ssh connectTimeoutSeconds
  let remoteRoot ← normalizeRemoteRoot transport target.remoteRoot
  validateRemoteAgentReference agent host
  match transport with
  | .localHost => pure ()
  | .ssh _ => validateRemoteRoot host remoteRoot
  return (transport, ⟨workspaceKey blake3 transport remoteRoot, remoteRoot, filesRoot,
    if cached then some host else none⟩)

/-- The hosts the sidecar can detect behind a transport. -/
inductive Detected (windows : Bool) : RemoteTransport → RemoteHostInfo → Prop
  | here {env : LocalEnvironment} {host : RemoteHostInfo}
    (h : localHostInfo windows env = .ok host) :
      Detected windows .localHost host
  | posix {ssh : SshTransport} {fields : List String} {host : RemoteHostInfo}
      (h : parsePosixProbe fields = .ok host) : Detected windows (.ssh ssh) host
  | powershell {ssh : SshTransport} {probe : PowerShellProbe} {host : RemoteHostInfo}
      (h : parsePowershellProbe probe = .ok host) : Detected windows (.ssh ssh) host

/-! ### Tickets -/

structure RuntimeTicket where
  schemaVersion : ℕ
  workspaceKey : String
  remoteRoot : String
  ssh : Option String
  agent : String
  sshConnectTimeoutSeconds : ℕ
  requestTimeoutMs : ℕ
  capability : RuntimeCapability
  spec : RuntimeProcessSpec
  remoteHost : Option RemoteHostInfo
  deriving DecidableEq, Repr

def ticketSchemaVersion : ℕ := 1

def maxSshConnectTimeoutSeconds : ℕ := 3600

def maxRuntimeTimeoutMs : ℕ := 24 * 60 * 60 * 1000

inductive TicketError
  | text (message : String)
  | state (error : RuntimeStateError)
  deriving DecidableEq, Repr

/-- A check of the sidecar, as part of a check of a ticket. -/
def checked {α : Type} (result : Except String α) : Except TicketError α := result.mapError .text

def keyChar (c : Char) : Bool := c.isDigit || ('a' ≤ c && c ≤ 'f')

/-- The host metadata and the agent fit the transport. -/
def validateTicketHost (windows : Bool) (ticket : RuntimeTicket) (remoteRoot : String) :
    RemoteTransport → Option RemoteHostInfo → Except String Unit
  | .localHost, some _ => .error "local runtime ticket must not include remote host metadata"
  | .localHost, none =>
    validateRemoteAgentReferenceForStyle ticket.agent (if windows then .windows else .posix)
  | .ssh _, some host => do
      validateRemoteHostInfo host
      validateRemoteRoot host remoteRoot
      validateRemoteAgentReference ticket.agent host
  | .ssh _, none => validateUnresolvedRemoteAgentReference ticket.agent

/-- The process is one that the protocol allows to start. -/
def validateTicketProcess (capability : RuntimeCapability) (spec : RuntimeProcessSpec) :
    Except RuntimeStateError Unit := do
  let machine := RuntimeStateMachine.new .client ⟨true, true, false⟩
  let machine ← machine.observeOutbound (.clientHello packageVersion protocolVersion capability)
  let machine ← machine.observeInbound (.serverHello packageVersion protocolVersion capability)
  let _ ← machine.observeOutbound (.startProcess 1 spec)
  return ()

def validateTicket (windows : Bool) (ticket : RuntimeTicket) : Except TicketError Unit := do
  rejectIf (ticket.schemaVersion ≠ ticketSchemaVersion)
    (.text ("unsupported runtime ticket schema version " ++ toString ticket.schemaVersion))
  rejectIf (ticket.workspaceKey.utf8ByteSize ≠ 24 || !ticket.workspaceKey.toList.all keyChar)
    (.text "runtime ticket workspace key is invalid")
  rejectIf (ticket.sshConnectTimeoutSeconds = 0 || maxSshConnectTimeoutSeconds <
    ticket.sshConnectTimeoutSeconds)
    (.text "runtime ticket SSH connect timeout must be from 1 to 3600 seconds")
  rejectIf (ticket.requestTimeoutMs = 0 || maxRuntimeTimeoutMs < ticket.requestTimeoutMs)
    (.text "runtime ticket request timeout must be from 1 to 86400000 milliseconds")
  rejectIf (ticket.capability = .workspaceWatchV1)
    (.text "runtime process ticket cannot request workspace-watch capability")
  let transport ← checked (RemoteTransport.fromSsh ticket.ssh ticket.sshConnectTimeoutSeconds)
  let remoteRoot ← checked (normalizeRemoteRoot transport ticket.remoteRoot)
  checked (validateTicketHost windows ticket remoteRoot transport ticket.remoteHost)
  rejectIf (ticket.workspaceKey ≠ workspaceKey blake3 transport remoteRoot)
    (.text "runtime ticket does not belong to the requested workspace")
  (validateTicketProcess ticket.capability ticket.spec).mapError .state

end Keys

end RemoteMirror.Ticket
