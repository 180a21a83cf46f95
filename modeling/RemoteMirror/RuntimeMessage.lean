/-
**The messages of the runtime protocol and their validation.**

`crates/nrm-protocol/src/runtime.rs` defines the messages a runtime client and the agent exchange
over one framed connection: the two hellos, starting or attaching a process, its input and output
with byte offsets, and a workspace watch with event sequence numbers.  Every message is validated
before it is sent and after it is received (`RuntimeMessage::validate`), independently of the state
of the connection.

Offsets, sequence numbers and identifiers are natural numbers; where the source adds with
`checked_add` the sum is compared with the range of a 64-bit word (`checkedAdd`).  Text is measured
in UTF-8 bytes, as `str::len` does.

Main definitions:

* `Runtime.RuntimeMessage` — the messages;
* `Runtime.RuntimeMessage.sender` — the party each message belongs to;
* `Runtime.RuntimeMessage.validate` — the state-independent checks, with the error
  each of them reports.
-/

import RemoteMirror.Checks

namespace RemoteMirror.Runtime

open Checks

/-! ### Constants -/

/-- `env!("CARGO_PKG_VERSION")`, the workspace version all crates share. -/
def packageVersion : String := "0.2.0"

def protocolVersion : ℕ := 8

def runtimeMaxDataChunkLen : ℕ := 64 * 1024

def runtimeMaxWatchEvents : ℕ := 4096

def runtimeMaxArgv : ℕ := 1024

def runtimeMaxEnvChanges : ℕ := 2048

def runtimeMaxPathBytes : ℕ := 16 * 1024

def runtimeMaxErrorMessageBytes : ℕ := 8 * 1024

def runtimeMaxPackageVersionBytes : ℕ := 128

/-- `u64::checked_add` -/
def checkedAdd (a b : ℕ) : Option ℕ := if a + b < 2 ^ 64 then some (a + b) else none

theorem eq_of_checkedAdd {a b c : ℕ} (h : checkedAdd a b = some c) : c = a + b ∧ c < 2 ^ 64 := by
  obtain ⟨hlt, ⟨⟩⟩ := Option.ite_none_right_eq_some.1 h
  exact ⟨rfl, hlt⟩

theorem le_of_checkedAdd {a b c : ℕ} (h : checkedAdd a b = some c) : a ≤ c :=
  (eq_of_checkedAdd h).1 ▸ Nat.le_add_right a b

/-! ### Message data -/

inductive RuntimeCapability
  | processPipeV1
  | processPtyV1
  | workspaceWatchV1
  deriving DecidableEq, Repr

inductive RuntimePeerRole
  | client
  | server
  deriving DecidableEq, Repr

inductive RuntimeOutputStream
  | stdout
  | stderr
  | pty
  deriving DecidableEq, Repr

inductive RuntimeSignal
  | interrupt
  | terminate
  | kill
  | hangup
  deriving DecidableEq, Repr

inductive RuntimePersistence
  | attached
  | detachable (ttlMs : ℕ)
  deriving DecidableEq, Repr

structure TerminalSize where
  columns : ℕ
  rows : ℕ
  pixelWidth : Option ℕ
  pixelHeight : Option ℕ
  deriving DecidableEq, Repr

structure RuntimeEnvVar where
  name : String
  value : String
  deriving DecidableEq, Repr

structure RuntimeEnvironment where
  clear : Bool
  set : List RuntimeEnvVar
  unset : List String
  deriving DecidableEq, Repr

inductive RuntimeCwd
  | workspaceRoot
  | workspaceRelative (path : String)
  deriving DecidableEq, Repr

structure RuntimeProcessSpec where
  argv : List String
  cwd : RuntimeCwd
  env : RuntimeEnvironment
  persistence : RuntimePersistence
  terminalSize : Option TerminalSize
  timeoutMs : Option ℕ
  maxOutputBytes : Option ℕ
  deriving DecidableEq, Repr

/-- `PtySessionId`, `[u8; 16]` -/
abbrev PtySessionId : Type := Vector UInt8 16

/-- `PtyAttachmentToken`, `[u8; 32]` -/
abbrev PtyAttachmentToken : Type := Vector UInt8 32

structure PtySessionCredentials where
  sessionId : PtySessionId
  attachmentToken : PtyAttachmentToken
  deriving DecidableEq, Repr

inductive RuntimeExitStatus
  | code (code : ℤ)
  | signal (signal : ℕ)
  | timedOut
  | outputLimit
  | cancelled
  deriving DecidableEq, Repr

inductive WorkspaceWatchEventKind
  | created
  | modified
  | removed
  | renamed (toPath : String)
  deriving DecidableEq, Repr

structure WorkspaceWatchEvent where
  path : String
  kind : WorkspaceWatchEventKind
  isDir : Bool
  deriving DecidableEq, Repr

inductive RuntimeErrorCode
  | protocol
  | unsupported
  | invalidRequest
  | spawnFailed
  | sessionNotFound
  | sessionInUse
  | unauthorized
  | wrongWorkspace
  | historyLost
  | resourceLimit
  | persistenceUnavailable
  | permissionDenied
  | internal
  deriving DecidableEq, Repr

structure RuntimeError where
  code : RuntimeErrorCode
  message : String
  retryable : Bool
  deriving DecidableEq, Repr

/-- The messages of one runtime connection. -/
inductive RuntimeMessage
  | clientHello (packageVersion : String) (protocolVersion : ℕ) (capability : RuntimeCapability)
  | serverHello (packageVersion : String) (protocolVersion : ℕ) (capability : RuntimeCapability)
  | error (error : RuntimeError)
  | startProcess (requestId : ℕ) (spec : RuntimeProcessSpec)
  | processStarted (requestId processId : ℕ) (session : Option PtySessionCredentials)
      (outputOffset : ℕ)
  | attachPty (requestId : ℕ) (credentials : PtySessionCredentials) (replayFrom : Option ℕ)
  | ptyAttached (requestId processId : ℕ) (sessionId : PtySessionId) (outputOffset : ℕ)
  | input (processId offset : ℕ) (data : List UInt8)
  | inputAck (processId nextOffset : ℕ)
  | closeInput (processId nextOffset : ℕ)
  | output (processId : ℕ) (stream : RuntimeOutputStream) (offset : ℕ) (data : List UInt8)
  | outputAck (processId : ℕ) (stream : RuntimeOutputStream) (nextOffset : ℕ)
  | outputGap (processId requestedOffset availableOffset : ℕ) (screenSnapshot : List UInt8)
  | resize (processId : ℕ) (size : TerminalSize)
  | signal (processId : ℕ) (signal : RuntimeSignal)
  | detach (processId : ℕ)
  | detached (processId : ℕ) (sessionId : PtySessionId)
  | exited (processId : ℕ) (status : RuntimeExitStatus) (outputTruncated : Bool)
  | watchStart (requestId : ℕ) (resumeFrom : Option ℕ)
  | watchStarted (requestId watchId nextSequence : ℕ)
  | watchEvents (watchId sequence : ℕ) (events : List WorkspaceWatchEvent)
  | watchAck (watchId nextSequence : ℕ)
  | watchOverflow (watchId sequence nextSequence : ℕ)
  | watchStop (watchId : ℕ)
  | watchStopped (watchId : ℕ)
  deriving DecidableEq, Repr

namespace RuntimeMessage

/-- The party that sends a message. -/
def sender : RuntimeMessage → RuntimePeerRole
  | .clientHello .. | .startProcess .. | .attachPty .. | .input .. | .closeInput ..
  | .outputAck .. | .resize .. | .signal .. | .detach .. | .watchStart .. | .watchAck ..
  | .watchStop .. => .client
  | .serverHello .. | .error .. | .processStarted .. | .ptyAttached .. | .inputAck ..
  | .output .. | .outputGap .. | .detached .. | .exited .. | .watchStarted ..
  | .watchEvents .. | .watchOverflow .. | .watchStopped .. => .server

/-- The name a message has in errors. -/
def name : RuntimeMessage → String
  | .clientHello .. => "client_hello"
  | .serverHello .. => "server_hello"
  | .error .. => "error"
  | .startProcess .. => "start_process"
  | .processStarted .. => "process_started"
  | .attachPty .. => "attach_pty"
  | .ptyAttached .. => "pty_attached"
  | .input .. => "input"
  | .inputAck .. => "input_ack"
  | .closeInput .. => "close_input"
  | .output .. => "output"
  | .outputAck .. => "output_ack"
  | .outputGap .. => "output_gap"
  | .resize .. => "resize"
  | .signal .. => "signal"
  | .detach .. => "detach"
  | .detached .. => "detached"
  | .exited .. => "exited"
  | .watchStart .. => "watch_start"
  | .watchStarted .. => "watch_started"
  | .watchEvents .. => "watch_events"
  | .watchAck .. => "watch_ack"
  | .watchOverflow .. => "watch_overflow"
  | .watchStop .. => "watch_stop"
  | .watchStopped .. => "watch_stopped"

end RuntimeMessage

/-! ### Validation -/

inductive RuntimeValidationError
  | emptyDataChunk
  | dataChunkTooLarge (len : ℕ)
  | dataOffsetOverflow
  | emptyPackageVersion
  | packageVersionTooLarge (len : ℕ)
  | emptyArgv
  | tooManyArguments (count : ℕ)
  | tooManyEnvironmentChanges (count : ℕ)
  | emptyEnvironmentName
  | invalidEnvironmentName
  | duplicateEnvironmentName (name : String)
  | containsNul (what : String)
  | containsControl (what : String)
  | emptyWorkspacePath
  | workspacePathTooLarge (len : ℕ)
  | invalidWorkspacePath
  | invalidTerminalSize
  | incompleteTerminalPixelSize
  | zeroDetachTtl
  | zeroSessionCredential (what : String)
  | errorMessageTooLarge (len : ℕ)
  | emptyWatchBatch
  | tooManyWatchEvents (count : ℕ)
  | invalidWatchOverflow
  | invalidOutputGap
  deriving DecidableEq, Repr

/-- A check that yields nothing but its error. -/
abbrev Validation : Type := Except RuntimeValidationError Unit

def rejectNul (what value : String) : Validation :=
  rejectIf (value.toList.contains '\x00') (.containsNul what)

/-- `char::is_control`: the general category Cc. -/
def isControl (c : Char) : Bool := c.toNat ≤ 0x1F || (0x7F ≤ c.toNat && c.toNat ≤ 0x9F)

def rejectControl (what value : String) : Validation :=
  rejectIf (value.toList.any isControl) (.containsControl what)

def validatePackageVersion (packageVersion : String) : Validation := do
  rejectIf packageVersion.isEmpty .emptyPackageVersion
  rejectIf (runtimeMaxPackageVersionBytes < packageVersion.utf8ByteSize)
    (.packageVersionTooLarge packageVersion.utf8ByteSize)
  rejectNul "runtime package version" packageVersion

def validateWorkspacePath (path : String) : Validation := do
  rejectIf path.isEmpty .emptyWorkspacePath
  rejectIf (runtimeMaxPathBytes < path.utf8ByteSize) (.workspacePathTooLarge path.utf8ByteSize)
  rejectIf
    (path.toList.contains '\x00' || path.toList.head? == some '/' ||
      path.toList.head? == some '\\' || path.toList.contains '\\' ||
      (path.toList.splitOn '/').any fun part => part.isEmpty || part == ['.'] || part == ['.', '.'])
    .invalidWorkspacePath

def validateEnvName (name : String) : Validation := do
  rejectIf name.isEmpty .emptyEnvironmentName
  rejectNul "environment name" name
  rejectIf (name.toList.contains '=') .invalidEnvironmentName

/-- The loop over the variables to set; `names` are the names seen so far. -/
def validateEnvSet (names : List String) :
    List RuntimeEnvVar → Except RuntimeValidationError (List String)
  | [] => .ok names
  | envVar :: rest => do
      validateEnvName envVar.name
      rejectNul "environment value" envVar.value
      rejectIf (names.contains envVar.name) (.duplicateEnvironmentName envVar.name)
      validateEnvSet (envVar.name :: names) rest

/-- The loop over the names to unset. -/
def validateEnvUnset (names : List String) : List String → Validation
  | [] => .ok ()
  | name :: rest => do
      validateEnvName name
      rejectIf (names.contains name) (.duplicateEnvironmentName name)
      validateEnvUnset (name :: names) rest

def validateEnvironment (env : RuntimeEnvironment) : Validation := do
  rejectIf (runtimeMaxEnvChanges < env.set.length + env.unset.length)
    (.tooManyEnvironmentChanges (env.set.length + env.unset.length))
  let names ← validateEnvSet [] env.set
  validateEnvUnset names env.unset

def validateTerminalSize (size : TerminalSize) : Validation := do
  rejectIf (size.columns == 0 || size.rows == 0) .invalidTerminalSize
  rejectIf (size.pixelWidth.isSome != size.pixelHeight.isSome) .incompleteTerminalPixelSize

def validateProcessSpec (spec : RuntimeProcessSpec) : Validation := do
  rejectIf spec.argv.isEmpty .emptyArgv
  rejectIf (runtimeMaxArgv < spec.argv.length) (.tooManyArguments spec.argv.length)
  forEach (fun arg => do
    rejectNul "runtime argument" arg
    rejectControl "runtime argument" arg) spec.argv
  match spec.cwd with
  | .workspaceRoot => pure ()
  | .workspaceRelative path => validateWorkspacePath path
  validateEnvironment spec.env
  rejectIf (spec.persistence == .detachable 0) .zeroDetachTtl
  match spec.terminalSize with
  | none => pure ()
  | some size => validateTerminalSize size

def validateNonzeroId {n : ℕ} (what : String) (value : Vector UInt8 n) : Validation :=
  rejectIf (value.toList.all (· == 0)) (.zeroSessionCredential what)

def validateCredentials (credentials : PtySessionCredentials) : Validation := do
  validateNonzeroId "session ID" credentials.sessionId
  validateNonzeroId "attachment token" credentials.attachmentToken

def validateOptionalDataChunk (data : List UInt8) : Validation :=
  rejectIf (runtimeMaxDataChunkLen < data.length) (.dataChunkTooLarge data.length)

def validateDataChunk (offset : ℕ) (data : List UInt8) : Validation := do
  rejectIf data.isEmpty .emptyDataChunk
  validateOptionalDataChunk data
  rejectIf (checkedAdd offset data.length).isNone .dataOffsetOverflow

/-- The checks of one event of a watch batch. -/
def validateWatchEvent (event : WorkspaceWatchEvent) : Validation := do
  validateWorkspacePath event.path
  match event.kind with
  | .renamed toPath => validateWorkspacePath toPath
  | _ => pure ()

/-- The checks a message passes before it is sent and after it is received. -/
def RuntimeMessage.validate : RuntimeMessage → Validation
  | .clientHello packageVersion _ _ => validatePackageVersion packageVersion
  | .serverHello packageVersion _ _ => validatePackageVersion packageVersion
  | .error err => do
      rejectIf (runtimeMaxErrorMessageBytes < err.message.utf8ByteSize)
        (.errorMessageTooLarge err.message.utf8ByteSize)
      rejectNul "error message" err.message
  | .startProcess _ spec => validateProcessSpec spec
  | .processStarted _ _ none _ => .ok ()
  | .processStarted _ _ (some session) _ => validateCredentials session
  | .attachPty _ credentials _ => validateCredentials credentials
  | .ptyAttached _ _ sessionId _ => validateNonzeroId "PTY session ID" sessionId
  | .detached _ sessionId => validateNonzeroId "PTY session ID" sessionId
  | .input _ offset data => validateDataChunk offset data
  | .output _ _ offset data => validateDataChunk offset data
  | .outputGap _ requestedOffset availableOffset screenSnapshot => do
      rejectIf (availableOffset ≤ requestedOffset) .invalidOutputGap
      validateOptionalDataChunk screenSnapshot
  | .resize _ size => validateTerminalSize size
  | .watchEvents _ _ events => do
      rejectIf events.isEmpty .emptyWatchBatch
      rejectIf (runtimeMaxWatchEvents < events.length) (.tooManyWatchEvents events.length)
      forEach validateWatchEvent events
  | .watchOverflow _ sequence nextSequence =>
    rejectIf (nextSequence ≤ sequence) .invalidWatchOverflow
  | .inputAck .. | .closeInput .. | .outputAck .. | .signal .. | .detach .. | .exited ..
  | .watchStart .. | .watchStarted .. | .watchAck .. | .watchStop .. | .watchStopped .. => .ok ()

/-- An overflow marker that passes validation moves the sequence forward. -/
theorem RuntimeMessage.lt_of_validate_watchOverflow {watchId sequence nextSequence : ℕ}
    (h : (RuntimeMessage.watchOverflow watchId sequence nextSequence).validate = .ok ()) :
    sequence < nextSequence := by
  rcases Nat.lt_or_ge sequence nextSequence with hlt | hle
  · exact hlt
  · simp [RuntimeMessage.validate, hle] at h

end RemoteMirror.Runtime
