/-
**The sidecar's agent client.**

`AgentClient` talks to one remote agent through a *worker*: a thread with a child process whose
requests come over a channel.  The client starts workers, replaces them when they fail, time out or
belong to an old generation, and asks a new agent for its version before ordinary work.

Main definitions:

* `Sidecar.validateAgentHello` — the version check of a `Hello` answer;
* `Sidecar.RemoteBackoffState` — when the remote may be tried again;
* `Sidecar.Eff`, `Sidecar.ClientM` — what the client does to its
  surroundings, one step at a time;
* `Sidecar.ensureWorker`, `Sidecar.sendRequestOutcome`,
  `Sidecar.ensureHandshake`, `Sidecar.requestOutcomeInner` — the request
  path.
-/

import RemoteMirror.Interact
import RemoteMirror.RuntimeMessage

namespace RemoteMirror.Sidecar

open Interact (Prog)
open RemoteMirror.Runtime (isControl packageVersion)

/-! ### Messages -/

/-- `nrm_protocol::CapabilitySet` -/
structure CapabilitySet where
  scan : Bool
  read : Bool
  writeCas : Bool
  checksum : Bool
  grep : Bool
  lspProxy : Bool
  batchRead : Bool
  batchValidate : Bool
  chunkedWrite : Bool
  requestIds : Bool
  cancellation : Bool
  streaming : Bool
  multiplexing : Bool
  git : Bool
  runtimeProcessV1 : Bool
  runtimePtyV1 : Bool
  workspaceWatchV1 : Bool
  deriving Repr, DecidableEq

/-- `nrm_protocol::Request`.  The client only looks for `Hello`; ordinary work stands for its
frame. -/
inductive Request
  | hello (clientVersion : String) (protocolVersion : ℕ)
  | shutdown
  | work (frame : List UInt8)
  deriving Repr, DecidableEq

/-- `matches!(request, Request::Hello { .. })` -/
def Request.isHello : Request → Bool
  | .hello _ _ => true
  | _ => false

/-- `nrm_protocol::Response`, as far as the client reads it. -/
inductive Response
  | hello (agentVersion : String) (protocolVersion : ℕ) (capabilities : CapabilitySet)
  | error (message : String)
  | work (frame : List UInt8)
  deriving Repr, DecidableEq

/-- `nrm_protocol::RpcErrorCode` -/
inductive RpcErrorCode
  | agent
  | protocol
  | cancelled
  | unsupported
  deriving Repr, DecidableEq

/-- The derived `Debug` of an error code. -/
def RpcErrorCode.debug : RpcErrorCode → String
  | .agent => "Agent"
  | .protocol => "Protocol"
  | .cancelled => "Cancelled"
  | .unsupported => "Unsupported"

/-- `nrm_protocol::RpcError` -/
structure RpcError where
  code : RpcErrorCode
  message : String
  retryable : Bool
  deriving Repr, DecidableEq

def formatRpcError (error : RpcError) : String :=
  error.code.debug ++ ": " ++ error.message ++ if error.retryable then " (retryable)" else ""

inductive RemoteAgentLaunchFailure
  | missing
  | notExecutable
  | rootMissing
  deriving Repr, DecidableEq

/-- `RemoteAgentLaunchFailure::detail` -/
def RemoteAgentLaunchFailure.detail : RemoteAgentLaunchFailure → String
  | .missing => "remote agent launcher reported a missing executable"
  | .notExecutable => "remote agent launcher reported a non-executable or invalid executable"
  | .rootMissing => "remote agent launcher reported a missing remote root"

inductive AgentWorkerReply
  | response (response : Response)
  | error (error : RpcError)
  | launchError (failure : RemoteAgentLaunchFailure)
  | transportError (message : String)
  deriving Repr, DecidableEq

/-- After these replies a worker stops. -/
def AgentWorkerReply.terminal : AgentWorkerReply → Bool
  | .launchError _ => true
  | .transportError _ => true
  | _ => false

inductive AgentRequestOutcome
  | response (response : Response)
  | preempted
  deriving Repr, DecidableEq

/-! ### Compatibility -/

/-- The parts of other crates the client calls. -/
structure Crates where
  /-- `Version::parse`, then its `Display` -/
  parseVersion : String → Option String
  /-- The derived `Debug` of a response. -/
  debugResponse : Response → String

inductive AgentCompatibilityFailure
  | versionMismatch (agentVersion : String)
  | protocolMismatch (protocolVersion : ℕ)
  deriving Repr, DecidableEq

structure AgentCompatibilityError where
  failure : Option AgentCompatibilityFailure
  message : String
  deriving Repr, DecidableEq

def sanitizeAgentErrorText (text : String) : String :=
  String.ofList (text.toList.map fun c => if isControl c then ' ' else c)

def validateAgentHello (cr : Crates) (agentVersion : String) (protocolVersion : ℕ) :
    Except AgentCompatibilityError Unit :=
  if protocolVersion ≠ Runtime.protocolVersion then
    .error ⟨some (.protocolMismatch protocolVersion),
      "protocol version mismatch: sidecar=" ++ toString Runtime.protocolVersion ++ " agent=" ++
        toString protocolVersion⟩
  else if agentVersion ≠ packageVersion then
    let validAgentVersion := ((cr.parseVersion agentVersion).filter (· == agentVersion)).map
      fun _ => sanitizeAgentErrorText agentVersion
    let message :=
      if validAgentVersion.isSome then
        "package version mismatch: sidecar=" ++ packageVersion ++ " agent=" ++ agentVersion
      else "agent Hello reported a malformed package version"
    .error ⟨validAgentVersion.map .versionMismatch, message⟩
  else .ok ()

/-- `str::strip_prefix` -/
def stripStart (start text : String) : Option String :=
  if start.toList.isPrefixOf text.toList then
    some (String.ofList (text.toList.drop start.toList.length))
  else none

/-- `str::parse::<u16>`: digits, with an optional plus sign. -/
def parseU16 (text : String) : Option ℕ :=
  let digits := match text.toList with
    | '+' :: rest => rest
    | all => all
  if digits.isEmpty || !digits.all Char.isDigit then none
  else
    let n := digits.foldl (fun n c => 10 * n + (c.toNat - '0'.toNat)) 0
    if n < 65536 then some n else none

def parseAgentCompatibilityRpcError (cr : Crates) (error : RpcError) :
    Request → Option AgentCompatibilityFailure
  | .hello clientVersion protocolVersion =>
    if clientVersion ≠ packageVersion || protocolVersion ≠ Runtime.protocolVersion ||
        error.retryable || error.code ≠ .agent then none
    else
      match stripStart ("package version mismatch: client=" ++ packageVersion ++ " agent=")
          error.message with
      | some agentVersion =>
        (cr.parseVersion agentVersion).bind fun parsed =>
          if parsed = agentVersion ∧ agentVersion ≠ packageVersion then
            some (.versionMismatch agentVersion)
          else none
      | none =>
        match stripStart ("protocol version mismatch: client=" ++
            toString Runtime.protocolVersion ++ " agent=") error.message with
        | some rest =>
          (parseU16 rest).bind fun agentProtocol =>
            if toString agentProtocol = rest ∧ agentProtocol ≠ Runtime.protocolVersion then
              some (.protocolMismatch agentProtocol)
            else none
        | none => none
  | _ => none

/-! ### Backoff -/

inductive TrustedAgentFailure
  | launch (failure : RemoteAgentLaunchFailure)
  | compatibility (failure : AgentCompatibilityFailure)
  deriving Repr, DecidableEq

inductive AgentBackoffLane
  | read
  | write
  deriving Repr, DecidableEq

/-- Times are in nanoseconds. -/
def nanosPerMilli : ℕ := 1000000

def remoteUnavailableBackoffBaseMs : ℕ := 2000

def remoteUnavailableBackoffMaxMs : ℕ := 60000

def remoteUnavailableBackoffMs (consecutiveFailures : ℕ) : ℕ :=
  if consecutiveFailures = 0 then 0
  else
    let multiplier := 2 ^ min (consecutiveFailures - 1) 20
    min (min (remoteUnavailableBackoffBaseMs * multiplier) (2 ^ 64 - 1))
      remoteUnavailableBackoffMaxMs

structure RemoteBackoffSlot where
  unavailableUntil : Option ℕ
  lastRemoteError : Option String
  trustedFailure : Option TrustedAgentFailure
  lastRemoteErrorAt : Option ℕ
  consecutiveFailures : ℕ
  deriving Repr, DecidableEq

/-- A slot after `clear_lane`, and its default. -/
def RemoteBackoffSlot.clear : RemoteBackoffSlot := ⟨none, none, none, none, 0⟩

structure RemoteBackoffState where
  read : RemoteBackoffSlot
  write : RemoteBackoffSlot
  deriving Repr, DecidableEq

namespace RemoteBackoffState

/-- `RemoteBackoffState::slot` -/
def slot (b : RemoteBackoffState) : AgentBackoffLane → RemoteBackoffSlot
  | .read => b.read
  | .write => b.write

/-- `RemoteBackoffState::slot_mut` -/
def slotMut (b : RemoteBackoffState) (lane : AgentBackoffLane)
    (f : RemoteBackoffSlot → RemoteBackoffSlot) : RemoteBackoffState :=
  match lane with
  | .read => { b with read := f b.read }
  | .write => { b with write := f b.write }

/-- `RemoteBackoffState::lane_backoff` at time `now` -/
def laneBackoff (b : RemoteBackoffState) (lane : AgentBackoffLane) (now : ℕ) :
    Option (ℕ × String × Option TrustedAgentFailure) :=
  (b.slot lane).unavailableUntil.bind fun until_ =>
    if until_ ≤ now then none
    else some (min ((until_ - now) / nanosPerMilli) (2 ^ 64 - 1),
      (b.slot lane).lastRemoteError.getD "last remote attempt failed",
      (b.slot lane).trustedFailure)

/-- `RemoteBackoffState::mark_unavailable` at time `now` -/
def markUnavailable (b : RemoteBackoffState) (lane : AgentBackoffLane) (now : ℕ) (error : String)
    (trustedFailure : Option TrustedAgentFailure) : RemoteBackoffState :=
  b.slotMut lane fun slot =>
    let failures := max (min (slot.consecutiveFailures + 1) (2 ^ 32 - 1)) 1
    ⟨some (now + remoteUnavailableBackoffMs failures * nanosPerMilli), some error,
      trustedFailure, some now, failures⟩

/-- `RemoteBackoffState::clear_all` -/
def clearAll (_ : RemoteBackoffState) : RemoteBackoffState := ⟨.clear, .clear⟩

end RemoteBackoffState

/-! ### The client -/

/-- A worker, by the order in which workers were started. -/
abbrev WorkerId := ℕ

/-- A reply channel, by the order in which channels were made. -/
abbrev ChannelId := ℕ

structure NegotiatedAgentHello where
  agentVersion : String
  protocolVersion : ℕ
  capabilities : CapabilitySet
  deriving Repr, DecidableEq

/-- `AgentClient`, without what it shares with the other lane. -/
structure AgentClient where
  requestTimeout : ℕ
  worker : Option WorkerId
  retiredWorkers : List WorkerId
  handshakeComplete : Bool
  negotiatedHello : Option NegotiatedAgentHello
  backoffLane : AgentBackoffLane
  nextId : UInt64
  workerGeneration : UInt64
  deriving Repr, DecidableEq

/-- `AgentClient::new_with_registry` and `clone_for_lane` -/
def AgentClient.new (requestTimeout : ℕ) (lane : AgentBackoffLane) (generation : UInt64) :
    AgentClient :=
  ⟨requestTimeout, none, [], false, none, lane, 1, generation⟩

structure AgentWorkerCommand where
  id : UInt64
  request : Request
  reply : ChannelId
  deriving Repr, DecidableEq

/-- The errors of the client; the typed ones are told apart by callers. -/
inductive ClientError
  | message (text : String)
  | requestTimeout (id : UInt64) (timeout : ℕ) (phase : String)
  | workerExitTimeout (context : String)
  deriving Repr, DecidableEq

/-- The `Display` of an error. -/
def ClientError.display : ClientError → String
  | .message text => text
  | .requestTimeout id timeout phase =>
    "agent request " ++ toString id.toNat ++ " timed out after " ++
      toString (timeout / nanosPerMilli) ++ " ms " ++ phase
  | .workerExitTimeout context => "timed out waiting for agent worker exit during " ++ context

/-- What `recv_timeout` gives. -/
inductive Recv
  | reply (reply : AgentWorkerReply)
  | timeout
  | disconnected

/-- How far a retired worker is: `is_stopped`, `is_finished`, and what `join` says. -/
inductive Teardown
  | running
  | joined
  | workerPanicked
  | reaperPanicked

/-- The steps by which the client acts on its surroundings. -/
inductive Eff
  /-- Read the client's own fields. -/
  | client
  /-- Write them. -/
  | update (f : AgentClient → AgentClient)
  /-- `Instant::now` -/
  | now
  /-- `thread::sleep` -/
  | sleep (duration : ℕ)
  /-- `interrupt.is_shutdown_requested()` -/
  | isShutdownRequested
  /-- `launch.worker_generation.load` -/
  | loadGeneration
  /-- `launch.worker_generation.fetch_add(1)` -/
  | bumpGeneration
  /-- `preempt.epoch()` -/
  | preemptEpoch
  /-- Change the backoff state under its lock; the answer is the time and what the state was. -/
  | backoff (f : ℕ → RemoteBackoffState → RemoteBackoffState)
  /-- `launch.invalidate_remote_host_info()` -/
  | invalidateRemoteHostInfo
  /-- `spawn_worker` -/
  | spawnWorker (timeout : ℕ)
  /-- `abort.abort()` of a worker's process -/
  | abort (w : WorkerId)
  | teardown (w : WorkerId)
  /-- `mpsc::channel()` for replies -/
  | channel
  /-- `tx.send(command).is_ok()` -/
  | send (w : WorkerId) (command : AgentWorkerCommand)
  /-- `reply_rx.recv_timeout(wait)` -/
  | recvTimeout (reply : ChannelId) (wait : ℕ)

/-- What each step answers. -/
def Ans : Eff → Type
  | .client => AgentClient
  | .update _ => Unit
  | .now => ℕ
  | .sleep _ => Unit
  | .isShutdownRequested => Bool
  | .loadGeneration => UInt64
  | .bumpGeneration => Unit
  | .preemptEpoch => UInt64
  | .backoff _ => ℕ × RemoteBackoffState
  | .invalidateRemoteHostInfo => Unit
  | .spawnWorker _ => Except String WorkerId
  | .abort _ => Unit
  | .teardown _ => Teardown
  | .channel => ChannelId
  | .send _ _ => Bool
  | .recvTimeout _ _ => Recv

/-- Methods of the client. -/
abbrev ClientM := Prog Eff Ans ClientError

/-- One step. -/
def perform (e : Eff) : ClientM (Ans e) := Prog.ask e

/-- `if b { p }` -/
def runIf (b : Bool) (p : ClientM Unit) : ClientM Unit := if b then p else pure ()

def self : ClientM AgentClient := perform .client

/-- An assignment to fields of `self`. -/
def update (f : AgentClient → AgentClient) : ClientM Unit := perform (.update f)

/-- `Instant::now()` -/
def instantNow : ClientM ℕ := perform .now

def remainingTimeoutSince (started total : ℕ) : ClientM ℕ := do
  let now ← instantNow
  pure (total - (now - started))

def sleep (duration : ℕ) : ClientM Unit := perform (.sleep duration)

def isShutdownRequested : ClientM Bool := perform .isShutdownRequested

def loadGeneration : ClientM UInt64 := perform .loadGeneration

def bumpGeneration : ClientM Unit := perform .bumpGeneration

def loadPreemptEpoch : ClientM UInt64 := perform .preemptEpoch

/-- `self.remote_backoff_guard()`, with what is done under the lock. -/
def remoteBackoffGuard (f : ℕ → RemoteBackoffState → RemoteBackoffState) :
    ClientM (ℕ × RemoteBackoffState) := perform (.backoff f)

def invalidateRemoteHostInfo : ClientM Unit := perform .invalidateRemoteHostInfo

def spawnWorker (timeout : ℕ) : ClientM (Except String WorkerId) := perform (.spawnWorker timeout)

def abort (w : WorkerId) : ClientM Unit := perform (.abort w)

def teardownOf (w : WorkerId) : ClientM Teardown := perform (.teardown w)

def channel : ClientM ChannelId := perform .channel

def send (w : WorkerId) (command : AgentWorkerCommand) : ClientM Bool := perform (.send w command)

def recvTimeout (reply : ChannelId) (wait : ℕ) : ClientM Recv := perform (.recvTimeout reply wait)

/-! ### Retiring workers -/

/-- `Vec::swap_remove` -/
def swapRemove {α : Type} (xs : List α) (index : ℕ) : List α :=
  match xs.getLast? with
  | some last => (xs.set index last).dropLast
  | none => xs

/-- `for worker in &self.retired_workers { worker.abort.abort(); }` -/
def abortAll : List WorkerId → ClientM Unit
  | [] => pure ()
  | w :: ws => do
      abort w
      abortAll ws

/-- The loop of `reap_finished_workers` from `index` on.  Each round moves on or removes a worker,
so the number of retired workers bounds the rounds. -/
def reapFinishedWorkersFrom : ℕ → ℕ → ClientM Unit
  | 0, _ => pure ()
  | rounds + 1, index => do
      let c ← self
      match c.retiredWorkers[index]? with
      | none => pure ()
      | some w => do
          let teardown ← teardownOf w
          match teardown with
          | .running => reapFinishedWorkersFrom rounds (index + 1)
          | .joined => do
              update fun c => { c with retiredWorkers := swapRemove c.retiredWorkers index }
              reapFinishedWorkersFrom rounds index
          | .workerPanicked => do
              update fun c => { c with retiredWorkers := swapRemove c.retiredWorkers index }
              .err (.message "agent worker panicked during teardown")
          | .reaperPanicked => do
              update fun c => { c with retiredWorkers := swapRemove c.retiredWorkers index }
              .err (.message "agent process reaper panicked during teardown")

/-- `AgentClient::reap_finished_workers` -/
def reapFinishedWorkers : ClientM Unit := do
  let c ← self
  reapFinishedWorkersFrom c.retiredWorkers.length 0

/-- `AgentClient::retire_active_worker` -/
def retireActiveWorker : ClientM Unit := do
  update fun c => { c with handshakeComplete := false, negotiatedHello := none }
  let c ← self
  match c.worker with
  | none => pure ()
  | some w => do
      update fun c => { c with worker := none }
      abort w
      update fun c => { c with retiredWorkers := c.retiredWorkers ++ [w] }

/-- `AgentClient::kill_worker` -/
def killWorker : ClientM Unit := do
  retireActiveWorker
  let c ← self
  abortAll c.retiredWorkers
  let _ ← reapFinishedWorkers.attempt
  pure ()

/-- The loop of `kill_worker_with_timeout`.  A round that does not end sleeps, so that after
`timeout` rounds the time is over. -/
def drainRetiredWorkers (started timeout : ℕ) (context : String) : ℕ → ClientM Unit
  | 0 => .err (.workerExitTimeout context)
  | rounds + 1 => do
      let c ← self
      abortAll c.retiredWorkers
      reapFinishedWorkers
      let c ← self
      if c.retiredWorkers.isEmpty then pure ()
      else do
        let remaining ← remainingTimeoutSince started timeout
        if remaining = 0 then .err (.workerExitTimeout context)
        else do
          sleep (min remaining (10 * nanosPerMilli))
          drainRetiredWorkers started timeout context rounds

/-- `AgentClient::kill_worker_with_timeout` -/
def killWorkerWithTimeout (timeout : ℕ) (context : String) : ClientM Unit := do
  retireActiveWorker
  let started ← instantNow
  drainRetiredWorkers started timeout context (timeout + 1)

/-- `AgentClient::invalidate_shared_workers_with_timeout` -/
def invalidateSharedWorkersWithTimeout (timeout : ℕ) (context : String) : ClientM Unit := do
  bumpGeneration
  killWorkerWithTimeout timeout context

/-! ### Marking the remote unavailable -/

/-- `AgentClient::mark_remote_unavailable_with_trusted_failure` -/
def markRemoteUnavailableWithTrustedFailure (error : String)
    (trustedFailure : Option TrustedAgentFailure) : ClientM ClientError := do
  update fun c => { c with handshakeComplete := false, negotiatedHello := none }
  let error := sanitizeAgentErrorText error
  let c ← self
  let _ ← remoteBackoffGuard fun now b =>
    b.markUnavailable c.backoffLane now error trustedFailure
  pure (.message error)

/-- `AgentClient::mark_remote_unavailable` -/
def markRemoteUnavailable (error : String) : ClientM ClientError :=
  markRemoteUnavailableWithTrustedFailure error none

/-- `AgentClient::mark_remote_unavailable_with_launch_failure` -/
def markRemoteUnavailableWithLaunchFailure (error : String) (failure : RemoteAgentLaunchFailure) :
    ClientM ClientError :=
  markRemoteUnavailableWithTrustedFailure error (some (.launch failure))

/-- `AgentClient::mark_remote_unavailable_with_compatibility_failure` -/
def markRemoteUnavailableWithCompatibilityFailure (error : String)
    (failure : AgentCompatibilityFailure) : ClientM ClientError :=
  markRemoteUnavailableWithTrustedFailure error (some (.compatibility failure))

/-- `AgentClient::mark_request_timeout` -/
def markRequestTimeout (id : UInt64) (timeout : ℕ) (phase : String) : ClientM ClientError := do
  let error := ClientError.requestTimeout id timeout phase
  let _ ← markRemoteUnavailable error.display
  pure error

/-- `AgentClient::clear_all_remote_unavailable` -/
def clearAllRemoteUnavailable : ClientM Unit := do
  let _ ← remoteBackoffGuard fun _ b => b.clearAll
  pure ()

/-- `AgentClient::check_remote_backoff` -/
def checkRemoteBackoff : ClientM Unit := do
  let c ← self
  let (now, backoff) ← remoteBackoffGuard fun _ b => b
  match backoff.laneBackoff c.backoffLane now with
  | some (remainingMs, error, _) =>
    .err (.message ("remote unavailable; retry after " ++ toString remainingMs ++ " ms: " ++
      error))
  | none => do
      let _ ← remoteBackoffGuard fun _ b =>
        b.slotMut c.backoffLane fun slot => { slot with unavailableUntil := none }
      pure ()

/-- Kill the worker, forget the host and fail with what `mark` makes of it: how most requests that
go wrong end. -/
def abandon (mark : ClientM ClientError) {α : Type} : ClientM α := do
  killWorker
  invalidateRemoteHostInfo
  let error ← mark
  .err error

/-! ### Requests -/

/-- `AgentClient::ensure_worker` -/
def ensureWorker (timeout : ℕ) : ClientM WorkerId := do
  let shutdown ← isShutdownRequested
  if shutdown then .err (.message "agent worker is shut down")
  else do
    let sharedGeneration ← loadGeneration
    let c ← self
    runIf (c.worker.isSome && c.workerGeneration != sharedGeneration) killWorker
    let c ← self
    match c.worker with
    | some w => pure w
    | none => do
        let spawned ← spawnWorker timeout
        match spawned with
        | .error text => .err (.message text)
        | .ok w => do
            update fun c => { c with worker := some w }
            update fun c => { c with workerGeneration := sharedGeneration }
            pure w

/-- `AgentClient::handle_worker_reply` -/
def handleWorkerReply (cr : Crates) (reply : AgentWorkerReply) (request : Request) :
    ClientM AgentRequestOutcome :=
  match reply with
  | .response (.error message) => .err (.message message)
  | .response response => pure (.response response)
  | .error rpc =>
    match parseAgentCompatibilityRpcError cr rpc request with
    | some failure => do
        killWorker
        let error ← markRemoteUnavailableWithCompatibilityFailure (formatRpcError rpc) failure
        .err error
    | none =>
      if rpc.retryable then do
        killWorker
        let error ← markRemoteUnavailable (formatRpcError rpc)
        .err error
      else .err (.message (formatRpcError rpc))
  | .launchError failure => abandon (markRemoteUnavailableWithLaunchFailure failure.detail failure)
  | .transportError message => abandon (markRemoteUnavailable message)

/-- The loop of `wait_for_reply`.  A round that does not end has waited for some time, so that
after `timeout` rounds the time is over. -/
def waitForReplyFrom (cr : Crates) (id : UInt64) (request : Request) (reply : ChannelId)
    (preemptible : Bool) (preemptEpoch : UInt64) (timeout started : ℕ) :
    ℕ → ClientM AgentRequestOutcome
  | 0 => abandon (markRequestTimeout id timeout "while waiting for its reply")
  | rounds + 1 => do
      let epoch ← loadPreemptEpoch
      if preemptible && epoch != preemptEpoch then do
        killWorker
        pure .preempted
      else do
        let remaining ← remainingTimeoutSince started timeout
        if remaining = 0 then
          abandon (markRequestTimeout id timeout "while waiting for its reply")
        else do
          let wait := min remaining (25 * nanosPerMilli)
          let received ← recvTimeout reply wait
          match received with
          | .reply reply => handleWorkerReply cr reply request
          | .timeout =>
            waitForReplyFrom cr id request reply preemptible preemptEpoch timeout started rounds
          | .disconnected =>
            abandon (markRemoteUnavailable
              ("agent worker exited while request " ++ toString id.toNat ++ " was pending"))

/-- `AgentClient::wait_for_reply` -/
def waitForReply (cr : Crates) (id : UInt64) (request : Request) (reply : ChannelId)
    (preemptible : Bool) (preemptEpoch : UInt64) (timeout : ℕ) : ClientM AgentRequestOutcome := do
  let started ← instantNow
  waitForReplyFrom cr id request reply preemptible preemptEpoch timeout started (timeout + 1)

/-- One attempt of `send_request_outcome` to hand the command to a worker, and what follows if that
worker turns out to be gone. -/
def sendAttempt (command : AgentWorkerCommand) (started timeout : ℕ) (gone : ClientM Unit) :
    ClientM Unit := do
  let remaining ← remainingTimeoutSince started timeout
  if remaining = 0 then
    abandon (markRequestTimeout command.id timeout "while launching its worker")
  else do
    let selected ← (ensureWorker remaining).attempt
    match selected with
    | .error failure => do
        invalidateRemoteHostInfo
        let error ← markRemoteUnavailable failure.display
        .err error
    | .ok w => do
        let sent ← send w command
        if sent then pure ()
        else do
          killWorker
          invalidateRemoteHostInfo
          gone

/-- The loop `for attempt in 0..2` of `send_request_outcome`. -/
def sendCommand (command : AgentWorkerCommand) (started timeout : ℕ) : ClientM Unit :=
  sendAttempt command started timeout
    (sendAttempt command started timeout (do
      let error ← markRemoteUnavailable ("agent worker exited before request " ++
        toString command.id.toNat ++ " could be sent")
      .err error))

/-- `wrapping_add(1).max(1)` -/
def nextRequestId (id : UInt64) : UInt64 := max (id + 1) 1

/-- `AgentClient::send_request_outcome` -/
def sendRequestOutcome (cr : Crates) (request : Request) (preemptible : Bool)
    (preemptEpoch : UInt64) (timeout : ℕ) : ClientM AgentRequestOutcome := do
  let shutdown ← isShutdownRequested
  if shutdown then .err (.message "agent request cancelled by shutdown")
  else do
    let c ← self
    let id := c.nextId
    update fun c => { c with nextId := nextRequestId c.nextId }
    let started ← instantNow
    let reply ← channel
    sendCommand ⟨id, request, reply⟩ started timeout
    let remaining ← remainingTimeoutSince started timeout
    if remaining = 0 then
      abandon (markRequestTimeout id timeout "while launching its worker")
    else waitForReply cr id request reply preemptible preemptEpoch remaining

/-- The `Hello` of this sidecar. -/
def helloRequest : Request := .hello packageVersion Runtime.protocolVersion

/-- What `ensure_handshake` and `record_handshake_outcome` do with the answer to a `Hello`. -/
def acceptHello (cr : Crates) : Response → ClientM Unit
  | .hello agentVersion protocolVersion capabilities =>
    match validateAgentHello cr agentVersion protocolVersion with
    | .ok () => do
        update fun c => { c with handshakeComplete := true }
        update fun c => { c with
          negotiatedHello := some ⟨agentVersion, protocolVersion, capabilities⟩ }
        clearAllRemoteUnavailable
    | .error incompatible => do
        killWorker
        let error ← match incompatible.failure with
          | some failure =>
            markRemoteUnavailableWithCompatibilityFailure incompatible.message failure
          | none => markRemoteUnavailable incompatible.message
        .err error
  | other => do
      killWorker
      let error ← markRemoteUnavailable
        ("unexpected hello response from agent: " ++ cr.debugResponse other)
      .err error

/-- `AgentClient::ensure_handshake` -/
def ensureHandshake (cr : Crates) (preemptible : Bool) (preemptEpoch : UInt64) (timeout : ℕ) :
    ClientM (Option AgentRequestOutcome) := do
  let outcome ← sendRequestOutcome cr helloRequest preemptible preemptEpoch timeout
  match outcome with
  | .response response => do
      acceptHello cr response
      pure none
  | .preempted => pure (some .preempted)

/-- `AgentClient::record_handshake_outcome` -/
def recordHandshakeOutcome (cr : Crates) : AgentRequestOutcome → ClientM Unit
  | .response response => acceptHello cr response
  | .preempted => pure ()

/-- `AgentClient::request_outcome_inner` after the handshake gate. -/
def requestOutcomeGated (cr : Crates) (request : Request) (preemptible : Bool)
    (preemptEpoch : UInt64) (timeout started : ℕ) : ClientM AgentRequestOutcome := do
  let remaining ← remainingTimeoutSince started timeout
  if remaining = 0 then do
    let c ← self
    update fun c => { c with nextId := nextRequestId c.nextId }
    abandon (markRequestTimeout c.nextId timeout "after completing its compatibility handshake")
  else do
    let outcome ← sendRequestOutcome cr request preemptible preemptEpoch remaining
    runIf request.isHello (recordHandshakeOutcome cr outcome)
    pure outcome

/-- The handshake gate of `request_outcome_inner`, which looks at the flag. -/
def handshakeGate (cr : Crates) (request : Request) (preemptible : Bool) (preemptEpoch : UInt64)
    (timeout : ℕ) (handshakeComplete : Bool) : ClientM (Option AgentRequestOutcome) :=
  if !request.isHello && !handshakeComplete then
    ensureHandshake cr preemptible preemptEpoch timeout
  else pure none

/-- `AgentClient::request_outcome_inner` -/
def requestOutcomeInner (cr : Crates) (request : Request) (preemptible : Bool)
    (preemptEpoch : UInt64) (timeout : ℕ) : ClientM AgentRequestOutcome := do
  let started ← instantNow
  checkRemoteBackoff
  let c ← self
  let gate ← handshakeGate cr request preemptible preemptEpoch timeout c.handshakeComplete
  match gate with
  | some outcome => pure outcome
  | none => requestOutcomeGated cr request preemptible preemptEpoch timeout started

/-- `AgentClient::request_inner` -/
def requestInner (cr : Crates) (request : Request) (preemptible : Bool) (timeout : ℕ) :
    ClientM Response := do
  let preemptEpoch ← loadPreemptEpoch
  let outcome ← requestOutcomeInner cr request preemptible preemptEpoch timeout
  match outcome with
  | .response response => pure response
  | .preempted => .err (.message "agent request preempted by interactive work")

/-- `AgentClient::request_with_timeout` -/
def requestWithTimeout (cr : Crates) (request : Request) (timeout : ℕ) : ClientM Response :=
  requestInner cr request false timeout

/-- `AgentClient::request` -/
def request (cr : Crates) (request : Request) : ClientM Response := do
  let c ← self
  requestInner cr request false c.requestTimeout

/-- `AgentClient::request_maybe_preemptible_since_with_timeout` -/
def requestMaybePreemptibleSinceWithTimeout (cr : Crates) (request : Request)
    (preemptEpoch : UInt64) (timeout : ℕ) : ClientM AgentRequestOutcome :=
  requestOutcomeInner cr request true preemptEpoch timeout

/-- `AgentClient::request_maybe_preemptible_since` -/
def requestMaybePreemptibleSince (cr : Crates) (request : Request) (preemptEpoch : UInt64) :
    ClientM AgentRequestOutcome := do
  let c ← self
  requestOutcomeInner cr request true preemptEpoch c.requestTimeout

/-- `AgentClient::shutdown` -/
def shutdown (cr : Crates) : ClientM Unit := do
  let c ← self
  runIf c.worker.isSome do
    let _ ← (request cr .shutdown).attempt
    pure ()
  killWorker

end RemoteMirror.Sidecar
