/-
**The state machine of one runtime connection.**

Both ends of a runtime connection run the same machine (`RuntimeStateMachine` in
`crates/nrm-protocol/src/runtime.rs`): every message a party sends or receives is validated, its
sender is checked against the direction, and it is applied to a copy of the phase, which replaces
the phase only if the message is accepted.

A function of the source that changes its argument through `&mut` returns the changed value here;
`unreachable!()` is the outcome `RuntimeStateError.unreachable`.

Main definitions:

* `Runtime.RuntimePhase` — the phases, with the offsets each one tracks;
* `Runtime.applyMessage` — the transition function;
* `Runtime.RuntimeStateMachine.observe` — one message at one end.

Main results:

* `Runtime.applyRunningMessage_iff`, `Runtime.applyRunningServerMessage_iff` — the messages a
  running process takes;
* `Runtime.RuntimeStateMachine.observe_eq_ok` — what an accepted message means.
-/

import RemoteMirror.RuntimeMessage

namespace RemoteMirror.Runtime

open Checks

/-! ### Phases and errors -/

/-- The part of `CapabilitySet` that `supports_runtime` reads. -/
structure CapabilitySet where
  runtimeProcessV1 : Bool
  runtimePtyV1 : Bool
  workspaceWatchV1 : Bool
  deriving DecidableEq, Repr

def CapabilitySet.supportsRuntime (supported : CapabilitySet) : RuntimeCapability → Bool
  | .processPipeV1 => supported.runtimeProcessV1
  | .processPtyV1 => supported.runtimePtyV1
  | .workspaceWatchV1 => supported.workspaceWatchV1

structure StreamOffsets where
  next : ℕ
  acked : ℕ
  deriving DecidableEq, Repr

structure RuntimeProcessState where
  processId : ℕ
  pty : Bool
  sessionId : Option PtySessionId
  inputSent : ℕ
  inputAcked : ℕ
  inputClosed : Bool
  stdout : StreamOffsets
  stderr : StreamOffsets
  ptyOutput : StreamOffsets
  gapPending : Option (ℕ × ℕ)
  deriving DecidableEq, Repr

structure RuntimeWatchState where
  watchId : ℕ
  nextSequence : ℕ
  ackedSequence : ℕ
  gapPending : Option (ℕ × ℕ)
  deriving DecidableEq, Repr

inductive RuntimePhase
  | awaitClientHello
  | awaitServerHello (capability : RuntimeCapability)
  | ready (capability : RuntimeCapability)
  | awaitProcessStarted (capability : RuntimeCapability) (requestId : ℕ)
      (persistence : RuntimePersistence)
  | awaitPtyAttached (requestId : ℕ) (sessionId : PtySessionId) (replayFrom : Option ℕ)
  | running (process : RuntimeProcessState)
  | awaitDetached (process : RuntimeProcessState)
  | awaitWatchStarted (requestId : ℕ) (resumeFrom : Option ℕ)
  | watching (watch : RuntimeWatchState)
  | awaitWatchStopped (watch : RuntimeWatchState)
  | closed
  deriving DecidableEq, Repr

def RuntimePhase.name : RuntimePhase → String
  | .awaitClientHello => "await_client_hello"
  | .awaitServerHello _ => "await_server_hello"
  | .ready _ => "ready"
  | .awaitProcessStarted .. => "await_process_started"
  | .awaitPtyAttached .. => "await_pty_attached"
  | .running _ => "running"
  | .awaitDetached _ => "await_detached"
  | .awaitWatchStarted .. => "await_watch_started"
  | .watching _ => "watching"
  | .awaitWatchStopped _ => "await_watch_stopped"
  | .closed => "closed"

inductive RuntimeStateError
  | invalidMessage (error : RuntimeValidationError)
  | wrongSender (message : String) (expected actual : RuntimePeerRole)
  | unexpectedMessage (state message : String)
  | protocolVersionMismatch (expected actual : ℕ)
  | packageVersionMismatch (expected actual : String)
  | unsupportedCapability (capability : RuntimeCapability)
  | capabilityMismatch (expected actual : RuntimeCapability)
  | requestIdMismatch (expected actual : ℕ)
  | processIdMismatch (expected actual : ℕ)
  | watchIdMismatch (expected actual : ℕ)
  | sessionIdMismatch
  | invalidProcessSpec (capability : RuntimeCapability) (reason : String)
  | inputClosed
  | offsetMismatch (channel : String) (expected actual : ℕ)
  | ackRegressed (channel : String) (previous actual : ℕ)
  | ackBeyondSent (channel : String) (sent actual : ℕ)
  | wrongOutputStream (stream : RuntimeOutputStream)
  | outputGapMismatch
  | outputBeforeGap
  | watchSequenceOverflow
  | watchEventBeforeOverflow
  | watchOverflowMismatch
  | unreachable
  deriving DecidableEq, Repr

/-- The outcome of a transition. -/
abbrev Outcome (α : Type) : Type := Except RuntimeStateError α

/-! ### Checks shared by the transitions -/

def validateProtocolAndCapability (supported : CapabilitySet) (version : String)
    (protocol : ℕ) (capability : RuntimeCapability) : Outcome Unit := do
  rejectIf (version != packageVersion) (.packageVersionMismatch packageVersion version)
  rejectIf (protocol != protocolVersion) (.protocolVersionMismatch protocolVersion protocol)
  rejectIf (!supported.supportsRuntime capability) (.unsupportedCapability capability)

def validateSpecForCapability (capability : RuntimeCapability) (spec : RuntimeProcessSpec) :
    Outcome Unit :=
  match capability with
  | .processPipeV1 => do
      rejectIf spec.terminalSize.isSome
        (.invalidProcessSpec capability "pipe processes must not include a terminal size")
      rejectIf (spec.persistence != .attached)
        (.invalidProcessSpec capability "pipe processes cannot be detachable")
  | .processPtyV1 => do
      rejectIf spec.terminalSize.isNone
        (.invalidProcessSpec capability "PTY processes require a terminal size")
      rejectIf spec.maxOutputBytes.isSome
        (.invalidProcessSpec capability "PTY live streams must not include a pipe output limit")
  | .workspaceWatchV1 =>
    .error (.invalidProcessSpec capability "watch streams cannot start processes")

def expectRequestId (expected actual : ℕ) : Outcome Unit :=
  rejectIf (expected != actual) (.requestIdMismatch expected actual)

def expectProcessId (expected actual : ℕ) : Outcome Unit :=
  rejectIf (expected != actual) (.processIdMismatch expected actual)

def expectWatchId (expected actual : ℕ) : Outcome Unit :=
  rejectIf (expected != actual) (.watchIdMismatch expected actual)

def expectOffset (channel : String) (expected actual : ℕ) : Outcome Unit :=
  rejectIf (expected != actual) (.offsetMismatch channel expected actual)

/-- An acknowledgement up to `actual` of what was `sent`; returns the new acknowledged offset. -/
def applyScalarAck (channel : String) (sent previous actual : ℕ) : Outcome ℕ := do
  rejectIf (actual < previous) (.ackRegressed channel previous actual)
  rejectIf (sent < actual) (.ackBeyondSent channel sent actual)
  return actual

def applyAck (channel : String) (offsets : StreamOffsets) (actual : ℕ) : Outcome StreamOffsets := do
  let acked ← applyScalarAck channel offsets.next offsets.acked actual
  return { offsets with acked }

section Checks

variable {e a sent previous next : ℕ} {channel : String} {u : Unit}

@[simp] theorem expectRequestId_eq_ok : expectRequestId e a = .ok u ↔ e = a := by
  simp [expectRequestId]

@[simp] theorem expectProcessId_eq_ok : expectProcessId e a = .ok u ↔ e = a := by
  simp [expectProcessId]

@[simp] theorem expectWatchId_eq_ok : expectWatchId e a = .ok u ↔ e = a := by
  simp [expectWatchId]

@[simp] theorem expectOffset_eq_ok : expectOffset channel e a = .ok u ↔ e = a := by
  simp [expectOffset]

@[simp] theorem applyScalarAck_eq_ok : applyScalarAck channel sent previous a = .ok next ↔
      previous ≤ a ∧ a ≤ sent ∧ a = next := by
  simp [applyScalarAck]

end Checks

/-! ### Processes -/

namespace RuntimeProcessState

def newPipe (processId : ℕ) : RuntimeProcessState where
  processId
  pty := false
  sessionId := none
  inputSent := 0
  inputAcked := 0
  inputClosed := false
  stdout := ⟨0, 0⟩
  stderr := ⟨0, 0⟩
  ptyOutput := ⟨0, 0⟩
  gapPending := none

def newPty (processId : ℕ) (sessionId : Option PtySessionId) (outputOffset : ℕ)
    (gapPending : Option (ℕ × ℕ)) : RuntimeProcessState where
  processId
  pty := true
  sessionId
  inputSent := 0
  inputAcked := 0
  inputClosed := false
  stdout := ⟨0, 0⟩
  stderr := ⟨0, 0⟩
  ptyOutput := ⟨outputOffset, outputOffset⟩
  gapPending

/-- The place `stream_mut` borrows: the offsets there, and how to put new ones back. -/
def streamMut (process : RuntimeProcessState) (stream : RuntimeOutputStream) :
    Outcome (StreamOffsets × (StreamOffsets → RuntimeProcessState)) :=
  match process.pty, stream with
  | true, .pty => .ok (process.ptyOutput, fun offsets => { process with ptyOutput := offsets })
  | false, .stdout => .ok (process.stdout, fun offsets => { process with stdout := offsets })
  | false, .stderr => .ok (process.stderr, fun offsets => { process with stderr := offsets })
  | _, _ => .error (.wrongOutputStream stream)

/-- The offsets of a stream. -/
def offsets (process : RuntimeProcessState) : RuntimeOutputStream → StreamOffsets
  | .stdout => process.stdout
  | .stderr => process.stderr
  | .pty => process.ptyOutput

/-- The process with new offsets for a stream. -/
def setOffsets (process : RuntimeProcessState) (stream : RuntimeOutputStream)
    (offsets : StreamOffsets) : RuntimeProcessState :=
  match stream with
  | .stdout => { process with stdout := offsets }
  | .stderr => { process with stderr := offsets }
  | .pty => { process with ptyOutput := offsets }

/-- The process with a new input offset and a new input state. -/
def setInput (process : RuntimeProcessState) (sent : ℕ) (inputClosed : Bool) :
    RuntimeProcessState :=
  { process with inputSent := sent, inputClosed }

/-- Terminals carry the terminal stream, pipes the other two. -/
def carries (process : RuntimeProcessState) : RuntimeOutputStream → Bool
  | .pty => process.pty
  | _ => !process.pty

theorem streamMut_eq_ok {process : RuntimeProcessState} {stream : RuntimeOutputStream}
    {r : StreamOffsets × (StreamOffsets → RuntimeProcessState)} : process.streamMut stream = .ok r ↔
      process.carries stream = true ∧ (process.offsets stream, process.setOffsets stream) = r := by
  obtain ⟨_, pty, _⟩ := process
  cases pty <;> cases stream <;> simp [streamMut, carries] <;> rfl

section SetOffsets

variable (process : RuntimeProcessState) (stream other : RuntimeOutputStream) (o o' : StreamOffsets)

@[simp] theorem setOffsets_processId :
    (process.setOffsets stream o).processId = process.processId := by cases stream <;> rfl

@[simp] theorem setOffsets_pty : (process.setOffsets stream o).pty = process.pty := by
  cases stream <;> rfl

@[simp] theorem setOffsets_sessionId :
    (process.setOffsets stream o).sessionId = process.sessionId := by cases stream <;> rfl

@[simp] theorem setOffsets_inputSent :
    (process.setOffsets stream o).inputSent = process.inputSent := by cases stream <;> rfl

@[simp] theorem setOffsets_inputAcked :
    (process.setOffsets stream o).inputAcked = process.inputAcked := by cases stream <;> rfl

@[simp] theorem setOffsets_inputClosed :
    (process.setOffsets stream o).inputClosed = process.inputClosed := by cases stream <;> rfl

@[simp] theorem setOffsets_gapPending :
    (process.setOffsets stream o).gapPending = process.gapPending := by cases stream <;> rfl

@[simp] theorem setOffsets_carries : (process.setOffsets stream o).carries other =
    process.carries other := by
  cases other <;> simp [carries]

theorem offsets_setOffsets :
    (process.setOffsets stream o).offsets other =
      if other = stream then o else process.offsets other := by
  cases stream <;> cases other <;> rfl

theorem setOffsets_setOffsets :
    (process.setOffsets stream o).setOffsets stream o' = process.setOffsets stream o' := by
  cases stream <;> rfl

theorem setOffsets_comm (h : stream ≠ other) : (process.setOffsets stream o).setOffsets other o' =
      (process.setOffsets other o').setOffsets stream o := by
  cases stream <;> cases other <;> first | rfl | exact absurd rfl h

@[simp] theorem setInput_carries (sent : ℕ) (c : Bool) :
    (process.setInput sent c).carries stream = process.carries stream := by cases stream <;> rfl

@[simp] theorem setInput_offsets (sent : ℕ) (c : Bool) :
    (process.setInput sent c).offsets stream = process.offsets stream := by cases stream <;> rfl

theorem setInput_setOffsets (sent : ℕ) (c : Bool) : (process.setInput sent c).setOffsets stream o =
      (process.setOffsets stream o).setInput sent c := by
  cases stream <;> rfl

end SetOffsets

end RuntimeProcessState

/-- A message of the server about a running process; the flag says that the process has ended. -/
def applyRunningServerMessage (process : RuntimeProcessState) :
    RuntimeMessage → Outcome (RuntimeProcessState × Bool)
  | .inputAck processId nextOffset => do
      expectProcessId process.processId processId
      let inputAcked ← applyScalarAck "input" process.inputSent process.inputAcked nextOffset
      return ({ process with inputAcked }, false)
  | .output processId stream offset data => do
      expectProcessId process.processId processId
      rejectIf process.gapPending.isSome .outputBeforeGap
      let (offsets, put) ← process.streamMut stream
      expectOffset "output" offsets.next offset
      let next ← okOr (checkedAdd offset data.length) (.invalidMessage .dataOffsetOverflow)
      return (put { offsets with next }, false)
  | .outputGap processId requestedOffset availableOffset _ => do
      expectProcessId process.processId processId
      rejectIf (!process.pty || process.gapPending != some (requestedOffset, availableOffset))
        .outputGapMismatch
      return ({ process with gapPending := none }, false)
  | .exited processId _ _ => do
      expectProcessId process.processId processId
      return (process, true)
  | message =>
    .error (.unexpectedMessage (if process.pty then "running_pty" else "running_pipe")
      message.name)

/-- A message about a running process. -/
def applyRunningMessage (process : RuntimeProcessState) :
    RuntimeMessage → Outcome (RuntimeProcessState × Bool)
  | .input processId offset data => do
      expectProcessId process.processId processId
      rejectIf process.inputClosed .inputClosed
      expectOffset "input" process.inputSent offset
      let inputSent ← okOr (checkedAdd offset data.length) (.invalidMessage .dataOffsetOverflow)
      return ({ process with inputSent }, false)
  | .closeInput processId nextOffset => do
      expectProcessId process.processId processId
      rejectIf process.inputClosed .inputClosed
      expectOffset "input close" process.inputSent nextOffset
      return ({ process with inputClosed := true }, false)
  | .outputAck processId stream nextOffset => do
      expectProcessId process.processId processId
      rejectIf process.gapPending.isSome .outputBeforeGap
      let (offsets, put) ← process.streamMut stream
      let offsets ← applyAck "output" offsets nextOffset
      return (put offsets, false)
  | .resize processId _ => do
      expectProcessId process.processId processId
      rejectIf (!process.pty) (.unexpectedMessage "running_pipe" "resize")
      return (process, false)
  | .signal processId _ => do
      expectProcessId process.processId processId
      return (process, false)
  | .detach processId => do
      expectProcessId process.processId processId
      rejectIf (!process.pty || process.sessionId.isNone)
        (.unexpectedMessage "running_pipe" "detach")
      return (process, false)
  | message => applyRunningServerMessage process message

/-! ### What a running process takes -/

/-- **What the server may say about a process**, and what comes of it; the flag says that it has
ended. -/
inductive ServerMove (process : RuntimeProcessState) :
    RuntimeMessage → RuntimeProcessState → Bool → Prop
  | inputAck {id n : ℕ} (own : process.processId = id) (acked : process.inputAcked ≤ n)
      (le : n ≤ process.inputSent) :
      ServerMove process (.inputAck id n) { process with inputAcked := n } false
  | output {id n next : ℕ} {stream : RuntimeOutputStream} {data : List UInt8}
      (own : process.processId = id)
      (gap : process.gapPending = none) (carries : process.carries stream = true)
      (at_next : (process.offsets stream).next = n) (add : checkedAdd n data.length = some next) :
      ServerMove process (.output id stream n data)
        (process.setOffsets stream { process.offsets stream with next }) false
  | outputGap {id n m : ℕ} {snapshot : List UInt8} (own : process.processId = id)
      (pty : process.pty = true)
      (gap : process.gapPending = some (n, m)) :
      ServerMove process (.outputGap id n m snapshot) { process with gapPending := none } false
  | exited {id : ℕ} {status : RuntimeExitStatus} {truncated : Bool} (own : process.processId = id) :
      ServerMove process (.exited id status truncated) process true

/-- **What the client may say about a process**, and what comes of it. -/
inductive ClientMove (process : RuntimeProcessState) : RuntimeMessage → RuntimeProcessState → Prop
  | input {id n next : ℕ} {data : List UInt8} (own : process.processId = id)
      (opened : process.inputClosed = false) (at_sent : process.inputSent = n)
      (add : checkedAdd n data.length = some next) :
      ClientMove process (.input id n data) { process with inputSent := next }
  | closeInput {id n : ℕ} (own : process.processId = id) (opened : process.inputClosed = false)
      (at_sent : process.inputSent = n) :
      ClientMove process (.closeInput id n) { process with inputClosed := true }
  | outputAck {id n : ℕ} {stream : RuntimeOutputStream} (own : process.processId = id)
      (gap : process.gapPending = none) (carries : process.carries stream = true)
      (acked : (process.offsets stream).acked ≤ n) (le : n ≤ (process.offsets stream).next) :
      ClientMove process (.outputAck id stream n)
        (process.setOffsets stream { process.offsets stream with acked := n })
  | resize {id : ℕ} {size : TerminalSize} (own : process.processId = id)
      (pty : process.pty = true) :
      ClientMove process (.resize id size) process
  | signal {id : ℕ} {signal : RuntimeSignal} (own : process.processId = id) :
      ClientMove process (.signal id signal) process
  | detach {id : ℕ} (own : process.processId = id) (pty : process.pty = true)
      (session : process.sessionId.isSome = true) : ClientMove process (.detach id) process

section Running

open RuntimeProcessState

variable {process p : RuntimeProcessState} {a b : RuntimeMessage} {ended : Bool}

theorem applyRunningServerMessage_iff :
    applyRunningServerMessage process b = .ok (p, ended) ↔ ServerMove process b p ended := by
  constructor
  · intro h
    cases b <;> simp [applyRunningServerMessage, bind_eq_ok, streamMut_eq_ok] at h
    case inputAck =>
      obtain ⟨own, ⟨acked, le⟩, rfl, rfl⟩ := h
      exact .inputAck own acked le
    case output =>
      obtain ⟨own, gap, carries, at_next, next, add, rfl, rfl⟩ := h
      exact .output own gap carries at_next add
    case outputGap =>
      obtain ⟨own, ⟨pty, gap⟩, rfl, rfl⟩ := h
      exact .outputGap own pty gap
    case exited =>
      obtain ⟨own, rfl, rfl⟩ := h
      exact .exited own
  · intro h
    cases h <;> simp_all [applyRunningServerMessage, bind_eq_ok, streamMut_eq_ok]

/-- A message of the client about a process does not end it. -/
theorem applyRunningMessage_iff (ha : a.sender = .client) :
    applyRunningMessage process a = .ok (p, ended) ↔ ClientMove process a p ∧ ended = false := by
  constructor
  · intro h
    cases a <;> simp [applyRunningMessage, applyRunningServerMessage, applyAck, bind_eq_ok,
      streamMut_eq_ok] at h <;>
      try (cases ha; done)
    case input =>
      obtain ⟨own, opened, at_sent, next, add, rfl, rfl⟩ := h
      exact ⟨.input own opened at_sent add, rfl⟩
    case closeInput =>
      obtain ⟨own, opened, at_sent, rfl, rfl⟩ := h
      exact ⟨.closeInput own opened at_sent, rfl⟩
    case outputAck =>
      obtain ⟨own, gap, carries, ⟨acked, le⟩, rfl, rfl⟩ := h
      exact ⟨.outputAck own gap carries acked le, rfl⟩
    case resize =>
      obtain ⟨own, pty, rfl, rfl⟩ := h
      exact ⟨.resize own pty, rfl⟩
    case signal =>
      obtain ⟨own, rfl, rfl⟩ := h
      exact ⟨.signal own, rfl⟩
    case detach =>
      obtain ⟨own, ⟨pty, session⟩, rfl, rfl⟩ := h
      exact ⟨.detach own pty session, rfl⟩
  · rintro ⟨h, rfl⟩
    cases h <;> simp_all [applyRunningMessage, applyAck, bind_eq_ok, streamMut_eq_ok]

theorem applyRunningMessage_server (hb : b.sender = .server) :
    applyRunningMessage process b = applyRunningServerMessage process b := by
  cases b <;> simp_all [applyRunningMessage, RuntimeMessage.sender]

/-- What a message of the server about a process never changes. -/
theorem ServerMove.keeps (h : ServerMove process b p ended) :
    p.processId = process.processId ∧ p.pty = process.pty ∧ p.sessionId = process.sessionId ∧
      p.inputSent = process.inputSent ∧ p.inputClosed = process.inputClosed := by
  cases h <;> simp

/-- More input, or closed input, changes nothing about what the server may say. -/
theorem ServerMove.setInput {sent : ℕ} (c : Bool) (hsent : process.inputSent ≤ sent)
    (h : ServerMove process b p ended) :
    ServerMove (process.setInput sent c) b (p.setInput sent c) ended := by
  cases h with
  | inputAck own acked le => exact .inputAck own acked (Nat.le_trans le hsent)
  | output own gap carries at_next add =>
    have said : ServerMove (process.setInput sent c) _ _ _ :=
      .output own gap (by simpa using carries) (by simpa using at_next) add
    simpa [setInput_setOffsets] using said
  | outputGap own pty gap => exact .outputGap own pty gap
  | exited own => exact .exited own

end Running

/-! ### Watches -/

def applyWatchServerMessage (watch : RuntimeWatchState) :
    RuntimeMessage → Outcome RuntimeWatchState
  | .watchEvents watchId sequence events => do
      expectWatchId watch.watchId watchId
      rejectIf watch.gapPending.isSome .watchEventBeforeOverflow
      expectOffset "watch" watch.nextSequence sequence
      let nextSequence ← okOr (checkedAdd sequence events.length) .watchSequenceOverflow
      return { watch with nextSequence }
  | .watchOverflow watchId sequence nextSequence => do
      expectWatchId watch.watchId watchId
      match watch.gapPending with
      | some expected =>
        rejectIf (expected != (sequence, nextSequence)) .watchOverflowMismatch
        return { watch with gapPending := none }
      | none =>
        expectOffset "watch overflow" watch.nextSequence sequence
        return { watch with nextSequence }
  | message => .error (.unexpectedMessage "watching" message.name)

def applyWatchMessage (watch : RuntimeWatchState) : RuntimeMessage → Outcome RuntimeWatchState
  | .watchAck watchId nextSequence => do
      expectWatchId watch.watchId watchId
      let ackedSequence ←
        applyScalarAck "watch" watch.nextSequence watch.ackedSequence nextSequence
      return { watch with ackedSequence }
  | message => applyWatchServerMessage watch message

/-! ### What a watch takes -/

section Watching

variable {watch : RuntimeWatchState} {id n m : ℕ} {events : List WorkspaceWatchEvent}
  {r : RuntimeWatchState}

theorem applyWatchMessage_watchAck :
    applyWatchMessage watch (.watchAck id n) = .ok r ↔
      watch.watchId = id ∧ watch.ackedSequence ≤ n ∧ n ≤ watch.nextSequence ∧
        { watch with ackedSequence := n } = r := by
  simp [applyWatchMessage, bind_eq_ok, and_assoc]

theorem applyWatchServerMessage_watchEvents :
    applyWatchServerMessage watch (.watchEvents id n events) = .ok r ↔
      watch.watchId = id ∧ watch.gapPending = none ∧ watch.nextSequence = n ∧
        ∃ next, checkedAdd n events.length = some next ∧
          { watch with nextSequence := next } = r := by
  simp [applyWatchServerMessage, bind_eq_ok]

theorem applyWatchServerMessage_watchOverflow :
    applyWatchServerMessage watch (.watchOverflow id n m) = .ok r ↔
      watch.watchId = id ∧
        ((watch.gapPending = some (n, m) ∧ { watch with gapPending := none } = r) ∨
          (watch.gapPending = none ∧ watch.nextSequence = n ∧
            { watch with nextSequence := m } = r)) := by
  simp only [applyWatchServerMessage, unit_bind_eq_ok, expectWatchId_eq_ok]
  cases watch.gapPending with
  | none => simp
  | some gap => simp

variable {b : RuntimeMessage}

/-- The messages of the server a watch takes. -/
theorem applyWatchServerMessage_cases (h : applyWatchServerMessage watch b = .ok r) :
    (∃ id n events, b = .watchEvents id n events) ∨ ∃ id n m, b = .watchOverflow id n m := by
  cases b <;> simp_all [applyWatchServerMessage]

/-- The only message of the client a watch takes is an acknowledgement. -/
theorem applyWatchMessage_cases {a : RuntimeMessage} (ha : a.sender = .client)
    (h : applyWatchMessage watch a = .ok r) : ∃ id n, a = .watchAck id n := by
  cases a <;> simp_all [applyWatchMessage, applyWatchServerMessage, RuntimeMessage.sender]

theorem applyWatchMessage_server (hb : b.sender = .server) :
    applyWatchMessage watch b = applyWatchServerMessage watch b := by
  cases b <;> simp_all [applyWatchMessage, RuntimeMessage.sender]

/-- A valid message of the server only moves the sequence of a watch forward. -/
theorem applyWatchServerMessage_mono (hv : b.validate = .ok ())
    (h : applyWatchServerMessage watch b = .ok r) :
    r.watchId = watch.watchId ∧ r.ackedSequence = watch.ackedSequence ∧
      watch.nextSequence ≤ r.nextSequence := by
  rcases applyWatchServerMessage_cases h with ⟨id, n, events, rfl⟩ | ⟨id, n, m, rfl⟩
  · obtain ⟨-, -, rfl, next, hadd, rfl⟩ := applyWatchServerMessage_watchEvents.1 h
    exact ⟨rfl, rfl, le_of_checkedAdd hadd⟩
  · obtain ⟨-, ⟨-, rfl⟩ | ⟨-, rfl, rfl⟩⟩ := applyWatchServerMessage_watchOverflow.1 h
    · exact ⟨rfl, rfl, Nat.le_refl _⟩
    · exact ⟨rfl, rfl, Nat.le_of_lt (RuntimeMessage.lt_of_validate_watchOverflow hv)⟩

/-- What the server says about a watch does not depend on what is acknowledged. -/
theorem applyWatchServerMessage_acked (acked : ℕ) (h : applyWatchServerMessage watch b = .ok r) :
    applyWatchServerMessage { watch with ackedSequence := acked } b =
      .ok { r with ackedSequence := acked } := by
  rcases applyWatchServerMessage_cases h with ⟨id, n, events, rfl⟩ | ⟨id, n, m, rfl⟩
  · obtain ⟨hid, hgap, hn, next, hadd, rfl⟩ := applyWatchServerMessage_watchEvents.1 h
    exact applyWatchServerMessage_watchEvents.2 ⟨hid, hgap, hn, next, hadd, rfl⟩
  · obtain ⟨hid, ⟨hgap, rfl⟩ | ⟨hgap, hn, rfl⟩⟩ := applyWatchServerMessage_watchOverflow.1 h
    · exact applyWatchServerMessage_watchOverflow.2 ⟨hid, .inl ⟨hgap, rfl⟩⟩
    · exact applyWatchServerMessage_watchOverflow.2 ⟨hid, .inr ⟨hgap, hn, rfl⟩⟩

end Watching

/-! ### The transition function -/

/-- The process `ProcessStarted` starts. -/
def startedProcess (capability : RuntimeCapability) (persistence : RuntimePersistence)
    (processId : ℕ) (session : Option PtySessionCredentials) (outputOffset : ℕ) :
    Outcome RuntimeProcessState :=
  match capability, persistence, session with
  | .processPipeV1, .attached, none =>
    if outputOffset = 0 then .ok (.newPipe processId)
    else .error (.invalidProcessSpec capability
      "pipe startup must not return a PTY session or nonzero output offset")
  | .processPtyV1, .attached, none =>
    if outputOffset = 0 then .ok (.newPty processId none outputOffset none)
    else .error (.invalidProcessSpec capability
      "attached PTY startup must not return session credentials or a nonzero output offset")
  | .processPtyV1, .detachable _, some credentials =>
    if outputOffset = 0 then
      .ok (.newPty processId (some credentials.sessionId) outputOffset none)
    else .error (.invalidProcessSpec capability
      "new detachable PTY startup must begin at output offset zero")
  | .processPipeV1, _, _ =>
    .error (.invalidProcessSpec capability
      "pipe startup must not return a PTY session or nonzero output offset")
  | .processPtyV1, .attached, _ =>
    .error (.invalidProcessSpec capability
      "attached PTY startup must not return session credentials or a nonzero output offset")
  | .processPtyV1, .detachable _, none =>
    .error (.invalidProcessSpec capability
      "detachable PTY startup must return session credentials")
  | .workspaceWatchV1, _, _ => .error .unreachable

/-- The replay gap of an attachment that asked for the output from `replayFrom` on. -/
def replayGap (replayFrom : Option ℕ) (outputOffset : ℕ) : Outcome (Option (ℕ × ℕ)) :=
  match replayFrom with
  | some requested =>
    if outputOffset < requested then .error (.offsetMismatch "PTY replay" requested outputOffset)
    else if requested < outputOffset then .ok (some (requested, outputOffset))
    else .ok none
  | none => .ok none

/-- The phase after a message, by phase and then by message. -/
def applyMessage (supported : CapabilitySet) (phase : RuntimePhase) (message : RuntimeMessage) :
    Outcome RuntimePhase :=
  let unexpected : Outcome RuntimePhase := .error (.unexpectedMessage phase.name message.name)
  match message, phase with
  | .error _, .closed => unexpected
  | .error _, _ => .ok .closed
  | message, .awaitClientHello =>
    match message with
    | .clientHello version protocol capability => do
        validateProtocolAndCapability supported version protocol capability
        return .awaitServerHello capability
    | _ => unexpected
  | message, .awaitServerHello expected =>
    match message with
    | .serverHello version protocol capability => do
        validateProtocolAndCapability supported version protocol capability
        rejectIf (capability != expected) (.capabilityMismatch expected capability)
        return .ready capability
    | _ => unexpected
  | message, .ready capability =>
    match capability, message with
    | .processPipeV1, .startProcess requestId spec
    | .processPtyV1, .startProcess requestId spec => do
        validateSpecForCapability capability spec
        return .awaitProcessStarted capability requestId spec.persistence
    | .processPtyV1, .attachPty requestId credentials replayFrom =>
      .ok (.awaitPtyAttached requestId credentials.sessionId replayFrom)
    | .workspaceWatchV1, .watchStart requestId resumeFrom =>
      .ok (.awaitWatchStarted requestId resumeFrom)
    | _, _ => unexpected
  | message, .awaitProcessStarted capability expectedRequestId persistence =>
    match message with
    | .processStarted requestId processId session outputOffset => do
        expectRequestId expectedRequestId requestId
        let process ← startedProcess capability persistence processId session outputOffset
        return .running process
    | _ => unexpected
  | message, .awaitPtyAttached expectedRequestId expectedSessionId replayFrom =>
    match message with
    | .ptyAttached requestId processId sessionId outputOffset => do
        expectRequestId expectedRequestId requestId
        rejectIf (sessionId != expectedSessionId) .sessionIdMismatch
        let gapPending ← replayGap replayFrom outputOffset
        return .running (.newPty processId (some sessionId) outputOffset gapPending)
    | _ => unexpected
  | message, .running process => do
      let (process, ended) ← applyRunningMessage process message
      return if ended then .closed
        else match message with
          | .detach _ => .awaitDetached process
          | _ => .running process
  | message, .awaitDetached process =>
    match message with
    | .detached processId sessionId => do
        expectProcessId process.processId processId
        rejectIf (process.sessionId != some sessionId) .sessionIdMismatch
        return .closed
    | .outputAck .. => do
        let (process, ended) ← applyRunningMessage process message
        return if ended then .closed else .awaitDetached process
    | _ => do
        let (process, ended) ← applyRunningServerMessage process message
        return if ended then .closed else .awaitDetached process
  | message, .awaitWatchStarted expectedRequestId resumeFrom =>
    match message with
    | .watchStarted requestId watchId nextSequence => do
        expectRequestId expectedRequestId requestId
        match resumeFrom with
        | some resumeFrom =>
          rejectIf (nextSequence < resumeFrom)
            (.offsetMismatch "watch resume" resumeFrom nextSequence)
        | none => pure ()
        return .watching
          { watchId, nextSequence, ackedSequence := nextSequence
            gapPending := (resumeFrom.filter (· < nextSequence)).map (·, nextSequence) }
    | _ => unexpected
  | message, .watching watch =>
    match message with
    | .watchStop watchId => do
        expectWatchId watch.watchId watchId
        return .awaitWatchStopped watch
    | _ => do
        let watch ← applyWatchMessage watch message
        return .watching watch
  | message, .awaitWatchStopped watch =>
    match message with
    | .watchStopped watchId => do
        expectWatchId watch.watchId watchId
        return .closed
    | _ => do
        let watch ← applyWatchMessage watch message
        return .awaitWatchStopped watch
  | _, .closed => unexpected

/-! ### The transition function by phase -/

section Phases

variable {supported : CapabilitySet} {phase q : RuntimePhase} {a : RuntimeMessage}

theorem applyMessage_error {e : RuntimeError} (h : phase ≠ .closed) :
    applyMessage supported phase (.error e) = .ok .closed := by
  cases phase <;> first | rfl | exact absurd rfl h

theorem applyMessage_closed : ¬ applyMessage supported .closed a = .ok q := by
  cases a <;> simp [applyMessage]

/-- The phase a message of the client leaves a running process in. -/
def afterClient (a : RuntimeMessage) (process : RuntimeProcessState) : RuntimePhase :=
  match a with
  | .detach _ => .awaitDetached process
  | _ => .running process

/-- The phase after a message of the server, unless it is the last one. -/
def unlessEnded (ended : Bool) (phase : RuntimePhase) : RuntimePhase :=
  if ended then .closed else phase

variable {process : RuntimeProcessState}

theorem applyMessage_running (he : ∀ e, a ≠ .error e) :
    applyMessage supported (.running process) a =
      applyRunningMessage process a >>= fun r => .ok (unlessEnded r.2 (afterClient a r.1)) := by
  cases a <;> first | rfl | exact absurd rfl (he _)

variable {id : ℕ}

theorem applyMessage_awaitDetached_outputAck {n : ℕ} {stream : RuntimeOutputStream} :
    applyMessage supported (.awaitDetached process) (.outputAck id stream n) =
      applyRunningMessage process (.outputAck id stream n) >>= fun r =>
        .ok (unlessEnded r.2 (.awaitDetached r.1)) := rfl

theorem applyMessage_awaitDetached_detached {session : PtySessionId} :
    applyMessage supported (.awaitDetached process) (.detached id session) = .ok q ↔
      process.processId = id ∧ process.sessionId = some session ∧ .closed = q := by
  simp [applyMessage]

theorem applyMessage_awaitDetached (he : ∀ e, a ≠ .error e)
    (hd : ∀ id session, a ≠ .detached id session)
    (ho : ∀ id stream n, a ≠ .outputAck id stream n) :
    applyMessage supported (.awaitDetached process) a =
      applyRunningServerMessage process a >>= fun r =>
        .ok (unlessEnded r.2 (.awaitDetached r.1)) := by
  cases a <;> first | rfl | exact absurd rfl (he _) | exact absurd rfl (hd _ _) |
    exact absurd rfl (ho _ _ _)

variable {watch : RuntimeWatchState}

theorem applyMessage_watching_watchStop : applyMessage supported (.watching watch)
    (.watchStop id) = .ok q ↔
      watch.watchId = id ∧ .awaitWatchStopped watch = q := by
  simp [applyMessage]

theorem applyMessage_watching (he : ∀ e, a ≠ .error e) (hs : ∀ id, a ≠ .watchStop id) :
    applyMessage supported (.watching watch) a = applyWatchMessage watch a >>= fun w =>
      .ok (.watching w) := by
  cases a <;> first | rfl | exact absurd rfl (he _) | exact absurd rfl (hs _)

theorem applyMessage_awaitWatchStopped_watchStopped :
    applyMessage supported (.awaitWatchStopped watch) (.watchStopped id) = .ok q ↔
      watch.watchId = id ∧ .closed = q := by
  simp [applyMessage]

theorem applyMessage_awaitWatchStopped (he : ∀ e, a ≠ .error e) (hs : ∀ id, a ≠ .watchStopped id) :
    applyMessage supported (.awaitWatchStopped watch) a =
      applyWatchMessage watch a >>= fun w => .ok (.awaitWatchStopped w) := by
  cases a <;> first | rfl | exact absurd rfl (he _) | exact absurd rfl (hs _)

end Phases

/-! ### The machine at one end -/

structure RuntimeStateMachine where
  role : RuntimePeerRole
  supported : CapabilitySet
  phase : RuntimePhase
  deriving DecidableEq, Repr

inductive RuntimeDirection
  | inbound
  | outbound
  deriving DecidableEq, Repr

/-- The party that sent a message seen in a direction by a party of a role. -/
def actualSender : RuntimePeerRole → RuntimeDirection → RuntimePeerRole
  | .client, .outbound | .server, .inbound => .client
  | .client, .inbound | .server, .outbound => .server

namespace RuntimeStateMachine

def new (role : RuntimePeerRole) (supported : CapabilitySet) : RuntimeStateMachine :=
  ⟨role, supported, .awaitClientHello⟩

def isClosed (machine : RuntimeStateMachine) : Bool := machine.phase == .closed

/-- One message at one end: validated, checked for its sender, applied. -/
def observe (machine : RuntimeStateMachine) (direction : RuntimeDirection)
    (message : RuntimeMessage) : Outcome RuntimeStateMachine := do
  message.validate.mapError .invalidMessage
  rejectIf (message.sender != actualSender machine.role direction)
    (.wrongSender message.name message.sender (actualSender machine.role direction))
  let phase ← applyMessage machine.supported machine.phase message
  return { machine with phase }

def observeInbound (machine : RuntimeStateMachine) (message : RuntimeMessage) :
    Outcome RuntimeStateMachine :=
  machine.observe .inbound message

def observeOutbound (machine : RuntimeStateMachine) (message : RuntimeMessage) :
    Outcome RuntimeStateMachine :=
  machine.observe .outbound message

theorem observe_eq_ok {machine machine' : RuntimeStateMachine} {direction : RuntimeDirection}
    {message : RuntimeMessage} : machine.observe direction message = .ok machine' ↔
      message.validate = .ok () ∧ message.sender = actualSender machine.role direction ∧
        ∃ phase, applyMessage machine.supported machine.phase message = .ok phase ∧
          { machine with phase } = machine' := by
  simp only [observe, unit_bind_eq_ok, mapError_eq_ok, rejectIf_eq_ok, bne_eq_false_iff_eq]
  simp [bind_eq_ok]

end RuntimeStateMachine

end RemoteMirror.Runtime
