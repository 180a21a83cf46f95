/-
**A runtime session of the agent: its threads.**

Once a process is started, `crates/nrm-agent/src/runtime.rs` runs it with several threads.  An
output worker per stream reads what the process writes and publishes it; the reader loop takes the
messages of the client; the input worker writes to the process; the waiter notices the end of the
process and sends the last message; the writer puts the queued messages on the wire.  They share the
protocol state machine, the flow of each stream, the outbound queue and some flags.

Each thread is a function of what is shared and of where the thread stands.  One step reads or
writes one shared thing: a flag, or what one lock protects.  What the operating system answers (a
read, a write, the state of the process, whether a deadline has passed) comes from outside as a
choice.

Two things are kept for statements only: `sent`, the messages that were put into the queue, and
`received`, the bytes a worker has read.  Poisoned locks and panics are left out, and so is the end
of `run` after the threads are joined.

Main definitions:

* `AgentRuntime.OutputFlow` — the window of one stream;
* `AgentRuntime.Shared`, `AgentRuntime.Shared.send` — what the threads share;
* `AgentRuntime.stepWorker`, `AgentRuntime.stepReader`,
  `AgentRuntime.stepInput`, `AgentRuntime.stepWaiter`,
  `AgentRuntime.stepWriter` — the threads;
* `AgentRuntime.Session.step`, `AgentRuntime.Session.run` — their interleavings.
-/

import RemoteMirror.RuntimeMachine

namespace RemoteMirror.AgentRuntime

open RemoteMirror.Runtime

def inputQueueDepth : ℕ := 16

def serverQueueDepth : ℕ := 64

def outputFlowWindowBytes : ℕ := 1024 * 1024

def outputHardMaxBytes : ℕ := 128 * 1024 * 1024

/-! ### The window of a stream -/

/-- `OutputFlowState` -/
structure OutputFlow where
  sent : ℕ
  acknowledged : ℕ
  stopped : Bool
  deriving DecidableEq

/-- What `OutputFlow::reserve` comes to when it has the lock. -/
inductive Reservation
  /-- the window is full -/
  | wait
  | stopped
  | granted (offset length : ℕ)
  | failed (message : String)
  deriving DecidableEq

namespace OutputFlow

def new : OutputFlow := ⟨0, 0, false⟩

def reserve (flow : OutputFlow) (requested : ℕ) : OutputFlow × Reservation :=
  if flow.stopped = false ∧ outputFlowWindowBytes ≤ flow.sent - flow.acknowledged then (flow, .wait)
  else if flow.stopped then (flow, .stopped)
  else
    let available := outputFlowWindowBytes - (flow.sent - flow.acknowledged)
    let length := min requested available
    if length = 0 then (flow, .failed "runtime output flow window has no reservable bytes")
    else
      match checkedAdd flow.sent length with
      | none => (flow, .failed "runtime output offset overflow")
      | some sent => ({ flow with sent }, .granted flow.sent length)

def acknowledge (flow : OutputFlow) (nextOffset : ℕ) : Except String OutputFlow :=
  if nextOffset < flow.acknowledged ∨ flow.sent < nextOffset then
    .error "runtime output acknowledgement is outside the in-flight window"
  else .ok { flow with acknowledged := nextOffset }

def stop (flow : OutputFlow) : OutputFlow := { flow with stopped := true }

end OutputFlow

/-! ### What the threads share -/

structure PtyExitStatus where
  code : Option ℕ
  signal : Option ℕ
  deriving DecidableEq

inductive Termination
  | none
  | timeout
  | outputLimit
  | cancelled
  deriving DecidableEq

/-- The started process; `killed` says that the agent has sent it a kill while it was running. -/
structure Process where
  exit : Option PtyExitStatus
  killed : Bool
  deriving DecidableEq

inductive InputCommand
  | data (data : List UInt8) (nextOffset : ℕ)
  | close
  deriving DecidableEq

/-- The queue to the writer thread; `attached` says that the thread still takes from it. -/
structure Writer where
  queue : List RuntimeMessage
  written : List RuntimeMessage
  failure : Option String
  attached : Bool

/-- `record_writer_failure`: the first failure stays. -/
def Writer.recordFailure (writer : Writer) (message : String) : Writer :=
  { writer with failure := writer.failure.or (some message) }

/-- `RuntimeWriter::enqueue`; whether the message is queued -/
def Writer.enqueue (writer : Writer) (message : RuntimeMessage) : Writer × Bool :=
  if writer.attached = false then
    (writer.recordFailure "runtime output stream is closed", false)
  else if serverQueueDepth ≤ writer.queue.length then
    (writer.recordFailure "runtime output queue is full; peer is not draining output", false)
  else ({ writer with queue := writer.queue ++ [message] }, true)

structure Shared where
  machine : RuntimeStateMachine
  writer : Writer
  flows : RuntimeOutputStream → OutputFlow
  outputTotal : ℕ
  outputTruncated : Bool
  ioStop : Bool
  termination : Termination
  done : Bool
  process : Process
  /-- the queue to the input worker, and whether its two ends are there -/
  inputs : List InputCommand
  inputSender : Bool
  inputReceiver : Bool
  sent : List RuntimeMessage

/-- `bounded_error_message`: as many whole characters as fit. -/
def boundedErrorMessage (message : String) : String :=
  if message.utf8ByteSize ≤ runtimeMaxErrorMessageBytes then message
  else
    String.ofList ((message.toList.inits.filter fun chars =>
      (String.ofList chars).utf8ByteSize ≤ runtimeMaxErrorMessageBytes).getLast?.getD [])

namespace Shared

/-- `RuntimeServer::send`; whether it succeeds -/
def send (s : Shared) (message : RuntimeMessage) : Shared × Bool :=
  match s.machine.observeOutbound message with
  | .error _ => (s, false)
  | .ok machine =>
    match s.writer.enqueue message with
    | (writer, true) => ({ s with machine, writer, sent := s.sent ++ [message] }, true)
    | (writer, false) => ({ s with machine, writer }, false)

def sendError (s : Shared) (code : RuntimeErrorCode) (message : String) (retryable : Bool) :
    Shared × Bool :=
  s.send (.error ⟨code, boundedErrorMessage message, retryable⟩)

def hasFailed (s : Shared) : Bool := s.writer.failure.isSome

/-- `kill_process` -/
def kill (s : Shared) : Shared :=
  { s with process := { s.process with killed := s.process.killed || s.process.exit.isNone } }

/-- `mark_termination`: the first reason stays. -/
def markTermination (s : Shared) (value : Termination) : Shared :=
  if s.termination = .none then { s with termination := value } else s

def setFlow (s : Shared) (stream : RuntimeOutputStream) (flow : OutputFlow) : Shared :=
  { s with flows := Function.update s.flows stream flow }

end Shared

/-- What does not change during a session. -/
structure Config where
  processId : ℕ
  pty : Bool
  /-- the bound on the output of both streams together -/
  outputLimit : Option ℕ
  hasTimeout : Bool
  windows : Bool
  /-- the texts of the errors of the state machine -/
  describe : RuntimeStateError → String

/-! ### The output worker -/

/-- Where an output worker stands. -/
inductive WorkerPoint
  | start
  | prepare
  | checkLoop
  | markReading
  /-- `read_output_chunk`: before a read, at a read, after a read that would block, after an
  interrupted one, after a failed one -/
  | readCheck
  | read
  | readIdle
  | readInterrupted
  | readFailed (message : String)
  | checkRead
  | markPublishing
  /-- `reserve_output`: the load, and the exchange with what was loaded -/
  | loadTotal
  | exchangeTotal (current : ℕ)
  | truncate
  | markLimit
  | killLimit
  | checkPublish
  | reserve
  | send (offset length : ℕ)
  | sendError (message : String)
  | kill
  | finished
  deriving DecidableEq

structure Worker where
  point : WorkerPoint
  /-- the part of the buffer that was read -/
  buffer : List UInt8
  sendLen : ℕ
  sent : ℕ
  forceStop : Bool
  /-- `OUTPUT_WORKER_READING`, not `OUTPUT_WORKER_PUBLISHING` -/
  reading : Bool
  received : List UInt8
  deriving DecidableEq

/-- What `read` returns; no more than there is room for. -/
inductive ReadOutcome
  | data (bytes : List UInt8)
  | eof
  | wouldBlock
  | interrupted
  | failed (message : String)

inductive WorkerChoice
  | go
  | read (outcome : ReadOutcome)
  | prepareFailed (message : String)
  /-- a weak exchange may fail without a reason -/
  | exchangeFailed

namespace Worker

def start : Worker := ⟨.start, [], 0, 0, false, true, []⟩

/-- There is no such stream. -/
def absent : Worker := { start with point := .finished }

def goto (worker : Worker) (point : WorkerPoint) : Worker := { worker with point }

/-- Stop if `force_stop` is set. -/
def unlessStopped (worker : Worker) (point : WorkerPoint) : Worker :=
  worker.goto (if worker.forceStop then .finished else point)

/-- The bytes of the next message. -/
def chunk (worker : Worker) (length : ℕ) : List UInt8 :=
  (worker.buffer.drop worker.sent).take length

/-- After one read of `read_output_chunk`. -/
def afterRead (worker : Worker) (windows : Bool) : ReadOutcome → Option Worker
  | .eof => some (worker.goto (if worker.buffer.isEmpty then .finished else .checkRead))
  | .data bytes =>
    if bytes.isEmpty ∨ runtimeMaxDataChunkLen < worker.buffer.length + bytes.length then none
    else
      let buffer := worker.buffer ++ bytes
      let full := windows || buffer.length = runtimeMaxDataChunkLen
      some { worker with
        buffer
        received := worker.received ++ bytes
        point := if full then .checkRead else .readCheck }
  | .wouldBlock => some (worker.goto (if worker.buffer.isEmpty then .readIdle else .checkRead))
  | .interrupted => some (worker.goto .readInterrupted)
  | .failed message =>
    some (worker.goto (if worker.buffer.isEmpty then .readFailed message else .checkRead))

/-- After `reserve_output`. -/
def afterLimit (worker : Worker) (sendLen : ℕ) : Worker :=
  { worker with
    sendLen
    sent := 0
    point := if sendLen < worker.buffer.length then .truncate
      else if sendLen = 0 then .finished else .checkPublish }

end Worker

def stepWorker (config : Config) (stream : RuntimeOutputStream) (s : Shared) (worker : Worker)
    (choice : WorkerChoice) : Option (Shared × Worker) :=
  match worker.point, choice with
  | .start, .go => some (s, worker.unlessStopped .prepare)
  | .prepare, .go => some (s, worker.goto .checkLoop)
  | .prepare, .prepareFailed message =>
    some (s, worker.goto (.sendError ("prepare process output cancellation failed: " ++ message)))
  | .checkLoop, .go => some (s, worker.unlessStopped .markReading)
  | .markReading, .go =>
    some (s, { worker with reading := true, buffer := [], point := .readCheck })
  | .readCheck, .go => some (s, worker.unlessStopped .read)
  | .read, .read outcome => (worker.afterRead config.windows outcome).map fun worker => (s, worker)
  | .readIdle, .go => some (s, worker.goto (if s.ioStop then .finished else .readCheck))
  | .readInterrupted, .go => some (s, worker.unlessStopped .readCheck)
  | .readFailed message, .go =>
    some (s, worker.unlessStopped (.sendError ("read process output failed: " ++ message)))
  | .checkRead, .go => some (s, worker.unlessStopped .markPublishing)
  | .markPublishing, .go => some (s, { worker with reading := false, point := .loadTotal })
  | .loadTotal, .go =>
    some (s, if config.outputLimit.isSome then worker.goto (.exchangeTotal s.outputTotal)
      else worker.afterLimit worker.buffer.length)
  | .exchangeTotal current, .go =>
    match config.outputLimit with
    | none => none
    | some limit =>
      if s.outputTotal = current then
        let reserved := min (limit - current) worker.buffer.length
        some ({ s with outputTotal := current + reserved }, worker.afterLimit reserved)
      else some (s, worker.goto (.exchangeTotal s.outputTotal))
  | .exchangeTotal _, .exchangeFailed => some (s, worker.goto (.exchangeTotal s.outputTotal))
  | .truncate, .go => some ({ s with outputTruncated := true }, worker.goto .markLimit)
  | .markLimit, .go => some (s.markTermination .outputLimit, worker.goto .killLimit)
  | .killLimit, .go =>
    some (s.kill, worker.goto (if worker.sendLen = 0 then .finished else .checkPublish))
  | .checkPublish, .go =>
    some (s, if worker.sent < worker.sendLen then worker.unlessStopped .reserve
      else worker.goto .checkLoop)
  | .reserve, .go =>
    match (s.flows stream).reserve (worker.sendLen - worker.sent) with
    | (_, .wait) => none
    | (_, .stopped) => some (s, worker.goto .finished)
    | (_, .failed message) => some (s, worker.goto (.sendError message))
    | (flow, .granted offset length) =>
      some (s.setFlow stream flow, worker.goto (.send offset length))
  | .send offset length, .go =>
    match s.send (.output config.processId stream offset (worker.chunk length)) with
    | (s, true) => some (s, { worker with sent := worker.sent + length, point := .checkPublish })
    | (s, false) => some (s, worker.goto .kill)
  | .sendError message, .go => some ((s.sendError .internal message false).1, worker.goto .kill)
  | .kill, .go => some (s.kill, worker.goto .finished)
  | _, _ => none

/-! ### The reader loop -/

/-- Where the main thread stands, in `runtime_loop` and after it. -/
inductive ReaderPoint
  | checkDone
  | receive
  | checkReceived (message : RuntimeMessage)
  | observe (message : RuntimeMessage)
  | refused (message : String)
  /-- the message was accepted -/
  | handle (message : RuntimeMessage)
  /-- an accepted acknowledgement is released in the flow -/
  | release (stream : RuntimeOutputStream) (nextOffset : ℕ)
  | sendError (code : RuntimeErrorCode) (message : String) (retryable returns : Bool)
  | kill (returns : Bool)
  | checkAfter
  /-- `runtime_loop` has returned -/
  | dropInput
  | checkCancelled
  | markCancelled
  | killRemaining
  | joinInput
  | joinWaiter
  | finished
  deriving DecidableEq

inductive ReaderChoice
  | go
  | message (message : RuntimeMessage)
  | timeout
  | disconnected
  /-- `resize` or `signal` fails -/
  | failed (unsupported : Bool) (message : String)

def ptySize (size : TerminalSize) : Except String Unit :=
  if 32767 < size.rows ∨ 32767 < size.columns then
    .error "terminal rows and columns must not exceed 32767"
  else if 65535 < size.pixelWidth.getD 0 then .error "terminal pixel width exceeds 65535"
  else if 65535 < size.pixelHeight.getD 0 then .error "terminal pixel height exceeds 65535"
  else .ok ()

def queueInput (s : Shared) (command : InputCommand) : Shared × ReaderPoint :=
  if s.inputReceiver = false then
    (s, .sendError .internal "runtime input stream is closed" false false)
  else if inputQueueDepth ≤ s.inputs.length then
    (s, .sendError .resourceLimit "runtime input queue is full" true false)
  else ({ s with inputs := s.inputs ++ [command] }, .checkAfter)

/-- The last `match` of the loop, on a message the state machine has accepted. -/
def handle (s : Shared) (message : RuntimeMessage) (choice : ReaderChoice) :
    Option (Shared × ReaderPoint) :=
  match message, choice with
  | .input _ offset data, .go => some (queueInput s (.data data (offset + data.length)))
  | .closeInput _ _, .go => some (queueInput s .close)
  | .outputAck _ stream nextOffset, .go => some (s, .release stream nextOffset)
  | .resize _ size, .go =>
    match ptySize size with
    | .error message => some (s, .sendError .invalidRequest message false true)
    | .ok () => some (s, .checkAfter)
  | .resize _ size, .failed unsupported message =>
    match ptySize size with
    | .error _ => none
    | .ok () =>
      some (s, .sendError (if unsupported then .unsupported else .internal) message false true)
  | .signal _ _, .go => some (s, .checkAfter)
  | .signal _ _, .failed unsupported message =>
    some (s, .sendError (if unsupported then .unsupported else .internal) message false true)
  | _, _ => none

def stepReader (config : Config) (inputFinished waiterFinished : Bool) (s : Shared)
    (point : ReaderPoint) (choice : ReaderChoice) : Option (Shared × ReaderPoint) :=
  match point, choice with
  | .checkDone, .go => some (s, if s.done then .dropInput else .receive)
  | .receive, .message message => some (s, .checkReceived message)
  | .receive, .timeout => some (s, .checkDone)
  | .receive, .disconnected => some (s, .dropInput)
  | .checkReceived message, .go => some (s, if s.done then .dropInput else .observe message)
  | .observe message, .go =>
    if message = .detach config.processId then
      some (s, .sendError .persistenceUnavailable
        "attached process cannot be detached without the persistent runtime broker" false true)
    else
      match s.machine.observeInbound message with
      | .error err => some (s, .refused (config.describe err))
      | .ok machine => some ({ s with machine }, .handle message)
  | .refused message, .go =>
    some (s, if s.done then .dropInput else .sendError .protocol message false true)
  | .handle message, choice => handle s message choice
  | .release stream nextOffset, .go =>
    match (s.flows stream).acknowledge nextOffset with
    | .error _ => some (s, .dropInput)
    | .ok flow => some (s.setFlow stream flow, .checkAfter)
  | .sendError code message retryable returns, .go =>
    let (s, sent) := s.sendError code message retryable
    some (s, .kill (returns || !sent))
  | .kill returns, .go => some (s.kill, if returns then .dropInput else .checkAfter)
  | .checkAfter, .go => some (s, if s.done then .dropInput else .checkDone)
  | .dropInput, .go => some ({ s with inputSender := false }, .checkCancelled)
  | .checkCancelled, .go => some (s, if s.done then .killRemaining else .markCancelled)
  | .markCancelled, .go => some (s.markTermination .cancelled, .killRemaining)
  | .killRemaining, .go => some (s.kill, .joinInput)
  | .joinInput, .go => if inputFinished then some (s, .joinWaiter) else none
  | .joinWaiter, .go => if waiterFinished then some (s, .finished) else none
  | _, _ => none

/-! ### The input worker -/

inductive InputPoint
  | prepare
  | receive
  /-- `write_runtime_input`: before a write, at a write, before a flush, at a flush -/
  | writeCheck (rest : List UInt8) (nextOffset : ℕ)
  | write (rest : List UInt8) (nextOffset : ℕ)
  | flushCheck (nextOffset : ℕ)
  | flush (nextOffset : ℕ)
  | checkStop (nextOffset : ℕ)
  | acknowledge (nextOffset : ℕ)
  | sendError (message : String)
  | kill
  /-- the thread ends and its end of the queue goes -/
  | close
  | finished
  deriving DecidableEq

inductive InputChoice
  | go
  | wrote (count : ℕ)
  | retry
  | failed (message : String)

def stepInput (config : Config) (s : Shared) (point : InputPoint) (choice : InputChoice) :
    Option (Shared × InputPoint) :=
  match point, choice with
  | .prepare, .go => some (s, .receive)
  | .prepare, .failed message =>
    some (s, .sendError ("prepare process input cancellation failed: " ++ message))
  | .receive, .go =>
    match s.inputs with
    | .data data nextOffset :: inputs => some ({ s with inputs }, .writeCheck data nextOffset)
    | .close :: inputs => some ({ s with inputs }, .close)
    | [] => if s.inputSender then none else some (s, .close)
  | .writeCheck rest nextOffset, .go =>
    some (s, if rest.isEmpty then .flushCheck nextOffset
      else if s.ioStop then .checkStop nextOffset else .write rest nextOffset)
  | .write rest nextOffset, .wrote count =>
    if count = 0 then some (s, .sendError "write process input failed: write zero")
    else if rest.length < count then none
    else some (s, .writeCheck (rest.drop count) nextOffset)
  | .write rest nextOffset, .retry => some (s, .writeCheck rest nextOffset)
  | .write _ _, .failed message => some (s, .sendError ("write process input failed: " ++ message))
  | .flushCheck nextOffset, .go =>
    some (s, if s.ioStop then .checkStop nextOffset else .flush nextOffset)
  | .flush nextOffset, .go => some (s, .checkStop nextOffset)
  | .flush nextOffset, .retry => some (s, .flushCheck nextOffset)
  | .flush _, .failed message => some (s, .sendError ("write process input failed: " ++ message))
  | .checkStop nextOffset, .go => some (s, if s.ioStop then .close else .acknowledge nextOffset)
  | .acknowledge nextOffset, .go =>
    match s.send (.inputAck config.processId nextOffset) with
    | (s, true) => some (s, .receive)
    | (s, false) => some (s, .kill)
  | .sendError message, .go => some ((s.sendError .internal message false).1, .kill)
  | .kill, .go => some (s.kill, .close)
  | .close, .go => some ({ s with inputReceiver := false }, .finished)
  | _, _ => none

/-! ### The waiter -/

/-- The streams, in the order the source goes through them. -/
def streams : List RuntimeOutputStream := [.stdout, .stderr, .pty]

/-- What the waiter has found out after the end of the process. -/
structure Closing where
  status : Except String PtyExitStatus
  workersTimedOut : Bool
  readerTimedOut : Bool
  ackTimedOut : Bool
  abandoned : Bool
  /-- a read could not be cancelled, which happens on Windows only -/
  cancellationFailed : Bool

inductive WaiterPoint
  | poll
  | checkTimeout
  | markTimeout
  | killTimeout
  | setIoStop (status : Except String PtyExitStatus)
  | waitWorkers (status : Except String PtyExitStatus)
  /-- whether a worker is still reading, stream by stream: has it ended, and what is its phase -/
  | checkReading (closing : Closing) (rest : List RuntimeOutputStream)
  | loadPhase (closing : Closing) (stream : RuntimeOutputStream) (rest : List RuntimeOutputStream)
  /-- the flows are stopped early, because a worker has not ended in time -/
  | stopEarly (closing : Closing) (rest : List RuntimeOutputStream)
  | checkFailed (closing : Closing)
  | waitDrained (closing : Closing) (rest : List RuntimeOutputStream)
  | stopFlows (closing : Closing) (rest : List RuntimeOutputStream)
  /-- `finish_output_workers`: the requests to stop, then the wait -/
  | stopWorkers (closing : Closing) (rest : List RuntimeOutputStream)
  | waitStopped (closing : Closing)
  | setDone (closing : Closing)
  | checkWriter (closing : Closing)
  | storeTruncated (message : String)
  | sendError (message : String)
  | loadTermination (status : PtyExitStatus)
  | loadTruncated (status : RuntimeExitStatus)
  | sendExited (status : RuntimeExitStatus) (truncated : Bool)
  | finished

inductive WaiterChoice
  | go
  /-- a deadline has passed -/
  | deadline
  | pollFailed (message : String)
  | cancelFailed

def runtimeExitStatus (status : PtyExitStatus) : Termination → RuntimeExitStatus
  | .timeout => .timedOut
  | .outputLimit => .outputLimit
  | .cancelled => .cancelled
  | .none =>
    match status.signal with
    | some signal => .signal signal
    | none => .code (status.code.getD 1)

/-- How the waiter ends, once it knows that the writer has not failed. -/
def lastMessage (closing : Closing) : WaiterPoint :=
  if closing.readerTimedOut || closing.abandoned || closing.cancellationFailed then
    .storeTruncated "runtime output worker did not stop before its deadline"
  else if closing.ackTimedOut then
    .storeTruncated "runtime output acknowledgement did not drain before its deadline"
  else
    match closing.status with
    | .ok status => .loadTermination status
    | .error message => .sendError ("wait for runtime process failed: " ++ message)

/-- The waiter sees whether workers have ended and sets their `force_stop`. -/
def stepWaiter (config : Config) (workers : RuntimeOutputStream → Worker) (s : Shared)
    (point : WaiterPoint) (choice : WaiterChoice) :
    Option (Shared × (RuntimeOutputStream → Worker) × WaiterPoint) :=
  let ended (stream : RuntimeOutputStream) : Bool := (workers stream).point = .finished
  let goto (s : Shared) (point : WaiterPoint) := some (s, workers, point)
  match point, choice with
  | .poll, .go =>
    match s.process.exit with
    | some status => goto s (.setIoStop (.ok status))
    | none => goto s .checkTimeout
  | .poll, .pollFailed message => goto s (.setIoStop (.error message))
  | .checkTimeout, .go => goto s .poll
  | .checkTimeout, .deadline => if config.hasTimeout then goto s .markTimeout else none
  | .markTimeout, .go => goto (s.markTermination .timeout) .killTimeout
  | .killTimeout, .go => goto s.kill .poll
  | .setIoStop status, .go => goto { s with ioStop := true } (.waitWorkers status)
  | .waitWorkers status, .go =>
    if streams.all ended then goto s (.checkFailed ⟨status, false, false, false, false, false⟩)
    else none
  | .waitWorkers status, .deadline =>
    if streams.all ended then none
    else goto s (.checkReading ⟨status, true, false, false, false, false⟩ streams)
  | .checkReading closing [], .go => goto s (.stopEarly closing streams)
  | .checkReading closing (stream :: rest), .go =>
    goto s (if ended stream then .checkReading closing rest else .loadPhase closing stream rest)
  | .loadPhase closing stream rest, .go =>
    goto s (if (workers stream).reading then
        .stopEarly { closing with readerTimedOut := true } streams
      else .checkReading closing rest)
  | .stopEarly closing [], .go =>
    goto s (.stopFlows { closing with ackTimedOut := !closing.readerTimedOut } streams)
  | .stopEarly closing (stream :: rest), .go =>
    goto (s.setFlow stream (s.flows stream).stop) (.stopEarly closing rest)
  | .checkFailed closing, .go =>
    goto s (if s.hasFailed then .stopFlows closing streams else .waitDrained closing streams)
  | .waitDrained closing [], .go => goto s (.stopFlows closing streams)
  | .waitDrained closing (stream :: rest), .go =>
    let flow := s.flows stream
    if flow.stopped then goto s (.stopFlows { closing with ackTimedOut := true } streams)
    else if flow.acknowledged = flow.sent then goto s (.waitDrained closing rest)
    else none
  | .waitDrained closing (stream :: _), .deadline =>
    let flow := s.flows stream
    if flow.stopped = false ∧ flow.acknowledged ≠ flow.sent then
      goto s (.stopFlows { closing with ackTimedOut := true } streams)
    else none
  | .stopFlows closing [], .go => goto s (.stopWorkers closing streams)
  | .stopFlows closing (stream :: rest), .go =>
    goto (s.setFlow stream (s.flows stream).stop) (.stopFlows closing rest)
  | .stopWorkers closing [], .go => goto s (.waitStopped closing)
  | .stopWorkers closing (stream :: rest), .go =>
    if ended stream then goto s (.stopWorkers closing rest)
    else
      some (s, Function.update workers stream { workers stream with forceStop := true },
        .stopWorkers closing rest)
  | .waitStopped closing, .go =>
    if streams.all ended then goto s (.setDone closing) else none
  | .waitStopped closing, .deadline =>
    if streams.all ended then none else goto s (.setDone { closing with abandoned := true })
  | .waitStopped closing, .cancelFailed =>
    if config.windows && !streams.all ended then
      goto s (.waitStopped { closing with cancellationFailed := true })
    else none
  | .setDone closing, .go => goto { s with done := true } (.checkWriter closing)
  | .checkWriter closing, .go => goto s (if s.hasFailed then .finished else lastMessage closing)
  | .storeTruncated message, .go => goto { s with outputTruncated := true } (.sendError message)
  | .sendError message, .go => goto (s.sendError .internal message false).1 .finished
  | .loadTermination status, .go => goto s (.loadTruncated (runtimeExitStatus status s.termination))
  | .loadTruncated status, .go => goto s (.sendExited status s.outputTruncated)
  | .sendExited status truncated, .go =>
    goto (s.send (.exited config.processId status truncated)).1 .finished
  | _, _ => none

/-! ### The writer -/

/-- The writer thread takes a message and writes it, or fails to. -/
def stepWriter (s : Shared) (failure : Option String) : Option Shared :=
  match s.writer.attached, s.writer.queue with
  | true, message :: queue =>
    match failure with
    | none =>
      some { s with writer := { s.writer with queue, written := s.writer.written ++ [message] } }
    | some err =>
      some { s with
        writer := { (s.writer.recordFailure ("write runtime frame failed: " ++ err)) with
          queue := [], attached := false } }
  | _, _ => none

/-! ### Sessions -/

structure Session where
  shared : Shared
  workers : RuntimeOutputStream → Worker
  reader : ReaderPoint
  input : InputPoint
  waiter : WaiterPoint

/-- Which thread goes next, and what the system answers it. -/
inductive Move
  | worker (stream : RuntimeOutputStream) (choice : WorkerChoice)
  | reader (choice : ReaderChoice)
  | input (choice : InputChoice)
  | waiter (choice : WaiterChoice)
  | writer (failure : Option String)
  /-- the process ends -/
  | exits (status : PtyExitStatus)

namespace Session

variable (config : Config)

/-- The process the state machine runs once `ProcessStarted` is sent. -/
def startedProcess : RuntimeProcessState :=
  if config.pty then .newPty config.processId none 0 none else .newPipe config.processId

/-- The threads are about to start.  The queue may still hold the messages sent so far. -/
def start (supported : CapabilitySet) (earlier : List RuntimeMessage) : Session where
  shared :=
    { machine := ⟨.server, supported, .running (startedProcess config)⟩
      writer := ⟨earlier, [], none, true⟩
      flows := fun _ => OutputFlow.new
      outputTotal := 0
      outputTruncated := false
      ioStop := false
      termination := .none
      done := false
      process := ⟨none, false⟩
      inputs := []
      inputSender := true
      inputReceiver := true
      sent := [] }
  workers := fun stream =>
    if (startedProcess config).carries stream then Worker.start else Worker.absent
  reader := .checkDone
  input := .prepare
  waiter := .poll

def step (session : Session) : Move → Option Session
  | .worker stream choice =>
    (stepWorker config stream session.shared (session.workers stream) choice).map
      fun (shared, worker) =>
        { session with shared, workers := Function.update session.workers stream worker }
  | .reader choice =>
    (stepReader config (session.input = .finished)
      (match session.waiter with | .finished => true | _ => false)
      session.shared session.reader choice).map
      fun (shared, reader) => { session with shared, reader }
  | .input choice =>
    (stepInput config session.shared session.input choice).map
      fun (shared, input) => { session with shared, input }
  | .waiter choice =>
    (stepWaiter config session.workers session.shared session.waiter choice).map
      fun (shared, workers, waiter) => { session with shared, workers, waiter }
  | .writer failure =>
    (stepWriter session.shared failure).map fun shared => { session with shared }
  | .exits status =>
    if session.shared.process.exit.isSome then none
    else
      some { session with
        shared := { session.shared with
          process := { session.shared.process with exit := some status } } }

/-- The session after some moves. -/
def run (session : Session) : List Move → Option Session
  | [] => some session
  | move :: moves => (session.step config move).bind fun session => session.run moves

end Session

end RemoteMirror.AgentRuntime
