/-
**The output of a process: windows, offsets and bytes stay in step.**

Three things describe how far the output of a stream has come: the counters of its flow, the offsets
of the protocol state machine, and the bytes the output worker has read.  Two threads change them
under different locks: the worker reserves, and then sends; the reader loop has an acknowledgement
accepted by the state machine, and then releases it in the flow.  In between the counters differ, by
what is reserved and not sent and by what is accepted and not released, and by nothing else.

The statements are about all threads of a session at once.  What the other threads may do to a
stream is said once, as a relation on the shared state; each of their steps is in the relation, and
the invariant of a stream is stable under it.

Main definitions:

* `AgentRuntime.Running` — the state machine runs the process of the session;
* `AgentRuntime.Others` — what the other threads do to a stream;
* `AgentRuntime.StreamInv`, `AgentRuntime.SessionInv` — the invariant of a stream and of both.

Main results:

* `AgentRuntime.SessionInv.step`, `AgentRuntime.SessionInv.run` — **it holds in every
  interleaving**;
* `AgentRuntime.output_flow_in_step` — the window is kept, output is accepted while the session has
  not ended, accepted acknowledgements are released, what is sent is a prefix of what is read.
-/

import RemoteMirror.AgentSession

namespace RemoteMirror.AgentRuntime

open RemoteMirror.Runtime Checks

/-! ### The state machine during a session -/

/-- The state machine of the agent runs the process of the session. -/
structure Running (config : Config) (machine : RuntimeStateMachine)
    (process : RuntimeProcessState) : Prop where
  role : machine.role = .server
  phase : machine.phase = .running process
  processId : process.processId = config.processId
  pty : process.pty = config.pty
  gap : process.gapPending = none

/-- The session runs or has ended. -/
def Alive (config : Config) (machine : RuntimeStateMachine) : Prop :=
  machine.phase = .closed ∨ ∃ process, Running config machine process

section Machine

variable {config : Config} {machine machine' : RuntimeStateMachine}
  {process process' : RuntimeProcessState} {message : RuntimeMessage}

theorem Running.unique (h : Running config machine process) (h' : Running config machine process') :
    process = process' :=
  RuntimePhase.running.inj (h.phase.symm.trans h'.phase)

theorem Running.not_closed (h : Running config machine process) : machine.phase ≠ .closed := by
  rw [h.phase]
  exact RuntimePhase.noConfusion

theorem Running.setOffsets (h : Running config machine process) (stream : RuntimeOutputStream)
    (offsets : StreamOffsets) : Running config
      { machine with phase := .running (process.setOffsets stream offsets) }
      (process.setOffsets stream offsets) :=
  ⟨h.role, rfl, by simpa using h.processId, by simpa using h.pty, by simpa using h.gap⟩

/-- A closed machine accepts nothing. -/
theorem observe_closed (closed : machine.phase = .closed) (direction : RuntimeDirection) :
    machine.observe direction message ≠ .ok machine' := by
  intro h
  obtain ⟨-, -, phase, applied, -⟩ := RuntimeStateMachine.observe_eq_ok.mp h
  rw [closed] at applied
  exact applyMessage_closed applied

/-- The message is no output of the stream. -/
abbrev Apart (stream : RuntimeOutputStream) (message : RuntimeMessage) : Prop :=
  ∀ id n data, message ≠ .output id stream n data

/-- The process after a message of the agent: it has ended, or the offsets of a stream are as
before, unless the message is output of this stream. -/
theorem Running.observeOutbound (h : Running config machine process)
    (observed : machine.observeOutbound message = .ok machine') :
    machine'.phase = .closed ∨ ∃ process', Running config machine' process' ∧
      ∀ stream, Apart stream message → process'.offsets stream = process.offsets stream := by
  obtain ⟨-, sender, phase, applied, rfl⟩ := RuntimeStateMachine.observe_eq_ok.mp observed
  rw [h.role] at sender
  rw [h.phase] at applied
  by_cases isError : ∃ e, message = .error e
  · obtain ⟨e, rfl⟩ := isError
    rw [applyMessage_error RuntimePhase.noConfusion] at applied
    cases applied
    exact .inl rfl
  · rw [applyMessage_running fun e eq => isError ⟨e, eq⟩, applyRunningMessage_server sender,
      bind_eq_ok] at applied
    obtain ⟨⟨process', ended⟩, running, ok⟩ := applied
    cases ok
    cases applyRunningServerMessage_iff.mp running with
    | inputAck =>
      exact .inr ⟨_, ⟨h.role, rfl, h.processId, h.pty, h.gap⟩,
        fun stream _ => by cases stream <;> rfl⟩
    | @output id n _ stream data =>
      refine .inr ⟨_, h.setOffsets _ _, fun other ne => ?_⟩
      have different : other ≠ stream := fun eq => ne id n data (by rw [eq])
      rw [RuntimeProcessState.offsets_setOffsets, if_neg different]
    | outputGap _ _ gap => exact nomatch h.gap.symm.trans gap
    | exited => exact .inl rfl

/-- Output at the next offset is accepted, and moves it. -/
theorem Running.output (h : Running config machine process) {stream : RuntimeOutputStream}
    (carries : process.carries stream = true) {data : List UInt8} {next : ℕ} (some_data : data ≠ [])
    (fits : data.length ≤ runtimeMaxDataChunkLen)
    (sum : checkedAdd (process.offsets stream).next data.length = some next) :
    ∃ machine', machine.observeOutbound
        (.output config.processId stream (process.offsets stream).next data) = .ok machine' ∧
      ∃ process', Running config machine' process' ∧
        process'.offsets stream = { process.offsets stream with next } := by
  have applied : applyRunningServerMessage process
      (.output config.processId stream (process.offsets stream).next data) =
        .ok (process.setOffsets stream { process.offsets stream with next }, false) :=
    applyRunningServerMessage_iff.mpr (.output h.processId h.gap carries rfl sum)
  refine ⟨_, RuntimeStateMachine.observe_eq_ok.mpr ⟨?_, ?_, _, ?_, rfl⟩, _,
    h.setOffsets stream { process.offsets stream with next }, ?_⟩
  · simp [RuntimeMessage.validate, validateDataChunk, validateOptionalDataChunk, some_data, fits,
      sum]
  · rw [h.role]
    rfl
  · rw [h.phase, applyMessage_running (by simp), applyRunningMessage_server rfl, applied]
    rfl
  · rw [RuntimeProcessState.offsets_setOffsets, if_pos rfl]

end Machine

/-! ### The window -/

namespace OutputFlow

variable {flow flow' : OutputFlow} {requested offset length n : ℕ}

/-- The counters are in order, and what is not acknowledged fits the window. -/
structure Fits (flow : OutputFlow) : Prop where
  ordered : flow.acknowledged ≤ flow.sent
  window : flow.sent ≤ flow.acknowledged + outputFlowWindowBytes

/-- What a granted reservation is. -/
theorem reserve_granted (h : flow.reserve requested = (flow', .granted offset length)) :
    offset = flow.sent ∧ 0 < length ∧ length ≤ requested ∧
      length ≤ outputFlowWindowBytes - (flow.sent - flow.acknowledged) ∧
      checkedAdd flow.sent length = some flow'.sent ∧ flow'.acknowledged = flow.acknowledged := by
  unfold reserve at h
  split at h
  · cases h
  split at h
  · cases h
  dsimp only at h
  split at h
  · cases h
  rename_i positive
  split at h
  · cases h
  · rename_i sent sum
    cases h
    exact ⟨rfl, Nat.pos_of_ne_zero positive, Nat.min_le_left _ _, Nat.min_le_right _ _, sum, rfl⟩

theorem Fits.reserve (fits : flow.Fits)
    (h : flow.reserve requested = (flow', .granted offset length)) : flow'.Fits := by
  obtain ⟨-, -, -, room, sum, same⟩ := reserve_granted h
  have sent := (eq_of_checkedAdd sum).1
  have ordered := fits.ordered
  have window := fits.window
  constructor <;> omega

/-- An acknowledgement within the counters is released. -/
theorem acknowledge_eq_ok : flow.acknowledge n = .ok flow' ↔
    flow.acknowledged ≤ n ∧ n ≤ flow.sent ∧ { flow with acknowledged := n } = flow' := by
  unfold acknowledge
  split
  · rename_i bad
    constructor
    · intro h
      cases h
    · rintro ⟨low, high, -⟩
      omega
  · rename_i good
    simp only [Except.ok.injEq]
    constructor
    · intro h
      exact ⟨by omega, by omega, h⟩
    · rintro ⟨-, -, h⟩
      exact h

theorem Fits.acknowledge (fits : flow.Fits) (h : flow.acknowledge n = .ok flow') : flow'.Fits := by
  obtain ⟨low, high, rfl⟩ := acknowledge_eq_ok.mp h
  have window := fits.window
  constructor
  · exact high
  · change flow.sent ≤ n + outputFlowWindowBytes
    omega

end OutputFlow

/-! ### What the other threads do to a stream -/

/-- The output of a stream among some messages. -/
def delivered (stream : RuntimeOutputStream) (messages : List RuntimeMessage) : List UInt8 :=
  messages.flatMap fun message =>
    match message with
    | .output _ stream' _ data => if stream' = stream then data else []
    | _ => []

theorem delivered_append (stream : RuntimeOutputStream) (messages more : List RuntimeMessage) :
    delivered stream (messages ++ more) = delivered stream messages ++ delivered stream more := by
  simp [delivered]

variable {stream : RuntimeOutputStream} {message : RuntimeMessage}

theorem delivered_other (h : Apart stream message) : delivered stream [message] = [] := by
  cases message <;> simp only [delivered, List.flatMap_cons, List.flatMap_nil, List.append_nil]
  case output id stream' n data =>
    exact if_neg fun eq => h id n data (by rw [eq])

/-- **What others do to a stream**: its flow may be stopped, more of the limit may be used, the
session may end; the counters, the offsets and the output sent so far stay. -/
structure Others (config : Config) (stream : RuntimeOutputStream) (s s' : Shared) : Prop where
  sent : (s'.flows stream).sent = (s.flows stream).sent
  acknowledged : (s'.flows stream).acknowledged = (s.flows stream).acknowledged
  total : s.outputTotal ≤ s'.outputTotal
  delivered : delivered stream s'.sent = delivered stream s.sent
  alive : Alive config s.machine → Alive config s'.machine
  offsets : Alive config s.machine → ∀ process', Running config s'.machine process' →
    ∃ process, Running config s.machine process ∧ process'.offsets stream = process.offsets stream

namespace Others

variable {config : Config} {stream : RuntimeOutputStream} {s s' s'' : Shared}

/-- Nothing a stream depends on has changed. -/
theorem of_eq (machine : s'.machine = s.machine) (flow : s'.flows stream = s.flows stream)
    (total : s'.outputTotal = s.outputTotal) (sent : s'.sent = s.sent) :
    Others config stream s s' where
  sent := by rw [flow]
  acknowledged := by rw [flow]
  total := Nat.le_of_eq total.symm
  delivered := by rw [sent]
  alive := by rw [machine]; exact id
  offsets := by rw [machine]; exact fun _ process running => ⟨process, running, rfl⟩

theorem refl (s : Shared) : Others config stream s s := of_eq rfl rfl rfl rfl

theorem kill (s : Shared) : Others config stream s s.kill := of_eq rfl rfl rfl rfl

theorem markTermination (s : Shared) (value : Termination) :
    Others config stream s (s.markTermination value) := by
  unfold Shared.markTermination
  split
  · exact of_eq rfl rfl rfl rfl
  · exact refl s

/-- More of the limit is used. -/
theorem uses (s : Shared) (more : ℕ) :
    Others config stream s { s with outputTotal := s.outputTotal + more } :=
  ⟨rfl, rfl, Nat.le_add_right _ _, rfl, id, fun _ process running => ⟨process, running, rfl⟩⟩

theorem stop (s : Shared) (other : RuntimeOutputStream) :
    Others config stream s (s.setFlow other (s.flows other).stop) := by
  by_cases eq : stream = other
  · subst eq
    refine ⟨?_, ?_, Nat.le_refl _, rfl, id, fun _ process running => ⟨process, running, rfl⟩⟩
    · simp [Shared.setFlow, OutputFlow.stop]
    · simp [Shared.setFlow, OutputFlow.stop]
  · exact of_eq rfl (Function.update_of_ne eq _ _) rfl rfl

/-- A message that is not output of the stream is sent, or refused. -/
theorem send (s : Shared) {message : RuntimeMessage} (different : Apart stream message) :
    Others config stream s (s.send message).1 := by
  unfold Shared.send
  cases observed : s.machine.observeOutbound message with
  | error err => exact refl s
  | ok machine =>
    have alive : Alive config s.machine → Alive config machine := by
      rintro (closed | ⟨process, running⟩)
      · exact absurd observed (observe_closed closed _)
      · rcases running.observeOutbound observed with closed | ⟨process', running', -⟩
        · exact .inl closed
        · exact .inr ⟨process', running'⟩
    have offsets : Alive config s.machine → ∀ process', Running config machine process' →
        ∃ process, Running config s.machine process ∧
          process'.offsets stream = process.offsets stream := by
      rintro (closed | ⟨process, running⟩) process' running'
      · exact absurd observed (observe_closed closed _)
      · rcases running.observeOutbound observed with closed | ⟨process'', running'', same⟩
        · exact absurd closed running'.not_closed
        · rw [running'.unique running'']
          exact ⟨process, running, same stream different⟩
    dsimp only
    split
    · refine ⟨rfl, rfl, Nat.le_refl _, ?_, alive, offsets⟩
      rw [delivered_append, delivered_other different, List.append_nil]
    · exact ⟨rfl, rfl, Nat.le_refl _, rfl, alive, offsets⟩

theorem sendError (s : Shared) (code : RuntimeErrorCode) (message : String) (retryable : Bool) :
    Others config stream s (s.sendError code message retryable).1 :=
  send s nofun

end Others

/-! ### The invariant of a stream -/

/-- The acknowledgement of a stream that is accepted and not released. -/
def ReaderPoint.releasing (stream : RuntimeOutputStream) : ReaderPoint → Option ℕ
  | .handle (.outputAck _ stream' nextOffset) => if stream' = stream then some nextOffset else none
  | .release stream' nextOffset => if stream' = stream then some nextOffset else none
  | _ => none

/-- The output limit is used up. -/
def Exhausted (config : Config) (s : Shared) : Prop :=
  ∃ limit, config.outputLimit = some limit ∧ limit ≤ s.outputTotal

/-- What a worker is doing with its buffer. -/
inductive Stage
  | between
  | filling
  | limited
  | publishing
  | gone
  deriving DecidableEq

def WorkerPoint.stage : WorkerPoint → Stage
  | .start | .prepare | .checkLoop | .markReading => .between
  | .readCheck | .read | .readIdle | .readInterrupted | .checkRead | .markPublishing | .loadTotal
  | .exchangeTotal _ => .filling
  | .truncate | .markLimit | .killLimit => .limited
  | .checkPublish | .reserve | .send _ _ => .publishing
  | .readFailed _ | .sendError _ | .kill | .finished => .gone

/-- How what was read is made up of what was sent, what the limit has dropped, and the buffer.  Once
something is dropped the limit is used up, so that nothing is sent any more. -/
def BytesAt (config : Config) (s : Shared) (worker : Worker) (sent : List UInt8) : Stage → Prop
  | .between => ∃ dropped, worker.received = sent ++ dropped ∧ (dropped ≠ [] → Exhausted config s)
  | .filling => ∃ dropped, worker.received = sent ++ dropped ++ worker.buffer ∧
      (dropped ≠ [] → Exhausted config s)
  | .limited => worker.sent = 0 ∧ worker.sendLen ≤ worker.buffer.length ∧
      (worker.sendLen < worker.buffer.length → Exhausted config s) ∧
      ∃ dropped, worker.received = sent ++ dropped ++ worker.buffer ∧
        (dropped ≠ [] → worker.sendLen = 0)
  | .publishing => worker.sent ≤ worker.sendLen ∧ worker.sendLen ≤ worker.buffer.length ∧
      (worker.sendLen < worker.buffer.length → Exhausted config s) ∧
      worker.received = sent ++ worker.buffer.drop worker.sent
  | .gone => sent <+: worker.received

def Bytes (config : Config) (s : Shared) (worker : Worker) (sent : List UInt8) : Prop :=
  BytesAt config s worker sent worker.point.stage

/-- The next offset of the state machine: that of the message a worker is about to send, or else all
that is reserved, as long as the worker goes on. -/
def NextOffset (worker : Worker) (next reserved : ℕ) : Prop :=
  match worker.point with
  | .send offset _ => next = offset
  | point => point.stage ≠ .gone → next = reserved

/-- **The invariant of a stream**, with the acknowledgement that is still to be released. -/
structure StreamInv (config : Config) (stream : RuntimeOutputStream) (s : Shared) (worker : Worker)
    (releasing : Option ℕ) : Prop where
  fits : (s.flows stream).Fits
  bytes : Bytes config s worker (delivered stream s.sent)
  buffer : worker.buffer.length ≤ runtimeMaxDataChunkLen
  chunk : ∀ offset length, worker.point = .send offset length → 0 < length ∧
    worker.sent + length ≤ worker.sendLen ∧
    checkedAdd offset length = some (s.flows stream).sent
  released : ∀ n, releasing = some n →
    (s.flows stream).acknowledged ≤ n ∧ n ≤ (s.flows stream).sent
  carried : worker.point.stage ≠ .gone → (Session.startedProcess config).carries stream = true
  acked : ∀ process, Running config s.machine process →
    (process.offsets stream).acked = releasing.getD (s.flows stream).acknowledged
  next : ∀ process, Running config s.machine process →
    (process.offsets stream).next ≤ (s.flows stream).sent ∧
      NextOffset worker (process.offsets stream).next (s.flows stream).sent

section Stable

variable {config : Config} {stream : RuntimeOutputStream} {s s' : Shared} {worker worker' : Worker}
  {releasing : Option ℕ}

theorem Running.carries {machine : RuntimeStateMachine} {process : RuntimeProcessState}
    (h : Running config machine process) :
    process.carries stream = (Session.startedProcess config).carries stream := by
  have pty : (Session.startedProcess config).pty = config.pty := by
    unfold Session.startedProcess
    split
    · rename_i isPty
      exact isPty.symm
    · rename_i isPipe
      exact (Bool.not_eq_true _ ▸ isPipe : config.pty = false).symm
  cases stream <;> simp [RuntimeProcessState.carries, h.pty, pty]

theorem Exhausted.mono (h : Exhausted config s) (total : s.outputTotal ≤ s'.outputTotal) :
    Exhausted config s' := by
  obtain ⟨limit, bound, reached⟩ := h
  exact ⟨limit, bound, Nat.le_trans reached total⟩

/-- Whatever a worker is doing, what was sent is a prefix of what was read. -/
theorem Bytes.is_start {sent : List UInt8} (h : Bytes config s worker sent) :
    sent <+: worker.received := by
  unfold Bytes at h
  generalize worker.point.stage = stage at h
  cases stage with
  | between =>
    obtain ⟨dropped, eq, -⟩ := h
    exact ⟨dropped, eq.symm⟩
  | filling =>
    obtain ⟨dropped, eq, -⟩ := h
    exact ⟨dropped ++ worker.buffer, by rw [eq, List.append_assoc]⟩
  | limited =>
    obtain ⟨-, -, -, dropped, eq, -⟩ := h
    exact ⟨dropped ++ worker.buffer, by rw [eq, List.append_assoc]⟩
  | publishing =>
    obtain ⟨-, -, -, eq⟩ := h
    exact ⟨_, eq.symm⟩
  | gone => exact h

/-- The same data at a point of the same stage. -/
structure SameData (worker worker' : Worker) : Prop where
  stage : worker'.point.stage = worker.point.stage
  buffer : worker'.buffer = worker.buffer
  sendLen : worker'.sendLen = worker.sendLen
  sent : worker'.sent = worker.sent
  received : worker'.received = worker.received

theorem Bytes.same (same : SameData worker worker') (total : s.outputTotal ≤ s'.outputTotal)
    {sent : List UInt8} (h : Bytes config s worker sent) : Bytes config s' worker' sent := by
  unfold Bytes at h ⊢
  rw [same.stage]
  generalize worker.point.stage = stage at h
  cases stage <;> simp only [BytesAt, same.buffer, same.sendLen, same.sent, same.received] at h ⊢
  case between | filling =>
    obtain ⟨dropped, eq, exhausted⟩ := h
    exact ⟨dropped, eq, fun ne => (exhausted ne).mono total⟩
  case limited | publishing =>
    obtain ⟨start, le, exhausted, rest⟩ := h
    exact ⟨start, le, fun lt => (exhausted lt).mono total, rest⟩
  case gone => exact h

/-- No part of the window is reserved. -/
abbrev Worker.Idle (worker : Worker) : Prop := ∀ offset length, worker.point ≠ .send offset length

theorem Worker.Idle.of_eq {point : WorkerPoint} (h : worker.point = point)
    (other : ∀ offset length, point ≠ .send offset length) : worker.Idle :=
  fun offset length eq => other offset length (h.symm.trans eq)

theorem nextOffset_iff {n reserved : ℕ} (idle : worker.Idle) :
    NextOffset worker n reserved ↔ (worker.point.stage ≠ .gone → n = reserved) := by
  unfold NextOffset
  split
  · rename_i offset length eq
    exact absurd eq (idle offset length)
  · exact Iff.rfl

namespace StreamInv

/-- The worker is asked to stop. -/
theorem forceStop (inv : StreamInv config stream s worker releasing) (stop : Bool) :
    StreamInv config stream s { worker with forceStop := stop } releasing :=
  ⟨inv.fits, inv.bytes, inv.buffer, inv.chunk, inv.released, inv.carried, inv.acked, inv.next⟩

variable (inv : StreamInv config stream s worker releasing) (alive : Alive config s.machine)
  (acts : Others config stream s s')
include inv alive acts

/-- The parts that do not depend on where the worker stands. -/
theorem rebuild (bytes : Bytes config s' worker' (delivered stream s'.sent))
    (buffer : worker'.buffer.length ≤ runtimeMaxDataChunkLen)
    (chunk : ∀ offset length, worker'.point = .send offset length → 0 < length ∧
      worker'.sent + length ≤ worker'.sendLen ∧
      checkedAdd offset length = some (s.flows stream).sent)
    (carried : worker'.point.stage ≠ .gone →
      (Session.startedProcess config).carries stream = true)
    (next : ∀ n, NextOffset worker n (s.flows stream).sent →
      NextOffset worker' n (s.flows stream).sent) :
    StreamInv config stream s' worker' releasing where
  fits := by
    constructor
    · rw [acts.acknowledged, acts.sent]
      exact inv.fits.ordered
    · rw [acts.acknowledged, acts.sent]
      exact inv.fits.window
  bytes := bytes
  buffer := buffer
  chunk := by
    rw [acts.sent]
    exact chunk
  released := by
    rw [acts.acknowledged, acts.sent]
    exact inv.released
  carried := carried
  acked := by
    intro process' running'
    obtain ⟨process, running, same⟩ := acts.offsets alive process' running'
    rw [same, acts.acknowledged]
    exact inv.acked process running
  next := by
    intro process' running'
    obtain ⟨process, running, same⟩ := acts.offsets alive process' running'
    rw [same, acts.sent]
    exact ⟨(inv.next process running).1, next _ (inv.next process running).2⟩

/-- Other threads go on. -/
theorem others : StreamInv config stream s' worker releasing := by
  refine inv.rebuild alive acts ?_ inv.buffer inv.chunk inv.carried fun _ => id
  rw [acts.delivered]
  exact inv.bytes.same ⟨rfl, rfl, rfl, rfl, rfl⟩ acts.total

/-- The worker goes on within a stage, with nothing reserved. -/
theorem move (same : SameData worker worker') (before : worker.Idle) (after : worker'.Idle) :
    StreamInv config stream s' worker' releasing := by
  refine inv.rebuild alive acts ?_ ?_ ?_ ?_ ?_
  · rw [acts.delivered]
    exact inv.bytes.same same acts.total
  · rw [same.buffer]
    exact inv.buffer
  · intro offset length eq
    exact absurd eq (after offset length)
  · rw [same.stage]
    exact inv.carried
  · intro n
    rw [nextOffset_iff before, nextOffset_iff after, same.stage]
    exact id

/-- The worker ends. -/
theorem gone (ended : worker'.point.stage = .gone) (buffer : worker'.buffer = worker.buffer)
    (received : worker'.received = worker.received) :
    StreamInv config stream s' worker' releasing := by
  have idle : worker'.Idle := fun _ _ eq => nomatch ended.symm.trans (congrArg _ eq)
  refine inv.rebuild alive acts ?_ ?_ ?_ ?_ ?_
  · unfold Bytes
    rw [ended, acts.delivered]
    change delivered stream s.sent <+: worker'.received
    rw [received]
    exact inv.bytes.is_start
  · rw [buffer]
    exact inv.buffer
  · intro offset length eq
    exact absurd eq (idle offset length)
  · intro notOver
    exact absurd ended notOver
  · intro n _
    rw [nextOffset_iff idle]
    exact fun notOver => absurd ended notOver

/-- The worker goes to another stage, with nothing reserved before and after. -/
theorem reshape (live : worker.point.stage ≠ .gone)
    (bytes : Bytes config s' worker' (delivered stream s.sent))
    (buffer : worker'.buffer.length ≤ runtimeMaxDataChunkLen) (before : worker.Idle)
    (after : worker'.Idle) : StreamInv config stream s' worker' releasing := by
  refine inv.rebuild alive acts ?_ buffer ?_ (fun _ => inv.carried live) ?_
  · rw [acts.delivered]
    exact bytes
  · intro offset length eq
    exact absurd eq (after offset length)
  · intro n
    rw [nextOffset_iff before, nextOffset_iff after]
    exact fun next _ => next live

end StreamInv

end Stable

/-! ### The other threads -/

theorem Others.of_send {config : Config} {s s' : Shared} {ok : Bool} (h : s.send message = (s', ok))
    (different : Apart stream message) : Others config stream s s' := by
  have sends : Others config stream s _ := Others.send s different
  rw [h] at sends
  exact sends

section Threads

variable {config : Config} {stream : RuntimeOutputStream} {s s' : Shared} {worker worker' : Worker}

theorem stepInput_others {point point' : InputPoint} {choice : InputChoice}
    (h : stepInput config s point choice = some (s', point')) : Others config stream s s' := by
  unfold stepInput at h
  -- the worker changes its queue, sends a message that is no output, or kills the process
  repeat' split at h
  all_goals cases h
  all_goals first
    | exact Others.of_eq rfl rfl rfl rfl
    | exact Others.sendError ..
    | exact Others.of_send ‹_› (by nofun)

/-- The waiter stops flows, sends the last message, and asks workers to stop. -/
theorem stepWaiter_others {point point' : WaiterPoint} {choice : WaiterChoice}
    {workers workers' : RuntimeOutputStream → Worker}
    (h : stepWaiter config workers s point choice = some (s', workers', point')) :
    Others config stream s s' ∧
      ∃ stop, workers' stream = { workers stream with forceStop := stop } := by
  unfold stepWaiter at h
  dsimp only at h
  have same : ∃ stop, workers stream = { workers stream with forceStop := stop } := ⟨_, rfl⟩
  have asked : ∀ other, ∃ stop, Function.update workers other
      { workers other with forceStop := true } stream =
      { workers stream with forceStop := stop } := by
    intro other
    by_cases eq : stream = other
    · subst eq
      exact ⟨true, Function.update_self ..⟩
    · rw [Function.update_of_ne eq]
      exact same
  repeat' split at h
  all_goals cases h
  all_goals first
    | exact ⟨Others.of_eq rfl rfl rfl rfl, same⟩
    | exact ⟨Others.markTermination .., same⟩
    | exact ⟨Others.stop .., same⟩
    | exact ⟨Others.sendError .., same⟩
    | exact ⟨Others.send _ nofun, same⟩
    | exact ⟨Others.refl _, asked _⟩

theorem stepWriter_others {failure : Option String} (h : stepWriter s failure = some s') :
    Others config stream s s' := by
  unfold stepWriter at h
  repeat' split at h
  all_goals cases h
  all_goals exact Others.of_eq rfl rfl rfl rfl

/-! ### The output worker -/

/-- Nothing that concerns the output has changed. -/
structure Quiet (s s' : Shared) : Prop where
  machine : s'.machine = s.machine
  flows : s'.flows = s.flows
  total : s'.outputTotal = s.outputTotal
  sent : s'.sent = s.sent

theorem Quiet.others (h : Quiet s s') : Others config stream s s' :=
  .of_eq h.machine (by rw [h.flows]) h.total h.sent

theorem Quiet.markTermination (s : Shared) (value : Termination) :
    Quiet s (s.markTermination value) := by
  unfold Shared.markTermination
  split <;> exact ⟨rfl, rfl, rfl, rfl⟩

/-- **What a step of an output worker is.** -/
inductive WorkerStep (config : Config) (stream : RuntimeOutputStream) (s : Shared)
    (worker : Worker) : Shared → Worker → Prop
  /-- within a stage -/
  | moves {s' : Shared} {worker' : Worker} (quiet : Quiet s s') (same : SameData worker worker')
      (before : ∀ offset length, worker.point ≠ .send offset length)
      (after : ∀ offset length, worker'.point ≠ .send offset length) :
      WorkerStep config stream s worker s' worker'
  | ends {s' : Shared} {point : WorkerPoint} (quiet : Quiet s s') (gone : point.stage = .gone) :
      WorkerStep config stream s worker s' (worker.goto point)
  /-- it sends an error and ends -/
  | reports (message : String) :
      WorkerStep config stream s worker (s.sendError .internal message false).1 (worker.goto .kill)
  | clears (at_start : worker.point = .markReading) :
      WorkerStep config stream s worker s
        { worker with reading := true, buffer := [], point := .readCheck }
  | reads {point : WorkerPoint} (bytes : List UInt8) (at_read : worker.point = .read)
      (room : worker.buffer.length + bytes.length ≤ runtimeMaxDataChunkLen)
      (filling : point.stage = .filling) :
      WorkerStep config stream s worker s
        { worker with
          buffer := worker.buffer ++ bytes, received := worker.received ++ bytes, point := point }
  | unlimited (no_limit : config.outputLimit = none) (filled : worker.point.stage = .filling) :
      WorkerStep config stream s worker s (worker.afterLimit worker.buffer.length)
  /-- it takes what is left of the limit -/
  | limits (limit : ℕ) (limited : config.outputLimit = some limit)
      (filled : worker.point.stage = .filling) :
      WorkerStep config stream s worker
        { s with outputTotal := s.outputTotal + min (limit - s.outputTotal) worker.buffer.length }
        (worker.afterLimit (min (limit - s.outputTotal) worker.buffer.length))
  | publishes (killed : worker.point = .killLimit) (some_data : worker.sendLen ≠ 0) :
      WorkerStep config stream s worker s.kill (worker.goto .checkPublish)
  | repeats (published : worker.point = .checkPublish) (all : ¬ worker.sent < worker.sendLen) :
      WorkerStep config stream s worker s (worker.goto .checkLoop)
  | reserves {flow : OutputFlow} {offset length : ℕ} (at_reserve : worker.point = .reserve)
      (granted : (s.flows stream).reserve (worker.sendLen - worker.sent) =
        (flow, .granted offset length)) :
      WorkerStep config stream s worker (s.setFlow stream flow) (worker.goto (.send offset length))
  | sends {s' : Shared} {offset length : ℕ} (at_send : worker.point = .send offset length)
      (sent : s.send (.output config.processId stream offset (worker.chunk length)) = (s', true)) :
      WorkerStep config stream s worker s'
        { worker with sent := worker.sent + length, point := .checkPublish }
  | fails {s' : Shared} {offset length : ℕ} (at_send : worker.point = .send offset length)
      (refused : s.send (.output config.processId stream offset (worker.chunk length)) =
        (s', false)) :
      WorkerStep config stream s worker s' (worker.goto .kill)

section Within

variable {old point : WorkerPoint} (at_point : worker.point = old) (same : point.stage = old.stage)
  (before : ∀ offset length, old ≠ .send offset length) (after : ∀ offset length, point ≠
  .send offset length)
include at_point same before after

theorem WorkerStep.within (quiet : Quiet s s') :
    WorkerStep config stream s worker s' (worker.goto point) := by
  subst at_point
  exact .moves quiet ⟨same, rfl, rfl, rfl, rfl⟩ before after

/-- `unless_stopped` stays in a stage or ends. -/
theorem WorkerStep.unlessStopped :
    WorkerStep config stream s worker s (worker.unlessStopped point) := by
  unfold Worker.unlessStopped
  split
  · exact .ends ⟨rfl, rfl, rfl, rfl⟩ rfl
  · exact .within at_point same before after ⟨rfl, rfl, rfl, rfl⟩

end Within

/-- One read. -/
theorem WorkerStep.afterRead {outcome : ReadOutcome} (at_read : worker.point = .read)
    (h : worker.afterRead config.windows outcome = some worker') :
    WorkerStep config stream s worker s worker' := by
  have moves : ∀ {point : WorkerPoint}, point.stage = .filling →
      WorkerStep config stream s worker s (worker.goto point) := by
    intro point filling
    refine .within at_read filling nofun ?_ ⟨rfl, rfl, rfl, rfl⟩
    rintro offset length rfl
    cases filling
  cases outcome with
  | data bytes =>
    simp only [Worker.afterRead] at h
    split at h
    · cases h
    · rename_i room
      cases h
      refine .reads bytes at_read (by omega) ?_
      split <;> rfl
  | eof | failed message =>
    cases h
    split
    · exact .ends ⟨rfl, rfl, rfl, rfl⟩ rfl
    · exact moves rfl
  | wouldBlock =>
    cases h
    split <;> exact moves rfl
  | interrupted =>
    cases h
    exact moves rfl

theorem stepWorker_cases {choice : WorkerChoice}
    (h : stepWorker config stream s worker choice = some (s', worker')) :
    WorkerStep config stream s worker s' worker' := by
  have quiet : Quiet s s := ⟨rfl, rfl, rfl, rfl⟩
  unfold stepWorker at h
  cases at_point : worker.point <;> cases choice <;> simp only [at_point, reduceCtorEq] at h
  case start.go | checkLoop.go | readCheck.go | readInterrupted.go | checkRead.go =>
    cases h
    exact .unlessStopped at_point rfl nofun nofun
  case prepare.go | exchangeTotal.exchangeFailed =>
    cases h
    exact .within at_point rfl nofun nofun quiet
  case prepare.prepareFailed | kill.go =>
    cases h
    exact .ends ⟨rfl, rfl, rfl, rfl⟩ rfl
  case markReading.go =>
    cases h
    exact .clears at_point
  case read.read outcome =>
    obtain ⟨after, read, eq⟩ := Option.map_eq_some_iff.mp h
    cases eq
    exact .afterRead at_point read
  case readIdle.go =>
    cases h
    split
    · exact .ends quiet rfl
    · exact .within at_point rfl nofun nofun quiet
  case readFailed.go =>
    cases h
    unfold Worker.unlessStopped
    split <;> exact .ends quiet rfl
  case markPublishing.go =>
    cases h
    exact .moves quiet ⟨by rw [at_point]; rfl, rfl, rfl, rfl, rfl⟩ (by simp [at_point]) (by simp)
  case loadTotal.go =>
    cases h
    split
    · exact .within at_point rfl nofun nofun quiet
    · rename_i no_limit
      exact .unlimited (by simpa using no_limit) (by rw [at_point]; rfl)
  case exchangeTotal.go current =>
    split at h
    · cases h
    · rename_i limit limited
      split at h
      · rename_i unchanged
        cases h
        rw [← unchanged]
        exact .limits limit limited (by rw [at_point]; rfl)
      · cases h
        exact .within at_point rfl nofun nofun quiet
  case truncate.go =>
    cases h
    exact .within at_point rfl nofun nofun ⟨rfl, rfl, rfl, rfl⟩
  case markLimit.go =>
    cases h
    exact .within at_point rfl nofun nofun (.markTermination _ _)
  case killLimit.go =>
    cases h
    split
    · exact .ends ⟨rfl, rfl, rfl, rfl⟩ rfl
    · rename_i some_data
      exact .publishes at_point some_data
  case checkPublish.go =>
    cases h
    split
    · exact .unlessStopped at_point rfl nofun nofun
    · rename_i all
      exact .repeats at_point all
  case reserve.go =>
    split at h
    · cases h
    · cases h
      exact .ends quiet rfl
    · cases h
      exact .ends quiet rfl
    · rename_i granted
      cases h
      exact .reserves at_point granted
  case send.go offset length =>
    split at h
    · rename_i sent
      cases h
      exact .sends at_point sent
    · rename_i refused
      cases h
      exact .fails at_point refused
  case sendError.go message =>
    cases h
    exact .reports message

/-- The output worker of another stream. -/
theorem WorkerStep.others {other : RuntimeOutputStream} (ne : other ≠ stream)
    (h : WorkerStep config other s worker s' worker') : Others config stream s s' := by
  have different : ∀ offset data, Apart stream (.output config.processId other offset data) :=
    fun _ _ _ _ _ eq => ne (RuntimeMessage.output.inj eq).2.1
  cases h with
  | moves quiet | ends quiet => exact quiet.others
  | reports message => exact .sendError ..
  | clears | reads | unlimited | repeats => exact .refl s
  | limits => exact .uses s _
  | publishes => exact .kill s
  | reserves => exact .of_eq rfl (Function.update_of_ne ne.symm _ _) rfl rfl
  | sends _ sent => exact .of_send sent (different _ _)
  | fails _ refused => exact .of_send refused (different _ _)

end Threads

/-! ### The worker of a stream keeps its invariant -/

section OwnWorker

variable {config : Config} {stream : RuntimeOutputStream} {s s' : Shared} {worker worker' : Worker}
  {releasing : Option ℕ}

theorem Bytes.at_stage {stage : Stage} {sent : List UInt8} (h : Bytes config s worker sent)
    (at_stage : worker.point.stage = stage) : BytesAt config s worker sent stage :=
  at_stage ▸ h

/-- The limit has granted `reserved` bytes of the buffer. -/
theorem Bytes.afterLimit {sent dropped : List UInt8} {reserved : ℕ}
    (received : worker.received = sent ++ dropped ++ worker.buffer)
    (within : reserved ≤ worker.buffer.length)
    (reached : reserved < worker.buffer.length → Exhausted config s)
    (lost : dropped ≠ [] → reserved = 0) : Bytes config s (worker.afterLimit reserved) sent := by
  unfold Bytes Worker.afterLimit
  dsimp only
  split
  · exact ⟨rfl, within, reached, dropped, received, lost⟩
  split
  · exact ⟨dropped ++ worker.buffer, by rw [received, List.append_assoc]⟩
  · rename_i some_data
    -- something is granted, so nothing was dropped before
    have none_lost : dropped = [] := by
      by_contra ne
      exact some_data (lost ne)
    refine ⟨Nat.zero_le _, within, reached, ?_⟩
    rw [received, none_lost, List.append_nil, List.drop_zero]

theorem Worker.afterLimit_idle (worker : Worker) (reserved : ℕ) :
    (worker.afterLimit reserved).Idle := by
  intro offset length
  unfold Worker.afterLimit
  dsimp only
  split
  · simp
  · split <;> simp

@[simp] theorem Shared.setFlow_self (s : Shared) (stream : RuntimeOutputStream)
    (flow : OutputFlow) : (s.setFlow stream flow).flows stream = flow := Function.update_self ..

variable {message : RuntimeMessage}

/-- What sending an accepted message does. -/
theorem Shared.send_accepted {machine : RuntimeStateMachine} {ok : Bool}
    (observed : s.machine.observeOutbound message = .ok machine) (h : s.send message = (s', ok)) :
    s'.machine = machine ∧ s'.flows = s.flows ∧ s'.outputTotal = s.outputTotal ∧
      s'.sent = if ok then s.sent ++ [message] else s.sent := by
  unfold Shared.send at h
  rw [observed] at h
  dsimp only at h
  split at h
  all_goals
    cases h
    exact ⟨rfl, rfl, rfl, rfl⟩

/-- A closed session sends nothing. -/
theorem Shared.send_closed (closed : s.machine.phase = .closed) : s.send message = (s, false) := by
  unfold Shared.send
  cases observed : s.machine.observeOutbound message with
  | error err => rfl
  | ok machine => exact absurd observed (observe_closed closed _)

namespace StreamInv

variable {offset length : ℕ}

/-- The worker reserves a part of the window. -/
theorem reserves (inv : StreamInv config stream s worker releasing) {flow : OutputFlow}
    (at_reserve : worker.point = .reserve)
    (granted : (s.flows stream).reserve (worker.sendLen - worker.sent) =
      (flow, .granted offset length)) :
    StreamInv config stream (s.setFlow stream flow)
    (worker.goto (.send offset length)) releasing := by
  obtain ⟨at_sent, positive, requested, -, sum, acknowledged⟩ := OutputFlow.reserve_granted granted
  have grows := (eq_of_checkedAdd sum).1
  have stage : worker.point.stage = .publishing := by rw [at_reserve]; rfl
  have idle : worker.Idle := .of_eq at_reserve nofun
  have live : worker.point.stage ≠ .gone := by simp [stage]
  refine ⟨?_, ?_, inv.buffer, ?_, ?_, fun _ => inv.carried live, ?_, ?_⟩
  · rw [Shared.setFlow_self]
    exact inv.fits.reserve granted
  · have same : SameData worker (worker.goto (.send offset length)) :=
      ⟨stage.symm, rfl, rfl, rfl, rfl⟩
    exact Bytes.same same (Nat.le_refl s.outputTotal) inv.bytes
  · intro offset' length' eq
    cases eq
    rw [Shared.setFlow_self, at_sent]
    refine ⟨positive, ?_, sum⟩
    change worker.sent + length ≤ worker.sendLen
    omega
  · intro n pending
    have bounds := inv.released n pending
    rw [Shared.setFlow_self, acknowledged]
    exact ⟨bounds.1, by omega⟩
  · intro process running
    rw [Shared.setFlow_self, acknowledged]
    exact inv.acked process running
  · intro process running
    obtain ⟨-, next⟩ := inv.next process running
    rw [nextOffset_iff idle] at next
    rw [Shared.setFlow_self, next live]
    exact ⟨by omega, at_sent.symm⟩

/-- **A message a worker is about to send is accepted, if the session has not ended.** -/
theorem accepted (inv : StreamInv config stream s worker releasing) {process : RuntimeProcessState}
    (running : Running config s.machine process) (at_send : worker.point = .send offset length) :
    (process.offsets stream).next = offset ∧ ∃ machine, s.machine.observeOutbound
        (.output config.processId stream offset (worker.chunk length)) = .ok machine ∧
      ∃ process', Running config machine process' ∧ process'.offsets stream =
        { process.offsets stream with next := (s.flows stream).sent } := by
  have stage : worker.point.stage = .publishing := by rw [at_send]; rfl
  obtain ⟨positive, within, sum⟩ := inv.chunk offset length at_send
  obtain ⟨-, sendLen, -, -⟩ := inv.bytes.at_stage stage
  have next : (process.offsets stream).next = offset := by
    have next := (inv.next process running).2
    unfold NextOffset at next
    rw [at_send] at next
    exact next
  have size : (worker.chunk length).length = length := by
    simp only [Worker.chunk, List.length_take, List.length_drop]
    omega
  have some_data : worker.chunk length ≠ [] := by
    intro empty
    rw [empty] at size
    exact Nat.ne_of_gt positive size.symm
  have carries : process.carries stream = true := by
    rw [running.carries]
    exact inv.carried (by simp [stage])
  have fits : (worker.chunk length).length ≤ runtimeMaxDataChunkLen := by
    have buffer := inv.buffer
    omega
  refine ⟨next, ?_⟩
  subst next
  exact running.output carries some_data fits (by rw [size]; exact sum)

/-- The state after a message of the worker was accepted, queued or not. -/
theorem sent (inv : StreamInv config stream s worker releasing) (alive : Alive config s.machine)
    (at_send : worker.point = .send offset length) {ok : Bool}
    (h : s.send (.output config.processId stream offset (worker.chunk length)) = (s', ok)) :
    if ok then
      StreamInv config stream s'
        { worker with sent := worker.sent + length, point := .checkPublish } releasing ∧
        Alive config s'.machine
    else StreamInv config stream s' (worker.goto .kill) releasing ∧ Alive config s'.machine := by
  rcases alive with closed | ⟨process, running⟩
  · rw [Shared.send_closed closed] at h
    cases h
    exact ⟨inv.gone (.inl closed) (.refl s) rfl rfl rfl, .inl closed⟩
  obtain ⟨-, machine, observed, process', running', offsets⟩ := inv.accepted running at_send
  obtain ⟨same, flows, total, log⟩ := Shared.send_accepted observed h
  have stage : worker.point.stage = .publishing := by rw [at_send]; rfl
  obtain ⟨positive, within, -⟩ := inv.chunk offset length at_send
  obtain ⟨-, sendLen, exhausted, received⟩ := inv.bytes.at_stage stage
  have alive' : Alive config s'.machine := .inr ⟨process', same ▸ running'⟩
  have acked : ∀ process'', Running config s'.machine process'' →
      (process''.offsets stream).acked = releasing.getD (s'.flows stream).acknowledged := by
    intro process'' running''
    rw [same] at running''
    rw [running''.unique running', offsets, flows]
    exact inv.acked process running
  have next : ∀ process'', Running config s'.machine process'' →
      (process''.offsets stream).next = (s'.flows stream).sent := by
    intro process'' running''
    rw [same] at running''
    rw [running''.unique running', offsets, flows]
  cases ok with
  | true =>
    refine ⟨⟨by rw [flows]; exact inv.fits, ?_,
      inv.buffer, by simp, by rw [flows]; exact inv.released,
      fun _ => inv.carried (by simp [stage]), acked,
      fun process'' running'' => ⟨Nat.le_of_eq (next _ running''), fun _ => next _ running''⟩⟩,
        alive'⟩
    -- the chunk moves from the buffer to what was sent
    refine ⟨within, sendLen, fun lt => (exhausted lt).mono (Nat.le_of_eq total.symm), ?_⟩
    change worker.received =
      delivered stream s'.sent ++ worker.buffer.drop (worker.sent + length)
    have chunk : worker.buffer.drop worker.sent =
        worker.chunk length ++ worker.buffer.drop (worker.sent + length) := by
      rw [Worker.chunk, ← List.drop_drop, List.take_append_drop]
    rw [log, if_pos rfl, delivered_append, received, chunk, List.append_assoc]
    simp [delivered]
  | false =>
    refine ⟨⟨by rw [flows]; exact inv.fits, ?_, inv.buffer, by simp [Worker.goto],
      by rw [flows]; exact inv.released, fun live => absurd rfl live, acked,
      fun process'' running'' => ⟨Nat.le_of_eq (next _ running''), fun live => absurd rfl live⟩⟩,
        alive'⟩
    change delivered stream s'.sent <+: worker.received
    rw [log]
    exact inv.bytes.is_start

/-- **A step of the worker of the stream.** -/
theorem ownStep (inv : StreamInv config stream s worker releasing) (alive : Alive config s.machine)
    (h : WorkerStep config stream s worker s' worker') :
    StreamInv config stream s' worker' releasing ∧ Alive config s'.machine := by
  cases h with
  | moves quiet same before after =>
    exact ⟨inv.move alive quiet.others same before after, quiet.machine ▸ alive⟩
  | ends quiet gone => exact ⟨inv.gone alive quiet.others gone rfl rfl, quiet.machine ▸ alive⟩
  | reports message =>
    have others : Others config stream s _ := .sendError s .internal message false
    exact ⟨inv.gone alive others rfl rfl rfl, others.alive alive⟩
  | clears at_start =>
    have stage : worker.point.stage = .between := by rw [at_start]; rfl
    obtain ⟨dropped, received, exhausted⟩ := inv.bytes.at_stage stage
    refine ⟨inv.reshape alive (.refl s) (by simp [stage]) ?_ (Nat.zero_le _)
      (.of_eq at_start nofun) nofun, alive⟩
    exact ⟨dropped, by simpa using received, exhausted⟩
  | reads bytes at_read room filling =>
    have stage : worker.point.stage = .filling := by rw [at_read]; rfl
    obtain ⟨dropped, received, exhausted⟩ := inv.bytes.at_stage stage
    refine ⟨inv.reshape alive (.refl s) (by simp [stage]) ?_ (by simpa using room)
      (.of_eq at_read nofun) ?_, alive⟩
    · unfold Bytes
      rw [filling]
      refine ⟨dropped, ?_, exhausted⟩
      rw [received]
      simp
    · rintro offset length rfl
      cases filling
  | unlimited no_limit filled =>
    obtain ⟨dropped, received, exhausted⟩ := inv.bytes.at_stage filled
    refine ⟨inv.reshape alive (.refl s) (by simp [filled]) ?_ inv.buffer ?_
      (worker.afterLimit_idle _), alive⟩
    · refine Bytes.afterLimit received (Nat.le_refl _) (fun lt => absurd lt (Nat.lt_irrefl _)) ?_
      intro ne
      obtain ⟨limit, limited, -⟩ := exhausted ne
      rw [no_limit] at limited
      cases limited
    · exact fun _ _ eq => nomatch filled.symm.trans (congrArg _ eq)
  | limits limit limited filled =>
    obtain ⟨dropped, received, exhausted⟩ := inv.bytes.at_stage filled
    refine ⟨inv.reshape alive (.uses s _) (by simp [filled]) ?_ inv.buffer ?_
      (worker.afterLimit_idle _), alive⟩
    · refine Bytes.afterLimit received (Nat.min_le_right _ _) (fun lt => ⟨limit, limited, ?_⟩) ?_
      · change limit ≤ s.outputTotal + min (limit - s.outputTotal) worker.buffer.length
        omega
      · intro ne
        obtain ⟨limit', limited', reached⟩ := exhausted ne
        rw [limited] at limited'
        cases limited'
        omega
    · exact fun _ _ eq => nomatch filled.symm.trans (congrArg _ eq)
  | publishes killed some_data =>
    have stage : worker.point.stage = .limited := by rw [killed]; rfl
    obtain ⟨start, within, exhausted, dropped, received, lost⟩ := inv.bytes.at_stage stage
    refine ⟨inv.reshape alive (.kill s) (by simp [stage]) ?_ inv.buffer (.of_eq killed nofun) nofun,
      alive⟩
    have none_lost : dropped = [] := by
      by_contra ne
      exact some_data (lost ne)
    refine ⟨?_, within, exhausted, ?_⟩
    · change worker.sent ≤ worker.sendLen
      omega
    · change worker.received = _ ++ worker.buffer.drop worker.sent
      rw [received, none_lost, start, List.append_nil, List.drop_zero]
  | repeats published all =>
    have stage : worker.point.stage = .publishing := by rw [published]; rfl
    obtain ⟨start, within, exhausted, received⟩ := inv.bytes.at_stage stage
    refine ⟨inv.reshape alive (.refl s) (by simp [stage]) ?_ inv.buffer
      (.of_eq published nofun) nofun, alive⟩
    refine ⟨worker.buffer.drop worker.sent, received, fun ne => exhausted ?_⟩
    -- what is left of the buffer is what the limit did not grant
    have some_left : worker.sent < worker.buffer.length := by
      by_contra none_left
      exact ne (List.drop_eq_nil_of_le (Nat.not_lt.mp none_left))
    omega
  | reserves at_reserve granted => exact ⟨inv.reserves at_reserve granted, alive⟩
  | sends at_send sent => exact inv.sent alive at_send sent
  | fails at_send refused => exact inv.sent alive at_send refused

end StreamInv

end OwnWorker

/-! ### The reader loop -/

section Reader

variable {config : Config} {stream : RuntimeOutputStream} {s s' : Shared} {worker : Worker}
  {point point' : ReaderPoint}

/-- **What a step of the reader loop is.** -/
inductive ReaderStep (config : Config) (s : Shared) (point : ReaderPoint) :
    Shared → ReaderPoint → Prop
  | goes {s' : Shared} {point' : ReaderPoint} (others : ∀ stream, Others config stream s s')
      (same : ∀ stream, point'.releasing stream = point.releasing stream) :
      ReaderStep config s point s' point'
  | accepts {message : RuntimeMessage} {machine : RuntimeStateMachine}
      (at_observe : point = .observe message) (attached : message ≠ .detach config.processId)
      (observed : s.machine.observeInbound message = .ok machine) :
      ReaderStep config s point { s with machine } (.handle message)
  | releases {stream : RuntimeOutputStream} {n : ℕ} {flow : OutputFlow}
      (at_release : point = .release stream n) (ok : (s.flows stream).acknowledge n = .ok flow) :
      ReaderStep config s point (s.setFlow stream flow) .checkAfter
  | refuses {stream : RuntimeOutputStream} {n : ℕ} {err : String}
      (at_release : point = .release stream n)
      (refused : (s.flows stream).acknowledge n = .error err) :
      ReaderStep config s point s .dropInput

variable {message : RuntimeMessage}

/-- The process after a message of the client: an acknowledgement that is accepted is within the
offsets of its stream, and is all that changes them. -/
theorem Running.observeInbound {machine machine' : RuntimeStateMachine}
    {process : RuntimeProcessState}
    (h : Running config machine process) (attached : message ≠ .detach config.processId)
    (observed : machine.observeInbound message = .ok machine') :
    ∃ process', Running config machine' process' ∧ ∀ stream,
      process'.offsets stream = { process.offsets stream with
        acked :=
  ((ReaderPoint.handle message).releasing stream).getD (process.offsets stream).acked } ∧
      ∀ n, (ReaderPoint.handle message).releasing stream = some n →
        (process.offsets stream).acked ≤ n ∧ n ≤ (process.offsets stream).next := by
  obtain ⟨-, sender, phase, applied, rfl⟩ := RuntimeStateMachine.observe_eq_ok.mp observed
  rw [h.role] at sender
  have notError : ∀ e, message ≠ .error e := by
    rintro e rfl
    cases sender
  rw [h.phase, applyMessage_running notError, bind_eq_ok] at applied
  obtain ⟨⟨process', ended⟩, running, ok⟩ := applied
  obtain ⟨moved, rfl⟩ := (applyRunningMessage_iff sender).mp running
  cases ok
  cases moved with
  | input | closeInput =>
    exact ⟨_, ⟨h.role, rfl, h.processId, h.pty, h.gap⟩, fun stream =>
      ⟨by cases stream <;> rfl, nofun⟩⟩
  | @outputAck _ n stream _ _ _ low high =>
    refine ⟨_, h.setOffsets _ _, fun other => ?_⟩
    rw [RuntimeProcessState.offsets_setOffsets, ReaderPoint.releasing]
    by_cases eq : other = stream
    · subst eq
      rw [if_pos rfl, if_pos rfl]
      refine ⟨rfl, ?_⟩
      rintro m ⟨⟩
      exact ⟨low, high⟩
    · rw [if_neg eq, if_neg (Ne.symm eq)]
      exact ⟨rfl, nofun⟩
  | resize | signal =>
    exact ⟨_, ⟨h.role, rfl, h.processId, h.pty, h.gap⟩, fun stream => ⟨rfl, nofun⟩⟩
  | detach own =>
    -- a detach of this process is answered before the machine sees it
    exact absurd (by rw [← own, h.processId]) attached

/-- The input queue takes a command, or there is an error to send. -/
theorem queueInput_goes {command : InputCommand} (h : queueInput s command = (s', point')) :
    (∀ stream, Others config stream s s') ∧ ∀ stream, point'.releasing stream = none := by
  unfold queueInput at h
  split_ifs at h <;> cases h <;> exact ⟨fun _ => .of_eq rfl rfl rfl rfl, fun _ => rfl⟩

variable {choice : ReaderChoice}

/-- An accepted message is handled; an acknowledgement is still to be released afterwards. -/
theorem handle_goes (h : handle s message choice = some (s', point')) :
    ReaderStep config s (.handle message) s' point' := by
  cases message <;> cases choice <;> simp only [handle, reduceCtorEq] at h
  case input.go | closeInput.go =>
    obtain ⟨others, none_released⟩ := queueInput_goes (Option.some.inj h)
    exact .goes others none_released
  case outputAck.go =>
    cases h
    exact .goes (fun _ => .refl s) fun _ => rfl
  case resize.go | resize.failed =>
    split at h
    · cases h
      first | done | exact .goes (fun _ => .refl s) fun _ => rfl
    · cases h
      exact .goes (fun _ => .refl s) fun _ => rfl
  case signal.go | signal.failed =>
    cases h
    exact .goes (fun _ => .refl s) fun _ => rfl

theorem stepReader_cases {inputFinished waiterFinished : Bool}
    (h : stepReader config inputFinished waiterFinished s point choice = some (s', point')) :
    ReaderStep config s point s' point' := by
  -- a step that is not about an acknowledgement
  have goes : ∀ {s' point'}, (∀ stream, Others config stream s s') →
      (∀ stream, point.releasing stream = none) → (∀ stream, point'.releasing stream = none) →
      ReaderStep config s point s' point' :=
    fun others before after => .goes others fun stream => (after stream).trans (before stream).symm
  cases point <;> cases choice <;> simp only [stepReader, reduceCtorEq] at h
  case handle.go | handle.message | handle.timeout | handle.disconnected | handle.failed =>
    exact handle_goes h
  case observe.go message =>
    split at h
    · cases h
      exact goes (fun _ => .refl s) (fun _ => rfl) fun _ => rfl
    · rename_i attached
      split at h
      · cases h
        exact goes (fun _ => .refl s) (fun _ => rfl) fun _ => rfl
      · rename_i machine observed
        cases h
        exact .accepts rfl attached observed
  case release.go =>
    split at h
    · rename_i err refused
      cases h
      exact .refuses rfl refused
    · rename_i flow ok
      cases h
      exact .releases rfl ok
  case sendError.go =>
    cases h
    exact goes (fun _ => .sendError ..) (fun _ => rfl) fun _ => rfl
  case markCancelled.go =>
    cases h
    exact goes (fun _ => .markTermination ..) (fun _ => rfl) fun _ => rfl
  case checkDone.go | checkReceived.go | refused.go | checkAfter.go | checkCancelled.go | kill.go =>
    -- a flag decides where the loop goes
    cases h
    refine goes (fun _ => .of_eq rfl rfl rfl rfl) (fun _ => rfl) fun _ => ?_
    split <;> rfl
  case joinInput.go | joinWaiter.go =>
    split at h
    · cases h
      exact goes (fun _ => .refl s) (fun _ => rfl) fun _ => rfl
    · cases h
  case receive.message | receive.timeout | receive.disconnected | dropInput.go | killRemaining.go =>
    cases h
    exact goes (fun _ => .of_eq rfl rfl rfl rfl) (fun _ => rfl) fun _ => rfl

namespace StreamInv

/-- The reader loop has an acknowledgement accepted, or another message. -/
theorem accepts (inv : StreamInv config stream s worker none) (alive : Alive config s.machine)
    {message : RuntimeMessage} {machine : RuntimeStateMachine}
    (attached : message ≠ .detach config.processId)
    (observed : s.machine.observeInbound message = .ok machine) :
    StreamInv config stream { s with machine } worker
      ((ReaderPoint.handle message).releasing stream) ∧ Alive config machine := by
  rcases alive with closed | ⟨process, running⟩
  · exact absurd observed (observe_closed closed _)
  obtain ⟨process', running', changes⟩ := running.observeInbound attached observed
  obtain ⟨offsets, bounds⟩ := changes stream
  have acked : _ = (s.flows stream).acknowledged := inv.acked process running
  refine ⟨⟨inv.fits, inv.bytes, inv.buffer, inv.chunk, ?_, inv.carried, ?_, ?_⟩,
    .inr ⟨process', running'⟩⟩
  · intro n pending
    obtain ⟨low, high⟩ := bounds n pending
    have le := (inv.next process running).1
    exact ⟨Nat.le_trans (Nat.le_of_eq acked.symm) low, Nat.le_trans high le⟩
  · intro process'' running''
    rw [running''.unique running', offsets, acked]
  · intro process'' running''
    rw [running''.unique running', offsets]
    exact inv.next process running

/-- The reader loop releases an acknowledgement. -/
theorem releases {n : ℕ} (inv : StreamInv config stream s worker (some n)) {flow : OutputFlow}
    (ok : (s.flows stream).acknowledge n = .ok flow) :
    StreamInv config stream (s.setFlow stream flow) worker none := by
  obtain ⟨-, -, rfl⟩ := OutputFlow.acknowledge_eq_ok.mp ok
  refine ⟨?_, inv.bytes, inv.buffer, ?_, by simp, inv.carried, ?_, ?_⟩
  · rw [Shared.setFlow_self]
    exact inv.fits.acknowledge ok
  · rw [Shared.setFlow_self]
    exact inv.chunk
  · rw [Shared.setFlow_self]
    exact inv.acked
  · rw [Shared.setFlow_self]
    exact inv.next

/-- An accepted acknowledgement can be released. -/
theorem can_release {n : ℕ} (inv : StreamInv config stream s worker (some n)) :
    ∃ flow, (s.flows stream).acknowledge n = .ok flow := by
  obtain ⟨low, high⟩ := inv.released n rfl
  exact ⟨_, OutputFlow.acknowledge_eq_ok.mpr ⟨low, high, rfl⟩⟩

/-- **A step of the reader loop.** -/
theorem readerStep (inv : StreamInv config stream s worker (point.releasing stream))
    (alive : Alive config s.machine) (h : ReaderStep config s point s' point') :
    StreamInv config stream s' worker (point'.releasing stream) ∧ Alive config s'.machine := by
  cases h with
  | goes others same =>
    rw [same stream]
    exact ⟨inv.others alive (others stream), (others stream).alive alive⟩
  | accepts at_observe attached observed =>
    subst at_observe
    exact inv.accepts alive attached observed
  | @releases released n flow at_release ok =>
    subst at_release
    refine ⟨?_, alive⟩
    by_cases eq : released = stream
    · subst eq
      rw [ReaderPoint.releasing, if_pos rfl] at inv
      exact inv.releases ok
    · rw [ReaderPoint.releasing, if_neg eq] at inv
      exact inv.others alive (.of_eq rfl (Function.update_of_ne (Ne.symm eq) _ _) rfl rfl)
  | @refuses released n err at_release refused =>
    subst at_release
    refine ⟨?_, alive⟩
    by_cases eq : released = stream
    · subst eq
      rw [ReaderPoint.releasing, if_pos rfl] at inv
      obtain ⟨flow, ok⟩ := inv.can_release
      rw [refused] at ok
      cases ok
    · rw [ReaderPoint.releasing, if_neg eq] at inv
      exact inv

end StreamInv

end Reader

/-! ### Every interleaving -/

/-- The invariant of a session. -/
structure SessionInv (config : Config) (session : Session) : Prop where
  alive : Alive config session.shared.machine
  stream : ∀ stream, StreamInv config stream session.shared (session.workers stream)
    (session.reader.releasing stream)

namespace SessionInv

variable {config : Config} {session session' : Session}

theorem start (config : Config) (supported : CapabilitySet) (earlier : List RuntimeMessage) :
    SessionInv config (Session.start config supported earlier) where
  alive := by
    refine .inr ⟨Session.startedProcess config, rfl, rfl, ?_, ?_, ?_⟩ <;>
      unfold Session.startedProcess <;> split <;> first | rfl | simp_all
      [RuntimeProcessState.newPty,
        RuntimeProcessState.newPipe]
  stream := by
    intro stream
    have offsets : (Session.startedProcess config).offsets stream = ⟨0, 0⟩ := by
      unfold Session.startedProcess
      split <;> cases stream <;> rfl
    have process : ∀ process, Running config (Session.start config supported earlier).shared.machine
        process → process.offsets stream = ⟨0, 0⟩ := by
      intro process running
      have eq := RuntimePhase.running.inj running.phase
      rw [← eq]
      exact offsets
    have worker : (Session.start config supported earlier).workers stream =
        if (Session.startedProcess config).carries stream then Worker.start else Worker.absent :=
          rfl
    refine ⟨⟨Nat.le_refl _, Nat.zero_le _⟩, ?_, ?_,
      ?_, by simp [Session.start, ReaderPoint.releasing],
      ?_, ?_, ?_⟩
    · rw [worker]
      split
      · exact ⟨[], rfl, fun ne => absurd rfl ne⟩
      · exact List.nil_prefix
    · rw [worker]
      split <;> exact Nat.zero_le _
    · rw [worker]
      split <;> simp [Worker.start, Worker.absent]
    · rw [worker]
      split
      · rename_i carries
        exact fun _ => carries
      · exact fun live => absurd rfl live
    · intro started running
      rw [process started running]
      rfl
    · intro started running
      rw [process started running, worker]
      refine ⟨Nat.le_refl _, ?_⟩
      split
      · exact fun _ => rfl
      · exact fun live => absurd rfl live

/-- **One move of one thread.** -/
theorem step (inv : SessionInv config session) {move : Move}
    (h : session.step config move = some session') : SessionInv config session' := by
  have others : ∀ {shared : Shared},
      (∀ stream, Others config stream session.shared shared) →
      SessionInv config { session with shared } := by
    intro shared all
    exact ⟨(all .stdout).alive inv.alive, fun stream =>
      (inv.stream stream).others inv.alive (all stream)⟩
  cases move with
  | worker stream choice =>
    obtain ⟨⟨shared, worker⟩, stepped, rfl⟩ := Option.map_eq_some_iff.mp h
    have step := stepWorker_cases stepped
    have own := (inv.stream stream).ownStep inv.alive step
    refine ⟨own.2, fun other => ?_⟩
    by_cases eq : other = stream
    · subst eq
      change StreamInv config other shared (Function.update session.workers other worker other) _
      rw [Function.update_self]
      exact own.1
    · change StreamInv config other shared (Function.update session.workers stream worker other) _
      rw [Function.update_of_ne eq]
      exact (inv.stream other).others inv.alive (step.others (Ne.symm eq))
  | reader choice =>
    obtain ⟨⟨shared, reader⟩, stepped, rfl⟩ := Option.map_eq_some_iff.mp h
    have step := stepReader_cases stepped
    exact ⟨((inv.stream .stdout).readerStep inv.alive step).2,
      fun stream => ((inv.stream stream).readerStep inv.alive step).1⟩
  | input choice =>
    obtain ⟨⟨shared, input⟩, stepped, rfl⟩ := Option.map_eq_some_iff.mp h
    have after := others fun stream => stepInput_others stepped
    exact ⟨after.alive, after.stream⟩
  | waiter choice =>
    obtain ⟨⟨shared, workers, waiter⟩, stepped, rfl⟩ := Option.map_eq_some_iff.mp h
    have after := others fun stream => (stepWaiter_others stepped).1
    refine ⟨after.alive, fun stream => ?_⟩
    have effect : Others config stream session.shared shared ∧ _ := stepWaiter_others stepped
    obtain ⟨-, stop, asked⟩ := effect
    change StreamInv config stream shared (workers stream) _
    rw [asked]
    exact (after.stream stream).forceStop stop
  | writer failure =>
    obtain ⟨shared, stepped, rfl⟩ := Option.map_eq_some_iff.mp h
    exact others fun stream => stepWriter_others stepped
  | exits status =>
    simp only [Session.step] at h
    split at h
    · cases h
    · cases h
      exact others fun stream => .of_eq rfl rfl rfl rfl

/-- **A whole run**, by induction on its moves. -/
theorem run : ∀ (moves : List Move) (session : Session), SessionInv config session →
    session.run config moves = some session' → SessionInv config session'
  | [], _, inv, ran => by
      cases ran
      exact inv
  | move :: moves, session, inv, ran => by
      obtain ⟨next, stepped, rest⟩ := Option.bind_eq_some_iff.mp ran
      exact run moves next (inv.step stepped) rest

end SessionInv

/-- **Output stays in step**, in every interleaving of the threads of a session.  The bytes of a
stream that are sent and not acknowledged fit the window, as the flow and as the state machine count
them.  A worker's next message has the offset the state machine expects and is accepted, unless the
session has ended.  An acknowledgement the state machine has accepted is released by the flow.  What
is sent is a prefix of what is read. -/
theorem output_flow_in_step (config : Config) (supported : CapabilitySet)
    (earlier : List RuntimeMessage) (moves : List Move) (session : Session)
    (ran : (Session.start config supported earlier).run config moves = some session)
    (stream : RuntimeOutputStream) :
    (session.shared.flows stream).acknowledged ≤ (session.shared.flows stream).sent ∧
    (session.shared.flows stream).sent ≤
      (session.shared.flows stream).acknowledged + outputFlowWindowBytes ∧
    (∀ process, session.shared.machine.phase = .running process →
      (process.offsets stream).next ≤ (process.offsets stream).acked + outputFlowWindowBytes) ∧
    (∀ offset length, (session.workers stream).point = .send offset length →
      session.shared.machine.isClosed = false →
        (∃ process, session.shared.machine.phase = .running process ∧
          (process.offsets stream).next = offset) ∧
        ∃ machine, session.shared.machine.observeOutbound (.output config.processId stream offset
          ((session.workers stream).chunk length)) = .ok machine) ∧
    (∀ n, session.reader = .release stream n →
      ∃ flow, (session.shared.flows stream).acknowledge n = .ok flow) ∧
    delivered stream session.shared.sent <+: (session.workers stream).received := by
  have inv := SessionInv.run moves _ (SessionInv.start config supported earlier) ran
  have own := inv.stream stream
  refine ⟨own.fits.ordered, own.fits.window, ?_, ?_, ?_, own.bytes.is_start⟩
  · intro process phase
    rcases inv.alive with closed | ⟨process', running⟩
    · rw [phase] at closed
      cases closed
    cases RuntimePhase.running.inj (phase.symm.trans running.phase)
    have acked := own.acked process running
    have next := (own.next process running).1
    have window := own.fits.window
    cases pending : session.reader.releasing stream with
    | none =>
      rw [pending] at acked
      change _ = (session.shared.flows stream).acknowledged at acked
      omega
    | some n =>
      -- the flow has not yet heard of the last acknowledgement
      rw [pending] at acked
      change _ = n at acked
      have released := (own.released n pending).1
      omega
  · intro offset length at_send notClosed
    rcases inv.alive with closed | ⟨process, running⟩
    · simp [RuntimeStateMachine.isClosed, closed] at notClosed
    · obtain ⟨next, machine, observed, -⟩ := own.accepted running at_send
      exact ⟨⟨process, running.phase, next⟩, machine, observed⟩
  · intro n at_release
    have pending : session.reader.releasing stream = some n := by
      rw [at_release]
      exact if_pos rfl
    rw [pending] at own
    exact own.can_release

/-! ### A process that says hello -/

namespace Sample

def config : Config := ⟨7, false, some outputHardMaxBytes, false, false, fun _ => "refused"⟩

def capabilities : CapabilitySet := ⟨true, true, false⟩

def start : Session := Session.start config capabilities []

/-- The worker of the standard output reads some bytes and reserves as much of the window as it can.
-/
def reads (bytes : List UInt8) : List Move :=
  [.worker .stdout .go, .worker .stdout .go, .worker .stdout .go,
    .worker .stdout (.read (.data bytes)), .worker .stdout .go,
    .worker .stdout (.read .wouldBlock)] ++ List.replicate 6 (.worker .stdout .go)

/-- Up to the reservation of the first chunk. -/
def reserved : List Move :=
  [.worker .stdout .go, .worker .stdout .go] ++ reads [104, 105]

/-- The client acknowledges, and the state machine looks at it. -/
def acknowledges (n : ℕ) : List Move :=
  [.reader .go, .reader (.message (.outputAck 7 .stdout n)), .reader .go, .reader .go]

/-- The first chunk is sent; while the second one is about to be, the first is acknowledged. -/
def inStep : List Move :=
  reserved ++ [.worker .stdout .go, .worker .stdout .go] ++ reads [33] ++ acknowledges 2 ++
    [.reader .go]

/-- The client acknowledges what was never sent, and is told so. -/
def ended : List Move := reserved ++ acknowledges 100 ++ [.reader .go, .reader .go]

end Sample

open Sample in
/-- Two bytes are sent and acknowledged, and a third one is about to be sent: it is accepted, and
the acknowledgement is released. -/
theorem output_flow_in_step_hello :
    ∃ session, start.run config inStep = some session ∧
      session.shared.flows .stdout = ⟨3, 0, false⟩ ∧
      (session.workers .stdout).point = .send 2 1 ∧
      session.reader = .release .stdout 2 ∧
      (∃ machine, session.shared.machine.observeOutbound (.output 7 .stdout 2
        ((session.workers .stdout).chunk 1)) = .ok machine) ∧
      (∃ flow, (session.shared.flows .stdout).acknowledge 2 = .ok flow) ∧
      delivered .stdout session.shared.sent <+: (session.workers .stdout).received := by
  have final : (start.run config inStep).map (fun session =>
      (session.shared.flows .stdout, (session.workers .stdout).point, session.reader,
        session.shared.machine.isClosed)) =
      some (⟨3, 0, false⟩, .send 2 1, .release .stdout 2, false) := by
    decide +kernel
  obtain ⟨session, ran, eq⟩ := Option.map_eq_some_iff.mp final
  obtain ⟨flow, eq⟩ := Prod.mk.inj eq
  obtain ⟨point, eq⟩ := Prod.mk.inj eq
  obtain ⟨reader, notClosed⟩ := Prod.mk.inj eq
  obtain ⟨-, -, -, accepted, released, sent⟩ :=
    output_flow_in_step config capabilities [] inStep session ran .stdout
  exact ⟨session, ran, flow, point, reader, (accepted 2 1 point notClosed).2,
    released 2 reader, sent⟩

open Sample in
/-- A wrong acknowledgement ends the session while the worker is about to send: the output is
refused. -/
theorem output_refused_after_end :
    ∃ session, start.run config ended = some session ∧
      (session.workers .stdout).point = .send 0 2 ∧
      session.shared.machine.observeOutbound (.output 7 .stdout 0
        ((session.workers .stdout).chunk 2)) = .error (.unexpectedMessage "closed" "output") := by
  have final : (start.run config ended).map (fun session =>
      ((session.workers .stdout).point, session.shared.machine.observeOutbound
        (.output 7 .stdout 0 ((session.workers .stdout).chunk 2)))) =
      some (.send 0 2, .error (.unexpectedMessage "closed" "output")) := by
    decide +kernel
  obtain ⟨session, ran, eq⟩ := Option.map_eq_some_iff.mp final
  obtain ⟨point, refused⟩ := Prod.mk.inj eq
  exact ⟨session, ran, point, refused⟩

end RemoteMirror.AgentRuntime
