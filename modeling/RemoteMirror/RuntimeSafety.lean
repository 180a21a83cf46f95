/-
**A runtime machine is safe.**

A machine is offered messages, sent or received, in any order.  It accepts some of them and rejects
the others, and stays as it is when it rejects one.  The messages it has accepted are its history.

What a machine knows is tied to its history: the bytes of each stream are contiguous, from the
offset at which the stream was taken up to the offset the machine expects next.  Only a terminal
that is attached again may skip bytes, once, and then the skipped range is announced before any
output.

Main definitions:

* `Runtime.RuntimeStateMachine.offer`, `Runtime.RuntimeStateMachine.run` — messages
  offered to a machine, and what it accepted;
* `Runtime.Transition`, `Runtime.ProcessStep` — everything an accepted message can do;
* `Runtime.Contiguous`, `Runtime.StreamsByCapability` — what is said about a history.

Main results:

* `Runtime.PhaseInv.step` — the invariant that ties a phase to its history;
* `Runtime.runtime_machine_safe` — **safety of every run**.
-/

import RemoteMirror.RuntimeMachine

namespace RemoteMirror.Runtime

open Checks

/-! ### Offers -/

namespace RuntimeStateMachine

/-- `observe` on a machine in place: the transition works on a copy of the phase, which is put back
only if it succeeds. -/
def offer (machine : RuntimeStateMachine) (direction : RuntimeDirection)
    (message : RuntimeMessage) : RuntimeStateMachine × Outcome Unit :=
  match machine.observe direction message with
  | .ok machine' => (machine', .ok ())
  | .error error => (machine, .error error)

/-- The machine after some offers, with the messages it has accepted. -/
def run (machine : RuntimeStateMachine) (log : List RuntimeMessage) :
    List (RuntimeDirection × RuntimeMessage) → RuntimeStateMachine × List RuntimeMessage
  | [] => (machine, log)
  | (direction, message) :: offers =>
    match machine.offer direction message with
    | (machine, .ok _) => machine.run (log ++ [message]) offers
    | (machine, .error _) => machine.run log offers

end RuntimeStateMachine

/-! ### What a history says -/

/-- A range of offsets of a stream: bytes that were carried, or bytes that were skipped. -/
structure Segment where
  start : ℕ
  stop : ℕ
  skipped : Bool
  deriving DecidableEq, Repr

/-- Each segment starts where the one before it ended. -/
def Chain : ℕ → List Segment → ℕ → Prop
  | start, [], stop => start = stop
  | start, segment :: segments, stop => segment.start = start ∧ Chain segment.stop segments stop

theorem Chain.concat {segments : List Segment} {segment : Segment} :
    ∀ {start : ℕ}, Chain start segments segment.start →
      Chain start (segments ++ [segment]) segment.stop := by
  induction segments with
  | nil => exact fun h => ⟨h.symm, rfl⟩
  | cons first segments ih => exact fun h => ⟨h.1, ih h.2⟩

/-- The segment of the input a message carries. -/
def inputSegments : RuntimeMessage → List Segment
  | .input _ offset data => [⟨offset, offset + data.length, false⟩]
  | _ => []

/-- The segment of an output stream a message carries or skips. -/
def outputSegments (stream : RuntimeOutputStream) : RuntimeMessage → List Segment
  | .output _ other offset data =>
    if other = stream then [⟨offset, offset + data.length, false⟩] else []
  | .outputGap _ requestedOffset availableOffset _ =>
    if stream = .pty then [⟨requestedOffset, availableOffset, true⟩] else []
  | _ => []

/-- The output stream a message is about. -/
def outputStream : RuntimeMessage → Option RuntimeOutputStream
  | .output _ stream _ _ | .outputAck _ stream _ => some stream
  | _ => none

/-- Where a message says the output of a terminal is taken up. -/
def takenUpAt : RuntimeMessage → Option ℕ
  | .attachPty _ _ replayFrom => replayFrom
  | .ptyAttached _ _ _ outputOffset => some outputOffset
  | _ => none

/-- The offset at which output starts: the one that was asked for, else the one that was answered.
-/
def origin (log : List RuntimeMessage) : Option ℕ := log.findSome? takenUpAt

/-- A capability was agreed on, and no other one. -/
def Negotiated (log : List RuntimeMessage) (capability : RuntimeCapability) : Prop :=
  (∃ version protocol, .serverHello version protocol capability ∈ log) ∧
    ∀ version protocol other, .serverHello version protocol other ∈ log → other = capability

/-- Pipe processes have two output streams, terminals one. -/
def RuntimeCapability.hasStream : RuntimeCapability → RuntimeOutputStream → Bool
  | .processPipeV1, .stdout | .processPipeV1, .stderr | .processPtyV1, .pty => true
  | _, _ => false

/-- **The data of a history is contiguous**: input starts at zero, output at its origin, and bytes
are skipped at most once, when a terminal was attached again and before any of its output. -/
structure Contiguous (log : List RuntimeMessage) : Prop where
  input : ∃ stop, Chain 0 (log.flatMap inputSegments) stop
  output : ∀ stream, ∃ stop, Chain ((origin log).getD 0) (log.flatMap (outputSegments stream)) stop
  skippedFirst : ∀ stream, ∀ segment ∈ (log.flatMap (outputSegments stream)).tail,
    segment.skipped = false
  skippedAttached : ∀ stream, ∀ segment ∈ log.flatMap (outputSegments stream),
    segment.skipped = true →
    ∃ requestId processId sessionId, .ptyAttached requestId processId sessionId segment.stop ∈ log

/-- The offsets after the data of a history are below `2 ^ 64`: no sum has wrapped. -/
def NoWrap (log : List RuntimeMessage) : Prop :=
  (∀ segment ∈ log.flatMap inputSegments, segment.stop < 2 ^ 64) ∧
    ∀ stream, ∀ segment ∈ log.flatMap (outputSegments stream),
      segment.skipped = false → segment.stop < 2 ^ 64

/-- Output and its acknowledgements are on streams of the capability that was agreed on. -/
def StreamsByCapability (log : List RuntimeMessage) : Prop :=
  ∀ message ∈ log, ∀ stream, outputStream message = some stream →
    ∃ capability, Negotiated log capability ∧ capability.hasStream stream = true

/-- No more is acknowledged than was sent. -/
def RuntimePhase.AckedWithinSent : RuntimePhase → Prop
  | .running process | .awaitDetached process =>
    process.inputAcked ≤ process.inputSent ∧
      ∀ stream, (process.offsets stream).acked ≤ (process.offsets stream).next
  | .watching watch | .awaitWatchStopped watch => watch.ackedSequence ≤ watch.nextSequence
  | _ => True

/-- The offsets of a phase are values of `u64`. -/
def RuntimePhase.Fits : RuntimePhase → Prop
  | .running process | .awaitDetached process =>
    process.inputSent < 2 ^ 64 ∧ ∀ stream, (process.offsets stream).next < 2 ^ 64
  | .watching watch | .awaitWatchStopped watch => watch.nextSequence < 2 ^ 64
  | _ => True

/-- The offsets a machine takes from a message as they are, are values of `u64`. -/
def RuntimeMessage.Fits : RuntimeMessage → Prop
  | .ptyAttached _ _ _ outputOffset => outputOffset < 2 ^ 64
  | .watchStarted _ _ nextSequence | .watchOverflow _ _ nextSequence => nextSequence < 2 ^ 64
  | _ => True

/-! ### What an accepted message does -/

/-- What a message does to a process; the flag says that the process has ended. -/
inductive ProcessStep (process : RuntimeProcessState) (m : RuntimeMessage) :
    RuntimeProcessState → Bool → Prop
  | server {process' : RuntimeProcessState} {ended : Bool}
    (h : ServerMove process m process' ended) :
      ProcessStep process m process' ended
  | client {process' : RuntimeProcessState} (h : ClientMove process m process') :
      ProcessStep process m process' false

variable {process process' : RuntimeProcessState} {m : RuntimeMessage} {ended : Bool}

theorem processStep_of_message (h : applyRunningMessage process m = .ok (process', ended)) :
    ProcessStep process m process' ended := by
  cases hsender : m.sender with
  | server =>
    exact .server (applyRunningServerMessage_iff.1 (applyRunningMessage_server hsender ▸ h))
  | client =>
    obtain ⟨hmove, rfl⟩ := (applyRunningMessage_iff hsender).1 h
    exact .client hmove

/-- What a message does to a watch. -/
inductive WatchStep (watch : RuntimeWatchState) : RuntimeMessage → RuntimeWatchState → Prop
  | watchAck {id n : ℕ} (le : n ≤ watch.nextSequence) :
      WatchStep watch (.watchAck id n) { watch with ackedSequence := n }
  | watchEvents {id next : ℕ} {events : List WorkspaceWatchEvent}
      (add : checkedAdd watch.nextSequence events.length = some next) :
      WatchStep watch (.watchEvents id watch.nextSequence events)
        { watch with nextSequence := next }
  | resumed {id n next : ℕ} : WatchStep watch (.watchOverflow id n next)
      { watch with gapPending := none }
  | watchOverflow {id next : ℕ} (lt : watch.nextSequence < next) :
      WatchStep watch (.watchOverflow id watch.nextSequence next)
      { watch with nextSequence := next }

variable {watch watch' : RuntimeWatchState}

theorem watchStep_of_message (hvalid : m.validate = .ok ())
    (h : applyWatchMessage watch m = .ok watch') : WatchStep watch m watch' := by
  cases hsender : m.sender with
  | client =>
    obtain ⟨id, n, rfl⟩ := applyWatchMessage_cases hsender h
    obtain ⟨-, -, hle, rfl⟩ := applyWatchMessage_watchAck.1 h
    exact .watchAck hle
  | server =>
    rw [applyWatchMessage_server hsender] at h
    rcases applyWatchServerMessage_cases h with ⟨id, n, events, rfl⟩ | ⟨id, n, m, rfl⟩
    · obtain ⟨-, -, rfl, next, hadd, rfl⟩ := applyWatchServerMessage_watchEvents.1 h
      exact .watchEvents hadd
    · obtain ⟨-, ⟨-, rfl⟩ | ⟨-, rfl, rfl⟩⟩ := applyWatchServerMessage_watchOverflow.1 h
      · exact .resumed
      · exact .watchOverflow (RuntimeMessage.lt_of_validate_watchOverflow hvalid)

/-- **What an accepted message does to the phase.** -/
inductive Transition : RuntimePhase → RuntimeMessage → RuntimePhase → Prop
  | failed {phase : RuntimePhase} {error : RuntimeError} (live : phase ≠ .closed) :
      Transition phase (.error error) .closed
  | clientHello {version : String} {protocol : ℕ} {capability : RuntimeCapability} :
      Transition .awaitClientHello (.clientHello version protocol capability)
      (.awaitServerHello capability)
  | serverHello {version : String} {protocol : ℕ} {capability : RuntimeCapability} :
      Transition (.awaitServerHello capability) (.serverHello version protocol capability)
      (.ready capability)
  | startProcess {capability : RuntimeCapability} {id : ℕ} {spec : RuntimeProcessSpec}
      (process : capability ≠ .workspaceWatchV1) :
      Transition (.ready capability) (.startProcess id spec)
        (.awaitProcessStarted capability id spec.persistence)
  | attachPty {id : ℕ} {credentials : PtySessionCredentials} {replayFrom : Option ℕ} :
      Transition (.ready .processPtyV1) (.attachPty id credentials replayFrom)
        (.awaitPtyAttached id credentials.sessionId replayFrom)
  | watchStart {id : ℕ} {resumeFrom : Option ℕ} :
      Transition (.ready .workspaceWatchV1) (.watchStart id resumeFrom)
      (.awaitWatchStarted id resumeFrom)
  | startedPipe {id processId : ℕ} {persistence : RuntimePersistence}
      {session : Option PtySessionCredentials} {offset : ℕ} :
      Transition (.awaitProcessStarted .processPipeV1 id persistence)
        (.processStarted id processId session offset) (.running (.newPipe processId))
  | startedPty {id processId : ℕ} {persistence : RuntimePersistence}
      {session : Option PtySessionCredentials} {sessionId : Option PtySessionId} {offset : ℕ} :
      Transition (.awaitProcessStarted .processPtyV1 id persistence)
        (.processStarted id processId session offset)
        (.running (.newPty processId sessionId 0 none))
  | attached {id processId offset : ℕ} {sessionId : PtySessionId} {replayFrom : Option ℕ}
      {gap : Option (ℕ × ℕ)} (gapOf : replayGap replayFrom offset = .ok gap) :
      Transition (.awaitPtyAttached id sessionId replayFrom)
        (.ptyAttached id processId sessionId offset)
        (.running (.newPty processId (some sessionId) offset gap))
  | running {process process' : RuntimeProcessState} {message : RuntimeMessage} {ended : Bool}
      (step : ProcessStep process message process' ended) :
      Transition (.running process) message (unlessEnded ended (afterClient message process'))
  | detaching {process process' : RuntimeProcessState} {message : RuntimeMessage} {ended : Bool}
      (step : ProcessStep process message process' ended) :
      Transition (.awaitDetached process) message (unlessEnded ended (.awaitDetached process'))
  | detached {process : RuntimeProcessState} {id : ℕ} {sessionId : PtySessionId} :
      Transition (.awaitDetached process) (.detached id sessionId) .closed
  | watchStarted {id watchId next : ℕ} {resumeFrom : Option ℕ} {gap : Option (ℕ × ℕ)} :
      Transition (.awaitWatchStarted id resumeFrom) (.watchStarted id watchId next)
        (.watching ⟨watchId, next, next, gap⟩)
  | watching {watch watch' : RuntimeWatchState} {message : RuntimeMessage}
      (step : WatchStep watch message watch') : Transition (.watching watch) message
      (.watching watch')
  | watchStop {watch : RuntimeWatchState} {id : ℕ} :
      Transition (.watching watch) (.watchStop id) (.awaitWatchStopped watch)
  | stopping {watch watch' : RuntimeWatchState} {message : RuntimeMessage}
      (step : WatchStep watch message watch') :
      Transition (.awaitWatchStopped watch) message (.awaitWatchStopped watch')
  | watchStopped {watch : RuntimeWatchState} {id : ℕ} :
      Transition (.awaitWatchStopped watch) (.watchStopped id) .closed

/-- A process that was started is a new one. -/
theorem startedProcess_cases {capability : RuntimeCapability} {persistence : RuntimePersistence}
    {processId offset : ℕ} {session : Option PtySessionCredentials}
    (h : startedProcess capability persistence processId session offset = .ok process) :
    capability = .processPipeV1 ∧ process = .newPipe processId ∨
      capability = .processPtyV1 ∧ ∃ sessionId, process = .newPty processId sessionId 0 none := by
  unfold startedProcess at h
  split at h <;> try split at h
  all_goals cases h
  · exact .inl ⟨rfl, rfl⟩
  · rename_i hzero
    exact .inr ⟨rfl, none, by rw [hzero]⟩
  · rename_i credentials hzero
    exact .inr ⟨rfl, some credentials.sessionId, by rw [hzero]⟩

variable {phase phase' : RuntimePhase}

theorem transition_of_ok {supported : CapabilitySet} (hvalid : m.validate = .ok ())
    (h : applyMessage supported phase m = .ok phase') : Transition phase m phase' := by
  by_cases hfailed : ∃ error, m = .error error
  · obtain ⟨error, rfl⟩ := hfailed
    have hlive : phase ≠ .closed := by
      rintro rfl
      exact applyMessage_closed h
    rw [applyMessage_error hlive] at h
    cases h
    exact .failed hlive
  have he : ∀ error, m ≠ .error error := fun error heq => hfailed ⟨error, heq⟩
  cases phase with
  | awaitClientHello =>
    cases m <;> simp [applyMessage, bind_eq_ok] at h <;> try exact absurd rfl (he _)
    obtain ⟨-, rfl⟩ := h
    exact .clientHello
  | awaitServerHello expected =>
    cases m <;> simp [applyMessage, bind_eq_ok] at h <;> try exact absurd rfl (he _)
    obtain ⟨-, rfl, rfl⟩ := h
    exact .serverHello
  | ready capability =>
    cases capability <;> cases m <;> simp [applyMessage] at h <;> try exact absurd rfl (he _)
    · obtain ⟨-, rfl⟩ := h
      exact .startProcess (by simp)
    · obtain ⟨-, rfl⟩ := h
      exact .startProcess (by simp)
    · subst h
      exact .attachPty
    · subst h
      exact .watchStart
  | awaitProcessStarted capability id persistence =>
    cases m <;> simp [applyMessage, bind_eq_ok] at h <;> try exact absurd rfl (he _)
    obtain ⟨rfl, process, hprocess, rfl⟩ := h
    obtain ⟨rfl, rfl⟩ | ⟨rfl, sessionId, rfl⟩ := startedProcess_cases hprocess
    · exact .startedPipe
    · exact .startedPty
  | awaitPtyAttached id sessionId replayFrom =>
    cases m <;> simp [applyMessage, bind_eq_ok] at h <;> try exact absurd rfl (he _)
    obtain ⟨rfl, rfl, gap, hgap, rfl⟩ := h
    exact .attached hgap
  | running process =>
    rw [applyMessage_running he, bind_eq_ok] at h
    obtain ⟨⟨process', ended⟩, hstep, hphase⟩ := h
    cases hphase
    exact .running (processStep_of_message hstep)
  | awaitDetached process =>
    by_cases hd : ∃ id session, m = .detached id session
    · obtain ⟨id, session, rfl⟩ := hd
      obtain ⟨-, -, rfl⟩ := applyMessage_awaitDetached_detached.1 h
      exact .detached
    by_cases ho : ∃ id stream n, m = .outputAck id stream n
    · obtain ⟨id, stream, n, rfl⟩ := ho
      rw [applyMessage_awaitDetached_outputAck, bind_eq_ok] at h
      obtain ⟨⟨process', ended⟩, hstep, hphase⟩ := h
      cases hphase
      exact .detaching (processStep_of_message hstep)
    · rw [applyMessage_awaitDetached he (fun id session heq => hd ⟨id, session, heq⟩)
        (fun id stream n heq => ho ⟨id, stream, n, heq⟩), bind_eq_ok] at h
      obtain ⟨⟨process', ended⟩, hstep, hphase⟩ := h
      cases hphase
      exact .detaching (.server (applyRunningServerMessage_iff.1 hstep))
  | awaitWatchStarted id resumeFrom =>
    cases m <;> simp [applyMessage, bind_eq_ok] at h <;> try exact absurd rfl (he _)
    obtain ⟨rfl, h⟩ := h
    cases resumeFrom with
    | none =>
      cases h
      exact .watchStarted
    | some resumeFrom =>
      simp only [unit_bind_eq_ok, Except.ok.injEq] at h
      obtain ⟨-, rfl⟩ := h
      exact .watchStarted
  | watching watch =>
    by_cases hs : ∃ id, m = .watchStop id
    · obtain ⟨id, rfl⟩ := hs
      obtain ⟨-, rfl⟩ := applyMessage_watching_watchStop.1 h
      exact .watchStop
    · rw [applyMessage_watching he fun id heq => hs ⟨id, heq⟩, bind_eq_ok] at h
      obtain ⟨watch', hstep, hphase⟩ := h
      cases hphase
      exact .watching (watchStep_of_message hvalid hstep)
  | awaitWatchStopped watch =>
    by_cases hs : ∃ id, m = .watchStopped id
    · obtain ⟨id, rfl⟩ := hs
      obtain ⟨-, rfl⟩ := applyMessage_awaitWatchStopped_watchStopped.1 h
      exact .watchStopped
    · rw [applyMessage_awaitWatchStopped he fun id heq => hs ⟨id, heq⟩, bind_eq_ok] at h
      obtain ⟨watch', hstep, hphase⟩ := h
      cases hphase
      exact .stopping (watchStep_of_message hvalid hstep)
  | closed => exact absurd h applyMessage_closed

/-! ### The invariant -/

/-- What the history of every machine is like. -/
structure History (log : List RuntimeMessage) : Prop where
  contiguous : Contiguous log
  noWrap : NoWrap log
  streams : StreamsByCapability log

/-- No message was about a stream so far. -/
structure Idle (log : List RuntimeMessage) : Prop where
  input : log.flatMap inputSegments = []
  output : ∀ stream, log.flatMap (outputSegments stream) = []
  streams : ∀ message ∈ log, outputStream message = none

/-- The capability of a process. -/
def RuntimeProcessState.capability (process : RuntimeProcessState) : RuntimeCapability :=
  if process.pty then .processPtyV1 else .processPipeV1

/-- What a process knows of its history. -/
structure ProcessInv (log : List RuntimeMessage) (process : RuntimeProcessState) : Prop where
  history : History log
  negotiated : Negotiated log process.capability
  inputAcked : process.inputAcked ≤ process.inputSent
  acked : ∀ stream, (process.offsets stream).acked ≤ (process.offsets stream).next
  input : Chain 0 (log.flatMap inputSegments) process.inputSent
  /-- all that was announced as skipped has been announced -/
  output : process.gapPending = none → ∀ stream, process.carries stream = true →
    Chain ((origin log).getD 0) (log.flatMap (outputSegments stream)) (process.offsets stream).next
  /-- a gap is announced before any output -/
  gap : ∀ requested available, process.gapPending = some (requested, available) →
    process.pty = true ∧ origin log = some requested ∧ process.ptyOutput.next = available ∧
      (∀ stream, log.flatMap (outputSegments stream) = []) ∧
      ∃ requestId processId sessionId, .ptyAttached requestId processId sessionId available ∈ log

/-- **What a machine in a phase knows of its history.** -/
def PhaseInv (log : List RuntimeMessage) : RuntimePhase → Prop
  | .awaitClientHello | .awaitServerHello _ =>
    Idle log ∧ origin log = none ∧ ∀ version protocol capability,
      .serverHello version protocol capability ∉ log
  | .ready capability => Idle log ∧ origin log = none ∧ Negotiated log capability
  | .awaitProcessStarted capability _ _ =>
    Idle log ∧ origin log = none ∧ Negotiated log capability ∧ capability ≠ .workspaceWatchV1
  | .awaitPtyAttached _ _ replayFrom =>
    Idle log ∧ origin log = replayFrom ∧ Negotiated log .processPtyV1
  | .running process | .awaitDetached process => ProcessInv log process
  | .awaitWatchStarted _ _ => Idle log
  | .watching watch | .awaitWatchStopped watch =>
    Idle log ∧ watch.ackedSequence ≤ watch.nextSequence
  | .closed => History log

section Invariant

variable {log : List RuntimeMessage} {m : RuntimeMessage}

theorem flatMap_concat {α : Type} (f : RuntimeMessage → List α) :
    (log ++ [m]).flatMap f = log.flatMap f ++ f m := by simp

theorem origin_concat : origin (log ++ [m]) = (origin log).or (takenUpAt m) := by
  simp [origin, List.findSome?_append]

theorem Negotiated.concat {capability : RuntimeCapability} (h : Negotiated log capability)
    (hm : ∀ version protocol other, m ≠ .serverHello version protocol other) :
    Negotiated (log ++ [m]) capability := by
  obtain ⟨⟨version, protocol, hmem⟩, hall⟩ := h
  refine ⟨⟨version, protocol, List.mem_append_left _ hmem⟩, fun version protocol other hother => ?_⟩
  rcases List.mem_append.1 hother with hother | hother
  · exact hall _ _ _ hother
  · exact absurd (List.mem_singleton.1 hother).symm (hm _ _ _)

theorem Idle.history (h : Idle log) : History log where
  contiguous :=
    { input := ⟨0, by rw [h.input]; rfl⟩
      output := fun stream => ⟨_, by rw [h.output]; rfl⟩
      skippedFirst := fun stream => by simp [h.output]
      skippedAttached := fun stream => by simp [h.output] }
  noWrap := by
    refine ⟨?_, fun stream => ?_⟩
    · rw [h.input]
      exact fun _ hmem => (List.not_mem_nil hmem).elim
    · rw [h.output]
      exact fun _ hmem => (List.not_mem_nil hmem).elim
  streams message hmem stream hstream := by
    rw [h.streams message hmem] at hstream
    cases hstream

/-- Messages that set a connection up are about no stream. -/
theorem Idle.concat (h : Idle log) (hinput : inputSegments m = [])
    (houtput : ∀ stream, outputSegments stream m = []) (hstream : outputStream m = none) :
    Idle (log ++ [m]) where
  input := by rw [flatMap_concat, h.input, hinput, List.append_nil]
  output stream := by rw [flatMap_concat, h.output, houtput, List.append_nil]
  streams message hmem := by
    rcases List.mem_append.1 hmem with hmem | hmem
    · exact h.streams message hmem
    · rw [List.mem_singleton.1 hmem]
      exact hstream

/-- Streams stay within the capability. -/
theorem StreamsByCapability.concat (h : StreamsByCapability log)
    (hnegotiated : Negotiated log process.capability)
    (hhello : ∀ version protocol other, m ≠ .serverHello version protocol other)
    (hcarries : ∀ stream, outputStream m = some stream → process.carries stream = true) :
    StreamsByCapability (log ++ [m]) := by
  intro message hmem stream hstream
  rcases List.mem_append.1 hmem with hmem | hmem
  · obtain ⟨capability, hcapability, hhas⟩ := h message hmem stream hstream
    exact ⟨capability, hcapability.concat hhello, hhas⟩
  · rw [List.mem_singleton.1 hmem] at hstream
    refine ⟨process.capability, hnegotiated.concat hhello, ?_⟩
    have hcarry := hcarries stream hstream
    cases hpty : process.pty <;> cases stream <;>
      simp_all [RuntimeProcessState.carries, RuntimeProcessState.capability,
      RuntimeCapability.hasStream]

variable {process process' : RuntimeProcessState}

/-- What a message adds to the history of a process: it extends the chains of bytes, and it skips
bytes only at the start. -/
structure Extends (log : List RuntimeMessage) (process : RuntimeProcessState) (m : RuntimeMessage) :
    Prop where
  hello : ∀ version protocol other, m ≠ .serverHello version protocol other
  takenUp : takenUpAt m = none
  carries : ∀ stream, outputStream m = some stream → process.carries stream = true
  input : ∃ stop, Chain 0 (log.flatMap inputSegments ++ inputSegments m) stop
  output : ∀ stream, ∃ stop,
    Chain ((origin log).getD 0) (log.flatMap (outputSegments stream) ++
    outputSegments stream m) stop
  noWrap : (∀ segment ∈ inputSegments m, segment.stop < 2 ^ 64) ∧
    ∀ stream, ∀ segment ∈ outputSegments stream m, segment.skipped = false → segment.stop < 2 ^ 64
  skipped : ∀ stream, ∀ segment ∈ outputSegments stream m, segment.skipped = true →
    outputSegments stream m = [segment] ∧ log.flatMap (outputSegments stream) = [] ∧
      ∃ requestId processId sessionId, .ptyAttached requestId processId sessionId segment.stop ∈ log

theorem mem_tail_append {α : Type} {a : α} {l l' : List α} (h : a ∈ (l ++ l').tail) :
    a ∈ l.tail ∨ l = [] ∧ a ∈ l'.tail ∨ l ≠ [] ∧ a ∈ l' := by
  cases l with
  | nil => exact .inr (.inl ⟨rfl, h⟩)
  | cons b l =>
    rcases List.mem_append.1 h with h | h
    · exact .inl h
    · exact .inr (.inr ⟨List.cons_ne_nil _ _, h⟩)

theorem History.concat (h : History log) (hnegotiated : Negotiated log process.capability)
    (hm : Extends log process m) : History (log ++ [m]) where
  contiguous :=
    { input := by rw [flatMap_concat]; exact hm.input
      output := fun stream => by
        rw [flatMap_concat, origin_concat, hm.takenUp, Option.or_none]
        exact hm.output stream
      skippedFirst := fun stream segment hmem => by
        rw [flatMap_concat] at hmem
        by_contra hskipped
        rw [Bool.not_eq_false] at hskipped
        rcases mem_tail_append hmem with hmem | ⟨-, hmem⟩ | ⟨hne, hmem⟩
        · exact nomatch (h.contiguous.skippedFirst stream segment hmem).symm.trans hskipped
        · obtain ⟨hone, -⟩ := hm.skipped stream segment (List.mem_of_mem_tail hmem) hskipped
          simp [hone] at hmem
        · exact hne (hm.skipped stream segment hmem hskipped).2.1
      skippedAttached := fun stream segment hmem hskipped => by
        rw [flatMap_concat] at hmem
        obtain ⟨id, processId, sessionId, hattached⟩ : ∃ requestId processId sessionId,
            .ptyAttached requestId processId sessionId segment.stop ∈ log := by
          rcases List.mem_append.1 hmem with hmem | hmem
          · exact h.contiguous.skippedAttached stream segment hmem hskipped
          · exact (hm.skipped stream segment hmem hskipped).2.2
        exact ⟨id, processId, sessionId, List.mem_append_left _ hattached⟩ }
  noWrap := by
    refine ⟨fun segment hmem => ?_, fun stream segment hmem => ?_⟩
    · rw [flatMap_concat] at hmem
      exact (List.mem_append.1 hmem).elim (h.noWrap.1 segment) (hm.noWrap.1 segment)
    · rw [flatMap_concat] at hmem
      exact (List.mem_append.1 hmem).elim (h.noWrap.2 stream segment) (hm.noWrap.2 stream segment)
  streams := h.streams.concat hnegotiated hm.hello hm.carries

theorem capability_of_pty (h : process'.pty = process.pty) :
    process'.capability = process.capability := by
  rw [RuntimeProcessState.capability, RuntimeProcessState.capability, h]

/-- One message about a process. -/
theorem ProcessInv.concat (h : ProcessInv log process) (hm : Extends log process m)
    (hpty : process'.pty = process.pty) (hinputAcked : process'.inputAcked ≤ process'.inputSent)
    (hacked : ∀ stream, (process'.offsets stream).acked ≤ (process'.offsets stream).next)
    (hinput : Chain 0 (log.flatMap inputSegments ++ inputSegments m) process'.inputSent)
    (houtput : process'.gapPending = none → ∀ stream, process.carries stream = true →
      Chain ((origin log).getD 0) (log.flatMap (outputSegments stream) ++ outputSegments stream m)
        (process'.offsets stream).next)
    (hgap : ∀ gap, process'.gapPending = some gap → process.gapPending = some gap ∧
      process'.ptyOutput = process.ptyOutput ∧ ∀ stream, outputSegments stream m = []) :
    ProcessInv (log ++ [m]) process' := by
  have horigin : origin (log ++ [m]) = origin log := by
    rw [origin_concat, hm.takenUp, Option.or_none]
  refine ⟨h.history.concat h.negotiated hm, ?_, hinputAcked, hacked, ?_, ?_, ?_⟩
  · rw [capability_of_pty hpty]
    exact h.negotiated.concat hm.hello
  · rw [flatMap_concat]
    exact hinput
  · intro hnone stream hcarries
    have hcarries' : process.carries stream = true := by
      cases stream <;> simpa [RuntimeProcessState.carries, hpty] using hcarries
    rw [flatMap_concat, horigin]
    exact houtput hnone stream hcarries'
  · intro requested available hsome
    obtain ⟨hsame, hstream, hnone⟩ := hgap _ hsome
    obtain ⟨hterminal, hfrom, havailable, hempty, id, processId, sessionId, hattached⟩ :=
      h.gap requested available hsame
    refine ⟨hpty.trans hterminal, horigin.trans hfrom, hstream ▸ havailable, fun stream => ?_,
      id, processId,
      sessionId, List.mem_append_left _ hattached⟩
    rw [flatMap_concat, hempty, hnone, List.append_nil]

/-- The message neither sets a connection up nor carries bytes. -/
structure NoBytes (m : RuntimeMessage) : Prop where
  hello : ∀ version protocol other, m ≠ .serverHello version protocol other
  takenUp : takenUpAt m = none
  input : inputSegments m = []
  output : ∀ stream, outputSegments stream m = []

/-- A message that carries no bytes extends every history. -/
theorem ProcessInv.extends_noBytes (h : ProcessInv log process) (hm : NoBytes m)
    (hcarries : ∀ stream, outputStream m = some stream → process.carries stream = true) :
    Extends log process m where
  hello := hm.hello
  takenUp := hm.takenUp
  carries := hcarries
  input := by rw [hm.input, List.append_nil]; exact h.history.contiguous.input
  output stream := by rw [hm.output, List.append_nil]; exact h.history.contiguous.output stream
  noWrap := by simp [hm.input, hm.output]
  skipped := by simp [hm.output]

/-- A message about a process that carries no bytes may acknowledge some. -/
theorem ProcessInv.noBytes (h : ProcessInv log process) (hm : NoBytes m)
    (hcarries : ∀ stream, outputStream m = some stream → process.carries stream = true)
    (hpty : process'.pty = process.pty) (hsent : process'.inputSent = process.inputSent)
    (hnext : ∀ stream, (process'.offsets stream).next = (process.offsets stream).next)
    (hgap : process'.gapPending = process.gapPending ∧
      (process.gapPending = none ∨ process'.ptyOutput = process.ptyOutput))
    (hinputAcked : process'.inputAcked ≤ process'.inputSent)
    (hacked : ∀ stream, (process'.offsets stream).acked ≤ (process'.offsets stream).next) :
    ProcessInv (log ++ [m]) process' := by
  refine h.concat (h.extends_noBytes hm hcarries) hpty hinputAcked hacked ?_ ?_ ?_
  · rw [hm.input, List.append_nil, hsent]
    exact h.input
  · intro hnone stream hcarry
    rw [hm.output, List.append_nil, hnext]
    exact h.output (hgap.1 ▸ hnone) stream hcarry
  · intro gap hsome
    rw [hgap.1] at hsome
    rcases hgap.2 with hnone | hstream
    · exact nomatch hnone.symm.trans hsome
    · exact ⟨hsome, hstream, hm.output⟩

variable {id : ℕ} {data : List UInt8}

/-- A chunk of input. -/
theorem ProcessInv.input_step {next : ℕ} (h : ProcessInv log process)
    (hadd : checkedAdd process.inputSent data.length = some next) :
    ProcessInv (log ++ [.input id process.inputSent data]) { process with inputSent := next } := by
  obtain ⟨rfl, hlt⟩ := eq_of_checkedAdd hadd
  have hchain : Chain 0 (log.flatMap inputSegments ++
      [⟨process.inputSent, process.inputSent + data.length, false⟩])
      (process.inputSent + data.length) :=
    Chain.concat h.input
  refine h.concat ⟨by simp, rfl, by simp [outputStream], ⟨_, hchain⟩, fun stream => ?_, ?_,
    ?_⟩ rfl ?_ h.acked
    hchain ?_ fun gap hsome => ⟨hsome, rfl, fun _ => rfl⟩
  · exact (List.append_nil _).symm ▸ h.history.contiguous.output stream
  · simpa [inputSegments, outputSegments] using hlt
  · simp [outputSegments]
  · have := h.inputAcked
    dsimp only
    omega
  · intro hnone stream hcarries
    exact (List.append_nil _).symm ▸ h.output hnone stream hcarries

/-- A chunk of output. -/
theorem ProcessInv.output_step {next : ℕ} {stream : RuntimeOutputStream}
    (h : ProcessInv log process)
    (hgap : process.gapPending = none) (hcarries : process.carries stream = true)
    (hadd : checkedAdd (process.offsets stream).next data.length = some next) :
    ProcessInv (log ++ [.output id stream (process.offsets stream).next data])
      (process.setOffsets stream { process.offsets stream with next }) := by
  obtain ⟨rfl, hlt⟩ := eq_of_checkedAdd hadd
  -- the stream of the chunk goes on, the others stay
  have hchain (other : RuntimeOutputStream) (hcarry : process.carries other = true) :
      Chain ((origin log).getD 0) (log.flatMap (outputSegments other) ++
        outputSegments other (.output id stream (process.offsets stream).next data))
        ((process.setOffsets stream
          ⟨(process.offsets stream).next + data.length,
          (process.offsets stream).acked⟩).offsets other).next := by
    have hlog := h.output hgap other hcarry
    rw [RuntimeProcessState.offsets_setOffsets, outputSegments]
    by_cases hsame : other = stream
    · subst hsame
      rw [if_pos rfl, if_pos rfl]
      exact Chain.concat hlog
    · rw [if_neg hsame, if_neg (Ne.symm hsame), List.append_nil]
      exact hlog
  refine h.concat ⟨by simp, rfl, ?_, ?_, fun other => ?_, ?_, ?_⟩ (by simp) ?_ ?_ ?_
    (fun _ => hchain) ?_
  · rintro other hother
    cases hother
    exact hcarries
  · exact (List.append_nil _).symm ▸ h.history.contiguous.input
  · by_cases hcarry : process.carries other = true
    · exact ⟨_, hchain other hcarry⟩
    · have hne : ¬ stream = other := fun hsame => hcarry (hsame ▸ hcarries)
      rw [outputSegments, if_neg hne, List.append_nil]
      exact h.history.contiguous.output other
  · refine ⟨by simp [inputSegments], fun other segment hmem _ => ?_⟩
    rw [outputSegments] at hmem
    split at hmem
    · rw [List.mem_singleton.1 hmem]
      exact hlt
    · cases hmem
  · intro other segment hmem hskipped
    rw [outputSegments] at hmem
    split at hmem
    · rw [List.mem_singleton.1 hmem] at hskipped
      cases hskipped
    · cases hmem
  · simpa using h.inputAcked
  · intro other
    have hbefore := h.acked other
    rw [RuntimeProcessState.offsets_setOffsets]
    split
    case isTrue hsame =>
      subst hsame
      dsimp only
      omega
    case isFalse => exact hbefore
  · simpa [inputSegments] using h.input
  · intro gap hsome
    rw [RuntimeProcessState.setOffsets_gapPending, hgap] at hsome
    cases hsome

/-- The announcement of skipped output. -/
theorem ProcessInv.outputGap_step {requested available : ℕ} {snapshot : List UInt8}
    (h : ProcessInv log process) (hgap : process.gapPending = some (requested, available)) :
    ProcessInv (log ++ [.outputGap id requested available snapshot])
    { process with gapPending := none } := by
  obtain ⟨hpty, hfrom, havailable, hempty, hattached⟩ := h.gap requested available hgap
  have hchain : Chain ((origin log).getD 0) [⟨requested, available, true⟩] available := by
    rw [hfrom]
    exact ⟨rfl, rfl⟩
  refine h.concat ⟨by simp, rfl, by simp [outputStream], ?_, fun stream => ?_, ?_, ?_⟩ rfl
    h.inputAcked h.acked
    ?_ ?_ (fun gap hsome => nomatch hsome)
  · exact (List.append_nil _).symm ▸ h.history.contiguous.input
  · rw [hempty, List.nil_append, outputSegments]
    split
    · exact ⟨_, hchain⟩
    · exact ⟨_, rfl⟩
  · refine ⟨by simp [inputSegments], fun stream segment hmem hskipped => ?_⟩
    rw [outputSegments] at hmem
    split at hmem
    · rw [List.mem_singleton.1 hmem] at hskipped
      cases hskipped
    · cases hmem
  · intro stream segment hmem _
    refine ⟨?_, hempty stream, ?_⟩ <;> rw [outputSegments] at hmem <;> split at hmem
    · rename_i hstream
      rw [List.mem_singleton.1 hmem, outputSegments, if_pos hstream]
    · cases hmem
    · rw [List.mem_singleton.1 hmem]
      exact hattached
    · cases hmem
  · exact (List.append_nil _).symm ▸ h.input
  · intro _ stream hcarries
    -- a terminal carries only its own stream
    obtain rfl : stream = .pty := by
      cases stream <;> simp_all [RuntimeProcessState.carries]
    rw [hempty, List.nil_append, outputSegments, if_pos rfl]
    exact havailable ▸ hchain

/-- **A message about a process keeps what it knows of its history.** -/
theorem ProcessInv.step (h : ProcessInv log process)
    (hstep : ProcessStep process m process' ended) : ProcessInv (log ++ [m]) process' := by
  rcases hstep with hmove | hmove <;> cases hmove
  case server.output _ hgap hcarries hnext hadd =>
    subst hnext
    exact h.output_step hgap hcarries hadd
  case server.outputGap hgap => exact h.outputGap_step hgap
  case client.input _ _ hsent hadd =>
    subst hsent
    exact h.input_step hadd
  case client.closeInput =>
    exact h.noBytes ⟨by simp, rfl, rfl, fun _ => rfl⟩ (by simp [outputStream]) rfl rfl
      (fun stream => by cases stream <;> rfl) ⟨rfl, .inr rfl⟩ h.inputAcked h.acked
  case server.inputAck hle =>
    exact h.noBytes ⟨by simp, rfl, rfl, fun _ => rfl⟩ (by simp [outputStream]) rfl rfl
      (fun stream => by cases stream <;> rfl) ⟨rfl, .inr rfl⟩ hle h.acked
  case client.outputAck hgap hcarries _ hle =>
    refine h.noBytes ⟨by simp, rfl, rfl, fun _ => rfl⟩ ?_ (by simp)
      (by simp) ?_ ⟨by simp, .inl hgap⟩
      (by simpa using h.inputAcked) ?_
    · rintro other hother
      cases hother
      exact hcarries
    · intro other
      rw [RuntimeProcessState.offsets_setOffsets]
      split
      case isTrue hsame => rw [hsame]
      case isFalse => rfl
    · intro other
      have hbefore := h.acked other
      rw [RuntimeProcessState.offsets_setOffsets]
      split
      case isTrue => exact hle
      case isFalse => exact hbefore
  all_goals
    exact h.noBytes ⟨by simp, rfl, rfl, fun _ => rfl⟩ (by simp [outputStream]) rfl rfl
      (fun _ => rfl) ⟨rfl, .inr rfl⟩ h.inputAcked h.acked

/-- A process that has just been started or attached. -/
theorem Idle.processInv (h : Idle log) (hnegotiated : Negotiated log process.capability)
    (hsent : process.inputSent = 0) (hinputAcked : process.inputAcked = 0)
    (hacked : ∀ stream, (process.offsets stream).acked = (process.offsets stream).next)
    (houtput : process.gapPending = none → ∀ stream, process.carries stream = true →
      (origin log).getD 0 = (process.offsets stream).next)
    (hgap : ∀ requested available, process.gapPending = some (requested, available) →
      process.pty = true ∧ origin log = some requested ∧ process.ptyOutput.next = available ∧
        ∃ requestId processId sessionId, .ptyAttached requestId processId sessionId available ∈
          log) :
    ProcessInv log process where
  history := h.history
  negotiated := hnegotiated
  inputAcked := Nat.le_of_eq (hinputAcked.trans hsent.symm)
  acked stream := Nat.le_of_eq (hacked stream)
  input := by
    rw [h.input, hsent]
    rfl
  output hnone stream hcarries := by
    rw [h.output]
    exact houtput hnone stream hcarries
  gap requested available hsome := by
    obtain ⟨hpty, hfrom, havailable, hattached⟩ := hgap requested available hsome
    exact ⟨hpty, hfrom, havailable, h.output, hattached⟩

/-- The gap of an attachment lies between the offset that was asked for and the one that was
answered. -/
theorem replayGap_cases {replayFrom : Option ℕ} {offset : ℕ} {gap : Option (ℕ × ℕ)}
    (h : replayGap replayFrom offset = .ok gap) :
    gap = none ∧ (replayFrom = none ∨ replayFrom = some offset) ∨
      ∃ requested, replayFrom = some requested ∧ gap = some (requested, offset) := by
  cases replayFrom with
  | none =>
    cases h
    exact .inl ⟨rfl, .inl rfl⟩
  | some requested =>
    simp only [replayGap] at h
    split at h
    case isTrue => cases h
    case isFalse hnlt =>
      split at h
      case isTrue =>
        cases h
        exact .inr ⟨requested, rfl, rfl⟩
      case isFalse hngt =>
        cases h
        have heq : requested = offset := by omega
        exact .inl ⟨rfl, .inr (by rw [heq])⟩

variable {phase : RuntimePhase}

/-- Before a connection is closed, it is idle or it has a process. -/
theorem PhaseInv.idle_or_process (h : PhaseInv log phase) (hlive : phase ≠ .closed) :
    Idle log ∨ ∃ process, ProcessInv log process := by
  cases phase with
  | awaitClientHello | awaitServerHello _ | ready _ | awaitProcessStarted _ _ _
  | awaitPtyAttached _ _ _
  | watching _ | awaitWatchStopped _ => exact .inl h.1
  | running process | awaitDetached process => exact .inr ⟨process, h⟩
  | awaitWatchStarted _ _ => exact .inl h
  | closed => exact absurd rfl hlive

theorem PhaseInv.history (h : PhaseInv log phase) : History log := by
  by_cases hclosed : phase = .closed
  · rw [hclosed] at h
    exact h
  · rcases h.idle_or_process hclosed with hidle | ⟨_, hprocess⟩
    · exact hidle.history
    · exact hprocess.history

variable {watch watch' : RuntimeWatchState}

theorem WatchStep.idle (hstep : WatchStep watch m watch') (h : Idle log) : Idle (log ++ [m]) := by
  cases hstep <;> exact h.concat rfl (fun _ => rfl) rfl

theorem WatchStep.acked_le (hstep : WatchStep watch m watch')
    (h : watch.ackedSequence ≤ watch.nextSequence) :
    watch'.ackedSequence ≤ watch'.nextSequence := by
  cases hstep with
  | watchAck hle => exact hle
  | watchEvents hadd => exact Nat.le_trans h (le_of_checkedAdd hadd)
  | resumed => exact h
  | watchOverflow hlt => exact Nat.le_trans h (Nat.le_of_lt hlt)

theorem ProcessInv.afterClient (h : ProcessInv log process) (a : RuntimeMessage) :
    PhaseInv log (afterClient a process) := by
  unfold Runtime.afterClient
  split <;> exact h

/-- **One accepted message.** -/
theorem PhaseInv.step {phase' : RuntimePhase} (h : PhaseInv log phase)
    (hstep : Transition phase m phase') : PhaseInv (log ++ [m]) phase' := by
  cases hstep with
  | failed hlive =>
    rcases h.idle_or_process hlive with hidle | ⟨process, hprocess⟩
    · exact (hidle.concat rfl (fun _ => rfl) rfl).history
    · exact hprocess.history.concat hprocess.negotiated
        (hprocess.extends_noBytes ⟨by simp, rfl, rfl, fun _ => rfl⟩ (by simp [outputStream]))
  | clientHello =>
    obtain ⟨hidle, horigin, hnone⟩ := h
    refine ⟨hidle.concat rfl (fun _ => rfl) rfl, ?_, by simpa using hnone⟩
    rw [origin_concat, horigin]
    rfl
  | serverHello =>
    obtain ⟨hidle, horigin, hnone⟩ := h
    refine ⟨hidle.concat rfl (fun _ => rfl) rfl, by rw [origin_concat, horigin]; rfl,
      ⟨_, _, List.mem_append_right _ List.mem_cons_self⟩, fun version protocol other hother => ?_⟩
    rcases List.mem_append.1 hother with hother | hother
    · exact absurd hother (hnone _ _ _)
    · cases List.mem_singleton.1 hother
      rfl
  | startProcess hcapability =>
    obtain ⟨hidle, horigin, hnegotiated⟩ := h
    exact ⟨hidle.concat rfl (fun _ => rfl) rfl, by rw [origin_concat, horigin]; rfl,
      hnegotiated.concat (by simp), hcapability⟩
  | attachPty =>
    obtain ⟨hidle, horigin, hnegotiated⟩ := h
    exact ⟨hidle.concat rfl (fun _ => rfl) rfl, by rw [origin_concat, horigin]; rfl,
      hnegotiated.concat (by simp)⟩
  | watchStart => exact h.1.concat rfl (fun _ => rfl) rfl
  | startedPipe | startedPty =>
    obtain ⟨hidle, horigin, hnegotiated, -⟩ := h
    refine (hidle.concat rfl (fun _ => rfl) rfl).processInv (hnegotiated.concat (by simp)) rfl rfl
      (fun stream => by cases stream <;> rfl) (fun _ stream _ => ?_) (fun _ _ hgap => nomatch hgap)
    rw [origin_concat, horigin]
    cases stream <;> rfl
  | @attached id processId offset sessionId _ _ hgapOf =>
    obtain ⟨hidle, horigin, hnegotiated⟩ := h
    refine (hidle.concat rfl (fun _ => rfl) rfl).processInv (hnegotiated.concat (by simp)) rfl rfl
      (fun stream => by cases stream <;> rfl) ?_ ?_
    · intro hnone stream hcarries
      obtain rfl : stream = .pty := by
        cases stream <;> first | rfl | cases hcarries
      rw [origin_concat, horigin]
      rcases replayGap_cases hgapOf with ⟨-, rfl | rfl⟩ | ⟨requested, -, rfl⟩
      · rfl
      · rfl
      · cases hnone
    · intro requested available hsome
      rcases replayGap_cases hgapOf with ⟨rfl, -⟩ | ⟨requested, rfl, rfl⟩
      · cases hsome
      · cases hsome
        refine ⟨rfl, by rw [origin_concat, horigin]; rfl, rfl, id, processId, sessionId, ?_⟩
        exact List.mem_append_right _ List.mem_cons_self
  | @running _ process' m ended hstep =>
    have hprocess := ProcessInv.step h hstep
    cases ended with
    | true => exact hprocess.history
    | false => exact hprocess.afterClient m
  | @detaching _ process' m ended hstep =>
    have hprocess := ProcessInv.step h hstep
    cases ended with
    | true => exact hprocess.history
    | false => exact hprocess
  | detached =>
    have hprocess : ProcessInv log _ := h
    exact hprocess.history.concat hprocess.negotiated
      (hprocess.extends_noBytes ⟨by simp, rfl, rfl, fun _ => rfl⟩ (by simp [outputStream]))
  | watchStarted => exact ⟨Idle.concat h rfl (fun _ => rfl) rfl, Nat.le_refl _⟩
  | watching hstep | stopping hstep => exact ⟨hstep.idle h.1, hstep.acked_le h.2⟩
  | watchStop => exact ⟨h.1.concat rfl (fun _ => rfl) rfl, h.2⟩
  | watchStopped => exact (h.1.concat rfl (fun _ => rfl) rfl).history

theorem PhaseInv.ackedWithinSent (h : PhaseInv log phase) : phase.AckedWithinSent := by
  cases phase with
  | running process | awaitDetached process => exact ⟨ProcessInv.inputAcked h, ProcessInv.acked h⟩
  | watching watch | awaitWatchStopped watch => exact h.2
  | _ => trivial

end Invariant

/-! ### Offsets are values of `u64` -/

theorem ProcessStep.fits (hstep : ProcessStep process m process' ended)
    (h : process.inputSent < 2 ^ 64 ∧ ∀ stream, (process.offsets stream).next < 2 ^ 64) :
    process'.inputSent < 2 ^ 64 ∧ ∀ stream, (process'.offsets stream).next < 2 ^ 64 := by
  rcases hstep with hmove | hmove <;> cases hmove
  case client.input hadd => exact ⟨(eq_of_checkedAdd hadd).2, h.2⟩
  case server.output hadd =>
    refine ⟨by simpa using h.1, fun other => ?_⟩
    rw [RuntimeProcessState.offsets_setOffsets]
    split
    · exact (eq_of_checkedAdd hadd).2
    · exact h.2 other
  case client.outputAck =>
    refine ⟨by simpa using h.1, fun other => ?_⟩
    rw [RuntimeProcessState.offsets_setOffsets]
    split <;> exact h.2 _
  all_goals exact h

theorem WatchStep.fits (hm : m.Fits) (hstep : WatchStep watch m watch')
    (h : watch.nextSequence < 2 ^ 64) : watch'.nextSequence < 2 ^ 64 := by
  cases hstep with
  | watchEvents hadd => exact (eq_of_checkedAdd hadd).2
  | watchOverflow => exact hm
  | _ => exact h

theorem Transition.fits (hm : m.Fits) (hstep : Transition phase m phase') (h : phase.Fits) :
    phase'.Fits := by
  cases hstep with
  | startedPipe | startedPty =>
    refine ⟨Nat.two_pow_pos 64, fun stream => ?_⟩
    cases stream <;> exact Nat.two_pow_pos 64
  | attached =>
    refine ⟨Nat.two_pow_pos 64, fun stream => ?_⟩
    cases stream with
    | pty => exact hm
    | _ => exact Nat.two_pow_pos 64
  | @running _ process' m ended hstep =>
    cases ended with
    | true => trivial
    | false =>
      show (afterClient m process').Fits
      unfold afterClient
      split <;> exact hstep.fits h
  | @detaching _ process' m ended hstep =>
    cases ended with
    | true => trivial
    | false => exact hstep.fits h
  | watchStarted => exact hm
  | watching hstep | stopping hstep => exact hstep.fits hm h
  | watchStop => exact h
  | _ => trivial

/-! ### Runs -/

namespace RuntimeStateMachine

variable {machine : RuntimeStateMachine} {log : List RuntimeMessage}

/-- What an offer does: the message is accepted by a transition, or nothing happens. -/
theorem offer_cases (machine : RuntimeStateMachine) (direction : RuntimeDirection)
    (m : RuntimeMessage) :
    (∃ phase, machine.offer direction m = ({ machine with phase }, .ok ()) ∧
      Transition machine.phase m phase) ∨
      ∃ error, machine.offer direction m = (machine, .error error) := by
  unfold offer
  cases hobserve : machine.observe direction m with
  | error error => exact .inr ⟨error, rfl⟩
  | ok machine' =>
    obtain ⟨hvalid, -, phase, hphase, rfl⟩ := observe_eq_ok.1 hobserve
    exact .inl ⟨phase, rfl, transition_of_ok hvalid hphase⟩

/-- What every accepted message keeps holds along every run. -/
theorem run_preserves {P : List RuntimeMessage → RuntimePhase → Prop}
    (offers : List (RuntimeDirection × RuntimeMessage))
    (hstep : ∀ offer ∈ offers, ∀ {log phase phase'}, P log phase → Transition phase offer.2 phase' →
      P (log ++ [offer.2]) phase') :
    ∀ {machine : RuntimeStateMachine} {log : List RuntimeMessage}, P log machine.phase →
      P (machine.run log offers).2 (machine.run log offers).1.phase := by
  induction offers with
  | nil => exact fun h => h
  | cons offer offers ih =>
    intro machine log h
    have hrest := fun offer hmem => @hstep offer (List.mem_cons_of_mem _ hmem)
    rw [run]
    rcases machine.offer_cases offer.1 offer.2 with ⟨phase, hoffer, htransition⟩ | ⟨error, hoffer⟩
    · rw [hoffer]
      exact ih hrest (hstep offer List.mem_cons_self h htransition)
    · rw [hoffer]
      exact ih hrest h

end RuntimeStateMachine

/-! ### The branch that is never taken -/

section Unreachable

variable {process : RuntimeProcessState} {m : RuntimeMessage}

theorem streamMut_ne_unreachable (stream : RuntimeOutputStream) :
    process.streamMut stream ≠ .error .unreachable := by
  unfold RuntimeProcessState.streamMut
  split <;> simp

theorem applyScalarAck_ne_unreachable (channel : String) (sent previous actual : ℕ) :
    applyScalarAck channel sent previous actual ≠ .error .unreachable := by
  simp [applyScalarAck, bind_eq_error, rejectIf_eq_error]

theorem applyRunningServerMessage_ne_unreachable :
    applyRunningServerMessage process m ≠ .error .unreachable := by
  cases m <;> simp [applyRunningServerMessage, bind_eq_error, rejectIf_eq_error, okOr_eq_error,
    expectProcessId,
    expectOffset, streamMut_ne_unreachable, applyScalarAck_ne_unreachable]

theorem applyRunningMessage_ne_unreachable :
    applyRunningMessage process m ≠ .error .unreachable := by
  cases m <;> simp [applyRunningMessage, applyRunningServerMessage_ne_unreachable, bind_eq_error,
    rejectIf_eq_error, okOr_eq_error, expectProcessId, expectOffset, streamMut_ne_unreachable,
    applyScalarAck_ne_unreachable, applyAck]

theorem applyWatchMessage_ne_unreachable {watch : RuntimeWatchState} :
    applyWatchMessage watch m ≠ .error .unreachable := by
  cases m <;> simp [applyWatchMessage, applyWatchServerMessage, bind_eq_error, rejectIf_eq_error,
    okOr_eq_error,
    expectWatchId, expectOffset, applyScalarAck_ne_unreachable]
  split <;> simp [bind_eq_error, rejectIf_eq_error]

theorem startedProcess_ne_unreachable {capability : RuntimeCapability}
    {persistence : RuntimePersistence}
    {processId offset : ℕ} {session : Option PtySessionCredentials}
    (h : capability ≠ .workspaceWatchV1) :
    startedProcess capability persistence processId session offset ≠ .error .unreachable := by
  unfold startedProcess
  split <;> try split
  all_goals simp_all

theorem replayGap_ne_unreachable (replayFrom : Option ℕ) (offset : ℕ) :
    replayGap replayFrom offset ≠ .error .unreachable := by
  unfold replayGap
  split
  · split <;> try split
    all_goals simp
  · simp

/-- Processes are only started for capabilities that have some. -/
theorem PhaseInv.ne_unreachable {supported : CapabilitySet} {log : List RuntimeMessage}
    {phase : RuntimePhase}
    (h : PhaseInv log phase) : applyMessage supported phase m ≠ .error .unreachable := by
  cases phase with
  | awaitProcessStarted capability id persistence =>
    have hprocess : ∀ processId session offset,
        startedProcess capability persistence processId session offset ≠ .error .unreachable :=
      fun _ _ _ => startedProcess_ne_unreachable h.2.2.2
    cases m <;> simp [applyMessage, bind_eq_error, rejectIf_eq_error, expectRequestId, hprocess]
  | running process =>
    cases m <;> simp [applyMessage, bind_eq_error, applyRunningMessage_ne_unreachable]
  | awaitDetached process =>
    cases m <;> simp [applyMessage, bind_eq_error, rejectIf_eq_error, expectProcessId,
      applyRunningMessage_ne_unreachable, applyRunningServerMessage_ne_unreachable]
  | watching watch | awaitWatchStopped watch =>
    cases m <;> simp [applyMessage, bind_eq_error, rejectIf_eq_error, expectWatchId,
      applyWatchMessage_ne_unreachable]
  | ready capability =>
    cases capability <;> cases m <;> simp [applyMessage, bind_eq_error, rejectIf_eq_error,
      validateSpecForCapability]
  | awaitPtyAttached id sessionId replayFrom =>
    cases m <;> simp [applyMessage, bind_eq_error, rejectIf_eq_error, expectRequestId,
      replayGap_ne_unreachable]
  | awaitWatchStarted id resumeFrom =>
    cases resumeFrom <;> cases m <;> simp [applyMessage, bind_eq_error, rejectIf_eq_error,
      expectRequestId]
  | _ =>
    cases m <;> simp [applyMessage, bind_eq_error, rejectIf_eq_error, validateProtocolAndCapability]

end Unreachable

/-! ### Safety -/

theorem offer_error_ne_unreachable {machine : RuntimeStateMachine} {log : List RuntimeMessage}
    (h : PhaseInv log machine.phase) (direction : RuntimeDirection) (m : RuntimeMessage) :
    (machine.offer direction m).2 ≠ .error .unreachable := by
  have hobserve : machine.observe direction m ≠ .error .unreachable := by
    unfold RuntimeStateMachine.observe
    cases hvalid : m.validate with
    | error error => simp [Except.mapError]
    | ok => simp [Except.mapError, bind_eq_error, rejectIf_eq_error, h.ne_unreachable]
  unfold RuntimeStateMachine.offer
  cases hresult : machine.observe direction m with
  | ok machine' => simp
  | error error =>
    rintro heq
    cases heq
    exact hobserve hresult

/-- **Runtime machines are safe.** After any offers, no more is acknowledged than was sent; the data
that was accepted is contiguous on each stream, on streams of the capability that was agreed on;
offsets do not wrap, and they are values of `u64` if those taken from messages are; a closed machine
accepts nothing; a machine that rejects a message stays as it is; and the branch that is marked as
unreachable is never taken. -/
theorem runtime_machine_safe (role : RuntimePeerRole) (supported : CapabilitySet)
    (offers : List (RuntimeDirection × RuntimeMessage)) :
    let machine := ((RuntimeStateMachine.new role supported).run [] offers).1
    let accepted := ((RuntimeStateMachine.new role supported).run [] offers).2
    machine.phase.AckedWithinSent ∧ Contiguous accepted ∧ StreamsByCapability accepted ∧
      NoWrap accepted ∧
      ((∀ offer ∈ offers, offer.2.Fits) → machine.phase.Fits) ∧
      (machine.isClosed = true → ∀ direction m, ∃ error, (machine.offer direction m).2 =
        .error error) ∧
      ∀ direction m error, (machine.offer direction m).2 = .error error →
        (machine.offer direction m).1 = machine ∧ error ≠ .unreachable := by
  intro machine accepted
  have hinv : PhaseInv accepted machine.phase := by
    refine RuntimeStateMachine.run_preserves offers (fun _ _ _ _ _ => PhaseInv.step) ?_
    exact ⟨⟨rfl, fun _ => rfl, by simp⟩, rfl, by simp⟩
  refine ⟨hinv.ackedWithinSent, hinv.history.contiguous, hinv.history.streams,
    hinv.history.noWrap, ?_, ?_, ?_⟩
  · exact fun hoffers => RuntimeStateMachine.run_preserves (P := fun _ => RuntimePhase.Fits) offers
      (fun offer hmem _ _ _ h hstep => hstep.fits (hoffers offer hmem) h) trivial
  · intro hclosed direction m
    have hphase : machine.phase = .closed := by simpa [RuntimeStateMachine.isClosed] using hclosed
    rcases machine.offer_cases direction m with ⟨phase, -, hstep⟩ | ⟨error, hoffer⟩
    · rw [hphase] at hstep
      cases hstep with
      | failed hlive => exact absurd rfl hlive
    · exact ⟨error, by rw [hoffer]⟩
  · intro direction m error herror
    have hne := offer_error_ne_unreachable hinv direction m
    rcases machine.offer_cases direction m with ⟨phase, hoffer, -⟩ | ⟨error', hoffer⟩
    · rw [hoffer] at herror
      cases herror
    · refine ⟨by rw [hoffer], ?_⟩
      rintro rfl
      exact hne herror

end RemoteMirror.Runtime
