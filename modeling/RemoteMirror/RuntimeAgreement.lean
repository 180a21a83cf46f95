/-
**Client and server of a runtime connection agree.**

Two runtime machines, one in each role, are joined by a first-in-first-out channel in each
direction.  A party sends a message only if its own machine accepts it as outbound; the oldest
message of a channel is delivered to the other machine, which accepts it or rejects it and stays as
it is.  Messages of the two directions cross freely.

If the server supports what the client supports, the client accepts every message delivered to it,
and the server accepts a delivered message exactly as long as it is not closed.  The closed server
is no accident: it has sent `Exited`, `Detached`, `WatchStopped` or `Error`, and what the client
still had on its way is turned away.

Main definitions:

* `Runtime.Duplex` — the two machines and the messages in flight;
* `Runtime.Duplex.step` — sending and delivery;
* `Runtime.Duplex.abs` — the configuration of `Crossing` a connection refines.

Main results:

* `Runtime.Duplex.Inv.step` — each step is one of `Crossing.Step`;
* `Runtime.Duplex.delivery_accepted` — **who accepts what, in every interleaving**;
* `Runtime.Duplex.input_crossing_exited_rejected` — input that crosses the exit of its
  process reaches a closed server.
-/

import RemoteMirror.RuntimeSquares

namespace RemoteMirror.Runtime

open Checks

/-! ### What depends on the capabilities -/

/-- Every runtime capability of `other` is one of `supported`. -/
def CapabilitySet.Includes (supported other : CapabilitySet) : Prop :=
  ∀ capability, other.supportsRuntime capability = true →
    supported.supportsRuntime capability = true

section Capabilities

variable {s s' : CapabilitySet} {p q : RuntimePhase} {m : RuntimeMessage}

theorem validateProtocolAndCapability_eq_ok {version : String} {protocol : ℕ}
    {capability : RuntimeCapability} {u : Unit} :
    validateProtocolAndCapability s version protocol capability = .ok u ↔
      version = packageVersion ∧ protocol = protocolVersion ∧
        s.supportsRuntime capability = true := by
  simp [validateProtocolAndCapability]

/-- A transition uses its capabilities only to negotiate. -/
theorem applyMessage_of_supports (h : applyMessage s p m = .ok q)
    (hs : ∀ c, q = .awaitServerHello c ∨ p = .awaitServerHello c →
      s.supportsRuntime c = true → s'.supportsRuntime c = true) : applyMessage s' p m = .ok q := by
  cases p with
  | awaitClientHello =>
    cases m with
    | clientHello version protocol capability =>
      simp only [applyMessage, unit_bind_eq_ok, validateProtocolAndCapability_eq_ok,
        pure_eq_ok, Except.ok.injEq] at h ⊢
      obtain ⟨⟨hv, hp, hc⟩, rfl⟩ := h
      exact ⟨⟨hv, hp, hs capability (.inl rfl) hc⟩, rfl⟩
    | _ => exact h
  | awaitServerHello c =>
    cases m with
    | serverHello version protocol capability =>
      simp only [applyMessage, unit_bind_eq_ok, validateProtocolAndCapability_eq_ok,
        rejectIf_eq_ok, bne_eq_false_iff_eq, pure_eq_ok, Except.ok.injEq] at h ⊢
      obtain ⟨⟨hv, hp, hc⟩, rfl, rfl⟩ := h
      exact ⟨⟨hv, hp, hs capability (.inr rfl) hc⟩, rfl, rfl⟩
    | _ => exact h
  | _ => cases m <;> exact h

/-- Only a hello of the client, with a supported capability, leads to waiting for the hello of the
server. -/
theorem of_applyMessage_awaitServerHello {c : RuntimeCapability}
    (h : applyMessage s p m = .ok (.awaitServerHello c)) : m.sender = .client ∧
      s.supportsRuntime c = true := by
  by_cases herr : ∃ e, m = .error e
  · obtain ⟨e, rfl⟩ := herr
    cases p <;> simp [applyMessage] at h
  have he : ∀ e, m ≠ .error e := fun e hm => herr ⟨e, hm⟩
  cases p with
  | awaitClientHello =>
    cases m with
    | clientHello version protocol capability =>
      simp only [applyMessage, unit_bind_eq_ok, validateProtocolAndCapability_eq_ok,
        pure_eq_ok, Except.ok.injEq, RuntimePhase.awaitServerHello.injEq] at h
      obtain ⟨⟨-, -, hc⟩, rfl⟩ := h
      exact ⟨rfl, hc⟩
    | _ => simp [applyMessage] at h
  | running process =>
    rw [applyMessage_running he, bind_eq_ok] at h
    obtain ⟨⟨process', ended⟩, -, hq⟩ := h
    cases m <;> cases ended <;> simp [unlessEnded, afterClient] at hq
  | awaitDetached process =>
    cases m with
    | outputAck id stream n =>
      rw [applyMessage_awaitDetached_outputAck, bind_eq_ok] at h
      obtain ⟨⟨process', ended⟩, -, hq⟩ := h
      cases ended <;> simp [unlessEnded] at hq
    | detached id session => simp [applyMessage] at h
    | _ =>
      rw [applyMessage_awaitDetached he (by simp) (by simp), bind_eq_ok] at h
      obtain ⟨⟨process', ended⟩, -, hq⟩ := h
      cases ended <;> simp [unlessEnded] at hq
  | ready capability => cases capability <;> cases m <;> simp [applyMessage] at h
  | watching watch | awaitWatchStopped watch | awaitProcessStarted _ _ _ | awaitPtyAttached _ _ _ =>
    cases m <;> simp [applyMessage, bind_eq_ok] at h
  | awaitServerHello _ => cases m <;> simp [applyMessage] at h
  | awaitWatchStarted _ resumeFrom =>
    cases resumeFrom <;> cases m <;> simp [applyMessage] at h
  | closed => exact absurd h applyMessage_closed

end Capabilities

/-! ### Two machines and two channels -/

/-- The two ends of a connection and the messages in flight in each direction, oldest first. -/
structure Duplex where
  client : RuntimeStateMachine
  server : RuntimeStateMachine
  toServer : List RuntimeMessage
  toClient : List RuntimeMessage
  deriving DecidableEq, Repr

/-- A send by one of the parties, or the delivery of the oldest message of a channel. -/
inductive Event
  | clientSend (message : RuntimeMessage)
  | serverSend (message : RuntimeMessage)
  | toServer
  | toClient
  deriving DecidableEq, Repr

namespace Duplex

/-- A new connection. -/
def start (clientSet serverSet : CapabilitySet) : Duplex :=
  ⟨.new .client clientSet, .new .server serverSet, [], []⟩

/-- One step; `none` if the event is not possible. -/
def step (d : Duplex) : Event → Option Duplex
  | .clientSend message =>
    match d.client.observeOutbound message with
    | .ok client => some { d with client, toServer := d.toServer ++ [message] }
    | .error _ => none
  | .serverSend message =>
    match d.server.observeOutbound message with
    | .ok server => some { d with server, toClient := d.toClient ++ [message] }
    | .error _ => none
  | .toServer =>
    match d.toServer with
    | [] => none
    | message :: toServer =>
      match d.server.observeInbound message with
      | .ok server => some { d with server, toServer }
      | .error _ => some { d with toServer }
  | .toClient =>
    match d.toClient with
    | [] => none
    | message :: toClient =>
      match d.client.observeInbound message with
      | .ok client => some { d with client, toClient }
      | .error _ => some { d with toClient }

/-- The phases and the messages in flight. -/
def abs (d : Duplex) : Crossing.Config RuntimePhase RuntimeMessage :=
  ⟨d.client.phase, d.server.phase, d.toServer, d.toClient⟩

/-- What holds of a connection at every moment. -/
structure Inv (clientSet serverSet : CapabilitySet) (d : Duplex) : Prop where
  client : d.client = ⟨.client, clientSet, d.client.phase⟩
  server : d.server = ⟨.server, serverSet, d.server.phase⟩
  fromClient : ∀ m ∈ d.toServer, m.sender = .client
  fromServer : ∀ m ∈ d.toClient, m.sender = .server
  negotiated : ∀ c, d.client.phase = .awaitServerHello c → clientSet.supportsRuntime c = true
  coherent : Crossing.Coherent (accept serverSet) (fun m => m.sender = .client)
    (fun m => m.sender = .server) d.abs

section Steps

variable {clientSet serverSet : CapabilitySet} {d d' : Duplex} {m : RuntimeMessage}

theorem Inv.start : Inv clientSet serverSet (start clientSet serverSet) where
  client := rfl
  server := rfl
  fromClient := by simp [Duplex.start]
  fromServer := by simp [Duplex.start]
  negotiated := by simp [Duplex.start, RuntimeStateMachine.new]
  coherent := Crossing.Coherent.start _

variable {direction : RuntimeDirection}

/-- What the client accepts is acceptable to the server's set of capabilities. -/
theorem Inv.accept_of_client (hi : Inv clientSet serverSet d) (hset : serverSet.Includes clientSet)
    {client : RuntimeStateMachine} (h : d.client.observe direction m = .ok client) :
    accept serverSet d.client.phase m = some client.phase ∧
      client = ⟨.client, clientSet, client.phase⟩ ∧
      ∀ c, client.phase = .awaitServerHello c → clientSet.supportsRuntime c = true := by
  rw [hi.client] at h
  obtain ⟨hv, -, phase, hp, rfl⟩ := RuntimeStateMachine.observe_eq_ok.1 h
  refine ⟨accept_eq_some.2 ⟨hv, applyMessage_of_supports hp fun c _ => hset c⟩, rfl, ?_⟩
  rintro c rfl
  exact (of_applyMessage_awaitServerHello hp).2

/-- What the server's set of capabilities makes acceptable is accepted by the client. -/
theorem Inv.client_observe (hi : Inv clientSet serverSet d) (hm : m.sender = .server)
    {p : RuntimePhase} (h : accept serverSet d.client.phase m = some p) :
    ∃ client, d.client.observeInbound m = .ok client := by
  obtain ⟨hv, hp⟩ := accept_eq_some.1 h
  have hp' : applyMessage clientSet d.client.phase m = .ok p := by
    refine applyMessage_of_supports hp fun c hc _ => ?_
    rcases hc with rfl | hc
    · rw [(of_applyMessage_awaitServerHello hp).1] at hm
      cases hm
    · exact hi.negotiated c hc
  rw [hi.client]
  exact ⟨_, RuntimeStateMachine.observe_eq_ok.2 ⟨hv, hm, p, hp', rfl⟩⟩

/-- What the server accepts, as a step of `accept`. -/
theorem Inv.accept_of_server (hi : Inv clientSet serverSet d) {server : RuntimeStateMachine}
    (h : d.server.observe direction m = .ok server) : accept serverSet d.server.phase m =
      some server.phase ∧ server = ⟨.server, serverSet, server.phase⟩ := by
  rw [hi.server] at h
  obtain ⟨hv, -, phase, hp, rfl⟩ := RuntimeStateMachine.observe_eq_ok.1 h
  exact ⟨accept_eq_some.2 ⟨hv, hp⟩, rfl⟩

/-- A message of the client that the server rejects has no transition. -/
theorem Inv.accept_of_rejected (hi : Inv clientSet serverSet d) (hm : m.sender = .client)
    {e : RuntimeStateError} (h : d.server.observeInbound m = .error e) :
    accept serverSet d.server.phase m = none := by
  cases hacc : accept serverSet d.server.phase m with
  | none => rfl
  | some p =>
    obtain ⟨hv, hp⟩ := accept_eq_some.1 hacc
    have hok : d.server.observeInbound m = .ok { d.server with phase := p } := by
      rw [hi.server]
      exact RuntimeStateMachine.observe_eq_ok.2 ⟨hv, hm, p, hp, rfl⟩
    rw [hok] at h
    cases h

/-- **The client accepts what is delivered to it.** -/
theorem Inv.client_accepts (hi : Inv clientSet serverSet d) {rest : List RuntimeMessage}
    (hm : d.toClient = m :: rest) : ∃ client, d.client.observeInbound m = .ok client := by
  obtain ⟨p, hp⟩ := hi.coherent.left_accepts (diamond serverSet) hm
  exact hi.client_observe (hi.fromServer m (by simp [hm])) hp

theorem mem_concat {ms : List RuntimeMessage} {role : RuntimePeerRole}
    (h : ∀ m ∈ ms, m.sender = role) (hm : m.sender = role) :
    ∀ m' ∈ ms ++ [m], m'.sender = role := by
  intro m' hm'
  rcases List.mem_append.1 hm' with hm' | hm'
  · exact h m' hm'
  · exact List.mem_singleton.1 hm' ▸ hm

/-- Each step of a connection is a step of the two crossing machines. -/
theorem Inv.step (hset : serverSet.Includes clientSet) (hi : Inv clientSet serverSet d) {e : Event}
    (h : d.step e = some d') : Inv clientSet serverSet d' := by
  have hd := diamond serverSet
  cases e with
  | clientSend message =>
    cases ho : d.client.observeOutbound message with
    | error e => simp [Duplex.step, ho] at h
    | ok client =>
      obtain rfl : _ = d' := by simpa [Duplex.step, ho] using h
      obtain ⟨hacc, hclient, hneg⟩ := hi.accept_of_client hset ho
      have hsender : message.sender = .client := by
        have ho' := (RuntimeStateMachine.observe_eq_ok.1 ho).2.1
        rwa [hi.client] at ho'
      exact ⟨hclient, hi.server, mem_concat hi.fromClient hsender, hi.fromServer, hneg,
        hi.coherent.preserved hd (Crossing.Step.sendLeft hsender hacc)⟩
  | serverSend message =>
    cases ho : d.server.observeOutbound message with
    | error e => simp [Duplex.step, ho] at h
    | ok server =>
      obtain rfl : _ = d' := by simpa [Duplex.step, ho] using h
      obtain ⟨hacc, hserver⟩ := hi.accept_of_server ho
      have hsender : message.sender = .server := by
        have ho' := (RuntimeStateMachine.observe_eq_ok.1 ho).2.1
        rwa [hi.server] at ho'
      exact ⟨hi.client, hserver, hi.fromClient, mem_concat hi.fromServer hsender,
        hi.negotiated, hi.coherent.preserved hd (Crossing.Step.sendRight hsender hacc)⟩
  | toServer =>
    cases hms : d.toServer with
    | nil => simp [Duplex.step, hms] at h
    | cons message rest =>
      have hrest : ∀ m ∈ rest, m.sender = .client :=
        fun m hm => hi.fromClient m (by simp [hms, hm])
      cases ho : d.server.observeInbound message with
      | ok server =>
        obtain rfl : _ = d' := by simpa [Duplex.step, hms, ho] using h
        obtain ⟨hacc, hserver⟩ := hi.accept_of_server ho
        exact ⟨hi.client, hserver, hrest, hi.fromServer, hi.negotiated,
          hi.coherent.preserved hd (Crossing.Step.takeRight hms hacc)⟩
      | error e =>
        obtain rfl : _ = d' := by simpa [Duplex.step, hms, ho] using h
        have hacc : accept serverSet d.server.phase message = none :=
          hi.accept_of_rejected (hi.fromClient message (by simp [hms])) ho
        exact ⟨hi.client, hi.server, hrest, hi.fromServer, hi.negotiated,
          hi.coherent.preserved hd (Crossing.Step.dropRight hms hacc)⟩
  | toClient =>
    cases hms : d.toClient with
    | nil => simp [Duplex.step, hms] at h
    | cons message rest =>
      obtain ⟨client, ho⟩ := hi.client_accepts hms
      obtain rfl : _ = d' := by simpa [Duplex.step, hms, ho] using h
      obtain ⟨hacc, hclient, hneg⟩ := hi.accept_of_client hset ho
      exact ⟨hclient, hi.server, hi.fromClient,
        fun m hm => hi.fromServer m (by simp [hms, hm]), hneg,
        hi.coherent.preserved hd (Crossing.Step.takeLeft hms hacc)⟩

/-- The invariant holds after every run. -/
theorem Inv.runs (hset : serverSet.Includes clientSet) {events : List Event} :
    ∀ {d}, Inv clientSet serverSet d → Crossing.runs Duplex.step d events = some d' →
      Inv clientSet serverSet d' := by
  induction events with
  | nil =>
    intro d hi h
    obtain rfl : d = d' := by simpa using h
    exact hi
  | cons e events ih =>
    intro d hi h
    obtain ⟨d₁, hd₁, hrest⟩ := Crossing.runs_cons_eq_some.1 h
    exact ih (hi.step hset hd₁) hrest

/-- **Agreement.**  In every interleaving of sends and deliveries, the client accepts the message
delivered next, and the server accepts it exactly if it is not closed. -/
theorem delivery_accepted (hset : serverSet.Includes clientSet) {events : List Event}
    (h : Crossing.runs Duplex.step (start clientSet serverSet) events = some d) :
    (∀ m rest, d.toClient = m :: rest → ∃ client, d.client.observeInbound m = .ok client) ∧
      ∀ m rest, d.toServer = m :: rest →
        ((∃ server, d.server.observeInbound m = .ok server) ↔ d.server.isClosed = false) := by
  have hi : Inv clientSet serverSet d := Inv.start.runs hset h
  refine ⟨fun m rest hm => hi.client_accepts hm, fun m rest hm => ?_⟩
  constructor
  · rintro ⟨server, hs⟩
    obtain ⟨-, -, phase, hp, -⟩ := RuntimeStateMachine.observe_eq_ok.1 hs
    rw [RuntimeStateMachine.isClosed, beq_eq_false_iff_ne]
    intro hclosed
    rw [hclosed] at hp
    exact applyMessage_closed hp
  · intro hopen
    rcases hi.coherent.right_accepts (diamond serverSet) hm with hdead | ⟨p, hp⟩
    · have hphase : d.server.phase = .closed := dead_iff.1 hdead
      simp [RuntimeStateMachine.isClosed, hphase] at hopen
    · obtain ⟨hv, hp⟩ := accept_eq_some.1 hp
      rw [hi.server]
      exact ⟨_, RuntimeStateMachine.observe_eq_ok.2
        ⟨hv, hi.fromClient m (by simp [hm]), p, hp, rfl⟩⟩

end Steps

/-! ### Input that crosses the exit of its process -/

/-- A set with every runtime capability. -/
def allSupported : CapabilitySet := ⟨true, true, true⟩

/-- A pipe process is started; then its input crosses its exit. -/
def inputCrossesExit : List Event :=
  [.clientSend (.clientHello packageVersion protocolVersion .processPipeV1), .toServer,
    .serverSend (.serverHello packageVersion protocolVersion .processPipeV1), .toClient,
    .clientSend (.startProcess 7
      ⟨["cat"], .workspaceRoot, ⟨false, [], []⟩, .attached, none, none, none⟩), .toServer,
    .serverSend (.processStarted 7 1 none 0), .toClient,
    .clientSend (.input 1 0 [104, 105]),
    .serverSend (.exited 1 (.code 0) false)]

/-- The connection after `inputCrossesExit`, with both messages in flight. -/
def inputCrossedExit : Duplex where
  client := ⟨.client, allSupported, .running { RuntimeProcessState.newPipe 1 with inputSent := 2 }⟩
  server := ⟨.server, allSupported, .closed⟩
  toServer := [.input 1 0 [104, 105]]
  toClient := [.exited 1 (.code 0) false]

/-- The client accepts the exit that crossed its input. -/
theorem delivery_accepted_inputCrossedExit :
    ∃ client, inputCrossedExit.client.observeInbound (.exited 1 (.code 0) false) = .ok client := by
  have hset : allSupported.Includes allSupported := fun _ h => h
  have hrun : Crossing.runs step (start allSupported allSupported) inputCrossesExit =
      some inputCrossedExit := by decide
  exact (delivery_accepted hset hrun).1 _ _ rfl

/-- The server has closed the connection when the input arrives, and rejects it. -/
theorem input_crossing_exited_rejected :
    Crossing.runs step (start allSupported allSupported) inputCrossesExit =
        some inputCrossedExit ∧
      inputCrossedExit.toServer = [.input 1 0 [104, 105]] ∧
      inputCrossedExit.server.observeInbound (.input 1 0 [104, 105]) =
        .error (.unexpectedMessage "closed" "input") :=
  ⟨by decide, rfl, rfl⟩

end Duplex

end RemoteMirror.Runtime
