/-
**A session of the sidecar: the loop over requests, two lanes and their queues.**

`run_server_session` reads requests line by line.  Some it answers itself; the others become works
in the queue of a lane.  Each lane has a worker that takes one work after the other, executes it and
answers it. Works leave a queue in other ways too: they are cancelled, they give way to an
interactive request, or an update of the agent or the end of the session empties the queue.

A thread is the list of operations it still has to do, the next one first.  An operation is one
access to what the threads share (a queue, a table, a flag, the channel of responses) and yields the
operations that follow from what it found.  What is computed elsewhere (the result of a request,
whether a request can be answered from the mirror, the steps of an update) comes from outside as a
choice.

For statements only, a work has the number of its line, and the session keeps the lines, the
responses, the works that were queued or running when the session ended, and those that were dropped
then.

Main definitions:

* `Lanes.Work`, `Lanes.RemoteQueue` — a queue and what is done to it;
* `Lanes.Op`, `Lanes.exec` — the operations of the threads;
* `Lanes.Server.readLine` — what the loop does with a request;
* `Lanes.Server.step`, `Lanes.Server.run` — the threads together.

Main results:

* `Lanes.Server.step_turn` — what one move does;
* `Lanes.Server.run_preserves` — the rule for invariants.
-/

import RemoteMirror.LaneRequests

namespace RemoteMirror.Lanes

def remoteInteractiveQueueCapacity : ℕ := 128

def remoteBackgroundQueueCapacity : ℕ := 128

/-! ### Queues -/

/-- `RemoteWork`; `serial` is the number of its line -/
structure Work where
  serial : ℕ
  request : ClientRequest
  hazard : PendingHazard
  priority : RemotePriority
  lane : RemoteLane
  writeHazardRegistered : Bool

def Work.blocksLater (work later : Work) : Bool :=
  work.hazard.conflictsWithInterest (RequestInterest.forRequest later.request)

/-- A queue with its `RemoteQueueState`; of the control items only their number matters -/
structure RemoteQueue where
  queue : List Work
  interactiveLen : ℕ
  backgroundLen : ℕ
  closed : Bool
  maintenancePaused : Bool
  inFlight : ℕ
  controls : ℕ
  interactiveCapacity : ℕ
  backgroundCapacity : ℕ

namespace RemoteQueue

def new (interactiveCapacity backgroundCapacity : ℕ) : RemoteQueue :=
  ⟨[], 0, 0, false, false, 0, 0, interactiveCapacity, backgroundCapacity⟩

def decrement (queue : RemoteQueue) : RemotePriority → RemoteQueue
  | .interactive => { queue with interactiveLen := queue.interactiveLen - 1 }
  | .background => { queue with backgroundLen := queue.backgroundLen - 1 }

def remove (queue : RemoteQueue) (index : ℕ) : Option (Work × RemoteQueue) :=
  queue.queue[index]?.map fun work =>
    (work, { queue with queue := queue.queue.eraseIdx index }.decrement work.priority)

def drainBackgroundBlocking (queue : RemoteQueue) (interactiveIndex : ℕ) (work : Work) :
    List Work × RemoteQueue :=
  let interest := RequestInterest.forRequest work.request
  let (drained, kept) := (queue.queue.take interactiveIndex).partition fun earlier =>
    earlier.priority = .background && earlier.hazard.conflictsWithInterest interest
  (drained, { queue with
    queue := kept ++ queue.queue.drop interactiveIndex
    backgroundLen := queue.backgroundLen - drained.length })

/-- `try_push`: the works that give way, or nothing if the queue refuses. -/
def tryPush (queue : RemoteQueue) (work : Work) : Option (List Work × RemoteQueue) :=
  if queue.closed || queue.maintenancePaused then none
  else
    match work.priority with
    | .interactive =>
      if queue.interactiveCapacity ≤ queue.interactiveLen then none
      else
        some (drainBackgroundBlocking { queue with
          interactiveLen := queue.interactiveLen + 1, queue := queue.queue ++ [work] }
          queue.queue.length work)
    | .background =>
      if queue.backgroundCapacity ≤ queue.backgroundLen then none
      else
        some ([], { queue with
          backgroundLen := queue.backgroundLen + 1, queue := queue.queue ++ [work] })

def nextReadyIndex (works : List Work) : Option ℕ :=
  match works.findIdx? fun work => work.priority = .interactive with
  | none => if works.isEmpty then none else some 0
  | some index =>
    works[index]?.map fun interactive =>
      ((works.take index).findIdx? fun work => work.blocksLater interactive).getD index

/-- A work is taken by the worker of the lane. -/
def popWork (queue : RemoteQueue) : Option (Work × RemoteQueue) :=
  if queue.maintenancePaused then none
  else
    (nextReadyIndex queue.queue).bind fun index =>
      { queue with inFlight := queue.inFlight + 1 }.remove index

def drainAll (queue : RemoteQueue) : List Work × RemoteQueue :=
  (queue.queue, { queue with queue := [], interactiveLen := 0, backgroundLen := 0 })

def shutdownAndDrain (queue : RemoteQueue) : List Work × RemoteQueue :=
  drainAll { queue with closed := true }

def beginMaintenanceAndDrain (queue : RemoteQueue) : List Work × RemoteQueue :=
  drainAll { queue with maintenancePaused := true }

def endMaintenance (queue : RemoteQueue) : RemoteQueue := { queue with maintenancePaused := false }

def finishStarted (queue : RemoteQueue) : RemoteQueue :=
  { queue with inFlight := queue.inFlight - 1 }

def closeAndDrainBackground (queue : RemoteQueue) : List Work × RemoteQueue :=
  let (drained, kept) := queue.queue.partition fun work => work.priority = .background
  (drained, { queue with
    closed := true, queue := kept, backgroundLen := 0, interactiveLen := kept.length })

def cancel (queue : RemoteQueue) (requestId : ℕ) : Option (Work × RemoteQueue) :=
  (queue.queue.findIdx? fun work => work.request.id = requestId).bind queue.remove

end RemoteQueue

/-! ### Operations -/

/-- A response, with the number of the line it answers; a line that is no request has none. -/
structure Response where
  serial : Option ℕ
  id : ℕ
  error : Option String

/-- The stages of an update of the agent, once the queues are empty. -/
inductive Stage
  | quiesceRead
  | quiesceWrite
  | resetRead
  | awaitRead
  | resetWrite
  | awaitWrite
  | install

/-- The stage after a stage. -/
def Stage.next : Stage → Option Stage
  | .quiesceRead => some .quiesceWrite
  | .quiesceWrite => some .resetRead
  | .resetRead => some .awaitRead
  | .awaitRead => some .resetWrite
  | .resetWrite => some .awaitWrite
  | .awaitWrite => some .install
  | .install => none

inductive Op
  /-- `send_client_response` -/
  | answer (response : Response)
  /-- a response whose result is computed elsewhere -/
  | reply (serial id : ℕ)
  /-- the two halves of `clear_pending_works` -/
  | clearRemote (works : List Work)
  | clearWrites (works : List Work)
  /-- `shutdown_and_drain`, and then the works are cleared -/
  | shutdownDrain (lane : RemoteLane)
  /-- the loop over requests: -/
  | interrupt (lane : RemoteLane)
  | cancelQueued (lane : RemoteLane) (target serial id : ℕ)
  | beginMaintenance (lane : RemoteLane) (drained : List Work)
  | maintain (stage : Stage)
  | endMaintenance (lane : RemoteLane)
  | route (serial : ℕ) (request : ClientRequest)
  | registerRemote (work : Work)
  | registerWrites (work : Work)
  | push (work : Work)
  | closeBackground (lane : RemoteLane)
  | join (lane : RemoteLane)
  /-- the worker of a lane: -/
  | checkStart (lane : RemoteLane) (work : Work)
  | handle (lane : RemoteLane) (work : Work)
  | checkEnd (lane : RemoteLane)
  | finishStarted (lane : RemoteLane)
  | exit (lane : RemoteLane)

/-- How something computed elsewhere ends. -/
inductive Choice
  | succeeds
  | fails (error : String)

def Choice.error : Choice → Option String
  | .succeeds => none
  | .fails error => some error

structure Shared where
  queues : RemoteLane → RemoteQueue
  pendingRemote : PendingRemote
  pendingWrites : PendingRemote
  shutdownRequested : RemoteLane → Bool
  exited : RemoteLane → Bool
  responses : List Response
  dropped : List Work

namespace Shared

def setQueue (s : Shared) (lane : RemoteLane) (queue : RemoteQueue) : Shared :=
  { s with queues := Function.update s.queues lane queue }

@[simp] theorem setQueue_queues (s : Shared) (lane : RemoteLane) (queue : RemoteQueue) :
    (s.setQueue lane queue).queues = Function.update s.queues lane queue := rfl

def drop (s : Shared) (works : List Work) : Shared :=
  { s with dropped := s.dropped ++ works }

end Shared

def canceledClientResponse (work : Work) : Response :=
  ⟨some work.serial, work.request.id,
    some ("request `" ++ work.request.method ++ "` canceled before remote execution")⟩

/-- `preempted_client_response`; its result is not modelled -/
def preemptedClientResponse (work : Work) : Response := ⟨some work.serial, work.request.id, none⟩

/-- The response to a work the queue has refused. -/
def refusedClientResponse (work : Work) : Response :=
  ⟨some work.serial, work.request.id,
    if work.request.method = "flush_queued" then none
    else some ("remote " ++ work.lane.label ++ " " ++ work.priority.label ++
      " queue is full or not available")⟩

/-- `clear_pending_works` -/
def clearPending (works : List Work) : List Op := [.clearRemote works, .clearWrites works]

/-- A work that is cancelled is cleared and answered. -/
def settle (work : Work) : List Op := clearPending [work] ++ [.answer (canceledClientResponse work)]

/-- The work a request becomes. -/
def workFor (serial : ℕ) (request : ClientRequest) (pendingWrites : PendingRemote) : Work where
  serial := serial
  request := request
  hazard := PendingHazard.forRequest request
  priority := RemotePriority.forRequest request
  lane := RemoteLane.forRequest request pendingWrites
  writeHazardRegistered := request.isWriteLane

/-- A stage of an update is done; the operations it leaves. -/
def maintain (s : Shared) (stage : Stage) : Option Shared :=
  match stage with
  | .quiesceRead => if (s.queues .read).inFlight = 0 then some s else none
  | .quiesceWrite => if (s.queues .write).inFlight = 0 then some s else none
  | .resetRead =>
    if (s.queues .read).closed then none
    else some (s.setQueue .read { s.queues .read with controls := (s.queues .read).controls + 1 })
  | .resetWrite =>
    if (s.queues .write).closed then none
    else some (s.setQueue .write { s.queues .write with controls := (s.queues .write).controls + 1
      })
  | .awaitRead | .awaitWrite | .install => some s

/-- One operation: what is shared afterwards, and the operations that come next. -/
def exec (s : Shared) (op : Op) (choice : Choice) : Option (Shared × List Op) :=
  match op with
  | .answer response => some ({ s with responses := s.responses ++ [response] }, [])
  | .reply serial id =>
    some ({ s with responses := s.responses ++ [⟨some serial, id, choice.error⟩] }, [])
  | .clearRemote works =>
    some ({ s with pendingRemote := s.pendingRemote.clearAll (works.map Work.hazard) }, [])
  | .clearWrites works =>
    some ({ s with
      pendingWrites := s.pendingWrites.clearAll
        ((works.filter Work.writeHazardRegistered).map Work.hazard) }, [])
  | .shutdownDrain lane =>
    let drained := (s.queues lane).shutdownAndDrain
    some ((s.setQueue lane drained.2).drop drained.1, clearPending drained.1)
  | .interrupt lane =>
    some ({ s with shutdownRequested := Function.update s.shutdownRequested lane true }, [])
  | .cancelQueued lane target serial id =>
    match (s.queues lane).cancel target with
    | some (work, queue) => some (s.setQueue lane queue, settle work ++ [.reply serial id])
    | none =>
      match lane with
      | .read => some (s, [.cancelQueued .write target serial id])
      -- a request that is active may be preempted; it is answered by its worker
      | .write => some (s, [.reply serial id])
  | .beginMaintenance lane drained =>
    let more := (s.queues lane).beginMaintenanceAndDrain
    some (s.setQueue lane more.2,
      match lane with
      | .read => [.beginMaintenance .write (drained ++ more.1)]
      | .write => (drained ++ more.1).flatMap settle ++ [.maintain .quiesceRead])
  | .maintain stage =>
    match choice with
    | .fails _ => some (s, [])
    | .succeeds =>
      (maintain s stage).map fun s => (s, (stage.next.map Op.maintain).toList)
  | .endMaintenance lane => some (s.setQueue lane (s.queues lane).endMaintenance, [])
  | .route serial request =>
    some (s, [.registerRemote (workFor serial request s.pendingWrites)])
  | .registerRemote work =>
    some ({ s with pendingRemote := s.pendingRemote.register work.hazard },
      [.registerWrites work])
  | .registerWrites work =>
    some (if work.writeHazardRegistered then
        { s with pendingWrites := s.pendingWrites.register work.hazard }
      else s, [.push work])
  | .push work =>
    match (s.queues work.lane).tryPush work with
    | some (canceled, queue) =>
      some (s.setQueue work.lane queue,
        clearPending canceled ++ canceled.map fun work => .answer (preemptedClientResponse work))
    | none => some (s, clearPending [work] ++ [.answer (refusedClientResponse work)])
  | .closeBackground lane =>
    let drained := (s.queues lane).closeAndDrainBackground
    some ((s.setQueue lane drained.2).drop drained.1, clearPending drained.1)
  | .join lane => if s.exited lane then some (s, []) else none
  | .checkStart lane work =>
    if s.shutdownRequested lane then
      some (s.drop [work],
        clearPending [work] ++ [.shutdownDrain lane, .finishStarted lane, .exit lane])
    else some (s, [.handle lane work])
  | .handle lane work =>
    some (s, clearPending [work] ++
      [.answer ⟨some work.serial, work.request.id, choice.error⟩, .checkEnd lane])
  | .checkEnd lane =>
    some (s, if s.shutdownRequested lane then
        [.shutdownDrain lane, .finishStarted lane, .exit lane]
      else [.finishStarted lane])
  | .finishStarted lane => some (s.setQueue lane (s.queues lane).finishStarted, [])
  | .exit lane => some ({ s with exited := Function.update s.exited lane true }, [])

/-! ### The loop over requests -/

/-- What is found out about a line outside: whether it is answered at once, and what
`prepare_flush` has queued. -/
structure LineChoice where
  handled : Bool
  prepared : Option (ℕ × String)

def cancelRequestId (params : Value) : Option ℕ :=
  ((params.get? "request_id").or (params.get? "id")).bind Value.asU64

/-- `prepare_flush` has taken a snapshot: the request that saves it. -/
def preparedRequest (request : ClientRequest) (prepared : Option (ℕ × String)) : ClientRequest :=
  match prepared with
  | none => request
  | some (queueId, path) =>
    { id := request.id
      method := "flush_queued"
      params := .object [("queue_id", .integer queueId), ("path", .string path)] }

/-- `try_handle`: what is always answered from the mirror, what may be, and what never is. -/
def fastHandled (request : ClientRequest) (choice : LineChoice) : Bool :=
  request.method ∈ ["hello", "workspace_info", "status", "save_queue", "find_paths",
    "grep_cache"] ||
    request.method = "open" && choice.handled

/-- What ends a session, after its last request. -/
def leave : List Op :=
  [.closeBackground .read, .closeBackground .write, .join .read, .join .write]

def shutdown : List Op :=
  [.interrupt .read, .interrupt .write, .shutdownDrain .read, .shutdownDrain .write]

/-- What the loop does with a request. -/
def lineOps (serial : ℕ) (request : ClientRequest) (choice : LineChoice) : List Op :=
  if request.method ∈ ["shutdown", "disconnect"] then
    shutdown ++ [.answer ⟨some serial, request.id, none⟩] ++ leave
  else if request.method = "cancel" then
    match cancelRequestId request.params with
    | some target => [.cancelQueued .read target serial request.id]
    | none =>
      [.answer ⟨some serial, request.id, some "missing required integer params.request_id"⟩]
  else if request.method = "remote_health" then [.reply serial request.id]
  else if request.replacesRemoteAgent then
    if choice.handled then [.reply serial request.id]
    else
      [.beginMaintenance .read [], .endMaintenance .read, .endMaintenance .write,
        .reply serial request.id]
  else if request.method ∈ ["flush", "adopt"] then
    if choice.handled then [.reply serial request.id]
    else [.route serial (preparedRequest request choice.prepared)]
  else if fastHandled request choice then [.reply serial request.id]
  else [.route serial request]

/-! ### Threads -/

structure Server where
  shared : Shared
  session : List Op
  workers : RemoteLane → List Op
  lines : List ClientRequest
  /-- what was queued or running when the loop ended -/
  atEnd : Option (List ℕ)

/-- The work an operation of a worker executes or is about to. -/
def Op.running : Op → Option Work
  | .checkStart _ work => some work
  | .handle _ work => some work
  | _ => none

namespace Server

/-- The works a lane executes. -/
def running (server : Server) (lane : RemoteLane) : List Work :=
  (server.workers lane).filterMap Op.running

/-- The works that are queued or running on a lane. -/
def outstanding (server : Server) (lane : RemoteLane) : List Work :=
  (server.shared.queues lane).queue ++ server.running lane

def start : Server where
  shared :=
    { queues := fun _ => .new remoteInteractiveQueueCapacity remoteBackgroundQueueCapacity
      pendingRemote := .new
      pendingWrites := .new
      shutdownRequested := fun _ => false
      exited := fun _ => false
      responses := []
      dropped := [] }
  session := []
  workers := fun _ => []
  lines := []
  atEnd := none

/-- The loop ends here. -/
def ends (server : Server) : Server :=
  { server with
    atEnd := some ((server.outstanding .read ++ server.outstanding .write).map Work.serial) }

/-- The loop waits for a line. -/
def waits (server : Server) : Bool := server.session.isEmpty && server.atEnd.isNone

def readLine (server : Server) (request : ClientRequest) (choice : LineChoice) : Server :=
  let server := if request.method ∈ ["shutdown", "disconnect"] then server.ends else server
  { server with
    lines := server.lines ++ [request]
    session := lineOps server.lines.length request choice }

section readLine

variable (server : Server) (request : ClientRequest) (choice : LineChoice)

@[simp] theorem readLine_shared : (server.readLine request choice).shared = server.shared := by
  unfold readLine
  dsimp only
  split <;> rfl

@[simp] theorem readLine_workers : (server.readLine request choice).workers = server.workers := by
  unfold readLine
  dsimp only
  split <;> rfl

@[simp] theorem readLine_lines : (server.readLine request choice).lines =
    server.lines ++ [request] := by
  unfold readLine
  dsimp only
  split <;> rfl

@[simp] theorem readLine_session :
    (server.readLine request choice).session = lineOps server.lines.length request choice := by
  unfold readLine
  dsimp only
  split <;> rfl

theorem readLine_atEnd : (server.readLine request choice).atEnd =
    if request.method ∈ ["shutdown", "disconnect"] then
      some ((server.outstanding .read ++ server.outstanding .write).map Work.serial)
    else server.atEnd := by
  unfold readLine
  dsimp only
  split <;> rfl

end readLine

/-- A worker that has nothing to do takes a control item or a work, or ends. -/
def take (server : Server) (lane : RemoteLane) : Option Server :=
  let queue := server.shared.queues lane
  if server.shared.exited lane then none
  else if 0 < queue.controls then
    some { server with
      shared := server.shared.setQueue lane { queue with controls := queue.controls - 1 } }
  else
    match queue.popWork with
    | some (work, queue) =>
      some { server with
        shared := server.shared.setQueue lane queue
        workers := Function.update server.workers lane [.checkStart lane work] }
    | none =>
      if queue.closed then
        some { server with
          shared := { server.shared with
            exited := Function.update server.shared.exited lane true } }
      else none

inductive Move
  | line (request : ClientRequest) (choice : LineChoice)
  /-- a line that is no request -/
  | badLine (error : String)
  | endOfInput
  /-- the loop goes on -/
  | session (choice : Choice)
  /-- the worker of a lane goes on -/
  | worker (lane : RemoteLane) (choice : Choice)

def step (server : Server) : Move → Option Server
  | .line request choice => if server.waits then some (server.readLine request choice) else none
  | .badLine error =>
    if server.waits then
      some { server with
        session := [.answer ⟨none, 0, some ("invalid request JSON: " ++ error)⟩] }
    else none
  | .endOfInput =>
    if server.waits then some { server.ends with session := shutdown ++ leave } else none
  | .session choice =>
    match server.session with
    | [] => none
    | op :: rest =>
      (exec server.shared op choice).map fun (shared, ops) =>
        { server with shared, session := ops ++ rest }
  | .worker lane choice =>
    match server.workers lane with
    | [] => server.take lane
    | op :: rest =>
      (exec server.shared op choice).map fun (shared, ops) =>
        { server with shared, workers := Function.update server.workers lane (ops ++ rest) }

/-- The session after some moves. -/
def run (server : Server) : List Move → Option Server
  | [] => some server
  | move :: moves => (server.step move).bind fun server => server.run moves

/-- **What one move does.** -/
inductive Turn (server : Server) : Server → Prop
  | line (request : ClientRequest) (choice : LineChoice) (waits : server.waits = true) :
      Turn server (server.readLine request choice)
  | badLine (error : String) (waits : server.waits = true) :
      Turn server { server with
        session := [.answer ⟨none, 0, some ("invalid request JSON: " ++ error)⟩] }
  | endOfInput (waits : server.waits = true) :
      Turn server { server.ends with session := shutdown ++ leave }
  | session (op : Op) (rest : List Op) (choice : Choice) (shared : Shared) (ops : List Op)
      (eq : server.session = op :: rest) (executed : exec server.shared op choice =
      some (shared, ops)) :
      Turn server { server with shared, session := ops ++ rest }
  | worker (lane : RemoteLane) (op : Op) (rest : List Op) (choice : Choice) (shared : Shared)
      (ops : List Op) (eq : server.workers lane = op :: rest)
      (executed : exec server.shared op choice = some (shared, ops)) :
      Turn server { server with
        shared, workers := Function.update server.workers lane (ops ++ rest) }
  | control (lane : RemoteLane) (idle : server.workers lane = [])
      (alive : server.shared.exited lane = false) (some_control : 0 <
      (server.shared.queues lane).controls) :
      Turn server { server with
        shared := server.shared.setQueue lane { server.shared.queues lane with
          controls := (server.shared.queues lane).controls - 1 } }
  | starts (lane : RemoteLane) (work : Work) (queue : RemoteQueue) (idle : server.workers lane = [])
      (alive : server.shared.exited lane = false)
      (popped : (server.shared.queues lane).popWork = some (work, queue)) :
      Turn server { server with
        shared := server.shared.setQueue lane queue
        workers := Function.update server.workers lane [.checkStart lane work] }
  | exits (lane : RemoteLane) (idle : server.workers lane = [])
      (alive : server.shared.exited lane = false)
      (nothing : (server.shared.queues lane).popWork = none)
      (closed : (server.shared.queues lane).closed = true) :
      Turn server { server with
        shared := { server.shared with exited := Function.update server.shared.exited lane true } }

variable {server server' : Server}

theorem take_turn {lane : RemoteLane} (idle : server.workers lane = [])
    (taken : server.take lane = some server') : Turn server server' := by
  simp only [take] at taken
  split at taken
  · cases taken
  rename_i alive
  rw [Bool.not_eq_true] at alive
  split at taken
  · rename_i some_control
    cases taken
    exact .control lane idle alive some_control
  split at taken
  · rename_i work queue popped
    cases taken
    exact .starts lane work queue idle alive popped
  · rename_i nothing
    split at taken
    · rename_i closed
      cases taken
      exact .exits lane idle alive nothing closed
    · cases taken

theorem step_turn {move : Move} (stepped : server.step move = some server') :
    Turn server server' := by
  cases move with
  | line request choice =>
    obtain ⟨waits, eq⟩ := Option.ite_none_right_eq_some.mp stepped
    exact Option.some.inj eq ▸ .line request choice waits
  | badLine error =>
    obtain ⟨waits, eq⟩ := Option.ite_none_right_eq_some.mp stepped
    exact Option.some.inj eq ▸ .badLine error waits
  | endOfInput =>
    obtain ⟨waits, eq⟩ := Option.ite_none_right_eq_some.mp stepped
    exact Option.some.inj eq ▸ .endOfInput waits
  | session choice =>
    simp only [step] at stepped
    split at stepped
    · cases stepped
    · rename_i op rest session
      obtain ⟨⟨shared, ops⟩, executed, eq⟩ := Option.map_eq_some_iff.mp stepped
      exact eq ▸ .session op rest choice shared ops session executed
  | worker lane choice =>
    simp only [step] at stepped
    split at stepped
    · rename_i idle
      exact take_turn idle stepped
    · rename_i op rest worker
      obtain ⟨⟨shared, ops⟩, executed, eq⟩ := Option.map_eq_some_iff.mp stepped
      exact eq ▸ .worker lane op rest choice shared ops worker executed

/-- What every move preserves holds after a run. -/
theorem run_preserves {P : Server → Prop}
    (step : ∀ {server server'}, Turn server server' → P server → P server') {moves : List Move}
    (ran : server.run moves = some server') (h : P server) : P server' := by
  induction moves generalizing server with
  | nil => exact Option.some.inj ran ▸ h
  | cons move moves ih =>
    obtain ⟨next, stepped, rest⟩ := Option.bind_eq_some_iff.mp ran
    exact ih rest (step (step_turn stepped) h)

theorem session_of_waits (waits : server.waits = true) : server.session = [] := by
  simp only [Server.waits, Bool.and_eq_true, List.isEmpty_iff] at waits
  exact waits.1

theorem atEnd_of_waits (waits : server.waits = true) : server.atEnd = none := by
  simp only [Server.waits, Bool.and_eq_true, Option.isNone_iff_eq_none] at waits
  exact waits.2

end Server

end RemoteMirror.Lanes
