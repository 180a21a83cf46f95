/-
**Every request is answered once.**

A line of the client comes with a ticket: its number and its identifier.  The ticket is handed from
one operation to the next, goes into a queue with the work and out of it again, and ends in a
response or, when the session is over, with a work that is dropped.  No operation loses or copies a
ticket, so the tickets in the session are always those of the lines read so far, each once.

Main definitions:

* `Lanes.Op.owes` — the tickets an operation has to see answered;
* `Lanes.Ledger` — the tickets in the session are those of its lines.

Main results:

* `Lanes.exec_ledger` — an operation neither loses nor copies a ticket;
* `Lanes.Ledger.run` — **the ledger is balanced in every run**;
* `Lanes.one_reply_per_request` — **every request has at most one response, and exactly one
  when the threads have done what they can, unless it was outstanding when the loop ended**;
* `Lanes.unblocked_at_rest` — **the threads come to rest, and then no path is blocked**.
-/

import RemoteMirror.LaneProgress

namespace RemoteMirror.Lanes

/-! ### Tickets -/

/-- The number and the identifier of a line. -/
abbrev Ticket := ℕ × ℕ

def Work.ticket (work : Work) : Ticket := (work.serial, work.request.id)

def Response.ticket (response : Response) : Option Ticket :=
  response.serial.map fun serial => (serial, response.id)

/-- The tickets an operation has to see answered. -/
def Op.owes : Op → List Ticket
  | .answer response => response.ticket.toList
  | .reply serial id => [(serial, id)]
  | .cancelQueued _ _ serial id => [(serial, id)]
  | .beginMaintenance _ drained => drained.map Work.ticket
  | .route serial request => [(serial, request.id)]
  | .registerRemote work | .registerWrites work | .push work => [work.ticket]
  | .checkStart _ work | .handle _ work => [work.ticket]
  | _ => []

/-- The tickets of works that are queued, answered or dropped. -/
def Shared.tickets (s : Shared) : List Ticket :=
  s.queued.map Work.ticket ++ s.responses.filterMap Response.ticket ++ s.dropped.map Work.ticket

/-- The tickets of the lines read so far. -/
def lineTickets (lines : List ClientRequest) : List Ticket :=
  lines.zipIdx.map fun (request, serial) => (serial, request.id)

namespace Shared

variable (s : Shared) (ticket : Ticket)

/-- The tickets of a queue that is changed. -/
theorem count_setQueue (lane : RemoteLane) (queue : RemoteQueue) :
    (s.setQueue lane queue).tickets.count ticket + ((s.queues lane).queue.map Work.ticket).count
      ticket = s.tickets.count ticket + (queue.queue.map Work.ticket).count ticket := by
  cases lane with
  | read | write =>
    simp [tickets, queued, setQueue, List.count_append]
    omega

theorem count_drop (works : List Work) : (s.drop works).tickets.count ticket =
      s.tickets.count ticket + (works.map Work.ticket).count ticket := by
  simp [tickets, drop, queued, List.count_append]
  omega

theorem count_answer (response : Response) :
    { s with responses := s.responses ++ [response] }.tickets.count ticket =
      s.tickets.count ticket + response.ticket.toList.count ticket := by
  have last : [response].filterMap Response.ticket = response.ticket.toList := by
    cases h : response.ticket <;> simp [h]
  simp only [tickets, queued, List.filterMap_append, last, List.count_append]
  omega

end Shared

theorem owes_clearPending (works : List Work) : (clearPending works).flatMap Op.owes = [] := rfl

theorem owes_settle (works : List Work) : (works.flatMap settle).flatMap Op.owes =
    works.map Work.ticket := by
  induction works with
  | nil => rfl
  | cons work works ih =>
    rw [List.flatMap_cons, List.flatMap_append, ih]
    rfl

theorem owes_preempted (works : List Work) :
    (works.map fun work => Op.answer (preemptedClientResponse work)).flatMap Op.owes =
      works.map Work.ticket := by
  induction works with
  | nil => rfl
  | cons work works ih =>
    rw [List.map_cons, List.flatMap_cons, ih]
    rfl

/-- A queue is emptied in part, and the works are dropped. -/
theorem count_drains (s : Shared) {lane : RemoteLane} {drained : List Work} {queue : RemoteQueue}
    (perm : (s.queues lane).queue.Perm (drained ++ queue.queue)) (ticket : Ticket) :
    ((s.setQueue lane queue).drop drained).tickets.count ticket = s.tickets.count ticket := by
  have moved := s.count_setQueue ticket lane queue
  have split := (perm.map Work.ticket).count_eq ticket
  rw [List.map_append, List.count_append] at split
  rw [Shared.count_drop]
  omega

theorem maintain_tickets {s s' : Shared} {stage : Stage} (h : maintain s stage = some s') :
    s'.tickets = s.tickets := by
  rw [Shared.tickets, (maintain_queued h).1, Shared.tickets]
  obtain rfl | ⟨-, lane, rfl⟩ := maintain_eq_some h <;> rfl

/-- **An operation neither loses nor copies a ticket.** -/
theorem exec_ledger {s s' : Shared} {op : Op} {ops : List Op} {choice : Choice}
    (h : exec s op choice = some (s', ops)) (ticket : Ticket) :
    (ops.flatMap Op.owes).count ticket + s'.tickets.count ticket =
      op.owes.count ticket + s.tickets.count ticket := by
  cases op with
  | answer response =>
    cases h
    rw [s.count_answer ticket response]
    simp only [List.flatMap_nil, List.count_nil, Op.owes]
    omega
  | reply serial id =>
    cases h
    rw [s.count_answer ticket ⟨some serial, id, choice.error⟩]
    simp only [List.flatMap_nil, List.count_nil, Op.owes, Response.ticket, Option.map_some,
      Option.toList_some]
    omega
  | shutdownDrain lane =>
    cases h
    rw [owes_clearPending, count_drains s (RemoteQueue.shutdownAndDrain_perm _)]
    rfl
  | closeBackground lane =>
    cases h
    rw [owes_clearPending, count_drains s (RemoteQueue.closeAndDrainBackground_perm _)]
    rfl
  | cancelQueued lane target serial id =>
    simp only [exec] at h
    split at h
    · rename_i work queue canceled
      cases h
      have moved := s.count_setQueue ticket lane queue
      have removed := ((RemoteQueue.cancel_eq_some canceled).1.map Work.ticket).count_eq ticket
      have settled : (settle work ++ [Op.reply serial id]).flatMap Op.owes =
          [work.ticket, (serial, id)] := rfl
      rw [settled]
      simp only [List.map_cons, List.count_cons, List.count_nil, Op.owes] at removed ⊢
      omega
    · split at h <;> cases h <;> rfl
  | beginMaintenance lane drained =>
    cases h
    have moved := s.count_setQueue ticket lane (s.queues lane).beginMaintenanceAndDrain.2
    have perm := ((RemoteQueue.beginMaintenance_perm drained (s.queues lane)).map
      Work.ticket).count_eq ticket
    simp only [List.map_append, List.count_append] at perm
    cases lane with
    | read =>
      simp only [List.flatMap_cons, List.flatMap_nil, List.append_nil, Op.owes, List.map_append,
        List.count_append]
      omega
    | write =>
      rw [List.flatMap_append, owes_settle]
      simp only [List.flatMap_cons, List.flatMap_nil, List.append_nil, Op.owes, List.map_append,
        List.count_append]
      omega
  | maintain stage =>
    simp only [exec] at h
    split at h
    · cases h
      rfl
    · obtain ⟨after, maintained, eq⟩ := Option.map_eq_some_iff.mp h
      cases eq
      rw [maintain_tickets maintained]
      cases stage <;> rfl
  | endMaintenance lane =>
    cases h
    have same := s.count_setQueue ticket lane (s.queues lane).endMaintenance
    simp only [RemoteQueue.endMaintenance] at same ⊢
    simp only [List.flatMap_nil, List.count_nil, Op.owes]
    omega
  | finishStarted lane =>
    cases h
    have same := s.count_setQueue ticket lane (s.queues lane).finishStarted
    simp only [RemoteQueue.finishStarted] at same ⊢
    simp only [List.flatMap_nil, List.count_nil, Op.owes]
    omega
  | registerWrites work | checkEnd lane =>
    cases h
    split <;> rfl
  | push work =>
    simp only [exec] at h
    split at h
    · rename_i canceled queue pushed
      cases h
      have moved := s.count_setQueue ticket work.lane queue
      have perm := ((RemoteQueue.tryPush_eq_some pushed).1.map Work.ticket).count_eq ticket
      rw [List.flatMap_append, owes_clearPending, owes_preempted]
      simp only [List.map_append, List.map_cons, List.map_nil, List.count_append, List.nil_append,
        Op.owes] at perm ⊢
      omega
    · cases h
      rfl
  | join lane =>
    obtain ⟨-, eq⟩ := Option.ite_none_right_eq_some.mp h
    cases eq
    rfl
  | checkStart lane work =>
    simp only [exec] at h
    split at h
    · cases h
      have dropped := s.count_drop ticket [work]
      have none_owed : (clearPending [work] ++ [Op.shutdownDrain lane, .finishStarted lane,
          .exit lane]).flatMap Op.owes = [] := rfl
      rw [none_owed]
      simp only [List.map_cons, List.map_nil, List.count_nil, Op.owes] at dropped ⊢
      omega
    · cases h
      rfl
  | clearRemote | clearWrites | interrupt | route | registerRemote | handle | exit =>
    cases h
    rfl

/-! ### The ledger -/

/-- The tickets the threads have to see answered. -/
def Server.owed (server : Server) : List Ticket :=
  (server.session ++ server.workers .read ++ server.workers .write).flatMap Op.owes

/-- **The tickets in the session are those of its lines.** -/
def Ledger (server : Server) : Prop :=
  ∀ ticket : Ticket, server.owed.count ticket + server.shared.tickets.count ticket =
    (lineTickets server.lines).count ticket

theorem preparedRequest_id (request : ClientRequest) (prepared : Option (ℕ × String)) :
    (preparedRequest request prepared).id = request.id := by
  cases prepared <;> rfl

/-- Whatever the loop does with a line, it sees to its answer. -/
theorem owes_lineOps (serial : ℕ) (request : ClientRequest) (choice : LineChoice) :
    (lineOps serial request choice).flatMap Op.owes = [(serial, request.id)] := by
  unfold lineOps
  repeat' split
  all_goals first
    | rfl
    | simp [Op.owes, preparedRequest_id]

theorem lineTickets_append (lines : List ClientRequest) (request : ClientRequest) :
    lineTickets (lines ++ [request]) = lineTickets lines ++ [(lines.length, request.id)] := by
  simp [lineTickets, List.zipIdx_append]

namespace Ledger

variable {server server' : Server}

theorem start : Ledger Server.start := fun _ => rfl

/-- One thread goes on. -/
theorem goes_on {s s' : Shared} {op : Op} {ops before rest after : List Op} {choice : Choice}
    (executed : exec s op choice = some (s', ops)) {ticket : Ticket} {lines : ℕ}
    (h : ((before ++ op :: rest ++ after).flatMap Op.owes).count ticket + s.tickets.count ticket =
      lines) :
    ((before ++ (ops ++ rest) ++ after).flatMap Op.owes).count ticket + s'.tickets.count ticket =
      lines := by
  have balanced := exec_ledger executed ticket
  simp only [List.flatMap_append, List.flatMap_cons, List.count_append] at h ⊢
  omega

theorem turn (step : Server.Turn server server') (h : Ledger server) : Ledger server' := by
  intro ticket
  have balanced := h ticket
  cases step with
  | line request choice waits =>
    rw [Server.owed, Server.session_of_waits waits] at balanced
    rw [Server.owed, Server.readLine_session, Server.readLine_shared, Server.readLine_workers,
      Server.readLine_lines, lineTickets_append, List.append_assoc, List.flatMap_append,
      owes_lineOps]
    simp only [List.nil_append, List.count_append] at balanced ⊢
    omega
  | badLine error waits | endOfInput waits =>
    rw [Server.owed, Server.session_of_waits waits] at balanced
    exact balanced
  | session op rest choice shared ops eq executed =>
    rw [Server.owed, eq, List.append_assoc, ← List.nil_append (op :: rest)] at balanced
    have gone := goes_on executed balanced
    rw [List.nil_append, ← List.append_assoc] at gone
    exact gone
  | worker lane op rest choice shared ops eq executed =>
    cases lane with
    | read =>
      rw [Server.owed, eq] at balanced
      exact goes_on executed balanced
    | write =>
      rw [Server.owed, eq, ← List.append_nil (_ ++ op :: rest)] at balanced
      have gone := goes_on executed balanced
      rw [List.append_nil] at gone
      exact gone
  | control lane idle alive some_control =>
    have same := server.shared.count_setQueue ticket lane { server.shared.queues lane with
      controls := (server.shared.queues lane).controls - 1 }
    simp only [Server.owed] at same balanced ⊢
    omega
  | starts lane work queue idle alive popped =>
    have moved := server.shared.count_setQueue ticket lane queue
    have perm := ((RemoteQueue.perm_of_popWork popped).map Work.ticket).count_eq ticket
    simp only [List.map_cons, List.count_cons, beq_iff_eq] at perm
    rw [Server.owed] at balanced
    simp only [List.flatMap_append, List.count_append] at balanced
    cases lane <;> simp [Server.owed, idle, Op.owes, List.count_cons] at balanced moved ⊢ <;> omega
  | exits lane idle alive nothing closed => exact balanced

/-- **The ledger is balanced in every run.** -/
theorem run {moves : List Server.Move} (ran : Server.start.run moves = some server) :
    Ledger server :=
  Server.run_preserves turn ran start

end Ledger

/-! ### Responses -/

/-- The responses to a line. -/
def Server.responsesTo (server : Server) (serial : ℕ) : List Response :=
  server.shared.responses.filter fun response => response.serial = some serial

/-- The tickets of the responses to a line. -/
theorem filter_tickets (serial : ℕ) (responses : List Response) :
    (responses.filterMap Response.ticket).filter (fun ticket => ticket.1 = serial) =
      (responses.filter fun response => response.serial = some serial).map
        fun response => (serial, response.id) := by
  induction responses with
  | nil => rfl
  | cons response responses ih =>
    obtain ⟨number, id, error⟩ := response
    cases number with
    | none =>
      rw [List.filterMap_cons_none rfl, List.filter_cons_of_neg (by simp)]
      exact ih
    | some number =>
      by_cases same : number = serial
      · simp [Response.ticket, same, ih]
      · simp [Response.ticket, same, ih]

variable {lines : List ClientRequest}

theorem lt_of_mem_lineTickets {ticket : Ticket} (mem : ticket ∈ lineTickets lines) :
    ticket.1 < lines.length := by
  obtain ⟨⟨request, serial⟩, inside, rfl⟩ := List.mem_map.mp mem
  have bound := (List.mem_zipIdx' inside).1
  exact bound

variable {serial : ℕ} {request : ClientRequest}

/-- A line has one ticket. -/
theorem filter_lineTickets (accepted : lines[serial]? = some request) :
    (lineTickets lines).filter (fun ticket => ticket.1 = serial) = [(serial, request.id)] := by
  induction lines using List.reverseRecOn with
  | nil => cases accepted
  | append_singleton lines last ih =>
    rw [lineTickets_append, List.filter_append]
    rcases Nat.lt_trichotomy serial lines.length with lt | eq | gt
    · rw [List.getElem?_append_left lt] at accepted
      rw [ih accepted, List.filter_cons_of_neg (by simpa using Nat.ne_of_gt lt), List.filter_nil,
        List.append_nil]
    · subst eq
      rw [List.getElem?_concat_length] at accepted
      cases accepted
      have none_before : (lineTickets lines).filter (fun ticket => ticket.1 = lines.length) =
          [] := by
        refine List.filter_eq_nil_iff.mpr fun ticket mem => ?_
        simpa using Nat.ne_of_lt (lt_of_mem_lineTickets mem)
      rw [none_before]
      simp
    · rw [List.getElem?_eq_none (by rw [List.length_append]; exact gt)] at accepted
      cases accepted

/-- The ticket of a line is owed, queued, answered or dropped, and only one of these. -/
theorem Ledger.filter {server : Server} (h : Ledger server)
    (accepted : server.lines[serial]? = some request) :
    ((server.owed.filter fun ticket => ticket.1 = serial) ++
      ((server.shared.queued.map Work.ticket).filter fun ticket => ticket.1 = serial) ++
      (server.responsesTo serial).map (fun response => (serial, response.id)) ++
      ((server.shared.dropped.map Work.ticket).filter fun ticket => ticket.1 = serial)).Perm
        [(serial, request.id)] := by
  have perm : (server.owed ++ server.shared.tickets).Perm (lineTickets server.lines) :=
    List.perm_iff_count.mpr fun ticket => by
      rw [List.count_append]
      exact h ticket
  have filtered := perm.filter fun ticket => ticket.1 = serial
  rw [filter_lineTickets accepted, Shared.tickets] at filtered
  simp only [List.filter_append, filter_tickets] at filtered
  simpa only [List.append_assoc, Server.responsesTo] using filtered

/-- No thread can go on. -/
def Server.AtRest (server : Server) : Prop :=
  ∀ move : Move, move.internal = true → server.step move = none

/-- **Every request is answered once**: no request has two responses, or one with another
identifier; and when the threads have done what they can, which they do in a bounded number of
steps, it has exactly one, unless it was queued or running when the loop ended. -/
theorem one_reply_per_request {moves : List Server.Move} {server : Server}
    (ran : Server.start.run moves = some server) {serial : ℕ} {request : ClientRequest}
    (accepted : server.lines[serial]? = some request) :
    (∀ response ∈ server.responsesTo serial, response.id = request.id) ∧
      (server.responsesTo serial).length ≤ 1 ∧
      (server.AtRest → serial ∉ server.atEnd.getD [] → (server.responsesTo serial).length = 1) ∧
      ∀ (more : List Server.Move) (server' : Server), (∀ move ∈ more, move.internal = true) →
        server.run more = some server' → more.length ≤ server.weight := by
  have one := (Ledger.run ran).filter accepted
  have phases := PhaseInv.run ran
  refine ⟨?_, ?_, ?_, ?_⟩
  · intro response mem
    have ticket : (serial, response.id) ∈ [(serial, request.id)] :=
      one.subset (List.mem_append_left _ (List.mem_append_right _
        (List.mem_map_of_mem mem)))
    exact (Prod.mk.inj (List.mem_singleton.mp ticket)).2
  · have length := one.length_eq
    simp only [List.length_append, List.length_map, List.length_singleton] at length
    omega
  · intro stuck not_outstanding
    obtain ⟨session, workers, queues⟩ := phases.quiet_of_stuck stuck
    have none_owed : server.owed = [] := by
      rw [Server.owed, session, workers, workers]
      rfl
    have none_queued : server.shared.queued = [] := by
      rw [Shared.queued, queues, queues]
      rfl
    -- what was dropped had been queued or running when the loop ended
    have none_dropped : ((server.shared.dropped.map Work.ticket).filter
        fun ticket => ticket.1 = serial) = [] := by
      refine List.filter_eq_nil_iff.mpr fun ticket mem same => ?_
      obtain ⟨work, dropped, rfl⟩ := List.mem_map.mp mem
      cases at_end : server.atEnd with
      | none =>
        rw [(phases.opened at_end).dropped] at dropped
        cases dropped
      | some before =>
        have was := (phases.past before at_end).dropped work dropped
        rw [at_end] at not_outstanding
        exact not_outstanding (of_decide_eq_true same ▸ was)
    have length := one.length_eq
    rw [none_owed, none_queued, none_dropped] at length
    simpa using length
  · intro more server' internal continued
    have bounded := Server.run_length_le internal continued
    omega

/-- The queue is flushed, and the worker is done with it. -/
def flushAnswered : List Server.Move :=
  [.line ⟨7, "flush_queue", .object []⟩ ⟨false, none⟩] ++
    List.replicate 6 (.session .succeeds) ++ List.replicate 8 (.worker .write .succeeds)

theorem one_reply_per_request_flush :
    ∃ server, Server.start.run flushAnswered = some server ∧ 0 ∉ server.atEnd.getD [] ∧
      (∃ request, server.lines[0]? = some request) ∧ (server.responsesTo 0).length = 1 := by
  have runs : (Server.start.run flushAnswered).map (fun server =>
      server.session.isEmpty && (server.workers .read).isEmpty && (server.workers .write).isEmpty &&
        (server.take .read).isNone && (server.take .write).isNone && server.atEnd.isNone &&
          server.lines.length = 1) = some true := by decide +kernel
  obtain ⟨server, ran, facts⟩ := Option.map_eq_some_iff.mp runs
  simp only [Bool.and_eq_true, List.isEmpty_iff, Option.isNone_iff_eq_none,
    decide_eq_true_eq] at facts
  obtain ⟨⟨⟨⟨⟨⟨session, read⟩, write⟩, take_read⟩, take_write⟩, at_end⟩, lines⟩ := facts
  have stuck : server.AtRest := by
    intro move internal
    cases move with
    | line | badLine | endOfInput => cases internal
    | session choice => simp only [Server.step, session]
    | worker lane choice =>
      cases lane with
      | read => simpa only [Server.step, read] using take_read
      | write => simpa only [Server.step, write] using take_write
  have accepted : server.lines[0]? = some server.lines[0] := List.getElem?_eq_getElem (by omega)
  have outside : 0 ∉ server.atEnd.getD [] := by simp [at_end]
  exact ⟨server, ran, outside, ⟨_, accepted⟩,
    (one_reply_per_request ran accepted).2.2.1 stuck outside⟩

/-! ### Rest -/

/-- Every step of a thread makes the server lighter, so there is a last one. -/
theorem Server.exists_atRest (server : Server) :
    ∃ more server', (∀ move ∈ more, move.internal = true) ∧
    server.run more = some server' ∧ server'.AtRest := by
  induction h : server.weight using Nat.strong_induction_on generalizing server with
  | _ weight ih =>
    by_cases rest : server.AtRest
    · exact ⟨[], server, by simp, rfl, rest⟩
    · simp only [AtRest, not_forall] at rest
      obtain ⟨move, internal, moves⟩ := rest
      obtain ⟨next, stepped⟩ := Option.ne_none_iff_exists'.mp moves
      obtain ⟨more, last, inside, ran, rest⟩ := ih _ (h ▸ step_weight internal stepped) next rfl
      exact ⟨move :: more, last, List.forall_mem_cons.mpr ⟨internal, inside⟩,
        Option.bind_eq_some_iff.mpr ⟨next, stepped, ran⟩, rest⟩

/-- **The threads come to rest, and then no path is blocked**: a table blocks a path exactly for the
works it counts; from every state of a run the threads can get to one in which none of them can go
on; and in no such state a path is blocked. -/
theorem unblocked_at_rest {moves : List Server.Move} {server : Server}
    (ran : Server.start.run moves = some server) :
    (∀ (table : Table) (path : String), (table.pending server.shared).blocksPath path = true ↔
      ∃ hazard ∈ table.hazards (server.held table ++ server.shared.queued),
        hazard.unknownContentMutation = true ∨ path ∈ hazard.exactPaths) ∧
    (∃ more server', (∀ move ∈ more, move.internal = true) ∧ server.run more = some server' ∧
      server'.AtRest) ∧
    (server.AtRest → ∀ (table : Table) (path : String),
      (table.pending server.shared).blocksPath path = false) := by
  refine ⟨fun table => (HazardInv.run ran table).blocksPath_iff, server.exists_atRest,
    fun rest table path => ?_⟩
  obtain ⟨session, workers, queues⟩ := (PhaseInv.run ran).quiet_of_stuck rest
  have nothing : server.held table ++ server.shared.queued = [] := by
    simp [Server.held, Shared.queued, session, workers, queues]
  rw [Bool.eq_false_iff, Ne, (HazardInv.run ran table).blocksPath_iff, nothing]
  simp [Table.hazards]

theorem unblocked_at_rest_flush : ∃ server, Server.start.run (flushAnswered.take 7) = some server ∧
    ∃ more server', server.run more = some server' ∧ server'.AtRest := by
  obtain ⟨server, ran⟩ : ∃ server, Server.start.run (flushAnswered.take 7) = some server :=
    Option.isSome_iff_exists.mp (by decide +kernel)
  obtain ⟨-, ⟨more, server', -, rest⟩, -⟩ := unblocked_at_rest ran
  exact ⟨server, ran, more, server', rest⟩

end RemoteMirror.Lanes
