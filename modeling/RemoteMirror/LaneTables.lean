/-
**The tables of pending requests are exact.**

The sidecar keeps two tables of hazards: one of all pending requests, one of the pending saves.  A
work is entered when it is routed and taken out when it has been answered, cancelled or dropped, by
whichever thread does it, in several steps between which the other threads go on.  So at every
moment a table counts the works that are queued and those some thread holds: that are on their way
to a queue, running, or about to be cleared.

Main definitions:

* `Lanes.Table` — the two tables, and which works each of them counts;
* `Lanes.TableStep` — what an operation does to a table;
* `Lanes.HazardInv` — a table counts the works that are queued or held.

Main results:

* `Lanes.RemoteQueue.nextReadyIndex_le` — no work starts before an earlier interactive one;
* `Lanes.exec_table` — what every operation does to a table;
* `Lanes.HazardInv.run` — **both tables are exact in every run**.
-/

import RemoteMirror.LaneServer

namespace RemoteMirror.Lanes

/-! ### What is done to a queue -/

namespace RemoteQueue

variable {queue queue' : RemoteQueue} {work : Work} {index : ℕ}

@[simp] theorem decrement_queue (queue : RemoteQueue) (priority : RemotePriority) :
    (queue.decrement priority).queue = queue.queue := by cases priority <;> rfl

theorem remove_eq_some (h : queue.remove index = some (work, queue')) :
    queue.queue[index]? = some work ∧ queue'.queue = queue.queue.eraseIdx index := by
  obtain ⟨found, at_index, eq⟩ := Option.map_eq_some_iff.mp h
  cases eq
  exact ⟨at_index, decrement_queue _ _⟩

theorem remove_flags (h : queue.remove index = some (work, queue')) : queue'.closed = queue.closed ∧
    queue'.maintenancePaused = queue.maintenancePaused ∧ queue'.controls = queue.controls := by
  obtain ⟨found, -, eq⟩ := Option.map_eq_some_iff.mp h
  cases eq
  cases work.priority <;> exact ⟨rfl, rfl, rfl⟩

/-- A removed work and the rest are the works there were. -/
theorem perm_of_eraseIdx (at_index : queue.queue[index]? = some work)
    (rest : queue'.queue = queue.queue.eraseIdx index) :
    queue.queue.Perm (work :: queue'.queue) := by
  obtain ⟨bound, eq⟩ := List.getElem?_eq_some_iff.mp at_index
  rw [rest, ← eq]
  exact (List.getElem_cons_eraseIdx_perm bound).symm

/-- `earlier` gives way to `work` when it is pushed. -/
def givesWay (work earlier : Work) : Bool :=
  earlier.priority = .background && earlier.blocksLater work

variable {canceled : List Work}

/-- **What a push does that the queue accepts.** -/
theorem tryPush_cases (h : queue.tryPush work = some (canceled, queue')) :
    queue.closed = false ∧
      (work.priority = .interactive ∧ queue.interactiveLen < queue.interactiveCapacity ∧
          canceled = queue.queue.filter (givesWay work) ∧
          queue' = { queue with
            queue := queue.queue.filter (fun earlier => !givesWay work earlier) ++ [work]
            interactiveLen := queue.interactiveLen + 1
            backgroundLen := queue.backgroundLen - canceled.length } ∨
        work.priority = .background ∧ queue.backgroundLen < queue.backgroundCapacity ∧
          canceled = [] ∧
          queue' = { queue with
            queue := queue.queue ++ [work], backgroundLen := queue.backgroundLen + 1 }) := by
  obtain ⟨is_open, pushed⟩ := Option.ite_none_left_eq_some.mp h
  simp only [Bool.or_eq_true, not_or, Bool.not_eq_true] at is_open
  refine ⟨is_open.1, ?_⟩
  split at pushed
  · obtain ⟨room, eq⟩ := Option.ite_none_left_eq_some.mp pushed
    simp only [Option.some.injEq, drainBackgroundBlocking, List.partition_eq_filter_filter,
      List.take_left, List.drop_left] at eq
    cases eq
    exact .inl ⟨‹_›, Nat.not_le.mp room, rfl, rfl⟩
  · obtain ⟨room, eq⟩ := Option.ite_none_left_eq_some.mp pushed
    cases eq
    exact .inr ⟨‹_›, Nat.not_le.mp room, rfl, rfl⟩

/-- The works a push leaves and those that give way, from those there were and the new one. -/
theorem tryPush_eq_some (h : queue.tryPush work = some (canceled, queue')) :
    (queue.queue ++ [work]).Perm (canceled ++ queue'.queue) ∧
      queue'.queue.Sublist (queue.queue ++ [work]) ∧ queue.closed = false ∧
      queue'.closed = false ∧ queue'.maintenancePaused = queue.maintenancePaused := by
  obtain ⟨is_open, ⟨-, -, rfl, rfl⟩ | ⟨-, -, rfl, rfl⟩⟩ := tryPush_cases h
  · refine ⟨?_, List.filter_sublist.append_right _, is_open, is_open, rfl⟩
    rw [← List.append_assoc]
    exact (List.filter_append_perm _ _).symm.append_right _
  · exact ⟨List.Perm.refl _, List.Sublist.refl _, is_open, is_open, rfl⟩

variable {works : List Work}

/-- The next work is the first interactive one or stands before it; without one it is the first of
all. -/
theorem nextReadyIndex_eq_some (h : nextReadyIndex works = some index) :
    (works.findIdx? fun work => work.priority = .interactive) = none ∧ index < works.length ∨
      ∃ first, (works.findIdx? fun work => work.priority = .interactive) =
        some first ∧ index ≤ first := by
  unfold nextReadyIndex at h
  split at h
  · rename_i none_found
    obtain ⟨nonempty, eq⟩ := Option.ite_none_left_eq_some.mp h
    cases eq
    exact .inl ⟨none_found, List.length_pos_iff.mpr (mt List.isEmpty_iff.mpr nonempty)⟩
  · rename_i first found
    refine .inr ⟨first, found, ?_⟩
    obtain ⟨work, -, eq⟩ := Option.map_eq_some_iff.mp h
    cases blocking : (works.take first).findIdx? fun earlier => earlier.blocksLater work with
    | none =>
      rw [blocking] at eq
      exact Nat.le_of_eq eq.symm
    | some before =>
      rw [blocking] at eq
      obtain ⟨inside, -⟩ := List.findIdx?_eq_some_iff_getElem.mp blocking
      cases eq
      exact Nat.le_of_lt (Nat.lt_of_lt_of_le inside (List.length_take_le _ _))

/-- **No work starts before an earlier interactive one.** -/
theorem nextReadyIndex_le (h : nextReadyIndex works = some index) {i : ℕ} {interactive : Work}
    (at_i : works[i]? = some interactive) (priority : interactive.priority = .interactive) :
    index ≤ i := by
  rcases nextReadyIndex_eq_some h with ⟨none_found, -⟩ | ⟨first, found, le⟩
  · -- there is an interactive work, so the search for one succeeds
    have found := List.findIdx?_eq_none_iff.mp none_found interactive (List.mem_of_getElem? at_i)
    simp [priority] at found
  · obtain ⟨bound, -, earliest⟩ := List.findIdx?_eq_some_iff_getElem.mp found
    refine Nat.le_trans le ?_
    by_contra lt
    have earlier := earliest i (Nat.not_le.mp lt)
    obtain ⟨inside, eq⟩ := List.getElem?_eq_some_iff.mp at_i
    rw [eq] at earlier
    simp [priority] at earlier

theorem popWork_eq_some (h : queue.popWork = some (work, queue')) :
    ∃ index, nextReadyIndex queue.queue = some index ∧ queue.queue[index]? = some work ∧
      queue'.queue = queue.queue.eraseIdx index := by
  unfold popWork at h
  split at h
  · cases h
  · obtain ⟨index, ready, removed⟩ := Option.bind_eq_some_iff.mp h
    obtain ⟨at_index, rest⟩ := remove_eq_some removed
    exact ⟨index, ready, at_index, rest⟩

theorem perm_of_popWork (h : queue.popWork = some (work, queue')) :
    queue.queue.Perm (work :: queue'.queue) := by
  obtain ⟨index, -, at_index, rest⟩ := popWork_eq_some h
  exact perm_of_eraseIdx at_index rest

theorem shutdownAndDrain_perm (queue : RemoteQueue) :
    queue.queue.Perm (queue.shutdownAndDrain.1 ++ queue.shutdownAndDrain.2.queue) := by
  simp [shutdownAndDrain, drainAll]

theorem beginMaintenance_perm (drained : List Work) (queue : RemoteQueue) :
    (drained ++ queue.queue).Perm
      (drained ++ queue.beginMaintenanceAndDrain.1 ++ queue.beginMaintenanceAndDrain.2.queue) := by
  simp [beginMaintenanceAndDrain, drainAll]

theorem closeAndDrainBackground_perm (queue : RemoteQueue) :
    queue.queue.Perm (queue.closeAndDrainBackground.1 ++
      queue.closeAndDrainBackground.2.queue) := by
  simp only [closeAndDrainBackground, List.partition_eq_filter_filter]
  exact (List.filter_append_perm _ _).symm

theorem cancel_eq_some {requestId : ℕ} (h : queue.cancel requestId = some (work, queue')) :
    queue.queue.Perm (work :: queue'.queue) ∧ queue'.queue.Sublist queue.queue := by
  obtain ⟨index, -, removed⟩ := Option.bind_eq_some_iff.mp h
  obtain ⟨at_index, rest⟩ := remove_eq_some removed
  exact ⟨perm_of_eraseIdx at_index rest, rest ▸ List.eraseIdx_sublist _ _⟩

end RemoteQueue

/-! ### The tables -/

/-- The two tables of hazards. -/
inductive Table
  | remote
  | writes

namespace Table

def pending : Table → Shared → PendingRemote
  | .remote, s => s.pendingRemote
  | .writes, s => s.pendingWrites

/-- The works a table counts. -/
def counts : Table → Work → Bool
  | .remote, _ => true
  | .writes, work => work.writeHazardRegistered

/-- The works that are in a table on account of an operation still to be done. -/
def held (table : Table) : Op → List Work
  | .clearRemote works => match table with | .remote => works | .writes => []
  | .clearWrites works => match table with | .remote => [] | .writes => works
  | .registerWrites work => match table with | .remote => [work] | .writes => []
  | .push work => [work]
  | .beginMaintenance _ drained => drained
  | .checkStart _ work | .handle _ work => [work]
  | _ => []

def hazards (table : Table) (works : List Work) : List PendingHazard :=
  (works.filter table.counts).map Work.hazard

theorem hazards_perm {works works' : List Work} (table : Table) (h : works.Perm works') :
    (table.hazards works).Perm (table.hazards works') :=
  (h.filter _).map _

theorem hazards_remote (works : List Work) : Table.remote.hazards works = works.map Work.hazard :=
  congrArg (List.map Work.hazard) (List.filter_eq_self.mpr fun _ _ => rfl)

theorem hazards_append (table : Table) (works works' : List Work) :
    table.hazards (works ++ works') = table.hazards works ++ table.hazards works' := by
  simp [hazards]

end Table

/-- The works in the two queues. -/
def Shared.queued (s : Shared) : List Work := (s.queues .read).queue ++ (s.queues .write).queue

variable {lane : RemoteLane} {queue : RemoteQueue}

/-- Works move between a queue and elsewhere. -/
theorem Shared.queued_setQueue (s : Shared) (incoming outgoing : List Work)
    (h : (incoming ++ (s.queues lane).queue).Perm (outgoing ++ queue.queue)) :
    (incoming ++ s.queued).Perm (outgoing ++ (s.setQueue lane queue).queued) := by
  cases lane with
  | read =>
    have moved := h.append_right (s.queues .write).queue
    simpa [queued, setQueue, List.append_assoc] using moved
  | write =>
    have moved := h.append_left (s.queues .read).queue
    have left := (List.perm_append_comm_assoc (s.queues .read).queue incoming
      (s.queues .write).queue).symm.trans moved
    have all := left.trans (List.perm_append_comm_assoc (s.queues .read).queue outgoing queue.queue)
    simpa [queued, setQueue] using all

variable {s s' : Shared}

theorem Shared.queued_of_queues (h : s'.queues = s.queues) : s'.queued = s.queued := by
  rw [queued, queued, h]

/-- **What an operation does to a table**: works move, are cleared, or one is registered. -/
inductive TableStep (table : Table) (s s' : Shared) (op : Op) (ops : List Op) : Prop
  | moves (same : table.pending s' = table.pending s)
      (perm : (table.held op ++ s.queued).Perm (ops.flatMap table.held ++ s'.queued))
  | clears (works : List Work) (held : table.held op = works)
      (cleared : table.pending s' = (table.pending s).clearAll (table.hazards works))
      (queues : s'.queues = s.queues) (rest : ops.flatMap table.held = [])
  | registers (work : Work) (none_held : table.held op = [])
      (held : ops.flatMap table.held = [work])
      (queues : s'.queues = s.queues)
      (registered : table.pending s' = if table.counts work then
        (table.pending s).register work.hazard else table.pending s)

theorem flatMap_held_settle (table : Table) (works : List Work) :
    (works.flatMap settle).flatMap table.held = works := by
  induction works with
  | nil => rfl
  | cons work works ih =>
    cases table <;> simp [settle, clearPending, Table.held, ih]

theorem flatMap_held_clearPending (table : Table) (works : List Work) :
    (clearPending works).flatMap table.held = works := by
  cases table <;> simp [clearPending, Table.held]

variable {table : Table} {op : Op}

/-- A drained queue: its works are about to be cleared. -/
theorem TableStep.drains {drained : List Work} (none_held : table.held op = [])
    (same : table.pending s' = table.pending s)
    (queues : s'.queues = (s.setQueue lane queue).queues)
    (perm : (s.queues lane).queue.Perm (drained ++ queue.queue)) :
    TableStep table s s' op (clearPending drained) := by
  refine .moves same ?_
  rw [none_held, flatMap_held_clearPending, Shared.queued_of_queues queues]
  exact s.queued_setQueue [] drained perm

variable {ops : List Op}

/-- Nothing moves. -/
theorem TableStep.idle (none_held : table.held op = []) (rest : ops.flatMap table.held = [])
    (same : table.pending s' = table.pending s) (queues : s'.queued = s.queued) :
    TableStep table s s' op ops := by
  refine .moves same ?_
  rw [none_held, rest, queues]

/-- A change of a queue that leaves its works. -/
theorem Shared.queued_same (s : Shared) (queue : RemoteQueue)
    (h : queue.queue = (s.queues lane).queue) : (s.setQueue lane queue).queued = s.queued := by
  cases lane <;> simp [queued, setQueue, h]

variable {stage : Stage}

/-- A stage of an update waits, or tells a worker to reset. -/
theorem maintain_eq_some (h : maintain s stage = some s') :
    s' = s ∨ (stage = .resetRead ∨ stage = .resetWrite) ∧ ∃ lane, s' = s.setQueue lane
      { s.queues lane with controls := (s.queues lane).controls + 1 } := by
  cases stage <;> simp only [maintain] at h
  case quiesceRead | quiesceWrite =>
    obtain ⟨-, eq⟩ := Option.ite_none_right_eq_some.mp h
    exact .inl (Option.some.inj eq).symm
  case resetRead | resetWrite =>
    obtain ⟨-, eq⟩ := Option.ite_none_left_eq_some.mp h
    exact .inr ⟨by simp, _, (Option.some.inj eq).symm⟩
  case awaitRead | awaitWrite | install => exact .inl (Option.some.inj h).symm

theorem maintain_queued (h : maintain s stage = some s') :
    s'.queued = s.queued ∧ s'.pendingRemote = s.pendingRemote ∧ s'.pendingWrites =
      s.pendingWrites := by
  obtain rfl | ⟨-, lane, rfl⟩ := maintain_eq_some h
  · exact ⟨rfl, rfl, rfl⟩
  · exact ⟨s.queued_same _ rfl, rfl, rfl⟩

theorem exec_table (table : Table) {choice : Choice} (h : exec s op choice = some (s', ops)) :
    TableStep table s s' op ops := by
  cases op with
  | answer | reply | interrupt | route serial request | exit lane =>
    cases h
    cases table <;> exact .idle rfl rfl rfl rfl
  | clearRemote works =>
    cases h
    cases table with
    | remote => exact .clears works rfl (by rw [Table.hazards_remote]; rfl) rfl rfl
    | writes => exact .idle rfl rfl rfl rfl
  | clearWrites works =>
    cases h
    cases table with
    | remote => exact .idle rfl rfl rfl rfl
    | writes => exact .clears works rfl rfl rfl rfl
  | shutdownDrain lane =>
    cases h
    cases table <;> exact .drains rfl rfl rfl (RemoteQueue.shutdownAndDrain_perm _)
  | closeBackground lane =>
    cases h
    cases table <;> exact .drains rfl rfl rfl (RemoteQueue.closeAndDrainBackground_perm _)
  | cancelQueued lane target serial id =>
    simp only [exec] at h
    split at h
    · rename_i work queue canceled
      cases h
      have moved := s.queued_setQueue [] [work] (RemoteQueue.cancel_eq_some canceled).1
      cases table <;> exact .moves rfl (by simpa [settle, clearPending, Table.held] using moved)
    · split at h <;> cases h <;> cases table <;> exact .idle rfl rfl rfl rfl
  | beginMaintenance lane drained =>
    cases h
    have moved := s.queued_setQueue drained
      (drained ++ (s.queues lane).beginMaintenanceAndDrain.1)
      (RemoteQueue.beginMaintenance_perm drained _)
    refine .moves (by cases table <;> rfl) ?_
    cases lane with
    | read => simpa [Table.held] using moved
    | write =>
      simp only [List.flatMap_append, flatMap_held_settle]
      simpa [Table.held] using moved
  | maintain stage =>
    simp only [exec] at h
    split at h
    · cases h
      cases table <;> exact .idle rfl rfl rfl rfl
    · obtain ⟨after, maintained, eq⟩ := Option.map_eq_some_iff.mp h
      cases eq
      obtain ⟨queued, remote, writes⟩ := maintain_queued maintained
      have rest : ((stage.next.map Op.maintain).toList).flatMap table.held = [] := by
        cases stage.next <;> rfl
      cases table with
      | remote => exact .idle rfl rest remote queued
      | writes => exact .idle rfl rest writes queued
  | endMaintenance lane | finishStarted lane =>
    cases h
    cases table <;> exact .idle rfl rfl rfl (s.queued_same _ rfl)
  | registerRemote work =>
    cases h
    cases table with
    | remote => exact .registers work rfl rfl rfl rfl
    | writes => exact .idle rfl rfl rfl rfl
  | registerWrites work =>
    cases h
    cases table with
    | remote =>
      by_cases registered : work.writeHazardRegistered = true
      · rw [if_pos registered]
        exact .moves rfl (List.Perm.refl _)
      · rw [if_neg registered]
        exact .moves rfl (List.Perm.refl _)
    | writes =>
      by_cases registered : work.writeHazardRegistered = true
      · rw [if_pos registered]
        exact .registers work rfl rfl rfl (if_pos registered).symm
      · rw [if_neg registered]
        exact .registers work rfl rfl rfl (if_neg registered).symm
  | push work =>
    simp only [exec] at h
    split at h
    · rename_i canceled queue pushed
      cases h
      obtain ⟨perm, -⟩ := RemoteQueue.tryPush_eq_some pushed
      have moved := s.queued_setQueue [work] canceled
        ((List.perm_append_singleton _ _).symm.trans perm)
      refine .moves (by cases table <;> rfl) ?_
      have answers : (canceled.map fun work => Op.answer (preemptedClientResponse work)).flatMap
          table.held = [] := by
        simp [List.flatMap_map, Table.held]
      rw [List.flatMap_append, flatMap_held_clearPending, answers, List.append_nil]
      exact moved
    · cases h
      cases table <;> exact .moves rfl (List.Perm.refl _)
  | join lane =>
    simp only [exec] at h
    split at h
    · cases h
      cases table <;> exact .idle rfl rfl rfl rfl
    · cases h
  | checkStart lane work =>
    simp only [exec] at h
    split at h <;> cases h <;> cases table <;> exact .moves rfl (List.Perm.refl _)
  | handle lane work =>
    cases h
    cases table <;> exact .moves rfl (List.Perm.refl _)
  | checkEnd lane =>
    cases h
    cases table <;> refine .idle rfl ?_ rfl rfl <;> split <;> rfl

/-! ### The tables count the works in the session -/

namespace Server

/-- The works that are in a table on account of what the threads still have to do. -/
def held (server : Server) (table : Table) : List Work :=
  (server.session ++ server.workers .read ++ server.workers .write).flatMap table.held

end Server

/-- **A table counts the works that are queued or held.** -/
def HazardInv (server : Server) : Prop :=
  ∀ table : Table,
    (table.pending server.shared).Counts (table.hazards (server.held table ++ server.shared.queued))

/-- An operation keeps a table exact, whatever else is in it. -/
theorem TableStep.counts (step : TableStep table s s' op ops) {others : List Work}
    (h : (table.pending s).Counts (table.hazards (others ++ (table.held op ++ s.queued)))) :
    (table.pending s').Counts
      (table.hazards (others ++ (ops.flatMap table.held ++ s'.queued))) := by
  cases step with
  | moves same perm =>
    rw [same]
    exact h.perm (table.hazards_perm (perm.append_left others))
  | clears works held cleared queues rest =>
    rw [cleared, rest, Shared.queued_of_queues queues, List.nil_append]
    refine PendingRemote.Counts.clearAll _ _ ?_
    rw [← Table.hazards_append]
    rw [held] at h
    exact h.perm (table.hazards_perm (List.perm_append_comm_assoc _ _ _))
  | registers work none_held held queues registered =>
    rw [registered, held, Shared.queued_of_queues queues]
    rw [none_held, List.nil_append] at h
    have front : (table.hazards (work :: (others ++ s.queued))).Perm
        (table.hazards (others ++ ([work] ++ s.queued))) :=
      table.hazards_perm List.perm_middle.symm
    split
    · rename_i counted
      have more := h.register work.hazard
      refine PendingRemote.Counts.perm ?_ front
      rw [Table.hazards, List.filter_cons_of_pos counted]
      exact more
    · rename_i uncounted
      refine PendingRemote.Counts.perm ?_ front
      rw [Table.hazards, List.filter_cons_of_neg uncounted]
      exact h

theorem lineOps_held (table : Table) (serial : ℕ) (request : ClientRequest) (choice : LineChoice) :
    (lineOps serial request choice).flatMap table.held = [] := by
  unfold lineOps
  repeat' split
  all_goals cases table <;> rfl

/-- The works of one list of operations of a session, and all the others. -/
theorem perm_rotate (before ops after queued : List Work) :
    (before ++ ops ++ after ++ queued).Perm (before ++ after ++ (ops ++ queued)) := by
  simp only [List.append_assoc]
  exact (List.perm_append_comm_assoc ops after queued).append_left before

namespace HazardInv

variable {server server' : Server}

theorem start : HazardInv Server.start := fun table => by
  cases table <;> exact PendingRemote.Counts.new

/-- Nothing is held for the lines that are read. -/
theorem reads (h : HazardInv server) (idle : server.session = [])
    (shared : server'.shared = server.shared) (workers : server'.workers = server.workers)
    (session : ∀ table : Table, server'.session.flatMap table.held = []) : HazardInv server' := by
  intro table
  have counts := h table
  rw [Server.held, idle] at counts
  rw [Server.held, shared, workers, List.append_assoc, List.flatMap_append, session table]
  exact counts

/-- One thread goes on; `before` and `after` are what the other threads have to do. -/
theorem goes_on (before rest after : List Op) (step : TableStep table s s' op ops)
    (h : (table.pending s).Counts (table.hazards
      ((before ++ op :: rest ++ after).flatMap table.held ++ s.queued))) :
    (table.pending s').Counts (table.hazards
      ((before ++ (ops ++ rest) ++ after).flatMap table.held ++ s'.queued)) := by
  have rotated : ∀ (now : List Op) (queued : List Work),
      ((before ++ (now ++ rest) ++ after).flatMap table.held ++ queued).Perm
        (before.flatMap table.held ++ (rest ++ after).flatMap table.held ++
          (now.flatMap table.held ++ queued)) := by
    intro now queued
    simp only [List.flatMap_append, List.append_assoc]
    refine List.Perm.append_left _ ?_
    have moved := perm_rotate [] (now.flatMap table.held)
      (rest.flatMap table.held ++ after.flatMap table.held) queued
    simpa using moved
  have front := h.perm (table.hazards_perm (rotated [op] s.queued))
  rw [List.flatMap_singleton] at front
  exact (step.counts front).perm (table.hazards_perm (rotated ops s'.queued).symm)

variable {work : Work}

/-- A worker takes a work from its queue. -/
theorem starts (h : HazardInv server) {queue : RemoteQueue} (idle : server.workers lane = [])
    (popped : (server.shared.queues lane).popWork = some (work, queue)) :
    HazardInv { server with
      shared := server.shared.setQueue lane queue
      workers := Function.update server.workers lane [.checkStart lane work] } := by
  have moved : server.shared.queued.Perm ([work] ++ (server.shared.setQueue lane queue).queued) :=
    server.shared.queued_setQueue [] [work] (RemoteQueue.perm_of_popWork popped)
  intro table
  have counts := h table
  have same : table.pending (server.shared.setQueue lane queue) = table.pending server.shared := by
    cases table <;> rfl
  refine same ▸ counts.perm (table.hazards_perm ?_)
  cases lane with
  | read =>
    have front := moved.append_left
      (server.session.flatMap table.held ++ (server.workers .write).flatMap table.held)
    have back := front.trans (perm_rotate _ _ _ _).symm
    simpa [Server.held, idle, Table.held] using back
  | write =>
    have front := moved.append_left
      (server.session.flatMap table.held ++ (server.workers .read).flatMap table.held)
    simpa [Server.held, idle, Table.held] using front

theorem turn (step : Server.Turn server server') (h : HazardInv server) : HazardInv server' := by
  cases step with
  | line request choice waits =>
    refine h.reads (Server.session_of_waits waits) (Server.readLine_shared _ _ _)
      (Server.readLine_workers _ _ _) fun table => ?_
    rw [Server.readLine_session]
    exact lineOps_held table _ request choice
  | badLine error waits | endOfInput waits =>
    exact h.reads (Server.session_of_waits waits) rfl rfl fun table => by cases table <;> rfl
  | session op rest choice shared ops eq executed =>
    intro table
    have counts := h table
    rw [Server.held, eq, List.append_assoc] at counts
    have gone := goes_on [] rest _ (exec_table table executed) counts
    simpa [Server.held] using gone
  | worker lane op rest choice shared ops eq executed =>
    intro table
    have counts := h table
    cases lane with
    | read =>
      rw [Server.held, eq] at counts
      have gone := goes_on _ rest _ (exec_table table executed) counts
      simpa [Server.held] using gone
    | write =>
      rw [Server.held, eq, ← List.append_nil (_ ++ op :: rest)] at counts
      have gone := goes_on _ rest _ (exec_table table executed) counts
      simpa [Server.held] using gone
  | control lane idle alive some_control =>
    intro table
    have counts := h table
    rw [← server.shared.queued_same { server.shared.queues lane with
      controls := (server.shared.queues lane).controls - 1 } rfl] at counts
    cases table <;> exact counts
  | starts lane work queue idle alive popped => exact h.starts idle popped
  | exits lane idle alive nothing closed =>
    intro table
    have counts := h table
    cases table <;> exact counts

theorem run {moves : List Server.Move} (ran : Server.start.run moves = some server) :
    HazardInv server :=
  Server.run_preserves turn ran start

/-- **A conflict with an outstanding save is a conflict with the table.** -/
theorem conflicts (h : HazardInv server) (mem : work ∈ server.outstanding lane)
    (registered : work.writeHazardRegistered = true) {interest : RequestInterest}
    (conflict : work.hazard.conflictsWithInterest interest = true) :
    server.shared.pendingWrites.conflictsWithInterest interest = true := by
  refine (h .writes).conflicts ?_ conflict
  refine List.mem_map_of_mem (List.mem_filter.mpr ⟨?_, registered⟩)
  rcases List.mem_append.mp mem with queued | running
  · refine List.mem_append_right _ (List.mem_append.mpr ?_)
    cases lane with
    | read => exact .inl queued
    | write => exact .inr queued
  · obtain ⟨op, inWorker, runs⟩ := List.mem_filterMap.mp running
    refine List.mem_append_left _ (List.mem_flatMap.mpr ⟨op, ?_, ?_⟩)
    · cases lane with
      | read => exact List.mem_append_left _ (List.mem_append_right _ inWorker)
      | write => exact List.mem_append_right _ inWorker
    · cases op <;> cases runs <;> exact List.mem_singleton_self _

end HazardInv

end RemoteMirror.Lanes
