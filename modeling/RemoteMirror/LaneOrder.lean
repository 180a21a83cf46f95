/-
**A request that may see a pending save waits for it.**

The table of pending saves is exact when a request is routed.  So a request that is interested in
what an earlier save may change finds that save in the table, and is put behind it on the write
lane.  There it stays behind: a save that others may have to wait for is interactive, interactive
works start in order, and a background work overtakes an interactive one only from before it.  The
further pages of a grep session are the exception; they always go to the read lane.

Main definitions:

* `Lanes.WorkStep` — what a move does to the works;
* `Lanes.OrderInv` — where works are, and in which order.

Main results:

* `Lanes.Server.Turn.works` — what every move does to the works;
* `Lanes.OrderInv.run` — **the order holds in every run**;
* `Lanes.tables_count_outstanding` — **the tables count the works that are queued or running**;
* `Lanes.conflicting_request_waits` — **a request starts only after the earlier saves it
  conflicts with**.
-/

import RemoteMirror.LaneTables

namespace RemoteMirror.Lanes

/-! ### Where works are -/

namespace Op

/-- The line a new work comes from. -/
def newcomer : Op → Option ℕ
  | .route serial _ => some serial
  | .registerRemote work | .registerWrites work | .push work => some work.serial
  | _ => none

/-- A new work that is not in a queue yet. -/
def incoming : Op → Option Work
  | .registerRemote work | .registerWrites work | .push work => some work
  | _ => none

/-- The work an operation puts into the queue of a lane. -/
def pushes (lane : RemoteLane) : Op → List Work
  | .push work => if work.lane = lane then [work] else []
  | _ => []

end Op

theorem incoming_serials (ops : List Op) :
    ((ops.filterMap Op.incoming).map Work.serial).Sublist (ops.filterMap Op.newcomer) := by
  induction ops with
  | nil => exact List.Sublist.refl _
  | cons op ops ih =>
    cases op
    case route => exact ih.cons _
    case registerRemote | registerWrites | push => exact ih.cons_cons _
    all_goals exact ih

variable {changed : RemoteLane}

/-- The works of a queue that is changed, and those of the other. -/
theorem Shared.setQueue_sublist (s : Shared) (op : Op) {queue : RemoteQueue}
    (h : queue.queue.Sublist ((s.queues changed).queue ++ op.pushes changed)) (lane : RemoteLane) :
    ((s.setQueue changed queue).queues lane).queue.Sublist ((s.queues lane).queue ++
      op.pushes lane) := by
  rw [setQueue_queues, Function.update_apply]
  split
  case isTrue eq => exact eq ▸ h
  case isFalse => exact List.sublist_append_left _ _

variable {s' s : Shared}

theorem maintain_sublist {stage : Stage} (h : maintain s stage = some s') (lane : RemoteLane) :
    (s'.queues lane).queue = (s.queues lane).queue := by
  obtain rfl | ⟨-, changed, rfl⟩ := maintain_eq_some h
  · rfl
  · cases changed <;> cases lane <;> rfl

variable {op : Op} {ops : List Op} {choice : Choice}

/-- **What an operation does to the queues**: works leave, or one is pushed. -/
theorem exec_queue (h : exec s op choice = some (s', ops)) (lane : RemoteLane) :
    (s'.queues lane).queue.Sublist ((s.queues lane).queue ++ op.pushes lane) := by
  have kept : (s.queues lane).queue.Sublist ((s.queues lane).queue ++ op.pushes lane) :=
    List.sublist_append_left _ _
  cases op with
  | shutdownDrain changed | beginMaintenance changed drained =>
    cases h
    exact s.setQueue_sublist _ (List.nil_sublist _) lane
  | closeBackground changed =>
    cases h
    refine s.setQueue_sublist (.closeBackground changed) ?_ lane
    simp only [RemoteQueue.closeAndDrainBackground, List.partition_eq_filter_filter]
    exact List.filter_sublist.trans (List.sublist_append_left _ _)
  | endMaintenance changed | finishStarted changed =>
    cases h
    refine s.setQueue_sublist _ ?_ lane
    exact List.sublist_append_left (s.queues changed).queue _
  | cancelQueued changed target serial id =>
    simp only [exec] at h
    split at h
    · rename_i work queue canceled
      cases h
      refine s.setQueue_sublist (.cancelQueued changed target serial id) ?_ lane
      exact (RemoteQueue.cancel_eq_some canceled).2.trans (List.sublist_append_left _ _)
    · split at h <;> cases h <;> exact kept
  | push work =>
    simp only [exec] at h
    split at h
    · rename_i canceled queue pushed
      cases h
      refine s.setQueue_sublist (.push work) ?_ lane
      rw [Op.pushes, if_pos rfl]
      exact (RemoteQueue.tryPush_eq_some pushed).2.1
    · cases h
      exact kept
  | maintain stage =>
    simp only [exec] at h
    split at h
    · cases h
      exact kept
    · obtain ⟨after, maintained, eq⟩ := Option.map_eq_some_iff.mp h
      cases eq
      rw [maintain_sublist maintained lane]
      exact kept
  | registerWrites work =>
    cases h
    split <;> exact kept
  | join changed =>
    obtain ⟨-, eq⟩ := Option.ite_none_right_eq_some.mp h
    cases eq
    exact kept
  | checkStart changed work =>
    simp only [exec] at h
    split at h <;> cases h <;> exact kept
  | answer | reply | clearRemote | clearWrites | interrupt | route | registerRemote
  | handle | checkEnd
  | exit =>
    cases h
    exact kept

/-- An operation that carries no work to or from a queue. -/
def Op.Bare (op : Op) : Prop := op.newcomer = none ∧ op.running = none

/-- **What follows an operation**: a new work comes closer to its queue, a work starts, or neither.
-/
inductive Follow (s s' : Shared) (op : Op) (ops : List Op) : Prop
  | routes (serial : ℕ) (request : ClientRequest) (routed : op = .route serial request)
    (same : s' = s)
      (next : ops = [.registerRemote (workFor serial request s.pendingWrites)])
  | passes (work : Work) (next : Op) (at_op : op.incoming = some work)
      (at_next : next.incoming = some work) (pushes : ∀ lane, op.pushes lane = [])
      (eq : ops = [next])
  | handles (lane : RemoteLane) (work : Work) (checked : op = .checkStart lane work)
      (next : ops = [.handle lane work])
  | bare (bare : ∀ next ∈ ops, next.Bare)

theorem bare_settle (works : List Work) : ∀ next ∈ works.flatMap settle, next.Bare := by
  intro next mem
  obtain ⟨work, -, inSettle⟩ := List.mem_flatMap.mp mem
  simp only [settle, clearPending, List.cons_append, List.nil_append, List.mem_cons,
    List.not_mem_nil, or_false] at inSettle
  rcases inSettle with rfl | rfl | rfl <;> exact ⟨rfl, rfl⟩

theorem exec_follow (h : exec s op choice = some (s', ops)) : Follow s s' op ops := by
  cases op with
  | route serial request =>
    cases h
    exact .routes serial request rfl rfl rfl
  | registerRemote work | registerWrites work =>
    cases h
    exact .passes work _ rfl rfl (fun _ => rfl) rfl
  | checkStart lane work =>
    simp only [exec] at h
    split at h
    · cases h
      exact .bare (by simp [clearPending, Op.Bare, Op.newcomer, Op.running])
    · cases h
      exact .handles lane work rfl rfl
  | cancelQueued lane target serial id =>
    simp only [exec] at h
    split at h
    · cases h
      exact .bare (by simp [settle, clearPending, Op.Bare, Op.newcomer, Op.running])
    · split at h <;> cases h <;> exact .bare (by simp [Op.Bare, Op.newcomer, Op.running])
  | beginMaintenance lane drained =>
    cases h
    cases lane with
    | read => exact .bare (by simp [Op.Bare, Op.newcomer, Op.running])
    | write =>
      refine .bare fun next mem => ?_
      rcases List.mem_append.mp mem with inSettle | last
      · exact bare_settle _ next inSettle
      · cases List.mem_singleton.mp last
        exact ⟨rfl, rfl⟩
  | maintain stage =>
    simp only [exec] at h
    split at h
    · cases h
      exact .bare (by simp)
    · obtain ⟨after, maintained, eq⟩ := Option.map_eq_some_iff.mp h
      cases eq
      cases stage <;> exact .bare (by simp [Stage.next, Op.Bare, Op.newcomer, Op.running])
  | push work =>
    simp only [exec] at h
    split at h
    · cases h
      refine .bare fun next mem => ?_
      simp only [clearPending, List.cons_append, List.nil_append, List.mem_cons,
        List.mem_map] at mem
      rcases mem with rfl | rfl | ⟨canceled, -, rfl⟩ <;> exact ⟨rfl, rfl⟩
    · cases h
      exact .bare (by simp [clearPending, Op.Bare, Op.newcomer, Op.running])
  | join lane =>
    obtain ⟨-, eq⟩ := Option.ite_none_right_eq_some.mp h
    cases eq
    exact .bare (by simp)
  | checkEnd lane =>
    cases h
    split <;> exact .bare (by simp [Op.Bare, Op.newcomer, Op.running])
  | shutdownDrain | closeBackground | handle =>
    cases h
    exact .bare (by simp [clearPending, Op.Bare, Op.newcomer, Op.running])
  | answer | reply | clearRemote | clearWrites | interrupt | endMaintenance
  | finishStarted | exit =>
    cases h
    exact .bare (by simp)

namespace Server

/-- The lines whose works are not in a queue yet. -/
def newcomers (server : Server) : List ℕ := server.session.filterMap Op.newcomer

/-- The works that are not in a queue yet. -/
def incoming (server : Server) : List Work := server.session.filterMap Op.incoming

/-- The workers have no new works. -/
def Settled (server : Server) : Prop := ∀ lane, ∀ op ∈ server.workers lane, op.newcomer = none

end Server

/-- **What a move does to the works.** -/
inductive WorkStep (server server' : Server) : Prop
  | keeps
      (queues : ∀ lane, (server'.shared.queues lane).queue.Sublist
      (server.shared.queues lane).queue)
      (running : ∀ lane, (server'.running lane).Sublist (server.running lane))
      (newcomers : server'.newcomers.Sublist server.newcomers)
      (incoming : ∀ work ∈ server'.incoming, work ∈ server.incoming)
      (lines : server.lines.length ≤ server'.lines.length)
  | arrives (outstanding : ∀ lane, server'.outstanding lane = server.outstanding lane)
      (queues : server'.shared.queues = server.shared.queues)
      (workers : server'.workers = server.workers)
      (newcomers : server'.newcomers = [server.lines.length]) (incoming : server'.incoming = [])
      (lines : server'.lines.length = server.lines.length + 1)
  | routes (serial : ℕ) (request : ClientRequest) (shared : server'.shared = server.shared)
      (workers : server'.workers = server.workers) (newcomers : server'.newcomers =
      server.newcomers)
      (routed : serial ∈ server.newcomers)
      (incoming : server'.incoming =
        workFor serial request server.shared.pendingWrites :: server.incoming)
      (lines : server'.lines = server.lines)
  | pushes (work : Work) (newcomers : server.newcomers = work.serial :: server'.newcomers)
      (incoming : server.incoming = work :: server'.incoming)
      (queues : ∀ lane, (server'.shared.queues lane).queue.Sublist
        ((server.shared.queues lane).queue ++ if work.lane = lane then [work] else []))
      (workers : server'.workers = server.workers) (lines : server'.lines = server.lines)
  | starts (lane : RemoteLane) (work : Work) (index : ℕ) (idle : server.workers lane = [])
      (running : server'.workers = Function.update server.workers lane [.checkStart lane work])
      (ready : RemoteQueue.nextReadyIndex (server.shared.queues lane).queue = some index)
      (at_index : (server.shared.queues lane).queue[index]? = some work)
      (queue : (server'.shared.queues lane).queue =
        (server.shared.queues lane).queue.eraseIdx index)
      (others : ∀ other, other ≠ lane → server'.shared.queues other = server.shared.queues other)
      (session : server'.session = server.session) (lines : server'.lines = server.lines)

theorem lineOps_newcomers (serial : ℕ) (request : ClientRequest) (choice : LineChoice) :
    (lineOps serial request choice).filterMap Op.incoming = [] ∧
      ((lineOps serial request choice).filterMap Op.newcomer = [] ∨
        (lineOps serial request choice).filterMap Op.newcomer = [serial]) := by
  unfold lineOps
  repeat' split
  all_goals first
    | exact ⟨rfl, .inl rfl⟩
    | exact ⟨rfl, .inr rfl⟩

variable {work : Work}

theorem newcomer_of_incoming (h : op.incoming = some work) : op.newcomer = some work.serial := by
  cases op <;> cases h <;> rfl

theorem pushes_of_newcomer (h : op.newcomer = none) (lane : RemoteLane) : op.pushes lane = [] := by
  cases op <;> first | rfl | cases h

theorem incoming_of_newcomer (h : op.newcomer = none) : op.incoming = none := by
  cases op <;> first | rfl | cases h

section bare

variable {ops : List Op} (bare : ∀ next ∈ ops, next.Bare)

include bare

theorem newcomers_of_bare : ops.filterMap Op.newcomer = [] :=
  List.filterMap_eq_nil_iff.mpr fun next mem => (bare next mem).1

theorem incoming_of_bare : ops.filterMap Op.incoming = [] :=
  List.filterMap_eq_nil_iff.mpr fun next mem => incoming_of_newcomer (bare next mem).1

theorem running_of_bare : ops.filterMap Op.running = [] :=
  List.filterMap_eq_nil_iff.mpr fun next mem => (bare next mem).2

end bare

variable {server server' : Server}

theorem Server.running_sublist (workers : server'.workers =
    Function.update server.workers changed ops)
    (h : (ops.filterMap Op.running).Sublist (server.running changed)) (lane : RemoteLane) :
    (server'.running lane).Sublist (server.running lane) := by
  rw [running, workers, Function.update_apply]
  split
  case isTrue eq => exact eq ▸ h
  case isFalse => exact List.Sublist.refl _

theorem Server.Settled.update (settled : server.Settled)
    (workers : server'.workers = Function.update server.workers changed ops)
    (h : ∀ op ∈ ops, op.newcomer = none) : server'.Settled := by
  intro lane op mem
  rw [workers, Function.update_apply] at mem
  split at mem
  case isTrue => exact h op mem
  case isFalse => exact settled lane op mem

namespace Server.Turn

variable {server server' : Server} {rest : List Op} {shared : Shared} {choice : Choice}

theorem session_works (eq : server.session = op :: rest)
    (executed : exec server.shared op choice = some (shared, ops)) :
    WorkStep server { server with shared, session := ops ++ rest } := by
  have queues := exec_queue executed
  have same : ∀ lane, (server.running lane).Sublist (server.running lane) :=
    fun _ => List.Sublist.refl _
  cases exec_follow executed with
  | routes serial request routed shared_same next =>
    subst routed shared_same next
    exact .routes serial request rfl rfl (by simp [newcomers, eq, Op.newcomer, workFor])
      (by simp [newcomers, eq, Op.newcomer]) (by rw [Server.incoming, Server.incoming, eq]; rfl) rfl
  | passes work next at_op at_next pushes next_eq =>
    subst next_eq
    refine .keeps (fun lane => ?_) same ?_ ?_ (Nat.le_refl _)
    · have pushed := queues lane
      rwa [pushes lane, List.append_nil] at pushed
    · simp [newcomers, eq, newcomer_of_incoming at_op, newcomer_of_incoming at_next]
    · simp [Server.incoming, eq, at_op, at_next]
  | handles lane work checked next =>
    subst checked next
    refine .keeps (fun lane => ?_) same ?_ ?_ (Nat.le_refl _)
    · simpa [Op.pushes] using queues lane
    · rw [newcomers, newcomers, eq]
      exact List.Sublist.refl _
    · rw [Server.incoming, Server.incoming, eq]
      exact fun work mem => mem
  | bare bare =>
    have no_newcomers := newcomers_of_bare bare
    have no_incoming := incoming_of_bare bare
    by_cases new : op.newcomer = none
    · refine .keeps (fun lane => ?_) same ?_ ?_ (Nat.le_refl _)
      · have pushed := queues lane
        rwa [pushes_of_newcomer new, List.append_nil] at pushed
      · simp [newcomers, eq, new, no_newcomers]
      · simp [Server.incoming, eq, incoming_of_newcomer new, no_incoming]
    · cases op
      case push work =>
        exact .pushes work (by simp [newcomers, eq, Op.newcomer, no_newcomers])
          (by simp [Server.incoming, eq, Op.incoming, no_incoming]) queues rfl rfl
      case route | registerRemote | registerWrites =>
        cases executed
        cases (bare _ List.mem_cons_self).1
      all_goals exact absurd rfl new

theorem worker_works {lane : RemoteLane} (settled : server.Settled)
    (eq : server.workers lane = op :: rest) (executed : exec server.shared op choice =
      some (shared, ops)) :
    let server' :=
  { server with shared, workers := Function.update server.workers lane (ops ++ rest) }
    WorkStep server server' ∧ server'.Settled := by
  have new : op.newcomer = none := settled lane op (eq ▸ List.mem_cons_self)
  have old : ∀ next ∈ rest, next.newcomer = none := fun next mem =>
    settled lane next (eq ▸ List.mem_cons_of_mem op mem)
  have queues : ∀ lane, (shared.queues lane).queue.Sublist (server.shared.queues lane).queue := by
    intro lane
    have pushed := exec_queue executed lane
    rwa [pushes_of_newcomer new, List.append_nil] at pushed
  -- nothing new comes from an operation without a newcomer, and only what it runs can go on
  have follow : (∀ next ∈ ops, next.newcomer = none) ∧
      (ops.filterMap Op.running).Sublist (op.running.toList) := by
    cases exec_follow executed with
    | routes serial request routed =>
      subst routed
      cases new
    | passes work next at_op =>
      rw [newcomer_of_incoming at_op] at new
      cases new
    | handles lane work checked next =>
      subst checked next
      exact ⟨by simp [Op.newcomer], List.Sublist.refl _⟩
    | bare bare =>
      exact ⟨fun next mem => (bare next mem).1, running_of_bare bare ▸ List.nil_sublist _⟩
  refine ⟨.keeps queues ?_ (List.Sublist.refl _) (fun _ mem => mem) (Nat.le_refl _), ?_⟩
  · refine Server.running_sublist rfl ?_
    rw [Server.running, eq, List.filterMap_append]
    have whole := follow.2.append_right (rest.filterMap Op.running)
    cases running : op.running <;> simpa [running] using whole
  · exact settled.update rfl fun next mem => (List.mem_append.mp mem).elim (follow.1 next)
      (old next)

/-- Every move is one of these, and the workers never get new works from the session. -/
theorem works (step : Turn server server') (settled : server.Settled) :
    WorkStep server server' ∧ server'.Settled := by
  cases step with
  | line request choice waits =>
    have idle := session_of_waits waits
    obtain ⟨no_incoming, new⟩ := lineOps_newcomers server.lines.length request choice
    refine ⟨?_, fun lane op mem => settled lane op (by simpa using mem)⟩
    rcases new with no_newcomers | newcomer
    · refine .keeps (fun lane => ?_) (fun lane => ?_) ?_ ?_ ?_
      · rw [readLine_shared]
      · rw [Server.running, readLine_workers, Server.running]
      · simp [newcomers, no_newcomers]
      · simp [Server.incoming, no_incoming]
      · simp
    · refine .arrives (fun lane => ?_) ?_ ?_ ?_ ?_ ?_
      · simp [outstanding, Server.running]
      · rw [readLine_shared]
      · rw [readLine_workers]
      · simp [newcomers, newcomer]
      · simp [Server.incoming, no_incoming]
      · simp
  | badLine error waits | endOfInput waits =>
    exact ⟨.keeps (fun _ => List.Sublist.refl _) (fun _ => List.Sublist.refl _) (List.nil_sublist _)
      (fun work mem => nomatch mem) (Nat.le_refl _), settled⟩
  | session op rest choice shared ops eq executed => exact ⟨session_works eq executed, settled⟩
  | worker lane op rest choice shared ops eq executed => exact worker_works settled eq executed
  | control lane idle alive some_control =>
    refine ⟨.keeps (fun other => ?_) (fun _ => List.Sublist.refl _) (List.Sublist.refl _)
      (fun _ mem => mem) (Nat.le_refl _), settled⟩
    rw [Shared.setQueue_queues, Function.update_apply]
    split
    case isTrue same => rw [same]
    case isFalse => exact List.Sublist.refl _
  | starts lane work queue idle alive popped =>
    obtain ⟨index, ready, at_index, rest⟩ := RemoteQueue.popWork_eq_some popped
    refine ⟨.starts lane work index idle rfl ready at_index ?_ ?_ rfl rfl, ?_⟩
    · rw [Shared.setQueue_queues, Function.update_self, rest]
    · intro other ne
      exact Function.update_of_ne ne _ _
    · exact settled.update rfl fun op mem => List.mem_singleton.mp mem ▸ rfl
  | exits lane idle alive nothing closed =>
    exact ⟨.keeps (fun _ => List.Sublist.refl _) (fun _ => List.Sublist.refl _)
      (List.Sublist.refl _)
      (fun _ mem => mem) (Nat.le_refl _), settled⟩

end Server.Turn

/-! ### The order of works -/

/-- A work as it comes from a request, on its lane. -/
structure Work.Proper (work : Work) (lane : RemoteLane) : Prop where
  hazard : work.hazard = PendingHazard.forRequest work.request
  priority : work.priority = RemotePriority.forRequest work.request
  registered : work.writeHazardRegistered = work.request.isWriteLane
  on_lane : work.lane = lane
  save : work.request.isWriteLane = true → lane = .write

theorem workFor_proper (serial : ℕ) (request : ClientRequest) (pending : PendingRemote) :
    (workFor serial request pending).Proper (workFor serial request pending).lane where
  hazard := rfl
  priority := rfl
  registered := rfl
  on_lane := rfl
  save := fun save => if_pos save

/-- `later` does not have to wait for `earlier`. -/
def Work.Clear (earlier later : Work) : Prop :=
  earlier.serial < later.serial → earlier.request.isWriteLane = true →
    earlier.blocksLater later = false

/-- **Where works are, and in which order.** -/
structure OrderInv (server : Server) : Prop where
  settled : server.Settled
  newcomers : server.newcomers.length ≤ 1
  running : ∀ lane, (server.running lane).length ≤ 1
  proper : ∀ lane, ∀ work ∈ server.outstanding lane, work.Proper lane
  proper_incoming : ∀ work ∈ server.incoming, work.Proper work.lane
  old : ∀ lane, ∀ work ∈ server.outstanding lane, work.serial < server.lines.length
  old_incoming : ∀ serial ∈ server.newcomers, serial < server.lines.length
  newest : ∀ lane, ∀ work ∈ server.outstanding lane, ∀ serial ∈ server.newcomers,
    work.serial < serial
  sorted : ∀ lane, (server.shared.queues lane).queue.Pairwise fun a b => a.serial < b.serial
  /-- on the read lane nothing waits for a save -/
  read : ∀ later, later ∈ server.outstanding .read ∨ later ∈ server.incoming ∧ later.lane = .read →
    later.request.continuesGrep = false → ∀ earlier ∈ server.outstanding .write, earlier.Clear later
  /-- on the write lane nothing starts that has to wait for a save -/
  write : ∀ later ∈ server.running .write, ∀ earlier ∈ (server.shared.queues .write).queue,
    earlier.Clear later

theorem Server.mem_outstanding {lane : RemoteLane} : work ∈ server.outstanding lane ↔
      work ∈ (server.shared.queues lane).queue ∨ work ∈ server.running lane :=
  List.mem_append

namespace OrderInv

variable {server server' : Server}

theorem start : OrderInv Server.start where
  settled := nofun
  newcomers := Nat.zero_le _
  running := fun _ => Nat.zero_le _
  proper := nofun
  proper_incoming := nofun
  old := nofun
  old_incoming := nofun
  newest := nofun
  sorted := fun _ => List.Pairwise.nil
  read := nofun
  write := nofun

/-- Works leave. -/
theorem keeps (h : OrderInv server) (settled : server'.Settled)
    (queues : ∀ lane, (server'.shared.queues lane).queue.Sublist (server.shared.queues lane).queue)
    (running : ∀ lane, (server'.running lane).Sublist (server.running lane))
    (newcomers : server'.newcomers.Sublist server.newcomers)
    (incoming : ∀ work ∈ server'.incoming, work ∈ server.incoming)
    (lines : server.lines.length ≤ server'.lines.length) : OrderInv server' := by
  have outstanding : ∀ lane, ∀ work ∈ server'.outstanding lane, work ∈ server.outstanding lane :=
    fun lane work mem => Server.mem_outstanding.mpr ((Server.mem_outstanding.mp mem).imp
      (fun mem => (queues lane).subset mem) fun mem => (running lane).subset mem)
  exact {
    settled
    newcomers := Nat.le_trans newcomers.length_le h.newcomers
    running := fun lane => Nat.le_trans (running lane).length_le (h.running lane)
    proper := fun lane work mem => h.proper lane work (outstanding lane work mem)
    proper_incoming := fun work mem => h.proper_incoming work (incoming work mem)
    old :=
      fun lane work mem => Nat.lt_of_lt_of_le (h.old lane work (outstanding lane work mem)) lines
    old_incoming := fun serial mem =>
      Nat.lt_of_lt_of_le (h.old_incoming serial (newcomers.subset mem)) lines
    newest := fun lane work mem serial new =>
      h.newest lane work (outstanding lane work mem) serial (newcomers.subset new)
    sorted := fun lane => (h.sorted lane).sublist (queues lane)
    read := fun later there first earlier mem =>
      h.read later (there.imp (outstanding .read later) fun ⟨new, lane⟩ =>
        ⟨incoming later new, lane⟩)
        first earlier (outstanding .write earlier mem)
    write := fun later there earlier mem =>
      h.write later ((running .write).subset there) earlier ((queues .write).subset mem) }

/-- The works do not change, but new ones are announced. -/
theorem announces (h : OrderInv server) (queues : server'.shared.queues = server.shared.queues)
    (workers : server'.workers = server.workers) (newcomers : server'.newcomers.length ≤ 1)
    (proper_incoming : ∀ work ∈ server'.incoming, work.Proper work.lane)
    (lines : server.lines.length ≤ server'.lines.length)
    (old_incoming : ∀ serial ∈ server'.newcomers, serial < server'.lines.length)
    (newest : ∀ lane, ∀ work ∈ server.outstanding lane, ∀ serial ∈ server'.newcomers,
      work.serial < serial)
    (read : ∀ later ∈ server'.incoming, later.lane = .read → later.request.continuesGrep = false →
      ∀ earlier ∈ server.outstanding .write, earlier.Clear later) : OrderInv server' := by
  have running : ∀ lane, server'.running lane = server.running lane := fun lane => by
    rw [Server.running, workers, Server.running]
  have outstanding : ∀ lane, server'.outstanding lane = server.outstanding lane := fun lane => by
    rw [Server.outstanding, queues, running, Server.outstanding]
  exact {
    settled := fun lane op mem => h.settled lane op (workers ▸ mem)
    newcomers
    running := fun lane => running lane ▸ h.running lane
    proper := fun lane work mem => h.proper lane work (outstanding lane ▸ mem)
    proper_incoming
    old := fun lane work mem => Nat.lt_of_lt_of_le (h.old lane work (outstanding lane ▸ mem)) lines
    old_incoming
    newest := fun lane work mem => newest lane work (outstanding lane ▸ mem)
    sorted := fun lane => queues ▸ h.sorted lane
    read := fun later there first earlier mem => by
      rw [outstanding] at mem
      rcases there with there | ⟨new, lane⟩
      · exact h.read later (.inl (outstanding .read ▸ there)) first earlier mem
      · exact read later new lane first earlier mem
    write := fun later there earlier mem =>
      h.write later (running .write ▸ there) earlier (queues ▸ mem) }

/-- A request is routed: on the read lane it conflicts with no outstanding save. -/
theorem routes (h : OrderInv server) (hazards : HazardInv server) (serial : ℕ)
    (request : ClientRequest)
    (shared : server'.shared = server.shared) (workers : server'.workers = server.workers)
    (newcomers : server'.newcomers = server.newcomers) (incoming : server'.incoming =
      workFor serial request server.shared.pendingWrites :: server.incoming)
    (lines : server'.lines = server.lines) : OrderInv server' := by
  refine h.announces (by rw [shared]) workers (newcomers ▸ h.newcomers) ?_ (lines ▸ Nat.le_refl _)
    (newcomers ▸ lines ▸ h.old_incoming) (newcomers ▸ h.newest) ?_
  · rw [incoming]
    exact List.forall_mem_cons.mpr ⟨workFor_proper _ _ _, h.proper_incoming⟩
  · intro later new on_read first earlier mem
    rw [incoming] at new
    rcases List.mem_cons.mp new with rfl | new
    · intro _ save
      by_contra blocks
      rw [Bool.not_eq_false] at blocks
      have proper := h.proper .write earlier mem
      -- the save is in the table, so the request would have gone to the write lane
      have conflict := hazards.conflicts mem (proper.registered.trans save) blocks
      have routed : RemoteLane.forRequest request server.shared.pendingWrites = .write := by
        have first : request.continuesGrep = false := first
        simp only [RemoteLane.forRequest, first]
        split
        · rfl
        · exact if_pos conflict
      exact nomatch on_read.symm.trans routed
    · exact h.read later (.inr ⟨new, on_read⟩) first earlier mem

/-- A new work is pushed: it is the newest. -/
theorem pushes (h : OrderInv server) (settled : server'.Settled) (work : Work)
    (newcomers : server.newcomers = work.serial :: server'.newcomers)
    (incoming : server.incoming = work :: server'.incoming)
    (queues : ∀ lane, (server'.shared.queues lane).queue.Sublist
      ((server.shared.queues lane).queue ++ if work.lane = lane then [work] else []))
    (workers : server'.workers = server.workers) (lines : server'.lines = server.lines) :
    OrderInv server' := by
  have new : work ∈ server.incoming := incoming ▸ List.mem_cons_self
  have serial : work.serial ∈ server.newcomers := newcomers ▸ List.mem_cons_self
  have no_newcomers : server'.newcomers = [] := by
    have single := h.newcomers
    rw [newcomers, List.length_cons] at single
    exact List.eq_nil_of_length_eq_zero (by omega)
  have no_incoming : server'.incoming = [] := by
    have serials := incoming_serials server'.session
    change (server'.incoming.map Work.serial).Sublist server'.newcomers at serials
    rw [no_newcomers] at serials
    exact List.map_eq_nil_iff.mp (List.eq_nil_of_sublist_nil serials)
  have running : ∀ lane, server'.running lane = server.running lane := fun lane => by
    rw [Server.running, workers, Server.running]
  have queued : ∀ lane, ∀ other ∈ (server'.shared.queues lane).queue,
      other ∈ (server.shared.queues lane).queue ∨ other = work ∧ work.lane = lane := by
    intro lane other mem
    rcases List.mem_append.mp ((queues lane).subset mem) with mem | mem
    · exact .inl mem
    · split at mem
      · exact .inr ⟨List.mem_singleton.mp mem, ‹_›⟩
      · cases mem
  have outstanding : ∀ lane, ∀ other ∈ server'.outstanding lane,
      other ∈ server.outstanding lane ∨ other = work ∧ work.lane = lane := by
    intro lane other mem
    rcases Server.mem_outstanding.mp mem with mem | mem
    · exact (queued lane other mem).imp_left fun mem => Server.mem_outstanding.mpr (.inl mem)
    · exact .inl (Server.mem_outstanding.mpr (.inr (running lane ▸ mem)))
  have newest : ∀ lane, ∀ other ∈ server.outstanding lane, other.serial < work.serial :=
    fun lane other mem => h.newest lane other mem work.serial serial
  exact {
    settled
    newcomers := no_newcomers ▸ Nat.zero_le _
    running := fun lane => running lane ▸ h.running lane
    proper := fun lane other mem => by
      rcases outstanding lane other mem with mem | ⟨rfl, rfl⟩
      · exact h.proper lane other mem
      · exact h.proper_incoming other new
    proper_incoming := fun other mem => absurd (no_incoming ▸ mem) List.not_mem_nil
    old := fun lane other mem => by
      rw [lines]
      rcases outstanding lane other mem with mem | ⟨rfl, rfl⟩
      · exact h.old lane other mem
      · exact h.old_incoming other.serial serial
    old_incoming := fun serial mem => absurd (no_newcomers ▸ mem) List.not_mem_nil
    newest := fun _ _ _ serial mem => absurd (no_newcomers ▸ mem) List.not_mem_nil
    sorted := fun lane => by
      refine List.Pairwise.sublist (queues lane) (List.pairwise_append.mpr ⟨h.sorted lane, ?_, ?_⟩)
      · split <;> simp
      · intro earlier mem later last
        split at last
        · cases List.mem_singleton.mp last
          exact newest lane earlier (Server.mem_outstanding.mpr (.inl mem))
        · cases last
    read := fun later there first earlier mem earlier_first save => by
      have there : later ∈ server'.outstanding .read :=
        there.resolve_right fun ⟨mem, _⟩ => absurd (no_incoming ▸ mem) List.not_mem_nil
      rcases outstanding .read later there with there | ⟨rfl, on_read⟩
      · rcases outstanding .write earlier mem with mem | ⟨rfl, -⟩
        · exact h.read later (.inl there) first earlier mem earlier_first save
        · exact absurd earlier_first (Nat.lt_asymm (newest .read later there))
      · rcases outstanding .write earlier mem with mem | ⟨rfl, on_write⟩
        · exact h.read later (.inr ⟨new, on_read⟩) first earlier mem earlier_first save
        · exact absurd earlier_first (Nat.lt_irrefl _)
    write := fun later there earlier mem earlier_first save => by
      rw [running] at there
      rcases queued .write earlier mem with mem | ⟨rfl, -⟩
      · exact h.write later there earlier mem earlier_first save
      · have before := newest .write later (Server.mem_outstanding.mpr (.inr there))
        exact absurd earlier_first (Nat.lt_asymm before) }

/-- The worker of the write lane takes nothing that has to wait. -/
theorem clear_of_ready (h : OrderInv server) {work earlier : Work} {index : ℕ}
    (ready : RemoteQueue.nextReadyIndex (server.shared.queues .write).queue = some index)
    (at_index : (server.shared.queues .write).queue[index]? = some work)
    (mem : earlier ∈ (server.shared.queues .write).queue) : earlier.Clear work := by
  intro earlier_first save
  by_contra blocks
  rw [Bool.not_eq_false] at blocks
  have proper := h.proper .write earlier (Server.mem_outstanding.mpr (.inl mem))
  have interactive : earlier.priority = .interactive := by
    rw [proper.priority]
    rw [Work.blocksLater, proper.hazard] at blocks
    exact interactive_of_conflicts save blocks
  obtain ⟨i, at_i⟩ := List.mem_iff_getElem?.mp mem
  have le := RemoteQueue.nextReadyIndex_le ready at_i interactive
  obtain ⟨bound, eq⟩ := List.getElem?_eq_some_iff.mp at_index
  obtain ⟨bound_i, eq_i⟩ := List.getElem?_eq_some_iff.mp at_i
  -- an interactive work is not overtaken, so the earlier one would stand behind the later one
  rcases Nat.lt_or_eq_of_le le with lt | rfl
  · have sorted := List.pairwise_iff_getElem.mp (h.sorted .write) index i bound bound_i lt
    rw [eq, eq_i] at sorted
    exact Nat.lt_asymm sorted earlier_first
  · rw [eq] at eq_i
    exact Nat.lt_irrefl _ (eq_i ▸ earlier_first)

theorem starts (h : OrderInv server) (settled : server'.Settled) (lane : RemoteLane) (work : Work)
    (index : ℕ) (idle : server.workers lane = [])
    (running : server'.workers = Function.update server.workers lane [.checkStart lane work])
    (ready : RemoteQueue.nextReadyIndex (server.shared.queues lane).queue = some index)
    (at_index : (server.shared.queues lane).queue[index]? = some work)
    (queue : (server'.shared.queues lane).queue = (server.shared.queues lane).queue.eraseIdx index)
    (others : ∀ other, other ≠ lane → server'.shared.queues other = server.shared.queues other)
    (session : server'.session = server.session) (lines : server'.lines = server.lines) :
    OrderInv server' := by
  have queues : ∀ other, (server'.shared.queues other).queue.Sublist
      (server.shared.queues other).queue := by
    intro other
    by_cases eq : other = lane
    · exact eq ▸ queue ▸ List.eraseIdx_sublist _ _
    · rw [others other eq]
  have on_lane : server'.running lane = [work] := by
    rw [Server.running, running, Function.update_self]
    rfl
  have elsewhere : ∀ other, other ≠ lane → server'.running other = server.running other := by
    intro other ne
    rw [Server.running, running, Function.update_of_ne ne, Server.running]
  have outstanding : ∀ other, ∀ each ∈ server'.outstanding other, each ∈
      server.outstanding other := by
    intro other each mem
    rcases Server.mem_outstanding.mp mem with mem | mem
    · exact Server.mem_outstanding.mpr (.inl ((queues other).subset mem))
    · by_cases eq : other = lane
      · subst eq
        rw [on_lane, List.mem_singleton] at mem
        exact Server.mem_outstanding.mpr (.inl (mem ▸ List.mem_of_getElem? at_index))
      · exact Server.mem_outstanding.mpr (.inr (elsewhere other eq ▸ mem))
  have newcomers : server'.newcomers = server.newcomers := by
    rw [Server.newcomers, session, Server.newcomers]
  have incoming : server'.incoming = server.incoming := by
    rw [Server.incoming, session, Server.incoming]
  exact {
    settled
    newcomers := newcomers ▸ h.newcomers
    running := fun other => by
      by_cases eq : other = lane
      · subst eq
        exact on_lane ▸ Nat.le_refl _
      · exact elsewhere other eq ▸ h.running other
    proper := fun other each mem => h.proper other each (outstanding other each mem)
    proper_incoming := incoming ▸ h.proper_incoming
    old := fun other each mem => lines ▸ h.old other each (outstanding other each mem)
    old_incoming := newcomers ▸ lines ▸ h.old_incoming
    newest := fun other each mem => newcomers ▸ h.newest other each (outstanding other each mem)
    sorted := fun other => (h.sorted other).sublist (queues other)
    read := fun later there first earlier mem =>
      h.read later (there.imp (outstanding .read later) (incoming ▸ id)) first earlier
        (outstanding .write earlier mem)
    write := fun later there earlier mem => by
      have mem := (queues .write).subset mem
      cases lane with
      | read => exact h.write later (elsewhere .write (by decide) ▸ there) earlier mem
      | write =>
        rw [on_lane, List.mem_singleton] at there
        exact there ▸ h.clear_of_ready ready at_index mem }

theorem turn (step : Server.Turn server server') (h : OrderInv server)
    (hazards : HazardInv server) : OrderInv server' := by
  obtain ⟨works, settled⟩ := step.works h.settled
  cases works with
  | keeps queues running newcomers incoming lines =>
    exact h.keeps settled queues running newcomers incoming lines
  | arrives outstanding queues workers newcomers incoming lines =>
    refine h.announces queues workers (newcomers ▸ Nat.le_refl _)
      (fun work mem => absurd (incoming ▸ mem) List.not_mem_nil) (by omega) ?_ ?_
      (fun later mem => absurd (incoming ▸ mem) List.not_mem_nil)
    · intro serial mem
      rw [newcomers, List.mem_singleton] at mem
      omega
    · intro lane work mem serial new
      rw [newcomers, List.mem_singleton] at new
      exact new ▸ h.old lane work mem
  | routes serial request shared workers newcomers routed incoming lines =>
    exact h.routes hazards serial request shared workers newcomers incoming lines
  | pushes work newcomers incoming queues workers lines =>
    exact h.pushes settled work newcomers incoming queues workers lines
  | starts lane work index idle running ready at_index queue others session lines =>
    exact h.starts settled lane work index idle running ready at_index queue others session lines

/-- **The order holds in every run.** -/
theorem run {moves : List Server.Move} (ran : Server.start.run moves = some server) :
    OrderInv server := by
  have both : OrderInv server ∧ HazardInv server :=
    Server.run_preserves (P := fun server => OrderInv server ∧ HazardInv server)
      (fun step ⟨order, hazards⟩ => ⟨turn step order hazards, HazardInv.turn step hazards⟩) ran
      ⟨start, HazardInv.start⟩
  exact both.1

end OrderInv

/-- The queue is flushed, and a page of a grep session is read meanwhile. -/
def flushAndGrep : List Server.Move :=
  [.line ⟨7, "flush_queue", .object []⟩ ⟨false, none⟩] ++
    List.replicate 6 (.session .succeeds) ++
    [.worker .write .succeeds,
      .line ⟨8, "grep", .object [("session_id", .string "s1")]⟩ ⟨false, none⟩] ++
    List.replicate 6 (.session .succeeds) ++ [.worker .read .succeeds]

/-! ### The works in the tables -/

/-- The works a thread is just entering or taking out. -/
def Table.transit (table : Table) (op : Op) : List Work :=
  match op.running with
  | some _ => []
  | none => table.held op

theorem Table.held_eq (table : Table) (op : Op) : table.held op = op.running.toList ++
    table.transit op := by
  cases op <;> cases table <;> rfl

/-- The works that are neither queued nor running and in a table. -/
def Server.transit (server : Server) (table : Table) : List Work :=
  (server.session ++ server.workers .read ++ server.workers .write).flatMap table.transit

/-- Only workers execute works. -/
theorem Server.session_idle {moves : List Server.Move}
    (ran : Server.start.run moves = some server) : ∀ op ∈ server.session, op.running = none := by
  refine Server.run_preserves (P := fun server => ∀ op ∈ server.session, op.running = none)
    (fun {server server'} step idle => ?_) ran fun op mem => nomatch mem
  cases step with
  | line request choice waits =>
    rw [Server.readLine_session]
    unfold lineOps
    repeat' split
    all_goals simp [shutdown, leave, Op.running]
  | badLine error waits => simp [Op.running]
  | endOfInput waits => simp [shutdown, leave, Op.running]
  | session op rest choice shared ops eq executed =>
    rw [eq, List.forall_mem_cons] at idle
    refine List.forall_mem_append.mpr ⟨?_, idle.2⟩
    cases exec_follow executed with
    | routes serial request routed same next =>
      rw [next]
      simp [Op.running]
    | passes work next at_op at_next pushes eq =>
      rw [eq, List.forall_mem_singleton]
      cases next <;> first | rfl | cases at_next
    | handles lane work checked next =>
      rw [checked] at idle
      cases idle.1
    | bare bare => exact fun next mem => (bare next mem).2
  | worker | control | starts | exits => exact idle

/-- **The tables are exact**: at every step they count the works that are queued or running and
those a thread is just entering or taking out; so between two operations they count the works that
are queued or running, and they are empty if there are none. -/
theorem tables_count_outstanding {moves : List Server.Move} {server : Server}
    (ran : Server.start.run moves = some server) (table : Table) :
    (table.pending server.shared).Counts
        (table.hazards (server.outstanding .read ++ server.outstanding .write ++
          server.transit table)) ∧
      (server.transit table = [] → server.outstanding .read = [] → server.outstanding .write = [] →
        table.pending server.shared = .new) := by
  have counts := HazardInv.run ran table
  have idle : server.session.filterMap Op.running = [] :=
    List.filterMap_eq_nil_iff.mpr (Server.session_idle ran)
  have split : (server.held table ++ server.shared.queued).Perm
      (server.outstanding .read ++ server.outstanding .write ++ server.transit table) := by
    have held : (server.running .read ++ server.running .write ++ server.transit table).Perm
        (server.held table) := by
      have apart :=
        List.flatMap_append_perm (server.session ++ server.workers .read ++ server.workers .write)
        (fun op => op.running.toList) table.transit
      simp only [← Table.held_eq, ← List.filterMap_eq_flatMap_toList, List.filterMap_append, idle,
        List.nil_append] at apart
      exact apart
    refine (held.symm.append_right _).trans ?_
    classical
    refine List.perm_iff_count.mpr fun work => ?_
    simp only [Server.outstanding, Shared.queued, List.count_append]
    omega
  have exact_counts := counts.perm (table.hazards_perm split)
  refine ⟨exact_counts, fun none_held none_read none_write => ?_⟩
  rw [none_held, none_read, none_write] at exact_counts
  obtain ⟨paths, unknown⟩ := exact_counts
  cases pending : table.pending server.shared with
  | mk exactPaths unknownContentMutations =>
    rw [pending] at paths unknown
    cases paths.eq_nil
    cases unknown
    rfl

/-- A save is queued, and both tables count it. -/
theorem tables_count_outstanding_save :
    ∃ server, Server.start.run flushAndGrep = some server ∧ server.outstanding .write ≠ [] ∧
      server.transit .writes = [] ∧ (Table.writes.pending server.shared).Counts
        (Table.writes.hazards (server.outstanding .read ++ server.outstanding .write ++
          server.transit .writes)) := by
  have runs : (Server.start.run flushAndGrep).map (fun server =>
      ((server.outstanding .write).isEmpty, (server.transit .writes).isEmpty)) =
        some (false, true) := by
    decide +kernel
  obtain ⟨server, ran, found⟩ := Option.map_eq_some_iff.mp runs
  obtain ⟨queued, settled⟩ := Prod.mk.inj found
  exact ⟨server, ran, by simpa using queued, List.isEmpty_iff.mp settled,
    (tables_count_outstanding ran .writes).1⟩

/-- **A request starts only after the earlier saves it conflicts with**: while one of those is
queued or running, it is not running itself, unless it continues a grep session. -/
theorem conflicting_request_waits {moves : List Server.Move} {server : Server}
    (ran : Server.start.run moves = some server) {lane lane' : RemoteLane} {later earlier : Work}
    (running : later ∈ server.running lane) (outstanding : earlier ∈ server.outstanding lane')
    (accepted_first : earlier.serial < later.serial) (save : earlier.request.isWriteLane = true)
    (conflict : (PendingHazard.forRequest earlier.request).conflictsWithInterest
      (RequestInterest.forRequest later.request) = true) :
    later.request.continuesGrep = true := by
  have order := OrderInv.run ran
  have proper := order.proper lane' earlier outstanding
  have on_write : lane' = .write := proper.save save
  subst on_write
  have blocks : earlier.blocksLater later = true := by
    rw [Work.blocksLater, proper.hazard]
    exact conflict
  cases lane with
  | read =>
    -- it came to the read lane, so it conflicted with no save then
    by_contra first
    rw [Bool.not_eq_true] at first
    have clear := order.read later (.inl (Server.mem_outstanding.mpr (.inr running))) first earlier
      outstanding accepted_first save
    exact nomatch blocks.symm.trans clear
  | write =>
    rcases Server.mem_outstanding.mp outstanding with queued | also_running
    · have clear := order.write later running earlier queued accepted_first save
      exact nomatch blocks.symm.trans clear
    · -- the lane runs one work at a time
      have same : earlier = later := by
        have single := order.running .write
        match h : server.running .write with
        | [] => rw [h] at running; cases running
        | [one] =>
          rw [h, List.mem_singleton] at running also_running
          exact also_running.trans running.symm
        | _ :: _ :: _ => rw [h, List.length_cons, List.length_cons] at single; omega
      exact absurd accepted_first (same ▸ Nat.lt_irrefl _)

theorem conflicting_request_waits_grep :
    ∃ server, Server.start.run flushAndGrep = some server ∧
      ∃ later ∈ server.running .read, ∃ earlier ∈ server.outstanding .write,
        earlier.serial < later.serial ∧ earlier.request.isWriteLane = true ∧
          (PendingHazard.forRequest earlier.request).conflictsWithInterest
            (RequestInterest.forRequest later.request) = true ∧
          later.request.continuesGrep = true := by
  have runs : (Server.start.run flushAndGrep).map (fun server =>
      (server.running .read).any fun later => (server.outstanding .write).any fun earlier =>
        earlier.serial < later.serial && earlier.request.isWriteLane &&
          (PendingHazard.forRequest earlier.request).conflictsWithInterest
            (RequestInterest.forRequest later.request)) = some true := by decide +kernel
  obtain ⟨server, ran, found⟩ := Option.map_eq_some_iff.mp runs
  obtain ⟨later, running, found⟩ := List.any_eq_true.mp found
  obtain ⟨earlier, outstanding, found⟩ := List.any_eq_true.mp found
  simp only [Bool.and_eq_true, decide_eq_true_eq] at found
  obtain ⟨⟨accepted_first, save⟩, conflict⟩ := found
  exact ⟨server, ran, later, running, earlier, outstanding, accepted_first, save, conflict,
    conflicting_request_waits ran running outstanding accepted_first save conflict⟩

end RemoteMirror.Lanes
