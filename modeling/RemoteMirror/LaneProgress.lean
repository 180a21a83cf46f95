/-
**A session never gets stuck.**

The loop waits for the workers only when it has closed their queues, the queues are paused only
while the loop is about to resume them, and a worker leaves only an empty queue behind.  So when
nothing can go on, no work is left in a queue or with a worker.  And the session cannot go on for
ever without a new line: every operation leaves less to do than there was.

Main definitions:

* `Lanes.Effect` — what an operation does to the queues and the flags;
* `Lanes.PhaseInv` — the shape of the threads, before and after the end of the loop;
* `Lanes.Server.weight` — what is left to do.

Main results:

* `Lanes.PhaseInv.run` — the shape is kept in every run;
* `Lanes.PhaseInv.quiet_of_stuck` — **when nothing can go on, nothing is left to do**;
* `Lanes.Server.run_length_le` — **without a new line everything comes to an end**.
-/

import RemoteMirror.LaneOrder

namespace RemoteMirror.Lanes

/-! ### Kinds of operations -/

namespace Op

/-- What only the end of a session does. -/
def ending : Op → Bool
  | .shutdownDrain _ | .interrupt _ | .closeBackground _ | .join _ | .exit _ => true
  | _ => false

def begins : Op → Bool
  | .beginMaintenance .. => true
  | _ => false

def resumes : Op → Bool
  | .endMaintenance _ => true
  | _ => false

def joins : Op → Bool
  | .join _ => true
  | _ => false

def drains : Op → Bool
  | .shutdownDrain _ => true
  | _ => false

/-- What a worker does only at the end of a round. -/
def last : Op → Bool
  | .checkStart .. | .handle .. | .checkEnd _ | .exit _ => true
  | _ => false

/-- What the worker of a lane does. -/
def OfWorker (lane : RemoteLane) : Op → Prop
  | .answer _ | .clearRemote _ | .clearWrites _ => True
  | .shutdownDrain own | .checkStart own _ | .handle own _ | .checkEnd own | .finishStarted own
  | .exit own => own = lane
  | _ => False

/-- What the loop does. -/
def ofSession : Op → Bool
  | .checkStart .. | .handle .. | .checkEnd _ | .finishStarted _ | .exit _ => false
  | _ => true

end Op

/-! ### Effects -/

/-- **What an operation does to the queues and the flags.** -/
inductive Effect (s s' : Shared) (op : Op) : Prop
  | quiet (queues : s'.queues = s.queues) (requested : s'.shutdownRequested = s.shutdownRequested)
      (exited : s'.exited = s.exited) (dropped : s'.dropped = s.dropped)
      (resumes : ∀ lane, op ≠ .endMaintenance lane) (begins : op.begins = false)
      (drains : op.drains = false)
  | queue (lane : RemoteLane) (queue : RemoteQueue)
      (queues : s'.queues = Function.update s.queues lane queue)
      (requested : s'.shutdownRequested = s.shutdownRequested) (exited : s'.exited = s.exited)
      (dropped : s'.dropped = s.dropped) (ending : op.ending = false)
      (closed : queue.closed = (s.queues lane).closed)
      (kept : queue.closed = true → queue.queue.Sublist (s.queues lane).queue)
      (paused : queue.maintenancePaused = true →
        op.begins = true ∨ (s.queues lane).maintenancePaused = true ∧ op ≠ .endMaintenance lane)
      (elsewhere : ∀ other, other ≠ lane → op ≠ .endMaintenance other)
  | closes (lane : RemoteLane) (queue : RemoteQueue) (drained : List Work)
      (queues : s'.queues = Function.update s.queues lane queue)
      (requested : s'.shutdownRequested = s.shutdownRequested) (exited : s'.exited = s.exited)
      (dropped : s'.dropped = s.dropped ++ drained) (ending : op.ending = true)
      (from_queue : ∀ work ∈ drained, work ∈ (s.queues lane).queue) (closed : queue.closed = true)
      (kept : queue.queue.Sublist (s.queues lane).queue)
      (empty : op.drains = true → op = .shutdownDrain lane ∧ queue.queue = [])
      (paused : queue.maintenancePaused = (s.queues lane).maintenancePaused)
  | interrupts (lane : RemoteLane) (eq : op = .interrupt lane) (queues : s'.queues = s.queues)
      (exited : s'.exited = s.exited) (dropped : s'.dropped = s.dropped)
  | abandons (lane : RemoteLane) (work : Work) (eq : op = .checkStart lane work)
      (stopped : s.shutdownRequested lane = true) (queues : s'.queues = s.queues)
      (requested : s'.shutdownRequested = s.shutdownRequested) (exited : s'.exited = s.exited)
      (dropped : s'.dropped = s.dropped ++ [work])
  | exits (lane : RemoteLane) (eq : op = .exit lane) (queues : s'.queues = s.queues)
      (exited : s'.exited = Function.update s.exited lane true) (dropped : s'.dropped = s.dropped)
      (requested : s'.shutdownRequested = s.shutdownRequested)

namespace RemoteQueue

variable {queue queue' : RemoteQueue} {work : Work}

theorem cancel_flags {requestId : ℕ} (h : queue.cancel requestId = some (work, queue')) :
    queue'.closed = queue.closed ∧ queue'.maintenancePaused = queue.maintenancePaused ∧
      queue'.controls = queue.controls := by
  obtain ⟨index, -, removed⟩ := Option.bind_eq_some_iff.mp h
  exact remove_flags removed

theorem popWork_flags (h : queue.popWork = some (work, queue')) :
    queue'.closed = queue.closed ∧ queue'.maintenancePaused = queue.maintenancePaused ∧
      queue'.controls = queue.controls := by
  obtain ⟨-, ready⟩ := Option.ite_none_left_eq_some.mp h
  obtain ⟨index, -, removed⟩ := Option.bind_eq_some_iff.mp ready
  have flags := remove_flags removed
  exact flags

/-- A worker finds nothing in a queue only if it is paused or empty. -/
theorem popWork_eq_none (h : queue.popWork = none) : queue.maintenancePaused = true ∨
    queue.queue = [] := by
  unfold popWork at h
  split at h
  · exact .inl ‹_›
  refine .inr ?_
  by_contra nonempty
  cases ready : nextReadyIndex queue.queue with
  | none =>
    unfold nextReadyIndex at ready
    split at ready
    · simp [nonempty] at ready
    · rename_i index found
      obtain ⟨bound, -⟩ := List.findIdx?_eq_some_iff_getElem.mp found
      rw [List.getElem?_eq_getElem bound] at ready
      cases ready
  | some index =>
    rw [ready, Option.bind_some] at h
    have bound : index < queue.queue.length := by
      rcases nextReadyIndex_eq_some ready with ⟨-, bound⟩ | ⟨first, found, le⟩
      · exact bound
      · exact Nat.lt_of_le_of_lt le (List.findIdx?_eq_some_iff_getElem.mp found).1
    simp [remove, List.getElem?_eq_getElem bound] at h

end RemoteQueue

variable {choice : Choice} {s s' : Shared} {op : Op} {ops : List Op}

theorem exec_effect (h : exec s op choice = some (s', ops)) : Effect s s' op := by
  have same_queue : ∀ lane (queue : RemoteQueue), queue.queue = (s.queues lane).queue →
      queue.closed = true → queue.queue.Sublist (s.queues lane).queue :=
    fun lane queue eq _ => eq ▸ List.Sublist.refl _
  cases op with
  | shutdownDrain lane =>
    cases h
    exact .closes lane _ _ rfl rfl rfl rfl rfl (fun _ mem => mem) rfl (List.nil_sublist _)
      (fun _ => ⟨rfl, rfl⟩) rfl
  | closeBackground lane =>
    cases h
    refine .closes lane _ _ rfl rfl rfl rfl rfl ?_ rfl ?_ (fun drains => ?_) rfl
    · intro work mem
      simp only [RemoteQueue.closeAndDrainBackground, List.partition_eq_filter_filter] at mem
      exact List.mem_of_mem_filter mem
    · simp only [RemoteQueue.closeAndDrainBackground, List.partition_eq_filter_filter]
      exact List.filter_sublist
    · cases drains
  | interrupt lane =>
    cases h
    exact .interrupts lane rfl rfl rfl rfl
  | cancelQueued lane target serial id =>
    simp only [exec] at h
    split at h
    · rename_i work queue canceled
      cases h
      obtain ⟨closed, paused, -⟩ := RemoteQueue.cancel_flags canceled
      exact .queue lane queue rfl rfl rfl rfl rfl closed (fun _ =>
        (RemoteQueue.cancel_eq_some canceled).2)
        (fun was => .inr ⟨paused ▸ was, Op.noConfusion⟩) fun _ _ => Op.noConfusion
    · split at h <;> cases h <;>
        exact .quiet rfl rfl rfl rfl (fun _ => Op.noConfusion) rfl rfl
  | beginMaintenance lane drained =>
    cases h
    exact .queue lane _ rfl rfl rfl rfl rfl rfl (fun _ => List.nil_sublist _) (fun _ => .inl rfl)
      fun _ _ => Op.noConfusion
  | maintain stage =>
    simp only [exec] at h
    split at h
    · cases h
      exact .quiet rfl rfl rfl rfl (fun _ => Op.noConfusion) rfl rfl
    · obtain ⟨after, maintained, eq⟩ := Option.map_eq_some_iff.mp h
      cases eq
      obtain rfl | ⟨-, lane, rfl⟩ := maintain_eq_some maintained
      · exact .quiet rfl rfl rfl rfl (fun _ => Op.noConfusion) rfl rfl
      · exact .queue lane _ rfl rfl rfl rfl rfl rfl (same_queue lane _ rfl)
          (fun was => .inr ⟨was, Op.noConfusion⟩) fun _ _ => Op.noConfusion
  | endMaintenance lane =>
    cases h
    exact .queue lane _ rfl rfl rfl rfl rfl rfl (same_queue lane _ rfl)
      (fun was => Bool.noConfusion was) (fun other ne eq => ne (Op.endMaintenance.inj eq).symm)
  | finishStarted lane =>
    cases h
    exact .queue lane _ rfl rfl rfl rfl rfl rfl (same_queue lane _ rfl)
      (fun was => .inr ⟨was, Op.noConfusion⟩) fun _ _ => Op.noConfusion
  | registerWrites work =>
    cases h
    split <;> exact .quiet rfl rfl rfl rfl (fun _ => Op.noConfusion) rfl rfl
  | push work =>
    simp only [exec] at h
    split at h
    · rename_i canceled queue pushed
      cases h
      obtain ⟨-, -, was_open, is_open, paused⟩ := RemoteQueue.tryPush_eq_some pushed
      exact .queue work.lane queue rfl rfl rfl rfl rfl (is_open.trans was_open.symm)
        (fun closed => absurd (closed.symm.trans is_open) (by decide))
        (fun was => .inr ⟨paused ▸ was, Op.noConfusion⟩) fun _ _ => Op.noConfusion
    · cases h
      exact .quiet rfl rfl rfl rfl (fun _ => Op.noConfusion) rfl rfl
  | join lane =>
    obtain ⟨-, eq⟩ := Option.ite_none_right_eq_some.mp h
    cases eq
    exact .quiet rfl rfl rfl rfl (fun _ => Op.noConfusion) rfl rfl
  | checkStart lane work =>
    simp only [exec] at h
    split at h
    · cases h
      exact .abandons lane work rfl ‹_› rfl rfl rfl rfl
    · cases h
      exact .quiet rfl rfl rfl rfl (fun _ => Op.noConfusion) rfl rfl
  | exit lane =>
    cases h
    exact .exits lane rfl rfl rfl rfl rfl
  | answer | reply | clearRemote | clearWrites | route | registerRemote | handle | checkEnd =>
    cases h
    exact .quiet rfl rfl rfl rfl (fun _ => Op.noConfusion) rfl rfl

namespace Effect

variable {s s' : Shared} {op : Op} {lane : RemoteLane}

/-- A closed queue stays closed, and an empty one stays empty then. -/
theorem closed (h : Effect s s' op) (was : (s.queues lane).closed = true) :
    (s'.queues lane).closed = true ∧
      (s'.queues lane).queue.Sublist (s.queues lane).queue := by
  cases h with
  | quiet queues | interrupts _ _ queues | abandons _ _ _ _ queues | exits _ _ queues =>
    rw [queues]
    exact ⟨was, List.Sublist.refl _⟩
  | queue changed queue queues _ _ _ _ closed kept =>
    rw [queues, Function.update_apply]
    split
    · subst ‹lane = changed›
      exact ⟨closed.trans was, kept (closed.trans was)⟩
    · exact ⟨was, List.Sublist.refl _⟩
  | closes changed queue drained queues _ _ _ _ _ closed kept =>
    rw [queues, Function.update_apply]
    split
    · subst ‹lane = changed›
      exact ⟨closed, kept⟩
    · exact ⟨was, List.Sublist.refl _⟩

theorem still_empty (h : Effect s s' op) (was : (s.queues lane).closed = true ∧
    (s.queues lane).queue = []) : (s'.queues lane).closed = true ∧ (s'.queues lane).queue = [] := by
  obtain ⟨still, fewer⟩ := h.closed was.1
  rw [was.2] at fewer
  exact ⟨still, List.eq_nil_of_sublist_nil fewer⟩

theorem shuts (h : Effect s s' op) (eq : op = .shutdownDrain lane) :
    (s'.queues lane).closed = true ∧ (s'.queues lane).queue = [] := by
  subst eq
  cases h with
  | quiet _ _ _ _ _ _ drains => cases drains
  | queue _ _ _ _ _ _ ending => cases ending
  | interrupts _ eq | abandons _ _ eq | exits _ eq => cases eq
  | closes changed queue drained queues _ _ _ _ _ closed kept empty =>
    obtain ⟨same, none_left⟩ := empty rfl
    cases same
    rw [queues, Function.update_self]
    exact ⟨closed, none_left⟩

/-- A queue is paused by the beginning of an update, until its end. -/
theorem paused (h : Effect s s' op) (is : (s'.queues lane).maintenancePaused = true) :
    op.begins = true ∨ (s.queues lane).maintenancePaused = true ∧ op ≠ .endMaintenance lane := by
  cases h with
  | quiet queues _ _ _ resumes => exact .inr ⟨queues ▸ is, resumes lane⟩
  | interrupts _ eq queues | abandons _ _ eq _ queues | exits _ eq queues =>
    exact .inr ⟨queues ▸ is, eq ▸ Op.noConfusion⟩
  | queue changed queue queues _ _ _ _ _ _ paused elsewhere =>
    rw [queues, Function.update_apply] at is
    split at is
    · subst ‹lane = changed›
      exact paused is
    · exact .inr ⟨is, elsewhere lane ‹_›⟩
  | closes changed queue drained queues _ _ _ ending _ _ _ _ paused =>
    refine .inr ⟨?_, fun eq => by rw [eq] at ending; cases ending⟩
    rw [queues, Function.update_apply] at is
    split at is
    · subst ‹lane = changed›
      exact paused ▸ is
    · exact is

theorem exited (h : Effect s s' op) (is : s'.exited lane = true) : s.exited lane = true ∨
    op = .exit lane := by
  cases h with
  | quiet _ _ exited | queue _ _ _ _ exited | closes _ _ _ _ _ exited | interrupts _ _ _ exited
  | abandons _ _ _ _ _ _ exited => exact .inl (exited ▸ is)
  | exits changed eq _ exited =>
    rw [exited, Function.update_apply] at is
    split at is
    · exact .inr (‹lane = changed› ▸ eq)
    · exact .inl is

/-- A work is dropped from a queue, or by the worker that has just taken it. -/
theorem dropped (h : Effect s s' op) {work : Work} (is : work ∈ s'.dropped) :
    work ∈ s.dropped ∨ (∃ lane, work ∈ (s.queues lane).queue) ∨ ∃ lane,
      op = .checkStart lane work := by
  cases h with
  | quiet _ _ _ dropped | queue _ _ _ _ _ dropped | interrupts _ _ _ _ dropped
  | exits _ _ _ _ dropped => exact .inl (dropped ▸ is)
  | closes lane queue drained _ _ _ dropped _ from_queue =>
    rw [dropped] at is
    exact (List.mem_append.mp is).imp_right fun mem => .inl ⟨lane, from_queue work mem⟩
  | abandons lane own eq _ _ _ _ dropped =>
    rw [dropped] at is
    refine (List.mem_append.mp is).imp_right fun mem => .inr ⟨lane, ?_⟩
    rw [eq, List.mem_singleton.mp mem]

/-- Before the session ends nothing is closed or dropped. -/
theorem opened (h : Effect s s' op) (ending : op.ending = false)
    (requested : ∀ lane, s.shutdownRequested lane = false) :
    s'.shutdownRequested = s.shutdownRequested ∧ s'.exited = s.exited ∧ s'.dropped = s.dropped ∧
      ∀ lane, (s'.queues lane).closed = (s.queues lane).closed := by
  cases h with
  | quiet queues requested exited dropped =>
    exact ⟨requested, exited, dropped, fun lane => by rw [queues]⟩
  | queue changed queue queues requested exited dropped _ closed =>
    refine ⟨requested, exited, dropped, fun lane => ?_⟩
    rw [queues, Function.update_apply]
    split
    · rw [closed, ‹lane = changed›]
    · rfl
  | closes _ _ _ _ _ _ _ is_ending => exact nomatch is_ending.symm.trans ending
  | interrupts _ eq | exits _ eq =>
    rw [eq] at ending
    cases ending
  | abandons lane _ _ stopped => exact nomatch stopped.symm.trans (requested lane)

end Effect

/-! ### What the threads do next -/

theorem settle_next (works : List Work) : ∀ next ∈ works.flatMap settle,
    next.ofSession = true ∧ next.ending = false ∧ next.resumes = false ∧ next.begins = false := by
  intro next mem
  obtain ⟨work, -, inSettle⟩ := List.mem_flatMap.mp mem
  simp only [settle, clearPending, List.cons_append, List.nil_append, List.mem_cons,
    List.not_mem_nil, or_false] at inSettle
  rcases inSettle with rfl | rfl | rfl <;> exact ⟨rfl, rfl, rfl, rfl⟩

/-- What the loop does to end a session or an update stands there from the start, and it begins an
update only once. -/
theorem exec_session (h : exec s op choice = some (s', ops)) (of : op.ofSession = true) :
    (op.begins = true ∧ ∃ drained, ops = [.beginMaintenance .write drained]) ∨ ∀ next ∈ ops,
      next.ofSession = true ∧ next.ending = false ∧ next.resumes = false ∧ next.begins = false := by
  cases op with
  | checkStart | handle | checkEnd | finishStarted | exit => cases of
  | cancelQueued lane target serial id =>
    simp only [exec] at h
    split at h
    · cases h
      exact .inr (by simp [settle, clearPending, Op.ofSession, Op.ending, Op.resumes, Op.begins])
    · split at h <;> cases h <;>
        exact .inr (by simp [Op.ofSession, Op.ending, Op.resumes, Op.begins])
  | beginMaintenance lane drained =>
    cases h
    cases lane with
    | read => exact .inl ⟨rfl, _, rfl⟩
    | write =>
      refine .inr fun next mem => ?_
      rcases List.mem_append.mp mem with inSettle | last
      · exact settle_next _ next inSettle
      · cases List.mem_singleton.mp last
        exact ⟨rfl, rfl, rfl, rfl⟩
  | maintain stage =>
    simp only [exec] at h
    split at h
    · cases h
      exact .inr (by simp)
    · obtain ⟨after, maintained, eq⟩ := Option.map_eq_some_iff.mp h
      cases eq
      cases stage <;>
        exact .inr (by simp [Stage.next, Op.ofSession, Op.ending, Op.resumes, Op.begins])
  | push work =>
    simp only [exec] at h
    split at h
    · cases h
      refine .inr fun next mem => ?_
      simp only [clearPending, List.cons_append, List.nil_append, List.mem_cons,
        List.mem_map] at mem
      rcases mem with rfl | rfl | ⟨canceled, -, rfl⟩ <;> exact ⟨rfl, rfl, rfl, rfl⟩
    · cases h
      exact .inr (by simp [clearPending, Op.ofSession, Op.ending, Op.resumes, Op.begins])
  | join lane =>
    obtain ⟨-, eq⟩ := Option.ite_none_right_eq_some.mp h
    cases eq
    exact .inr (by simp)
  | route | registerRemote | registerWrites =>
    cases h
    exact .inr (by simp [Op.ofSession, Op.ending, Op.resumes, Op.begins])
  | shutdownDrain | closeBackground =>
    cases h
    exact .inr (by simp [clearPending, Op.ofSession, Op.ending, Op.resumes, Op.begins])
  | answer | reply | clearRemote | clearWrites | interrupt | endMaintenance =>
    cases h
    exact .inr (by simp)

variable {lane : RemoteLane}

/-- A worker keeps to its lane; what ends a round stays at the end; it leaves only after it has
emptied its queue, and only if it was told to. -/
theorem exec_worker (h : exec s op choice = some (s', ops)) (of : op.OfWorker lane) :
    (∀ next ∈ ops, next.OfWorker lane) ∧ (ops.Pairwise fun a _ => a.last = false) ∧
      (op.last = false → ∀ next ∈ ops, next.last = false) ∧
        (.exit lane ∈ ops → .shutdownDrain lane ∈ ops) ∧
      (s.shutdownRequested lane = false → ∀ next ∈ ops, next.ending = false) := by
  cases op with
  | answer | clearRemote | clearWrites | finishStarted | exit =>
    cases h
    simp
  | shutdownDrain own =>
    cases h
    simp [clearPending, Op.OfWorker, Op.last, Op.ending]
  | checkStart own work =>
    cases of
    simp only [exec] at h
    split at h
    · rename_i stopped
      cases h
      simp [clearPending, Op.OfWorker, Op.last, stopped]
    · cases h
      simp [Op.OfWorker, Op.last, Op.ending]
  | handle own work =>
    cases of
    cases h
    simp [clearPending, Op.OfWorker, Op.last, Op.ending]
  | checkEnd own =>
    cases of
    cases h
    split
    · rename_i stopped
      simp [Op.OfWorker, Op.last, stopped]
    · simp [Op.OfWorker, Op.last, Op.ending]
  | reply | interrupt | cancelQueued | beginMaintenance | maintain | endMaintenance | route
  | registerRemote | registerWrites | push | closeBackground | join => cases of

/-! ### The shape of the threads -/

/-- An operation of the loop may stand before another. -/
def Op.Before (a b : Op) : Prop := b.begins = false ∧ (a.joins = true → b.drains = false)

/-- The session before the loop ends. -/
structure Open (server : Server) : Prop where
  session : ∀ op ∈ server.session, op.ending = false
  workers : ∀ lane, ∀ op ∈ server.workers lane, op.ending = false
  requested : ∀ lane, server.shared.shutdownRequested lane = false
  closed : ∀ lane, (server.shared.queues lane).closed = false
  exited : ∀ lane, server.shared.exited lane = false
  dropped : server.shared.dropped = []

/-- The session after the loop has ended; `outstanding` is what was queued or running then. -/
structure Over (server : Server) (atEnd : List ℕ) : Prop where
  session : ∀ op ∈ server.session, op.newcomer = none ∧ op.resumes = false
  outstanding : ∀ lane, ∀ work ∈ server.outstanding lane, work.serial ∈ atEnd
  dropped : ∀ work ∈ server.shared.dropped, work.serial ∈ atEnd

/-- **The shape of the threads.** -/
structure PhaseInv (server : Server) : Prop where
  of_worker : ∀ lane, ∀ op ∈ server.workers lane, op.OfWorker lane
  of_session : ∀ op ∈ server.session, op.ofSession = true
  last : ∀ lane, (server.workers lane).Pairwise fun a _ => a.last = false
  order : server.session.Pairwise Op.Before
  begins : ∀ op ∈ server.session, op.begins = true → ∀ lane, .endMaintenance lane ∈ server.session
  paused : ∀ lane, (server.shared.queues lane).maintenancePaused = true →
    .endMaintenance lane ∈ server.session
  joins : ∀ lane, .join lane ∈ server.session →
    (server.shared.queues lane).closed = true ∨ .shutdownDrain lane ∈ server.session
  exit : ∀ lane, .exit lane ∈ server.workers lane →
    (server.shared.queues lane).closed = true ∧ (server.shared.queues lane).queue = [] ∨
      .shutdownDrain lane ∈ server.workers lane
  exited : ∀ lane, server.shared.exited lane = true →
    (server.shared.queues lane).closed = true ∧ (server.shared.queues lane).queue = [] ∧
      server.workers lane = []
  opened : server.atEnd = none → Open server
  past : ∀ atEnd, server.atEnd = some atEnd → Over server atEnd

theorem newcomer_of_worker (h : op.OfWorker lane) : op.newcomer = none := by
  cases op <;> first | rfl | cases h

/-! What the loop does with a line. -/

section lineOps

variable {serial : ℕ} {request : ClientRequest} {choice : LineChoice}

theorem lineOps_ofSession : ∀ op ∈ lineOps serial request choice, op.ofSession = true := by
  unfold lineOps
  repeat' split
  all_goals simp [shutdown, leave, Op.ofSession]

theorem lineOps_order : (lineOps serial request choice).Pairwise Op.Before := by
  unfold lineOps
  repeat' split
  all_goals simp [shutdown, leave, Op.Before, Op.begins, Op.joins, Op.drains]

theorem lineOps_begins : ∀ op ∈ lineOps serial request choice, op.begins = true →
    ∀ lane, .endMaintenance lane ∈ lineOps serial request choice := by
  unfold lineOps
  repeat' split
  all_goals intro op mem begins lane
  all_goals first
    | (cases lane <;> simp; done)
    | (simp only [shutdown, leave, List.cons_append, List.nil_append, List.mem_cons,
        List.not_mem_nil, or_false] at mem
       rcases mem with rfl | rfl | rfl | rfl | rfl | rfl | rfl | rfl | rfl <;> cases begins)

theorem lineOps_joins (lane : RemoteLane) (joins : .join lane ∈ lineOps serial request choice) :
    .shutdownDrain lane ∈ lineOps serial request choice := by
  unfold lineOps at joins ⊢
  repeat' split at joins
  all_goals cases lane <;> simp_all [shutdown, leave]

theorem lineOps_opened (goes_on : request.method ∉ ["shutdown", "disconnect"]) :
    ∀ op ∈ lineOps serial request choice, op.ending = false := by
  unfold lineOps
  rw [if_neg goes_on]
  repeat' split
  all_goals simp [Op.ending]

theorem lineOps_over (ends : request.method ∈ ["shutdown", "disconnect"]) :
    ∀ op ∈ lineOps serial request choice, op.newcomer = none ∧ op.resumes = false := by
  unfold lineOps
  rw [if_pos ends]
  simp [shutdown, leave, Op.newcomer, Op.resumes]

end lineOps

variable {server : Server}

/-- Without new works nothing is added to what is outstanding. -/
theorem WorkStep.outstanding_subset {server' : Server} (h : WorkStep server server')
    (none_new : server.newcomers = []) (lane : RemoteLane) :
    ∀ work ∈ server'.outstanding lane, work ∈ server.outstanding lane := by
  intro work mem
  cases h with
  | keeps queues running =>
    exact Server.mem_outstanding.mpr ((Server.mem_outstanding.mp mem).imp
      (fun mem => (queues lane).subset mem) fun mem => (running lane).subset mem)
  | arrives outstanding => exact outstanding lane ▸ mem
  | routes _ _ _ _ _ routed =>
    rw [none_new] at routed
    cases routed
  | pushes _ newcomers =>
    rw [none_new] at newcomers
    cases newcomers
  | starts started own index idle workers _ at_index queue others =>
    by_cases eq : lane = started
    · subst eq
      rw [Server.mem_outstanding, Server.running, workers, Function.update_self, queue] at mem
      rcases mem with mem | mem
      · exact Server.mem_outstanding.mpr (.inl ((List.eraseIdx_sublist _ _).subset mem))
      · cases List.mem_singleton.mp mem
        exact Server.mem_outstanding.mpr (.inl (List.mem_of_getElem? at_index))
    · rw [Server.outstanding, Server.running, workers, Function.update_of_ne eq,
        others lane eq] at mem
      exact mem

namespace PhaseInv

variable {server server' : Server}

theorem settled (h : PhaseInv server) : server.Settled :=
  fun lane op mem => newcomer_of_worker (h.of_worker lane op mem)

theorem start : PhaseInv Server.start where
  of_worker := nofun
  of_session := nofun
  last := fun _ => List.Pairwise.nil
  order := List.Pairwise.nil
  begins := nofun
  paused := nofun
  joins := nofun
  exit := nofun
  exited := nofun
  opened := fun _ =>
    { session := nofun
      workers := nofun
      requested := fun _ => rfl
      closed := fun _ => rfl
      exited := fun _ => rfl
      dropped := rfl }
  past := fun _ eq => nomatch eq

/-- Something is read, or the input is at its end. -/
theorem reads (h : PhaseInv server) (waits : server.waits = true)
    (shared : server'.shared = server.shared) (workers : server'.workers = server.workers)
    (of_session : ∀ op ∈ server'.session, op.ofSession = true)
    (order : server'.session.Pairwise Op.Before)
    (begins : ∀ op ∈ server'.session, op.begins = true → ∀ lane, .endMaintenance lane ∈
      server'.session)
    (joins : ∀ lane, .join lane ∈ server'.session → .shutdownDrain lane ∈ server'.session)
    (opened : server'.atEnd = none → ∀ op ∈ server'.session, op.ending = false)
    (past : ∀ atEnd, server'.atEnd = some atEnd →
      (∀ op ∈ server'.session, op.newcomer = none ∧ op.resumes = false) ∧
        ∀ lane, ∀ work ∈ server.outstanding lane, work.serial ∈ atEnd) : PhaseInv server' := by
  have idle := Server.session_of_waits waits
  have is_open := h.opened (Server.atEnd_of_waits waits)
  exact {
    of_worker := workers ▸ h.of_worker
    of_session
    last := workers ▸ h.last
    order
    begins
    paused := fun lane paused => by
      have resumed := h.paused lane (shared ▸ paused)
      rw [idle] at resumed
      cases resumed
    joins := fun lane mem => .inr (joins lane mem)
    exit := shared ▸ workers ▸ h.exit
    exited := shared ▸ workers ▸ h.exited
    opened := fun none_yet =>
      { session := opened none_yet
        workers := workers ▸ is_open.workers
        requested := shared ▸ is_open.requested
        closed := shared ▸ is_open.closed
        exited := shared ▸ is_open.exited
        dropped := shared ▸ is_open.dropped }
    past := fun atEnd eq =>
      { session := (past atEnd eq).1
        outstanding := fun lane work mem => by
          rw [Server.outstanding, Server.running, shared, workers] at mem
          exact (past atEnd eq).2 lane work mem
        dropped := fun work mem => by
          rw [shared, is_open.dropped] at mem
          cases mem } }

/-- The session after the end, when the works that are outstanding only become fewer. -/
theorem still_over (h : PhaseInv server) (step : Server.Turn server server')
    (atEnd : server'.atEnd = server.atEnd)
    (session : ∀ before, server.atEnd = some before → ∀ op ∈ server'.session,
      op.newcomer = none ∧ op.resumes = false)
    (dropped : ∀ work ∈ server'.shared.dropped, work ∈ server.shared.dropped ∨
      ∃ lane, work ∈ server.outstanding lane) :
    ∀ before, server'.atEnd = some before → Over server' before := by
  intro before eq
  rw [atEnd] at eq
  have past := h.past before eq
  have none_new : server.newcomers = [] :=
    List.filterMap_eq_nil_iff.mpr fun op mem => (past.session op mem).1
  exact {
    session := session before eq
    outstanding := fun lane work mem => past.outstanding lane work
      ((step.works h.settled).1.outstanding_subset none_new lane work mem)
    dropped := fun work mem => by
      rcases dropped work mem with old | ⟨lane, outstanding⟩
      · exact past.dropped work old
      · exact past.outstanding lane work outstanding }

variable {op : Op}

theorem not_joins (h : op.ending = false) : ¬ op.joins = true := by
  cases op with
  | join => cases h
  | _ => exact Bool.false_ne_true

variable {shared : Shared} {ops rest : List Op}

/-- The loop goes on. -/
theorem session (h : PhaseInv server) (eq : server.session = op :: rest)
    (executed : exec server.shared op choice = some (shared, ops)) :
    PhaseInv { server with shared, session := ops ++ rest } := by
  have effect := exec_effect executed
  have mem : op ∈ server.session := eq ▸ List.mem_cons_self
  have of := h.of_session op mem
  have begins := exec_session executed of
  have next : ∀ next ∈ ops, next.ofSession = true ∧ next.ending = false ∧ next.resumes = false := by
    intro next new
    rcases begins with ⟨-, drained, rfl⟩ | plain
    · cases List.mem_singleton.mp new
      exact ⟨rfl, rfl, rfl⟩
    · obtain ⟨of, ending, resumes, -⟩ := plain next new
      exact ⟨of, ending, resumes⟩
  have order := h.order
  rw [eq, List.pairwise_cons] at order
  have in_rest : ∀ other ∈ server.session, other ≠ op → other ∈ ops ++ rest := by
    intro other there ne
    rw [eq] at there
    exact List.mem_append_right _ ((List.mem_cons.mp there).resolve_left ne)
  have resumed (op_begins : op.begins = true) : ∀ lane, .endMaintenance lane ∈ ops ++ rest := by
    refine fun lane => in_rest _ (h.begins op mem op_begins lane) fun same => ?_
    rw [← same] at op_begins
    cases op_begins
  have later : ∀ other ∈ rest, other ∈ server.session :=
    fun _ old => eq ▸ List.mem_cons_of_mem op old
  exact {
    of_worker := h.of_worker
    of_session := List.forall_mem_append.mpr
      ⟨fun other new => (next other new).1, fun other old => h.of_session other (later other old)⟩
    last := h.last
    order := by
      refine List.pairwise_append.mpr ⟨?_, order.2, fun a new b old => ⟨(order.1 b old).1, ?_⟩⟩
      · rcases begins with ⟨-, drained, rfl⟩ | plain
        · exact List.pairwise_singleton _ _
        · refine List.pairwise_of_forall_mem_list fun a first b second =>
            ⟨(plain b second).2.2.2, ?_⟩
          exact fun joins => absurd joins (not_joins (next a first).2.1)
      · exact fun joins => absurd joins (not_joins (next a new).2.1)
    begins := fun other there is lane => by
      rcases List.mem_append.mp there with new | old
      · rcases begins with ⟨op_begins, -⟩ | plain
        · exact resumed op_begins lane
        · exact nomatch is.symm.trans (plain other new).2.2.2
      · exact nomatch is.symm.trans (order.1 other old).1
    paused := fun lane is => by
      rcases effect.paused is with op_begins | ⟨was, ne⟩
      · exact resumed op_begins lane
      · exact in_rest _ (h.paused lane was) ne.symm
    joins := fun lane there => by
      rcases List.mem_append.mp there with new | old
      · cases (next _ new).2.1
      · rcases h.joins lane (later _ old) with closed | drains
        · exact .inl (effect.closed closed).1
        · by_cases same : Op.shutdownDrain lane = op
          · exact .inl (effect.shuts same.symm).1
          · exact .inr (in_rest _ drains same)
    exit := fun lane there => (h.exit lane there).imp_left effect.still_empty
    exited := fun lane is => by
      rcases effect.exited is with was | same
      · obtain ⟨closed, empty, idle⟩ := h.exited lane was
        obtain ⟨still, none_left⟩ := effect.still_empty ⟨closed, empty⟩
        exact ⟨still, none_left, idle⟩
      · rw [same] at of
        cases of
    opened := fun none_yet => by
      have is_open := h.opened none_yet
      obtain ⟨requested, exited, dropped, closed⟩ :=
        effect.opened (is_open.session op mem) is_open.requested
      exact {
        session := List.forall_mem_append.mpr ⟨fun other new => (next other new).2.1,
          fun other old => is_open.session other (later other old)⟩
        workers := is_open.workers
        requested := requested ▸ is_open.requested
        closed := fun lane => (closed lane).trans (is_open.closed lane)
        exited := exited ▸ is_open.exited
        dropped := dropped ▸ is_open.dropped }
    past := h.still_over (.session op rest choice shared ops eq executed) rfl
      (fun before at_end other there => by
        have past := h.past before at_end
        rcases List.mem_append.mp there with new | old
        · refine ⟨?_, (next other new).2.2⟩
          have none_new := (past.session op mem).1
          cases exec_follow executed with
          | routes serial request routed =>
            rw [routed] at none_new
            cases none_new
          | passes work _ at_op =>
            rw [newcomer_of_incoming at_op] at none_new
            cases none_new
          | handles lane work checked =>
            rw [checked] at of
            cases of
          | bare bare => exact (bare other new).1
        · exact past.session other (later other old))
      (fun work is => by
        rcases effect.dropped is with was | ⟨lane, queued⟩ | ⟨lane, same⟩
        · exact .inl was
        · exact .inr ⟨lane, Server.mem_outstanding.mpr (.inl queued)⟩
        · rw [same] at of
          cases of) }

variable {lane : RemoteLane}

theorem begins_of_worker (h : op.OfWorker lane) : op.begins = false := by
  cases op <;> first | rfl | cases h

/-- A worker comes to another list of operations, with the effect of one of its own. -/
theorem worker_moves (h : PhaseInv server) (of : op.OfWorker lane)
    (effect : Effect server.shared shared op) (next : ∀ next ∈ ops, next.OfWorker lane)
    (last : ops.Pairwise fun a _ => a.last = false)
    (exit : .exit lane ∈ ops →
      (shared.queues lane).closed = true ∧ (shared.queues lane).queue = [] ∨
      .shutdownDrain lane ∈ ops)
    (exited : shared.exited lane = true →
      (shared.queues lane).closed = true ∧ (shared.queues lane).queue = [] ∧ ops = [])
    (opened : Open server → op.ending = false ∧ ∀ next ∈ ops, next.ending = false)
    (dropped : ∀ work ∈ shared.dropped, work ∈ server.shared.dropped ∨
      ∃ lane, work ∈ server.outstanding lane)
    (step : Server.Turn server
      { server with shared, workers := Function.update server.workers lane ops }) :
    PhaseInv { server with shared, workers := Function.update server.workers lane ops } := by
  -- every clause about the workers is split into this worker and the other one
  have split {P : RemoteLane → List Op → Prop} (own : P lane ops)
      (others : ∀ other, other ≠ lane → P other (server.workers other)) :
      ∀ other, P other (Function.update server.workers lane ops other) := by
    intro other
    by_cases same : other = lane
    · subst same
      rw [Function.update_self]
      exact own
    · rw [Function.update_of_ne same]
      exact others other same
  exact {
    of_worker := split (P := fun lane ops => ∀ op ∈ ops, op.OfWorker lane) next
      fun other _ => h.of_worker other
    of_session := h.of_session
    last := split (P := fun _ ops => ops.Pairwise fun a _ => a.last = false) last
      fun other _ => h.last other
    order := h.order
    begins := h.begins
    paused := fun other is => by
      rcases effect.paused is with op_begins | ⟨was, -⟩
      · exact nomatch op_begins.symm.trans (begins_of_worker of)
      · exact h.paused other was
    joins :=
      fun other there => (h.joins other there).imp_left fun closed => (effect.closed closed).1
    exit := split (P := fun lane ops => .exit lane ∈ ops →
        (shared.queues lane).closed = true ∧ (shared.queues lane).queue = [] ∨
          .shutdownDrain lane ∈ ops) exit
      fun other _ there => (h.exit other there).imp_left effect.still_empty
    exited := split (P := fun lane ops => shared.exited lane = true →
        (shared.queues lane).closed = true ∧ (shared.queues lane).queue = [] ∧ ops = []) exited
      fun other ne is => by
        rcases effect.exited is with was | same
        · obtain ⟨closed, empty, idle⟩ := h.exited other was
          obtain ⟨still, none_left⟩ := effect.still_empty ⟨closed, empty⟩
          exact ⟨still, none_left, idle⟩
        · subst same
          exact absurd of ne
    opened := fun none_yet => by
      have is_open := h.opened none_yet
      obtain ⟨ending, next_ending⟩ := opened is_open
      obtain ⟨requested, exited, dropped, closed⟩ := effect.opened ending is_open.requested
      exact {
        session := is_open.session
        workers := split (P := fun _ ops => ∀ op ∈ ops, op.ending = false) next_ending
          fun other _ => is_open.workers other
        requested := requested ▸ is_open.requested
        closed := fun other => (closed other).trans (is_open.closed other)
        exited := exited ▸ is_open.exited
        dropped := dropped ▸ is_open.dropped }
    past := h.still_over step rfl (fun before at_end => (h.past before at_end).session) dropped }

/-- A worker that has nothing to do still has nothing to do. -/
theorem worker_idles (h : PhaseInv server) (idle : server.workers lane = []) (of : op.OfWorker lane)
    (effect : Effect server.shared shared op) (exited : shared.exited lane = true →
      (shared.queues lane).closed = true ∧ (shared.queues lane).queue = [])
    (opened : Open server → op.ending = false) (dropped : shared.dropped = server.shared.dropped)
    (step : Server.Turn server { server with shared }) : PhaseInv { server with shared } := by
  have same : Function.update server.workers lane [] = server.workers := by
    rw [← idle, Function.update_eq_self]
  have eq : { server with shared, workers := Function.update server.workers lane [] } =
      { server with shared } := by rw [same]
  rw [← eq] at step ⊢
  refine h.worker_moves of effect (by simp) List.Pairwise.nil (by simp) ?_ ?_ ?_ step
  · intro is
    obtain ⟨closed, empty⟩ := exited is
    exact ⟨closed, empty, rfl⟩
  · exact fun is_open => ⟨opened is_open, by simp⟩
  · exact fun work is => .inl (dropped ▸ is)

/-- A worker goes on. -/
theorem worker (h : PhaseInv server) (eq : server.workers lane = op :: rest)
    (executed : exec server.shared op choice = some (shared, ops)) :
    PhaseInv { server with
      shared, workers := Function.update server.workers lane (ops ++ rest) } := by
  have effect := exec_effect executed
  have mem : op ∈ server.workers lane := eq ▸ List.mem_cons_self
  have of := h.of_worker lane op mem
  obtain ⟨next, pairwise, not_last, exits, ending⟩ := exec_worker executed of
  have last := h.last lane
  rw [eq, List.pairwise_cons] at last
  have later : ∀ other ∈ rest, other ∈ server.workers lane :=
    fun _ old => eq ▸ List.mem_cons_of_mem op old
  refine h.worker_moves of effect ?_ ?_ ?_ ?_ ?_ ?_ (.worker lane op rest choice shared
    ops eq executed)
  · exact List.forall_mem_append.mpr ⟨next, fun other old =>
      h.of_worker lane other (later other old)⟩
  · exact List.pairwise_append.mpr ⟨pairwise, last.2, fun a new b old =>
      not_last (last.1 b old) a new⟩
  · intro there
    rcases List.mem_append.mp there with new | old
    · exact .inr (List.mem_append_left _ (exits new))
    · rcases h.exit lane (later _ old) with empty | drains
      · exact .inl (effect.still_empty empty)
      · rw [eq] at drains
        rcases List.mem_cons.mp drains with same | drains
        · exact .inl (effect.shuts same.symm)
        · exact .inr (List.mem_append_right _ drains)
  · intro is
    rcases effect.exited is with was | same
    · obtain ⟨-, -, idle⟩ := h.exited lane was
      rw [eq] at idle
      cases idle
    · -- the worker leaves: nothing comes after, so its queue has been emptied
      subst same
      have no_rest : rest = [] := List.eq_nil_iff_forall_not_mem.mpr fun b old => by
        cases last.1 b old
      cases executed
      subst no_rest
      rcases h.exit lane mem with empty | drains
      · obtain ⟨still, none_left⟩ := effect.still_empty empty
        exact ⟨still, none_left, rfl⟩
      · rw [eq] at drains
        cases List.mem_singleton.mp drains
  · intro is_open
    exact ⟨is_open.workers lane op mem, List.forall_mem_append.mpr
      ⟨ending (is_open.requested lane), fun other old =>
      is_open.workers lane other (later other old)⟩⟩
  · intro work is
    rcases effect.dropped is with was | ⟨other, queued⟩ | ⟨own, same⟩
    · exact .inl was
    · exact .inr ⟨other, Server.mem_outstanding.mpr (.inl queued)⟩
    · refine .inr ⟨lane, Server.mem_outstanding.mpr (.inr ?_)⟩
      exact List.mem_filterMap.mpr ⟨op, mem, same ▸ rfl⟩

theorem turn (step : Server.Turn server server') (h : PhaseInv server) : PhaseInv server' := by
  cases step with
  | line request choice waits =>
    refine h.reads waits (Server.readLine_shared _ _ _) (Server.readLine_workers _ _ _) ?_
      ?_ ?_ ?_ ?_ ?_
    all_goals rw [Server.readLine_session]
    · exact lineOps_ofSession
    · exact lineOps_order
    · exact lineOps_begins
    · exact lineOps_joins
    · rw [Server.readLine_atEnd]
      split
      · exact nofun
      · exact fun _ => lineOps_opened ‹_›
    · rw [Server.readLine_atEnd]
      intro atEnd eq
      split at eq
      · cases eq
        refine ⟨lineOps_over ‹_›, fun lane work mem => List.mem_map_of_mem ?_⟩
        cases lane with
        | read => exact List.mem_append_left _ mem
        | write => exact List.mem_append_right _ mem
      · exact nomatch (Server.atEnd_of_waits waits).symm.trans eq
  | badLine error waits =>
    refine h.reads waits rfl rfl (by simp [Op.ofSession]) (List.pairwise_singleton _ _)
      (by simp [Op.begins]) (by simp) (by simp [Op.ending]) fun atEnd eq => ?_
    exact nomatch (Server.atEnd_of_waits waits).symm.trans eq
  | endOfInput waits =>
    refine h.reads waits rfl rfl ?_ ?_ ?_ ?_ nofun fun atEnd eq => ?_
    · simp [shutdown, leave, Op.ofSession]
    · simp [shutdown, leave, Op.Before, Op.begins, Op.joins, Op.drains]
    · simp [shutdown, leave, Op.begins]
    · intro lane
      cases lane <;> simp [shutdown, leave]
    · cases eq
      refine ⟨by simp [shutdown, leave, Op.newcomer, Op.resumes], fun lane work mem => ?_⟩
      refine List.mem_map_of_mem ?_
      cases lane with
      | read => exact List.mem_append_left _ mem
      | write => exact List.mem_append_right _ mem
  | session op rest choice shared ops eq executed => exact h.session eq executed
  | worker lane op rest choice shared ops eq executed => exact h.worker eq executed
  | control lane idle alive some_control =>
    have of : (Op.finishStarted lane).OfWorker lane := rfl
    refine h.worker_idles idle of (.queue lane _ rfl rfl rfl rfl rfl rfl
      (fun _ => List.Sublist.refl _) (fun was => .inr ⟨was, Op.noConfusion⟩)
      fun _ _ => Op.noConfusion) ?_ (fun _ => rfl) rfl
      (.control lane idle alive some_control)
    exact fun is => Bool.noConfusion (is.symm.trans alive)
  | starts lane work queue idle alive popped =>
    obtain ⟨closed, paused, -⟩ := RemoteQueue.popWork_flags popped
    obtain ⟨index, -, -, rest⟩ := RemoteQueue.popWork_eq_some popped
    have of : (Op.finishStarted lane).OfWorker lane := rfl
    refine h.worker_moves of
      (.queue lane queue rfl rfl rfl rfl rfl closed (fun _ => rest ▸ List.eraseIdx_sublist _ _)
        (fun was => .inr ⟨paused ▸ was, Op.noConfusion⟩) fun _ _ => Op.noConfusion)
      (by simp [Op.OfWorker]) (List.pairwise_singleton _ _) (by simp) ?_
      (fun _ => ⟨rfl, by simp [Op.ending]⟩) (fun work is => .inl is)
      (.starts lane work queue idle alive popped)
    exact fun is => Bool.noConfusion (is.symm.trans alive)
  | exits lane idle alive nothing closed =>
    -- the queue is not paused: an update is over when the loop has ended
    have empty : (server.shared.queues lane).queue = [] := by
      rcases RemoteQueue.popWork_eq_none nothing with paused | empty
      · have resumes := h.paused lane paused
        cases at_end : server.atEnd with
        | none => exact Bool.noConfusion (closed.symm.trans ((h.opened at_end).closed lane))
        | some before => cases ((h.past before at_end).session _ resumes).2
      · exact empty
    have of : (Op.exit lane).OfWorker lane := rfl
    exact h.worker_idles idle of (.exits lane rfl rfl rfl rfl rfl) (fun _ => ⟨closed, empty⟩)
      (fun is_open => Bool.noConfusion (closed.symm.trans (is_open.closed lane))) rfl
      (.exits lane idle alive nothing closed)

/-- **The shape is kept in every run.** -/
theorem run {moves : List Server.Move} (ran : Server.start.run moves = some server) :
    PhaseInv server :=
  Server.run_preserves turn ran start

end PhaseInv

/-! ### Nothing gets stuck -/

/-- A move of the loop or of a worker, not of the client. -/
def Server.Move.internal : Server.Move → Bool
  | .session _ | .worker .. => true
  | _ => false

/-- Only the wait for a worker can be refused for ever. -/
theorem exec_eq_none (h : ∀ choice, exec s op choice = none) :
    ∃ lane, op = .join lane ∧ s.exited lane = false := by
  have fails := h (.fails "")
  cases op with
  | join lane =>
    refine ⟨lane, rfl, ?_⟩
    by_contra exited
    rw [Bool.not_eq_false] at exited
    rw [exec, if_pos exited] at fails
    cases fails
  | cancelQueued lane target serial id | push work =>
    simp only [exec] at fails
    split at fails
    · cases fails
    · first
        | cases fails
        | (split at fails <;> cases fails)
  | checkStart lane work =>
    simp only [exec] at fails
    split at fails <;> cases fails
  | answer | reply | clearRemote | clearWrites | shutdownDrain | interrupt
  | beginMaintenance | maintain
  | endMaintenance | route | registerRemote | registerWrites | closeBackground | handle | checkEnd
  | finishStarted | exit => cases fails

theorem Server.take_eq_none (h : server.take lane = none) : server.shared.exited lane = true ∨
      (server.shared.queues lane).popWork = none ∧ (server.shared.queues lane).closed = false := by
  simp only [take] at h
  split at h
  · exact .inl ‹_›
  split at h
  · cases h
  split at h
  · cases h
  · rename_i nothing
    split at h
    · cases h
    · rename_i is_open
      rw [Bool.not_eq_true] at is_open
      exact .inr ⟨nothing, is_open⟩

/-- **When nothing can go on, nothing is left to do.** -/
theorem PhaseInv.quiet_of_stuck (h : PhaseInv server)
    (stuck : ∀ move : Server.Move, move.internal = true → server.step move = none) :
    server.session = [] ∧ (∀ lane, server.workers lane = []) ∧
      ∀ lane, (server.shared.queues lane).queue = [] := by
  have workers : ∀ lane, server.workers lane = [] := by
    intro lane
    match eq : server.workers lane with
    | [] => rfl
    | op :: rest =>
      have refused : ∀ choice, exec server.shared op choice = none := by
        intro choice
        have none_next := stuck (.worker lane choice) rfl
        simp only [Server.step, eq] at none_next
        exact Option.map_eq_none_iff.mp none_next
      obtain ⟨joined, same, -⟩ := exec_eq_none refused
      have of := h.of_worker lane op (eq ▸ List.mem_cons_self)
      rw [same] at of
      cases of
  have takes : ∀ lane, server.shared.exited lane = true ∨
      (server.shared.queues lane).popWork = none ∧ (server.shared.queues lane).closed = false := by
    intro lane
    have none_next := stuck (.worker lane .succeeds) rfl
    simp only [Server.step, workers lane] at none_next
    exact Server.take_eq_none none_next
  have session : server.session = [] := by
    match eq : server.session with
    | [] => rfl
    | op :: rest =>
      have refused : ∀ choice, exec server.shared op choice = none := by
        intro choice
        have none_next := stuck (.session choice) rfl
        simp only [Server.step, eq] at none_next
        exact Option.map_eq_none_iff.mp none_next
      obtain ⟨lane, same, alive⟩ := exec_eq_none refused
      subst same
      -- the loop waits for a worker whose queue is closed, and such a worker goes on
      rcases takes lane with exited | ⟨-, is_open⟩
      · exact Bool.noConfusion (exited.symm.trans alive)
      · rcases h.joins lane (eq ▸ List.mem_cons_self) with closed | drains
        · exact Bool.noConfusion (closed.symm.trans is_open)
        · have order := h.order
          rw [eq, List.pairwise_cons] at order
          rw [eq] at drains
          rcases List.mem_cons.mp drains with same | later
          · cases same
          · cases (order.1 _ later).2 rfl
  refine ⟨session, workers, fun lane => ?_⟩
  rcases takes lane with exited | ⟨nothing, -⟩
  · exact (h.exited lane exited).2.1
  · rcases RemoteQueue.popWork_eq_none nothing with paused | empty
    · have resumes := h.paused lane paused
      rw [session] at resumes
      cases resumes
    · exact empty

/-! ### Everything comes to an end -/

def Stage.weight : Stage → ℕ
  | .quiesceRead => 9
  | .quiesceWrite => 8
  | .resetRead => 7
  | .awaitRead => 5
  | .resetWrite => 4
  | .awaitWrite => 2
  | .install => 1

/-- What an operation leaves to do, itself included. -/
def Op.weight : Op → ℕ
  | .answer _ | .reply .. | .clearRemote _ | .clearWrites _ | .interrupt _ | .endMaintenance _ => 1
  | .finishStarted _ | .exit _ | .join _ => 1
  | .shutdownDrain _ | .closeBackground _ => 3
  | .checkEnd _ => 6
  | .handle .. => 10
  | .checkStart .. => 11
  | .cancelQueued .read .. => 3
  | .cancelQueued .write .. => 2
  | .maintain stage => stage.weight
  | .beginMaintenance .read drained => 11 + 3 * drained.length
  | .beginMaintenance .write drained => 10 + 3 * drained.length
  | .push _ => 15
  | .registerWrites _ => 16
  | .registerRemote _ => 17
  | .route .. => 18

def weigh (ops : List Op) : ℕ := (ops.map Op.weight).sum

@[simp] theorem weigh_nil : weigh [] = 0 := rfl

@[simp] theorem weigh_cons (op : Op) (ops : List Op) : weigh (op :: ops) = op.weight + weigh ops :=
  rfl

@[simp] theorem weigh_append (ops ops' : List Op) :
    weigh (ops ++ ops') = weigh ops + weigh ops' := by
  simp [weigh]

/-- What is left to do with a queue and by its worker. -/
def Shared.laneWeight (s : Shared) (lane : RemoteLane) : ℕ :=
  12 * (s.queues lane).queue.length + (s.queues lane).controls + (!s.exited lane).toNat

def Shared.weight (s : Shared) : ℕ := s.laneWeight .read + s.laneWeight .write

/-- What is left to do. -/
def Server.weight (server : Server) : ℕ :=
  weigh server.session + weigh (server.workers .read) + weigh (server.workers .write) +
    server.shared.weight

theorem Shared.weight_setQueue (s : Shared) (lane : RemoteLane) (queue : RemoteQueue) :
    (s.setQueue lane queue).weight + (12 * (s.queues lane).queue.length +
      (s.queues lane).controls) = s.weight + (12 * queue.queue.length + queue.controls) := by
  cases lane <;> simp [weight, laneWeight, setQueue] <;> omega

theorem Shared.weight_exit (s : Shared) (lane : RemoteLane) :
    { s with exited := Function.update s.exited lane true }.weight +
      (!s.exited lane).toNat = s.weight := by
  cases lane <;> simp [weight, laneWeight] <;> omega

theorem weigh_settle (works : List Work) : weigh (works.flatMap settle) = 3 * works.length := by
  induction works with
  | nil => rfl
  | cons work works ih =>
    rw [List.flatMap_cons, weigh_append, ih, List.length_cons]
    simp only [settle, clearPending, List.cons_append, List.nil_append, weigh_cons, weigh_nil,
      Op.weight]
    omega

theorem weigh_preempted (works : List Work) :
    weigh (works.map fun work => .answer (preemptedClientResponse work)) = works.length := by
  induction works with
  | nil => rfl
  | cons work works ih =>
    rw [List.map_cons, weigh_cons, ih, List.length_cons, Op.weight]
    omega

theorem RemoteQueue.tryPush_controls {queue queue' : RemoteQueue} {work : Work}
    {canceled : List Work}
    (h : queue.tryPush work = some (canceled, queue')) : queue'.controls = queue.controls := by
  unfold tryPush at h
  repeat' split at h
  all_goals cases h
  all_goals rfl

/-- **Every operation leaves less to do than there was.** -/
theorem exec_weight (h : exec s op choice = some (s', ops)) :
    weigh ops + s'.weight < op.weight + s.weight := by
  have lighter : ∀ {after : Shared} {next : List Op}, after.weight = s.weight →
      weigh next < op.weight → weigh next + after.weight < op.weight + s.weight := by
    intro after next same less
    omega
  cases op with
  | shutdownDrain lane =>
    cases h
    have moved := s.weight_setQueue lane (s.queues lane).shutdownAndDrain.2
    have dropped : ((s.setQueue lane (s.queues lane).shutdownAndDrain.2).drop
        (s.queues lane).shutdownAndDrain.1).weight =
          (s.setQueue lane (s.queues lane).shutdownAndDrain.2).weight := rfl
    rw [dropped]
    simp only [RemoteQueue.shutdownAndDrain, RemoteQueue.drainAll, List.length_nil] at moved ⊢
    simp only [clearPending, weigh_cons, weigh_nil, Op.weight]
    omega
  | closeBackground lane =>
    cases h
    have moved := s.weight_setQueue lane (s.queues lane).closeAndDrainBackground.2
    have fewer := (RemoteQueue.closeAndDrainBackground_perm (s.queues lane)).length_eq
    have controls : (s.queues lane).closeAndDrainBackground.2.controls =
      (s.queues lane).controls := rfl
    have dropped : ((s.setQueue lane (s.queues lane).closeAndDrainBackground.2).drop
        (s.queues lane).closeAndDrainBackground.1).weight =
          (s.setQueue lane (s.queues lane).closeAndDrainBackground.2).weight := rfl
    rw [List.length_append] at fewer
    rw [dropped]
    simp only [clearPending, weigh_cons, weigh_nil, Op.weight]
    omega
  | cancelQueued lane target serial id =>
    simp only [exec] at h
    split at h
    · rename_i work queue canceled
      cases h
      have moved := s.weight_setQueue lane queue
      have fewer := (RemoteQueue.cancel_eq_some canceled).1.length_eq
      obtain ⟨-, -, controls⟩ := RemoteQueue.cancel_flags canceled
      rw [List.length_cons] at fewer
      simp only [settle, clearPending, List.cons_append, List.nil_append, weigh_cons, weigh_nil,
        Op.weight]
      omega
    · split at h <;> cases h <;> exact lighter rfl (by simp [Op.weight])
  | beginMaintenance lane drained =>
    cases h
    have moved := s.weight_setQueue lane (s.queues lane).beginMaintenanceAndDrain.2
    simp only [RemoteQueue.beginMaintenanceAndDrain, RemoteQueue.drainAll,
      List.length_nil] at moved ⊢
    cases lane with
    | read =>
      simp only [weigh_cons, weigh_nil, Op.weight, List.length_append]
      omega
    | write =>
      simp only [weigh_append, weigh_settle, weigh_cons, weigh_nil, Op.weight, Stage.weight,
        List.length_append]
      omega
  | maintain stage =>
    simp only [exec] at h
    split at h
    · cases h
      exact lighter rfl (by cases stage <;> decide)
    · obtain ⟨after, maintained, eq⟩ := Option.map_eq_some_iff.mp h
      cases eq
      obtain rfl | ⟨resets, lane, rfl⟩ := maintain_eq_some maintained
      · exact lighter rfl (by cases stage <;> decide)
      · have moved := s.weight_setQueue lane { s.queues lane with
          controls := (s.queues lane).controls + 1 }
        obtain rfl | rfl := resets <;>
          simp only [Stage.next, Option.map_some, Option.toList_some, weigh_cons, weigh_nil,
            Op.weight, Stage.weight] at moved ⊢ <;> omega
  | endMaintenance lane =>
    cases h
    have same := s.weight_setQueue lane (s.queues lane).endMaintenance
    simp only [RemoteQueue.endMaintenance] at same ⊢
    exact lighter (by omega) Nat.one_pos
  | finishStarted lane =>
    cases h
    have same := s.weight_setQueue lane (s.queues lane).finishStarted
    simp only [RemoteQueue.finishStarted] at same ⊢
    exact lighter (by omega) Nat.one_pos
  | registerWrites work | checkEnd lane =>
    cases h
    split <;> exact lighter rfl (by simp [Op.weight])
  | push work =>
    simp only [exec] at h
    split at h
    · rename_i canceled queue pushed
      cases h
      have moved := s.weight_setQueue work.lane queue
      have fewer := (RemoteQueue.tryPush_eq_some pushed).1.length_eq
      have controls := RemoteQueue.tryPush_controls pushed
      simp only [List.length_append, List.length_cons, List.length_nil] at fewer
      rw [weigh_append, weigh_preempted]
      simp only [clearPending, weigh_cons, weigh_nil, Op.weight]
      omega
    · cases h
      exact lighter rfl (by simp [clearPending, Op.weight])
  | join lane =>
    obtain ⟨-, eq⟩ := Option.ite_none_right_eq_some.mp h
    cases eq
    exact lighter rfl Nat.one_pos
  | checkStart lane work =>
    simp only [exec] at h
    split at h <;> cases h <;> exact lighter rfl (by simp [clearPending, Op.weight])
  | exit lane =>
    cases h
    have left := s.weight_exit lane
    simp only [weigh_nil, Op.weight]
    omega
  | handle =>
    cases h
    exact lighter rfl (by simp [clearPending, Op.weight])
  | answer | reply | clearRemote | clearWrites | interrupt | route | registerRemote =>
    cases h
    exact lighter rfl (by simp [Op.weight])

namespace Server

variable {server server' : Server}

theorem take_weight (idle : server.workers lane = []) (taken : server.take lane = some server') :
    server'.weight < server.weight := by
  simp only [take] at taken
  split at taken
  · cases taken
  rename_i alive
  split at taken
  · rename_i some_control
    cases taken
    have moved := server.shared.weight_setQueue lane { server.shared.queues lane with
      controls := (server.shared.queues lane).controls - 1 }
    simp only [weight] at moved ⊢
    omega
  split at taken
  · rename_i work queue popped
    cases taken
    have moved := server.shared.weight_setQueue lane queue
    have fewer := (RemoteQueue.perm_of_popWork popped).length_eq
    obtain ⟨-, -, controls⟩ := RemoteQueue.popWork_flags popped
    rw [List.length_cons] at fewer
    cases lane <;> simp [weight, idle, Op.weight] <;> omega
  · split at taken
    · cases taken
      have left := server.shared.weight_exit lane
      rw [Bool.not_eq_true] at alive
      simp only [weight, alive, Bool.not_false, Bool.toNat_true] at left ⊢
      omega
    · cases taken

theorem step_weight {move : Move} (internal : move.internal = true)
    (stepped : server.step move = some server') : server'.weight < server.weight := by
  cases move with
  | line | badLine | endOfInput => cases internal
  | session choice =>
    simp only [step] at stepped
    split at stepped
    · cases stepped
    · rename_i op rest session
      obtain ⟨⟨shared, ops⟩, executed, eq⟩ := Option.map_eq_some_iff.mp stepped
      cases eq
      have less := exec_weight executed
      simp only [weight, session, weigh_append, weigh_cons]
      omega
  | worker lane choice =>
    simp only [step] at stepped
    split at stepped
    · exact take_weight ‹_› stepped
    · rename_i op rest worker
      obtain ⟨⟨shared, ops⟩, executed, eq⟩ := Option.map_eq_some_iff.mp stepped
      cases eq
      have less := exec_weight executed
      cases lane <;> simp [weight, worker] <;> omega

/-- **Without a new line everything comes to an end.** -/
theorem run_length_le {moves : List Move} (internal : ∀ move ∈ moves, move.internal = true)
    (ran : server.run moves = some server') : moves.length + server'.weight ≤ server.weight := by
  induction moves generalizing server with
  | nil => exact Option.some.inj ran ▸ Nat.le_of_eq (Nat.zero_add _)
  | cons move moves ih =>
    obtain ⟨next, stepped, rest⟩ := Option.bind_eq_some_iff.mp ran
    have less := step_weight (internal move List.mem_cons_self) stepped
    have tail := ih (fun move mem => internal move (List.mem_cons_of_mem _ mem)) rest
    rw [List.length_cons]
    omega

end Server

end RemoteMirror.Lanes
