/-
**Maintenance of the lanes: from quiescence to the end of the guard nothing runs.**

While the agent of a host is replaced, a `RemoteMaintenanceGuard` pauses the queues of both lanes,
and `wait_for_remote_queues_quiescent` waits until no work is in flight on either.  It looks at one
queue after the other, while works are pushed, taken, finished and cancelled, workers are reset and
queues are shut down.

Here the queues are used by everybody at any moment, and not only as one session uses them.

Main definitions:

* `Lanes.Upkeep.Phase` — how far the thread that maintains the lanes has come;
* `Lanes.Upkeep.State.step`, `Lanes.Upkeep.State.run` — all threads on the two queues.

Main results:

* `Lanes.Upkeep.nothing_runs_while_quiescent` — **nothing runs and nothing starts until the guard is
  dropped**.
-/

import RemoteMirror.LaneTables

namespace RemoteMirror.Lanes.Upkeep

/-- What the thread that maintains the lanes does next. -/
inductive Phase
  /-- there is no guard -/
  | outside
  /-- the queue of the read lane is paused -/
  | begun
  /-- the loop looks whether the read lane is idle, -/
  | lookRead
  /-- and then whether the write lane is -/
  | lookWrite (readIdle : Bool)
  /-- both were; it waits for the processes of the lanes to exit -/
  | exits
  /-- `wait_for_remote_queues_quiescent` has succeeded, and the guard is there -/
  | quiescent
  /-- the guard is being dropped, and the read lane goes on -/
  | dropping
  deriving DecidableEq

structure State where
  queues : RemoteLane → RemoteQueue
  /-- the works that were taken and whose `RemoteInFlightGuard` has not been dropped -/
  running : RemoteLane → List Work
  phase : Phase

def State.start : State where
  queues _ := .new remoteInteractiveQueueCapacity remoteBackgroundQueueCapacity
  running _ := []
  phase := .outside

inductive Act
  | push (lane : RemoteLane) (work : Work)
  /-- a worker takes an item -/
  | pop (lane : RemoteLane)
  | finish (lane : RemoteLane) (index : ℕ)
  | cancel (lane : RemoteLane) (requestId : ℕ)
  | reset (lane : RemoteLane)
  | shutdown (lane : RemoteLane)
  | closeBackground (lane : RemoteLane)
  /-- maintenance goes on, or it fails at this point -/
  | maintain (succeeds : Bool)

namespace State

def setQueue (s : State) (lane : RemoteLane) (queue : RemoteQueue) : State :=
  { s with queues := Function.update s.queues lane queue }

/-- The first half of dropping the guard. -/
def drop (s : State) : State :=
  { s.setQueue .read (s.queues .read).endMaintenance with phase := .dropping }

/-- `RemoteMaintenanceGuard::begin`, the loop of `wait_for_remote_queues_quiescent`, and the end of
the guard. -/
def maintain (s : State) (succeeds : Bool) : State :=
  match s.phase with
  | .outside =>
    { s.setQueue .read (s.queues .read).beginMaintenanceAndDrain.2 with phase := .begun }
  | .begun =>
    { s.setQueue .write (s.queues .write).beginMaintenanceAndDrain.2 with phase := .lookRead }
  | .lookRead =>
    if succeeds then { s with phase := .lookWrite ((s.queues .read).inFlight = 0) } else s.drop
  | .lookWrite readIdle =>
    if succeeds then
      { s with phase := if readIdle && (s.queues .write).inFlight = 0 then .exits else .lookRead }
    else s.drop
  | .exits => if succeeds then { s with phase := .quiescent } else s.drop
  | .quiescent => s.drop
  | .dropping => { s.setQueue .write (s.queues .write).endMaintenance with phase := .outside }

/-- `pop_worker_item`: control items first. -/
def pop (s : State) (lane : RemoteLane) : Option State :=
  let queue := s.queues lane
  if 0 < queue.controls then some (s.setQueue lane { queue with controls := queue.controls - 1 })
  else
    queue.popWork.map fun (work, queue) =>
      { s.setQueue lane queue with
        running := Function.update s.running lane (work :: s.running lane) }

def step (s : State) : Act → Option State
  | .push lane work =>
    some ((((s.queues lane).tryPush work).map fun pushed => s.setQueue lane pushed.2).getD s)
  | .pop lane => s.pop lane
  | .finish lane index =>
    if index < (s.running lane).length then
      some { s.setQueue lane (s.queues lane).finishStarted with
        running := Function.update s.running lane ((s.running lane).eraseIdx index) }
    else none
  | .cancel lane requestId =>
    some ((((s.queues lane).cancel requestId).map fun canceled =>
      s.setQueue lane canceled.2).getD s)
  | .reset lane =>
    if (s.queues lane).closed then some s
    else some (s.setQueue lane { s.queues lane with controls := (s.queues lane).controls + 1 })
  | .shutdown lane => some (s.setQueue lane (s.queues lane).shutdownAndDrain.2)
  | .closeBackground lane => some (s.setQueue lane (s.queues lane).closeAndDrainBackground.2)
  | .maintain succeeds => some (s.maintain succeeds)

def run (s : State) : List Act → Option State
  | [] => some s
  | act :: acts => (s.step act).bind fun s => s.run acts

end State

/-! ### The invariant -/

/-- The guard pauses the queue of this lane. -/
def Phase.pauses : Phase → RemoteLane → Bool
  | .outside, _ => false
  | .begun, lane => lane = .read
  | .dropping, lane => lane = .write
  | _, _ => true

/-- This lane has been seen idle, and is paused since. -/
def Phase.idle : Phase → RemoteLane → Bool
  | .lookWrite readIdle, lane => readIdle && lane = .read
  | .exits, _ | .quiescent, _ => true
  | _, _ => false

/-- The counter of a lane counts what runs on it; a paused lane that was idle still is. -/
structure LaneInv (phase : Phase) (lane : RemoteLane) (queue : RemoteQueue) (running : List Work) :
    Prop where
  counted : queue.inFlight = running.length
  paused : phase.pauses lane = true → queue.maintenancePaused = true
  idle : phase.idle lane = true → running = []

def Inv (s : State) : Prop := ∀ lane, LaneInv s.phase lane (s.queues lane) (s.running lane)

variable {s s' : State} {lane : RemoteLane} {queue queue' : RemoteQueue} {work : Work}
  {phase : Phase}

theorem pauses_of_idle (h : phase.idle lane = true) : phase.pauses lane = true := by
  cases phase with
  | lookWrite | exits | quiescent => rfl
  | outside | begun | lookRead | dropping => cases h

/-- Neither the counter nor the pause has changed. -/
def Same (queue queue' : RemoteQueue) : Prop :=
  queue'.inFlight = queue.inFlight ∧ queue'.maintenancePaused = queue.maintenancePaused

theorem same_remove {index : ℕ} (h : queue.remove index = some (work, queue')) :
    Same queue queue' := by
  obtain ⟨found, -, eq⟩ := Option.map_eq_some_iff.mp h
  cases eq
  cases work.priority <;> exact ⟨rfl, rfl⟩

theorem same_cancel {requestId : ℕ} (h : queue.cancel requestId = some (work, queue')) :
    Same queue queue' := by
  obtain ⟨index, -, removed⟩ := Option.bind_eq_some_iff.mp h
  exact same_remove removed

theorem same_tryPush {canceled : List Work} (h : queue.tryPush work = some (canceled, queue')) :
    Same queue queue' := by
  obtain ⟨-, ⟨-, -, -, rfl⟩ | ⟨-, -, -, rfl⟩⟩ := RemoteQueue.tryPush_cases h
  all_goals exact ⟨rfl, rfl⟩

/-- A work is taken and counted at once, and only from a queue that is not paused. -/
theorem popWork_counts (h : queue.popWork = some (work, queue')) :
    queue.maintenancePaused = false ∧ queue'.inFlight = queue.inFlight + 1 ∧
      queue'.maintenancePaused = false := by
  unfold RemoteQueue.popWork at h
  split at h
  · cases h
  · rename_i goes
    rw [Bool.not_eq_true] at goes
    obtain ⟨index, -, removed⟩ := Option.bind_eq_some_iff.mp h
    obtain ⟨counted, paused⟩ := same_remove removed
    exact ⟨goes, counted, paused.trans goes⟩

/-- One lane changes, the phase does not. -/
theorem Inv.update {running : List Work} (h : Inv s)
    (changed : LaneInv s.phase lane queue running) :
    Inv { s.setQueue lane queue with running := Function.update s.running lane running } := by
  intro other
  by_cases eq : other = lane
  · subst eq
    simpa [State.setQueue] using changed
  · simpa [State.setQueue, Function.update_of_ne eq] using h other

theorem Inv.same (h : Inv s) (same : Same (s.queues lane) queue) : Inv (s.setQueue lane queue) := by
  have changed : LaneInv s.phase lane queue (s.running lane) :=
    ⟨same.1.trans (h lane).counted, fun pauses => same.2.trans ((h lane).paused pauses),
      (h lane).idle⟩
  simpa [State.setQueue] using h.update changed

theorem Inv.pop (h : Inv s) (popped : s.pop lane = some s') : Inv s' := by
  unfold State.pop at popped
  dsimp only at popped
  split at popped
  · cases popped
    exact h.same ⟨rfl, rfl⟩
  · obtain ⟨⟨work, queue⟩, taken, rfl⟩ := Option.map_eq_some_iff.mp popped
    obtain ⟨goes, counted, -⟩ := popWork_counts taken
    -- the guard does not pause this lane, so the lane is not one that has to be idle
    have free : ¬ s.phase.pauses lane = true := fun pauses => by
      rw [(h lane).paused pauses] at goes
      cases goes
    refine h.update ⟨?_, fun pauses => absurd pauses free, fun idle =>
      absurd (pauses_of_idle idle) free⟩
    rw [counted, (h lane).counted, List.length_cons]

theorem Inv.finish {index : ℕ} (h : Inv s) (bound : index < (s.running lane).length) :
    Inv { s.setQueue lane (s.queues lane).finishStarted with
      running := Function.update s.running lane ((s.running lane).eraseIdx index) } := by
  refine h.update ⟨?_, (h lane).paused, fun idle => ?_⟩
  · rw [List.length_eraseIdx_of_lt bound, ← (h lane).counted]
    rfl
  · rw [(h lane).idle idle]
    rfl

/-- The phase changes, and what it asks of the lanes is there. -/
theorem Inv.moves (h : Inv s)
    (paused : ∀ lane, phase.pauses lane = true → (s.queues lane).maintenancePaused = true)
    (idle : ∀ lane, phase.idle lane = true → s.running lane = []) : Inv { s with phase } :=
  fun lane => ⟨(h lane).counted, paused lane, idle lane⟩

theorem Inv.drop (h : Inv s) (both : s.phase.pauses .write = true) : Inv s.drop := by
  intro lane
  cases lane with
  | read => exact ⟨(h .read).counted, nofun, nofun⟩
  | write => exact ⟨(h .write).counted, fun _ => (h .write).paused both, nofun⟩

theorem idle_of_inFlight (h : Inv s) (zero : (s.queues lane).inFlight = 0) : s.running lane = [] :=
  List.length_eq_zero_iff.mp ((h lane).counted.symm.trans zero)

theorem Inv.maintain (h : Inv s) (succeeds : Bool) : Inv (s.maintain succeeds) := by
  unfold State.maintain
  have paused := fun lane => (h lane).paused
  have idle := fun lane => (h lane).idle
  cases phase : s.phase with
  | outside =>
    intro lane
    cases lane with
    | read => exact ⟨(h .read).counted, fun _ => rfl, nofun⟩
    | write => exact ⟨(h .write).counted, nofun, nofun⟩
  | begun =>
    intro lane
    cases lane with
    | read => exact ⟨(h .read).counted, fun _ => paused .read (by rw [phase]; rfl), nofun⟩
    | write => exact ⟨(h .write).counted, fun _ => rfl, nofun⟩
  | lookRead =>
    rw [phase] at paused
    cases succeeds with
    | false => exact h.drop (by rw [phase]; rfl)
    | true =>
      refine h.moves paused fun lane seen => ?_
      obtain ⟨zero, rfl⟩ : (s.queues .read).inFlight = 0 ∧ lane = .read := by
        simpa [Phase.idle] using seen
      exact idle_of_inFlight h zero
  | lookWrite readIdle =>
    rw [phase] at paused idle
    cases succeeds with
    | false => exact h.drop (by rw [phase]; rfl)
    | true =>
      refine h.moves (fun lane _ => paused lane rfl) fun lane seen => ?_
      by_cases both : (readIdle && (s.queues .write).inFlight = 0) = true
      · obtain ⟨rfl, zero⟩ : readIdle = true ∧ (s.queues .write).inFlight = 0 := by simpa using both
        cases lane with
        | read => exact idle .read rfl
        | write => exact idle_of_inFlight h zero
      · rw [if_neg both] at seen
        cases seen
  | exits =>
    rw [phase] at paused idle
    cases succeeds with
    | false => exact h.drop (by rw [phase]; rfl)
    | true => exact h.moves paused idle
  | quiescent => exact h.drop (by rw [phase]; rfl)
  | dropping =>
    intro lane
    cases lane with
    | read => exact ⟨(h .read).counted, nofun, nofun⟩
    | write => exact ⟨(h .write).counted, nofun, nofun⟩

theorem Inv.step {act : Act} (h : Inv s) (stepped : s.step act = some s') : Inv s' := by
  cases act with
  | push lane work =>
    cases stepped
    cases pushed : (s.queues lane).tryPush work with
    | none => exact h
    | some found => exact h.same (same_tryPush pushed)
  | pop lane => exact h.pop stepped
  | finish lane index =>
    obtain ⟨bound, eq⟩ := Option.ite_none_right_eq_some.mp stepped
    exact Option.some.inj eq ▸ h.finish bound
  | cancel lane requestId =>
    cases stepped
    cases canceled : (s.queues lane).cancel requestId with
    | none => exact h
    | some found => exact h.same (same_cancel canceled)
  | reset lane =>
    simp only [State.step] at stepped
    split at stepped
    · exact Option.some.inj stepped ▸ h
    · exact Option.some.inj stepped ▸ h.same ⟨rfl, rfl⟩
  | shutdown lane | closeBackground lane => exact Option.some.inj stepped ▸ h.same ⟨rfl, rfl⟩
  | maintain succeeds => exact Option.some.inj stepped ▸ h.maintain succeeds

theorem Inv.run {acts : List Act} (h : Inv s) (ran : s.run acts = some s') : Inv s' := by
  induction acts generalizing s with
  | nil => exact Option.some.inj ran ▸ h
  | cons act acts ih =>
    obtain ⟨next, stepped, rest⟩ := Option.bind_eq_some_iff.mp ran
    exact ih (h.step stepped) rest

/-- A worker that looks into a paused queue starts nothing. -/
theorem running_of_pop (paused : (s.queues lane).maintenancePaused = true)
    (popped : s.pop lane = some s') : s'.running = s.running := by
  unfold State.pop at popped
  dsimp only at popped
  split at popped
  · cases popped
    rfl
  · obtain ⟨found, taken, -⟩ := Option.map_eq_some_iff.mp popped
    exact absurd ((popWork_counts taken).1.symm.trans paused) nofun

/-- **From the moment both lanes are quiescent until the guard is dropped nothing runs, and nothing
is started**, whatever the other threads do. -/
theorem nothing_runs_while_quiescent (acts : List Act) (s : State)
    (ran : State.start.run acts = some s) (quiescent : s.phase = .quiescent) (lane : RemoteLane) :
    s.running lane = [] ∧ ∀ s', s.step (.pop lane) = some s' → s'.running = s.running := by
  have start : Inv .start := fun lane => ⟨rfl, nofun, nofun⟩
  obtain ⟨-, paused, idle⟩ := start.run ran lane
  rw [quiescent] at paused idle
  exact ⟨idle rfl, fun s' => running_of_pop (paused rfl)⟩

/-- A work was taken before the guard, and is waited for. -/
def Sample.acts : List Act :=
  let request : ClientRequest := ⟨1, "read_file", .null⟩
  [.push .read ⟨0, request, PendingHazard.forRequest request, .interactive, .read, false⟩,
    .pop .read, .maintain true, .maintain true, .finish .read 0, .maintain true, .maintain true,
    .maintain true]

theorem nothing_runs_while_quiescent_run :
    ∃ s, State.start.run Sample.acts = some s ∧ s.phase = .quiescent ∧ s.running .read = [] := by
  have reached : ((State.start.run Sample.acts).map State.phase) = some .quiescent := by decide
  obtain ⟨s, ran, quiescent⟩ := Option.map_eq_some_iff.mp reached
  exact ⟨s, ran, quiescent, (nothing_runs_while_quiescent _ s ran quiescent .read).1⟩

end RemoteMirror.Lanes.Upkeep
