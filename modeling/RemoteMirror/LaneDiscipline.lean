/-
**The discipline of a queue: counters, order, and who may start first.**

A `RemoteQueue` counts its interactive and its background works apart, and refuses a push when the
counter of that priority is at its capacity.  Works are pushed at the end and leave from anywhere:
they are started, cancelled, give way to an interactive work, or a drain takes them.

Here one queue goes through any sequence of such operations, and for statements only it is kept
which works it has accepted and which were started, in order.

Main definitions:

* `Lanes.Discipline.Act`, `Lanes.Discipline.step` — what is done to the queue of a lane;
* `Lanes.Discipline.Counted` — the counters are right and within the capacities.

Main results:

* `Lanes.Discipline.background_of_popWork` — who starts when an interactive work is queued;
* `Lanes.Discipline.queue_discipline` — **the counters, the order of starts and the start rule,
  after every sequence of operations**.
-/

import RemoteMirror.LaneTables

namespace RemoteMirror.Lanes.Discipline

/-- What is done to the queue of a lane. -/
inductive Act
  | push (work : Work)
  /-- `pop_worker_item` -/
  | pop
  | finish
  | cancel (requestId : ℕ)
  /-- `reset_agent_worker` -/
  | reset
  | beginMaintenance
  | endMaintenance
  | shutdown
  | closeBackground

structure State where
  queue : RemoteQueue
  /-- the works the queue has accepted, and -/
  pushed : List Work
  /-- those that were started, in order -/
  started : List Work

def State.start (interactiveCapacity backgroundCapacity : ℕ) : State :=
  ⟨.new interactiveCapacity backgroundCapacity, [], []⟩

def step (s : State) : Act → State
  | .push work =>
    match s.queue.tryPush work with
    | some (_, queue) => { s with queue, pushed := s.pushed ++ [work] }
    | none => s
  | .pop =>
    if 0 < s.queue.controls then
      { s with queue := { s.queue with controls := s.queue.controls - 1 } }
    else
      match s.queue.popWork with
      | some (work, queue) => { s with queue, started := s.started ++ [work] }
      | none => s
  | .finish => { s with queue := s.queue.finishStarted }
  | .cancel requestId =>
    match s.queue.cancel requestId with
    | some (_, queue) => { s with queue }
    | none => s
  | .reset =>
    if s.queue.closed then s
    else { s with queue := { s.queue with controls := s.queue.controls + 1 } }
  | .beginMaintenance => { s with queue := s.queue.beginMaintenanceAndDrain.2 }
  | .endMaintenance => { s with queue := s.queue.endMaintenance }
  | .shutdown => { s with queue := s.queue.shutdownAndDrain.2 }
  | .closeBackground => { s with queue := s.queue.closeAndDrainBackground.2 }

def run (interactiveCapacity backgroundCapacity : ℕ) (acts : List Act) : State :=
  acts.foldl step (.start interactiveCapacity backgroundCapacity)

def hasPriority (priority : RemotePriority) (work : Work) : Bool := work.priority = priority

/-- The counter of a priority, and -/
def len (queue : RemoteQueue) : RemotePriority → ℕ
  | .interactive => queue.interactiveLen
  | .background => queue.backgroundLen

/-- its bound -/
def capacity (queue : RemoteQueue) : RemotePriority → ℕ
  | .interactive => queue.interactiveCapacity
  | .background => queue.backgroundCapacity

variable {queue queue' : RemoteQueue} {work : Work}

/-! ### The counters -/

/-- **The counters are right and within the capacities.** -/
def Counted (queue : RemoteQueue) : Prop :=
  ∀ priority, len queue priority = queue.queue.countP (hasPriority priority) ∧
    len queue priority ≤ capacity queue priority

theorem Counted.remove {index : ℕ} (h : Counted queue)
    (removed : queue.remove index = some (work, queue')) : Counted queue' := by
  intro priority
  obtain ⟨at_index, rest⟩ := RemoteQueue.remove_eq_some removed
  have count := (RemoteQueue.perm_of_eraseIdx at_index rest).countP_eq (hasPriority priority)
  rw [List.countP_cons, ← (h priority).1] at count
  have le := (h priority).2
  obtain ⟨found, -, eq⟩ := Option.map_eq_some_iff.mp removed
  cases eq
  cases own : work.priority <;> cases priority
  all_goals simp only [own, len, capacity, hasPriority, RemoteQueue.decrement, decide_true,
    reduceCtorEq, decide_false, Bool.false_eq_true, reduceIte] at count le ⊢
  all_goals omega

theorem capacity_remove {index : ℕ} (removed : queue.remove index = some (work, queue')) :
    capacity queue' = capacity queue := by
  obtain ⟨found, -, eq⟩ := Option.map_eq_some_iff.mp removed
  cases eq
  funext priority
  cases work.priority <;> cases priority <;> rfl

variable {canceled : List Work}

theorem Counted.tryPush (h : Counted queue)
    (pushed : queue.tryPush work = some (canceled, queue')) : Counted queue' := by
  intro priority
  have count := (RemoteQueue.tryPush_eq_some pushed).1.countP_eq (hasPriority priority)
  rw [List.countP_append, List.countP_append, List.countP_singleton, ← (h priority).1] at count
  have le := (h priority).2
  obtain ⟨-, ⟨own, room, eq, rfl⟩ | ⟨own, room, rfl, rfl⟩⟩ := RemoteQueue.tryPush_cases pushed
  · have background : ∀ earlier ∈ canceled, earlier.priority = .background := by
      intro earlier mem
      rw [eq, List.mem_filter, RemoteQueue.givesWay, Bool.and_eq_true] at mem
      exact of_decide_eq_true mem.2.1
    have given : canceled.countP (hasPriority .background) = canceled.length :=
      List.countP_eq_length.mpr fun earlier mem => decide_eq_true (background earlier mem)
    have kept : canceled.countP (hasPriority .interactive) = 0 :=
      List.countP_eq_zero.mpr fun earlier mem => by simp [hasPriority, background earlier mem]
    cases priority
    all_goals simp only [given, kept, own, len, capacity, hasPriority, decide_true, reduceCtorEq,
      decide_false, Bool.false_eq_true, reduceIte] at count le ⊢
    all_goals omega
  · cases priority
    all_goals simp only [own, len, capacity, hasPriority, decide_true, reduceCtorEq, decide_false,
      Bool.false_eq_true, reduceIte, List.countP_nil] at count le ⊢
    all_goals omega

theorem counted_drainAll (queue : RemoteQueue) : Counted queue.drainAll.2 := by
  intro priority
  cases priority <;> exact ⟨rfl, Nat.zero_le _⟩

/-- What stays when the background works leave. -/
theorem closeAndDrainBackground_queue (queue : RemoteQueue) :
    queue.closeAndDrainBackground.2.queue = queue.queue.filter (hasPriority .interactive) := by
  simp only [RemoteQueue.closeAndDrainBackground, List.partition_eq_filter_filter]
  refine List.filter_congr fun work _ => ?_
  rw [Function.comp_apply, hasPriority]
  cases work.priority <;> rfl

theorem Counted.closeAndDrainBackground (h : Counted queue) :
    Counted queue.closeAndDrainBackground.2 := by
  intro priority
  have kept := closeAndDrainBackground_queue queue
  rw [kept, List.countP_filter]
  cases priority with
  | interactive =>
    have count : len queue.closeAndDrainBackground.2 .interactive = len queue .interactive := by
      rw [(h .interactive).1, List.countP_eq_length_filter, ← kept]
      rfl
    simp only [count, Bool.and_self]
    exact h .interactive
  | background =>
    refine ⟨(List.countP_eq_zero.mpr fun work _ => ?_).symm, Nat.zero_le _⟩
    cases priority : work.priority <;> simp [hasPriority, priority]

/-! ### Starts -/

/-- No interactive work stands before the one that starts. -/
theorem filter_of_popWork (h : queue.popWork = some (work, queue')) :
    queue.queue.filter (hasPriority .interactive) =
      [work].filter (hasPriority .interactive) ++
        queue'.queue.filter (hasPriority .interactive) := by
  obtain ⟨index, ready, at_index, rest⟩ := RemoteQueue.popWork_eq_some h
  obtain ⟨bound, eq⟩ := List.getElem?_eq_some_iff.mp at_index
  have waiting : (queue.queue.take index).filter (hasPriority .interactive) = [] := by
    refine List.filter_eq_nil_iff.mpr fun earlier mem interactive => ?_
    obtain ⟨i, lt, eq⟩ := List.mem_take_iff_getElem.mp mem
    have := RemoteQueue.nextReadyIndex_le ready (List.getElem?_eq_some_iff.mpr ⟨_, eq⟩)
      (of_decide_eq_true interactive)
    omega
  have split : queue.queue = queue.queue.take index ++
      ([work] ++ queue.queue.drop (index + 1)) := by
    rw [← eq, List.singleton_append, List.getElem_cons_drop, List.take_append_drop]
  rw [rest, List.eraseIdx_eq_take_drop_succ, List.filter_append, waiting, List.nil_append,
    ← List.filter_append]
  nth_rewrite 1 [split]
  rw [List.filter_append, waiting, List.nil_append]

/-- An interactive work does not wait for an earlier one in the background. -/
def Free (earlier later : Work) : Prop :=
  earlier.priority = .background → later.priority = .interactive → earlier.blocksLater later = false

/-- The works an interactive one would wait for give way to it. -/
theorem free_tryPush (free : queue.queue.Pairwise Free)
    (h : queue.tryPush work = some (canceled, queue')) : queue'.queue.Pairwise Free := by
  obtain ⟨-, ⟨-, -, -, rfl⟩ | ⟨background, -, -, rfl⟩⟩ := RemoteQueue.tryPush_cases h
  · refine List.pairwise_append.mpr ⟨free.filter _, List.pairwise_singleton _ _, ?_⟩
    intro earlier mem later is_new background _
    cases List.mem_singleton.mp is_new
    simpa [RemoteQueue.givesWay, background] using (List.mem_filter.mp mem).2
  · refine List.pairwise_append.mpr ⟨free, List.pairwise_singleton _ _, ?_⟩
    intro earlier _ later is_new _ interactive
    cases List.mem_singleton.mp is_new
    cases background.symm.trans interactive

/-- **A background work starts only when no interactive one is queued.** -/
theorem background_of_popWork (free : queue.queue.Pairwise Free)
    (h : queue.popWork = some (work, queue'))
    (background : work.priority = .background) :
    ∀ other ∈ queue.queue, other.priority ≠ .interactive := by
  obtain ⟨index, ready, at_index, -⟩ := RemoteQueue.popWork_eq_some h
  unfold RemoteQueue.nextReadyIndex at ready
  split at ready
  · rename_i none_found
    exact fun other mem => of_decide_eq_false (List.findIdx?_eq_none_iff.mp none_found other mem)
  rename_i j found
  obtain ⟨inside, interactive, earliest⟩ := List.findIdx?_eq_some_iff_getElem.mp found
  rw [List.getElem?_eq_getElem inside, Option.map_some, Option.some.injEq] at ready
  cases blocking : (queue.queue.take j).findIdx? fun earlier =>
    earlier.blocksLater queue.queue[j] with
  | none =>
    rw [blocking, Option.getD_none] at ready
    subst ready
    rw [List.getElem?_eq_getElem inside, Option.some.injEq] at at_index
    simp [at_index, background] at interactive
  | some i =>
    -- it would stand before the first interactive work, and this one would wait for it
    obtain ⟨lt, blocks, -⟩ := List.findIdx?_eq_some_iff_getElem.mp blocking
    have lt : i < j := Nat.lt_of_lt_of_le lt (List.length_take_le _ _)
    have never := List.pairwise_iff_getElem.mp free i j (Nat.lt_trans lt inside) inside lt
    rw [List.getElem_take] at blocks
    rw [Free, blocks] at never
    have earlier := earliest i lt
    cases priority : queue.queue[i].priority with
    | interactive => simp [priority] at earlier
    | background => exact nomatch never priority (of_decide_eq_true interactive)

/-! ### Every sequence of operations -/

structure Inv (s : State) : Prop where
  counted : Counted s.queue
  order : ((s.started ++ s.queue.queue).filter (hasPriority .interactive)).Sublist
    (s.pushed.filter (hasPriority .interactive))
  free : s.queue.queue.Pairwise Free

variable {s : State}

/-- Works leave the queue without being started, or none does. -/
theorem Inv.shrink (h : Inv s) (counted : Counted queue) (sub : queue.queue.Sublist s.queue.queue) :
    Inv { s with queue } where
  counted := counted
  order := ((sub.append_left _).filter _).trans h.order
  free := h.free.sublist sub

theorem Inv.step (h : Inv s) (act : Act) : Inv (step s act) := by
  cases act with
  | push work =>
    simp only [Discipline.step]
    split
    · rename_i canceled queue pushed
      have sub := (RemoteQueue.tryPush_eq_some pushed).2.1
      have order := h.order.append_right ([work].filter (hasPriority .interactive))
      rw [← List.filter_append, ← List.filter_append, List.append_assoc] at order
      exact ⟨h.counted.tryPush pushed, ((sub.append_left _).filter _).trans order,
        free_tryPush h.free pushed⟩
    · exact h
  | pop =>
    simp only [Discipline.step]
    split
    · exact h.shrink h.counted (List.Sublist.refl _)
    split
    · rename_i work queue popped
      obtain ⟨index, -, -, rest⟩ := RemoteQueue.popWork_eq_some popped
      have sub : queue.queue.Sublist s.queue.queue := rest ▸ List.eraseIdx_sublist _ _
      obtain ⟨-, ready⟩ := Option.ite_none_left_eq_some.mp popped
      obtain ⟨_, -, removed⟩ := Option.bind_eq_some_iff.mp ready
      have counted : Counted { s.queue with inFlight := s.queue.inFlight + 1 } := h.counted
      refine ⟨counted.remove removed, ?_, h.free.sublist sub⟩
      rw [List.append_assoc, List.filter_append, List.filter_append, ← filter_of_popWork popped,
        ← List.filter_append]
      exact h.order
    · exact h
  | cancel requestId =>
    simp only [Discipline.step]
    split
    · rename_i work queue canceled
      obtain ⟨index, -, removed⟩ := Option.bind_eq_some_iff.mp canceled
      exact h.shrink (h.counted.remove removed) (RemoteQueue.cancel_eq_some canceled).2
    · exact h
  | reset =>
    simp only [Discipline.step]
    split
    · exact h
    · exact h.shrink h.counted (List.Sublist.refl _)
  | finish | endMaintenance => exact h.shrink h.counted (List.Sublist.refl _)
  | beginMaintenance | shutdown => exact h.shrink (counted_drainAll _) (List.nil_sublist _)
  | closeBackground =>
    refine h.shrink h.counted.closeAndDrainBackground ?_
    rw [closeAndDrainBackground_queue]
    exact List.filter_sublist

/-- No operation changes the capacities. -/
theorem capacity_step (s : State) (act : Act) : capacity (step s act).queue = capacity s.queue := by
  cases act with
  | push work =>
    simp only [step]
    split
    · rename_i pushed
      obtain ⟨-, ⟨-, -, -, rfl⟩ | ⟨-, -, -, rfl⟩⟩ := RemoteQueue.tryPush_cases pushed <;> rfl
    · rfl
  | pop =>
    simp only [step]
    split
    · rfl
    split
    · rename_i popped
      obtain ⟨-, ready⟩ := Option.ite_none_left_eq_some.mp popped
      obtain ⟨_, -, removed⟩ := Option.bind_eq_some_iff.mp ready
      exact (capacity_remove removed).trans rfl
    · rfl
  | cancel requestId =>
    simp only [step]
    split
    · rename_i canceled
      obtain ⟨_, -, removed⟩ := Option.bind_eq_some_iff.mp canceled
      exact capacity_remove removed
    · rfl
  | reset =>
    simp only [step]
    split <;> rfl
  | finish | endMaintenance | beginMaintenance | shutdown | closeBackground => rfl

variable (interactiveCapacity backgroundCapacity : ℕ)

theorem inv_run (acts : List Act) : Inv (run interactiveCapacity backgroundCapacity acts) := by
  refine List.foldlRecOn acts step (motive := Inv) ?_ fun s h act _ => h.step act
  exact ⟨counted_drainAll (.new _ _), List.Sublist.refl _, .nil⟩

theorem capacity_run (acts : List Act) :
    capacity (run interactiveCapacity backgroundCapacity acts).queue =
      capacity (.new interactiveCapacity backgroundCapacity) :=
  List.foldlRecOn acts step (motive := fun s => capacity s.queue = _) rfl
    fun s h act _ => (capacity_step s act).trans h

/-- **The discipline of a queue**, for any capacities.  After every sequence of operations the
counters count the queued works of their priority and keep to the capacities; the interactive works
that were started, and then those still queued, come in the order of their pushes; and a background
work starts only when no interactive one is queued, since the works an interactive one would have to
wait for gave way when it was pushed. -/
theorem queue_discipline (acts : List Act) :
    let s := run interactiveCapacity backgroundCapacity acts
    (s.queue.interactiveLen = s.queue.queue.countP (hasPriority .interactive) ∧
      s.queue.backgroundLen = s.queue.queue.countP (hasPriority .background)) ∧
    (s.queue.interactiveLen ≤ interactiveCapacity ∧ s.queue.backgroundLen ≤ backgroundCapacity) ∧
    ((s.started ++ s.queue.queue).filter (hasPriority .interactive)).Sublist
      (s.pushed.filter (hasPriority .interactive)) ∧
    ∀ work queue, s.queue.popWork = some (work, queue) → work.priority = .background →
      ∀ other ∈ s.queue.queue, other.priority ≠ .interactive := by
  intro s
  have h : Inv s := inv_run interactiveCapacity backgroundCapacity acts
  have same := capacity_run interactiveCapacity backgroundCapacity acts
  obtain ⟨interactive, interactive_le⟩ := h.counted .interactive
  obtain ⟨background, background_le⟩ := h.counted .background
  rw [same] at interactive_le background_le
  exact ⟨⟨interactive, background⟩, ⟨interactive_le, background_le⟩, h.order,
    fun work queue popped is_background => background_of_popWork h.free popped is_background⟩

end RemoteMirror.Lanes.Discipline
