/-
**Shutdown and the abort handles of a lane.**

`AgentInterrupt` in `crates/nrm-sidecar/src/main.rs` keeps the abort handles of a lane's workers
under a lock.  A worker is registered by `set_abort_handle` when it is spawned, and its own thread
aborts it and takes the handle out when it retires.  `request_shutdown` sets a flag and aborts the
handles it finds, but it only tries the lock; a registration looks at the flag again after it has
published its handle, so that it is not missed.  This covers the registration that holds the lock,
not the handles that were registered before.

Every worker has its own handle.  The threads take the lock, look at the flag and call `abort` in
single steps, in any order.

Main definitions:

* `Interrupt.AgentInterrupt`, `Interrupt.step`, `Interrupt.run` — the lane and its threads;
* `Interrupt.Reaches` — no registered handle is left out when the shutdown request has returned;
* `Interrupt.calm` — the lock is free when it is tried, or no handle depends on it.

Main results:

* `Interrupt.shutdown_reaches_workers` — **every calm run reaches every worker**;
* `Interrupt.cleanup_hides_worker` — and a clean-up of another worker at the wrong moment hides one.
-/

import Mathlib

namespace RemoteMirror.Interrupt

/-! ### The threads of a lane -/

/-- Where `set_abort_handle` is. -/
inductive Registering
  | idle
  | started
  | locked
  | pushed
  | unlocked
  /-- with what `is_shutdown_requested` has said -/
  | checked (requested : Bool)
  | finished
  deriving DecidableEq, Repr

/-- Where a retiring worker is: it aborts its process, and then runs `clear_abort_handle`. -/
inductive Clearing
  | idle
  | aborted
  | locked
  | retained
  | finished
  deriving DecidableEq, Repr

/-- Where `request_shutdown` is; with the handles that are still to be aborted. -/
inductive Requesting (H : Type)
  | idle
  | stored
  | locked
  | aborting (handles : List H)
  | returned
  deriving DecidableEq, Repr

/-- Who holds the lock of the handles. -/
inductive Holder (H : Type)
  | setAbortHandle (handle : H)
  | clearAbortHandle (handle : H)
  | abortHandlesSnapshot
  deriving DecidableEq, Repr

/-- A lane; `aborts` counts the calls of `abort`. -/
structure AgentInterrupt (H : Type) where
  shutdownRequested : Bool
  currentAbort : List H
  holder : Option (Holder H)
  aborts : H → ℕ
  registering : H → Registering
  clearing : H → Clearing
  requesting : Requesting H

/-- The thread that takes the next step. -/
inductive Move (H : Type)
  | register (handle : H)
  | clear (handle : H)
  | shutdown
  deriving DecidableEq, Repr

variable {H : Type} [DecidableEq H]

/-- A lane without workers. -/
def start : AgentInterrupt H := ⟨false, [], none, fun _ => 0, fun _ => .idle, fun _ => .idle, .idle⟩

namespace AgentInterrupt

variable (s : AgentInterrupt H) (handle : H)

def abort : AgentInterrupt H :=
  { s with aborts := Function.update s.aborts handle (s.aborts handle + 1) }

def setRegistering (now : Registering) : AgentInterrupt H :=
  { s with registering := Function.update s.registering handle now }

def setClearing (now : Clearing) : AgentInterrupt H :=
  { s with clearing := Function.update s.clearing handle now }

/-- `set_abort_handle` -/
def stepRegister : Option (AgentInterrupt H) :=
  match s.registering handle with
  | .idle => some (s.setRegistering handle .started)
  | .started =>
    if s.holder.isNone then
      some { s.setRegistering handle .locked with holder := some (.setAbortHandle handle) }
    else none
  | .locked =>
    some { s.setRegistering handle .pushed with currentAbort := s.currentAbort ++ [handle] }
  | .pushed => some { s.setRegistering handle .unlocked with holder := none }
  | .unlocked => some (s.setRegistering handle (.checked s.shutdownRequested))
  | .checked true => some ((s.abort handle).setRegistering handle .finished)
  | .checked false => some (s.setRegistering handle .finished)
  | .finished => none

/-- The end of a worker's thread, with `clear_abort_handle`. -/
def stepClear : Option (AgentInterrupt H) :=
  match s.clearing handle with
  | .idle =>
    if s.registering handle = .finished then some ((s.abort handle).setClearing handle .aborted)
    else none
  | .aborted =>
    if s.holder.isNone then
      some { s.setClearing handle .locked with holder := some (.clearAbortHandle handle) }
    else none
  | .locked =>
    some { s.setClearing handle .retained with currentAbort := s.currentAbort.filter (· ≠ handle) }
  | .retained => some { s.setClearing handle .finished with holder := none }
  | .finished => none

/-- `request_shutdown`, with `abort_handles_snapshot` and `kill_current` -/
def stepShutdown : Option (AgentInterrupt H) :=
  match s.requesting with
  | .idle => some { s with shutdownRequested := true, requesting := .stored }
  | .stored =>
    if s.holder.isNone then
      some { s with holder := some .abortHandlesSnapshot, requesting := .locked }
    else some { s with requesting := .returned }
  | .locked => some { s with holder := none, requesting := .aborting s.currentAbort }
  | .aborting [] => some { s with requesting := .returned }
  | .aborting (handle :: handles) => some { s.abort handle with requesting := .aborting handles }
  | .returned => none

end AgentInterrupt

def step (move : Move H) (s : AgentInterrupt H) : Option (AgentInterrupt H) :=
  match move with
  | .register handle => s.stepRegister handle
  | .clear handle => s.stepClear handle
  | .shutdown => s.stepShutdown

def run : List (Move H) → AgentInterrupt H → Option (AgentInterrupt H)
  | [], s => some s
  | move :: moves, s => (step move s).bind (run moves)

/-- When the shutdown request has returned and no registration is under way, every handle that is
registered has been aborted. -/
def Reaches (s : AgentInterrupt H) : Prop :=
  s.requesting = .returned → (∀ handle, s.registering handle = .idle ∨
    s.registering handle = .finished) →
    ∀ handle ∈ s.currentAbort, 0 < s.aborts handle

/-- A registration that has begun and will still find the flag, or has found it. -/
def Registering.alert : Registering → Bool
  | .started | .locked | .pushed | .unlocked | .checked true => true
  | .idle | .checked false | .finished => false

/-- A handle that was aborted, or will be by its registration. -/
def covered (s : AgentInterrupt H) (handle : H) : Bool :=
  0 < s.aborts handle || (s.registering handle).alert

/-- When `request_shutdown` tries the lock, it is free, or all handles are covered. -/
def calm (move : Move H) (s : AgentInterrupt H) : Bool :=
  !(move = .shutdown && s.requesting = .stored) || s.holder.isNone || s.currentAbort.all (covered s)

/-- Every step is calm in the state before it. -/
def calmRun : List (Move H) → AgentInterrupt H → Bool
  | [], _ => true
  | move :: moves, s => calm move s &&
      match step move s with
      | some s' => calmRun moves s'
      | none => true

/-! ### Every worker is reached -/

/-- What holds of every registered handle, depending on how far the request is. -/
def Inv (s : AgentInterrupt H) : Prop :=
  match s.requesting with
  | .idle => True
  | .stored | .locked => s.shutdownRequested = true
  | .aborting handles =>
    s.shutdownRequested = true ∧ ∀ handle ∈ s.currentAbort, covered s handle = true ∨
      handle ∈ handles
  | .returned => s.shutdownRequested = true ∧ ∀ handle ∈ s.currentAbort, covered s handle = true

variable {s s' : AgentInterrupt H} {handle : H} {move : Move H} {moves : List (Move H)}

/-- A step of a worker: the request stays where it is, and no handle loses its cover. -/
structure Aside (s s' : AgentInterrupt H) : Prop where
  requesting : s'.requesting = s.requesting
  flag : s'.shutdownRequested = s.shutdownRequested
  listed : ∀ handle ∈ s'.currentAbort, handle ∈ s.currentAbort ∨ covered s' handle = true
  covered : s.shutdownRequested = true → ∀ handle, covered s handle = true →
    covered s' handle = true

omit [DecidableEq H] in
theorem Aside.covers (h : Aside s s') (hflag : s.shutdownRequested = true) {P : H → Prop}
    (hall : ∀ handle ∈ s.currentAbort, Interrupt.covered s handle = true ∨ P handle) :
    ∀ handle ∈ s'.currentAbort, Interrupt.covered s' handle = true ∨ P handle := by
  intro handle hlisted
  rcases h.listed handle hlisted with hold | hcovered
  · exact (hall handle hold).imp_left (h.covered hflag handle)
  · exact .inl hcovered

omit [DecidableEq H] in
theorem Inv.aside (hinv : Inv s) (h : Aside s s') : Inv s' := by
  unfold Inv at hinv ⊢
  rw [h.requesting, h.flag]
  cases hnow : s.requesting with
  | idle => trivial
  | stored | locked => simpa only [hnow] using hinv
  | aborting handles =>
    rw [hnow] at hinv
    exact ⟨hinv.1, h.covers hinv.1 hinv.2⟩
  | returned =>
    rw [hnow] at hinv
    refine ⟨hinv.1, fun handle hlisted => ?_⟩
    have hall :=
      h.covers (P := fun _ => False) hinv.1 fun other hother => .inl (hinv.2 other hother)
    exact (hall handle hlisted).resolve_right id

omit [DecidableEq H] in
theorem covered_iff : covered s handle = true ↔ 0 < s.aborts handle ∨
    (s.registering handle).alert = true := by
  simp [covered]

theorem covered_abort (other : H) (h : covered s other = true) :
    covered (s.abort handle) other = true := by
  rw [covered_iff] at h ⊢
  refine h.imp_left fun hpos => ?_
  by_cases heq : other = handle
  · subst heq
    simp [AgentInterrupt.abort]
  · simpa [AgentInterrupt.abort, heq] using hpos

theorem covered_abort_self : covered (s.abort handle) handle = true := by
  simp [covered_iff, AgentInterrupt.abort]

/-- A registration moves on; what matters is whether it is still alert afterwards. -/
theorem covered_setRegistering {now : Registering} (hnow : covered s handle = true →
    0 < s.aborts handle ∨ now.alert = true)
    (other : H) (h : covered s other = true) :
    covered (s.setRegistering handle now) other = true := by
  rw [covered_iff]
  by_cases heq : other = handle
  · subst heq
    simpa [AgentInterrupt.setRegistering] using hnow h
  · simpa [AgentInterrupt.setRegistering, heq] using covered_iff.1 h

theorem aside_register (h : s.stepRegister handle = some s') : Aside s s' := by
  unfold AgentInterrupt.stepRegister at h
  split at h
  case h_1 =>
      cases h
      exact ⟨rfl, rfl, fun _ => .inl, fun _ => covered_setRegistering fun _ => .inr rfl⟩
  case h_2 =>
      split at h
      · cases h
        exact ⟨rfl, rfl, fun _ => .inl, fun _ => covered_setRegistering fun _ => .inr rfl⟩
      · cases h
  case h_3 =>
      cases h
      refine ⟨rfl, rfl, fun other hother => ?_, fun _ => covered_setRegistering fun _ => .inr rfl⟩
      -- the handle that is pushed belongs to this registration, which has yet to look at the flag
      refine (List.mem_append.1 hother).imp_right fun hnew => ?_
      obtain rfl := List.mem_singleton.1 hnew
      exact covered_iff.2 (.inr (by simp [AgentInterrupt.setRegistering, Registering.alert]))
  case h_4 =>
      cases h
      exact ⟨rfl, rfl, fun _ => .inl, fun _ => covered_setRegistering fun _ => .inr rfl⟩
  case h_5 =>
      cases h
      refine ⟨rfl, rfl, fun _ => .inl, fun hflag => covered_setRegistering fun _ => .inr ?_⟩
      rw [hflag]
      rfl
  case h_6 =>
      cases h
      refine ⟨rfl, rfl, fun _ => .inl, fun _ other hother => ?_⟩
      refine covered_setRegistering (fun _ => .inl ?_) other (covered_abort other hother)
      simp [AgentInterrupt.abort]
  case h_7 hregistering =>
      cases h
      refine ⟨rfl, rfl, fun _ => .inl, fun _ => covered_setRegistering fun hcovered => .inl ?_⟩
      simpa [covered_iff, hregistering, Registering.alert] using hcovered
  case h_8 => cases h

theorem aside_clear (h : s.stepClear handle = some s') : Aside s s' := by
  unfold AgentInterrupt.stepClear at h
  split at h
  case h_1 =>
      split at h
      · cases h
        exact ⟨rfl, rfl, fun _ => .inl, fun _ => covered_abort⟩
      · cases h
  case h_2 =>
      split at h
      · cases h
        exact ⟨rfl, rfl, fun _ => .inl, fun _ _ => id⟩
      · cases h
  case h_3 =>
      cases h
      exact ⟨rfl, rfl, fun _ hother => .inl (List.mem_filter.1 hother).1, fun _ _ => id⟩
  case h_4 =>
      cases h
      exact ⟨rfl, rfl, fun _ => .inl, fun _ _ => id⟩
  case h_5 => cases h

theorem Inv.shutdown (hinv : Inv s) (hcalm : calm .shutdown s = true)
    (h : s.stepShutdown = some s') : Inv s' := by
  unfold AgentInterrupt.stepShutdown at h
  unfold Inv at hinv
  split at h
  case h_1 =>
      cases h
      rfl
  case h_2 hnow =>
      rw [hnow] at hinv
      split at h
      · cases h
        exact hinv
      · -- the lock was not free
        cases h
        rename_i hheld
        have hall : ∀ handle ∈ s.currentAbort, covered s handle = true := by
          simpa [calm, hnow, hheld] using hcalm
        exact ⟨hinv, hall⟩
  case h_3 hnow =>
      rw [hnow] at hinv
      cases h
      exact ⟨hinv, fun handle hlisted => .inr hlisted⟩
  case h_4 hnow =>
      rw [hnow] at hinv
      cases h
      exact ⟨hinv.1, fun handle hlisted => (hinv.2 handle hlisted).resolve_right (List.not_mem_nil)⟩
  case h_5 handle handles hnow =>
      rw [hnow] at hinv
      cases h
      refine ⟨hinv.1, fun other hlisted => ?_⟩
      rcases hinv.2 other hlisted with hcovered | hleft
      · exact .inl (covered_abort other hcovered)
      · rcases List.mem_cons.1 hleft with rfl | hleft
        · exact .inl covered_abort_self
        · exact .inr hleft
  case h_6 => cases h

theorem Inv.step (hinv : Inv s) (hcalm : calm move s = true) (h : Interrupt.step move s = some s') :
    Inv s' := by
  cases move with
  | register handle => exact hinv.aside (aside_register h)
  | clear handle => exact hinv.aside (aside_clear h)
  | shutdown => exact hinv.shutdown hcalm h

theorem Inv.run (hinv : Inv s) (hcalm : calmRun moves s = true)
    (h : Interrupt.run moves s = some s') : Inv s' := by
  induction moves generalizing s with
  | nil =>
    cases h
    exact hinv
  | cons move moves ih =>
    obtain ⟨next, hstep, hrest⟩ := Option.bind_eq_some_iff.1 h
    simp only [calmRun, hstep, Bool.and_eq_true] at hcalm
    exact ih (hinv.step hcalm.1 hstep) hcalm.2 hrest

omit [DecidableEq H] in
theorem Inv.reaches (hinv : Inv s) : Reaches s := by
  intro hreturned hquiet handle hlisted
  unfold Inv at hinv
  rw [hreturned] at hinv
  refine (covered_iff.1 (hinv.2 handle hlisted)).resolve_right ?_
  rcases hquiet handle with hidle | hfinished
  · simp [hidle, Registering.alert]
  · simp [hfinished, Registering.alert]

/-- **Every calm run reaches every worker.** -/
theorem shutdown_reaches_workers (moves : List (Move H)) (s : AgentInterrupt H)
    (hcalm : calmRun moves start = true) (hrun : run moves start = some s) : Reaches s :=
  (Inv.run (s := start) trivial hcalm hrun).reaches

/-- A worker that registers from beginning to end. -/
def registers (handle : H) : List (Move H) := List.replicate 6 (.register handle)

/-- One worker is registered before the shutdown and one while it runs. -/
def overlapping : List (Move Bool) :=
  registers false ++ [.shutdown, .register true, .shutdown, .shutdown, .shutdown, .shutdown] ++
    List.replicate 5 (.register true)

theorem shutdown_reaches_overlapping :
    ∃ s, run overlapping start = some s ∧ Reaches s ∧ s.requesting = .returned ∧
      s.currentAbort = [false, true] :=
  ⟨_, rfl, shutdown_reaches_workers overlapping _ (by decide) rfl, by decide, by decide⟩

/-- **A clean-up hides a worker**: the worker `true` retires and has the lock when the shutdown
request tries it, and the worker `false` is never aborted. -/
theorem cleanup_hides_worker :
    ∃ s, run (registers false ++ registers true ++ [.clear true, .clear true, .shutdown, .shutdown])
      start = some s ∧ ¬ Reaches s :=
  ⟨_, rfl, fun hreaches => absurd (hreaches rfl (by decide) false (by decide)) (by decide)⟩

end RemoteMirror.Interrupt
