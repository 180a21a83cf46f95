/-
**Signals to a child's process group.**

The agent sends signals to groups of processes by number.  A number is taken as long as the child
has not been reaped; afterwards the kernel may give it to a new group.  `try_wait`, `wait` and
`drop` kill what is left of the group right after they have reaped the child.  `signal` asks the
terminal for the number of its foreground group; the terminal keeps that number when the group has
ended.  So a number that is signalled can have become that of an unrelated group.

Main definitions:

* `Pty.Kernel`, `Pty.answer` — groups, their numbers, and the system calls;
* `Pty.signal`, `Pty.tryWait`, `Pty.wait`, `Pty.drop` — the methods;
* `Pty.steady` — the number that is signalled and the one the terminal keeps are not given away.

Main results:

* `Pty.signals_owned` — **then all signals go to the child's group or the terminal's foreground**;
* `Pty.unrelated_group_killed` — and otherwise they need not.
-/

import RemoteMirror.Interact

namespace RemoteMirror.Pty

open Interact (Prog foldlM_keeps)

/-! ### The kernel -/

/-- A signal that was sent: to which group, and which groups belonged to the child and its terminal
then. -/
structure Sent where
  group : ℕ
  own : ℕ
  foreground : Option ℕ
  deriving DecidableEq

def Sent.owned (sent : Sent) : Bool := sent.group = sent.own || sent.foreground = some sent.group

/-- Groups and their numbers.  A group is never used again, its number may be. -/
structure Kernel where
  groups : ℕ → Option ℕ
  next : ℕ
  /-- the number of the child -/
  processGroup : ℕ
  /-- the group that was created for the child -/
  own : ℕ
  reaped : Bool
  /-- the number the terminal was given for its foreground, and the group that had it -/
  foreground : Option (ℕ × ℕ)
  sent : List Sent

inductive KernelMove
  /-- a process makes a group of its own, under its own number -/
  | form (number : ℕ)
  /-- the last process of a group ends or leaves it -/
  | dissolve (number : ℕ)
  /-- the terminal gets another foreground group, or none -/
  | foreground (number : Option ℕ)

/-- While the child has not been reaped, only the child can make a group under its number. -/
def Kernel.move (k : Kernel) : KernelMove → Option Kernel
  | .form number =>
    if (k.groups number).isSome then none
    else if number = k.processGroup ∧ k.reaped = false then
      some { k with groups := Function.update k.groups number (some k.own) }
    else some { k with groups := Function.update k.groups number (some k.next), next := k.next + 1 }
  | .dissolve number => some { k with groups := Function.update k.groups number none }
  | .foreground number =>
    some { k with foreground := number.bind fun n => (k.groups n).map (n, ·) }

structure PtyExitStatus where
  code : Option ℕ
  signal : Option ℕ
  deriving DecidableEq

inductive Sys
  | tryWait
  | wait
  | tcgetpgrp
  | kill (group signal : ℕ)

/-- An error of `kill`, with `ESRCH` for itself. -/
inductive KillError
  | esrch
  | other

def SysAns : Sys → Type
  | .tryWait => Except String (Option PtyExitStatus)
  | .wait => Except String PtyExitStatus
  | .tcgetpgrp => ℤ
  | .kill _ _ => Except KillError Unit

/-- How a call ends; it may find that the child still runs, or that it has ended. -/
inductive Outcome
  | fails
  | running
  | exited (status : PtyExitStatus)

/-- What happens before a call, and how it ends. -/
structure Choice where
  moves : List KernelMove
  outcome : Outcome

/-- The child ends with a status, and is reaped. -/
def reap (k : Kernel) : Outcome → Option (Except String PtyExitStatus × Kernel)
  | .exited status => some (.ok status, { k with reaped := true })
  | .fails => some (.error "", k)
  | _ => none

/-- The child goes on, or it has ended and is reaped. -/
def poll (k : Kernel) : Outcome → Option (Except String (Option PtyExitStatus) × Kernel)
  | .running => some (.ok none, k)
  | outcome => (reap k outcome).map fun done => (done.1.map some, done.2)

/-- The number the terminal keeps, also if its group has ended and the number was given away. -/
def foregroundNumber (k : Kernel) : Outcome → Option (ℤ × Kernel)
  | .running => some (((k.foreground.map Prod.fst).getD 0 : ℕ), k)
  | .fails => some (-1, k)
  | .exited _ => none

def sendSignal (k : Kernel) (number : ℕ) (outcome : Outcome) : Except KillError Unit × Kernel :=
  match outcome, k.groups number with
  | .fails, _ => (.error .other, k)
  | _, none => (.error .esrch, k)
  | _, some group =>
    (.ok (), { k with sent := k.sent ++ [⟨group, k.own, k.foreground.map Prod.snd⟩] })

/-- The kernel's side of the calls. -/
def answer (e : Sys) (c : Choice) (k : Kernel) : Option (SysAns e × Kernel) :=
  (c.moves.foldlM Kernel.move k).bind fun k =>
    match e with
    | .tryWait => poll k c.outcome
    | .wait => reap k c.outcome
    | .tcgetpgrp => foregroundNumber k c.outcome
    | .kill number _ => some (sendSignal k number c.outcome)

/-! ### The methods -/

inductive PtySignal
  | interrupt
  | hangup
  | terminate
  | kill
  /-- `Continue` -/
  | resume

def PtySignal.number : PtySignal → ℕ
  | .interrupt => 2
  | .hangup => 1
  | .terminate => 15
  | .kill => 9
  | .resume => 18

/-- `Process` and `PipeProcess` -/
inductive Kind
  | pty
  | pipe

structure Process where
  processGroup : ℕ
  status : Option PtyExitStatus

abbrev ProcM := Prog Sys SysAns String

def call (e : Sys) : ProcM (SysAns e) := Prog.ask e

/-- `signal_group_id`, and `signal_group` of a piped process -/
def signalGroupId (kind : Kind) (processGroup signal : ℕ) : ProcM Unit := do
  let result ← call (.kill processGroup signal)
  match result with
  | .error .other => .err (match kind with
    | .pty => "signal PTY process group"
    | .pipe => "signal piped process group")
  | _ => pure ()

/-- The child has been reaped: what is left of its group is killed, whether or not that fails. -/
def finish (kind : Kind) (self : Process) (status : PtyExitStatus) : ProcM Process := do
  let _ ← (signalGroupId kind self.processGroup PtySignal.kill.number).attempt
  pure { self with status := some status }

def tryWait (kind : Kind) (self : Process) : ProcM (Option PtyExitStatus × Process) :=
  match self.status with
  | some status => pure (some status, self)
  | none => do
    let polled ← call .tryWait
    match polled with
    | .error _ => .err (match kind with
      | .pty => "poll PTY child"
      | .pipe => "poll piped child")
    | .ok none => pure (none, self)
    | .ok (some status) => do
      let self ← finish kind self status
      pure (some status, self)

def wait (kind : Kind) (self : Process) : ProcM (PtyExitStatus × Process) :=
  match self.status with
  | some status => pure (status, self)
  | none => do
    let waited ← call .wait
    match waited with
    | .error _ => .err (match kind with
      | .pty => "wait for PTY child"
      | .pipe => "wait for piped child")
    | .ok status => do
      let self ← finish kind self status
      pure (status, self)

def foregroundProcessGroup : ProcM (Option ℕ) := do
  let (processGroup : ℤ) ← call .tcgetpgrp
  pure (if 0 < processGroup then some processGroup.toNat else none)

/-- The signals that also tear down the shell's own group. -/
def PtySignal.destructive : PtySignal → Bool
  | .hangup | .terminate | .kill => true
  | _ => false

def signal (kind : Kind) (self : Process) (signal : PtySignal) : ProcM Process := do
  let (status, self) ← tryWait kind self
  if status.isSome then pure self
  else
    match kind with
    | .pipe => do
      signalGroupId kind self.processGroup signal.number
      pure self
    | .pty => do
      let foreground ← foregroundProcessGroup
      let foregroundGroup := foreground.getD self.processGroup
      let foregroundResult ← (signalGroupId kind foregroundGroup signal.number).attempt
      if foreground.any (· ≠ self.processGroup) ∧ signal.destructive then do
        signalGroupId kind self.processGroup signal.number
        match foregroundResult with
        | .error _ => do
          let _ ← (signalGroupId kind foregroundGroup signal.number).attempt
          pure self
        | .ok _ => pure self
      else
        match foregroundResult with
        | .error error => .err error
        | .ok _ => pure self

/-- The second half of `drop`: the child may still run. -/
def killAndWait (kind : Kind) (self : Process) : ProcM Process := do
  let _ ← (signalGroupId kind self.processGroup PtySignal.kill.number).attempt
  let waited ← call .wait
  match waited with
  | .ok status => pure { self with status := some status }
  | .error _ => pure self

def drop (kind : Kind) (self : Process) : ProcM Process :=
  match self.status with
  | some _ => pure self
  | none => do
    let polled ← call .tryWait
    match polled with
    | .ok (some status) => finish kind self status
    | _ => killAndWait kind self

inductive Op
  | signal (signal : PtySignal)
  | tryWait
  | wait
  | drop

def Op.body (kind : Kind) (self : Process) : Op → ProcM Process
  | .signal s => Pty.signal kind self s
  | .tryWait => do
    let done ← Pty.tryWait kind self
    pure done.2
  | .wait => do
    let done ← Pty.wait kind self
    pure done.2
  | .drop => Pty.drop kind self

/-- A method that fails leaves the process as it is. -/
def after (self : Process) (r : Except String Process) : Process := r.toOption.getD self

/-- One method is called. -/
def step (ok : Sys → Choice → Kernel → Bool) (kind : Kind) (s : Process × Kernel)
    (op : Op × List Choice) : Option (Process × Kernel) :=
  ((op.1.body kind s.1).exec (Prog.onlyIf answer ok) op.2 s.2).map fun done =>
    (after s.1 done.1, done.2)

/-- Methods are called one after the other. -/
def run (ok : Sys → Choice → Kernel → Bool) (kind : Kind) (s : Process × Kernel)
    (ops : List (Op × List Choice)) : Option (Process × Kernel) :=
  ops.foldlM (step ok kind) s

/-- The number a call sends a signal to. -/
def Sys.signalled : Sys → Option ℕ
  | .kill number _ => some number
  | _ => none

/-- No other group gets the number that is about to be signalled or the one that the terminal keeps;
and while a signal is about to be sent, the terminal gets no other foreground. -/
def Kernel.spares (signalled : Option ℕ) (k : Kernel) : KernelMove → Bool
  | .form number => (number = k.processGroup && !k.reaped) ||
      (signalled ≠ some number && k.foreground.all fun kept => kept.1 ≠ number)
  | .dissolve _ => true
  | .foreground _ => signalled.isNone

/-- Moves one after the other that spare these numbers. -/
def Kernel.spared (signalled : Option ℕ) : List KernelMove → Kernel → Bool
  | [], _ => true
  | move :: rest, k => k.spares signalled move && (k.move move).all (spared signalled rest)

/-- What happens before a call spares the number it signals and the terminal's. -/
def steady (e : Sys) (c : Choice) (k : Kernel) : Bool := k.spared e.signalled c.moves

/-! ### Whose groups the numbers stand for -/

/-- The child has this number, which is that of its own group as long as it has not been reaped; the
number the terminal keeps stands for the group it was given, or for the child's; and all signals
that were sent were owned.  `alive` is what the caller knows about the child. -/
structure Sound (n : ℕ) (alive : Prop) (k : Kernel) : Prop where
  number : k.processGroup = n
  child : alive → k.reaped = false
  held : k.reaped = false → ∀ group, k.groups n = some group → group = k.own
  terminal : ∀ kept ∈ k.foreground, ∀ group, k.groups kept.1 = some group →
    group = k.own ∨ group = kept.2
  sent : ∀ sent ∈ k.sent, sent.owned = true

/-- A number that stands for the child's group or for nothing, or that the terminal keeps. -/
def Aimed (k : Kernel) (number : ℕ) : Prop :=
  (∀ group, k.groups number = some group → group = k.own) ∨
    ∃ group, k.foreground = some (number, group)

variable {k t : Kernel} {kind : Kind} {n : ℕ} {alive : Prop} {self : Process}
  {signalled : Option ℕ} {next : KernelMove}

/-- A caller that knows less of the child. -/
theorem Sound.weaken {known : Prop} (h : Sound n alive k) (less : known → alive) :
    Sound n known k :=
  ⟨h.number, fun hk => h.child (less hk), h.held, h.terminal, h.sent⟩

theorem Sound.aimed (h : Sound n alive k) (ha : alive) : Aimed k n := .inl (h.held (h.child ha))

/-- A new group gets the number; only the child can make one under its own. -/
theorem form_cases {number : ℕ} (moved : k.move (.form number) = some t) : ∃ group next,
    t = { k with groups := Function.update k.groups number (some group), next := next } ∧
      (number = k.processGroup ∧ k.reaped = false → group = k.own) := by
  simp only [Kernel.move] at moved
  split at moved
  · cases moved
  split at moved
  case isTrue own =>
    cases moved
    exact ⟨k.own, k.next, rfl, fun _ => rfl⟩
  case isFalse other =>
    cases moved
    exact ⟨k.next, k.next + 1, rfl, fun own => absurd own other⟩

theorem spares_form {number : ℕ} (spares : k.spares signalled (.form number) = true) :
    (number = k.processGroup ∧ k.reaped = false) ∨
      signalled ≠ some number ∧ ∀ kept ∈ k.foreground, kept.1 ≠ number := by
  cases kept : k.foreground <;> simpa [Kernel.spares, kept] using spares

/-- What a number stands for after a group was formed: the child's group, or what it stood for. -/
theorem groups_form {number new other group : ℕ}
    (own : number = k.processGroup ∧ k.reaped = false → new = k.own)
    (spared : (number = k.processGroup ∧ k.reaped = false) ∨ other ≠ number)
    (hgroup : Function.update k.groups number (some new) other = some group) :
    group = k.own ∨ k.groups other = some group := by
  by_cases eq : other = number
  · simp only [eq, Function.update_self, Option.some.injEq] at hgroup
    exact .inl (hgroup ▸ own (spared.resolve_right fun ne => ne eq))
  · exact .inr (by simpa [Function.update_of_ne eq] using hgroup)

/-- A group that still has a number after another one was dissolved had it before. -/
theorem groups_dissolve {gone other group : ℕ}
    (hgroup : Function.update k.groups gone none other = some group) :
    k.groups other = some group := by
  by_cases eq : other = gone
  · simp [eq] at hgroup
  · simpa [Function.update_of_ne eq] using hgroup

theorem Sound.move (h : Sound n alive k) (spares : k.spares signalled next = true)
    (moved : k.move next = some t) : Sound n alive t := by
  obtain ⟨rfl, child, held, terminal, sent⟩ := h
  cases next with
  | form number =>
    obtain ⟨new, next, rfl, own⟩ := form_cases moved
    refine ⟨rfl, child, fun running group hgroup => ?_, fun kept mem group hgroup => ?_, sent⟩
    · have spared : (number = k.processGroup ∧ k.reaped = false) ∨ k.processGroup ≠ number :=
        or_iff_not_imp_right.2 fun eq => ⟨(not_not.1 eq).symm, running⟩
      exact (groups_form own spared hgroup).elim id (held running group)
    · have spared := (spares_form spares).imp_right fun others => others.2 kept mem
      exact (groups_form own spared hgroup).elim .inl (terminal kept mem group)
  | dissolve number =>
    cases moved
    exact ⟨rfl, child, fun running group hgroup => held running group (groups_dissolve hgroup),
      fun kept mem group hgroup => terminal kept mem group (groups_dissolve hgroup), sent⟩
  | foreground number =>
    cases moved
    refine ⟨rfl, child, held, fun kept mem group hgroup => ?_, sent⟩
    obtain ⟨given, -, hgiven⟩ := Option.bind_eq_some_iff.1 mem
    obtain ⟨found, hfound, rfl⟩ := Option.map_eq_some_iff.1 hgiven
    exact .inr (Option.some.inj (hgroup.symm.trans hfound))

/-- A number that is spared until it is signalled stays the child's or the terminal's. -/
theorem Aimed.move {number : ℕ} (h : Aimed k number)
    (spares : k.spares (some number) next = true) (moved : k.move next = some t) :
    Aimed t number ∧ t.foreground = k.foreground := by
  cases next with
  | foreground => cases spares
  | form formed =>
    obtain ⟨new, next, rfl, own⟩ := form_cases moved
    refine ⟨h.imp_left fun mine group hgroup => ?_, rfl⟩
    have spared := (spares_form spares).imp_right fun others eq => others.1 (congrArg some eq)
    exact (groups_form own spared hgroup).elim id (mine group)
  | dissolve gone =>
    cases moved
    exact ⟨h.imp_left fun own group hgroup => own group (groups_dissolve hgroup), rfl⟩

/-- What each spared move keeps, all of them keep. -/
theorem spared_keeps {I : Kernel → Prop} {moves : List KernelMove}
    (keeps : ∀ k t move, I k → k.spares signalled move = true → k.move move = some t → I t)
    (h : I k) (spared : k.spared signalled moves = true)
    (moved : moves.foldlM Kernel.move k = some t) : I t := by
  induction moves generalizing k with
  | nil =>
    cases moved
    exact h
  | cons move rest ih =>
    rw [List.foldlM_cons] at moved
    obtain ⟨k', first, others⟩ := Option.bind_eq_some_iff.1 moved
    have both : k.spares signalled move = true ∧ k'.spared signalled rest = true := by
      simpa [Kernel.spared, first] using spared
    exact ih (keeps k k' move h both.1 first) both.2 others

/-! ### Rules for the calls -/

abbrev answerSteady : (e : Sys) → Choice → Kernel → Option (SysAns e × Kernel) :=
  Prog.onlyIf answer steady

/-- What happens before a call leaves the kernel in order. -/
theorem Sound.answered {e : Sys} {c : Choice} {r : SysAns e} (h : Sound n alive k)
    (hstep : answerSteady e c k = some (r, t)) :
    ∃ k', Sound n alive k' ∧ c.moves.foldlM Kernel.move k = some k' ∧
      answer e ⟨[], c.outcome⟩ k' = some (r, t) := by
  obtain ⟨spared, hanswer⟩ := Prog.onlyIf_eq_some.1 hstep
  obtain ⟨k', moved, rest⟩ := Option.bind_eq_some_iff.mp hanswer
  exact ⟨k', spared_keeps (fun _ _ _ h => h.move) h spared moved, moved, rest⟩

/-- **A signal to a number of the child or the terminal is owned.** -/
theorem Sound.sendSignal {number : ℕ} {outcome : Outcome} {r : Except KillError Unit}
    (h : Sound n alive k) (aimed : Aimed k number)
    (done : sendSignal k number outcome = (r, t)) :
    Sound n alive t ∧ t.foreground = k.foreground := by
  unfold Pty.sendSignal at done
  split at done
  · cases done
    exact ⟨h, rfl⟩
  · cases done
    exact ⟨h, rfl⟩
  · rename_i group _ hgroup
    cases done
    refine ⟨⟨h.number, h.child, h.held, h.terminal, fun sent mem => ?_⟩, rfl⟩
    rcases List.mem_append.mp mem with old | new
    · exact h.sent sent old
    · cases List.mem_singleton.mp new
      have mine : group = k.own ∨ k.foreground.map Prod.snd = some group := by
        rcases aimed with own | ⟨given, kept⟩
        · exact .inl (own group hgroup)
        · refine (h.terminal _ kept group hgroup).imp_right fun eq => ?_
          rw [kept, eq]
          rfl
      simpa [Sent.owned] using mine

theorem ends_signalGroupId {number signal : ℕ} (h : Sound n alive k) (aimed : Aimed k number)
    {Q : Except String Unit → Kernel → Prop}
    (hQ : ∀ r t, Sound n alive t → t.foreground = k.foreground → Q r t) :
    (signalGroupId kind number signal).Ends answerSteady Q k := by
  refine .bind ?_
  intro c r t hstep
  obtain ⟨k', sound, moved, hanswer⟩ := h.answered hstep
  obtain ⟨stillAimed, sameBefore⟩ : Aimed k' number ∧ k'.foreground = k.foreground :=
    spared_keeps (I := fun t => Aimed t number ∧ t.foreground = k.foreground)
      (fun _ _ _ h spares moved => (h.1.move spares moved).imp_right fun same => same.trans h.2)
      ⟨aimed, rfl⟩ (Prog.onlyIf_eq_some.1 hstep).1 moved
  obtain ⟨soundAfter, sameAfter⟩ := sound.sendSignal stillAimed (Option.some.inj hanswer)
  have last := (hQ · t soundAfter (sameAfter.trans sameBefore))
  match r with
  | .error .other | .error .esrch | .ok () => exact last _

/-- Reaping fails, or the number is nobody's from now on; the group that has it is still the
child's. -/
theorem Sound.reap {outcome : Outcome} {r : Except String PtyExitStatus} (h : Sound n True k)
    (reaped : reap k outcome = some (r, t)) :
    (∃ message, r = .error message ∧ Sound n True t) ∨
      ∃ status, r = .ok status ∧ Sound n False t ∧ Aimed t n := by
  cases outcome with
  | running => cases reaped
  | fails =>
    cases reaped
    exact .inl ⟨_, rfl, h⟩
  | exited status =>
    cases reaped
    exact .inr ⟨status, rfl, ⟨h.number, nofun, nofun, h.terminal, h.sent⟩, h.aimed trivial⟩

theorem ends_tryWaitCall (h : Sound n True k)
    {Q : Except String (Except String (Option PtyExitStatus)) → Kernel → Prop}
    (hkept : ∀ t r, Sound n True t → (∀ status, r ≠ .ok (some status)) → Q (.ok r) t)
    (hreaped : ∀ t status, Sound n False t → Aimed t n → Q (.ok (.ok (some status))) t) :
    (call .tryWait).Ends answerSteady Q k := by
  intro c r t hstep
  obtain ⟨k', sound, -, hanswer⟩ := h.answered hstep
  have polled : poll k' c.outcome = some (r, t) := hanswer
  unfold poll at polled
  split at polled
  · cases polled
    exact hkept _ _ sound nofun
  · obtain ⟨⟨r', t'⟩, reaped, eq⟩ := Option.map_eq_some_iff.mp polled
    cases eq
    rcases sound.reap reaped with ⟨message, rfl, sound⟩ | ⟨status, rfl, sound, aimed⟩
    · exact hkept _ _ sound nofun
    · exact hreaped _ status sound aimed

theorem ends_waitCall (h : Sound n True k)
    {Q : Except String (Except String PtyExitStatus) → Kernel → Prop}
    (hfails : ∀ t message, Sound n True t → Q (.ok (.error message)) t)
    (hreaped : ∀ t status, Sound n False t → Aimed t n → Q (.ok (.ok status)) t) :
    (call .wait).Ends answerSteady Q k := by
  intro c r t hstep
  obtain ⟨k', sound, -, hanswer⟩ := h.answered hstep
  rcases sound.reap hanswer with ⟨message, rfl, sound⟩ | ⟨status, rfl, sound, aimed⟩
  · exact hfails t message sound
  · exact hreaped t status sound aimed

/-- The number that is read is the one the terminal keeps. -/
theorem ends_foregroundProcessGroup (h : Sound n alive k)
    {Q : Except String (Option ℕ) → Kernel → Prop}
    (hQ : ∀ t foreground, Sound n alive t →
      (∀ number ∈ foreground, ∃ group, t.foreground = some (number, group)) →
      Q (.ok foreground) t) :
    foregroundProcessGroup.Ends answerSteady Q k := by
  refine .bind ?_
  intro c r t hstep
  obtain ⟨k', sound, -, hanswer⟩ := h.answered hstep
  have done : foregroundNumber k' c.outcome = some (r, t) := hanswer
  cases outcome : c.outcome with
  | exited => simp [outcome, foregroundNumber] at done
  | fails =>
    rw [outcome] at done
    cases done
    exact hQ _ _ sound nofun
  | running =>
    rw [outcome] at done
    cases done
    refine hQ _ _ sound fun number mem => ?_
    obtain ⟨positive, eq⟩ := Option.ite_none_right_eq_some.mp mem
    cases kept : t.foreground with
    | none => simp [kept] at positive
    | some fore =>
      refine ⟨fore.2, ?_⟩
      simp only [kept, Option.map_some, Option.getD_some, Int.toNat_natCast,
        Option.some.injEq] at eq
      rw [← eq]

/-! ### Rules for the methods -/

/-- After a method, what the process knows of its child is right. -/
def Fine (self : Process) (r : Except String Process) (k : Kernel) : Prop :=
  (after self r).processGroup = self.processGroup ∧
    Sound self.processGroup ((after self r).status = none) k

theorem ends_finish {status : PtyExitStatus} {Q : Except String Process → Kernel → Prop}
    (h : Sound self.processGroup False k) (aimed : Aimed k self.processGroup)
    (hQ : ∀ t, Sound self.processGroup False t → Q (.ok { self with status := some status }) t) :
    (finish kind self status).Ends answerSteady Q k := by
  refine .bind (.attempt ?_)
  exact ends_signalGroupId h aimed fun _ t sound _ => hQ t sound

theorem ends_tryWait (h : Sound self.processGroup (self.status = none) k) :
    (tryWait kind self).Ends answerSteady (fun r t => Fine self (r.map Prod.snd) t ∧
      ∀ self', r = .ok (none, self') → self = self' ∧ Sound self.processGroup True t) k := by
  unfold tryWait
  cases status : self.status with
  | some status => exact ⟨⟨rfl, h⟩, nofun⟩
  | none =>
    refine .bind (ends_tryWaitCall (h.weaken fun _ => status) ?_ ?_)
    · intro t r sound kept
      match r with
      | .error _ => exact ⟨⟨rfl, sound.weaken fun _ => trivial⟩, nofun⟩
      | .ok none =>
        exact ⟨⟨rfl, sound.weaken fun _ => trivial⟩, fun _ eq => ⟨by cases eq; rfl, sound⟩⟩
      | .ok (some status) => exact absurd rfl (kept status)
    · intro t status sound aimed
      refine .bind (ends_finish sound aimed fun u sound => ?_)
      exact ⟨⟨rfl, sound.weaken nofun⟩, nofun⟩

theorem ends_wait (h : Sound self.processGroup (self.status = none) k) :
    (wait kind self).Ends answerSteady (fun r t => Fine self (r.map Prod.snd) t) k := by
  unfold wait
  cases status : self.status with
  | some status => exact ⟨rfl, h⟩
  | none =>
    refine .bind (ends_waitCall (h.weaken fun _ => status) ?_ ?_)
    · exact fun t _ sound => ⟨rfl, sound.weaken fun _ => trivial⟩
    · intro t status sound aimed
      exact .bind (ends_finish sound aimed fun u sound => ⟨rfl, sound.weaken nofun⟩)

theorem ends_killAndWait (h : Sound self.processGroup True k) :
    (killAndWait kind self).Ends answerSteady (Fine self) k := by
  refine .bind (.attempt (ends_signalGroupId h (h.aimed trivial) fun _ t sound _ => ?_))
  refine .bind (ends_waitCall sound ?_ ?_)
  · exact fun _ _ sound => ⟨rfl, sound.weaken fun _ => trivial⟩
  · exact fun _ _ sound _ => ⟨rfl, sound.weaken nofun⟩

theorem ends_drop (h : Sound self.processGroup (self.status = none) k) :
    (drop kind self).Ends answerSteady (Fine self) k := by
  unfold drop
  cases status : self.status with
  | some status => exact ⟨rfl, h⟩
  | none =>
    refine .bind (ends_tryWaitCall (h.weaken fun _ => status) ?_ ?_)
    · intro t r sound kept
      match r with
      | .error _ => exact ends_killAndWait sound
      | .ok none => exact ends_killAndWait sound
      | .ok (some status) => exact absurd rfl (kept status)
    · exact fun t status sound aimed =>
        ends_finish sound aimed fun u sound => ⟨rfl, sound.weaken nofun⟩

/-- The child still runs, and the method has returned or failed. -/
theorem Sound.fine {r : Except String Process} (h : Sound self.processGroup True k)
    (same : after self r = self) : Fine self r k := by
  rw [Fine, same]
  exact ⟨rfl, h.weaken fun _ => trivial⟩

theorem ends_signal {s : PtySignal} (h : Sound self.processGroup (self.status = none) k) :
    (signal kind self s).Ends answerSteady (Fine self) k := by
  refine .bind ((ends_tryWait h).mono ?_)
  intro r t hr
  match r with
  | .error _ | .ok (some _, self') => exact hr.1
  | .ok (none, _) =>
    obtain ⟨rfl, sound⟩ := hr.2 _ rfl
    cases kind with
    | pipe =>
      refine .bind (ends_signalGroupId sound (sound.aimed trivial) fun r u sound _ => ?_)
      cases r with
      | ok _ => exact sound.fine rfl
      | error _ => exact sound.fine rfl
    | pty =>
      refine .bind (ends_foregroundProcessGroup sound fun t₁ foreground sound₁ kept => ?_)
      -- the number stays the terminal's as long as the terminal has the same foreground
      have aimed : ∀ t, Sound self.processGroup True t → t.foreground = t₁.foreground →
          Aimed t (foreground.getD self.processGroup) := by
        intro t sound same
        cases foreground with
        | none => exact sound.aimed trivial
        | some number =>
          obtain ⟨group, hgroup⟩ := kept number rfl
          exact .inr ⟨group, same.trans hgroup⟩
      refine .bind (.attempt (ends_signalGroupId sound₁ (aimed t₁ sound₁ rfl) ?_))
      intro r t₂ sound₂ same₂
      refine .ite (fun _ => ?_) fun _ => ?_
      · refine .bind (ends_signalGroupId sound₂ (sound₂.aimed trivial) fun r' t₃ sound₃ same₃ => ?_)
        cases r' with
        | error _ => exact sound₃.fine rfl
        | ok _ =>
          cases r with
          | ok _ => exact sound₃.fine rfl
          | error _ =>
            refine .bind (.attempt (ends_signalGroupId sound₃ ?_ fun _ _ sound _ => sound.fine rfl))
            exact aimed t₃ sound₃ (same₃.trans same₂)
      · cases r with
        | ok _ => exact sound₂.fine rfl
        | error _ => exact sound₂.fine rfl

theorem ends_body (h : Sound self.processGroup (self.status = none) k) (op : Op) :
    (op.body kind self).Ends answerSteady (Fine self) k := by
  cases op with
  | signal s => exact ends_signal h
  | drop => exact ends_drop h
  | wait =>
    refine .bind ((ends_wait h).mono fun r t hr => ?_)
    cases r with
    | ok _ => exact hr
    | error _ => exact hr
  | tryWait =>
    refine .bind ((ends_tryWait h).mono fun r t hr => ?_)
    cases r with
    | ok _ => exact hr.1
    | error _ => exact hr.1

/-! ### Runs -/

theorem step_sound {s s' : Process × Kernel} {op : Op × List Choice}
    (h : Sound s.1.processGroup (s.1.status = none) s.2)
    (stepped : step steady kind s op = some s') :
    Sound s'.1.processGroup (s'.1.status = none) s'.2 := by
  obtain ⟨⟨r, t⟩, executed, rfl⟩ := Option.map_eq_some_iff.mp stepped
  obtain ⟨number, sound⟩ := (ends_body h op.1).exec executed
  exact number ▸ sound

/-- A child that was just started, in a group of its own, and what its terminal has as foreground.
-/
structure Kernel.Started (k : Kernel) : Prop where
  group : k.groups k.processGroup = some k.own
  running : k.reaped = false
  terminal : ∀ kept ∈ k.foreground, k.groups kept.1 = some kept.2
  sent : k.sent = []

namespace Sample

/-- A child with the number 7, on a terminal of which it is the foreground. -/
def kernel : Kernel where
  groups number := if number = 7 then some 0 else none
  next := 1
  processGroup := 7
  own := 0
  reaped := false
  foreground := some (7, 0)
  sent := []

def ended : Choice := ⟨[], .exited ⟨some 0, none⟩⟩

def quiet : Choice := ⟨[], .running⟩

/-- The child ends by itself; its number goes to somebody else before the rest of its group is
killed. -/
def reused : Choice := ⟨[.dissolve 7, .form 7], .running⟩

/-- A job with the number 8 was the foreground and has ended. -/
def jobEnded : Choice := ⟨[.form 8, .foreground (some 8), .dissolve 8], .running⟩

/-- The shell has a job in the foreground that ends when it is told to; the shell is reaped later.
-/
def terminated : List (Op × List Choice) :=
  [(.signal .terminate, [⟨[.form 8, .foreground (some 8)], .running⟩, quiet, quiet,
      ⟨[.dissolve 8, .form 9], .running⟩]),
    (.wait, [ended, ⟨[.form 10], .running⟩])]

end Sample

end RemoteMirror.Pty
