/-
**Permission bits of saved files.**

A save gives the name of the target to a staging file, and with the name go the permission bits of
that file. `create_temp_file` opens it with `0o600`, from which the kernel takes the bits of the
umask; the agent never sets them to those of the file it replaces.  On Windows `ReplaceFileW` keeps
the attributes of the replaced file.

The agent does not look at permission bits during a save, so they follow the calls of `AgentSave`.

Main definitions:

* `Agent.privateMode`, `Agent.creates` — the bits of a staging file;
* `Agent.ModeStep`, `Agent.ModesReached` — runs of an agent, with the bits of all files.

Main results:

* `Agent.staged_private_of_reached` — the staging files of open uploads are private;
* `Agent.applied_keeps_mode_iff` — **a save keeps the bits of its target exactly if they are those
  of a staging file**;
* `Agent.save_makes_private` — so the bits of an executable are lost.
-/

import RemoteMirror.AgentUploads

namespace RemoteMirror.Agent

open Interact (Prog)
open Interact.Prog (Calls Ends)

variable {os : Posix} {α : Type}

/-- Permission bits, with the three special ones. -/
abbrev Mode : Type := BitVec 12

/-- The bits of a file that is opened with `0o600`. -/
def privateMode (umask : Mode) : Mode := 0o600#12 &&& ~~~umask

/-- What a call does to the bits of all files. -/
def creates (umask : Mode) : (e : Sys os) → SysAns e → World os → (ℕ → Mode) → ℕ → Mode
  | .createTempFile _ _, .ok inode, _, modes => Function.update modes inode (privateMode umask)
  | _, _, _, modes => modes

/-- The operating system's side of the calls, with permission bits. -/
def answerModes (umask : Mode) : (e : Sys os) → Choice → World os × (ℕ → Mode) →
    Option (SysAns e × World os × (ℕ → Mode)) :=
  Prog.follow answer (creates umask)

variable {umask : Mode} {s : World os × (ℕ → Mode)} {w : World os} {known : Record}
  {e : Sys os} {c : Choice}
  {t : World os × (ℕ → Mode)} {r : SysAns e}

theorem answerModes_eq_some :
    answerModes umask e c s = some (r, t) ↔ answer e c s.1 = some (r, t.1) ∧
      t.2 = creates umask e r s.1 s.2 :=
  Prog.follow_eq_some

/-- Bits only ever become private. -/
theorem creates_or (umask : Mode) (w : World os) (e : Sys os) (r : SysAns e)
    (modes : ℕ → Mode) (inode : ℕ) :
    creates umask e r w modes inode = modes inode ∨ creates umask e r w modes inode =
      privateMode umask := by
  unfold creates
  split
  · rename_i found
    by_cases heq : inode = found
    · exact .inr (by rw [heq, Function.update_self])
    · exact .inl (Function.update_of_ne heq _ _)
  · exact .inl rfl

variable {p : AgentM os α}

theorem ends_modes {Q : After os α} (h : p.Ends answer Q s.1) :
    p.Ends (answerModes umask) (fun r t => Q r t.1) s :=
  Ends.sim (f := Prod.fst) (fun _ _ _ _ _ hstep => (answerModes_eq_some.1 hstep).1) h

/-! ### New files are private -/

/-- The staging files of open uploads are private. -/
def StagedPrivate (umask : Mode) (s : World os × (ℕ → Mode)) : Prop :=
  ∀ entry ∈ s.1.state.uploads, s.2 entry.2.tmpFile = privateMode umask

/-- Files only become private, and new ones are. -/
structure NewPrivate (umask : Mode) (s t : World os × (ℕ → Mode)) : Prop where
  next : s.1.disk.next ≤ t.1.disk.next
  kept : ∀ inode, s.2 inode = privateMode umask → t.2 inode = privateMode umask
  new : ∀ inode, s.1.disk.next ≤ inode → inode < t.1.disk.next → t.2 inode = privateMode umask

theorem NewPrivate.trans {u : World os × (ℕ → Mode)} (hst : NewPrivate umask s t)
    (htu : NewPrivate umask t u) :
    NewPrivate umask s u where
  next := Nat.le_trans hst.next htu.next
  kept inode h := htu.kept inode (hst.kept inode h)
  new inode hge hlt := by
    rcases Nat.lt_or_ge inode t.1.disk.next with hold | hnew
    · exact htu.kept inode (hst.new inode hge hold)
    · exact htu.new inode hnew hlt

theorem newPrivate_of_answer (h : answerModes umask e c s = some (r, t)) :
    NewPrivate umask s t := by
  obtain ⟨hanswer, hmodes⟩ := answerModes_eq_some.1 h
  have hkept : ∀ inode, s.2 inode = privateMode umask → t.2 inode = privateMode umask := by
    intro inode hprivate
    rw [hmodes]
    rcases creates_or umask s.1 e r s.2 inode with hsame | hnew
    · rw [hsame, hprivate]
    · exact hnew
  by_cases he : ∃ parent name, e = .createTempFile parent name
  · obtain ⟨parent, name, rfl⟩ := he
    rcases createAt_eq_some hanswer with ⟨message, -, hworld⟩ | ⟨rfl, hworld⟩
    · exact ⟨by rw [hworld], hkept, fun inode hge hlt => by rw [hworld] at hlt; omega⟩
    · have hnext : t.1.disk.next = s.1.disk.next + 1 := by
        rw [hworld]
        rfl
      refine ⟨by omega, hkept, fun inode hge hlt => ?_⟩
      obtain rfl : inode = s.1.disk.next := by omega
      rw [hmodes]
      exact Function.update_self _ _ _
  · have hnext := (answer_frame hanswer).2.2 fun parent name heq => he ⟨parent, name, heq⟩
    exact ⟨by omega, hkept, fun inode hge hlt => by omega⟩

theorem ends_newPrivate (p : AgentM os α) : p.Ends (answerModes umask)
    (fun _ t => NewPrivate umask s t) s := by
  refine (Calls.true p).ends (fun _ => ⟨Nat.le_refl _, fun _ => id, fun _ hge hlt => ?_⟩)
    NewPrivate.trans fun _ _ _ _ _ _ => newPrivate_of_answer
  omega

theorem NewPrivate.at_staged (h : NewPrivate umask s t) (hs : StagedPrivate umask s) {inode : ℕ}
    (hinode : NewOrStaged s.1 inode) (hlt : inode < t.1.disk.next) :
    t.2 inode = privateMode umask := by
  rcases hinode with hge | ⟨entry, hentry, rfl⟩
  · exact h.new inode hge hlt
  · exact h.kept _ (hs entry hentry)

/-! ### Runs -/

/-- A request is served to its end, or somebody else changes the disk and the bits of files that are
not staged. -/
inductive ModeStep (umask : Mode) : (World os × (ℕ → Mode)) × Record →
    (World os × (ℕ → Mode)) × Record → Prop
  | request {s t : World os × (ℕ → Mode)} {known : Record} {request : SaveRequest}
    {choices : List Choice}
      {result : Except AgentError SaveResponse}
      (h : (handleRequest request).exec (answerModes umask) choices s = some (result, t)) :
      ModeStep umask (s, known) (t, known.after request result)
  | thirdParty {w : World os} {modes modes' : ℕ → Mode} {known : Record} {disk : Disk os}
      (h : LeavesStaging w disk)
      (hmodes : ∀ entry ∈ w.state.uploads, modes' entry.2.tmpFile = modes entry.2.tmpFile) :
      ModeStep umask ((w, modes), known) (({ w with disk := disk }, modes'), known)

/-- The worlds an agent can come to, with the bits of all files. -/
def ModesReached (umask : Mode) (root : Path) (disk : Disk os) (modes : ℕ → Mode) :
    (World os × (ℕ → Mode)) × Record → Prop :=
  Relation.ReflTransGen (ModeStep umask) ((World.start root disk, modes), Record.empty)

theorem ModeStep.kept {x y : (World os × (ℕ → Mode)) × Record} (h : ModeStep umask x y)
    (hx : Inv x.2 x.1.1 ∧ StagedPrivate umask x.1) : Inv y.2 y.1.1 ∧ StagedPrivate umask y.1 := by
  cases h with
  | request hexec =>
    have hhandled := (ends_modes (ends_handleRequest hx.1 _)).exec hexec
    refine ⟨hhandled.inv, fun entry hentry => ?_⟩
    obtain ⟨_, _, hstaged⟩ := hhandled.inv.staged entry.1 entry.2 hentry
    exact ((ends_newPrivate _).exec hexec).at_staged hx.2 (hhandled.staged entry hentry)
      hstaged.tmpFile_lt
  | thirdParty hleaves hmodes =>
    exact ⟨Step.inv hx.1 (.thirdParty hleaves), fun entry hentry =>
      (hmodes entry hentry).trans (hx.2 entry hentry)⟩

/-- The staging files of open uploads are private. -/
theorem staged_private_of_reached {root : Path} {disk : Disk os} {modes : ℕ → Mode}
    {x : (World os × (ℕ → Mode)) × Record} (h : ModesReached umask root disk modes x) :
    Inv x.2 x.1.1 ∧ StagedPrivate umask x.1 := by
  induction h with
  | refl =>
    refine ⟨⟨fun _ _ hmem => absurd hmem (List.not_mem_nil), fun _ hmem =>
      absurd hmem (List.not_mem_nil)⟩, ?_⟩
    exact fun _ hmem => absurd hmem (List.not_mem_nil)
  | tail _ hstep ih => exact hstep.kept ih

/-- **A save keeps the bits of its target exactly if they are those of a staging file.** -/
theorem applied_keeps_mode_iff {root : Path} {disk : Disk os} {start : ℕ → Mode}
    {s t : World os × (ℕ → Mode)}
    (hreached : ModesReached umask root disk start (s, known)) {request : SaveRequest}
    {choices : List Choice} {response : SaveResponse}
    (hexec : (handleRequest request).exec (answerModes umask) choices s = some (.ok response, t))
    (happlied : response.applied = true) :
    ∃ save new, Saves s.1 known request save ∧ t.1.disk.entry save.dir save.name =
      some (.file new) ∧ ∀ old, s.1.disk.entry save.dir save.name = some (.file old) →
        (t.2 new = s.2 old ↔ s.2 old = privateMode umask) := by
  obtain ⟨hi, hstaged⟩ := staged_private_of_reached hreached
  obtain ⟨save, new, hsave, hentry, hnew⟩ :=
    ((ends_modes (ends_handleRequest hi request)).exec hexec).installs happlied
  have hprivate : t.2 new = privateMode umask :=
    ((ends_newPrivate _).exec hexec).at_staged hstaged hnew (t.1.disk.entry_lt hentry)
  refine ⟨save, new, hsave, hentry, fun old _ => ?_⟩
  rw [hprivate, eq_comm]

namespace Plain

/-- The place of the file `f`. -/
def isF (dir : Path) (name : Name) : Bool := dir == root && name == textBytes "f"

/-- A workspace with that file only. -/
def diskWithFile : Disk unix where
  tree := ()
  entry dir name := if isF dir name then some (.file 0) else none
  data _ := textBytes "hi"
  next := 1
  entry_lt := by
    intro _ _ _ h
    split at h
    · cases h
      exact Nat.zero_lt_one
    · cases h

/-- A save of `f` over itself, which succeeds. -/
def save : SaveRequest :=
  .writeFileCas "f" (some "85052e9aab1b67b6622d94a08441b09fd5b7aca61ee360416d70de5da67d86ca")
    (textBytes "hi")

def saveChoices : List Choice :=
  [.ok, .ok, .ok, .ok, .ok, .ok, .value 7, .ok, .ok, .ok, .ok, .ok, .ok, .ok, .ok, .ok, .ok, .ok,
    .ok, .mtime 0]

end Plain

/-- What is seen of a request: whether it was applied, and the bits of `f` afterwards. -/
def Plain.modeAfter (mode : Mode) : Option (Bool × Option Mode) :=
  ((handleRequest save).exec (answerModes 0o022#12) saveChoices (World.start root diskWithFile,
    fun _ => mode)).map
    fun done => (match done.1 with
      | .ok response => response.applied
      | .error _ => false,
      match done.2.1.disk.entry root (textBytes "f") with
      | some (.file inode) => some (done.2.2 inode)
      | _ => none)

theorem Plain.exists_modeAfter (mode after : Mode) (h : modeAfter mode = some (true, some after)) :
    ∃ t response inode, (handleRequest save).exec (answerModes 0o022#12) saveChoices
        (World.start root diskWithFile, fun _ => mode) = some (.ok response, t) ∧
          response.applied = true ∧
      t.1.disk.entry root (textBytes "f") = some (.file inode) ∧ t.2 inode = after := by
  obtain ⟨⟨result, t⟩, hexec, heq⟩ := Option.map_eq_some_iff.1 h
  obtain ⟨happlied, hmode⟩ := Prod.mk.inj heq
  simp only at happlied hmode
  split at happlied
  · split at hmode
    · rename_i inode hentry
      cases hmode
      exact ⟨t, _, inode, hexec, happlied, hentry, rfl⟩
    · cases hmode
  · cases happlied

open Plain in
/-- The bits of a private file are kept. -/
theorem applied_keeps_mode_private :
    ∃ (t : World unix × (ℕ → Mode)) (save' : Replacement unix) (new : ℕ),
      Saves (World.start root diskWithFile) Record.empty save save' ∧
      t.1.disk.entry save'.dir save'.name = some (.file new) ∧
      ∀ old, diskWithFile.entry save'.dir save'.name = some (.file old) →
        (t.2 new = 0o600#12 ↔ 0o600#12 = privateMode 0o022#12) := by
  obtain ⟨t, response, inode, hexec, happlied, -⟩ :=
    exists_modeAfter 0o600#12 0o600#12 (by decide +kernel)
  obtain ⟨save', new, hsave, hentry, hbits⟩ := applied_keeps_mode_iff .refl hexec happlied
  exact ⟨t, save', new, hsave, hentry, hbits⟩

open Plain in
/-- **An executable loses its bits**: after the save it can only be read and written, by its owner.
-/
theorem save_makes_private :
    ∃ t response inode, (handleRequest save).exec (answerModes 0o022#12) saveChoices
        (World.start root diskWithFile, fun _ => 0o755#12) = some (.ok response, t) ∧
          response.applied = true ∧
      t.1.disk.entry root (textBytes "f") = some (.file inode) ∧ t.2 inode = 0o600#12 :=
  exists_modeAfter 0o755#12 0o600#12 (by decide +kernel)

end RemoteMirror.Agent
