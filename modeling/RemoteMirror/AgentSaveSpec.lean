/-
**What one save does to the disk.**

Every function of `AgentSave` has one rule here, in the form *to end in `Q`, it is
enough that …*.  Up to the rename a save only touches staging files (`Still`); the rename itself
gives the target's name to the staging file (`Replaced`); after it the disk is only looked at.

Main definitions:

* `Agent.Quiet`, `Agent.Still` — nothing but staging files changes;
* `Agent.Replacement`, `Agent.Replaced` — a save, and the disk after it.

Main results:

* `Agent.ends_checkAndReplace` — the final check and the rename;
* `Agent.ends_writeFileCasPrepared`, `Agent.ends_finishUpload` — **both
  kinds of saves leave everything as it is or replace exactly their target**.
-/

import RemoteMirror.AgentSave

namespace RemoteMirror.Agent

open Checks
open FileStore (overwrite overwrite_nil)
open Interact (Prog)

variable {os : Posix} {α : Type}

/-! ### Nothing but staging files changes -/

/-- Between these two worlds only staging files and directories have changed, and uploads were at
most dropped. -/
structure Quiet (w w' : World os) : Prop where
  root : w'.state.root = w.state.root
  uploads : w'.state.uploads ⊆ w.state.uploads
  next : w.disk.next ≤ w'.disk.next
  entry : ∀ dir name, ¬ Staging name → w'.disk.entry dir name = w.disk.entry dir name
  data : ∀ inode, inode < w.disk.next → w'.disk.data inode = w.disk.data inode

/-- Directories have not changed either. -/
structure Still (w w' : World os) : Prop extends Quiet w w' where
  tree : w'.disk.tree = w.disk.tree

theorem Quiet.refl (w : World os) : Quiet w w :=
  ⟨rfl, List.Subset.refl _, Nat.le_refl _, fun _ _ _ => rfl, fun _ _ => rfl⟩

theorem Still.refl (w : World os) : Still w w := ⟨Quiet.refl w, rfl⟩

variable {w : World os}

theorem Quiet.trans {u v : World os} (huv : Quiet u v) (hvw : Quiet v w) : Quiet u w where
  root := hvw.root.trans huv.root
  uploads := List.Subset.trans hvw.uploads huv.uploads
  next := Nat.le_trans huv.next hvw.next
  entry dir name hname := (hvw.entry dir name hname).trans (huv.entry dir name hname)
  data inode hinode :=
    (hvw.data inode (Nat.lt_of_lt_of_le hinode huv.next)).trans (huv.data inode hinode)

theorem Still.trans {u v : World os} (huv : Still u v) (hvw : Still v w) : Still u w :=
  ⟨huv.toQuiet.trans hvw.toQuiet, hvw.tree.trans huv.tree⟩

theorem Quiet.setTree (w : World os) (tree : os.Fs) :
    Quiet w { w with disk := w.disk.setTree tree } :=
  ⟨rfl, List.Subset.refl _, Nat.le_refl _, fun _ _ _ => rfl, fun _ _ => rfl⟩

namespace Still

variable {w w₁ : World os}

/-- New bytes for an object that did not exist before. -/
theorem setData (h : Still w w₁) {inode : ℕ} (hinode : w.disk.next ≤ inode)
    (bytes : List UInt8) : Still w { w₁ with disk := w₁.disk.setData inode bytes } :=
  { h with
    data := by
      intro i hi
      have hne : i ≠ inode := by omega
      simpa [Disk.setData, hne] using h.data i hi }

variable {name : Name}

theorem create (h : Still w w₁) (dir : os.Dir) (hname : Staging name) :
    Still w { w₁ with disk := w₁.disk.create dir name } :=
  { h with
    next := Nat.le_succ_of_le h.next
    entry := by
      intro d n hn
      have hne : ¬ (d = dir ∧ n = name) := fun heq => hn (heq.2 ▸ hname)
      simpa [Disk.create, hne] using h.entry d n hn
    data := by
      intro i hi
      have hne : i ≠ w₁.disk.next := by
        have := h.next
        omega
      simpa [Disk.create, hne] using h.data i hi }

theorem unlink (h : Still w w₁) (dir : os.Dir) (hname : Staging name) :
    Still w { w₁ with disk := w₁.disk.unlink dir name } :=
  { h with
    entry := by
      intro d n hn
      have hne : ¬ (d = dir ∧ n = name) := fun heq => hn (heq.2 ▸ hname)
      simpa [Disk.unlink, hne] using h.entry d n hn }

theorem setState (h : Still w w₁) {f : AgentState os → AgentState os}
    (hroot : (f w₁.state).root = w₁.state.root)
    (huploads : (f w₁.state).uploads ⊆ w₁.state.uploads) :
    Still w { w₁ with state := f w₁.state } :=
  { h with
    root := hroot.trans h.root
    uploads := List.Subset.trans huploads h.uploads }

theorem remove (h : Still w w₁) (uploadId : String) :
    Still w { w₁ with state := w₁.state.remove uploadId } :=
  h.setState (f := AgentState.remove uploadId) rfl (List.filter_subset_self _)

theorem release (h : Still w w₁) (keys : List String) :
    Still w { w₁ with state := w₁.state.release keys } :=
  h.setState (f := AgentState.release keys) rfl (List.Subset.refl _)

end Still

variable {w' : World os}

/-- What a reader finds under an ordinary name does not change. -/
theorem Quiet.seen (h : Quiet w w') {dir : os.Dir} {name : Name} (hname : ¬ Staging name) :
    w'.disk.view dir name = w.disk.view dir name ∧ w'.disk.file dir name =
      w.disk.file dir name := by
  unfold Disk.view Disk.file
  rw [h.entry dir name hname]
  cases hentry : w.disk.entry dir name with
  | none => exact ⟨rfl, rfl⟩
  | some node =>
    cases node with
    | file inode => simp [h.data inode (w.disk.entry_lt hentry)]
    | symlink | special => exact ⟨rfl, rfl⟩

theorem staging_saveTempName (targetAbs : Path) (nanos : ℕ) :
    Staging (saveTempName targetAbs nanos) :=
  staging_withExtension _ _ (by decide)

theorem staging_uploadTempName (targetAbs : Path) (uploadId : String) :
    Staging (uploadTempName targetAbs uploadId) :=
  staging_withExtension _ _ (by decide)

/-! ### Rules for calls -/

section Rules

/-- What holds of a result and of the world after it. -/
abbrev After (os : Posix) (α : Type) := Except AgentError α → World os → Prop

variable {w : World os}

/-- The call leaves the world alone, and fails or answers `seen`. -/
def Looks (p : AgentM os (Except String α)) (w : World os) (seen : Except String α) : Prop :=
  ∀ Q : After os (Except String α),
    (∀ message, Q (.ok (.error message)) w) → Q (.ok seen) w → p.Ends answer Q w

variable {seen : Except String α} {t : World os} {c : Choice}

theorem look_eq_some {r : Except String α} (h : look w c seen = some (r, t)) :
    t = w ∧ ((∃ message, r = .error message) ∨ r = seen) := by
  unfold look at h
  split at h
  case h_1 message =>
    cases h
    exact ⟨rfl, .inl ⟨message, rfl⟩⟩
  case h_2 =>
    cases h
    exact ⟨rfl, .inr rfl⟩

theorem Looks.of_look {Q : After os (Except String α)} {r : Except String α}
    (h : look w c seen = some (r, t)) (herr : ∀ message, Q (.ok (.error message)) w)
    (hok : Q (.ok seen) w) : Q (.ok r) t := by
  obtain ⟨rfl, ⟨message, rfl⟩ | rfl⟩ := look_eq_some h
  · exact herr message
  · exact hok

variable {p : AgentM os (Except String α)}

/-- A call whose answer is `look`, whatever the choices. -/
theorem Looks.of_call (h : ∀ Q : After os (Except String α),
      (∀ c r t, look w c seen = some (r, t) → Q (.ok r) t) → p.Ends answer Q w) : Looks p w seen :=
  fun Q herr hok => h Q fun _ _ _ hlook => Looks.of_look hlook herr hok

variable {error : String → AgentError}

/-- The rule for `?`. -/
theorem ends_attemptCall {Q : After os α}
    (h : p.Ends answer (fun r t => match r with
      | .ok (.ok a) => Q (.ok a) t
      | .ok (.error message) => Q (.error (error message)) t
      | .error x => Q (.error x) t) w) :
    (attemptCall error p).Ends answer Q w := by
  refine .bind (h.mono ?_)
  intro r t hr
  match r with
  | .ok (.ok a) | .ok (.error message) | .error x => exact hr

theorem Looks.attemptCall (h : Looks p w seen) {Q : After os α}
    (herr : ∀ message, Q (.error (error message)) w) (hok : ∀ a, seen = .ok a → Q (.ok a) w) :
    (Agent.attemptCall error p).Ends answer Q w := by
  refine ends_attemptCall (h _ herr ?_)
  cases seen with
  | ok a => exact hok a rfl
  | error message => exact herr message

variable {name : Name} {parent : os.Dir}

theorem still_of_removeAt (hname : Staging name) {r : Removed}
    (h : removeAt w c parent name = some (r, t)) : Still w t := by
  unfold removeAt at h
  split at h
  · cases h
    exact Still.refl w
  · split at h
    · cases h
      exact (Still.refl w).unlink parent hname
    · cases h
      exact Still.refl w

theorem ends_removeTempFile (parent : os.Dir) (hname : Staging name) {Q : After os Unit}
    (h : ∀ t, Still w t → Q (.ok ()) t) : (removeTempFile parent name).Ends answer Q w := by
  intro c r t ht
  exact h t (still_of_removeAt hname ht)

/-- The rule for calls that are followed by a removal if they fail. -/
theorem Looks.orRemoveTemp (h : Looks p w seen) (hname : Staging name) {Q : After os α}
    (herr : ∀ message t, Still w t → Q (.error (error message)) t) (hok : ∀ a, seen = .ok a →
      Q (.ok a) w) :
    (Agent.orRemoveTemp parent name error p).Ends answer Q w := by
  have hremove : ∀ message, (do
      removeTempFile parent name
      Prog.err (error message) : AgentM os α).Ends answer Q w := fun message =>
    .bind (ends_removeTempFile parent hname fun t ht => herr message t ht)
  refine .bind (h _ hremove ?_)
  cases seen with
  | ok a => exact hok a rfl
  | error message => exact hremove message

theorem ends_clock {p : AgentM os ℕ} (hp : p = systemTime ∨ p = instantNow)
    {Q : After os ℕ} (h : ∀ n, Q (.ok n) w) : p.Ends answer Q w := by
  have hclock : ∀ {c : Choice} {n : ℕ} {t : World os}, clock w c = some (n, t) → Q (.ok n) t := by
    intro c n t ht
    cases c with
    | value m =>
      cases ht
      exact h _
    | _ => cases ht
  obtain rfl | rfl := hp
  · exact fun c n t ht => hclock ht
  · exact fun c n t ht => hclock ht

theorem ends_agentState {Q : After os (AgentState os)}
    (h : Q (.ok w.state) w) : agentState.Ends answer Q w := by
  intro c r t ht
  cases ht
  exact h

theorem ends_setState {f : AgentState os → AgentState os}
    {Q : After os Unit}
    (h : Q (.ok ()) { w with state := f w.state }) : (setState f).Ends answer Q w := by
  intro c r t ht
  cases ht
  exact h

theorem ends_saveConflict {path : String} {expectedHash actualHash : Option String}
    {Q : After os SaveConflict} (h : ∀ conflict, Q (.ok conflict) w) :
    (saveConflict path expectedHash actualHash).Ends answer Q w := by
  refine .bind (.bind ?_)
  intro c opened t ht
  obtain ⟨rfl, -⟩ := look_eq_some ht
  match opened with
  | .error _ => exact h _
  | .ok (inode, remoteSize) =>
    refine .bind ?_
    intro c read t ht
    obtain ⟨rfl, -⟩ := look_eq_some ht
    exact h _

end Rules

/-! ### The final check and the rename -/

/-- A save: where, under which path, against which hash, and the new bytes. -/
structure Replacement (os : Posix) where
  dir : os.Dir
  targetAbs : Path
  path : String
  expectedHash : Option String
  content : List UInt8

def Replacement.name (save : Replacement os) : Name := fileName save.targetAbs

/-- The rename has just happened: what was found before it, and the world after it. -/
structure Swapped (w w' : World os) (save : Replacement os) (tmpName : Name) (tmpFile : ℕ) :
    Prop where
  parent : os.lstatDir w.disk.tree save.targetAbs.dropLast = some save.dir
  checked : currentRegularFileHash w.disk w.state.root save.path save.targetAbs =
    .ok save.expectedHash
  vacant : os.hasSubdir w.disk.tree save.dir save.name = false
  staged : w.disk.entry save.dir tmpName = some (.file tmpFile)
  content : w.disk.data tmpFile = save.content
  world : w' = { w with disk := w.disk.rename save.dir tmpName save.name }

/-- Exactly the target of the save has been replaced: its name stands for `inode` now, which holds
the new bytes.  The bytes it had before were those expected, if the path of the save still leads to
the target. -/
structure Replaced (w w' : World os) (save : Replacement os) (inode : ℕ) : Prop where
  root : w'.state.root = w.state.root
  uploads : w'.state.uploads ⊆ w.state.uploads
  next : w.disk.next ≤ w'.disk.next
  entry_self : w'.disk.entry save.dir save.name = some (.file inode)
  data_self : w'.disk.data inode = save.content
  entry : ∀ dir name, ¬ Staging name → ¬ (dir = save.dir ∧ name = save.name) →
    w'.disk.entry dir name = w.disk.entry dir name
  data : ∀ i, i < w.disk.next → w'.disk.data i = w.disk.data i
  compared : ¬ Staging save.name →
    LeadsTo w.disk.tree w.state.root save.path save.targetAbs →
    (w.disk.file save.dir save.name).map os.hashBytes = save.expectedHash

variable {save : Replacement os} {w₁ : World os}

theorem Replaced.of_swapped {tmpName : Name} {tmpFile : ℕ} (hstill : Still w w₁)
    (hname : Staging tmpName)
    (h : Swapped w₁ w' save tmpName tmpFile) : Replaced w w' save tmpFile := by
  obtain ⟨hparent, hchecked, hvacant, hstaged, hcontent, rfl⟩ := h
  refine ⟨hstill.root, hstill.uploads, hstill.next, ?_, hcontent, ?_, hstill.data, ?_⟩
  · simpa [Disk.rename] using hstaged
  · intro dir name hordinary hne
    have hne' : ¬ (dir = save.dir ∧ name = tmpName) := fun heq => hordinary (heq.2 ▸ hname)
    simpa [Disk.rename, hne, hne'] using hstill.entry dir name hordinary
  · intro hordinary hleads
    -- until the check nothing ordinary had changed
    rw [← (hstill.seen hordinary).2]
    rw [← hstill.tree, ← hstill.root] at hleads
    exact (currentRegularFileHash_eq_ok hparent hvacant hleads hchecked).symm

theorem Replaced.of_still {inode : ℕ} (hstill : Still w w₁) (h : Replaced w₁ w' save inode) :
    Replaced w w' save inode where
  root := h.root.trans hstill.root
  uploads := List.Subset.trans h.uploads hstill.uploads
  next := Nat.le_trans hstill.next h.next
  entry_self := h.entry_self
  data_self := h.data_self
  entry dir name hname hne := (h.entry dir name hname hne).trans (hstill.entry dir name hname)
  data i hi := (h.data i (Nat.lt_of_lt_of_le hi hstill.next)).trans (hstill.data i hi)
  compared hname hleads := by
    rw [← (hstill.seen hname).2]
    exact h.compared hname (by rwa [hstill.tree, hstill.root])

theorem Replaced.release {inode : ℕ} (h : Replaced w w' save inode) (keys : List String) :
    Replaced w { w' with state := w'.state.release keys } save inode :=
  { h with }

section Replace

variable {w : World os}

theorem dropLast_append_name (path : Path) (name : Name) :
    (path ++ [name]).dropLast = path ∧ fileName (path ++ [name]) = name := by
  simp [fileName]

theorem verifyTempFileIdentity_eq_ok {disk : Disk os} {inode : ℕ} {parent : Path} {name : Name}
    {dir : os.Dir} {u : Unit} (hdir : os.lstatDir disk.tree parent = some dir)
    (h : verifyTempFileIdentity disk inode (parent ++ [name]) = .ok u) :
    disk.entry dir name = some (.file inode) := by
  have hopen : os.openDir disk.tree parent = .ok dir := os.openDir_of_lstatDir hdir
  obtain ⟨hparent, hname⟩ := dropLast_append_name parent name
  unfold verifyTempFileIdentity Disk.lstat at h
  rw [hparent, hname] at h
  simp only [hopen] at h
  split at h
  case h_1 found hfound =>
    split at h
    · rename_i heq
      subst heq
      split at hfound
      · cases hfound
      · split at hfound
        · rename_i hentry
          cases hfound
          exact hentry
        · cases hfound
    · cases h
  all_goals cases h

variable {tmpName : Name}

theorem renameAt_eq_some {c : Choice} {parent : os.Dir} {targetName : Name} {r : Except String Unit}
    {t : World os} (h : renameAt w c parent tmpName targetName = some (r, t)) :
    (∃ message, r = .error message ∧ t = w) ∨
      (r = .ok () ∧ os.hasSubdir w.disk.tree parent targetName = false ∧
        t = { w with disk := w.disk.rename parent tmpName targetName }) := by
  unfold renameAt act at h
  split at h
  · split at h
    · cases h
      exact .inl ⟨_, rfl, rfl⟩
    · rename_i hvacant
      split at h
      · cases h
        exact .inl ⟨_, rfl, rfl⟩
      · cases h
        exact .inr ⟨rfl, by simpa using hvacant, rfl⟩
  · cases h
    exact .inl ⟨_, rfl, rfl⟩

theorem ends_renameTempIntoPath {parent : os.Dir} {tmpPath : Path} {targetAbs : Path}
    (hname : Staging tmpName) {Q : After os Unit}
    (herr : ∀ message t, Still w t → Q (.error (.replace message)) t)
    (hok : os.hasSubdir w.disk.tree parent (fileName targetAbs) = false →
      Q (.ok ()) { w with disk := w.disk.rename parent tmpName (fileName targetAbs) }) :
    (renameTempIntoPath parent tmpPath tmpName targetAbs).Ends answer Q w := by
  refine .bind ?_
  intro c r t ht
  obtain ⟨message, rfl, rfl⟩ | ⟨rfl, hvacant, rfl⟩ := renameAt_eq_some ht
  · -- the staging file is removed, and what it takes is reported
    refine .bind ?_
    intro c cleanup t ht
    have hstill := still_of_removeAt hname ht
    cases cleanup with
    | removed | notFound | failed message => exact herr _ t hstill
  · exact hok hvacant

/-- **The final check and the rename**: a conflict or an error before the rename leaves everything
as it is; otherwise the staging file takes the place of the target. -/
theorem ends_checkAndReplace (save : Replacement os) {tmpFile : ℕ} (hname : Staging tmpName)
    (hcontent : w.disk.data tmpFile = save.content) {Q : After os (Option SaveConflict)}
    (hconflict : ∀ conflict t, Still w t → Q (.ok (some conflict)) t)
    (hearly : ∀ x t, x.late = false → Still w t → Q (.error x) t)
    (hlate : ∀ x t, x.late = true → Swapped w t save tmpName tmpFile → Q (.error x) t)
    (hdone : ∀ t, Swapped w t save tmpName tmpFile → Q (.ok none) t) :
    (checkAndReplace save.path save.targetAbs save.expectedHash save.dir
      (save.targetAbs.dropLast ++ [tmpName]) tmpName tmpFile).Ends answer Q w := by
  refine .bind (Looks.orRemoveTemp (.of_call fun _ h => by exact h) hname
    (fun message t ht => hearly _ t rfl ht) fun _ hverified => ?_)
  have hparent := verifyWriteParentCurrentPath_eq_ok hverified
  refine .bind (Looks.attemptCall (.of_call fun _ h => by exact h)
    (fun message => hearly _ w rfl (Still.refl w)) fun actualHash hactual => ?_)
  refine .ite (fun _ => ?_) fun heq => ?_
  · refine .bind (ends_removeTempFile _ hname fun t ht => ?_)
    exact .bind (ends_saveConflict fun conflict => hconflict conflict t ht)
  · obtain rfl : actualHash = save.expectedHash := Decidable.not_not.1 heq
    refine .bind (Looks.orRemoveTemp (.of_call fun _ h => by exact h) hname
      (fun message t ht => hearly _ t rfl ht) fun _ _ => ?_)
    refine .bind (Looks.orRemoveTemp (.of_call fun _ h => by exact h) hname
      (fun message t ht => hearly _ t rfl ht) fun _ hidentity => ?_)
    have hstaged := verifyTempFileIdentity_eq_ok hparent hidentity
    refine .bind (ends_renameTempIntoPath hname
      (fun message t ht => hearly _ t rfl ht) fun hvacant => ?_)
    have hswapped : Swapped w { w with disk := w.disk.rename save.dir tmpName save.name } save
        tmpName tmpFile := ⟨hparent, hactual, hvacant, hstaged, hcontent, rfl⟩
    -- from here on the target is replaced, whatever still fails
    exact .bind (Looks.attemptCall (.of_call fun _ h => by exact h)
      (fun message => hlate _ _ rfl hswapped) fun _ _ => hdone _ hswapped)

end Replace

/-! ### Saves in one request -/

section Whole

variable {w : World os} {parent : os.Dir} {name : Name} {t : World os} {c : Choice}

theorem createAt_eq_some {r : Except String ℕ} (h : createAt w c parent name = some (r, t)) :
    (∃ message, r = .error message ∧ t = w) ∨
      (r = .ok w.disk.next ∧ t = { w with disk := w.disk.create parent name }) := by
  unfold createAt act at h
  split at h
  · cases h
    exact .inl ⟨_, rfl, rfl⟩
  · split at h
    · cases h
      exact .inl ⟨_, rfl, rfl⟩
    · cases h
      exact .inr ⟨rfl, rfl⟩

variable {content : List UInt8}

theorem writeAt_eq_some {inode offset : ℕ} {r : Except String Unit}
    (h : writeAt w c inode offset content = some (r, t)) :
    (∃ message, r = .error message ∧ t = w) ∨
      (∃ message written, r = .error message ∧
        t = { w with
          disk := w.disk.setData inode
            (overwrite (w.disk.data inode) offset (content.take written)) }) ∨
      (r = .ok () ∧ t = { w with
        disk := w.disk.setData inode (overwrite (w.disk.data inode) offset content) }) := by
  unfold writeAt act at h
  split at h
  · cases h
    exact .inr (.inl ⟨_, _, rfl, rfl⟩)
  · split at h
    · cases h
      exact .inl ⟨_, rfl, rfl⟩
    · cases h
      exact .inr (.inr ⟨rfl, rfl⟩)

variable {error : String → AgentError}

theorem ends_createTempFile {Q : After os ℕ} (herr : ∀ message, Q (.error (error message)) w)
    (hok : Q (.ok w.disk.next) { w with disk := w.disk.create parent name }) :
    (attemptCall error (call (.createTempFile parent name))).Ends answer Q w := by
  refine ends_attemptCall ?_
  intro c r t ht
  obtain ⟨message, rfl, rfl⟩ | ⟨rfl, rfl⟩ := createAt_eq_some ht
  · exact herr message
  · exact hok

/-- Filling a staging file that the request itself has created. -/
theorem ends_fillTempFile {w₁ : World os} {inode : ℕ} (hstill : Still w w₁) (hname : Staging name)
    (hinode : w.disk.next ≤ inode) (hempty : w₁.disk.data inode = []) {Q : After os Unit}
    (herr : ∀ message t, Still w t → Q (.error (error message)) t)
    (hok : ∀ t, Still w t → t.disk.data inode = content → Q (.ok ()) t) :
    (orRemoveTemp parent name error (call (.writeAll inode 0 content))).Ends answer Q w₁ := by
  have hremove : ∀ message t, Still w t → (do
      removeTempFile parent name
      Prog.err (error message) : AgentM os Unit).Ends answer Q t := fun message t ht =>
    .bind (ends_removeTempFile parent hname fun u hu => herr message u (ht.trans hu))
  refine .bind ?_
  intro c r t ht
  obtain ⟨message, rfl, rfl⟩ | ⟨message, written, rfl, rfl⟩ | ⟨rfl, rfl⟩ := writeAt_eq_some ht
  · exact hremove message _ hstill
  · exact hremove message _ (hstill.setData hinode _)
  · refine hok _ (hstill.setData hinode _) ?_
    simp [Disk.setData, hempty, overwrite_nil]

theorem metaAt_eq_some {path : Path} {r : Except String (ℕ × ℤ)}
    (h : metaAt w c path = some (r, t)) : t = w := by
  unfold metaAt at h
  split at h
  · cases h
    rfl
  · cases h
    rfl
  · cases h

theorem ends_fileMeta {path : Path} {Q : After os (ℕ × ℤ)}
    (herr : ∀ message, Q (.error (.fileMeta message)) w) (hok : ∀ stat, Q (.ok stat) w) :
    (attemptCall .fileMeta (call (.fileMeta path))).Ends answer Q w := by
  refine ends_attemptCall ?_
  intro c r t ht
  obtain rfl := metaAt_eq_some ht
  match r with
  | .ok stat => exact hok stat
  | .error message => exact herr message

/-- **A save in one request** leaves everything as it is, or replaces exactly its target and answers
that it was applied or fails afterwards. -/
theorem ends_writeFileCasPrepared {path : String} {expectedHash : Option String}
    {target : WriteTarget}
    {Q : After os SaveOutcome} (hconflict : ∀ conflict t, Still w t →
      Q (.ok (.conflict conflict)) t)
    (hearly : ∀ x t, x.late = false → Still w t → Q (.error x) t)
    (hreplaced : ∀ dir inode t, os.lstatDir w.disk.tree target.parentAbs = some dir →
      w.disk.next ≤ inode → Replaced w t ⟨dir, target.abs, path, expectedHash, content⟩ inode →
      (∀ applied, Q (.ok (.applied applied)) t) ∧ ∀ x, x.late = true → Q (.error x) t) :
    (writeFileCasPrepared path expectedHash content target).Ends answer Q w := by
  refine .bind (Looks.attemptCall (.of_call fun _ h => by exact h)
    (fun message => hearly _ w rfl (Still.refl w)) fun dir hopen => ?_)
  have hdir := openWriteParent_eq_ok hopen
  refine .bind (Looks.attemptCall (.of_call fun _ h => by exact h)
    (fun message => hearly _ w rfl (Still.refl w)) fun actualHash _ => ?_)
  refine .ite (fun _ => ?_) fun _ => ?_
  · exact .bind (ends_saveConflict fun conflict => hconflict conflict w (Still.refl w))
  · refine .bind (ends_clock (.inl rfl) fun nanos => ?_)
    have hname := staging_saveTempName target.abs nanos
    refine .bind (Looks.attemptCall (.of_call fun _ h => by exact h)
      (fun message => hearly _ w rfl (Still.refl w)) fun _ _ => ?_)
    refine .bind (ends_createTempFile
      (fun message => hearly _ w rfl (Still.refl w)) ?_)
    have hcreated := (Still.refl w).create dir hname
    refine .bind (ends_fillTempFile hcreated hname (Nat.le_refl _) (by simp [Disk.create])
      (fun message t ht => hearly _ t rfl ht) fun w₁ hstill hcontent => ?_)
    refine .bind (Looks.orRemoveTemp (.of_call fun _ h => by exact h) hname
      (fun message t ht => hearly _ t rfl (hstill.trans ht)) fun _ _ => ?_)
    refine .bind (Looks.orRemoveTemp (.of_call fun _ h => by exact h) hname
      (fun message t ht => hearly _ t rfl (hstill.trans ht)) fun _ _ => ?_)
    have hlater : ∀ t, Swapped w₁ t ⟨dir, target.abs, path, expectedHash, content⟩
        (saveTempName target.abs nanos) w.disk.next → (∀ applied, Q (.ok (.applied applied)) t) ∧
          ∀ x, x.late = true → Q (.error x) t :=
      fun t ht => hreplaced dir _ t hdir (Nat.le_refl _) (.of_swapped hstill hname ht)
    refine .bind (ends_checkAndReplace
      ⟨dir, target.abs, path, expectedHash, content⟩ hname hcontent
      (fun conflict t ht => hconflict conflict t (hstill.trans ht))
      (fun x t hx ht => hearly x t hx (hstill.trans ht))
      (fun x t hx ht => (hlater t ht).2 x hx) fun t ht => ?_)
    -- only looking is left
    refine .bind (Looks.attemptCall (.of_call fun _ h => by exact h)
      (fun message => (hlater t ht).2 _ rfl) fun newHash _ => ?_)
    exact .bind (ends_fileMeta (fun message => (hlater t ht).2 _ rfl)
      fun stat => (hlater t ht).1 _)

end Whole

/-! ### Uploads -/

section Uploads

variable {w : World os} {path : String}

theorem prepareAt_eq_some {c : Choice} {r : Except String WriteTarget} {t : World os}
    (h : prepareAt w c path = some (r, t)) :
    (∃ message, r = .error message ∧ t = w) ∨
      ∃ target tree, prepareWriteTarget os.toUnix w.disk.tree w.state.root path =
        .ok (target, tree) ∧ r = .ok target ∧ t = { w with disk := w.disk.setTree tree } := by
  unfold prepareAt act at h
  split at h
  · rename_i target tree hprepare
    split at h
    · cases h
      exact .inl ⟨_, rfl, rfl⟩
    · cases h
      exact .inr ⟨target, tree, hprepare, rfl, rfl⟩
  · cases h
    exact .inl ⟨_, rfl, rfl⟩

/-- The target of a save, with its locks; only directories have changed. -/
theorem ends_claimTarget {Q : After os (WriteTarget × List String)}
    (herr : ∀ x t, x.late = false → Quiet w t → Q (.error x) t)
    (hok : ∀ target keys tree,
      prepareWriteTarget os.toUnix w.disk.tree w.state.root path = .ok (target, tree) →
      Q (.ok (target, keys)) { w with disk := w.disk.setTree tree }) :
    (claimTarget path).Ends answer Q w := by
  refine .bind (ends_attemptCall ?_)
  intro c r t ht
  obtain ⟨message, rfl, rfl⟩ | ⟨target, tree, hprepare, rfl, rfl⟩ := prepareAt_eq_some ht
  · exact herr _ t rfl (Quiet.refl t)
  · have hquiet := Quiet.setTree w tree
    refine .bind (ends_agentState ?_)
    refine .bind (.bind (ends_agentState ?_))
    refine .ite (fun _ => herr _ _ rfl hquiet) fun _ => ?_
    exact .bind (Looks.attemptCall (.of_call fun _ h => by exact h)
      (fun message => herr _ _ rfl hquiet) fun _ _ => hok target _ tree hprepare)

variable {uploadId : String} {upload : PendingUpload os}

theorem ends_dropUpload (hname : Staging upload.tmpName) {Q : After os Unit}
    (h : ∀ t, Still w t → Q (.ok ()) t) : (dropUpload uploadId upload).Ends answer Q w := by
  refine .bind (ends_setState ?_)
  refine .bind (ends_removeTempFile _ hname fun t ht => ?_)
  exact ends_setState (h _ ((((Still.refl w).remove uploadId).trans ht).release _))

theorem ends_dropUploads {entries : List (String × PendingUpload os)}
    (hnames : ∀ entry ∈ entries, Staging entry.2.tmpName)
    {Q : After os Unit} (h : ∀ t, Still w t → Q (.ok ()) t) :
    (dropUploads entries).Ends answer Q w := by
  induction entries generalizing w with
  | nil => exact h w (Still.refl w)
  | cons entry rest ih =>
    obtain ⟨hhead, hrest⟩ := List.forall_mem_cons.1 hnames
    exact .bind (ends_dropUpload hhead fun t ht =>
      ih hrest fun u hu => h u (ht.trans hu))

theorem ends_cleanupExpiredUploads (hnames : ∀ entry ∈ w.state.uploads, Staging entry.2.tmpName)
    {Q : After os Unit} (h : ∀ t, Still w t → Q (.ok ()) t) :
    cleanupExpiredUploads.Ends answer Q w := by
  refine .bind (ends_clock (.inr rfl) fun now => ?_)
  refine .bind (ends_agentState ?_)
  exact ends_dropUploads (fun entry hentry => hnames entry (List.mem_of_mem_filter hentry)) h

/-- An upload that is let in fits the limit by itself. -/
theorem ends_enforceUploadLimits {size : ℕ} {Q : After os Unit}
    (herr : ∀ message, Q (.error (.upload message)) w) (hok : size ≤ maxActiveUploadBytes →
      Q (.ok ()) w) :
    (enforceUploadLimits size).Ends answer Q w := by
  refine .bind (ends_agentState ?_)
  refine .ite (fun _ => herr _) fun _ => ?_
  refine .ite (fun _ => herr _) fun hbytes => hok ?_
  have hmax : maxActiveUploadBytes < u64Max := by decide
  omega

theorem ends_lookupUpload {Q : After os (PendingUpload os)}
    (herr : ∀ message, Q (.error (.upload message)) w)
    (hok : ∀ upload, w.state.get? uploadId = some upload → Q (.ok upload) w) :
    (lookupUpload uploadId).Ends answer Q w := by
  refine .bind (ends_agentState ?_)
  cases hget : w.state.get? uploadId with
  | some upload =>
    simp only [hget]
    exact hok upload hget
  | none =>
    simp only [hget]
    exact herr _

/-- **Finishing an upload** leaves everything as it is, or replaces exactly the target by the bytes
of the staging file, whose hash is the declared one. -/
theorem ends_finishUpload {content : List UInt8} (hname : Staging upload.tmpName)
    (htmp : upload.tmpPath = upload.targetAbs.dropLast ++ [upload.tmpName])
    (hcontent : upload.written = upload.size → w.disk.data upload.tmpFile = content)
    {Q : After os SaveOutcome} (hconflict : ∀ conflict t, Still w t →
      Q (.ok (.conflict conflict)) t)
    (hearly : ∀ x t, x.late = false → Still w t → Q (.error x) t)
    (hreplaced : ∀ t, upload.written = upload.size → os.hashBytes content = upload.contentHash →
      Replaced w t ⟨upload.parent, upload.targetAbs, upload.path, upload.expectedHash, content⟩
        upload.tmpFile →
      (∀ applied, Q (.ok (.applied applied)) t) ∧ ∀ x, x.late = true → Q (.error x) t) :
    (finishUpload uploadId upload).Ends answer Q w := by
  refine .ite (fun _ => ?_) fun hwritten => ?_
  · exact .bind (ends_removeTempFile _ hname fun t ht => hearly _ t rfl ht)
  have hsize : upload.written = upload.size := Decidable.not_not.1 hwritten
  have hdata := hcontent hsize
  refine .bind (Looks.orRemoveTemp (.of_call fun _ h => by exact h) hname
    (fun message t ht => hearly _ t rfl ht) fun _ _ => ?_)
  refine .bind (Looks.orRemoveTemp (.of_call fun _ h => by exact h) hname
    (fun message t ht => hearly _ t rfl ht) fun tmpHash htmpHash => ?_)
  refine .ite (fun _ => ?_) fun hhash => ?_
  · exact .bind (ends_removeTempFile _ hname fun t ht => hearly _ t rfl ht)
  have hdeclared : os.hashBytes content = upload.contentHash := by
    rw [← hdata, ← Decidable.not_not.1 hhash]
    simpa using htmpHash
  refine .bind (Looks.orRemoveTemp (.of_call fun _ h => by exact h) hname
    (fun message t ht => hearly _ t rfl ht) fun _ _ => ?_)
  have hlater : ∀ t, Swapped w t
      ⟨upload.parent, upload.targetAbs, upload.path, upload.expectedHash, content⟩ upload.tmpName
      upload.tmpFile → (∀ applied, Q (.ok (.applied applied)) t) ∧
        ∀ x, x.late = true → Q (.error x) t :=
    fun t ht => hreplaced t hsize hdeclared (.of_swapped (Still.refl w) hname ht)
  rw [htmp]
  exact .bind (ends_checkAndReplace
    ⟨upload.parent, upload.targetAbs, upload.path, upload.expectedHash, content⟩ hname hdata
    hconflict hearly (fun x t hx ht => (hlater t ht).2 x hx) fun t ht =>
      .bind (ends_fileMeta (fun message => (hlater t ht).2 _ rfl)
        fun stat => (hlater t ht).1 _))

end Uploads

end RemoteMirror.Agent
