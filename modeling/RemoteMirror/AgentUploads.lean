/-
**The agent's book of open uploads.**

An agent keeps a map of its open uploads, the set of the keys of their targets, and limits on both.
Four requests and the expiry of old uploads change them, and each can fail after any call
(`AgentSave`).

The map is indexed by identifiers made of the time of day and the hash of the path.  If the clock
shows the same time twice, and a directory on the path has become another one in between, a second
upload takes the place of the first one, whose keys then stay in the set for ever.

Main definitions:

* `Agent.Booked` — keys, limits and uploads are in step;
* `Agent.UploadStep`, `Agent.Uploading` — requests and expiry, one after the other;
* `Agent.newId` — no open upload has the identifier of a new one.

Main results:

* `Agent.Booked.drop`, `Agent.Booked.insert`, `Agent.Booked.accept` — the ways
  the book changes;
* `Agent.booked_of_uploading` — **the book is in step after every request**;
* `Agent.upload_overwritten` — unless an identifier is used twice.
-/

import RemoteMirror.AgentCas

namespace RemoteMirror.Agent

open Interact (Prog)
open Interact.Prog (Ends)

variable {os : Posix} {α : Type}

/-! ### The book -/

/-- The declared sizes of all open uploads. -/
def AgentState.declared (state : AgentState os) : ℕ :=
  (state.uploads.map fun entry => entry.2.size).sum

/-- Keys, limits and uploads are in step. -/
structure Booked (state : AgentState os) : Prop where
  ids : (state.uploads.map Prod.fst).Nodup
  active : ∀ key, key ∈ state.activeWriteTargets ↔ ∃ entry ∈ state.uploads, key ∈ entry.2.targetKeys
  disjoint : ∀ a ∈ state.uploads, ∀ b ∈ state.uploads, a.1 ≠ b.1 → ∀ key ∈ a.2.targetKeys,
    key ∉ b.2.targetKeys
  count : state.uploads.length ≤ maxActiveUploads
  bytes : state.declared ≤ maxActiveUploadBytes
  written : ∀ entry ∈ state.uploads, entry.2.written ≤ entry.2.size

theorem Booked.start (root : Path) : Booked (⟨root, [], []⟩ : AgentState os) := by
  refine ⟨List.nodup_nil, ?_, ?_, Nat.zero_le _, Nat.zero_le _, ?_⟩
  · simp
  · simp
  · simp

variable {state : AgentState os} {uploadId : String} {upload : PendingUpload os}

/-- With one entry for each identifier, taking one out takes out exactly that upload. -/
theorem perm_remove (hids : (state.uploads.map Prod.fst).Nodup)
    (hmem : (uploadId, upload) ∈ state.uploads) :
    state.uploads.Perm ((uploadId, upload) :: (state.remove uploadId).uploads) := by
  simp only [AgentState.remove]
  generalize state.uploads = uploads at hids hmem
  induction uploads with
  | nil => cases hmem
  | cons entry rest ih =>
    obtain ⟨hnew, hrest⟩ := List.nodup_cons.1 (List.map_cons ▸ hids)
    rcases List.mem_cons.1 hmem with rfl | hmem
    · -- the other identifiers differ, so the filter keeps the whole rest
      have hkeep : rest.filter (fun entry => entry.1 != uploadId) = rest := by
        refine List.filter_eq_self.2 fun other hother => ?_
        simp only [bne_iff_ne]
        intro heq
        exact hnew (List.mem_map.2 ⟨other, hother, heq⟩)
      rw [List.filter_cons_of_neg (by simp), hkeep]
    · have hne : entry.1 ≠ uploadId := by
        intro heq
        exact hnew (List.mem_map.2 ⟨_, hmem, heq.symm⟩)
      rw [List.filter_cons_of_pos (by simpa using hne)]
      exact ((ih hrest hmem).cons entry).trans (List.Perm.swap _ _ _)

theorem Booked.of_perm (h : Booked state) {uploads : List (String × PendingUpload os)}
    (hperm : state.uploads.Perm uploads) : Booked { state with uploads := uploads } where
  ids := (hperm.map Prod.fst).nodup_iff.1 h.ids
  active key := (h.active key).trans (by simp only [hperm.mem_iff])
  disjoint a ha b hb := h.disjoint a (hperm.mem_iff.2 ha) b (hperm.mem_iff.2 hb)
  count := hperm.length_eq ▸ h.count
  bytes := by simpa only [AgentState.declared, (hperm.map _).sum_eq] using h.bytes
  written entry hentry := h.written entry (hperm.mem_iff.2 hentry)

/-- An open upload may stand first. -/
theorem Booked.first (h : Booked state) (hmem : (uploadId, upload) ∈ state.uploads) :
    Booked { state with uploads := (uploadId, upload) :: (state.remove uploadId).uploads } :=
  h.of_perm (perm_remove h.ids hmem)

/-- **An upload is closed**: its entry and its keys go together. -/
theorem Booked.drop (h : Booked state) (hmem : (uploadId, upload) ∈ state.uploads) :
    Booked ((state.remove uploadId).release upload.targetKeys) := by
  have hfirst := h.first hmem
  refine ⟨(List.nodup_cons.1 hfirst.ids).2, fun key => ?_, fun a ha b hb =>
    hfirst.disjoint a (.tail _ ha) b (.tail _ hb),
    Nat.le_of_succ_le hfirst.count, Nat.le_trans (Nat.le_add_left _ _) hfirst.bytes,
    fun entry hentry => hfirst.written entry (.tail _ hentry)⟩
  have hactive := hfirst.active key
  simp only [List.mem_cons, exists_eq_or_imp] at hactive
  simp only [AgentState.release, List.mem_filter, Bool.not_eq_true', List.contains_eq_mem,
    decide_eq_false_iff_not]
  constructor
  · rintro ⟨hkey, hfree⟩
    exact (hactive.1 hkey).resolve_left hfree
  · rintro ⟨entry, hentry, hkey⟩
    exact ⟨hactive.2 (.inr ⟨entry, hentry, hkey⟩), hfirst.disjoint entry (.tail _ hentry) _
      List.mem_cons_self
      (mem_remove.1 hentry).2 key hkey⟩

/-- **An upload is opened** under an identifier and keys that nobody has. -/
theorem Booked.insert (h : Booked state) (hid : uploadId ∉ state.uploads.map Prod.fst)
    (hkeys : ∀ key ∈ upload.targetKeys, key ∉ state.activeWriteTargets)
    (hcount : state.uploads.length < maxActiveUploads)
    (hbytes : state.declared + upload.size ≤ maxActiveUploadBytes)
    (hwritten : upload.written ≤ upload.size) : Booked (AgentState.insert uploadId upload
      { state with activeWriteTargets := upload.targetKeys ++ state.activeWriteTargets }) := by
  have hsame : state.uploads.filter (fun entry => entry.1 != uploadId) = state.uploads := by
    refine List.filter_eq_self.2 fun entry hentry => ?_
    simp only [bne_iff_ne]
    rintro rfl
    exact hid (List.mem_map_of_mem hentry)
  have hfresh : ∀ entry ∈ state.uploads, ∀ key ∈ upload.targetKeys, key ∉ entry.2.targetKeys :=
    fun entry hentry key hkey hother => hkeys key hkey ((h.active key).2 ⟨entry, hentry, hother⟩)
  simp only [AgentState.insert, AgentState.remove, hsame]
  refine ⟨?_, fun key => ?_, ?_, ?_, ?_, ?_⟩
  · rw [List.map_cons]
    exact List.nodup_cons.2 ⟨hid, h.ids⟩
  · rw [List.mem_append, h.active]
    simp
  · intro a ha b hb hne key hkey
    rcases List.mem_cons.1 ha with rfl | ha
    · rcases List.mem_cons.1 hb with rfl | hb
      · exact absurd rfl hne
      · exact hfresh b hb key hkey
    · rcases List.mem_cons.1 hb with rfl | hb
      · exact fun hother => hfresh a ha key hother hkey
      · exact h.disjoint a ha b hb hne key hkey
  · rw [List.length_cons]
    omega
  · simp only [AgentState.declared, List.map_cons, List.sum_cons] at hbytes ⊢
    omega
  · exact List.forall_mem_cons.2 ⟨hwritten, h.written⟩

/-- **A chunk is accepted**: nothing but the count of bytes changes. -/
theorem Booked.accept (h : Booked state) (hmem : (uploadId, upload) ∈ state.uploads) {next : ℕ}
    (hnext : next ≤ upload.size) :
    Booked (state.insert uploadId { upload with written := next }) := by
  have hfirst := h.first hmem
  refine ⟨hfirst.ids, fun key => ?_, ?_, hfirst.count, hfirst.bytes, ?_⟩
  · have hactive := hfirst.active key
    simpa only [AgentState.insert, List.mem_cons, exists_eq_or_imp] using hactive
  · have hdisjoint := hfirst.disjoint
    simpa only [AgentState.insert, List.forall_mem_cons] using hdisjoint
  · exact List.forall_mem_cons.2 ⟨hnext, (List.forall_mem_cons.1 hfirst.written).2⟩

/-! ### Programs that leave the book alone -/

/-- The calls that do not change the agent's own state. -/
def Sys.KeepsState : Sys os → Prop
  | .setState _ => False
  | _ => True

/-- The calls that change no name on the disk either. -/
def Sys.KeepsEntries : Sys os → Prop
  | .setState _ | .createTempFile _ _ | .removeTempFile _ _ | .renameat _ _ _ => False
  | _ => True

theorem Sys.KeepsEntries.keepsState {e : Sys os} (h : e.KeepsEntries) : e.KeepsState := by
  cases e with
  | setState f => exact h
  | _ => trivial

variable {t : World os} {c : Choice}

theorem clock_eq_some {w : World os} {n : ℕ} (h : clock w c = some (n, t)) :
    c = .value n ∧ t = w := by
  cases c with
  | value m =>
    cases h
    exact ⟨rfl, rfl⟩
  | _ => cases h

variable {parent : os.Dir} {name : Name}

theorem removeAt_eq_some {w : World os} {r : Removed} (h : removeAt w c parent name = some (r, t)) :
    ((∃ message, c = .fail message) ∧ t = w) ∨ (w.disk.entry parent name = none ∧ t = w) ∨
      t = { w with disk := w.disk.unlink parent name } := by
  unfold removeAt at h
  split at h
  · cases h
    exact .inl ⟨⟨_, rfl⟩, rfl⟩
  · split at h
    · cases h
      exact .inr (.inr rfl)
    · rename_i hnone
      cases h
      exact .inr (.inl ⟨hnone, rfl⟩)

/-- What a call leaves alone: the state unless it sets it, the directory unless it is one that
changes entries, and the numbers of files unless it makes a file. -/
theorem answer_frame {e : Sys os} {w : World os} {r : SysAns e} (h : answer e c w = some (r, t)) :
    (e.KeepsState → t.state = w.state) ∧ (e.KeepsEntries → t.disk.entry = w.disk.entry) ∧
      ((∀ parent name, e ≠ .createTempFile parent name) → t.disk.next = w.disk.next) := by
  cases e with
  | setState f =>
    cases h
    exact ⟨fun he => absurd he id, fun he => absurd he id, fun _ => rfl⟩
  | createTempFile parent name =>
    refine ⟨fun _ => ?_, fun he => absurd he id, fun he => absurd rfl (he parent name)⟩
    obtain ⟨message, -, rfl⟩ | ⟨-, rfl⟩ := createAt_eq_some h
    · rfl
    · rfl
  | removeTempFile parent name =>
    refine ⟨fun _ => ?_, fun he => absurd he id, fun _ => ?_⟩ <;>
      obtain ⟨-, rfl⟩ | ⟨-, rfl⟩ | rfl := removeAt_eq_some h <;> rfl
  | renameat parent tmpName targetName =>
    refine ⟨fun _ => ?_, fun he => absurd he id, fun _ => ?_⟩ <;>
      obtain ⟨message, -, rfl⟩ | ⟨-, -, rfl⟩ := renameAt_eq_some h <;> rfl
  | state =>
    cases h
    exact ⟨fun _ => rfl, fun _ => rfl, fun _ => rfl⟩
  | systemTime | instantNow =>
    rw [(clock_eq_some h).2]
    exact ⟨fun _ => rfl, fun _ => rfl, fun _ => rfl⟩
  | prepareWriteTarget path =>
    obtain ⟨message, -, rfl⟩ | ⟨target, tree, -, -, rfl⟩ := prepareAt_eq_some h <;>
      exact ⟨fun _ => rfl, fun _ => rfl, fun _ => rfl⟩
  | writeAll inode offset content =>
    obtain ⟨message, -, rfl⟩ | ⟨message, written, -, rfl⟩ | ⟨-, rfl⟩ := writeAt_eq_some h <;>
      exact ⟨fun _ => rfl, fun _ => rfl, fun _ => rfl⟩
  | fileMeta path =>
    rw [metaAt_eq_some h]
    exact ⟨fun _ => rfl, fun _ => rfl, fun _ => rfl⟩
  | _ =>
    rw [(look_eq_some h).1]
    exact ⟨fun _ => rfl, fun _ => rfl, fun _ => rfl⟩

/-- A program that never sets the state leaves it as it is. -/
theorem ends_kept {p : AgentM os α} (hp : p.Calls Sys.KeepsState) {w : World os}
    {Q : After os α} (h : ∀ r t, t.state = w.state → Q r t) : p.Ends answer Q w := by
  refine Ends.mono (hp.ends (L := fun s t => t.state = s.state) (fun _ => rfl) ?_ ?_) h
  · intro s t u hst htu
    exact htu.trans hst
  · intro e he c s r t ht
    exact (answer_frame ht).1 he

variable {error : String → AgentError}

theorem calls_attemptCall {K : Sys os → Prop} {p : AgentM os (Except String α)} (hp : p.Calls K) :
    (attemptCall error p).Calls K := by
  refine .bind hp fun result => ?_
  cases result with
  | ok a | error message => trivial

theorem calls_removeTempFile (parent : os.Dir) (name : Name) :
    (removeTempFile parent name).Calls Sys.KeepsState :=
  .bind (.ask trivial) fun _ => trivial

theorem calls_orRemoveTemp {p : AgentM os (Except String α)} (hp : p.Calls Sys.KeepsState) :
    (orRemoveTemp parent name error p).Calls Sys.KeepsState := by
  refine .bind hp fun result => ?_
  cases result with
  | ok a => trivial
  | error message => exact .bind (calls_removeTempFile parent name) fun _ => trivial

theorem calls_saveConflict (path : String) (expectedHash actualHash : Option String) :
    (saveConflict path expectedHash actualHash : AgentM os SaveConflict).Calls
      Sys.KeepsEntries := by
  refine .bind (.bind (.ask trivial) fun opened => ?_) fun _ => trivial
  match opened with
  | .error _ => trivial
  | .ok (inode, remoteSize) => exact .bind (.ask trivial) fun _ => trivial

theorem calls_renameTempIntoPath (parent : os.Dir) (tmpPath : Path) (tmpName : Name)
    (targetAbs : Path) :
    (renameTempIntoPath parent tmpPath tmpName targetAbs).Calls Sys.KeepsState := by
  refine .bind (.ask trivial) fun renamed => ?_
  match renamed with
  | .ok () => trivial
  | .error _ =>
    refine .bind (.ask trivial) fun cleanup => ?_
    cases cleanup with
    | failed message => trivial
    | removed => trivial
    | notFound => trivial

theorem calls_checkAndReplace (path : String) (targetAbs : Path) (expectedHash : Option String)
    (parent : os.Dir) (tmpPath : Path) (tmpName : Name) (tmpFile : ℕ) :
    (checkAndReplace path targetAbs expectedHash parent tmpPath tmpName tmpFile).Calls
      Sys.KeepsState := by
  refine .bind (calls_orRemoveTemp (.ask trivial)) fun _ => ?_
  refine .bind (calls_attemptCall (.ask trivial)) fun actualHash => ?_
  refine .ite (fun _ => ?_) fun _ => ?_
  · exact .bind (calls_removeTempFile parent tmpName) fun _ =>
      .bind ((calls_saveConflict _ _ _).mono fun _ => Sys.KeepsEntries.keepsState) fun _ => trivial
  · refine .bind (calls_orRemoveTemp (.ask trivial)) fun _ => ?_
    refine .bind (calls_orRemoveTemp (.ask trivial)) fun _ => ?_
    refine .bind (calls_renameTempIntoPath _ _ _ _) fun _ => ?_
    exact .bind (calls_attemptCall (.ask trivial)) fun _ => trivial

theorem calls_finishUpload (uploadId : String) (upload : PendingUpload os) :
    (finishUpload uploadId upload).Calls Sys.KeepsState := by
  refine .ite (fun _ => ?_) fun _ => ?_
  · exact .bind (calls_removeTempFile _ _) fun _ => trivial
  refine .bind (calls_orRemoveTemp (.ask trivial)) fun _ => ?_
  refine .bind (calls_orRemoveTemp (.ask trivial)) fun _ => ?_
  refine .ite (fun _ => ?_) fun _ => ?_
  · exact .bind (calls_removeTempFile _ _) fun _ => trivial
  refine .bind (calls_orRemoveTemp (.ask trivial)) fun _ => ?_
  refine .bind (calls_checkAndReplace _ _ _ _ _ _ _) fun conflict => ?_
  cases conflict with
  | some conflict => trivial
  | none => exact .bind (calls_attemptCall (.ask trivial)) fun _ => trivial

theorem calls_claimTarget (path : String) :
    (claimTarget path : AgentM os (WriteTarget × List String)).Calls Sys.KeepsEntries := by
  refine .bind (calls_attemptCall (.ask trivial)) fun target => ?_
  refine .bind (.ask trivial) fun state => ?_
  refine .bind (.bind (.ask trivial) fun now => ?_) fun _ => ?_
  · exact .ite (fun _ => trivial) fun _ => trivial
  · exact .bind (calls_attemptCall (.ask trivial)) fun _ => trivial

theorem calls_enforceUploadLimits (newSize : ℕ) :
    (enforceUploadLimits newSize : AgentM os Unit).Calls Sys.KeepsEntries := by
  refine .bind (.ask trivial) fun state => ?_
  refine .ite (fun _ => trivial) fun _ => ?_
  exact .ite (fun _ => trivial) fun _ => trivial

/-- A save in one request does not touch the book. -/
theorem calls_writeFileCasState (path : String) (expectedHash : Option String)
    (content : List UInt8) :
    (writeFileCasState path expectedHash content : AgentM os SaveResponse).Calls
      Sys.KeepsState := by
  refine .bind ((calls_claimTarget path).mono fun _ => Sys.KeepsEntries.keepsState) fun claimed =>
    .bind ?_ fun _ => trivial
  refine .bind (calls_attemptCall (.ask trivial)) fun parent => ?_
  refine .bind (calls_attemptCall (.ask trivial)) fun actualHash => ?_
  refine .ite (fun _ => ?_) fun _ => ?_
  · exact .bind ((calls_saveConflict _ _ _).mono fun _ => Sys.KeepsEntries.keepsState) fun _ =>
      trivial
  refine .bind (.ask trivial) fun nanos => ?_
  refine .bind (calls_attemptCall (.ask trivial)) fun _ => ?_
  refine .bind (calls_attemptCall (.ask trivial)) fun tmpFile => ?_
  refine .bind (calls_orRemoveTemp (.ask trivial)) fun _ => ?_
  refine .bind (calls_orRemoveTemp (.ask trivial)) fun _ => ?_
  refine .bind (calls_orRemoveTemp (.ask trivial)) fun _ => ?_
  refine .bind (calls_checkAndReplace _ _ _ _ _ _ _) fun conflict => ?_
  cases conflict with
  | some conflict => trivial
  | none =>
    refine .bind (calls_attemptCall (.ask trivial)) fun newHash => ?_
    exact .bind (calls_attemptCall (.ask trivial)) fun stat => trivial

/-! ### Requests keep the book -/

variable {w : World os}

/-- One upload is closed. -/
theorem ends_dropUpload_state {Q : After os Unit}
    (h : ∀ t, t.state = (w.state.remove uploadId).release upload.targetKeys → Q (.ok ()) t) :
    (dropUpload uploadId upload).Ends answer Q w := by
  refine .bind (ends_setState (.bind ?_))
  intro c r t ht
  have hstate : t.state = w.state.remove uploadId :=
    (answer_frame (e := .removeTempFile _ _) ht).1 trivial
  exact ends_setState (h _ (by rw [hstate]))

/-- Old uploads are closed one after the other; each is still open when it is its turn. -/
theorem ends_dropUploads_booked {entries : List (String × PendingUpload os)}
    (hnodup : (entries.map Prod.fst).Nodup)
    (hopen : ∀ entry ∈ entries, entry ∈ w.state.uploads) (h : Booked w.state)
    {Q : After os Unit} (hQ : ∀ t, Booked t.state → Q (.ok ()) t) :
    (dropUploads entries).Ends answer Q w := by
  induction entries generalizing w with
  | nil => exact hQ w h
  | cons entry rest ih =>
    obtain ⟨uploadId, upload⟩ := entry
    obtain ⟨hnew, hrest⟩ := List.nodup_cons.1 (List.map_cons ▸ hnodup)
    have hmem := hopen _ List.mem_cons_self
    refine .bind (ends_dropUpload_state fun t ht => ih hrest (fun other hother => ?_) ?_)
    · rw [ht]
      refine mem_remove.2 ⟨hopen other (List.mem_cons_of_mem _ hother), fun heq => hnew ?_⟩
      exact List.mem_map.2 ⟨other, hother, heq⟩
    · rw [ht]
      exact h.drop hmem

theorem ends_cleanup_booked (h : Booked w.state) {Q : After os Unit}
    (hQ : ∀ t, Booked t.state → Q (.ok ()) t) : cleanupExpiredUploads.Ends answer Q w := by
  refine .bind (ends_clock (.inr rfl) fun now => ?_)
  refine .bind (ends_agentState ?_)
  refine ends_dropUploads_booked ?_ (fun entry hentry => List.mem_of_mem_filter hentry) h hQ
  exact h.ids.sublist ((List.filter_sublist).map Prod.fst)

/-- The saturating sum is the sum, as far as it is below the greatest number. -/
theorem foldl_saturating (uploads : List (String × PendingUpload os)) {start : ℕ}
    (hstart : start ≤ u64Max) :
    uploads.foldl (fun sum entry => min (sum + entry.2.size) u64Max) start =
      min (start + (uploads.map fun entry => entry.2.size).sum) u64Max := by
  induction uploads generalizing start with
  | nil => simp [Nat.min_eq_left hstart]
  | cons entry rest ih =>
    rw [List.foldl_cons, ih (Nat.min_le_right _ _), List.map_cons, List.sum_cons]
    omega

theorem ends_limits {size : ℕ} {Q : After os Unit} (herr : ∀ x, Q (.error x) w)
    (hok : w.state.uploads.length < maxActiveUploads → w.state.declared + size ≤
      maxActiveUploadBytes → Q (.ok ()) w) :
    (enforceUploadLimits size).Ends answer Q w := by
  refine .bind (ends_agentState ?_)
  refine .ite (fun _ => herr _) fun hcount => ?_
  refine .ite (fun _ => herr _) fun hbytes => hok (Nat.lt_of_not_le hcount) ?_
  rw [foldl_saturating _ (Nat.zero_le _), Nat.zero_add] at hbytes
  have hmax : maxActiveUploadBytes < u64Max := by decide
  simp only [AgentState.declared]
  omega

variable {path : String}

/-- A target is only claimed if no open upload has one of its keys. -/
theorem ends_claimTarget_free {Q : After os (WriteTarget × List String)}
    (herr : ∀ x t, t.state = w.state → Q (.error x) t)
    (hok : ∀ target keys t, t.state = w.state → (∀ key ∈ keys, key ∉ w.state.activeWriteTargets) →
      Q (.ok (target, keys)) t) : (claimTarget path).Ends answer Q w := by
  refine .bind (ends_kept (calls_attemptCall (.ask trivial)) fun r t ht => ?_)
  cases r with
  | error x => exact herr x t ht
  | ok target =>
    refine .bind (ends_agentState (.bind (.bind (ends_agentState ?_))))
    refine .ite (fun _ => herr _ t ht) fun hfree => ?_
    refine .bind (ends_kept (calls_attemptCall (.ask trivial)) fun r u hu => ?_)
    cases r with
    | error x => exact herr x u (hu.trans ht)
    | ok _ =>
      refine hok target _ u (hu.trans ht) fun key hkey hactive => hfree ?_
      rw [List.any_eq_true]
      exact ⟨key, hkey, by rw [ht]; simpa using hactive⟩

/-- When a request to begin an upload reads the clock, no open upload has the identifier that comes
of it. -/
def newId (request : SaveRequest) (e : Sys os) (c : Choice) (w : World os) : Bool :=
  match request, e, c with
  | .beginWriteFileCas path _ _ _, .systemTime, .value nanos =>
    !(w.state.uploads.map Prod.fst).contains (toString nanos ++ "-" ++
      os.hashBytes (textBytes path))
  | _, _, _ => true

/-- A part of a request that leaves the book alone, and ends the request if it fails. -/
theorem ends_bind_kept {β : Type} {ok : Sys os → Choice → World os → Bool} {p : AgentM os α}
    {f : α → AgentM os β} (hp : p.Calls Sys.KeepsState) (h : Booked w.state)
    (hf : ∀ a t, t.state = w.state → (f a).Ends (Prog.onlyIf answer ok) (fun _ u =>
      Booked u.state) t) :
    (p >>= f).Ends (Prog.onlyIf answer ok) (fun _ u => Booked u.state) w := by
  refine .bind (ends_kept hp fun r t ht => ?_).onlyIf
  cases r with
  | ok a => exact hf a t ht
  | error x => simpa only [ht] using h

theorem ends_begin_booked (h : Booked w.state) {expectedHash : Option String} {contentHash : String}
    {size : ℕ} : (beginWriteFileCas path expectedHash contentHash size).Ends
      (Prog.onlyIf answer (newId (.beginWriteFileCas path expectedHash contentHash size)))
      (fun _ t => Booked t.state) w := by
  refine .bind (ends_cleanup_booked h fun w₁ h₁ => ?_).onlyIf
  refine .bind (ends_limits (fun _ => h₁) fun hcount hbytes => ?_).onlyIf
  refine .bind (ends_claimTarget_free (fun x t ht => ?_) fun target keys w₂ ht₂ hkeys => ?_).onlyIf
  · simpa only [ht] using h₁
  have h₂ : Booked w₂.state := by rwa [ht₂]
  rw [← ht₂] at hcount hbytes hkeys
  refine ends_bind_kept (calls_attemptCall (.ask trivial)) h₂ fun parent w₃ ht₃ => ?_
  refine ends_bind_kept (calls_attemptCall (.ask trivial)) (by rwa [ht₃]) fun actualHash w₄ ht₄ =>
    ?_
  have h₄ : Booked w₄.state := by rwa [ht₄, ht₃]
  rw [← ht₃, ← ht₄] at hcount hbytes hkeys
  refine .ite (fun _ => ?_) fun _ => ?_
  · refine ends_bind_kept ((calls_saveConflict _ _ _).mono fun _ => Sys.KeepsEntries.keepsState) h₄
      fun conflict t ht => ?_
    rw [← ht] at h₄
    exact h₄
  -- the clock decides on the identifier
  refine .bind ?_
  intro c (nanos : ℕ) t ht
  obtain ⟨hnew, hclock⟩ := Prog.onlyIf_eq_some.1 ht
  obtain ⟨rfl, rfl⟩ := clock_eq_some hclock
  have hid : toString nanos ++ "-" ++ os.hashBytes (textBytes path) ∉
      t.state.uploads.map Prod.fst := by
    simpa only [newId, Bool.not_eq_true', List.contains_eq_mem, decide_eq_false_iff_not] using hnew
  refine ends_bind_kept (calls_attemptCall (.ask trivial)) h₄ fun _ w₅ ht₅ => ?_
  refine ends_bind_kept (calls_attemptCall (.ask trivial)) (by rwa [ht₅]) fun tmpFile w₆ ht₆ => ?_
  rw [← ht₅, ← ht₆] at hcount hbytes hkeys hid h₄
  refine .bind (ends_setState ?_).onlyIf
  refine .bind (ends_clock (.inr rfl) fun createdAt => ?_).onlyIf
  refine .bind (ends_setState ?_).onlyIf
  exact h₄.insert hid hkeys hcount hbytes (Nat.zero_le _)

theorem ends_chunk_booked (h : Booked w.state) {offset : ℕ} {content : List UInt8} :
    (writeFileChunk uploadId offset content).Ends answer (fun _ t => Booked t.state) w := by
  refine .bind (ends_cleanup_booked h fun w₁ h₁ => ?_)
  refine .bind (ends_lookupUpload (fun _ => h₁) fun upload hget => ?_)
  refine .ite (fun _ => h₁) fun _ => ?_
  refine .ite (fun _ => h₁) fun hnext => ?_
  refine .bind (ends_kept (calls_attemptCall (.ask trivial)) fun r t ht => ?_)
  cases r with
  | error x => simpa only [ht] using h₁
  | ok _ =>
    refine .bind (ends_setState ?_)
    rw [ht]
    exact h₁.accept (mem_of_get? hget) (Nat.le_of_not_lt hnext)

theorem ends_finish_booked (h : Booked w.state) :
    (finishWriteFileCas uploadId).Ends answer (fun _ t => Booked t.state) w := by
  refine .bind (ends_cleanup_booked h fun w₁ h₁ => ?_)
  refine .bind (ends_lookupUpload (fun _ => h₁) fun upload hget => ?_)
  refine .bind (ends_setState ?_)
  refine .bind (.attempt (ends_kept (calls_finishUpload _ _) fun r t ht => ?_))
  refine .bind (ends_setState ?_)
  have hclosed : Booked (t.state.release upload.targetKeys) := by
    rw [ht]
    exact h₁.drop (mem_of_get? hget)
  cases r with
  | ok outcome | error x => exact hclosed

theorem ends_abort_booked (h : Booked w.state) :
    (abortWriteFileCas uploadId).Ends answer (fun _ t => Booked t.state) w := by
  refine .bind (ends_cleanup_booked h fun w₁ h₁ => ?_)
  refine .bind (ends_agentState ?_)
  cases hget : w₁.state.get? uploadId with
  | none =>
    simp only [hget]
    exact h₁
  | some upload =>
    simp only [hget]
    refine .bind (ends_dropUpload_state fun t ht => ?_)
    have hclosed := h₁.drop (mem_of_get? hget)
    rwa [← ht] at hclosed

/-- **Every request keeps the book**, however it ends. -/
theorem ends_handleRequest_booked (h : Booked w.state) (request : SaveRequest) :
    (handleRequest request).Ends (Prog.onlyIf answer (newId request))
    (fun _ t => Booked t.state) w := by
  cases request with
  | writeFileCas path expectedHash content =>
    exact (ends_kept (calls_writeFileCasState path expectedHash content) fun r t
      ht => by rwa [ht]).onlyIf
  | beginWriteFileCas path expectedHash contentHash size => exact ends_begin_booked h
  | writeFileChunk uploadId offset content => exact (ends_chunk_booked h).onlyIf
  | finishWriteFileCas uploadId => exact (ends_finish_booked h).onlyIf
  | abortWriteFileCas uploadId => exact (ends_abort_booked h).onlyIf

/-! ### Runs -/

/-- A request is served to its end, uploads expire, or somebody else changes the disk.  Only calls
that are `ok` happen. -/
inductive UploadStep (ok : SaveRequest → Sys os → Choice → World os → Bool) :
    World os → World os → Prop
  | request {w w' : World os} {request : SaveRequest} {choices : List Choice}
    {result : Except AgentError SaveResponse}
      (h : (handleRequest request).exec (Prog.onlyIf answer (ok request)) choices w =
      some (result, w')) :
      UploadStep ok w w'
  | expire {w w' : World os} {choices : List Choice} {result : Except AgentError Unit}
      (h : cleanupExpiredUploads.exec answer choices w = some (result, w')) : UploadStep ok w w'
  | thirdParty {w : World os} (disk : Disk os) : UploadStep ok w { w with disk := disk }

/-- The worlds an agent can come to. -/
def Uploading (ok : SaveRequest → Sys os → Choice → World os → Bool) (root : Path)
    (disk : Disk os) : World os → Prop :=
  Relation.ReflTransGen (UploadStep ok) (World.start root disk)

theorem UploadStep.booked {w' : World os} (h : Booked w.state) (hstep : UploadStep newId w w') :
    Booked w'.state := by
  cases hstep with
  | request hexec => exact (ends_handleRequest_booked h _).exec hexec
  | expire hexec =>
    exact (ends_cleanup_booked (Q := fun _ t => Booked t.state) h fun t ht => ht).exec hexec
  | thirdParty disk => exact h

/-- **The book is in step after every request** of a run in which no identifier is given twice. -/
theorem booked_of_uploading (root : Path) (disk : Disk os) (w : World os)
    (h : Uploading newId root disk w) : Booked w.state := by
  induction h with
  | refl => exact Booked.start root
  | tail _ hstep ih => exact hstep.booked ih

/-- What is left open while an upload is begun at the time 7. -/
def beginChoices : List Choice :=
  [.value 0, .ok, .ok, .ok, .ok, .ok, .ok, .ok, .ok, .value 7, .ok, .ok, .ok, .value 1, .ok]

open Plain in
/-- An upload is begun, and the book is in step. -/
theorem booked_of_uploading_one :
    ∃ w, Uploading newId root disk w ∧ w.state.uploads.length = 1 ∧ Booked w.state := by
  have hrun : ((handleRequest (.beginWriteFileCas "f" none "" 2)).exec (Prog.onlyIf answer
      (newId (.beginWriteFileCas "f" none "" 2))) beginChoices (World.start root disk)).map
        (fun done => done.2.state.uploads.length) = some 1 := by
    decide +kernel
  obtain ⟨⟨result, w⟩, hexec, hcount⟩ := Option.map_eq_some_iff.1 hrun
  have hreached : Uploading newId root disk w := .single (.request hexec)
  exact ⟨w, hreached, hcount, booked_of_uploading root disk w hreached⟩

namespace Relinked

def root : Path := [textBytes "w"]

/-- A workspace in which `d` is a symbolic link to `a`, and later to `b`. -/
def unix : Posix where
  Fs := Bool
  pathExists _ _ := true
  symlinkMetadata _ _ := .notFound
  canonicalize later path := .ok (if path = root ++ [textBytes "d"] then
    root ++ [textBytes (if later then "b" else "a")] else path)
  createDirAll later _ := .ok later
  Dir := Path
  directory path := path
  hashBytes bytes :=
    if bytes = textBytes "/w:/w/a/f" then
        "4f40f8e91bd88d69e474698355617f340edbb5df14bd43f5f515a8b233b52df5"
    else if bytes = textBytes "/w:/w/b/f" then
        "8635f1698852b9cb15085ed9c65892e88a1b1972bc57624c76b34cd7f160b958"
    else if bytes = textBytes "d/f" then
        "388909eb068268252f6862704f8e4916210a5fdfbaf5acc58cd26f00dcb7b005"
    else ""
  isDir _ _ := .ok true
  openDir _ path := .ok path
  lstatDir _ path := if path = root ++ [textBytes "d"] then none else some path
  hasSubdir _ _ _ := false
  openDir_of_lstatDir := by
    intro fs path dir h
    split at h
    · cases h
    · cases h
      rfl

/-- No files yet. -/
def disk : Disk unix where
  tree := false
  entry _ _ := none
  data _ := []
  next := 0
  entry_lt := by
    intro _ _ _ h
    cases h

end Relinked

open Relinked in
/-- **An upload is overwritten**: `d/f` is begun twice at the same time of day, and `d` has become
another directory in between.  The second upload has the identifier of the first one; the key of the
first target stays. -/
theorem upload_overwritten : ∃ w, Uploading (fun _ _ _ _ => true) root disk w ∧
    ¬ Booked w.state := by
  have hrun : (((handleRequest (.beginWriteFileCas "d/f" none "" 2)).exec
    (Prog.onlyIf answer fun _ _ _ => true)
      beginChoices (World.start root disk)).bind fun first =>
        ((handleRequest (.beginWriteFileCas "d/f" none "" 2)).exec
          (Prog.onlyIf answer fun _ _ _ => true)
          beginChoices { first.2 with disk := first.2.disk.setTree true }).map fun second =>
            (second.2.state.activeWriteTargets, second.2.state.uploads.map fun entry =>
              entry.2.targetKeys)) =
      some (["8635f1698852b9cb15085ed9c65892e88a1b1972bc57624c76b34cd7f160b958",
        "4f40f8e91bd88d69e474698355617f340edbb5df14bd43f5f515a8b233b52df5"],
        [["8635f1698852b9cb15085ed9c65892e88a1b1972bc57624c76b34cd7f160b958"]]) := by
    decide +kernel
  obtain ⟨⟨result₁, w₁⟩, hfirst, hrest⟩ := Option.bind_eq_some_iff.1 hrun
  obtain ⟨⟨result₂, w₂⟩, hsecond, heq⟩ := Option.map_eq_some_iff.1 hrest
  obtain ⟨hactive, hkeys⟩ := Prod.mk.inj heq
  simp only at hactive hkeys
  refine ⟨w₂, ((Relation.ReflTransGen.single (.request hfirst)).tail (.thirdParty _)).tail
    (.request hsecond), ?_⟩
  intro hbooked
  have hleft := (hbooked.active
    "4f40f8e91bd88d69e474698355617f340edbb5df14bd43f5f515a8b233b52df5").1 (by simp [hactive])
  obtain ⟨entry, hentry, hkey⟩ := hleft
  have hmem : entry.2.targetKeys ∈ w₂.state.uploads.map fun entry => entry.2.targetKeys :=
    List.mem_map_of_mem hentry
  rw [hkeys, List.mem_singleton] at hmem
  simp [hmem] at hkey

end RemoteMirror.Agent
