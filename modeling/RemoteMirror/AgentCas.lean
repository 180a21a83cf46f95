/-
**Runs of an agent that serves saves.**

Requests are served one after the other; between them anybody may change the files of the workspace.
What the requests have declared and the agent has accepted for an upload is read off the requests
and answers of the run (`Record.after`).  The invariant ties each pending upload to this record: its
staging file starts with the accepted chunks and is no longer than declared.

Main definitions:

* `Agent.Record`, `Agent.Step`, `Agent.Reached` — runs;
* `Agent.Inv` — the invariant of the pending uploads;
* `Agent.Settled` — compare and swap, for one request.

Main results:

* `Agent.ends_handleRequest` — every request keeps the invariant and is settled;
* `Agent.settled_of_reached` — **every request of every run compares and swaps**.
-/

import RemoteMirror.AgentSaveSpec

namespace RemoteMirror.Agent

open Checks
open FileStore (overwrite take_overwrite)

variable {os : Posix}

/-! ### What requests and answers say about uploads -/

/-- An upload as its requests have declared it, with the chunks accepted so far. -/
structure Declared where
  path : String
  expectedHash : Option String
  contentHash : String
  size : ℕ
  chunks : List (List UInt8)
  deriving DecidableEq, Repr

/-- The chunks in order. -/
def Declared.content (declared : Declared) : List UInt8 := declared.chunks.flatten

/-- What is known about uploads by their identifiers. -/
abbrev Record : Type := String → Option Declared

def Record.empty : Record := fun _ => none

/-- The record after a request was answered. -/
def Record.after (known : Record) (request : SaveRequest)
    (result : Except AgentError SaveResponse) : Record :=
  match request, result with
  | .beginWriteFileCas path expectedHash contentHash size,
      .ok (.beginWriteFileCas (.started uploadId)) =>
      Function.update known uploadId (some ⟨path, expectedHash, contentHash, size, []⟩)
  | .writeFileChunk uploadId _ content, .ok (.writeFileChunk _ _) =>
    Function.update known uploadId ((known uploadId).map fun declared =>
      { declared with chunks := declared.chunks ++ [content] })
  | _, _ => known

/-! ### The invariant of pending uploads -/

/-- The staging file of an upload holds what was accepted, and only staging names lead to it. -/
structure Staged (disk : Disk os) (upload : PendingUpload os) (declared : Declared) : Prop where
  name : Staging upload.tmpName
  tmpPath : upload.tmpPath = upload.targetAbs.dropLast ++ [upload.tmpName]
  tmpFile_lt : upload.tmpFile < disk.next
  links : ∀ dir name, disk.entry dir name = some (.file upload.tmpFile) → Staging name
  path : upload.path = declared.path
  expectedHash : upload.expectedHash = declared.expectedHash
  contentHash : upload.contentHash = declared.contentHash
  size : upload.size = declared.size
  limit : upload.size ≤ maxActiveUploadBytes
  written : upload.written = declared.content.length
  written_le : upload.written ≤ upload.size
  head : (disk.data upload.tmpFile).take upload.written = declared.content
  length_le : (disk.data upload.tmpFile).length ≤ upload.size

/-- Every pending upload is staged, and no two of them share a staging file. -/
structure Inv (known : Record) (w : World os) : Prop where
  staged : ∀ uploadId upload, (uploadId, upload) ∈ w.state.uploads →
    ∃ declared, known uploadId = some declared ∧ Staged w.disk upload declared
  distinct : ∀ e₁ ∈ w.state.uploads, ∀ e₂ ∈ w.state.uploads, e₁.2.tmpFile = e₂.2.tmpFile → e₁ = e₂

section Invariant

variable {known : Record} {w w' : World os} {upload : PendingUpload os} {declared : Declared}

theorem Inv.names (hi : Inv known w) : ∀ entry ∈ w.state.uploads, Staging entry.2.tmpName := by
  intro entry hentry
  obtain ⟨_, _, hstaged⟩ := hi.staged entry.1 entry.2 hentry
  exact hstaged.name

theorem Staged.quiet (h : Staged w.disk upload declared) (hq : Quiet w w') :
    Staged w'.disk upload declared :=
  { h with
    tmpFile_lt := Nat.lt_of_lt_of_le h.tmpFile_lt hq.next
    links := by
      intro dir name hentry
      by_contra hname
      rw [hq.entry dir name hname] at hentry
      exact hname (h.links dir name hentry)
    head := by rw [hq.data _ h.tmpFile_lt]; exact h.head
    length_le := by rw [hq.data _ h.tmpFile_lt]; exact h.length_le }

theorem Inv.quiet (hi : Inv known w) (hq : Quiet w w') : Inv known w' where
  staged uploadId upload hmem := by
    obtain ⟨declared, hknown, hstaged⟩ := hi.staged uploadId upload (hq.uploads hmem)
    exact ⟨declared, hknown, hstaged.quiet hq⟩
  distinct e₁ h₁ e₂ h₂ := hi.distinct e₁ (hq.uploads h₁) e₂ (hq.uploads h₂)

/-- The file that now lies at the target is no longer anybody's staging file. -/
theorem Inv.replaced {save : Replacement os} {inode : ℕ} (hi : Inv known w)
    (hr : Replaced w w' save inode)
    (hfree : ∀ entry ∈ w'.state.uploads, entry.2.tmpFile ≠ inode) : Inv known w' where
  staged uploadId upload hmem := by
    obtain ⟨declared, hknown, hstaged⟩ := hi.staged uploadId upload (hr.uploads hmem)
    have hdata := hr.data _ hstaged.tmpFile_lt
    refine ⟨declared, hknown, { hstaged with
      tmpFile_lt := Nat.lt_of_lt_of_le hstaged.tmpFile_lt hr.next
      links := ?_
      head := by rw [hdata]; exact hstaged.head
      length_le := by rw [hdata]; exact hstaged.length_le }⟩
    intro dir name hentry
    by_contra hname
    by_cases hplace : dir = save.dir ∧ name = save.name
    · obtain ⟨rfl, rfl⟩ := hplace
      rw [hr.entry_self] at hentry
      cases hentry
      exact hfree _ hmem rfl
    · rw [hr.entry dir name hname hplace] at hentry
      exact hname (hstaged.links dir name hentry)
  distinct e₁ h₁ e₂ h₂ := hi.distinct e₁ (hr.uploads h₁) e₂ (hr.uploads h₂)

variable {state : AgentState os} {uploadId : String}

theorem mem_of_get? (h : state.get? uploadId = some upload) :
    (uploadId, upload) ∈ state.uploads := by
  obtain ⟨before, after, heq, -⟩ := List.lookup_eq_some_iff.1 h
  rw [heq]
  exact List.mem_append_right _ List.mem_cons_self

theorem mem_remove {entry : String × PendingUpload os} :
    entry ∈ (state.remove uploadId).uploads ↔ entry ∈ state.uploads ∧ entry.1 ≠ uploadId := by
  simp [AgentState.remove]

variable {disk : Disk os}

/-- An upload is added or changed; the others stay as they are. -/
theorem Inv.insert (hothers : ∀ id other, (id, other) ∈ state.uploads → id ≠ uploadId →
      ∃ declared, known id = some declared ∧ Staged disk other declared)
    (hdistinct : ∀ e₁ ∈ state.uploads, ∀ e₂ ∈ state.uploads, e₁.2.tmpFile = e₂.2.tmpFile → e₁ = e₂)
    (hself : Staged disk upload declared)
    (hfree : ∀ entry ∈ state.uploads, entry.1 ≠ uploadId → entry.2.tmpFile ≠ upload.tmpFile) :
    Inv (Function.update known uploadId (some declared)) ⟨state.insert uploadId upload, disk⟩ := by
  have hmem : ∀ entry, entry ∈ (state.insert uploadId upload).uploads ↔
      entry = (uploadId, upload) ∨ entry ∈ state.uploads ∧ entry.1 ≠ uploadId := by
    intro entry
    rw [← mem_remove]
    exact List.mem_cons
  constructor
  · intro id other hother
    obtain heq | ⟨hother, hne⟩ := (hmem _).1 hother
    · cases heq
      exact ⟨declared, Function.update_self .., hself⟩
    · obtain ⟨d, hknown, hstaged⟩ := hothers id other hother hne
      exact ⟨d, by rw [Function.update_of_ne hne]; exact hknown, hstaged⟩
  · intro e₁ h₁ e₂ h₂ heq
    obtain rfl | ⟨h₁, hne₁⟩ := (hmem e₁).1 h₁
    · obtain rfl | ⟨h₂, hne₂⟩ := (hmem e₂).1 h₂
      · rfl
      · exact absurd heq.symm (hfree e₂ h₂ hne₂)
    · obtain rfl | ⟨h₂, hne₂⟩ := (hmem e₂).1 h₂
      · exact absurd heq (hfree e₁ h₁ hne₁)
      · exact hdistinct e₁ h₁ e₂ h₂ heq

/-! ### Writing chunks -/

/-- Bytes after the accepted ones do not matter, as long as they fit. -/
theorem Staged.refuse (h : Staged disk upload declared) {part : List UInt8}
    (hpart : upload.written + part.length ≤ upload.size) : Staged (disk.setData upload.tmpFile
      (overwrite (disk.data upload.tmpFile) upload.written part)) upload declared := by
  have hwritten : upload.written ≤ (disk.data upload.tmpFile).length := by
    have := congrArg List.length h.head
    rw [List.length_take, ← h.written] at this
    omega
  obtain ⟨htake, -, hlength⟩ := take_overwrite hwritten part
  have hmax := h.length_le
  exact { h with
    head := by simpa [Disk.setData, htake] using h.head
    length_le := by simp only [Disk.setData, Function.update_self, hlength]; omega }

/-- An accepted chunk. -/
theorem Staged.accept (h : Staged disk upload declared) {content : List UInt8}
    (hcontent : upload.written + content.length ≤ upload.size) :
    Staged (disk.setData upload.tmpFile
      (overwrite (disk.data upload.tmpFile) upload.written content))
      { upload with written := upload.written + content.length }
      { declared with chunks := declared.chunks ++ [content] } := by
  have hwritten : upload.written ≤ (disk.data upload.tmpFile).length := by
    have := congrArg List.length h.head
    rw [List.length_take, ← h.written] at this
    omega
  obtain ⟨-, htake, hlength⟩ := take_overwrite hwritten content
  have hmax := h.length_le
  have hflat : Declared.content { declared with chunks := declared.chunks ++ [content] } =
      declared.content ++ content := by
    simp [Declared.content]
  exact { h with
    written := by rw [hflat, List.length_append, ← h.written]
    written_le := hcontent
    head := by simp only [Disk.setData, Function.update_self, htake, h.head, hflat]
    length_le := by simp only [Disk.setData, Function.update_self, hlength]; omega }

theorem Staged.setData_ne (h : Staged disk upload declared) {inode : ℕ}
    (hne : upload.tmpFile ≠ inode)
    (bytes : List UInt8) : Staged (disk.setData inode bytes) upload declared :=
  { h with
    head := by simpa [Disk.setData, hne] using h.head
    length_le := by simpa [Disk.setData, hne] using h.length_le }

variable {dir : os.Dir}

/-- A new upload: its staging file is empty and nobody else's. -/
theorem Staged.fresh (declared : Declared) {tmpName : Name} {targetAbs : Path} {keys : List String}
    {createdAt : ℕ} (hdeclared : declared.chunks = []) (hname : Staging tmpName)
    (hlimit : declared.size ≤ maxActiveUploadBytes) :
    Staged (disk.create dir tmpName)
      ⟨declared.path, targetAbs, keys, declared.expectedHash, declared.contentHash, declared.size,
        targetAbs.dropLast ++ [tmpName], tmpName, disk.next, dir, 0, createdAt⟩ declared where
  name := hname
  tmpPath := rfl
  tmpFile_lt := Nat.lt_succ_self _
  links := by
    intro d n hentry
    simp only [Disk.create] at hentry
    split at hentry
    case isTrue heq => exact heq.2 ▸ hname
    case isFalse => exact absurd (disk.entry_lt hentry) (Nat.lt_irrefl _)
  path := rfl
  expectedHash := rfl
  contentHash := rfl
  size := rfl
  limit := hlimit
  written := by simp [Declared.content, hdeclared]
  written_le := Nat.zero_le _
  head := by simp [Declared.content, hdeclared]
  length_le := by simp [Disk.create]

/-- A staging file is not what a reader finds under an ordinary name. -/
theorem Staged.view_setData (h : Staged disk upload declared) (bytes : List UInt8) {name : Name}
    (hname : ¬ Staging name) : (disk.setData upload.tmpFile bytes).view dir name =
      disk.view dir name := by
  unfold Disk.view
  simp only [Disk.setData]
  cases hentry : disk.entry dir name with
  | none => rfl
  | some node =>
    cases node with
    | file inode =>
      have hne : inode ≠ upload.tmpFile := by
        rintro rfl
        exact hname (h.links dir name hentry)
      simp [hne]
    | symlink => rfl
    | special => rfl

end Invariant

/-! ### Compare and swap -/

/-- The answer says that the save was applied. -/
def SaveResponse.applied : SaveResponse → Bool
  | .writeFileCas (.applied _) => true
  | .finishWriteFileCas (.applied _) => true
  | _ => false

/-- The request was applied, or it failed only after the rename. -/
def replaces : Except AgentError SaveResponse → Bool
  | .ok response => response.applied
  | .error x => x.late

/-- The replacement a request is about.  A save in one request brings its content; finishing an
upload brings the accepted chunks in order, whose hash and length are the declared ones. -/
inductive Saves (w : World os) (known : Record) : SaveRequest → Replacement os → Prop
  | whole {path : String} {expectedHash : Option String} {content : List UInt8}
      {target : WriteTarget} {tree : os.Fs} {dir : os.Dir}
      (htarget : prepareWriteTarget os.toUnix w.disk.tree w.state.root path = .ok (target, tree))
      (hdir : os.lstatDir tree target.parentAbs = some dir) :
      Saves w known (.writeFileCas path expectedHash content)
        ⟨dir, target.abs, path, expectedHash, content⟩
  | upload {uploadId : String} {upload : PendingUpload os} {declared : Declared}
      (hupload : (uploadId, upload) ∈ w.state.uploads) (hknown : known uploadId = some declared)
      (hhash : os.hashBytes declared.content = declared.contentHash)
      (hsize : declared.content.length = declared.size) :
      Saves w known (.finishWriteFileCas uploadId)
        ⟨upload.parent, upload.targetAbs, declared.path, declared.expectedHash, declared.content⟩

/-- **Compare and swap, for one request.**  Staging files apart, a request that is not applied
leaves everything as it is, unless it fails after the rename.  Otherwise it replaces exactly the
file it is about, and the hash of the replaced file is the expected one; for an upload, as long as
its path leads to the directory of the target. -/
structure Settled (w : World os) (known : Record) (request : SaveRequest)
    (result : Except AgentError SaveResponse) (w' : World os) : Prop where
  kept : replaces result = false →
    ∀ dir name, ¬ Staging name → w'.disk.view dir name = w.disk.view dir name
  replaced : replaces result = true →
    ∃ save, Saves w known request save ∧
      w'.disk.file save.dir save.name = some save.content ∧
      (∀ dir name, ¬ Staging name → ¬ (dir = save.dir ∧ name = save.name) →
        w'.disk.view dir name = w.disk.view dir name) ∧
      (¬ Staging save.name →
        (∀ uploadId, request = .finishWriteFileCas uploadId →
          LeadsTo w.disk.tree w.state.root save.path save.targetAbs) →
        (w.disk.file save.dir save.name).map os.hashBytes = save.expectedHash)

section Settle

variable {known : Record} {w w' : World os} {request : SaveRequest}
  {result : Except AgentError SaveResponse}
  {save : Replacement os} {inode : ℕ}

theorem Replaced.file_self (h : Replaced w w' save inode) :
    w'.disk.file save.dir save.name = some save.content := by
  simp [Disk.file, h.entry_self, h.data_self]

theorem Replaced.view_other (h : Replaced w w' save inode) {dir : os.Dir} {name : Name}
    (hname : ¬ Staging name) (hne : ¬ (dir = save.dir ∧ name = save.name)) :
    w'.disk.view dir name = w.disk.view dir name := by
  unfold Disk.view
  rw [h.entry dir name hname hne]
  cases hentry : w.disk.entry dir name with
  | none => rfl
  | some node =>
    cases node with
    | file inode => simp [h.data inode (w.disk.entry_lt hentry)]
    | symlink => rfl
    | special => rfl

variable {path : String} {tree : os.Fs}

/-- The path of a request leads to its target once the directories are there. -/
theorem leadsTo_of_prepareWriteTarget {tree' : os.Fs} {root : Path} {target : WriteTarget}
    (h : prepareWriteTarget os.toUnix tree root path = .ok (target, tree')) :
    LeadsTo tree' root path target.abs := by
  simp only [prepareWriteTarget, bind_eq_ok, okOr_eq_ok, mapError_eq_ok, pure_eq_ok,
    Except.ok.injEq] at h
  obtain ⟨relative, hrelative, name, hlast, _, -, _, -, _, -, parent, hparent, _, -, heq⟩ := h
  cases heq
  obtain ⟨hdrop, hname⟩ := dropLast_append_name parent name
  refine ⟨relative, hrelative, ?_, ?_⟩
  · rw [hdrop]
    exact hparent
  · rw [hname, fileName, hlast, Option.getD_some]

/-! ### Every request -/

/-- A file that did not exist before, or the staging file of an upload. -/
abbrev NewOrStaged (w : World os) (inode : ℕ) : Prop :=
  w.disk.next ≤ inode ∨ ∃ entry ∈ w.state.uploads, entry.2.tmpFile = inode

/-- The target's name now stands for a file that the request has created, or for the staging file of
an upload. -/
def Installs (w : World os) (known : Record) (request : SaveRequest) (w' : World os) : Prop :=
  ∃ save inode, Saves w known request save ∧ w'.disk.entry save.dir save.name = some (.file inode) ∧
    NewOrStaged w inode

/-- What is known of a request when it has been answered. -/
structure Handled (w : World os) (known : Record) (request : SaveRequest)
    (result : Except AgentError SaveResponse) (w' : World os) : Prop where
  inv : Inv (known.after request result) w'
  settled : Settled w known request result w'
  installs : replaces result = true → Installs w known request w'
  staged : ∀ entry ∈ w'.state.uploads, NewOrStaged w entry.2.tmpFile

theorem NewOrStaged.of_subset (h : w'.state.uploads ⊆ w.state.uploads) :
    ∀ entry ∈ w'.state.uploads, NewOrStaged w entry.2.tmpFile :=
  fun entry hentry => .inr ⟨entry, h hentry, rfl⟩

theorem NewOrStaged.insert {state : AgentState os} {uploadId : String} {upload : PendingUpload os}
    (h : state.uploads ⊆ w.state.uploads) (hupload : NewOrStaged w upload.tmpFile) :
    ∀ entry ∈ (state.insert uploadId upload).uploads, NewOrStaged w entry.2.tmpFile := by
  refine List.forall_mem_cons.2 ⟨hupload, fun entry hentry => ?_⟩
  exact .inr ⟨entry, h (List.mem_of_mem_filter hentry), rfl⟩

theorem Handled.of_view (hi : Inv (known.after request result) w')
    (hresult : replaces result = false)
    (hstaged : ∀ entry ∈ w'.state.uploads, NewOrStaged w entry.2.tmpFile)
    (hview : ∀ dir name, ¬ Staging name → w'.disk.view dir name = w.disk.view dir name) :
    Handled w known request result w' where
  inv := hi
  settled := ⟨fun _ => hview, fun h => by simp [hresult] at h⟩
  installs h := by simp [hresult] at h
  staged := hstaged

theorem Handled.of_quiet (hi : Inv (known.after request result) w)
    (hresult : replaces result = false) (hq : Quiet w w') : Handled w known request result w' :=
  .of_view (hi.quiet hq) hresult (.of_subset hq.uploads) fun _ _ hname => (hq.seen hname).1

theorem Handled.of_replaced (hi : Inv (known.after request result) w')
    (hresult : replaces result = true) (hsave : Saves w known request save)
    (hr : Replaced { w with disk := w.disk.setTree tree } w' save inode)
    (hinode : NewOrStaged w inode)
    (hleads : (∃ uploadId, request = .finishWriteFileCas uploadId ∧ tree = w.disk.tree) ∨
      LeadsTo tree w.state.root save.path save.targetAbs) : Handled w known request result w' where
  inv := hi
  settled := by
    refine ⟨fun h => by simp [hresult] at h, fun _ => ⟨save, hsave, hr.file_self,
      fun d n hn hne => hr.view_other hn hne, fun hname hupload => hr.compared hname ?_⟩⟩
    rcases hleads with ⟨uploadId, hrequest, rfl⟩ | hleads
    · exact hupload uploadId hrequest
    · exact hleads
  installs _ := ⟨save, inode, hsave, hr.entry_self, hinode⟩
  staged := .of_subset hr.uploads

variable {expectedHash : Option String} {content : List UInt8}

theorem ends_writeFileCasState (hi : Inv known w) :
    (writeFileCasState path expectedHash content).Ends answer
      (Handled w known (.writeFileCas path expectedHash content)) w := by
  refine .bind (ends_claimTarget (fun x t hx hq => .of_quiet hi hx hq) fun target keys tree
    htarget => ?_)
  have hquiet := Quiet.setTree w tree
  have hleads := leadsTo_of_prepareWriteTarget htarget
  refine .bind (ends_writeFileCasPrepared (fun conflict t ht =>
    .of_quiet hi rfl (hquiet.trans ht.toQuiet))
    (fun x t hx ht => .of_quiet hi hx (hquiet.trans ht.toQuiet)) fun dir inode t hdir hinode hr =>
    ?_)
  have hfree : ∀ entry ∈ t.state.uploads, entry.2.tmpFile ≠ inode := by
    intro entry hentry heq
    obtain ⟨_, _, hstaged⟩ := hi.staged entry.1 entry.2 (hr.uploads hentry)
    have := hstaged.tmpFile_lt
    exact absurd hinode (by rw [← heq]; exact Nat.not_le.2 this)
  have hinv : Inv known t := (hi.quiet hquiet).replaced hr hfree
  exact ⟨fun applied => .of_replaced hinv rfl (.whole htarget hdir) hr (.inl hinode) (.inr hleads),
    fun x hx => .of_replaced hinv hx (.whole htarget hdir) hr (.inl hinode) (.inr hleads)⟩

variable {uploadId : String}

theorem ends_finishWriteFileCas (hi : Inv known w) :
    (finishWriteFileCas uploadId).Ends answer (Handled w known (.finishWriteFileCas uploadId))
      w := by
  refine .bind (ends_cleanupExpiredUploads hi.names fun w₁ h₁ => ?_)
  have hi₁ := hi.quiet h₁.toQuiet
  refine .bind (ends_lookupUpload (fun message => .of_quiet hi rfl h₁.toQuiet) fun upload hget =>
    ?_)
  have hmem := mem_of_get? hget
  obtain ⟨declared, hknown, hstaged⟩ := hi₁.staged uploadId upload hmem
  refine .bind (ends_setState ?_)
  have h₂ := h₁.remove uploadId
  have hcontent : upload.written = upload.size →
      w₁.disk.data upload.tmpFile = declared.content := by
    intro hsize
    rw [← hstaged.head, List.take_of_length_le]
    rw [hsize]
    exact hstaged.length_le
  refine .bind (.attempt (ends_finishUpload
    (w := { w₁ with state := w₁.state.remove uploadId }) hstaged.name hstaged.tmpPath hcontent
    (fun conflict t ht => ?_) (fun x t hx ht => ?_) fun t hsize hhash hr => ?_))
  · exact .bind (ends_setState (.of_quiet hi rfl ((h₂.trans ht).release upload.targetKeys).toQuiet))
  · exact .bind (ends_setState (.of_quiet hi hx ((h₂.trans ht).release upload.targetKeys).toQuiet))
  · have hr' := (hr.of_still h₂).release upload.targetKeys
    have hfree : ∀ entry ∈ t.state.uploads, entry.2.tmpFile ≠ upload.tmpFile := by
      intro entry hentry heq
      obtain ⟨hentry₁, hne⟩ := mem_remove.1 (hr.uploads hentry)
      have := hi₁.distinct entry hentry₁ (uploadId, upload) hmem heq
      exact hne (by rw [this])
    have hinv := hi.replaced hr' hfree
    rw [hstaged.path, hstaged.expectedHash] at hr'
    have hlength : declared.content.length = declared.size := by
      rw [← hstaged.written, hsize, hstaged.size]
    have hsave := Saves.upload (h₁.uploads hmem) hknown (hhash.trans hstaged.contentHash) hlength
    have hinode : NewOrStaged w upload.tmpFile := .inr ⟨_, h₁.uploads hmem, rfl⟩
    refine ⟨fun applied => ?_, fun x hx => ?_⟩
    · exact .bind (ends_setState (.of_replaced hinv rfl hsave hr' hinode (.inl ⟨_, rfl, rfl⟩)))
    · exact .bind (ends_setState (.of_replaced hinv hx hsave hr' hinode (.inl ⟨_, rfl, rfl⟩)))

theorem ends_beginWriteFileCas (hi : Inv known w) {contentHash : String} {size : ℕ} :
    (beginWriteFileCas path expectedHash contentHash size).Ends answer
      (Handled w known (.beginWriteFileCas path expectedHash contentHash size)) w := by
  refine .bind (ends_cleanupExpiredUploads hi.names fun w₁ h₁ => ?_)
  refine .bind (ends_enforceUploadLimits (fun message => .of_quiet hi rfl h₁.toQuiet) fun hlimit =>
    ?_)
  refine .bind (ends_claimTarget
    (fun x t hx hq => .of_quiet hi hx (h₁.toQuiet.trans hq)) fun target keys tree _ => ?_)
  have hq := h₁.toQuiet.trans (Quiet.setTree w₁ tree)
  refine .bind (Looks.attemptCall (.of_call fun _ h => by exact h)
    (fun message => .of_quiet hi rfl hq) fun dir _ => ?_)
  refine .bind (Looks.attemptCall (.of_call fun _ h => by exact h)
    (fun message => .of_quiet hi rfl hq) fun actualHash _ => ?_)
  refine .ite (fun _ => ?_) fun _ => ?_
  · exact .bind (ends_saveConflict fun conflict => .of_quiet hi rfl hq)
  refine .bind (ends_clock (.inl rfl) fun nanos => ?_)
  refine .bind (Looks.attemptCall (.of_call fun _ h => by exact h)
    (fun message => .of_quiet hi rfl hq) fun _ _ => ?_)
  refine .bind (ends_createTempFile (fun message => .of_quiet hi rfl hq) ?_)
  refine .bind (ends_setState ?_)
  refine .bind (ends_clock (.inr rfl) fun createdAt => ?_)
  refine .bind (ends_setState ?_)
  -- the staging file exists, and the upload is entered
  have hname := staging_uploadTempName target.abs
    (toString nanos ++ "-" ++ os.hashBytes (textBytes path))
  have hcreated := (Still.refl { w₁ with disk := w₁.disk.setTree tree }).create dir hname
  have hi₁ := hi.quiet hq
  refine .of_view ?_ rfl (.insert hq.uploads (.inl hq.next)) fun d n hn =>
    (hcreated.seen hn).1.trans (hq.seen hn).1
  refine Inv.insert (fun id other hother _ => (hi₁.quiet hcreated.toQuiet).staged id other hother)
    hi₁.distinct (Staged.fresh ⟨path, expectedHash, contentHash, size, []⟩ rfl hname hlimit) ?_
  intro entry hentry _ heq
  obtain ⟨_, _, hstaged⟩ := hi₁.staged entry.1 entry.2 hentry
  exact absurd hstaged.tmpFile_lt (by rw [heq]; exact Nat.lt_irrefl _)

theorem ends_writeFileChunk (hi : Inv known w) {offset : ℕ} :
    (writeFileChunk uploadId offset content).Ends answer
      (Handled w known (.writeFileChunk uploadId offset content)) w := by
  refine .bind (ends_cleanupExpiredUploads hi.names fun w₁ h₁ => ?_)
  have hi₁ := hi.quiet h₁.toQuiet
  have hearly : ∀ x, x.late = false →
      Handled w known (.writeFileChunk uploadId offset content) (.error x) w₁ :=
    fun x hx => .of_quiet hi hx h₁.toQuiet
  refine .bind (ends_lookupUpload (fun message => hearly _ rfl) fun upload hget => ?_)
  have hmem := mem_of_get? hget
  obtain ⟨declared, hknown, hstaged⟩ := hi₁.staged uploadId upload hmem
  refine .ite (fun _ => hearly _ rfl) fun hoffset => ?_
  obtain rfl : offset = upload.written := Decidable.not_not.1 hoffset
  refine .ite (fun _ => hearly _ rfl) fun hnext => ?_
  -- sizes are far from where sums saturate
  have hmax : maxActiveUploadBytes < u64Max := by decide
  have hlimit := hstaged.limit
  have hfits : upload.written + content.length ≤ upload.size := by omega
  have hsum : min (upload.written + content.length) u64Max = upload.written + content.length := by
    omega
  have hview : ∀ bytes dir name, ¬ Staging name →
      (w₁.disk.setData upload.tmpFile bytes).view dir name = w.disk.view dir name :=
    fun bytes dir name hname => (hstaged.view_setData bytes hname).trans (h₁.seen hname).1
  have hothers : ∀ bytes id other, (id, other) ∈ w₁.state.uploads →
      (id, other) ≠ (uploadId, upload) → ∃ d, known id = some d ∧
        Staged (w₁.disk.setData upload.tmpFile bytes) other d := by
    intro bytes id other hother hne
    obtain ⟨d, hd, hother'⟩ := hi₁.staged id other hother
    exact ⟨d, hd, hother'.setData_ne (fun heq => hne (hi₁.distinct _ hother _ hmem heq)) bytes⟩
  refine .bind (ends_attemptCall ?_)
  intro c r t ht
  obtain ⟨message, rfl, rfl⟩ | ⟨message, written, rfl, rfl⟩ | ⟨rfl, rfl⟩ := writeAt_eq_some ht
  · exact hearly _ rfl
  · -- a part of the chunk may be there now, after the bytes that count
    refine .of_view ⟨fun id other hother => ?_, hi₁.distinct⟩ rfl (.of_subset h₁.uploads) (hview _)
    by_cases hself : (id, other) = (uploadId, upload)
    · cases hself
      refine ⟨declared, hknown, hstaged.refuse ?_⟩
      have := List.length_take_le' written content
      omega
    · exact hothers _ id other hother hself
  · have hold : NewOrStaged w upload.tmpFile := .inr ⟨_, h₁.uploads hmem, rfl⟩
    refine .bind (ends_setState (.of_view ?_ rfl (.insert h₁.uploads hold) (hview _)))
    simp only [Record.after, hknown, Option.map_some]
    rw [hsum]
    refine Inv.insert (fun id other hother hne => hothers _ id other hother ?_) hi₁.distinct
      (hstaged.accept hfits) ?_
    · exact fun heq => hne (congrArg Prod.fst heq)
    · intro entry hentry hne heq
      exact hne (congrArg Prod.fst (hi₁.distinct entry hentry _ hmem heq))

theorem ends_abortWriteFileCas (hi : Inv known w) :
    (abortWriteFileCas uploadId).Ends answer (Handled w known (.abortWriteFileCas uploadId)) w := by
  refine .bind (ends_cleanupExpiredUploads hi.names fun w₁ h₁ => ?_)
  have hi₁ := hi.quiet h₁.toQuiet
  refine .bind (ends_agentState ?_)
  cases hget : w₁.state.get? uploadId with
  | none =>
    simp only [hget]
    exact .of_quiet hi rfl h₁.toQuiet
  | some upload =>
    simp only [hget]
    refine .bind (ends_dropUpload (hi₁.names _ (mem_of_get? hget)) fun t ht => ?_)
    exact .of_quiet hi rfl (h₁.trans ht).toQuiet

/-- **Every request** keeps the invariant and is settled. -/
theorem ends_handleRequest (hi : Inv known w) (request : SaveRequest) :
    (handleRequest request).Ends answer (Handled w known request) w := by
  cases request with
  | writeFileCas path expectedHash content => exact ends_writeFileCasState hi
  | beginWriteFileCas path expectedHash contentHash size => exact ends_beginWriteFileCas hi
  | writeFileChunk uploadId offset content => exact ends_writeFileChunk hi
  | finishWriteFileCas uploadId => exact ends_finishWriteFileCas hi
  | abortWriteFileCas uploadId => exact ends_abortWriteFileCas hi

end Settle

/-! ### Runs -/

/-- Others may do anything to the disk, but they neither write to the staging files of pending
uploads nor give them names that are not those of staging files. -/
structure LeavesStaging (w : World os) (disk : Disk os) : Prop where
  next : w.disk.next ≤ disk.next
  data : ∀ entry ∈ w.state.uploads, disk.data entry.2.tmpFile = w.disk.data entry.2.tmpFile
  links : ∀ entry ∈ w.state.uploads, ∀ dir name,
    disk.entry dir name = some (.file entry.2.tmpFile) → Staging name

/-- A request is served to its end, or somebody else changes the disk. -/
inductive Step : World os × Record → World os × Record → Prop
  | request {w w' : World os} {known : Record} {request : SaveRequest} {choices : List Choice}
      {result : Except AgentError SaveResponse}
      (h : (handleRequest request).exec answer choices w = some (result, w')) :
      Step (w, known) (w', known.after request result)
  | thirdParty {w : World os} {known : Record} {disk : Disk os} (h : LeavesStaging w disk) :
      Step (w, known) ({ w with disk := disk }, known)

/-- The agent starts without uploads on any disk. -/
def World.start (root : Path) (disk : Disk os) : World os := ⟨⟨root, [], []⟩, disk⟩

/-- The worlds an agent can come to, with the record of the run. -/
def Reached (root : Path) (disk : Disk os) : World os × Record → Prop :=
  Relation.ReflTransGen Step (World.start root disk, Record.empty)

variable {s t : World os × Record}

theorem Step.inv (hi : Inv s.2 s.1) (h : Step s t) : Inv t.2 t.1 := by
  cases h with
  | request hexec => exact ((ends_handleRequest hi _).exec hexec).inv
  | thirdParty hleaves =>
    refine ⟨fun uploadId upload hmem => ?_, hi.distinct⟩
    obtain ⟨declared, hknown, hstaged⟩ := hi.staged uploadId upload hmem
    have hdata := hleaves.data _ hmem
    exact ⟨declared, hknown, { hstaged with
      tmpFile_lt := Nat.lt_of_lt_of_le hstaged.tmpFile_lt hleaves.next
      links := hleaves.links _ hmem
      head := by rw [hdata]; exact hstaged.head
      length_le := by rw [hdata]; exact hstaged.length_le }⟩

theorem Reached.inv {root : Path} {disk : Disk os} (h : Reached root disk s) : Inv s.2 s.1 := by
  induction h with
  | refl => exact ⟨fun _ _ hmem => absurd hmem (List.not_mem_nil),
      fun _ hmem => absurd hmem (List.not_mem_nil)⟩
  | tail _ hstep ih => exact hstep.inv ih

/-- **Every request of every run compares and swaps.** -/
theorem settled_of_reached {root : Path} {disk : Disk os} {w w' : World os} {known : Record}
    (hreached : Reached root disk (w, known)) {request : SaveRequest} {choices : List Choice}
    {result : Except AgentError SaveResponse}
    (hexec : (handleRequest request).exec answer choices w = some (result, w')) :
    Settled w known request result w' :=
  ((ends_handleRequest hreached.inv request).exec hexec).settled

/-! ### A workspace with one directory -/

/-- Requests served one after the other, with what the calls leave open. -/
def serve (s : World os × Record) :
    List (SaveRequest × List Choice) → Option (World os × Record)
  | [] => some s
  | (request, choices) :: rest =>
    ((handleRequest request).exec answer choices s.1).bind fun done =>
      serve (done.2, s.2.after request done.1) rest

theorem serve_reaches {script : List (SaveRequest × List Choice)} (h : serve s script = some t) :
    Relation.ReflTransGen Step s t := by
  induction script generalizing s with
  | nil =>
    cases h
    exact .refl
  | cons first rest ih =>
    obtain ⟨⟨result, w'⟩, hexec, hrest⟩ := Option.bind_eq_some_iff.1 h
    exact .head (.request hexec) (ih hrest)

namespace Plain

/-- The root of the workspace. -/
def root : Path := [textBytes "w"]

/-- Only the directories above and of the workspace exist; there are no symbolic links. -/
def unix : Posix where
  Fs := Unit
  pathExists _ path := path = [] ∨ path = root
  symlinkMetadata _ _ := .notFound
  canonicalize _ path := .ok path
  createDirAll _ _ := .ok ()
  Dir := Path
  directory path := path
  hashBytes bytes :=
    if bytes = textBytes "/w:/w/f" then
      "29cb16717278961802125b9fbde4325c0cf79b6697d3752d34b830d68fda9034"
    else if bytes = textBytes "f" then
      "9ab388bedc43eaf44150107d17ad090f6b1c34610f5740778ddb95d9f06576ee"
    else if bytes = textBytes "hi" then
      "85052e9aab1b67b6622d94a08441b09fd5b7aca61ee360416d70de5da67d86ca"
    else ""
  isDir _ path := .ok (path = [] ∨ path = root)
  openDir _ path := .ok path
  lstatDir _ path := some path
  hasSubdir _ _ _ := false
  openDir_of_lstatDir := by
    intro _ path dir h
    cases h
    rfl

/-- An empty workspace. -/
def disk : Disk unix where
  tree := ()
  entry _ _ := none
  data _ := []
  next := 0
  entry_lt := by
    intro _ _ _ h
    cases h

def uploadId : String := "7-9ab388bedc43eaf44150107d17ad090f6b1c34610f5740778ddb95d9f06576ee"

/-- An upload of `f` that is begun and sent in one chunk. -/
def script : List (SaveRequest × List Choice) :=
  [(.beginWriteFileCas "f" none "85052e9aab1b67b6622d94a08441b09fd5b7aca61ee360416d70de5da67d86ca"
    2,
      [.value 0, .ok, .ok, .ok, .ok, .ok, .ok, .ok, .ok, .value 7, .ok, .ok, .ok, .value 1, .ok]),
    (.writeFileChunk uploadId 0 (textBytes "hi"), [.value 2, .ok, .ok, .ok, .ok])]

/-- What is left open while the upload is finished. -/
def finishChoices : List Choice :=
  [.value 3, .ok, .ok, .ok, .ok, .ok, .ok, .ok, .ok, .ok, .ok, .ok, .ok, .mtime 0, .ok]

/-- A save of `f` in one request; the directory cannot be synced after the rename. -/
def failedSync : List Choice :=
  [.ok, .ok, .ok, .ok, .ok, .ok, .value 7, .ok, .ok, .ok, .ok, .ok, .ok, .ok, .ok, .ok, .ok,
    .fail "Input/output error"]

end Plain

open Plain in
/-- An upload that is begun, sent and finished is applied, and settled as every request is. -/
theorem settled_of_reached_upload :
    ∃ w known result w', Reached root disk (w, known) ∧
      (handleRequest (.finishWriteFileCas uploadId)).exec answer finishChoices w =
        some (result, w') ∧
      replaces result = true ∧ w'.disk.file root (textBytes "f") = some (textBytes "hi") ∧
      Settled w known (.finishWriteFileCas uploadId) result w' := by
  have hrun : ((serve (World.start root disk, Record.empty) script).bind fun s =>
      ((handleRequest (.finishWriteFileCas uploadId)).exec answer finishChoices s.1).map fun done =>
        (replaces done.1, done.2.disk.file root (textBytes "f"))) =
      some (true, some (textBytes "hi")) := by
    decide +kernel
  obtain ⟨⟨w, known⟩, hserve, hfinish⟩ := Option.bind_eq_some_iff.1 hrun
  obtain ⟨⟨result, w'⟩, hexec, heq⟩ := Option.map_eq_some_iff.1 hfinish
  obtain ⟨hreplaces, hfile⟩ := Prod.mk.inj heq
  have hreached : Reached root disk (w, known) := serve_reaches hserve
  exact ⟨w, known, result, w', hreached, hexec, hreplaces, hfile,
    settled_of_reached hreached hexec⟩

open Plain in
/-- **An error does not mean that nothing has changed**: the file is there, although the request
failed in syncing the directory. -/
theorem replaced_despite_error :
    ∃ x w', (handleRequest (.writeFileCas "f" none (textBytes "hi"))).exec answer failedSync
        (World.start root disk) = some (.error x, w') ∧
      (World.start root disk).disk.view root (textBytes "f") = none ∧
      w'.disk.view root (textBytes "f") = some (.regular (textBytes "hi")) := by
  have hrun : ((handleRequest (.writeFileCas "f" none (textBytes "hi"))).exec answer failedSync
      (World.start root disk)).map (fun done =>
        (done.1.isOk, done.2.disk.view root (textBytes "f"))) =
      some (false, some (.regular (textBytes "hi"))) := by
    decide +kernel
  obtain ⟨⟨result, w'⟩, hexec, heq⟩ := Option.map_eq_some_iff.1 hrun
  obtain ⟨hfailed, hview⟩ := Prod.mk.inj heq
  cases result with
  | ok response => cases hfailed
  | error x => exact ⟨x, w', hexec, rfl, hview⟩

end RemoteMirror.Agent
