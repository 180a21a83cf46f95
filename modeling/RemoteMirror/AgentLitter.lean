/-
**Staging files that are left over.**

Both kinds of saves create a staging file next to their target, and remove it wherever they give up
— except in one place: the hash of the target is read once more before the rename, and if that fails
the request ends at once (`current_regular_file_hash(..)?` in `write_file_cas_prepared` and
`finish_write_file_cas`).

The staging files that agents create follow the calls of `AgentSave`.

Main definitions:

* `Agent.StagingFile`, `Agent.stages` — the files that were staged and not yet renamed;
* `Agent.Neat` — those that are still on the disk belong to open uploads;
* `Agent.tidy` — files are removed if they are there, and the last reading of a target succeeds;
* `Agent.LitterStep`, `Agent.Littering` — runs of an agent.

Main results:

* `Agent.ends_checkAndReplace_neat` — the end of both kinds of saves;
* `Agent.neat_of_littering` — **no staging file is left over** in tidy runs;
* `Agent.unreadable_target_litters` — and one is if the target cannot be read.
-/

import RemoteMirror.AgentUploads

namespace RemoteMirror.Agent

open Interact (Prog)
open Interact.Prog (Ends)

variable {os : Posix} {α : Type}

/-! ### What is staged -/

/-- A staging file, and where it was created. -/
structure StagingFile (os : Posix) where
  dir : os.Dir
  name : Name
  inode : ℕ

/-- What a call does to the list of staged files: one is created, or becomes another file by a
rename. -/
def stages : (e : Sys os) → SysAns e → World os → List (StagingFile os) → List (StagingFile os)
  | .createTempFile parent name, .ok inode, _, files => ⟨parent, name, inode⟩ :: files
  | .renameat parent tmpName _, .ok (), w, files =>
    files.filter fun file => decide (w.disk.entry parent tmpName ≠ some (.file file.inode))
  | _, _, _, files => files

/-- The file is still where it was created. -/
def StagingFile.onDisk (file : StagingFile os) (disk : Disk os) : Bool :=
  disk.entry file.dir file.name = some (.file file.inode)

/-- The staging file of an upload. -/
def PendingUpload.staging (upload : PendingUpload os) : StagingFile os :=
  ⟨upload.parent, upload.tmpName, upload.tmpFile⟩

/-- The file belongs to an open upload. -/
def StagingFile.owned (file : StagingFile os) (state : AgentState os) : Bool :=
  state.uploads.any fun entry => decide (entry.2.parent = file.dir) &&
    decide (entry.2.tmpName = file.name) &&
    decide (entry.2.tmpFile = file.inode)

/-- All files that are still there belong to open uploads, except for `own`. -/
def Neat (own : Option (StagingFile os)) (s : World os × List (StagingFile os)) : Prop :=
  ∀ file ∈ s.2, file.onDisk s.1.disk = true → file.owned s.1.state = true ∨ own = some file

/-- Some file is still there and belongs to no open upload. -/
def loose (s : World os × List (StagingFile os)) : Bool :=
  s.2.any fun file => file.onDisk s.1.disk && !file.owned s.1.state

/-- The hash of the target can be read. -/
def readable (w : World os) (c : Choice) (path : String) (abs : Path) : Bool :=
  match c with
  | .fail _ => false
  | _ => (currentRegularFileHash w.disk w.state.root path abs).isOk

/-- Files are removed if they are there; the hash of a target is read, unless nothing is staged for
the request; and no identifier is given twice. -/
def tidy (request : SaveRequest) (e : Sys os) (c : Choice) (s : World os × List (StagingFile os)) :
    Bool :=
  newId request e c s.1 &&
    match e, c with
    | .removeTempFile _ _, .fail _ => false
    | .currentRegularFileHash path abs, c => readable s.1 c path abs || !loose s
    | _, _ => true

/-- The operating system's side of the calls, with the files that were staged. -/
def answerStages : (e : Sys os) → Choice → World os × List (StagingFile os) →
    Option (SysAns e × World os × List (StagingFile os)) :=
  Prog.follow answer stages

/-- Those calls that are tidy. -/
def answerTidy (request : SaveRequest) : (e : Sys os) → Choice → World os × List (StagingFile os) →
    Option (SysAns e × World os × List (StagingFile os)) :=
  Prog.onlyIf answerStages (tidy request)

variable {request : SaveRequest} {s t : World os × List (StagingFile os)}
  {own : Option (StagingFile os)}

/-- What is asked of the end of a request. -/
abbrev Post (os : Posix) (α : Type) := Except AgentError α → World os × List (StagingFile os) → Prop

/-- However the program ends, nothing is left over. -/
abbrev EndsNeat (request : SaveRequest) (p : AgentM os α) (s : World os × List (StagingFile os)) :
    Prop :=
  p.Ends (answerTidy request) (fun _ t => Neat none t) s

variable {e : Sys os}

theorem answerTidy_eq_some {c : Choice} {r : SysAns e} : answerTidy request e c s = some (r, t) ↔
    tidy request e c s = true ∧ answer e c s.1 = some (r, t.1) ∧ t.2 = stages e r s.1 s.2 := by
  rw [answerTidy, Prog.onlyIf_eq_some, answerStages, Prog.follow_eq_some]

theorem owned_iff {file : StagingFile os} {state : AgentState os} : file.owned state = true ↔
    ∃ entry ∈ state.uploads, entry.2.staging = file := by
  obtain ⟨dir, name, inode⟩ := file
  simp [StagingFile.owned, PendingUpload.staging, and_assoc]

theorem not_loose_iff : loose s = false ↔ Neat none s := by
  simp only [loose, List.any_eq_false, Bool.and_eq_true, Bool.not_eq_true', not_and, Neat,
    reduceCtorEq, or_false]
  refine forall_congr' fun file => forall_congr' fun _ => forall_congr' fun _ => ?_
  cases file.owned s.1.state <;> simp

/-! ### Calls that leave all names alone -/

theorem stages_of_keepsEntries (he : e.KeepsEntries) (r : SysAns e) (w : World os)
    (files : List (StagingFile os)) : stages e r w files = files := by
  cases e with
  | createTempFile parent name | renameat parent tmpName targetName => exact absurd he id
  | _ => rfl

/-- The agent's state, the names on the disk and the staged files are as they were. -/
structure Same (s t : World os × List (StagingFile os)) : Prop where
  state : t.1.state = s.1.state
  entry : t.1.disk.entry = s.1.disk.entry
  files : t.2 = s.2

theorem Neat.same (h : Neat own s) (hsame : Same s t) : Neat own t := by
  intro file hfile hdisk
  rw [hsame.state]
  refine h file (hsame.files ▸ hfile) ?_
  simpa only [StagingFile.onDisk, hsame.entry] using hdisk

variable {p : AgentM os α}

theorem ends_same (hp : p.Calls Sys.KeepsEntries) {Q : Post os α} (h : ∀ r t, Same s t → Q r t) :
    p.Ends (answerTidy request) Q s := by
  refine Ends.mono (hp.ends (L := Same) (fun _ => ⟨rfl, rfl, rfl⟩) ?_ ?_) h
  · intro s t u hst htu
    exact ⟨htu.state.trans hst.state, htu.entry.trans hst.entry, htu.files.trans hst.files⟩
  · intro e he c s r t ht
    obtain ⟨-, hanswer, hfiles⟩ := answerTidy_eq_some.1 ht
    exact ⟨(answer_frame hanswer).1 he.keepsState, (answer_frame hanswer).2.1 he,
      hfiles.trans (stages_of_keepsEntries he r s.1 s.2)⟩

/-! ### Removing, renaming, reading the target -/

section Own

variable {parent : os.Dir} {name : Name} {inode : ℕ}

/-- Where the staging file is gone, nothing is left over. -/
theorem Neat.gone (h : Neat (some ⟨parent, name, inode⟩) s) (hstate : t.1.state = s.1.state)
    (hfiles : ∀ file ∈ t.2, file ∈ s.2 ∧ (file.onDisk t.1.disk = true →
      file.onDisk s.1.disk = true ∧ ¬ (file.dir = parent ∧ file.name = name))) : Neat none t := by
  intro file hfile hdisk
  obtain ⟨hold, hkeep⟩ := hfiles file hfile
  obtain ⟨hdisk', hother⟩ := hkeep hdisk
  rw [hstate]
  rcases h file hold hdisk' with howned | hown
  · exact .inl howned
  · obtain rfl := Option.some.inj hown
    exact absurd ⟨rfl, rfl⟩ hother

theorem neat_of_remove (h : Neat (some ⟨parent, name, inode⟩) s) {c : Choice} {r : Removed}
    (hstep : answerTidy request (.removeTempFile parent name) c s = some (r, t)) :
    t.1.state = s.1.state ∧ Neat none t := by
  obtain ⟨htidy, hanswer, hfiles⟩ := answerTidy_eq_some.1 hstep
  have hstate : t.1.state = s.1.state :=
    (answer_frame (e := .removeTempFile parent name) hanswer).1 trivial
  refine ⟨hstate, h.gone hstate fun file hfile => ?_⟩
  have hsame : t.2 = s.2 := hfiles
  refine ⟨hsame ▸ hfile, fun hdisk => ?_⟩
  simp only [StagingFile.onDisk, decide_eq_true_eq] at hdisk ⊢
  rcases removeAt_eq_some hanswer with ⟨⟨message, rfl⟩, -⟩ | ⟨hnone, hworld⟩ | hworld
  · simp [tidy] at htidy
  · rw [hworld] at hdisk
    refine ⟨hdisk, ?_⟩
    rintro ⟨hdir, hname⟩
    simp [hdir, hname, hnone] at hdisk
  · rw [hworld] at hdisk
    simp only [Disk.unlink] at hdisk
    split at hdisk
    · cases hdisk
    · rename_i hother
      exact ⟨hdisk, hother⟩

theorem ends_remove_neat (h : Neat (some ⟨parent, name, inode⟩) s) {Q : Post os Unit}
    (hQ : ∀ t, t.1.state = s.1.state → Neat none t → Q (.ok ()) t) :
    (removeTempFile parent name).Ends (answerTidy request) Q s := by
  refine .bind ?_
  intro c r t ht
  obtain ⟨hstate, hneat⟩ := neat_of_remove h ht
  exact hQ t hstate hneat

/-- The call answers, and everything is as it was. -/
def Asks (request : SaveRequest) (p : AgentM os α) (s : World os × List (StagingFile os)) : Prop :=
  ∀ Q : Post os α, (∀ r t, Same s t → Q (.ok r) t) → p.Ends (answerTidy request) Q s

theorem asks_call {e : Sys os} (he : e.KeepsEntries) : Asks request (call e) s := by
  intro Q h c r t ht
  obtain ⟨-, hanswer, hfiles⟩ := answerTidy_eq_some.1 ht
  exact h r t ⟨(answer_frame hanswer).1 he.keepsState, (answer_frame hanswer).2.1 he,
    hfiles.trans (stages_of_keepsEntries he r s.1 s.2)⟩

variable {β : Type} {f : α → AgentM os β}

/-- A part of a request that stages nothing, and ends the request if it fails. -/
theorem ends_bind_same {p : AgentM os α} (hp : p.Calls Sys.KeepsEntries) (h : Neat none s)
    (hf : ∀ a t, Same s t → Neat none t → EndsNeat request (f a) t) :
    EndsNeat request (p >>= f) s := by
  refine .bind (ends_same hp fun r t ht => ?_)
  cases r with
  | ok a => exact hf a t ht (h.same ht)
  | error x => exact h.same ht

variable {error : String → AgentError}

/-- A part of a request that has a staging file, and removes it if it fails. -/
theorem ends_bind_orRemove {p : AgentM os (Except String α)} (hp : Asks request p s)
    (h : Neat (some ⟨parent, name, inode⟩) s)
    (hf : ∀ a t, Neat (some ⟨parent, name, inode⟩) t → EndsNeat request (f a) t) :
    EndsNeat request (orRemoveTemp parent name error p >>= f) s := by
  refine .bind (.bind (hp _ fun result t ht => ?_))
  cases result with
  | ok a => exact hf a t (h.same ht)
  | error message => exact .bind (ends_remove_neat (h.same ht) fun u _ hneat => hneat)

variable {path : String}

/-- Reading the hash of a target fails only if nothing is left over by that. -/
theorem ends_check_neat {abs : Path} {Q : Post os (Option String)}
    (herr : ∀ x, Neat none s → Q (.error x) s) (hok : ∀ hash, Q (.ok hash) s) :
    (attemptCall error (call (.currentRegularFileHash path abs))).Ends
      (answerTidy request) Q s := by
  refine .bind ?_
  intro c r t ht
  obtain ⟨htidy, hanswer, hfiles⟩ := answerTidy_eq_some.1 ht
  obtain ⟨hworld, hseen⟩ := look_eq_some hanswer
  obtain rfl : t = s := Prod.ext hworld hfiles
  cases r with
  | ok hash => exact hok hash
  | error message =>
    refine herr _ (not_loose_iff.1 ?_)
    have hfailed : readable t.1 c path abs = false := by
      unfold readable
      split
      · rfl
      · have hlook : look t.1 c (currentRegularFileHash t.1.disk t.1.state.root path abs) =
            some (.error message, t.1) := hanswer
        have hseen : currentRegularFileHash t.1.disk t.1.state.root path abs = .error message := by
          simpa only [look, Option.some.injEq, Prod.mk.injEq, and_true] using hlook
        rw [hseen]
        rfl
    simp only [tidy, hfailed, Bool.false_or, Bool.and_eq_true, Bool.not_eq_true'] at htidy
    exact htidy.2

variable {tmpPath targetAbs : Path}

/-- A rename ends the staging: what it moves is no staging file any more, and if it fails the file
is removed. -/
theorem ends_renameTempIntoPath_neat (h : Neat (some ⟨parent, name, inode⟩) s) :
    EndsNeat request (renameTempIntoPath parent tmpPath name targetAbs) s := by
  refine .bind ?_
  intro c r t ht
  obtain ⟨-, hanswer, hfiles⟩ := answerTidy_eq_some.1 ht
  have hstate : t.1.state = s.1.state := (answer_frame (e := .renameat _ _ _) hanswer).1 trivial
  rcases renameAt_eq_some hanswer with ⟨message, rfl, hworld⟩ | ⟨rfl, -, hworld⟩
  · obtain rfl : t = s := Prod.ext hworld hfiles
    refine .bind ?_
    intro c answered u hstep
    have hneat := (neat_of_remove h hstep).2
    cases answered with
    | removed | notFound | failed message => exact hneat
  · refine h.gone hstate fun file hfile => ?_
    have hfilter : t.2 = s.2.filter fun file =>
        decide (s.1.disk.entry parent name ≠ some (.file file.inode)) := hfiles
    rw [hfilter, List.mem_filter, decide_eq_true_eq] at hfile
    refine ⟨hfile.1, fun hdisk => ?_⟩
    rw [hworld] at hdisk
    rw [StagingFile.onDisk, decide_eq_true_eq] at hdisk ⊢
    simp only [Disk.rename] at hdisk
    split at hdisk
    · exact absurd hdisk hfile.2
    · split at hdisk
      · cases hdisk
      · rename_i hother
        exact ⟨hdisk, hother⟩

/-- **The end of both kinds of saves** leaves nothing over. -/
theorem ends_checkAndReplace_neat {expectedHash : Option String}
    (h : Neat (some ⟨parent, name, inode⟩) s) :
    EndsNeat request (checkAndReplace path targetAbs expectedHash parent tmpPath name inode) s := by
  refine ends_bind_orRemove (asks_call trivial) h fun _ s₁ h₁ => ?_
  refine .bind (ends_check_neat (fun x hneat => hneat) fun actualHash => ?_)
  refine .ite (fun _ => ?_) fun _ => ?_
  · -- a conflict
    refine .bind (ends_remove_neat h₁ fun t _ hneat => ?_)
    exact ends_bind_same (calls_saveConflict _ _ _) hneat fun conflict t _ hneat => hneat
  refine ends_bind_orRemove (asks_call trivial) h₁ fun _ s₂ h₂ => ?_
  refine ends_bind_orRemove (asks_call trivial) h₂ fun _ s₃ h₃ => ?_
  refine .bind ((ends_renameTempIntoPath_neat h₃).mono fun r t hneat => ?_)
  cases r with
  | error x => exact hneat
  | ok _ => exact ends_bind_same (calls_attemptCall (.ask trivial)) hneat fun _ t _ hneat => hneat

/-- A staging file is created. -/
theorem ends_create_neat (h : Neat none s) {Q : Post os ℕ} (herr : ∀ x, Q (.error x) s)
    (hok : ∀ inode t, t.1.state = s.1.state → Neat (some ⟨parent, name, inode⟩) t →
      Q (.ok inode) t) :
    (attemptCall error (call (.createTempFile parent name))).Ends (answerTidy request) Q s := by
  refine .bind ?_
  intro c r t ht
  obtain ⟨-, hanswer, hfiles⟩ := answerTidy_eq_some.1 ht
  have hstate : t.1.state = s.1.state := (answer_frame (e := .createTempFile _ _) hanswer).1 trivial
  rcases createAt_eq_some hanswer with ⟨message, rfl, hworld⟩ | ⟨rfl, hworld⟩
  · obtain rfl : t = s := Prod.ext hworld hfiles
    exact herr _
  · refine hok _ t hstate fun file hfile hdisk => ?_
    rw [hstate]
    rw [hworld, StagingFile.onDisk, decide_eq_true_eq] at hdisk
    simp only [Disk.create] at hdisk
    split at hdisk
    · -- it is where the new file is, so it is the new file
      rename_i hplace
      obtain ⟨dir, other, node⟩ := file
      obtain ⟨rfl, rfl⟩ := hplace
      cases hdisk
      exact .inr rfl
    · rename_i hplace
      have hcons : t.2 = ⟨parent, name, s.1.disk.next⟩ :: s.2 := hfiles
      rw [hcons] at hfile
      rcases List.mem_cons.1 hfile with rfl | hfile
      · exact absurd ⟨rfl, rfl⟩ hplace
      · rcases h file hfile (decide_eq_true hdisk) with howned | hown
        · exact .inl howned
        · cases hown

end Own

/-! ### Uploads are opened and closed -/

variable {uploadId : String} {upload : PendingUpload os}

/-- An upload is taken out of the map; now its file is only the request's own. -/
theorem Neat.remove (h : Neat none s) (hids : (s.1.state.uploads.map Prod.fst).Nodup)
    (hmem : (uploadId, upload) ∈ s.1.state.uploads) :
    Neat (some upload.staging) ({ s.1 with state := s.1.state.remove uploadId }, s.2) := by
  intro file hfile hdisk
  rcases h file hfile hdisk with howned | hown
  · obtain ⟨entry, hentry, rfl⟩ := owned_iff.1 howned
    rcases List.mem_cons.1 ((perm_remove hids hmem).mem_iff.1 hentry) with rfl | hrest
    · exact .inr rfl
    · exact .inl (owned_iff.2 ⟨entry, hrest, rfl⟩)
  · cases hown

/-- Keys of targets are of no matter here. -/
theorem Neat.claim (h : Neat own s) (keys : List String) :
    Neat own ({ s.1 with
      state :=
  { s.1.state with activeWriteTargets := keys ++ s.1.state.activeWriteTargets } }, s.2) :=
  fun file hfile hdisk => h file hfile hdisk

/-- An upload is put into the map. -/
theorem Neat.insert (h : Neat own s) (hown : ∀ file, own = some file → file = upload.staging)
    (hsame : ∀ entry ∈ s.1.state.uploads, entry.1 = uploadId → entry.2.staging = upload.staging) :
    Neat none ({ s.1 with state := s.1.state.insert uploadId upload }, s.2) := by
  intro file hfile hdisk
  refine .inl (owned_iff.2 ?_)
  rcases h file hfile hdisk with howned | hfile
  · obtain ⟨entry, hentry, rfl⟩ := owned_iff.1 howned
    by_cases hid : entry.1 = uploadId
    · exact ⟨(uploadId, upload), List.mem_cons_self, (hsame entry hentry hid).symm⟩
    · exact ⟨entry, List.mem_cons_of_mem _ (mem_remove.2 ⟨hentry, hid⟩), rfl⟩
  · exact ⟨(uploadId, upload), List.mem_cons_self, (hown file hfile).symm⟩

theorem ends_agentState_tidy {Q : Post os (AgentState os)} (h : Q (.ok s.1.state) s) :
    agentState.Ends (answerTidy request) Q s := by
  intro c r t ht
  obtain ⟨-, hanswer, hfiles⟩ := answerTidy_eq_some.1 ht
  cases t
  cases hanswer
  cases hfiles
  exact h

theorem ends_setState_tidy {f : AgentState os → AgentState os} {Q : Post os Unit}
    (h : Q (.ok ()) ({ s.1 with state := f s.1.state }, s.2)) :
    (setState f).Ends (answerTidy request) Q s := by
  intro c r t ht
  obtain ⟨-, hanswer, hfiles⟩ := answerTidy_eq_some.1 ht
  cases t
  cases hanswer
  cases hfiles
  exact h

section Requests

variable (h : Neat none s) (hids : (s.1.state.uploads.map Prod.fst).Nodup)

include h hids

/-- One upload is closed. -/
theorem ends_dropUpload_neat (hmem : (uploadId, upload) ∈ s.1.state.uploads) {Q : Post os Unit}
    (hQ : ∀ t, t.1.state.uploads = (s.1.state.remove uploadId).uploads → Neat none t →
      Q (.ok ()) t) :
    (dropUpload uploadId upload).Ends (answerTidy request) Q s := by
  refine .bind (ends_setState_tidy (.bind ?_))
  refine ends_remove_neat (h.remove hids hmem) fun t ht hneat => ends_setState_tidy (hQ _ ?_ hneat)
  have huploads := congrArg AgentState.uploads ht
  exact huploads

theorem ends_dropUploads_neat {entries : List (String × PendingUpload os)}
    (hnodup : (entries.map Prod.fst).Nodup)
    (hopen : ∀ entry ∈ entries, entry ∈ s.1.state.uploads) {Q : Post os Unit}
    (hQ : ∀ t, Neat none t → (t.1.state.uploads.map Prod.fst).Nodup → Q (.ok ()) t) :
    (dropUploads entries).Ends (answerTidy request) Q s := by
  induction entries generalizing s with
  | nil => exact hQ s h hids
  | cons entry rest ih =>
    obtain ⟨uploadId, upload⟩ := entry
    obtain ⟨hnew, hrest⟩ := List.nodup_cons.1 (List.map_cons ▸ hnodup)
    have hmem := hopen _ List.mem_cons_self
    refine .bind (ends_dropUpload_neat h hids hmem fun t ht hneat =>
      ih hneat ?_ hrest fun other hother => ?_)
    · rw [ht]
      exact hids.sublist (List.filter_sublist.map Prod.fst)
    · rw [ht]
      refine mem_remove.2 ⟨hopen other (List.mem_cons_of_mem _ hother), fun heq => hnew ?_⟩
      exact List.mem_map.2 ⟨other, hother, heq⟩

theorem ends_cleanup_neat {Q : Post os Unit}
    (hQ : ∀ t, Neat none t → (t.1.state.uploads.map Prod.fst).Nodup → Q (.ok ()) t) :
    cleanupExpiredUploads.Ends (answerTidy request) Q s := by
  refine .bind (asks_call (e := .instantNow) trivial _ fun now t ht => ?_)
  refine .bind (ends_agentState_tidy ?_)
  have hids' : (t.1.state.uploads.map Prod.fst).Nodup := by rwa [ht.state]
  refine ends_dropUploads_neat (h.same ht) hids' ?_ (fun entry hentry =>
    List.mem_of_mem_filter hentry) hQ
  exact hids'.sublist (List.filter_sublist.map Prod.fst)

/-! ### Requests leave nothing over -/

variable {path : String} {expectedHash : Option String} {content : List UInt8}

omit hids in
theorem ends_writeFileCasPrepared_neat {target : WriteTarget} :
    EndsNeat request (writeFileCasPrepared path expectedHash content target) s := by
  refine ends_bind_same (calls_attemptCall (.ask trivial)) h fun parent s₁ _ h₁ => ?_
  refine ends_bind_same (calls_attemptCall (.ask trivial)) h₁ fun actualHash s₂ _ h₂ => ?_
  refine .ite (fun _ => ?_) fun _ => ?_
  · exact ends_bind_same (calls_saveConflict _ _ _) h₂ fun conflict t _ hneat => hneat
  refine ends_bind_same (.ask trivial) h₂ fun nanos s₃ _ h₃ => ?_
  refine ends_bind_same (calls_attemptCall (.ask trivial)) h₃ fun _ s₄ _ h₄ => ?_
  refine .bind (ends_create_neat h₄ (fun _ => h₄) fun tmpFile s₅ _ h₅ => ?_)
  refine ends_bind_orRemove (asks_call trivial) h₅ fun _ s₆ h₆ => ?_
  refine ends_bind_orRemove (asks_call trivial) h₆ fun _ s₇ h₇ => ?_
  refine ends_bind_orRemove (asks_call trivial) h₇ fun _ s₈ h₈ => ?_
  refine .bind ((ends_checkAndReplace_neat h₈).mono fun r t hneat => ?_)
  match r with
  | .error _ | .ok (some conflict) => exact hneat
  | .ok none =>
    refine ends_bind_same (calls_attemptCall (.ask trivial)) hneat fun newHash t _ hneat => ?_
    exact ends_bind_same (calls_attemptCall (.ask trivial)) hneat fun stat t _ hneat => hneat

omit hids in
theorem ends_writeFileCasState_neat :
    EndsNeat request (writeFileCasState path expectedHash content) s := by
  refine ends_bind_same (calls_claimTarget path) h fun claimed s₁ _ h₁ => .bind ?_
  refine Ends.mono (ends_writeFileCasPrepared_neat h₁) fun r t hneat => ?_
  cases r with
  | ok outcome | error x => exact hneat

theorem ends_begin_neat {contentHash : String} {size : ℕ} :
    EndsNeat (.beginWriteFileCas path expectedHash contentHash size)
      (beginWriteFileCas path expectedHash contentHash size) s := by
  refine .bind (ends_cleanup_neat h hids fun s₁ h₁ _ => ?_)
  refine ends_bind_same (calls_enforceUploadLimits size) h₁ fun _ s₂ _ h₂ => ?_
  refine ends_bind_same (calls_claimTarget path) h₂ fun claimed s₃ _ h₃ => ?_
  refine ends_bind_same (calls_attemptCall (.ask trivial)) h₃ fun parent s₄ _ h₄ => ?_
  refine ends_bind_same (calls_attemptCall (.ask trivial)) h₄ fun actualHash s₅ _ h₅ => ?_
  refine .ite (fun _ => ?_) fun _ => ?_
  · exact ends_bind_same (calls_saveConflict _ _ _) h₅ fun conflict t _ hneat => hneat
  -- the clock decides on the identifier
  refine .bind ?_
  intro c (nanos : ℕ) t ht
  obtain ⟨htidy, hclock, hfiles⟩ := answerTidy_eq_some.1 ht
  obtain ⟨rfl, hworld⟩ := clock_eq_some hclock
  obtain rfl : t = s₅ := Prod.ext hworld hfiles
  have hid : toString nanos ++ "-" ++ os.hashBytes (textBytes path) ∉
      t.1.state.uploads.map Prod.fst := by
    simpa only [tidy, newId, Bool.and_true, Bool.not_eq_true', List.contains_eq_mem,
      decide_eq_false_iff_not]
      using htidy
  refine ends_bind_same (calls_attemptCall (.ask trivial)) h₅ fun _ s₆ hsame₆ h₆ => ?_
  refine .bind (ends_create_neat h₆ (fun _ => h₆) fun tmpFile s₇ hstate₇ h₇ => ?_)
  refine .bind (ends_setState_tidy ?_)
  have hclaimed := h₇.claim claimed.2
  refine .bind (asks_call (e := .instantNow) trivial _ fun createdAt s₈ hsame₈ => ?_)
  refine .bind (ends_setState_tidy ?_)
  refine Neat.insert (hclaimed.same hsame₈) (fun file hfile => (Option.some.inj hfile).symm)
    fun entry hentry heq => ?_
  have huploads : s₈.1.state.uploads = t.1.state.uploads := by
    rw [hsame₈.state]
    simp only [hstate₇, hsame₆.state]
  rw [huploads] at hentry
  exact absurd (List.mem_map.2 ⟨entry, hentry, heq⟩) hid

omit h hids in
/-- With one entry for each identifier, an entry is the upload that is looked up. -/
theorem eq_of_get? {state : AgentState os} (hids : (state.uploads.map Prod.fst).Nodup)
    (hget : state.get? uploadId = some upload) {entry : String × PendingUpload os}
    (hentry : entry ∈ state.uploads) (heq : entry.1 = uploadId) : entry.2 = upload := by
  rcases List.mem_cons.1 ((perm_remove hids (mem_of_get? hget)).mem_iff.1 hentry) with rfl | hrest
  · rfl
  · exact absurd heq (mem_remove.1 hrest).2

omit h hids in
/-- An upload is looked up. -/
theorem ends_lookupUpload_tidy {Q : Post os (PendingUpload os)}
    (herr : ∀ x, Q (.error x) s) (hok : ∀ upload, s.1.state.get? uploadId = some upload →
      Q (.ok upload) s) :
    (lookupUpload uploadId).Ends (answerTidy request) Q s := by
  refine .bind (ends_agentState_tidy ?_)
  cases hget : s.1.state.get? uploadId with
  | some upload =>
    simp only [hget]
    exact hok upload hget
  | none =>
    simp only [hget]
    exact herr _

theorem ends_chunk_neat {offset : ℕ} :
    EndsNeat request (writeFileChunk uploadId offset content) s := by
  refine .bind (ends_cleanup_neat h hids fun s₁ h₁ hids₁ => ?_)
  refine .bind (ends_lookupUpload_tidy (fun _ => h₁) fun upload hget => ?_)
  refine .ite (fun _ => h₁) fun _ => ?_
  refine .ite (fun _ => h₁) fun _ => ?_
  refine ends_bind_same (calls_attemptCall (.ask trivial)) h₁ fun _ s₂ hsame h₂ => ?_
  refine .bind (ends_setState_tidy ?_)
  refine Neat.insert h₂ (fun file hfile => nomatch hfile) fun entry hentry heq => ?_
  rw [hsame.state] at hentry
  rw [eq_of_get? hids₁ hget hentry heq]
  rfl

omit h hids in
theorem ends_finishUpload_neat (h : Neat (some upload.staging) s) :
    EndsNeat request (finishUpload uploadId upload) s := by
  refine .ite (fun _ => ?_) fun _ => ?_
  · exact .bind (ends_remove_neat h fun t _ hneat => hneat)
  refine ends_bind_orRemove (asks_call trivial) h fun _ s₁ h₁ => ?_
  refine ends_bind_orRemove (asks_call trivial) h₁ fun tmpHash s₂ h₂ => ?_
  refine .ite (fun _ => ?_) fun _ => ?_
  · exact .bind (ends_remove_neat h₂ fun t _ hneat => hneat)
  refine ends_bind_orRemove (asks_call trivial) h₂ fun _ s₃ h₃ => ?_
  refine .bind ((ends_checkAndReplace_neat h₃).mono fun r t hneat => ?_)
  match r with
  | .error _ | .ok (some conflict) => exact hneat
  | .ok none =>
    exact ends_bind_same (calls_attemptCall (.ask trivial)) hneat fun stat t _ hneat => hneat

theorem ends_finish_neat : EndsNeat request (finishWriteFileCas uploadId) s := by
  refine .bind (ends_cleanup_neat h hids fun s₁ h₁ hids₁ => ?_)
  refine .bind (ends_lookupUpload_tidy (fun _ => h₁) fun upload hget => ?_)
  refine .bind (ends_setState_tidy ?_)
  have hown := h₁.remove hids₁ (mem_of_get? hget)
  refine .bind (.attempt ((ends_finishUpload_neat hown).mono fun r t hneat => ?_))
  refine .bind (ends_setState_tidy ?_)
  cases r with
  | ok outcome | error x => exact hneat

theorem ends_abort_neat : EndsNeat request (abortWriteFileCas uploadId) s := by
  refine .bind (ends_cleanup_neat h hids fun s₁ h₁ hids₁ => ?_)
  refine .bind (ends_agentState_tidy ?_)
  cases hget : s₁.1.state.get? uploadId with
  | none =>
    simp only [hget]
    exact h₁
  | some upload =>
    simp only [hget]
    exact .bind (ends_dropUpload_neat h₁ hids₁ (mem_of_get? hget) fun t _ hneat => hneat)

/-- **Every request leaves nothing over**, however it ends. -/
theorem ends_handleRequest_neat (request : SaveRequest) :
    EndsNeat request (handleRequest request) s := by
  cases request with
  | writeFileCas path expectedHash content => exact ends_writeFileCasState_neat h
  | beginWriteFileCas path expectedHash contentHash size => exact ends_begin_neat h hids
  | writeFileChunk uploadId offset content => exact ends_chunk_neat h hids
  | finishWriteFileCas uploadId => exact ends_finish_neat h hids
  | abortWriteFileCas uploadId => exact ends_abort_neat h hids

end Requests

/-! ### Runs -/

/-- A request is served to its end, uploads expire, or somebody else changes the disk, who brings no
staging file back. Only calls that are `ok` happen. -/
inductive LitterStep (ok : SaveRequest → Sys os → Choice → World os × List (StagingFile os) →
    Bool) : World os × List (StagingFile os) → World os × List (StagingFile os) → Prop
  | request {s t : World os × List (StagingFile os)} {request : SaveRequest} {choices : List Choice}
      {result : Except AgentError SaveResponse}
      (h : (handleRequest request).exec (Prog.onlyIf answerStages (ok request)) choices s =
        some (result, t)) :
      LitterStep ok s t
  | expire {s t : World os × List (StagingFile os)} {request : SaveRequest} {choices : List Choice}
      {result : Except AgentError Unit}
      (h : cleanupExpiredUploads.exec (Prog.onlyIf answerStages (ok request)) choices s =
        some (result, t)) :
      LitterStep ok s t
  | thirdParty {w : World os} {files : List (StagingFile os)} (disk : Disk os)
      (h : ∀ file ∈ files, file.onDisk disk = true → file.onDisk w.disk = true) :
      LitterStep ok (w, files) ({ w with disk := disk }, files)

/-- The worlds an agent can come to, with what it has staged. -/
def Littering (ok : SaveRequest → Sys os → Choice → World os × List (StagingFile os) →
    Bool) (root : Path) (disk : Disk os) : World os × List (StagingFile os) → Prop :=
  Relation.ReflTransGen (LitterStep ok) (World.start root disk, [])

/-- Without the staged files, a tidy call is one that gives no identifier twice. -/
theorem answerTidy_fst {c : Choice} {r : SysAns e} (h : answerTidy request e c s = some (r, t)) :
    Prog.onlyIf answer (newId request) e c s.1 = some (r, t.1) := by
  obtain ⟨htidy, hanswer, -⟩ := answerTidy_eq_some.1 h
  unfold tidy at htidy
  exact Prog.onlyIf_eq_some.2 ⟨(Bool.and_eq_true_iff.1 htidy).1, hanswer⟩

/-- A program without the staged files. -/
theorem ends_tidy {Q : After os α} (h : p.Ends (Prog.onlyIf answer (newId request)) Q s.1) :
    p.Ends (answerTidy request) (fun r t => Q r t.1) s :=
  Ends.sim (f := Prod.fst) (fun _ _ _ _ _ hstep => answerTidy_fst hstep) h

theorem LitterStep.booked (h : Booked s.1.state) (hstep : LitterStep tidy s t) :
    Booked t.1.state := by
  cases hstep with
  | @request _ _ request choices result hexec =>
    exact (ends_tidy (ends_handleRequest_booked h request)).exec hexec
  | @expire _ _ request choices result hexec =>
    have hends : cleanupExpiredUploads.Ends (Prog.onlyIf answer (newId request))
        (fun _ t => Booked t.state) s.1 :=
      (ends_cleanup_booked h fun t ht => ht).onlyIf
    exact (ends_tidy hends).exec hexec
  | thirdParty disk hdisk => exact h

theorem LitterStep.neat (h : Neat none s) (hbooked : Booked s.1.state)
    (hstep : LitterStep tidy s t) : Neat none t := by
  cases hstep with
  | request hexec => exact (ends_handleRequest_neat h hbooked.ids _).exec hexec
  | expire hexec =>
    exact (ends_cleanup_neat (Q := fun _ t => Neat none t) h hbooked.ids fun t ht _ =>
      ht).exec hexec
  | thirdParty disk hdisk => exact fun file hfile honDisk => h file hfile (hdisk file hfile honDisk)

/-- **No staging file is left over**: after every request of a tidy run, those that are still there
belong to open uploads. -/
theorem neat_of_littering (root : Path) (disk : Disk os) (s : World os × List (StagingFile os))
    (h : Littering tidy root disk s) : Neat none s := by
  suffices hboth : Booked s.1.state ∧ Neat none s from hboth.2
  induction h with
  | refl => exact ⟨Booked.start root, fun file hfile => nomatch hfile⟩
  | tail _ hstep ih => exact ⟨hstep.booked ih.1, hstep.neat ih.2 ih.1⟩

namespace Plain

/-- A save of `f`, with everything in order until the staging file is written. -/
def stagedChoices : List Choice :=
  [.ok, .ok, .ok, .ok, .ok, .ok, .value 7, .ok, .ok, .ok, .ok, .ok]

def newFile : SaveRequest := .writeFileCas "f" none (textBytes "hi")

end Plain

open Plain in
/-- The directory of `f` is gone when the staging file is written; the file is removed. -/
theorem neat_of_littering_failed :
    ∃ s, Littering tidy root disk s ∧ s.2.length = 1 ∧ Neat none s := by
  have hrun : ((handleRequest newFile).exec (answerTidy newFile)
      (stagedChoices ++ [.fail "No such file or directory", .ok]) (World.start root disk, [])).map
        (fun done => (done.1.isOk, done.2.2.length)) = some (false, 1) := by
    decide +kernel
  obtain ⟨⟨result, s⟩, hexec, heq⟩ := Option.map_eq_some_iff.1 hrun
  have hreached : Littering tidy root disk s := .single (.request hexec)
  exact ⟨s, hreached, (Prod.mk.inj heq).2, neat_of_littering root disk s hreached⟩

/-- Files are removed if they are there, and no identifier is given twice. -/
def removes (request : SaveRequest) (e : Sys os) (c : Choice)
    (s : World os × List (StagingFile os)) : Bool :=
  newId request e c s.1 &&
    match e, c with
    | .removeTempFile _ _, .fail _ => false
    | _, _ => true

open Plain in
/-- **A staging file is left over**: `f` cannot be read when its hash is computed for the second
time.  The request fails, no upload is open, and the file stays. -/
theorem unreadable_target_litters :
    ∃ s, Littering removes root disk s ∧ s.1.state.uploads = [] ∧ ∃ file ∈ s.2,
      file.onDisk s.1.disk = true := by
  have hrun : ((handleRequest newFile).exec (Prog.onlyIf answerStages (removes newFile))
      (stagedChoices ++ [.ok, .fail "Permission denied"]) (World.start root disk, [])).map
        (fun done => (done.1.isOk, done.2.1.state.uploads.isEmpty, done.2.2.any fun file =>
        file.onDisk done.2.1.disk)) =
      some (false, true, true) := by
    decide +kernel
  obtain ⟨⟨result, s⟩, hexec, heq⟩ := Option.map_eq_some_iff.1 hrun
  obtain ⟨-, hclosed, hleft⟩ := Prod.mk.inj heq |>.imp_right Prod.mk.inj
  exact ⟨s, .single (.request hexec), List.isEmpty_iff.1 hclosed, List.any_eq_true.1 hleft⟩

end RemoteMirror.Agent
