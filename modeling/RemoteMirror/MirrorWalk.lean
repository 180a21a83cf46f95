/-
**Following the requests of a sidecar.**

An analysis of the sidecar says on which terms the lanes share the world and what a lane knows about
the hashes, saves and open files it works with.  It has to say of every call why it is made on these
terms (`Walk.Rules`).  Then all requests are (`Walk.Rules.laneBody`): the programs are followed here
once, for every analysis.

Main definitions:

* `Mirror.Walk` — an analysis;
* `Mirror.Walk.Rules`, `Mirror.Walk.Saves` — what has to be shown of the calls.

Main results:

* `Mirror.Walk.Saves.applySaveEntry` — sending a save keeps to the terms;
* `Mirror.Walk.Rules.laneBody` — **requests keep to the terms if their calls do**.
-/

import RemoteMirror.MirrorRules

namespace RemoteMirror.Mirror

open Agent (Path)
open Interact (Label Spec)

/-- Terms for the lanes, and what a lane may know: that a hash can be the base of a save of a path,
that a save or a row in conflict is in order, that an open file is not one of the files to be kept.
What it knows stays true. -/
structure Walk (hash : List UInt8 → String) where
  terms : Spec Lane World
  calm : Label Lane Call Job Event → World → Bool
  later : World → World → Prop
  base : World → Path → Option String → Prop
  save : World → SaveQueueEntry → Prop
  row : World → Row → Prop
  loose : World → ℕ → Prop
  covers : ∀ i, Spec.Covers terms i later
  base_later : ∀ {s t path o}, base s path o → later s t → base t path o
  save_later : ∀ {s t entry}, save s entry → later s t → save t entry
  row_later : ∀ {s t r}, row s r → later s t → row t r
  loose_later : ∀ {s t inode}, loose s inode → later s t → loose t inode
  base_none : ∀ w path, base w path none
  row_save : ∀ {w r snapshotPath}, row w r → r.snapshotPath = some snapshotPath →
    save w ⟨r.id, r.path, r.conflictActualHash, r.localHash, snapshotPath⟩

namespace Walk

variable {hash : List UInt8 → String}

/-- A program of a lane keeps the terms, and what it yields satisfies `Q`. -/
abbrev Fine (W : Walk hash) (i : Lane) (j : Option Job) {α : Type} (p : SidecarM α)
    (Q : α → World → Prop) (s : World) : Prop :=
  W.terms.Yields (sidecar hash) W.calm i j p Q s

abbrev Keeps (W : Walk hash) (i : Lane) (j : Option Job) {α : Type} (p : SidecarM α) (s : World) :
    Prop :=
  W.Fine i j p (fun _ _ => True) s

/-- The calls are made on the terms of the analysis, and bring about what it knows. -/
structure Rules (W : Walk hash) : Prop where
  look : ∀ {i j s e}, e.looks = true → W.Fine i j (run e) (fun _ _ => True) s
  get : ∀ {i j s} path, W.Fine i j (get path)
    (fun found t => ∀ e, found = some e → W.base t path e.remoteHash) s
  hydratedEntries : ∀ {i j s}, W.Fine i j (run .hydratedEntries)
    (fun (entries : List (Spelling × Entry)) t =>
      ∀ x ∈ entries, W.base t x.1.path x.2.remoteHash) s
  saveQueueEntry : ∀ {i j s} id, W.Fine i j (run (.saveQueueEntry id))
    (fun (found : Option Row) t => ∀ entry, found.bind Row.toEntry = some entry → W.save t entry) s
  pendingSaveEntries : ∀ {i j s} limit, W.Fine i j (run (.pendingSaveEntries limit))
    (fun (rows : List Row) t => ∀ entry ∈ rows.filterMap Row.toEntry, W.save t entry) s
  conflictQueueEntry : ∀ {i j s} id, W.Fine i j (run (.conflictQueueEntry id))
    (fun (found : Option Row) t => ∀ r, found = some r → W.row t r) s
  enqueueSave : ∀ {i j s path localHash expectedHash content}, hash content = localHash →
    W.base s path expectedHash →
    W.Fine i j (enqueueSave path localHash expectedHash content) (fun entry t => W.save t entry) s
  upsertMetadataBatch : ∀ {i j s entries}, (∀ x ∈ entries, FileMeta.hash x = none) →
    W.Fine i j (run (.upsertMetadataBatch entries)) (fun _ _ => True) s
  recordHydrated : ∀ {i j s} key remoteHash localHash,
    W.Fine i j (run (.recordHydrated key remoteHash localHash)) (fun _ _ => True) s
  recordCleanLocalHash : ∀ {i j s} key localHash,
    W.Fine i j (run (.recordCleanLocalHash key localHash)) (fun _ _ => True) s
  recordValidation : ∀ {i j s path} validation {remoteHash}, W.base s path remoteHash →
    W.Fine i j (run (.recordValidation path validation remoteHash)) (fun _ _ => True) s
  markValidationError : ∀ {i j s} path,
    W.Fine i j (run (.markValidationError path)) (fun _ _ => True) s ∧
    W.Fine i j (ignore (.markValidationError path)) (fun _ _ => True) s
  acceptLocal : ∀ {i j s accepted}, W.row s accepted →
    W.Fine i j (run (.acceptLocal accepted)) (fun _ _ => True) s
  acceptRemote : ∀ {i j s accepted remoteHash}, W.row s accepted →
    accepted.conflictActualHash = some remoteHash →
    W.Fine i j (run (.acceptRemote accepted remoteHash)) (fun _ _ => True) s
  createFile : ∀ {i j s} path,
    W.Fine i j (createFile (.mirror path)) (fun inode t => W.loose t inode) s
  createNew : ∀ {i j s} path,
    W.Fine i j (createNew (.mirror path)) (fun inode t => W.loose t inode) s
  writeAll : ∀ {i j s inode}, W.loose s inode → ∀ offset content,
    W.Fine i j (writeAll inode offset content) (fun _ _ => True) s
  rename : ∀ {i j s} source target,
    W.Fine i j (run (.rename (.mirror source) (.mirror target))) (fun _ _ => True) s
  removeFile : ∀ {i j s} path,
    W.Fine i j (ignore (.removeFile (.mirror path))) (fun _ _ => True) s
  applySaveEntry : ∀ {j s entry}, W.save s entry →
    W.Fine .write j (applySaveEntry hash entry) (fun _ _ => True) s
  enter : ∀ {i j s} job, W.Fine i j (ignore (.enter job)) (fun _ _ => True) s
  leave : ∀ {i j s}, W.Fine i j (ignore .leave) (fun _ _ => True) s

variable {W : Walk hash} {i : Lane} {j : Option Job} {s : World} {α : Type} {p : SidecarM α}
  {Q : α → World → Prop} {β : Type} {B : β → World → Prop}

/-- One program after the other. -/
theorem Fine.bind {f : α → SidecarM β} (hp : W.Fine i j p Q s)
    (hf : ∀ a t, W.later s t → Q a t → W.Fine i j (f a) B t) : W.Fine i j (p >>= f) B s :=
  Spec.Yields.bind (W.covers i) hp fun a t ht _ hQ => hf a t ht hQ

/-- A call whose failure is caught. -/
theorem Fine.attempt {f : Except String α → SidecarM β} (hp : W.Fine i j p Q s)
    (hf : ∀ r t, W.later s t → (∀ a, r = .ok a → Q a t) → W.Fine i j (f r) B t) :
    W.Fine i j (p.attempt >>= f) B s :=
  Spec.Yields.bind (W.covers i) (Spec.Yields.attempt hp) fun r t ht _ hr => hf r t ht hr

/-- A program that makes no call only has to know what it yields. -/
theorem fine_pure {a : α} (h : ∀ t, W.later s t → Q a t) : W.Fine i j (pure a) Q s :=
  Spec.Yields.pure fun t ht hi => h t ((W.covers i).rely ht hi)

theorem fine_done {a : α} : W.Keeps i j (pure a) s :=
  fine_pure fun _ _ => trivial

theorem Fine.done {f : α → β} (hp : W.Fine i j p Q s) : W.Keeps i j (p >>= fun a => pure (f a)) s :=
  hp.bind fun _ _ _ _ => fine_done

/-! ### Sending saves -/

/-- What a lane knows while it queues and sends a save: what a check of the agent has found, that a
conflict came with its bytes, that the remote file was replaced or a file written, and which bytes
and hashes belong to the save.  The calls of a save are made on the terms of the analysis. -/
structure Saves (W : Walk hash) where
  checked : World → SaveQueueEntry → Check → Prop
  told : Conflict → Prop
  replaced : World → SaveQueueEntry → List UInt8 → Prop
  written : World → LocalPath → List UInt8 → Prop
  bytes : SaveQueueEntry → List UInt8 → Prop
  applied : SaveQueueEntry → String → Prop
  bytes_of_hash : ∀ {entry content}, hash content = entry.localHash → bytes entry content
  applied_self : ∀ entry, applied entry entry.localHash
  look : ∀ {i j s e}, e.looks = true → W.Keeps i j (run e) s
  abort : ∀ {j s}, W.Keeps .write j (ignore .uploadChunk) s
  latestUnresolved : ∀ {i j s} path, W.Fine i j (latestUnresolved path)
    (fun found t => ∀ r, found = some r → W.base t path (some r.localHash)) s
  writeDurable : ∀ {i j s name content}, (∀ n ms x, name = .snapshot n ms x → hash content = x) →
    W.Fine i j (run (.writeDurable name content)) (fun _ t => written t name content) s
  insertSave : ∀ {i j s path expectedHash name ms localHash content},
    written s (.snapshot name ms localHash) content → W.base s path expectedHash →
    W.Fine i j (run (.insertSave path expectedHash localHash (.snapshot name ms localHash)))
      (fun id t => W.save t ⟨id, path, expectedHash, localHash, .snapshot name ms localHash⟩) s
  readSnapshot : ∀ {j s entry}, W.save s entry →
    W.Fine .write j (readFile entry.snapshotPath) (fun content _ => bytes entry content) s
  beginSave : ∀ {j s} entry,
    W.Fine .write j (run (.beginSave entry.id entry.path entry.expectedHash))
    (fun (c : Check) t => ∀ h, c = .differs h → checked t entry (.differs h)) s
  checkSave : ∀ {j s} entry,
    W.Fine .write j (run (.checkSave entry.id entry.path entry.expectedHash))
    (fun c t => checked t entry c) s
  conflictContent : ∀ {j s entry h}, checked s entry (.differs h) →
    W.Fine .write j (run (.conflictContent entry.path))
      (fun (found : List UInt8 × Bool) _ => told ⟨h, found.1, found.2⟩) s
  replaceRemote : ∀ {j s entry}, W.save s entry → checked s entry .same → ∀ content,
    W.Fine .write j (run (.replaceRemote entry.path content))
    (fun _ t => replaced t entry content) s
  answerSave : ∀ {j s entry content declaredHash}, replaced s entry content → bytes entry content →
    (∀ h, declaredHash = some h → h = entry.localHash) →
    W.Fine .write j (run (.answerSave entry.path declaredHash))
      (fun newHash _ => applied entry newHash) s
  markSaveApplied : ∀ {j s entry newHash}, W.save s entry → applied entry newHash →
    W.Keeps .write j (run (.markSaveApplied entry.id entry.path newHash)) s
  markSaveFailed : ∀ {j s} id, W.Keeps .write j (run (.markSaveFailed id)) s
  recordSaveConflict : ∀ {j s entry conflict name ms}, W.save s entry → told conflict →
    written s (.conflictCopy name conflict.remoteContentTruncated ms) conflict.remoteContent →
    W.Keeps .write j (run (.recordSaveConflict entry.id entry.path conflict.actualHash
      (.conflictCopy name conflict.remoteContentTruncated ms) conflict.remoteContentTruncated)) s

namespace Saves

variable (S : W.Saves)

include S

/-- A queued save is in order: the snapshot is written before the row. -/
theorem enqueueSave {path : Path} {localHash : String} {expectedHash : Option String}
    {content : List UInt8}
    (hcontent : hash content = localHash) (hexpected : W.base s path expectedHash) :
    W.Fine i j (enqueueSave path localHash expectedHash content)
    (fun entry t => W.save t entry) s := by
  refine (S.latestUnresolved path).bind fun latest t₁ h₁ hlatest => ?_
  have heffective : W.base t₁ path ((latest.map Row.localHash).or expectedHash) := by
    cases latest with
    | none => exact W.base_later hexpected h₁
    | some row => exact hlatest row rfl
  refine Fine.bind (S.look rfl) fun now t₂ h₂ _ => ?_
  refine (S.writeDurable ?_).bind fun _ t₃ h₃ hwritten => ?_
  · rintro n ms x ⟨⟩
    exact hcontent
  refine (S.insertSave hwritten (W.base_later (W.base_later heffective h₂) h₃)).bind fun id
    t₄ _ hsave => ?_
  refine Fine.bind (S.look rfl) fun _ t₅ h₅ _ => ?_
  exact fine_pure fun t ht => W.save_later (W.save_later hsave h₅) ht

variable {entry : SaveQueueEntry}

theorem saveFailed (remoteFailure : Bool) : W.Keeps .write j (saveFailed entry remoteFailure) s :=
  (S.markSaveFailed _).done

/-- An outcome is in order if the hash it has applied, or the conflict it has met, is. -/
def Fair (entry : SaveQueueEntry) : SaveOutcome → Prop
  | .applied newHash => S.applied entry newHash
  | .conflict conflict => S.told conflict

/-- The search index is written after the database. -/
theorem markSaveApplied' {newHash : String} (hentry : W.save s entry)
    (hnew : S.applied entry newHash) :
    W.Keeps .write j (Mirror.markSaveApplied entry.id entry.path newHash) s := by
  refine (S.markSaveApplied hentry hnew).bind fun _ t₁ _ _ => ?_
  refine Fine.bind (S.look rfl) fun (found : Option Entry) t₂ _ _ => ?_
  cases found with
  | none => exact fine_done
  | some _ =>
    refine Fine.bind (S.look rfl) fun isFile t₃ _ _ => ?_
    exact Spec.Yields.ite (fun _ => S.look rfl) fun _ => fine_done

/-- The database learns what has become of a save. -/
theorem recordSaveOutcome {outcome : SaveOutcome} (hentry : W.save s entry)
    (hfair : S.Fair entry outcome) : W.Keeps .write j (recordSaveOutcome entry outcome) s := by
  cases outcome with
  | applied newHash => exact (S.markSaveApplied' hentry hfair).done
  | conflict conflict =>
    refine Spec.Yields.ite (fun _ => (S.markSaveApplied' hentry (S.applied_self entry)).done)
      fun _ => ?_
    refine Fine.bind (S.look rfl) fun now t₁ h₁ _ => ?_
    refine (S.writeDurable ?_).bind fun _ t₂ h₂ hcopy => ?_
    · rintro n ms x ⟨⟩
    exact (S.recordSaveConflict (W.save_later (W.save_later hentry h₁) h₂) hfair hcopy).done

/-- The bytes of a conflict are read after the check that has found it. -/
theorem saveConflict {actualHash : Option String} (h : S.checked s entry (.differs actualHash)) :
    W.Fine .write j (saveConflict entry.path actualHash) (fun conflict _ => S.told conflict) s :=
  (S.conflictContent h).bind fun _ _ _ htold => fine_pure fun _ _ => htold

/-- A save that the agent turns down at its start is a conflict. -/
theorem beginSave' (entry : SaveQueueEntry) : W.Fine .write j (Mirror.beginSave entry)
    (fun begun _ => ∀ conflict, begun = some conflict → S.told conflict) s := by
  refine (S.beginSave entry).bind fun checked t₁ _ hchecked => ?_
  cases checked with
  | same => exact fine_pure fun _ _ conflict h => by cases h
  | differs actualHash =>
    refine (S.saveConflict (hchecked actualHash rfl)).bind fun conflict t₂ _ htold => ?_
    refine fine_pure fun _ _ conflict' h => ?_
    cases h
    exact htold

variable {content : List UInt8}

/-- The final check, the replacement and the answer. -/
theorem commitSave {declaredHash : Option String} (hentry : W.save s entry)
    (hbytes : S.bytes entry content)
    (hdeclared : ∀ h, declaredHash = some h → h = entry.localHash) :
    W.Fine .write j (commitSave entry content declaredHash)
    (fun outcome _ => S.Fair entry outcome) s := by
  refine (S.checkSave entry).bind fun checked t₁ h₁ hchecked => ?_
  cases checked with
  | differs actualHash =>
    exact (S.saveConflict hchecked).bind fun conflict t₂ _ htold => fine_pure fun _ _ => htold
  | same =>
    refine (S.replaceRemote (W.save_later hentry h₁) hchecked content).bind fun _ t₂ _ hreplaced =>
      ?_
    refine (S.answerSave hreplaced hbytes hdeclared).bind fun newHash t₃ _ happlied => ?_
    exact fine_pure fun _ _ => happlied

theorem uploadChunks (chunks : List (List UInt8)) : W.Keeps .write j (uploadChunks chunks) s := by
  induction chunks generalizing s with
  | nil => exact fine_done
  | cons _ rest ih => exact Fine.bind (S.look rfl) fun _ _ _ _ => ih

/-- A save in one piece. -/
theorem applySmallSaveEntry (hentry : W.save s entry) (hbytes : S.bytes entry content) :
    W.Keeps .write j (applySmallSaveEntry entry content) s := by
  refine (S.commitSave hentry hbytes fun h hh => by cases hh).attempt fun r t₁ h₁ hr => ?_
  cases r with
  | ok outcome => exact S.recordSaveOutcome (W.save_later hentry h₁) (hr outcome rfl)
  | error _ => exact S.saveFailed true

/-- A save in chunks; whatever fails, the upload is given up. -/
theorem applyChunkedSaveEntry (hentry : W.save s entry) :
    W.Keeps .write j (applyChunkedSaveEntry hash entry) s := by
  refine (S.beginSave' entry).attempt fun begun t₁ h₁ hbegun => ?_
  have hentry₁ := W.save_later hentry h₁
  match begun with
  | .error _ => exact S.saveFailed true
  | .ok (some conflict) => exact S.recordSaveOutcome hentry₁ (hbegun _ rfl conflict rfl)
  | .ok none =>
    refine Fine.attempt (Q := fun _ _ => True) ?_ fun uploaded t₂ h₂ _ => ?_
    · refine Fine.bind (S.look rfl) fun content t₂ _ _ => ?_
      exact (S.uploadChunks _).done
    have hentry₂ := W.save_later hentry₁ h₂
    cases uploaded with
    | error _ => exact S.abort.bind fun _ _ _ _ => S.saveFailed true
    | ok content =>
      refine Fine.attempt (Q := fun outcome _ => S.Fair entry outcome) ?_ fun outcome t₃ h₃
        houtcome => ?_
      · refine Fine.bind (yields_ensure _ _) fun _ t₃ h₃ hhash => ?_
        exact S.commitSave (W.save_later hentry₂ h₃) (S.bytes_of_hash (by simpa using hhash))
          fun h hh => (Option.some.inj hh).symm
      · cases outcome with
        | ok outcome => exact S.recordSaveOutcome (W.save_later hentry₂ h₃) (houtcome outcome rfl)
        | error _ => exact S.saveFailed true

/-- **A save is sent on the terms**, whichever way it goes. -/
theorem applySaveEntry (hentry : W.save s entry) :
    W.Keeps .write j (applySaveEntry hash entry) s := by
  refine Fine.attempt (S.look rfl) fun size t₁ h₁ _ => ?_
  cases size with
  | error _ => exact S.saveFailed false
  | ok sized =>
    refine Fine.attempt (Q := fun _ _ => True) ?_ fun actualLocalHash t₂ h₂ _ => ?_
    · exact Fine.done (S.look rfl)
    have hentry₂ := W.save_later (W.save_later hentry h₁) h₂
    cases actualLocalHash with
    | error _ => exact S.saveFailed false
    | ok actualLocalHash =>
      refine Spec.Yields.ite (fun _ => S.saveFailed false) fun _ => ?_
      refine Spec.Yields.ite (fun _ => S.applyChunkedSaveEntry hentry₂) fun _ => ?_
      refine (S.readSnapshot hentry₂).attempt fun content t₃ h₃ hbytes => ?_
      cases content with
      | error _ => exact S.saveFailed false
      | ok content => exact S.applySmallSaveEntry (W.save_later hentry₂ h₃) (hbytes content rfl)

end Saves

namespace Rules

variable (R : W.Rules)

include R

/-! ### Queueing saves -/

theorem hashFile (name : LocalPath) : W.Keeps i j (hashFile hash name) s :=
  Fine.done (R.look rfl)

theorem renameDurable (source target : Path) :
    W.Keeps i j (renameDurable (.mirror source) (.mirror target)) s :=
  Fine.bind (R.rename source target) fun _ _ _ _ => R.look rfl

/-- The save of a local file is based on what its entry says. -/
theorem enqueueLocalSaveInner (path : Path) (allow : Bool) :
    W.Fine i j (enqueueLocalSaveInner hash path allow) (fun entry t => W.save t entry) s := by
  refine (R.get path).bind fun found t₁ _ hfound => ?_
  refine Fine.bind (yields_ensure _ _) fun _ t₂ h₂ _ => ?_
  refine Fine.bind (yields_ensure _ _) fun _ t₃ h₃ _ => ?_
  refine Fine.bind (R.look rfl) fun content t₄ h₄ _ => ?_
  refine R.enqueueSave rfl ?_
  cases found with
  | none => exact W.base_none _ _
  | some e =>
    simp only [baseHash]
    split
    · exact W.base_none _ _
    · exact W.base_later (W.base_later (W.base_later (hfound e rfl) h₂) h₃) h₄

/-- The entry that is read back is one to base a save on. -/
theorem recordCleanLocalHash' (key : Spelling) (localHash : String) :
    W.Fine i j (Mirror.recordCleanLocalHash key localHash)
    (fun r t => W.base t key.path r.1.remoteHash) s := by
  refine (R.recordCleanLocalHash key localHash).bind fun _ t₁ _ _ => ?_
  refine Fine.bind (R.look rfl) fun _ t₂ _ _ => ?_
  refine (R.get key.path).bind fun updated t₃ _ hupdated => ?_
  refine Fine.bind (yields_orElseFail _ _) fun e t₄ h₄ he => ?_
  exact fine_pure fun t ht => W.base_later (W.base_later (hupdated e he) h₄) ht

variable {entry : Entry}

/-- An integrity check yields the entry as it is now. -/
theorem syncCachedFileIntegrity (key : Spelling) (hentry : W.base s key.path entry.remoteHash) :
    W.Fine i j (syncCachedFileIntegrity hash key entry)
    (fun r t => W.base t key.path r.1.remoteHash) s := by
  refine Fine.bind (R.look rfl) fun isFile t₁ h₁ _ => ?_
  have hentry₁ := W.base_later hentry h₁
  refine Spec.Yields.ite (fun _ => fine_pure fun t ht => W.base_later hentry₁ ht) fun _ => ?_
  refine (R.hashFile _).bind fun actualHash t₂ h₂ _ => ?_
  have hentry₂ := W.base_later hentry₁ h₂
  refine Spec.Yields.ite (fun _ => ?_) fun _ => ?_
  · refine Spec.Yields.ite (fun _ => ?_) fun _ => R.recordCleanLocalHash' key _
    exact fine_pure fun t ht => W.base_later hentry₂ ht
  · refine Fine.bind (R.look rfl) fun content t₃ h₃ _ => ?_
    refine Spec.Yields.ite (fun _ => R.recordCleanLocalHash' key _) fun _ => ?_
    refine (R.enqueueSave rfl (W.base_later hentry₂ h₃)).bind fun _ t₄ _ _ => ?_
    refine (R.get key.path).bind fun updated t₅ _ hupdated => ?_
    refine Fine.bind (yields_orElseFail _ _) fun e t₆ h₆ he => ?_
    exact fine_pure fun t ht => W.base_later (W.base_later (hupdated e he) h₆) ht

/-- The loop over the entries, each of which can be the base of a save. -/
theorem recoverEntries {entries : List (Spelling × Entry)}
    (h : ∀ x ∈ entries, W.base s x.1.path x.2.remoteHash) :
    W.Keeps i j (recoverEntries hash entries) s := by
  induction entries generalizing s with
  | nil => exact fine_done
  | cons x rest ih =>
    obtain ⟨key, entry⟩ := x
    refine (R.syncCachedFileIntegrity key (h (key, entry) List.mem_cons_self)).attempt
      fun r t₁ h₁ _ => ?_
    have hrest : ∀ x ∈ rest, W.base t₁ x.1.path x.2.remoteHash :=
      fun x hx => W.base_later (h x (List.mem_cons_of_mem _ hx)) h₁
    split
    · refine Fine.bind (R.look rfl) fun _ t₂ h₂ _ => ?_
      exact ih fun x hx => W.base_later (hrest x hx) h₂
    · exact ih hrest

theorem recoverLocalEdits : W.Keeps i j (recoverLocalEdits hash) s :=
  R.hydratedEntries.bind fun _ _ _ hentries => R.recoverEntries hentries

/-! ### Conflicts -/

theorem writeDurableMirror (path : Path) (content : List UInt8) :
    W.Keeps i j (writeDurableMirror path content) s := by
  refine Fine.bind (R.look rfl) fun _ t₁ _ _ => ?_
  refine Fine.bind (R.look rfl) fun now t₂ _ _ => ?_
  refine Fine.attempt (Q := fun _ _ => True) ?_ fun r t₃ _ _ => ?_
  · refine (R.createNew _).bind fun file t₃ _ hloose => ?_
    refine (R.writeAll hloose 0 content).bind fun _ t₄ _ _ => ?_
    refine Fine.bind (R.look rfl) fun _ t₅ _ _ => ?_
    exact R.renameDurable _ _
  · cases r with
    | ok _ => exact fine_done
    | error message => exact (R.removeFile _).bind fun _ _ _ _ => Spec.Yields.err

/-- The local side of a conflict becomes a save over what was found. -/
theorem prepareAcceptLocalConflict (id : ℕ) :
    W.Fine i j (prepareAcceptLocalConflict hash id) (fun entry t => W.save t entry) s := by
  refine (R.conflictQueueEntry id).bind fun found t₁ _ hfound => ?_
  refine Fine.bind (yields_orElseFail _ _) fun row t₂ h₂ hrow => ?_
  refine Fine.bind (R.look rfl) fun newer t₃ h₃ _ => ?_
  refine Fine.bind (yields_ensure _ _) fun _ t₄ h₄ _ => ?_
  refine Fine.bind (yields_orElseFail _ _) fun snapshotPath t₅ h₅ hsnapshot => ?_
  refine (R.hashFile _).bind fun snapshotHash t₆ h₆ _ => ?_
  refine Fine.bind (yields_ensure _ _) fun _ t₇ h₇ _ => ?_
  have hrow₄ := W.row_later (W.row_later (W.row_later (hfound row hrow) h₂) h₃) h₄
  have hrow₇ := W.row_later (W.row_later (W.row_later hrow₄ h₅) h₆) h₇
  refine (R.acceptLocal hrow₇).bind fun _ t₈ h₈ _ => ?_
  exact fine_pure fun t ht => W.row_save (W.row_later (W.row_later hrow₇ h₈) ht) hsnapshot

/-- The remote side of a conflict becomes the local file. -/
theorem acceptRemoteConflict (id : ℕ) : W.Keeps i j (acceptRemoteConflict hash id) s := by
  refine (R.conflictQueueEntry id).bind fun found t₁ _ hfound => ?_
  refine Fine.bind (yields_orElseFail _ _) fun row t₂ h₂ hrow => ?_
  refine Fine.bind (R.look rfl) fun newer t₃ h₃ _ => ?_
  refine Fine.bind (yields_ensure _ _) fun _ t₄ h₄ _ => ?_
  refine Fine.bind (yields_orElseFail _ _) fun copy t₅ h₅ _ => ?_
  refine Fine.bind (yields_ensure _ _) fun _ t₆ h₆ _ => ?_
  refine Fine.bind (yields_orElseFail _ _) fun remoteHash t₇ h₇ hactual => ?_
  have hrow₄ := W.row_later (W.row_later (W.row_later (hfound row hrow) h₂) h₃) h₄
  have hrow₇ := W.row_later (W.row_later (W.row_later hrow₄ h₅) h₆) h₇
  refine (R.hashFile _).bind fun localHash t₈ h₈ _ => ?_
  refine Fine.bind (yields_ensure _ _) fun _ t₉ h₉ _ => ?_
  refine Fine.bind (R.look rfl) fun content t₁₀ h₁₀ _ => ?_
  refine Fine.bind (yields_ensure _ _) fun _ t₁₁ h₁₁ _ => ?_
  refine (R.writeDurableMirror _ _).bind fun _ t₁₂ h₁₂ _ => ?_
  have hrow₁₀ := W.row_later (W.row_later (W.row_later hrow₇ h₈) h₉) h₁₀
  have hrow₁₂ := W.row_later (W.row_later hrow₁₀ h₁₁) h₁₂
  exact (R.acceptRemote hrow₁₂ hactual).bind fun _ _ _ _ => R.look rfl

theorem restoreLatestDirtySnapshot (path : Path) :
    W.Keeps i j (restoreLatestDirtySnapshot hash path) s := by
  refine Fine.bind (R.look rfl) fun latest t₁ _ _ => ?_
  refine Fine.bind (yields_orElseFail _ _) fun save t₂ _ _ => ?_
  refine (R.hashFile _).bind fun snapshotHash t₃ _ _ => ?_
  refine Fine.bind (yields_ensure _ _) fun _ t₄ _ _ => ?_
  refine Fine.bind (R.look rfl) fun _ t₅ _ _ => ?_
  refine (R.createFile _).bind fun file t₆ _ hloose => ?_
  refine Fine.bind (R.look rfl) fun content t₇ h₇ _ => ?_
  refine (R.writeAll (W.loose_later hloose h₇) 0 content).bind fun _ t₈ _ _ => ?_
  exact Fine.bind (R.look rfl) fun _ t₉ _ _ => R.renameDurable _ _

/-! ### Hydration -/

theorem adoptIfSame (name : LocalPath) (remoteHash message : String) :
    W.Keeps i j (adoptIfSame hash name remoteHash message) s := by
  refine (R.hashFile _).bind fun existingHash t₁ _ _ => ?_
  exact Spec.Yields.ite (fun _ => fine_done) fun _ => Spec.Yields.err

/-- The local file makes way for the remote one, or the hydration is refused. -/
theorem prepareHydrationTarget (path : Path) (remoteHash : String) :
    W.Keeps i j (prepareHydrationTarget hash path remoteHash) s := by
  refine (R.get path).bind fun found t₁ _ hfound => ?_
  refine Fine.bind (R.look rfl) fun present t₂ h₂ _ => ?_
  cases found with
  | none => exact Spec.Yields.ite (fun _ => R.adoptIfSame _ _ _) fun _ => fine_done
  | some entry =>
    refine Spec.Yields.ite (fun _ => ?_) fun _ => ?_
    · exact Fine.bind (yields_ensure _ _) fun _ t₃ _ _ => R.adoptIfSame _ _ _
    · refine (R.syncCachedFileIntegrity (plain path) (W.base_later (hfound entry rfl) h₂)).bind
        fun synced t₃ _ _ => ?_
      exact Fine.done (yields_ensure _ _)

/-- A staging file that is complete takes its place. -/
theorem finishPart (part path : Path) (remoteHash : String) :
    W.Keeps i j (finishPart hash (.mirror part) path remoteHash) s := by
  refine Fine.bind (R.look rfl) fun _ t₁ _ _ => ?_
  refine (R.hashFile _).bind fun localHash t₂ _ _ => ?_
  refine Fine.bind (yields_ensure _ _) fun _ t₃ _ _ => ?_
  refine (R.prepareHydrationTarget path remoteHash).bind fun target t₄ _ _ => ?_
  cases target with
  | replaceWithPart => exact (R.renameDurable _ _).done
  | adoptExisting existingHash => exact (R.removeFile _).done

/-- A file of a batch is put in its place as a whole. -/
theorem recordBatchFile (file : BatchReadFile) : W.Keeps i j (recordBatchFile hash file) s := by
  refine Fine.bind (R.look rfl) fun _ t₁ _ _ => ?_
  refine Fine.attempt (Q := fun _ _ => True) ?_ fun r t₂ _ _ => ?_
  · refine (R.createFile _).bind fun handle t₂ _ hloose => ?_
    refine (R.writeAll hloose 0 file.content).bind fun _ t₃ _ _ => ?_
    refine (R.finishPart _ _ _).bind fun localHash t₄ _ _ => ?_
    exact (R.recordHydrated _ _ _).bind fun _ _ _ _ => R.look rfl
  · cases r with
    | ok _ => exact fine_done
    | error message => exact (R.removeFile _).bind fun _ _ _ _ => Spec.Yields.err

/-- The loop over chunks writes to a file that nobody keeps. -/
theorem readChunks (path : Path) {handle : ℕ} (len fuel : ℕ) :
    ∀ {s : World} (offset : ℕ), W.loose s handle →
      W.Keeps i j (readChunks path handle len fuel offset) s := by
  induction fuel with
  | zero => exact fun _ _ => Spec.Yields.err
  | succ fuel ih =>
    intro s offset hloose
    refine Fine.bind (R.look rfl) fun stopped t₁ h₁ _ => ?_
    refine Spec.Yields.ite (fun _ => fine_done) fun _ => ?_
    refine Fine.bind (R.look rfl) fun chunk t₂ h₂ _ => ?_
    have hloose₂ := W.loose_later (W.loose_later hloose h₁) h₂
    refine (R.writeAll hloose₂ offset _).bind fun _ t₃ h₃ _ => ?_
    refine Spec.Yields.ite (fun _ => ?_) fun _ => ih _ (W.loose_later hloose₂ h₃)
    exact Fine.done (yields_ensure _ _)

theorem hydratePart (path : Path) (len fuel : ℕ) :
    W.Keeps i j (hydratePart hash path len fuel) s := by
  refine (R.createFile _).bind fun handle t₁ _ hloose => ?_
  refine (R.readChunks path len fuel 0 hloose).bind fun remoteHash t₂ _ _ => ?_
  cases remoteHash with
  | none => exact fine_done
  | some remoteHash => exact (R.finishPart _ _ _).done

/-- A hydration, to its end or to the first failure. -/
theorem hydrate (path : Spelling) (fuel : ℕ) : W.Keeps i j (hydrate hash path fuel) s := by
  refine Fine.bind (R.look rfl) fun _ t₁ _ _ => ?_
  refine (R.hydratePart _ _ fuel).attempt fun r t₂ _ _ => ?_
  match r with
  | .error message => exact (R.removeFile _).bind fun _ _ _ _ => Spec.Yields.err
  | .ok none => exact (R.removeFile _).done
  | .ok (some (remoteHash, localHash)) =>
    refine (R.recordHydrated _ _ _).bind fun _ t₃ _ _ => ?_
    refine Fine.bind (R.look rfl) fun found t₄ _ _ => ?_
    refine Fine.bind (yields_orElseFail _ _) fun _ t₅ _ _ => ?_
    exact Fine.done (R.look rfl)

theorem readBatch (paths : List Spelling) : W.Keeps i j (readBatch paths) s := by
  induction paths generalizing s with
  | nil => exact fine_done
  | cons path rest ih =>
    refine Fine.bind (R.look rfl) fun file t₁ _ _ => ?_
    exact Fine.done ih

theorem recordBatchFiles (files : List BatchReadFile) :
    W.Keeps i j (recordBatchFiles hash files) s := by
  induction files generalizing s with
  | nil => exact fine_done
  | cons file rest ih => exact (R.recordBatchFile file).attempt fun _ _ _ _ => ih

/-- Hydrating a batch. -/
theorem batchHydrate (paths : List Spelling) : W.Keeps i j (batchHydrate hash paths) s := by
  refine Fine.bind (R.look rfl) fun stopped t₁ _ _ => ?_
  refine Spec.Yields.ite (fun _ => fine_done) fun _ => ?_
  exact (R.readBatch paths).bind fun files _ _ _ => R.recordBatchFiles files

theorem hydrateOpenBatch (path : Spelling) : W.Keeps i j (hydrateOpenBatch hash path) s := by
  refine Fine.bind (R.look rfl) fun stopped t₁ _ _ => ?_
  refine Spec.Yields.ite (fun _ => fine_done) fun _ => ?_
  refine (R.readBatch [path]).bind fun files t₂ _ _ => ?_
  cases files with
  | nil => exact fine_done
  | cons file rest =>
    refine (R.recordBatchFile file).bind fun _ t₃ _ _ => ?_
    refine Fine.bind (R.look rfl) fun found t₄ _ _ => ?_
    exact Fine.done (yields_orElseFail _ _)

theorem openHydrate (path : Spelling) (batchMaxFileBytes fuel : ℕ) :
    W.Keeps i j (openHydrate hash path batchMaxFileBytes fuel) s := by
  refine Spec.Yields.ite (fun _ => ?_) fun _ => R.hydrate path fuel
  refine (R.hydrateOpenBatch path).bind fun outcome t₁ _ _ => ?_
  cases outcome with
  | none => exact R.hydrate path fuel
  | some outcome => exact fine_done

variable {path : Path}

/-- A missing local file is brought back from its snapshot. -/
theorem restoreIfMissing (hentry : W.base s path entry.remoteHash) :
    W.Fine i j (restoreIfMissing hash path entry) (fun e t => W.base t path e.remoteHash) s := by
  refine Fine.bind (R.look rfl) fun present t₁ h₁ _ => ?_
  refine Spec.Yields.ite (fun _ => ?_) fun _ => fine_pure fun t ht =>
    W.base_later (W.base_later hentry h₁) ht
  refine (R.restoreLatestDirtySnapshot path).bind fun _ t₂ _ _ => ?_
  refine (R.get path).bind fun restored t₃ _ hrestored => ?_
  cases restored with
  | none => exact Spec.Yields.err
  | some e => exact fine_pure fun t ht => W.base_later (hrestored e rfl) ht

theorem openCached (path : Path) (force : Bool) : W.Keeps i j (openCached hash path force) s := by
  refine (R.get path).bind fun found t₁ _ hfound => ?_
  cases found with
  | none => exact fine_done
  | some entry =>
    refine Spec.Yields.ite (fun _ => fine_done) fun _ => ?_
    refine (R.restoreIfMissing (hfound entry rfl)).bind fun entry' t₂ _ hentry' => ?_
    refine Fine.bind (R.look rfl) fun present t₃ h₃ _ => ?_
    refine Spec.Yields.ite (fun _ => ?_) fun _ => fine_done
    exact (R.syncCachedFileIntegrity (plain path) (W.base_later hentry' h₃)).done

/-- An open, from the cache or from the agent. -/
theorem openPath (path : Spelling) (force : Bool) (batchMaxFileBytes fuel : ℕ) :
    W.Keeps i j (openPath hash path force batchMaxFileBytes fuel) s := by
  refine (R.openCached path.path force).bind fun cached t₁ _ _ => ?_
  refine Spec.Yields.ite (fun _ => fine_done) fun _ => ?_
  exact (R.openHydrate path batchMaxFileBytes fuel).done

theorem normalizePrefetchPath (path : Spelling) :
    W.Keeps i j (normalizePrefetchPath hash path) s := by
  refine (R.get path.path).bind fun found t₁ _ hfound => ?_
  cases found with
  | none => exact fine_done
  | some entry =>
    refine (R.syncCachedFileIntegrity (plain path.path) (hfound entry rfl)).bind
      fun synced t₂ _ _ => ?_
    exact Fine.done (yields_ensure _ _)

theorem prefetchPaths (paths : List Spelling) : W.Keeps i j (prefetchPaths hash paths) s := by
  induction paths generalizing s with
  | nil => exact fine_done
  | cons path rest ih =>
    refine (R.normalizePrefetchPath path).attempt fun r t₁ _ _ => ?_
    refine Fine.bind ih fun requested t₂ _ _ => ?_
    cases r <;> exact fine_done

/-- Paths that need no hydration are left out before the batch is read. -/
theorem prefetch (paths : List Spelling) : W.Keeps i j (prefetch hash paths) s := by
  refine (R.prefetchPaths paths).bind fun requested t₁ _ _ => ?_
  exact Spec.Yields.ite (fun _ => fine_done) fun _ => R.batchHydrate requested

/-! ### Validation and scans -/

/-- The entry of a file after an integrity check. -/
theorem syncedEntry (path : Path) :
    W.Fine i j (syncedEntry hash path) (fun e t => W.base t path e.remoteHash) s := by
  refine (R.get path).bind fun found t₁ _ hfound => ?_
  refine Fine.bind (yields_orElseFail _ _) fun entry t₂ h₂ hentry => ?_
  refine (R.syncCachedFileIntegrity (plain path) (W.base_later (hfound entry hentry) h₂)).bind
    fun synced t₃ _ hsynced => ?_
  exact fine_pure fun t ht => W.base_later hsynced ht

/-- Only a hash that the entry has already becomes its remote hash. -/
theorem recordValidated (validated : Validated) (hentry : W.base s path entry.remoteHash) :
    W.Keeps i j (recordValidated path entry validated) s := by
  cases validated with
  | missing => exact R.recordValidation _ (W.base_none _ _)
  | notRegular =>
    exact Spec.Yields.ite (fun _ => R.recordValidation _ (W.base_none _ _))
      fun _ => R.recordValidation _ (W.base_none _ _)
  | file remoteHash =>
    refine Spec.Yields.ite (fun heq => R.recordValidation _ ?_)
      fun _ => R.recordValidation _ (W.base_none _ _)
    rw [heq]
    exact hentry

theorem recordValidationFile (path : Path) (validated : Validated) :
    W.Keeps i j (recordValidationFile hash path validated) s := by
  refine (R.syncedEntry path).bind fun entry t₁ _ hentry => ?_
  exact Spec.Yields.ite (fun _ => R.recordValidation _ (W.base_none _ _))
    fun _ => R.recordValidated validated hentry

/-- A validation brings a hash of the remote file. -/
theorem validate (path : Path) : W.Keeps i j (validate hash path) s := by
  refine (R.syncedEntry path).bind fun entry t₁ _ _ => ?_
  refine Spec.Yields.ite (fun _ => R.recordValidation _ (W.base_none _ _)) fun _ => ?_
  refine Fine.bind (R.look rfl) fun stopped t₂ _ _ => ?_
  refine Spec.Yields.ite (fun _ => fine_done) fun _ => ?_
  refine Fine.bind (R.look rfl) fun validated t₃ _ _ => ?_
  cases validated with
  | none => exact (R.markValidationError path).1
  | some validated => exact R.recordValidationFile path validated

theorem validateFiles (paths : List Path) : W.Keeps i j (validateFiles paths) s := by
  induction paths generalizing s with
  | nil => exact fine_done
  | cons path rest ih =>
    refine Fine.bind (R.look rfl) fun validated t₁ _ _ => ?_
    exact Fine.done ih

theorem recordValidations (answers : List (Path × Option Validated)) :
    W.Keeps i j (recordValidations hash answers) s := by
  induction answers generalizing s with
  | nil => exact fine_done
  | cons x rest ih =>
    match x with
    | (path, none) => exact (R.markValidationError path).2.bind fun _ _ _ _ => ih
    | (path, some validated) =>
      exact (R.recordValidationFile path validated).attempt fun _ _ _ _ => ih

/-- Many validations at once. -/
theorem refresh (paths : List Path) : W.Keeps i j (refresh hash paths) s := by
  refine Fine.bind (R.look rfl) fun stopped t₁ _ _ => ?_
  refine Spec.Yields.ite (fun _ => fine_done) fun _ => ?_
  exact (R.validateFiles paths).bind fun answers _ _ _ => R.recordValidations answers

/-- A scan brings no hashes. -/
theorem scan : W.Keeps i j scan s := by
  refine Fine.bind (R.look rfl) fun stopped t₁ _ _ => ?_
  refine Spec.Yields.ite (fun _ => fine_done) fun _ => ?_
  refine Fine.bind (yields_answer (R.look rfl)) fun entries t₂ _ hentries => ?_
  obtain ⟨_, c, w, u, hanswer⟩ := hentries
  exact R.upsertMetadataBatch (answer_scan hanswer)

/-! ### Saves -/

/-- A flush queues the local file and sends it. -/
theorem flush (path : Path) (adopt : Bool) : W.Keeps .write j (flush hash path adopt) s := by
  refine (R.enqueueLocalSaveInner path adopt).bind fun queued t₁ _ hqueued => ?_
  exact (R.applySaveEntry hqueued).done

/-- A flush that is only prepared leaves its save in the queue. -/
theorem prepareFlush (path : Path) (adopting : Bool) :
    W.Keeps i j (prepareFlush hash path adopting) s := by
  refine Fine.attempt (R.look rfl) fun content t₁ _ _ => ?_
  have hqueue : W.Keeps i j (do
      let _ ← Mirror.enqueueLocalSaveInner hash path adopting
      pure ()) t₁ :=
    (R.enqueueLocalSaveInner path adopting).done
  cases content with
  | error _ => exact hqueue
  | ok content => exact Spec.Yields.ite (fun _ => fine_done) fun _ => hqueue

theorem flushQueued (id : ℕ) : W.Keeps .write j (flushQueued hash id) s := by
  refine (R.saveQueueEntry id).bind fun found t₁ _ hfound => ?_
  refine Fine.bind (yields_orElseFail _ _) fun queued t₂ h₂ hqueued => ?_
  exact (R.applySaveEntry (W.save_later (hfound queued hqueued) h₂)).done

/-- The loop over the saves that wait. -/
theorem replayEntries {entries : List SaveQueueEntry} (h : ∀ entry ∈ entries, W.save s entry) :
    W.Keeps .write j (replayEntries hash entries) s := by
  induction entries generalizing s with
  | nil => exact fine_done
  | cons entry rest ih =>
    refine (R.applySaveEntry (h entry List.mem_cons_self)).bind fun attempt t₁ h₁ _ => ?_
    refine Spec.Yields.ite (fun _ => fine_done) fun _ => ?_
    exact ih fun entry' hentry' => W.save_later (h entry' (List.mem_cons_of_mem _ hentry')) h₁

theorem replayQueuedSaves (limit : Option ℕ) : W.Keeps .write j (replayQueuedSaves hash limit) s :=
  (R.pendingSaveEntries limit).bind fun _ _ _ hrows => R.replayEntries hrows

/-- The local side of a conflict is sent. -/
theorem acceptLocalConflict (id : ℕ) : W.Keeps .write j (acceptLocalConflict hash id) s := by
  refine (R.prepareAcceptLocalConflict id).bind fun queued t₁ _ hqueued => ?_
  exact (R.applySaveEntry hqueued).done

/-! ### Requests -/

/-- **Every request that a lane may run keeps the terms.** -/
theorem program (job : Job) (hallowed : job.allowed i = true) :
    W.Keeps i j (job.program hash) s := by
  cases job with
  | scan => exact R.scan
  | openPath path force batchMaxFileBytes fuel => exact R.openPath path force batchMaxFileBytes fuel
  | tryOpen path force => exact (R.openCached path.path force).done
  | prefetch paths => exact R.prefetch paths
  | batchHydrate paths => exact R.batchHydrate paths
  | validate path => exact R.validate path
  | refresh paths => exact R.refresh paths
  | prepareFlush path adopting => exact R.prepareFlush path adopting
  | recoverLocalEdits => exact R.recoverLocalEdits
  | acceptRemoteConflict queueId => exact R.acceptRemoteConflict queueId
  | flush path | adopt path =>
    obtain rfl : i = .write := by simpa [Job.allowed] using hallowed
    exact R.flush path _
  | flushQueued queueId =>
    obtain rfl : i = .write := by simpa [Job.allowed] using hallowed
    exact R.flushQueued queueId
  | flushQueue limit =>
    obtain rfl : i = .write := by simpa [Job.allowed] using hallowed
    exact R.replayQueuedSaves limit
  | acceptLocalConflict queueId =>
    obtain rfl : i = .write := by simpa [Job.allowed] using hallowed
    exact R.acceptLocalConflict queueId

/-- **Requests keep to the terms if their calls do.** -/
theorem laneBody (job : Job) : W.Keeps i j (laneBody hash i job) s := by
  unfold Mirror.laneBody
  refine Spec.Yields.ite (fun hallowed => ?_) fun _ => fine_done
  refine (R.enter job).bind fun _ t₁ _ _ => ?_
  exact (R.program job hallowed).attempt fun _ t₂ _ _ => R.leave

/-- The terms are met if what others do keeps them as well. -/
theorem met (hmove : ∀ m s t, W.terms.inv s → W.calm (.env m) s = true → happen m s = some t →
      W.terms.inv t ∧ ∀ i, W.terms.rely i s t) :
    Spec.Met W.terms (sidecar hash) W.calm where
  body _ j _ _ _ := Spec.Safe.mono (R.laneBody j) fun _ _ _ _ => trivial
  move := hmove

end Rules

end Walk

end RemoteMirror.Mirror
