/-
**The requests of a sidecar.**

The functions of `crates/nrm-sidecar/src/main.rs` that read or change the mirror: hydration in
chunks and in batches, opening, prefetching, validation, the save queue with its replay, and the
resolution of conflicts.  A function is a program over the calls of `MirrorCalls`; `?` ends it at
the first call that fails.

Main definitions:

* `Mirror.enqueueSave`, `Mirror.syncCachedFileIntegrity`;
* `Mirror.prepareHydrationTarget`, `Mirror.recordBatchFile`,
  `Mirror.hydrate` — hydration;
* `Mirror.applySaveEntry`, `Mirror.recordSaveOutcome` — saves;
* `Mirror.Job.program`, `Mirror.sidecar` — requests on lanes.
-/

import RemoteMirror.Interact
import RemoteMirror.MirrorCalls

namespace RemoteMirror.Mirror

open Agent (Path)
open Interact (Prog Machine)

/-- What each call answers. -/
abbrev Reply (e : Call) : Type := Except String (Ans e)

/-- Functions of the sidecar. -/
abbrev SidecarM := Prog Call Reply String

/-! ### Calls as functions -/

/-- A result, or an error that ends the function. -/
def orFail {α : Type} : Except String α → SidecarM α
  | .ok a => pure a
  | .error message => .err message

/-- A call followed by `?`. -/
def run (e : Call) : SidecarM (Ans e) := do
  let reply ← Prog.ask e
  orFail reply

/-- A call whose failure is ignored. -/
def ignore (e : Call) : SidecarM Unit := do
  let _ ← Prog.ask e
  pure ()

def mayFail : SidecarM Unit := run .mayFail

def nowMs : SidecarM ℕ := run .nowMs

def nanos : SidecarM ℕ := run .nanos

def preempted : SidecarM Bool := run .preempted

def get (path : Path) : SidecarM (Option Entry) := run (.get path)

def latestUnresolved (path : Path) : SidecarM (Option Row) := run (.latestUnresolved path)

def fileExists (name : LocalPath) : SidecarM Bool := run (.fileExists name)

def readFile (name : LocalPath) : SidecarM (List UInt8) := run (.readFile name)

def createFile (name : LocalPath) : SidecarM ℕ := run (.createFile name)

def createNew (name : LocalPath) : SidecarM ℕ := run (.createNew name)

def writeAll (inode offset : ℕ) (content : List UInt8) : SidecarM Unit :=
  run (.writeAll inode offset content)

/-- `rename_durable`: the file is in its place even if syncing the directory fails. -/
def renameDurable (source target : LocalPath) : SidecarM Unit := do
  run (.rename source target)
  mayFail

/-- Some value, or this error. -/
def orElseFail {α : Type} (message : String) : Option α → SidecarM α
  | some a => pure a
  | none => .err message

/-- `bail!` unless this holds. -/
def ensure (b : Bool) (message : String) : SidecarM Unit := if b then pure () else .err message

/-! ### Queueing saves -/

/-- What `SELECT id, relative_path, expected_hash, local_hash, snapshot_path` gives. -/
structure SaveQueueEntry where
  id : ℕ
  path : Path
  expectedHash : Option String
  localHash : String
  snapshotPath : LocalPath
  deriving DecidableEq, Repr

/-- A row as an entry; rows without a snapshot are never selected. -/
def Row.toEntry (row : Row) : Option SaveQueueEntry :=
  row.snapshotPath.map fun snapshotPath =>
    ⟨row.id, row.path, row.expectedHash, row.localHash, snapshotPath⟩

section Functions

variable (hash : List UInt8 → String)

def hashFile (name : LocalPath) : SidecarM String := do
  let content ← readFile name
  pure (hash content)

/-- `enqueue_save`, with `write_save_snapshot` -/
def enqueueSave (path : Path) (localHash : String) (expectedHash : Option String)
    (content : List UInt8) : SidecarM SaveQueueEntry := do
  let latest ← latestUnresolved path
  let effectiveExpectedHash := (latest.map Row.localHash).or expectedHash
  let now ← nowMs
  let snapshotPath := LocalPath.snapshot (safeName path) now localHash
  run (.writeDurable snapshotPath content)
  let queueId ← run (.insertSave path effectiveExpectedHash localHash snapshotPath)
  run (.indexBytes path localHash content)
  pure ⟨queueId, path, effectiveExpectedHash, localHash, snapshotPath⟩

/-- The remote file was deleted, so that saving would create it again. -/
def Entry.requiresExplicitRecreate (entry : Entry) : Bool :=
  entry.validation = .deleted || (entry.validation = .conflict && entry.remoteHash.isNone)

/-- The hash a save of this entry expects. -/
def baseHash (allowAdoptOrRecreate : Bool) : Option Entry → Option String
  | none => none
  | some entry =>
    if allowAdoptOrRecreate && entry.validation = .deleted then none else entry.remoteHash

def enqueueLocalSaveInner (path : Path) (allowAdoptOrRecreate : Bool) :
    SidecarM SaveQueueEntry := do
  let entry ← get path
  ensure (entry.isSome || allowAdoptOrRecreate)
    "not tracked in the mirror; use RemoteAdopt to create it remotely"
  ensure (!(entry.any Entry.requiresExplicitRecreate) || allowAdoptOrRecreate)
    "was deleted remotely; use RemoteAdopt to recreate it"
  let content ← readFile (.mirror path)
  enqueueSave path (hash content) (baseHash allowAdoptOrRecreate entry) content

/-- `record_clean_local_hash`, and the entry after it -/
def recordCleanLocalHash (key : Spelling) (localHash : String) : SidecarM (Entry × Bool) := do
  run (.recordCleanLocalHash key localHash)
  run (.indexFile key localHash)
  let updated ← get key.path
  let entry ← orElseFail "verified file lost mirror metadata" updated
  pure (entry, false)

/-- `sync_cached_file_integrity`; the flag says that a save was queued -/
def syncCachedFileIntegrity (key : Spelling) (entry : Entry) : SidecarM (Entry × Bool) := do
  let isFile ← fileExists (.mirror key.path)
  if entry.state ≠ .hydrated ∨ isFile = false then pure (entry, false)
  else do
    let actualHash ← hashFile hash (.mirror key.path)
    let recordedHash := entry.localHash.or entry.remoteHash
    if recordedHash = some actualHash then
      if entry.localHash = some actualHash then pure (entry, false)
      else recordCleanLocalHash key actualHash
    else do
      let content ← readFile (.mirror key.path)
      if recordedHash = some (hash content) then recordCleanLocalHash key (hash content)
      else do
        let _ ← enqueueSave key.path (hash content) entry.remoteHash content
        let updated ← get key.path
        let entry ← orElseFail "queued modified file lost mirror metadata" updated
        pure (entry, true)

/-- The loop of `recover_local_edits`; an error about one entry does not end it. -/
def recoverEntries : List (Spelling × Entry) → SidecarM Unit
  | [] => pure ()
  | (key, entry) :: rest => do
      let synced ← (syncCachedFileIntegrity hash key entry).attempt
      match synced with
      | .ok (_, true) => do
          let _ ← latestUnresolved key.path
          recoverEntries rest
      | _ => recoverEntries rest

def recoverLocalEdits : SidecarM Unit := do
  let entries ← run .hydratedEntries
  recoverEntries hash entries

/-! ### Conflicts -/

/-- `write_durable_file` for a file of the mirror -/
def writeDurableMirror (path : Path) (content : List UInt8) : SidecarM Unit := do
  mayFail
  let now ← nanos
  let tmp := withPart path ("tmp-" ++ toString now)
  let install ← (do
    let file ← createNew tmp
    writeAll file 0 content
    mayFail
    renameDurable tmp (.mirror path) : SidecarM Unit).attempt
  match install with
  | .ok () => pure ()
  | .error message => do
      ignore (.removeFile tmp)
      .err message

def prepareAcceptLocalConflict (queueId : ℕ) : SidecarM SaveQueueEntry := do
  let found ← run (.conflictQueueEntry queueId)
  let row ← orElseFail "queued save is not a conflict" found
  let newer ← run (.hasNewerUnresolved row.path row.id)
  ensure (!newer) "cannot resolve conflict because newer queued saves exist"
  let snapshotPath ← orElseFail "conflict has no durable local snapshot" row.snapshotPath
  let snapshotHash ← hashFile hash snapshotPath
  ensure (decide (snapshotHash = row.localHash)) "conflict snapshot hash mismatch"
  run (.acceptLocal row)
  pure ⟨row.id, row.path, row.conflictActualHash, row.localHash, snapshotPath⟩

def acceptRemoteConflict (queueId : ℕ) : SidecarM Unit := do
  let found ← run (.conflictQueueEntry queueId)
  let row ← orElseFail "queued save is not a conflict" found
  let newer ← run (.hasNewerUnresolved row.path row.id)
  ensure (!newer) "cannot resolve conflict because newer queued saves exist"
  let copy ← orElseFail "conflict has no saved remote copy" row.remoteConflictPath
  ensure (!row.remoteConflictTruncated) "the saved remote copy is partial"
  let recordedRemoteHash ← orElseFail "conflict has no recorded remote hash" row.conflictActualHash
  let currentLocalHash ← hashFile hash (.mirror row.path)
  ensure (decide (currentLocalHash = row.localHash)) "local mirror file changed since conflict"
  let content ← readFile copy
  ensure (decide (recordedRemoteHash = hash content)) "saved remote conflict copy hash mismatch"
  writeDurableMirror row.path content
  run (.acceptRemote row recordedRemoteHash)
  run (.indexBytes row.path recordedRemoteHash content)

def restoreLatestDirtySnapshot (path : Path) : SidecarM Unit := do
  let latest ← latestUnresolved path
  let save ← orElseFail "dirty but the local file is missing and no save snapshot exists"
    (latest.bind Row.toEntry)
  let snapshotHash ← hashFile hash save.snapshotPath
  ensure (decide (snapshotHash = save.localHash)) "queued save snapshot hash mismatch"
  mayFail
  let part := withPart path "nrm-restore-part"
  let file ← createFile part
  let content ← readFile save.snapshotPath
  writeAll file 0 content
  mayFail
  renameDurable part (.mirror path)

/-! ### Hydration -/

/-- What to do with the bytes that were read. -/
inductive HydrationInstall
  | replaceWithPart
  | adoptExisting (localHash : String)
  deriving DecidableEq, Repr

/-- An existing file is only adopted if it has the right bytes. -/
def adoptIfSame (name : LocalPath) (remoteHash message : String) : SidecarM HydrationInstall := do
  let existingHash ← hashFile hash name
  if existingHash = remoteHash then pure (.adoptExisting existingHash) else .err message

def prepareHydrationTarget (path : Path) (remoteHash : String) : SidecarM HydrationInstall := do
  let found ← get path
  let present ← fileExists (.mirror path)
  match found with
  | some entry =>
    if present = true ∧ entry.state ≠ .hydrated then do
      ensure (!entry.dirty) "skipped dirty local mirror file"
      adoptIfSame hash (.mirror path) remoteHash
        "skipped existing local mirror file without hydrated metadata"
    else do
      let (entry, _) ← syncCachedFileIntegrity hash (plain path) entry
      ensure (!entry.dirty) "skipped dirty local mirror file"
      pure .replaceWithPart
  | none =>
    if present = true then
      adoptIfSame hash (.mirror path) remoteHash "skipped existing unmanaged local mirror file"
    else pure .replaceWithPart

/-- The bytes in the staging file take the place of the local file, or are given up. -/
def install (part : LocalPath) (path : Path) (localHash : String) :
    HydrationInstall → SidecarM String
  | .replaceWithPart => do
      renameDurable part (.mirror path)
      pure localHash
  | .adoptExisting existingHash => do
      ignore (.removeFile part)
      pure existingHash

/-- The staging file is checked and installed. -/
def finishPart (part : LocalPath) (path : Path) (remoteHash : String) : SidecarM String := do
  mayFail
  let localHash ← hashFile hash part
  ensure (decide (localHash = remoteHash)) "hydration hash mismatch"
  let target ← prepareHydrationTarget hash path remoteHash
  install part path localHash target

def recordBatchFile (file : BatchReadFile) : SidecarM Unit := do
  mayFail
  let part := withPart file.path.path "nrm-batch-part"
  let result ← (do
    let handle ← createFile part
    writeAll handle 0 file.content
    let localHash ← finishPart hash part file.path.path file.hash
    run (.recordHydrated file.path file.hash localHash)
    run (.indexBytes file.path.path localHash file.content) : SidecarM Unit).attempt
  match result with
  | .ok () => pure ()
  | .error message => do
      ignore (.removeFile part)
      .err message

/-- The loop of `hydrate` over the chunks of a file; `none` if it is preempted. -/
def readChunks (path : Path) (handle len : ℕ) : ℕ → ℕ → SidecarM (Option String)
  | 0, _ => .err "remote read failed"
  | fuel + 1, offset => do
      let stopped ← preempted
      if stopped = true then pure none
      else do
        let chunk ← run (.readChunk path offset len)
        writeAll handle offset chunk.content
        if chunk.eof = true then do
          ensure (!chunk.hash.isEmpty) "remote read completed without a content hash"
          pure (some chunk.hash)
        else readChunks path handle len fuel (offset + chunk.content.length)

inductive HydrateOutcome
  | hydrated
  | preempted
  deriving DecidableEq, Repr

/-- The chunks are read into the staging file, which is checked and installed. -/
def hydratePart (path : Path) (len fuel : ℕ) : SidecarM (Option (String × String)) := do
  let part := withPart path "nrm-part"
  let handle ← createFile part
  let remoteHash ← readChunks path handle len fuel 0
  match remoteHash with
  | none => pure none
  | some remoteHash => do
      let localHash ← finishPart hash part path remoteHash
      pure (some (remoteHash, localHash))

/-- `hydrate`, with chunks of this length -/
def hydrateBy (len : ℕ) (path : Spelling) (fuel : ℕ) : SidecarM HydrateOutcome := do
  mayFail
  let part := withPart path.path "nrm-part"
  let hydrated ← (hydratePart hash path.path len fuel).attempt
  match hydrated with
  | .error message => do
      ignore (.removeFile part)
      .err message
  | .ok none => do
      ignore (.removeFile part)
      pure .preempted
  | .ok (some (remoteHash, localHash)) => do
      run (.recordHydrated path remoteHash localHash)
      let found ← get path.path
      let _ ← orElseFail "hydrated file was not recorded in mirror metadata" found
      run (.indexFile (plain path.path) localHash)
      pure .hydrated

def hydrate : Spelling → ℕ → SidecarM HydrateOutcome := hydrateBy hash defaultChunkSize

/-- The files of an answer to `ReadFiles`, one after the other. -/
def readBatch : List Spelling → SidecarM (List BatchReadFile)
  | [] => pure []
  | path :: rest => do
      let file ← (run (.readBatch path) : SidecarM (Option BatchReadFile))
      let files ← readBatch rest
      pure (file.toList ++ files)

/-- The loop of `batch_hydrate`; an error about one file does not end it. -/
def recordBatchFiles : List BatchReadFile → SidecarM Unit
  | [] => pure ()
  | file :: rest => do
      let _ ← (recordBatchFile hash file).attempt
      recordBatchFiles rest

def batchHydrate (paths : List Spelling) : SidecarM Unit := do
  let stopped ← preempted
  if stopped = true then pure ()
  else do
    let files ← readBatch paths
    recordBatchFiles hash files

/-- `hydrate_open_batch`; `none` if the agent sent no file -/
def hydrateOpenBatch (path : Spelling) : SidecarM (Option HydrateOutcome) := do
  let stopped ← preempted
  if stopped = true then pure (some .preempted)
  else do
    let files ← readBatch [path]
    match files with
    | [] => pure none
    | file :: _ => do
        recordBatchFile hash file
        let found ← get file.path.path
        let _ ← orElseFail "batch-open file was not recorded in mirror metadata" found
        pure (some .hydrated)

def openHydrate (path : Spelling) (batchMaxFileBytes fuel : ℕ) : SidecarM HydrateOutcome := do
  if 0 < batchMaxFileBytes then do
    let outcome ← hydrateOpenBatch hash path
    match outcome with
    | some outcome => pure outcome
    | none => hydrate hash path fuel
  else hydrate hash path fuel

/-- A dirty file that is missing comes back from its snapshot. -/
def restoreIfMissing (path : Path) (entry : Entry) : SidecarM Entry := do
  let present ← fileExists (.mirror path)
  if entry.dirty = true ∧ present = false then do
    restoreLatestDirtySnapshot hash path
    let restored ← get path
    orElseFail "restored file lost mirror metadata" restored
  else pure entry

/-- The part of `open` that needs no agent: whether the cached file is good enough. -/
def openCached (path : Path) (force : Bool) : SidecarM Bool := do
  let found ← get path
  match found with
  | none => pure false
  | some entry =>
    if entry.state ≠ .hydrated then pure false
    else do
      let entry ← restoreIfMissing hash path entry
      let present ← fileExists (.mirror path)
      if present = true then do
        let (entry, _) ← syncCachedFileIntegrity hash (plain path) entry
        pure (entry.dirty || !force)
      else pure false

/-- `open` -/
def openPath (path : Spelling) (force : Bool) (batchMaxFileBytes fuel : ℕ) : SidecarM Unit := do
  let cached ← openCached hash path.path force
  if cached = true then pure ()
  else do
    let _ ← openHydrate hash path batchMaxFileBytes fuel
    pure ()

def normalizePrefetchPath (path : Spelling) : SidecarM Spelling := do
  let found ← get path.path
  match found with
  | none => pure (plain path.path)
  | some entry => do
      let (entry, _) ← syncCachedFileIntegrity hash (plain path.path) entry
      ensure (!entry.dirty) "skipped dirty local mirror file"
      pure (plain path.path)

/-- The paths of `prefetch` that are not skipped. -/
def prefetchPaths : List Spelling → SidecarM (List Spelling)
  | [] => pure []
  | path :: rest => do
      let normalized ← (normalizePrefetchPath hash path).attempt
      let paths ← prefetchPaths rest
      match normalized with
      | .ok path => pure (path :: paths)
      | .error _ => pure paths

def prefetch (paths : List Spelling) : SidecarM Unit := do
  let requested ← prefetchPaths hash paths
  if requested.isEmpty = true then pure () else batchHydrate hash requested

/-! ### Validation and scans -/

/-- The entry as it is once local changes are noticed. -/
def syncedEntry (path : Path) : SidecarM Entry := do
  let found ← get path
  let entry ← orElseFail "not known in the mirror" found
  let (entry, _) ← syncCachedFileIntegrity hash (plain path) entry
  pure entry

/-- The end of `record_validation_file`: what the agent said about an entry that is not dirty. -/
def recordValidated (path : Path) (entry : Entry) (validated : Validated) : SidecarM Unit :=
  match validated with
  | .missing => run (.recordValidation path .deleted none)
  | .notRegular =>
    if none = entry.remoteHash then run (.recordValidation path .valid none)
    else run (.recordValidation path .stale none)
  | .file remoteHash =>
    if some remoteHash = entry.remoteHash then
      run (.recordValidation path .valid (some remoteHash))
    else run (.recordValidation path .stale none)

def recordValidationFile (path : Path) (validated : Validated) : SidecarM Unit := do
  let entry ← syncedEntry hash path
  if entry.dirty = true then run (.recordValidation path .dirty none)
  else recordValidated path entry validated

def validate (path : Path) : SidecarM Unit := do
  let entry ← syncedEntry hash path
  if entry.dirty = true then run (.recordValidation path .dirty none)
  else do
    let stopped ← preempted
    if stopped = true then pure ()
    else do
      let validated ← (run (.validateFile path) : SidecarM (Option Validated))
      match validated with
      | none => run (.markValidationError path)
      | some validated => recordValidationFile hash path validated

/-- The answer to `ValidateFiles`. -/
def validateFiles : List Path → SidecarM (List (Path × Option Validated))
  | [] => pure []
  | path :: rest => do
      let validated ← (run (.validateFile path) : SidecarM (Option Validated))
      let others ← validateFiles rest
      pure ((path, validated) :: others)

/-- The loop of `refresh_paths`; errors about files are reported, not passed on. -/
def recordValidations : List (Path × Option Validated) → SidecarM Unit
  | [] => pure ()
  | (path, none) :: rest => do
      ignore (.markValidationError path)
      recordValidations rest
  | (path, some validated) :: rest => do
      let _ ← (recordValidationFile hash path validated).attempt
      recordValidations rest

/-- `refresh_paths` -/
def refresh (paths : List Path) : SidecarM Unit := do
  let stopped ← preempted
  if stopped = true then pure ()
  else do
    let answers ← validateFiles paths
    recordValidations hash answers

/-- `scan`; the agent sends no hashes -/
def scan : SidecarM Unit := do
  let stopped ← preempted
  if stopped = true then pure ()
  else do
    let entries ← run .scan
    run (.upsertMetadataBatch entries)

/-! ### Saves -/

inductive SaveOutcome
  | applied (newHash : String)
  | conflict (conflict : Conflict)
  deriving DecidableEq, Repr

inductive SaveAttempt
  | applied
  | conflict
  | queued (remoteFailure : Bool)
  deriving DecidableEq, Repr

def SaveAttempt.shouldStopQueueReplay : SaveAttempt → Bool
  | .queued remoteFailure => remoteFailure
  | _ => false

/-- `mark_save_failed`, and the attempt that is reported -/
def saveFailed (entry : SaveQueueEntry) (remoteFailure : Bool) : SidecarM SaveAttempt := do
  run (.markSaveFailed entry.id)
  pure (.queued remoteFailure)

def markSaveApplied (queueId : ℕ) (path : Path) (newHash : String) : SidecarM Unit := do
  run (.markSaveApplied queueId path newHash)
  let found ← get path
  match found with
  | none => pure ()
  | some _ => do
      let isFile ← fileExists (.mirror path)
      if isFile = true then run (.indexFile (plain path) newHash) else pure ()

/-- `record_save_outcome`; a conflict with what was to be written is no conflict -/
def recordSaveOutcome (entry : SaveQueueEntry) : SaveOutcome → SidecarM SaveAttempt
  | .applied newHash => do
      markSaveApplied entry.id entry.path newHash
      pure .applied
  | .conflict conflict =>
    if conflict.actualHash = some entry.localHash then do
      markSaveApplied entry.id entry.path entry.localHash
      pure .applied
    else do
      let now ← nowMs
      let copy := LocalPath.conflictCopy (safeName entry.path) conflict.remoteContentTruncated now
      run (.writeDurable copy conflict.remoteContent)
      run (.recordSaveConflict entry.id entry.path conflict.actualHash copy
        conflict.remoteContentTruncated)
      pure .conflict

/-- `save_conflict` of the agent, once the hashes differ -/
def saveConflict (path : Path) (actualHash : Option String) : SidecarM Conflict := do
  let found ← (run (.conflictContent path) : SidecarM (List UInt8 × Bool))
  pure ⟨actualHash, found.1, found.2⟩

/-- The end of a save on the agent: the final check, the replacement, the answer. -/
def commitSave (entry : SaveQueueEntry) (content : List UInt8) (declaredHash : Option String) :
    SidecarM SaveOutcome := do
  let checked ← (run (.checkSave entry.id entry.path entry.expectedHash) : SidecarM Check)
  match checked with
  | .differs actualHash => do
      let conflict ← saveConflict entry.path actualHash
      pure (.conflict conflict)
  | .same => do
      run (.replaceRemote entry.path content)
      let newHash ← run (.answerSave entry.path declaredHash)
      pure (.applied newHash)

def applySmallSaveEntry (entry : SaveQueueEntry) (content : List UInt8) :
    SidecarM SaveAttempt := do
  let outcome ← (commitSave entry content none).attempt
  match outcome with
  | .ok outcome => recordSaveOutcome entry outcome
  | .error _ => saveFailed entry true

/-- `upload_snapshot_chunks`, with the chunks of the snapshot -/
def uploadChunks : List (List UInt8) → SidecarM Unit
  | [] => pure ()
  | _ :: rest => do
      run .uploadChunk
      uploadChunks rest

def saveUploadChunkBytes : ℕ := 1024 * 1024

/-- The begin of an upload on the agent: a first check. -/
def beginSave (entry : SaveQueueEntry) : SidecarM (Option Conflict) := do
  let checked ← (run (.beginSave entry.id entry.path entry.expectedHash) : SidecarM Check)
  match checked with
  | .differs actualHash => do
      let conflict ← saveConflict entry.path actualHash
      pure (some conflict)
  | .same => pure none

/-- `apply_chunked_save_entry`; the agent refuses content without the declared hash -/
def applyChunkedSaveEntry (entry : SaveQueueEntry) : SidecarM SaveAttempt := do
  let begun ← (beginSave entry).attempt
  match begun with
  | .error _ => saveFailed entry true
  | .ok (some conflict) => recordSaveOutcome entry (.conflict conflict)
  | .ok none => do
      let uploaded ← (do
        let content ← readFile entry.snapshotPath
        uploadChunks (content.toChunks saveUploadChunkBytes)
        pure content : SidecarM (List UInt8)).attempt
      match uploaded with
      | .error _ => do
          ignore .uploadChunk
          saveFailed entry true
      | .ok content => do
          let outcome ← (do
            ensure (decide (hash content = entry.localHash)) "upload hash mismatch"
            commitSave entry content (some entry.localHash) : SidecarM SaveOutcome).attempt
          match outcome with
          | .ok outcome => recordSaveOutcome entry outcome
          | .error _ => saveFailed entry true

def saveInlineMaxBytes : ℕ := 4 * 1024 * 1024

def applySaveEntry (entry : SaveQueueEntry) : SidecarM SaveAttempt := do
  let size ← (readFile entry.snapshotPath).attempt
  match size with
  | .error _ => saveFailed entry false
  | .ok sized => do
      let actualLocalHash ← (hashFile hash entry.snapshotPath).attempt
      match actualLocalHash with
      | .error _ => saveFailed entry false
      | .ok actualLocalHash =>
        if actualLocalHash ≠ entry.localHash then saveFailed entry false
        else if saveInlineMaxBytes < sized.length then applyChunkedSaveEntry hash entry
        else do
          let content ← (readFile entry.snapshotPath).attempt
          match content with
          | .error _ => saveFailed entry false
          | .ok content => applySmallSaveEntry entry content

def fastFlushSnapshotMaxBytes : ℕ := 1024 * 1024

/-- `prepare_flush`: a save is queued before the write lane is asked to send it -/
def prepareFlush (path : Path) (adopt : Bool) : SidecarM Unit := do
  let content ← (readFile (.mirror path)).attempt
  match content with
  | .ok content =>
    if fastFlushSnapshotMaxBytes < content.length then pure ()
    else do
      let _ ← enqueueLocalSaveInner hash path adopt
      pure ()
  | .error _ => do
      let _ ← enqueueLocalSaveInner hash path adopt
      pure ()

/-- `flush` and `adopt` -/
def flush (path : Path) (adopt : Bool) : SidecarM Unit := do
  let queued ← enqueueLocalSaveInner hash path adopt
  let _ ← applySaveEntry hash queued
  pure ()

def flushQueued (queueId : ℕ) : SidecarM Unit := do
  let found ← (run (.saveQueueEntry queueId) : SidecarM (Option Row))
  let queued ← orElseFail "queued save is not pending or failed" (found.bind Row.toEntry)
  let _ ← applySaveEntry hash queued
  pure ()

/-- The loop of `replay_queued_saves`. -/
def replayEntries : List SaveQueueEntry → SidecarM Unit
  | [] => pure ()
  | entry :: rest => do
      let attempt ← applySaveEntry hash entry
      if attempt.shouldStopQueueReplay = true then pure () else replayEntries rest

def replayQueuedSaves (limit : Option ℕ) : SidecarM Unit := do
  let rows ← (run (.pendingSaveEntries limit) : SidecarM (List Row))
  replayEntries hash (rows.filterMap Row.toEntry)

def acceptLocalConflict (queueId : ℕ) : SidecarM Unit := do
  let queued ← prepareAcceptLocalConflict hash queueId
  let _ ← applySaveEntry hash queued
  pure ()

/-! ### Requests on lanes -/

/-- The function that serves a request. -/
def Job.program : Job → SidecarM Unit
  | .scan => Mirror.scan
  | .openPath path force batchMaxFileBytes fuel =>
    Mirror.openPath hash path force batchMaxFileBytes fuel
  | .tryOpen path force => do
      let _ ← openCached hash path.path force
      pure ()
  | .prefetch paths => Mirror.prefetch hash paths
  | .batchHydrate paths => Mirror.batchHydrate hash paths
  | .validate path => Mirror.validate hash path
  | .refresh paths => Mirror.refresh hash paths
  | .prepareFlush path adopting => Mirror.prepareFlush hash path adopting
  | .flush path => Mirror.flush hash path false
  | .adopt path => Mirror.flush hash path true
  | .flushQueued queueId => Mirror.flushQueued hash queueId
  | .flushQueue limit => replayQueuedSaves hash limit
  | .recoverLocalEdits => Mirror.recoverLocalEdits hash
  | .acceptLocalConflict queueId => Mirror.acceptLocalConflict hash queueId
  | .acceptRemoteConflict queueId => Mirror.acceptRemoteConflict hash queueId

/-- The lanes a request can run on: `request_is_write_lane`, and what the main thread answers. -/
def Job.allowed : Job → Lane → Bool
  | .tryOpen _ _, lane => lane = .fast
  | .prepareFlush _ _, lane => lane = .fast
  | .scan, lane => lane ≠ .fast
  | .openPath _ _ _ _, lane => lane ≠ .fast
  | .prefetch _, lane => lane ≠ .fast
  | .batchHydrate _, lane => lane ≠ .fast
  | .validate _, lane => lane ≠ .fast
  | .refresh _, lane => lane ≠ .fast
  | _, lane => lane = .write

/-- A request on a lane, from its start to its end. -/
def laneBody (lane : Lane) (job : Job) : SidecarM Unit :=
  if job.allowed lane then do
    ignore (.enter job)
    let _ ← (job.program hash).attempt
    ignore .leave
  else pure ()

/-- The sidecar with its three lanes, and the others around it. -/
def sidecar : Machine Lane Call Reply String World Choice Job Event where
  answer := answer hash
  body := laneBody hash
  move := happen

end Functions

end RemoteMirror.Mirror
