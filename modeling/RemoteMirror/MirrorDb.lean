/-
**The database of a mirror.**

The sidecar keeps, next to the local copies of remote files, a database with two tables
(`MirrorDb` in `crates/nrm-sidecar/src/main.rs`): `files` says what is known about each path, and
`save_queue` holds the saves that still have to reach the remote.  Each function here is one
statement or one transaction of the source.

A path of a request can be spelled in several ways (`a`, `./a`); the mirror looks it up in its
normal spelling, but records a hydration under the spelling of the request (`Spelling`).  The
columns that no function here reads (sizes, times, modes, error texts, attempts) are left out.

Main definitions:

* `Mirror.Entry`, `Mirror.Row`, `Mirror.Db` — the tables;
* `Mirror.Db.insertSave`, `recordHydrated`, `markSaveApplied`, … — the statements.

Main results:

* `Mirror.Db.upsertMetadataBatch_of_some`,
  `Mirror.Db.upsertMetadataBatch_of_none` — a scan leaves entries alone and records no
  hashes.
-/

import RemoteMirror.AgentDisk

namespace RemoteMirror.Mirror

open Agent (Name Path)

/-! ### Tables -/

/-- A path as a request spells it.  Spelling `0` is the normal one. -/
structure Spelling where
  path : Path
  spelling : ℕ
  deriving DecidableEq, Repr

/-- The normal spelling. -/
def plain (path : Path) : Spelling := ⟨path, 0⟩

/-- The column `state` of `files`. -/
inductive FileState
  | metadata
  | hydrated
  deriving DecidableEq, Repr

/-- The column `validation_state` of `files`. -/
inductive Validation
  | unknown
  | valid
  | stale
  | deleted
  | dirty
  | conflict
  | error
  deriving DecidableEq, Repr

/-- What `files` says about a path. -/
structure Entry where
  remoteHash : Option String
  localHash : Option String
  state : FileState
  dirty : Bool
  validation : Validation
  deriving DecidableEq, Repr

/-- The files below the root of a mirror: copies of remote files, snapshots of queued saves, and
remote bytes kept because of conflicts. -/
inductive LocalPath
  | mirror (path : Path)
  | snapshot (safeName : Name) (ms : ℕ) (hash : String)
  | conflictCopy (safeName : Name) (truncated : Bool) (ms : ℕ)
  deriving DecidableEq, Repr

/-- The column `state` of `save_queue`. -/
inductive RowState
  | pending
  | failed
  | conflict
  | applied
  | superseded
  | resolvedRemote
  deriving DecidableEq, Repr

/-- A row of `save_queue`. -/
structure Row where
  id : ℕ
  path : Path
  expectedHash : Option String
  localHash : String
  snapshotPath : Option LocalPath
  state : RowState
  remoteConflictPath : Option LocalPath
  conflictActualHash : Option String
  remoteConflictTruncated : Bool
  deriving DecidableEq, Repr

/-- `state IN ('pending', 'failed') AND snapshot_path IS NOT NULL` -/
def Row.unresolved (row : Row) : Bool :=
  (row.state = .pending || row.state = .failed) && row.snapshotPath.isSome

/-- `state IN ('pending', 'failed', 'conflict')` -/
def Row.notSettled (row : Row) : Bool :=
  row.state = .pending || row.state = .failed || row.state = .conflict

/-- The same save, in whatever state. -/
structure Row.SameSave (row row' : Row) : Prop where
  id : row'.id = row.id
  path : row'.path = row.path
  localHash : row'.localHash = row.localHash
  snapshotPath : row'.snapshotPath = row.snapshotPath

theorem Row.SameSave.rfl {row : Row} : Row.SameSave row row := ⟨.refl _, .refl _, .refl _, .refl _⟩

theorem Row.SameSave.trans {r₁ r₂ r₃ : Row} (h : Row.SameSave r₁ r₂) (h' : Row.SameSave r₂ r₃) :
    Row.SameSave r₁ r₃ :=
  ⟨h'.id.trans h.id, h'.path.trans h.path, h'.localHash.trans h.localHash,
    h'.snapshotPath.trans h.snapshotPath⟩

/-- The database; rows are in the order of their identifiers. -/
structure Db where
  files : Spelling → Option Entry
  queue : List Row
  nextId : ℕ

/-- What a scan or a read says about a remote file. -/
structure FileMeta where
  path : Spelling
  hash : Option String
  deriving DecidableEq, Repr

namespace Db

def empty : Db := ⟨fun _ => none, [], 1⟩

/-! ### Statements on `files` -/

def setFile (db : Db) (key : Spelling) (entry : Entry) : Db :=
  { db with files := Function.update db.files key (some entry) }

/-- `UPDATE files SET … WHERE relative_path=…` -/
def updateFile (db : Db) (key : Spelling) (f : Entry → Entry) : Db :=
  { db with files := Function.update db.files key ((db.files key).map f) }

/-- `get`, which looks a path up in its normal spelling -/
def get (db : Db) (path : Path) : Option Entry := db.files (plain path)

/-- `upsert_metadata` with the state `metadata` -/
def upsertMetadata (db : Db) (fileMeta : FileMeta) : Db :=
  db.setFile fileMeta.path (match db.files fileMeta.path with
    | none => ⟨fileMeta.hash, none, .metadata, false, .unknown⟩
    | some entry => { entry with
        remoteHash := if entry.state = .hydrated then entry.remoteHash
          else fileMeta.hash.or entry.remoteHash
        state := if entry.state = .hydrated then entry.state else .metadata })

def upsertMetadataBatch (db : Db) (entries : List FileMeta) : Db := entries.foldl upsertMetadata db

def recordHydrated (db : Db) (key : Spelling) (remoteHash localHash : String) : Db :=
  db.setFile key ⟨some remoteHash, some localHash, .hydrated, false, .valid⟩

/-- Only entries that are not dirty are changed. -/
def recordCleanLocalHash (db : Db) (key : Spelling) (localHash : String) : Db :=
  db.updateFile key fun entry =>
    if entry.dirty then entry else { entry with localHash := some localHash }

def recordValidation (db : Db) (path : Path) (validation : Validation)
    (remoteHash : Option String) : Db :=
  db.updateFile (plain path) fun entry =>
    { entry with remoteHash := remoteHash.or entry.remoteHash, validation := validation }

def markValidationError (db : Db) (path : Path) : Db :=
  db.updateFile (plain path) fun entry => { entry with validation := .error }

/-! ### Statements on `save_queue` -/

/-- The rows of a path that still have to be applied. -/
def unresolvedRows (db : Db) (path : Path) : List Row :=
  db.queue.filter fun row => decide (row.path = path) && row.unresolved

/-- `latest_unresolved_save_hash` and `latest_unresolved_save_entry` -/
def latestUnresolved (db : Db) (path : Path) : Option Row := (db.unresolvedRows path).getLast?

def pendingSaveEntries (db : Db) (limit : Option ℕ) : List Row :=
  let rows := db.queue.filter Row.unresolved
  match limit with
  | none => rows
  | some n => rows.take n

def saveQueueEntry (db : Db) (id : ℕ) : Option Row :=
  db.queue.find? fun row => decide (row.id = id) && row.unresolved

def conflictQueueEntry (db : Db) (id : ℕ) : Option Row :=
  db.queue.find? fun row => decide (row.id = id) && decide (row.state = .conflict)

/-- `newer_unresolved_save_count` is not zero. -/
def hasNewerUnresolved (db : Db) (path : Path) (id : ℕ) : Bool :=
  db.queue.any fun row => decide (row.path = path) && decide (id < row.id) && row.notSettled

def updateRows (db : Db) (f : Row → Row) : Db := { db with queue := db.queue.map f }

/-- `UPDATE save_queue SET … WHERE id=…` -/
def updateRow (db : Db) (id : ℕ) (f : Row → Row) : Db :=
  db.updateRows fun row => if row.id = id then f row else row

/-- The entry of a path with a new save. -/
def queuedEntry (expectedHash : Option String) (localHash : String) : Option Entry → Entry
  | none => ⟨expectedHash, some localHash, .hydrated, true, .dirty⟩
  | some entry => { entry with localHash := some localHash, dirty := true, validation := .dirty }

/-- The transaction of `enqueue_save`. -/
def insertSave (db : Db) (path : Path) (expectedHash : Option String) (localHash : String)
    (snapshotPath : LocalPath) : Db :=
  { db.setFile (plain path) (queuedEntry expectedHash localHash (db.get path)) with
    queue := db.queue ++
      [⟨db.nextId, path, expectedHash, localHash, some snapshotPath, .pending, none, none, false⟩]
    nextId := db.nextId + 1 }

def markSaveApplied (db : Db) (id : ℕ) (path : Path) (newHash : String) : Db :=
  let db := db.updateRow id fun row => { row with state := .applied }
  db.updateFile (plain path) fun entry =>
    if (db.unresolvedRows path).isEmpty then
      { entry with remoteHash := some newHash, localHash := some newHash, dirty := false,
                   state := .hydrated, validation := .valid }
    else { entry with remoteHash := some newHash, validation := .dirty }

def markSaveFailed (db : Db) (id : ℕ) : Db :=
  db.updateRow id fun row => { row with state := .failed }

/-- The transaction of `record_save_conflict`. -/
def recordSaveConflict (db : Db) (id : ℕ) (path : Path) (actualHash : Option String)
    (copy : LocalPath) (truncated : Bool) : Db :=
  (db.updateRow id fun row => { row with
      state := .conflict
      remoteConflictPath := some copy
      conflictActualHash := actualHash
      remoteConflictTruncated := truncated }).updateFile (plain path) fun entry =>
    { entry with remoteHash := actualHash, validation := .conflict }

/-- Older saves of the path are given up for the accepted one. -/
def supersededBy (accepted row : Row) : Row :=
  if row.path = accepted.path ∧ row.id < accepted.id ∧ row.notSettled then
    { row with state := .superseded }
  else row

/-- The accepted save is based on what the conflict has found. -/
def rebasedOn (accepted row : Row) : Row :=
  if row.state = .conflict then
    { row with
      state := .pending
      expectedHash := accepted.conflictActualHash
      remoteConflictPath := none
      conflictActualHash := none
      remoteConflictTruncated := false }
  else row

/-- The transaction of `prepare_accept_local_conflict`. -/
def acceptLocal (db : Db) (accepted : Row) : Db :=
  (db.updateRows (supersededBy accepted)).updateRow accepted.id (rebasedOn accepted)

/-- The remote side has won over this save and the older ones. -/
def resolvedBy (accepted row : Row) : Row :=
  if row.path = accepted.path ∧ row.id ≤ accepted.id ∧ row.notSettled then
    { row with state := .resolvedRemote }
  else row

/-- The transaction of `accept_remote_conflict`. -/
def acceptRemote (db : Db) (accepted : Row) (remoteHash : String) : Db :=
  (db.updateRows (resolvedBy accepted)).setFile (plain accepted.path)
    ⟨some remoteHash, some remoteHash, .hydrated, false, .valid⟩

/-! ### What the statements leave alone -/

variable {db : Db} {key k : Spelling} {e entry : Entry}

theorem files_setFile_self (db : Db) (k : Spelling) (entry : Entry) :
    (db.setFile k entry).files k = some entry := by
  simp [setFile]

theorem files_setFile_ne (h : key ≠ k) : (db.setFile k entry).files key = db.files key := by
  simp [setFile, h]

/-- An entry after a row was set: the new one, or an old one under another key. -/
theorem setFile_eq_some (h : (db.setFile k entry).files key = some e) :
    (key = k ∧ e = entry) ∨ (key ≠ k ∧ db.files key = some e) := by
  by_cases hk : key = k
  · subst hk
    rw [files_setFile_self] at h
    exact .inl ⟨rfl, (Option.some.inj h).symm⟩
  · rw [files_setFile_ne hk] at h
    exact .inr ⟨hk, h⟩

theorem files_updateFile_self (db : Db) (k : Spelling) (f : Entry → Entry) :
    (db.updateFile k f).files k = (db.files k).map f := by
  simp [updateFile]

theorem files_updateFile_ne {f : Entry → Entry} (h : key ≠ k) :
    (db.updateFile k f).files key = db.files key := by
  simp [updateFile, h]

/-- An entry after an update: a changed one, or an old one under another key. -/
theorem updateFile_eq_some {f : Entry → Entry} (h : (db.updateFile k f).files key = some e) :
    (key = k ∧ ∃ e', db.files k = some e' ∧ e = f e') ∨ (key ≠ k ∧ db.files key = some e) := by
  by_cases hk : key = k
  · subst hk
    rw [files_updateFile_self] at h
    obtain ⟨e', he', rfl⟩ := Option.map_eq_some_iff.1 h
    exact .inl ⟨rfl, e', he', rfl⟩
  · rw [files_updateFile_ne hk] at h
    exact .inr ⟨hk, h⟩

variable {fileMeta : FileMeta}

/-- A scan does not touch the entries there are. -/
theorem upsertMetadata_of_some (hm : fileMeta.hash = none) (h : db.files key = some e) :
    (db.upsertMetadata fileMeta).files key = some e := by
  by_cases hk : key = fileMeta.path
  · subst hk
    rw [upsertMetadata, files_setFile_self, h]
    cases hs : e.state <;> simp [hm, ← hs]
  · rw [upsertMetadata, files_setFile_ne hk, h]

/-- A scan makes new entries without hashes. -/
theorem upsertMetadata_of_none (hm : fileMeta.hash = none)
    (h : (db.upsertMetadata fileMeta).files key = some e) (hnone : db.files key = none) :
    e = ⟨none, none, .metadata, false, .unknown⟩ := by
  obtain ⟨rfl, rfl⟩ | ⟨_, h⟩ := setFile_eq_some h
  · simp [hnone, hm]
  · rw [hnone] at h
    cases h

variable {entries : List FileMeta}

/-- A scan leaves known entries alone. -/
theorem upsertMetadataBatch_of_some (hm : ∀ x ∈ entries, x.hash = none) :
    ∀ {db : Db}, db.files key = some e → (db.upsertMetadataBatch entries).files key = some e := by
  induction entries with
  | nil => exact fun h => h
  | cons x xs ih =>
    intro db h
    exact ih (fun y hy => hm y (List.mem_cons_of_mem x hy))
      (upsertMetadata_of_some (hm x List.mem_cons_self) h)

/-- The entries a scan adds hold no hashes. -/
theorem upsertMetadataBatch_of_none (hm : ∀ x ∈ entries, x.hash = none) :
    ∀ {db : Db}, (db.upsertMetadataBatch entries).files key = some e → db.files key = none →
      e = ⟨none, none, .metadata, false, .unknown⟩ := by
  induction entries with
  | nil =>
    intro db h hnone
    rw [show db.upsertMetadataBatch [] = db from rfl, hnone] at h
    cases h
  | cons x xs ih =>
    intro db h hnone
    have hxs : ∀ y ∈ xs, y.hash = none := fun y hy => hm y (List.mem_cons_of_mem x hy)
    cases hx : (db.upsertMetadata x).files key with
    | none => exact ih hxs h hx
    | some e' =>
      have he : e' = e :=
        Option.some.inj ((upsertMetadataBatch_of_some hxs hx).symm.trans h)
      rw [← he]
      exact upsertMetadata_of_none (hm x List.mem_cons_self) hx hnone

/-- A scan does not touch the queue. -/
theorem upsertMetadataBatch_queue (entries : List FileMeta) :
    ∀ db : Db, (db.upsertMetadataBatch entries).queue = db.queue ∧
      (db.upsertMetadataBatch entries).nextId = db.nextId := by
  induction entries with
  | nil => exact fun _ => ⟨rfl, rfl⟩
  | cons x xs ih => exact fun db => ih (db.upsertMetadata x)

variable {row : Row}

/-- Pending saves are rows of the queue. -/
theorem mem_of_pendingSaveEntries {limit : Option ℕ} (h : row ∈ db.pendingSaveEntries limit) :
    row ∈ db.queue := by
  cases limit with
  | none => exact (List.mem_filter.1 h).1
  | some n => exact (List.mem_filter.1 (List.mem_of_mem_take h)).1

theorem mem_updateRows {f : Row → Row} : row ∈ (db.updateRows f).queue ↔
    ∃ r ∈ db.queue, f r = row := by
  simp [updateRows]

/-- The rows are still the same saves. -/
def Keeps (db db' : Db) : Prop :=
  db'.nextId = db.nextId ∧
    ∃ f : Row → Row, db'.queue = db.queue.map f ∧ ∀ row, Row.SameSave row (f row)

theorem Keeps.of_queue {db' : Db} (hqueue : db'.queue = db.queue) (hnext : db'.nextId = db.nextId) :
    Keeps db db' :=
  ⟨hnext, id, by simpa using hqueue, fun _ => .rfl⟩

/-- Statements one after the other keep the saves of the rows. -/
theorem Keeps.trans {db₁ db₂ db₃ : Db} (h : Keeps db₁ db₂) (h' : Keeps db₂ db₃) :
    Keeps db₁ db₃ := by
  obtain ⟨hnext, f, hf, hsame⟩ := h
  obtain ⟨hnext', g, hg, hsame'⟩ := h'
  refine ⟨hnext'.trans hnext, g ∘ f, by rw [hg, hf, List.map_map], fun row => ?_⟩
  exact (hsame row).trans (hsame' (f row))

theorem keeps_updateRows {f : Row → Row} (hf : ∀ row, Row.SameSave row (f row)) :
    Keeps db (db.updateRows f) :=
  ⟨rfl, f, rfl, hf⟩

/-- So does a statement on one row. -/
theorem keeps_updateRow {id : ℕ} {f : Row → Row} (hf : ∀ row, Row.SameSave row (f row)) :
    Keeps db (db.updateRow id f) := by
  refine keeps_updateRows fun row => ?_
  split
  · exact hf row
  · exact .rfl

/-- An answer of the agent changes the state of its row only. -/
theorem keeps_markSaveApplied (id : ℕ) (path : Path) (newHash : String) :
    Keeps db (db.markSaveApplied id path newHash) := by
  have hrow : Keeps db (db.updateRow id fun row => { row with state := .applied }) :=
    keeps_updateRow fun _ => ⟨rfl, rfl, rfl, rfl⟩
  exact hrow.trans (Keeps.of_queue rfl rfl)

theorem keeps_markSaveFailed (id : ℕ) : Keeps db (db.markSaveFailed id) :=
  keeps_updateRow fun _ => ⟨rfl, rfl, rfl, rfl⟩

/-- A conflict adds to its row, but the save in it stays. -/
theorem keeps_recordSaveConflict (id : ℕ) (path : Path) (actualHash : Option String)
    (copy : LocalPath) (truncated : Bool) :
    Keeps db (db.recordSaveConflict id path actualHash copy truncated) := by
  have hrow : Keeps db (db.updateRow id fun row => { row with
      state := .conflict
      remoteConflictPath := some copy
      conflictActualHash := actualHash
      remoteConflictTruncated := truncated }) :=
    keeps_updateRow fun _ => ⟨rfl, rfl, rfl, rfl⟩
  exact hrow.trans (Keeps.of_queue rfl rfl)

/-- Rows that are superseded, rebased or resolved keep their saves. -/
theorem sameSave_supersededBy (accepted row : Row) :
    Row.SameSave row (supersededBy accepted row) := by
  unfold supersededBy
  split <;> exact ⟨rfl, rfl, rfl, rfl⟩

theorem sameSave_rebasedOn (accepted row : Row) : Row.SameSave row (rebasedOn accepted row) := by
  unfold rebasedOn
  split <;> exact ⟨rfl, rfl, rfl, rfl⟩

theorem sameSave_resolvedBy (accepted row : Row) : Row.SameSave row (resolvedBy accepted row) := by
  unfold resolvedBy
  split <;> exact ⟨rfl, rfl, rfl, rfl⟩

/-- Neither way to end a conflict changes what the rows save. -/
theorem keeps_acceptLocal (accepted : Row) : Keeps db (db.acceptLocal accepted) :=
  (keeps_updateRows (sameSave_supersededBy accepted)).trans
    (keeps_updateRow (sameSave_rebasedOn accepted))

/-- Only the accepted row gets new hashes. -/
theorem mem_acceptLocal {accepted : Row} (h : row ∈ (db.acceptLocal accepted).queue) :
    ∃ r ∈ db.queue, Row.SameSave r row ∧
      ((row.expectedHash = r.expectedHash ∧ row.conflictActualHash = r.conflictActualHash) ∨
        (r.id = accepted.id ∧ row.expectedHash = accepted.conflictActualHash ∧
          row.conflictActualHash = none)) := by
  obtain ⟨r₁, hr₁, rfl⟩ := mem_updateRows.1 h
  obtain ⟨r, hr, rfl⟩ := mem_updateRows.1 hr₁
  have hsame := sameSave_supersededBy accepted r
  have hhashes : (supersededBy accepted r).expectedHash = r.expectedHash ∧
      (supersededBy accepted r).conflictActualHash = r.conflictActualHash := by
    unfold supersededBy
    split <;> exact ⟨rfl, rfl⟩
  refine ⟨r, hr, ?_⟩
  split
  case isFalse => exact ⟨hsame, .inl hhashes⟩
  case isTrue hid =>
    refine ⟨hsame.trans (sameSave_rebasedOn accepted _), ?_⟩
    unfold rebasedOn
    split
    · exact .inr ⟨hsame.id ▸ hid, rfl, rfl⟩
    · exact .inl hhashes

theorem keeps_acceptRemote (accepted : Row) (remoteHash : String) :
    Keeps db (db.acceptRemote accepted remoteHash) :=
  (keeps_updateRows (sameSave_resolvedBy accepted)).trans (Keeps.of_queue rfl rfl)

end Db

end RemoteMirror.Mirror
