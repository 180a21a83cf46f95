/-
**What a sidecar works on.**

The world of a sidecar is its database, the files below the root of the mirror, and the remote
files, which it reaches through the agent.  Requests run on lanes: the main thread answers what it
can by itself (`fast`), the read lane and the write lane do the rest.  A lane works in single
*calls*; between two calls of a lane the other lanes call as well, the editor changes local files
and others change remote files.  Every call can fail.

The agent's part of a save is three calls: the final check of the hash, the replacement, and the
answer.  That the agent keeps to this is the subject of `AgentCas`.

Snapshots and conflict copies lie in directories of their own, where `write_durable_file` is one
call: it puts the whole file there or fails, and it may fail when the file is already in its place.

The calls for the search index change nothing in this world: its tables are not part of it.

Main definitions:

* `Mirror.World`;
* `Mirror.Call`, `Mirror.answer` — the calls and their answers;
* `Mirror.Job`, `Mirror.Job.scope` — requests and the paths they are about;
* `Mirror.Event`, `Mirror.happen` — what others do.
-/

import RemoteMirror.FileStore
import RemoteMirror.MirrorDb

namespace RemoteMirror.Mirror

open Agent (Name Path fileName withExtension)
open FileStore (Store)

/-! ### Requests -/

inductive Lane
  | fast
  | read
  | write
  deriving DecidableEq, Repr

/-- The requests that use the mirror.  `fuel` bounds the chunks read in one hydration: when it runs
out, the next chunk fails, as every chunk can. -/
inductive Job
  | scan
  | openPath (path : Spelling) (force : Bool) (batchMaxFileBytes : ℕ) (fuel : ℕ)
  | tryOpen (path : Spelling) (force : Bool)
  | prefetch (paths : List Spelling)
  | batchHydrate (paths : List Spelling)
  | validate (path : Path)
  | refresh (paths : List Path)
  | prepareFlush (path : Path) (adopt : Bool)
  | flush (path : Path)
  | adopt (path : Path)
  | flushQueued (queueId : ℕ)
  | flushQueue (limit : Option ℕ)
  | recoverLocalEdits
  | acceptLocalConflict (queueId : ℕ)
  | acceptRemoteConflict (queueId : ℕ)
  deriving DecidableEq, Repr

/-- The paths a request is about. -/
inductive Scope
  | these (paths : List Path)
  | everything
  deriving DecidableEq, Repr

/-- The paths a request is about; those given by a row of the queue are looked up. -/
def Job.scope (db : Db) : Job → Scope
  | .scan => .these []
  | .openPath path _ _ _ => .these [path.path]
  | .tryOpen path _ => .these [path.path]
  | .prefetch paths => .these (paths.map Spelling.path)
  | .batchHydrate paths => .these (paths.map Spelling.path)
  | .validate path => .these [path]
  | .refresh paths => .these paths
  | .prepareFlush path _ => .these [path]
  | .flush path => .these [path]
  | .adopt path => .these [path]
  | .flushQueued queueId => .these ((db.queue.filter fun row => row.id = queueId).map Row.path)
  | .flushQueue _ => .everything
  | .recoverLocalEdits => .everything
  | .acceptLocalConflict queueId =>
    .these ((db.queue.filter fun row => row.id = queueId).map Row.path)
  | .acceptRemoteConflict queueId =>
    .these ((db.queue.filter fun row => row.id = queueId).map Row.path)

/-! ### The world -/

structure World where
  db : Db
  store : Store LocalPath
  remote : Path → Option (List UInt8)
  /-- remote files that the agent cannot open now -/
  unreadable : Path → Bool
  /-- the path whose final check the agent has made without having answered yet -/
  saving : Option Path
  /-- the path whose hash the agent has found different, and whose bytes it has not read yet -/
  comparing : Option Path
  /-- what the requests on the lanes are about -/
  active : Lane → Option Scope
  /-- readings of the clock are all different -/
  clock : ℕ
  /-- the hashes recorded for a path: as hydrated, as queued, or as the other side of a conflict; no
  program reads this -/
  recorded : List (Path × String)

/-- A new mirror of a remote workspace. -/
def World.fresh (remote : Path → Option (List UInt8)) : World where
  db := .empty
  store := .empty
  remote := remote
  unreadable _ := false
  saving := none
  comparing := none
  active _ := none
  clock := 0
  recorded := []

/-- `with_extension` on the last component -/
def withPart (path : Path) (extension : String) : LocalPath :=
  .mirror (path.dropLast ++ [withExtension (fileName path) extension])

/-- `relative_path.replace(['/', '\\'], "__")` -/
def safeName (path : Path) : Name := List.intercalate (Agent.textBytes "__") path

/-- What the agent finds when it compares a remote file with the hash a save expects. -/
inductive Check
  | same
  | differs (actualHash : Option String)
  deriving DecidableEq, Repr

/-- What the agent says instead of applying a save. -/
structure Conflict where
  actualHash : Option String
  remoteContent : List UInt8
  remoteContentTruncated : Bool
  deriving DecidableEq, Repr

def maxConflictContentBytes : ℕ := 4 * 1024 * 1024

def defaultChunkSize : ℕ := 1024 * 1024

/-- An answer to `ReadFile`; the hash comes with the last chunk. -/
structure Chunk where
  eof : Bool
  content : List UInt8
  hash : String
  deriving DecidableEq, Repr

/-- A file in an answer to `ReadFiles`. -/
structure BatchReadFile where
  path : Spelling
  content : List UInt8
  hash : String
  deriving DecidableEq, Repr

/-- What `ValidateFiles` says about a path. -/
inductive Validated
  | missing
  | notRegular
  | file (hash : String)
  deriving DecidableEq, Repr

/-! ### Calls -/

inductive Call
  | enter (job : Job)
  | leave
  /-- directories and syncing: may fail, and changes nothing that is modelled -/
  | mayFail
  | nowMs
  | nanos
  /-- a request of the agent may be preempted instead -/
  | preempted
  -- the database
  | get (path : Path)
  | upsertMetadataBatch (entries : List FileMeta)
  | recordHydrated (key : Spelling) (remoteHash localHash : String)
  | recordCleanLocalHash (key : Spelling) (localHash : String)
  | recordValidation (path : Path) (validation : Validation) (remoteHash : Option String)
  | markValidationError (path : Path)
  /-- some of the entries that are hydrated -/
  | hydratedEntries
  | latestUnresolved (path : Path)
  | pendingSaveEntries (limit : Option ℕ)
  | saveQueueEntry (queueId : ℕ)
  | conflictQueueEntry (queueId : ℕ)
  | hasNewerUnresolved (path : Path) (queueId : ℕ)
  | insertSave (path : Path) (expectedHash : Option String) (localHash : String)
      (snapshotPath : LocalPath)
  | markSaveApplied (queueId : ℕ) (path : Path) (newHash : String)
  | markSaveFailed (queueId : ℕ)
  | recordSaveConflict (queueId : ℕ) (path : Path) (actualHash : Option String) (copy : LocalPath)
      (truncated : Bool)
  | acceptLocal (accepted : Row)
  | acceptRemote (accepted : Row) (remoteHash : String)
  -- local files
  | fileExists (name : LocalPath)
  | readFile (name : LocalPath)
  | createFile (name : LocalPath)
  | createNew (name : LocalPath)
  | writeAll (inode offset : ℕ) (content : List UInt8)
  | rename (source target : LocalPath)
  | removeFile (name : LocalPath)
  | writeDurable (name : LocalPath) (content : List UInt8)
  -- the search index
  /-- `replace_search_index_from_bytes` -/
  | indexBytes (path : Path) (localHash : String) (content : List UInt8)
  /-- `rebuild_search_index_from_local_file`, with the length of the file or else a recorded one -/
  | indexFile (key : Spelling) (localHash : String)
  -- the agent
  | scan
  | readChunk (path : Path) (offset len : ℕ)
  | readBatch (path : Spelling)
  | validateFile (path : Path)
  /-- the row is not part of the request; it says which save is sent -/
  | beginSave (queueId : ℕ) (path : Path) (expectedHash : Option String)
  | uploadChunk
  /-- the bytes that go with a conflict, and whether there are more -/
  | conflictContent (path : Path)
  | checkSave (queueId : ℕ) (path : Path) (expectedHash : Option String)
  | replaceRemote (path : Path) (content : List UInt8)
  /-- a save in one request is answered with the hash of the file that is there then, an upload with
  the hash it was declared with -/
  | answerSave (path : Path) (declaredHash : Option String)

/-- What each call answers if it succeeds. -/
def Ans : Call → Type
  | .nowMs => ℕ
  | .nanos => ℕ
  | .preempted => Bool
  | .get _ => Option Entry
  | .hydratedEntries => List (Spelling × Entry)
  | .latestUnresolved _ => Option Row
  | .pendingSaveEntries _ => List Row
  | .saveQueueEntry _ => Option Row
  | .conflictQueueEntry _ => Option Row
  | .hasNewerUnresolved _ _ => Bool
  | .insertSave _ _ _ _ => ℕ
  | .fileExists _ => Bool
  | .readFile _ => List UInt8
  | .createFile _ => ℕ
  | .createNew _ => ℕ
  | .scan => List FileMeta
  | .readChunk _ _ _ => Chunk
  | .readBatch _ => Option BatchReadFile
  | .validateFile _ => Option Validated
  | .beginSave _ _ _ => Check
  | .conflictContent _ => List UInt8 × Bool
  | .checkSave _ _ _ => Check
  | .answerSave _ _ => String
  | _ => Unit

/-- What a call leaves open. -/
inductive Choice
  | ok
  | fail (message : String)
  /-- a write fails after so many bytes -/
  | short (written : ℕ) (message : String)
  | value (n : ℕ)
  | yes
  /-- the agent reports an error about this file -/
  | skip
  | notRegular
  | found (paths : List Spelling)
  deriving DecidableEq, Repr

section Answers

variable (hash : List UInt8 → String)

namespace World

/-- The database after a statement. -/
def setDb (w : World) (db : Db) : World := { w with db := db }

def setStore (w : World) (store : Store LocalPath) : World := { w with store := store }

/-- A hash is now on record for a path. -/
def note (w : World) (path : Path) (recordedHash : String) : World :=
  { w with recorded := (path, recordedHash) :: w.recorded }

/-- The hash a conflict has found, if the file exists, is now on record. -/
def noteFound (w : World) (path : Path) : Option String → World
  | some actualHash => w.note path actualHash
  | none => w

/-- The hash of a remote file. -/
def remoteHash (w : World) (path : Path) : Option String := (w.remote path).map hash

/-- The bytes of a remote file, as far as the agent can open it. -/
def opened (w : World) (path : Path) : Option (List UInt8) :=
  if w.unreadable path then none else w.remote path

/-- `remote_conflict_content`: a file that cannot be opened counts as empty and complete, one that
cannot be read as empty and cut off. -/
def conflictContent (w : World) (path : Path) (c : Choice) : List UInt8 × Bool :=
  match w.opened path with
  | some content =>
    if c = .skip then ([], decide (0 < content.length))
    else (content.take maxConflictContentBytes,
      decide (maxConflictContentBytes < content.length))
  | none => ([], false)

end World

/-- A call that succeeds without changing anything. -/
def looked {α : Type} (w : World) (a : α) : Option (Except String α × World) := some (.ok a, w)

/-- A call that succeeds. -/
def done (w : World) : Option (Except String Unit × World) := some (.ok (), w)

/-- A clock says what was chosen. -/
def chosen (w : World) : Choice → Option (Except String ℕ × World)
  | .value n => some (.ok n, w)
  | _ => none

/-- A slice of a remote file; the hash is that of the whole file. -/
def chunkAt (content : List UInt8) (offset len : ℕ) : Chunk :=
  let slice := (content.drop offset).take len
  let eof := decide (content.length ≤ offset + slice.length)
  ⟨eof, slice, if eof then hash content else ""⟩

/-- The calls that read a remote file. -/
def readRemote (path : Path) (offset len : ℕ) (w : World) : Option (Except String Chunk × World) :=
  match w.opened path with
  | some content =>
    if content.length < offset then some (.error "offset exceeds file length", w)
    else looked w (chunkAt hash content offset len)
  | none => some (.error "failed to open", w)

/-- A file of a batch, unless the agent reports an error about it. -/
def readRemoteFile (path : Spelling) (c : Choice) (w : World) :
    Option (Except String (Option BatchReadFile) × World) :=
  match c, w.opened path.path with
  | .skip, _ => looked w none
  | _, some content => looked w (some ⟨path, content, hash content⟩)
  | _, none => looked w none

def validateRemote (path : Path) (c : Choice) (w : World) :
    Option (Except String (Option Validated) × World) :=
  if c = .skip ∨ w.unreadable path then looked w none
  else
    match w.remote path with
    | some content => looked w (some (.file (hash content)))
    | none => looked w (some (if c = .notRegular then .notRegular else .missing))

/-- The agent compares a remote file with the hash a save expects. -/
def compare (path : Path) (expectedHash : Option String) (same : World) (w : World) :
    Option (Except String Check × World) :=
  if w.unreadable path then some (.error "failed to hash", w)
  else if w.remoteHash hash path = expectedHash then some (.ok .same, same)
  else some (.ok (.differs (w.remoteHash hash path)), { w with comparing := some path })

/-- A call that succeeds, apart from failures that are chosen. -/
def succeed (lane : Lane) (e : Call) (c : Choice) (w : World) :
    Option (Except String (Ans e) × World) :=
  match e with
  | .enter job => done { w with active := Function.update w.active lane (some (job.scope w.db)) }
  | .leave => done { w with active := Function.update w.active lane none }
  | .mayFail => done w
  | .nowMs => chosen w c
  | .nanos => some (.ok w.clock, { w with clock := w.clock + 1 })
  | .preempted => looked w (decide (c = .yes))
  | .get path => looked w (w.db.get path)
  | .upsertMetadataBatch entries => done (w.setDb (w.db.upsertMetadataBatch entries))
  | .recordHydrated key remoteHash localHash =>
    done ((w.setDb (w.db.recordHydrated key remoteHash localHash)).note key.path remoteHash)
  | .recordCleanLocalHash key localHash => done (w.setDb (w.db.recordCleanLocalHash key localHash))
  | .recordValidation path validation remoteHash =>
    done (w.setDb (w.db.recordValidation path validation remoteHash))
  | .markValidationError path => done (w.setDb (w.db.markValidationError path))
  | .hydratedEntries =>
    match c with
    | .found keys => looked w (keys.filterMap fun key => match w.db.files key with
        | some entry => if entry.state = .hydrated then some (key, entry) else none
        | none => none)
    | _ => none
  | .latestUnresolved path => looked w (w.db.latestUnresolved path)
  | .pendingSaveEntries limit => looked w (w.db.pendingSaveEntries limit)
  | .saveQueueEntry queueId => looked w (w.db.saveQueueEntry queueId)
  | .conflictQueueEntry queueId => looked w (w.db.conflictQueueEntry queueId)
  | .hasNewerUnresolved path queueId => looked w (w.db.hasNewerUnresolved path queueId)
  | .insertSave path expectedHash localHash snapshotPath =>
    some (.ok w.db.nextId,
      (w.setDb (w.db.insertSave path expectedHash localHash snapshotPath)).note path localHash)
  | .markSaveApplied queueId path newHash =>
    done (w.setDb (w.db.markSaveApplied queueId path newHash))
  | .markSaveFailed queueId => done (w.setDb (w.db.markSaveFailed queueId))
  | .recordSaveConflict queueId path actualHash copy truncated =>
    done ((w.setDb (w.db.recordSaveConflict queueId path actualHash copy truncated)).noteFound path
      actualHash)
  | .acceptLocal accepted => done (w.setDb (w.db.acceptLocal accepted))
  | .acceptRemote accepted remoteHash => done (w.setDb (w.db.acceptRemote accepted remoteHash))
  | .fileExists name => looked w (w.store.node name).isSome
  | .readFile name =>
    match w.store.read name with
    | some content => looked w content
    | none => some (.error "No such file or directory", w)
  | .createFile name => some (.ok (w.store.created name), w.setStore (w.store.create name))
  | .createNew name =>
    match w.store.node name with
    | none => some (.ok (w.store.created name), w.setStore (w.store.create name))
    | some _ => some (.error "File exists", w)
  | .writeAll inode offset content => done (w.setStore (w.store.write inode offset content))
  | .rename source target =>
    match w.store.node source with
    | some _ => done (w.setStore (w.store.rename source target))
    | none => some (.error "No such file or directory", w)
  | .removeFile name => done (w.setStore (w.store.remove name))
  | .writeDurable name content => done (w.setStore (w.store.put name content))
  | .indexBytes _ _ _ => done w
  | .indexFile _ _ => done w
  | .scan =>
    match c with
    | .found paths => looked w (paths.map fun path => ⟨path, none⟩)
    | _ => none
  | .readChunk path offset len => readRemote hash path offset len w
  | .readBatch path => readRemoteFile hash path c w
  | .validateFile path => validateRemote hash path c w
  | .beginSave _ path expectedHash => compare hash path expectedHash w w
  | .uploadChunk => done w
  | .conflictContent path =>
    some (.ok (w.conflictContent path c), { w with comparing := none })
  | .checkSave _ path expectedHash =>
    compare hash path expectedHash { w with saving := some path } w
  | .replaceRemote path content =>
    done { w with remote := Function.update w.remote path (some content) }
  | .answerSave path declaredHash =>
    match declaredHash.or (w.remoteHash hash path) with
    | some newHash => some (.ok newHash, { w with saving := none })
    | none => some (.error "failed to hash", { w with saving := none })

/-- What a call leaves behind when it fails.  A write may have written the first bytes, a durable
one may have put the file in its place, and the agent is no longer busy with a save or a conflict.
-/
def failed (e : Call) (c : Choice) (w : World) : World :=
  match e, c with
  | .writeAll inode offset content, .short written _ =>
    w.setStore (w.store.write inode offset (content.take written))
  | .writeDurable name content, .short _ _ => w.setStore (w.store.put name content)
  | .replaceRemote _ _, _ => { w with saving := none }
  | .answerSave _ _, _ => { w with saving := none }
  | .conflictContent _, _ => { w with comparing := none }
  | _, _ => w

/-- Starting and ending a request always succeeds. -/
def Call.bookkeeping : Call → Bool
  | .enter _ => true
  | .leave => true
  | _ => false

/-- The answer to a call of a lane. -/
def answer (lane : Lane) (e : Call) (c : Choice) (w : World) :
    Option (Except String (Ans e) × World) :=
  if e.bookkeeping then succeed hash lane e c w
  else match c with
    | .fail message => some (.error message, failed e c w)
    | .short _ message => some (.error message, failed e c w)
    | _ => succeed hash lane e c w

end Answers

/-! ### What others do -/

inductive Event
  /-- the editor, or anybody else, writes a local file of the mirror -/
  | editLocal (path : Path) (content : List UInt8)
  | removeLocal (path : Path)
  /-- somebody else writes or removes a remote file -/
  | editRemote (path : Path) (content : Option (List UInt8))
  /-- a remote file can no longer be opened, or can be opened again -/
  | access (path : Path) (unreadable : Bool)
  deriving DecidableEq, Repr

def happen : Event → World → Option World
  | .editLocal path content, w =>
    some (w.setStore (w.store.put (.mirror path) content))
  | .removeLocal path, w => some (w.setStore (w.store.remove (.mirror path)))
  | .editRemote path content, w =>
    some { w with remote := Function.update w.remote path content }
  | .access path unreadable, w =>
    some { w with unreadable := Function.update w.unreadable path unreadable }

end RemoteMirror.Mirror
