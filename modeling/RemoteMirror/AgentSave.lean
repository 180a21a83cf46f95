/-
**Remote saves: compare and swap on files.**

A save names the hash the remote file should still have.  Small saves come in one request
(`write_file_cas_state`); large ones are uploaded in chunks to a staging file first
(`begin_write_file_cas`, `write_file_chunk`, `finish_write_file_cas`, `abort_write_file_cas`), and
uploads that are not finished in time are dropped (`cleanup_expired_uploads`).  In both cases the
bytes are put in a staging file next to the target, the hash is compared once more, and the staging
file is renamed over the target.

Every call to the operating system can fail, and a failed write can leave a part of its bytes
behind.  Errors are told apart by what the agent was doing; their texts are those of the source.

Main definitions:

* `Agent.PendingUpload`, `Agent.AgentState`, `Agent.World`;
* `Agent.Sys`, `Agent.answer` — the calls to the operating system;
* `Agent.checkAndReplace` — the final check and the replacement;
* `Agent.handleRequest` — the requests of a save.
-/

import RemoteMirror.AgentDisk
import RemoteMirror.FileStore
import RemoteMirror.Interact

namespace RemoteMirror.Agent

open FileStore (overwrite)
open Interact (Prog)

/-! ### Requests and answers -/

/-- The requests of a save. -/
inductive SaveRequest
  | writeFileCas (path : String) (expectedHash : Option String) (content : List UInt8)
  | beginWriteFileCas (path : String) (expectedHash : Option String) (contentHash : String)
      (size : ℕ)
  | writeFileChunk (uploadId : String) (offset : ℕ) (content : List UInt8)
  | finishWriteFileCas (uploadId : String)
  | abortWriteFileCas (uploadId : String)
  deriving DecidableEq, Repr

structure SaveApplied where
  path : String
  newHash : String
  size : ℕ
  mtimeMs : ℤ
  deriving DecidableEq, Repr

structure SaveConflict where
  path : String
  expectedHash : Option String
  actualHash : Option String
  remoteContent : List UInt8
  remoteContentTruncated : Bool
  remoteSize : Option ℕ
  deriving DecidableEq, Repr

inductive SaveOutcome
  | applied (applied : SaveApplied)
  | conflict (conflict : SaveConflict)
  deriving DecidableEq, Repr

inductive WriteStartOutcome
  | started (uploadId : String)
  | conflict (conflict : SaveConflict)
  deriving DecidableEq, Repr

inductive SaveResponse
  | writeFileCas (outcome : SaveOutcome)
  | beginWriteFileCas (outcome : WriteStartOutcome)
  | writeFileChunk (uploadId : String) (accepted : ℕ)
  | finishWriteFileCas (outcome : SaveOutcome)
  | abortWriteFileCas (uploadId : String)
  deriving DecidableEq, Repr

/-- What the agent was doing when a request failed. -/
inductive AgentError
  /-- preparing the target, its locks or its parent directory -/
  | prepare (message : String)
  /-- reading the hash to compare -/
  | check (message : String)
  /-- filling or checking the staging file -/
  | stage (message : String)
  /-- renaming the staging file over the target -/
  | replace (message : String)
  /-- after the rename: syncing the directory -/
  | syncParent (message : String)
  /-- after the rename: reading the new hash -/
  | rehash (message : String)
  /-- after the rename: reading size and time -/
  | fileMeta (message : String)
  /-- a request that does not fit the uploads there are -/
  | upload (message : String)
  deriving DecidableEq, Repr

/-- The target has been replaced, and only then something failed. -/
def AgentError.late : AgentError → Bool
  | .syncParent _ => true
  | .rehash _ => true
  | .fileMeta _ => true
  | _ => false

/-! ### The state of the agent -/

def maxActiveUploads : ℕ := 8

def maxActiveUploadBytes : ℕ := 512 * 1024 * 1024

/-- `UPLOAD_TTL`, in nanoseconds -/
def uploadTtl : ℕ := 10 * 60 * 1000000000

def maxConflictContentBytes : ℕ := 4 * 1024 * 1024

/-- The greatest `u64`, at which sums of sizes saturate. -/
def u64Max : ℕ := 2 ^ 64 - 1

/-- An upload that has begun. -/
structure PendingUpload (os : Posix) where
  path : String
  targetAbs : Path
  targetKeys : List String
  expectedHash : Option String
  contentHash : String
  size : ℕ
  tmpPath : Path
  tmpName : Name
  tmpFile : ℕ
  parent : os.Dir
  written : ℕ
  createdAt : ℕ

/-- The agent's own state, as far as saves use it. -/
structure AgentState (os : Posix) where
  root : Path
  uploads : List (String × PendingUpload os)
  activeWriteTargets : List String

variable {os : Posix}

namespace AgentState

/-- `HashMap::get` -/
def get? (state : AgentState os) (uploadId : String) : Option (PendingUpload os) :=
  state.uploads.lookup uploadId

/-- `HashMap::remove` of an upload -/
def remove (uploadId : String) (state : AgentState os) : AgentState os :=
  { state with uploads := state.uploads.filter fun entry => entry.1 != uploadId }

/-- `HashMap::insert` of an upload -/
def insert (uploadId : String) (upload : PendingUpload os) (state : AgentState os) :
    AgentState os :=
  { state with uploads := (uploadId, upload) :: (state.remove uploadId).uploads }

/-- Removing keys from the set of active targets. -/
def release (keys : List String) (state : AgentState os) : AgentState os :=
  { state with activeWriteTargets := state.activeWriteTargets.filter fun key => !keys.contains key }

end AgentState

/-- The agent and the disk. -/
structure World (os : Posix) where
  state : AgentState os
  disk : Disk os

/-! ### Calls to the operating system -/

/-- The calls of a save.  Those that only look at the disk are whole functions of the source. -/
inductive Sys (os : Posix)
  | state
  | setState (f : AgentState os → AgentState os)
  /-- nanoseconds since the epoch -/
  | systemTime
  | instantNow
  | prepareWriteTarget (path : String)
  | acquireWriteLocks (keys : List String) (path : String)
  | openWriteParent (target : WriteTarget)
  | verifyWriteParent (parent : os.Dir) (targetAbs : Path)
  | currentRegularFileHash (path : String) (abs : Path)
  | openExistingContentFile (path : String)
  | readFile (inode : ℕ)
  | createTempFile (parent : os.Dir) (name : Name)
  | writeAll (inode : ℕ) (offset : ℕ) (content : List UInt8)
  | syncAll (inode : ℕ)
  | hashOpenFile (inode : ℕ)
  | verifyTempFileIdentity (inode : ℕ) (path : Path)
  | removeTempFile (parent : os.Dir) (name : Name)
  | renameat (parent : os.Dir) (tmpName targetName : Name)
  | syncWriteParent (parent : os.Dir)
  | hashFile (path : Path)
  | fileMeta (path : Path)

/-- What became of a file that was to be removed. -/
inductive Removed
  | removed
  | notFound
  | failed (message : String)
  deriving DecidableEq, Repr

/-- What each call answers; an opened file comes with its length. -/
def SysAns : Sys os → Type
  | .state => AgentState os
  | .setState _ => Unit
  | .systemTime => ℕ
  | .instantNow => ℕ
  | .prepareWriteTarget _ => Except String WriteTarget
  | .acquireWriteLocks _ _ => Except String Unit
  | .openWriteParent _ => Except String os.Dir
  | .verifyWriteParent _ _ => Except String Unit
  | .currentRegularFileHash _ _ => Except String (Option String)
  | .openExistingContentFile _ => Except String (ℕ × ℕ)
  | .readFile _ => Except String (List UInt8)
  | .createTempFile _ _ => Except String ℕ
  | .writeAll _ _ _ => Except String Unit
  | .syncAll _ => Except String Unit
  | .hashOpenFile _ => Except String String
  | .verifyTempFileIdentity _ _ => Except String Unit
  | .removeTempFile _ _ => Removed
  | .renameat _ _ _ => Except String Unit
  | .syncWriteParent _ => Except String Unit
  | .hashFile _ => Except String String
  | .fileMeta _ => Except String (ℕ × ℤ)

/-- What a call leaves open: that it fails, how much of a failed write was written, and what clocks
say. -/
inductive Choice
  | ok
  | fail (message : String)
  | short (written : ℕ) (message : String)
  | value (n : ℕ)
  | mtime (ms : ℤ)
  deriving DecidableEq, Repr

namespace Disk

/-- A new empty file. -/
def create (disk : Disk os) (dir : os.Dir) (name : Name) : Disk os where
  tree := disk.tree
  entry := fun d n => if d = dir ∧ n = name then some (.file disk.next) else disk.entry d n
  data := Function.update disk.data disk.next []
  next := disk.next + 1
  entry_lt := by
    intro d n inode h
    split at h
    · cases h
      exact Nat.lt_succ_self _
    · exact Nat.lt_succ_of_lt (disk.entry_lt h)

/-- Other bytes for an object. -/
def setData (disk : Disk os) (inode : ℕ) (bytes : List UInt8) : Disk os :=
  { disk with data := Function.update disk.data inode bytes }

/-- `unlinkat` -/
def unlink (disk : Disk os) (dir : os.Dir) (name : Name) : Disk os :=
  { disk with
    entry := fun d n => if d = dir ∧ n = name then none else disk.entry d n
    entry_lt := by
      intro d n inode h
      split at h
      · cases h
      · exact disk.entry_lt h }

/-- `renameat` within one directory: the target name now stands for what the other name stood
for. -/
def rename (disk : Disk os) (dir : os.Dir) (tmpName targetName : Name) : Disk os :=
  { disk with
    entry := fun d n =>
      if d = dir ∧ n = targetName then disk.entry dir tmpName
      else if d = dir ∧ n = tmpName then none
      else disk.entry d n
    entry_lt := by
      intro d n inode h
      split at h
      · exact disk.entry_lt h
      · split at h
        · cases h
        · exact disk.entry_lt h }

/-- Other directories. -/
def setTree (disk : Disk os) (tree : os.Fs) : Disk os := { disk with tree := tree }

end Disk

/-- A call that looks at the disk: it fails as chosen or answers what it sees. -/
def look {α : Type} (w : World os) (c : Choice) (seen : Except String α) :
    Option (Except String α × World os) :=
  match c with
  | .fail message => some (.error message, w)
  | _ => some (seen, w)

/-- A call that does something unless it fails as chosen. -/
def act {α : Type} (w : World os) (c : Choice) (done : Except String α × World os) :
    Option (Except String α × World os) :=
  match c with
  | .fail message => some (.error message, w)
  | _ => some done

/-- A clock says what was chosen. -/
def clock (w : World os) : Choice → Option (ℕ × World os)
  | .value n => some (n, w)
  | _ => none

/-- The file a path leads to, if its last component is one. -/
def Disk.regular (disk : Disk os) (path : Path) : Except String ℕ :=
  match disk.lstat path with
  | .node (.file inode) => .ok inode
  | _ => .error "not a regular file"

/-- `prepare_write_target`, which creates directories. -/
def prepareAt (w : World os) (c : Choice) (path : String) :
    Option (Except String WriteTarget × World os) :=
  match prepareWriteTarget os.toUnix w.disk.tree w.state.root path with
  | .ok (target, tree) => act w c (.ok target, { w with disk := w.disk.setTree tree })
  | .error message => some (.error message, w)

/-- A file is only created where nothing is. -/
def createAt (w : World os) (c : Choice) (parent : os.Dir) (name : Name) :
    Option (Except String ℕ × World os) :=
  if os.hasSubdir w.disk.tree parent name || (w.disk.entry parent name).isSome then
    some (.error "File exists", w)
  else act w c (.ok w.disk.next, { w with disk := w.disk.create parent name })

/-- A write that fails may have written the first bytes. -/
def writeAt (w : World os) (c : Choice) (inode offset : ℕ) (content : List UInt8) :
    Option (Except String Unit × World os) :=
  match c with
  | .short written message => some (.error message, { w with
      disk := w.disk.setData inode
        (overwrite (w.disk.data inode) offset (content.take written)) })
  | _ => act w c (.ok (), { w with
      disk := w.disk.setData inode (overwrite (w.disk.data inode) offset content) })

def verifyTempFileIdentity (disk : Disk os) (inode : ℕ) (path : Path) : Except String Unit :=
  match disk.lstat path with
  | .node (.file found) => if found = inode then .ok ()
      else .error ("temp path " ++ path.display ++ " was replaced during upload")
  | .missing => .error ("failed to stat temp path " ++ path.display)
  | _ => .error ("temp path " ++ path.display ++ " is not a regular file")

def removeAt (w : World os) (c : Choice) (parent : os.Dir) (name : Name) :
    Option (Removed × World os) :=
  match c with
  | .fail message => some (.failed message, w)
  | _ =>
    match w.disk.entry parent name with
    | some _ => some (.removed, { w with disk := w.disk.unlink parent name })
    | none => some (.notFound, w)

/-- A name cannot be given to a file while it is the name of a directory. -/
def renameAt (w : World os) (c : Choice) (parent : os.Dir) (tmpName targetName : Name) :
    Option (Except String Unit × World os) :=
  match w.disk.entry parent tmpName with
  | some _ =>
    if os.hasSubdir w.disk.tree parent targetName then some (.error "Is a directory", w)
    else act w c (.ok (), { w with disk := w.disk.rename parent tmpName targetName })
  | none => some (.error "No such file or directory", w)

/-- `file_meta`: size and time of a file in the root. -/
def metaAt (w : World os) (c : Choice) (path : Path) :
    Option (Except String (ℕ × ℤ) × World os) :=
  match c with
  | .fail message => some (.error message, w)
  | .mtime ms => some (do
      let inode ← w.disk.regular path
      let _ ← relativePath w.state.root path
      return ((w.disk.data inode).length, ms), w)
  | _ => none

/-- The operating system's side of the calls. -/
def answer (e : Sys os) (c : Choice) (w : World os) : Option (SysAns e × World os) :=
  match e with
  | .state => some (w.state, w)
  | .setState f => some ((), { w with state := f w.state })
  | .systemTime => clock w c
  | .instantNow => clock w c
  | .prepareWriteTarget path => prepareAt w c path
  | .acquireWriteLocks _ _ => look w c (.ok ())
  | .openWriteParent target =>
    look w c (openWriteParent os w.disk.tree w.state.root target)
  | .verifyWriteParent parent targetAbs =>
    look w c (verifyWriteParentCurrentPath os w.disk.tree w.state.root parent targetAbs)
  | .currentRegularFileHash path abs =>
    look w c (currentRegularFileHash w.disk w.state.root path abs)
  | .openExistingContentFile path =>
    look w c ((openExistingContentFile w.disk w.state.root path).map fun inode =>
      (inode, (w.disk.data inode).length))
  | .readFile inode => look w c (.ok (w.disk.data inode))
  | .createTempFile parent name => createAt w c parent name
  | .writeAll inode offset content => writeAt w c inode offset content
  | .syncAll _ => look w c (.ok ())
  | .hashOpenFile inode => look w c (.ok (os.hashBytes (w.disk.data inode)))
  | .verifyTempFileIdentity inode path =>
    look w c (verifyTempFileIdentity w.disk inode path)
  | .removeTempFile parent name => removeAt w c parent name
  | .renameat parent tmpName targetName => renameAt w c parent tmpName targetName
  | .syncWriteParent _ => look w c (.ok ())
  | .hashFile path =>
    look w c ((w.disk.regular path).map fun inode => os.hashBytes (w.disk.data inode))
  | .fileMeta path => metaAt w c path

/-! ### Saves -/

/-- Functions of the agent. -/
abbrev AgentM (os : Posix) := Prog (Sys os) (@SysAns os) AgentError

def call (e : Sys os) : AgentM os (SysAns e) := Prog.ask e

def systemTime : AgentM os ℕ := call .systemTime

def instantNow : AgentM os ℕ := call .instantNow

def agentState : AgentM os (AgentState os) := call .state

def setState (f : AgentState os → AgentState os) : AgentM os Unit := call (.setState f)

/-- `?`, with what the agent was doing. -/
def orFail {α : Type} (error : String → AgentError) : Except String α → AgentM os α
  | .ok a => pure a
  | .error message => .err (error message)

/-- A call whose failure ends the request. -/
def attemptCall {α : Type} (error : String → AgentError) (e : AgentM os (Except String α)) :
    AgentM os α := do
  let result ← e
  orFail error result

/-- `remove_temp_file`, whose own failure is ignored. -/
def removeTempFile (parent : os.Dir) (name : Name) : AgentM os Unit := do
  let _ ← call (.removeTempFile parent name)
  pure ()

/-- A call whose failure ends the request, once the staging file is removed. -/
def orRemoveTemp {α : Type} (parent : os.Dir) (name : Name) (error : String → AgentError)
    (e : AgentM os (Except String α)) : AgentM os α := do
  let result ← e
  match result with
  | .ok a => pure a
  | .error message => do
      removeTempFile parent name
      .err (error message)

def remoteConflictContent (path : String) : AgentM os (List UInt8 × Bool × Option ℕ) := do
  let opened ← call (.openExistingContentFile path)
  match opened with
  | .error _ => pure ([], false, none)
  | .ok (inode, remoteSize) => do
      let read ← call (.readFile inode)
      let remoteContent := match read with
        | .ok bytes => bytes.take (min remoteSize maxConflictContentBytes)
        | .error _ => []
      pure (remoteContent, decide (remoteContent.length < remoteSize), some remoteSize)

def saveConflict (path : String) (expectedHash actualHash : Option String) :
    AgentM os SaveConflict := do
  let (remoteContent, remoteContentTruncated, remoteSize) ← remoteConflictContent path
  pure ⟨path, expectedHash, actualHash, remoteContent, remoteContentTruncated, remoteSize⟩

/-- `rename_temp_into_path` with `cleanup_failed_replacement` -/
def renameTempIntoPath (parent : os.Dir) (tmpPath : Path) (tmpName : Name) (targetAbs : Path) :
    AgentM os Unit := do
  let renamed ← call (.renameat parent tmpName (fileName targetAbs))
  match renamed with
  | .ok () => pure ()
  | .error _ => do
      let replaceError := "failed to rename temp file into " ++ targetAbs.display ++ " from " ++
        tmpPath.display
      let cleanup ← call (.removeTempFile parent tmpName)
      match cleanup with
      | .failed message => .err (.replace (replaceError ++
          "; additionally failed to remove temp file " ++ tmpPath.display ++ ": " ++ message))
      | _ => .err (.replace replaceError)

/-- The end both kinds of saves have in common: the parent is still the same directory, the hash is
compared for the last time, and the staging file takes the place of the target. -/
def checkAndReplace (path : String) (targetAbs : Path) (expectedHash : Option String)
    (parent : os.Dir) (tmpPath : Path) (tmpName : Name) (tmpFile : ℕ) :
    AgentM os (Option SaveConflict) := do
  orRemoveTemp parent tmpName .prepare (call (.verifyWriteParent parent targetAbs))
  let actualHash ← attemptCall .check (call (.currentRegularFileHash path targetAbs))
  if actualHash ≠ expectedHash then do
    removeTempFile parent tmpName
    let conflict ← saveConflict path expectedHash actualHash
    pure (some conflict)
  else do
    orRemoveTemp parent tmpName .prepare (call (.verifyWriteParent parent targetAbs))
    orRemoveTemp parent tmpName .stage (call (.verifyTempFileIdentity tmpFile tmpPath))
    renameTempIntoPath parent tmpPath tmpName targetAbs
    attemptCall (fun _ => .syncParent ("failed to sync directory for " ++ targetAbs.display))
      (call (.syncWriteParent parent))
    pure none

/-- The name of the staging file of a save in one request. -/
def saveTempName (targetAbs : Path) (nanos : ℕ) : Name :=
  withExtension (fileName targetAbs) ("nrm-tmp-" ++ toString nanos)

/-- The name of the staging file of an upload. -/
def uploadTempName (targetAbs : Path) (uploadId : String) : Name :=
  withExtension (fileName targetAbs) ("nrm-upload-" ++ uploadId)

def writeFileCasPrepared (path : String) (expectedHash : Option String) (content : List UInt8)
    (target : WriteTarget) : AgentM os SaveOutcome := do
  let parent ← attemptCall .prepare (call (.openWriteParent target))
  let actualHash ← attemptCall .check (call (.currentRegularFileHash path target.abs))
  if actualHash ≠ expectedHash then do
    let conflict ← saveConflict path expectedHash actualHash
    pure (.conflict conflict)
  else do
    let nanos ← systemTime
    let tmpName := saveTempName target.abs nanos
    let tmpPath : Path := target.abs.dropLast ++ [tmpName]
    attemptCall .prepare (call (.verifyWriteParent parent target.abs))
    let tmpFile ← attemptCall (fun _ => .stage ("failed to create temp file " ++ tmpPath.display))
      (call (.createTempFile parent tmpName))
    orRemoveTemp parent tmpName
      (fun _ => .stage ("failed to write temp file " ++ tmpPath.display))
      (call (.writeAll tmpFile 0 content))
    orRemoveTemp parent tmpName
      (fun _ => .stage ("failed to write temp file " ++ tmpPath.display))
      (call (.syncAll tmpFile))
    orRemoveTemp parent tmpName .stage (call (.verifyTempFileIdentity tmpFile tmpPath))
    let conflict ← checkAndReplace path target.abs expectedHash parent tmpPath tmpName tmpFile
    match conflict with
    | some conflict => pure (.conflict conflict)
    | none => do
        let newHash ← attemptCall .rehash (call (.hashFile target.abs))
        let stat ← attemptCall .fileMeta (call (.fileMeta target.abs))
        pure (.applied ⟨path, newHash, stat.1, stat.2⟩)

def ensureNoActiveWrite (targetKeys : List String) (path : String) : AgentM os Unit := do
  let state ← agentState
  if targetKeys.any fun key => state.activeWriteTargets.contains key then
    .err (.prepare ("remote write already in progress for " ++ path))
  else pure ()

/-- How every save starts: its target, the keys of the target, and the locks for them. -/
def claimTarget (path : String) : AgentM os (WriteTarget × List String) := do
  let target ← attemptCall .prepare (call (.prepareWriteTarget path))
  let state ← agentState
  let targetKeys := writeTargetKeys os.toUnix state.root target.abs
  ensureNoActiveWrite targetKeys path
  attemptCall .prepare (call (.acquireWriteLocks targetKeys path))
  pure (target, targetKeys)

def writeFileCasState (path : String) (expectedHash : Option String) (content : List UInt8) :
    AgentM os SaveResponse := do
  let claimed ← claimTarget path
  let outcome ← writeFileCasPrepared path expectedHash content claimed.1
  pure (.writeFileCas outcome)

/-! ### Uploads -/

/-- Drop one upload: its entry, its staging file, its claim on the target. -/
def dropUpload (uploadId : String) (upload : PendingUpload os) : AgentM os Unit := do
  setState (AgentState.remove uploadId)
  removeTempFile upload.parent upload.tmpName
  setState (AgentState.release upload.targetKeys)

/-- The loop of `cleanup_expired_uploads_at`. -/
def dropUploads : List (String × PendingUpload os) → AgentM os Unit
  | [] => pure ()
  | (uploadId, upload) :: rest => do
      dropUpload uploadId upload
      dropUploads rest

def cleanupExpiredUploads : AgentM os Unit := do
  let now ← instantNow
  let state ← agentState
  dropUploads (state.uploads.filter fun entry => decide (uploadTtl < now - entry.2.createdAt))

def enforceUploadLimits (newSize : ℕ) : AgentM os Unit := do
  let state ← agentState
  if maxActiveUploads ≤ state.uploads.length then
    .err (.upload ("too many active uploads: max=" ++ toString maxActiveUploads))
  else do
    let activeBytes := state.uploads.foldl (fun sum entry => min (sum + entry.2.size) u64Max) 0
    let nextBytes := min (activeBytes + newSize) u64Max
    if maxActiveUploadBytes < nextBytes then
      .err (.upload ("active upload bytes would exceed limit: next=" ++ toString nextBytes ++
        " max=" ++ toString maxActiveUploadBytes))
    else pure ()

def beginWriteFileCas (path : String) (expectedHash : Option String) (contentHash : String)
    (size : ℕ) : AgentM os SaveResponse := do
  cleanupExpiredUploads
  enforceUploadLimits size
  let claimed ← claimTarget path
  let target := claimed.1
  let parent ← attemptCall .prepare (call (.openWriteParent target))
  let actualHash ← attemptCall .check (call (.currentRegularFileHash path target.abs))
  if actualHash ≠ expectedHash then do
    let conflict ← saveConflict path expectedHash actualHash
    pure (.beginWriteFileCas (.conflict conflict))
  else do
    let nanos ← systemTime
    let uploadId := toString nanos ++ "-" ++ os.hashBytes (textBytes path)
    let tmpName := uploadTempName target.abs uploadId
    let tmpPath : Path := target.abs.dropLast ++ [tmpName]
    attemptCall .prepare (call (.verifyWriteParent parent target.abs))
    let tmpFile ← attemptCall (fun _ => .stage ("failed to create temp file " ++ tmpPath.display))
      (call (.createTempFile parent tmpName))
    setState fun state => { state with
      activeWriteTargets := claimed.2 ++ state.activeWriteTargets }
    let createdAt ← instantNow
    setState (AgentState.insert uploadId
      ⟨path, target.abs, claimed.2, expectedHash, contentHash, size, tmpPath, tmpName, tmpFile,
        parent, 0, createdAt⟩)
    pure (.beginWriteFileCas (.started uploadId))

/-- The upload of a request, or the error that there is none. -/
def lookupUpload (uploadId : String) : AgentM os (PendingUpload os) := do
  let state ← agentState
  match state.get? uploadId with
  | some upload => pure upload
  | none => .err (.upload ("unknown upload id " ++ uploadId))

def writeFileChunk (uploadId : String) (offset : ℕ) (content : List UInt8) :
    AgentM os SaveResponse := do
  cleanupExpiredUploads
  let upload ← lookupUpload uploadId
  if offset ≠ upload.written then
    .err (.upload ("upload " ++ uploadId ++ " expected offset " ++ toString upload.written ++
      ", got " ++ toString offset))
  else do
    let next := min (upload.written + content.length) u64Max
    if upload.size < next then
      .err (.upload ("upload " ++ uploadId ++ " exceeds declared size: next=" ++ toString next ++
        " size=" ++ toString upload.size))
    else do
      attemptCall .stage (call (.writeAll upload.tmpFile offset content))
      setState (AgentState.insert uploadId
        { upload with written := next })
      pure (.writeFileChunk uploadId next)

/-- `finish_write_file_cas` once the upload is taken out of the map. -/
def finishUpload (uploadId : String) (upload : PendingUpload os) : AgentM os SaveOutcome := do
  if upload.written ≠ upload.size then do
    removeTempFile upload.parent upload.tmpName
    .err (.upload ("upload " ++ uploadId ++ " incomplete: written=" ++ toString upload.written ++
      " size=" ++ toString upload.size))
  else do
    orRemoveTemp upload.parent upload.tmpName
      (fun _ => .stage ("failed to sync upload " ++ uploadId ++ " temp file"))
      (call (.syncAll upload.tmpFile))
    let tmpHash ← orRemoveTemp upload.parent upload.tmpName .stage
      (call (.hashOpenFile upload.tmpFile))
    if tmpHash ≠ upload.contentHash then do
      removeTempFile upload.parent upload.tmpName
      .err (.upload ("upload " ++ uploadId ++ " hash mismatch: expected=" ++ upload.contentHash ++
        " actual=" ++ tmpHash))
    else do
      orRemoveTemp upload.parent upload.tmpName .stage
        (call (.verifyTempFileIdentity upload.tmpFile upload.tmpPath))
      let conflict ← checkAndReplace upload.path upload.targetAbs upload.expectedHash
        upload.parent upload.tmpPath upload.tmpName upload.tmpFile
      match conflict with
      | some conflict => pure (.conflict conflict)
      | none => do
          let stat ← attemptCall .fileMeta (call (.fileMeta upload.targetAbs))
          pure (.applied ⟨upload.path, tmpHash, stat.1, stat.2⟩)

/-- `finish_write_file_cas`; the claim on the target is released however it ends. -/
def finishWriteFileCas (uploadId : String) : AgentM os SaveResponse := do
  cleanupExpiredUploads
  let upload ← lookupUpload uploadId
  setState (AgentState.remove uploadId)
  let outcome ← (finishUpload uploadId upload).attempt
  setState (AgentState.release upload.targetKeys)
  match outcome with
  | .ok outcome => pure (.finishWriteFileCas outcome)
  | .error error => .err error

def abortWriteFileCas (uploadId : String) : AgentM os SaveResponse := do
  cleanupExpiredUploads
  let state ← agentState
  match state.get? uploadId with
  | some upload => do
      dropUpload uploadId upload
      pure (.abortWriteFileCas uploadId)
  | none => pure (.abortWriteFileCas uploadId)

/-- `handle_request`, for the requests of a save. -/
def handleRequest : SaveRequest → AgentM os SaveResponse
  | .writeFileCas path expectedHash content => writeFileCasState path expectedHash content
  | .beginWriteFileCas path expectedHash contentHash size =>
    beginWriteFileCas path expectedHash contentHash size
  | .writeFileChunk uploadId offset content => writeFileChunk uploadId offset content
  | .finishWriteFileCas uploadId => finishWriteFileCas uploadId
  | .abortWriteFileCas uploadId => abortWriteFileCas uploadId

end RemoteMirror.Agent
