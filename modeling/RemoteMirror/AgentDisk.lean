/-
**The files of a remote workspace, as the agent reaches them.**

A regular file is an object with its own identity; directories hold names of such objects, and a
name can be given to another object at once, which is how the agent replaces a file.  Directories
themselves, symbolic links on the way to them, and the resolution of paths are the operating
system's (`Posix`): the agent looks at them, and only adds missing parent directories.

The functions of `crates/nrm-agent/src/main.rs` that only look at the disk are here; those that
change it are in `AgentSave`.

Main definitions:

* `Agent.Disk` — objects, names, and the directories around them;
* `Agent.withExtension`, `Agent.Staging` — names of staging files;
* `Agent.currentRegularFileHash` — the hash a save compares with.

Main results:

* `Agent.currentRegularFileHash_eq_ok` — **what the compared hash is the hash of**.
-/

import RemoteMirror.AgentWriteTarget

namespace RemoteMirror.Agent

open Checks

/-! ### Names of staging files -/

/-- `Path::file_stem`: the name up to its last dot, unless that is the first character. -/
def fileStem (name : Name) : Name :=
  if name = [46, 46] then name
  else match (name.reverse.span (· != 46)).2 with
    | _ :: b :: before => (b :: before).reverse
    | _ => name

/-- The file name of `Path::with_extension`. -/
def withExtension (name : Name) (extension : String) : Name :=
  fileStem name ++ textBytes ("." ++ extension)

/-- The start of the extensions the agent gives to its staging files. -/
def stagingMarks : List String := [".nrm-tmp-", ".nrm-upload-"]

/-- Names that look like staging files of an agent. -/
def Staging (name : Name) : Prop := ∃ mark ∈ stagingMarks, textBytes mark <:+: name

instance (name : Name) : Decidable (Staging name) :=
  inferInstanceAs (Decidable (∃ mark ∈ stagingMarks, textBytes mark <:+: name))

theorem staging_withExtension (name : Name) {mark : String} (rest : String)
    (hmark : "." ++ mark ∈ stagingMarks) : Staging (withExtension name (mark ++ rest)) := by
  refine ⟨"." ++ mark, hmark, fileStem name, textBytes rest, ?_⟩
  rw [withExtension, textBytes_append, textBytes_append, textBytes_append]
  simp only [List.append_assoc]

/-! ### The disk -/

/-- The operating system, with what a save asks about directories. -/
structure Posix extends Unix where
  [decEqDir : DecidableEq Dir]
  /-- `fs::metadata(path).is_dir()` -/
  isDir : Fs → Path → Except String Bool
  /-- The directory a path leads to. -/
  openDir : Fs → Path → Except String Dir
  /-- `fs::symlink_metadata(path)` where the path is a directory itself. -/
  lstatDir : Fs → Path → Option Dir
  /-- There is a directory with this name. -/
  hasSubdir : Fs → Dir → Name → Bool
  openDir_of_lstatDir : ∀ {fs path dir}, lstatDir fs path = some dir → openDir fs path = .ok dir

attribute [instance] Posix.decEqDir

/-- What a name stands for, directories apart. -/
inductive Node
  | file (inode : ℕ)
  | symlink
  | special
  deriving DecidableEq, Repr

/-- The disk.  `next` is an object that does not exist yet. -/
structure Disk (os : Posix) where
  tree : os.Fs
  entry : os.Dir → Name → Option Node
  data : ℕ → List UInt8
  next : ℕ
  entry_lt : ∀ {dir name inode}, entry dir name = some (.file inode) → inode < next

/-- What `fs::symlink_metadata` finds. -/
inductive Lstat
  | missing
  | directory
  | node (node : Node)
  deriving DecidableEq, Repr

/-- The last component of a path. -/
def fileName (path : Path) : Name := path.getLast?.getD []

variable {os : Posix}

namespace Disk

/-- The bytes of the regular file with this name. -/
def file (disk : Disk os) (dir : os.Dir) (name : Name) : Option (List UInt8) :=
  match disk.entry dir name with
  | some (.file inode) => some (disk.data inode)
  | _ => none

/-- What a reader finds under a name. -/
inductive View
  | regular (bytes : List UInt8)
  | symlink
  | special
  deriving DecidableEq, Repr

def view (disk : Disk os) (dir : os.Dir) (name : Name) : Option View :=
  (disk.entry dir name).map fun node => match node with
    | .file inode => .regular (disk.data inode)
    | .symlink => .symlink
    | .special => .special

/-- `fs::symlink_metadata` -/
def lstat (disk : Disk os) (path : Path) : Lstat :=
  match os.openDir disk.tree path.dropLast with
  | .error _ => .missing
  | .ok dir =>
    if os.hasSubdir disk.tree dir (fileName path) then .directory
    else match disk.entry dir (fileName path) with
      | some node => .node node
      | none => .missing

end Disk

/-! ### Looking at parents and contents -/

def verifyParentDirIdentity (os : Posix) (tree : os.Fs) (dir : os.Dir) (path : Path) :
    Except String Unit :=
  match os.lstatDir tree path with
  | none => .error ("parent path " ++ path.display ++ " is not a directory")
  | some current => rejectIf (decide (current ≠ dir))
      ("parent path " ++ path.display ++ " was replaced")

variable {tree : os.Fs} {dir : os.Dir}

theorem verifyParentDirIdentity_eq_ok {path : Path} {u : Unit} :
    verifyParentDirIdentity os tree dir path = .ok u ↔ os.lstatDir tree path = some dir := by
  unfold verifyParentDirIdentity
  cases h : os.lstatDir tree path with
  | none => simp
  | some current => simp

def ensureTargetParentInsideRoot (os : Posix) (tree : os.Fs) (root targetAbs : Path) :
    Except String Unit := do
  let parent : Path := targetAbs.dropLast
  let isDir ← (os.isDir tree parent).mapError fun _ => "failed to stat parent " ++ parent.display
  rejectIf (!isDir) ("remote path parent " ++ parent.display ++ " is not a directory")
  let canonicalParent ← (os.canonicalize tree parent).mapError
    fun _ => "failed to resolve parent " ++ parent.display
  ensurePathWithinRoot root canonicalParent

def openWriteParent (os : Posix) (tree : os.Fs) (root : Path) (target : WriteTarget) :
    Except String os.Dir := do
  ensureTargetParentInsideRoot os tree root target.abs
  let dir ← (os.openDir tree target.parentAbs).mapError fun _ => "failed to open parent directory"
  verifyParentDirIdentity os tree dir target.parentAbs
  return dir

variable {root : Path}

theorem openWriteParent_eq_ok {target : WriteTarget}
    (h : openWriteParent os tree root target = .ok dir) :
    os.lstatDir tree target.parentAbs = some dir := by
  simp only [openWriteParent, bind_eq_ok, mapError_eq_ok, pure_eq_ok, Except.ok.injEq,
    verifyParentDirIdentity_eq_ok] at h
  obtain ⟨_, -, found, -, _, hfound, rfl⟩ := h
  exact hfound

def verifyWriteParentCurrentPath (os : Posix) (tree : os.Fs) (root : Path) (dir : os.Dir)
    (targetAbs : Path) : Except String Unit := do
  ensureTargetParentInsideRoot os tree root targetAbs
  verifyParentDirIdentity os tree dir targetAbs.dropLast

theorem verifyWriteParentCurrentPath_eq_ok {targetAbs : Path} {u : Unit}
    (h : verifyWriteParentCurrentPath os tree root dir targetAbs = .ok u) :
    os.lstatDir tree targetAbs.dropLast = some dir := by
  simp only [verifyWriteParentCurrentPath, bind_eq_ok, verifyParentDirIdentity_eq_ok] at h
  obtain ⟨_, -, hdir⟩ := h
  exact hdir

/-- The object of a regular file, opened without following a symbolic link. -/
def openExistingContentFile (disk : Disk os) (root : Path) (path : String) : Except String ℕ := do
  let relative ← normalizeRelativePath path
  let abs := root ++ relative
  let canonicalParent ← (os.canonicalize disk.tree abs.dropLast).mapError
    fun _ => "failed to resolve parent for " ++ path
  ensurePathWithinRoot root canonicalParent
  let parentDir ← (os.openDir disk.tree canonicalParent).mapError
    fun _ => "failed to open parent directory"
  verifyParentDirIdentity os disk.tree parentDir canonicalParent
  rejectIf (os.hasSubdir disk.tree parentDir (fileName abs)) (path ++ " is not a regular file")
  match disk.entry parentDir (fileName abs) with
  | some (.file inode) => return inode
  | some .symlink => .error (path ++ " is a symlink; content operations do not follow symlinks")
  | some .special => .error (path ++ " is not a regular file")
  | none => .error ("failed to open " ++ path)

variable {disk : Disk os}

/-- An opened file is the one the path leads to now. -/
theorem openExistingContentFile_eq_ok {path : String} {inode : ℕ}
    (h : openExistingContentFile disk root path = .ok inode) :
    ∃ relative parent dir, normalizeRelativePath path = .ok relative ∧
      os.canonicalize disk.tree (root ++ relative).dropLast = .ok parent ∧
      os.openDir disk.tree parent = .ok dir ∧
      disk.entry dir (fileName (root ++ relative)) = some (.file inode) := by
  simp only [openExistingContentFile, bind_eq_ok, mapError_eq_ok] at h
  obtain ⟨relative, hrelative, parent, hparent, _, -, dir, hdir, _, -, _, -, hentry⟩ := h
  refine ⟨relative, parent, dir, hrelative, hparent, hdir, ?_⟩
  split at hentry
  case h_1 found hfound =>
    rw [hfound]
    simpa using hentry
  all_goals cases hentry

def currentRegularFileHash (disk : Disk os) (root : Path) (path : String) (abs : Path) :
    Except String (Option String) :=
  match disk.lstat abs with
  | .missing => .ok none
  | .directory => .ok none
  | .node .special => .ok none
  | .node .symlink =>
    .error (path ++ " is a symlink; content operations do not follow symlinks")
  | .node (.file _) => do
      let inode ← openExistingContentFile disk root path
      return some (os.hashBytes (disk.data inode))

/-- The request path leads to the directory the target is in. -/
def LeadsTo (tree : os.Fs) (root : Path) (path : String) (targetAbs : Path) : Prop :=
  ∃ relative, normalizeRelativePath path = .ok relative ∧
    os.canonicalize tree (root ++ relative).dropLast = .ok targetAbs.dropLast ∧
    fileName (root ++ relative) = fileName targetAbs

/-- **What the compared hash is the hash of**: if the request path leads to the directory of the
target, it is the target's own. -/
theorem currentRegularFileHash_eq_ok {path : String} {abs : Path} {hash : Option String}
    (hdir : os.lstatDir disk.tree abs.dropLast = some dir)
    (hsubdir : os.hasSubdir disk.tree dir (fileName abs) = false)
    (hleads : LeadsTo disk.tree root path abs)
    (h : currentRegularFileHash disk root path abs = .ok hash) :
    hash = (disk.file dir (fileName abs)).map os.hashBytes := by
  have hopen : os.openDir disk.tree abs.dropLast = .ok dir := os.openDir_of_lstatDir hdir
  unfold currentRegularFileHash Disk.lstat at h
  simp only [hopen, hsubdir, Bool.false_eq_true, if_false] at h
  cases hentry : disk.entry dir (fileName abs) with
  | none =>
    simp only [hentry] at h
    simpa [Disk.file, hentry] using h.symm
  | some node =>
    cases node with
    | symlink => simp [hentry] at h
    | special =>
      simp only [hentry] at h
      simpa [Disk.file, hentry] using h.symm
    | file inode =>
      simp only [hentry, bind_eq_ok, pure_eq_ok, Except.ok.injEq] at h
      obtain ⟨opened, hopened, rfl⟩ := h
      -- opening by the request path arrives at the same directory and name
      obtain ⟨relative, parent, dir', hrelative, hparent, hdir', hfound⟩ :=
        openExistingContentFile_eq_ok hopened
      obtain ⟨relative', hrelative', hparent', hname⟩ := hleads
      rw [hrelative] at hrelative'
      cases hrelative'
      rw [hparent] at hparent'
      cases hparent'
      rw [hopen] at hdir'
      cases hdir'
      rw [hname, hentry] at hfound
      cases hfound
      simp [Disk.file, hentry]

end RemoteMirror.Agent
