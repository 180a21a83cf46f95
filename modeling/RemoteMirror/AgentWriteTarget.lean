/-
**The file a remote save is about.**

Before the agent saves a file it turns the path of the request into a write target: the path is
normalised, its parent directories are created if they are missing, the parent is resolved by the
operating system and has to lie inside the root the agent serves
(`prepare_write_target` in `crates/nrm-agent/src/main.rs`).  The keys of the write locks of a save
are computed from the root and the target (`write_target_keys`, the version for Unix).

An absolute path is the list of its components, each a byte string.  What the operating system
answers is a parameter (`Unix`), as is the BLAKE3 hash.  Errors are the outermost message of the
error chain.

Main definitions:

* `Agent.normalizeRelativePath`, `Agent.prepareWriteTarget` — from the
  path of a request to its target;
* `Agent.Path.display` — a path as text, with invalid UTF-8 replaced;
* `Agent.writeTargetKeys` — the lock keys of a save.

Main results:

* `Agent.mem_writeTargetKeys_iff` — two saves of one target share a key exactly if
  their roots read the same.
-/

import RemoteMirror.Checks

namespace RemoteMirror.Agent

open Checks

/-! ### Paths and texts -/

/-- A component of a path. -/
abbrev Name : Type := List UInt8

/-- An absolute path. -/
abbrev Path : Type := List Name

/-- The UTF-8 bytes of a text. -/
def textBytes (text : String) : List UInt8 := text.toByteArray.data.toList

theorem textBytes_injective {s t : String} (h : textBytes s = textBytes t) : s = t := by
  have hdata : s.toByteArray.data = t.toByteArray.data := Array.toList_inj.1 h
  exact String.toByteArray_inj.1 (ByteArray.ext hdata)

theorem textBytes_append (s t : String) : textBytes (s ++ t) = textBytes s ++ textBytes t := by
  simp [textBytes]

def isContinuation (b : UInt8) : Bool := 0x80 ≤ b && b ≤ 0xBF

/-- The second bytes that may follow the first byte of a sequence of three or four. -/
def isSecond (first b : UInt8) : Bool :=
  if first = 0xE0 then 0xA0 ≤ b && b ≤ 0xBF
  else if first = 0xED then 0x80 ≤ b && b ≤ 0x9F
  else if first = 0xF0 then 0x90 ≤ b && b ≤ 0xBF
  else if first = 0xF4 then 0x80 ≤ b && b ≤ 0x8F
  else isContinuation b

/-- The payload of the bytes of one sequence, the first byte carrying `bits` of it. -/
def scalar (bits : ℕ) (first : UInt8) (rest : List UInt8) : Char :=
  Char.ofNat (rest.foldl (fun n b => n * 64 + b.toNat % 64) (first.toNat % 2 ^ bits))

/-- `String::from_utf8_lossy`: each maximal ill-formed prefix of a sequence becomes U+FFFD. -/
def fromUtf8Lossy : List UInt8 → List Char
  | [] => []
  | b₀ :: bs =>
    if b₀ < 0x80 then Char.ofNat b₀.toNat :: fromUtf8Lossy bs
    else match bs with
      | [] => ['�']
      | b₁ :: bs₁ =>
        if 0xC2 ≤ b₀ ∧ b₀ ≤ 0xDF ∧ isContinuation b₁ then
          scalar 5 b₀ [b₁] :: fromUtf8Lossy bs₁
        else if 0xE0 ≤ b₀ ∧ b₀ ≤ 0xF4 ∧ isSecond b₀ b₁ then
          match bs₁ with
          | [] => ['�']
          | b₂ :: bs₂ =>
            if isContinuation b₂ then
              if b₀ ≤ 0xEF then scalar 4 b₀ [b₁, b₂] :: fromUtf8Lossy bs₂
              else match bs₂ with
                | [] => ['�']
                | b₃ :: bs₃ =>
                  if isContinuation b₃ then
                    scalar 3 b₀ [b₁, b₂, b₃] :: fromUtf8Lossy bs₃
                  else '�' :: fromUtf8Lossy (b₃ :: bs₃)
            else '�' :: fromUtf8Lossy (b₂ :: bs₂)
        else '�' :: fromUtf8Lossy (b₁ :: bs₁)

/-- The bytes of an absolute path. -/
def Path.bytes (path : Path) : List UInt8 :=
  if path.isEmpty then [47] else path.flatMap fun name => 47 :: name

/-- `Path::display` -/
def Path.display (path : Path) : String := String.ofList (fromUtf8Lossy path.bytes)

/-- `replace('\\', "/")` -/
def forwardSlashes (text : String) : String :=
  String.ofList (text.toList.map fun c => if c = '\\' then '/' else c)

/-- `to_string_lossy` of a relative path -/
def lossyText (relative : Path) : String :=
  String.ofList (fromUtf8Lossy (List.intercalate [47] relative))

def relativePath (root path : Path) : Except String String :=
  if root.isPrefixOf path then .ok (forwardSlashes (lossyText (path.drop root.length)))
  else .error (path.display ++ " cannot be expressed relative to remote root " ++ root.display)

/-! ### Resolving the path of a request -/

/-- The components of a relative path, without the empty ones and `.`. -/
def normalizeRelativePath (path : String) : Except String Path := do
  rejectIf (path.toList.head? == some '/') "remote paths must be workspace-relative"
  let components := (path.toList.splitOn '/').filter fun part => !part.isEmpty && part != ['.']
  rejectIf (components.contains ['.', '.']) "remote path must not contain '..'"
  rejectIf components.isEmpty "remote path must not be empty"
  return components.map fun part => textBytes (String.ofList part)

/-- What `symlink_metadata` says about a path. -/
inductive Stat
  | symlink
  | other
  | notFound
  | failed
  deriving DecidableEq, Repr

/-- The operating system and the hash function, as the agent sees them. -/
structure Unix where
  /-- The state of the file system. -/
  Fs : Type
  /-- `Path::exists` -/
  pathExists : Fs → Path → Bool
  /-- `fs::symlink_metadata` -/
  symlinkMetadata : Fs → Path → Stat
  /-- `Path::canonicalize` -/
  canonicalize : Fs → Path → Except String Path
  /-- `fs::create_dir_all` -/
  createDirAll : Fs → Path → Except String Fs
  /-- The identity of a directory. -/
  Dir : Type
  /-- The directory a path leads to. -/
  directory : Path → Dir
  /-- `blake3::hash`, in hexadecimal. -/
  hashBytes : List UInt8 → String

structure WriteTarget where
  abs : Path
  parentAbs : Path
  deriving DecidableEq, Repr

def ensurePathWithinRoot (root path : Path) : Except String Unit :=
  rejectIf (!root.isPrefixOf path)
    (path.display ++ " resolves outside remote root " ++ root.display)

/-- The loop goes up to the nearest ancestor that exists; the root of the file system has no
parent. -/
def ensureWriteParentInsideRoot (os : Unix) (fs : os.Fs) (root parent : Path) :
    Except String os.Fs := do
  let ancestor ← okOr (parent.inits.reverse.find? (os.pathExists fs))
    "remote path parent is outside the workspace"
  let canonicalAncestor ← (os.canonicalize fs ancestor).mapError
    fun _ => "failed to resolve " ++ ancestor.display
  ensurePathWithinRoot root canonicalAncestor
  os.createDirAll fs parent

def prepareWriteTarget (os : Unix) (fs : os.Fs) (root : Path) (path : String) :
    Except String (WriteTarget × os.Fs) := do
  let relative ← normalizeRelativePath path
  let abs := root ++ relative
  let fileName ← okOr abs.getLast? "remote path must name a file"
  rejectIf (os.symlinkMetadata fs abs == .symlink)
    (path ++ " is a symlink; remote saves do not replace symlinks")
  rejectIf (os.symlinkMetadata fs abs == .failed) ("failed to stat " ++ path)
  let parent := abs.dropLast
  let fs ← ensureWriteParentInsideRoot os fs root parent
  let canonicalParent ← (os.canonicalize fs parent).mapError
    fun _ => "failed to resolve parent for " ++ path
  ensurePathWithinRoot root canonicalParent
  return (⟨canonicalParent ++ [fileName], canonicalParent⟩, fs)

/-! ### Lock keys -/

/-- The text a lock key is the hash of. -/
def lockIdentity (root target : Path) : String := root.display ++ ":" ++ target.display

def writeTargetKeys (os : Unix) (root target : Path) : List String :=
  [os.hashBytes (textBytes (lockIdentity root target))]

/-- **Two saves of one target share a key exactly if their roots read the same.** -/
theorem mem_writeTargetKeys_iff {os : Unix} (hhash : Function.Injective os.hashBytes)
    {root root' target : Path} :
    (∃ key, key ∈ writeTargetKeys os root target ∧ key ∈ writeTargetKeys os root' target) ↔
      root.display = root'.display := by
  simp only [writeTargetKeys, List.mem_singleton, exists_eq_left]
  constructor
  · intro h
    have htext : lockIdentity root target = lockIdentity root' target :=
      textBytes_injective (hhash h)
    have hlist := congrArg String.toList htext
    simp only [lockIdentity, String.toList_append, List.append_cancel_right_eq] at hlist
    exact String.toList_inj.1 hlist
  · intro h
    rw [lockIdentity, lockIdentity, h]

end RemoteMirror.Agent
