/-
**What a scan reports, and where the reported paths lead.**

`scan` of `crates/nrm-agent/src/main.rs` walks the workspace and reports every file with its path
relative to the root, as text.  The sidecar keeps these texts; when a request names one, the sidecar
normalises it and the agent resolves the result below the root.  The model is that of Unix, for both
hosts: a name can contain any byte but `/` and NUL.

`relative_path` replaces every backslash by a slash, on Unix as well, where a backslash is an
ordinary character.  So a file whose name contains one is reported under the path of another file,
which may or may not exist.  Without such names the paths are as they should be.

The walk itself is third-party code: it yields the entries of a directory in the order of their
names, without those that are ignored, each directory before its entries.  Whether one is ignored is
a parameter. For a directory that cannot be listed it yields an error, with which a scan fails; the
scans below are of workspaces without one.

Main definitions:

* `Agent.FileName`, `Agent.Dir`, `Agent.Workspace` — a tree of
  files with legal names;
* `Agent.relativePath`, `Agent.scanLoop`, `Agent.scan` — the scan;
* `Sidecar.normalizeRelativePath`, `Agent.resolveRemotePath` — the way back.

Main results:

* `Agent.fromUtf8Lossy_textBytes` — valid UTF-8 is read back as it was written;
* `Agent.walk_sorted` — the walk is in the order of the names;
* `Agent.scan_path_identity` — **the reported paths are different and lead back to the files
  exactly if no name contains a backslash**.
-/

import RemoteMirror.AgentWriteTarget
import RemoteMirror.TextSlice

namespace RemoteMirror.Agent

open Checks

/-! ### Texts and their bytes -/

theorem textBytes_eq (text : String) :
    textBytes text = text.toList.flatMap String.utf8EncodeChar := by
  have h : text.toByteArray = text.toList.utf8Encode := by
    rw [← String.toByteArray_ofList, String.ofList_toList]
  rw [textBytes, h, List.utf8Encode, List.toList_data_toByteArray]

section Sequences

variable {b₀ b₁ b₂ b₃ : UInt8} {rest : List UInt8}

theorem fromUtf8Lossy_one (h : b₀ < 0x80) :
    fromUtf8Lossy (b₀ :: rest) = Char.ofNat b₀.toNat :: fromUtf8Lossy rest := by
  rw [fromUtf8Lossy.eq_def]
  exact if_pos h

theorem fromUtf8Lossy_two (h : ¬ b₀ < 0x80) (h₀ : 0xC2 ≤ b₀ ∧ b₀ ≤ 0xDF)
    (h₁ : isContinuation b₁ = true) :
    fromUtf8Lossy (b₀ :: b₁ :: rest) = scalar 5 b₀ [b₁] :: fromUtf8Lossy rest := by
  rw [fromUtf8Lossy.eq_def]
  exact (if_neg h).trans (if_pos ⟨h₀.1, h₀.2, h₁⟩)

theorem fromUtf8Lossy_three (h : ¬ b₀ < 0x80) (h₀ : 0xE0 ≤ b₀ ∧ b₀ ≤ 0xEF)
    (h₁ : isSecond b₀ b₁ = true) (h₂ : isContinuation b₂ = true) :
    fromUtf8Lossy (b₀ :: b₁ :: b₂ :: rest) = scalar 4 b₀ [b₁, b₂] :: fromUtf8Lossy rest := by
  have hnot : ¬ (0xC2 ≤ b₀ ∧ b₀ ≤ 0xDF ∧ isContinuation b₁ = true) := by
    rintro ⟨-, h', -⟩
    exact absurd (UInt8.le_trans h₀.1 h') (by decide)
  have hlong : 0xE0 ≤ b₀ ∧ b₀ ≤ 0xF4 ∧ isSecond b₀ b₁ = true :=
    ⟨h₀.1, UInt8.le_trans h₀.2 (by decide), h₁⟩
  rw [fromUtf8Lossy.eq_def]
  exact (if_neg h).trans ((if_neg hnot).trans ((if_pos hlong).trans ((if_pos h₂).trans
    (if_pos h₀.2))))

theorem fromUtf8Lossy_four (h : ¬ b₀ < 0x80) (h₀ : 0xF0 ≤ b₀ ∧ b₀ ≤ 0xF4)
    (h₁ : isSecond b₀ b₁ = true) (h₂ : isContinuation b₂ = true) (h₃ : isContinuation b₃ = true) :
    fromUtf8Lossy (b₀ :: b₁ :: b₂ :: b₃ :: rest) =
      scalar 3 b₀ [b₁, b₂, b₃] :: fromUtf8Lossy rest := by
  have hnot : ¬ (0xC2 ≤ b₀ ∧ b₀ ≤ 0xDF ∧ isContinuation b₁ = true) := by
    rintro ⟨-, h', -⟩
    exact absurd (UInt8.le_trans h₀.1 h') (by decide)
  have hlong : 0xE0 ≤ b₀ ∧ b₀ ≤ 0xF4 ∧ isSecond b₀ b₁ = true :=
    ⟨UInt8.le_trans (by decide) h₀.1, h₀.2, h₁⟩
  have hfour : ¬ b₀ ≤ 0xEF := fun h' => absurd (UInt8.le_trans h₀.1 h') (by decide)
  rw [fromUtf8Lossy.eq_def]
  exact (if_neg h).trans ((if_neg hnot).trans ((if_pos hlong).trans ((if_pos h₂).trans
    ((if_neg hfour).trans (if_pos h₃)))))

end Sequences

section Bytes

variable {n k : ℕ} (hn : n < 256) (hk : k < 256)

include hn

theorem toNat_ofNat_of_lt : (UInt8.ofNat n).toNat = n := by
  simp [Nat.mod_eq_of_lt hn]

variable {b : UInt8}

theorem ofNat_ge_of_le (h : b.toNat ≤ n) : b ≤ UInt8.ofNat n := by
  rw [UInt8.le_iff_toNat_le, toNat_ofNat_of_lt hn]
  exact h

theorem ofNat_le_of_le (h : n ≤ b.toNat) : UInt8.ofNat n ≤ b := by
  rw [UInt8.le_iff_toNat_le, toNat_ofNat_of_lt hn]
  exact h

theorem ofNat_not_lt (h : b.toNat ≤ n) : ¬ UInt8.ofNat n < b := by
  rw [UInt8.lt_iff_toNat_lt, toNat_ofNat_of_lt hn]
  exact Nat.not_lt.2 h

theorem ofNat_eq_iff : UInt8.ofNat n = b ↔ n = b.toNat := by
  rw [← UInt8.toNat_inj, toNat_ofNat_of_lt hn]

theorem isContinuation_ofNat (h : 128 ≤ n ∧ n ≤ 191) : isContinuation (UInt8.ofNat n) = true := by
  simp [isContinuation, UInt8.le_iff_toNat_le, Nat.mod_eq_of_lt hn, h.1, h.2]

include hk

/-- The second byte of a sequence is restricted after some first bytes. -/
theorem isSecond_ofNat (h : 128 ≤ k ∧ k ≤ 191) (hE0 : n = 0xE0 → 0xA0 ≤ k)
    (hED : n = 0xED → k ≤ 0x9F) (hF0 : n = 0xF0 → 0x90 ≤ k) (hF4 : n = 0xF4 → k ≤ 0x8F) :
    isSecond (UInt8.ofNat n) (UInt8.ofNat k) = true := by
  have hfirst (b : UInt8) : UInt8.ofNat n = b ↔ n = b.toNat := ofNat_eq_iff hn
  have hbounds (lo hi : UInt8) (hlo : lo.toNat ≤ k) (hhi : k ≤ hi.toNat) :
      (decide (lo ≤ UInt8.ofNat k) && decide (UInt8.ofNat k ≤ hi)) = true := by
    rw [Bool.and_eq_true, decide_eq_true_iff, decide_eq_true_iff]
    exact ⟨ofNat_ge_of_le hk hlo, ofNat_le_of_le hk hhi⟩
  unfold isSecond
  split
  case isTrue heq => exact hbounds 0xA0 0xBF (hE0 ((hfirst _).1 heq)) h.2
  case isFalse =>
    split
    case isTrue heq => exact hbounds 0x80 0x9F h.1 (hED ((hfirst _).1 heq))
    case isFalse =>
      split
      case isTrue heq => exact hbounds 0x90 0xBF (hF0 ((hfirst _).1 heq)) h.2
      case isFalse =>
        split
        case isTrue heq => exact hbounds 0x80 0x8F h.1 (hF4 ((hfirst _).1 heq))
        case isFalse => exact isContinuation_ofNat hk h

end Bytes

theorem ofNat_val {c : Char} {n : ℕ} (h : n = c.val.toNat) : Char.ofNat n = c := by
  rw [h]
  exact Char.ofNat_toNat c

/-- A character is read back from its bytes. -/
theorem fromUtf8Lossy_char (c : Char) (rest : List UInt8) :
    fromUtf8Lossy (String.utf8EncodeChar c ++ rest) = c :: fromUtf8Lossy rest := by
  have hvalid : c.val.toNat < 0xD800 ∨ 0xDFFF < c.val.toNat ∧ c.val.toNat < 0x110000 := c.valid
  unfold String.utf8EncodeChar
  dsimp only
  generalize hv : c.val.toNat = v at hvalid ⊢
  split
  case isTrue h1 =>
    rw [List.singleton_append, fromUtf8Lossy_one, toNat_ofNat_of_lt (by omega), ofNat_val hv.symm]
    rw [UInt8.lt_iff_toNat_lt, toNat_ofNat_of_lt (by omega)]
    exact Nat.lt_succ_of_le h1
  case isFalse h1 =>
    split
    case isTrue h2 =>
      show fromUtf8Lossy (UInt8.ofNat _ :: UInt8.ofNat _ :: rest) = _
      rw [fromUtf8Lossy_two (ofNat_not_lt (by omega) (by show 128 ≤ _; omega))]
      · rw [scalar, List.foldl_cons, List.foldl_nil, toNat_ofNat_of_lt (by omega),
          toNat_ofNat_of_lt (by omega), ofNat_val]
        rw [hv]
        omega
      · exact ⟨ofNat_ge_of_le (by omega) (by show 0xC2 ≤ _; omega),
          ofNat_le_of_le (by omega) (by show _ ≤ 0xDF; omega)⟩
      · exact isContinuation_ofNat (by omega) (by omega)
    case isFalse h2 =>
      split
      case isTrue h3 =>
        show fromUtf8Lossy (UInt8.ofNat _ :: UInt8.ofNat _ :: UInt8.ofNat _ :: rest) = _
        rw [fromUtf8Lossy_three (ofNat_not_lt (by omega) (by show 128 ≤ _; omega))]
        · rw [scalar, List.foldl_cons, List.foldl_cons, List.foldl_nil,
            toNat_ofNat_of_lt (by omega), toNat_ofNat_of_lt (by omega),
            toNat_ofNat_of_lt (by omega), ofNat_val]
          rw [hv]
          omega
        · exact ⟨ofNat_ge_of_le (by omega) (by show 0xE0 ≤ _; omega),
            ofNat_le_of_le (by omega) (by show _ ≤ 0xEF; omega)⟩
        · exact isSecond_ofNat (by omega) (by omega) (by omega) (by omega) (by omega) (by omega)
            (by omega)
        · exact isContinuation_ofNat (by omega) (by omega)
      case isFalse h3 =>
        show fromUtf8Lossy
          (UInt8.ofNat _ :: UInt8.ofNat _ :: UInt8.ofNat _ :: UInt8.ofNat _ :: rest) = _
        rw [fromUtf8Lossy_four (ofNat_not_lt (by omega) (by show 128 ≤ _; omega))]
        · rw [scalar, List.foldl_cons, List.foldl_cons, List.foldl_cons, List.foldl_nil,
            toNat_ofNat_of_lt (by omega), toNat_ofNat_of_lt (by omega),
            toNat_ofNat_of_lt (by omega), toNat_ofNat_of_lt (by omega), ofNat_val]
          rw [hv]
          omega
        · exact ⟨ofNat_ge_of_le (by omega) (by show 0xF0 ≤ _; omega),
            ofNat_le_of_le (by omega) (by show _ ≤ 0xF4; omega)⟩
        · exact isSecond_ofNat (by omega) (by omega) (by omega) (by omega) (by omega) (by omega)
            (by omega)
        · exact isContinuation_ofNat (by omega) (by omega)
        · exact isContinuation_ofNat (by omega) (by omega)

/-- **Valid UTF-8 is read back as it was written.** -/
theorem fromUtf8Lossy_textBytes (text : String) : fromUtf8Lossy (textBytes text) = text.toList := by
  rw [textBytes_eq]
  induction text.toList with
  | nil => simp [fromUtf8Lossy]
  | cons c cs ih => rw [List.flatMap_cons, fromUtf8Lossy_char, ih]

/-- `String::from_utf8`: the text that has these bytes. -/
def fromUtf8 (content : List UInt8) : Option (List Char) :=
  if TextSlice.utf8 (fromUtf8Lossy content) = content then some (fromUtf8Lossy content) else none

theorem fromUtf8_eq_some {content : List UInt8} {text : List Char} :
    fromUtf8 content = some text ↔ content = TextSlice.utf8 text := by
  have hback : fromUtf8Lossy (TextSlice.utf8 text) = text := by
    have h := fromUtf8Lossy_textBytes (String.ofList text)
    rwa [textBytes_eq, String.toList_ofList] at h
  rw [fromUtf8]
  constructor
  · intro h
    split at h
    case isTrue hsame => rw [← Option.some.inj h, hsame]
    case isFalse => cases h
  · rintro rfl
    rw [hback, if_pos rfl]

/-! ### A workspace -/

/-- The name of a file: legal on Unix, and valid UTF-8. -/
@[ext] structure FileName where
  text : String
  nonempty : text ≠ ""
  noSlash : '/' ∉ text.toList
  noNul : '\x00' ∉ text.toList
  notDot : text ≠ "."
  notDotDot : text ≠ ".."

def FileName.bytes (name : FileName) : Name := textBytes name.text

inductive FileKind
  | file
  | dir
  | symlink
  deriving DecidableEq, Repr

/-- What `symlink_metadata` says about a file. -/
structure Metadata where
  size : ℕ
  mtimeMs : ℤ
  mode : ℕ
  kind : FileKind
  deriving DecidableEq, Repr

/-- The entries of a directory, one after the other; `children` are those of the first one. -/
inductive Dir
  | empty
  | entry (name : FileName) (metadata : Metadata) (children rest : Dir)

def Dir.names : Dir → List FileName
  | .empty => []
  | .entry name _ _ rest => name :: rest.names

/-- Names are in order, so that they are different, and only directories have entries. -/
def Dir.Legal : Dir → Prop
  | .empty => True
  | .entry name metadata children rest =>
    children.Legal ∧ rest.Legal ∧ (∀ other ∈ rest.names, name.bytes < other.bytes) ∧
      (metadata.kind ≠ .dir → children = .empty)

/-- The tree below the root the agent serves. -/
structure Workspace where
  root : Path
  metadata : Metadata
  tree : Dir
  legal : tree.Legal
  /-- what `.gitignore` and the like exclude -/
  ignored : List FileName → Bool

/-- A file below the root, by the names that lead to it. -/
structure Located where
  names : List FileName
  metadata : Metadata

/-- An entry of the walk. -/
structure DirEntry where
  path : Path
  metadata : Metadata
  deriving DecidableEq

/-- A directory comes before its entries; an ignored one is left out with all of them. -/
def Dir.walk (ignored : List FileName → Bool) (above : List FileName) : Dir → List Located
  | .empty => []
  | .entry name metadata children rest =>
    (if ignored (above ++ [name]) then []
      else ⟨above ++ [name], metadata⟩ :: children.walk ignored (above ++ [name])) ++
      rest.walk ignored above

namespace Workspace

variable (ws : Workspace)

/-- The files of a workspace that are not ignored, in the order of the walk. -/
def files : List Located := ws.tree.walk ws.ignored []

def entryOf (file : Located) : DirEntry := ⟨ws.root ++ file.names.map FileName.bytes, file.metadata⟩

/-- What the walk yields: the root, then the files below it; after a directory that cannot be listed
comes its error. -/
def walkWith (unlisted : List FileName → Option String) : List (Except String DirEntry) :=
  .ok ⟨ws.root, ws.metadata⟩ :: ((unlisted []).map .error).toList ++
    ws.files.flatMap fun file => .ok (ws.entryOf file) :: ((unlisted file.names).map .error).toList

/-- The walk of a workspace whose directories can all be listed. -/
def walk : List (Except String DirEntry) :=
  .ok ⟨ws.root, ws.metadata⟩ :: ws.files.map fun file => .ok (ws.entryOf file)

theorem walkWith_none {unlisted : List FileName → Option String}
    (h : ∀ names, unlisted names = none) : ws.walkWith unlisted = ws.walk := by
  simp [walkWith, walk, h, ← List.map_eq_flatMap]

end Workspace

/-! ### The scan -/

structure FileMeta where
  path : String
  size : ℕ
  mtimeMs : ℤ
  mode : ℕ
  isDir : Bool
  isSymlink : Bool
  hash : Option String
  deriving DecidableEq, Repr

def fileMetaFromMetadata (path : String) (metadata : Metadata) (hash : Option String) : FileMeta :=
  ⟨path, metadata.size, metadata.mtimeMs, metadata.mode, metadata.kind = .dir,
    metadata.kind = .symlink, hash⟩

/-- `file_meta` without a hash -/
def fileMeta (root : Path) (entry : DirEntry) : Except String FileMeta := do
  let path ← relativePath root entry.path
  return fileMetaFromMetadata path entry.metadata none

/-- The loop of `scan`: the files listed so far, each with what is reported about it. -/
def scanLoop (root : Path) (limit : ℕ) (after : Option String) (afterSeen : Bool)
    (entries : List (DirEntry × FileMeta)) :
    List (Except String DirEntry) → Except String (List (DirEntry × FileMeta) × Bool)
  | [] => .ok (entries, false)
  | .error error :: _ => .error error
  | .ok entry :: rest =>
    if entry.path = root then scanLoop root limit after afterSeen entries rest
    else do
      let relative ← relativePath root entry.path
      if afterSeen = false then scanLoop root limit after (after = some relative) entries rest
      else if limit ≤ entries.length then .ok (entries, true)
      else do
        let reported ← fileMeta root entry
        scanLoop root limit after afterSeen (entries ++ [(entry, reported)]) rest

/-- The files a scan lists, each with what is reported about it, and whether there are more. -/
def Workspace.listing (ws : Workspace) (limit : ℕ) (after : Option String) :
    Except String (List (DirEntry × FileMeta) × Bool) :=
  scanLoop ws.root limit after after.isNone [] ws.walk

def scan (ws : Workspace) (limit : ℕ) (after : Option String) :
    Except String (List FileMeta × Bool) := do
  let (listed, truncated) ← ws.listing limit after
  return (listed.map Prod.snd, truncated)

/-! ### The way back -/

def resolveRemotePath (root : Path) (path : String) : Except String Path := do
  let relative ← normalizeRelativePath path
  return root ++ relative

end RemoteMirror.Agent

namespace RemoteMirror.Sidecar

open Agent Checks

/-- `normalize_relative_path` of the sidecar -/
def normalizeRelativePath (path : String) : Except String Path := do
  rejectIf (path.toList.head? == some '/') "paths must be workspace-relative"
  let components := (path.toList.splitOn '/').filter fun part => !part.isEmpty && part != ['.']
  rejectIf (components.contains ['.', '.']) "path must not contain '..'"
  rejectIf components.isEmpty "path must not be empty"
  return components.map fun part => textBytes (String.ofList part)

/-- `normalize_relative_path(path)?.to_string_lossy().replace('\\', "/")` -/
def normalizedPath (path : String) : Except String String := do
  let clean ← normalizeRelativePath path
  return forwardSlashes (lossyText clean)

end RemoteMirror.Sidecar

namespace RemoteMirror.Agent

open Checks

/-- Where a path the sidecar is given leads: the sidecar normalises it, the agent resolves it. -/
def locate (root : Path) (path : String) : Except String Path := do
  let normalized ← Sidecar.normalizedPath path
  resolveRemotePath root normalized

/-- Different files have different paths, and each path leads to its file. -/
def PathIdentity (root : Path) (listed : List (DirEntry × FileMeta)) : Prop :=
  (listed.map fun item => item.2.path).Nodup ∧
    ∀ item ∈ listed, locate root item.2.path = .ok item.1.path

/-! ### The text of a path -/

/-- The names of a path, with slashes between them. -/
def joined (names : List FileName) : List Char :=
  List.intercalate ['/'] (names.map fun name => name.text.toList)

theorem intercalate_cons_cons {α : Type} (sep a b : List α) (rest : List (List α)) :
    List.intercalate sep (a :: b :: rest) = a ++ sep ++ List.intercalate sep (b :: rest) := by
  simp [List.intercalate]

/-- The bytes of a path are those of its text. -/
theorem intercalate_bytes (names : List FileName) :
    List.intercalate [47] (names.map FileName.bytes) =
      textBytes (String.ofList (joined names)) := by
  induction names with
  | nil => rfl
  | cons name names ih =>
    cases names with
    | nil => simp [joined, List.intercalate, FileName.bytes]
    | cons other names =>
      simp only [joined, List.map_cons] at ih ⊢
      rw [intercalate_cons_cons, intercalate_cons_cons, ih, String.ofList_append,
        String.ofList_append, textBytes_append, textBytes_append, String.ofList_toList]
      rfl

theorem lossyText_bytes (names : List FileName) :
    lossyText (names.map FileName.bytes) = String.ofList (joined names) := by
  rw [lossyText, intercalate_bytes, fromUtf8Lossy_textBytes, String.toList_ofList]

variable {names : List FileName}

/-- A path is read back from its text, as no name contains a slash. -/
theorem splitOn_joined (h : names ≠ []) :
    (joined names).splitOn '/' = names.map fun name => name.text.toList := by
  refine List.splitOn_intercalate '/' ?_ (by simpa using h)
  intro text htext
  obtain ⟨name, _, rfl⟩ := List.mem_map.1 htext
  exact name.noSlash

theorem joined_injective {others : List FileName} (h : names ≠ []) (h' : others ≠ [])
    (heq : joined names = joined others) : names = others := by
  have hsplit : names.map (fun name => name.text.toList) = others.map fun name =>
      name.text.toList := by
    rw [← splitOn_joined h, ← splitOn_joined h', heq]
  refine List.map_injective_iff.2 ?_ hsplit
  intro name other hname
  exact FileName.ext (String.toList_injective hname)

theorem mem_intercalate {α : Type} (sep : List α) {part : List α} {parts : List (List α)} {a : α}
    (hpart : part ∈ parts) (ha : a ∈ part) : a ∈ List.intercalate sep parts := by
  induction parts with
  | nil => cases hpart
  | cons first parts ih =>
    cases parts with
    | nil =>
      rw [List.mem_singleton.1 hpart] at ha
      simpa [List.intercalate] using ha
    | cons second parts =>
      rw [intercalate_cons_cons, List.mem_append, List.mem_append]
      rcases List.mem_cons.1 hpart with rfl | hpart
      · exact .inl (.inl ha)
      · exact .inr (ih hpart)

/-! ### Normal paths -/

/-- No name contains a backslash. -/
def Plain (names : List FileName) : Prop := ∀ name ∈ names, '\\' ∉ name.text.toList

theorem backslash_not_mem_joined (h : Plain names) : '\\' ∉ joined names := by
  induction names with
  | nil => simp [joined, List.intercalate]
  | cons name names ih =>
    have hname : '\\' ∉ name.text.toList := h name List.mem_cons_self
    have hrest : Plain names := fun other hother => h other (List.mem_cons_of_mem _ hother)
    cases names with
    | nil => simpa [joined, List.intercalate] using hname
    | cons other names =>
      have hjoined := ih hrest
      simp only [joined, List.map_cons] at hjoined ⊢
      rw [intercalate_cons_cons]
      simp [hname, hjoined]

variable {text : String}

theorem forwardSlashes_of_not_mem (h : '\\' ∉ text.toList) : forwardSlashes text = text := by
  have hid : text.toList.map (fun c => if c = '\\' then '/' else c) = text.toList := by
    refine (List.map_congr_left fun c hc => if_neg ?_).trans (List.map_id' _)
    rintro rfl
    exact h hc
  rw [forwardSlashes, hid, String.ofList_toList]

theorem not_mem_forwardSlashes (text : String) : '\\' ∉ (forwardSlashes text).toList := by
  rw [forwardSlashes, String.toList_ofList, List.mem_map]
  rintro ⟨c, _, hc⟩
  split at hc
  case isTrue => cases hc
  case isFalse hne => exact hne hc

/-- The path under which a file is reported. -/
def reportedPath (names : List FileName) : String := forwardSlashes (String.ofList (joined names))

theorem reportedPath_of_plain (h : Plain names) :
    reportedPath names = String.ofList (joined names) :=
  forwardSlashes_of_not_mem (by simpa using backslash_not_mem_joined h)

/-- The text of a path has no components to drop. -/
theorem components_joined (h : names ≠ []) :
    (((joined names).splitOn '/').filter fun part => !part.isEmpty && part != ['.']) =
      names.map fun name => name.text.toList := by
  rw [splitOn_joined h, List.filter_eq_self]
  intro part hpart
  obtain ⟨name, _, rfl⟩ := List.mem_map.1 hpart
  have hne : name.text.toList ≠ [] := by simpa using name.nonempty
  have hdot : name.text.toList ≠ ['.'] := fun heq =>
    name.notDot (String.toList_injective (heq.trans rfl))
  simp [hne, hdot]

theorem joined_head (h : names ≠ []) : (joined names).head? ≠ some '/' := by
  obtain ⟨name, rest, rfl⟩ := List.exists_cons_of_ne_nil h
  obtain ⟨c, cs, htext⟩ := List.exists_cons_of_ne_nil (show name.text.toList ≠ [] by
    simpa using name.nonempty)
  have hc : c ≠ '/' := fun heq => name.noSlash (by rw [htext, heq]; exact List.mem_cons_self)
  have hhead : (joined (name :: rest)).head? = some c := by
    cases rest with
    | nil => simp [joined, List.intercalate, htext]
    | cons other rest =>
      simp only [joined, List.map_cons]
      rw [intercalate_cons_cons, htext]
      rfl
  rw [hhead]
  simpa using hc

/-- **The sidecar and the agent read the names of a path from its text.** -/
theorem normalize_joined (h : names ≠ []) :
    Sidecar.normalizeRelativePath (String.ofList (joined names)) = .ok (names.map FileName.bytes) ∧
      normalizeRelativePath (String.ofList (joined names)) = .ok (names.map FileName.bytes) := by
  have hhead := joined_head h
  have hdots : ['.', '.'] ∉ names.map fun name => name.text.toList := by
    intro hmem
    obtain ⟨name, _, heq⟩ := List.mem_map.1 hmem
    exact name.notDotDot (String.toList_injective (heq.trans rfl))
  have hbytes : (names.map fun name => name.text.toList).map
      (fun part => textBytes (String.ofList part)) = names.map FileName.bytes := by
    rw [List.map_map]
    exact List.map_congr_left fun name _ => congrArg textBytes (String.ofList_toList)
  constructor
  · simp only [Sidecar.normalizeRelativePath, String.toList_ofList, components_joined h, hbytes]
    simp [hhead, hdots, h]
  · simp only [normalizeRelativePath, String.toList_ofList, components_joined h, hbytes]
    simp [hhead, hdots, h]

/-- The path of a file without backslashes leads to the file. -/
theorem locate_joined (root : Path) (h : names ≠ []) (hplain : Plain names) :
    locate root (reportedPath names) = .ok (root ++ names.map FileName.bytes) := by
  have hsame := reportedPath_of_plain hplain
  obtain ⟨hsidecar, hagent⟩ := normalize_joined h
  rw [hsame, locate, Sidecar.normalizedPath, hsidecar]
  rw [reportedPath] at hsame
  simp [lossyText_bytes, hsame, resolveRemotePath, hagent]

/-! ### The files of a workspace -/

variable {ignored : List FileName → Bool}

/-- A file of a directory is reached through one of the directory's entries. -/
theorem exists_of_mem_walk {dir : Dir} :
    ∀ {above : List FileName} {file : Located}, file ∈ dir.walk ignored above →
      ∃ name ∈ dir.names, ∃ below, file.names = above ++ name :: below := by
  induction dir with
  | empty => exact fun h => nomatch h
  | entry name metadata children rest ihchildren ihrest =>
    intro above file h
    rcases List.mem_append.1 h with h | h
    · split at h
      case isTrue => cases h
      case isFalse =>
        refine ⟨name, List.mem_cons_self, ?_⟩
        rcases List.mem_cons.1 h with rfl | h
        · exact ⟨[], rfl⟩
        · obtain ⟨other, _, below, hfile⟩ := ihchildren h
          exact ⟨other :: below, by rw [hfile, List.append_assoc]; rfl⟩
    · obtain ⟨other, hother, hfile⟩ := ihrest h
      exact ⟨other, List.mem_cons_of_mem _ hother, hfile⟩

/-- The order in which the walk meets two files: by their names, level by level. -/
def Before (names others : List FileName) : Prop :=
  names.map FileName.bytes < others.map FileName.bytes

theorem Before.trans {a b c : List FileName} (h : Before a b) (h' : Before b c) : Before a c :=
  List.lt_trans h h'

theorem Before.irrefl (names : List FileName) : ¬ Before names names := List.lt_irrefl _

theorem before_append_left {names others : List FileName} (above : List FileName)
    (h : Before names others) : Before (above ++ names) (above ++ others) := by
  unfold Before at h ⊢
  rw [List.map_append, List.map_append]
  induction above.map FileName.bytes with
  | nil => exact h
  | cons name above ih => exact List.cons_lt_cons_iff.2 (.inr ⟨rfl, ih⟩)

theorem before_of_bytes_lt {name other : FileName} (h : name.bytes < other.bytes)
    (below below' : List FileName) : Before (name :: below) (other :: below') :=
  List.cons_lt_cons_iff.2 (.inl h)

/-- **The walk is in the order of the names.** -/
theorem walk_sorted {dir : Dir} (hlegal : dir.Legal) : ∀ above : List FileName,
      (dir.walk ignored above).Pairwise fun file other => Before file.names other.names := by
  induction dir with
  | empty => exact fun _ => List.Pairwise.nil
  | entry name metadata children rest ihchildren ihrest =>
    intro above
    obtain ⟨hchildren, hrest, hnames, -⟩ := hlegal
    rw [Dir.walk]
    -- everything at or below this entry starts with its name
    have hhere : ∀ file ∈ (if ignored (above ++ [name]) then []
        else ⟨above ++ [name], metadata⟩ :: children.walk ignored (above ++ [name])),
        ∃ below, file.names = above ++ name :: below := by
      intro file hfile
      split at hfile
      case isTrue => cases hfile
      case isFalse =>
        rcases List.mem_cons.1 hfile with rfl | hfile
        · exact ⟨[], rfl⟩
        · obtain ⟨next, _, below, hbelow⟩ := exists_of_mem_walk hfile
          exact ⟨next :: below, by rw [hbelow, List.append_assoc]; rfl⟩
    refine List.pairwise_append.2 ⟨?_, ihrest hrest above, ?_⟩
    · split
      case isTrue => exact List.Pairwise.nil
      case isFalse =>
        refine List.pairwise_cons.2 ⟨?_, ihchildren hchildren _⟩
        intro file hfile
        obtain ⟨next, _, below, hbelow⟩ := exists_of_mem_walk hfile
        have hnil : Before [] (next :: below) := List.nil_lt_cons _ _
        have := before_append_left (above ++ [name]) hnil
        rwa [List.append_nil, ← hbelow] at this
    · intro file hfile other hother
      obtain ⟨below, hbelow⟩ := hhere file hfile
      obtain ⟨next, hnext, below', hbelow'⟩ := exists_of_mem_walk hother
      rw [hbelow, hbelow']
      exact before_append_left above (before_of_bytes_lt (hnames next hnext) below below')

/-- The walk visits no file twice. -/
theorem walk_nodup {dir : Dir} (hlegal : dir.Legal) (above : List FileName) :
    ((dir.walk ignored above).map Located.names).Nodup := by
  rw [List.Nodup, List.pairwise_map]
  refine (walk_sorted hlegal above).imp fun hbefore hsame => ?_
  rw [hsame] at hbefore
  exact Before.irrefl _ hbefore

namespace Workspace

variable {ws : Workspace} {file : Located}

theorem names_ne_nil (h : file ∈ ws.files) : file.names ≠ [] := by
  obtain ⟨name, _, below, hfile⟩ := exists_of_mem_walk h
  rw [hfile]
  exact List.cons_ne_nil _ _

variable (ws) in
/-- A file, and what a scan reports about it. -/
def itemOf (file : Located) : DirEntry × FileMeta :=
  (ws.entryOf file, fileMetaFromMetadata (reportedPath file.names) file.metadata none)

theorem relativePath_entryOf (file : Located) : relativePath ws.root (ws.entryOf file).path =
      .ok (reportedPath file.names) := by
  rw [relativePath, entryOf, if_pos (by simp), List.drop_left, lossyText_bytes, reportedPath]

theorem fileMeta_entryOf (file : Located) : fileMeta ws.root (ws.entryOf file) =
    .ok (ws.itemOf file).2 := by
  rw [fileMeta, relativePath_entryOf]
  rfl

theorem entryOf_path_ne (h : file.names ≠ []) : (ws.entryOf file).path ≠ ws.root := by
  simpa [entryOf] using h

variable {after : Option String} {limit : ℕ}

/-- One round of the loop of `scan`. -/
theorem scanLoop_cons {afterSeen : Bool} {entries : List (DirEntry × FileMeta)}
    (h : file.names ≠ []) (rest : List (Except String DirEntry)) :
    scanLoop ws.root limit after afterSeen entries (.ok (ws.entryOf file) :: rest) =
      if afterSeen = false then
        scanLoop ws.root limit after (after = some (ws.itemOf file).2.path) entries rest
      else if limit ≤ entries.length then .ok (entries, true)
      else scanLoop ws.root limit after afterSeen (entries ++ [ws.itemOf file]) rest := by
  rw [scanLoop, if_neg (entryOf_path_ne h), relativePath_entryOf, fileMeta_entryOf]
  rfl

variable {files : List Located}

/-- What the loop lists are some of the files that are left, in their order. -/
theorem exists_sublist_of_scanLoop (hnames : ∀ file ∈ files, file.names ≠ []) :
    ∀ {afterSeen : Bool} {entries listed : List (DirEntry × FileMeta)} {truncated : Bool},
      scanLoop ws.root limit after afterSeen entries (files.map fun file => .ok (ws.entryOf file)) =
        .ok (listed, truncated) →
      ∃ found : List Located, found.Sublist files ∧ listed = entries ++ found.map ws.itemOf := by
  induction files with
  | nil =>
    rintro afterSeen entries listed truncated ⟨⟩
    exact ⟨[], List.Sublist.slnil, by simp⟩
  | cons file files ih =>
    intro afterSeen entries listed truncated h
    have ih :=
      fun {seen} => @ih (fun other hother => hnames other (List.mem_cons_of_mem _ hother)) seen
    rw [List.map_cons, scanLoop_cons (hnames file List.mem_cons_self)] at h
    split at h
    case isTrue =>
      obtain ⟨found, hfound, hlisted⟩ := ih h
      exact ⟨found, hfound.cons file, hlisted⟩
    case isFalse =>
      split at h
      case isTrue =>
        cases h
        exact ⟨[], List.nil_sublist _, by simp⟩
      case isFalse =>
        obtain ⟨found, hfound, hlisted⟩ := ih h
        exact ⟨file :: found, hfound.cons_cons file, by simp [hlisted]⟩

/-- Without a limit to stop at and a path to start after, all files are listed. -/
theorem scanLoop_all (hnames : ∀ file ∈ files, file.names ≠ []) :
    ∀ {entries : List (DirEntry × FileMeta)}, entries.length + files.length ≤ limit →
      scanLoop ws.root limit after true entries (files.map fun file => .ok (ws.entryOf file)) =
        .ok (entries ++ files.map ws.itemOf, false) := by
  induction files with
  | nil =>
    intro entries _
    simp [scanLoop]
  | cons file files ih =>
    intro entries hlimit
    rw [List.length_cons] at hlimit
    rw [List.map_cons, scanLoop_cons (hnames file List.mem_cons_self), if_neg (by simp),
      if_neg (by omega), ih (fun other hother => hnames other (List.mem_cons_of_mem _ hother))]
    · simp
    · rw [List.length_append]
      simp only [List.length_cons, List.length_nil]
      omega

theorem listing_eq (limit : ℕ) (after : Option String) :
    ws.listing limit after = scanLoop ws.root limit after after.isNone []
      (ws.files.map fun file => .ok (ws.entryOf file)) := by
  rw [listing, walk, scanLoop, if_pos rfl]

end Workspace

/-- No path leads to a file with a backslash in one of its names. -/
theorem plain_of_locate {root : Path}
    (h : locate root text = .ok (root ++ names.map FileName.bytes)) : Plain names := by
  intro name hname hmem
  simp only [locate, Sidecar.normalizedPath, resolveRemotePath, bind_eq_ok, pure_eq_ok,
    Except.ok.injEq] at h
  obtain ⟨_, ⟨clean, _, rfl⟩, relative, hrelative, hsame⟩ := h
  obtain rfl : relative = names.map FileName.bytes := List.append_cancel_left hsame
  simp only [normalizeRelativePath, rejectIf_eq_ok, bind_eq_ok, exists_const, pure_eq_ok,
    Except.ok.injEq] at hrelative
  obtain ⟨_, _, _, hparts⟩ := hrelative
  have hbytes : name.bytes ∈ names.map FileName.bytes := List.mem_map_of_mem hname
  rw [← hparts] at hbytes
  obtain ⟨part, hpart, htext⟩ := List.mem_map.1 hbytes
  -- the component is a part of the normalised text, which has no backslash
  have hname : String.ofList part = name.text := textBytes_injective htext
  rw [← hname, String.toList_ofList] at hmem
  have hin := mem_intercalate ['/'] (List.mem_filter.1 hpart).1 hmem
  rw [List.intercalate_splitOn] at hin
  exact not_mem_forwardSlashes _ hin

/-- **Path identity.** For every workspace, the paths its scans report are different for different
files and lead back to the files they were reported for, exactly if no name in the workspace
contains a backslash. -/
theorem scan_path_identity (ws : Workspace) :
    (∀ limit after listed truncated, ws.listing limit after = .ok (listed, truncated) →
      PathIdentity ws.root listed) ↔ ∀ file ∈ ws.files, Plain file.names := by
  have hnames : ∀ file ∈ ws.files, file.names ≠ [] := fun _ => Workspace.names_ne_nil
  constructor
  · intro h file hfile
    have hall : ws.listing ws.files.length none = .ok (ws.files.map ws.itemOf, false) := by
      rw [Workspace.listing_eq]
      exact Workspace.scanLoop_all hnames (by simp)
    obtain ⟨-, hlocate⟩ := h _ _ _ _ hall
    exact plain_of_locate (hlocate (ws.itemOf file) (List.mem_map_of_mem hfile))
  · intro hplain limit after listed truncated h
    rw [Workspace.listing_eq] at h
    obtain ⟨found, hfound, rfl⟩ := Workspace.exists_sublist_of_scanLoop hnames h
    rw [List.nil_append]
    refine ⟨?_, ?_⟩
    · have hnodup : (found.map Located.names).Nodup :=
        (walk_nodup ws.legal []).sublist (hfound.map Located.names)
      have hpaths : (found.map ws.itemOf).map (fun item => item.2.path) =
          (found.map Located.names).map reportedPath := by
        rw [List.map_map, List.map_map]
        rfl
      rw [hpaths]
      refine List.Nodup.map_on ?_ hnodup
      intro names hmem names' hmem' hsame
      obtain ⟨file, hfile, rfl⟩ := List.mem_map.1 hmem
      obtain ⟨file', hfile', rfl⟩ := List.mem_map.1 hmem'
      have hin := hfound.subset hfile
      have hin' := hfound.subset hfile'
      rw [reportedPath_of_plain (hplain file hin),
        reportedPath_of_plain (hplain file' hin')] at hsame
      exact joined_injective (hnames file hin) (hnames file' hin') (String.ofList_injective hsame)
    · intro item hitem
      obtain ⟨file, hfile, rfl⟩ := List.mem_map.1 hitem
      have hin := hfound.subset hfile
      have hpath : (ws.itemOf file).2.path = reportedPath file.names := rfl
      rw [hpath]
      exact locate_joined ws.root (hnames file hin) (hplain file hin)

namespace Sample

def nameA : FileName := ⟨"a", by decide, by decide, by decide, by decide, by decide⟩
def nameB : FileName := ⟨"b", by decide, by decide, by decide, by decide, by decide⟩

/-- `a\b`, one name -/
def nameAB : FileName := ⟨"a\\b", by decide, by decide, by decide, by decide, by decide⟩

def regular : Metadata := ⟨1, 0, 0o100644, .file⟩
def directory : Metadata := ⟨4096, 0, 0o40755, .dir⟩

/-- A directory `a` with a file `b`. -/
def plain : Workspace where
  root := [textBytes "w"]
  metadata := directory
  tree := .entry nameA directory (.entry nameB regular .empty .empty) .empty
  legal := by simp [Dir.Legal, Dir.names, directory]
  ignored _ := false

/-- Beside it, a file `a\b`. -/
def collision : Workspace where
  root := [textBytes "w"]
  metadata := directory
  tree := .entry nameA directory (.entry nameB regular .empty .empty)
    (.entry nameAB regular .empty .empty)
  legal := by
    refine ⟨by simp [Dir.Legal, Dir.names], by simp [Dir.Legal, Dir.names], ?_, by simp [directory]⟩
    intro other hother
    obtain rfl : other = nameAB := by simpa [Dir.names] using hother
    decide
  ignored _ := false

end Sample

open Sample in
/-- In the workspace without backslashes every scan reports paths that lead back. -/
theorem scan_path_identity_plain : ∀ limit after listed truncated,
    plain.listing limit after = .ok (listed, truncated) → PathIdentity plain.root listed := by
  refine (scan_path_identity plain).2 ?_
  intro file hfile name hname
  have hall : ∀ file ∈ plain.files, ∀ name ∈ file.names, name = nameA ∨ name = nameB := by
    simp [Workspace.files, plain, Dir.walk]
  rcases hall file hfile name hname with rfl | rfl <;> decide

open Sample in
/-- **Two files under one path**: `a\b` is reported as `a/b`, and this path leads to the file `b` in
the directory `a`. -/
theorem scan_backslash_collision : ∃ listed first second, collision.listing 10 none =
    .ok (listed, false) ∧ first ∈ listed ∧ second ∈ listed ∧ first.1.path ≠ second.1.path ∧
    first.2.path = "a/b" ∧ second.2.path = "a/b" ∧
    locate collision.root second.2.path = .ok first.1.path := by
  refine ⟨collision.files.map collision.itemOf,
    collision.itemOf ⟨[nameA, nameB], regular⟩, collision.itemOf ⟨[nameAB], regular⟩,
    ?_, ?_, ?_, ?_⟩
  · rw [Workspace.listing_eq]
    exact Workspace.scanLoop_all (fun _ => Workspace.names_ne_nil) (by decide)
  · exact List.mem_map_of_mem (List.mem_cons_of_mem _ List.mem_cons_self)
  · exact List.mem_map_of_mem (List.mem_cons_of_mem _ (List.mem_cons_of_mem _ List.mem_cons_self))
  · decide +kernel

end RemoteMirror.Agent
