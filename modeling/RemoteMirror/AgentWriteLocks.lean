/-
**Write locks of agents that serve overlapping roots.**

Two agent processes of one user may serve roots that contain the same file.  A save holds, from
before its first look at the target until it has answered, a lock file for each of its lock keys in
a directory that belongs to the user (`acquire_write_locks` in `crates/nrm-agent/src/main.rs`): the
keys are sorted and freed of duplicates, and each lock file is tried once.

The key of a save is a hash of the root *and* the target.  Saves of one file through the same root
exclude each other; through different roots they do not, although the lock is documented as keyed
by the canonical target.

Main definitions:

* `Agent.Save` — a save with the target it was prepared for;
* `Agent.Save.locks` — the lock files it tries, in order.

Main results:

* `Agent.Save.exclusive_iff` — **two saves of one file share a key and never overlap
  exactly if their roots read the same and their lock directory is the same**;
* `Agent.nested_saves_overlap` — a workspace and a directory in it.
-/

import RemoteMirror.AgentWriteTarget
import RemoteMirror.TryLock

namespace RemoteMirror.Agent

def writeLockRootPath (tempDir : Path) (uid : ℕ) : Path :=
  tempDir ++ [textBytes ("nrm-agent-locks-v1-" ++ toString uid)]

/-- The order in which the lock files of some keys are tried. -/
def sortedKeys (keys : List String) : List String :=
  (keys.mergeSort fun a b => decide (a ≤ b)).eraseReps

/-- The lock files that are tried for some keys, in order: a directory and a name. -/
def lockFiles (os : Unix) (tempDir : Path) (uid : ℕ) (targetKeys : List String) :
    List (os.Dir × String) :=
  (sortedKeys targetKeys).map fun key =>
    (os.directory (writeLockRootPath tempDir uid), key ++ ".lock")

/-- A save by an agent that serves `root` and has the temporary directory `tempDir`: its path was
resolved to a target. -/
structure Save (os : Unix) where
  root : Path
  tempDir : Path
  path : String
  target : WriteTarget
  prepared : ∃ before after, prepareWriteTarget os before root path = .ok (target, after)

namespace Save

variable {os : Unix}

def keys (save : Save os) : List String := writeTargetKeys os save.root save.target.abs

def locks (uid : ℕ) (save : Save os) : List (os.Dir × String) :=
  lockFiles os save.tempDir uid save.keys

/-- The directory of the lock files of a save. -/
def lockDir (uid : ℕ) (save : Save os) : os.Dir :=
  os.directory (writeLockRootPath save.tempDir uid)

theorem locks_eq (uid : ℕ) (save : Save os) : save.locks uid = [(save.lockDir uid,
      os.hashBytes (textBytes (lockIdentity save.root save.target.abs)) ++ ".lock")] := by
  simp [locks, lockFiles, keys, writeTargetKeys, sortedKeys, lockDir, List.eraseReps,
    List.eraseRepsBy, List.eraseRepsBy.loop]

/-- Two saves have a common lock file exactly if they have a common key and lock directory. -/
theorem mem_locks_iff {uid : ℕ} {a b : Save os} :
    (∃ lock, lock ∈ a.locks uid ∧ lock ∈ b.locks uid) ↔
      a.lockDir uid = b.lockDir uid ∧ ∃ key, key ∈ a.keys ∧ key ∈ b.keys := by
  simp only [locks_eq, keys, writeTargetKeys, List.mem_singleton, exists_eq_left, Prod.mk.injEq]
  constructor
  · rintro ⟨hdir, hname⟩
    refine ⟨hdir, ?_⟩
    have hlist := congrArg String.toList hname
    simp only [String.toList_append, List.append_cancel_right_eq] at hlist
    exact String.toList_inj.1 hlist
  · rintro ⟨hdir, hkey⟩
    exact ⟨hdir, congrArg (· ++ ".lock") hkey⟩

/-- **Exclusion of two saves of one file**, among any number of saves: they share a lock key and
are never both in the section that checks and replaces the file, exactly if the roots of their
agents read the same and the lock files of both are in the same directory. -/
theorem exclusive_iff (hhash : Function.Injective os.hashBytes) {ι : Type} [DecidableEq ι]
    (saves : ι → Save os) (uid : ℕ) {i j : ι} (hij : i ≠ j)
    (hsame : (saves i).target.abs = (saves j).target.abs) :
    ((∃ key, key ∈ (saves i).keys ∧ key ∈ (saves j).keys) ∧
      ∀ s, TryLock.Reachable (fun k => (saves k).locks uid) s →
        ¬ (s i = .inside ∧ s j = .inside)) ↔
      (saves i).root.display = (saves j).root.display ∧
        (saves i).lockDir uid = (saves j).lockDir uid := by
  have hkeys : (∃ key, key ∈ (saves i).keys ∧ key ∈ (saves j).keys) ↔
      (saves i).root.display = (saves j).root.display := by
    rw [keys, keys, hsame]
    exact mem_writeTargetKeys_iff hhash
  constructor
  · rintro ⟨hshared, hnever⟩
    refine ⟨hkeys.1 hshared, ?_⟩
    by_contra hdir
    -- without a common lock file both get inside, one after the other
    have hnone : ∀ lock ∈ (saves i).locks uid, lock ∉ (saves j).locks uid :=
      fun lock hi hj => hdir (mem_locks_iff.1 ⟨lock, hi, hj⟩).1
    obtain ⟨s, hs, hinside⟩ : ∃ s, TryLock.Reachable (fun k => (saves k).locks uid) s ∧
        s i = .inside ∧ s j = .inside :=
      TryLock.exists_both_inside hij (by simp [locks_eq]) (by simp [locks_eq]) hnone
    exact hnever s hs hinside
  · rintro ⟨hroot, hdir⟩
    have hshared := hkeys.2 hroot
    obtain ⟨lock, hi, hj⟩ := mem_locks_iff.2 ⟨hdir, hshared⟩
    exact ⟨hshared, fun s hs => TryLock.not_both_inside hs hij hi hj⟩

end Save

/-! ### A workspace and a directory in it -/

namespace Nested

/-- A path from its components. -/
def pathOf (components : List String) : Path := components.map textBytes

/-- A text that spells out its bytes. -/
def spelled (bytes : List UInt8) : String :=
  String.ofList ('-' :: bytes.map fun b => Char.ofNat (256 + b.toNat))

/-- Every path is canonical and in place.  The hash is the BLAKE3 hash of the two lock identities
below. -/
def os : Unix where
  Fs := Unit
  pathExists _ _ := true
  symlinkMetadata _ _ := .other
  canonicalize _ path := .ok path
  createDirAll _ _ := .ok ()
  Dir := Path
  directory path := path
  hashBytes bytes :=
    if bytes = textBytes "/w:/w/sub/f" then
      "8383acb6a3e33c57e6d99a737f8dec1164c4a463da51005906fa2860c348ef1a"
    else if bytes = textBytes "/w/sub:/w/sub/f" then
      "902763a40fe96bb00cd981c9ff67a691ba1609142211bf4fa339d71c5db9bbb6"
    else spelled bytes

/-- The file both agents save. -/
def target : WriteTarget := ⟨pathOf ["w", "sub", "f"], pathOf ["w", "sub"]⟩

/-- The save of `sub/f` in `/w`. -/
def outer : Save os where
  root := pathOf ["w"]
  tempDir := pathOf ["tmp"]
  path := "sub/f"
  target := target
  prepared := ⟨(), (), rfl⟩

/-- The save of `f` in `/w/sub`. -/
def inner : Save os where
  root := pathOf ["w", "sub"]
  tempDir := pathOf ["tmp"]
  path := "f"
  target := target
  prepared := ⟨(), (), rfl⟩

theorem lockIdentity_outer : lockIdentity outer.root outer.target.abs = "/w:/w/sub/f" := by
  decide +kernel

theorem lockIdentity_inner : lockIdentity inner.root inner.target.abs = "/w/sub:/w/sub/f" := by
  decide +kernel

theorem keys_outer : outer.keys =
    ["8383acb6a3e33c57e6d99a737f8dec1164c4a463da51005906fa2860c348ef1a"] := by
  rw [Save.keys, writeTargetKeys, lockIdentity_outer]
  simp only [os, if_true]

theorem keys_inner : inner.keys =
    ["902763a40fe96bb00cd981c9ff67a691ba1609142211bf4fa339d71c5db9bbb6"] := by
  have hne : textBytes "/w/sub:/w/sub/f" ≠ textBytes "/w:/w/sub/f" := by
    intro h
    exact absurd (textBytes_injective h) (by decide)
  rw [Save.keys, writeTargetKeys, lockIdentity_inner]
  simp only [os, hne, if_true, if_false]

theorem spelled_injective {a b : List UInt8} (h : spelled a = spelled b) : a = b := by
  have hlist := congrArg String.toList h
  simp only [spelled, String.toList_ofList, List.cons.injEq, true_and] at hlist
  refine List.map_injective_iff.2 ?_ hlist
  intro x y hxy
  have hval : ∀ z : UInt8, (Char.ofNat (256 + z.toNat)).toNat = 256 + z.toNat := by
    intro z
    have hz : z.toNat < 256 := z.toNat_lt
    have hvalid : (256 + z.toNat).isValidChar := .inl (by omega)
    rw [Char.ofNat, dif_pos hvalid]
    rfl
  have hnat := congrArg Char.toNat hxy
  simp only [hval] at hnat
  exact UInt8.toNat_inj.1 (by omega)

theorem spelled_ne {text : String} (bytes : List UInt8) (h : text.toList.head? ≠ some '-') :
    spelled bytes ≠ text := by
  rintro rfl
  simp [spelled] at h

theorem hashBytes_injective : Function.Injective os.hashBytes := by
  intro a b h
  simp only [os] at h
  split at h
  · rename_i ha
    split at h
    · rename_i hb
      rw [ha, hb]
    · split at h
      · exact absurd h (by decide)
      · exact absurd h.symm (spelled_ne b (by decide))
  · split at h
    · rename_i ha
      split at h
      · exact absurd h (by decide)
      · split at h
        · rename_i hb
          rw [ha, hb]
        · exact absurd h.symm (spelled_ne b (by decide))
    · split at h
      · exact absurd h (spelled_ne a (by decide))
      · split at h
        · exact absurd h (spelled_ne a (by decide))
        · exact spelled_injective h

end Nested

open Nested in
/-- Two saves of `sub/f` by two agents that serve `/w` share their key and exclude each other. -/
theorem Save.exclusive_iff_outer :
    Function.Injective os.hashBytes ∧ (∃ key, key ∈ outer.keys ∧ key ∈ outer.keys) ∧
      ∀ s, TryLock.Reachable (fun _ : Bool => outer.locks 1000) s →
        ¬ (s true = .inside ∧ s false = .inside) := by
  have hne : true ≠ false := by decide
  exact ⟨hashBytes_injective,
    (Save.exclusive_iff hashBytes_injective (fun _ : Bool => outer) 1000 hne rfl).2 ⟨rfl, rfl⟩⟩

open Nested in
/-- **The same file through a workspace and through a directory in it**: the two saves have no
common lock key, and both can be in the section that checks and replaces the file. -/
theorem nested_saves_overlap :
    outer.target.abs = inner.target.abs ∧
      (¬ ∃ key, key ∈ outer.keys ∧ key ∈ inner.keys) ∧
      ∃ s, TryLock.Reachable (fun b : Bool => (if b then outer else inner).locks 1000) s ∧
        s true = .inside ∧ s false = .inside := by
  have hkeys : ¬ ∃ key, key ∈ outer.keys ∧ key ∈ inner.keys := by
    rw [keys_outer, keys_inner]
    decide
  have hne : true ≠ false := by decide
  refine ⟨rfl, hkeys, TryLock.exists_both_inside hne (by simp [Save.locks_eq])
    (by simp [Save.locks_eq]) ?_⟩
  intro lock houter hinner
  exact hkeys (Save.mem_locks_iff.1 ⟨lock, houter, hinner⟩).2

end RemoteMirror.Agent
