/-
**Named files with an identity.**

A name stands for an object, and the object holds bytes.  A file that is open stays the same object
when its name is given away, so writing goes to objects while renaming and removing go to names.
There are no second names for one object.

Main definitions:

* `FileStore.overwrite` — the bytes of a file after a write at an offset;
* `FileStore.Store`, `FileStore.Store.read` — objects, names, and the bytes under a name;
* `FileStore.Store.create`, `write`, `rename`, `remove`, `put` — the operations;
* `FileStore.Store.Ages`, `FileStore.Store.Loose` — names that open files cannot get at.

Main results: for each operation, what it does to the names it is about, and that it leaves all
other names alone.
-/

import Mathlib

namespace FileStore

/-! ### Bytes -/

/-- The bytes of a file after `content` was written at `offset`. -/
def overwrite (data : List UInt8) (offset : ℕ) (content : List UInt8) : List UInt8 :=
  data.take offset ++ List.replicate (offset - data.length) 0 ++ content ++
    data.drop (offset + content.length)

/-- What stands before and in the place that is written, and the length. -/
theorem take_overwrite {data : List UInt8} {offset : ℕ} (h : offset ≤ data.length)
    (content : List UInt8) : (overwrite data offset content).take offset = data.take offset ∧
      (overwrite data offset content).take (offset + content.length) = data.take offset ++ content ∧
      (overwrite data offset content).length = max data.length (offset + content.length) := by
  have hlen : (data.take offset).length = offset := by simp [h]
  have hpad : offset - data.length = 0 := by omega
  unfold overwrite
  rw [hpad]
  simp only [List.replicate_zero, List.append_nil]
  refine ⟨?_, ?_, ?_⟩
  · rw [List.append_assoc, List.take_append_of_le_length (by omega), List.take_take, Nat.min_self]
  · have htotal : (data.take offset ++ content).length = offset + content.length := by
      simp [h]
    rw [List.take_append_of_le_length (by omega), ← htotal, List.take_length]
  · simp only [List.length_append, List.length_take, List.length_drop]
    omega

/-- Writing on at the end of a file. -/
theorem overwrite_length (data content : List UInt8) :
    overwrite data data.length content = data ++ content := by
  simp [overwrite]

theorem overwrite_nil (content : List UInt8) : overwrite [] 0 content = content :=
  overwrite_length [] content

/-! ### The store -/

/-- Objects and their names.  `next` does not exist yet. -/
structure Store (N : Type) where
  node : N → Option ℕ
  data : ℕ → List UInt8
  next : ℕ
  node_lt : ∀ {n i}, node n = some i → i < next
  node_inj : ∀ {m n i}, node m = some i → node n = some i → m = n

namespace Store

variable {N : Type}

def empty : Store N where
  node _ := none
  data _ := []
  next := 0
  node_lt h := by cases h
  node_inj h := by cases h

/-- The bytes under a name. -/
def read (s : Store N) (n : N) : Option (List UInt8) := (s.node n).map s.data

variable {n : N}

theorem read_eq_none {s : Store N} : s.read n = none ↔ s.node n = none := by
  simp [read]

/-- Writing to an open object. -/
def write (s : Store N) (i offset : ℕ) (content : List UInt8) : Store N :=
  { s with data := Function.update s.data i (overwrite (s.data i) offset content) }

theorem read_write_self {s : Store N} {i : ℕ} (h : s.node n = some i) (offset : ℕ)
    (content : List UInt8) :
    (s.write i offset content).read n = some (overwrite (s.data i) offset content) := by
  simp [read, write, h]

/-- Other files do not see what is written. -/
theorem read_write_ne {s : Store N} {i : ℕ} (h : s.node n ≠ some i) (offset : ℕ)
    (content : List UInt8) : (s.write i offset content).read n = s.read n := by
  unfold read write
  cases hn : s.node n with
  | none => rfl
  | some j =>
    have hne : j ≠ i := by
      rintro rfl
      exact h hn
    simp [hne]

/-- The object a name stands for once it was created. -/
def created (s : Store N) (n : N) : ℕ := (s.node n).getD s.next

variable {m : N}

/-- No other name has the file that is created. -/
theorem node_ne_created {s : Store N} (h : m ≠ n) : s.node m ≠ some (s.created n) := by
  intro hm
  unfold created at hm
  cases hn : s.node n with
  | none =>
    rw [hn] at hm
    exact absurd (s.node_lt hm) (by simp)
  | some j =>
    rw [hn] at hm
    exact h (s.node_inj hm hn)

variable [DecidableEq N]

/-- A name is taken away. -/
def remove (s : Store N) (n : N) : Store N :=
  { s with
    node := fun m => if m = n then none else s.node m
    node_lt := by
      intro m i h
      split at h
      · cases h
      · exact s.node_lt h
    node_inj := by
      intro m m' i h h'
      split at h
      · cases h
      · split at h'
        · cases h'
        · exact s.node_inj h h' }

theorem node_remove_self (s : Store N) (n : N) : (s.remove n).node n = none := by
  simp [remove]

theorem node_remove_ne {s : Store N} (h : m ≠ n) : (s.remove n).node m = s.node m := by
  simp [remove, h]

/-- Removing a name leaves the files of the others. -/
theorem read_remove_ne {s : Store N} (h : m ≠ n) : (s.remove n).read m = s.read m := by
  simp [read, remove, h]

/-- The second name now stands for what the first one stood for. -/
def rename (s : Store N) (m n : N) : Store N :=
  { s with
    node := fun x => if x = n then s.node m else if x = m then none else s.node x
    node_lt := by
      intro x i h
      split at h
      · exact s.node_lt h
      · split at h
        · cases h
        · exact s.node_lt h
    node_inj := by
      intro x y i hx hy
      split at hx
      · split at hy
        · rename_i hxn hyn
          rw [hxn, hyn]
        · split at hy
          · cases hy
          · exact absurd (s.node_inj hy hx) ‹_›
      · split at hx
        · cases hx
        · split at hy
          · exact absurd (s.node_inj hx hy) ‹_›
          · split at hy
            · cases hy
            · exact s.node_inj hx hy }

theorem node_rename_ne {s : Store N} {x : N} (hm : x ≠ m) (hn : x ≠ n) :
    (s.rename m n).node x = s.node x := by
  simp [rename, hm, hn]

/-- The new name has what the old one had. -/
theorem read_rename_self (s : Store N) (m n : N) : (s.rename m n).read n = s.read m := by
  simp [read, rename]

/-- Names that are neither the old nor the new one keep their files. -/
theorem read_rename_ne {s : Store N} {x : N} (hm : x ≠ m) (hn : x ≠ n) :
    (s.rename m n).read x = s.read x := by
  simp [read, rename, hm, hn]

/-- An empty file under this name: the one that is there is cut off, or there is a new one. -/
def create (s : Store N) (n : N) : Store N :=
  { s with
    node := fun m => if m = n then some (s.created n) else s.node m
    data := Function.update s.data (s.created n) []
    next := max s.next (s.created n + 1)
    node_lt := by
      intro m i h
      split at h
      · cases h
        omega
      · have := s.node_lt h
        omega
    node_inj := by
      intro m m' i h h'
      split at h
      · rename_i hm
        split at h'
        · rename_i hm'
          rw [hm, hm']
        · rename_i hne
          cases h
          exact absurd h' (node_ne_created hne)
      · rename_i hne
        split at h'
        · cases h'
          exact absurd h (node_ne_created hne)
        · exact s.node_inj h h' }

theorem node_create_self (s : Store N) (n : N) : (s.create n).node n = some (s.created n) := by
  simp [create]

theorem node_create_ne {s : Store N} (h : m ≠ n) : (s.create n).node m = s.node m := by
  simp [create, h]

/-- Creating a file changes no other. -/
theorem read_create_ne {s : Store N} (h : m ≠ n) : (s.create n).read m = s.read m := by
  have hne : s.node m ≠ some (s.created n) := node_ne_created h
  unfold read
  rw [node_create_ne h]
  cases hm : s.node m with
  | none => rfl
  | some j =>
    have hj : j ≠ s.created n := by
      rintro rfl
      exact hne hm
    simp [create, hj]

/-- A file with these bytes under this name. -/
def put (s : Store N) (n : N) (content : List UInt8) : Store N :=
  (s.create n).write (s.created n) 0 content

/-- A file that is put in its place is read back. -/
theorem read_put_self (s : Store N) (n : N) (content : List UInt8) :
    (s.put n content).read n = some content := by
  rw [put, read_write_self (node_create_self s n)]
  simp [create, overwrite_nil]

/-- All other files stay what they are. -/
theorem read_put_ne {s : Store N} (h : m ≠ n) (content : List UInt8) :
    (s.put n content).read m = s.read m := by
  have hne : (s.create n).node m ≠ some (s.created n) := by
    rw [node_create_ne h]
    exact node_ne_created h
  rw [put, read_write_ne hne, read_create_ne h]

/-! ### Names that are left alone -/

/-- Names of the kind `K` stand for what they stood for, for something new, or for nothing. -/
structure Ages (K : N → Bool) (s t : Store N) : Prop where
  next : s.next ≤ t.next
  node : ∀ {n i}, K n = true → t.node n = some i → s.node n = some i ∨ s.next ≤ i

variable {K : N → Bool} {s t u : Store N} {i : ℕ}

omit [DecidableEq N] in
theorem Ages.refl (s : Store N) : Ages K s s := ⟨Nat.le_refl _, fun _ h => .inl h⟩

omit [DecidableEq N] in
/-- What stays closed over two steps stays closed over both. -/
theorem Ages.trans (h : Ages K s t) (h' : Ages K t u) : Ages K s u := by
  refine ⟨Nat.le_trans h.next h'.next, fun hn hi => ?_⟩
  rcases h'.node hn hi with hi' | hi'
  · exact h.node hn hi'
  · exact .inr (Nat.le_trans h.next hi')

theorem ages_create (s : Store N) (n : N) : Ages K s (s.create n) := by
  refine ⟨Nat.le_max_left _ _, fun {m i} _ hi => ?_⟩
  by_cases hm : m = n
  · subst hm
    rw [node_create_self] at hi
    cases hnode : s.node m with
    | none =>
      simp only [created, hnode, Option.getD_none, Option.some.injEq] at hi
      exact .inr (Nat.le_of_eq hi)
    | some j =>
      simp only [created, hnode, Option.getD_some] at hi
      exact .inl hi
  · rw [node_create_ne hm] at hi
    exact .inl hi

theorem ages_put (s : Store N) (n : N) (content : List UInt8) : Ages K s (s.put n content) := by
  have h : Ages K s (s.create n) := ages_create s n
  exact ⟨h.next, h.node⟩

theorem ages_remove (s : Store N) (n : N) : Ages K s (s.remove n) := by
  refine ⟨Nat.le_refl _, fun {m i} _ hi => ?_⟩
  by_cases hm : m = n
  · subst hm
    rw [node_remove_self] at hi
    cases hi
  · rw [node_remove_ne hm] at hi
    exact .inl hi

/-- A name that is not to be kept can take over any file. -/
theorem ages_rename (s : Store N) (m : N) (hn : K n = false) : Ages K s (s.rename m n) := by
  refine ⟨Nat.le_refl _, fun {x i} hx hi => .inl ?_⟩
  have hxn : x ≠ n := by
    rintro rfl
    rw [hn] at hx
    cases hx
  by_cases hxm : x = m
  · subst hxm
    simp [rename, hxn] at hi
  · rwa [node_rename_ne hxm hxn] at hi

/-- An object without a name of the kind `K`. -/
structure Loose (K : N → Bool) (s : Store N) (i : ℕ) : Prop where
  lt : i < s.next
  ne : ∀ n, K n = true → s.node n ≠ some i

omit [DecidableEq N] in
/-- An open file that nobody keeps is never kept later. -/
theorem Loose.ages (h : Loose K s i) (hst : Ages K s t) : Loose K t i := by
  refine ⟨Nat.lt_of_lt_of_le h.lt hst.next, fun n hn hi => ?_⟩
  rcases hst.node hn hi with hi' | hi'
  · exact h.ne n hn hi'
  · exact absurd h.lt (Nat.not_lt.2 hi')

/-- A file created under a name that is not kept is loose. -/
theorem loose_create (s : Store N) (hn : K n = false) : Loose K (s.create n) (s.created n) := by
  refine ⟨Nat.lt_of_lt_of_le (Nat.lt_succ_self _) (Nat.le_max_right _ _), fun m hm hi => ?_⟩
  have hne : m ≠ n := by
    rintro rfl
    rw [hn] at hm
    cases hm
  rw [node_create_ne hne] at hi
  exact node_ne_created hne hi

end Store

end FileStore
