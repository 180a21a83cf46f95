/-
**Mutual exclusion by locks that are tried, never waited for.**

Each participant has a list of locks and tries them one after the other.  A lock that someone holds
makes it give up and drop what it has; with all its locks it enters its section, and it drops them
when it leaves.  This is the discipline of `flock` with `LOCK_NB`: a lock belongs to one open file,
so a participant is refused by its own lock as well.

Main definitions:

* `TryLock.Status`, `TryLock.Step` — the participants and what they do;
* `TryLock.Inv` — every lock has at most one holder.

Main results:

* `TryLock.not_both_inside` — **participants with a common lock are never inside together**;
* `TryLock.exists_both_inside` — participants without one can be.
-/

import Mathlib

namespace TryLock

variable {P L : Type*}

/-! ### Participants -/

/-- Where a participant is: trying its locks, in its section, or gone. -/
inductive Status (L : Type*)
  | waiting (held todo : List L)
  | inside
  | left

/-- The locks a participant holds. -/
def holds (locks : P → List L) (s : P → Status L) (p : P) : List L :=
  match s p with
  | .waiting held _ => held
  | .inside => locks p
  | .left => []

/-- Everybody is about to try the first lock. -/
def start (locks : P → List L) : P → Status L := fun p => .waiting [] (locks p)

variable [DecidableEq P]

/-- One participant takes its next lock, is refused by a holder, enters, or leaves. -/
inductive Step (locks : P → List L) : (P → Status L) → (P → Status L) → Prop
  | take {s : P → Status L} {p : P} {l : L} {held todo : List L} :
      s p = .waiting held (l :: todo) → (∀ q, l ∉ holds locks s q) →
      Step locks s (Function.update s p (.waiting (held ++ [l]) todo))
  | refuse {s : P → Status L} {p q : P} {l : L} {held todo : List L} :
      s p = .waiting held (l :: todo) → l ∈ holds locks s q →
      Step locks s (Function.update s p .left)
  | enter {s : P → Status L} {p : P} {held : List L} :
      s p = .waiting held [] → Step locks s (Function.update s p .inside)
  | leave {s : P → Status L} {p : P} :
      s p = .inside → Step locks s (Function.update s p .left)

/-- The states the participants can get into. -/
def Reachable (locks : P → List L) (s : P → Status L) : Prop :=
  Relation.ReflTransGen (Step locks) (start locks) s

variable {locks : P → List L} {s t : P → Status L} {p q : P} {l : L} {st : Status L}

theorem holds_update_of_ne (h : q ≠ p) : holds locks (Function.update s p st) q =
    holds locks s q := by
  simp only [holds, Function.update_of_ne h]

/-! ### Exclusion -/

/-- A participant works through its own locks, and no lock has two holders. -/
structure Inv (locks : P → List L) (s : P → Status L) : Prop where
  split : ∀ {p held todo}, s p = .waiting held todo → held ++ todo = locks p
  exclusive : ∀ {p q l}, l ∈ holds locks s p → l ∈ holds locks s q → p = q

omit [DecidableEq P] in
theorem Inv.start : Inv locks (start locks) where
  split := by
    intro p held todo h
    cases h
    rfl
  exclusive := by
    intro p q l h
    simp [holds, TryLock.start] at h

/-- A step that leaves a participant with no more locks than before keeps locks exclusive. -/
theorem Inv.exclusive_update (hi : Inv locks s)
    (hsub : ∀ l ∈ holds locks (Function.update s p st) p, l ∈ holds locks s p ∨
      ∀ q, l ∉ holds locks s q) :
    ∀ {q r : P} {l : L}, l ∈ holds locks (Function.update s p st) q →
      l ∈ holds locks (Function.update s p st) r → q = r := by
  intro q r l hq hr
  by_cases hqp : q = p
  · by_cases hrp : r = p
    · rw [hqp, hrp]
    · rw [hqp] at hq
      rw [holds_update_of_ne hrp] at hr
      rcases hsub l hq with h | h
      · exact absurd (hi.exclusive hr h) hrp
      · exact absurd hr (h r)
  · rw [holds_update_of_ne hqp] at hq
    by_cases hrp : r = p
    · rw [hrp] at hr
      rcases hsub l hr with h | h
      · exact absurd (hi.exclusive hq h) hqp
      · exact absurd hq (h q)
    · rw [holds_update_of_ne hrp] at hr
      exact hi.exclusive hq hr

theorem Inv.split_update (hi : Inv locks s)
    (hst : ∀ held todo, st = .waiting held todo → held ++ todo = locks p) :
    ∀ {q : P} {held todo : List L},
      Function.update s p st q = .waiting held todo → held ++ todo = locks q := by
  intro q held todo h
  by_cases hqp : q = p
  · subst hqp
    rw [Function.update_self] at h
    exact hst held todo h
  · rw [Function.update_of_ne hqp] at h
    exact hi.split h

theorem Inv.step (hi : Inv locks s) (hs : Step locks s t) : Inv locks t := by
  cases hs with
  | @take p l held todo hp hfree =>
    refine ⟨hi.split_update ?_, hi.exclusive_update ?_⟩
    · rintro held' todo' h
      cases h
      simpa using hi.split hp
    · intro l' hl'
      rw [holds, Function.update_self] at hl'
      rcases List.mem_append.1 hl' with hl' | hl'
      · rw [holds, hp]
        exact .inl hl'
      · rw [List.mem_singleton.1 hl']
        exact .inr hfree
  | @refuse p q l held todo hp _ | @leave p hp =>
    refine ⟨hi.split_update (by simp), hi.exclusive_update ?_⟩
    intro l' hl'
    simp [holds] at hl'
  | @enter p held hp =>
    refine ⟨hi.split_update (by simp), hi.exclusive_update ?_⟩
    intro l' hl'
    have hall : held = locks p := by simpa using hi.split hp
    rw [holds, Function.update_self] at hl'
    rw [holds, hp, hall]
    exact .inl hl'

theorem Inv.reachable (h : Reachable locks s) : Inv locks s := by
  induction h with
  | refl => exact Inv.start
  | tail _ hs ih => exact ih.step hs

/-- **Participants with a common lock are never inside together.** -/
theorem not_both_inside (h : Reachable locks s) (hne : p ≠ q) (hp : l ∈ locks p)
    (hq : l ∈ locks q) : ¬ (s p = .inside ∧ s q = .inside) := by
  rintro ⟨hsp, hsq⟩
  refine hne ((Inv.reachable h).exclusive (l := l) ?_ ?_)
  · rw [holds, hsp]
    exact hp
  · rw [holds, hsq]
    exact hq

/-! ### Overlap -/

/-- A participant whose remaining locks are free gets inside. -/
theorem reach_inside {todo : List L} :
    ∀ {s : P → Status L} {held : List L}, s p = .waiting held todo → (held ++ todo).Nodup →
      (∀ l ∈ todo, ∀ q, l ∉ holds locks s q) →
      Relation.ReflTransGen (Step locks) s (Function.update s p .inside) := by
  induction todo with
  | nil =>
    intro s held hp _ _
    exact Relation.ReflTransGen.single (Step.enter hp)
  | cons l todo ih =>
    intro s held hp hnodup hfree
    have hnext : Relation.ReflTransGen (Step locks)
        (Function.update s p (.waiting (held ++ [l]) todo))
        (Function.update (Function.update s p (.waiting (held ++ [l]) todo)) p .inside) := by
      refine ih (Function.update_self ..) (by simpa using hnodup) ?_
      intro l' hl' q hq
      by_cases hqp : q = p
      · rw [hqp, holds, Function.update_self] at hq
        have hpos : l' ∈ held ++ [l] := hq
        have hsplit : (held ++ [l] ++ todo).Nodup := by simpa using hnodup
        exact (List.nodup_append.1 hsplit).2.2 l' hpos l' hl' rfl
      · rw [holds_update_of_ne hqp] at hq
        exact hfree l' (by simp [hl']) q hq
    rw [Function.update_idem] at hnext
    exact Relation.ReflTransGen.head (Step.take hp (hfree l (by simp))) hnext

/-- **Participants without a common lock can be inside together.** -/
theorem exists_both_inside (hne : p ≠ q) (hp : (locks p).Nodup) (hq : (locks q).Nodup)
    (hdisjoint : ∀ l ∈ locks p, l ∉ locks q) : ∃ s, Reachable locks s ∧
      s p = .inside ∧ s q = .inside := by
  have hstart : ∀ r, start locks r = .waiting [] (locks r) := fun _ => rfl
  have hfirst : Reachable locks (Function.update (start locks) p .inside) := by
    refine reach_inside (hstart p) (by simpa using hp) ?_
    intro l _ r
    simp [holds, start]
  have hwait : Function.update (start locks) p .inside q = .waiting [] (locks q) := by
    rw [Function.update_of_ne (Ne.symm hne), hstart]
  have hsecond : Relation.ReflTransGen (Step locks) (Function.update (start locks) p .inside)
      (Function.update (Function.update (start locks) p .inside) q .inside) := by
    refine reach_inside hwait (by simpa using hq) ?_
    intro l hl r hr
    by_cases hrp : r = p
    · rw [hrp, holds, Function.update_self] at hr
      exact hdisjoint l hr hl
    · rw [holds_update_of_ne hrp] at hr
      simp [holds, start] at hr
  refine ⟨_, hfirst.trans hsecond, ?_, Function.update_self ..⟩
  rw [Function.update_of_ne hne, Function.update_self]

end TryLock
