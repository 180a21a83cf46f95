/-
**A conflict keeps both sides.**

When a save meets a conflict, its bytes lie in a snapshot and the bytes of the remote file in a
copy. A snapshot is named after the hash of its bytes, so that writing one again does no harm.  A
copy is named after the path, with `__` for `/`, and the milliseconds of a clock: two conflicts can
get the same name, and then the later copy replaces the earlier one.  The agent, too, can send other
bytes than the ones it has hashed.

Main definitions:

* `Mirror.Copies.RowSafe` — both sides of a row are there;
* `Mirror.Copies.orderly` — copies get new names, and the agent reads what it has hashed.

Main results:

* `Mirror.both_sides_kept` — **then both sides of every conflict are there**;
* `Mirror.copy_replaced` — two conflicts in one millisecond can share a copy.
-/

import RemoteMirror.MirrorWalk

namespace RemoteMirror.Mirror

open Agent (Name Path textBytes)
open FileStore (Store)
open Interact (Label Move Spec State)

namespace Copies

/-! ### Files that are kept -/

/-- Snapshots and copies. -/
def kept : LocalPath → Bool
  | .mirror _ => false
  | _ => true

theorem ne_mirror {n : LocalPath} (hn : kept n = true) {path : Path} : n ≠ .mirror path := by
  rintro rfl
  cases hn

/-- Snapshots stay there, copies stay what they are, and both stay closed. -/
structure Later (s t : World) : Prop where
  snapshot : ∀ {name ms h b}, s.store.read (.snapshot name ms h) = some b →
    ∃ b', t.store.read (.snapshot name ms h) = some b'
  copy : ∀ {name truncated ms b}, s.store.read (.conflictCopy name truncated ms) = some b →
    t.store.read (.conflictCopy name truncated ms) = some b
  store : Store.Ages kept s.store t.store

theorem Later.refl (w : World) : Later w w where
  snapshot h := ⟨_, h⟩
  copy h := h
  store := Store.Ages.refl _

variable {s t : World}

theorem Later.trans {u : World} (h : Later s t) (h' : Later t u) : Later s u where
  snapshot hb := by
    obtain ⟨b', hb'⟩ := h.snapshot hb
    exact h'.snapshot hb'
  copy hb := h'.copy (h.copy hb)
  store := h.store.trans h'.store

/-- The files that are kept are the same. -/
theorem Later.of_reads (hages : Store.Ages kept s.store t.store)
    (hread : ∀ n, kept n = true → t.store.read n = s.store.read n) : Later s t where
  snapshot hb := ⟨_, (hread _ rfl).trans hb⟩
  copy hb := (hread _ rfl).trans hb
  store := hages

/-! ### The terms -/

section Terms

variable (hash : List UInt8 → String)

/-- Both sides of a row: its snapshot, and what the remote file was, if all of it was sent. -/
structure RowSafe (w : World) (row : Row) : Prop where
  snapshot : ∃ name ms b, row.snapshotPath = some (.snapshot name ms row.localHash) ∧
    w.store.read (.snapshot name ms row.localHash) = some b
  copy : row.state = .conflict → row.remoteConflictTruncated = false →
    ∀ h, row.conflictActualHash = some h → ∃ name truncated ms b,
      row.remoteConflictPath = some (.conflictCopy name truncated ms) ∧
      w.store.read (.conflictCopy name truncated ms) = some b ∧ hash b = h

/-- Snapshots hold what they are named after, and every row has both of its sides. -/
structure Safe (w : World) : Prop where
  bytes : ∀ {name ms h b}, w.store.read (.snapshot name ms h) = some b → hash b = h
  row : ∀ {r}, r ∈ w.db.queue → RowSafe hash w r

theorem Safe.fresh (remote : Path → Option (List UInt8)) : Safe hash (World.fresh remote) where
  bytes h := by cases h
  row h := by cases h

/-- A copy gets a name that is not taken.  Once the agent has found a hash that was not expected, it
can open the file, and nobody else writes it before its bytes are read. -/
def orderly : Label Lane Call Job Event → World → Bool
  | .env (.editRemote path _), w => decide (w.comparing ≠ some path)
  | .call _ _ (.writeDurable (.conflictCopy name truncated ms) _), w =>
    (w.store.node (.conflictCopy name truncated ms)).isNone
  | .call _ _ (.conflictContent path), w => !w.unreadable path
  | _, _ => true

/-- Files that are kept stay there.  While the agent is comparing a file for the write lane, nobody
changes it. -/
def keeping : Spec Lane World where
  inv := Safe hash
  rely i s t := Later s t ∧ (i = .write → ∀ path, s.comparing = some path →
    t.comparing = some path ∧ t.remote path = s.remote path)
  guar i s t := Later s t ∧ (i ≠ .write → t.comparing = s.comparing ∧ t.remote = s.remote)
  rely_refl i s := ⟨Later.refl s, fun _ path hpath => ⟨hpath, rfl⟩⟩
  rely_trans h h' := by
    refine ⟨h.1.trans h'.1, fun hi path hpath => ?_⟩
    obtain ⟨ht, hremote⟩ := h.2 hi path hpath
    obtain ⟨hu, hremote'⟩ := h'.2 hi path ht
    exact ⟨hu, hremote'.trans hremote⟩
  guar_rely := by
    intro i j s t hne h
    refine ⟨h.1, fun hj path hpath => ?_⟩
    have hi : i ≠ .write := by
      rintro rfl
      exact hne hj.symm
    obtain ⟨hcomparing, hremote⟩ := h.2 hi
    exact ⟨hcomparing.trans hpath, by rw [hremote]⟩

end Terms

variable {hash : List UInt8 → String}

theorem keeping_covers (i : Lane) : Spec.Covers (keeping hash) i Later where
  refl := Later.refl
  trans := Later.trans
  rely h _ := h.1
  guar h _ := h.1

theorem RowSafe.later {row : Row} (hs : RowSafe hash s row) (hst : Later s t) :
    RowSafe hash t row := by
  refine ⟨?_, fun hconflict htruncated h hh => ?_⟩
  · obtain ⟨name, ms, b, hp, hb⟩ := hs.snapshot
    obtain ⟨b', hb'⟩ := hst.snapshot hb
    exact ⟨name, ms, b', hp, hb'⟩
  · obtain ⟨name, truncated, ms, b, hp, hb, hhash⟩ := hs.copy hconflict htruncated h hh
    exact ⟨name, truncated, ms, b, hp, hst.copy hb, hhash⟩

/-! ### Steps that keep the invariant -/

/-- Rows in conflict are rows that were in conflict. -/
def SameConflicts (db db' : Db) : Prop :=
  ∀ r ∈ db'.queue, ∃ r₀ ∈ db.queue, Row.SameSave r₀ r ∧ (r.state = .conflict → r = r₀)

theorem SameConflicts.of_queue {db db' : Db} (h : db'.queue = db.queue) : SameConflicts db db' := by
  intro r hr
  rw [h] at hr
  exact ⟨r, hr, .rfl, fun _ => rfl⟩

theorem SameConflicts.trans {db₁ db₂ db₃ : Db} (h : SameConflicts db₁ db₂)
    (h' : SameConflicts db₂ db₃) : SameConflicts db₁ db₃ := by
  intro r hr
  obtain ⟨r₂, hr₂, hsave₂, hconflict₂⟩ := h' r hr
  obtain ⟨r₁, hr₁, hsave₁, hconflict₁⟩ := h r₂ hr₂
  refine ⟨r₁, hr₁, hsave₁.trans hsave₂, fun hstate => ?_⟩
  obtain rfl := hconflict₂ hstate
  exact hconflict₁ hstate

/-- A row that is replaced under a condition, and is not in conflict then. -/
theorem eq_of_conflict {p : Prop} [Decidable p] {row new : Row} (hnew : new.state ≠ .conflict)
    (h : (if p then new else row).state = .conflict) : (if p then new else row) = row := by
  split_ifs at h ⊢
  · exact absurd h hnew
  · rfl

theorem SameConflicts.updateRows (db : Db) {f : Row → Row} (hsame : ∀ row, Row.SameSave row (f row))
    (hf : ∀ row, (f row).state = .conflict → f row = row) : SameConflicts db (db.updateRows f) := by
  intro r hr
  obtain ⟨r₀, hr₀, rfl⟩ := Db.mem_updateRows.1 hr
  exact ⟨r₀, hr₀, hsame r₀, hf r₀⟩

/-- No statement but the one that records a conflict brings a row into conflict. -/
theorem sameConflicts_statement {e : Call} {f : Db → Db} (he : e.statement = some f) (db : Db) :
    SameConflicts db (f db) := by
  have hstate : ∀ (id : ℕ) {g : Row → Row}, (∀ row, Row.SameSave row (g row)) →
      (∀ row, (g row).state ≠ .conflict) → SameConflicts db (db.updateRow id g) := by
    intro id g hsame hg
    refine SameConflicts.updateRows db (fun row => ?_) fun row => eq_of_conflict (hg row)
    split
    · exact hsame row
    · exact .rfl
  cases e <;> try (cases he; done)
  all_goals obtain rfl := Option.some.inj he
  case upsertMetadataBatch entries =>
    exact SameConflicts.of_queue (Db.upsertMetadataBatch_queue entries db).1
  case markSaveApplied id path newHash =>
    exact (hstate id (g := fun row => { row with state := .applied }) (fun row =>
      ⟨rfl, rfl, rfl, rfl⟩)
      nofun).trans (SameConflicts.of_queue rfl)
  case markSaveFailed id => exact hstate id (fun row => ⟨rfl, rfl, rfl, rfl⟩) nofun
  case acceptLocal accepted =>
    refine (SameConflicts.updateRows db (Db.sameSave_supersededBy accepted) fun row =>
      eq_of_conflict nofun).trans (SameConflicts.updateRows _ (fun row => ?_) fun row hrow => ?_)
    · split
      · exact Db.sameSave_rebasedOn accepted row
      · exact .rfl
    · split_ifs at hrow ⊢
      · exact eq_of_conflict nofun hrow
      · rfl
  case acceptRemote accepted remoteHash =>
    exact (SameConflicts.updateRows db (Db.sameSave_resolvedBy accepted) fun row =>
      eq_of_conflict nofun).trans (SameConflicts.of_queue rfl)
  all_goals exact SameConflicts.of_queue rfl

/-- A step keeps the invariant and the files. -/
abbrev Kept (hash : List UInt8 → String) (w u : World) : Prop := Safe hash u ∧ Later w u

section Steps

variable {w u : World}

/-- A step that leaves the queue and the kept files alone. -/
theorem Safe.step (hw : Safe hash w) (hqueue : u.db.queue = w.db.queue)
    (hages : Store.Ages kept w.store u.store)
    (hread : ∀ n, kept n = true → u.store.read n = w.store.read n) : Kept hash w u := by
  have hlater : Later w u := Later.of_reads hages hread
  refine ⟨⟨fun {name ms h b} hb => ?_, fun hr => ?_⟩, hlater⟩
  · exact @Safe.bytes hash w hw name ms h b ((hread _ rfl).symm.trans hb)
  · rw [hqueue] at hr
    exact (hw.row hr).later hlater

/-- The same for steps that leave all files alone. -/
theorem Safe.same (hw : Safe hash w) (hqueue : u.db.queue = w.db.queue)
    (hstore : u.store = w.store) : Kept hash w u := by
  refine hw.step hqueue ?_ fun _ _ => by rw [hstore]
  rw [hstore]
  exact Store.Ages.refl _

theorem Safe.setDb (hw : Safe hash w) {db : Db} (hrows : SameConflicts w.db db) :
    Kept hash w (w.setDb db) := by
  refine ⟨⟨hw.bytes, fun {r} hr => ?_⟩, Later.of_reads (Store.Ages.refl _) fun _ _ => rfl⟩
  obtain ⟨r₀, hr₀, hsave, hconflict⟩ := hrows r hr
  have hold := hw.row hr₀
  refine ⟨?_, fun hstate => ?_⟩
  · obtain ⟨name, ms, b, hp, hb⟩ := hold.snapshot
    rw [hsave.snapshotPath, hsave.localHash]
    exact ⟨name, ms, b, hp, hb⟩
  · obtain rfl := hconflict hstate
    exact hold.copy hstate

/-- A file is put among the snapshots, or where none is. -/
theorem Safe.put (hw : Safe hash w) (name : LocalPath) (content : List UInt8)
    (hsnapshot : ∀ n ms x, name = .snapshot n ms x → hash content = x)
    (hcopy : ∀ n truncated ms, name = .conflictCopy n truncated ms → w.store.node name = none) :
    Kept hash w (w.setStore (w.store.put name content)) := by
  have hself := Store.read_put_self w.store name content
  have hlater : Later w (w.setStore (w.store.put name content)) := by
    refine ⟨fun {n ms h b} hb => ?_, fun {n truncated ms b} hb => ?_, Store.ages_put _ _ _⟩
    · by_cases hname : LocalPath.snapshot n ms h = name
      · rw [hname]
        exact ⟨content, hself⟩
      · exact ⟨b, (Store.read_put_ne hname content).trans hb⟩
    · have hname : LocalPath.conflictCopy n truncated ms ≠ name := by
        intro hname
        rw [hname, Store.read_eq_none.2 (hcopy n truncated ms hname.symm)] at hb
        cases hb
      exact (Store.read_put_ne hname content).trans hb
  refine ⟨⟨fun {n ms h b} hb => ?_, fun hr => (hw.row hr).later hlater⟩, hlater⟩
  by_cases hname : LocalPath.snapshot n ms h = name
  · have hb' : content = b := by
      rw [← hname] at hself
      exact Option.some.inj (hself.symm.trans (hname ▸ hb))
    rw [← hb']
    exact hsnapshot n ms h hname.symm
  · exact @Safe.bytes hash w hw n ms h b ((Store.read_put_ne hname content).symm.trans hb)

variable {name : Name} {b : List UInt8}

/-- A save whose snapshot is there is queued. -/
theorem Safe.insertSave (hw : Safe hash w) (path : Path) (expectedHash : Option String) {ms : ℕ}
    {localHash : String} (hsnapshot : w.store.read (.snapshot name ms localHash) = some b)
    (hu : u = (w.setDb (w.db.insertSave path expectedHash localHash
      (.snapshot name ms localHash))).note path localHash) : Kept hash w u := by
  subst hu
  refine ⟨⟨hw.bytes, fun {r} hr => ?_⟩, Later.of_reads (Store.Ages.refl _) fun _ _ => rfl⟩
  rcases List.mem_append.1 hr with hr | hr
  · exact ⟨(hw.row hr).snapshot, (hw.row hr).copy⟩
  · obtain rfl := List.mem_singleton.1 hr
    refine ⟨⟨name, ms, b, rfl, hsnapshot⟩, fun hstate => ?_⟩
    cases hstate

/-- A row whose copy is there goes into conflict. -/
theorem Safe.conflict (hw : Safe hash w) (id : ℕ) (path : Path) (actualHash : Option String)
    {truncated : Bool} {ms : ℕ} (hcopy : w.store.read (.conflictCopy name truncated ms) = some b)
    (hhash : truncated = false → ∀ h, actualHash = some h → hash b = h)
    (hu : u = (w.setDb (w.db.recordSaveConflict id path actualHash (.conflictCopy name truncated ms)
      truncated)).noteFound path actualHash) : Kept hash w u := by
  have hqueue : u.db.queue = (w.db.recordSaveConflict id path actualHash
      (.conflictCopy name truncated ms) truncated).queue := by
    rw [hu]
    cases actualHash <;> rfl
  have hstore : u.store = w.store := by
    rw [hu]
    cases actualHash <;> rfl
  have hlater : Later w u := by
    refine Later.of_reads ?_ fun _ _ => by rw [hstore]
    rw [hstore]
    exact Store.Ages.refl _
  refine ⟨⟨?_, fun {r} hr => ?_⟩, hlater⟩
  · rw [hstore]
    exact hw.bytes
  · rw [hqueue] at hr
    obtain ⟨r₀, hr₀, rfl⟩ := Db.mem_updateRows.1 hr
    have hold := (hw.row hr₀).later hlater
    split
    case isFalse => exact hold
    case isTrue =>
      refine ⟨hold.snapshot, fun _ htruncated h hh => ⟨name, truncated, ms, b, rfl, ?_, ?_⟩⟩
      · rw [hstore]
        exact hcopy
      · exact hhash htruncated h hh

end Steps

/-! ### Calls -/

/-- A step that leaves the remote files alone. -/
structure Quiet (s t : World) : Prop where
  remote : t.remote = s.remote
  comparing : t.comparing = s.comparing

theorem Quiet.guar (h : Quiet s t) (hlater : Later s t) (i : Lane) : (keeping hash).guar i s t :=
  ⟨hlater, fun _ => ⟨h.comparing, h.remote⟩⟩

/-- All a lane has to know is which open files are not among those that are kept. -/
def keepingWalk (hash : List UInt8 → String) : Walk hash where
  terms := keeping hash
  calm := orderly
  later := Later
  base _ _ _ := True
  save _ _ := True
  row _ _ := True
  loose w inode := Store.Loose kept w.store inode
  covers := keeping_covers
  base_later _ _ := trivial
  save_later _ _ := trivial
  row_later _ _ := trivial
  loose_later h hst := h.ages hst.store
  base_none _ _ := trivial
  row_save _ _ := trivial

section Calls

variable {i : Lane} {j : Option Job} {s : World} {e : Call}

theorem fine_run {Q : Ans e → World → Prop}
    (h : ∀ t, Later s t → Safe hash t → orderly (.call i j e) t = true → ∀ c r u,
      answer hash i e c t = some (r, u) → ((∃ message, r = .error message) ∧ u = t) ∨
        Kept hash t u ∧ Quiet t u ∧ ∀ a, r = .ok a → ∀ v, Later u v → Q a v) :
    (keepingWalk hash).Fine i j (run e) Q s := by
  refine yields_run fun t ht hi hc c r u hu => ?_
  obtain ⟨⟨m, rfl⟩, rfl⟩ | ⟨⟨hinv, hlater⟩, hquiet, hr⟩ := h t ht.1 hi hc c r u hu
  · exact ⟨hi, ⟨Later.refl u, fun _ => ⟨rfl, rfl⟩⟩, fun a ha => by cases ha⟩
  · exact ⟨hinv, hquiet.guar hlater i, fun a ha v hv _ => hr a ha v hv.1⟩

/-- A call that keeps the invariant, whether or not its failure is ignored. -/
theorem fine_step (h : ∀ t, Later s t → Safe hash t → ∀ c r u, answer hash i e c t = some (r, u) →
      Kept hash t u ∧ Quiet t u) :
    (keepingWalk hash).Keeps i j (run e) s ∧ (keepingWalk hash).Keeps i j (ignore e) s := by
  refine ⟨fine_run fun t ht hi _ c r u hu => .inr ?_, yields_ignore fun t ht hi _ c r u hu => ?_⟩
  · obtain ⟨hsafe, hquiet⟩ := h t ht hi c r u hu
    exact ⟨hsafe, hquiet, fun _ _ _ _ => trivial⟩
  · obtain ⟨⟨hinv, hlater⟩, hquiet⟩ := h t ht.1 hi c r u hu
    exact ⟨hinv, hquiet.guar hlater i, fun _ _ _ => trivial⟩

theorem Safe.refl {w : World} (hw : Safe hash w) : Kept hash w w ∧ Quiet w w :=
  ⟨⟨hw, Later.refl w⟩, rfl, rfl⟩

theorem fine_looks (he : e.looks = true) :
    (keepingWalk hash).Keeps i j (run e) s ∧ (keepingWalk hash).Keeps i j (ignore e) s :=
  fine_step fun _ _ hi _ _ _ hu =>
    have h := answer_looks he hu
    ⟨hi.same (by rw [h.db]) h.store, h.remote, h.comparing⟩

theorem fine_statement {f : Db → Db} (he : e.statement = some f) :
    (keepingWalk hash).Keeps i j (run e) s ∧ (keepingWalk hash).Keeps i j (ignore e) s := by
  refine fine_step fun t _ hi c r u hu => ?_
  rcases answer_statement he hu with rfl | rfl
  · exact hi.refl
  · exact ⟨hi.setDb (sameConflicts_statement he t.db), rfl, rfl⟩

/-- A new staging file is none of the files that are kept. -/
theorem Safe.created {w u : World} (hw : Safe hash w) (path : Path) {r : Except String ℕ}
    (hr : r = .ok (w.store.created (.mirror path)))
    (hu : u = w.setStore (w.store.create (.mirror path))) : Kept hash w u ∧ Quiet w u ∧
      ∀ a, r = .ok a → ∀ v, Later u v → Store.Loose kept v.store a := by
  subst hu
  refine ⟨hw.step rfl (Store.ages_create _ _) fun n hn => Store.read_create_ne (ne_mirror hn),
    ⟨rfl, rfl⟩, fun a ha v hv => ?_⟩
  cases hr.symm.trans ha
  exact Store.Loose.ages (Store.loose_create w.store rfl) hv.store

end Calls

/-! ### The write lane -/

section WriteLane

variable {j : Option Job} {s : World} {e : Call}

/-- The write lane may change what it likes, as long as the invariant holds and nothing kept is
lost. -/
theorem fine_writing {Q : Ans e → World → Prop}
    (h : ∀ t, (keeping hash).rely .write s t → Safe hash t → orderly (.call .write j e) t = true →
      ∀ c r u, answer hash .write e c t = some (r, u) → Kept hash t u ∧
        ∀ a, r = .ok a → ∀ v, (keeping hash).rely .write u v → Q a v) :
    (keepingWalk hash).Fine .write j (run e) Q s := by
  refine yields_run fun t ht hi hc c r u hu => ?_
  obtain ⟨⟨hinv, hlater⟩, hr⟩ := h t ht hi hc c r u hu
  exact ⟨hinv, ⟨hlater, fun hne => absurd rfl hne⟩, fun a ha v hv _ => hr a ha v hv⟩

/-- All bytes of the remote file came with the conflict, unless it says that there are more. -/
def Complete (hash : List UInt8 → String) (conflict : Conflict) : Prop :=
  conflict.remoteContentTruncated = false →
    ∀ h, conflict.actualHash = some h → hash conflict.remoteContent = h

/-- The agent has found a hash, and the file is still the same. -/
def Found (hash : List UInt8 → String) (path : Path) (checked : Check) (w : World) : Prop :=
  ∀ actualHash, checked = .differs actualHash →
    w.comparing = some path ∧ w.remoteHash hash path = actualHash

variable {path : Path}

theorem found_of_differs (v : World)
    (hv : (keeping hash).rely .write { t with comparing := some path } v) :
    Found hash path (.differs (t.remoteHash hash path)) v := by
  rintro actualHash ⟨⟩
  obtain ⟨hcomparing, hremote⟩ := hv.2 rfl path rfl
  refine ⟨hcomparing, ?_⟩
  unfold World.remoteHash
  rw [hremote]

/-- After a check: an error, the expected hash, or another one. -/
theorem found_of_check {expectedHash : Option String} {u same : World} {r : Except String Check}
    (hi : Safe hash t) (h : Compared hash path expectedHash t same r u) (hsame : Kept hash t same) :
    Kept hash t u ∧ ∀ a, r = .ok a → ∀ v, (keeping hash).rely .write u v → Found hash path a v := by
  rcases h with ⟨⟨m, rfl⟩, rfl⟩ | ⟨rfl, _, rfl⟩ | ⟨rfl, _, rfl⟩
  · exact ⟨hi.refl.1, fun a ha => by cases ha⟩
  · refine ⟨hsame, ?_⟩
    rintro a ⟨⟩ v _ actualHash ⟨⟩
  · refine ⟨hi.same rfl rfl, ?_⟩
    rintro a ⟨⟩ v hv
    exact found_of_differs v hv

/-- What the agent reads of a file it can open is all of it, or it says that there is more. -/
theorem complete_conflictContent {w : World} {c : Choice} (hreadable : w.unreadable path = false) :
    Complete hash ⟨w.remoteHash hash path, (w.conflictContent path c).1,
      (w.conflictContent path c).2⟩ := by
  intro htruncated h hactual
  obtain ⟨content, hcontent, rfl⟩ := Option.map_eq_some_iff.1 hactual
  have hopened : w.opened path = some content := by
    unfold World.opened
    rw [if_neg (by simp [hreadable]), hcontent]
  simp only [World.conflictContent, hopened] at htruncated ⊢
  split at htruncated
  case isTrue hskip =>
    rw [if_pos hskip]
    obtain rfl : content = [] := by simpa using htruncated
    rfl
  case isFalse hskip =>
    rw [if_neg hskip]
    have hle : content.length ≤ maxConflictContentBytes := by simpa using htruncated
    rw [List.take_of_length_le hle]

/-- A snapshot is there; a copy, whose name was not taken, stays what it is. -/
def Written (w : World) : LocalPath → List UInt8 → Prop
  | .snapshot name ms h, _ => ∃ b, w.store.read (.snapshot name ms h) = some b
  | .conflictCopy name truncated ms, content =>
    w.store.read (.conflictCopy name truncated ms) = some content
  | .mirror _, _ => True

/-- The write lane knows which bytes came with a conflict, and that they are written. -/
def keepingSaves (hash : List UInt8 → String) : (keepingWalk hash).Saves where
  checked w entry c := Found hash entry.path c w
  told := Complete hash
  replaced _ _ _ := True
  written := Written
  bytes _ _ := True
  applied _ _ := True
  bytes_of_hash _ := trivial
  applied_self _ := trivial
  look he := (fine_looks he).1
  abort := (fine_looks rfl).2
  latestUnresolved _ := (fine_looks rfl).1.mono fun _ _ _ _ _ _ => trivial
  writeDurable {i j s name content} hsnapshot := by
    refine fine_run fun t _ hi hc c r u hu => ?_
    rcases answer_writeDurable hu with herr | rfl
    · exact .inl herr
    · refine .inr ⟨hi.put name content hsnapshot ?_, ⟨rfl, rfl⟩, fun _ _ v hv => ?_⟩
      · rintro n truncated ms rfl
        simpa [orderly] using hc
      · cases name with
        | snapshot => exact hv.snapshot (Store.read_put_self _ _ _)
        | conflictCopy => exact hv.copy (Store.read_put_self _ _ _)
        | mirror => trivial
  insertSave hwritten _ := (fine_step fun t ht hi c r u hu => by
    obtain ⟨b, hb⟩ := hwritten
    obtain ⟨b', hb'⟩ := ht.snapshot hb
    rcases answer_done hu rfl rfl rfl with ⟨_, rfl⟩ | ⟨_, hu⟩
    · exact hi.refl
    · refine ⟨hi.insertSave _ _ hb' hu, ?_⟩
      subst hu
      exact ⟨rfl, rfl⟩).1
  readSnapshot _ := (fine_looks rfl).1
  beginSave entry := fine_writing fun t _ hi _ c r u hu => by
    obtain ⟨hsafe, hfound⟩ := found_of_check hi (answer_beginSave hu) hi.refl.1
    exact ⟨hsafe, fun a ha v hv h hh => hh ▸ hfound a ha v hv⟩
  checkSave entry := fine_writing fun t _ hi _ c r u hu =>
    found_of_check hi (answer_checkSave hu) (hi.same rfl rfl)
  conflictContent {j s entry h} hchecked := by
    obtain ⟨hcomparing, hactual⟩ := hchecked h rfl
    refine fine_writing fun t ht hi hc c r u hu => ?_
    obtain ⟨rfl, hanswer⟩ := answer_conflictContent hu
    refine ⟨hi.same rfl rfl, fun a ha v _ => ?_⟩
    have hremote : t.remoteHash hash entry.path = h := by
      rw [← hactual, World.remoteHash, World.remoteHash, (ht.2 rfl entry.path hcomparing).2]
    rw [hanswer a ha, ← hremote]
    exact complete_conflictContent (by simpa [orderly] using hc)
  replaceRemote _ _ _ := fine_writing fun t _ hi _ c r u hu => by
    rcases answer_done hu rfl rfl rfl with ⟨_, rfl⟩ | ⟨_, rfl⟩ <;>
      exact ⟨hi.same rfl rfl, fun _ _ _ _ => trivial⟩
  answerSave _ _ _ := fine_writing fun t _ hi _ c r u hu => by
    obtain ⟨rfl, _⟩ := answer_answerSave hu
    exact ⟨hi.same rfl rfl, fun _ _ _ _ => trivial⟩
  markSaveApplied _ _ := (fine_statement rfl).1
  markSaveFailed _ := (fine_statement rfl).1
  recordSaveConflict _ hcomplete hcopy := fine_writing fun t ht hi _ c r u hu => by
    rcases answer_done hu rfl rfl rfl with ⟨_, rfl⟩ | ⟨_, hu⟩
    · exact ⟨hi.refl.1, fun _ _ _ _ => trivial⟩
    · exact ⟨hi.conflict _ _ _ (ht.1.copy hcopy) hcomplete hu, fun _ _ _ _ => trivial⟩

end WriteLane

/-! ### Runs -/

/-- What others do keeps the terms. -/
theorem keeping_happen {m : Event} (hi : Safe hash s) (hc : orderly (.env m) s = true)
    (h : happen m s = some t) : Safe hash t ∧ ∀ i, (keeping hash).rely i s t := by
  have hkeep {u : World} (hu : Kept hash s u) (hcomparing : u.comparing = s.comparing)
      (hremote : u.remote = s.remote) : Safe hash u ∧ ∀ i, (keeping hash).rely i s u :=
    ⟨hu.1, fun i => ⟨hu.2, fun _ p hp => ⟨hcomparing.trans hp, by rw [hremote]⟩⟩⟩
  cases m with
  | editLocal path content =>
    obtain rfl := Option.some.inj h
    obtain ⟨hinv, hlater⟩ := hi.put (.mirror path) content nofun nofun
    obtain ⟨hinv', hlater'⟩ : Kept hash _ (s.setStore (s.store.put (.mirror path) content)) :=
      hinv.same rfl rfl
    exact hkeep ⟨hinv', hlater.trans hlater'⟩ rfl rfl
  | removeLocal path =>
    obtain rfl := Option.some.inj h
    have hstep := hi.step (u := s.setStore (s.store.remove (.mirror path))) rfl
      (Store.ages_remove _ _) fun n hn => Store.read_remove_ne (ne_mirror hn)
    exact hkeep hstep rfl rfl
  | editRemote path content =>
    obtain rfl := Option.some.inj h
    obtain ⟨hinv, hlater⟩ :
        Kept hash s { s with remote := Function.update s.remote path content } := hi.same rfl rfl
    refine ⟨hinv, fun i => ⟨hlater, fun _ p hp => ⟨hp, ?_⟩⟩⟩
    -- the file whose bytes are still to be read is not the one that is edited
    have hne : s.comparing ≠ some path := by simpa [orderly] using hc
    have hp' : p ≠ path := by
      rintro rfl
      exact hne hp
    simp [hp']
  | access path unreadable =>
    obtain rfl := Option.some.inj h
    exact hkeep (hi.same rfl rfl) rfl rfl

theorem keepingWalk_rules : (keepingWalk hash).Rules where
  look he := (fine_looks he).1
  get path := (fine_looks rfl).1.mono fun _ _ _ _ _ _ => trivial
  hydratedEntries := (fine_looks rfl).1.mono fun _ _ _ _ _ _ => trivial
  saveQueueEntry id := (fine_looks rfl).1.mono fun _ _ _ _ _ _ => trivial
  pendingSaveEntries limit := (fine_looks rfl).1.mono fun _ _ _ _ _ _ => trivial
  conflictQueueEntry id := (fine_looks rfl).1.mono fun _ _ _ _ _ _ => trivial
  enqueueSave hcontent _ := (keepingSaves hash).enqueueSave hcontent trivial
  upsertMetadataBatch _ := (fine_statement rfl).1
  recordHydrated _ _ _ := (fine_step fun t _ hi c r u hu => by
    rcases answer_done hu rfl rfl rfl with ⟨_, rfl⟩ | ⟨_, rfl⟩
    · exact hi.refl
    · exact ⟨hi.same rfl rfl, rfl, rfl⟩).1
  recordCleanLocalHash _ _ := (fine_statement rfl).1
  recordValidation _ _ _ := (fine_statement rfl).1
  markValidationError _ := fine_statement rfl
  acceptLocal _ := (fine_statement rfl).1
  acceptRemote _ _ := (fine_statement rfl).1
  createFile path := fine_run fun t _ hi _ c r u hu =>
    (answer_done hu rfl rfl rfl).imp_right fun h => hi.created path h.1 h.2
  createNew path := fine_run fun t _ hi _ c r u hu =>
    (answer_createNew hu).imp_right fun h => hi.created path h.2.1 h.2.2
  writeAll {i j s inode} hloose offset content := by
    refine (fine_step fun t ht hi c r u hu => ?_).1
    have hwrite : ∀ content', Kept hash t (t.setStore (t.store.write inode offset content')) :=
      fun content' =>
      hi.step rfl ⟨Nat.le_refl _, fun _ h => .inl h⟩ fun n hn =>
        Store.read_write_ne ((hloose.ages ht.store).ne n hn) offset content'
    rcases answer_writeAll hu with ⟨_, rfl | ⟨written, rfl⟩⟩ | ⟨_, rfl⟩
    · exact hi.refl
    · exact ⟨hwrite _, rfl, rfl⟩
    · exact ⟨hwrite _, rfl, rfl⟩
  rename source target := by
    refine (fine_step fun t _ hi c r u hu => ?_).1
    rcases answer_rename hu with ⟨_, rfl⟩ | ⟨_, _, rfl⟩
    · exact hi.refl
    · exact ⟨hi.step rfl (Store.ages_rename _ _ rfl) fun n hn =>
        Store.read_rename_ne (ne_mirror hn) (ne_mirror hn), rfl, rfl⟩
  removeFile path := by
    refine (fine_step fun t _ hi c r u hu => ?_).2
    rcases answer_done hu rfl rfl rfl with ⟨_, rfl⟩ | ⟨_, rfl⟩
    · exact hi.refl
    · exact ⟨hi.step rfl (Store.ages_remove _ _) fun n hn => Store.read_remove_ne (ne_mirror hn),
        rfl, rfl⟩
  applySaveEntry _ := (keepingSaves hash).applySaveEntry trivial
  enter job := (fine_step fun t _ hi c r u hu => by
    rw [answer_enter hu]
    exact ⟨hi.same rfl rfl, rfl, rfl⟩).2
  leave := (fine_step fun t _ hi c r u hu => by
    rw [answer_leave hu]
    exact ⟨hi.same rfl rfl, rfl, rfl⟩).2

theorem keeping_met : Spec.Met (keeping hash) (sidecar hash) orderly :=
  keepingWalk_rules.met fun _ _ _ hi hc h => keeping_happen hi hc h

end Copies

/-- Both sides of a conflict: the bytes that were to be saved, and the remote bytes if all of them
were sent. -/
def BothSides (hash : List UInt8 → String) (w : World) (row : Row) : Prop :=
  (∃ name b, row.snapshotPath = some name ∧ w.store.read name = some b ∧
    hash b = row.localHash) ∧
  (row.remoteConflictTruncated = false → ∀ h, row.conflictActualHash = some h →
    ∃ name b, row.remoteConflictPath = some name ∧ w.store.read name = some b ∧ hash b = h)

/-- **Both sides of every conflict are there**: in every run on a new mirror in which copies get
names that are not taken and the agent reads the bytes it has hashed, each row in conflict has its
snapshot and its copy. -/
theorem both_sides_kept (hash : List UInt8 → String) (remote : Path → Option (List UInt8))
    {moves : List (Move Lane Choice Job Event)} {st : State Lane Call Reply String World Job}
    (hruns : (sidecar hash).runs Copies.orderly (State.idle (World.fresh remote)) moves = some st)
    {row : Row} (hrow : row ∈ st.world.db.queue) (hconflict : row.state = .conflict) :
    BothSides hash st.world row := by
  have hinv : (Copies.keeping hash).inv
      (State.idle (World.fresh remote) : State Lane Call Reply String World Job).world :=
    Copies.Safe.fresh hash remote
  have hsafe : Copies.Safe hash st.world :=
    Spec.inv_of_runs Copies.keeping_met hinv (Spec.AllSafe.idle _) hruns
  obtain ⟨name, ms, b, hp, hb⟩ := (hsafe.row hrow).snapshot
  refine ⟨⟨_, b, hp, hb, hsafe.bytes hb⟩, fun htruncated h hh => ?_⟩
  obtain ⟨name, truncated, ms, b, hp, hb, hhash⟩ := (hsafe.row hrow).copy hconflict htruncated h hh
  exact ⟨_, b, hp, hb, hhash⟩

namespace Sample

/-- A local file is written and sent as a new remote file, with the clock at `ms` when the save is
queued and when the conflict is recorded. -/
def adopting (path : Path) (content : String) (ms : ℕ) : List (Move Lane Choice Job Event) :=
  [.env (.editLocal path (textBytes content)), .start .write (.adopt path)] ++ oks .write 4 ++
    [.call .write (.value ms)] ++ oks .write 8 ++ [.call .write (.value ms)] ++ oks .write 3

/-- What a row says about its copy, and the bytes in it. -/
structure Copied where
  state : RowState
  truncated : Bool
  actualHash : Option String
  bytes : Option (List UInt8)
  deriving DecidableEq

def copies (st : State Lane Call Reply String World Job) : List Copied :=
  st.world.db.queue.map fun row => ⟨row.state, row.remoteConflictTruncated, row.conflictActualHash,
    row.remoteConflictPath.bind st.world.store.read⟩

/-- The files `a/b` and `a__b`, which have the same name among the copies. -/
def nested : Path := [textBytes "a", textBytes "b"]

def flat : Path := [textBytes "a__b"]

/-- A new mirror of a workspace in which `a/b` holds `a` and `a__b` holds `b`. -/
def twins : State Lane Call Reply String World Job :=
  .idle (.fresh fun path =>
    if path = nested then some (textBytes "a")
    else if path = flat then some (textBytes "b")
    else none)

end Sample

open Sample in
/-- `f` exists already when it is sent as a new file: `b` is in the snapshot and `a` in the copy. -/
theorem both_sides_kept_adopt :
    ∃ st row, (sidecar blake3).runs Copies.orderly start (adopting file "b" 7) = some st ∧
      row ∈ st.world.db.queue ∧ row.state = .conflict ∧ BothSides blake3 st.world row := by
  have hrun : ((sidecar blake3).runs Copies.orderly start (adopting file "b" 7)).map copies =
      some [⟨.conflict, false, some (blake3 (textBytes "a")), some (textBytes "a")⟩] := by
    decide +kernel
  obtain ⟨st, hruns, hcopies⟩ := Option.map_eq_some_iff.1 hrun
  obtain ⟨row, hrow, hsays⟩ := List.mem_map.1 (hcopies ▸ List.mem_cons_self)
  have hstate : row.state = .conflict := (Copied.mk.inj hsays).1
  exact ⟨st, row, hruns, hrow, hstate, both_sides_kept blake3 _ hruns hrow hstate⟩

open Sample in
/-- **Two conflicts in one millisecond can share a copy**: once `a/b` and then `a__b` are in
conflict, the copy for `a/b` holds the remote bytes of `a__b`. -/
theorem copy_replaced :
    ∃ st row, (sidecar blake3).runs (fun _ _ => true) twins
        (adopting nested "c" 7 ++ adopting flat "c" 7) = some st ∧
      row ∈ st.world.db.queue ∧ row.state = .conflict ∧ ¬ BothSides blake3 st.world row := by
  have hrun : ((sidecar blake3).runs (fun _ _ => true) twins
      (adopting nested "c" 7 ++ adopting flat "c" 7)).map copies =
      some [⟨.conflict, false, some (blake3 (textBytes "a")), some (textBytes "b")⟩,
        ⟨.conflict, false, some (blake3 (textBytes "b")), some (textBytes "b")⟩] := by
    decide +kernel
  obtain ⟨st, hruns, hcopies⟩ := Option.map_eq_some_iff.1 hrun
  obtain ⟨row, hrow, hsays⟩ := List.mem_map.1 (hcopies ▸ List.mem_cons_self)
  obtain ⟨hstate, htruncated, hactual, hread⟩ := Copied.mk.inj hsays
  refine ⟨st, row, hruns, hrow, hstate, fun h => ?_⟩
  obtain ⟨name, b, hname, hb, hhash⟩ := h.2 htruncated _ hactual
  have hbytes : some b = some (textBytes "b") := by
    rw [← hread, hname, ← hb]
    rfl
  rw [Option.some.inj hbytes] at hhash
  revert hhash
  decide

end RemoteMirror.Mirror
