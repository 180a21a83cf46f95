/-
**A save only replaces remote bytes that the mirror knows.**

Every hash that a save can expect has been on record for its path before: as hydrated, as the hash
of an earlier save, or as what a conflict has found.  The invariant `Known` says so of all entries
and rows, whichever lanes are at work and whatever others do to the remote files.  Scans do not
matter, because they bring no hashes.

The agent checks the hash right before it replaces the file.  Somebody who writes the file between
the check and the replacement is not seen (`undisturbed` leaves this out).

Main definitions:

* `Mirror.Known` — the invariant;
* `Mirror.Overwrites` — what is replaced is on record;
* `Mirror.undisturbed`, `Mirror.knowing` — the terms of the lanes.

Main results:

* `Mirror.overwrites_of_runs` — **no save replaces bytes that are not on record**;
* `Mirror.edit_between_check_and_replacement` — others can get in between.
-/

import RemoteMirror.MirrorWalk

namespace RemoteMirror.Mirror

open Agent (Name Path textBytes)
open FileStore (Store)
open Interact (Label Spec State)

/-! ### What is on record -/

/-- This hash was recorded for the path. -/
def World.Recorded (w : World) (path : Path) (h : String) : Prop := (path, h) ∈ w.recorded

/-- The hash, if there is one, was recorded for the path. -/
def World.RecordedOpt (w : World) (path : Path) (o : Option String) : Prop :=
  ∀ h, o = some h → w.Recorded path h

theorem World.RecordedOpt.none (w : World) (path : Path) : w.RecordedOpt path none := by
  intro h hh
  cases hh

variable {path : Path} {w : World} {o : Option String}

theorem World.RecordedOpt.or {o' : Option String} (h : w.RecordedOpt path o)
    (h' : w.RecordedOpt path o') : w.RecordedOpt path (o.or o') := by
  cases o with
  | none => simpa using h'
  | some x => simpa using h

def LocalPath.isSnapshot : LocalPath → Bool
  | .snapshot _ _ _ => true
  | _ => false

/-- A row expects and saves hashes on record, and its snapshot is named after the bytes in it. -/
structure RowKnown (w : World) (row : Row) : Prop where
  expected : w.RecordedOpt row.path row.expectedHash
  content : w.Recorded row.path row.localHash
  conflict : w.RecordedOpt row.path row.conflictActualHash
  snapshot : ∀ p, row.snapshotPath = some p → ∃ name ms, p = .snapshot name ms row.localHash

/-- The hashes that saves are based on are on record. -/
structure Known (hash : List UInt8 → String) (w : World) : Prop where
  entry : ∀ {key e}, w.db.files key = some e → w.RecordedOpt key.path e.remoteHash
  row : ∀ {r}, r ∈ w.db.queue → RowKnown w r
  bytes : ∀ {name ms h b}, w.store.read (.snapshot name ms h) = some b → hash b = h
  id_lt : ∀ {r}, r ∈ w.db.queue → r.id < w.db.nextId
  id_path : ∀ {r r'}, r ∈ w.db.queue → r' ∈ w.db.queue → r.id = r'.id → r.path = r'.path

theorem Known.fresh (hash : List UInt8 → String) (remote : Path → Option (List UInt8)) :
    Known hash (World.fresh remote) where
  entry h := by cases h
  row h := by cases h
  bytes h := by cases h
  id_lt h := by cases h
  id_path h := by cases h

/-! ### Later worlds -/

/-- Nothing that was on record is forgotten, and rows and snapshots stay what they are. -/
structure Later (s t : World) : Prop where
  recorded : ∀ x ∈ s.recorded, x ∈ t.recorded
  nextId : s.db.nextId ≤ t.db.nextId
  row : ∀ r' ∈ t.db.queue, r'.id < s.db.nextId → ∃ r ∈ s.db.queue, r.id = r'.id ∧ r.path = r'.path
  store : Store.Ages LocalPath.isSnapshot s.store t.store

theorem Later.refl (w : World) : Later w w where
  recorded _ h := h
  nextId := Nat.le_refl _
  row r h _ := ⟨r, h, rfl, rfl⟩
  store := Store.Ages.refl _

variable {s t u : World}

theorem Later.trans (h : Later s t) (h' : Later t u) : Later s u where
  recorded x hx := h'.recorded x (h.recorded x hx)
  nextId := Nat.le_trans h.nextId h'.nextId
  row r'' hr'' hid := by
    obtain ⟨r', hr', hid', hpath'⟩ := h'.row r'' hr'' (Nat.lt_of_lt_of_le hid h.nextId)
    obtain ⟨r, hr, hid₁, hpath₁⟩ := h.row r' hr' (hid' ▸ hid)
    exact ⟨r, hr, hid₁.trans hid', hpath₁.trans hpath'⟩
  store := h.store.trans h'.store

theorem World.Recorded.later {h : String} (hs : s.Recorded path h) (hst : Later s t) :
    t.Recorded path h :=
  hst.recorded _ hs

theorem World.RecordedOpt.later (hs : s.RecordedOpt path o) (hst : Later s t) :
    t.RecordedOpt path o :=
  fun h hh => (hs h hh).later hst

theorem RowKnown.later {row : Row} (hs : RowKnown s row) (hst : Later s t) : RowKnown t row :=
  ⟨hs.expected.later hst, hs.content.later hst, hs.conflict.later hst, hs.snapshot⟩

/-- The row with this identifier, if there is one, is about this path. -/
structure IdOf (w : World) (id : ℕ) (path : Path) : Prop where
  lt : id < w.db.nextId
  path : ∀ r ∈ w.db.queue, r.id = id → r.path = path

theorem IdOf.later {id : ℕ} (hs : IdOf s id path) (hst : Later s t) :
    IdOf t id path where
  lt := Nat.lt_of_lt_of_le hs.lt hst.nextId
  path r' hr' hid := by
    obtain ⟨r, hr, hid', hpath⟩ := hst.row r' hr' (hid ▸ hs.lt)
    rw [← hpath]
    exact hs.path r hr (hid'.trans hid)

theorem Known.idOf {hash : List UInt8 → String} (h : Known hash w) {r : Row} (hr : r ∈ w.db.queue) :
    IdOf w r.id r.path :=
  ⟨h.id_lt hr, fun _ hr' hid => h.id_path hr' hr hid⟩

/-- An open file that is no snapshot. -/
def Loose (w : World) (inode : ℕ) : Prop := Store.Loose LocalPath.isSnapshot w.store inode

theorem Loose.later {inode : ℕ} (hs : Loose s inode) (hst : Later s t) : Loose t inode :=
  Store.Loose.ages hs hst.store

/-- A save of which everything is on record. -/
structure SaveKnown (w : World) (save : SaveQueueEntry) : Prop where
  id : IdOf w save.id save.path
  expected : w.RecordedOpt save.path save.expectedHash
  content : w.Recorded save.path save.localHash
  snapshot : ∃ name ms, save.snapshotPath = .snapshot name ms save.localHash

theorem SaveKnown.later {save : SaveQueueEntry} (hs : SaveKnown s save) (hst : Later s t) :
    SaveKnown t save :=
  ⟨hs.id.later hst, hs.expected.later hst, hs.content.later hst, hs.snapshot⟩

theorem Known.save {hash : List UInt8 → String} (h : Known hash w) {r : Row} (hr : r ∈ w.db.queue)
    {save : SaveQueueEntry} (hs : r.toEntry = some save) : SaveKnown w save := by
  obtain ⟨p, hp, rfl⟩ := Option.map_eq_some_iff.1 hs
  exact ⟨h.idOf hr, (h.row hr).expected, (h.row hr).content, (h.row hr).snapshot p hp⟩

/-! ### The terms -/

section Terms

variable (hash : List UInt8 → String)

/-- The remote bytes that are gone were on record for their path. -/
def Overwrites (s t : World) : Prop :=
  ∀ path b, s.remote path = some b → t.remote path ≠ some b → s.Recorded path (hash b)

/-- Nobody else writes a remote file between the agent's final check of a save of it and the agent's
answer. -/
def undisturbed : Label Lane Call Job Event → World → Bool
  | .env (.editRemote path _), w => decide (w.saving ≠ some path)
  | _, _ => true

/-- Only the write lane changes remote files, and only what is on record.  Once the agent has
checked a file, it stays as it is until the write lane goes on. -/
def knowing : Spec Lane World where
  inv := Known hash
  rely i s t := Later s t ∧
    (i = .write → ∀ path, s.saving = some path → t.saving = some path ∧ t.remote path =
    s.remote path)
  guar i s t := Later s t ∧ (i ≠ .write → t.saving = s.saving ∧ t.remote = s.remote) ∧
    Overwrites hash s t
  rely_refl i s := ⟨Later.refl s, fun _ path hpath => ⟨hpath, rfl⟩⟩
  rely_trans h h' := by
    refine ⟨h.1.trans h'.1, fun hi path hpath => ?_⟩
    obtain ⟨ht, hremote⟩ := h.2 hi path hpath
    obtain ⟨hu, hremote'⟩ := h'.2 hi path ht
    exact ⟨hu, hremote'.trans hremote⟩
  guar_rely := by
    intro i j s t hne h
    refine ⟨h.1, fun hj path hpath => ?_⟩
    have hi : i ≠ .write := by
      rintro rfl
      exact hne hj.symm
    obtain ⟨hsaving, hremote⟩ := h.2.1 hi
    exact ⟨hsaving.trans hpath, by rw [hremote]⟩

end Terms

variable {hash : List UInt8 → String}

theorem knowing_covers (i : Lane) : Spec.Covers (knowing hash) i Later where
  refl := Later.refl
  trans := Later.trans
  rely h _ := h.1
  guar h _ := h.1

/-- A step that leaves the remote files alone. -/
structure Quiet (s t : World) : Prop where
  later : Later s t
  remote : t.remote = s.remote
  saving : t.saving = s.saving

theorem Quiet.refl (w : World) : Quiet w w := ⟨Later.refl w, rfl, rfl⟩

theorem Quiet.guar (h : Quiet s t) (i : Lane) : (knowing hash).guar i s t := by
  refine ⟨h.later, fun _ => ⟨h.saving, h.remote⟩, fun path b hb hne => ?_⟩
  rw [h.remote] at hne
  exact absurd hb hne

theorem Quiet.trans (h : Quiet s t) (h' : Quiet t u) : Quiet s u :=
  ⟨h.later.trans h'.later, h'.remote.trans h.remote, h'.saving.trans h.saving⟩

/-- Such a step keeps the invariant. -/
abbrev Kept (hash : List UInt8 → String) (s t : World) : Prop := Known hash t ∧ Quiet s t

theorem Kept.trans (h : Kept hash s t) (h' : Known hash t → Kept hash t u) : Kept hash s u :=
  ⟨(h' h.1).1, h.2.trans (h' h.1).2⟩

/-! ### Steps that keep the invariant -/

section Steps

variable {w u : World}

/-- Neither the tables nor the files have changed, nor what is on record. -/
structure Alike (w u : World) : Prop where
  db : u.db = w.db
  store : u.store = w.store
  remote : u.remote = w.remote
  saving : u.saving = w.saving
  recorded : u.recorded = w.recorded

theorem Looked.alike (h : Looked w u) : Alike w u :=
  ⟨h.db, h.store, h.remote, h.saving, h.recorded⟩

theorem RowKnown.of_recorded {row : Row} (h : RowKnown w row)
    (hrec : ∀ x ∈ w.recorded, x ∈ u.recorded) : RowKnown u row :=
  ⟨fun x hx => hrec _ (h.expected x hx), hrec _ h.content, fun x hx => hrec _ (h.conflict x hx),
    h.snapshot⟩

theorem Known.alike (hw : Known hash w) (h : Alike w u) : Kept hash w u := by
  have hrec : ∀ x ∈ w.recorded, x ∈ u.recorded := by
    rw [h.recorded]
    exact fun _ hx => hx
  refine ⟨⟨fun he x hx => hrec _ (hw.entry (h.db ▸ he) x hx), fun hr =>
    (hw.row (h.db ▸ hr)).of_recorded hrec,
    h.store ▸ hw.bytes, h.db ▸ hw.id_lt, h.db ▸ hw.id_path⟩, ⟨hrec, ?_, ?_, ?_⟩, h.remote, h.saving⟩
  · rw [h.db]
  · rw [h.db]
    exact (Later.refl w).row
  · rw [h.store]
    exact Store.Ages.refl _

theorem alike_comparing (w : World) (comparing : Option Path) :
    Alike w { w with comparing := comparing } :=
  ⟨rfl, rfl, rfl, rfl, rfl⟩

/-- One more hash on record. -/
theorem Known.note (hw : Known hash w) (path : Path) (h : String) :
    Kept hash w (w.note path h) := by
  have hrec : ∀ x ∈ w.recorded, x ∈ (w.note path h).recorded :=
    fun _ hx => List.mem_cons_of_mem _ hx
  refine ⟨⟨fun he x hx => hrec _ (hw.entry he x hx), fun hr => (hw.row hr).of_recorded hrec,
    hw.bytes, hw.id_lt, hw.id_path⟩, ⟨hrec, Nat.le_refl _, ?_, Store.Ages.refl _⟩, rfl, rfl⟩
  exact (Later.refl w).row

/-- A statement that gives entries and rows hashes on record only. -/
theorem Known.setDb (hw : Known hash w) (db : Db) (hkeeps : Db.Keeps w.db db)
    (hentry : ∀ {key e}, db.files key = some e → w.RecordedOpt key.path e.remoteHash)
    (hrow : ∀ {r}, r ∈ db.queue → w.RecordedOpt r.path r.expectedHash ∧
      w.RecordedOpt r.path r.conflictActualHash) : Kept hash w (w.setDb db) := by
  obtain ⟨hnext, f, hqueue, hsame⟩ := hkeeps
  have hold : ∀ {r}, r ∈ db.queue → ∃ r₀ ∈ w.db.queue, Row.SameSave r₀ r := by
    intro r hr
    rw [hqueue] at hr
    obtain ⟨r₀, hr₀, rfl⟩ := List.mem_map.1 hr
    exact ⟨r₀, hr₀, hsame r₀⟩
  refine ⟨⟨hentry, ?_, hw.bytes, ?_, ?_⟩, ⟨fun _ hx => hx, Nat.le_of_eq hnext.symm, ?_,
    Store.Ages.refl _⟩, rfl, rfl⟩
  · intro r hr
    obtain ⟨r₀, hr₀, hsave⟩ := hold hr
    have hknown := hw.row hr₀
    refine ⟨(hrow hr).1, ?_, (hrow hr).2, ?_⟩
    · rw [hsave.path, hsave.localHash]
      exact hknown.content
    · rw [hsave.snapshotPath, hsave.localHash]
      exact hknown.snapshot
  · intro r hr
    obtain ⟨r₀, hr₀, hsave⟩ := hold hr
    have hlt := hw.id_lt hr₀
    show r.id < db.nextId
    rw [hsave.id, hnext]
    exact hlt
  · intro r r' hr hr' hid
    obtain ⟨r₀, hr₀, hsave⟩ := hold hr
    obtain ⟨r₀', hr₀', hsave'⟩ := hold hr'
    rw [hsave.path, hsave'.path]
    exact hw.id_path hr₀ hr₀' (by rw [← hsave.id, ← hsave'.id, hid])
  · intro r hr _
    obtain ⟨r₀, hr₀, hsave⟩ := hold hr
    exact ⟨r₀, hr₀, hsave.id.symm, hsave.path.symm⟩

/-- A statement on rows that leaves their hashes alone. -/
theorem Known.row_hashes (hw : Known hash w) {f : Row → Row}
    (hf : ∀ r, (f r).path = r.path ∧ (f r).expectedHash = r.expectedHash ∧
      (f r).conflictActualHash = r.conflictActualHash) {r : Row} (hr : r ∈ w.db.queue.map f) :
    w.RecordedOpt r.path r.expectedHash ∧ w.RecordedOpt r.path r.conflictActualHash := by
  obtain ⟨r₀, hr₀, rfl⟩ := List.mem_map.1 hr
  obtain ⟨hpath, hexpected, hconflict⟩ := hf r₀
  rw [hpath, hexpected, hconflict]
  exact ⟨(hw.row hr₀).expected, (hw.row hr₀).conflict⟩

variable {path : Path}

/-- A conflict that has found a hash on record. -/
theorem Known.conflict (hw : Known hash w) {id : ℕ} {actualHash : Option String}
    (hid : IdOf w id path)
    (hactual : w.RecordedOpt path actualHash) (copy : LocalPath) (truncated : Bool) :
    Kept hash w (w.setDb (w.db.recordSaveConflict id path actualHash copy truncated)) := by
  refine hw.setDb _ (Db.keeps_recordSaveConflict id path actualHash copy truncated) ?_ ?_
  · intro k e he
    rcases Db.updateFile_eq_some he with ⟨rfl, e', _, rfl⟩ | ⟨_, he⟩
    · exact hactual
    · exact hw.entry he
  · intro r hr
    obtain ⟨r₀, hr₀, rfl⟩ := Db.mem_updateRows.1 hr
    have hold := hw.row hr₀
    split
    · rename_i hr₀id
      have hpath : r₀.path = path := hid.path r₀ hr₀ hr₀id
      refine ⟨hold.expected, ?_⟩
      show w.RecordedOpt r₀.path actualHash
      rw [hpath]
      exact hactual
    · exact ⟨hold.expected, hold.conflict⟩

/-- A change to local files that are no snapshots. -/
theorem Known.setStore (hw : Known hash w) (store : Store LocalPath)
    (hages : Store.Ages LocalPath.isSnapshot w.store store)
    (hread : ∀ n, n.isSnapshot = true → store.read n = w.store.read n) :
    Kept hash w (w.setStore store) := by
  refine ⟨⟨hw.entry, fun hr => (hw.row hr).of_recorded fun _ hx => hx, ?_, hw.id_lt, hw.id_path⟩,
    ⟨fun _ hx => hx, Nat.le_refl _, (Later.refl w).row, hages⟩, rfl, rfl⟩
  intro name ms h b hb
  refine @Known.bytes hash w hw name ms h b ?_
  rw [← hread _ rfl]
  exact hb

/-- A save that is queued with a hash on record. -/
theorem Known.insertSave (hw : Known hash w) {expectedHash : Option String}
    (hexpected : w.RecordedOpt path expectedHash) (name : Name) (ms : ℕ) (localHash : String)
    (hu : u = (w.setDb (w.db.insertSave path expectedHash localHash
      (.snapshot name ms localHash))).note path localHash) :
    Kept hash w u ∧ SaveKnown u ⟨w.db.nextId, path, expectedHash, localHash,
      .snapshot name ms localHash⟩ := by
  subst hu
  obtain ⟨hnoted, hquiet⟩ := hw.note path localHash
  have hlocal : (w.note path localHash).Recorded path localHash := List.mem_cons_self
  have hexpected' := hexpected.later hquiet.later
  -- the queue is the old one with one row at its end
  have hmem : ∀ {r}, r ∈ (w.db.insertSave path expectedHash localHash
      (.snapshot name ms localHash)).queue → r ∈ w.db.queue ∨ r = ⟨w.db.nextId, path, expectedHash,
        localHash, some (.snapshot name ms localHash), .pending, none, none, false⟩ := by
    intro r hr
    simpa [Db.insertSave] using hr
  refine ⟨⟨⟨?_, ?_, hw.bytes, ?_, ?_⟩, ⟨hquiet.later.recorded, Nat.le_succ _, ?_,
    Store.Ages.refl _⟩, rfl, rfl⟩, ⟨Nat.lt_succ_self _, ?_⟩, hexpected', hlocal, ⟨name, ms, rfl⟩⟩
  · intro key e he
    rcases Db.setFile_eq_some he with ⟨rfl, rfl⟩ | ⟨_, he⟩
    · cases hget : w.db.get path with
      | none => exact hexpected'
      | some old =>
        have hold : (w.note path localHash).RecordedOpt path old.remoteHash :=
          @Known.entry hash _ hnoted (plain path) old hget
        exact hold
    · exact hnoted.entry he
  · intro r hr
    rcases hmem hr with hr | rfl
    · exact (hnoted.row hr).of_recorded fun _ hx => hx
    · refine ⟨hexpected', hlocal, World.RecordedOpt.none _ _, ?_⟩
      rintro p ⟨⟩
      exact ⟨name, ms, rfl⟩
  · intro r hr
    rcases hmem hr with hr | rfl
    · exact Nat.lt_succ_of_lt (hw.id_lt hr)
    · exact Nat.lt_succ_self _
  · intro r r' hr hr' hid
    rcases hmem hr with hr | rfl <;> rcases hmem hr' with hr' | rfl
    · exact hw.id_path hr hr' hid
    · exact absurd hid (Nat.ne_of_lt (hw.id_lt hr))
    · exact absurd hid.symm (Nat.ne_of_lt (hw.id_lt hr'))
    · rfl
  · intro r hr hid
    rcases hmem hr with hr | rfl
    · exact ⟨r, hr, rfl, rfl⟩
    · exact absurd hid (Nat.lt_irrefl _)
  · intro r hr hid
    rcases hmem hr with hr | rfl
    · exact absurd hid (Nat.ne_of_lt (hw.id_lt hr))
    · rfl

/-- A file with bytes of this hash is put among the snapshots, or a file among the copies. -/
theorem Known.put (hw : Known hash w) (name : LocalPath) (content : List UInt8)
    (h : ∀ n ms x, name = .snapshot n ms x → hash content = x) :
    Kept hash w (w.setStore (w.store.put name content)) := by
  refine ⟨⟨hw.entry, fun hr => (hw.row hr).of_recorded fun _ hx => hx, ?_, hw.id_lt, hw.id_path⟩,
    ⟨fun _ hx => hx, Nat.le_refl _, (Later.refl w).row, Store.ages_put _ _ _⟩, rfl, rfl⟩
  intro n ms x b hb
  by_cases hname : LocalPath.snapshot n ms x = name
  · have hb' : content = b := by
      have hself := Store.read_put_self w.store name content
      rw [← hname] at hself
      exact Option.some.inj (hself.symm.trans (hname ▸ hb))
    rw [← hb']
    exact h n ms x hname.symm
  · refine @Known.bytes hash w hw n ms x b ?_
    rw [← Store.read_put_ne hname content]
    exact hb

theorem ne_mirror {n : LocalPath} (hn : n.isSnapshot = true) : n ≠ .mirror path := by
  rintro rfl
  cases hn

/-- The same for calls that also change what no table and no file says. -/
theorem Known.setStore_alike (hw : Known hash w) (store : Store LocalPath)
    (hages : Store.Ages LocalPath.isSnapshot w.store store)
    (hread : ∀ n, n.isSnapshot = true → store.read n = w.store.read n)
    (hu : Alike (w.setStore store) u) : Kept hash w u :=
  (hw.setStore store hages hread).trans fun hknown => hknown.alike hu

theorem Known.create (hw : Known hash w) (path : Path) :
    Kept hash w (w.setStore (w.store.create (.mirror path))) ∧
    Loose (w.setStore (w.store.create (.mirror path)))
      (w.store.created (.mirror path)) := by
  refine ⟨hw.setStore_alike (w.store.create (.mirror path)) (Store.ages_create _ _)
    (fun n hn => Store.read_create_ne (ne_mirror hn)) ⟨rfl, rfl, rfl, rfl, rfl⟩, ?_⟩
  exact Store.loose_create w.store rfl

theorem Known.write (hw : Known hash w) {inode : ℕ} (hloose : Loose w inode) (offset : ℕ)
    (content : List UInt8) : Kept hash w (w.setStore (w.store.write inode offset content)) :=
  hw.setStore _ ⟨Nat.le_refl _, fun _ h => .inl h⟩
    fun n hn => Store.read_write_ne (Store.Loose.ne hloose n hn) offset content

end Steps

/-! ### Calls -/

/-- What a lane knows: hashes on record, and files that are no snapshots. -/
def knowingWalk (hash : List UInt8 → String) : Walk hash where
  terms := knowing hash
  calm := undisturbed
  later := Later
  base := World.RecordedOpt
  save := SaveKnown
  row w r := RowKnown w r ∧ IdOf w r.id r.path
  loose := Loose
  covers := knowing_covers
  base_later := World.RecordedOpt.later
  save_later := SaveKnown.later
  row_later h hst := ⟨h.1.later hst, h.2.later hst⟩
  loose_later := Loose.later
  base_none := World.RecordedOpt.none
  row_save h hp := ⟨h.2, h.1.conflict, h.1.content, h.1.snapshot _ hp⟩

section Calls

variable {i : Lane} {j : Option Job} {s : World} {e : Call} {Q : Ans e → World → Prop}

theorem fine_run (h : ∀ t, Later s t → Known hash t → ∀ c r u, answer hash i e c t = some (r, u) →
      ((∃ message, r = .error message) ∧ u = t) ∨ Kept hash t u ∧ ∀ a, r = .ok a →
        ∀ v, Later u v → Q a v) :
    (knowingWalk hash).Fine i j (run e) Q s := by
  refine yields_run fun t ht hi _ c r u hu => ?_
  obtain ⟨⟨m, rfl⟩, rfl⟩ | ⟨⟨hinv, hquiet⟩, hr⟩ := h t ht.1 hi c r u hu
  · exact ⟨hi, (Quiet.refl _).guar i, fun a ha => by cases ha⟩
  · exact ⟨hinv, hquiet.guar i, fun a ha v hv _ => hr a ha v hv.1⟩

/-- A call that keeps the invariant, whether or not its failure is ignored. -/
theorem fine_step (h : ∀ t, Later s t → Known hash t → ∀ c r u, answer hash i e c t = some (r, u) →
      Kept hash t u) : (knowingWalk hash).Keeps i j (run e) s ∧
        (knowingWalk hash).Keeps i j (ignore e) s := by
  refine ⟨fine_run fun t ht hi c r u hu => .inr ⟨h t ht hi c r u hu, fun _ _ _ _ => trivial⟩,
    yields_ignore fun t ht hi _ c r u hu => ?_⟩
  obtain ⟨hinv, hquiet⟩ := h t ht.1 hi c r u hu
  exact ⟨hinv, hquiet.guar i, fun _ _ _ => trivial⟩

theorem Known.same (hw : Known hash s) : Kept hash s s := ⟨hw, Quiet.refl s⟩

theorem fine_looks (he : e.looks = true) :
    (knowingWalk hash).Keeps i j (run e) s ∧ (knowingWalk hash).Keeps i j (ignore e) s :=
  fine_step fun _ _ hi _ _ _ hu => hi.alike (answer_looks he hu).alike

/-- What is seen can be kept if it stays true. -/
theorem fine_look (he : e.looks = true)
    (hQ : ∀ t, Later s t → Known hash t → ∀ c a u, answer hash i e c t = some (.ok a, u) →
      ∀ v, Later t v → Q a v) : (knowingWalk hash).Fine i j (run e) Q s := by
  refine fine_run fun t ht hi c r u hu => ?_
  obtain ⟨hinv, hquiet⟩ := hi.alike (answer_looks he hu).alike
  refine .inr ⟨⟨hinv, hquiet⟩, ?_⟩
  rintro a rfl v hv
  exact hQ t ht hi c a u hu v (hquiet.later.trans hv)

theorem fine_statement {f : Db → Db} (he : e.statement = some f)
    (h : ∀ t, Later s t → Known hash t →
      (∀ {key x}, (f t.db).files key = some x → t.RecordedOpt key.path x.remoteHash) ∧
      ∀ {r}, r ∈ (f t.db).queue → t.RecordedOpt r.path r.expectedHash ∧
        t.RecordedOpt r.path r.conflictActualHash) :
    (knowingWalk hash).Keeps i j (run e) s ∧ (knowingWalk hash).Keeps i j (ignore e) s := by
  refine fine_step fun t ht hi c r u hu => ?_
  rcases answer_statement he hu with rfl | rfl
  · exact hi.same
  · exact hi.setDb _ (statement_keeps he t.db) (h t ht hi).1 (h t ht hi).2

theorem Known.rows (hw : Known hash s) {r : Row} (hr : r ∈ s.db.queue) :
    s.RecordedOpt r.path r.expectedHash ∧ s.RecordedOpt r.path r.conflictActualHash :=
  ⟨(hw.row hr).expected, (hw.row hr).conflict⟩

/-- A new staging file is not a snapshot. -/
theorem Known.created (hw : Known hash s) (path : Path) {r : Except String ℕ}
    (hr : r = .ok (s.store.created (.mirror path)))
    (hu : t = s.setStore (s.store.create (.mirror path))) :
    Kept hash s t ∧ ∀ a, r = .ok a → ∀ v, Later t v → Loose v a := by
  subst hu
  obtain ⟨hfair, hloose⟩ := hw.create path
  refine ⟨hfair, fun a ha v hv => ?_⟩
  cases hr.symm.trans ha
  exact hloose.later hv

end Calls

/-! ### The write lane -/

section WriteLane

/-- Only what the agent is doing, or a remote file, has changed. -/
theorem Known.remote (hw : Known hash s) (remote : Path → Option (List UInt8))
    (saving : Option Path) : Known hash { s with remote := remote, saving := saving } ∧
      Later s { s with remote := remote, saving := saving } := by
  have hlater : Later s { s with remote := remote, saving := saving } :=
    ⟨fun _ h => h, Nat.le_refl _, (Later.refl s).row, Store.Ages.refl _⟩
  exact ⟨⟨hw.entry, fun hr => (hw.row hr).later hlater, hw.bytes, hw.id_lt, hw.id_path⟩, hlater⟩

/-- Until the write lane goes on after its final check, the file stays what the save expects.  So
the bytes that are gone after the replacement have the hash that was checked. -/
def knowingSaves (hash : List UInt8 → String) : (knowingWalk hash).Saves where
  checked w entry c := c = .same →
    w.saving = some entry.path ∧ w.remoteHash hash entry.path = entry.expectedHash
  told _ := True
  replaced w entry content := w.saving = some entry.path ∧ w.remote entry.path = some content
  written _ _ _ := True
  bytes entry content := hash content = entry.localHash
  applied entry newHash := newHash = entry.localHash
  bytes_of_hash h := h
  applied_self _ := rfl
  look he := (fine_looks he).1
  abort := (fine_looks rfl).2
  latestUnresolved path := by
    refine fine_look rfl fun t _ hi c a u hu v hv => ?_
    rintro r hr _ ⟨⟩
    have hlast : t.db.latestUnresolved path = some r := (answer_looked hu rfl rfl).trans hr
    obtain ⟨hmem, hmatch⟩ := List.mem_filter.1 (List.mem_of_getLast? hlast)
    have hpath : r.path = path := by
      simp only [Bool.and_eq_true, decide_eq_true_eq] at hmatch
      exact hmatch.1
    rw [← hpath]
    exact (hi.row hmem).content.later hv
  writeDurable h := (fine_step fun t _ hi c r u hu => by
    rcases answer_writeDurable hu with ⟨_, rfl⟩ | rfl
    · exact hi.same
    · exact hi.put _ _ h).1
  insertSave _ hexpected := by
    refine fine_run fun t ht hi c r u hu => ?_
    rcases answer_done hu rfl rfl rfl with herr | ⟨rfl, rfl⟩
    · exact .inl herr
    · obtain ⟨hfair, hsave⟩ := hi.insertSave (hexpected.later ht) _ _ _ rfl
      refine .inr ⟨hfair, fun a ha v hv => ?_⟩
      cases ha
      exact hsave.later hv
  readSnapshot hentry := by
    obtain ⟨name, ms, hsnapshot⟩ := hentry.snapshot
    rw [hsnapshot]
    exact fine_look rfl fun t _ hi c a u hu v _ => hi.bytes (answer_readFile hu)
  beginSave entry := (fine_step fun t _ hi c r u hu => by
    rcases answer_beginSave hu with ⟨_, rfl⟩ | ⟨_, _, rfl⟩ | ⟨_, _, rfl⟩
    · exact hi.same
    · exact hi.same
    · exact hi.alike (alike_comparing t (some entry.path))).1.mono fun _ _ _ _ _ _ h => by cases h
  checkSave entry := by
    refine yields_run fun t _ hi _ c r u hu => ?_
    rcases answer_checkSave hu with ⟨⟨m, rfl⟩, rfl⟩ | ⟨rfl, hremote, rfl⟩ | ⟨rfl, _, rfl⟩
    · exact ⟨hi, (Quiet.refl _).guar _, fun a ha => by cases ha⟩
    · obtain ⟨hknown, hlater⟩ := hi.remote t.remote (some entry.path)
      refine ⟨hknown, ⟨hlater, fun h => absurd rfl h, fun p b hb hne => absurd hb hne⟩, ?_⟩
      intro a _ v hv _ _
      obtain ⟨hsaving, hsame⟩ := hv.2 rfl entry.path rfl
      refine ⟨hsaving, ?_⟩
      rw [← hremote]
      simp only [World.remoteHash]
      rw [hsame]
    · obtain ⟨hinv, hquiet⟩ := hi.alike (alike_comparing t (some entry.path))
      refine ⟨hinv, hquiet.guar _, ?_⟩
      intro a ha v _ _ hsame
      cases ha
      cases hsame
  conflictContent _ := (fine_step fun t _ hi c r u hu => by
    rw [(answer_conflictContent hu).1]
    exact hi.alike (alike_comparing t none)).1
  replaceRemote {j s entry} hentry hchecked content := by
    obtain ⟨hsaving, hchecked⟩ := hchecked rfl
    refine yields_run fun t ht hi _ c r u hu => ?_
    obtain ⟨hsaving', hsame⟩ := ht.2 rfl entry.path hsaving
    rcases answer_done hu rfl rfl rfl with ⟨⟨m, rfl⟩, rfl⟩ | ⟨rfl, rfl⟩
    · obtain ⟨hknown, hlater⟩ := hi.remote t.remote none
      exact ⟨hknown, ⟨hlater, fun h => absurd rfl h, fun p b hb hne => absurd hb hne⟩,
        fun a ha => by cases ha⟩
    · obtain ⟨hknown, hlater⟩ :=
        hi.remote (Function.update t.remote entry.path (some content)) t.saving
      refine ⟨hknown, ⟨hlater, fun h => absurd rfl h, ?_⟩, ?_⟩
      · intro p b hb hne
        by_cases hp : p = entry.path
        · subst hp
          refine (hentry.expected.later ht.1) (hash b) ?_
          rw [← hchecked, World.remoteHash, ← hsame, hb]
          rfl
        · simp only [Function.update_of_ne hp] at hne
          exact absurd hb hne
      · intro a _ v hv _
        obtain ⟨hsaving'', hsame'⟩ := hv.2 rfl entry.path hsaving'
        refine ⟨hsaving'', ?_⟩
        rw [hsame']
        simp
  answerSave {j s entry content declaredHash} hreplaced hbytes hdeclared := by
    refine yields_run fun t ht hi _ c r u hu => ?_
    obtain ⟨_, hsame⟩ := ht.2 rfl entry.path hreplaced.1
    obtain ⟨rfl, hnew⟩ := answer_answerSave hu
    obtain ⟨hknown, hlater⟩ := hi.remote t.remote none
    refine ⟨hknown, ⟨hlater, fun h => absurd rfl h, fun p b hb hne => absurd hb hne⟩, ?_⟩
    intro newHash ha v _ _
    have h := hnew newHash ha
    cases declaredHash with
    | some declared =>
      obtain rfl : declared = newHash := Option.some.inj h
      exact hdeclared declared rfl
    | none =>
      rw [Option.none_or, World.remoteHash, hsame, hreplaced.2] at h
      exact (Option.some.inj h).symm.trans hbytes
  markSaveApplied {j s entry newHash} hentry happlied := by
    obtain rfl : newHash = entry.localHash := happlied
    refine (fine_statement rfl fun t ht hi => ⟨fun {k e} he => ?_, fun hr => ?_⟩).1
    · rcases Db.updateFile_eq_some he with ⟨rfl, e', _, rfl⟩ | ⟨_, he⟩
      · have hremote : t.RecordedOpt entry.path (some entry.localHash) := by
          rintro h ⟨⟩
          exact hentry.content.later ht
        split
        · exact hremote
        · exact hremote
      · exact hi.entry he
    · refine hi.row_hashes (fun r => ?_) hr
      split <;> exact ⟨rfl, rfl, rfl⟩
  markSaveFailed _ := by
    refine (fine_statement rfl fun t _ hi => ⟨fun he => hi.entry he, fun hr => ?_⟩).1
    refine hi.row_hashes (fun r => ?_) hr
    split <;> exact ⟨rfl, rfl, rfl⟩
  recordSaveConflict {j s entry conflict name ms} hentry _ _ := by
    refine (fine_step fun t ht hi c r u hu => ?_).1
    have hid := hentry.id.later ht
    rcases answer_done hu rfl rfl rfl with ⟨_, rfl⟩ | ⟨_, rfl⟩
    · exact hi.same
    · cases conflict.actualHash with
      | none => exact hi.conflict hid (World.RecordedOpt.none _ _) _ _
      | some h =>
        have hkept := hi.note entry.path h
        have hrecorded : (t.note entry.path h).RecordedOpt entry.path (some h) := by
          rintro x ⟨⟩
          exact List.mem_cons_self
        exact hkept.trans fun hnoted => hnoted.conflict (hid.later hkept.2.later) hrecorded _ _

end WriteLane

/-! ### Runs -/

/-- What others do keeps the terms. -/
theorem knowing_happen {m : Event} (hi : Known hash s) (hc : undisturbed (.env m) s = true)
    (h : happen m s = some t) : Known hash t ∧ ∀ i, (knowing hash).rely i s t := by
  cases m with
  | editLocal path content =>
    obtain rfl := Option.some.inj h
    have hput := hi.put (.mirror path) content fun n ms x hx => by cases hx
    have halike : Alike (s.setStore (s.store.put (.mirror path) content))
        (s.setStore (s.store.put (.mirror path) content)) :=
      ⟨rfl, rfl, rfl, rfl, rfl⟩
    obtain ⟨hknown, hquiet⟩ := hput.trans fun hknown => hknown.alike halike
    exact ⟨hknown, fun i => ⟨hquiet.later, fun _ p hp => ⟨hp, rfl⟩⟩⟩
  | removeLocal path =>
    obtain rfl := Option.some.inj h
    have halike : Alike (s.setStore (s.store.remove (.mirror path)))
        (s.setStore (s.store.remove (.mirror path))) :=
      ⟨rfl, rfl, rfl, rfl, rfl⟩
    obtain ⟨hknown, hquiet⟩ := hi.setStore_alike (s.store.remove (.mirror path))
      (Store.ages_remove _ _)
      (fun n hn => Store.read_remove_ne (ne_mirror hn)) halike
    exact ⟨hknown, fun i => ⟨hquiet.later, fun _ p hp => ⟨hp, rfl⟩⟩⟩
  | editRemote path content =>
    obtain rfl := Option.some.inj h
    obtain ⟨hknown, hlater⟩ := hi.remote (Function.update s.remote path content) s.saving
    refine ⟨hknown, fun i => ⟨hlater, fun _ p hp => ⟨hp, ?_⟩⟩⟩
    -- a file whose final check has been made is not the one that is edited
    have hne : s.saving ≠ some path := by simpa [undisturbed] using hc
    have hp' : p ≠ path := by
      rintro rfl
      exact hne hp
    simp [hp']
  | access path unreadable =>
    obtain rfl := Option.some.inj h
    have halike : Alike s { s with unreadable := Function.update s.unreadable path unreadable } :=
      ⟨rfl, rfl, rfl, rfl, rfl⟩
    obtain ⟨hknown, hquiet⟩ := hi.alike halike
    exact ⟨hknown, fun i => ⟨hquiet.later, fun _ p hp => ⟨hp, rfl⟩⟩⟩

theorem knowingWalk_rules : (knowingWalk hash).Rules where
  look he := (fine_looks he).1
  get path := by
    refine fine_look rfl fun t _ hi c a u hu v hv => ?_
    intro e he
    have hget : t.db.files (plain path) = some e := (answer_looked hu rfl rfl).trans he
    exact (hi.entry hget).later hv
  hydratedEntries :=
    fine_look rfl fun t _ hi c a u hu v hv x hx =>
      (hi.entry (answer_hydratedEntries hu x hx).1).later hv
  saveQueueEntry id := by
    refine fine_look rfl fun t _ hi c a u hu v hv => ?_
    intro save hsave
    obtain ⟨r, hr, hsave⟩ := Option.bind_eq_some_iff.1 hsave
    have hfind : t.db.saveQueueEntry id = some r := (answer_looked hu rfl rfl).trans hr
    exact (hi.save (List.mem_of_find?_eq_some hfind) hsave).later hv
  pendingSaveEntries limit := by
    refine fine_look rfl fun t _ hi c a u hu v hv => ?_
    intro save hsave
    obtain ⟨r, hr, hsave⟩ := List.mem_filterMap.1 hsave
    rw [← answer_looked hu rfl rfl] at hr
    exact (hi.save (Db.mem_of_pendingSaveEntries hr) hsave).later hv
  conflictQueueEntry id := by
    refine fine_look rfl fun t _ hi c a u hu v hv => ?_
    intro r hr
    have hfind : t.db.conflictQueueEntry id = some r := (answer_looked hu rfl rfl).trans hr
    have hmem : r ∈ t.db.queue := List.mem_of_find?_eq_some hfind
    exact ⟨(hi.row hmem).later hv, (hi.idOf hmem).later hv⟩
  enqueueSave hcontent hexpected := (knowingSaves hash).enqueueSave hcontent hexpected
  upsertMetadataBatch {i j s entries} hnone := by
    -- a scan brings no hashes
    refine (fine_statement rfl fun t _ hi => ⟨fun {k e} he => ?_, fun {r} hr => ?_⟩).1
    · cases hold : t.db.files k with
      | none =>
        rw [Db.upsertMetadataBatch_of_none hnone he hold]
        exact World.RecordedOpt.none _ _
      | some e' =>
        obtain rfl : e' = e :=
          Option.some.inj ((Db.upsertMetadataBatch_of_some hnone hold).symm.trans he)
        exact hi.entry hold
    · rw [(Db.upsertMetadataBatch_queue entries t.db).1] at hr
      exact hi.rows hr
  recordHydrated key remoteHash localHash := by
    refine (fine_step fun t _ hi c r u hu => ?_).1
    rcases answer_done hu rfl rfl rfl with ⟨_, rfl⟩ | ⟨_, rfl⟩
    · exact hi.same
    · -- the hash is on record first, then the entry gets it
      refine (hi.note key.path remoteHash).trans fun hnoted => hnoted.setDb
        (t.db.recordHydrated key remoteHash localHash) (Db.Keeps.of_queue rfl rfl) ?_ fun hr =>
        hnoted.rows hr
      intro k e he
      rcases Db.setFile_eq_some he with ⟨rfl, rfl⟩ | ⟨_, he⟩
      · rintro h ⟨⟩
        exact List.mem_cons_self
      · exact hnoted.entry he
  recordCleanLocalHash key localHash := by
    refine (fine_statement rfl fun t _ hi => ⟨fun {k e} he => ?_, fun hr => hi.rows hr⟩).1
    rcases Db.updateFile_eq_some he with ⟨rfl, e', he', rfl⟩ | ⟨_, he⟩
    · have hremote := hi.entry he'
      split
      · exact hremote
      · exact hremote
    · exact hi.entry he
  recordValidation validation _ h := by
    refine (fine_statement rfl fun t ht hi => ⟨fun {k e} he => ?_, fun hr => hi.rows hr⟩).1
    rcases Db.updateFile_eq_some he with ⟨rfl, e', he', rfl⟩ | ⟨_, he⟩
    · exact World.RecordedOpt.or (h.later ht) (hi.entry he')
    · exact hi.entry he
  markValidationError path := by
    refine fine_statement rfl fun t _ hi => ⟨fun {k e} he => ?_, fun hr => hi.rows hr⟩
    rcases Db.updateFile_eq_some he with ⟨rfl, e', he', rfl⟩ | ⟨_, he⟩
    · have hremote := hi.entry he'
      exact hremote
    · exact hi.entry he
  acceptLocal {i j s accepted} h := by
    refine (fine_statement rfl fun t ht hi => ⟨fun he => hi.entry he, fun {r} hr => ?_⟩).1
    obtain ⟨r₀, hr₀, hsame, ⟨hexpected, hconflict⟩ | ⟨hr₀id, hexpected, hconflict⟩⟩ :=
      Db.mem_acceptLocal hr
    · rw [hexpected, hconflict, hsame.path]
      exact hi.rows hr₀
    · rw [hexpected, hconflict, hsame.path, (h.2.later ht).path r₀ hr₀ hr₀id]
      exact ⟨h.1.conflict.later ht, World.RecordedOpt.none _ _⟩
  acceptRemote {i j s accepted remoteHash} h hactual := by
    have hrecorded := h.1.conflict remoteHash hactual
    refine (fine_statement rfl fun t ht hi => ⟨fun {k e} he => ?_, fun {r} hr => ?_⟩).1
    · rcases Db.setFile_eq_some he with ⟨rfl, rfl⟩ | ⟨_, he⟩
      · rintro h ⟨⟩
        exact hrecorded.later ht
      · exact hi.entry he
    · refine hi.row_hashes (f := Db.resolvedBy accepted) (fun r => ?_) hr
      unfold Db.resolvedBy
      split <;> exact ⟨rfl, rfl, rfl⟩
  createFile path := fine_run fun t _ hi c r u hu =>
    (answer_done hu rfl rfl rfl).imp_right fun h => hi.created path h.1 h.2
  createNew path := fine_run fun t _ hi c r u hu =>
    (answer_createNew hu).imp_right fun h => hi.created path h.2.1 h.2.2
  writeAll hloose offset content := by
    refine (fine_step fun t ht hi c r u hu => ?_).1
    rcases answer_writeAll hu with ⟨_, rfl | ⟨written, rfl⟩⟩ | ⟨_, rfl⟩
    · exact hi.same
    · exact hi.write (hloose.later ht) offset _
    · exact hi.write (hloose.later ht) offset _
  rename source target := by
    refine (fine_step fun t _ hi c r u hu => ?_).1
    rcases answer_rename hu with ⟨_, rfl⟩ | ⟨_, _, rfl⟩
    · exact hi.same
    · exact hi.setStore_alike (t.store.rename (.mirror source) (.mirror target))
        (Store.ages_rename _ _ rfl)
        (fun n hn => Store.read_rename_ne (ne_mirror hn) (ne_mirror hn)) ⟨rfl, rfl, rfl, rfl, rfl⟩
  removeFile path := by
    refine (fine_step fun t _ hi c r u hu => ?_).2
    rcases answer_done hu rfl rfl rfl with ⟨_, rfl⟩ | ⟨_, rfl⟩
    · exact hi.same
    · exact hi.setStore_alike (t.store.remove (.mirror path)) (Store.ages_remove _ _)
        (fun n hn => Store.read_remove_ne (ne_mirror hn)) ⟨rfl, rfl, rfl, rfl, rfl⟩
  applySaveEntry h := (knowingSaves hash).applySaveEntry h
  enter job := (fine_step fun t _ hi c r u hu => hi.alike (by
    rw [answer_enter hu]
    exact ⟨rfl, rfl, rfl, rfl, rfl⟩)).2
  leave := (fine_step fun t _ hi c r u hu => hi.alike (by
    rw [answer_leave hu]
    exact ⟨rfl, rfl, rfl, rfl, rfl⟩)).2

theorem knowing_met : Spec.Met (knowing hash) (sidecar hash) undisturbed :=
  knowingWalk_rules.met fun _ _ _ hi hc h => knowing_happen hi hc h

/-- **No save replaces remote bytes that are not on record**: in every run of the sidecar on a new
mirror, a call of a lane that changes a remote file finds there bytes whose hash was recorded for
that path before. -/
theorem overwrites_of_runs (hash : List UInt8 → String) (remote : Path → Option (List UInt8))
    {moves : List (Interact.Move Lane Choice Job Event)}
    {st st' : State Lane Call Reply String World Job} {lane : Lane} {c : Choice}
    (hruns : (sidecar hash).runs undisturbed (State.idle (World.fresh remote)) moves = some st)
    (hnext : (sidecar hash).next undisturbed st (.call lane c) = some st') :
    Overwrites hash st.world st'.world := by
  have hinv : (knowing hash).inv
      (State.idle (World.fresh remote) : State Lane Call Reply String World Job).world :=
    Known.fresh hash remote
  exact (Spec.guar_of_runs knowing_met hinv (Spec.AllSafe.idle _) hruns hnext).2.2

open Sample in
/-- A file that was opened, changed and saved: what is replaced is what was hydrated. -/
theorem overwrites_of_runs_save :
    ∃ st st', (sidecar blake3).runs undisturbed start saving = some st ∧
      (sidecar blake3).next undisturbed st (.call .write .ok) = some st' ∧
      st.world.remote file = some (textBytes "a") ∧
      st'.world.remote file = some (textBytes "b") ∧ Overwrites blake3 st.world st'.world := by
  have hrun : (((sidecar blake3).runs undisturbed start saving).bind fun st =>
      ((sidecar blake3).next undisturbed st (.call .write .ok)).map fun st' =>
        (st.world.remote file, st'.world.remote file)) =
      some (some (textBytes "a"), some (textBytes "b")) := by
    decide +kernel
  obtain ⟨st, hruns, hrest⟩ := Option.bind_eq_some_iff.1 hrun
  obtain ⟨st', hnext, heq⟩ := Option.map_eq_some_iff.1 hrest
  obtain ⟨hbefore, hafter⟩ := Prod.mk.inj heq
  exact ⟨st, st', hruns, hnext, hbefore, hafter, overwrites_of_runs blake3 _ hruns hnext⟩

open Sample in
/-- **Others can get in between**: `c`, which somebody has written after the final check, is
replaced although its hash was never recorded. -/
theorem edit_between_check_and_replacement :
    ∃ st st', (sidecar blake3).runs (fun _ _ => true) start
        (saving ++ [.env (.editRemote file (some (textBytes "c")))]) = some st ∧
      (sidecar blake3).next (fun _ _ => true) st (.call .write .ok) = some st' ∧
      ¬ Overwrites blake3 st.world st'.world := by
  have hrun : (((sidecar blake3).runs (fun _ _ => true) start
      (saving ++ [.env (.editRemote file (some (textBytes "c")))])).bind fun st =>
      ((sidecar blake3).next (fun _ _ => true) st (.call .write .ok)).map fun st' =>
        (st.world.remote file, st'.world.remote file,
          decide ((file, blake3 (textBytes "c")) ∈ st.world.recorded))) =
      some (some (textBytes "c"), some (textBytes "b"), false) := by
    decide +kernel
  obtain ⟨st, hruns, hrest⟩ := Option.bind_eq_some_iff.1 hrun
  obtain ⟨st', hnext, heq⟩ := Option.map_eq_some_iff.1 hrest
  obtain ⟨hbefore, hpair⟩ := Prod.mk.inj heq
  obtain ⟨hafter, hnot⟩ := Prod.mk.inj hpair
  refine ⟨st, st', hruns, hnext, fun h => ?_⟩
  have hrecorded : (file, blake3 (textBytes "c")) ∈ st.world.recorded :=
    h file (textBytes "c") hbefore (by rw [hafter]; decide)
  exact absurd hrecorded (of_decide_eq_false hnot)

end RemoteMirror.Mirror
