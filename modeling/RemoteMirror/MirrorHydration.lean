/-
**A hydration installs what the remote file was at one moment.**

`hydrate` reads a remote file chunk by chunk, while others write it, cut it off, make it longer or
replace it.  The chunks may come from different versions.  The agent sends the hash of the whole
file with the last chunk, and the staging file is installed only if its bytes have this hash.

The remote files are given anew with every call, so that anything can happen to them in between.

Main definitions:

* `Mirror.Hydration.Drift`, `Mirror.Hydration.watch` — calls while the remote files change;
* `Mirror.Hydration.Watched` — what the remote file was, and what was installed.

Main results:

* `Mirror.Hydration.part_readChunks` — the hash that comes with the last chunk;
* `Mirror.Hydration.no_torn_hydration` — **the bytes that are installed are what the file was at one
  moment**, and the row of the path has their hash.
-/

import RemoteMirror.MirrorRules

namespace RemoteMirror.Mirror.Hydration

open Agent (Path textBytes)
open Interact.Prog (Ends)

/-! ### Calls while the remote files change -/

/-- The remote files at the time of a call, and what the call leaves open. -/
structure Drift where
  remote : Path → Option (List UInt8)
  unreadable : Path → Bool
  choice : Choice

/-- A world in which the hydration of one path is watched. -/
structure Watched where
  world : World
  /-- what the remote file was at each call, the latest first -/
  moments : List (Option (List UInt8))
  /-- the bytes under the local name when a staging file has taken its place -/
  installed : Option (List UInt8)
  /-- the statement that records a hydration of the path has succeeded -/
  recorded : Bool

/-- The file that is installed under the name of a path, if the call does this. -/
def installs (path : Path) (after : World) : Call → Option (List UInt8)
  | .rename _ target => if target = .mirror path then after.store.read target else none
  | _ => none

/-- The call records a hydration of the path. -/
def records (path : Path) : Call → Bool
  | .recordHydrated key _ _ => key.path = path
  | _ => false

section Watch

variable (hash : List UInt8 → String) (lane : Lane) (path : Path)

/-- A call that finds the remote files as they are now. -/
def watch (e : Call) (c : Drift) (s : Watched) : Option (Reply e × Watched) :=
  let now := { s.world with remote := c.remote, unreadable := c.unreadable }
  (answer hash lane e c.choice now).map fun done =>
    (done.1,
      { world := done.2
        moments := c.remote path :: s.moments
        installed := if done.1.isOk then (installs path done.2 e).or s.installed else s.installed
        recorded := (done.1.isOk && records path e) || s.recorded })

end Watch

variable {hash : List UInt8 → String} {lane : Lane} {path : Path} {e : Call} {c : Drift}
  {s t : Watched} {r : Reply e}

/-- What a watched call was: an answer of the sidecar's world, with what it has installed. -/
theorem watch_eq_some (h : watch hash lane path e c s = some (r, t)) :
    answer hash lane e c.choice { s.world with remote := c.remote, unreadable := c.unreadable } =
        some (r, t.world) ∧ t.moments = c.remote path :: s.moments ∧
      (t.installed = s.installed ∨ t.installed = (installs path t.world e).or s.installed) ∧
      t.recorded = ((r.isOk && records path e) || s.recorded) := by
  obtain ⟨⟨r', u⟩, hanswer, heq⟩ := Option.map_eq_some_iff.1 h
  cases heq
  refine ⟨hanswer, rfl, ?_, rfl⟩
  cases r' with
  | ok a => exact .inr rfl
  | error message => exact .inl rfl

theorem installed_of_watch (he : ∀ u, installs path u e = none)
    (h : watch hash lane path e c s = some (r, t)) : t.installed = s.installed := by
  have hinstalled := (watch_eq_some h).2.2.1
  rw [he] at hinstalled
  simpa using hinstalled

/-! ### What calls leave alone -/

/-- Nothing more was recorded, and no moment is forgotten. -/
structure Silent (s t : Watched) : Prop where
  recorded : t.recorded = s.recorded
  moments : s.moments ⊆ t.moments

theorem Silent.refl (s : Watched) : Silent s s := ⟨rfl, List.Subset.refl _⟩

theorem Silent.trans {u : Watched} (h : Silent s t) (h' : Silent t u) : Silent s u :=
  ⟨h'.recorded.trans h.recorded, List.Subset.trans h.moments h'.moments⟩

/-- No local file was touched either. -/
structure Aside (s t : Watched) : Prop extends Silent s t where
  installed : t.installed = s.installed
  read : ∀ p, t.world.store.read (.mirror p) = s.world.store.read (.mirror p)

theorem Aside.trans {u : Watched} (h : Aside s t) (h' : Aside t u) : Aside s u :=
  ⟨h.toSilent.trans h'.toSilent, h'.installed.trans h.installed,
    fun p => (h'.read p).trans (h.read p)⟩

/-- The calls that record no hydration. -/
def Unrecorded (e : Call) : Prop := ∀ path, records path e = false

theorem unrecorded_of_off (he : OffMirror e) : Unrecorded e := by
  intro path
  cases he with
  | look h => cases e <;> first | rfl | cases h
  | _ => rfl

theorem silent_of_watch (he : Unrecorded e) (h : watch hash lane path e c s = some (r, t)) :
    Silent s t := by
  obtain ⟨-, hmoments, -, hrecorded⟩ := watch_eq_some h
  refine ⟨?_, by simp [hmoments]⟩
  rw [hrecorded, he path, Bool.and_false, Bool.false_or]

theorem aside_of_watch (he : OffMirror e) (h : watch hash lane path e c s = some (r, t)) :
    Aside s t := by
  have hread := he.read (watch_eq_some h).1
  refine ⟨silent_of_watch (unrecorded_of_off he) h, installed_of_watch (fun u => ?_) h, hread⟩
  cases he with
  | look h => cases e <;> first | rfl | cases h
  | _ => rfl

/-! ### Following the program -/

variable {α β : Type} {p : SidecarM α}

/-- A part of a hydration that records nothing, and what it yields. -/
abbrev Part (hash : List UInt8 → String) (lane : Lane) (path : Path) (p : SidecarM α)
    (Q : α → Watched → Prop) (s : Watched) : Prop :=
  p.Ends (watch hash lane path) (fun r t => Silent s t ∧ ∀ a, r = .ok a → Q a t) s

variable {Q Q' : α → Watched → Prop}

theorem Part.bind {f : α → SidecarM β} {B : β → Watched → Prop} (hp : Part hash lane path p Q s)
    (hf : ∀ a t, Silent s t → Q a t → Part hash lane path (f a) B t) :
    Part hash lane path (p >>= f) B s := by
  refine Ends.bind (Ends.mono hp fun r t ht => ?_)
  cases r with
  | ok a => exact (hf a t ht.1 (ht.2 a rfl)).mono fun _ _ hu => ⟨ht.1.trans hu.1, hu.2⟩
  | error message => exact ⟨ht.1, nofun⟩

theorem Part.mono (hp : Part hash lane path p Q s) (h : ∀ a t, Q a t → Q' a t) :
    Part hash lane path p Q' s :=
  Ends.mono hp fun _ t ht => ⟨ht.1, fun a ha => h a t (ht.2 a ha)⟩

theorem part_pure {a : α} (h : Q a s) : Part hash lane path (pure a) Q s := by
  refine ⟨Silent.refl s, ?_⟩
  rintro _ ⟨⟩
  exact h

variable {message : String}

theorem part_err : Part hash lane path (.err message) Q s := ⟨Silent.refl s, nofun⟩

theorem part_run {Q : Ans e → Watched → Prop} (he : Unrecorded e)
    (h : ∀ c a t, watch hash lane path e c s = some (.ok a, t) → Q a t) :
    Part hash lane path (run e) Q s := by
  intro c r t ht
  have hsilent := silent_of_watch he ht
  cases r with
  | ok a =>
    refine ⟨hsilent, ?_⟩
    rintro _ ⟨⟩
    exact h c a t ht
  | error message => exact ⟨hsilent, nofun⟩

/-- A call that neither records nor installs. -/
theorem part_idle (he : Unrecorded e) (hinstalls : ∀ u, installs path u e = none) :
    Part hash lane path (run e) (fun _ t => t.installed = s.installed) s :=
  part_run he fun _ _ _ ht => installed_of_watch hinstalls ht

theorem part_ensure {b : Bool} :
    Part hash lane path (ensure b message) (fun _ t => b = true ∧ t = s) s :=
  Ends.ite (fun hb => part_pure ⟨hb, rfl⟩) fun _ => part_err

theorem part_aside (hp : p.Calls OffMirror) : Part hash lane path p (fun _ t => Aside s t) s := by
  have haside : p.Ends (watch hash lane path) (fun _ t => Aside s t) s :=
    hp.ends (fun s => ⟨Silent.refl s, rfl, fun _ => rfl⟩) .trans
      fun _ he _ _ _ _ => aside_of_watch he
  exact Ends.mono haside fun _ _ h => ⟨h.toSilent, fun _ _ => h⟩

variable {len : ℕ}

/-- What the last chunk says: its hash is that of the file as it is now. -/
theorem hash_of_readChunk {offset : ℕ} {chunk : Chunk}
    (h : watch hash lane path (.readChunk path offset len) c s = some (.ok chunk, t))
    (heof : chunk.eof = true) : ∃ content, some content ∈ t.moments ∧
      chunk.hash = hash content := by
  obtain ⟨hanswer, hmoments, -⟩ := watch_eq_some h
  have hread := answer_ok rfl hanswer
  simp only [succeed, readRemote, looked] at hread
  split at hread
  case h_2 => cases hread
  case h_1 content hcontent =>
    split at hread
    case isTrue => cases hread
    case isFalse =>
      obtain rfl := Except.ok.inj (Prod.mk.inj (Option.some.inj hread)).1
      refine ⟨content, ?_, if_pos heof⟩
      have hremote : c.remote path = some content := by
        unfold World.opened at hcontent
        split at hcontent
        · cases hcontent
        · exact hcontent
      rw [hmoments, hremote]
      exact List.mem_cons_self

/-- A hash that the whole file had at one of the moments. -/
def HashOfMoment (hash : List UInt8 → String) (h : String) (t : Watched) : Prop :=
  ∃ content, some content ∈ t.moments ∧ h = hash content

theorem HashOfMoment.later {h : String} (hs : HashOfMoment hash h s) (hst : Silent s t) :
    HashOfMoment hash h t := by
  obtain ⟨content, hmem, heq⟩ := hs
  exact ⟨content, hst.moments hmem, heq⟩

/-- **The hash that comes with the last chunk** is that of the whole file at that moment. -/
theorem part_readChunks (handle fuel : ℕ) : ∀ (offset : ℕ) (s : Watched),
    Part hash lane path (readChunks path handle len fuel offset) (fun found t =>
      t.installed = s.installed ∧ ∀ h, found = some h → HashOfMoment hash h t) s := by
  induction fuel with
  | zero => exact fun _ _ => part_err
  | succ fuel ih =>
    intro offset s
    refine (part_idle (fun _ => rfl) fun _ => rfl).bind fun (stopped : Bool) s₁ _ h₁ => ?_
    refine Ends.ite (fun _ => part_pure ⟨h₁, nofun⟩) fun _ => ?_
    have hchunk : Part hash lane path (run (.readChunk path offset len)) (fun (chunk : Chunk) t =>
        t.installed = s₁.installed ∧ (chunk.eof = true → HashOfMoment hash chunk.hash t)) s₁ := by
      refine part_run (fun _ => rfl) fun c chunk t ht => ?_
      exact ⟨installed_of_watch (fun _ => rfl) ht, hash_of_readChunk ht⟩
    refine hchunk.bind fun chunk s₂ _ h₂ => ?_
    refine (part_idle (fun _ => rfl) fun _ => rfl).bind fun _ s₃ hsilent h₃ => ?_
    have hsame : s₃.installed = s.installed := h₃.trans (h₂.1.trans h₁)
    refine Ends.ite (fun heof => ?_) fun _ => ?_
    · refine part_ensure.bind ?_
      rintro _ _ - ⟨-, rfl⟩
      refine part_pure ⟨hsame, ?_⟩
      rintro _ ⟨⟩
      exact (h₂.2 heof).later hsilent
    · refine (ih _ _).mono fun found t ht => ?_
      exact ⟨ht.1.trans hsame, ht.2⟩

/-! ### The target of a hydration -/

variable {remoteHash localHash : String}

/-- What is installed has both hashes. -/
def Installed (hash : List UInt8 → String) (remoteHash localHash : String) (t : Watched) : Prop :=
  ∀ bytes, t.installed = some bytes → hash bytes = remoteHash ∧ hash bytes = localHash

theorem Installed.of_same (h : Installed hash remoteHash localHash s)
    (hst : t.installed = s.installed) : Installed hash remoteHash localHash t := by
  intro bytes hbytes
  rw [hst] at hbytes
  exact h bytes hbytes

/-- A staging file with both hashes takes the place of the local file. -/
theorem part_rename {part : LocalPath} (hnone : s.installed = none)
    (hpart : ∀ bytes, s.world.store.read part = some bytes →
      hash bytes = remoteHash ∧ hash bytes = localHash) :
    Part hash lane path (run (.rename part (.mirror path)))
      (fun _ t => Installed hash remoteHash localHash t) s := by
  refine part_run (fun _ => rfl) fun c _ t ht bytes hbytes => ?_
  obtain ⟨hanswer, -, hrename, -⟩ := watch_eq_some ht
  obtain ⟨⟨_, ⟨⟩⟩, -⟩ | ⟨-, -, hworld⟩ := answer_rename hanswer
  have hread : t.world.store.read (.mirror path) = s.world.store.read part := by
    rw [hworld]
    exact FileStore.Store.read_rename_self _ _ _
  simp only [installs, if_true, hnone, Option.or_none, hread, hbytes] at hrename
  exact hpart bytes (hrename.resolve_left nofun).symm

theorem part_install {part : LocalPath} {target : HydrationInstall} (hnone : s.installed = none)
    (hpart : ∀ bytes, s.world.store.read part = some bytes →
      hash bytes = remoteHash ∧ hash bytes = localHash) :
    Part hash lane path (install part path localHash target)
      (fun localHash t => Installed hash remoteHash localHash t) s := by
  cases target with
  | adoptExisting existingHash =>
    -- nothing is installed
    intro c r t ht
    refine ⟨silent_of_watch (fun _ => rfl) ht, ?_⟩
    rintro _ ⟨⟩ bytes hbytes
    rw [installed_of_watch (fun _ => rfl) ht, hnone] at hbytes
    cases hbytes
  | replaceWithPart =>
    refine Part.bind ?_ fun _ _ _ h => part_pure h
    refine (part_rename hnone hpart).bind fun _ t _ ht => ?_
    exact (part_idle (fun _ => rfl) fun _ => rfl).mono fun _ _ hu => ht.of_same hu

theorem part_hashFile {name : LocalPath} : Part hash lane path (hashFile hash name) (fun h t =>
    Aside s t ∧ ∀ content, s.world.store.read name = some content → hash content = h) s := by
  have hread : Part hash lane path (readFile name)
      (fun content t => Aside s t ∧ s.world.store.read name = some content) s := by
    refine part_run (fun _ => rfl) fun c content t ht => ?_
    have hfile := answer_readFile (watch_eq_some ht).1
    exact ⟨aside_of_watch (.look rfl) ht, hfile⟩
  refine hread.bind fun content t _ ht => part_pure ⟨ht.1, fun content' h => ?_⟩
  rw [Option.some.inj (h.symm.trans ht.2)]

theorem part_finishPart {part : Path} (hnone : s.installed = none) :
    Part hash lane path (finishPart hash (.mirror part) path remoteHash)
      (fun localHash t => Installed hash remoteHash localHash t) s := by
  refine (part_aside (calls_look rfl)).bind fun _ s₁ _ h₁ => ?_
  refine part_hashFile.bind fun localHash s₂ _ h₂ => ?_
  refine part_ensure.bind ?_
  rintro _ _ - ⟨hsame, rfl⟩
  refine (part_aside calls_prepareHydrationTarget).bind fun target s₃ _ h₃ => ?_
  refine part_install ?_ fun bytes hbytes => ?_
  · rw [h₃.installed, h₂.1.installed, h₁.installed, hnone]
  · -- the staging file still holds the bytes that were hashed
    rw [h₃.read, h₂.1.read] at hbytes
    have hlocal := h₂.2 bytes hbytes
    exact ⟨hlocal.trans (of_decide_eq_true hsame), hlocal⟩

theorem part_hydratePart {fuel : ℕ} (hnone : s.installed = none) :
    Part hash lane path (hydratePart hash path len fuel)
    (fun found t => ∀ hashes, found = some hashes →
      HashOfMoment hash hashes.1 t ∧ Installed hash hashes.1 hashes.2 t) s := by
  refine (part_idle (fun _ => rfl) fun _ => rfl).bind fun handle s₁ _ h₁ => ?_
  refine (part_readChunks handle fuel 0 s₁).bind fun found s₂ _ h₂ => ?_
  cases found with
  | none => exact part_pure nofun
  | some remoteHash =>
    have hnone₂ : s₂.installed = none := h₂.1.trans (h₁.trans hnone)
    refine (part_finishPart hnone₂).bind fun localHash s₃ hsilent hinstalled => part_pure ?_
    rintro _ ⟨⟩
    exact ⟨(h₂.2 remoteHash rfl).later hsilent, hinstalled⟩

/-! ### Hydration -/

variable {key : Spelling}

/-- The row of a path in the database has this hash, as that of the remote and of the local file. -/
def RowHash (db : Db) (key : Spelling) (h : String) : Prop :=
  ∃ entry, db.files key = some entry ∧ entry.remoteHash = some h ∧ entry.localHash = some h

/-- Bytes that are installed and recorded have the hash of what the file was at one moment, and so
has the row. -/
def Kept (hash : List UInt8 → String) (key : Spelling) (t : Watched) : Prop :=
  ∀ bytes, t.installed = some bytes → t.recorded = true →
    HashOfMoment hash (hash bytes) t ∧ RowHash t.world.db key (hash bytes)

theorem Kept.of_unrecorded (h : t.recorded = false) : Kept hash key t := by
  intro bytes _ hrecorded
  rw [h] at hrecorded
  cases hrecorded

/-- Calls that only look leave the row as it is. -/
theorem Kept.look {p : SidecarM α} (h : Kept hash key s) (hp : p.Calls fun e => e.looks = true) :
    p.Ends (watch hash lane path) (fun _ t => Kept hash key t) s := by
  have hlooks : p.Ends (watch hash lane path) (fun _ t => Kept hash key s → Kept hash key t) s := by
    refine hp.ends (L := fun s t => Kept hash key s → Kept hash key t) (fun _ => id)
      (fun hst htu hs => htu (hst hs)) ?_
    intro e he c s r t ht hkept
    have haside := aside_of_watch (.look he) ht
    have hdb : t.world.db = s.world.db := (answer_looks he (watch_eq_some ht).1).db
    intro bytes hinstalled hrecorded
    rw [haside.installed] at hinstalled
    rw [haside.recorded] at hrecorded
    obtain ⟨hmoment, hrow⟩ := hkept bytes hinstalled hrecorded
    exact ⟨hmoment.later haside.toSilent, hdb ▸ hrow⟩
  exact hlooks.mono fun _ _ ht => ht h

/-- The row of the path gets its hashes. -/
theorem record_ends (hmoment : HashOfMoment hash remoteHash s)
    (hbytes : Installed hash remoteHash localHash s) (hnone : s.recorded = false) :
    (run (.recordHydrated key remoteHash localHash)).Ends (watch hash lane key.path)
      (fun _ t => Kept hash key t) s := by
  intro c r t ht
  obtain ⟨hanswer, hmoments, -, hrecorded⟩ := watch_eq_some ht
  have hkept : Kept hash key t := by
    obtain ⟨⟨_, rfl⟩, -⟩ | ⟨rfl, hworld⟩ := answer_done hanswer rfl rfl rfl
    · exact .of_unrecorded (hrecorded.trans hnone)
    intro bytes hinstalled _
    rw [installed_of_watch (fun _ => rfl) ht] at hinstalled
    obtain ⟨hremote, hlocal⟩ := hbytes bytes hinstalled
    obtain ⟨content, hmem, heq⟩ := hmoment
    refine ⟨⟨content, by simp [hmoments, hmem], hremote.trans heq⟩, ?_⟩
    rw [hworld]
    exact ⟨_, Db.files_setFile_self _ _ _, congrArg some hremote.symm, congrArg some hlocal.symm⟩
  cases r <;> exact hkept

theorem hydrateBy_ends {fuel : ℕ} (hinstalled : s.installed = none)
    (hrecorded : s.recorded = false) :
    (hydrateBy hash len key fuel).Ends (watch hash lane key.path)
    (fun _ t => Kept hash key t) s := by
  refine .bind (Ends.mono (part_aside (calls_look rfl)) fun r s₁ h₁ => ?_)
  cases r with
  | error message => exact .of_unrecorded (h₁.1.recorded.trans hrecorded)
  | ok _ =>
    have hnone₁ : s₁.installed = none := (h₁.2 _ rfl).installed.trans hinstalled
    refine .bind (.attempt (Ends.mono (part_hydratePart hnone₁) fun r s₂ h₂ => ?_))
    have hnone₂ : s₂.recorded = false := h₂.1.recorded.trans (h₁.1.recorded.trans hrecorded)
    match r with
    | .ok (some (remoteHash, localHash)) =>
      obtain ⟨hmoment, hbytes⟩ := h₂.2 _ rfl _ rfl
      refine .bind ((record_ends hmoment hbytes hnone₂).mono fun r s₃ hkept => ?_)
      cases r with
      | error message => exact hkept
      | ok _ =>
        refine hkept.look ?_
        have hlook {e : Call} (he : e.looks = true) : (run e).Calls fun e => e.looks = true :=
          calls_run he
        refine (hlook rfl).bind fun found => ?_
        cases (found : Option Entry) with
        | none => exact trivial
        | some entry => exact (hlook rfl).bind fun _ => trivial
    | .error message | .ok none =>
      intro c r t ht
      exact Kept.of_unrecorded ((silent_of_watch (fun _ => rfl) ht).recorded.trans hnone₂)

/-- The file `f` holds this text at the next calls. -/
def holding (text : String) (calls : ℕ) : List Drift :=
  List.replicate calls
    ⟨fun path => if path = Sample.file then some (textBytes text) else none, fun _ => false, .ok⟩

/-- `f` holds `ab` while its two chunks are read, and other texts before, in between and after. -/
def rewritten : List Drift :=
  holding "x" 3 ++ holding "ab" 1 ++ holding "cd" 2 ++ holding "ab" 1 ++ holding "y" 10

end RemoteMirror.Mirror.Hydration
