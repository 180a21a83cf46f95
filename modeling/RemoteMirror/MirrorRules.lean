/-
**What the calls of a sidecar can do.**

One inversion lemma for each call: what it answers, and the world it leaves behind.  Calls that only
look (`Call.looks`) are treated together.  At the end stand the rules by which a program of the
sidecar is followed call by call.

Main results:

* `Mirror.answer_looks` — calls that look change nothing;
* `Mirror.answer_done`, `Mirror.answer_rename`, … — the others;
* `Mirror.yields_run`, `Mirror.yields_ignore` — the rules for calls.
-/

import RemoteMirror.MirrorOps

namespace RemoteMirror.Mirror

open Agent (Path textBytes)
open Interact (Label Move Spec State)

variable {hash : List UInt8 → String} {lane : Lane} {c : Choice} {w u : World}

/-! ### Starting and ending -/

theorem answer_enter {job : Job} {r : Reply (.enter job)}
    (h : answer hash lane (.enter job) c w = some (r, u)) :
    u = { w with active := Function.update w.active lane (some (job.scope w.db)) } := by
  cases h
  rfl

theorem answer_leave {r : Reply .leave} (h : answer hash lane .leave c w = some (r, u)) :
    u = { w with active := Function.update w.active lane none } := by
  cases h
  rfl

/-! ### Calls that look -/

variable {e : Call}

/-- A call fails or succeeds. -/
theorem answer_cases {r : Reply e} (he : e.bookkeeping = false)
    (h : answer hash lane e c w = some (r, u)) :
    (∃ message, r = .error message ∧ u = failed e c w) ∨ succeed hash lane e c w = some (r, u) := by
  unfold answer at h
  rw [he] at h
  cases c with
  | fail message =>
    obtain ⟨rfl, rfl⟩ : .error message = r ∧ failed e (.fail message) w = u := by simpa using h
    exact .inl ⟨message, rfl, rfl⟩
  | short written message =>
    obtain ⟨rfl, rfl⟩ : .error message = r ∧ failed e (.short written message) w = u := by
      simpa using h
    exact .inl ⟨message, rfl, rfl⟩
  | _ => exact .inr h

/-- The calls that only look. -/
def Call.looks : Call → Bool
  | .mayFail | .nowMs | .nanos | .preempted | .get _ | .hydratedEntries | .latestUnresolved _
  | .pendingSaveEntries _ | .saveQueueEntry _ | .conflictQueueEntry _ | .hasNewerUnresolved _ _
  | .fileExists _ | .readFile _ | .indexBytes _ _ _ | .indexFile _ _
  | .scan | .readChunk _ _ _ | .readBatch _ | .validateFile _ | .uploadChunk =>
    true
  | _ => false

/-- Nothing has changed apart from the clock. -/
structure Looked (w u : World) : Prop where
  db : u.db = w.db
  store : u.store = w.store
  remote : u.remote = w.remote
  unreadable : u.unreadable = w.unreadable
  saving : u.saving = w.saving
  comparing : u.comparing = w.comparing
  active : u.active = w.active
  recorded : u.recorded = w.recorded

theorem Looked.refl (w : World) : Looked w w := ⟨rfl, rfl, rfl, rfl, rfl, rfl, rfl, rfl⟩

/-- A failed look changes nothing. -/
theorem failed_of_looks (he : e.looks = true) : failed e c w = w := by
  cases e <;> first | rfl | cases he

/-- An answer that leaves the world as it is. -/
theorem looked_of_same {α : Type} {r r' : α} (h : some (r', w) = some (r, u)) : Looked w u := by
  obtain ⟨_, rfl⟩ := Prod.mk.inj (Option.some.inj h)
  exact Looked.refl w

theorem looked_of_succeed {r : Reply e} (he : e.looks = true)
    (h : succeed hash lane e c w = some (r, u)) : Looked w u := by
  cases e <;> try (cases he; done)
  case readChunk path offset len =>
    simp only [succeed, readRemote, looked] at h
    split at h
    case h_2 => exact looked_of_same h
    case h_1 => split at h <;> exact looked_of_same h
  case readBatch path =>
    simp only [succeed, readRemoteFile, looked] at h
    split at h <;> exact looked_of_same h
  case validateFile path =>
    simp only [succeed, validateRemote, looked] at h
    split at h
    case isTrue => exact looked_of_same h
    case isFalse => split at h <;> exact looked_of_same h
  case nanos =>
    obtain ⟨_, rfl⟩ := by simpa [succeed] using h
    exact ⟨rfl, rfl, rfl, rfl, rfl, rfl, rfl, rfl⟩
  case nowMs =>
    cases c <;> simp only [succeed, chosen, reduceCtorEq] at h
    exact looked_of_same h
  case hydratedEntries | scan =>
    simp only [succeed, looked] at h
    split at h
    case h_1 => exact looked_of_same h
    case h_2 => cases h
  case readFile name =>
    simp only [succeed, looked] at h
    split at h <;> exact looked_of_same h
  all_goals exact looked_of_same h

/-- A look changes at most the clock. -/
theorem answer_looks {r : Reply e} (he : e.looks = true)
    (h : answer hash lane e c w = some (r, u)) : Looked w u := by
  have hb : e.bookkeeping = false := by
    cases e <;> first | rfl | cases he
  obtain ⟨_, rfl, rfl⟩ | h := answer_cases hb h
  · rw [failed_of_looks he]
    exact Looked.refl w
  · exact looked_of_succeed he h

/-- An answer that is no error is that of a call that succeeds. -/
theorem answer_ok {a : Ans e} (he : e.bookkeeping = false)
    (h : answer hash lane e c w = some (.ok a, u)) : succeed hash lane e c w = some (.ok a, u) := by
  obtain ⟨_, hr, _⟩ | h := answer_cases he h
  · cases hr
  · exact h

/-- A call that looks and has one answer. -/
theorem answer_looked {x a : Ans e} (h : answer hash lane e c w = some (.ok a, u))
    (he : e.bookkeeping = false) (hok : succeed hash lane e c w = looked w x) : x = a := by
  cases hok.symm.trans (answer_ok he h)
  rfl

variable {name : LocalPath}

/-- What is read is in the file. -/
theorem answer_readFile {a : List UInt8} (h : answer hash lane (.readFile name) c w =
    some (.ok a, u)) : w.store.read name = some a := by
  have h' := answer_ok rfl h
  simp only [succeed, looked] at h'
  split at h'
  case h_1 b hb =>
    cases h'
    exact hb
  case h_2 => cases h'

/-- The entries that are returned are in the database. -/
theorem answer_hydratedEntries {a : List (Spelling × Entry)}
    (h : answer hash lane .hydratedEntries c w = some (.ok a, u)) :
    ∀ x ∈ a, w.db.files x.1 = some x.2 ∧ x.2.state = .hydrated := by
  have h' := answer_ok rfl h
  simp only [succeed, looked] at h'
  split at h'
  case h_2 => cases h'
  case h_1 keys =>
    rintro ⟨key, entry⟩ hx
    cases h'
    obtain ⟨key', _, hkey⟩ := List.mem_filterMap.1 hx
    split at hkey
    case h_2 => cases hkey
    case h_1 entry' hentry =>
      obtain ⟨hstate, hpair⟩ : entry'.state = .hydrated ∧ (key', entry') = (key, entry) := by
        simpa using hkey
      obtain ⟨rfl, rfl⟩ := Prod.mk.inj hpair
      exact ⟨hentry, hstate⟩

/-- A scan brings no hashes. -/
theorem answer_scan {a : List FileMeta} (h : answer hash lane .scan c w = some (.ok a, u)) :
    ∀ x ∈ a, x.hash = none := by
  have h' := answer_ok rfl h
  simp only [succeed, looked] at h'
  split at h'
  case h_2 => cases h'
  case h_1 paths =>
    intro x hx
    cases h'
    obtain ⟨path, _, rfl⟩ := List.mem_map.1 hx
    rfl

/-! ### Statements of the database -/

/-- The calls that are one statement or one transaction, with the database after it. -/
def Call.statement : Call → Option (Db → Db)
  | .upsertMetadataBatch entries => some fun db => db.upsertMetadataBatch entries
  | .recordCleanLocalHash key localHash => some fun db => db.recordCleanLocalHash key localHash
  | .recordValidation path validation remoteHash =>
    some fun db => db.recordValidation path validation remoteHash
  | .markValidationError path => some fun db => db.markValidationError path
  | .markSaveApplied queueId path newHash => some fun db => db.markSaveApplied queueId path newHash
  | .markSaveFailed queueId => some fun db => db.markSaveFailed queueId
  | .acceptLocal accepted => some fun db => db.acceptLocal accepted
  | .acceptRemote accepted remoteHash => some fun db => db.acceptRemote accepted remoteHash
  | _ => none

/-- A statement is carried out or not. -/
theorem answer_statement {f : Db → Db} {r : Reply e} (he : e.statement = some f)
    (h : answer hash lane e c w = some (r, u)) : u = w ∨ u = w.setDb (f w.db) := by
  cases e <;> try (cases he; done)
  all_goals
    obtain ⟨_, _, rfl⟩ | h := answer_cases rfl h
    · exact .inl rfl
    · obtain rfl : _ = f := Option.some.inj he
      cases h
      exact .inr rfl

/-- No statement changes what a row saves. -/
theorem statement_keeps {f : Db → Db} (he : e.statement = some f) (db : Db) :
    Db.Keeps db (f db) := by
  cases e <;> try (cases he; done)
  all_goals obtain rfl := Option.some.inj he
  case upsertMetadataBatch entries =>
    exact Db.Keeps.of_queue (Db.upsertMetadataBatch_queue entries db).1
      (Db.upsertMetadataBatch_queue entries db).2
  case markSaveApplied => exact Db.keeps_markSaveApplied _ _ _
  case markSaveFailed => exact Db.keeps_markSaveFailed _
  case acceptLocal => exact Db.keeps_acceptLocal _
  case acceptRemote => exact Db.keeps_acceptRemote _ _
  all_goals exact Db.Keeps.of_queue rfl rfl

/-- A call with one way to succeed. -/
theorem answer_done {r : Reply e} {a : Ans e} {w' v : World}
    (h : answer hash lane e c w = some (r, u))
    (he : e.bookkeeping = false) (hfailed : failed e c w = w')
    (hok : succeed hash lane e c w = some (.ok a, v)) :
    ((∃ message, r = .error message) ∧ u = w') ∨ (r = .ok a ∧ u = v) := by
  obtain ⟨m, hr, rfl⟩ | h := answer_cases he h
  · exact .inl ⟨⟨m, hr⟩, hfailed⟩
  · cases hok.symm.trans h
    exact .inr ⟨rfl, rfl⟩

variable {path : Path} {expectedHash : Option String} {content : List UInt8} {queueId : ℕ}

/-! ### Local files -/

/-- A new file gets a name that was not taken. -/
theorem answer_createNew {r : Reply (.createNew name)}
    (h : answer hash lane (.createNew name) c w = some (r, u)) :
    ((∃ message, r = .error message) ∧ u = w) ∨ (w.store.node name = none ∧
      r = .ok (w.store.created name) ∧ u = w.setStore (w.store.create name)) := by
  obtain ⟨m, hr, rfl⟩ | h := answer_cases rfl h
  · exact .inl ⟨⟨m, hr⟩, rfl⟩
  · simp only [succeed] at h
    split at h
    case h_1 hnode =>
      cases h
      exact .inr ⟨hnode, rfl, rfl⟩
    case h_2 =>
      cases h
      exact .inl ⟨⟨_, rfl⟩, rfl⟩

/-- A write that fails has written the first bytes, or nothing. -/
theorem answer_writeAll {inode offset : ℕ} {r : Reply (.writeAll inode offset content)}
    (h : answer hash lane (.writeAll inode offset content) c w = some (r, u)) :
    ((∃ message, r = .error message) ∧ (u = w ∨ ∃ written, u = w.setStore
      (w.store.write inode offset (content.take written)))) ∨
    (r = .ok () ∧ u = w.setStore (w.store.write inode offset content)) := by
  obtain ⟨m, hr, hu⟩ | h := answer_cases rfl h
  · refine .inl ⟨⟨m, hr⟩, ?_⟩
    cases c with
    | short written message => exact .inr ⟨written, hu⟩
    | _ => exact .inl hu
  · cases h
    exact .inr ⟨rfl, rfl⟩

/-- A durable write that fails has put the file in its place, or nothing. -/
theorem answer_writeDurable {r : Reply (.writeDurable name content)}
    (h : answer hash lane (.writeDurable name content) c w = some (r, u)) :
    ((∃ message, r = .error message) ∧ u = w) ∨ u = w.setStore (w.store.put name content) := by
  obtain ⟨m, hr, hu⟩ | h := answer_cases rfl h
  · cases c with
    | short written message => exact .inr hu
    | _ => exact .inl ⟨⟨m, hr⟩, hu⟩
  · cases h
    exact .inr rfl

/-- A rename succeeds only if the source is there. -/
theorem answer_rename {source target : LocalPath} {r : Reply (.rename source target)}
    (h : answer hash lane (.rename source target) c w = some (r, u)) :
    ((∃ message, r = .error message) ∧ u = w) ∨ (r = .ok () ∧ (∃ n, w.store.node source = some n) ∧
      u = w.setStore (w.store.rename source target)) := by
  obtain ⟨m, hr, rfl⟩ | h := answer_cases rfl h
  · exact .inl ⟨⟨m, hr⟩, rfl⟩
  · simp only [succeed, done] at h
    split at h
    case h_1 n hnode =>
      cases h
      exact .inr ⟨rfl, ⟨n, hnode⟩, rfl⟩
    case h_2 =>
      cases h
      exact .inl ⟨⟨_, rfl⟩, rfl⟩

/-! ### The agent -/

/-- A check fails, or the agent can hash the file and says whether the hash is the expected one. -/
def Compared (hash : List UInt8 → String) (path : Path) (expectedHash : Option String)
    (w same : World) (r : Except String Check) (u : World) : Prop :=
  ((∃ message, r = .error message) ∧ u = w) ∨
  (r = .ok .same ∧ w.remoteHash hash path = expectedHash ∧ u = same) ∨
  (r = .ok (.differs (w.remoteHash hash path)) ∧ w.remoteHash hash path ≠ expectedHash ∧
    u = { w with comparing := some path })

/-- The agent finds the hash that was expected, another one, or fails. -/
theorem compare_cases {same : World} {r : Except String Check}
    (h : compare hash path expectedHash same w = some (r, u)) :
    Compared hash path expectedHash w same r u := by
  unfold compare at h
  split at h
  case isTrue =>
    cases h
    exact .inl ⟨⟨_, rfl⟩, rfl⟩
  case isFalse =>
    split at h
    case isTrue heq =>
      cases h
      exact .inr (.inl ⟨rfl, heq, rfl⟩)
    case isFalse hne =>
      cases h
      exact .inr (.inr ⟨rfl, hne, rfl⟩)

theorem answer_beginSave {r : Reply (.beginSave queueId path expectedHash)}
    (h : answer hash lane (.beginSave queueId path expectedHash) c w = some (r, u)) :
    Compared hash path expectedHash w w r u := by
  obtain ⟨m, hr, rfl⟩ | h := answer_cases rfl h
  · exact .inl ⟨⟨m, hr⟩, rfl⟩
  · exact compare_cases h

theorem answer_checkSave {r : Reply (.checkSave queueId path expectedHash)}
    (h : answer hash lane (.checkSave queueId path expectedHash) c w = some (r, u)) :
    Compared hash path expectedHash w { w with saving := some path } r u := by
  obtain ⟨m, hr, rfl⟩ | h := answer_cases rfl h
  · exact .inl ⟨⟨m, hr⟩, rfl⟩
  · exact compare_cases h

/-- The bytes that come with a conflict are those of the remote file. -/
theorem answer_conflictContent {r : Reply (.conflictContent path)}
    (h : answer hash lane (.conflictContent path) c w = some (r, u)) :
    u = { w with comparing := none } ∧ ∀ a, r = .ok a → a = w.conflictContent path c := by
  obtain ⟨m, rfl, rfl⟩ | h := answer_cases rfl h
  · refine ⟨rfl, fun a ha => ?_⟩
    cases ha
  · cases h
    refine ⟨rfl, fun a ha => ?_⟩
    cases ha
    rfl

/-- The hash in the answer is the declared one, or that of the file. -/
theorem answer_answerSave {declaredHash : Option String} {r : Reply (.answerSave path declaredHash)}
    (h : answer hash lane (.answerSave path declaredHash) c w = some (r, u)) :
    u = { w with saving := none } ∧
      ∀ a, r = .ok a → declaredHash.or (w.remoteHash hash path) = some a := by
  obtain ⟨m, rfl, rfl⟩ | h := answer_cases rfl h
  · refine ⟨rfl, fun a ha => ?_⟩
    cases ha
  · simp only [succeed] at h
    split at h
    case h_1 newHash hnew =>
      cases h
      refine ⟨rfl, fun a ha => ?_⟩
      cases ha
      exact hnew
    case h_2 =>
      cases h
      refine ⟨rfl, fun a ha => ?_⟩
      cases ha

/-! ### Calls that leave the copies alone -/

/-- The calls by which a local file is looked at and a save of it queued. -/
inductive OffMirror : Call → Prop
  | look {e : Call} (h : e.looks = true) : OffMirror e
  | clean (key : Spelling) (localHash : String) : OffMirror (.recordCleanLocalHash key localHash)
  | snapshot (name : Agent.Name) (ms : ℕ) (h : String) (content : List UInt8) :
      OffMirror (.writeDurable (.snapshot name ms h) content)
  | insert (path : Path) (expectedHash : Option String) (localHash : String) (name : LocalPath) :
      OffMirror (.insertSave path expectedHash localHash name)

/-- Calls off the mirror leave its files alone. -/
theorem OffMirror.read {r : Reply e} (he : OffMirror e) (h : answer hash lane e c w = some (r, u))
    (path : Path) : u.store.read (.mirror path) = w.store.read (.mirror path) := by
  cases he with
  | look he => rw [(answer_looks he h).store]
  | clean key localHash =>
    obtain hu | hu := answer_statement rfl h <;> rw [hu]
    rfl
  | snapshot name ms localHash content =>
    obtain ⟨-, hu⟩ | hu := answer_writeDurable h <;> rw [hu]
    exact FileStore.Store.read_put_ne (by simp) content
  | insert path expectedHash localHash name =>
    obtain ⟨-, hu⟩ | ⟨-, hu⟩ := answer_done h rfl rfl rfl <;> rw [hu] <;> rfl

variable {α : Type}

theorem calls_run {K : Call → Prop} (he : K e) : (run e).Calls K :=
  .bind (.ask he) fun r => by cases r <;> exact trivial

theorem calls_look (he : e.looks = true) : (run e).Calls OffMirror := calls_run (.look he)

theorem calls_ensure {K : Call → Prop} (b : Bool) (message : String) : (ensure b message).Calls K :=
  .ite (fun _ => trivial) fun _ => trivial

theorem calls_orElseFail {K : Call → Prop} (message : String) (o : Option α) :
    (orElseFail message o).Calls K := by
  cases o <;> exact trivial

theorem calls_hashFile : (hashFile hash name).Calls OffMirror :=
  (calls_look rfl).bind fun _ => trivial

variable {key : Spelling}

theorem calls_recordCleanLocalHash {localHash : String} :
    (recordCleanLocalHash key localHash).Calls OffMirror :=
  (calls_run (.clean key localHash)).bind fun _ => .bind (calls_look rfl) fun _ =>
    .bind (calls_look rfl) fun _ => .bind (calls_orElseFail _ _) fun _ => trivial

theorem calls_enqueueSave {localHash : String} {expectedHash : Option String} :
    (enqueueSave path localHash expectedHash content).Calls OffMirror :=
  .bind (calls_look rfl) fun _ => .bind (calls_look rfl) fun _ =>
    .bind (calls_run (.snapshot ..)) fun _ =>
    .bind (calls_run (.insert ..)) fun _ => .bind (calls_look rfl) fun _ => trivial

/-- An integrity check reads local files but writes none. -/
theorem calls_syncCachedFileIntegrity {entry : Entry} :
    (syncCachedFileIntegrity hash key entry).Calls OffMirror := by
  refine .bind (calls_look rfl) fun _ => .ite (fun _ => trivial) fun _ =>
    calls_hashFile.bind fun _ => .ite (fun _ => ?_) fun _ => ?_
  · exact .ite (fun _ => trivial) fun _ => calls_recordCleanLocalHash
  · refine .bind (calls_look rfl) fun _ => .ite (fun _ => calls_recordCleanLocalHash) fun _ => ?_
    exact calls_enqueueSave.bind fun _ => .bind (calls_look rfl) fun _ =>
      .bind (calls_orElseFail _ _) fun _ => trivial

theorem calls_prepareHydrationTarget {remoteHash : String} :
    (prepareHydrationTarget hash path remoteHash).Calls OffMirror := by
  have hadopt : ∀ message, (adoptIfSame hash (.mirror path) remoteHash message).Calls OffMirror :=
    fun message => calls_hashFile.bind fun _ => .ite (fun _ => trivial) fun _ => trivial
  refine .bind (calls_look rfl) fun found => .bind (calls_look rfl) fun present => ?_
  cases (found : Option Entry) with
  | none => exact .ite (fun _ => hadopt _) fun _ => trivial
  | some entry =>
    refine .ite (fun _ => ?_) fun _ => ?_
    · exact (calls_ensure _ _).bind fun _ => hadopt _
    · exact calls_syncCachedFileIntegrity.bind fun _ => (calls_ensure _ _).bind fun _ => trivial

/-! ### Following a program -/

section Rules

variable {S : Spec Lane World} {calm : Label Lane Call Job Event → World → Bool} {i : Lane}
  {j : Option Job} {s : World}

/-- A call keeps the terms if each of its answers does. -/
theorem yields_run {Q : Ans e → World → Prop} (h : ∀ t, S.rely i s t → S.inv t →
    calm (.call i j e) t = true →
      ∀ c r u, answer hash i e c t = some (r, u) → S.inv u ∧ S.guar i t u ∧
      ∀ a, r = .ok a → ∀ v, S.rely i u v → S.inv v → Q a v) :
      S.Yields (sidecar hash) calm i j (run e) Q s := by
  intro t ht hi hc c r u hu
  obtain ⟨hinv, hguar, hr⟩ := h t ht hi hc c r u hu
  refine ⟨hinv, hguar, ?_⟩
  cases r with
  | ok a =>
    intro v hv hiv b hb
    obtain rfl : a = b := by simpa using hb
    exact hr a rfl v hv hiv
  | error message =>
    intro v _ _ b hb
    cases hb

/-- What a call yields was its answer somewhere. -/
theorem yields_answer {Q : Ans e → World → Prop}
    (h : S.Yields (sidecar hash) calm i j (run e) Q s) : S.Yields (sidecar hash) calm i j (run e)
      (fun a t => Q a t ∧ ∃ c w u, answer hash i e c w = some (.ok a, u)) s := by
  intro t ht hi hc c r u hu
  obtain ⟨hinv, hguar, hr⟩ := h t ht hi hc c r u hu
  refine ⟨hinv, hguar, ?_⟩
  cases r with
  | ok a =>
    intro v hv hiv b hb
    obtain rfl : a = b := by simpa using hb
    exact ⟨hr v hv hiv a rfl, c, t, u, hu⟩
  | error message =>
    intro v _ _ b hb
    cases hb

/-- The same for a call whose failure is ignored. -/
theorem yields_ignore {Q : Unit → World → Prop} (h : ∀ t, S.rely i s t → S.inv t →
    calm (.call i j e) t = true →
      ∀ c r u, answer hash i e c t = some (r, u) → S.inv u ∧ S.guar i t u ∧
      ∀ v, S.rely i u v → S.inv v → Q () v) : S.Yields (sidecar hash) calm i j (ignore e) Q s := by
  intro t ht hi hc c r u hu
  obtain ⟨hinv, hguar, hr⟩ := h t ht hi hc c r u hu
  exact ⟨hinv, hguar, fun v hv hiv _ _ => hr v hv hiv⟩

/-- A check that is passed can be relied on. -/
theorem yields_ensure (b : Bool) (message : String) :
    S.Yields (sidecar hash) calm i j (ensure b message) (fun _ _ => b = true) s := by
  unfold ensure
  refine Spec.Yields.ite (fun hb => Spec.Yields.pure fun _ _ _ => hb) fun _ => Spec.Yields.err

theorem yields_orElseFail {α : Type} (message : String) (o : Option α) :
    S.Yields (sidecar hash) calm i j (orElseFail message o) (fun a _ => o = some a) s := by
  cases o with
  | none => exact Spec.Yields.err
  | some a => exact Spec.Yields.pure fun _ _ _ => rfl

end Rules

/-! ### Sample runs -/

namespace Sample

/-- BLAKE3 of the contents that occur in the sample runs. -/
def blake3 (bytes : List UInt8) : String :=
  if bytes = textBytes "a" then
    "17762fddd969a453925d65717ac3eea21320b66b54342fde15128d6caf21215f"
  else if bytes = textBytes "b" then
    "10e5cf3d3c8a4f9f3468c8cc58eea84892a22fdadbc1acb22410190044c1d553"
  else if bytes = textBytes "c" then
    "ea7aa1fc9efdbe106dbb70369a75e9671fa29d52bd55536711bf197477b8f021"
  else ""

/-- A hash of which each value has one preimage. -/
def letters (bytes : List UInt8) : String :=
  String.ofList (bytes.map fun byte => Char.ofNat byte.toNat)

theorem letters_injective : Function.Injective letters := by
  intro bytes other h
  have hchars : bytes.map (fun byte => Char.ofNat byte.toNat) =
      other.map fun byte => Char.ofNat byte.toNat := by
    simpa [letters] using congrArg String.toList h
  refine List.map_injective_iff.2 (fun x y hxy => ?_) hchars
  have hval : ∀ z : UInt8, (Char.ofNat z.toNat).toNat = z.toNat := by
    intro z
    have hz : z.toNat < 256 := z.toNat_lt
    rw [Char.ofNat, dif_pos (.inl (by omega))]
    rfl
  have hnat := congrArg Char.toNat hxy
  simp only [hval] at hnat
  exact UInt8.toNat_inj.1 hnat

/-- The file `f` at the root of the workspace. -/
def file : Path := [textBytes "f"]

/-- A new mirror of a workspace in which `f` holds `a`. -/
def start : State Lane Call Reply String World Job :=
  .idle (.fresh fun path => if path = file then some (textBytes "a") else none)

/-- Calls of a lane that succeed. -/
def oks (lane : Lane) (n : ℕ) : List (Move Lane Choice Job Event) :=
  List.replicate n (.call lane .ok)

/-- `f` is opened on the write lane. -/
def opening : List (Move Lane Choice Job Event) :=
  .start .write (.openPath (plain file) false 0 1) :: oks .write 17

/-- Then `b` is written into it and saved, up to the final check of the agent. -/
def saving : List (Move Lane Choice Job Event) :=
  opening ++ [.env (.editLocal file (textBytes "b")), .start .write (.flush file)] ++
    oks .write 4 ++ [.call .write (.value 5)] ++ oks .write 7

end Sample

end RemoteMirror.Mirror
