/-
**Background scans.**

The sidecar lists the workspace in the background, one page at a time.  A page that was cut short
leaves a cursor, the path of its last file, and the next page starts after it; a page that was not
cut short marks the scan as completed.  The agent finds the cursor by walking the tree until it
meets that path.  The tree may change between two pages.

Main definitions:

* `Sidecar.ScanDb`, `Sidecar.ScanParams`, `Sidecar.scanRequest` — the scan as the sidecar runs it;
* `Sidecar.ScanState`, `Sidecar.ScanState.step`, `Sidecar.ScanState.run` — scans one after the
  other, with the pages of the current one;
* `Sidecar.ScanState.careful` — the file that a page starts after is still there.

Main results:

* `Agent.Workspace.listing_spec` — what a page holds;
* `Sidecar.completed_scan_complete` — **a scan that is recorded as completed has delivered every
  file that was there all the time, if no page started after a file that was gone**.
-/

import RemoteMirror.AgentScan

namespace RemoteMirror.Sidecar

open Agent

/-! ### The scan of the sidecar -/

/-- What the mirror database keeps about background scans. -/
structure ScanDb where
  cursor : Option String
  completedAtMs : Option ℤ
  deriving DecidableEq, Repr

/-- The parameters of a scan request. -/
structure ScanParams where
  limit : Option ℕ
  resume : Bool
  after : Option String
  rescanAfterMs : Option ℕ

/-- `optional_string_param(&params, "after")`. -/
def ScanParams.explicitAfter (params : ScanParams) : Option String :=
  params.after.filter fun after => after ≠ ""

def scanAfterParam (db : ScanDb) (params : ScanParams) : Except String (Option String) :=
  match params.explicitAfter with
  | some after => (normalizedPath after).map some
  | none => if params.resume then .ok db.cursor else .ok none

/-- `completed_scan_skip_response`: the last scan was completed not long ago. -/
def completedScanSkip (db : ScanDb) (nowMs : ℤ) (rescanAfterMs : Option ℕ) : Bool :=
  match rescanAfterMs, db.completedAtMs with
  -- an age below zero is a large number once it is read as unsigned
  | some rescan, some completed => 0 ≤ nowMs - completed && nowMs - completed < rescan
  | _, _ => false

def recordScanProgress (db : ScanDb) (nowMs : ℤ) (resume truncated : Bool)
    (nextAfter : Option String) : ScanDb :=
  if !resume then db
  else if truncated then
    { cursor := nextAfter.or db.cursor, completedAtMs := none }
  else { cursor := none, completedAtMs := some nowMs }

/-- A page: the tree it was read from, and the files it lists with what is reported about them. -/
structure Page (root : Path) where
  tree : { ws : Workspace // ws.root = root }
  listed : List (DirEntry × FileMeta)

/-- How a request to the agent ends: an answer from the tree as it is then, a preemption or a
failure. -/
inductive Remote (root : Path)
  | served (tree : { ws : Workspace // ws.root = root })
  | preempted
  | failed

/-- `scan`: the new state of the database, and the page with where it starts if the agent was asked
and answered. -/
def scanRequest {root : Path} (db : ScanDb) (params : ScanParams) (nowMs : ℤ)
    (remote : Remote root) : ScanDb × Option (Option String × Page root) :=
  match scanAfterParam db params with
  | .error _ => (db, none)
  | .ok after =>
    if params.resume && after.isNone && params.explicitAfter.isNone &&
        completedScanSkip db nowMs params.rescanAfterMs then (db, none)
    else
      match remote with
      | .served tree =>
        match tree.val.listing (params.limit.getD 10000) after with
        | .ok (listed, truncated) =>
          (recordScanProgress db nowMs params.resume truncated
              (listed.getLast?.map fun item => item.2.path), some (after, ⟨tree, listed⟩))
        | .error _ => (db, none)
      | .preempted => (db, none)
      | .failed => (db, none)

/-! ### Scans one after the other -/

/-- The database, and the pages of the background scan that is going on or was completed last. -/
structure ScanState (root : Path) where
  db : ScanDb
  pages : List (Page root)

/-- A new mirror. -/
def ScanState.new (root : Path) : ScanState root := ⟨⟨none, none⟩, []⟩

/-- A request with the time it is made at and how the agent takes it. -/
structure ScanStep (root : Path) where
  params : ScanParams
  nowMs : ℤ
  remote : Remote root

/-- A page that does not start after a path is the first of a new scan. -/
def ScanState.step {root : Path} (st : ScanState root) (s : ScanStep root) : ScanState root :=
  let (db, found) := scanRequest st.db s.params s.nowMs s.remote
  match found with
  | some (after, page) =>
    if s.params.resume then ⟨db, (if after.isNone then [] else st.pages) ++ [page]⟩
    else ⟨db, st.pages⟩
  | none => ⟨db, st.pages⟩

def ScanState.run {root : Path} (st : ScanState root) (steps : List (ScanStep root)) :
    ScanState root :=
  steps.foldl ScanState.step st

/-- The tree has the file that an item of a page is about. -/
def hasFile {root : Path} (tree : { ws : Workspace // ws.root = root })
    (item : DirEntry × FileMeta) : Bool :=
  tree.val.files.any fun file => (tree.val.entryOf file).path = item.1.path

/-- The files with which the pages of the scan ended. -/
def ScanState.ends {root : Path} (st : ScanState root) : List (DirEntry × FileMeta) :=
  st.pages.filterMap fun page => page.listed.getLast?

/-- A page of a background scan that starts after a path.  If the sidecar goes on by itself, the
file with which the scan ended so far is still there.  If the request says where to start, it is the
path of a file with which a page of the scan ended and which is still there. -/
def ScanState.careful {root : Path} (st : ScanState root) (s : ScanStep root) : Bool :=
  match s.remote, scanAfterParam st.db s.params with
  | .served tree, .ok (some after) =>
    !s.params.resume || match s.params.explicitAfter with
      | none => st.ends.getLast?.any (hasFile tree)
      | some _ => st.ends.any fun item => item.2.path = after && hasFile tree item
  | _, _ => true

def ScanState.carefulRun {root : Path} (st : ScanState root) : List (ScanStep root) → Bool
  | [] => true
  | s :: steps => st.careful s && (st.step s).carefulRun steps

/-- The file has the given names in the tree of a page. -/
def Page.Present {root : Path} (page : Page root) (names : List FileName) : Prop :=
  ∃ file ∈ page.tree.val.files, file.names = names

/-- The page lists the file with the given names. -/
def Page.Delivers {root : Path} (page : Page root) (names : List FileName) : Prop :=
  ∃ item ∈ page.listed, item.1.path = root ++ names.map FileName.bytes

/-- If the scan is recorded as completed, every file that was there for all of its pages was
delivered with one of them. -/
def ScanState.Complete {root : Path} (st : ScanState root) : Prop :=
  st.db.completedAtMs ≠ none → ∀ names, (∀ page ∈ st.pages, page.Present names) →
    ∃ page ∈ st.pages, page.Delivers names

end RemoteMirror.Sidecar

namespace RemoteMirror.Agent

namespace Workspace

variable {ws : Workspace}

/-- The files are in the order of their names. -/
theorem files_sorted : ws.files.Pairwise fun file other => Before file.names other.names :=
  walk_sorted ws.legal []

/-! ### What a page holds -/

variable (ws) in
/-- The files that a page starting after a path can list: those after the first one with that path.
-/
def filesAfter : Option String → List Located
  | none => ws.files
  | some after => (ws.files.dropWhile fun file => reportedPath file.names ≠ after).tail

variable {files : List Located}

/-- Once the loop has met the path it starts after, it lists what comes up to the limit. -/
theorem scanLoop_seen {limit : ℕ} {after : Option String}
    (hnames : ∀ file ∈ files, file.names ≠ []) :
    ∀ {entries : List (DirEntry × FileMeta)}, entries.length ≤ limit →
      scanLoop ws.root limit after true entries (files.map fun file => .ok (ws.entryOf file)) =
        .ok (entries ++ (files.take (limit - entries.length)).map ws.itemOf,
          decide (limit - entries.length < files.length)) := by
  induction files with
  | nil =>
    intro entries _
    simp [scanLoop]
  | cons file files ih =>
    intro entries hlimit
    rw [List.map_cons, scanLoop_cons (hnames file List.mem_cons_self), if_neg (by simp)]
    by_cases hfull : limit ≤ entries.length
    · have hzero : limit - entries.length = 0 := by omega
      rw [if_pos hfull, hzero]
      simp
    · obtain ⟨room, hroom⟩ : ∃ room, limit - entries.length = room + 1 :=
        Nat.exists_eq_succ_of_ne_zero (by omega)
      have hnext : limit - (entries ++ [ws.itemOf file]).length = room := by
        rw [List.length_append, List.length_singleton]
        omega
      rw [if_neg hfull, ih (fun other hother => hnames other (List.mem_cons_of_mem _ hother))
        (by rw [List.length_append, List.length_singleton]; omega), hnext, hroom]
      simp

/-- Before that it skips. -/
theorem scanLoop_skip {limit : ℕ} {after : String} (hnames : ∀ file ∈ files, file.names ≠ []) :
    scanLoop ws.root limit (some after) false [] (files.map fun file => .ok (ws.entryOf file)) =
      scanLoop ws.root limit (some after) true []
        ((files.dropWhile fun file => reportedPath file.names ≠ after).tail.map
          fun file => .ok (ws.entryOf file)) := by
  induction files with
  | nil => rfl
  | cons file files ih =>
    have hrest := fun other hother => hnames other (List.mem_cons_of_mem _ hother)
    have hpath : (ws.itemOf file).2.path = reportedPath file.names := rfl
    rw [List.map_cons, scanLoop_cons (hnames file List.mem_cons_self), if_pos rfl, hpath]
    by_cases heq : reportedPath file.names = after
    · rw [List.dropWhile_cons_of_neg (by simp [heq]), List.tail_cons, heq]
      simp
    · rw [List.dropWhile_cons_of_pos (by simpa using heq), ← ih hrest]
      have hne : (some after = some (reportedPath file.names)) = False := by
        simpa using fun h => heq h.symm
      simp [hne]

/-- **What a page holds.** -/
theorem listing_spec (limit : ℕ) (after : Option String) : ws.listing limit after =
      .ok (((ws.filesAfter after).take limit).map ws.itemOf,
        decide (limit < (ws.filesAfter after).length)) := by
  have hnames : ∀ file ∈ ws.files, file.names ≠ [] := fun _ => names_ne_nil
  rw [listing_eq]
  cases after with
  | none =>
    rw [Option.isNone_none, scanLoop_seen hnames (Nat.zero_le _)]
    rfl
  | some after =>
    have htail : ∀ file ∈ ws.filesAfter (some after), file.names ≠ [] := fun file hfile =>
      hnames file ((List.dropWhile_sublist _).subset (List.mem_of_mem_tail hfile))
    rw [Option.isNone_some, scanLoop_skip hnames, ← filesAfter.eq_2,
      scanLoop_seen htail (Nat.zero_le _)]
    simp

/-- A file that comes after one with the path is among those that the page can list. -/
theorem mem_filesAfter {after : String} {start file : Located} (hstart : start ∈ ws.files)
    (hpath : reportedPath start.names = after) (hfile : file ∈ ws.files)
    (hbefore : Before start.names file.names) : file ∈ ws.filesAfter (some after) := by
  rw [filesAfter]
  have hsorted : ws.files.Pairwise fun file other => Before file.names other.names := files_sorted
  generalize ws.files = files at hstart hfile hsorted ⊢
  induction files with
  | nil => cases hfile
  | cons first files ih =>
    obtain ⟨hfirst, hsorted⟩ := List.pairwise_cons.1 hsorted
    -- the first file of the walk comes before no other one
    have hlater : file ∈ files := by
      rcases List.mem_cons.1 hfile with rfl | hfile
      · rcases List.mem_cons.1 hstart with rfl | hstart
        · exact absurd hbefore (Before.irrefl _)
        · exact absurd (hbefore.trans (hfirst start hstart)) (Before.irrefl _)
      · exact hfile
    by_cases heq : reportedPath first.names = after
    · rwa [List.dropWhile_cons_of_neg (by simp [heq]), List.tail_cons]
    · rw [List.dropWhile_cons_of_pos (by simpa using heq)]
      refine ih ?_ hlater hsorted
      rcases List.mem_cons.1 hstart with rfl | hstart
      · exact absurd hpath heq
      · exact hstart

end Workspace

end RemoteMirror.Agent

/-! ### What a scan has covered -/

namespace RemoteMirror.Sidecar

open Agent

variable {root : Path}

theorem map_bytes_injective {names others : List FileName}
    (h : names.map FileName.bytes = others.map FileName.bytes) : names = others := by
  refine List.map_injective_iff.2 ?_ h
  intro name other hbytes
  exact FileName.ext (textBytes_injective hbytes)

/-- A page as the agent serves it. -/
def Page.of (tree : { ws : Workspace // ws.root = root }) (limit : ℕ) (after : Option String) :
    Page root :=
  ⟨tree, ((tree.val.filesAfter after).take limit).map tree.val.itemOf⟩

theorem entryOf_path (tree : { ws : Workspace // ws.root = root }) (file : Located) :
    (tree.val.entryOf file).path = root ++ file.names.map FileName.bytes := by
  rw [Workspace.entryOf, tree.property]

/-- In trees with one root, files with the same path have the same names. -/
theorem names_eq_of_path_eq {tree tree' : { ws : Workspace // ws.root = root }}
    {file other : Located} (h : (tree.val.entryOf file).path = (tree'.val.entryOf other).path) :
    file.names = other.names := by
  rw [entryOf_path, entryOf_path] at h
  exact map_bytes_injective (List.append_cancel_left h)

/-- A request leaves the database alone, or the agent serves a page that is recorded. -/
theorem scanRequest_cases (db : ScanDb) (params : ScanParams) (nowMs : ℤ) (remote : Remote root) :
    scanRequest db params nowMs remote = (db, none) ∨
      ∃ after tree truncated, scanAfterParam db params = .ok after ∧ remote = .served tree ∧
        (truncated = false → (tree.val.filesAfter after).length ≤ params.limit.getD 10000) ∧
        scanRequest db params nowMs remote =
          (recordScanProgress db nowMs params.resume truncated
            ((Page.of tree (params.limit.getD 10000) after).listed.getLast?.map fun item =>
              item.2.path),
            some (after, Page.of tree (params.limit.getD 10000) after)) := by
  unfold scanRequest
  cases hafter : scanAfterParam db params with
  | error message => exact .inl rfl
  | ok after =>
    dsimp only
    split
    case isTrue => exact .inl rfl
    case isFalse =>
      cases remote with
      | preempted => exact .inl rfl
      | failed => exact .inl rfl
      | served tree =>
        dsimp only
        rw [Workspace.listing_spec]
        refine .inr ⟨after, tree, _, rfl, rfl, fun hwhole => ?_, rfl⟩
        simpa using hwhole

/-- A step that is not about a page of a background scan changes nothing that matters; a page is
recorded. -/
theorem ScanState.step_cases (st : ScanState root) (s : ScanStep root) :
    st.step s = st ∨ ∃ after tree, s.params.resume = true ∧
      scanAfterParam st.db s.params = .ok after ∧ s.remote = .served tree ∧
      (st.step s).pages =
        (if after.isNone then [] else st.pages) ++
          [Page.of tree (s.params.limit.getD 10000) after] ∧
      ((st.step s).db.completedAtMs ≠ none →
        (tree.val.filesAfter after).length ≤ s.params.limit.getD 10000) ∧
      ∀ cursor, (st.step s).db.cursor = some cursor →
        ((Page.of tree (s.params.limit.getD 10000) after).listed.getLast?.map
          fun item => item.2.path).or st.db.cursor = some cursor := by
  rcases scanRequest_cases st.db s.params s.nowMs s.remote with
    hnone | ⟨after, tree, truncated, hafter, hremote, hwhole, hsome⟩
  · left
    rw [ScanState.step, hnone]
  · cases hresume : s.params.resume with
    | false =>
      left
      rw [ScanState.step, hsome, hresume]
      rfl
    | true =>
      right
      rw [ScanState.step, hsome, hresume]
      refine ⟨after, tree, rfl, hafter, hremote, rfl, ?_, ?_⟩
      · -- a page that was cut short is not recorded as the end
        intro hcompleted
        cases truncated with
        | false => exact hwhole rfl
        | true => exact absurd rfl hcompleted
      · -- and only such a page leaves a cursor
        intro cursor hcursor
        cases truncated with
        | false => cases hcursor
        | true => exact hcursor

/-- What holds between two requests. -/
structure ScanState.Inv (st : ScanState root) : Prop where
  /-- Pages list files of their trees. -/
  listed : ∀ page ∈ st.pages, ∀ item ∈ page.listed, ∃ file, item = page.tree.val.itemOf file
  /-- Up to the last file of each page, what was there all the time was delivered. -/
  covered : ∀ page ∈ st.pages, ∀ file, page.listed.getLast? = some (page.tree.val.itemOf file) →
    ∀ names, (∀ page ∈ st.pages, page.Present names) → names = file.names ∨
    Before names file.names →
      ∃ page ∈ st.pages, page.Delivers names
  /-- The cursor is the path of the file with which the scan ended so far. -/
  cursor : ∀ cursor, st.db.cursor = some cursor →
    ∃ item, st.ends.getLast? = some item ∧ item.2.path = cursor
  complete : st.Complete

theorem ScanState.Inv.new : (ScanState.new root).Inv where
  listed := nofun
  covered := nofun
  cursor := nofun
  complete := fun h => absurd rfl h

variable {file : Located} {ws : Workspace}

/-- In one tree, a file that is not a given one comes before or after it. -/
theorem before_or_after {other : Located} (hfile : file ∈ ws.files) (hother : other ∈ ws.files) :
    file.names = other.names ∨ Before file.names other.names ∨ Before other.names file.names := by
  have hsorted : ws.files.Pairwise fun file other => Before file.names other.names :=
    Workspace.files_sorted
  generalize ws.files = files at hfile hother hsorted
  induction files with
  | nil => cases hfile
  | cons first files ih =>
    obtain ⟨hfirst, hsorted⟩ := List.pairwise_cons.1 hsorted
    rcases List.mem_cons.1 hfile with rfl | hlater
    · rcases List.mem_cons.1 hother with rfl | hother
      · exact .inl rfl
      · exact .inr (.inl (hfirst other hother))
    · rcases List.mem_cons.1 hother with rfl | hin
      · exact .inr (.inr (hfirst file hlater))
      · exact ih hlater hin hsorted

variable {st : ScanState root} {after : Option String} {s : ScanStep root}
  {tree : { ws : Workspace // ws.root = root }}

/-- **A careful page starts after a file with which a page of the scan ended**, and the file is
still there. -/
theorem exists_end_of_careful {after : String} (hinv : st.Inv) (hcareful : st.careful s = true)
    (hresume : s.params.resume = true) (hafter : scanAfterParam st.db s.params = .ok (some after))
    (hremote : s.remote = .served tree) :
    ∃ item ∈ st.ends, item.2.path = after ∧ hasFile tree item = true := by
  rw [ScanState.careful, hremote, hafter] at hcareful
  cases hexplicit : s.params.explicitAfter with
  | some given =>
    have hany : st.ends.any (fun item => decide (item.2.path = after) && hasFile tree item) =
        true := by
      simpa [hresume, hexplicit] using hcareful
    obtain ⟨item, hitem, hboth⟩ := List.any_eq_true.1 hany
    rw [Bool.and_eq_true, decide_eq_true_eq] at hboth
    exact ⟨item, hitem, hboth⟩
  | none =>
    have hcursor : st.db.cursor = some after := by
      simpa [scanAfterParam, hexplicit, hresume] using hafter
    obtain ⟨item, hlast, hpath⟩ := hinv.cursor after hcursor
    have hthere : hasFile tree item = true := by
      simpa [hresume, hexplicit, hlast] using hcareful
    exact ⟨item, List.mem_of_getLast? hlast, hpath, hthere⟩

/-- A file that has not been delivered before is among those that a careful page can list. -/
theorem mem_filesAfter_of_careful (hinv : st.Inv) (hcareful : st.careful s = true)
    (hresume : s.params.resume = true) (hafter : scanAfterParam st.db s.params = .ok after)
    (hremote : s.remote = .served tree) (hfile : file ∈ tree.val.files)
    (hnew : after.isNone = false → (∀ page ∈ st.pages, page.Present file.names) ∧
      ¬ ∃ page ∈ st.pages, page.Delivers file.names) : file ∈ tree.val.filesAfter after := by
  cases after with
  | none => exact hfile
  | some after =>
    obtain ⟨hpresent, hmissing⟩ := hnew rfl
    obtain ⟨item, hitem, hpath, hthere⟩ :=
      exists_end_of_careful hinv hcareful hresume hafter hremote
    obtain ⟨page, hpage, hlast⟩ := List.mem_filterMap.1 hitem
    obtain ⟨ended, rfl⟩ := hinv.listed page hpage item (List.mem_of_getLast? hlast)
    obtain ⟨start, hstart, hsame⟩ := List.any_eq_true.1 hthere
    -- the file that the page starts after is the one the earlier page ended with
    have hnames : start.names = ended.names := names_eq_of_path_eq (of_decide_eq_true hsame)
    refine Workspace.mem_filesAfter hstart (by rw [hnames]; exact hpath) hfile ?_
    have hcovered := hinv.covered page hpage ended hlast file.names hpresent
    rw [← hnames] at hcovered
    rcases before_or_after hfile hstart with heq | hbefore | hbefore
    · exact absurd (hcovered (.inl heq)) hmissing
    · exact absurd (hcovered (.inr hbefore)) hmissing
    · exact hbefore

theorem filesAfter_sublist (ws : Workspace) (after : Option String) :
    (ws.filesAfter after).Sublist ws.files := by
  cases after with
  | none => exact List.Sublist.refl _
  | some after => exact (List.tail_sublist _).trans (List.dropWhile_sublist _)

/-- A file behind the limit comes after the last one that the page lists. -/
theorem before_of_mem_drop {limit : ℕ} {ended : Located}
    (hlast : (Page.of tree limit after).listed.getLast? = some (tree.val.itemOf ended))
    (hfile : file ∈ (tree.val.filesAfter after).drop limit) : Before ended.names file.names := by
  rw [Page.of, List.getLast?_map, Option.map_eq_some_iff] at hlast
  obtain ⟨last, hlast, hitem⟩ := hlast
  have hnames : last.names = ended.names :=
    names_eq_of_path_eq (congrArg (fun item => item.1.path) hitem)
  have hsorted : (tree.val.filesAfter after).Pairwise
      fun file other => Before file.names other.names :=
    Workspace.files_sorted.sublist (filesAfter_sublist tree.val after)
  rw [← List.take_append_drop limit (tree.val.filesAfter after)] at hsorted
  rw [← hnames]
  exact (List.pairwise_append.1 hsorted).2.2 last (List.mem_of_getLast? hlast) file hfile

theorem Page.delivers_of_mem {limit : ℕ} (h : file ∈ (tree.val.filesAfter after).take limit) :
    (Page.of tree limit after).Delivers file.names :=
  ⟨tree.val.itemOf file, List.mem_map_of_mem h, entryOf_path tree file⟩

/-- While there is a cursor, a background scan does not start again. -/
theorem isSome_of_cursor {db : ScanDb} {params : ScanParams} {cursor : String}
    (hafter : scanAfterParam db params = .ok after) (hresume : params.resume = true)
    (hcursor : db.cursor = some cursor) : after.isSome = true := by
  unfold scanAfterParam at hafter
  split at hafter
  case h_1 given _ =>
    cases hpath : normalizedPath given with
    | error message => simp [hpath, Except.map] at hafter
    | ok path =>
      rw [hpath] at hafter
      cases hafter
      rfl
  case h_2 =>
    rw [if_pos hresume] at hafter
    cases hafter
    rw [hcursor]
    rfl

section Served

variable {limit : ℕ} {pages : List (Page root)}
  (hpages : pages = (if after.isNone then [] else st.pages) ++ [Page.of tree limit after])

include hpages

/-- The pages of a scan are those it had, unless it starts again, and the one that is served. -/
theorem mem_pages_iff {page : Page root} :
    page ∈ pages ↔ (after.isNone = false ∧ page ∈ st.pages) ∨ page = Page.of tree limit after := by
  rw [hpages, List.mem_append, List.mem_singleton]
  cases after.isNone <;> simp

/-- What was there all the time is delivered by now, or lies behind the limit of the page. -/
theorem delivered_or_dropped (hinv : st.Inv) (hcareful : st.careful s = true)
    (hresume : s.params.resume = true) (hafter : scanAfterParam st.db s.params = .ok after)
    (hremote : s.remote = .served tree) {names : List FileName}
    (hpresent : ∀ page ∈ pages, page.Present names) :
    (∃ page ∈ pages, page.Delivers names) ∨
      ∃ file ∈ (tree.val.filesAfter after).drop limit, file.names = names := by
  by_cases hdone : ∃ page ∈ pages, page.Delivers names
  · exact .inl hdone
  · have hserved : Page.of tree limit after ∈ pages := (mem_pages_iff hpages).2 (.inr rfl)
    have hold : after.isNone = false → ∀ page ∈ st.pages, page ∈ pages := fun hgoes page hpage =>
      (mem_pages_iff hpages).2 (.inl ⟨hgoes, hpage⟩)
    obtain ⟨file, hfile, rfl⟩ := hpresent _ hserved
    have hmem := mem_filesAfter_of_careful hinv hcareful hresume hafter hremote hfile fun hgoes =>
      ⟨fun page hpage => hpresent page (hold hgoes page hpage),
        fun ⟨page, hpage, hdelivers⟩ => hdone ⟨page, hold hgoes page hpage, hdelivers⟩⟩
    rw [← List.take_append_drop limit (tree.val.filesAfter after), List.mem_append] at hmem
    rcases hmem with htake | hdrop
    · exact .inl ⟨_, hserved, Page.delivers_of_mem htake⟩
    · exact .inr ⟨file, hdrop, rfl⟩

end Served

/-- **A careful page keeps what the scan has covered.** -/
theorem ScanState.Inv.step (hinv : st.Inv) (hcareful : st.careful s = true) : (st.step s).Inv := by
  rcases st.step_cases s with
    hsame | ⟨after, tree, hresume, hafter, hremote, hpages, hcompleted, hcursor⟩
  · rw [hsame]
    exact hinv
  have hrest : ∀ names, (∀ page ∈ (st.step s).pages, page.Present names) →
      (∃ page ∈ (st.step s).pages, page.Delivers names) ∨
        ∃ file ∈ (tree.val.filesAfter after).drop (s.params.limit.getD 10000),
          file.names = names :=
    fun _ => delivered_or_dropped hpages hinv hcareful hresume hafter hremote
  refine ⟨?_, ?_, ?_, ?_⟩
  · intro page hpage item hitem
    rcases (mem_pages_iff hpages).1 hpage with ⟨_, hold⟩ | rfl
    · exact hinv.listed page hold item hitem
    · obtain ⟨file, _, rfl⟩ := List.mem_map.1 hitem
      exact ⟨file, rfl⟩
  · intro page hpage ended hlast names hpresent hnames
    rcases (mem_pages_iff hpages).1 hpage with ⟨hgoes, hold⟩ | rfl
    · have hkept : ∀ page ∈ st.pages, page ∈ (st.step s).pages := fun page hpage =>
        (mem_pages_iff hpages).2 (.inl ⟨hgoes, hpage⟩)
      obtain ⟨found, hfound, hdelivers⟩ := hinv.covered page hold ended hlast names
        (fun page hpage => hpresent page (hkept page hpage)) hnames
      exact ⟨found, hkept found hfound, hdelivers⟩
    · rcases hrest names hpresent with hdone | ⟨file, hfile, rfl⟩
      · exact hdone
      · -- the file would come after the last one of the page and not after it
        have hbefore : Before ended.names file.names := before_of_mem_drop hlast hfile
        rcases hnames with heq | hback
        · rw [heq] at hbefore
          exact absurd hbefore (Before.irrefl _)
        · exact absurd (hbefore.trans hback) (Before.irrefl _)
  · intro cursor hnew
    have hnew := hcursor cursor hnew
    rw [ScanState.ends, hpages, List.filterMap_append]
    cases hlast : (Page.of tree (s.params.limit.getD 10000) after).listed.getLast? with
    | some item =>
      rw [hlast] at hnew
      exact ⟨item, by simp [hlast], Option.some.inj hnew⟩
    | none =>
      -- a page without files leaves the cursor, which it started after
      rw [hlast] at hnew
      have hgoes : after.isNone = false := by
        simpa using isSome_of_cursor hafter hresume hnew
      have hempty : [Page.of tree (s.params.limit.getD 10000) after].filterMap
          (fun page => page.listed.getLast?) = [] := by simp [hlast]
      rw [hempty, List.append_nil, hgoes]
      exact hinv.cursor cursor hnew
  · intro hdone names hpresent
    rcases hrest names hpresent with hdelivered | ⟨file, hfile, _⟩
    · exact hdelivered
    · rw [List.drop_eq_nil_of_le (hcompleted hdone)] at hfile
      cases hfile

theorem ScanState.Inv.run {steps : List (ScanStep root)} (hinv : st.Inv)
    (hcareful : st.carefulRun steps = true) : (st.run steps).Inv := by
  induction steps generalizing st with
  | nil => exact hinv
  | cons s steps ih =>
    rw [ScanState.carefulRun, Bool.and_eq_true] at hcareful
    exact ih (hinv.step hcareful.1) hcareful.2

/-- **A scan that is recorded as completed has delivered every file that was there all the time**,
if no page of it started after a file that was gone. -/
theorem completed_scan_complete (root : Path) (steps : List (ScanStep root))
    (hcareful : (ScanState.new root).carefulRun steps = true) :
    ((ScanState.new root).run steps).Complete :=
  (ScanState.Inv.new.run hcareful).complete

namespace ScanSample

open Agent.Sample

def here : Path := [textBytes "w"]

theorem legal_both : (Dir.entry nameA regular .empty
    (.entry nameB regular .empty .empty)).Legal := by
  refine ⟨trivial, ⟨trivial, trivial, fun _ hother => absurd hother List.not_mem_nil, fun _ => rfl⟩,
    ?_, fun _ => rfl⟩
  intro other hother
  obtain rfl : other = nameB := by simpa [Dir.names] using hother
  decide

/-- The files `a` and `b`. -/
def both : { ws : Workspace // ws.root = here } where
  val :=
    { root := here
      metadata := directory
      tree := .entry nameA regular .empty (.entry nameB regular .empty .empty)
      legal := legal_both
      ignored := fun _ => false }
  property := rfl

/-- The file `b`, once `a` is gone. -/
def later : { ws : Workspace // ws.root = here } where
  val :=
    { root := here
      metadata := directory
      tree := .entry nameB regular .empty .empty
      legal := ⟨trivial, trivial, nofun, fun _ => rfl⟩
      ignored := fun _ => false }
  property := rfl

/-- A background page of one file. -/
def page (nowMs : ℤ) (tree : { ws : Workspace // ws.root = here }) : ScanStep here :=
  ⟨⟨some 1, true, none, none⟩, nowMs, .served tree⟩

end ScanSample

open ScanSample in
/-- Two pages of a tree that stays as it is. -/
theorem completed_scan_complete_two_pages :
    ((ScanState.new here).run [page 1 both, page 2 both]).db.completedAtMs = some 2 ∧
      ((ScanState.new here).run [page 1 both, page 2 both]).Complete :=
  ⟨by decide +kernel, completed_scan_complete here _ (by decide +kernel)⟩

open ScanSample Agent.Sample in
/-- **A cursor that is gone ends the scan**: `a` is removed after the first page ended with it, and
the next page is empty and recorded as the end.  The file `b` was there all the time and is never
delivered. -/
theorem scan_completed_without_b :
    ((ScanState.new here).run [page 1 both, page 2 later]).db.completedAtMs = some 2 ∧
      ¬ ((ScanState.new here).run [page 1 both, page 2 later]).Complete := by
  have hdone : ((ScanState.new here).run [page 1 both, page 2 later]).db.completedAtMs =
      some 2 := by
    decide +kernel
  refine ⟨hdone, fun hcomplete => ?_⟩
  have hfiles : ((ScanState.new here).run [page 1 both, page 2 later]).pages.map
      (fun page => page.tree.val.files.map fun file => file.names.map FileName.bytes) =
        [[[nameA.bytes], [nameB.bytes]], [[nameB.bytes]]] := by decide +kernel
  have hlisted : ((ScanState.new here).run [page 1 both, page 2 later]).pages.map
      (fun page => page.listed.map fun item => item.1.path) = [[here ++ [nameA.bytes]], []] := by
        decide +kernel
  obtain ⟨found, hfound, item, hitem, hpath⟩ :=
    hcomplete (by rw [hdone]; simp) [nameB] fun page hpage => by
    have hmem := List.mem_map_of_mem (f := fun page : Page here =>
      page.tree.val.files.map fun file => file.names.map FileName.bytes) hpage
    rw [hfiles] at hmem
    have hb : [nameB.bytes] ∈ page.tree.val.files.map fun file =>
        file.names.map FileName.bytes := by
      rcases List.mem_cons.1 hmem with heq | hmem
      · rw [heq]
        decide
      · rw [List.mem_singleton.1 hmem]
        decide
    obtain ⟨file, hfile, hbytes⟩ := List.mem_map.1 hb
    exact ⟨file, hfile, map_bytes_injective hbytes⟩
  have hmem := List.mem_map_of_mem (f := fun page : Page here =>
    page.listed.map fun item => item.1.path) hfound
  rw [hlisted] at hmem
  have hin : here ++ [nameB.bytes] ∈ found.listed.map fun item => item.1.path := by
    have hb : item.1.path = here ++ [nameB.bytes] := hpath
    rw [← hb]
    exact List.mem_map_of_mem hitem
  rcases List.mem_cons.1 hmem with heq | hmem
  · rw [heq] at hin
    exact absurd hin (by decide)
  · rw [List.mem_singleton.1 hmem] at hin
    cases hin

end RemoteMirror.Sidecar
