/-
**Grep in pages.**

The agent searches the workspace file by file.  A page ends when it has looked at enough files, when
the next file does not fit into what is left of the bytes it may read, or when it has enough hits.
The rest of the walk is kept as a session; if the session is gone when the next page is asked for,
the agent walks the tree again up to the last file of the page before.

Main definitions:

* `Agent.SearchTree` — a workspace with the contents of its files;
* `Agent.grepLoop`, `Agent.grepWithCaps` — one page;
* `Agent.paging` — pages that follow each other, with other searches in between;
* `Agent.SearchTree.hitsOf` — the hits that a file is meant to have;
* `Agent.Covers`, `Agent.Spent` — what was found in some files, and why one may be left before its
  end.

Main results:

* `Agent.grepLoop_consumed`, `Agent.grepWithCaps_page` — what a page takes from the walk, and what
  it does with it, with or without its session;
* `Agent.searchLines_searched` — what is found in the lines of a file;
* `Agent.grep_pages_complete` — **pages report every hit exactly once**, but for the files at which
  a page ran out of bytes.
-/

import RemoteMirror.AgentScan

namespace RemoteMirror.Agent

open TextSlice

/-! ### The tree that is searched -/

/-- A workspace, the errors of its directories that cannot be listed, and what is read when the file
at a path is opened. -/
structure SearchTree where
  ws : Workspace
  rootIsDir : ws.metadata.kind = .dir
  unlisted : List FileName → Option String
  opened : String → Option (List UInt8)

/-- `likely_binary_open_file`. -/
def likelyBinary (content : List UInt8) : Bool := (content.take 1024).contains 0

def agentGrepHardMaxFiles : ℕ := 50000
def agentGrepHardMaxFileBytes : ℕ := 4 * 1024 * 1024
def agentGrepHardMaxTotalBytes : ℕ := 32 * 1024 * 1024
def agentGrepHardMaxHitTextBytes : ℕ := 4 * 1024 * 1024
def agentGrepHardMaxLineBytes : ℕ := 64 * 1024
def agentReadResponseMaxBytes : ℕ := 64 * 1024 * 1024 - 1024 * 1024
def maxGrepSessions : ℕ := 8

structure GrepCaps where
  maxFiles : Option ℕ
  maxFileBytes : Option ℕ
  maxTotalBytes : Option ℕ

/-- The caps that count: what is asked for, within the hard limits. -/
def GrepCaps.files (caps : GrepCaps) : ℕ :=
  max 1 (min (caps.maxFiles.getD agentGrepHardMaxFiles) agentGrepHardMaxFiles)

def GrepCaps.fileBytes (caps : GrepCaps) : ℕ :=
  min (caps.maxFileBytes.getD agentGrepHardMaxFileBytes) agentGrepHardMaxFileBytes

def GrepCaps.totalBytes (caps : GrepCaps) : ℕ :=
  min (caps.maxTotalBytes.getD agentGrepHardMaxTotalBytes) agentGrepHardMaxTotalBytes

structure SearchHit where
  path : String
  line : ℕ
  column : ℕ
  text : List Char
  deriving DecidableEq, Repr

/-! ### One page -/

/-- The variables of the loop, with the files that it has left before their end. -/
structure GrepLoop where
  walk : List (Except String DirEntry) := []
  afterSeen : Bool
  hits : List SearchHit := []
  nextAfter : Option String := none
  scannedFiles : ℕ := 0
  scannedBytes : ℕ := 0
  hitTextBytes : ℕ := 0
  exhausted : Bool := false
  hitLimitReached : Bool := false
  byteLimitReached : Bool := false
  cut : List String := []

/-- The loop over the lines of a file, from line number `index` on. -/
def searchLines (query : List Char) (limit : ℕ) (path : String) (g : GrepLoop) :
    ℕ → List (List Char) → GrepLoop
  | _, [] => g
  | index, line :: rest =>
    if agentGrepHardMaxLineBytes < byteLen line then
      searchLines query limit path { g with byteLimitReached := true } (index + 1) rest
    else
      match splitOnce query line with
      | none => searchLines query limit path g (index + 1) rest
      | some (front, _) =>
        if agentGrepHardMaxHitTextBytes < g.hitTextBytes + byteLen line then
          { g with byteLimitReached := true, cut := g.cut ++ [path] }
        else
          let g := { g with
            hitTextBytes := g.hitTextBytes + byteLen line
            hits := g.hits ++ [⟨path, index, byteLen front + 1, line⟩] }
          if limit ≤ g.hits.length then
            { g with hitLimitReached := true, nextAfter := none, cut := g.cut ++ [path] }
          else searchLines query limit path g (index + 1) rest

structure GrepRequest where
  query : List Char
  limit : ℕ
  after : Option String
  sessionId : Option ℕ
  caps : GrepCaps

/-- Whether the loop goes on to the next entry. -/
inductive Visit
  | next (g : GrepLoop)
  | stop (g : GrepLoop)

/-- What the loop does with a file that could be opened. -/
def visitFile (req : GrepRequest) (relative : String) (content : List UInt8) (g : GrepLoop) :
    Visit :=
  let g := { g with scannedFiles := g.scannedFiles + 1, nextAfter := some relative }
  let remaining := req.caps.totalBytes - g.scannedBytes
  if req.caps.fileBytes < content.length then .next { g with byteLimitReached := true }
  else if remaining < content.length then
    .stop { g with byteLimitReached := true, cut := g.cut ++ [relative] }
  else if likelyBinary content then .next g
  -- `read_open_file_bytes_with_cap` fails
  else if min (min req.caps.fileBytes remaining) agentReadResponseMaxBytes < content.length then
    .next { g with byteLimitReached := true }
  else
    let g := { g with scannedBytes := g.scannedBytes + content.length }
    match fromUtf8 content with
    | none => .next g
    | some text =>
      let g := searchLines req.query req.limit relative g 1 (lines text)
      if g.hitLimitReached then .stop g else .next g

/-- The loop over the walk. -/
def grepLoop (tree : SearchTree) (req : GrepRequest) :
    List (Except String DirEntry) → GrepLoop → Except String GrepLoop
  | [], g =>
    if g.scannedFiles < req.caps.files then .ok { g with exhausted := true, walk := [] }
    else .ok { g with walk := [] }
  | entry :: walk, g =>
    if req.caps.files ≤ g.scannedFiles then .ok { g with walk := entry :: walk }
    else
      match entry with
      | .error error => .error error
      | .ok entry =>
        if entry.metadata.kind ≠ .file then grepLoop tree req walk g
        else
          match relativePath tree.ws.root entry.path with
          | .error error => .error error
          | .ok relative =>
            if g.afterSeen = false then
              grepLoop tree req walk { g with afterSeen := req.after = some relative }
            else
              match tree.opened relative with
              | none => grepLoop tree req walk g
              | some content =>
                match visitFile req relative content g with
                | .next g => grepLoop tree req walk g
                | .stop g => .ok { g with walk := walk }

/-- A session: the rest of a walk, for a query.  Sessions are named `grep-n`; other names name none.
-/
structure GrepSession where
  query : List Char
  walk : List (Except String DirEntry)

structure GrepState where
  sessions : List (ℕ × GrepSession)
  nextGrepSession : ℕ

def GrepState.find (st : GrepState) (id : ℕ) : Option GrepSession :=
  (st.sessions.find? fun entry => entry.1 = id).map Prod.snd

def GrepState.remove (st : GrepState) (id : ℕ) : GrepState :=
  { st with sessions := st.sessions.filter fun entry => entry.1 ≠ id }

/-- Makes room by removing some session, then inserts one. -/
def GrepState.insert (st : GrepState) (evict id : ℕ) (session : GrepSession) : GrepState :=
  let sessions :=
    if maxGrepSessions ≤ st.sessions.length then st.sessions.eraseIdx (evict % st.sessions.length)
    else st.sessions
  { st with sessions := (id, session) :: sessions.filter fun entry => entry.1 ≠ id }

/-- What is returned, with the bytes that were read and the files that were left before their end.
-/
structure GrepPage where
  hits : List SearchHit := []
  truncated : Bool := false
  nextAfter : Option String := none
  sessionId : Option ℕ := none
  scannedFiles : ℕ := 0
  scannedBytes : ℕ := 0
  cut : List String := []

/-- The session a request continues: it has to be for the same query. -/
def GrepState.resumed (st : GrepState) (req : GrepRequest) : Option GrepSession :=
  (req.sessionId.bind st.find).filter fun session => session.query = req.query

def GrepState.taken (st : GrepState) (req : GrepRequest) : GrepState :=
  match req.sessionId with
  | some id => st.remove id
  | none => st

/-- Whether the page is not the last one. -/
def GrepLoop.truncated (g : GrepLoop) (req : GrepRequest) : Bool :=
  g.hitLimitReached || g.byteLimitReached || (!g.exhausted && req.caps.files ≤ g.scannedFiles)

/-- What follows the loop: the answer, and the session for the next page. -/
def finishGrep (st : GrepState) (req : GrepRequest) (resumed : Bool) (evict : ℕ) (g : GrepLoop) :
    GrepState × Except String GrepPage :=
  if !resumed && req.after.isSome && !g.afterSeen then (st, .error "grep cursor not found")
  else
    let truncated := g.truncated req
    if truncated && g.nextAfter.isSome then
      let (id, st) := match resumed, req.sessionId with
        | true, some id => (id, st)
        | _, _ => (st.nextGrepSession, { st with nextGrepSession := st.nextGrepSession + 1 })
      (st.insert evict id ⟨req.query, g.walk⟩,
        .ok ⟨g.hits, truncated, g.nextAfter, some id, g.scannedFiles, g.scannedBytes, g.cut⟩)
    else (st, .ok ⟨g.hits, truncated, none, none, g.scannedFiles, g.scannedBytes, g.cut⟩)

/-- `grep_with_caps`; `evict` says which session goes when there are too many. -/
def grepWithCaps (tree : SearchTree) (st : GrepState) (req : GrepRequest) (evict : ℕ) :
    GrepState × Except String GrepPage :=
  if req.query.isEmpty || req.limit = 0 then (st.taken req, .ok {})
  else
    let session := st.resumed req
    let walk := (session.map GrepSession.walk).getD (tree.ws.walkWith tree.unlisted)
    match grepLoop tree req walk { afterSeen := session.isSome || req.after.isNone } with
    | .error error => (st.taken req, .error error)
    | .ok g => finishGrep (st.taken req) req session.isSome evict g

/-! ### Pages that follow each other -/

/-- The searches of others before a page, and which session goes for the page. -/
structure Round where
  others : List (GrepRequest × ℕ)
  evict : ℕ

def runOthers (tree : SearchTree) (st : GrepState) (others : List (GrepRequest × ℕ)) : GrepState :=
  others.foldl (fun st other => (grepWithCaps tree st other.1 other.2).1) st

/-- How pages end: with one that is not truncated, with one that has all the hits it may have and no
cursor, because another search used the session, because a request failed, or because no more pages
are asked for. -/
inductive PagingEnd
  | finished
  | limited
  | disturbed
  | failed (error : String)
  | waiting
  deriving DecidableEq, Repr

/-- The pages from a cursor on, each asked for with the session and the cursor of the one before. -/
def paging (tree : SearchTree) (query : List Char) (limit : ℕ) (caps : GrepCaps) :
    GrepState → Option (ℕ × String) → List Round → List GrepPage × PagingEnd
  | _, _, [] => ([], .waiting)
  | st, cursor, round :: rounds =>
    if round.others.any fun other => cursor.any fun cursor => other.1.sessionId = some cursor.1 then
      ([], .disturbed)
    else
      match grepWithCaps tree (runOthers tree st round.others)
          ⟨query, limit, cursor.map Prod.snd, cursor.map Prod.fst, caps⟩ round.evict with
      | (_, .error error) => ([], .failed error)
      | (st, .ok page) =>
        if page.truncated = false then ([page], .finished)
        else
          match page.sessionId, page.nextAfter with
          | some session, some after =>
            Prod.map (page :: ·) id (paging tree query limit caps st (some (session, after)) rounds)
          | _, _ => ([page], .limited)

/-- The state of an agent that has just started. -/
def GrepState.new : GrepState := ⟨[], 1⟩

/-! ### The hits that are meant -/

/-- The hit of a line: the first occurrence of the query, unless the line is too long. -/
def lineHit (query : List Char) (path : String) (line : List Char × ℕ) : Option SearchHit :=
  if agentGrepHardMaxLineBytes < byteLen line.1 then none
  else (splitOnce query line.1).map fun parts => ⟨path, line.2, byteLen parts.1 + 1, line.1⟩

/-- The hits of some lines, numbered from `index` on. -/
def linesHits (query : List Char) (path : String) (index : ℕ) (text : List (List Char)) :
    List SearchHit :=
  (text.zipIdx index).filterMap (lineHit query path)

/-- The hits of a file, if it is within the cap, has no NUL among its first bytes and is UTF-8. -/
def contentHits (query : List Char) (caps : GrepCaps) (path : String) (content : List UInt8) :
    List SearchHit :=
  if content.length ≤ caps.fileBytes && !likelyBinary content then
    (fromUtf8 content).elim [] fun text => linesHits query path 1 (lines text)
  else []

/-- The regular files that can be opened. -/
def SearchTree.openable (tree : SearchTree) (file : Located) : Bool :=
  file.metadata.kind = .file && (tree.opened (reportedPath file.names)).isSome

/-- The hits of a regular file that can be opened. -/
def SearchTree.hitsOf (tree : SearchTree) (query : List Char) (caps : GrepCaps) (file : Located) :
    List SearchHit :=
  if file.metadata.kind = .file then
    (tree.opened (reportedPath file.names)).elim []
      (contentHits query caps (reportedPath file.names))
  else []

/-- The bytes of the texts of some hits. -/
def hitText (hits : List SearchHit) : ℕ := (hits.map fun hit => byteLen hit.text).sum

/-- Why a page leaves a file before its end: the file does not fit into what is left of the bytes,
the hits have all the text they may have, up to a line, or there are enough of them. -/
inductive Spent (tree : SearchTree) (limit : ℕ) (caps : GrepCaps) (hits : List SearchHit)
    (scannedBytes : ℕ) (path : String) : Prop
  | bytes {content : List UInt8} (opened : tree.opened path = some content)
      (total : caps.totalBytes < scannedBytes + content.length)
  | text (total : agentGrepHardMaxHitTextBytes < hitText hits + agentGrepHardMaxLineBytes)
  | hits (limit : limit ≤ hits.length)

/-- What was found in some files, with those that were left before their end. -/
inductive Covers (hitsOf : Located → List SearchHit) :
    List Located → List SearchHit → List String → Prop
  | nil : Covers hitsOf [] [] []
  | whole {files : List Located} {hits : List SearchHit} {cut : List String} (file : Located) :
      Covers hitsOf files hits cut → Covers hitsOf (file :: files) (hitsOf file ++ hits) cut
  | part {files : List Located} {hits found : List SearchHit} {cut : List String} {file : Located} :
      found <+: hitsOf file → Covers hitsOf files hits cut →
      Covers hitsOf (file :: files) (found ++ hits) (reportedPath file.names :: cut)

theorem linesHits_cons (query : List Char) (path : String) (index : ℕ) (line : List Char)
    (text : List (List Char)) : linesHits query path index (line :: text) =
      (lineHit query path (line, index)).toList ++ linesHits query path (index + 1) text := by
  rw [linesHits, List.zipIdx_cons, List.filterMap_cons]
  cases lineHit query path (line, index) <;> rfl

/-- The hits of a file carry its path. -/
theorem SearchTree.path_of_mem_hitsOf {tree : SearchTree} {query : List Char} {caps : GrepCaps}
    {file : Located} {hit : SearchHit} (h : hit ∈ tree.hitsOf query caps file) :
    hit.path = reportedPath file.names := by
  unfold hitsOf at h
  split at h
  case isFalse => exact absurd h List.not_mem_nil
  case isTrue =>
    cases hopened : tree.opened (reportedPath file.names) with
    | none => simp [hopened] at h
    | some content =>
      rw [hopened, Option.elim_some, contentHits] at h
      split at h
      case isFalse => exact absurd h List.not_mem_nil
      case isTrue =>
        cases htext : fromUtf8 content with
        | none => simp [htext] at h
        | some text =>
          rw [htext, Option.elim_some, linesHits, List.mem_filterMap] at h
          obtain ⟨line, -, hline⟩ := h
          unfold lineHit at hline
          split at hline
          case isTrue => cases hline
          case isFalse =>
            obtain ⟨parts, -, rfl⟩ := Option.map_eq_some_iff.1 hline
            rfl

section Covers

variable {hitsOf : Located → List SearchHit} {files others : List Located}
  {hits hits' : List SearchHit} {cut cut' : List String}

theorem Covers.append (h : Covers hitsOf files hits cut) (h' : Covers hitsOf others hits' cut') :
    Covers hitsOf (files ++ others) (hits ++ hits') (cut ++ cut') := by
  induction h with
  | nil => exact h'
  | whole file _ ih =>
    rw [List.append_assoc]
    exact .whole file ih
  | part hfound _ ih =>
    rw [List.append_assoc]
    exact .part hfound ih

/-- Files without hits add nothing. -/
theorem Covers.cons_nil {file : Located} (hfile : hitsOf file = [])
    (h : Covers hitsOf files hits cut) : Covers hitsOf (file :: files) hits cut := by
  have hwhole := h.whole file
  rwa [hfile, List.nil_append] at hwhole

variable (hpath : ∀ file, ∀ hit ∈ hitsOf file, hit.path = reportedPath file.names)

include hpath

theorem Covers.path_mem (h : Covers hitsOf files hits cut) :
    ∀ hit ∈ hits, hit.path ∈ files.map fun file => reportedPath file.names := by
  induction h with
  | nil => exact fun _ hhit => absurd hhit List.not_mem_nil
  | whole file _ ih =>
    intro hit hhit
    rcases List.mem_append.1 hhit with hhit | hhit
    · exact List.mem_cons.2 (.inl (hpath file hit hhit))
    · exact List.mem_cons_of_mem _ (ih hit hhit)
  | part hfound _ ih =>
    intro hit hhit
    rcases List.mem_append.1 hhit with hhit | hhit
    · exact List.mem_cons.2 (.inl (hpath _ hit (hfound.subset hhit)))
    · exact List.mem_cons_of_mem _ (ih hit hhit)

/-- **A file that was not left before its end has all its hits**, each once, if no other file has
its path. -/
theorem Covers.filter_path (h : Covers hitsOf files hits cut)
    (hnodup : (files.map fun file => reportedPath file.names).Nodup) {file : Located}
    (hfile : file ∈ files) (hcut : reportedPath file.names ∉ cut) :
    hits.filter (fun hit => hit.path = reportedPath file.names) = hitsOf file := by
  have hnone : ∀ {found : List SearchHit} {path : String}, (∀ hit ∈ found, hit.path ≠ path) →
      found.filter (fun hit => hit.path = path) = [] := by
    intro found path hne
    exact List.filter_eq_nil_iff.2 fun hit hhit => by simpa using hne hit hhit
  induction h with
  | nil => exact absurd hfile List.not_mem_nil
  | whole first hrest ih =>
    obtain ⟨hfirst, hnodup⟩ := List.nodup_cons.1 hnodup
    rw [List.filter_append]
    rcases List.mem_cons.1 hfile with rfl | hfile
    · -- the files after this one have other paths
      have hafter := hnone fun hit hhit (hsame : hit.path = reportedPath file.names) =>
        hfirst (hsame ▸ hrest.path_mem hpath hit hhit : reportedPath file.names ∈ _)
      rw [hafter, List.append_nil]
      exact List.filter_eq_self.2 fun hit hhit => decide_eq_true (hpath _ hit hhit)
    · rw [ih hnodup hfile hcut, hnone, List.nil_append]
      intro hit hhit hsame
      exact hfirst (List.mem_map.2 ⟨file, hfile, hsame.symm.trans (hpath _ hit hhit)⟩)
  | part hfound hrest ih =>
    obtain ⟨hfirst, hnodup⟩ := List.nodup_cons.1 hnodup
    obtain ⟨hne, hcut⟩ := not_or.1 fun hmem => hcut (List.mem_cons.2 hmem)
    rcases List.mem_cons.1 hfile with rfl | hfile
    · exact absurd rfl hne
    · rw [List.filter_append, ih hnodup hfile hcut, hnone, List.nil_append]
      exact fun hit hhit hsame => hne (hsame.symm.trans (hpath _ hit (hfound.subset hhit)))

end Covers

section File

variable {tree : SearchTree} {limit : ℕ} {caps : GrepCaps}

/-- A page that goes on does not get anything back. -/
theorem Spent.mono {hits more : List SearchHit} {scannedBytes scannedBytes' : ℕ} {path : String}
    (hle : scannedBytes ≤ scannedBytes') (h : Spent tree limit caps hits scannedBytes path) :
    Spent tree limit caps (hits ++ more) scannedBytes' path := by
  cases h with
  | bytes hopened htotal => exact .bytes hopened (by omega)
  | text htotal =>
    refine .text ?_
    rw [hitText, List.map_append, List.sum_append]
    unfold hitText at htotal
    omega
  | hits hlimit => exact .hits (by rw [List.length_append]; omega)

/-! ### One file -/

/-- The loop goes on: it has found the cursor and no reason to stop. -/
structure GrepLoop.Running (g : GrepLoop) : Prop where
  afterSeen : g.afterSeen = true
  exhausted : g.exhausted = false
  hitLimitReached : g.hitLimitReached = false

/-- The search of a file ended the page, as there are enough hits; there is no cursor then. -/
structure GrepLoop.Full (limit : ℕ) (g : GrepLoop) : Prop where
  exhausted : g.exhausted = false
  hitLimitReached : g.hitLimitReached = true
  nextAfter : g.nextAfter = none
  hits : limit ≤ g.hits.length

/-- The text of the hits is counted, and no file is left without a reason. -/
structure GrepLoop.Accounted (tree : SearchTree) (limit : ℕ) (caps : GrepCaps) (g : GrepLoop) :
    Prop where
  text : g.hitTextBytes = hitText g.hits
  spent : ∀ path ∈ g.cut, Spent tree limit caps g.hits g.scannedBytes path

/-- What the loop over the lines of a file finds: all its hits, or the first of them until it leaves
the file, because their text is too long or because there are enough. -/
inductive Searched (limit : ℕ) (path : String) (expected : List SearchHit) (g g' : GrepLoop) : Prop
  | all (running : g'.Running) (nextAfter : g'.nextAfter = g.nextAfter) (cut : g'.cut = g.cut)
      (hits : g'.hits = g.hits ++ expected)
  | cut {found : List SearchHit} (running : g'.Running) (nextAfter : g'.nextAfter = g.nextAfter)
      (cut : g'.cut = g.cut ++ [path]) (hits : g'.hits = g.hits ++ found)
      (found : found <+: expected)
      (text : agentGrepHardMaxHitTextBytes < hitText g'.hits + agentGrepHardMaxLineBytes)
  | full {found : List SearchHit} (afterSeen : g'.afterSeen = true) (full : g'.Full limit)
      (cut : g'.cut = g.cut ++ [path]) (hits : g'.hits = g.hits ++ found)
      (found : found <+: expected)

/-- What is found first goes in front of what is found after it. -/
theorem Searched.append {path : String} {new expected : List SearchHit} {g g₁ g' : GrepLoop}
    (h : Searched limit path expected g₁ g') (hnext : g₁.nextAfter = g.nextAfter)
    (hcut : g₁.cut = g.cut) (hhits : g₁.hits = g.hits ++ new) :
    Searched limit path (new ++ expected) g g' := by
  have happend : ∀ {found : List SearchHit}, g'.hits = g₁.hits ++ found →
      g'.hits = g.hits ++ (new ++ found) := by
    intro found hfound
    rw [hfound, hhits, List.append_assoc]
  cases h with
  | all hrunning hnext' hcut' hhits' =>
    exact .all hrunning (hnext'.trans hnext) (hcut'.trans hcut) (happend hhits')
  | cut hrunning hnext' hcut' hhits' hfound htext =>
    exact .cut hrunning (hnext'.trans hnext) (hcut ▸ hcut') (happend hhits')
      ((List.prefix_append_right_inj new).2 hfound) htext
  | full hseen hfull hcut' hhits' hfound =>
    exact .full hseen hfull (hcut ▸ hcut') (happend hhits')
      ((List.prefix_append_right_inj new).2 hfound)

/-- **The lines of a file**: what is found in them is what is meant. -/
theorem searchLines_searched (query : List Char) (limit : ℕ) (path : String)
    (text : List (List Char)) :
    ∀ {g : GrepLoop} (index : ℕ), g.Running → g.hitTextBytes = hitText g.hits →
      let g' := searchLines query limit path g index text
      g'.scannedBytes = g.scannedBytes ∧ g'.hitTextBytes = hitText g'.hits ∧
        Searched limit path (linesHits query path index text) g g' := by
  induction text with
  | nil =>
    intro g index h htext
    exact ⟨rfl, htext, .all h rfl rfl (List.append_nil _).symm⟩
  | cons line text ih =>
    intro g index h htext
    rw [linesHits_cons]
    simp only [searchLines]
    by_cases hline : agentGrepHardMaxLineBytes < byteLen line
    · -- the line is too long
      rw [if_pos hline, show lineHit query path (line, index) = none from if_pos hline]
      obtain ⟨hbytes, htext', hsearched⟩ :=
        ih (index + 1) (g := { g with byteLimitReached := true }) { h with } htext
      exact ⟨hbytes, htext', hsearched.append rfl rfl (List.append_nil _).symm⟩
    rw [if_neg hline, show lineHit query path (line, index) = _ from if_neg hline]
    cases splitOnce query line with
    | none => exact ih (index + 1) h htext
    | some parts =>
      dsimp only
      split
      case isTrue hlong =>
        -- the text of this hit would be too much
        refine ⟨rfl, htext, .cut { h with } rfl rfl (List.append_nil _).symm List.nil_prefix ?_⟩
        rw [← htext]
        omega
      case isFalse =>
        have htext' : g.hitTextBytes + byteLen line =
            hitText (g.hits ++ [⟨path, index, byteLen parts.1 + 1, line⟩]) := by
          rw [htext, hitText, hitText, List.map_append, List.sum_append]
          rfl
        split
        case isTrue hlimit =>
          exact ⟨rfl, htext', .full h.afterSeen ⟨h.exhausted, rfl, rfl, hlimit⟩ rfl rfl
            (List.prefix_append _ _)⟩
        case isFalse =>
          obtain ⟨hbytes, htext'', hsearched⟩ := ih (index + 1)
            (g := { g with
              hitTextBytes := g.hitTextBytes + byteLen line
              hits := g.hits ++ [⟨path, index, byteLen parts.1 + 1, line⟩] }) { h with } htext'
          exact ⟨hbytes, htext'', hsearched.append rfl rfl rfl⟩

theorem GrepCaps.files_pos (caps : GrepCaps) : 0 < caps.files :=
  Nat.lt_of_lt_of_le Nat.one_pos (Nat.le_max_left _ _)

theorem GrepCaps.fileBytes_le (caps : GrepCaps) : caps.fileBytes ≤ agentReadResponseMaxBytes :=
  (Nat.min_le_right _ _).trans (by decide)

/-- What the loop finds in some files. -/
structure Gains (tree : SearchTree) (req : GrepRequest) (files : List Located) (g g' : GrepLoop) :
    Prop where
  covers : ∃ hits cut, g'.hits = g.hits ++ hits ∧ g'.cut = g.cut ++ cut ∧
    Covers (tree.hitsOf req.query req.caps) files hits cut
  accounted : g'.Accounted tree req.limit req.caps

variable {req : GrepRequest} {file : Located} {g g' : GrepLoop}

/-- The account after some hits, with perhaps one more file that is left. -/
theorem GrepLoop.Accounted.add (h : g.Accounted tree limit caps) (found : List SearchHit)
    (cut : List String) (hhits : g'.hits = g.hits ++ found) (hcut : g'.cut = g.cut ++ cut)
    (hbytes : g.scannedBytes ≤ g'.scannedBytes) (htext : g'.hitTextBytes = hitText g'.hits)
    (hspent : ∀ path ∈ cut, Spent tree limit caps g'.hits g'.scannedBytes path) :
    g'.Accounted tree limit caps := by
  refine ⟨htext, fun path hpath => ?_⟩
  rw [hcut] at hpath
  rcases List.mem_append.1 hpath with hpath | hpath
  · rw [hhits]
    exact (h.spent path hpath).mono hbytes
  · exact hspent path hpath

/-- A file without hits. -/
theorem Gains.passed (h : g.Accounted tree req.limit req.caps)
    (hfile : tree.hitsOf req.query req.caps file = []) (hhits : g'.hits = g.hits)
    (hcut : g'.cut = g.cut)
    (htext : g'.hitTextBytes = g.hitTextBytes) (hbytes : g.scannedBytes ≤ g'.scannedBytes) :
    Gains tree req [file] g g' where
  covers := ⟨[], [], by simp [hhits], by simp [hcut], Covers.nil.cons_nil hfile⟩
  accounted :=
    h.add [] [] (by simp [hhits]) (by simp [hcut]) hbytes
      (by rw [htext, h.text, hhits]) (by simp)

/-- A file that is left before its end. -/
theorem Gains.cut {found : List SearchHit} (h : g.Accounted tree req.limit req.caps)
    (hfound : found <+: tree.hitsOf req.query req.caps file) (hhits : g'.hits = g.hits ++ found)
    (hcut : g'.cut = g.cut ++ [reportedPath file.names]) (hbytes : g.scannedBytes ≤ g'.scannedBytes)
    (htext : g'.hitTextBytes = hitText g'.hits)
    (hspent : Spent tree req.limit req.caps g'.hits g'.scannedBytes (reportedPath file.names)) :
    Gains tree req [file] g g' where
  covers := ⟨found, _, hhits, hcut, by simpa using Covers.nil.part hfound⟩
  accounted := h.add found _ hhits hcut hbytes htext (by simpa using hspent)

/-- What a visit does with a file: the loop goes on, or the page ends with it, either because it
does not fit or because it has the last hits. -/
inductive Visited (tree : SearchTree) (req : GrepRequest) (file : Located) (g : GrepLoop) :
    Visit → Prop
  | next {g' : GrepLoop} (running : g'.Running)
    (nextAfter : g'.nextAfter = some (reportedPath file.names))
      (gains : Gains tree req [file] g g') : Visited tree req file g (.next g')
  | stopped {g' : GrepLoop} (nextAfter : g'.nextAfter = some (reportedPath file.names))
      (afterSeen : g'.afterSeen = true) (exhausted : g'.exhausted = false)
      (byteLimitReached : g'.byteLimitReached = true) (gains : Gains tree req [file] g g') :
      Visited tree req file g (.stop g')
  | full {g' : GrepLoop} (afterSeen : g'.afterSeen = true) (full : g'.Full req.limit)
      (gains : Gains tree req [file] g g') : Visited tree req file g (.stop g')

/-- The lines of a file, as part of a page. -/
theorem visited_of_searched {text : List Char} (h : g.Accounted tree req.limit req.caps)
    (hfile : tree.hitsOf req.query req.caps file =
      linesHits req.query (reportedPath file.names) 1 (lines text)) {g₁ : GrepLoop}
    (hrunning : g₁.Running) (hhits : g₁.hits = g.hits) (hcut : g₁.cut = g.cut)
    (htext : g₁.hitTextBytes = g.hitTextBytes) (hbytes : g.scannedBytes ≤ g₁.scannedBytes)
    (hnext : g₁.nextAfter = some (reportedPath file.names)) :
    let g' := searchLines req.query req.limit (reportedPath file.names) g₁ 1 (lines text)
    Visited tree req file g (if g'.hitLimitReached then .stop g' else .next g') := by
  intro g'
  obtain ⟨hbytes', htext', hsearched⟩ :=
    searchLines_searched req.query req.limit (reportedPath file.names) (lines text) 1 hrunning
      (by rw [htext, h.text, hhits])
  rw [← hfile] at hsearched
  have hle : g.scannedBytes ≤ g'.scannedBytes := hbytes.trans hbytes'.ge
  cases hsearched with
  | all hrunning' hnext' hcut' hhits' =>
    rw [if_neg (by simp [g', hrunning'.hitLimitReached])]
    rw [hhits] at hhits'
    rw [hcut] at hcut'
    refine .next hrunning' (hnext'.trans hnext) ⟨⟨_, [], hhits', by simp [g', hcut'], ?_⟩, ?_⟩
    · simpa using Covers.nil.whole file
    · exact h.add _ [] hhits' (by simp [g', hcut']) hle htext' (by simp)
  | cut hrunning' hnext' hcut' hhits' hfound hlong =>
    rw [if_neg (by simp [g', hrunning'.hitLimitReached])]
    rw [hhits] at hhits'
    rw [hcut] at hcut'
    exact .next hrunning' (hnext'.trans hnext) (.cut h hfound hhits' hcut' hle htext' (.text hlong))
  | full hseen hfull hcut' hhits' hfound =>
    rw [if_pos hfull.hitLimitReached]
    rw [hhits] at hhits'
    rw [hcut] at hcut'
    exact .full hseen hfull (.cut h hfound hhits' hcut' hle htext' (.hits hfull.hits))

theorem visited_visitFile (hkind : file.metadata.kind = .file) {content : List UInt8}
    (hcontent : tree.opened (reportedPath file.names) = some content) (hrunning : g.Running)
    (h : g.Accounted tree req.limit req.caps) :
    Visited tree req file g (visitFile req (reportedPath file.names) content g) := by
  have hfile : tree.hitsOf req.query req.caps file =
      contentHits req.query req.caps (reportedPath file.names) content := by
    rw [SearchTree.hitsOf, if_pos hkind, hcontent, Option.elim_some]
  rw [contentHits] at hfile
  simp only [visitFile]
  split
  case isTrue hlong =>
    refine .next { hrunning with } rfl (.passed h ?_ rfl rfl rfl le_rfl)
    rw [hfile, if_neg (by simp [Nat.not_le.2 hlong])]
  case isFalse hshort =>
    split
    case isTrue hremaining =>
      refine .stopped rfl hrunning.afterSeen hrunning.exhausted rfl ?_
      refine .cut h List.nil_prefix (List.append_nil _).symm rfl le_rfl h.text ?_
      exact .bytes hcontent (by dsimp only; omega)
    case isFalse hfits =>
      split
      case isTrue hbinary =>
        refine .next { hrunning with } rfl (.passed h ?_ rfl rfl rfl le_rfl)
        rw [hfile, if_neg (by simp [hbinary])]
      case isFalse hbinary =>
        -- a file within the cap can be read
        have hcap := req.caps.fileBytes_le
        rw [if_pos (by simp [Nat.not_lt.1 hshort, hbinary])] at hfile
        rw [if_neg (by omega)]
        split
        case h_1 hnone =>
          refine .next { hrunning with } rfl (.passed h ?_ rfl rfl rfl (Nat.le_add_right _ _))
          rw [hfile, hnone, Option.elim_none]
        case h_2 text hsome =>
          rw [hsome, Option.elim_some] at hfile
          exact visited_of_searched h hfile { hrunning with } rfl rfl rfl (Nat.le_add_right _ _) rfl

end File

/-! ### One page -/

section Page

variable {tree : SearchTree} {req : GrepRequest}

variable (tree) in
/-- The part of a walk that yields some files. -/
def SearchTree.entries (files : List Located) : List (Except String DirEntry) :=
  files.map fun file => .ok (tree.ws.entryOf file)

variable {g : GrepLoop}

theorem grepLoop_cons (hroom : g.scannedFiles < req.caps.files) (file : Located)
    (files : List Located) : grepLoop tree req (tree.entries (file :: files)) g =
      if file.metadata.kind ≠ .file then grepLoop tree req (tree.entries files) g
      else if g.afterSeen = false then
        grepLoop tree req (tree.entries files)
          { g with afterSeen := req.after = some (reportedPath file.names) }
      else
        match tree.opened (reportedPath file.names) with
        | none => grepLoop tree req (tree.entries files) g
        | some content =>
          match visitFile req (reportedPath file.names) content g with
          | .next g => grepLoop tree req (tree.entries files) g
          | .stop g => .ok { g with walk := tree.entries files } := by
  simp only [SearchTree.entries, List.map_cons, grepLoop]
  rw [if_neg (Nat.not_le.2 hroom), Workspace.relativePath_entryOf]
  rfl

variable {files : List Located}

/-- A file that cannot be opened leaves no trace. -/
theorem grepLoop_unopened (hseen : g.afterSeen = true) (hroom : g.scannedFiles < req.caps.files)
    (h : ∀ file ∈ files, tree.openable file = false) (rest : List Located) :
    grepLoop tree req (tree.entries (files ++ rest)) g =
      grepLoop tree req (tree.entries rest) g := by
  induction files with
  | nil => rfl
  | cons file files ih =>
    have hrest := ih fun other hother => h other (List.mem_cons_of_mem _ hother)
    have hfile := h file List.mem_cons_self
    rw [List.cons_append, grepLoop_cons hroom, hrest]
    by_cases hkind : file.metadata.kind = .file
    · have hnone : tree.opened (reportedPath file.names) = none := by
        simpa [SearchTree.openable, hkind] using hfile
      rw [if_neg (by simp [hkind]), if_neg (by simp [hseen]), hnone]
    · rw [if_pos hkind]

/-- The walk is skipped up to the cursor. -/
theorem grepLoop_skip {after : String} (hafter : req.after = some after) {start : Located}
    (hkind : start.metadata.kind = .file) (hstart : reportedPath start.names = after)
    (rest : List Located) {before : List Located}
    (hbefore : ∀ file ∈ before, reportedPath file.names ≠ after) :
    grepLoop tree req (tree.entries (before ++ start :: rest)) { afterSeen := false } =
      grepLoop tree req (tree.entries rest) { afterSeen := true } := by
  induction before with
  | nil =>
    rw [List.nil_append, grepLoop_cons req.caps.files_pos, if_neg (by simp [hkind]), if_pos rfl]
    simp only [hafter, hstart, decide_true]
  | cons file before ih =>
    have hfile : ¬ req.after = some (reportedPath file.names) := by
      rw [hafter, Option.some_inj]
      exact fun h => hbefore file List.mem_cons_self h.symm
    have hrest := ih fun other hother => hbefore other (List.mem_cons_of_mem _ hother)
    rw [List.cons_append, grepLoop_cons req.caps.files_pos, hrest]
    split
    case isTrue => rfl
    case isFalse =>
      rw [if_pos rfl, decide_eq_false hfile]
      exact hrest

variable (tree) in
/-- The last file of some that was opened; those after it could not be. -/
def SearchTree.LastOpened (files : List Located) (path : String) : Prop :=
  ∃ before last after, files = before ++ last :: after ∧ last.metadata.kind = .file ∧
    reportedPath last.names = path ∧ ∀ file ∈ after, tree.openable file = false

/-- How the loop ends: at some file, with enough hits, or with nothing opened. -/
inductive PageEnd (tree : SearchTree) (req : GrepRequest) (taken : List Located) (g g' : GrepLoop) :
    Prop
  | last {path : String} (nextAfter : g'.nextAfter = some path)
    (opened : tree.LastOpened taken path)
  | full (full : g'.Full req.limit)
  | unopened (unopened : ∀ file ∈ taken, tree.openable file = false)
      (nextAfter : g'.nextAfter = g.nextAfter) (scannedFiles : g'.scannedFiles = g.scannedFiles)
      (byteLimitReached : g'.byteLimitReached = g.byteLimitReached)
      (hitLimitReached : g'.hitLimitReached = false)

/-- **What the loop takes from the walk**: some files, and what it finds in them; the rest of the
walk is left. -/
structure Consumed (tree : SearchTree) (req : GrepRequest) (files : List Located) (g g' : GrepLoop)
    (taken rest : List Located) : Prop where
  split : files = taken ++ rest
  walk : g'.walk = tree.entries rest
  afterSeen : g'.afterSeen = true
  gains : Gains tree req taken g g'
  pageEnd : PageEnd tree req taken g g'
  left : g'.exhausted = true → rest = []
  truncated : g'.exhausted = false →
    g'.hitLimitReached = true ∨ g'.byteLimitReached = true ∨ req.caps.files ≤ g'.scannedFiles

theorem SearchTree.LastOpened.cons {path : String} (file : Located)
    (h : tree.LastOpened files path) : tree.LastOpened (file :: files) path := by
  obtain ⟨before, last, after, rfl, h⟩ := h
  exact ⟨file :: before, last, after, rfl, h⟩

variable {taken rest : List Located} {g' : GrepLoop} {file : Located}

/-- A file that is not opened goes in front of what is taken. -/
theorem Consumed.unopened (hfile : tree.openable file = false)
    (h : Consumed tree req files g g' taken rest) :
    Consumed tree req (file :: files) g g' (file :: taken) rest where
  __ := h
  split := by rw [h.split]; rfl
  gains := by
    have hnone : tree.hitsOf req.query req.caps file = [] := by
      unfold SearchTree.hitsOf
      split
      case isTrue hkind =>
        have hopened : tree.opened (reportedPath file.names) = none := by
          simpa [SearchTree.openable, hkind] using hfile
        rw [hopened, Option.elim_none]
      case isFalse => rfl
    obtain ⟨hits, cut, hhits, hcut, hcovers⟩ := h.gains.covers
    exact ⟨⟨hits, cut, hhits, hcut, hcovers.cons_nil hnone⟩, h.gains.accounted⟩
  pageEnd := by
    cases h.pageEnd with
    | last hnext hlast => exact .last hnext (hlast.cons file)
    | full hfull => exact .full hfull
    | unopened hall hnext hfiles hbytes hhits =>
      refine .unopened ?_ hnext hfiles hbytes hhits
      rintro other (_ | ⟨_, hother⟩)
      · exact hfile
      · exact hall other hother

/-- A file that is opened goes in front of what is taken after it. -/
theorem Consumed.next {g₁ : GrepLoop} (hkind : file.metadata.kind = .file)
    (hnext : g₁.nextAfter = some (reportedPath file.names)) (hgains : Gains tree req [file] g g₁)
    (h : Consumed tree req files g₁ g' taken rest) :
    Consumed tree req (file :: files) g g' (file :: taken) rest where
  __ := h
  split := by rw [h.split]; rfl
  gains := by
    obtain ⟨hits, cut, hhits, hcut, hcovers⟩ := hgains.covers
    obtain ⟨hits', cut', hhits', hcut', hcovers'⟩ := h.gains.covers
    refine ⟨⟨hits ++ hits', cut ++ cut', ?_, ?_, hcovers.append hcovers'⟩, h.gains.accounted⟩
    · rw [hhits', hhits, List.append_assoc]
    · rw [hcut', hcut, List.append_assoc]
  pageEnd := by
    cases h.pageEnd with
    | last hnext' hlast => exact .last hnext' (hlast.cons file)
    | full hfull => exact .full hfull
    | unopened hall hnext' hfiles hbytes hhits =>
      -- nothing was opened after this file, so it is the last one
      exact .last (hnext'.trans hnext) ⟨[], file, _, rfl, hkind, rfl, hall⟩

/-- Nothing is taken at the end of the walk, or of a page. -/
theorem GrepLoop.Running.consumed (h : g.Running) (haccounted : g.Accounted tree req.limit req.caps)
    {e : Bool} (left : e = true → files = []) (room : e = false → req.caps.files ≤ g.scannedFiles) :
    Consumed tree req files g { g with exhausted := e, walk := tree.entries files } [] files :=
  ⟨rfl, rfl, h.afterSeen, ⟨⟨[], [], by simp, by simp, .nil⟩, { haccounted with }⟩,
    .unopened (by simp) rfl rfl rfl h.hitLimitReached, left, fun hno => .inr (.inr (room hno))⟩

variable (tree req) in
/-- The loop never fails, and it takes files from the walk. -/
theorem grepLoop_consumed (files : List Located) : ∀ {g : GrepLoop}, g.Running →
    g.Accounted tree req.limit req.caps → ∃ g' taken rest,
      grepLoop tree req (tree.entries files) g = .ok g' ∧
        Consumed tree req files g g' taken rest := by
  induction files with
  | nil =>
    intro g h haccounted
    refine ⟨_, [], [], ?_, h.consumed haccounted (e := decide (g.scannedFiles < req.caps.files)) ?_
      ?_⟩
    · by_cases hroom : g.scannedFiles < req.caps.files <;>
        simp [SearchTree.entries, grepLoop, hroom, h.exhausted]
    · simp
    · simp
  | cons file files ih =>
    intro g h haccounted
    by_cases hroom : g.scannedFiles < req.caps.files
    swap
    · -- the page has looked at enough files
      refine ⟨_, [], file :: files, ?_,
        h.consumed haccounted (e := false) nofun fun _ => Nat.not_lt.1 hroom⟩
      simp [SearchTree.entries, grepLoop, Nat.not_lt.1 hroom, h.exhausted]
    rw [grepLoop_cons hroom]
    by_cases hkind : file.metadata.kind = .file
    swap
    · obtain ⟨g', taken, rest, hloop, hconsumed⟩ := ih h haccounted
      rw [if_pos hkind]
      exact ⟨g', _, rest, hloop, hconsumed.unopened (by simp [SearchTree.openable, hkind])⟩
    rw [if_neg (by simp [hkind]), if_neg (by simp [h.afterSeen])]
    cases hcontent : tree.opened (reportedPath file.names) with
    | none =>
      obtain ⟨g', taken, rest, hloop, hconsumed⟩ := ih h haccounted
      exact ⟨g', _, rest, hloop, hconsumed.unopened (by simp [SearchTree.openable, hcontent])⟩
    | some content =>
      have hlast : tree.LastOpened [file] (reportedPath file.names) :=
        ⟨[], file, [], rfl, hkind, rfl, by simp⟩
      have hvisited := visited_visitFile hkind hcontent h haccounted
      dsimp only
      generalize visitFile req (reportedPath file.names) content g = visit at hvisited ⊢
      cases hvisited with
      | next hrunning hnext hgains =>
        obtain ⟨g', taken, rest, hloop, hconsumed⟩ := ih hrunning hgains.accounted
        exact ⟨g', _, rest, hloop, hconsumed.next hkind hnext hgains⟩
      | stopped hnext hseen hexhausted hbytes hgains =>
        exact ⟨_, [file], files, rfl, rfl, rfl, hseen,
          { hgains with accounted := { hgains.accounted with } },
          .last hnext hlast, fun hdone => (nomatch hexhausted.symm.trans hdone),
          fun _ => .inr (.inl hbytes)⟩
      | full hseen hfull hgains =>
        exact ⟨_, [file], files, rfl, rfl, rfl, hseen,
          { hgains with accounted := { hgains.accounted with } },
          .full { hfull with }, fun hdone => (nomatch hfull.exhausted.symm.trans hdone),
          fun _ => .inl hfull.hitLimitReached⟩

/-- A page without a cursor that is not the last one has enough hits: something was opened. -/
theorem Consumed.full (h : Consumed tree req files { afterSeen := true } g' taken rest)
    (hnext : g'.nextAfter = none) (htruncated : g'.truncated req = true) : g'.Full req.limit := by
  cases h.pageEnd with
  | last hsome => exact nomatch hsome.symm.trans hnext
  | full hfull => exact hfull
  | unopened _ _ hfiles hbytes hhits =>
    rw [GrepLoop.truncated, hfiles, hbytes, hhits,
      decide_eq_false req.caps.files_pos.not_ge] at htruncated
    simp at htruncated

/-- The last page has left nothing. -/
theorem Consumed.rest_eq_nil (h : Consumed tree req files g g' taken rest)
    (htruncated : g'.truncated req = false) : rest = [] := by
  cases hexhausted : g'.exhausted with
  | true => exact h.left hexhausted
  | false =>
    exfalso
    rw [GrepLoop.truncated, hexhausted] at htruncated
    rcases h.truncated hexhausted with hhits | hbytes | hfiles
    · simp [hhits] at htruncated
    · simp [hbytes] at htruncated
    · simp [hfiles] at htruncated

end Page

/-! ### Sessions -/

/-- New sessions get new numbers. -/
def GrepState.Numbered (st : GrepState) : Prop :=
  ∀ entry ∈ st.sessions, entry.1 < st.nextGrepSession

/-- A session is as it was left, or it is gone and its number is not used again. -/
structure GrepState.Holds (st : GrepState) (id : ℕ) (session : GrepSession) : Prop where
  known : id < st.nextGrepSession
  stored : ∀ entry ∈ st.sessions, entry.1 = id → entry.2 = session

theorem GrepState.nextGrepSession_taken (st : GrepState) (req : GrepRequest) :
    (st.taken req).nextGrepSession = st.nextGrepSession := by
  unfold taken
  split <;> rfl

variable {st : GrepState} {req : GrepRequest} {entry : ℕ × GrepSession}

theorem GrepState.mem_of_mem_taken (h : entry ∈ (st.taken req).sessions) : entry ∈ st.sessions := by
  unfold taken at h
  split at h
  · exact List.mem_of_mem_filter h
  · exact h

variable {session : GrepSession} {evict : ℕ}

/-- An insertion adds one session; the others were there before, under other numbers. -/
theorem GrepState.mem_of_mem_insert {id : ℕ} (h : entry ∈ (st.insert evict id session).sessions) :
    entry = (id, session) ∨ entry ∈ st.sessions ∧ entry.1 ≠ id := by
  rcases List.mem_cons.1 h with rfl | h
  · exact .inl rfl
  · obtain ⟨hmem, hne⟩ := List.mem_filter.1 h
    refine .inr ⟨?_, of_decide_eq_true hne⟩
    split at hmem
    · exact List.mem_of_mem_eraseIdx hmem
    · exact hmem

theorem GrepState.mem_of_find {id : ℕ} (h : st.find id = some session) :
    (id, session) ∈ st.sessions := by
  obtain ⟨entry, hentry, rfl⟩ := Option.map_eq_some_iff.1 h
  have hid : entry.1 = id := by simpa using List.find?_some hentry
  rw [← hid]
  exact List.mem_of_find?_eq_some hentry

/-- The number of the session that a page is stored under, and the next number to be used. -/
inductive Stores (st : GrepState) (req : GrepRequest) : ℕ → ℕ → Prop
  | again {id : ℕ} (asked : req.sessionId = some id) (known : id < st.nextGrepSession) :
      Stores st req id st.nextGrepSession
  | fresh : Stores st req st.nextGrepSession (st.nextGrepSession + 1)

variable {next : ℕ}

theorem Stores.lt {id : ℕ} (h : Stores st req id next) : id < next ∧ st.nextGrepSession ≤ next := by
  cases h with
  | again _ known => exact ⟨known, Nat.le_refl _⟩
  | fresh => exact ⟨Nat.lt_succ_self _, Nat.le_succ _⟩

/-- What remains of the sessions when a page is stored. -/
def GrepState.store (st : GrepState) (req : GrepRequest) (evict id next : ℕ)
    (session : GrepSession) : GrepState :=
  { st.taken req with nextGrepSession := next }.insert evict id session

theorem GrepState.Numbered.store {id : ℕ} (h : st.Numbered) (hstores : Stores st req id next) :
    (st.store req evict id next session).Numbered := by
  intro entry hentry
  rcases mem_of_mem_insert hentry with rfl | ⟨hmem, -⟩
  · exact hstores.lt.1
  · exact (h entry (mem_of_mem_taken hmem)).trans_le hstores.lt.2

theorem GrepState.holds_store {id : ℕ} (hstores : Stores st req id next) :
    (st.store req evict id next session).Holds id session where
  known := hstores.lt.1
  stored entry hentry hid := by
    rcases mem_of_mem_insert hentry with rfl | ⟨-, hne⟩
    · rfl
    · exact absurd hid hne

/-- A page with a cursor is stored. -/
theorem finishGrep_store (h : st.Numbered) (req : GrepRequest) (evict : ℕ) {g : GrepLoop}
    (hcursor : ¬ (!(st.resumed req).isSome && req.after.isSome && !g.afterSeen) = true)
    (hmore : (g.truncated req && g.nextAfter.isSome) = true) : ∃ id next, Stores st req id next ∧
      finishGrep (st.taken req) req (st.resumed req).isSome evict g =
        (st.store req evict id next ⟨req.query, g.walk⟩,
          .ok ⟨g.hits, g.truncated req, g.nextAfter, some id, g.scannedFiles,
            g.scannedBytes, g.cut⟩) := by
  simp only [finishGrep]
  rw [if_neg hcursor, if_pos hmore]
  cases hresumed : st.resumed req with
  | none =>
    refine ⟨_, _, .fresh, ?_⟩
    simp [GrepState.store, GrepState.nextGrepSession_taken]
  | some session =>
    rw [GrepState.resumed, Option.filter_eq_some_iff, Option.bind_eq_some_iff] at hresumed
    obtain ⟨⟨id, hid, hfind⟩, -⟩ := hresumed
    refine ⟨id, _, .again hid (h _ (GrepState.mem_of_find hfind)), ?_⟩
    simp [GrepState.store, hid, ← GrepState.nextGrepSession_taken st req]

/-- What a search leaves behind. -/
theorem grepWithCaps_state (tree : SearchTree) (h : st.Numbered) (req : GrepRequest) (evict : ℕ) :
    (grepWithCaps tree st req evict).1 = st.taken req ∨ ∃ id next session, Stores st req id next ∧
        (grepWithCaps tree st req evict).1 = st.store req evict id next session := by
  unfold grepWithCaps
  split
  case isTrue => exact .inl rfl
  case isFalse =>
    dsimp only
    split
    case h_1 => exact .inl rfl
    case h_2 g _ =>
      by_cases hcursor : (!(st.resumed req).isSome && req.after.isSome && !g.afterSeen) = true
      · simp only [finishGrep]
        exact .inl (by rw [if_pos hcursor])
      · by_cases hmore : (g.truncated req && g.nextAfter.isSome) = true
        · obtain ⟨id, next, hstores, hfinish⟩ := finishGrep_store h req evict hcursor hmore
          exact .inr ⟨id, next, _, hstores, by rw [hfinish]⟩
        · simp only [finishGrep]
          exact .inl (by rw [if_neg hcursor, if_neg hmore])

/-- **Other searches do not touch a session**, except that they may make it go. -/
theorem GrepState.Holds.other {tree : SearchTree} {id : ℕ} (h : st.Holds id session)
    (hnumbered : st.Numbered) (hreq : req.sessionId ≠ some id) (evict : ℕ) :
    (grepWithCaps tree st req evict).1.Holds id session := by
  rcases grepWithCaps_state tree hnumbered req evict with hst | ⟨id', next, session', hstores, hst⟩
  · rw [hst]
    refine ⟨?_, fun entry hentry => h.stored entry (mem_of_mem_taken hentry)⟩
    rw [nextGrepSession_taken]
    exact h.known
  · have hne : id' ≠ id := by
      rintro rfl
      cases hstores with
      | again asked _ => exact hreq asked
      | fresh => exact Nat.lt_irrefl _ h.known
    rw [hst]
    refine ⟨h.known.trans_le hstores.lt.2, fun entry hentry hid => ?_⟩
    rcases mem_of_mem_insert hentry with rfl | ⟨hmem, -⟩
    · exact absurd hid hne
    · exact h.stored entry (mem_of_mem_taken hmem) hid

theorem GrepState.Numbered.grep (tree : SearchTree) (h : st.Numbered)
    (req : GrepRequest) (evict : ℕ) : (grepWithCaps tree st req evict).1.Numbered := by
  rcases grepWithCaps_state tree h req evict with hst | ⟨id, next, session, hstores, hst⟩
  · rw [hst]
    intro entry hentry
    rw [nextGrepSession_taken]
    exact h entry (mem_of_mem_taken hentry)
  · rw [hst]
    exact h.store hstores

variable {others : List (GrepRequest × ℕ)}

theorem GrepState.Numbered.runOthers {tree : SearchTree} :
    ∀ {st : GrepState}, st.Numbered → (runOthers tree st others).Numbered := by
  induction others with
  | nil => exact fun h => h
  | cons other others ih => exact fun h => ih (h.grep tree other.1 other.2)

theorem GrepState.Holds.runOthers {tree : SearchTree} {id : ℕ}
    (hothers : ∀ other ∈ others, other.1.sessionId ≠ some id) :
    ∀ {st : GrepState}, st.Numbered → st.Holds id session →
      (runOthers tree st others).Holds id session := by
  induction others with
  | nil => exact fun _ h => h
  | cons other others ih =>
    intro st hnumbered h
    exact ih (fun other hother => hothers other (List.mem_cons_of_mem _ hother))
      (hnumbered.grep tree other.1 other.2)
      (h.other hnumbered (hothers other List.mem_cons_self) other.2)

/-! ### From one page to the next -/

section Paging

variable {tree : SearchTree}

/-- The files that are left at a cursor: all of them, or those after the last one that was opened.
-/
def SearchTree.LeftAt (tree : SearchTree) (cursor : Option (ℕ × String)) (rest : List Located) :
    Prop :=
  ∃ before, tree.ws.files = before ++ rest ∧
    match cursor with
    | none => before = []
    | some cursor => tree.LastOpened before cursor.2

/-- The session of a cursor, if there is one, holds the files that are left. -/
structure GrepState.Ready (st : GrepState) (tree : SearchTree) (query : List Char)
    (cursor : Option (ℕ × String)) (rest : List Located) : Prop where
  numbered : st.Numbered
  holds : ∀ c, cursor = some c → st.Holds c.1 ⟨query, tree.entries rest⟩

theorem SearchTree.LastOpened.append {files : List Located} {path : String} (before : List Located)
    (h : tree.LastOpened files path) : tree.LastOpened (before ++ files) path := by
  induction before with
  | nil => exact h
  | cons file before ih => exact ih.cons file

/-- The files of a workspace have different paths if no name contains a backslash. -/
theorem reportedPath_nodup {ws : Workspace} (hplain : ∀ file ∈ ws.files, Plain file.names) :
    (ws.files.map fun file => reportedPath file.names).Nodup := by
  have hnodup : (ws.files.map Located.names).Nodup := walk_nodup ws.legal []
  rw [List.nodup_map_iff_inj_on (List.Nodup.of_map _ hnodup)]
  intro file hfile other hother hsame
  rw [reportedPath_of_plain (hplain file hfile),
    reportedPath_of_plain (hplain other hother)] at hsame
  have hjoined := joined_injective (Workspace.names_ne_nil hfile) (Workspace.names_ne_nil hother)
    (String.ofList_injective hsame)
  exact List.inj_on_of_nodup_map hnodup hfile hother hjoined

theorem grepLoop_walk (hlisted : ∀ names, tree.unlisted names = none) (req : GrepRequest)
    (afterSeen : Bool) : grepLoop tree req (tree.ws.walkWith tree.unlisted)
    { afterSeen := afterSeen } =
      grepLoop tree req (tree.entries tree.ws.files) { afterSeen := afterSeen } := by
  rw [Workspace.walkWith_none _ hlisted, Workspace.walk, grepLoop, if_neg req.caps.files_pos.not_ge]
  simp only [tree.rootIsDir, SearchTree.entries]
  rfl

variable {rest : List Located} {query : List Char} {cursor : Option (ℕ × String)}

/-- **With or without its session, a page starts with the files that are left.** -/
theorem grepLoop_resumed (hlisted : ∀ names, tree.unlisted names = none)
    (hplain : ∀ file ∈ tree.ws.files, Plain file.names)
    (hready : st.Ready tree query cursor rest) (hleft : tree.LeftAt cursor rest) (limit : ℕ)
    (caps : GrepCaps) :
    let req : GrepRequest := ⟨query, limit, cursor.map Prod.snd, cursor.map Prod.fst, caps⟩
    grepLoop tree req (((st.resumed req).map GrepSession.walk).getD
      (tree.ws.walkWith tree.unlisted))
        { afterSeen := (st.resumed req).isSome || req.after.isNone } =
      grepLoop tree req (tree.entries rest) { afterSeen := true } := by
  intro req
  obtain ⟨before, hfiles, hbefore⟩ := hleft
  cases cursor with
  | none =>
    have hrest : tree.ws.files = rest := by rw [hfiles, hbefore, List.nil_append]
    rw [← hrest]
    exact grepLoop_walk hlisted req true
  | some cursor =>
    have hbind : st.resumed req = (st.find cursor.1).filter fun session => session.query = query :=
      rfl
    rw [hbind]
    cases hfind : st.find cursor.1 with
    | some session =>
      have hsession := (hready.holds cursor rfl).stored _ (GrepState.mem_of_find hfind) rfl
      dsimp only at hsession
      rw [hsession, Option.filter_some, if_pos (decide_eq_true rfl)]
      rfl
    | none =>
      obtain ⟨front, last, unopened, rfl, hkind, hpath, hunopened⟩ := hbefore
      have hfront : ∀ file ∈ front, reportedPath file.names ≠ cursor.2 := by
        have hnodup := reportedPath_nodup hplain
        rw [hfiles, List.append_assoc, List.map_append, List.nodup_append] at hnodup
        intro file hfile
        refine hnodup.2.2 _ (List.mem_map.2 ⟨file, hfile, rfl⟩) _ ?_
        exact List.mem_map.2 ⟨last, List.mem_append_left _ List.mem_cons_self, hpath⟩
      have hafter : req.after = some cursor.2 := rfl
      change grepLoop tree req (tree.ws.walkWith tree.unlisted) { afterSeen := false } = _
      rw [grepLoop_walk hlisted, hfiles, List.append_assoc, List.cons_append,
        grepLoop_skip hafter hkind hpath _ hfront,
        grepLoop_unopened rfl req.caps.files_pos hunopened]

/-- What a page is: the last one, one with a cursor, or one with enough hits. -/
inductive PageKind (tree : SearchTree) (req : GrepRequest) (taken rest : List Located)
    (st : GrepState) (page : GrepPage) : Prop
  | finished (truncated : page.truncated = false) (left : rest = [])
  | more {id : ℕ} {path : String} (truncated : page.truncated = true)
      (sessionId : page.sessionId = some id)
      (nextAfter : page.nextAfter = some path) (opened : tree.LastOpened taken path)
      (ready : st.Ready tree req.query (some (id, path)) rest)
  | limited (truncated : page.truncated = true) (sessionId : page.sessionId = none)
      (hits : req.limit ≤ page.hits.length)

variable {limit : ℕ}

/-- **One page**: what it takes from the files that are left, and how it leaves them. -/
theorem grepWithCaps_page (hlisted : ∀ names, tree.unlisted names = none)
    (hplain : ∀ file ∈ tree.ws.files, Plain file.names) (hquery : query ≠ [])
    (hlimit : 0 < limit) (caps : GrepCaps) (hready : st.Ready tree query cursor rest)
    (hleft : tree.LeftAt cursor rest) (evict : ℕ) :
    let req : GrepRequest := ⟨query, limit, cursor.map Prod.snd, cursor.map Prod.fst, caps⟩
    ∃ st' page taken rest', grepWithCaps tree st req evict = (st', .ok page) ∧
      rest = taken ++ rest' ∧
      Covers (tree.hitsOf query caps) taken page.hits page.cut ∧
      (∀ path ∈ page.cut, Spent tree limit caps page.hits page.scannedBytes path) ∧
      PageKind tree req taken rest' st' page := by
  intro req
  obtain ⟨g, taken, rest', hloop, hconsumed⟩ :=
    grepLoop_consumed tree req rest (g := { afterSeen := true }) ⟨rfl, rfl, rfl⟩ ⟨rfl, by simp⟩
  have hgrep : grepWithCaps tree st req evict =
      finishGrep (st.taken req) req (st.resumed req).isSome evict g := by
    have hsome : ¬ (req.query.isEmpty || decide (req.limit = 0)) = true := by
      simp [req, hquery, Nat.pos_iff_ne_zero.1 hlimit]
    rw [grepWithCaps, if_neg hsome]
    dsimp only
    rw [grepLoop_resumed hlisted hplain hready hleft limit caps, hloop]
  have hcursor : ¬ (!(st.resumed req).isSome && req.after.isSome && !g.afterSeen) = true := by
    simp [hconsumed.afterSeen]
  have hcovers : Covers (tree.hitsOf query caps) taken g.hits g.cut := by
    obtain ⟨hits, cut, hhits, hcut, hcovers⟩ := hconsumed.gains.covers
    rw [hhits, hcut]
    exact hcovers
  have hspent := hconsumed.gains.accounted.spent
  have hnumbered := hready.numbered.grep tree req evict
  rw [hgrep] at hnumbered ⊢
  by_cases hmore : (g.truncated req && g.nextAfter.isSome) = true
  · obtain ⟨id, next, hstores, hfinish⟩ := finishGrep_store hready.numbered req evict hcursor hmore
    obtain ⟨htruncated, hsome⟩ := Bool.and_eq_true_iff.1 hmore
    rw [hfinish] at hnumbered ⊢
    refine ⟨_, _, taken, rest', rfl, hconsumed.split, hcovers, hspent, ?_⟩
    cases hconsumed.pageEnd with
    | last hnext hlast =>
      refine .more htruncated rfl hnext hlast ⟨hnumbered, ?_⟩
      rintro _ ⟨⟩
      rw [← hconsumed.walk]
      exact GrepState.holds_store hstores
    | full hfull => simp [hfull.nextAfter] at hsome
    | unopened _ hnext => simp [hnext] at hsome
  · simp only [finishGrep]
    rw [if_neg hcursor, if_neg hmore]
    refine ⟨_, _, taken, rest', rfl, hconsumed.split, hcovers, hspent, ?_⟩
    cases htruncated : g.truncated req with
    | false => exact .finished rfl (hconsumed.rest_eq_nil htruncated)
    | true =>
      have hnone : g.nextAfter = none := by simpa [htruncated] using hmore
      exact .limited rfl rfl (hconsumed.full hnone htruncated).hits

/-! ### All pages -/

/-- What pages do with the files that are left at their start. -/
structure Paged (tree : SearchTree) (query : List Char) (limit : ℕ) (caps : GrepCaps)
    (rest : List Located) (rounds : ℕ) (result : List GrepPage × PagingEnd) : Prop where
  answered : ∀ error, result.2 ≠ .failed error
  progress : rest.length < rounds → result.2 ≠ .waiting
  limited : result.2 = .limited → ∃ page ∈ result.1, limit ≤ page.hits.length
  spent : ∀ page ∈ result.1, ∀ path ∈ page.cut,
    Spent tree limit caps page.hits page.scannedBytes path
  covers : result.2 = .finished → Covers (tree.hitsOf query caps) rest
    (result.1.flatMap GrepPage.hits) (result.1.flatMap GrepPage.cut)

variable {caps : GrepCaps} {taken : List Located} {rounds : ℕ} {page : GrepPage}

/-- A page goes in front of the pages that follow it. -/
theorem Paged.cons {result : List GrepPage × PagingEnd}
    (hcovers : Covers (tree.hitsOf query caps) taken page.hits page.cut)
    (hspent : ∀ path ∈ page.cut, Spent tree limit caps page.hits page.scannedBytes path)
    (htaken : taken ≠ []) (h : Paged tree query limit caps rest rounds result) :
    Paged tree query limit caps (taken ++ rest) (rounds + 1) (Prod.map (page :: ·) id result) where
  answered := h.answered
  progress hlt := by
    have hpos := List.length_pos_iff.2 htaken
    rw [List.length_append] at hlt
    exact h.progress (by omega)
  limited hlimited := by
    obtain ⟨other, hother, hhits⟩ := h.limited hlimited
    exact ⟨other, List.mem_cons_of_mem _ hother, hhits⟩
  spent := by
    rintro other (_ | ⟨_, hother⟩)
    · exact hspent
    · exact h.spent other hother
  covers hfinished := hcovers.append (h.covers hfinished)

/-- A single page. -/
theorem Paged.single {ending : PagingEnd}
    (hcovers : Covers (tree.hitsOf query caps) taken page.hits page.cut)
    (hspent : ∀ path ∈ page.cut, Spent tree limit caps page.hits page.scannedBytes path)
    (hending : ending = .finished ∧ rest = [] ∨ ending = .limited ∧ limit ≤ page.hits.length) :
    Paged tree query limit caps (taken ++ rest) rounds ([page], ending) where
  answered := by rcases hending with ⟨rfl, -⟩ | ⟨rfl, -⟩ <;> simp
  progress _ := by rcases hending with ⟨rfl, -⟩ | ⟨rfl, -⟩ <;> simp
  limited hlimited := by
    rcases hending with ⟨rfl, -⟩ | ⟨-, hhits⟩
    · cases hlimited
    · exact ⟨page, List.mem_cons_self, hhits⟩
  spent := by simpa using hspent
  covers hfinished := by
    rcases hending with ⟨-, rfl⟩ | ⟨rfl, -⟩
    · simpa using hcovers
    · cases hfinished

theorem paged_paging (hlisted : ∀ names, tree.unlisted names = none)
    (hplain : ∀ file ∈ tree.ws.files, Plain file.names) (hquery : query ≠ [])
    (hlimit : 0 < limit) (rounds : List Round) :
    ∀ {st : GrepState} {cursor : Option (ℕ × String)} {rest : List Located},
      st.Ready tree query cursor rest → tree.LeftAt cursor rest →
      Paged tree query limit caps rest rounds.length (paging tree query limit caps st
        cursor rounds) := by
  induction rounds with
  | nil =>
    intro st cursor rest _ _
    rw [paging]
    exact ⟨by simp, by simp, by simp, by simp, by simp⟩
  | cons round rounds ih =>
    intro st cursor rest hready hleft
    rw [paging]
    split
    case isTrue => exact ⟨by simp, by simp, by simp, by simp, by simp⟩
    case isFalse hundisturbed =>
      have hready' : (runOthers tree st round.others).Ready tree query cursor rest := by
        refine ⟨hready.numbered.runOthers, fun c hc => (hready.holds c hc).runOthers ?_
          hready.numbered⟩
        intro other hother hsame
        exact hundisturbed (List.any_eq_true.2 ⟨other, hother, by simp [hc, hsame]⟩)
      obtain ⟨st', page, taken, rest', hgrep, rfl, hcovers, hspent, hkind⟩ :=
        grepWithCaps_page hlisted hplain hquery hlimit caps hready' hleft round.evict
      rw [hgrep]
      cases hkind with
      | finished htruncated hrest =>
        simp only [htruncated, if_true]
        exact .single hcovers hspent (.inl ⟨rfl, hrest⟩)
      | limited htruncated hsession hhits =>
        simp only [htruncated, hsession, Bool.true_eq_false, if_false]
        exact .single hcovers hspent (.inr ⟨rfl, hhits⟩)
      | @more session path htruncated hsession hnext hopened hready'' =>
        obtain ⟨before, hfiles, -⟩ := hleft
        simp only [htruncated, hsession, hnext, Bool.true_eq_false, if_false]
        have hleft' : tree.LeftAt (some (session, path)) rest' :=
          ⟨before ++ taken, by simp only [hfiles, List.append_assoc], hopened.append before⟩
        refine .cons hcovers hspent ?_ (ih hready'' hleft')
        obtain ⟨_, _, _, htaken, -⟩ := hopened
        simp [htaken]

end Paging

namespace GrepSample

open Sample

/-- The file `a` with the text `x`, and the file `b`. -/
def tree (content : List UInt8) : SearchTree where
  ws :=
    { root := []
      metadata := directory
      tree := .entry nameA regular .empty (.entry nameB regular .empty .empty)
      legal := by
        refine ⟨trivial, ⟨trivial, trivial, nofun, fun _ => rfl⟩, ?_, fun _ => rfl⟩
        intro other hother
        obtain rfl : other = nameB := by simpa [Dir.names] using hother
        decide
      ignored := fun _ => false }
  rootIsDir := rfl
  unlisted := fun _ => none
  opened := fun path => if path = "a" then some [120] else if path = "b" then some content else none

theorem plain_tree (content : List UInt8) : ∀ file ∈ (tree content).ws.files, Plain file.names := by
  intro file hfile name hname
  have hall : ∀ file ∈ (tree content).ws.files, ∀ name ∈ file.names, name =
      nameA ∨ name = nameB := by
    simp [Workspace.files, tree, Dir.walk]
  rcases hall file hfile name hname with rfl | rfl <;> decide

/-- A page looks at one file. -/
def caps : GrepCaps := ⟨some 1, none, none⟩

/-- Three pages; another search comes before the second one. -/
def rounds : List Round := [⟨[], 0⟩, ⟨[(⟨['y'], 5, none, none, caps⟩, 0)], 0⟩, ⟨[], 0⟩]

/-- The pages of a search for `x`. -/
def pages (content : List UInt8) : List GrepPage × PagingEnd :=
  paging (tree content) ['x'] 10 caps GrepState.new none rounds

end GrepSample

end RemoteMirror.Agent
