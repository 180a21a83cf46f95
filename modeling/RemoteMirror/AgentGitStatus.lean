/-
**Rebasing the output of git status.**

The agent runs `git status --porcelain=v1 -z --branch` in the workspace, which may be a subdirectory
of the repository.  Git names paths from the top of the repository, so the agent rewrites the
output: records of paths outside of the workspace go, and the path of the workspace is cut off from
the others.

Records end in a NUL byte, and the record of a rename or a copy is followed by the old path as a
field of its own.  The loop over the fields has to stay in step with that.

Main definitions:

* `Agent.Git.Entry`, `Agent.Git.Status` — what git prints;
* `Agent.Git.rebaseGitStatusStdout` — the rewriting;
* `Agent.Git.Status.rebase` — what it is meant to give.

Main results:

* `Agent.Git.rebased_iff` — **the rewriting does what it should exactly on outputs without renames
  and copies**, or when there is nothing to cut off.
-/

import RemoteMirror.TextSlice

namespace RemoteMirror.Agent.Git

open TextSlice

abbrev Text := List Char

def nul : Char := Char.ofNat 0

/-! ### What git prints -/

/-- A status column. -/
inductive Column
  | unmodified
  | modified
  | typeChanged
  | added
  | deleted
  | renamed
  | copied
  | unmerged
  | untracked
  | ignored
  deriving DecidableEq, Repr

def Column.char : Column → Char
  | .unmodified => ' '
  | .modified => 'M'
  | .typeChanged => 'T'
  | .added => 'A'
  | .deleted => 'D'
  | .renamed => 'R'
  | .copied => 'C'
  | .unmerged => 'U'
  | .untracked => '?'
  | .ignored => '!'

/-- The path has moved, so the old one is printed too. -/
def Column.moved (column : Column) : Bool := column = .renamed || column = .copied

/-- A path as git prints it with `-z`: not empty, and without NUL. -/
structure GitPath where
  text : Text
  nonempty : text ≠ []
  noNul : nul ∉ text
  deriving DecidableEq

/-- A record: two columns and a path, with the old path exactly if one of the columns says that it
moved. -/
structure Entry where
  index : Column
  worktree : Column
  path : GitPath
  old : Option GitPath
  arity : old.isSome = (index.moved || worktree.moved)

/-- The columns and the blank after them. -/
def Entry.status (entry : Entry) : Text := [entry.index.char, entry.worktree.char, ' ']

def Entry.line (entry : Entry) : Text := entry.status ++ entry.path.text

/-- The fields of a record. -/
def Entry.fields (entry : Entry) : List Text := entry.line :: entry.old.toList.map GitPath.text

/-- The output: a line about the branch, which has no path, and the records. -/
structure Status where
  branch : Option { text : Text // nul ∉ text }
  entries : List Entry

def Status.header (status : Status) : List Text :=
  status.branch.toList.map fun branch => ['#', '#', ' '] ++ branch.val

def Status.fields (status : Status) : List Text :=
  status.header ++ status.entries.flatMap Entry.fields

/-- The fields that are records. -/
def Status.records (status : Status) : List Text := status.header ++ status.entries.map Entry.line

def terminated (fields : List Text) : Text := fields.flatMap fun field => field ++ [nul]

def Status.stdout (status : Status) : Text := terminated status.fields

/-! ### What the rewriting is meant to give -/

/-- The path without the path of the workspace, if it lies under it. -/
def cutOff (pre : Text) (path : Text) : Text := (pre.isPrefixOf? path).getD path

/-- The fields of a record whose path lies under the workspace. -/
def Entry.rebase (pre : Text) (entry : Entry) : Option (List Text) :=
  (pre.isPrefixOf? entry.path.text).map fun path =>
    (entry.status ++ path) :: entry.old.toList.map fun old => cutOff pre old.text

def Status.rebase (status : Status) (pre : Text) : Text :=
  terminated (status.header ++ (status.entries.filterMap (Entry.rebase pre)).flatten)

/-! ### What the agent does -/

/-- A line of an output without `-z`.  There is no result where the cut after three bytes would be
inside of a character: the agent panics there. -/
def rebaseLine (pre line : Text) : Option Text :=
  if ['#', '#'].isPrefixOf line then some (line ++ ['\n'])
  else if byteLen line < 4 then some []
  else do
    let (status, path) ← splitBytes 3 line
    match splitOnce [' ', '-', '>', ' '] path with
    | some (old, new) =>
      match pre.isPrefixOf? old, pre.isPrefixOf? new with
      | some old, some new => some (status ++ old ++ [' ', '-', '>', ' '] ++ new ++ ['\n'])
      | _, _ => some []
    | none =>
      match pre.isPrefixOf? path with
      | some path => some (status ++ path ++ ['\n'])
      | none => some []

/-- What is pushed for a field that is read as a record; none where the cut after three bytes would
be inside of a character. -/
def rebaseRecord (pre record : Text) : Option Text :=
  if ['#', '#'].isPrefixOf record then some (record ++ [nul])
  else if byteLen record < 4 then some []
  else do
    let (status, path) ← splitBytes 3 record
    match pre.isPrefixOf? path with
    | some path => some (status ++ path ++ [nul])
    | none => some []

/-- The field after the record is taken for its old path: the record was kept, and its first column
says that it moved. -/
def takesOld (pre record : Text) : Bool :=
  !(['#', '#'].isPrefixOf record) && 4 ≤ byteLen record &&
    match splitBytes 3 record with
    | some (status, path) =>
      (pre.isPrefixOf? path).isSome && (['R'].isPrefixOf status || ['C'].isPrefixOf status)
    | none => false

/-- The fields that the loop reads as records. -/
def recordsRead (pre : Text) : List Text → List Text
  | [] => []
  | [record] => [record]
  | record :: next :: rest =>
    record :: if takesOld pre record then recordsRead pre rest else recordsRead pre (next :: rest)

/-- The fields of the output that the loop goes over. -/
def nonemptyFields (stdout : Text) : List Text :=
  (stdout.splitOn nul).filter fun record => !record.isEmpty

def rebaseGitStatusNulStdout (stdout pre : Text) : Option Text :=
  ((recordsRead pre (nonemptyFields stdout)).mapM (rebaseRecord pre)).map List.flatten

def rebaseGitStatusStdout (stdout : Text) (pre : Option Text) : Option Text :=
  match pre.filter fun pre => !pre.isEmpty with
  | none => some stdout
  | some pre =>
    if nul ∈ stdout then rebaseGitStatusNulStdout stdout pre
    else ((lines stdout).mapM (rebaseLine pre)).map List.flatten

/-- The fields that are read as records, if the output is rewritten at all. -/
def fieldsRead (stdout : Text) (pre : Option Text) : Option (List Text) :=
  (pre.filter fun pre => !pre.isEmpty).map fun pre =>
    if nul ∈ stdout then recordsRead pre (nonemptyFields stdout) else lines stdout

/-- The rewriting succeeds and gives what it should, and only records are read as records. -/
def Rebased (status : Status) (pre : Option Text) : Prop :=
  rebaseGitStatusStdout status.stdout pre = some (status.rebase (pre.getD [])) ∧
    ∀ read ∈ fieldsRead status.stdout pre, read = status.records

/-! ### The fields are read back -/

theorem Column.char_utf8Size (column : Column) : column.char.utf8Size = 1 := by cases column <;> rfl

theorem Column.char_ne_hash (column : Column) : column.char ≠ '#' := by cases column <;> decide

theorem Column.char_ne_nul (column : Column) : column.char ≠ nul := by cases column <;> decide

/-- The two letters that the loop looks for are those of the columns that say so. -/
theorem Column.moved_iff (column : Column) :
    (column.char == 'R' || column.char == 'C') = column.moved := by cases column <;> rfl

theorem Entry.byteLen_status (entry : Entry) : byteLen entry.status = 3 := by
  simp only [Entry.status, byteLen_cons, byteLen_nil, Column.char_utf8Size]
  decide

theorem Entry.nul_not_mem_status (entry : Entry) : nul ∉ entry.status := by
  simp only [Entry.status, List.mem_cons, List.not_mem_nil, or_false, not_or]
  exact ⟨(Column.char_ne_nul _).symm, (Column.char_ne_nul _).symm, by decide⟩

theorem Entry.nul_not_mem_fields (entry : Entry) : ∀ field ∈ entry.fields, nul ∉ field := by
  intro field hfield
  rcases List.mem_cons.1 hfield with rfl | hold
  · rw [Entry.line, List.mem_append, not_or]
    exact ⟨entry.nul_not_mem_status, entry.path.noNul⟩
  · obtain ⟨old, _, rfl⟩ := List.mem_map.1 hold
    exact old.noNul

theorem Entry.fields_ne_nil (entry : Entry) : ∀ field ∈ entry.fields, field ≠ [] := by
  intro field hfield
  rcases List.mem_cons.1 hfield with rfl | hold
  · simp [Entry.line, Entry.status]
  · obtain ⟨old, _, rfl⟩ := List.mem_map.1 hold
    exact old.nonempty

theorem Status.nul_not_mem_header (status : Status) : ∀ field ∈ status.header, nul ∉ field := by
  intro field hfield
  obtain ⟨branch, _, rfl⟩ := List.mem_map.1 hfield
  rw [List.mem_append, not_or]
  exact ⟨by decide, branch.property⟩

theorem Status.nul_not_mem_fields (status : Status) : ∀ field ∈ status.fields, nul ∉ field := by
  intro field hfield
  rcases List.mem_append.1 hfield with hheader | hentry
  · exact status.nul_not_mem_header field hheader
  · obtain ⟨entry, _, hin⟩ := List.mem_flatMap.1 hentry
    exact entry.nul_not_mem_fields field hin

theorem Status.fields_ne_nil (status : Status) : ∀ field ∈ status.fields, field ≠ [] := by
  intro field hfield
  rcases List.mem_append.1 hfield with hheader | hentry
  · obtain ⟨branch, _, rfl⟩ := List.mem_map.1 hheader
    simp
  · obtain ⟨entry, _, hin⟩ := List.mem_flatMap.1 hentry
    exact entry.fields_ne_nil field hin

theorem Status.nonemptyFields_stdout (status : Status) :
    nonemptyFields status.stdout = status.fields := by
  have hkeep : status.fields.filter (fun record => !record.isEmpty) = status.fields := by
    refine List.filter_eq_self.2 fun field hfield => ?_
    simpa using status.fields_ne_nil field hfield
  rw [nonemptyFields, Status.stdout, terminated, splitOn_terminated status.nul_not_mem_fields,
    List.filter_append, hkeep]
  simp

/-- The output has a NUL unless it is empty. -/
theorem Status.nul_mem_stdout (status : Status) : nul ∈ status.stdout ↔ status.fields ≠ [] := by
  rw [Status.stdout, terminated]
  cases status.fields with
  | nil => simp
  | cons field fields => simp

/-! ### A record that is read as one -/

variable {pre : Text}

theorem Entry.splitBytes_line (entry : Entry) :
    splitBytes 3 entry.line = some (entry.status, entry.path.text) := by
  rw [Entry.line, ← entry.byteLen_status]
  exact splitBytes_append _ _

theorem Entry.four_le_byteLen (entry : Entry) : 4 ≤ byteLen entry.line := by
  have hpath : 0 < entry.path.text.length := List.length_pos_of_ne_nil entry.path.nonempty
  have hline : entry.line.length = entry.path.text.length + 3 := by simp [Entry.line, Entry.status]
  have := length_le_byteLen entry.line
  omega

theorem Entry.not_header (entry : Entry) : ['#', '#'].isPrefixOf entry.line = false := by
  have hne : ('#' == entry.index.char) = false := by
    simpa using (Column.char_ne_hash entry.index).symm
  simp [Entry.line, Entry.status, List.isPrefixOf, hne]

/-- The line of a record whose path lies under the workspace. -/
def Entry.kept (pre : Text) (entry : Entry) : Option Text :=
  (pre.isPrefixOf? entry.path.text).map fun path => entry.status ++ path

theorem Entry.rebaseRecord_line (entry : Entry) :
    rebaseRecord pre entry.line = some (terminated (entry.kept pre).toList) := by
  rw [rebaseRecord, if_neg (by simp [entry.not_header]),
    if_neg (by have := entry.four_le_byteLen; omega), entry.splitBytes_line, Entry.kept]
  cases h : pre.isPrefixOf? entry.path.text with
  | none | some path => simp [h, terminated]

theorem Entry.takesOld_line (entry : Entry) :
    takesOld pre entry.line = ((entry.kept pre).isSome && entry.index.moved) := by
  have hletter : (['R'].isPrefixOf entry.status || ['C'].isPrefixOf entry.status) =
      entry.index.moved := by
    rw [← Column.moved_iff]
    simp [Entry.status, List.isPrefixOf, Bool.beq_comm]
  rw [takesOld, entry.splitBytes_line, entry.not_header]
  simp only [hletter, Entry.kept, Option.isSome_map, Bool.not_false, Bool.true_and,
    decide_eq_true entry.four_le_byteLen]

theorem Status.header_record (status : Status) {field : Text} (h : field ∈ status.header) :
    rebaseRecord pre field = some (field ++ [nul]) ∧ takesOld pre field = false := by
  obtain ⟨branch, _, rfl⟩ := List.mem_map.1 h
  constructor
  · rw [rebaseRecord, if_pos (by simp [List.isPrefixOf])]
  · simp [takesOld, List.isPrefixOf]

/-! ### Which fields are read as records -/

theorem recordsRead_cons (record : Text) (rest : List Text) :
    recordsRead pre (record :: rest) =
      record :: recordsRead pre (if takesOld pre record then rest.tail else rest) := by
  cases rest with
  | nil => cases takesOld pre record <;> rfl
  | cons next rest =>
    rw [recordsRead]
    split <;> rfl

variable {entry : Entry}

theorem Entry.old_of_takesOld (h : takesOld pre entry.line = true) :
    ∃ old, entry.old = some old := by
  rw [entry.takesOld_line, Bool.and_eq_true] at h
  refine Option.isSome_iff_exists.1 ?_
  rw [entry.arity, h.2, Bool.true_or]

/-- Once a field too many is read, the loop never gets back in step: however the texts may coincide,
it ends up with a record too many. -/
theorem recordsRead_ne (entries : List Entry) : ∀ (extra : List Text), extra ≠ [] →
    recordsRead pre (extra ++ entries.flatMap Entry.fields) ≠ entries.map Entry.line := by
  induction entries with
  | nil =>
    intro extra hextra
    obtain ⟨record, rest, rfl⟩ := List.exists_cons_of_ne_nil hextra
    rw [List.flatMap_nil, List.append_nil, recordsRead_cons]
    exact List.cons_ne_nil _ _
  | cons entry entries ih =>
    intro extra hextra heq
    obtain ⟨record, rest, rfl⟩ := List.exists_cons_of_ne_nil hextra
    rw [List.cons_append, recordsRead_cons, List.map_cons, List.flatMap_cons,
      ← List.append_assoc, List.cons.injEq] at heq
    obtain ⟨rfl, hrest⟩ := heq
    split at hrest
    case isFalse => exact ih _ (by simp [Entry.fields]) hrest
    case isTrue htakes =>
      -- the record that was read too early takes the next one for its old path
      obtain ⟨old, hold⟩ := Entry.old_of_takesOld htakes
      have hlong : rest ++ entry.fields = rest ++ [entry.line, old.text] := by
        simp [Entry.fields, hold]
      rw [hlong] at hrest
      cases rest with
      | nil => exact ih [old.text] (by simp) hrest
      | cons first rest => exact ih (rest ++ [entry.line, old.text]) (by simp) hrest

/-- **The loop stays in step exactly if every old path belongs to a record that is kept and says in
its first column that it moved.** -/
theorem recordsRead_iff (entries : List Entry) :
    recordsRead pre (entries.flatMap Entry.fields) = entries.map Entry.line ↔
      ∀ entry ∈ entries, entry.old.isSome = takesOld pre entry.line := by
  induction entries with
  | nil => simp [recordsRead]
  | cons entry entries ih =>
    rw [List.flatMap_cons, Entry.fields, List.cons_append, recordsRead_cons, List.map_cons,
      List.cons.injEq, List.forall_mem_cons, ← ih]
    cases hold : entry.old with
    | none =>
      have htakes : takesOld pre entry.line = false := by
        rw [Bool.eq_false_iff]
        intro h
        obtain ⟨old, hsome⟩ := Entry.old_of_takesOld h
        rw [hold] at hsome
        cases hsome
      simp [htakes]
    | some old =>
      cases htakes : takesOld pre entry.line with
      | true => simp
      | false =>
        refine iff_of_false (fun h => ?_) (by simp)
        exact recordsRead_ne entries [old.text] (by simp) h.2

theorem Status.recordsRead_fields (status : Status) :
    recordsRead pre status.fields = status.records ↔
      ∀ entry ∈ status.entries, entry.old.isSome = takesOld pre entry.line := by
  rw [← recordsRead_iff, Status.fields, Status.records]
  cases hbranch : status.branch with
  | none => simp [Status.header, hbranch]
  | some branch =>
    have hfield : ['#', '#', ' '] ++ branch.val ∈ status.header := by simp [Status.header, hbranch]
    rw [show status.header = [['#', '#', ' '] ++ branch.val] by simp [Status.header, hbranch],
      List.singleton_append, recordsRead_cons, (status.header_record hfield).2]
    simp

/-! ### What is pushed -/

theorem mapM_eq_some_map {α β : Type} {f : α → Option β} {g : α → β} {l : List α}
    (h : ∀ a ∈ l, f a = some (g a)) : l.mapM f = some (l.map g) := by
  induction l with
  | nil => rfl
  | cons a l ih =>
    rw [List.mapM_cons, h a (by simp), ih fun b hb => h b (List.mem_cons_of_mem _ hb)]
    rfl

theorem terminated_append (fields others : List Text) :
    terminated (fields ++ others) = terminated fields ++ terminated others := List.flatMap_append

/-- A loop that stays in step pushes the lines that are kept, and nothing else. -/
theorem Status.rebase_in_step (status : Status) :
    (status.records.mapM (rebaseRecord pre)).map List.flatten =
      some (terminated (status.header ++ status.entries.filterMap (Entry.kept pre))) := by
  have hheader : status.header.mapM (rebaseRecord pre) =
      some (status.header.map fun field => field ++ [nul]) :=
    mapM_eq_some_map fun field hfield => (status.header_record hfield).1
  have hentries : (status.entries.map Entry.line).mapM (rebaseRecord pre) =
      some (status.entries.map fun entry => terminated (entry.kept pre).toList) := by
    rw [List.mapM_map]
    exact mapM_eq_some_map fun entry _ => entry.rebaseRecord_line
  have hkept : (status.entries.map fun entry => terminated (entry.kept pre).toList).flatten =
      terminated (status.entries.filterMap (Entry.kept pre)) := by
    induction status.entries with
    | nil => rfl
    | cons entry entries ih =>
      rw [List.map_cons, List.flatten_cons, ih, ← terminated_append]
      cases hkept : entry.kept pre with
      | none => simp [hkept]
      | some line => simp [hkept]
  rw [Status.records, List.mapM_append, hheader, hentries, terminated_append, ← hkept]
  simp [terminated, List.flatMap]

/-! ### Counting the fields -/

variable {fields : List Text}

theorem count_nul_terminated (h : ∀ field ∈ fields, nul ∉ field) :
    (terminated fields).count nul = fields.length := by
  induction fields with
  | nil => rfl
  | cons field fields ih =>
    have hfield : field.count nul = 0 := List.count_eq_zero.2 (h field (by simp))
    have hrest := ih fun other hother => h other (List.mem_cons_of_mem _ hother)
    rw [terminated] at hrest ⊢
    rw [List.flatMap_cons, List.count_append, List.count_append, hfield, hrest]
    simp
    omega

variable {path : Text}

theorem nul_not_mem_of_isPrefixOf {rest : Text} (h : pre.isPrefixOf? path = some rest)
    (hpath : nul ∉ path) : nul ∉ rest := by
  rw [List.isPrefixOf?_eq_some_iff_append_eq] at h
  rw [← h, List.mem_append, not_or] at hpath
  exact hpath.2

theorem Entry.nul_not_mem_kept {line : Text} (h : entry.kept pre = some line) : nul ∉ line := by
  obtain ⟨path, hpath, rfl⟩ := Option.map_eq_some_iff.1 h
  rw [List.mem_append, not_or]
  exact ⟨entry.nul_not_mem_status, nul_not_mem_of_isPrefixOf hpath entry.path.noNul⟩

theorem nul_not_mem_cutOff (h : nul ∉ path) : nul ∉ cutOff pre path := by
  rw [cutOff]
  cases hrest : pre.isPrefixOf? path with
  | none => exact h
  | some rest => exact nul_not_mem_of_isPrefixOf hrest h

/-- A record that should be kept has its line and its old path. -/
theorem Entry.rebase_eq (entry : Entry) : entry.rebase pre = (entry.kept pre).map fun line =>
      line :: entry.old.toList.map fun old => cutOff pre old.text := by
  rw [Entry.rebase, Entry.kept, Option.map_map]
  rfl

theorem Entry.nul_not_mem_rebase (h : entry.rebase pre = some fields) :
    ∀ field ∈ fields, nul ∉ field := by
  rw [entry.rebase_eq] at h
  obtain ⟨line, hline, rfl⟩ := Option.map_eq_some_iff.1 h
  intro field hfield
  rcases List.mem_cons.1 hfield with rfl | hold
  · exact Entry.nul_not_mem_kept hline
  · obtain ⟨old, _, rfl⟩ := List.mem_map.1 hold
    exact nul_not_mem_cutOff old.noNul

/-- The fields that should be pushed: one for each record that is kept, and one for each of its old
paths. -/
theorem length_rebase (entries : List Entry) :
    (entries.filterMap (Entry.rebase pre)).flatten.length =
      (entries.filterMap (Entry.kept pre)).length +
        entries.countP fun entry => (entry.kept pre).isSome && entry.old.isSome := by
  induction entries with
  | nil => rfl
  | cons entry entries ih =>
    rw [List.filterMap_cons, List.filterMap_cons, List.countP_cons, entry.rebase_eq]
    cases hkept : entry.kept pre with
    | none => simpa using ih
    | some line =>
      cases hold : entry.old with
      | none => simp [ih]; omega
      | some old => simp [ih]; omega

/-- Without old paths, what is kept is what should be. -/
theorem filterMap_rebase {entries : List Entry} (h : ∀ entry ∈ entries, entry.old = none) :
    (entries.filterMap (Entry.rebase pre)).flatten = entries.filterMap (Entry.kept pre) := by
  induction entries with
  | nil => rfl
  | cons entry entries ih =>
    rw [List.filterMap_cons, List.filterMap_cons, entry.rebase_eq, h entry (by simp)]
    have hrest := ih fun other hother => h other (List.mem_cons_of_mem _ hother)
    cases hkept : entry.kept pre with
    | none => simpa using hrest
    | some line => simpa using hrest

/-- If what is kept is all that should be pushed, no record that is kept has an old path. -/
theorem Status.old_of_rebase_eq {status : Status}
    (h : terminated (status.header ++ status.entries.filterMap (Entry.kept pre)) =
      status.rebase pre) :
    ∀ entry ∈ status.entries, ((entry.kept pre).isSome && entry.old.isSome) = false := by
  have hcount := congrArg (List.count nul) h
  rw [Status.rebase, count_nul_terminated, count_nul_terminated, List.length_append,
    List.length_append, length_rebase] at hcount
  · have hzero : (status.entries.countP fun entry => (entry.kept pre).isSome && entry.old.isSome) =
        0 := by
      omega
    simpa [List.countP_eq_zero] using hzero
  · intro field hfield
    rcases List.mem_append.1 hfield with hheader | hentry
    · exact status.nul_not_mem_header field hheader
    · obtain ⟨fields, hfields, hin⟩ := List.mem_flatten.1 hentry
      obtain ⟨entry, _, heq⟩ := List.mem_filterMap.1 hfields
      exact Entry.nul_not_mem_rebase heq field hin
  · intro field hfield
    rcases List.mem_append.1 hfield with hheader | hentry
    · exact status.nul_not_mem_header field hheader
    · obtain ⟨entry, _, heq⟩ := List.mem_filterMap.1 hentry
      exact Entry.nul_not_mem_kept heq

/-! ### When the rewriting does what it should -/

theorem Status.rebase_nil (status : Status) : status.rebase [] = status.stdout := by
  have hentry : ∀ entry : Entry, entry.rebase [] = some entry.fields := by
    intro entry
    simp [Entry.rebase, List.isPrefixOf?, cutOff, Entry.fields, Entry.line]
  have hall : status.entries.filterMap (Entry.rebase []) = status.entries.map Entry.fields := by
    rw [funext hentry]
    simp
  rw [Status.rebase, hall, Status.stdout, Status.fields, List.flatMap]

/-- With something to cut off, the loop has to stay in step and keep no record with an old path. -/
theorem rebased_some_iff (status : Status) (hpre : pre ≠ []) :
    Rebased status (some pre) ↔ ∀ entry ∈ status.entries, entry.old = none := by
  have hfilter : (some pre).filter (fun pre => !pre.isEmpty) = some pre := by simpa using hpre
  have hgetD : (some pre).getD [] = pre := rfl
  by_cases hfields : status.fields = []
  · -- git printed nothing
    have hentries : status.entries = [] := by
      have := (List.append_eq_nil_iff.1 hfields).2
      cases hcase : status.entries with
      | nil => rfl
      | cons entry entries => simp [hcase, Entry.fields] at this
    have hheader : status.header = [] := (List.append_eq_nil_iff.1 hfields).1
    have hstdout : status.stdout = [] := by simp [Status.stdout, hfields, terminated]
    rw [Rebased, rebaseGitStatusStdout, fieldsRead, hfilter, hgetD, hstdout]
    simp [hentries, hheader, Status.rebase, Status.records, terminated, lines]
  · have hnul : nul ∈ status.stdout := status.nul_mem_stdout.2 hfields
    have hread : (∀ read ∈ fieldsRead status.stdout (some pre), read = status.records) ↔
        recordsRead pre status.fields = status.records := by
      simp [fieldsRead, hfilter, hnul, status.nonemptyFields_stdout]
    rw [Rebased, hread, rebaseGitStatusStdout, hfilter, hgetD]
    simp only [hnul, if_true, rebaseGitStatusNulStdout, status.nonemptyFields_stdout]
    constructor
    · rintro ⟨hout, hstep⟩ entry hentry
      rw [hstep, status.rebase_in_step, Option.some.injEq] at hout
      have hold := Status.old_of_rebase_eq hout entry hentry
      have htakes := status.recordsRead_fields.1 hstep entry hentry
      rw [entry.takesOld_line] at htakes
      cases hcase : entry.old with
      | none => rfl
      | some old => simp_all
    · intro hnone
      have hstep : recordsRead pre status.fields = status.records := by
        refine status.recordsRead_fields.2 fun entry hentry => ?_
        have harity := entry.arity
        rw [hnone entry hentry] at harity ⊢
        rw [entry.takesOld_line]
        cases hmoved : entry.index.moved with
        | false => simp
        | true => simp [hmoved] at harity
      refine ⟨?_, hstep⟩
      rw [hstep, status.rebase_in_step, Status.rebase, filterMap_rebase hnone]

/-- **The rewriting does what it should exactly on outputs without renames and copies**, or when
there is nothing to cut off: it succeeds, gives the records under the workspace without its path,
and reads only records as records. -/
theorem rebased_iff (status : Status) (pre : Option Text) :
    Rebased status pre ↔
      pre.getD [] = [] ∨
        ∀ entry ∈ status.entries, (entry.index.moved || entry.worktree.moved) = false := by
  have hmoved : (∀ entry ∈ status.entries, (entry.index.moved || entry.worktree.moved) = false) ↔
      ∀ entry ∈ status.entries, entry.old = none := by
    refine forall₂_congr fun entry _ => ?_
    rw [← entry.arity]
    simp
  rw [hmoved]
  cases pre with
  | none => simp [Rebased, rebaseGitStatusStdout, fieldsRead, status.rebase_nil]
  | some pre =>
    by_cases hpre : pre = []
    · have hfilter : (some pre).filter (fun pre => !pre.isEmpty) = none := by simp [hpre]
      rw [Rebased, rebaseGitStatusStdout, fieldsRead, hfilter]
      simp [hpre, status.rebase_nil]
    · rw [rebased_some_iff status hpre]
      simp [hpre]

/-! ### Renames -/

/-- A file was renamed to a path outside of the workspace `sub`. -/
def renamedAway (old : GitPath) : Status where
  branch := none
  entries := [⟨.renamed, .unmodified, ⟨['o', 't', 'h', 'e', 'r', '/', 'x'], by decide, by decide⟩,
    some old, rfl⟩]

/-- A file of `sub` was renamed. -/
def renamedInside : Status where
  branch := none
  entries := [⟨.renamed, .unmodified, ⟨['s', 'u', 'b', '/', 'x'], by decide, by decide⟩,
    some ⟨['s', 'u', 'b', '/', 'y'], by decide, by decide⟩, rfl⟩]

/-- The old path of a rename is lost; the old path of a rename out of the workspace is taken for a
record, and if its third byte is inside of a character, the agent panics. -/
theorem rename_not_rebased :
    (¬ Rebased renamedInside (some ['s', 'u', 'b', '/']) ∧
      rebaseGitStatusStdout renamedInside.stdout (some ['s', 'u', 'b', '/']) =
        some (['R', ' ', ' ', 'x'] ++ [nul])) ∧
      rebaseGitStatusStdout
        (renamedAway ⟨['a', ' ', ' ', 's', 'u', 'b', '/', 'y'], by decide, by decide⟩).stdout
        (some ['s', 'u', 'b', '/']) = some (['a', ' ', ' ', 'y'] ++ [nul]) ∧
      rebaseGitStatusStdout (renamedAway ⟨['a', 'a', 'é', 'x'], by decide, by decide⟩).stdout
        (some ['s', 'u', 'b', '/']) = none := by
  refine ⟨⟨?_, by decide⟩, by decide, by decide⟩
  rintro ⟨h, _⟩
  exact absurd h (by decide)

end RemoteMirror.Agent.Git
