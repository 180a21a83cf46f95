/-
**The search index of the mirror.**

The sidecar keeps the lines of each hydrated file in its database, with the trigrams of the bytes of
each line. A query of at least three bytes is looked up by one of its trigrams, the one with the
fewest lines, and only these lines are searched; a shorter query is searched in all lines.  A file
without an index is read line by line.

Main definitions:

* `Sidecar.SearchDb`, `Sidecar.SearchDb.replaceSearchIndexRows` — the three tables of the index;
* `Sidecar.SearchDb.replaceSearchIndexFromBytes` — the index of a file;
* `Sidecar.SearchDb.indexedGrepHits`, `Sidecar.legacyGrepFile` — the two searches.

Main results:

* `Sidecar.SearchDb.Indexed.gramRows_eq` — the rows of a trigram are the lines that contain it;
* `Sidecar.indexed_grep_eq_legacy` — **both searches find the same**.
-/

import RemoteMirror.AgentScan

namespace RemoteMirror.Sidecar

open Agent (fromUtf8 fromUtf8_eq_some)
open TextSlice

/-! ### Lines and trigrams -/

def searchTrigramBytes : ℕ := 3

/-- `DEFAULT_BATCH_MAX_FILE_BYTES` -/
def searchIndexMaxFileBytes : ℕ := 4 * 1024 * 1024

/-- `trim_end_matches(&['\r', '\n'][..])` -/
def trimLine (line : List Char) : List Char := line.rdropWhile fun c => c = '\r' || c = '\n'

/-- Numbers the lines from `index + 1` on. -/
def numberLines (index : ℕ) : List (List Char) → List (ℕ × List Char)
  | [] => []
  | line :: lines => (index + 1, trimLine line) :: numberLines (index + 1) lines

def indexedTextLines (text : List Char) : List (ℕ × List Char) :=
  numberLines 0 (splitInclusive '\n' text)

/-- `windows(size)` of a slice. -/
def windows (size : ℕ) (bytes : List UInt8) : List (List UInt8) :=
  bytes.tails.filterMap fun rest => if size ≤ rest.length then some (rest.take size) else none

/-- The windows that were not seen before. -/
def unseen (seen : List (List UInt8)) : List (List UInt8) → List (List UInt8)
  | [] => []
  | gram :: grams => if gram ∈ seen then unseen seen grams else gram :: unseen (gram :: seen) grams

def uniqueTrigrams (bytes : List UInt8) : List (List UInt8) :=
  if bytes.length < searchTrigramBytes then [] else unseen [] (windows searchTrigramBytes bytes)

def indexedLineTrigrams (lines : List (ℕ × List Char)) : List (List UInt8 × ℕ) :=
  lines.flatMap fun line => (uniqueTrigrams (utf8 line.2)).map fun gram => (gram, line.1)

/-! ### The tables -/

/-- A row of `search_lines`. -/
structure SearchLine where
  relativePath : String
  lineNumber : ℕ
  text : List Char
  deriving DecidableEq, Repr

/-- A row of `search_trigrams`. -/
structure SearchTrigram where
  gram : List UInt8
  relativePath : String
  lineNumber : ℕ
  deriving DecidableEq, Repr

inductive IndexState
  | ready
  | binary
  | tooLarge
  deriving DecidableEq, Repr

/-- A row of `search_files`. -/
structure SearchFile where
  relativePath : String
  localHash : String
  indexedBytes : ℕ
  lineCount : ℕ
  indexState : IndexState
  deriving DecidableEq, Repr

structure SearchDb where
  files : List SearchFile
  lines : List SearchLine
  trigrams : List SearchTrigram

inductive SearchIndexReadiness
  | ready
  | legacy
  deriving DecidableEq, Repr

namespace SearchDb

def empty : SearchDb := ⟨[], [], []⟩

/-- `INSERT OR IGNORE INTO search_trigrams` -/
def insertTrigram (rows : List SearchTrigram) (row : SearchTrigram) : List SearchTrigram :=
  if row ∈ rows then rows else rows ++ [row]

/-- Everything about a path is replaced, in one transaction.  The numbers of the lines are
different, so that no insertion fails because of its key. -/
def replaceSearchIndexRows (db : SearchDb) (relativePath localHash : String) (indexedBytes : ℕ)
    (indexState : IndexState) (lines : List (ℕ × List Char)) (trigrams : List (List UInt8 × ℕ)) :
    SearchDb where
  trigrams := (trigrams.map fun trigram => ⟨trigram.1, relativePath, trigram.2⟩).foldl insertTrigram
    (db.trigrams.filter fun row => row.relativePath ≠ relativePath)
  lines := (db.lines.filter fun row => row.relativePath ≠ relativePath) ++
    lines.map fun line => ⟨relativePath, line.1, line.2⟩
  files := (db.files.filter fun row => row.relativePath ≠ relativePath) ++
    [⟨relativePath, localHash, indexedBytes, lines.length, indexState⟩]

/-- The index of some bytes under a normalised path. -/
def indexBytes (db : SearchDb) (relativePath localHash : String) (content : List UInt8) :
    SearchDb × SearchIndexReadiness :=
  if searchIndexMaxFileBytes < content.length then
    (db.replaceSearchIndexRows relativePath localHash content.length .tooLarge [] [], .legacy)
  else
    match fromUtf8 content with
    | none =>
      (db.replaceSearchIndexRows relativePath localHash content.length .binary [] [], .legacy)
    | some text =>
      let lines := indexedTextLines text
      (db.replaceSearchIndexRows relativePath localHash content.length .ready lines
        (indexedLineTrigrams lines), .ready)

def replaceSearchIndexFromBytes (db : SearchDb) (path localHash : String) (content : List UInt8) :
    Except String (SearchDb × SearchIndexReadiness) := do
  let relativePath ← normalizedPath path
  return db.indexBytes relativePath localHash content

/-! ### The indexed search -/

/-- `SELECT COUNT(*) FROM search_trigrams WHERE relative_path=?1 AND gram=?2` -/
def countTrigram (db : SearchDb) (relativePath : String) (gram : List UInt8) : ℕ :=
  (db.trigrams.filter fun row => row.relativePath = relativePath && row.gram = gram).length

/-- The loop of `rarest_query_trigram`, with the best trigram so far. -/
def rarest (db : SearchDb) (relativePath : String) :
    Option (List UInt8 × ℕ) → List (List UInt8) → Option (List UInt8)
  | best, [] => best.map Prod.fst
  | best, gram :: grams =>
    let count := db.countTrigram relativePath gram
    if count = 0 then some gram
    else if best.all fun best => count < best.2 then db.rarest relativePath
        (some (gram, count)) grams
    else db.rarest relativePath best grams

def rarestQueryTrigram (db : SearchDb) (relativePath : String) (query : List Char) :
    Option (List UInt8) :=
  db.rarest relativePath none (uniqueTrigrams (utf8 query))

/-- `ORDER BY line_number ASC` -/
def orderByLine (rows : List (ℕ × List Char)) : List (ℕ × List Char) :=
  rows.mergeSort fun row other => row.1 ≤ other.1

/-- `SELECT line_number, text FROM search_lines WHERE relative_path=?1` -/
def linesOf (db : SearchDb) (relativePath : String) : List (ℕ × List Char) :=
  (db.lines.filter fun row => row.relativePath = relativePath).map fun row =>
    (row.lineNumber, row.text)

/-- The lines that are joined with the rows of a trigram. -/
def gramRows (db : SearchDb) (relativePath : String) (gram : List UInt8) : List (ℕ × List Char) :=
  (db.trigrams.filter fun row => row.relativePath = relativePath && row.gram =
    gram).flatMap fun row =>
    (db.lines.filter fun line =>
      line.relativePath = row.relativePath && line.lineNumber = row.lineNumber).map fun line =>
        (line.lineNumber, line.text)

end SearchDb

/-- The part of a mirror entry that a hit shows. -/
structure MirrorEntry where
  relativePath : String
  localPath : String
  dirty : Bool
  validationState : String
  deriving DecidableEq, Repr

structure CachedHit where
  path : String
  localPath : String
  line : ℕ
  column : ℕ
  text : List Char
  dirty : Bool
  validationState : String
  deriving DecidableEq, Repr

/-- The hit at the start of the first occurrence of a query in a line, if there is one. -/
def MirrorEntry.hit (entry : MirrorEntry) (query : List Char) (line : ℕ) (text : List Char) :
    Option CachedHit :=
  (splitOnce query text).map fun parts =>
    ⟨entry.relativePath, entry.localPath, line, byteLen parts.1 + 1, text, entry.dirty,
      entry.validationState⟩

/-- The loop over rows; the flag says that there are enough hits. -/
def grepIndexedRows (entry : MirrorEntry) (query : List Char) (remaining : ℕ)
    (hits : List CachedHit) : List (ℕ × List Char) → List CachedHit × Bool
  | [] => (hits, false)
  | (lineNumber, text) :: rows =>
    match entry.hit query lineNumber text with
    | none => grepIndexedRows entry query remaining hits rows
    | some hit =>
      if remaining ≤ (hits ++ [hit]).length then (hits ++ [hit], true)
      else grepIndexedRows entry query remaining (hits ++ [hit]) rows

def SearchDb.indexedGrepHits (db : SearchDb) (entry : MirrorEntry) (query : List Char)
    (remaining : ℕ) : List CachedHit × Bool :=
  if searchTrigramBytes ≤ (utf8 query).length then
    match db.rarestQueryTrigram entry.relativePath query with
    | some gram =>
      grepIndexedRows entry query remaining [] (orderByLine (db.gramRows entry.relativePath gram))
    | none => ([], false)
  else grepIndexedRows entry query remaining [] (orderByLine (db.linesOf entry.relativePath))

/-! ### The search line by line -/

/-- The loop of `read_line`: the hits, whether a line was no text, whether there are enough hits. -/
def legacyLines (entry : MirrorEntry) (query : List Char) (remaining : ℕ) (hits : List CachedHit)
    (lineNumber : ℕ) : List (List UInt8) → List CachedHit × Bool × Bool
  | [] => (hits, false, false)
  | line :: rest =>
    match fromUtf8 line with
    | none => (hits, true, false)
    | some text =>
      match entry.hit query (lineNumber + 1) (trimLine text) with
      | none => legacyLines entry query remaining hits (lineNumber + 1) rest
      | some hit =>
        if remaining ≤ (hits ++ [hit]).length then (hits ++ [hit], false, true)
        else legacyLines entry query remaining (hits ++ [hit]) (lineNumber + 1) rest

/-- `legacy_grep_file` on the content of the local file. -/
def legacyGrepFile (entry : MirrorEntry) (content : List UInt8) (query : List Char)
    (remaining : ℕ) : List CachedHit × Bool × Bool :=
  legacyLines entry query remaining [] 0 (splitInclusive 10 content)

/-! ### What trigrams say -/

variable {gram bytes : List UInt8}

theorem mem_windows {size : ℕ} : gram ∈ windows size bytes ↔ gram <:+: bytes ∧
    gram.length = size := by
  rw [windows, List.mem_filterMap, List.infix_iff_prefix_suffix]
  constructor
  · rintro ⟨rest, hrest, htake⟩
    split at htake
    case isTrue hsize =>
      cases htake
      exact ⟨⟨rest, List.take_prefix _ _, (List.mem_tails _ _).1 hrest⟩,
        List.length_take_of_le hsize⟩
    case isFalse => cases htake
  · rintro ⟨⟨rest, hprefix, hsuffix⟩, hlength⟩
    refine ⟨rest, (List.mem_tails _ _).2 hsuffix, ?_⟩
    rw [if_pos (hlength ▸ hprefix.length_le), ← hlength, ← List.prefix_iff_eq_take.1 hprefix]

variable {grams : List (List UInt8)}

theorem mem_unseen : ∀ {seen : List (List UInt8)}, gram ∈ unseen seen grams ↔
    gram ∈ grams ∧ gram ∉ seen := by
  induction grams with
  | nil => simp [unseen]
  | cons first grams ih =>
    intro seen
    rw [unseen]
    split
    case isTrue hseen =>
      rw [ih, List.mem_cons]
      constructor
      · exact fun h => ⟨.inr h.1, h.2⟩
      · rintro ⟨rfl | h, hnot⟩
        · exact absurd hseen hnot
        · exact ⟨h, hnot⟩
    case isFalse hseen =>
      rw [List.mem_cons, List.mem_cons, ih, List.mem_cons, not_or]
      constructor
      · rintro (rfl | ⟨h, -, hnot⟩)
        · exact ⟨.inl rfl, hseen⟩
        · exact ⟨.inr h, hnot⟩
      · rintro ⟨rfl | h, hnot⟩
        · exact .inl rfl
        · by_cases hsame : gram = first
          · exact .inl hsame
          · exact .inr ⟨h, hsame, hnot⟩

theorem nodup_unseen : ∀ (seen : List (List UInt8)), (unseen seen grams).Nodup := by
  induction grams with
  | nil => exact fun _ => List.nodup_nil
  | cons first grams ih =>
    intro seen
    rw [unseen]
    split
    · exact ih seen
    · refine List.nodup_cons.2 ⟨fun hmem => ?_, ih _⟩
      exact (mem_unseen.1 hmem).2 List.mem_cons_self

theorem mem_uniqueTrigrams :
    gram ∈ uniqueTrigrams bytes ↔ gram <:+: bytes ∧ gram.length = searchTrigramBytes := by
  rw [uniqueTrigrams]
  split
  case isTrue hshort =>
    refine ⟨fun h => (List.not_mem_nil h).elim, fun ⟨hwithin, hlength⟩ => ?_⟩
    have := hwithin.length_le
    omega
  case isFalse => simp [mem_unseen, mem_windows]

theorem nodup_uniqueTrigrams (bytes : List UInt8) : (uniqueTrigrams bytes).Nodup := by
  rw [uniqueTrigrams]
  split
  · exact List.nodup_nil
  · exact nodup_unseen []

variable {text : List Char}

/-- A text that is found is a part of the other one. -/
theorem eq_append_of_splitOnce {sep front rest : List Char}
    (h : splitOnce sep text = some (front, rest)) : text = front ++ sep ++ rest := by
  induction text generalizing front with
  | nil =>
    rw [splitOnce] at h
    split at h
    case isTrue hsep =>
      cases h
      rw [hsep]
      rfl
    case isFalse => cases h
  | cons c text ih =>
    rw [splitOnce] at h
    split at h
    case h_1 hprefix =>
      cases h
      exact (List.isPrefixOf?_eq_some_iff_append_eq.1 hprefix).symm
    case h_2 =>
      obtain ⟨parts, hparts, heq⟩ := Option.map_eq_some_iff.1 h
      cases heq
      rw [ih hparts]
      rfl

variable {entry : MirrorEntry} {query : List Char}

/-- **A line with the query has every trigram of the query.** -/
theorem mem_uniqueTrigrams_of_hit {line : ℕ} {hit : CachedHit}
    (hhit : entry.hit query line text = some hit) (hgram : gram ∈ uniqueTrigrams (utf8 query)) :
    gram ∈ uniqueTrigrams (utf8 text) := by
  obtain ⟨⟨front, rest⟩, hparts, -⟩ := Option.map_eq_some_iff.1 hhit
  obtain ⟨hwithin, hlength⟩ := mem_uniqueTrigrams.1 hgram
  refine mem_uniqueTrigrams.2 ⟨hwithin.trans ?_, hlength⟩
  rw [eq_append_of_splitOnce hparts, utf8_append, utf8_append]
  exact ⟨utf8 front, utf8 rest, rfl⟩

/-! ### Lines and their numbers -/

theorem lt_of_mem_numberLines {lines : List (List Char)} :
    ∀ {index : ℕ} {line : ℕ × List Char}, line ∈ numberLines index lines → index < line.1 := by
  induction lines with
  | nil => exact fun h => (List.not_mem_nil h).elim
  | cons first lines ih =>
    intro index line h
    rcases List.mem_cons.1 h with rfl | h
    · exact Nat.lt_succ_self index
    · exact Nat.lt_of_succ_lt (ih h)

/-- Lines are in the order of their numbers. -/
abbrev InOrder (lines : List (ℕ × List Char)) : Prop :=
  lines.Pairwise fun line other => line.1 < other.1

theorem numberLines_sorted (lines : List (List Char)) : ∀ index :
    ℕ, InOrder (numberLines index lines) := by
  induction lines with
  | nil => exact fun _ => List.Pairwise.nil
  | cons first lines ih =>
    exact fun index => List.pairwise_cons.2 ⟨fun _ hother => lt_of_mem_numberLines hother,
      ih (index + 1)⟩

theorem indexedTextLines_sorted (text : List Char) : InOrder (indexedTextLines text) :=
  numberLines_sorted _ 0

variable {rows : List (ℕ × List Char)}

theorem orderByLine_eq (h : InOrder rows) : SearchDb.orderByLine rows = rows :=
  List.mergeSort_of_pairwise (h.imp fun hlt => decide_eq_true (Nat.le_of_lt hlt))

/-- Each number belongs to one line. -/
theorem filter_number {lines : List (ℕ × List Char)} (h : InOrder lines)
    {line : ℕ × List Char} (hline : line ∈ lines) :
    (lines.filter fun other => other.1 = line.1) = [line] := by
  induction lines with
  | nil => cases hline
  | cons first lines ih =>
    obtain ⟨hfirst, hrest⟩ := List.pairwise_cons.1 h
    rcases List.mem_cons.1 hline with rfl | hline
    · have hnone : (lines.filter fun other => other.1 = line.1) = [] := by
        refine List.filter_eq_nil_iff.2 fun other hother => ?_
        have := hfirst other hother
        simp only [decide_eq_true_eq]
        omega
      rw [List.filter_cons_of_pos (by simp), hnone]
    · have hlt := hfirst line hline
      rw [List.filter_cons_of_neg (by simp only [decide_eq_true_eq]; omega), ih hrest hline]

/-! ### Files with an index -/

namespace SearchDb

/-- The lines of a text that contain a trigram. -/
def gramLines (text : List Char) (gram : List UInt8) : List (ℕ × List Char) :=
  (indexedTextLines text).filter fun line => gram ∈ uniqueTrigrams (utf8 line.2)

/-- The rows of a path are those of a text. -/
structure Indexed (db : SearchDb) (relativePath : String) (text : List Char) : Prop where
  lines : db.linesOf relativePath = indexedTextLines text
  trigrams : ∀ gram, (db.trigrams.filter fun row => row.relativePath = relativePath &&
    row.gram = gram).map
    SearchTrigram.lineNumber = (gramLines text gram).map Prod.fst

variable {db : SearchDb} {relativePath : String}

/-- **The rows that are joined with a trigram are the lines that contain it.** -/
theorem Indexed.gramRows_eq (h : db.Indexed relativePath text) (gram : List UInt8) :
    db.gramRows relativePath gram = gramLines text gram := by
  have hjoin : db.gramRows relativePath gram =
      ((db.trigrams.filter fun row => row.relativePath = relativePath && row.gram = gram).map
        SearchTrigram.lineNumber).flatMap fun number =>
          (db.linesOf relativePath).filter fun line => line.1 = number := by
    rw [gramRows, List.flatMap_map]
    refine List.flatMap_congr fun row hrow => ?_
    have hpath : row.relativePath = relativePath := by
      have := List.of_mem_filter hrow
      simp only [Bool.and_eq_true, decide_eq_true_eq] at this
      exact this.1
    rw [linesOf, List.filter_map, List.filter_filter, hpath]
    refine congrArg (List.map _) (List.filter_congr fun line _ => ?_)
    rw [Bool.and_comm]
    rfl
  rw [hjoin, h.trigrams, h.lines, List.flatMap_map]
  have hone : (gramLines text gram).flatMap (fun line =>
      (indexedTextLines text).filter fun other => other.1 = line.1) =
        (gramLines text gram).flatMap fun line => [line] :=
    List.flatMap_congr fun line hline =>
      filter_number (indexedTextLines_sorted text) (List.mem_of_mem_filter hline)
  rw [hone, List.flatMap_singleton']

/-! ### Building the index -/

variable {new : List SearchTrigram}

/-- New rows are appended. -/
theorem foldl_insertTrigram : ∀ {rows : List SearchTrigram}, new.Nodup → (∀ row ∈ new, row ∉ rows) →
      new.foldl insertTrigram rows = rows ++ new := by
  induction new with
  | nil => exact fun _ _ => (List.append_nil _).symm
  | cons row new ih =>
    intro rows hnodup hnew
    obtain ⟨hrow, hrest⟩ := List.nodup_cons.1 hnodup
    rw [List.foldl_cons, insertTrigram, if_neg (hnew row List.mem_cons_self), ih hrest,
      List.append_assoc]
    · rfl
    · intro other hother hmem
      rcases List.mem_append.1 hmem with hmem | hmem
      · exact hnew other (List.mem_cons_of_mem _ hother) hmem
      · exact hrow (List.mem_singleton.1 hmem ▸ hother)

/-- Rows of other paths do not matter. -/
theorem filter_foldl_insertTrigram {keep : SearchTrigram → Bool} :
    ∀ {rows : List SearchTrigram}, (∀ row ∈ new, keep row = false) →
      (new.foldl insertTrigram rows).filter keep = rows.filter keep := by
  induction new with
  | nil => exact fun _ => rfl
  | cons row new ih =>
    intro rows hnew
    obtain ⟨hrow, hrest⟩ := List.forall_mem_cons.1 hnew
    rw [List.foldl_cons, ih hrest, insertTrigram]
    split
    · rfl
    · rw [List.filter_append, List.filter_cons_of_neg (by simp [hrow]), List.filter_nil,
        List.append_nil]

variable {lines : List (ℕ × List Char)}

/-- The trigrams of a text are different rows. -/
theorem nodup_indexedLineTrigrams (h : InOrder lines) : (indexedLineTrigrams lines).Nodup := by
  rw [indexedLineTrigrams, List.nodup_flatMap]
  refine ⟨fun line _ => ?_, h.imp fun hlt => ?_⟩
  · exact (nodup_uniqueTrigrams _).map fun gram other heq => (Prod.mk.inj heq).1
  · intro row hrow hother
    obtain ⟨_, _, rfl⟩ := List.mem_map.1 hrow
    obtain ⟨_, _, heq⟩ := List.mem_map.1 hother
    have := (Prod.mk.inj heq).2
    omega

/-- The lines a trigram was stored for. -/
theorem filter_indexedLineTrigrams (lines : List (ℕ × List Char)) (gram : List UInt8) :
    ((indexedLineTrigrams lines).filter fun row => row.1 = gram).map Prod.snd =
      (lines.filter fun line => gram ∈ uniqueTrigrams (utf8 line.2)).map Prod.fst := by
  induction lines with
  | nil => rfl
  | cons line lines ih =>
    have hline : (((uniqueTrigrams (utf8 line.2)).map fun gram => (gram, line.1)).filter
        fun row => row.1 = gram).map Prod.snd =
          if gram ∈ uniqueTrigrams (utf8 line.2) then [line.1] else [] := by
      rw [List.filter_map, List.map_map]
      have hfilter : (uniqueTrigrams (utf8 line.2)).filter
          ((fun row : List UInt8 × ℕ => decide (row.1 = gram)) ∘ fun gram => (gram, line.1)) =
            List.replicate ((uniqueTrigrams (utf8 line.2)).count gram) gram := by
        rw [← List.filter_eq]
        rfl
      rw [hfilter]
      split
      case isTrue hmem => rw [List.count_eq_one_of_mem (nodup_uniqueTrigrams _) hmem]; rfl
      case isFalse hmem => rw [List.count_eq_zero_of_not_mem hmem]; rfl
    rw [indexedLineTrigrams, List.flatMap_cons, List.filter_append, List.map_append, hline,
      ← indexedLineTrigrams, ih, List.filter_cons]
    by_cases hmem : gram ∈ uniqueTrigrams (utf8 line.2) <;> simp [hmem]

/-- **The index of a text.** -/
theorem indexed_replace (db : SearchDb) (relativePath localHash : String) (bytes : ℕ)
    (text : List Char) :
    (db.replaceSearchIndexRows relativePath localHash bytes .ready (indexedTextLines text)
      (indexedLineTrigrams (indexedTextLines text))).Indexed relativePath text where
  lines := by
    have hold : (db.lines.filter fun row => row.relativePath ≠ relativePath).filter
        (fun row => row.relativePath = relativePath) = [] :=
      List.filter_eq_nil_iff.2 fun row hrow => by simpa using List.of_mem_filter hrow
    simp only [linesOf, replaceSearchIndexRows, List.filter_append, List.map_append]
    rw [hold, List.filter_eq_self.2, List.map_nil, List.nil_append, List.map_map]
    · exact List.map_id' _
    · intro row hrow
      obtain ⟨line, _, rfl⟩ := List.mem_map.1 hrow
      exact decide_eq_true rfl
  trigrams gram := by
    have hnew : ((indexedLineTrigrams (indexedTextLines text)).map fun trigram =>
        (⟨trigram.1, relativePath, trigram.2⟩ : SearchTrigram)).Nodup := by
      refine (nodup_indexedLineTrigrams (indexedTextLines_sorted text)).map fun row other heq => ?_
      obtain ⟨hgram, -, hline⟩ := SearchTrigram.mk.inj heq
      exact Prod.ext hgram hline
    have hfresh : ∀ row ∈ (indexedLineTrigrams (indexedTextLines text)).map fun trigram =>
        (⟨trigram.1, relativePath, trigram.2⟩ : SearchTrigram),
        row ∉ db.trigrams.filter fun row => row.relativePath ≠ relativePath := by
      intro row hrow hmem
      obtain ⟨_, _, rfl⟩ := List.mem_map.1 hrow
      simpa using List.of_mem_filter hmem
    have hold : (db.trigrams.filter fun row => row.relativePath ≠ relativePath).filter
        (fun row => row.relativePath = relativePath && row.gram = gram) = [] := by
      refine List.filter_eq_nil_iff.2 fun row hrow => ?_
      have hne := List.of_mem_filter hrow
      simp only [ne_eq, decide_not, Bool.not_eq_true', decide_eq_false_iff_not] at hne
      simp [hne]
    rw [replaceSearchIndexRows, foldl_insertTrigram hnew hfresh, List.filter_append, hold,
      List.nil_append, List.filter_map, List.map_map, gramLines, ← filter_indexedLineTrigrams]
    refine congrArg (List.map _) (List.filter_congr fun row _ => ?_)
    simp

variable {localHash other : String}

/-- The lines of a file do not depend on other files. -/
theorem linesOf_replace_other {bytes : ℕ} {state : IndexState} {trigrams : List (List UInt8 × ℕ)}
    (hne : other ≠ relativePath) :
    (db.replaceSearchIndexRows other localHash bytes state lines trigrams).linesOf relativePath =
      db.linesOf relativePath := by
  have hnew : (lines.map fun line => (⟨other, line.1, line.2⟩ : SearchLine)).filter
      (fun row => row.relativePath = relativePath) = [] := by
    refine List.filter_eq_nil_iff.2 fun row hrow => ?_
    obtain ⟨line, _, rfl⟩ := List.mem_map.1 hrow
    simpa using hne
  simp only [linesOf, replaceSearchIndexRows, List.filter_append, List.filter_filter,
    List.map_append]
  rw [hnew, List.map_nil, List.append_nil]
  refine congrArg (List.map _) (List.filter_congr fun row _ => ?_)
  by_cases hpath : row.relativePath = relativePath <;> simp [hpath, Ne.symm hne]

/-- The index of a file does not depend on other files. -/
theorem Indexed.replace_other (h : db.Indexed relativePath text)
    (hne : other ≠ relativePath) (bytes : ℕ)
    (state : IndexState) (lines : List (ℕ × List Char)) (trigrams : List (List UInt8 × ℕ)) :
    (db.replaceSearchIndexRows other localHash bytes state lines trigrams).Indexed
      relativePath text where
  lines := by rw [linesOf_replace_other hne, h.lines]
  trigrams gram := by
    have hnew : ∀ row ∈ trigrams.map fun trigram => (⟨trigram.1, other, trigram.2⟩ : SearchTrigram),
        (decide (row.relativePath = relativePath) && decide (row.gram = gram)) = false := by
      intro row hrow
      obtain ⟨trigram, _, rfl⟩ := List.mem_map.1 hrow
      simp [hne]
    rw [← h.trigrams]
    simp only [replaceSearchIndexRows]
    rw [filter_foldl_insertTrigram hnew, List.filter_filter]
    refine congrArg (List.map _) (List.filter_congr fun row _ => ?_)
    by_cases hpath : row.relativePath = relativePath <;> simp [hpath, Ne.symm hne]

theorem Indexed.indexBytes_other (h : db.Indexed relativePath text) (hne : other ≠ relativePath)
    (content : List UInt8) :
    (db.indexBytes other localHash content).1.Indexed relativePath text := by
  unfold indexBytes
  split
  · exact h.replace_other hne _ _ _ _
  · split <;> exact h.replace_other hne _ _ _ _

theorem indexBytes_ready {db' : SearchDb} {content : List UInt8}
    (h : db.indexBytes relativePath localHash content = (db', .ready)) :
    ∃ text, fromUtf8 content = some text ∧ db'.Indexed relativePath text := by
  unfold indexBytes at h
  split at h
  case isTrue => cases h
  case isFalse =>
    split at h
    case h_1 => cases h
    case h_2 text htext =>
      cases h
      exact ⟨text, htext, indexed_replace _ _ _ _ _⟩

/-! ### The rarest trigram -/

variable {grams : List (List UInt8)}

/-- The trigram that is looked up is one of those that are given. -/
theorem mem_of_rarest :
    ∀ {best : Option (List UInt8 × ℕ)} {gram : List UInt8},
      db.rarest relativePath best grams = some gram →
      gram ∈ grams ∨ best.map Prod.fst = some gram := by
  induction grams with
  | nil => exact fun h => .inr h
  | cons first grams ih =>
    intro best gram h
    simp only [rarest] at h
    split at h
    case isTrue =>
      cases h
      exact .inl List.mem_cons_self
    case isFalse =>
      split at h
      case isTrue =>
        rcases ih h with hmem | hbest
        · exact .inl (List.mem_cons_of_mem _ hmem)
        · cases hbest
          exact .inl List.mem_cons_self
      case isFalse =>
        rcases ih h with hmem | hbest
        · exact .inl (List.mem_cons_of_mem _ hmem)
        · exact .inr hbest

/-- One is found if there is one. -/
theorem rarest_isSome (db : SearchDb) (relativePath : String) :
    ∀ {best : Option (List UInt8 × ℕ)}, best.isSome = true ∨ grams ≠ [] →
      (db.rarest relativePath best grams).isSome = true := by
  induction grams with
  | nil =>
    rintro best (hbest | hne)
    · rw [rarest, Option.isSome_map]
      exact hbest
    · exact absurd rfl hne
  | cons first grams ih =>
    intro best _
    simp only [rarest]
    split
    case isTrue => rfl
    case isFalse =>
      split
      case isTrue => exact ih (.inl rfl)
      case isFalse hall =>
        refine ih (.inl ?_)
        cases best with
        | none => exact absurd rfl hall
        | some _ => rfl

end SearchDb

/-! ### Both searches -/

/-- Rows without a hit do not matter. -/
theorem grepIndexedRows_filter {remaining : ℕ} {keep : ℕ × List Char → Bool} :
    ∀ {hits : List CachedHit}, (∀ row ∈ rows, keep row = false →
      entry.hit query row.1 row.2 = none) →
      grepIndexedRows entry query remaining hits (rows.filter keep) =
        grepIndexedRows entry query remaining hits rows := by
  induction rows with
  | nil => exact fun _ => rfl
  | cons row rows ih =>
    intro hits h
    obtain ⟨hrow, hrest⟩ := List.forall_mem_cons.1 h
    obtain ⟨number, text⟩ := row
    cases hkeep : keep (number, text) with
    | true =>
      rw [List.filter_cons_of_pos hkeep, grepIndexedRows, grepIndexedRows]
      split
      case h_1 => exact ih hrest
      case h_2 =>
        split
        · rfl
        · exact ih hrest
    | false =>
      rw [List.filter_cons_of_neg (by simp [hkeep]), ih hrest, grepIndexedRows, hrow hkeep]

/-- The search line by line is a search of the numbered lines. -/
theorem legacyLines_eq (entry : MirrorEntry) (query : List Char) (remaining : ℕ)
    (pieces : List (List Char)) :
    ∀ (hits : List CachedHit) (index : ℕ), legacyLines entry query remaining hits index
      (pieces.map utf8) =
        ((grepIndexedRows entry query remaining hits (numberLines index pieces)).1, false,
          (grepIndexedRows entry query remaining hits (numberLines index pieces)).2) := by
  induction pieces with
  | nil => exact fun _ _ => rfl
  | cons piece pieces ih =>
    intro hits index
    rw [List.map_cons, legacyLines, fromUtf8_eq_some.2 rfl, numberLines, grepIndexedRows]
    dsimp only
    split
    case h_1 => exact ih hits (index + 1)
    case h_2 =>
      split
      · rfl
      · exact ih _ (index + 1)

theorem legacyGrepFile_eq (entry : MirrorEntry) (text query : List Char) (remaining : ℕ) :
    legacyGrepFile entry (utf8 text) query remaining =
      ((grepIndexedRows entry query remaining [] (indexedTextLines text)).1, false,
        (grepIndexedRows entry query remaining [] (indexedTextLines text)).2) := by
  rw [legacyGrepFile, splitInclusive_utf8, legacyLines_eq, indexedTextLines]

/-- The indexed search is a search of all lines. -/
theorem SearchDb.Indexed.indexedGrepHits_eq {db : SearchDb} (h : db.Indexed entry.relativePath text)
    (query : List Char) (remaining : ℕ) : db.indexedGrepHits entry query remaining =
      grepIndexedRows entry query remaining [] (indexedTextLines text) := by
  rw [SearchDb.indexedGrepHits]
  split
  case isFalse => rw [h.lines, orderByLine_eq (indexedTextLines_sorted text)]
  case isTrue hlong =>
    -- a query of three bytes has a trigram
    have hne : uniqueTrigrams (utf8 query) ≠ [] := by
      have hmem : (utf8 query).take searchTrigramBytes ∈ uniqueTrigrams (utf8 query) :=
        mem_uniqueTrigrams.2 ⟨(List.take_prefix _ _).isInfix, List.length_take_of_le hlong⟩
      exact List.ne_nil_of_mem hmem
    have hsome : (db.rarest entry.relativePath none (uniqueTrigrams (utf8 query))).isSome = true :=
      SearchDb.rarest_isSome db entry.relativePath (.inr hne)
    obtain ⟨gram, hgram⟩ := Option.isSome_iff_exists.1 hsome
    have hmem : gram ∈ uniqueTrigrams (utf8 query) := by
      rcases SearchDb.mem_of_rarest hgram with hmem | hbest
      · exact hmem
      · cases hbest
    rw [SearchDb.rarestQueryTrigram, hgram]
    dsimp only
    rw [h.gramRows_eq, SearchDb.gramLines, orderByLine_eq ((indexedTextLines_sorted text).filter _)]
    refine grepIndexedRows_filter fun row _ hkeep => ?_
    cases hhit : entry.hit query row.1 row.2 with
    | none => rfl
    | some hit =>
      have hin := mem_uniqueTrigrams_of_hit hhit hmem
      simp [hin] at hkeep

/-- A file that is indexed. -/
structure ToIndex where
  path : String
  localHash : String
  content : List UInt8

/-- Other files are indexed. -/
def SearchDb.indexAll (db : SearchDb) : List ToIndex → SearchDb
  | [] => db
  | file :: files =>
    match db.replaceSearchIndexFromBytes file.path file.localHash file.content with
    | .ok (db, _) => db.indexAll files
    | .error _ => db.indexAll files

theorem SearchDb.Indexed.indexAll {relativePath : String} {files : List ToIndex} :
    ∀ {db : SearchDb}, db.Indexed relativePath text →
      (∀ file ∈ files, normalizedPath file.path ≠ .ok relativePath) →
      (db.indexAll files).Indexed relativePath text := by
  induction files with
  | nil => exact fun h _ => h
  | cons file files ih =>
    intro db h hfiles
    obtain ⟨hfile, hrest⟩ := List.forall_mem_cons.1 hfiles
    rw [SearchDb.indexAll, SearchDb.replaceSearchIndexFromBytes]
    cases hpath : normalizedPath file.path with
    | error error => exact ih h hrest
    | ok other =>
      have hne : other ≠ relativePath := by
        rintro rfl
        exact hfile hpath
      exact ih (h.indexBytes_other hne file.content) hrest

/-- **Indexed search equals the search line by line.** When the index of a file was built from its
content, and other files were indexed since then, both searches return the same hits in the same
order, and both say alike whether they stopped because there were enough of them. -/
theorem indexed_grep_eq_legacy (db db' : SearchDb) (path localHash : String) (content : List UInt8)
    (others : List ToIndex) (entry : MirrorEntry) (query : List Char) (remaining : ℕ)
    (hpath : normalizedPath path = .ok entry.relativePath)
    (hbuilt : db.replaceSearchIndexFromBytes path localHash content = .ok (db', .ready))
    (hothers : ∀ file ∈ others, normalizedPath file.path ≠ .ok entry.relativePath) :
    ((db'.indexAll others).indexedGrepHits entry query remaining).1 =
        (legacyGrepFile entry content query remaining).1 ∧
      ((db'.indexAll others).indexedGrepHits entry query remaining).2 =
        (legacyGrepFile entry content query remaining).2.2 ∧
      (legacyGrepFile entry content query remaining).2.1 = false := by
  rw [SearchDb.replaceSearchIndexFromBytes, hpath] at hbuilt
  obtain ⟨text, htext, hindexed⟩ := SearchDb.indexBytes_ready (Except.ok.inj hbuilt)
  rw [(hindexed.indexAll hothers).indexedGrepHits_eq, fromUtf8_eq_some.1 htext, legacyGrepFile_eq]
  exact ⟨rfl, rfl, rfl⟩

/-- The search for `née` in a text of three lines. -/
theorem indexed_grep_eq_legacy_unicode :
    ∃ db', SearchDb.empty.replaceSearchIndexFromBytes "a.txt" "h" (utf8 ['x', '\r', '\n', '\n',
      'n', 'é', 'e']) =
        .ok (db', .ready) ∧
      (db'.indexedGrepHits ⟨"a.txt", "/m/a.txt", false, "valid"⟩ ['n', 'é', 'e'] 5).1 =
        (legacyGrepFile ⟨"a.txt", "/m/a.txt", false, "valid"⟩
          (utf8 ['x', '\r', '\n', '\n', 'n', 'é', 'e']) ['n', 'é', 'e'] 5).1 ∧
      (legacyGrepFile ⟨"a.txt", "/m/a.txt", false, "valid"⟩
        (utf8 ['x', '\r', '\n', '\n', 'n', 'é', 'e']) ['n', 'é', 'e'] 5).1 =
          [⟨"a.txt", "/m/a.txt", 3, 1, ['n', 'é', 'e'], false, "valid"⟩] := by
  refine ⟨_, rfl, ?_, by decide +kernel⟩
  exact (indexed_grep_eq_legacy _ _ "a.txt" "h" _ [] _ ['n', 'é', 'e'] 5 (by decide +kernel) rfl
    (fun _ h => (List.not_mem_nil h).elim)).1

end RemoteMirror.Sidecar
