/-
**The reader that removes a leading byte-order mark.**

`LeadingBomReader` in `crates/nrm-sidecar/src/bom_reader.rs` takes one UTF-8 byte-order mark off the
front of a stream.  It collects up to three bytes before it delivers any, and keeps an error that
came with them for a later call.

Main definitions:

* `Bom.LeadingBomReader`, `Bom.LeadingBomReader.initializeReader`, `Bom.LeadingBomReader.read`;
* `Bom.withoutBom` — a stream without its leading mark;
* `Bom.LeadingBomReader.run`, `Bom.delivered` — reads with buffers of given sizes, and the bytes
  they delivered.

Main results:

* `Bom.Tracks.read` — what every read keeps;
* `Bom.reads_deliver` — **all reads deliver the stream without its mark**.
-/

import RemoteMirror.ByteSource

namespace RemoteMirror.Bom

open ByteSource

variable {ε : Type}

def utf8Bom : List UInt8 := [0xef, 0xbb, 0xbf]

/-- The reader; `leading` are the first `prefix_len` bytes of its prefix. -/
structure LeadingBomReader (ε : Type) where
  inner : Source ε
  leading : List UInt8
  offset : ℕ
  initialized : Bool
  pendingError : Option (ReadError ε)

namespace LeadingBomReader

def new (inner : Source ε) : LeadingBomReader ε := ⟨inner, [], 0, false, none⟩

/-- The loop of `initialize`: the bytes it has got, the error that stopped it, and the rest. -/
def collect (inner : Source ε) : List UInt8 × Option ε × Source ε := inner.gather utf8Bom.length []

/-- `initialize` -/
def initializeReader (reader : LeadingBomReader ε) :
    Except (ReadError ε) Unit × LeadingBomReader ε :=
  if reader.initialized then (.ok (), reader)
  else
    match collect reader.inner with
    | (got, some error, inner) =>
      if got.isEmpty then (.error (.other error), { reader with inner })
      else (.ok (), { reader with
        inner, leading := got, initialized := true, pendingError := some (.other error) })
    | (got, none, inner) =>
      (.ok (), { reader with
        inner, leading := if got = utf8Bom then [] else got, initialized := true })

/-- What `read` does with a buffer of `n` bytes once the reader is initialized. -/
def readOn (reader : LeadingBomReader ε) (n : ℕ) :
    Except (ReadError ε) (List UInt8) × LeadingBomReader ε :=
  let written := (reader.leading.drop reader.offset).take n
  let reader := { reader with offset := reader.offset + written.length }
  if written.length = n then (.ok written, reader)
  else
    match reader.pendingError with
    | some error =>
      if written.isEmpty then (.error error, { reader with pendingError := none })
      else (.ok written, reader)
    | none =>
      match reader.inner.read (n - written.length) with
      | (.ok bytes, inner) => (.ok (written ++ bytes), { reader with inner })
      | (.error error, inner) =>
        if written.isEmpty then (.error error, { reader with inner })
        else (.ok written, { reader with inner, pendingError := some error })

/-- `read`, with a buffer of `n` bytes -/
def read (reader : LeadingBomReader ε) (n : ℕ) :
    Except (ReadError ε) (List UInt8) × LeadingBomReader ε :=
  if n = 0 then (.ok [], reader)
  else
    match reader.initializeReader with
    | (.error error, reader) => (.error error, reader)
    | (.ok (), reader) => reader.readOn n

/-- Reads with buffers of these sizes. -/
def run (reader : LeadingBomReader ε) :
    List ℕ → List (Except (ReadError ε) (List UInt8)) × LeadingBomReader ε
  | [] => ([], reader)
  | n :: sizes =>
    let (outcome, reader) := reader.read n
    let (outcomes, reader) := reader.run sizes
    (outcome :: outcomes, reader)

end LeadingBomReader

/-- A stream without its leading mark. -/
def withoutBom (bytes : List UInt8) : List UInt8 :=
  if utf8Bom.isPrefixOf bytes then bytes.drop utf8Bom.length else bytes

/-- The bytes that reads have delivered. -/
def delivered (outcomes : List (Except (ReadError ε) (List UInt8))) : List UInt8 :=
  outcomes.flatMap fun outcome => (outcome.toOption).getD []

theorem delivered_cons (outcome : Except (ReadError ε) (List UInt8))
    (outcomes : List (Except (ReadError ε) (List UInt8))) :
    delivered (outcome :: outcomes) = outcome.toOption.getD [] ++ delivered outcomes := rfl

variable {bytes : List UInt8}

/-- Behind the first three bytes the mark does not matter any more. -/
theorem withoutBom_append (h : utf8Bom.length ≤ bytes.length) (more : List UInt8) :
    withoutBom (bytes ++ more) = withoutBom bytes ++ more := by
  have hiff : utf8Bom.isPrefixOf (bytes ++ more) = utf8Bom.isPrefixOf bytes := by
    rw [Bool.eq_iff_iff, List.isPrefixOf_iff_prefix, List.isPrefixOf_iff_prefix]
    refine ⟨fun hfull => ?_, fun hbytes => hbytes.trans (List.prefix_append _ _)⟩
    exact List.prefix_of_prefix_length_le hfull (List.prefix_append _ _) h
  rw [withoutBom, withoutBom, hiff]
  split
  · exact List.drop_append_of_le_length h
  · rfl

theorem withoutBom_of_length (h : bytes.length ≤ utf8Bom.length) :
    withoutBom bytes = if bytes = utf8Bom then [] else bytes := by
  by_cases hbom : bytes = utf8Bom
  · rw [hbom]
    rfl
  · rw [withoutBom, if_neg hbom, if_neg]
    intro hprefix
    exact hbom ((List.isPrefixOf_iff_prefix.1 hprefix).eq_of_length_le h).symm

/-! ### One read -/

/-- The reader has used some marks of the source, and delivered their bytes except those it still
has. -/
structure Tracks (source : Source ε) (used : List (Option UInt8)) (out : List UInt8)
    (reader : LeadingBomReader ε) : Prop where
  marks : source.marks = used ++ reader.inner.marks
  ending : reader.inner.ending = source.ending
  fresh : reader.initialized = false →
    out = [] ∧ used.reduceOption = [] ∧ reader.leading = [] ∧ reader.offset = 0 ∧
    reader.pendingError = none
  kept : reader.initialized = true → out ++ reader.leading.drop reader.offset =
    withoutBom used.reduceOption ∧
    (utf8Bom.length ≤ used.reduceOption.length ∨ reader.inner.marks = [])
  interrupted : reader.pendingError = some .interrupted →
    reader.leading.drop reader.offset = [] ∧ ∃ before, used = before ++ [none]
  other : ∀ error, reader.pendingError = some (.other error) →
    reader.inner.marks = [] ∧ source.ending = some error

/-- When a read may report what it reports, after the bytes `out` were delivered. -/
def Report (source : Source ε) (out : List UInt8) (n : ℕ) : Except (ReadError ε) (List UInt8) → Prop
  | .ok bytes => bytes.length ≤ n ∧
      (n ≠ 0 → bytes = [] → source.ending = none ∧ out = withoutBom source.content)
  | .error .interrupted => ∃ before after, source.marks = before ++ none :: after ∧
      out = withoutBom before.reduceOption
  | .error (.other error) => source.ending = some error ∧ out = withoutBom source.content

/-- What the reader has not delivered or reported yet. -/
def left (reader : LeadingBomReader ε) : ℕ :=
  reader.inner.marks.length + (reader.leading.drop reader.offset).length +
    match reader.pendingError with
    | some .interrupted => 1
    | _ => 0

variable {source : Source ε} {used : List (Option UInt8)} {out : List UInt8}
  {reader : LeadingBomReader ε}

theorem Tracks.new (source : Source ε) : Tracks source [] [] (LeadingBomReader.new source) :=
  ⟨rfl, rfl, fun _ => ⟨rfl, rfl, rfl, rfl, rfl⟩, nofun, nofun, nofun⟩

section Reading

variable (h : Tracks source used out reader)
include h

/-- Once everything is used, all bytes of the source are accounted for. -/
theorem Tracks.content (hmarks : reader.inner.marks = []) : source.content = used.reduceOption := by
  rw [Source.content, h.marks, hmarks, List.append_nil]

theorem Tracks.initializeReader :
    ∃ used', Tracks source used' out reader.initializeReader.2 ∧
      left reader.initializeReader.2 ≤ left reader ∧ match reader.initializeReader.1 with
      | .ok () => reader.initializeReader.2.initialized = true
      | .error error =>
        left reader.initializeReader.2 = 0 ∧ ∀ n, Report source out n (.error error) := by
  cases hinit : reader.initialized with
  | true =>
    simp only [LeadingBomReader.initializeReader, hinit, if_true]
    exact ⟨used, h, Nat.le_refl _, trivial⟩
  | false =>
    obtain ⟨rfl, hused, hleading, hoffset, hpending⟩ := h.fresh hinit
    obtain ⟨more, hmore⟩ := reader.inner.gather_spec utf8Bom.length [] (by decide)
    simp only [LeadingBomReader.initializeReader, LeadingBomReader.collect, hinit,
      Bool.false_eq_true, if_false]
    generalize reader.inner.gather utf8Bom.length [] = result at hmore
    obtain ⟨got, failure, inner⟩ := result
    obtain ⟨hmarks, hending, hgot, hlength, hdone, hfailed⟩ := hmore
    simp only [List.nil_append] at hmarks hending hgot hlength hdone hfailed
    have hbytes : (used ++ more).reduceOption = got := by
      rw [List.reduceOption_append, hused, List.nil_append, hgot]
    have hall : source.marks = used ++ more ++ inner.marks := by
      rw [h.marks, hmarks, List.append_assoc]
    have hshort : got.length ≤ more.length := by
      rw [hgot]
      exact List.reduceOption_length_le _
    have hleft : left reader = more.length + inner.marks.length := by
      simp [left, hleading, hpending, hmarks]
    refine ⟨used ++ more, ?_⟩
    cases failure with
    | none =>
      refine ⟨⟨hall, hending.trans h.ending, nofun, fun _ => ?_, ?_, ?_⟩, ?_, rfl⟩
      · rw [hbytes, withoutBom_of_length hlength, hoffset]
        exact ⟨rfl, (hdone rfl).imp_right And.left⟩
      · simp [hpending]
      · simp [hpending]
      · rw [hleft]
        simp only [left, hpending, hoffset, List.drop_zero]
        split
        · simp
        · omega
    | some error =>
      obtain ⟨hlt, hnil, herror⟩ := hfailed error rfl
      rw [h.ending] at herror
      cases hempty : got.isEmpty with
      | true =>
        have hgotNil : got = [] := List.isEmpty_iff.1 hempty
        simp only [hempty, if_true]
        refine ⟨⟨hall, hending.trans h.ending, fun _ => ?_, ?_, ?_, ?_⟩, ?_, ?_,
          fun n => ⟨herror, ?_⟩⟩
        · exact ⟨rfl, hbytes.trans hgotNil, hleading, hoffset, hpending⟩
        · simp
        · simp [hpending]
        · simp [hpending]
        · simp [left, hnil, hleading, hpending]
        · simp [left, hnil, hleading, hpending]
        · rw [Source.content, hall, hnil, List.append_nil, hbytes, hgotNil]
          rfl
      | false =>
        simp only [hempty, Bool.false_eq_true, if_false]
        refine ⟨⟨hall, hending.trans h.ending, by simp, fun _ => ?_, by simp, ?_⟩, ?_, trivial⟩
        · -- an error within the first three bytes: they are no mark
          have hne : got ≠ utf8Bom := by
            rintro rfl
            exact absurd hlt (Nat.lt_irrefl _)
          rw [hbytes, withoutBom_of_length hlength, if_neg hne, hoffset]
          exact ⟨rfl, .inr hnil⟩
        · rintro other ⟨⟩
          exact ⟨hnil, herror⟩
        · rw [hleft]
          simp only [left, hoffset, List.drop_zero]
          omega

/-- Bytes that the reader has kept go out first. -/
theorem Tracks.deliver (n : ℕ) :
    Tracks source used (out ++ (reader.leading.drop reader.offset).take n)
        { reader with offset := reader.offset + ((reader.leading.drop reader.offset).take n).length
          } ∧
      left { reader with offset := reader.offset +
        ((reader.leading.drop reader.offset).take n).length } +
        ((reader.leading.drop reader.offset).take n).length = left reader ∧
      (((reader.leading.drop reader.offset).take n).length ≠ n →
        reader.leading.drop (reader.offset + ((reader.leading.drop reader.offset).take n).length) =
        []) := by
  have hrest : reader.leading.drop
    (reader.offset + ((reader.leading.drop reader.offset).take n).length) =
      (reader.leading.drop reader.offset).drop n := by
    rw [← List.drop_drop, List.length_take]
    rcases Nat.le_total n (reader.leading.drop reader.offset).length with hle | hle
    · rw [Nat.min_eq_left hle]
    · rw [Nat.min_eq_right hle, List.drop_length, List.drop_of_length_le hle]
  have hsplit := List.take_append_drop n (reader.leading.drop reader.offset)
  refine ⟨⟨h.marks, h.ending, fun hinit => ?_, fun hinit => ?_, fun hpending => ?_, h.other⟩, ?_,
    fun hshort => ?_⟩
  · obtain ⟨rfl, hused, hleading, hoffset, hpending⟩ := h.fresh hinit
    simp [hused, hleading, hoffset, hpending]
  · simp only [hrest, List.append_assoc, hsplit]
    exact h.kept hinit
  · refine ⟨?_, (h.interrupted hpending).2⟩
    rw [hrest, (h.interrupted hpending).1, List.drop_nil]
  · have hcount := congrArg List.length hsplit
    rw [List.length_append] at hcount
    simp only [left, hrest]
    omega
  · rw [hrest]
    refine List.drop_of_length_le ?_
    rw [List.length_take] at hshort
    omega

variable {error : ReadError ε}

/-- An error that was kept is reported when all bytes are out. -/
theorem Tracks.takePending (hinit : reader.initialized = true)
    (hdrained : reader.leading.drop reader.offset = [])
    (hpending : reader.pendingError = some error) (n : ℕ) :
    Tracks source used out { reader with pendingError := none } ∧
      Report source out n (.error error) ∧
      (left { reader with pendingError := none } < left reader ∨
      left { reader with pendingError := none } = 0) := by
  obtain ⟨hkept, hstable⟩ := h.kept hinit
  have hout : out = withoutBom used.reduceOption := by
    rw [← hkept, hdrained, List.append_nil]
  refine ⟨⟨h.marks, h.ending, ?_, h.kept, nofun, nofun⟩, ?_, ?_⟩
  · simp [hinit]
  · cases error with
    | interrupted =>
      obtain ⟨before, rfl⟩ := (h.interrupted hpending).2
      refine ⟨before, reader.inner.marks, ?_, ?_⟩
      · rw [h.marks, List.append_assoc, List.singleton_append]
      · rw [hout, List.reduceOption_append]
        simp
    | other error =>
      obtain ⟨hnil, hending⟩ := h.other error hpending
      exact ⟨hending, by rw [h.content hnil, hout]⟩
  · cases error with
    | interrupted => simp [left, hpending, hdrained]
    | other error => simp [left, hdrained, (h.other error hpending).1]

variable {n : ℕ} {inner : Source ε}

/-- Bytes of the source are passed on. -/
theorem Tracks.pass (hinit : reader.initialized = true)
    (hdrained : reader.leading.drop reader.offset = []) (hpending : reader.pendingError = none)
    {bytes : List UInt8} (hstep : reader.inner.Step n (.ok bytes) inner) :
    ∃ used', Tracks source used' (out ++ bytes) { reader with inner } ∧ bytes.length ≤ n ∧
      (bytes ≠ [] → left { reader with inner } < left reader) ∧
      (bytes = [] → left { reader with inner } = 0 ∧ source.ending = none ∧
        out = withoutBom source.content) := by
  obtain ⟨hkept, hstable⟩ := h.kept hinit
  rw [hdrained, List.append_nil] at hkept
  cases hstep with
  | data hbytes hlength hmarks hending =>
    have hlong : utf8Bom.length ≤ used.reduceOption.length := by
      refine hstable.resolve_right fun hnil => hbytes ?_
      rw [hnil] at hmarks
      exact List.map_eq_nil_iff.1 (List.append_eq_nil_iff.1 hmarks.symm).1
    have hall : (used ++ bytes.map some).reduceOption = used.reduceOption ++ bytes := by
      rw [List.reduceOption_append]
      simp [List.reduceOption]
    have hpos := List.length_pos_iff.2 hbytes
    refine ⟨used ++ bytes.map some, ⟨?_, hending.trans h.ending, ?_, fun _ => ⟨?_, .inl ?_⟩,
      ?_, ?_⟩, hlength,
      fun _ => ?_, fun hnil => absurd hnil hbytes⟩
    · rw [h.marks, hmarks, List.append_assoc]
    · simp [hinit]
    · rw [hall, withoutBom_append hlong, ← hkept, hdrained, List.append_nil]
    · rw [hall, List.length_append]
      omega
    · simp [hpending]
    · simp [hpending]
    · simp only [left, hmarks, List.length_append, List.length_map]
      omega
  | ended hmarks hending =>
    refine ⟨used, by rwa [List.append_nil], Nat.zero_le n, fun hne => absurd rfl hne,
      fun _ => ⟨?_, ?_, ?_⟩⟩
    · simp [left, hmarks, hdrained, hpending]
    · rw [← h.ending, hending]
    · rw [h.content hmarks, hkept]

/-- An error of the source is kept, behind the bytes that came before it. -/
theorem Tracks.keep (hinit : reader.initialized = true)
    (hdrained : reader.leading.drop reader.offset = []) (hpending : reader.pendingError = none)
    (hstep : reader.inner.Step n (.error error) inner) :
    ∃ used', Tracks source used' out { reader with inner, pendingError := some error } ∧
      left { reader with inner, pendingError := some error } ≤ left reader := by
  obtain ⟨hkept, hstable⟩ := h.kept hinit
  cases hstep with
  | interrupted hmarks hending =>
    have hused : (used ++ [none]).reduceOption = used.reduceOption := by
      rw [List.reduceOption_append]
      simp
    refine ⟨used ++ [none], ⟨?_, hending.trans h.ending, ?_, fun _ => ⟨?_, ?_⟩, fun _ =>
      ⟨hdrained, used, rfl⟩, nofun⟩, ?_⟩
    · rw [h.marks, hmarks, List.append_assoc, List.singleton_append]
    · simp [hinit]
    · rw [hused]
      exact hkept
    · refine .inl ?_
      rw [hused]
      exact hstable.resolve_right fun hnil => by simp [hnil] at hmarks
    · simp only [left, hmarks, hpending, List.length_cons]
      omega
  | failed hmarks hending =>
    refine ⟨used, ⟨h.marks, h.ending, ?_, h.kept, nofun, ?_⟩, ?_⟩
    · simp [hinit]
    · rintro other ⟨⟩
      exact ⟨hmarks, by rw [← h.ending, hending]⟩
    · simp [left, hpending]

theorem Tracks.readOn (hinit : reader.initialized = true) (hn : n ≠ 0) :
    ∃ used', Tracks source used' (out ++ (reader.readOn n).1.toOption.getD []) (reader.readOn n).2 ∧
      (left (reader.readOn n).2 < left reader ∨ left (reader.readOn n).2 = 0) ∧
        Report source out n (reader.readOn n).1 := by
  obtain ⟨source', leading, offset, initialized, pending⟩ := reader
  obtain ⟨htracks, hleft, hdrained⟩ := h.deliver n
  have hle : ((leading.drop offset).take n).length ≤ n := List.length_take_le _ _
  simp only [LeadingBomReader.readOn]
  simp only at htracks hleft hdrained
  generalize (leading.drop offset).take n = written at *
  by_cases hfull : written.length = n
  · -- the buffer is full
    rw [if_pos hfull]
    refine ⟨used, htracks, .inl ?_, hle, ?_⟩
    · simp only
      omega
    · rintro - rfl
      exact absurd hfull.symm hn
  have hempty := hdrained hfull
  rw [if_neg hfull]
  cases pending with
  | some error =>
    cases hwritten : written.isEmpty with
    | true =>
      obtain rfl : written = [] := List.isEmpty_iff.1 hwritten
      rw [List.append_nil] at htracks
      obtain ⟨hafter, hreport, hless⟩ := htracks.takePending hinit hempty rfl n
      refine ⟨used, by simpa [Except.toOption] using hafter, ?_, hreport⟩
      simp only [List.length_nil, Nat.add_zero, if_true] at hleft hless ⊢
      omega
    | false =>
      have hne : written ≠ [] := fun hnil => by simp [hnil] at hwritten
      have hpos := List.length_pos_iff.2 hne
      simp only [Bool.false_eq_true, if_false]
      exact ⟨used, htracks, .inl (by omega), hle, fun _ hnil => absurd hnil hne⟩
  | none =>
    have hstep := source'.read_step (n := n - written.length) (by omega)
    generalize source'.read (n - written.length) = answer at hstep
    obtain ⟨outcome, inner⟩ := answer
    simp only at hstep
    cases outcome with
    | ok bytes =>
      obtain ⟨used', hafter, hlength, hless, hended⟩ := htracks.pass hinit hempty rfl hstep
      simp only at hless hended
      refine ⟨used', by simpa [Except.toOption] using hafter, ?_, ?_, ?_⟩
      · rcases eq_or_ne bytes [] with hnil | hne
        · exact .inr (hended hnil).1
        · have := hless hne
          simp only
          omega
      · rw [List.length_append]
        omega
      · intro _ hnil
        obtain ⟨rfl, hbytes⟩ := List.append_eq_nil_iff.1 hnil
        obtain ⟨-, hending, hout⟩ := hended hbytes
        exact ⟨hending, by simpa using hout⟩
    | error error =>
      obtain ⟨used', hafter, hless⟩ := htracks.keep hinit hempty rfl hstep
      simp only at hless
      cases hwritten : written.isEmpty with
      | true =>
        obtain rfl : written = [] := List.isEmpty_iff.1 hwritten
        rw [List.append_nil] at hafter
        obtain ⟨hnow, hreport, hmore⟩ := hafter.takePending hinit hempty rfl n
        refine ⟨used', by simpa [Except.toOption] using hnow, ?_, hreport⟩
        simp only [List.length_nil, Nat.add_zero, if_true] at hleft hless hmore ⊢
        omega
      | false =>
        have hne : written ≠ [] := fun hnil => by simp [hnil] at hwritten
        have hpos := List.length_pos_iff.2 hne
        simp only [Bool.false_eq_true, if_false]
        exact ⟨used', hafter, .inl (by omega), hle, fun _ hnil => absurd hnil hne⟩

/-- **What every read keeps**: a buffer that is not empty always gets the reader on, until nothing
is left. -/
theorem Tracks.read (n : ℕ) :
    ∃ used', Tracks source used' (out ++ (reader.read n).1.toOption.getD []) (reader.read n).2 ∧
      left (reader.read n).2 ≤ left reader ∧
      (n ≠ 0 → left (reader.read n).2 < left reader ∨ left (reader.read n).2 = 0) ∧
      Report source out n (reader.read n).1 := by
  by_cases hn : n = 0
  · subst hn
    simp only [LeadingBomReader.read, if_true]
    refine ⟨used, ?_, Nat.le_refl _, fun hne => absurd rfl hne, Nat.le_refl 0, fun hne =>
      absurd rfl hne⟩
    simpa [Except.toOption] using h
  obtain ⟨used', hinit, hless, hresult⟩ := h.initializeReader
  simp only [LeadingBomReader.read, if_neg hn]
  generalize reader.initializeReader = result at hinit hless hresult
  obtain ⟨outcome, ready⟩ := result
  cases outcome with
  | error error =>
    obtain ⟨hzero, hreport⟩ := hresult
    refine ⟨used', ?_, hless, fun _ => .inr hzero, hreport n⟩
    simpa [Except.toOption] using hinit
  | ok _ =>
    obtain ⟨used'', hread, hmore, hreport⟩ := hinit.readOn hresult hn
    simp only at hless hmore
    exact ⟨used'', hread, by simp only; omega, fun _ => by simp only; omega, hreport⟩

/-- When nothing is left, everything has been delivered. -/
theorem Tracks.complete (hleft : left reader = 0) : out = withoutBom source.content := by
  obtain ⟨hsum, -⟩ := Nat.add_eq_zero_iff.1 hleft
  obtain ⟨hmarks, hkept⟩ := Nat.add_eq_zero_iff.1 hsum
  rw [h.content (List.length_eq_zero_iff.1 hmarks)]
  cases hinit : reader.initialized with
  | false =>
    obtain ⟨rfl, hused, -⟩ := h.fresh hinit
    rw [hused]
    rfl
  | true =>
    rw [← (h.kept hinit).1, List.length_eq_zero_iff.1 hkept, List.append_nil]

/-! ### All reads -/

/-- What has been delivered is the front of the stream without its mark. -/
theorem Tracks.front : out <+: withoutBom source.content := by
  cases hinit : reader.initialized with
  | false =>
    obtain ⟨rfl, -⟩ := h.fresh hinit
    exact List.nil_prefix
  | true =>
    obtain ⟨hkept, hstable⟩ := h.kept hinit
    refine List.IsPrefix.trans ⟨_, hkept⟩ ?_
    rcases hstable with hlong | hnil
    · rw [Source.content, h.marks, List.reduceOption_append, withoutBom_append hlong]
      exact List.prefix_append _ _
    · simp only [h.content hnil, List.prefix_rfl]

/-- The reads, one after the other. -/
theorem Tracks.run (sizes : List ℕ) :
    (∃ used', Tracks source used' (out ++ delivered (reader.run sizes).1) (reader.run sizes).2) ∧
      (left (reader.run sizes).2 + sizes.countP (· ≠ 0) ≤ left reader ∨
        left (reader.run sizes).2 = 0) ∧
      ∀ i n, sizes[i]? = some n → ∃ outcome, (reader.run sizes).1[i]? = some outcome ∧
        Report source (out ++ delivered ((reader.run sizes).1.take i)) n outcome := by
  induction sizes generalizing used out reader with
  | nil =>
    exact ⟨⟨used, by simpa [LeadingBomReader.run, delivered] using h⟩, .inl (Nat.le_refl _), nofun⟩
  | cons size sizes ih =>
    obtain ⟨used', hread, hle, hless, hreport⟩ := h.read size
    obtain ⟨⟨used'', hrun⟩, hleft, hreports⟩ := ih hread
    rw [List.append_assoc, ← delivered_cons] at hrun
    refine ⟨⟨used'', hrun⟩, ?_, fun i n hi => ?_⟩
    · simp only [LeadingBomReader.run, List.countP_cons, decide_eq_true_eq]
      split
      · have := hless ‹_›
        omega
      · omega
    · cases i with
      | zero =>
        cases hi
        refine ⟨(reader.read size).1, rfl, ?_⟩
        simpa [delivered] using hreport
      | succ i =>
        obtain ⟨outcome, houtcome, hnow⟩ := hreports i n hi
        refine ⟨outcome, houtcome, ?_⟩
        rw [List.append_assoc, ← delivered_cons] at hnow
        exact hnow

end Reading

/-- **All reads deliver the stream without its mark.** Whatever the portions and interruptions of
the source and the sizes of the buffers, what was delivered is the front of the stream without its
mark, in order and each byte once; every error, and the end of the file, is reported when exactly
the bytes that came before it are delivered; and enough reads deliver the whole stream. -/
theorem reads_deliver (source : Source ε) (sizes : List ℕ) :
    delivered ((LeadingBomReader.new source).run sizes).1 <+: withoutBom source.content ∧
      (∀ i n, sizes[i]? = some n → ∃ outcome, ((LeadingBomReader.new source).run sizes).1[i]? =
        some outcome ∧
        Report source (delivered (((LeadingBomReader.new source).run sizes).1.take i)) n outcome) ∧
      (source.marks.length ≤ sizes.countP (· ≠ 0) →
        delivered ((LeadingBomReader.new source).run sizes).1 = withoutBom source.content) := by
  obtain ⟨⟨used, htracks⟩, hleft, hreports⟩ := (Tracks.new source).run sizes
  refine ⟨htracks.front, hreports, fun henough => htracks.complete ?_⟩
  have hstart : left (LeadingBomReader.new source) = source.marks.length := by
    simp [left, LeadingBomReader.new]
  omega

end RemoteMirror.Bom
