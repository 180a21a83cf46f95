/-
**Sources of bytes that deliver them in any portions.**

A source answers each read with some of the bytes that are to come, with the error of an interrupted
read, or, when there is nothing left, with the end of the file or a last error.  How many bytes a
read gets is up to the source: its events say where one portion ends.

Main definitions:

* `ByteSource.Source`, `ByteSource.Source.read` — a source and one read;
* `ByteSource.Source.marks`, `ByteSource.Source.content` — what is to come, and the bytes of it;
* `ByteSource.Source.gather` — reads that go on until there is enough.

Main results:

* `ByteSource.Source.read_step` — what a read takes from the source;
* `ByteSource.Source.gather_content` — **the portions do not matter**.
-/

import Mathlib

namespace ByteSource

/-- Why a read has failed. -/
inductive ReadError (ε : Type)
  | interrupted
  | other (error : ε)
  deriving DecidableEq, Repr

/-- A portion of bytes, or a read that is interrupted. -/
inductive Event
  | data (first : UInt8) (rest : List UInt8)
  | interrupted
  deriving DecidableEq, Repr

/-- What a source will deliver, and the error with which it ends; without one it ends like a file.
-/
structure Source (ε : Type) where
  events : List Event
  ending : Option ε
  deriving DecidableEq, Repr

/-- The bytes of an event; `none` stands for an interrupted read. -/
def Event.marks : Event → List (Option UInt8)
  | .data first rest => (first :: rest).map some
  | .interrupted => [none]

/-- The events that are left of a portion and those behind it. -/
def leftOver (portion : List UInt8) (events : List Event) : List Event :=
  match portion with
  | [] => events
  | first :: rest => .data first rest :: events

namespace Source

variable {ε : Type}

/-- What is to come. -/
def marks (source : Source ε) : List (Option UInt8) := source.events.flatMap Event.marks

/-- The bytes that are to come. -/
def content (source : Source ε) : List UInt8 := source.marks.reduceOption

/-- A read of at most `n` bytes. -/
def read (source : Source ε) (n : ℕ) : Except (ReadError ε) (List UInt8) × Source ε :=
  match source.events with
  | [] =>
    match source.ending with
    | none => (.ok [], source)
    | some error => (.error (.other error), source)
  | .interrupted :: events => (.error .interrupted, ⟨events, source.ending⟩)
  | .data first rest :: events =>
    (.ok ((first :: rest).take n), ⟨leftOver ((first :: rest).drop n) events, source.ending⟩)

theorem marks_leftOver (portion : List UInt8) (events : List Event) (ending : Option ε) :
    (⟨leftOver portion events, ending⟩ : Source ε).marks = portion.map some ++
      (⟨events, ending⟩ : Source ε).marks := by
  cases portion with
  | nil => rfl
  | cons first rest => simp [leftOver, marks, Event.marks]

/-- What one read can take from a source, and what it leaves. -/
inductive Step (n : ℕ) (source : Source ε) : Except (ReadError ε) (List UInt8) → Source ε → Prop
  | data {bytes : List UInt8} {rest : Source ε} (hne : bytes ≠ []) (hlength : bytes.length ≤ n)
      (hmarks : source.marks = bytes.map some ++ rest.marks) (hending : rest.ending =
      source.ending) :
      Step n source (.ok bytes) rest
  | interrupted {rest : Source ε} (hmarks : source.marks = none :: rest.marks)
      (hending : rest.ending = source.ending) : Step n source (.error .interrupted) rest
  | ended (hmarks : source.marks = []) (hending : source.ending = none) : Step n source
      (.ok []) source
  | failed {error : ε} (hmarks : source.marks = []) (hending : source.ending = some error) :
      Step n source (.error (.other error)) source

variable {n : ℕ} {source rest : Source ε} {outcome : Except (ReadError ε) (List UInt8)}

/-- A read that gets something, or is interrupted, leaves less. -/
theorem Step.length_lt (h : Step n source outcome rest) (hne : outcome ≠ .ok [])
    (hother : ∀ error, outcome ≠ .error (.other error)) :
    rest.marks.length < source.marks.length := by
  cases h with
  | data hbytes hlength hmarks hending =>
    have := List.length_pos_iff.2 hbytes
    rw [hmarks, List.length_append, List.length_map]
    omega
  | interrupted hmarks hending => simp [hmarks]
  | ended hmarks hending => exact absurd rfl hne
  | failed hmarks hending => exact absurd rfl (hother _)

theorem read_step (source : Source ε) (hn : 0 < n) :
    Step n source (source.read n).1 (source.read n).2 := by
  obtain ⟨events, ending⟩ := source
  cases events with
  | nil =>
    cases ending with
    | none => exact .ended rfl rfl
    | some error => exact .failed rfl rfl
  | cons event events =>
    cases event with
    | interrupted => exact .interrupted rfl rfl
    | data first rest =>
      refine .data ?_ (List.length_take_le _ _) ?_ rfl
      · simp only [ne_eq, List.take_eq_nil_iff, reduceCtorEq, or_false]
        omega
      · simp only [read, marks_leftOver]
        rw [← List.append_assoc, ← List.map_append, List.take_append_drop]
        rfl

theorem step_of_read (hn : 0 < n) (h : source.read n = (outcome, rest)) :
    Step n source outcome rest := by
  have hstep := source.read_step hn
  rwa [h] at hstep

/-! ### Reads until there is enough -/

/-- Reads until there are `n` bytes, the source ends or a read fails; interrupted reads are
repeated.  The bytes it has got, the error that stopped it, and the rest. -/
def gather (source : Source ε) (n : ℕ) (got : List UInt8) : List UInt8 × Option ε × Source ε :=
  if got.length < n then
    match _h : source.read (n - got.length) with
    | (.ok [], rest) => (got, none, rest)
    | (.ok (first :: more), rest) => gather rest n (got ++ first :: more)
    | (.error .interrupted, rest) => gather rest n got
    | (.error (.other error), rest) => (got, some error, rest)
  else (got, none, source)
  termination_by source.marks.length
  decreasing_by
    all_goals exact (step_of_read (by omega) _h).length_lt (by simp) (by simp)

/-- What these reads take, and where they stop. -/
structure Gathered (source : Source ε) (n : ℕ) (got : List UInt8) (used : List (Option UInt8))
    (result : List UInt8 × Option ε × Source ε) : Prop where
  marks : source.marks = used ++ result.2.2.marks
  ending : result.2.2.ending = source.ending
  got : result.1 = got ++ used.reduceOption
  length : result.1.length ≤ n
  done : result.2.1 = none → n ≤ result.1.length ∨ result.2.2.marks = [] ∧ source.ending = none
  failed : ∀ error, result.2.1 = some error →
    result.1.length < n ∧ result.2.2.marks = [] ∧ source.ending = some error

theorem gather_spec (source : Source ε) (n : ℕ) (got : List UInt8) (h : got.length ≤ n) :
    ∃ used, Gathered source n got used (source.gather n got) := by
  fun_induction gather source n got with
  | case1 source got hlt rest hread =>
    cases step_of_read (by omega) hread with
    | data hne => exact absurd rfl hne
    | ended hmarks hending =>
      exact ⟨[], by simp, rfl, by simp, h, fun _ => .inr ⟨hmarks, hending⟩, nofun⟩
  | case2 source got hlt first more rest hread ih =>
    cases step_of_read (by omega) hread with
    | data hne hlength hmarks hending =>
      obtain ⟨used, hused⟩ := ih (by rw [List.length_append]; omega)
      refine ⟨(first :: more).map some ++ used, ?_, ?_, ?_, hused.length, ?_, ?_⟩
      · rw [hmarks, hused.marks, List.append_assoc]
      · rw [hused.ending, hending]
      · rw [hused.got, List.reduceOption_append]
        simp [List.reduceOption]
      · rw [← hending]
        exact hused.done
      · rw [← hending]
        exact hused.failed
  | case3 source got hlt rest hread ih =>
    cases step_of_read (by omega) hread with
    | interrupted hmarks hending =>
      obtain ⟨used, hused⟩ := ih h
      refine ⟨none :: used, ?_, ?_, ?_, hused.length, ?_, ?_⟩
      · rw [hmarks, hused.marks, List.cons_append]
      · rw [hused.ending, hending]
      · rw [hused.got, List.reduceOption_cons_of_none]
      · rw [← hending]
        exact hused.done
      · rw [← hending]
        exact hused.failed
  | case4 source got hlt error rest hread =>
    cases step_of_read (by omega) hread with
    | failed hmarks hending =>
      refine ⟨[], by simp, rfl, by simp, h, nofun, fun other hother => ?_⟩
      cases hother
      exact ⟨hlt, hmarks, hending⟩
  | case5 source got hge =>
    exact ⟨[], by simp, rfl, by simp, h, fun _ => .inl (Nat.le_of_not_lt hge), nofun⟩

/-- **The portions do not matter**: the reads get the first bytes that are to come, and fail only
where there are fewer. -/
theorem gather_content (source : Source ε) (n : ℕ) :
    (source.gather n []).1 = source.content.take n ∧ (source.gather n []).2.2.content =
      source.content.drop n ∧
      (source.gather n []).2.1 = if n ≤ source.content.length then none else source.ending := by
  obtain ⟨used, hmarks, hending, hgot, hlength, hdone, hfailed⟩ :=
    source.gather_spec n [] (Nat.zero_le n)
  generalize source.gather n [] = result at *
  obtain ⟨got, failure, rest⟩ := result
  simp only [List.nil_append] at hmarks hending hgot hlength hdone hfailed ⊢
  have hcontent : source.content = got ++ rest.content := by
    rw [content, hmarks, List.reduceOption_append, hgot]
    rfl
  -- either `n` bytes are there, or there are fewer and all of them are got
  have henough : (failure = none ∧ got.length = n) ∨ (failure = source.ending ∧ got.length < n ∧
      rest.content = []) := by
    cases failure with
    | none =>
      rcases Nat.lt_or_eq_of_le hlength with hlt | heq
      · obtain ⟨hnil, hnone⟩ := (hdone rfl).resolve_left (by omega)
        exact .inr ⟨hnone.symm, hlt, by rw [content, hnil]; rfl⟩
      · exact .inl ⟨rfl, heq⟩
    | some error =>
      obtain ⟨hlt, hnil, hsome⟩ := hfailed error rfl
      exact .inr ⟨hsome.symm, hlt, by rw [content, hnil]; rfl⟩
  rcases henough with ⟨rfl, rfl⟩ | ⟨rfl, hlt, hnil⟩
  · rw [hcontent]
    simp
  · rw [hnil, List.append_nil] at hcontent
    rw [hcontent, hnil, List.take_of_length_le (by omega), List.drop_of_length_le (by omega),
      if_neg (by omega)]
    exact ⟨rfl, rfl, rfl⟩

end Source

end ByteSource
