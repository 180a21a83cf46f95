/-
**Texts, and their slices by byte offsets.**

A text is a list of characters.  Programs that address it by the offsets of its UTF-8 bytes can only
cut it between two characters; a cut inside of one fails.

Main definitions:

* `TextSlice.utf8`, `TextSlice.byteLen` — the bytes of a text, and their number;
* `TextSlice.splitBytes` — a text cut at a byte offset;
* `TextSlice.isWhitespace`;
* `TextSlice.splitOnce` — a text cut at the first occurrence of another one;
* `TextSlice.lines` — the lines of a text;
* `TextSlice.splitInclusive` — the pieces of a list, each with the separator at its end.

Main results:

* `TextSlice.ascii_mem_utf8` — a byte below 128 stands for itself;
* `TextSlice.splitBytes_append` — where a cut succeeds;
* `TextSlice.splitOn_terminated` — fields that each end in a separator are read back;
* `TextSlice.splitInclusive_utf8` — a text and its bytes have the same lines.
-/

import Mathlib

namespace TextSlice

/-! ### The bytes of a text -/

/-- The text in UTF-8. -/
def utf8 (text : List Char) : List UInt8 := text.flatMap String.utf8EncodeChar

@[simp] theorem utf8_nil : utf8 [] = [] := rfl

@[simp] theorem utf8_cons (c : Char) (text : List Char) :
    utf8 (c :: text) = String.utf8EncodeChar c ++ utf8 text := List.flatMap_cons

@[simp] theorem utf8_append (text other : List Char) :
    utf8 (text ++ other) = utf8 text ++ utf8 other :=
  List.flatMap_append

variable {c : Char}

/-- A character of more than one byte has no byte below 128. -/
theorem ascii_mem_utf8EncodeChar {b : UInt8} (h : b ∈ String.utf8EncodeChar c) (hb : b < 128) :
    b.toNat = c.toNat ∧ String.utf8EncodeChar c = [b] := by
  have hlt : b.toNat < 128 := UInt8.lt_iff_toNat_lt.1 hb
  have hvalid : c.val.toNat < 0xD800 ∨ 0xDFFF < c.val.toNat ∧ c.val.toNat < 0x110000 := c.valid
  unfold String.utf8EncodeChar at h ⊢
  dsimp only at h ⊢
  rw [Char.toNat]
  generalize c.val.toNat = v at h hvalid ⊢
  split at h
  case isTrue hv =>
    rw [List.mem_singleton] at h
    rw [if_pos hv, h]
    exact ⟨UInt8.toNat_ofNat_of_lt (by show v < 256; omega), rfl⟩
  -- all bytes of a longer sequence have their highest bit set
  case isFalse hv =>
    exfalso
    split at h
    · simp only [List.mem_cons, List.not_mem_nil, or_false] at h
      rcases h with rfl | rfl <;> simp [UInt8.toNat_ofNat'] at hlt <;> omega
    · split at h
      · simp only [List.mem_cons, List.not_mem_nil, or_false] at h
        rcases h with rfl | rfl | rfl <;> simp [UInt8.toNat_ofNat'] at hlt <;> omega
      · simp only [List.mem_cons, List.not_mem_nil, or_false] at h
        rcases h with rfl | rfl | rfl | rfl <;> simp [UInt8.toNat_ofNat'] at hlt <;> omega

variable {text : List Char}

/-- A byte below 128 stands for the character with its number. -/
theorem ascii_mem_utf8 {b : UInt8} (h : b ∈ utf8 text) (hb : b < 128) :
    Char.ofNat b.toNat ∈ text := by
  obtain ⟨c, hc, hin⟩ := List.mem_flatMap.1 h
  rw [(ascii_mem_utf8EncodeChar hin hb).1, Char.ofNat_toNat]
  exact hc

/-- A decidable fact about ASCII characters is checked on all of them. -/
theorem of_ascii {P : Char → Prop} (h : ∀ n < 128, P (Char.ofNat n)) (hc : c.toNat < 128) :
    P c := by
  have hc' := h c.toNat hc
  rwa [Char.ofNat_toNat] at hc'

theorem ascii_of_isAlpha (h : c.isAlpha = true) : c.toNat < 128 := by
  simp only [Char.isAlpha, Char.isUpper, Char.isLower, Bool.or_eq_true, Bool.and_eq_true,
    decide_eq_true_eq, ge_iff_le, UInt32.le_iff_toNat_le] at h
  have hval : c.toNat = c.val.toNat := rfl
  have hZ : 'Z'.val.toNat = 90 := rfl
  have hz : 'z'.val.toNat = 122 := rfl
  omega

/-! ### Byte offsets -/

/-- The number of bytes of a text in UTF-8. -/
def byteLen (text : List Char) : ℕ := (text.map Char.utf8Size).sum

@[simp] theorem byteLen_nil : byteLen [] = 0 := rfl

@[simp] theorem byteLen_cons (c : Char) (text : List Char) :
    byteLen (c :: text) = c.utf8Size + byteLen text := by simp [byteLen]

theorem length_utf8 (text : List Char) : (utf8 text).length = byteLen text := by
  induction text with
  | nil => rfl
  | cons c text ih =>
    rw [utf8_cons, List.length_append, String.length_utf8EncodeChar, byteLen_cons, ih]

theorem length_le_byteLen (text : List Char) : text.length ≤ byteLen text := by
  induction text with
  | nil => simp
  | cons c text ih =>
    have := c.utf8Size_pos
    simp only [List.length_cons, byteLen_cons]
    omega

/-- The text before and after a byte offset, if the offset is between two characters. -/
def splitBytes : ℕ → List Char → Option (List Char × List Char)
  | 0, text => some ([], text)
  | _ + 1, [] => none
  | n + 1, c :: text =>
    if c.utf8Size ≤ n + 1 then
      (splitBytes (n + 1 - c.utf8Size) text).map fun parts => (c :: parts.1, parts.2)
    else none

theorem splitBytes_append (before after : List Char) :
    splitBytes (byteLen before) (before ++ after) = some (before, after) := by
  induction before with
  | nil => simp [splitBytes]
  | cons c before ih =>
    obtain ⟨n, hn⟩ : ∃ n, byteLen (c :: before) = n + 1 :=
      Nat.exists_eq_succ_of_ne_zero (by have := c.utf8Size_pos; simp; omega)
    have hrest : n + 1 - c.utf8Size = byteLen before := by
      rw [byteLen_cons] at hn
      omega
    rw [hn, List.cons_append, splitBytes, if_pos (by rw [byteLen_cons] at hn; omega), hrest, ih]
    rfl

theorem append_of_splitBytes {n : ℕ} {before after : List Char}
    (h : splitBytes n text = some (before, after)) : text = before ++ after := by
  induction text generalizing n before with
  | nil =>
    cases n with
    | zero =>
      cases h
      rfl
    | succ n => cases h
  | cons c text ih =>
    cases n with
    | zero =>
      cases h
      rfl
    | succ n =>
      rw [splitBytes] at h
      split at h
      · obtain ⟨⟨front, back⟩, hsplit, heq⟩ := Option.map_eq_some_iff.1 h
        cases heq
        rw [List.cons_append, ← ih hsplit]
      · cases h

/-! ### Separators -/

/-- White space, as Unicode defines it. -/
def isWhitespace (c : Char) : Bool :=
  let n := c.toNat
  (9 ≤ n && n ≤ 13) || n = 0x20 || n = 0x85 || n = 0xA0 || n = 0x1680 ||
    (0x2000 ≤ n && n ≤ 0x200A) || n = 0x2028 || n = 0x2029 || n = 0x202F || n = 0x205F || n = 0x3000

/-- The text before and after the first occurrence of another one. -/
def splitOnce (sep : List Char) : List Char → Option (List Char × List Char)
  | [] => if sep = [] then some ([], []) else none
  | c :: text =>
    match sep.isPrefixOf? (c :: text) with
    | some rest => some ([], rest)
    | none => (splitOnce sep text).map fun parts => (c :: parts.1, parts.2)

/-- A line without the carriage return before its end. -/
def chomp (line : List Char) : List Char :=
  if line.getLast? = some '\r' then line.dropLast else line

/-- The lines of a text: each ends in a newline or in a carriage return and a newline; a last line
without an end counts if it is not empty. -/
def lines (text : List Char) : List (List Char) :=
  let parts := text.splitOn '\n'
  parts.dropLast.map chomp ++ parts.getLast?.toList.filter fun last => !last.isEmpty

/-- The parts of a list hold neither the separator nor anything else than the list. -/
theorem mem_splitOn {α : Type} [DecidableEq α] {sep : α} {list part : List α}
    (h : part ∈ list.splitOn sep) : sep ∉ part ∧ ∀ a ∈ part, a ∈ list := by
  induction list generalizing part with
  | nil =>
    rw [List.splitOn_nil, List.mem_singleton] at h
    subst h
    exact ⟨List.not_mem_nil, nofun⟩
  | cons a list ih =>
    rw [List.splitOn_cons_eq_if_modifyHead] at h
    split at h
    case isTrue hsep =>
      rcases List.mem_cons.1 h with rfl | hrest
      · exact ⟨List.not_mem_nil, nofun⟩
      · exact ⟨(ih hrest).1, fun b hb => List.mem_cons_of_mem a ((ih hrest).2 b hb)⟩
    case isFalse hsep =>
      obtain ⟨first, rest, hsplit⟩ := List.exists_cons_of_ne_nil (List.splitOn_ne_nil sep list)
      rw [hsplit, List.modifyHead_cons] at h
      rw [hsplit] at ih
      rcases List.mem_cons.1 h with rfl | hrest
      · obtain ⟨hnot, hin⟩ := ih List.mem_cons_self
        refine ⟨fun hmem => ?_, fun b hb => ?_⟩
        · rcases List.mem_cons.1 hmem with heq | hmem
          · exact hsep (by simp [heq])
          · exact hnot hmem
        · rcases List.mem_cons.1 hb with rfl | hb
          · exact List.mem_cons_self
          · exact List.mem_cons_of_mem a (hin b hb)
      · obtain ⟨hnot, hin⟩ := ih (List.mem_cons_of_mem _ hrest)
        exact ⟨hnot, fun b hb => List.mem_cons_of_mem a (hin b hb)⟩

theorem mem_of_mem_intercalate {α : Type} {sep : List α} {parts : List (List α)} {a : α}
    (h : a ∈ sep.intercalate parts) : a ∈ sep ∨ ∃ part ∈ parts, a ∈ part := by
  induction parts with
  | nil => simp [List.intercalate] at h
  | cons part parts ih =>
    cases parts with
    | nil => exact .inr ⟨part, List.mem_cons_self, by simpa [List.intercalate] using h⟩
    | cons next parts =>
      have hcons : sep.intercalate (part :: next :: parts) = part ++
          (sep ++ sep.intercalate (next :: parts)) := by
        simp [List.intercalate]
      rw [hcons, List.mem_append, List.mem_append] at h
      rcases h with hpart | hsep | hrest
      · exact .inr ⟨part, List.mem_cons_self, hpart⟩
      · exact .inl hsep
      · rcases ih hrest with hsep | ⟨other, hother, hin⟩
        · exact .inl hsep
        · exact .inr ⟨other, List.mem_cons_of_mem _ hother, hin⟩

/-- Fields that each end in a separator are read back, with an empty one after the last. -/
theorem splitOn_terminated {sep : Char} {fields : List (List Char)}
    (h : ∀ field ∈ fields, sep ∉ field) :
    (fields.flatMap fun field => field ++ [sep]).splitOn sep = fields ++ [[]] := by
  induction fields with
  | nil => simp
  | cons field fields ih =>
    rw [List.flatMap_cons, List.append_assoc, List.singleton_append,
      List.splitOn_append_cons_self_of_not_mem (h field (by simp)),
      ih fun other hother => h other (List.mem_cons_of_mem _ hother), List.cons_append]

/-! ### Pieces with their separators -/

section Pieces

variable {α : Type} [DecidableEq α]

/-- An element in front of the first piece. -/
def consPiece (a : α) : List (List α) → List (List α)
  | [] => [[a]]
  | piece :: pieces => (a :: piece) :: pieces

/-- The pieces of a list: each ends with a separator, the last one perhaps without. -/
def splitInclusive (sep : α) : List α → List (List α)
  | [] => []
  | a :: rest =>
    if a = sep then [a] :: splitInclusive sep rest else consPiece a (splitInclusive sep rest)

variable {front : List α}

/-- What has no separator goes in front of the first piece. -/
theorem splitInclusive_append {sep : α} {rest : List α} (h : sep ∉ front) :
    splitInclusive sep (front ++ rest) = front.foldr consPiece (splitInclusive sep rest) := by
  induction front with
  | nil => rfl
  | cons a front ih =>
    have ha : a ≠ sep := fun heq => h (heq ▸ List.mem_cons_self)
    rw [List.cons_append, splitInclusive, if_neg ha, ih fun hmem => h (List.mem_cons_of_mem _ hmem)]
    rfl

omit [DecidableEq α] in
theorem foldr_consPiece (h : front ≠ []) (pieces : List (List α)) :
    front.foldr consPiece pieces =
      match pieces with
      | [] => [front]
      | piece :: pieces => (front ++ piece) :: pieces := by
  induction front with
  | nil => exact absurd rfl h
  | cons a front ih =>
    cases front with
    | nil => cases pieces <;> rfl
    | cons b front =>
      rw [List.foldr_cons, ih (List.cons_ne_nil _ _)]
      cases pieces <;> rfl

end Pieces

/-- **A text and its bytes have the same lines.** -/
theorem splitInclusive_utf8 (text : List Char) :
    splitInclusive 10 (utf8 text) = (splitInclusive '\n' text).map utf8 := by
  induction text with
  | nil => rfl
  | cons c text ih =>
    rw [utf8_cons, splitInclusive]
    by_cases hc : c = '\n'
    · subst hc
      have hbyte : String.utf8EncodeChar '\n' = [10] := by decide
      rw [if_pos rfl, hbyte, List.singleton_append, splitInclusive, if_pos rfl, ih]
      rfl
    · -- the byte of a newline occurs in no other character
      have hnot : (10 : UInt8) ∉ String.utf8EncodeChar c := by
        intro hmem
        obtain ⟨hsame, -⟩ := ascii_mem_utf8EncodeChar hmem (by decide)
        refine hc (Char.toNat_inj.1 ?_)
        exact hsame.symm
      have hne : String.utf8EncodeChar c ≠ [] := by
        rw [← List.length_pos_iff, String.length_utf8EncodeChar]
        exact c.utf8Size_pos
      rw [if_neg hc, splitInclusive_append hnot, foldr_consPiece hne, ih]
      cases splitInclusive '\n' text with
      | nil => simp [consPiece]
      | cons piece pieces => simp [consPiece]

end TextSlice
