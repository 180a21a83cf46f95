/-
**Spellings of a root in URIs.**

`uri_prefix_eq` compares the start of a URI with a spelling of a root: letters of the scheme and of
the drive without regard to case, escapes by the values of their digits, everything else byte by
byte.  Texts that are equal in this sense are decoded to the same bytes.

Decoding goes from left to right, so a text can be cut where no escape goes across the cut.

Main definitions:

* `Sidecar.Lsp.Aligned`, `Sidecar.Lsp.AlignedIn` — equal for `uri_prefix_eq`;
* `Sidecar.Lsp.foldDrive` — decoded paths up to the case of the drive.

Main results:

* `Sidecar.Lsp.Aligned.decode`, `Sidecar.Lsp.AlignedIn.decode` — **equal spellings are decoded to
  the same path**;
* `Sidecar.Lsp.alignedIn_of_uriPrefixEq` — what a match says;
* `Sidecar.Lsp.decode_front` — a decoded text in two parts.
-/

import RemoteMirror.LspInside

namespace RemoteMirror.Sidecar.Lsp

open TextSlice

/-! ### Bytes and characters -/

/-- The bytes that end the path of a URI. -/
def endsUriPathByte (b : UInt8) : Bool := b = byte '?' || b = byte '#'

/-- Folding letters makes no other byte out of a byte than a letter. -/
theorem toAsciiLowercase_eq_iff : ∀ n < 256, ∀ b ∈ [byte '/', byte '%', byte '?', byte '#'],
    toAsciiLowercase (UInt8.ofNat n) = b ↔ UInt8.ofNat n = b := by
  decide +kernel

theorem toAsciiLowercase_eq {a b : UInt8} (hb : b ∈ [byte '/', byte '%', byte '?', byte '#']) :
    toAsciiLowercase a = b ↔ a = b := by
  have h := toAsciiLowercase_eq_iff a.toNat (UInt8.toNat_lt a) b hb
  rwa [UInt8.ofNat_toNat] at h

/-- A character that ends the path of a URI is one byte, and no other character has such a byte. -/
theorem endsUriPathByte_utf8EncodeChar (c : Char) :
    if endsUriPath c then String.utf8EncodeChar c = [byte c] ∧ endsUriPathByte (byte c) = true
    else ∀ b ∈ String.utf8EncodeChar c, endsUriPathByte b = false := by
  split
  · rename_i h
    simp only [endsUriPath, Bool.or_eq_true, decide_eq_true_eq] at h
    rcases h with rfl | rfl
    · decide
    · decide
  · rename_i h
    intro b hb
    by_contra hends
    simp only [endsUriPathByte, Bool.not_eq_false, Bool.or_eq_true, decide_eq_true_eq] at hends
    have hascii : b < 128 := by rcases hends with rfl | rfl <;> decide
    have hc : Char.ofNat b.toNat = c := by
      rw [(ascii_mem_utf8EncodeChar hb hascii).1, Char.ofNat_toNat]
    refine h ?_
    rw [← hc]
    rcases hends with rfl | rfl <;> decide

theorem takeWhile_utf8 (text : Text) :
    (utf8 text).takeWhile (fun b => !endsUriPathByte b) =
      utf8 (text.takeWhile fun c => !endsUriPath c) := by
  induction text with
  | nil => rfl
  | cons c text ih =>
    have hc := endsUriPathByte_utf8EncodeChar c
    cases hends : endsUriPath c with
    | true =>
      rw [hends, if_pos rfl] at hc
      rw [utf8_cons, hc.1, List.takeWhile_cons_of_neg (by simp [hends]), List.singleton_append,
        List.takeWhile_cons_of_neg (by simp [hc.2])]
      rfl
    | false =>
      rw [hends, if_neg (by decide)] at hc
      rw [List.takeWhile_cons_of_pos (by simp [hends]), utf8_cons, utf8_cons,
        List.takeWhile_append_of_pos (fun b hb => by simp [hc b hb]), ih]

/-! ### Spellings that are equal for `uri_prefix_eq` -/

section Aligned

variable {drive : Option ℕ} {index : ℕ} {cs ps front rest : List UInt8}

theorem strictPercentDecode_percent (h l : UInt8) (rest : List UInt8) :
    strictPercentDecode (byte '%' :: h :: l :: rest) = (decodeHexDigit h).bind fun high =>
      (decodeHexDigit l).bind fun low => (strictPercentDecode rest).map
        ((high <<< 4 ||| low) :: ·) := by
  rw [strictPercentDecode.eq_def]
  simp only [ne_eq, not_true_eq_false, if_false]
  cases decodeHexDigit h with
  | none => rfl
  | some high =>
    cases decodeHexDigit l with
    | none => rfl
    | some low => rfl

/-- Digits of the same value can be exchanged. -/
theorem strictPercentDecode_digits {h h' : UInt8} (heq : decodeHexDigit h = decodeHexDigit h')
    (rest : List UInt8) :
    strictPercentDecode (byte '%' :: h :: rest) = strictPercentDecode (byte '%' :: h' :: rest) := by
  cases rest with
  | nil => rfl
  | cons l rest => rw [strictPercentDecode_percent, strictPercentDecode_percent, heq]

/-- Two texts that are equal for `uri_prefix_eq` behind the scheme and the drive: escapes have
digits of the same value, and the text may end within one. -/
inductive Aligned : List UInt8 → List UInt8 → Prop
  | nil : Aligned [] []
  | percent : Aligned [byte '%'] [byte '%']
  | digit {c p : UInt8} (h : decodeHexDigit c = decodeHexDigit p) : Aligned [byte '%',
      c] [byte '%', p]
  | escape {c₁ c₂ p₁ p₂ : UInt8} {cs ps : List UInt8} (h₁ : decodeHexDigit c₁ = decodeHexDigit p₁)
      (h₂ : decodeHexDigit c₂ = decodeHexDigit p₂) (hrest : Aligned cs ps) :
      Aligned (byte '%' :: c₁ :: c₂ :: cs) (byte '%' :: p₁ :: p₂ :: ps)
  | literal {b : UInt8} {cs ps : List UInt8} (hb : b ≠ byte '%') (hrest : Aligned cs ps) :
      Aligned (b :: cs) (b :: ps)

theorem aligned_of_uriPrefixEqFrom (h : uriPrefixEqFrom drive index cs ps = true)
    (hlen : cs.length = ps.length)
    (hindex : 7 ≤ index) (hdrive : ∀ i, drive = some i → i < index) : Aligned cs ps := by
  fun_induction uriPrefixEqFrom drive index cs ps with
  | case1 index c c₁ c₂ cs p₁ p₂ ps ih =>
    simp only [Bool.and_eq_true, decide_eq_true_eq] at h
    obtain ⟨⟨⟨rfl, hhigh⟩, hlow⟩, hrest⟩ := h
    refine .escape hhigh hlow (ih hrest (by simpa using hlen) (by omega) fun i hi => ?_)
    have := hdrive i hi
    omega
  | case2 index c c₁ tail p₁ tail' hshort =>
    simp only [Bool.and_eq_true, decide_eq_true_eq] at h
    obtain ⟨rfl, hhigh⟩ := h
    match tail, tail' with
    | [], [] => exact .digit hhigh
    | [], p₂ :: ps => simp at hlen
    | c₂ :: cs, [] => simp at hlen
    | c₂ :: cs, p₂ :: ps => exact (hshort c₂ cs p₂ ps rfl rfl).elim
  | case3 index c tail tail' hshort hshort' =>
    rw [decide_eq_true_eq] at h
    subst h
    match tail, tail' with
    | [], [] => exact .percent
    | [], p₁ :: ps => simp at hlen
    | c₁ :: cs, [] => simp at hlen
    | c₁ :: cs, p₁ :: ps => exact (hshort' c₁ cs p₁ ps rfl rfl).elim
  | case4 index c cs p ps hp ih =>
    rw [Bool.and_eq_true, if_neg, decide_eq_true_eq] at h
    · obtain ⟨rfl, hrest⟩ := h
      refine .literal hp (ih hrest (by simpa using hlen) (by omega) fun i hi => ?_)
      have := hdrive i hi
      omega
    · -- the case of letters does not matter here
      rintro (hlt | heq)
      · omega
      · have := hdrive index heq
        omega
  | case5 cs index ps hends =>
    match cs, ps with
    | [], [] => exact .nil
    | [], p :: ps => simp at hlen
    | c :: cs, [] => simp at hlen
    | c :: cs, p :: ps => exact (hends c cs p ps rfl rfl).elim

/-- **Texts that are equal for `uri_prefix_eq` are decoded to the same bytes**, whatever follows
them. -/
theorem Aligned.decode (h : Aligned cs ps) (s : List UInt8) :
    strictPercentDecode (cs ++ s) = strictPercentDecode (ps ++ s) := by
  induction h with
  | nil => rfl
  | percent => rfl
  | digit h => exact strictPercentDecode_digits h s
  | escape h₁ h₂ hrest ih => simp only [List.cons_append, strictPercentDecode_percent, h₁, h₂, ih]
  | literal hb hrest ih =>
    rw [List.cons_append, List.cons_append, strictPercentDecode_cons hb,
      strictPercentDecode_cons hb, ih]

/-- A hexadecimal digit does not end a path. -/
theorem endsUriPathByte_digit {b value : UInt8} (h : decodeHexDigit b = some value) :
    endsUriPathByte b = false := by
  by_contra hends
  simp only [endsUriPathByte, Bool.not_eq_false, Bool.or_eq_true, decide_eq_true_eq] at hends
  rcases hends with rfl | rfl <;> cases h

/-- If one text can be decoded and is all path, the other is all path. -/
theorem Aligned.plain (h : Aligned cs ps) {bytes : List UInt8}
    (hdecodes : strictPercentDecode ps = some bytes)
    (hplain : ∀ b ∈ ps, endsUriPathByte b = false) : ∀ b ∈ cs, endsUriPathByte b = false := by
  induction h generalizing bytes with
  | nil | percent => exact hplain
  | digit h => cases hdecodes
  | escape h₁ h₂ hrest ih =>
    rw [strictPercentDecode_percent, Option.bind_eq_some_iff] at hdecodes
    obtain ⟨high, hhigh, hdecodes⟩ := hdecodes
    obtain ⟨low, hlow, hdecodes⟩ := Option.bind_eq_some_iff.1 hdecodes
    obtain ⟨more, hmore, -⟩ := Option.map_eq_some_iff.1 hdecodes
    have hcs := ih hmore fun b hb => hplain b (by simp [hb])
    simp only [List.forall_mem_cons]
    exact ⟨by decide, endsUriPathByte_digit (h₁.trans hhigh), endsUriPathByte_digit (h₂.trans hlow),
      hcs⟩
  | literal hb hrest ih =>
    rw [strictPercentDecode_cons hb] at hdecodes
    obtain ⟨more, hmore, -⟩ := Option.map_eq_some_iff.1 hdecodes
    have hcs := ih hmore fun b hb => hplain b (List.mem_cons_of_mem _ hb)
    exact List.forall_mem_cons.2 ⟨hplain _ List.mem_cons_self, hcs⟩

/-- Without percent signs the texts are equal. -/
theorem Aligned.eq (h : Aligned cs ps) (hps : byte '%' ∉ ps) : cs = ps := by
  induction h with
  | nil => rfl
  | percent | digit h | escape h₁ h₂ hrest ih => exact absurd List.mem_cons_self hps
  | literal hb hrest ih => rw [ih fun hmem => hps (List.mem_cons_of_mem _ hmem)]

theorem Aligned.length_eq (h : Aligned cs ps) : cs.length = ps.length := by
  induction h with
  | nil => rfl
  | percent => rfl
  | digit h => rfl
  | escape h₁ h₂ hrest ih | literal hb hrest ih => simp [ih]

theorem uriPrefixEqFrom_cons {c p : UInt8} (hp : p ≠ byte '%') :
    uriPrefixEqFrom drive index (c :: cs) (p :: ps) =
      ((if index < 7 ∨ drive = some index then eqIgnoreAsciiCase c p else decide (c = p)) &&
        uriPrefixEqFrom drive (index + 1) cs ps) := by
  rw [uriPrefixEqFrom.eq_def]
  exact if_neg hp

/-- The scheme is compared without regard to case. -/
theorem scheme_of_uriPrefixEqFrom (hfront : ∀ b ∈ front, b ≠ byte '%')
    (hindex : index + front.length ≤ 7)
    (hlen : cs.length = (front ++ rest).length)
    (h : uriPrefixEqFrom drive index cs (front ++ rest) = true) :
    ∃ scheme tail, cs = scheme ++ tail ∧ scheme.map toAsciiLowercase = front.map toAsciiLowercase ∧
      tail.length = rest.length ∧ uriPrefixEqFrom drive (index + front.length) tail rest =
        true := by
  induction front generalizing index cs with
  | nil => exact ⟨[], cs, rfl, rfl, hlen, h⟩
  | cons p front ih =>
    cases cs with
    | nil => simp at hlen
    | cons c cs =>
      simp only [List.length_cons] at hindex
      rw [List.cons_append, uriPrefixEqFrom_cons (hfront p List.mem_cons_self),
        if_pos (.inl (by omega)), Bool.and_eq_true] at h
      obtain ⟨scheme, tail, rfl, hscheme, htail, hrest⟩ :=
        ih (fun b hb => hfront b (List.mem_cons_of_mem _ hb))
        (by omega) (by simpa using hlen) h.2
      refine ⟨c :: scheme, tail, rfl, ?_, htail, ?_⟩
      · rw [List.map_cons, List.map_cons, hscheme]
        exact congrArg (· :: _) (of_decide_eq_true h.1)
      · rw [List.length_cons, ← Nat.add_assoc, Nat.add_right_comm]
        exact hrest

end Aligned

/-! ### Spellings of a root -/

section Root

variable {root : Text} {cs ps : List UInt8}

/-- A drive letter is one byte, in a path and in its encoded spelling. -/
theorem drive_spec {c : Char} (h : c.isAlpha = true) : String.utf8EncodeChar c = [byte c] ∧
    utf8 (percentEncodeByte (byte c)) = [byte c] ∧ byte c ≠ byte '%' ∧ c ≠ '\\' :=
  of_ascii (P := fun c => c.isAlpha = true → String.utf8EncodeChar c = [byte c] ∧
    utf8 (percentEncodeByte (byte c)) = [byte c] ∧ byte c ≠ byte '%' ∧ c ≠ '\\') (by decide +kernel)
    (ascii_of_isAlpha h) h

/-- Both spellings of a root in the Windows style start with a slash, the drive and a colon. -/
theorem windows_spellings (h : pathStyle root = .windows) : ∃ d more more', d ≠ byte '%' ∧
    utf8 (fileUriPath root) = byte '/' :: d :: byte ':' :: more ∧
    utf8 (percentEncodeUriPath (fileUriPath root)) = byte '/' :: d :: byte ':' :: more' := by
  have hpath : fileUriPath root = '/' :: root.map fun c => if c = '\\' then '/' else c := by
    rw [fileUriPath, h]
  unfold pathStyle at h
  split at h
  case h_2 => cases h
  case h_1 drive colon slash rest =>
    split at h
    case isFalse => cases h
    case isTrue hdrive =>
      simp only [Bool.and_eq_true, decide_eq_true_eq] at hdrive
      obtain ⟨⟨halpha, rfl⟩, -⟩ := hdrive
      obtain ⟨hd, hcode, hne, hslash⟩ := drive_spec halpha
      have hbytes : utf8 (fileUriPath (drive :: ':' :: slash :: rest)) =
        byte '/' :: byte drive :: byte ':' ::
          utf8 ((slash :: rest).map fun c => if c = '\\' then '/' else c) := by
        rw [hpath, List.map_cons, List.map_cons, if_neg hslash, utf8_slash, utf8_cons, hd]
        rfl
      generalize utf8 ((slash :: rest).map fun c => if c = '\\' then '/' else c) = more at hbytes
      refine ⟨byte drive, more, utf8 (more.flatMap percentEncodeByte), hne, hbytes, ?_⟩
      rw [percentEncodeUriPath, hbytes, List.flatMap_cons, List.flatMap_cons, List.flatMap_cons,
        utf8_append, utf8_append, utf8_append, hcode]
      rfl

theorem drive_literal (hstyle : pathStyle root = .windows) :
    ∃ d more, d ≠ byte '%' ∧ utf8 (fileUriPath root) = byte '/' :: d :: byte ':' :: more := by
  obtain ⟨d, more, -, hd, hbytes, -⟩ := windows_spellings hstyle
  exact ⟨d, more, hd, hbytes⟩

theorem drive_encoded (hstyle : pathStyle root = .windows) : ∃ d more, d ≠ byte '%' ∧
    utf8 (percentEncodeUriPath (fileUriPath root)) = byte '/' :: d :: byte ':' :: more := by
  obtain ⟨d, -, more, hd, -, hbytes⟩ := windows_spellings hstyle
  exact ⟨d, more, hd, hbytes⟩

/-- Drive letters are the same in upper and lower case; the drive follows the first slash. -/
def foldDrive (root : Text) (path : List UInt8) : List UInt8 :=
  match pathStyle root with
  | .windows => path.modify 1 toAsciiLowercase
  | .posix => path

variable (root) in
/-- Equal for `uri_prefix_eq` behind the scheme. -/
def AlignedIn (cs ps : List UInt8) : Prop :=
  match pathStyle root with
  | .posix => Aligned cs ps
  | .windows => ∃ c d cs' ps', cs = byte '/' :: c :: cs' ∧ ps = byte '/' :: d :: ps' ∧
      toAsciiLowercase c = toAsciiLowercase d ∧ d ≠ byte '%' ∧ Aligned cs' ps'

/-- The drive is no percent sign either way. -/
theorem ne_percent_of_fold {c d : UInt8} (h : toAsciiLowercase c = toAsciiLowercase d)
    (hd : d ≠ byte '%') : c ≠ byte '%' := by
  rintro rfl
  have hpercent : byte '%' ∈ [byte '/', byte '%', byte '?', byte '#'] := by decide
  rw [(toAsciiLowercase_eq hpercent).2 rfl] at h
  exact hd ((toAsciiLowercase_eq hpercent).1 h.symm)

/-- They are decoded to the same path, up to the case of the drive. -/
theorem AlignedIn.decode (h : AlignedIn root cs ps) (s : List UInt8) :
    (strictPercentDecode (cs ++ s)).map (foldDrive root) = (strictPercentDecode (ps ++ s)).map
      (foldDrive root) := by
  unfold AlignedIn at h
  split at h
  · rw [h.decode]
  · rename_i hstyle
    obtain ⟨c, d, cs, ps, rfl, rfl, hfold, hd, halign⟩ := h
    have hslash : byte '/' ≠ byte '%' := by decide
    simp only [List.cons_append, strictPercentDecode_cons hslash, strictPercentDecode_cons hd,
      strictPercentDecode_cons (ne_percent_of_fold hfold hd), Option.map_map, halign.decode]
    refine congrArg (fun f => Option.map f _) (funext fun path => ?_)
    simp [foldDrive, hstyle, hfold]

theorem AlignedIn.length_eq (h : AlignedIn root cs ps) : cs.length = ps.length := by
  unfold AlignedIn at h
  split at h
  · exact h.length_eq
  · obtain ⟨c, d, cs, ps, rfl, rfl, -, -, halign⟩ := h
    simp [halign.length_eq]

theorem endsUriPathByte_fold {c d : UInt8} (h : toAsciiLowercase c = toAsciiLowercase d) :
    endsUriPathByte c = endsUriPathByte d := by
  have hquery : byte '?' ∈ [byte '/', byte '%', byte '?', byte '#'] := by decide
  have hhash : byte '#' ∈ [byte '/', byte '%', byte '?', byte '#'] := by decide
  have hiff : (c = byte '?' ↔ d = byte '?') ∧ (c = byte '#' ↔ d = byte '#') := by
    rw [← toAsciiLowercase_eq hquery, ← toAsciiLowercase_eq hhash, h, toAsciiLowercase_eq hquery,
      toAsciiLowercase_eq hhash]
    exact ⟨Iff.rfl, Iff.rfl⟩
  simp only [endsUriPathByte, hiff.1, hiff.2]

theorem AlignedIn.plain (h : AlignedIn root cs ps) {bytes : List UInt8}
    (hdecodes : strictPercentDecode ps = some bytes)
    (hplain : ∀ b ∈ ps, endsUriPathByte b = false) : ∀ b ∈ cs, endsUriPathByte b = false := by
  unfold AlignedIn at h
  split at h
  · exact h.plain hdecodes hplain
  · obtain ⟨c, d, cs, ps, rfl, rfl, hfold, hd, halign⟩ := h
    rw [strictPercentDecode_cons (by decide), strictPercentDecode_cons hd] at hdecodes
    obtain ⟨more, hmore, -⟩ := Option.map_eq_some_iff.1 hdecodes
    obtain ⟨more', hmore', -⟩ := Option.map_eq_some_iff.1 hmore
    simp only [List.forall_mem_cons] at hplain ⊢
    exact ⟨hplain.1, (endsUriPathByte_fold hfold).trans hplain.2.1, halign.plain hmore' hplain.2.2⟩

/-- Without percent signs, one of the texts is all path if the other is. -/
theorem AlignedIn.plain_of_literal (h : AlignedIn root cs ps) (hps : byte '%' ∉ ps)
    (hplain : ∀ b ∈ cs, endsUriPathByte b = false) : ∀ b ∈ ps, endsUriPathByte b = false := by
  unfold AlignedIn at h
  split at h
  · rwa [← h.eq hps]
  · obtain ⟨c, d, cs, ps, rfl, rfl, hfold, hd, halign⟩ := h
    obtain rfl := halign.eq fun hmem => hps (List.mem_cons_of_mem _ (List.mem_cons_of_mem _ hmem))
    simp only [List.forall_mem_cons] at hplain ⊢
    exact ⟨hplain.1, (endsUriPathByte_fold hfold).symm.trans hplain.2.1, hplain.2.2⟩

/-- `uri_prefix_eq`, for a spelling of a root. -/
theorem alignedIn_of_uriPrefixEq {candidate spelling : Text}
    (hdrive : pathStyle root = .windows → ∃ d more, d ≠ byte '%' ∧ utf8 spelling =
      byte '/' :: d :: byte ':' :: more)
    (h : uriPrefixEq candidate (fileScheme ++ spelling) (pathStyle root) = true) :
    ∃ scheme tail, utf8 candidate = scheme ++ tail ∧ scheme.map toAsciiLowercase = utf8 fileScheme ∧
      AlignedIn root tail (utf8 spelling) := by
  unfold uriPrefixEq at h
  simp only [Bool.and_eq_true, decide_eq_true_eq, ← length_utf8, utf8_append] at h
  obtain ⟨hlen, heq⟩ := h
  obtain ⟨scheme, tail, hcandidate, hscheme, htail, hrest⟩ :=
    scheme_of_uriPrefixEqFrom (by decide +kernel) (by decide +kernel) hlen heq
  refine ⟨scheme, tail, hcandidate, hscheme, ?_⟩
  unfold AlignedIn
  split
  · rename_i hstyle
    refine aligned_of_uriPrefixEqFrom hrest htail (by decide) fun i hi => ?_
    rw [hstyle, if_neg (by simp)] at hi
    cases hi
  · rename_i hstyle
    obtain ⟨d, more, hd, hspelling⟩ := hdrive hstyle
    -- the drive letter is the ninth byte
    have hindex : (if pathStyle root = .windows ∧ (utf8 fileScheme ++ utf8 ['/']).isPrefixOf
        (utf8 fileScheme ++ utf8 spelling) = true ∧ (utf8 fileScheme ++ utf8 spelling)[9]? =
        some (byte ':') then
          some 8 else none) = some 8 := by
      rw [if_pos]
      rw [hspelling]
      exact ⟨hstyle, rfl, rfl⟩
    have hseven : 0 + (utf8 fileScheme).length = 7 := rfl
    rw [hindex, hspelling, hseven] at hrest
    rw [hspelling] at htail ⊢
    match tail with
    | c₀ :: c :: tail =>
      rw [uriPrefixEqFrom_cons (by decide), uriPrefixEqFrom_cons hd, Bool.and_eq_true,
        Bool.and_eq_true] at hrest
      obtain ⟨hslash, hletter, hmore⟩ := hrest
      have hc₀ : c₀ = byte '/' := by simpa using hslash
      have hc : toAsciiLowercase c = toAsciiLowercase d := by
        simpa [eqIgnoreAsciiCase] using hletter
      refine ⟨c, d, tail, _, by rw [hc₀], rfl, hc, hd,
        aligned_of_uriPrefixEqFrom hmore (by simpa using htail)
        (by decide) fun i hi => ?_⟩
      cases hi
      decide
    | [c₀] | [] => simp at htail

/-! ### Decoding in parts -/

theorem getLast?_tail {b slash : UInt8} {rest : List UInt8}
    (h : (b :: rest).getLast? = some slash) : rest = [] ∨ rest.getLast? = some slash := by
  cases rest with
  | nil => exact .inl rfl
  | cons c rest => exact .inr (by simpa using h)

/-- A text is decoded in two parts if no escape goes across: what comes of the first part has at
least as many slashes, and is shorter if there are escapes. -/
theorem decode_front {dir s path : List UInt8} (h : strictPercentDecode (dir ++ s) = some path)
    (hs : dir = [] ∨ s = [] ∨ s.head? = some (byte '/') ∨ dir.getLast? = some (byte '/')) :
    ∃ front back, path = front ++ back ∧ strictPercentDecode s = some back ∧
      front.length ≤ dir.length ∧
      (byte '%' ∈ dir → front.length < dir.length) ∧ dir.count (byte '/') ≤
        front.count (byte '/') := by
  induction dir using strictPercentDecode.induct generalizing path with
  | case1 => exact ⟨[], path, rfl, h, Nat.le_refl _, by simp, Nat.le_refl _⟩
  | case2 b rest hb ih =>
    rw [List.cons_append, strictPercentDecode_cons hb] at h
    obtain ⟨more, hmore, rfl⟩ := Option.map_eq_some_iff.1 h
    have hrest : rest = [] ∨ s = [] ∨ s.head? = some (byte '/') ∨ rest.getLast? =
        some (byte '/') := by
      rcases hs with hnil | hs | hs | hs
      · cases hnil
      · exact .inr (.inl hs)
      · exact .inr (.inr (.inl hs))
      · exact (getLast?_tail hs).imp_right fun hlast => .inr (.inr hlast)
    obtain ⟨front, back, rfl, hback, hlen, hshort, hcount⟩ := ih hmore hrest
    refine ⟨b :: front, back, rfl, hback, Nat.succ_le_succ hlen, fun hmem => ?_, ?_⟩
    · rcases List.mem_cons.1 hmem with heq | hmem
      · exact absurd heq.symm hb
      · exact Nat.succ_lt_succ (hshort hmem)
    · simp only [List.count_cons]
      omega
  | case3 b hb high low rest high' low' hlow hhigh ih =>
    obtain rfl := not_not.1 hb
    rw [List.cons_append, List.cons_append, List.cons_append, strictPercentDecode_percent, hhigh,
      hlow] at h
    obtain ⟨more, hmore, rfl⟩ := Option.map_eq_some_iff.1 h
    have hrest : rest = [] ∨ s = [] ∨ s.head? = some (byte '/') ∨ rest.getLast? =
        some (byte '/') := by
      rcases hs with hnil | hs | hs | hs
      · cases hnil
      · exact .inr (.inl hs)
      · exact .inr (.inr (.inl hs))
      · cases rest with
        | nil => exact .inl rfl
        | cons c rest => exact .inr (.inr (.inr (by simpa using hs)))
    obtain ⟨front, back, rfl, hback, hlen, -, hcount⟩ := ih hmore hrest
    have hdigit : ∀ {c value : UInt8}, decodeHexDigit c = some value → c ≠ byte '/' := by
      rintro c value hc rfl
      cases hc
    refine ⟨_ :: front, back, rfl, hback, ?_, fun _ => ?_, ?_⟩
    · simp only [List.length_cons]
      omega
    · simp only [List.length_cons]
      omega
    · rw [List.count_cons_of_ne (by decide), List.count_cons_of_ne (hdigit hhigh),
        List.count_cons_of_ne (hdigit hlow)]
      exact hcount.trans List.count_le_count_cons
  | case4 b hb high low rest hbad =>
    obtain rfl := not_not.1 hb
    rw [List.cons_append, List.cons_append, List.cons_append, strictPercentDecode_percent] at h
    obtain ⟨high', hhigh, h⟩ := Option.bind_eq_some_iff.1 h
    obtain ⟨low', hlow, -⟩ := Option.bind_eq_some_iff.1 h
    exact (hbad high' low' hhigh hlow).elim
  | case5 b rest hb hshort =>
    -- an escape would have to end in `s`
    obtain rfl := not_not.1 hb
    exfalso
    have hslash : decodeHexDigit (byte '/') = none := rfl
    match rest, s with
    | [], [] => cases h
    | [], [c] => cases h
    | [], c :: d :: s =>
      have hc : c = byte '/' := by simpa [byte] using hs
      rw [List.singleton_append, strictPercentDecode_percent, hc, hslash] at h
      cases h
    | [c], [] => cases h
    | [c], d :: s =>
      rw [List.cons_append, List.singleton_append, strictPercentDecode_percent] at h
      obtain ⟨high, hhigh, h⟩ := Option.bind_eq_some_iff.1 h
      obtain ⟨low, hlow, -⟩ := Option.bind_eq_some_iff.1 h
      rcases hs with hnil | hnil | hhead | hlast
      · cases hnil
      · cases hnil
      · obtain rfl : d = byte '/' := by simpa using hhead
        cases hlow
      · obtain rfl : c = byte '/' := by simpa using hlast
        cases hhigh
    | c :: d :: rest, s => exact hshort c d rest rfl

/-- The path of a URI that ends within a text is shorter than that text. -/
theorem length_decode_stopped {dir more path : List UInt8}
    (h : strictPercentDecode ((dir ++ more).takeWhile fun b => !endsUriPathByte b) = some path)
    (hdir : ¬ ∀ b ∈ dir, endsUriPathByte b = false) : path.length < dir.length := by
  simp only [not_forall, Bool.not_eq_false] at hdir
  obtain ⟨b, hb, hends⟩ := hdir
  obtain ⟨before, after, rfl⟩ := List.append_of_mem hb
  have hstop : ((before ++ b :: after ++ more).takeWhile fun b => !endsUriPathByte b).length ≤
      before.length := by
    rw [List.append_assoc, List.takeWhile_append]
    split
    · rw [List.cons_append, List.takeWhile_cons_of_neg (by simp [hends]), List.append_nil]
    · exact (List.takeWhile_sublist _).length_le
  rw [← List.append_nil (List.takeWhile _ _)] at h
  obtain ⟨front, back, rfl, hback, hlen, -⟩ := decode_front h (.inr (.inl rfl))
  cases hback
  rw [List.append_nil, List.length_append, List.length_cons]
  omega

end Root

end RemoteMirror.Sidecar.Lsp
