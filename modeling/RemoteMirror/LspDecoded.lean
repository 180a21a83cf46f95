/-
**Rewritten URIs and decoded paths.**

A file URI denotes the path that it is decoded to, and the same path has many URIs.
`rewrite_lsp_uri` does not decode: it looks for the old root in two spellings, one with all special
bytes encoded, one with none.  Here this is compared with the meaning: take the decoded path, cut
the old root off at a segment boundary, put the new root in front.

The two agree for a URI that starts with the encoded spelling.  They need not agree for other URIs:
one that encodes some special bytes of the root and not others is left alone (editors write
`/my%20(x)`), and the literal spelling goes wrong for roots with characters that have a meaning in
URIs.

Main definitions:

* `Sidecar.Lsp.filePath` — the path that a file URI denotes;
* `Sidecar.Lsp.behindRoot`, `Sidecar.Lsp.joinDecoded` — decoded paths below a root;
* `Sidecar.Lsp.rewrittenPath` — what a URI means in the other root;
* `Sidecar.Lsp.SpelledAlike` — the URI spells the root in one of the two ways.

Main results:

* `Sidecar.Lsp.behindRoot_of_strip` — behind a spelling of the root stands what is behind the root;
* `Sidecar.Lsp.behindRoot_of_percent` — a root with a percent sign is never found below its literal
  spelling;
* `Sidecar.Lsp.rewriteLspUri_decoded_iff` — **URIs are rewritten by their meaning exactly if they
  are spelled alike**;
* `Sidecar.Lsp.mixed_spelling_not_rewritten` — a URI that is not.
-/

import RemoteMirror.LspSpelling

namespace RemoteMirror.Sidecar.Lsp

open TextSlice

/-! ### What a URI means -/

/-- What follows `file://`, in upper or lower case. -/
def afterScheme (bytes : List UInt8) : Option (List UInt8) :=
  if (bytes.take 7).map toAsciiLowercase = utf8 fileScheme then some (bytes.drop 7) else none

/-- The path of a file URI: what follows the scheme up to a query or a fragment, decoded. -/
def filePath (uri : Text) : Option (List UInt8) :=
  (afterScheme (utf8 uri)).bind fun rest => strictPercentDecode (rest.takeWhile fun b =>
    !endsUriPathByte b)

/-- What follows a root in a decoded path. -/
def behindRoot (root : Text) (path : List UInt8) : Option (List UInt8) :=
  let dir := utf8 (fileUriPath root)
  match (foldDrive root dir).isPrefixOf? (foldDrive root path) with
  | some rest =>
    if rest = [] ∨ dir.getLast? = some (byte '/') ∨ rest.head? = some (byte '/') then some rest
    else none
  | none => none

/-- A decoded path below another root. -/
def joinDecoded (fromPre toPre : Text) (rest : List UInt8) : List UInt8 :=
  let dir := utf8 (fileUriPath toPre)
  if (utf8 (fileUriPath fromPre)).getLast? = some (byte '/') ∧ dir.getLast? ≠ some (byte '/') ∧
      rest ≠ [] then
    dir ++ byte '/' :: rest
  else dir ++ rest

/-- What a URI means in the other root: nothing, if its path is not in the old root or it is not
well formed. -/
def rewrittenPath (text fromPre toPre : Text) : Option (List UInt8) :=
  if text.any isWhitespace then none
  else
    match (filePath text).bind (behindRoot fromPre) with
    | some rest =>
      if bytesHaveNoDotSegments rest (traversalPathStyle (pathStyle fromPre) (pathStyle toPre)) then
        some (joinDecoded fromPre toPre rest)
      else none
    | none => none

/-- A drive, or a slash at the start. -/
def isAbsolute (path : Text) : Bool := pathStyle path = .windows || path.head? = some '/'

/-- No character of the root has a meaning in URIs. -/
def plainRoot (root : Text) : Bool := (fileUriPath root).all fun c => c ≠ '%' && !endsUriPath c

/-- The URI starts with the encoded spelling of the old root; or it starts with the literal one, and
that spelling says the same; or it is not in the old root at all. -/
def SpelledAlike (text fromPre toPre : Text) : Prop :=
  text.any isWhitespace = true ∨
    (stripUriPrefixWithBoundary text (encodedUri fromPre) (pathStyle fromPre)).isSome = true ∨
    match stripUriPrefixWithBoundary text (literalUri fromPre) (pathStyle fromPre) with
    | some suffix => (plainRoot fromPre = true ∧ plainRoot toPre = true) ∨
        uriSuffixHasNoDotSegments suffix (traversalPathStyle (pathStyle fromPre)
        (pathStyle toPre)) = false
    | none => rewrittenPath text fromPre toPre = none

theorem isAbsolute_ne_nil {path : Text} (h : isAbsolute path = true) : path ≠ [] := by
  rintro rfl
  cases h

section Root

variable {root : Text}

/-! ### A root with percent signs -/

/-- Which bytes are slashes. -/
def slashes (path : List UInt8) : List Bool := path.map fun b => decide (b = byte '/')

theorem count_slashes (path : List UInt8) : (slashes path).count true = path.count (byte '/') := by
  induction path with
  | nil => rfl
  | cons b path ih =>
    have ih' : List.count true (List.map (fun b => decide (b = byte '/')) path) =
      path.count (byte '/') := ih
    simp [slashes, List.count_cons, ih']

theorem slashes_foldDrive (path : List UInt8) : slashes (foldDrive root path) = slashes path := by
  have hslash : byte '/' ∈ [byte '/', byte '%', byte '?', byte '#'] := by decide
  unfold foldDrive
  split
  · match path with
    | [] => rfl
    | [b] => rfl
    | b :: c :: path => simp [slashes, toAsciiLowercase_eq hslash]
  · rfl

theorem length_foldDrive (path : List UInt8) : (foldDrive root path).length = path.length := by
  unfold foldDrive
  split
  · exact List.length_modify ..
  · rfl

/-- The drive is in the root. -/
theorem foldDrive_append (rest : List UInt8) : foldDrive root (utf8 (fileUriPath root) ++ rest) =
    foldDrive root (utf8 (fileUriPath root)) ++ rest := by
  unfold foldDrive
  split
  · rename_i hstyle
    obtain ⟨d, more, -, -, hbytes, -⟩ := windows_spellings hstyle
    rw [hbytes]
    simp
  · rfl

variable {path rest : List UInt8}

theorem behindRoot_eq_some : behindRoot root path = some rest ↔
    foldDrive root (utf8 (fileUriPath root)) ++ rest = foldDrive root path ∧
      (rest = [] ∨ (utf8 (fileUriPath root)).getLast? = some (byte '/') ∨ rest.head? =
        some (byte '/')) := by
  unfold behindRoot
  simp only
  split
  · rename_i found hfound
    rw [List.isPrefixOf?_eq_some_iff_append_eq] at hfound
    rw [← hfound, List.append_cancel_left_eq]
    split
    · rename_i hboundary
      rw [Option.some.injEq]
      constructor
      · rintro rfl
        exact ⟨rfl, hboundary⟩
      · exact fun h => h.1.symm
    · rename_i hboundary
      constructor
      · exact fun h => nomatch h
      · rintro ⟨rfl, h⟩
        exact absurd h hboundary
  · rename_i hnone
    constructor
    · exact fun h => nomatch h
    · rintro ⟨h, -⟩
      rw [List.isPrefixOf?_eq_some_iff_append_eq.2 h] at hnone
      cases hnone

/-- A path is at least as long as the root it is in. -/
theorem length_of_behindRoot (h : behindRoot root path = some rest) :
    (utf8 (fileUriPath root)).length ≤ path.length := by
  have hlen := congrArg List.length (behindRoot_eq_some.1 h).1
  rw [List.length_append, length_foldDrive, length_foldDrive] at hlen
  omega

/-- **A root with a percent sign is never found below its literal spelling**: that is decoded to
something shorter, and the rest of the root would have to come from the path behind it, but has no
slash. -/
theorem behindRoot_of_percent (hpercent : byte '%' ∈ utf8 (fileUriPath root)) {s path' : List UInt8}
    (hdecoded : strictPercentDecode (utf8 (fileUriPath root) ++ s) = some path')
    (hs : s = [] ∨ s.head? = some (byte '/') ∨ (utf8 (fileUriPath root)).getLast? = some (byte '/'))
    (hfold : foldDrive root path = foldDrive root path') : behindRoot root path = none := by
  refine Option.eq_none_iff_forall_ne_some.2 fun rest hrest => ?_
  obtain ⟨front, back, rfl, hback, -, hshort, hcount⟩ := decode_front hdecoded (.inr hs)
  have hlt := hshort hpercent
  -- compare the slashes on both sides
  have heq := congrArg slashes ((behindRoot_eq_some.1 hrest).1.trans hfold)
  rw [slashes_foldDrive, slashes, List.map_append, slashes, List.map_append] at heq
  change slashes (foldDrive root (utf8 (fileUriPath root))) ++ slashes rest = slashes front ++
    slashes back at heq
  rw [slashes_foldDrive] at heq
  rw [← count_slashes, ← count_slashes front] at hcount
  have hlast : (utf8 (fileUriPath root)).getLast? = some (byte '/') →
      (slashes (utf8 (fileUriPath root))).getLast? = some true := by
    intro hlast
    rw [slashes, List.getLast?_map, hlast]
    rfl
  have hlen : (slashes front).length < (slashes (utf8 (fileUriPath root))).length := by
    simpa [slashes] using hlt
  generalize slashes (utf8 (fileUriPath root)) = dirSlashes at heq hcount hlast hlen
  obtain ⟨middle, rfl, hmiddle⟩ : ∃ middle, dirSlashes = slashes front ++ middle ∧
      slashes back = middle ++ slashes rest := by
    rcases List.append_eq_append_iff.1 heq with ⟨middle, hfront, -⟩ | ⟨middle, hdir, hmiddle⟩
    · rw [hfront, List.length_append] at hlen
      omega
    · exact ⟨middle, hdir, hmiddle⟩
  have hnone : true ∉ middle := by
    rw [List.count_append] at hcount
    exact List.count_eq_zero.1 (by omega)
  cases middle with
  | nil => simp at hlen
  | cons first middle =>
    rcases hs with rfl | hhead | hlast'
    · cases hback
      cases hmiddle
    · -- what follows the spelling starts with a slash
      cases s with
      | nil => cases hhead
      | cons b s =>
        obtain rfl : b = byte '/' := by simpa using hhead
        rw [strictPercentDecode_cons (by decide)] at hback
        obtain ⟨more, -, rfl⟩ := Option.map_eq_some_iff.1 hback
        have hfirst : first = true := by simpa [slashes] using (List.cons.inj hmiddle).1.symm
        exact hnone (by rw [hfirst]; exact List.mem_cons_self)
    · have hend := hlast hlast'
      rw [List.getLast?_append_of_ne_nil _ (List.cons_ne_nil _ _)] at hend
      exact hnone (List.mem_of_getLast? hend)

/-! ### A URI that starts with a spelling of the root -/

/-- The path of what follows the root in a URI, not decoded. -/
def suffixPath (suffix : Text) : List UInt8 := utf8 (suffix.takeWhile fun c => !endsUriPath c)

variable {spelling suffix : Text}

/-- What the match says: the URI is a file URI, and behind the scheme it starts with the spelling.
-/
theorem afterScheme_of_strip {text : Text}
    (hdrive : pathStyle root = .windows → ∃ d more, d ≠ byte '%' ∧ utf8 spelling =
      byte '/' :: d :: byte ':' :: more)
    (h : stripUriPrefixWithBoundary text (fileScheme ++ spelling) (pathStyle root) = some suffix) :
    ∃ cs, afterScheme (utf8 text) = some (cs ++ utf8 suffix) ∧
      AlignedIn root cs (utf8 spelling) := by
  unfold stripUriPrefixWithBoundary at h
  split at h
  case h_1 => cases h
  case h_2 candidate rest hsplit =>
    split at h
    case isTrue => cases h
    case isFalse heq =>
      obtain rfl : rest = suffix := by
        split at h
        · exact Option.some.inj h
        · cases h
      rw [Bool.not_eq_true, Bool.not_eq_false'] at heq
      obtain ⟨scheme, cs, hcandidate, hscheme, halign⟩ := alignedIn_of_uriPrefixEq hdrive heq
      refine ⟨cs, ?_, halign⟩
      have hlen : scheme.length = 7 := by
        have hmap := congrArg List.length hscheme
        rwa [List.length_map] at hmap
      rw [append_of_splitBytes hsplit, utf8_append, hcandidate, List.append_assoc, afterScheme,
        List.take_left' hlen, List.drop_left' hlen, if_pos hscheme]

/-- The part behind the root starts at a boundary. -/
abbrev AtBoundary (pre suffix : Text) : Prop :=
  suffixPath suffix = [] ∨ (suffixPath suffix).head? = some (byte '/') ∨ pre.getLast? = some '/'

theorem suffixPath_boundary {pre : Text}
    (h : suffix = [] ∨ pre.getLast? = some '/' ∨ ∃ c rest, suffix = c :: rest ∧
      (c = '/' ∨ endsUriPath c = true)) :
    AtBoundary pre suffix := by
  rcases h with rfl | hlast | ⟨c, rest, rfl, rfl | hc⟩
  · exact .inl rfl
  · exact .inr (.inr hlast)
  · exact .inr (.inl rfl)
  · exact .inl (by simp [suffixPath, hc])

/-- The spelling ends in a slash with the root. -/
abbrev EndsAlike (uri root : Text) : Prop :=
  uri.getLast? = some '/' ↔ (utf8 (fileUriPath root)).getLast? = some (byte '/')

theorem getLast?_encodedUri (hroot : root ≠ []) : EndsAlike (encodedUri root) root := by
  constructor
  · intro h
    obtain ⟨front, hfront⟩ := (spells_encoded hroot).ends h
    rw [hfront, List.getLast?_concat]
  · intro h
    obtain ⟨front, hfront⟩ := List.getLast?_eq_some_iff.1 h
    have hcode : percentEncodeByte (byte '/') = ['/'] := by decide
    rw [encodedUri, percentEncodeUriPath, hfront, List.flatMap_append, List.flatMap_singleton,
      hcode, ← List.append_assoc, List.getLast?_concat]

theorem getLast?_literalUri (hroot : root ≠ []) : EndsAlike (literalUri root) root := by
  rw [EndsAlike, literalUri, getLast?_fileScheme_append (fileUriPath_ne_nil hroot)]
  obtain ⟨front, c, hfront⟩ := (List.eq_nil_or_concat _).resolve_left (fileUriPath_ne_nil hroot)
  rw [hfront, List.concat_eq_append, List.getLast?_concat, utf8_append,
    List.getLast?_append_of_ne_nil _ (utf8_ne_nil (List.cons_ne_nil c [])), Option.some.injEq]
  constructor
  · rintro rfl
    rfl
  · intro h
    have hmem : byte '/' ∈ utf8 [c] := List.mem_of_getLast? h
    have hchar : Char.ofNat (byte '/').toNat ∈ [c] := ascii_mem_utf8 hmem (by decide)
    exact (List.mem_singleton.1 hchar).symm

theorem endsUriPathByte_of_mem {text : Text} (h : ∀ c ∈ text, endsUriPath c = false) :
    ∀ b ∈ utf8 text, endsUriPathByte b = false := by
  intro b hb
  obtain ⟨c, hc, hin⟩ := List.mem_flatMap.1 hb
  have hspec := endsUriPathByte_utf8EncodeChar c
  rw [h c hc, if_neg (by decide)] at hspec
  exact hspec b hin

/-- **Behind a spelling of the root stands what is behind the root in the decoded path.** -/
theorem behindRoot_of_strip {text : Text} (hspells : Spells root spelling)
    (hdrive : pathStyle root = .windows → ∃ d more, d ≠ byte '%' ∧ utf8 spelling =
      byte '/' :: d :: byte ':' :: more)
    (hlast : EndsAlike (fileScheme ++ spelling) root)
    (h : stripUriPrefixWithBoundary text (fileScheme ++ spelling) (pathStyle root) = some suffix) :
    (filePath text).bind (behindRoot root) = strictPercentDecode (suffixPath suffix) := by
  obtain ⟨cs, hafter, halign⟩ := afterScheme_of_strip hdrive h
  have hwhole : strictPercentDecode (utf8 spelling) = some (utf8 (fileUriPath root)) := by
    simpa [strictPercentDecode] using hspells.decodes []
  have hplain := halign.plain hwhole (endsUriPathByte_of_mem hspells.plain)
  have hpath : filePath text = strictPercentDecode (cs ++ suffixPath suffix) := by
    rw [filePath, hafter, Option.bind_some,
      List.takeWhile_append_of_pos (fun b hb => by simp [hplain b hb]), takeWhile_utf8, suffixPath]
  have hdecode := halign.decode (suffixPath suffix)
  rw [hspells.decodes, Option.map_map] at hdecode
  rw [hpath]
  cases hrest : strictPercentDecode (suffixPath suffix) with
  | none =>
    rw [hrest, Option.map_none, Option.map_eq_none_iff] at hdecode
    rw [hdecode]
    rfl
  | some rest =>
    rw [hrest, Option.map_some] at hdecode
    obtain ⟨path, hdecoded, hfold⟩ := Option.map_eq_some_iff.1 hdecode
    rw [hdecoded, Option.bind_some, behindRoot_eq_some]
    refine ⟨?_, ?_⟩
    · rw [hfold, Function.comp_apply, foldDrive_append]
    · rcases suffixPath_boundary (stripUriPrefixWithBoundary_boundary h) with hnil | hhead | hends
      · rw [hnil] at hrest
        cases hrest
        exact .inl rfl
      · cases hsuffix : suffixPath suffix with
        | nil =>
          rw [hsuffix] at hhead
          cases hhead
        | cons b bytes =>
          rw [hsuffix] at hhead hrest
          obtain rfl : b = byte '/' := by simpa using hhead
          rw [strictPercentDecode_cons (by decide)] at hrest
          obtain ⟨more, -, rfl⟩ := Option.map_eq_some_iff.1 hrest
          exact .inr (.inr rfl)
      · exact .inr (.inl (hlast.1 hends))

theorem plainRoot_iff : plainRoot root = true ↔ ∀ c ∈ fileUriPath root, c ≠ '%' ∧
    endsUriPath c = false := by
  simp [plainRoot]

theorem plainRoot_of_bytes (hpercent : byte '%' ∉ utf8 (fileUriPath root))
    (hends : ∀ b ∈ utf8 (fileUriPath root), endsUriPathByte b = false) : plainRoot root = true := by
  refine plainRoot_iff.2 fun c hc => ⟨?_, ?_⟩
  · rintro rfl
    exact hpercent (List.mem_flatMap.2 ⟨'%', hc, by decide⟩)
  · by_contra hc'
    have hspec := endsUriPathByte_utf8EncodeChar c
    rw [Bool.not_eq_false] at hc'
    rw [if_pos hc'] at hspec
    have hbyte := hends (byte c) (List.mem_flatMap.2 ⟨c, hc, by simp [hspec.1]⟩)
    rw [hspec.2] at hbyte
    cases hbyte

/-- A root with characters that have a meaning in URIs is not where its literal spelling is. -/
theorem behindRoot_of_literal {text : Text} (hroot : root ≠ []) (hplain : plainRoot root = false)
    (h : stripUriPrefixWithBoundary text (literalUri root) (pathStyle root) = some suffix) :
    (filePath text).bind (behindRoot root) = none := by
  obtain ⟨cs, hafter, halign⟩ := afterScheme_of_strip drive_literal h
  rw [filePath, hafter, Option.bind_some]
  refine Option.eq_none_iff_forall_ne_some.2 fun rest hrest => ?_
  obtain ⟨path, hdecoded, hbehind⟩ := Option.bind_eq_some_iff.1 hrest
  by_cases hcs : ∀ b ∈ cs, endsUriPathByte b = false
  · rw [List.takeWhile_append_of_pos (fun b hb => by simp [hcs b hb]), takeWhile_utf8] at hdecoded
    have hpercent : byte '%' ∈ utf8 (fileUriPath root) := by
      by_contra hnot
      exact Bool.eq_false_iff.1 hplain (plainRoot_of_bytes hnot (halign.plain_of_literal hnot hcs))
    have hdecode := halign.decode (suffixPath suffix)
    rw [suffixPath, hdecoded, Option.map_some, eq_comm] at hdecode
    obtain ⟨path', hdecoded', hfold⟩ := Option.map_eq_some_iff.1 hdecode
    have hs := (suffixPath_boundary (stripUriPrefixWithBoundary_boundary h)).imp_right
      (Or.imp_right (getLast?_literalUri hroot).1)
    rw [behindRoot_of_percent hpercent hdecoded' hs hfold.symm] at hbehind
    cases hbehind
  · have hshort := length_decode_stopped hdecoded hcs
    have hlong := length_of_behindRoot hbehind
    rw [← halign.length_eq] at hlong
    omega

end Root

/-! ### The rewritten URI -/

section Join

variable {fromPre toPre fromUri suffix : Text} {rest : List UInt8}

theorem strictPercentDecode_eq_nil {bytes : List UInt8} (h : strictPercentDecode bytes = some []) :
    bytes = [] := by
  cases bytes with
  | nil => rfl
  | cons b bytes =>
    exfalso
    by_cases hb : b = byte '%'
    · subst hb
      match bytes with
      | [] => cases h
      | [high] => cases h
      | high :: low :: bytes =>
        rw [strictPercentDecode_percent] at h
        obtain ⟨high', -, h⟩ := Option.bind_eq_some_iff.1 h
        obtain ⟨low', -, h⟩ := Option.bind_eq_some_iff.1 h
        obtain ⟨more, -, hnil⟩ := Option.map_eq_some_iff.1 h
        cases hnil
    · rw [strictPercentDecode_cons hb] at h
      obtain ⟨more, -, hnil⟩ := Option.map_eq_some_iff.1 h
      cases hnil

theorem filePath_fileScheme (more : Text) : filePath (fileScheme ++ more) =
      strictPercentDecode ((utf8 more).takeWhile fun b => !endsUriPathByte b) := by
  have hscheme : (utf8 fileScheme).map toAsciiLowercase = utf8 fileScheme := by decide
  rw [filePath, afterScheme, utf8_append, List.take_left' (by rfl), List.drop_left' (by rfl),
    if_pos hscheme]
  rfl

variable (hfrom : EndsAlike fromUri fromPre) (hboundary : AtBoundary fromUri suffix)
  (hrest : strictPercentDecode (suffixPath suffix) = some rest)

include hfrom hboundary hrest

/-- What is put between the new root and the rest. -/
theorem joinRewrittenUri_spec {toUri : Text} (hto : EndsAlike toUri toPre) :
    ∃ front : Text, joinRewrittenUri fromUri toUri suffix = toUri ++ (front ++ suffix) ∧
      suffixPath (front ++ suffix) = utf8 front ++ suffixPath suffix ∧
      strictPercentDecode (utf8 front ++ suffixPath suffix) = some (utf8 front ++ rest) ∧
      joinDecoded fromPre toPre rest = utf8 (fileUriPath toPre) ++ (utf8 front ++ rest) ∧
      (utf8 front ++ suffixPath suffix = [] ∨ (utf8 front ++ suffixPath suffix).head? =
        some (byte '/') ∨ (utf8 (fileUriPath toPre)).getLast? = some (byte '/')) := by
  unfold EndsAlike at hfrom hto
  -- the rest is empty exactly if nothing of the path is left
  have hempty : rest = [] ↔ (suffix = [] ∨ suffix.head?.any endsUriPath = true) := by
    cases suffix with
    | nil =>
      cases hrest
      simp
    | cons c suffix =>
      cases hc : endsUriPath c with
      | true =>
        have hnil : suffixPath (c :: suffix) = [] := by simp [suffixPath, hc]
        rw [hnil] at hrest
        cases hrest
        simp [hc]
      | false =>
        have hcons : suffixPath (c :: suffix) ≠ [] := by
          rw [suffixPath, List.takeWhile_cons_of_pos (by simp [hc])]
          exact utf8_ne_nil (List.cons_ne_nil _ _)
        simp only [reduceCtorEq, List.head?_cons, Option.any_some, hc, Bool.false_eq_true, or_self,
          iff_false]
        rintro rfl
        exact hcons (strictPercentDecode_eq_nil hrest)
  by_cases hsep : (utf8 (fileUriPath fromPre)).getLast? = some (byte '/') ∧
      (utf8 (fileUriPath toPre)).getLast? ≠ some (byte '/') ∧ rest ≠ []
  · refine ⟨['/'], ?_, rfl, ?_, ?_, .inr (.inl rfl)⟩
    · rw [joinRewrittenUri, if_pos, List.append_assoc]
      rw [hfrom, Ne, hto, Ne, ← not_or, ← hempty]
      exact hsep
    · change strictPercentDecode (byte '/' :: suffixPath suffix) = _
      rw [strictPercentDecode_cons (by decide), hrest]
      rfl
    · rw [joinDecoded, if_pos hsep]
      rfl
  · refine ⟨[], ?_, rfl, hrest, ?_, ?_⟩
    · rw [joinRewrittenUri, if_neg, List.append_nil]
      · rfl
      · rw [hfrom, Ne, hto, Ne, ← not_or, ← hempty]
        exact hsep
    · rw [joinDecoded, if_neg hsep]
      rfl
    · change suffixPath suffix = [] ∨ (suffixPath suffix).head? = some (byte '/') ∨ _
      rcases hboundary with hnil | hhead | hends
      · exact .inl hnil
      · exact .inr (.inl hhead)
      · by_cases hslash : (utf8 (fileUriPath toPre)).getLast? = some (byte '/')
        · exact .inr (.inr hslash)
        · have hnil : rest = [] := by
            by_contra hne
            exact hsep ⟨hfrom.1 hends, hslash, hne⟩
          refine .inl ?_
          rcases hempty.1 hnil with rfl | hhead
          · rfl
          · cases suffix with
            | nil => rfl
            | cons c suffix => simp [suffixPath, show endsUriPath c = true from hhead]

/-- **With a spelling that says the same, the rewritten URI denotes the joined path.** -/
theorem filePath_joinRewrittenUri {spelling : Text} (hspells : Spells toPre spelling)
    (hto : EndsAlike (fileScheme ++ spelling) toPre) :
    filePath (joinRewrittenUri fromUri (fileScheme ++ spelling) suffix) =
      some (joinDecoded fromPre toPre rest) := by
  obtain ⟨front, hjoin, hpath, hdecode, hjoined, -⟩ :=
    joinRewrittenUri_spec hfrom hboundary hrest hto
  rw [hjoin, List.append_assoc, filePath_fileScheme, utf8_append,
    List.takeWhile_append_of_pos fun b hb => by simp [endsUriPathByte_of_mem hspells.plain b hb],
    takeWhile_utf8]
  rw [suffixPath] at hpath
  rw [hpath, hspells.decodes, hdecode, hjoined]
  rfl

/-- **With characters that have a meaning in URIs, the literal spelling denotes another path.** -/
theorem filePath_joinRewrittenUri_literal (htoPre : toPre ≠ []) (hplain : plainRoot toPre = false) :
    filePath (joinRewrittenUri fromUri (literalUri toPre) suffix) ≠
      some (joinDecoded fromPre toPre rest) := by
  obtain ⟨front, hjoin, hpath, hdecode, hjoined, hs⟩ :=
    joinRewrittenUri_spec hfrom hboundary hrest (getLast?_literalUri htoPre)
  intro heq
  rw [hjoin, literalUri, List.append_assoc, filePath_fileScheme, utf8_append, hjoined] at heq
  by_cases hends : ∀ b ∈ utf8 (fileUriPath toPre), endsUriPathByte b = false
  · rw [List.takeWhile_append_of_pos fun b hb => by simp [hends b hb], takeWhile_utf8] at heq
    rw [suffixPath] at hpath
    rw [hpath] at heq
    obtain ⟨decoded, back, hsplit, hback, -, hshort, -⟩ := decode_front heq (.inr hs)
    rw [hdecode, Option.some.injEq] at hback
    have hpercent : byte '%' ∈ utf8 (fileUriPath toPre) := by
      by_contra hnot
      exact Bool.eq_false_iff.1 hplain (plainRoot_of_bytes hnot hends)
    have hlt := hshort hpercent
    have hlen := congrArg List.length hsplit
    rw [← hback] at hlen
    simp only [List.length_append] at hlen
    omega
  · have hlt := length_decode_stopped heq hends
    rw [List.length_append] at hlt
    omega

end Join

/-! ### Rewriting by meaning -/

/-- The loop over the two spellings. -/
theorem rewriteLspUri_eq (text fromPre toPre : Text) (hspace : text.any isWhitespace = false) :
    rewriteLspUri text fromPre toPre =
      (match stripUriPrefixWithBoundary text (encodedUri fromPre) (pathStyle fromPre) with
      | some suffix =>
        if !uriSuffixHasNoDotSegments suffix (traversalPathStyle (pathStyle fromPre)
            (pathStyle toPre)) then none
        else some (joinRewrittenUri (encodedUri fromPre) (encodedUri toPre) suffix)
      | none =>
        match stripUriPrefixWithBoundary text (literalUri fromPre) (pathStyle fromPre) with
        | some suffix =>
          if !uriSuffixHasNoDotSegments suffix (traversalPathStyle (pathStyle fromPre)
              (pathStyle toPre)) then none
          else some (joinRewrittenUri (literalUri fromPre) (literalUri toPre) suffix)
        | none => none) := by
  rw [rewriteLspUri, hspace, if_neg Bool.false_ne_true]
  by_cases heq : (encodedUri fromPre, encodedUri toPre) = (literalUri fromPre, literalUri toPre)
  · have hpairs : pathToFileUriPrefixPairs fromPre toPre =
        [(literalUri fromPre, literalUri toPre)] :=
      if_neg (not_not.2 heq)
    obtain ⟨hfrom, hto⟩ := Prod.mk.inj heq
    rw [hpairs, hfrom, hto, rewriteFirst]
    cases stripUriPrefixWithBoundary text (literalUri fromPre) (pathStyle fromPre) with
    | some suffix => rfl
    | none => rfl
  · have hpairs : pathToFileUriPrefixPairs fromPre toPre =
        [(encodedUri fromPre, encodedUri toPre), (literalUri fromPre, literalUri toPre)] :=
          if_pos heq
    rw [hpairs]
    rfl

/-- For a text without whitespace, the meaning is found in what is behind the root. -/
theorem rewrittenPath_eq {text fromPre toPre : Text} (hspace : text.any isWhitespace = false) :
    rewrittenPath text fromPre toPre =
      ((filePath text).bind (behindRoot fromPre)).bind fun rest =>
        if bytesHaveNoDotSegments rest (traversalPathStyle (pathStyle fromPre) (pathStyle toPre))
          then some (joinDecoded fromPre toPre rest)
        else none := by
  rw [rewrittenPath, hspace, if_neg Bool.false_ne_true]
  split
  · rename_i rest hrest
    rw [hrest]
    rfl
  · rename_i hnone
    rw [hnone]
    rfl

theorem uriSuffixHasNoDotSegments_eq (suffix : Text) (style : PathStyle) :
    uriSuffixHasNoDotSegments suffix style =
      (strictPercentDecode (suffixPath suffix)).any fun rest =>
        bytesHaveNoDotSegments rest style := by
  unfold uriSuffixHasNoDotSegments suffixPath bytesHaveNoDotSegments
  split
  · rename_i decoded hdecoded
    rw [hdecoded]
    rfl
  · rename_i hdecoded
    rw [hdecoded]
    rfl

/-- The URI is rewritten exactly if it has a meaning in the other root, and the result denotes it.
-/
def RewrittenByMeaning (text fromPre toPre : Text) : Prop :=
  (rewriteLspUri text fromPre toPre).map filePath = (rewrittenPath text fromPre toPre).map some

section Matched

variable {text fromPre toPre fromUri toUri suffix : Text}

/-- A URI that was matched in a spelling of the old root: it is rewritten by its meaning, if the
rewritten URI denotes the joined path. -/
theorem rewritten_of_matched (hspace : text.any isWhitespace = false)
    (hbehind : (filePath text).bind (behindRoot fromPre) = strictPercentDecode (suffixPath suffix))
    (hresult : ∀ rest, strictPercentDecode (suffixPath suffix) = some rest →
      filePath (joinRewrittenUri fromUri toUri suffix) = some (joinDecoded fromPre toPre rest)) :
    (if !uriSuffixHasNoDotSegments suffix (traversalPathStyle (pathStyle fromPre) (pathStyle toPre))
      then none
      else some (joinRewrittenUri fromUri toUri suffix)).map filePath =
        (rewrittenPath text fromPre toPre).map some := by
  rw [rewrittenPath_eq hspace, hbehind, uriSuffixHasNoDotSegments_eq]
  cases hrest : strictPercentDecode (suffixPath suffix) with
  | none => rfl
  | some rest =>
    rw [Option.any_some, Option.bind_some]
    cases bytesHaveNoDotSegments rest (traversalPathStyle (pathStyle fromPre)
      (pathStyle toPre)) with
    | false => rfl
    | true => exact congrArg some (hresult rest hrest)

end Matched

variable {text fromPre toPre suffix : Text}

/-- A URI that starts with the encoded spelling is rewritten by its meaning. -/
theorem rewritten_of_encoded (hspace : text.any isWhitespace = false) (hfrom : fromPre ≠ [])
    (hto : toPre ≠ [])
    (h : stripUriPrefixWithBoundary text (encodedUri fromPre) (pathStyle fromPre) = some suffix) :
    RewrittenByMeaning text fromPre toPre := by
  rw [RewrittenByMeaning, rewriteLspUri_eq _ _ _ hspace, h]
  refine rewritten_of_matched hspace (behindRoot_of_strip (spells_encoded hfrom) drive_encoded
    (getLast?_encodedUri hfrom) h) fun rest hrest => ?_
  exact filePath_joinRewrittenUri (getLast?_encodedUri hfrom)
    (suffixPath_boundary (stripUriPrefixWithBoundary_boundary h)) hrest (spells_encoded hto)
    (getLast?_encodedUri hto)

/-- A URI that starts with the literal spelling only is rewritten by its meaning exactly if the
roots are plain, or it is not rewritten. -/
theorem rewritten_iff_of_literal (hspace : text.any isWhitespace = false) (hfrom : fromPre ≠ [])
    (hto : toPre ≠ [])
    (hencoded : stripUriPrefixWithBoundary text (encodedUri fromPre) (pathStyle fromPre) = none)
    (h : stripUriPrefixWithBoundary text (literalUri fromPre) (pathStyle fromPre) = some suffix) :
    RewrittenByMeaning text fromPre toPre ↔ (plainRoot fromPre = true ∧ plainRoot toPre = true) ∨
      uriSuffixHasNoDotSegments suffix (traversalPathStyle (pathStyle fromPre) (pathStyle toPre)) =
        false := by
  have hboundary := suffixPath_boundary (stripUriPrefixWithBoundary_boundary h)
  have hlast := getLast?_literalUri hfrom
  rw [RewrittenByMeaning, rewriteLspUri_eq _ _ _ hspace, hencoded, h]
  simp only
  cases hplainFrom : plainRoot fromPre with
  | false =>
    -- the URI has no meaning, so it must not be rewritten
    rw [rewrittenPath_eq hspace, behindRoot_of_literal hfrom hplainFrom h]
    cases uriSuffixHasNoDotSegments suffix (traversalPathStyle (pathStyle fromPre)
      (pathStyle toPre)) with
    | false => simp
    | true => simp
  | true =>
    have hspells := spells_literal hfrom (plainRoot_iff.1 hplainFrom)
    have hbehind := behindRoot_of_strip hspells drive_literal hlast h
    cases hplainTo : plainRoot toPre with
    | true =>
      simp only [and_self, true_or, iff_true]
      refine rewritten_of_matched hspace hbehind fun rest hrest => ?_
      exact filePath_joinRewrittenUri hlast hboundary hrest
        (spells_literal hto (plainRoot_iff.1 hplainTo))
        (getLast?_literalUri hto)
    | false =>
      rw [rewrittenPath_eq hspace, hbehind, uriSuffixHasNoDotSegments_eq]
      cases hrest : strictPercentDecode (suffixPath suffix) with
      | none => simp
      | some rest =>
        have hwrong := filePath_joinRewrittenUri_literal hlast hboundary hrest hto hplainTo
        rw [Option.any_some, Option.bind_some]
        cases bytesHaveNoDotSegments rest (traversalPathStyle (pathStyle fromPre)
          (pathStyle toPre)) with
        | false => simp
        | true => simpa using hwrong

/-- A URI with whitespace has no meaning and is not rewritten. -/
theorem rewritten_of_whitespace (hspace : text.any isWhitespace = true) :
    RewrittenByMeaning text fromPre toPre := by
  rw [RewrittenByMeaning, rewriteLspUri, rewrittenPath, if_pos hspace, if_pos hspace]
  rfl

theorem rewritten_iff_spelledAlike (hfrom : fromPre ≠ []) (hto : toPre ≠ []) :
    RewrittenByMeaning text fromPre toPre ↔ SpelledAlike text fromPre toPre := by
  unfold SpelledAlike
  cases hspace : text.any isWhitespace with
  | true => simp [rewritten_of_whitespace hspace]
  | false =>
    cases hencoded : stripUriPrefixWithBoundary text (encodedUri fromPre) (pathStyle fromPre) with
    | some suffix => simp [rewritten_of_encoded hspace hfrom hto hencoded]
    | none =>
      cases hliteral : stripUriPrefixWithBoundary text (literalUri fromPre) (pathStyle fromPre) with
      | some suffix => simpa using rewritten_iff_of_literal hspace hfrom hto hencoded hliteral
      | none =>
        rw [RewrittenByMeaning, rewriteLspUri_eq _ _ _ hspace, hencoded, hliteral]
        cases rewrittenPath text fromPre toPre with
        | none => simp
        | some path => simp

/-- **URIs are rewritten by their meaning exactly if they are spelled alike**; and two URIs of the
same path that are spelled alike are rewritten to URIs of the same path. -/
theorem rewriteLspUri_decoded_iff (text fromPre toPre : Text) (hfrom : isAbsolute fromPre = true)
    (hto : isAbsolute toPre = true) :
    (RewrittenByMeaning text fromPre toPre ↔ SpelledAlike text fromPre toPre) ∧
      ∀ other, SpelledAlike text fromPre toPre → SpelledAlike other fromPre toPre →
        text.any isWhitespace = other.any isWhitespace → filePath text = filePath other →
        (rewriteLspUri text fromPre toPre).map filePath =
          (rewriteLspUri other fromPre toPre).map filePath := by
  have hiff : ∀ uri, RewrittenByMeaning uri fromPre toPre ↔ SpelledAlike uri fromPre toPre :=
    fun uri => rewritten_iff_spelledAlike (isAbsolute_ne_nil hfrom) (isAbsolute_ne_nil hto)
  refine ⟨hiff text, fun other htext hother hspace hpath => ?_⟩
  have hmeaning : rewrittenPath text fromPre toPre = rewrittenPath other fromPre toPre := by
    rw [rewrittenPath, rewrittenPath, hspace, hpath]
  rw [(hiff text).2 htext, (hiff other).2 hother, hmeaning]

/-- A file below the root `/m x`, spelled with escapes. -/
theorem rewriteLspUri_decoded_iff_encoded :
    RewrittenByMeaning (fileScheme ++ "/m%20x/%66".toList) "/m x".toList "C:/r".toList := by
  refine (rewriteLspUri_decoded_iff _ _ _ (by decide) (by decide)).1.2 (.inr (.inl ?_))
  decide +kernel

/-- **A URI of a file in the root is not rewritten**: the space in the name of the root is encoded,
and the parentheses are not. -/
theorem mixed_spelling_not_rewritten :
    rewrittenPath (fileScheme ++ "/my%20(x)/f".toList) "/my (x)".toList "/r".toList =
      some (utf8 "/r/f".toList) ∧
      rewriteLspUri (fileScheme ++ "/my%20(x)/f".toList) "/my (x)".toList "/r".toList = none := by
  decide +kernel

end RemoteMirror.Sidecar.Lsp
