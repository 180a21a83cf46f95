/-
**Rewritten paths stay inside the new root.**

A language server must not be able to name files outside of the root through a rewritten path.  The
check for dot segments is made on what stands behind the old root; what is returned is joined to the
new root.  For a URI the check decodes first, so the statement here is about the decoded path of the
URI that is returned.

Backslashes separate segments if one of the two roots is in the Windows style.

Main definitions:

* `Sidecar.Lsp.Within` — a path in a directory, and the rest of it;
* `Sidecar.Lsp.PathInside`, `Sidecar.Lsp.UriInside` — a path or URI in a root, without dot segments
  behind it;
* `Sidecar.Lsp.uriPath` — the path that a file URI denotes.

Main results:

* `Sidecar.Lsp.strictPercentDecode_encode` — the encoded spelling denotes the path it was made from;
* `Sidecar.Lsp.rewrite_stays_inside` — **rewritten paths and URIs lie inside of the new root**.
-/

import RemoteMirror.LspRewrite

namespace RemoteMirror.Sidecar.Lsp

open TextSlice

/-! ### Inside of a directory -/

section Within

variable {α : Type}

/-- `whole` is the directory `dir`, or it is `dir` up to separators at its end, a separator and the
rest. -/
def Within (isSep : α → Bool) (dir rest whole : List α) : Prop :=
  whole = dir ∧ rest = [] ∨ ∃ sep, isSep sep = true ∧ whole = dir.rdropWhile isSep ++ sep :: rest

variable [DecidableEq α] {slash : α} {dir rest whole : List α}

theorem rtakeWhile_append_slash (dir : List α) :
    dir.rtakeWhile (fun a => a = slash) ++ [slash] =
      slash :: dir.rtakeWhile (fun a => a = slash) := by
  have hall : dir.rtakeWhile (fun a => a = slash) =
      List.replicate (dir.rtakeWhile fun a => a = slash).length slash := by
    refine List.eq_replicate_iff.2 ⟨rfl, fun a ha => ?_⟩
    simpa using List.mem_rtakeWhile_imp ha
  rw [hall, ← List.replicate_succ, ← List.replicate_succ']

/-- What follows a separator lies in the directory before it. -/
theorem within_append_slash (dir rest : List α) :
    Within (fun a => a = slash) dir (dir.rtakeWhile (fun a => a = slash) ++ rest)
    (dir ++ slash :: rest) := by
  refine .inr ⟨slash, by simp, ?_⟩
  rw [← List.cons_append, ← rtakeWhile_append_slash, List.append_assoc, List.singleton_append,
    ← List.append_assoc, List.rdropWhile_append_rtakeWhile]

/-- The same for a directory that ends in the separator. -/
theorem within_append_of_getLast (dir rest : List α) :
    Within (fun a => a = slash) (dir ++ [slash]) (dir.rtakeWhile (fun a => a = slash) ++ rest)
      (dir ++ [slash] ++ rest) := by
  have hslash : Within (fun a => a = slash) dir (dir.rtakeWhile (fun a => a = slash) ++ rest)
      (dir ++ slash :: rest) := within_append_slash dir rest
  rcases hslash with ⟨hwhole, hrest⟩ | ⟨sep, hsep, hwhole⟩
  · exact absurd hwhole (by simp)
  · refine .inr ⟨sep, hsep, ?_⟩
    rw [List.append_assoc, List.singleton_append, hwhole,
      List.rdropWhile_concat_pos _ _ _ (by simp)]

end Within

/-! ### Dot segments -/

section Dots

variable {α : Type} {isSep : α → Bool} {isDot : List α → Bool}

/-- Separators at the front do not make dot segments. -/
theorem any_splitOnP_append {front rest : List α} (hfront : ∀ a ∈ front, isSep a = true)
    (hnil : isDot [] = false) :
    ((front ++ rest).splitOnP isSep).any isDot = (rest.splitOnP isSep).any isDot := by
  induction front with
  | nil => rfl
  | cons a front ih =>
    rw [List.cons_append, List.splitOnP_cons_eq_if_modifyHead, if_pos (hfront a (by simp)),
      List.any_cons, hnil, Bool.false_or, ih fun b hb => hfront b (List.mem_cons_of_mem _ hb)]

/-- A separator in place of another one leaves the segments as they are. -/
theorem splitOnP_map {f : α → α} (hsep : ∀ a, isSep (f a) = isSep a)
    (hother : ∀ a, isSep a = false → f a = a) (l : List α) :
    (l.map f).splitOnP isSep = l.splitOnP isSep := by
  induction l with
  | nil => rfl
  | cons a l ih =>
    rw [List.map_cons, List.splitOnP_cons_eq_if_modifyHead, List.splitOnP_cons_eq_if_modifyHead,
      hsep, ih]
    cases h : isSep a with
    | true => rfl
    | false => rw [hother a h]

end Dots

variable {path : Text} {style : PathStyle}

theorem pathHasNoDotSegments_dropWhile {q : Char → Bool}
    (hq : ∀ c, q c = true → pathSeparator style c = true) :
    pathHasNoDotSegments (path.dropWhile q) style = pathHasNoDotSegments path style := by
  have hsplit : path.takeWhile q ++ path.dropWhile q = path := List.takeWhile_append_dropWhile
  unfold pathHasNoDotSegments
  conv_rhs => rw [← hsplit]
  rw [any_splitOnP_append (fun c hc => hq c (List.mem_takeWhile_imp hc)) rfl]

/-! ### Paths -/

/-- A path in a root, and no dot segments behind the root. -/
def PathInside (style : PathStyle) (root path : Text) : Prop :=
  ∃ rest, Within (pathSeparator (pathStyle root)) root rest path ∧
    pathHasNoDotSegments rest style = true

/-- The separators at the end of a root are separators of its own style. -/
def EndsPlainly (root : Text) : Prop :=
  root.rdropWhile (pathSeparator .windows) = root.rdropWhile (pathSeparator (pathStyle root))

instance (root : Text) : Decidable (EndsPlainly root) := by unfold EndsPlainly; infer_instance

theorem pathSeparator_windows {c : Char} (h : pathSeparator style c = true) :
    pathSeparator .windows c = true := by
  cases style with
  | posix => simp_all [pathSeparator]
  | windows => exact h

theorem pathSeparator_targetSeparator (root : Text) :
    pathSeparator (pathStyle root) (targetSeparator root) = true := by
  unfold targetSeparator
  cases pathStyle root with
  | posix => rfl
  | windows =>
    dsimp only
    split <;> rfl

variable {fromStyle toStyle : PathStyle}

/-- A separator of either root separates segments in the check. -/
theorem pathSeparator_traversal {c : Char}
    (h : pathSeparator fromStyle c = true ∨ pathSeparator toStyle c = true) :
    pathSeparator (traversalPathStyle fromStyle toStyle) c = true := by
  unfold traversalPathStyle
  split
  case isTrue => exact h.elim pathSeparator_windows pathSeparator_windows
  case isFalse hposix =>
    cases fromStyle with
    | windows => simp at hposix
    | posix =>
      cases toStyle with
      | windows => simp at hposix
      | posix => simpa using h

/-- The separators that are replaced are those that the check knows, unless both roots are in the
POSIX style, where nothing changes. -/
theorem pathHasNoDotSegments_normalized (suffix root : Text) (fromStyle : PathStyle) :
    pathHasNoDotSegments
        (suffix.map fun c => if pathSeparator fromStyle c then targetSeparator root else c)
        (traversalPathStyle fromStyle (pathStyle root)) =
      pathHasNoDotSegments suffix (traversalPathStyle fromStyle (pathStyle root)) := by
  unfold pathHasNoDotSegments
  rw [splitOnP_map]
  · intro c
    split
    case isTrue h =>
      rw [pathSeparator_traversal (.inl h),
        pathSeparator_traversal (.inr (pathSeparator_targetSeparator root))]
    case isFalse => rfl
  · intro c hc
    refine if_neg fun h => ?_
    rw [pathSeparator_traversal (.inl h)] at hc
    cases hc

variable {root suffix : Text}

/-- What is joined to a root lies inside of it. -/
theorem within_joinRewrittenPath (fromStyle : PathStyle) (hroot : EndsPlainly root)
    (hsuffix : suffix ≠ []) :
    Within (pathSeparator (pathStyle root)) root
      ((suffix.dropWhile (pathSeparator fromStyle)).map fun c =>
        if pathSeparator fromStyle c then targetSeparator root else c)
      (joinRewrittenPath root suffix fromStyle) := by
  have hempty : suffix.isEmpty = false := by simpa using hsuffix
  unfold joinRewrittenPath
  rw [hempty, if_neg (by simp)]
  dsimp only
  right
  split
  case isTrue hbase =>
    -- the root is made of slashes only
    rw [Bool.and_eq_true, List.isEmpty_iff] at hbase
    refine ⟨'/', by cases pathStyle root <;> rfl, ?_⟩
    rw [← hroot, hbase.1, List.nil_append]
  case isFalse =>
    refine ⟨targetSeparator root, pathSeparator_targetSeparator root, ?_⟩
    rw [← hroot]

variable {text fromPre toPre : Text}

theorem rewriteLspPath_inside (hroot : EndsPlainly toPre)
    (h : rewriteLspPath text fromPre toPre = some path) :
    PathInside (traversalPathStyle (pathStyle fromPre) (pathStyle toPre)) toPre path := by
  unfold rewriteLspPath at h
  dsimp only at h
  split at h
  case h_1 => cases h
  case h_2 suffix _ =>
    split at h
    case isTrue => cases h
    case isFalse hdots =>
      rw [Bool.not_eq_true, Bool.not_eq_false'] at hdots
      rw [Option.some.injEq] at h
      subst h
      by_cases hsuffix : suffix = []
      · refine ⟨[], .inl ⟨?_, rfl⟩, rfl⟩
        simp [joinRewrittenPath, hsuffix]
      · refine ⟨_, within_joinRewrittenPath (pathStyle fromPre) hroot hsuffix, ?_⟩
        rw [pathHasNoDotSegments_normalized, pathHasNoDotSegments_dropWhile]
        · exact hdots
        · exact fun c hc => pathSeparator_traversal (.inl hc)

/-! ### Percent encoding -/

/-- What a byte is encoded as: itself, or a percent sign and two digits for it. -/
def decodesTo (b : UInt8) : List UInt8 → Bool
  | [c] => c = b && c ≠ byte '%'
  | [p, h, l] =>
    p = byte '%' &&
      match decodeHexDigit h, decodeHexDigit l with
      | some high, some low => (high <<< 4 ||| low) = b
      | _, _ => false
  | _ => false

set_option maxRecDepth 4000 in
theorem percentEncodeByte_checked : ∀ n < 256,
    decodesTo (UInt8.ofNat n) (utf8 (percentEncodeByte (UInt8.ofNat n))) = true ∧
      (percentEncodeByte (UInt8.ofNat n)).all (fun c => !endsUriPath c) = true ∧
      ((percentEncodeByte (UInt8.ofNat n)).getLast? = some '/' → UInt8.ofNat n = byte '/') := by
  decide +kernel

theorem percentEncodeByte_spec (b : UInt8) : decodesTo b (utf8 (percentEncodeByte b)) = true ∧
      (percentEncodeByte b).all (fun c => !endsUriPath c) = true ∧
      ((percentEncodeByte b).getLast? = some '/' → b = byte '/') := by
  have h := percentEncodeByte_checked b.toNat (UInt8.toNat_lt b)
  rwa [UInt8.ofNat_toNat] at h

theorem strictPercentDecode_cons {b : UInt8} (h : b ≠ byte '%') (rest : List UInt8) :
    strictPercentDecode (b :: rest) = (strictPercentDecode rest).map (b :: ·) := by
  rw [strictPercentDecode.eq_def]
  exact if_pos h

theorem strictPercentDecode_of_decodesTo {b : UInt8} {code : List UInt8}
    (h : decodesTo b code = true)
    (rest : List UInt8) : strictPercentDecode (code ++ rest) =
      (strictPercentDecode rest).map (b :: ·) := by
  unfold decodesTo at h
  split at h
  · simp only [Bool.and_eq_true, decide_eq_true_eq] at h
    obtain ⟨rfl, hne⟩ := h
    exact strictPercentDecode_cons hne rest
  · rename_i p high low
    rw [Bool.and_eq_true, decide_eq_true_eq] at h
    obtain ⟨rfl, h⟩ := h
    cases hhigh : decodeHexDigit high with
    | none => simp [hhigh] at h
    | some x =>
      cases hlow : decodeHexDigit low with
      | none => simp [hhigh, hlow] at h
      | some y =>
        simp only [hhigh, hlow, decide_eq_true_eq] at h
        simp [strictPercentDecode, hhigh, hlow, h]
  · cases h

/-- **The encoded spelling of a path is decoded to the path.** -/
theorem strictPercentDecode_encode (path : Text) (rest : List UInt8) :
    strictPercentDecode (utf8 (percentEncodeUriPath path) ++ rest) =
      (strictPercentDecode rest).map (utf8 path ++ ·) := by
  unfold percentEncodeUriPath
  induction utf8 path with
  | nil => simp
  | cons b bytes ih =>
    rw [List.flatMap_cons, utf8_append, List.append_assoc,
      strictPercentDecode_of_decodesTo (percentEncodeByte_spec b).1, ih, Option.map_map]
    rfl

/-- A text without percent signs is decoded to itself. -/
theorem strictPercentDecode_literal (h : '%' ∉ path) (rest : List UInt8) :
    strictPercentDecode (utf8 path ++ rest) = (strictPercentDecode rest).map (utf8 path ++ ·) := by
  have hbytes : ∀ b ∈ utf8 path, b ≠ byte '%' := by
    rintro b hb rfl
    exact h (ascii_mem_utf8 hb (by decide))
  generalize utf8 path = bytes at hbytes
  induction bytes with
  | nil => simp
  | cons b bytes ih =>
    rw [List.cons_append, strictPercentDecode_cons (hbytes b List.mem_cons_self),
      ih fun c hc => hbytes c (List.mem_cons_of_mem _ hc), Option.map_map]
    rfl

/-! ### File URIs -/

/-- The path of a URI: what follows the scheme up to a query or a fragment, decoded. -/
def uriPath (uri : Text) : Option (List UInt8) :=
  (fileScheme.isPrefixOf? uri).bind fun rest =>
    strictPercentDecode (utf8 (rest.takeWhile fun c => !endsUriPath c))

def bytesHaveNoDotSegments (path : List UInt8) (style : PathStyle) : Bool :=
  !(path.splitOnP (uriPathSeparator style)).any isDotBytes

/-- A URI whose path lies in a root, and no dot segments behind the root. -/
def UriInside (style : PathStyle) (root uri : Text) : Prop :=
  ∃ path rest, uriPath uri = some path ∧
    Within (fun b => b = byte '/') (utf8 (fileUriPath root)) rest path ∧
    bytesHaveNoDotSegments rest style = true

/-- `spelling` is a way to write the path of a root in a URI. -/
structure Spells (root spelling : Text) : Prop where
  plain : ∀ c ∈ spelling, endsUriPath c = false
  decodes : ∀ rest, strictPercentDecode (utf8 spelling ++ rest) =
    (strictPercentDecode rest).map (utf8 (fileUriPath root) ++ ·)
  ends : (fileScheme ++ spelling).getLast? = some '/' →
    ∃ front, utf8 (fileUriPath root) = front ++ [byte '/']

variable {spelling : Text}

theorem getLast?_fileScheme_append (h : spelling ≠ []) :
    (fileScheme ++ spelling).getLast? = spelling.getLast? := List.getLast?_append_of_ne_nil _ h

theorem fileUriPath_ne_nil (h : root ≠ []) : fileUriPath root ≠ [] := by
  unfold fileUriPath
  cases pathStyle root with
  | posix => exact h
  | windows => exact List.cons_ne_nil _ _

theorem utf8_ne_nil (h : text ≠ []) : utf8 text ≠ [] := by
  cases text with
  | nil => exact absurd rfl h
  | cons c text => simp [String.utf8EncodeChar_ne_nil]

theorem utf8_slash (text : Text) : utf8 ('/' :: text) = byte '/' :: utf8 text := rfl

theorem spells_encoded (h : root ≠ []) :
    Spells root (percentEncodeUriPath (fileUriPath root)) where
  plain := by
    intro c hc
    obtain ⟨b, _, hin⟩ := List.mem_flatMap.1 hc
    simpa using List.all_eq_true.1 (percentEncodeByte_spec b).2.1 c hin
  decodes := strictPercentDecode_encode (fileUriPath root)
  ends := by
    intro hlast
    -- the last byte of the path gives the last characters of its spelling
    obtain ⟨front, b, hb⟩ :=
      (List.eq_nil_or_concat _).resolve_left (utf8_ne_nil (fileUriPath_ne_nil h))
    rw [List.concat_eq_append] at hb
    refine ⟨front, ?_⟩
    have hcode : percentEncodeByte b ≠ [] := by
      intro hnil
      have := (percentEncodeByte_spec b).1
      rw [hnil] at this
      cases this
    have hspelling : percentEncodeUriPath (fileUriPath root) =
        front.flatMap percentEncodeByte ++ percentEncodeByte b := by
      rw [percentEncodeUriPath, hb, List.flatMap_append]
      simp
    rw [hspelling, ← List.append_assoc, List.getLast?_append_of_ne_nil _ hcode] at hlast
    rw [hb, (percentEncodeByte_spec b).2.2 hlast]

theorem spells_literal (h : root ≠ []) (hplain : ∀ c ∈ fileUriPath root, c ≠ '%' ∧
    endsUriPath c = false) : Spells root (fileUriPath root) where
  plain c hc := (hplain c hc).2
  decodes := strictPercentDecode_literal fun hc => (hplain _ hc).1 rfl
  ends := by
    intro hlast
    rw [getLast?_fileScheme_append (fileUriPath_ne_nil h)] at hlast
    obtain ⟨front, hfront⟩ := List.getLast?_eq_some_iff.1 hlast
    exact ⟨utf8 front, by rw [hfront, utf8_append]; rfl⟩

/-- What `strip_uri_prefix_with_boundary` returns starts at a segment boundary. -/
theorem stripUriPrefixWithBoundary_boundary {pre : Text}
    (h : stripUriPrefixWithBoundary text pre style = some suffix) :
    suffix = [] ∨ pre.getLast? = some '/' ∨ ∃ c rest, suffix = c :: rest ∧
      (c = '/' ∨ endsUriPath c = true) := by
  unfold stripUriPrefixWithBoundary at h
  split at h
  case h_1 => cases h
  case h_2 =>
    split at h
    case isTrue => cases h
    case isFalse =>
      split at h
      case isFalse => cases h
      case isTrue hboundary =>
        cases h
        simp only [Bool.or_eq_true, List.isEmpty_iff, decide_eq_true_eq] at hboundary
        rcases hboundary with (hnil | hlast) | hhead
        · exact .inl hnil
        · exact .inr (.inl hlast)
        · cases suffix with
          | nil => exact .inl rfl
          | cons c rest => exact .inr (.inr ⟨c, rest, rfl, by simpa using hhead⟩)

/-- The path of a URI that is put together from the spelling of a root and more. -/
theorem uriPath_append (hspells : Spells root spelling) (more : Text) :
    uriPath (fileScheme ++ spelling ++ more) =
      (strictPercentDecode (utf8 (more.takeWhile fun c => !endsUriPath c))).map
        (utf8 (fileUriPath root) ++ ·) := by
  have hcut : fileScheme.isPrefixOf? (fileScheme ++ spelling ++ more) =
      some (spelling ++ more) := by
    rw [List.isPrefixOf?_eq_some_iff_append_eq, List.append_assoc]
  rw [uriPath, hcut, Option.bind_some, List.takeWhile_append_of_pos, utf8_append, hspells.decodes]
  intro c hc
  simpa using hspells.plain c hc

/-- Slashes in front of the rest do not make dot segments. -/
theorem bytesHaveNoDotSegments_slashes {dir rest : List UInt8}
    (h : bytesHaveNoDotSegments rest style = true) :
    bytesHaveNoDotSegments (dir.rtakeWhile (fun b => b = byte '/') ++ rest) style = true := by
  unfold bytesHaveNoDotSegments at h ⊢
  rw [any_splitOnP_append ?_ rfl]
  · exact h
  · intro b hb
    have : b = byte '/' := by simpa using List.mem_rtakeWhile_imp hb
    simp [uriPathSeparator, this]

theorem joinRewrittenUri_inside {fromUri : Text} (hspells : Spells root spelling)
    (hboundary : suffix = [] ∨ fromUri.getLast? = some '/' ∨
      ∃ c rest, suffix = c :: rest ∧ (c = '/' ∨ endsUriPath c = true))
    (hdots : uriSuffixHasNoDotSegments suffix style = true) :
    UriInside style root (joinRewrittenUri fromUri (fileScheme ++ spelling) suffix) := by
  obtain ⟨decoded, hdecoded, hfree⟩ : ∃ decoded,
      strictPercentDecode (utf8 (suffix.takeWhile fun c => !endsUriPath c)) = some decoded ∧
        bytesHaveNoDotSegments decoded style = true := by
    unfold uriSuffixHasNoDotSegments at hdots
    split at hdots
    case h_1 decoded hdecoded => exact ⟨decoded, hdecoded, hdots⟩
    case h_2 => cases hdots
  unfold joinRewrittenUri
  dsimp only
  split
  case isTrue hsep =>
    -- a slash goes between the root and the suffix
    refine ⟨_, _, ?_, within_append_slash _ decoded, bytesHaveNoDotSegments_slashes hfree⟩
    rw [List.append_assoc, uriPath_append hspells, List.singleton_append,
      List.takeWhile_cons_of_pos (by decide), utf8_slash, strictPercentDecode_cons (by decide),
      hdecoded]
    rfl
  case isFalse hsep =>
    rw [List.append_nil]
    have hpath := uriPath_append hspells suffix
    rw [hdecoded, Option.map_some] at hpath
    -- a suffix without a path leaves the root itself
    have hroot : decoded = [] → UriInside style root (fileScheme ++ spelling ++ suffix) := by
      rintro rfl
      rw [List.append_nil] at hpath
      exact ⟨_, [], hpath, .inl ⟨rfl, rfl⟩, rfl⟩
    have hends : suffix = [] ∨ suffix.head?.any endsUriPath = true → decoded = [] := by
      intro h
      have : suffix.takeWhile (fun c => !endsUriPath c) = [] := by
        rcases h with rfl | h
        · rfl
        · cases suffix with
          | nil => rfl
          | cons c rest => simp_all
      rw [this] at hdecoded
      simpa [strictPercentDecode] using hdecoded.symm
    rcases hboundary with hnil | hlast | ⟨c, rest, rfl, hc⟩
    · exact hroot (hends (.inl hnil))
    · by_cases hquery : suffix = [] ∨ suffix.head?.any endsUriPath = true
      · exact hroot (hends hquery)
      · -- both roots end in a slash
        rw [not_or] at hquery
        have htarget : (fileScheme ++ spelling).getLast? = some '/' := by
          by_contra hne
          exact hsep ⟨hlast, hne, hquery.1, hquery.2⟩
        obtain ⟨front, hfront⟩ := hspells.ends htarget
        rw [hfront] at hpath
        refine ⟨_, front.rtakeWhile (fun b => b = byte '/') ++ decoded, hpath, ?_,
          bytesHaveNoDotSegments_slashes hfree⟩
        rw [hfront]
        exact within_append_of_getLast front decoded
    · rcases hc with rfl | hquery
      · -- the suffix brings its own slash
        rw [List.takeWhile_cons_of_pos (by decide), utf8_slash,
          strictPercentDecode_cons (by decide), Option.map_eq_some_iff] at hdecoded
        obtain ⟨tail, _, rfl⟩ := hdecoded
        refine ⟨_, _, hpath, within_append_slash _ tail, bytesHaveNoDotSegments_slashes ?_⟩
        have hslash : bytesHaveNoDotSegments ([byte '/'] ++ tail) style =
            bytesHaveNoDotSegments tail style := by
          unfold bytesHaveNoDotSegments
          rw [any_splitOnP_append (by simp [uriPathSeparator]) rfl]
        rw [← hslash]
        exact hfree
      · exact hroot (hends (.inr (by simpa using hquery)))

/-- The root that a URI is rewritten to is named in a spelling that denotes it: the URI was matched
in the encoded spelling, or the literal one has no characters with a meaning in URIs. -/
def Denotes (text fromPre toPre : Text) : Prop :=
  toPre ≠ [] ∧
    ((stripUriPrefixWithBoundary text (encodedUri fromPre) (pathStyle fromPre)).isSome = true ∨
      ∀ c ∈ fileUriPath toPre, c ≠ '%' ∧ endsUriPath c = false)

/-- What the loop returns comes from the first spelling of the old root that the URI starts with. -/
theorem rewriteFirst_cases {uri : Text} {pairs : List (Text × Text)}
    (h : rewriteFirst text fromStyle toStyle pairs = some uri) :
    ∃ fromUri toUri suffix, (fromUri, toUri) ∈ pairs ∧
      stripUriPrefixWithBoundary text fromUri fromStyle = some suffix ∧
      uriSuffixHasNoDotSegments suffix (traversalPathStyle fromStyle toStyle) = true ∧
      uri = joinRewrittenUri fromUri toUri suffix ∧
      ∀ pair, pairs.head? = some pair → (stripUriPrefixWithBoundary text pair.1 fromStyle).isSome =
        true → pair = (fromUri, toUri) := by
  induction pairs with
  | nil => cases h
  | cons pair pairs ih =>
    obtain ⟨fromUri, toUri⟩ := pair
    rw [rewriteFirst] at h
    split at h
    case h_1 suffix hstrip =>
      split at h
      case isTrue => cases h
      case isFalse hdots =>
        rw [Bool.not_eq_true, Bool.not_eq_false'] at hdots
        refine ⟨fromUri, toUri, suffix, by simp, hstrip, hdots, by simpa using h.symm, ?_⟩
        intro pair hpair _
        simpa using hpair.symm
    case h_2 hstrip =>
      obtain ⟨fromUri', toUri', suffix, hmem, hfound, hdots, huri, _⟩ := ih h
      refine ⟨fromUri', toUri', suffix, List.mem_cons_of_mem _ hmem, hfound, hdots, huri, ?_⟩
      intro pair hpair hsome
      simp only [List.head?_cons, Option.some.injEq] at hpair
      subst hpair
      rw [hstrip] at hsome
      cases hsome

theorem rewriteLspUri_inside {uri : Text} (hdenotes : Denotes text fromPre toPre)
    (h : rewriteLspUri text fromPre toPre = some uri) :
    UriInside (traversalPathStyle (pathStyle fromPre) (pathStyle toPre)) toPre uri := by
  unfold rewriteLspUri at h
  split at h
  case isTrue => cases h
  case isFalse =>
    obtain ⟨fromUri, toUri, suffix, hmem, hstrip, hdots, rfl, hfirst⟩ := rewriteFirst_cases h
    have hboundary := stripUriPrefixWithBoundary_boundary hstrip
    have hpair : (fromUri, toUri) = (encodedUri fromPre, encodedUri toPre) ∨
        (fromUri, toUri) = (literalUri fromPre, literalUri toPre) := by
      unfold pathToFileUriPrefixPairs at hmem
      dsimp only at hmem
      split at hmem
      · simpa using hmem
      · exact .inr (by simpa using hmem)
    have hencoded : toUri = encodedUri toPre →
        UriInside (traversalPathStyle (pathStyle fromPre) (pathStyle toPre)) toPre
          (joinRewrittenUri fromUri toUri suffix) := by
      rintro rfl
      exact joinRewrittenUri_inside (spells_encoded hdenotes.1) hboundary hdots
    rcases hdenotes.2 with hmatched | hplain
    · -- the encoded spelling is tried first
      refine hencoded ?_
      have hhead : (pathToFileUriPrefixPairs fromPre toPre).head? =
          some (encodedUri fromPre, encodedUri toPre) := by
        unfold pathToFileUriPrefixPairs
        dsimp only
        split
        · rfl
        · rename_i heq
          rw [List.head?_cons, Option.some.injEq]
          exact (not_not.1 heq).symm
      exact (congrArg Prod.snd (hfirst _ hhead hmatched)).symm
    · rcases hpair with heq | heq
      · exact hencoded (congrArg Prod.snd heq)
      · obtain rfl : toUri = literalUri toPre := congrArg Prod.snd heq
        exact joinRewrittenUri_inside (spells_literal hdenotes.1 hplain) hboundary hdots

/-- **Rewritten paths and URIs lie inside of the new root**, and no segment behind the root is `.`
or `..`. Segments are separated by slashes, and by backslashes if one of the roots is in the Windows
style; those of a URI are decoded. -/
theorem rewrite_stays_inside (text fromPre toPre : Text) :
    (∀ path, rewriteLspPath text fromPre toPre = some path → EndsPlainly toPre →
      PathInside (traversalPathStyle (pathStyle fromPre) (pathStyle toPre)) toPre path) ∧
    (∀ uri, rewriteLspUri text fromPre toPre = some uri → Denotes text fromPre toPre →
      UriInside (traversalPathStyle (pathStyle fromPre) (pathStyle toPre)) toPre uri) :=
  ⟨fun _ h hroot => rewriteLspPath_inside hroot h, fun _ h hdenotes =>
    rewriteLspUri_inside hdenotes h⟩

/-- A path and a URI of the remote root `/a` in the local root `C:\m`. -/
theorem rewrite_stays_inside_windows :
    PathInside .windows ['C', ':', '\\', 'm'] ['C', ':', '\\', 'm', '\\', 'x'] ∧
      UriInside .windows ['C', ':', '\\', 'm']
      (fileScheme ++ ['/', 'C', ':', '/', 'm', '/', 'x']) := by
  have hinside := rewrite_stays_inside ['/', 'a', '/', 'x'] ['/', 'a'] ['C', ':', '\\', 'm']
  have huri :=
    rewrite_stays_inside (fileScheme ++ ['/', 'a', '/', 'x']) ['/', 'a'] ['C', ':', '\\', 'm']
  refine ⟨hinside.1 _ (by decide) (by decide), huri.2 _ (by decide) ⟨by decide, .inl (by decide)⟩⟩

/-- Between two roots in the POSIX style a backslash is a character like any other: `..` can stand
before one. -/
theorem posix_backslash_not_separator :
    rewriteLspPath ['/', 'a', '/', '.', '.', '\\', 'x'] ['/', 'a'] ['/', 'b'] =
        some ['/', 'b', '/', '.', '.', '\\', 'x'] ∧
      ¬ PathInside .windows ['/', 'b'] ['/', 'b', '/', '.', '.', '\\', 'x'] := by
  refine ⟨by decide, ?_⟩
  rintro ⟨rest, hwithin, hdots⟩
  rcases hwithin with ⟨habs, _⟩ | ⟨sep, _, hwhole⟩
  · exact absurd habs (by decide)
  · have hbase : List.rdropWhile (pathSeparator (pathStyle ['/', 'b'])) ['/', 'b'] =
      ['/', 'b'] := by decide
    rw [hbase] at hwhole
    obtain ⟨-, hrest⟩ : '/' = sep ∧ ['.', '.', '\\', 'x'] = rest := by simpa using hwhole
    rw [← hrest] at hdots
    exact absurd hdots (by decide)

end RemoteMirror.Sidecar.Lsp
