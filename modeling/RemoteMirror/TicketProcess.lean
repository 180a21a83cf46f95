/-
**A process that the editor accepts can be started.**

What `normalize_process_spec` accepts passes the checks of the runtime protocol: paths below the
workspace are made of proper segments, names of variables are different, and sizes are within the
same limits.

Main definitions:

* `Ticket.Relative` — the paths below a workspace that the protocol accepts.

Main results:

* `Ticket.normalizeAbsolute_eq_self_iff` — which absolute paths are in their normal form;
* `Ticket.relative_of_normalizeCwd` — working directories;
* `Ticket.validateTicketProcess_of_request` — **a process that the editor accepts**.
-/

import RemoteMirror.TicketEditor

namespace RemoteMirror.Ticket

open Checks
open RemoteMirror.Runtime (RuntimeEnvVar TerminalSize isControl)
open TextSlice (utf8 of_ascii ascii_of_isAlpha)

/-! ### Segments -/

/-- A path that the protocol accepts below a workspace. -/
structure Relative (path : List Char) : Prop where
  parts : ∀ part ∈ path.splitOn '/', part ≠ [] ∧ isDots part = false
  chars : ∀ c ∈ path, c ≠ '\\' ∧ isControl c = false
  size : (utf8 path).length ≤ maxPathBytes

variable {front : List Char}

/-- Both sides of a slash are such paths. -/
theorem Relative.split {rest : List Char} (h : Relative (front ++ '/' :: rest)) :
    Relative front ∧ Relative rest := by
  have hparts := h.parts
  rw [List.splitOn_append_cons_self] at hparts
  have hsize := h.size
  rw [TextSlice.utf8_append, TextSlice.utf8_cons, List.length_append, List.length_append] at hsize
  constructor
  · refine ⟨fun part hpart => hparts part (List.mem_append_left _ hpart), fun c hc => ?_, by omega⟩
    exact h.chars c (List.mem_append_left _ hc)
  · refine ⟨fun part hpart => hparts part (List.mem_append_right _ hpart), fun c hc => ?_, by omega⟩
    exact h.chars c (List.mem_append_right _ (List.mem_cons_of_mem _ hc))

theorem utf8ByteSize_eq (text : String) : text.utf8ByteSize = (utf8 text.toList).length := by
  rw [utf8, ← Agent.textBytes_eq, Agent.textBytes, Array.length_toList]
  rfl

/-- The bytes of segments with a slash behind each of them. -/
def weight (segments : List (List Char)) : ℕ :=
  (segments.map fun segment => (utf8 segment).length + 1).sum

@[simp] theorem weight_nil : weight [] = 0 := rfl

@[simp] theorem weight_cons (segment : List Char) (segments : List (List Char)) :
    weight (segment :: segments) = (utf8 segment).length + 1 + weight segments := by
  simp [weight]

@[simp] theorem weight_append (segments others : List (List Char)) :
    weight (segments ++ others) = weight segments + weight others := by
  simp [weight]

theorem weight_sublist {segments others : List (List Char)} (h : segments.Sublist others) :
    weight segments ≤ weight others := by
  induction h with
  | slnil => exact Nat.le_refl _
  | cons _ _ ih | cons_cons _ _ ih =>
    simp only [weight_cons]
    omega

variable {segments : List (List Char)}

theorem weight_eq (h : segments ≠ []) :
    weight segments = (utf8 (joinSegments segments)).length + 1 := by
  induction segments with
  | nil => exact absurd rfl h
  | cons segment segments ih =>
    cases segments with
    | nil => simp [joinSegments]
    | cons next segments =>
      have hrest := ih (List.cons_ne_nil _ _)
      have hjoin : joinSegments (segment :: next :: segments) =
          segment ++ '/' :: joinSegments (next :: segments) := by
        simp [joinSegments, List.intercalate]
      have hslash : (String.utf8EncodeChar '/').length = 1 := by decide
      rw [weight_cons, hrest, hjoin, TextSlice.utf8_append, TextSlice.utf8_cons, List.length_append,
        List.length_append, hslash]
      omega

theorem weight_segmentsOf (text : List Char) :
    weight (segmentsOf text) ≤ (utf8 text).length + 1 := by
  refine Nat.le_trans (weight_sublist List.filter_sublist) (Nat.le_of_eq ?_)
  rw [weight_eq (List.splitOn_ne_nil _ _), joinSegments, List.intercalate_splitOn]

variable {text : List Char}

theorem mem_segmentsOf {segment : List Char} (h : segment ∈ segmentsOf text) :
    segment ≠ [] ∧ '/' ∉ segment ∧ ∀ c ∈ segment, c ∈ text := by
  obtain ⟨hmem, hne⟩ := List.mem_filter.1 h
  exact ⟨by simpa using hne, TextSlice.mem_splitOn hmem⟩

variable {style : RemotePathStyle} {escapes reserved : LuaError}

/-- What the loop over segments keeps. -/
theorem resolveSegments_spec {P : List Char → Prop} {rest : List (List Char)} :
    ∀ {segments out : List (List Char)}, resolveSegments style escapes reserved segments rest =
      .ok out → (∀ segment ∈ segments, P segment ∧ isDots segment = false) →
      (∀ segment ∈ rest, (style = .windows && !validWindowsSegment segment) = false → P segment) →
      (∀ segment ∈ out, P segment ∧ isDots segment = false) ∧ weight out ≤
        weight segments + weight rest := by
  induction rest with
  | nil =>
    intro segments out h hsegments _
    cases h
    exact ⟨hsegments, Nat.le_add_right _ _⟩
  | cons segment rest ih =>
    intro segments out h hsegments hrest
    obtain ⟨hsegment, hrest⟩ := List.forall_mem_cons.1 hrest
    rw [resolveSegments] at h
    split at h
    case isTrue =>
      obtain ⟨hout, hweight⟩ := ih h hsegments hrest
      exact ⟨hout, by rw [weight_cons]; omega⟩
    case isFalse hdot =>
      split at h
      case isTrue =>
        split at h
        case isTrue => cases h
        case isFalse =>
          obtain ⟨hout, hweight⟩ := ih h
            (fun other hother => hsegments other (List.dropLast_subset _ hother)) hrest
          have := weight_sublist (List.dropLast_sublist segments)
          exact ⟨hout, by rw [weight_cons]; omega⟩
      case isFalse hdots =>
        split at h
        case isTrue => cases h
        case isFalse hvalid =>
          have hnew : ∀ other ∈ segments ++ [segment], P other ∧ isDots other = false :=
            List.forall_mem_append.2 ⟨hsegments,
              by simp [hsegment (Bool.eq_false_iff.2 hvalid), isDots, hdot, hdots]⟩
          obtain ⟨hout, hweight⟩ := ih h hnew hrest
          simp only [weight_append, weight_cons, weight_nil] at hweight ⊢
          exact ⟨hout, by omega⟩

/-- **The segments that are left make a path below the workspace.** -/
theorem relative_of_resolveSegments (hchars : ∀ c ∈ text, c ≠ '\\' ∧ isControl c = false)
    (hsize : (utf8 text).length ≤ maxPathBytes)
    (h : resolveSegments style escapes reserved [] (segmentsOf text) = .ok segments) :
    segments = [] ∨ Relative (joinSegments segments) := by
  rcases eq_or_ne segments [] with hnil | hne
  · exact .inl hnil
  obtain ⟨hsegments, hweight⟩ :=
    resolveSegments_spec h nofun fun segment hsegment _ => mem_segmentsOf hsegment
  have hsplit : (joinSegments segments).splitOn '/' = segments :=
    List.splitOn_intercalate '/' (fun segment hsegment => (hsegments segment hsegment).1.2.1) hne
  refine .inr ⟨?_, ?_, ?_⟩
  · rw [hsplit]
    exact fun part hpart => ⟨(hsegments part hpart).1.1, (hsegments part hpart).2⟩
  · intro c hc
    rcases TextSlice.mem_of_mem_intercalate hc with hslash | ⟨segment, hsegment, hin⟩
    · rw [List.mem_singleton.1 hslash]
      decide
    · exact hchars c ((hsegments segment hsegment).1.2.2 c hin)
  · have := weight_eq hne
    have := weight_segmentsOf text
    simp only [weight_nil] at hweight
    omega

/-! ### Normal forms -/

/-- What stands before the segments of an absolute path in its normal form. -/
inductive Front : RemotePathStyle → List Char → Prop
  | posix : Front .posix ['/']
  | windows {drive : Char} (h : drive.isUpper = true) : Front .windows [drive, ':', '/']

variable {c : Char}

theorem isUpper_toUpper (h : c.isAlpha = true) : c.toUpper.isUpper = true :=
  of_ascii (P := fun c => c.isAlpha = true → c.toUpper.isUpper = true) (by decide +kernel)
    (ascii_of_isAlpha h) h

theorem length_utf8_ascii (h : c.toNat < 128) : (String.utf8EncodeChar c).length = 1 :=
  of_ascii (P := fun c => (String.utf8EncodeChar c).length = 1) (by decide +kernel) h

theorem toLower_eq_slash (h : c.toLower = '/') : c = '/' := by
  by_cases hupper : c.val ≥ 'A'.val ∧ c.val ≤ 'Z'.val
  · have halpha : c.isAlpha = true := by
      rw [Char.isAlpha, Char.isUpper, Bool.or_eq_true]
      exact .inl (decide_eq_true hupper)
    exact of_ascii (P := fun c => c.toLower = '/' → c = '/') (by decide +kernel)
      (ascii_of_isAlpha halpha) h
  · rwa [Char.toLower, dif_neg hupper] at h

/-- Writing slashes for backslashes. -/
theorem length_utf8_forward (path : List Char) :
    (utf8 (path.map fun c => if c = '\\' then '/' else c)).length = (utf8 path).length := by
  induction path with
  | nil => rfl
  | cons c path ih =>
    have hc : (String.utf8EncodeChar (if c = '\\' then '/' else c)).length =
        (String.utf8EncodeChar c).length := by
      split
      case isTrue heq =>
        subst heq
        decide
      case isFalse => rfl
    rw [List.map_cons, TextSlice.utf8_cons, TextSlice.utf8_cons, List.length_append,
      List.length_append, hc, ih]

theorem splitRoot_spec {path rest : List Char} (hchars : ∀ c ∈ path, isControl c = false)
    (h : splitRoot path style = .ok (front, rest)) :
    Front style front ∧ (∀ c ∈ rest, c ≠ '\\' ∧ isControl c = false) ∧
      (utf8 front).length + (utf8 rest).length = (utf8 path).length := by
  cases style with
  | posix =>
    simp only [splitRoot] at h
    split at h
    case h_1 tail =>
      split at h
      case isTrue => cases h
      case isFalse hbackslash =>
        cases h
        refine ⟨.posix, fun c hc => ⟨?_, hchars c (List.mem_cons_of_mem _ hc)⟩, ?_⟩
        · rintro rfl
          exact hbackslash (List.contains_iff_mem.2 (List.mem_cons_of_mem _ hc))
        · simp
    case h_2 => cases h
  | windows =>
    simp only [splitRoot] at h
    split at h
    case h_1 => cases h
    case h_3 => cases h
    case h_2 drive tail hpath =>
      split at h
      case isFalse => cases h
      case isTrue halpha =>
        cases h
        have hsize := length_utf8_forward path
        rw [hpath] at hsize
        refine ⟨.windows (isUpper_toUpper halpha), fun c hc => ?_, ?_⟩
        · have hmem : c ∈ path.map fun c => if c = '\\' then '/' else c := by
            rw [hpath]
            exact List.mem_cons_of_mem _ (List.mem_cons_of_mem _ (List.mem_cons_of_mem _ hc))
          obtain ⟨other, hother, rfl⟩ := List.mem_map.1 hmem
          split
          case isTrue => decide
          case isFalse hne => exact ⟨hne, hchars other hother⟩
        · have hdrive := length_utf8_ascii (ascii_of_isAlpha halpha)
          have hupper : (String.utf8EncodeChar drive.toUpper).length = 1 :=
            length_utf8_ascii (ascii_of_isAlpha (by simp [Char.isAlpha, isUpper_toUpper halpha]))
          simp only [TextSlice.utf8_cons, TextSlice.utf8_nil, List.length_append,
            List.append_nil] at hsize ⊢
          omega

variable {normalized : String}

/-- **The normal form of an absolute path.** -/
theorem normalizeAbsolute_spec {path : String} (h : normalizeAbsolute path style = .ok normalized) :
    ∃ front segments, normalized.toList = front ++ joinSegments segments ∧ Front style front ∧
      (segments = [] ∨ Relative (joinSegments segments)) := by
  simp only [normalizeAbsolute, rejectIf_eq_ok, bind_eq_ok, pure_eq_ok, Except.ok.injEq,
    Bool.or_eq_false_iff, decide_eq_false_iff_not] at h
  obtain ⟨_, _, _, ⟨hcontrol, hsize⟩, ⟨front, rest⟩, hsplit, segments, hsegments, rfl⟩ := h
  have hchars : ∀ c ∈ path.toList, isControl c = false := by
    simpa [containsControl] using hcontrol
  obtain ⟨hfront, hrest, hlength⟩ := splitRoot_spec hchars hsplit
  rw [utf8ByteSize_eq] at hsize
  refine ⟨front, segments, String.toList_ofList, hfront, ?_⟩
  exact relative_of_resolveSegments hrest (by omega) hsegments

/-- Segments that are joined are found again. -/
theorem segmentsOf_joinSegments {segments : List (List Char)}
    (hne : ∀ segment ∈ segments, segment ≠ []) (hslash : ∀ segment ∈ segments, '/' ∉ segment) :
    segmentsOf (joinSegments segments) = segments := by
  rcases eq_or_ne segments [] with rfl | hsome
  · rfl
  · rw [segmentsOf, joinSegments, List.splitOn_intercalate '/' hslash hsome]
    exact List.filter_eq_self.2 fun segment hsegment => by simp [hne segment hsegment]

/-- Segments without dots stay as they are. -/
theorem resolveSegments_proper {rest : List (List Char)}
    (h : ∀ segment ∈ rest, isDots segment = false ∧
      (style = .windows && !validWindowsSegment segment) = false) :
    ∀ segments, resolveSegments style escapes reserved segments rest = .ok (segments ++ rest) := by
  induction rest with
  | nil =>
    intro segments
    rw [resolveSegments, List.append_nil]
  | cons segment rest ih =>
    intro segments
    obtain ⟨⟨hdots, hvalid⟩, hrest⟩ := List.forall_mem_cons.1 h
    obtain ⟨hdot, hdots⟩ : segment ≠ ['.'] ∧ segment ≠ ['.', '.'] := by simpa [isDots] using hdots
    rw [resolveSegments, if_neg hdot, if_neg hdots, if_neg (by simp [hvalid]), ih hrest,
      List.append_assoc, List.singleton_append]

theorem Front.backslash_not_mem (h : Front style front) : '\\' ∉ front := by
  cases h with
  | posix => decide
  | @windows drive hupper =>
    have hne : drive ≠ '\\' := by
      rintro rfl
      cases hupper
    simp [hne.symm]

theorem splitRoot_front {rest : List Char} (hfront : Front style front) (hrest : '\\' ∉ rest) :
    splitRoot (front ++ rest) style = .ok (front, rest) := by
  cases hfront with
  | posix => simp [splitRoot, hrest]
  | @windows drive hupper =>
    have halpha : drive.isAlpha = true := by simp [Char.isAlpha, hupper]
    obtain ⟨hsame, hne⟩ : drive.toUpper = drive ∧ drive ≠ '\\' :=
      of_ascii (P := fun c => c.isUpper = true → c.toUpper = c ∧ c ≠ '\\') (by decide +kernel)
        (ascii_of_isAlpha halpha) hupper
    have hforward : rest.map (fun c => if c = '\\' then '/' else c) = rest := by
      conv_rhs => rw [← List.map_id rest]
      exact List.map_congr_left fun c hc => if_neg fun (heq : c = '\\') => hrest (heq ▸ hc)
    simp [splitRoot, hne, hforward, halpha, hsame]

/-- **Which absolute paths are in their normal form**: those that are a root (a slash, or a capital
letter with a colon and a slash) and, separated by single slashes, segments without dots; there is
no slash at the end, no backslash and no control character. -/
theorem normalizeAbsolute_eq_self_iff {path : String} : normalizeAbsolute path style = .ok path ↔
    path.utf8ByteSize ≤ maxPathBytes ∧ (∀ c ∈ path.toList, c ≠ '\\' ∧ isControl c = false) ∧
      ∃ front segments, path.toList = front ++ joinSegments segments ∧ Front style front ∧
        ∀ segment ∈ segments, segment ≠ [] ∧ '/' ∉ segment ∧ isDots segment = false ∧
          (style = .windows && !validWindowsSegment segment) = false := by
  simp only [normalizeAbsolute, rejectIf_eq_ok, bind_eq_ok, pure_eq_ok, Except.ok.injEq,
    Bool.or_eq_false_iff, decide_eq_false_iff_not, Nat.not_lt]
  constructor
  · rintro ⟨_, hempty, _, ⟨hcontrol, hsize⟩, ⟨front, rest⟩, hsplit, segments, hsegments, hpath⟩
    have hcontrols : ∀ c ∈ path.toList, isControl c = false := by
      simpa [containsControl] using hcontrol
    obtain ⟨hfront, hrest, -⟩ := splitRoot_spec hcontrols hsplit
    obtain ⟨hout, -⟩ := resolveSegments_spec hsegments
      (fun _ hmem => absurd hmem List.not_mem_nil) fun segment hsegment hvalid =>
        And.intro (mem_segmentsOf hsegment) hvalid
    have hlist : path.toList = front ++ joinSegments segments := by
      rw [← hpath, String.toList_ofList]
    refine ⟨hsize, fun c hc => ⟨?_, hcontrols c hc⟩, front, segments, hlist, hfront, ?_⟩
    · rintro rfl
      rw [hlist] at hc
      rcases List.mem_append.1 hc with hc | hc
      · exact hfront.backslash_not_mem hc
      · rcases TextSlice.mem_of_mem_intercalate hc with hslash | ⟨segment, hsegment, hin⟩
        · simp at hslash
        · exact (hrest _ ((hout segment hsegment).1.1.2.2 _ hin)).1 rfl
    · intro segment hsegment
      obtain ⟨⟨⟨hne, hslash, -⟩, hvalid⟩, hdots⟩ := hout segment hsegment
      exact ⟨hne, hslash, hdots, hvalid⟩
  · rintro ⟨hsize, hchars, front, segments, hpath, hfront, hsegments⟩
    have hrest : '\\' ∉ joinSegments segments := fun hmem =>
      (hchars _ (hpath ▸ List.mem_append_right _ hmem)).1 rfl
    have hempty : path ≠ "" := by
      rintro rfl
      cases hfront <;> cases hpath
    have hproper : resolveSegments style (invalidPath "path escapes its filesystem root")
        (invalidPath "Windows path contains an invalid or reserved segment") [] segments =
          .ok ([] ++ segments) :=
      resolveSegments_proper (fun segment hsegment => (hsegments segment hsegment).2.2) []
    refine ⟨(), hempty, (), ⟨?_, hsize⟩, (front, joinSegments segments), ?_, segments, ?_, ?_⟩
    · simpa [containsControl] using fun c hc => (hchars c hc).2
    · rw [hpath]
      exact splitRoot_front hfront hrest
    · rw [segmentsOf_joinSegments (fun segment hsegment => (hsegments segment hsegment).1)
        fun segment hsegment => (hsegments segment hsegment).2.1]
      exact hproper
    · rw [← hpath, String.ofList_toList]

theorem relative_of_normalizeRelativePath {path : Option String}
    (h : normalizeRelativePath path style = .ok normalized) :
    normalized = "" ∨ Relative normalized.toList := by
  unfold normalizeRelativePath at h
  split at h
  case h_1 =>
    cases h
    exact .inl rfl
  case h_2 path =>
    split at h
    case isTrue =>
      cases h
      exact .inl rfl
    case isFalse =>
      simp only [rejectIf_eq_ok, bind_eq_ok, pure_eq_ok, Except.ok.injEq,
        Bool.or_eq_false_iff, decide_eq_false_iff_not] at h
      obtain ⟨_, ⟨hcontrol, hsize⟩, _, _, _, hbackslash, segments, hsegments, rfl⟩ := h
      rw [utf8ByteSize_eq] at hsize
      have hchars : ∀ c ∈ path.toList, c ≠ '\\' ∧ isControl c = false := by
        intro c hc
        refine ⟨?_, ?_⟩
        · rintro rfl
          exact absurd (List.contains_iff_mem.2 hc) (by simpa using hbackslash)
        · have hall : ∀ c ∈ path.toList, isControl c = false := by
            simpa [containsControl] using hcontrol
          exact hall c hc
      rw [String.toList_ofList]
      rcases relative_of_resolveSegments hchars (by omega) hsegments with rfl | hrelative
      · exact .inl rfl
      · exact .inr hrelative

/-- The directory of a path below the workspace. -/
theorem relative_directoryOf {path : String} (h : path = "" ∨ Relative path.toList) :
    directoryOf path = "" ∨ Relative (directoryOf path).toList := by
  rcases h with rfl | h
  · exact .inl rfl
  rw [directoryOf]
  split
  case isTrue => exact .inl rfl
  case isFalse =>
    rcases eq_or_ne (path.toList.rdropWhile fun c => c ≠ '/') [] with hnil | hne
    · rw [hnil]
      exact .inl rfl
    -- what is left of the last name ends in a slash
    have hlast : (path.toList.rdropWhile fun c => c ≠ '/').getLast hne = '/' := by
      simpa using List.rdropWhile_last_not _ _ hne
    have hpath := List.rdropWhile_append_rtakeWhile (l := path.toList) (p := fun c => c ≠ '/')
    rw [← List.dropLast_append_getLast hne, hlast, List.append_assoc,
      List.singleton_append] at hpath
    rw [← hpath] at h
    rw [String.toList_ofList]
    exact .inr h.split.1

theorem Front.slash (h : Front style front) : ∃ drive, front = drive ++ ['/'] ∧ '/' ∉ drive := by
  cases h with
  | posix => exact ⟨[], rfl, List.not_mem_nil⟩
  | windows h =>
    refine ⟨[_, ':'], rfl, fun hmem => ?_⟩
    rcases List.mem_pair.1 hmem with rfl | heq
    · exact absurd h (by decide)
    · exact absurd heq (by decide)

/-- What follows a slash of an absolute path in its normal form. -/
theorem relative_after_slash {before after : List Char} (hfront : Front style front)
    (hsegments : segments = [] ∨ Relative (joinSegments segments))
    (h : front ++ joinSegments segments = before ++ '/' :: after) :
    after = [] ∨ Relative after := by
  obtain ⟨drive, rfl, hdrive⟩ := hfront.slash
  rw [List.append_assoc, List.singleton_append] at h
  rcases List.append_eq_append_iff.1 h with ⟨between, rfl, hrest⟩ | ⟨between, rfl, hrest⟩
  · rcases between with _ | ⟨c, between⟩
    · obtain ⟨-, rfl⟩ := List.cons.inj hrest
      exact hsegments.imp (fun hnil => by rw [hnil]; rfl) id
    · obtain ⟨rfl, hjoin⟩ := List.cons.inj hrest
      rw [hjoin] at hsegments
      rcases hsegments with rfl | hrelative
      · exact absurd hjoin (by simp [joinSegments])
      · exact .inr hrelative.split.2
  · rcases between with _ | ⟨c, between⟩
    · obtain ⟨-, rfl⟩ := List.cons.inj hrest
      exact hsegments.imp (fun hnil => by rw [hnil]; rfl) id
    · obtain ⟨rfl, -⟩ := List.cons.inj hrest
      exact absurd (List.mem_append_right _ List.mem_cons_self) hdrive

theorem compared_eq_append {rest : List Char} (h : compared style text = front ++ rest) :
    ∃ before after, text = before ++ after ∧ before.length = front.length ∧
      compared style before = front ∧ compared style after = rest := by
  cases style with
  | posix => exact ⟨front, rest, h, rfl, rfl, rfl⟩
  | windows =>
    obtain ⟨before, after, rfl, hbefore, hafter⟩ := List.map_eq_append_iff.1 h
    exact ⟨before, after, rfl, by rw [← hbefore, List.length_map], hbefore, hafter⟩

theorem compared_eq_slash (h : compared style text = ['/']) : text = ['/'] := by
  cases style with
  | posix => exact h
  | windows =>
    obtain ⟨c, rfl, hc⟩ := List.map_eq_singleton_iff.1 h
    rw [toLower_eq_slash hc]

theorem relative_of_relativeWithin {root path : String} {relative : String}
    (h : relativeWithin root path style = .ok relative) :
    relative = "" ∨ Relative relative.toList := by
  simp only [relativeWithin, bind_eq_ok] at h
  obtain ⟨normalizedRoot, hroot, normalizedPath, hpath, h⟩ := h
  split at h
  case isTrue =>
    cases h
    exact .inl rfl
  case isFalse =>
    simp only [rejectIf_eq_ok, unit_bind_eq_ok, pure_eq_ok, Except.ok.injEq,
      Bool.not_eq_false'] at h
    obtain ⟨hwithin, rfl⟩ := h
    obtain ⟨rest, hrest⟩ := List.isPrefixOf_iff_prefix.1 hwithin
    -- the front ends in a slash in both cases
    obtain ⟨start, hstart⟩ : ∃ start,
      (if (compared style normalizedRoot.toList).getLast? = some '/' then
        compared style normalizedRoot.toList else compared style normalizedRoot.toList ++ ['/']) =
        start ++ ['/'] := by
      split
      case isTrue hlast => exact List.getLast?_eq_some_iff.1 hlast
      case isFalse => exact ⟨_, rfl⟩
    rw [hstart] at hrest ⊢
    obtain ⟨before, after, htext, hlength, hbefore, -⟩ := compared_eq_append hrest.symm
    obtain ⟨first, slash, rfl, -, -, hslash⟩ := compared_eq_append hbefore
    obtain rfl := compared_eq_slash hslash
    obtain ⟨front, segments, hnormal, hfront, hsegments⟩ := normalizeAbsolute_spec hpath
    rw [htext, List.append_assoc, List.singleton_append] at hnormal
    rw [← hlength, htext, List.drop_left, String.toList_ofList]
    refine (relative_after_slash hfront hsegments hnormal.symm).imp (fun hnil => ?_) id
    rw [hnil]

variable {snapshot : Snapshot}

/-- **A working directory is the workspace or a path below it.** -/
theorem relative_of_normalizeCwd {cwd : Option Cwd} {path : String}
    (h : normalizeCwd snapshot cwd = .ok path) : path = "" ∨ Relative path.toList := by
  unfold normalizeCwd at h
  split at h
  case h_1 =>
    cases h
    exact .inl rfl
  case h_2 =>
    simp only [bind_eq_ok, pure_eq_ok, Except.ok.injEq] at h
    obtain ⟨_, _, normalized, hnormalized, rfl⟩ := h
    exact relative_directoryOf (relative_of_normalizeRelativePath hnormalized)
  case h_3 => exact relative_of_normalizeRelativePath h
  case h_4 | h_5 =>
    simp only [bind_eq_ok] at h
    obtain ⟨_, _, _, _, hrelative⟩ := h
    exact relative_of_relativeWithin hrelative

theorem contains_eq_false {α : Type} [DecidableEq α] {list : List α} {a : α} :
    list.contains a = false ↔ a ∉ list := by
  simp

theorem ne_nul_of_not_isControl (h : ∀ c ∈ text, isControl c = false) :
    text.contains '\x00' = false := by
  refine contains_eq_false.2 fun hmem => ?_
  exact absurd (h _ hmem) (by decide)

theorem validateWorkspacePath_of_relative {path : String} (h : Relative path.toList) :
    Runtime.validateWorkspacePath path = .ok () := by
  have hne : path.toList ≠ [] := by
    intro hnil
    exact (h.parts [] (by rw [hnil]; decide)).1 rfl
  have hslash : path.toList.head? ≠ some '/' := by
    intro hhead
    obtain ⟨rest, hrest⟩ := List.head?_eq_some_iff.1 hhead
    refine (h.parts [] ?_).1 rfl
    rw [hrest, ← List.nil_append ('/' :: rest), List.splitOn_append_cons_self]
    exact List.mem_append_left _ (by decide)
  have hbackslash : '\\' ∉ path.toList := fun hmem => (h.chars _ hmem).1 rfl
  have hhead : path.toList.head? ≠ some '\\' :=
    fun hhead => hbackslash (List.mem_of_mem_head? hhead)
  have hparts : ((path.toList.splitOn '/').any fun part => part.isEmpty || part == ['.'] ||
    part == ['.', '.']) =
      false := by
    refine List.any_eq_false.2 fun part hpart => ?_
    obtain ⟨hpart, hdots⟩ := h.parts part hpart
    simp only [isDots, Bool.or_eq_false_iff, decide_eq_false_iff_not] at hdots
    simp [hpart, hdots]
  have hsize := h.size
  rw [← utf8ByteSize_eq] at hsize
  have hempty : path.isEmpty = false := by
    rw [String.isEmpty_eq_false_iff]
    rintro rfl
    exact hne rfl
  have hnul := ne_nul_of_not_isControl fun c hc => (h.chars c hc).2
  simp only [Runtime.validateWorkspacePath, unit_bind_eq_ok, rejectIf_eq_ok,
    decide_eq_false_iff_not, not_lt, Bool.or_eq_false_iff, beq_eq_false_iff_ne]
  exact ⟨hempty, hsize, ⟨⟨⟨⟨hnul, hslash⟩, hhead⟩, contains_eq_false.2 hbackslash⟩, hparts⟩⟩

/-! ### Environments -/

theorem checkEnvSet_eq_ok {vars : List (String × String)} :
    ∀ {seen seen' : List String}, checkEnvSet style seen vars = .ok seen' →
      (∀ entry ∈ vars, validEnvName entry.1 = true ∧ entry.2.toList.contains '\x00' = false) ∧
        seen' = (vars.map fun entry => comparedName style entry.1).reverse ++ seen ∧
        (seen.Nodup → seen'.Nodup) := by
  induction vars with
  | nil =>
    intro seen seen' h
    cases h
    exact ⟨nofun, rfl, id⟩
  | cons entry rest ih =>
    intro seen seen' h
    simp only [checkEnvSet, unit_bind_eq_ok, rejectIf_eq_ok, Bool.or_eq_false_iff,
      Bool.not_eq_false'] at h
    obtain ⟨hentry, hnew, hrest⟩ := h
    obtain ⟨hvalid, rfl, hnodup⟩ := ih hrest
    refine ⟨List.forall_mem_cons.2 ⟨hentry, hvalid⟩, by simp, fun hseen => hnodup ?_⟩
    exact List.nodup_cons.2 ⟨contains_eq_false.1 hnew, hseen⟩

theorem checkEnvUnset_eq_ok {names : List String} :
    ∀ {seen : List String}, checkEnvUnset style seen names = .ok () →
      (∀ name ∈ names, validEnvName name = true) ∧
        (seen.Nodup → ((names.map (comparedName style)).reverse ++ seen).Nodup) := by
  induction names with
  | nil => exact fun _ => ⟨nofun, id⟩
  | cons name rest ih =>
    intro seen h
    simp only [checkEnvUnset, unit_bind_eq_ok, rejectIf_eq_ok, Bool.not_eq_false'] at h
    obtain ⟨hname, hnew, hrest⟩ := h
    obtain ⟨hvalid, hnodup⟩ := ih hrest
    refine ⟨List.forall_mem_cons.2 ⟨hname, hvalid⟩, fun hseen => ?_⟩
    rw [List.map_cons, List.reverse_cons, List.append_assoc]
    exact hnodup (List.nodup_cons.2 ⟨contains_eq_false.1 hnew, hseen⟩)

variable {name : String}

theorem validateEnvName_of_valid (h : validEnvName name = true) :
    Runtime.validateEnvName name = .ok () := by
  simp only [validEnvName, Bool.and_eq_true, decide_eq_true_eq, Bool.not_eq_true', containsControl,
    List.any_eq_false, Bool.not_eq_true] at h
  obtain ⟨⟨hne, hcontrol⟩, hequals⟩ := h
  simp only [Runtime.validateEnvName, Runtime.rejectNul, unit_bind_eq_ok, rejectIf_eq_ok]
  exact ⟨String.isEmpty_eq_false_iff.2 hne, ne_nul_of_not_isControl hcontrol, hequals⟩

theorem validateEnvSet_of_valid {vars : List RuntimeEnvVar} : ∀ {names : List String},
    (∀ envVar ∈ vars, validEnvName envVar.name = true ∧
      envVar.value.toList.contains '\x00' = false) →
    (names ++ vars.map RuntimeEnvVar.name).Nodup →
    Runtime.validateEnvSet names vars = .ok ((vars.map RuntimeEnvVar.name).reverse ++ names) := by
  induction vars with
  | nil => exact fun _ _ => rfl
  | cons envVar rest ih =>
    intro names hvalid hnodup
    obtain ⟨⟨hname, hvalue⟩, hvalid⟩ := List.forall_mem_cons.1 hvalid
    rw [List.map_cons, List.nodup_middle] at hnodup
    have hnew : names.contains envVar.name = false := by
      refine contains_eq_false.2 fun hmem => ?_
      exact (List.nodup_cons.1 hnodup).1 (List.mem_append_left _ hmem)
    simp only [Runtime.validateEnvSet, validateEnvName_of_valid hname, Runtime.rejectNul, hvalue,
      hnew, ok_bind, rejectIf_false]
    rw [ih hvalid hnodup]
    simp

theorem validateEnvUnset_of_valid {rest : List String} : ∀ {names : List String},
    (∀ name ∈ rest, validEnvName name = true) → (names ++ rest).Nodup →
    Runtime.validateEnvUnset names rest = .ok () := by
  induction rest with
  | nil => exact fun _ _ => rfl
  | cons name rest ih =>
    intro names hvalid hnodup
    obtain ⟨hname, hvalid⟩ := List.forall_mem_cons.1 hvalid
    rw [List.nodup_middle] at hnodup
    have hnew : names.contains name = false := by
      refine contains_eq_false.2 fun hmem => ?_
      exact (List.nodup_cons.1 hnodup).1 (List.mem_append_left _ hmem)
    simp only [Runtime.validateEnvUnset, validateEnvName_of_valid hname, hnew, ok_bind,
      rejectIf_false]
    exact ih hvalid hnodup

/-- **An environment that the editor accepts**, in the order in which a ticket has it. -/
theorem validateEnvironment_of_normalizeEnv {options env : EnvOptions}
    (h : normalizeEnv style options = .ok env) : Runtime.validateEnvironment ⟨env.clear,
      (sortNames style Prod.fst env.set).map fun entry => ⟨entry.1, entry.2⟩,
        env.unset⟩ = .ok () := by
  simp only [normalizeEnv, bind_eq_ok, rejectIf_eq_ok, decide_eq_false_iff_not, not_lt, pure_eq_ok,
    Except.ok.injEq] at h
  obtain ⟨seen, hset, _, hcount, _, hunset, rfl⟩ := h
  obtain ⟨hvars, rfl, hseen⟩ := checkEnvSet_eq_ok hset
  obtain ⟨hnames, hall⟩ := checkEnvUnset_eq_ok hunset
  have hsorted : (sortNames style Prod.fst options.set).Perm options.set := List.mergeSort_perm _ _
  have hsortedNames : (sortNames style id options.unset).Perm options.unset :=
    List.mergeSort_perm _ _
  -- names that are different when compared are different
  have hnodup : ((options.set.map Prod.fst).reverse ++ options.unset).Nodup := by
    have hboth := hall (hseen List.nodup_nil)
    refine List.Nodup.of_map (comparedName style) ?_
    refine (List.Perm.nodup_iff ?_).1 hboth
    simp only [List.append_nil, List.map_append, List.map_reverse, List.map_map, Function.comp_def]
    exact List.perm_append_comm.trans ((List.Perm.refl _).append (List.reverse_perm _))
  have hset' : Runtime.validateEnvSet [] ((sortNames style Prod.fst options.set).map fun entry =>
      ⟨entry.1, entry.2⟩) = .ok ((sortNames style Prod.fst options.set).map Prod.fst).reverse := by
    rw [validateEnvSet_of_valid]
    · simp [Function.comp_def]
    · intro envVar hmem
      obtain ⟨entry, hentry, rfl⟩ := List.mem_map.1 hmem
      exact hvars entry (hsorted.mem_iff.1 hentry)
    · simp only [List.nil_append, List.map_map, Function.comp_def]
      refine ((hsorted.map Prod.fst).nodup_iff).2 ?_
      exact List.nodup_reverse.1 (List.Nodup.of_append_left hnodup)
  simp only [Runtime.validateEnvironment, unit_bind_eq_ok, rejectIf_eq_ok, decide_eq_false_iff_not,
    not_lt, hset', ok_bind, List.length_map, hsorted.length_eq, hsortedNames.length_eq]
  refine ⟨hcount, validateEnvUnset_of_valid (fun name hname =>
    hnames name (hsortedNames.mem_iff.1 hname)) ?_⟩
  refine (List.Perm.nodup_iff ?_).1 hnodup
  refine List.Perm.append ?_ hsortedNames.symm
  exact (List.reverse_perm _).trans ((hsorted.map Prod.fst).symm.trans (List.reverse_perm _).symm)

/-! ### Processes -/

/-- Arguments that a process may have. -/
structure Arguments (argv : List String) : Prop where
  some : argv ≠ []
  count : argv.length ≤ Runtime.runtimeMaxArgv
  chars : ∀ arg ∈ argv, containsControl arg = false

theorem arguments_of_normalizeCommand {arguments : List String} {command : Command}
    (h : normalizeCommand (.argv arguments) = .ok command) : command = .argv arguments ∧
      Arguments arguments := by
  simp only [normalizeCommand, bind_eq_ok, rejectIf_eq_ok, pure_eq_ok, Except.ok.injEq,
    decide_eq_false_iff_not, not_lt] at h
  obtain ⟨_, hempty, _, hcount, _, hfirst, _, -, _, hrest, rfl⟩ := h
  cases arguments with
  | nil => exact absurd hempty (by decide)
  | cons first rest =>
    refine ⟨rfl, List.cons_ne_nil _ _, hcount, List.forall_mem_cons.2 ⟨hfirst, ?_⟩⟩
    simpa using hrest

theorem arguments_shellArgv (snapshot : Snapshot) : Arguments (shellArgv snapshot) := by
  rw [shellArgv]
  split
  case isTrue => exact ⟨by decide, by decide, by decide⟩
  case isFalse =>
    split
    case h_1 shell _ =>
      split
      case isTrue hshell =>
        simp only [Bool.and_eq_true, Bool.not_eq_true'] at hshell
        exact ⟨List.cons_ne_nil _ _, by rw [List.length_singleton]; decide,
          List.forall_mem_singleton.2 hshell.1.2⟩
      case isFalse => exact ⟨by decide, by decide, by decide⟩
    case h_2 => exact ⟨by decide, by decide, by decide⟩

theorem Arguments.forEach {argv : List String} (h : Arguments argv) :
    Checks.forEach (fun arg => do
      Runtime.rejectNul "runtime argument" arg
      Runtime.rejectControl "runtime argument" arg) argv = .ok () := by
  refine forEach_eq_ok.2 fun arg harg => ?_
  have hcontrol := h.chars arg harg
  have hchars : ∀ c ∈ arg.toList, isControl c = false := by simpa [containsControl] using hcontrol
  simp only [Runtime.rejectNul, Runtime.rejectControl, unit_bind_eq_ok, rejectIf_eq_ok]
  exact ⟨ne_nul_of_not_isControl hchars, hcontrol⟩

theorem boundedInteger_eq_ok {value : ℤ} {minimum maximum n : ℕ}
    (h : boundedInteger value name minimum maximum = .ok n) : minimum ≤ n ∧ n ≤ maximum := by
  simp only [boundedInteger, unit_bind_eq_ok, rejectIf_eq_ok, Bool.or_eq_false_iff,
    decide_eq_false_iff_not, pure_eq_ok, Except.ok.injEq] at h
  omega

theorem validateTerminalSize_of_normalizeInitialSize {options : Option SizeOptions}
    {size : TerminalSize}
    (h : normalizeInitialSize options = .ok size) : Runtime.validateTerminalSize size = .ok () := by
  simp only [normalizeInitialSize, bind_eq_ok, pure_eq_ok, Except.ok.injEq] at h
  obtain ⟨cols, hcols, rows, hrows, ⟨width, height⟩, hpixels, rfl⟩ := h
  have hcols := (boundedInteger_eq_ok hcols).1
  have hrows := (boundedInteger_eq_ok hrows).1
  have hpair : width.isSome = height.isSome := by
    unfold normalizePixels at hpixels
    split at hpixels
    case h_1 =>
      cases hpixels
      rfl
    case h_2 =>
      simp only [bind_eq_ok, pure_eq_ok, Except.ok.injEq, Prod.mk.injEq] at hpixels
      obtain ⟨_, -, _, -, rfl, rfl⟩ := hpixels
      rfl
    case h_3 => cases hpixels
  simp only [Runtime.validateTerminalSize, unit_bind_eq_ok, rejectIf_eq_ok, Bool.or_eq_false_iff,
    beq_eq_false_iff_ne, bne_eq_false_iff_eq]
  exact ⟨⟨by omega, by omega⟩, hpair⟩

/-- What the editor keeps to in the processes it accepts. -/
structure Accepted (snapshot : Snapshot) (request : ProcessRequest) : Prop where
  argv : Arguments (match request.command with
    | .argv arguments => arguments
    | .shell _ => shellArgv snapshot)
  cwd : request.cwd = "" ∨ Relative request.cwd.toList
  env : Runtime.validateEnvironment ⟨request.env.clear,
    (sortNames snapshot.pathStyle Prod.fst request.env.set).map fun entry => ⟨entry.1, entry.2⟩,
    request.env.unset⟩ = .ok ()
  pipe : request.stdio = .pipe → request.persistence = .attached ∧ request.initialSize = none
  pty : request.stdio = .pty → request.maxOutputBytes = none ∧
    ∃ size, request.initialSize = some size ∧ Runtime.validateTerminalSize size = .ok ()

variable {request : ProcessRequest}

theorem accepted_of_normalizeProcessSpec {opts : ProcessOptions}
    (h : normalizeProcessSpec snapshot opts = .ok request) : Accepted snapshot request := by
  simp only [normalizeProcessSpec, bind_eq_ok, rejectIf_eq_ok, pure_eq_ok, Except.ok.injEq] at h
  obtain ⟨command, hcommand, cwd, hcwd, env, henv, _, hdetached, _, -, maxOutputBytes,
    houtput, timeoutMs, -,
    initialSize, hsize, _, -, rfl⟩ := h
  refine ⟨?_, relative_of_normalizeCwd hcwd, validateEnvironment_of_normalizeEnv henv, ?_, ?_⟩
  · cases hoptions : opts.command with
    | argv arguments =>
      rw [hoptions] at hcommand
      obtain ⟨rfl, harguments⟩ := arguments_of_normalizeCommand hcommand
      exact harguments
    | shell name =>
      rw [hoptions, normalizeCommand] at hcommand
      simp only [unit_bind_eq_ok, pure_eq_ok, Except.ok.injEq] at hcommand
      obtain ⟨-, rfl⟩ := hcommand
      exact arguments_shellArgv snapshot
  · intro hpipe
    simp only at hpipe
    rw [hpipe] at hdetached hsize
    cases hsize
    refine ⟨?_, rfl⟩
    cases hpersistence : opts.persistence.getD .attached with
    | attached => rfl
    | detached =>
      rw [hpersistence] at hdetached
      exact absurd hdetached (by decide)
  · intro hpty
    simp only at hpty
    rw [hpty] at houtput hsize
    simp only [normalizeOutput, unit_bind_eq_ok, pure_eq_ok, Except.ok.injEq] at houtput
    obtain ⟨-, rfl⟩ := houtput
    simp only [normalizeSize] at hsize
    cases hinitial : normalizeInitialSize opts.initialSize with
    | error error =>
      rw [hinitial] at hsize
      cases hsize
    | ok size =>
      rw [hinitial] at hsize
      cases hsize
      exact ⟨rfl, size, rfl, validateTerminalSize_of_normalizeInitialSize hinitial⟩

/-- A process that passes the checks of its message and of its capability can be started. -/
theorem validateTicketProcess_eq_ok {capability : Runtime.RuntimeCapability}
    {spec : Runtime.RuntimeProcessSpec}
    (hcapability : capability ≠ .workspaceWatchV1)
    (hspec : Runtime.validateProcessSpec spec = .ok ())
    (hfits : Runtime.validateSpecForCapability capability spec = .ok ()) :
    validateTicketProcess capability spec = .ok () := by
  have hversion : Runtime.validatePackageVersion Runtime.packageVersion = .ok () := by decide
  have hsupported : Runtime.validateProtocolAndCapability ⟨true, true, false⟩ Runtime.packageVersion
      Runtime.protocolVersion capability = .ok () := by
    cases capability with
    | workspaceWatchV1 => exact absurd rfl hcapability
    | processPipeV1 => rfl
    | processPtyV1 => rfl
  have hclient : (Runtime.RuntimeStateMachine.new .client ⟨true, true, false⟩).observeOutbound
      (.clientHello Runtime.packageVersion Runtime.protocolVersion capability) =
      .ok ⟨.client, ⟨true, true, false⟩, .awaitServerHello capability⟩ := by
    refine Runtime.RuntimeStateMachine.observe_eq_ok.2 ⟨hversion, rfl, _, ?_, rfl⟩
    simp only [Runtime.RuntimeStateMachine.new, Runtime.applyMessage, hsupported, ok_bind,
      pure_eq_ok]
  have hserver : (⟨.client, ⟨true, true, false⟩, .awaitServerHello capability⟩ :
      Runtime.RuntimeStateMachine).observeInbound
      (.serverHello Runtime.packageVersion Runtime.protocolVersion capability) =
      .ok ⟨.client, ⟨true, true, false⟩, .ready capability⟩ := by
    refine Runtime.RuntimeStateMachine.observe_eq_ok.2 ⟨hversion, rfl, _, ?_, rfl⟩
    simp only [Runtime.applyMessage, hsupported, ok_bind, bne_self_eq_false, rejectIf_false,
      pure_eq_ok]
  have hstart : (⟨.client, ⟨true, true, false⟩, .ready capability⟩ :
      Runtime.RuntimeStateMachine).observeOutbound (.startProcess 1 spec) =
      .ok ⟨.client, ⟨true, true, false⟩, .awaitProcessStarted capability 1 spec.persistence⟩ := by
    refine Runtime.RuntimeStateMachine.observe_eq_ok.2 ⟨hspec, rfl, _, ?_, rfl⟩
    cases capability with
    | workspaceWatchV1 => exact absurd rfl hcapability
    | processPipeV1 | processPtyV1 => simp only [Runtime.applyMessage, hfits, ok_bind, pure_eq_ok]
  simp only [validateTicketProcess, hclient, hserver, hstart, ok_bind, pure_eq_ok]

/-- The last check of a process: a size, if there is one. -/
theorem validateSize_eq_ok {initialSize : Option Runtime.TerminalSize}
    (h : ∀ size, initialSize = some size → Runtime.validateTerminalSize size = .ok ()) :
    (match initialSize with
      | none => pure ()
      | some size => Runtime.validateTerminalSize size) = Except.ok () := by
  cases initialSize with
  | none => rfl
  | some size => exact h size rfl

/-- **A process that the editor accepts** passes the checks of the proxy. -/
theorem validateTicketProcess_of_request {runtime : RemoteRuntime} {ticket : RuntimeTicket}
    (haccepted : Accepted snapshot request)
    (h : runtimeTicket runtime snapshot request = .ok ticket) :
    validateTicketProcess ticket.capability ticket.spec = .ok () := by
  simp only [runtimeTicket, bind_eq_ok, pure_eq_ok, Except.ok.injEq] at h
  obtain ⟨_, -, _, -, _, -, remoteRoot, -, ⟨agent, requestTimeoutMs, timeout⟩, -, rfl⟩ := h
  obtain ⟨hargv, hcwd, henv, hpipe, hpty⟩ := haccepted
  have httl : ((if request.persistence = .attached then Runtime.RuntimePersistence.attached
      else .detachable runtime.detachedTtlMs) == .detachable 0) = false := by
    have := runtime.ttl_pos
    split_ifs
    · rfl
    · simp only [beq_eq_false_iff_ne, ne_eq, Runtime.RuntimePersistence.detachable.injEq]
      omega
  refine validateTicketProcess_eq_ok ?_ ?_ ?_
  · simp only
    split_ifs
    · decide
    · decide
  · have hsize : ∀ size, request.initialSize = some size →
        Runtime.validateTerminalSize size = .ok () := by
      intro size hsome
      cases hstdio : request.stdio with
      | pipe =>
        rw [(hpipe hstdio).2] at hsome
        cases hsome
      | pty =>
        obtain ⟨-, _, hsize, hvalid⟩ := hpty hstdio
        cases hsize.symm.trans hsome
        exact hvalid
    simp only [Runtime.validateProcessSpec, unit_bind_eq_ok, rejectIf_eq_ok,
      decide_eq_false_iff_not, not_lt]
    refine ⟨List.isEmpty_eq_false_iff.2 hargv.some, hargv.count, hargv.forEach, ?_⟩
    by_cases hempty : request.cwd = ""
    · rw [if_pos hempty]
      exact unit_bind_eq_ok.2 ⟨henv, unit_bind_eq_ok.2 ⟨rejectIf_eq_ok.2 httl,
        validateSize_eq_ok hsize⟩⟩
    · rw [if_neg hempty]
      have hpath := validateWorkspacePath_of_relative (hcwd.resolve_left hempty)
      exact unit_bind_eq_ok.2 ⟨hpath,
        unit_bind_eq_ok.2 ⟨henv, unit_bind_eq_ok.2 ⟨rejectIf_eq_ok.2 httl,
        validateSize_eq_ok hsize⟩⟩⟩
  · cases hstdio : request.stdio with
    | pipe => simp [Runtime.validateSpecForCapability, hpipe hstdio]
    | pty =>
      obtain ⟨houtput, size, hsize, -⟩ := hpty hstdio
      simp [Runtime.validateSpecForCapability, houtput, hsize]

end RemoteMirror.Ticket
