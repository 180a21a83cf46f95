/-
**Tickets are accepted, if the root of the workspace is in its normal form.**

The editor makes a ticket from the key, the root and the host that the sidecar has reported.
Everything that the sidecar and the editor have accepted passes the checks of the proxy, with one
exception: the editor writes the root in its normal form, and the key that the proxy derives from it
is that of another root unless the sidecar's root is already in this form
(`normalizeAbsolute_eq_self_iff`).

Main definitions:

* `Ticket.Issued` — what is known about a ticket from the workspace it was made for.

Main results:

* `Ticket.validateRemoteHostInfo_of_detected` — hosts that the sidecar has detected;
* `Ticket.issued_of_ticketFor` — tickets of a workspace that the sidecar serves;
* `Ticket.ticket_accepted_iff` — **which tickets the proxy accepts**.
-/

import RemoteMirror.TicketProcess

namespace RemoteMirror.Ticket

open Checks
open RemoteMirror.Runtime (isControl)
open TextSlice (of_ascii ascii_of_isAlpha)

/-! ### Hosts -/

variable {name value : String}

/-- The checks of a path are the same under every name. -/
theorem validateCanonicalPosixPath_rename (h : validateCanonicalPosixPath name value = .ok ())
    (other : String) : validateCanonicalPosixPath other value = .ok () := by
  simp only [validateCanonicalPosixPath, rejectFieldControls, unit_bind_eq_ok,
    rejectIf_eq_ok] at h ⊢
  exact h

theorem validateCanonicalWindowsPath_rename (h : validateCanonicalWindowsPath name value = .ok ())
    (other : String) : validateCanonicalWindowsPath other value = .ok () := by
  simp only [validateCanonicalWindowsPath, rejectFieldControls, unit_bind_eq_ok,
    rejectIf_eq_ok] at h ⊢
  refine ⟨h.1, h.2.1, ?_⟩
  have hrest := h.2.2
  split at hrest
  case h_1 drive colon separator rest =>
    simp only [unit_bind_eq_ok, rejectIf_eq_ok] at hrest ⊢
    exact hrest
  case h_2 => cases hrest

/-- The names of systems and architectures are looked up once. -/
theorem hostOs_again {os : String} (h : hostOs os = .ok name) : hostOs name = .ok name := by
  simp only [hostOs] at h
  split_ifs at h <;> cases h <;> decide

variable {arch : String}

theorem hostArch_again (h : hostArch arch = .ok name) : hostArch name = .ok name := by
  simp only [hostArch] at h
  split_ifs at h <;> cases h <;> decide

/-- What `build_host_info` has checked. -/
structure Built (shell home : String) (localAppData : Option String) (style : RemotePathStyle)
    (info : RemoteHostInfo) : Prop where
  os : hostOs info.os = .ok info.os
  arch : hostArch info.arch = .ok info.arch
  homeChars : rejectFieldControls "home" home = .ok ()
  localChars : ∀ path, localAppData = some path → rejectFieldControls "local_app_data" path = .ok ()
  paths : validateHostPaths home localAppData style = .ok ()
  info : info = ⟨info.os, info.arch, shell, home, localAppData, style, hostTarget info.os info.arch⟩

variable {style : RemotePathStyle} {shell home : String} {localAppData : Option String}
  {info : RemoteHostInfo}

theorem built_of_buildHostInfo {os : String}
    (h : buildHostInfo os arch shell home localAppData style = .ok info) :
    Built shell home localAppData style info := by
  simp only [buildHostInfo, bind_eq_ok] at h
  obtain ⟨name, hos, target, harch, _, -, _, hhome, h⟩ := h
  cases localAppData with
  | none =>
    simp only [pure_eq_ok, bind_eq_ok, Except.ok.injEq] at h
    obtain ⟨_, hpaths, rfl⟩ := h
    exact ⟨hostOs_again hos, hostArch_again harch, hhome, nofun, hpaths, rfl⟩
  | some path =>
    simp only [bind_eq_ok, pure_eq_ok, Except.ok.injEq] at h
    obtain ⟨_, hpath, _, hpaths, rfl⟩ := h
    refine ⟨hostOs_again hos, hostArch_again harch, hhome, fun other hother => ?_, hpaths, rfl⟩
    cases hother
    exact hpath

/-- A host can be built again from its own fields, with any shell. -/
theorem Built.again {other : String} (h : Built shell home localAppData style info)
    (hshell : rejectFieldControls "shell" other = .ok ()) :
    buildHostInfo info.os info.arch other home localAppData style =
      .ok { info with shell := other } := by
  have hinfo := h.info
  cases localAppData with
  | none =>
    simp only [buildHostInfo, h.os, h.arch, hshell, h.homeChars, h.paths, ok_bind, pure_eq_ok]
    rw [hinfo]
  | some path =>
    simp only [buildHostInfo, h.os, h.arch, hshell, h.homeChars, h.localChars path rfl, h.paths,
      ok_bind, pure_eq_ok]
    rw [hinfo]

theorem not_isControl_of_safe {c : Char} (h : safeExecutableChar c = true) :
    isControl c = false := by
  have hascii : c.toNat < 128 := by
    simp only [safeExecutableChar, Char.isAlphanum, Bool.or_eq_true, decide_eq_true_eq] at h
    rcases h with ((((((halpha | hdigit) | rfl) | rfl) | rfl) | rfl) | rfl)
    · exact ascii_of_isAlpha halpha
    · simp only [Char.isDigit, Bool.and_eq_true, decide_eq_true_eq,
        UInt32.le_iff_toNat_le] at hdigit
      have hval : c.toNat = c.val.toNat := rfl
      have hnine : '9'.val.toNat = 57 := rfl
      omega
    all_goals decide
  exact of_ascii (P := fun c => safeExecutableChar c = true → isControl c = false)
    (by decide +kernel) hascii h

/-- A shell that `is_safe_posix_shell_path` lets pass is a canonical path. -/
theorem validateExecutable_of_safe (h : isSafePosixShellPath shell = true) (name : String) :
    validateCanonicalPosixExecutable name shell = .ok () := by
  simp only [isSafePosixShellPath, Bool.and_eq_true, Bool.not_eq_true', Bool.or_eq_false_iff,
    decide_eq_false_iff_not, not_lt, Bool.not_eq_false', not_not, List.all_eq_true] at h
  obtain ⟨⟨⟨⟨htwo, hsize⟩, hhead⟩, hsafe⟩, hparts⟩ := h
  obtain ⟨rest, hrest⟩ := List.head?_eq_some_iff.1 hhead
  rw [hrest, List.drop_succ_cons, List.drop_zero] at hparts
  have hcontrol : (shell.toList.any isControl) = false := by
    refine List.any_eq_false.2 fun c hc => ?_
    rw [not_isControl_of_safe (hsafe c hc)]
    decide
  have hempty : shell.isEmpty = false := by
    rw [String.isEmpty_eq_false_iff]
    rintro rfl
    cases hrest
  -- a slash at the end leaves an empty component
  have hlast : shell ≠ "/" → shell.toList.getLast? ≠ some '/' := by
    intro hne hlast
    obtain ⟨front, hfront⟩ := List.getLast?_eq_some_iff.1 hlast
    rw [hrest] at hfront
    cases front with
    | nil =>
      obtain ⟨-, rfl⟩ := List.cons.inj hfront
      exact hne (String.toList_injective hrest)
    | cons c front =>
      obtain ⟨-, rfl⟩ := List.cons.inj hfront
      have hmem : [] ∈ (front ++ ['/']).splitOn '/' := by
        rw [List.splitOn_append_cons_self]
        exact List.mem_append_right _ (by decide)
      exact absurd (hparts _ hmem).1 (by decide)
  have hcomponents : (((shell.toList.drop 1).splitOn '/').any fun component =>
      component.isEmpty || isDots component) = false := by
    rw [hrest]
    refine List.any_eq_false.2 fun component hcomponent => ?_
    have := hparts component hcomponent
    simp [this.1, this.2]
  have hbound : shell.utf8ByteSize ≤ remoteHostPathMaxBytes := Nat.le_trans hsize (by decide)
  simp only [validateCanonicalPosixExecutable, validateCanonicalPosixPath, rejectFieldControls,
    unit_bind_eq_ok, rejectIf_eq_ok, hempty, hcontrol, hcomponents, Bool.or_false, Bool.and_false,
    Bool.not_eq_false', List.all_eq_true]
  refine ⟨⟨trivial, ?_, ?_, trivial⟩, hsafe⟩
  · simp [hbound, hhead]
  · simpa using hlast

theorem validateExecutable_accountShell (shell : Option String) (name : String) :
    validateCanonicalPosixExecutable name (accountShell shell) = .ok () := by
  rw [accountShell]
  cases hshell : shell.filter isSafePosixShellPath with
  | none => exact validateExecutable_of_safe (by decide +kernel) name
  | some path => exact validateExecutable_of_safe (Option.filter_eq_some_iff.1 hshell).2 name

variable {host : RemoteHostInfo}

theorem parsePosixProbe_eq_ok {fields : List String} (h : parsePosixProbe fields = .ok host) :
    ∃ home info shell, Built "sh" home none .posix info ∧
      host = { info with shell := accountShell shell } := by
  have hlegacy : ∀ {magic os arch home : String} {info : RemoteHostInfo},
      parseLegacyPosixProbe magic os arch home = .ok info → Built "sh" home none .posix info := by
    intro magic os arch home info hinfo
    simp only [parseLegacyPosixProbe, bind_eq_ok] at hinfo
    obtain ⟨_, -, _, -, _, -, hinfo⟩ := hinfo
    exact built_of_buildHostInfo hinfo
  unfold parsePosixProbe at h
  split at h
  case h_1 =>
    simp only [bind_eq_ok, pure_eq_ok, Except.ok.injEq] at h
    obtain ⟨info, hinfo, rfl⟩ := h
    exact ⟨_, info, none, hlegacy hinfo, rfl⟩
  case h_2 _ _ _ _ shell =>
    simp only [bind_eq_ok, pure_eq_ok, Except.ok.injEq] at h
    obtain ⟨info, hinfo, rfl⟩ := h
    exact ⟨_, info, some shell, hlegacy hinfo, rfl⟩
  case h_3 => cases h

variable {windows : Bool}

/-- **A host behind ssh that the sidecar has detected** is valid, if its style is that of its
system. -/
theorem validateRemoteHostInfo_of_detected {ssh : SshTransport}
    (h : Detected windows (.ssh ssh) host)
    (hstyle : host.pathStyle = if host.os = "windows" then .windows else .posix) :
    validateRemoteHostInfo host = .ok () := by
  cases h with
  | posix h =>
    obtain ⟨home, info, shell, hbuilt, rfl⟩ := parsePosixProbe_eq_ok h
    have hexecutable := validateExecutable_accountShell shell
    have hchars : rejectFieldControls "shell" (accountShell shell) = .ok () := by
      have hpath := hexecutable "shell"
      simp only [validateCanonicalPosixExecutable, validateCanonicalPosixPath,
        unit_bind_eq_ok] at hpath
      exact hpath.1.1
    have hagain := hbuilt.again hchars
    have hhome := validateCanonicalPosixPath_rename hbuilt.paths "remote host home"
    obtain ⟨os, arch, _, _, _, _, _⟩ := info
    have hinfo := hbuilt.info
    simp only [RemoteHostInfo.mk.injEq, true_and] at hinfo
    obtain ⟨rfl, rfl, rfl, rfl, rfl⟩ := hinfo
    simp only [validateRemoteHostInfo, bind_eq_ok, rejectIf_eq_ok]
    refine ⟨(), ?_, (), ?_, (), ?_, (), ?_, (), hhome, (), hexecutable _, _, hagain, ?_⟩
    · simpa using hstyle
    · rfl
    · simpa [rejectFieldControls] using hchars
    · rfl
    · simp
  | powershell h =>
    simp only [parsePowershellProbe, bind_eq_ok] at h
    obtain ⟨_, -, _, -, _, -, _, -, h⟩ := h
    have hbuilt := built_of_buildHostInfo h
    have hagain := hbuilt.again (show rejectFieldControls "shell" "powershell" = .ok () by decide)
    have hpaths := hbuilt.paths
    simp only [validateHostPaths, unit_bind_eq_ok] at hpaths
    have hhome := validateCanonicalWindowsPath_rename hpaths.1 "remote host home"
    have hlocal := validateCanonicalWindowsPath_rename hpaths.2 "remote host local app-data"
    obtain ⟨os, arch, _, _, _, _, _⟩ := host
    have hinfo := hbuilt.info
    simp only [RemoteHostInfo.mk.injEq, true_and] at hinfo
    obtain ⟨rfl, rfl, rfl, rfl, rfl⟩ := hinfo
    simp only [validateRemoteHostInfo, bind_eq_ok, rejectIf_eq_ok, okOr_eq_ok]
    refine ⟨(), ?_, (), ?_, (), ?_, (), ?_, (), hhome, _, rfl, (), hlocal, _, hagain, ?_⟩
    · simpa using hstyle
    · rfl
    · decide
    · rfl
    · simp

theorem pathStyle_of_localHost (h : Detected windows .localHost host) :
    host.pathStyle = if windows then .windows else .posix := by
  cases h with
  | here h =>
    simp only [localHostInfo, bind_eq_ok] at h
    obtain ⟨home, -, h⟩ := h
    split at h
    case isTrue hwindows =>
      simp only [bind_eq_ok] at h
      obtain ⟨path, -, h⟩ := h
      rw [(built_of_buildHostInfo h).info, if_pos hwindows]
    case isFalse hwindows => rw [(built_of_buildHostInfo h).info, if_neg hwindows]

/-! ### Agents -/

variable {agent : String}

/-- An agent that fits its host is accepted where the host is not known. -/
theorem validateUnresolved_of_style (h : validateRemoteAgentReferenceForStyle agent style =
    .ok ()) : validateUnresolvedRemoteAgentReference agent = .ok () := by
  rw [validateUnresolvedRemoteAgentReference]
  split
  case isTrue hmanaged =>
    unfold validateRemoteAgentReferenceForStyle at h
    rwa [if_pos hmanaged] at h
  case isFalse hmanaged =>
    -- the first character tells the two styles of absolute paths apart
    have hhead : agent.toList.head? = some '/' ↔ style = .posix := by
      unfold validateRemoteAgentReferenceForStyle at h
      rw [if_neg hmanaged] at h
      simp only [unit_bind_eq_ok] at h
      cases style with
      | posix =>
        have hpath := h.2
        simp only [validateCanonicalPosixExecutable, validateCanonicalPosixPath, unit_bind_eq_ok,
          rejectIf_eq_ok, Bool.or_eq_false_iff, decide_eq_false_iff_not, not_not] at hpath
        exact ⟨fun _ => rfl, fun _ => hpath.1.1.2.1.2⟩
      | windows =>
        have hpath := h.2
        simp only [validateCanonicalWindowsPath, unit_bind_eq_ok, rejectIf_eq_ok] at hpath
        have hdrive := hpath.1.2.2
        refine ⟨fun hslash => ?_, by simp⟩
        split at hdrive
        case h_1 drive colon separator rest htext =>
          simp only [unit_bind_eq_ok, rejectIf_eq_ok, Bool.or_eq_false_iff,
            Bool.not_eq_false'] at hdrive
          rw [htext, List.head?_cons, Option.some.injEq] at hslash
          rw [hslash] at hdrive
          exact absurd hdrive.1.1.1 (by decide)
        case h_2 => cases hdrive
    cases style with
    | posix => rwa [if_pos (hhead.2 rfl)]
    | windows => rwa [if_neg (fun hslash => absurd (hhead.1 hslash) (by decide))]

/-! ### Targets -/

/-- What the roots of targets begin with. -/
structure Target.Rooted (target : Target) : Prop where
  remote : target.ssh.isSome = true → target.remoteRoot.toList.head? = some '/' ∨
    (hasDrive target.remoteRoot.toList = true ∧ (target.remoteRoot.toList.drop 2).head? = some '/')
  here : target.ssh = none → sshScheme.isPrefixOf target.remoteRoot.toList = false

variable {path : String}

theorem validateSshPath_rooted {root : String} (h : validateSshPath path = .ok root) :
    root.toList.head? = some '/' ∨ (hasDrive root.toList = true ∧
      (root.toList.drop 2).head? = some '/') := by
  simp only [validateSshPath, unit_bind_eq_ok, rejectIf_eq_ok, decide_eq_false_iff_not,
    not_not] at h
  obtain ⟨hhead, -, h⟩ := h
  obtain ⟨rest, hrest⟩ := List.head?_eq_some_iff.1 hhead
  rw [hrest] at h
  simp only [List.drop_succ_cons, List.drop_zero] at h
  split at h
  case isFalse =>
    simp only [unit_bind_eq_ok, pure_eq_ok, Except.ok.injEq] at h
    obtain ⟨-, -, -, rfl⟩ := h
    exact .inl hhead
  case isTrue hdrive =>
    simp only [unit_bind_eq_ok, rejectIf_eq_ok, pure_eq_ok, Except.ok.injEq, Bool.or_eq_false_iff,
      decide_eq_false_iff_not, not_not, not_lt, List.length_cons] at h
    obtain ⟨⟨htwo, hlength⟩, -, -, -, rfl⟩ := h
    -- the first segment is a drive letter and a colon, and something follows it
    obtain ⟨drive, colon, hfirst⟩ := List.length_eq_two.1 htwo
    rw [hfirst] at hdrive ⊢
    simp only [List.head?_cons, Option.any_some, List.drop_succ_cons, List.drop_zero,
      Bool.and_eq_true, decide_eq_true_eq, Option.some.injEq] at hdrive
    obtain ⟨halpha, rfl⟩ := hdrive
    have hsplit := List.takeWhile_append_dropWhile (p := fun c => decide (c ≠ '/')) (l := rest)
    rw [hfirst] at hsplit
    cases hafter : rest.dropWhile fun c => decide (c ≠ '/') with
    | nil =>
      rw [hafter] at hsplit
      rw [← hsplit] at hlength
      exact absurd hlength (by simp)
    | cons slash after =>
      have hslash : slash = '/' := by
        have := List.head?_dropWhile_not (fun c => decide (c ≠ '/')) rest
        rw [hafter] at this
        simpa using this
      rw [hafter, hslash] at hsplit
      rw [← hsplit]
      refine .inr ⟨?_, ?_⟩
      · have hupper : drive.toUpper.isAlpha = true := by simp [Char.isAlpha, isUpper_toUpper halpha]
        simp [hasDrive, hupper]
      · simp

variable {fullPath : String → String}

theorem isPrefixOf_normalizeLocalRoot (h : sshScheme.isPrefixOf (fullPath path).toList = false) :
    sshScheme.isPrefixOf (normalizeLocalRoot fullPath path).toList = false := by
  rw [normalizeLocalRoot]
  split
  case isTrue => exact h
  case isFalse =>
    rw [String.toList_ofList]
    refine Bool.eq_false_iff.2 fun hscheme => ?_
    have hfull := (List.isPrefixOf_iff_prefix.1 hscheme).trans (List.rdropWhile_prefix _ _)
    exact Bool.eq_false_iff.1 h (List.isPrefixOf_iff_prefix.2 hfull)

variable {target : Target}

theorem rooted_of_parseTarget {cwd text : String}
    (hfull : ∀ path, sshScheme.isPrefixOf path.toList = false →
      sshScheme.isPrefixOf (fullPath path).toList = false)
    (hcwd : sshScheme.isPrefixOf cwd.toList = false)
    (h : parseTarget fullPath cwd text = .ok target) : target.Rooted := by
  unfold parseTarget at h
  split at h
  case isTrue =>
    cases h
    exact ⟨nofun, fun _ => isPrefixOf_normalizeLocalRoot (hfull cwd hcwd)⟩
  case isFalse =>
    split at h
    case isTrue =>
      simp only [bind_eq_ok, pure_eq_ok, Except.ok.injEq] at h
      obtain ⟨⟨host, path⟩, -, _, -, bytes, -, decoded, -, _, -, root, hroot, rfl⟩ := h
      exact ⟨fun _ => validateSshPath_rooted hroot, nofun⟩
    case isFalse hscheme =>
      cases h
      exact ⟨nofun, fun _ => isPrefixOf_normalizeLocalRoot
        (hfull text (Bool.eq_false_iff.2 hscheme))⟩

theorem percentEncode_slash (rest : List Char) :
    ∃ more, (percentEncode (String.ofList ('/' :: rest))).toList = '/' :: more := by
  have hslash : String.utf8EncodeChar '/' = [47] := by decide
  rw [percentEncode, String.toList_ofList, String.toList_ofList, TextSlice.utf8_cons, hslash,
    List.singleton_append, List.flatMap_cons]
  exact ⟨_, rfl⟩

theorem splitDestination_append {ssh : String} {rest : List Char} (hne : ssh ≠ "")
    (hslash : '/' ∉ ssh.toList) :
    splitDestination (ssh.toList ++ '/' :: rest) = some (ssh, String.ofList ('/' :: rest)) := by
  have hall : ∀ c ∈ ssh.toList, decide (c ≠ '/') = true := by
    intro c hc
    refine decide_eq_true ?_
    rintro rfl
    exact hslash hc
  have hempty : ssh.toList ≠ [] := fun hnil => hne (String.toList_injective hnil)
  have htake : (ssh.toList ++ '/' :: rest).takeWhile (fun c => decide (c ≠ '/')) = ssh.toList := by
    rw [List.takeWhile_append_of_pos hall]
    simp
  have hdrop : (ssh.toList ++ '/' :: rest).dropWhile (fun c => decide (c ≠ '/')) = '/' :: rest := by
    rw [List.dropWhile_append_of_pos hall]
    simp
  rw [splitDestination]
  simp only [htake, hdrop]
  rw [if_neg (by simp [hempty]), String.ofList_toList]

/-- **The editor finds the destination of a target in the text it keeps of it.** -/
theorem destination_of_reconnectArg (hrooted : target.Rooted)
    (hssh : ∀ ssh, target.ssh = some ssh → ssh ≠ "" ∧ '/' ∉ ssh.toList)
    (h : ((optionalString (reconnectArg target)).isSome &&
      ((optionalString (reconnectArg target)).bind parseTargetArg).isNone) = false) :
    ((optionalString (reconnectArg target)).bind parseTargetArg).bind Parsed.destination =
      target.ssh := by
  obtain ⟨ssh, root⟩ := target
  cases ssh with
  | none =>
    have hscheme := hrooted.here rfl
    simp only [reconnectArg] at hscheme ⊢
    rw [optionalString]
    split
    case isTrue => rfl
    case isFalse hne => simp [parseTargetArg, hne, hscheme]
  | some ssh =>
    obtain ⟨hne, hslash⟩ := hssh ssh rfl
    obtain ⟨more, htext⟩ : ∃ more, (reconnectArg ⟨some ssh, root⟩).toList =
        sshScheme ++ (ssh.toList ++ '/' :: more) := by
      have hpath : ∃ rest, (if hasDrive root.toList && (root.toList.drop 2).head? =
        some '/' then '/' :: root.toList
          else root.toList) = '/' :: rest := by
        split
        case isTrue => exact ⟨_, rfl⟩
        case isFalse hdrive =>
          rcases hrooted.remote rfl with hhead | hboth
          · exact List.head?_eq_some_iff.1 hhead
          · exact absurd (by simp [hboth.1, hboth.2]) hdrive
      obtain ⟨rest, hrest⟩ := hpath
      obtain ⟨more, hmore⟩ := percentEncode_slash rest
      refine ⟨more, ?_⟩
      simp only [reconnectArg, hrest, String.toList_append, hmore]
      rfl
    have hne' : reconnectArg ⟨some ssh, root⟩ ≠ "" := by
      intro hempty
      rw [hempty] at htext
      exact absurd htext (by simp [sshScheme])
    have hsource : optionalString (reconnectArg ⟨some ssh, root⟩) =
        some (reconnectArg ⟨some ssh, root⟩) :=
      if_neg hne'
    rw [hsource] at h ⊢
    simp only [Option.isSome_some, Option.bind_some, Bool.true_and] at h ⊢
    obtain ⟨parsed, hparsed⟩ := Option.isSome_iff_exists.1 (by simpa using h)
    rw [hparsed, Option.bind_some]
    have hscheme : sshScheme.isPrefixOf (reconnectArg ⟨some ssh, root⟩).toList = true := by
      rw [htext]
      exact List.isPrefixOf_iff_prefix.2 (List.prefix_append _ _)
    have hdrop : (reconnectArg ⟨some ssh, root⟩).toList.drop 6 = ssh.toList ++ '/' :: more := by
      rw [htext]
      rfl
    rw [parseTargetArg, if_neg hne', hscheme, hdrop, splitDestination_append hne hslash] at hparsed
    simp only [Bool.not_true, Bool.false_eq_true, if_false] at hparsed
    split at hparsed
    case isTrue => cases hparsed
    case isFalse =>
      obtain ⟨decoded, -, rfl⟩ := Option.map_eq_some_iff.1 hparsed
      rfl

/-! ### Tickets -/

variable {blake3 : List UInt8 → Vector UInt8 32}

theorem length_toHex (bytes : List UInt8) : (toHex bytes).length = 2 * bytes.length := by
  induction bytes with
  | nil => rfl
  | cons byte bytes ih =>
    rw [toHex, List.flatMap_cons, List.length_append, ← toHex, ih]
    simp only [List.length_cons, List.length_nil]
    omega

theorem workspaceKey_ne_empty (transport : RemoteTransport) (remoteRoot : String) :
    workspaceKey blake3 transport remoteRoot ≠ "" := by
  intro h
  have hlist : (workspaceKey blake3 transport remoteRoot).toList.length = 0 := by
    rw [h]
    rfl
  rw [workspaceKey, String.toList_ofList, List.length_take, length_toHex,
    Vector.length_toList] at hlist
  omega

/-- What the sidecar has accepted. -/
structure Served (blake3 : List UInt8 → Vector UInt8 32) (target : Target) (agent : String)
    (host : RemoteHostInfo) (transport : RemoteTransport) (hello : Hello) : Prop where
  destination : ∃ timeout, RemoteTransport.fromSsh target.ssh timeout = .ok transport
  agent : validateRemoteAgentReference agent host = .ok ()
  root : target.ssh.isSome = true → validateRemoteRoot host hello.remoteRoot = .ok ()
  here : target.ssh = none → hello.remoteRoot = target.remoteRoot
  key : hello.workspaceKey = workspaceKey blake3 transport hello.remoteRoot
  host : hello.remoteHost = none ∨ hello.remoteHost = some host

variable {transport : RemoteTransport} {hello : Hello} {timeout : ℕ}

theorem served_of_serve {filesRoot : String} {cached : Bool}
    (h : serve blake3 target agent filesRoot timeout host cached = .ok (transport, hello)) :
    Served blake3 target agent host transport hello := by
  simp only [serve, bind_eq_ok] at h
  obtain ⟨transport', htransport, remoteRoot, hroot, _, hagent, h⟩ := h
  have hhost : (if cached then some host else none) = none ∨
      (if cached then some host else none) = some host := by
    cases cached with
    | true => exact .inr rfl
    | false => exact .inl rfl
  obtain ⟨ssh, root⟩ := target
  cases ssh with
  | none =>
    cases htransport
    cases hroot
    cases h
    exact ⟨⟨timeout, rfl⟩, hagent, nofun, fun _ => rfl, rfl, hhost⟩
  | some ssh =>
    have htransport' := htransport
    simp only [RemoteTransport.fromSsh, unit_bind_eq_ok, pure_eq_ok, Except.ok.injEq] at htransport'
    obtain ⟨-, rfl⟩ := htransport'
    simp only [unit_bind_eq_ok, pure_eq_ok, Except.ok.injEq, Prod.mk.injEq] at h
    obtain ⟨hvalid, rfl, rfl⟩ := h
    exact ⟨⟨timeout, htransport⟩, hagent, fun _ => hvalid, by simp, rfl, hhost⟩

/-- What is known about a ticket from the workspace it was made for. -/
structure Issued (hello : Hello) (target : Target) (agent : String) (ticket : RuntimeTicket) :
    Prop where
  schema : ticket.schemaVersion = ticketSchemaVersion
  key : ticket.workspaceKey = hello.workspaceKey
  keyText : (ticket.workspaceKey.utf8ByteSize ≠ 24 || !ticket.workspaceKey.toList.all keyChar) =
    false
  root : normalizeAbsolute hello.remoteRoot (authorityStyle hello.remoteHost
    (some hello.remoteRoot)) =
    .ok ticket.remoteRoot
  ssh : ticket.ssh = target.ssh
  agent : ticket.agent = agent
  connectTimeout : 1 ≤ ticket.sshConnectTimeoutSeconds ∧ ticket.sshConnectTimeoutSeconds ≤
    maxSshConnectTimeoutSeconds
  requestTimeout : 1 ≤ ticket.requestTimeoutMs ∧ ticket.requestTimeoutMs ≤ maxRuntimeTimeoutMs
  host : ∀ host, ticket.remoteHost = some host → target.ssh.isSome = true ∧
    hello.remoteHost = some host ∧
    host.pathStyle = if host.os = "windows" then .windows else .posix
  capability : ticket.capability ≠ .workspaceWatchV1
  process : validateTicketProcess ticket.capability ticket.spec = .ok ()

variable {snapshot : Snapshot}

theorem remoteHostHint_eq_some (h : remoteHostHint snapshot = some host) :
    snapshot.ssh.isSome = true ∧ snapshot.remoteHost = some host ∧
      host.pathStyle = if host.os = "windows" then .windows else .posix := by
  unfold remoteHostHint at h
  split at h
  case h_2 => cases h
  case h_1 ssh source hssh hsource =>
    -- every branch that gives a host gives the source, behind the test of its style
    split at h
    case isTrue => cases h
    case isFalse =>
      split at h
      case isTrue => cases h
      case isFalse =>
        by_cases hstyle : source.pathStyle ≠ (if source.os = "windows" then .windows else .posix)
        · rw [if_pos hstyle] at h
          cases h
        rw [if_neg hstyle] at h
        have hsame : source = host := by
          split_ifs at h <;> cases h <;> rfl
        subst hsame
        rw [hssh, hsource]
        exact ⟨rfl, rfl, not_not.1 hstyle⟩

theorem ticketConfig_eq_ok {requestTimeoutMs connectTimeout : ℕ}
    (h : ticketConfig snapshot = .ok (agent, requestTimeoutMs, connectTimeout)) :
    agent ≠ "" ∧
      agent = (if snapshot.ssh.isSome then snapshot.config.remoteAgent.getD "nrm-agent" else
        snapshot.config.agent) ∧
      (1 ≤ requestTimeoutMs ∧ requestTimeoutMs ≤ maxRuntimeTimeoutMs) ∧
      1 ≤ connectTimeout ∧ connectTimeout ≤ maxSshConnectTimeoutSeconds := by
  simp only [ticketConfig, bind_eq_ok, rejectIf_eq_ok, pure_eq_ok, Except.ok.injEq, Prod.mk.injEq,
    Bool.or_eq_false_iff, decide_eq_false_iff_not] at h
  obtain ⟨_, hagent, _, -, _, hrequest, _, hconnect, rfl, rfl, rfl⟩ := h
  exact ⟨hagent, rfl, by omega, by omega⟩

variable {config : RuntimeConfig}

theorem sidecarAgent_eq (hne : agent ≠ "")
    (h : agent = if target.ssh.isSome then config.remoteAgent.getD "nrm-agent" else config.agent) :
    agent = sidecarAgent config target := by
  rw [h, sidecarAgent]
  split
  case isFalse => rfl
  case isTrue hssh =>
    cases hconfig : config.remoteAgent with
    | none => rfl
    | some text =>
      rw [if_pos hssh, hconfig, Option.getD_some] at h
      subst h
      rw [Option.bind_some, optionalString, if_neg hne]

variable {ticket : RuntimeTicket}

/-- **A ticket for a workspace that the sidecar serves.** -/
theorem issued_of_ticketFor {workspaceHash : List String → String} {runtime : RemoteRuntime}
    {relativePath : Option String} {support : RuntimeSupport} {opts : ProcessOptions}
    (hrooted : target.Rooted)
    (hserved : Served blake3 target (sidecarAgent config target) host transport hello)
    (h : ticketFor workspaceHash runtime hello (reconnectArg target) relativePath support config
      opts = .ok ticket) :
    Issued hello target (sidecarAgent config target) ticket := by
  simp only [ticketFor, bind_eq_ok] at h
  obtain ⟨snapshot, hsnapshot, request, hrequest, hticket⟩ := h
  have hprocess :=
    validateTicketProcess_of_request (accepted_of_normalizeProcessSpec hrequest) hticket
  have hssh : ∀ ssh, target.ssh = some ssh → ssh ≠ "" ∧ '/' ∉ ssh.toList := by
    intro ssh hsome
    obtain ⟨timeout, htransport⟩ := hserved.destination
    rw [hsome] at htransport
    simp only [RemoteTransport.fromSsh, validateSshDestination, bind_eq_ok, rejectIf_eq_ok,
      Bool.or_eq_false_iff] at htransport
    obtain ⟨_, ⟨_, hempty, _, -, _, -, _, hslash, -⟩, -⟩ := htransport
    refine ⟨?_, contains_eq_false.1 hslash.1⟩
    rintro rfl
    exact absurd hempty (by decide)
  simp only [descriptorFor, bind_eq_ok, rejectIf_eq_ok, pure_eq_ok, Except.ok.injEq] at hsnapshot
  obtain ⟨_, hsource, normalizedRoot, hroot, rfl⟩ := hsnapshot
  have hdestination := destination_of_reconnectArg hrooted hssh hsource
  simp only [runtimeTicket, bind_eq_ok, rejectIf_eq_ok, okOr_eq_ok, pure_eq_ok,
    Except.ok.injEq] at hticket
  obtain ⟨_, -, _, -, _, hkey, remoteRoot, hremoteRoot, ⟨agent, requestTimeoutMs, connectTimeout⟩,
      hconfig, rfl⟩ :=
    hticket
  obtain ⟨hne, hagent, hrequestTimeout, hconnectTimeout⟩ := ticketConfig_eq_ok hconfig
  have hkeyText : optionalString hello.workspaceKey = some hello.workspaceKey := by
    rw [optionalString, if_neg (by rw [hserved.key]; exact workspaceKey_ne_empty _ _)]
  -- without a root there is no ticket
  have hrootText : optionalString hello.remoteRoot = some hello.remoteRoot := by
    refine if_neg fun hempty => ?_
    cases htarget : target.ssh with
    | some ssh =>
      have hvalid := hserved.root (by rw [htarget]; rfl)
      rw [hempty] at hvalid
      cases hvalid
    | none =>
      have harg : reconnectArg target = "" := by
        rw [reconnectArg, htarget]
        exact (hserved.here htarget).symm.trans hempty
      rw [hempty, harg] at hroot
      cases hroot
      cases hremoteRoot
  rw [hrootText, Option.some_or] at hroot
  have hnormalized : normalizeAbsolute hello.remoteRoot (authorityStyle hello.remoteHost
    (some hello.remoteRoot)) =
      .ok remoteRoot := by
    unfold authorityRoot at hroot
    split at hroot
    case h_1 heq => cases heq
    case h_2 root heq =>
      cases heq
      split at hroot
      case h_1 normalized hok =>
        cases hroot
        simp only [Option.bind_some, optionalString] at hremoteRoot
        split at hremoteRoot
        case isTrue => cases hremoteRoot
        case isFalse => rw [hok, Option.some.inj hremoteRoot]
      case h_2 => cases hroot
  rw [hkeyText, Option.getD_some] at hkey
  refine ⟨rfl, ?_, ?_, hnormalized, hdestination, ?_, hconnectTimeout, hrequestTimeout,
    ?_, ?_, hprocess⟩
  · simp only [hkeyText, Option.getD_some]
  · simpa only [hkeyText, Option.getD_some] using hkey
  · rw [hdestination] at hagent
    exact sidecarAgent_eq hne hagent
  · intro other hother
    obtain ⟨hremote, hhost, hstyle⟩ := remoteHostHint_eq_some hother
    rw [hdestination] at hremote
    exact ⟨hremote, hhost, hstyle⟩
  · simp only
    split_ifs
    · decide
    · decide

/-! ### Agreement -/

theorem fromSsh_timeout {ssh : Option String} (h : RemoteTransport.fromSsh ssh timeout =
    .ok transport) (other : ℕ) : ∃ transport', RemoteTransport.fromSsh ssh other = .ok transport' ∧
      transport'.workspaceIdentity = transport.workspaceIdentity ∧
      ((transport = .localHost ∧ transport' = .localHost ∧ ssh = none) ∨
        ∃ target target', transport = .ssh target ∧ transport' = .ssh target' ∧
          ssh.isSome = true) := by
  cases ssh with
  | none =>
    cases h
    exact ⟨.localHost, rfl, rfl, .inl ⟨rfl, rfl, rfl⟩⟩
  | some ssh =>
    simp only [RemoteTransport.fromSsh, unit_bind_eq_ok, pure_eq_ok, Except.ok.injEq] at h
    obtain ⟨hvalid, rfl⟩ := h
    refine ⟨.ssh ⟨ssh, other⟩, ?_, rfl, .inr ⟨_, _, rfl, rfl, rfl⟩⟩
    simp only [RemoteTransport.fromSsh, hvalid, ok_bind, pure_eq_ok]

theorem upperDrive_front {front : List Char} (h : Front style front) (rest : List Char) :
    upperDrive (front ++ rest) = front ++ rest := by
  cases h with
  | posix =>
    rw [List.singleton_append]
    unfold upperDrive
    split
    case h_1 drive tail heq =>
      obtain ⟨hdrive, -⟩ := List.cons.inj heq
      rw [if_neg (by rw [← hdrive]; decide)]
      exact heq.symm
    case h_2 => rfl
  | windows hupper =>
    have hsame : ∀ {c : Char}, c.isUpper = true → c.isAlpha = true ∧ c.toUpper = c := by
      intro c hc
      have halpha : c.isAlpha = true := by simp [Char.isAlpha, hc]
      exact of_ascii (P := fun c => c.isUpper = true → c.isAlpha = true ∧ c.toUpper = c)
        (by decide +kernel)
        (ascii_of_isAlpha halpha) hc
    simp only [List.cons_append, List.nil_append, upperDrive, (hsame hupper).1, (hsame hupper).2,
      if_true]

/-- The normal form of a root is left as it is. -/
theorem normalizeRemoteRoot_of_normal {normalized : String}
    (h : normalizeAbsolute path style = .ok normalized) (transport : RemoteTransport) :
    normalizeRemoteRoot transport normalized = .ok normalized := by
  obtain ⟨front, segments, hlist, hfront, hsegments⟩ := normalizeAbsolute_spec h
  cases transport with
  | localHost => rfl
  | ssh transport =>
    have hcontrol : normalized.toList.any isControl = false := by
      refine List.any_eq_false.2 fun c hc => ?_
      rw [hlist] at hc
      rcases List.mem_append.1 hc with hmem | hmem
      · cases hfront with
        | posix =>
          obtain rfl := List.mem_singleton.1 hmem
          decide
        | @windows drive hupper =>
          have hdrive : isControl drive = false :=
            of_ascii (P := fun c => c.isUpper = true → isControl c = false) (by decide +kernel)
              (ascii_of_isAlpha (by simp [Char.isAlpha, hupper])) hupper
          simp only [List.mem_cons, List.not_mem_nil, or_false] at hmem
          rcases hmem with rfl | rfl | rfl
          · simp [hdrive]
          · decide
          · decide
      · rcases hsegments with rfl | hrelative
        · cases hmem
        · simp [(hrelative.chars c hmem).2]
    rw [normalizeRemoteRoot, hcontrol, rejectIf_false, ok_bind, hlist, upperDrive_front hfront,
      ← hlist, String.ofList_toList]
    rfl

/-- The host metadata and the agent of a ticket pass, for a root that the sidecar has accepted. -/
theorem validateTicketHost_of_issued {other : RemoteTransport}
    (hdetected : Detected windows transport host)
    (hserved : Served blake3 target agent host transport hello)
    (hissued : Issued hello target agent ticket)
    (hother : (transport = .localHost ∧ other = .localHost ∧ target.ssh = none) ∨
      ∃ destination destination', transport = .ssh destination ∧ other = .ssh destination' ∧
      target.ssh.isSome = true) :
    validateTicketHost windows ticket hello.remoteRoot other ticket.remoteHost = .ok () := by
  have hagent := hserved.agent
  rcases hother with ⟨rfl, rfl, hnone⟩ | ⟨destination, destination', rfl, rfl, hsome⟩
  · cases hhint : ticket.remoteHost with
    | none =>
      rw [validateTicketHost, hissued.agent, ← pathStyle_of_localHost hdetected]
      exact hagent
    | some hint =>
      have hremote := (hissued.host hint hhint).1
      rw [hnone] at hremote
      cases hremote
  · cases hhint : ticket.remoteHost with
    | none =>
      rw [validateTicketHost, hissued.agent]
      exact validateUnresolved_of_style hagent
    | some hint =>
      obtain ⟨-, hhello, hstyle⟩ := hissued.host hint hhint
      have hsame : hint = host := by
        rcases hserved.host with hnone | hsame
        · rw [hnone] at hhello
          cases hhello
        · exact Option.some.inj (hhello.symm.trans hsame)
      subst hsame
      simp only [validateTicketHost, validateRemoteHostInfo_of_detected hdetected hstyle,
        hserved.root hsome, ok_bind, hissued.agent, hagent]

/-- **Which tickets the proxy accepts.** A ticket that the editor makes for a workspace the sidecar
has accepted is valid exactly when the root of the workspace is in its normal form, unless the two
roots have the same key. -/
theorem ticket_accepted_iff {windows cached : Bool} {fullPath : String → String}
    {workspaceHash : List String → String} {cwd text filesRoot : String} {timeout : ℕ}
    {target : Target}
    {host : RemoteHostInfo} {transport : RemoteTransport} {hello : Hello} {runtime : RemoteRuntime}
    {relativePath : Option String} {support : RuntimeSupport} {config : RuntimeConfig}
    {opts : ProcessOptions} {ticket : RuntimeTicket}
    (hfull : ∀ path, sshScheme.isPrefixOf path.toList = false →
      sshScheme.isPrefixOf (fullPath path).toList = false)
    (hcwd : sshScheme.isPrefixOf cwd.toList = false)
    (hparse : parseTarget fullPath cwd text = .ok target)
    (hserve : serve blake3 target (sidecarAgent config target) filesRoot timeout host cached =
      .ok (transport, hello))
    (hdetected : Detected windows transport host)
    (hticket : ticketFor workspaceHash runtime hello (reconnectArg target) relativePath
      support config opts = .ok ticket)
    (hkey : workspaceKey blake3 transport ticket.remoteRoot =
      workspaceKey blake3 transport hello.remoteRoot → ticket.remoteRoot = hello.remoteRoot) :
    validateTicket blake3 windows ticket = .ok () ↔
      normalizeAbsolute hello.remoteRoot (authorityStyle hello.remoteHost (some hello.remoteRoot)) =
        .ok hello.remoteRoot := by
  have hserved := served_of_serve hserve
  have hissued := issued_of_ticketFor (rooted_of_parseTarget hfull hcwd hparse) hserved hticket
  obtain ⟨_, hdestination⟩ := hserved.destination
  obtain ⟨transport', hfrom, hidentity, hsame⟩ :=
    fromSsh_timeout hdestination ticket.sshConnectTimeoutSeconds
  have hroot := normalizeRemoteRoot_of_normal hissued.root transport'
  have hkeys : ∀ root, workspaceKey blake3 transport' root =
      workspaceKey blake3 transport root := by
    intro root
    rw [workspaceKey, workspaceKey, hidentity]
  rw [← hissued.ssh] at hfrom
  constructor
  · intro hvalid
    simp only [validateTicket, checked, bind_eq_ok, mapError_eq_ok, rejectIf_eq_ok,
      decide_eq_false_iff_not, not_not] at hvalid
    obtain ⟨_, -, _, -, _, -, _, -, _, -, other, hother, root, hother', _, -, _, hbelongs, -⟩ :=
      hvalid
    cases hfrom.symm.trans hother
    cases hroot.symm.trans hother'
    rw [hkeys, hissued.key, hserved.key] at hbelongs
    have hsameRoot := hissued.root
    rw [hkey hbelongs.symm] at hsameRoot
    exact hsameRoot
  · intro hnormal
    have hticketRoot : ticket.remoteRoot = hello.remoteRoot :=
      Except.ok.inj (hissued.root.symm.trans hnormal)
    rw [hticketRoot] at hroot
    have hhost := validateTicketHost_of_issued hdetected hserved hissued hsame
    have hconnect := hissued.connectTimeout
    have hrequest := hissued.requestTimeout
    simp only [validateTicket, checked, bind_eq_ok, mapError_eq_ok, rejectIf_eq_ok]
    refine ⟨(), ?_, (), hissued.keyText, (), ?_, (), ?_, (), ?_, transport', hfrom,
      hello.remoteRoot,
      by rwa [hticketRoot], (), hhost, (), ?_, hissued.process⟩
    · simp [hissued.schema]
    · simp only [Bool.or_eq_false_iff, decide_eq_false_iff_not]
      omega
    · simp only [Bool.or_eq_false_iff, decide_eq_false_iff_not]
      omega
    · simp [hissued.capability]
    · simp [hissued.key, hserved.key, hkeys]

/-! ### A workspace -/

/-- BLAKE3 of the destination `host` with the roots `/srv/repo` and `/srv/repo/`. -/
def sampleDigest (bytes : List UInt8) : Vector UInt8 32 :=
  if bytes = TextSlice.utf8 "host\x00/srv/repo".toList then
    #v[116, 13, 139, 229, 49, 112, 81, 31, 246, 99, 168, 68, 236, 249, 21, 23,
      44, 234, 48, 249, 189, 144, 105, 75, 191, 58, 206, 193, 95, 214, 39, 239]
  else
    #v[72, 109, 40, 69, 154, 31, 30, 31, 104, 58, 122, 81, 5, 202, 174, 186,
      144, 39, 86, 147, 198, 45, 127, 100, 209, 209, 43, 176, 254, 186, 12, 110]

def sampleHost : RemoteHostInfo :=
  ⟨"linux", "x86_64", "/bin/sh", "/home/dev", none, .posix, "x86_64-unknown-linux-musl"⟩

def sampleHello (key root : String) : Hello := ⟨key, root, "/cache/files", some sampleHost⟩

def sampleConfig : RuntimeConfig := ⟨"nrm-agent", some "nrm-agent", 30000, 10⟩

def sampleRuntime : RemoteRuntime := ⟨true, 86400000, by decide⟩

def sampleOptions : ProcessOptions :=
  ⟨.argv ["make"], none, ⟨false, [], []⟩, none, none, none, none, none⟩

/-- A ticket for `make` at the root of a workspace. -/
def sampleTicket (key root : String) : RuntimeTicket where
  schemaVersion := 1
  workspaceKey := key
  remoteRoot := root
  ssh := some "host"
  agent := "nrm-agent"
  sshConnectTimeoutSeconds := 10
  requestTimeoutMs := 30000
  capability := .processPipeV1
  spec := ⟨["make"], .workspaceRoot, ⟨false, [], []⟩, .attached, none, none, some 4194304⟩
  remoteHost := some sampleHost

theorem detected_sampleHost : Detected false (.ssh ⟨"host", 10⟩) sampleHost := by
  have hprobe : parsePosixProbe ["NRM_HOST_INFO_V1", "Linux", "x86_64", "/home/dev", "/bin/sh"] =
      .ok sampleHost := by
    decide +kernel
  exact .posix hprobe

/-- The workspace `/srv/repo`. -/
theorem ticket_accepted_srv_repo :
    ticketFor (fun _ => "") sampleRuntime (sampleHello "740d8be53170511ff663a844" "/srv/repo")
        (reconnectArg ⟨some "host", "/srv/repo"⟩) none ⟨2, true, true⟩ sampleConfig sampleOptions =
      .ok (sampleTicket "740d8be53170511ff663a844" "/srv/repo") ∧
    (validateTicket sampleDigest false (sampleTicket "740d8be53170511ff663a844" "/srv/repo") =
      .ok () ↔ normalizeAbsolute "/srv/repo" .posix = .ok "/srv/repo") := by
  refine ⟨by decide +kernel, ?_⟩
  exact @ticket_accepted_iff sampleDigest false true id (fun _ => "") "/" "ssh://host/srv/repo"
    "/cache/files" 10
    ⟨some "host", "/srv/repo"⟩ sampleHost (.ssh ⟨"host", 10⟩)
    (sampleHello "740d8be53170511ff663a844" "/srv/repo")
    sampleRuntime none ⟨2, true, true⟩ sampleConfig sampleOptions
    (sampleTicket "740d8be53170511ff663a844" "/srv/repo") (fun _ h => h) (by decide +kernel)
    (by decide +kernel) (by decide +kernel) detected_sampleHost (by decide +kernel) (fun _ => rfl)

/-- The workspace `/srv/repo/`: the sidecar and the editor accept it, and the ticket carries the key
of `/srv/repo/` with the root `/srv/repo`. -/
theorem trailing_slash_rejected :
    parseTarget id "/" "ssh://host/srv/repo/" = .ok ⟨some "host", "/srv/repo/"⟩ ∧
    serve sampleDigest ⟨some "host", "/srv/repo/"⟩ (sidecarAgent sampleConfig ⟨some "host",
      "/srv/repo/"⟩)
        "/cache/files" 10 sampleHost true =
      .ok (.ssh ⟨"host", 10⟩, sampleHello "486d28459a1f1e1f683a7a51" "/srv/repo/") ∧
    Detected false (.ssh ⟨"host", 10⟩) sampleHost ∧
    ticketFor (fun _ => "") sampleRuntime (sampleHello "486d28459a1f1e1f683a7a51" "/srv/repo/")
        (reconnectArg ⟨some "host", "/srv/repo/"⟩) none ⟨2, true, true⟩ sampleConfig sampleOptions =
      .ok (sampleTicket "486d28459a1f1e1f683a7a51" "/srv/repo") ∧
    validateTicket sampleDigest false (sampleTicket "486d28459a1f1e1f683a7a51" "/srv/repo") =
      .error (.text "runtime ticket does not belong to the requested workspace") := by
  refine ⟨by decide +kernel, by decide +kernel,
    detected_sampleHost, by decide +kernel, by decide +kernel⟩

end RemoteMirror.Ticket
