/-
**Commands for a remote shell: every word arrives as it was.**

The sidecar sends a remote host one text, which the shell there splits into words, so each word is
quoted (`shell_quote`) before the words are joined.  While an agent is being installed, such a
command is itself a word of the command that guards it, and a second shell splits it there.

`shellWords` reads a text by the rules of a POSIX shell.  It has a result only where the text is one
command of plain words; an operator, an expansion, a comment, an assignment or a line break outside
quotes gives none, and so does a quote that is not closed.

Main definitions:

* `Posix.shellWords` — how a shell reads a text;
* `Posix.shellQuote`, `Posix.renderPosixScript`, `Posix.posixLspRemoteCommand`,
  `Posix.guardCommand`.

Main results:

* `Posix.split_shellQuote` — a quoted word is read back;
* `Posix.remote_words_arrive` — **the words of a command arrive, also through the guard**.
-/

import Mathlib

namespace RemoteMirror.Posix

/-! ### Reading -/

/-- Where the shell is: between words, in a word, or in quotes. -/
inductive Mode
  | between
  | plain
  | single
  | double

def apostrophe : Char := '\x27'

/-- What has a meaning of its own outside quotes. -/
def special : List Char := "|&;<>()$`*?[]#~=%!\x7b\x7d\n\x00".toList

/-- What the shell makes of a text; `word` is what it has read of the current word. -/
def split : Mode → List Char → List Char → Option (List (List Char))
  | .between, _, [] => some []
  | .plain, word, [] => some [word]
  | _, _, [] => none
  | .single, word, c :: rest =>
    if c = '\x00' then none
    else if c = apostrophe then split .plain word rest
    else split .single (word ++ [c]) rest
  | .double, word, '\\' :: c :: rest =>
    if c = '\n' then split .double word rest
    else if c ∈ "$`\"\\".toList then split .double (word ++ [c]) rest
    else split .double (word ++ ['\\', c]) rest
  | .double, word, c :: rest =>
    if c ∈ "$`\\\x00".toList then none
    else if c = '\x22' then split .plain word rest
    else split .double (word ++ [c]) rest
  | mode, word, '\\' :: '\n' :: rest => split mode word rest
  | _, word, '\\' :: c :: rest => if c = '\x00' then none else split .plain (word ++ [c]) rest
  | mode, word, c :: rest =>
    if c ∈ " \t".toList then
      match mode with
      | .between => split .between [] rest
      | _ => (split .between [] rest).map (word :: ·)
    else if c = apostrophe then split .single word rest
    else if c = '\x22' then split .double word rest
    else if c = '\\' ∨ c ∈ special then none
    else split .plain (word ++ [c]) rest

/-- **The words of a command.** -/
def shellWords (text : List Char) : Option (List (List Char)) := split .between [] text

/-! ### Writing -/

/-- A character between apostrophes. -/
def escape (c : Char) : List Char :=
  if c = apostrophe then [apostrophe, '\\', apostrophe, apostrophe] else [c]

/-- `shell_quote` of `agent_install.rs` -/
def shellQuote (value : List Char) : List Char :=
  [apostrophe] ++ value.flatMap escape ++ [apostrophe]

/-- `shell_quote` of `main.rs` -/
def lspShellQuote (value : List Char) : List Char :=
  if value.isEmpty then [apostrophe, apostrophe]
  else (value.foldl (fun quoted c => quoted ++ escape c) [apostrophe]) ++ [apostrophe]

def renderPosixScript (name script : List Char) (args : List (List Char)) : List Char :=
  [' '].intercalate ([shellQuote "sh".toList, shellQuote "-c".toList, shellQuote script,
    shellQuote name] ++
    args.map shellQuote)

def posixLspRemoteCommand (remoteRoot : List Char) (command : List (List Char)) : List Char :=
  [' '].intercalate ([lspShellQuote "sh".toList, lspShellQuote "-lc".toList,
    lspShellQuote "cd \"$1\" && shift && exec \"$@\"".toList, lspShellQuote "nrm-lsp-proxy".toList,
    lspShellQuote remoteRoot] ++ command.map lspShellQuote)

/-- `guard_command`; the text of the script and the token of the guard are given. -/
def guardCommand (script target : List Char) (leaseToken : Option (List Char))
    (guardToken command : List Char) : List Char :=
  match leaseToken with
  | none => command
  | some token =>
    renderPosixScript "nrm-agent-install-operation".toList script [target, token,
      guardToken, command]

/-! ### Reading what was written -/

variable {word rest : List Char} {words : List (List Char)}

theorem lspShellQuote_eq : lspShellQuote = shellQuote := by
  funext value
  cases value with
  | nil => rfl
  | cons c value =>
    rw [lspShellQuote, if_neg (by simp), List.foldl_append_eq_append, ← List.flatMap_def]
    rfl

/-- Between apostrophes every character but NUL stands for itself. -/
theorem split_escape {value : List Char} (word rest : List Char) (no_nul : '\x00' ∉ value) :
    split .single word (value.flatMap escape ++ apostrophe :: rest) =
      split .plain (word ++ value) rest := by
  induction value generalizing word with
  | nil => simp [split, apostrophe]
  | cons c value ih =>
    rw [List.mem_cons, not_or] at no_nul
    have more := ih (word ++ [c]) no_nul.2
    rw [List.append_assoc, List.singleton_append] at more
    rw [List.flatMap_cons, escape]
    split
    · -- the apostrophe stands alone, outside
      subst c
      simpa [split, apostrophe] using more
    · rename_i other
      simp [split, other, Ne.symm no_nul.1, more]

/-- **A quoted word is read back.** -/
theorem split_shellQuote (rest : List Char) (no_nul : '\x00' ∉ word) :
    split .between [] (shellQuote word ++ rest) = split .plain word rest := by
  have opens : split .between [] (shellQuote word ++ rest) =
      split .single [] (word.flatMap escape ++ apostrophe :: rest) := by
    simp [shellQuote, split, apostrophe]
  rw [opens, split_escape _ _ no_nul, List.nil_append]

theorem shellWords_join (no_nul : ∀ word ∈ words, '\x00' ∉ word) :
    shellWords ([' '].intercalate (words.map shellQuote)) = some words := by
  induction words with
  | nil => rfl
  | cons word words ih =>
    obtain ⟨first, others⟩ := List.forall_mem_cons.mp no_nul
    cases words with
    | nil => simpa [shellWords, split] using split_shellQuote [] first
    | cons next words =>
      have read : split .between [] _ = _ := ih others
      rw [List.map_cons, List.map_cons, List.intercalate_cons_cons, ← List.map_cons, shellWords,
        List.append_assoc, split_shellQuote _ first]
      simp [split, -List.map_cons, read]

theorem nul_not_mem_join (no_nul : ∀ word ∈ words, '\x00' ∉ word) :
    '\x00' ∉ [' '].intercalate (words.map shellQuote) := by
  induction words with
  | nil => simp
  | cons word words ih =>
    obtain ⟨first, others⟩ := List.forall_mem_cons.mp no_nul
    have quoted : '\x00' ∉ shellQuote word := by
      suffices '\x00' ∉ word.flatMap escape by simpa [shellQuote, apostrophe] using this
      intro mem
      obtain ⟨c, inside, escaped⟩ := List.mem_flatMap.mp mem
      rw [escape] at escaped
      split at escaped
      · simp [apostrophe] at escaped
      · exact first (List.mem_singleton.mp escaped ▸ inside)
    cases words with
    | nil => simpa using quoted
    | cons next words =>
      rw [List.map_cons, List.map_cons, List.intercalate_cons_cons, ← List.map_cons]
      simp [quoted, ih others, -List.map_cons]

/-- The words of a script with its arguments, -/
def scriptWords (name script : List Char) (args : List (List Char)) : List (List Char) :=
  "sh".toList :: "-c".toList :: script :: name :: args

/-- and those of a language server that starts in a directory. -/
def lspWords (remoteRoot : List Char) (command : List (List Char)) : List (List Char) :=
  "sh".toList :: "-lc".toList :: "cd \"$1\" && shift && exec \"$@\"".toList ::
    "nrm-lsp-proxy".toList :: remoteRoot ::
    command

theorem nul_not_mem_scriptWords {name script : List Char} (h : '\x00' ∉ name ∧ '\x00' ∉ script)
    (no_nul : ∀ word ∈ words, '\x00' ∉ word) :
    ∀ word ∈ scriptWords name script words, '\x00' ∉ word := by
  simp only [scriptWords, List.forall_mem_cons]
  exact ⟨by decide, by decide, h.2, h.1, no_nul⟩

/-- **The words of a command arrive at the shell**, and a command that is handed to the install
guard as a word arrives there as it was, to be split by a second shell. -/
theorem remote_words_arrive (name script remoteRoot guardScript target token guardToken : List Char)
    (args command : List (List Char))
    (no_nul : ∀ word ∈ [name, script, remoteRoot, guardScript, target, token, guardToken] ++
      args ++ command, '\x00' ∉ word) :
    shellWords (renderPosixScript name script args) = some (scriptWords name script args) ∧
      shellWords (posixLspRemoteCommand remoteRoot command) = some (lspWords remoteRoot command) ∧
      shellWords (guardCommand guardScript target (some token) guardToken
        (renderPosixScript name script args)) =
        some (scriptWords "nrm-agent-install-operation".toList guardScript
          [target, token, guardToken, renderPosixScript name script args]) := by
  simp only [List.forall_mem_append, List.forall_mem_cons] at no_nul
  obtain ⟨⟨⟨name_plain, script_plain, root_plain, guard_plain, target_plain, token_plain,
    guard_token_plain, -⟩,
    args_plain⟩, command_plain⟩ := no_nul
  have inner := nul_not_mem_scriptWords ⟨name_plain, script_plain⟩ args_plain
  have lsp : ∀ word ∈ lspWords remoteRoot command, '\x00' ∉ word := by
    simp only [lspWords, List.forall_mem_cons]
    exact ⟨by decide, by decide, by decide, by decide, root_plain, command_plain⟩
  refine ⟨shellWords_join inner, ?_,
    shellWords_join (nul_not_mem_scriptWords ⟨by decide, guard_plain⟩ ?_)⟩
  · rw [posixLspRemoteCommand, lspShellQuote_eq]
    exact shellWords_join lsp
  · -- the inner command is a word without NUL itself
    simp only [List.forall_mem_cons]
    exact ⟨target_plain, token_plain, guard_token_plain, nul_not_mem_join inner, nofun⟩

theorem remote_words_arrive_quoted :
    shellWords (renderPosixScript "n".toList "echo \"$1\"".toList ["it\x27s; $(rm *)\n".toList,
      []]) =
      some ["sh".toList, "-c".toList, "echo \"$1\"".toList, "n".toList,
        "it\x27s; $(rm *)\n".toList, []] :=
  (remote_words_arrive "n".toList "echo \"$1\"".toList [] [] [] [] [] ["it\x27s; $(rm *)\n".toList,
    []] []
    (by decide)).1

end RemoteMirror.Posix
