/-
**Command lines on Windows: every argument arrives as it was.**

A process on Windows is started with one text, and the runtime of the new process splits it into
arguments (`argv`).  There a run of backslashes is literal, except before a quote, where two of them
stand for one; blanks and tabs separate arguments outside quotes, and the program's name has no
escapes at all.

The agent builds such a line from UTF-16 units (`append_quoted_argument`), the sidecar from
characters (`windows_quote_argument`).  Both are `quoteArgument`, over their own alphabet.

Main definitions:

* `Windows.argv` — how a process reads its command line;
* `Windows.nativeCommandLine`, `Windows.powershellCommandLine` — the lines of the agent and of the
  sidecar.

Main results:

* `Windows.splitArguments_quoteArgument` — a quoted argument is read back;
* `Windows.utf16_quoteArgument` — the two sides quote alike;
* `Windows.arguments_arrive` — **the arguments arrive, from either side**.
-/

import RemoteMirror.RuntimeMessage

namespace RemoteMirror.Windows

open Checks (rejectIf forEach forEach_eq_ok bind_eq_ok)

/-! ### Reading -/

/-- What has a meaning of its own in a command line, in an alphabet `α`. -/
structure Marks (α : Type) where
  blank : α
  tab : α
  quote : α
  backslash : α

def units : Marks UInt16 := ⟨0x20, 0x09, 0x22, 0x5c⟩

def chars : Marks Char := ⟨' ', '\t', '\x22', '\\'⟩

/-- Outside quotes, inside, or right behind a quote that closed them. -/
inductive Mode
  | plain
  | quoted
  | closed
  deriving DecidableEq

/-- The mode once another unit is read. -/
def Mode.settled : Mode → Mode
  | .plain | .closed => .plain
  | .quoted => .quoted

/-- The arguments behind the program's name; `word` is what was read of the current one, which ends
in `n` backslashes. -/
def splitArguments : Mode → ℕ → Option (List UInt16) → List UInt16 → List (List UInt16)
  | _, _, word, [] => word.toList
  | mode, n, word, c :: rest =>
    let read := word.getD []
    if c = units.backslash then splitArguments mode.settled (n + 1) (some (read ++ [c])) rest
    else if c = units.quote then
      -- before a quote two backslashes are one
      let read := read.take (read.length - (n - n / 2))
      if n % 2 = 1 then splitArguments mode.settled 0 (some (read ++ [c])) rest
      else
        match mode with
        | .plain => splitArguments .quoted 0 (some read) rest
        | .quoted => splitArguments .closed 0 (some read) rest
        -- two quotes in quotes are one literal quote
        | .closed => splitArguments .quoted 0 (some (read ++ [c])) rest
    else if (c = units.blank ∨ c = units.tab) ∧ mode ≠ .quoted then word.toList ++
        splitArguments .plain 0 none rest
    else splitArguments mode.settled 0 (some (read ++ [c])) rest

/-- The program's name, and what follows it. -/
def splitProgram : Bool → List UInt16 → List UInt16 → List UInt16 × List UInt16
  | _, name, [] => (name, [])
  | inQuotes, name, c :: rest =>
    if c = units.quote then splitProgram (!inQuotes) name rest
    else if inQuotes = false ∧ (c = units.blank ∨ c = units.tab) then (name, rest)
    else splitProgram inQuotes (name ++ [c]) rest

/-- **How a process reads its command line**, which ends at the first NUL. -/
def argv (line : List UInt16) : List (List UInt16) :=
  let (program, rest) := splitProgram false [] (line.takeWhile (· ≠ 0))
  program :: splitArguments .plain 0 none rest

/-! ### Writing -/

section Quoting

variable {α : Type} [DecidableEq α] (marks : Marks α)

/-- The loop of both implementations, with the closing quote; `backslashes` are held back. -/
def quoteLoop : List α → ℕ → List α
  | [], backslashes => List.replicate (backslashes * 2) marks.backslash ++ [marks.quote]
  | c :: rest, backslashes =>
    if c = marks.backslash then quoteLoop rest (backslashes + 1)
    else if c = marks.quote then
      List.replicate (backslashes * 2 + 1) marks.backslash ++ c :: quoteLoop rest 0
    else List.replicate backslashes marks.backslash ++ c :: quoteLoop rest 0

def NeedsQuotes (argument : List α) : Prop :=
  argument = [] ∨ marks.blank ∈ argument ∨ marks.tab ∈ argument ∨ marks.quote ∈ argument

instance (argument : List α) : Decidable (NeedsQuotes marks argument) := by
  unfold NeedsQuotes
  infer_instance

def quoteArgument (argument : List α) : List α :=
  if NeedsQuotes marks argument then marks.quote :: quoteLoop marks argument 0 else argument

end Quoting

/-- The error of `PtyError` that quoting has. -/
inductive PtyError
  | embeddedNul (field : String)
  deriving DecidableEq

def appendQuotedArgument (output argument : List UInt16) (field : String) :
    Except PtyError (List UInt16) :=
  if 0 ∈ argument then .error (.embeddedNul field) else .ok (output ++ quoteArgument units argument)

def nativeCommandLine (program : List UInt16) (arguments : List (List UInt16)) :
    Except PtyError (List UInt16) := do
  let line ← appendQuotedArgument [] program "program"
  let line ← arguments.foldlM (fun line argument => appendQuotedArgument (line ++ [units.blank])
    argument "argument")
    line
  pure (line ++ [0])

def windowsQuoteArgument (argument : List Char) : List Char := quoteArgument chars argument

def windowsJoinArguments (args : List (List Char)) : List Char :=
  [' '].intercalate (args.map windowsQuoteArgument)

def rejectProcessField (name : String) (value : List Char) : Except String Unit :=
  rejectIf (value.isEmpty || value.any Runtime.isControl)
    s!"PowerShell process {name} must not be empty or contain control characters"

def rejectProcessArgument (value : List Char) : Except String Unit :=
  rejectIf (value.any Runtime.isControl)
    "PowerShell process argument must not contain control characters"

/-- The `command_line` of `powershell_process_command_inner`. -/
def powershellCommandLine (program : List Char) (args : List (List Char)) :
    Except String (List Char) := do
  rejectProcessField "program" program
  forEach rejectProcessArgument args
  pure (windowsJoinArguments (program :: args))

/-- `str::encode_utf16` -/
def utf16 (text : List Char) : List UInt16 :=
  text.flatMap fun c =>
    if c.toNat < 0x10000 then [UInt16.ofNat c.toNat]
    else [UInt16.ofNat (0xd800 + (c.toNat - 0x10000) / 0x400),
      UInt16.ofNat (0xdc00 + (c.toNat - 0x10000) % 0x400)]

/-! ### Reading what was written -/

section Units

variable {n k : ℕ} {word : Option (List UInt16)} {argument rest : List UInt16}

/-- What may follow an argument: the end of the line, or the blank before the next one. -/
def Ends (rest : List UInt16) : Prop := rest = [] ∨ ∃ others, rest = units.blank :: others

def slashes (n : ℕ) : List UInt16 := List.replicate n units.backslash

variable {read us : List UInt16}

theorem splitArguments_slashes :
    splitArguments .quoted n (some read) (List.replicate k units.backslash ++ us ++ rest) =
      splitArguments .quoted (n + k) (some (read ++ slashes k)) (us ++ rest) := by
  induction k generalizing n read with
  | zero => simp [slashes]
  | succ k ih =>
    rw [List.replicate_succ, List.cons_append, List.cons_append, splitArguments, if_pos rfl]
    exact ih.trans (by simp [slashes, Nat.add_right_comm, Nat.add_assoc, List.replicate_succ])

theorem take_slashes (h : k / 2 = n) :
    (read ++ slashes k).take ((read ++ slashes k).length - (k - k / 2)) = read ++ slashes n := by
  have kept : read.length + k - (k - k / 2) = read.length + n := by omega
  rw [slashes, List.length_append, List.length_replicate, kept, List.take_length_add_append,
    List.take_replicate, Nat.min_eq_left (by omega), slashes]

/-- The loop's invariant: what it holds back was read, but is not written yet. -/
theorem splitArguments_quoteLoop (read : List UInt16) :
    splitArguments .quoted 0 (some read) (quoteLoop units argument n ++ rest) =
      splitArguments .closed 0 (some (read ++ slashes n ++ argument)) rest := by
  induction argument generalizing n read with
  | nil =>
    rw [quoteLoop, splitArguments_slashes, List.singleton_append, splitArguments,
      if_neg (by decide), if_pos rfl, if_neg (by omega), Nat.zero_add, Option.getD_some,
      take_slashes (n := n) (by omega), List.append_nil]
  | cons c argument ih =>
    rw [quoteLoop]
    split
    · subst c
      rw [ih, slashes, List.replicate_succ']
      simp [slashes]
    · rename_i other
      split
      · subst c
        rw [splitArguments_slashes, List.cons_append, splitArguments, if_neg other, if_pos rfl,
          if_pos (by omega), Nat.zero_add, Option.getD_some, take_slashes (n := n) (by omega),
          Mode.settled, ih]
        simp [slashes]
      · rename_i plain
        rw [splitArguments_slashes, List.cons_append, splitArguments, if_neg other, if_neg plain,
          if_neg (fun h => h.2 rfl), Mode.settled, ih]
        simp [slashes]

theorem splitArguments_plain (hword : argument ≠ [] ∨ word ≠ none)
    (hargument : units.blank ∉ argument ∧ units.tab ∉ argument ∧ units.quote ∉ argument)
    (hrest : Ends rest) : splitArguments .plain n word (argument ++ rest) =
      (word.getD [] ++ argument) :: splitArguments .plain 0 none (rest.drop 1) := by
  induction argument generalizing n word with
  | nil =>
    obtain ⟨read, rfl⟩ := Option.ne_none_iff_exists'.mp (hword.resolve_left (· rfl))
    obtain rfl | ⟨others, rfl⟩ := hrest <;> simp [splitArguments, units]
  | cons c argument ih =>
    simp only [List.mem_cons, not_or] at hargument
    obtain ⟨⟨blank, hblank⟩, ⟨tab, htab⟩, quote, hquote⟩ := hargument
    have more (n : ℕ) :=
      @ih n (some (word.getD [] ++ [c])) (.inr (Option.some_ne_none _)) ⟨hblank, htab, hquote⟩
    rw [Option.getD_some, List.append_assoc, List.singleton_append] at more
    rw [List.cons_append, splitArguments.eq_def]
    simp [Ne.symm quote, Ne.symm blank, Ne.symm tab, Mode.settled, more]

/-- **A quoted argument is read back.** -/
theorem splitArguments_quoteArgument (hrest : Ends rest) :
    splitArguments .plain 0 none (quoteArgument units argument ++ rest) =
      argument :: splitArguments .plain 0 none (rest.drop 1) := by
  rw [quoteArgument]
  split
  · have opens : splitArguments .plain 0 none (units.quote :: quoteLoop units argument 0 ++ rest) =
        splitArguments .quoted 0 (some []) (quoteLoop units argument 0 ++ rest) := by
      simp [splitArguments, units]
    rw [opens, splitArguments_quoteLoop]
    obtain rfl | ⟨others, rfl⟩ := hrest <;> simp [splitArguments, units, slashes]
  · rename_i plain
    simp only [NeedsQuotes, not_or] at plain
    rw [splitArguments_plain (.inl plain.1) plain.2 hrest]
    rfl

/-- The arguments behind the program, each with the blank before it. -/
def tail (arguments : List (List UInt16)) : List UInt16 :=
  arguments.flatMap fun argument => units.blank :: quoteArgument units argument

variable {arguments : List (List UInt16)} {program : List UInt16}

theorem ends_tail : Ends (tail arguments) := by
  cases arguments with
  | nil => exact .inl rfl
  | cons argument arguments => exact .inr ⟨_, rfl⟩

theorem splitArguments_tail :
    splitArguments .plain 0 none ((tail arguments).drop 1) = arguments := by
  induction arguments with
  | nil => rfl
  | cons argument arguments ih =>
    have first : (tail (argument :: arguments)).drop 1 = quoteArgument units argument ++
      tail arguments := rfl
    rw [first, splitArguments_quoteArgument ends_tail, ih]

/-- A name that needs no escapes has none. -/
theorem quoteLoop_program (no_quote : units.quote ∉ program)
    (hlast : (slashes n ++ program).getLast? ≠ some units.backslash) :
    quoteLoop units program n = slashes n ++ program ++ [units.quote] := by
  induction program generalizing n with
  | nil =>
    cases n with
    | zero => rfl
    | succ n => simp [slashes, List.replicate_succ'] at hlast
  | cons c program ih =>
    rw [List.mem_cons, not_or] at no_quote
    rw [quoteLoop]
    split
    · subst c
      rw [ih no_quote.2] <;> simp_all [slashes, List.replicate_succ']
    · rw [if_neg (Ne.symm no_quote.1), ih no_quote.2]
      · simp [slashes]
      · cases program with
        | nil => simp [slashes]
        | cons d program =>
          simpa [slashes, List.getLast?_append, List.getLast?_cons_cons] using hlast

theorem splitProgram_plain {inQuotes : Bool} (name : List UInt16) (no_quote : units.quote ∉ program)
    (h : inQuotes = true ∨ units.blank ∉ program ∧ units.tab ∉ program) :
    splitProgram inQuotes name (program ++ rest) =
      splitProgram inQuotes (name ++ program) rest := by
  induction program generalizing name with
  | nil => simp
  | cons c program ih =>
    rw [List.mem_cons, not_or] at no_quote
    rw [List.cons_append, splitProgram, if_neg (Ne.symm no_quote.1), if_neg, ih _ no_quote.2]
    · simp
    · exact h.imp_right fun h => ⟨fun mem => h.1 (.tail _ mem), fun mem => h.2 (.tail _ mem)⟩
    · rintro ⟨rfl, rfl | rfl⟩ <;> simp at h

theorem splitProgram_quoteArgument (no_quote : units.quote ∉ program)
    (hlast : program.getLast? ≠ some units.backslash) (hrest : Ends rest) :
    splitProgram false [] (quoteArgument units program ++ rest) = (program, rest.drop 1) := by
  rw [quoteArgument]
  split
  · rw [@quoteLoop_program 0 _ no_quote hlast, List.cons_append, splitProgram, if_pos rfl,
      List.append_assoc, List.append_assoc, slashes, List.replicate_zero, List.nil_append,
      Bool.not_false, splitProgram_plain _ no_quote (.inl rfl)]
    obtain rfl | ⟨others, rfl⟩ := hrest <;> simp [splitProgram, units]
  · rename_i plain
    simp only [NeedsQuotes, not_or] at plain
    rw [splitProgram_plain _ no_quote (.inr ⟨plain.2.1, plain.2.2.1⟩)]
    obtain rfl | ⟨others, rfl⟩ := hrest <;> simp [splitProgram, units]

theorem nul_not_mem_quoteLoop (h : 0 ∉ argument) : 0 ∉ quoteLoop units argument n := by
  induction argument generalizing n with
  | nil => simp [quoteLoop, units]
  | cons c argument ih =>
    rw [quoteLoop]
    split_ifs <;> simp_all [units]

theorem nul_not_mem_quoteArgument (h : 0 ∉ argument) : 0 ∉ quoteArgument units argument := by
  rw [quoteArgument]
  split
  · exact List.not_mem_cons_of_ne_of_not_mem (by decide) (nul_not_mem_quoteLoop h)
  · exact h

theorem nul_not_mem_tail (h : ∀ argument ∈ arguments, 0 ∉ argument) : 0 ∉ tail arguments := by
  simp only [tail, List.mem_flatMap, List.mem_cons, not_exists, not_and, not_or]
  exact fun argument mem => ⟨by decide, nul_not_mem_quoteArgument (h argument mem)⟩

/-- A line of quoted arguments is read back. -/
theorem argv_line (no_quote : units.quote ∉ program)
    (hlast : program.getLast? ≠ some units.backslash)
    (no_nul : ∀ argument ∈ program :: arguments, 0 ∉ argument) (hrest : rest = [] ∨ rest = [0]) :
    argv (quoteArgument units program ++ tail arguments ++ rest) = program :: arguments := by
  rw [List.forall_mem_cons] at no_nul
  have free : 0 ∉ quoteArgument units program ++ tail arguments := by
    simp [nul_not_mem_quoteArgument no_nul.1, nul_not_mem_tail no_nul.2]
  have line : (quoteArgument units program ++ tail arguments ++ rest).takeWhile (· ≠ 0) =
      quoteArgument units program ++ tail arguments := by
    rw [List.takeWhile_append_of_pos fun c mem => by simpa using ne_of_mem_of_not_mem mem free]
    obtain rfl | rfl := hrest <;> simp
  rw [argv, line, splitProgram_quoteArgument no_quote hlast ends_tail]
  exact congrArg _ splitArguments_tail

variable {line : List UInt16}

theorem appendQuotedArgument_eq_ok {output : List UInt16} {field : String} :
    appendQuotedArgument output argument field = .ok line ↔ 0 ∉ argument ∧ line = output ++
      quoteArgument units argument := by
  rw [appendQuotedArgument]
  split_ifs with h <;> simp [h, eq_comm]

theorem foldlM_eq_ok {start : List UInt16} :
    arguments.foldlM (fun line argument => appendQuotedArgument (line ++ [units.blank]) argument
      "argument") start =
      .ok line ↔ (∀ argument ∈ arguments, 0 ∉ argument) ∧ line = start ++ tail arguments := by
  induction arguments generalizing start with
  | nil => simp [tail, eq_comm]
  | cons argument arguments ih =>
    simp only [List.foldlM_cons, bind_eq_ok, appendQuotedArgument_eq_ok, ih, List.forall_mem_cons,
      and_assoc, exists_and_left, exists_eq_left]
    simp [tail]

theorem nativeCommandLine_eq_ok : nativeCommandLine program arguments = .ok line ↔
      (∀ argument ∈ program :: arguments, 0 ∉ argument) ∧
        line = quoteArgument units program ++ tail arguments ++ [0] := by
  simp only [nativeCommandLine, bind_eq_ok, appendQuotedArgument_eq_ok, foldlM_eq_ok,
    List.forall_mem_cons, and_assoc, exists_and_left, exists_eq_left]
  simp [eq_comm]

end Units

/-! ### The two sides agree -/

section Chars

variable {s : Char} {text : List Char} {n : ℕ}

theorem utf16_append (a b : List Char) : utf16 (a ++ b) = utf16 a ++ utf16 b := List.flatMap_append

theorem utf16_cons (c : Char) (text : List Char) : utf16 (c :: text) = utf16 [c] ++ utf16 text :=
  utf16_append [c] text

/-- A unit below the surrogates belongs to one character only. -/
theorem mem_utf16 (hs : s.toNat < 0xd800) : UInt16.ofNat s.toNat ∈ utf16 text ↔ s ∈ text := by
  have one (c : Char) : UInt16.ofNat s.toNat ∈ utf16 [c] ↔ s = c := by
    have hc : c.toNat < 0x110000 := by
      have := c.valid
      simp only [UInt32.isValidChar, Nat.isValidChar] at this
      change c.val.toNat < _
      omega
    rw [← Char.toNat_inj]
    simp only [utf16, List.flatMap_singleton]
    split <;> simp only [List.mem_cons, List.not_mem_nil, or_false, ← UInt16.toNat_inj,
      UInt16.toNat_ofNat'] <;> omega
  induction text with
  | nil => simp [utf16]
  | cons c text ih =>
    rw [utf16_cons, List.mem_append, List.mem_cons]
    exact or_congr (one c) ih

theorem utf16_singleton_ne_nil (c : Char) : utf16 [c] ≠ [] := by
  simp only [utf16, List.flatMap_singleton]
  split <;> simp

theorem quoteLoop_ordinary {us rest : List UInt16} (hne : us ≠ []) (hslash : units.backslash ∉ us)
    (hquote : units.quote ∉ us) :
    quoteLoop units (us ++ rest) n = slashes n ++ us ++ quoteLoop units rest 0 := by
  induction us generalizing n with
  | nil => contradiction
  | cons c us ih =>
    rw [List.mem_cons, not_or] at hslash hquote
    rw [List.cons_append, quoteLoop, if_neg (Ne.symm hslash.1), if_neg (Ne.symm hquote.1)]
    cases us with
    | nil => simp [slashes]
    | cons d us => rw [ih (List.cons_ne_nil _ _) hslash.2 hquote.2]; simp [slashes]

theorem utf16_slashes (n : ℕ) : utf16 (List.replicate n chars.backslash ++ text) =
    slashes n ++ utf16 text := by
  induction n with
  | zero => rfl
  | succ n ih => exact congrArg (units.backslash :: ·) ih

theorem utf16_quoteLoop : utf16 (quoteLoop chars text n) = quoteLoop units (utf16 text) n := by
  induction text generalizing n with
  | nil => exact utf16_slashes _
  | cons c text ih =>
    rw [quoteLoop, utf16_cons]
    split
    · subst c
      exact ih
    · rename_i slash
      split
      · subst c
        rw [utf16_slashes, utf16_cons, ih]
        rfl
      · rename_i quote
        rw [utf16_slashes, utf16_cons, ih, quoteLoop_ordinary, List.append_assoc]
        · exact utf16_singleton_ne_nil c
        · exact fun mem => slash
            (List.mem_singleton.mp ((mem_utf16 (s := '\\') (by decide)).mp mem)).symm
        · exact fun mem => quote
            (List.mem_singleton.mp ((mem_utf16 (s := '\x22') (by decide)).mp mem)).symm

/-- **The two sides quote alike.** -/
theorem utf16_quoteArgument (text : List Char) :
    utf16 (windowsQuoteArgument text) = quoteArgument units (utf16 text) := by
  have needs : NeedsQuotes units (utf16 text) ↔ NeedsQuotes chars text := by
    refine or_congr ?_ (or_congr (mem_utf16 (s := ' ') (by decide))
      (or_congr (mem_utf16 (s := '\t') (by decide)) (mem_utf16 (s := '\x22') (by decide))))
    cases text with
    | nil => simp [utf16]
    | cons c text => simp [utf16_cons c text, utf16_singleton_ne_nil c]
  simp only [windowsQuoteArgument, quoteArgument, needs]
  split
  · exact (utf16_append [_] _).trans (congrArg _ utf16_quoteLoop)
  · rfl

theorem utf16_windowsJoinArguments (program : List Char) (args : List (List Char)) :
    utf16 (windowsJoinArguments (program :: args)) =
      quoteArgument units (utf16 program) ++ tail (args.map utf16) := by
  induction args generalizing program with
  | nil => simp [windowsJoinArguments, tail, utf16_quoteArgument]
  | cons arg args ih =>
    have := ih arg
    rw [windowsJoinArguments, List.map_cons] at this
    rw [windowsJoinArguments, List.map_cons, List.map_cons, List.intercalate_cons_cons,
      utf16_append, utf16_append, utf16_quoteArgument, this]
    simp [tail, utf16, units]

theorem getLast?_utf16 (hlast : text.getLast? ≠ some '\\') :
    (utf16 text).getLast? ≠ some units.backslash := by
  obtain rfl | ⟨before, c, rfl⟩ := text.eq_nil_or_concat'
  · simp [utf16]
  · intro h
    rw [utf16_append, List.getLast?_append_of_ne_nil _ (utf16_singleton_ne_nil c)] at h
    obtain rfl :=
      List.mem_singleton.mp ((mem_utf16 (s := '\\') (by decide)).mp (List.mem_of_getLast? h))
    exact hlast (by simp)

theorem powershellCommandLine_eq_ok {program line : List Char} {args : List (List Char)} :
    powershellCommandLine program args = .ok line ↔
      (program ≠ [] ∧ ∀ arg ∈ program :: args, ∀ c ∈ arg, Runtime.isControl c = false) ∧
        line = windowsJoinArguments (program :: args) := by
  simp [powershellCommandLine, rejectProcessField, rejectProcessArgument, forEach_eq_ok, and_assoc,
    @eq_comm _ line]

end Chars

/-- **The arguments arrive, from either side**: a line is built if no argument has a NUL (on the
sidecar's side, if no argument has a control character and there is a program), and it is split into
what it was built from; and the two sides quote every argument alike. -/
theorem arguments_arrive :
    (∀ program arguments, units.quote ∉ program → program.getLast? ≠ some units.backslash →
      ((∃ line, nativeCommandLine program arguments = .ok line) ↔ ∀ argument ∈ program :: arguments,
        0 ∉ argument) ∧
      ∀ line, nativeCommandLine program arguments = .ok line → argv line = program :: arguments) ∧
    (∀ program args, chars.quote ∉ program → program.getLast? ≠ some chars.backslash →
      ((∃ line, powershellCommandLine program args = .ok line) ↔
        program ≠ [] ∧ ∀ arg ∈ program :: args, ∀ c ∈ arg, Runtime.isControl c = false) ∧
      ∀ line, powershellCommandLine program args = .ok line → argv (utf16 line) =
        (program :: args).map utf16) ∧
    ∀ output argument field, appendQuotedArgument output (utf16 argument) field =
      if '\x00' ∈ argument then .error (.embeddedNul field)
      else .ok (output ++ utf16 (windowsQuoteArgument argument)) := by
  have nul {text : List Char} : 0 ∈ utf16 text ↔ '\x00' ∈ text :=
    mem_utf16 (s := '\x00') (by decide)
  refine ⟨fun program arguments no_quote hlast => ⟨?_, fun line built => ?_⟩,
    fun program args no_quote hlast => ⟨?_, fun line built => ?_⟩, fun output text field => ?_⟩
  · simp only [nativeCommandLine_eq_ok, exists_and_left, exists_eq, and_true]
  · obtain ⟨no_nul, rfl⟩ := nativeCommandLine_eq_ok.mp built
    exact argv_line no_quote hlast no_nul (.inr rfl)
  · simp only [powershellCommandLine_eq_ok, exists_and_left, exists_eq, and_true]
  · obtain ⟨⟨-, no_control⟩, rfl⟩ := powershellCommandLine_eq_ok.mp built
    have no_nul : ∀ argument ∈ utf16 program :: args.map utf16, 0 ∉ argument := by
      rw [← List.map_cons, List.forall_mem_map]
      exact fun arg mem h => absurd (no_control arg mem _ (nul.mp h)) (by decide)
    rw [utf16_windowsJoinArguments, ← List.append_nil (_ ++ _)]
    exact argv_line (mt (mem_utf16 (s := '\x22') (by decide)).mp no_quote) (getLast?_utf16 hlast)
      no_nul (.inl rfl)
  · rw [appendQuotedArgument, utf16_quoteArgument]
    exact if_congr nul rfl rfl

theorem arguments_arrive_backslashes :
    argv [0x22, 0x61, 0x20, 0x22, 0x20, 0x22, 0x5c, 0x5c, 0x5c, 0x22, 0x22, 0x20, 0x22, 0x22, 0x20,
      0x22, 0x20, 0x5c, 0x5c, 0x22, 0x00] = [[0x61, 0x20], [0x5c, 0x22], [], [0x20, 0x5c]] :=
  (arguments_arrive.1 [0x61, 0x20] [[0x5c, 0x22], [], [0x20, 0x5c]] (by decide) (by decide)).2 _
    (by decide +kernel)

end RemoteMirror.Windows
