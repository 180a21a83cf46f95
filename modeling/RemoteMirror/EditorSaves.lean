/-
**Saves in the editor, and the ones that are deferred.**

`lua/nvim_remote_mirror/init.lua` sends a save to the sidecar and goes on; the answer arrives later,
or a timer fires, or the connection breaks.  A save that fails is recorded in `deferred_flushes`
under its path and workspace, and tried again after the next connect; a save that succeeds removes
the record.

Several saves of one file can be under way at once, and the record does not say which of them it is
for. So an older save that succeeds late removes the record of a newer one that has already failed.
Apart from that no failed save is forgotten, whatever the order of commands, answers, timeouts and
disconnects.

The answers of the sidecar, the outcome of sending and the changes of buffers are events.  A save
command comes with the arguments `flush_buffer` passes on.  The texts that name a workspace contain
no unit separator.  `saves` is for the statement only: all saves that were sent, in order, with
their answers.

Main definitions:

* `Editor.State`, `Editor.Event`, `Editor.step` — the plugin;
* `Editor.markDeferredFlush`, `Editor.clearDeferredFlush`,
  `Editor.flushRemotePath`, `Editor.flushDeferred`,
  `Editor.failPending`, `Editor.failSidecarSend` — its functions;
* `Editor.inOrder` — no save succeeds after a later one of the same file has failed.

Main results:

* `Editor.deferredFlushKey_injective` — a record belongs to one path and workspace;
* `Editor.deferred_flush_recorded` — **in every run in order, a failed save is recorded until
  a later one succeeds**.
-/

import Mathlib

namespace RemoteMirror.Editor

/-! ### Workspaces -/

/-- A text that names a workspace. -/
structure Label where
  text : String
  plain : '\x1f' ∉ text.toList
  deriving DecidableEq

/-- What a buffer, a client or a deferred save says about its workspace. -/
structure Identity where
  workspaceKey : Option Label
  targetArg : Option Label
  filesRoot : Option Label
  deriving DecidableEq

/-- `identity and identity.field or ""` -/
def Label.orEmpty (label : Option Label) : String := (label.map Label.text).getD ""

def identityKey (identity : Option Identity) : String :=
  Label.orEmpty (identity.bind Identity.workspaceKey) ++ "\x1e" ++
    Label.orEmpty (identity.bind Identity.targetArg) ++ "\x1e" ++
    Label.orEmpty (identity.bind Identity.filesRoot)

def deferredFlushKey (path : String) (identity : Option Identity) : String :=
  identityKey identity ++ "\x1f" ++ path

/-! ### The state of the plugin -/

/-- An entry of `deferred_flushes`. -/
structure DeferredFlush where
  path : String
  identity : Identity
  adopt : Bool
  reason : String
  bufnrs : List ℕ
  deriving DecidableEq

structure Buffer where
  remotePath : Option String
  identity : Identity
  flushPending : Bool
  deriving DecidableEq

/-- What the callback of a request has captured. -/
inductive Callback
  /-- the callback of `flush_remote_path`; `serial` is the place of the save in `saves` -/
  | save (serial : ℕ) (bufnr : Option ℕ) (path : String) (identity : Option Identity) (adopt : Bool)
  | other
  deriving DecidableEq

structure Client where
  targetArg : Option Label
  workspaceKey : Option Label
  filesRoot : Option Label
  nextId : ℕ
  closing : Bool
  deriving DecidableEq

/-- An entry of `client.pending`, with what its timer has captured. -/
structure Pending where
  client : ℕ
  id : ℕ
  method : String
  cancelOnTimeout : Bool
  callback : Callback
  deriving DecidableEq

/-- How a save was answered. -/
inductive Answer
  | error
  /-- as applied, queued or conflict -/
  | saved
  deriving DecidableEq

/-- A save that was sent. -/
structure Save where
  path : String
  identity : Option Identity
  answer : Option Answer
  deriving DecidableEq

structure State where
  deferredFlushes : List (String × DeferredFlush)
  clients : List Client
  /-- `M.client` -/
  client : Option ℕ
  pending : List Pending
  /-- the valid buffers -/
  buffers : List (ℕ × Buffer)
  saves : List Save

inductive SaveStatus
  | applied
  | conflict
  | queued
  deriving DecidableEq

structure SaveResult where
  status : SaveStatus
  path : Option String
  deriving DecidableEq

/-- The two arguments of a callback. -/
abbrev Reply : Type := Except String (Option SaveResult)

/-! ### Deferred saves -/

namespace State

variable (s : State)

def clientIdentity : Option Identity :=
  s.client.map fun c =>
    let client := s.clients[c]?.getD ⟨none, none, none, 1, false⟩
    ⟨client.workspaceKey, client.targetArg, client.filesRoot⟩

def bufferIdentity (bufnr : Option ℕ) : Option Identity :=
  (bufnr.bind fun b => s.buffers.lookup b).map Buffer.identity

def hasDeferredFlush (path : String) (identity : Option Identity) : Bool :=
  (s.deferredFlushes.lookup (deferredFlushKey path identity)).isSome

def bufferMatchesIdentity (buffer : Buffer) (path : String) (identity : Option Identity) : Bool :=
  buffer.remotePath = some path && identityKey (some buffer.identity) = identityKey identity

end State

/-- `mark_deferred_flush`; whether there was no record yet -/
def markDeferredFlush (s : State) (bufnr : Option ℕ) (path reason : String)
    (identity : Option Identity) (adopt : Bool) : State × Bool :=
  if path = "" then (s, false)
  else
    let identity := (identity.or (s.bufferIdentity bufnr)).or s.clientIdentity
    let key := deferredFlushKey path identity
    let item := s.deferredFlushes.lookup key
    let fresh : DeferredFlush := ⟨path, identity.getD ⟨none, none, none⟩, adopt, reason, []⟩
    let item' := item.getD fresh
    let valid := bufnr.filter fun b => (s.buffers.lookup b).isSome
    let marked : DeferredFlush :=
      { item' with
        adopt := item'.adopt || adopt
        reason := reason
        bufnrs := valid.elim item'.bufnrs fun b => b :: item'.bufnrs.filter (· ≠ b) }
    ({ s with
        deferredFlushes := (key, marked) :: s.deferredFlushes.filter fun entry => entry.1 ≠ key
        buffers := s.buffers.map fun entry =>
          if some entry.1 = valid then (entry.1, { entry.2 with flushPending := true })
          else entry },
      item.isNone)

def clearDeferredFlush (s : State) (path : String) (identity : Option Identity) : State :=
  if s.hasDeferredFlush path identity then
    { s with
      deferredFlushes := s.deferredFlushes.filter fun entry =>
        entry.1 ≠ deferredFlushKey path identity
      buffers := s.buffers.map fun entry =>
        if State.bufferMatchesIdentity entry.2 path identity then
          (entry.1, { entry.2 with flushPending := false })
        else entry }
  else s

def deferredFlushItems (s : State) (matchesClient : Identity → Bool) : List DeferredFlush :=
  ((s.deferredFlushes.map Prod.snd).filter fun item => matchesClient item.identity).mergeSort
    fun a b =>
      if a.path = b.path then identityKey (some a.identity) ≤ identityKey (some b.identity)
      else a.path ≤ b.path

/-! ### Requests -/

/-- The answer of a save is noted. -/
def noteAnswer (s : State) (serial : ℕ) (answer : Answer) : State :=
  { s with saves := s.saves.modify serial fun save => { save with answer := some answer } }

/-- A callback runs.  A response without a result makes the callback of a save raise an error. -/
def runCallback (s : State) (callback : Callback) (reply : Reply) : State :=
  match callback, reply with
  | .save serial bufnr path identity adopt, .error err =>
    noteAnswer (markDeferredFlush s bufnr path err identity adopt).1 serial .error
  | .save serial _ path identity _, .ok (some result) =>
    noteAnswer (clearDeferredFlush s (result.path.getD path) identity) serial .saved
  | .save _ _ _ _ _, .ok none => s
  | .other, _ => s

def clearPending (s : State) (client id : ℕ) : Option (Pending × State) :=
  (s.pending.find? fun entry => entry.client = client && entry.id = id).map fun entry =>
    (entry, { s with pending := s.pending.erase entry })

/-- `fail_pending`: the callbacks of all requests of a client run with an error. -/
def failPending (s : State) (client : ℕ) (message : String) : State :=
  ((s.pending.filter fun entry => entry.client = client).map Pending.callback).foldl
    (fun s callback => runCallback s callback (.error message))
    { s with pending := s.pending.filter fun entry => entry.client ≠ client }

def modifyClient (s : State) (client : ℕ) (f : Client → Client) : State :=
  { s with clients := s.clients.modify client f }

def failSidecarSend (s : State) (client : ℕ) (message : String) : State :=
  let current := s.client = some client && (s.clients[client]?.map Client.closing) = some false
  let s := if current then
      { modifyClient s client (fun c => { c with closing := true }) with client := none }
    else s
  failPending s client message

/-- `request_cancels_on_timeout`; `automatic` is the parameter of that name -/
def requestCancelsOnTimeout (method : String) (automatic : Bool) : Bool :=
  !((method = "remote_agent_install" || method = "remote_agent_update") && automatic)

/-- `M.request` on the current client; `failure` is the reason why the request could not be sent. -/
def request (s : State) (method : String) (automatic : Bool) (callback : Callback)
    (failure : Option String) : State :=
  match s.client with
  | none => s
  | some c =>
    let id := (s.clients[c]?.map Client.nextId).getD 0
    let s := { modifyClient s c (fun client => { client with nextId := id + 1 }) with
      pending :=
        s.pending ++ [⟨c, id, method, requestCancelsOnTimeout method automatic, callback⟩] }
    match failure with
    | none => s
    | some reason => failSidecarSend s c reason

section Flush

variable (normalizeLocalPath : String → String)

/-- `gsub("/+$", "")` -/
def trimSlashes (text : String) : String :=
  String.ofList (text.toList.reverse.dropWhile (· = '/')).reverse

def identityMatchesClient (s : State) (identity : Option Identity) : Bool :=
  match identity, s.clientIdentity with
  | none, _ => true
  | some _, none => false
  | some identity, some current =>
    match identity.workspaceKey, current.workspaceKey with
    | some key, some key' => key.text = key'.text
    | _, _ =>
      match identity.targetArg, current.targetArg with
      | some arg, some arg' => arg.text = arg'.text
      | _, _ =>
        match identity.filesRoot, current.filesRoot with
        | some root, some root' =>
          trimSlashes (normalizeLocalPath root.text) =
            trimSlashes (normalizeLocalPath root'.text)
        | _, _ => true

def flushRemotePath (s : State) (path : String) (bufnr : Option ℕ) (identity : Option Identity)
    (adopt : Bool) (failure : Option String) : State :=
  if path = "" then s
  else
    let identity := (identity.or (s.bufferIdentity bufnr)).or s.clientIdentity
    if s.client = none then (markDeferredFlush s bufnr path "disconnected" identity adopt).1
    else if identityMatchesClient normalizeLocalPath s identity = false then
      (markDeferredFlush s bufnr path "workspace mismatch" identity adopt).1
    else
      request { s with saves := s.saves ++ [⟨path, identity, none⟩] }
        (if adopt then "adopt" else "flush") false
        (.save s.saves.length bufnr path identity adopt) failure

/-- The loop of `flush_deferred` over the records. -/
def flushItems (s : State) : List DeferredFlush → List (Option String) → State
  | [], _ => s
  | item :: items, failures =>
    flushItems (flushRemotePath normalizeLocalPath s item.path none (some item.identity) item.adopt
      (failures.headD none)) items failures.tail

/-- `M.flush_deferred` -/
def flushDeferred (s : State) (failures : List (Option String)) : State :=
  let matchesClient (identity : Identity) : Bool :=
    s.client = none || identityMatchesClient normalizeLocalPath s (some identity)
  flushItems normalizeLocalPath s (deferredFlushItems s matchesClient) failures

/-! ### Connections -/

/-- `M.disconnect` -/
def disconnect (s : State) (failure : Option String) : State :=
  match s.client with
  | none => s
  | some c =>
    let s := modifyClient s c fun client => { client with closing := true }
    { failPending (request s "disconnect" false .other failure) c "disconnected" with client := none
      }

/-- `M.connect`: the old client is disconnected; if the sidecar starts, the new one asks for the
workspace. -/
def connect (s : State) (targetArg : Option Label) (started : Bool)
    (disconnectFailure failure : Option String) : State :=
  let s := disconnect s disconnectFailure
  if started then
    request { s with
      clients := s.clients ++ [⟨targetArg, none, none, 1, false⟩]
      client := some s.clients.length } "workspace_info" false .other failure
  else s

/-- `on_exit`: the process of the sidecar has ended. -/
def exited (s : State) (client code : ℕ) : State :=
  let unexpected := (s.clients[client]?.map Client.closing) = some false
  failPending (if s.client = some client then { s with client := none } else s) client
    (if unexpected then "sidecar exited with code " ++ toString code else "disconnected")

/-- `fail_workspace_info_connect`, and a sidecar that is refused -/
def failConnect (s : State) (client : ℕ) (message : String) : State :=
  if s.client = some client && (s.clients[client]?.map Client.closing) = some false then
    { failPending (modifyClient s client fun c => { c with closing := true }) client message with
      client := none }
  else s

/-! ### Events -/

inductive Event
  /-- `flush_remote_path` from `flush_buffer` -/
  | save (path : String) (bufnr : Option ℕ) (identity : Option Identity) (adopt : Bool)
    (failure : Option String)
  | flushDeferred (failures : List (Option String))
  /-- a request that is not a save -/
  | request (method : String) (automatic : Bool) (failure : Option String)
  | response (client id : ℕ) (response : Except (Option String) (Option SaveResult))
  | timeout (client id timeoutMs : ℕ)
  | connect (targetArg : Option Label) (started : Bool) (disconnectFailure failure : Option String)
  /-- the answer to `workspace_info` is taken over -/
  | hello (client : ℕ) (workspaceKey filesRoot : Option Label)
  | exited (client code : ℕ)
  | socketClosed (client : ℕ)
  | failConnect (client : ℕ) (message : String)
  | disconnect (failure : Option String)
  /-- a buffer is opened or changed, or wiped out -/
  | buffer (bufnr : ℕ) (buffer : Option Buffer)

/-- The end of `handle_response`: what the callback gets. -/
def handleResponse (response : Except (Option String) (Option SaveResult)) : Reply :=
  match response with
  | .ok result => .ok result
  | .error err => .error (err.getD "unknown sidecar error")

/-- What the plugin does at an event. -/
def step (s : State) : Event → State
  | .save path bufnr identity adopt failure =>
    flushRemotePath normalizeLocalPath s path bufnr identity adopt failure
  | .flushDeferred failures => flushDeferred normalizeLocalPath s failures
  | .request method automatic failure => request s method automatic .other failure
  | .response client id response =>
    match clearPending s client id with
    | none => s
    | some (entry, s) => runCallback s entry.callback (handleResponse response)
  | .timeout client id timeoutMs =>
    match clearPending s client id with
    | none => s
    | some (entry, s) =>
      -- `send_cancel_request` takes a number and leaves nothing in `pending`
      let s := if entry.cancelOnTimeout then
          modifyClient s client fun c => { c with nextId := c.nextId + 1 }
        else s
      runCallback s entry.callback (.error ("request `" ++ entry.method ++
        "` timed out after " ++ toString timeoutMs ++ " ms"))
  | .connect targetArg started disconnectFailure failure =>
    connect s targetArg started disconnectFailure failure
  | .hello client workspaceKey filesRoot =>
    modifyClient s client fun c => { c with workspaceKey := workspaceKey, filesRoot := filesRoot }
  | .exited client code => exited s client code
  | .socketClosed client => failSidecarSend s client "sidecar socket closed"
  | .failConnect client message => failConnect s client message
  | .disconnect failure => disconnect s failure
  | .buffer bufnr buffer =>
    let others := s.buffers.filter fun entry => entry.1 ≠ bufnr
    { s with buffers := buffer.elim others fun buffer => (bufnr, buffer) :: others }

end Flush

/-- Nothing has happened. -/
def State.init : State := ⟨[], [], none, [], [], []⟩

/-- Two saves of one path in one workspace.  Workspaces are told apart by their keys, as in the
source: two identities with one key count as one, also where labels contain the separator `\x1e`. -/
def Save.sameFile (save other : Save) : Bool :=
  save.path = other.path && identityKey save.identity = identityKey other.identity

/-- The save was answered with an error. -/
def Save.failed (save : Save) : Bool := save.answer = some .error

/-- **In order**: a save succeeds only if no later save of the same file has failed before.  The
answer names the path that was asked for. -/
def inOrder (s : State) : Event → Bool
  | .response client id (.ok (some result)) =>
    match clearPending s client id with
    | some (⟨_, _, _, _, .save serial _ path identity _⟩, _) =>
      result.path.getD path = path &&
        (s.saves.drop (serial + 1)).all fun later =>
          !(later.sameFile ⟨path, identity, none⟩ && later.failed)
    | _ => true
  | _ => true

/-- The state after some events, if all of them meet the guard. -/
def run (normalizeLocalPath : String → String) (guard : State → Event → Bool) (s : State) :
    List Event → Option State
  | [] => some s
  | event :: events =>
    if guard s event then run normalizeLocalPath guard (step normalizeLocalPath s event) events
    else none

/-! ### A record belongs to one path and workspace -/

theorem orEmpty_plain (label : Option Label) : '\x1f' ∉ (Label.orEmpty label).toList := by
  cases label with
  | none => simp [Label.orEmpty]
  | some label => exact label.plain

theorem identityKey_plain (identity : Option Identity) :
    '\x1f' ∉ (identityKey identity).toList := by
  simp [identityKey, orEmpty_plain]

/-- **A key of `deferred_flushes` determines the path and the workspace.** -/
theorem deferredFlushKey_injective {path path' : String} {identity identity' : Option Identity}
    (h : deferredFlushKey path identity = deferredFlushKey path' identity') :
    path = path' ∧ identityKey identity = identityKey identity' := by
  have lists := congrArg String.toList h
  simp only [deferredFlushKey, String.toList_append, List.append_assoc] at lists
  -- the first unit separator ends the workspace
  have length : ∀ path identity,
      List.idxOf '\x1f' ((identityKey identity).toList ++ ("\x1f".toList ++ path)) =
        (identityKey identity).toList.length := by
    intro path identity
    rw [List.idxOf_append_of_notMem (identityKey_plain identity)]
    simp
  have same : (identityKey identity).toList.length = (identityKey identity').toList.length := by
    rw [← length path.toList identity, lists, length]
  obtain ⟨keys, rest⟩ := List.append_inj lists same
  exact ⟨String.toList_injective (List.append_cancel_left rest), String.toList_injective keys⟩

/-! ### What the functions on records change -/

namespace State

theorem hasDeferredFlush_iff (s : State) (path : String) (identity : Option Identity) :
    s.hasDeferredFlush path identity = true ↔
      ∃ entry ∈ s.deferredFlushes, entry.1 = deferredFlushKey path identity := by
  rw [hasDeferredFlush, List.lookup_isSome_iff]
  exact exists_congr fun _ => and_congr_right fun _ => beq_iff_eq.trans eq_comm

end State

section Records

variable (s : State) (bufnr : Option ℕ) (path reason : String) (adopt : Bool)
  (identity : Option Identity)
  {other : String} {workspace : Option Identity}

@[simp] theorem markDeferredFlush_saves :
    (markDeferredFlush s bufnr path reason identity adopt).1.saves = s.saves := by
  unfold markDeferredFlush
  split <;> rfl

@[simp] theorem markDeferredFlush_pending :
    (markDeferredFlush s bufnr path reason identity adopt).1.pending = s.pending := by
  unfold markDeferredFlush
  split <;> rfl

/-- Marking a save keeps the other records. -/
theorem markDeferredFlush_keeps (h : s.hasDeferredFlush other workspace = true) :
    (markDeferredFlush s bufnr path reason identity adopt).1.hasDeferredFlush other workspace =
      true := by
  rw [State.hasDeferredFlush_iff] at h ⊢
  obtain ⟨entry, mem, key⟩ := h
  unfold markDeferredFlush
  split
  · exact ⟨entry, mem, key⟩
  · by_cases eq : entry.1 =
        deferredFlushKey path ((identity.or (s.bufferIdentity bufnr)).or s.clientIdentity)
    · exact ⟨_, List.mem_cons_self, eq.symm.trans key⟩
    · refine ⟨entry, List.mem_cons_of_mem _ (List.mem_filter.mpr ⟨mem, ?_⟩), key⟩
      simpa using eq

/-- A save that is marked is recorded. -/
theorem markDeferredFlush_records (identity : Identity) (named : path ≠ "") :
    (markDeferredFlush s bufnr path reason (some identity) adopt).1.hasDeferredFlush path
      (some identity) = true := by
  rw [State.hasDeferredFlush_iff]
  unfold markDeferredFlush
  rw [if_neg named]
  exact ⟨_, List.mem_cons_self, rfl⟩

@[simp] theorem clearDeferredFlush_saves :
    (clearDeferredFlush s path identity).saves = s.saves := by
  unfold clearDeferredFlush
  split <;> rfl

@[simp] theorem clearDeferredFlush_pending :
    (clearDeferredFlush s path identity).pending = s.pending := by
  unfold clearDeferredFlush
  split <;> rfl

/-- Clearing a record keeps those with another key. -/
theorem clearDeferredFlush_keeps (h : s.hasDeferredFlush other workspace = true)
    (ne : deferredFlushKey other workspace ≠ deferredFlushKey path identity) :
    (clearDeferredFlush s path identity).hasDeferredFlush other workspace = true := by
  rw [State.hasDeferredFlush_iff] at h ⊢
  obtain ⟨entry, mem, key⟩ := h
  unfold clearDeferredFlush
  split
  · refine ⟨entry, List.mem_filter.mpr ⟨mem, ?_⟩, key⟩
    simpa [key] using ne
  · exact ⟨entry, mem, key⟩

end Records

/-! ### The invariant

`callbacks` are the callbacks that are still to run.  In between two events they are those of
`pending`; while `fail_pending` goes through its list, they are the rest of the list and what stays
in `pending`. -/

/-- The save of a callback is sent and not answered. -/
def Waiting (s : State) : Callback → Prop
  | .save serial _ path identity _ =>
    path ≠ "" ∧ identity.isSome = true ∧ s.saves[serial]? = some ⟨path, identity, none⟩
  | .other => True

def Callback.serial? : Callback → Option ℕ
  | .save serial _ _ _ _ => some serial
  | .other => none

/-- Every failed save is recorded, unless a later one of the same file has succeeded. -/
def Kept (s : State) : Prop :=
  ∀ (i : ℕ) (save : Save), s.saves[i]? = some save → save.answer = some .error →
    (∀ (j : ℕ) (later : Save), i < j → s.saves[j]? = some later → later.sameFile save = true →
      later.answer ≠ some .saved) →
    s.hasDeferredFlush save.path save.identity = true

structure Inv (s : State) (callbacks : List Callback) : Prop where
  waiting : ∀ callback ∈ callbacks, Waiting s callback
  serials : (callbacks.filterMap Callback.serial?).Nodup
  kept : Kept s

/-- The callbacks of `pending`. -/
def State.callbacks (s : State) : List Callback := s.pending.map Pending.callback

def Sound (s : State) : Prop := Inv s s.callbacks

namespace Inv

variable {s s' : State} {callback : Callback} {callbacks callbacks' : List Callback}

theorem perm (h : Inv s callbacks) (p : callbacks.Perm callbacks') : Inv s callbacks' where
  waiting := fun callback mem => h.waiting callback (p.mem_iff.mpr mem)
  serials := (p.filterMap _).nodup_iff.mp h.serials
  kept := h.kept

theorem tail (h : Inv s (callback :: callbacks)) : Inv s callbacks where
  waiting := fun c mem => h.waiting c (List.mem_cons_of_mem _ mem)
  serials := h.serials.sublist ((List.sublist_cons_self _ _).filterMap _)
  kept := h.kept

/-- A change that leaves the saves as they are and removes no record. -/
theorem frame (h : Inv s callbacks) (saves : s'.saves = s.saves)
    (records : ∀ path identity, s.hasDeferredFlush path identity = true →
      s'.hasDeferredFlush path identity = true) : Inv s' callbacks where
  waiting := by
    intro callback mem
    have waits := h.waiting callback mem
    cases callback with
    | save serial bufnr path identity adopt => simpa only [Waiting, saves] using waits
    | other => trivial
  serials := h.serials
  kept := by
    intro i save found failed none_later
    rw [saves] at found none_later
    exact records _ _ (h.kept i save found failed none_later)

theorem other (h : Inv s callbacks) : Inv s (.other :: callbacks) where
  waiting := by
    intro callback mem
    rcases List.mem_cons.mp mem with rfl | mem
    · trivial
    · exact h.waiting callback mem
  serials := h.serials
  kept := h.kept

end Inv

/-! ### A save is answered -/

theorem noteAnswer_getElem? (s : State) (serial : ℕ) (answer : Answer) (i : ℕ) :
    (noteAnswer s serial answer).saves[i]? =
      if serial = i then s.saves[i]?.map fun save => { save with answer := some answer }
      else s.saves[i]? := by
  simp only [noteAnswer, List.getElem?_modify]
  split <;> simp

section Answered

variable {s s' : State} {serial : ℕ} {bufnr : Option ℕ} {path : String}
  {identity : Option Identity} {adopt : Bool} {callbacks : List Callback}

/-- The other callbacks still wait when one save is answered. -/
theorem waiting_noteAnswer (h : Inv s (.save serial bufnr path identity adopt :: callbacks))
    (saves : s'.saves = s.saves) (answer : Answer) :
    ∀ callback ∈ callbacks, Waiting (noteAnswer s' serial answer) callback := by
  intro callback mem
  have waits := h.tail.waiting callback mem
  cases callback with
  | other => trivial
  | save serial' bufnr' path' identity' adopt' =>
    have ne : serial ≠ serial' := by
      rintro rfl
      have nodup := h.serials
      rw [List.filterMap_cons_some (f := Callback.serial?) rfl, List.nodup_cons] at nodup
      exact nodup.1 (List.mem_filterMap.mpr ⟨_, mem, rfl⟩)
    refine ⟨waits.1, waits.2.1, ?_⟩
    rw [noteAnswer_getElem?, if_neg ne, saves]
    exact waits.2.2

/-- What `Kept` asks about the saves after `path` was answered, read in the state before. -/
theorem later_noteAnswer {answer : Answer} {i : ℕ} {save : Save}
    (sent : s.saves[serial]? = some ⟨path, identity, none⟩)
    (later : ∀ j later, i < j → (noteAnswer s serial answer).saves[j]? = some later →
      later.sameFile save = true → later.answer ≠ some .saved) :
    ∀ j later, i < j → s.saves[j]? = some later → later.sameFile save = true →
      later.answer ≠ some .saved := by
  intro j other lt found same
  by_cases eq : serial = j
  · subst eq
    rw [sent] at found
    cases found
    simp
  · refine later j other lt ?_ same
    rw [noteAnswer_getElem?, if_neg eq]
    exact found

/-- A save fails. -/
theorem Inv.failed (h : Inv s (.save serial bufnr path identity adopt :: callbacks))
    (err : String) :
    Inv (runCallback s (.save serial bufnr path identity adopt) (.error err)) callbacks := by
  obtain ⟨named, known, sent⟩ := h.waiting _ List.mem_cons_self
  obtain ⟨workspace, rfl⟩ := Option.isSome_iff_exists.mp known
  set s' := (markDeferredFlush s bufnr path err (some workspace) adopt).1 with hs'
  have saves : s'.saves = s.saves := markDeferredFlush_saves ..
  change Inv (noteAnswer s' serial .error) callbacks
  refine ⟨waiting_noteAnswer h saves .error, h.tail.serials, ?_⟩
  intro i save found failed none_later
  change s'.hasDeferredFlush save.path save.identity = true
  rw [noteAnswer_getElem?, saves] at found
  have before := later_noteAnswer (saves ▸ sent) none_later
  rw [saves] at before
  by_cases eq : serial = i
  · -- the save itself has just been recorded
    subst eq
    rw [if_pos rfl, sent] at found
    cases found
    exact markDeferredFlush_records s bufnr path err adopt workspace named
  · rw [if_neg eq] at found
    exact markDeferredFlush_keeps _ _ _ _ _ _ (h.kept i save found failed before)

/-- A save succeeds, and no later save of the same file has failed. -/
theorem Inv.succeeded (h : Inv s (.save serial bufnr path identity adopt :: callbacks))
    (result : SaveResult) (named : result.path.getD path = path)
    (ordered : ∀ j later, serial < j → s.saves[j]? = some later →
      later.sameFile ⟨path, identity, none⟩ = true → later.failed = false) :
    Inv (runCallback s (.save serial bufnr path identity adopt) (.ok (some result))) callbacks := by
  obtain ⟨-, -, sent⟩ := h.waiting _ List.mem_cons_self
  set s' := clearDeferredFlush s (result.path.getD path) identity with hs'
  have saves : s'.saves = s.saves := clearDeferredFlush_saves ..
  change Inv (noteAnswer s' serial .saved) callbacks
  refine ⟨waiting_noteAnswer h saves .saved, h.tail.serials, ?_⟩
  intro i save found failed none_later
  change s'.hasDeferredFlush save.path save.identity = true
  have before := later_noteAnswer (saves ▸ sent) none_later
  rw [saves] at before
  rw [noteAnswer_getElem?, saves] at found
  have ne : serial ≠ i := by
    rintro rfl
    rw [if_pos rfl, sent] at found
    cases found
    cases failed
  rw [if_neg ne] at found
  refine clearDeferredFlush_keeps _ _ _ (h.kept i save found failed before) fun key => ?_
  -- a failed save of the same file is neither before the one that succeeds nor after it
  rw [named] at key
  obtain ⟨samePath, sameWorkspace⟩ := deferredFlushKey_injective key
  rcases Nat.lt_or_gt_of_ne ne with lt | gt
  · have notFailed := ordered i save lt found (by simp [Save.sameFile, samePath, sameWorkspace])
    simp [Save.failed, failed] at notFailed
  · refine none_later serial ⟨path, identity, some .saved⟩ gt ?_ ?_ rfl
    · rw [noteAnswer_getElem?, if_pos rfl, saves, sent]
      rfl
    · simp [Save.sameFile, samePath, sameWorkspace]

end Answered

/-! ### Every function keeps the invariant -/

section Functions

variable {s : State} {callback : Callback} {callbacks : List Callback}

@[simp] theorem runCallback_pending (s : State) (callback : Callback) (reply : Reply) :
    (runCallback s callback reply).pending = s.pending := by
  unfold runCallback
  split <;> simp [noteAnswer]

theorem Inv.error (h : Inv s (callback :: callbacks)) (err : String) :
    Inv (runCallback s callback (.error err)) callbacks := by
  cases callback with
  | save serial bufnr path identity adopt => exact h.failed err
  | other => exact h.tail

/-- The loop of `fail_pending`: by induction on the callbacks that are left. -/
theorem Inv.errors (err : String) : ∀ (failing : List Callback) (s : State),
    Inv s (failing ++ callbacks) →
      Inv (failing.foldl (fun s callback => runCallback s callback (.error err)) s) callbacks
  | [], _, h => h
  | _ :: failing, _, h => Inv.errors err failing _ (h.error err)

theorem foldl_runCallback_pending (err : String) : ∀ (failing : List Callback) (s : State),
    (failing.foldl (fun s callback => runCallback s callback (.error err)) s).pending = s.pending
  | [], _ => rfl
  | callback :: failing, s => by
      rw [List.foldl_cons, foldl_runCallback_pending err failing, runCallback_pending]

theorem Sound.failPending (h : Sound s) (client : ℕ) (message : String) :
    Sound (failPending s client message) := by
  have perm : s.callbacks.Perm
      ((s.pending.filter fun entry => entry.client = client).map Pending.callback ++
        (s.pending.filter fun entry => entry.client ≠ client).map Pending.callback) := by
    rw [← List.map_append]
    refine List.Perm.map _ ?_
    have split := List.filter_append_perm (fun entry : Pending => decide (entry.client = client))
      s.pending
    simpa using split.symm
  have start : Inv { s with pending := s.pending.filter fun entry => entry.client ≠ client }
      s.callbacks := Inv.frame h rfl fun _ _ recorded => recorded
  have done := Inv.errors message _ _ (start.perm perm)
  unfold Sound State.callbacks
  unfold Editor.failPending
  rw [foldl_runCallback_pending]
  exact done

/-- Only clients and the current one change. -/
theorem Sound.connection (h : Sound s) (clients : List Client) (client : Option ℕ) :
    Sound { s with clients := clients, client := client } :=
  Inv.frame h rfl fun _ _ recorded => recorded

theorem Sound.failSidecarSend (h : Sound s) (client : ℕ) (message : String) :
    Sound (failSidecarSend s client message) := by
  unfold Editor.failSidecarSend
  refine Sound.failPending ?_ client message
  dsimp only
  split
  · exact h.connection _ _
  · exact h

theorem Sound.request (h : Inv s (callback :: s.callbacks)) (method : String) (automatic : Bool)
    (failure : Option String) : Sound (request s method automatic callback failure) := by
  unfold Editor.request
  split
  · exact h.tail
  · rename_i c _
    have sent : ∀ clients id, Sound { s with
        clients := clients
        pending := s.pending ++
          [⟨c, id, method, requestCancelsOnTimeout method automatic, callback⟩] } := by
      intro clients id
      refine Inv.frame (s := s) ?_ rfl fun _ _ recorded => recorded
      refine h.perm ?_
      simp only [State.callbacks, List.map_append, List.map_cons, List.map_nil]
      exact (List.perm_append_singleton _ _).symm
    split
    · exact sent _ _
    · exact (sent _ _).failSidecarSend _ _

/-- A save that is sent waits, under a number of its own. -/
theorem Inv.send (h : Sound s) (bufnr : Option ℕ) {path : String} (named : path ≠ "")
    (identity : Identity) (adopt : Bool) :
    Inv { s with saves := s.saves ++ [⟨path, some identity, none⟩] }
      (.save s.saves.length bufnr path (some identity) adopt :: s.callbacks) := by
  have old : ∀ {i : ℕ} {save : Save}, s.saves[i]? = some save →
      (s.saves ++ [⟨path, some identity, none⟩])[i]? = some save := by
    intro i save found
    rw [List.getElem?_append_left (List.getElem?_eq_some_iff.mp found).1]
    exact found
  refine ⟨?_, ?_, ?_⟩
  · intro callback mem
    rcases List.mem_cons.mp mem with rfl | mem
    · exact ⟨named, rfl, by simp⟩
    · have waits := h.waiting callback mem
      cases callback with
      | save serial bufnr' path' identity' adopt' => exact ⟨waits.1, waits.2.1, old waits.2.2⟩
      | other => trivial
  · rw [List.filterMap_cons_some (f := Callback.serial?) rfl, List.nodup_cons]
    refine ⟨fun mem => ?_, h.serials⟩
    obtain ⟨callback, mem, serial⟩ := List.mem_filterMap.mp mem
    have waits := h.waiting callback mem
    cases callback with
    | save serial' bufnr' path' identity' adopt' =>
      cases serial
      exact absurd (List.getElem?_eq_some_iff.mp waits.2.2).1 (Nat.lt_irrefl _)
    | other => cases serial
  · intro i save found failed none_later
    have lt : i < s.saves.length := by
      by_contra ge
      rw [List.getElem?_append_right (Nat.not_lt.mp ge), List.getElem?_singleton] at found
      split at found
      · cases found
        cases failed
      · cases found
    rw [List.getElem?_append_left lt] at found
    exact h.kept i save found failed fun j later ij at_j => none_later j later ij (old at_j)

variable (normalizeLocalPath : String → String)

theorem Sound.mark (h : Sound s) (bufnr : Option ℕ) (path reason : String)
    (identity : Option Identity) (adopt : Bool) :
    Sound (markDeferredFlush s bufnr path reason identity adopt).1 := by
  unfold Sound State.callbacks
  rw [markDeferredFlush_pending]
  exact Inv.frame h (markDeferredFlush_saves ..) fun _ _ recorded =>
    markDeferredFlush_keeps _ _ _ _ _ _ recorded

theorem Sound.flushRemotePath (h : Sound s) (path : String) (bufnr : Option ℕ)
    (identity : Option Identity) (adopt : Bool) (failure : Option String) :
    Sound (flushRemotePath normalizeLocalPath s path bufnr identity adopt failure) := by
  unfold Editor.flushRemotePath
  by_cases named : path = ""
  · rw [if_pos named]
    exact h
  rw [if_neg named]
  dsimp only
  by_cases offline : s.client = none
  · rw [if_pos offline]
    exact h.mark _ _ _ _ _
  rw [if_neg offline]
  split
  · exact h.mark _ _ _ _ _
  · -- a client is there, so the workspace of the save is known
    obtain ⟨c, current⟩ := Option.ne_none_iff_exists'.mp offline
    obtain ⟨workspace, known⟩ : ∃ workspace,
        (identity.or (s.bufferIdentity bufnr)).or s.clientIdentity = some workspace := by
      cases identity.or (s.bufferIdentity bufnr) with
      | some workspace => exact ⟨workspace, rfl⟩
      | none => simp [State.clientIdentity, current]
    rw [known]
    exact Sound.request (Inv.send h bufnr named workspace adopt) _ _ _

/-- By induction on the records that are left. -/
theorem Sound.flushItems : ∀ (items : List DeferredFlush) (failures : List (Option String))
    (s : State), Sound s → Sound (flushItems normalizeLocalPath s items failures)
  | [], _, _, h => h
  | _ :: items, failures, _, h =>
    Sound.flushItems items failures.tail _ (h.flushRemotePath normalizeLocalPath _ _ _ _ _)

theorem Sound.disconnect (h : Sound s) (failure : Option String) :
    Sound (disconnect s failure) := by
  unfold Editor.disconnect
  split
  · exact h
  · rename_i c _
    have closing := h.connection (s.clients.modify c fun c => { c with closing := true }) s.client
    exact ((Sound.request closing.other "disconnect" false failure).failPending _ _).connection _ _

theorem Sound.connect (h : Sound s) (targetArg : Option Label) (started : Bool)
    (disconnectFailure failure : Option String) :
    Sound (connect s targetArg started disconnectFailure failure) := by
  unfold Editor.connect
  have old := h.disconnect disconnectFailure
  dsimp only
  split
  · exact Sound.request (old.connection _ _).other _ _ _
  · exact old

theorem Sound.exited (h : Sound s) (client code : ℕ) : Sound (exited s client code) := by
  unfold Editor.exited
  refine Sound.failPending ?_ _ _
  split
  · exact h.connection _ _
  · exact h

theorem Sound.failConnect (h : Sound s) (client : ℕ) (message : String) :
    Sound (failConnect s client message) := by
  unfold Editor.failConnect
  split
  · exact ((h.connection _ _).failPending _ _).connection _ _
  · exact h

/-- The entry that `clear_pending` takes out. -/
theorem Sound.clearPending (h : Sound s) {client id : ℕ} {entry : Pending} {s' : State}
    (cleared : clearPending s client id = some (entry, s')) :
    Inv s' (entry.callback :: s'.callbacks) ∧ s'.saves = s.saves := by
  obtain ⟨found, at_found, eq⟩ := Option.map_eq_some_iff.mp cleared
  cases eq
  have mem := List.mem_of_find?_eq_some at_found
  refine ⟨Inv.frame (s := s) (Inv.perm h ?_) rfl fun _ _ recorded => recorded, rfl⟩
  exact (List.perm_cons_erase mem).map Pending.callback

/-! ### Runs -/

/-- **One event.** -/
theorem Sound.step (h : Sound s) (event : Event) (ordered : inOrder s event = true) :
    Sound (step normalizeLocalPath s event) := by
  cases event with
  | save path bufnr identity adopt failure => exact h.flushRemotePath _ _ _ _ _ _
  | flushDeferred failures => exact Sound.flushItems normalizeLocalPath _ _ _ h
  | request method automatic failure => exact Sound.request (Inv.other h) _ _ _
  | connect targetArg started disconnectFailure failure => exact h.connect _ _ _ _
  | hello client workspaceKey filesRoot => exact h.connection _ _
  | exited client code => exact h.exited _ _
  | socketClosed client => exact h.failSidecarSend _ _
  | failConnect client message => exact h.failConnect _ _
  | disconnect failure => exact h.disconnect _
  | buffer bufnr buffer => exact Inv.frame h rfl fun _ _ recorded => recorded
  | timeout client id timeoutMs =>
    simp only [Editor.step]
    cases cleared : Editor.clearPending s client id with
    | none => exact h
    | some found =>
      obtain ⟨waits, -⟩ := h.clearPending cleared
      dsimp only
      unfold Sound State.callbacks
      rw [runCallback_pending]
      refine Inv.error ?_ _
      split
      · exact Inv.frame waits rfl fun _ _ recorded => recorded
      · exact waits
  | response client id response =>
    simp only [Editor.step]
    cases cleared : Editor.clearPending s client id with
    | none => exact h
    | some found =>
      obtain ⟨⟨client', id', method, cancels, callback⟩, s'⟩ := found
      obtain ⟨waits, saves⟩ := h.clearPending cleared
      dsimp only
      unfold Sound State.callbacks
      rw [runCallback_pending]
      cases response with
      | error err => exact waits.error _
      | ok result =>
        cases callback with
        | other => exact waits.tail
        | save serial bufnr path identity adopt =>
          cases result with
          | none => exact waits.tail
          | some result =>
            simp only [inOrder, cleared, Bool.and_eq_true, decide_eq_true_eq,
              List.all_eq_true] at ordered
            refine waits.succeeded result ordered.1 fun j later lt found same => ?_
            have mem : later ∈ s.saves.drop (serial + 1) := by
              rw [List.mem_iff_getElem?]
              refine ⟨j - (serial + 1), ?_⟩
              rw [List.getElem?_drop, Nat.add_sub_cancel' lt, ← saves]
              exact found
            have meets := ordered.2 later mem
            simpa [same] using meets

/-- **A whole run**, by induction on its events. -/
theorem Sound.run : ∀ (events : List Event) (s s' : State), Sound s →
    run normalizeLocalPath inOrder s events = some s' → Sound s'
  | [], _, _, h, ran => by
      cases ran
      exact h
  | event :: events, s, s', h, ran => by
      simp only [Editor.run] at ran
      split at ran
      · rename_i ordered
        exact Sound.run events _ _ (h.step normalizeLocalPath event ordered) ran
      · cases ran

theorem Sound.init : Sound State.init where
  waiting := by simp [State.callbacks, State.init]
  serials := by simp [State.callbacks, State.init]
  kept := by simp [Kept, State.init]

end Functions

/-- **A failed save stays recorded**: in every run in which no save succeeds after a later one of
the same file has failed, a save that was answered with an error is recorded, until a save of the
same file that was sent later succeeds. -/
theorem deferred_flush_recorded (normalizeLocalPath : String → String) (events : List Event)
    (s : State) (ran : run normalizeLocalPath inOrder State.init events = some s)
    (i : ℕ) (save : Save) (sent : s.saves[i]? = some save) (failed : save.answer = some .error)
    (none_later : ∀ j later, i < j → s.saves[j]? = some later → later.sameFile save = true →
      later.answer ≠ some .saved) :
    s.hasDeferredFlush save.path save.identity = true :=
  (Sound.run normalizeLocalPath events _ _ Sound.init ran).kept i save sent failed none_later

/-! ### Two saves under way -/

namespace Sample

def identity : Identity :=
  ⟨some ⟨"build-1f3a", by decide⟩, some ⟨"ssh://build/srv/app", by decide⟩,
    some ⟨"/home/dev/.local/state/nrm/build-1f3a/files", by decide⟩⟩

/-- A connection, and two saves of one file; the requests have the numbers 2 and 3. -/
def twoSaves : List Event :=
  [.connect identity.targetArg true none none,
    .hello 0 identity.workspaceKey identity.filesRoot,
    .save "notes.txt" none (some identity) false none,
    .save "notes.txt" none (some identity) false none]

def applied : Event := .response 0 2 (.ok (some ⟨.applied, some "notes.txt"⟩))

def refused : Event := .response 0 3 (.error (some "remote agent unavailable"))

def save (answer : Answer) : Save := ⟨"notes.txt", some identity, some answer⟩

end Sample

open Sample in
/-- The first save is applied and then the second one fails: it is recorded. -/
theorem deferred_flush_recorded_second :
    ∃ s, run (fun text => text) inOrder State.init (twoSaves ++ [applied, refused]) = some s ∧
      s.saves = [save .saved, save .error] ∧
      s.hasDeferredFlush "notes.txt" (some identity) = true := by
  have saves : (run (fun text => text) inOrder State.init
      (twoSaves ++ [applied, refused])).map State.saves = some [save .saved, save .error] := by
    decide +kernel
  obtain ⟨s, ran, sent⟩ := Option.map_eq_some_iff.mp saves
  refine ⟨s, ran, sent, ?_⟩
  refine deferred_flush_recorded _ _ s ran 1 (save .error) (by rw [sent]; rfl) rfl ?_
  intro j later lt found
  rw [sent, List.getElem?_eq_none (Nat.succ_le_of_lt lt)] at found
  cases found

open Sample in
/-- The second save fails and then the first one is applied: nothing is recorded any more. -/
theorem late_success_forgets_failure :
    ∃ s, run (fun text => text) (fun _ _ => true) State.init (twoSaves ++ [refused, applied]) =
        some s ∧
      s.saves = [save .saved, save .error] ∧
      s.hasDeferredFlush "notes.txt" (some identity) = false := by
  have final : (run (fun text => text) (fun _ _ => true) State.init
      (twoSaves ++ [refused, applied])).map (fun s =>
        (s.saves, s.hasDeferredFlush "notes.txt" (some identity))) =
      some ([save .saved, save .error], false) := by
    decide +kernel
  obtain ⟨s, ran, eq⟩ := Option.map_eq_some_iff.mp final
  exact ⟨s, ran, congrArg Prod.fst eq, congrArg Prod.snd eq⟩

end RemoteMirror.Editor
