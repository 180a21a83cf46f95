/-
**Requests to the sidecar: what they touch and where they go.**

`crates/nrm-sidecar/src/main.rs` runs the requests of a client on two lanes.  A request declares a
*hazard*, the paths whose mirrored content it may change, and an *interest*, the paths whose content
it reads.  Requests that save go to the write lane; a request that is interested in what a pending
save may change follows it there; all others go to the read lane.

The hazards of the pending saves are kept in a table that counts paths.  Here it is a list of paths,
in which a path stands as often as it is counted.

Main definitions:

* `Lanes.ClientRequest`, `Lanes.Value` — a request and its parameters;
* `Lanes.PendingHazard.forRequest`, `Lanes.RequestInterest.forRequest`;
* `Lanes.PendingRemote` — the table, with `register` and `clear`;
* `Lanes.RemoteLane.forRequest`, `Lanes.RemotePriority.forRequest`.

Main results:

* `Lanes.PendingRemote.Counts` — the table is that of a list of hazards; kept by `register`
  and `clear`;
* `Lanes.PendingRemote.Counts.conflicts` — **a request that conflicts with one of the hazards
  conflicts with the table**;
* `Lanes.interactive_of_conflicts` — a save others may have to wait for is interactive.
-/

import RemoteMirror.AgentScan

namespace RemoteMirror.Lanes

/-! ### Requests -/

/-- A JSON value.  Numbers that are no integers are not told apart. -/
inductive Value
  | null
  | bool (value : Bool)
  | integer (value : ℤ)
  | float
  | string (value : String)
  | array (values : List Value)
  | object (fields : List (String × Value))

namespace Value

/-- `Value::get` of a field -/
def get? : Value → String → Option Value
  | .object fields, name => fields.lookup name
  | _, _ => none

def asStr : Value → Option String
  | .string value => some value
  | _ => none

def asBool : Value → Option Bool
  | .bool value => some value
  | _ => none

def asArray : Value → Option (List Value)
  | .array values => some values
  | _ => none

def asU64 : Value → Option ℕ
  | .integer value => if 0 ≤ value ∧ value < 2 ^ 64 then some value.toNat else none
  | _ => none

end Value

structure ClientRequest where
  id : ℕ
  method : String
  params : Value

namespace ClientRequest

variable (request : ClientRequest)

def str (name : String) : Option String := (request.params.get? name).bind Value.asStr

def flag (name : String) (default : Bool) : Bool :=
  ((request.params.get? name).bind Value.asBool).getD default

/-- `request_background_flag` -/
def background : Bool := request.flag "background" false

/-- A further page of a grep session. -/
def continuesGrep : Bool := request.method = "grep" && (request.str "session_id").isSome

/-- `request_is_write_lane` -/
def isWriteLane : Bool :=
  request.method ∈ ["recover_local_edits", "adopt", "flush", "flush_queued", "flush_queue",
    "accept_local_conflict", "accept_remote_conflict", "remote_agent_install",
    "remote_agent_update"]

/-- `request_replaces_remote_agent` -/
def replacesRemoteAgent : Bool :=
  request.method ∈ ["remote_agent_install", "remote_agent_update"]

end ClientRequest

def normalizedPathString (path : String) : Option String := (Sidecar.normalizedPath path).toOption

/-- The paths of the parameter `paths`. -/
def ClientRequest.paths (request : ClientRequest) : List String :=
  ((request.params.get? "paths").bind Value.asArray).getD [] |>.filterMap fun value =>
    value.asStr.bind normalizedPathString

/-- The path of the parameter `path`. -/
def ClientRequest.path (request : ClientRequest) : List String :=
  ((request.str "path").bind normalizedPathString).toList

/-! ### Hazards and interests -/

/-- The content a request may change. -/
structure PendingHazard where
  exactPaths : List String
  unknownContentMutation : Bool
  deriving DecidableEq

/-- The content a request reads. -/
structure RequestInterest where
  exactPaths : List String
  unknownContent : Bool
  deriving DecidableEq

/-- `PendingHazard::for_request` -/
def PendingHazard.forRequest (request : ClientRequest) : PendingHazard :=
  if request.method = "open" then
    if request.flag "force" false then ⟨request.path, false⟩ else ⟨[], false⟩
  else if request.method = "prefetch" then ⟨request.paths, false⟩
  else if request.method = "grep" then ⟨[], request.flag "hydrate" true⟩
  else if request.method ∈ ["adopt", "flush", "flush_queued"] then ⟨request.path, false⟩
  else if request.method ∈ ["accept_local_conflict", "accept_remote_conflict"] then ⟨[], true⟩
  else if request.method ∈ ["recover_local_edits", "flush_queue"] then ⟨[], !request.background⟩
  else ⟨[], false⟩

/-- `RequestInterest::for_request` -/
def RequestInterest.forRequest (request : ClientRequest) : RequestInterest :=
  if request.method ∈ ["open", "validate"] then ⟨request.path, false⟩
  else if request.method = "prefetch" then ⟨request.paths, false⟩
  else if request.method = "grep" then ⟨[], request.flag "hydrate" true⟩
  else if request.method ∈ ["git_status", "git_diff"] then ⟨[], true⟩
  else if request.method = "git_blame" then ⟨request.path, false⟩
  else ⟨[], false⟩

namespace RequestInterest

def hasContentInterest (interest : RequestInterest) : Bool :=
  interest.unknownContent || !interest.exactPaths.isEmpty

end RequestInterest

/-- `PendingHazard::conflicts_with_interest` -/
def PendingHazard.conflictsWithInterest (hazard : PendingHazard) (interest : RequestInterest) :
    Bool :=
  if hazard.unknownContentMutation && interest.hasContentInterest then true
  else if interest.unknownContent then
    hazard.unknownContentMutation || !hazard.exactPaths.isEmpty
  else hazard.exactPaths.any fun path => interest.exactPaths.any fun other => other = path

/-! ### The table of pending hazards -/

structure PendingRemote where
  exactPaths : List String
  unknownContentMutations : ℕ

namespace PendingRemote

def new : PendingRemote := ⟨[], 0⟩

def register (pending : PendingRemote) (hazard : PendingHazard) : PendingRemote where
  exactPaths := hazard.exactPaths ++ pending.exactPaths
  unknownContentMutations :=
    pending.unknownContentMutations + if hazard.unknownContentMutation then 1 else 0

def clear (pending : PendingRemote) (hazard : PendingHazard) : PendingRemote where
  exactPaths := pending.exactPaths.diff hazard.exactPaths
  unknownContentMutations :=
    pending.unknownContentMutations - if hazard.unknownContentMutation then 1 else 0

/-- The loop over several works. -/
def clearAll (pending : PendingRemote) (hazards : List PendingHazard) : PendingRemote :=
  hazards.foldl clear pending

def blocksPath (pending : PendingRemote) (path : String) : Bool :=
  0 < pending.unknownContentMutations || path ∈ pending.exactPaths

def conflictsWithInterest (pending : PendingRemote) (interest : RequestInterest) : Bool :=
  if interest.hasContentInterest = false then false
  else if interest.unknownContent then
    0 < pending.unknownContentMutations || !pending.exactPaths.isEmpty
  else
    0 < pending.unknownContentMutations ||
      interest.exactPaths.any fun path => path ∈ pending.exactPaths

end PendingRemote

/-! ### Lanes and priorities -/

inductive RemoteLane
  | read
  | write
  deriving DecidableEq

inductive RemotePriority
  | interactive
  | background
  deriving DecidableEq

namespace RemoteLane

/-- `RemoteLane::for_request` -/
def forRequest (request : ClientRequest) (pendingWrites : PendingRemote) : RemoteLane :=
  if request.isWriteLane then .write
  else if request.continuesGrep then .read
  else if pendingWrites.conflictsWithInterest (RequestInterest.forRequest request) then .write
  else .read

def label : RemoteLane → String
  | .read => "read"
  | .write => "write"

end RemoteLane

namespace RemotePriority

/-- `RemotePriority::for_request` -/
def forRequest (request : ClientRequest) : RemotePriority :=
  if request.method ∈ ["prefetch", "prefetch_known", "prefetch_related", "refresh", "scan",
      "remote_probe"] then .background
  else if request.method ∈ ["recover_local_edits", "flush_queue"] ∧ request.background then
    .background
  else .interactive

def label : RemotePriority → String
  | .interactive => "interactive"
  | .background => "background"

end RemotePriority

/-! ### The table of a list of hazards -/

namespace PendingRemote

variable {pending : PendingRemote} {hazard : PendingHazard} {hazards hazards' : List PendingHazard}

/-- **The table counts the paths and the unknown mutations of some hazards.** -/
structure Counts (pending : PendingRemote) (hazards : List PendingHazard) : Prop where
  exactPaths : pending.exactPaths.Perm (hazards.flatMap PendingHazard.exactPaths)
  unknown : pending.unknownContentMutations =
    hazards.countP fun hazard => hazard.unknownContentMutation

theorem append_diff_self (cleared rest : List String) : (cleared ++ rest).diff cleared = rest := by
  induction cleared with
  | nil => rfl
  | cons path cleared ih => rw [List.cons_append, List.diff_cons, List.erase_cons_head, ih]

theorem Counts.new : Counts new [] := ⟨List.Perm.refl _, rfl⟩

theorem Counts.perm (h : Counts pending hazards) (p : hazards.Perm hazards') :
    Counts pending hazards' where
  exactPaths := h.exactPaths.trans (p.flatMap_right _)
  unknown := h.unknown.trans (p.countP_eq _)

theorem Counts.register (h : Counts pending hazards) (hazard : PendingHazard) :
    Counts (pending.register hazard) (hazard :: hazards) where
  exactPaths := h.exactPaths.append_left hazard.exactPaths
  unknown := by
    rw [List.countP_cons, PendingRemote.register, h.unknown]

theorem Counts.clear (h : Counts pending (hazard :: hazards)) :
    Counts (pending.clear hazard) hazards where
  exactPaths := by
    have rest := h.exactPaths.diff_right hazard.exactPaths
    rw [List.flatMap_cons, append_diff_self] at rest
    exact rest
  unknown := by
    rw [PendingRemote.clear, h.unknown, List.countP_cons]
    exact Nat.add_sub_cancel _ _

theorem Counts.clearAll : ∀ (cleared : List PendingHazard) (pending : PendingRemote),
    Counts pending (cleared ++ hazards) → Counts (pending.clearAll cleared) hazards
  | [], _, h => h
  | _ :: cleared, _, h => Counts.clearAll cleared _ h.clear

theorem Counts.blocksPath_iff (h : Counts pending hazards) (path : String) :
    pending.blocksPath path = true ↔
    ∃ hazard ∈ hazards, hazard.unknownContentMutation = true ∨ path ∈ hazard.exactPaths := by
  simp [blocksPath, h.unknown, h.exactPaths.mem_iff, and_or_left, exists_or]

/-- **A conflict with one of the hazards is a conflict with the table.** -/
theorem Counts.conflicts (h : Counts pending hazards) (mem : hazard ∈ hazards)
    {interest : RequestInterest} (conflict : hazard.conflictsWithInterest interest = true) :
    pending.conflictsWithInterest interest = true := by
  have paths : ∀ path ∈ hazard.exactPaths, path ∈ pending.exactPaths := by
    intro path inHazard
    rw [h.exactPaths.mem_iff, List.mem_flatMap]
    exact ⟨hazard, mem, inHazard⟩
  have unknown : hazard.unknownContentMutation = true → 0 < pending.unknownContentMutations := by
    intro isUnknown
    rw [h.unknown, List.countP_pos_iff]
    exact ⟨hazard, mem, isUnknown⟩
  unfold PendingHazard.conflictsWithInterest at conflict
  unfold PendingRemote.conflictsWithInterest
  split at conflict
  · -- an unknown mutation meets any interest
    rename_i both
    rw [Bool.and_eq_true] at both
    simp [both.2, unknown both.1]
  split at conflict
  · rename_i anyPath
    have interested : interest.hasContentInterest = true := by
      simp [RequestInterest.hasContentInterest, anyPath]
    rcases Bool.or_eq_true_iff.mp conflict with isUnknown | some_path
    · simp [interested, anyPath, unknown isUnknown]
    · have nonempty : pending.exactPaths ≠ [] := by
        obtain ⟨path, inHazard⟩ :=
          List.exists_mem_of_ne_nil hazard.exactPaths (by simpa using some_path)
        exact List.ne_nil_of_mem (paths path inHazard)
      simp [interested, anyPath, nonempty]
  · rename_i onlyPaths
    obtain ⟨path, inHazard, other⟩ := List.any_eq_true.mp conflict
    obtain ⟨path', inInterest, same⟩ := List.any_eq_true.mp other
    cases of_decide_eq_true same
    have interested : interest.hasContentInterest = true := by
      simp [RequestInterest.hasContentInterest, List.ne_nil_of_mem inInterest]
    have found : (interest.exactPaths.any fun path => path ∈ pending.exactPaths) = true :=
      List.any_eq_true.mpr ⟨path, inInterest, decide_eq_true (paths path inHazard)⟩
    rw [if_neg (by simp [interested]), if_neg onlyPaths, found, Bool.or_true]

end PendingRemote

/-- A save that some other request has to wait for is interactive. -/
theorem interactive_of_conflicts {request : ClientRequest} (save : request.isWriteLane = true)
    {interest : RequestInterest}
    (conflict : (PendingHazard.forRequest request).conflictsWithInterest interest = true) :
    RemotePriority.forRequest request = .interactive := by
  obtain ⟨id, method, params⟩ := request
  simp only [ClientRequest.isWriteLane, decide_eq_true_eq, List.mem_cons, List.not_mem_nil,
    or_false] at save
  have idle : (⟨[], false⟩ : PendingHazard).conflictsWithInterest interest = false := by
    simp [PendingHazard.conflictsWithInterest]
  -- in the background, the two requests that replay saves declare no hazard
  rcases save with rfl | rfl | rfl | rfl | rfl | rfl | rfl | rfl | rfl
  all_goals simp [RemotePriority.forRequest, PendingHazard.forRequest] at conflict ⊢
  case inl | inr.inr.inr.inr.inl =>
    by_contra background
    simp only [Bool.not_eq_false] at background
    rw [background] at conflict
    simp [idle] at conflict

end RemoteMirror.Lanes
