/-
**What a fetch works on: the network, the cache, the clock.**

`crates/nrm-registry/src/fetch.rs` gets a release over the network or from a local registry and
keeps it in a cache of two directories.  A fetch has one deadline, which it checks before and after
every call to the operating system; once the deadline has passed, every further check fails.  The
network answers what it likes, every call can fail, and the cache can hold anything when a fetch
starts: entries can have been altered, and they need not be regular files.  The cache is locked, so
that nobody else changes it meanwhile.

What the fetch asks about URLs are the fields of `Urls`, parameters of the model: the parsing of the
`url` crate, and the repository's own `sibling_url`, `signature_url`, `artifact_url`,
`resolve_redirect` and `redacted_url`.  Sizes are natural numbers.

Main definitions:

* `Registry.CacheDisk`, `Registry.FetchWorld` — the cache, the clock, and what
  was heard;
* `Registry.FetchCall`, `Registry.answer` — the calls and their answers;
* `Registry.FetchError`, `Registry.FetchError.isCacheFallbackEligible`.

Main results:

* `Registry.answer_bytes` — other calls than making, writing and renaming leave the bytes of files,
  and what entries there are stand for;
* `Registry.answer_pair` — calls about the artifact tell nothing about the manifest and its
  signatures.
-/

import RemoteMirror.Interact
import RemoteMirror.RegistryTrust

namespace RemoteMirror.Registry

/-! ### The cache -/

inductive CacheDir
  | artifacts
  | manifests
  deriving DecidableEq, Repr

/-- A file in one of the directories of the cache. -/
structure CacheName where
  dir : CacheDir
  name : String
  deriving DecidableEq, Repr

/-- What lies under a name; links and directories are not regular files. -/
inductive CacheNode
  | file (inode : ℕ)
  | irregular
  deriving DecidableEq, Repr

structure CacheFile where
  bytes : List UInt8
  modified : ℕ
  deriving DecidableEq, Repr

/-- The two directories.  Several names can stand for one file; `next` does not exist yet. -/
structure CacheDisk where
  entries : List (CacheName × CacheNode)
  file : ℕ → CacheFile
  next : ℕ
  distinct : (entries.map Prod.fst).Nodup
  lt : ∀ {name inode}, (name, CacheNode.file inode) ∈ entries → inode < next

namespace CacheDisk

def node (disk : CacheDisk) (name : CacheName) : Option CacheNode := disk.entries.lookup name

/-- A name is taken away. -/
def remove (disk : CacheDisk) (name : CacheName) : CacheDisk :=
  { disk with
    entries := disk.entries.filter fun entry => entry.1 ≠ name
    distinct := disk.distinct.sublist (List.filter_sublist.map Prod.fst)
    lt := fun h => disk.lt (List.mem_filter.1 h).1 }

/-- A name now stands for this file. -/
def link (disk : CacheDisk) (name : CacheName) (inode : ℕ) : CacheDisk :=
  { disk with
    entries := (name, .file inode) :: (disk.remove name).entries
    next := max disk.next (inode + 1)
    distinct := by
      refine List.nodup_cons.2 ⟨?_, (disk.remove name).distinct⟩
      intro h
      obtain ⟨entry, hentry, hname⟩ := List.mem_map.1 h
      exact of_decide_eq_true (List.mem_filter.1 hentry).2 hname
    lt := by
      intro n i h
      rcases List.mem_cons.1 h with h | h
      · cases h
        omega
      · have := (disk.remove name).lt h
        exact Nat.lt_of_lt_of_le this (Nat.le_max_left _ _) }

/-- A new, empty file. -/
def create (disk : CacheDisk) (name : CacheName) (now : ℕ) : CacheDisk :=
  { disk.link name disk.next with
    file := Function.update disk.file disk.next ⟨[], now⟩ }

/-- Bytes are added at the end of a file. -/
def append (disk : CacheDisk) (inode : ℕ) (bytes : List UInt8) : CacheDisk :=
  let file := disk.file inode
  { disk with
    file := Function.update disk.file inode ⟨file.bytes ++ bytes, file.modified⟩ }

/-- The second name now stands for what the first one stood for. -/
def rename (disk : CacheDisk) (source target : CacheName) : CacheDisk :=
  match disk.node source with
  | some (.file inode) => (disk.remove source).link target inode
  | _ => disk

def setModified (disk : CacheDisk) (inode now : ℕ) : CacheDisk :=
  { disk with file := Function.update disk.file inode ⟨(disk.file inode).bytes, now⟩ }

end CacheDisk

/-! ### Errors -/

/-- `io::ErrorKind`, as far as it is looked at -/
inductive IoErrorKind
  | notFound
  | alreadyExists
  | wouldBlock
  | interrupted
  | timedOut
  | connectionAborted
  | connectionRefused
  | connectionReset
  | networkUnreachable
  | hostUnreachable
  | addrNotAvailable
  | notConnected
  | brokenPipe
  | unexpectedEof
  | writeZero
  | invalidData
  | invalidInput
  | other
  deriving DecidableEq, Repr

structure IoError where
  kind : IoErrorKind
  message : String
  deriving DecidableEq, Repr

/-- `ureq::Error`, as far as it is looked at -/
inductive UreqError
  | timeout
  | hostNotFound
  | connectionFailed
  | io (error : IoError)
  | other (message : String)
  deriving DecidableEq, Repr

inductive NetworkFailureKind
  | timeout
  | connection
  | protocol
  deriving DecidableEq, Repr

/-- The kinds of errors of a connection that `network_error` takes for a failed connection. -/
def IoErrorKind.isConnectionFailure : IoErrorKind → Bool
  | .connectionAborted | .connectionRefused | .connectionReset | .networkUnreachable
  | .hostUnreachable | .addrNotAvailable | .notConnected | .brokenPipe | .unexpectedEof => true
  | _ => false

/-- How `network_error` classifies an error. -/
def UreqError.failureKind : UreqError → NetworkFailureKind
  | .timeout => .timeout
  | .hostNotFound => .connection
  | .connectionFailed => .connection
  | .io error =>
    if error.kind = .timedOut then .timeout
    else if error.kind.isConnectionFailure then .connection
    else .protocol
  | .other _ => .protocol

/-- What an error is about. -/
inductive Place
  | root
  | lock
  | directory (dir : CacheDir)
  | entry (name : CacheName)
  /-- a file of a local registry -/
  | registry (path : List String)
  deriving DecidableEq, Repr

inductive UrlPolicyError
  | versionPlaceholderCount
  | unexpectedPlaceholder
  | invalidUrl (message : String)
  | unsupportedScheme (scheme : String)
  | credentials
  | queryOrFragment
  | missingHost
  | localOrPrivateHost
  | fileUrlNotLocalAbsolute
  | missingManifestFilename
  | invalidArtifactFilename (filename : String)
  deriving DecidableEq, Repr

inductive FetchError (Version : Type)
  | urlPolicy (error : UrlPolicyError)
  | verification (error : VerificationError Version)
  | targetNotPublished (target : AgentTarget)
  | invalidTimeout
  | operationDeadline (phase : String)
  | invalidCacheLimit
  | cacheLockTimeout
  | io (operation : String) (path : Place) (source : IoError)
  | network (kind : NetworkFailureKind) (url : String) (source : UreqError)
  | httpStatus (url : String) (status : ℕ)
  | missingRedirectLocation (url : String)
  | tooManyRedirects (max : ℕ)
  | redirectPolicy (source target reason : String)
  | bodyTooLarge (kind url : String) (max : ℕ)
  | artifactSize (filename : String) (expected actual : ℕ)
  | artifactDigest (filename expected actual : String)
  | fileArtifactEscapes (artifact manifestDir : List String)
  | notRegularFile (path : Place)
  | cacheBudget (required max : ℕ)
  | cacheFallbackUnavailable (network cache : String)

def FetchError.isCacheFallbackEligible {Version : Type} : FetchError Version → Bool
  | .network .timeout _ _ => true
  | .network .connection _ _ => true
  | .httpStatus _ status => status == 429 || (500 ≤ status && status ≤ 599)
  | _ => false

/-! ### URLs -/

inductive RedirectPolicyMode
  | production
  | localTest
  deriving DecidableEq, Repr

/-- What a fetch asks about URLs. -/
structure Urls where
  Url : Type
  scheme : Url → String
  /-- `as_str().as_bytes()` -/
  text : Url → List UInt8
  /-- `redacted_url(…).to_string()` -/
  redacted : Url → String
  /-- the components of `to_file_path`, if the URL names a local file -/
  toFilePath : Url → Option (List String)
  /-- `sibling_url` for the signature document -/
  signatureUrl : RedirectPolicyMode → Url → Except UrlPolicyError Url
  /-- `sibling_url` for an artifact -/
  artifactUrl : RedirectPolicyMode → Url → String → Except UrlPolicyError Url
  /-- `resolve_redirect`, or the source, the target and the reason of a refusal -/
  resolveRedirect : RedirectPolicyMode → Url → String → Except (String × String × String) Url

/-! ### The world of a fetch -/

/-- What a request is for. -/
inductive Part
  | manifest
  | signature
  | artifact
  deriving DecidableEq, Repr

/-- What was heard of the network or of a local registry. -/
inductive NetworkEvent
  | failed (part : Part) (error : UreqError)
  | answered (part : Part) (status : ℕ)
  /-- the end of a document was reached, after these bytes -/
  | received (part : Part) (bytes : List UInt8)
  deriving DecidableEq, Repr

def NetworkEvent.part : NetworkEvent → Part
  | .failed part _ => part
  | .answered part _ => part
  | .received part _ => part

structure FetchWorld where
  disk : CacheDisk
  /-- files under a shared lock -/
  leases : List ℕ
  /-- the deadline has passed -/
  expired : Bool
  now : ℕ
  /-- `TEMP_FILE_SEQUENCE` -/
  sequence : ℕ
  /-- what has been read of the document so far -/
  body : List UInt8
  /-- newest first -/
  log : List NetworkEvent

structure ResponseHead where
  status : ℕ
  location : Option String
  contentLength : Option ℕ
  deriving DecidableEq, Repr

/-- What the metadata of a file say. -/
structure Metadata where
  isFile : Bool
  len : ℕ
  modified : ℕ
  deriving DecidableEq, Repr

inductive FetchCall (Url : Type)
  /-- `deadline.check`: is there still time? -/
  | deadline
  | createDirAll (path : Place)
  | openLock
  | tryLockCache
  | symlinkMetadata (name : CacheName)
  | openFile (name : CacheName)
  | read (inode offset limit : ℕ)
  | seekStart
  /-- `TEMP_FILE_SEQUENCE.fetch_add(1)` -/
  | nextSequence
  | createNew (name : CacheName)
  | write (inode : ℕ) (bytes : List UInt8)
  | syncAll
  | rename (source target : CacheName)
  | syncDirectory
  | removeFile (name : CacheName)
  /-- opening for `set_times`, which follows links -/
  | openWrite (name : CacheName)
  | setTimes (inode : ℕ)
  | isFile (name : CacheName)
  | readDir (dir : CacheDir)
  | openReadWrite (name : CacheName)
  | tryLock (inode : ℕ)
  | tryLockShared (inode : ℕ)
  | unlock (inode : ℕ)
  | request (part : Part) (url : Url)
  /-- the next bytes of the document that was requested or opened last -/
  | readBody (part : Part) (limit : ℕ)
  -- a registry of local files
  | registryMetadata
  | registryOpen
  | canonicalize
  | sameFileIdentity

variable {Url : Type}

/-- What each call answers. -/
def Ans : FetchCall Url → Type
  | .deadline => Bool
  | .tryLockCache => Except IoError Bool
  | .symlinkMetadata _ => Except IoError Metadata
  | .openFile _ => Except IoError ℕ
  | .read _ _ _ => Except IoError (List UInt8)
  | .nextSequence => ℕ
  | .createNew _ => Except IoError ℕ
  | .write _ _ => Except IoError ℕ
  | .openWrite _ => Except IoError (Option ℕ)
  | .isFile _ => Bool
  | .readDir _ => Except IoError (List (Except IoError (CacheName × Except IoError Metadata)))
  | .openReadWrite _ => Except IoError ℕ
  | .tryLock _ => Except IoError Bool
  | .tryLockShared _ => Except IoError Bool
  | .unlock _ => Unit
  | .request _ _ => Except UreqError ResponseHead
  | .readBody _ _ => Except IoError (List UInt8)
  | .registryMetadata => Except IoError Metadata
  | .canonicalize => Except IoError (List String)
  | .sameFileIdentity => Except IoError Bool
  | _ => Except IoError Unit

/-- What a call leaves open. -/
inductive FetchChoice
  | ok
  | fail (error : IoError)
  /-- the deadline passes -/
  | expire
  | no
  /-- so many bytes, at least one -/
  | count (n : ℕ)
  | bytes (bytes : List UInt8)
  | head (head : ResponseHead)
  | networkError (error : UreqError)
  | metadata (metadata : Metadata)
  | path (path : List String)
  /-- the metadata of these entries cannot be had -/
  | failing (names : List CacheName) (error : IoError)
  /-- so many entries of a directory can be read -/
  | torn (n : ℕ) (error : IoError)
  deriving DecidableEq

namespace FetchWorld

def setDisk (w : FetchWorld) (disk : CacheDisk) : FetchWorld := { w with disk := disk }

def note (w : FetchWorld) (event : NetworkEvent) : FetchWorld := { w with log := event :: w.log }

/-- `symlink_metadata`, which does not follow links -/
def metadata (w : FetchWorld) (name : CacheName) : Option Metadata :=
  (w.disk.node name).map fun node => match node with
    | .file inode => ⟨true, (w.disk.file inode).bytes.length, (w.disk.file inode).modified⟩
    | .irregular => ⟨false, 0, 0⟩

/-- The entries of a directory. -/
def listing (w : FetchWorld) (dir : CacheDir) (failing : List CacheName) (error : IoError) :
    List (Except IoError (CacheName × Except IoError Metadata)) :=
  (w.disk.entries.filter fun entry => entry.1.dir = dir).filterMap fun entry =>
    if failing.contains entry.1 then some (.ok (entry.1, .error error))
    else (w.metadata entry.1).map fun metadata => .ok (entry.1, .ok metadata)

end FetchWorld

def notFound : IoError := ⟨.notFound, "No such file or directory"⟩

/-- An answer that changes nothing. -/
def same {α : Type} (a : α) (w : FetchWorld) : Option (Except IoError α × FetchWorld) :=
  some (.ok a, w)

/-- Opening an entry of the cache. -/
def openEntry (name : CacheName) (w : FetchWorld) : Option (Except IoError ℕ × FetchWorld) :=
  match w.disk.node name with
  | some (.file inode) => same inode w
  | some .irregular => some (.error ⟨.other, "not a regular file"⟩, w)
  | none => some (.error notFound, w)

/-- At most `limit` bytes from an offset on. -/
def readAt (inode offset limit : ℕ) (c : FetchChoice) (w : FetchWorld) :
    Option (Except IoError (List UInt8) × FetchWorld) :=
  match c with
  | .count n =>
    if 0 < n ∧ n ≤ limit then same (((w.disk.file inode).bytes.drop offset).take n) w else none
  | _ => none

/-- What a stream delivers; nothing means that it has ended. -/
def delivered (limit : ℕ) : FetchChoice → Option (List UInt8)
  | .bytes bytes => if bytes.length ≤ limit then some bytes else none
  | _ => none

/-- The next bytes of a body. -/
def readBodyAt (part : Part) (limit : ℕ) (c : FetchChoice) (w : FetchWorld) :
    Option (Except IoError (List UInt8) × FetchWorld) :=
  (delivered limit c).map fun bytes =>
    if bytes = [] then (.ok [], w.note (.received part w.body))
    else (.ok bytes, { w with body := w.body ++ bytes })

/-- Once the deadline has passed, there is no more time. -/
def stillTime (c : FetchChoice) (w : FetchWorld) : Option (Bool × FetchWorld) :=
  if w.expired ∨ c = .expire then some (false, { w with expired := true }) else some (true, w)

def metadataOf (name : CacheName) (w : FetchWorld) :
    Option (Except IoError Metadata × FetchWorld) :=
  match w.metadata name with
  | some metadata => same metadata w
  | none => some (.error notFound, w)

/-- `create_new` -/
def createEntry (name : CacheName) (w : FetchWorld) : Option (Except IoError ℕ × FetchWorld) :=
  match w.disk.node name with
  | some _ => some (.error ⟨.alreadyExists, "File exists"⟩, w)
  | none => some (.ok w.disk.next, w.setDisk (w.disk.create name w.now))

/-- Some of the bytes are written. -/
def writeTo (inode : ℕ) (bytes : List UInt8) (c : FetchChoice) (w : FetchWorld) :
    Option (Except IoError ℕ × FetchWorld) :=
  match c with
  | .count n =>
    if n ≤ bytes.length then some (.ok n, w.setDisk (w.disk.append inode (bytes.take n)))
    else none
  | _ => none

def removeEntry (name : CacheName) (w : FetchWorld) : Option (Except IoError Unit × FetchWorld) :=
  match w.disk.node name with
  | some _ => some (.ok (), w.setDisk (w.disk.remove name))
  | none => some (.error notFound, w)

/-- A link leads out of the cache. -/
def openForTimes (name : CacheName) (w : FetchWorld) :
    Option (Except IoError (Option ℕ) × FetchWorld) :=
  match w.disk.node name with
  | some (.file inode) => same (some inode) w
  | some .irregular => same none w
  | none => some (.error notFound, w)

/-- `Path::is_file` follows links. -/
def isFileAt (name : CacheName) (c : FetchChoice) (w : FetchWorld) : Option (Bool × FetchWorld) :=
  match w.disk.node name with
  | some (.file _) => some (true, w)
  | some .irregular => some (decide (c ≠ .no), w)
  | none => some (false, w)

def listed (dir : CacheDir) (c : FetchChoice) (w : FetchWorld) :
    Option (Except IoError (List (Except IoError (CacheName × Except IoError Metadata))) ×
      FetchWorld) :=
  match c with
  | .failing names error => same (w.listing dir names error) w
  | .torn n error => same ((w.listing dir [] error).take n ++ [.error error]) w
  | _ => none

/-- A shared lock is granted, or somebody holds an exclusive one. -/
def lockShared (inode : ℕ) (c : FetchChoice) (w : FetchWorld) :
    Option (Except IoError Bool × FetchWorld) :=
  if c = .no then same false w else same true { w with leases := inode :: w.leases }

def responded (part : Part) (c : FetchChoice) (w : FetchWorld) :
    Option (Except UreqError ResponseHead × FetchWorld) :=
  match c with
  | .head head => some (.ok head, { w.note (.answered part head.status) with body := [] })
  | .networkError error => some (.error error, w.note (.failed part error))
  | _ => none

/-- Metadata of a file of a registry. -/
def registryMetadataOf (c : FetchChoice) (w : FetchWorld) :
    Option (Except IoError Metadata × FetchWorld) :=
  match c with
  | .metadata metadata => same metadata w
  | _ => none

def canonicalized (c : FetchChoice) (w : FetchWorld) :
    Option (Except IoError (List String) × FetchWorld) :=
  match c with
  | .path path => same path w
  | _ => none

/-- A call that does not fail for a reason of its own. -/
def succeed (e : FetchCall Url) (c : FetchChoice) (w : FetchWorld) : Option (Ans e × FetchWorld) :=
  match e with
  | .deadline => stillTime c w
  | .createDirAll _ => same () w
  | .openLock => same () w
  | .tryLockCache => same (decide (c ≠ .no)) w
  | .symlinkMetadata name => metadataOf name w
  | .openFile name => openEntry name w
  | .read inode offset limit => readAt inode offset limit c w
  | .seekStart => same () w
  | .nextSequence => some (w.sequence, { w with sequence := w.sequence + 1 })
  | .createNew name => createEntry name w
  | .write inode bytes => writeTo inode bytes c w
  | .syncAll => same () w
  | .rename source target => same () (w.setDisk (w.disk.rename source target))
  | .syncDirectory => same () w
  | .removeFile name => removeEntry name w
  | .openWrite name => openForTimes name w
  | .setTimes inode => same () (w.setDisk (w.disk.setModified inode w.now))
  | .isFile name => isFileAt name c w
  | .readDir dir => listed dir c w
  | .openReadWrite name => openEntry name w
  | .tryLock inode => same (!w.leases.contains inode && decide (c ≠ .no)) w
  | .tryLockShared inode => lockShared inode c w
  | .unlock inode => some ((), { w with leases := w.leases.erase inode })
  | .request part _ => responded part c w
  | .readBody part limit => readBodyAt part limit c w
  | .registryMetadata => registryMetadataOf c w
  | .registryOpen => same () { w with body := [] }
  | .canonicalize => canonicalized c w
  | .sameFileIdentity => same (decide (c ≠ .no)) w

/-- What is left behind when a call fails; an interrupted read is no failure of the network. -/
def failed (part : Part) (error : IoError) (w : FetchWorld) : FetchWorld :=
  if error.kind = .interrupted then w else w.note (.failed part (.io error))

/-- A call that fails with this error. -/
def failWith (e : FetchCall Url) (error : IoError) (w : FetchWorld) : Option (Ans e × FetchWorld) :=
  match e with
  | .deadline => none
  | .isFile _ => some (false, w)
  | .nextSequence => none
  | .unlock _ => none
  | .request _ _ => none
  | .readBody part _ => some (.error error, failed part error w)
  | .createDirAll _ | .openLock | .tryLockCache | .symlinkMetadata _ | .openFile _ | .read _ _ _
  | .seekStart | .createNew _ | .write _ _ | .syncAll | .rename _ _ | .syncDirectory
  | .removeFile _ | .openWrite _ | .setTimes _ | .readDir _ | .openReadWrite _ | .tryLock _
  | .tryLockShared _ | .registryMetadata | .registryOpen | .canonicalize
  | .sameFileIdentity => some (.error error, w)

/-- The answer to a call. -/
def answer (e : FetchCall Url) (c : FetchChoice) (w : FetchWorld) : Option (Ans e × FetchWorld) :=
  match c with
  | .fail error => failWith e error w
  | _ => succeed e c w

/-! ### What calls leave alone -/

/-- Files have the bytes they had, and no entry is new; some can be gone. -/
structure SameBytes (w u : FetchWorld) : Prop where
  bytes : ∀ inode, (u.disk.file inode).bytes = (w.disk.file inode).bytes
  entries : u.disk.entries ⊆ w.disk.entries

theorem SameBytes.refl (w : FetchWorld) : SameBytes w w := ⟨fun _ => rfl, List.Subset.refl _⟩

theorem SameBytes.trans {w u v : FetchWorld} (h : SameBytes w u) (h' : SameBytes u v) :
    SameBytes w v :=
  ⟨fun inode => (h'.bytes inode).trans (h.bytes inode), List.Subset.trans h'.entries h.entries⟩

/-- The calls that neither make nor write nor rename a file. -/
def FetchCall.reads : FetchCall Url → Bool
  | .createNew _ | .write _ _ | .rename _ _ => false
  | _ => true

/-- Nothing new was heard but events of one kind. -/
def News (S : NetworkEvent → Prop) (w u : FetchWorld) : Prop :=
  w.log ⊆ u.log ∧ ∀ event ∈ u.log, event ∈ w.log ∨ S event

namespace News

variable {S S' : NetworkEvent → Prop} {w u v : FetchWorld}

theorem of_log (h : u.log = w.log) : News S w u :=
  ⟨h ▸ List.Subset.refl _, fun _ he => .inl (h ▸ he)⟩

theorem trans (h : News S w u) (h' : News S u v) : News S w v := by
  refine ⟨List.Subset.trans h.1 h'.1, fun event he => ?_⟩
  rcases h'.2 event he with he | he
  · exact h.2 event he
  · exact .inr he

theorem mono (h : News S w u) (hS : ∀ event, S event → S' event) : News S' w u :=
  ⟨h.1, fun event he => (h.2 event he).imp_right (hS event)⟩

theorem cons {event : NetworkEvent} (hlog : u.log = event :: w.log) (h : S event) : News S w u := by
  refine ⟨hlog ▸ List.subset_cons_self _ _, fun event' he => ?_⟩
  rw [hlog] at he
  rcases List.mem_cons.1 he with rfl | he
  · exact .inr h
  · exact .inl he

end News

/-- The calls that ask for neither the manifest nor its signatures. -/
def FetchCall.offPair : FetchCall Url → Bool
  | .request part _ => part = .artifact
  | .readBody part _ => part = .artifact
  | _ => true

variable {e : FetchCall Url} {c : FetchChoice} {w u : FetchWorld} {r : Ans e}

theorem answer_cases (h : answer e c w = some (r, u)) :
    (∃ error, c = .fail error ∧ failWith e error w = some (r, u)) ∨
      succeed e c w = some (r, u) := by
  cases c with
  | fail error => exact .inl ⟨error, rfl, h⟩
  | _ => exact .inr h

/-- The calls that leave the cache and what was heard as they are. -/
def FetchCall.looks : FetchCall Url → Bool
  | .createNew _ | .write _ _ | .rename _ _ | .removeFile _ | .setTimes _ | .request _ _
  | .readBody _ _ => false
  | _ => true

/-- Neither the cache nor what was heard has changed. -/
def Looked (w u : FetchWorld) : Prop := u.disk = w.disk ∧ u.log = w.log

theorem readAt_eq {inode offset limit : ℕ} {r : Except IoError (List UInt8)}
    (h : readAt inode offset limit c w = some (r, u)) :
    u = w ∧ ∃ n, 0 < n ∧ n ≤ limit ∧ r = .ok (((w.disk.file inode).bytes.drop offset).take n) := by
  unfold readAt same at h
  split at h
  case h_1 n =>
    split at h
    case isTrue hn =>
      cases h
      exact ⟨rfl, n, hn.1, hn.2, rfl⟩
    case isFalse => cases h
  case h_2 => cases h

/-- A failed call changes nothing, unless it was to read a body. -/
theorem failWith_looked {error : IoError} (he : e.looks = true)
    (h : failWith e error w = some (r, u)) : Looked w u := by
  cases e <;> try (cases he; done)
  all_goals
    cases h
    try exact ⟨rfl, rfl⟩

theorem succeed_looked (he : e.looks = true) (h : succeed e c w = some (r, u)) : Looked w u := by
  cases e with
  | deadline | symlinkMetadata name | openFile name | openReadWrite name | openWrite name
  | isFile name | readDir dir
  | tryLockShared inode | registryMetadata | canonicalize =>
    -- whichever way it ends, it ends in the world it began in, but for the clock and the leases
    simp only [succeed, stillTime, metadataOf, openEntry, openForTimes, isFileAt, listed,
      lockShared, registryMetadataOf, canonicalized, same] at h
    split at h <;> cases h <;> exact ⟨rfl, rfl⟩
  | read inode offset limit =>
    rw [(readAt_eq h).1]
    exact ⟨rfl, rfl⟩
  | createDirAll path | openLock | tryLockCache | seekStart | syncAll | syncDirectory
  | tryLock inode
  | sameFileIdentity | nextSequence | unlock inode | registryOpen =>
    cases h
    exact ⟨rfl, rfl⟩
  | createNew _ | write _ _ | rename _ _ | removeFile _ | setTimes _ | request _ _ | readBody _ _ =>
    cases he

theorem answer_looks (he : e.looks = true) (h : answer e c w = some (r, u)) : Looked w u := by
  obtain ⟨error, _, h⟩ | h := answer_cases h
  · exact failWith_looked he h
  · exact succeed_looked he h

/-! ### Calls that change the cache -/

def FetchCall.changes : FetchCall Url → Bool
  | .createNew _ | .write _ _ | .rename _ _ | .removeFile _ | .setTimes _ => true
  | _ => false

/-- They change the cache only, and unless they make, write or rename a file, no bytes and no entry
that stays. -/
theorem answer_changes (he : e.changes = true) (h : answer e c w = some (r, u)) :
    ∃ disk, u = w.setDisk disk ∧ (e.reads = true → SameBytes w u) := by
  obtain ⟨error, _, h⟩ | h := answer_cases h
  · cases e <;> cases he <;> cases h <;> exact ⟨w.disk, rfl, fun _ => SameBytes.refl w⟩
  cases e <;> try (cases he; done)
  case createNew name =>
    simp only [succeed, createEntry] at h
    split at h <;> cases h
    · exact ⟨w.disk, rfl, nofun⟩
    · exact ⟨_, rfl, nofun⟩
  case write inode bytes =>
    simp only [succeed, writeTo] at h
    split at h
    case h_1 n =>
      split at h <;> cases h
      exact ⟨_, rfl, nofun⟩
    case h_2 => cases h
  case rename source target =>
    cases h
    exact ⟨_, rfl, nofun⟩
  case removeFile name =>
    simp only [succeed, removeEntry] at h
    split at h <;> cases h
    · exact ⟨_, rfl, fun _ => ⟨fun _ => rfl, List.filter_subset_self _⟩⟩
    · exact ⟨w.disk, rfl, fun _ => SameBytes.refl w⟩
  case setTimes inode _ =>
    cases h
    refine ⟨_, rfl, fun _ => ⟨fun i => ?_, List.Subset.refl _⟩⟩
    show (Function.update w.disk.file inode ⟨(w.disk.file inode).bytes, w.now⟩ i).bytes = _
    by_cases hi : i = inode
    · subst hi
      simp
    · rw [Function.update_of_ne hi]

/-! ### The network -/

variable {part : Part}

theorem answer_request {url : Url} {r : Except UreqError ResponseHead}
    (h : answer (.request part url) c w = some (r, u)) :
    (∃ head, r = .ok head ∧ u = { w.note (.answered part head.status) with body := [] }) ∨
    ∃ error, r = .error error ∧ u = w.note (.failed part error) := by
  obtain ⟨error, _, h⟩ | h := answer_cases h
  · cases h
  · simp only [succeed, responded] at h
    split at h <;> cases h
    · exact .inl ⟨_, rfl, rfl⟩
    · exact .inr ⟨_, rfl, rfl⟩

theorem answer_readBody {limit : ℕ} {r : Except IoError (List UInt8)}
    (h : answer (.readBody part limit : FetchCall Url) c w = some (r, u)) :
    (∃ error, r = .error error ∧ u = failed part error w) ∨
    (r = .ok [] ∧ u = w.note (.received part w.body)) ∨
    ∃ bytes, bytes ≠ [] ∧ r = .ok bytes ∧ u = { w with body := w.body ++ bytes } := by
  obtain ⟨error, _, h⟩ | h := answer_cases h
  · cases h
    exact .inl ⟨error, rfl, rfl⟩
  · obtain ⟨bytes, _, hr⟩ := Option.map_eq_some_iff.1 h
    split at hr
    case isTrue hnil =>
      cases hr
      exact .inr (.inl ⟨rfl, rfl⟩)
    case isFalse hne =>
      cases hr
      exact .inr (.inr ⟨bytes, hne, rfl, rfl⟩)

theorem failed_disk (part : Part) (error : IoError) (w : FetchWorld) :
    (failed part error w).disk = w.disk := by
  unfold failed
  split <;> rfl

/-! ### What stays -/

theorem SameBytes.of_disk (h : u.disk = w.disk) : SameBytes w u :=
  ⟨fun _ => by rw [h], by rw [h]; exact List.Subset.refl _⟩

/-- **Only making, writing and renaming a file changes the bytes of files and adds entries.** -/
theorem answer_bytes (he : e.reads = true) (h : answer e c w = some (r, u)) : SameBytes w u := by
  by_cases hlooks : e.looks = true
  · exact SameBytes.of_disk (answer_looks hlooks h).1
  cases e <;> try (exact absurd rfl hlooks)
  case createNew | write | rename => cases he
  case removeFile | setTimes =>
    obtain ⟨_, _, hbytes⟩ := answer_changes rfl h
    exact hbytes rfl
  case request part url =>
    rcases answer_request h with ⟨head, _, rfl⟩ | ⟨error, _, rfl⟩ <;> exact SameBytes.of_disk rfl
  case readBody part limit =>
    rcases answer_readBody h with ⟨error, _, rfl⟩ | ⟨_, rfl⟩ | ⟨bytes, _, _, rfl⟩
    · exact SameBytes.of_disk (failed_disk part error w)
    · exact SameBytes.of_disk rfl
    · exact SameBytes.of_disk rfl

theorem news_failed {S : NetworkEvent → Prop} (part : Part) (error : IoError) (w : FetchWorld)
    (h : error.kind ≠ .interrupted → S (.failed part (.io error))) :
    News S w (failed part error w) := by
  unfold failed
  split
  case isTrue => exact .of_log rfl
  case isFalse hkind => exact .cons rfl (h hkind)

/-- **Calls about the artifact tell nothing about the manifest and its signatures.** -/
theorem answer_pair (he : e.offPair = true) (h : answer e c w = some (r, u)) :
    News (fun event => event.part = .artifact) w u := by
  by_cases hlooks : e.looks = true
  · exact .of_log (answer_looks hlooks h).2
  cases e <;> try (exact absurd rfl hlooks)
  case createNew | write | rename | removeFile | setTimes =>
    obtain ⟨_, rfl, _⟩ := answer_changes rfl h
    exact .of_log rfl
  case request part url =>
    have hpart : part = .artifact := of_decide_eq_true he
    rcases answer_request h with ⟨head, _, rfl⟩ | ⟨error, _, rfl⟩
    · exact .cons rfl hpart
    · exact .cons rfl hpart
  case readBody part limit =>
    have hpart : part = .artifact := of_decide_eq_true he
    rcases answer_readBody h with ⟨error, _, rfl⟩ | ⟨_, rfl⟩ | ⟨bytes, _, _, rfl⟩
    · exact news_failed part error w fun _ => hpart
    · exact .cons rfl hpart
    · exact .of_log rfl

end RemoteMirror.Registry
