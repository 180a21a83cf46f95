/-
**Fetching a verified agent.**

`fetch_verified_artifact_inner` of `crates/nrm-registry/src/fetch.rs`: get the manifest and its
signatures, from the network or from a local registry; if the network fails in certain ways, take
the pair in the cache instead; verify the pair; then look for the artifact in the cache, download it
if it is not there, and hand out an open file whose bytes were hashed last.

Loops that the deadline ends are bounded by `fuel`: when it runs out, the deadline has passed.

Main definitions:

* `Registry.retrieveManifestPair`, `Registry.recoverCachedManifestPair`;
* `Registry.openVerifiedCachedArtifact`, `Registry.installArtifactReader`;
* `Registry.evictToBudget` — the cache is kept within its limit;
* `Registry.fetchVerifiedArtifactInner` — the whole fetch.
-/

import RemoteMirror.RegistryCache

namespace RemoteMirror.Registry

open Interact (Prog)

def maxRedirects : ℕ := 5

def copyBufferBytes : ℕ := 64 * 1024

/-- Third-party code, and how errors read. -/
structure FetchEnv extends Packages where
  urls : Urls
  showError : FetchError Version → String
  /-- the identifier of the process, for the names of temporary files -/
  process : String

variable (env : FetchEnv)

/-- Functions of a fetch. -/
abbrev FetchM := Prog (FetchCall env.urls.Url) Ans (FetchError env.Version)

structure FetchConfig where
  manifestUrl : env.urls.Url
  target : AgentTarget
  expectedVersion : env.Version
  expectedProtocolVersion : ℕ
  trustedKeys : TrustedKeySet env.toPackages
  signatureThreshold : ℕ
  cacheMaxBytes : ℕ
  timeout : ℕ

inductive ArtifactSource
  | network
  | file
  | cache
  deriving DecidableEq, Repr

inductive ManifestSource
  | network
  | file
  | verifiedCacheFallback
  deriving DecidableEq, Repr

structure CacheState where
  manifestFallback : Bool
  artifactHit : Bool
  deriving DecidableEq, Repr

structure FetchedArtifact where
  localPath : CacheName
  sha256 : String
  source : ArtifactSource
  manifestSource : ManifestSource
  cacheState : CacheState
  verifiedManifest : VerifiedManifest env.Version
  artifact : Artifact
  /-- the open file -/
  artifactLease : ℕ

section Functions

variable {env}

/-! ### Calls with a deadline -/

def call (e : FetchCall env.urls.Url) : FetchM env (Ans e) := Prog.ask e

/-- `deadline.check(phase)?` -/
def check (phase : String) : FetchM env Unit := do
  let time : Bool ← call .deadline
  if time then pure () else .err (.operationDeadline phase)

/-- The result of a call, or the error the fetch ends with. -/
def orElse {α : Type} (onError : IoError → FetchError env.Version) : Except IoError α → FetchM env α
  | .ok a => pure a
  | .error error => .err (onError error)

def ioError (operation : String) (path : Place) (source : IoError) : FetchError env.Version :=
  .io operation path source

def networkError (url : env.urls.Url) (source : UreqError) : FetchError env.Version :=
  .network source.failureKind (env.urls.redacted url) source

/-! ### Reading -/

/-- The loop of `read_bounded`, `read_file_url_bounded` and `read_cache_file`: `remaining` more
bytes are read at most. -/
def readUpTo (read : ℕ → ℕ → FetchM env (Except IoError (List UInt8))) (phase : String)
    (onError : IoError → FetchError env.Version) : ℕ → List UInt8 → ℕ → FetchM env (List UInt8)
  | 0, _, _ => .err (.operationDeadline phase)
  | fuel + 1, bytes, remaining =>
    if remaining = 0 then pure bytes
    else do
      check phase
      let chunk ← read bytes.length (min remaining copyBufferBytes)
      check phase
      match chunk with
      | .error error =>
        if error.kind = .interrupted then readUpTo read phase onError fuel bytes remaining
        else .err (onError error)
      | .ok [] => pure bytes
      | .ok (byte :: more) =>
        readUpTo read phase onError fuel (bytes ++ byte :: more)
          (remaining - (byte :: more).length)

/-- A document is read from its beginning. -/
def readDocument (part : Part) (_offset limit : ℕ) : FetchM env (Except IoError (List UInt8)) :=
  call (.readBody part limit)

def readBounded (fuel : ℕ) (part : Part) (max : ℕ) (kind : String) (url : env.urls.Url) :
    FetchM env (List UInt8) := do
  let bytes ← readUpTo (readDocument part) "network response read"
    (fun error => networkError url (.io error)) fuel [] (max + 1)
  if max < bytes.length then .err (.bodyTooLarge kind (env.urls.redacted url) max)
  else do
    check "network response read"
    pure bytes

def readFileUrlBounded (fuel : ℕ) (part : Part) (url : env.urls.Url) (max : ℕ) (kind : String) :
    FetchM env (List UInt8) := do
  check "file registry read"
  match env.urls.toFilePath url with
  | none => .err (.urlPolicy .fileUrlNotLocalAbsolute)
  | some path => do
      let metadata : Except IoError Metadata ← call .registryMetadata
      check "file registry stat"
      let metadata ← orElse (ioError "stat" (.registry path)) metadata
      if metadata.isFile = false then .err (.notRegularFile (.registry path))
      else if max < metadata.len then .err (.bodyTooLarge kind (env.urls.redacted url) max)
      else do
        let file : Except IoError Unit ← call .registryOpen
        check "file registry open"
        orElse (ioError "open" (.registry path)) file
        let bytes ← readUpTo (readDocument part) "file registry read"
          (ioError "read" (.registry path)) fuel [] (max + 1)
        if max < bytes.length then .err (.bodyTooLarge kind (env.urls.redacted url) max)
        else do
          check "file registry read"
          pure bytes

def readCacheFile (fuel : ℕ) (name : CacheName) (max : ℕ) : FetchM env (List UInt8) := do
  let path := Place.entry name
  let oversized : FetchError env.Version := .io "read oversized cached registry data" path
    ⟨.invalidData, "cache entry exceeds limit"⟩
  check "registry cache read"
  let metadata : Except IoError Metadata ← call (.symlinkMetadata name)
  check "registry cache stat"
  let metadata ← orElse (ioError "stat cached registry data" path) metadata
  if metadata.isFile = false then .err (.notRegularFile path)
  else if max < metadata.len then .err oversized
  else do
    let file : Except IoError ℕ ← call (.openFile name)
    check "registry cache open"
    let file ← orElse (ioError "open cache entry" path) file
    let bytes ← readUpTo (fun offset limit => call (.read file offset limit))
      "registry cache read" (ioError "read cache entry" path) fuel [] (max + 1)
    if max < bytes.length then .err oversized
    else do
      check "registry cache read"
      pure bytes

/-! ### The network -/

/-- The loop of `open_with_redirects`, with the redirects that are left. -/
def openWithRedirects (mode : RedirectPolicyMode) (part : Part) :
    ℕ → env.urls.Url → FetchM env (env.urls.Url × ResponseHead)
  | left, current => do
      check "network request"
      let response : Except UreqError ResponseHead ← call (.request part current)
      check "network request"
      match response with
      | .error source => .err (networkError current source)
      | .ok response =>
        if response.status ∈ [301, 302, 303, 307, 308] then
          match left with
          | 0 => .err (.tooManyRedirects maxRedirects)
          | left + 1 =>
            match response.location with
            | none => .err (.missingRedirectLocation (env.urls.redacted current))
            | some location =>
              match env.urls.resolveRedirect mode current location with
              | .error (source, target, reason) =>
                .err (.redirectPolicy source target reason)
              | .ok target => do
                  check "network redirect"
                  openWithRedirects mode part left target
        else if 200 ≤ response.status ∧ response.status ≤ 299 then do
          check "network response headers"
          pure (current, response)
        else .err (.httpStatus (env.urls.redacted current) response.status)

def getBounded (fuel : ℕ) (mode : RedirectPolicyMode) (part : Part) (url : env.urls.Url) (max : ℕ)
    (kind : String) : FetchM env (List UInt8) := do
  check "network response headers"
  let (finalUrl, response) ← openWithRedirects mode part maxRedirects url
  check "network response headers"
  if response.contentLength.any (fun length => max < length) then
    .err (.bodyTooLarge kind (env.urls.redacted finalUrl) max)
  else do
    check "network response headers"
    readBounded fuel part max kind finalUrl

inductive ManifestPairRetrievalError (Version : Type)
  | manifest (error : FetchError Version)
  | signature (freshManifest : List UInt8) (error : FetchError Version)

/-- `retrieve_manifest_pair`; its errors are results -/
def retrieveManifestPair (fuel : ℕ) (mode : RedirectPolicyMode)
    (manifestUrl signatureUrl : env.urls.Url) :
    FetchM env (Except (ManifestPairRetrievalError env.Version) (List UInt8 × List UInt8)) := do
  let manifest ← (getBounded fuel mode .manifest manifestUrl manifestMaxBytes "manifest").attempt
  match manifest with
  | .error error => pure (.error (.manifest error))
  | .ok manifest => do
      let signature ← (getBounded fuel mode .signature signatureUrl signatureDocumentMaxBytes
        "signature document").attempt
      match signature with
      | .error error => pure (.error (.signature manifest error))
      | .ok signature => pure (.ok (manifest, signature))

/-! ### Writing to the cache -/

def writeAllDeadlined (inode : ℕ) (phase operation : String) (path : Place) :
    ℕ → List UInt8 → FetchM env Unit
  | 0, _ => .err (.operationDeadline phase)
  | fuel + 1, bytes =>
    if bytes = [] then pure ()
    else do
      check phase
      let written : Except IoError ℕ ← call (.write inode bytes)
      check phase
      match written with
      | .ok 0 => .err (ioError operation path ⟨.writeZero, "write zero"⟩)
      | .ok (n + 1) => writeAllDeadlined inode phase operation path fuel (bytes.drop (n + 1))
      | .error error =>
        if error.kind = .interrupted then writeAllDeadlined inode phase operation path fuel bytes
        else .err (ioError operation path error)

/-- The name of a temporary file. -/
def tempName (env : FetchEnv) (destination : CacheName) (sequence : ℕ) : CacheName :=
  ⟨destination.dir,
    "." ++ destination.name ++ "." ++ env.process ++ "." ++ toString sequence ++ ".tmp"⟩

/-- The loop of `create_temp_for`, with the attempts that are left. -/
def createTempLoop (destination : CacheName) : ℕ → FetchM env (CacheName × ℕ)
  | 0 => .err (ioError "create cache temporary file" (.entry destination)
      ⟨.alreadyExists, "temporary name attempts exhausted"⟩)
  | left + 1 => do
      check "cache temporary file creation"
      let sequence : ℕ ← call .nextSequence
      let path := tempName env destination sequence
      let opened : Except IoError ℕ ← call (.createNew path)
      check "cache temporary file creation"
      match opened with
      | .ok file => pure (path, file)
      | .error error =>
        if error.kind = .alreadyExists then createTempLoop destination left
        else .err (ioError "create cache temporary file" (.entry path) error)

def createTempFor (destination : CacheName) : FetchM env (CacheName × ℕ) := do
  check "cache temporary file creation"
  createTempLoop destination 128

def replaceFile (source destination : CacheName) : FetchM env Unit := do
  check "cache entry replacement"
  let replaced : Except IoError Unit ← call (.rename source destination)
  check "cache entry replacement"
  orElse (ioError "replace cache entry" (.entry destination)) replaced

def syncParent (path : CacheName) : FetchM env Unit := do
  check "cache directory sync"
  let directory : Except IoError Unit ← call .syncDirectory
  check "cache directory sync"
  orElse (ioError "open cache directory" (.directory path.dir)) directory
  let synced : Except IoError Unit ← call .syncDirectory
  check "cache directory sync"
  orElse (ioError "sync cache directory" (.directory path.dir)) synced

/-- The file is complete: it is synced and takes its place. -/
def activate (operation phase : String) (temp destination : CacheName) : FetchM env Unit := do
  check phase
  let synced : Except IoError Unit ← call .syncAll
  check phase
  orElse (ioError operation (.entry temp)) synced
  replaceFile temp destination
  syncParent destination

/-- If this fails, another call is made before the failure is reported. -/
def orThen {α : Type} (e : FetchCall env.urls.Url) (body : FetchM env α) : FetchM env α := do
  let result ← body.attempt
  match result with
  | .ok a => pure a
  | .error error => do
      let _ ← call e
      .err error

/-- The loop of `atomic_write` over the chunks. -/
def writeChunks (fuel inode : ℕ) (path : Place) : List (List UInt8) → FetchM env Unit
  | [] => pure ()
  | chunk :: rest => do
      writeAllDeadlined inode "cache entry write" "write cache entry" path fuel chunk
      writeChunks fuel inode path rest

def atomicWrite (fuel : ℕ) (destination : CacheName) (bytes : List UInt8) :
    FetchM env Unit := do
  check "cache entry write"
  let (tempPath, temp) ← createTempFor destination
  orThen (.removeFile tempPath) do
    writeChunks fuel temp (.entry tempPath) (bytes.toChunks copyBufferBytes)
    activate "sync cache entry" "cache entry sync" tempPath destination

/-! ### Entries of the cache -/

def removeInvalidCacheEntry (name : CacheName) : FetchM env Unit := do
  check "invalid cache entry removal"
  let removed : Except IoError Unit ← call (.removeFile name)
  check "invalid cache entry removal"
  match removed with
  | .ok () => pure ()
  | .error error =>
    if error.kind = .notFound then pure ()
    else .err (ioError "remove invalid cache entry" (.entry name) error)

/-- `touch`: whether the times could be set does not matter -/
def touch (name : CacheName) : FetchM env Unit := do
  check "cache recency update"
  let opened : Except IoError (Option ℕ) ← call (.openWrite name)
  check "cache recency update"
  match opened with
  | .ok (some file) => do
      let _ ← call (.setTimes file)
      check "cache recency update"
  | .ok none => check "cache recency update"
  | .error _ => pure ()

structure ManifestCachePaths where
  manifest : CacheName
  signature : CacheName
  deriving DecidableEq, Repr

def manifestPaths (url : env.urls.Url) : FetchM env ManifestCachePaths := do
  check "manifest cache key"
  let key := sha256Hex env.toPackages (env.urls.text url)
  check "manifest cache key"
  pure ⟨⟨.manifests, key ++ ".json"⟩, ⟨.manifests, key ++ ".sig"⟩⟩

def readManifestPair (fuel : ℕ) (paths : ManifestCachePaths) :
    FetchM env (List UInt8 × List UInt8) := do
  let manifest ← readCacheFile fuel paths.manifest manifestMaxBytes
  let signature ← readCacheFile fuel paths.signature signatureDocumentMaxBytes
  check "manifest cache read"
  pure (manifest, signature)

def writeManifestPair (fuel : ℕ) (paths : ManifestCachePaths)
    (manifest signature : List UInt8) : FetchM env Unit := do
  atomicWrite fuel paths.manifest manifest
  atomicWrite fuel paths.signature signature
  touch paths.manifest
  touch paths.signature

def touchManifestPair (paths : ManifestCachePaths) : FetchM env Unit := do
  touch paths.manifest
  touch paths.signature

/-! ### Eviction -/

structure CachedFile where
  modified : ℕ
  name : CacheName
  size : ℕ
  deriving DecidableEq, Repr

/-- Older files first; files of one time in the order of their paths. -/
def CachedFile.before (left right : CachedFile) : Bool :=
  if left.modified ≠ right.modified then left.modified < right.modified
  else if left.name.dir ≠ right.name.dir then left.name.dir = .artifacts
  else left.name.name ≤ right.name.name

/-- The loop over the entries of a directory. -/
def scanEntries (dir : CacheDir) :
    List (Except IoError (CacheName × Except IoError Metadata)) → FetchM env (List CachedFile)
  | [] => pure []
  | entry :: rest => do
      check "cache eviction scan"
      let (name, metadata) ← orElse (ioError "read cache directory" (.directory dir)) entry
      check "cache eviction scan"
      let metadata ← orElse (ioError "stat cache entry" (.entry name)) metadata
      let files ← scanEntries dir rest
      pure (if metadata.isFile then ⟨metadata.modified, name, metadata.len⟩ :: files else files)

/-- One directory is scanned. -/
def scanDirectory (dir : CacheDir) : FetchM env (List CachedFile) := do
  check "cache eviction scan"
  let entries : Except IoError (List (Except IoError (CacheName × Except IoError Metadata))) ←
    call (.readDir dir)
  check "cache eviction scan"
  let entries ← orElse (ioError "read cache directory" (.directory dir)) entries
  scanEntries dir entries

/-- The loop that removes files until the total is within the limit. -/
def evictFiles (maxBytes : ℕ) (kept : List CacheName) : List CachedFile → ℕ → FetchM env ℕ
  | [], total => pure total
  | file :: rest, total => do
      check "cache eviction"
      if total ≤ maxBytes then pure total
      else if kept.contains file.name then evictFiles maxBytes kept rest total
      else do
        let handle : Except IoError ℕ ← call (.openReadWrite file.name)
        check "cache eviction open"
        match handle with
        | .error error =>
          if error.kind = .notFound then evictFiles maxBytes kept rest (total - file.size)
          else .err (ioError "open cache entry for eviction" (.entry file.name) error)
        | .ok handle => do
            check "cache eviction lock"
            let locked : Except IoError Bool ← call (.tryLock handle)
            check "cache eviction lock"
            match locked with
            | .error error =>
              .err (ioError "lock cache entry for eviction" (.entry file.name) error)
            | .ok false => evictFiles maxBytes kept rest total
            | .ok true => do
                check "cache eviction lock"
                let removed : Except IoError Unit ← call (.removeFile file.name)
                check "cache eviction remove"
                match removed with
                | .ok () => evictFiles maxBytes kept rest (total - file.size)
                | .error error =>
                  if error.kind = .notFound then
                    evictFiles maxBytes kept rest (total - file.size)
                  else .err (ioError "evict cache entry" (.entry file.name) error)

def evictToBudget (maxBytes : ℕ) (kept : List CacheName) : FetchM env Unit := do
  check "cache eviction"
  let manifests ← scanDirectory .manifests
  let artifacts ← scanDirectory .artifacts
  let files := manifests ++ artifacts
  let total := (files.map CachedFile.size).sum
  if total ≤ maxBytes then check "cache eviction"
  else do
    check "cache eviction sort"
    let files := files.mergeSort CachedFile.before
    check "cache eviction sort"
    let total ← evictFiles maxBytes kept files total
    if maxBytes < total then .err (.cacheBudget total maxBytes)
    else check "cache eviction"

/-- There is room for the pair, and it is there. -/
def pairIsKept (maxBytes : ℕ) (paths : ManifestCachePaths) (artifactSize pairSize : ℕ) :
    FetchM env Bool :=
  if artifactSize + pairSize ≤ maxBytes then do
    let manifest : Bool ← call (.isFile paths.manifest)
    if manifest then call (.isFile paths.signature) else pure false
  else pure false

def evictForResult (maxBytes : ℕ) (artifactPath : CacheName) (paths : ManifestCachePaths)
    (artifactSize pairSize : ℕ) : FetchM env Unit := do
  check "cache result eviction"
  let keepPair ← pairIsKept maxBytes paths artifactSize pairSize
  check "cache result eviction"
  if keepPair then evictToBudget maxBytes [artifactPath, paths.manifest, paths.signature]
  else evictToBudget maxBytes [artifactPath]

/-! ### The artifact -/

/-- The loop of `digest_open_file`: size and digest of what was read, or no digest if it is too
much. -/
def digestLoop (file : ℕ) (path : Place) (max : ℕ) : ℕ → List UInt8 → FetchM env (ℕ × String)
  | 0, _ => .err (.operationDeadline "cached artifact digest")
  | fuel + 1, bytes => do
      check "cached artifact digest"
      let read : Except IoError (List UInt8) ← call (.read file bytes.length copyBufferBytes)
      check "cached artifact digest"
      match read with
      | .error error =>
        if error.kind = .interrupted then digestLoop file path max fuel bytes
        else .err (ioError "read cached artifact" path error)
      | .ok [] => pure (bytes.length, sha256Hex env.toPackages bytes)
      | .ok (byte :: more) =>
        if max < (bytes ++ byte :: more).length then pure ((bytes ++ byte :: more).length, "")
        else do
          check "cached artifact digest"
          digestLoop file path max fuel (bytes ++ byte :: more)

/-- An elapsed deadline -/
def FetchError.isOperationDeadline {Version : Type} : FetchError Version → Bool
  | .operationDeadline _ => true
  | _ => false

/-- Back to the beginning of the file. -/
def rewind (path : Place) : FetchM env Unit := do
  let rewound : Except IoError Unit ← call .seekStart
  check "cached artifact rewind"
  orElse (ioError "rewind cached artifact" path) rewound

def digestOpenFile (fuel file : ℕ) (path : Place) (max : ℕ) : FetchM env (ℕ × String) := do
  check "cached artifact digest"
  let sought : Except IoError Unit ← call .seekStart
  check "cached artifact seek"
  orElse (ioError "seek cached artifact" path) sought
  let result ← (digestLoop file path max fuel []).attempt
  match result with
  | .error error =>
    if error.isOperationDeadline then .err error
    else do
      rewind path
      .err error
  | .ok result => do
      rewind path
      pure result

/-- The part of `open_verified_cached_artifact` under the lease: are these the right bytes? -/
def verifyLeased (fuel file : ℕ) (path : Place) (artifact : Artifact) : FetchM env Bool := do
  check "cached artifact lease"
  check "cached artifact lease"
  let (actualSize, actualDigest) ← digestOpenFile fuel file path artifactMaxBytes
  if actualSize ≠ artifact.size ∨ actualDigest ≠ artifact.sha256 then pure false
  else do
    check "cached artifact verification"
    pure true

/-- `open_verified_cached_artifact`; a file that is dropped is not leased any more -/
def openVerifiedCachedArtifact (fuel : ℕ) (name : CacheName) (artifact : Artifact) :
    FetchM env (Option ℕ) := do
  let path := Place.entry name
  check "cached artifact stat"
  let metadata : Except IoError Metadata ← call (.symlinkMetadata name)
  check "cached artifact stat"
  match metadata with
  | .error error =>
    if error.kind = .notFound then pure none
    else .err (ioError "stat cached artifact" path error)
  | .ok metadata =>
    if metadata.isFile = false ∨ metadata.len ≠ artifact.size then do
      removeInvalidCacheEntry name
      pure none
    else do
      let file : Except IoError ℕ ← call (.openFile name)
      check "cached artifact open"
      let file ← orElse (ioError "open verified cached artifact" path) file
      check "cached artifact lease"
      let lease : Except IoError Bool ← call (.tryLockShared file)
      match lease with
      | .ok false => do
          check "cached artifact lease"
          .err (ioError "lease verified cached artifact" path ⟨.wouldBlock, "would block"⟩)
      | .error error => do
          check "cached artifact lease"
          .err (ioError "lease verified cached artifact" path error)
      | .ok true => do
          let right ← orThen (.unlock file) (verifyLeased fuel file path artifact)
          if right then pure (some file)
          else do
            let _ ← call (.unlock file)
            removeInvalidCacheEntry name
            pure none

/-- The loop of `install_artifact_reader`: what was read so far is in the temporary file. -/
def copyArtifact (onError : IoError → FetchError env.Version) (artifact : Artifact) (temp : ℕ)
    (tempPath : Place) : ℕ → List UInt8 → FetchM env (List UInt8)
  | 0, _ => .err (.operationDeadline "artifact cache copy")
  | fuel + 1, bytes => do
      check "artifact cache copy"
      let read : Except IoError (List UInt8) ← call (.readBody .artifact copyBufferBytes)
      check "artifact cache copy"
      match read with
      | .error error =>
        if error.kind = .interrupted then
          copyArtifact onError artifact temp tempPath fuel bytes
        else .err (onError error)
      | .ok [] => pure bytes
      | .ok (byte :: more) =>
        let total := (bytes ++ byte :: more).length
        if artifactMaxBytes < total ∨ artifact.size < total then
          .err (.artifactSize artifact.filename artifact.size total)
        else do
          writeAllDeadlined temp "artifact cache write" "write artifact cache" tempPath fuel
            (byte :: more)
          check "artifact digest"
          copyArtifact onError artifact temp tempPath fuel (bytes ++ byte :: more)

def installArtifactReader (fuel : ℕ)
    (onError : IoError → FetchError env.Version) (destination : CacheName) (artifact : Artifact) :
    FetchM env Unit := do
  check "artifact cache copy"
  let (tempPath, temp) ← createTempFor destination
  orThen (.removeFile tempPath) do
    let bytes ← copyArtifact onError artifact temp (.entry tempPath) fuel []
    if bytes.length ≠ artifact.size then
      .err (.artifactSize artifact.filename artifact.size bytes.length)
    else if sha256Hex env.toPackages bytes ≠ artifact.sha256 then
      .err (.artifactDigest artifact.filename artifact.sha256 (sha256Hex env.toPackages bytes))
    else do
      activate "sync artifact cache" "artifact cache sync" tempPath destination
      check "artifact cache activation"

def installArtifactFromNetwork (fuel : ℕ) (mode : RedirectPolicyMode)
    (url : env.urls.Url) (destination : CacheName) (artifact : Artifact) : FetchM env Unit := do
  check "artifact network request"
  let (finalUrl, response) ← openWithRedirects mode .artifact maxRedirects url
  check "artifact response headers"
  match response.contentLength with
  | some length =>
    if artifactMaxBytes < length then
      .err (.bodyTooLarge "artifact" (env.urls.redacted finalUrl) artifactMaxBytes)
    else if length ≠ artifact.size then
      .err (.artifactSize artifact.filename artifact.size length)
    else do
      check "artifact response headers"
      installArtifactReader fuel
        (fun error => networkError finalUrl (.io error)) destination artifact
  | none => do
      check "artifact response headers"
      installArtifactReader fuel
        (fun error => networkError finalUrl (.io error)) destination artifact

/-- The file was opened: it must lie in the directory, and be the file its path now names. -/
def pinFileArtifact (manifestDir path canonicalArtifact : List String) : FetchM env Unit := do
  let openedMetadata : Except IoError Metadata ← call .registryMetadata
  check "file artifact stat"
  let openedMetadata ← orElse (ioError "stat open file registry artifact" (.registry path))
    openedMetadata
  if openedMetadata.isFile = false then .err (.notRegularFile (.registry canonicalArtifact))
  else do
    let canonicalAfter : Except IoError (List String) ← call .canonicalize
    check "file artifact containment"
    let canonicalAfter ← orElse (ioError "canonicalize" (.registry path)) canonicalAfter
    if manifestDir.isPrefixOf canonicalAfter = false then
      .err (.fileArtifactEscapes canonicalAfter manifestDir)
    else do
      let sameIdentity : Except IoError Bool ← call .sameFileIdentity
      check "file artifact identity"
      let sameIdentity ← orElse (ioError "identify file registry artifact" (.registry path))
        sameIdentity
      if sameIdentity = false then
        .err (ioError "pin file registry artifact" (.registry path)
          ⟨.invalidData, "artifact changed while it was opened"⟩)
      else check "file artifact preparation"

def openContainedFileArtifact (manifestUrl artifactUrl : env.urls.Url) : FetchM env Unit := do
  check "file artifact containment"
  match env.urls.toFilePath manifestUrl with
  | none => .err (.urlPolicy .fileUrlNotLocalAbsolute)
  | some [] => .err (.urlPolicy .fileUrlNotLocalAbsolute)
  | some (first :: rest) => do
      let manifestParent := (first :: rest).dropLast
      let manifestDir : Except IoError (List String) ← call .canonicalize
      check "file artifact containment"
      let manifestDir ← orElse (ioError "canonicalize" (.registry manifestParent)) manifestDir
      match env.urls.toFilePath artifactUrl with
      | none => .err (.urlPolicy .fileUrlNotLocalAbsolute)
      | some path => do
          let canonicalArtifact : Except IoError (List String) ← call .canonicalize
          check "file artifact containment"
          let canonicalArtifact ← orElse (ioError "canonicalize" (.registry path)) canonicalArtifact
          if manifestDir.isPrefixOf canonicalArtifact = false then
            .err (.fileArtifactEscapes canonicalArtifact manifestDir)
          else do
            let file : Except IoError Unit ← call .registryOpen
            check "file artifact open"
            orElse (ioError "open file registry artifact" (.registry path)) file
            pinFileArtifact manifestDir path canonicalArtifact

/-! ### Fetching -/

/-- The deadline while waiting for the lock. -/
def waitForLock : FetchM env Unit := do
  let time : Bool ← call .deadline
  if time then pure () else .err .cacheLockTimeout

/-- The loop that waits for the lock of the cache. -/
def lockCache : ℕ → FetchM env Unit
  | 0 => .err .cacheLockTimeout
  | fuel + 1 => do
      waitForLock
      let attempt : Except IoError Bool ← call .tryLockCache
      waitForLock
      match attempt with
      | .ok true => pure ()
      | .ok false => do
          waitForLock
          lockCache fuel
      | .error error => .err (ioError "lock cache" .lock error)

/-- `CacheGuard::open` -/
def openCache (fuel : ℕ) : FetchM env Unit := do
  check "cache directory creation"
  let created : Except IoError Unit ← call (.createDirAll .root)
  check "cache directory creation"
  orElse (ioError "create cache directory" .root) created
  let created : Except IoError Unit ← call (.createDirAll (.directory .manifests))
  check "cache directory creation"
  orElse (ioError "create cache directory" (.directory .manifests)) created
  let created : Except IoError Unit ← call (.createDirAll (.directory .artifacts))
  check "cache directory creation"
  orElse (ioError "create cache directory" (.directory .artifacts)) created
  let lock : Except IoError Unit ← call .openLock
  check "cache lock open"
  orElse (ioError "open cache lock" .lock) lock
  lockCache fuel

def recoverCachedManifestPair (fuel : ℕ) (paths : ManifestCachePaths)
    (retrievalError : ManifestPairRetrievalError env.Version) :
    FetchM env (List UInt8 × List UInt8 × ManifestSource) := do
  check "manifest cache fallback"
  let (freshManifest, networkError) := match retrievalError with
    | .manifest error => (none, error)
    | .signature freshManifest error => (some freshManifest, error)
  if networkError.isCacheFallbackEligible = false then .err networkError
  else do
    let cached ← (readManifestPair fuel paths).attempt
    match cached with
    | .error error =>
      if error.isOperationDeadline then .err error
      else .err (.cacheFallbackUnavailable (env.showError networkError) (env.showError error))
    | .ok (cachedManifest, cachedSignature) =>
      match freshManifest with
      | some freshManifest =>
        if freshManifest ≠ cachedManifest then .err networkError
        else do
          check "manifest cache fallback"
          pure (freshManifest, cachedSignature, .verifiedCacheFallback)
      | none => do
          check "manifest cache fallback"
          pure (cachedManifest, cachedSignature, .verifiedCacheFallback)

/-- The pair over the network, or the one in the cache. -/
def networkManifestPair (fuel : ℕ) (mode : RedirectPolicyMode) (paths : ManifestCachePaths)
    (manifestUrl signatureUrl : env.urls.Url) :
    FetchM env (List UInt8 × List UInt8 × ManifestSource) := do
  let retrieved ← retrieveManifestPair fuel mode manifestUrl signatureUrl
  match retrieved with
  | .ok (manifest, signature) => pure (manifest, signature, .network)
  | .error error => recoverCachedManifestPair fuel paths error

/-- The manifest and its signatures, and where they come from. -/
def selectManifestPair (fuel : ℕ) (mode : RedirectPolicyMode) (paths : ManifestCachePaths)
    (manifestUrl signatureUrl : env.urls.Url) :
    FetchM env (List UInt8 × List UInt8 × ManifestSource) :=
  if env.urls.scheme manifestUrl = "file" then do
    let manifest ← readFileUrlBounded fuel .manifest manifestUrl manifestMaxBytes "manifest"
    let signature ← readFileUrlBounded fuel .signature signatureUrl signatureDocumentMaxBytes
      "signature document"
    pure (manifest, signature, .file)
  else if env.urls.scheme manifestUrl = "https" then
    networkManifestPair fuel mode paths manifestUrl signatureUrl
  else if env.urls.scheme manifestUrl = "http" ∧ mode = .localTest then
    networkManifestPair fuel mode paths manifestUrl signatureUrl
  else .err (.urlPolicy (.unsupportedScheme (env.urls.scheme manifestUrl)))

/-- A pair that did not come from the cache goes into it, or the one there is removed. -/
def rememberManifestPair (fuel maxBytes : ℕ) (paths : ManifestCachePaths)
    (manifest signature : List UInt8) (source : ManifestSource) : FetchM env Unit :=
  if source = .verifiedCacheFallback then pure ()
  else if manifest.length + signature.length ≤ maxBytes then do
    writeManifestPair fuel paths manifest signature
    evictToBudget maxBytes [paths.manifest, paths.signature]
  else do
    removeInvalidCacheEntry paths.manifest
    removeInvalidCacheEntry paths.signature

/-- The artifact is put into the cache. -/
def installArtifact (fuel : ℕ) (mode : RedirectPolicyMode) (manifestUrl : env.urls.Url)
    (destination : CacheName) (artifact : Artifact) : FetchM env ArtifactSource := do
  match env.urls.artifactUrl mode manifestUrl artifact.filename with
  | .error error => .err (.urlPolicy error)
  | .ok url =>
    if env.urls.scheme manifestUrl = "file" then do
      openContainedFileArtifact manifestUrl url
      installArtifactReader fuel
        (ioError "read artifact" (.entry destination)) destination artifact
      pure .file
    else do
      installArtifactFromNetwork fuel mode url destination artifact
      pure .network

/-- The end of a fetch: the entries are marked as used, and the cache is kept within its limit. -/
def finishFetch (maxBytes : ℕ) (artifactPath : CacheName) (paths : ManifestCachePaths)
    (artifactSize pairSize : ℕ) : FetchM env Unit := do
  touch artifactPath
  touchManifestPair paths
  evictForResult maxBytes artifactPath paths artifactSize pairSize
  check "registry result preparation"

/-- The artifact of a verified manifest. -/
def fetchArtifact (fuel : ℕ) (mode : RedirectPolicyMode) (config : FetchConfig env)
    (paths : ManifestCachePaths) (pairSize : ℕ) (manifestSource : ManifestSource)
    (verifiedManifest : VerifiedManifest env.Version) (artifact : Artifact) :
    FetchM env (FetchedArtifact env) := do
  check "artifact cache path"
  let artifactPath : CacheName := ⟨.artifacts, artifact.sha256⟩
  let fallback := decide (manifestSource = .verifiedCacheFallback)
  let cached ← openVerifiedCachedArtifact fuel artifactPath artifact
  match cached with
  | some lease => do
      orThen (.unlock lease) <|
        finishFetch config.cacheMaxBytes artifactPath paths artifact.size pairSize
      pure ⟨artifactPath, artifact.sha256, .cache, manifestSource, ⟨fallback, true⟩,
        verifiedManifest, artifact, lease⟩
  | none => do
      let source ← installArtifact fuel mode config.manifestUrl artifactPath artifact
      let installed ← openVerifiedCachedArtifact fuel artifactPath artifact
      match installed with
      | none => .err (.artifactDigest artifact.filename artifact.sha256
          "cache changed after verified write")
      | some lease => do
          orThen (.unlock lease) <|
            finishFetch config.cacheMaxBytes artifactPath paths artifact.size pairSize
          pure ⟨artifactPath, artifact.sha256, source, manifestSource, ⟨fallback, false⟩,
            verifiedManifest, artifact, lease⟩

/-- The pair is verified, and its artifact fetched. -/
def fetchSelected (fuel : ℕ) (mode : RedirectPolicyMode) (config : FetchConfig env)
    (paths : ManifestCachePaths) (manifestBytes signatureBytes : List UInt8)
    (manifestSource : ManifestSource) : FetchM env (FetchedArtifact env) := do
  check "manifest verification"
  let verified := verifyManifest manifestBytes signatureBytes config.trustedKeys
    config.signatureThreshold config.expectedVersion config.expectedProtocolVersion
  check "manifest verification"
  match verified with
  | .error error => .err (.verification error)
  | .ok verifiedManifest => do
      check "manifest target selection"
      match verifiedManifest.manifest.artifacts.find? fun artifact =>
          artifact.target = config.target with
      | none => .err (.targetNotPublished config.target)
      | some artifact => do
          check "manifest target selection"
          if config.cacheMaxBytes < artifact.size then
            .err (.cacheBudget artifact.size config.cacheMaxBytes)
          else do
            rememberManifestPair fuel config.cacheMaxBytes paths manifestBytes signatureBytes
              manifestSource
            fetchArtifact fuel mode config paths
              (manifestBytes.length + signatureBytes.length) manifestSource
              verifiedManifest artifact

def fetchVerifiedArtifactInner (fuel : ℕ) (mode : RedirectPolicyMode)
    (config : FetchConfig env) : FetchM env (FetchedArtifact env) := do
  if config.timeout = 0 then .err .invalidTimeout
  else if config.cacheMaxBytes = 0 then .err .invalidCacheLimit
  else do
    check "registry URL resolution"
    match env.urls.signatureUrl mode config.manifestUrl with
    | .error error => .err (.urlPolicy error)
    | .ok signatureUrl => do
        check "registry URL resolution"
        openCache fuel
        evictToBudget config.cacheMaxBytes []
        let paths ← manifestPaths config.manifestUrl
        let (manifestBytes, signatureBytes, manifestSource) ←
          selectManifestPair fuel mode paths config.manifestUrl signatureUrl
        fetchSelected fuel mode config paths manifestBytes signatureBytes manifestSource

def fetchVerifiedArtifact (fuel : ℕ) (config : FetchConfig env) :
    FetchM env (FetchedArtifact env) :=
  fetchVerifiedArtifactInner fuel .production config

end Functions

end RemoteMirror.Registry
