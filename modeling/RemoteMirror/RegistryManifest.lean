/-
**The release manifest of the agent and the policy it has to meet.**

`crates/nrm-registry/src/core.rs` reads the manifest of an agent release: a JSON document that
lists, for each target, the file to download with its hash and size.  `parse_manifest` accepts a
byte string only if the document meets a fixed policy for the expected version and protocol.

JSON, semantic versions, base64, Ed25519 and SHA-256 come from third-party crates; the functions
of them that the registry calls are the fields of `Packages`, and everything here holds for any
such functions.  Text is measured in UTF-8 bytes; a test of all bytes of a text for membership in a
class of ASCII characters is a test of all its characters.

Main definitions:

* `Registry.Packages` — the third-party functions the registry calls;
* `Registry.parseManifest` — the parser, with the error of each check;
* `Registry.ManifestPolicy` — what a manifest has to satisfy.

Main results:

* `Registry.parseManifest_isOk_iff` — **a manifest is accepted exactly if it meets the
  policy**.
-/

import RemoteMirror.Checks

namespace RemoteMirror.Registry

open Checks

/-! ### Constants and targets -/

def manifestMaxBytes : ℕ := 1024 * 1024

def artifactMaxBytes : ℕ := 128 * 1024 * 1024

def maxArtifacts : ℕ := 6

inductive AgentTarget
  | aarch64AppleDarwin
  | aarch64PcWindowsMsvc
  | aarch64UnknownLinuxMusl
  | x8664AppleDarwin
  | x8664PcWindowsMsvc
  | x8664UnknownLinuxMusl
  deriving DecidableEq, Repr

namespace AgentTarget

/-- `AgentTarget::ALL` -/
def all : List AgentTarget :=
  [.aarch64AppleDarwin, .aarch64PcWindowsMsvc, .aarch64UnknownLinuxMusl, .x8664AppleDarwin,
    .x8664PcWindowsMsvc, .x8664UnknownLinuxMusl]

def asStr : AgentTarget → String
  | .x8664UnknownLinuxMusl => "x86_64-unknown-linux-musl"
  | .aarch64UnknownLinuxMusl => "aarch64-unknown-linux-musl"
  | .x8664AppleDarwin => "x86_64-apple-darwin"
  | .aarch64AppleDarwin => "aarch64-apple-darwin"
  | .x8664PcWindowsMsvc => "x86_64-pc-windows-msvc"
  | .aarch64PcWindowsMsvc => "aarch64-pc-windows-msvc"

def isWindows : AgentTarget → Bool
  | .x8664PcWindowsMsvc | .aarch64PcWindowsMsvc => true
  | _ => false

/-- The only file name accepted for a target, given the version as text. -/
def artifactFilename (target : AgentTarget) (version : String) : String :=
  "nrm-agent-" ++ version ++ "-" ++ target.asStr ++ if target.isWindows then ".exe" else ""

def fromStr (value : String) : Option AgentTarget := all.find? fun target => target.asStr == value

theorem asStr_injective {t t' : AgentTarget} (h : t.asStr = t'.asStr) : t = t' := by
  cases t <;> cases t' <;> first | rfl | exact absurd h (by decide)

theorem fromStr_eq_some {value : String} {target : AgentTarget} :
    fromStr value = some target ↔ target.asStr = value := by
  constructor
  · intro h
    simpa using List.find?_some h
  · rintro rfl
    cases target <;> decide

end AgentTarget

/-! ### Documents -/

structure RawArtifact where
  target : String
  filename : String
  sha256 : String
  size : ℕ
  deriving DecidableEq, Repr

structure RawManifest where
  schemaVersion : ℕ
  package : String
  version : String
  protocolVersion : ℕ
  sourceCommit : String
  artifacts : List RawArtifact
  deriving DecidableEq, Repr

structure RawSignature where
  keyId : String
  signature : String
  deriving DecidableEq, Repr

structure RawSignatureDocument where
  schemaVersion : ℕ
  signatures : List RawSignature
  deriving DecidableEq, Repr

/-- The third-party functions the registry calls. -/
structure Packages where
  /-- `semver::Version` -/
  Version : Type
  [decEqVersion : DecidableEq Version]
  /-- `Version::parse` -/
  parseVersion : String → Except String Version
  /-- The `Display` of a version. -/
  showVersion : Version → String
  /-- `serde_json::from_slice` at the type of manifests. -/
  manifestFromSlice : List UInt8 → Except String RawManifest
  /-- `serde_json::from_slice` at the type of signature documents. -/
  signaturesFromSlice : List UInt8 → Except String RawSignatureDocument
  /-- `STANDARD.decode` -/
  base64Decode : String → Option (List UInt8)
  /-- `STANDARD.encode` -/
  base64Encode : List UInt8 → String
  /-- `ed25519_dalek::VerifyingKey` -/
  VerifyingKey : Type
  /-- `VerifyingKey::from_bytes` -/
  keyFromBytes : Vector UInt8 32 → Option VerifyingKey
  /-- `VerifyingKey::is_weak` -/
  isWeak : VerifyingKey → Bool
  /-- `to_edwards().compress().to_bytes()` -/
  compress : VerifyingKey → Vector UInt8 32
  /-- `VerifyingKey::verify_strict` -/
  verifyStrict : VerifyingKey → List UInt8 → Vector UInt8 64 → Bool
  /-- `Sha256::digest` -/
  sha256 : List UInt8 → Vector UInt8 32

attribute [instance] Packages.decEqVersion

structure Artifact where
  target : AgentTarget
  filename : String
  sha256 : String
  size : ℕ
  deriving DecidableEq, Repr

structure Manifest (Version : Type) where
  schemaVersion : ℕ
  package : String
  version : Version
  protocolVersion : ℕ
  sourceCommit : String
  artifacts : List Artifact

inductive ManifestError (Version : Type)
  | tooLarge (actual max : ℕ)
  | json (message : String)
  | unsupportedSchema (schema : ℕ)
  | wrongPackage (package : String)
  | invalidVersion (value source : String)
  | versionMismatch (actual expected : Version)
  | protocolVersionMismatch (actual expected : ℕ)
  | invalidSourceCommit
  | artifactCount (actual max : ℕ)
  | unsupportedTarget (target : String)
  | duplicateTarget (target : AgentTarget)
  | invalidFilename (actual expected : String)
  | invalidSha256 (target : AgentTarget)
  | invalidSize (target : AgentTarget) (actual max : ℕ)

/-! ### The parser -/

def isLowerHex (c : Char) : Bool := c.isDigit || ('a' ≤ c && c ≤ 'f')

/-- A text of `len` bytes, all of them lower-case hexadecimal digits. -/
def isHexText (len : ℕ) (text : String) : Bool :=
  text.utf8ByteSize == len && text.toList.all isLowerHex

variable {pk : Packages}

/-- The loop over the artifacts; `targets` are the targets seen so far. -/
def parseArtifacts (pk : Packages) (version : pk.Version) (targets : List AgentTarget) :
    List RawArtifact → Except (ManifestError pk.Version) (List Artifact)
  | [] => .ok []
  | raw :: rest => do
      let target ← okOr (AgentTarget.fromStr raw.target) (.unsupportedTarget raw.target)
      rejectIf (targets.contains target) (.duplicateTarget target)
      let expected := target.artifactFilename (pk.showVersion version)
      rejectIf (raw.filename != expected) (.invalidFilename raw.filename expected)
      rejectIf (!isHexText 64 raw.sha256) (.invalidSha256 target)
      rejectIf (!(1 ≤ raw.size && raw.size ≤ artifactMaxBytes))
        (.invalidSize target raw.size artifactMaxBytes)
      let artifacts ← parseArtifacts pk version (target :: targets) rest
      return ⟨target, raw.filename, raw.sha256, raw.size⟩ :: artifacts

def parseManifest (pk : Packages) (bytes : List UInt8) (expectedVersion : pk.Version)
    (expectedProtocolVersion : ℕ) : Except (ManifestError pk.Version) (Manifest pk.Version) := do
  rejectIf (manifestMaxBytes < bytes.length) (.tooLarge bytes.length manifestMaxBytes)
  let raw ← (pk.manifestFromSlice bytes).mapError .json
  rejectIf (raw.schemaVersion != 1) (.unsupportedSchema raw.schemaVersion)
  rejectIf (raw.package != "nrm-agent") (.wrongPackage raw.package)
  let version ← (pk.parseVersion raw.version).mapError (.invalidVersion raw.version)
  rejectIf (version != expectedVersion) (.versionMismatch version expectedVersion)
  rejectIf (raw.protocolVersion != expectedProtocolVersion)
    (.protocolVersionMismatch raw.protocolVersion expectedProtocolVersion)
  rejectIf (!isHexText 40 raw.sourceCommit) .invalidSourceCommit
  rejectIf (raw.artifacts.isEmpty || maxArtifacts < raw.artifacts.length)
    (.artifactCount raw.artifacts.length maxArtifacts)
  let artifacts ← parseArtifacts pk version [] raw.artifacts
  return ⟨raw.schemaVersion, raw.package, version, raw.protocolVersion, raw.sourceCommit, artifacts⟩

/-! ### The policy -/

/-- What the entry of one target has to satisfy. -/
def ArtifactPolicy (pk : Packages) (version : pk.Version) (raw : RawArtifact) : Prop :=
  ∃ target : AgentTarget, target.asStr = raw.target ∧
    raw.filename = target.artifactFilename (pk.showVersion version) ∧
    isHexText 64 raw.sha256 = true ∧ 1 ≤ raw.size ∧ raw.size ≤ artifactMaxBytes

/-- What the bytes of a manifest have to satisfy for a version and a protocol, `raw` being the
document they encode. -/
structure ManifestPolicy (pk : Packages) (bytes : List UInt8) (version : pk.Version)
    (protocolVersion : ℕ) (raw : RawManifest) : Prop where
  size : bytes.length ≤ manifestMaxBytes
  json : pk.manifestFromSlice bytes = .ok raw
  schema : raw.schemaVersion = 1
  package : raw.package = "nrm-agent"
  parsed : pk.parseVersion raw.version = .ok version
  protocol : raw.protocolVersion = protocolVersion
  commit : isHexText 40 raw.sourceCommit = true
  nonempty : raw.artifacts ≠ []
  count : raw.artifacts.length ≤ maxArtifacts
  artifacts : ∀ artifact ∈ raw.artifacts, ArtifactPolicy pk version artifact
  targets : (raw.artifacts.map RawArtifact.target).Nodup

variable {version : pk.Version} {raws : List RawArtifact}

/-- One round of the loop over the artifacts. -/
theorem parseArtifacts_cons {targets : List AgentTarget} {raw : RawArtifact} :
    (∃ artifacts, parseArtifacts pk version targets (raw :: raws) = .ok artifacts) ↔
      ∃ target : AgentTarget, target.asStr = raw.target ∧ target ∉ targets ∧
        raw.filename = target.artifactFilename (pk.showVersion version) ∧
        isHexText 64 raw.sha256 = true ∧ (1 ≤ raw.size ∧ raw.size ≤ artifactMaxBytes) ∧
        ∃ artifacts, parseArtifacts pk version (target :: targets) raws = .ok artifacts := by
  simp only [parseArtifacts, bind_eq_ok, okOr_eq_ok, AgentTarget.fromStr_eq_some, exists_const,
    rejectIf_eq_ok, List.contains_eq_mem, decide_eq_false_iff_not, bne_eq_false_iff_eq,
    Bool.not_eq_false', Bool.and_eq_true, decide_eq_true_eq, pure_eq_ok, Except.ok.injEq]
  constructor
  · rintro ⟨_, target, hstr, hnew, hfile, hsha, hsize, artifacts, hrest, -⟩
    exact ⟨target, hstr, hnew, hfile, hsha, hsize, artifacts, hrest⟩
  · rintro ⟨target, hstr, hnew, hfile, hsha, hsize, artifacts, hrest⟩
    exact ⟨_, target, hstr, hnew, hfile, hsha, hsize, artifacts, hrest, rfl⟩

/-- The loop accepts artifacts that each meet the policy and whose targets are new and distinct. -/
theorem parseArtifacts_isOk_iff : ∀ {targets : List AgentTarget},
      (∃ artifacts, parseArtifacts pk version targets raws = .ok artifacts) ↔
        (∀ raw ∈ raws, ArtifactPolicy pk version raw) ∧ (raws.map RawArtifact.target).Nodup ∧
          ∀ target ∈ targets, target.asStr ∉ raws.map RawArtifact.target := by
  induction raws with
  | nil => simp [parseArtifacts]
  | cons raw raws ih =>
    intro targets
    rw [parseArtifacts_cons]
    simp only [List.map_cons, List.nodup_cons, List.mem_cons, forall_eq_or_imp, not_or]
    constructor
    · rintro ⟨target, hstr, hnew, hfile, hsha, hsize, hrest⟩
      obtain ⟨hpolicy, hnodup, hseen⟩ := ih.1 hrest
      refine ⟨⟨⟨target, hstr, hfile, hsha, hsize⟩, hpolicy⟩, ⟨?_, hnodup⟩, ?_⟩
      · rw [← hstr]
        exact hseen target (by simp)
      · intro t ht
        refine ⟨fun h => hnew ?_, hseen t (by simp [ht])⟩
        rw [← AgentTarget.asStr_injective (h.trans hstr.symm)]
        exact ht
    · rintro ⟨⟨⟨target, hstr, hfile, hsha, hsize⟩, hpolicy⟩, ⟨hfresh, hnodup⟩, hseen⟩
      refine ⟨target, hstr, fun h => (hseen target h).1 hstr, hfile, hsha, hsize, ih.2 ?_⟩
      refine ⟨hpolicy, hnodup, ?_⟩
      intro t ht
      rcases List.mem_cons.1 ht with rfl | ht
      · rw [hstr]
        exact hfresh
      · exact (hseen t ht).2

/-- **A manifest is accepted exactly if it meets the policy.** -/
theorem parseManifest_isOk_iff {bytes : List UInt8} {protocol : ℕ} :
    (∃ manifest, parseManifest pk bytes version protocol = .ok manifest) ↔
      ∃ raw, ManifestPolicy pk bytes version protocol raw := by
  simp only [parseManifest, bind_eq_ok, mapError_eq_ok, exists_const, rejectIf_eq_ok,
    decide_eq_false_iff_not, Nat.not_lt, bne_eq_false_iff_eq, Bool.not_eq_false',
    Bool.or_eq_false_iff, List.isEmpty_eq_false_iff, pure_eq_ok, Except.ok.injEq]
  constructor
  · rintro ⟨_, hsize, raw, hjson, hschema, hpackage, v, hparse, rfl, hprotocol, hcommit,
      ⟨hnonempty, hcount⟩, artifacts, hartifacts, -⟩
    obtain ⟨hpolicy, htargets, -⟩ := parseArtifacts_isOk_iff.1 ⟨artifacts, hartifacts⟩
    exact ⟨raw, hsize, hjson, hschema, hpackage, hparse, hprotocol, hcommit, hnonempty, hcount,
      hpolicy, htargets⟩
  · rintro ⟨raw, h⟩
    obtain ⟨artifacts, hartifacts⟩ : ∃ artifacts,
        parseArtifacts pk version [] raw.artifacts = .ok artifacts :=
      parseArtifacts_isOk_iff.2 ⟨h.artifacts, h.targets, by simp⟩
    exact ⟨_, h.size, raw, h.json, h.schema, h.package, version, h.parsed, rfl, h.protocol,
      h.commit, ⟨h.nonempty, h.count⟩, artifacts, hartifacts, rfl⟩

end RemoteMirror.Registry
