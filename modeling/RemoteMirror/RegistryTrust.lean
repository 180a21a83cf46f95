/-
**Trusted keys, detached signatures and the verification of a manifest.**

`TrustedKeySet::from_base64` loads the keys an installation trusts; it refuses an identifier or a
public key that occurs twice.  `verify_manifest` reads a document of detached signatures, counts
those that a trusted key verifies over the exact bytes of the manifest, and parses the manifest only
if the count reaches the threshold.

Main definitions:

* `Registry.TrustedKeySet` — loaded keys: identifiers and key material are distinct;
* `Registry.TrustedKeySet.fromBase64`, `Registry.parseSignatureDocument`,
  `Registry.verifyManifest` — the code;
* `Registry.WellFormed` — the documents the parser accepts;
* `Registry.SignedBy` — enough signatures of pairwise different trusted keys.

Main results:

* `Registry.parseSignatureDocument_eq_ok` — the parser accepts the well-formed
  documents;
* `Registry.verifyManifest_trust` — **a manifest is verified exactly if it meets the
  policy and enough different trusted keys signed it, and signatures of other keys do not matter**.
-/

import RemoteMirror.RegistryManifest

namespace RemoteMirror.Registry

open Checks

/-! ### Signature documents -/

def signatureDocumentMaxBytes : ℕ := 64 * 1024

def maxSignatures : ℕ := 32

def maxTrustedKeys : ℕ := 32

def maxKeyIdBytes : ℕ := 128

structure DetachedSignature where
  keyId : String
  signature : Vector UInt8 64
  deriving DecidableEq, Repr

structure SignatureDocument where
  schemaVersion : ℕ
  signatures : List DetachedSignature
  deriving DecidableEq, Repr

inductive SignatureError
  | tooLarge (actual max : ℕ)
  | json (message : String)
  | unsupportedSchema (schema : ℕ)
  | signatureCount (actual max : ℕ)
  | invalidKeyId (keyId : String)
  | duplicateKeyId (keyId : String)
  | invalidSignatureEncoding (keyId : String)
  deriving DecidableEq, Repr

/-- The base64 text of exactly `n` bytes, in its canonical form. -/
def decodeCanonicalBase64 (pk : Packages) (n : ℕ) (encoded : String) : Option (Vector UInt8 n) :=
  match pk.base64Decode encoded with
  | none => none
  | some decoded =>
    if h : decoded.length = n then
      if pk.base64Encode decoded = encoded then some ⟨decoded.toArray, by simpa using h⟩ else none
    else none

def validateKeyId (keyId : String) : Bool :=
  !keyId.isEmpty && keyId.utf8ByteSize ≤ maxKeyIdBytes &&
    keyId.toList.all fun c => c.isAlphanum || c == '.' || c == '_' || c == '-'

/-- The loop over the signatures; `keyIds` are the identifiers seen so far. -/
def parseSignatures (pk : Packages) (keyIds : List String) :
    List RawSignature → Except SignatureError (List DetachedSignature)
  | [] => .ok []
  | raw :: rest => do
      rejectIf (!validateKeyId raw.keyId) (.invalidKeyId raw.keyId)
      rejectIf (keyIds.contains raw.keyId) (.duplicateKeyId raw.keyId)
      let signature ← okOr (decodeCanonicalBase64 pk 64 raw.signature)
        (.invalidSignatureEncoding raw.keyId)
      let signatures ← parseSignatures pk (raw.keyId :: keyIds) rest
      return ⟨raw.keyId, signature⟩ :: signatures

def parseSignatureDocument (pk : Packages) (bytes : List UInt8) :
    Except SignatureError SignatureDocument := do
  rejectIf (signatureDocumentMaxBytes < bytes.length)
    (.tooLarge bytes.length signatureDocumentMaxBytes)
  let raw ← (pk.signaturesFromSlice bytes).mapError .json
  rejectIf (raw.schemaVersion != 1) (.unsupportedSchema raw.schemaVersion)
  rejectIf (raw.signatures.isEmpty || maxSignatures < raw.signatures.length)
    (.signatureCount raw.signatures.length maxSignatures)
  let signatures ← parseSignatures pk [] raw.signatures
  return ⟨raw.schemaVersion, signatures⟩

variable {pk : Packages}

/-- The entry of a signature document that decodes to a signature. -/
def Encodes (pk : Packages) (raw : RawSignature) (signature : DetachedSignature) : Prop :=
  raw.keyId = signature.keyId ∧ validateKeyId raw.keyId = true ∧
    decodeCanonicalBase64 pk 64 raw.signature = some signature.signature

/-- The byte strings that are a signature document with the given signatures: at most 64 KiB of
JSON with schema 1, and 1 to 32 signatures with valid, distinct identifiers, each in canonical
base64. -/
def WellFormed (pk : Packages) (bytes : List UInt8) (signatures : List DetachedSignature) : Prop :=
  bytes.length ≤ signatureDocumentMaxBytes ∧
    ∃ raws, pk.signaturesFromSlice bytes = .ok ⟨1, raws⟩ ∧ raws ≠ [] ∧
      raws.length ≤ maxSignatures ∧ List.Forall₂ (Encodes pk) raws signatures ∧
      (signatures.map DetachedSignature.keyId).Nodup

variable {bytes : List UInt8}

theorem WellFormed.distinctIds {signatures : List DetachedSignature}
    (h : WellFormed pk bytes signatures) : (signatures.map DetachedSignature.keyId).Nodup := by
  obtain ⟨-, -, -, -, -, -, hids⟩ := h
  exact hids

/-- The loop accepts valid encodings with new and distinct identifiers. -/
theorem parseSignatures_eq_ok {raws : List RawSignature} :
    ∀ {keyIds : List String} {signatures : List DetachedSignature},
      parseSignatures pk keyIds raws = .ok signatures ↔ List.Forall₂ (Encodes pk) raws signatures ∧
          (signatures.map DetachedSignature.keyId).Nodup ∧
          ∀ keyId ∈ keyIds, keyId ∉ signatures.map DetachedSignature.keyId := by
  induction raws with
  | nil =>
    intro keyIds signatures
    simp only [parseSignatures, Except.ok.injEq, List.forall₂_nil_left_iff]
    constructor
    · rintro rfl
      simp
    · rintro ⟨rfl, -, -⟩
      rfl
  | cons raw raws ih =>
    intro keyIds signatures
    simp only [parseSignatures, bind_eq_ok, exists_const, rejectIf_eq_ok, Bool.not_eq_false',
      List.contains_eq_mem, decide_eq_false_iff_not, okOr_eq_ok, ih, pure_eq_ok, Except.ok.injEq,
      List.forall₂_cons_left_iff]
    constructor
    · rintro ⟨hid, hnew, signature, hsig, rest, ⟨hrest, hnodup, hseen⟩, rfl⟩
      refine ⟨⟨_, rest, ⟨rfl, hid, hsig⟩, hrest, rfl⟩, ?_, ?_⟩
      · simp only [List.map_cons, List.nodup_cons]
        exact ⟨hseen raw.keyId (by simp), hnodup⟩
      · intro keyId hkey
        simp only [List.map_cons, List.mem_cons, not_or]
        exact ⟨fun h => hnew (h ▸ hkey), hseen keyId (by simp [hkey])⟩
    · rintro ⟨⟨⟨keyId, signature⟩, rest, ⟨rfl, hid, hsig⟩, hrest, rfl⟩, hnodup, hseen⟩
      simp only [List.map_cons, List.nodup_cons] at hnodup
      refine ⟨hid, fun h => hseen raw.keyId h (by simp), signature, hsig, rest,
        ⟨hrest, hnodup.2, ?_⟩, rfl⟩
      intro keyId hkey
      rcases List.mem_cons.1 hkey with rfl | hkey
      · exact hnodup.1
      · exact fun h => hseen keyId hkey (by simp [h])

/-- **The parser accepts the well-formed documents.** -/
theorem parseSignatureDocument_eq_ok {document : SignatureDocument} :
    parseSignatureDocument pk bytes = .ok document ↔
      document.schemaVersion = 1 ∧ WellFormed pk bytes document.signatures := by
  obtain ⟨schema, signatures⟩ := document
  simp only [parseSignatureDocument, bind_eq_ok, exists_const, rejectIf_eq_ok,
    decide_eq_false_iff_not, Nat.not_lt, mapError_eq_ok, bne_eq_false_iff_eq,
    Bool.or_eq_false_iff, List.isEmpty_eq_false_iff, parseSignatures_eq_ok, pure_eq_ok,
    Except.ok.injEq, SignatureDocument.mk.injEq, WellFormed]
  constructor
  · rintro ⟨hsize, ⟨version, raws⟩, hjson, rfl, ⟨hne, hcount⟩, s, ⟨henc, hnodup, -⟩, rfl, rfl⟩
    exact ⟨rfl, hsize, raws, hjson, hne, hcount, henc, hnodup⟩
  · rintro ⟨rfl, hsize, raws, hjson, hne, hcount, henc, hnodup⟩
    exact ⟨hsize, ⟨1, raws⟩, hjson, rfl, ⟨hne, hcount⟩, signatures, ⟨henc, hnodup, by simp⟩,
      rfl, rfl⟩

/-! ### Trusted keys -/

def sha256Hex (pk : Packages) (bytes : List UInt8) : String :=
  String.ofList ((pk.sha256 bytes).toList.flatMap fun byte =>
    [Nat.digitChar (byte.toNat / 16), Nat.digitChar (byte.toNat % 16)])

structure TrustedPublicKey (pk : Packages) where
  verifyingKey : pk.VerifyingKey
  fingerprint : String

/-- The bytes of the public key. -/
def TrustedPublicKey.material (key : TrustedPublicKey pk) : Vector UInt8 32 :=
  pk.compress key.verifyingKey

/-- The keys an installation trusts, by identifier.  No identifier and no public key occurs
twice. -/
structure TrustedKeySet (pk : Packages) where
  keys : List (String × TrustedPublicKey pk)
  distinctIds : (keys.map Prod.fst).Nodup
  distinctMaterial : (keys.map fun entry => entry.2.material).Nodup

inductive TrustError
  | noKeys
  | tooManyKeys (max : ℕ)
  | invalidKeyId (keyId : String)
  | duplicateKeyId (keyId : String)
  | duplicateKeyMaterial (firstKeyId duplicateKeyId : String)
  | invalidPublicKeyEncoding (keyId : String)
  | invalidPublicKey (keyId : String)
  deriving DecidableEq, Repr

namespace TrustedKeySet

/-- The state of the loader: the keys so far, and the identifier each public key was seen under. -/
structure Loading (pk : Packages) extends TrustedKeySet pk where
  keyMaterial : List (Vector UInt8 32 × String)
  material : keyMaterial.map Prod.fst = keys.map fun entry => entry.2.material

theorem not_mem_of_lookup_eq_none {α β : Type} [BEq α] [LawfulBEq α] {a : α} :
    ∀ {l : List (α × β)}, l.lookup a = none → a ∉ l.map Prod.fst := by
  intro l h hmem
  obtain ⟨⟨a', b⟩, hl, rfl⟩ := List.mem_map.1 hmem
  simpa using List.lookup_eq_none_iff.1 h _ hl

/-- One entry of the configuration. -/
def loadKey (loading : Loading pk) (keyId encoded : String) : Except TrustError (Loading pk) :=
  if loading.keys.length = maxTrustedKeys then .error (.tooManyKeys maxTrustedKeys)
  else if validateKeyId keyId = false then .error (.invalidKeyId keyId)
  else if hid : keyId ∈ loading.keys.map Prod.fst then .error (.duplicateKeyId keyId)
  else
    match decodeCanonicalBase64 pk 32 encoded with
    | none => .error (.invalidPublicKeyEncoding keyId)
    | some bytes =>
      match pk.keyFromBytes bytes with
      | none => .error (.invalidPublicKey keyId)
      | some verifyingKey =>
        if pk.isWeak verifyingKey then .error (.invalidPublicKey keyId)
        else if hkey : pk.compress verifyingKey = bytes then
          match hmaterial : loading.keyMaterial.lookup bytes with
          | some firstKeyId => .error (.duplicateKeyMaterial firstKeyId keyId)
          | none => .ok
              { keys := (keyId, ⟨verifyingKey, sha256Hex pk bytes.toList⟩) :: loading.keys
                distinctIds := List.nodup_cons.2 ⟨hid, loading.distinctIds⟩
                distinctMaterial := by
                  refine List.nodup_cons.2 ⟨?_, loading.distinctMaterial⟩
                  rw [← loading.material]
                  simp only [TrustedPublicKey.material, hkey]
                  exact not_mem_of_lookup_eq_none hmaterial
                keyMaterial := (bytes, keyId) :: loading.keyMaterial
                material := by simp [TrustedPublicKey.material, hkey, loading.material] }
        else .error (.invalidPublicKey keyId)

/-- The loop over the configuration. -/
def loadKeys (loading : Loading pk) : List (String × String) → Except TrustError (Loading pk)
  | [] => .ok loading
  | (keyId, encoded) :: rest => do
      let loading ← loadKey loading keyId encoded
      loadKeys loading rest

def fromBase64 (pk : Packages) (entries : List (String × String)) :
    Except TrustError (TrustedKeySet pk) := do
  let loading ← loadKeys ⟨⟨[], by simp, by simp⟩, [], rfl⟩ entries
  rejectIf loading.keys.isEmpty .noKeys
  return loading.toTrustedKeySet

def len (keys : TrustedKeySet pk) : ℕ := keys.keys.length

def get (keys : TrustedKeySet pk) (keyId : String) : Option (TrustedPublicKey pk) :=
  keys.keys.lookup keyId

end TrustedKeySet

/-! ### Verification -/

structure VerifiedSigner where
  keyId : String
  fingerprint : String
  deriving DecidableEq, Repr

structure VerifiedManifest (Version : Type) where
  manifest : Manifest Version
  manifestSha256 : String
  verifiedSigners : List VerifiedSigner

inductive VerificationError (Version : Type)
  | signatureDocument (error : SignatureError)
  | invalidThreshold (threshold trustedKeys : ℕ)
  | insufficientSignatures (required actual : ℕ)
  | manifest (error : ManifestError Version)

/-- What the loop does with one signature: one by an unknown key is skipped. -/
def verifySigner (keys : TrustedKeySet pk) (manifestBytes : List UInt8)
    (detached : DetachedSignature) : Option VerifiedSigner :=
  match keys.get detached.keyId with
  | none => none
  | some trusted =>
    if pk.verifyStrict trusted.verifyingKey manifestBytes detached.signature then
      some ⟨detached.keyId, trusted.fingerprint⟩
    else none

def verifyManifest (manifestBytes signatureDocumentBytes : List UInt8)
    (trustedKeys : TrustedKeySet pk) (threshold : ℕ) (expectedVersion : pk.Version)
    (expectedProtocolVersion : ℕ) :
    Except (VerificationError pk.Version) (VerifiedManifest pk.Version) := do
  rejectIf (threshold == 0 || trustedKeys.len < threshold)
    (.invalidThreshold threshold trustedKeys.len)
  rejectIf (manifestMaxBytes < manifestBytes.length)
    (.manifest (.tooLarge manifestBytes.length manifestMaxBytes))
  let document ← (parseSignatureDocument pk signatureDocumentBytes).mapError .signatureDocument
  let verifiedSigners := document.signatures.filterMap (verifySigner trustedKeys manifestBytes)
  rejectIf (verifiedSigners.length < threshold)
    (.insufficientSignatures threshold verifiedSigners.length)
  let manifest ← (parseManifest pk manifestBytes expectedVersion
    expectedProtocolVersion).mapError .manifest
  return ⟨manifest, sha256Hex pk manifestBytes, verifiedSigners⟩

/-! ### What verification means -/

/-- A signature whose identifier is that of a trusted key. -/
def TrustedKeySet.trusts (keys : TrustedKeySet pk) (signature : DetachedSignature) : Bool :=
  (keys.get signature.keyId).isSome

/-- Two signatures of different trusted keys: neither the identifiers nor the public keys agree. -/
def TrustedKeySet.Different (keys : TrustedKeySet pk) (a b : DetachedSignature) : Prop :=
  a.keyId ≠ b.keyId ∧ ∀ ka kb, keys.get a.keyId = some ka → keys.get b.keyId = some kb →
    ka.material ≠ kb.material

/-- At least `threshold` of the signatures, by pairwise different trusted keys, verify over the
bytes. -/
def SignedBy (keys : TrustedKeySet pk) (manifestBytes : List UInt8) (threshold : ℕ)
    (signatures : List DetachedSignature) : Prop :=
  ∃ signed : List DetachedSignature, signed.Sublist signatures ∧ threshold ≤ signed.length ∧
    signed.Pairwise keys.Different ∧
    ∀ s ∈ signed, ∃ key, keys.get s.keyId = some key ∧
      pk.verifyStrict key.verifyingKey manifestBytes s.signature = true

section Verification

variable {keys : TrustedKeySet pk} {manifestBytes : List UInt8} {threshold : ℕ}
  {signatures : List DetachedSignature}

theorem TrustedKeySet.mem_of_get {keyId : String} {key : TrustedPublicKey pk}
    (h : keys.get keyId = some key) : (keyId, key) ∈ keys.keys := by
  obtain ⟨l₁, l₂, hl, -⟩ := List.lookup_eq_some_iff.1 h
  simp [hl]

/-- Trusted keys with different identifiers are different keys. -/
theorem TrustedKeySet.different {a b : DetachedSignature} (h : a.keyId ≠ b.keyId) :
    keys.Different a b := by
  refine ⟨h, fun ka kb ha hb hmaterial => h ?_⟩
  have heq : (a.keyId, ka) = (b.keyId, kb) :=
    List.inj_on_of_nodup_map keys.distinctMaterial (mem_of_get ha) (mem_of_get hb) hmaterial
  exact congrArg Prod.fst heq

theorem verifySigner_isSome {s : DetachedSignature} :
    (verifySigner keys manifestBytes s).isSome = true ↔
      ∃ key, keys.get s.keyId = some key ∧
        pk.verifyStrict key.verifyingKey manifestBytes s.signature = true := by
  unfold verifySigner
  cases keys.get s.keyId with
  | none => simp
  | some key =>
    by_cases hv : pk.verifyStrict key.verifyingKey manifestBytes s.signature = true <;> simp [hv]

theorem length_filterMap_verifySigner :
    (signatures.filterMap (verifySigner keys manifestBytes)).length =
      (signatures.filter fun s => (verifySigner keys manifestBytes s).isSome).length := by
  induction signatures with
  | nil => rfl
  | cons s signatures ih => cases h : verifySigner keys manifestBytes s <;> simp [h, ih]

/-- The number of verified signers is the number of different trusted keys that signed. -/
theorem signedBy_iff (hids : (signatures.map DetachedSignature.keyId).Nodup) :
    SignedBy keys manifestBytes threshold signatures ↔
      threshold ≤ (signatures.filterMap (verifySigner keys manifestBytes)).length := by
  rw [length_filterMap_verifySigner]
  constructor
  · rintro ⟨signed, hsub, hlen, -, hsigned⟩
    have hall : signed.filter (fun s => (verifySigner keys manifestBytes s).isSome) = signed :=
      List.filter_eq_self.2 fun s hs => verifySigner_isSome.2 (hsigned s hs)
    calc threshold ≤ signed.length := hlen
      _ = (signed.filter fun s => (verifySigner keys manifestBytes s).isSome).length := by
          rw [hall]
      _ ≤ _ := (hsub.filter _).length_le
  · intro hlen
    refine ⟨_, List.filter_sublist, hlen, ?_, ?_⟩
    · have hpair : signatures.Pairwise fun a b => a.keyId ≠ b.keyId := List.pairwise_map.1 hids
      exact (hpair.sublist List.filter_sublist).imp fun h => TrustedKeySet.different h
    · intro s hs
      exact verifySigner_isSome.1 (List.mem_filter.1 hs).2

/-- There are no more different signers than trusted keys. -/
theorem SignedBy.le_len (h : SignedBy keys manifestBytes threshold signatures) :
    threshold ≤ keys.len := by
  obtain ⟨signed, -, hlen, hpair, hsigned⟩ := h
  have hnodup : (signed.map DetachedSignature.keyId).Nodup :=
    List.pairwise_map.2 (hpair.imp fun h => h.1)
  have hsub : signed.map DetachedSignature.keyId ⊆ keys.keys.map Prod.fst := by
    intro keyId hkey
    obtain ⟨s, hs, rfl⟩ := List.mem_map.1 hkey
    obtain ⟨key, hget, -⟩ := hsigned s hs
    exact List.mem_map.2 ⟨_, TrustedKeySet.mem_of_get hget, rfl⟩
  have hle := (List.subperm_of_subset hnodup hsub).length_le
  simp only [List.length_map] at hle
  exact Nat.le_trans hlen hle

/-- Signatures of unknown keys are skipped. -/
theorem filterMap_verifySigner_filter :
    (signatures.filter keys.trusts).filterMap (verifySigner keys manifestBytes) =
      signatures.filterMap (verifySigner keys manifestBytes) := by
  induction signatures with
  | nil => rfl
  | cons s signatures ih =>
    cases h : keys.get s.keyId with
    | none => simp [TrustedKeySet.trusts, verifySigner, h, ih]
    | some key => simp [TrustedKeySet.trusts, h, List.filterMap_cons, ih]

end Verification

/-- **Manifest trust.**  Verification succeeds exactly if the threshold is positive, the signature
document is well formed, enough different trusted keys signed the exact bytes of the manifest and
these meet the policy.  Two well-formed documents with the same signatures by trusted keys give the
same answer. -/
theorem verifyManifest_trust (keys : TrustedKeySet pk) (threshold : ℕ) (manifestBytes : List UInt8)
    (version : pk.Version) (protocol : ℕ) :
    (∀ documentBytes,
      (∃ verified,
        verifyManifest manifestBytes documentBytes keys threshold version protocol = .ok verified) ↔
      0 < threshold ∧
        (∃ signatures, WellFormed pk documentBytes signatures ∧
          SignedBy keys manifestBytes threshold signatures) ∧
        ∃ raw, ManifestPolicy pk manifestBytes version protocol raw) ∧
    ∀ documentBytes documentBytes' signatures signatures',
      WellFormed pk documentBytes signatures → WellFormed pk documentBytes' signatures' →
      signatures.filter keys.trusts = signatures'.filter keys.trusts →
      verifyManifest manifestBytes documentBytes keys threshold version protocol =
        verifyManifest manifestBytes documentBytes' keys threshold version protocol := by
  constructor
  · intro documentBytes
    simp only [verifyManifest, bind_eq_ok, exists_const, rejectIf_eq_ok, mapError_eq_ok,
      Bool.or_eq_false_iff, beq_eq_false_iff_ne, decide_eq_false_iff_not, Nat.not_lt, pure_eq_ok,
      Except.ok.injEq, parseSignatureDocument_eq_ok]
    constructor
    · rintro ⟨_, ⟨hpos, -⟩, -, document, ⟨-, hwf⟩, hcount, manifest, hmanifest, -⟩
      have hids := hwf.distinctIds
      exact ⟨Nat.pos_of_ne_zero hpos, ⟨document.signatures, hwf, (signedBy_iff hids).2 hcount⟩,
        parseManifest_isOk_iff.1 ⟨manifest, hmanifest⟩⟩
    · rintro ⟨hpos, ⟨signatures, hwf, hsigned⟩, hpolicy⟩
      have hids := hwf.distinctIds
      obtain ⟨manifest, hmanifest⟩ := parseManifest_isOk_iff.2 hpolicy
      obtain ⟨raw, hraw⟩ := hpolicy
      exact ⟨_, ⟨Nat.ne_of_gt hpos, hsigned.le_len⟩, hraw.size, ⟨1, signatures⟩, ⟨rfl, hwf⟩,
        (signedBy_iff hids).1 hsigned, manifest, hmanifest, rfl⟩
  · intro documentBytes documentBytes' signatures signatures' hwf hwf' hfilter
    have hparse : parseSignatureDocument pk documentBytes = .ok ⟨1, signatures⟩ :=
      parseSignatureDocument_eq_ok.2 ⟨rfl, hwf⟩
    have hparse' : parseSignatureDocument pk documentBytes' = .ok ⟨1, signatures'⟩ :=
      parseSignatureDocument_eq_ok.2 ⟨rfl, hwf'⟩
    have hsigners : signatures.filterMap (verifySigner keys manifestBytes) =
        signatures'.filterMap (verifySigner keys manifestBytes) := by
      rw [← filterMap_verifySigner_filter, hfilter, filterMap_verifySigner_filter]
    simp only [verifyManifest, hparse, hparse', Except.mapError, ok_bind, hsigners]

/-! ### A signed release

One release key, a manifest and its signature; the third-party functions are given by what they
return on these texts. -/

namespace Release

/-- The bytes of an ASCII text in parts. -/
def ascii (parts : List String) : List UInt8 :=
  parts.flatMap fun text => text.toList.map fun c => UInt8.ofNat c.toNat

def publicKeyText : String := "11qYAYKxCrfVS/7TyWQHOg7hcvPapiMlrwIaaPcHURo="

def publicKey : Vector UInt8 32 :=
  #v[215, 90, 152, 1, 130, 177, 10, 183, 213, 75, 254, 211, 201, 100, 7, 58, 14, 225,
    114, 243, 218, 166, 35, 37, 175, 2, 26, 104, 247, 7, 81, 26]

def signatureText : String :=
  "4wn0SYN89LcOmJ/F7m/JkPhH70ItIVIEIeX9z81DZBIk" ++
    "MFYfKoFIj7uk6hE0sFe9jNXEljrzZVHkC++i50yYCg=="

def signature : Vector UInt8 64 :=
  #v[227, 9, 244, 73, 131, 124, 244, 183, 14, 152, 159, 197, 238, 111, 201, 144, 248, 71,
    239, 66, 45, 33, 82, 4, 33, 229, 253, 207, 205, 67, 100, 18, 36, 48, 86, 31,
    42, 129, 72, 143, 187, 164, 234, 17, 52, 176, 87, 189, 140, 213, 196, 150, 58, 243,
    101, 81, 228, 11, 239, 162, 231, 76, 152, 10]

@[irreducible] def manifestBytes : List UInt8 :=
  ascii ["\x7b\"schema_version\":1,\"package\":\"nrm-agent\",",
    "\"version\":\"0.2.0\",\"protocol_version\":8,", "\"source_commit\":\"",
    "0123456789abcdef0123456789abcdef01234567", "\",\"artifacts\":[\x7b\"target\":\"",
    "x86_64-unknown-linux-musl", "\",\"filename\":\"",
    "nrm-agent-0.2.0-x86_64-unknown-linux-musl", "\",\"sha256\":\"",
    "2d711642b726b04401627ca9fbac32f5", "c8530fb1903cc4db02258717921a4881",
    "\",\"size\":1\x7d]\x7d"]

def rawManifest : RawManifest where
  schemaVersion := 1
  package := "nrm-agent"
  version := "0.2.0"
  protocolVersion := 8
  sourceCommit := "0123456789abcdef0123456789abcdef01234567"
  artifacts := [⟨"x86_64-unknown-linux-musl", "nrm-agent-0.2.0-x86_64-unknown-linux-musl",
    "2d711642b726b04401627ca9fbac32f5c8530fb1903cc4db02258717921a4881", 1⟩]

/-- The entry of a signature document with the signature above. -/
@[irreducible] def entryBytes (keyId : List UInt8) : List UInt8 :=
  ascii ["\x7b\"key_id\":\""] ++ keyId ++
    ascii ["\",\"signature\":\"", "4wn0SYN89LcOmJ/F7m/JkP", "hH70ItIVIEIeX9z81DZBIk",
      "MFYfKoFIj7uk6hE0sFe9jN", "XEljrzZVHkC++i50yYCg==", "\"\x7d"]

/-- A signature document with the given entries. -/
@[irreducible] def documentOf (entries : List UInt8) : List UInt8 :=
  ascii ["\x7b\"schema_version\":1,", "\"signatures\":["] ++ entries ++ ascii ["]\x7d"]

/-- The signature of the release key alone. -/
def documentBytes : List UInt8 := documentOf (entryBytes (ascii ["release"]))

/-- A signature under another identifier added before it. -/
def extendedBytes : List UInt8 :=
  documentOf (entryBytes (ascii ["stranger"]) ++ ascii [","] ++ entryBytes (ascii ["release"]))

/-- A signature under an identifier with a blank added before it. -/
def spoiledBytes : List UInt8 :=
  documentOf (entryBytes (ascii ["a stranger"]) ++ ascii [","] ++ entryBytes (ascii ["release"]))

def packages : Packages where
  Version := ℕ × ℕ × ℕ
  parseVersion text := if text = "0.2.0" then .ok (0, 2, 0) else .error "not a version"
  showVersion version :=
    toString version.1 ++ "." ++ toString version.2.1 ++ "." ++ toString version.2.2
  manifestFromSlice bytes :=
    if bytes = manifestBytes then .ok rawManifest else .error "not a manifest"
  signaturesFromSlice bytes :=
    if bytes = documentBytes then .ok ⟨1, [⟨"release", signatureText⟩]⟩
    else if bytes = extendedBytes then
      .ok ⟨1, [⟨"stranger", signatureText⟩, ⟨"release", signatureText⟩]⟩
    else if bytes = spoiledBytes then
      .ok ⟨1, [⟨"a stranger", signatureText⟩, ⟨"release", signatureText⟩]⟩
    else .error "not a signature document"
  base64Decode text :=
    if text = publicKeyText then some publicKey.toList
    else if text = signatureText then some signature.toList
    else none
  base64Encode bytes :=
    if bytes = publicKey.toList then publicKeyText
    else if bytes = signature.toList then signatureText
    else ""
  VerifyingKey := Vector UInt8 32
  keyFromBytes := some
  isWeak _ := false
  compress key := key
  verifyStrict key bytes sig := key == publicKey && bytes == manifestBytes && sig == signature
  sha256 bytes :=
    if bytes = publicKey.toList then
      #v[33, 254, 49, 223, 161, 84, 162, 97, 98, 107, 248, 84, 4, 111, 210, 39, 27, 123,
        237, 75, 106, 190, 69, 170, 88, 135, 126, 244, 127, 151, 33, 185]
    else
      #v[117, 15, 232, 253, 81, 190, 49, 113, 125, 245, 197, 45, 177, 27, 87, 237, 28, 51,
        91, 157, 113, 82, 93, 228, 73, 175, 114, 119, 172, 152, 185, 107]

/-- The key set the loader makes of the release key. -/
def keys : TrustedKeySet packages where
  keys := [("release", ⟨publicKey, sha256Hex packages publicKey.toList⟩)]
  distinctIds := by simp
  distinctMaterial := by simp

theorem fromBase64_eq : TrustedKeySet.fromBase64 packages [("release", publicKeyText)] = .ok keys :=
  rfl

theorem length_entryBytes (keyId : List UInt8) :
    (entryBytes keyId).length = keyId.length + 116 := by
  simp [entryBytes, ascii]

theorem length_documentOf (entries : List UInt8) :
    (documentOf entries).length = entries.length + 36 := by
  simp [documentOf, ascii]

theorem length_documentBytes : documentBytes.length = 159 := by
  simp [documentBytes, length_documentOf, length_entryBytes, ascii]

theorem length_extendedBytes : extendedBytes.length = 284 := by
  simp [extendedBytes, length_documentOf, length_entryBytes, ascii]

theorem length_spoiledBytes : spoiledBytes.length = 286 := by
  simp [spoiledBytes, length_documentOf, length_entryBytes, ascii]

theorem length_manifestBytes : manifestBytes.length = 333 := by decide +kernel

theorem manifest_json : packages.manifestFromSlice manifestBytes = .ok rawManifest := if_pos rfl

theorem document_json :
    packages.signaturesFromSlice documentBytes = .ok ⟨1, [⟨"release", signatureText⟩]⟩ := if_pos rfl

theorem extended_json : packages.signaturesFromSlice extendedBytes =
    .ok ⟨1, [⟨"stranger", signatureText⟩, ⟨"release", signatureText⟩]⟩ := by
  have hne : extendedBytes ≠ documentBytes := by
    intro h
    have := congrArg List.length h
    rw [length_extendedBytes, length_documentBytes] at this
    omega
  exact (if_neg hne).trans (if_pos rfl)

theorem spoiled_json : packages.signaturesFromSlice spoiledBytes =
    .ok ⟨1, [⟨"a stranger", signatureText⟩, ⟨"release", signatureText⟩]⟩ := by
  have hne : spoiledBytes ≠ documentBytes := by
    intro h
    have := congrArg List.length h
    rw [length_spoiledBytes, length_documentBytes] at this
    omega
  have hne' : spoiledBytes ≠ extendedBytes := by
    intro h
    have := congrArg List.length h
    rw [length_spoiledBytes, length_extendedBytes] at this
    omega
  exact (if_neg hne).trans ((if_neg hne').trans (if_pos rfl))

theorem decode_signature : decodeCanonicalBase64 packages 64 signatureText = some signature := by
  decide

theorem decode_release (keyId : String) (h : validateKeyId keyId = true) :
    Encodes packages ⟨keyId, signatureText⟩ ⟨keyId, signature⟩ :=
  ⟨rfl, h, decode_signature⟩

theorem document_wellFormed : WellFormed packages documentBytes [⟨"release", signature⟩] := by
  refine ⟨?_, _, document_json, by simp, by simp [maxSignatures], ?_, by simp⟩
  · rw [length_documentBytes]
    decide
  · exact .cons (decode_release _ (by decide)) .nil

theorem extended_wellFormed : WellFormed packages extendedBytes
    [⟨"stranger", signature⟩, ⟨"release", signature⟩] := by
  refine ⟨?_, _, extended_json, by simp, by simp [maxSignatures], ?_, by decide⟩
  · rw [length_extendedBytes]
    decide
  · exact .cons (decode_release _ (by decide)) (.cons (decode_release _ (by decide)) .nil)

theorem spoiled_not_wellFormed {signatures : List DetachedSignature} :
    ¬ WellFormed packages spoiledBytes signatures := by
  rintro ⟨-, raws, hjson, -, -, hencodes, -⟩
  rw [spoiled_json] at hjson
  cases hjson
  cases hencodes with
  | cons hfirst _ => exact absurd hfirst.2.1 (by decide)

theorem policy : ManifestPolicy packages manifestBytes (0, 2, 0) 8 rawManifest where
  size := by
    rw [length_manifestBytes]
    decide
  json := manifest_json
  schema := rfl
  package := rfl
  parsed := rfl
  protocol := rfl
  commit := by decide
  nonempty := by simp [rawManifest]
  count := by decide
  artifacts := by
    intro artifact h
    obtain rfl := List.mem_singleton.1 h
    exact ⟨.x8664UnknownLinuxMusl, rfl, by decide, by decide, by decide, by decide⟩
  targets := by simp [rawManifest]

theorem signedBy {threshold : ℕ} (h : threshold ≤ 1) :
    SignedBy keys manifestBytes threshold [⟨"release", signature⟩] := by
  refine ⟨_, List.Sublist.refl _, h, by simp, ?_⟩
  intro s hs
  obtain rfl := List.mem_singleton.1 hs
  refine ⟨_, rfl, ?_⟩
  simp [packages]

end Release

open Release in
/-- The release is verified, and the signature of a stranger changes nothing. -/
theorem verifyManifest_trust_release :
    (∃ verified,
      verifyManifest manifestBytes documentBytes keys 1 (0, 2, 0) 8 = .ok verified) ∧
    verifyManifest manifestBytes documentBytes keys 1 (0, 2, 0) 8 =
      verifyManifest manifestBytes extendedBytes keys 1 (0, 2, 0) 8 := by
  have htrust := verifyManifest_trust keys 1 manifestBytes (0, 2, 0) 8
  refine ⟨(htrust.1 documentBytes).2 ⟨by decide, ?_, ⟨_, policy⟩⟩, ?_⟩
  · exact ⟨_, document_wellFormed, signedBy (Nat.le_refl 1)⟩
  · exact htrust.2 _ _ _ _ document_wellFormed extended_wellFormed rfl

open Release in
/-- A threshold of zero is refused although nothing is asked of the signatures, and one more
signature by an unknown key under an ill-formed identifier spoils the whole document. -/
theorem verifyManifest_refused :
    TrustedKeySet.fromBase64 packages [("release", publicKeyText)] = .ok keys ∧
    (∃ raw, ManifestPolicy packages manifestBytes (0, 2, 0) 8 raw) ∧
    (∃ signatures, WellFormed packages documentBytes signatures ∧
      SignedBy keys manifestBytes 0 signatures ∧ SignedBy keys manifestBytes 1 signatures) ∧
    (∀ verified, verifyManifest manifestBytes documentBytes keys 0 (0, 2, 0) 8 ≠ .ok verified) ∧
    ∀ verified, verifyManifest manifestBytes spoiledBytes keys 1 (0, 2, 0) 8 ≠ .ok verified := by
  refine ⟨fromBase64_eq, ⟨_, policy⟩, ⟨_, document_wellFormed, signedBy (by decide),
    signedBy (by decide)⟩, ?_, ?_⟩
  · intro verified h
    simp [verifyManifest] at h
  · intro verified h
    simp only [verifyManifest, bind_eq_ok, exists_const, rejectIf_eq_ok, mapError_eq_ok,
      parseSignatureDocument_eq_ok] at h
    obtain ⟨-, -, document, ⟨-, hwf⟩, -⟩ := h
    exact spoiled_not_wellFormed hwf

end RemoteMirror.Registry
