import Ironsight.ManifestsProofs

/-! Moving a signature from one manifest to another. The signed bytes tell all of the
evidence, so a signature stays good exactly for manifests that carry the same. -/
namespace Ironsight.ManifestEvidence
open Tables Access Manifests ManifestsProofs

/-- The manifest with the signature data of another one. -/
def underSignatureOf (manifest signed : Manifest) : Manifest :=
  { manifest with keyID := signed.keyID, sigAlgorithm := signed.sigAlgorithm, signature := signed.signature }

/-- `ed25519.Verify` accepts the signature of the manifest for the message that was signed
and for no other one. -/
def AcceptsSigned (crypto : Crypto) (keyring : Keyring) (manifest : Manifest) : Prop :=
  ∀ key, keyring.lookup manifest.keyID = some key → ∀ signature, Base64.decode manifest.signature = some signature →
    ∃ signed, ∀ message, crypto.verify key message signature = true ↔ message = signed

@[simp] private theorem buildManifest_underSignatureOf {manifest signed : Manifest} :
    buildManifest (underSignatureOf manifest signed) = buildManifest manifest := rfl

/-- The accepted signature of one manifest is good for another one with the same text only. -/
private theorem accepted_iff {crypto : Crypto} {keyring : Keyring} {first second : Manifest}
    (exact : AcceptsSigned crypto keyring first) (accepted : verifyManifest crypto keyring first = none) :
    verifyManifest crypto keyring (underSignatureOf second first) = none ↔ buildManifest first = buildManifest second := by
  obtain ⟨named, algorithm, given, key, lookup, signature, decoded, verified⟩ := verifyManifest_eq_none_iff.mp accepted
  obtain ⟨signed, only⟩ := exact key lookup signature decoded
  have firstSigned : buildManifest first = signed := (only _).mp verified
  rw [verifyManifest_eq_none_iff]
  constructor
  · rintro ⟨_, _, _, other, lookup', signature', decoded', verified'⟩
    have sameKey : key = other := Option.some.inj (lookup.symm.trans lookup')
    have sameSignature : signature = signature' := Option.some.inj (decoded.symm.trans decoded')
    subst sameKey sameSignature
    exact firstSigned.trans ((only _).mp verified').symm
  · intro same
    refine ⟨named, algorithm, given, key, lookup, signature, decoded, (only _).mpr ?_⟩
    rw [buildManifest_underSignatureOf, ← same, firstSigned]

/-- Two manifests have the same canonical bytes exactly if they carry the same evidence, and
so a signature accepted for one is accepted for the other exactly then. -/
theorem manifest_bytes_tell_evidence (crypto : Crypto) (keyring : Keyring) (first second : Manifest) :
    (buildManifest first = buildManifest second ↔ SameEvidence first second) ∧
      (AcceptsSigned crypto keyring first → verifyManifest crypto keyring first = none →
        (verifyManifest crypto keyring (underSignatureOf second first) = none ↔ SameEvidence first second)) := by
  refine ⟨buildManifest_eq_iff_sameEvidence, fun exact accepted => ?_⟩
  rw [accepted_iff exact accepted, buildManifest_eq_iff_sameEvidence]

/-! ## An export and its forgery -/

private def keyID : String := ed25519PublicKeyFingerprint plainCrypto (publicKey plainKey)

private def keyring : Keyring := [(keyID, publicKey plainKey)]

/-- A manifest of two cameras, unsigned. -/
private def draft : Manifest where
  artifactType := "clip_export"
  artifactID := "clip-7"
  organizationID := "org"
  createdBy := "00000000-0000-0000-0000-000000000000"
  createdAt := 1500
  cameraIDs := ["north", "gate"]
  segmentIDs := []
  timeRangeStart := some 1000
  timeRangeEnd := none
  sourceSegmentHashes := none
  artifactSHA256 := "00"

private def signedDraft : Manifest :=
  { draft with
    keyID := keyID, sigAlgorithm := "ed25519"
    signature := Base64.encode (plainCrypto.sign plainKey (buildManifest draft)) }

private theorem keyID_ne_empty : keyID ≠ "" := by decide +kernel

private theorem lookup_keyID : keyring.lookup keyID = some (publicKey plainKey) := by simp [keyring]

private theorem signedDraft_exact : AcceptsSigned plainCrypto keyring signedDraft := by
  intro key lookup signature decoded
  have sameKey : publicKey plainKey = key := Option.some.inj (lookup_keyID.symm.trans lookup)
  have sameSignature : plainCrypto.sign plainKey (buildManifest draft) = signature :=
    Option.some.inj ((Base64.decode_encode _).symm.trans decoded)
  subst sameKey sameSignature
  exact ⟨buildManifest draft, fun message => by simp [plainKey_valid.exact]⟩

private theorem signedDraft_accepted : verifyManifest plainCrypto keyring signedDraft = none :=
  verifyManifest_eq_none_iff.mpr ⟨keyID_ne_empty, rfl, Base64.encode_ne_empty (plainKey_valid.signs _), _, lookup_keyID,
    _, Base64.decode_encode _, (plainKey_valid.exact _ _ _).mpr ⟨rfl, rfl⟩⟩

/-- The signature also covers the cameras in another order, but not a removed camera. -/
theorem draft_signature_moves :
    verifyManifest plainCrypto keyring (underSignatureOf { draft with cameraIDs := ["gate", "north"] } signedDraft) = none ∧
      verifyManifest plainCrypto keyring (underSignatureOf { draft with cameraIDs := ["gate"] } signedDraft) ≠ none := by
  constructor
  · refine ((manifest_bytes_tell_evidence plainCrypto keyring signedDraft _).2 signedDraft_exact
      signedDraft_accepted).mpr ?_
    exact ⟨rfl, rfl, rfl, rfl, rfl, List.Perm.swap _ _ _, .nil, rfl, rfl, fun _ => rfl, rfl⟩
  · intro accepted
    have same := ((manifest_bytes_tell_evidence plainCrypto keyring signedDraft _).2 signedDraft_exact
      signedDraft_accepted).mp accepted
    exact absurd same.cameraIDs.length_eq (by decide)

end Ironsight.ManifestEvidence
