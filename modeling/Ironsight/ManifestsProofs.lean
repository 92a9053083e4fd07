import Ironsight.Manifests

/-! Whether a written manifest verifies. The text rebuilt from the row is the
signed one exactly if the row kept both clock readings and the bounds of the
time range; and a signature is then accepted exactly if the keyring still holds
the signing key under its fingerprint. -/
namespace Ironsight.ManifestsProofs
open Tables Uuid Access Manifests

/-! ## The canonical text -/

/-- The optional fields tell both bounds, present or not. -/
private theorem optionalTime_eq {start start' stop stop' : Option Instant}
    (same : optionalTime "time_range_start" start ++ optionalTime "time_range_end" stop =
      optionalTime "time_range_start" start' ++ optionalTime "time_range_end" stop') : start = start' ∧ stop = stop' := by
  cases start <;> cases start' <;> cases stop <;> cases stop' <;>
    simp_all [optionalTime, Calendar.rfc3339Nano_injective.eq_iff]

/-- The segment hashes are the same map; nil counts as empty. -/
def SameHashes (first second : Option StringMap) : Prop :=
  ∀ segment, (first.getD .empty).find? segment = (second.getD .empty).find? segment

/-- Everything in a manifest but the data about its signature. -/
structure SameEvidence (first second : Manifest) : Prop where
  artifactType : first.artifactType = second.artifactType
  artifactID : first.artifactID = second.artifactID
  organizationID : first.organizationID = second.organizationID
  createdBy : first.createdBy = second.createdBy
  createdAt : first.createdAt = second.createdAt
  cameraIDs : first.cameraIDs.Perm second.cameraIDs
  segmentIDs : first.segmentIDs.Perm second.segmentIDs
  timeRangeStart : first.timeRangeStart = second.timeRangeStart
  timeRangeEnd : first.timeRangeEnd = second.timeRangeEnd
  sourceSegmentHashes : SameHashes first.sourceSegmentHashes second.sourceSegmentHashes
  artifactSHA256 : first.artifactSHA256 = second.artifactSHA256

private theorem sortedStringSlice_eq_iff {first second : List String} :
    sortedStringSlice first = sortedStringSlice second ↔ first.Perm second := by
  have sorted (items : List String) : (sortedStringSlice items).Perm items := List.perm_insertionSort _ _
  constructor
  · intro same
    exact (sorted first).symm.trans (same ▸ sorted second)
  · intro same
    exact ((sorted first).trans (same.trans (sorted second).symm)).eq_of_sortedLE
      List.sortedLE_insertionSort List.sortedLE_insertionSort

/-- The entries in the order of their keys, as `json.Marshal` writes a map. -/
private def entries (hashes : StringMap) : List (String × String) :=
  hashes.rows.insertionSort fun first second => first.1 ≤ second.1

private theorem mem_entries {hashes : StringMap} {entry : String × String} : entry ∈ entries hashes ↔ entry ∈ hashes :=
  List.mem_insertionSort _

private theorem entries_eq_iff {first second : StringMap} :
    entries first = entries second ↔ ∀ segment, first.find? segment = second.find? segment := by
  constructor
  · intro same segment
    refine Option.ext fun entry => ?_
    rw [Table.find?_eq_some, Table.find?_eq_some, ← mem_entries, same, mem_entries]
  · intro same
    have members (entry : String × String) : entry ∈ first ↔ entry ∈ second := by
      have found : first.find? entry.1 = some entry ↔ second.find? entry.1 = some entry := by rw [same]
      simpa only [Table.find?_eq_some, and_true] using found
    have perm : first.rows.Perm second.rows :=
      (List.perm_ext_iff_of_nodup first.distinct.of_map second.distinct.of_map).mpr members
    have sorted (hashes : StringMap) : (entries hashes).Pairwise fun first second => first.1 ≤ second.1 :=
      List.pairwise_insertionSort _ _
    refine List.Perm.eq_of_pairwise ?_ (sorted first) (sorted second)
      ((List.perm_insertionSort _ _).trans (perm.trans (List.perm_insertionSort _ _).symm))
    intro entry other held held' before after
    exact Table.key_inj (mem_entries.mp held) ((members other).mpr (mem_entries.mp held')) (le_antisymm before after)

/-- The canonical text tells everything but the data about the signature. -/
theorem buildManifest_eq_iff_sameEvidence {first second : Manifest} :
    buildManifest first = buildManifest second ↔ SameEvidence first second := by
  constructor
  · intro same
    have fields := Json.object_injective (String.ofList_injective same)
    simp only [canonical, List.cons_append, List.nil_append, List.append_assoc, List.cons.injEq, Prod.mk.injEq,
      Json.Value.text.injEq, Json.Value.texts.injEq, true_and] at fields
    obtain ⟨type, id, organization, creator, created, cameras, segments, rest⟩ := fields
    rw [← List.append_assoc, ← List.append_assoc] at rest
    obtain ⟨ranges, digests⟩ := List.append_inj' rest rfl
    simp only [List.cons.injEq, Prod.mk.injEq, Json.Value.text.injEq, Json.Value.map.injEq, true_and, and_true] at digests
    obtain ⟨start, stop⟩ := optionalTime_eq ranges
    exact ⟨type, id, organization, creator, Calendar.rfc3339Nano_injective created, sortedStringSlice_eq_iff.mp cameras,
      sortedStringSlice_eq_iff.mp segments, start, stop, entries_eq_iff.mp digests.1, digests.2⟩
  · rintro ⟨type, id, organization, creator, created, cameras, segments, start, stop, hashes, digest⟩
    have sorted := entries_eq_iff.mpr hashes
    simp only [entries] at sorted
    simp only [buildManifest, canonical, type, id, organization, creator, created, sortedStringSlice_eq_iff.mpr cameras,
      sortedStringSlice_eq_iff.mpr segments, start, stop, sorted, digest]

/-- Two manifests that differ in their times at most have the same text exactly
if their times are the same. -/
theorem buildManifest_eq_iff {first second : Manifest} (types : first.artifactType = second.artifactType)
    (ids : first.artifactID = second.artifactID) (organizations : first.organizationID = second.organizationID)
    (creators : first.createdBy = second.createdBy) (cameras : first.cameraIDs = second.cameraIDs)
    (segments : first.segmentIDs = second.segmentIDs) (hashes : first.sourceSegmentHashes = second.sourceSegmentHashes)
    (digests : first.artifactSHA256 = second.artifactSHA256) :
    buildManifest first = buildManifest second ↔ first.createdAt = second.createdAt ∧
      first.timeRangeStart = second.timeRangeStart ∧ first.timeRangeEnd = second.timeRangeEnd := by
  rw [buildManifest_eq_iff_sameEvidence]
  constructor
  · intro same
    exact ⟨same.createdAt, same.timeRangeStart, same.timeRangeEnd⟩
  · rintro ⟨created, start, stop⟩
    exact ⟨types, ids, organizations, creators, created, .of_eq cameras, .of_eq segments, start, stop,
      fun segment => by rw [hashes], digests⟩

/-! ## Keys -/

/-- What `crypto/ed25519` and `crypto/sha256` promise for a valid private key: a
signature is accepted for the signed message under the key's own public half
and for nothing else, and is not empty; keys have 64 bytes and digests 32. -/
structure ValidKey (crypto : Crypto) (key : Bytes) : Prop where
  exact : ∀ verifier message signed,
    crypto.verify verifier message (crypto.sign key signed) = true ↔ verifier = publicKey key ∧ message = signed
  signs : ∀ message, crypto.sign key message ≠ []
  length : key.length = 64
  digest : ∀ bytes, (crypto.sha256 bytes).length = 32

/-- No other public key is configured under the fingerprint of this one. -/
def Unshadowed (crypto : Crypto) (config : Config) (key : Bytes) : Prop :=
  ∀ entry ∈ config.evidenceSigningKeyring, entry.1 = ed25519PublicKeyFingerprint crypto (publicKey key) →
    ∀ other ∈ parseED25519PublicKeyHex entry.2, other = publicKey key

section Keys
variable {crypto : Crypto} {config : Config} {key : Bytes}

private theorem publicKey_ne_nil (valid : ValidKey crypto key) : publicKey key ≠ [] := by
  intro empty
  have count := congrArg List.length empty
  rw [publicKey, List.length_take, List.length_drop, valid.length] at count
  cases count

private theorem hexEncode_ne_empty {bytes : Bytes} (some_ : bytes ≠ []) : hexEncode bytes ≠ "" := by
  intro empty
  have letters := congrArg String.toList empty
  rw [hexEncode, String.toList_ofList] at letters
  cases bytes with
  | nil => exact some_ rfl
  | cons => cases letters

theorem fingerprint_ne_empty (valid : ValidKey crypto key) :
    ed25519PublicKeyFingerprint crypto (publicKey key) ≠ "" := by
  rw [ed25519PublicKeyFingerprint, if_neg (publicKey_ne_nil valid)]
  refine hexEncode_ne_empty fun empty => ?_
  have count := congrArg List.length empty
  rw [List.length_take, valid.digest] at count
  cases count

private theorem given_of_parsed (parsed : parseED25519PrivateKeyHex crypto config.evidenceED25519PrivateKey = some key) :
    config.evidenceED25519PrivateKey ≠ "" := by
  intro empty
  rw [empty] at parsed
  cases parsed

/-- The keyring holds the active key under its fingerprint, or a configured one. -/
private theorem keyring_lookup (valid : ValidKey crypto key)
    (parsed : parseED25519PrivateKeyHex crypto config.evidenceED25519PrivateKey = some key) :
    ∃ found, (buildKeyringFromConfig crypto config).lookup (ed25519PublicKeyFingerprint crypto (publicKey key)) =
      some found ∧ (found = publicKey key ↔ Unshadowed crypto config key) := by
  have named := fingerprint_ne_empty valid
  simp only [Unshadowed, buildKeyringFromConfig, given_of_parsed parsed, if_false, parsed, List.lookup_append]
  generalize ed25519PublicKeyFingerprint crypto (publicKey key) = fingerprint at *
  cases configured : (config.evidenceSigningKeyring.rows.filterMap fun entry =>
      if entry.1 = "" then none
      else (parseED25519PublicKeyHex entry.2).map fun other => (entry.1, other)).lookup fingerprint with
  | none =>
    refine ⟨publicKey key, by simp, iff_of_true rfl fun entry held same other read => ?_⟩
    have listed := List.lookup_eq_none_iff.mp configured (fingerprint, other) (List.mem_filterMap.mpr ⟨entry, held, by
      rw [if_neg (same ▸ named), read, same]
      rfl⟩)
    simp at listed
  | some found =>
    obtain ⟨_, _, split, _⟩ := List.lookup_eq_some_iff.mp configured
    have listed := split ▸ List.mem_append_right _ List.mem_cons_self
    obtain ⟨entry, held, read⟩ := List.mem_filterMap.mp listed
    split at read
    · cases read
    · obtain ⟨parsedKey, reads, same⟩ := Option.map_eq_some_iff.mp read
      cases same
      refine ⟨found, rfl, ?_, fun unshadowed => unshadowed entry held rfl found reads⟩
      rintro rfl other member sameName another reading
      rw [Table.key_inj member held sameName, reads] at reading
      exact (Option.some.inj reading).symm

/-- What a manifest needs to verify. -/
theorem verifyManifest_eq_none_iff {keyring : Keyring} {manifest : Manifest} :
    verifyManifest crypto keyring manifest = none ↔ manifest.keyID ≠ "" ∧ manifest.sigAlgorithm = "ed25519" ∧
      manifest.signature ≠ "" ∧ ∃ found, keyring.lookup manifest.keyID = some found ∧
        ∃ signature, Base64.decode manifest.signature = some signature ∧
          crypto.verify found (buildManifest manifest) signature = true := by
  fun_cases verifyManifest crypto keyring manifest with
  | case1 unnamed => simp [unnamed]
  | case2 _ algorithm => simp [algorithm]
  | case3 _ _ unsigned => simp [unsigned]
  | case4 _ _ _ missing => simp [missing]
  | case5 _ _ _ found lookup undecoded => simp [undecoded]
  | case6 named algorithm signed found lookup signature decoded accepted =>
    refine iff_of_true rfl ⟨named, not_not.mp algorithm, signed, found, lookup, signature, decoded, accepted⟩
  | case7 named algorithm signed found lookup signature decoded refused =>
    refine iff_of_false nofun ?_
    rintro ⟨_, _, _, other, lookup', signature', decoded', accepted⟩
    rw [Option.some.inj (lookup.symm.trans lookup'), Option.some.inj (decoded.symm.trans decoded')] at refused
    exact refused accepted

end Keys

/-! ## A written row -/

/-- The endpoint, asked by the owner for the new row, rebuilds the signed text and
answers ok. -/
structure ManifestVerifies (crypto : Crypto) (config : Config) (request : ManifestRequest) (env : Env)
    (table : ManifestTable) : Prop where
  rebuilt : ∃ row, getManifest table env.manifestID request.orgID = some row ∧
    buildManifest (manifestRowToEvidence row) = buildManifest (request.manifest crypto env.now)
  ok : handleVerifyManifest crypto table config (some request.orgID) env.manifestID.text = .verdict true none

section Rows
variable {crypto : Crypto} {config : Config} {key : Bytes} {table after : ManifestTable} {request : ManifestRequest}
  {env : Env}

private theorem getManifest_written (written : writeManifest crypto config table request env = some after) :
    getManifest after env.manifestID request.orgID = some (request.row crypto config env) := by
  unfold writeManifest insertManifest at written
  split at written
  · have held := (Table.mem_insert? written).mpr (.inr rfl)
    have found : after.find? env.manifestID = some (request.row crypto config env) :=
      Table.find?_eq_some.mpr ⟨held, rfl⟩
    rw [getManifest, found]
    simp [Option.filter, ManifestRequest.row]
  · cases written

private theorem micros_eq_iff (instant : Int) : instant / 1000 * 1000 = instant ↔ instant % 1000 = 0 := by
  omega

private theorem timestamptz_eq_iff {instant : Instant} : timestamptz instant = instant ↔ instant % 1000 = 0 :=
  micros_eq_iff instant

private theorem map_timestamptz_eq_iff {bound : Option Instant} :
    bound.map timestamptz = bound ↔ ∀ instant ∈ bound, instant % 1000 = 0 := by
  cases bound with
  | none => simp
  | some instant => simpa using timestamptz_eq_iff

/-- The text rebuilt from the row is the signed one exactly if the row kept all
times. -/
private theorem rebuilt_iff : buildManifest (manifestRowToEvidence (request.row crypto config env)) =
    buildManifest (request.manifest crypto env.now) ↔ env.now = env.databaseMicros * 1000 ∧
      (∀ instant ∈ request.trStart, instant % 1000 = 0) ∧ ∀ instant ∈ request.trEnd, instant % 1000 = 0 := by
  have kept : buildManifest (manifestRowToEvidence (request.row crypto config env)) =
      buildManifest (request.manifest crypto env.now) ↔ env.databaseMicros * 1000 = env.now ∧
        request.trStart.map timestamptz = request.trStart ∧ request.trEnd.map timestamptz = request.trEnd :=
    buildManifest_eq_iff rfl rfl rfl rfl rfl rfl rfl rfl
  rw [kept, map_timestamptz_eq_iff, map_timestamptz_eq_iff, eq_comm]

/-- The verdict on a signed row. -/
private theorem verifyManifest_row (parsed : parseED25519PrivateKeyHex crypto config.evidenceED25519PrivateKey = some key)
    (valid : ValidKey crypto key) :
    verifyManifest crypto (buildKeyringFromConfig crypto config) (manifestRowToEvidence (request.row crypto config env)) =
      none ↔ Unshadowed crypto config key ∧ buildManifest (manifestRowToEvidence (request.row crypto config env)) =
        buildManifest (request.manifest crypto env.now) := by
  have keyed : key ≠ [] := by
    rintro rfl
    cases valid.length
  have signed : signature crypto config (request.manifest crypto env.now) =
      (Base64.encode (crypto.sign key (buildManifest (request.manifest crypto env.now))),
        ed25519PublicKeyFingerprint crypto (publicKey key)) := by
    simp [signature, given_of_parsed parsed, parsed, signManifest, keyed]
  obtain ⟨found, lookup, right⟩ := keyring_lookup valid parsed
  generalize rebuilding : manifestRowToEvidence (request.row crypto config env) = rebuilt
  have keyID : rebuilt.keyID = ed25519PublicKeyFingerprint crypto (publicKey key) :=
    rebuilding ▸ congrArg Prod.snd signed
  have written : rebuilt.signature = Base64.encode (crypto.sign key (buildManifest (request.manifest crypto env.now))) :=
    rebuilding ▸ congrArg Prod.fst signed
  have algorithm : rebuilt.sigAlgorithm = "ed25519" := rebuilding ▸ rfl
  have written_ne : Base64.encode (crypto.sign key (buildManifest (request.manifest crypto env.now))) ≠ "" :=
    Base64.encode_ne_empty (valid.signs _)
  simp only [verifyManifest_eq_none_iff, keyID, algorithm, written, ne_eq, fingerprint_ne_empty valid, written_ne, lookup,
    Base64.decode_encode, not_false_eq_true, true_and, Option.some.injEq, exists_eq_left', valid.exact, right]

private theorem keyring_ne_nil (parsed : parseED25519PrivateKeyHex crypto config.evidenceED25519PrivateKey = some key) :
    buildKeyringFromConfig crypto config ≠ [] := by
  simp [buildKeyringFromConfig, given_of_parsed parsed, parsed]

private theorem handleVerifyManifest_row
    (parsed : parseED25519PrivateKeyHex crypto config.evidenceED25519PrivateKey = some key) (valid : ValidKey crypto key)
    (written : writeManifest crypto config table request env = some after) :
    handleVerifyManifest crypto after config (some request.orgID) env.manifestID.text = .verdict true none ↔
      Unshadowed crypto config key ∧ buildManifest (manifestRowToEvidence (request.row crypto config env)) =
        buildManifest (request.manifest crypto env.now) := by
  rw [← verifyManifest_row parsed valid]
  simp [handleVerifyManifest, parse_text, getManifest_written written, keyring_ne_nil parsed]

/-- A manifest signed with a valid key verifies exactly if the clocks of the
program and of the database read the same, in whole microseconds, the bounds of
the time range are whole microseconds too, and no other key is configured under
the fingerprint of the signing key. -/
theorem written_manifest_verifies_iff
    (parsed : parseED25519PrivateKeyHex crypto config.evidenceED25519PrivateKey = some key) (valid : ValidKey crypto key)
    (written : writeManifest crypto config table request env = some after) :
    ManifestVerifies crypto config request env after ↔ env.now = env.databaseMicros * 1000 ∧
      (∀ instant ∈ request.trStart, instant % 1000 = 0) ∧ (∀ instant ∈ request.trEnd, instant % 1000 = 0) ∧
      Unshadowed crypto config key := by
  have read := getManifest_written written
  have verdict := handleVerifyManifest_row parsed valid written
  constructor
  · rintro ⟨⟨row, found, same⟩, ok⟩
    cases read.symm.trans found
    obtain ⟨now, start, stop⟩ := rebuilt_iff.mp same
    exact ⟨now, start, stop, (verdict.mp ok).1⟩
  · rintro ⟨now, start, stop, unshadowed⟩
    exact ⟨⟨_, read, rebuilt_iff.mpr ⟨now, start, stop⟩⟩,
      verdict.mpr ⟨unshadowed, rebuilt_iff.mpr ⟨now, start, stop⟩⟩⟩

end Rows

/-! ## Two clocks -/

/-- A signature that holds the key and the message. -/
def plainCrypto : Crypto where
  newKeyFromSeed seed := seed ++ seed
  sign key message := key ++ message.toUTF8.data.toList
  verify verifier message signature :=
    decide (publicKey (signature.take 64) = verifier ∧ signature.drop 64 = message.toUTF8.data.toList)
  sha256 _ := List.replicate 32 0

def plainKey : Bytes := List.replicate 64 0

theorem plainKey_valid : ValidKey plainCrypto plainKey where
  exact verifier message signed := by
    have length : plainKey.length = 64 := List.length_replicate
    have bytes : signed.toUTF8.data.toList = message.toUTF8.data.toList ↔ message = signed := by
      constructor
      · intro same
        exact (String.toByteArray_inj.mp (ByteArray.ext (Array.toList_inj.mp same))).symm
      · rintro rfl
        rfl
    simp only [plainCrypto, decide_eq_true_iff, ← length, List.take_left', List.drop_left', bytes]
    exact and_congr_left' eq_comm
  signs message := by simp [plainCrypto, plainKey]
  length := List.length_replicate
  digest _ := List.length_replicate

private def plainConfig : Config where
  evidenceED25519PrivateKey := "0000000000000000000000000000000000000000000000000000000000000000"
  evidenceSigningKeyring := .empty

private def export_ : ManifestRequest where
  artifactType := "clip_export"
  artifactID := "clip"
  orgID := "org"
  createdByID := .nil
  cameraIDs := some ["north", "gate"]
  trStart := some 1000000

private theorem plainKey_parsed :
    parseED25519PrivateKeyHex plainCrypto plainConfig.evidenceED25519PrivateKey = some plainKey := by
  decide +kernel

private theorem export_written (env : Env) :
    ∃ after, writeManifest plainCrypto plainConfig .empty export_ env = some after := by
  have accepted : ∃ after, (Table.empty : ManifestTable).insert? (export_.row plainCrypto plainConfig env) = some after :=
    Table.insert?_of_fresh fun _ held => absurd held List.not_mem_nil
  rw [writeManifest, insertManifest, if_pos]
  · exact accepted
  · refine ⟨?_, rfl, ?_, ?_, ?_, rfl, rfl, ?_⟩
    · exact (by decide : ["clip_export", "compliance_report", "evidence_share"].contains "clip_export" = true)
    · exact (by decide : storable "clip" = true)
    · exact (by decide : storable "org" = true)
    · exact (by decide : ["north", "gate"].all storable = true)
    · exact nofun

/-- 5000 nanoseconds for the server are 5 microseconds for the database. -/
theorem manifest_of_agreeing_clocks_verifies : ∃ after,
    writeManifest plainCrypto plainConfig .empty export_ ⟨5000, 5, .nil⟩ = some after ∧
      ManifestVerifies plainCrypto plainConfig export_ ⟨5000, 5, .nil⟩ after := by
  obtain ⟨after, written⟩ := export_written ⟨5000, 5, .nil⟩
  refine ⟨after, written, (written_manifest_verifies_iff plainKey_parsed plainKey_valid written).mpr ?_⟩
  exact ⟨rfl, by decide, nofun, nofun⟩

/-- The row is stamped two microseconds after the clock that was signed. -/
theorem manifest_of_later_row_rejected :
    parseED25519PrivateKeyHex plainCrypto plainConfig.evidenceED25519PrivateKey = some plainKey ∧
      ValidKey plainCrypto plainKey ∧ ∃ after,
        writeManifest plainCrypto plainConfig .empty export_ ⟨5600, 7, .nil⟩ = some after ∧
          handleVerifyManifest plainCrypto after plainConfig (some "org") UUID.nil.text ≠ .verdict true none := by
  obtain ⟨after, written⟩ := export_written ⟨5600, 7, .nil⟩
  refine ⟨plainKey_parsed, plainKey_valid, after, written, fun ok => ?_⟩
  have same := ((handleVerifyManifest_row plainKey_parsed plainKey_valid written).mp ok).2
  exact absurd (rebuilt_iff.mp same).1 (by decide)

end Ironsight.ManifestsProofs
