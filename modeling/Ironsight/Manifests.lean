import Mathlib.Data.List.Sort
import Ironsight.Access
import Ironsight.Base64
import Ironsight.Calendar
import Ironsight.Json

/-! Chain-of-custody manifests. `writeManifest` signs a canonical text that holds
the clock reading of the program and the bounds of the time range; the row it
inserts holds a clock reading of the database and bounds in microseconds, and
the verification endpoint signs off the text rebuilt from the row. -/
namespace Ironsight.Manifests
open Tables Uuid Access

/-! ## Keys -/

abbrev Bytes := List UInt8

/-- The primitives of `crypto/ed25519` and `crypto/sha256`. -/
structure Crypto where
  newKeyFromSeed : Bytes → Bytes
  sign : Bytes → String → Bytes
  verify : Bytes → String → Bytes → Bool
  sha256 : Bytes → Bytes

/-- `PrivateKey.Public`: the second half. -/
def publicKey (privateKey : Bytes) : Bytes := (privateKey.drop 32).take 32

/-- `hex.EncodeToString`. -/
def hexEncode (bytes : Bytes) : String :=
  String.ofList (bytes.flatMap fun byte => [hexDigit (byte.toNat / 16), hexDigit (byte.toNat % 16)])

private def hexPairs : List UInt8 → Option Bytes
  | [] => some []
  | high :: low :: rest => do
    let h ← unhex high
    let l ← unhex low
    let bytes ← hexPairs rest
    return UInt8.ofNat (h * 16 + l) :: bytes
  | [_] => none

/-- `hex.DecodeString`. -/
def hexDecode (text : String) : Option Bytes := hexPairs text.toUTF8.data.toList

/-- `ParseED25519PrivateKeyHex`: a seed or a whole key. -/
def parseED25519PrivateKeyHex (crypto : Crypto) (text : String) : Option Bytes :=
  match hexDecode text with
  | none => none
  | some raw =>
    if raw.length = 32 then some (crypto.newKeyFromSeed raw)
    else if raw.length = 64 then some raw
    else none

/-- `ParseED25519PublicKeyHex`. -/
def parseED25519PublicKeyHex (text : String) : Option Bytes :=
  match hexDecode text with
  | none => none
  | some raw => if raw.length = 32 then some raw else none

/-- `ED25519PublicKeyFingerprint`: eight bytes of the digest. -/
def ed25519PublicKeyFingerprint (crypto : Crypto) (key : Bytes) : String :=
  if key = [] then "" else hexEncode ((crypto.sha256 key).take 8)

/-- `SHA256Hex`. -/
def sha256Hex (crypto : Crypto) (bytes : Bytes) : String := hexEncode (crypto.sha256 bytes)

/-! ## Manifests -/

/-- `map[string]string`. -/
abbrev StringMap := Table (Prod.fst : String × String → String)

/-- `Manifest`: what is signed. -/
structure Manifest where
  artifactType : String
  artifactID : String
  organizationID : String
  createdBy : String
  createdAt : Instant
  cameraIDs : List String
  segmentIDs : List String
  timeRangeStart : Option Instant
  timeRangeEnd : Option Instant
  sourceSegmentHashes : Option StringMap
  artifactSHA256 : String
  keyID : String := ""
  sigAlgorithm : String := ""
  signature : String := ""

/-- `sortedStringSlice`, by bytes and so by code points. -/
def sortedStringSlice (items : List String) : List String := items.insertionSort (· ≤ ·)

/-- A field tagged `omitempty`. -/
def optionalTime (key : String) (instant : Option Instant) : List (String × Json.Value) :=
  (instant.map fun t => (key, Json.Value.text (Calendar.rfc3339Nano t))).toList

/-- The fields of `manifestCanonical`. -/
def canonical (manifest : Manifest) : List (String × Json.Value) :=
  [("manifest_version", .text "1"),
    ("artifact_type", .text manifest.artifactType),
    ("artifact_id", .text manifest.artifactID),
    ("organization_id", .text manifest.organizationID),
    ("created_by", .text manifest.createdBy),
    ("created_at", .text (Calendar.rfc3339Nano manifest.createdAt)),
    ("camera_ids", .texts (sortedStringSlice manifest.cameraIDs)),
    ("segment_ids", .texts (sortedStringSlice manifest.segmentIDs))] ++
  optionalTime "time_range_start" manifest.timeRangeStart ++
  optionalTime "time_range_end" manifest.timeRangeEnd ++
  [("source_segment_hashes", .map ((manifest.sourceSegmentHashes.getD .empty).rows.insertionSort
      fun first second => first.1 ≤ second.1)),
    ("artifact_sha256", .text manifest.artifactSHA256)]

/-- `BuildManifest`; the marshalling of strings does not fail. -/
def buildManifest (manifest : Manifest) : String := String.ofList (Json.object (canonical manifest))

/-- `SignManifest`: signature, key id and canonical text. -/
def signManifest (crypto : Crypto) (privateKey : Bytes) (manifest : Manifest) : Option (String × String × String) :=
  if privateKey = [] then none
  else
    let canonicalJSON := buildManifest manifest
    some (Base64.encode (crypto.sign privateKey canonicalJSON),
      ed25519PublicKeyFingerprint crypto (publicKey privateKey), canonicalJSON)

/-- `Keyring`, later entries first. -/
abbrev Keyring := List (String × Bytes)

/-- Why a manifest does not verify. -/
inductive Reason where
  | noKeyID
  | unsupportedAlgorithm (algorithm : String)
  | noSignature
  | keyNotFound (keyID : String)
  | signatureNotBase64
  | verificationFailed
  | noKeysConfigured
  deriving DecidableEq

/-- `VerifyManifest`; `none` is success. -/
def verifyManifest (crypto : Crypto) (keyring : Keyring) (manifest : Manifest) : Option Reason :=
  if manifest.keyID = "" then some .noKeyID
  else if manifest.sigAlgorithm ≠ "ed25519" then some (.unsupportedAlgorithm manifest.sigAlgorithm)
  else if manifest.signature = "" then some .noSignature
  else match keyring.lookup manifest.keyID with
    | none => some (.keyNotFound manifest.keyID)
    | some key =>
      match Base64.decode manifest.signature with
      | none => some .signatureNotBase64
      | some signature =>
        if crypto.verify key (buildManifest manifest) signature then none else some .verificationFailed

/-! ## The table -/

/-- A row of `evidence_manifests`, less the copy of the canonical text, which the
endpoint does not read. -/
structure EvidenceManifestRow where
  manifestID : UUID
  artifactType : String
  artifactID : String
  organizationID : String
  createdBy : UUID
  createdAt : Instant
  cameraIDs : List String
  segmentIDs : List String
  timeRangeStart : Option Instant
  timeRangeEnd : Option Instant
  sourceSegmentHashes : StringMap
  artifactSHA256 : String
  signature : String
  keyID : String
  sigAlgorithm : String
  parentManifestID : Option UUID

abbrev ManifestTable := Table EvidenceManifestRow.manifestID

/-- `TIMESTAMPTZ` keeps microseconds. -/
def timestamptz (instant : Instant) : Instant := instant / 1000 * 1000

/-- The seconds that `to_timestamp` takes. -/
def inTimestamps (seconds : Int) : Bool := -210866803200 ≤ seconds ∧ seconds < 9224318016000

/-- Neither `TEXT` nor `JSONB` holds the character zero. -/
def storable (text : String) : Bool := !text.toList.contains '\x00'

/-- The insert of `InsertManifest`, with the defaults and the constraints of the
table. -/
def insertManifest (table : ManifestTable) (row : EvidenceManifestRow) : Option ManifestTable :=
  if ["clip_export", "compliance_report", "evidence_share"].contains row.artifactType ∧ row.sigAlgorithm = "ed25519" ∧
      storable row.artifactID ∧ storable row.organizationID ∧ row.cameraIDs.all storable ∧ row.segmentIDs.all storable ∧
      (row.sourceSegmentHashes.rows.all fun entry => storable entry.1 && storable entry.2) ∧
      ∀ parent ∈ row.parentManifestID, ∃ other ∈ table, other.manifestID = parent then
    table.insert? row
  else none

/-- `GetManifest`, within the caller's organisation. -/
def getManifest (table : ManifestTable) (id : UUID) (organizationID : String) : Option EvidenceManifestRow :=
  (table.find? id).filter fun row => row.organizationID = organizationID

/-! ## Writing -/

/-- The two keys of the configuration; the keyring is the map that its JSON holds,
empty when unset or malformed. -/
structure Config where
  evidenceED25519PrivateKey : String
  evidenceSigningKeyring : StringMap

/-- The arguments of `writeManifest`. -/
structure ManifestRequest where
  artifactType : String
  artifactID : String
  orgID : String
  createdByID : UUID
  cameraIDs : Option (List String) := none
  segmentIDs : Option (List String) := none
  trStart : Option Instant := none
  trEnd : Option Instant := none
  segHashes : Option StringMap := none
  artifactBytes : Bytes := []
  parentID : UUID := .nil

/-- The clock of the program, the clock of the database in microseconds, and the
random identifier of the row. -/
structure Env where
  now : Instant
  databaseMicros : Int
  manifestID : UUID

/-- The manifest of a request, at the time that the server reads. -/
def ManifestRequest.manifest (crypto : Crypto) (request : ManifestRequest) (now : Instant) : Manifest where
  artifactType := request.artifactType
  artifactID := request.artifactID
  organizationID := request.orgID
  createdBy := request.createdByID.text
  createdAt := now
  cameraIDs := request.cameraIDs.getD []
  segmentIDs := request.segmentIDs.getD []
  timeRangeStart := request.trStart
  timeRangeEnd := request.trEnd
  sourceSegmentHashes := some (request.segHashes.getD .empty)
  artifactSHA256 := sha256Hex crypto request.artifactBytes
  sigAlgorithm := "ed25519"

/-- The signature and key id, empty when the key is missing or malformed. -/
def signature (crypto : Crypto) (config : Config) (manifest : Manifest) : String × String :=
  if config.evidenceED25519PrivateKey = "" then ("", "")
  else match (parseED25519PrivateKeyHex crypto config.evidenceED25519PrivateKey).bind
      fun key => signManifest crypto key manifest with
    | none => ("", "")
    | some (signature, keyID, _) => (signature, keyID)

/-- The row that `writeManifest` inserts: `created_at` takes its default. -/
def ManifestRequest.row (crypto : Crypto) (config : Config) (request : ManifestRequest) (env : Env) :
    EvidenceManifestRow :=
  let manifest := request.manifest crypto env.now
  { manifestID := env.manifestID
    artifactType := request.artifactType
    artifactID := request.artifactID
    organizationID := request.orgID
    createdBy := request.createdByID
    createdAt := env.databaseMicros * 1000
    cameraIDs := manifest.cameraIDs
    segmentIDs := manifest.segmentIDs
    timeRangeStart := request.trStart.map timestamptz
    timeRangeEnd := request.trEnd.map timestamptz
    sourceSegmentHashes := request.segHashes.getD .empty
    artifactSHA256 := manifest.artifactSHA256
    signature := (signature crypto config manifest).1
    keyID := (signature crypto config manifest).2
    sigAlgorithm := "ed25519"
    parentManifestID := if request.parentID = .nil then none else some request.parentID }

/-- `writeManifest`: the table with the new row, unless the insert fails. -/
def writeManifest (crypto : Crypto) (config : Config) (table : ManifestTable) (request : ManifestRequest) (env : Env) :
    Option ManifestTable :=
  insertManifest table (request.row crypto config env)

/-! ## Verifying -/

/-- `buildKeyringFromConfig`: the active key, overridden by the configured ones. -/
def buildKeyringFromConfig (crypto : Crypto) (config : Config) : Keyring :=
  (config.evidenceSigningKeyring.rows.filterMap fun entry =>
    if entry.1 = "" then none else (parseED25519PublicKeyHex entry.2).map fun key => (entry.1, key)) ++
  if config.evidenceED25519PrivateKey = "" then []
  else match parseED25519PrivateKeyHex crypto config.evidenceED25519PrivateKey with
    | none => []
    | some key => [(ed25519PublicKeyFingerprint crypto (publicKey key), publicKey key)]

/-- `manifestRowToEvidence`. -/
def manifestRowToEvidence (row : EvidenceManifestRow) : Manifest where
  artifactType := row.artifactType
  artifactID := row.artifactID
  organizationID := row.organizationID
  createdBy := row.createdBy.text
  createdAt := row.createdAt
  cameraIDs := row.cameraIDs
  segmentIDs := row.segmentIDs
  timeRangeStart := row.timeRangeStart
  timeRangeEnd := row.timeRangeEnd
  sourceSegmentHashes := some row.sourceSegmentHashes
  artifactSHA256 := row.artifactSHA256
  keyID := row.keyID
  sigAlgorithm := row.sigAlgorithm
  signature := row.signature

inductive Response where
  | status (code : Nat) (body : String)
  | verdict (ok : Bool) (reason : Option Reason)
  deriving DecidableEq

/-- `HandleVerifyManifest` for a caller of an organisation. -/
def handleVerifyManifest (crypto : Crypto) (table : ManifestTable) (config : Config) (caller : Option String)
    (idText : String) : Response :=
  match caller with
  | none => .status 401 "unauthorized"
  | some organizationID =>
    match parse idText with
    | none => .status 400 "invalid manifest id"
    | some id =>
      match getManifest table id organizationID with
      | none => .status 404 "not found"
      | some row =>
        let keyring := buildKeyringFromConfig crypto config
        if keyring = [] then .verdict false (some .noKeysConfigured)
        else
          let reason := verifyManifest crypto keyring (manifestRowToEvidence row)
          .verdict reason.isNone reason

end Ironsight.Manifests
