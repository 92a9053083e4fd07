import Ironsight.JsonReader
import Ironsight.Manifests
import Ironsight.Rfc3339

/-! The offline verifier `cmd/verify-manifest`: it takes a public key and the JSON of a
manifest row, reads the canonical text that the row holds into a manifest of its own, and
verifies that manifest under the one key. The text of `manifest_json` itself is never
compared with anything. -/
namespace Ironsight.OfflineVerify
open Tables Access Manifests JsonReader

/-! ## Decoding into structs -/

/-- Keys are matched with field names under case folding, in which two letters outside
ASCII take part. -/
def foldChar (c : Char) : Char := if c = '\u017F' then 's' else if c = '\u212A' then 'k' else c.toLower

def names (field key : String) : Bool := key.toList.map foldChar = field.toList

/-- What a field is given, in the order of the text. -/
def given {α : Type} (field : String) (members : List (String × α)) : List α :=
  (members.filter fun member => names field member.1).map Prod.snd

/-- A `string`, which `null` leaves as it was. -/
def decodeString (old : String) : Tree → Option String
  | .null => some old
  | .string value => some value
  | _ => none

/-- A `*string`. -/
def decodePointer (_ : Option String) : Tree → Option (Option String)
  | .null => some none
  | .string value => some (some value)
  | _ => none

/-- A `[]string`, with what its backing array holds behind its end: elements are decoded
into the places of earlier ones. -/
structure Slice where
  items : List String := []
  hidden : List String := []

def decodeElements (backing : List String) : List Tree → Option (List String)
  | [] => some []
  | tree :: trees => do
    let item ← decodeString (backing.headD "") tree
    let items ← decodeElements backing.tail trees
    return item :: items

def decodeSlice (old : Slice) : Tree → Option Slice
  | .null | .array [] => some {}
  | .array trees =>
    let backing := old.items ++ old.hidden
    (decodeElements backing trees).map fun items => ⟨items, backing.drop items.length⟩
  | _ => none

/-- A `map[string]string`: further objects add to the map. -/
def decodeMap (old : Option StringMap) : Tree → Option (Option StringMap)
  | .null => some none
  | .object members =>
    (members.foldlM (fun map member => (decodeString "" member.2).map fun value => map.put (member.1, value))
      (old.getD .empty)).map some
  | _ => none

structure CanonicalShape where
  manifestVersion : String
  artifactType : String
  artifactID : String
  organizationID : String
  createdBy : String
  createdAt : String
  cameraIDs : Slice
  segmentIDs : Slice
  timeRangeStart : Option String
  timeRangeEnd : Option String
  sourceSegmentHashes : Option StringMap
  artifactSHA256 : String

/-- A member only ever touches the field it names, and a member of a wrong type makes the
whole decoding fail. -/
def decodeCanonical (members : List (String × Tree)) : Option CanonicalShape := do
  let manifestVersion ← (given "manifest_version" members).foldlM decodeString ""
  let artifactType ← (given "artifact_type" members).foldlM decodeString ""
  let artifactID ← (given "artifact_id" members).foldlM decodeString ""
  let organizationID ← (given "organization_id" members).foldlM decodeString ""
  let createdBy ← (given "created_by" members).foldlM decodeString ""
  let createdAt ← (given "created_at" members).foldlM decodeString ""
  let cameraIDs ← (given "camera_ids" members).foldlM decodeSlice {}
  let segmentIDs ← (given "segment_ids" members).foldlM decodeSlice {}
  let timeRangeStart ← (given "time_range_start" members).foldlM decodePointer none
  let timeRangeEnd ← (given "time_range_end" members).foldlM decodePointer none
  let sourceSegmentHashes ← (given "source_segment_hashes" members).foldlM decodeMap none
  let artifactSHA256 ← (given "artifact_sha256" members).foldlM decodeString ""
  return { manifestVersion, artifactType, artifactID, organizationID, createdBy, createdAt, cameraIDs, segmentIDs,
           timeRangeStart, timeRangeEnd, sourceSegmentHashes, artifactSHA256 }

/-- `json.Unmarshal` into the canonical shape; `null` leaves it empty. -/
def unmarshalCanonical (text : List Char) : Option CanonicalShape :=
  match readDocument text with
  | some .null => decodeCanonical []
  | some (.object members) => decodeCanonical members
  | _ => none

structure RowShape where
  manifestJSON : List Char
  signature : String
  keyID : String
  sigAlgorithm : String

/-- `json.Unmarshal` of the row; `manifest_json` keeps its text, the last one of several. -/
def unmarshalRow (text : List Char) : Option RowShape := do
  let members ← readObject text
  let trees := plain members
  let signature ← (given "signature" trees).foldlM decodeString ""
  let keyID ← (given "key_id" trees).foldlM decodeString ""
  let sigAlgorithm ← (given "sig_algorithm" trees).foldlM decodeString ""
  return { manifestJSON := (((given "manifest_json" members).map Prod.fst).getLast?).getD [], signature, keyID, sigAlgorithm }

/-! ## The tool -/

/-- `time.Time{}`, the first instant of year 1. -/
def zeroTime : Instant := -62135596800000000000

/-- `time.Parse` with its error dropped. -/
def timeParse (text : String) : Instant := (Rfc3339.parse text.toList).getD zeroTime

/-- The manifest that the tool rebuilds. -/
def rebuild (row : RowShape) (canon : CanonicalShape) : Manifest where
  artifactType := canon.artifactType
  artifactID := canon.artifactID
  organizationID := canon.organizationID
  createdBy := canon.createdBy
  createdAt := timeParse canon.createdAt
  cameraIDs := canon.cameraIDs.items
  segmentIDs := canon.segmentIDs.items
  timeRangeStart := canon.timeRangeStart.map timeParse
  timeRangeEnd := canon.timeRangeEnd.map timeParse
  sourceSegmentHashes := canon.sourceSegmentHashes
  artifactSHA256 := canon.artifactSHA256
  keyID := row.keyID
  sigAlgorithm := row.sigAlgorithm
  signature := row.signature

structure Flags where
  manifest : String := ""
  pubkey : String := ""
  pubkeyfile : String := ""

inductive Failure where
  | manifestRequired
  | readPubkeyfile (err : String)
  | pubkeyRequired
  | invalidPublicKey (length : Nat)
  | readManifest (err : String)
  | notARow
  | unsigned
  | parseCanonical
  deriving DecidableEq

/-- How the tool ends: exit code 0 for `ok`, 1 for the others. -/
inductive Outcome where
  | error (failure : Failure)
  | fail (reason : Reason)
  | ok (keyID artifactType artifactID : String)
  deriving DecidableEq

/-- Without newlines, carriage returns and blanks at the end. -/
def trimmed (text : String) : String :=
  String.ofList ((text.toList.reverse.dropWhile fun c => c = '\n' || c = '\r' || c = ' ').reverse)

/-- The hexadecimal key from the flag, or else from the file. -/
def publicKeyHex (readFile : String → Except String String) (flags : Flags) : Except Failure String :=
  if flags.pubkey ≠ "" then .ok flags.pubkey
  else if flags.pubkeyfile ≠ "" then
    match readFile flags.pubkeyfile with
    | .error err => .error (.readPubkeyfile err)
    | .ok raw => .ok (trimmed raw)
  else .error .pubkeyRequired

/-- The tool behind the key and the file. A value of two characters is taken for no value. -/
def verifyText (crypto : Crypto) (pub : Bytes) (text : String) : Outcome :=
  match unmarshalRow text.toList with
  | none => .error .notARow
  | some row =>
    if row.manifestJSON.length ≤ 2 then .error .notARow
    else if row.signature = "" ∨ row.keyID = "" then .error .unsigned
    else
      match unmarshalCanonical row.manifestJSON with
      | none => .error .parseCanonical
      | some canon =>
        let m := rebuild row canon
        match verifyManifest crypto [(ed25519PublicKeyFingerprint crypto pub, pub)] m with
        | none => .ok row.keyID m.artifactType m.artifactID
        | some reason => .fail reason

/-- `main`. -/
def verifyManifestTool (crypto : Crypto) (readFile : String → Except String String) (flags : Flags) : Outcome :=
  if flags.manifest = "" then .error .manifestRequired
  else
    match publicKeyHex readFile flags with
    | .error failure => .error failure
    | .ok pubHex =>
      match parseED25519PublicKeyHex pubHex with
      | none => .error (.invalidPublicKey pubHex.utf8ByteSize)
      | some pub =>
        match readFile flags.manifest with
        | .error err => .error (.readManifest err)
        | .ok text => verifyText crypto pub text

end Ironsight.OfflineVerify
