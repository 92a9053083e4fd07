import Ironsight.JsonWritten
import Ironsight.ManifestsProofs
import Ironsight.OfflineVerify

/-! The offline verifier accepts a signed row in every spelling of its JSON and under no
other key, and it tells altered evidence apart, but not an altered `manifest_version`:
that field is written anew and never read. -/
namespace Ironsight.OfflineVerifyProofs
open Tables Access Manifests ManifestsProofs JsonReader JsonReaderProofs JsonWritten OfflineVerify

/-! ## Rearranged records -/

/-- A value with the members of a map in any order. -/
def Rearranged : Json.Value → Tree → Prop
  | .text value, tree => tree = .string value
  | .texts items, tree => tree = .array (items.map .string)
  | .map entries, tree =>
    ∃ moved : List (String × String), moved.Perm entries ∧ tree = .object (moved.map fun entry => (entry.1, .string entry.2))

/-- A record with its fields and the members of its maps in any order. -/
def RearrangedObject (fields : List (String × Json.Value)) (members : List (String × Tree)) : Prop :=
  ∃ moved, moved.Perm fields ∧
    List.Forall₂ (fun field member => member.1 = field.1 ∧ Rearranged field.2 member.2) moved members

/-- A key in lower case names one field only. -/
private theorem names_plain {key : String} (plain : key.toList.map foldChar = key.toList) (field : String) :
    names field key = decide (key = field) := by
  rw [names, plain]
  exact decide_eq_decide.mpr String.toList_inj

private theorem given_append {α : Type} (field : String) (first second : List (String × α)) :
    given field (first ++ second) = given field first ++ given field second := by
  simp [given]

private theorem given_perm {α : Type} (field : String) {first second : List (String × α)} (perm : first.Perm second) :
    (given field first).Perm (given field second) :=
  List.Perm.map Prod.snd (List.Perm.filter _ perm)

private theorem given_moved (field : String) {moved : List (String × Json.Value)} {members : List (String × Tree)}
    (pairs : List.Forall₂ (fun field member => member.1 = field.1 ∧ Rearranged field.2 member.2) moved members) :
    List.Forall₂ Rearranged (given field moved) (given field members) := by
  induction pairs with
  | nil => exact .nil
  | @cons pair member moved members related _ ih =>
    obtain ⟨key, value⟩ := related
    simp only [given, List.filter_cons, key] at ih ⊢
    split
    · exact .cons value ih
    · exact ih

/-- A field that the record has once is there once after the rearrangement. -/
private theorem given_once {field : String} {fields : List (String × Json.Value)} {members : List (String × Tree)}
    {value : Json.Value} (rearranged : RearrangedObject fields members) (once : given field fields = [value]) :
    ∃ tree, given field members = [tree] ∧ Rearranged value tree := by
  obtain ⟨moved, perm, pairs⟩ := rearranged
  have pairs' := given_moved field pairs
  have perm' := given_perm field perm
  rw [once] at perm'
  rw [List.perm_singleton.mp perm'] at pairs'
  obtain ⟨tree, rest, related, none_, whole⟩ := List.forall₂_cons_left_iff.mp pairs'
  rw [List.forall₂_nil_left_iff.mp none_] at whole
  exact ⟨tree, whole, related⟩

private theorem given_never {field : String} {fields : List (String × Json.Value)} {members : List (String × Tree)}
    (rearranged : RearrangedObject fields members) (never : given field fields = []) : given field members = [] := by
  obtain ⟨moved, perm, pairs⟩ := rearranged
  have pairs' := given_moved field pairs
  have perm' := given_perm field perm
  rw [never] at perm'
  rw [List.perm_nil.mp perm'] at pairs'
  exact List.forall₂_nil_left_iff.mp pairs'

/-! ## The canonical record -/

/-- The fields of the canonical text, under any version. -/
def canonicalAs (version : String) (manifest : Manifest) : List (String × Json.Value) :=
  ("manifest_version", .text version) :: (canonical manifest).tail

section Canonical
variable {version : String} {manifest : Manifest}

private theorem optionalTime_key {key : String} {instant : Option Instant} {entry : String × Json.Value}
    (held : entry ∈ optionalTime key instant) : entry.1 = key := by
  cases instant with
  | none => cases held
  | some t => rw [List.mem_singleton.mp held]

private def canonicalKeys : List String :=
  ["manifest_version", "artifact_type", "artifact_id", "organization_id", "created_by", "created_at", "camera_ids",
    "segment_ids", "time_range_start", "time_range_end", "source_segment_hashes", "artifact_sha256"]

private theorem canonicalKeys_plain : ∀ key ∈ canonicalKeys, key.toList.map foldChar = key.toList := by decide +kernel

/-- The keys of the record are not changed by case folding. -/
private theorem canonicalAs_plain {entry : String × Json.Value} (held : entry ∈ canonicalAs version manifest) :
    entry.1.toList.map foldChar = entry.1.toList := by
  refine canonicalKeys_plain entry.1 ?_
  simp only [canonicalAs, canonical, List.cons_append, List.nil_append, List.tail_cons, List.mem_cons, List.mem_append,
    List.not_mem_nil, or_false] at held
  rcases held with rfl | rfl | rfl | rfl | rfl | rfl | rfl | rfl | (start | stop) | rfl | rfl
  case inr.inr.inr.inr.inr.inr.inr.inr.inl.inl => simp [canonicalKeys, optionalTime_key start]
  case inr.inr.inr.inr.inr.inr.inr.inr.inl.inr => simp [canonicalKeys, optionalTime_key stop]
  all_goals simp [canonicalKeys]

private theorem given_canonicalAs (field : String) : given field (canonicalAs version manifest) =
    ((canonicalAs version manifest).filter fun entry => entry.1 = field).map Prod.snd := by
  refine congrArg (List.map Prod.snd) (List.filter_congr fun entry held => ?_)
  exact names_plain (canonicalAs_plain held) field

variable (version manifest) in
/-- Each field of the canonical text, or its absence. -/
private theorem given_fields : let record := canonicalAs version manifest
    given "manifest_version" record = [.text version] ∧
    given "artifact_type" record = [.text manifest.artifactType] ∧
    given "artifact_id" record = [.text manifest.artifactID] ∧
    given "organization_id" record = [.text manifest.organizationID] ∧
    given "created_by" record = [.text manifest.createdBy] ∧
    given "created_at" record = [.text (Calendar.rfc3339Nano manifest.createdAt)] ∧
    given "camera_ids" record = [.texts (sortedStringSlice manifest.cameraIDs)] ∧
    given "segment_ids" record = [.texts (sortedStringSlice manifest.segmentIDs)] ∧
    given "time_range_start" record = (manifest.timeRangeStart.map fun t => .text (Calendar.rfc3339Nano t)).toList ∧
    given "time_range_end" record = (manifest.timeRangeEnd.map fun t => .text (Calendar.rfc3339Nano t)).toList ∧
    given "source_segment_hashes" record = [.map ((manifest.sourceSegmentHashes.getD .empty).rows.insertionSort
      fun first second => first.1 ≤ second.1)] ∧
    given "artifact_sha256" record = [.text manifest.artifactSHA256] := by
  simp only [given_canonicalAs]
  cases start : manifest.timeRangeStart <;> cases stop : manifest.timeRangeEnd <;>
    simp [canonicalAs, canonical, optionalTime, start, stop]

/-! ## Decoding -/

variable {members : List (String × Tree)}

private theorem decode_text {field value : String} (rearranged : RearrangedObject (canonicalAs version manifest) members)
    (once : given field (canonicalAs version manifest) = [.text value]) :
    (given field members).foldlM decodeString "" = some value := by
  obtain ⟨tree, found, rfl⟩ := given_once rearranged once
  rw [found]
  rfl

private theorem decode_pointer {field : String} {value : Option String}
    (rearranged : RearrangedObject (canonicalAs version manifest) members)
    (once : given field (canonicalAs version manifest) = (value.map .text).toList) :
    (given field members).foldlM decodePointer none = some value := by
  cases value with
  | none =>
    rw [given_never rearranged once]
    rfl
  | some value =>
    obtain ⟨tree, found, rfl⟩ := given_once rearranged once
    rw [found]
    rfl

private theorem decodeElements_strings (items : List String) : decodeElements [] (items.map .string) = some items := by
  induction items with
  | nil => rfl
  | cons item items ih =>
    simp only [List.map_cons, decodeElements, decodeString, List.tail_nil, ih, Option.bind_eq_bind, Option.bind_some,
      Option.pure_def]

private theorem decode_slice {field : String} {items : List String}
    (rearranged : RearrangedObject (canonicalAs version manifest) members)
    (once : given field (canonicalAs version manifest) = [.texts items]) :
    (given field members).foldlM decodeSlice {} = some ⟨items, []⟩ := by
  obtain ⟨tree, found, rfl⟩ := given_once rearranged once
  rw [found]
  cases items with
  | nil => rfl
  | cons item items =>
    have decoded := decodeElements_strings (item :: items)
    simp only [List.map_cons] at decoded
    simp [decodeSlice, decoded]

private theorem mem_foldl_put (entries : List (String × String)) (distinct : (entries.map Prod.fst).Nodup)
    (map : StringMap) (fresh : ∀ entry ∈ entries, ∀ other ∈ map, other.1 ≠ entry.1) (entry : String × String) :
    entry ∈ entries.foldl Table.put map ↔ entry ∈ map ∨ entry ∈ entries := by
  induction entries generalizing map with
  | nil => simp
  | cons first entries ih =>
    rw [List.map_cons, List.nodup_cons] at distinct
    have later : ∀ entry ∈ entries, ∀ other ∈ map.put first, other.1 ≠ entry.1 := by
      intro entry held other put
      rcases Table.mem_put.mp put with rfl | ⟨old, _⟩
      · exact fun same => distinct.1 (List.mem_map.mpr ⟨entry, held, same.symm⟩)
      · exact fresh entry (List.mem_cons_of_mem _ held) other old
    rw [List.foldl_cons, ih distinct.2 _ later, Table.mem_put, List.mem_cons]
    constructor
    · rintro ((rfl | ⟨old, _⟩) | held)
      · exact .inr (.inl rfl)
      · exact .inl old
      · exact .inr (.inr held)
    · rintro (old | rfl | held)
      · exact .inl (.inr ⟨old, fresh first List.mem_cons_self entry old⟩)
      · exact .inl (.inl rfl)
      · exact .inr held

private theorem decode_entries (entries : List (String × String)) (map : StringMap) :
    (entries.map fun entry => (entry.1, Tree.string entry.2)).foldlM
      (fun map member => (decodeString "" member.2).map fun value => map.put (member.1, value)) map =
        some (entries.foldl Table.put map) := by
  induction entries generalizing map with
  | nil => rfl
  | cons entry entries ih =>
    rw [List.map_cons, List.foldlM_cons, List.foldl_cons]
    exact ih (map.put entry)

private theorem decode_map {field : String} {hashes : StringMap}
    (rearranged : RearrangedObject (canonicalAs version manifest) members)
    (once : given field (canonicalAs version manifest) = [.map (hashes.rows.insertionSort
      fun first second => first.1 ≤ second.1)]) :
    ∃ map : StringMap, (given field members).foldlM decodeMap none = some (some map) ∧
      ∀ segment, hashes.find? segment = map.find? segment := by
  obtain ⟨tree, found, moved, perm, rfl⟩ := given_once rearranged once
  have rows := perm.trans (List.perm_insertionSort _ _)
  have distinct : (moved.map Prod.fst).Nodup := (rows.map Prod.fst).nodup_iff.mpr hashes.distinct
  refine ⟨moved.foldl Table.put .empty, ?_, fun segment => Option.ext fun entry => ?_⟩
  · simp [found, decodeMap, decode_entries]
  · have members_ := mem_foldl_put moved distinct .empty (fun _ _ _ none_ => nomatch none_) entry
    rw [Table.find?_eq_some, Table.find?_eq_some, members_, Table.mem_def, ← rows.mem_iff]
    exact and_congr_left fun _ => (or_iff_right (fun none_ => nomatch none_)).symm

/-- What the tool decodes from the canonical record in any arrangement. -/
private theorem decodeCanonical_rearranged (rearranged : RearrangedObject (canonicalAs version manifest) members) :
    ∃ map, SameHashes manifest.sourceSegmentHashes (some map) ∧ decodeCanonical members = some
      { manifestVersion := version
        artifactType := manifest.artifactType
        artifactID := manifest.artifactID
        organizationID := manifest.organizationID
        createdBy := manifest.createdBy
        createdAt := Calendar.rfc3339Nano manifest.createdAt
        cameraIDs := ⟨sortedStringSlice manifest.cameraIDs, []⟩
        segmentIDs := ⟨sortedStringSlice manifest.segmentIDs, []⟩
        timeRangeStart := manifest.timeRangeStart.map Calendar.rfc3339Nano
        timeRangeEnd := manifest.timeRangeEnd.map Calendar.rfc3339Nano
        sourceSegmentHashes := some map
        artifactSHA256 := manifest.artifactSHA256 } := by
  obtain ⟨version_, type, id, organization, creator, created, cameras, segments, start, stop, hashes, digest⟩ :=
    given_fields version manifest
  obtain ⟨map, decoded, same⟩ := decode_map rearranged hashes
  have bounds (bound : Option Instant) : (bound.map fun t => Json.Value.text (Calendar.rfc3339Nano t)).toList =
      ((bound.map Calendar.rfc3339Nano).map Json.Value.text).toList := by
    rw [Option.map_map]
    rfl
  refine ⟨map, same, ?_⟩
  simp only [decodeCanonical, decode_text rearranged version_, decode_text rearranged type, decode_text rearranged id,
    decode_text rearranged organization, decode_text rearranged creator, decode_text rearranged created,
    decode_slice rearranged cameras, decode_slice rearranged segments,
    decode_pointer rearranged (start.trans (bounds _)), decode_pointer rearranged (stop.trans (bounds _)), decoded,
    decode_text rearranged digest, Option.bind_eq_bind, Option.bind_some, Option.pure_def]

end Canonical

/-! ## Times -/

/-- The instant lies in the years 0 to 9999. -/
def FourDigitYear (instant : Instant) : Prop :=
  0 ≤ (Calendar.date (instant / 1000000000 / 86400)).1 ∧ (Calendar.date (instant / 1000000000 / 86400)).1 ≤ 9999

/-- The times of the manifest lie in the years 0 to 9999. -/
structure Printable (manifest : Manifest) : Prop where
  createdAt : FourDigitYear manifest.createdAt
  timeRangeStart : ∀ t ∈ manifest.timeRangeStart, FourDigitYear t
  timeRangeEnd : ∀ t ∈ manifest.timeRangeEnd, FourDigitYear t

private theorem timeParse_printed {instant : Instant} (year : FourDigitYear instant) :
    timeParse (Calendar.rfc3339Nano instant) = instant := by
  rw [timeParse, Rfc3339.parse_rfc3339Nano year.1 year.2, Option.getD_some]

private theorem map_timeParse_printed {bound : Option Instant} (years : ∀ t ∈ bound, FourDigitYear t) :
    (bound.map Calendar.rfc3339Nano).map timeParse = bound := by
  cases bound with
  | none => rfl
  | some t => rw [Option.map_some, Option.map_some, timeParse_printed (years t rfl)]

/-- The canonical text in any arrangement is decoded to the evidence it was built from. -/
private theorem rebuild_rearranged {version : String} {manifest : Manifest} (printable : Printable manifest)
    {members : List (String × Tree)} (rearranged : RearrangedObject (canonicalAs version manifest) members) (row : RowShape) :
    ∃ canon, decodeCanonical members = some canon ∧ canon.manifestVersion = version ∧
      SameEvidence manifest (rebuild row canon) := by
  obtain ⟨map, same, decoded⟩ := decodeCanonical_rearranged rearranged
  have created := timeParse_printed printable.createdAt
  have start := map_timeParse_printed printable.timeRangeStart
  have stop := map_timeParse_printed printable.timeRangeEnd
  have cameras : manifest.cameraIDs.Perm (sortedStringSlice manifest.cameraIDs) := (List.perm_insertionSort _ _).symm
  have segments : manifest.segmentIDs.Perm (sortedStringSlice manifest.segmentIDs) := (List.perm_insertionSort _ _).symm
  refine ⟨_, decoded, rfl, ?_⟩
  simp only [rebuild, created, start, stop]
  exact ⟨rfl, rfl, rfl, rfl, rfl, cameras, segments, rfl, rfl, same, rfl⟩

/-! ## The row -/

/-- The members of the row: the four that the tool reads, and others under other names. -/
def RowMembers (raw : List Char) (tree : Tree) (signature keyID : String) (members : List (String × List Char × Tree)) :
    Prop :=
  ∃ others signature_ keyID_ algorithm_,
    members.Perm ([("manifest_json", raw, tree), ("signature", signature_, .string signature),
      ("key_id", keyID_, .string keyID), ("sig_algorithm", algorithm_, .string "ed25519")] ++ others) ∧
    ∀ other ∈ others, ∀ field ∈ ["manifest_json", "signature", "key_id", "sig_algorithm"], names field other.1 = false

/-- A text of the row of a signed manifest, its `manifest_json` rearranged and spelled in
any way. -/
def SignedRow (manifest : Manifest) (signature keyID text : String) : Prop :=
  ∃ members raw content, ObjectOf members text.toList ∧ RowMembers raw (.object content) signature keyID members ∧
    RearrangedObject (canonical manifest) content

private theorem given_none {α : Type} {field : String} {others : List (String × α)}
    (foreign : ∀ other ∈ others, names field other.1 = false) : given field others = [] := by
  rw [given, List.filter_eq_nil_iff.mpr fun other held => by simp [foreign other held], List.map_nil]

private theorem given_row {raw : List Char} {tree : Tree} {signature keyID : String}
    {members : List (String × List Char × Tree)} (row : RowMembers raw tree signature keyID members) :
    given "manifest_json" members = [(raw, tree)] ∧ (∃ text, given "signature" members = [(text, .string signature)]) ∧
      (∃ text, given "key_id" members = [(text, .string keyID)]) ∧
        ∃ text, given "sig_algorithm" members = [(text, .string "ed25519")] := by
  obtain ⟨others, signature_, keyID_, algorithm_, perm, foreign⟩ := row
  have one (field : String) (listed : field ∈ ["manifest_json", "signature", "key_id", "sig_algorithm"])
      (value : List Char × Tree) (found : given field [("manifest_json", raw, tree), ("signature", signature_, .string signature),
        ("key_id", keyID_, .string keyID), ("sig_algorithm", algorithm_, .string "ed25519")] = [value]) :
      given field members = [value] := by
    have perm' := given_perm field perm
    rw [given_append, found, given_none fun other held => foreign other held field listed, List.append_nil] at perm'
    exact List.perm_singleton.mp perm'
  have folded : ∀ key ∈ ["manifest_json", "signature", "key_id", "sig_algorithm"],
      key.toList.map foldChar = key.toList := by decide +kernel
  have json := names_plain (folded "manifest_json" (by simp))
  have sig := names_plain (folded "signature" (by simp))
  have key := names_plain (folded "key_id" (by simp))
  have algorithm := names_plain (folded "sig_algorithm" (by simp))
  exact ⟨one "manifest_json" (by simp) (raw, tree) (by simp [given, json, sig, key, algorithm]),
    ⟨signature_, one "signature" (by simp) (signature_, _) (by simp [given, json, sig, key, algorithm])⟩,
    ⟨keyID_, one "key_id" (by simp) (keyID_, _) (by simp [given, json, sig, key, algorithm])⟩,
    ⟨algorithm_, one "sig_algorithm" (by simp) (algorithm_, _) (by simp [given, json, sig, key, algorithm])⟩⟩

private theorem given_plain {field : String} {members : List (String × List Char × Tree)} {raw : List Char} {tree : Tree}
    (found : given field members = [(raw, tree)]) : given field (plain members) = [tree] := by
  have trees : given field (plain members) = (given field members).map Prod.snd := by
    simp only [given, plain, List.filter_map, List.map_map]
    rfl
  rw [trees, found]
  rfl

private theorem unmarshalRow_of {text raw : List Char} {tree : Tree} {signature keyID : String}
    {members : List (String × List Char × Tree)} (object : ObjectOf members text)
    (row : RowMembers raw tree signature keyID members) :
    unmarshalRow text = some ⟨raw, signature, keyID, "ed25519"⟩ := by
  obtain ⟨json, ⟨_, sig⟩, ⟨_, key⟩, _, algorithm⟩ := given_row row
  simp [unmarshalRow, readObject_of object, given_plain sig, given_plain key, given_plain algorithm, json, decodeString]

/-- What the tool decodes from the row of a signed manifest. -/
private theorem unmarshal_signedRow (version : String) {manifest : Manifest} (printable : Printable manifest)
    {signature keyID : String} {text raw : List Char} {members : List (String × List Char × Tree)}
    {content : List (String × Tree)} (object : ObjectOf members text)
    (row : RowMembers raw (.object content) signature keyID members)
    (rearranged : RearrangedObject (canonicalAs version manifest) content) :
    unmarshalRow text = some ⟨raw, signature, keyID, "ed25519"⟩ ∧ 2 < raw.length ∧ ∃ canon,
      unmarshalCanonical raw = some canon ∧ canon.manifestVersion = version ∧
        SameEvidence manifest (rebuild ⟨raw, signature, keyID, "ed25519"⟩ canon) := by
  have held : ("manifest_json", raw, Tree.object content) ∈ members := by
    obtain ⟨_, _, _, _, perm, _⟩ := row
    exact perm.mem_iff.mpr List.mem_cons_self
  have document := document_of_member object held
  have some_ : content ≠ [] := by
    rintro rfl
    obtain ⟨tree, found, _⟩ := given_once rearranged (given_fields version manifest).1
    cases found
  obtain ⟨canon, decoded, version_, same⟩ :=
    rebuild_rearranged printable rearranged ⟨raw, signature, keyID, "ed25519"⟩
  refine ⟨unmarshalRow_of object row, ?_, canon, ?_, version_, same⟩
  · obtain ⟨before, inner, after, _, rendered, _, rfl⟩ := document
    have := two_lt_length rendered some_
    simp only [List.length_append]
    omega
  · rw [unmarshalCanonical, readDocument_of document]
    exact decoded

/-! ## The tool -/

/-- The tool is run on a public key and a file with the text. -/
structure Invoked (readFile : String → Except String String) (flags : Flags) (pub : Bytes) (text : String) : Prop where
  manifest : flags.manifest ≠ ""
  key : ∃ pubHex, publicKeyHex readFile flags = .ok pubHex ∧ parseED25519PublicKeyHex pubHex = some pub
  file : readFile flags.manifest = .ok text

/-- Exit code 0. -/
def Accepts (crypto : Crypto) (readFile : String → Except String String) (flags : Flags) : Prop :=
  ∃ keyID artifactType artifactID, verifyManifestTool crypto readFile flags = .ok keyID artifactType artifactID

section Tool
variable {crypto : Crypto} {key : Bytes} {readFile : String → Except String String} {flags : Flags} {pub : Bytes}
  {text : String}

private theorem accepts_iff (invoked : Invoked readFile flags pub text) : Accepts crypto readFile flags ↔
    ∃ row, unmarshalRow text.toList = some row ∧ 2 < row.manifestJSON.length ∧ row.signature ≠ "" ∧ row.keyID ≠ "" ∧
      ∃ canon, unmarshalCanonical row.manifestJSON = some canon ∧
        verifyManifest crypto [(ed25519PublicKeyFingerprint crypto pub, pub)] (rebuild row canon) = none := by
  obtain ⟨manifest, ⟨pubHex, hex, parsed⟩, file⟩ := invoked
  have tool : verifyManifestTool crypto readFile flags = verifyText crypto pub text := by
    simp only [verifyManifestTool, manifest, if_false, hex, parsed, file]
  rw [Accepts, tool]
  fun_cases verifyText crypto pub text with
  | case1 undecoded => simp [undecoded]
  | case2 row decoded short => simp [decoded, Nat.not_lt.mpr short]
  | case3 row decoded long unsigned =>
    refine iff_of_false (by simp) ?_
    rintro ⟨row', decoded', _, signed, named, _⟩
    rw [Option.some.inj (decoded.symm.trans decoded')] at unsigned
    exact unsigned.elim signed named
  | case4 row decoded long signed uncanonical => simp [decoded, uncanonical]
  | case5 row decoded long signed canon canonical_ m accepted =>
    obtain ⟨signature, named⟩ := not_or.mp signed
    exact iff_of_true ⟨_, _, _, rfl⟩ ⟨row, decoded, Nat.not_le.mp long, signature, named, canon, canonical_, accepted⟩
  | case6 row decoded long signed canon canonical_ m reason refused =>
    refine iff_of_false (by simp) ?_
    rintro ⟨row', decoded', _, _, _, canon', canonical', accepted⟩
    cases Option.some.inj (decoded.symm.trans decoded')
    cases Option.some.inj (canonical_.symm.trans canonical')
    cases refused.symm.trans accepted

variable {manifest : Manifest} {signature keyID canonicalJSON : String}

private theorem signManifest_some (signed : signManifest crypto key manifest = some (signature, keyID, canonicalJSON)) :
    signature = Base64.encode (crypto.sign key (buildManifest manifest)) ∧
      keyID = ed25519PublicKeyFingerprint crypto (publicKey key) := by
  unfold signManifest at signed
  split at signed
  · cases signed
  · cases signed
    exact ⟨rfl, rfl⟩

/-- A row under the signature is accepted exactly for the signing key and the evidence that
was signed. -/
private theorem accepts_row_iff (valid : ValidKey crypto key)
    (signed : signManifest crypto key manifest = some (signature, keyID, canonicalJSON))
    (invoked : Invoked readFile flags pub text) {row : RowShape} (decoded : unmarshalRow text.toList = some row)
    (carried : row.signature = signature) : Accepts crypto readFile flags ↔
      2 < row.manifestJSON.length ∧ row.keyID = ed25519PublicKeyFingerprint crypto pub ∧ row.sigAlgorithm = "ed25519" ∧
        pub = publicKey key ∧ ∃ canon, unmarshalCanonical row.manifestJSON = some canon ∧
          SameEvidence manifest (rebuild row canon) := by
  obtain ⟨written, _⟩ := signManifest_some signed
  have given_ : signature ≠ "" := written ▸ Base64.encode_ne_empty (valid.signs _)
  rw [accepts_iff invoked]
  constructor
  · rintro ⟨row', decoded', long, _, _, canon, canonical_, accepted⟩
    cases Option.some.inj (decoded.symm.trans decoded')
    obtain ⟨_, algorithm, _, found, lookup, bytes, bytes_, verified⟩ := verifyManifest_eq_none_iff.mp accepted
    have decodedSignature : Base64.decode row.signature = some (crypto.sign key (buildManifest manifest)) := by
      rw [carried, written, Base64.decode_encode]
    obtain ⟨named, rfl⟩ : row.keyID = ed25519PublicKeyFingerprint crypto pub ∧ pub = found := by
      change List.lookup row.keyID [(ed25519PublicKeyFingerprint crypto pub, pub)] = some found at lookup
      rw [List.lookup_cons] at lookup
      split at lookup
      · next same => exact ⟨by simpa using same, Option.some.inj lookup⟩
      · cases lookup
    change Base64.decode row.signature = some bytes at bytes_
    cases Option.some.inj (decodedSignature.symm.trans bytes_)
    obtain ⟨signer, message⟩ := (valid.exact _ _ _).mp verified
    exact ⟨long, named, algorithm, signer, canon, canonical_, buildManifest_eq_iff_sameEvidence.mp message.symm⟩
  · rintro ⟨long, named, algorithm, rfl, canon, canonical_, same⟩
    have named_ne : row.keyID ≠ "" := named ▸ fingerprint_ne_empty valid
    have carried_ne : row.signature ≠ "" := carried ▸ given_
    refine ⟨row, decoded, long, carried_ne, named_ne, canon, canonical_, ?_⟩
    refine verifyManifest_eq_none_iff.mpr ⟨named_ne, algorithm, carried_ne, publicKey key, ?_, _, ?_,
      (valid.exact _ _ _).mpr ⟨rfl, (buildManifest_eq_iff_sameEvidence.mpr same).symm⟩⟩
    · change List.lookup row.keyID _ = _
      rw [named]
      simp
    · change Base64.decode row.signature = _
      rw [carried, written, Base64.decode_encode]

/-- A signed row in any arrangement and spelling is accepted under the signing key; under its
signature no other key and no other evidence is. -/
theorem signed_row_verifies_offline (valid : ValidKey crypto key) (printable : Printable manifest)
    (signed : signManifest crypto key manifest = some (signature, keyID, canonicalJSON))
    (invoked : Invoked readFile flags pub text) :
    (pub = publicKey key → SignedRow manifest signature keyID text → Accepts crypto readFile flags) ∧
      ∀ row, unmarshalRow text.toList = some row → row.signature = signature → Accepts crypto readFile flags →
        pub = publicKey key ∧ ∃ canon, unmarshalCanonical row.manifestJSON = some canon ∧
          SameEvidence manifest (rebuild row canon) := by
  obtain ⟨_, fingerprint⟩ := signManifest_some signed
  constructor
  · rintro rfl ⟨members, raw, content, object, row, rearranged⟩
    obtain ⟨decoded, long, canon, canonical_, _, same⟩ :=
      unmarshal_signedRow "1" printable object row rearranged
    exact (accepts_row_iff valid signed invoked decoded rfl).mpr
      ⟨long, fingerprint, rfl, rfl, canon, canonical_, same⟩
  · intro row decoded carried accepted
    exact ((accepts_row_iff valid signed invoked decoded carried).mp accepted).2.2.2

end Tool

/-! ## A row with another version -/

private theorem rearranged_self (fields : List (String × Json.Value)) :
    RearrangedObject fields (fields.map fun field => (field.1, valueTree field.2)) := by
  refine ⟨fields, .refl _, List.forall₂_map_right_iff.mpr (List.forall₂_same.mpr fun field _ => ⟨rfl, ?_⟩)⟩
  cases field.2 with
  | text | texts => rfl
  | map entries => exact ⟨entries, .refl _, rfl⟩

/-- A manifest of a handover, made in the first minutes of 1970. -/
private def handover : Manifest where
  artifactType := "evidence_share"
  artifactID := "share-3"
  organizationID := "co-9"
  createdBy := "00000000-0000-0000-0000-000000000009"
  createdAt := 120500000000
  cameraIDs := ["pit", "gate"]
  segmentIDs := ["41"]
  timeRangeStart := none
  timeRangeEnd := some 60000000000
  sourceSegmentHashes := none
  artifactSHA256 := "00"

private theorem handover_printable : Printable handover where
  createdAt := ⟨by decide, by decide⟩
  timeRangeStart := nofun
  timeRangeEnd t held := by
    cases held
    exact ⟨by decide, by decide⟩

private def handoverSignature : String := Base64.encode (plainCrypto.sign plainKey (buildManifest handover))

private def plainKeyID : String := ed25519PublicKeyFingerprint plainCrypto (publicKey plainKey)

private theorem handover_signed : signManifest plainCrypto plainKey handover =
    some (handoverSignature, plainKeyID, buildManifest handover) := by
  simp [signManifest, plainKey, handoverSignature, plainKeyID]

/-- The members of the row, the canonical text under the given version. -/
private def handoverMembers (version : String) : List (String × List Char × Tree) :=
  [("manifest_json", Json.object (canonicalAs version handover),
      .object ((canonicalAs version handover).map fun field => (field.1, valueTree field.2))),
    ("signature", Json.quote handoverSignature, .string handoverSignature),
    ("key_id", Json.quote plainKeyID, .string plainKeyID),
    ("sig_algorithm", Json.quote "ed25519", .string "ed25519")]

private def handoverRow (version : String) : String := String.ofList (objectText (handoverMembers version))

private theorem handover_object (version : String) :
    ObjectOf (handoverMembers version) (handoverRow version).toList := by
  rw [handoverRow, String.toList_ofList]
  refine objectOf_objectText fun member held => ?_
  simp only [handoverMembers, List.mem_cons, List.not_mem_nil, or_false] at held
  rcases held with rfl | rfl | rfl | rfl
  · exact renders_mono (by decide) (renders_object _)
  · exact renders_string _ _
  · exact renders_string _ _
  · exact renders_string _ _

private theorem handover_members (version : String) : RowMembers (Json.object (canonicalAs version handover))
    (.object ((canonicalAs version handover).map fun field => (field.1, valueTree field.2))) handoverSignature plainKeyID
    (handoverMembers version) :=
  ⟨[], _, _, _, .refl _, nofun⟩

/-- The tool is given the row and the public key that the signature was made for. -/
private def reads (version path : String) : Except String String :=
  if path = "row.json" then .ok (handoverRow version) else .error "no such file or directory"

private def zeroKeyFlags : Flags :=
  { manifest := "row.json", pubkey := "0000000000000000000000000000000000000000000000000000000000000000" }

private theorem zeroKey_invoked (version : String) :
    Invoked (reads version) zeroKeyFlags (publicKey plainKey) (handoverRow version) where
  manifest := by decide
  key := ⟨"0000000000000000000000000000000000000000000000000000000000000000", rfl, by decide +kernel⟩
  file := rfl

/-- The row and the key of the hand-over, with the version that the server writes. -/
theorem handover_verifies_offline : Accepts plainCrypto (reads "1") zeroKeyFlags :=
  (signed_row_verifies_offline plainKey_valid handover_printable handover_signed (zeroKey_invoked "1")).1 rfl
    ⟨_, _, _, handover_object "1", handover_members "1", rearranged_self _⟩

/-- The row with `manifest_version` changed to 2 is decoded to something else than the canonical
text of the manifest, and is accepted. -/
theorem altered_version_accepted : ∃ row canon original,
    unmarshalRow (handoverRow "2").toList = some row ∧ unmarshalCanonical row.manifestJSON = some canon ∧
      signManifest plainCrypto plainKey handover = some (row.signature, row.keyID, buildManifest handover) ∧
        unmarshalCanonical (buildManifest handover).toList = some original ∧ canon ≠ original ∧
          Accepts plainCrypto (reads "2") zeroKeyFlags := by
  obtain ⟨row, long, canon, decoded, version, same⟩ :=
    unmarshal_signedRow "2" handover_printable (handover_object "2") (handover_members "2") (rearranged_self _)
  obtain ⟨_, _, original, decoded', version', _⟩ :=
    unmarshal_signedRow "1" handover_printable (handover_object "1") (handover_members "1") (rearranged_self _)
  have text : (buildManifest handover).toList = Json.object (canonicalAs "1" handover) := String.toList_ofList
  refine ⟨_, canon, original, row, decoded, handover_signed, text ▸ decoded', ?_, ?_⟩
  · rintro rfl
    exact absurd (version.symm.trans version') (by decide)
  · exact (accepts_row_iff plainKey_valid handover_signed (zeroKey_invoked "2") row rfl).mpr
      ⟨long, rfl, rfl, rfl, canon, decoded, same⟩

end Ironsight.OfflineVerifyProofs
