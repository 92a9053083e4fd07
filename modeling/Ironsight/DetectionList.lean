import Ironsight.EventReads
import Ironsight.Manifests
import Ironsight.RankedRows
import Ironsight.Reanalysis
import Ironsight.Rfc3339

/-! The detection list. The statement knows the organisation, the domain and the time, and is
limited; the model version is compared on what it delivers. -/
namespace Ironsight.DetectionList
open Tables Uuid Access RankedRows
open EventReads (atoi)
open Manifests (timestamptz storable)
open Reanalysis (Current zeroTime)

structure Detection extends Reanalysis.Detection where
  createdAt : Instant
  deriving DecidableEq

/-- The columns of `model_versions` that decide which is the latest. -/
structure ModelVersion where
  id : UUID
  organizationID : String
  deployedAt : Instant
  deriving DecidableEq

/-- A `timestamptz` column holds microseconds. -/
structure Database where
  detections : List Detection
  modelVersions : Table ModelVersion.id
  micros : ∀ row ∈ detections, timestamptz row.detectedAt = row.detectedAt

/-- How the two statements meet rows of one time. -/
structure Env where
  versions : Scan ModelVersion
  rows : Scan Detection

/-- `r.URL.Query().Get`, empty for a parameter that is absent. -/
abbrev Params := String → String

/-! ## Statements -/

def encodingError : String := "ERROR: invalid byte sequence for encoding \"UTF8\": 0x00 (SQLSTATE 22021)"

def listModelVersionsByOrg (db : Database) (env : Env) (orgID : String) : Except String (List ModelVersion) :=
  if storable orgID then
    .ok ((env.versions.arrange (db.modelVersions.rows.filter fun mv => mv.organizationID = orgID)).insertionSort
      fun first second => second.deployedAt ≤ first.deployedAt)
  else .error ("ListModelVersionsByOrg: " ++ encodingError)

/-- `DetectionCurrentFilter`. -/
structure DetectionCurrentFilter where
  organizationID : String
  detectionDomain : String := ""
  cameraID : Option UUID := none
  since : Instant := zeroTime
  untilTime : Instant := zeroTime
  limit : Int := 0
  deriving DecidableEq

def DetectionCurrentFilter.size (f : DetectionCurrentFilter) : Nat :=
  let limit := if f.limit ≤ 0 then 100 else f.limit
  (if 1000 < limit then 1000 else limit).toNat

/-- The view `detections_current`. -/
def detectionsCurrent (db : Database) : List Detection :=
  db.detections.filter fun row => Current (db.detections.map Detection.toDetection) row.toDetection

/-- The `WHERE` clause. -/
def DetectionCurrentFilter.selects (f : DetectionCurrentFilter) (row : Detection) : Bool :=
  row.organizationID = f.organizationID ∧ (f.detectionDomain = "" ∨ row.detectionDomain = f.detectionDomain) ∧
    f.cameraID.all (fun id => row.cameraID = id) ∧ (f.since = zeroTime ∨ timestamptz f.since ≤ row.detectedAt) ∧
      (f.untilTime = zeroTime ∨ row.detectedAt ≤ timestamptz f.untilTime)

def listDetectionsCurrent (db : Database) (env : Env) (f : DetectionCurrentFilter) : Except String (List Detection) :=
  if f.organizationID = "" then .error "ListDetectionsCurrent: organization_id is required"
  else if storable f.organizationID ∧ storable f.detectionDomain then
    .ok (((env.rows.arrange ((detectionsCurrent db).filter f.selects)).insertionSort
      fun first second => second.detectedAt ≤ first.detectedAt).take f.size)
  else .error ("ListDetectionsCurrent: " ++ encodingError)

/-! ## The handler -/

/-- The organisation that is asked about. -/
def tenant (claims : Option Claims) (params : Params) : Except (Nat × String) String :=
  match claims with
  | none => .error (401, "unauthorized")
  | some claims =>
    if claims.organizationId = "" ∧ globalViewRoles claims.role = false then .error (403, "no organization_id in token")
    else
      let orgID := if globalViewRoles claims.role = true ∧ params "org" ≠ "" then params "org" else claims.organizationId
      if orgID = "" then .error (400, "organization_id required") else .ok orgID

/-- A parameter, if it is there. -/
def optional {α : Type} (text : String) (read : String → Option α) (err : String) : Except (Nat × String) (Option α) :=
  if text = "" then .ok none
  else match read text with
    | some value => .ok (some value)
    | none => .error (400, err)

def time (text : String) : Option Instant := Rfc3339.parse text.toList

/-- The version that a request asks for. -/
def parseVersion (params : Params) : Except (Nat × String) (Option UUID) :=
  optional (params "model_version_id") Uuid.parse "invalid model_version_id"

def resolve (db : Database) (env : Env) (orgID : String) : Option UUID → Except (Nat × String) (Option UUID)
  | some id => .ok (some id)
  | none =>
    match listModelVersionsByOrg db env orgID with
    | .error _ => .error (500, "failed to list model versions")
    | .ok mvs => .ok (mvs.head?.map ModelVersion.id)

/-- The times and the limit of a request; each names the parameter that it cannot read. -/
def parseFilter (orgID : String) (params : Params) : Except (Nat × String) DetectionCurrentFilter := do
  let since ← optional (params "since") time "invalid since: must be RFC3339"
  let untilTime ← optional (params "until") time "invalid until: must be RFC3339"
  let limit ← optional (params "limit") (fun text => (atoi text).filter fun n => 0 < n) "invalid limit"
  return { organizationID := orgID, detectionDomain := params "domain", since := since.getD zeroTime,
           untilTime := untilTime.getD zeroTime, limit := limit.getD 0 }

def listDetections (db : Database) (env : Env) (claims : Option Claims) (params : Params) :
    Except (Nat × String) (List Detection) := do
  let orgID ← tenant claims params
  let given ← parseVersion params
  let mvIDFilter ← resolve db env orgID given
  let f ← parseFilter orgID params
  match listDetectionsCurrent db env f with
  | .error _ => .error (500, "query failed")
  | .ok detections => .ok (detections.filter fun d => mvIDFilter.all fun id => d.modelVersionID = id)

/-- `HandleListDetections`, with the rows as JSON. -/
def handleListDetections (db : Database) (env : Env) (claims : Option Claims) (params : Params) : Reply (List Detection) :=
  match listDetections db env claims params with
  | .error (status, err) => .error status err
  | .ok detections => .json 200 detections

/-! ## What is asked for -/

/-- The version asked for, else the one that the statement has first. -/
def versionOf (db : Database) (versions : Scan ModelVersion) (orgID : String) (given : Option UUID) : Option UUID :=
  given <|> ((versions.arrange (db.modelVersions.rows.filter fun mv => mv.organizationID = orgID)).insertionSort
    fun first second => second.deployedAt ≤ first.deployedAt).head?.map ModelVersion.id

/-- The row is of the organisation and the domain, within the times to the nanosecond, and of the
version, if there is one. -/
def wanted (params : Params) (orgID : String) (version : Option UUID) (row : Detection) : Bool :=
  row.organizationID = orgID ∧ (params "domain" = "" ∨ row.detectionDomain = params "domain") ∧
    (time (params "since")).all (fun since => since ≤ row.detectedAt) ∧
      (time (params "until")).all (fun untilTime => row.detectedAt ≤ untilTime) ∧ version.all fun id => row.modelVersionID = id

/-- 100 where nothing is given, and at most 1000. -/
def limitOf (params : Params) : Nat := min ((atoi (params "limit")).getD 100).toNat 1000

/-- The most recent wanted detections. -/
def Expected (db : Database) (params : Params) (orgID : String) (version : Option UUID) (reply : Reply (List Detection)) : Prop :=
  ∃ ordered, Ranked (fun row => row.detectedAt) ((detectionsCurrent db).filter (wanted params orgID version)) ordered ∧
    reply = .json 200 (ordered.take (limitOf params))

section Filters
variable {db : Database} {versions : Scan ModelVersion} {rows : Scan Detection} {claims : Option Claims} {params : Params}
  {orgID : String} {given : Option UUID} {f : DetectionCurrentFilter}

private theorem of_optional {α : Type} {text err : String} {read : String → Option α} {value : Option α}
    (accepted : optional text read err = .ok value) : text = "" ∧ value = none ∨ read text = value ∧ value ≠ none := by
  rw [optional] at accepted
  split_ifs at accepted with absent
  · cases accepted
    exact .inl ⟨absent, rfl⟩
  · cases found : read text with
    | none =>
      rw [found] at accepted
      cases accepted
    | some given =>
      rw [found] at accepted
      cases accepted
      exact .inr ⟨rfl, nofun⟩

private theorem time_of_optional {text err : String} {value : Option Instant} (accepted : optional text time err = .ok value) :
    value = time text := by
  rcases of_optional accepted with ⟨rfl, rfl⟩ | ⟨found, _⟩
  · rfl
  · exact found.symm

private theorem of_parseFilter (accepted : parseFilter orgID params = .ok f) :
    f.organizationID = orgID ∧ f.detectionDomain = params "domain" ∧ f.cameraID = none ∧
      f.since = (time (params "since")).getD zeroTime ∧ f.untilTime = (time (params "until")).getD zeroTime ∧ f.size = limitOf params := by
  rw [parseFilter] at accepted
  cases since : optional (params "since") time "invalid since: must be RFC3339" with
  | error err =>
    rw [since] at accepted
    cases accepted
  | ok first =>
    cases untilTime : optional (params "until") time "invalid until: must be RFC3339" with
    | error err =>
      rw [since, untilTime] at accepted
      cases accepted
    | ok last =>
      cases limit : optional (params "limit") (fun text => (atoi text).filter fun n => 0 < n) "invalid limit" with
      | error err =>
        rw [since, untilTime, limit] at accepted
        cases accepted
      | ok count =>
        rw [since, untilTime, limit] at accepted
        cases accepted
        refine ⟨rfl, rfl, rfl, by rw [← time_of_optional since], by rw [← time_of_optional untilTime], ?_⟩
        rcases of_optional limit with ⟨absent, rfl⟩ | ⟨found, some_⟩
        · rw [limitOf, absent]
          rfl
        · obtain ⟨n, rfl⟩ := Option.ne_none_iff_exists'.mp some_
          obtain ⟨read, positive⟩ := Option.filter_eq_some_iff.mp found
          rw [decide_eq_true_iff] at positive
          simp only [DetectionCurrentFilter.size, limitOf, read, Option.getD_some]
          split_ifs <;> omega

private theorem floor_le (t : Int) : t / 1000 * 1000 ≤ t := by omega

private theorem le_floor {whole t : Int} (kept : whole / 1000 * 1000 = whole) (le : whole ≤ t) :
    whole ≤ t / 1000 * 1000 := by omega

/-- What is wanted is selected, because the stored times are whole microseconds. -/
private theorem selects_of_wanted {version : Option UUID} {row : Detection} (accepted : parseFilter orgID params = .ok f)
    (whole : timestamptz row.detectedAt = row.detectedAt) (asked : wanted params orgID version row = true) : f.selects row = true := by
  obtain ⟨org, domain, camera, since, untilTime, _⟩ := of_parseFilter accepted
  rw [wanted, decide_eq_true_iff] at asked
  obtain ⟨own, inside, first, last, _⟩ := asked
  rw [DetectionCurrentFilter.selects, decide_eq_true_iff, org, domain, camera, since, untilTime]
  refine ⟨own, inside, rfl, ?_, ?_⟩
  · cases given : time (params "since") with
    | none => exact .inl rfl
    | some bound =>
      rw [given, Option.all_some, decide_eq_true_iff] at first
      exact .inr ((floor_le bound).trans first)
  · cases given : time (params "until") with
    | none => exact .inl rfl
    | some bound =>
      rw [given, Option.all_some, decide_eq_true_iff] at last
      exact .inr (le_floor whole last)

private theorem resolve_eq (stored : storable orgID = true) :
    resolve db ⟨versions, rows⟩ orgID given = .ok (versionOf db versions orgID given) := by
  cases given with
  | none =>
    simp only [resolve, listModelVersionsByOrg, stored, if_true]
    rfl
  | some id => rfl

private theorem tenant_ne (asks : tenant claims params = .ok orgID) : orgID ≠ "" := by
  cases claims with
  | none => cases asks
  | some claims =>
    simp only [tenant] at asks
    by_cases refused : claims.organizationId = "" ∧ globalViewRoles claims.role = false
    · rw [if_pos refused] at asks
      cases asks
    · rw [if_neg refused] at asks
      generalize (if globalViewRoles claims.role = true ∧ params "org" ≠ "" then params "org" else claims.organizationId) = org at asks
      by_cases absent : org = ""
      · rw [if_pos absent] at asks
        cases asks
      · rw [if_neg absent] at asks
        cases asks
        exact absent

/-- An accepted request is answered from the first of the selected rows. -/
private theorem handleListDetections_eq (asks : tenant claims params = .ok orgID) (version : parseVersion params = .ok given)
    (accepted : parseFilter orgID params = .ok f) (stored : storable orgID = true ∧ storable (params "domain") = true) :
    handleListDetections db ⟨versions, rows⟩ claims params = .json 200
      ((((rows.arrange ((detectionsCurrent db).filter f.selects)).insertionSort
        fun first second => second.detectedAt ≤ first.detectedAt).take (limitOf params)).filter
          fun d => (versionOf db versions orgID given).all fun id => d.modelVersionID = id) := by
  obtain ⟨org, domain, _, _, _, size⟩ := of_parseFilter accepted
  have named : orgID ≠ "" := tenant_ne asks
  simp only [handleListDetections, listDetections, asks, version, resolve_eq stored.1, accepted, listDetectionsCurrent, org, domain, if_neg named,
    stored, and_self, if_true, size, bind, Except.bind]

/-- A text that Postgres refuses makes one of the two statements fail. -/
private theorem handleListDetections_refused (asks : tenant claims params = .ok orgID) (version : parseVersion params = .ok given)
    (accepted : parseFilter orgID params = .ok f) (refused : ¬ (storable orgID = true ∧ storable (params "domain") = true)) :
    ∃ err, handleListDetections db ⟨versions, rows⟩ claims params = .error 500 err := by
  obtain ⟨org, domain, _, _, _, size⟩ := of_parseFilter accepted
  have failed : ∃ err, listDetectionsCurrent db ⟨versions, rows⟩ f = .error err := by
    rw [listDetectionsCurrent, org, domain]
    split_ifs
    · exact ⟨_, rfl⟩
    · exact ⟨_, rfl⟩
  obtain ⟨err, failed⟩ := failed
  cases resolved : resolve db ⟨versions, rows⟩ orgID given with
  | error status =>
    have listing : status = (500, "failed to list model versions") := by
      cases given with
      | some id => cases resolved
      | none =>
        rw [resolve] at resolved
        split at resolved
        · cases resolved
          rfl
        · cases resolved
    refine ⟨"failed to list model versions", ?_⟩
    simp only [handleListDetections, listDetections, asks, version, resolved, listing, bind, Except.bind]
  | ok filter =>
    refine ⟨"query failed", ?_⟩
    simp only [handleListDetections, listDetections, asks, version, resolved, accepted, failed, bind, Except.bind]

end Filters

/-- In whatever order rows of one time come, the list is the most recent wanted detections exactly
if the statement is taken and its limit cuts off none of them for rows of another version. -/
theorem filters_first_iff (db : Database) (versions : Scan ModelVersion) (claims : Option Claims) (params : Params) (orgID : String)
    (given : Option UUID) (f : DetectionCurrentFilter) (asks : tenant claims params = .ok orgID)
    (version : parseVersion params = .ok given) (accepted : parseFilter orgID params = .ok f) :
    (∀ rows, Expected db params orgID (versionOf db versions orgID given) (handleListDetections db ⟨versions, rows⟩ claims params)) ↔
      (storable orgID = true ∧ storable (params "domain") = true) ∧
        LimitKeepsWanted (fun row => row.detectedAt) (limitOf params) (fun d => (versionOf db versions orgID given).all fun id => d.modelVersionID = id)
          (wanted params orgID (versionOf db versions orgID given)) ((detectionsCurrent db).filter f.selects) := by
  by_cases stored : storable orgID = true ∧ storable (params "domain") = true
  · have same : ((detectionsCurrent db).filter f.selects).filter (wanted params orgID (versionOf db versions orgID given)) =
        (detectionsCurrent db).filter (wanted params orgID (versionOf db versions orgID given)) := by
      rw [List.filter_filter]
      refine List.filter_congr fun row held => ?_
      rw [Bool.and_eq_left_iff_imp]
      exact selects_of_wanted accepted (db.micros row (List.mem_of_mem_filter held))
    have weaker : ∀ row ∈ (detectionsCurrent db).filter f.selects, wanted params orgID (versionOf db versions orgID given) row = true →
        (versionOf db versions orgID given).all (fun id => row.modelVersionID = id) = true := by
      intro row _ asked
      rw [wanted, decide_eq_true_iff] at asked
      exact asked.2.2.2.2
    rw [and_iff_right stored, ← filtered_iff weaker, same]
    constructor
    · intro always ordered ranked
      obtain ⟨rows, delivers⟩ := exists_scan ranked
      obtain ⟨first, ranked', reply⟩ := always rows
      rw [handleListDetections_eq asks version accepted stored, delivers, Reply.json.injEq] at reply
      exact ⟨first, ranked', reply.2⟩
    · intro always rows
      obtain ⟨first, ranked, eq⟩ := always _ (ranked_newest rows _)
      exact ⟨first, ranked, by rw [handleListDetections_eq asks version accepted stored, eq]⟩
  · refine iff_of_false (fun always => ?_) fun ⟨taken, _⟩ => stored taken
    obtain ⟨_, _, reply⟩ := always ⟨id, fun _ => .refl _⟩
    obtain ⟨err, refused⟩ := handleListDetections_refused asks version accepted stored
    rw [refused] at reply
    cases reply

private def seen (id version : UUID) (at_ : Instant) : Detection where
  id
  organizationID := "co-1"
  cameraID := ⟨10⟩
  detectedAt := at_
  detectionClass := "no-hardhat"
  detectionDomain := "ppe"
  confidence := 1 / 2
  modelVersionID := version
  analysisRunID := ⟨30⟩
  source := "live"
  createdAt := at_

/-- The later of two detections is of the version that is no longer the latest. -/
private def upgraded : Database where
  detections := [seen ⟨40⟩ ⟨22⟩ 1750000000000000000, seen ⟨41⟩ ⟨21⟩ 1750000001000000000]
  modelVersions := ⟨[⟨⟨21⟩, "co-1", 1740000000000000000⟩, ⟨⟨22⟩, "co-1", 1745000000000000000⟩], by decide⟩
  micros := by decide +kernel

private def officer : Claims where
  userId := "00000000-0000-0000-0000-000000000001"
  username := "vera"
  role := .viewer
  organizationId := "co-1"

private def atMost (limit : String) : Params := fun name => if name = "limit" then limit else ""

private def asStored : Scan ModelVersion := ⟨id, fun _ => .refl _⟩

/-- With a limit of two both rows are read. -/
theorem both_versions_fit : Expected upgraded (atMost "2") "co-1" (some ⟨22⟩)
    (handleListDetections upgraded ⟨asStored, ⟨id, fun _ => .refl _⟩⟩ (some officer) (atMost "2")) :=
  (filters_first_iff upgraded asStored (some officer) (atMost "2") "co-1" none { organizationID := "co-1", limit := 2 }
    (by decide +kernel) (by decide +kernel) (by decide +kernel)).mpr ⟨by decide +kernel, by unfold LimitKeepsWanted; decide +kernel⟩
    ⟨id, fun _ => .refl _⟩

/-- Asked for one detection, the list is empty, though there is one of the latest version. -/
theorem older_version_hides : handleListDetections upgraded ⟨asStored, ⟨id, fun _ => .refl _⟩⟩ (some officer) (atMost "1") = .json 200 [] ∧
    ¬ Expected upgraded (atMost "1") "co-1" (some ⟨22⟩)
      (handleListDetections upgraded ⟨asStored, ⟨id, fun _ => .refl _⟩⟩ (some officer) (atMost "1")) := by
  have answer : handleListDetections upgraded ⟨asStored, ⟨id, fun _ => .refl _⟩⟩ (some officer) (atMost "1") = .json 200 [] := by
    decide +kernel
  refine ⟨answer, fun ⟨ordered, ranked, reply⟩ => ?_⟩
  rw [answer, Reply.json.injEq] at reply
  have lengths := congrArg List.length reply.2
  rw [List.length_take, ranked.perm.length_eq] at lengths
  exact absurd lengths (by decide +kernel)

end Ironsight.DetectionList
