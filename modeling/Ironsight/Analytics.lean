import Mathlib.Data.List.Infix
import Ironsight.Access
import Ironsight.Runs

/-! Analytics configuration of a camera: the rules pushed to its firmware
(`vca_rules`) and the server-side PPE zones with the compliance rules bound to
them. The handlers guard this data in three ways: by the camera in the path, by
the caller's organisation, and not at all. Each is kept exactly as written, in
the order of its checks. -/
namespace Ironsight.Analytics
open Tables Runs Uuid Access

/-- `database.Point`, the coordinates as the bits of their doubles. -/
structure Point where
  x : BitVec 64
  y : BitVec 64
  deriving DecidableEq

/-- A row of `vca_rules`; the actions are `none` for a stored JSON `null`. -/
structure VCARule where
  id : UUID
  cameraId : UUID
  ruleType : String
  name : String := ""
  enabled : Bool := true
  sensitivity : Int := 50
  region : List Point := []
  direction : String := "both"
  thresholdSec : Int := 0
  schedule : String := "always"
  actions : Option (List String) := some ["record", "notify"]
  synced : Bool := false
  syncError : String := ""
  createdAt : Instant := 0
  updatedAt : Instant := 0
  deletedAt : Option Instant := none
  deriving DecidableEq

structure VCARuleCreate where
  ruleType : String := ""
  name : String := ""
  enabled : Bool := false
  sensitivity : Int64 := 0
  region : List Point := []
  direction : String := ""
  thresholdSec : Int64 := 0
  schedule : String := ""
  actions : Option (List String) := none
  deriving DecidableEq

/-- The check constraint on `ppe_zones.zone_type`. -/
inductive ZoneType where
  | workArea
  | noGo
  | ppeRequired
  | ppeOptional
  deriving DecidableEq

def ZoneType.text : ZoneType → String
  | .workArea => "work_area"
  | .noGo => "no_go"
  | .ppeRequired => "ppe_required"
  | .ppeOptional => "ppe_optional"

/-- `validZoneTypes`. -/
def validZoneTypes (text : String) : Option ZoneType :=
  [ZoneType.workArea, .noGo, .ppeRequired, .ppeOptional].find? fun type => type.text = text

/-- A row of `ppe_zones`. -/
structure PPEZone where
  id : UUID
  organizationId : String
  cameraId : UUID
  siteId : Option String := none
  zoneType : ZoneType
  name : String := ""
  region : List Point := []
  enabled : Bool := true
  notes : Option String := none
  createdBy : Option UUID := none
  createdAt : Instant := 0
  updatedAt : Instant := 0
  deletedAt : Option Instant := none
  deriving DecidableEq

structure PPEZoneCreate where
  zoneType : String := ""
  name : String := ""
  region : List Point := []
  enabled : Bool := false
  notes : Option String := none
  deriving DecidableEq

/-- The check constraint on `compliance_rules.rule_type`. -/
inductive RuleType where
  | ppeRequired
  | noGo
  deriving DecidableEq

def RuleType.text : RuleType → String
  | .ppeRequired => "ppe_required"
  | .noGo => "no_go"

/-- `validRuleTypes`. -/
def validRuleTypes (text : String) : Option RuleType :=
  [RuleType.ppeRequired, .noGo].find? fun type => type.text = text

/-- A row of `compliance_rules`; without a camera it holds for the whole site. -/
structure ComplianceRule where
  id : UUID
  organizationId : String
  siteId : Option String := none
  cameraId : Option UUID
  zoneId : UUID
  ruleType : RuleType
  ppeClasses : List String := []
  enabled : Bool := true
  notes : Option String := none
  createdBy : Option UUID := none
  createdAt : Instant := 0
  updatedAt : Instant := 0
  deletedAt : Option Instant := none
  deriving DecidableEq

structure ComplianceRuleCreate where
  zoneId : UUID := .nil
  ruleType : String := ""
  ppeClasses : List String := []
  enabled : Bool := false
  notes : Option String := none
  siteWide : Bool := false
  deriving DecidableEq

/-- The identity tables with the organisations' ids and the three analytics
tables. -/
structure Database extends Directory where
  organizations : List String
  vcaRules : Table VCARule.id
  zones : Table PPEZone.id
  rules : Table ComplianceRule.id
  deriving DecidableEq

/-- The requests, with every identifier as it stands in the path and `none` for
a body that does not decode. -/
inductive Request where
  | listVCARules (camera : String)
  | createVCARule (camera : String) (body : Option VCARuleCreate)
  | updateVCARule (camera rule : String) (body : Option VCARuleCreate)
  | deleteVCARule (camera rule : String)
  | syncVCARules (camera : String)
  | listPPEZones (camera : String) (includeDeleted : Bool)
  | createPPEZone (camera : String) (body : Option PPEZoneCreate)
  | updatePPEZone (camera zone : String) (body : Option PPEZoneCreate)
  | deletePPEZone (camera zone : String)
  | listComplianceRules (camera : String) (includeDeleted : Bool)
  | createComplianceRule (camera : String) (body : Option ComplianceRuleCreate)
  | updateComplianceRule (camera rule : String) (body : Option ComplianceRuleCreate)
  | deleteComplianceRule (camera rule : String)
  deriving DecidableEq

/-- The database functions that a handler calls. -/
inductive Query where
  | authorizedCameraIDs
  | getCamera
  | listVCARules
  | createVCARule
  | updateVCARule
  | softDeleteVCARule
  | listPPEZones
  | getPPEZone
  | createPPEZone
  | updatePPEZone
  | softDeletePPEZone
  | listComplianceRules
  | getComplianceRule
  | createComplianceRule
  | updateComplianceRule
  | softDeleteComplianceRule
  deriving DecidableEq

/-- What a request meets outside: the clock, a random identifier, failing
statements, the driver's refusal of a number, and the camera's answer. -/
structure Env where
  now : Instant := 0
  newId : UUID := .nil
  fault : Query → Option String := fun _ => none
  int4Fault : String := ""
  pushFault : Option String := none
  markFails : UUID → Bool := fun _ => false

structure Call where
  claims : Option Claims
  request : Request
  env : Env := {}

/-- A compliance rule with the columns joined from its zone. -/
structure ListedRule where
  rule : ComplianceRule
  siteWide : Bool
  zoneName : String
  zoneType : String
  deriving DecidableEq

inductive Body where
  | vcaRules (rows : List VCARule)
  | vcaRule (row : VCARule)
  | synced (synced errors : Nat)
  | zones (rows : List PPEZone)
  | zone (row : PPEZone)
  | rules (rows : List ListedRule)
  | rule (row : ListedRule)
  | id (id : UUID)
  deriving DecidableEq

/-- `http.Error` before anything was written. -/
structure Refusal where
  status : Nat
  text : String
  deriving DecidableEq

/-- Go's text functions that the handlers call. -/
structure Text where
  quote : String → String
  toLower : String → String

abbrev Answer := Except Refusal (Database × Reply Body)

/-! ## Checks -/

def ensure (holds : Bool) (status : Nat) (text : String) : Except Refusal Unit :=
  if holds then .ok () else .error ⟨status, text⟩

def require {α : Type} (value : Option α) (status : Nat) (text : String) : Except Refusal α :=
  match value with
  | some found => .ok found
  | none => .error ⟨status, text⟩

/-- A statement that may fail, answered with 500. -/
def attempt (env : Env) (query : Query) (label : String) : Except Refusal Unit :=
  match env.fault query with
  | none => .ok ()
  | some err => .error ⟨500, label ++ err⟩

/-- `zoneWriteRoles`. -/
def zoneWriteRoles : Role → Bool
  | .admin | .socOperator | .socSupervisor | .siteManager => true
  | .customer | .viewer | .guard => false

/-- The caller of a write: 401 without claims, 403 below site manager. -/
def writer (call : Call) : Except Refusal Claims := do
  let claims ← require call.claims 401 "unauthorized"
  ensure (zoneWriteRoles claims.role) 403 "forbidden: site_manager or above required"
  return claims

/-- The `CanAccessCamera` check of the handlers that have it. -/
def gate (db : Database) (claims : Claims) (env : Env) (camera : UUID) : Except Refusal Unit := do
  if globalViewRoles claims.role = false then attempt env .authorizedCameraIDs ""
  match canAccessCamera db.toDirectory (some claims) camera with
  | .error err => .error ⟨500, err⟩
  | .ok allowed => ensure allowed 404 "not found"

/-- `validatePPEZoneCreate`, with the zone type it recognised. -/
def validatePPEZoneCreate (text : Text) (input : PPEZoneCreate) : Except Refusal ZoneType := do
  let type ← require (validZoneTypes input.zoneType) 400 ("invalid zone_type " ++ text.quote input.zoneType ++
    ": must be work_area, no_go, ppe_required, or ppe_optional")
  ensure (3 ≤ input.region.length) 400
    ("region must have at least 3 points (got " ++ toString input.region.length ++ ")")
  ensure (input.name.utf8ByteSize ≤ 120) 400 "name must be 120 characters or fewer"
  return type

/-- `validateComplianceRuleCreate`, with the rule type it recognised. -/
def validateComplianceRuleCreate (text : Text) (input : ComplianceRuleCreate) : Except Refusal RuleType := do
  let type ← require (validRuleTypes input.ruleType) 400 ("invalid rule_type " ++ text.quote input.ruleType ++
    ": must be ppe_required or no_go")
  ensure (¬ (type = .ppeRequired ∧ input.ppeClasses = [])) 400 "ppe_classes must be non-empty for ppe_required rules"
  ensure (input.zoneId ≠ .nil) 400 "zone_id is required"
  return type

/-! ## VCA rules -/

/-- `ListVCARules`. -/
def activeVCARules (db : Database) (camera : UUID) : List VCARule :=
  (db.vcaRules.rows.filter fun rule => rule.cameraId = camera ∧ rule.deletedAt = none).insertionSort
    fun first second => first.createdAt ≤ second.createdAt

/-- The JSON of a scanned rule has no `null` actions. -/
def scanned (rule : VCARule) : VCARule := { rule with actions := some (rule.actions.getD []) }

/-- `HandleListVCARules`. -/
def handleListVCARules (db : Database) (call : Call) (camera : String) : Answer := do
  let cameraId ← require (parse camera) 400 "invalid camera id"
  attempt call.env .listVCARules ""
  return (db, .json 200 (.vcaRules ((activeVCARules db cameraId).map scanned)))

def validVCATypes : List String := ["intrusion", "linecross", "regionentrance", "loitering"]

/-- What an `integer` column takes. -/
def fitsInt4 (n : Int64) : Bool := -2147483648 ≤ n.toInt ∧ n.toInt ≤ 2147483647

def encodes (input : VCARuleCreate) : Bool := fitsInt4 input.sensitivity && fitsInt4 input.thresholdSec

/-- `vcaRuleFromCreate`. -/
def vcaRuleFromCreate (id cameraId : UUID) (input : VCARuleCreate) : VCARule where
  id := id
  cameraId := cameraId
  ruleType := input.ruleType
  name := input.name
  enabled := input.enabled
  sensitivity := input.sensitivity.toInt
  region := input.region
  direction := input.direction
  thresholdSec := input.thresholdSec.toInt
  schedule := if input.schedule = "" then "always" else input.schedule
  actions := some (input.actions.getD ["record", "notify"])

/-- `insertVCARule`, with the key and the foreign key on the camera. -/
def insertVCARule (db : Database) (env : Env) (rule : VCARule) : Except Refusal (Table VCARule.id) := do
  let rules ← require (db.vcaRules.insert? { rule with createdAt := env.now, updatedAt := env.now }) 500
    (uniqueViolation "vca_rules_pkey")
  ensure (db.cameras.find? rule.cameraId).isSome 500 (foreignKeyViolation "vca_rules" "vca_rules_camera_id_fkey")
  return rules

/-- `HandleCreateVCARule`: the answer is the rule as built, not as stored. -/
def handleCreateVCARule (db : Database) (call : Call) (camera : String) (body : Option VCARuleCreate) : Answer := do
  let cameraId ← require (parse camera) 400 "invalid camera id"
  let input ← require body 400 "invalid request body"
  ensure (validVCATypes.contains input.ruleType) 400
    "invalid rule_type — must be intrusion, linecross, regionentrance, or loitering"
  ensure (2 ≤ input.region.length) 400 "region must have at least 2 points"
  attempt call.env .createVCARule ""
  ensure (encodes input) 500 call.env.int4Fault
  let rule := vcaRuleFromCreate call.env.newId cameraId input
  let rules ← insertVCARule db call.env rule
  return ({ db with vcaRules := rules }, .json 201 (.vcaRule rule))

/-- The `SET` list of `UpdateVCARule`. -/
def revisedVCARule (input : VCARuleCreate) (now : Instant) (rule : VCARule) : VCARule :=
  { rule with
    name := input.name
    enabled := input.enabled
    sensitivity := input.sensitivity.toInt
    region := input.region
    direction := input.direction
    thresholdSec := input.thresholdSec.toInt
    schedule := input.schedule
    actions := input.actions
    synced := false
    updatedAt := now }

/-- `UpdateVCARule`, deleted rules included. -/
def updateVCARule (db : Database) (id : UUID) (input : VCARuleCreate) (now : Instant) : Database :=
  { db with vcaRules := db.vcaRules.modify (fun rule => rule.id = id) (revisedVCARule input now) fun _ => rfl }

/-- `HandleUpdateVCARule`: the camera of the path is not looked at. -/
def handleUpdateVCARule (db : Database) (call : Call) (rule : String) (body : Option VCARuleCreate) : Answer := do
  let ruleId ← require (parse rule) 400 "invalid rule id"
  let input ← require body 400 "invalid request body"
  attempt call.env .updateVCARule ""
  ensure (encodes input) 500 call.env.int4Fault
  return (updateVCARule db ruleId input call.env.now, .noContent)

/-- `SoftDeleteVCARule`. -/
def softDeleteVCARule (db : Database) (id : UUID) (now : Instant) : Database :=
  { db with
    vcaRules := db.vcaRules.modify (fun rule => rule.id = id ∧ rule.deletedAt = none)
      (fun rule => { rule with deletedAt := some now }) fun _ => rfl }

/-- `HandleDeleteVCARule`. -/
def handleDeleteVCARule (db : Database) (call : Call) (rule : String) : Answer := do
  let ruleId ← require (parse rule) 400 "invalid rule id"
  attempt call.env .softDeleteVCARule ""
  return (softDeleteVCARule db ruleId call.env.now, .noContent)

/-- `MilesightDriver.Matches`; no other driver is registered. -/
def matchesMilesight (text : Text) (camera : Camera) : Bool :=
  let manufacturer := (text.toLower camera.manufacturer).toList
  let model := (text.toLower camera.model).toList
  "milesight".toList <:+: manufacturer ∨ "ms-c".toList <+: model ∨ "ms-n".toList <+: model

/-- The `SET` list of `UpdateVCARuleSync`. -/
def markedRule (env : Env) (rule : VCARule) : VCARule :=
  { rule with synced := env.pushFault.isNone, syncError := env.pushFault.getD "", updatedAt := env.now }

/-- `UpdateVCARuleSync` for every listed rule whose statement succeeds. -/
def markSynced (db : Database) (env : Env) (camera : UUID) : Database :=
  { db with
    vcaRules := db.vcaRules.modify
      (fun rule => rule.cameraId = camera ∧ rule.deletedAt = none ∧ env.markFails rule.id = false)
      (markedRule env) fun _ => rfl }

/-- `HandleSyncVCARules`. A camera that is not there is a nil dereference, which
the recovery middleware answers with a bare 500. -/
def handleSyncVCARules (text : Text) (db : Database) (call : Call) (camera : String) : Answer := do
  let cameraId ← require (parse camera) 400 "invalid camera id"
  ensure (call.env.fault .getCamera = none) 404 "camera not found"
  let row ← require (getCamera db.toDirectory cameraId) 500 ""
  ensure (matchesMilesight text row) 400 "no driver found for this camera"
  attempt call.env .listVCARules ""
  let count := (activeVCARules db cameraId).length
  return (markSynced db call.env cameraId,
    .json 200 (if call.env.pushFault = none then .synced count 0 else .synced 0 count))

/-! ## PPE zones -/

/-- `ListPPEZones` and `ListPPEZonesIncludeDeleted`. -/
def listZones (db : Database) (camera : UUID) (organizationId : String) (includeDeleted : Bool) : List PPEZone :=
  (db.zones.rows.filter fun zone => zone.cameraId = camera ∧ zone.organizationId = organizationId ∧
    (includeDeleted ∨ zone.deletedAt = none)).insertionSort fun first second => first.createdAt ≤ second.createdAt

/-- `HandleListPPEZones`. -/
def handleListPPEZones (db : Database) (call : Call) (camera : String) (includeDeleted : Bool) : Answer := do
  let claims ← require call.claims 401 "unauthorized"
  let cameraId ← require (parse camera) 400 "invalid camera id"
  gate db claims call.env cameraId
  ensure (!includeDeleted || claims.role = .admin) 403 "forbidden: admin only"
  attempt call.env .listPPEZones
    (if includeDeleted then "ListPPEZonesIncludeDeleted: " else "ListPPEZones: ")
  return (db, .json 200 (.zones (listZones db cameraId claims.organizationId includeDeleted)))

/-- `GetPPEZone`: a live zone of the organisation. -/
def getPPEZone (db : Database) (id : UUID) (organizationId : String) : Option PPEZone :=
  (db.zones.find? id).filter fun zone => zone.organizationId = organizationId ∧ zone.deletedAt = none

def newZone (call : Call) (claims : Claims) (camera : Camera) (type : ZoneType) (input : PPEZoneCreate) : PPEZone where
  id := call.env.newId
  organizationId := claims.organizationId
  cameraId := camera.id
  siteId := camera.siteId.filter (· ≠ "")
  zoneType := type
  name := input.name
  region := input.region
  enabled := input.enabled
  notes := input.notes
  createdBy := parse claims.userId
  createdAt := call.env.now
  updatedAt := call.env.now

/-- Whether the optional references of a new row exist. -/
def references (db : Database) (organizationId : String) (siteId : Option String) (createdBy : Option UUID) : Bool :=
  db.organizations.contains organizationId && (siteId.all fun site => (db.sites.find? site).isSome) &&
    createdBy.all fun user => (db.users.find? user).isSome

/-- `HandleCreatePPEZone`. The insert's own error is not looked at: a violated
constraint shows as a missing row. -/
def handleCreatePPEZone (text : Text) (db : Database) (call : Call) (camera : String) (body : Option PPEZoneCreate) :
    Answer := do
  let claims ← writer call
  let cameraId ← require (parse camera) 400 "invalid camera id"
  gate db claims call.env cameraId
  let input ← require body 400 "invalid JSON body"
  let type ← validatePPEZoneCreate text input
  ensure (call.env.fault .getCamera = none) 404 "camera not found"
  let row ← require (getCamera db.toDirectory cameraId) 404 "camera not found"
  attempt call.env .createPPEZone "CreatePPEZone: "
  let zone := newZone call claims row type input
  ensure (references db zone.organizationId zone.siteId zone.createdBy) 500 "CreatePPEZone: no row returned"
  let zones ← require (db.zones.insert? zone) 500 "CreatePPEZone: no row returned"
  return ({ db with zones := zones }, .json 201 (.zone zone))

/-- The `SET` list of `UpdatePPEZone`. -/
def revisedZone (input : PPEZoneCreate) (type : ZoneType) (now : Instant) (zone : PPEZone) : PPEZone :=
  { zone with
    zoneType := type
    name := input.name
    region := input.region
    enabled := input.enabled
    notes := input.notes
    updatedAt := now }

/-- The `WHERE` clause of `UpdatePPEZone`. -/
def ownZone (id : UUID) (organizationId : String) (zone : PPEZone) : Bool :=
  zone.id = id ∧ zone.organizationId = organizationId

@[simp] theorem revisedZone_id (input : PPEZoneCreate) (type : ZoneType) (now : Instant) (zone : PPEZone) :
    (revisedZone input type now zone).id = zone.id := rfl

/-- `UpdatePPEZone`, deleted zones included. -/
def updatePPEZone (db : Database) (id : UUID) (organizationId : String) (input : PPEZoneCreate) (type : ZoneType)
    (now : Instant) : Database :=
  { db with zones := db.zones.modify (ownZone id organizationId) (revisedZone input type now) (revisedZone_id input type now) }

/-- `HandleUpdatePPEZone`. -/
def handleUpdatePPEZone (text : Text) (db : Database) (call : Call) (zone : String) (body : Option PPEZoneCreate) :
    Answer := do
  let claims ← writer call
  let zoneId ← require (parse zone) 400 "invalid zone id"
  let input ← require body 400 "invalid JSON body"
  let type ← validatePPEZoneCreate text input
  attempt call.env .updatePPEZone "UpdatePPEZone: "
  ensure (0 < db.zones.affected (ownZone zoneId claims.organizationId)) 404 "zone not found"
  return (updatePPEZone db zoneId claims.organizationId input type call.env.now, .noContent)

/-- The rules that go with a zone. -/
def boundRule (zone : UUID) (organizationId : String) (rule : ComplianceRule) : Bool :=
  rule.zoneId = zone ∧ rule.organizationId = organizationId ∧ rule.deletedAt = none

def liveZone (id : UUID) (organizationId : String) (zone : PPEZone) : Bool :=
  zone.id = id ∧ zone.organizationId = organizationId ∧ zone.deletedAt = none

/-- `SoftDeletePPEZone`: first the caller's rules on the zone, then the zone. -/
def softDeletePPEZone (db : Database) (id : UUID) (organizationId : String) (now : Instant) : Database :=
  { db with
    rules := db.rules.modify (boundRule id organizationId) (fun rule => { rule with deletedAt := some now }) fun _ => rfl
    zones := db.zones.modify (liveZone id organizationId) (fun zone => { zone with deletedAt := some now }) fun _ => rfl }

/-- `HandleDeletePPEZone`. The transaction is committed before the number of
zones is looked at, so a 404 may have deleted rules. -/
def handleDeletePPEZone (db : Database) (call : Call) (zone : String) : Answer := do
  let claims ← writer call
  let zoneId ← require (parse zone) 400 "invalid zone id"
  attempt call.env .softDeletePPEZone "SoftDeletePPEZone: "
  return (softDeletePPEZone db zoneId claims.organizationId call.env.now,
    if db.zones.affected (liveZone zoneId claims.organizationId) = 0 then .error 404 "zone not found" else .noContent)

/-! ## Compliance rules -/

/-- The left join with the zones, live ones only unless deleted rows are asked
for. -/
def joined (db : Database) (includeDeleted : Bool) (rule : ComplianceRule) : ListedRule :=
  let zone := (db.zones.find? rule.zoneId).filter fun zone => includeDeleted ∨ zone.deletedAt = none
  { rule := rule
    siteWide := rule.cameraId.isNone
    zoneName := zone.elim "" PPEZone.name
    zoneType := zone.elim "" fun zone => zone.zoneType.text }

/-- The rules of a camera: its own and those of its whole site. -/
def appliesTo (organizationId : String) (camera : UUID) (siteId : String) (rule : ComplianceRule) : Bool :=
  rule.organizationId = organizationId ∧
    (rule.cameraId = some camera ∨ (rule.cameraId = none ∧ rule.siteId = some siteId))

/-- `ListComplianceRules` and `ListComplianceRulesIncludeDeleted`. -/
def listRules (db : Database) (camera : UUID) (siteId organizationId : String) (includeDeleted : Bool) :
    List ComplianceRule :=
  (db.rules.rows.filter fun rule => appliesTo organizationId camera siteId rule ∧
    (includeDeleted ∨ rule.deletedAt = none)).insertionSort fun first second => first.createdAt ≤ second.createdAt

/-- `HandleListComplianceRules`. -/
def handleListComplianceRules (db : Database) (call : Call) (camera : String) (includeDeleted : Bool) : Answer := do
  let claims ← require call.claims 401 "unauthorized"
  let cameraId ← require (parse camera) 400 "invalid camera id"
  gate db claims call.env cameraId
  ensure (!includeDeleted || claims.role = .admin) 403 "forbidden: admin only"
  let label := if includeDeleted then "ListComplianceRulesIncludeDeleted" else "ListComplianceRules"
  let row ← require ((db.cameras.find? cameraId).filter fun row => includeDeleted ∨ row.deletedAt = none) 500
    (label ++ " get site_id: " ++ errNoRows)
  attempt call.env .listComplianceRules (label ++ ": ")
  let rules := listRules db cameraId (row.siteId.getD "") claims.organizationId includeDeleted
  return (db, .json 200 (.rules (rules.map (joined db includeDeleted))))

def newRule (call : Call) (claims : Claims) (camera : Camera) (type : RuleType) (input : ComplianceRuleCreate) :
    ComplianceRule where
  id := call.env.newId
  organizationId := claims.organizationId
  siteId := camera.siteId.filter (· ≠ "")
  cameraId := if input.siteWide then none else some camera.id
  zoneId := input.zoneId
  ruleType := type
  ppeClasses := input.ppeClasses
  enabled := input.enabled
  notes := input.notes
  createdBy := parse claims.userId
  createdAt := call.env.now
  updatedAt := call.env.now

/-- The error of an insert into `compliance_rules`. -/
def ruleViolation (db : Database) (rule : ComplianceRule) : String :=
  if (db.rules.find? rule.id).isSome then uniqueViolation "compliance_rules_pkey"
  else foreignKeyViolation "compliance_rules" (
    if !db.organizations.contains rule.organizationId then "compliance_rules_organization_id_fkey"
    else if rule.siteId.any fun site => (db.sites.find? site).isNone then "compliance_rules_site_id_fkey"
    else "compliance_rules_created_by_fkey")

/-- `HandleCreateComplianceRule`: the zone is checked against the organisation,
not against the camera. -/
def handleCreateComplianceRule (text : Text) (db : Database) (call : Call) (camera : String)
    (body : Option ComplianceRuleCreate) : Answer := do
  let claims ← writer call
  let cameraId ← require (parse camera) 400 "invalid camera id"
  gate db claims call.env cameraId
  let input ← require body 400 "invalid JSON body"
  let type ← validateComplianceRuleCreate text input
  attempt call.env .getPPEZone "GetPPEZone: "
  let _ ← require (getPPEZone db input.zoneId claims.organizationId) 400
    "zone not found or does not belong to this organization"
  ensure (call.env.fault .getCamera = none) 404 "camera not found"
  let row ← require (getCamera db.toDirectory cameraId) 404 "camera not found"
  attempt call.env .createComplianceRule "CreateComplianceRule: "
  let rule := newRule call claims row type input
  let violation := "CreateComplianceRule: " ++ ruleViolation db rule
  let rules ← require (db.rules.insert? rule) 500 violation
  ensure (references db rule.organizationId rule.siteId rule.createdBy) 500 violation
  return ({ db with rules := rules },
    .json 201 (if call.env.fault .getComplianceRule = none then .rule (joined db false rule) else .id rule.id))

/-- The `SET` list of `UpdateComplianceRule`. -/
def revisedRule (input : ComplianceRuleCreate) (type : RuleType) (camera : UUID) (now : Instant)
    (rule : ComplianceRule) : ComplianceRule :=
  { rule with
    zoneId := input.zoneId
    ruleType := type
    ppeClasses := input.ppeClasses
    enabled := input.enabled
    notes := input.notes
    cameraId := if input.siteWide then none else some camera
    updatedAt := now }

/-- The `WHERE` clause of `UpdateComplianceRule`. -/
def ownRule (id : UUID) (organizationId : String) (rule : ComplianceRule) : Bool :=
  rule.id = id ∧ rule.organizationId = organizationId

@[simp] theorem revisedRule_id (input : ComplianceRuleCreate) (type : RuleType) (camera : UUID) (now : Instant)
    (rule : ComplianceRule) : (revisedRule input type camera now rule).id = rule.id := rfl

/-- `UpdateComplianceRule`, deleted rules included. -/
def updateComplianceRule (db : Database) (id : UUID) (organizationId : String) (camera : UUID)
    (input : ComplianceRuleCreate) (type : RuleType) (now : Instant) : Database :=
  { db with
    rules := db.rules.modify (ownRule id organizationId) (revisedRule input type camera now)
      (revisedRule_id input type camera now) }

/-- `HandleUpdateComplianceRule`: the zone and the camera it writes are checked
by their foreign keys only. -/
def handleUpdateComplianceRule (text : Text) (db : Database) (call : Call) (camera rule : String)
    (body : Option ComplianceRuleCreate) : Answer := do
  let claims ← writer call
  let cameraId ← require (parse camera) 400 "invalid camera id"
  let ruleId ← require (parse rule) 400 "invalid rule id"
  let input ← require body 400 "invalid JSON body"
  let type ← validateComplianceRuleCreate text input
  attempt call.env .updateComplianceRule "UpdateComplianceRule: "
  ensure (0 < db.rules.affected (ownRule ruleId claims.organizationId)) 404 "rule not found"
  ensure (input.siteWide || (db.cameras.find? cameraId).isSome) 500
    ("UpdateComplianceRule: " ++ foreignKeyViolation "compliance_rules" "compliance_rules_camera_id_fkey")
  ensure (db.zones.find? input.zoneId).isSome 500
    ("UpdateComplianceRule: " ++ foreignKeyViolation "compliance_rules" "compliance_rules_zone_id_fkey")
  return (updateComplianceRule db ruleId claims.organizationId cameraId input type call.env.now, .noContent)

def liveRule (id : UUID) (organizationId : String) (rule : ComplianceRule) : Bool :=
  rule.id = id ∧ rule.organizationId = organizationId ∧ rule.deletedAt = none

/-- `SoftDeleteComplianceRule`. -/
def softDeleteComplianceRule (db : Database) (id : UUID) (organizationId : String) (now : Instant) : Database :=
  { db with
    rules := db.rules.modify (liveRule id organizationId) (fun rule => { rule with deletedAt := some now }) fun _ => rfl }

/-- `HandleDeleteComplianceRule`. -/
def handleDeleteComplianceRule (db : Database) (call : Call) (rule : String) : Answer := do
  let claims ← writer call
  let ruleId ← require (parse rule) 400 "invalid rule id"
  attempt call.env .softDeleteComplianceRule "SoftDeleteComplianceRule: "
  ensure (0 < db.rules.affected (liveRule ruleId claims.organizationId)) 404 "rule not found"
  return (softDeleteComplianceRule db ruleId claims.organizationId call.env.now, .noContent)

/-- `ListZonesAndRulesForCamera`, the query of the PPE worker. -/
def listZonesAndRulesForCamera (db : Database) (camera : UUID) (siteId organizationId : String) :
    List (ComplianceRule × PPEZone) :=
  (db.rules.rows.filter fun rule => appliesTo organizationId camera siteId rule ∧ rule.deletedAt = none ∧
    rule.enabled).filterMap fun rule =>
      ((db.zones.find? rule.zoneId).filter fun zone => zone.deletedAt = none ∧ zone.enabled).map fun zone => (rule, zone)

/-! ## Requests -/

/-- The dispatch of the routes. -/
def respond (text : Text) (db : Database) (call : Call) : Answer :=
  match call.request with
  | .listVCARules camera => handleListVCARules db call camera
  | .createVCARule camera body => handleCreateVCARule db call camera body
  | .updateVCARule _ rule body => handleUpdateVCARule db call rule body
  | .deleteVCARule _ rule => handleDeleteVCARule db call rule
  | .syncVCARules camera => handleSyncVCARules text db call camera
  | .listPPEZones camera includeDeleted => handleListPPEZones db call camera includeDeleted
  | .createPPEZone camera body => handleCreatePPEZone text db call camera body
  | .updatePPEZone _ zone body => handleUpdatePPEZone text db call zone body
  | .deletePPEZone _ zone => handleDeletePPEZone db call zone
  | .listComplianceRules camera includeDeleted => handleListComplianceRules db call camera includeDeleted
  | .createComplianceRule camera body => handleCreateComplianceRule text db call camera body
  | .updateComplianceRule camera rule body => handleUpdateComplianceRule text db call camera rule body
  | .deleteComplianceRule _ rule => handleDeleteComplianceRule db call rule

/-- A refused request leaves the tables as they were. -/
def handle (text : Text) (db : Database) (call : Call) : Database × Reply Body :=
  match respond text db call with
  | .ok result => result
  | .error refusal => (db, .error refusal.status refusal.text)

def step (text : Text) (db : Database) (call : Call) : Database := (handle text db call).1

end Ironsight.Analytics
