import Ironsight.Soc

/-! The three read endpoints over security events and incidents. They scope the
same rows in three ways: the event list not at all, the incident list by fanning
out over the caller's sites, the detail view by checking the row's site. -/
namespace Ironsight.EventReads
open Tables Uuid Access Soc

/-- A store as the schema and `CreateSite` leave it: every event's site exists,
and no site has the empty id. -/
structure Database extends Store where
  eventSites : ∀ event ∈ events, ∃ site ∈ sites, site.id = event.siteId
  siteNamed : ∀ site ∈ sites, site.id ≠ ""

/-- A caller whose role is outside `globalViewRoles`. -/
structure RestrictedCaller extends Claims where
  restricted : globalViewRoles role = false

/-- `IncidentSummary`. -/
structure IncidentSummary where
  id : String
  severity : String
  status : String
  title : String
  siteId : String
  siteName : String
  cameraId : String
  ts : Millis
  resolvedAt : Millis
  workersIdentified : Nat
  type : String
  escalationLevel : Int
  dispositionCode : String
  dispositionLabel : String
  operatorCallsign : String
  cameraName : String
  deriving DecidableEq

/-- The fields of `IncidentDetail` that are not constant. -/
structure IncidentDetail where
  id : String
  severity : String
  status : String
  title : String
  siteId : String
  siteName : String
  cameraId : String
  cameraName : String
  ts : Millis
  durationMs : Millis
  aiCaption : String
  timeline : List (Option String × Option String × String)
  clipUrl : String
  operatorCallsign : String
  operatorNotes : String
  dispositionCode : String
  dispositionLabel : String
  deriving DecidableEq

/-- `COALESCE(NULLIF(a,''), NULLIF(b,''), …)`. -/
def firstNonEmpty (texts : List String) (default : String) : String :=
  (texts.find? (· ≠ "")).getD default

/-- `cameras c ON c.id::text = camera_id`: any tenant's camera of that text. -/
def cameraNamed (store : Store) (cameraId : String) : Option Camera :=
  store.cameras.rows.find? fun camera => camera.id.text = cameraId

/-! ## Queries -/

/-- `ORDER BY … DESC` over a key. -/
def newestFirst (key : SecurityEvent → Millis) (events : List SecurityEvent) : List SecurityEvent :=
  events.insertionSort fun first second => key second ≤ key first

/-- `ListSecurityEvents` without a `viewedOnly` filter. -/
def listSecurityEvents (store : Store) (siteId : String) : List SecurityEvent :=
  newestFirst SecurityEvent.resolvedAt
    (store.events.rows.filter fun event => siteId = "" ∨ event.siteId = siteId)

/-- The events that `ListIncidents` selects. -/
def incidentEvents (store : Store) (siteId severity : String) (limit : Nat) : List SecurityEvent :=
  (newestFirst SecurityEvent.ts (store.events.rows.filter fun event =>
    (siteId = "" ∨ event.siteId = siteId) ∧ (severity = "" ∨ event.severity = severity))).take limit

/-- One row of `ListIncidents`, with its joins. -/
def summarize (store : Store) (event : SecurityEvent) : IncidentSummary where
  id := event.id
  severity := firstNonEmpty [event.severity] "medium"
  status := "resolved"
  title := firstNonEmpty [event.description, event.dispositionLabel, event.type] "Security Event"
  siteId := event.siteId
  siteName := ((store.sites.find? event.siteId).map Site.name).getD event.siteId
  cameraId := event.cameraId
  ts := event.ts
  resolvedAt := event.resolvedAt
  workersIdentified := 0
  type := firstNonEmpty [event.type, event.dispositionCode] ""
  escalationLevel := event.escalationDepth
  dispositionCode := event.dispositionCode
  dispositionLabel := event.dispositionLabel
  operatorCallsign := event.operatorCallsign
  cameraName := ((cameraNamed store event.cameraId).map Camera.name).getD ""

/-- `ListIncidents` with a positive limit. -/
def listIncidents (store : Store) (siteId severity : String) (limit : Nat) : List IncidentSummary :=
  (incidentEvents store siteId severity limit).map (summarize store)

/-- `GetIncidentWithAlarms`. -/
def getIncidentWithAlarms (store : Store) (id : String) : Option (Incident × List ActiveAlarm) :=
  (store.incidents.find? id).map fun incident =>
    (incident, (store.alarms.rows.filter fun alarm => alarm.incidentId = id).insertionSort
      fun first second => first.ts ≤ second.ts)

/-- The row part of `GetSecurityEventByID`. -/
def detail (store : Store) (event : SecurityEvent) : IncidentDetail where
  id := event.id
  severity := event.severity
  status := "resolved"
  title := firstNonEmpty [event.description, event.dispositionLabel, event.type] "Security Event"
  siteId := event.siteId
  siteName := ((store.sites.find? event.siteId).map Site.name).getD ""
  cameraId := event.cameraId
  cameraName :=
    if event.cameraId = "" then "" else ((cameraNamed store event.cameraId).map Camera.name).getD ""
  ts := event.ts
  durationMs := event.resolvedAt - event.ts
  aiCaption := event.description
  timeline := event.actionLog.map fun entry => (entry.lookup "ts", entry.lookup "text", "action")
  clipUrl := event.clipUrl
  operatorCallsign := event.operatorCallsign
  operatorNotes := event.operatorNotes
  dispositionCode := event.dispositionCode
  dispositionLabel := event.dispositionLabel

/-! ## Handlers -/

/-- `strconv.Atoi`: an optional sign and decimal digits within 64 bits. -/
def atoi (text : String) : Option Int :=
  let (sign, digits) := match text.toList with
    | '-' :: rest => ((-1 : Int), rest)
    | '+' :: rest => (1, rest)
    | rest => (1, rest)
  if digits ≠ [] ∧ digits.all Char.isDigit then
    let value := sign * (Nat.ofDigitChars 10 digits 0 : Int)
    if -9223372036854775808 ≤ value ∧ value ≤ 9223372036854775807 then some value else none
  else none

/-- `strconv.Atoi` reads digits back. -/
theorem atoi_toDigits {n : Nat} (bound : n ≤ 9223372036854775807) :
    atoi (String.ofList (Nat.toDigits 10 n)) = some (n : Int) := by
  have digits : ∀ c ∈ Nat.toDigits 10 n, c.isDigit = true := fun _ member =>
    Nat.isDigit_of_mem_toDigits (by decide) (by decide) member
  have value : (1 : Int) * ((Nat.ofDigitChars 10 (Nat.toDigits 10 n) 0 : Nat) : Int) = n := by
    rw [Nat.ofDigitChars_ten_toDigits, Int.one_mul]
  unfold atoi
  rw [String.toList_ofList]
  dsimp only
  split
  · rename_i rest signed
    exact absurd (digits '-' (signed ▸ List.mem_cons_self)) (by decide)
  · rename_i rest signed
    exact absurd (digits '+' (signed ▸ List.mem_cons_self)) (by decide)
  · rw [if_pos ⟨Nat.toDigits_ne_nil, List.all_eq_true.mpr digits⟩, value, if_pos (by omega)]

/-- The `limit` query parameter; anything but a positive number means 50. -/
def limitOf (text : String) : Nat :=
  match atoi text with
  | some n => if 0 < n then n.toNat else 50
  | none => 50

/-- The order in which a Go map of site ids is walked. -/
structure MapOrder where
  arrange : List String → List String
  perm : ∀ ids, (arrange ids).Perm ids

inductive Request where
  | listSecurityEvents (siteId : String)
  | listIncidents (siteId severity limit : String)
  | getIncident (id : String)
  deriving DecidableEq

inductive Response where
  | events (rows : List SecurityEvent)
  | incidents (rows : List IncidentSummary)
  | incident (row : Incident) (alarms : List ActiveAlarm)
  | detail (row : IncidentDetail)
  | notFound
  deriving DecidableEq

/-- The sites `ListSitesScoped` gives the caller. -/
def visibleSites (store : Store) (caller : RestrictedCaller) : List Site :=
  listSitesScoped store.toDirectory (callerScope store.toDirectory (some caller.toClaims))

/-- `allowedIDs`. -/
def visibleIds (store : Store) (caller : RestrictedCaller) : List String :=
  (visibleSites store caller).map Site.id

/-- `HandleListIncidents`. -/
def handleListIncidents (order : MapOrder) (store : Store) (caller : RestrictedCaller)
    (siteId severity limit : String) : Response :=
  let allowedIds := visibleIds store caller
  if siteId ≠ "" then
    if siteId ∉ allowedIds then .incidents []
    else .incidents (listIncidents store siteId severity (limitOf limit))
  else if allowedIds = [] then .incidents []
  else .incidents ((order.arrange allowedIds).flatMap fun site =>
    listIncidents store site severity (limitOf limit))

/-- `ok, _ := canAccessSiteByID(…)`. -/
def admits (store : Store) (caller : RestrictedCaller) (siteId : String) : Bool :=
  match canAccessSiteByID store.toDirectory (some caller.toClaims) siteId with
  | .ok answer => answer
  | .error _ => false

/-- `strings.HasPrefix(id, "INC-")`. -/
def isIncidentId (id : String) : Bool := "INC-".toList.isPrefixOf id.toList

/-- `HandleGetIncident`. -/
def handleGetIncident (store : Store) (caller : RestrictedCaller) (id : String) : Response :=
  if isIncidentId id then
    match getIncidentWithAlarms store id with
    | none => .notFound
    | some (incident, alarms) =>
      if admits store caller incident.siteId then .incident incident alarms else .notFound
  else match store.events.find? id with
    | none => .notFound
    | some event =>
      if event.siteId = "" ∨ admits store caller event.siteId then .detail (detail store event) else .notFound

/-- The response of each endpoint to a restricted caller. -/
def respond (order : MapOrder) (store : Store) (caller : RestrictedCaller) : Request → Response
  | .listSecurityEvents siteId => .events (listSecurityEvents store siteId)
  | .listIncidents siteId severity limit => handleListIncidents order store caller siteId severity limit
  | .getIncident id => handleGetIncident store caller id

end Ironsight.EventReads
