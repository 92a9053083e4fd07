import Mathlib.Data.List.Sort
import Ironsight.Codes
import Ironsight.Runs
import Ironsight.Soc

/-! The alarm pipeline. Every camera event that passes the cooldown starts a
goroutine that looks for an open incident at the camera's site, creates or
extends one, and inserts an alarm below it. No statement of it runs in a
transaction, so any number of goroutines and acknowledgements interleave
between any two statements. -/
namespace Ironsight.AlarmPipeline
open Tables Runs Uuid Access Soc

/-- What the goroutine reads of `details["score"]`: whether it is positive,
whether it is below 0.6, and its percentage without decimals. -/
structure Confidence where
  positive : Bool := false
  low : Bool := false
  percent : String := ""
  deriving DecidableEq

/-- An event as the camera's subscription delivers it. -/
structure Event where
  cameraId : UUID
  eventType : String
  score : Confidence := {}
  objType : String := ""
  ruleName : String := ""
  deriving DecidableEq

/-- What a goroutine knows once it has read its camera and the clock. -/
structure Draft where
  event : Event
  cameraName : String
  siteId : String
  siteName : String
  now : Nat
  clipUrl : String
  deriving DecidableEq

/-- Where an event's goroutine or an acknowledgement stands: the statement it is
about to perform, with its locals, or how it ended. -/
inductive Thread where
  | callback (event : Event)
  | dropped
  | getCamera (event : Event)
  | unassigned
  | findIncident (draft : Draft)
  | nextIncidentID (draft : Draft)
  | insertIncident (draft : Draft) (id : String)
  | attachAlarm (draft : Draft) (incidentId : String)
  | nextAlarmCode (draft : Draft) (incidentId : String) (isNew : Bool)
  | insertAlarm (draft : Draft) (incidentId : String) (isNew : Bool) (code : String)
  | deleteIncident (incidentId : String)
  | lost
  | raised (draft : Draft) (incidentId : String)
  | ackIncident (incidentId : String)
  | ackAlarms (incidentId : String)
  | replied (status : Nat)
  deriving DecidableEq

/-- The tables and the cooldown map of the event callback. -/
structure World extends Store where
  alarmLastFired : List (String × Nat)
  deriving DecidableEq

inductive Request where
  | event (event : Event)
  | acknowledge (incidentId : String)
  deriving DecidableEq

/-- The clock in nanoseconds, the clip found on disk, whether the statement fails, and
the order in which it meets the incidents. -/
structure Env where
  now : Nat
  clip : String := ""
  fails : Bool := false
  scan : Scan Incident := .inOrder

/-- `UnixMilli`. -/
def Env.millis (env : Env) : Nat := env.now / 1000000

/-! ## The event callback -/

def alarmTypes : List String :=
  ["intrusion", "linecross", "human", "vehicle", "face", "loitering", "lpr", "object"]

def motionTopics : List String :=
  ["linecross", "object", "intrusion", "loitering", "human", "vehicle", "motion"]

/-- The bucket of the cooldown. -/
def cooldownKey (event : Event) : String :=
  event.cameraId.text ++ ":" ++ if motionTopics.contains event.eventType then "motion" else event.eventType

/-- `allowAlarm`, one critical section. -/
def allowAlarm (world : World) (env : Env) (event : Event) : Option World :=
  if (world.alarmLastFired.lookup (cooldownKey event)).any fun last => env.now - last < 60000000000 then none
  else some { world with alarmLastFired := (cooldownKey event, env.now) :: world.alarmLastFired }

def runCallback (env : Env) (event : Event) (world : World) : Thread × World :=
  if alarmTypes.contains event.eventType then
    match allowAlarm world env event with
    | some after => (.getCamera event, after)
    | none => (.dropped, world)
  else (.dropped, world)

/-! ## The draft -/

/-- The severity that the goroutine gives an alarm of the event. -/
def severity (event : Event) : Severity :=
  if event.score.positive ∧ event.score.low then .medium
  else if ["intrusion", "human", "face"].contains event.eventType then .critical
  else if ["vehicle", "linecross", "loitering", "lpr"].contains event.eventType then .high
  else .medium

/-- `fmt.Sprintf("alarm-%s-%d", cameraID.String()[:8], now)`. -/
def alarmID (cameraId : UUID) (now : Nat) : String := "alarm-" ++ cameraId.prefix8 ++ "-" ++ toString now

def Draft.alarmId (draft : Draft) : String := alarmID draft.event.cameraId draft.now

/-- The text of the alarm. -/
def Draft.description (draft : Draft) : String :=
  let event := draft.event
  event.eventType ++ (if event.objType = "" then "" else " " ++ event.objType) ++ " detected on " ++
    draft.cameraName ++ " at " ++ draft.siteName ++ (if event.ruleName = "" then "" else " — " ++ event.ruleName) ++
      if event.score.positive then " (" ++ event.score.percent ++ "% confidence)" else ""

/-- `GetCameraWithSite`, deleted cameras and sites included. -/
def getCameraWithSite (db : Directory) (id : UUID) : Option (String × String × String) :=
  (db.cameras.find? id).map fun camera =>
    let siteId := camera.siteId.getD ""
    (camera.name, siteId, ((camera.siteId.bind db.sites.find?).map Site.name).getD "")

def runGetCamera (env : Env) (event : Event) (world : World) : Thread :=
  if env.fails then .unassigned
  else match getCameraWithSite world.toDirectory event.cameraId with
    | none => .unassigned
    | some (cameraName, siteId, siteName) =>
      if siteId = "" then .unassigned
      else .findIncident {
        event := event
        cameraName := cameraName
        siteId := siteId
        siteName := siteName
        now := env.millis
        clipUrl := if env.clip = "" then "" else "/recordings/" ++ env.clip }

/-! ## Incidents -/

/-- `IncidentCorrelationWindow`. -/
def incidentCorrelationWindow : Int := 5 * 60 * 1000

/-- `FindOpenIncident`: of incidents with the same last alarm the one that is met first. -/
def findOpenIncident (scan : Scan Incident) (incidents : Table Incident.id) (siteId : String) (now : Nat) : Option Incident :=
  newest Incident.lastAlarmTs (scan.arrange (incidents.rows.filter fun incident => incident.siteId = siteId ∧
    incident.status = .active ∧ (now : Int) - incidentCorrelationWindow ≤ incident.lastAlarmTs))

/-- A failed lookup counts as no incident. -/
def runFindIncident (env : Env) (draft : Draft) (world : World) : Thread :=
  if env.fails then .nextIncidentID draft
  else match findOpenIncident env.scan world.incidents draft.siteId draft.now with
    | none => .nextIncidentID draft
    | some incident => .attachAlarm draft incident.id

/-- `NextIncidentID`. -/
def nextIncidentID (incidents : Table Incident.id) (now : Nat) : Option String :=
  let pre := "INC-" ++ toString (Codes.dateOf now).1 ++ "-"
  (Codes.nextSeq pre (incidents.rows.map Incident.id)).map (Codes.code pre)

def runNextIncidentID (env : Env) (draft : Draft) (world : World) : Thread :=
  if env.fails then .lost
  else match nextIncidentID world.incidents env.millis with
    | none => .lost
    | some id => .insertIncident draft id

/-- `slaDeadlineMs` of the goroutine. -/
def Draft.slaDeadlineMs (draft : Draft) : Int := draft.now + 90000

/-- The incident that a goroutine opens. -/
def Draft.incident (draft : Draft) (id : String) : Incident where
  id := id
  siteId := draft.siteId
  siteName := draft.siteName
  severity := severity draft.event
  status := .active
  alarmCount := 1
  cameraIds := [draft.event.cameraId.text]
  cameraNames := [draft.cameraName]
  types := [draft.event.eventType]
  latestType := draft.event.eventType
  description := draft.description
  clipUrl := draft.clipUrl
  firstAlarmTs := draft.now
  lastAlarmTs := draft.now
  slaDeadlineMs := draft.slaDeadlineMs

/-- The insert of `CreateIncident`; there is no second try. -/
def runInsertIncident (env : Env) (draft : Draft) (id : String) (world : World) : Thread × World :=
  if env.fails then (.lost, world)
  else match world.incidents.insert? (draft.incident id) with
    | none => (.lost, world)
    | some incidents => (.nextAlarmCode draft id true, { world with incidents := incidents })

def appendNew (entry : String) (entries : List String) : List String :=
  if entries.contains entry then entries else entries ++ [entry]

/-- The `CASE` of `AttachAlarmToIncident`. -/
def raisedSeverity (new old : Severity) : Severity :=
  match new, old with
  | .critical, _ => .critical
  | .high, .critical => .critical
  | .high, _ => .high
  | .medium, .low | .medium, .medium => .medium
  | .medium, _ | .low, _ => old

/-- The `SET` list of `AttachAlarmToIncident`. -/
def Draft.attached (draft : Draft) (incident : Incident) : Incident :=
  { incident with
    alarmCount := incident.alarmCount + 1
    cameraIds := appendNew draft.event.cameraId.text incident.cameraIds
    cameraNames := appendNew draft.cameraName incident.cameraNames
    types := appendNew draft.event.eventType incident.types
    latestType := draft.event.eventType
    description := draft.description
    severity := raisedSeverity (severity draft.event) incident.severity
    clipUrl := if draft.clipUrl = "" then incident.clipUrl else draft.clipUrl
    lastAlarmTs := draft.now
    slaDeadlineMs := draft.slaDeadlineMs }

@[simp] theorem Draft.attached_id (draft : Draft) (incident : Incident) :
    (draft.attached incident).id = incident.id := rfl

/-- `AttachAlarmToIncident`. -/
def attachAlarmToIncident (incidents : Table Incident.id) (draft : Draft) (id : String) : Table Incident.id :=
  incidents.modify (fun incident => incident.id = id) draft.attached draft.attached_id

/-- The error of the update is dropped. -/
def runAttachAlarm (env : Env) (draft : Draft) (id : String) (world : World) : Thread × World :=
  (.nextAlarmCode draft id false,
    if env.fails then world else { world with incidents := attachAlarmToIncident world.incidents draft id })

/-! ## Alarms -/

/-- `NextAlarmCode`. -/
def nextAlarmCode (alarms : Table ActiveAlarm.id) (now : Nat) : Option String :=
  let pre := "ALM-" ++ Codes.yymmdd now ++ "-"
  (Codes.nextSeq pre (alarms.rows.map ActiveAlarm.alarmCode)).map (Codes.code pre)

/-- After a failed `CreateActiveAlarm` only the creator of an incident cleans up. -/
def afterFailure (incidentId : String) (isNew : Bool) : Thread :=
  if isNew ∧ incidentId ≠ "" then .deleteIncident incidentId else .lost

def runNextAlarmCode (env : Env) (draft : Draft) (incidentId : String) (isNew : Bool) (world : World) : Thread :=
  if env.fails then afterFailure incidentId isNew
  else match nextAlarmCode world.alarms env.millis with
    | none => afterFailure incidentId isNew
    | some code => .insertAlarm draft incidentId isNew code

/-- The alarm that a goroutine raises. -/
def Draft.alarm (draft : Draft) (incidentId code : String) : ActiveAlarm where
  id := draft.alarmId
  alarmCode := code
  incidentId := incidentId
  siteId := draft.siteId
  siteName := draft.siteName
  cameraId := draft.event.cameraId.text
  cameraName := draft.cameraName
  severity := severity draft.event
  type := draft.event.eventType
  description := draft.description
  clipUrl := draft.clipUrl
  ts := draft.now
  slaDeadlineMs := draft.slaDeadlineMs

/-- The insert of `CreateActiveAlarm`: a taken id inserts nothing, a taken code
or a missing incident is an error. -/
def createActiveAlarm (db : Store) (alarm : ActiveAlarm) : Option (Table ActiveAlarm.id) :=
  if (∀ other ∈ db.alarms, other.alarmCode ≠ alarm.alarmCode) ∧
      ∃ incident ∈ db.incidents, incident.id = alarm.incidentId then
    db.alarms.insert? alarm
  else none

def runInsertAlarm (env : Env) (draft : Draft) (incidentId : String) (isNew : Bool) (code : String) (world : World) :
    Thread × World :=
  if env.fails then (afterFailure incidentId isNew, world)
  else match createActiveAlarm world.toStore (draft.alarm incidentId code) with
    | none => (afterFailure incidentId isNew, world)
    | some alarms => (.raised draft incidentId, { world with alarms := alarms })

/-- `WHERE id AND alarm_count = 1`. -/
def orphan (id : String) (incident : Incident) : Bool := incident.id = id ∧ incident.alarmCount = 1

/-- The compensating `DELETE FROM incidents`. The foreign key sets the alarms'
incident to the empty default, which fails unless such an incident exists. -/
def deleteOrphan (db : Store) (id : String) : Table Incident.id × Table ActiveAlarm.id :=
  if ∃ incident ∈ db.incidents, orphan id incident then
    if ∃ alarm ∈ db.alarms, alarm.incidentId = id then
      if id ≠ "" ∧ ∃ incident ∈ db.incidents, incident.id = "" then
        (db.incidents.remove (orphan id), db.alarms.modify (fun alarm => alarm.incidentId = id)
          (fun alarm => { alarm with incidentId := "" }) fun _ => rfl)
      else (db.incidents, db.alarms)
    else (db.incidents.remove (orphan id), db.alarms)
  else (db.incidents, db.alarms)

def runDeleteIncident (env : Env) (id : String) (world : World) : Thread × World :=
  (.lost, if env.fails then world else
    let after := deleteOrphan world.toStore id
    { world with incidents := after.1, alarms := after.2 })

/-! ## Acknowledgement -/

/-- The first update of `AcknowledgeIncident`. -/
def acknowledgeIncident (incidents : Table Incident.id) (id : String) : Table Incident.id :=
  incidents.modify (fun incident => incident.id = id) (fun incident => { incident with status := .acknowledged })
    fun _ => rfl

/-- The second update of `AcknowledgeIncident`. -/
def acknowledgeAlarms (alarms : Table ActiveAlarm.id) (incidentId : String) : Table ActiveAlarm.id :=
  alarms.modify (fun alarm => alarm.incidentId = incidentId) (fun alarm => { alarm with acknowledged := true })
    fun _ => rfl

def runAckIncident (env : Env) (id : String) (world : World) : Thread × World :=
  if env.fails then (.replied 500, world)
  else (.ackAlarms id, { world with incidents := acknowledgeIncident world.incidents id })

def runAckAlarms (env : Env) (id : String) (world : World) : Thread × World :=
  if env.fails then (.replied 500, world)
  else (.replied 200, { world with alarms := acknowledgeAlarms world.alarms id })

/-! ## Interleavings -/

/-- One statement of one thread. -/
def next (env : Env) (thread : Thread) (world : World) : Thread × World :=
  match thread with
  | .callback event => runCallback env event world
  | .getCamera event => (runGetCamera env event world, world)
  | .findIncident draft => (runFindIncident env draft world, world)
  | .nextIncidentID draft => (runNextIncidentID env draft world, world)
  | .insertIncident draft id => runInsertIncident env draft id world
  | .attachAlarm draft incidentId => runAttachAlarm env draft incidentId world
  | .nextAlarmCode draft incidentId isNew => (runNextAlarmCode env draft incidentId isNew world, world)
  | .insertAlarm draft incidentId isNew code => runInsertAlarm env draft incidentId isNew code world
  | .deleteIncident incidentId => runDeleteIncident env incidentId world
  | .ackIncident incidentId => runAckIncident env incidentId world
  | .ackAlarms incidentId => runAckAlarms env incidentId world
  | .dropped | .unassigned | .lost | .raised _ _ | .replied _ => (thread, world)

/-- Goroutines that take one database statement at a time, in any order among each other. -/
def pipeline : Program World Thread Request Env where
  start
    | .event event => .callback event
    | .acknowledge incidentId => .ackIncident incidentId
  next := next

abbrev Pipeline := Pool World Thread

/-- The thread has nothing left to do. -/
def Thread.finished : Thread → Bool
  | .dropped | .unassigned | .lost | .raised _ _ | .replied _ => true
  | _ => false

/-! ## What one statement does -/

/-- The event's camera is assigned to a site. -/
def Assigned (world : World) (event : Event) : Prop :=
  ∃ camera ∈ world.cameras, camera.id = event.cameraId ∧ ∃ site ∈ camera.siteId, site ≠ ""

theorem mem_attachAlarmToIncident {incidents : Table Incident.id} {draft : Draft} {id : String} {incident : Incident} :
    incident ∈ attachAlarmToIncident incidents draft id ↔
      ∃ old ∈ incidents, incident = if old.id = id then draft.attached old else old := by
  simp [attachAlarmToIncident, Table.mem_modify]

theorem mem_acknowledgeIncident {incidents : Table Incident.id} {id : String} {incident : Incident} :
    incident ∈ acknowledgeIncident incidents id ↔
      ∃ old ∈ incidents, incident = if old.id = id then { old with status := .acknowledged } else old := by
  simp [acknowledgeIncident, Table.mem_modify]

theorem mem_acknowledgeAlarms {alarms : Table ActiveAlarm.id} {id : String} {alarm : ActiveAlarm} :
    alarm ∈ acknowledgeAlarms alarms id ↔
      ∃ old ∈ alarms, alarm = if old.incidentId = id then { old with acknowledged := true } else old := by
  simp [acknowledgeAlarms, Table.mem_modify]

theorem createActiveAlarm_some {db : Store} {alarm : ActiveAlarm} {alarms : Table ActiveAlarm.id} :
    createActiveAlarm db alarm = some alarms ↔ (∀ other ∈ db.alarms, other.alarmCode ≠ alarm.alarmCode) ∧
      (∃ incident ∈ db.incidents, incident.id = alarm.incidentId) ∧ db.alarms.insert? alarm = some alarms := by
  unfold createActiveAlarm
  split
  · rename_i permitted
    exact ⟨fun done => ⟨permitted.1, permitted.2, done⟩, fun facts => facts.2.2⟩
  · rename_i refused
    simp only [reduceCtorEq, false_iff]
    exact fun facts => refused ⟨facts.1, facts.2.1⟩

/-- Every outcome of a statement, with what it takes: the thread and the world
before and after. -/
inductive Outcome (env : Env) : Thread → World → Thread → World → Prop where
  | ignored {event world} : Outcome env (.callback event) world .dropped world
  | fired {event world} (times : List (String × Nat)) :
      Outcome env (.callback event) world (.getCamera event) { world with alarmLastFired := times }
  | unassigned {event world} (why : env.fails = true ∨ ¬ Assigned world event) :
      Outcome env (.getCamera event) world .unassigned world
  | drafted {world} (draft : Draft) (assigned : Assigned world draft.event) (now : draft.now = env.millis) :
      Outcome env (.getCamera draft.event) world (.findIncident draft) world
  | noIncident {draft world}
      (why : env.fails = true ∨ findOpenIncident env.scan world.incidents draft.siteId draft.now = none) :
      Outcome env (.findIncident draft) world (.nextIncidentID draft) world
  | openIncident {draft world} (incident : Incident) (held : incident ∈ world.incidents)
      (found : findOpenIncident env.scan world.incidents draft.siteId draft.now = some incident) :
      Outcome env (.findIncident draft) world (.attachAlarm draft incident.id) world
  | noIncidentID {draft world} (why : env.fails = true ∨ nextIncidentID world.incidents env.millis = none) :
      Outcome env (.nextIncidentID draft) world .lost world
  | incidentID {draft world} (id : String) (read : nextIncidentID world.incidents env.millis = some id) :
      Outcome env (.nextIncidentID draft) world (.insertIncident draft id) world
  | incidentRefused {draft id world} (why : env.fails = true ∨ world.incidents.insert? (draft.incident id) = none) :
      Outcome env (.insertIncident draft id) world .lost world
  | incidentOpened {draft id world} (incidents : Table Incident.id)
      (done : world.incidents.insert? (draft.incident id) = some incidents) :
      Outcome env (.insertIncident draft id) world (.nextAlarmCode draft id true) { world with incidents := incidents }
  | attachFailed {draft id world} (failed : env.fails = true) :
      Outcome env (.attachAlarm draft id) world (.nextAlarmCode draft id false) world
  | attached {draft id world} : Outcome env (.attachAlarm draft id) world (.nextAlarmCode draft id false)
      { world with incidents := attachAlarmToIncident world.incidents draft id }
  | noAlarmCode {draft id isNew world} (why : env.fails = true ∨ nextAlarmCode world.alarms env.millis = none) :
      Outcome env (.nextAlarmCode draft id isNew) world (afterFailure id isNew) world
  | alarmCode {draft id isNew world} (code : String) (read : nextAlarmCode world.alarms env.millis = some code) :
      Outcome env (.nextAlarmCode draft id isNew) world (.insertAlarm draft id isNew code) world
  | alarmRefused {draft id isNew code world}
      (why : env.fails = true ∨ createActiveAlarm world.toStore (draft.alarm id code) = none) :
      Outcome env (.insertAlarm draft id isNew code) world (afterFailure id isNew) world
  | alarmRaised {draft id isNew code world} (alarms : Table ActiveAlarm.id) (sound : env.fails = false)
      (done : createActiveAlarm world.toStore (draft.alarm id code) = some alarms) :
      Outcome env (.insertAlarm draft id isNew code) world (.raised draft id) { world with alarms := alarms }
  | deleteFailed {id world} (failed : env.fails = true) : Outcome env (.deleteIncident id) world .lost world
  | deleted {id world} : Outcome env (.deleteIncident id) world .lost
      { world with incidents := (deleteOrphan world.toStore id).1, alarms := (deleteOrphan world.toStore id).2 }
  | ackFailed {id world} : Outcome env (.ackIncident id) world (.replied 500) world
  | ackedIncident {id world} : Outcome env (.ackIncident id) world (.ackAlarms id)
      { world with incidents := acknowledgeIncident world.incidents id }
  | ackAlarmsFailed {id world} (failed : env.fails = true) : Outcome env (.ackAlarms id) world (.replied 500) world
  | ackedAlarms {id world} : Outcome env (.ackAlarms id) world (.replied 200)
      { world with alarms := acknowledgeAlarms world.alarms id }
  | idle {thread world} (finished : thread.finished = true) : Outcome env thread world thread world

private theorem runCallback_outcome (env : Env) (event : Event) (world : World) :
    Outcome env (.callback event) world (runCallback env event world).1 (runCallback env event world).2 := by
  unfold runCallback allowAlarm
  split
  · by_cases recent : ((world.alarmLastFired.lookup (cooldownKey event)).any fun last =>
        env.now - last < 60000000000) = true
    · rw [if_pos recent]
      exact .ignored
    · rw [if_neg recent]
      exact .fired _
  · exact .ignored

private theorem runGetCamera_outcome (env : Env) (event : Event) (world : World) :
    Outcome env (.getCamera event) world (runGetCamera env event world) world := by
  unfold runGetCamera getCameraWithSite
  cases failed : env.fails with
  | true => exact .unassigned (.inl failed)
  | false =>
    simp only [Bool.false_eq_true, if_false]
    cases found : world.cameras.find? event.cameraId with
    | none =>
      refine .unassigned (.inr ?_)
      rintro ⟨camera, held, same, _⟩
      exact Table.find?_eq_none.mp found camera held same
    | some camera =>
      obtain ⟨held, same⟩ := Table.find?_eq_some.mp found
      simp only [Option.map_some]
      by_cases bare : camera.siteId.getD "" = ""
      · rw [if_pos bare]
        refine .unassigned (.inr ?_)
        rintro ⟨other, member, sameId, site, given, named⟩
        rw [Table.key_inj member held (sameId.trans same.symm), Option.mem_def] at given
        rw [given] at bare
        exact named bare
      · rw [if_neg bare]
        have assigned : Assigned world event := by
          cases placed : camera.siteId with
          | none => simp [placed] at bare
          | some site => exact ⟨camera, held, same, site, placed, by simpa [placed] using bare⟩
        exact .drafted ⟨event, _, _, _, _, _⟩ assigned rfl

/-- What the lookup finds is recent, open and at the site, and no such incident has a later alarm. -/
theorem findOpenIncident_some {scan : Scan Incident} {incidents : Table Incident.id} {siteId : String} {now : Nat} {incident : Incident}
    (found : findOpenIncident scan incidents siteId now = some incident) :
    (incident ∈ incidents ∧ incident.siteId = siteId ∧ incident.status = .active ∧
      (now : Int) - incidentCorrelationWindow ≤ incident.lastAlarmTs) ∧
      ∀ other ∈ incidents, other.siteId = siteId → other.status = .active → other.lastAlarmTs ≤ incident.lastAlarmTs := by
  obtain ⟨listed, greatest⟩ := newest_some found
  rw [(scan.perm _).mem_iff, List.mem_filter, decide_eq_true_iff] at listed
  refine ⟨listed, fun other held place open_ => ?_⟩
  by_cases recent : (now : Int) - incidentCorrelationWindow ≤ other.lastAlarmTs
  · exact greatest other ((scan.perm _).mem_iff.mpr (List.mem_filter.mpr ⟨held, decide_eq_true ⟨place, open_, recent⟩⟩))
  · exact (not_le.mp recent).le.trans listed.2.2.2

theorem findOpenIncident_none {scan : Scan Incident} {incidents : Table Incident.id} {siteId : String} {now : Nat}
    (found : findOpenIncident scan incidents siteId now = none) : ∀ incident ∈ incidents, incident.siteId = siteId →
      incident.status = .active → ¬ (now : Int) - incidentCorrelationWindow ≤ incident.lastAlarmTs := by
  intro incident held place open_ recent
  have empty := (scan.perm _).symm.trans (.of_eq (newest_eq_none.mp found))
  exact List.not_mem_nil (empty.mem_iff.mp (List.mem_filter.mpr ⟨held, decide_eq_true ⟨place, open_, recent⟩⟩))

private theorem runFindIncident_outcome (env : Env) (draft : Draft) (world : World) :
    Outcome env (.findIncident draft) world (runFindIncident env draft world) world := by
  unfold runFindIncident
  split
  · rename_i failed
    exact .noIncident (.inl failed)
  · cases found : findOpenIncident env.scan world.incidents draft.siteId draft.now with
    | none => exact .noIncident (.inr found)
    | some incident => exact .openIncident incident (findOpenIncident_some found).1.1 found

private theorem runNextIncidentID_outcome (env : Env) (draft : Draft) (world : World) :
    Outcome env (.nextIncidentID draft) world (runNextIncidentID env draft world) world := by
  unfold runNextIncidentID
  cases failed : env.fails with
  | true => exact .noIncidentID (.inl failed)
  | false =>
    cases read : nextIncidentID world.incidents env.millis with
    | none => exact .noIncidentID (.inr read)
    | some id => exact .incidentID id read

private theorem runInsertIncident_outcome (env : Env) (draft : Draft) (id : String) (world : World) :
    Outcome env (.insertIncident draft id) world (runInsertIncident env draft id world).1
      (runInsertIncident env draft id world).2 := by
  unfold runInsertIncident
  cases failed : env.fails with
  | true => exact .incidentRefused (.inl failed)
  | false =>
    cases done : world.incidents.insert? (draft.incident id) with
    | none => exact .incidentRefused (.inr done)
    | some incidents => exact .incidentOpened incidents done

private theorem runNextAlarmCode_outcome (env : Env) (draft : Draft) (id : String) (isNew : Bool) (world : World) :
    Outcome env (.nextAlarmCode draft id isNew) world (runNextAlarmCode env draft id isNew world) world := by
  unfold runNextAlarmCode
  cases failed : env.fails with
  | true => exact .noAlarmCode (.inl failed)
  | false =>
    cases read : nextAlarmCode world.alarms env.millis with
    | none => exact .noAlarmCode (.inr read)
    | some code => exact .alarmCode code read

private theorem runInsertAlarm_outcome (env : Env) (draft : Draft) (id : String) (isNew : Bool) (code : String)
    (world : World) : Outcome env (.insertAlarm draft id isNew code) world
      (runInsertAlarm env draft id isNew code world).1 (runInsertAlarm env draft id isNew code world).2 := by
  unfold runInsertAlarm
  cases failed : env.fails with
  | true => exact .alarmRefused (.inl failed)
  | false =>
    cases done : createActiveAlarm world.toStore (draft.alarm id code) with
    | none => exact .alarmRefused (.inr done)
    | some alarms => exact .alarmRaised alarms failed done

/-- Every statement has one of the outcomes. -/
theorem next_outcome (env : Env) (thread : Thread) (world : World) :
    Outcome env thread world (next env thread world).1 (next env thread world).2 := by
  cases thread with
  | callback event => exact runCallback_outcome env event world
  | getCamera event => exact runGetCamera_outcome env event world
  | findIncident draft => exact runFindIncident_outcome env draft world
  | nextIncidentID draft => exact runNextIncidentID_outcome env draft world
  | insertIncident draft id => exact runInsertIncident_outcome env draft id world
  | attachAlarm draft id =>
    cases failed : env.fails with
    | true => simpa [next, runAttachAlarm, failed] using Outcome.attachFailed failed
    | false => simpa [next, runAttachAlarm, failed] using Outcome.attached
  | nextAlarmCode draft id isNew => exact runNextAlarmCode_outcome env draft id isNew world
  | insertAlarm draft id isNew code => exact runInsertAlarm_outcome env draft id isNew code world
  | deleteIncident id =>
    cases failed : env.fails with
    | true => simpa [next, runDeleteIncident, failed] using Outcome.deleteFailed failed
    | false => simpa [next, runDeleteIncident, failed] using Outcome.deleted
  | ackIncident id =>
    cases failed : env.fails with
    | true => simpa [next, runAckIncident, failed] using Outcome.ackFailed
    | false => simpa [next, runAckIncident, failed] using Outcome.ackedIncident
  | ackAlarms id =>
    cases failed : env.fails with
    | true => simpa [next, runAckAlarms, failed] using Outcome.ackAlarmsFailed failed
    | false => simpa [next, runAckAlarms, failed] using Outcome.ackedAlarms
  | dropped | unassigned | lost => exact .idle rfl
  | raised draft id => exact .idle rfl
  | replied status => exact .idle rfl

theorem nextIncidentID_fresh {incidents : Table Incident.id} {now : Nat} {id : String}
    (read : nextIncidentID incidents now = some id) : ∀ incident ∈ incidents, incident.id ≠ id := by
  obtain ⟨number, allocated, rfl⟩ := Option.map_eq_some_iff.mp read
  intro incident held same
  exact Codes.nextSeq_fresh allocated (List.mem_map.mpr ⟨incident, held, same⟩)

theorem nextIncidentID_ne_empty {incidents : Table Incident.id} {now : Nat} {id : String}
    (read : nextIncidentID incidents now = some id) : id ≠ "" := by
  obtain ⟨number, _, rfl⟩ := Option.map_eq_some_iff.mp read
  exact Codes.code_ne_empty _ number

theorem nextAlarmCode_fresh {alarms : Table ActiveAlarm.id} {now : Nat} {code : String}
    (read : nextAlarmCode alarms now = some code) : ∀ alarm ∈ alarms, alarm.alarmCode ≠ code := by
  obtain ⟨number, allocated, rfl⟩ := Option.map_eq_some_iff.mp read
  intro alarm held same
  exact Codes.nextSeq_fresh allocated (List.mem_map.mpr ⟨alarm, held, same⟩)

end Ironsight.AlarmPipeline
