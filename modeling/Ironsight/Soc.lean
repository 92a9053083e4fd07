import Ironsight.Access

/-! The rows of the operations centre: dispositioned security events, incidents
and the live alarm queue, with the validation score that a disposition carries.
Columns that hold JSON keep its text; nothing here looks inside them except the
action log. -/
namespace Ironsight.Soc
open Tables Uuid Access

/-- Milliseconds since the Unix epoch. -/
abbrev Millis := Int

/-- One entry of an action log: keys with the JSON text of their values. -/
abbrev LogEntry := List (String × String)

/-- `avs.Factors`: what the operator attests at disposition time. -/
structure Factors where
  videoVerified : Bool := false
  personDetected : Bool := false
  suspiciousBehavior : Bool := false
  weaponObserved : Bool := false
  activeCrime : Bool := false
  multiCameraEvidence : Bool := false
  multiSensorEvidence : Bool := false
  audioVerified : Bool := false
  talkdownIgnored : Bool := false
  authFailure : Bool := false
  aiCorroborated : Bool := false
  deriving DecidableEq

/-- `avs.Score`. -/
inductive Score where
  | unverified
  | minimal
  | verifiedActivity
  | elevated
  | critical
  deriving DecidableEq

/-- `avs.ComputeScore`. -/
def computeScore (f : Factors) : Score :=
  if !f.videoVerified then .unverified
  else if f.weaponObserved || f.activeCrime then .critical
  else if f.suspiciousBehavior || f.multiCameraEvidence || f.multiSensorEvidence || f.audioVerified ||
      f.talkdownIgnored || f.authFailure then .elevated
  else if f.personDetected then .verifiedActivity
  else .minimal

/-- `avs.RubricVersion`. -/
def rubricVersion : String := "1.0"

/-- A row of `security_events`. -/
structure SecurityEvent where
  id : String
  alarmId : String
  siteId : String
  cameraId : String := ""
  severity : String := "medium"
  type : String := ""
  description : String := ""
  dispositionCode : String := ""
  dispositionLabel : String := ""
  operatorCallsign : String := ""
  operatorNotes : String := ""
  actionLog : List LogEntry := []
  escalationDepth : Int := 0
  clipUrl : String := ""
  ts : Millis := 0
  resolvedAt : Millis := 0
  viewedByCustomer : Bool := false
  disposedByUserId : Option UUID := none
  verifiedByUserId : Option UUID := none
  verifiedByCallsign : String := ""
  verifiedAt : Option Instant := none
  avsFactors : Factors := {}
  avsScore : Score := .unverified
  avsRubricVersion : String := ""
  deriving DecidableEq

/-- The states that `incidents_status_chk` admits. -/
inductive IncidentStatus where
  | active
  | acknowledged
  | resolved
  | closed
  deriving DecidableEq

/-- The severities that `active_alarms_severity_chk` admits. -/
inductive Severity where
  | low
  | medium
  | high
  | critical
  deriving DecidableEq

/-- A row of `incidents`. -/
structure Incident where
  id : String
  siteId : String
  siteName : String := ""
  severity : Severity := .medium
  status : IncidentStatus := .active
  alarmCount : Nat := 1
  cameraIds : List String := []
  cameraNames : List String := []
  types : List String := []
  latestType : String := ""
  description : String := ""
  snapshotUrl : String := ""
  clipUrl : String := ""
  firstAlarmTs : Millis := 0
  lastAlarmTs : Millis := 0
  slaDeadlineMs : Millis := 0
  deriving DecidableEq

/-- A row of `active_alarms`. -/
structure ActiveAlarm where
  id : String
  alarmCode : String
  triggeringEventId : Option Int := none
  incidentId : String
  siteId : String
  siteName : String := ""
  cameraId : String := ""
  cameraName : String := ""
  severity : Severity := .high
  type : String := ""
  description : String := ""
  snapshotUrl : String := ""
  clipUrl : String := ""
  ts : Millis := 0
  slaDeadlineMs : Millis := 0
  acknowledged : Bool := false
  acknowledgedAt : Option Instant := none
  acknowledgedByUserId : Option UUID := none
  acknowledgedByCallsign : String := ""
  claimedBy : String := ""
  escalationLevel : Int := 0
  aiDescription : String := ""
  aiThreatLevel : String := ""
  aiRecommendedAction : String := ""
  aiFalsePositivePct : BitVec 32 := 0
  aiDetections : String := "[]"
  aiPpeViolations : String := "[]"
  aiWasCorrect : Option Bool := none
  deriving DecidableEq

/-- The identity tables together with the operations centre's own. -/
structure Store extends Directory where
  events : Table SecurityEvent.id
  incidents : Table Incident.id
  alarms : Table ActiveAlarm.id
  deriving DecidableEq

/-- `nullableUUID`. -/
def nullableUUID (id : UUID) : Option UUID := if id = .nil then none else some id

/-- `AcknowledgeAlarm`: the first acknowledgement keeps its time and author. -/
def acknowledgeAlarm (alarms : Table ActiveAlarm.id) (id : String) (now : Instant) (user : Option UUID)
    (callsign : String) : Table ActiveAlarm.id :=
  alarms.modify (fun alarm => alarm.id = id) (fun alarm =>
    { alarm with
      acknowledged := true
      acknowledgedAt := alarm.acknowledgedAt.orElse fun _ => some now
      acknowledgedByUserId := alarm.acknowledgedByUserId.orElse fun _ => user
      acknowledgedByCallsign :=
        if alarm.acknowledgedByCallsign = "" then callsign else alarm.acknowledgedByCallsign })
    fun _ => rfl

end Ironsight.Soc
