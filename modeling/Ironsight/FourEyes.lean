import Ironsight.Runs
import Ironsight.Soc

/-! Disposition and dual-operator sign-off of security events. A disposition
request inserts the event and then works on the alarm; a verification request
signs it with one conditional update. Requests interleave between any two of
their statements, and any statement may fail at the database. -/
namespace Ironsight.FourEyes
open Tables Runs Uuid Access Soc

/-- `strings.ToUpper` and `strconv.Quote`, whose Unicode tables are not repeated. -/
structure TextLib where
  toUpper : String → String
  quote : String → String

/-- The JSON fields of `SecurityEventCreate`. The disposing user is not one. -/
structure EventBody where
  alarmId : String := ""
  siteId : String := ""
  cameraId : String := ""
  severity : String := ""
  type : String := ""
  description : String := ""
  dispositionCode : String := ""
  dispositionLabel : String := ""
  operatorCallsign : String := ""
  operatorNotes : String := ""
  actionLog : List LogEntry := []
  escalationDepth : Int := 0
  clipUrl : String := ""
  avsFactors : Factors := {}
  deriving DecidableEq

/-- `SecurityEventCreate`; decoding leaves `disposedByUserId` at its zero value. -/
structure SecurityEventCreate extends EventBody where
  disposedByUserId : UUID := .nil
  deriving DecidableEq

inductive Request where
  | create (claims : Option Claims) (body : Option EventBody)
  | verify (claims : Option Claims) (eventId : String)

/-- What one statement draws from outside: the clock, the local year, the
random event number and a failure of the statement itself. -/
structure Env where
  now : Instant := 0
  year : Nat := 2026
  pick : Fin 9999 := 0
  fault : Option String := none

/-- Where a disposition stands. -/
inductive CreatePc where
  | insertEvent
  | closeAlarm
  | acknowledge
  | readThreat
  | writeCorrect (correct : Bool)
  | done (reply : Reply String)
  deriving DecidableEq

/-- The locals of one `HandleCreateSecurityEvent` call. -/
structure Disposition where
  claims : Option Claims
  input : SecurityEventCreate
  event : Option String
  pc : CreatePc
  deriving DecidableEq

/-- Where a verification stands. -/
inductive VerifyPc where
  | update
  | disambiguate
  | done (reply : Reply String)
  deriving DecidableEq

/-- The locals of one `VerifySecurityEvent` call. -/
structure Verification where
  eventId : String
  verifier : UUID
  callsign : String
  pc : VerifyPc
  deriving DecidableEq

inductive Thread where
  | refused (reply : Reply String)
  | disposing (disposition : Disposition)
  | verifying (verification : Verification)
  deriving DecidableEq

/-- The operator's name in capitals stands in for a missing callsign. -/
def callsignOr (text : TextLib) (claims : Option Claims) (callsign : String) : String :=
  match claims with
  | some claims => if callsign = "" then text.toUpper claims.username else callsign
  | none => callsign

/-- Both handlers up to their first statement. -/
def start (text : TextLib) : Request → Thread
  | .create _ none => .refused (.error 400 "Invalid JSON")
  | .create claims (some body) =>
    .disposing {
      claims := claims
      input := { body with operatorCallsign := callsignOr text claims body.operatorCallsign }
      event := none
      pc := .insertEvent }
  | .verify none _ => .refused (.error 401 "unauthorized")
  | .verify (some claims) eventId =>
    if claims.role ≠ .admin ∧ claims.role ≠ .socSupervisor then
      .refused (.error 403 "supervisor or admin role required")
    else if eventId = "" then .refused (.error 400 "event id required")
    else match parse claims.userId with
      | none => .refused (.error 400 "invalid user id in token")
      | some verifier => .verifying ⟨eventId, verifier, text.toUpper claims.username, .update⟩

/-! ## Disposition -/

/-- `fmt.Sprintf("EVT-%d-%04d", …)`. -/
def eventId (env : Env) : String :=
  let digits := Nat.toDigits 10 env.pick.val
  "EVT-" ++ toString env.year ++ "-" ++ String.ofList (List.replicate (4 - digits.length) '0' ++ digits)

/-- The row that `CreateSecurityEvent` inserts. -/
def newEvent (env : Env) (c : SecurityEventCreate) : SecurityEvent where
  id := eventId env
  alarmId := c.alarmId
  siteId := c.siteId
  cameraId := c.cameraId
  severity := if c.severity = "" then "medium" else c.severity
  type := c.type
  description := c.description
  dispositionCode := c.dispositionCode
  dispositionLabel := c.dispositionLabel
  operatorCallsign := c.operatorCallsign
  operatorNotes := c.operatorNotes
  actionLog := c.actionLog
  escalationDepth := c.escalationDepth
  clipUrl := c.clipUrl
  ts := env.now / 1000000
  resolvedAt := env.now / 1000000
  disposedByUserId := nullableUUID c.disposedByUserId
  avsFactors := c.avsFactors
  avsScore := computeScore c.avsFactors
  avsRubricVersion := rubricVersion

/-- `INSERT INTO security_events`. -/
def insertEvent (env : Env) (c : SecurityEventCreate) (store : Store) : Except String (Table SecurityEvent.id) :=
  match env.fault with
  | some err => .error err
  | none => match store.events.insert? (newEvent env c) with
    | none => .error (uniqueViolation "security_events_pkey")
    | some events =>
      if store.sites.find? c.siteId = none then
        .error (foreignKeyViolation "security_events" "security_events_site_id_fkey")
      else .ok events

/-- The user the token names, when it names one. -/
def Disposition.operator (d : Disposition) : Option UUID := d.claims.bind fun claims => parse claims.userId

/-- An alarm update whose error the handler drops. -/
def updateAlarms (env : Env) (store : Store) (alarms : Table ActiveAlarm.id) : Store :=
  match env.fault with
  | some _ => store
  | none => { store with alarms := alarms }

/-- The `SELECT` of `ComputeAICorrectness`: the next statement, or the end of
the request. `dispositionCode[:5]` panics on a shorter code. -/
def judgeAI (env : Env) (d : Disposition) (id : String) (store : Store) : CreatePc :=
  let threat := match env.fault, store.alarms.find? d.input.alarmId with
    | none, some alarm => alarm.aiThreatLevel
    | _, _ => ""
  let code := d.input.dispositionCode.toUTF8.data.toList
  if threat = "" then .done (.json 200 id)
  else if 0 < code.length ∧ code.length < 5 then .done (.error 500 "")
  else
    let saidThreat := threat = "critical" ∨ threat = "high"
    let falsePositive := code.take 5 = "false".toUTF8.data.toList
    .writeCorrect (decide ((saidThreat ∧ ¬ falsePositive) ∨ (¬ saidThreat ∧ falsePositive)))

/-- One statement of `HandleCreateSecurityEvent`. The token's user reaches the
input only after the insert has read it. -/
def nextDisposition (text : TextLib) (env : Env) (d : Disposition) (store : Store) : Disposition × Store :=
  match d.pc with
  | .insertEvent =>
    match insertEvent env d.input store with
    | .error err => ({ d with pc := .done (.error 500 err) }, store)
    | .ok events => ({ d with event := some (eventId env), pc := .closeAlarm }, { store with events := events })
  | .closeAlarm =>
    let input := { d.input with disposedByUserId := d.operator.getD .nil }
    ({ d with
        input := input
        pc := if input.alarmId = "" then .done (.json 200 (d.event.getD "")) else .acknowledge },
      updateAlarms env store (acknowledgeAlarm store.alarms input.alarmId env.now none input.operatorCallsign))
  | .acknowledge =>
    ({ d with pc := .readThreat },
      updateAlarms env store (acknowledgeAlarm store.alarms d.input.alarmId env.now
        (nullableUUID d.input.disposedByUserId) (callsignOr text d.claims d.input.operatorCallsign)))
  | .readThreat => ({ d with pc := judgeAI env d (d.event.getD "") store }, store)
  | .writeCorrect correct =>
    ({ d with pc := .done (.json 200 (d.event.getD "")) },
      updateAlarms env store (store.alarms.modify (fun alarm => alarm.id = d.input.alarmId)
        (fun alarm => { alarm with aiWasCorrect := some correct }) fun _ => rfl))
  | .done _ => (d, store)

/-! ## Verification -/

/-- The `WHERE` clause of the conditional update. -/
def verifiable (v : Verification) (event : SecurityEvent) : Bool :=
  event.id = v.eventId ∧ event.verifiedAt = none ∧
    (event.disposedByUserId = none ∨ event.disposedByUserId ≠ some v.verifier)

/-- The update of `VerifySecurityEvent`. -/
def signEvents (env : Env) (v : Verification) (events : Table SecurityEvent.id) : Table SecurityEvent.id :=
  events.modify (verifiable v) (fun event =>
    { event with
      verifiedByUserId := some v.verifier
      verifiedByCallsign := v.callsign
      verifiedAt := some env.now }) fun _ => rfl

/-- Why the update touched no row, in the words of the handler. -/
def refusal (text : TextLib) (env : Env) (v : Verification) (store : Store) : Reply String :=
  match env.fault, store.events.find? v.eventId with
  | none, some event =>
    if event.verifiedAt ≠ none then .error 409 "event already verified"
    else if event.disposedByUserId = some v.verifier then .error 409 "verifier must be a different operator"
    else .error 500 "verification failed: verification update affected 0 rows"
  | _, _ => .error 500 ("verification failed: event " ++ text.quote v.eventId ++ " not found")

/-- One statement of `HandleVerifySecurityEvent`. -/
def nextVerification (text : TextLib) (env : Env) (v : Verification) (store : Store) : Verification × Store :=
  match v.pc with
  | .update =>
    match env.fault with
    | some err => ({ v with pc := .done (.error 500 ("verification failed: " ++ err)) }, store)
    | none =>
      ({ v with pc := if store.events.affected (verifiable v) ≠ 1 then .disambiguate else .done .noContent },
        { store with events := signEvents env v store.events })
  | .disambiguate => ({ v with pc := .done (refusal text env v store) }, store)
  | .done _ => (v, store)

/-- Both handlers over one database. -/
def program (text : TextLib) : Program Store Thread Request Env where
  start := start text
  next env thread store := match thread with
    | .refused reply => (.refused reply, store)
    | .disposing d => let after := nextDisposition text env d store; (.disposing after.1, after.2)
    | .verifying v => let after := nextVerification text env v store; (.verifying after.1, after.2)

end Ironsight.FourEyes
