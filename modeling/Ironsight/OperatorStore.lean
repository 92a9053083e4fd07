import Ironsight.Soc

/-! The store behind the operator console: the pushed alerts, the alarm being worked on,
and the alarms that this operator has dismissed. An alarm may live in it twice, in the feed
and as the active alarm. -/
namespace Ironsight.OperatorStore
open Soc

/-- What the AI pipeline has delivered for an alert. -/
structure AIResult where
  aiDescription : Option String := none
  aiThreatLevel : Option String := none
  aiRecommendedAction : Option String := none
  deriving DecidableEq

/-- `AlertEvent`; `none` stands for `undefined`. -/
structure AlertEvent where
  id : String
  incidentId : Option String := none
  snapshotUrl : String := ""
  ts : Millis
  acknowledged : Bool := false
  assignedOperatorId : Option String := none
  assignedOperatorCallsign : Option String := none
  escalationLevel : Option Int := none
  escalatedAt : Option Millis := none
  slaDeadlineMs : Option Millis := none
  ai : AIResult := {}
  deriving DecidableEq

/-- `SOCOperator`, as far as the console reads it. -/
structure SOCOperator where
  id : String
  callsign : String
  deriving DecidableEq

structure SOCIncident where
  id : String
  snapshotUrl : String := ""
  deriving DecidableEq

inductive OperatorStatus where
  | available
  | engaged
  | wrapUp
  | away
  | onBreak
  deriving DecidableEq

structure ActionLogEntry where
  ts : Millis
  text : String
  auto : Bool := false
  deriving DecidableEq

/-- The snapshot of the last resolved alarm; a disposition code is its text. -/
structure LastDisposition where
  alarm : AlertEvent
  dispositionCode : String
  actionLog : List ActionLogEntry
  resolvedAt : Millis
  responseMs : Millis
  deriving DecidableEq

structure ShiftStats where
  alarmsHandled : Nat := 0
  slaMissed : Nat := 0
  deriving DecidableEq

/-- The state of the operator's console. -/
structure OperatorState where
  currentOperator : Option SOCOperator := none
  operatorStatus : OperatorStatus := .available
  incidents : List SOCIncident := []
  alertFeed : List AlertEvent := []
  dismissedIds : List String := []
  activeAlarm : Option AlertEvent := none
  actionLog : List ActionLogEntry := []
  lastDisposition : Option LastDisposition := none
  shiftStats : ShiftStats := {}
  deriving DecidableEq

/-- The feed with the selected alerts changed. -/
def revise (feed : List AlertEvent) (selected : AlertEvent → Bool) (change : AlertEvent → AlertEvent) : List AlertEvent :=
  feed.map fun a => if selected a then change a else a

/-- `slice(-500)`. -/
def last500 (ids : List String) : List String := ids.drop (ids.length - 500)

namespace OperatorState
variable (state : OperatorState)

def upsertIncident (incident : SOCIncident) : OperatorState :=
  if state.incidents.any (·.id = incident.id) then
    { state with incidents := state.incidents.set (state.incidents.findIdx (·.id = incident.id)) incident }
  else { state with incidents := (incident :: state.incidents).take 200 }

def acknowledgeIncident (id : String) : OperatorState :=
  { state with
    incidents := state.incidents.filter fun i => i.id ≠ id
    alertFeed := revise state.alertFeed (fun a => a.incidentId = some id) fun a => { a with acknowledged := true }
    dismissedIds := last500 (state.dismissedIds ++
      (state.alertFeed.filter fun a => a.incidentId = some id).map AlertEvent.id) }

def addAlert (alert : AlertEvent) : OperatorState :=
  if alert.id ∈ state.dismissedIds then state
  else { state with alertFeed := (alert :: state.alertFeed).take 200 }

/-- The dismissed identifiers with one more. -/
def dismissed (id : String) : List String :=
  if id ∈ state.dismissedIds then state.dismissedIds else last500 (state.dismissedIds ++ [id])

def acknowledgeAlert (id : String) : OperatorState :=
  { state with
    alertFeed := revise state.alertFeed (fun a => a.id = id) fun a => { a with acknowledged := true }
    dismissedIds := state.dismissed id }

def clearAlerts : OperatorState := { state with alertFeed := [] }

def patchAlertSnapshot (alarmId snapshotUrl : String) : OperatorState :=
  { state with
    alertFeed := revise state.alertFeed (fun a => a.id = alarmId) fun a => { a with snapshotUrl := snapshotUrl }
    incidents := match (state.alertFeed.find? fun a => a.id = alarmId).bind AlertEvent.incidentId with
      | none => state.incidents
      | some incidentId => if incidentId = "" then state.incidents
        else state.incidents.map fun i => if i.id = incidentId then { i with snapshotUrl := snapshotUrl } else i
    activeAlarm := state.activeAlarm.map fun a => if a.id = alarmId then { a with snapshotUrl := snapshotUrl } else a }

def patchAlertAI (alarmId : String) (data : AIResult) : OperatorState :=
  { state with
    alertFeed := revise state.alertFeed (fun a => a.id = alarmId) fun a => { a with ai := data }
    activeAlarm := state.activeAlarm.map fun a => if a.id = alarmId then { a with ai := data } else a }

def dismissAlarm (id : String) : OperatorState := { state with dismissedIds := state.dismissed id }

def claimAlert (alertId : String) : OperatorState :=
  match state.currentOperator with
  | none => state
  | some op =>
    { state with
      alertFeed := revise state.alertFeed (fun a => a.id = alertId) fun a =>
        { a with assignedOperatorId := some op.id, assignedOperatorCallsign := some op.callsign } }

def releaseAlert (alertId : String) : OperatorState :=
  { state with
    alertFeed := revise state.alertFeed (fun a => a.id = alertId) fun a =>
      { a with assignedOperatorId := none, assignedOperatorCallsign := none } }

def addActionLogEntry (now : Millis) (text : String) (auto : Bool) : OperatorState :=
  { state with actionLog := state.actionLog ++ [⟨now, text, auto⟩] }

/-- The active alarm one level higher. -/
def escalated (alarm : AlertEvent) (now : Millis) : AlertEvent :=
  { alarm with escalationLevel := some (alarm.escalationLevel.getD 0 + 1), escalatedAt := some now }

def escalateActiveAlarm (now : Millis) : OperatorState :=
  match state.activeAlarm with
  | none => state
  | some alarm =>
    let updatedAlarm := escalated alarm now
    let state := { state with
      activeAlarm := some updatedAlarm
      alertFeed := revise state.alertFeed (fun a => a.id = alarm.id) fun _ => updatedAlarm }
    state.addActionLogEntry now ("Escalated to Level " ++ toString (alarm.escalationLevel.getD 0 + 1)) false

def engageAlarm (alert : AlertEvent) (now : Millis) : OperatorState :=
  let callsign := ((state.currentOperator.map SOCOperator.callsign).filter (· ≠ "")).getD "operator"
  let state := { state with
    activeAlarm := some alert
    operatorStatus := .engaged
    actionLog := [⟨now, "Alarm claimed by " ++ callsign, true⟩] }
  state.claimAlert alert.id

def resolveAlarm (dispositionCode : String) (resolvedAt : Millis) : OperatorState :=
  match state.activeAlarm with
  | none => { state with activeAlarm := none, actionLog := [], operatorStatus := .wrapUp }
  | some alarm =>
    let slaMissed := match alarm.slaDeadlineMs with
      | none => false
      | some deadline => deadline ≠ 0 && deadline < resolvedAt
    { state.acknowledgeAlert alarm.id with
      activeAlarm := none
      actionLog := []
      operatorStatus := .wrapUp
      lastDisposition := some ⟨alarm, dispositionCode, state.actionLog, resolvedAt, resolvedAt - alarm.ts⟩
      shiftStats := ⟨state.shiftStats.alarmsHandled + 1, state.shiftStats.slaMissed + if slaMissed then 1 else 0⟩ }

def abandonAlarm : OperatorState :=
  let released := match state.activeAlarm with
    | none => state
    | some alarm => state.releaseAlert alarm.id
  { released with activeAlarm := none, actionLog := [], operatorStatus := .available }

end OperatorState

/-- The actions on alerts and incidents. -/
inductive Action where
  | upsertIncident (incident : SOCIncident)
  | acknowledgeIncident (id : String)
  | addAlert (alert : AlertEvent)
  | acknowledgeAlert (id : String)
  | clearAlerts
  | patchAlertSnapshot (alarmId snapshotUrl : String)
  | patchAlertAI (alarmId : String) (data : AIResult)
  | dismissAlarm (id : String)
  | escalateActiveAlarm (now : Millis)
  | engageAlarm (alert : AlertEvent) (now : Millis)
  | resolveAlarm (dispositionCode : String) (resolvedAt : Millis)
  | abandonAlarm

def step (state : OperatorState) : Action → OperatorState
  | .upsertIncident incident => state.upsertIncident incident
  | .acknowledgeIncident id => state.acknowledgeIncident id
  | .addAlert alert => state.addAlert alert
  | .acknowledgeAlert id => state.acknowledgeAlert id
  | .clearAlerts => state.clearAlerts
  | .patchAlertSnapshot alarmId snapshotUrl => state.patchAlertSnapshot alarmId snapshotUrl
  | .patchAlertAI alarmId data => state.patchAlertAI alarmId data
  | .dismissAlarm id => state.dismissAlarm id
  | .escalateActiveAlarm now => state.escalateActiveAlarm now
  | .engageAlarm alert now => state.engageAlarm alert now
  | .resolveAlarm dispositionCode resolvedAt => state.resolveAlarm dispositionCode resolvedAt
  | .abandonAlarm => state.abandonAlarm

/-! ## The feed -/

theorem mem_revise {feed : List AlertEvent} {selected : AlertEvent → Bool} {change : AlertEvent → AlertEvent}
    {a : AlertEvent} :
    a ∈ revise feed selected change ↔ ∃ old ∈ feed, a = if selected old then change old else old := by
  simp only [revise, List.mem_map, eq_comm]

/-- The feed after a change of one alarm: its changed copies, and the other alerts. -/
theorem mem_revise_id {feed : List AlertEvent} {id : String} {change : AlertEvent → AlertEvent} {a : AlertEvent} :
    a ∈ revise feed (fun a => a.id = id) change ↔ (∃ old ∈ feed, old.id = id ∧ change old = a) ∨ a ∈ feed ∧ a.id ≠ id := by
  rw [mem_revise]
  constructor
  · rintro ⟨old, present, rfl⟩
    by_cases same : old.id = id
    · rw [if_pos (decide_eq_true same)]
      exact .inl ⟨old, present, same, rfl⟩
    · rw [if_neg (by simpa using same)]
      exact .inr ⟨present, same⟩
  · rintro (⟨old, present, same, rfl⟩ | ⟨present, other⟩)
    · exact ⟨old, present, (if_pos (decide_eq_true same)).symm⟩
    · exact ⟨a, present, (if_neg (by simpa using other)).symm⟩

/-- A change that leaves the identifiers alone leaves their order alone. -/
theorem ids_revise {feed : List AlertEvent} {selected : AlertEvent → Bool} {change : AlertEvent → AlertEvent}
    (sameID : ∀ a ∈ feed, selected a = true → (change a).id = a.id) :
    (revise feed selected change).map AlertEvent.id = feed.map AlertEvent.id := by
  rw [revise, List.map_map]
  refine List.map_congr_left fun a member => ?_
  simp only [Function.comp_apply]
  split
  · rename_i chosen
    exact sameID a member chosen
  · rfl

theorem mem_last500 {ids : List String} {id : String} (member : id ∈ last500 ids) :
    id ∈ ids := List.mem_of_mem_drop member

theorem mem_dismissed {state : OperatorState} {alarm id : String} (member : id ∈ state.dismissed alarm) :
    id ∈ state.dismissedIds ∨ id ∈ [alarm] := by
  unfold OperatorState.dismissed at member
  split at member
  · exact .inl member
  · exact List.mem_append.mp (mem_last500 member)

end Ironsight.OperatorStore
