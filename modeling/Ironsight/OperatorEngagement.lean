import Ironsight.OperatorStore
import Ironsight.Runs

/-! The alarm an operator works on and its copy in the feed. Claiming an alarm writes the
assignment into the feed only, a second alarm may be engaged over the first, and a pushed
alarm is put in front of the feed whether or not it is there already. -/
namespace Ironsight.OperatorEngagement
open Runs OperatorStore

/-- The operator columns of an alert. -/
def assignment (a : AlertEvent) : Option String × Option String := (a.assignedOperatorId, a.assignedOperatorCallsign)

/-- One alarm is worked on, it is the one that the feed assigns to the operator, and its two
copies agree. -/
structure Consistent (op : SOCOperator) (state : OperatorState) : Prop where
  unique : (state.alertFeed.map AlertEvent.id).Nodup
  mine : ∀ a ∈ state.alertFeed, a.acknowledged = false →
    (a.assignedOperatorId = some op.id ↔ state.activeAlarm.map AlertEvent.id = some a.id)
  agree : ∀ active, state.activeAlarm = some active → ∀ a ∈ state.alertFeed, a.id = active.id →
    a.escalationLevel = active.escalationLevel ∧ assignment a = assignment active
  engaged : state.operatorStatus = .engaged ↔ state.activeAlarm.isSome = true

/-- The actions that keep it. A pushed alert is new, and assigned to the operator exactly if it
is a copy of the active alarm; an engaged alert carries the operator and the level of its copy
in the feed, and no other open one is being worked on; an active alarm that is escalated is the
operator's, if the feed has a copy. -/
def Harmless (op : SOCOperator) (state : OperatorState) : Action → Prop
  | .addAlert alert => alert.id ∈ state.dismissedIds ∨
      alert.id ∉ (state.alertFeed.take 199).map AlertEvent.id ∧
      (alert.acknowledged = false →
        (alert.assignedOperatorId = some op.id ↔ state.activeAlarm.map AlertEvent.id = some alert.id)) ∧
      ∀ active, state.activeAlarm = some active → alert.id = active.id →
        alert.escalationLevel = active.escalationLevel ∧ assignment alert = assignment active
  | .engageAlarm alert _ =>
      (∀ a ∈ state.alertFeed, a.id = alert.id → a.escalationLevel = alert.escalationLevel ∧
        assignment alert = (some op.id, some op.callsign)) ∧
      ∀ a ∈ state.alertFeed, state.activeAlarm.map AlertEvent.id = some a.id → a.id ≠ alert.id → a.acknowledged = true
  | .escalateActiveAlarm _ => ∀ active, state.activeAlarm = some active → active.acknowledged = false →
      active.id ∈ state.alertFeed.map AlertEvent.id → active.assignedOperatorId = some op.id
  | _ => True

section Step
variable {op : SOCOperator} {state : OperatorState}

private theorem Consistent.unique_revised (held : Consistent op state) {selected : AlertEvent → Bool}
    {change : AlertEvent → AlertEvent} (sameID : ∀ a, selected a = true → (change a).id = a.id) :
    ((revise state.alertFeed selected change).map AlertEvent.id).Nodup := by
  rw [ids_revise fun a _ => sameID a]
  exact held.unique

/-- A change of both copies that keeps what they have in common, and opens no alert. -/
private theorem Consistent.revised (held : Consistent op state) {after : OperatorState} {selected : AlertEvent → Bool}
    (closing : AlertEvent → Bool) {change : AlertEvent → AlertEvent}
    (feed : after.alertFeed = revise state.alertFeed selected change)
    (active : after.activeAlarm = state.activeAlarm.map fun a => if closing a then change a else a)
    (status : after.operatorStatus = state.operatorStatus)
    (same : ∀ a, (change a).id = a.id ∧ (change a).escalationLevel = a.escalationLevel ∧ assignment (change a) = assignment a)
    (closes : ∀ a, (change a).acknowledged = false → a.acknowledged = false) : Consistent op after := by
  have kept (chosen : Bool) (a : AlertEvent) : (if chosen then change a else a).id = a.id ∧
      (if chosen then change a else a).escalationLevel = a.escalationLevel ∧
      assignment (if chosen then change a else a) = assignment a := by
    cases chosen with
    | true => exact same a
    | false => exact ⟨rfl, rfl, rfl⟩
  have activeID : after.activeAlarm.map AlertEvent.id = state.activeAlarm.map AlertEvent.id := by
    rw [active, Option.map_map]
    exact congrArg (Option.map · state.activeAlarm) (funext fun a => (kept (closing a) a).1)
  constructor
  case unique =>
    rw [feed]
    exact held.unique_revised fun a _ => (same a).1
  case mine =>
    intro a member unacknowledged
    obtain ⟨old, present, rfl⟩ := mem_revise.mp (feed ▸ member)
    obtain ⟨sameID, _, sameAssignment⟩ := kept (selected old) old
    have opened : old.acknowledged = false := by
      by_cases chosen : selected old = true
      · rw [if_pos chosen] at unacknowledged
        exact closes old unacknowledged
      · rw [if_neg chosen] at unacknowledged
        exact unacknowledged
    rw [activeID, sameID, show (if selected old then change old else old).assignedOperatorId = old.assignedOperatorId from
      congrArg Prod.fst sameAssignment]
    exact held.mine old present opened
  case agree =>
    intro current working a member sameAlarm
    rw [active] at working
    obtain ⟨former, wasWorking, rfl⟩ := Option.map_eq_some_iff.mp working
    obtain ⟨old, present, rfl⟩ := mem_revise.mp (feed ▸ member)
    obtain ⟨sameID, sameLevel, sameAssignment⟩ := kept (selected old) old
    obtain ⟨activeID, activeLevel, activeAssignment⟩ := kept (closing former) former
    rw [sameID, activeID] at sameAlarm
    rw [sameLevel, sameAssignment, activeLevel, activeAssignment]
    exact held.agree former wasWorking old present sameAlarm
  case engaged =>
    rw [status, active, Option.isSome_map]
    exact held.engaged

private theorem addAlert_iff (held : Consistent op state) (alert : AlertEvent) :
    Consistent op (state.addAlert alert) ↔ Harmless op state (.addAlert alert) := by
  unfold OperatorState.addAlert Harmless
  by_cases known : alert.id ∈ state.dismissedIds
  · rw [if_pos known]
    exact iff_of_true held (.inl known)
  · rw [if_neg known]
    have feed : (alert :: state.alertFeed).take 200 = alert :: state.alertFeed.take 199 := rfl
    simp only [known, false_or]
    constructor
    · rintro ⟨unique, mine, agree, _⟩
      dsimp only at unique mine agree
      rw [feed] at unique mine agree
      exact ⟨(List.nodup_cons.mp unique).1, mine alert List.mem_cons_self,
        fun active working sameAlarm => agree active working alert List.mem_cons_self sameAlarm⟩
    · rintro ⟨fresh, mine, agree⟩
      constructor
      case unique =>
        dsimp only
        rw [feed, List.map_cons]
        exact List.nodup_cons.mpr ⟨fresh, held.unique.sublist ((List.take_sublist _ _).map _)⟩
      case mine =>
        dsimp only
        rw [feed]
        intro a member
        rcases List.mem_cons.mp member with rfl | old
        · exact mine
        · exact held.mine a (List.mem_of_mem_take old)
      case agree =>
        dsimp only
        rw [feed]
        intro active working a member
        rcases List.mem_cons.mp member with rfl | old
        · exact agree active working
        · exact held.agree active working a (List.mem_of_mem_take old)
      case engaged => exact held.engaged

private theorem engageAlarm_iff (held : Consistent op state) (loggedIn : state.currentOperator = some op) (alert : AlertEvent)
    (now : Soc.Millis) : Consistent op (state.engageAlarm alert now) ↔ Harmless op state (.engageAlarm alert now) := by
  have feed : (state.engageAlarm alert now).alertFeed = revise state.alertFeed (fun a => a.id = alert.id) fun a =>
      { a with assignedOperatorId := some op.id, assignedOperatorCallsign := some op.callsign } := by
    simp only [OperatorState.engageAlarm, OperatorState.claimAlert, loggedIn]
  have active : (state.engageAlarm alert now).activeAlarm = some alert := by
    simp only [OperatorState.engageAlarm, OperatorState.claimAlert, loggedIn]
  have status : (state.engageAlarm alert now).operatorStatus = .engaged := by
    simp only [OperatorState.engageAlarm, OperatorState.claimAlert, loggedIn]
  constructor
  · rintro ⟨_, mine, agree, _⟩
    rw [feed] at mine agree
    rw [active] at mine
    constructor
    · intro a member same
      have copies := agree alert active _ (mem_revise_id.mpr (.inl ⟨a, member, same, rfl⟩)) same
      exact ⟨copies.1, copies.2.symm⟩
    · intro a member worked other
      by_contra opened
      have unacknowledged := Bool.eq_false_of_not_eq_true opened
      have stays := mine a (mem_revise_id.mpr (.inr ⟨member, other⟩)) unacknowledged
      have assigned := (held.mine a member unacknowledged).mpr worked
      exact other (Option.some.inj (stays.mp assigned)).symm
  · rintro ⟨copies, others⟩
    constructor
    case unique =>
      rw [feed]
      exact held.unique_revised fun _ _ => rfl
    case mine =>
      rw [feed, active]
      intro a member unacknowledged
      rcases mem_revise_id.mp member with ⟨old, _, same, rfl⟩ | ⟨present, other⟩
      · exact iff_of_true rfl (congrArg some same.symm)
      · refine iff_of_false (fun assigned => ?_) fun worked => other (Option.some.inj worked).symm
        have closed := others a present ((held.mine a present unacknowledged).mp assigned) other
        rw [closed] at unacknowledged
        cases unacknowledged
    case agree =>
      rw [feed, active]
      rintro _ ⟨rfl⟩ a member sameAlarm
      rcases mem_revise_id.mp member with ⟨old, present, same, rfl⟩ | ⟨_, other⟩
      · exact ⟨(copies old present same).1, (copies old present same).2.symm⟩
      · exact absurd sameAlarm other
    case engaged => exact iff_of_true status (by rw [active]; rfl)

private theorem escalateActiveAlarm_iff (held : Consistent op state) (now : Soc.Millis) :
    Consistent op (state.escalateActiveAlarm now) ↔ Harmless op state (.escalateActiveAlarm now) := by
  unfold Harmless
  cases working : state.activeAlarm with
  | none =>
    have same : state.escalateActiveAlarm now = state := by simp only [OperatorState.escalateActiveAlarm, working]
    rw [same]
    exact iff_of_true held fun active working => absurd working.symm (Option.some_ne_none active)
  | some alarm =>
    have feed : (state.escalateActiveAlarm now).alertFeed = revise state.alertFeed (fun a => a.id = alarm.id) fun _ =>
        OperatorState.escalated alarm now := by
      simp only [OperatorState.escalateActiveAlarm, working, OperatorState.addActionLogEntry]
    have active : (state.escalateActiveAlarm now).activeAlarm = some (OperatorState.escalated alarm now) := by
      simp only [OperatorState.escalateActiveAlarm, working, OperatorState.addActionLogEntry]
    have status : (state.escalateActiveAlarm now).operatorStatus = state.operatorStatus := by
      simp only [OperatorState.escalateActiveAlarm, working, OperatorState.addActionLogEntry]
    simp only [Option.some.injEq, forall_eq']
    constructor
    · intro after opened listed
      obtain ⟨a, member, same⟩ := List.mem_map.mp listed
      have mine := after.mine (OperatorState.escalated alarm now)
      rw [feed, active] at mine
      exact (mine (mem_revise_id.mpr (.inl ⟨a, member, same, rfl⟩)) opened).mpr rfl
    · intro assigned
      constructor
      case unique =>
        rw [feed]
        exact held.unique_revised fun a same => (of_decide_eq_true same).symm
      case mine =>
        rw [feed, active]
        intro a member opened
        rcases mem_revise_id.mp member with ⟨old, present, same, rfl⟩ | ⟨present, other⟩
        · exact iff_of_true (assigned opened (List.mem_map.mpr ⟨old, present, same⟩)) rfl
        · have before := held.mine a present opened
          rw [working] at before
          exact before
      case agree =>
        rw [feed, active]
        rintro _ ⟨rfl⟩ a member sameAlarm
        rcases mem_revise_id.mp member with ⟨old, _, _, rfl⟩ | ⟨_, other⟩
        · exact ⟨rfl, rfl⟩
        · exact absurd sameAlarm other
      case engaged =>
        have before := held.engaged
        rw [working] at before
        rw [status, active]
        exact before

/-- Without an active alarm, an open alert must not be the operator's. -/
private theorem idle {after : OperatorState} (unique : (after.alertFeed.map AlertEvent.id).Nodup)
    (released : ∀ a ∈ after.alertFeed, a.acknowledged = false → a.assignedOperatorId ≠ some op.id)
    (working : after.activeAlarm = none) (status : after.operatorStatus ≠ .engaged) : Consistent op after where
  unique := unique
  mine a member opened := iff_of_false (released a member opened) (by
    rw [working, Option.map_none]
    exact (Option.some_ne_none _).symm)
  agree active worked := absurd (worked.symm.trans working) (Option.some_ne_none active)
  engaged := iff_of_false status (by rw [working]; exact Bool.false_ne_true)

private theorem Consistent.unassigned (held : Consistent op state) (working : state.activeAlarm = none) :
    ∀ a ∈ state.alertFeed, a.acknowledged = false → a.assignedOperatorId ≠ some op.id := by
  intro a member opened assigned
  have worked := (held.mine a member opened).mp assigned
  rw [working] at worked
  cases worked

/-- Closing or releasing the copies of the active alarm leaves none to the operator. -/
private theorem Consistent.left (held : Consistent op state) {alarm : AlertEvent} (working : state.activeAlarm = some alarm)
    {change : AlertEvent → AlertEvent}
    (leaves : ∀ a, (change a).acknowledged = false → (change a).assignedOperatorId ≠ some op.id) :
    ∀ a ∈ revise state.alertFeed (fun a => a.id = alarm.id) change,
      a.acknowledged = false → a.assignedOperatorId ≠ some op.id := by
  intro a member opened assigned
  rcases mem_revise_id.mp member with ⟨old, _, _, rfl⟩ | ⟨present, other⟩
  · exact leaves old opened assigned
  · have worked := (held.mine a present opened).mp assigned
    rw [working] at worked
    exact other (Option.some.inj worked).symm

private theorem resolveAlarm_consistent (held : Consistent op state) (dispositionCode : String) (resolvedAt : Soc.Millis) :
    Consistent op (state.resolveAlarm dispositionCode resolvedAt) := by
  unfold OperatorState.resolveAlarm
  cases working : state.activeAlarm with
  | none => exact idle held.unique (held.unassigned working) rfl nofun
  | some alarm =>
    exact idle (held.unique_revised fun _ _ => rfl) (held.left working fun _ => nofun) rfl nofun

private theorem abandonAlarm_consistent (held : Consistent op state) : Consistent op state.abandonAlarm := by
  unfold OperatorState.abandonAlarm
  cases working : state.activeAlarm with
  | none => exact idle held.unique (held.unassigned working) rfl nofun
  | some alarm =>
    exact idle (held.unique_revised fun _ _ => rfl) (held.left working fun _ _ => nofun) rfl nofun

/-- An action that closes alerts in the feed alone. -/
private theorem Consistent.acknowledged (held : Consistent op state) {after : OperatorState} {selected : AlertEvent → Bool}
    (feed : after.alertFeed = revise state.alertFeed selected fun a => { a with acknowledged := true })
    (active : after.activeAlarm = state.activeAlarm) (status : after.operatorStatus = state.operatorStatus) :
    Consistent op after := by
  refine held.revised (fun _ => false) feed ?_ status (fun _ => ⟨rfl, rfl, rfl⟩) fun _ => nofun
  rw [active]
  exact Option.map_id'.symm

/-- A patch of an alert writes both copies. -/
private theorem Consistent.patched (held : Consistent op state) {after : OperatorState} {alarmId : String}
    {change : AlertEvent → AlertEvent} (feed : after.alertFeed = revise state.alertFeed (fun a => a.id = alarmId) change)
    (active : after.activeAlarm = state.activeAlarm.map fun a => if a.id = alarmId then change a else a)
    (status : after.operatorStatus = state.operatorStatus)
    (same : ∀ a, (change a).id = a.id ∧ (change a).escalationLevel = a.escalationLevel ∧ assignment (change a) = assignment a)
    (opens : ∀ a, (change a).acknowledged = a.acknowledged) : Consistent op after := by
  refine held.revised (fun a => a.id = alarmId) feed ?_ status same fun a closed => (opens a).symm.trans closed
  simp only [decide_eq_true_eq]
  exact active

private theorem step_iff (held : Consistent op state) (loggedIn : state.currentOperator = some op) (action : Action) :
    Consistent op (step state action) ↔ Harmless op state action := by
  cases action with
  | addAlert alert => exact addAlert_iff held alert
  | engageAlarm alert now => exact engageAlarm_iff held loggedIn alert now
  | escalateActiveAlarm now => exact escalateActiveAlarm_iff held now
  | resolveAlarm dispositionCode resolvedAt =>
    exact iff_of_true (resolveAlarm_consistent held dispositionCode resolvedAt) trivial
  | abandonAlarm => exact iff_of_true (abandonAlarm_consistent held) trivial
  | acknowledgeIncident id => exact iff_of_true (held.acknowledged rfl rfl rfl) trivial
  | acknowledgeAlert id => exact iff_of_true (held.acknowledged rfl rfl rfl) trivial
  | patchAlertSnapshot alarmId snapshotUrl =>
    exact iff_of_true (held.patched rfl rfl rfl (fun _ => ⟨rfl, rfl, rfl⟩) fun _ => rfl) trivial
  | patchAlertAI alarmId data =>
    exact iff_of_true (held.patched rfl rfl rfl (fun _ => ⟨rfl, rfl, rfl⟩) fun _ => rfl) trivial
  | dismissAlarm id => exact iff_of_true ⟨held.unique, held.mine, held.agree, held.engaged⟩ trivial
  | upsertIncident incident =>
    refine iff_of_true ?_ trivial
    dsimp only [step, OperatorState.upsertIncident]
    split
    all_goals exact ⟨held.unique, held.mine, held.agree, held.engaged⟩
  | clearAlerts =>
    refine iff_of_true ⟨List.nodup_nil, ?_, ?_, held.engaged⟩ trivial
    · exact fun a member => absurd member List.not_mem_nil
    · exact fun _ _ a member => absurd member List.not_mem_nil

/-- The operator stays logged in. -/
private theorem step_loggedIn (action : Action) : (step state action).currentOperator = state.currentOperator := by
  cases action with
  | addAlert alert =>
    dsimp only [step, OperatorState.addAlert]
    split
    all_goals rfl
  | upsertIncident incident =>
    dsimp only [step, OperatorState.upsertIncident]
    split
    all_goals rfl
  | engageAlarm alert now =>
    dsimp only [step, OperatorState.engageAlarm, OperatorState.claimAlert]
    split
    all_goals rfl
  | escalateActiveAlarm now =>
    dsimp only [step, OperatorState.escalateActiveAlarm]
    split
    all_goals rfl
  | resolveAlarm dispositionCode resolvedAt =>
    dsimp only [step, OperatorState.resolveAlarm]
    split
    all_goals rfl
  | abandonAlarm =>
    dsimp only [step, OperatorState.abandonAlarm]
    split
    all_goals rfl
  | acknowledgeIncident id => rfl
  | acknowledgeAlert id => rfl
  | clearAlerts => rfl
  | patchAlertSnapshot alarmId snapshotUrl => rfl
  | patchAlertAI alarmId data => rfl
  | dismissAlarm id => rfl

end Step

/-- A session keeps its two copies of an alarm in step exactly if each of its actions is
harmless in the state it meets. -/
theorem consistent_throughout_iff (op : SOCOperator) (start : OperatorState) (actions : List Action)
    (loggedIn : start.currentOperator = some op) (initial : Consistent op start) :
    Throughout step (Consistent op) start actions ↔ Along step (Harmless op) start actions := by
  have kept : ∀ state action, state.currentOperator = some op → (step state action).currentOperator = some op :=
    fun state action here => (step_loggedIn action).trans here
  exact throughout_iff_along kept (fun state action here held => step_iff held here action) actions start loggedIn initial

private def operator : SOCOperator := ⟨"OP-1", "N. Osei"⟩

private def alarm : AlertEvent := { id := "A", ts := 1 }

/-- The alarm as the feed holds it once it has been claimed. -/
private def claimed : AlertEvent :=
  { alarm with assignedOperatorId := some "OP-1", assignedOperatorCallsign := some "N. Osei" }

/-- The operator at the beginning of a shift. -/
private def fresh : OperatorState := { currentOperator := some operator }

private theorem fresh_consistent : Consistent operator fresh where
  unique := List.nodup_nil
  mine a member := absurd member List.not_mem_nil
  agree _ _ a member := absurd member List.not_mem_nil
  engaged := by decide

/-- The alarm is engaged as the operator's own. -/
theorem engaged_with_own_copy :
    Throughout step (Consistent operator) fresh
      [.addAlert alarm, .engageAlarm claimed 2, .escalateActiveAlarm 3, .resolveAlarm "false_positive" 4] := by
  refine (consistent_throughout_iff operator fresh _ rfl fresh_consistent).mpr ⟨?_, ?_, ?_, trivial, trivial⟩
  · exact .inr ⟨List.not_mem_nil, fun _ => by decide, fun _ working => absurd working.symm (Option.some_ne_none _)⟩
  · exact ⟨by decide, by decide⟩
  · rintro _ ⟨rfl⟩ _ _
    rfl

/-- The feed learns who has claimed the alarm and the active alarm does not; an alert that is
delivered again is in the feed twice. -/
theorem claim_and_redelivery_inconsistent :
    ¬ Throughout step (Consistent operator) fresh [.addAlert alarm, .engageAlarm alarm 2] ∧
    ¬ Throughout step (Consistent operator) fresh [.addAlert alarm, .addAlert alarm] := by
  constructor
  · rintro ⟨_, _, held⟩
    have copies := held.agree alarm rfl claimed List.mem_cons_self rfl
    exact absurd copies.2 (by decide)
  · rintro ⟨_, _, held⟩
    exact absurd held.unique (by decide)

end Ironsight.OperatorEngagement
