import Mathlib.Tactic.Tauto
import Ironsight.OperatorStore
import Ironsight.Runs

/-! The alarms that the operator console lists. The view merges the polled alarms with the
pushed ones, without the acknowledged and the dismissed. Nothing tells it that a pushed alarm
has been acknowledged elsewhere, and a poll brings a hundred alarms at most. -/
namespace Ironsight.OperatorDisplay
open Tables Soc Runs OperatorStore

/-- `ListActiveAlarms`. -/
def listActiveAlarms (alarms : Table ActiveAlarm.id) : List ActiveAlarm :=
  ((alarms.rows.filter fun row => !row.acknowledged).mergeSort fun first second => second.ts ≤ first.ts).take 100

/-- A row as the console gets it; an empty text is left out of the JSON. -/
def ofRow (row : ActiveAlarm) : AlertEvent :=
  let given (text : String) := if text = "" then none else some text
  { id := row.id
    incidentId := given row.incidentId
    snapshotUrl := row.snapshotUrl
    ts := row.ts
    acknowledged := row.acknowledged
    escalationLevel := some row.escalationLevel
    slaDeadlineMs := some row.slaDeadlineMs
    ai := ⟨given row.aiDescription, given row.aiThreatLevel, given row.aiRecommendedAction⟩ }

/-- `GET /alerts`; an error of the database is answered with an empty list. -/
def getAlerts (answered : Bool) (alarms : Table ActiveAlarm.id) : List AlertEvent :=
  if answered then (listActiveAlarms alarms).map ofRow else []

/-- `byId.set(a.id, a)` on a map in the order of its insertions. -/
def mapSet (byId : List AlertEvent) (a : AlertEvent) : List AlertEvent :=
  if byId.any (·.id = a.id) then revise byId (fun b => b.id = a.id) fun _ => a else byId ++ [a]

/-- `if (!byId.has(a.id)) byId.set(a.id, a)`. -/
def fillIn (byId : List AlertEvent) (a : AlertEvent) : List AlertEvent :=
  if byId.any (·.id = a.id) then byId else byId ++ [a]

def displayAlerts (restAlerts alertFeed : List AlertEvent) (dismissedIds : List String) : List AlertEvent :=
  let byId := alertFeed.foldl fillIn (restAlerts.foldl mapSet [])
  (byId.filter fun a => !a.acknowledged && a.id ∉ dismissedIds).mergeSort fun a b => b.ts ≤ a.ts

/-! ## A console over time -/

/-- The store, and every alarm that the operator has dismissed. -/
structure Console where
  store : OperatorState
  everDismissed : List String

/-- The alarms that an action dismisses. -/
def dismisses (state : OperatorState) : Action → List String
  | .acknowledgeIncident id => (state.alertFeed.filter fun a => a.incidentId = some id).map AlertEvent.id
  | .acknowledgeAlert id => [id]
  | .dismissAlarm id => [id]
  | .resolveAlarm _ _ => state.activeAlarm.toList.map AlertEvent.id
  | _ => []

/-- An action of the operator, with the alarms noted that it takes off the screen. -/
def act (console : Console) (action : Action) : Console :=
  ⟨step console.store action, console.everDismissed ++ dismisses console.store action⟩

/-- A console that has just been opened, with the dismissed alarms of its browser. -/
def opened (currentOperator : Option SOCOperator) (dismissedIds : List String) : Console :=
  ⟨{ currentOperator, dismissedIds }, dismissedIds⟩

/-- What the operator is shown after a poll. -/
def Console.display (console : Console) (answered : Bool) (alarms : Table ActiveAlarm.id) : List AlertEvent :=
  displayAlerts (getAlerts answered alarms) console.store.alertFeed console.store.dismissedIds

/-- An alarm that the server holds unacknowledged. -/
def Open (alarms : Table ActiveAlarm.id) (id : String) : Prop := ∃ row ∈ alarms, row.id = id ∧ row.acknowledged = false

/-- The list has the open alarms that were not dismissed, each once and the newest first. -/
structure Lists (display : List AlertEvent) (alarms : Table ActiveAlarm.id) (everDismissed : List String) : Prop where
  exactly : ∀ id, id ∈ display.map AlertEvent.id ↔ Open alarms id ∧ id ∉ everDismissed
  once : (display.map AlertEvent.id).Nodup
  newestFirst : display.Pairwise fun a b => b.ts ≤ a.ts

/-- The latest push of an alarm, if the store still holds it, is unacknowledged. -/
def Pushed (state : OperatorState) (id : String) : Prop :=
  ∃ a, state.alertFeed.find? (fun a => a.id = id) = some a ∧ a.acknowledged = false

/-- The store is in step with the server at a poll. -/
structure InStep (console : Console) (answered : Bool) (alarms : Table ActiveAlarm.id) : Prop where
  /-- A pushed alarm that is not open any more has been dismissed. -/
  stale : ∀ id, ¬ Open alarms id → Pushed console.store id → id ∈ console.store.dismissedIds
  /-- An open alarm comes with the poll or has been pushed. -/
  known : ∀ id, Open alarms id → id ∉ console.everDismissed →
    id ∈ (getAlerts answered alarms).map AlertEvent.id ∨ Pushed console.store id
  /-- A dismissed alarm is remembered as such for as long as it is open. -/
  remembered : ∀ id, Open alarms id → id ∈ console.everDismissed →
    id ∈ (getAlerts answered alarms).map AlertEvent.id ∨ Pushed console.store id → id ∈ console.store.dismissedIds

/-! ## The merged list -/

private theorem any_id {byId : List AlertEvent} {id : String} :
    (byId.any fun b => decide (b.id = id)) = true ↔ id ∈ byId.map AlertEvent.id := by
  simp [List.any_eq_true]

private theorem fillIn_eq (byId : List AlertEvent) (a : AlertEvent) :
    fillIn byId a = if a.id ∈ byId.map AlertEvent.id then byId else byId ++ [a] := by
  unfold fillIn
  by_cases held : a.id ∈ byId.map AlertEvent.id
  · rw [if_pos held, if_pos (any_id.mpr held)]
  · rw [if_neg held, if_neg (any_id.not.mpr held)]

private theorem ids_fillIn {byId : List AlertEvent} {a : AlertEvent} {id : String} :
    id ∈ (fillIn byId a).map AlertEvent.id ↔ id ∈ byId.map AlertEvent.id ∨ id = a.id := by
  rw [fillIn_eq]
  split
  · rename_i held
    exact ⟨.inl, fun either => either.elim (fun old => old) fun same => same ▸ held⟩
  · rw [List.map_append, List.mem_append, List.map_singleton, List.mem_singleton]

/-- A pushed alert is in the list if no polled one has its identifier and it is the latest
push of its alarm. -/
private theorem mem_foldl_fillIn {a : AlertEvent} (feed byId : List AlertEvent) : a ∈ feed.foldl fillIn byId ↔
    a ∈ byId ∨ a.id ∉ byId.map AlertEvent.id ∧ feed.find? (fun b => b.id = a.id) = some a := by
  induction feed generalizing byId with
  | nil => simp
  | cons b rest ih =>
    rw [List.foldl_cons, ih, ids_fillIn, List.find?_cons, fillIn_eq]
    by_cases same : b.id = a.id
    · simp only [same, decide_true, Option.some.injEq, or_true, not_true_eq_false, false_and, or_false]
      split
      · rename_i held
        simp [held]
      · rename_i fresh
        simp only [List.mem_append, List.mem_singleton, fresh, not_false_eq_true, true_and]
        exact or_congr_right eq_comm
    · have other : a ≠ b := fun equal => same (equal ▸ rfl)
      have differs : a.id ≠ b.id := fun equal => same equal.symm
      simp only [same, decide_false, differs, or_false]
      split
      · rfl
      · simp [other]

private theorem nodup_foldl_fillIn (feed byId : List AlertEvent) (distinct : (byId.map AlertEvent.id).Nodup) :
    ((feed.foldl fillIn byId).map AlertEvent.id).Nodup := by
  induction feed generalizing byId with
  | nil => exact distinct
  | cons b rest ih =>
    refine ih _ ?_
    rw [fillIn_eq]
    split
    · exact distinct
    · rename_i fresh
      rw [List.map_append, List.map_singleton]
      exact distinct.append (List.nodup_singleton _) (List.disjoint_singleton.mpr fresh)

/-- The polled alarms have different identifiers, so none is written over. -/
private theorem foldl_mapSet (rest byId : List AlertEvent) (distinct : ((byId ++ rest).map AlertEvent.id).Nodup) :
    rest.foldl mapSet byId = byId ++ rest := by
  induction rest generalizing byId with
  | nil => simp
  | cons a rest ih =>
    have fresh : ¬ (byId.any fun b => decide (b.id = a.id)) = true := by
      rw [any_id]
      intro held
      rw [List.map_append, List.map_cons] at distinct
      exact (List.disjoint_of_nodup_append distinct) held List.mem_cons_self
    have joined : byId ++ a :: rest = byId ++ [a] ++ rest := by rw [List.append_assoc]; rfl
    rw [List.foldl_cons, mapSet, if_neg fresh, ih _ (joined ▸ distinct), joined]

private theorem mem_listActiveAlarms {alarms : Table ActiveAlarm.id} {row : ActiveAlarm}
    (listed : row ∈ listActiveAlarms alarms) :
    row ∈ alarms ∧ row.acknowledged = false := by
  obtain ⟨held, opened⟩ := List.mem_filter.mp (List.mem_mergeSort.mp (List.mem_of_mem_take listed))
  exact ⟨held, by simpa using opened⟩

private theorem nodup_getAlerts (answered : Bool) (alarms : Table ActiveAlarm.id) :
    ((getAlerts answered alarms).map AlertEvent.id).Nodup := by
  cases answered with
  | false => exact List.nodup_nil
  | true =>
    show (((listActiveAlarms alarms).map ofRow).map AlertEvent.id).Nodup
    have ids : ((listActiveAlarms alarms).map ofRow).map AlertEvent.id = (listActiveAlarms alarms).map ActiveAlarm.id := by
      rw [List.map_map]
      rfl
    rw [ids]
    refine (List.Sublist.map _ (List.take_sublist _ _)).nodup ?_
    refine ((List.mergeSort_perm _ _).map _).nodup_iff.mpr ?_
    exact alarms.distinct.sublist (List.filter_sublist.map _)

private theorem polled_open {answered : Bool} {alarms : Table ActiveAlarm.id} {a : AlertEvent}
    (polled : a ∈ getAlerts answered alarms) : a.acknowledged = false ∧ Open alarms a.id := by
  cases answered with
  | false => cases polled
  | true =>
    obtain ⟨row, listed, rfl⟩ := List.mem_map.mp polled
    obtain ⟨held, opened⟩ := mem_listActiveAlarms listed
    exact ⟨opened, row, held, rfl, opened⟩

section Display
variable {console : Console} {answered : Bool} {alarms : Table ActiveAlarm.id}

private theorem display_eq : console.display answered alarms =
    ((console.store.alertFeed.foldl fillIn (getAlerts answered alarms)).filter
      fun a => !a.acknowledged && a.id ∉ console.store.dismissedIds).mergeSort fun a b => b.ts ≤ a.ts := by
  rw [Console.display, displayAlerts, foldl_mapSet _ _ (by simpa using nodup_getAlerts answered alarms), List.nil_append]

private theorem mem_display {id : String} : id ∈ (console.display answered alarms).map AlertEvent.id ↔
    id ∉ console.store.dismissedIds ∧
      (id ∈ (getAlerts answered alarms).map AlertEvent.id ∨ Pushed console.store id) := by
  rw [display_eq]
  simp only [List.mem_map, List.mem_mergeSort, List.mem_filter, mem_foldl_fillIn, Bool.and_eq_true, Bool.not_eq_true',
    decide_eq_true_eq]
  constructor
  · rintro ⟨a, ⟨polled | ⟨_, latest⟩, unacknowledged, kept⟩, rfl⟩
    · exact ⟨kept, .inl ⟨a, polled, rfl⟩⟩
    · exact ⟨kept, .inr ⟨a, latest, unacknowledged⟩⟩
  · rintro ⟨kept, known⟩
    by_cases polled : ∃ a ∈ getAlerts answered alarms, a.id = id
    · obtain ⟨a, listed, rfl⟩ := polled
      exact ⟨a, ⟨.inl listed, (polled_open listed).1, kept⟩, rfl⟩
    · obtain ⟨a, latest, unacknowledged⟩ := known.resolve_left polled
      have same : a.id = id := by simpa using List.find?_some latest
      subst same
      exact ⟨a, ⟨.inr ⟨polled, latest⟩, unacknowledged, kept⟩, rfl⟩

private theorem display_once : ((console.display answered alarms).map AlertEvent.id).Nodup := by
  rw [display_eq]
  refine ((List.mergeSort_perm _ _).map _).nodup_iff.mpr ?_
  exact (nodup_foldl_fillIn _ _ (nodup_getAlerts answered alarms)).sublist (List.filter_sublist.map _)

private theorem display_newestFirst : (console.display answered alarms).Pairwise fun a b => b.ts ≤ a.ts := by
  rw [display_eq]
  refine (List.pairwise_mergeSort ?_ ?_ _).imp fun ordered => of_decide_eq_true ordered
  · intro a b c first second
    simp only [decide_eq_true_eq] at first second ⊢
    exact le_trans second first
  · intro a b
    simp only [Bool.or_eq_true, decide_eq_true_eq]
    exact le_total _ _

end Display

/-- An action adds what it dismisses to the dismissed alarms, and may forget old ones. -/
private theorem dismissed_step (state : OperatorState) (action : Action) (id : String)
    (member : id ∈ (step state action).dismissedIds) : id ∈ state.dismissedIds ∨ id ∈ dismisses state action := by
  cases action with
  | acknowledgeIncident incident =>
    dsimp only [step, OperatorState.acknowledgeIncident] at member
    exact List.mem_append.mp (mem_last500 member)
  | acknowledgeAlert alarm => exact mem_dismissed member
  | dismissAlarm alarm => exact mem_dismissed member
  | upsertIncident incident =>
    dsimp only [step, OperatorState.upsertIncident] at member
    split at member <;> exact .inl member
  | addAlert alert =>
    dsimp only [step, OperatorState.addAlert] at member
    split at member <;> exact .inl member
  | clearAlerts => exact .inl member
  | patchAlertSnapshot alarmId snapshotUrl => exact .inl member
  | patchAlertAI alarmId data => exact .inl member
  | escalateActiveAlarm now =>
    dsimp only [step, OperatorState.escalateActiveAlarm] at member
    split at member <;> exact .inl member
  | engageAlarm alert now =>
    dsimp only [step, OperatorState.engageAlarm, OperatorState.claimAlert] at member
    split at member <;> exact .inl member
  | resolveAlarm dispositionCode resolvedAt =>
    dsimp only [step, OperatorState.resolveAlarm] at member
    cases active : state.activeAlarm with
    | none =>
      rw [active] at member
      exact .inl member
    | some alarm =>
      rw [active] at member
      rw [dismisses, active]
      exact mem_dismissed member
  | abandonAlarm =>
    dsimp only [step, OperatorState.abandonAlarm, OperatorState.releaseAlert] at member
    split at member <;> exact .inl member

/-- What the store remembers as dismissed was dismissed. -/
private theorem dismissed_of_remembered (currentOperator : Option SOCOperator) (persisted : List String)
    (actions : List Action) :
    ∀ id ∈ (exec act (opened currentOperator persisted) actions).store.dismissedIds,
      id ∈ (exec act (opened currentOperator persisted) actions).everDismissed := by
  have kept : ∀ (console : Console) (action : Action), (∀ id ∈ console.store.dismissedIds, id ∈ console.everDismissed) →
      ∀ id ∈ (act console action).store.dismissedIds, id ∈ (act console action).everDismissed := by
    intro console action before id member
    refine List.mem_append.mpr ?_
    rcases dismissed_step console.store action id member with old | new
    · exact .inl (before id old)
    · exact .inr new
  exact exec_invariant kept actions _ fun _ member => member

/-- After any actions and a poll, the console lists the open alarms that its operator has not
dismissed, each once and the newest first, exactly if the store is in step with the server. -/
theorem lists_open_alarms_iff (currentOperator : Option SOCOperator) (persisted : List String) (actions : List Action)
    (answered : Bool) (alarms : Table ActiveAlarm.id) :
    Lists ((exec act (opened currentOperator persisted) actions).display answered alarms) alarms
        (exec act (opened currentOperator persisted) actions).everDismissed ↔
      InStep (exec act (opened currentOperator persisted) actions) answered alarms := by
  have remembered := dismissed_of_remembered currentOperator persisted actions
  generalize exec act (opened currentOperator persisted) actions = console at remembered ⊢
  have polled : ∀ id, id ∈ (getAlerts answered alarms).map AlertEvent.id → Open alarms id := by
    intro id member
    obtain ⟨a, listed, rfl⟩ := List.mem_map.mp member
    exact (polled_open listed).2
  constructor
  · rintro ⟨exactly, _, _⟩
    refine ⟨?_, ?_, ?_⟩
    all_goals
      intro id
      have here := exactly id
      rw [mem_display] at here
      have ever := remembered id
      tauto
  · rintro ⟨stale, known, remembers⟩
    refine ⟨fun id => ?_, display_once, display_newestFirst⟩
    rw [mem_display]
    have ever := remembered id
    have opened := polled id
    have stale := stale id
    have known := known id
    have remembers := remembers id
    tauto

/-! ## An alarm acknowledged elsewhere, and a hundred and one alarms -/

private def opening : ActiveAlarm := { id := "A", alarmCode := "ALM-260526-0001", incidentId := "", siteId := "S-1", ts := 1 }

/-- The alarm after another operator has acknowledged it. -/
private def acknowledgedElsewhere : Table ActiveAlarm.id := ⟨[{ opening with acknowledged := true }], List.nodup_singleton _⟩

/-- More than a hundred open alarms are never all listed by a console that has just been opened. -/
private theorem many_not_listed {answered : Bool} {alarms : Table ActiveAlarm.id} (currentOperator : Option SOCOperator)
    (many : 100 < (alarms.rows.filter fun row => !row.acknowledged).length) :
    ¬ Lists ((opened currentOperator []).display answered alarms) alarms [] := by
  rintro ⟨exactly, _, _⟩
  have listed : (alarms.rows.filter fun row => !row.acknowledged).map ActiveAlarm.id ⊆
      (getAlerts answered alarms).map AlertEvent.id := by
    intro id member
    obtain ⟨row, held, rfl⟩ := List.mem_map.mp member
    obtain ⟨present, unacknowledged⟩ := List.mem_filter.mp held
    have shown := (exactly row.id).mpr ⟨⟨row, present, rfl, by simpa using unacknowledged⟩, List.not_mem_nil⟩
    refine (mem_display.mp shown).2.resolve_right ?_
    rintro ⟨a, pushed, _⟩
    cases pushed
  have distinct : ((alarms.rows.filter fun row => !row.acknowledged).map ActiveAlarm.id).Nodup :=
    alarms.distinct.sublist (List.filter_sublist.map _)
  have fits := (distinct.subperm listed).length_le
  have cut : ((getAlerts answered alarms).map AlertEvent.id).length ≤ 100 := by
    cases answered with
    | false => exact Nat.zero_le _
    | true =>
      rw [getAlerts, if_pos rfl, List.length_map, List.length_map]
      exact List.length_take_le _ _
  rw [List.length_map] at fits
  omega

/-- Open alarms, one for each millisecond. -/
private def crowd : Table ActiveAlarm.id where
  rows := (List.range 101).map fun n : Nat => { opening with
    id := String.ofList (List.replicate (n + 1) 'A')
    ts := n }
  distinct := by
    rw [List.map_map]
    refine List.nodup_range.map fun first second same => ?_
    have letters : List.replicate (first + 1) 'A' = List.replicate (second + 1) 'A' := String.ofList_inj.mp same
    simpa using congrArg List.length letters

/-- An alarm that another console acknowledged is still shown; of 101 open ones a hundred come. -/
theorem open_alarms_not_listed :
    ¬ Lists ((exec act (opened none []) [.addAlert (ofRow opening)]).display true acknowledgedElsewhere) acknowledgedElsewhere
      (exec act (opened none []) [.addAlert (ofRow opening)]).everDismissed ∧
    ¬ Lists ((exec act (opened none []) []).display true crowd) crowd (exec act (opened none []) []).everDismissed := by
  constructor
  · rintro ⟨exactly, _, _⟩
    have shown := (exactly "A").mp (mem_display.mpr ⟨List.not_mem_nil, .inr ⟨ofRow opening, rfl, rfl⟩⟩)
    obtain ⟨row, held, _, unacknowledged⟩ := shown.1
    rw [List.mem_singleton.mp held] at unacknowledged
    cases unacknowledged
  · exact many_not_listed none (by decide)

end Ironsight.OperatorDisplay
