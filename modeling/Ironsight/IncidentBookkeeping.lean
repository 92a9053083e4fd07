import Ironsight.AlarmPipeline

/-! Whether an incident's alarm count, its alarms and its acknowledgement agree
once every goroutine and every acknowledgement is through. In between they do
not: a goroutine counts its alarm first and inserts it later. The invariant
adds to the stored alarms those that goroutines still owe. -/
namespace Ironsight.IncidentBookkeeping
open Tables Runs Access Soc AlarmPipeline

/-- The alarms stored under an incident. -/
def alarmsOf (alarms : Table ActiveAlarm.id) (incidentId : String) : Nat :=
  alarms.rows.countP fun alarm => alarm.incidentId = incidentId

/-- Counts are right, no incident is empty, and an acknowledged incident has no
unacknowledged alarm. -/
structure Consistent (db : Store) : Prop where
  counted : ∀ incident ∈ db.incidents, incident.alarmCount = alarmsOf db.alarms incident.id
  occupied : ∀ incident ∈ db.incidents, ∃ alarm ∈ db.alarms, alarm.incidentId = incident.id
  acknowledged : ∀ incident ∈ db.incidents, incident.status = .acknowledged →
    ∀ alarm ∈ db.alarms, alarm.incidentId = incident.id → alarm.acknowledged = true

/-- The foreign key of `active_alarms`. -/
def Linked (db : Store) : Prop := ∀ alarm ∈ db.alarms, ∃ incident ∈ db.incidents, incident.id = alarm.incidentId

/-- Every thread is through. -/
def Quiet (pool : Pipeline) : Prop := ∀ thread ∈ pool.threads, thread.finished = true

/-- Only the insert of an alarm may fail, its code included. -/
def OnlyAlarmsFail (env : Env) (thread : Thread) : Prop :=
  match thread with
  | .nextAlarmCode _ _ _ | .insertAlarm _ _ _ _ => True
  | _ => env.fails = false

/-- The incident a goroutine has counted its alarm in, before the alarm is there
or the incident taken back. -/
def owes : Thread → Option String
  | .nextAlarmCode _ id _ | .insertAlarm _ id _ _ | .deleteIncident id => some id
  | _ => none

/-- An alarm that the insert does not take. -/
def Refused (world : World) (env : Env) (draft : Draft) (code : String) : Prop :=
  env.fails = true ∨ (∃ alarm ∈ world.alarms, alarm.alarmCode = code) ∨
    ∃ alarm ∈ world.alarms, alarm.id = draft.alarmId

/-- The incident is not in the table. -/
def Missing (world : World) (id : String) : Prop := ∀ incident ∈ world.incidents, incident.id ≠ id

/-- The statements that keep the books right: an incident is opened under an id
that no goroutine still goes by, a goroutine that extended an incident gets its
alarm in, nobody extended an incident that its creator takes back, and no alarm
is inserted under an incident whose acknowledgement is through. -/
def KeepsBooks (pool : Pipeline) (env : Env) (thread : Thread) : Prop :=
  match thread with
  | .insertIncident _ id => env.fails = false → Missing pool.shared id →
      ∀ other ∈ pool.threads, owes other ≠ some id
  | .nextAlarmCode _ id false => env.fails = true ∨ nextAlarmCode pool.shared.alarms env.millis = none →
      Missing pool.shared id
  | .insertAlarm draft id isNew code =>
      (isNew = false → Refused pool.shared env draft code → Missing pool.shared id) ∧
        (¬ Refused pool.shared env draft code → ∀ incident ∈ pool.shared.incidents, incident.id = id →
          incident.status = .acknowledged → .ackAlarms id ∈ pool.threads)
  | .deleteIncident id => ∀ incident ∈ pool.shared.incidents, incident.id = id → incident.alarmCount = 1
  | _ => True

instance consistentDecidable (db : Store) : Decidable (Consistent db) :=
  decidable_of_iff ((∀ incident ∈ db.incidents, incident.alarmCount = alarmsOf db.alarms incident.id) ∧
      (∀ incident ∈ db.incidents, ∃ alarm ∈ db.alarms, alarm.incidentId = incident.id) ∧
      ∀ incident ∈ db.incidents, incident.status = .acknowledged →
        ∀ alarm ∈ db.alarms, alarm.incidentId = incident.id → alarm.acknowledged = true)
    ⟨fun facts => ⟨facts.1, facts.2.1, facts.2.2⟩, fun facts => ⟨facts.1, facts.2, facts.3⟩⟩

instance quietDecidable (pool : Pipeline) : Decidable (Quiet pool) :=
  inferInstanceAs (Decidable (∀ thread ∈ pool.threads, thread.finished = true))

instance onlyAlarmsFailDecidable (env : Env) : (thread : Thread) → Decidable (OnlyAlarmsFail env thread)
  | .nextAlarmCode _ _ _ | .insertAlarm _ _ _ _ => isTrue trivial
  | .callback _ | .dropped | .getCamera _ | .unassigned | .findIncident _ | .nextIncidentID _ | .insertIncident _ _
  | .attachAlarm _ _ | .deleteIncident _ | .lost | .raised _ _ | .ackIncident _ | .ackAlarms _ | .replied _ =>
    inferInstanceAs (Decidable (env.fails = false))

instance refusedDecidable (world : World) (env : Env) (draft : Draft) (code : String) :
    Decidable (Refused world env draft code) :=
  inferInstanceAs (Decidable (env.fails = true ∨ (∃ alarm ∈ world.alarms, alarm.alarmCode = code) ∨
    ∃ alarm ∈ world.alarms, alarm.id = draft.alarmId))

instance missingDecidable (world : World) (id : String) : Decidable (Missing world id) :=
  inferInstanceAs (Decidable (∀ incident ∈ world.incidents, incident.id ≠ id))

instance keepsBooksDecidable (pool : Pipeline) (env : Env) : (thread : Thread) → Decidable (KeepsBooks pool env thread)
  | .insertIncident _ id => inferInstanceAs (Decidable (env.fails = false → Missing pool.shared id →
      ∀ other ∈ pool.threads, owes other ≠ some id))
  | .nextAlarmCode _ id false => inferInstanceAs (Decidable
      (env.fails = true ∨ nextAlarmCode pool.shared.alarms env.millis = none → Missing pool.shared id))
  | .insertAlarm draft id isNew code => inferInstanceAs (Decidable (
      (isNew = false → Refused pool.shared env draft code → Missing pool.shared id) ∧
        (¬ Refused pool.shared env draft code → ∀ incident ∈ pool.shared.incidents, incident.id = id →
          incident.status = .acknowledged → .ackAlarms id ∈ pool.threads)))
  | .deleteIncident id => inferInstanceAs (Decidable (
      ∀ incident ∈ pool.shared.incidents, incident.id = id → incident.alarmCount = 1))
  | .nextAlarmCode _ _ true | .callback _ | .dropped | .getCamera _ | .unassigned | .findIncident _
  | .nextIncidentID _ | .attachAlarm _ _ | .lost | .raised _ _ | .ackIncident _ | .ackAlarms _ | .replied _ =>
    isTrue trivial

/-! ## The invariant -/

/-- The alarms that goroutines owe to an incident. -/
def owed (threads : List Thread) (incidentId : String) : Nat :=
  threads.countP fun thread => owes thread = some incidentId

/-- The incident a goroutine opens or has opened itself. -/
def opens : Thread → Option String
  | .insertIncident _ id | .nextAlarmCode _ id true | .insertAlarm _ id true _ => some id
  | _ => none

structure Balanced (pool : Pipeline) : Prop where
  linked : Linked pool.shared.toStore
  counted : ∀ incident ∈ pool.shared.incidents,
    incident.alarmCount = alarmsOf pool.shared.alarms incident.id + owed pool.threads incident.id
  positive : ∀ incident ∈ pool.shared.incidents, 0 < incident.alarmCount
  acknowledged : ∀ incident ∈ pool.shared.incidents, incident.status = .acknowledged →
    ∀ alarm ∈ pool.shared.alarms, alarm.incidentId = incident.id →
      alarm.acknowledged = true ∨ .ackAlarms incident.id ∈ pool.threads
  named : ∀ thread ∈ pool.threads, ∀ id ∈ opens thread, id ≠ ""

private theorem owed_set {threads : List Thread} {thread : Nat} {current : Thread}
    (running : threads[thread]? = some current) (after : Thread) (id : String) :
    owed (threads.set thread after) id + (if owes current = some id then 1 else 0) =
      owed threads id + if owes after = some id then 1 else 0 := by
  simpa [owed] using countP_set_add (fun thread => decide (owes thread = some id)) running after

private theorem alarmsOf_eq_zero {alarms : Table ActiveAlarm.id} {id : String} :
    alarmsOf alarms id = 0 ↔ ∀ alarm ∈ alarms, alarm.incidentId ≠ id := by
  simp [alarmsOf, List.countP_eq_zero, Table.mem_def]

private theorem owed_eq_zero {threads : List Thread} {id : String} :
    owed threads id = 0 ↔ ∀ thread ∈ threads, owes thread ≠ some id := by
  simp [owed, List.countP_eq_zero]

private theorem owes_of_finished {thread : Thread} (finished : thread.finished = true) : owes thread = none := by
  cases thread <;> first | rfl | cases finished

/-- When all threads are through, nothing is owed and the books are right. -/
theorem Balanced.consistent {pool : Pipeline} (balanced : Balanced pool) (quiet : Quiet pool) :
    Consistent pool.shared.toStore := by
  have settled (id : String) : owed pool.threads id = 0 := by
    refine owed_eq_zero.mpr fun thread member held => ?_
    rw [owes_of_finished (quiet thread member)] at held
    cases held
  have counted : ∀ incident ∈ pool.shared.incidents,
      incident.alarmCount = alarmsOf pool.shared.alarms incident.id := by
    intro incident held
    rw [balanced.counted incident held, settled, Nat.add_zero]
  refine ⟨counted, fun incident held => ?_, fun incident held done alarm stored below => ?_⟩
  · by_contra empty
    have none_ : alarmsOf pool.shared.alarms incident.id = 0 :=
      alarmsOf_eq_zero.mpr fun alarm stored below => empty ⟨alarm, stored, below⟩
    have positive := balanced.positive incident held
    rw [counted incident held, none_] at positive
    exact Nat.lt_irrefl 0 positive
  · rcases balanced.acknowledged incident held done alarm stored below with marked | pending
    · exact marked
    · cases quiet _ pending

theorem Balanced.initial {world : World} (linked : Linked world.toStore) (consistent : Consistent world.toStore) :
    Balanced ⟨world, []⟩ where
  linked := linked
  counted incident held := consistent.counted incident held
  positive incident held := by
    rw [consistent.counted incident held]
    obtain ⟨alarm, stored, below⟩ := consistent.occupied incident held
    exact List.countP_pos_iff.mpr ⟨alarm, stored, by simpa using below⟩
  acknowledged incident held done alarm stored below :=
    .inl (consistent.acknowledged incident held done alarm stored below)
  named _ held := absurd held List.not_mem_nil

private theorem Balanced.spawn {pool : Pipeline} (balanced : Balanced pool) (request : Request) :
    Balanced { pool with threads := pool.threads ++ [pipeline.start request] } := by
  have free : owes (pipeline.start request) = none ∧ opens (pipeline.start request) = none := by
    cases request <;> exact ⟨rfl, rfl⟩
  have same (id : String) : owed (pool.threads ++ [pipeline.start request]) id = owed pool.threads id := by
    simp [owed, free.1]
  exact {
    linked := balanced.linked
    counted := fun incident held => by rw [same]; exact balanced.counted incident held
    positive := balanced.positive
    acknowledged := fun incident held done alarm stored below =>
      (balanced.acknowledged incident held done alarm stored below).imp_right (List.mem_append_left _)
    named := forall_mem_append balanced.named (by simp [free.2]) }

/-! ## One statement -/

/-- The delete takes away the incident and leaves the alarms, if none of them is
below it. -/
private theorem deleteOrphan_spec {db : Store} {id : String}
    (single : ∀ incident ∈ db.incidents, incident.id = id → incident.alarmCount = 1)
    (empty : ∀ alarm ∈ db.alarms, alarm.incidentId ≠ id) :
    (deleteOrphan db id).2 = db.alarms ∧
      ∀ incident, incident ∈ (deleteOrphan db id).1 ↔ incident ∈ db.incidents ∧ incident.id ≠ id := by
  have unreferenced : ¬ ∃ alarm ∈ db.alarms, alarm.incidentId = id :=
    fun ⟨alarm, stored, below⟩ => empty alarm stored below
  unfold deleteOrphan
  by_cases present : ∃ incident ∈ db.incidents, orphan id incident = true
  · rw [if_pos present, if_neg unreferenced]
    refine ⟨rfl, fun incident => ?_⟩
    simp only [Table.mem_def, Table.remove, List.mem_filter, orphan, Bool.not_eq_true', decide_eq_false_iff_not]
    constructor
    · rintro ⟨held, spared⟩
      exact ⟨held, fun same => spared ⟨same, single incident held same⟩⟩
    · rintro ⟨held, other⟩
      exact ⟨held, fun doomed => other doomed.1⟩
  · rw [if_neg present]
    refine ⟨rfl, fun incident => ⟨fun held => ⟨held, fun same => present ?_⟩, And.left⟩⟩
    exact ⟨incident, held, by simpa [orphan] using ⟨same, single incident held same⟩⟩

section Statements
variable {pool : Pipeline} {thread : Nat} {current : Thread}
variable (balanced : Balanced pool) (running : pool.threads[thread]? = some current)
include balanced running

/-- A statement that writes neither table and changes no debt to an incident
that is there. -/
private theorem Balanced.unwritten {after : Thread} {changed : World}
    (incidents : changed.incidents = pool.shared.incidents) (alarms : changed.alarms = pool.shared.alarms)
    (debts : ∀ incident ∈ pool.shared.incidents, owes after = some incident.id ↔ owes current = some incident.id)
    (acks : ∀ id, current = .ackAlarms id → after = .ackAlarms id) (named : ∀ id ∈ opens after, id ≠ "") :
    Balanced { shared := changed, threads := pool.threads.set thread after } where
  linked := by
    unfold Linked
    rw [incidents, alarms]
    exact balanced.linked
  counted incident held := by
    rw [incidents] at held
    have before := balanced.counted incident held
    have moved := owed_set running after incident.id
    simp only [debts incident held] at moved
    simp only [alarms]
    omega
  positive := incidents ▸ balanced.positive
  acknowledged incident held done alarm stored below := by
    rw [incidents] at held
    rw [alarms] at stored
    refine (balanced.acknowledged incident held done alarm stored below).imp_right fun pending => ?_
    by_cases here : current = .ackAlarms incident.id
    · rw [acks _ here]
      exact List.mem_set (List.getElem?_eq_some_iff.mp running).1 _
    · exact mem_set_of_ne running pending fun same => here same.symm
  named := forall_mem_set balanced.named named

/-- A debt is taken back only where the incident is gone or its creator goes on
to delete it. -/
private theorem Balanced.failed {id : String} {isNew : Bool} (debt : owes current = some id)
    (opened : isNew = true → id ≠ "") (gone : isNew = false → Missing pool.shared id)
    (acks : ∀ other, current ≠ .ackAlarms other) :
    Balanced { shared := pool.shared, threads := pool.threads.set thread (afterFailure id isNew) } := by
  refine balanced.unwritten running rfl rfl (fun incident held => ?_) (fun other same => absurd same (acks other)) ?_
  · rw [debt]
    cases isNew with
    | true => simp [afterFailure, opened rfl, owes]
    | false =>
      have elsewhere : id ≠ incident.id := fun same => gone rfl incident held same.symm
      simp [afterFailure, owes, elsewhere]
  · unfold afterFailure
    split <;> exact nofun

private theorem Balanced.opened {draft : Draft} {id : String} {incidents : Table Incident.id}
    (here : current = .insertIncident draft id) (done : pool.shared.incidents.insert? (draft.incident id) = some incidents)
    (free : ∀ other ∈ pool.threads, owes other ≠ some id) :
    Balanced {
      shared := { pool.shared with incidents := incidents }
      threads := pool.threads.set thread (.nextAlarmCode draft id true) } := by
  subst here
  have fresh : Missing pool.shared id := Table.insert?_fresh done
  have cases_ {incident : Incident} (held : incident ∈ incidents) :
      incident ∈ pool.shared.incidents ∨ incident = draft.incident id := (Table.mem_insert? done).mp held
  have empty : ∀ alarm ∈ pool.shared.alarms, alarm.incidentId ≠ id := by
    intro alarm stored below
    obtain ⟨incident, held, same⟩ := balanced.linked alarm stored
    exact fresh incident held (same.trans below)
  refine ⟨?_, ?_, ?_, ?_, ?_⟩
  · intro alarm stored
    obtain ⟨incident, held, same⟩ := balanced.linked alarm stored
    exact ⟨incident, (Table.mem_insert? done).mpr (.inl held), same⟩
  · intro incident held
    have moved := owed_set running (.nextAlarmCode draft id true) incident.id
    rcases cases_ held with old | rfl
    · have before := balanced.counted incident old
      have elsewhere : id ≠ incident.id := fun same => fresh incident old same.symm
      simp only [owes, reduceCtorEq, if_false, Option.some.injEq, elsewhere] at moved
      simp only
      omega
    · have none_ : owed pool.threads id = 0 := owed_eq_zero.mpr free
      have stored : alarmsOf pool.shared.alarms id = 0 := alarmsOf_eq_zero.mpr empty
      simp only [owes, reduceCtorEq, if_false, Draft.incident, if_true, none_] at moved
      simp only [Draft.incident, stored]
      omega
  · intro incident held
    rcases cases_ held with old | rfl
    · exact balanced.positive incident old
    · exact Nat.one_pos
  · intro incident held done_ alarm stored below
    rcases cases_ held with old | rfl
    · exact (balanced.acknowledged incident old done_ alarm stored below).imp_right
        fun pending => mem_set_of_ne running pending nofun
    · cases done_
  · refine forall_mem_set balanced.named fun other given => ?_
    exact balanced.named _ (List.mem_of_getElem? running) other given

private theorem Balanced.attached {draft : Draft} {id : String} (here : current = .attachAlarm draft id) :
    Balanced {
      shared := { pool.shared with incidents := attachAlarmToIncident pool.shared.incidents draft id }
      threads := pool.threads.set thread (.nextAlarmCode draft id false) } := by
  subst here
  refine ⟨?_, ?_, ?_, ?_, forall_mem_set balanced.named nofun⟩
  · intro alarm stored
    obtain ⟨incident, held, same⟩ := balanced.linked alarm stored
    refine ⟨_, mem_attachAlarmToIncident.mpr ⟨incident, held, rfl⟩, ?_⟩
    split <;> exact same
  · intro incident held
    obtain ⟨old, member, rfl⟩ := mem_attachAlarmToIncident.mp held
    have before := balanced.counted old member
    have moved := owed_set running (.nextAlarmCode draft id false) old.id
    by_cases own : old.id = id
    · simp only [owes, reduceCtorEq, if_false, own, if_true] at moved
      simp only [own, if_true, Draft.attached]
      rw [own] at before
      omega
    · have elsewhere : id ≠ old.id := fun same => own same.symm
      simp only [owes, reduceCtorEq, if_false, Option.some.injEq, elsewhere] at moved
      simp only [own, if_false]
      omega
  · intro incident held
    obtain ⟨old, member, rfl⟩ := mem_attachAlarmToIncident.mp held
    have positive := balanced.positive old member
    split
    · exact Nat.succ_pos _
    · exact positive
  · intro incident held done alarm stored below
    obtain ⟨old, member, rfl⟩ := mem_attachAlarmToIncident.mp held
    have status : old.status = .acknowledged := by
      split at done <;> exact done
    have sameId : (if old.id = id then draft.attached old else old).id = old.id := by
      split <;> rfl
    rw [sameId] at below ⊢
    exact (balanced.acknowledged old member status alarm stored below).imp_right
      fun pending => mem_set_of_ne running pending nofun

private theorem Balanced.raised {draft : Draft} {id code : String} {isNew : Bool} {alarms : Table ActiveAlarm.id}
    (here : current = .insertAlarm draft id isNew code)
    (done : createActiveAlarm pool.shared.toStore (draft.alarm id code) = some alarms)
    (waiting : ∀ incident ∈ pool.shared.incidents, incident.id = id → incident.status = .acknowledged →
      .ackAlarms id ∈ pool.threads) :
    Balanced {
      shared := { pool.shared with alarms := alarms }
      threads := pool.threads.set thread (.raised draft id) } := by
  subst here
  obtain ⟨_, ⟨parent, parentHeld, parentId⟩, inserted⟩ := createActiveAlarm_some.mp done
  have stays (other : String) (pending : .ackAlarms other ∈ pool.threads) :
      .ackAlarms other ∈ pool.threads.set thread (.raised draft id) := mem_set_of_ne running pending nofun
  refine ⟨?_, ?_, balanced.positive, ?_, forall_mem_set balanced.named nofun⟩
  · intro alarm stored
    rcases (Table.mem_insert? inserted).mp stored with old | rfl
    · exact balanced.linked alarm old
    · exact ⟨parent, parentHeld, parentId⟩
  · intro incident held
    have before := balanced.counted incident held
    have moved := owed_set running (.raised draft id) incident.id
    have stored : alarmsOf alarms incident.id =
        alarmsOf pool.shared.alarms incident.id + if id = incident.id then 1 else 0 := by
      simp [alarmsOf, Table.insert?_rows inserted, List.countP_append, List.countP_singleton, Draft.alarm]
    simp only [owes, reduceCtorEq, if_false, Option.some.injEq] at moved
    simp only [stored]
    omega
  · intro incident held status alarm stored below
    rcases (Table.mem_insert? inserted).mp stored with old | rfl
    · exact (balanced.acknowledged incident held status alarm old below).imp_right (stays _)
    · have same : incident.id = id := below.symm
      rw [same]
      exact .inr (stays id (waiting incident held same status))

private theorem Balanced.deleted {id : String} (here : current = .deleteIncident id)
    (single : ∀ incident ∈ pool.shared.incidents, incident.id = id → incident.alarmCount = 1) :
    Balanced {
      shared := { pool.shared with
        incidents := (deleteOrphan pool.shared.toStore id).1, alarms := (deleteOrphan pool.shared.toStore id).2 }
      threads := pool.threads.set thread .lost } := by
  subst here
  -- The goroutine itself accounts for the one alarm that is counted.
  have empty : ∀ alarm ∈ pool.shared.alarms, alarm.incidentId ≠ id := by
    intro alarm stored below
    obtain ⟨incident, held, same⟩ := balanced.linked alarm stored
    have own : incident.id = id := same.trans below
    have counted := balanced.counted incident held
    rw [single incident held own, own] at counted
    have owing : 0 < owed pool.threads id :=
      List.countP_pos_iff.mpr ⟨_, List.mem_of_getElem? running, by simp [owes]⟩
    have stored_ : 0 < alarmsOf pool.shared.alarms id :=
      List.countP_pos_iff.mpr ⟨alarm, stored, by simpa using below⟩
    omega
  obtain ⟨alarms, remaining⟩ := deleteOrphan_spec single empty
  refine ⟨?_, ?_, ?_, ?_, forall_mem_set balanced.named nofun⟩
  · intro alarm stored
    simp only [alarms] at stored
    obtain ⟨incident, held, same⟩ := balanced.linked alarm stored
    exact ⟨incident, (remaining incident).mpr ⟨held, fun own => empty alarm stored (same.symm.trans own)⟩, same⟩
  · intro incident held
    obtain ⟨member, other⟩ := (remaining incident).mp held
    have before := balanced.counted incident member
    have moved := owed_set running .lost incident.id
    have elsewhere : id ≠ incident.id := fun same => other same.symm
    simp only [owes, reduceCtorEq, if_false, Option.some.injEq, elsewhere] at moved
    simp only [alarms]
    omega
  · exact fun incident held => balanced.positive incident ((remaining incident).mp held).1
  · intro incident held status alarm stored below
    simp only [alarms] at stored
    exact (balanced.acknowledged incident ((remaining incident).mp held).1 status alarm stored below).imp_right
      fun pending => mem_set_of_ne running pending nofun

private theorem Balanced.ackedIncident {id : String} (here : current = .ackIncident id) :
    Balanced {
      shared := { pool.shared with incidents := acknowledgeIncident pool.shared.incidents id }
      threads := pool.threads.set thread (.ackAlarms id) } := by
  subst here
  have inside := (List.getElem?_eq_some_iff.mp running).1
  refine ⟨?_, ?_, ?_, ?_, forall_mem_set balanced.named nofun⟩
  · intro alarm stored
    obtain ⟨incident, held, same⟩ := balanced.linked alarm stored
    refine ⟨_, mem_acknowledgeIncident.mpr ⟨incident, held, rfl⟩, ?_⟩
    split <;> exact same
  · intro incident held
    obtain ⟨old, member, rfl⟩ := mem_acknowledgeIncident.mp held
    have before := balanced.counted old member
    have moved := owed_set running (.ackAlarms id) old.id
    simp only [owes, reduceCtorEq, if_false] at moved
    split <;> (simp only; omega)
  · intro incident held
    obtain ⟨old, member, rfl⟩ := mem_acknowledgeIncident.mp held
    have positive := balanced.positive old member
    split <;> exact positive
  · intro incident held status alarm stored below
    obtain ⟨old, member, rfl⟩ := mem_acknowledgeIncident.mp held
    by_cases own : old.id = id
    · simp only [own, if_true]
      exact .inr (List.mem_set inside _)
    · simp only [own, if_false] at status below ⊢
      exact (balanced.acknowledged old member status alarm stored below).imp_right
        fun pending => mem_set_of_ne running pending nofun

private theorem Balanced.ackedAlarms {id : String} (here : current = .ackAlarms id) :
    Balanced {
      shared := { pool.shared with alarms := acknowledgeAlarms pool.shared.alarms id }
      threads := pool.threads.set thread (.replied 200) } := by
  subst here
  refine ⟨?_, ?_, balanced.positive, ?_, forall_mem_set balanced.named nofun⟩
  · intro alarm stored
    obtain ⟨old, member, rfl⟩ := mem_acknowledgeAlarms.mp stored
    obtain ⟨incident, held, same⟩ := balanced.linked old member
    refine ⟨incident, held, ?_⟩
    split <;> exact same
  · intro incident held
    have before := balanced.counted incident held
    have moved := owed_set running (.replied 200) incident.id
    have stored : alarmsOf (acknowledgeAlarms pool.shared.alarms id) incident.id =
        alarmsOf pool.shared.alarms incident.id := by
      unfold alarmsOf acknowledgeAlarms Table.modify
      rw [List.countP_map]
      refine List.countP_congr fun alarm _ => ?_
      simp only [Function.comp_apply]
      split <;> rfl
    simp only [owes, reduceCtorEq, if_false] at moved
    simp only [stored]
    omega
  · intro incident held status alarm stored below
    obtain ⟨old, member, rfl⟩ := mem_acknowledgeAlarms.mp stored
    by_cases own : old.incidentId = id
    · simp only [own, if_true]
      exact .inl trivial
    · simp only [own, if_false] at below ⊢
      refine (balanced.acknowledged incident held status old member below).imp_right fun pending => ?_
      refine mem_set_of_ne running pending fun same => own ?_
      rw [below]
      exact Thread.ackAlarms.inj same

end Statements

/-! ## All statements of a run -/

private theorem refused_or_missing {world : World} {env : Env} {draft : Draft} {id code : String}
    (why : env.fails = true ∨ createActiveAlarm world.toStore (draft.alarm id code) = none) :
    Refused world env draft code ∨ Missing world id := by
  by_contra clear
  obtain ⟨accepted, present⟩ := not_or.mp clear
  obtain ⟨sound, code_, id_⟩ : env.fails ≠ true ∧ (¬ ∃ alarm ∈ world.alarms, alarm.alarmCode = code) ∧
      ¬ ∃ alarm ∈ world.alarms, alarm.id = draft.alarmId := by simpa [Refused, not_or] using accepted
  rcases why with failed | refused
  · exact sound failed
  · refine present fun incident held same => ?_
    have fresh : ∀ other ∈ world.alarms, other.id ≠ (draft.alarm id code).id :=
      fun other stored taken => id_ ⟨other, stored, taken⟩
    obtain ⟨alarms, inserted⟩ := Table.insert?_of_fresh fresh
    have done := createActiveAlarm_some.mpr
      ⟨fun other stored taken => code_ ⟨other, stored, taken⟩, ⟨incident, held, same⟩, inserted⟩
    rw [refused] at done
    cases done

private theorem accepted_of_created {world : World} {env : Env} {draft : Draft} {id code : String}
    {alarms : Table ActiveAlarm.id} (sound : env.fails = false)
    (done : createActiveAlarm world.toStore (draft.alarm id code) = some alarms) :
    ¬ Refused world env draft code := by
  obtain ⟨codes, _, inserted⟩ := createActiveAlarm_some.mp done
  rintro (failed | ⟨alarm, stored, same⟩ | ⟨alarm, stored, same⟩)
  · rw [sound] at failed
    cases failed
  · exact codes alarm stored same
  · exact Table.insert?_fresh inserted alarm stored same

private theorem Balanced.run {world changed : World} {threads : List Thread} {thread : Nat} {env : Env}
    {current after : Thread} (balanced : Balanced ⟨world, threads⟩) (running : threads[thread]? = some current)
    (outcome : Outcome env current world after changed) (failures : OnlyAlarmsFail env current)
    (careful : KeepsBooks ⟨world, threads⟩ env current) :
    Balanced { shared := changed, threads := threads.set thread after } := by
  have named := balanced.named current (List.mem_of_getElem? running)
  cases outcome with
  | incidentID id read =>
    refine balanced.unwritten running rfl rfl (by simp [owes]) nofun fun other given => ?_
    cases given
    exact nextIncidentID_ne_empty read
  | incidentOpened incidents done =>
    exact balanced.opened running rfl done (careful failures (Table.insert?_fresh done))
  | attachFailed failed =>
    rw [show env.fails = false from failures] at failed
    cases failed
  | attached => exact balanced.attached running rfl
  | @noAlarmCode draft id isNew _ why =>
    refine balanced.failed running rfl (fun new => ?_) (fun old => ?_) nofun
    · subst new
      exact named id rfl
    · subst old
      exact careful why
  | @alarmCode draft id isNew _ code read =>
    refine balanced.unwritten running rfl rfl (fun _ _ => Iff.rfl) nofun fun other given => ?_
    cases isNew with
    | true => exact named other given
    | false => cases given
  | @alarmRefused draft id isNew code _ why =>
    refine balanced.failed running rfl (fun new => ?_) (fun old => ?_) nofun
    · subst new
      exact named id rfl
    · rcases refused_or_missing why with refused | missing
      · exact careful.1 old refused
      · exact missing
  | alarmRaised alarms sound done =>
    exact balanced.raised running rfl done (careful.2 (accepted_of_created sound done))
  | deleteFailed failed =>
    rw [show env.fails = false from failures] at failed
    cases failed
  | deleted => exact balanced.deleted running rfl careful
  | ackedIncident => exact balanced.ackedIncident running rfl
  | ackAlarmsFailed failed =>
    rw [show env.fails = false from failures] at failed
    cases failed
  | ackedAlarms => exact balanced.ackedAlarms running rfl
  | idle => exact balanced.unwritten running rfl rfl (fun _ _ => Iff.rfl) (fun _ same => same) named
  | _ => exact balanced.unwritten running rfl rfl (by simp [owes]) nofun nofun

private theorem Balanced.step {pool : Pipeline} {move : Move Request Env} (balanced : Balanced pool)
    (failures : OnStatement (fun _ => OnlyAlarmsFail) pool move) (careful : OnStatement KeepsBooks pool move) :
    Balanced (pipeline.step pool move) := by
  refine Program.step_preserves Balanced balanced move (fun request _ => balanced.spawn request) ?_
  rintro thread env current rfl running
  exact balanced.run running (next_outcome env current pool.shared) (failures current running)
    (careful current running)

/-- From consistent books, with only alarm inserts failing and careful statements
otherwise, the books are right whenever all goroutines and acknowledgements are
through. -/
theorem books_right_when_quiet (world : World) (linked : Linked world.toStore) (consistent : Consistent world.toStore)
    (moves : List (Move Request Env))
    (failures : Along pipeline.step (OnStatement fun _ => OnlyAlarmsFail) ⟨world, []⟩ moves)
    (careful : Along pipeline.step (OnStatement KeepsBooks) ⟨world, []⟩ moves) :
    Throughout pipeline.step (fun pool => Quiet pool → Consistent pool.shared.toStore) ⟨world, []⟩ moves := by
  have balanced := throughout_of_invariant (fun _ _ held allowed => Balanced.step held allowed.1 allowed.2)
    moves _ (Balanced.initial linked consistent) (along_and failures careful)
  exact throughout_mono (fun _ held => held.consistent) moves _ balanced

private def yard : World where
  users := .empty
  sites := ⟨[⟨"AA-100", "Yard", "co-1", none⟩], by decide⟩
  cameras := ⟨[⟨⟨7⟩, "Gate", "", "", some "AA-100", "", none⟩, ⟨⟨2 ^ 100⟩, "Fence", "", "", some "AA-100", "", none⟩],
    by decide +kernel⟩
  events := .empty
  incidents := .empty
  alarms := .empty
  alarmLastFired := []

private def statement (thread : Nat) : Move Request Env := .run thread { now := 1750000000000000000 }

private def atGate : Move Request Env := .spawn (.event { cameraId := ⟨7⟩, eventType := "human" })

private def atFence : Move Request Env := .spawn (.event { cameraId := ⟨2 ^ 100⟩, eventType := "human" })

private def acknowledging : Move Request Env := .spawn (.acknowledge "INC-2025-0001")

/-- Two alarms of one incident, then its acknowledgement. -/
private def orderly : List (Move Request Env) :=
  [atGate, atFence] ++ List.replicate 7 (statement 0) ++ List.replicate 6 (statement 1) ++
    [acknowledging, statement 2, statement 2]

theorem orderly_books_right :
    Throughout pipeline.step (fun pool => Quiet pool → Consistent pool.shared.toStore) ⟨yard, []⟩ orderly := by
  have linked : Linked yard.toStore := by
    intro alarm stored
    cases stored
  have consistent : Consistent yard.toStore := by
    decide +kernel
  have failures : Along pipeline.step (OnStatement fun _ => OnlyAlarmsFail) ⟨yard, []⟩ orderly := by
    decide +kernel
  have careful : Along pipeline.step (OnStatement KeepsBooks) ⟨yard, []⟩ orderly := by
    decide +kernel
  exact books_right_when_quiet yard linked consistent orderly failures careful

/-- The second alarm is counted, but its insert fails. -/
private def failing : List (Move Request Env) :=
  [atGate, atFence] ++ List.replicate 7 (statement 0) ++ List.replicate 5 (statement 1) ++
    [.run 1 { now := 1750000000000000000, fails := true }]

/-- The second alarm is inserted after the incident was acknowledged. -/
private def overtaken : List (Move Request Env) :=
  [atGate, atFence] ++ List.replicate 7 (statement 0) ++ List.replicate 5 (statement 1) ++
    [acknowledging, statement 2, statement 2, statement 1]

/-- An incident counts an alarm it does not have, and an acknowledged incident
has an alarm nobody acknowledged. -/
theorem miscounted_and_unacknowledged :
    (Along pipeline.step (OnStatement fun _ => OnlyAlarmsFail) ⟨yard, []⟩ failing ∧
      ¬ Throughout pipeline.step (fun pool => Quiet pool → Consistent pool.shared.toStore) ⟨yard, []⟩ failing) ∧
    (Along pipeline.step (OnStatement fun _ => OnlyAlarmsFail) ⟨yard, []⟩ overtaken ∧
      ¬ Throughout pipeline.step (fun pool => Quiet pool → Consistent pool.shared.toStore) ⟨yard, []⟩ overtaken) := by
  refine ⟨⟨by decide +kernel, fun held => ?_⟩, by decide +kernel, fun held => ?_⟩
  · have right := throughout_last failing _ held (by decide +kernel)
    exact absurd right (by decide +kernel)
  · have right := throughout_last overtaken _ held (by decide +kernel)
    exact absurd right (by decide +kernel)

end Ironsight.IncidentBookkeeping
