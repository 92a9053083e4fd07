import Ironsight.AlarmPipeline

/-! Whether every alarm arrives. A goroutine reads three identifiers before it
inserts anything under them: the alarm's id, the incident's id and the alarm's
code. As long as no other goroutine holds the same identifier at the moment it
is read, every goroutine that finds a site ends with an alarm of its own. -/
namespace Ironsight.AlarmDelivery
open Tables Runs Uuid Access Soc AlarmPipeline

/-! ## What a thread holds -/

/-- The incident id read but not yet inserted. -/
def pendingIncident : Thread → Option String
  | .insertIncident _ id => some id
  | _ => none

/-- The alarm code read but not yet inserted. -/
def pendingCode : Thread → Option String
  | .insertAlarm _ _ _ code => some code
  | _ => none

/-- The alarm id fixed but not yet inserted. -/
def pendingAlarm : Thread → Option String
  | .findIncident draft | .nextIncidentID draft | .insertIncident draft _ | .attachAlarm draft _
  | .nextAlarmCode draft _ _ | .insertAlarm draft _ _ _ => some draft.alarmId
  | _ => none

/-- The alarm id, inserted or not. -/
def alarmKey : Thread → Option String
  | .raised draft _ => some draft.alarmId
  | thread => pendingAlarm thread

/-- The incident a goroutine goes by. -/
def chosenIncident : Thread → Option String
  | .attachAlarm _ id | .nextAlarmCode _ id _ | .insertAlarm _ id _ _ | .raised _ id => some id
  | _ => none

/-- The goroutine gave up on its alarm, or is about to. -/
def gaveUp : Thread → Bool
  | .lost | .deleteIncident _ => true
  | _ => false

/-- No statement fails, other than by a uniqueness conflict: neither outright
nor in the cast of a stored code's number. -/
def Healthy (world : World) (env : Env) (thread : Thread) : Prop :=
  env.fails = false ∧ match thread with
    | .nextIncidentID _ => nextIncidentID world.incidents env.millis ≠ none
    | .nextAlarmCode _ _ _ => nextAlarmCode world.alarms env.millis ≠ none
    | _ => True

/-- The identifier that a statement reads is held by no other goroutine, and the
alarm's id is not stored either. -/
def Unclaimed (pool : Pipeline) (env : Env) (thread : Thread) : Prop :=
  match thread with
  | .getCamera event => Assigned pool.shared event →
      (∀ alarm ∈ pool.shared.alarms, alarm.id ≠ alarmID event.cameraId env.millis) ∧
        ∀ other ∈ pool.threads, pendingAlarm other ≠ some (alarmID event.cameraId env.millis)
  | .nextIncidentID _ => ∀ id ∈ nextIncidentID pool.shared.incidents env.millis,
      ∀ other ∈ pool.threads, pendingIncident other ≠ some id
  | .nextAlarmCode _ _ _ => ∀ code ∈ nextAlarmCode pool.shared.alarms env.millis,
      ∀ other ∈ pool.threads, pendingCode other ≠ some code
  | _ => True

instance assignedDecidable (world : World) (event : Event) : Decidable (Assigned world event) :=
  inferInstanceAs (Decidable (∃ camera ∈ world.cameras, camera.id = event.cameraId ∧ ∃ site ∈ camera.siteId, site ≠ ""))

instance healthyDecidable (world : World) (env : Env) : (thread : Thread) → Decidable (Healthy world env thread)
  | .nextIncidentID _ =>
    inferInstanceAs (Decidable (env.fails = false ∧ nextIncidentID world.incidents env.millis ≠ none))
  | .nextAlarmCode _ _ _ =>
    inferInstanceAs (Decidable (env.fails = false ∧ nextAlarmCode world.alarms env.millis ≠ none))
  | .callback _ | .dropped | .getCamera _ | .unassigned | .findIncident _ | .insertIncident _ _ | .attachAlarm _ _
  | .insertAlarm _ _ _ _ | .deleteIncident _ | .lost | .raised _ _ | .ackIncident _ | .ackAlarms _ | .replied _ =>
    inferInstanceAs (Decidable (env.fails = false ∧ True))

instance unclaimedDecidable (pool : Pipeline) (env : Env) : (thread : Thread) → Decidable (Unclaimed pool env thread)
  | .getCamera event => inferInstanceAs (Decidable (Assigned pool.shared event →
      (∀ alarm ∈ pool.shared.alarms, alarm.id ≠ alarmID event.cameraId env.millis) ∧
        ∀ other ∈ pool.threads, pendingAlarm other ≠ some (alarmID event.cameraId env.millis)))
  | .nextIncidentID _ => inferInstanceAs (Decidable (∀ id ∈ nextIncidentID pool.shared.incidents env.millis,
      ∀ other ∈ pool.threads, pendingIncident other ≠ some id))
  | .nextAlarmCode _ _ _ => inferInstanceAs (Decidable (∀ code ∈ nextAlarmCode pool.shared.alarms env.millis,
      ∀ other ∈ pool.threads, pendingCode other ≠ some code))
  | .callback _ | .dropped | .unassigned | .findIncident _ | .insertIncident _ _ | .attachAlarm _ _
  | .insertAlarm _ _ _ _ | .deleteIncident _ | .lost | .raised _ _ | .ackIncident _ | .ackAlarms _ | .replied _ =>
    isTrue trivial

/-- No goroutine has given up, and each that raised its alarm finds it in the
table under an incident that exists, and shares it with no other goroutine. -/
structure Delivered (pool : Pipeline) : Prop where
  kept : ∀ thread ∈ pool.threads, gaveUp thread = false
  stored : ∀ draft id, .raised draft id ∈ pool.threads → ∃ alarm ∈ pool.shared.alarms,
    alarm.id = draft.alarmId ∧ alarm.incidentId = id ∧ ∃ incident ∈ pool.shared.incidents, incident.id = id
  own : ∀ (i j : Nat) first second left right, pool.threads[i]? = some (.raised first left) →
    pool.threads[j]? = some (.raised second right) → first.alarmId = second.alarmId → i = j

/-- A goroutine whose camera has a site goes on with it. -/
def TakesSite (pool : Pipeline) (env : Env) (thread : Thread) : Prop :=
  ∀ event, thread = .getCamera event → Assigned pool.shared event →
    ∃ draft, draft.event = event ∧ (next env thread pool.shared).1 = .findIncident draft

/-- Every event that passes the cooldown on a camera with a site ends with an
alarm of its own: no goroutine gives up at any time, none stops at its camera,
and each is finished after at most eight statements. -/
structure EveryAlarmArrives (world : World) (moves : List (Move Request Env)) : Prop where
  delivered : Throughout pipeline.step Delivered ⟨world, []⟩ moves
  taken : Along pipeline.step (OnStatement TakesSite) ⟨world, []⟩ moves
  ends : ∀ (thread : Nat) current, (exec pipeline.step ⟨world, []⟩ moves).threads[thread]? = some current →
    ∀ more : List (Move Request Env), 8 ≤ more.countP (Move.runs thread) →
      ∃ later, (exec pipeline.step ⟨world, []⟩ (moves ++ more)).threads[thread]? = some later ∧ later.finished = true

/-! ## One statement -/

section Statements
variable {env : Env} {thread after : Thread} {world changed : World}

/-- An incident that was not there is the one the thread held an id for. -/
private theorem incident_origin (outcome : Outcome env thread world after changed) {incident : Incident}
    (held : incident ∈ changed.incidents) :
    (∃ old ∈ world.incidents, old.id = incident.id) ∨ pendingIncident thread = some incident.id := by
  cases outcome with
  | incidentOpened incidents done =>
    rcases (Table.mem_insert? done).mp held with old | rfl
    · exact .inl ⟨incident, old, rfl⟩
    · exact .inr rfl
  | attached =>
    obtain ⟨old, member, rfl⟩ := mem_attachAlarmToIncident.mp held
    refine .inl ⟨old, member, ?_⟩
    split <;> rfl
  | ackedIncident =>
    obtain ⟨old, member, rfl⟩ := mem_acknowledgeIncident.mp held
    refine .inl ⟨old, member, ?_⟩
    split <;> rfl
  | deleted =>
    refine .inl ⟨incident, ?_, rfl⟩
    simp only [deleteOrphan] at held
    split at held
    · split at held
      · split at held
        · exact List.mem_of_mem_filter held
        · exact held
      · exact List.mem_of_mem_filter held
    · exact held
  | _ => exact .inl ⟨incident, held, rfl⟩

/-- An alarm that was not there is the one the thread held id and code for. -/
private theorem alarm_origin (outcome : Outcome env thread world after changed) (standing : gaveUp thread = false)
    {alarm : ActiveAlarm} (held : alarm ∈ changed.alarms) :
    (∃ old ∈ world.alarms, old.id = alarm.id ∧ old.alarmCode = alarm.alarmCode) ∨
      (pendingAlarm thread = some alarm.id ∧ pendingCode thread = some alarm.alarmCode) := by
  cases outcome with
  | alarmRaised alarms sound done =>
    rcases (Table.mem_insert? (createActiveAlarm_some.mp done).2.2).mp held with old | rfl
    · exact .inl ⟨alarm, old, rfl, rfl⟩
    · exact .inr ⟨rfl, rfl⟩
  | ackedAlarms =>
    obtain ⟨old, member, rfl⟩ := mem_acknowledgeAlarms.mp held
    refine .inl ⟨old, member, ?_⟩
    split <;> exact ⟨rfl, rfl⟩
  | deleted => cases standing
  | _ => exact .inl ⟨alarm, held, rfl, rfl⟩

/-- Without a clean-up no incident goes away or changes its site. -/
theorem incident_stays (outcome : Outcome env thread world after changed) (standing : gaveUp thread = false)
    {incident : Incident} (held : incident ∈ world.incidents) :
    ∃ new ∈ changed.incidents, new.id = incident.id ∧ new.siteId = incident.siteId := by
  cases outcome with
  | incidentOpened incidents done => exact ⟨incident, (Table.mem_insert? done).mpr (.inl held), rfl, rfl⟩
  | attached =>
    refine ⟨_, mem_attachAlarmToIncident.mpr ⟨incident, held, rfl⟩, ?_⟩
    split <;> exact ⟨rfl, rfl⟩
  | ackedIncident =>
    refine ⟨_, mem_acknowledgeIncident.mpr ⟨incident, held, rfl⟩, ?_⟩
    split <;> exact ⟨rfl, rfl⟩
  | deleted => cases standing
  | _ => exact ⟨incident, held, rfl, rfl⟩

/-- Without a clean-up no alarm goes away or changes its incident. -/
private theorem alarm_stays (outcome : Outcome env thread world after changed) (standing : gaveUp thread = false)
    {alarm : ActiveAlarm} (held : alarm ∈ world.alarms) :
    ∃ new ∈ changed.alarms, new.id = alarm.id ∧ new.incidentId = alarm.incidentId := by
  cases outcome with
  | alarmRaised alarms sound done =>
    exact ⟨alarm, (Table.mem_insert? (createActiveAlarm_some.mp done).2.2).mpr (.inl held), rfl, rfl⟩
  | ackedAlarms =>
    refine ⟨_, mem_acknowledgeAlarms.mpr ⟨alarm, held, rfl⟩, ?_⟩
    split <;> exact ⟨rfl, rfl⟩
  | deleted => cases standing
  | _ => exact ⟨alarm, held, rfl, rfl⟩

private theorem afterFailure_holds (id : String) (isNew : Bool) :
    pendingIncident (afterFailure id isNew) = none ∧ pendingCode (afterFailure id isNew) = none ∧
      alarmKey (afterFailure id isNew) = none ∧ pendingAlarm (afterFailure id isNew) = none ∧
        chosenIncident (afterFailure id isNew) = none := by
  unfold afterFailure
  split <;> exact ⟨rfl, rfl, rfl, rfl, rfl⟩

private theorem finished_holds (finished : thread.finished = true) :
    pendingIncident thread = none ∧ pendingCode thread = none ∧ pendingAlarm thread = none := by
  cases thread <;> first | exact ⟨rfl, rfl, rfl⟩ | cases finished

/-- An incident id comes from the sequence. -/
private theorem pendingIncident_origin (outcome : Outcome env thread world after changed) {id : String}
    (held : pendingIncident after = some id) :
    ∃ draft, thread = .nextIncidentID draft ∧ nextIncidentID world.incidents env.millis = some id := by
  cases outcome with
  | incidentID read_ read => exact ⟨_, rfl, by rw [read]; exact held⟩
  | noAlarmCode | alarmRefused => simp [afterFailure_holds] at held
  | idle finished => simp [finished_holds finished] at held
  | _ => cases held

/-- A code comes from the sequence. -/
private theorem pendingCode_origin (outcome : Outcome env thread world after changed) {code : String}
    (held : pendingCode after = some code) :
    ∃ draft id isNew, thread = .nextAlarmCode draft id isNew ∧ nextAlarmCode world.alarms env.millis = some code := by
  cases outcome with
  | alarmCode read_ read => exact ⟨_, _, _, rfl, by rw [read]; exact held⟩
  | noAlarmCode | alarmRefused => simp [afterFailure_holds] at held
  | idle finished => simp [finished_holds finished] at held
  | _ => cases held

/-- An alarm id is kept, or made of the camera's id and the clock. -/
private theorem alarmKey_origin (outcome : Outcome env thread world after changed) {id : String}
    (held : alarmKey after = some id) : alarmKey thread = some id ∨
      ∃ event, thread = .getCamera event ∧ Assigned world event ∧ id = alarmID event.cameraId env.millis := by
  cases outcome with
  | drafted draft assigned now =>
    refine .inr ⟨_, rfl, assigned, ?_⟩
    rw [← now]
    exact (Option.some.inj held).symm
  | noAlarmCode | alarmRefused => simp [afterFailure_holds] at held
  | idle => exact .inl held
  | noIncident | openIncident | incidentID | incidentOpened | attachFailed | attached | alarmCode | alarmRaised =>
    exact .inl held
  | _ => cases held

private theorem pendingAlarm_origin (outcome : Outcome env thread world after changed) {id : String}
    (held : pendingAlarm after = some id) : pendingAlarm thread = some id ∨
      ∃ event, thread = .getCamera event ∧ Assigned world event ∧ id = alarmID event.cameraId env.millis := by
  cases outcome with
  | drafted draft assigned now =>
    refine .inr ⟨_, rfl, assigned, ?_⟩
    rw [← now]
    exact (Option.some.inj held).symm
  | noAlarmCode | alarmRefused => simp [afterFailure_holds] at held
  | idle finished => simp [finished_holds finished] at held
  | noIncident | openIncident | incidentID | incidentOpened | attachFailed | attached | alarmCode => exact .inl held
  | _ => cases held

/-- A goroutine goes by an incident that is there when it chooses it. -/
private theorem chosenIncident_origin (outcome : Outcome env thread world after changed) {id : String}
    (held : chosenIncident after = some id) :
    chosenIncident thread = some id ∨ ∃ incident ∈ changed.incidents, incident.id = id := by
  cases outcome with
  | openIncident incident member => exact .inr ⟨incident, member, Option.some.inj held⟩
  | incidentOpened incidents done =>
    exact .inr ⟨_, (Table.mem_insert? done).mpr (.inr rfl), Option.some.inj held⟩
  | noAlarmCode | alarmRefused => simp [afterFailure_holds] at held
  | attachFailed | attached | alarmCode | alarmRaised | idle => exact .inl held
  | _ => cases held

/-- A raised alarm is in the table. -/
private theorem raised_origin (outcome : Outcome env thread world after changed) {draft : Draft} {id : String}
    (raised : after = .raised draft id) : thread = .raised draft id ∨
      ∃ alarm ∈ changed.alarms, alarm.id = draft.alarmId ∧ alarm.incidentId = id := by
  cases outcome with
  | alarmRaised alarms sound done =>
    cases raised
    exact .inr ⟨_, (Table.mem_insert? (createActiveAlarm_some.mp done).2.2).mpr (.inr rfl), rfl, rfl⟩
  | noAlarmCode =>
    unfold afterFailure at raised
    split at raised <;> cases raised
  | alarmRefused =>
    unfold afterFailure at raised
    split at raised <;> cases raised
  | idle => exact .inl raised
  | _ => cases raised

/-- A goroutine gives up only when a statement fails or an identifier it holds is
taken. -/
private theorem gaveUp_origin (outcome : Outcome env thread world after changed) (standing : gaveUp thread = false)
    (healthy : Healthy world env thread) (gone : gaveUp after = true) :
    (∃ draft id, thread = .insertIncident draft id ∧ ∃ incident ∈ world.incidents, incident.id = id) ∨
      ∃ draft id isNew code, thread = .insertAlarm draft id isNew code ∧
        ((∃ alarm ∈ world.alarms, alarm.alarmCode = code) ∨ (∃ alarm ∈ world.alarms, alarm.id = draft.alarmId) ∨
          ∀ incident ∈ world.incidents, incident.id ≠ id) := by
  obtain ⟨sound, read⟩ := healthy
  cases outcome with
  | noIncidentID why =>
    rcases why with failed | unread
    · simp [sound] at failed
    · exact absurd unread read
  | incidentRefused why =>
    rcases why with failed | taken
    · simp [sound] at failed
    · obtain ⟨incident, held, same⟩ := Table.insert?_eq_none.mp taken
      exact .inl ⟨_, _, rfl, incident, held, same⟩
  | noAlarmCode why =>
    rcases why with failed | unread
    · simp [sound] at failed
    · exact absurd unread read
  | @alarmRefused draft id isNew code world why =>
    rcases why with failed | refused
    · simp [sound] at failed
    · refine .inr ⟨_, _, _, _, rfl, ?_⟩
      by_contra clear
      simp only [not_or, not_exists, not_and, not_forall, not_not] at clear
      obtain ⟨codes, ids, incident, held, same⟩ := clear
      have fresh : ∀ other ∈ world.alarms, other.id ≠ (draft.alarm id code).id := ids
      obtain ⟨alarms, inserted⟩ := Table.insert?_of_fresh fresh
      have done := createActiveAlarm_some.mpr ⟨codes, ⟨incident, held, same⟩, inserted⟩
      rw [refused] at done
      cases done
  | idle => rw [standing] at gone; cases gone
  | deleteFailed | deleted => cases standing
  | _ => cases gone

end Statements

/-! ## The invariant -/

/-- Held identifiers are pairwise different and not stored, chosen incidents and
raised alarms are stored, and nobody gave up. -/
structure HeldApart (pool : Pipeline) : Prop where
  incidents : Distinct pendingIncident pool.threads
  codes : Distinct pendingCode pool.threads
  alarms : Distinct alarmKey pool.threads
  newIncidents : ∀ thread ∈ pool.threads, ∀ id ∈ pendingIncident thread,
    ∀ incident ∈ pool.shared.incidents, incident.id ≠ id
  newCodes : ∀ thread ∈ pool.threads, ∀ code ∈ pendingCode thread,
    ∀ alarm ∈ pool.shared.alarms, alarm.alarmCode ≠ code
  newAlarms : ∀ thread ∈ pool.threads, ∀ id ∈ pendingAlarm thread, ∀ alarm ∈ pool.shared.alarms, alarm.id ≠ id
  chosen : ∀ thread ∈ pool.threads, ∀ id ∈ chosenIncident thread,
    ∃ incident ∈ pool.shared.incidents, incident.id = id
  raised : ∀ thread ∈ pool.threads, ∀ draft id, thread = .raised draft id →
    ∃ alarm ∈ pool.shared.alarms, alarm.id = draft.alarmId ∧ alarm.incidentId = id
  standing : ∀ thread ∈ pool.threads, gaveUp thread = false

theorem HeldApart.delivered {pool : Pipeline} (orderly : HeldApart pool) : Delivered pool where
  kept := orderly.standing
  stored draft id member := by
    obtain ⟨alarm, held, same, below⟩ := orderly.raised _ member draft id rfl
    exact ⟨alarm, held, same, below, orderly.chosen _ member id rfl⟩
  own i j first second left right atI atJ same :=
    orderly.alarms i j _ _ first.alarmId atI atJ rfl (congrArg some same.symm)

theorem HeldApart.initial (world : World) : HeldApart ⟨world, []⟩ := by
  constructor <;> simp [Distinct]

private theorem HeldApart.spawn {pool : Pipeline} (orderly : HeldApart pool) (request : Request) :
    HeldApart { pool with threads := pool.threads ++ [pipeline.start request] } := by
  -- Neither an event nor an acknowledgement starts with a key or a chosen incident.
  cases request <;> exact {
    incidents := orderly.incidents.append rfl
    codes := orderly.codes.append rfl
    alarms := orderly.alarms.append rfl
    newIncidents := forall_mem_append orderly.newIncidents (by rintro _ ⟨⟩)
    newCodes := forall_mem_append orderly.newCodes (by rintro _ ⟨⟩)
    newAlarms := forall_mem_append orderly.newAlarms (by rintro _ ⟨⟩)
    chosen := forall_mem_append orderly.chosen (by rintro _ ⟨⟩)
    raised := forall_mem_append orderly.raised (by rintro _ _ ⟨⟩)
    standing := forall_mem_append orderly.standing rfl }

section Runs
variable {pool : Pipeline} {thread : Nat} {env : Env} {current after : Thread} {changed : World}

private theorem alarmKey_cases {holder : Thread} {id : String} (held : alarmKey holder = some id) :
    pendingAlarm holder = some id ∨ ∃ draft incidentId, holder = .raised draft incidentId ∧ draft.alarmId = id := by
  cases holder with
  | raised draft incidentId => exact .inr ⟨draft, incidentId, rfl, Option.some.inj held⟩
  | _ => exact .inl held

private theorem alarmKey_of_pending {holder : Thread} {id : String} (held : pendingAlarm holder = some id) :
    alarmKey holder = some id := by
  cases holder with
  | raised draft incidentId => cases held
  | _ => exact held

/-- The statement that uses a code lets go of the alarm's id as well. -/
private theorem released_with_code {world : World} (outcome : Outcome env current world after changed) {code : String}
    (held : pendingCode current = some code) : pendingAlarm after = none := by
  cases outcome with
  | alarmRefused => simp [afterFailure_holds]
  | alarmRaised => rfl
  | idle finished => simp [finished_holds finished]
  | _ => cases held

variable (orderly : HeldApart pool) (running : pool.threads[thread]? = some current)
  (outcome : Outcome env current pool.shared after changed)
  (healthy : Healthy pool.shared env current) (unclaimed : Unclaimed pool env current)
include orderly running outcome unclaimed

private theorem HeldApart.run_incidents : Distinct pendingIncident (pool.threads.set thread after) := by
  refine orderly.incidents.set running fun id new => .inr ?_
  obtain ⟨draft, rfl, read⟩ := pendingIncident_origin outcome new
  exact unclaimed id read

private theorem HeldApart.run_codes : Distinct pendingCode (pool.threads.set thread after) := by
  refine orderly.codes.set running fun code new => .inr ?_
  obtain ⟨draft, id, isNew, rfl, read⟩ := pendingCode_origin outcome new
  exact unclaimed code read

private theorem HeldApart.run_alarms : Distinct alarmKey (pool.threads.set thread after) := by
  refine orderly.alarms.set running fun id new => ?_
  rcases alarmKey_origin outcome new with kept | ⟨event, rfl, assigned, rfl⟩
  · exact .inl kept
  · refine .inr fun other member held => ?_
    obtain ⟨unstored, unheld⟩ := unclaimed assigned
    rcases alarmKey_cases held with pending | ⟨draft, incidentId, rfl, same⟩
    · exact unheld other member pending
    · obtain ⟨alarm, stored, sameId, _⟩ := orderly.raised _ member draft incidentId rfl
      exact unstored alarm stored (sameId.trans same)

omit unclaimed in
private theorem HeldApart.run_newIncidents : ∀ holder ∈ pool.threads.set thread after, ∀ id ∈ pendingIncident holder,
    ∀ incident ∈ changed.incidents, incident.id ≠ id := by
  intro holder member id held incident stored same
  rcases mem_set_cases member with rfl | ⟨j, elsewhere, found⟩
  · obtain ⟨draft, rfl, read⟩ := pendingIncident_origin outcome held
    rcases incident_origin outcome stored with ⟨old, before, sameId⟩ | pending
    · exact nextIncidentID_fresh read old before (sameId.trans same)
    · cases pending
  · rcases incident_origin outcome stored with ⟨old, before, sameId⟩ | pending
    · exact orderly.newIncidents holder (List.mem_of_getElem? found) id held old before (sameId.trans same)
    · exact elsewhere (orderly.incidents j thread holder current id found running held (same ▸ pending))

omit unclaimed in
private theorem HeldApart.run_newCodes : ∀ holder ∈ pool.threads.set thread after, ∀ code ∈ pendingCode holder,
    ∀ alarm ∈ changed.alarms, alarm.alarmCode ≠ code := by
  have standing := orderly.standing current (List.mem_of_getElem? running)
  intro holder member code held alarm stored same
  rcases mem_set_cases member with rfl | ⟨j, elsewhere, found⟩
  · obtain ⟨draft, id, isNew, rfl, read⟩ := pendingCode_origin outcome held
    rcases alarm_origin outcome standing stored with ⟨old, before, _, sameCode⟩ | ⟨_, pending⟩
    · exact nextAlarmCode_fresh read old before (sameCode.trans same)
    · cases pending
  · rcases alarm_origin outcome standing stored with ⟨old, before, _, sameCode⟩ | ⟨_, pending⟩
    · exact orderly.newCodes holder (List.mem_of_getElem? found) code held old before (sameCode.trans same)
    · exact elsewhere (orderly.codes j thread holder current code found running held (same ▸ pending))

private theorem HeldApart.run_newAlarms : ∀ holder ∈ pool.threads.set thread after, ∀ id ∈ pendingAlarm holder,
    ∀ alarm ∈ changed.alarms, alarm.id ≠ id := by
  have here := List.mem_of_getElem? running
  have standing := orderly.standing current here
  intro holder member id held alarm stored same
  rcases mem_set_cases member with rfl | ⟨j, elsewhere, found⟩
  · rcases alarm_origin outcome standing stored with ⟨old, before, sameId, _⟩ | ⟨_, pending⟩
    · rcases pendingAlarm_origin outcome held with kept | ⟨event, rfl, assigned, rfl⟩
      · exact orderly.newAlarms current here id kept old before (sameId.trans same)
      · exact (unclaimed assigned).1 old before (sameId.trans same)
    · rw [released_with_code outcome pending] at held
      cases held
  · rcases alarm_origin outcome standing stored with ⟨old, before, sameId, _⟩ | ⟨pending, _⟩
    · exact orderly.newAlarms holder (List.mem_of_getElem? found) id held old before (sameId.trans same)
    · exact elsewhere (orderly.alarms j thread holder current id found running (alarmKey_of_pending held)
        (alarmKey_of_pending (same ▸ pending)))

omit unclaimed in
private theorem HeldApart.run_chosen : ∀ holder ∈ pool.threads.set thread after, ∀ id ∈ chosenIncident holder,
    ∃ incident ∈ changed.incidents, incident.id = id := by
  have here := List.mem_of_getElem? running
  have stays {holder : Thread} {id : String} (member : holder ∈ pool.threads) (held : chosenIncident holder = some id) :
      ∃ incident ∈ changed.incidents, incident.id = id := by
    obtain ⟨incident, stored, same⟩ := orderly.chosen holder member id held
    obtain ⟨new, remains, sameId, _⟩ := incident_stays outcome (orderly.standing current here) stored
    exact ⟨new, remains, sameId.trans same⟩
  intro holder member id held
  rcases mem_set_cases member with rfl | ⟨j, _, found⟩
  · rcases chosenIncident_origin outcome held with kept | stored
    · exact stays here kept
    · exact stored
  · exact stays (List.mem_of_getElem? found) held

omit unclaimed in
private theorem HeldApart.run_raised : ∀ holder ∈ pool.threads.set thread after, ∀ draft id, holder = .raised draft id →
    ∃ alarm ∈ changed.alarms, alarm.id = draft.alarmId ∧ alarm.incidentId = id := by
  have here := List.mem_of_getElem? running
  have stays {draft : Draft} {id : String} (member : .raised draft id ∈ pool.threads) :
      ∃ alarm ∈ changed.alarms, alarm.id = draft.alarmId ∧ alarm.incidentId = id := by
    obtain ⟨alarm, stored, same, below⟩ := orderly.raised _ member draft id rfl
    obtain ⟨new, remains, sameId, sameIncident⟩ := alarm_stays outcome (orderly.standing current here) stored
    exact ⟨new, remains, sameId.trans same, sameIncident.trans below⟩
  intro holder member draft id raised
  rcases mem_set_cases member with rfl | ⟨j, _, found⟩
  · rcases raised_origin outcome raised with kept | stored
    · exact stays (kept ▸ here)
    · exact stored
  · exact stays (raised ▸ List.mem_of_getElem? found)

omit unclaimed in
include healthy in
private theorem HeldApart.run_standing : ∀ holder ∈ pool.threads.set thread after, gaveUp holder = false := by
  have here := List.mem_of_getElem? running
  refine forall_mem_set orderly.standing (Bool.eq_false_iff.mpr fun gone => ?_)
  rcases gaveUp_origin outcome (orderly.standing current here) healthy gone with
    ⟨draft, id, rfl, incident, stored, same⟩ | ⟨draft, id, isNew, code, rfl, taken⟩
  · exact orderly.newIncidents _ here id rfl incident stored same
  · rcases taken with ⟨alarm, stored, same⟩ | ⟨alarm, stored, same⟩ | missing
    · exact orderly.newCodes _ here code rfl alarm stored same
    · exact orderly.newAlarms _ here draft.alarmId rfl alarm stored same
    · obtain ⟨incident, stored, same⟩ := orderly.chosen _ here id rfl
      exact missing incident stored same

include healthy in
private theorem HeldApart.run : HeldApart { shared := changed, threads := pool.threads.set thread after } where
  incidents := orderly.run_incidents running outcome unclaimed
  codes := orderly.run_codes running outcome unclaimed
  alarms := orderly.run_alarms running outcome unclaimed
  newIncidents := orderly.run_newIncidents running outcome
  newCodes := orderly.run_newCodes running outcome
  newAlarms := orderly.run_newAlarms running outcome unclaimed
  chosen := orderly.run_chosen running outcome
  raised := orderly.run_raised running outcome
  standing := orderly.run_standing running outcome healthy

end Runs

/-! ## All statements of a run -/

/-- How many statements a thread has left at most. -/
def rank : Thread → Nat
  | .callback _ => 8
  | .getCamera _ => 7
  | .findIncident _ => 6
  | .nextIncidentID _ => 5
  | .insertIncident _ _ | .attachAlarm _ _ => 4
  | .nextAlarmCode _ _ _ => 3
  | .insertAlarm _ _ _ _ | .ackIncident _ => 2
  | .deleteIncident _ | .ackAlarms _ => 1
  | .dropped | .unassigned | .lost | .raised _ _ | .replied _ => 0

private theorem rank_next (env : Env) (thread : Thread) (world : World) :
    rank (pipeline.next env thread world).1 ≤ rank thread - 1 := by
  have failure (id : String) (isNew : Bool) : rank (afterFailure id isNew) ≤ 1 := by
    unfold afterFailure
    split <;> simp [rank]
  have outcome := next_outcome env thread world
  change rank (next env thread world).1 ≤ rank thread - 1
  generalize (next env thread world).1 = after at outcome ⊢
  generalize (next env thread world).2 = changed at outcome
  cases outcome with
  | noAlarmCode => exact (failure _ _).trans (by simp [rank])
  | alarmRefused => exact failure _ _
  | idle finished =>
    cases thread <;> first | exact Nat.zero_le _ | cases finished
  | _ => simp [rank]

private theorem finished_of_rank {thread : Thread} (done : rank thread = 0) : thread.finished = true := by
  cases thread <;> first | rfl | cases done

/-- A thread is through after at most eight statements, whatever the others do. -/
theorem finished_after_eight {pool : Pipeline} {thread : Nat} {current : Thread}
    (running : pool.threads[thread]? = some current) (more : List (Move Request Env))
    (turns : 8 ≤ more.countP (Move.runs thread)) :
    ∃ later, (exec pipeline.step pool more).threads[thread]? = some later ∧ later.finished = true := by
  obtain ⟨later, found, bounded⟩ := Program.rank_exec rank_next more pool thread current running
  refine ⟨later, found, finished_of_rank ?_⟩
  have low : rank current ≤ 8 := by cases current <;> simp [rank]
  omega

private theorem takesSite_of_healthy {pool : Pipeline} {env : Env} {thread : Thread}
    (healthy : Healthy pool.shared env thread) : TakesSite pool env thread := by
  rintro event rfl assigned
  have outcome := next_outcome env (.getCamera event) pool.shared
  generalize (next env (.getCamera event) pool.shared).1 = after at outcome ⊢
  generalize (next env (.getCamera event) pool.shared).2 = changed at outcome
  cases outcome with
  | unassigned why =>
    rcases why with failed | without
    · rw [healthy.1] at failed
      cases failed
    · exact absurd assigned without
  | drafted draft => exact ⟨draft, rfl, rfl⟩
  | idle finished => cases finished

theorem HeldApart.step {pool : Pipeline} {move : Move Request Env} (orderly : HeldApart pool)
    (healthy : OnStatement (fun pool => Healthy pool.shared) pool move) (unclaimed : OnStatement Unclaimed pool move) :
    HeldApart (pipeline.step pool move) := by
  refine Program.step_preserves HeldApart orderly move (fun request _ => orderly.spawn request) ?_
  rintro thread env current rfl running
  exact orderly.run running (next_outcome env current pool.shared) (healthy current running)
    (unclaimed current running)

/-- With no failure but uniqueness conflicts, and no identifier read while
another goroutine holds it, no alarm is lost. -/
theorem no_alarm_lost (world : World) (moves : List (Move Request Env))
    (healthy : Along pipeline.step (OnStatement fun pool => Healthy pool.shared) ⟨world, []⟩ moves)
    (unclaimed : Along pipeline.step (OnStatement Unclaimed) ⟨world, []⟩ moves) : EveryAlarmArrives world moves where
  delivered := by
    have orderly := throughout_of_invariant (fun _ _ held allowed => HeldApart.step held allowed.1 allowed.2)
      moves _ (HeldApart.initial world) (along_and healthy unclaimed)
    exact throughout_mono (fun _ => HeldApart.delivered) moves _ orderly
  taken := by
    refine along_mono (fun pool move held => ?_) healthy
    cases move with
    | spawn request => trivial
    | run thread env => exact fun current running => takesSite_of_healthy (held current running)
  ends thread current running more turns := by
    rw [exec_append]
    exact finished_after_eight running more turns

private def sites : World where
  users := .empty
  sites := ⟨[⟨"AA-100", "Cement works", "co-1", none⟩, ⟨"BB-200", "Harbour", "co-2", none⟩], by decide⟩
  cameras := ⟨[⟨⟨7⟩, "Gate", "", "", some "AA-100", "", none⟩, ⟨⟨2 ^ 100⟩, "Dock", "", "", some "BB-200", "", none⟩],
    by decide +kernel⟩
  events := .empty
  incidents := .empty
  alarms := .empty
  alarmLastFired := []

private def turn (thread : Nat) : Move Request Env := .run thread { now := 1750000000000000000 }

private def gateEvent : Request := .event { cameraId := ⟨7⟩, eventType := "human" }

private def dockEvent : Request := .event { cameraId := ⟨2 ^ 100⟩, eventType := "human" }

/-- One goroutine after the other: the second reads its identifiers only when
the first has inserted its own. -/
private def inTurn : List (Move Request Env) :=
  [.spawn gateEvent, .spawn dockEvent] ++ List.replicate 7 (turn 0) ++ List.replicate 7 (turn 1)

theorem both_alarms_arrive : EveryAlarmArrives sites inTurn :=
  no_alarm_lost sites inTurn (by decide +kernel) (by decide +kernel)

/-- Both goroutines read the next incident id before either inserts it. -/
private def racing : List (Move Request Env) :=
  [.spawn gateEvent, .spawn dockEvent] ++ List.replicate 4 (turn 0) ++ List.replicate 4 (turn 1) ++ [turn 0, turn 1]

/-- Without any failure, the second event at another site loses its alarm to the
incident id that both goroutines were given. -/
theorem racing_goroutine_loses_alarm :
    Along pipeline.step (OnStatement fun pool => Healthy pool.shared) ⟨sites, []⟩ racing ∧
      ¬ EveryAlarmArrives sites racing := by
  refine ⟨by decide +kernel, fun arrives => ?_⟩
  have delivered := throughout_last racing _ arrives.delivered
  have gone : Thread.lost ∈ (exec pipeline.step ⟨sites, []⟩ racing).threads := by
    decide +kernel
  exact absurd (delivered.kept _ gone) (by decide)

end Ironsight.AlarmDelivery
