import Mathlib.Data.List.Forall2
import Mathlib.Order.Bounds.Basic
import Ironsight.AlarmPipeline

/-! What an incident's row says of the alarms attached to it. Counting, the raised severity
and the three lists take the alarms in any order; the names are collected without regard to
the cameras they belong to, and the time of the last statement is taken for the latest. -/
namespace Ironsight.IncidentAggregation
open Tables Runs Soc AlarmPipeline

/-- The order `critical > high > medium > low`. -/
def rank : Severity → Nat
  | .low => 0
  | .medium => 1
  | .high => 2
  | .critical => 3

/-- The camera as the row names it. -/
def camera (draft : Draft) : String := draft.event.cameraId.text

/-- What the row of an incident is to say of its alarms. -/
structure Aggregates (alarms : List Draft) (row : Incident) : Prop where
  counted : row.alarmCount = alarms.length
  severe : IsGreatest {level | ∃ alarm ∈ alarms, rank (severity alarm.event) = level} (rank row.severity)
  cameras : row.cameraIds.Nodup ∧ ∀ id, id ∈ row.cameraIds ↔ ∃ alarm ∈ alarms, camera alarm = id
  types : row.types.Nodup ∧ ∀ type, type ∈ row.types ↔ ∃ alarm ∈ alarms, alarm.event.eventType = type
  named : List.Forall₂ (fun id name => ∀ alarm ∈ alarms, camera alarm = id → alarm.cameraName = name)
    row.cameraIds row.cameraNames
  latest : IsGreatest {ts | ∃ alarm ∈ alarms, (alarm.now : Millis) = ts} row.lastAlarmTs

/-- Cameras and names determine one another, and no alarm is later than the one attached last. -/
structure InStep (alarms : List Draft) : Prop where
  names : ∀ first ∈ alarms, ∀ second ∈ alarms, camera first = camera second ↔ first.cameraName = second.cameraName
  times : ∀ last ∈ alarms.getLast?, ∀ alarm ∈ alarms, alarm.now ≤ last.now

/-! ## Runs of the pipeline -/

/-- The pool, and the alarms attached to each incident in the order of their statements. -/
structure Recording where
  pool : Pipeline
  attached : String → List Draft

/-- What a statement attaches. An incident begins with the alarm that it is created for. -/
def noted (env : Env) (thread : Thread) (world : World) (attached : String → List Draft) : String → List Draft :=
  match thread with
  | .insertIncident draft id =>
    if env.fails = false ∧ (world.incidents.insert? (draft.incident id)).isSome then Function.update attached id [draft]
    else attached
  | .attachAlarm draft id =>
    if env.fails = false then Function.update attached id (attached id ++ [draft]) else attached
  | _ => attached

/-- The pipeline, with the alarms noted that each incident was given. -/
def record (state : Recording) (move : Move Request Env) : Recording where
  pool := pipeline.step state.pool move
  attached :=
    match move with
    | .spawn _ => state.attached
    | .run thread env =>
      match state.pool.threads[thread]? with
      | none => state.attached
      | some current => noted env current state.pool.shared state.attached

/-- Before the first incident, with goroutines anywhere. -/
def started (world : World) (threads : List Thread) : Recording :=
  ⟨⟨{ world with incidents := .empty }, threads⟩, fun _ => []⟩

/-! ## Collecting -/

/-- The different entries that the alarms bring, in the order they come first. -/
def entries (read : Draft → String) (alarms : List Draft) : List String :=
  alarms.foldl (fun entries alarm => appendNew (read alarm) entries) []

section Entries
variable {read : Draft → String} {alarms : List Draft}

theorem entries_append (alarm : Draft) :
    entries read (alarms ++ [alarm]) = appendNew (read alarm) (entries read alarms) :=
  List.foldl_append

theorem mem_appendNew {entry other : String} {held : List String} :
    other ∈ appendNew entry held ↔ other ∈ held ∨ other = entry := by
  unfold appendNew
  split
  · rename_i present
    refine ⟨.inl, ?_⟩
    rintro (member | rfl)
    · exact member
    · exact List.contains_iff_mem.mp present
  · rw [List.mem_append, List.mem_singleton]

theorem nodup_appendNew {entry : String} {held : List String} (distinct : held.Nodup) :
    (appendNew entry held).Nodup := by
  unfold appendNew
  split
  · exact distinct
  · rename_i absent
    refine distinct.append (List.nodup_singleton entry) fun other member new => ?_
    rw [List.mem_singleton.mp new] at member
    exact absent (List.contains_iff_mem.mpr member)

theorem mem_entries {entry : String} : entry ∈ entries read alarms ↔ ∃ alarm ∈ alarms, read alarm = entry := by
  induction alarms using List.reverseRecOn with
  | nil => exact iff_of_false List.not_mem_nil fun ⟨_, member, _⟩ => List.not_mem_nil member
  | append_singleton earlier alarm ih =>
    rw [entries_append, mem_appendNew, ih]
    constructor
    · rintro (⟨other, member, same⟩ | rfl)
      · exact ⟨other, List.mem_append_left _ member, same⟩
      · exact ⟨alarm, List.mem_append_right _ List.mem_cons_self, rfl⟩
    · rintro ⟨other, member, same⟩
      rcases List.mem_append.mp member with old | new
      · exact .inl ⟨other, old, same⟩
      · rw [List.mem_singleton.mp new] at same
        exact .inr same.symm

theorem nodup_entries : (entries read alarms).Nodup := by
  induction alarms using List.reverseRecOn with
  | nil => exact List.nodup_nil
  | append_singleton earlier alarm ih =>
    rw [entries_append]
    exact nodup_appendNew ih

/-- Two columns that determine one another are collected from the same alarms. -/
theorem entries_paired {left right : Draft → String}
    (paired : ∀ first ∈ alarms, ∀ second ∈ alarms, left first = left second ↔ right first = right second) :
    ∃ chosen : List Draft, (∀ alarm ∈ chosen, alarm ∈ alarms) ∧ entries left alarms = chosen.map left ∧
      entries right alarms = chosen.map right := by
  induction alarms using List.reverseRecOn with
  | nil => exact ⟨[], fun _ => id, rfl, rfl⟩
  | append_singleton earlier alarm ih =>
    have before {other : Draft} (member : other ∈ earlier) : other ∈ earlier ++ [alarm] := List.mem_append_left _ member
    have new : alarm ∈ earlier ++ [alarm] := List.mem_append_right _ List.mem_cons_self
    obtain ⟨chosen, drawn, lefts, rights⟩ := ih fun first one second two => paired first (before one) second (before two)
    have same : left alarm ∈ entries left earlier ↔ right alarm ∈ entries right earlier := by
      rw [mem_entries, mem_entries]
      exact exists_congr fun other => and_congr_right fun member => paired other (before member) alarm new
    rw [entries_append, entries_append]
    unfold appendNew
    by_cases known : left alarm ∈ entries left earlier
    · rw [if_pos (List.contains_iff_mem.mpr known), if_pos (List.contains_iff_mem.mpr (same.mp known))]
      exact ⟨chosen, fun other member => before (drawn other member), lefts, rights⟩
    · have unnamed : right alarm ∉ entries right earlier := fun present => known (same.mpr present)
      rw [if_neg fun present => known (List.contains_iff_mem.mp present),
        if_neg fun present => unnamed (List.contains_iff_mem.mp present)]
      refine ⟨chosen ++ [alarm], forall_mem_append (fun other member => before (drawn other member)) new, ?_, ?_⟩
      · rw [lefts, List.map_append, List.map_singleton]
      · rw [rights, List.map_append, List.map_singleton]

end Entries

/-- The greatest of one more value. -/
theorem isGreatest_append {α β : Type*} [LinearOrder β] {value : α → β} {xs : List α} {greatest : β}
    (held : IsGreatest {y | ∃ x ∈ xs, value x = y} greatest) (new : α) :
    IsGreatest {y | ∃ x ∈ xs ++ [new], value x = y} (max (value new) greatest) := by
  have same : {y | ∃ x ∈ xs ++ [new], value x = y} = insert (value new) {y | ∃ x ∈ xs, value x = y} := by
    ext y
    simp only [List.mem_append, List.mem_singleton, Set.mem_ofPred_eq, Set.mem_insert_iff]
    constructor
    · rintro ⟨x, old | rfl, rfl⟩
      · exact .inr ⟨x, old, rfl⟩
      · exact .inl rfl
    · rintro (rfl | ⟨x, old, rfl⟩)
      · exact ⟨new, .inr rfl, rfl⟩
      · exact ⟨x, .inl old, rfl⟩
  rw [same]
  exact held.insert (value new)

/-! ## One statement -/

/-- What the statements leave in a row, from the first alarm on. -/
structure Tallied (alarms : List Draft) (row : Incident) : Prop where
  counted : row.alarmCount = alarms.length
  severe : IsGreatest {level | ∃ alarm ∈ alarms, rank (severity alarm.event) = level} (rank row.severity)
  cameraIds : row.cameraIds = entries camera alarms
  cameraNames : row.cameraNames = entries Draft.cameraName alarms
  types : row.types = entries (fun alarm => alarm.event.eventType) alarms
  last : ∃ last ∈ alarms.getLast?, row.lastAlarmTs = last.now

theorem rank_raisedSeverity (new old : Severity) : rank (raisedSeverity new old) = max (rank new) (rank old) := by
  cases new <;> cases old <;> rfl

theorem Tallied.opened (draft : Draft) (id : String) : Tallied [draft] (draft.incident id) where
  counted := rfl
  severe := ⟨⟨draft, List.mem_singleton_self draft, rfl⟩, fun _ ⟨_, member, same⟩ =>
    (List.mem_singleton.mp member ▸ same).ge⟩
  cameraIds := rfl
  cameraNames := rfl
  types := rfl
  last := ⟨draft, rfl, rfl⟩

theorem Tallied.attached {alarms : List Draft} {row : Incident} (held : Tallied alarms row) (draft : Draft) :
    Tallied (alarms ++ [draft]) (draft.attached row) where
  counted := by
    rw [List.length_append, ← held.counted]
    rfl
  severe := by
    rw [Draft.attached, rank_raisedSeverity]
    exact isGreatest_append held.severe draft
  cameraIds := by
    rw [entries_append, ← held.cameraIds]
    rfl
  cameraNames := by
    rw [entries_append, ← held.cameraNames]
    rfl
  types := by
    rw [entries_append, ← held.types]
    rfl
  last := ⟨draft, List.getLast?_concat, rfl⟩

/-- Acknowledging changes the status only. -/
theorem Tallied.acknowledged {alarms : List Draft} {row : Incident} (held : Tallied alarms row) (status : IncidentStatus) :
    Tallied alarms { row with status := status } :=
  ⟨held.counted, held.severe, held.cameraIds, held.cameraNames, held.types, held.last⟩

/-- Every row tells of the alarms recorded under its id. -/
def Faithful (history : String → List Draft) (incidents : Table Incident.id) : Prop :=
  ∀ row ∈ incidents, Tallied (history row.id) row

section Statements
variable {env : Env} {world : World} {history : String → List Draft}

private theorem Faithful.opened (held : Faithful history world.incidents) {draft : Draft} {id : String}
    {incidents : Table Incident.id} (done : world.incidents.insert? (draft.incident id) = some incidents) :
    Faithful (Function.update history id [draft]) incidents := by
  intro row member
  rcases (Table.mem_insert? done).mp member with old | rfl
  · have elsewhere : row.id ≠ id := Table.insert?_fresh done row old
    rw [Function.update_of_ne elsewhere]
    exact held row old
  · rw [show (draft.incident id).id = id from rfl, Function.update_self]
    exact .opened draft id

private theorem Faithful.attached (held : Faithful history world.incidents) (draft : Draft) (id : String) :
    Faithful (Function.update history id (history id ++ [draft])) (attachAlarmToIncident world.incidents draft id) := by
  intro row member
  obtain ⟨old, present, rfl⟩ := mem_attachAlarmToIncident.mp member
  have before := held old present
  by_cases own : old.id = id
  · rw [if_pos own, draft.attached_id, own, Function.update_self, ← own]
    exact before.attached draft
  · rw [if_neg own, Function.update_of_ne own]
    exact before

private theorem Faithful.acknowledged (held : Faithful history world.incidents) (id : String) :
    Faithful history (acknowledgeIncident world.incidents id) := by
  intro row member
  obtain ⟨old, present, rfl⟩ := mem_acknowledgeIncident.mp member
  split
  · exact (held old present).acknowledged .acknowledged
  · exact held old present

/-- The compensating delete only takes rows away. -/
private theorem mem_of_mem_deleteOrphan (db : Store) (id : String) :
    ∀ row ∈ (deleteOrphan db id).1, row ∈ db.incidents := by
  intro row held
  unfold deleteOrphan at held
  repeat' split at held
  all_goals first | exact held | exact List.mem_of_mem_filter held

/-- The statements that do not write incidents. -/
private theorem incidents_kept {before after : Thread} {changed : World} (outcome : Outcome env before world after changed) :
    match before with
    | .insertIncident _ _ | .attachAlarm _ _ | .deleteIncident _ | .ackIncident _ => True
    | _ => changed.incidents = world.incidents := by
  cases outcome with
  | idle finished =>
    split
    all_goals trivial
  | _ => trivial

private theorem noted_faithful (held : Faithful history world.incidents) (thread : Thread) :
    Faithful (noted env thread world history) (next env thread world).2.incidents := by
  have kept := incidents_kept (next_outcome env thread world)
  cases thread with
  | insertIncident draft id =>
    dsimp only [noted, next, runInsertIncident]
    cases env.fails with
    | true => exact held
    | false =>
      cases done : world.incidents.insert? (draft.incident id) with
      | none => exact held
      | some incidents => exact held.opened done
  | attachAlarm draft id =>
    dsimp only [noted, next, runAttachAlarm]
    cases env.fails with
    | true => exact held
    | false => exact held.attached draft id
  | ackIncident id =>
    dsimp only [noted, next, runAckIncident]
    cases env.fails with
    | true => exact held
    | false => exact held.acknowledged id
  | deleteIncident id =>
    dsimp only [noted, next, runDeleteIncident]
    cases env.fails with
    | true => exact held
    | false => exact fun row member => held row (mem_of_mem_deleteOrphan world.toStore id row member)
  | _ =>
    dsimp only at kept
    rw [kept]
    exact held

end Statements

theorem record_faithful {state : Recording} (held : Faithful state.attached state.pool.shared.incidents)
    (move : Move Request Env) : Faithful (record state move).attached (record state move).pool.shared.incidents := by
  cases move with
  | spawn request => exact held
  | run thread env =>
    dsimp only [record]
    cases running : state.pool.threads[thread]? with
    | none =>
      rw [Program.step_run_none running]
      exact held
    | some current =>
      rw [Program.step_run running]
      exact noted_faithful held current

/-- In every run, a row tells of the alarms attached to it. -/
theorem faithful_always (world : World) (threads : List Thread) (moves : List (Move Request Env)) :
    Faithful (exec record (started world threads) moves).attached
      (exec record (started world threads) moves).pool.shared.incidents := by
  have initial : Faithful (started world threads).attached (started world threads).pool.shared.incidents :=
    fun row member => absurd member List.not_mem_nil
  have kept : ∀ state move, Faithful state.attached state.pool.shared.incidents →
      Faithful (record state move).attached (record state move).pool.shared.incidents :=
    fun _ move held => record_faithful held move
  exact exec_invariant kept moves (started world threads) initial

/-! ## When the row is right -/

section Rows
variable {alarms : List Draft} {row : Incident}

/-- The lists and the maximum come out whatever the order. -/
theorem Tallied.aggregates (held : Tallied alarms row)
    (named : List.Forall₂ (fun id name => ∀ alarm ∈ alarms, camera alarm = id → alarm.cameraName = name)
      row.cameraIds row.cameraNames)
    (latest : IsGreatest {ts | ∃ alarm ∈ alarms, (alarm.now : Millis) = ts} row.lastAlarmTs) : Aggregates alarms row where
  counted := held.counted
  severe := held.severe
  cameras := by
    rw [held.cameraIds]
    exact ⟨nodup_entries, fun _ => mem_entries⟩
  types := by
    rw [held.types]
    exact ⟨nodup_entries, fun _ => mem_entries⟩
  named := named
  latest := latest

/-- The time of the last statement is the largest exactly if no alarm is later. -/
private theorem Tallied.latest_iff (held : Tallied alarms row) :
    IsGreatest {ts | ∃ alarm ∈ alarms, (alarm.now : Millis) = ts} row.lastAlarmTs ↔
      ∀ last ∈ alarms.getLast?, ∀ alarm ∈ alarms, alarm.now ≤ last.now := by
  obtain ⟨last, final, time⟩ := held.last
  rw [time]
  constructor
  · rintro ⟨_, bound⟩ other also alarm member
    rw [Option.mem_def.mp final] at also
    cases also
    exact Int.ofNat_le.mp (bound ⟨alarm, member, rfl⟩)
  · intro bound
    refine ⟨⟨last, List.mem_of_getLast? final, rfl⟩, ?_⟩
    rintro _ ⟨alarm, member, rfl⟩
    exact Int.ofNat_le.mpr (bound last final alarm member)

/-- Ids and names are collected apart, and fit together exactly if they determine one another. -/
private theorem Tallied.named_iff (held : Tallied alarms row) :
    List.Forall₂ (fun id name => ∀ alarm ∈ alarms, camera alarm = id → alarm.cameraName = name)
        row.cameraIds row.cameraNames ↔
      ∀ first ∈ alarms, ∀ second ∈ alarms, camera first = camera second ↔ first.cameraName = second.cameraName := by
  rw [held.cameraIds, held.cameraNames]
  constructor
  · intro fits
    obtain ⟨sameLength, fits⟩ := List.forall₂_iff_get.mp fits
    have placed {alarm : Draft} (member : alarm ∈ alarms) : ∃ (i : Fin (entries camera alarms).length)
        (inside : i.val < (entries Draft.cameraName alarms).length),
        (entries camera alarms).get i = camera alarm ∧ (entries Draft.cameraName alarms)[i.val] = alarm.cameraName := by
      obtain ⟨i, same⟩ := List.mem_iff_get.mp (mem_entries.mpr ⟨alarm, member, rfl⟩ : camera alarm ∈ entries camera alarms)
      have inside : i.val < (entries Draft.cameraName alarms).length := sameLength ▸ i.isLt
      exact ⟨i, inside, same, (fits i i.isLt inside alarm member same.symm).symm⟩
    intro first one second two
    obtain ⟨i, inside, firstID, firstName⟩ := placed one
    obtain ⟨j, within, secondID, secondName⟩ := placed two
    constructor
    · intro same
      exact (fits i i.isLt inside first one firstID.symm).trans
        (fits i i.isLt inside second two (same.symm.trans firstID.symm)).symm
    · intro same
      have position : i.val = j.val := nodup_entries.getElem_inj_iff.mp
        (firstName.trans (same.trans secondName.symm))
      rw [← firstID, ← secondID, Fin.ext position]
  · intro paired
    obtain ⟨chosen, drawn, ids, names⟩ := entries_paired paired
    rw [ids, names, List.forall₂_map_left_iff, List.forall₂_map_right_iff, List.forall₂_same]
    exact fun other member alarm present same => (paired alarm present other (drawn other member)).mp same

theorem Tallied.aggregates_iff (held : Tallied alarms row) : Aggregates alarms row ↔ InStep alarms := by
  constructor
  · exact fun right => ⟨held.named_iff.mp right.named, held.latest_iff.mp right.latest⟩
  · exact fun inStep => held.aggregates (held.named_iff.mpr inStep.names) (held.latest_iff.mpr inStep.times)

end Rows

/-- In every run of the pipeline, an incident's row is right about the alarms attached to it
exactly if they are in step. -/
theorem row_aggregates_iff (world : World) (threads : List Thread) (moves : List (Move Request Env)) (row : Incident)
    (present : row ∈ (exec record (started world threads) moves).pool.shared.incidents) :
    Aggregates ((exec record (started world threads) moves).attached row.id) row ↔
      InStep ((exec record (started world threads) moves).attached row.id) :=
  (faithful_always world threads moves row present).aggregates_iff

/-! ## Two cameras of one name, and an alarm that is late -/

instance : DecidablePred InStep := fun alarms =>
  decidable_of_iff ((∀ first ∈ alarms, ∀ second ∈ alarms,
        (camera first = camera second ↔ first.cameraName = second.cameraName)) ∧
      ∀ last ∈ alarms.getLast?, ∀ alarm ∈ alarms, alarm.now ≤ last.now)
    ⟨fun facts => ⟨facts.1, facts.2⟩, fun inStep => ⟨inStep.names, inStep.times⟩⟩

/-- A site with two cameras. -/
private def yard (first second : String) : World where
  users := .empty
  sites := ⟨[⟨"AA-100", "Yard", "co-1", none⟩], List.nodup_singleton _⟩
  cameras := ⟨[⟨⟨7⟩, first, "", "", some "AA-100", "", none⟩, ⟨⟨8⟩, second, "", "", some "AA-100", "", none⟩],
    (by decide : [(⟨7⟩ : Uuid.UUID), ⟨8⟩].Nodup)⟩
  events := .empty
  incidents := .empty
  alarms := .empty
  alarmLastFired := []

/-- Each camera sees somebody, and the second goroutine attaches its alarm to the incident of the first. -/
private def together : List (Move Request Env) :=
  [.spawn (.event { cameraId := ⟨7⟩, eventType := "human" }), .spawn (.event { cameraId := ⟨8⟩, eventType := "human" })] ++
    List.replicate 5 (.run 0 { now := 1750000000000000000 }) ++ List.replicate 4 (.run 1 { now := 1750000001000000000 })

/-- The second goroutine reads the clock before the first one and attaches its alarm after it. -/
private def overtaken : List (Move Request Env) :=
  [.spawn (.event { cameraId := ⟨7⟩, eventType := "human" }), .spawn (.event { cameraId := ⟨8⟩, eventType := "human" })] ++
    List.replicate 2 (.run 1 { now := 1750000000000000000 }) ++ List.replicate 5 (.run 0 { now := 1750000001000000000 }) ++
    List.replicate 2 (.run 1 { now := 1750000001000000000 })

/-- The cameras have names of their own, and the alarms come in order. -/
theorem gate_and_fence_aggregated :
    ∃ row ∈ (exec record (started (yard "Gate" "Fence") []) together).pool.shared.incidents,
      Aggregates ((exec record (started (yard "Gate" "Fence") []) together).attached row.id) row := by
  obtain ⟨row, present, inStep⟩ : ∃ row ∈ (exec record (started (yard "Gate" "Fence") []) together).pool.shared.incidents,
      InStep ((exec record (started (yard "Gate" "Fence") []) together).attached row.id) := by
    decide +kernel
  exact ⟨row, present, (row_aggregates_iff _ _ _ row present).mpr inStep⟩

/-- A run that leaves an incident whose alarms are out of step leaves a wrong row. -/
private theorem wrong_row {world : World} {moves : List (Move Request Env)}
    (outOfStep : ∃ row ∈ (exec record (started world []) moves).pool.shared.incidents,
      ¬ InStep ((exec record (started world []) moves).attached row.id)) :
    ∃ row ∈ (exec record (started world []) moves).pool.shared.incidents,
      ¬ Aggregates ((exec record (started world []) moves).attached row.id) row := by
  obtain ⟨row, present, apart⟩ := outOfStep
  exact ⟨row, present, fun right => apart ((faithful_always world [] moves row present).aggregates_iff.mp right)⟩

/-- Two cameras of one name, and two alarms whose clocks are in the other order. -/
theorem twins_and_overtaken_wrong :
    (∃ row ∈ (exec record (started (yard "Gate" "Gate") []) together).pool.shared.incidents,
      ¬ Aggregates ((exec record (started (yard "Gate" "Gate") []) together).attached row.id) row) ∧
    ∃ row ∈ (exec record (started (yard "Gate" "Fence") []) overtaken).pool.shared.incidents,
      ¬ Aggregates ((exec record (started (yard "Gate" "Fence") []) overtaken).attached row.id) row :=
  ⟨wrong_row (by decide +kernel), wrong_row (by decide +kernel)⟩

end Ironsight.IncidentAggregation
