import Mathlib.Algebra.BigOperators.Group.List.Lemmas
import Mathlib.Algebra.Order.Floor.Semiring
import Mathlib.Data.Rat.Floor
import Ironsight.AlarmPipeline

/-! The response-time report. The writers of an alarm store the instant by which
it must be acknowledged, in milliseconds since the epoch; the report takes the
same number for the milliseconds an acknowledgement may take. An alarm nobody
acknowledged through `AcknowledgeAlarm` has no acknowledgement time, and so no
day to be reported under. -/
namespace Ironsight.SlaReport
open Tables Runs Uuid Access Soc AlarmPipeline

/-! ## The writers of alarms -/

/-- The row of `det.AlertEmitter`, with the labels of the detected boxes. -/
def emitted (cameraId : String) (labels : List String) (cameraName siteId siteName code : String)
    (eventId : Option Int) (now : Nat) : ActiveAlarm :=
  let vehicle := labels.any fun label => ["vehicle", "car", "truck", "van"].contains label
  { id := "ALM-" ++ String.ofList (cameraId.toList.take 8) ++ "-" ++ toString (now / 60000)
    alarmCode := code
    triggeringEventId := eventId
    incidentId := ""
    siteId := siteId
    siteName := siteName
    cameraId := cameraId
    cameraName := cameraName
    severity := if vehicle then .medium else .high
    type := if vehicle then "vehicle_detected" else "person_detected"
    description := (if vehicle then "Vehicle" else "Person") ++ " detected at " ++ cameraName
    ts := now
    slaDeadlineMs := now + 90000 }

/-- Besides the statements of the pipeline, the insert of the alert emitter with
the values it read before, and `AcknowledgeAlarm` at a clock reading of the
database, in microseconds. -/
inductive Act where
  | pipeline (move : Move Request Env)
  | emit (cameraId : String) (labels : List String) (cameraName siteId siteName code : String)
      (eventId : Option Int) (now : Nat)
  | acknowledgeAlarm (id : String) (micros : Nat) (user : UUID) (callsign : String)

def step (pool : Pipeline) : Act → Pipeline
  | .pipeline move => AlarmPipeline.pipeline.step pool move
  | .emit cameraId labels cameraName siteId siteName code eventId now =>
    match createActiveAlarm pool.shared.toStore (emitted cameraId labels cameraName siteId siteName code eventId now) with
    | some alarms => { pool with shared := { pool.shared with alarms := alarms } }
    | none => pool
  | .acknowledgeAlarm id micros user callsign =>
    { pool with shared := { pool.shared with
        alarms := Soc.acknowledgeAlarm pool.shared.alarms id (micros * 1000) (nullableUUID user) callsign } }

/-! ## The report -/

/-- One row of the report. -/
structure SLAReportRow where
  bucket : String
  totalAlarms : Nat
  ackedAlarms : Nat
  withinSLA : Nat
  overSLA : Nat
  avgAckSec : ℚ
  p50AckSec : ℚ
  p95AckSec : ℚ
  deriving DecidableEq

/-- `TO_CHAR(… AT TIME ZONE 'UTC', 'YYYY-MM-DD')` of an instant since 1970. -/
def dayText (instant : Instant) : String :=
  let (year, month, day) := Codes.dateOf (instant / 1000000).toNat
  Codes.padded 4 year ++ "-" ++ Codes.padded 2 month ++ "-" ++ Codes.padded 2 day

/-- `bucketExpr`; any group but "operator" counts as "day". -/
def bucketExpr (group : String) (alarm : ActiveAlarm) : Option String :=
  if group = "operator" then
    some (if alarm.acknowledgedByCallsign = "" then "<unattributed>" else alarm.acknowledgedByCallsign)
  else alarm.acknowledgedAt.map dayText

/-- `EXTRACT(EPOCH FROM (acknowledged_at - to_timestamp(ts/1000.0)))`, in
nanoseconds. -/
def ackNanos (alarm : ActiveAlarm) : Option Int := alarm.acknowledgedAt.map fun instant => instant - alarm.ts * 1000000

/-- The filter of `within_sla`. -/
def countsWithin (alarm : ActiveAlarm) : Bool :=
  (ackNanos alarm).any fun nanos => nanos ≤ alarm.slaDeadlineMs * 1000000

/-- The filter of `over_sla`. -/
def countsOver (alarm : ActiveAlarm) : Bool :=
  (ackNanos alarm).any fun nanos => alarm.slaDeadlineMs * 1000000 < nanos

/-- The values under the aggregates, in seconds. -/
def ackSeconds (alarms : List ActiveAlarm) : List ℚ :=
  alarms.filterMap fun alarm => (ackNanos alarm).map fun nanos => (nanos : ℚ) / 1000000000

/-- `COALESCE(AVG(…), 0)`. -/
def average (values : List ℚ) : ℚ := if values = [] then 0 else values.sum / values.length

/-- `COALESCE(percentile_cont(fraction) …, 0)`: linear between the two values
around the wanted position. -/
def percentileCont (fraction : ℚ) (values : List ℚ) : ℚ :=
  let sorted := values.insertionSort (· ≤ ·)
  let position := fraction * (values.length - 1 : Nat)
  let below := sorted[⌊position⌋.toNat]?.getD 0
  let above := sorted[⌈position⌉.toNat]?.getD 0
  below + (position - ⌊position⌋) * (above - below)

/-- `WHERE ts >= $1 AND ts < $2`. -/
def window (alarms : Table ActiveAlarm.id) (start stop : Millis) : List ActiveAlarm :=
  alarms.rows.filter fun alarm => start ≤ alarm.ts ∧ alarm.ts < stop

/-- The aggregates of one group. -/
def reportRow (bucket : String) (alarms : List ActiveAlarm) : SLAReportRow where
  bucket := bucket
  totalAlarms := alarms.length
  ackedAlarms := alarms.countP fun alarm => alarm.acknowledgedAt.isSome
  withinSLA := alarms.countP countsWithin
  overSLA := alarms.countP countsOver
  avgAckSec := average (ackSeconds alarms)
  p50AckSec := percentileCont (1 / 2) (ackSeconds alarms)
  p95AckSec := percentileCont (95 / 100) (ackSeconds alarms)

/-- `ORDER BY 1`: nulls come last. -/
def bucketLe (collation : String → String → Bool) : Option String → Option String → Bool
  | some first, some second => collation first second
  | _, none => true
  | none, some _ => false

/-- `GROUP BY 1 ORDER BY 1`. -/
def buckets (collation : String → String → Bool) (group : String) (alarms : List ActiveAlarm) : List (Option String) :=
  (alarms.map (bucketExpr group)).dedup.insertionSort fun first second => bucketLe collation first second

/-- `rows.Scan`: a null does not go into a string. -/
def scanRow (group : String) (alarms : List ActiveAlarm) : Option String → Except String SLAReportRow
  | none => .error "sla report scan: can't scan into dest[0] (col: bucket): cannot scan NULL into *string"
  | some bucket => .ok (reportRow bucket (alarms.filter fun alarm => bucketExpr group alarm = some bucket))

/-- `GetSLAReport`, with `from` and `to` as `UnixMilli` gives them. -/
def getSLAReport (collation : String → String → Bool) (alarms : Table ActiveAlarm.id) (start stop : Millis)
    (group : String) : Except String (List SLAReportRow) :=
  (buckets collation group (window alarms start stop)).mapM (scanRow group (window alarms start stop))

/-! ## What a report should say -/

/-- Acknowledged not later than the stored deadline. -/
def OnTime (alarm : ActiveAlarm) : Prop := ∃ instant ∈ alarm.acknowledgedAt, instant ≤ alarm.slaDeadlineMs * 1000000

instance : DecidablePred OnTime := fun alarm =>
  inferInstanceAs (Decidable (∃ instant ∈ alarm.acknowledgedAt, instant ≤ alarm.slaDeadlineMs * 1000000))

/-- Every alarm of the window is counted, in its row, on the right side of its
deadline. -/
structure ReportRight (alarms : Table ActiveAlarm.id) (start stop : Millis) (group : String)
    (rows : List SLAReportRow) : Prop where
  total : (rows.map SLAReportRow.totalAlarms).sum = (window alarms start stop).length
  split : ∀ row ∈ rows, row.withinSLA + row.overSLA = row.ackedAlarms
  within : ∀ row ∈ rows, row.withinSLA = (window alarms start stop).countP fun alarm =>
    bucketExpr group alarm = some row.bucket ∧ OnTime alarm

/-! ## The query -/

section Query
variable {collation : String → String → Bool} {group : String} {alarms : List ActiveAlarm}

private theorem scanRow_ok : ∀ {keys : List (Option String)} {rows : List SLAReportRow},
    keys.mapM (scanRow group alarms) = .ok rows ↔ ∃ names : List String, keys = names.map some ∧
      rows = names.map fun name => reportRow name (alarms.filter fun alarm => bucketExpr group alarm = some name)
  | [], rows => by
    simp only [List.mapM_nil, List.nil_eq, List.map_eq_nil_iff, exists_eq_left, List.map_nil]
    exact ⟨fun same => (Except.ok.inj same).symm, fun same => same ▸ rfl⟩
  | none :: rest, rows => by
    constructor
    · intro scanned
      simp only [List.mapM_cons, scanRow] at scanned
      cases scanned
    · rintro ⟨names, same, _⟩
      cases names <;> cases same
  | some name :: rest, rows => by
    constructor
    · intro scanned
      simp only [List.mapM_cons, scanRow] at scanned
      cases later : rest.mapM (scanRow group alarms) with
      | error reason =>
        rw [later] at scanned
        cases scanned
      | ok others =>
        rw [later] at scanned
        obtain ⟨names, rfl, rfl⟩ := scanRow_ok.mp later
        cases scanned
        exact ⟨name :: names, rfl, rfl⟩
    · rintro ⟨names, same, rfl⟩
      cases names with
      | nil => cases same
      | cons first names =>
        obtain ⟨head, tail⟩ := List.cons.inj same
        cases head
        have later := scanRow_ok.mpr ⟨names, tail, rfl⟩
        simp only [List.mapM_cons, scanRow, later]
        rfl

private theorem names_of_known : ∀ {keys : List (Option String)}, (∀ key ∈ keys, key.isSome) →
    ∃ names : List String, keys = names.map some
  | [], _ => ⟨[], rfl⟩
  | key :: rest, known => by
    obtain ⟨here, later⟩ := List.forall_mem_cons.mp known
    obtain ⟨name, rfl⟩ := Option.isSome_iff_exists.mp here
    obtain ⟨names, rfl⟩ := names_of_known later
    exact ⟨name :: names, rfl⟩

private theorem buckets_perm : (buckets collation group alarms).Perm (alarms.map (bucketExpr group)).dedup :=
  List.perm_insertionSort _ _

private theorem mem_buckets {key : Option String} :
    key ∈ buckets collation group alarms ↔ ∃ alarm ∈ alarms, bucketExpr group alarm = key := by
  rw [buckets_perm.mem_iff, List.mem_dedup, List.mem_map]

/-- The groups cover the window, each alarm once. -/
private theorem totals_sum {names : List String} (named : buckets collation group alarms = names.map some) :
    (names.map fun name => (alarms.filter fun alarm => bucketExpr group alarm = some name).length).sum =
      alarms.length := by
  have counted (key : Option String) : (alarms.filter fun alarm => bucketExpr group alarm = key).length =
      @List.count _ instBEqOfDecidableEq key (alarms.map (bucketExpr group)) := by
    change _ = (alarms.map (bucketExpr group)).countP fun other => decide (other = key)
    rw [List.countP_map, List.countP_eq_length_filter]
    rfl
  calc (names.map fun name => (alarms.filter fun alarm => bucketExpr group alarm = some name).length).sum
      = ((names.map some).map fun key => (alarms.filter fun alarm => bucketExpr group alarm = key).length).sum := by
        rw [List.map_map]
        rfl
    _ = ((alarms.map (bucketExpr group)).dedup.map
          fun key => (alarms.filter fun alarm => bucketExpr group alarm = key).length).sum := by
        rw [← named]
        exact (buckets_perm.map _).sum_eq
    _ = alarms.length := by
        simp only [counted]
        rw [List.sum_map_count_dedup_eq_length, List.length_map]

end Query

private theorem within_add_over (alarms : List ActiveAlarm) : alarms.countP countsWithin + alarms.countP countsOver =
    alarms.countP fun alarm => alarm.acknowledgedAt.isSome := by
  induction alarms with
  | nil => rfl
  | cons alarm rest ih =>
    have split : (if countsWithin alarm then 1 else 0) + (if countsOver alarm then 1 else 0) =
        if alarm.acknowledgedAt.isSome then 1 else 0 := by
      cases acked : alarm.acknowledgedAt with
      | none => simp [countsWithin, countsOver, ackNanos, acked]
      | some instant =>
        by_cases within : instant - alarm.ts * 1000000 ≤ alarm.slaDeadlineMs * 1000000
        · simp [countsWithin, countsOver, ackNanos, acked, within]
        · simp [countsWithin, countsOver, ackNanos, acked, within]
    simp only [List.countP_cons]
    omega

/-- A weaker filter counts as many as a stronger one only if it selects the same. -/
private theorem countP_agree {α : Type*} {weak strong : α → Bool} {rows : List α}
    (implies : ∀ row ∈ rows, strong row = true → weak row = true) :
    rows.countP weak = rows.countP strong ↔ ∀ row ∈ rows, weak row = true → strong row = true := by
  induction rows with
  | nil => simp
  | cons row rest ih =>
    have later := ih fun other member => implies other (List.mem_cons_of_mem _ member)
    have fewer : rest.countP strong ≤ rest.countP weak :=
      List.countP_mono_left fun other member => implies other (List.mem_cons_of_mem _ member)
    have here := implies row List.mem_cons_self
    rw [List.forall_mem_cons, ← later, List.countP_cons, List.countP_cons]
    cases strongHere : strong row with
    | true =>
      rw [strongHere] at here
      simp [here rfl]
    | false =>
      cases weakHere : weak row with
      | true =>
        simp only [if_true, Bool.false_eq_true, if_false, forall_const, false_and, iff_false]
        omega
      | false => simp

private theorem deadline_gap (instant ts deadline : Int) (written : 0 ≤ ts) :
    (instant ≤ deadline * 1000000 → instant - ts * 1000000 ≤ deadline * 1000000) ∧
      ((instant - ts * 1000000 ≤ deadline * 1000000 → instant ≤ deadline * 1000000) ↔
        instant ≤ deadline * 1000000 ∨ (ts + deadline) * 1000000 < instant) := by
  constructor
  · intro early
    omega
  · constructor
    · intro agree
      by_cases within : instant - ts * 1000000 ≤ deadline * 1000000
      · exact .inl (agree within)
      · exact .inr (by omega)
    · rintro (early | late) within
      · exact early
      · omega

/-- For what the writers store, the report's rule and the deadline agree except on
acknowledgements after the deadline that came within the deadline's number of
milliseconds. -/
private theorem within_agrees {alarm : ActiveAlarm} (written : 0 ≤ alarm.ts) :
    (OnTime alarm → countsWithin alarm = true) ∧ ((countsWithin alarm = true → OnTime alarm) ↔
      ∀ instant ∈ alarm.acknowledgedAt,
        instant ≤ alarm.slaDeadlineMs * 1000000 ∨ (alarm.ts + alarm.slaDeadlineMs) * 1000000 < instant) := by
  cases acked : alarm.acknowledgedAt with
  | none => simp [OnTime, countsWithin, ackNanos, acked]
  | some instant =>
    simpa [OnTime, countsWithin, ackNanos, acked] using deadline_gap instant alarm.ts alarm.slaDeadlineMs written

private theorem within_row {group name : String} {selected : List ActiveAlarm}
    (written : ∀ alarm ∈ selected, 0 ≤ alarm.ts) :
    (selected.filter fun alarm => bucketExpr group alarm = some name).countP countsWithin =
        selected.countP (fun alarm => bucketExpr group alarm = some name ∧ OnTime alarm) ↔
      ∀ alarm ∈ selected, bucketExpr group alarm = some name → countsWithin alarm = true → OnTime alarm := by
  rw [List.countP_filter, countP_agree]
  · simp only [Bool.and_eq_true, decide_eq_true_eq]
    constructor
    · intro agree alarm member same within
      exact (agree alarm member ⟨within, same⟩).2
    · rintro agree alarm member ⟨within, same⟩
      exact ⟨same, agree alarm member same within⟩
  · intro alarm member counted
    simp only [Bool.and_eq_true, decide_eq_true_eq] at counted ⊢
    exact ⟨(within_agrees (written alarm member)).1 counted.2, counted.1⟩

/-- The report is right exactly when it can name every bucket and no alarm of the
window was acknowledged in the gap between the deadline and the deadline counted
from the alarm. -/
private theorem report_right {collation : String → String → Bool} {alarms : Table ActiveAlarm.id} {start stop : Millis}
    {group : String} (written : ∀ alarm ∈ alarms, 0 ≤ alarm.ts) :
    (∃ rows, getSLAReport collation alarms start stop group = .ok rows ∧ ReportRight alarms start stop group rows) ↔
      (group ≠ "operator" → ∀ alarm ∈ window alarms start stop, alarm.acknowledgedAt ≠ none) ∧
        ∀ alarm ∈ window alarms start stop, ∀ instant ∈ alarm.acknowledgedAt,
          instant ≤ alarm.slaDeadlineMs * 1000000 ∨ (alarm.ts + alarm.slaDeadlineMs) * 1000000 < instant := by
  have stamped : ∀ alarm ∈ window alarms start stop, 0 ≤ alarm.ts :=
    fun alarm member => written alarm (List.mem_of_mem_filter member)
  constructor
  · rintro ⟨rows, scanned, right⟩
    obtain ⟨names, named, rfl⟩ := scanRow_ok.mp scanned
    have bucketed {alarm : ActiveAlarm} (member : alarm ∈ window alarms start stop) :
        ∃ name ∈ names, bucketExpr group alarm = some name := by
      have listed : bucketExpr group alarm ∈ buckets collation group (window alarms start stop) :=
        mem_buckets.mpr ⟨alarm, member, rfl⟩
      rw [named] at listed
      obtain ⟨name, held, same⟩ := List.mem_map.mp listed
      exact ⟨name, held, same.symm⟩
    constructor
    · intro byDay alarm member unacknowledged
      obtain ⟨name, _, same⟩ := bucketed member
      simp [bucketExpr, byDay, unacknowledged] at same
    · intro alarm member
      obtain ⟨name, held, same⟩ := bucketed member
      have counted := right.within _ (List.mem_map.mpr ⟨name, held, rfl⟩)
      have agree := (within_row stamped).mp counted
      exact (within_agrees (stamped alarm member)).2.mp (agree alarm member same)
  · rintro ⟨labelled, timely⟩
    have known : ∀ key ∈ buckets collation group (window alarms start stop), key.isSome := by
      intro key listed
      obtain ⟨alarm, member, rfl⟩ := mem_buckets.mp listed
      by_cases byOperator : group = "operator"
      · simp [bucketExpr, byOperator]
      · simpa [bucketExpr, byOperator] using Option.isSome_iff_ne_none.mpr (labelled byOperator alarm member)
    obtain ⟨names, named⟩ := names_of_known known
    refine ⟨_, scanRow_ok.mpr ⟨names, named, rfl⟩, ?_, ?_, ?_⟩
    · rw [List.map_map]
      exact totals_sum named
    · intro row member
      obtain ⟨name, _, rfl⟩ := List.mem_map.mp member
      exact within_add_over _
    · intro row member
      obtain ⟨name, _, rfl⟩ := List.mem_map.mp member
      refine (within_row stamped).mpr fun alarm listed _ => ?_
      exact (within_agrees (stamped alarm listed)).2.mpr (timely alarm listed)

/-! ## What the writers leave in the table -/

/-- The deadline is the instant ninety seconds after the alarm. -/
def Stamped (alarm : ActiveAlarm) : Prop := ∃ now : Nat, alarm.ts = now ∧ alarm.slaDeadlineMs = now + 90000

/-- An update that leaves both columns alone. -/
private theorem stamped_update {before after : Table ActiveAlarm.id} (stamped : ∀ alarm ∈ before, Stamped alarm)
    (kept : ∀ alarm ∈ after, ∃ old ∈ before, alarm.ts = old.ts ∧ alarm.slaDeadlineMs = old.slaDeadlineMs) :
    ∀ alarm ∈ after, Stamped alarm := by
  intro alarm held
  obtain ⟨old, member, sent, due⟩ := kept alarm held
  rw [Stamped, sent, due]
  exact stamped old member

private theorem stamped_insert {db : Store} {alarm : ActiveAlarm} {alarms : Table ActiveAlarm.id}
    (stamped : ∀ old ∈ db.alarms, Stamped old) (new : Stamped alarm)
    (done : createActiveAlarm db alarm = some alarms) : ∀ stored ∈ alarms, Stamped stored := by
  intro stored held
  rcases (Table.mem_insert? (createActiveAlarm_some.mp done).2.2).mp held with old | rfl
  · exact stamped stored old
  · exact new

private theorem stamped_outcome {env : Env} {thread after : Thread} {world changed : World}
    (stamped : ∀ alarm ∈ world.alarms, Stamped alarm) (outcome : Outcome env thread world after changed) :
    ∀ alarm ∈ changed.alarms, Stamped alarm := by
  cases outcome with
  | @alarmRaised draft id isNew code world alarms sound done => exact stamped_insert stamped ⟨draft.now, rfl, rfl⟩ done
  | deleted =>
    simp only [deleteOrphan]
    split
    · split
      · split
        · refine stamped_update stamped fun alarm held => ?_
          simp only [Table.mem_modify] at held
          obtain ⟨old, member, rfl⟩ := held
          refine ⟨old, member, ?_⟩
          split <;> exact ⟨rfl, rfl⟩
        · exact stamped
      · exact stamped
    · exact stamped
  | ackedAlarms =>
    refine stamped_update stamped fun alarm held => ?_
    obtain ⟨old, member, rfl⟩ := mem_acknowledgeAlarms.mp held
    refine ⟨old, member, ?_⟩
    split <;> exact ⟨rfl, rfl⟩
  | _ => exact stamped

private theorem stamped_step (pool : Pipeline) (act : Act) (stamped : ∀ alarm ∈ pool.shared.alarms, Stamped alarm) :
    ∀ alarm ∈ (step pool act).shared.alarms, Stamped alarm := by
  cases act with
  | pipeline move =>
    refine Program.step_preserves (fun pool : Pipeline => ∀ alarm ∈ pool.shared.alarms, Stamped alarm) stamped move
      (fun _ _ => stamped) ?_
    rintro thread env current rfl _
    exact stamped_outcome stamped (next_outcome env current pool.shared)
  | emit cameraId labels cameraName siteId siteName code eventId now =>
    simp only [step]
    split
    · rename_i alarms done
      exact stamped_insert stamped ⟨now, rfl, rfl⟩ done
    · exact stamped
  | acknowledgeAlarm id micros user callsign =>
    refine stamped_update stamped fun alarm held => ?_
    simp only [step, Soc.acknowledgeAlarm, Table.mem_modify] at held
    obtain ⟨old, member, rfl⟩ := held
    refine ⟨old, member, ?_⟩
    split <;> exact ⟨rfl, rfl⟩

/-- After any run of the pipeline, the emitter and acknowledgements of alarms and
incidents, the report is right exactly if every alarm of the window has a day to
be reported under, when days are asked for, and no alarm of the window was
acknowledged after its deadline, unless so late that the report sees it too. -/
theorem report_right_iff_on_time (collation : String → String → Bool) (world : World) (unwritten : world.alarms = .empty)
    (acts : List Act) (start stop : Millis) (group : String) :
    let alarms := (exec step ⟨world, []⟩ acts).shared.alarms
    (∃ rows, getSLAReport collation alarms start stop group = .ok rows ∧ ReportRight alarms start stop group rows) ↔
      (group ≠ "operator" → ∀ alarm ∈ window alarms start stop, alarm.acknowledgedAt ≠ none) ∧
        ∀ alarm ∈ window alarms start stop, ∀ instant ∈ alarm.acknowledgedAt,
          instant ≤ alarm.slaDeadlineMs * 1000000 ∨ (2 * alarm.ts + 90000) * 1000000 < instant := by
  intro alarms
  have stamped : ∀ alarm ∈ alarms, Stamped alarm := by
    refine exec_invariant stamped_step acts ⟨world, []⟩ fun alarm held => ?_
    rw [unwritten] at held
    cases held
  have written : ∀ alarm ∈ alarms, 0 ≤ alarm.ts := by
    intro alarm held
    obtain ⟨now, sent, _⟩ := stamped alarm held
    rw [sent]
    exact Int.natCast_nonneg now
  rw [report_right written]
  refine and_congr_right fun _ => forall₂_congr fun alarm member => ?_
  obtain ⟨now, sent, due⟩ := stamped alarm (List.mem_of_mem_filter member)
  have sum : alarm.ts + alarm.slaDeadlineMs = 2 * alarm.ts + 90000 := by
    rw [sent, due]
    exact (Int.add_assoc (now : Int) now 90000).symm.trans (congrArg (· + 90000) (Int.two_mul now).symm)
  rw [sum]

private def foundry : World where
  users := .empty
  sites := ⟨[⟨"AA-100", "Foundry", "co-1", none⟩], by decide⟩
  cameras := ⟨[⟨⟨7⟩, "Furnace", "", "", some "AA-100", "", none⟩], by decide +kernel⟩
  events := .empty
  incidents := .empty
  alarms := .empty
  alarmLastFired := []

/-- One alarm of the pipeline. -/
private def alarmed : List Act :=
  .pipeline (.spawn (.event { cameraId := ⟨7⟩, eventType := "human" })) ::
    List.replicate 7 (.pipeline (.run 0 { now := 1750000000000000000 }))

private def acknowledgedAfter (seconds : Nat) : List Act :=
  alarmed ++ [.acknowledgeAlarm "alarm-00000000-1750000000000" (1750000000000000 + seconds * 1000000) ⟨9⟩ "HAWK"]

private def byteOrder (first second : String) : Bool := first ≤ second

private def reported (acts : List Act) (group : String) : Except String (List SLAReportRow) :=
  getSLAReport byteOrder (exec step ⟨foundry, []⟩ acts).shared.alarms 1749999999000 1750000001000 group

/-- Thirty seconds after the alarm, which is within the ninety that it has. -/
theorem prompt_acknowledgement_reported :
    ∃ rows, getSLAReport byteOrder (exec step ⟨foundry, []⟩ (acknowledgedAfter 30)).shared.alarms
        1749999999000 1750000001000 "day" = .ok rows ∧
      ReportRight (exec step ⟨foundry, []⟩ (acknowledgedAfter 30)).shared.alarms 1749999999000 1750000001000 "day" rows :=
  (report_right_iff_on_time byteOrder foundry rfl (acknowledgedAfter 30) 1749999999000 1750000001000 "day").mpr
    ⟨fun _ => by decide +kernel, by decide +kernel⟩

/-- An alarm acknowledged ten minutes late counts as within its deadline, and an
alarm nobody acknowledged makes the report by day fail. -/
theorem late_counted_within_and_open_alarm_fails :
    (∀ rows, reported (acknowledgedAfter 600) "operator" = .ok rows →
      ¬ ReportRight (exec step ⟨foundry, []⟩ (acknowledgedAfter 600)).shared.alarms 1749999999000 1750000001000
        "operator" rows) ∧
    ∀ rows, reported alarmed "day" ≠ .ok rows := by
  constructor
  · intro rows made right
    have row : reported (acknowledgedAfter 600) "operator" = .ok [⟨"HAWK", 1, 1, 1, 0, 600, 600, 600⟩] := by
      decide +kernel
    rw [made] at row
    cases row
    have counted := right.within _ List.mem_cons_self
    exact absurd counted (by decide +kernel)
  · intro rows made
    have failed : reported alarmed "day" =
        .error "sla report scan: can't scan into dest[0] (col: bucket): cannot scan NULL into *string" := by
      decide +kernel
    rw [failed] at made
    cases made

end Ironsight.SlaReport
