import Ironsight.ReanalysisVisits

/-! What an administrator is told about a run of the endpoint. The status is read
off `ended_at` alone: a run that never stamps it is running for ever, and one
that stamps it is done, whatever it passed over. -/
namespace Ironsight.ReanalysisStatus
open Tables Uuid Access Paging Runs Reanalysis ReanalysisProofs ReanalysisVisits

inductive RunStatus where
  | running
  | done
  deriving DecidableEq

/-- `HandleGetReanalyzeRun`, for an administrator; `none` is run not found. -/
def getReanalyzeRun (runs : Table AnalysisRun.id) (runID : UUID) : Option RunStatus :=
  (runs.find? runID).map fun run => if run.endedAt.isSome then .done else .running

/-- The rows the rules call for are in the table, and every matching detection was
handed to the loop. -/
def Complete (run : Run) (env : Env) (before after : List Detection) : Prop :=
  (visits env run (before.length + 1) 0 none { detections := before }).Perm (matching run before) ∧
  ∃ new : List Detection, after = before ++ new ∧
    (new.map (·.toDetectionInsert)).Perm ((matching run before).filterMap run.replacement)

/-- Once the goroutine has returned, whatever happens later, the status of its run is
not running, and is done only of a complete run. -/
def Truthful (world : World) (request : Request) (env : Env) (runID : UUID) : Prop :=
  ∀ moves : List Move, ∀ status ∈ getReanalyzeRun
      (exec step (reanalyze (.api true) world request env) moves).analysisRuns runID,
    status ≠ .running ∧ (status = .done → ∃ run, plan (.api true) world request env = some run ∧
      Complete run env world.detections (reanalyze (.api true) world request env).detections)

/-- The stored parameters parse, the run is not dry and its end is stamped, no list
query fails before the matching rows are through, and every superseding row is
accepted and inserted. -/
def RunsThrough (world : World) (request : Request) (env : Env) : Prop :=
  ∃ run, plan (.api true) world request env = some run ∧ run.dryRun = false ∧ env.stamped = true ∧
    (∀ page, 500 * page < (matching run world.detections).length → env.listed page = true) ∧
    ∀ (position : Nat) ins, ((inOrder run world.detections).filterMap run.replacement)[position]? = some ins →
      ins.accepted = true ∧ ∃ id, env.inserted[position]? = some (some id)

/-! ## Which rows the pages show -/

section Pages
variable {env : Env} {run : Run}

/-- If no list query fails before the remaining rows are through, all are visited. -/
private theorem visits_all : ∀ (fuel lists : Nat) (cursor : Option (Instant ×ₗ Nat)) (progress : Progress),
    ((matching run progress.detections).map position).Nodup →
    (remaining position (matching run progress.detections) cursor).length < fuel →
    (∀ page, (run.filter none).size * page < (remaining position (matching run progress.detections) cursor).length →
      env.listed (lists + page) = true) →
    visits env run fuel lists cursor progress = remaining position (matching run progress.detections) cursor
  | 0, _, _, _, _, enough, _ => absurd enough (Nat.not_lt_zero _)
  | fuel + 1, lists, cursor, progress, distinct, enough, listed => by
    have paged : listDetectionsForReanalysis progress.detections (run.filter cursor) =
        page position (matching run progress.detections) cursor (run.filter none).size := rfl
    have positive := size_pos (run.filter none)
    simp only [visits, paged]
    generalize cut : page position (matching run progress.detections) cursor (run.filter none).size = batch
    cases ends : batch.getLast? with
    | none =>
      rw [List.getLast?_eq_none_iff.mp ends] at cut
      rw [remaining_of_page_nil positive cut]
      split <;> rfl
    | some last =>
      subst cut
      have rest := page_append_remaining distinct ends
      have dropped := remaining_page distinct ends
      generalize page position (matching run progress.detections) cursor (run.filter none).size = batch at *
      have nonempty : batch ≠ [] := by
        rintro rfl
        cases ends
      have shorter := List.length_pos_of_ne_nil nonempty
      have kept : matching run (batch.foldl (processRow env run) progress).detections =
          matching run progress.detections := matching_foldl batch
      have total := congrArg List.length rest
      have left := congrArg List.length dropped
      rw [List.length_append] at total
      rw [List.length_drop] at left
      have first : env.listed lists = true := listed 0 (by rw [Nat.mul_zero]; omega)
      have later := visits_all fuel (lists + 1) (some (position last)) (batch.foldl (processRow env run) progress)
        (kept.symm ▸ distinct) (by rw [kept]; omega) (by
          intro page inside
          rw [kept] at inside
          have next := listed (page + 1) (by rw [Nat.mul_add, Nat.mul_one]; omega)
          rwa [show lists + 1 + page = lists + (page + 1) by omega])
      simp only [first, if_true, later, kept, rest]

variable (env run) in
/-- A failed list query ends the visits. -/
private theorem visits_stopped (page : Nat) :
    ∀ (fuel lists : Nat) (cursor : Option (Instant ×ₗ Nat)) (progress : Progress),
    env.listed (lists + page) = false →
    (visits env run fuel lists cursor progress).length ≤ (run.filter none).size * page := by
  induction page with
  | zero =>
    intro fuel lists cursor progress failed
    cases fuel with
    | zero => exact Nat.zero_le _
    | succ fuel => simp [visits, show env.listed lists = false from failed]
  | succ page ih =>
    intro fuel lists cursor progress failed
    cases fuel with
    | zero => exact Nat.zero_le _
    | succ fuel =>
      simp only [visits]
      split
      · split
        · exact Nat.zero_le _
        · rename_i last _
          have rest := ih fuel (lists + 1) (some (position last))
            ((listDetectionsForReanalysis progress.detections (run.filter cursor)).foldl (processRow env run) progress)
            (by rwa [show lists + 1 + page = lists + (page + 1) by omega])
          have batch : (listDetectionsForReanalysis progress.detections (run.filter cursor)).length ≤
              (run.filter none).size := List.length_take_le _ _
          rw [List.length_append, Nat.mul_add, Nat.mul_one]
          omega
      · exact Nat.zero_le _

end Pages

/-! ## Which inserts take effect -/

/-- The rows that these inserts, the first of them the `attempt`-th of the run, add. -/
private def stored (env : Env) : Nat → List DetectionInsert → List Detection
  | _, [] => []
  | attempt, ins :: rest =>
    (insertDetection [] ins (env.inserted[attempt]?).join).getD [] ++ stored env (attempt + 1) rest

section Inserts
variable {env : Env} {run : Run} {progress : Progress}

private theorem insertDetection_append (detections : List Detection) (ins : DetectionInsert) (id : Option UUID) :
    (insertDetection detections ins id).getD detections = detections ++ (insertDetection [] ins id).getD [] := by
  unfold insertDetection
  split
  · cases id <;> simp
  · simp

variable (env progress) in
private theorem processRow_live (live : run.dryRun = false) (row : Detection) :
    (processRow env run progress row).detections =
        progress.detections ++ stored env progress.inserts (run.replacement row).toList ∧
      (processRow env run progress row).inserts = progress.inserts + (run.replacement row).toList.length := by
  cases replaced : run.replacement row with
  | none => simp [processRow, replaced, stored]
  | some ins =>
    have grown := insertDetection_append progress.detections ins (env.inserted[progress.inserts]?).join
    cases inserted : insertDetection progress.detections ins (env.inserted[progress.inserts]?).join with
    | none =>
      rw [inserted] at grown
      simpa [processRow, replaced, live, inserted, stored] using grown
    | some detections =>
      rw [inserted] at grown
      simpa [processRow, replaced, live, inserted, stored] using grown

private theorem stored_append (first second : List DetectionInsert) : ∀ attempt,
    stored env attempt (first ++ second) = stored env attempt first ++ stored env (attempt + first.length) second := by
  induction first with
  | nil => intro attempt; rfl
  | cons ins rest ih =>
    intro attempt
    rw [List.cons_append, stored, stored, ih, List.append_assoc, List.length_cons, Nat.add_right_comm, Nat.add_assoc]

private theorem foldl_live (live : run.dryRun = false) (rows : List Detection) :
    (rows.foldl (processRow env run) progress).detections =
      progress.detections ++ stored env progress.inserts (rows.filterMap run.replacement) := by
  induction rows generalizing progress with
  | nil => simp [stored]
  | cons row rest ih =>
    obtain ⟨grown, attempts⟩ := processRow_live env progress live row
    have split : (row :: rest).filterMap run.replacement =
        (run.replacement row).toList ++ rest.filterMap run.replacement := by
      cases replaced : run.replacement row <;> simp [replaced]
    rw [List.foldl_cons, ih, grown, attempts, split, stored_append, List.append_assoc]

variable (env) in
/-- What is stored are the inserts, in order, without those that failed. -/
private theorem stored_sublist (calls : List DetectionInsert) : ∀ attempt,
    ((stored env attempt calls).map (·.toDetectionInsert)).Sublist calls := by
  induction calls with
  | nil => intro attempt; exact List.nil_sublist _
  | cons ins rest ih =>
    intro attempt
    rw [stored, List.map_append]
    unfold insertDetection
    split
    · cases (env.inserted[attempt]?).join with
      | none => exact (ih _).cons _
      | some id => exact (ih _).cons_cons _
    · exact (ih _).cons _

variable (env) in
/-- Nothing is missing exactly if no insert failed. -/
private theorem stored_all_iff (calls : List DetectionInsert) : ∀ attempt,
    (stored env attempt calls).map (·.toDetectionInsert) = calls ↔
      ∀ (position : Nat) ins, calls[position]? = some ins →
        ins.accepted = true ∧ ∃ id, env.inserted[attempt + position]? = some (some id) := by
  induction calls with
  | nil => intro attempt; simp [stored]
  | cons ins rest ih =>
    intro attempt
    have later := stored_sublist env rest (attempt + 1)
    constructor
    · intro whole
      rw [stored, List.map_append] at whole
      have failed : insertDetection [] ins (env.inserted[attempt]?).join ≠ none := by
        intro failed
        rw [failed] at whole
        have short := later.length_le
        rw [show (stored env (attempt + 1) rest).map (·.toDetectionInsert) = ins :: rest from whole] at short
        exact absurd short (by simp)
      unfold insertDetection at failed whole
      split at failed
      · rename_i accepted
        cases drawn : (env.inserted[attempt]?).join with
        | none => exact absurd (by rw [drawn]; rfl) failed
        | some id =>
          rw [if_pos accepted, drawn] at whole
          intro position other held
          cases position with
          | zero =>
            cases held
            exact ⟨accepted, id, Option.join_eq_some_iff.mp drawn⟩
          | succ position =>
            have next := (ih (attempt + 1)).mp (List.cons.inj whole).2 position other held
            rwa [show attempt + 1 + position = attempt + (position + 1) by omega] at next
      · exact absurd rfl failed
    · intro succeeded
      obtain ⟨accepted, id, drawn⟩ := succeeded 0 ins rfl
      have others := (ih (attempt + 1)).mpr fun position other held => by
        have next := succeeded (position + 1) other held
        rwa [show attempt + (position + 1) = attempt + 1 + position by omega] at next
      rw [stored, List.map_append, others, show env.inserted[attempt]? = some (some id) from drawn]
      simp [insertDetection, accepted]

end Inserts

/-! ## The status of a run -/

section Status
variable {world : World} {request : Request} {env : Env} {model : ModelVersion} {orgID : String} {runID : UUID}
  {runs : Table AnalysisRun.id}

/-- The run is recorded, with this end. -/
private def Recorded (runID : UUID) (endedAt : Option Instant) (world : World) : Prop :=
  ∃ row ∈ world.analysisRuns, row.id = runID ∧ row.endedAt = endedAt

private theorem recorded_status {endedAt : Option Instant} (recorded : Recorded runID endedAt world) :
    getReanalyzeRun world.analysisRuns runID = some (if endedAt.isSome then .done else .running) := by
  obtain ⟨row, held, same, ended⟩ := recorded
  rw [getReanalyzeRun, Table.find?_eq_some.mpr ⟨held, same⟩, ← ended]
  rfl

private theorem insertAnalysisRun_inserted {mv : ModelVersion} {before after : Table AnalysisRun.id}
    (inserted : insertAnalysisRun before mv orgID env = some (runID, after)) :
    before.insert? ⟨runID, orgID, mv.id, env.startedAt, none⟩ = some after := by
  unfold insertAnalysisRun at inserted
  split at inserted
  · cases inserted
  · split at inserted
    · cases inserted
    · obtain ⟨table, added, same⟩ := Option.map_eq_some_iff.mp inserted
      cases same
      exact added

/-- A run is recorded under a new identifier, unless it is a dry run of the command. -/
private theorem record_cases {entry : Entry} (recorded : record entry world request env = some (model, orgID, runID, runs)) :
    (entry = .cli ∧ request.dryRun = true ∧ runs = world.analysisRuns) ∨
      world.analysisRuns.insert? ⟨runID, orgID, model.id, env.startedAt, none⟩ = some runs := by
  unfold record at recorded
  split at recorded
  · cases recorded
  · split at recorded
    · rename_i unrecorded
      cases recorded
      exact .inl ⟨unrecorded.1, unrecorded.2, rfl⟩
    · obtain ⟨⟨id, table⟩, inserted, same⟩ := Option.map_eq_some_iff.mp recorded
      cases same
      exact .inr (insertAnalysisRun_inserted inserted)

private theorem plan_dryRun {entry : Entry} {run : Run} (planned : plan entry world request env = some run) :
    run.dryRun = request.dryRun := by
  unfold plan at planned
  split at planned
  · cases planned
  · obtain ⟨rules, _, rfl⟩ := Option.map_eq_some_iff.mp planned
    rfl

/-- A request stamps its own run at most, and no dry run. -/
private theorem reanalyze_runs {entry : Entry} (recorded : record entry world request env = some (model, orgID, runID, runs)) :
    (reanalyze entry world request env).analysisRuns = runs ∨ request.dryRun = false ∧
      (reanalyze entry world request env).analysisRuns = updateAnalysisRunEnded runs runID env.endedAt := by
  simp only [reanalyze, recorded]
  cases planned : plan entry world request env with
  | none => exact .inl rfl
  | some run =>
    have dryness := plan_dryRun planned
    dsimp only
    cases ran : loop env run (world.detections.length + 1) 0 none { detections := world.detections } with
    | none => exact .inl rfl
    | some ended =>
      obtain ⟨progress, completed⟩ := ended
      dsimp only
      split
      · rename_i ends
        simp only [Bool.and_eq_true, Bool.not_eq_true'] at ends
        exact .inr ⟨dryness ▸ ends.1.1, rfl⟩
      · exact .inl rfl

private theorem updateAnalysisRunEnded_recorded {row : AnalysisRun} {now : Instant} {detections : List Detection}
    (held : row ∈ runs) (same : row.id = runID) :
    Recorded runID (some now) ⟨detections, updateAnalysisRunEnded runs runID now⟩ := by
  refine ⟨{ row with endedAt := some now }, ?_, same, rfl⟩
  dsimp only
  rw [updateAnalysisRunEnded, Table.mem_modify]
  exact ⟨row, held, by rw [if_pos (by simpa using same)]⟩

private theorem recorded_insert {before after : Table AnalysisRun.id} {new : AnalysisRun} {row : AnalysisRun}
    (inserted : before.insert? new = some after) (held : row ∈ before) : row ∈ after ∧ row.id ≠ new.id :=
  ⟨(Table.mem_insert? inserted).mpr (.inl held), Table.insert?_fresh inserted row held⟩

/-- No later move changes the end of a run. -/
private theorem recorded_step (runID : UUID) (endedAt : Option Instant) (world : World) (move : Move)
    (recorded : Recorded runID endedAt world) : Recorded runID endedAt (step world move) := by
  obtain ⟨row, held, same, ended⟩ := recorded
  cases move with
  | ingest => exact ⟨row, held, same, ended⟩
  | reanalyze entry request env =>
    cases fresh : record entry world request env with
    | none =>
      rw [step, reanalyze, fresh]
      exact ⟨row, held, same, ended⟩
    | some found =>
      obtain ⟨model, orgID, newID, runs⟩ := found
      rcases record_cases fresh with ⟨_, dry, rfl⟩ | inserted
      · rcases reanalyze_runs fresh with kept | ⟨live, _⟩
        · exact ⟨row, kept ▸ held, same, ended⟩
        · rw [dry] at live
          cases live
      · obtain ⟨still, other⟩ := recorded_insert inserted held
        rcases reanalyze_runs fresh with kept | ⟨_, stamped⟩
        · exact ⟨row, kept ▸ still, same, ended⟩
        · refine ⟨row, ?_, same, ended⟩
          show row ∈ (reanalyze entry world request env).analysisRuns
          rw [stamped]
          exact Table.mem_modify.mpr ⟨row, still, by rw [if_neg (by simpa using other)]⟩

/-- The status of a run that has returned is the same ever after. -/
private theorem truthful_iff_recorded {endedAt : Option Instant}
    (recorded : Recorded runID endedAt (reanalyze (.api true) world request env)) :
    Truthful world request env runID ↔ endedAt.isSome = true ∧ ∃ run, plan (.api true) world request env = some run ∧
      Complete run env world.detections (reanalyze (.api true) world request env).detections := by
  have always (moves : List Move) := recorded_status
    (exec_invariant (recorded_step runID endedAt) moves _ recorded)
  constructor
  · intro truthful
    obtain ⟨notRunning, complete⟩ := truthful [] _ (always [])
    cases ended : endedAt.isSome with
    | false =>
      rw [ended] at notRunning
      exact absurd rfl notRunning
    | true => exact ⟨rfl, complete (by rw [ended]; rfl)⟩
  · rintro ⟨ended, complete⟩ moves status shown
    rw [always moves, ended] at shown
    cases shown
    exact ⟨nofun, fun _ => complete⟩

private theorem record_running (recorded : record (.api true) world request env = some (model, orgID, runID, runs)) :
    ∃ row ∈ runs, row.id = runID ∧ row.endedAt = none := by
  rcases record_cases recorded with ⟨command, _⟩ | inserted
  · cases command
  · exact ⟨_, (Table.mem_insert? inserted).mpr (.inr rfl), rfl, rfl⟩

private theorem plan_size {entry : Entry} {run : Run} (planned : plan entry world request env = some run) :
    (run.filter none).size = 500 := by
  unfold plan at planned
  split at planned
  · cases planned
  · obtain ⟨rules, _, rfl⟩ := Option.map_eq_some_iff.mp planned
    rfl

variable (env) in
/-- A real run is complete exactly if no query fails that shows a matching row, and no insert. -/
private theorem complete_iff {run : Run} {before : List Detection} (unique : (before.map (·.id)).Nodup)
    (live : run.dryRun = false) :
    Complete run env before ((visits env run (before.length + 1) 0 none { detections := before }).foldl
        (processRow env run) { detections := before }).detections ↔
      (∀ page, (run.filter none).size * page < (matching run before).length → env.listed page = true) ∧
      ∀ (position : Nat) ins, ((inOrder run before).filterMap run.replacement)[position]? = some ins →
        ins.accepted = true ∧ ∃ id, env.inserted[position]? = some (some id) := by
  have ordered : (inOrder run before).Perm (matching run before) := List.perm_insertionSort _ _
  have whole : remaining position (matching run before) none = inOrder run before := remaining_none _
  have calls := ordered.filterMap run.replacement
  have succeeded := stored_all_iff env ((inOrder run before).filterMap run.replacement) 0
  simp only [Nat.zero_add] at succeeded
  have shown (listed : ∀ page, (run.filter none).size * page < (matching run before).length → env.listed page = true) :
      visits env run (before.length + 1) 0 none { detections := before } = inOrder run before := by
    rw [← whole]
    refine visits_all (before.length + 1) 0 none { detections := before } (positions_distinct unique run) ?_ ?_
    · show (remaining position (matching run before) none).length < _
      rw [whole, ordered.length_eq]
      exact Nat.lt_succ_of_le (List.length_filter_le _ _)
    · intro page inside
      rw [Nat.zero_add]
      refine listed page ?_
      rwa [show (remaining position (matching run before) none).length = (matching run before).length by
        rw [whole, ordered.length_eq]] at inside
  rw [foldl_live live]
  constructor
  · rintro ⟨visited, new, added, same⟩
    have listed : ∀ page, (run.filter none).size * page < (matching run before).length → env.listed page = true := by
      intro page inside
      by_contra failed
      have short := visits_stopped env run page (before.length + 1) 0 none { detections := before }
        (by rw [Nat.zero_add]; exact Bool.eq_false_iff.mpr failed)
      rw [visited.length_eq] at short
      omega
    refine ⟨listed, succeeded.mp ?_⟩
    have new_eq := List.append_cancel_left added
    rw [shown listed] at new_eq
    subst new_eq
    exact (stored_sublist env _ 0).eq_of_length (same.trans calls.symm).length_eq
  · rintro ⟨listed, inserted⟩
    refine ⟨(shown listed).symm ▸ ordered, stored env 0 ((inOrder run before).filterMap run.replacement), ?_, ?_⟩
    · rw [shown listed]
    · rw [succeeded.mpr inserted]
      exact calls

/-- A run that is recorded as running is not truthfully done, and must not have run through. -/
private theorem running_iff (running : Recorded runID none (reanalyze (.api true) world request env))
    (short : ¬ RunsThrough world request env) : Truthful world request env runID ↔ RunsThrough world request env := by
  rw [truthful_iff_recorded running]
  refine iff_of_false (fun truthful => ?_) short
  cases truthful.1

end Status

/-! ## A real run and a dry one over one detection -/

private def sighting : Detection where
  organizationID := "org"
  cameraID := ⟨1⟩
  detectedAt := 10
  detectionClass := "person"
  detectionDomain := "security"
  confidence := 1 / 2
  modelVersionID := ⟨1⟩
  analysisRunID := ⟨1⟩
  source := "live"
  id := ⟨1⟩

private def watched : World := ⟨[sighting], .empty⟩

private def stricter (dryRun : Bool) : Request where
  modelVersion := some ⟨⟨2⟩, "org", some { confidenceThreshold := 3 / 5 }⟩
  fromTime := 0
  toTime := 20
  dryRun := dryRun

private def supplied : Env where
  runID := some ⟨11⟩
  listed _ := true
  inserted := [some ⟨2⟩]
  stamped := true
  startedAt := 30
  endedAt := 40

private def started (dryRun : Bool) : Table AnalysisRun.id :=
  ((record (.api true) watched (stricter dryRun) supplied).map fun recorded => recorded.2.2.2).getD .empty

private theorem started_recorded (dryRun : Bool) : ∃ model, record (.api true) watched (stricter dryRun) supplied =
    some (model, "org", ⟨11⟩, started dryRun) :=
  ⟨⟨⟨2⟩, "org", some { confidenceThreshold := 3 / 5 }⟩, rfl⟩

private def stricterRun : Run where
  model := ⟨⟨2⟩, "org", some { confidenceThreshold := 3 / 5 }⟩
  rules := { confidenceThreshold := 3 / 5 }
  runID := ⟨11⟩
  orgID := "org"
  fromTime := 0
  toTime := 20
  dryRun := false

end Ironsight.ReanalysisStatus
