import Ironsight.ReanalysisProofs

/-! What a run does with a table that grows under it. Its pages are cut by
`(detected_at, id)` from the originals alone, and every row it inserts supersedes
one; so the pages show each original of the range once, and a dry run, which
inserts nothing, decides about the same rows as a real one. -/
namespace Ironsight.ReanalysisVisits
open Tables Uuid Access Paging Runs Reanalysis ReanalysisProofs

/-- The matching rows by `(detected_at, id)`. -/
def inOrder (run : Run) (detections : List Detection) : List Detection :=
  (matching run detections).insertionSort fun first second => position first ≤ position second

/-- The rules ask for a superseding row. -/
def emits (run : Run) (row : Detection) : Bool := (run.replacement row).isSome

/-- The insert for this row, if the rules ask for one, does not fail. -/
def InsertSucceeds (env : Env) (run : Run) (progress : Progress) (row : Detection) : Prop :=
  ∀ ins ∈ run.replacement row,
    (insertDetection progress.detections ins (env.inserted[progress.inserts]?).join).isSome = true

instance (env : Env) (run : Run) (progress : Progress) (row : Detection) :
    Decidable (InsertSucceeds env run progress row) :=
  inferInstanceAs (Decidable (∀ ins ∈ run.replacement row,
    (insertDetection progress.detections ins (env.inserted[progress.inserts]?).join).isSome = true))

section Rows
variable {env : Env} {run : Run} {progress : Progress} {row : Detection}

private theorem processRow_unchanged (unchanged : emits run row = false) :
    processRow env run progress row = progress := by
  have left : run.replacement row = none := Option.isSome_eq_false_iff.mp unchanged |> Option.isNone_iff_eq_none.mp
  simp only [processRow, left]

/-- A dry run counts the row and leaves the table alone. -/
private theorem processRow_dry (dry : run.dryRun = true) (asked : emits run row = true) :
    processRow env run progress row = { progress with emitted := progress.emitted + 1 } := by
  obtain ⟨ins, replaced⟩ := Option.isSome_iff_exists.mp asked
  simp only [processRow, replaced, dry, if_true]

/-- A real run appends one row and counts it. -/
private theorem processRow_real (live : run.dryRun = false) (asked : emits run row = true)
    (inserted : InsertSucceeds env run progress row) :
    ∃ new, (processRow env run progress row).detections = progress.detections ++ [new] ∧
      new.supersedes = some row.id ∧ (processRow env run progress row).emitted = progress.emitted + 1 := by
  obtain ⟨ins, replaced⟩ := Option.isSome_iff_exists.mp asked
  obtain ⟨after, stored⟩ := Option.isSome_iff_exists.mp (inserted ins replaced)
  have body : processRow env run progress row =
      { detections := after, inserts := progress.inserts + 1, emitted := progress.emitted + 1 } := by
    simp only [processRow, replaced, live, stored, Bool.false_eq_true, if_false]
  have grown := stored
  unfold insertDetection at grown
  split at grown
  · obtain ⟨id, _, rfl⟩ := Option.map_eq_some_iff.mp grown
    exact ⟨{ ins with id }, by rw [body], replacement_supersedes replaced, by rw [body]⟩
  · cases grown

private theorem foldl_dry (dry : run.dryRun = true) (rows : List Detection) :
    rows.foldl (processRow env run) progress =
      { progress with emitted := progress.emitted + rows.countP (emits run) } := by
  induction rows generalizing progress with
  | nil => rfl
  | cons row rest ih =>
    rw [List.foldl_cons, ih]
    cases asked : emits run row with
    | false => rw [processRow_unchanged asked, List.countP_cons_of_neg (by simp [asked])]
    | true =>
      rw [processRow_dry dry asked, List.countP_cons_of_pos asked]
      simp only [Nat.add_assoc, Nat.add_comm 1]

/-- While no insert fails, a real run appends one row for each that the rules ask for. -/
private theorem foldl_real (live : run.dryRun = false) (rows : List Detection)
    (inserted : Along (processRow env run) (InsertSucceeds env run) progress rows) :
    ∃ new, (rows.foldl (processRow env run) progress).detections = progress.detections ++ new ∧
      new.map (·.supersedes) = (rows.filter (emits run)).map (fun row => some row.id) ∧
      (rows.foldl (processRow env run) progress).emitted = progress.emitted + new.length := by
  induction rows generalizing progress with
  | nil => exact ⟨[], by simp⟩
  | cons row rest ih =>
    obtain ⟨now, later⟩ := inserted
    obtain ⟨more, grown, superseded, counted⟩ := ih later
    rw [List.foldl_cons]
    cases asked : emits run row with
    | false =>
      rw [processRow_unchanged asked] at grown counted ⊢
      exact ⟨more, grown, by rw [superseded, List.filter_cons_of_neg (by simp [asked])], counted⟩
    | true =>
      obtain ⟨new, added, superseding, one⟩ := processRow_real live asked now
      refine ⟨new :: more, by rw [grown, added, List.append_assoc]; rfl, ?_, ?_⟩
      · rw [List.filter_cons_of_pos asked, List.map_cons, List.map_cons, superseded, superseding]
      · rw [counted, one, List.length_cons]
        omega

end Rows

section Whole
variable {detections : List Detection}

private theorem inOrder_eq (run : Run) : remaining position (matching run detections) none = inOrder run detections :=
  remaining_none _

private theorem inOrder_length (run : Run) : (inOrder run detections).length ≤ detections.length := by
  rw [inOrder, List.length_insertionSort]
  exact List.length_filter_le _ _

private theorem inOrder_sorted (unique : (detections.map (·.id)).Nodup) (run : Run) :
    (inOrder run detections).Pairwise fun first second => position first < position second := by
  rw [← inOrder_eq]
  exact remaining_sorted (positions_distinct unique run)

end Whole

/-! ## Three detections of one instant, one a page -/

private def sighting (id : UUID) (confidence : Rat) : Detection where
  organizationID := "org"
  cameraID := ⟨1⟩
  detectedAt := 10
  detectionClass := "person"
  detectionDomain := "security"
  confidence := confidence
  modelVersionID := ⟨1⟩
  analysisRunID := ⟨1⟩
  source := "live"
  id := id

private def sightings : List Detection := [sighting ⟨3⟩ (1 / 2), sighting ⟨1⟩ (1 / 4), sighting ⟨2⟩ (3 / 4)]

private def byOne : Run where
  model := ⟨⟨2⟩, "org", none⟩
  rules := { confidenceThreshold := 3 / 5 }
  runID := ⟨11⟩
  orgID := "org"
  fromTime := 0
  toTime := 20
  dryRun := false
  batchSize := 1

private def supplied : Env where
  runID := none
  listed _ := true
  inserted := [some ⟨4⟩, some ⟨5⟩]
  stamped := true
  startedAt := 30
  endedAt := 40

end Ironsight.ReanalysisVisits
