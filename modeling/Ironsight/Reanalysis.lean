import Mathlib.Algebra.Order.Ring.Rat
import Mathlib.Data.Prod.Lex
import Ironsight.Access
import Ironsight.Paging

/-! Re-analysis of stored detections: a rule set decides about every original
detection in a time range, and a detection it changes or drops is superseded by
a new row. Rows are never updated or deleted; the current ones are those that no
row supersedes. -/
namespace Ironsight.Reanalysis
open Tables Uuid Access Paging

/-! ## Rule sets -/

structure ClassRule where
  className : String
  minConfidence : Rat
  deriving DecidableEq

/-- `map[string]*string`; the null value drops the class. -/
abbrev ClassRemap := Table (Prod.fst : String × Option String → String)

/-- `RuleSet`: what a detection has to meet, and how it is named. -/
structure RuleSet where
  confidenceThreshold : Rat := 0
  classRemap : ClassRemap := .empty
  minBBoxArea : Rat := 0
  rules : List ClassRule := []

structure BBox where
  x1 : Rat
  y1 : Rat
  x2 : Rat
  y2 : Rat
  deriving DecidableEq

/-- `BBox.Area`, zero for a collapsed or inverted box. -/
def BBox.area (box : BBox) : Rat :=
  let w := box.x2 - box.x1
  let h := box.y2 - box.y1
  if w ≤ 0 ∨ h ≤ 0 then 0 else w * h

inductive Outcome where
  | unchanged
  | changed (newClass : String)
  | dropped
  deriving DecidableEq

/-- The per-class rules and the final verdict of `ApplyRuleSet`; only the first
rule of a class counts. -/
private def applyRules (oldClass newClass : String) (confidence : Rat) (rs : RuleSet) : Outcome :=
  let verdict := if newClass = oldClass then Outcome.unchanged else .changed newClass
  match rs.rules.find? fun rule => rule.className = newClass with
  | none => verdict
  | some rule =>
    let effective := if rule.minConfidence ≤ rs.confidenceThreshold then rs.confidenceThreshold else rule.minConfidence
    if confidence < effective then .dropped else verdict

/-- The minimum area, then the rules; a malformed box is dropped. -/
private def applyArea (oldClass newClass : String) (confidence : Rat) (box : Option BBox) (rs : RuleSet) : Outcome :=
  if 0 < rs.minBBoxArea then
    match box with
    | none => .dropped
    | some bb => if bb.area < rs.minBBoxArea then .dropped else applyRules oldClass newClass confidence rs
  else applyRules oldClass newClass confidence rs

/-- `ApplyRuleSet`, with the box as `ParseBBox` reads it. -/
def applyRuleSet (oldClass : String) (confidence : Rat) (box : Option BBox) (rs : RuleSet) : Outcome :=
  if 0 < rs.confidenceThreshold ∧ confidence < rs.confidenceThreshold then .dropped
  else match rs.classRemap.find? oldClass with
    | none => applyArea oldClass oldClass confidence box rs
    | some (_, none) => .dropped
    | some (_, some newClass) => applyArea oldClass newClass confidence box rs

/-- The class that the rules see, unless the map drops the detection. -/
def RuleSet.remapped (rs : RuleSet) (oldClass : String) : Option String :=
  match rs.classRemap.find? oldClass with
  | none => some oldClass
  | some (_, newClass) => newClass

/-- A malformed box counts as one without an area. -/
def RuleSet.TooSmall (rs : RuleSet) (box : Option BBox) : Prop :=
  0 < rs.minBBoxArea ∧ ∀ bb ∈ box, bb.area < rs.minBBoxArea

/-- The filters that come before the rules. -/
def RuleSet.Filtered (rs : RuleSet) (oldClass : String) (confidence : Rat) (box : Option BBox) : Prop :=
  (0 < rs.confidenceThreshold ∧ confidence < rs.confidenceThreshold) ∨ rs.remapped oldClass = none ∨ rs.TooSmall box

/-- The outcome for a detection that is kept. -/
def renamed (oldClass newClass : String) : Outcome := if newClass = oldClass then .unchanged else .changed newClass

private theorem applyArea_eq {oldClass newClass : String} {confidence : Rat} {box : Option BBox} {rs : RuleSet} :
    (rs.TooSmall box → applyArea oldClass newClass confidence box rs = .dropped) ∧
      (¬ rs.TooSmall box → applyArea oldClass newClass confidence box rs = applyRules oldClass newClass confidence rs) := by
  unfold applyArea RuleSet.TooSmall
  cases box with
  | none => by_cases positive : 0 < rs.minBBoxArea <;> simp [positive]
  | some bb => by_cases positive : 0 < rs.minBBoxArea <;> by_cases small : bb.area < rs.minBBoxArea <;> simp [positive, small]

private theorem applyRuleSet_eq {oldClass newClass : String} {confidence : Rat} {box : Option BBox} {rs : RuleSet}
    (enough : ¬ (0 < rs.confidenceThreshold ∧ confidence < rs.confidenceThreshold))
    (mapped : rs.remapped oldClass = some newClass) :
    applyRuleSet oldClass confidence box rs = applyArea oldClass newClass confidence box rs := by
  unfold RuleSet.remapped at mapped
  unfold applyRuleSet
  rw [if_neg enough]
  split at mapped <;> simp_all

theorem applyRuleSet_filtered {oldClass : String} {confidence : Rat} {box : Option BBox} {rs : RuleSet}
    (filtered : rs.Filtered oldClass confidence box) : applyRuleSet oldClass confidence box rs = .dropped := by
  by_cases below : 0 < rs.confidenceThreshold ∧ confidence < rs.confidenceThreshold
  · exact if_pos below
  cases mapped : rs.remapped oldClass with
  | none =>
    unfold RuleSet.remapped at mapped
    unfold applyRuleSet
    rw [if_neg below]
    split at mapped <;> simp_all
  | some newClass =>
    rw [applyRuleSet_eq below mapped]
    rcases filtered with least | dropped | small
    · exact absurd least below
    · simp [mapped] at dropped
    · exact applyArea_eq.1 small

/-- Behind the filters the first rule for the class decides. -/
theorem applyRuleSet_kept {oldClass newClass : String} {confidence : Rat} {box : Option BBox} {rs : RuleSet}
    (kept : ¬ rs.Filtered oldClass confidence box) (mapped : rs.remapped oldClass = some newClass) :
    applyRuleSet oldClass confidence box rs =
      if (rs.rules.find? fun rule => rule.className = newClass).any fun rule =>
          confidence < max rs.confidenceThreshold rule.minConfidence
        then .dropped else renamed oldClass newClass := by
  unfold RuleSet.Filtered at kept
  push Not at kept
  rw [applyRuleSet_eq (by grind) mapped, applyArea_eq.2 kept.2.2]
  unfold applyRules renamed
  cases rs.rules.find? (fun rule => rule.className = newClass) with
  | none => simp
  | some rule =>
    have larger : (if rule.minConfidence ≤ rs.confidenceThreshold then rs.confidenceThreshold else rule.minConfidence) =
        max rs.confidenceThreshold rule.minConfidence := by
      split
      case isTrue le => exact (max_eq_left le).symm
      case isFalse lt => exact (max_eq_right (le_of_lt (not_le.mp lt))).symm
    simp [larger]

/-! ## Detections -/

structure DetectionInsert where
  organizationID : String
  siteID : Option String := none
  cameraID : UUID
  detectedAt : Instant
  detectionClass : String
  detectionDomain : String
  confidence : Rat
  boundingBox : Option BBox := some ⟨0, 0, 0, 0⟩
  zoneID : Option UUID := none
  vcaRuleID : Option UUID := none
  modelVersionID : UUID
  analysisRunID : UUID
  segmentID : Option Int := none
  frameOffsetMs : Option Int := none
  source : String
  supersedes : Option UUID := none
  details : String := "\x7b\x7d"
  deriving DecidableEq

/-- A row of `detections`. No index makes the identifiers unique. -/
structure Detection extends DetectionInsert where
  id : UUID
  deriving DecidableEq

/-- The zero `time.Time`, in nanoseconds. -/
def zeroTime : Instant := -62135596800000000000

/-- The checks of `InsertDetection` and of the table. -/
def DetectionInsert.accepted (ins : DetectionInsert) : Bool :=
  ins.organizationID ≠ "" ∧ ins.cameraID ≠ .nil ∧ ins.detectedAt ≠ zeroTime ∧ ins.detectionClass ≠ "" ∧
  ins.modelVersionID ≠ .nil ∧ ins.analysisRunID ≠ .nil ∧
  ["ppe", "security", "person_tracking", "vlm_validation"].contains ins.detectionDomain ∧
  ["live", "reanalysis"].contains ins.source ∧ 0 ≤ ins.confidence ∧ ins.confidence ≤ 1

/-- `InsertDetection` with the identifier the database drew, if it did not fail. -/
def insertDetection (detections : List Detection) (ins : DetectionInsert) (id : Option UUID) : Option (List Detection) :=
  if ins.accepted then id.map fun id => detections ++ [{ ins with id }] else none

/-- The view `detections_current`. -/
def Current (detections : List Detection) (row : Detection) : Prop :=
  ∀ other ∈ detections, other.supersedes ≠ some row.id

instance (detections : List Detection) (row : Detection) : Decidable (Current detections row) :=
  inferInstanceAs (Decidable (∀ other ∈ detections, other.supersedes ≠ some row.id))

/-- `ORDER BY detected_at, id`. -/
def position (row : Detection) : Instant ×ₗ Nat := toLex (row.detectedAt, row.id.bits.toNat)

structure ReanalysisFilter where
  organizationID : String
  fromTime : Instant
  untilTime : Instant
  batchSize : Int := 0
  after : Option (Instant ×ₗ Nat) := none

def ReanalysisFilter.accepts (f : ReanalysisFilter) (row : Detection) : Bool :=
  row.supersedes = none ∧ f.fromTime ≤ row.detectedAt ∧ row.detectedAt ≤ f.untilTime ∧
  (f.organizationID = "" ∨ row.organizationID = f.organizationID)

def ReanalysisFilter.size (f : ReanalysisFilter) : Nat := if f.batchSize ≤ 0 then 500 else f.batchSize.toNat

/-- `ListDetectionsForReanalysis`. -/
def listDetectionsForReanalysis (detections : List Detection) (f : ReanalysisFilter) : List Detection :=
  page position (detections.filter f.accepts) f.after f.size

/-! ## Runs -/

/-- A row of `model_versions`, with the parameters as `ParseRuleSet` reads them. -/
structure ModelVersion where
  id : UUID
  organizationID : String
  params : Option RuleSet

/-- `AnalysisRun`, the row of one re-analysis. -/
structure AnalysisRun where
  id : UUID
  organizationID : String
  modelVersionID : UUID
  startedAt : Instant
  endedAt : Option Instant := none

structure World where
  detections : List Detection
  analysisRuns : Table AnalysisRun.id

/-- The arguments of `runReanalysis`. -/
structure Run where
  model : ModelVersion
  rules : RuleSet
  runID : UUID
  orgID : String
  fromTime : Instant
  toTime : Instant
  dryRun : Bool
  batchSize : Int := 500

/-- What the outside world supplies to a run: which list queries succeed, which
identifier each insert draws unless it fails, whether the last update succeeds,
and the clock. -/
structure Env where
  runID : Option UUID
  listed : Nat → Bool
  inserted : List (Option UUID)
  stamped : Bool
  startedAt : Instant
  endedAt : Instant

/-- What a page of the run asks for, behind the cursor. -/
def Run.filter (run : Run) (cursor : Option (Instant ×ₗ Nat)) : ReanalysisFilter where
  organizationID := run.orgID
  fromTime := run.fromTime
  untilTime := run.toTime
  batchSize := run.batchSize
  after := cursor

/-- The row that supersedes a detection, unless the rules leave it unchanged. -/
def Run.replacement (run : Run) (row : Detection) : Option DetectionInsert :=
  let superseding (newClass : String) : DetectionInsert :=
    { row.toDetectionInsert with
      detectionClass := newClass
      modelVersionID := run.model.id
      analysisRunID := run.runID
      source := "reanalysis"
      supersedes := some row.id }
  match applyRuleSet row.detectionClass row.confidence row.boundingBox run.rules with
  | .unchanged => none
  | .dropped => some (superseding "filtered_out")
  | .changed newClass => some (superseding newClass)

structure Progress where
  detections : List Detection
  inserts : Nat := 0
  emitted : Nat := 0

/-- The body of the inner loop; a failed insert is passed over. -/
def processRow (env : Env) (run : Run) (progress : Progress) (row : Detection) : Progress :=
  match run.replacement row with
  | none => progress
  | some ins =>
    if run.dryRun then { progress with emitted := progress.emitted + 1 }
    else
      let drawn := (env.inserted[progress.inserts]?).join
      match insertDetection progress.detections ins drawn with
      | none => { progress with inserts := progress.inserts + 1 }
      | some detections =>
        { detections, inserts := progress.inserts + 1, emitted := progress.emitted + 1 }

/-- The outer loop from its `lists`-th query on, with the flag whether it ended on
an empty page; `none` when the fuel does not suffice. -/
def loop (env : Env) (run : Run) : Nat → Nat → Option (Instant ×ₗ Nat) → Progress → Option (Progress × Bool)
  | 0, _, _, _ => none
  | fuel + 1, lists, cursor, progress =>
    if env.listed lists then
      let batch := listDetectionsForReanalysis progress.detections (run.filter cursor)
      match batch.getLast? with
      | none => some (progress, true)
      | some last => loop env run fuel (lists + 1) (some (position last)) (batch.foldl (processRow env run) progress)
    else some (progress, false)

/-! ## Entry points -/

inductive Entry where
  | cli
  | api (admin : Bool)
  deriving DecidableEq

/-- A request, with the model version that `GetModelVersion` found. -/
structure Request where
  modelVersion : Option ModelVersion
  fromTime : Instant
  toTime : Instant
  organizationID : String := ""
  dryRun : Bool := false

/-- The model and the organisation of an admissible request: `main` of the command
and `HandleAdminReanalyze`. -/
def scope (entry : Entry) (request : Request) : Option (ModelVersion × String) :=
  match request.modelVersion with
  | none => none
  | some mv =>
    if request.toTime < request.fromTime then none
    else if request.organizationID ≠ "" ∧ mv.organizationID ≠ request.organizationID then none
    else match entry with
      | .cli => if mv.params.isNone ∨ mv.organizationID = "" then none else some (mv, mv.organizationID)
      | .api admin => if admin then some (mv, mv.organizationID) else none

/-- `InsertAnalysisRun`. -/
def insertAnalysisRun (runs : Table AnalysisRun.id) (mv : ModelVersion) (orgID : String) (env : Env) :
    Option (UUID × Table AnalysisRun.id) :=
  if orgID = "" ∨ mv.id = .nil then none
  else match env.runID with
    | none => none
    | some id => (runs.insert? ⟨id, orgID, mv.id, env.startedAt, none⟩).map fun after => (id, after)

/-- The identifier of the run and the table with it; the command does not record
dry runs. -/
def record (entry : Entry) (world : World) (request : Request) (env : Env) :
    Option (ModelVersion × String × UUID × Table AnalysisRun.id) :=
  match scope entry request with
  | none => none
  | some (mv, orgID) =>
    if entry = .cli ∧ request.dryRun then some (mv, orgID, env.runID.getD .nil, world.analysisRuns)
    else (insertAnalysisRun world.analysisRuns mv orgID env).map fun recorded => (mv, orgID, recorded)

/-- `UpdateAnalysisRunEnded`. -/
def updateAnalysisRunEnded (runs : Table AnalysisRun.id) (id : UUID) (now : Instant) : Table AnalysisRun.id :=
  runs.modify (fun run => run.id = id) (fun run => { run with endedAt := some now }) fun _ => rfl

/-- The run that an admissible request leads to, if its rule set parses. -/
def plan (entry : Entry) (world : World) (request : Request) (env : Env) : Option Run :=
  match record entry world request env with
  | none => none
  | some (model, orgID, runID, _) => model.params.map fun rules =>
    { model, rules, runID, orgID, fromTime := request.fromTime, toTime := request.toTime, dryRun := request.dryRun }

/-- A whole request. The command gives up on a failed list query, the endpoint
stops there and records the end. -/
def reanalyze (entry : Entry) (world : World) (request : Request) (env : Env) : World :=
  match record entry world request env with
  | none => world
  | some (_, _, runID, analysisRuns) =>
    match plan entry world request env with
    | none => { world with analysisRuns }
    | some run =>
      match loop env run (world.detections.length + 1) 0 none { detections := world.detections } with
      | none => { world with analysisRuns }
      | some (progress, completed) =>
        let ends := !run.dryRun && env.stamped && (completed || decide (entry ≠ .cli))
        { detections := progress.detections
          analysisRuns := if ends then updateAnalysisRunEnded analysisRuns runID env.endedAt else analysisRuns }

/-- Live ingest of a detection, or a re-analysis. -/
inductive Move where
  | ingest (ins : DetectionInsert) (id : Option UUID)
  | reanalyze (entry : Entry) (request : Request) (env : Env)

def step (world : World) : Move → World
  | .ingest ins id =>
    { world with
      detections := (insertDetection world.detections { ins with supersedes := none } id).getD world.detections }
  | .reanalyze entry request env => reanalyze entry world request env

end Ironsight.Reanalysis
