import Ironsight.Calendar
import Ironsight.Paths
import Ironsight.ReviewQueue
import Ironsight.Runs

/-! The frames on disk behind the rows of the review queue. A file is named by its
organisation, day and millisecond only, and a sweep removes the file of every row it
deletes; a row keeps its frame as long as nobody else uses its file. -/
namespace Ironsight.PpeEvidence
open Tables Uuid Access Runs Calendar Paths PpeWorker ReviewQueue

/-- The directory of the frames, and how long reviewed ones are kept. -/
structure Config where
  ppeFramesDir : String
  ppeFrameRetentionDays : Int

def Config.framesDir (cfg : Config) : String :=
  if cfg.ppeFramesDir = "" then "/tank/data/ironsight/ppe-frames" else cfg.ppeFramesDir

/-- Files by their path, the queue, and the frame that each row was created from. -/
structure World (F : Type) [Float64 F] where
  disk : String → Option ByteArray
  queue : Queue F
  createdFrom : UUID → Option ByteArray

/-- `classToLabel`. -/
def classToLabel (class_ : String) : String :=
  if class_ ∈ ["nohat", "no-hat", "no_hat", "no-hardhat", "no_hardhat", "no-helmet", "no_helmet"] then "Hard Hat"
  else if class_ ∈ ["novest", "no-vest", "no_vest", "no-safety-vest", "no_safety_vest"] then "Hi-Vis Vest"
  else if class_ ∈ ["no-mask", "no_mask"] then "Face Mask"
  else if class_ ∈ ["no-glove", "no_glove", "no-gloves", "no_gloves"] then "Gloves"
  else if class_ ∈ ["no-goggles", "no_goggles"] then "Safety Goggles"
  else if class_ ∈ ["no-shoes", "no_shoes"] then "Safety Shoes"
  else "PPE Item"

/-- A call of `persistViolation`: its arguments, its clock, and what the file system and the
database do. A failed write may leave anything in the file. -/
structure Call (F : Type) [Float64 F] where
  cam : PPECamera
  v : Detection F
  frameBytes : ByteArray
  now : Instant
  id : UUID
  createdAt : Instant
  mkdirAll : Bool := true
  writeFile : Option (Option ByteArray) := none
  inserted : Bool := true

variable {F : Type} [Float64 F]

/-- `now.Format("2006-01-02")`. -/
def dateDir (now : Instant) : String :=
  let (year, month, day) := date (now / 86400000000000)
  String.ofList (yearText year ++ '-' :: (twoDigits month ++ '-' :: twoDigits day))

def frameFilename (now : Instant) : String := toString (now / 1000000) ++ ".jpg"

/-- What its row says of it. -/
def Call.relPath (call : Call F) : String := join [call.cam.organizationID, dateDir call.now, frameFilename call.now]

/-- Where the frame of a violation is written. -/
def Call.absPath (cfg : Config) (call : Call F) : String :=
  join [join [cfg.framesDir, call.cam.organizationID, dateDir call.now], frameFilename call.now]

/-- The file of a row. -/
def file (cfg : Config) (row : QueueRow F) : String := join [cfg.framesDir, row.framePath]

/-- The row that a call inserts. -/
def Call.row (call : Call F) : QueueRow F where
  id := call.id
  organizationID := call.cam.organizationID
  cameraID := call.cam.cameraID
  siteID := some call.cam.siteID
  framePath := call.relPath
  detectionClass := call.v.class_
  missingLabel := classToLabel call.v.class_
  confidence := call.v.confidence
  boundingBoxes := [call.v]
  createdAt := call.createdAt

/-- What is in the file after the write. -/
def Call.leaves (call : Call F) : Option ByteArray := call.writeFile.getD (some call.frameBytes)

/-- `persistViolation`. -/
def persistViolation (cfg : Config) (w : World F) (call : Call F) : World F :=
  if !call.mkdirAll then w
  else
    let disk := Function.update w.disk (call.absPath cfg) call.leaves
    if call.writeFile.isSome || !call.inserted then { w with disk }
    else match insertPPEQueueEntry w.queue call.row with
      | none => { w with disk }
      | some queue => { disk, queue, createdFrom := Function.update w.createdFrom call.id (some call.frameBytes) }

/-- What a sweep meets: whether its statement runs and its rows are read, and which files
can be removed. -/
structure Sweep where
  now : Instant
  deleted : Bool := true
  scanned : Bool := true
  removable : String → Bool := fun _ => true

/-- `sweepPPEFrames`. -/
def sweepPPEFrames (cfg : Config) (w : World F) (env : Sweep) : World F :=
  if cfg.ppeFramesDir = "" ∨ cfg.ppeFrameRetentionDays ≤ 0 ∨ env.deleted = false then w
  else
    let (queue, paths) := sweepPPEFrameRows w.queue cfg.ppeFrameRetentionDays env.now
    let disk := if env.scanned then
        paths.foldl (fun disk relPath =>
          let absPath := join [cfg.ppeFramesDir, relPath]
          if env.removable absPath then Function.update disk absPath none else disk) w.disk
      else w.disk
    { w with disk, queue }

/-- What happens to the queue: a violation, a review, a sweep. -/
inductive Move (F : Type) [Float64 F] where
  | persistViolation (call : Call F)
  | review (id : UUID) (orgID : String) (status : Status)
  | sweepPPEFrames (env : Sweep)

/-- What each of them leaves of the rows and the files. -/
def step (cfg : Config) (w : World F) : Move F → World F
  | .persistViolation call => persistViolation cfg w call
  | .review id orgID status => { w with queue := (updatePPEQueueStatus w.queue id orgID status).getD w.queue }
  | .sweepPPEFrames env => sweepPPEFrames cfg w env

/-- The row has the frame it was created from. -/
def Kept (cfg : Config) (w : World F) (row : QueueRow F) : Prop :=
  ∃ frame, w.createdFrom row.id = some frame ∧ w.disk (file cfg row) = some frame

/-- Every row of the queue has its frame. -/
def Evidence (cfg : Config) (w : World F) : Prop := ∀ row ∈ w.queue, Kept cfg w row

/-- The step leaves the files of other rows alone: what a call writes is what the rows of
that file were created from, and a sweep removes no file of a row that stays. The path
stored in a new row leads to its frame. -/
def Apart (cfg : Config) (w : World F) : Move F → Prop
  | .persistViolation call => call.mkdirAll = true →
      (∀ row ∈ w.queue, file cfg row = call.absPath cfg → w.createdFrom row.id = call.leaves) ∧
      (call.writeFile = none → call.inserted = true → (∀ row ∈ w.queue, row.id ≠ call.id) →
        file cfg call.row = call.absPath cfg ∨ w.disk (file cfg call.row) = some call.frameBytes)
  | .review _ _ _ => True
  | .sweepPPEFrames env => cfg.ppeFramesDir ≠ "" → 0 < cfg.ppeFrameRetentionDays → env.deleted = true → env.scanned = true →
      ∀ gone ∈ w.queue, swept cfg.ppeFrameRetentionDays env.now gone = true → env.removable (file cfg gone) = true →
        ∀ row ∈ w.queue, swept cfg.ppeFrameRetentionDays env.now row = false → file cfg row ≠ file cfg gone

/-! ## One step -/

section Step
variable {cfg : Config} {w : World F}

/-- A write keeps the frame of a row exactly if it leaves that frame in the row's file. -/
private theorem kept_written {row : QueueRow F} (kept : Kept cfg w row) {path : String} {content : Option ByteArray} :
    (∃ frame, w.createdFrom row.id = some frame ∧ Function.update w.disk path content (file cfg row) = some frame) ↔
      (file cfg row = path → w.createdFrom row.id = content) := by
  obtain ⟨frame, created, stored⟩ := kept
  by_cases own : file cfg row = path
  · simp only [created, own, Function.update_self, Option.some.injEq, exists_eq_left', forall_const]
    exact eq_comm
  · simp only [created, Function.update_of_ne own, stored, own, false_implies, iff_true]
    exact ⟨frame, rfl, rfl⟩

/-- A write keeps the frames of all rows exactly if it is right for those that have its file. -/
private theorem all_kept_written (held : Evidence cfg w) (path : String) (content : Option ByteArray) :
    (∀ row ∈ w.queue, ∃ frame, w.createdFrom row.id = some frame ∧
        Function.update w.disk path content (file cfg row) = some frame) ↔
      ∀ row ∈ w.queue, file cfg row = path → w.createdFrom row.id = content :=
  forall₂_congr fun row present => kept_written (held row present)

/-- The frame of a new row is on disk if the row names the file that was written, or another one
with the frame. -/
private theorem new_row_kept (cfg : Config) (w : World F) {call : Call F} (written : call.writeFile = none) :
    (∃ frame, Function.update w.createdFrom call.id (some call.frameBytes) call.row.id = some frame ∧
        Function.update w.disk (call.absPath cfg) call.leaves (file cfg call.row) = some frame) ↔
      file cfg call.row = call.absPath cfg ∨ w.disk (file cfg call.row) = some call.frameBytes := by
  have created : Function.update w.createdFrom call.id (some call.frameBytes) call.row.id = some call.frameBytes :=
    Function.update_self _ _ _
  have leaves : call.leaves = some call.frameBytes := by rw [Call.leaves, written, Option.getD_none]
  simp only [created, Option.some.injEq, exists_eq_left']
  by_cases own : file cfg call.row = call.absPath cfg
  · simp only [own, Function.update_self, leaves, true_or]
  · simp only [own, Function.update_of_ne own, false_or]

private theorem persistViolation_iff (held : Evidence cfg w) (call : Call F) :
    Evidence cfg (persistViolation cfg w call) ↔ Apart cfg w (.persistViolation call) := by
  show _ ↔ (call.mkdirAll = true → (∀ row ∈ w.queue, file cfg row = call.absPath cfg → w.createdFrom row.id = call.leaves) ∧
    (call.writeFile = none → call.inserted = true → (∀ row ∈ w.queue, row.id ≠ call.id) →
      file cfg call.row = call.absPath cfg ∨ w.disk (file cfg call.row) = some call.frameBytes))
  unfold persistViolation
  cases made : call.mkdirAll with
  | false =>
    simp only [Bool.not_false, if_true, Bool.false_eq_true, false_implies, iff_true]
    exact held
  | true =>
    simp only [Bool.not_true, Bool.false_eq_true, if_false, true_implies]
    have old := all_kept_written held (call.absPath cfg) call.leaves
    by_cases stops : (call.writeFile.isSome || !call.inserted) = true
    · rw [if_pos stops, and_iff_left]
      · exact old
      · intro written inserted
        simp [written, inserted] at stops
    · rw [if_neg stops]
      simp only [Bool.or_eq_true, not_or, Bool.not_eq_true, Option.isSome_eq_false_iff, Option.isNone_iff_eq_none,
        Bool.not_eq_false'] at stops
      obtain ⟨written, inserted⟩ := stops
      cases done : insertPPEQueueEntry w.queue call.row with
      | none =>
        obtain ⟨other, present, taken⟩ := Table.insert?_eq_none.mp done
        rw [and_iff_left fun _ _ fresh => absurd taken (fresh other present)]
        exact old
      | some queue =>
        have fresh : ∀ row ∈ w.queue, row.id ≠ call.id := Table.insert?_fresh done
        have members (row : QueueRow F) : row ∈ queue ↔ row ∈ w.queue ∨ row = call.row := Table.mem_insert? done
        have stays (row : QueueRow F) (present : row ∈ w.queue) :
            Function.update w.createdFrom call.id (some call.frameBytes) row.id = w.createdFrom row.id :=
          Function.update_of_ne (fresh row present) _ _
        have new := new_row_kept cfg w written
        constructor
        · intro all
          refine ⟨old.mp fun row present => ?_, fun _ _ _ => new.mp (all _ ((members _).mpr (.inr rfl)))⟩
          rw [← stays row present]
          exact all row ((members row).mpr (.inl present))
        · rintro ⟨others, own⟩ row member
          rcases (members row).mp member with present | rfl
          · have kept := old.mpr others row present
            rw [← stays row present] at kept
            exact kept
          · exact new.mpr (own written inserted fresh)

/-- What the removals of a sweep leave. -/
private theorem foldl_removed {removable : String → Bool} {dir path : String} {frame : ByteArray} (paths : List String)
    (disk : String → Option ByteArray) :
    paths.foldl (fun disk relPath =>
        if removable (join [dir, relPath]) then Function.update disk (join [dir, relPath]) none else disk)
      disk path = some frame ↔
      disk path = some frame ∧ ∀ relPath ∈ paths, removable (join [dir, relPath]) = true → path ≠ join [dir, relPath] := by
  induction paths generalizing disk with
  | nil => simp
  | cons relPath rest ih =>
    rw [List.foldl_cons, ih, List.forall_mem_cons]
    by_cases removed : removable (join [dir, relPath]) = true
    · by_cases own : path = join [dir, relPath]
      · simp [removed, own]
      · simp [removed, own]
    · simp [removed]

private theorem sweepPPEFrames_iff (held : Evidence cfg w) (env : Sweep) :
    Evidence cfg (sweepPPEFrames cfg w env) ↔ Apart cfg w (.sweepPPEFrames env) := by
  show _ ↔ (cfg.ppeFramesDir ≠ "" → 0 < cfg.ppeFrameRetentionDays → env.deleted = true → env.scanned = true →
    ∀ gone ∈ w.queue, swept cfg.ppeFrameRetentionDays env.now gone = true → env.removable (file cfg gone) = true →
      ∀ row ∈ w.queue, swept cfg.ppeFrameRetentionDays env.now row = false → file cfg row ≠ file cfg gone)
  unfold sweepPPEFrames
  split
  · rename_i idle
    refine iff_of_true held fun configured positive deleted => ?_
    rcases idle with unset | never | failed
    · exact absurd unset configured
    · omega
    · rw [deleted] at failed
      cases failed
  · rename_i active
    obtain ⟨configured, rest⟩ := not_or.mp active
    obtain ⟨positive, ran⟩ := not_or.mp rest
    have directory : cfg.framesDir = cfg.ppeFramesDir := if_neg configured
    have deleted : env.deleted = true := Bool.eq_true_of_not_eq_false ran
    cases scanned : env.scanned with
    | false =>
      refine iff_of_true (fun row present => held row (Table.mem_remove.mp present).1) ?_
      rintro _ _ _ ⟨⟩
    | true =>
      have survives (row : QueueRow F) (present : row ∈ w.queue) :
          (∃ frame, w.createdFrom row.id = some frame ∧
            (sweepPPEFrameRows w.queue cfg.ppeFrameRetentionDays env.now).2.foldl (fun disk relPath =>
              if env.removable (join [cfg.ppeFramesDir, relPath]) then Function.update disk (join [cfg.ppeFramesDir, relPath]) none
              else disk) w.disk (file cfg row) = some frame) ↔
            ∀ gone ∈ w.queue, swept cfg.ppeFrameRetentionDays env.now gone = true → env.removable (file cfg gone) = true →
              file cfg row ≠ file cfg gone := by
        obtain ⟨frame, created, stored⟩ := held row present
        have path (row : QueueRow F) : join [cfg.ppeFramesDir, row.framePath] = file cfg row := by rw [file, directory]
        simp only [created, Option.some.injEq, exists_eq_left', foldl_removed, stored, true_and, sweepPPEFrameRows,
          List.forall_mem_map, List.mem_filter, and_imp, path, Table.mem_def]
      constructor
      · intro all _ _ _ _ gone present old removable row there young
        exact (survives row there).mp (all row (Table.mem_remove.mpr ⟨there, young⟩)) gone present old removable
      · intro apart row member
        obtain ⟨present, young⟩ := Table.mem_remove.mp member
        exact (survives row present).mpr fun gone there old removable =>
          apart configured (not_le.mp positive) deleted rfl gone there old removable row present young

private theorem review_kept (held : Evidence cfg w) (id : UUID) (orgID : String) (status : Status) :
    Evidence cfg (step cfg w (.review id orgID status)) := by
  show Evidence cfg { w with queue := (updatePPEQueueStatus w.queue id orgID status).getD w.queue }
  cases updated : updatePPEQueueStatus w.queue id orgID status with
  | none => exact held
  | some queue =>
    dsimp only [updatePPEQueueStatus] at updated
    split at updated
    · cases updated
    · cases updated
      intro row present
      rw [Option.getD_some, Table.mem_modify] at present
      obtain ⟨old, was, rfl⟩ := present
      obtain ⟨frame, created, stored⟩ := held old was
      refine ⟨frame, ?_⟩
      split <;> exact ⟨created, stored⟩

private theorem step_iff (move : Move F) (held : Evidence cfg w) :
    Evidence cfg (step cfg w move) ↔ Apart cfg w move := by
  cases move with
  | persistViolation call => exact persistViolation_iff held call
  | review id orgID status => exact iff_of_true (review_kept held id orgID status) trivial
  | sweepPPEFrames env => exact sweepPPEFrames_iff held env

end Step

/-! ## Calls in one millisecond -/

private def yard : Config := ⟨"/frames", 30⟩

private def nothing : World ℚ := ⟨fun _ => none, .empty, fun _ => none⟩

private def vest : Detection ℚ :=
  ⟨"no-vest", ⟨5 / 8, rfl⟩, ⟨⟨0, rfl⟩, ⟨0, rfl⟩, ⟨1, rfl⟩, ⟨1, rfl⟩⟩, ⟨⟨0, rfl⟩, ⟨0, rfl⟩, ⟨1, rfl⟩, ⟨1, rfl⟩⟩⟩

/-- A violation seen by a camera, at that millisecond. -/
private def sighted (id camera : Nat) (frameBytes : ByteArray) (millis : Int) : Call ℚ where
  cam := { cameraID := ⟨camera⟩, organizationID := "co-1", siteID := "S-1" }
  v := vest
  frameBytes := frameBytes
  now := millis * 1000000
  id := ⟨id⟩
  createdAt := 0

private def crane : ByteArray := .mk #[0xFF, 0xD8, 1]

private def fence : ByteArray := .mk #[0xFF, 0xD8, 2]

/-- Thirty-one days later. -/
private def later : Sweep := { now := 31 * 86400000000000 }

private def firstReviewed : List (Move ℚ) := [.review ⟨1⟩ "co-1" .dismissed, .sweepPPEFrames later]

end Ironsight.PpeEvidence
