import Ironsight.Access

/-! The table of video exports and the statements that work on it. A row is queued by
the API and worked off by the export worker; who holds a row is nowhere recorded but
in its status and the time it was claimed at. -/
namespace Ironsight.Exports
open Tables Uuid
open Access (Instant)

inductive ExportStatus where
  | pending
  | processing
  | completed
  | failed
  deriving DecidableEq

/-- A row of `exports`. -/
structure Export where
  id : UUID
  cameraId : UUID
  startTime : Instant
  endTime : Instant
  status : ExportStatus := .pending
  filePath : String := ""
  fileSize : Int := 0
  error : String := ""
  createdAt : Instant
  startedAt : Option Instant := none
  completedAt : Option Instant := none
  deriving DecidableEq

abbrev ExportTable := Table Export.id

/-- `stuckJobTimeout`: ten minutes. -/
def stuckJobTimeout : Instant := 600 * 1000000000

/-- The row that `CreateExport` inserts. -/
def newExport (id : UUID) (now : Instant) (cameraId : UUID) (startTime endTime : Instant) : Export :=
  { id, cameraId, startTime, endTime, createdAt := now }

/-- `UpdateExportStatus`, which stamps the end of a job. -/
def Export.finished (status : ExportStatus) (filePath : String) (fileSize : Int) (errMsg : String) (now : Instant)
    (e : Export) : Export :=
  { e with
    status, filePath, fileSize, error := errMsg
    completedAt := if status = .completed ∨ status = .failed then some now else none }

theorem Export.finished_id (status : ExportStatus) (filePath : String) (fileSize : Int) (errMsg : String) (now : Instant)
    (e : Export) : (e.finished status filePath fileSize errMsg now).id = e.id := rfl

def updateExportStatus (exports : ExportTable) (id : UUID) (status : ExportStatus) (filePath : String) (fileSize : Int)
    (errMsg : String) (now : Instant) : ExportTable :=
  exports.modify (fun e => e.id = id) (Export.finished status filePath fileSize errMsg now)
    (Export.finished_id status filePath fileSize errMsg now)

def Export.claimed (now : Instant) (e : Export) : Export := { e with status := .processing, startedAt := some now }

theorem Export.claimed_id (now : Instant) (e : Export) : (e.claimed now).id = e.id := rfl

/-- The oldest pending row; rows that a concurrent statement has locked are skipped. -/
def nextPending (exports : ExportTable) (locked : List UUID) : Option Export :=
  newest (fun e => -e.createdAt) (exports.rows.filter fun e => e.status = .pending ∧ e.id ∉ locked)

/-- `ClaimNextExport`: the claimed row and the table after it. -/
def claimNextExport (exports : ExportTable) (locked : List UUID) (now : Instant) : Option (Export × ExportTable) :=
  (nextPending exports locked).map fun e =>
    (e.claimed now, exports.modify (fun row => row.id = e.id) (Export.claimed now) (Export.claimed_id now))

/-- The rows that `RequeueStuckExports` selects. -/
def Export.stuck (now : Instant) (e : Export) : Bool :=
  e.status = .processing ∧ ∃ started ∈ e.startedAt, started < now - stuckJobTimeout

def Export.requeued (e : Export) : Export :=
  { e with status := .pending, startedAt := none, error := e.error ++ "requeued after worker crash; " }

theorem Export.requeued_id (e : Export) : e.requeued.id = e.id := rfl

/-- `RequeueStuckExports`, called with `stuckJobTimeout`. -/
def requeueStuckExports (exports : ExportTable) (now : Instant) : ExportTable :=
  exports.modify (Export.stuck now) Export.requeued Export.requeued_id

/-- `ListExports`: the fifty latest, those of one time as the scan meets them. -/
def listExports (scan : Scan Export) (exports : ExportTable) : List Export :=
  ((scan.arrange exports.rows).insertionSort fun first second => second.createdAt ≤ first.createdAt).take 50

/-! ## What the statements do -/

variable {exports : ExportTable} {locked : List UUID} {now : Instant} {id : UUID}

theorem nextPending_some {e : Export} (found : nextPending exports locked = some e) :
    e ∈ exports ∧ e.status = .pending := by
  obtain ⟨member, chosen⟩ := List.mem_filter.mp (newest_some found).1
  exact ⟨member, (of_decide_eq_true chosen).1⟩

theorem claimNextExport_some {e : Export} {after : ExportTable} (done : claimNextExport exports locked now = some (e, after)) :
    ∃ old ∈ exports, old.status = .pending ∧ nextPending exports locked = some old ∧ e = old.claimed now ∧
      ∀ row, row ∈ after ↔ row = old.claimed now ∨ row ∈ exports ∧ row.id ≠ old.id := by
  obtain ⟨old, found, same⟩ := Option.map_eq_some_iff.mp done
  obtain ⟨rfl, rfl⟩ := Prod.mk.inj same
  obtain ⟨held, pending⟩ := nextPending_some found
  refine ⟨old, held, pending, found, rfl, fun row => ?_⟩
  rw [Table.mem_modify]
  simp only [decide_eq_true_eq]
  constructor
  · rintro ⟨other, member, rfl⟩
    split
    · rename_i here
      exact .inl (by rw [Table.key_inj member held here])
    · rename_i elsewhere
      exact .inr ⟨member, elsewhere⟩
  · rintro (rfl | ⟨member, elsewhere⟩)
    · exact ⟨old, held, by rw [if_pos rfl]⟩
    · exact ⟨row, member, by rw [if_neg elsewhere]⟩

theorem mem_updateExportStatus {status : ExportStatus} {filePath : String} {fileSize : Int} {errMsg : String}
    {row : Export} : row ∈ updateExportStatus exports id status filePath fileSize errMsg now ↔
      ∃ old ∈ exports, row = if old.id = id then old.finished status filePath fileSize errMsg now else old := by
  simp [updateExportStatus, Table.mem_modify]

theorem mem_requeueStuckExports {row : Export} : row ∈ requeueStuckExports exports now ↔
    ∃ old ∈ exports, row = if old.stuck now then old.requeued else old := by
  simp [requeueStuckExports, Table.mem_modify]

/-- A row that is still in processing after a requeue was not old enough. -/
theorem processing_requeued {row : Export} : (row ∈ requeueStuckExports exports now ∧ row.status = .processing) ↔
    row ∈ exports ∧ row.status = .processing ∧ row.stuck now = false := by
  rw [mem_requeueStuckExports]
  constructor
  · rintro ⟨⟨old, held, rfl⟩, processing⟩
    cases stuck : old.stuck now with
    | true =>
      rw [stuck, if_pos rfl] at processing
      cases processing
    | false =>
      rw [stuck] at processing
      exact ⟨held, processing, stuck⟩
  · rintro ⟨held, processing, fresh⟩
    exact ⟨⟨row, held, by rw [fresh]; rfl⟩, processing⟩

end Ironsight.Exports
