import Ironsight.PpeWorker
import Ironsight.Tables

/-! `pending_review_queue`, the findings of the PPE worker that wait for a human, and
the statements on it. -/
namespace Ironsight.ReviewQueue
open Tables Uuid Access PpeWorker

inductive Status where
  | pending
  | reviewedCompliant
  | reviewedViolation
  | dismissed
  deriving DecidableEq

/-- The values of `vlm_verdict`. -/
inductive Verdict where
  | pending
  | confirmed
  | dismissed
  | uncertain
  | error
  deriving DecidableEq

/-- A text parameter that the database takes: valid UTF-8 without NUL. -/
def Accepted (text : ByteArray) : Prop := text.IsValidUTF8 ∧ (0 : UInt8) ∉ text.data.toList

instance (text : ByteArray) : Decidable (Accepted text) := inferInstanceAs (Decidable (_ ∧ _))

theorem isValidUTF8_utf8Encode_append (text : List Char) (rest : ByteArray) :
    (text.utf8Encode ++ rest).IsValidUTF8 ↔ rest.IsValidUTF8 := by
  induction text with
  | nil => simp
  | cons c text ih =>
    rw [List.utf8Encode_cons, ByteArray.append_assoc, ByteArray.isValidUTF8_utf8Encode_singleton_append_iff, ih]

/-- A text before the bytes changes nothing, if it has no NUL itself. -/
theorem accepted_append {text : String} (plain : (0 : UInt8) ∉ text.toByteArray.data.toList) (rest : ByteArray) :
    Accepted (text.toUTF8 ++ rest) ↔ Accepted rest := by
  have same : (text.toUTF8 ++ rest).IsValidUTF8 ↔ rest.IsValidUTF8 := by
    rw [String.toUTF8_eq_toByteArray, ← String.utf8Encode_toList]
    exact isValidUTF8_utf8Encode_append text.toList rest
  unfold Accepted
  rw [same, ByteArray.data_append, Array.toList_append, List.mem_append, String.toUTF8_eq_toByteArray]
  simp only [plain, false_or]

theorem accepted_toUTF8 (text : String) : Accepted text.toUTF8 ↔ (0 : UInt8) ∉ text.toByteArray.data.toList :=
  and_iff_right text.isValidUTF8

theorem extract_whole {text : String} {n : Nat} (short : text.utf8ByteSize ≤ n) :
    text.toByteArray.extract 0 n = text.toByteArray := by
  ext1
  rw [ByteArray.data_extract]
  exact Array.extract_eq_self_of_le short

/-- The first bytes of a longer text are accepted if they end between two characters and
have no NUL. -/
theorem accepted_extract_iff {text : String} {n : Nat} (long : n ≤ text.utf8ByteSize) :
    Accepted (text.toUTF8.extract 0 n) ↔
      (String.Pos.Raw.mk n).IsValid text ∧ (0 : UInt8) ∉ (text.toByteArray.extract 0 n).data.toList := by
  have inside : String.Pos.Raw.mk n ≤ text.rawEndPos := by
    rw [String.Pos.Raw.le_iff, String.byteIdx_rawEndPos]
    exact long
  rw [Accepted, String.toUTF8_eq_toByteArray, String.Pos.Raw.isValid_iff_isValidUTF8_extract_zero]
  simp only [inside, true_and]

private theorem extract_into (first second : ByteArray) (k : Nat) :
    (first ++ second).extract 0 (first.size + k) = first ++ second.extract 0 k := by
  have whole : first.extract 0 (first.size + k) = first := by
    ext1
    rw [ByteArray.data_extract]
    exact Array.extract_eq_self_of_le (Nat.le_add_right _ _)
  rw [ByteArray.extract_append, whole, Nat.zero_sub, Nat.add_sub_cancel_left]

/-- A cut behind the first bytes of the last character is not between two characters. -/
theorem not_isValid_inside {front : List Char} {last : Char} {k : Nat} (part : ¬ ([last].utf8Encode.extract 0 k).IsValidUTF8) :
    ¬ (String.Pos.Raw.mk (front.utf8Encode.size + k)).IsValid (String.ofList (front ++ [last])) := by
  intro boundary
  have valid := (String.Pos.Raw.isValid_iff_isValidUTF8_extract_zero.mp boundary).2
  rw [String.toByteArray_ofList, List.utf8Encode_append, extract_into, isValidUTF8_utf8Encode_append] at valid
  exact part valid

section Queue
variable (F : Type) [Float64 F]

/-- A row of `ppe_queue`. -/
structure QueueRow where
  id : UUID
  organizationID : String
  cameraID : UUID
  siteID : Option String
  framePath : String
  detectionClass : String
  missingLabel : String
  confidence : Number F
  boundingBoxes : List (Detection F)
  status : Status := .pending
  vlmVerdict : Verdict := .pending
  vlmReasoning : Option String := none
  vlmModel : Option String := none
  vlmAttempts : Nat := 0
  createdAt : Instant

abbrev Queue := Table (QueueRow.id (F := F))

/-- What the VLM worker reads of a row. -/
structure VLMQueueRow where
  id : UUID
  framePath : String
  detectionClass : String
  missingLabel : String
  confidence : Number F
  boundingBoxes : List (Detection F)
  attempts : Nat
  createdAt : Instant

end Queue

variable {F : Type} [Float64 F]

/-- The largest `integer` of the database; the driver refuses larger parameters. -/
def maxInt4 : Nat := 2147483647

/-- `ListPendingVLM`; `none` is an error. -/
def listPendingVLM (queue : Queue F) (limit maxAttempts : Int) : Option (List (VLMQueueRow F)) :=
  let limit := if limit ≤ 0 then 5 else limit
  let maxAttempts := if maxAttempts ≤ 0 then 3 else maxAttempts
  if maxInt4 < maxAttempts then none
  else
    let due := queue.rows.filter fun row =>
      row.status = .pending ∧ (row.vlmVerdict = .pending ∨ row.vlmVerdict = .error) ∧ row.vlmAttempts < maxAttempts
    let oldest := due.mergeSort fun first second => decide (first.createdAt ≤ second.createdAt)
    some ((oldest.take limit.toNat).map fun row =>
      { id := row.id, framePath := row.framePath, detectionClass := row.detectionClass, missingLabel := row.missingLabel
        confidence := row.confidence, boundingBoxes := row.boundingBoxes, attempts := row.vlmAttempts
        createdAt := row.createdAt })

/-- `UpdateVLMVerdict`; `none` is an error. -/
def updateVLMVerdict (queue : Queue F) (id : UUID) (verdict : Verdict) (reasoning model : ByteArray) (attempts : Nat) :
    Option (Queue F) :=
  if accepted : Accepted reasoning ∧ Accepted model then
    let selected (row : QueueRow F) := decide (row.id = id)
    let after := queue.modify selected (fun row => { row with
      vlmVerdict := verdict
      vlmReasoning := some (String.ofByteArray reasoning accepted.1.1)
      vlmModel := some (String.ofByteArray model accepted.2.1)
      vlmAttempts := attempts }) fun _ => rfl
    if queue.affected selected = 0 then none else some after
  else none

/-- `ExpireStalePendingVLM`. -/
def expireStalePendingVLM (queue : Queue F) (maxAgeHours : Int) (now : Instant) : Queue F :=
  let maxAgeHours := if maxAgeHours ≤ 0 then 24 else maxAgeHours
  queue.modify (fun row => row.status = .pending ∧ row.vlmVerdict = .pending ∧
      row.createdAt < now - maxAgeHours * 3600000000000)
    (fun row => { row with
      vlmVerdict := .uncertain
      vlmReasoning := some "aged out: no VLM response within age limit" })
    fun _ => rfl

/-- `InsertPPEQueueEntry`: the defaults of the table for what the worker does not give. -/
def insertPPEQueueEntry (queue : Queue F) (row : QueueRow F) : Option (Queue F) :=
  queue.insert? { row with
    status := .pending
    vlmVerdict := .pending
    vlmReasoning := none
    vlmModel := none
    vlmAttempts := 0 }

/-- `UpdatePPEQueueStatus`; a row of another organisation is not found. -/
def updatePPEQueueStatus (queue : Queue F) (id : UUID) (orgID : String) (status : Status) : Option (Queue F) :=
  let selected (row : QueueRow F) := decide (row.id = id ∧ row.organizationID = orgID)
  if queue.affected selected = 0 then none
  else some (queue.modify selected (fun row => { row with status := status }) fun _ => rfl)

/-- The rows that a sweep deletes: reviewed, and older than so many days. -/
def swept (retentionDays : Int) (now : Instant) (row : QueueRow F) : Bool :=
  row.createdAt < now - retentionDays * 86400000000000 ∧ row.status ≠ .pending

/-- `SweepPPEFrameRows`: the rows that are left, and the paths of the deleted ones. -/
def sweepPPEFrameRows (queue : Queue F) (retentionDays : Int) (now : Instant) : Queue F × List String :=
  (queue.remove (swept retentionDays now), (queue.rows.filter (swept retentionDays now)).map QueueRow.framePath)

end Ironsight.ReviewQueue
