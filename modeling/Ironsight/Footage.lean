import Ironsight.Access

/-! The tables of recorded footage: the segments that the recorder has registered and the
events with their links to them. -/
namespace Ironsight.Footage
open Tables Uuid
open Access (Instant)

/-- A row of `segments`. -/
structure Segment where
  id : Nat
  cameraID : UUID
  startTime : Instant
  endTime : Instant
  filePath : String
  fileSize : Nat
  deriving DecidableEq

/-- `segments_camera_path_time_unq`. -/
def Segment.key (segment : Segment) : UUID × String × Instant := (segment.cameraID, segment.filePath, segment.startTime)

abbrev SegmentTable := Table Segment.key

/-- A row of `events`. -/
structure Event where
  id : Nat := 0
  cameraID : UUID
  eventTime : Instant
  eventType : String
  details : String := "{}"
  thumbnail : String := ""
  segmentID : Option Nat := none
  deriving DecidableEq

structure Store where
  segments : SegmentTable
  events : List Event := []

/-- The event happened within the segment. -/
def Segment.covers (segment : Segment) (event : Event) : Bool :=
  decide (segment.cameraID = event.cameraID) && decide (segment.startTime ≤ event.eventTime) &&
    decide (event.eventTime ≤ segment.endTime)

/-- `InsertSegment`, with the next number of the sequence. -/
def insertSegment (segments : SegmentTable) (segment : Segment) (id : Nat) : Option SegmentTable :=
  segments.insert? { segment with id }

/-- The first query of `InsertEvent`. -/
def coveringSegment (scan : Scan Segment) (segments : SegmentTable) (event : Event) : Option Segment :=
  newest Segment.startTime ((scan.arrange segments.rows).filter fun segment => segment.covers event)

/-- Some registered segment covers the event. -/
def Covered (segments : SegmentTable) (event : Event) : Prop := ∃ segment ∈ segments, segment.covers event = true

/-- The event carries the number of a registered segment that covers it. -/
def Links (segments : SegmentTable) (event : Event) : Prop :=
  ∃ segment ∈ segments, segment.covers event = true ∧ event.segmentID = some segment.id

instance (segments : SegmentTable) (event : Event) : Decidable (Covered segments event) :=
  inferInstanceAs (Decidable (∃ segment ∈ segments, _))

instance (segments : SegmentTable) (event : Event) : Decidable (Links segments event) :=
  inferInstanceAs (Decidable (∃ segment ∈ segments, _))

section Segments
variable {scan : Scan Segment} {segments after : SegmentTable} {segment : Segment} {event : Event} {id : Nat}

theorem coveringSegment_some (found : coveringSegment scan segments event = some segment) :
    segment ∈ segments ∧ segment.covers event = true := by
  have chosen := List.mem_filter.mp (newest_some found).1
  exact ⟨(scan.perm segments.rows).mem_iff.mp chosen.1, chosen.2⟩

theorem coveringSegment_eq_none : coveringSegment scan segments event = none ↔ ¬ Covered segments event := by
  rw [coveringSegment, newest_eq_none, List.filter_eq_nil_iff]
  constructor
  · rintro none_ ⟨segment, member, covers⟩
    exact none_ segment ((scan.perm segments.rows).mem_iff.mpr member) covers
  · intro uncovered segment member covers
    exact uncovered ⟨segment, (scan.perm segments.rows).mem_iff.mp member, covers⟩

theorem covered_insertSegment (inserted : insertSegment segments segment id = some after) :
    Covered after event ↔ Covered segments event ∨ segment.covers event = true := by
  constructor
  · rintro ⟨other, member, covers⟩
    rcases (Table.mem_insert? inserted).mp member with old | rfl
    · exact .inl ⟨other, old, covers⟩
    · exact .inr covers
  · rintro (⟨other, member, covers⟩ | covers)
    · exact ⟨other, (Table.mem_insert? inserted).mpr (.inl member), covers⟩
    · exact ⟨{ segment with id }, (Table.mem_insert? inserted).mpr (.inr rfl), covers⟩

theorem links_insertSegment (inserted : insertSegment segments segment id = some after) (links : Links segments event) :
    Links after event := by
  obtain ⟨other, member, covers, linked⟩ := links
  exact ⟨other, (Table.mem_insert? inserted).mpr (.inl member), covers, linked⟩

end Segments

end Ironsight.Footage
