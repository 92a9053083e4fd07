import Ironsight.CleanPaths
import Ironsight.Durations
import Ironsight.SegmentNames

/-! The recorded segment of an event, found in the directory of a camera. A segment ends where
the next one starts; the finders choose by these spans, or by the time of the last write. -/
namespace Ironsight.ClipFinder
open CleanPaths Durations Paths SegmentNames

structure FileInfo where
  modTime : Int
  size : Nat
  deriving DecidableEq

/-- An entry of a directory; its info is none where it cannot be read. -/
structure DirEntry where
  name : String
  isDir : Bool
  info : Option FileInfo
  deriving DecidableEq

/-- What `os.ReadDir` and `os.Stat` answer. -/
structure Files where
  readDir : String → Option (List DirEntry)
  stat : String → Bool

/-- `segInfo`: a recorded file, with the time in its name and that of its last write. -/
structure SegInfo where
  name : String
  absPath : String
  modTime : Int
  size : Nat
  startTime : Int
  endTime : Int
  deriving DecidableEq

/-! ## Listing -/

/-- The walk over the segments by start, given their indices in that order. -/
def fillFrom (starts : Nat → Int) (now : Int) : List Nat → List SegInfo → List SegInfo
  | [], segments => segments
  | [last], segments => segments.modify last fun s => { s with endTime := now + minute }
  | idx :: next :: byStart, segments =>
    fillFrom starts now (next :: byStart) (segments.modify idx fun s => { s with endTime := starts next })

def startOf (segments : List SegInfo) (idx : Nat) : Int := (segments[idx]?.map SegInfo.startTime).getD zeroTime

def fillEndTimes (sorts : SortSlice) (now : Int) (segments : List SegInfo) : List SegInfo :=
  let byStart := sorts.slice (fun i j => decide (startOf segments i < startOf segments j)) (List.range segments.length)
  fillFrom (startOf segments) now byStart segments

/-- The segment of an entry. Every finder includes the open segments, so that the age of a file
does not matter. -/
def segInfo (recordingsDir : String) (entry : DirEntry) : Option SegInfo :=
  if entry.isDir ∨ !".mp4".toList.isSuffixOf entry.name.toList then none
  else match entry.info with
    | none => none
    | some info =>
      if info.size = 0 then none
      else
        let parsed := (parseSegmentTimestamp entry.name).getD zeroTime
        some {
          name := entry.name
          absPath := join [recordingsDir, entry.name]
          modTime := info.modTime
          size := info.size
          startTime := if parsed = zeroTime then info.modTime - minute else parsed
          endTime := zeroTime }

/-- The directory of a camera and the segments in it, their ends not set yet. -/
def readSegments (files : Files) (storagePath cameraID : String) : Option (String × List SegInfo) :=
  let recordingsDir := join [storagePath, "recordings", cameraID]
  match files.readDir recordingsDir with
  | some entries => some (recordingsDir, entries.filterMap (segInfo recordingsDir))
  | none =>
    let recordingsDir := join [storagePath, cameraID]
    (files.readDir recordingsDir).map fun entries => (recordingsDir, entries.filterMap (segInfo recordingsDir))

/-- The segments of a camera, the last written first. -/
def listSegments (sorts : SortSlice) (files : Files) (storagePath cameraID : String) (now : Int) : List SegInfo × String :=
  match readSegments files storagePath cameraID with
  | none => ([], "")
  | some (recordingsDir, segments) =>
    (sorts.slice (fun a b => decide (b.modTime < a.modTime)) (fillEndTimes sorts now segments), recordingsDir)

/-- The URL of a file, in the recordings of the camera if it is there. -/
def relURL (files : Files) (storagePath cameraID absPath : String) : String :=
  if files.stat (join [storagePath, "recordings", cameraID, base absPath]) then "recordings/" ++ cameraID ++ "/" ++ base absPath
  else cameraID ++ "/" ++ base absPath

/-! ## Choosing -/

/-- The test of `pickContainingSegment`, with five seconds of slack at the end. -/
def Contains (s : SegInfo) (eventTime : Int) : Prop :=
  s.endTime ≠ zeroTime ∧ s.startTime ≤ eventTime ∧ eventTime < s.endTime + 5 * second

instance (s : SegInfo) (eventTime : Int) : Decidable (Contains s eventTime) := inferInstanceAs (Decidable (_ ∧ _ ∧ _))

/-- The later start of the best segment so far and one that contains the event. -/
def later (s : SegInfo) : Option SegInfo → SegInfo
  | none => s
  | some best => if best.startTime < s.startTime then s else best

/-- The loop, with the best segment so far. -/
def pickFrom (eventTime : Int) : Option SegInfo → List SegInfo → Option SegInfo
  | best, [] => best
  | best, s :: segments => pickFrom eventTime (if Contains s eventTime then some (later s best) else best) segments

def pickContainingSegment (segments : List SegInfo) (eventTime : Int) : Option SegInfo := pickFrom eventTime none segments

def absDur (d : Int) : Int := if d < 0 then negated d else d

/-- The loop, with the closest segment so far and its distance. -/
def closestFrom (eventTime : Int) : SegInfo → Int → List SegInfo → SegInfo × Int
  | best, bestDiff, [] => (best, bestDiff)
  | best, bestDiff, s :: segments =>
    let d := absDur (saturated (eventTime - s.modTime))
    if d < bestDiff then closestFrom eventTime s d segments else closestFrom eventTime best bestDiff segments

/-- Of a list that is not empty. -/
def closestSegment (first : SegInfo) (rest : List SegInfo) (eventTime : Int) : SegInfo :=
  let (best, bestDiff) := closestFrom eventTime first (absDur (saturated (eventTime - first.modTime))) rest
  if bestDiff > 5 * minute then first else best

/-- What two of the finders choose. -/
def bestSegment (segments : List SegInfo) (eventTime : Int) : Option SegInfo :=
  match segments with
  | [] => none
  | first :: rest =>
    match pickContainingSegment (first :: rest) eventTime with
    | some best => some best
    | none => some (closestSegment first rest eventTime)

/-! ## The finders -/

/-- A URL and what is behind its `#t=`; no URL is the empty one. -/
structure ClipURL where
  url : String
  seek : Option Int
  deriving DecidableEq

/-- `FindEventClip`. -/
def findEventClip (sorts : SortSlice) (files : Files) (storagePath cameraID : String) (eventTime now : Int) : Option ClipURL :=
  (bestSegment (listSegments sorts files storagePath cameraID now).1 eventTime).map fun best =>
    let offset := saturated (eventTime - best.startTime)
    ⟨relURL files storagePath cameraID best.absPath, if 0 < offset ∧ offset < 300 * second then some offset else none⟩

/-- The absolute path, the relative one and the start. -/
def findEventClipFull (sorts : SortSlice) (files : Files) (storagePath cameraID : String) (eventTime now : Int) :
    Option (String × String × Int) :=
  (bestSegment (listSegments sorts files storagePath cameraID now).1 eventTime).map fun best =>
    (best.absPath, relURL files storagePath cameraID best.absPath, best.startTime)

structure SegmentCandidate where
  absPath : String
  startTime : Int
  offset : Int
  deriving DecidableEq

/-- How far the event is from the span of a segment. -/
def distOf (eventTime : Int) (s : SegInfo) : Int :=
  if eventTime < s.startTime then saturated (s.startTime - eventTime)
  else if s.endTime ≠ zeroTime ∧ s.endTime < eventTime then saturated (eventTime - s.endTime)
  else 0

/-- `FindEventClipCandidates`, the nearest segments first. -/
def findEventClipCandidates (sorts : SortSlice) (files : Files) (storagePath cameraID : String) (eventTime : Int) (limit : Int)
    (now : Int) : List SegmentCandidate :=
  let segments := (listSegments sorts files storagePath cameraID now).1
  let sorted := sliceStable (fun a b => decide (distOf eventTime a < distOf eventTime b)) segments
  let limit := if limit ≤ 0 ∨ limit > sorted.length then sorted.length else limit.toNat
  (sorted.take limit).map fun s => ⟨s.absPath, s.startTime, max 0 (saturated (eventTime - s.startTime))⟩

/-! ## What is chosen -/

/-- How far the event is from the last write, as the code computes it. -/
def writeDiff (eventTime : Int) (s : SegInfo) : Int := absDur (saturated (eventTime - s.modTime))

/-- The last write is at most five minutes from the event. -/
def WrittenNear (s : SegInfo) (eventTime : Int) : Prop :=
  -(5 * minute) ≤ eventTime - s.modTime ∧ eventTime - s.modTime ≤ 5 * minute

/-- The segment belongs to the event. -/
def BelongsToEvent (s : SegInfo) (eventTime : Int) : Prop := Contains s eventTime ∨ WrittenNear s eventTime

/-- A negative distance that does not fit into a duration stays negative. -/
theorem writeDiff_le_iff (eventTime : Int) (s : SegInfo) :
    writeDiff eventTime s ≤ 5 * minute ↔ WrittenNear s eventTime ∨ eventTime - s.modTime ≤ -2 ^ 63 := by
  dsimp only [writeDiff, WrittenNear, absDur, negated, saturated, minute, second]
  split_ifs <;> omega

theorem writeDiff_neg_iff (eventTime : Int) (s : SegInfo) :
    writeDiff eventTime s < 0 ↔ eventTime - s.modTime ≤ -2 ^ 63 := by
  dsimp only [writeDiff, absDur, negated, saturated]
  split_ifs <;> omega

theorem later_spec (s : SegInfo) (best : Option SegInfo) : (best = some (later s best) ∨ later s best = s) ∧
    s.startTime ≤ (later s best).startTime ∧ ∀ b, best = some b → b.startTime ≤ (later s best).startTime := by
  cases best with
  | none => exact ⟨.inr rfl, Int.le_refl _, nofun⟩
  | some b =>
    rw [later]
    by_cases after : b.startTime < s.startTime
    · rw [if_pos after]
      exact ⟨.inr rfl, Int.le_refl _, fun _ held => by cases held; omega⟩
    · rw [if_neg after]
      exact ⟨.inl rfl, by omega, fun _ held => by cases held; omega⟩

theorem pickFrom_spec (eventTime : Int) (best : Option SegInfo) (segments : List SegInfo) :
    (∀ picked, pickFrom eventTime best segments = some picked →
      (best = some picked ∨ (picked ∈ segments ∧ Contains picked eventTime)) ∧
      (∀ b, best = some b → b.startTime ≤ picked.startTime) ∧
      ∀ s ∈ segments, Contains s eventTime → s.startTime ≤ picked.startTime) ∧
    (pickFrom eventTime best segments = none ↔ best = none ∧ ∀ s ∈ segments, ¬ Contains s eventTime) := by
  induction segments generalizing best with
  | nil =>
    refine ⟨fun picked same => ⟨.inl same, fun b held => ?_, List.forall_mem_nil _⟩, by simp [pickFrom]⟩
    cases held.symm.trans same
    exact Int.le_refl _
  | cons s segments ih =>
    rw [pickFrom]
    by_cases contains : Contains s eventTime
    · rw [if_pos contains]
      obtain ⟨origin, notLess, above⟩ := later_spec s best
      obtain ⟨found, unfound⟩ := ih (some (later s best))
      refine ⟨fun picked out => ?_, ?_⟩
      · obtain ⟨source, beyond, beyondAll⟩ := found picked out
        have reach := beyond _ rfl
        refine ⟨?_, fun b held => Int.le_trans (above b held) reach, List.forall_mem_cons.mpr ⟨fun _ => Int.le_trans notLess reach, beyondAll⟩⟩
        rcases source with kept | ⟨inside, holds⟩
        · cases kept
          rcases origin with old | new
          · exact .inl old
          · rw [new]
            exact .inr ⟨List.mem_cons_self, contains⟩
        · exact .inr ⟨List.mem_cons_of_mem _ inside, holds⟩
      · rw [unfound]
        exact iff_of_false (fun none => nomatch none.1) fun none => (List.forall_mem_cons.mp none.2).1 contains
    · rw [if_neg contains]
      obtain ⟨found, unfound⟩ := ih best
      refine ⟨fun picked out => ?_, ?_⟩
      · obtain ⟨source, beyond, beyondAll⟩ := found picked out
        exact ⟨source.imp_right fun held => ⟨List.mem_cons_of_mem _ held.1, held.2⟩, beyond,
          List.forall_mem_cons.mpr ⟨fun holds => absurd holds contains, beyondAll⟩⟩
      · rw [unfound, List.forall_mem_cons]
        simp [contains]

/-- A containing segment with the greatest start. -/
theorem pick_some {segments : List SegInfo} {eventTime : Int} {picked : SegInfo}
    (found : pickContainingSegment segments eventTime = some picked) : picked ∈ segments ∧ Contains picked eventTime ∧
      ∀ s ∈ segments, Contains s eventTime → s.startTime ≤ picked.startTime := by
  obtain ⟨source, -, beyond⟩ := (pickFrom_spec eventTime none segments).1 picked found
  rcases source with none | held
  · cases none
  · exact ⟨held.1, held.2, beyond⟩

theorem pick_none_iff {segments : List SegInfo} {eventTime : Int} :
    pickContainingSegment segments eventTime = none ↔ ∀ s ∈ segments, ¬ Contains s eventTime :=
  (pickFrom_spec eventTime none segments).2.trans (and_iff_right rfl)

theorem closestFrom_spec (eventTime : Int) (best : SegInfo) (segments : List SegInfo) :
    ∃ found ∈ best :: segments, closestFrom eventTime best (writeDiff eventTime best) segments = (found, writeDiff eventTime found) ∧
      ∀ s ∈ best :: segments, writeDiff eventTime found ≤ writeDiff eventTime s := by
  induction segments generalizing best with
  | nil => exact ⟨best, List.mem_cons_self, rfl, by simp⟩
  | cons s segments ih =>
    by_cases closer : writeDiff eventTime s < writeDiff eventTime best
    · obtain ⟨found, inside, same, least⟩ := ih s
      refine ⟨found, List.mem_cons_of_mem _ inside, ?_, List.forall_mem_cons.mpr ⟨?_, least⟩⟩
      · rw [closestFrom, ← writeDiff]
        exact (if_pos closer).trans same
      · have bound := least s List.mem_cons_self
        omega
    · obtain ⟨found, inside, same, least⟩ := ih best
      obtain ⟨first, rest⟩ := List.forall_mem_cons.mp least
      refine ⟨found, ?_, ?_, List.forall_mem_cons.mpr ⟨first, List.forall_mem_cons.mpr ⟨by omega, rest⟩⟩⟩
      · rcases List.mem_cons.mp inside with rfl | later
        · exact List.mem_cons_self
        · exact List.mem_cons_of_mem _ (List.mem_cons_of_mem _ later)
      · rw [closestFrom, ← writeDiff]
        exact (if_neg closer).trans same

/-- The segment that was written closest to the event is near it if one of them is, unless one
is so late that its distance does not fit. -/
theorem closestSegment_iff (first : SegInfo) (rest : List SegInfo) (eventTime : Int) :
    WrittenNear (closestSegment first rest eventTime) eventTime ↔
      (∃ s ∈ first :: rest, WrittenNear s eventTime) ∧ ∀ s ∈ first :: rest, -2 ^ 63 < eventTime - s.modTime := by
  obtain ⟨found, inside, same, least⟩ := closestFrom_spec eventTime first rest
  have chosen : closestSegment first rest eventTime = if writeDiff eventTime found > 5 * minute then first else found := by
    rw [closestSegment, ← writeDiff, same]
  rw [chosen]
  constructor
  · intro near
    have written : WrittenNear found eventTime ∧ writeDiff eventTime found ≤ 5 * minute := by
      split at near
      · rename_i far
        have bound := (writeDiff_le_iff eventTime first).mpr (.inl near)
        have := least first List.mem_cons_self
        omega
      · exact ⟨near, by omega⟩
    refine ⟨⟨found, inside, written.1⟩, fun s held => ?_⟩
    by_contra late
    have negative := (writeDiff_neg_iff eventTime s).mpr (by omega)
    have below := least s held
    have fits := (writeDiff_neg_iff eventTime found).mp (by omega)
    have lower := written.1.1
    dsimp only [minute, second] at lower
    omega
  · rintro ⟨⟨s, held, near⟩, fits⟩
    have bound := Int.le_trans (least s held) ((writeDiff_le_iff eventTime s).mpr (.inl near))
    rw [if_neg (by omega)]
    rcases (writeDiff_le_iff eventTime found).mp bound with written | late
    · exact written
    · have := fits found inside
      omega

/-- There is nothing to choose, or something that contains the event, or something that was
written near it and nothing centuries later. -/
def Related (segments : List SegInfo) (eventTime : Int) : Prop :=
  segments = [] ∨ (∃ s ∈ segments, Contains s eventTime) ∨
    ((∃ s ∈ segments, WrittenNear s eventTime) ∧ ∀ s ∈ segments, -2 ^ 63 < eventTime - s.modTime)

theorem bestSegment_near_iff (segments : List SegInfo) (eventTime : Int) :
    (∀ s, bestSegment segments eventTime = some s → BelongsToEvent s eventTime) ↔ Related segments eventTime := by
  cases segments with
  | nil => exact iff_of_true nofun (.inl rfl)
  | cons first rest =>
    cases picked : pickContainingSegment (first :: rest) eventTime with
    | some best =>
      have choice : bestSegment (first :: rest) eventTime = some best := by simp only [bestSegment, picked]
      obtain ⟨inside, contains, -⟩ := pick_some picked
      refine iff_of_true (fun s same => ?_) (.inr (.inl ⟨best, inside, contains⟩))
      cases choice.symm.trans same
      exact .inl contains
    | none =>
      have choice : bestSegment (first :: rest) eventTime = some (closestSegment first rest eventTime) := by
        simp only [bestSegment, picked]
      have outside := pick_none_iff.mp picked
      have member : closestSegment first rest eventTime ∈ first :: rest := by
        obtain ⟨found, inside, same, -⟩ := closestFrom_spec eventTime first rest
        rw [closestSegment, ← writeDiff, same]
        dsimp only
        split
        · exact List.mem_cons_self
        · exact inside
      constructor
      · intro near
        rcases near _ choice with contains | written
        · exact absurd contains (outside _ member)
        · exact .inr (.inr ((closestSegment_iff first rest eventTime).mp written))
      · rintro (none | ⟨s, held, contains⟩ | written) s' same
        · cases none
        · exact absurd contains (outside s held)
        · cases choice.symm.trans same
          exact .inr ((closestSegment_iff first rest eventTime).mpr written)

/-- A clip belongs to its event exactly if there is a segment to choose that does, or none at
all: otherwise the finders fall back to the nearest one. -/
theorem related_iff (sorts : SortSlice) (files : Files) (storagePath cameraID : String) (eventTime now : Int) :
    ((∀ clip, findEventClip sorts files storagePath cameraID eventTime now = some clip →
        ∃ s, bestSegment (listSegments sorts files storagePath cameraID now).1 eventTime = some s ∧
          clip.url = relURL files storagePath cameraID s.absPath ∧ BelongsToEvent s eventTime) ↔
      Related (listSegments sorts files storagePath cameraID now).1 eventTime) ∧
    ((∀ absPath relPath startTime,
        findEventClipFull sorts files storagePath cameraID eventTime now = some (absPath, relPath, startTime) →
        ∃ s, bestSegment (listSegments sorts files storagePath cameraID now).1 eventTime = some s ∧ absPath = s.absPath ∧
          BelongsToEvent s eventTime) ↔
      Related (listSegments sorts files storagePath cameraID now).1 eventTime) := by
  rw [← bestSegment_near_iff]
  refine ⟨⟨fun near s chosen => ?_, fun near clip found => ?_⟩, ⟨fun near s chosen => ?_, fun near absPath relPath startTime found => ?_⟩⟩
  · obtain ⟨s', chosen', -, belongs⟩ := near _ (by rw [findEventClip, chosen]; rfl)
    cases chosen.symm.trans chosen'
    exact belongs
  · obtain ⟨s, chosen, rfl⟩ := Option.map_eq_some_iff.mp found
    exact ⟨s, chosen, rfl, near s chosen⟩
  · obtain ⟨s', chosen', -, belongs⟩ := near _ _ _ (by rw [findEventClipFull, chosen]; rfl)
    cases chosen.symm.trans chosen'
    exact belongs
  · obtain ⟨s, chosen, same⟩ := Option.map_eq_some_iff.mp found
    cases same
    exact ⟨s, chosen, rfl, near s chosen⟩

/-- One minute on 19 February 2026. -/
private def oneFile : Files where
  readDir directory :=
    if directory = "/data/recordings/c1" then some [⟨"seg_20260219_140530.mp4", false, some ⟨1771509990000000000, 4096⟩⟩] else none
  stat _ := true

private def minuteOfFebruary : SegInfo :=
  ⟨"seg_20260219_140530.mp4", "/data/recordings/c1/seg_20260219_140530.mp4", 1771509990000000000, 4096, 1771509930000000000,
    1771600060000000000⟩

private theorem oneFile_listed : listSegments stableSort oneFile "/data" "c1" 1771600000000000000 =
    ([minuteOfFebruary], "/data/recordings/c1") := by
  have read : readSegments oneFile "/data" "c1" = some ("/data/recordings/c1", [{ minuteOfFebruary with endTime := zeroTime }]) := by
    decide +kernel
  have range : List.range [{ minuteOfFebruary with endTime := zeroTime }].length = [0] := rfl
  simp only [listSegments, read, fillEndTimes, range, SortSlice.slice_singleton, fillFrom]
  rw [show List.modify _ 0 _ = [minuteOfFebruary] from by decide, SortSlice.slice_singleton]

/-- The day before, there is a clip of the only minute that was recorded. -/
theorem clip_of_another_day : findEventClip stableSort oneFile "/data" "c1" 1771423530000000000 1771600000000000000 =
      some ⟨"recordings/c1/seg_20260219_140530.mp4", none⟩ ∧
    ¬ ∃ s, bestSegment (listSegments stableSort oneFile "/data" "c1" 1771600000000000000).1 1771423530000000000 = some s ∧
      BelongsToEvent s 1771423530000000000 := by
  rw [findEventClip, oneFile_listed]
  refine ⟨by decide +kernel, ?_⟩
  rintro ⟨s, chosen, near⟩
  have only : bestSegment [minuteOfFebruary] 1771423530000000000 = some minuteOfFebruary := by decide
  cases only.symm.trans chosen
  rcases near with ⟨-, started, -⟩ | ⟨written, -⟩
  · exact absurd started (by decide)
  · exact absurd written (by decide)

end Ironsight.ClipFinder
