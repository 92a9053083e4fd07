import Mathlib.Data.List.Dedup
import Mathlib.Data.Rat.Defs
import Ironsight.Access
import Ironsight.Runs

/-! Person tracking: raw frames with a person count, and the aggregator that rolls
them up into buckets. A tick rolls up the window before the last boundary of the
minute-of-hour grid; the backfill at startup walks the last day in steps of the
bucket length. -/
namespace Ironsight.Tracking
open Tables Uuid Access Runs

/-! ## The two tables -/

/-- A row of `person_track_frames`. -/
structure Frame where
  time : Instant
  cameraID : UUID
  siteID : Option String
  organizationID : String
  personCount : Nat
  frameSource : String := "ppe_worker"
  deriving DecidableEq

/-- The stored frames. `InsertTrackFrame` refuses one without an organisation. -/
structure Frames where
  rows : List Frame
  owned : ∀ frame ∈ rows, frame.organizationID ≠ ""

/-- A row of `person_track_buckets`. -/
structure Bucket where
  cameraID : UUID
  siteID : Option String
  organizationID : String
  bucketStart : Instant
  bucketMinutes : Int
  personMinutes : Rat
  peakPersonCount : Nat
  frameCount : Nat
  violationCount : Nat := 0
  rolledUpAt : Instant := 0
  deriving DecidableEq

def Bucket.key (bucket : Bucket) : UUID × Instant × Int := (bucket.cameraID, bucket.bucketStart, bucket.bucketMinutes)

abbrev Buckets := Table Bucket.key

structure Store where
  frames : Frames
  buckets : Buckets

/-- `InsertTrackFrame`. -/
def insertTrackFrame (frames : Frames) (frame : Frame) : Option Frames :=
  if owned : frame.organizationID ≠ "" then
    some ⟨frames.rows ++ [frame], by
      intro row held
      rcases List.mem_append.mp held with old | new
      · exact frames.owned row old
      · rw [List.mem_singleton.mp new]
        exact owned⟩
  else none

/-- A non-negative integer as `real`: 24 significant bits, halves to even. -/
def real (n : Nat) : Nat :=
  let unit := 2 ^ (n.log2 - 23)
  let low := n / unit
  if unit < 2 * (n % unit) ∨ (unit = 2 * (n % unit) ∧ low % 2 = 1) then (low + 1) * unit else low * unit

/-- The frames of a camera in `[windowStart, windowEnd)`. -/
def framesIn (frames : List Frame) (cameraID : UUID) (windowStart windowEnd : Instant) : List Frame :=
  frames.filter fun frame => frame.cameraID = cameraID ∧ windowStart ≤ frame.time ∧ frame.time < windowEnd

/-- The columns that the aggregate groups by besides the camera. -/
def tenant (frame : Frame) : Option String × String := (frame.siteID, frame.organizationID)

/-- `AggregateFramesIntoBucket`. The query has a row for each site and organisation and no
order; the one of them that comes first is read. -/
def aggregateFramesIntoBucket (frames : List Frame) (cameraID : UUID) (windowStart windowEnd : Instant)
    (bucketMinutes : Int) (first : Nat) : Option Bucket :=
  let groups := ((framesIn frames cameraID windowStart windowEnd).map tenant).dedup
  (groups[first]?.or groups.head?).map fun group =>
    let members := (framesIn frames cameraID windowStart windowEnd).filter fun frame => tenant frame = group
    { cameraID, siteID := group.1, organizationID := group.2, bucketStart := windowStart, bucketMinutes
      personMinutes := real (members.map Frame.personCount).sum / 2
      peakPersonCount := (members.map Frame.personCount).foldl max 0
      frameCount := members.length }

/-- `UpsertTrackBucket`: on conflict the tenant columns of the row stay. -/
def upsertTrackBucket (buckets : Buckets) (b : Bucket) : Option Buckets :=
  if b.organizationID = "" then none
  else match buckets.find? b.key with
    | none => some (buckets.put b)
    | some old => some (buckets.put { b with siteID := old.siteID, organizationID := old.organizationID })

/-- `ListCamerasWithUnbucketedFrames`. -/
def listCamerasWithUnbucketedFrames (s : Store) (sinceTime beforeTime : Instant) (bucketMinutes : Int) : List UUID :=
  ((s.frames.rows.filter fun frame => sinceTime ≤ frame.time ∧ frame.time < beforeTime ∧
    ¬ ∃ row ∈ s.buckets, row.cameraID = frame.cameraID ∧ row.bucketMinutes = bucketMinutes ∧
      sinceTime ≤ row.bucketStart ∧ row.bucketStart < beforeTime).map Frame.cameraID).dedup

/-! ## The aggregator -/

/-- An aggregator as `NewAggregator` returns it. -/
structure Aggregator where
  bucketMinutes : Int
  positive : 0 < bucketMinutes

/-- `NewAggregator`. -/
def newAggregator (bucketMinutes : Int) : Aggregator :=
  if positive : 0 < bucketMinutes then ⟨bucketMinutes, positive⟩ else ⟨5, by decide⟩

def minute : Int := 60000000000

/-- `24 * time.Hour`. -/
def day : Int := 86400000000000

/-- `time.Duration(n) * time.Minute`, a 64-bit product. -/
def minutes (n : Int) : Int := (n * minute).bmod (2 ^ 64)

/-- `floorToBucket`, by the minute of the hour. -/
def Aggregator.floorToBucket (a : Aggregator) (t : Instant) : Instant :=
  t / minute * minute - t / minute % 60 % a.bucketMinutes * minute

/-- `prevBucketWindow`. -/
def Aggregator.prevBucketWindow (a : Aggregator) (now : Instant) : Instant × Instant :=
  let windowEnd := a.floorToBucket now
  (windowEnd + minutes (-a.bucketMinutes), windowEnd)

/-- What the database does to the statements of one pass: which fail, which group is read
first, and how many violations a window has. -/
structure Env where
  listed : Bool := true
  aggregated : UUID → Instant → Bool := fun _ _ => true
  first : UUID → Instant → Nat := fun _ _ => 0
  violations : UUID → Instant → Option Nat := fun _ _ => some 0
  upserted : UUID → Instant → Bool := fun _ _ => true
  now : Instant := 0

/-- `rollupCamera`. -/
def Aggregator.rollupCamera (a : Aggregator) (env : Env) (s : Store) (cameraID : UUID) (windowStart windowEnd : Instant) :
    Store :=
  if !env.aggregated cameraID windowStart then s
  else match aggregateFramesIntoBucket s.frames.rows cameraID windowStart windowEnd a.bucketMinutes
      (env.first cameraID windowStart) with
    | none => s
    | some bucket =>
      let bucket := { bucket with
        violationCount := (env.violations cameraID windowStart).getD 0
        rolledUpAt := env.now }
      if !env.upserted cameraID windowStart then s
      else { s with buckets := (upsertTrackBucket s.buckets bucket).getD s.buckets }

/-- `rollupWindow`. -/
def Aggregator.rollupWindow (a : Aggregator) (env : Env) (s : Store) (windowStart windowEnd : Instant) : Store :=
  if !env.listed then s
  else (listCamerasWithUnbucketedFrames s windowStart windowEnd a.bucketMinutes).foldl
    (fun s cameraID => a.rollupCamera env s cameraID windowStart windowEnd) s

/-- `rollup`. -/
def Aggregator.rollup (a : Aggregator) (env : Env) (s : Store) (now : Instant) : Store :=
  a.rollupWindow env s (a.prevBucketWindow now).1 (a.prevBucketWindow now).2

/-- The window starts that the backfill walks; `none` if it would never come to the end. -/
def windowStarts (step stop : Int) : Nat → Instant → Option (List Instant)
  | 0, _ => none
  | fuel + 1, ws => if ws < stop then (windowStarts step stop fuel (ws + step)).map (ws :: ·) else some []

/-- The span of the last day before the open bucket. -/
def Aggregator.span (a : Aggregator) (now : Instant) : Instant × Instant :=
  (a.floorToBucket now - day, a.floorToBucket now)

/-- `backfill`. Its steps are at least a nanosecond long, or it never ends. -/
def Aggregator.backfill (a : Aggregator) (env : Env) (s : Store) (now : Instant) : Option Store :=
  if !env.listed then some s
  else
    let cameras := listCamerasWithUnbucketedFrames s (a.span now).1 (a.span now).2 a.bucketMinutes
    if cameras = [] then some s
    else (windowStarts (minutes a.bucketMinutes) (a.span now).2 (day.toNat + 1) (a.span now).1).map fun starts =>
      starts.foldl (fun s ws => cameras.foldl
        (fun s cameraID => a.rollupCamera env s cameraID ws (ws + minutes a.bucketMinutes)) s) s

end Ironsight.Tracking
