import Mathlib.Tactic.Ring
import Ironsight.TrackingBackfill

/-! How often a frame is counted. If the bucket length divides the hour, ticks and the
backfill cut the time into the same windows, and a bucket counts all frames of its camera
and window; unless the window has frames of several tenants, of which one is read, or
frames come in after it has been rolled up. -/
namespace Ironsight.TrackingCounts
open Tables Uuid Access Runs Tracking TrackingBackfill

/-- The values of a bucket are those of all frames of its camera in its window. -/
def Counted (frames : List Frame) (row : Bucket) : Prop :=
  let members := framesIn frames row.cameraID row.bucketStart (row.bucketStart + row.bucketMinutes * minute)
  row.frameCount = members.length ∧ row.peakPersonCount = (members.map Frame.personCount).foldl max 0 ∧
    row.personMinutes = ((members.map Frame.personCount).sum : Nat) / 2

/-- The windows of one granularity are disjoint, and each bucket counts its frames. -/
structure CountedOnce (a : Aggregator) (s : Store) : Prop where
  disjoint : ∀ first ∈ s.buckets, ∀ second ∈ s.buckets, first.bucketMinutes = a.bucketMinutes →
    second.bucketMinutes = a.bucketMinutes → first.bucketStart ≠ second.bucketStart →
      first.bucketStart + a.bucketMinutes * minute ≤ second.bucketStart ∨
        second.bucketStart + a.bucketMinutes * minute ≤ first.bucketStart
  counted : ∀ row ∈ s.buckets, row.bucketMinutes = a.bucketMinutes → Counted s.frames.rows row

instance (frames : List Frame) (row : Bucket) : Decidable (Counted frames row) :=
  inferInstanceAs (Decidable (_ ∧ _ ∧ _))

instance (a : Aggregator) (s : Store) : Decidable (CountedOnce a s) :=
  decidable_of_iff ((∀ first ∈ s.buckets, ∀ second ∈ s.buckets, first.bucketMinutes = a.bucketMinutes →
      second.bucketMinutes = a.bucketMinutes → first.bucketStart ≠ second.bucketStart →
        first.bucketStart + a.bucketMinutes * minute ≤ second.bucketStart ∨
          second.bucketStart + a.bucketMinutes * minute ≤ first.bucketStart) ∧
    ∀ row ∈ s.buckets, row.bucketMinutes = a.bucketMinutes → Counted s.frames.rows row)
    ⟨fun both => ⟨both.1, both.2⟩, fun once => ⟨once.disjoint, once.counted⟩⟩

/-- A frame comes, or the aggregator runs. -/
inductive Move where
  | frame (frame : Frame)
  | tick (now : Instant) (env : Env)
  | backfill (now : Instant) (env : Env)

/-- What each of them leaves of frames and buckets. -/
def step (a : Aggregator) (s : Store) : Move → Store
  | .frame frame => { s with frames := (insertTrackFrame s.frames frame).getD s.frames }
  | .tick now env => a.rollup env s now
  | .backfill now env => (a.backfill env s now).getD s

/-- All frames of a camera in a window have one site and organisation, and `real` holds the
sum of their counts exactly. -/
def OneTenant (frames : List Frame) (camera : UUID) (windowStart windowEnd : Instant) : Prop :=
  (∀ first ∈ framesIn frames camera windowStart windowEnd, ∀ second ∈ framesIn frames camera windowStart windowEnd,
    tenant first = tenant second) ∧
  real ((framesIn frames camera windowStart windowEnd).map Frame.personCount).sum =
    ((framesIn frames camera windowStart windowEnd).map Frame.personCount).sum

/-- No frame comes into a window that its camera has a bucket for, and no camera is rolled
up over a window with several tenants. -/
def BucketsLast (a : Aggregator) (s : Store) : Move → Prop
  | .frame frame => ∀ row ∈ s.buckets, row.bucketMinutes = a.bucketMinutes → row.cameraID = frame.cameraID →
      ¬ (row.bucketStart ≤ frame.time ∧ frame.time < row.bucketStart + a.bucketMinutes * minute)
  | .tick now _ => ∀ camera ∈ listCamerasWithUnbucketedFrames s (a.prevBucketWindow now).1 (a.prevBucketWindow now).2 a.bucketMinutes,
      OneTenant s.frames.rows camera (a.prevBucketWindow now).1 (a.prevBucketWindow now).2
  | .backfill now _ => ∀ camera ∈ listCamerasWithUnbucketedFrames s (a.span now).1 (a.span now).2 a.bucketMinutes,
      ∀ k : Nat, (a.span now).1 + k * minutes a.bucketMinutes < (a.span now).2 →
        OneTenant s.frames.rows camera ((a.span now).1 + k * minutes a.bucketMinutes)
          ((a.span now).1 + k * minutes a.bucketMinutes + minutes a.bucketMinutes)

/-! ## The grid -/

/-- A multiple of the bucket length. -/
def OnGrid (b : Int) (t : Int) : Prop := ∃ m : Int, t = m * (b * minute)

section Grid
variable {a : Aggregator} (divides : 60 % a.bucketMinutes = 0)
include divides

private theorem minutes_eq : minutes a.bucketMinutes = a.bucketMinutes * minute ∧
    minutes (-a.bucketMinutes) = -(a.bucketMinutes * minute) := by
  have bound : a.bucketMinutes ≤ 60 := Int.le_of_dvd (by decide) (Int.dvd_of_emod_eq_zero divides)
  have positive := a.positive
  unfold minutes minute
  constructor
  · rw [Int.bmod_eq_of_le] <;> omega
  · rw [Int.bmod_eq_of_le] <;> omega

private theorem floorToBucket_onGrid (t : Int) : OnGrid a.bucketMinutes (a.floorToBucket t) := by
  refine ⟨t / minute / a.bucketMinutes, ?_⟩
  unfold Aggregator.floorToBucket
  rw [Int.emod_emod_of_dvd _ (Int.dvd_of_emod_eq_zero divides)]
  have split := Int.emod_add_mul_ediv (t / minute) a.bucketMinutes
  have rest : t / minute - t / minute % a.bucketMinutes = a.bucketMinutes * (t / minute / a.bucketMinutes) := by omega
  rw [← Int.sub_mul, rest]
  ring

private theorem span_onGrid (now : Instant) (k : Nat) :
    OnGrid a.bucketMinutes ((a.span now).1 + k * minutes a.bucketMinutes) := by
  obtain ⟨m, boundary⟩ := floorToBucket_onGrid divides now
  obtain ⟨q, hour⟩ := Int.dvd_of_emod_eq_zero divides
  refine ⟨m - 24 * q + k, ?_⟩
  have whole : day = 24 * q * (a.bucketMinutes * minute) := by
    have hours : day = 24 * 60 * minute := by decide
    rw [hours, hour]
    ring
  rw [(minutes_eq divides).1, Aggregator.span, boundary, whole]
  ring

private theorem prevBucketWindow_onGrid (now : Instant) : OnGrid a.bucketMinutes (a.prevBucketWindow now).1 ∧
    (a.prevBucketWindow now).2 = (a.prevBucketWindow now).1 + a.bucketMinutes * minute := by
  obtain ⟨m, boundary⟩ := floorToBucket_onGrid divides now
  simp only [Aggregator.prevBucketWindow, (minutes_eq divides).2, boundary]
  exact ⟨⟨m - 1, by ring⟩, by ring⟩

end Grid

/-- Different points of the grid are a bucket length apart. -/
private theorem apart_of_onGrid {b first second : Int} (positive : 0 < b) (left : OnGrid b first) (right : OnGrid b second)
    (differs : first ≠ second) : first + b * minute ≤ second ∨ second + b * minute ≤ first := by
  obtain ⟨m, rfl⟩ := left
  obtain ⟨n, rfl⟩ := right
  have length : 0 < b * minute := Int.mul_pos positive (by decide)
  rcases lt_trichotomy m n with lower | rfl | higher
  · refine .inl ?_
    have next : (m + 1) * (b * minute) ≤ n * (b * minute) := Int.mul_le_mul_of_nonneg_right (by omega) length.le
    rw [Int.add_mul, Int.one_mul] at next
    exact next
  · exact absurd rfl differs
  · refine .inr ?_
    have next : (n + 1) * (b * minute) ≤ m * (b * minute) := Int.mul_le_mul_of_nonneg_right (by omega) length.le
    rw [Int.add_mul, Int.one_mul] at next
    exact next

/-! ## The invariant -/

/-- The buckets of this granularity lie on the grid and count their frames. -/
private def Sound (a : Aggregator) (s : Store) : Prop :=
  ∀ row ∈ s.buckets, row.bucketMinutes = a.bucketMinutes → OnGrid a.bucketMinutes row.bucketStart ∧ Counted s.frames.rows row

private theorem Sound.countedOnce {a : Aggregator} {s : Store} (sound : Sound a s) : CountedOnce a s where
  disjoint first left second right sameFirst sameSecond differs :=
    apart_of_onGrid a.positive (sound first left sameFirst).1 (sound second right sameSecond).1 differs
  counted row held same := (sound row held same).2

section Steps
variable {a : Aggregator} {env : Env} {s : Store} {camera : UUID} {windowStart : Instant}

/-- With one tenant, the group that is read is the whole window. -/
private theorem aggregate_counted {frames : List Frame} {first : Nat} {bucket : Bucket}
    (single : OneTenant frames camera windowStart (windowStart + a.bucketMinutes * minute))
    (made : aggregateFramesIntoBucket frames camera windowStart (windowStart + a.bucketMinutes * minute) a.bucketMinutes first =
      some bucket) : Counted frames bucket := by
  obtain ⟨group, ⟨frame, held, same⟩, rfl⟩ := aggregate_group made
  have whole : ((framesIn frames camera windowStart (windowStart + a.bucketMinutes * minute)).filter
      fun frame => tenant frame = group) = framesIn frames camera windowStart (windowStart + a.bucketMinutes * minute) := by
    refine List.filter_eq_self.mpr fun other member => ?_
    rw [← same, single.1 other member frame held]
    exact decide_eq_true rfl
  simp only [Counted, whole, single.2, and_self]

private theorem Sound.rollupCamera (sound : Sound a s) (onGrid : OnGrid a.bucketMinutes windowStart)
    (single : OneTenant s.frames.rows camera windowStart (windowStart + a.bucketMinutes * minute)) :
    Sound a (a.rollupCamera env s camera windowStart (windowStart + a.bucketMinutes * minute)) := by
  cases (rollupCamera_effect : RollUp a env s camera windowStart (windowStart + a.bucketMinutes * minute) _) with
  | idle same =>
    rw [same]
    exact sound
  | rolled bucket made new key values written =>
    rw [written]
    intro row held same
    rcases Table.mem_put.mp held with rfl | ⟨old, _⟩
    · obtain ⟨sameCamera, sameStart, _⟩ : row.cameraID = camera ∧ row.bucketStart = windowStart ∧
          row.bucketMinutes = a.bucketMinutes := by simpa [Bucket.key] using key
      have counted := aggregate_counted single made
      obtain ⟨group, _, shape⟩ := aggregate_group made
      rw [shape] at counted values
      refine ⟨sameStart ▸ onGrid, ?_⟩
      simp only [Counted] at counted ⊢
      rw [sameCamera, sameStart, same, values.1, values.2.1, values.2.2]
      exact counted
    · exact sound row old same

private theorem Sound.rollAll (pairs : List (UUID × Instant)) (sound : Sound a s)
    (fit : ∀ pair ∈ pairs, OnGrid a.bucketMinutes pair.2 ∧
      OneTenant s.frames.rows pair.1 pair.2 (pair.2 + a.bucketMinutes * minute)) :
    Sound a (rollAll a env (a.bucketMinutes * minute) s pairs) := by
  induction pairs generalizing s with
  | nil => exact sound
  | cons pair rest ih =>
    obtain ⟨onGrid, single⟩ := fit pair List.mem_cons_self
    refine ih (sound.rollupCamera onGrid single) fun other later => ?_
    rw [rollupCamera_frames]
    exact fit other (List.mem_cons_of_mem _ later)

private theorem Sound.frame {frame : Frame} (sound : Sound a s) (late : BucketsLast a s (.frame frame)) :
    Sound a (step a s (.frame frame)) := by
  intro row held same
  obtain ⟨onGrid, counted⟩ := sound row held same
  refine ⟨onGrid, ?_⟩
  show Counted ((insertTrackFrame s.frames frame).getD s.frames).rows row
  unfold insertTrackFrame
  split
  · have elsewhere : framesIn (s.frames.rows ++ [frame]) row.cameraID row.bucketStart
        (row.bucketStart + row.bucketMinutes * minute) =
          framesIn s.frames.rows row.cameraID row.bucketStart (row.bucketStart + row.bucketMinutes * minute) := by
      have outside : ¬ (frame.cameraID = row.cameraID ∧ row.bucketStart ≤ frame.time ∧
          frame.time < row.bucketStart + row.bucketMinutes * minute) := by
        rintro ⟨sameCamera, inside⟩
        rw [same] at inside
        exact late row held same sameCamera.symm inside
      simp [framesIn, List.filter_append, outside]
    simp only [Counted, Option.getD_some, elsewhere]
    exact counted
  · exact counted

variable (divides : 60 % a.bucketMinutes = 0)
include divides

private theorem rollup_eq (now : Instant) : a.rollup env s now =
    if env.listed then rollAll a env (a.bucketMinutes * minute) s
      ((listCamerasWithUnbucketedFrames s (a.prevBucketWindow now).1 (a.prevBucketWindow now).2 a.bucketMinutes).map
        fun camera => (camera, (a.prevBucketWindow now).1))
    else s := by
  obtain ⟨_, length⟩ := prevBucketWindow_onGrid divides now
  rw [Aggregator.rollup, Aggregator.rollupWindow, rollAll, List.foldl_map]
  simp only [← length]
  cases env.listed <;> rfl

private theorem Sound.tick {now : Instant} (sound : Sound a s) (single : BucketsLast a s (.tick now env)) :
    Sound a (step a s (.tick now env)) := by
  obtain ⟨onGrid, length⟩ := prevBucketWindow_onGrid divides now
  show Sound a (a.rollup env s now)
  rw [rollup_eq divides]
  split
  · refine sound.rollAll _ fun pair member => ?_
    obtain ⟨camera, listed, rfl⟩ := List.mem_map.mp member
    exact ⟨onGrid, length ▸ single camera listed⟩
  · exact sound

private theorem Sound.backfill {now : Instant} (sound : Sound a s) (single : BucketsLast a s (.backfill now env)) :
    Sound a (step a s (.backfill now env)) := by
  show Sound a ((a.backfill env s now).getD s)
  cases ran : a.backfill env s now with
  | none => exact sound
  | some after =>
    cases listed : env.listed with
    | false =>
      simp only [Aggregator.backfill, listed, Bool.not_false, if_true, Option.some.injEq] at ran
      exact ran ▸ sound
    | true =>
      obtain ⟨pairs, rfl, visited, _⟩ := backfill_pairs listed ran
      rw [(minutes_eq divides).1]
      refine sound.rollAll pairs fun pair member => ?_
      obtain ⟨known, k, start, inside⟩ := visited pair member
      have fits := single pair.1 known k (start ▸ inside)
      rw [← start, (minutes_eq divides).1] at fits
      exact ⟨start ▸ span_onGrid divides now k, fits⟩

private theorem Sound.preserved (move : Move) (sound : Sound a s) (orderly : BucketsLast a s move) :
    Sound a (step a s move) := by
  cases move with
  | frame frame => exact sound.frame orderly
  | tick now env => exact sound.tick divides orderly
  | backfill now env => exact sound.backfill divides orderly

/-- After a tick without errors, every camera with frames in its window has the bucket. -/
private theorem Sound.tick_rolled {now : Instant} (sound : Sound a s) (fine : NoErrors env)
    (frames : framesIn s.frames.rows camera (a.prevBucketWindow now).1 (a.prevBucketWindow now).2 ≠ []) :
    HasBucket a.bucketMinutes (step a s (.tick now env)).buckets camera (a.prevBucketWindow now).1 := by
  obtain ⟨onGrid, length⟩ := prevBucketWindow_onGrid divides now
  show HasBucket a.bucketMinutes (a.rollup env s now).buckets camera (a.prevBucketWindow now).1
  rw [rollup_eq divides, if_pos fine.1]
  by_cases bucketed : HasBucket a.bucketMinutes s.buckets camera (a.prevBucketWindow now).1
  · exact hasBucket_rollAll_kept _ bucketed
  · refine hasBucket_rollAll_rolled fine _ (length ▸ frames) (List.mem_map_of_mem (mem_listed.mpr ⟨frames, ?_⟩))
    -- a bucket that starts inside the window starts with it
    intro row held sameCamera same inside
    rw [length] at inside
    have starts : row.bucketStart = (a.prevBucketWindow now).1 := by
      by_contra differs
      rcases apart_of_onGrid a.positive (sound row held same).1 onGrid differs with before | after
      · have forward : 0 < a.bucketMinutes * minute := Int.mul_pos a.positive (by decide)
        have earlier := lt_of_lt_of_le (lt_add_of_pos_right row.bucketStart forward) before
        exact absurd inside.1 (not_le.mpr earlier)
      · exact absurd inside.2 (not_lt.mpr after)
    exact bucketed ⟨row, held, by rw [Bucket.key, sameCamera, same, starts]⟩

private theorem hasBucket_step (move : Move) (before : HasBucket a.bucketMinutes s.buckets camera windowStart) :
    HasBucket a.bucketMinutes (step a s move).buckets camera windowStart := by
  cases move with
  | frame frame => exact before
  | tick now env =>
    show HasBucket a.bucketMinutes (a.rollup env s now).buckets camera windowStart
    rw [rollup_eq divides]
    split
    · exact hasBucket_rollAll_kept _ before
    · exact before
  | backfill now env =>
    show HasBucket a.bucketMinutes ((a.backfill env s now).getD s).buckets camera windowStart
    cases ran : a.backfill env s now with
    | none => exact before
    | some after =>
      cases listed : env.listed with
      | false =>
        simp only [Aggregator.backfill, listed, Bool.not_false, if_true, Option.some.injEq] at ran
        exact ran ▸ before
      | true =>
        obtain ⟨pairs, rfl, _⟩ := backfill_pairs listed ran
        exact hasBucket_rollAll_kept pairs before

end Steps

/-- If the bucket length divides the hour, then in every run without late frames in which each
rolled-up window has frames of one tenant, the windows of the buckets are disjoint and every
bucket counts all frames of its window. A tick without errors leaves the bucket of every camera
that has a frame in its window, and no later step takes it away. -/
theorem counted_once_when_grid_fits (a : Aggregator) (divides : 60 % a.bucketMinutes = 0) (start : Store)
    (fresh : ∀ row ∈ start.buckets, row.bucketMinutes ≠ a.bucketMinutes) (moves : List Move)
    (orderly : Along (step a) (BucketsLast a) start moves) :
    Throughout (step a) (CountedOnce a) start moves ∧
    ∀ earlier now env later, moves = earlier ++ .tick now env :: later → NoErrors env → ∀ camera,
      framesIn (exec (step a) start earlier).frames.rows camera (a.prevBucketWindow now).1 (a.prevBucketWindow now).2 ≠ [] →
        HasBucket a.bucketMinutes (exec (step a) start moves).buckets camera (a.prevBucketWindow now).1 := by
  have initial : Sound a start := fun row held same => absurd same (fresh row held)
  have throughout : Throughout (step a) (Sound a) start moves :=
    throughout_of_invariant (fun _ move sound allowed => sound.preserved divides move allowed) moves start initial orderly
  refine ⟨throughout_mono (fun _ sound => sound.countedOnce) moves start throughout, ?_⟩
  rintro earlier now env later rfl fine camera frames
  rw [exec_append, exec_cons]
  have here : Sound a (exec (step a) start earlier) := throughout_at earlier throughout
  have kept : ∀ (s : Store) (move : Move), HasBucket a.bucketMinutes s.buckets camera (a.prevBucketWindow now).1 →
      HasBucket a.bucketMinutes (step a s move).buckets camera (a.prevBucketWindow now).1 :=
    fun _ move before => hasBucket_step divides move before
  exact exec_invariant kept later _ (here.tick_rolled divides fine frames)

/-! ## Runs on a table without buckets -/

private def fresh : Store := ⟨⟨[], by rintro _ ⟨⟩⟩, .empty⟩

private def fiveMinuteBuckets : Aggregator := newAggregator 5

private def dock : UUID := ⟨1⟩

/-- At that minute, for that organisation. -/
private def visit (time : Int) (organizationID : String) : Move :=
  .frame ⟨time * minute, dock, some "S", organizationID, 1, "ppe_worker"⟩

/-- Both visits come before their window is rolled up. -/
theorem two_visits_counted_once : Throughout (step fiveMinuteBuckets) (CountedOnce fiveMinuteBuckets) fresh
    [.backfill 0 {}, visit 11 "org", visit 12 "org", .tick (15 * minute) {}] := by
  refine (counted_once_when_grid_fits fiveMinuteBuckets (by decide) fresh (by rintro _ ⟨⟩) _ ?_).1
  refine ⟨by rintro _ ⟨⟩, by rintro _ ⟨⟩, by rintro _ ⟨⟩, fun camera listed => ?_, trivial⟩
  obtain rfl : camera = dock := by
    revert camera
    decide +kernel
  exact ⟨by decide +kernel, by decide +kernel⟩

private def sevenMinutes : Aggregator := newAggregator 7

/-- Between the two visits the camera goes over to another organisation; and a length that does
not divide the hour, where the window before 01:00 begins inside the window before 00:56. -/
theorem frames_not_counted_once : ¬ Throughout (step fiveMinuteBuckets) (CountedOnce fiveMinuteBuckets) fresh
      [.backfill 0 {}, visit 11 "org", visit 12 "other", .tick (15 * minute) {}] ∧
    ¬ Throughout (step sevenMinutes) (CountedOnce sevenMinutes) fresh
      [.backfill 0 {}, visit 54 "org", .tick (56 * minute) {}, .tick (60 * minute) {}] := by
  decide +kernel

end Ironsight.TrackingCounts
