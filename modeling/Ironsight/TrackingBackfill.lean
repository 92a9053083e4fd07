import Mathlib.Tactic.Ring
import Ironsight.Tracking

/-! Which gaps the backfill closes. One query over the whole day chooses the cameras, and
it passes over a camera as soon as any bucket of it starts in that day; only for the
others does the walk look at every window. -/
namespace Ironsight.TrackingBackfill
open Tables Uuid Access Runs Tracking

/-- No statement of the pass fails. -/
def NoErrors (env : Env) : Prop :=
  env.listed = true ∧ (∀ camera ws, env.aggregated camera ws = true) ∧ ∀ camera ws, env.upserted camera ws = true

/-- A bucket of this granularity for this camera and window. -/
def HasBucket (b : Int) (buckets : Buckets) (camera : UUID) (windowStart : Instant) : Prop :=
  ∃ row ∈ buckets, row.key = (camera, windowStart, b)

/-- Every window of the walk that lies inside the last day before the open bucket, and in
which the camera has a frame, has its bucket. -/
def CameraClosed (a : Aggregator) (now : Instant) (frames : List Frame) (buckets : Buckets) (camera : UUID) : Prop :=
  ∀ k : Nat, (a.span now).1 + k * minutes a.bucketMinutes + minutes a.bucketMinutes ≤ (a.span now).2 →
    framesIn frames camera ((a.span now).1 + k * minutes a.bucketMinutes)
      ((a.span now).1 + k * minutes a.bucketMinutes + minutes a.bucketMinutes) ≠ [] →
    HasBucket a.bucketMinutes buckets camera ((a.span now).1 + k * minutes a.bucketMinutes)

/-- No bucket of this granularity for this camera starts in the last day. -/
def NoBuckets (a : Aggregator) (now : Instant) (buckets : Buckets) (camera : UUID) : Prop :=
  ∀ row ∈ buckets, row.cameraID = camera → row.bucketMinutes = a.bucketMinutes →
    ¬ ((a.span now).1 ≤ row.bucketStart ∧ row.bucketStart < (a.span now).2)

/-! ## The walk -/

section Walk
variable {step stop : Int}

/-- Steps that do not go forward never reach the end. -/
private theorem windowStarts_none (still : step ≤ 0) : ∀ (fuel : Nat) (ws : Int), ws < stop →
    windowStarts step stop fuel ws = none
  | 0, _, _ => rfl
  | fuel + 1, ws, before => by
    rw [windowStarts, if_pos before, windowStarts_none still fuel (ws + step) (by omega)]
    rfl

private theorem windowStarts_some (forward : 0 < step) : ∀ (fuel : Nat) (ws : Int), stop - ws < fuel → 0 < fuel →
    ∃ starts, windowStarts step stop fuel ws = some starts
  | 0, _, _, positive => absurd positive (Nat.lt_irrefl 0)
  | fuel + 1, ws, enough, _ => by
    rw [windowStarts]
    by_cases before : ws < stop
    · rw [if_pos before]
      obtain ⟨starts, walked⟩ := windowStarts_some forward fuel (ws + step) (by omega) (by omega)
      rw [walked]
      exact ⟨_, rfl⟩
    · rw [if_neg before]
      exact ⟨_, rfl⟩

private theorem mem_windowStarts (forward : 0 < step) : ∀ (fuel : Nat) (ws : Int) (starts : List Instant),
    windowStarts step stop fuel ws = some starts → ∀ k : Nat, ws + k * step < stop → ws + k * step ∈ starts
  | 0, _, _, walked, _, _ => by cases walked
  | fuel + 1, ws, starts, walked, k, inside => by
    have ahead : 0 ≤ k * step := Int.mul_nonneg (Int.natCast_nonneg k) forward.le
    have reached : ws < stop := by omega
    rw [windowStarts, if_pos reached] at walked
    obtain ⟨rest, later, rfl⟩ := Option.map_eq_some_iff.mp walked
    cases k with
    | zero => simp
    | succ k =>
      have next : ws + step + k * step = ws + (k + 1 : Nat) * step := by
        push_cast
        ring
      have member := mem_windowStarts forward fuel (ws + step) rest later k (by rw [next]; exact inside)
      rw [next] at member
      exact List.mem_cons_of_mem _ member

private theorem windowStarts_reached : ∀ (fuel : Nat) (ws : Int) (starts : List Instant),
    windowStarts step stop fuel ws = some starts → ∀ start ∈ starts, ∃ k : Nat, start = ws + k * step ∧ start < stop
  | 0, _, _, walked, _, _ => by cases walked
  | fuel + 1, ws, starts, walked, start, member => by
    by_cases before : ws < stop
    · rw [windowStarts, if_pos before] at walked
      obtain ⟨rest, later, rfl⟩ := Option.map_eq_some_iff.mp walked
      rcases List.mem_cons.mp member with rfl | behind
      · exact ⟨0, by simp, before⟩
      · obtain ⟨k, rfl, inside⟩ := windowStarts_reached fuel (ws + step) rest later start behind
        refine ⟨k + 1, ?_, inside⟩
        push_cast
        ring
    · rw [windowStarts, if_neg before] at walked
      cases walked
      cases member

end Walk

/-! ## Rolling up -/

/-- The pairs of cameras and windows of a pass, one after the other. -/
def rollAll (a : Aggregator) (env : Env) (length : Int) (s : Store) (pairs : List (UUID × Instant)) : Store :=
  pairs.foldl (fun s pair => a.rollupCamera env s pair.1 pair.2 (pair.2 + length)) s

theorem rollAll_nested (a : Aggregator) (env : Env) (length : Int) (cameras : List UUID) (starts : List Instant) (s : Store) :
    starts.foldl (fun s ws => cameras.foldl (fun s camera => a.rollupCamera env s camera ws (ws + length)) s) s =
      rollAll a env length s (starts.flatMap fun ws => cameras.map fun camera => (camera, ws)) := by
  induction starts generalizing s with
  | nil => rfl
  | cons ws rest ih =>
    rw [List.foldl_cons, ih, List.flatMap_cons, rollAll, rollAll, List.foldl_append, List.foldl_map]

section RollUp
variable {a : Aggregator} {env : Env} {s : Store} {camera : UUID} {windowStart windowEnd : Instant}

theorem aggregate_isSome {frames : List Frame} (b : Int) (first : Nat) :
    (aggregateFramesIntoBucket frames camera windowStart windowEnd b first).isSome = true ↔
      framesIn frames camera windowStart windowEnd ≠ [] := by
  unfold aggregateFramesIntoBucket
  rw [Option.isSome_map]
  cases found : framesIn frames camera windowStart windowEnd with
  | nil => simp
  | cons frame rest =>
    have nonempty : ((frame :: rest).map tenant).dedup ≠ [] := by
      intro empty
      have member : tenant frame ∈ ((frame :: rest).map tenant).dedup :=
        List.mem_dedup.mpr (List.mem_map_of_mem List.mem_cons_self)
      rw [empty] at member
      cases member
    cases listed : ((frame :: rest).map tenant).dedup with
    | nil => exact absurd listed nonempty
    | cons group groups => cases (group :: groups)[first]? <;> simp

/-- A bucket belongs to one of the tenants of its window. -/
theorem aggregate_group {frames : List Frame} {b : Int} {first : Nat} {bucket : Bucket}
    (made : aggregateFramesIntoBucket frames camera windowStart windowEnd b first = some bucket) :
    ∃ group, (∃ frame ∈ framesIn frames camera windowStart windowEnd, tenant frame = group) ∧
      bucket = { cameraID := camera, siteID := group.1, organizationID := group.2, bucketStart := windowStart,
                 bucketMinutes := b
                 personMinutes := real (((framesIn frames camera windowStart windowEnd).filter
                   fun frame => tenant frame = group).map Frame.personCount).sum / 2
                 peakPersonCount := (((framesIn frames camera windowStart windowEnd).filter
                   fun frame => tenant frame = group).map Frame.personCount).foldl max 0
                 frameCount := ((framesIn frames camera windowStart windowEnd).filter
                   fun frame => tenant frame = group).length } := by
  unfold aggregateFramesIntoBucket at made
  obtain ⟨group, chosen, rfl⟩ := Option.map_eq_some_iff.mp made
  refine ⟨group, ?_, rfl⟩
  have member : group ∈ ((framesIn frames camera windowStart windowEnd).map tenant).dedup := by
    rcases Option.or_eq_some_iff.mp chosen with picked | ⟨_, head⟩
    · exact List.mem_of_getElem? picked
    · exact List.mem_of_mem_head? head
  obtain ⟨frame, held, same⟩ := List.mem_map.mp (List.mem_dedup.mp member)
  exact ⟨frame, held, same⟩

theorem mem_framesIn {frames : List Frame} {frame : Frame} : frame ∈ framesIn frames camera windowStart windowEnd ↔
    frame ∈ frames ∧ frame.cameraID = camera ∧ windowStart ≤ frame.time ∧ frame.time < windowEnd := by
  simp [framesIn]

/-- What a roll-up can do: nothing, or one row under the key of its window. -/
inductive RollUp (a : Aggregator) (env : Env) (s : Store) (camera : UUID) (windowStart windowEnd : Instant)
    (after : Store) : Prop where
  | idle (same : after = s)
      (why : env.aggregated camera windowStart = true → env.upserted camera windowStart = true →
        framesIn s.frames.rows camera windowStart windowEnd = [])
  | rolled (bucket : Bucket)
      (made : aggregateFramesIntoBucket s.frames.rows camera windowStart windowEnd a.bucketMinutes
        (env.first camera windowStart) = some bucket)
      (row : Bucket) (key : row.key = (camera, windowStart, a.bucketMinutes))
      (values : row.personMinutes = bucket.personMinutes ∧ row.peakPersonCount = bucket.peakPersonCount ∧
        row.frameCount = bucket.frameCount)
      (written : after = { s with buckets := s.buckets.put row })

theorem rollupCamera_effect : RollUp a env s camera windowStart windowEnd
    (a.rollupCamera env s camera windowStart windowEnd) := by
  unfold Aggregator.rollupCamera
  cases aggregated : env.aggregated camera windowStart with
  | false => exact .idle rfl (by simp [aggregated])
  | true =>
    cases made : aggregateFramesIntoBucket s.frames.rows camera windowStart windowEnd a.bucketMinutes
        (env.first camera windowStart) with
    | none =>
      refine .idle rfl fun _ _ => ?_
      by_contra some_frames
      have present := (aggregate_isSome a.bucketMinutes (env.first camera windowStart)).mpr some_frames
      rw [made] at present
      cases present
    | some bucket =>
      obtain ⟨group, ⟨frame, held, same⟩, shape⟩ := aggregate_group made
      have owned : bucket.organizationID ≠ "" := by
        rw [shape, ← same]
        exact s.frames.owned frame (mem_framesIn.mp held).1
      have key : bucket.key = (camera, windowStart, a.bucketMinutes) := by rw [shape]; rfl
      cases upserted : env.upserted camera windowStart with
      | false => exact .idle rfl (by simp [upserted])
      | true =>
        simp only [Bool.not_true, Bool.false_eq_true, if_false, upsertTrackBucket, owned]
        split
        · exact .rolled bucket made { bucket with
            violationCount := (env.violations camera windowStart).getD 0
            rolledUpAt := env.now } key ⟨rfl, rfl, rfl⟩ rfl
        · rename_i old _
          exact .rolled bucket made { bucket with
            siteID := old.siteID
            organizationID := old.organizationID
            violationCount := (env.violations camera windowStart).getD 0
            rolledUpAt := env.now } key ⟨rfl, rfl, rfl⟩ rfl

theorem rollupCamera_frames : (a.rollupCamera env s camera windowStart windowEnd).frames = s.frames := by
  cases (rollupCamera_effect : RollUp a env s camera windowStart windowEnd _) with
  | idle same => rw [same]
  | rolled bucket made row key values written => rw [written]

/-- A roll-up adds the bucket of its own window, if any. -/
private theorem hasBucket_rollupCamera {other : UUID} {start : Instant} :
    HasBucket a.bucketMinutes (a.rollupCamera env s camera windowStart windowEnd).buckets other start →
      HasBucket a.bucketMinutes s.buckets other start ∨ (other, start) = (camera, windowStart) := by
  rintro ⟨found, held, same⟩
  cases (rollupCamera_effect : RollUp a env s camera windowStart windowEnd _) with
  | idle kept =>
    rw [kept] at held
    exact .inl ⟨found, held, same⟩
  | rolled bucket made row key values written =>
    rw [written] at held
    rcases Table.mem_put.mp held with rfl | ⟨old, _⟩
    · rw [same] at key
      simp only [Prod.mk.injEq, and_true] at key
      exact .inr (Prod.ext key.1 key.2)
    · exact .inl ⟨found, old, same⟩

/-- No bucket is lost. -/
theorem hasBucket_kept {other : UUID} {start : Instant} (before : HasBucket a.bucketMinutes s.buckets other start) :
    HasBucket a.bucketMinutes (a.rollupCamera env s camera windowStart windowEnd).buckets other start := by
  obtain ⟨found, held, same⟩ := before
  cases (rollupCamera_effect : RollUp a env s camera windowStart windowEnd _) with
  | idle kept =>
    rw [kept]
    exact ⟨found, held, same⟩
  | rolled bucket made row key values written =>
    rw [written]
    by_cases replaced : found.key = row.key
    · exact ⟨row, Table.mem_put.mpr (.inl rfl), replaced ▸ same⟩
    · exact ⟨found, Table.mem_put.mpr (.inr ⟨held, replaced⟩), same⟩

/-- A window with frames has its bucket after its own roll-up. -/
private theorem hasBucket_rolled (fine : NoErrors env) (frames : framesIn s.frames.rows camera windowStart windowEnd ≠ []) :
    HasBucket a.bucketMinutes (a.rollupCamera env s camera windowStart windowEnd).buckets camera windowStart := by
  cases (rollupCamera_effect : RollUp a env s camera windowStart windowEnd _) with
  | idle same why => exact absurd (why (fine.2.1 _ _) (fine.2.2 _ _)) frames
  | rolled bucket made row key values written =>
    rw [written]
    exact ⟨row, Table.mem_put.mpr (.inl rfl), key⟩

end RollUp

section RollAll
variable {a : Aggregator} {env : Env} {length : Int} {s : Store} {camera : UUID} {windowStart : Instant}

private theorem hasBucket_rollAll (pairs : List (UUID × Instant))
    (found : HasBucket a.bucketMinutes (rollAll a env length s pairs).buckets camera windowStart) :
    HasBucket a.bucketMinutes s.buckets camera windowStart ∨ (camera, windowStart) ∈ pairs := by
  induction pairs generalizing s with
  | nil => exact .inl found
  | cons pair rest ih =>
    rcases ih found with now | later
    · rcases hasBucket_rollupCamera now with before | here
      · exact .inl before
      · exact .inr (List.mem_cons.mpr (.inl here))
    · exact .inr (List.mem_cons_of_mem _ later)

theorem hasBucket_rollAll_kept (pairs : List (UUID × Instant))
    (before : HasBucket a.bucketMinutes s.buckets camera windowStart) :
    HasBucket a.bucketMinutes (rollAll a env length s pairs).buckets camera windowStart := by
  induction pairs generalizing s with
  | nil => exact before
  | cons pair rest ih => exact ih (hasBucket_kept before)

theorem hasBucket_rollAll_rolled (fine : NoErrors env) (pairs : List (UUID × Instant))
    (frames : framesIn s.frames.rows camera windowStart (windowStart + length) ≠ []) (member : (camera, windowStart) ∈ pairs) :
    HasBucket a.bucketMinutes (rollAll a env length s pairs).buckets camera windowStart := by
  induction pairs generalizing s with
  | nil => cases member
  | cons pair rest ih =>
    rcases List.mem_cons.mp member with rfl | later
    · exact hasBucket_rollAll_kept rest (hasBucket_rolled fine frames)
    · refine ih ?_ later
      rw [rollupCamera_frames]
      exact frames

end RollAll

/-! ## The backfill -/

section Backfill
variable {a : Aggregator} {env : Env} {s after : Store} {now : Instant} {camera : UUID}

/-- The cameras that the query lists. -/
theorem mem_listed {since before : Instant} {b : Int} : camera ∈ listCamerasWithUnbucketedFrames s since before b ↔
    framesIn s.frames.rows camera since before ≠ [] ∧ ∀ row ∈ s.buckets, row.cameraID = camera → row.bucketMinutes = b →
      ¬ (since ≤ row.bucketStart ∧ row.bucketStart < before) := by
  simp only [listCamerasWithUnbucketedFrames, List.mem_dedup, List.mem_map, List.mem_filter, decide_eq_true_eq]
  constructor
  · rintro ⟨frame, ⟨held, since, before, none_bucketed⟩, rfl⟩
    refine ⟨List.ne_nil_of_mem (mem_framesIn.mpr ⟨held, rfl, since, before⟩), ?_⟩
    intro row member sameCamera sameMinutes inside
    exact none_bucketed ⟨row, member, sameCamera, sameMinutes, inside⟩
  · rintro ⟨some_frames, none_bucketed⟩
    obtain ⟨frame, member⟩ := List.exists_mem_of_ne_nil _ some_frames
    obtain ⟨held, rfl, since, before⟩ := mem_framesIn.mp member
    refine ⟨frame, ⟨held, since, before, ?_⟩, rfl⟩
    rintro ⟨row, bucketed, sameCamera, sameMinutes, inside⟩
    exact none_bucketed row bucketed sameCamera sameMinutes inside

private theorem span_forward (a : Aggregator) (now : Instant) : (a.span now).1 < (a.span now).2 :=
  Int.sub_lt_self _ (by decide)

/-- A backfill that comes to its end rolls up every window of the walk for the cameras it
lists. -/
theorem backfill_pairs (listed : env.listed = true) (ran : a.backfill env s now = some after) :
    ∃ pairs, after = rollAll a env (minutes a.bucketMinutes) s pairs ∧
      (∀ pair ∈ pairs, pair.1 ∈ listCamerasWithUnbucketedFrames s (a.span now).1 (a.span now).2 a.bucketMinutes ∧
        ∃ k : Nat, pair.2 = (a.span now).1 + k * minutes a.bucketMinutes ∧ pair.2 < (a.span now).2) ∧
      ∀ camera ∈ listCamerasWithUnbucketedFrames s (a.span now).1 (a.span now).2 a.bucketMinutes, ∀ k : Nat,
        (a.span now).1 + k * minutes a.bucketMinutes < (a.span now).2 →
          (camera, (a.span now).1 + k * minutes a.bucketMinutes) ∈ pairs := by
  unfold Aggregator.backfill at ran
  rw [listed, Bool.not_true, if_neg Bool.false_ne_true] at ran
  dsimp only at ran
  generalize listCamerasWithUnbucketedFrames s (a.span now).1 (a.span now).2 a.bucketMinutes = cameras at ran ⊢
  split at ran
  · rename_i empty
    cases ran
    exact ⟨[], rfl, nofun, by rw [empty]; nofun⟩
  · obtain ⟨starts, walked, rfl⟩ := Option.map_eq_some_iff.mp ran
    have forward : 0 < minutes a.bucketMinutes := by
      by_contra still
      rw [windowStarts_none (Int.not_lt.mp still) _ _ (span_forward a now)] at walked
      cases walked
    rw [rollAll_nested]
    refine ⟨_, rfl, ?_, fun camera listed k inside => ?_⟩
    · intro pair member
      obtain ⟨ws, reached, held⟩ := List.mem_flatMap.mp member
      obtain ⟨camera, listed, rfl⟩ := List.mem_map.mp held
      exact ⟨listed, windowStarts_reached _ _ starts walked ws reached⟩
    · exact List.mem_flatMap.mpr ⟨_, mem_windowStarts forward _ _ starts walked k inside, List.mem_map_of_mem listed⟩

theorem backfill_ends (forward : 0 < minutes a.bucketMinutes) : ∃ after, a.backfill env s now = some after := by
  unfold Aggregator.backfill
  split
  · exact ⟨s, rfl⟩
  · dsimp only
    split
    · exact ⟨s, rfl⟩
    · obtain ⟨starts, walked⟩ := windowStarts_some forward (day.toNat + 1) (a.span now).1
        (show (a.span now).2 - (a.span now).1 < ((day.toNat + 1 : Nat) : Int) by
          rw [show (a.span now).2 - (a.span now).1 = day from Int.sub_sub_self _ _]
          decide) (Nat.succ_pos _)
      rw [walked]
      exact ⟨_, rfl⟩

/-- One camera: its gaps are closed exactly if it is listed, or had none. -/
theorem cameraClosed_iff (fine : NoErrors env) (ran : a.backfill env s now = some after) :
    CameraClosed a now s.frames.rows after.buckets camera ↔
      NoBuckets a now s.buckets camera ∨ CameraClosed a now s.frames.rows s.buckets camera := by
  obtain ⟨pairs, rfl, listed, walked⟩ := backfill_pairs fine.1 ran
  constructor
  · intro closed
    by_cases fresh : NoBuckets a now s.buckets camera
    · exact .inl fresh
    · refine .inr fun k inside frames => ?_
      rcases hasBucket_rollAll pairs (closed k inside frames) with before | rolled
      · exact before
      · exact absurd (mem_listed.mp (listed _ rolled).1).2 fresh
  · rintro (fresh | closed) k inside frames
    · obtain ⟨frame, member⟩ := List.exists_mem_of_ne_nil _ frames
      obtain ⟨held, same, since, before⟩ := mem_framesIn.mp member
      have forward : 0 < minutes a.bucketMinutes := by
        have between := lt_of_le_of_lt since before
        exact (lt_add_iff_pos_right _).mp between
      have ahead : 0 ≤ k * minutes a.bucketMinutes := Int.mul_nonneg (Int.natCast_nonneg k) forward.le
      have inSpan : framesIn s.frames.rows camera (a.span now).1 (a.span now).2 ≠ [] :=
        List.ne_nil_of_mem (mem_framesIn.mpr ⟨held, same, (le_add_of_nonneg_right ahead).trans since, before.trans_le inside⟩)
      have reached := walked camera (mem_listed.mpr ⟨inSpan, fresh⟩)
      exact hasBucket_rollAll_rolled fine pairs frames (reached k ((lt_add_of_pos_right _ forward).trans_le inside))
    · exact hasBucket_rollAll_kept pairs (closed k inside frames)

end Backfill

/-- The backfill comes to its end for every bucket length that goes forward, and one without
database errors closes the gaps of every camera exactly if each camera either has no bucket of
this granularity in the last day, or has no gap there. -/
theorem gaps_closed_iff (a : Aggregator) (env : Env) (s : Store) (now : Instant) (fine : NoErrors env) :
    (0 < minutes a.bucketMinutes → ∃ after, a.backfill env s now = some after) ∧
    ∀ after, a.backfill env s now = some after →
      ((∀ camera, CameraClosed a now s.frames.rows after.buckets camera) ↔
        ∀ camera, NoBuckets a now s.buckets camera ∨ CameraClosed a now s.frames.rows s.buckets camera) :=
  ⟨backfill_ends, fun _ ran => forall_congr' fun _ => cameraClosed_iff fine ran⟩

/-! ## A camera seen in two windows -/

private def gate : UUID := ⟨1⟩

/-- One person at 00:11 and at 00:21. -/
private def seen : Frames where
  rows := [⟨11 * minute, gate, some "S", "org", 1, "ppe_worker"⟩, ⟨21 * minute, gate, some "S", "org", 1, "ppe_worker"⟩]
  owned := by decide

private def fiveMinutes : Aggregator := newAggregator 5

/-- The next day at 00:10. -/
private def nextDay : Instant := day + 10 * minute

/-- Neither of the two windows has a bucket. -/
theorem unbucketed_camera_closed : ∃ after, fiveMinutes.backfill {} ⟨seen, .empty⟩ nextDay = some after ∧
    ∀ camera, CameraClosed fiveMinutes nextDay seen.rows after.buckets camera := by
  obtain ⟨ends, closed⟩ := gaps_closed_iff fiveMinutes {} ⟨seen, .empty⟩ nextDay ⟨rfl, fun _ _ => rfl, fun _ _ => rfl⟩
  obtain ⟨after, ran⟩ := ends (by decide)
  exact ⟨after, ran, (closed after ran).mpr fun camera => .inl fun row held => absurd held List.not_mem_nil⟩

/-- The first of the two windows was rolled up before the worker went down. -/
private def interrupted : Store where
  frames := seen
  buckets := ⟨[⟨gate, some "S", "org", 10 * minute, 5, 1 / 2, 1, 1, 0, 0⟩], List.nodup_singleton _⟩

/-- The second one is never rolled up. -/
theorem partly_bucketed_gap_stays : ∃ after, fiveMinutes.backfill {} interrupted nextDay = some after ∧
    ¬ ∀ camera, CameraClosed fiveMinutes nextDay interrupted.frames.rows after.buckets camera := by
  have unlisted : listCamerasWithUnbucketedFrames interrupted (fiveMinutes.span nextDay).1 (fiveMinutes.span nextDay).2
      fiveMinutes.bucketMinutes = [] := by
    decide +kernel
  refine ⟨interrupted, by simp [Aggregator.backfill, unlisted], fun closed => ?_⟩
  obtain ⟨row, held, key⟩ := closed gate 2 (by decide) (by decide +kernel)
  obtain rfl := List.mem_singleton.mp held
  exact absurd key (by decide)

end Ironsight.TrackingBackfill
