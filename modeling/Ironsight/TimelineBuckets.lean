import Mathlib.Data.List.Dedup
import Ironsight.EventQuery

/-! The timeline of the scrubber. The statement counts events by interval and type, and the rows
are put together by interval in a map, which is then walked in whatever order. -/
namespace Ironsight.TimelineBuckets
open Tables Uuid Access
open EventQuery (EventRow)
open Manifests (timestamptz inTimestamps)

structure TimelineBucket where
  bucketTime : Instant
  counts : List (String × Nat)
  total : Nat
  deriving DecidableEq

/-- A row of the statement. -/
structure BucketRow where
  bucket : Instant
  eventType : String
  count : Nat
  deriving DecidableEq

/-- How the statement meets rows of one bucket, and the walk over the map. -/
structure Env where
  rows : Scan BucketRow
  walk : Scan TimelineBucket

/-! ## The statement -/

/-- `intervalMinutes * 60` in 64 bits. -/
def intervalSecs (intervalMinutes : Int) : Int := (intervalMinutes * 60).bmod (2 ^ 64)

/-- `floor(extract(epoch FROM event_time) / secs) * secs`. -/
def bucketSeconds (secs : Int) (eventTime : Instant) : Int := eventTime.fdiv (1000000000 * secs) * secs

/-- The start of the bucket that a time is in. -/
def bucketOf (secs : Int) (eventTime : Instant) : Instant := bucketSeconds secs eventTime * 1000000000

/-- The events of the cameras in the range. -/
def selected (events : List EventRow) (cameraIDs : List UUID) (start stop : Instant) : List EventRow :=
  events.filter fun event => timestamptz start ≤ event.eventTime ∧ event.eventTime ≤ timestamptz stop ∧ event.cameraID ∈ cameraIDs

/-- `GROUP BY bucket, event_type`. -/
def group (secs : Int) (event : EventRow) : Instant × String := (bucketOf secs event.eventTime, event.eventType)

def countedRows (env : Env) (secs : Int) (events : List EventRow) : List BucketRow :=
  (env.rows.arrange ((events.map (group secs)).dedup.map fun key => ⟨key.1, key.2, events.countP fun event => group secs event = key⟩)).insertionSort
    fun first second => first.bucket ≤ second.bucket

/-! ## The map -/

/-- `b.Counts[eventType] = count; b.Total += count`. -/
def TimelineBucket.put (bucket : TimelineBucket) (row : BucketRow) : TimelineBucket :=
  { bucket with
    counts := bucket.counts.filter (fun entry => entry.1 ≠ row.eventType) ++ [(row.eventType, row.count)]
    total := bucket.total + row.count }

/-- One turn of the loop over the rows. -/
def aggregate (buckets : List TimelineBucket) (row : BucketRow) : List TimelineBucket :=
  if row.bucket ∈ buckets.map TimelineBucket.bucketTime then
    buckets.map fun bucket => if bucket.bucketTime = row.bucket then bucket.put row else bucket
  else buckets ++ [⟨row.bucket, [(row.eventType, row.count)], row.count⟩]

def bucketMap (env : Env) (secs : Int) (events : List EventRow) : List TimelineBucket := (countedRows env secs events).foldl aggregate []

/-- `GetTimelineBuckets`, in the order in which the map is walked. -/
def getTimelineBuckets (env : Env) (events : List EventRow) (cameraIDs : List UUID) (start stop : Instant) (intervalMinutes : Int) :
    Except String (List TimelineBucket) :=
  if cameraIDs = [] then .ok []
  else if 65535 < cameraIDs.length + 2 then .error "extended protocol limited to 65535 parameters"
  else
    let secs := intervalSecs intervalMinutes
    let found := selected events cameraIDs start stop
    if found ≠ [] ∧ secs = 0 then .error "ERROR: division by zero (SQLSTATE 22012)"
    else if found.any (fun event => !inTimestamps (bucketSeconds secs event.eventTime)) then
      .error "ERROR: timestamp out of range (SQLSTATE 22008)"
    else .ok (env.walk.arrange (bucketMap env secs found))

/-! ## What the map holds -/

section Map
variable {env : Env} {secs : Int} {events : List EventRow} {done rows : List BucketRow} {row : BucketRow} {buckets : List TimelineBucket}
  {bucket : TimelineBucket}

/-- The counts of a bucket's rows. -/
def entriesAt (t : Instant) (rows : List BucketRow) : List (String × Nat) :=
  (rows.filter fun row => row.bucket = t).map fun row => (row.eventType, row.count)

private theorem entriesAt_own (row : BucketRow) (done : List BucketRow) :
    entriesAt row.bucket (done ++ [row]) = entriesAt row.bucket done ++ [(row.eventType, row.count)] := by
  simp [entriesAt]

private theorem entriesAt_other {t : Instant} (apart : row.bucket ≠ t) :
    entriesAt t (done ++ [row]) = entriesAt t done := by
  simp [entriesAt, apart]

/-- The buckets of the rows that are done, each with its rows. -/
structure Grouped (done : List BucketRow) (buckets : List TimelineBucket) : Prop where
  times : (buckets.map TimelineBucket.bucketTime).Nodup
  mem : ∀ t, t ∈ buckets.map TimelineBucket.bucketTime ↔ t ∈ done.map BucketRow.bucket
  counts : ∀ bucket ∈ buckets, bucket.counts = entriesAt bucket.bucketTime done
  total : ∀ bucket ∈ buckets, bucket.total = (bucket.counts.map Prod.snd).sum

private theorem put_counts (fresh : row.eventType ∉ bucket.counts.map Prod.fst) :
    (bucket.put row).counts = bucket.counts ++ [(row.eventType, row.count)] := by
  have kept : bucket.counts.filter (fun entry => entry.1 ≠ row.eventType) = bucket.counts :=
    List.filter_eq_self.mpr fun entry held => decide_eq_true fun same => fresh (same ▸ List.mem_map_of_mem held)
  rw [TimelineBucket.put, kept]

private theorem aggregate_times (present : row.bucket ∈ buckets.map TimelineBucket.bucketTime) :
    (aggregate buckets row).map TimelineBucket.bucketTime = buckets.map TimelineBucket.bucketTime := by
  rw [aggregate, if_pos present, List.map_map]
  refine List.map_congr_left fun bucket _ => ?_
  simp only [Function.comp_apply]
  split_ifs <;> rfl

private theorem Grouped.aggregate (grouped : Grouped done buckets)
    (fresh : (row.bucket, row.eventType) ∉ done.map fun row => (row.bucket, row.eventType)) :
    Grouped (done ++ [row]) (aggregate buckets row) := by
  have entries (bucket : TimelineBucket) (own : bucket.bucketTime = row.bucket) (held : bucket ∈ buckets) :
      row.eventType ∉ bucket.counts.map Prod.fst := by
    intro counted
    rw [grouped.counts bucket held, entriesAt, List.map_map] at counted
    obtain ⟨other, member, same⟩ := List.mem_map.mp counted
    obtain ⟨member, within⟩ := List.mem_filter.mp member
    exact fresh (List.mem_map.mpr ⟨other, member, Prod.ext ((of_decide_eq_true within).trans own) same⟩)
  by_cases present : row.bucket ∈ buckets.map TimelineBucket.bucketTime
  · have turned : TimelineBuckets.aggregate buckets row =
        buckets.map fun bucket => if bucket.bucketTime = row.bucket then bucket.put row else bucket := if_pos present
    refine ⟨?_, fun t => ?_, fun bucket held => ?_, fun bucket held => ?_⟩
    · rw [aggregate_times present]
      exact grouped.times
    · rw [aggregate_times present, grouped.mem, List.map_append, List.mem_append, List.map_singleton, List.mem_singleton]
      exact ⟨.inl, fun held => held.elim id fun same => same ▸ (grouped.mem _).mp present⟩
    · rw [turned] at held
      obtain ⟨before, member, rfl⟩ := List.mem_map.mp held
      split_ifs with own
      · have time : (before.put row).bucketTime = row.bucket := own
        rw [put_counts (entries before own member), grouped.counts before member, time, own, entriesAt_own]
      · rw [grouped.counts before member, entriesAt_other fun same => own same.symm]
    · rw [turned] at held
      obtain ⟨before, member, rfl⟩ := List.mem_map.mp held
      split_ifs with own
      · rw [put_counts (entries before own member), List.map_append, List.sum_append, ← grouped.total before member]
        simp [TimelineBucket.put]
      · exact grouped.total before member
  · have turned : TimelineBuckets.aggregate buckets row = buckets ++ [⟨row.bucket, [(row.eventType, row.count)], row.count⟩] :=
      if_neg present
    rw [turned]
    refine ⟨?_, fun t => ?_, fun bucket held => ?_, fun bucket held => ?_⟩
    · rw [List.map_append, List.map_singleton]
      exact List.nodup_append_comm.mp (List.nodup_cons.mpr ⟨present, grouped.times⟩)
    · rw [List.map_append, List.map_append, List.mem_append, List.mem_append, grouped.mem]
      rfl
    · rcases List.mem_append.mp held with held | held
      · rw [grouped.counts bucket held, entriesAt_other fun same => present (same ▸ List.mem_map_of_mem held)]
      · obtain rfl := List.mem_singleton.mp held
        have none_ : done.filter (fun other => other.bucket = row.bucket) = [] :=
          List.filter_eq_nil_iff.mpr fun other held same =>
            present ((grouped.mem _).mpr (List.mem_map.mpr ⟨other, held, of_decide_eq_true same⟩))
        rw [entriesAt_own, entriesAt, none_]
        rfl
    · rcases List.mem_append.mp held with held | held
      · exact grouped.total bucket held
      · obtain rfl := List.mem_singleton.mp held
        simp

private theorem Grouped.foldl (grouped : Grouped done buckets) (distinct : ((done ++ rows).map fun row => (row.bucket, row.eventType)).Nodup) :
    Grouped (done ++ rows) (rows.foldl TimelineBuckets.aggregate buckets) := by
  induction rows generalizing done buckets with
  | nil =>
    rw [List.append_nil]
    exact grouped
  | cons row rows ih =>
    rw [List.map_append, List.map_cons] at distinct
    have fresh := (List.nodup_append.mp distinct).2.2
    have next := grouped.aggregate fun held => fresh _ held _ List.mem_cons_self rfl
    rw [List.foldl_cons, List.append_cons]
    refine ih next ?_
    rw [List.append_assoc, List.singleton_append, List.map_append, List.map_cons]
    exact distinct

private theorem countedRows_perm : (countedRows env secs events).Perm
    ((events.map (group secs)).dedup.map fun key => ⟨key.1, key.2, events.countP fun event => group secs event = key⟩) :=
  (List.perm_insertionSort _ _).trans (env.rows.perm _)

/-- A row counts the events of its bucket and type. -/
private theorem mem_countedRows :
    row ∈ countedRows env secs events ↔ (row.bucket, row.eventType) ∈ events.map (group secs) ∧
    row.count = events.countP fun event => group secs event = (row.bucket, row.eventType) := by
  rw [countedRows_perm.mem_iff, List.mem_map]
  constructor
  · rintro ⟨key, held, rfl⟩
    exact ⟨List.mem_dedup.mp held, rfl⟩
  · rintro ⟨held, counted⟩
    refine ⟨(row.bucket, row.eventType), List.mem_dedup.mpr held, ?_⟩
    cases row
    simp only [BucketRow.mk.injEq, true_and]
    exact counted.symm

private theorem bucketMap_grouped : Grouped (countedRows env secs events) (bucketMap env secs events) := by
  have start : Grouped [] [] := ⟨List.nodup_nil, fun t => Iff.rfl, nofun, nofun⟩
  have distinct : ((countedRows env secs events).map fun row => (row.bucket, row.eventType)).Nodup := by
    rw [(countedRows_perm.map _).nodup_iff, List.map_map]
    exact (List.nodup_dedup (events.map (group secs))).map fun _ _ same => same
  exact start.foldl distinct

private theorem mem_bucketMap_times (env : Env) {t : Instant} :
    t ∈ (bucketMap env secs events).map TimelineBucket.bucketTime ↔
    ∃ event ∈ events, bucketOf secs event.eventTime = t := by
  rw [bucketMap_grouped.mem, List.mem_map]
  constructor
  · rintro ⟨row, held, rfl⟩
    obtain ⟨event, member, same⟩ := List.mem_map.mp (mem_countedRows.mp held).1
    exact ⟨event, member, congrArg Prod.fst same⟩
  · rintro ⟨event, member, rfl⟩
    exact ⟨⟨bucketOf secs event.eventTime, event.eventType, events.countP fun other => group secs other = group secs event⟩,
      mem_countedRows.mpr ⟨List.mem_map_of_mem member, rfl⟩, rfl⟩

/-- A bucket's count of a type is that of its events. -/
private theorem lookup_counts (held : bucket ∈ bucketMap env secs events) (type : String) :
    (bucket.counts.lookup type).getD 0 =
    events.countP fun event => group secs event = (bucket.bucketTime, type) := by
  have entries : ∀ entry ∈ bucket.counts, entry.2 = events.countP (fun event => group secs event = (bucket.bucketTime, entry.1)) ∧
      (bucket.bucketTime, entry.1) ∈ events.map (group secs) := by
    intro entry member
    rw [bucketMap_grouped.counts bucket held, entriesAt] at member
    obtain ⟨row, kept, rfl⟩ := List.mem_map.mp member
    obtain ⟨delivered, own⟩ := List.mem_filter.mp kept
    obtain ⟨present, counted⟩ := mem_countedRows.mp delivered
    rw [of_decide_eq_true own] at present counted
    exact ⟨counted, present⟩
  cases found : bucket.counts.lookup type with
  | some count =>
    obtain ⟨before, after, split, _⟩ := List.lookup_eq_some_iff.mp found
    exact (entries (type, count) (split ▸ List.mem_append_right _ List.mem_cons_self)).1
  | none =>
    symm
    refine List.countP_eq_zero.mpr fun event member same => ?_
    have own : group secs event = (bucket.bucketTime, type) := of_decide_eq_true same
    have row : ⟨bucket.bucketTime, type, events.countP fun event => group secs event = (bucket.bucketTime, type)⟩ ∈ countedRows env secs events :=
      mem_countedRows.mpr ⟨List.mem_map.mpr ⟨event, member, own⟩, rfl⟩
    have entry : (type, events.countP fun event => group secs event = (bucket.bucketTime, type)) ∈ bucket.counts := by
      rw [bucketMap_grouped.counts bucket held]
      exact List.mem_map.mpr ⟨_, List.mem_filter.mpr ⟨row, decide_eq_true rfl⟩, rfl⟩
    exact absurd (List.lookup_eq_none_iff.mp found _ entry) (by simp)

end Map

/-! ## Partitions -/

/-- The event is of the interval that starts with the bucket. -/
def TimelineBucket.Holds (bucket : TimelineBucket) (intervalMinutes : Int) (event : EventRow) : Prop :=
  bucket.bucketTime ≤ event.eventTime ∧ event.eventTime < bucket.bucketTime + intervalMinutes * 60 * 1000000000

instance (bucket : TimelineBucket) (intervalMinutes : Int) (event : EventRow) : Decidable (bucket.Holds intervalMinutes event) :=
  inferInstanceAs (Decidable (_ ∧ _))

/-- The buckets come in order, each event is held by one of them, and each counts what it holds. -/
structure Partitions (events : List EventRow) (intervalMinutes : Int) (buckets : List TimelineBucket) : Prop where
  increasing : buckets.Pairwise fun first second => first.bucketTime < second.bucketTime
  placed : ∀ event ∈ events, ∃ bucket ∈ buckets, bucket.Holds intervalMinutes event ∧
    ∀ other ∈ buckets, other.Holds intervalMinutes event → other = bucket
  counted : ∀ bucket ∈ buckets, ∀ type, (bucket.counts.lookup type).getD 0 =
    events.countP fun event => event.eventType = type ∧ bucket.Holds intervalMinutes event
  total : ∀ bucket ∈ buckets, bucket.total = (bucket.counts.map Prod.snd).sum

section Partitions
variable {env : Env} {secs intervalMinutes : Int} {events : List EventRow} {buckets : List TimelineBucket} {bucket : TimelineBucket}

/-- Where all events are of one bucket, the map has no other. -/
private theorem bucketMap_single (env : Env) {b : Instant} (some_ : events ≠ []) (one : ∀ event ∈ events, bucketOf secs event.eventTime = b) :
    ∃ bucket, bucketMap env secs events = [bucket] ∧ bucket.bucketTime = b := by
  have times : (bucketMap env secs events).map TimelineBucket.bucketTime = [b] := by
    refine List.perm_singleton.mp ((List.perm_ext_iff_of_nodup bucketMap_grouped.times (List.nodup_singleton b)).mpr fun t => ?_)
    rw [mem_bucketMap_times env, List.mem_singleton]
    constructor
    · rintro ⟨event, held, rfl⟩
      exact one event held
    · rintro rfl
      obtain ⟨event, held⟩ := List.exists_mem_of_ne_nil events some_
      exact ⟨event, held, one event held⟩
  obtain ⟨bucket, single, time⟩ := List.map_eq_singleton_iff.mp times
  exact ⟨bucket, single, time⟩

/-- The remainder of a negative divisor is negative. -/
private theorem fmod_le (t : Int) {d n : Int} (nonzero : d ≠ 0) (less : d ≤ n) (positive : 0 < n) : t.fmod d < n := by
  rcases lt_or_gt_of_ne nonzero with negative | larger
  · have low := Int.emod_lt_of_neg t negative
    rw [Int.fmod_eq_emod]
    split_ifs with exact_
    · rcases exact_ with positive | divides
      · omega
      · rw [Int.emod_eq_zero_of_dvd divides]
        omega
    · omega
  · exact (Int.fmod_lt_of_pos t larger).trans_le less

/-- An event is before the end of its bucket, also where the seconds of the interval wrap around. -/
private theorem lt_end (t : Int) (positive : 0 < intervalMinutes) (nonzero : intervalSecs intervalMinutes ≠ 0) :
    t < bucketOf (intervalSecs intervalMinutes) t + intervalMinutes * 60 * 1000000000 := by
  have small : intervalSecs intervalMinutes ≤ intervalMinutes * 60 := by
    rw [intervalSecs]
    by_cases fits : intervalMinutes * 60 < 2 ^ 63
    · rw [Int.bmod_eq_of_le (by omega) (by omega)]
    · have bound : (intervalMinutes * 60).bmod (2 ^ 64) < (2 ^ 64 + 1) / 2 := Int.bmod_lt (by decide)
      omega
  generalize intervalSecs intervalMinutes = secs at nonzero small ⊢
  have whole : bucketOf secs t = t - t.fmod (1000000000 * secs) := by
    rw [← Int.fdiv_mul_self, bucketOf, bucketSeconds, Int.mul_assoc, Int.mul_comm secs]
  have rest : t.fmod (1000000000 * secs) < intervalMinutes * 60 * 1000000000 := fmod_le t (by omega) (by omega) (by omega)
  rw [whole]
  omega

/-- What one order of the map is by itself, both ways round, has no two buckets. -/
private theorem single_of_both {l : List TimelineBucket} (forth : l.Pairwise fun first second => first.bucketTime < second.bucketTime)
    (back : l.reverse.Pairwise fun first second => first.bucketTime < second.bucketTime) {first second : TimelineBucket}
    (held : first ∈ l) (held' : second ∈ l) : first = second := by
  have never : l.Pairwise fun _ _ => False :=
    (forth.and (List.pairwise_reverse.mp back)).imp fun ⟨less, more⟩ => lt_asymm less more
  match l, never, held, held' with
  | [one], _, held, held' => exact (List.mem_singleton.mp held).trans (List.mem_singleton.mp held').symm
  | _ :: _ :: _, never, _, _ => exact ((List.pairwise_cons.mp never).1 _ List.mem_cons_self).elim

/-- What an answer says of the arguments. -/
private theorem getTimelineBuckets_ok {cameraIDs : List UUID} {start stop : Instant} (some_ : cameraIDs ≠ []) :
    getTimelineBuckets env events cameraIDs start stop intervalMinutes = .ok buckets ↔
      (cameraIDs.length + 2 ≤ 65535 ∧ ∀ event ∈ selected events cameraIDs start stop, intervalSecs intervalMinutes ≠ 0 ∧
        inTimestamps (bucketSeconds (intervalSecs intervalMinutes) event.eventTime) = true) ∧
      env.walk.arrange (bucketMap env (intervalSecs intervalMinutes) (selected events cameraIDs start stop)) = buckets := by
  rw [getTimelineBuckets, if_neg some_]
  dsimp only
  generalize selected events cameraIDs start stop = found
  by_cases fits : cameraIDs.length + 2 ≤ 65535
  · rw [if_neg (not_lt.mpr fits), and_iff_right fits]
    by_cases divides : found ≠ [] ∧ intervalSecs intervalMinutes = 0
    · rw [if_pos divides]
      obtain ⟨event, held⟩ := List.exists_mem_of_ne_nil found divides.1
      exact iff_of_false nofun fun answer => (answer.1 event held).1 divides.2
    · rw [if_neg divides]
      by_cases outside : (found.any fun event => !inTimestamps (bucketSeconds (intervalSecs intervalMinutes) event.eventTime)) = true
      · rw [if_pos outside]
        obtain ⟨event, held, out⟩ := List.any_eq_true.mp outside
        refine iff_of_false nofun fun answer => ?_
        rw [(answer.1 event held).2] at out
        cases out
      · have inside : ∀ event ∈ found, intervalSecs intervalMinutes ≠ 0 ∧
            inTimestamps (bucketSeconds (intervalSecs intervalMinutes) event.eventTime) = true := by
          intro event held
          refine ⟨fun zero => divides ⟨List.ne_nil_of_mem held, zero⟩, ?_⟩
          by_contra out
          exact outside (List.any_eq_true.mpr ⟨event, held, by simpa using out⟩)
        rw [if_neg outside, and_iff_right inside, Except.ok.injEq]
  · rw [if_pos (not_le.mp fits)]
    exact iff_of_false nofun fun answer => fits answer.1.1

private theorem partitions_single {b : Instant} (positive : 0 < intervalMinutes) (nonzero : intervalSecs intervalMinutes ≠ 0)
    (some_ : events ≠ []) (one : ∀ event ∈ events, bucketOf (intervalSecs intervalMinutes) event.eventTime = b ∧ b ≤ event.eventTime) :
    Partitions events intervalMinutes (env.walk.arrange (bucketMap env (intervalSecs intervalMinutes) events)) := by
  obtain ⟨bucket, single, time⟩ := bucketMap_single env some_ fun event held => (one event held).1
  have listed : bucket ∈ bucketMap env (intervalSecs intervalMinutes) events := single ▸ List.mem_cons_self
  have holds : ∀ event ∈ events, bucket.Holds intervalMinutes event := by
    intro event held
    have before := lt_end event.eventTime positive nonzero
    rw [(one event held).1, ← time] at before
    exact ⟨time.trans_le (one event held).2, before⟩
  have walked : env.walk.arrange (bucketMap env (intervalSecs intervalMinutes) events) = [bucket] := by
    rw [single]
    exact List.perm_singleton.mp (env.walk.perm [bucket])
  rw [walked]
  refine ⟨List.pairwise_singleton _ _, fun event held => ⟨bucket, List.mem_cons_self, holds event held, ?_⟩, ?_, ?_⟩
  · exact fun other only _ => List.mem_singleton.mp only
  · intro other only type
    obtain rfl := List.mem_singleton.mp only
    rw [lookup_counts listed]
    refine List.countP_congr fun event held => ?_
    rw [decide_eq_true_iff, decide_eq_true_iff, group, (one event held).1, time, Prod.mk.injEq]
    exact ⟨fun same => ⟨same.2, holds event held⟩, fun same => ⟨rfl, same.1⟩⟩
  · intro other only
    obtain rfl := List.mem_singleton.mp only
    exact bucketMap_grouped.total _ listed

/-- A partition in every order of the map has one bucket, which starts before its events. -/
private theorem of_partitions (rows : Scan BucketRow) (always : ∀ walk : Scan TimelineBucket,
      Partitions events intervalMinutes (walk.arrange (bucketMap ⟨rows, walk⟩ secs events))) :
    ∀ event ∈ events, bucketOf secs event.eventTime ≤ event.eventTime ∧
      ∀ other ∈ events, bucketOf secs other.eventTime = bucketOf secs event.eventTime := by
  have forth := always ⟨id, fun _ => .refl _⟩
  have back := always ⟨List.reverse, List.reverse_perm⟩
  have same {first second : TimelineBucket} (held : first ∈ bucketMap ⟨rows, ⟨id, fun _ => .refl _⟩⟩ secs events)
      (held' : second ∈ bucketMap ⟨rows, ⟨id, fun _ => .refl _⟩⟩ secs events) : first = second :=
    single_of_both forth.increasing back.increasing held held'
  intro event held
  obtain ⟨own, listed, time⟩ := List.mem_map.mp ((mem_bucketMap_times ⟨rows, ⟨id, fun _ => .refl _⟩⟩).mpr ⟨event, held, rfl⟩)
  refine ⟨?_, fun other held' => ?_⟩
  · obtain ⟨bucket, listed', holds, _⟩ := forth.placed event held
    rw [← time, same listed listed']
    exact holds.1
  · obtain ⟨bucket, listed', time'⟩ := List.mem_map.mp
      ((mem_bucketMap_times ⟨rows, ⟨id, fun _ => .refl _⟩⟩).mpr ⟨other, held', rfl⟩)
    rw [← time, ← time', same listed listed']

end Partitions

/-- The buckets partition the events, whatever the order of the map, exactly if the arguments fit
into a statement and all events are of one bucket that can be computed and does not start after them. -/
theorem buckets_partition_iff (events : List EventRow) (cameraIDs : List UUID) (start stop : Instant) (intervalMinutes : Int)
    (some_ : cameraIDs ≠ []) (positive : 0 < intervalMinutes) :
    (∀ env, ∃ buckets, getTimelineBuckets env events cameraIDs start stop intervalMinutes = .ok buckets ∧
        Partitions (selected events cameraIDs start stop) intervalMinutes buckets) ↔
      cameraIDs.length + 2 ≤ 65535 ∧ ∀ event ∈ selected events cameraIDs start stop,
        intervalSecs intervalMinutes ≠ 0 ∧ inTimestamps (bucketSeconds (intervalSecs intervalMinutes) event.eventTime) = true ∧
          bucketOf (intervalSecs intervalMinutes) event.eventTime ≤ event.eventTime ∧
            ∀ other ∈ selected events cameraIDs start stop,
              bucketOf (intervalSecs intervalMinutes) other.eventTime = bucketOf (intervalSecs intervalMinutes) event.eventTime := by
  simp only [getTimelineBuckets_ok some_, and_assoc, exists_and_left, exists_eq_left']
  generalize selected events cameraIDs start stop = found
  constructor
  · intro always
    obtain ⟨fits, evaluable, _⟩ := always ⟨⟨id, fun _ => .refl _⟩, ⟨id, fun _ => .refl _⟩⟩
    have one := of_partitions ⟨id, fun _ => .refl _⟩ fun walk => (always ⟨⟨id, fun _ => .refl _⟩, walk⟩).2.2
    exact ⟨fits, fun event held => ⟨(evaluable event held).1, (evaluable event held).2, one event held⟩⟩
  · rintro ⟨fits, one⟩ env
    refine ⟨fits, fun event held => ⟨(one event held).1, (one event held).2.1⟩, ?_⟩
    by_cases none_ : found = []
    · subst none_
      have empty : env.walk.arrange (bucketMap env (intervalSecs intervalMinutes) []) = [] := by
        have rows : countedRows env (intervalSecs intervalMinutes) [] = [] := List.perm_nil.mp countedRows_perm
        rw [bucketMap, rows]
        exact List.perm_nil.mp (env.walk.perm [])
      rw [empty]
      exact ⟨.nil, by rintro _ ⟨⟩, by rintro _ ⟨⟩, by rintro _ ⟨⟩⟩
    · obtain ⟨event, held⟩ := List.exists_mem_of_ne_nil found none_
      obtain ⟨nonzero, _, _, same⟩ := one event held
      exact partitions_single positive nonzero none_ fun other held' =>
        ⟨same other held', (same other held').symm.trans_le (one other held').2.2.1⟩

private def passing (id : Int) (at_ : Instant) : EventRow := ⟨id, ⟨10⟩, at_, "motion", none, none, none⟩

private def asMet : Env := ⟨⟨id, fun _ => .refl _⟩, ⟨id, fun _ => .refl _⟩⟩

private def turnedRound : Env := ⟨⟨id, fun _ => .refl _⟩, ⟨List.reverse, List.reverse_perm⟩⟩

/-- Two events of the same hour. -/
theorem one_hour_partitioned : ∃ buckets,
    getTimelineBuckets asMet [passing 7 1750000000000000000, passing 8 1750000100000000000] [⟨10⟩] 1749990000000000000 1750010000000000000 60 =
      .ok buckets ∧ Partitions (selected [passing 7 1750000000000000000, passing 8 1750000100000000000] [⟨10⟩] 1749990000000000000
        1750010000000000000) 60 buckets :=
  (buckets_partition_iff [passing 7 1750000000000000000, passing 8 1750000100000000000] [⟨10⟩] 1749990000000000000 1750010000000000000 60
    (by decide) (by decide)).mpr ⟨by decide, by decide +kernel⟩ asMet

/-- Two events a minute apart, and a map that is walked the other way round. -/
theorem later_minute_first :
    getTimelineBuckets turnedRound [passing 7 1750000000000000000, passing 8 1750000060000000000] [⟨10⟩] 1749990000000000000
        1750010000000000000 1 =
      .ok [⟨1750000020000000000, [("motion", 1)], 1⟩, ⟨1749999960000000000, [("motion", 1)], 1⟩] ∧
    ¬ Partitions (selected [passing 7 1750000000000000000, passing 8 1750000060000000000] [⟨10⟩] 1749990000000000000 1750010000000000000) 1
      [⟨1750000020000000000, [("motion", 1)], 1⟩, ⟨1749999960000000000, [("motion", 1)], 1⟩] :=
  ⟨by decide +kernel, fun partition => absurd partition.increasing (by decide)⟩

end Ironsight.TimelineBuckets
