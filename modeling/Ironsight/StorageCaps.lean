import Mathlib.Data.List.Flatten
import Mathlib.Data.List.Pairwise
import Ironsight.Codes
import Ironsight.PruneLoops
import Ironsight.Runs

/-! Storage caps. The loop counts the bytes that went from the disk, transcodes
included, against a usage that was summed from the rows, so it may stop while the
rows that are left still exceed the cap. -/
namespace Ironsight.Retention
open Tables Paths Runs

/-- The location is in use and has a cap. -/
def StorageLocation.Capped (loc : StorageLocation) : Prop := loc.enabled = true ∧ 0 < loc.maxGB

/-- The rows under the location add up to no more than its cap, or there are none. -/
def StorageLocation.CapMet (loc : StorageLocation) (segments : Segments) : Prop :=
  (getStorageUsageByPath (forwardSlashes loc.path) segments : Int) ≤ loc.maxBytes ∨
    sortedUnder (forwardSlashes loc.path) segments = []

/-- What a batch holds on the disk, and at least what its rows record. -/
def weight (disk : Disk) (batch : List Segment) : Nat :=
  max (batch.map fun segment => disk.bytes segment.filePath).sum (recorded batch)

/-- The weight of the first batches of fifty. -/
def footprint (disk : Disk) (k : Nat) (oldest : List Segment) : Nat :=
  ((List.range k).map fun round => weight disk ((oldest.drop (50 * round)).take 50)).sum

/-- Whenever the oldest batches of a location, but not all, hold as much on the disk as it
is over its cap, their rows record as much, too. -/
def StorageLocation.Covered (loc : StorageLocation) (world : World) : Prop :=
  let oldest := sortedUnder (forwardSlashes loc.path) world.segments
  ∀ k, 50 * k < oldest.length →
    (recorded oldest : Int) - loc.maxBytes ≤ footprint world.disk k oldest →
    (recorded oldest : Int) - loc.maxBytes ≤ recorded (oldest.take (50 * k))

/-- No two of the segments share a file or a transcode. -/
def MediaApart (segments : List Segment) : Prop := (segments.flatMap fun segment => media segment.filePath).Nodup

instance (segments : List Segment) : Decidable (MediaApart segments) := inferInstanceAs (Decidable (List.Nodup _))

theorem MediaApart.sublist {segments fewer : List Segment} (apart : MediaApart segments) (part : fewer.Sublist segments) :
    MediaApart fewer :=
  List.Nodup.sublist (part.flatMap _) apart

theorem MediaApart.disjoint {segments : List Segment} (apart : MediaApart segments) (k : Nat) {segment : Segment}
    {place : Place} (later : segment ∈ segments.drop k) (held : place ∈ media segment.filePath) :
    place ∉ (segments.take k).flatMap fun segment => media segment.filePath := by
  rw [MediaApart, ← List.take_append_drop k segments, List.flatMap_append, List.nodup_append'] at apart
  intro touched
  exact apart.2.2 touched (List.mem_flatMap.mpr ⟨segment, later, held⟩)

theorem footprint_succ (disk : Disk) (k : Nat) (oldest : List Segment) :
    footprint disk (k + 1) oldest = footprint disk k oldest + weight disk ((oldest.drop (50 * k)).take 50) := by
  simp [footprint, List.range_succ]

/-! ## One location -/

private theorem recorded_perm {first second : List Segment} (perm : first.Perm second) :
    recorded first = recorded second :=
  (perm.map _).sum_eq

section Turn
variable {env : Env} {fuel : Nat} {loc : StorageLocation} {before after : Pass}

/-- The loop has deleted whole batches, and has counted no more than they hold. -/
private structure Progress (pathPrefix : String) (start : World) (freedHere : Nat) (k : Nat) (pass : Pass) : Prop where
  rest : sortedUnder pathPrefix pass.world.segments = (sortedUnder pathPrefix start.segments).drop (50 * k)
  disk : ∀ path, pass.world.disk.bytes path ≤ start.disk.bytes path
  freed : freedHere ≤ footprint start.disk k (sortedUnder pathPrefix start.segments)

private theorem progress_batch {pathPrefix : String} {start : World} {freedHere batchFreed k : Nat} {pass next : Pass}
    (progress : Progress pathPrefix start freedHere k pass) (batch : Batch pathPrefix 50 pass batchFreed next) :
    Progress pathPrefix start (freedHere + batchFreed) (k + 1) next := by
  obtain ⟨gone, chosen, disk, freed⟩ := batch.media
  refine ⟨?_, fun path => ?_, ?_⟩
  · rw [batch.rest, progress.rest, List.drop_drop]
    congr 1
  · rw [disk]
    exact (bytes_removeSegments_le _ _ path).trans (progress.disk path)
  · have less : (removeSegments (gone.map Segment.filePath) pass.world.disk).1 ≤
        (gone.map fun segment => start.disk.bytes segment.filePath).sum := by
      refine (removeSegments_freed_le _ _).trans ?_
      rw [List.map_map]
      exact List.sum_le_sum fun segment _ => progress.disk segment.filePath
    rw [progress.rest] at chosen
    rw [footprint_succ, freed]
    have bounded : max (removeSegments (gone.map Segment.filePath) pass.world.disk).1 (recorded gone) ≤
        weight start.disk (((sortedUnder pathPrefix start.segments).drop (50 * k)).take 50) := by
      rw [weight, ← recorded_perm chosen, ← (chosen.map _).sum_eq]
      exact max_le_max_right _ less
    exact Nat.add_le_add progress.freed bounded

theorem capLocation_eq (healthy : env.Healthy) (capped : loc.Capped) :
    capLocation env fuel before loc = pruneLoop (env.delete loc) (forwardSlashes loc.path) 50
      (fun freed => loc.maxBytes <
        (getStorageUsageByPath (forwardSlashes loc.path) before.world.segments : Int) - (freed : Int)) fuel 0 0 before := by
  have listed : ¬ (loc.enabled = false ∨ loc.maxGB ≤ 0) := by
    rintro (off | uncapped)
    · rw [capped.1] at off
      cases off
    · exact absurd capped.2 (not_lt.mpr uncapped)
  rw [capLocation, if_neg listed, if_neg (by simp [healthy.usage loc])]

private theorem recorded_split (k : Nat) (segments : List Segment) :
    recorded segments = recorded (segments.take k) + recorded (segments.drop k) := by
  rw [← recorded_append, List.take_append_drop]

/-- A location that is covered meets its cap after its turn. -/
theorem capLocation_met (healthy : env.Healthy) (capped : loc.Capped) (covered : loc.Covered before.world)
    (ran : capLocation env fuel before loc = some after) : loc.CapMet after.world.segments := by
  rw [capLocation_eq healthy capped] at ran
  have start : Progress (forwardSlashes loc.path) before.world 0 0 before := ⟨rfl, fun _ => le_rfl, Nat.zero_le _⟩
  obtain ⟨freed, ⟨k, progress⟩, ended⟩ := pruneLoop_rule
    (P := fun freed pass => ∃ k, Progress (forwardSlashes loc.path) before.world freed k pass) (by omega)
    (fun _ _ _ _ _ ⟨k, progress⟩ batch => ⟨k + 1, progress_batch progress batch⟩) ⟨0, start⟩ ran
  rcases ended with enough | empty | ⟨round, failed⟩
  · by_cases left : 50 * k < (sortedUnder (forwardSlashes loc.path) before.world.segments).length
    · have split := recorded_split (50 * k) (sortedUnder (forwardSlashes loc.path) before.world.segments)
      have recovered := covered k left
      have bounded := progress.freed
      have excess := of_decide_eq_false enough
      rw [← recorded_sortedUnder] at excess
      left
      rw [← recorded_sortedUnder, progress.rest]
      omega
    · right
      rw [progress.rest, List.drop_eq_nil_of_le (by omega)]
  · exact .inr empty
  · rw [healthy.delete loc round] at failed
    cases failed

/-- The loop has counted exactly what the batches hold, and it had to go on. -/
private structure ExactProgress (pathPrefix : String) (start : World) (wanting : Nat → Bool) (freedHere : Nat) (k : Nat)
    (pass : Pass) : Prop where
  rest : sortedUnder pathPrefix pass.world.segments = (sortedUnder pathPrefix start.segments).drop (50 * k)
  disk : ∀ segment ∈ (sortedUnder pathPrefix start.segments).drop (50 * k),
    pass.world.disk.bytes segment.filePath = start.disk.bytes segment.filePath
  freed : freedHere = footprint start.disk k (sortedUnder pathPrefix start.segments)
  needed : ∀ j < k, wanting (footprint start.disk j (sortedUnder pathPrefix start.segments)) = true

private theorem exactProgress_batch {pathPrefix : String} {start : World} {wanting : Nat → Bool}
    {freedHere batchFreed k : Nat} {pass next : Pass}
    (apart : MediaApart (sortedUnder pathPrefix start.segments)) (more : wanting freedHere = true)
    (progress : ExactProgress pathPrefix start wanting freedHere k pass)
    (batch : Batch pathPrefix 50 pass batchFreed next) :
    ExactProgress pathPrefix start wanting (freedHere + batchFreed) (k + 1) next := by
  obtain ⟨gone, chosen, disk, freed⟩ := batch.media
  rw [progress.rest] at chosen
  have tail := apart.sublist (List.drop_sublist (50 * k) _)
  have gonePerm : ((gone.map Segment.filePath).flatMap media).Perm
      ((((sortedUnder pathPrefix start.segments).drop (50 * k)).take 50).flatMap fun segment => media segment.filePath) := by
    rw [List.flatMap_map]
    exact chosen.flatMap_right _
  refine ⟨?_, fun segment member => ?_, ?_, fun j before => ?_⟩
  · rw [batch.rest, progress.rest, List.drop_drop]
    congr 1
  · have later : segment ∈ ((sortedUnder pathPrefix start.segments).drop (50 * k)).drop 50 := by
      rw [List.drop_drop]
      exact member
    rw [disk, bytes_removeSegments, progress.disk segment (List.mem_of_mem_drop later)]
    intro place held touched
    exact tail.disjoint 50 later held (gonePerm.mem_iff.mp touched)
  · have counted : (removeSegments (gone.map Segment.filePath) pass.world.disk).1 =
        (gone.map fun segment => start.disk.bytes segment.filePath).sum := by
      rw [removeSegments_freed (gonePerm.nodup_iff.mpr (tail.sublist (List.take_sublist 50 _))), List.map_map]
      congr 1
      apply List.map_congr_left
      intro segment member
      exact progress.disk segment (List.mem_of_mem_take (chosen.mem_iff.mp member))
    rw [footprint_succ, freed, progress.freed, counted, weight, recorded_perm chosen, (chosen.map _).sum_eq]
  · rcases Nat.lt_succ_iff_lt_or_eq.mp before with earlier | rfl
    · exact progress.needed j earlier
    · rw [← progress.freed]
      exact more

/-- A location that meets its cap after its turn was covered. -/
theorem covered_of_capMet (healthy : env.Healthy) (capped : loc.Capped)
    (apart : MediaApart (sortedUnder (forwardSlashes loc.path) before.world.segments))
    (ran : capLocation env fuel before loc = some after) (met : loc.CapMet after.world.segments) :
    loc.Covered before.world := by
  rw [capLocation_eq healthy capped] at ran
  set oldest := sortedUnder (forwardSlashes loc.path) before.world.segments with listed
  change ∀ k, 50 * k < oldest.length → (recorded oldest : Int) - loc.maxBytes ≤ footprint before.world.disk k oldest →
    (recorded oldest : Int) - loc.maxBytes ≤ recorded (oldest.take (50 * k))
  intro j left heavy
  by_contra short
  obtain ⟨freed, ⟨k, progress⟩, -⟩ := pruneLoop_rule
    (P := fun freed pass => ∃ k, ExactProgress (forwardSlashes loc.path) before.world _ freed k pass) (by omega)
    (fun _ _ _ _ more ⟨k, progress⟩ batch => ⟨k + 1, exactProgress_batch apart more progress batch⟩)
    ⟨0, rfl, fun _ _ => rfl, rfl, fun _ absurd => by omega⟩ ran
  -- Batch `j` would have ended the loop, so the loop ended there or before.
  have reached : k ≤ j := by
    by_contra later
    have excess := of_decide_eq_true (progress.needed j (by omega))
    rw [← recorded_sortedUnder, ← listed] at excess
    omega
  have less : recorded (oldest.take (50 * k)) ≤ recorded (oldest.take (50 * j)) := by
    have prefixes : oldest.take (50 * k) <+: oldest.take (50 * j) := List.take_prefix_take_left (by omega)
    obtain ⟨rest, same⟩ := prefixes
    rw [← same, recorded_append]
    exact Nat.le_add_right _ _
  rcases met with within | empty
  · rw [← recorded_sortedUnder, progress.rest, ← listed] at within
    have split := recorded_split (50 * k) oldest
    omega
  · rw [progress.rest, ← listed, List.drop_eq_nil_iff] at empty
    omega

end Turn

/-! ## A whole pass -/

/-- The state of the pass when the location has its turn. -/
def TurnOf (env : Env) (fuel : Nat) (locations : Table StorageLocation.id) (world : World) (loc : StorageLocation)
    (before : Pass) : Prop :=
  ∃ earlier later, listStorageLocations locations = earlier ++ loc :: later ∧
    earlier.foldlM (capLocation env fuel) ⟨world, 0, 0⟩ = some before

/-- No segment lies under two of the capped locations. -/
def Separate (locations : Table StorageLocation.id) (world : World) : Prop :=
  ∀ first ∈ locations, ∀ second ∈ locations, first.Capped → second.Capped → first ≠ second →
    ∀ segment ∈ world.segments, under (forwardSlashes first.path) segment = true →
      under (forwardSlashes second.path) segment = false

/-- Every location with a cap keeps to it. -/
def CapsMet (locations : Table StorageLocation.id) (segments : Segments) : Prop :=
  ∀ loc ∈ locations, loc.Capped → loc.CapMet segments

theorem mem_listStorageLocations {locations : Table StorageLocation.id} {loc : StorageLocation} :
    loc ∈ listStorageLocations locations ↔ loc ∈ locations :=
  (List.perm_insertionSort _ _).mem_iff

private theorem nodup_listStorageLocations (locations : Table StorageLocation.id) :
    (listStorageLocations locations).Nodup :=
  (List.perm_insertionSort _ _).nodup_iff.mpr (List.Nodup.of_map _ locations.distinct)

section Turns
variable {env : Env} {fuel : Nat}

/-- What holds of the pass before a turn and is preserved by its batches holds after it. -/
private theorem capLocation_rule {P : Pass → Prop} (healthy : env.Healthy) {loc : StorageLocation} {before : Pass}
    (enough : before.world.segments.rows.length < fuel) (held : P before)
    (preserved : ∀ batchFreed before after, loc.Capped → P before →
      Batch (forwardSlashes loc.path) 50 before batchFreed after → P after) :
    ∃ after, capLocation env fuel before loc = some after ∧ P after := by
  by_cases capped : loc.Capped
  · rw [capLocation_eq healthy capped]
    exact pruneLoop_total _ _ (by omega) enough held fun batchFreed before after => preserved batchFreed before after capped
  · refine ⟨before, ?_, held⟩
    rw [capLocation, if_pos]
    rcases Bool.eq_false_or_eq_true loc.enabled with on | off
    · exact .inr (not_lt.mp fun positive => capped ⟨on, positive⟩)
    · exact .inl off

/-- A run of turns ends; it keeps what each batch of its locations preserves. -/
private theorem turns_rule {P : Pass → Prop} (healthy : env.Healthy) (locations : List StorageLocation) {before : Pass}
    (enough : before.world.segments.rows.length < fuel) (held : P before)
    (preserved : ∀ loc ∈ locations, ∀ batchFreed before after, loc.Capped → P before →
      Batch (forwardSlashes loc.path) 50 before batchFreed after → P after) :
    ∃ after, locations.foldlM (capLocation env fuel) before = some after ∧ P after ∧
      after.world.segments.rows.length < fuel := by
  refine foldlM_rule (fun pass => P pass ∧ pass.world.segments.rows.length < fuel) ⟨held, enough⟩ ?_
  rintro loc member pass ⟨kept, shorter⟩
  exact capLocation_rule healthy shorter ⟨kept, shorter⟩ fun batchFreed before after capped kept batch =>
    ⟨preserved loc member batchFreed before after capped kept.1 batch, batch.sublist.length_le.trans_lt kept.2⟩

end Turns

theorem capMet_sublist {loc : StorageLocation} {before after : Segments} (fewer : after.rows.Sublist before.rows)
    (met : loc.CapMet before) : loc.CapMet after := by
  have less := (fewer.filter (under (forwardSlashes loc.path)))
  rcases met with within | empty
  · left
    have sums : getStorageUsageByPath (forwardSlashes loc.path) after ≤
        getStorageUsageByPath (forwardSlashes loc.path) before := (less.map Segment.fileSize).sum_le_sum (by simp)
    omega
  · right
    rw [List.eq_nil_iff_forall_not_mem] at empty ⊢
    intro segment member
    obtain ⟨held, listed⟩ := mem_sortedUnder.mp member
    exact empty segment (mem_sortedUnder.mpr ⟨fewer.subset held, listed⟩)

theorem capMet_congr {loc : StorageLocation} {first second : Segments}
    (same : sortedUnder (forwardSlashes loc.path) first = sortedUnder (forwardSlashes loc.path) second) :
    loc.CapMet first ↔ loc.CapMet second := by
  rw [StorageLocation.CapMet, StorageLocation.CapMet, ← recorded_sortedUnder, ← recorded_sortedUnder, same]

theorem mediaApart_sortedUnder {pathPrefix : String} {segments : Segments} {rows : List Segment} (apart : MediaApart rows)
    (fewer : segments.rows.Sublist rows) : MediaApart (sortedUnder pathPrefix segments) := by
  have listed : MediaApart (segments.rows.filter (under pathPrefix)) :=
    apart.sublist (List.filter_sublist.trans fewer)
  exact ((List.perm_insertionSort _ _).flatMap_right _).nodup_iff.mpr listed

private theorem sortedUnder_apart {pathPrefix other : String} {limit batchFreed : Nat} {before after : Pass}
    (batch : Batch pathPrefix limit before batchFreed after)
    (separate : ∀ segment ∈ before.world.segments, under pathPrefix segment = true → under other segment = false) :
    sortedUnder other after.world.segments = sortedUnder other before.world.segments := by
  rw [batch.segments, sortedUnder, sortedUnder, deleteOldestSegmentsByPath, Table.remove, List.filter_filter]
  congr 1
  apply List.filter_congr
  intro segment held
  cases listed : under other segment with
  | false => rfl
  | true =>
    rw [Bool.true_and, Bool.not_eq_true', decide_eq_false_iff_not, mem_oldest held]
    intro chosen
    have own := (mem_sortedUnder.mp (List.mem_of_mem_take chosen)).2
    rw [separate segment held own] at listed
    cases listed

private theorem media_disjoint {segments : List Segment} (apart : MediaApart segments) {first second : Segment}
    (held : first ∈ segments) (held' : second ∈ segments) (differ : first ≠ second) {place : Place}
    (touched : place ∈ media first.filePath) : place ∉ media second.filePath := by
  have : Std.Symm (Function.onFun List.Disjoint fun segment : Segment => media segment.filePath) :=
    ⟨fun _ _ disjoint => disjoint.symm⟩
  have disjoint := (List.nodup_flatMap.mp apart).2.forall held held' differ
  exact fun shared => disjoint touched shared

/-- The location has not been touched yet. -/
private structure Untouched (loc : StorageLocation) (start : World) (pass : Pass) : Prop where
  rows : pass.world.segments.rows.Sublist start.segments.rows
  listed : sortedUnder (forwardSlashes loc.path) pass.world.segments = sortedUnder (forwardSlashes loc.path) start.segments
  disk : ∀ segment ∈ sortedUnder (forwardSlashes loc.path) start.segments,
    pass.world.disk.bytes segment.filePath = start.disk.bytes segment.filePath

private theorem untouched_batch {loc other : StorageLocation} {start : World} {batchFreed : Nat} {before after : Pass}
    (apart : MediaApart start.segments.rows)
    (separate : ∀ segment ∈ start.segments, under (forwardSlashes other.path) segment = true →
      under (forwardSlashes loc.path) segment = false)
    (untouched : Untouched loc start before) (batch : Batch (forwardSlashes other.path) 50 before batchFreed after) :
    Untouched loc start after := by
  refine ⟨batch.sublist.trans untouched.rows, ?_, fun segment member => ?_⟩
  · rw [sortedUnder_apart batch fun segment held => separate segment (untouched.rows.subset held), untouched.listed]
  · obtain ⟨gone, chosen, disk, -⟩ := batch.media
    obtain ⟨held, own⟩ := mem_sortedUnder.mp member
    rw [disk, bytes_removeSegments, untouched.disk segment member]
    intro place touched shared
    obtain ⟨path, removed, shared⟩ := List.mem_flatMap.mp shared
    obtain ⟨victim, deleted, rfl⟩ := List.mem_map.mp removed
    obtain ⟨present, listed⟩ := mem_sortedUnder.mp (List.mem_of_mem_take (chosen.mem_iff.mp deleted))
    have present' : victim ∈ start.segments := untouched.rows.subset present
    have differ : segment ≠ victim := by
      rintro rfl
      rw [separate segment held listed] at own
      cases own
    exact media_disjoint apart held present' differ touched shared

private theorem untouched_covered {loc : StorageLocation} {start : World} {pass : Pass}
    (untouched : Untouched loc start pass) : loc.Covered pass.world ↔ loc.Covered start := by
  have same (k : Nat) : footprint pass.world.disk k (sortedUnder (forwardSlashes loc.path) start.segments) =
      footprint start.disk k (sortedUnder (forwardSlashes loc.path) start.segments) := by
    rw [footprint, footprint]
    congr 1
    apply List.map_congr_left
    intro round _
    rw [weight, weight]
    congr 2
    apply List.map_congr_left
    intro segment member
    exact untouched.disk segment (List.mem_of_mem_drop (List.mem_of_mem_take member))
  simp only [StorageLocation.Covered, untouched.listed, same]

/-- Every location has one turn in a pass; the turns of the others come before and after. -/
private theorem turn_exists {env : Env} {fuel : Nat} {locations : Table StorageLocation.id} {world : World} {final : Pass}
    {loc : StorageLocation} (healthy : env.Healthy) (enough : world.segments.rows.length < fuel) (member : loc ∈ locations)
    (ran : (listStorageLocations locations).foldlM (capLocation env fuel) ⟨world, 0, 0⟩ = some final)
    {P : Pass → Prop} (held : P ⟨world, 0, 0⟩)
    (preserved : ∀ other ∈ locations, other ≠ loc → ∀ batchFreed before after, other.Capped → P before →
      Batch (forwardSlashes other.path) 50 before batchFreed after → P after) :
    ∃ before after, TurnOf env fuel locations world loc before ∧ P before ∧ capLocation env fuel before loc = some after ∧
      after.world.segments.rows.Sublist before.world.segments.rows ∧ ∀ Q : Pass → Prop, Q after →
        (∀ other ∈ locations, other ≠ loc → ∀ batchFreed before after, other.Capped → Q before →
          Batch (forwardSlashes other.path) 50 before batchFreed after → Q after) → Q final := by
  obtain ⟨earlier, later, split⟩ := List.append_of_mem (mem_listStorageLocations.mpr member)
  have distinct := nodup_listStorageLocations locations
  have others (other : StorageLocation) (listed : other ∈ earlier ∨ other ∈ later) : other ∈ locations ∧ other ≠ loc := by
    have known : other ∈ listStorageLocations locations := by
      rw [split]
      rcases listed with first | last
      · exact List.mem_append_left _ first
      · exact List.mem_append_right _ (List.mem_cons_of_mem _ last)
    refine ⟨mem_listStorageLocations.mp known, ?_⟩
    rintro rfl
    rw [split, List.nodup_middle, List.nodup_cons] at distinct
    exact distinct.1 (List.mem_append.mpr listed)
  obtain ⟨before, ranEarlier, kept, shorter⟩ := turns_rule (P := P) healthy earlier enough held
    fun other listed => preserved other (others other (.inl listed)).1 (others other (.inl listed)).2
  obtain ⟨after, turn, fewer⟩ := capLocation_rule
    (P := fun pass => pass.world.segments.rows.Sublist before.world.segments.rows) healthy shorter (List.Sublist.refl _)
    fun _ _ _ _ fewer batch => batch.sublist.trans fewer
  refine ⟨before, after, ⟨earlier, later, split, ranEarlier⟩, kept, turn, fewer, fun Q start carried => ?_⟩
  obtain ⟨last, ranLater, result, -⟩ := turns_rule (P := Q) healthy later (fewer.length_le.trans_lt shorter) start
    fun other listed => carried other (others other (.inr listed)).1 (others other (.inr listed)).2
  have whole : (listStorageLocations locations).foldlM (capLocation env fuel) ⟨world, 0, 0⟩ = some last := by
    rw [split, List.foldlM_append, ranEarlier]
    simp only [Option.bind_eq_bind, Option.bind_some, List.foldlM_cons, turn, ranLater]
  rw [ran] at whole
  cases whole
  exact result

/-- The pass ends. It brings every capped location under its cap when each is covered at
its turn; where the locations are separate and no media is shared, just when each is
covered at the start. -/
theorem storage_caps_enforced (env : Env) (healthy : env.Healthy) (fuel : Nat) (locations : Table StorageLocation.id)
    (world : World) (enough : world.segments.rows.length < fuel) :
    ∃ final, enforceStorageCaps env fuel locations world = some final ∧
      ((∀ loc before, TurnOf env fuel locations world loc before → loc.Capped → loc.Covered before.world) →
        CapsMet locations final.world.segments) ∧
      (Separate locations world → MediaApart world.segments.rows →
        (CapsMet locations final.world.segments ↔ ∀ loc ∈ locations, loc.Capped → loc.Covered world)) := by
  have start : (⟨world, 0, 0⟩ : Pass).world.segments.rows.length < fuel := enough
  obtain ⟨final, ran, -⟩ := turns_rule (P := fun _ => True) healthy (listStorageLocations locations) start trivial
    fun _ _ _ _ _ _ _ _ => trivial
  refine ⟨final, ?_, fun covered loc member capped => ?_, fun separate apart => ?_⟩
  · rw [enforceStorageCaps, if_neg (by simp [healthy.listLocations]), ran]
  · obtain ⟨before, after, turn, -, ranTurn, -, onwards⟩ := turn_exists (P := fun _ => True) healthy enough member ran trivial
      fun _ _ _ _ _ _ _ _ _ => trivial
    have met := capLocation_met healthy capped (covered loc before turn capped) ranTurn
    exact onwards (fun pass => loc.CapMet pass.world.segments) met
      fun _ _ _ _ _ _ _ met batch => capMet_sublist batch.sublist met
  · apply forall₂_congr
    intro loc member
    apply imp_congr_right
    intro capped
    have apartFrom (other : StorageLocation) (listed : other ∈ locations) (differs : other ≠ loc) (limited : other.Capped) :
        ∀ segment ∈ world.segments, under (forwardSlashes other.path) segment = true →
          under (forwardSlashes loc.path) segment = false :=
      fun segment held => separate other listed loc member limited capped differs segment held
    obtain ⟨before, after, -, untouched, ranTurn, fewer, onwards⟩ := turn_exists (P := Untouched loc world) healthy enough
      member ran ⟨List.Sublist.refl _, rfl, fun _ _ => rfl⟩
      fun other listed differs _ _ _ limited kept batch =>
        untouched_batch apart (apartFrom other listed differs limited) kept batch
    rw [← untouched_covered untouched]
    constructor
    · intro met
      have same := onwards (fun pass => pass.world.segments.rows.Sublist world.segments.rows ∧
          sortedUnder (forwardSlashes loc.path) pass.world.segments = sortedUnder (forwardSlashes loc.path) after.world.segments)
        ⟨fewer.trans untouched.rows, rfl⟩ fun other listed differs _ _ _ limited kept batch =>
          ⟨batch.sublist.trans kept.1, (sortedUnder_apart batch fun segment held =>
            apartFrom other listed differs limited segment (kept.1.subset held)).trans kept.2⟩
      exact covered_of_capMet healthy capped (mediaApart_sortedUnder apart untouched.rows) ranTurn
        ((capMet_congr same.2).mp met)
    · intro covered
      exact onwards (fun pass => loc.CapMet pass.world.segments) (capLocation_met healthy capped covered ranTurn)
        fun _ _ _ _ _ _ _ met batch => capMet_sublist batch.sublist met

private def yard : StorageLocation where
  id := ⟨1, by decide⟩
  path := "/mnt/"
  maxGB := 1

private def yardOnly : Table StorageLocation.id := ⟨[yard], by decide⟩

private def yardSegment (n : Nat) (fileSize : Nat) : Segment where
  id := n
  cameraID := ⟨2, by decide⟩
  startTime := n
  endTime := n + 1
  filePath := "/mnt/" ++ Codes.padded 2 n ++ ".mp4"
  fileSize := fileSize

private def twoHalves : World where
  segments := ⟨[yardSegment 0 734003200, yardSegment 1 734003200], by decide⟩
  disk := []

/-- Two recordings of 700 MiB on a location of one gigabyte. -/
theorem storage_caps_enforced_yard :
    ∃ final, enforceStorageCaps {} 3 yardOnly twoHalves = some final ∧ CapsMet yardOnly final.world.segments := by
  have healthy : ({} : Env).Healthy := ⟨rfl, fun _ => rfl, fun _ _ => rfl⟩
  obtain ⟨final, ran, -, exactly⟩ := storage_caps_enforced {} healthy 3 yardOnly twoHalves (by decide)
  have only (loc : StorageLocation) (member : loc ∈ yardOnly) : loc = yard := List.mem_singleton.mp member
  refine ⟨final, ran, (exactly ?_ ?_).mpr ?_⟩
  · intro first member second member' _ _ differ
    exact absurd ((only first member).trans (only second member').symm) differ
  · decide +kernel
  · intro loc member _
    rw [only loc member]
    intro k left heavy
    have two : (sortedUnder (forwardSlashes yard.path) twoHalves.segments).length = 2 := by decide +kernel
    have first : k = 0 := by omega
    subst first
    have excess : ¬ (recorded (sortedUnder (forwardSlashes yard.path) twoHalves.segments) : Int) - yard.maxBytes ≤
        footprint twoHalves.disk 0 (sortedUnder (forwardSlashes yard.path) twoHalves.segments) := by decide +kernel
    exact absurd heavy excess

/-- Fifty segments of a megabyte, the oldest with a large transcode, and a newer one of two
gigabytes. -/
private def oneTranscode : World where
  segments := ⟨(List.range 50).map (fun n => yardSegment n 1048576) ++ [yardSegment 50 2147483648],
    by simp [Function.comp_def, yardSegment, List.nodup_append, List.nodup_map_iff Nat.cast_injective, List.nodup_range]; omega⟩
  disk := [⟨place "/mnt/.h264-cache/00.mp4", 1258291200⟩]

/-- The transcode alone covers the excess, and two gigabytes stay under a cap of one. -/
theorem transcode_hides_excess :
    (enforceStorageCaps {} 60 yardOnly oneTranscode).map (fun final =>
      (getStorageUsageByPath (forwardSlashes yard.path) final.world.segments, yard.maxBytes)) =
      some (2147483648, 1073741824) := by
  decide +kernel

end Ironsight.Retention
