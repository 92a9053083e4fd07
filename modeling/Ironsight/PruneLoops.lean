import Mathlib.Algebra.Order.BigOperators.Group.List
import Ironsight.Retention

/-! What one round of a pruning loop deletes and what a whole loop leaves behind,
for the caps and for the safety valve alike. -/
namespace Ironsight.Retention
open Tables Paths

/-! ## One batch -/

private theorem sortedUnder_perm (pathPrefix : String) (segments : Segments) :
    (sortedUnder pathPrefix segments).Perm (segments.rows.filter (under pathPrefix)) :=
  List.perm_insertionSort _ _

theorem mem_sortedUnder {pathPrefix : String} {segments : Segments} {segment : Segment} :
    segment ∈ sortedUnder pathPrefix segments ↔ segment ∈ segments ∧ under pathPrefix segment = true := by
  rw [(sortedUnder_perm pathPrefix segments).mem_iff, List.mem_filter, Table.mem_def]

theorem recorded_sortedUnder (pathPrefix : String) (segments : Segments) :
    recorded (sortedUnder pathPrefix segments) = getStorageUsageByPath pathPrefix segments :=
  ((sortedUnder_perm pathPrefix segments).map _).sum_eq

theorem recorded_append (first second : List Segment) :
    recorded (first ++ second) = recorded first + recorded second := by
  simp [recorded]

private theorem sortedUnder_nodup (pathPrefix : String) (segments : Segments) :
    ((sortedUnder pathPrefix segments).map Segment.id).Nodup :=
  (((sortedUnder_perm pathPrefix segments).map _).nodup_iff).mpr
    (segments.distinct.sublist (List.filter_sublist.map Segment.id))

/-- A row of the table is among the oldest when its identifier is. -/
theorem mem_oldest {pathPrefix : String} {limit : Nat} {segments : Segments} {segment : Segment}
    (held : segment ∈ segments) :
    segment.id ∈ ((sortedUnder pathPrefix segments).take limit).map Segment.id ↔
      segment ∈ (sortedUnder pathPrefix segments).take limit := by
  constructor
  · intro listed
    obtain ⟨other, chosen, same⟩ := List.mem_map.mp listed
    have held' := (mem_sortedUnder.mp (List.mem_of_mem_take chosen)).1
    rwa [← Table.key_inj held' held same]
  · exact List.mem_map_of_mem

/-- The deleted rows are the oldest ones under the prefix. -/
theorem deleted_perm (pathPrefix : String) (limit : Nat) (segments : Segments) :
    (deleteOldestSegmentsByPath pathPrefix limit segments).1.Perm ((sortedUnder pathPrefix segments).take limit) := by
  have nodup : segments.rows.Nodup := List.Nodup.of_map _ segments.distinct
  have nodup' : (sortedUnder pathPrefix segments).Nodup := List.Nodup.of_map _ (sortedUnder_nodup pathPrefix segments)
  have distinct : (deleteOldestSegmentsByPath pathPrefix limit segments).1.Nodup := nodup.sublist List.filter_sublist
  rw [List.perm_ext_iff_of_nodup distinct (nodup'.sublist (List.take_sublist _ _))]
  intro segment
  simp only [deleteOldestSegmentsByPath, List.mem_filter, decide_eq_true_eq]
  constructor
  · rintro ⟨held, listed⟩
    exact (mem_oldest held).mp listed
  · intro chosen
    have held := (mem_sortedUnder.mp (List.mem_of_mem_take chosen)).1
    exact ⟨held, (mem_oldest held).mpr chosen⟩

theorem mem_kept {pathPrefix : String} {limit : Nat} {segments : Segments} {segment : Segment} :
    segment ∈ (deleteOldestSegmentsByPath pathPrefix limit segments).2 ↔
      segment ∈ segments ∧ segment ∉ (sortedUnder pathPrefix segments).take limit := by
  rw [deleteOldestSegmentsByPath, Table.mem_remove, decide_eq_false_iff_not]
  constructor
  · rintro ⟨held, kept⟩
    exact ⟨held, fun chosen => kept ((mem_oldest held).mpr chosen)⟩
  · rintro ⟨held, kept⟩
    exact ⟨held, fun listed => kept ((mem_oldest held).mp listed)⟩

private theorem filter_drop {items : List Segment} {limit : Nat} (nodup : (items.map Segment.id).Nodup) :
    items.filter (fun item => !decide (item.id ∈ (items.take limit).map Segment.id)) = items.drop limit := by
  rw [← List.take_append_drop limit items, List.map_append, List.nodup_append'] at nodup
  obtain ⟨-, -, apart⟩ := nodup
  have dropped : (items.take limit).filter (fun item => !decide (item.id ∈ (items.take limit).map Segment.id)) = [] := by
    simp only [List.filter_eq_nil_iff, Bool.not_eq_true', decide_eq_false_iff_not, not_not]
    exact fun item member => List.mem_map_of_mem member
  have kept : (items.drop limit).filter (fun item => !decide (item.id ∈ (items.take limit).map Segment.id)) =
      items.drop limit := by
    simp only [List.filter_eq_self, Bool.not_eq_true', decide_eq_false_iff_not]
    exact fun item member listed => apart listed (List.mem_map_of_mem member)
  conv_lhs => rw [← List.take_append_drop limit items]
  rw [List.filter_append]
  simp only [List.take_append_drop]
  rw [dropped, kept, List.nil_append]

/-- The rest stays in order. -/
theorem sortedUnder_deleted (pathPrefix : String) (limit : Nat) (segments : Segments) :
    sortedUnder pathPrefix (deleteOldestSegmentsByPath pathPrefix limit segments).2 =
      (sortedUnder pathPrefix segments).drop limit := by
  have : IsTrans Segment fun first second => first.startTime ≤ second.startTime := ⟨fun _ _ _ => le_trans⟩
  have : Std.Total fun first second : Segment => first.startTime ≤ second.startTime :=
    ⟨fun first second => le_total first.startTime second.startTime⟩
  rw [← filter_drop (sortedUnder_nodup pathPrefix segments)]
  conv_rhs => rw [sortedUnder, ← insertionSort_filter]
  rw [sortedUnder, deleteOldestSegmentsByPath, Table.remove, List.filter_filter, List.filter_filter]
  congr 1
  apply List.filter_congr
  intro segment _
  rw [Bool.and_comm]
  rfl

/-! ## Rounds -/

/-- What a round does: the oldest segments go, with what they name on the disk. -/
structure Batch (pathPrefix : String) (limit : Nat) (before : Pass) (batchFreed : Nat) (after : Pass) : Prop where
  some : sortedUnder pathPrefix before.world.segments ≠ []
  segments : after.world.segments = (deleteOldestSegmentsByPath pathPrefix limit before.world.segments).2
  media : ∃ batch : List Segment, batch.Perm ((sortedUnder pathPrefix before.world.segments).take limit) ∧
    after.world.disk = (removeSegments (batch.map Segment.filePath) before.world.disk).2 ∧
    batchFreed = max (removeSegments (batch.map Segment.filePath) before.world.disk).1 (recorded batch)
  counted : after.totalBytes = before.totalBytes + batchFreed

section Batch
variable {pathPrefix : String} {limit batchFreed : Nat} {before after : Pass}

theorem Batch.rest (batch : Batch pathPrefix limit before batchFreed after) :
    sortedUnder pathPrefix after.world.segments = (sortedUnder pathPrefix before.world.segments).drop limit := by
  rw [batch.segments, sortedUnder_deleted]

theorem Batch.kept (batch : Batch pathPrefix limit before batchFreed after) {segment : Segment} :
    segment ∈ after.world.segments ↔ segment ∈ before.world.segments ∧
      segment ∉ (sortedUnder pathPrefix before.world.segments).take limit := by
  rw [batch.segments, mem_kept]

end Batch

private theorem deleted_eq_nil {pathPrefix : String} {limit : Nat} {segments : Segments} (positive : 0 < limit) :
    (deleteOldestSegmentsByPath pathPrefix limit segments).1 = [] ↔ sortedUnder pathPrefix segments = [] := by
  have chosen := deleted_perm pathPrefix limit segments
  constructor
  · intro empty
    rw [empty] at chosen
    have none := chosen.nil_eq.symm
    rw [List.take_eq_nil_iff] at none
    exact none.resolve_left positive.ne'
  · intro empty
    rw [empty, List.take_nil] at chosen
    exact chosen.eq_nil

theorem pruneBatch_none {pathPrefix : String} {limit : Nat} {pass : Pass} (positive : 0 < limit) :
    pruneBatch pathPrefix limit pass = none ↔ sortedUnder pathPrefix pass.world.segments = [] := by
  rw [← deleted_eq_nil positive]
  simp only [pruneBatch]
  split <;> simp_all

theorem pruneBatch_some {pathPrefix : String} {limit : Nat} {before after : Pass} {batchFreed : Nat}
    (positive : 0 < limit) (pruned : pruneBatch pathPrefix limit before = some (batchFreed, after)) :
    Batch pathPrefix limit before batchFreed after := by
  have given : sortedUnder pathPrefix before.world.segments ≠ [] := by
    intro empty
    rw [(pruneBatch_none positive).mpr empty] at pruned
    cases pruned
  simp only [pruneBatch] at pruned
  split at pruned
  · cases pruned
  · cases pruned
    exact {
      some := given
      segments := rfl
      media := ⟨_, deleted_perm pathPrefix limit before.world.segments, rfl, rfl⟩
      counted := rfl }

/-! ## Loops -/

section Loop
variable {delete : Nat → Bool} {pathPrefix : String} {limit : Nat} {wanting : Nat → Bool}

/-- A loop carries along what every round of it preserves, and ends when nothing is
wanting, no segment is left or a deletion fails. -/
theorem pruneLoop_rule {P : Nat → Pass → Prop} (positive : 0 < limit)
    (preserved : ∀ freedHere batchFreed before after, wanting freedHere = true → P freedHere before →
      Batch pathPrefix limit before batchFreed after → P (freedHere + batchFreed) after)
    {fuel round freedHere : Nat} {pass final : Pass} (held : P freedHere pass)
    (ran : pruneLoop delete pathPrefix limit wanting fuel round freedHere pass = some final) :
    ∃ freed, P freed final ∧ (wanting freed = false ∨ sortedUnder pathPrefix final.world.segments = [] ∨
      ∃ round, delete round = false) := by
  induction fuel generalizing round freedHere pass with
  | zero => cases ran
  | succ fuel ih =>
    rw [pruneLoop] at ran
    split at ran
    · rename_i stopped
      cases ran
      rcases stopped with enough | failed
      · exact ⟨freedHere, held, .inl enough⟩
      · exact ⟨freedHere, held, .inr (.inr ⟨round, failed⟩)⟩
    · rename_i going
      have more : wanting freedHere = true := by
        cases known : wanting freedHere with
        | true => rfl
        | false => exact absurd (.inl known) going
      split at ran
      · rename_i none
        cases ran
        exact ⟨freedHere, held, .inr (.inl ((pruneBatch_none positive).mp none))⟩
      · rename_i batchFreed after pruned
        exact ih (preserved _ _ _ _ more held (pruneBatch_some positive pruned)) ran

/-- A loop that has something to do, in a table with no more segments than one batch takes,
leaves none. -/
theorem pruneLoop_all (positive : 0 < limit) (healthy : ∀ round, delete round = true) (more : wanting 0 = true)
    {fuel round : Nat} {pass final : Pass} (few : (sortedUnder pathPrefix pass.world.segments).length ≤ limit)
    (ran : pruneLoop delete pathPrefix limit wanting fuel round 0 pass = some final) :
    sortedUnder pathPrefix final.world.segments = [] := by
  obtain ⟨freed, ⟨-, none | nothing⟩, ended⟩ := pruneLoop_rule
    (P := fun freed pass => (sortedUnder pathPrefix pass.world.segments).length ≤ limit ∧
      (sortedUnder pathPrefix pass.world.segments = [] ∨ freed = 0)) positive
    (fun _ _ _ _ _ held batch => by
      have rest := batch.rest
      rw [List.drop_eq_nil_of_le held.1] at rest
      exact ⟨by rw [rest]; exact Nat.zero_le _, .inl rest⟩) ⟨few, .inr rfl⟩ ran
  · exact none
  · rcases ended with enough | empty | ⟨round, failed⟩
    · rw [nothing, more] at enough
      cases enough
    · exact empty
    · rw [healthy round] at failed
      cases failed

/-- Every round leaves fewer segments, so a loop ends. -/
theorem pruneLoop_ends (delete : Nat → Bool) (wanting : Nat → Bool) (positive : 0 < limit) {fuel : Nat} (round freedHere : Nat) {pass : Pass}
    (enough : (sortedUnder pathPrefix pass.world.segments).length < fuel) :
    ∃ final, pruneLoop delete pathPrefix limit wanting fuel round freedHere pass = some final := by
  induction fuel generalizing round freedHere pass with
  | zero => cases enough
  | succ fuel ih =>
    rw [pruneLoop]
    split
    · exact ⟨pass, rfl⟩
    · split
      · exact ⟨pass, rfl⟩
      · rename_i batchFreed after pruned
        have batch := pruneBatch_some positive pruned
        apply ih
        have given := List.length_pos_of_ne_nil batch.some
        rw [batch.rest, List.length_drop]
        omega

theorem Batch.sublist {batchFreed : Nat} {before after : Pass} (batch : Batch pathPrefix limit before batchFreed after) :
    after.world.segments.rows.Sublist before.world.segments.rows := by
  rw [batch.segments]
  exact List.filter_sublist

theorem sortedUnder_length_le (pathPrefix : String) (segments : Segments) :
    (sortedUnder pathPrefix segments).length ≤ segments.rows.length := by
  rw [sortedUnder, List.length_insertionSort]
  exact List.length_filter_le _ _

/-- A loop with fuel for every row ends, and keeps what each batch preserves. -/
theorem pruneLoop_total (delete : Nat → Bool) (wanting : Nat → Bool) (positive : 0 < limit) {P : Pass → Prop} {fuel : Nat} {pass : Pass}
    (enough : pass.world.segments.rows.length < fuel) (held : P pass)
    (preserved : ∀ batchFreed before after, P before → Batch pathPrefix limit before batchFreed after → P after) :
    ∃ final, pruneLoop delete pathPrefix limit wanting fuel 0 0 pass = some final ∧ P final := by
  obtain ⟨final, ran⟩ := pruneLoop_ends delete wanting positive 0 0 ((sortedUnder_length_le pathPrefix _).trans_lt enough)
  obtain ⟨_, result, -⟩ := pruneLoop_rule (P := fun _ pass => P pass) positive
    (fun _ batchFreed before after _ => preserved batchFreed before after) held ran
  exact ⟨final, ran, result⟩

end Loop

/-- A turn of a location changes nothing or is a pruning loop. -/
theorem capLocation_cases {env : Env} {fuel : Nat} {loc : StorageLocation} {before after : Pass}
    (ran : capLocation env fuel before loc = some after) :
    after = before ∨ ∃ delete wanting, pruneLoop delete (forwardSlashes loc.path) 50 wanting fuel 0 0 before = some after := by
  rw [capLocation] at ran
  split at ran
  · cases ran
    exact .inl rfl
  · simp only at ran
    split at ran
    · cases ran
      exact .inl rfl
    · exact .inr ⟨_, _, ran⟩

/-- What a turn of the safety valve can do, from the totals seen before it. -/
inductive ValveTurn (env : Env) (statfs : String → Disk → Option Statfs) (fuel : Nat) (loc : StorageLocation)
    (seenFS : List Nat) (before : Pass) : List Nat × Pass → Prop where
  | passed (known : ∀ total used, loc.holdsRecordings = true →
      diskUsageForPath statfs loc.path before.world.disk = some (total, used) → total = 0 ∨ total ∈ seenFS) :
      ValveTurn env statfs fuel loc seenFS before (seenFS, before)
  | low {total used : Nat} (recordings : loc.holdsRecordings = true)
      (read : diskUsageForPath statfs loc.path before.world.disk = some (total, used))
      (new : ¬ (total = 0 ∨ total ∈ seenFS)) (below : (used : Rat) / total ≤ capacitySafetyThreshold) :
      ValveTurn env statfs fuel loc seenFS before (total :: seenFS, before)
  | pruned {total used : Nat} {after : Pass} (recordings : loc.holdsRecordings = true)
      (read : diskUsageForPath statfs loc.path before.world.disk = some (total, used))
      (new : ¬ (total = 0 ∨ total ∈ seenFS)) (full : capacitySafetyThreshold < (used : Rat) / total)
      (ran : pruneLoop (env.delete loc) (forwardSlashes loc.path) 100
        (fun freed => (freed : Int) < toInt64 (subUint64 used (targetUsed total))) fuel 0 0 before = some after) :
      ValveTurn env statfs fuel loc seenFS before (total :: seenFS, after)

theorem valveLocation_turn {env : Env} {statfs : String → Disk → Option Statfs} {fuel : Nat} {loc : StorageLocation}
    {seenFS : List Nat} {before : Pass} {next : List Nat × Pass}
    (ran : valveLocation env statfs fuel (seenFS, before) loc = some next) :
    ValveTurn env statfs fuel loc seenFS before next := by
  simp only [valveLocation] at ran
  split at ran
  · rename_i other
    cases ran
    exact .passed fun _ _ recordings => absurd (other.symm.trans recordings) Bool.false_ne_true
  · rename_i recordings
    rw [Bool.not_eq_false] at recordings
    split at ran
    · rename_i unread
      cases ran
      exact .passed fun _ _ _ read => nomatch unread.symm.trans read
    · rename_i total used read
      split at ran
      · rename_i known
        cases ran
        refine .passed fun _ _ _ again => ?_
        cases read.symm.trans again
        exact known
      · rename_i new
        split at ran
        · rename_i below
          cases ran
          exact .low recordings read new below
        · rename_i full
          obtain ⟨pass, pruned, same⟩ := Option.map_eq_some_iff.mp ran
          cases same
          exact .pruned recordings read new (not_le.mp full) pruned

theorem valveLocation_cases {env : Env} {statfs : String → Disk → Option Statfs} {fuel : Nat} {loc : StorageLocation}
    {state next : List Nat × Pass} (ran : valveLocation env statfs fuel state loc = some next) :
    next.2 = state.2 ∨
      ∃ delete wanting, pruneLoop delete (forwardSlashes loc.path) 100 wanting fuel 0 0 state.2 = some next.2 := by
  cases valveLocation_turn ran with
  | passed | low => exact .inl rfl
  | pruned _ _ _ _ pruned => exact .inr ⟨_, _, pruned⟩

/-! ## Disk -/

theorem Disk.stat_remove_of_ne {disk : Disk} {place other : Place} (differs : other ≠ place) :
    (disk.remove place).stat other = disk.stat other := by
  rw [Disk.remove]
  split
  · rfl
  · rw [Disk.stat, Disk.stat, List.find?_filter]
    congr 2
    funext entry
    by_cases same : entry.place = other
    · simp [same, differs]
    · simp [same]

theorem Disk.stat_remove_le (disk : Disk) (place other : Place) :
    ((disk.remove place).stat other).getD 0 ≤ (disk.stat other).getD 0 := by
  by_cases same : other = place
  · subst same
    rw [Disk.remove]
    split
    · exact le_rfl
    · have gone : (disk.filter fun entry => entry.place ≠ other).find? (fun entry => entry.place = other) = none := by
        simp
      rw [Disk.stat, gone]
      exact Nat.zero_le _
  · rw [Disk.stat_remove_of_ne same]

/-- The places that a removal touches. -/
def media (path : String) : List Place := [place path, cachedTranscodePath (place path)]

theorem cachedTranscodePath_ne (source : Place) : cachedTranscodePath source ≠ source := by
  intro same
  have long := congrArg (fun place => place.components.length) same
  cases found : source.components.getLast? with
  | none =>
    rw [List.getLast?_eq_none_iff] at found
    simp [cachedTranscodePath, found] at long
  | some last =>
    have given : source.components ≠ [] := by
      rintro empty
      rw [empty] at found
      cases found
    have positive := List.length_pos_of_ne_nil given
    simp [cachedTranscodePath, found] at long
    omega

/-- The bytes that a path holds on the disk, with its transcode. -/
def Disk.bytes (disk : Disk) (path : String) : Nat :=
  (disk.stat (place path)).getD 0 + (disk.stat (cachedTranscodePath (place path))).getD 0

theorem removeSegmentAndCache_freed (path : String) (disk : Disk) :
    (removeSegmentAndCache path disk).1 = disk.bytes path := by
  simp only [removeSegmentAndCache, Disk.stat_remove_of_ne (cachedTranscodePath_ne (place path)), Disk.bytes]
  split
  · rename_i absent
    rw [absent]
    rfl
  · rename_i size present
    rw [present]
    rfl

/-- A removal is one or two removals from the disk. -/
theorem removeSegmentAndCache_disk {P : Disk → Prop} {path : String} {disk : Disk} (held : P disk)
    (removed : ∀ disk place, place ∈ media path → P disk → P (disk.remove place)) :
    P (removeSegmentAndCache path disk).2 := by
  have first := removed disk (place path) (by simp [media]) held
  simp only [removeSegmentAndCache]
  split
  · exact first
  · exact removed _ _ (by simp [media]) first

theorem removeSegments_disk {P : Disk → Prop} {paths : List String} {disk : Disk} (held : P disk)
    (removed : ∀ disk place, place ∈ paths.flatMap media → P disk → P (disk.remove place)) :
    P (removeSegments paths disk).2 := by
  induction paths generalizing disk with
  | nil => exact held
  | cons path paths ih =>
    refine ih (removeSegmentAndCache_disk held fun disk place member => ?_) fun disk place member => ?_
    · exact removed disk place (List.mem_append_left _ member)
    · exact removed disk place (List.mem_append_right _ member)

/-- Removals elsewhere do not change what a path holds. -/
theorem bytes_removeSegments (paths : List String) {path : String} (disk : Disk)
    (apart : ∀ place ∈ media path, place ∉ paths.flatMap media) :
    (removeSegments paths disk).2.bytes path = disk.bytes path := by
  have same (place : Place) (member : place ∈ media path) : (removeSegments paths disk).2.stat place = disk.stat place := by
    refine removeSegments_disk (P := fun after => after.stat place = disk.stat place) rfl ?_
    intro after other touched unchanged
    rw [Disk.stat_remove_of_ne, unchanged]
    rintro rfl
    exact apart place member touched
  rw [Disk.bytes, Disk.bytes, same _ (by simp [media]), same _ (by simp [media])]

theorem bytes_removeSegments_le (paths : List String) (disk : Disk) (path : String) :
    (removeSegments paths disk).2.bytes path ≤ disk.bytes path := by
  have less (place : Place) : ((removeSegments paths disk).2.stat place).getD 0 ≤ (disk.stat place).getD 0 := by
    refine removeSegments_disk (P := fun after => (after.stat place).getD 0 ≤ (disk.stat place).getD 0) le_rfl ?_
    intro after other _ bounded
    exact (Disk.stat_remove_le after other place).trans bounded
  exact Nat.add_le_add (less _) (less _)

/-- No more is counted as freed than the paths held before. -/
theorem removeSegments_freed_le (paths : List String) (disk : Disk) :
    (removeSegments paths disk).1 ≤ (paths.map disk.bytes).sum := by
  induction paths generalizing disk with
  | nil => exact le_rfl
  | cons path paths ih =>
    have later : ((paths.map (removeSegmentAndCache path disk).2.bytes).sum) ≤ (paths.map disk.bytes).sum :=
      List.sum_le_sum fun other _ => bytes_removeSegments_le [path] disk other
    simp only [removeSegments, removeSegmentAndCache_freed, List.map_cons, List.sum_cons]
    exact Nat.add_le_add_left ((ih _).trans later) _

/-- Paths that share no place are all counted in full. -/
theorem removeSegments_freed {paths : List String} (apart : (paths.flatMap media).Nodup) (disk : Disk) :
    (removeSegments paths disk).1 = (paths.map disk.bytes).sum := by
  induction paths generalizing disk with
  | nil => rfl
  | cons path paths ih =>
    rw [List.flatMap_cons, List.nodup_append'] at apart
    obtain ⟨-, others, disjoint⟩ := apart
    have later : paths.map (removeSegmentAndCache path disk).2.bytes = paths.map disk.bytes := by
      apply List.map_congr_left
      intro other member
      refine bytes_removeSegments [path] disk fun place held touched => ?_
      rw [List.flatMap_singleton] at touched
      exact disjoint touched (List.mem_flatMap.mpr ⟨other, member, held⟩)
    simp only [removeSegments, removeSegmentAndCache_freed, List.map_cons, List.sum_cons, ih others, later]

end Ironsight.Retention
