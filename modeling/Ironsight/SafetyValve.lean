import Ironsight.StorageCaps

/-! The capacity safety valve. File systems are told apart by their total size; the
first location that reports a size is pruned for it, and later ones that report the
same size are passed over. -/
namespace Ironsight.Retention
open Tables Paths Runs

/-! ## Arithmetic -/

theorem targetUsed_eq (total : Nat) : targetUsed total = total * 4 / 5 := by
  have ratio : (total * capacitySafetyTargetAfterPrune : Rat) = ((total * 4 : Int) : Rat) / ((5 : Nat) : Rat) := by
    rw [capacitySafetyTargetAfterPrune]
    push_cast
    ring
  have floored : (total * capacitySafetyTargetAfterPrune : Rat).floor = (total * 4 : Int) / (5 : Nat) := by
    rw [ratio]
    exact Rat.floor_intCast_div_natCast _ _
  rw [targetUsed, floored]
  omega

/-- A disk above the threshold holds more than it is pruned down to. -/
theorem targetUsed_le {total used : Nat} (tripped : capacitySafetyThreshold < (used : Rat) / total) :
    targetUsed total ≤ used := by
  rw [targetUsed_eq]
  have positive : (0 : Rat) < total := by
    by_contra empty
    have zero : total = 0 := by
      have bounded : (total : Rat) ≤ 0 := not_lt.mp empty
      exact_mod_cast le_antisymm bounded (Nat.cast_nonneg total)
    rw [zero, Nat.cast_zero, div_zero] at tripped
    revert tripped
    norm_num [capacitySafetyThreshold]
  have above := (lt_div_iff₀ positive).mp tripped
  have scaled : (85 * total : Rat) < 100 * used := by
    rw [capacitySafetyThreshold] at above
    linarith
  have scaled' : 85 * total < 100 * used := by exact_mod_cast scaled
  omega

private theorem toInt64_sub {a b : Nat} (less : b ≤ a) (fits : a - b < 2 ^ 63) :
    toInt64 (subUint64 a b) = (a : Int) - b := by
  have wrapped : subUint64 a b = a - b := by
    rw [subUint64]
    omega
  have small : (((a - b : Nat) : Int)).bmod (2 ^ 64) = ((a - b : Nat) : Int) := by
    apply Int.bmod_eq_of_le
    · norm_num
    · norm_num
      omega
  rw [wrapped]
  unfold toInt64
  omega

/-- The subtraction does not wrap, and the result is an `int64`. -/
theorem toInt64_mustFree {total used : Nat} (bounded : total < 2 ^ 64) (within : used ≤ total)
    (target : targetUsed total ≤ used) :
    toInt64 (subUint64 used (targetUsed total)) = (used : Int) - targetUsed total := by
  refine toInt64_sub target ?_
  rw [targetUsed_eq] at target ⊢
  omega

theorem diskUsageForPath_bounds {statfs : String → Disk → Option Statfs} {path : String} {disk : Disk} {total used : Nat}
    (read : diskUsageForPath statfs path disk = some (total, used)) : used ≤ total ∧ total < 2 ^ 64 := by
  simp only [diskUsageForPath] at read
  split at read
  · cases read
  · split at read
    · cases read
    · cases read
      exact ⟨Nat.sub_le _ _, Nat.mod_lt _ (Nat.two_pow_pos 64)⟩

/-! ## Turns -/

/-- An earlier one of the locations has reported the total at its turn. -/
def Reported (env : Env) (statfs : String → Disk → Option Statfs) (fuel : Nat) (locations : List StorageLocation)
    (start : Pass) (total : Nat) : Prop :=
  ∃ earlier loc later seenFS before used, locations = earlier ++ loc :: later ∧
    earlier.foldlM (valveLocation env statfs fuel) ([], start) = some (seenFS, before) ∧ loc.holdsRecordings = true ∧
    diskUsageForPath statfs loc.path before.world.disk = some (total, used) ∧ total ≠ 0

section Turn
variable {env : Env} {statfs : String → Disk → Option Statfs} {fuel : Nat} {loc : StorageLocation}
  {seenFS : List Nat} {before : Pass}

variable (env statfs loc seenFS) in
/-- A turn ends, and keeps what each of its batches preserves. -/
private theorem valveLocation_rule {P : Pass → Prop} (enough : before.world.segments.rows.length < fuel) (held : P before)
    (preserved : ∀ batchFreed before after, P before → Batch (forwardSlashes loc.path) 100 before batchFreed after →
      P after) :
    ∃ next, valveLocation env statfs fuel (seenFS, before) loc = some next ∧ P next.2 := by
  simp only [valveLocation]
  split
  · exact ⟨_, rfl, held⟩
  · split
    · exact ⟨_, rfl, held⟩
    · split
      · exact ⟨_, rfl, held⟩
      · split
        · exact ⟨_, rfl, held⟩
        · obtain ⟨final, ran, result⟩ := pruneLoop_total (env.delete loc) _ (by omega) enough held preserved
          exact ⟨_, by rw [ran]; rfl, result⟩

/-- A turn adds the total that the location reports, if it reports one. -/
private theorem valveLocation_seen {seenFS' : List Nat} {after : Pass} {total : Nat}
    (ran : valveLocation env statfs fuel (seenFS, before) loc = some (seenFS', after)) :
    total ∈ seenFS' ↔ total ∈ seenFS ∨ loc.holdsRecordings = true ∧ ∃ used,
      diskUsageForPath statfs loc.path before.world.disk = some (total, used) ∧ total ≠ 0 := by
  cases valveLocation_turn ran with
  | passed known =>
    refine ⟨.inl, ?_⟩
    rintro (held | ⟨recordings, used, read, given⟩)
    · exact held
    · exact (known total used recordings read).resolve_left given
  | low recordings read new | pruned recordings read new =>
    rw [List.mem_cons, or_comm]
    refine or_congr_right ⟨?_, ?_⟩
    · rintro rfl
      exact ⟨recordings, _, read, fun zero => new (.inl zero)⟩
    · rintro ⟨-, _, again, -⟩
      cases read.symm.trans again
      rfl

/-- The turn of a location whose file system is above the threshold: it frees enough by its
own count, or leaves no segment. -/
private theorem valveLocation_tripped {total used : Nat} {seenFS' : List Nat} {after : Pass} (healthy : env.Healthy)
    (recordings : loc.holdsRecordings = true)
    (read : diskUsageForPath statfs loc.path before.world.disk = some (total, used)) (unseen : total ∉ seenFS)
    (full : capacitySafetyThreshold < (used : Rat) / total)
    (ran : valveLocation env statfs fuel (seenFS, before) loc = some (seenFS', after)) :
    used - targetUsed total ≤ after.totalBytes - before.totalBytes ∨
      sortedUnder (forwardSlashes loc.path) after.world.segments = [] := by
  obtain ⟨within, bounded⟩ := diskUsageForPath_bounds read
  have target := targetUsed_le full
  cases valveLocation_turn ran with
  | passed known =>
    rcases known total used recordings read with zero | seen
    · rw [zero, Nat.cast_zero, div_zero] at full
      revert full
      norm_num [capacitySafetyThreshold]
    · exact absurd seen unseen
  | low _ again _ below =>
    cases read.symm.trans again
    exact absurd below (not_le.mpr full)
  | pruned _ again _ _ pruned =>
    cases read.symm.trans again
    obtain ⟨freed, counted, ended⟩ := pruneLoop_rule (P := fun freed pass => pass.totalBytes = before.totalBytes + freed)
      (by omega) (fun _ _ _ _ _ counted batch => by rw [batch.counted, counted, Nat.add_assoc]) rfl pruned
    rcases ended with enough | empty | ⟨round, failed⟩
    · left
      have reached := of_decide_eq_false enough
      rw [toInt64_mustFree bounded within target] at reached
      omega
    · exact .inr empty
    · rw [healthy.delete loc round] at failed
      cases failed

/-- The turn of a location that reports a known total changes nothing. -/
private theorem valveLocation_passed {total used : Nat} {seenFS' : List Nat} {after : Pass}
    (read : diskUsageForPath statfs loc.path before.world.disk = some (total, used)) (seen : total ∈ seenFS)
    (ran : valveLocation env statfs fuel (seenFS, before) loc = some (seenFS', after)) : after = before := by
  cases valveLocation_turn ran with
  | passed | low => rfl
  | pruned _ again new =>
    cases read.symm.trans again
    exact absurd (.inr seen) new

end Turn

/-- The sizes seen are those reported. -/
theorem mem_seenFS {env : Env} {statfs : String → Disk → Option Statfs} {fuel : Nat} {locations : List StorageLocation}
    {start before : Pass} {seenFS : List Nat} {total : Nat}
    (ran : locations.foldlM (valveLocation env statfs fuel) ([], start) = some (seenFS, before)) :
    total ∈ seenFS ↔ Reported env statfs fuel locations start total := by
  induction locations using List.reverseRecOn generalizing seenFS before with
  | nil =>
    cases ran
    constructor
    · nofun
    · rintro ⟨earlier, loc, later, _, _, _, split, _⟩
      cases earlier <;> cases split
  | append_singleton locations loc ih =>
    rw [List.foldlM_append] at ran
    obtain ⟨⟨seen, middle⟩, first, last⟩ := Option.bind_eq_some_iff.mp ran
    have turn : valveLocation env statfs fuel (seen, middle) loc = some (seenFS, before) := by
      simpa using last
    rw [valveLocation_seen turn, ih first]
    constructor
    · rintro (⟨earlier, other, later, seen', before', used, rfl, rest⟩ | ⟨holds, used, read, given⟩)
      · exact ⟨earlier, other, later ++ [loc], seen', before', used, by simp, rest⟩
      · exact ⟨locations, loc, [], seen, middle, used, rfl, first, holds, read, given⟩
    · rintro ⟨earlier, other, later, seen', before', used, split, ranEarlier, holds, read, given⟩
      rcases List.eq_nil_or_concat later with rfl | ⟨later', final, rfl⟩
      · obtain ⟨same, same'⟩ := List.append_inj' split rfl
        cases same'
        subst same
        rw [first] at ranEarlier
        cases ranEarlier
        exact .inr ⟨holds, used, read, given⟩
      · have same : locations ++ [loc] = (earlier ++ other :: later') ++ [final] := by simpa using split
        obtain ⟨rfl, -⟩ := List.append_inj' same rfl
        exact .inl ⟨earlier, other, later', seen', before', used, rfl, ranEarlier, holds, read, given⟩

/-! ## A whole pass -/

/-- At its turn the location is the first to report this total, and its file system is
above the threshold. -/
structure Tripped (env : Env) (statfs : String → Disk → Option Statfs) (fuel : Nat)
    (earlier : List StorageLocation) (loc : StorageLocation) (start before : Pass) (total used : Nat) : Prop where
  holdsRecordings : loc.holdsRecordings = true
  read : diskUsageForPath statfs loc.path before.world.disk = some (total, used)
  first : ¬ Reported env statfs fuel earlier start total
  full : capacitySafetyThreshold < (used : Rat) / total

/-- Enough fuel takes every location its turn, and no turn adds a segment. -/
private theorem turns_run (env : Env) (statfs : String → Disk → Option Statfs) {fuel : Nat} (items : List StorageLocation)
    (state : List Nat × Pass) (fits : state.2.world.segments.rows.length < fuel) :
    ∃ final, items.foldlM (valveLocation env statfs fuel) state = some final ∧
      final.2.world.segments.rows.Sublist state.2.world.segments.rows := by
  refine foldlM_rule (fun next : List Nat × Pass =>
    next.2.world.segments.rows.Sublist state.2.world.segments.rows) (List.Sublist.refl _) ?_
  rintro loc - ⟨seenFS, pass⟩ fewer
  exact valveLocation_rule env statfs loc seenFS
    (P := fun next => next.world.segments.rows.Sublist state.2.world.segments.rows)
    (fewer.length_le.trans_lt fits) fewer fun _ _ _ kept batch => batch.sublist.trans kept

/-- The pass ends. At its turn, a location that is the first to report its total and whose
file system is above the threshold frees the excess over the target by its own count, or
no segment is left under it; the excess is computed without wrapping. A location that
reports a known total is passed over. -/
theorem safety_valve_acts (env : Env) (healthy : env.Healthy) (statfs : String → Disk → Option Statfs) (fuel : Nat)
    (locations : Table StorageLocation.id) (world : World) (enough : world.segments.rows.length < fuel) :
    ∃ final, enforceCapacitySafetyValve env statfs fuel locations world = some final ∧
      ∀ earlier loc later, listStorageLocations locations = earlier ++ loc :: later →
        ∃ seenFS before seenFS' after,
          earlier.foldlM (valveLocation env statfs fuel) ([], ⟨world, 0, 0⟩) = some (seenFS, before) ∧
          valveLocation env statfs fuel (seenFS, before) loc = some (seenFS', after) ∧
          (∀ total used, Tripped env statfs fuel earlier loc ⟨world, 0, 0⟩ before total used →
            targetUsed total ≤ used ∧
            toInt64 (subUint64 used (targetUsed total)) = (used : Int) - targetUsed total ∧
            (used - targetUsed total ≤ after.totalBytes - before.totalBytes ∨
              sortedUnder (forwardSlashes loc.path) final.world.segments = [])) ∧
          (∀ total used, diskUsageForPath statfs loc.path before.world.disk = some (total, used) →
            Reported env statfs fuel earlier ⟨world, 0, 0⟩ total → after = before) := by
  obtain ⟨⟨seen, final⟩, ran, -⟩ :=
    turns_run env statfs (listStorageLocations locations) ([], ⟨world, 0, 0⟩) enough
  refine ⟨final, ?_, fun earlier loc later split => ?_⟩
  · rw [enforceCapacitySafetyValve, if_neg (by simp [healthy.listLocations]), ran]
    rfl
  · obtain ⟨⟨seenFS, before⟩, ranEarlier, fewer⟩ := turns_run env statfs earlier ([], ⟨world, 0, 0⟩) enough
    have shorter : before.world.segments.rows.length < fuel := fewer.length_le.trans_lt enough
    obtain ⟨⟨seenFS', after⟩, turn, fewer'⟩ := valveLocation_rule env statfs loc seenFS
      (P := fun next => next.world.segments.rows.Sublist before.world.segments.rows) shorter
      (List.Sublist.refl _) fun _ _ _ kept batch => batch.sublist.trans kept
    obtain ⟨⟨seenFS'', last⟩, ranLater, fewer''⟩ :=
      turns_run env statfs later (seenFS', after) (fewer'.length_le.trans_lt shorter)
    have whole : last = final := by
      rw [split, List.foldlM_append, ranEarlier] at ran
      simp only [Option.bind_eq_bind, Option.bind_some, List.foldlM_cons, turn, ranLater] at ran
      cases ran
      rfl
    subst whole
    refine ⟨seenFS, before, seenFS', after, ranEarlier, turn, fun total used tripped => ?_, fun total used read known => ?_⟩
    · obtain ⟨within, bounded⟩ := diskUsageForPath_bounds tripped.read
      have target := targetUsed_le tripped.full
      refine ⟨target, toInt64_mustFree bounded within target, ?_⟩
      have unseen : total ∉ seenFS := fun seen => tripped.first ((mem_seenFS ranEarlier).mp seen)
      refine (valveLocation_tripped healthy tripped.holdsRecordings tripped.read unseen tripped.full turn).imp_right ?_
      intro empty
      rw [List.eq_nil_iff_forall_not_mem] at empty ⊢
      intro segment member
      obtain ⟨held, listed⟩ := mem_sortedUnder.mp member
      exact empty segment (mem_sortedUnder.mpr ⟨fewer''.subset held, listed⟩)
    · exact valveLocation_passed read ((mem_seenFS ranEarlier).mpr known) turn

/-- Disks of a hundred bytes, each filled by what lies in the directory. -/
private def hundredBytes (path : String) (disk : Disk) : Option Statfs :=
  let held := (disk.filter fun entry => entry.place.Within (place path)).map Entry.size
  some ⟨100, 100 - held.sum, 1⟩

private def barn : StorageLocation where
  id := ⟨8⟩
  path := "/b/"

private def cellar : StorageLocation where
  id := ⟨9⟩
  path := "/c/"
  priority := 1

private def barnAndCellar : Table StorageLocation.id := ⟨[barn, cellar], by decide⟩

private def stored (n : Nat) (filePath : String) (fileSize : Nat) : Segment :=
  ⟨n, ⟨10⟩, n, n + 1, filePath, fileSize⟩

private def bothFull : World where
  segments := ⟨[stored 0 "/b/x" 95, stored 1 "/c/y" 95], by decide⟩
  disk := [⟨place "/b/x", 95⟩, ⟨place "/c/y", 95⟩]

/-- Two locations of a hundred bytes, 95 of them taken on each. -/
theorem safety_valve_acts_barn :
    ∃ final, enforceCapacitySafetyValve {} hundredBytes 3 barnAndCellar bothFull = some final ∧
      ∃ seenFS' after, valveLocation {} hundredBytes 3 ([], ⟨bothFull, 0, 0⟩) barn = some (seenFS', after) ∧
        (95 - targetUsed 100 ≤ after.totalBytes ∨ sortedUnder (forwardSlashes barn.path) final.world.segments = []) := by
  obtain ⟨final, ran, turns⟩ := safety_valve_acts {} ⟨rfl, fun _ => rfl, fun _ _ => rfl⟩ hundredBytes 3 barnAndCellar
    bothFull (by decide)
  obtain ⟨seenFS, before, seenFS', after, start, turn, acts, -⟩ := turns [] barn [cellar] (by decide)
  cases start
  refine ⟨final, ran, seenFS', after, turn, ?_⟩
  have tripped : Tripped {} hundredBytes 3 [] barn ⟨bothFull, 0, 0⟩ ⟨bothFull, 0, 0⟩ 100 95 := {
    holdsRecordings := rfl
    read := by decide +kernel
    first := by
      rintro ⟨earlier, loc, later, _, _, _, split, _⟩
      cases earlier <;> cases split
    full := by decide +kernel }
  exact (acts 100 95 tripped).2.2

/-- A hundred rows without files, and a newer one whose file is there. -/
private def missingFiles : World where
  segments := ⟨(List.range 100).map (fun n => stored n "/b/x" 1) ++ [stored 100 "/b/y" 95],
    by simp [Function.comp_def, stored, List.nodup_append, List.nodup_map_iff Nat.cast_injective, List.nodup_range]; omega⟩
  disk := [⟨place "/b/y", 95⟩]

/-- Of two full disks of one size the second is left alone; and rows without files count
as freed, though the disk stays full. -/
theorem full_disks_left :
    (enforceCapacitySafetyValve {} hundredBytes 3 barnAndCellar bothFull).map (fun final =>
      (final.world.segments.rows, diskUsageForPath hundredBytes cellar.path final.world.disk)) =
      some ([stored 1 "/c/y" 95], some (100, 95)) ∧
    (enforceCapacitySafetyValve {} hundredBytes 102 ⟨[barn], by decide⟩ missingFiles).map (fun final =>
      (final.world.segments.rows, diskUsageForPath hundredBytes barn.path final.world.disk)) =
      some ([stored 100 "/b/y" 95], some (100, 95)) ∧
    cellar.holdsRecordings = true ∧ capacitySafetyThreshold < (95 : Rat) / 100 := by
  refine ⟨?_, ?_, ?_, ?_⟩ <;> decide +kernel

end Ironsight.Retention
