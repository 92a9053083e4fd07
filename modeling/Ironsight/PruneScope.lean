import Ironsight.StorageCaps

/-! The scope of a prune. A location's segments are those whose path begins with
the location's, read as a pattern: a sibling directory whose name goes on, or any
path that fits a wildcard, is pruned on the location's account. -/
namespace Ironsight.Retention
open Tables Uuid Paths LikePatterns

/-- The path closes its last component and holds nothing that a pattern or the change of
slashes would read otherwise. -/
def SafePath (path : String) : Prop :=
  path.toList.getLast? = some '/' ∧ ∀ c ∈ path.toList, c ≠ '\\' ∧ ¬ Wildcard c

instance (path : String) : Decidable (SafePath path) :=
  have : Decidable (∀ c ∈ path.toList, c ≠ '\\' ∧ ¬ Wildcard c) := List.decidableBAll _ _
  inferInstanceAs (Decidable (_ ∧ _))

/-- What went from the table lay in the directory of the location. -/
def StorageLocation.StaysInside (loc : StorageLocation) (before after : Pass) : Prop :=
  ∀ segment ∈ before.world.segments, segment ∉ after.world.segments →
    (place segment.filePath).Within (place loc.path)

/-- Every turn of the location in `enforceStorageCaps` stays inside. -/
def StorageLocation.CapScope (loc : StorageLocation) : Prop :=
  ∀ env fuel before after, capLocation env fuel before loc = some after → loc.StaysInside before after

/-- Every turn of the location in `enforceCapacitySafetyValve` stays inside. -/
def StorageLocation.ValveScope (loc : StorageLocation) : Prop :=
  ∀ env statfs fuel seenFS before seenFS' after,
    valveLocation env statfs fuel (seenFS, before) loc = some (seenFS', after) → loc.StaysInside before after

/-! ## Patterns and directories -/

private theorem toList_forwardSlashes (path : String) :
    (forwardSlashes path).toList = path.toList.map fun c => if c = '\\' then '/' else c := by
  simp [forwardSlashes]

private theorem forwardSlashes_plain {path : String} (plain : '\\' ∉ path.toList) :
    (forwardSlashes path).toList = path.toList := by
  rw [toList_forwardSlashes]
  conv_rhs => rw [← List.map_id path.toList]
  apply List.map_congr_left
  intro c member
  have differs : c ≠ '\\' := by
    rintro rfl
    exact plain member
  exact if_neg differs

private theorem unescaped_forwardSlashes (path : String) : '\\' ∉ (forwardSlashes path).toList := by
  rw [toList_forwardSlashes, List.mem_map]
  rintro ⟨c, -, same⟩
  split at same
  · cases same
  · contradiction

theorem within_of_under {path : String} (safe : SafePath path) {segment : Segment}
    (listed : under (forwardSlashes path) segment = true) : (place segment.filePath).Within (place path) := by
  have plain : '\\' ∉ path.toList := fun held => (safe.2 _ held).1 rfl
  rw [under, forwardSlashes_plain plain] at listed
  have starts := (like_plain plain fun c held => (safe.2 c held).2).mp listed
  refine ⟨?_, within_of_prefix safe.1 starts⟩
  obtain ⟨rest, same⟩ := starts
  have given : path.toList ≠ [] := by
    intro empty
    have closed := safe.1
    rw [empty] at closed
    cases closed
  simp only [place, ← same, List.head?_append_of_ne_nil _ given]

/-- The path takes in a file that lies elsewhere. -/
private def TakesInOutside (path : String) : Prop :=
  ∃ file : String, like ((forwardSlashes path).toList ++ ['%']) file.toList = true ∧ ¬ (place file).Within (place path)

private theorem outside_of_empty {path : String} (empty : path.toList = []) : TakesInOutside path := by
  refine ⟨"/x", ?_, ?_⟩
  · rw [forwardSlashes_plain (by simp [empty]), empty]
    decide
  · rintro ⟨rooted, -⟩
    rw [place, place, empty] at rooted
    revert rooted
    decide

/-- The name of a file beside the directory begins like the directory. -/
private theorem outside_of_open_end {path : String} (plain : '\\' ∉ path.toList) {last : Char}
    (ends : path.toList.getLast? = some last) (opened : last ≠ '/') : TakesInOutside path := by
  refine ⟨String.ofList (path.toList ++ ['x']), ?_, ?_⟩
  · rw [String.toList_ofList, forwardSlashes_plain plain]
    exact like_self plain _
  · rintro ⟨-, within⟩
    rw [place, place, String.toList_ofList] at within
    exact sibling_outside ends opened (by decide) within

/-- Another character in place of a wildcard leads elsewhere. -/
private theorem outside_of_wildcard {path : String} (plain : '\\' ∉ path.toList) {c : Char} (held : c ∈ path.toList)
    (wild : Wildcard c) : TakesInOutside path := by
  obtain ⟨before, after, split⟩ := List.append_of_mem held
  refine ⟨String.ofList (before ++ 'x' :: after), ?_, ?_⟩
  · rw [String.toList_ofList, forwardSlashes_plain plain, split]
    rw [split] at plain
    exact like_wildcard plain wild 'x'
  · rintro ⟨-, within⟩
    rw [place, place, String.toList_ofList, split] at within
    refine substitute_outside ?_ (by decide) ?_ within
    · rintro rfl
      revert wild
      decide
    · rintro rfl
      revert wild
      decide

/-- With slashes in place of backslashes the path names another place. -/
private theorem outside_of_backslash {path : String} (escapes : '\\' ∈ path.toList) : TakesInOutside path := by
  refine ⟨String.ofList ((forwardSlashes path).toList ++ ['x']), ?_, ?_⟩
  · rw [String.toList_ofList]
    exact like_self (unescaped_forwardSlashes path) _
  · rintro ⟨-, within⟩
    rw [place, place, String.toList_ofList] at within
    refine foreign_outside (by decide) escapes (fun held => ?_) within
    rcases List.mem_append.mp held with slashed | added
    · exact unescaped_forwardSlashes path slashed
    · revert added
      decide

/-- Any other path takes in a file that lies elsewhere. -/
theorem outside_of_unsafe {path : String} (unsafePath : ¬ SafePath path) :
    ∃ file : String, like ((forwardSlashes path).toList ++ ['%']) file.toList = true ∧
      ¬ (place file).Within (place path) := by
  by_cases plain : '\\' ∈ path.toList
  · exact outside_of_backslash plain
  · by_cases tame : ∀ c ∈ path.toList, ¬ Wildcard c
    · cases ends : path.toList.getLast? with
      | none => exact outside_of_empty (List.getLast?_eq_none_iff.mp ends)
      | some last =>
        refine outside_of_open_end plain ends ?_
        rintro rfl
        exact unsafePath ⟨ends, fun c held => ⟨fun same => plain (same ▸ held), tame c held⟩⟩
    · push Not at tame
      obtain ⟨c, held, wild⟩ := tame
      exact outside_of_wildcard plain held wild

/-! ## Turns -/

section Turn
variable {env : Env} {fuel : Nat} {loc : StorageLocation} {before after : Pass}

/-- A pruning loop deletes only what is under its prefix. -/
private theorem pruneLoop_under {delete : Nat → Bool} {pathPrefix : String} {limit : Nat} {wanting : Nat → Bool}
    {round : Nat} (positive : 0 < limit)
    (ran : pruneLoop delete pathPrefix limit wanting fuel round 0 before = some after) :
    ∀ segment ∈ before.world.segments, segment ∉ after.world.segments → under pathPrefix segment = true := by
  obtain ⟨_, deleted, -⟩ := pruneLoop_rule (P := fun _ pass => ∀ segment ∈ before.world.segments,
    segment ∉ pass.world.segments → under pathPrefix segment = true) positive
    (fun _ _ middle next _ held batch segment present gone => by
      by_cases kept : segment ∈ middle.world.segments
      · by_contra foreign
        refine gone (batch.kept.mpr ⟨kept, fun chosen => foreign ?_⟩)
        exact (mem_sortedUnder.mp (List.mem_of_mem_take chosen)).2
      · exact held segment present kept) (fun _ present gone => absurd present gone) ran
  exact deleted

private theorem staysInside_of_cases {limit : Nat} (safe : SafePath loc.path) (positive : 0 < limit)
    (turn : after = before ∨ ∃ delete wanting,
      pruneLoop delete (forwardSlashes loc.path) limit wanting fuel 0 0 before = some after) :
    loc.StaysInside before after := by
  rcases turn with rfl | ⟨delete, wanting, ran⟩
  · exact fun _ present gone => absurd present gone
  · exact fun segment present gone => within_of_under safe (pruneLoop_under positive ran segment present gone)

/-- One segment at the given path, larger than any cap of the location. -/
private def lonely (file : String) (fileSize : Nat) : Pass where
  world := ⟨⟨[⟨0, UUID.nil, 0, 1, file, fileSize⟩], by simp⟩, []⟩
  totalDeleted := 0
  totalBytes := 0

private theorem lonely_gone {file : String} {fileSize : Nat} {delete : Nat → Bool} {limit : Nat} {wanting : Nat → Bool}
    {round : Nat} (positive : 0 < limit) (healthy : ∀ round, delete round = true) (more : wanting 0 = true)
    (listed : like ((forwardSlashes loc.path).toList ++ ['%']) file.toList = true)
    (outside : ¬ (place file).Within (place loc.path))
    (ran : pruneLoop delete (forwardSlashes loc.path) limit wanting 2 round 0 (lonely file fileSize) = some after) :
    ¬ loc.StaysInside (lonely file fileSize) after := by
  have few : (sortedUnder (forwardSlashes loc.path) (lonely file fileSize).world.segments).length ≤ limit :=
    (sortedUnder_length_le _ _).trans positive
  have none := pruneLoop_all positive healthy more few ran
  intro inside
  refine outside (inside _ List.mem_cons_self fun kept => ?_)
  have found := mem_sortedUnder.mpr ⟨kept, listed⟩
  rw [none] at found
  cases found

private theorem usage_lonely {file : String} (listed : like ((forwardSlashes loc.path).toList ++ ['%']) file.toList = true)
    (fileSize : Nat) :
    getStorageUsageByPath (forwardSlashes loc.path) (lonely file fileSize).world.segments = fileSize := by
  have own : under (forwardSlashes loc.path) ⟨0, UUID.nil, 0, 1, file, fileSize⟩ = true := listed
  simp [getStorageUsageByPath, lonely, recorded, own]

private theorem healthy_default : ({} : Env).Healthy := ⟨rfl, fun _ => rfl, fun _ _ => rfl⟩

/-- A disk of a hundred bytes without a free one. -/
private def fullDisk (_ : String) (_ : Disk) : Option Statfs := some ⟨100, 0, 1⟩

private theorem valveLocation_fullDisk (recordings : loc.holdsRecordings = true) :
    valveLocation {} fullDisk fuel ([], before) loc =
      (pruneLoop (fun _ => true) (forwardSlashes loc.path) 100
        (fun freed => (freed : Int) < toInt64 (subUint64 100 (targetUsed 100))) fuel 0 0 before).map ([100], ·) := by
  have full : diskUsageForPath fullDisk loc.path before.world.disk = some (100, 100) := rfl
  have tripped : ¬ ((100 : Nat) : Rat) / (100 : Nat) ≤ capacitySafetyThreshold := by
    norm_num [capacitySafetyThreshold]
  simp only [valveLocation, full, recordings, Bool.true_eq_false, if_false, tripped]
  rfl

end Turn

/-- Whatever a capped location or a location of the safety valve prunes, in any state,
lies inside its directory just when its path is safe. -/
theorem prune_stays_inside_iff (loc : StorageLocation) :
    (loc.Capped → (loc.CapScope ↔ SafePath loc.path)) ∧
    (loc.holdsRecordings = true → (loc.ValveScope ↔ SafePath loc.path)) := by
  constructor
  · intro capped
    refine ⟨fun inside => ?_, fun safe _ _ _ _ ran => staysInside_of_cases safe (by omega) (capLocation_cases ran)⟩
    by_contra unsafePath
    obtain ⟨file, listed, outside⟩ := outside_of_unsafe unsafePath
    have more : decide (loc.maxBytes < (getStorageUsageByPath (forwardSlashes loc.path)
        (lonely file (loc.maxBytes.toNat + 1)).world.segments : Int) - ((0 : Nat) : Int)) = true := by
      rw [usage_lonely listed, decide_eq_true_eq]
      omega
    obtain ⟨after, ran⟩ := pruneLoop_ends (({} : Env).delete loc) (fun freed => loc.maxBytes <
      (getStorageUsageByPath (forwardSlashes loc.path) (lonely file (loc.maxBytes.toNat + 1)).world.segments : Int) -
        (freed : Int)) (by omega : 0 < 50) 0 0
      ((sortedUnder_length_le (forwardSlashes loc.path) (lonely file (loc.maxBytes.toNat + 1)).world.segments).trans_lt
        (by decide : 1 < 2))
    refine lonely_gone (by omega) (fun _ => rfl) more listed outside ran (inside {} 2 _ _ ?_)
    rw [capLocation_eq healthy_default capped]
    exact ran
  · intro recordings
    refine ⟨fun inside => ?_, fun safe _ _ _ _ _ _ _ ran =>
      staysInside_of_cases safe (by omega) (valveLocation_cases ran)⟩
    by_contra unsafePath
    obtain ⟨file, listed, outside⟩ := outside_of_unsafe unsafePath
    obtain ⟨after, ran⟩ := pruneLoop_ends (fun _ => true) (fun freed => (freed : Int) <
      toInt64 (subUint64 100 (targetUsed 100))) (by omega : 0 < 100) 0 0
      ((sortedUnder_length_le (forwardSlashes loc.path) (lonely file 1).world.segments).trans_lt (by decide : 1 < 2))
    refine lonely_gone (by omega) (fun _ => rfl) (by decide +kernel) listed outside ran
      (inside {} fullDisk 2 [] _ [100] _ ?_)
    rw [valveLocation_fullDisk recordings, ran]
    rfl

private def quay : StorageLocation where
  id := ⟨3⟩
  path := "/srv/quay/"
  maxGB := 500

/-- A path that ends in a slash and holds no wildcard. -/
theorem prune_stays_inside_quay : quay.CapScope ∧ quay.ValveScope :=
  ⟨((prune_stays_inside_iff quay).1 ⟨rfl, by decide⟩).mpr (by decide +kernel),
    ((prune_stays_inside_iff quay).2 rfl).mpr (by decide +kernel)⟩

private def siblings : Table StorageLocation.id :=
  ⟨[{ id := ⟨4⟩, path := "/srv/cam1", maxGB := 1 }, { id := ⟨5⟩, path := "/srv/cam10" }], by decide⟩

private def siblingFootage : World where
  segments := ⟨[⟨0, ⟨6⟩, 0, 1, "/srv/cam10/a.mp4", 2147483648⟩, ⟨1, ⟨7⟩, 2, 3, "/srv/cam1/b.mp4", 1048576⟩], by decide⟩
  disk := []

/-- The cap of one directory deletes the footage of its sibling, and all of its own. -/
theorem sibling_pruned :
    (enforceStorageCaps {} 3 siblings siblingFootage).map (fun final => final.world.segments.rows) = some [] ∧
      ¬ (place "/srv/cam10/a.mp4").Within (place "/srv/cam1") := by
  constructor <;> decide +kernel

end Ironsight.Retention
