import Ironsight.SafetyValve

/-! What becomes of the footage of a deleted row. The row of an event clip names the
directory into which ring segments were copied; such a directory is not empty, the
disk refuses to remove it, and the row that pointed to it is gone. -/
namespace Ironsight.Retention
open Tables Paths Runs

/-- Nothing is left at the place or below it. -/
def Gone (disk : Disk) (place : Place) : Prop := ∀ entry ∈ disk, ¬ entry.place.Within place

instance (disk : Disk) (place : Place) : Decidable (Gone disk place) :=
  inferInstanceAs (Decidable (∀ entry ∈ disk, ¬ entry.place.Within place))

/-- Rows as the two writers make them: each path is a name joined to a camera's output
directory, which lies in no clip. -/
structure Produced (outputs : List String) (world : World) : Prop where
  written : ∀ segment ∈ world.segments, ∃ outputDir ∈ outputs, ∃ name, segment.filePath = outputDir ++ "/" ++ name ∧
    outputDir ≠ "" ∧ name ≠ "" ∧ '/' ∉ name.toList ∧ name ≠ h264CacheDir
  apart : ∀ segment ∈ world.segments, ∀ outputDir ∈ outputs, ¬ (place outputDir).Within (place segment.filePath)

/-- A pass over footage, or all three. -/
inductive RetentionPass : World → World → Prop where
  | caps {final : Pass} (ran : enforceStorageCaps env fuel locations world = some final) :
      RetentionPass world final.world
  | days : RetentionPass world (enforceRetentionDays env cameras locations world).world
  | valve {final : Pass} (ran : enforceCapacitySafetyValve env statfs fuel locations world = some final) :
      RetentionPass world final.world
  | cleanup (ran : cleanup capsEnv daysEnv valveEnv statfs fuel cameras locations world = some after) :
      RetentionPass world after

/-! ## Removals -/

/-- Some rows went from the table, and what they name was removed one after the other. -/
def Removal (before after : World) : Prop :=
  ∃ batch : List Segment, (∀ segment ∈ batch, segment ∈ before.segments) ∧
    (∀ segment, segment ∈ after.segments ↔ segment ∈ before.segments ∧ segment ∉ batch) ∧
    after.disk = (removeSegments (batch.map Segment.filePath) before.disk).2

theorem Removal.refl (world : World) : Removal world world := ⟨[], by simp, by simp, rfl⟩

private theorem removeSegments_append (first second : List String) (disk : Disk) :
    (removeSegments (first ++ second) disk).2 = (removeSegments second (removeSegments first disk).2).2 := by
  induction first generalizing disk with
  | nil => rfl
  | cons path paths ih => exact ih _

theorem Removal.trans {first second third : World} (left : Removal first second) (right : Removal second third) :
    Removal first third := by
  obtain ⟨batch, held, kept, disk⟩ := left
  obtain ⟨batch', held', kept', disk'⟩ := right
  refine ⟨batch ++ batch', fun segment member => ?_, fun segment => ?_, ?_⟩
  · rcases List.mem_append.mp member with early | late
    · exact held segment early
    · exact ((kept segment).mp (held' segment late)).1
  · rw [kept', kept, List.mem_append, not_or, and_assoc]
  · rw [disk', disk, List.map_append, removeSegments_append]

theorem Batch.removal {pathPrefix : String} {limit batchFreed : Nat} {before after : Pass}
    (batch : Batch pathPrefix limit before batchFreed after) : Removal before.world after.world := by
  obtain ⟨gone, chosen, disk, -⟩ := batch.media
  refine ⟨gone, fun segment member => ?_, fun segment => ?_, disk⟩
  · exact (mem_sortedUnder.mp (List.mem_of_mem_take (chosen.mem_iff.mp member))).1
  · rw [batch.kept, chosen.mem_iff]

private theorem pruneLoop_removal {delete : Nat → Bool} {pathPrefix : String} {limit : Nat} {wanting : Nat → Bool}
    {fuel round : Nat} {before after : Pass} (positive : 0 < limit)
    (ran : pruneLoop delete pathPrefix limit wanting fuel round 0 before = some after) :
    Removal before.world after.world := by
  obtain ⟨_, removal, -⟩ := pruneLoop_rule (P := fun _ pass => Removal before.world pass.world) positive
    (fun _ _ _ _ _ removal batch => removal.trans batch.removal) (.refl _) ran
  exact removal

private theorem removal_of_cases {pathPrefix : String} {limit fuel : Nat} {before after : Pass} (positive : 0 < limit)
    (turn : after = before ∨ ∃ delete wanting, pruneLoop delete pathPrefix limit wanting fuel 0 0 before = some after) :
    Removal before.world after.world := by
  rcases turn with rfl | ⟨delete, wanting, ran⟩
  · exact .refl _
  · exact pruneLoop_removal positive ran

private theorem caps_removal {env : Env} {fuel : Nat} {locations : Table StorageLocation.id} {world : World} {pass : Pass}
    (ran : enforceStorageCaps env fuel locations world = some pass) : Removal world pass.world := by
  rw [enforceStorageCaps] at ran
  split at ran
  · cases ran
    exact .refl _
  · exact foldlM_invariant (fun pass => Removal world pass.world) (.refl _)
      (fun _ _ _ _ removal turn => removal.trans (removal_of_cases (by omega) (capLocation_cases turn))) ran

private theorem valve_removal {env : Env} {statfs : String → Disk → Option Statfs} {fuel : Nat}
    {locations : Table StorageLocation.id} {world : World} {pass : Pass}
    (ran : enforceCapacitySafetyValve env statfs fuel locations world = some pass) : Removal world pass.world := by
  rw [enforceCapacitySafetyValve] at ran
  split at ran
  · cases ran
    exact .refl _
  · obtain ⟨state, turns, rfl⟩ := Option.map_eq_some_iff.mp ran
    exact foldlM_invariant (fun state : List Nat × Pass => Removal world state.2.world) (.refl world)
      (fun _ _ _ _ removal turn => removal.trans (removal_of_cases (by omega) (valveLocation_cases turn))) turns

private theorem deleteOldSegments_removal (cameraID : Uuid.UUID) (before : Access.Instant) (world : World) :
    Removal world ⟨(deleteOldSegments cameraID before world.segments).2,
      (removeSegments ((deleteOldSegments cameraID before world.segments).1.map Segment.filePath) world.disk).2⟩ := by
  refine ⟨_, fun segment member => List.mem_of_mem_filter member, fun segment => ?_, rfl⟩
  rw [deleteOldSegments, Table.mem_remove, List.mem_filter]
  constructor
  · rintro ⟨held, kept⟩
    exact ⟨held, fun expired => Bool.eq_false_iff.mp kept expired.2⟩
  · rintro ⟨held, kept⟩
    exact ⟨held, Bool.eq_false_iff.mpr fun expired => kept ⟨held, expired⟩⟩

private theorem retainCamera_removal (env : Env) (fallback : Int) (state : List (String × Int) × Pass)
    (camera : Access.Camera) : Removal state.2.world (retainCamera env fallback state camera).2.world := by
  obtain ⟨cache, pass⟩ := state
  simp only [retainCamera]
  generalize siteRetention env cache (camera.siteId.getD "") = found
  generalize (if found.1 ≤ 0 ∧ 0 < fallback then fallback else found.1) = retentionDays
  split
  · exact .refl _
  · exact deleteOldSegments_removal _ _ pass.world

private theorem days_removal (env : Env) (cameras : List Access.Camera) (locations : Table StorageLocation.id)
    (world : World) : Removal world (enforceRetentionDays env cameras locations world).world := by
  rw [enforceRetentionDays]
  split
  · exact .refl _
  · exact List.foldlRecOn cameras _ (motive := fun state : List (String × Int) × Pass => Removal world state.2.world)
      (.refl world) fun state removal camera _ => removal.trans (retainCamera_removal env _ state camera)

theorem RetentionPass.removal {before after : World} (pass : RetentionPass before after) : Removal before after := by
  cases pass with
  | caps ran => exact caps_removal ran
  | days => exact days_removal _ _ _ _
  | valve ran => exact valve_removal ran
  | cleanup ran =>
    rw [Retention.cleanup] at ran
    obtain ⟨caps, first, ran⟩ := Option.bind_eq_some_iff.mp ran
    obtain ⟨valve, last, same⟩ := Option.bind_eq_some_iff.mp ran
    cases same
    exact (caps_removal first).trans ((days_removal _ _ _ _).trans (valve_removal last))

/-! ## Media -/

theorem Disk.mem_remove {disk : Disk} {place : Place} {entry : Entry} (kept : entry ∈ disk.remove place) :
    entry ∈ disk := by
  rw [Disk.remove] at kept
  split at kept
  · exact kept
  · exact List.mem_of_mem_filter kept

/-- Removals add nothing. -/
private theorem removeSegments_subset (paths : List String) (disk : Disk) :
    ∀ entry ∈ (removeSegments paths disk).2, entry ∈ disk :=
  removeSegments_disk (P := fun after => ∀ entry ∈ after, entry ∈ disk) (fun _ held => held)
    fun _ _ _ fewer entry kept => fewer entry (Disk.mem_remove kept)

theorem Disk.occupied_eq_false {disk : Disk} {place : Place} :
    disk.occupied place = false ↔ ∀ entry ∈ disk, ¬ entry.place.Below place := by
  simp [Disk.occupied]

theorem Gone.mono {before after : Disk} {place : Place} (fewer : ∀ entry ∈ after, entry ∈ before)
    (gone : Gone before place) : Gone after place :=
  fun entry held => gone entry (fewer entry held)

private theorem gone_remove {disk : Disk} {place : Place} (bare : disk.occupied place = false) :
    Gone (disk.remove place) place := by
  intro entry kept within
  rw [Disk.remove, if_neg (by simp [bare])] at kept
  obtain ⟨held, differs⟩ := List.mem_filter.mp kept
  exact Disk.occupied_eq_false.mp bare entry held ⟨within, by simpa using differs⟩

private theorem gone_removeSegmentAndCache {path : String} {disk : Disk} (bare : disk.occupied (place path) = false) :
    Gone (removeSegmentAndCache path disk).2 (place path) := by
  have cleared := gone_remove bare
  simp only [removeSegmentAndCache]
  split
  · exact cleared
  · exact cleared.mono fun _ => Disk.mem_remove

/-- A place that holds nothing below it is cleared. -/
private theorem gone_of_removed {paths : List String} {path : String} {disk : Disk} (removed : path ∈ paths)
    (bare : disk.occupied (place path) = false) : Gone (removeSegments paths disk).2 (place path) := by
  induction paths generalizing disk with
  | nil => cases removed
  | cons first paths ih =>
    rcases List.mem_cons.mp removed with rfl | later
    · exact (gone_removeSegmentAndCache bare).mono (removeSegments_subset paths _)
    · apply ih later
      rw [Disk.occupied_eq_false] at bare ⊢
      exact fun entry held => bare entry (removeSegments_subset [first] disk entry held)

/-- An entry stays that no path names. -/
private theorem mem_removeSegments {paths : List String} {entry : Entry} {disk : Disk} (held : entry ∈ disk)
    (unnamed : entry.place ∉ paths.flatMap media) : entry ∈ (removeSegments paths disk).2 := by
  refine removeSegments_disk (P := fun after => entry ∈ after) held ?_
  intro after other touched kept
  rw [Disk.remove]
  split
  · exact kept
  · refine List.mem_filter.mpr ⟨kept, decide_eq_true ?_⟩
    rintro rfl
    exact unnamed touched

private theorem cachedTranscodePath_child (directory : Place) (name : List Char) :
    cachedTranscodePath (directory.child name) = (directory.child h264CacheDir.toList).child name := by
  simp [cachedTranscodePath, Place.child]

/-- What lies below a name in one directory, and is a name in another, puts the other
directory at or below the first name. -/
private theorem below_child {inner outer directory : Place} {name : List Char} (below : inner.Below outer)
    (same : inner = directory.child name) : directory.Within outer := by
  obtain ⟨⟨rooted, within⟩, differs⟩ := below
  subst same
  rcases List.prefix_concat_iff.mp within with whole | inside
  · refine absurd ?_ differs
    cases outer
    cases rooted
    cases whole
    rfl
  · exact ⟨rooted, inside⟩

/-- What lies in a clip is no row's segment or transcode. -/
private theorem Produced.unnamed {outputs : List String} {world : World} (produced : Produced outputs world)
    {segment other : Segment} (held : segment ∈ world.segments) (held' : other ∈ world.segments) {inner : Place}
    (below : inner.Below (place segment.filePath)) : inner ∉ media other.filePath := by
  obtain ⟨outputDir', listed', name', path', some, some', plain', -⟩ := produced.written other held'
  have apart := produced.apart segment held outputDir' listed'
  rw [path', media, place_join some some' plain', cachedTranscodePath_child]
  intro touched
  simp only [List.mem_cons, List.not_mem_nil, or_false] at touched
  rcases touched with named | cached
  · exact apart (below_child below named)
  · obtain ⟨outputDir, listed, name, path, given, given', plain, visible⟩ := produced.written segment held
    have inside := below_child below cached
    by_cases same : (place outputDir').child h264CacheDir.toList = place segment.filePath
    · rw [path, place_join given given' plain] at same
      have components := congrArg Place.components same
      obtain ⟨-, last⟩ := List.append_inj' components rfl
      exact visible (String.toList_injective (List.cons.inj last).1.symm)
    · exact apart (below_child ⟨inside, same⟩ rfl)

/-- A deleted row leaves nothing on the disk just when its path was not a directory that
held something. -/
theorem removed_media_gone_iff (outputs : List String) (before after : World) (produced : Produced outputs before)
    (pass : RetentionPass before after) (segment : Segment) (held : segment ∈ before.segments)
    (deleted : segment ∉ after.segments) :
    Gone after.disk (place segment.filePath) ↔ before.disk.occupied (place segment.filePath) = false := by
  obtain ⟨batch, chosen, kept, disk⟩ := pass.removal
  have removed : segment ∈ batch := by
    by_contra spared
    exact deleted ((kept segment).mpr ⟨held, spared⟩)
  rw [disk]
  constructor
  · intro gone
    rw [Disk.occupied_eq_false]
    intro entry present below
    refine gone entry (mem_removeSegments present ?_) below.1
    rw [List.flatMap_map, List.mem_flatMap]
    rintro ⟨other, member, touched⟩
    exact produced.unnamed held (chosen other member) below touched
  · exact gone_of_removed (List.mem_map_of_mem removed)

private def silo : StorageLocation where
  id := ⟨11⟩
  path := "/silo"

private def siloCamera : Access.Camera where
  id := ⟨12⟩
  name := "Silo"
  siteId := none

private def siloWorld (filePath : String) (disk : Disk) : World where
  segments := ⟨[⟨0, siloCamera.id, 0, 1, filePath, 4096⟩], by simp⟩
  disk := disk

/-- A pass long after both writers were at work. -/
private def siloPass (world : World) : World :=
  (enforceRetentionDays { now := fun _ => 10000000000000000 } [siloCamera] ⟨[silo], by decide⟩ world).world

private def siloRecording : World := siloWorld "/silo/1/seg.mp4" [⟨place "/silo/1/seg.mp4", 4096⟩]

/-- One old recording of the silo. -/
theorem removed_media_gone_silo : Gone (siloPass siloRecording).disk (place "/silo/1/seg.mp4") := by
  have produced : Produced ["/silo/1"] siloRecording := {
    written := by
      intro segment member
      rw [List.mem_singleton.mp member]
      exact ⟨"/silo/1", List.mem_singleton_self _, "seg.mp4", by decide⟩
    apart := by
      intro segment member outputDir listed
      rw [List.mem_singleton.mp member, List.mem_singleton.mp listed]
      decide }
  refine (removed_media_gone_iff ["/silo/1"] siloRecording (siloPass siloRecording) produced .days _
    List.mem_cons_self ?_).mpr ?_ <;> decide +kernel

/-- The row of a clip goes, and the copies in its directory stay. -/
theorem clip_orphaned :
    let clip := siloWorld "/silo/1/clip_motion_20260101_000000"
      [⟨place "/silo/1/clip_motion_20260101_000000", 4096⟩,
        ⟨place "/silo/1/clip_motion_20260101_000000/ring_20260101_000000.mp4", 4096⟩]
    (siloPass clip).segments.rows = [] ∧ (siloPass clip).disk = clip.disk ∧
      ¬ Gone (siloPass clip).disk (place "/silo/1/clip_motion_20260101_000000") := by
  refine ⟨?_, ?_, ?_⟩ <;> decide +kernel

end Ironsight.Retention
