import Ironsight.Retention

/-! A retention pass some of whose lookups fail, beside the pass over the same data in
which none does. -/
namespace Ironsight.RetentionFailures
open Tables Access Retention

/-- The lookups and deletions of one pass that fail. -/
structure Faults where
  listCameras : Bool := false
  listLocations : Bool := false
  getSite : String → Bool := fun _ => false
  deleteOld : Camera → Bool := fun _ => false

def Faults.none : Faults := {}

/-- A pass over sites with the given windows, as the faults let it see them. -/
def passEnv (sites : String → Option Int) (now : Camera → Instant) (faults : Faults) : Env where
  listLocations := !faults.listLocations
  listCameras := !faults.listCameras
  deleteOld camera := !faults.deleteOld camera
  getSite siteID := if faults.getSite siteID then Option.none else sites siteID
  now := now

/-- A row of `segments` that the pass takes away. -/
def Deleted (env : Env) (cameras : Table Camera.id) (locations : Table StorageLocation.id) (world : World)
    (segment : Segment) : Prop :=
  segment ∈ world.segments ∧ segment ∉ (enforceRetentionDays env cameras.rows locations world).world.segments

/-! ## What a pass deletes -/

/-- The days of a site as the pass reads them. -/
def siteDays (env : Env) (siteID : String) : Int :=
  if siteID = "" then 0 else (env.getSite siteID).getD 0

/-- Days that are not positive give way to a default that is. -/
def chosenDays (days fallback : Int) : Int := if days ≤ 0 ∧ 0 < fallback then fallback else days

/-- The default window the pass starts from. -/
def defaultDays (env : Env) (locations : Table StorageLocation.id) : Int :=
  fallbackRetention (if env.listLocations then listStorageLocations locations else [])

/-- The segment lies outside the window that the pass takes for the camera. -/
structure Expires (env : Env) (fallback : Int) (camera : Camera) (segment : Segment) : Prop where
  window : 0 < chosenDays (siteDays env (camera.siteId.getD "")) fallback
  deleted : env.deleteOld camera = true
  owned : segment.cameraID = camera.id
  old : segment.endTime < cutoff (env.now camera) (chosenDays (siteDays env (camera.siteId.getD "")) fallback)

/-- The cache of a pass holds what a fresh lookup would give. -/
def Cached (env : Env) (cache : List (String × Int)) : Prop :=
  ∀ cached ∈ cache, cached.2 = (env.getSite cached.1).getD 0

section Pass
variable {env : Env} (fallback : Int)

theorem siteRetention_exact {cache : List (String × Int)} (faithful : Cached env cache) (siteID : String) :
    (siteRetention env cache siteID).1 = siteDays env siteID ∧ Cached env (siteRetention env cache siteID).2 := by
  rw [siteRetention, siteDays]
  split
  · exact ⟨rfl, faithful⟩
  · split
    · next cached found =>
      have named : cached.1 = siteID := by simpa using List.find?_some found
      have read := faithful cached (List.mem_of_find?_eq_some found)
      exact ⟨by rw [read, named], faithful⟩
    · refine ⟨rfl, ?_⟩
      rintro cached (_ | ⟨_, member⟩)
      · rfl
      · exact faithful cached member

/-- What one camera's turn leaves. -/
theorem retainCamera_exact {state : List (String × Int) × Pass} (faithful : Cached env state.1) (camera : Camera) :
    Cached env (retainCamera env fallback state camera).1 ∧
      ∀ segment, segment ∈ (retainCamera env fallback state camera).2.world.segments ↔
        segment ∈ state.2.world.segments ∧ ¬ Expires env fallback camera segment := by
  obtain ⟨cache, pass⟩ := state
  obtain ⟨days, kept⟩ := siteRetention_exact faithful (camera.siteId.getD "")
  simp only [retainCamera]
  rw [show (if (siteRetention env cache (camera.siteId.getD "")).1 ≤ 0 ∧ 0 < fallback then fallback
      else (siteRetention env cache (camera.siteId.getD "")).1) =
      chosenDays (siteDays env (camera.siteId.getD "")) fallback by rw [chosenDays, ← days]]
  split
  · next idle =>
    refine ⟨kept, fun segment => ⟨fun held => ⟨held, fun expires => ?_⟩, And.left⟩⟩
    rcases idle with closed | refused
    · exact absurd expires.window (by omega)
    · exact absurd expires.deleted (by simp [refused])
  · next active =>
    rw [not_or, not_le] at active
    refine ⟨kept, fun segment => ?_⟩
    rw [deleteOldSegments, Table.mem_remove, decide_eq_false_iff_not]
    refine and_congr_right fun _ => not_congr ⟨fun expired => ?_, fun expires => ⟨expires.owned, expires.old⟩⟩
    exact ⟨active.1, by simpa using active.2, expired.1, expired.2⟩

/-- What the turns of all cameras leave, whatever the cache has come to hold. -/
theorem retainCameras_exact (cameras : List Camera) {state : List (String × Int) × Pass}
    (faithful : Cached env state.1) (segment : Segment) :
    segment ∈ (cameras.foldl (retainCamera env fallback) state).2.world.segments ↔
      segment ∈ state.2.world.segments ∧ ∀ camera ∈ cameras, ¬ Expires env fallback camera segment := by
  induction cameras generalizing state with
  | nil => simp
  | cons camera rest ih =>
    obtain ⟨kept, turn⟩ := retainCamera_exact fallback faithful camera
    rw [List.foldl_cons, ih kept, turn, and_assoc, List.forall_mem_cons]

end Pass

/-- The pass deletes exactly what expires under the window it takes for some camera. -/
theorem deleted_iff {env : Env} {cameras : Table Camera.id} {locations : Table StorageLocation.id} {world : World}
    {segment : Segment} :
    Deleted env cameras locations world segment ↔ env.listCameras = true ∧ segment ∈ world.segments ∧
      ∃ camera ∈ cameras, Expires env (defaultDays env locations) camera segment := by
  rw [Deleted, enforceRetentionDays]
  split
  · next unlisted => simp [unlisted]
  · next listed =>
    have unread : Cached env [] := by simp [Cached]
    rw [retainCameras_exact _ cameras.rows unread]
    rw [Bool.not_eq_false] at listed
    simp only [listed, true_and]
    refine and_congr_right fun held => ?_
    rw [not_and, not_forall]
    simp [held, Table.mem_def, defaultDays]

/-! ## Two passes -/

/-- The pass reads the camera's site as one without a policy, and the default it takes in
its place lets the segment go while the site's own window holds it. -/
structure Misjudged (sites : String → Option Int) (now : Camera → Instant) (faults : Faults)
    (locations : Table StorageLocation.id) (camera : Camera) (segment : Segment) : Prop where
  unread : ∃ siteID, camera.siteId = some siteID ∧ siteID ≠ "" ∧ faults.getSite siteID = true ∧
    ∃ days, sites siteID = some days ∧ 0 < days ∧ cutoff (now camera) days ≤ segment.endTime
  default : 0 < fallbackRetention (listStorageLocations locations)
  old : segment.endTime < cutoff (now camera) (fallbackRetention (listStorageLocations locations))

section Two
variable {sites : String → Option Int} {now : Camera → Instant} {faults : Faults}
  {cameras : Table Camera.id} {locations : Table StorageLocation.id} {world : World}

/-- Without the locations the pass has no default. -/
theorem defaultDays_passEnv : defaultDays (passEnv sites now faults) locations =
    if faults.listLocations then 0 else fallbackRetention (listStorageLocations locations) := by
  rw [defaultDays, passEnv]
  cases faults.listLocations <;> rfl

theorem siteDays_passEnv (siteID : String) : siteDays (passEnv sites now faults) siteID =
    if faults.getSite siteID then 0 else siteDays (passEnv sites now .none) siteID := by
  simp only [siteDays, passEnv, Faults.none]
  split
  · split <;> rfl
  · cases faults.getSite siteID <;> rfl

/-- A policy comes from the row of the camera's site. -/
private theorem site_of_policy {assigned : Option String}
    (policy : 0 < siteDays (passEnv sites now .none) (assigned.getD "")) :
    ∃ siteID, assigned = some siteID ∧ siteID ≠ "" ∧
      sites siteID = some (siteDays (passEnv sites now .none) siteID) := by
  cases assigned with
  | none => simp [siteDays] at policy
  | some siteID =>
    rw [Option.getD_some] at policy
    have named : siteID ≠ "" := by
      rintro rfl
      simp [siteDays] at policy
    refine ⟨siteID, rfl, named, ?_⟩
    cases live : sites siteID with
    | none => simp [siteDays, passEnv, Faults.none, live] at policy
    | some days => simp [siteDays, passEnv, Faults.none, live, named]

/-- The camera's site can be read: with a default missing only its policy is left. -/
private theorem expires_of_read {camera : Camera} {segment : Segment}
    (read : faults.getSite (camera.siteId.getD "") = false)
    (expires : Expires (passEnv sites now faults) (defaultDays (passEnv sites now faults) locations) camera segment) :
    Expires (passEnv sites now .none) (fallbackRetention (listStorageLocations locations)) camera segment := by
  obtain ⟨window, -, owned, old⟩ := expires
  rw [siteDays_passEnv, defaultDays_passEnv] at window old
  simp only [read, Bool.false_eq_true, if_false] at window old
  cases unlisted : faults.listLocations with
  | false =>
    simp only [unlisted, Bool.false_eq_true, if_false] at window old
    exact ⟨window, rfl, owned, old⟩
  | true =>
    simp only [unlisted, if_true] at window old
    generalize days : siteDays (passEnv sites now .none) (camera.siteId.getD "") = policy at window old
    have positive : 0 < policy := by
      rw [chosenDays] at window
      split at window <;> omega
    have own : ∀ fallback, chosenDays policy fallback = policy := fun fallback =>
      if_neg fun absent => not_lt.mpr absent.1 positive
    rw [own] at old
    exact ⟨by rwa [days, own], rfl, owned, by rwa [days, own]⟩

/-- The camera's site cannot be read: the default was taken. -/
private theorem expires_or_misjudged_of_unread {camera : Camera} {segment : Segment}
    (failed : faults.getSite (camera.siteId.getD "") = true)
    (expires : Expires (passEnv sites now faults) (defaultDays (passEnv sites now faults) locations) camera segment) :
    Expires (passEnv sites now .none) (fallbackRetention (listStorageLocations locations)) camera segment ∨
      faults.listLocations = false ∧ Misjudged sites now faults locations camera segment := by
  obtain ⟨window, -, owned, old⟩ := expires
  rw [siteDays_passEnv, defaultDays_passEnv, if_pos failed] at window old
  generalize defaults : fallbackRetention (listStorageLocations locations) = fallback at window old ⊢
  cases unlisted : faults.listLocations with
  | true => simp [unlisted, chosenDays] at window
  | false =>
    simp only [unlisted, Bool.false_eq_true, if_false] at window old
    have positive : 0 < fallback := by
      rw [chosenDays] at window
      split at window <;> omega
    rw [chosenDays, if_pos ⟨le_rfl, positive⟩] at window old
    by_cases policy : siteDays (passEnv sites now .none) (camera.siteId.getD "") ≤ 0
    · refine .inl ⟨?_, rfl, owned, ?_⟩ <;> rwa [chosenDays, if_pos ⟨policy, positive⟩]
    · by_cases within : segment.endTime <
          cutoff (now camera) (siteDays (passEnv sites now .none) (camera.siteId.getD ""))
      · refine .inl ⟨?_, rfl, owned, ?_⟩ <;> rw [chosenDays, if_neg fun absent => policy absent.1]
        · exact not_le.mp policy
        · exact within
      · obtain ⟨siteID, assigned, named, live⟩ := site_of_policy (not_le.mp policy)
        simp only [assigned, Option.getD_some] at failed policy within
        exact .inr ⟨rfl, ⟨siteID, assigned, named, failed, _, live, not_le.mp policy, not_lt.mp within⟩,
          defaults ▸ positive, defaults ▸ old⟩

/-- What expires in the pass with faults expires in the one without, unless the camera's
site was misjudged. -/
theorem expires_or_misjudged {camera : Camera} {segment : Segment}
    (expires : Expires (passEnv sites now faults) (defaultDays (passEnv sites now faults) locations) camera segment) :
    Expires (passEnv sites now .none) (fallbackRetention (listStorageLocations locations)) camera segment ∨
      faults.listLocations = false ∧ Misjudged sites now faults locations camera segment := by
  cases read : faults.getSite (camera.siteId.getD "") with
  | false => exact .inl (expires_of_read read expires)
  | true => exact expires_or_misjudged_of_unread read expires

/-- A misjudged camera loses the segment in the pass with faults, and keeps it in the
one without. -/
theorem Misjudged.expires {camera : Camera} {segment : Segment}
    (misjudged : Misjudged sites now faults locations camera segment) (listed : faults.listLocations = false)
    (deleted : faults.deleteOld camera = false) (owned : segment.cameraID = camera.id) :
    Expires (passEnv sites now faults) (defaultDays (passEnv sites now faults) locations) camera segment ∧
      ¬ Expires (passEnv sites now .none) (fallbackRetention (listStorageLocations locations)) camera segment := by
  obtain ⟨⟨siteID, assigned, named, failed, days, live, policy, within⟩, positive, old⟩ := misjudged
  constructor
  · have taken : chosenDays (siteDays (passEnv sites now faults) (camera.siteId.getD ""))
        (defaultDays (passEnv sites now faults) locations) = fallbackRetention (listStorageLocations locations) := by
      rw [siteDays_passEnv, defaultDays_passEnv, assigned, Option.getD_some, if_pos failed, listed]
      exact if_pos ⟨le_rfl, positive⟩
    exact ⟨by rwa [taken], by simp [passEnv, deleted], owned, by rwa [taken]⟩
  · rintro ⟨-, -, -, expired⟩
    have read : siteDays (passEnv sites now .none) (camera.siteId.getD "") = days := by
      simp [assigned, siteDays, passEnv, Faults.none, live, named]
    rw [read, chosenDays, if_neg fun absent => not_lt.mpr absent.1 policy] at expired
    exact absurd expired (not_lt.mpr within)

/-- A pass with failing lookups deletes nothing that it would otherwise keep exactly when
no camera whose turn comes is misjudged over a segment of its own. -/
theorem faults_delete_no_more_iff (sites : String → Option Int) (now : Camera → Instant) (faults : Faults)
    (cameras : Table Camera.id) (locations : Table StorageLocation.id) (world : World) :
    (∀ segment, Deleted (passEnv sites now faults) cameras locations world segment →
        Deleted (passEnv sites now .none) cameras locations world segment) ↔
      (faults.listCameras = false → faults.listLocations = false →
        ∀ camera ∈ cameras, faults.deleteOld camera = false →
          ∀ segment ∈ world.segments, segment.cameraID = camera.id →
            ¬ Misjudged sites now faults locations camera segment) := by
  simp only [deleted_iff]
  constructor
  · intro covered listed found camera member deleted segment held owned misjudged
    obtain ⟨expires, kept⟩ := misjudged.expires found deleted owned
    obtain ⟨-, -, other, present, expired⟩ :=
      covered segment ⟨by simp [passEnv, listed], held, camera, member, expires⟩
    have same : other = camera := Table.key_inj present member (expired.owned.symm.trans owned)
    exact kept (same ▸ expired)
  · rintro sound segment ⟨listed, held, camera, member, expires⟩
    refine ⟨rfl, held, camera, member, ?_⟩
    rcases expires_or_misjudged expires with expired | ⟨found, misjudged⟩
    · exact expired
    · exact absurd misjudged (sound (by simpa [passEnv] using listed) found camera member
        (by simpa [passEnv] using expires.deleted) segment held expires.owned)

end Two

/-- Footage of sixty days at a site that keeps ninety is deleted under the default of
thirty, since the site could not be read. -/
theorem unread_site_loses_footage :
    let day : Instant := 24 * 3600 * 1000000000
    let camera : Camera := { id := ⟨1⟩, name := "Gate", siteId := some "hq" }
    let segment : Segment := ⟨7, ⟨1⟩, 39 * day, 40 * day, "/recordings/gate/7.mp4", 10⟩
    let cameras : Table Camera.id := ⟨[camera], by decide⟩
    let locations : Table StorageLocation.id := ⟨[{ id := ⟨2⟩, path := "/recordings" }], by decide⟩
    let world : World := ⟨⟨[segment], by decide⟩, []⟩
    let sites := fun siteID => if siteID = "hq" then some (90 : Int) else none
    let faults : Faults := { getSite := fun _ => true }
    let env := fun faults => passEnv sites (fun _ => 100 * day) faults
    Deleted (env faults) cameras locations world segment ∧
      ¬ Deleted (env .none) cameras locations world segment := by
  simp only [Deleted]
  decide +kernel

end Ironsight.RetentionFailures
