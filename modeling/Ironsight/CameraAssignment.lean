import Ironsight.Access
import Ironsight.Runs

/-! Assigning cameras to sites. A camera's site is what `AuthorizedCameraIDs`
goes by, so every request that moves a camera also moves it between the views
of the users those sites are assigned to. Neither handler looks at its caller. -/
namespace Ironsight.CameraAssignment
open Tables Runs Uuid Access

/-- A row of `device_assignments`. -/
structure DeviceAssignment where
  deviceType : String
  deviceId : String
  siteId : String
  locationLabel : String
  assignedAt : Instant
  removedAt : Option Instant := none
  deriving DecidableEq

/-- The directory, with the history of the devices. -/
structure State extends Directory where
  assignments : List DeviceAssignment
  deriving DecidableEq

/-- The clock, and which of a request's three statements fail. -/
structure Env where
  now : Instant := 0
  closeFails : Bool := false
  updateFault : Option String := none
  openFails : Bool := false

structure AssignBody where
  cameraId : String := ""
  locationLabel : String := ""
  deriving DecidableEq

inductive Request where
  | assign (siteId : String) (body : Option AssignBody)
  | unassign (cameraId : String)
  deriving DecidableEq

/-- One authenticated request. -/
structure Call where
  claims : Claims
  request : Request
  env : Env := {}

/-- Closes the device's open assignment records; the error is dropped. -/
def closeAssignments (env : Env) (cameraId : String) (state : State) : State :=
  if env.closeFails then state
  else { state with
    assignments := state.assignments.map fun row =>
      if row.deviceType = "camera" ∧ row.deviceId = cameraId ∧ row.removedAt = none then
        { row with removedAt := some env.now }
      else row }

/-- `UPDATE cameras SET site_id, location WHERE id`. -/
def place (cameras : Table Camera.id) (id : UUID) (site : Option String) (location : String) :
    Table Camera.id :=
  cameras.modify (fun camera => camera.id = id)
    (fun camera => { camera with siteId := site, location := location }) fun _ => rfl

/-- The camera update of both handlers, with the foreign key on the site. -/
def updateCamera (env : Env) (state : State) (cameraId : String) (site : Option String) (location : String) :
    Except String State :=
  match env.updateFault with
  | some err => .error err
  | none => match uuidIn cameraId with
    | none => .error (invalidUuid cameraId)
    | some id =>
      if state.cameras.find? id ≠ none ∧ ∃ siteId ∈ site, state.sites.find? siteId = none then
        .error (foreignKeyViolation "cameras" "cameras_site_id_fkey")
      else .ok { state with cameras := place state.cameras id site location }

/-- `AssignCameraToSite`; the error of the last insert is dropped. -/
def assignCameraToSite (env : Env) (state : State) (cameraId siteId location : String) :
    State × Option String :=
  let closed := closeAssignments env cameraId state
  match updateCamera env closed cameraId (some siteId) location with
  | .error err => (closed, some err)
  | .ok moved =>
    if env.openFails then (moved, none)
    else ({ moved with
      assignments := moved.assignments ++ [⟨"camera", cameraId, siteId, location, env.now, none⟩] }, none)

/-- `UnassignCameraFromSite`. -/
def unassignCameraFromSite (env : Env) (state : State) (cameraId : String) : State × Option String :=
  let closed := closeAssignments env cameraId state
  match updateCamera env closed cameraId none "" with
  | .error err => (closed, some err)
  | .ok moved => (moved, none)

/-- `HandleAssignCamera`, which does not look at its caller. -/
def handleAssignCamera (env : Env) (state : State) (siteId : String) (body : Option AssignBody) :
    State × Reply (List (String × String)) :=
  match body with
  | none => (state, .error 400 "Invalid JSON")
  | some body =>
    match assignCameraToSite env state body.cameraId siteId body.locationLabel with
    | (after, some err) => (after, .error 500 err)
    | (after, none) =>
      (after, .json 200 [("ok", "true"), ("site_id", siteId), ("camera_id", body.cameraId)])

/-- `HandleUnassignCamera`, which does not look at its caller either. -/
def handleUnassignCamera (env : Env) (state : State) (cameraId : String) : State × Reply (List (String × String)) :=
  match unassignCameraFromSite env state cameraId with
  | (after, some err) => (after, .error 500 err)
  | (after, none) => (after, .json 200 [("ok", "true")])

def handle (state : State) (call : Call) : State × Reply (List (String × String)) :=
  match call.request with
  | .assign siteId body => handleAssignCamera call.env state siteId body
  | .unassign cameraId => handleUnassignCamera call.env state cameraId

/-- What a call leaves, whatever it answers. -/
def step (state : State) (call : Call) : State := (handle state call).1

/-! ## Views -/

/-- The camera a request moves, with the site it goes to. -/
def moved (state : State) (call : Call) : Option (Camera × String) :=
  match call.request with
  | .assign siteId (some body) =>
    if call.env.updateFault = none ∧ state.sites.find? siteId ≠ none then do
      let id ← uuidIn body.cameraId
      let camera ← state.cameras.find? id
      return (camera, siteId)
    else none
  | .assign _ none | .unassign _ => none

/-- The request gives no restricted caller a camera it did not see. -/
def NoGain (state : State) (call : Call) : Prop :=
  ∀ claims : Claims, globalViewRoles claims.role = false →
    ∀ id ∈ cameraView (step state call).toDirectory (some claims), id ∈ cameraView state.toDirectory (some claims)

/-- Whoever has the target site assigned already has the camera's present site
assigned. -/
def WithinView (state : State) (call : Call) : Prop :=
  ∀ taken ∈ moved state call, ∀ user ∈ state.users, user.deletedAt = none →
    taken.2 ∈ user.assignedSiteIds → ∃ site ∈ taken.1.siteId, site ∈ user.assignedSiteIds

/-! ## What one request does -/

private theorem mem_place {cameras : Table Camera.id} {id : UUID} {site : Option String} {location : String}
    {camera : Camera} (member : camera ∈ place cameras id site location) :
    (camera ∈ cameras ∧ camera.id ≠ id) ∨ ∃ old ∈ cameras, old.id = id ∧ camera.id = id ∧ camera.siteId = site := by
  obtain ⟨old, held, rfl⟩ := Table.mem_modify.mp member
  by_cases chosen : old.id = id
  · exact .inr ⟨old, held, chosen, by simp [chosen], by simp [chosen]⟩
  · exact .inl ⟨by simpa [chosen] using held, by simp [chosen]⟩

private theorem place_places {cameras : Table Camera.id} {camera : Camera} (held : camera ∈ cameras)
    (site : Option String) (location : String) :
    ∃ row ∈ place cameras camera.id site location, row.id = camera.id ∧ row.siteId = site :=
  ⟨_, Table.mem_modify.mpr ⟨camera, held, rfl⟩, by simp, by simp⟩

private theorem place_absent {cameras : Table Camera.id} {id : UUID} (absent : cameras.find? id = none)
    (site : Option String) (location : String) : place cameras id site location = cameras := by
  apply Table.modify_of_not_affected
  apply Nat.eq_zero_of_not_pos
  intro positive
  obtain ⟨camera, held, chosen⟩ := Table.affected_pos.mp positive
  exact Table.find?_eq_none.mp absent camera held (by simpa using chosen)

@[simp] private theorem closeAssignments_directory (env : Env) (cameraId : String) (state : State) :
    (closeAssignments env cameraId state).toDirectory = state.toDirectory := by
  unfold closeAssignments
  split <;> rfl

/-- The directory after a request: users and sites are untouched, and either a
camera lost its site, or the moved camera is at its target, or nothing changed. -/
inductive Effect (state : State) (call : Call) (after : Directory) : Prop where
  | kept (none_ : moved state call = none) (same : after = state.toDirectory)
  | removed (none_ : moved state call = none) (id : UUID)
      (same : after = { state.toDirectory with cameras := place state.cameras id none "" })
  | placed (camera : Camera) (site location : String) (held : camera ∈ state.cameras)
      (some_ : moved state call = some (camera, site))
      (same : after = { state.toDirectory with cameras := place state.cameras camera.id (some site) location })

private theorem assign_directory (env : Env) (state : State) (cameraId siteId location : String) :
    (assignCameraToSite env state cameraId siteId location).1.toDirectory =
      match updateCamera env (closeAssignments env cameraId state) cameraId (some siteId) location with
      | .ok after => after.toDirectory
      | .error _ => state.toDirectory := by
  simp only [assignCameraToSite]
  cases updateCamera env (closeAssignments env cameraId state) cameraId (some siteId) location with
  | error err => simp
  | ok after =>
    simp only
    split <;> rfl

private theorem unassign_directory (env : Env) (state : State) (cameraId : String) :
    (unassignCameraFromSite env state cameraId).1.toDirectory =
      match updateCamera env (closeAssignments env cameraId state) cameraId none "" with
      | .ok after => after.toDirectory
      | .error _ => state.toDirectory := by
  simp only [unassignCameraFromSite]
  cases updateCamera env (closeAssignments env cameraId state) cameraId none "" with
  | error err => simp
  | ok after => rfl

private theorem step_assign (state : State) (claims : Claims) (siteId : String) (body : AssignBody) (env : Env) :
    step state ⟨claims, .assign siteId (some body), env⟩ =
      (assignCameraToSite env state body.cameraId siteId body.locationLabel).1 := by
  unfold step handle handleAssignCamera
  simp only
  split <;> simp_all

private theorem step_unassign (state : State) (claims : Claims) (cameraId : String) (env : Env) :
    step state ⟨claims, .unassign cameraId, env⟩ = (unassignCameraFromSite env state cameraId).1 := by
  unfold step handle handleUnassignCamera
  simp only
  split <;> simp_all

private theorem assign_effect (state : State) (claims : Claims) (siteId : String) (body : AssignBody) (env : Env) :
    Effect state ⟨claims, .assign siteId (some body), env⟩
      (assignCameraToSite env state body.cameraId siteId body.locationLabel).1.toDirectory := by
  rw [assign_directory]
  unfold updateCamera
  cases fault : env.updateFault with
  | some err => exact .kept (by simp [moved, fault]) rfl
  | none =>
    cases read : uuidIn body.cameraId with
    | none => exact .kept (by simp [moved, read]) rfl
    | some id =>
      cases found : state.cameras.find? id with
      | none =>
        refine .kept (by simp [moved, read, found]) ?_
        simp [found, place_absent found]
      | some camera =>
        cases site : state.sites.find? siteId with
        | none => exact .kept (by simp [moved, site]) (by simp [found, site])
        | some row =>
          obtain ⟨held, rfl⟩ := Table.find?_eq_some.mp found
          refine .placed camera siteId body.locationLabel held ?_ ?_
          · simp [moved, fault, site, read, found]
          · simp [site]

/-- What one request does to the directory. -/
theorem step_effect (state : State) (call : Call) : Effect state call (step state call).toDirectory := by
  obtain ⟨claims, request, env⟩ := call
  cases request with
  | assign siteId body =>
    cases body with
    | none => exact .kept rfl rfl
    | some body =>
      rw [step_assign]
      exact assign_effect state claims siteId body env
  | unassign cameraId =>
    rw [step_unassign, unassign_directory]
    unfold updateCamera
    cases env.updateFault with
    | some err => exact .kept rfl rfl
    | none =>
      cases uuidIn cameraId with
      | none => exact .kept rfl rfl
      | some id => exact .removed rfl id (by simp)

/-- A request keeps every restricted view as it is or smaller exactly when it
moves no camera into a view that did not have it. -/
theorem noGain_iff_withinView (state : State) (call : Call) : NoGain state call ↔ WithinView state call := by
  constructor
  · rintro safe ⟨camera, site⟩ taken user member live assigned
    rcases step_effect state call with ⟨none_, _⟩ | ⟨none_, _, _⟩ | ⟨other, _, location, held, some_, same⟩
    · simp [none_] at taken
    · simp [none_] at taken
    · cases Option.some.inj (some_.symm.trans taken)
      let claims : Claims := ⟨user.id.text, "", .viewer, "", ""⟩
      have gained : camera.id ∈ cameraView (step state call).toDirectory (some claims) := by
        obtain ⟨row, written, sameId, at_⟩ := place_places held (some site) location
        rw [mem_cameraView rfl, same]
        exact ⟨user, member, parse_text user.id, live, row, written, sameId, site, at_, assigned⟩
      obtain ⟨owner, present, named, _, row, kept, sameId, seen⟩ := (mem_cameraView rfl).mp (safe claims rfl _ gained)
      have sameUser : user.id = owner.id := by simpa [claims, parse_text] using named
      rw [Table.key_inj kept held sameId, ← Table.key_inj member present sameUser] at seen
      exact seen
  · intro within claims restricted id gained
    rw [mem_cameraView restricted] at gained ⊢
    obtain ⟨user, member, named, live, camera, held, rfl, site, at_, assigned⟩ := gained
    rcases step_effect state call with ⟨_, same⟩ | ⟨_, id, same⟩ | ⟨row, target, location, present, some_, same⟩
    · rw [same] at member held
      exact ⟨user, member, named, live, camera, held, rfl, site, at_, assigned⟩
    · rw [same] at member held
      rcases mem_place held with ⟨old, _⟩ | ⟨_, _, _, _, nowhere⟩
      · exact ⟨user, member, named, live, camera, old, rfl, site, at_, assigned⟩
      · simp [nowhere] at at_
    · rw [same] at member held
      rcases mem_place held with ⟨old, _⟩ | ⟨_, _, _, sameId, placed⟩
      · exact ⟨user, member, named, live, camera, old, rfl, site, at_, assigned⟩
      · obtain rfl : target = site := by simpa [placed] using at_
        exact ⟨user, member, named, live, row, present, sameId.symm, within _ some_ user member live assigned⟩

/-- No restricted caller's view gains a camera anywhere in a run exactly if
every camera the run moves goes between sites that are assigned together. -/
theorem views_never_gain_iff (start : State) (calls : List Call) :
    Along step NoGain start calls ↔ Along step WithinView start calls :=
  along_congr noGain_iff_withinView calls start

private def viewer : Claims := ⟨"00000000-0000-0000-0000-00000000000a", "vera", .viewer, "Vera", "co-1"⟩

private def twoTenants : State where
  users := ⟨[⟨⟨10⟩, "vera", .viewer, "Vera", "", "", some "co-1", ["AA-100"], 0, 0, none⟩], by decide⟩
  sites := ⟨[⟨"AA-100", "Yard", "co-1", none⟩, ⟨"BB-200", "Depot", "co-2", none⟩], by decide⟩
  cameras := ⟨[{ id := ⟨1⟩, name := "Dock", siteId := some "BB-200" }], by decide⟩
  assignments := []

/-- A viewer assigns another organisation's camera to its own site and then sees it. -/
theorem viewer_takes_camera :
    ¬ Along step NoGain twoTenants
      [⟨viewer, .assign "AA-100" (some ⟨"00000000-0000-0000-0000-000000000001", "gate"⟩), {}⟩] := by
  rintro ⟨safe, -⟩
  have gained := safe viewer rfl ⟨1⟩ (by decide +kernel)
  revert gained
  decide +kernel

end Ironsight.CameraAssignment
