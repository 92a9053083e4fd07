import Ironsight.Exports
import Ironsight.RankedRows
import Ironsight.Rfc3339
import Ironsight.Runs

/-! Who gets to export what. The routes sit behind `RequireAuth` only; neither handler
looks at its caller, the worker renders whatever row it claims, and the list is the
same for everybody. -/
namespace Ironsight.ExportTenancy
open Tables Runs Uuid Access Exports RankedRows

/-- The body of `POST /api/exports`. -/
structure ExportRequest where
  cameraId : String := ""
  startTime : String := ""
  endTime : String := ""
  deriving DecidableEq

/-- The tables that access goes by, and the queue. -/
structure State where
  directory : Directory
  exports : ExportTable

/-- `CreateExport`, with the foreign key on the camera. -/
def createExport (state : State) (e : Export) (fault : Option String) : Except String ExportTable :=
  match fault with
  | some err => .error err
  | none =>
    if state.directory.cameras.find? e.cameraId = none then
      .error (foreignKeyViolation "exports" "exports_camera_id_fkey")
    else match state.exports.insert? e with
      | none => .error (uniqueViolation "exports_pkey")
      | some after => .ok after

/-- The checks of `HandleCreateExport`, which all concern the body. -/
def readExport (body : Option ExportRequest) (id : UUID) (now : Instant) : Except String Export :=
  match body with
  | none => .error "invalid request body"
  | some req => match parse req.cameraId with
    | none => .error "invalid camera_id"
    | some cameraId => match Rfc3339.parse req.startTime.toList with
      | none => .error "invalid start_time (use RFC3339)"
      | some startTime => match Rfc3339.parse req.endTime.toList with
        | none => .error "invalid end_time (use RFC3339)"
        | some endTime => .ok (newExport id now cameraId startTime endTime)

/-- `HandleCreateExport`; `id` and `now` are what `CreateExport` draws. -/
def handleCreateExport (state : State) (body : Option ExportRequest) (id : UUID) (now : Instant) (fault : Option String) :
    State × Reply Export :=
  match readExport body id now with
  | .error text => (state, .error 400 text)
  | .ok e => match createExport state e fault with
    | .error err => (state, .error 500 err)
    | .ok after => ({ state with exports := after }, .json 201 e)

/-- `HandleListExports`. -/
def handleListExports (state : State) (scan : Scan Export) (fault : Option String) : Reply (List Export) :=
  match fault with
  | some err => .error 500 err
  | none => .json 200 (listExports scan state.exports)

/-- A request of an authenticated caller, a statement of a worker, or any change to
users, sites and cameras; the exports of a camera go with it. -/
inductive Move where
  | create (claims : Claims) (body : Option ExportRequest) (id : UUID) (now : Instant) (fault : Option String)
  | list (claims : Claims) (fault : Option String)
  | claim (locked : List UUID) (now : Instant)
  | finish (id : UUID) (status : ExportStatus) (filePath : String) (fileSize : Int) (errMsg : String) (now : Instant)
  | requeue (now : Instant)
  | administer (directory : Directory)

/-- What a request or a worker's statement leaves of the exports. -/
def step (state : State) : Move → State
  | .create _ body id now fault => (handleCreateExport state body id now fault).1
  | .list _ _ => state
  | .claim locked now =>
    { state with exports := ((claimNextExport state.exports locked now).map Prod.snd).getD state.exports }
  | .finish id status filePath fileSize errMsg now =>
    { state with exports := updateExportStatus state.exports id status filePath fileSize errMsg now }
  | .requeue now => { state with exports := requeueStuckExports state.exports now }
  | .administer directory =>
    { directory, exports := state.exports.remove fun e => (directory.cameras.find? e.cameraId).isNone }

/-! ## Tenancy -/

/-- `CanAccessCamera` admits the camera for the caller. -/
def Admits (state : State) (claims : Claims) (cameraId : UUID) : Prop :=
  canAccessCamera state.directory (some claims) cameraId = .ok true

/-- A restricted caller queues exports of cameras it may access, and is shown no others, in
whatever order the list meets exports of one time. -/
def Respects (state : State) : Move → Prop
  | .create claims body id now fault => globalViewRoles claims.role = false →
      ∀ e ∈ (handleCreateExport state body id now fault).1.exports, e ∉ state.exports → Admits state claims e.cameraId
  | .list claims fault => globalViewRoles claims.role = false →
      ∀ scan status shown, handleListExports state scan fault = .json status shown → ∀ e ∈ shown, Admits state claims e.cameraId
  | .claim .. | .finish .. | .requeue _ | .administer _ => True

/-- The body names this camera and is well formed, the camera exists, the drawn id is new and the
insert does not fail: nothing of it concerns the caller. -/
structure Accepted (state : State) (body : Option ExportRequest) (id : UUID) (fault : Option String) (cameraId : UUID) : Prop where
  request : ∃ req ∈ body, parse req.cameraId = some cameraId ∧ Rfc3339.parse req.startTime.toList ≠ none ∧
    Rfc3339.parse req.endTime.toList ≠ none
  stored : fault = none
  known : state.directory.cameras.find? cameraId ≠ none
  fresh : ∀ other ∈ state.exports, other.id ≠ id

/-- What restricted callers ask for is theirs already: an accepted body names a camera the caller
may access, and a list is asked for when fifty exports are newer than any of another camera. -/
def OwnCamerasOnly (state : State) : Move → Prop
  | .create claims body id _ fault => globalViewRoles claims.role = false →
      ∀ cameraId, Accepted state body id fault cameraId → Admits state claims cameraId
  | .list claims fault => globalViewRoles claims.role = false → fault = none →
      ∀ e ∈ state.exports, ¬ Admits state claims e.cameraId → 50 ≤ state.exports.rows.countP fun newer => e.createdAt < newer.createdAt
  | .claim .. | .finish .. | .requeue _ | .administer _ => True

/-- The row that a well-formed body makes. -/
theorem readExport_ok {body : Option ExportRequest} {id : UUID} {now : Instant} {e : Export} : readExport body id now = .ok e ↔
    ∃ req ∈ body, ∃ cameraId startTime endTime, parse req.cameraId = some cameraId ∧
      Rfc3339.parse req.startTime.toList = some startTime ∧ Rfc3339.parse req.endTime.toList = some endTime ∧
        e = newExport id now cameraId startTime endTime := by
  cases body with
  | none => simp [readExport]
  | some req =>
    simp only [readExport, Option.mem_def, Option.some.injEq, exists_eq_left']
    cases parse req.cameraId with
    | none => simp
    | some cameraId => cases Rfc3339.parse req.startTime.toList with
      | none => simp
      | some startTime => cases Rfc3339.parse req.endTime.toList with
        | none => simp
        | some endTime => simp [eq_comm]

/-- The rows that a create request adds. -/
theorem created_iff {state : State} {body : Option ExportRequest} {id : UUID} {now : Instant} {fault : Option String}
    {e : Export} : (e ∈ (handleCreateExport state body id now fault).1.exports ∧ e ∉ state.exports) ↔
      readExport body id now = .ok e ∧ fault = none ∧ state.directory.cameras.find? e.cameraId ≠ none ∧
        ∀ other ∈ state.exports, other.id ≠ e.id := by
  unfold handleCreateExport createExport
  cases readExport body id now with
  | error text => simp
  | ok new =>
    cases fault with
    | some err => simp
    | none =>
      by_cases known : state.directory.cameras.find? new.cameraId = none
      · simp only [known, if_true, Except.ok.injEq, true_and]
        constructor
        · rintro ⟨held, absent⟩
          exact absurd held absent
        · rintro ⟨rfl, present, _⟩
          exact absurd known present
      · simp only [known, if_false, Except.ok.injEq, true_and]
        cases done : state.exports.insert? new with
        | none =>
          obtain ⟨other, held, same⟩ := Table.insert?_eq_none.mp done
          constructor
          · rintro ⟨kept, absent⟩
            exact absurd kept absent
          · rintro ⟨rfl, _, fresh⟩
            exact absurd same (fresh other held)
        | some after =>
          have fresh := Table.insert?_fresh done
          simp only [Table.mem_insert? done]
          constructor
          · rintro ⟨old | rfl, absent⟩
            · exact absurd old absent
            · exact ⟨rfl, known, fresh⟩
          · rintro ⟨rfl, _, _⟩
            exact ⟨.inr rfl, fun held => fresh new held rfl⟩

/-- A camera gets an export exactly by an accepted body that names it. -/
theorem export_queued_iff {state : State} {body : Option ExportRequest} {id : UUID} {now : Instant} {fault : Option String}
    {cameraId : UUID} :
    (∃ e ∈ (handleCreateExport state body id now fault).1.exports, e ∉ state.exports ∧ e.cameraId = cameraId) ↔
      Accepted state body id fault cameraId := by
  constructor
  · rintro ⟨e, held, new, rfl⟩
    obtain ⟨made, stored, known, fresh⟩ := created_iff.mp ⟨held, new⟩
    obtain ⟨req, given, camera, startTime, endTime, named, begins, ends, rfl⟩ := readExport_ok.mp made
    exact ⟨⟨req, given, named, by rw [begins]; nofun, by rw [ends]; nofun⟩, stored, known, fresh⟩
  · rintro ⟨⟨req, given, named, begins, ends⟩, stored, known, fresh⟩
    obtain ⟨startTime, begins⟩ := Option.ne_none_iff_exists'.mp begins
    obtain ⟨endTime, ends⟩ := Option.ne_none_iff_exists'.mp ends
    have made : readExport body id now = .ok (newExport id now cameraId startTime endTime) := readExport_ok.mpr ⟨req, given, cameraId, startTime, endTime, named, begins, ends, rfl⟩
    obtain ⟨held, new⟩ := created_iff.mpr ⟨made, stored, known, fresh⟩
    exact ⟨_, held, new, rfl⟩

/-- In whatever order exports of one time come, the list has only wanted ones exactly if any other
has fifty newer ones before it. -/
theorem list_wanted_iff {exports : ExportTable} {wanted : Export → Prop} :
    (∀ scan, ∀ e ∈ listExports scan exports, wanted e) ↔
      ∀ e ∈ exports, ¬ wanted e → 50 ≤ exports.rows.countP fun newer => e.createdAt < newer.createdAt := by
  classical
  have front : (∀ ordered, Ranked Export.createdAt exports.rows ordered → ∀ e ∈ ordered.take 50, true = true → decide (wanted e) = true) ↔
      ∀ e ∈ exports.rows, true = true → decide (wanted e) = false → 50 ≤ above Export.createdAt exports.rows e.createdAt :=
    front_wanted_iff
  simp only [true_imp_iff, decide_eq_true_eq, decide_eq_false_iff_not] at front
  refine Iff.trans ⟨fun always ordered ranked => ?_, fun always scan => always _ (ranked_newest scan _)⟩ front
  obtain ⟨scan, rfl⟩ := exists_scan ranked
  exact always scan

theorem respects_iff (state : State) (move : Move) : Respects state move ↔ OwnCamerasOnly state move := by
  cases move with
  | create claims body id now fault =>
    refine imp_congr_right fun _ => ⟨fun respects cameraId accepted => ?_, fun own e held new => ?_⟩
    · obtain ⟨e, held, new, rfl⟩ := export_queued_iff.mpr accepted
      exact respects e held new
    · exact own e.cameraId (export_queued_iff.mp ⟨e, held, new, rfl⟩)
  | list claims fault =>
    refine imp_congr_right fun _ => ?_
    cases fault with
    | some err => simp [handleListExports]
    | none =>
      rw [eq_self_iff_true, true_imp_iff, ← list_wanted_iff]
      constructor
      · intro respects scan e shown
        exact respects scan 200 _ rfl e shown
      · intro wanted scan status shown answered e member
        cases answered
        exact wanted scan e member
  | claim | finish | requeue | administer => exact Iff.rfl

/-- A run of any requests of any users, the workers and the administration in between,
respects tenancy exactly if every restricted caller keeps to its own cameras by
itself. -/
theorem tenancy_iff (start : State) (moves : List Move) :
    Along step Respects start moves ↔ Along step OwnCamerasOnly start moves :=
  along_congr respects_iff moves start

private def stranger : User :=
  { id := ⟨7⟩, username := "stranger", role := .customer, organizationId := some "org-b", assignedSiteIds := [] }

private def strangerClaims : Claims :=
  { userId := stranger.id.text, username := "stranger", role := .customer, organizationId := "org-b" }

private def gate : Camera := { id := ⟨1⟩, name := "Gate", siteId := some "s-a" }

/-- A camera at a site of one organisation, and a customer of another. -/
private def twoTenants : State where
  directory := {
    users := ⟨[stranger], by decide⟩
    sites := ⟨[{ id := "s-a", name := "Site A", organizationId := "org-a" }], by decide⟩
    cameras := ⟨[gate], by decide⟩ }
  exports := .empty

private def ask : Move :=
  .create strangerClaims (some ⟨gate.id.text, "2025-06-15T15:00:00Z", "2025-06-15T16:00:00Z"⟩) ⟨9⟩ 0 none

/-- A customer without a single site queues an export of another tenant's camera, and
is then shown it. -/
theorem stranger_exports : ¬ Along step Respects twoTenants [ask] ∧
    ¬ Respects (step twoTenants ask) (.list strangerClaims none) := by
  have restricted : globalViewRoles strangerClaims.role = false := rfl
  have barred : ¬ Admits twoTenants strangerClaims gate.id := by
    simp only [Admits]
    decide +kernel
  have queued : ∃ e, (step twoTenants ask).exports.rows = [e] ∧ e.cameraId = gate.id :=
    ⟨newExport ⟨9⟩ 0 gate.id 1749999600000000000 1750003200000000000, by decide +kernel, rfl⟩
  obtain ⟨e, rows, camera⟩ := queued
  have held : e ∈ (step twoTenants ask).exports := by simp [Table.mem_def, rows]
  constructor
  · rintro ⟨respects, _⟩
    exact barred (camera ▸ respects restricted e held fun old => nomatch old)
  · intro respects
    have shown : e ∈ listExports .inOrder (step twoTenants ask).exports := by simp [listExports, Scan.inOrder, rows]
    exact barred (camera ▸ respects restricted .inOrder 200 _ rfl e shown)

end Ironsight.ExportTenancy
