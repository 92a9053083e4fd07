import Mathlib.Data.List.Sort
import Mathlib.Data.String.Basic
import Ironsight.Tables
import Ironsight.Uuid

/-! Who may see what: the identity tables, the claims a request carries and the
access predicates of `internal/api/authz.go` that every tenancy check in the
system goes through. A customer-side caller reaches a site by its organisation
or by its assignment list, but a camera only through the assignment list; the
two predicates are kept exactly as the source has them. -/
namespace Ironsight.Access
open Tables Uuid

/-- Nanoseconds since the Unix epoch. -/
abbrev Instant := Int

/-- The roles that `users_role_chk` admits. -/
inductive Role where
  | admin
  | socOperator
  | socSupervisor
  | siteManager
  | customer
  | viewer
  | guard
  deriving DecidableEq

/-- `auth.Claims` as `RequireAuth` puts it into the request context. -/
structure Claims where
  userId : String
  username : String
  role : Role
  displayName : String := ""
  organizationId : String
  deriving DecidableEq

/-- A row of `users`, without the credentials. -/
structure User where
  id : UUID
  username : String
  role : Role
  displayName : String := ""
  email : String := ""
  phone : String := ""
  organizationId : Option String
  assignedSiteIds : List String
  createdAt : Instant := 0
  updatedAt : Instant := 0
  deletedAt : Option Instant := none
  deriving DecidableEq

/-- A row of `sites`: the columns that access and display decisions read. -/
structure Site where
  id : String
  name : String
  organizationId : String
  deletedAt : Option Instant := none
  deriving DecidableEq

/-- A row of `cameras`: identity, driver selection and placement. -/
structure Camera where
  id : UUID
  name : String
  manufacturer : String := ""
  model : String := ""
  siteId : Option String
  location : String := ""
  deletedAt : Option Instant := none
  deriving DecidableEq

/-- The tables that every access decision reads. -/
structure Directory where
  users : Table User.id
  sites : Table Site.id
  cameras : Table Camera.id
  deriving DecidableEq

/-! ## Replies and database errors -/

/-- What a handler writes: an error text, a JSON body, or a bare 204. -/
inductive Reply (β : Type) where
  | error (status : Nat) (text : String)
  | json (status : Nat) (body : β)
  | noContent
  deriving DecidableEq

/-- `pgx.ErrNoRows`. -/
def errNoRows : String := "no rows in result set"

/-- SQLSTATE 23505. -/
def uniqueViolation (constraint : String) : String :=
  "ERROR: duplicate key value violates unique constraint \"" ++ constraint ++ "\" (SQLSTATE 23505)"

/-- SQLSTATE 23503. -/
def foreignKeyViolation (table constraint : String) : String :=
  "ERROR: insert or update on table \"" ++ table ++ "\" violates foreign key constraint \"" ++
    constraint ++ "\" (SQLSTATE 23503)"

/-- SQLSTATE 22P02. -/
def invalidUuid (text : String) : String :=
  "ERROR: invalid input syntax for type uuid: \"" ++ text ++ "\" (SQLSTATE 22P02)"

/-! ## Lookups -/

/-- `GetUserByID`, which reads `users_active`. -/
def getUserByID (db : Directory) (id : UUID) : Except String User :=
  db.users.lookup (fun user => user.deletedAt = none) id errNoRows

/-- `GetSite`, which reads `sites_active`. -/
def getSite (db : Directory) (id : String) : Except String Site :=
  db.sites.lookup (fun site => site.deletedAt = none) id errNoRows

/-- `GetCamera`, which reads `cameras_active`; an unknown camera is `nil`
without an error. -/
def getCamera (db : Directory) (id : UUID) : Option Camera :=
  (db.cameras.find? id).filter fun camera => camera.deletedAt = none

/-! ## Access predicates -/

/-- `globalViewRoles`. -/
def globalViewRoles : Role → Bool
  | .admin | .socOperator | .socSupervisor => true
  | .siteManager | .customer | .viewer | .guard => false

/-- `SELECT id FROM cameras WHERE site_id = ANY($1)`, soft-deleted cameras
included. -/
def camerasAtSites (db : Directory) (siteIds : List String) : List UUID :=
  (db.cameras.rows.filter fun camera => camera.siteId.any (siteIds.contains ·)).map Camera.id

/-- `AuthorizedCameraIDs`: the allowlist, and whether it is a restriction. -/
def authorizedCameraIDs (db : Directory) (claims : Option Claims) : Except String (List UUID × Bool) :=
  match claims with
  | none => .ok ([], true)
  | some claims =>
    if globalViewRoles claims.role then .ok ([], false)
    else match parse claims.userId with
      | none => .ok ([], true)
      | some uid =>
        match getUserByID db uid with
        | .error err => .error err
        | .ok user =>
          if user.assignedSiteIds = [] then .ok ([], true)
          else .ok (camerasAtSites db user.assignedSiteIds, true)

/-- `CanAccessCamera`. -/
def canAccessCamera (db : Directory) (claims : Option Claims) (camera : UUID) : Except String Bool :=
  match claims with
  | none => .ok false
  | some claims =>
    if globalViewRoles claims.role then .ok true
    else match authorizedCameraIDs db (some claims) with
      | .error err => .error err
      | .ok (ids, restricted) => .ok (!restricted || ids.contains camera)

/-- `canAccessSiteByID`. -/
def canAccessSiteByID (db : Directory) (claims : Option Claims) (siteId : String) : Except String Bool :=
  match claims with
  | none => .ok false
  | some claims =>
    if globalViewRoles claims.role then .ok true
    else match getSite db siteId with
      | .error err => .error err
      | .ok site =>
        if claims.organizationId ≠ "" ∧ site.organizationId = claims.organizationId then .ok true
        else match parse claims.userId with
          | none => .ok false
          | some uid =>
            match getUserByID db uid with
            | .error err => .error err
            | .ok user => .ok (user.assignedSiteIds.contains siteId)

/-- `database.CallerScope`. -/
structure CallerScope where
  role : Option Role
  organizationId : String
  assignedSiteIds : List String
  deriving DecidableEq

/-- `CallerScope.IsUnscoped`. -/
def CallerScope.isUnscoped (scope : CallerScope) : Bool := scope.role.any globalViewRoles

/-- `callerScope`: the zero scope without claims, and no assignments when the
user cannot be loaded. -/
def callerScope (db : Directory) (claims : Option Claims) : CallerScope :=
  match claims with
  | none => ⟨none, "", []⟩
  | some claims =>
    let assigned := match parse claims.userId with
      | none => []
      | some uid => match getUserByID db uid with
        | .error _ => []
        | .ok user => user.assignedSiteIds
    ⟨some claims.role, claims.organizationId, assigned⟩

/-- The rows of `sites_active`. -/
def activeSites (db : Directory) : List Site :=
  db.sites.rows.filter fun site => site.deletedAt = none

/-- `ORDER BY name`. -/
def orderByName (sites : List Site) : List Site :=
  sites.insertionSort fun first second => first.name ≤ second.name

/-- `ListSitesScoped`: every live site for SOC roles, else the organisation's
sites and the assigned ones. -/
def listSitesScoped (db : Directory) (scope : CallerScope) : List Site :=
  if scope.isUnscoped then orderByName (activeSites db)
  else if scope.organizationId ≠ "" then
    orderByName ((activeSites db).filter fun site =>
      site.organizationId = scope.organizationId ∨ site.id ∈ scope.assignedSiteIds)
  else if scope.assignedSiteIds ≠ [] then
    orderByName ((activeSites db).filter fun site => site.id ∈ scope.assignedSiteIds)
  else []

/-! ## What the predicates amount to -/

/-- The cameras `AuthorizedCameraIDs` hands to its caller. -/
def cameraView (db : Directory) (claims : Option Claims) : List UUID :=
  match authorizedCameraIDs db claims with
  | .ok (ids, _) => ids
  | .error _ => []

theorem mem_camerasAtSites {db : Directory} {siteIds : List String} {id : UUID} :
    id ∈ camerasAtSites db siteIds ↔
      ∃ camera ∈ db.cameras, camera.id = id ∧ ∃ site ∈ camera.siteId, site ∈ siteIds := by
  simp only [camerasAtSites, List.mem_map, List.mem_filter, Option.any_eq_true, List.contains_iff_mem,
    Table.mem_def, Option.mem_def]
  constructor
  · rintro ⟨camera, ⟨held, placed⟩, same⟩
    exact ⟨camera, held, same, placed⟩
  · rintro ⟨camera, held, same, placed⟩
    exact ⟨camera, ⟨held, placed⟩, same⟩

theorem getUserByID_ok {db : Directory} {id : UUID} {user : User} :
    getUserByID db id = .ok user ↔ user ∈ db.users ∧ user.id = id ∧ user.deletedAt = none := by
  simp [getUserByID, Table.lookup_ok]

theorem getSite_ok {db : Directory} {id : String} {site : Site} :
    getSite db id = .ok site ↔ site ∈ db.sites ∧ site.id = id ∧ site.deletedAt = none := by
  simp [getSite, Table.lookup_ok]

/-- A restricted caller sees the cameras at the sites of its own live row. -/
theorem mem_cameraView {db : Directory} {claims : Claims} {id : UUID}
    (restricted : globalViewRoles claims.role = false) :
    id ∈ cameraView db (some claims) ↔
      ∃ user ∈ db.users, parse claims.userId = some user.id ∧ user.deletedAt = none ∧
        ∃ camera ∈ db.cameras, camera.id = id ∧ ∃ site ∈ camera.siteId, site ∈ user.assignedSiteIds := by
  have unfolded : id ∈ cameraView db (some claims) ↔
      ∃ uid user, parse claims.userId = some uid ∧ getUserByID db uid = .ok user ∧
        id ∈ camerasAtSites db user.assignedSiteIds := by
    unfold cameraView authorizedCameraIDs
    simp only [restricted, Bool.false_eq_true, if_false]
    cases parse claims.userId with
    | none => simp
    | some uid =>
      simp only [Option.some.injEq, exists_and_left, exists_eq_left']
      cases getUserByID db uid with
      | error err => simp
      | ok user =>
        simp only [Except.ok.injEq, exists_eq_left']
        by_cases empty : user.assignedSiteIds = []
        · simp [empty, mem_camerasAtSites]
        · simp [empty]
  rw [unfolded]
  simp only [getUserByID_ok, mem_camerasAtSites]
  constructor
  · rintro ⟨uid, user, named, ⟨member, rfl, live⟩, seen⟩
    exact ⟨user, member, named, live, seen⟩
  · rintro ⟨user, member, named, live, seen⟩
    exact ⟨user.id, user, named, ⟨member, rfl, live⟩, seen⟩

/-- A listed site is live and reached by role, organisation or assignment. -/
theorem mem_listSitesScoped {db : Directory} {scope : CallerScope} {site : Site} :
    site ∈ listSitesScoped db scope ↔ site ∈ db.sites ∧ site.deletedAt = none ∧
      (scope.isUnscoped = true ∨ (scope.organizationId ≠ "" ∧ site.organizationId = scope.organizationId) ∨
        site.id ∈ scope.assignedSiteIds) := by
  unfold listSitesScoped
  split
  · rename_i unscoped
    simp [orderByName, activeSites, Table.mem_def, unscoped]
  · rename_i limited
    split
    · rename_i named
      simp only [orderByName, activeSites, Table.mem_def, List.mem_insertionSort, List.mem_filter,
        decide_eq_true_eq, limited, Bool.false_eq_true, false_or, and_assoc, named, not_false_eq_true, true_and,
        ne_eq]
    · rename_i unnamed
      by_cases assigned : scope.assignedSiteIds = []
      · simp [limited, unnamed, assigned]
      · simp [orderByName, activeSites, Table.mem_def, limited, unnamed, assigned]
        exact fun _ => and_comm

/-- For a restricted caller the site check and the site list agree. -/
theorem canAccessSiteByID_iff_listed {db : Directory} {claims : Claims} {siteId : String}
    (restricted : globalViewRoles claims.role = false) :
    canAccessSiteByID db (some claims) siteId = .ok true ↔
      ∃ site ∈ listSitesScoped db (callerScope db (some claims)), site.id = siteId := by
  have limited : (callerScope db (some claims)).isUnscoped = false := by
    simp [callerScope, CallerScope.isUnscoped, restricted]
  simp only [mem_listSitesScoped, limited, Bool.false_eq_true, false_or]
  unfold canAccessSiteByID
  simp only [restricted, Bool.false_eq_true, if_false]
  cases found : getSite db siteId with
  | error err =>
    simp only [reduceCtorEq, false_iff]
    rintro ⟨site, ⟨member, live, _⟩, same⟩
    have present := getSite_ok.mpr ⟨member, same, live⟩
    simp [found] at present
  | ok row =>
    obtain ⟨member, rfl, live⟩ := getSite_ok.mp found
    have only_row : (∃ site, (site ∈ db.sites ∧ site.deletedAt = none ∧
        ((callerScope db (some claims)).organizationId ≠ "" ∧
            site.organizationId = (callerScope db (some claims)).organizationId ∨
          site.id ∈ (callerScope db (some claims)).assignedSiteIds)) ∧ site.id = row.id) ↔
        (claims.organizationId ≠ "" ∧ row.organizationId = claims.organizationId) ∨
          row.id ∈ (callerScope db (some claims)).assignedSiteIds := by
      constructor
      · rintro ⟨site, ⟨held, _, reached⟩, same⟩
        rwa [Table.key_inj held member same] at reached
      · intro reached
        exact ⟨row, ⟨member, live, reached⟩, rfl⟩
    rw [only_row]
    by_cases own : claims.organizationId ≠ "" ∧ row.organizationId = claims.organizationId
    · simp [own]
    · simp only [own, if_false, false_or, callerScope]
      cases parse claims.userId with
      | none => simp
      | some uid =>
        simp only
        cases getUserByID db uid <;> simp

end Ironsight.Access
