import Ironsight.Access
import Ironsight.Runs

/-! Profile updates. Display name, email and phone share one statement with the
organisation and the site assignments; the former keep their value when the
body leaves them out, the latter are always overwritten. Since the assignments
are what the access predicates read, an update leaves authority alone exactly
when it happens to write what is stored. -/
namespace Ironsight.ProfileUpdate
open Tables Runs Uuid Access

/-- A field of a JSON object. -/
inductive Field (α : Type) where
  | absent
  | null
  | value (content : α)
  deriving DecidableEq

/-- A body of the right JSON types; a `null` list element is kept apart. -/
structure ProfileBody where
  displayName : Field String := .absent
  email : Field String := .absent
  phone : Field String := .absent
  organizationId : Field String := .absent
  assignedSiteIds : Field (List (Option String)) := .absent
  deriving DecidableEq

/-- `UserProfileUpdate`: pointers for the strings, a nil slice for no list. -/
structure UserProfileUpdate where
  displayName : Option String
  email : Option String
  phone : Option String
  organizationId : Option String
  assignedSiteIds : Option (List String)
  deriving DecidableEq

def Field.pointer {α : Type} : Field α → Option α
  | .absent | .null => none
  | .value content => some content

/-- `json.Decode` into the update; a `null` element becomes the empty string. -/
def decode (body : ProfileBody) : UserProfileUpdate where
  displayName := body.displayName.pointer
  email := body.email.pointer
  phone := body.phone.pointer
  organizationId := body.organizationId.pointer
  assignedSiteIds := body.assignedSiteIds.pointer.map fun ids => ids.map (·.getD "")

/-- `database.UserPublic`. -/
structure UserPublic where
  id : UUID
  username : String
  role : Role
  displayName : String
  email : String
  phone : String
  organizationId : String
  assignedSiteIds : List String
  createdAt : Instant
  updatedAt : Instant
  deriving DecidableEq

def User.public (user : User) : UserPublic :=
  ⟨user.id, user.username, user.role, user.displayName, user.email, user.phone, user.organizationId.getD "",
    user.assignedSiteIds, user.createdAt, user.updatedAt⟩

/-- The clock, and failures of the update and of the read after it. -/
structure Env where
  now : Instant := 0
  updateFault : Option String := none
  readFails : Bool := false

/-- A request for a profile, with its body. -/
structure Call where
  claims : Option Claims
  id : String
  body : Option ProfileBody
  env : Env := {}

/-- `nullableStr`. -/
def nullableStr (text : String) : Option String := if text = "" then none else some text

/-- `derefStr`. -/
def derefStr (pointer : Option String) : String := pointer.getD ""

/-- The `SET` list of `UpdateUserProfile`. -/
def applyProfile (now : Instant) (u : UserProfileUpdate) (user : User) : User :=
  { user with
    displayName := u.displayName.getD user.displayName
    email := u.email.getD user.email
    phone := u.phone.getD user.phone
    organizationId := nullableStr (derefStr u.organizationId)
    assignedSiteIds := u.assignedSiteIds.getD []
    updatedAt := now }

/-- `UpdateUserProfile`, which also reaches soft-deleted rows. -/
def updateUserProfile (now : Instant) (db : Directory) (id : UUID) (u : UserProfileUpdate) : Directory :=
  { db with users := db.users.modify (fun user => user.id = id) (applyProfile now u) fun _ => rfl }

/-- `HandleUpdateUserProfile` up to the update: a refusal, or the row and what
is written into it. -/
def authorize (call : Call) : Except (Reply UserPublic) (UUID × UserProfileUpdate) :=
  match call.claims with
  | none => .error (.error 401 "unauthorized")
  | some claims => match parse call.id with
    | none => .error (.error 400 "invalid user id")
    | some id =>
      if claims.role ≠ .admin ∧ id.text ≠ claims.userId then .error (.error 403 "forbidden")
      else match call.body with
        | none => .error (.error 400 "invalid request body")
        | some body =>
          let update := decode body
          let update := { update with assignedSiteIds := some (update.assignedSiteIds.getD []) }
          match call.env.updateFault with
          | some err => .error (.error 500 ("failed to update profile: " ++ err))
          | none => .ok (id, update)

/-- `HandleUpdateUserProfile`. -/
def handleUpdateUserProfile (db : Directory) (call : Call) : Directory × Reply UserPublic :=
  match authorize call with
  | .error refusal => (db, refusal)
  | .ok (id, update) =>
    let after := updateUserProfile call.env.now db id update
    match call.env.readFails, getUserByID after id with
    | false, .ok user => (after, .json 200 (User.public user))
    | _, _ => (after, .error 404 "user not found")

/-- What a call leaves of the directory, whatever it answers. -/
def step (db : Directory) (call : Call) : Directory := (handleUpdateUserProfile db call).1

/-! ## Authority -/

/-- What the access predicates read of a user. -/
def standing (user : User) : UUID × Role × Option String × List String × Option Instant :=
  (user.id, user.role, user.organizationId, user.assignedSiteIds, user.deletedAt)

/-- Organisation, sites and role of every user are those of `start`, and so is
every answer about a site or a camera. -/
structure AuthorityKept (start db : Directory) : Prop where
  users : db.users.rows.map standing = start.users.rows.map standing
  sites : ∀ claims siteId, canAccessSiteByID db claims siteId = canAccessSiteByID start claims siteId
  cameras : ∀ claims camera, canAccessCamera db claims camera = canAccessCamera start claims camera

/-- The request is refused, or writes the organisation and the sites that its
user has. -/
def Neutral (db : Directory) (call : Call) : Prop :=
  ∀ id update, authorize call = .ok (id, update) → ∀ user ∈ db.users, user.id = id →
    user.organizationId = nullableStr (derefStr update.organizationId) ∧
      user.assignedSiteIds = update.assignedSiteIds.getD []

private theorem step_eq (db : Directory) (call : Call) : step db call =
    match authorize call with
    | .error _ => db
    | .ok (id, update) => updateUserProfile call.env.now db id update := by
  unfold step handleUpdateUserProfile
  cases authorize call with
  | error refusal => rfl
  | ok accepted =>
    simp only
    split <;> rfl

private theorem step_places (db : Directory) (call : Call) :
    (step db call).sites = db.sites ∧ (step db call).cameras = db.cameras := by
  rw [step_eq]
  split <;> exact ⟨rfl, rfl⟩

/-- A request leaves every user's standing as it is exactly when it is neutral. -/
theorem step_standing_iff (db : Directory) (call : Call) :
    (step db call).users.rows.map standing = db.users.rows.map standing ↔ Neutral db call := by
  rw [step_eq]
  unfold Neutral
  cases authorize call with
  | error refusal => simp
  | ok accepted =>
    obtain ⟨id, update⟩ := accepted
    simp only [updateUserProfile, Table.modify, List.map_map, List.map_inj_left, Function.comp_apply,
      Except.ok.injEq, Prod.mk.injEq, Table.mem_def]
    constructor
    · rintro same _ _ ⟨rfl, rfl⟩ user member own
      have written := same user member
      rw [if_pos (by simpa using own)] at written
      simp only [standing, applyProfile, Prod.mk.injEq] at written
      exact ⟨written.2.2.1.symm, written.2.2.2.1.symm⟩
    · intro neutral user member
      by_cases own : user.id = id
      · obtain ⟨organization, sites⟩ := neutral id update ⟨rfl, rfl⟩ user member own
        simp [own, standing, applyProfile, ← organization, ← sites]
      · simp [own]

/-- What the access predicates see of a user lookup. -/
private theorem getUserByID_standing {before after : Directory}
    (same : after.users.rows.map standing = before.users.rows.map standing) (id : UUID) :
    (getUserByID after id).map User.assignedSiteIds = (getUserByID before id).map User.assignedSiteIds := by
  have lookup : ∀ db : Directory, (db.users.find? id).map standing =
      (db.users.rows.map standing).find? fun entry => entry.1 = id := by
    intro db
    rw [List.find?_map]
    rfl
  have found : (after.users.find? id).map standing = (before.users.find? id).map standing := by
    rw [lookup, lookup, same]
  unfold getUserByID Table.lookup
  cases left : after.users.find? id with
  | none =>
    cases right : before.users.find? id with
    | none => rfl
    | some old => simp [left, right] at found
  | some new =>
    cases right : before.users.find? id with
    | none => simp [left, right] at found
    | some old =>
      simp only [left, right, Option.map_some, standing, Option.some.injEq, Prod.mk.injEq] at found
      obtain ⟨-, -, -, sites, deleted⟩ := found
      simp only [deleted]
      split
      · exact congrArg Except.ok sites
      · rfl

/-- Two lookups that see the same fail alike, or find users of the same sites. -/
private theorem getUserByID_cases {start db : Directory}
    (same : db.users.rows.map standing = start.users.rows.map standing) (id : UUID) :
    (∃ reason, getUserByID db id = .error reason ∧ getUserByID start id = .error reason) ∨
      ∃ new old, getUserByID db id = .ok new ∧ getUserByID start id = .ok old ∧
        new.assignedSiteIds = old.assignedSiteIds := by
  have lookup := getUserByID_standing same id
  cases left : getUserByID db id with
  | error reason =>
    cases right : getUserByID start id with
    | error other =>
      rw [left, right] at lookup
      cases lookup
      exact .inl ⟨reason, rfl, rfl⟩
    | ok old =>
      rw [left, right] at lookup
      cases lookup
  | ok new =>
    cases right : getUserByID start id with
    | error other =>
      rw [left, right] at lookup
      cases lookup
    | ok old =>
      rw [left, right] at lookup
      exact .inr ⟨new, old, rfl, rfl, Except.ok.inj lookup⟩

private theorem canAccessSite_same {start db : Directory}
    (same : db.users.rows.map standing = start.users.rows.map standing) (sites : db.sites = start.sites)
    (claims : Option Claims) (siteId : String) :
    canAccessSiteByID db claims siteId = canAccessSiteByID start claims siteId := by
  have siteSame : getSite db siteId = getSite start siteId := by simp only [getSite, sites]
  unfold canAccessSiteByID
  cases claims with
  | none => rfl
  | some claims =>
    simp only [siteSame]
    cases parse claims.userId with
    | none => rfl
    | some uid =>
      rcases getUserByID_cases same uid with ⟨_, left, right⟩ | ⟨_, _, left, right, assigned⟩
      · simp only [left, right]
      · simp only [left, right, assigned]

private theorem authorizedCameraIDs_same {start db : Directory}
    (same : db.users.rows.map standing = start.users.rows.map standing) (cameras : db.cameras = start.cameras)
    (claims : Option Claims) : authorizedCameraIDs db claims = authorizedCameraIDs start claims := by
  unfold authorizedCameraIDs
  cases claims with
  | none => rfl
  | some claims =>
    simp only
    cases parse claims.userId with
    | none => rfl
    | some uid =>
      rcases getUserByID_cases same uid with ⟨_, left, right⟩ | ⟨_, _, left, right, assigned⟩
      · simp only [left, right]
      · simp only [left, right, assigned, camerasAtSites, cameras]

/-- The access predicates depend on a user only through its standing. -/
theorem authority_of_standing {start db : Directory}
    (same : db.users.rows.map standing = start.users.rows.map standing)
    (sites : db.sites = start.sites) (cameras : db.cameras = start.cameras) : AuthorityKept start db := by
  refine ⟨same, canAccessSite_same same sites, fun claims camera => ?_⟩
  unfold canAccessCamera
  cases claims with
  | none => rfl
  | some claims => simp only [authorizedCameraIDs_same same cameras]

/-- Authority is in every state of a run what it was at the start exactly if
every request is refused or writes back what its user has. -/
theorem authority_kept_iff_neutral (start : Directory) (calls : List Call) :
    Throughout step (AuthorityKept start) start calls ↔ Along step Neutral start calls := by
  have places : ∀ db call, (db.sites = start.sites ∧ db.cameras = start.cameras) →
      (step db call).sites = start.sites ∧ (step db call).cameras = start.cameras := by
    intro db call held
    obtain ⟨sites, cameras⟩ := step_places db call
    exact ⟨sites.trans held.1, cameras.trans held.2⟩
  refine throughout_iff_along places ?_ calls start ⟨rfl, rfl⟩ ⟨rfl, fun _ _ => rfl, fun _ _ => rfl⟩
  intro db call held kept
  rw [← step_standing_iff]
  constructor
  · intro later
    exact later.users.trans kept.users.symm
  · intro same
    obtain ⟨sites, cameras⟩ := places db call held
    exact authority_of_standing (same.trans kept.users) sites cameras

private def customer : Claims := ⟨"00000000-0000-0000-0000-00000000000a", "cora", .customer, "Cora", "co-1"⟩

private def twoOrganizations : Directory where
  users := ⟨[⟨⟨10⟩, "cora", .customer, "Cora", "", "", some "co-1", ["AA-100"], 0, 0, none⟩], by decide⟩
  sites := ⟨[⟨"AA-100", "Works", "co-1", none⟩, ⟨"BB-200", "Store", "co-2", none⟩], by decide⟩
  cameras := .empty

/-- A customer names another organisation's site in its own profile and may then see it. -/
theorem customer_assigns_own_site :
    ¬ Throughout step (AuthorityKept twoOrganizations) twoOrganizations
      [{ claims := some customer, id := customer.userId,
         body := some { assignedSiteIds := .value [some "BB-200"] } }] := by
  rintro ⟨-, kept⟩
  have same := kept.sites (some customer) "BB-200"
  revert same
  decide +kernel

end Ironsight.ProfileUpdate
