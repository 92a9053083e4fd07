import Ironsight.Access

/-! The tenancy rule is written four times, in SQL and in Go: the site list, the
single site, the site check and the camera check. The three about sites agree
for every restricted caller and every state of the tables. The camera check
reads the base table and trusts the assignment list, so it agrees exactly when
nothing the caller is assigned to has been soft-deleted. -/
namespace Ironsight.AccessAgreement
open Tables Uuid Access

/-- `HandleGetSite`: a site out of scope is answered like an unknown one. -/
def handleGetSite (db : Directory) (claims : Option Claims) (id : String) : Reply Site :=
  match getSite db id with
  | .error _ => .error 404 "Site not found"
  | .ok site =>
    let scope := callerScope db claims
    if scope.isUnscoped then .json 200 site
    else if (scope.organizationId ≠ "" ∧ site.organizationId = scope.organizationId) ∨
        scope.assignedSiteIds.contains id then .json 200 site
    else .error 404 "Site not found"

/-- The site is in the list the caller gets. -/
def Listed (db : Directory) (claims : Claims) (siteId : String) : Prop :=
  ∃ site ∈ listSitesScoped db (callerScope db (some claims)), site.id = siteId

/-- The caller gets the site itself. -/
def Served (db : Directory) (claims : Claims) (siteId : String) : Prop :=
  ∃ site, site.id = siteId ∧ handleGetSite db (some claims) siteId = .json 200 site

/-- A live camera at a site that the caller gets to see. -/
def VisibleCamera (db : Directory) (claims : Claims) (id : UUID) : Prop :=
  ∃ camera ∈ db.cameras, camera.id = id ∧ camera.deletedAt = none ∧ ∃ siteId ∈ camera.siteId, Listed db claims siteId

/-- The four copies of the rule say the same of this caller. -/
structure AccessAgrees (db : Directory) (claims : Claims) : Prop where
  served : ∀ siteId, Listed db claims siteId ↔ Served db claims siteId
  checked : ∀ siteId, Served db claims siteId ↔ canAccessSiteByID db (some claims) siteId = .ok true
  cameras : ∀ id, canAccessCamera db (some claims) id = .ok true → VisibleCamera db claims id

/-- Every camera at a site that the caller's own row is assigned to is live, and
so is the site. -/
def AssignedLive (db : Directory) (claims : Claims) : Prop :=
  ∀ user ∈ db.users, parse claims.userId = some user.id → user.deletedAt = none →
    ∀ camera ∈ db.cameras, ∀ siteId ∈ camera.siteId, siteId ∈ user.assignedSiteIds →
      camera.deletedAt = none ∧ ∃ site ∈ db.sites, site.id = siteId ∧ site.deletedAt = none

section Restricted
variable {db : Directory} {claims : Claims}

private theorem scope_limited (restricted : globalViewRoles claims.role = false) :
    (callerScope db (some claims)).isUnscoped = false := by
  simp [callerScope, CallerScope.isUnscoped, restricted]

/-- What a restricted caller reaches: a live site of the organisation or of the
assignment list. -/
theorem listed_iff (restricted : globalViewRoles claims.role = false) {siteId : String} :
    Listed db claims siteId ↔ ∃ site ∈ db.sites, site.id = siteId ∧ site.deletedAt = none ∧
      ((claims.organizationId ≠ "" ∧ site.organizationId = claims.organizationId) ∨
        siteId ∈ (callerScope db (some claims)).assignedSiteIds) := by
  have organization : (callerScope db (some claims)).organizationId = claims.organizationId := rfl
  unfold Listed
  simp only [mem_listSitesScoped, scope_limited restricted, Bool.false_eq_true, false_or, organization]
  constructor
  · rintro ⟨site, ⟨member, live, reached⟩, rfl⟩
    exact ⟨site, member, rfl, live, reached⟩
  · rintro ⟨site, member, rfl, live, reached⟩
    exact ⟨site, ⟨member, live, reached⟩, rfl⟩

/-- The single site follows the list. -/
theorem served_iff_listed (restricted : globalViewRoles claims.role = false) {siteId : String} :
    Served db claims siteId ↔ Listed db claims siteId := by
  rw [listed_iff restricted]
  have limited : (callerScope db (some claims)).isUnscoped = false := scope_limited restricted
  unfold Served handleGetSite
  cases found : getSite db siteId with
  | error err =>
    constructor
    · rintro ⟨site, _, answered⟩
      cases answered
    · rintro ⟨site, member, same, live, _⟩
      rw [getSite_ok.mpr ⟨member, same, live⟩] at found
      cases found
  | ok row =>
    obtain ⟨member, same, live⟩ := getSite_ok.mp found
    simp only [limited, Bool.false_eq_true, if_false]
    constructor
    · rintro ⟨site, _, answered⟩
      split at answered
      · rename_i reached
        exact ⟨row, member, same, live, reached.imp_right List.contains_iff_mem.mp⟩
      · cases answered
    · rintro ⟨site, held, sameSite, _, reached⟩
      have here : site = row := Table.key_inj held member (sameSite.trans same.symm)
      rw [here] at reached
      exact ⟨row, same, if_pos (reached.imp_right List.contains_iff_mem.mpr)⟩

/-- The camera check admits what the allowlist holds. -/
theorem canAccessCamera_iff (restricted : globalViewRoles claims.role = false) {id : UUID} :
    canAccessCamera db (some claims) id = .ok true ↔ id ∈ cameraView db (some claims) := by
  have finite : ∀ ids all, authorizedCameraIDs db (some claims) = .ok (ids, all) → all = true := by
    intro ids all found
    simp only [authorizedCameraIDs, restricted, Bool.false_eq_true, if_false] at found
    split at found
    · cases found
      rfl
    · split at found
      · cases found
      · split at found <;> (cases found; rfl)
  simp only [canAccessCamera, cameraView, restricted, Bool.false_eq_true, if_false]
  cases found : authorizedCameraIDs db (some claims) with
  | error err => simp
  | ok answer =>
    obtain ⟨ids, all⟩ := answer
    simp [finite ids all found]

end Restricted

/-- For every restricted caller and every state of the tables, the access
predicates agree exactly if no camera at an assigned site, and no such site, has
been soft-deleted. -/
theorem access_agrees_iff_assigned_live (db : Directory) (claims : Claims)
    (restricted : globalViewRoles claims.role = false) : AccessAgrees db claims ↔ AssignedLive db claims := by
  constructor
  · intro agrees user member named live camera held siteId placed assigned
    have admitted : canAccessCamera db (some claims) camera.id = .ok true :=
      (canAccessCamera_iff restricted).mpr ((mem_cameraView restricted).mpr
        ⟨user, member, named, live, camera, held, rfl, siteId, placed, assigned⟩)
    obtain ⟨seen, present, same, working, place, there, listed⟩ := agrees.cameras camera.id admitted
    obtain rfl : seen = camera := Table.key_inj present held same
    obtain rfl : place = siteId := Option.some.inj (there.symm.trans placed)
    obtain ⟨site, known, sameSite, open_, _⟩ := (listed_iff restricted).mp listed
    exact ⟨working, site, known, sameSite, open_⟩
  · intro assignedLive
    refine ⟨fun _ => (served_iff_listed restricted).symm, fun siteId => ?_, fun id admitted => ?_⟩
    · rw [served_iff_listed restricted, canAccessSiteByID_iff_listed restricted]
      rfl
    · obtain ⟨user, member, named, live, camera, held, rfl, siteId, placed, assigned⟩ :=
        (mem_cameraView restricted).mp ((canAccessCamera_iff restricted).mp admitted)
      obtain ⟨working, site, known, sameSite, open_⟩ := assignedLive user member named live camera held siteId placed assigned
      have found : getUserByID db user.id = .ok user := getUserByID_ok.mpr ⟨member, rfl, live⟩
      have inScope : siteId ∈ (callerScope db (some claims)).assignedSiteIds := by
        simpa [callerScope, named, found] using assigned
      exact ⟨camera, held, rfl, working, siteId, placed,
        (listed_iff restricted).mpr ⟨site, known, sameSite, open_, .inr inScope⟩⟩

private def guardUser : User where
  id := .nil
  username := "gate"
  role := .guard
  organizationId := none
  assignedSiteIds := ["AB-123"]

private def gateCamera (deletedAt : Option Instant) : Directory where
  users := ⟨[guardUser], by simp⟩
  sites := ⟨[{ id := "AB-123", name := "Depot", organizationId := "co-1" }], by simp⟩
  cameras := ⟨[{ id := .nil, name := "Gate", siteId := some "AB-123", deletedAt }], by simp⟩

private def gateClaims : Claims where
  userId := "00000000-0000-0000-0000-000000000000"
  username := "gate"
  role := .guard
  organizationId := ""

/-- The camera is not deleted. -/
theorem access_agrees_live_camera : AccessAgrees (gateCamera none) gateClaims := by
  refine (access_agrees_iff_assigned_live (gateCamera none) gateClaims rfl).mpr ?_
  intro user _ _ _ camera held siteId placed _
  obtain rfl := List.mem_singleton.mp held
  cases placed
  exact ⟨rfl, _, List.mem_singleton.mpr rfl, rfl, rfl⟩

/-- A camera that has been removed is still admitted for the guard at its site. -/
theorem access_agrees_removed_camera : ¬ AccessAgrees (gateCamera (some 7)) gateClaims := by
  intro agrees
  obtain ⟨camera, held, _, working, _⟩ := agrees.cameras .nil (by decide)
  obtain rfl := List.mem_singleton.mp held
  cases working

end Ironsight.AccessAgreement
