import Ironsight.Accounts

/-! The account that single sign-on binds an e-mail to: a live one that the lookup
of logins finds, else a deleted one that is resurrected, else a new one under a
username made from the address. The lookup goes by usernames, too, and both kinds
of write meet the index on the usernames of live users. -/
namespace Ironsight.SsoBinding
open Tables Uuid Accounts
open Access (Role uniqueViolation)

/-- `users_username_active_key`: the usernames of live users are different. -/
def NamesUnique (users : Users) : Prop :=
  ∀ first ∈ users, first.deletedAt = none → ∀ second ∈ users, second.deletedAt = none →
    first.username = second.username → first.id = second.id

instance (users : Users) : Decidable (NamesUnique users) :=
  inferInstanceAs (Decidable (∀ first ∈ users, first.deletedAt = none → ∀ second ∈ users, second.deletedAt = none →
    first.username = second.username → first.id = second.id))

/-- The table as the database keeps it. -/
structure Database where
  users : Users
  unique : NamesUnique users

/-- A statement that leaves two live users with one username is refused. -/
def Database.commit (users : Users) : Except String Database :=
  if unique : NamesUnique users then .ok ⟨users, unique⟩
  else .error (uniqueViolation "users_username_active_key")

/-- `UserCreate`; the password comes hashed and by itself. -/
structure UserCreate where
  username : String
  role : Role
  displayName : String
  email : String
  phone : String := ""
  organizationId : String := ""
  assignedSiteIds : List String := []

/-- What a call is made with besides the e-mail, and the `uuid.New` and the clock
that it reads. -/
structure Request where
  role : Role
  id : UUID
  now : Instant

/-- The row that `CreateUser` inserts and answers with. -/
def UserCreate.row (c : UserCreate) (passwordHash : String) (id : UUID) (now : Instant) : User := {
  id, username := c.username, passwordHash, role := c.role, displayName := c.displayName, email := c.email
  phone := c.phone, organizationId := if c.organizationId = "" then none else some c.organizationId
  assignedSiteIds := c.assignedSiteIds, createdAt := now, updatedAt := now }

def createUser (db : Database) (c : UserCreate) (passwordHash : String) (id : UUID) (now : Instant) :
    Except String (Database × User) :=
  match db.users.insert? (c.row passwordHash id now) with
  | none => .error (uniqueViolation "users_pkey")
  | some users => (Database.commit users).map fun after => (after, c.row passwordHash id now)

/-- `email != '' AND lower(email)=lower($1) AND deleted_at IS NOT NULL`. -/
def deletedWith (lower : String → String) (email : String) (user : User) : Bool :=
  user.email ≠ "" ∧ lower user.email = lower email ∧ user.deletedAt ≠ none

/-- `UPDATE users SET deleted_at=NULL, role=$2, updated_at=NOW() WHERE id=$1`. -/
def resurrect (db : Database) (id : UUID) (role : Role) (now : Instant) : Except String Database :=
  Database.commit (db.users.modify (fun user => user.id = id)
    (fun user => { user with deletedAt := none, role, updatedAt := now }) fun _ => rfl)

/-- The part of the address before the first at-sign, if there is one. -/
def localPart (email : String) : String :=
  let before := email.toList.takeWhile (· ≠ '@')
  if '@' ∈ email.toList ∧ before ≠ [] then String.ofList before else email

/-- `username` after so many tries. -/
def candidate (localPart : String) : Nat → String
  | 0 => localPart
  | tries + 1 => localPart ++ "." ++ toString (tries + 1)

/-- The loop over the usernames, of which `left` are still looked up. -/
def freeUsername (taken : String → Bool) (localPart : String) : (left tries : Nat) → String
  | 0, tries => candidate localPart tries
  | left + 1, tries =>
    if taken (candidate localPart tries) then freeUsername taken localPart left (tries + 1)
    else candidate localPart tries

def maxTries : Nat := 5

/-- `GetOrCreateUserByEmail`, with the scan that its lookups meet the rows in. -/
def getOrCreateUserByEmail (lower : String → String) (scan : Scan User) (db : Database) (email : String)
    (request : Request) : Database × Except String (Option User) :=
  if email = "" then (db, .ok none)
  else
    match getUserByUsernameOrEmail lower scan db.users email with
    | some user => (db, .ok (some user))
    | none =>
      match scan.first db.users (deletedWith lower email) with
      | some deleted =>
        match resurrect db deleted.id request.role request.now with
        | .error reason => (db, .error ("GetOrCreateUserByEmail resurrect: " ++ reason))
        | .ok after => (after, .ok (some { deleted with role := request.role, deletedAt := none }))
      | none =>
        let taken username := (getUserByUsernameOrEmail lower scan db.users username).isSome
        let username := freeUsername taken (localPart email) maxTries 0
        let c : UserCreate := { username, role := request.role, displayName := localPart email, email }
        match createUser db c "!sso!" request.id request.now with
        | .error reason => (db, .error reason)
        | .ok (after, user) => (after, .ok (some user))

/-! ## What a binding is -/

/-- The call answers with a live user that has the e-mail, and the next call with
the same user. -/
def Binds (lower : String → String) (db : Database) (email : String) (first second : Scan User × Request) : Prop :=
  ∃ user again, (getOrCreateUserByEmail lower first.1 db email first.2).2 = .ok (some user) ∧
    user.deletedAt = none ∧ lower user.email = lower email ∧
    (∃ row ∈ (getOrCreateUserByEmail lower first.1 db email first.2).1.users,
      row.id = user.id ∧ row.deletedAt = none ∧ lower row.email = lower email) ∧
    (getOrCreateUserByEmail lower second.1 (getOrCreateUserByEmail lower first.1 db email first.2).1 email
      second.2).2 = .ok (some again) ∧ again.id = user.id

/-- The tables in which single sign-on can bind the address. -/
structure Bindable (lower : String → String) (users : Users) (email : String) : Prop where
  /-- One live user at most is named by the address, and it is its e-mail. -/
  live : ∀ user ∈ users, Named lower email user →
    lower user.email = lower email ∧ ∀ other ∈ users, Named lower email other → other = user
  /-- Without one, no deleted user with the e-mail lost the username to a live one. -/
  resurrected : (∀ user ∈ users, ¬Named lower email user) → ∀ deleted ∈ users, deletedWith lower email deleted = true →
    ∀ user ∈ users, user.deletedAt = none → user.username ≠ deleted.username
  /-- Without either, the last username is free if those looked up are not. -/
  created : (∀ user ∈ users, ¬Named lower email user) → (∀ user ∈ users, deletedWith lower email user = false) →
    (∀ tries < maxTries, ∃ user ∈ users, Named lower (candidate (localPart email) tries) user) →
      ∀ user ∈ users, user.deletedAt = none → user.username ≠ candidate (localPart email) maxTries

/-! ## Writes under the index -/

variable {lower : String → String} {db after : Database} {users : Users} {email : String} {request : Request}
  {bound deleted : User}

/-- The table with one row written over the one under its key, if there is one. -/
private def Writes (before : Users) (row : User) (users : Users) : Prop :=
  ∀ other, other ∈ users ↔ other = row ∨ other ∈ before ∧ other.id ≠ row.id

private theorem commit_ok (done : Database.commit users = .ok after) : after.users = users := by
  unfold Database.commit at done
  split at done
  · cases done
    rfl
  · cases done

private theorem commit_of_unique (unique : NamesUnique users) : Database.commit users = .ok ⟨users, unique⟩ :=
  dif_pos unique

/-- The index admits a live row exactly when no other live row has its username. -/
private theorem unique_iff_free (written : Writes db.users bound users) (live : bound.deletedAt = none) :
    NamesUnique users ↔
      ∀ user ∈ db.users, user.id ≠ bound.id → user.deletedAt = none → user.username ≠ bound.username := by
  constructor
  · intro unique user member other alive same
    have kept : user ∈ users := (written user).mpr (.inr ⟨member, other⟩)
    have new : bound ∈ users := (written bound).mpr (.inl rfl)
    exact other (unique user kept alive bound new live same)
  · intro free first firstMem firstLive second secondMem secondLive same
    rcases (written first).mp firstMem with rfl | ⟨firstOld, firstOther⟩
    · rcases (written second).mp secondMem with rfl | ⟨secondOld, secondOther⟩
      · rfl
      · exact absurd same.symm (free second secondOld secondOther secondLive)
    · rcases (written second).mp secondMem with rfl | ⟨secondOld, _⟩
      · exact absurd same (free first firstOld firstOther firstLive)
      · exact db.unique first firstOld firstLive second secondOld secondLive same

private def revived (request : Request) (deleted : User) : User :=
  { deleted with deletedAt := none, role := request.role, updatedAt := request.now }

private theorem modify_writes (member : deleted ∈ users) (request : Request) :
    Writes users (revived request deleted) (users.modify (fun user => user.id = deleted.id)
      (fun user => { user with deletedAt := none, role := request.role, updatedAt := request.now }) fun _ => rfl) := by
  intro other
  rw [Table.mem_modify]
  constructor
  · rintro ⟨old, held, rfl⟩
    by_cases same : old.id = deleted.id
    · rw [Table.key_inj held member same]
      exact .inl (if_pos (decide_eq_true rfl))
    · rw [if_neg (by simpa using same)]
      exact .inr ⟨held, same⟩
  · rintro (rfl | ⟨held, different⟩)
    · exact ⟨deleted, member, (if_pos (decide_eq_true rfl)).symm⟩
    · exact ⟨other, held, (if_neg fun same => different (of_decide_eq_true same)).symm⟩

/-- A deleted user can be resurrected exactly when no live one has the username. -/
private theorem resurrect_free (member : deleted ∈ db.users) (gone : deleted.deletedAt ≠ none)
    (done : resurrect db deleted.id request.role request.now = .ok after) :
    ∀ user ∈ db.users, user.deletedAt = none → user.username ≠ deleted.username := by
  intro user held alive
  have unique : NamesUnique _ := commit_ok done ▸ after.unique
  refine (unique_iff_free (modify_writes member request) rfl).mp unique user held ?_ alive
  intro same
  rw [Table.key_inj held member same] at alive
  exact gone alive

private theorem resurrect_of_free (member : deleted ∈ db.users)
    (free : ∀ user ∈ db.users, user.deletedAt = none → user.username ≠ deleted.username) (request : Request) :
    ∃ after, resurrect db deleted.id request.role request.now = .ok after ∧
      Writes db.users (revived request deleted) after.users := by
  have written := modify_writes member request
  have unique := (unique_iff_free written rfl).mpr fun user held _ alive => free user held alive
  exact ⟨_, commit_of_unique unique, written⟩

private theorem insert_writes {row : User} (fresh : ∀ user ∈ db.users, user.id ≠ row.id)
    (done : db.users.insert? row = some users) : Writes db.users row users := by
  intro other
  rw [Table.mem_insert? done, or_comm]
  refine or_congr_right ⟨fun member => ⟨member, fresh other member⟩, fun member => member.1⟩

variable {c : UserCreate} {passwordHash : String} {id : UUID} {now : Instant}

/-- Under a new identifier, a user can be created exactly when no live one has the
username. -/
private theorem createUser_free {user : User} (fresh : ∀ user ∈ db.users, user.id ≠ id)
    (done : createUser db c passwordHash id now = .ok (after, user)) :
    ∀ user ∈ db.users, user.deletedAt = none → user.username ≠ c.username := by
  have new : ∀ user ∈ db.users, user.id ≠ (c.row passwordHash id now).id := fresh
  obtain ⟨users, inserted⟩ := Table.insert?_of_fresh new
  simp only [createUser, inserted] at done
  cases kept : Database.commit users with
  | error reason =>
    rw [kept] at done
    cases done
  | ok result =>
    have unique : NamesUnique users := commit_ok kept ▸ result.unique
    intro other member alive
    exact (unique_iff_free (insert_writes fresh inserted) rfl).mp unique other member (fresh other member) alive

private theorem createUser_of_free (fresh : ∀ user ∈ db.users, user.id ≠ id)
    (free : ∀ user ∈ db.users, user.deletedAt = none → user.username ≠ c.username) (passwordHash : String)
    (now : Instant) :
    ∃ after, createUser db c passwordHash id now = .ok (after, c.row passwordHash id now) ∧
      Writes db.users (c.row passwordHash id now) after.users := by
  have new : ∀ user ∈ db.users, user.id ≠ (c.row passwordHash id now).id := fresh
  obtain ⟨users, inserted⟩ := Table.insert?_of_fresh new
  have written := insert_writes fresh inserted
  have unique := (unique_iff_free written rfl).mpr fun user held _ alive => free user held alive
  refine ⟨⟨users, unique⟩, ?_, written⟩
  simp only [createUser, inserted, commit_of_unique unique, Except.map]

/-- The loop ends with a free username, or with the one after all it looked up. -/
private theorem freeUsername_cases (taken : String → Bool) (part : String) : ∀ left tries,
    (∃ free, tries ≤ free ∧ free < tries + left ∧ taken (candidate part free) = false ∧
        freeUsername taken part left tries = candidate part free) ∨
      (∀ used, tries ≤ used → used < tries + left → taken (candidate part used) = true) ∧
        freeUsername taken part left tries = candidate part (tries + left)
  | 0, tries => .inr ⟨fun used above below => absurd below (by omega), rfl⟩
  | left + 1, tries => by
    rw [freeUsername]
    split
    · rename_i first
      rcases freeUsername_cases taken part left (tries + 1) with ⟨free, above, below, unused, same⟩ | ⟨all, same⟩
      · exact .inl ⟨free, by omega, by omega, unused, same⟩
      · refine .inr ⟨fun used above below => ?_, by rw [same]; congr 1; omega⟩
        rcases Nat.eq_or_lt_of_le above with rfl | later
        · exact first
        · exact all used later (by omega)
    · rename_i unused
      exact .inl ⟨tries, le_rfl, by omega, by simpa using unused, rfl⟩

/-! ## Calls -/

variable {scan : Scan User} {user : User}

private theorem taken_iff (scan : Scan User) {username : String} :
    (getUserByUsernameOrEmail lower scan users username).isSome = true ↔ ∃ user ∈ users, Named lower username user := by
  rw [← not_iff_not, Bool.not_eq_true, Option.isSome_eq_false_iff, Option.isNone_iff_eq_none, lookup_eq_none]
  simp only [not_exists, not_and]

/-- The first lookup finds a live user. -/
private theorem call_found (nonempty : email ≠ "")
    (found : getUserByUsernameOrEmail lower scan db.users email = some user) (request : Request) :
    getOrCreateUserByEmail lower scan db email request = (db, .ok (some user)) := by
  rw [getOrCreateUserByEmail, if_neg nonempty, found]

/-- The lookups find a deleted user only. -/
private theorem call_deleted (nonempty : email ≠ "") (unnamed : ∀ user ∈ db.users, ¬Named lower email user)
    (found : scan.first db.users (deletedWith lower email) = some deleted) (request : Request) :
    getOrCreateUserByEmail lower scan db email request =
      match resurrect db deleted.id request.role request.now with
      | .error reason => (db, .error ("GetOrCreateUserByEmail resurrect: " ++ reason))
      | .ok after => (after, .ok (some { deleted with role := request.role, deletedAt := none })) := by
  rw [getOrCreateUserByEmail, if_neg nonempty, lookup_eq_none.mpr unnamed]
  simp only [found]

/-- What a call asks for when the lookups find nobody. -/
private def wanted (lower : String → String) (scan : Scan User) (users : Users) (email : String) (request : Request) :
    UserCreate where
  username := freeUsername (fun username => (getUserByUsernameOrEmail lower scan users username).isSome)
    (localPart email) maxTries 0
  role := request.role
  displayName := localPart email
  email := email

private theorem call_new (nonempty : email ≠ "") (unnamed : ∀ user ∈ db.users, ¬Named lower email user)
    (none_ : ∀ user ∈ db.users, deletedWith lower email user = false) (scan : Scan User) (request : Request) :
    getOrCreateUserByEmail lower scan db email request =
      match createUser db (wanted lower scan db.users email request) "!sso!" request.id request.now with
      | .error reason => (db, .error reason)
      | .ok (after, user) => (after, .ok (some user)) := by
  rw [getOrCreateUserByEmail, if_neg nonempty, lookup_eq_none.mpr unnamed]
  simp only [Scan.first_eq_none.mpr none_]
  rfl

/-- The username of a new user is free, unless all that were looked up are taken and
the last one is, too. -/
private theorem wanted_free
    (open_ : (∀ tries < maxTries, ∃ user ∈ users, Named lower (candidate (localPart email) tries) user) →
      ∀ user ∈ users, user.deletedAt = none → user.username ≠ candidate (localPart email) maxTries)
    (scan : Scan User) (request : Request) :
    ∀ user ∈ users, user.deletedAt = none → user.username ≠ (wanted lower scan users email request).username := by
  rcases freeUsername_cases (fun username => (getUserByUsernameOrEmail lower scan users username).isSome)
      (localPart email) maxTries 0 with ⟨free, _, _, unused, same⟩ | ⟨all, same⟩
  · intro user member alive clash
    have named : Named lower (candidate (localPart email) free) user :=
      ⟨alive, decide_eq_true (.inl (clash.trans same))⟩
    exact absurd ((taken_iff scan).mpr ⟨user, member, named⟩) (Bool.eq_false_iff.mp unused)
  · have last := open_ fun tries below => (taken_iff scan).mp (all tries (Nat.zero_le _) (by omega))
    intro user member alive clash
    exact last user member alive (clash.trans (same.trans (by rw [Nat.zero_add])))

private theorem wanted_last (used : ∀ tries < maxTries, ∃ user ∈ users, Named lower (candidate (localPart email) tries) user) :
    (wanted lower scan users email request).username = candidate (localPart email) maxTries := by
  rcases freeUsername_cases (fun username => (getUserByUsernameOrEmail lower scan users username).isSome)
      (localPart email) maxTries 0 with ⟨free, _, below, unused, _⟩ | ⟨_, same⟩
  · have taken := (taken_iff scan).mpr (used free (by omega))
    rw [unused] at taken
    cases taken
  · exact same.trans (by rw [Nat.zero_add])

/-- A call that wrote the only live user with the e-mail has bound it. -/
private theorem binds_of_writes {first second : Scan User × Request} {answer : User} (nonempty : email ≠ "")
    (unnamed : ∀ user ∈ db.users, ¬Named lower email user)
    (called : getOrCreateUserByEmail lower first.1 db email first.2 = (after, .ok (some answer)))
    (written : Writes db.users bound after.users) (named : Named lower email bound)
    (address : lower bound.email = lower email) (same : answer.id = bound.id) (alive : answer.deletedAt = none)
    (mail : answer.email = bound.email) : Binds lower db email first second := by
  have held : bound ∈ after.users := (written bound).mpr (.inl rfl)
  have only : ∀ other ∈ after.users, Named lower email other → other = bound := by
    intro other member theirs
    rcases (written other).mp member with rfl | ⟨old, _⟩
    · rfl
    · exact absurd theirs (unnamed other old)
  have found : getUserByUsernameOrEmail lower second.1 after.users email = some bound :=
    Scan.first_of_only held (decide_eq_true named) fun other member picked => only other member (of_decide_eq_true picked)
  refine ⟨answer, bound, by rw [called], alive, by rw [mail, address], ?_, ?_, same.symm⟩
  · rw [called]
    exact ⟨bound, held, same.symm, named.1, address⟩
  · rw [called, call_found nonempty found]

/-- In a bindable table every pair of calls binds the e-mail. -/
private theorem binds_of_bindable {first second : Scan User × Request} (nonempty : email ≠ "")
    (fresh : ∀ user ∈ db.users, user.id ≠ first.2.id) (able : Bindable lower db.users email) :
    Binds lower db email first second := by
  cases found : getUserByUsernameOrEmail lower first.1 db.users email with
  | some user =>
    obtain ⟨member, named⟩ := lookup_some found
    obtain ⟨address, only⟩ := able.live user member named
    have again : getUserByUsernameOrEmail lower second.1 db.users email = some user :=
      Scan.first_of_only member (decide_eq_true named) fun other held picked => only other held (of_decide_eq_true picked)
    rw [Binds, call_found nonempty found]
    exact ⟨user, user, rfl, named.1, address, ⟨user, member, rfl, named.1, address⟩,
      congrArg Prod.snd (call_found nonempty again second.2), rfl⟩
  | none =>
    have unnamed := lookup_eq_none.mp found
    cases old : first.1.first db.users (deletedWith lower email) with
    | some deleted =>
      obtain ⟨member, picked⟩ := Scan.first_some old
      obtain ⟨some_, address, _⟩ := of_decide_eq_true picked
      have free := able.resurrected unnamed deleted member picked
      obtain ⟨after, done, written⟩ := resurrect_of_free member free first.2
      have called := call_deleted nonempty unnamed old first.2
      rw [done] at called
      exact binds_of_writes nonempty unnamed called written ⟨rfl, decide_eq_true (.inr ⟨some_, address⟩)⟩ address rfl rfl rfl
    | none =>
      have none_ := Scan.first_eq_none.mp old
      have free := wanted_free (able.created unnamed none_) first.1 first.2
      obtain ⟨after, done, written⟩ := createUser_of_free fresh free "!sso!" first.2.now
      have called := call_new nonempty unnamed none_ first.1 first.2
      rw [done] at called
      exact binds_of_writes nonempty unnamed called written ⟨rfl, decide_eq_true (.inr ⟨nonempty, rfl⟩)⟩ rfl rfl rfl rfl

/-- When every pair of calls binds the e-mail, the table is bindable: each way in which
it is not has a scan that meets it. -/
private theorem bindable_of_binds {first second : Request} (nonempty : email ≠ "")
    (fresh : ∀ user ∈ db.users, user.id ≠ first.id)
    (binds : ∀ scan again, Binds lower db email (scan, first) (again, second)) : Bindable lower db.users email where
  live user member named := by
    have leading {other : User} (held : other ∈ db.users) (theirs : Named lower email other) :
        getUserByUsernameOrEmail lower (Scan.leading other) db.users email = some other :=
      Scan.leading_first held (decide_eq_true theirs)
    have called (request : Request) := call_found nonempty (leading member named) request
    constructor
    · obtain ⟨answer, _, answered, _, address, _⟩ := binds (Scan.leading user) (Scan.leading user)
      rw [called] at answered
      cases answered
      exact address
    · intro other held theirs
      obtain ⟨answer, again, answered, _, _, _, repeated, same⟩ := binds (Scan.leading user) (Scan.leading other)
      rw [called] at answered repeated
      rw [call_found nonempty (leading held theirs)] at repeated
      cases answered
      cases repeated
      exact Table.key_inj held member same
  resurrected unnamed deleted member picked := by
    have called := call_deleted nonempty unnamed (Scan.leading_first member picked) first
    obtain ⟨answer, _, answered, _⟩ := binds (Scan.leading deleted) Scan.inOrder
    rw [called] at answered
    cases done : resurrect db deleted.id first.role first.now with
    | error reason =>
      rw [done] at answered
      cases answered
    | ok after => exact resurrect_free member (of_decide_eq_true picked).2.2 done
  created unnamed none_ used := by
    have called := call_new nonempty unnamed none_ Scan.inOrder first
    obtain ⟨answer, _, answered, _⟩ := binds Scan.inOrder Scan.inOrder
    rw [called] at answered
    cases done : createUser db (wanted lower Scan.inOrder db.users email first) "!sso!" first.id first.now with
    | error reason =>
      rw [done] at answered
      cases answered
    | ok result =>
      intro user member alive
      rw [← wanted_last used]
      exact createUser_free fresh done user member alive

/-- Single sign-on binds an e-mail, whatever row a lookup meets first, exactly in the
tables that are bindable. -/
theorem binds_iff_bindable (lower : String → String) (db : Database) {email : String} (nonempty : email ≠ "")
    (first second : Request) (fresh : ∀ user ∈ db.users, user.id ≠ first.id) :
    (∀ scan again, Binds lower db email (scan, first) (again, second)) ↔ Bindable lower db.users email :=
  ⟨bindable_of_binds nonempty fresh, fun able _ _ => binds_of_bindable nonempty fresh able⟩

private def lowerAscii (s : String) : String := String.ofList (s.toList.map Char.toLower)

private def person (id : UUID) (username email : String) (deletedAt : Option Instant) : User :=
  { id, username, email, role := .viewer, deletedAt }

private def signOn : Request := ⟨.viewer, ⟨9⟩, 500⟩

private def otherKim : Database :=
  ⟨pair (person ⟨1⟩ "kim" "kim@other.com" none) (person ⟨2⟩ "lee" "Lee@Site.com" (some 100)) (by decide), by decide⟩

/-- The username that the address asks for belongs to another user. -/
theorem kim_bound_to_second_name :
    (getOrCreateUserByEmail lowerAscii Scan.inOrder otherKim "kim@site.com" signOn).2.toOption.join.map User.username =
        some "kim.1" ∧
      ∀ scan again, Binds lowerAscii otherKim "kim@site.com" (scan, signOn) (again, signOn) :=
  ⟨by decide, (binds_iff_bindable lowerAscii otherKim (by decide) signOn signOn (by decide)).mpr
    ⟨by decide, by decide, by decide⟩⟩

/-- Another account has the address for its username. -/
private def impostor : Database :=
  ⟨pair (person ⟨1⟩ "kim@site.com" "kim@other.com" none) (person ⟨2⟩ "kim" "kim@site.com" (some 100)) (by decide),
    by decide⟩

/-- Another account took the username of a deleted one. -/
private def successor : Database :=
  ⟨pair (person ⟨1⟩ "kim" "kim@other.com" none) (person ⟨2⟩ "kim" "kim@site.com" (some 100)) (by decide), by decide⟩

/-- Somebody is logged in as the account of that username, and the owner of a deleted
account cannot log in at all. -/
theorem address_bound_to_other :
    (getOrCreateUserByEmail lowerAscii Scan.inOrder impostor "kim@site.com" signOn).2 =
        .ok (some (person ⟨1⟩ "kim@site.com" "kim@other.com" none)) ∧
      ¬Binds lowerAscii impostor "kim@site.com" (Scan.inOrder, signOn) (Scan.inOrder, signOn) ∧
    (getOrCreateUserByEmail lowerAscii Scan.inOrder successor "kim@site.com" signOn).2 =
        .error ("GetOrCreateUserByEmail resurrect: " ++ uniqueViolation "users_username_active_key") ∧
      ¬Binds lowerAscii successor "kim@site.com" (Scan.inOrder, signOn) (Scan.inOrder, signOn) := by
  have other : (getOrCreateUserByEmail lowerAscii Scan.inOrder impostor "kim@site.com" signOn).2 =
      .ok (some (person ⟨1⟩ "kim@site.com" "kim@other.com" none)) := by rfl
  have refused : (getOrCreateUserByEmail lowerAscii Scan.inOrder successor "kim@site.com" signOn).2 =
      .error ("GetOrCreateUserByEmail resurrect: " ++ uniqueViolation "users_username_active_key") := by rfl
  refine ⟨other, ?_, refused, ?_⟩
  · rintro ⟨user, _, answered, _, address, _⟩
    rw [other] at answered
    cases answered
    exact absurd address (by decide)
  · rintro ⟨user, _, answered, _⟩
    rw [refused] at answered
    cases answered

end Ironsight.SsoBinding
