import Ironsight.Access

/-! The accounts of `users` with their credentials, and the lookup by which both
password logins and single sign-on find one. No constraint keeps two accounts
from sharing an e-mail, or one's username from being the e-mail of another. -/
namespace Ironsight.Accounts
open Tables Uuid
open Access (Role)

/-- Microseconds since the Unix epoch, which is what a `timestamptz` keeps. -/
abbrev Instant := Int

/-- A row of `users`. -/
structure User where
  id : UUID
  username : String
  passwordHash : String := ""
  role : Role
  displayName : String := ""
  email : String := ""
  phone : String := ""
  organizationId : Option String := none
  assignedSiteIds : List String := []
  createdAt : Instant := 0
  updatedAt : Instant := 0
  mfaEnabled : Bool := false
  failedLoginAttempts : Nat := 0
  lockedUntil : Option Instant := none
  deletedAt : Option Instant := none
  deriving DecidableEq

abbrev Users := Table User.id

variable {lower : String → String} {scan : Scan User} {users : Users} {identifier : String} {user : User}

/-- `username=$1 OR (email != '' AND lower(email)=lower($1))`, where `lower` is the
database's. -/
def identifies (lower : String → String) (identifier : String) (user : User) : Bool :=
  user.username = identifier ∨ user.email ≠ "" ∧ lower user.email = lower identifier

/-- A row of `users_active` that an identifier names. -/
def Named (lower : String → String) (identifier : String) (user : User) : Prop :=
  user.deletedAt = none ∧ identifies lower identifier user = true

instance : Decidable (Named lower identifier user) := inferInstanceAs (Decidable (_ ∧ _))

/-- `GetUserByUsernameOrEmail`. -/
def getUserByUsernameOrEmail (lower : String → String) (scan : Scan User) (users : Users) (identifier : String) :
    Option User :=
  scan.first users fun user => Named lower identifier user

theorem lookup_some (found : getUserByUsernameOrEmail lower scan users identifier = some user) :
    user ∈ users ∧ Named lower identifier user := by
  obtain ⟨member, named⟩ := Scan.first_some found
  exact ⟨member, of_decide_eq_true named⟩

theorem lookup_eq_none :
    getUserByUsernameOrEmail lower scan users identifier = none ↔ ∀ user ∈ users, ¬Named lower identifier user := by
  rw [getUserByUsernameOrEmail, Scan.first_eq_none]
  simp only [decide_eq_false_iff_not]

/-- A table of two accounts. -/
def pair (first second : User) (differ : first.id ≠ second.id) : Users := ⟨[first, second], by simp [differ]⟩

end Ironsight.Accounts
