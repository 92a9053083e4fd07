import Ironsight.Accounts
import Ironsight.Runs

/-! The lockout of accounts after failed logins. The password is checked against
the account that the identifier is resolved to among the live users, and the
failure is counted by a statement that resolves the identifier again, over all
users. -/
namespace Ironsight.LoginLockout
open Tables Runs Uuid Accounts

/-- The database's `lower` and `auth.CheckPassword`. -/
structure Library where
  lower : String → String
  checkPassword : String → String → Bool

/-- A login request, when it is looked at and how much later a failure is
counted, and what `verifyMFACode` says of its code. -/
structure Attempt where
  now : Instant
  lag : Nat := 0
  username : String
  password : String
  mfaCode : String := ""
  mfaVerified : Bool := false
  scan : Scan User

def LockoutThreshold : Nat := 5

/-- Fifteen minutes. -/
def LockoutDuration : Int := 900000000

/-- The greatest value of an `integer` column. -/
def maxInteger : Nat := 2147483647

/-! ## Statements -/

def isUserLocked (users : Users) (id : UUID) (now : Instant) : Bool :=
  match users.find? id with
  | none => false
  | some user => user.lockedUntil.any fun until_ => now < until_

/-- `WHERE username = $1 OR LOWER(email) = LOWER($1)`, deleted users included. -/
def counts (lib : Library) (username : String) (user : User) : Bool :=
  user.username = username ∨ lib.lower user.email = lib.lower username

/-- The `SET` list of `RegisterFailedLogin`. -/
def failedOnce (now : Instant) (user : User) : User :=
  { user with
    failedLoginAttempts := user.failedLoginAttempts + 1
    lockedUntil :=
      if LockoutThreshold ≤ user.failedLoginAttempts + 1 then some (now + LockoutDuration) else user.lockedUntil }

/-- `RegisterFailedLogin`; a counter that leaves its range fails the statement. -/
def registerFailedLogin (lib : Library) (users : Users) (username : String) (now : Instant) : Users :=
  if users.rows.any fun user => counts lib username user && maxInteger ≤ user.failedLoginAttempts then users
  else users.modify (counts lib username) (failedOnce now) fun _ => rfl

def clearFailedLogins (users : Users) (id : UUID) : Users :=
  users.modify (fun user => user.id = id ∧ (user.failedLoginAttempts ≠ 0 ∨ user.lockedUntil ≠ none))
    (fun user => { user with failedLoginAttempts := 0, lockedUntil := none }) fun _ => rfl

/-! ## The handler -/

/-- How a login ends, by the reasons of the audit log. -/
inductive Outcome where
  | invalid
  | unknownUser
  | locked (user : UUID)
  | badPassword (user : UUID)
  | mfaRequired (user : UUID)
  | badMFA (user : UUID)
  | passed (user : UUID)
  deriving DecidableEq

/-- `HandleLogin` up to the session. -/
def handleLogin (lib : Library) (users : Users) (attempt : Attempt) : Users × Outcome :=
  if attempt.username = "" ∨ attempt.password = "" then (users, .invalid)
  else
    match getUserByUsernameOrEmail lib.lower attempt.scan users attempt.username with
    | none => (users, .unknownUser)
    | some user =>
      let counted := registerFailedLogin lib users attempt.username (attempt.now + attempt.lag)
      if isUserLocked users user.id attempt.now then (users, .locked user.id)
      else if !lib.checkPassword user.passwordHash attempt.password then (counted, .badPassword user.id)
      else if user.mfaEnabled then
        if attempt.mfaCode = "" then (users, .mfaRequired user.id)
        else if !attempt.mfaVerified then (counted, .badMFA user.id)
        else (clearFailedLogins users user.id, .passed user.id)
      else (clearFailedLogins users user.id, .passed user.id)

/-! ## What a lockout is for -/

/-- The account that a login failed for. -/
def Outcome.failed : Outcome → Option UUID
  | .badPassword user | .badMFA user => some user
  | _ => none

/-- A login that was decided, and when. -/
structure Entry where
  at_ : Instant
  outcome : Outcome
  deriving DecidableEq

/-- The table with the log of all logins, the oldest first. -/
structure State where
  users : Users
  log : List Entry

/-- A login, with its outcome noted. -/
def step (lib : Library) (state : State) (attempt : Attempt) : State :=
  let (users, outcome) := handleLogin lib state.users attempt
  ⟨users, state.log ++ [⟨attempt.now + attempt.lag, outcome⟩]⟩

/-- One more login in the account's failures since its last success. Logins that
meet a lock, and those that only ask for the second factor, decide nothing. -/
def recount (id : UUID) (failures : List Instant) (entry : Entry) : List Instant :=
  if entry.outcome.failed = some id then failures ++ [entry.at_]
  else if entry.outcome = .passed id then []
  else failures

/-- When the account's logins failed since the last one that passed. -/
def failures (id : UUID) (log : List Entry) : List Instant := log.foldl (recount id) []

/-- The threshold was reached, and the last failure is less than the duration ago. -/
def LockedBy (id : UUID) (log : List Entry) (t : Instant) : Prop :=
  LockoutThreshold ≤ (failures id log).length ∧
    ∃ last, (failures id log).getLast? = some last ∧ t < last + LockoutDuration

/-- In every account the lock is what its own logins say. -/
def LocksRight (state : State) : Prop :=
  ∀ user ∈ state.users, ∀ t, isUserLocked state.users user.id t = true ↔ LockedBy user.id state.log t

/-- A login touches the counters of no account but the one it was resolved to. -/
def Framed (lib : Library) (state : State) (attempt : Attempt) : Prop :=
  ∀ before ∈ state.users, ∀ after ∈ (step lib state attempt).users, after.id = before.id →
    (∀ user, getUserByUsernameOrEmail lib.lower attempt.scan state.users attempt.username = some user → user.id ≠ before.id) →
    after.failedLoginAttempts = before.failedLoginAttempts ∧ after.lockedUntil = before.lockedUntil

/-- The counters are those of the logged logins, as in a table of new accounts
without a log. -/
def Accounted (state : State) : Prop :=
  ∀ user ∈ state.users, user.failedLoginAttempts = (failures user.id state.log).length ∧
    user.lockedUntil =
      if LockoutThreshold ≤ (failures user.id state.log).length then
        (failures user.id state.log).getLast?.map fun last => last + LockoutDuration
      else none

/-- The password or the code of an unlocked account is wrong. -/
def Rejected (lib : Library) (users : Users) (attempt : Attempt) (user : User) : Prop :=
  getUserByUsernameOrEmail lib.lower attempt.scan users attempt.username = some user ∧
    isUserLocked users user.id attempt.now = false ∧
    (lib.checkPassword user.passwordHash attempt.password = false ∨
      user.mfaEnabled = true ∧ attempt.mfaCode ≠ "" ∧ attempt.mfaVerified = false)

/-- A failure is only counted when the identifier names no other account, live or
deleted, and the counter has room. -/
def Alone (lib : Library) (state : State) (attempt : Attempt) : Prop :=
  ∀ user, Rejected lib state.users attempt user →
    (∀ other ∈ state.users, counts lib attempt.username other = true → other.id = user.id) ∧
      user.failedLoginAttempts < maxInteger

/-! ## What a login does -/

variable {lib : Library} {users : Users} {state : State} {attempt : Attempt}

/-- A login leaves the table, counts a failure, or clears the account. -/
theorem handleLogin_cases (lib : Library) (users : Users) (attempt : Attempt) :
    ((handleLogin lib users attempt).1 = users ∧ (handleLogin lib users attempt).2.failed = none ∧
      ∀ id, (handleLogin lib users attempt).2 ≠ .passed id) ∨
    (∃ user, Rejected lib users attempt user ∧ (handleLogin lib users attempt).2.failed = some user.id ∧
      (handleLogin lib users attempt).1 =
        registerFailedLogin lib users attempt.username (attempt.now + attempt.lag)) ∨
    (∃ user, getUserByUsernameOrEmail lib.lower attempt.scan users attempt.username = some user ∧
      (handleLogin lib users attempt).2 = .passed user.id ∧
      (handleLogin lib users attempt).1 = clearFailedLogins users user.id) := by
  unfold handleLogin
  split
  · exact .inl ⟨rfl, rfl, fun _ => nofun⟩
  · split
    · exact .inl ⟨rfl, rfl, fun _ => nofun⟩
    · rename_i user resolved
      dsimp only
      split
      · exact .inl ⟨rfl, rfl, fun _ => nofun⟩
      · rename_i unlocked
        have open_ := Bool.eq_false_iff.mpr unlocked
        split
        · rename_i wrong
          exact .inr (.inl ⟨user, ⟨resolved, open_, .inl (by simpa using wrong)⟩, rfl, rfl⟩)
        · split
          · rename_i enabled
            split
            · exact .inl ⟨rfl, rfl, fun _ => nofun⟩
            · rename_i code
              split
              · rename_i refused
                exact .inr (.inl ⟨user, ⟨resolved, open_, .inr ⟨enabled, code, by simpa using refused⟩⟩, rfl, rfl⟩)
              · exact .inr (.inr ⟨user, resolved, rfl, rfl⟩)
          · exact .inr (.inr ⟨user, resolved, rfl, rfl⟩)

/-- The resolved account is a row that the counting statement selects, too. -/
private theorem resolved_mem {user : User}
    (resolved : getUserByUsernameOrEmail lib.lower attempt.scan users attempt.username = some user) :
    user ∈ users ∧ counts lib attempt.username user = true := by
  obtain ⟨member, _, named⟩ := lookup_some resolved
  refine ⟨member, decide_eq_true ?_⟩
  rcases of_decide_eq_true named with username | ⟨_, email⟩
  · exact .inl username
  · exact .inr email

/-- Alone, the counting statement selects the resolved account only. -/
private theorem counted_iff {user other : User} (alone : Alone lib state attempt)
    (rejected : Rejected lib state.users attempt user) (member : other ∈ state.users) :
    counts lib attempt.username other = true ↔ other.id = user.id := by
  obtain ⟨held, counted⟩ := resolved_mem rejected.1
  constructor
  · exact (alone user rejected).1 other member
  · intro same
    rw [Table.key_inj member held same]
    exact counted

private theorem registered (alone : Alone lib state attempt) {user : User}
    (rejected : Rejected lib state.users attempt user) (now : Instant) :
    registerFailedLogin lib state.users attempt.username now =
      state.users.modify (counts lib attempt.username) (failedOnce now) fun _ => rfl := by
  unfold registerFailedLogin
  rw [if_neg]
  intro overflow
  obtain ⟨other, member, both⟩ := List.any_eq_true.mp overflow
  rw [Bool.and_eq_true] at both
  have same : other.id = user.id := (counted_iff alone rejected member).mp both.1
  have room := (alone user rejected).2
  rw [← Table.key_inj member (resolved_mem rejected.1).1 same] at room
  exact absurd (of_decide_eq_true both.2) (Nat.not_le.mpr room)

/-- The rows after a login: only the resolved account's counters have changed. -/
theorem rows_after (alone : Alone lib state attempt) {after : User} (member : after ∈ (step lib state attempt).users) :
    ∃ before ∈ state.users, after.id = before.id ∧
      ((handleLogin lib state.users attempt).2.failed = some before.id ∧
          after = failedOnce (attempt.now + attempt.lag) before ∨
        (handleLogin lib state.users attempt).2 = .passed before.id ∧ after.failedLoginAttempts = 0 ∧
          after.lockedUntil = none ∨
        (handleLogin lib state.users attempt).2.failed ≠ some before.id ∧
          (handleLogin lib state.users attempt).2 ≠ .passed before.id ∧ after = before) := by
  have rows : after ∈ (handleLogin lib state.users attempt).1 := member
  rcases handleLogin_cases lib state.users attempt with
    ⟨same, undecided, unpassed⟩ | ⟨user, rejected, failed, counted⟩ | ⟨user, resolved, passed, cleared⟩
  · rw [same] at rows
    exact ⟨after, rows, rfl, .inr (.inr ⟨by rw [undecided]; nofun, unpassed after.id, rfl⟩)⟩
  · rw [counted, registered alone rejected] at rows
    obtain ⟨before, held, rfl⟩ := Table.mem_modify.mp rows
    by_cases named : before.id = user.id
    · rw [if_pos ((counted_iff alone rejected held).mpr named)]
      exact ⟨before, held, rfl, .inl ⟨by rw [failed, named], rfl⟩⟩
    · rw [if_neg fun counted => named ((counted_iff alone rejected held).mp counted)]
      refine ⟨before, held, rfl, .inr (.inr ⟨?_, ?_, rfl⟩)⟩
      · rw [failed]
        exact fun same => named (Option.some.inj same).symm
      · intro passed
        rw [passed] at failed
        cases failed
  · rw [cleared] at rows
    obtain ⟨before, held, rfl⟩ := Table.mem_modify.mp rows
    by_cases named : before.id = user.id
    · refine ⟨before, held, ?_, .inr (.inl ⟨by rw [passed, named], ?_⟩)⟩
      · split <;> rfl
      · split
        · exact ⟨rfl, rfl⟩
        · rename_i clear
          simpa [named] using clear
    · rw [if_neg (by simp [named])]
      refine ⟨before, held, rfl, .inr (.inr ⟨?_, ?_, rfl⟩)⟩
      · rw [passed]
        nofun
      · rw [passed]
        exact fun same => named (Outcome.passed.inj same).symm

/-! ## Runs -/

/-- New accounts without a log. -/
theorem accounted_new (users : Users) (new : ∀ user ∈ users, user.failedLoginAttempts = 0 ∧ user.lockedUntil = none) :
    Accounted ⟨users, []⟩ :=
  new

private theorem failures_snoc (id : UUID) (log : List Entry) (entry : Entry) :
    failures id (log ++ [entry]) = recount id (failures id log) entry := by
  rw [failures, List.foldl_append]
  rfl

/-- The counters stay those of the log. -/
theorem accounted_step (held : Accounted state) (alone : Alone lib state attempt) :
    Accounted (step lib state attempt) := by
  intro after member
  obtain ⟨before, row, same, change⟩ := rows_after alone member
  have entry : failures after.id (step lib state attempt).log =
      recount before.id (failures before.id state.log)
        ⟨attempt.now + attempt.lag, (handleLogin lib state.users attempt).2⟩ := by
    rw [same]
    exact failures_snoc before.id state.log _
  obtain ⟨counter, lock⟩ := held before row
  rw [entry]
  rcases change with ⟨failed, rfl⟩ | ⟨passed, cleared, open_⟩ | ⟨unfailed, unpassed, rfl⟩
  · have more : recount before.id (failures before.id state.log)
        ⟨attempt.now + attempt.lag, (handleLogin lib state.users attempt).2⟩ =
        failures before.id state.log ++ [attempt.now + attempt.lag] := by
      rw [recount, if_pos failed]
    rw [more, List.length_append, List.getLast?_concat]
    refine ⟨congrArg (· + 1) counter, ?_⟩
    simp only [failedOnce, counter, List.length_singleton, Option.map_some]
    split
    · rfl
    · rename_i below
      -- below the threshold the account had no lock to keep
      rw [lock, if_neg fun reached => below (Nat.le_succ_of_le reached)]
  · have none_left : recount before.id (failures before.id state.log)
        ⟨attempt.now + attempt.lag, (handleLogin lib state.users attempt).2⟩ = [] := by
      rw [recount, if_neg, if_pos passed]
      rw [passed]
      nofun
    rw [none_left]
    exact ⟨cleared, open_⟩
  · have unchanged : recount after.id (failures after.id state.log)
        ⟨attempt.now + attempt.lag, (handleLogin lib state.users attempt).2⟩ = failures after.id state.log := by
      rw [recount, if_neg unfailed, if_neg unpassed]
    rw [unchanged]
    exact ⟨counter, lock⟩

/-- Counters that are those of the log lock the accounts that the log locks. -/
theorem locksRight_of_accounted (held : Accounted state) : LocksRight state := by
  intro user member t
  have found : state.users.find? user.id = some user := Table.find?_eq_some.mpr ⟨member, rfl⟩
  rw [isUserLocked, found]
  simp only [(held user member).2, LockedBy]
  split
  · rename_i reached
    cases (failures user.id state.log).getLast? with
    | none => simp
    | some last => simp [reached]
  · rename_i below
    simp [below]

/-- The account that failed or passed is the one the identifier was resolved to. -/
theorem decided_resolved {id : UUID}
    (decided : (handleLogin lib users attempt).2.failed = some id ∨ (handleLogin lib users attempt).2 = .passed id) :
    ∃ user, getUserByUsernameOrEmail lib.lower attempt.scan users attempt.username = some user ∧ user.id = id := by
  rcases handleLogin_cases lib users attempt with
    ⟨_, undecided, unpassed⟩ | ⟨user, rejected, failed, _⟩ | ⟨user, resolved, passed, _⟩
  · rcases decided with failed | passed
    · rw [undecided] at failed
      cases failed
    · exact absurd passed (unpassed id)
  · refine ⟨user, rejected.1, ?_⟩
    rcases decided with same | passed
    · exact Option.some.inj (failed.symm.trans same)
    · rw [passed] at failed
      cases failed
  · refine ⟨user, resolved, ?_⟩
    rcases decided with failed | same
    · rw [passed] at failed
      cases failed
    · exact Outcome.passed.inj (passed.symm.trans same)

theorem framed_of_alone (alone : Alone lib state attempt) : Framed lib state attempt := by
  intro before member after kept same elsewhere
  obtain ⟨old, held, sameOld, change⟩ := rows_after alone kept
  obtain rfl : old = before := Table.key_inj held member (sameOld.symm.trans same)
  have untouched : ¬((handleLogin lib state.users attempt).2.failed = some old.id ∨
      (handleLogin lib state.users attempt).2 = .passed old.id) := by
    intro decided
    obtain ⟨user, resolved, named⟩ := decided_resolved decided
    exact elsewhere user resolved named
  rcases change with ⟨failed, _⟩ | ⟨passed, _, _⟩ | ⟨_, _, rfl⟩
  · exact absurd (.inl failed) untouched
  · exact absurd (.inr passed) untouched
  · exact ⟨rfl, rfl⟩

/-- While every failed login names its account alone, logins touch the counters of
no other account, and at every moment the accounts are locked that the log locks. -/
theorem lockout_hits_own_account (lib : Library) (attempts : List Attempt) (start : State) (initial : Accounted start)
    (alone : Along (step lib) (Alone lib) start attempts) :
    Along (step lib) (Framed lib) start attempts ∧ Throughout (step lib) LocksRight start attempts := by
  constructor
  · exact along_mono (fun _ _ => framed_of_alone) alone
  · have accounted : Throughout (step lib) Accounted start attempts :=
      throughout_of_invariant (fun _ _ => accounted_step) attempts start initial alone
    exact throughout_mono (fun _ => locksRight_of_accounted) attempts start accounted

/-- A login that the counting statement finds one account for names it alone. -/
private theorem alone_of_counted (single : ∀ user ∈ state.users.rows, counts lib attempt.username user = true →
      (∀ other ∈ state.users.rows, counts lib attempt.username other = true → other.id = user.id) ∧
        user.failedLoginAttempts < maxInteger) : Alone lib state attempt := by
  intro user rejected
  obtain ⟨member, counted⟩ := resolved_mem rejected.1
  exact single user member counted

private def plainLibrary : Library := ⟨id, fun hash password => hash = "$2a$" ++ password⟩

private def account (id : UUID) (username email : String) : User :=
  { id, username, email, role := .viewer, passwordHash := "$2a$winter" }

private def guesses : List Attempt := [0, 1, 2, 3, 4, 5].map fun now =>
  { now, username := "kim@site.com", password := "summer", scan := Scan.inOrder }

private def withLee : State :=
  ⟨pair (account ⟨1⟩ "kim" "kim@site.com") (account ⟨2⟩ "lee" "lee@site.com") (by decide), []⟩

/-- Six guesses at one password lock that account and leave the other. -/
theorem lockout_after_guesses :
    (exec (step plainLibrary) withLee guesses).users.rows.map (fun user => (user.username, user.lockedUntil)) =
        [("kim", some 900000004), ("lee", none)] ∧
      Along (step plainLibrary) (Framed plainLibrary) withLee guesses ∧
        Throughout (step plainLibrary) LocksRight withLee guesses :=
  ⟨by decide, lockout_hits_own_account plainLibrary guesses withLee (accounted_new _ (by decide))
    (along_mono (fun _ _ => alone_of_counted) (by decide))⟩

/-- The e-mail of the second account is the username of the first. -/
private def shadowed : State :=
  ⟨pair (account ⟨1⟩ "kim@site.com" "") (account ⟨2⟩ "kim" "kim@site.com") (by decide), []⟩

/-- Guesses at one account lock the other, which no login was for. -/
theorem namesake_locked_out :
    Accounted shadowed ∧ isUserLocked (exec (step plainLibrary) shadowed guesses).users ⟨2⟩ 100 = true ∧
      failures ⟨2⟩ (exec (step plainLibrary) shadowed guesses).log = [] ∧
      ¬Along (step plainLibrary) (Framed plainLibrary) shadowed guesses ∧
        ¬Throughout (step plainLibrary) LocksRight shadowed guesses := by
  have locked : isUserLocked (exec (step plainLibrary) shadowed guesses).users ⟨2⟩ 100 = true := by decide
  have innocent : failures ⟨2⟩ (exec (step plainLibrary) shadowed guesses).log = [] := by decide
  refine ⟨accounted_new _ (by decide), locked, innocent, ?_, ?_⟩
  · rintro ⟨first, _⟩
    have same := first (account ⟨2⟩ "kim" "kim@site.com") (by decide)
      { account ⟨2⟩ "kim" "kim@site.com" with failedLoginAttempts := 1 } (by decide) rfl (by decide)
    exact absurd same.1 (by decide)
  · intro right
    obtain ⟨other, member, named⟩ :
        ∃ other ∈ (exec (step plainLibrary) shadowed guesses).users, other.id = ⟨2⟩ :=
      ⟨_, List.mem_cons_of_mem _ List.mem_cons_self, by decide⟩
    have just := (throughout_last guesses shadowed right other member 100).mp (by rw [named]; exact locked)
    rw [LockedBy, named, innocent] at just
    exact absurd just.1 (by decide)

end Ironsight.LoginLockout
