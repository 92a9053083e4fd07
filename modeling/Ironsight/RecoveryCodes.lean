import Mathlib.Data.List.Perm.Basic
import Ironsight.Access
import Ironsight.Codes
import Ironsight.Runs

/-! The second factor of a user: time-based codes, and recovery codes that are
used up one at a time. Login and the request that disables the second factor
share one check. A recovery code is found in the list that the check has read,
and taken out of the stored list by its position, in two further statements. -/
namespace Ironsight.RecoveryCodes
open Uuid Codes Runs

/-! ## Time-based codes -/

/-- What the check takes from libraries: the base32 decoder without padding,
applied to the upper-case secret, HMAC-SHA1 and bcrypt. -/
structure Library where
  decodeSecret : String → Option (List UInt8)
  hmacSHA1 : List UInt8 → List UInt8 → List UInt8
  compareHashAndPassword : String → String → Bool

/-- `unicode.IsSpace`. -/
def isSpace (c : Char) : Bool :=
  let n := c.toNat
  decide (9 ≤ n ∧ n ≤ 13 ∨ n ∈ [0x20, 0x85, 0xA0, 0x1680, 0x2028, 0x2029, 0x202F, 0x205F, 0x3000] ∨
    0x2000 ≤ n ∧ n ≤ 0x200A)

/-- `strings.TrimSpace`. -/
def trimSpace (text : String) : String :=
  String.ofList (((text.toList.dropWhile isSpace).reverse.dropWhile isSpace).reverse)

/-- The code of a time step: dynamic truncation to six digits. -/
def totpAt (library : Library) (secret : List UInt8) (step : Nat) : String :=
  let message := (List.range 8).map fun i => UInt8.ofNat (step / 256 ^ (7 - i) % 256)
  let hash := library.hmacSHA1 secret message
  let offset := (hash.getLastD 0).toNat % 16
  let byte (i : Nat) : Nat := (hash.getD (offset + i) 0).toNat
  padded 6 ((byte 0 % 128 * 2 ^ 24 + byte 1 * 2 ^ 16 + byte 2 * 2 ^ 8 + byte 3) % 10 ^ 6)

/-- `VerifyTOTP` at `now`, in seconds; an undecodable secret matches no code. -/
def verifyTOTP (library : Library) (now : Int) (secret code : String) : Bool :=
  let code := trimSpace code
  decide (code.utf8ByteSize = 6) && code.toList.all Char.isDigit &&
    (library.decodeSecret secret).any fun raw =>
      [-1, 0, 1].any fun offset => totpAt library raw ((now.tdiv 30 + offset) % 2 ^ 64).toNat = code

/-! ## The requests -/

/-- The columns of the user's row. `accepted` records the recovery hashes that let a
request pass, `wiped` those that disabling has discarded. -/
structure Shared where
  enabled : Bool
  secret : String
  recoveryHashes : List String
  accepted : List String := []
  wiped : List String := []

inductive Purpose where
  | login
  | disable
  deriving DecidableEq

inductive Answer where
  | granted
  | mfaRequired
  | invalidCredentials
  | codeRequired
  | fetchStateFailed
  | invalidCode
  | disableFailed
  | resetFailed
  | noContent
  deriving DecidableEq

/-- Where a request stands: before it reads the state, in `ConsumeRecoveryCode` before
the read and before the write, before the wipe, or at its end. -/
inductive Thread where
  | verifying (purpose : Purpose) (code : String)
  | consuming (purpose : Purpose) (hashIndex : Nat) (hash : String)
  | storing (purpose : Purpose) (hashIndex : Nat) (hash : String) (recoveryHashes : List String)
  | disabling (failure : Answer)
  | answered (answer : Answer)
  deriving DecidableEq

/-- A login whose password was right, a request to disable, or an admin's reset. -/
inductive Request where
  | login (mfaCode : String)
  | disable (code : String)
  | adminReset

/-- Whether the database does what the statement asks, and the clock. -/
structure Env where
  ok : Bool := true
  now : Int := 0

/-- The libraries, and whose codes they are. -/
structure Config where
  library : Library
  userID : UUID

def start : Request → Thread
  | .login mfaCode => .verifying .login mfaCode
  | .disable code => .verifying .disable code
  | .adminReset => .disabling .resetFailed

/-- What follows a code that `verifyMFACode` lets pass. -/
def Purpose.passed : Purpose → Thread
  | .login => .answered .granted
  | .disable => .disabling .disableFailed

def Purpose.refused : Purpose → Answer
  | .login => .invalidCredentials
  | .disable => .invalidCode

/-- `verifyMFACode` up to the call of `ConsumeRecoveryCode`, which a missing user
identifier skips. -/
def verifyMFACode (config : Config) (now : Int) (purpose : Purpose) (code : String) (shared : Shared) : Thread × Shared :=
  if verifyTOTP config.library now shared.secret code then (purpose.passed, shared)
  else
    match shared.recoveryHashes.findIdx? fun hash => config.library.compareHashAndPassword hash code with
    | none => (.answered purpose.refused, shared)
    | some index =>
      let hash := shared.recoveryHashes.getD index ""
      if config.userID = UUID.nil then (purpose.passed, { shared with accepted := shared.accepted ++ [hash] })
      else (.consuming purpose index hash, shared)

/-- The gate of `HandleLogin` and the body of `HandleMFADisable` up to the check; a
login takes a state that cannot be read for one without a second factor. -/
def verify (config : Config) (env : Env) (purpose : Purpose) (code : String) (shared : Shared) : Thread × Shared :=
  match purpose with
  | .login =>
    if ¬ env.ok ∨ ¬ shared.enabled then (.answered .granted, shared)
    else if code = "" then (.answered .mfaRequired, shared)
    else verifyMFACode config env.now .login code shared
  | .disable =>
    if code = "" then (.answered .codeRequired, shared)
    else if ¬ env.ok then (.answered .fetchStateFailed, shared)
    else if ¬ shared.enabled then (.answered .noContent, shared)
    else verifyMFACode config env.now .disable code shared

/-- One database statement of a request. The outcome of `ConsumeRecoveryCode` is
ignored: the code passes. -/
def next (config : Config) (env : Env) (thread : Thread) (shared : Shared) : Thread × Shared :=
  match thread with
  | .verifying purpose code => verify config env purpose code shared
  | .consuming purpose hashIndex hash =>
    if env.ok ∧ hashIndex < shared.recoveryHashes.length then
      (.storing purpose hashIndex hash shared.recoveryHashes, shared)
    else (purpose.passed, { shared with accepted := shared.accepted ++ [hash] })
  | .storing purpose hashIndex hash recoveryHashes =>
    (purpose.passed,
      { shared with
        recoveryHashes := if env.ok then recoveryHashes.eraseIdx hashIndex else shared.recoveryHashes
        accepted := shared.accepted ++ [hash] })
  | .disabling failure =>
    if env.ok then
      (.answered .noContent,
        { shared with
          enabled := false
          secret := ""
          recoveryHashes := []
          wiped := shared.wiped ++ shared.recoveryHashes })
    else (.answered failure, shared)
  | .answered answer => (.answered answer, shared)

def program (config : Config) : Program Shared Thread Request Env := { start, next := next config }

abbrev Pool := Runs.Pool Shared Thread

abbrev Move := Runs.Move Request Env

/-- One statement of a request, or a new one. -/
def step (config : Config) : Pool → Move → Pool := (program config).step

/-- A user with these recovery hashes, before any request. -/
def user (enabled : Bool) (secret : String) (recoveryHashes : List String) : Pool :=
  { shared := { enabled, secret, recoveryHashes }, threads := [] }

/-! ## Single use -/

/-- Every recovery code is still stored, or was accepted once, or was discarded by
disabling; nothing else is stored. -/
def SingleUse (recoveryHashes : List String) (pool : Pool) : Prop :=
  (pool.shared.recoveryHashes ++ pool.shared.accepted ++ pool.shared.wiped).Perm recoveryHashes

instance (recoveryHashes : List String) (pool : Pool) : Decidable (SingleUse recoveryHashes pool) :=
  inferInstanceAs (Decidable (List.Perm _ _))

/-- The check gets as far as the recovery codes and finds one. -/
def Matches (config : Config) (env : Env) (code : String) (shared : Shared) : Prop :=
  env.ok = true ∧ shared.enabled = true ∧ code ≠ "" ∧ verifyTOTP config.library env.now shared.secret code = false ∧
    ∃ hash ∈ shared.recoveryHashes, config.library.compareHashAndPassword hash code = true

/-- The database does what a consumption asks, the position that was found still
denotes the matched hash when the list is read again, and nobody has changed the
list when it is written back. -/
def Exclusive (config : Config) (pool : Pool) (env : Env) : Thread → Prop
  | .verifying _ code => config.userID = UUID.nil → ¬ Matches config env code pool.shared
  | .consuming _ hashIndex _ => env.ok = true ∧ hashIndex < pool.shared.recoveryHashes.length
  | .storing _ hashIndex hash recoveryHashes =>
    env.ok = true ∧ recoveryHashes[hashIndex]? = some hash ∧ pool.shared.recoveryHashes = recoveryHashes
  | _ => True

/-- A request about to write has read a list that could only have shrunk since. -/
def Thread.Ahead (stored : List String) : Thread → Prop
  | .storing _ _ _ recoveryHashes => stored.Sublist recoveryHashes
  | _ => True

/-- No request is about to write back less than is stored. -/
def Ahead (pool : Pool) : Prop := ∀ thread ∈ pool.threads, thread.Ahead pool.shared.recoveryHashes

variable {config : Config} {env : Env} {pool : Pool} {move : Move} {shared : Shared}

/-- Accepting a code leaves the balance if exactly that code leaves the list. -/
private theorem perm_accept {initial stored rest accepted wiped : List String} {hash : String}
    (balance : (stored ++ accepted ++ wiped).Perm initial) :
    (rest ++ (accepted ++ [hash]) ++ wiped).Perm initial ↔ (hash :: rest).Perm stored := by
  have moved : (rest ++ (accepted ++ [hash]) ++ wiped).Perm (hash :: rest ++ accepted ++ wiped) := by
    rw [← List.append_assoc]
    exact (List.perm_append_singleton hash (rest ++ accepted)).append_right wiped
  have cancelled : (hash :: rest ++ accepted ++ wiped).Perm (stored ++ accepted ++ wiped) ↔ (hash :: rest).Perm stored := by
    rw [List.perm_append_right_iff, List.perm_append_right_iff]
  rw [← cancelled]
  constructor
  · intro kept
    exact moved.symm.trans (kept.trans balance.symm)
  · intro kept
    exact moved.trans (kept.trans balance)

private theorem not_perm_cons_self {stored : List String} {hash : String} : ¬ (hash :: stored).Perm stored := by
  intro kept
  have longer := kept.length_eq
  simp at longer

/-- A stale list of the same length as the stored one is the stored one. -/
private theorem perm_eraseIdx {stored read : List String} {index : Nat} {hash : String} (ahead : stored.Sublist read) :
    (hash :: read.eraseIdx index).Perm stored ↔ read[index]? = some hash ∧ stored = read := by
  constructor
  · intro kept
    have counted := kept.length_eq
    have shorter := ahead.length_le
    rw [List.length_cons, List.length_eraseIdx] at counted
    have inside : index < read.length := by
      by_contra outside
      rw [if_neg outside] at counted
      omega
    have same : stored = read := ahead.eq_of_length (by rw [if_pos inside] at counted; omega)
    refine ⟨?_, same⟩
    have taken : ([hash] ++ read.eraseIdx index).Perm ([read[index]] ++ read.eraseIdx index) :=
      kept.trans (same ▸ (List.getElem_cons_eraseIdx_perm inside).symm)
    rw [List.perm_append_right_iff, List.singleton_perm_singleton] at taken
    rw [List.getElem?_eq_getElem inside, taken]
  · rintro ⟨found, rfl⟩
    obtain ⟨inside, rfl⟩ := List.getElem?_eq_some_iff.mp found
    exact List.getElem_cons_eraseIdx_perm inside

/-! ## What a statement does to the lists -/

private theorem verifyMFACode_shared (config : Config) (env : Env) (purpose : Purpose) (code : String) (shared : Shared)
    (reached : env.ok = true ∧ shared.enabled = true ∧ code ≠ "") :
    (verifyMFACode config env.now purpose code shared).2 = shared ∧
        (config.userID = UUID.nil → ¬ Matches config env code shared) ∨
      ∃ hash, (verifyMFACode config env.now purpose code shared).2 =
          { shared with accepted := shared.accepted ++ [hash] } ∧
        config.userID = UUID.nil ∧ Matches config env code shared := by
  fun_cases verifyMFACode config env.now purpose code shared with
  | case1 timed =>
    refine .inl ⟨rfl, fun _ matched => ?_⟩
    rw [matched.2.2.2.1] at timed
    cases timed
  | case2 _ none =>
    refine .inl ⟨rfl, ?_⟩
    rintro _ ⟨_, _, _, _, hash, held, same⟩
    rw [List.findIdx?_eq_none_iff.mp none hash held] at same
    cases same
  | case3 untimed index found hash nobody =>
    have any : shared.recoveryHashes.any (fun hash => config.library.compareHashAndPassword hash code) = true := by
      rw [← List.findIdx?_isSome, found]
      rfl
    exact .inr ⟨hash, rfl, nobody, reached.1, reached.2.1, reached.2.2, Bool.eq_false_of_not_eq_true untimed,
      List.any_eq_true.mp any⟩
  | case4 _ _ _ _ somebody => exact .inl ⟨rfl, fun nobody => absurd nobody somebody⟩

/-- The check itself stores nothing, and accepts no recovery code before it is
consumed, unless the user has no identifier. -/
private theorem verify_shared (config : Config) (env : Env) (purpose : Purpose) (code : String) (shared : Shared) :
    (verify config env purpose code shared).2 = shared ∧ (config.userID = UUID.nil → ¬ Matches config env code shared) ∨
      ∃ hash, (verify config env purpose code shared).2 = { shared with accepted := shared.accepted ++ [hash] } ∧
        config.userID = UUID.nil ∧ Matches config env code shared := by
  fun_cases verify config env purpose code shared with
  | case1 closed =>
    refine .inl ⟨rfl, fun _ matched => ?_⟩
    simp [matched.1, matched.2.1] at closed
  | case2 _ empty => exact .inl ⟨rfl, fun _ matched => matched.2.2.1 empty⟩
  | case3 gate given =>
    exact verifyMFACode_shared config env .login code shared ⟨by simp_all, by simp_all, given⟩
  | case4 empty => exact .inl ⟨rfl, fun _ matched => matched.2.2.1 empty⟩
  | case5 _ failed => exact .inl ⟨rfl, fun _ matched => absurd matched.1 failed⟩
  | case6 _ _ disabled => exact .inl ⟨rfl, fun _ matched => absurd matched.2.1 disabled⟩
  | case7 given ok enabled =>
    exact verifyMFACode_shared config env .disable code shared ⟨not_not.mp ok, not_not.mp enabled, given⟩

private theorem passed_ahead (purpose : Purpose) (stored : List String) : purpose.passed.Ahead stored := by
  cases purpose <;> trivial

private theorem verify_ahead (config : Config) (env : Env) (purpose : Purpose) (code : String) (shared : Shared)
    (stored : List String) : (verify config env purpose code shared).1.Ahead stored := by
  have checked (purpose : Purpose) : (verifyMFACode config env.now purpose code shared).1.Ahead stored := by
    fun_cases verifyMFACode config env.now purpose code shared with
    | case1 | case3 => exact passed_ahead purpose stored
    | case2 | case4 => exact True.intro
  fun_cases verify config env purpose code shared with
  | case3 => exact checked .login
  | case7 => exact checked .disable
  | _ => exact True.intro

/-- A statement keeps the balance exactly if it is exclusive. -/
private theorem next_balance {initial : List String} {current : Thread}
    (balance : (pool.shared.recoveryHashes ++ pool.shared.accepted ++ pool.shared.wiped).Perm initial)
    (ahead : current.Ahead pool.shared.recoveryHashes) :
    ((next config env current pool.shared).2.recoveryHashes ++ (next config env current pool.shared).2.accepted ++
        (next config env current pool.shared).2.wiped).Perm initial ↔ Exclusive config pool env current := by
  -- A code that is accepted and stays stored.
  have kept (hash : String) :
      ¬ (pool.shared.recoveryHashes ++ (pool.shared.accepted ++ [hash]) ++ pool.shared.wiped).Perm initial :=
    fun still => not_perm_cons_self ((perm_accept balance).mp still)
  cases current with
  | verifying purpose code =>
    rcases verify_shared config env purpose code pool.shared with ⟨same, unmatched⟩ | ⟨hash, accepted, nobody, matched⟩
    · rw [next, same]
      exact iff_of_true balance unmatched
    · rw [next, accepted]
      exact iff_of_false (kept hash) fun exclusive => exclusive nobody matched
  | consuming purpose hashIndex hash =>
    rw [next]
    split
    · rename_i inside
      exact iff_of_true balance inside
    · rename_i outside
      exact iff_of_false (kept hash) outside
  | storing purpose hashIndex hash read =>
    rw [next]
    by_cases ok : env.ok = true
    · rw [if_pos ok, perm_accept balance, perm_eraseIdx ahead]
      exact (and_iff_right ok).symm
    · rw [if_neg ok]
      exact iff_of_false (kept hash) fun exclusive => ok exclusive.1
  | disabling failure =>
    rw [next]
    split
    · refine iff_of_true (List.Perm.trans ?_ balance) trivial
      rw [List.nil_append, ← List.append_assoc, List.append_assoc pool.shared.recoveryHashes]
      exact List.perm_append_comm
    · exact iff_of_true balance trivial
  | answered answer => exact iff_of_true balance trivial

/-- Exclusive statements only shorten the stored list. -/
private theorem next_sublist {current : Thread} (exclusive : Exclusive config pool env current) :
    ((next config env current pool.shared).2.recoveryHashes).Sublist pool.shared.recoveryHashes := by
  cases current with
  | verifying purpose code =>
    rcases verify_shared config env purpose code pool.shared with ⟨same, _⟩ | ⟨hash, accepted, _⟩
    · rw [next, same]
    · rw [next, accepted]
  | consuming purpose hashIndex hash =>
    rw [next]
    split <;> exact List.Sublist.refl _
  | storing purpose hashIndex hash read =>
    obtain ⟨ok, _, same⟩ := exclusive
    rw [next, if_pos ok, same]
    exact List.eraseIdx_sublist ..
  | disabling failure =>
    rw [next]
    split
    · exact List.nil_sublist _
    · exact List.Sublist.refl _
  | answered answer => exact List.Sublist.refl _

private theorem next_ahead (current : Thread) :
    (next config env current shared).1.Ahead (next config env current shared).2.recoveryHashes := by
  cases current with
  | verifying purpose code => exact verify_ahead config env purpose code shared _
  | consuming purpose hashIndex hash =>
    rw [next]
    split
    · exact List.Sublist.refl _
    · exact passed_ahead purpose _
  | storing purpose hashIndex hash read => exact passed_ahead purpose _
  | disabling failure =>
    rw [next]
    split <;> exact True.intro
  | answered answer => exact True.intro

private theorem Thread.Ahead.shorter {thread : Thread} {stored fewer : List String} (ahead : thread.Ahead stored)
    (shorter : fewer.Sublist stored) : thread.Ahead fewer := by
  cases thread with
  | storing => exact shorter.trans ahead
  | _ => exact True.intro

/-! ## Runs -/

private theorem ahead_step (ahead : Ahead pool) (exclusive : OnStatement (Exclusive config) pool move) :
    Ahead (step config pool move) := by
  apply Program.step_preserves Ahead ahead move
  · intro request _
    refine forall_mem_append ahead ?_
    cases request <;> exact True.intro
  · intro thread env current here running
    subst here
    have shorter := next_sublist (exclusive current running)
    exact forall_mem_set (fun other held => (ahead other held).shorter shorter) (next_ahead current)

private theorem singleUse_step {initial : List String} (ahead : Ahead pool) (before : SingleUse initial pool) :
    SingleUse initial (step config pool move) ↔ OnStatement (Exclusive config) pool move := by
  cases move with
  | spawn request => exact iff_of_true before trivial
  | run thread env =>
    cases running : pool.threads[thread]? with
    | none =>
      rw [step, Program.step_run_none running]
      exact iff_of_true before (by simp [OnStatement, running])
    | some current =>
      rw [step, Program.step_run running]
      simp only [OnStatement, running, Option.mem_some_iff, forall_eq']
      exact next_balance before (ahead current (List.mem_of_getElem? running))

/-- Recovery codes are single use exactly in the runs in which every consumption
succeeds, removes the hash at the position at which it still stands, and writes
back a list that nobody has changed in between. -/
theorem single_use_iff_exclusive (config : Config) (enabled : Bool) (secret : String) (recoveryHashes : List String)
    (moves : List Move) :
    Throughout (step config) (SingleUse recoveryHashes) (user enabled secret recoveryHashes) moves ↔
      Along (step config) (OnStatement (Exclusive config)) (user enabled secret recoveryHashes) moves := by
  have start : SingleUse recoveryHashes (user enabled secret recoveryHashes) := by simp [SingleUse, user]
  have none : Ahead (user enabled secret recoveryHashes) := fun _ held => absurd held List.not_mem_nil
  exact throughout_iff_along_of (fun _ _ ahead _ _ exclusive => ahead_step ahead exclusive)
    (fun _ _ ahead _ before => singleUse_step ahead before) moves _ none start (along_trivial moves _)

/-- A library whose hashes show the code. -/
def plainLibrary : Library :=
  { decodeSecret := fun _ => none
    hmacSHA1 := fun _ _ => []
    compareHashAndPassword := fun hash code => hash = "$2a$10$" ++ code }

def twoCodes : List String := ["$2a$10$abcd-efgh-jkmn", "$2a$10$pqrs-tuvw-xyz2"]

/-- Two logins with one code, which both find it before either removes it. -/
def sameCodeTwice : List Move :=
  [.spawn (.login "abcd-efgh-jkmn"), .spawn (.login "abcd-efgh-jkmn"), .run 0 {}, .run 1 {},
    .run 0 {}, .run 0 {}, .run 1 {}, .run 1 {}]

/-- The second login passes as well and removes the code that has moved up to the
first position. -/
theorem code_accepted_twice :
    ¬ Throughout (step ⟨plainLibrary, ⟨21⟩⟩) (SingleUse twoCodes) (user true "JBSWY3DP" twoCodes) sameCodeTwice ∧
      (exec (step ⟨plainLibrary, ⟨21⟩⟩) (user true "JBSWY3DP" twoCodes) sameCodeTwice).shared.accepted =
        ["$2a$10$abcd-efgh-jkmn", "$2a$10$abcd-efgh-jkmn"] ∧
      (exec (step ⟨plainLibrary, ⟨21⟩⟩) (user true "JBSWY3DP" twoCodes) sameCodeTwice).shared.recoveryHashes = [] := by
  decide +kernel

end Ironsight.RecoveryCodes
