import Mathlib.Algebra.BigOperators.Group.List.Basic
import Ironsight.ShareLinks

/-! Share links against their abstract ledger. The ledger records accepted
requests only: when a token was granted, for how many hours, and whether it was
revoked since. A run is under supervisor control exactly if nobody else lists
an incident that has shares, no lifetime above the maximum slips through the
64-bit product, and no link is opened in the microsecond its stored expiry cuts
off. -/
namespace Ironsight.ShareLinksProofs
open Tables Runs Access Soc ShareLinks

/-- An accepted creation and what became of it. -/
structure Grant where
  token : String
  at_ : Instant
  hours : Int
  revoked : Bool := false
  deriving DecidableEq

structure Trace where
  state : State
  ledger : List Grant
  deriving DecidableEq

/-- The ledger after a request, by its reply. -/
def record (ledger : List Grant) (at_ : Instant) (request : Request) (reply : Reply Body) : List Grant :=
  match request, reply with
  | .create (some body), .json _ (.share share) => ledger ++ [⟨share.token, at_, body.expiresInHours, false⟩]
  | .revoke token, .noContent =>
    ledger.map fun grant => if grant.token = token then { grant with revoked := true } else grant
  | _, _ => ledger

/-- The time at which a request is handled. -/
def arrival (trace : Trace) (call : Call) : Instant := trace.state.now + call.elapsed

/-- A call, with what it was and what it answered noted. -/
def step (trace : Trace) (call : Call) : Trace where
  state := (handle trace.state call).1
  ledger := record trace.ledger (arrival trace call) call.request (handle trace.state call).2

/-- The hours a request asks for, seven days when not positive. -/
def requested (hours : Int) : Int := if 0 < hours then hours * hour else shareDefaultTTL

/-- The ledger entitles the holder of `token` at `time`. -/
def Entitled (ledger : List Grant) (token : String) (time : Instant) : Prop :=
  ∃ grant ∈ ledger, grant.token = token ∧ grant.revoked = false ∧ grant.at_ ≤ time ∧
    time ≤ grant.at_ + requested grant.hours

def Serves (reply : Reply Body) : Prop := ∃ share, reply = .json 200 (.share share)

/-- Everything of a share but its token. -/
def untokened (share : EvidenceShare) : String × String × Option Instant × Bool × Instant :=
  (share.incidentId, share.createdBy, share.expiresAt, share.revoked, share.createdAt)

/-- Two states that differ in the stored tokens only. -/
def SameButTokens (one other : State) : Prop :=
  other.now = one.now ∧ other.incidents = one.incidents ∧ other.opens = one.opens ∧
    other.shares.rows.map untokened = one.shares.rows.map untokened

/-- What supervisor control asks of one request. -/
structure Controlled (trace : Trace) (call : Call) : Prop where
  tokensHidden : supervises call.claims = false → (∀ token, call.request ≠ .publicOpen token) →
    ∀ other, SameButTokens trace.state other → (handle other call).2 = (handle trace.state call).2
  longRefused : ∀ body, call.request = .create (some body) → 2160 < body.expiresInHours →
    ∃ status text, (handle trace.state call).2 = .error status text
  servedExactly : ∀ token, call.request = .publicOpen token →
    (Serves (handle trace.state call).2 ↔ Entitled trace.ledger token (arrival trace call))

/-- A creation that reaches the table. -/
def Accepted (state : State) (call : Call) (body : CreateBody) : Prop :=
  supervises call.claims = true ∧ fitsInt body.expiresInHours = true ∧ body.incidentId ≠ "" ∧
    (0 < body.expiresInHours → wrap64 (body.expiresInHours * hour) ≤ shareMaxTTL) ∧ call.env.fault = none ∧
    (∀ share ∈ state.shares, share.token ≠ call.env.token) ∧
    ∃ incident ∈ state.incidents, incident.id = body.incidentId

/-- The inputs on which the handlers do keep control. -/
structure Safe (trace : Trace) (call : Call) : Prop where
  lists : ∀ incidentId, call.request = .list incidentId → supervises call.claims = false →
    incidentId = "" ∨ call.env.fault ≠ none ∨ ∀ share ∈ trace.state.shares, share.incidentId ≠ incidentId
  lifetimes : ∀ body, call.request = .create (some body) → 2160 < body.expiresInHours →
    ¬ Accepted trace.state call body
  opens : ∀ token, call.request = .publicOpen token → ∀ grant ∈ trace.ledger, grant.token = token →
    grant.revoked = false → arrival trace call ≤ grant.at_ + requested grant.hours →
      token ≠ "" ∧ call.env.fault = none ∧ arrival trace call ≤ toMicros (grant.at_ + requested grant.hours)

/-! ## The table refines the ledger -/

/-- The row that an accepted grant leaves behind. -/
def granted (grant : Grant) : String × Option Instant × Bool :=
  (grant.token, some (toMicros (grant.at_ + requested grant.hours)), grant.revoked)

/-- Rows and grants correspond one to one, and no grant is in the future. -/
structure Refines (trace : Trace) : Prop where
  rows : (trace.state.shares.rows.map fun share => (share.token, share.expiresAt, share.revoked)) =
    trace.ledger.map granted
  past : ∀ grant ∈ trace.ledger, grant.at_ ≤ trace.state.now

/-! ## Creation -/

private theorem wrap64_small {hours : Int} (positive : 0 < hours) (bounded : hours ≤ 2160) :
    wrap64 (hours * hour) = hours * hour := by
  unfold wrap64 hour
  apply Int.bmod_eq_of_le <;> omega

/-- Up to the maximum the product does not wrap, so the lifetime is the one
asked for. -/
theorem lifetime_eq_requested {hours : Int} (bounded : hours ≤ 2160) : lifetime hours = .ok (requested hours) := by
  unfold lifetime requested
  by_cases positive : 0 < hours
  · have fits : ¬ shareMaxTTL < hours * hour := by
      unfold shareMaxTTL hour
      omega
    simp only [positive, if_true, wrap64_small positive bounded, fits, if_false]
  · simp only [positive, if_false]

private theorem lifetime_ok_iff {hours : Int} :
    (∃ ttl, lifetime hours = .ok ttl) ↔ (0 < hours → wrap64 (hours * hour) ≤ shareMaxTTL) := by
  unfold lifetime
  by_cases positive : 0 < hours
  · by_cases long : shareMaxTTL < wrap64 (hours * hour)
    · simp [positive, long]
    · simp [positive, long, Int.not_lt.mp long]
  · simp [positive]

private theorem createEvidenceShare_ok {env : Env} {state : State} {share : EvidenceShare}
    {shares : Table EvidenceShare.token} :
    createEvidenceShare env state share = .ok shares ↔ env.fault = none ∧
      state.shares.insert? { share with
        expiresAt := share.expiresAt.map toMicros, createdAt := toMicros share.createdAt } = some shares ∧
      ∃ incident ∈ state.incidents, incident.id = share.incidentId := by
  unfold createEvidenceShare
  cases env.fault with
  | some err => simp
  | none =>
    cases done : state.shares.insert? { share with
        expiresAt := share.expiresAt.map toMicros, createdAt := toMicros share.createdAt } with
    | none => simp
    | some after =>
      cases found : state.incidents.find? share.incidentId with
      | none =>
        have absent := Table.find?_eq_none.mp found
        simp only [if_true, reduceCtorEq, true_and, false_iff]
        rintro ⟨_, incident, held, same⟩
        exact absent incident held same
      | some incident =>
        have present := Table.find?_eq_some.mp found
        simp only [reduceCtorEq, if_false, Except.ok.injEq, Option.some.injEq, true_and]
        exact ⟨fun same => ⟨same, incident, present⟩, fun both => both.1⟩

private def newShare (state : State) (claims : Claims) (body : CreateBody) (env : Env) (ttl : Int) : EvidenceShare where
  token := env.token
  incidentId := body.incidentId
  createdBy := claims.userId
  expiresAt := some (state.now + ttl)
  createdAt := state.now + env.lag

/-- The last statement of a creation that passed every check. -/
private theorem handleCreateEvidenceShare_insert (state : State) {claims : Claims} {body : CreateBody} (env : Env)
    {ttl : Int} (supervisor : supervises (some claims) = true) (fits : fitsInt body.expiresInHours = true)
    (named : body.incidentId ≠ "") (granted : lifetime body.expiresInHours = .ok ttl) :
    handleCreateEvidenceShare state (some claims) (some body) env =
      match createEvidenceShare env state (newShare state claims body env ttl) with
      | .error err => (state, .error 500 ("create share failed: insert evidence_share: " ++ err))
      | .ok shares => ({ state with shares := shares }, .json 201 (.share (newShare state claims body env ttl))) := by
  simp only [handleCreateEvidenceShare, supervisor, not_true_eq_false, if_false, Option.filter, fits, if_true, named,
    granted]
  rfl

private theorem create_accepted (state : State) {call : Call} {body : CreateBody}
    (request : call.request = .create (some body)) (accepted : Accepted state call body) :
    ∃ claims ttl shares, lifetime body.expiresInHours = .ok ttl ∧
      createEvidenceShare call.env state (newShare state claims body call.env ttl) = .ok shares ∧
      route state call =
        ({ state with shares := shares }, .json 201 (.share (newShare state claims body call.env ttl))) := by
  obtain ⟨supervisor, fits, named, bounded, healthy, fresh, incident, held, same⟩ := accepted
  obtain ⟨ttl, granted⟩ := lifetime_ok_iff.mpr bounded
  cases caller : call.claims with
  | none => simp [caller, supervises] at supervisor
  | some claims =>
    rw [caller] at supervisor
    let share := newShare state claims body call.env ttl
    have unused : ∀ other ∈ state.shares, other.token ≠ ({ share with
        expiresAt := share.expiresAt.map toMicros, createdAt := toMicros share.createdAt } : EvidenceShare).token := fresh
    obtain ⟨shares, done⟩ := Table.insert?_of_fresh unused
    have inserted : createEvidenceShare call.env state share = .ok shares :=
      createEvidenceShare_ok.mpr ⟨healthy, done, incident, held, same⟩
    refine ⟨claims, ttl, shares, granted, inserted, ?_⟩
    have answer := handleCreateEvidenceShare_insert state call.env supervisor fits named granted
    rw [inserted] at answer
    simpa only [route, request, caller] using answer

private theorem create_refused (state : State) {call : Call} {body : CreateBody}
    (request : call.request = .create (some body)) (refused : ¬ Accepted state call body) :
    ∃ status text, route state call = (state, .error status text) := by
  simp only [route, request]
  cases caller : call.claims with
  | none => exact ⟨401, "unauthorized", rfl⟩
  | some claims =>
    by_cases supervisor : supervises (some claims) = true
    · by_cases fits : fitsInt body.expiresInHours = true
      · by_cases named : body.incidentId = ""
        · exact ⟨400, "incident_id required", by simp [handleCreateEvidenceShare, supervisor, fits, named, Option.filter]⟩
        · cases granted : lifetime body.expiresInHours with
          | error text =>
            exact ⟨400, text, by simp [handleCreateEvidenceShare, supervisor, fits, named, granted, Option.filter]⟩
          | ok ttl =>
            have answer := handleCreateEvidenceShare_insert state call.env supervisor fits named granted
            cases inserted : createEvidenceShare call.env state (newShare state claims body call.env ttl) with
            | error err =>
              rw [inserted] at answer
              exact ⟨500, _, answer⟩
            | ok shares =>
              obtain ⟨healthy, done, incident, held, same⟩ := createEvidenceShare_ok.mp inserted
              refine absurd ⟨?_, fits, named, lifetime_ok_iff.mp ⟨ttl, granted⟩, healthy, ?_, incident, held, same⟩
                refused
              · rwa [caller]
              · exact Table.insert?_fresh done
      · exact ⟨400, "invalid request body", by simp [handleCreateEvidenceShare, supervisor, fits, Option.filter]⟩
    · exact ⟨403, "supervisor or admin role required", by simp [handleCreateEvidenceShare, supervisor]⟩

private theorem create_unreadable (state : State) {call : Call} (request : call.request = .create none) :
    ∃ status text, route state call = (state, .error status text) := by
  simp only [route, request]
  cases call.claims with
  | none => exact ⟨401, "unauthorized", rfl⟩
  | some claims =>
    by_cases supervisor : supervises (some claims) = true
    · exact ⟨400, "invalid request body", by simp [handleCreateEvidenceShare, supervisor, Option.filter]⟩
    · exact ⟨403, "supervisor or admin role required", by simp [handleCreateEvidenceShare, supervisor]⟩

/-! ## Listing -/

private theorem unsupervised_reply {call : Call} (outsider : supervises call.claims = false)
    (notList : ∀ incidentId, call.request ≠ .list incidentId) (notOpen : ∀ token, call.request ≠ .publicOpen token)
    (one other : State) : (route other call).2 = (route one call).2 := by
  unfold route
  cases request : call.request with
  | create body =>
    cases caller : call.claims with
    | none => rfl
    | some claims =>
      rw [caller] at outsider
      simp [handleCreateEvidenceShare, outsider]
  | revoke token => simp [handleRevokeEvidenceShare, outsider]
  | list incidentId => exact absurd request (notList incidentId)
  | publicOpen token => exact absurd request (notOpen token)

/-- The shares of one incident, as the list endpoint orders them. -/
private def sharesOf (state : State) (incidentId : String) : List EvidenceShare :=
  (state.shares.rows.filter fun share => share.incidentId = incidentId).insertionSort
    fun first second => second.createdAt ≤ first.createdAt

private def tokenLength (shares : List EvidenceShare) : Nat := (shares.map fun share => share.token.length).sum

private theorem tokenLength_sharesOf (state : State) (incidentId : String) :
    tokenLength (sharesOf state incidentId) =
      tokenLength (state.shares.rows.filter fun share => share.incidentId = incidentId) :=
  ((List.perm_insertionSort _ _).map _).sum_eq

/-- Every token with a character put in front. -/
private def retokened (shares : Table EvidenceShare.token) : Table EvidenceShare.token where
  rows := shares.rows.map fun share => { share with token := "x" ++ share.token }
  distinct := by
    have mapped : (shares.rows.map fun share : EvidenceShare => { share with token := "x" ++ share.token }).map
        EvidenceShare.token = (shares.rows.map EvidenceShare.token).map ("x" ++ ·) := by
      simp [List.map_map, Function.comp_def]
    rw [mapped]
    refine shares.distinct.map fun first second same => ?_
    simpa [String.ext_iff] using same

private theorem tokenLength_retokened (shares : List EvidenceShare) :
    tokenLength (shares.map fun share => { share with token := "x" ++ share.token }) =
      tokenLength shares + shares.length := by
  induction shares with
  | nil => rfl
  | cons share rest ih =>
    simp only [tokenLength, List.map_cons, List.sum_cons, List.length_cons, String.length_append] at ih ⊢
    rw [ih]
    have one : "x".length = 1 := rfl
    omega

private theorem list_reply {state : State} {call : Call} {incidentId : String} (request : call.request = .list incidentId)
    (named : incidentId ≠ "") (healthy : call.env.fault = none) :
    (route state call).2 = .json 200 (.list ((sharesOf state incidentId).map fun share => {
      share := share
      openCount := countShareOpens call.env state share.token
      active := !share.revoked && share.expiresAt.all fun expiry => state.now < expiry })) := by
  simp [route, request, handleListEvidenceShares, named, healthy, sharesOf]

private theorem retokened_alike (state : State) :
    SameButTokens state { state with shares := retokened state.shares } :=
  ⟨rfl, rfl, rfl, by simp [retokened, List.map_map, Function.comp_def, untokened]⟩

/-- Other tokens make the listed tokens longer, by one character a share. -/
private theorem tokenLength_sharesOf_retokened (state : State) (incidentId : String) :
    tokenLength (sharesOf { state with shares := retokened state.shares } incidentId) =
      tokenLength (sharesOf state incidentId) +
        (state.shares.rows.filter fun share => share.incidentId = incidentId).length := by
  have swapped : (retokened state.shares).rows.filter (fun share => share.incidentId = incidentId) =
      (state.shares.rows.filter fun share => share.incidentId = incidentId).map
        fun share => { share with token := "x" ++ share.token } := by
    simp [retokened, List.filter_map, Function.comp_def]
  rw [tokenLength_sharesOf, tokenLength_sharesOf, swapped, tokenLength_retokened]

private theorem sharesOf_eq_nil {state : State} {incidentId : String}
    (empty : ∀ share ∈ state.shares, share.incidentId ≠ incidentId) : sharesOf state incidentId = [] := by
  have filtered : (state.shares.rows.filter fun share => share.incidentId = incidentId) = [] := by
    simpa [List.filter_eq_nil_iff, Table.mem_def] using empty
  simp [sharesOf, filtered]

/-- The list of an incident hides the tokens from a caller exactly when there is
nothing to list. -/
theorem list_hidden_iff (state : State) {call : Call} {incidentId : String}
    (request : call.request = .list incidentId) :
    (∀ other, SameButTokens state other → (route other call).2 = (route state call).2) ↔
      incidentId = "" ∨ call.env.fault ≠ none ∨ ∀ share ∈ state.shares, share.incidentId ≠ incidentId := by
  by_cases named : incidentId = ""
  · simp [route, request, handleListEvidenceShares, named]
  by_cases healthy : call.env.fault = none
  · simp only [named, healthy, false_or, ne_eq, not_true_eq_false]
    constructor
    · intro hidden share held same
      have answers := hidden _ (retokened_alike state)
      rw [list_reply request named healthy, list_reply request named healthy] at answers
      have lists := congrArg (List.map Listed.share) (Body.list.inj (Reply.json.inj answers).2)
      simp only [List.map_map, Function.comp_def, List.map_id_fun', id_eq] at lists
      have lengths := congrArg tokenLength lists
      rw [tokenLength_sharesOf_retokened] at lengths
      have listed : share ∈ state.shares.rows.filter fun share => share.incidentId = incidentId :=
        List.mem_filter.mpr ⟨held, by simpa using same⟩
      have positive := List.length_pos_of_mem listed
      omega
    · intro empty other alike
      have theirs : ∀ share ∈ other.shares, share.incidentId ≠ incidentId := by
        intro share held same
        have listed : untokened share ∈ state.shares.rows.map untokened :=
          alike.2.2.2 ▸ List.mem_map_of_mem held
        obtain ⟨mine, member, equal⟩ := List.mem_map.mp listed
        exact empty mine member ((congrArg Prod.fst equal).trans same)
      rw [list_reply request named healthy, list_reply request named healthy, sharesOf_eq_nil theirs,
        sharesOf_eq_nil empty]
      rfl
  · have faulty : ∃ err, call.env.fault = some err := Option.ne_none_iff_exists'.mp healthy
    obtain ⟨err, broken⟩ := faulty
    simp [route, request, handleListEvidenceShares, named, broken]

private theorem hidden_waited {state : State} {call : Call} :
    (∀ other, SameButTokens state other → (handle other call).2 = (handle state call).2) ↔
      ∀ other, SameButTokens (waited state call.elapsed) other →
        (route other call).2 = (route (waited state call.elapsed) call).2 := by
  constructor
  · intro hidden other alike
    have back : waited { other with now := state.now } call.elapsed = other := by
      obtain ⟨clock, _⟩ := alike
      simp only [waited] at clock ⊢
      rw [← clock]
    have same := hidden { other with now := state.now } ⟨rfl, alike.2⟩
    rwa [handle, back] at same
  · intro hidden other alike
    refine hidden (waited other call.elapsed) ⟨?_, alike.2⟩
    simp only [waited, alike.1]

/-! ## Opening -/

private theorem open_serves_iff {state : State} {call : Call} {token : String}
    (request : call.request = .publicOpen token) :
    Serves (route state call).2 ↔ token ≠ "" ∧ call.env.fault = none ∧
      ∃ share ∈ state.shares, share.token = token ∧ share.revoked = false ∧
        ∀ expiry ∈ share.expiresAt, state.now ≤ expiry := by
  unfold Serves
  simp only [route, request, handlePublicEvidenceShare]
  by_cases named : token = ""
  · simp [named]
  simp only [named, if_false, not_false_eq_true, ne_eq, true_and]
  cases broken : call.env.fault with
  | some err => simp
  | none =>
    cases found : state.shares.find? token with
    | none =>
      have absent := Table.find?_eq_none.mp found
      simp only [reduceCtorEq, exists_false, true_and, false_iff]
      rintro ⟨share, held, same, _⟩
      exact absent share held same
    | some share =>
      obtain ⟨held, same⟩ := Table.find?_eq_some.mp found
      have only : (∃ row ∈ state.shares, row.token = token ∧ row.revoked = false ∧
          ∀ expiry ∈ row.expiresAt, state.now ≤ expiry) ↔
          share.revoked = false ∧ ∀ expiry ∈ share.expiresAt, state.now ≤ expiry := by
        constructor
        · rintro ⟨row, member, sameToken, rest⟩
          rwa [Table.key_inj member held (sameToken.trans same.symm)] at rest
        · intro rest
          exact ⟨share, held, same, rest⟩
      rw [only]
      cases revoked : share.revoked with
      | true => simp [revoked]
      | false =>
        cases expiry : share.expiresAt with
        | none => simp [revoked, expiry]
        | some limit =>
          by_cases late : limit < state.now
          · simp [revoked, expiry, late]
          · simp [revoked, expiry, late, Int.not_lt.mp late]

private theorem toMicros_le (instant : Instant) : toMicros instant ≤ instant :=
  Int.ediv_mul_le instant (by decide)

private theorem revoke_refused (state : State) {call : Call} {token : String} (request : call.request = .revoke token)
    (refused : ¬ (supervises call.claims = true ∧ token ≠ "" ∧ call.env.fault = none)) :
    ∃ status text, route state call = (state, .error status text) := by
  simp only [route, request, handleRevokeEvidenceShare]
  by_cases supervisor : supervises call.claims = true
  · by_cases named : token = ""
    · simp [supervisor, named]
    · cases broken : call.env.fault with
      | none => exact absurd ⟨supervisor, named, broken⟩ refused
      | some err => simp [supervisor, named]
  · simp [supervisor]

private theorem handleListEvidenceShares_state (state : State) (incidentId : String) (env : Env) :
    (handleListEvidenceShares state incidentId env).1 = state := by
  unfold handleListEvidenceShares
  split
  · rfl
  · split <;> rfl

/-- Opening a share only writes the log. -/
private theorem handlePublicEvidenceShare_frame (state : State) (token : String) (env : Env) :
    (handlePublicEvidenceShare state token env).1.shares = state.shares ∧
      (handlePublicEvidenceShare state token env).1.now = state.now := by
  unfold handlePublicEvidenceShare
  by_cases named : token = ""
  · simp [named]
  · cases env.fault <;> cases state.shares.find? token <;>
      simp only [named, if_false] <;> split_ifs <;> simp

section Refinement
variable {trace : Trace} (refines : Refines trace)
include refines

private theorem Refines.share_iff {token : String} {time : Instant} :
    (∃ share ∈ trace.state.shares, share.token = token ∧ share.revoked = false ∧
      ∀ expiry ∈ share.expiresAt, time ≤ expiry) ↔
      ∃ grant ∈ trace.ledger, grant.token = token ∧ grant.revoked = false ∧
        time ≤ toMicros (grant.at_ + requested grant.hours) := by
  constructor
  · rintro ⟨share, held, rfl, open_, inTime⟩
    have listed : (share.token, share.expiresAt, share.revoked) ∈ trace.ledger.map granted :=
      refines.rows ▸ List.mem_map.mpr ⟨share, held, rfl⟩
    obtain ⟨grant, member, same⟩ := List.mem_map.mp listed
    simp only [granted, Prod.mk.injEq] at same
    exact ⟨grant, member, same.1, same.2.2.trans open_, inTime _ same.2.1.symm⟩
  · rintro ⟨grant, member, rfl, open_, inTime⟩
    have listed : granted grant ∈
        trace.state.shares.rows.map fun share => (share.token, share.expiresAt, share.revoked) :=
      refines.rows ▸ List.mem_map_of_mem member
    obtain ⟨share, held, same⟩ := List.mem_map.mp listed
    simp only [granted, Prod.mk.injEq] at same
    refine ⟨share, held, same.1, same.2.2.trans open_, fun expiry given => ?_⟩
    rw [same.2.1] at given
    cases given
    exact inTime

private theorem Refines.grant_unique {first second : Grant} (left : first ∈ trace.ledger) (right : second ∈ trace.ledger)
    (same : first.token = second.token) : first = second := by
  have tokens : trace.ledger.map Grant.token = trace.state.shares.rows.map EvidenceShare.token := by
    have projected := congrArg (List.map Prod.fst) refines.rows
    simpa [List.map_map, Function.comp_def, granted] using projected.symm
  have distinct : (trace.ledger.map Grant.token).Nodup := tokens ▸ trace.state.shares.distinct
  exact List.inj_on_of_nodup_map distinct left right same

/-- A link is served exactly when the ledger entitles to it, except in the part
of a microsecond that the stored expiry cuts off and when the lookup fails. -/
theorem Refines.served_iff {call : Call} {token : String} (request : call.request = .publicOpen token) :
    (Serves (handle trace.state call).2 ↔ Entitled trace.ledger token (arrival trace call)) ↔
      ∀ grant ∈ trace.ledger, grant.token = token → grant.revoked = false →
        arrival trace call ≤ grant.at_ + requested grant.hours →
          token ≠ "" ∧ call.env.fault = none ∧ arrival trace call ≤ toMicros (grant.at_ + requested grant.hours) := by
  have served : Serves (handle trace.state call).2 ↔ token ≠ "" ∧ call.env.fault = none ∧
      ∃ grant ∈ trace.ledger, grant.token = token ∧ grant.revoked = false ∧
        arrival trace call ≤ toMicros (grant.at_ + requested grant.hours) := by
    rw [handle, open_serves_iff request, ← refines.share_iff]
    rfl
  have begun : ∀ grant ∈ trace.ledger, grant.at_ ≤ arrival trace call := by
    intro grant member
    exact (refines.past grant member).trans (Int.le_add_of_nonneg_right (Int.natCast_nonneg _))
  rw [served]
  constructor
  · intro same grant member named open_ inTime
    obtain ⟨token_, healthy, other, listed, sameToken, _, stored⟩ :=
      same.mpr ⟨grant, member, named, open_, begun grant member, inTime⟩
    rw [refines.grant_unique listed member (sameToken.trans named.symm)] at stored
    exact ⟨token_, healthy, stored⟩
  · intro condition
    constructor
    · rintro ⟨_, _, grant, member, named, open_, stored⟩
      exact ⟨grant, member, named, open_, begun grant member, stored.trans (toMicros_le _)⟩
    · rintro ⟨grant, member, named, open_, _, inTime⟩
      obtain ⟨token_, healthy, stored⟩ := condition grant member named open_ inTime
      exact ⟨token_, healthy, grant, member, named, open_, stored⟩

/-- Under the refinement, a request is controlled exactly on safe inputs. -/
theorem Refines.controlled_iff_safe (call : Call) : Controlled trace call ↔ Safe trace call := by
  constructor
  · intro controlled
    refine ⟨?_, ?_, ?_⟩
    · intro incidentId request outsider
      have hidden := hidden_waited.mp (controlled.tokensHidden outsider (by simp [request]))
      exact (list_hidden_iff (waited trace.state call.elapsed) request).mp hidden
    · intro body request long accepted
      obtain ⟨status, text, refused⟩ := controlled.longRefused body request long
      obtain ⟨claims, ttl, shares, _, _, answer⟩ :=
        create_accepted (waited trace.state call.elapsed) request accepted
      rw [handle, answer] at refused
      cases refused
    · intro token request
      exact (refines.served_iff request).mp (controlled.servedExactly token request)
  · intro safe
    refine ⟨?_, ?_, ?_⟩
    · intro outsider notOpen
      by_cases listing : ∃ incidentId, call.request = .list incidentId
      · obtain ⟨incidentId, request⟩ := listing
        exact hidden_waited.mpr
          ((list_hidden_iff (waited trace.state call.elapsed) request).mpr (safe.lists incidentId request outsider))
      · intro other _
        exact unsupervised_reply outsider (fun incidentId request => listing ⟨incidentId, request⟩) notOpen _ _
    · intro body request long
      obtain ⟨status, text, answer⟩ :=
        create_refused (waited trace.state call.elapsed) request (safe.lifetimes body request long)
      exact ⟨status, text, by rw [handle, answer]⟩
    · intro token request
      exact (refines.served_iff request).mpr (safe.opens token request)

private theorem Refines.of_unchanged {call : Call} {reply : Reply Body} {after : State}
    (answer : route (waited trace.state call.elapsed) call = (after, reply))
    (shares : after.shares = trace.state.shares) (clock : after.now = arrival trace call)
    (ledger : record trace.ledger (arrival trace call) call.request reply = trace.ledger) :
    Refines (step trace call) := by
  have later : trace.state.now ≤ after.now := by
    rw [clock]
    exact Int.le_add_of_nonneg_right (Int.natCast_nonneg _)
  refine ⟨?_, ?_⟩
  · simp only [step, handle, answer, shares, ledger]
    exact refines.rows
  · intro grant member
    simp only [step, handle, answer, ledger] at member ⊢
    exact (refines.past grant member).trans later

private theorem Refines.of_created {call : Call} {body : CreateBody} (request : call.request = .create (some body))
    (accepted : Accepted (waited trace.state call.elapsed) call body) (bounded : body.expiresInHours ≤ 2160) :
    Refines (step trace call) := by
  obtain ⟨claims, ttl, shares, life, inserted, answer⟩ := create_accepted _ request accepted
  rw [lifetime_eq_requested bounded] at life
  cases life
  have rows := Table.insert?_rows (createEvidenceShare_ok.mp inserted).2.1
  refine ⟨?_, ?_⟩
  · simp only [step, handle, answer, request, record, rows, List.map_append]
    exact congrArg₂ (· ++ ·) refines.rows rfl
  · intro grant member
    simp only [step, handle, answer, request, record, List.mem_append, List.mem_singleton] at member ⊢
    rcases member with old | rfl
    · exact (refines.past grant old).trans (Int.le_add_of_nonneg_right (Int.natCast_nonneg _))
    · exact Int.le_refl _

private theorem Refines.of_revoked {call : Call} {token : String} (request : call.request = .revoke token)
    (supervisor : supervises call.claims = true) (named : token ≠ "") (healthy : call.env.fault = none) :
    Refines (step trace call) := by
  have ledger : (step trace call).ledger =
      trace.ledger.map fun grant => if grant.token = token then { grant with revoked := true } else grant := by
    simp [step, handle, route, request, handleRevokeEvidenceShare, supervisor, named, healthy, record]
  have rows : (step trace call).state.shares.rows = trace.state.shares.rows.map
      fun share => if share.token = token then { share with revoked := true } else share := by
    simp [step, handle, route, request, handleRevokeEvidenceShare, supervisor, named, healthy, Table.modify, waited]
  have clock : (step trace call).state.now = arrival trace call := by
    simp [step, handle, route, request, handleRevokeEvidenceShare, supervisor, named, healthy, waited, arrival]
  -- Revoking commutes with the correspondence: it reads the token and writes the flag.
  let revoke (entry : String × Option Instant × Bool) : String × Option Instant × Bool :=
    if entry.1 = token then (entry.1, entry.2.1, true) else entry
  refine ⟨?_, ?_⟩
  · have both := congrArg (List.map revoke) refines.rows
    rw [rows, ledger, List.map_map, List.map_map]
    rw [List.map_map, List.map_map] at both
    convert both using 2
    · funext share
      by_cases same : share.token = token <;> simp [revoke, same]
    · funext grant
      by_cases same : grant.token = token <;> simp [revoke, granted, same]
  · intro grant member
    rw [ledger] at member
    obtain ⟨old, held, rfl⟩ := List.mem_map.mp member
    have before : old.at_ ≤ arrival trace call :=
      (refines.past old held).trans (Int.le_add_of_nonneg_right (Int.natCast_nonneg _))
    rw [clock]
    split
    · exact before
    · exact before

/-- A controlled request keeps the table and the ledger in step. -/
theorem Refines.step_refines {call : Call} (controlled : Controlled trace call) : Refines (step trace call) := by
  cases request : call.request with
  | create body =>
    cases body with
    | none =>
      obtain ⟨status, text, answer⟩ := create_unreadable (waited trace.state call.elapsed) request
      exact refines.of_unchanged answer rfl rfl (by simp [request, record])
    | some body =>
      by_cases accepted : Accepted (waited trace.state call.elapsed) call body
      · refine refines.of_created request accepted (Int.not_lt.mp fun long => ?_)
        obtain ⟨status, text, refused⟩ := controlled.longRefused body request long
        obtain ⟨claims, ttl, shares, _, _, answer⟩ := create_accepted _ request accepted
        rw [handle, answer] at refused
        cases refused
      · obtain ⟨status, text, answer⟩ := create_refused _ request accepted
        exact refines.of_unchanged answer rfl rfl (by simp [request, record])
  | revoke token =>
    by_cases effective : supervises call.claims = true ∧ token ≠ "" ∧ call.env.fault = none
    · exact refines.of_revoked request effective.1 effective.2.1 effective.2.2
    · obtain ⟨status, text, answer⟩ := revoke_refused (waited trace.state call.elapsed) request effective
      exact refines.of_unchanged answer rfl rfl (by simp [request, record])
  | list incidentId =>
    have same := handleListEvidenceShares_state (waited trace.state call.elapsed) incidentId call.env
    refine refines.of_unchanged rfl ?_ ?_ (by simp [request, record])
    · simp only [request]
      rw [same]
      rfl
    · simp only [request]
      rw [same]
      rfl
  | publicOpen token =>
    obtain ⟨shares, clock⟩ := handlePublicEvidenceShare_frame (waited trace.state call.elapsed) token call.env
    refine refines.of_unchanged rfl ?_ ?_ (by simp [request, record])
    · simp only [request]
      exact shares
    · simp only [request]
      exact clock

end Refinement

/-! ## Runs -/

/-- Before the first request no share exists. -/
def initial (now : Instant) (incidents : Table Incident.id) : Trace :=
  ⟨⟨now, incidents, .empty, []⟩, []⟩

/-- Share links stay under supervisor control in a run exactly if every request
of it is safe. -/
theorem shares_controlled_iff_safe (now : Instant) (incidents : Table Incident.id) (calls : List Call) :
    Along step Controlled (initial now incidents) calls ↔ Along step Safe (initial now incidents) calls := by
  have start : Refines (initial now incidents) := ⟨rfl, by simp [initial]⟩
  exact along_congr_of_invariant (fun _ _ refines controlled => refines.step_refines controlled)
    (fun _ call refines => refines.controlled_iff_safe call) calls _ start

private def supervisor : Claims := ⟨"00000000-0000-0000-0000-00000000000a", "lead", .socSupervisor, "Lead", ""⟩

private def onlooker : Claims := ⟨"00000000-0000-0000-0000-00000000000b", "eve", .viewer, "Eve", "co-2"⟩

private def incidentTable : Table Incident.id := ⟨[{ id := "INC-2026-0001", siteId := "AA-100" }], by decide⟩

private def creation (hours : Int) : Call :=
  ⟨0, some supervisor, .create (some ⟨"INC-2026-0001", hours⟩), { token := "5ec2e7" }⟩

private def listing : Call := ⟨1000000000, some onlooker, .list "INC-2026-0001", {}⟩

/-- A viewer of another organisation reads a token off the list, and a link for
almost 585 years is accepted because its nanoseconds wrap to 25 minutes. -/
theorem viewer_reads_token_and_long_link_accepted :
    ¬ Along step Controlled (initial 0 incidentTable) [creation 24, listing] ∧
      ¬ Along step Controlled (initial 0 incidentTable) [creation 5124096] := by
  constructor
  · rintro ⟨_, controlled, _⟩
    let created := step (initial 0 incidentTable) (creation 24)
    have alike : SameButTokens created.state { created.state with shares := retokened created.state.shares } := by
      refine ⟨rfl, rfl, rfl, ?_⟩
      decide +kernel
    have hidden := controlled.tokensHidden rfl (by simp [listing]) _ alike
    exact absurd hidden (by decide +kernel)
  · rintro ⟨controlled, _⟩
    obtain ⟨status, text, refused⟩ := controlled.longRefused ⟨"INC-2026-0001", 5124096⟩ rfl (by decide)
    have accepted : (handle (initial 0 incidentTable).state (creation 5124096)).2 =
        .json 201 (.share ⟨"5ec2e7", "INC-2026-0001", supervisor.userId, some 1526290448384, false, 0⟩) := by
      decide +kernel
    rw [accepted] at refused
    cases refused

end Ironsight.ShareLinksProofs
