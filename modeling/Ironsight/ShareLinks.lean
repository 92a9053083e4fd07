import Ironsight.Runs
import Ironsight.Soc

/-! Public share links for incidents. A token is its own authorisation: whoever
holds it may open the link until it expires or is revoked. The lifetime is
computed in 64-bit nanoseconds before it is compared with the maximum, and the
stored expiry keeps microseconds. -/
namespace Ironsight.ShareLinks
open Tables Runs Uuid Access Soc

/-- `database.EvidenceShare`, a row of `evidence_shares`. -/
structure EvidenceShare where
  token : String
  incidentId : String
  createdBy : String
  expiresAt : Option Instant
  revoked : Bool := false
  createdAt : Instant
  deriving DecidableEq

/-- The tables, the tokens in the access ledger, and the clock. -/
structure State where
  now : Instant
  incidents : Table Incident.id
  shares : Table EvidenceShare.token
  opens : List String
  deriving DecidableEq

/-- `createShareRequest` before its number is read into a Go `int`. -/
structure CreateBody where
  incidentId : String := ""
  expiresInHours : Int := 0
  deriving DecidableEq

inductive Request where
  | create (body : Option CreateBody)
  | revoke (token : String)
  | list (incidentId : String)
  | publicOpen (token : String)
  deriving DecidableEq

/-- The random token, the delay before `created_at` is read, and failures. -/
structure Env where
  token : String := ""
  lag : Nat := 0
  fault : Option String := none
  countFails : Bool := false
  logFails : Bool := false
  deriving DecidableEq

/-- A request that arrives `elapsed` nanoseconds after the one before it. -/
structure Call where
  elapsed : Nat
  claims : Option Claims
  request : Request
  env : Env := {}

/-- `withCount`: a share with its opens and whether it is still good. -/
structure Listed where
  share : EvidenceShare
  openCount : Nat
  active : Bool
  deriving DecidableEq

inductive Body where
  | share (row : EvidenceShare)
  | list (rows : List Listed)
  deriving DecidableEq

/-! ## Lifetimes -/

/-- `time.Hour`. -/
def hour : Int := 3600000000000

/-- `shareDefaultTTL`. -/
def shareDefaultTTL : Int := 7 * 24 * hour

/-- `shareMaxTTL`. -/
def shareMaxTTL : Int := 90 * 24 * hour

/-- A 64-bit signed result. -/
def wrap64 (n : Int) : Int := n.bmod (2 ^ 64)

/-- The `int` that JSON decoding accepts. -/
def fitsInt (n : Int) : Bool := -9223372036854775808 ≤ n ∧ n ≤ 9223372036854775807

/-- The lifetime a request gets, or the refusal. -/
def lifetime (hours : Int) : Except String Int :=
  if 0 < hours then
    let ttl := wrap64 (hours * hour)
    if shareMaxTTL < ttl then .error "expires_in_hours exceeds max of 2160" else .ok ttl
  else .ok shareDefaultTTL

/-- What `timestamptz` keeps of an instant. -/
def toMicros (instant : Instant) : Instant := instant / 1000 * 1000

/-! ## Handlers -/

/-- The role gate of creation and revocation. -/
def supervises (claims : Option Claims) : Bool :=
  claims.any fun claims => claims.role = .admin ∨ claims.role = .socSupervisor

/-- The insert of `CreateEvidenceShare`. -/
def createEvidenceShare (env : Env) (state : State) (share : EvidenceShare) :
    Except String (Table EvidenceShare.token) :=
  match env.fault with
  | some err => .error err
  | none => match state.shares.insert? { share with
      expiresAt := share.expiresAt.map toMicros, createdAt := toMicros share.createdAt } with
    | none => .error (uniqueViolation "evidence_shares_pkey")
    | some shares =>
      if state.incidents.find? share.incidentId = none then
        .error (foreignKeyViolation "evidence_shares" "evidence_shares_incident_fk")
      else .ok shares

/-- `HandleCreateEvidenceShare`. -/
def handleCreateEvidenceShare (state : State) (claims : Option Claims) (body : Option CreateBody) (env : Env) :
    State × Reply Body :=
  match claims with
  | none => (state, .error 401 "unauthorized")
  | some claims =>
    if ¬ supervises (some claims) then (state, .error 403 "supervisor or admin role required")
    else match body.filter fun body => fitsInt body.expiresInHours with
      | none => (state, .error 400 "invalid request body")
      | some body =>
        if body.incidentId = "" then (state, .error 400 "incident_id required")
        else match lifetime body.expiresInHours with
          | .error refusal => (state, .error 400 refusal)
          | .ok ttl =>
            let share : EvidenceShare := {
              token := env.token
              incidentId := body.incidentId
              createdBy := claims.userId
              expiresAt := some (state.now + ttl)
              createdAt := state.now + env.lag }
            match createEvidenceShare env state share with
            | .error err => (state, .error 500 ("create share failed: insert evidence_share: " ++ err))
            | .ok shares => ({ state with shares := shares }, .json 201 (.share share))

/-- `HandleRevokeEvidenceShare`. -/
def handleRevokeEvidenceShare (state : State) (claims : Option Claims) (token : String) (env : Env) :
    State × Reply Body :=
  if ¬ supervises claims then (state, .error 403 "supervisor or admin role required")
  else if token = "" then (state, .error 400 "token required")
  else match env.fault with
    | some _ => (state, .error 500 "revoke failed")
    | none => ({ state with
        shares := state.shares.modify (fun share => share.token = token)
          (fun share => { share with revoked := true }) fun _ => rfl }, .noContent)

/-- `CountShareOpens`, zero when the query fails. -/
def countShareOpens (env : Env) (state : State) (token : String) : Nat :=
  if env.countFails then 0 else state.opens.count token

/-- `HandleListEvidenceShares`, which does not look at its caller. -/
def handleListEvidenceShares (state : State) (incidentId : String) (env : Env) : State × Reply Body :=
  if incidentId = "" then (state, .error 400 "incident id required")
  else match env.fault with
    | some _ => (state, .error 500 "list failed")
    | none =>
      let shares := (state.shares.rows.filter fun share => share.incidentId = incidentId).insertionSort
        fun first second => second.createdAt ≤ first.createdAt
      (state, .json 200 (.list (shares.map fun share => {
        share := share
        openCount := countShareOpens env state share.token
        active := !share.revoked && share.expiresAt.all fun expiry => state.now < expiry })))

/-- `HandlePublicEvidenceShare`: the open is logged whatever the answer. -/
def handlePublicEvidenceShare (state : State) (token : String) (env : Env) : State × Reply Body :=
  if token = "" then (state, .error 400 "missing token")
  else
    let logged := if env.logFails then state else { state with opens := state.opens ++ [token] }
    let notFound := (logged, .error 404 "404 page not found")
    match env.fault, state.shares.find? token with
    | none, some share =>
      if share.revoked then notFound
      else if share.expiresAt.any fun expiry => expiry < state.now then notFound
      else (logged, .json 200 (.share share))
    | _, _ => notFound

/-- The dispatch of the four routes. -/
def route (state : State) (call : Call) : State × Reply Body :=
  match call.request with
  | .create body => handleCreateEvidenceShare state call.claims body call.env
  | .revoke token => handleRevokeEvidenceShare state call.claims token call.env
  | .list incidentId => handleListEvidenceShares state incidentId call.env
  | .publicOpen token => handlePublicEvidenceShare state token call.env

/-- The state once the request has arrived. -/
def waited (state : State) (elapsed : Nat) : State := { state with now := state.now + elapsed }

/-- One request, after the time it took to arrive. -/
def handle (state : State) (call : Call) : State × Reply Body := route (waited state call.elapsed) call

end Ironsight.ShareLinks
