import Ironsight.Uuid

/-! The three classes of signed tokens. Session tokens, media tokens and WebSocket
tickets are signed with one secret and differ in their issuer and their fields.
A token is the secret and the JSON object it was signed with, since that is all
the signature check depends on; each parser decodes the object into its own
fields and leaves absent ones empty. -/
namespace Ironsight.Tokens
open Uuid

/-! ## Signed objects -/

inductive Value where
  | text (value : String)
  | number (value : Int)
  deriving DecidableEq

/-- The fields of a JSON object. -/
abbrev Payload := List (String × Value)

/-- A field that is always written. -/
def always (key value : String) : Payload := [(key, .text value)]

/-- A field tagged `omitempty`. -/
def omitEmpty (key value : String) : Payload := if value = "" then [] else [(key, .text value)]

/-- A numeric date tagged `omitempty`. -/
def omitNone (key : String) : Option Int → Payload
  | none => []
  | some value => [(key, .number value)]

/-- Into a string: absent is empty, and a number is an error. -/
def readText : Option Value → Option String
  | none => some ""
  | some (.text value) => some value
  | some (.number _) => none

/-- Into a numeric date: absent is no date, and a string is an error. -/
def readDate : Option Value → Option (Option Int)
  | none => some none
  | some (.number value) => some (some value)
  | some (.text _) => none

def Payload.text (payload : Payload) (key : String) : Option String := readText (payload.lookup key)

def Payload.date (payload : Payload) (key : String) : Option (Option Int) := readDate (payload.lookup key)

/-- What a client may present: a string that the library signed, or another one. -/
inductive Token where
  | signed (secret : String) (payload : Payload)
  | text (value : String)
  deriving DecidableEq

/-- `NewNumericDate`: whole seconds. -/
def numericDate (nanos : Int) : Int := nanos / 1000000000

/-- `Parse` accepts what was signed with the secret and is not expired. -/
def verified (secret : String) (now : Int) : Token → Option Payload
  | .text _ => none
  | .signed key payload =>
    if key = secret then
      match payload.date "exp" with
      | none => none
      | some none => some payload
      | some (some seconds) => if now < seconds * 1000000000 then some payload else none
    else none

/-- `jwt.RegisteredClaims`, as far as the code sets it. -/
structure RegisteredClaims where
  issuer : String := ""
  subject : String := ""
  expiresAt : Option Int := none
  issuedAt : Option Int := none
  id : String := ""
  deriving DecidableEq

/-- The registered fields but the subject, which two of the payloads shadow. -/
def RegisteredClaims.encodeRest (registered : RegisteredClaims) : Payload :=
  omitEmpty "iss" registered.issuer ++ omitNone "exp" registered.expiresAt ++ omitNone "iat" registered.issuedAt ++
    omitEmpty "jti" registered.id

def RegisteredClaims.encode (registered : RegisteredClaims) : Payload :=
  omitEmpty "sub" registered.subject ++ registered.encodeRest

def RegisteredClaims.decodeRest (payload : Payload) : Option RegisteredClaims := do
  let issuer ← payload.text "iss"
  let expiresAt ← payload.date "exp"
  let issuedAt ← payload.date "iat"
  let id ← payload.text "jti"
  return { issuer := issuer, expiresAt := expiresAt, issuedAt := issuedAt, id := id }

def RegisteredClaims.decode (payload : Payload) : Option RegisteredClaims := do
  let registered ← RegisteredClaims.decodeRest payload
  let subject ← payload.text "sub"
  return { registered with subject := subject }

/-- What a signer draws from outside: the token's id and two clock readings. -/
structure Stamp where
  jti : UUID
  expiryClock : Int
  issueClock : Int
  deriving DecidableEq

def Stamp.registered (stamp : Stamp) (issuer : String) (lifetime : Int) : RegisteredClaims where
  issuer := issuer
  expiresAt := some (numericDate (stamp.expiryClock + lifetime))
  issuedAt := some (numericDate stamp.issueClock)
  id := stamp.jti.text

def second : Int := 1000000000

def hour : Int := 3600 * second

/-- The bounds on `ttl`. -/
def clamp (ttl : Int) : Int :=
  let raised := if ttl < second then second else ttl
  if raised > hour then hour else raised

def errEmptySecret : String := "auth: empty signing secret"

/-! ## Session tokens -/

/-- `Claims`, the identity every handler works with. -/
structure Claims where
  userID : String := ""
  username : String := ""
  role : String := ""
  displayName : String := ""
  organizationID : String := ""
  registered : RegisteredClaims := {}
  deriving DecidableEq

def Claims.encode (claims : Claims) : Payload :=
  always "uid" claims.userID ++ always "username" claims.username ++ always "role" claims.role ++
    always "display_name" claims.displayName ++ omitEmpty "organization_id" claims.organizationID ++
      claims.registered.encode

def Claims.decode (payload : Payload) : Option Claims := do
  let userID ← payload.text "uid"
  let username ← payload.text "username"
  let role ← payload.text "role"
  let displayName ← payload.text "display_name"
  let organizationID ← payload.text "organization_id"
  let registered ← RegisteredClaims.decode payload
  return ⟨userID, username, role, displayName, organizationID, registered⟩

/-- `SignToken`: the token and its id. -/
def signToken (userID username role displayName organizationID secret : String) (stamp : Stamp) :
    Except String (Token × String) :=
  if secret = "" then .error errEmptySecret
  else
    let claims : Claims :=
      ⟨userID, username, role, displayName, organizationID, stamp.registered "" (24 * hour)⟩
    .ok (.signed secret claims.encode, stamp.jti.text)

/-- `ParseToken`. -/
def parseToken (token : Token) (secret : String) (now : Int) : Except String Claims :=
  if secret = "" then .error errEmptySecret
  else match (verified secret now token).bind Claims.decode with
    | none => .error "invalid or expired token"
    | some claims => .ok claims

/-! ## Media tokens -/

def mediaTokenIssuer : String := "ironsight-media-v1"

/-- `MediaKind.IsValid`; the type is a string of which four values count. -/
def mediaKindIsValid (kind : String) : Bool := ["segment", "hls", "snapshot", "ppe-frame"].contains kind

def mediaPathChar (c : Char) : Bool :=
  ('a' ≤ c ∧ c ≤ 'z') ∨ ('A' ≤ c ∧ c ≤ 'Z') ∨ ('0' ≤ c ∧ c ≤ '9') ∨ c = '.' ∨ c = '_' ∨ c = '-'

/-- `validMediaPath`: a leaf name. -/
def validMediaPath (path : String) : Bool :=
  path ≠ "" ∧ path.utf8ByteSize ≤ 255 ∧ path ≠ "." ∧ path ≠ ".." ∧ path.toList.all mediaPathChar ∧
    path.toList.head? ≠ some '.'

/-- `MediaClaims`. -/
structure MediaClaims where
  userID : String
  cameraID : String
  path : String
  kind : String
  registered : RegisteredClaims
  deriving DecidableEq

/-- The field `sub` is the outer one. -/
def MediaClaims.encode (claims : MediaClaims) : Payload :=
  always "sub" claims.userID ++ always "cam" claims.cameraID ++ always "path" claims.path ++
    always "kind" claims.kind ++ claims.registered.encodeRest

def MediaClaims.decode (payload : Payload) : Option MediaClaims := do
  let userID ← payload.text "sub"
  let cameraID ← payload.text "cam"
  let path ← payload.text "path"
  let kind ← payload.text "kind"
  let registered ← RegisteredClaims.decodeRest payload
  return ⟨userID, cameraID, path, kind, registered⟩

/-- `SignMediaToken`. -/
def signMediaToken (userID cameraID kind path secret : String) (ttl : Int) (stamp : Stamp) : Except String Token :=
  if secret = "" then .error errEmptySecret
  else if userID = "" ∨ cameraID = "" then .error "auth: empty user or camera id"
  else if !mediaKindIsValid kind then .error "auth: invalid media kind"
  else if !validMediaPath path then .error "auth: invalid media path"
  else
    let claims : MediaClaims := ⟨userID, cameraID, path, kind, stamp.registered mediaTokenIssuer (clamp ttl)⟩
    .ok (.signed secret claims.encode)

/-- `ParseMediaToken`. -/
def parseMediaToken (token : Token) (secret : String) (now : Int) : Except String MediaClaims :=
  if secret = "" then .error errEmptySecret
  else match (verified secret now token).bind MediaClaims.decode with
    | none => .error "invalid or expired media token"
    | some claims =>
      if claims.registered.issuer ≠ mediaTokenIssuer then .error "invalid media token issuer"
      else if !mediaKindIsValid claims.kind then .error "invalid media kind"
      else if !validMediaPath claims.path then .error "invalid media path"
      else if claims.userID = "" ∨ claims.cameraID = "" then .error "invalid media subject"
      else .ok claims

/-! ## WebSocket tickets -/

def wsTicketIssuer : String := "ironsight-ws-v1"

structure WSClaims where
  userID : String
  username : String
  role : String
  displayName : String
  organizationID : String
  registered : RegisteredClaims
  deriving DecidableEq

def WSClaims.encode (claims : WSClaims) : Payload :=
  always "sub" claims.userID ++ always "username" claims.username ++ always "role" claims.role ++
    always "display_name" claims.displayName ++ omitEmpty "organization_id" claims.organizationID ++
      claims.registered.encodeRest

def WSClaims.decode (payload : Payload) : Option WSClaims := do
  let userID ← payload.text "sub"
  let username ← payload.text "username"
  let role ← payload.text "role"
  let displayName ← payload.text "display_name"
  let organizationID ← payload.text "organization_id"
  let registered ← RegisteredClaims.decodeRest payload
  return ⟨userID, username, role, displayName, organizationID, registered⟩

/-- `SignWSTicket`. -/
def signWSTicket (claims : Option Claims) (secret : String) (ttl : Int) (stamp : Stamp) : Except String Token :=
  if secret = "" then .error errEmptySecret
  else match claims with
    | none => .error "auth: empty session claims"
    | some claims =>
      if claims.userID = "" then .error "auth: empty session claims"
      else
        let ticket : WSClaims := ⟨claims.userID, claims.username, claims.role, claims.displayName,
          claims.organizationID, stamp.registered wsTicketIssuer (clamp ttl)⟩
        .ok (.signed secret ticket.encode)

/-- `ParseWSTicket`. -/
def parseWSTicket (token : Token) (secret : String) (now : Int) : Except String Claims :=
  if secret = "" then .error errEmptySecret
  else match (verified secret now token).bind WSClaims.decode with
    | none => .error "invalid or expired ws ticket"
    | some claims =>
      if claims.registered.issuer ≠ wsTicketIssuer then .error "invalid ws ticket issuer"
      else if claims.userID = "" then .error "invalid ws ticket subject"
      else .ok ⟨claims.userID, claims.username, claims.role, claims.displayName, claims.organizationID,
        { id := claims.registered.id }⟩

/-! ## The middleware -/

/-- The credentials of a request: the session cookie and the bearer token. -/
structure Request where
  cookie : Option Token := none
  bearer : Option Token := none
  deriving DecidableEq

inductive Answer where
  | passed (claims : Claims)
  | refused (status : Nat) (body : String)
  deriving DecidableEq

/-- `RequireAuth`. `sso` is the answer of the header-trust branch when that
branch applies; it reads no token. `isTokenRevoked` is `none` when the lookup
fails. -/
def requireAuth (sso : Option Answer) (secret : String) (isTokenRevoked : String → Option Bool) (request : Request)
    (now : Int) : Answer :=
  match sso with
  | some answer => answer
  | none =>
    match request.cookie with
    | none | some (.text "") => .refused 401 "authorization required"
    | some token =>
      match parseToken token secret now with
      | .error _ => .refused 401 "invalid or expired token"
      | .ok claims =>
        if claims.registered.id ≠ "" ∧ isTokenRevoked claims.registered.id = some true then
          .refused 401 "token revoked"
        else .passed claims

end Ironsight.Tokens
