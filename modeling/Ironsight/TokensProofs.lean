import Ironsight.Tokens

/-! Which parser accepts which token. The parsers of media tokens and WebSocket
tickets look at the issuer and so take their own class only; the parser of
session tokens looks at nothing but the signature and the expiry. -/
namespace Ironsight.TokensProofs
open Uuid Tokens

/-! ## The fields of a signed object -/

section Fields
variable {key other : String}

@[simp] theorem lookup_always (value : String) :
    (always key value).lookup other = if other = key then some (.text value) else none := by
  by_cases same : other = key
  · simp [always, same]
  · simp [always, List.lookup_cons, same, beq_false_of_ne same]

@[simp] theorem lookup_omitEmpty (value : String) :
    (omitEmpty key value).lookup other = if other = key ∧ value ≠ "" then some (.text value) else none := by
  unfold omitEmpty
  by_cases empty : value = ""
  · simp [empty]
  · simpa [empty, always] using lookup_always value

@[simp] theorem lookup_omitNone (date : Option Int) :
    (omitNone key date).lookup other = if other = key then date.map .number else none := by
  cases date with
  | none => simp [omitNone]
  | some value =>
    by_cases same : other = key
    · simp [omitNone, same]
    · simp [omitNone, List.lookup_cons, same, beq_false_of_ne same]

end Fields

@[simp] theorem readText_none : readText none = some "" := rfl

@[simp] theorem readText_text (value : String) : readText (some (.text value)) = some value := rfl

@[simp] theorem readDate_number (value : Int) : readDate (some (.number value)) = some (some value) := rfl

@[simp] theorem readText_omitted (value : String) :
    readText (if value = "" then none else some (.text value)) = some value := by
  split
  · rename_i empty
    rw [empty]
    rfl
  · rfl

/-! ## Minting -/

inductive Kind where
  | session
  | media
  | wsTicket
  deriving DecidableEq

/-- A call of one of the three signers. -/
inductive Mint where
  | session (userID username role displayName organizationID : String)
  | media (userID cameraID kind path : String) (ttl : Int)
  | wsTicket (claims : Option Claims) (ttl : Int)
  deriving DecidableEq

def Mint.kind : Mint → Kind
  | .session .. => .session
  | .media .. => .media
  | .wsTicket .. => .wsTicket

/-- What the minting function makes of its arguments. -/
def Mint.sign (secret : String) (stamp : Stamp) : Mint → Except String Token
  | .session userID username role displayName organizationID =>
    (signToken userID username role displayName organizationID secret stamp).map Prod.fst
  | .media userID cameraID kind path ttl => signMediaToken userID cameraID kind path secret ttl stamp
  | .wsTicket claims ttl => signWSTicket claims secret ttl stamp

/-- When the minted token expires, in seconds. -/
def Mint.expiry (stamp : Stamp) : Mint → Int
  | .session .. => numericDate (stamp.expiryClock + 24 * hour)
  | .media _ _ _ _ ttl | .wsTicket _ ttl => numericDate (stamp.expiryClock + clamp ttl)

def Mint.issuer : Mint → String
  | .session .. => ""
  | .media .. => mediaTokenIssuer
  | .wsTicket .. => wsTicketIssuer

/-- The parser of the class takes the token. -/
def Accepts : Kind → Token → String → Int → Prop
  | .session, token, secret, now => ∃ claims, parseToken token secret now = .ok claims
  | .media, token, secret, now => ∃ claims, parseMediaToken token secret now = .ok claims
  | .wsTicket, token, secret, now => ∃ claims, parseWSTicket token secret now = .ok claims

/-- The request carries the token as its session cookie, or else as its bearer. -/
def Presents (token : Token) (request : Request) : Prop :=
  request.cookie = some token ∨ (request.cookie = none ∧ request.bearer = some token)

/-- Only the parser of its own class takes the token, and only a session token
gets a request through the middleware. -/
structure Separated (mint : Mint) (token : Token) (secret : String) (now : Int) : Prop where
  parsers : ∀ kind, kind ≠ mint.kind → ¬ Accepts kind token secret now
  middleware : mint.kind ≠ .session → ∀ isTokenRevoked request, Presents token request →
    ∀ claims, requireAuth none secret isTokenRevoked request now ≠ .passed claims

/-! ## What is signed -/

/-- What every parser relies on in a signed object: the expiry, the issuer, and
strings where a session token has strings. -/
structure Signed (payload : Payload) (issuer : String) (expiry : Int) : Prop where
  expires : payload.date "exp" = some (some expiry)
  issued : payload.date "iat" ≠ none
  issuer : payload.text "iss" = some issuer
  texts : ∀ key ∈ ["uid", "username", "role", "display_name", "organization_id", "sub", "jti"], payload.text key ≠ none

private theorem signed_session (userID username role displayName organizationID : String) (stamp : Stamp) :
    Signed (Claims.encode ⟨userID, username, role, displayName, organizationID, stamp.registered "" (24 * hour)⟩) ""
      (numericDate (stamp.expiryClock + 24 * hour)) := by
  constructor <;>
    simp [Payload.date, Payload.text, Claims.encode, RegisteredClaims.encode, RegisteredClaims.encodeRest,
      Stamp.registered, List.lookup_append]

private theorem signed_media (userID cameraID kind path : String) (ttl : Int) (stamp : Stamp) :
    Signed (MediaClaims.encode ⟨userID, cameraID, path, kind, stamp.registered mediaTokenIssuer (clamp ttl)⟩)
      mediaTokenIssuer (numericDate (stamp.expiryClock + clamp ttl)) := by
  constructor <;>
    simp [Payload.date, Payload.text, MediaClaims.encode, RegisteredClaims.encodeRest, Stamp.registered,
      List.lookup_append, mediaTokenIssuer]

private theorem signed_wsTicket (userID username role displayName organizationID : String) (ttl : Int) (stamp : Stamp) :
    Signed (WSClaims.encode ⟨userID, username, role, displayName, organizationID,
      stamp.registered wsTicketIssuer (clamp ttl)⟩) wsTicketIssuer (numericDate (stamp.expiryClock + clamp ttl)) := by
  constructor <;>
    simp [Payload.date, Payload.text, WSClaims.encode, RegisteredClaims.encodeRest, Stamp.registered,
      List.lookup_append, wsTicketIssuer]

/-- A signer that does not refuse has a secret, and signs with it. -/
private theorem sign_ok {mint : Mint} {secret : String} {stamp : Stamp} {token : Token}
    (minted : mint.sign secret stamp = .ok token) : secret ≠ "" ∧
      ∃ payload, token = .signed secret payload ∧ Signed payload mint.issuer (mint.expiry stamp) := by
  cases mint with
  | session userID username role displayName organizationID =>
    simp only [Mint.sign, signToken] at minted
    split at minted
    · cases minted
    · rename_i given
      cases minted
      exact ⟨given, _, rfl, signed_session ..⟩
  | media userID cameraID kind path ttl =>
    simp only [Mint.sign, signMediaToken] at minted
    split_ifs at minted with empty
    cases minted
    exact ⟨empty, _, rfl, signed_media ..⟩
  | wsTicket claims ttl =>
    cases claims with
    | none =>
      simp only [Mint.sign, signWSTicket] at minted
      split at minted <;> cases minted
    | some claims =>
      simp only [Mint.sign, signWSTicket] at minted
      split_ifs at minted with empty
      cases minted
      exact ⟨empty, _, rfl, signed_wsTicket ..⟩

/-! ## What is accepted -/

section Accepts
variable {payload : Payload} {issuer secret : String} {expiry : Int}

private theorem verified_eq (signed : Signed payload issuer expiry) (presented : String) (now : Int) :
    verified presented now (.signed secret payload) =
      if presented = secret ∧ now < expiry * 1000000000 then some payload else none := by
  simp only [verified, signed.expires]
  by_cases same : secret = presented
  · by_cases early : now < expiry * 1000000000 <;> simp [same, early]
  · have differs : presented ≠ secret := fun equal => same equal.symm
    simp [same, differs]

private theorem decodeRest_isSome (signed : Signed payload issuer expiry) :
    ∃ registered, RegisteredClaims.decodeRest payload = some registered ∧ registered.issuer = issuer := by
  obtain ⟨date, issued⟩ := Option.ne_none_iff_exists'.mp signed.issued
  obtain ⟨id, named⟩ := Option.ne_none_iff_exists'.mp (signed.texts "jti" (by simp))
  refine ⟨{ issuer := issuer, expiresAt := some expiry, issuedAt := date, id := id }, ?_, rfl⟩
  simp only [RegisteredClaims.decodeRest, signed.issuer, signed.expires, issued, named]
  rfl

/-- Whatever was signed decodes into session claims. -/
private theorem decode_isSome (signed : Signed payload issuer expiry) :
    ∃ claims, Claims.decode payload = some claims := by
  obtain ⟨registered, rest, _⟩ := decodeRest_isSome signed
  have texts := signed.texts
  simp only [List.mem_cons, List.not_mem_nil, or_false, forall_eq_or_imp, forall_eq, ne_eq,
    Option.ne_none_iff_exists'] at texts
  obtain ⟨⟨uid, one⟩, ⟨username, two⟩, ⟨role, three⟩, ⟨name, four⟩, ⟨org, five⟩, ⟨subject, six⟩, _⟩ := texts
  refine ⟨⟨uid, username, role, name, org, { registered with subject := subject }⟩, ?_⟩
  simp only [Claims.decode, RegisteredClaims.decode, one, two, three, four, five, six, rest]
  rfl

/-- The parser of session tokens takes everything that is signed and not expired. -/
private theorem parseToken_accepts (given : secret ≠ "") (signed : Signed payload issuer expiry) (presented : String)
    (now : Int) : Accepts .session (.signed secret payload) presented now ↔
      presented = secret ∧ now < expiry * 1000000000 := by
  obtain ⟨claims, decoded⟩ := decode_isSome signed
  simp only [Accepts, parseToken, verified_eq signed]
  by_cases fresh : presented = secret ∧ now < expiry * 1000000000
  · have nonempty : presented ≠ "" := fresh.1 ▸ given
    refine iff_of_true ⟨claims, ?_⟩ fresh
    rw [if_neg nonempty, if_pos fresh, Option.bind_some, decoded]
  · rw [if_neg fresh]
    simp only [Option.bind_none, fresh, iff_false, not_exists]
    intro claims
    split <;> nofun

private theorem mediaIssuer {claims : MediaClaims} (decoded : MediaClaims.decode payload = some claims) :
    payload.text "iss" = some claims.registered.issuer := by
  simp only [MediaClaims.decode, RegisteredClaims.decodeRest, Option.bind_eq_bind, Option.bind_eq_some_iff,
    Option.pure_def, Option.some.injEq] at decoded
  obtain ⟨_, _, _, _, _, _, _, _, registered, ⟨issuer, named, _, _, _, _, _, _, rfl⟩, rfl⟩ := decoded
  exact named

private theorem wsIssuer {claims : WSClaims} (decoded : WSClaims.decode payload = some claims) :
    payload.text "iss" = some claims.registered.issuer := by
  simp only [WSClaims.decode, RegisteredClaims.decodeRest, Option.bind_eq_bind, Option.bind_eq_some_iff,
    Option.pure_def, Option.some.injEq] at decoded
  obtain ⟨_, _, _, _, _, _, _, _, _, _, registered, ⟨issuer, named, _, _, _, _, _, _, rfl⟩, rfl⟩ := decoded
  exact named

/-- The parser of media tokens takes no other issuer. -/
private theorem parseMediaToken_rejects (signed : Signed payload issuer expiry) (foreign : issuer ≠ mediaTokenIssuer)
    (presented : String) (now : Int) : ¬ Accepts .media (.signed secret payload) presented now := by
  rintro ⟨claims, accepted⟩
  simp only [parseMediaToken, verified_eq signed] at accepted
  split at accepted
  · cases accepted
  · split at accepted
    · cases accepted
    · rename_i decodedClaims decoded
      obtain ⟨object, held, read⟩ := Option.bind_eq_some_iff.mp decoded
      split at held <;> cases held
      have named := (mediaIssuer read).symm.trans signed.issuer
      rw [if_pos (by rw [Option.some.inj named]; exact foreign)] at accepted
      cases accepted

/-- The parser of tickets takes no other issuer. -/
private theorem parseWSTicket_rejects (signed : Signed payload issuer expiry) (foreign : issuer ≠ wsTicketIssuer)
    (presented : String) (now : Int) : ¬ Accepts .wsTicket (.signed secret payload) presented now := by
  rintro ⟨claims, accepted⟩
  simp only [parseWSTicket, verified_eq signed] at accepted
  split at accepted
  · cases accepted
  · split at accepted
    · cases accepted
    · rename_i decodedClaims decoded
      obtain ⟨object, held, read⟩ := Option.bind_eq_some_iff.mp decoded
      split at held <;> cases held
      have named := (wsIssuer read).symm.trans signed.issuer
      rw [if_pos (by rw [Option.some.inj named]; exact foreign)] at accepted
      cases accepted

end Accepts

/-- Of the six pairs of a token and a foreign parser, two depend on nothing but
the signature and the expiry; the other four are always refused. -/
theorem foreign_parser_accepts_iff {mint : Mint} {secret : String} {stamp : Stamp} {token : Token}
    (minted : mint.sign secret stamp = .ok token) {kind : Kind} (foreign : kind ≠ mint.kind) (presented : String)
    (now : Int) : Accepts kind token presented now ↔
      kind = .session ∧ presented = secret ∧ now < mint.expiry stamp * 1000000000 := by
  obtain ⟨given, payload, rfl, signed⟩ := sign_ok minted
  cases kind with
  | session => simpa using parseToken_accepts given signed presented now
  | media =>
    have other : mint.issuer ≠ mediaTokenIssuer := by
      cases mint with
      | media => exact absurd rfl foreign
      | session | wsTicket => simp [Mint.issuer, mediaTokenIssuer, wsTicketIssuer]
    simpa using parseMediaToken_rejects signed other presented now
  | wsTicket =>
    have other : mint.issuer ≠ wsTicketIssuer := by
      cases mint with
      | wsTicket => exact absurd rfl foreign
      | session | media => simp [Mint.issuer, mediaTokenIssuer, wsTicketIssuer]
    simpa using parseWSTicket_rejects signed other presented now

/-- The middleware lets through what the parser of session tokens takes from the
cookie, and nothing from the bearer. -/
theorem requireAuth_passes {secret : String} {isTokenRevoked : String → Option Bool} {request : Request} {now : Int}
    {claims : Claims} (passed : requireAuth none secret isTokenRevoked request now = .passed claims) :
    ∃ token, request.cookie = some token ∧ Accepts .session token secret now := by
  simp only [requireAuth] at passed
  split at passed
  · cases passed
  · cases passed
  · rename_i token _ held
    refine ⟨token, held, ?_⟩
    split at passed
    · cases passed
    · rename_i accepted
      exact ⟨_, accepted⟩

/-- A minted token stays within its class exactly if it is a session token, or
is presented under another secret, or has expired. -/
theorem separated_iff_session_or_stale (mint : Mint) (secret : String) (stamp : Stamp) (token : Token)
    (minted : mint.sign secret stamp = .ok token) (presented : String) (now : Int) :
    Separated mint token presented now ↔
      mint.kind = .session ∨ presented ≠ secret ∨ mint.expiry stamp * 1000000000 ≤ now := by
  constructor
  · intro separated
    by_cases session : mint.kind = .session
    · exact .inl session
    · have rejected := separated.parsers .session fun same => session same.symm
      rw [foreign_parser_accepts_iff minted fun same => session same.symm] at rejected
      simp only [true_and, not_and, not_lt] at rejected
      by_cases same : presented = secret
      · exact .inr (.inr (rejected same))
      · exact .inr (.inl same)
  · intro allowed
    have refused {kind : Kind} (foreign : kind ≠ mint.kind) : ¬ Accepts kind token presented now := by
      rw [foreign_parser_accepts_iff minted foreign]
      rintro ⟨rfl, same, early⟩
      rcases allowed with session | differs | late
      · exact foreign session.symm
      · exact differs same
      · omega
    refine ⟨fun kind foreign => refused foreign, ?_⟩
    intro other isTokenRevoked request presents claims passed
    obtain ⟨held, cookie, accepted⟩ := requireAuth_passes passed
    rcases presents with inCookie | ⟨without, _⟩
    · rw [inCookie] at cookie
      cases cookie
      exact refused (fun same => other same.symm) accepted
    · rw [without] at cookie
      cases cookie


private def stamped : Stamp where
  jti := ⟨5⟩
  expiryClock := 1750000000500000000
  issueClock := 1750000000500000000

private def operator : Mint := .session "4f0c" "alice" "operator" "Alice" "co-1"

private def operatorToken : Token :=
  .signed "swordfish" (Claims.encode ⟨"4f0c", "alice", "operator", "Alice", "co-1", stamped.registered "" (24 * hour)⟩)

/-- The session of an operator, read a hundred seconds after it was issued. -/
theorem session_token_separated : Separated operator operatorToken "swordfish" 1750000100000000000 :=
  (separated_iff_session_or_stale operator "swordfish" stamped operatorToken (by decide +kernel) "swordfish"
    1750000100000000000).mpr (.inl rfl)

private def ticket : Mint := .wsTicket (some { userID := "4f0c", username := "alice", role := "operator" }) (300 * second)

private def ticketToken : Token :=
  .signed "swordfish" (WSClaims.encode ⟨"4f0c", "alice", "operator", "", "",
    stamped.registered wsTicketIssuer (300 * second)⟩)

private def clip : Mint := .media "4f0c" "c1" "segment" "a.mp4" (300 * second)

private def clipToken : Token :=
  .signed "swordfish" (MediaClaims.encode ⟨"4f0c", "c1", "a.mp4", "segment",
    stamped.registered mediaTokenIssuer (300 * second)⟩)

/-- Within their five minutes, a WebSocket ticket and a media token pass for a
session. -/
theorem ticket_and_media_token_pass_as_session :
    (ticket.sign "swordfish" stamped = .ok ticketToken ∧ ¬ Separated ticket ticketToken "swordfish" 1750000100000000000) ∧
    (clip.sign "swordfish" stamped = .ok clipToken ∧ ¬ Separated clip clipToken "swordfish" 1750000100000000000) := by
  refine ⟨⟨by decide +kernel, fun separated => ?_⟩, by decide +kernel, fun separated => ?_⟩
  · have refused := separated.middleware nofun (fun _ => some false) { cookie := some ticketToken } (.inl rfl)
      { username := "alice", role := "operator",
        registered := ⟨wsTicketIssuer, "4f0c", some 1750000300, some 1750000000, stamped.jti.text⟩ }
    exact refused (by decide +kernel)
  · have refused := separated.middleware nofun (fun _ => some false) { cookie := some clipToken } (.inl rfl)
      { registered := ⟨mediaTokenIssuer, "4f0c", some 1750000300, some 1750000000, stamped.jti.text⟩ }
    exact refused (by decide +kernel)

end Ironsight.TokensProofs
