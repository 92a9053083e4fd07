import Ironsight.LiveProxy

/-! URLs as `net/url` reads and prints them. Whether the text in square brackets is an IPv6
address is left to a parameter. -/
namespace Ironsight.NetUrl
open LiveProxy (Bytes bytes slash percent questionMark numberSign upperHex containsCTLByte cut)
open Uuid (unhex lower)

def colon : UInt8 := 58
def atSign : UInt8 := 64
def opening : UInt8 := 91
def closing : UInt8 := 93
def blank : UInt8 := 32

/-! ## Escapes -/

inductive Encoding where
  | path
  | userPassword
  | host
  | zone
  | fragment
  deriving DecidableEq

def isAlphanumeric (c : UInt8) : Bool :=
  let n := c.toNat
  (48 ≤ n && n ≤ 57) || (65 ≤ n && n ≤ 90) || (97 ≤ n && n ≤ 122)

def shouldEscape (c : UInt8) (mode : Encoding) : Bool :=
  if isAlphanumeric c then false
  else if (mode = .host ∨ mode = .zone) ∧ c ∈ bytes "!$&'()*+,;=:[]<>\"" then false
  else if c ∈ bytes "-_.~" then false
  else if c ∈ bytes "$&+,/:;=?@" then
    match mode with
    | .path => c = questionMark
    | .userPassword => c = atSign || c = slash || c = questionMark || c = colon
    | .fragment => false
    | .host | .zone => true
  else !(mode = .fragment && c ∈ bytes "!()*")

/-- The byte that an escape stands for. A host may only escape `%` and bytes outside ASCII, a zone
only `%`, the blank and what may stand in a host as it is. -/
def decode (mode : Encoding) (high low : UInt8) : Option UInt8 := do
  let h ← unhex high
  let l ← unhex low
  let v := UInt8.ofNat (16 * h + l)
  match mode with
  | .host => if h < 8 ∧ v ≠ percent then none else some v
  | .zone => if v ≠ percent ∧ v ≠ blank ∧ shouldEscape v .host then none else some v
  | _ => some v

/-- The bytes that need no escape to be read. -/
def isAllowed (mode : Encoding) (c : UInt8) : Bool := !((mode = .host || mode = .zone) && c.toNat < 128 && shouldEscape c mode)

def unescape (mode : Encoding) : Bytes → Option Bytes
  | [] => some []
  | c :: rest =>
    if c = percent then
      match rest with
      | high :: low :: rest =>
        match decode mode high low with
        | some v => (unescape mode rest).map (v :: ·)
        | none => none
      | _ => none
    else if isAllowed mode c then (unescape mode rest).map (c :: ·)
    else none

def escape (mode : Encoding) (s : Bytes) : Bytes :=
  s.flatMap fun c => if shouldEscape c mode then [percent, upperHex (c.toNat / 16), upperHex (c.toNat % 16)] else [c]

def validEncoded (mode : Encoding) (s : Bytes) : Bool := s.all fun c => c ∈ bytes "!$&'()*+,;=:@[]%" || !shouldEscape c mode

/-! ## Reading -/

structure Userinfo where
  username : Bytes
  password : Bytes
  passwordSet : Bool
  deriving DecidableEq

/-- `url.URL`; `opaquePart` is its field `Opaque`. -/
structure URL where
  scheme : Bytes := []
  opaquePart : Bytes := []
  user : Option Userinfo := none
  host : Bytes := []
  path : Bytes := []
  rawPath : Bytes := []
  omitHost : Bool := false
  forceQuery : Bool := false
  rawQuery : Bytes := []
  fragment : Bytes := []
  rawFragment : Bytes := []
  deriving DecidableEq

/-- The text before the last such byte and the text after it. -/
def cutLast (mark : UInt8) : Bytes → Option (Bytes × Bytes)
  | [] => none
  | c :: rest =>
    match cutLast mark rest with
    | some (before, after) => some (c :: before, after)
    | none => if c = mark then some ([], rest) else none

def isSchemeByte (c : UInt8) : Bool := isAlphanumeric c || c ∈ bytes "+-."

def isDigit (c : UInt8) : Bool := 48 ≤ c.toNat && c.toNat ≤ 57

/-- The scheme and what follows it; a text that has none is left as it is. -/
def getScheme (rawURL : Bytes) : Option (Bytes × Bytes) :=
  match rawURL.takeWhile isSchemeByte, rawURL.dropWhile isSchemeByte with
  | [], c :: _ => if c = colon then none else some ([], rawURL)
  | first :: scheme, c :: rest =>
    if c = colon ∧ !isDigit first ∧ first ∉ bytes "+-." then some (first :: scheme, rest) else some ([], rawURL)
  | _, [] => some ([], rawURL)

def validOptionalPort : Bytes → Bool
  | [] => true
  | c :: port => c = colon && port.all isDigit

def validUserinfo (s : Bytes) : Bool := s.all fun c => isAlphanumeric c || c ∈ bytes "-._:~!$&'()*+,;=%@"

/-- The text before the first `%25` and the text from there on. -/
def cutZone : Bytes → Bytes × Bytes
  | [] => ([], [])
  | c :: rest => if (bytes "%25").isPrefixOf (c :: rest) then ([], c :: rest) else (c :: (cutZone rest).1, (cutZone rest).2)

section
-- `netip.ParseAddr` accepts the text, and the address is no IPv4 address
variable (isIPv6 : Bytes → Bool)

def parseHost (host : Bytes) : Option Bytes :=
  match cutLast opening host with
  | some (before, _) =>
    match cutLast closing host with
    | none => none
    | some (literal, colonPort) =>
      if validOptionalPort colonPort then do
        let port ← unescape .host colonPort
        let (address, zone) := cutZone (literal.drop (before.length + 1))
        let hostname := (← unescape .host address) ++ (← unescape .zone zone)
        if isIPv6 hostname then some (opening :: (hostname ++ closing :: port)) else none
      else none
  | none =>
    match cutLast colon host with
    | some (_, port) => if validOptionalPort (colon :: port) then unescape .host host else none
    | none => unescape .host host

def parseUserinfo (userinfo : Bytes) : Option Userinfo :=
  if !validUserinfo userinfo then none
  else if colon ∈ userinfo then do
    let username ← unescape .userPassword (cut colon userinfo).1
    let password ← unescape .userPassword (cut colon userinfo).2
    return ⟨username, password, true⟩
  else do
    let username ← unescape .userPassword userinfo
    return ⟨username, [], false⟩

def parseAuthority (authority : Bytes) : Option (Option Userinfo × Bytes) :=
  match cutLast atSign authority with
  | none => (parseHost isIPv6 authority).map fun host => (none, host)
  | some (userinfo, host) => do
    let host ← parseHost isIPv6 host
    let user ← parseUserinfo userinfo
    return (some user, host)

/-- The decoded text, and the text as given if it is not how it would be printed. -/
def setEncoded (mode : Encoding) (text : Bytes) : Option (Bytes × Bytes) :=
  (unescape mode text).map fun decoded => (decoded, if text = escape mode decoded then [] else text)

def setPath (p : Bytes) (url : URL) : Option URL :=
  (setEncoded .path p).map fun found => { url with path := found.1, rawPath := found.2 }

def setFragment (f : Bytes) (url : URL) : Option URL :=
  (setEncoded .fragment f).map fun found => { url with fragment := found.1, rawFragment := found.2 }

/-- `ForceQuery`, the text before the query, and the query. -/
def cutQuery (rest : Bytes) : Bool × Bytes × Bytes :=
  if rest.getLast? = some questionMark ∧ rest.count questionMark = 1 then (true, rest.dropLast, [])
  else (false, cut questionMark rest)

/-- The authority and the path. -/
def parseRest (url : URL) (rest : Bytes) : Option URL :=
  if (url.scheme ≠ [] ∨ ¬ (bytes "///").isPrefixOf rest) ∧ (bytes "//").isPrefixOf rest then do
    let authority := rest.drop 2
    let (user, host) ← parseAuthority isIPv6 (authority.takeWhile (· ≠ slash))
    setPath (authority.dropWhile (· ≠ slash)) { url with user := user, host := host }
  else setPath rest { url with omitHost := url.scheme ≠ [] && rest.head? = some slash }

/-- `parse`, without the fragment. -/
def parseTarget (rawURL : Bytes) : Option URL :=
  if containsCTLByte rawURL then none
  else if rawURL = bytes "*" then some { path := bytes "*" }
  else do
    let (scheme, rest) ← getScheme rawURL
    let (forceQuery, rest, rawQuery) := cutQuery rest
    let url : URL := { scheme := scheme.map lower, forceQuery := forceQuery, rawQuery := rawQuery }
    if rest.head? ≠ some slash then
      if url.scheme ≠ [] then some { url with opaquePart := rest }
      else if colon ∈ (cut slash rest).1 then none
      else parseRest isIPv6 url rest
    else parseRest isIPv6 url rest

/-- `Parse`. -/
def parse (rawURL : Bytes) : Option URL := do
  let (target, frag) := cut numberSign rawURL
  let url ← parseTarget isIPv6 target
  if frag = [] then some url else setFragment frag url

end

/-! ## Printing -/

namespace URL

/-- The text as it was given, if it still stands for this one. -/
def escaped (mode : Encoding) (raw text : Bytes) : Bytes :=
  if raw ≠ [] ∧ validEncoded mode raw ∧ unescape mode raw = some text then raw else escape mode text

def escapedPath (u : URL) : Bytes :=
  if u.path = bytes "*" ∧ ¬ (u.rawPath ≠ [] ∧ validEncoded .path u.rawPath ∧ unescape .path u.rawPath = some u.path) then bytes "*"
  else escaped .path u.rawPath u.path

def escapedFragment (u : URL) : Bytes := escaped .fragment u.rawFragment u.fragment

end URL

def Userinfo.string (u : Userinfo) : Bytes :=
  if u.username ≠ [] ∨ u.passwordSet then
    escape .userPassword u.username ++ if u.passwordSet then colon :: escape .userPassword u.password else []
  else []

namespace URL

/-- `//`, the user and the host. -/
def authority (u : URL) : Bytes :=
  if (u.scheme ≠ [] ∨ u.host ≠ [] ∨ u.user ≠ none) ∧ ¬ (u.omitHost ∧ u.host = [] ∧ u.user = none) then
    (if u.host ≠ [] ∨ u.path ≠ [] ∨ u.user ≠ none then [slash, slash] else []) ++
      ((u.user.elim [] fun ui => ui.string ++ [atSign]) ++ escape .host u.host)
  else []

/-- All up to the query, when there is no `Opaque`. -/
def hierarchy (u : URL) : Bytes :=
  let front := (if u.scheme = [] then [] else u.scheme ++ [colon]) ++ u.authority
  let path := u.escapedPath
  let mark := if path ≠ [] ∧ path.head? ≠ some slash ∧ u.host ≠ [] then [slash] else []
  let dot := if front ++ mark = [] ∧ colon ∈ (cut slash path).1 then bytes "./" else []
  front ++ (mark ++ (dot ++ path))

/-- `String`. -/
def string (u : URL) : Bytes :=
  (if u.opaquePart ≠ [] then (if u.scheme = [] then [] else u.scheme ++ [colon]) ++ u.opaquePart else u.hierarchy) ++
    ((if u.forceQuery ∨ u.rawQuery ≠ [] then questionMark :: u.rawQuery else []) ++
      if u.fragment ≠ [] then numberSign :: u.escapedFragment else [])

end URL

def splitHostPort (hostPort : Bytes) : Bytes × Bytes :=
  let (host, port) := match cutLast colon hostPort with
    | some (host, port) => if validOptionalPort (colon :: port) then (host, port) else (hostPort, [])
    | none => (hostPort, [])
  (if host.head? = some opening ∧ host.getLast? = some closing then host.tail.dropLast else host, port)

def URL.hostname (u : URL) : Bytes := (splitHostPort u.host).1

def URL.port (u : URL) : Bytes := (splitHostPort u.host).2

end Ironsight.NetUrl
