import Mathlib.Data.List.TakeWhile
import Ironsight.Access
import Ironsight.DotSegments

/-! The live-view proxy. It checks access to the camera named by one URL
parameter and then asks the HLS server for a path put together from that
parameter and whatever follows it in the request. Texts are byte strings, as a
request can carry any bytes. -/
namespace Ironsight.LiveProxy
open Tables Uuid Access DotSegments

abbrev Bytes := List UInt8

def bytes (text : String) : Bytes := text.toUTF8.data.toList

def slash : UInt8 := 47
def percent : UInt8 := 37
def questionMark : UInt8 := 63
def numberSign : UInt8 := 35

/-! ## net/url -/

/-- `unescape` of a path: every `%` must be followed by two hexadecimal digits. -/
def unescape : Bytes → Option Bytes
  | [] => some []
  | byte :: rest =>
    if byte = percent then
      match rest with
      | high :: low :: rest => do
        let h ← unhex high
        let l ← unhex low
        return UInt8.ofNat (16 * h + l) :: (← unescape rest)
      | _ => none
    else (unescape rest).map (byte :: ·)

/-- `shouldEscape` of a path: letters, digits and the marks that stand for
themselves are kept. -/
def shouldEscape (byte : UInt8) : Bool :=
  let n := byte.toNat
  !((48 ≤ n && n ≤ 57) || (65 ≤ n && n ≤ 90) || (97 ≤ n && n ≤ 122) || (bytes "-_.~$&+,/:;=@").contains byte)

/-- One digit of an escape, in upper case. -/
def upperHex (n : Nat) : UInt8 := UInt8.ofNat (if n < 10 then 48 + n else 55 + n)

def escape (path : Bytes) : Bytes :=
  path.flatMap fun byte =>
    if shouldEscape byte then [percent, upperHex (byte.toNat / 16), upperHex (byte.toNat % 16)] else [byte]

/-- `stringContainsCTLByte`. -/
def containsCTLByte (text : Bytes) : Bool := text.any fun byte => byte < 32 || byte = 127

/-- What a request asks for: the decoded path, which is what a server acts on,
and the query. -/
structure Upstream where
  path : Bytes
  query : Bytes
  deriving DecidableEq

/-- The text before the first such byte and the text after it. -/
def cut (mark : UInt8) (text : Bytes) : Bytes × Bytes :=
  (text.takeWhile (· ≠ mark), (text.dropWhile (· ≠ mark)).drop 1)

/-- `http.NewRequest`, from the path on: the scheme and the configured address
come before it and hold none of the marks that it looks for. -/
def newRequest (url : Bytes) : Option Upstream :=
  let (target, fragment) := cut numberSign url
  if containsCTLByte target then none
  else
    let (path, query) := cut questionMark target
    match unescape path, unescape fragment with
    | some path, some _ => some ⟨path, query⟩
    | _, _ => none

/-! ## The route -/

/-- The URL parameters of `/api/live/{cameraID}/*`. -/
structure Params where
  cameraId : Bytes
  wildcard : Bytes
  deriving DecidableEq

/-- What the router matches on: the decoded path, unless its own encoding would
not give back the one in the request. -/
def routePath (path : Bytes) : Option Bytes :=
  (unescape path).map fun decoded => if escape decoded = path then decoded else path

/-- The request line that follows `/api/live/`, as server and router read it. -/
def route (path rawQuery : Bytes) : Option Params :=
  if containsCTLByte (path ++ rawQuery) then none
  else
    match routePath path with
    | none => none
    | some text =>
      match text.dropWhile (· ≠ slash) with
      | [] => none
      | _ :: wildcard => some ⟨text.takeWhile (· ≠ slash), wildcard⟩

/-- `uuid.Parse` of a text in bytes. -/
def parseId (text : Bytes) : Option UUID :=
  match text.length with
  | 36 => readHyphenated text
  | 45 => if (text.take 9).map lower = bytes "urn:uuid:" then readHyphenated (text.drop 9) else none
  | 38 => readHyphenated (text.drop 1)
  | 32 => readDigits text (List.range 32)
  | _ => none

/-! ## The handler -/

/-- `<cameraID>_sub`. -/
def Params.directory (params : Params) : Bytes := params.cameraId ++ bytes "_sub"

/-- `strings.TrimPrefix(wildcard, "/")`. -/
def Params.file (params : Params) : Bytes :=
  if params.wildcard.head? = some slash then params.wildcard.tail else params.wildcard

def upstreamURL (params : Params) (rawQuery : Bytes) : Bytes :=
  slash :: (params.directory ++ slash :: params.file) ++ if rawQuery ≠ [] then questionMark :: rawQuery else []

/-- `HandleLiveProxy` up to the upstream request. -/
def handleLiveProxy (db : Directory) (claims : Option Claims) (params : Params) (rawQuery : Bytes) :
    Except (Nat × String) Upstream :=
  match claims with
  | none => .error (401, "unauthorized")
  | some claims =>
    match parseId params.cameraId with
    | none => .error (404, "not found")
    | some cameraID =>
      match canAccessCamera db (some claims) cameraID with
      | .error _ => .error (500, "internal error")
      | .ok false => .error (404, "not found")
      | .ok true =>
        match newRequest (upstreamURL params rawQuery) with
        | none => .error (502, "proxy error")
        | some upstream => .ok upstream

/-- A request for `/api/live/<path>?<rawQuery>` is proxied. -/
def Proxied (db : Directory) (claims : Option Claims) (path rawQuery : Bytes) (params : Params) (upstream : Upstream) :
    Prop :=
  route path rawQuery = some params ∧ handleLiveProxy db claims params rawQuery = .ok upstream

instance (db : Directory) (claims : Option Claims) (path rawQuery : Bytes) (params : Params) (upstream : Upstream) :
    Decidable (Proxied db claims path rawQuery params upstream) :=
  inferInstanceAs (Decidable (_ ∧ _))

/-! ## Confinement -/

def kind (segment : Bytes) : Kind :=
  if segment = bytes "." then .here else if segment = bytes ".." then .parent else .name

/-- The segments of a path without its root; a server may take repeated slashes
for one. -/
def segments (merged : Bool) (path : Bytes) : List Bytes :=
  let all := path.splitOn slash
  if merged then all.filter (· ≠ []) else all

/-- Without its dot segments the path lies in the camera's directory, for servers
that merge slashes and for those that do not. -/
def Confined (params : Params) (upstream : Upstream) : Prop :=
  ∀ merged, (resolve kind (segments merged upstream.path.tail)).head? = some params.directory

/-- The part of the upstream path that the request decides: up to the first
question mark or number sign, decoded. -/
def Params.target (params : Params) : Bytes :=
  let text := (params.directory ++ slash :: params.file).takeWhile fun byte => byte ≠ numberSign ∧ byte ≠ questionMark
  (unescape text).getD []

/-- The target enters the camera's directory at the root, with no more names than
parent segments at any end of what comes before, and never has more parent
segments than names after it. -/
def Params.Inside (params : Params) : Prop :=
  ∀ merged, ∃ before after, segments merged params.target = before ++ params.directory :: after ∧
    AtRoot kind before ∧ Stays kind after

/-- Both cuts, at a number sign and then at a question mark. -/
private theorem takeWhile_cuts (text : Bytes) : (text.takeWhile (· ≠ numberSign)).takeWhile (· ≠ questionMark) =
    text.takeWhile fun byte => byte ≠ numberSign ∧ byte ≠ questionMark := by
  rw [List.takeWhile_takeWhile]
  congr 1
  funext byte
  simp [and_comm]

/-- The query ends the path wherever it is put. -/
private theorem takeWhile_query (text rawQuery : Bytes) :
    (text ++ if rawQuery ≠ [] then questionMark :: rawQuery else []).takeWhile
        (fun byte => byte ≠ numberSign ∧ byte ≠ questionMark) =
      text.takeWhile fun byte => byte ≠ numberSign ∧ byte ≠ questionMark := by
  induction text with
  | nil => split <;> rfl
  | cons byte text ih =>
    rw [List.cons_append, List.takeWhile_cons, List.takeWhile_cons, ih]

private theorem unescape_cons {byte : UInt8} (plain : byte ≠ percent) (rest : Bytes) :
    unescape (byte :: rest) = (unescape rest).map (byte :: ·) := by
  cases rest with
  | nil => simp [unescape, plain]
  | cons next rest => cases rest <;> simp [unescape, plain]

/-- The upstream path is the target under the root. -/
theorem path_eq_target {params : Params} {rawQuery : Bytes} {upstream : Upstream}
    (built : newRequest (upstreamURL params rawQuery) = some upstream) : upstream.path = slash :: params.target := by
  have rawPath : (cut questionMark (cut numberSign (upstreamURL params rawQuery)).1).1 =
      slash :: (params.directory ++ slash :: params.file).takeWhile fun byte => byte ≠ numberSign ∧ byte ≠ questionMark := by
    rw [← takeWhile_query _ rawQuery]
    simp only [cut, upstreamURL, takeWhile_cuts, List.cons_append]
    rw [List.takeWhile_cons_of_pos (by decide)]
  unfold newRequest at built
  simp only at built
  rw [rawPath, unescape_cons (by decide)] at built
  split at built
  · cases built
  · cases decoded : unescape ((params.directory ++ slash :: params.file).takeWhile
      fun byte => byte ≠ numberSign ∧ byte ≠ questionMark) with
    | none =>
      rw [decoded] at built
      cases built
    | some path =>
      have target : params.target = path := by simp only [Params.target, decoded, Option.getD_some]
      rw [decoded] at built
      split at built
      · rename_i same _
        cases built
        rw [target]
        exact (Option.some.inj same).symm
      · cases built

/-- A camera's directory is not a dot segment. -/
theorem kind_directory (params : Params) : kind params.directory = .name := by
  have long : 4 ≤ params.directory.length := by
    simp only [Params.directory, List.length_append]
    exact Nat.le_add_left ..
  unfold kind
  rw [if_neg, if_neg]
  · intro same
    rw [same] at long
    exact absurd long (by decide)
  · intro same
    rw [same] at long
    exact absurd long (by decide)

/-- Whatever path and query follow an authorised camera id, the proxied request
stays in the camera's directory exactly if the target is inside. -/
theorem live_view_confined_iff_inside (db : Directory) (claims : Option Claims) (path rawQuery : Bytes) (params : Params)
    (upstream : Upstream) (proxied : Proxied db claims path rawQuery params upstream) :
    Confined params upstream ↔ params.Inside := by
  obtain ⟨_, handled⟩ := proxied
  have built : newRequest (upstreamURL params rawQuery) = some upstream := by
    unfold handleLiveProxy at handled
    split at handled
    · cases handled
    · split at handled
      · cases handled
      · split at handled
        · cases handled
        · cases handled
        · split at handled
          · cases handled
          · rename_i found
            cases handled
            exact found
  unfold Confined Params.Inside
  rw [path_eq_target built, List.tail_cons]
  exact forall_congr' fun merged => head?_resolve (kind_directory params)

private def viewer : Claims where
  userId := "00000000-0000-0000-0000-000000000001"
  username := "vera"
  role := .viewer
  organizationId := ""

/-- Two cameras; the viewer is assigned to the site of the first. -/
private def twoCameras : Directory where
  users := ⟨[⟨⟨1⟩, "vera", .viewer, "", "", "", none, ["AB-123"], 0, 0, none⟩], by simp⟩
  sites := .empty
  cameras := ⟨[⟨⟨10⟩, "Gate", "", "", some "AB-123", "", none⟩, ⟨⟨11⟩, "Vault", "", "", some "CD-456", "", none⟩],
    by decide +kernel⟩

private def gate (wildcard : String) : Params := ⟨bytes "00000000-0000-0000-0000-00000000000a", bytes wildcard⟩

/-- A playlist of the sub-stream, with a query. -/
theorem live_view_playlist : Confined (gate "index.m3u8")
    ⟨bytes "/00000000-0000-0000-0000-00000000000a_sub/index.m3u8", bytes "session=7"⟩ := by
  refine (live_view_confined_iff_inside twoCameras (some viewer)
    (bytes "00000000-0000-0000-0000-00000000000a/index.m3u8") (bytes "session=7") _ _ (by decide +kernel)).mpr ?_
  exact fun merged => ⟨[], [bytes "index.m3u8"], by revert merged; decide +kernel, by decide +kernel, by decide +kernel⟩

/-- One parent segment leads from the gate's directory to the vault's, which the
viewer may not see. -/
theorem live_view_parent_segment :
    Proxied twoCameras (some viewer) (bytes "00000000-0000-0000-0000-00000000000a/../00000000-0000-0000-0000-00000000000b_sub/index.m3u8")
      [] (gate "../00000000-0000-0000-0000-00000000000b_sub/index.m3u8")
      ⟨bytes "/00000000-0000-0000-0000-00000000000a_sub/../00000000-0000-0000-0000-00000000000b_sub/index.m3u8", []⟩ ∧
    canAccessCamera twoCameras (some viewer) ⟨11⟩ = .ok false ∧
    ¬ Confined (gate "../00000000-0000-0000-0000-00000000000b_sub/index.m3u8")
      ⟨bytes "/00000000-0000-0000-0000-00000000000a_sub/../00000000-0000-0000-0000-00000000000b_sub/index.m3u8", []⟩ := by
  refine ⟨by decide +kernel, by decide +kernel, fun confined => ?_⟩
  have plain := confined false
  revert plain
  decide +kernel

end Ironsight.LiveProxy
