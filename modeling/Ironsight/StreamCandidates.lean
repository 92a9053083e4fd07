import Ironsight.EventReads
import Ironsight.NetUrlProofs

/-! The addresses that are probed for a camera's stream. They are made from the one that the camera
reported: its path and some other ones, each on every port that the stream may have. -/
namespace Ironsight.StreamCandidates
open LiveProxy (Bytes bytes slash)
open NetUrl

/-! ## Numbers -/

/-- `strconv.Atoi`. -/
def atoi (text : Bytes) : Option Int := EventReads.atoi (String.ofList (text.map fun c => Char.ofNat c.toNat))

def decimal (n : Nat) : Bytes := (Nat.toDigits 10 n).map fun c => UInt8.ofNat c.toNat

/-- `strconv.Itoa`. -/
def itoa : Int → Bytes
  | .ofNat n => decimal n
  | .negSucc n => 45 :: decimal (n + 1)

/-- `p > 0 && p < 65536`. -/
def isPort (p : Int) : Bool := 0 < p && p < 65536

/-! ## Candidates -/

/-- An element at the end, unless it is there. -/
def insertNew {α : Type} [DecidableEq α] (out : List α) (a : α) : List α := if a ∈ out then out else out ++ [a]

def add (ports : List Int) (p : Int) : List Int := if p ≤ 0 ∨ 65535 < p then ports else insertNew ports p

def candidatePorts (origPort onvifPort : Int) : List Int :=
  let ports := if 7527 ≤ onvifPort ∧ onvifPort < 7527 + 65535 then add [] (onvifPort - 7526) else []
  let ports := add ports origPort
  let ports := if 0 < onvifPort then add ports onvifPort else ports
  add ports 8554

def altPaths (streamKind : String) : List Bytes :=
  (if streamKind = "sub" then ["/channel1/sub", "/channel01/sub", "/sub", "/Streaming/Channels/102", "/h264sub"]
  else ["/channel1/main", "/channel01/main", "/main", "/Streaming/Channels/101", "/h264"]).map bytes

/-- The URL that `emit` prints. -/
def candidate (parsed : URL) (port : Int) (path : Bytes) : URL :=
  { parsed with host := parsed.hostname ++ colon :: itoa port, path := path, rawQuery := [] }

def emit (parsed : URL) (path : Bytes) (out : List Bytes) (port : Int) : List Bytes :=
  insertNew out (candidate parsed port path).string

/-- The second pass. -/
def emitAll (parsed : URL) (ports : List Int) (paths : List Bytes) (out : List Bytes) : List Bytes :=
  paths.foldl (fun out path => if path = parsed.path then out else ports.foldl (emit parsed path) out) out

section
variable (isIPv6 : Bytes → Bool)

def portOf (hostport : Bytes) (fallback : Int) : Int :=
  if colon ∉ hostport then fallback
  else
    let found := match parse isIPv6 (bytes "scheme://" ++ hostport) with
      | some u => if u.port ≠ [] then (atoi u.port).filter isPort else none
      | none => none
    match found with
    | some p => p
    | none =>
      match cutLast colon hostport with
      | none => fallback
      | some (_, port) => ((atoi port).filter isPort).getD fallback

/-- `RTSPCandidateURIs`, in the order in which they are tried. -/
def rtspCandidateURIs (originalURI onvifAddress : Bytes) (streamKind : String) : List Bytes :=
  match parse isIPv6 originalURI with
  | none => []
  | some parsed =>
    if parsed.host = [] then []
    else
      let ports := candidatePorts (portOf isIPv6 parsed.host 554) (portOf isIPv6 onvifAddress 0)
      let out := if parsed.path ≠ [] then ports.foldl (emit parsed parsed.path) [] else []
      emitAll parsed ports (altPaths streamKind) out

end

variable {isIPv6 : Bytes → Bool} {u : URL} {p : Int} {path c : Bytes} {ports : List Int} {out : List Bytes}

/-! ## Numbers are read as they are printed -/

private theorem digit_char {d : Char} (digit : d.isDigit = true) :
    Char.ofNat (UInt8.ofNat d.toNat).toNat = d ∧ isDigit (UInt8.ofNat d.toNat) = true := by
  obtain ⟨least, greatest⟩ : 48 ≤ d.toNat ∧ d.toNat ≤ 57 := Char.isDigit_iff_toNat.mp digit
  have same : (UInt8.ofNat d.toNat).toNat = d.toNat := by
    rw [UInt8.toNat_ofNat', Nat.mod_eq_of_lt (by omega)]
  rw [isDigit, same]
  exact ⟨Char.ofNat_toNat d, by simp [least, greatest]⟩

theorem digits_itoa (positive : 0 < p) : Digits (itoa p) := by
  cases p with
  | negSucc n => exact absurd positive (by omega)
  | ofNat n =>
    intro c held
    obtain ⟨d, own, rfl⟩ := List.mem_map.mp held
    exact (digit_char (Nat.isDigit_of_mem_toDigits (by decide) (by decide) own)).2

theorem atoi_itoa (port : isPort p = true) : atoi (itoa p) = some p := by
  simp only [isPort, Bool.and_eq_true, decide_eq_true_iff] at port
  cases p with
  | negSucc n => exact absurd port.1 (by omega)
  | ofNat n =>
    have chars : (itoa (.ofNat n)).map (fun c => Char.ofNat c.toNat) = Nat.toDigits 10 n := by
      rw [itoa, decimal, List.map_map]
      refine (List.map_congr_left fun d held => ?_).trans (List.map_id _)
      exact (digit_char (Nat.isDigit_of_mem_toDigits (by decide) (by decide) held)).1
    rw [atoi, chars]
    have bound : (n : Int) < 65536 := port.2
    exact EventReads.atoi_toDigits (by omega)

/-- A bracket is no part of a number. -/
private theorem atoi_bracket {s : Bytes} (held : closing ∈ s) : atoi s = none := by
  have bracket : ']' ∈ s.map fun c => Char.ofNat c.toNat := List.mem_map.mpr ⟨closing, held, rfl⟩
  unfold atoi EventReads.atoi
  rw [String.toList_ofList]
  generalize s.map (fun c => Char.ofNat c.toNat) = chars at bracket
  have refused {rest : List Char} (own : ']' ∈ rest) : ¬ (rest ≠ [] ∧ rest.all Char.isDigit = true) :=
    fun both => absurd (List.all_eq_true.mp both.2 _ own) (by decide)
  dsimp only
  split
  · exact if_neg (refused ((List.mem_cons.mp bracket).resolve_left (by decide)))
  · exact if_neg (refused ((List.mem_cons.mp bracket).resolve_left (by decide)))
  · exact if_neg (refused bracket)

/-! ## The port of the reported address -/

/-- The port that a URL names, or else that of RTSP. -/
def ownPort (u : URL) : Int := ((atoi u.port).filter isPort).getD 554

private theorem host_plain {host : Bytes} (bytes : ∀ c ∈ host, isHostByte c = true) :
    slash ∉ host ∧ atSign ∉ host ∧ LiveProxy.questionMark ∉ host ∧ LiveProxy.numberSign ∉ host := by
  refine ⟨fun held => ?_, fun held => ?_, fun held => ?_, fun held => ?_⟩
  all_goals exact absurd (bytes _ held) (by decide)

/-- A host behind a scheme is read as a host. -/
private theorem parse_scheme {host : Bytes} (plain : ∀ c ∈ host, isHostByte c = true) {v : URL}
    (read : parse isIPv6 (bytes "scheme://" ++ host) = some v) : parseHost isIPv6 host = some v.host := by
  obtain ⟨noSlash, noAt, noQuery, noFragment⟩ := host_plain plain
  have front : bytes "scheme://" = bytes "scheme" ++ [colon, slash, slash] := by decide
  have marks : LiveProxy.numberSign ∉ bytes "scheme://" := by decide
  have noFragment' : LiveProxy.numberSign ∉ bytes "scheme://" ++ host := by simp [marks, noFragment]
  rw [parse, cut_none noFragment'] at read
  obtain ⟨url, target, read⟩ := Option.bind_eq_some_iff.mp read
  obtain rfl := Option.some.inj read
  have form : Scheme (bytes "scheme") := ⟨by decide, by decide +kernel, by decide +kernel⟩
  have scheme : getScheme (bytes "scheme://" ++ host) = some (bytes "scheme", slash :: slash :: host) := by
    rw [front, List.append_assoc]
    exact getScheme_text form (slash :: host)
  have noQuery' : LiveProxy.questionMark ∉ slash :: slash :: host := by
    simp only [List.mem_cons, not_or]
    exact ⟨by decide, by decide, noQuery⟩
  have query := cutQuery_text noQuery' false
  rw [if_neg Bool.false_ne_true, List.append_nil] at query
  have inside : ∀ c ∈ host, decide (c ≠ slash) = true := fun c held => decide_eq_true fun same => noSlash (same ▸ held)
  unfold parseTarget at target
  split at target
  · cases target
  · split at target
    · next same =>
      have held : LiveProxy.slash ∈ bytes "scheme://" ++ host := List.mem_append_left _ (by decide)
      rw [same] at held
      exact absurd held (by decide)
    · rw [scheme] at target
      dsimp only [Option.bind_eq_bind, Option.bind_some] at target
      rw [query] at target
      dsimp only at target
      rw [if_neg (by simp), parseRest, if_pos ⟨.inl (by decide), rfl⟩] at target
      dsimp only [List.drop] at target
      rw [List.takeWhile_eq_self_iff.mpr inside, List.dropWhile_eq_nil_iff.mpr inside, parseAuthority, cutLast_none noAt] at target
      dsimp only at target
      obtain ⟨⟨user, own⟩, authority, target⟩ := Option.bind_eq_some_iff.mp target
      obtain ⟨found, hostRead, same⟩ := Option.map_eq_some_iff.mp authority
      obtain ⟨_, rfl⟩ := Prod.mk.inj same
      obtain ⟨_, _, rfl⟩ := Option.map_eq_some_iff.mp target
      exact hostRead

/-- What stands behind the last colon of a host is a number only where it is the port. -/
private theorem atoi_last {host front port : Bytes} (known : Host host) (whole : host = front ++ colon :: port) (absent : colon ∉ port) :
    atoi port = atoi (splitHostPort host).2 := by
  rcases known.port with ⟨literal, text, valid, bracket⟩ | last
  · have own : (splitHostPort host).2 = text.tail := bracket ▸ port_bracket valid literal
    rw [own]
    rcases validOptionalPort_cases valid with rfl | ⟨digits, all, rfl⟩
    · have ends : closing ∈ port := by
        have last := congrArg List.getLast? (bracket.symm.trans whole)
        rw [List.getLast?_concat, List.getLast?_append_of_ne_nil _ (List.cons_ne_nil _ _)] at last
        exact (List.mem_cons.mp (List.mem_of_getLast? last.symm)).resolve_left (by decide)
      rw [atoi_bracket ends]
      rfl
    · rw [bracket, List.append_cons] at whole
      exact congrArg atoi (cutLast_unique absent (colon_notMem all) whole.symm).2
  · have all := last front port whole absent
    rw [whole, port_digits all]

/-- The port of a host that was read, found in its text. -/
theorem portOf_host (hosted : Hosted isIPv6 u) : portOf isIPv6 u.host 554 = ownPort u := by
  obtain ⟨text, read⟩ := hosted.host
  have known := (parseHost_port read).1
  unfold portOf
  rcases cutLast_cases colon u.host with ⟨absent, _⟩ | ⟨front, port, whole, absent, cut_⟩
  · have none_ : u.port = [] := port_none absent
    rw [if_pos absent, ownPort, none_]
    rfl
  · have held : colon ∈ u.host := whole ▸ List.mem_append_right _ List.mem_cons_self
    have last : atoi port = atoi u.port := atoi_last known whole absent
    rw [if_neg (not_not.mpr held), cut_]
    dsimp only
    rw [last]
    cases found : parse isIPv6 (bytes "scheme://" ++ u.host) with
    | none => rfl
    | some v =>
      have same : v.port = u.port := (parseHost_port (parse_scheme known.bytes found)).2
      dsimp only
      rw [same]
      split
      · next p own =>
        split at own
        · rw [ownPort, own]
          rfl
        · cases own
      · rfl

/-! ## The two passes -/

section
variable {α β : Type} [DecidableEq α] {list : List α} {a : α}

theorem mem_insertNew {b : α} : b ∈ insertNew list a ↔ b ∈ list ∨ b = a := by
  unfold insertNew
  split
  · next held =>
    refine ⟨.inl, fun either => either.elim id fun same => ?_⟩
    exact same ▸ held
  · simp

theorem nodup_insertNew (nodup : list.Nodup) : (insertNew list a).Nodup := by
  unfold insertNew
  split
  · exact nodup
  · next absent => exact List.nodup_append.mpr ⟨nodup, List.nodup_singleton a, by simpa using fun b held => ne_of_mem_of_not_mem held absent⟩

end

theorem mem_add {q : Int} : q ∈ add ports p ↔ q ∈ ports ∨ q = p ∧ isPort p = true := by
  unfold add isPort
  split
  · next outside =>
    refine ⟨.inl, fun either => either.elim id fun both => ?_⟩
    simp only [Bool.and_eq_true, decide_eq_true_iff] at both
    omega
  · next inside =>
    have port : (decide (0 < p) && decide (p < 65536)) = true := by
      simp only [Bool.and_eq_true, decide_eq_true_iff]
      omega
    rw [mem_insertNew, port]
    simp

/-- Every port is one, and the reported one is among them. -/
theorem mem_candidatePorts (origPort onvifPort : Int) :
    (∀ p ∈ candidatePorts origPort onvifPort, isPort p = true) ∧
      (isPort origPort = true → origPort ∈ candidatePorts origPort onvifPort) := by
  have step {ports : List Int} (p : Int) (known : ∀ q ∈ ports, isPort q = true) : ∀ q ∈ add ports p, isPort q = true := by
    intro q held
    rcases mem_add.mp held with own | ⟨rfl, port⟩
    · exact known q own
    · exact port
  have first : ∀ q ∈ if 7527 ≤ onvifPort ∧ onvifPort < 7527 + 65535 then add [] (onvifPort - 7526) else [], isPort q = true := by
    split
    · exact step _ nofun
    · exact nofun
  unfold candidatePorts
  refine ⟨step _ ?_, fun port => mem_add.mpr (.inl ?_)⟩
  · split
    · exact step _ (step _ first)
    · exact step _ first
  · have own (ports : List Int) : origPort ∈ add ports origPort := mem_add.mpr (.inr ⟨rfl, port⟩)
    split
    · exact mem_add.mpr (.inl (own _))
    · exact own _

theorem mem_emit (parsed : URL) (path : Bytes) (ports : List Int) (out : List Bytes) :
    c ∈ ports.foldl (emit parsed path) out ↔ c ∈ out ∨ ∃ p ∈ ports, c = (candidate parsed p path).string := by
  induction ports generalizing out with
  | nil => simp
  | cons p ports ih => simp only [List.foldl_cons, ih, emit, mem_insertNew, or_assoc, List.mem_cons, exists_eq_or_imp]

theorem nodup_emit (parsed : URL) (path : Bytes) (ports : List Int) (nodup : out.Nodup) :
    (ports.foldl (emit parsed path) out).Nodup := by
  induction ports generalizing out with
  | nil => exact nodup
  | cons p ports ih => exact ih (nodup_insertNew nodup)

theorem mem_emitAll {parsed : URL} (paths : List Bytes) (held : c ∈ emitAll parsed ports paths out) :
    c ∈ out ∨ ∃ p ∈ ports, ∃ path ∈ paths, c = (candidate parsed p path).string := by
  induction paths generalizing out with
  | nil => exact .inl held
  | cons path paths ih =>
    rw [emitAll, List.foldl_cons] at held
    rcases ih held with own | ⟨p, port, path', listed, text⟩
    · split at own
      · exact .inl own
      · rcases (mem_emit parsed path ports out).mp own with before | ⟨p, port, text⟩
        · exact .inl before
        · exact .inr ⟨p, port, path, List.mem_cons_self, text⟩
    · exact .inr ⟨p, port, path', List.mem_cons_of_mem _ listed, text⟩

theorem emitAll_of_mem {parsed : URL} (paths : List Bytes) (held : c ∈ out) : c ∈ emitAll parsed ports paths out := by
  induction paths generalizing out with
  | nil => exact held
  | cons path paths ih =>
    refine ih ?_
    dsimp only
    split
    · exact held
    · exact (mem_emit parsed path ports out).mpr (.inl held)

theorem nodup_emitAll {parsed : URL} (paths : List Bytes) (nodup : out.Nodup) :
    (emitAll parsed ports paths out).Nodup := by
  induction paths generalizing out with
  | nil => exact nodup
  | cons path paths ih =>
    refine ih ?_
    dsimp only
    split
    · exact nodup
    · exact nodup_emit parsed path ports nodup

/-! ## What the candidates are -/

/-- The same camera: scheme, user and host as reported, and a port. -/
structure SameCamera (u v : URL) : Prop where
  scheme : v.scheme = u.scheme
  user : v.user = u.user
  hostname : v.hostname = u.hostname
  port : ∃ p, atoi v.port = some p ∧ 1 ≤ p ∧ p ≤ 65535

theorem head_altPaths (streamKind : String) : ∀ path ∈ altPaths streamKind, path.head? = some slash := by
  unfold altPaths
  split <;> decide

/-- A candidate is read as a URL of the same camera, without a query. -/
theorem candidate_read (hosted : Hosted isIPv6 u) (noBracket : opening ∉ u.hostname) (noBlank : blank ∉ u.hostname)
    (port : isPort p = true) (head : path.head? = some slash) :
    ∃ v, parse isIPv6 (candidate u p path).string = some v ∧ SameCamera u v ∧ v.path = path ∧ v.rawQuery = [] ∧ atoi v.port = some p := by
  obtain ⟨text, read⟩ := hosted.host
  have bounds : 0 < p ∧ p < 65536 := by simpa [isPort] using port
  have all := digits_itoa bounds.1
  have bytes : ∀ c ∈ u.hostname, isHostByte c = true ∧ c ≠ blank := fun c held =>
    ⟨(parseHost_port read).1.bytes c (mem_hostname held), fun same => noBlank (same ▸ held)⟩
  have printable : Printable isIPv6 (candidate u p path) :=
    { scheme := hosted.scheme
      rootless := hosted.rootless
      user := hosted.user
      given := by simp [candidate]
      host := parseHost_escape all noBracket bytes
      path := head
      rawPath := hosted.rawPath
      query := rfl }
  obtain ⟨v, parsed, scheme, user, host, path_, query⟩ := parse_string printable
  have ends : splitHostPort v.host = (u.hostname, itoa p) := by
    rw [host]
    exact splitHostPort_digits all noBracket
  have own : atoi v.port = some p := by
    rw [URL.port, ends]
    exact atoi_itoa port
  exact ⟨v, parsed, ⟨scheme, user, by rw [URL.hostname, ends], p, own, by omega, by omega⟩, path_, query, own⟩

private theorem rtspCandidateURIs_eq {originalURI : Bytes} (read : parse isIPv6 originalURI = some u) (given : u.host ≠ [])
    (onvifAddress : Bytes) (streamKind : String) : rtspCandidateURIs isIPv6 originalURI onvifAddress streamKind =
      emitAll u (candidatePorts (ownPort u) (portOf isIPv6 onvifAddress 0)) (altPaths streamKind)
        (if u.path ≠ [] then (candidatePorts (ownPort u) (portOf isIPv6 onvifAddress 0)).foldl (emit u u.path) [] else []) := by
  rw [rtspCandidateURIs, read]
  dsimp only
  rw [if_neg given, portOf_host (parse_hosted read given)]

/-- Every candidate is the reported URL with another port and a path. -/
theorem mem_rtspCandidateURIs {originalURI onvifAddress : Bytes} {streamKind : String} (read : parse isIPv6 originalURI = some u)
    (given : u.host ≠ []) (held : c ∈ rtspCandidateURIs isIPv6 originalURI onvifAddress streamKind) :
    ∃ p path, isPort p = true ∧ path.head? = some slash ∧ c = (candidate u p path).string := by
  have hosted := parse_hosted read given
  obtain ⟨ports, _⟩ := mem_candidatePorts (ownPort u) (portOf isIPv6 onvifAddress 0)
  rw [rtspCandidateURIs_eq read given] at held
  rcases mem_emitAll _ held with first | ⟨p, port, path, listed, text⟩
  · split at first
    · next path =>
      obtain ⟨p, port, text⟩ := ((mem_emit u u.path _ []).mp first).resolve_left List.not_mem_nil
      exact ⟨p, u.path, ports p port, hosted.path.resolve_left path, text⟩
    · cases first
  · exact ⟨p, path, ports p port, head_altPaths streamKind path listed, text⟩

private theorem isPort_ownPort (u : URL) : isPort (ownPort u) = true := by
  unfold ownPort
  cases found : (atoi u.port).filter isPort with
  | none => decide
  | some p => exact (Option.filter_eq_some_iff.mp found).2

/-- The reported path on its own port is among the candidates. -/
theorem candidate_mem {originalURI : Bytes} (read : parse isIPv6 originalURI = some u) (given : u.host ≠ []) (path : u.path ≠ [])
    (onvifAddress : Bytes) (streamKind : String) :
    (candidate u (ownPort u) u.path).string ∈ rtspCandidateURIs isIPv6 originalURI onvifAddress streamKind := by
  have own := (mem_candidatePorts (ownPort u) (portOf isIPv6 onvifAddress 0)).2 (isPort_ownPort u)
  rw [rtspCandidateURIs_eq read given, if_pos path]
  exact emitAll_of_mem _ ((mem_emit u u.path _ []).mpr (.inr ⟨_, own, rfl⟩))

/-- The candidates differ, each one is of the camera and without a query, and the reported path on
its own port is among them. -/
theorem rtspCandidateURIs_same_camera (isIPv6 : Bytes → Bool) (originalURI onvifAddress : Bytes) (streamKind : String) (u : URL)
    (read : parse isIPv6 originalURI = some u) (given : u.host ≠ []) :
    (rtspCandidateURIs isIPv6 originalURI onvifAddress streamKind).Nodup ∧
    (opening ∉ u.hostname → blank ∉ u.hostname →
      (∀ c ∈ rtspCandidateURIs isIPv6 originalURI onvifAddress streamKind, ∃ v, parse isIPv6 c = some v ∧ SameCamera u v ∧ v.rawQuery = []) ∧
      (u.path ≠ [] → ∃ c ∈ rtspCandidateURIs isIPv6 originalURI onvifAddress streamKind, ∃ v, parse isIPv6 c = some v ∧
        v.path = u.path ∧ atoi v.port = some (ownPort u))) := by
  have hosted := parse_hosted read given
  refine ⟨?_, fun noBracket noBlank => ⟨fun c held => ?_, fun path => ?_⟩⟩
  · rw [rtspCandidateURIs_eq read given]
    refine nodup_emitAll _ ?_
    split
    · exact nodup_emit u u.path _ List.nodup_nil
    · exact List.nodup_nil
  · obtain ⟨p, path, port, head, rfl⟩ := mem_rtspCandidateURIs read given held
    obtain ⟨v, parsed, same, _, query, _⟩ := candidate_read hosted noBracket noBlank port head
    exact ⟨v, parsed, same, query⟩
  · obtain ⟨v, parsed, _, path_, _, number⟩ :=
      candidate_read hosted noBracket noBlank (isPort_ownPort u) (hosted.path.resolve_left path)
    exact ⟨_, candidate_mem read given path onvifAddress streamKind, v, parsed, path_, number⟩

/-- The user comes from the URL, the ports from both addresses. -/
theorem ipv6_candidates :
    let isIPv6 := fun text => decide (text = bytes "2001:db8::5")
    let candidates := rtspCandidateURIs isIPv6 (bytes "rtsp://admin:p%40w@[2001:db8::5]:8554/live") (bytes "[2001:db8::5]:8082") "main"
    candidates.Nodup ∧ (∀ c ∈ candidates, ∃ v, parse isIPv6 c = some v ∧ v.hostname = bytes "2001:db8::5") ∧
      ∃ c ∈ candidates, ∃ v, parse isIPv6 c = some v ∧ v.path = bytes "/live" ∧ atoi v.port = some 8554 := by
  have found := rtspCandidateURIs_same_camera (fun text => decide (text = bytes "2001:db8::5"))
    (bytes "rtsp://admin:p%40w@[2001:db8::5]:8554/live") (bytes "[2001:db8::5]:8082") "main"
    { scheme := bytes "rtsp", user := some ⟨bytes "admin", bytes "p@w", true⟩, host := bytes "[2001:db8::5]:8554", path := bytes "/live" }
    (by decide +kernel) (by decide)
  obtain ⟨nodup, named⟩ := found
  obtain ⟨all, reported⟩ := named (by decide +kernel) (by decide +kernel)
  refine ⟨nodup, fun c held => ?_, ?_⟩
  · obtain ⟨v, parsed, same, _⟩ := all c held
    refine ⟨v, parsed, same.hostname.trans ?_⟩
    decide +kernel
  · obtain ⟨c, held, v, parsed, path, number⟩ := reported (by decide)
    refine ⟨c, held, v, parsed, path, number.trans ?_⟩
    decide +kernel

/-! ## What is not kept -/

/-- The reported stream: its path and its query on its own port. -/
def IsReported (u v : URL) : Prop :=
  v.path = u.path ∧ v.rawQuery = u.rawQuery ∧ atoi v.port = if u.port = [] then some 554 else atoi u.port

/-- The candidates differ, each one is of the camera, and the reported stream is among them. -/
def Complete (isIPv6 : Bytes → Bool) (originalURI onvifAddress : Bytes) (streamKind : String) : Prop :=
  ∀ u, parse isIPv6 originalURI = some u → u.host ≠ [] →
    (rtspCandidateURIs isIPv6 originalURI onvifAddress streamKind).Nodup ∧
    (∀ c ∈ rtspCandidateURIs isIPv6 originalURI onvifAddress streamKind, ∃ v, parse isIPv6 c = some v ∧ SameCamera u v) ∧
    ∃ c ∈ rtspCandidateURIs isIPv6 originalURI onvifAddress streamKind, ∃ v, parse isIPv6 c = some v ∧ IsReported u v

/-- A query, a missing path and a port that is none are not kept. -/
theorem not_complete {originalURI : Bytes} (read : parse isIPv6 originalURI = some u) (given : u.host ≠ [])
    (noBracket : opening ∉ u.hostname) (noBlank : blank ∉ u.hostname)
    (lost : u.rawQuery ≠ [] ∨ u.path = [] ∨ u.port ≠ [] ∧ (atoi u.port).filter isPort = none) (onvifAddress : Bytes) (streamKind : String) :
    ¬ Complete isIPv6 originalURI onvifAddress streamKind := by
  intro complete
  obtain ⟨_, _, c, held, v, parsed, path, query, number⟩ := complete u read given
  obtain ⟨p, path', port, head, rfl⟩ := mem_rtspCandidateURIs read given held
  obtain ⟨v', parsed', _, path'', query', number'⟩ := candidate_read (parse_hosted read given) noBracket noBlank port head
  obtain rfl := Option.some.inj (parsed.symm.trans parsed')
  rcases lost with some_ | none_ | ⟨port_, outside⟩
  · exact some_ (query.symm.trans query')
  · rw [← path'', path, none_] at head
    cases head
  · rw [if_neg port_, number'] at number
    rw [← number, Option.filter_some, port] at outside
    cases outside

/-- A query, a missing path, the port 0, and a zone with a blank. -/
theorem reported_stream_lost :
    (¬ Complete (fun _ => false) (bytes "rtsp://10.0.0.7:554/cam/realmonitor?channel=1") (bytes "10.0.0.7:8080") "main" ∧
      ¬ Complete (fun _ => false) (bytes "rtsp://10.0.0.7:554") (bytes "10.0.0.7:8080") "main" ∧
      ¬ Complete (fun _ => false) (bytes "rtsp://10.0.0.7:0/live") (bytes "10.0.0.7:8080") "main") ∧
    ¬ Complete (fun text => text = bytes "fe80::1%a b") (bytes "rtsp://[fe80::1%25a%20b]/live") (bytes "10.0.0.7:8080") "main" := by
  refine ⟨⟨?_, ?_, ?_⟩, ?_⟩
  · let u : URL := { scheme := bytes "rtsp", host := bytes "10.0.0.7:554", path := bytes "/cam/realmonitor", rawQuery := bytes "channel=1" }
    have read : parse (fun _ => false) (bytes "rtsp://10.0.0.7:554/cam/realmonitor?channel=1") = some u := by decide +kernel
    exact not_complete read (by decide) (by decide +kernel) (by decide +kernel) (.inl (by decide)) _ _
  · let u : URL := { scheme := bytes "rtsp", host := bytes "10.0.0.7:554" }
    have read : parse (fun _ => false) (bytes "rtsp://10.0.0.7:554") = some u := by decide +kernel
    exact not_complete read (by decide) (by decide +kernel) (by decide +kernel) (.inr (.inl rfl)) _ _
  · let u : URL := { scheme := bytes "rtsp", host := bytes "10.0.0.7:0", path := bytes "/live" }
    have read : parse (fun _ => false) (bytes "rtsp://10.0.0.7:0/live") = some u := by decide +kernel
    exact not_complete read (by decide) (by decide +kernel) (by decide +kernel) (.inr (.inr (by decide +kernel))) _ _
  · intro complete
    let u : URL := { scheme := bytes "rtsp", host := bytes "[fe80::1%a b]", path := bytes "/live" }
    have read : parse (fun text => text = bytes "fe80::1%a b") (bytes "rtsp://[fe80::1%25a%20b]/live") = some u := by decide +kernel
    obtain ⟨_, all, _⟩ := complete u read (by decide)
    obtain ⟨v, parsed, _⟩ := all _ (candidate_mem read (by decide) (by decide) _ _)
    have refused : parse (fun text => text = bytes "fe80::1%a b") (candidate u (ownPort u) u.path).string = none := by decide +kernel
    exact nomatch refused.symm.trans parsed

end Ironsight.StreamCandidates
