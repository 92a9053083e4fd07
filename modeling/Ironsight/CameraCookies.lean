import Ironsight.FormBody
import Ironsight.LineScanner
import Ironsight.LiveProxy

/-! The cookies of a camera behind the proxy for its web page. The proxy rewrites every
`Set-Cookie` so that the cookie stays with the page of that camera; what it made of it is read
here as a browser reads it. -/
namespace Ironsight.CameraCookies
open LineScanner (spaces strip trimLeft trimRight trimSpace strip_parts)
open LiveProxy (Bytes bytes slash)
open Uuid (UUID)

def semicolon : UInt8 := 59
def equals : UInt8 := 61

/-- `strings.ToLower`, as far as a word of ASCII letters can tell: beside the capital letters,
`U+0130` and `U+212A` have a small letter in ASCII. -/
def lower : Bytes → Bytes
  | [] => []
  | 0xC4 :: 0xB0 :: rest => 105 :: lower rest
  | 0xE2 :: 0x84 :: 0xAA :: rest => 107 :: lower rest
  | byte :: rest => Uuid.lower byte :: lower rest

/-! ## The proxy -/

/-- `"/api/cameras/"+cameraID+"/web-ui"`. -/
def webUI (cameraID : UUID) : Bytes := bytes "/api/cameras/" ++ bytes cameraID.text ++ bytes "/web-ui"

def cookiePath (cameraID : UUID) : Bytes := webUI cameraID ++ [slash]

def pathPart (cameraID : UUID) : Bytes := bytes " Path=" ++ cookiePath cameraID

/-- The parts that `rewriteSetCookie` leaves out. -/
def isDropped (part : Bytes) : Bool :=
  let lowered := lower (trimSpace part)
  (bytes "domain=").isPrefixOf lowered || lowered = bytes "secure" || (bytes "samesite=").isPrefixOf lowered

/-- The parts that it replaces. -/
def isPath (part : Bytes) : Bool := (bytes "path=").isPrefixOf (lower (trimSpace part))

/-- The loop over the parts: what is kept, and `pathScoped`. -/
def scope (cameraID : UUID) : List Bytes → List Bytes × Bool
  | [] => ([], false)
  | part :: parts =>
    let (keep, pathScoped) := scope cameraID parts
    if isDropped part then (keep, pathScoped)
    else if isPath part then (pathPart cameraID :: keep, true)
    else (part :: keep, pathScoped)

/-- `rewriteSetCookie`: the parts that are kept, then what confines the cookie to its camera. -/
def rewriteSetCookie (c : Bytes) (cameraID : UUID) (secure : Bool) : Bytes :=
  let (keep, pathScoped) := scope cameraID (c.splitOn semicolon)
  let keep := if pathScoped then keep else keep ++ [pathPart cameraID]
  let keep := keep ++ [bytes " SameSite=Strict"]
  let keep := if secure then keep ++ [bytes " Secure"] else keep
  List.intercalate [semicolon] keep

/-- The headers that `copyHeadersForProxy` leaves out. -/
def stripped : List Bytes :=
  ["x-frame-options", "content-security-policy", "content-security-policy-report-only", "strict-transport-security",
    "content-length", "location"].map bytes

/-- The headers that `copyHeadersForProxy` adds to an answer. -/
def copyHeadersForProxy (src : List (Bytes × List Bytes)) (cameraID : UUID) (secure : Bool) : List (Bytes × Bytes) :=
  src.flatMap fun header =>
    if lower header.1 ∈ stripped then []
    else if lower header.1 = bytes "set-cookie" then
      header.2.map fun v => (bytes "Set-Cookie", rewriteSetCookie v cameraID secure)
    else header.2.map fun v => (header.1, v)

/-! ## The browser -/

def isBlank (byte : UInt8) : Bool := byte = 32 || byte = 9

def trimBlanks (text : Bytes) : Bytes := ((text.dropWhile isBlank).reverse.dropWhile isBlank).reverse

def before (part : Bytes) : Bytes := part.takeWhile (· ≠ equals)

/-- The name and the value of an attribute, which may have no `=`. -/
def cookieAv (part : Bytes) : Bytes × Bytes := (trimBlanks (before part), trimBlanks ((part.dropWhile (· ≠ equals)).drop 1))

def names (word : String) (part : Bytes) : Bool := (cookieAv part).1.map Uuid.lower = bytes word

structure Cookie where
  name : Bytes
  value : Bytes
  /-- `none` stands for the path of the request. -/
  path : Option Bytes
  domain : Option Bytes
  sameSite : Option Bytes
  secure : Bool
  deriving DecidableEq

/-- The name and the value of the cookie; without `=` or without a name there is none. -/
def pairOf (part : Bytes) : Option (Bytes × Bytes) :=
  if equals ∈ part ∧ (cookieAv part).1 ≠ [] then some (cookieAv part) else none

/-- The value of the last attribute of a name. -/
def lastValue (word : String) (parts : List Bytes) : Option Bytes :=
  (parts.filter (names word)).getLast?.map fun part => (cookieAv part).2

/-- A path that does not start with a slash gives way to that of the request. -/
def pathOf (parts : List Bytes) : Option Bytes := (lastValue "path" parts).filter fun value => value.head? = some slash

/-- An attribute with an empty value is ignored; a dot in front goes. -/
def domainOf (parts : List Bytes) : Option Bytes :=
  ((lastValue "domain" (parts.filter fun part => (cookieAv part).2 ≠ [])).map fun value =>
    if value.head? = some 46 then value.tail else value).filter (· ≠ [])

def readParts : List Bytes → Option Cookie
  | [] => none
  | first :: later => (pairOf first).map fun pair =>
      ⟨pair.1, pair.2, pathOf later, domainOf later, lastValue "samesite" later, later.any (names "secure")⟩

/-- The algorithm of RFC 6265, with the attribute `SameSite` beside the others. -/
def readSetCookie (c : Bytes) : Option Cookie := readParts (c.splitOn semicolon)

/-- What became of a cookie is confined to the page of the camera. -/
def Confined (cameraID : UUID) (secure : Bool) (original rewritten : Option Cookie) : Prop :=
  match original with
  | none => rewritten = none
  | some cookie => ∃ out, rewritten = some out ∧ out.name = cookie.name ∧ out.value = cookie.value ∧
      out.path = some (cookiePath cameraID) ∧ out.domain = none ∧ out.sameSite = some (bytes "Strict") ∧
      (secure = true → out.secure = true)

/-! ## Which attributes the proxy recognises -/

private theorem space_bytes : ∀ byte ∈ spaces.flatten, byte.toNat < 61 ∨ 122 < byte.toNat := by decide +kernel

private theorem blank_space {byte : UInt8} (blank : isBlank byte = true) : byte = 32 ∨ byte = 9 := by
  simpa [isBlank] using blank

private theorem strip_blanks {blanks text : Bytes} (blank : ∀ byte ∈ blanks, isBlank byte = true) (fuel : Nat) :
    strip spaces (blanks.length + fuel) (blanks ++ text) = strip spaces fuel text := by
  induction blanks with
  | nil => rw [List.length_nil, Nat.zero_add, List.nil_append]
  | cons byte blanks ih =>
    have later := ih fun other held => blank other (List.mem_cons_of_mem _ held)
    have found : spaces.find? (fun word => word.isPrefixOf (byte :: (blanks ++ text))) = some [byte] := by
      rcases blank_space (blank byte List.mem_cons_self) with rfl | rfl <;> rfl
    rw [List.length_cons, Nat.add_right_comm, List.cons_append, strip, found]
    exact later

private theorem strip_solid {byte : UInt8} {text : Bytes} (solid : byte ∉ spaces.flatten) (fuel : Nat) :
    strip spaces fuel (byte :: text) = byte :: text := by
  cases fuel with
  | zero => rfl
  | succ fuel =>
    have none_ : spaces.find? (fun word => word.isPrefixOf (byte :: text)) = none := by
      refine List.find?_eq_none.mpr fun word held begins => ?_
      obtain ⟨rest, whole⟩ := List.isPrefixOf_iff_prefix.mp begins
      cases word with
      | nil => exact absurd held (by decide)
      | cons first word =>
        obtain rfl := (List.cons.inj whole).1
        exact solid (List.mem_flatten_of_mem held List.mem_cons_self)
    rw [strip, none_]

/-- What `strings.TrimSpace` leaves of a word with blanks before it: the word, and what follows
it up to blanks at its end. -/
private theorem trimSpace_word {blanks word : Bytes} (blank : ∀ byte ∈ blanks, isBlank byte = true) (given : word ≠ [])
    (solid : ∀ byte ∈ word, byte ∉ spaces.flatten) (rest : Bytes) :
    ∃ tail trail, trimSpace (blanks ++ (word ++ rest)) = word ++ tail ∧ rest = tail ++ trail ∧
      ∀ byte ∈ trail, byte ∈ spaces.flatten := by
  have left : trimLeft (blanks ++ (word ++ rest)) = word ++ rest := by
    obtain ⟨first, others, rfl⟩ := List.exists_cons_of_ne_nil given
    rw [trimLeft, List.length_append, strip_blanks blank]
    exact strip_solid (solid first List.mem_cons_self) _
  obtain ⟨gone, parts, made⟩ := strip_parts (spaces.map List.reverse) (word ++ rest).length (word ++ rest).reverse
  have spaced (byte : UInt8) (held : byte ∈ gone) : byte ∈ spaces.flatten := by
    obtain ⟨_, member, inside⟩ := List.mem_flatten.mp (made byte held)
    obtain ⟨original, listed, rfl⟩ := List.mem_map.mp member
    exact List.mem_flatten_of_mem listed (List.mem_reverse.mp inside)
  have trimmed : trimSpace (blanks ++ (word ++ rest)) =
      (strip (spaces.map List.reverse) (word ++ rest).length (word ++ rest).reverse).reverse := by rw [trimSpace, left, trimRight]
  generalize strip (spaces.map List.reverse) (word ++ rest).length (word ++ rest).reverse = kept at parts trimmed
  rw [List.reverse_append] at parts
  rcases List.append_eq_append_iff.mp parts with ⟨cut, whole, kept_⟩ | ⟨cut, whole, kept_⟩
  · -- nothing of the word is gone, because no byte of it is one of a blank
    cases cut with
    | nil =>
      refine ⟨[], rest, ?_, rfl, fun byte held => spaced byte ?_⟩
      · rw [trimmed, List.append_nil]
        exact List.reverse_eq_iff.mpr kept_.symm
      · rw [whole, List.append_nil]
        exact List.mem_reverse.mpr held
    | cons byte cut =>
      have inWord : byte ∈ word.reverse := kept_ ▸ List.mem_cons_self
      have inGone : byte ∈ gone := whole ▸ List.mem_append_right _ List.mem_cons_self
      exact absurd (spaced byte inGone) (solid byte (List.mem_reverse.mp inWord))
  · refine ⟨cut.reverse, gone.reverse, ?_, ?_, fun byte held => spaced byte (List.mem_reverse.mp held)⟩
    · rw [trimmed, kept_, List.reverse_append, List.reverse_reverse]
    · rw [← List.reverse_append, ← whole, List.reverse_reverse]

private theorem lower_ascii {byte : UInt8} (ascii : byte.toNat < 128) (rest : Bytes) :
    lower (byte :: rest) = Uuid.lower byte :: lower rest := by
  refine lower.eq_4 byte rest ?_ ?_
  · rintro _ rfl _
    exact absurd ascii (by decide)
  · rintro _ rfl _
    exact absurd ascii (by decide)

private theorem lower_append {word : Bytes} (ascii : ∀ byte ∈ word, byte.toNat < 128) (rest : Bytes) :
    lower (word ++ rest) = word.map Uuid.lower ++ lower rest := by
  induction word with
  | nil => rfl
  | cons byte word ih =>
    rw [List.cons_append, lower_ascii (ascii byte List.mem_cons_self), ih fun other held => ascii other (List.mem_cons_of_mem _ held)]
    rfl

/-- An `=` at the front stays there, and no other text gets one. -/
private theorem head_lower (rest : Bytes) : (lower rest).head? = some equals ↔ rest.head? = some equals := by
  fun_cases lower rest with
  | case1 => simp
  | case2 | case3 => simp [equals]
  | case4 byte rest =>
    rw [List.head?_cons, List.head?_cons, Option.some_inj, Option.some_inj, Uuid.lower]
    split
    · next capital =>
      constructor
      · intro same
        have sum := congrArg UInt8.toNat same
        rw [UInt8.toNat_add, equals] at sum
        have : (61 : UInt8).toNat = 61 := rfl
        have : (32 : UInt8).toNat = 32 := rfl
        omega
      · rintro rfl
        exact absurd capital (by decide)
    · exact Iff.rfl

private theorem trimBlanks_parts (text : Bytes) : ∃ lead trail, text = lead ++ (trimBlanks text ++ trail) ∧
    (∀ byte ∈ lead, isBlank byte = true) ∧ ∀ byte ∈ trail, isBlank byte = true := by
  refine ⟨text.takeWhile isBlank, ((text.dropWhile isBlank).reverse.takeWhile isBlank).reverse, ?_,
    fun byte held => List.mem_takeWhile_imp held, fun byte held => List.mem_takeWhile_imp (List.mem_reverse.mp held)⟩
  rw [trimBlanks, ← List.reverse_append, List.takeWhile_append_dropWhile, List.reverse_reverse, List.takeWhile_append_dropWhile]

private theorem before_parts (part : Bytes) : ∃ rest, part = before part ++ rest ∧ equals ∉ before part ∧
    (rest = [] ∨ rest.head? = some equals) := by
  refine ⟨part.dropWhile (· ≠ equals), List.takeWhile_append_dropWhile.symm, fun held => ?_, ?_⟩
  · have other := List.mem_takeWhile_imp held
    exact absurd other (by decide)
  · cases rest : part.dropWhile (· ≠ equals) with
    | nil => exact .inl rfl
    | cons byte tail =>
      have first := List.head?_dropWhile_not (· ≠ equals) part
      rw [rest] at first
      exact .inr (by simpa using first)

/-- The attributes whose name the proxy does not recognise: there is a blank behind the name, or
no `=`. -/
def isStray (part : Bytes) : Bool := equals ∉ part || (before part).getLast?.any isBlank

private theorem lower_letter {byte : UInt8} (letter : 97 ≤ (Uuid.lower byte).toNat ∧ (Uuid.lower byte).toNat ≤ 122) :
    65 ≤ byte.toNat ∧ byte.toNat ≤ 122 := by
  unfold Uuid.lower at letter
  split at letter <;> omega

private theorem getLast?_any {p : UInt8 → Bool} {b : Bool} {text : Bytes} (given : text ≠ []) (all : ∀ byte ∈ text, p byte = b) :
    text.getLast?.any p = b := by
  rw [List.getLast?_eq_some_getLast given, Option.any_some]
  exact all _ (List.getLast_mem given)

/-- What is behind the name when the spaces at the end are gone. -/
private theorem head_tail_iff {part lead own trail rest cut tail : Bytes} (parts : part = before part ++ rest)
    (apart : equals ∉ before part) (ends : rest = [] ∨ rest.head? = some equals)
    (name : before part = lead ++ (own ++ trail)) (given : own ≠ []) (solid : ∀ byte ∈ own, isBlank byte = false)
    (blank : ∀ byte ∈ trail, isBlank byte = true) (split : trail ++ rest = tail ++ cut)
    (gone : ∀ byte ∈ cut, byte ∈ spaces.flatten) :
    tail.head? = some equals ↔ isStray part = false := by
  rw [isStray, Bool.or_eq_false_iff, decide_eq_false_iff_not, not_not]
  cases trail with
  | nil =>
    have lastName : (before part).getLast?.any isBlank = false := by
      rw [name, List.append_nil, List.getLast?_append_of_ne_nil _ given]
      exact getLast?_any given solid
    rcases ends with rfl | starts
    · have none_ : tail = [] := (List.append_eq_nil_iff.mp split.symm).1
      have absent : equals ∉ part := by rwa [parts, List.append_nil]
      simp [none_, absent]
    · have present : equals ∈ part := by
        rw [parts]
        exact List.mem_append_right _ (List.mem_of_mem_head? starts)
      cases tail with
      | nil =>
        have inside : equals ∈ cut := by
          rw [List.nil_append, List.nil_append] at split
          exact split ▸ List.mem_of_mem_head? starts
        exact absurd (space_bytes equals (gone equals inside)) (by decide)
      | cons byte tail =>
        rw [List.nil_append] at split
        rw [split] at starts
        exact iff_of_true starts ⟨present, lastName⟩
  | cons byte trail =>
    have lastName : (before part).getLast?.any isBlank = true := by
      have some_ : own ++ byte :: trail ≠ [] := by simp
      rw [name, List.getLast?_append_of_ne_nil _ some_, List.getLast?_append_of_ne_nil _ (List.cons_ne_nil _ _)]
      exact getLast?_any (List.cons_ne_nil _ _) blank
    refine iff_of_false (fun starts => ?_) (fun both => absurd both.2 (by simp [lastName]))
    cases tail with
    | nil => cases starts
    | cons first tail =>
      obtain rfl := (List.cons.inj split).1
      obtain rfl := Option.some.inj starts
      exact absurd (blank equals List.mem_cons_self) (by decide)

/-- What the proxy compares of an attribute. -/
private theorem lower_trimSpace {word : String} {part : Bytes} (given : bytes word ≠ [])
    (letters : ∀ byte ∈ bytes word, 97 ≤ byte.toNat ∧ byte.toNat ≤ 122) (named : names word part = true) :
    ∃ tail, lower (trimSpace part) = bytes word ++ tail ∧ (tail.head? = some equals ↔ isStray part = false) := by
  rw [names, decide_eq_true_iff, cookieAv] at named
  obtain ⟨lead, trail, name, blank, blank'⟩ := trimBlanks_parts (before part)
  obtain ⟨rest, parts, apart, ends⟩ := before_parts part
  generalize trimBlanks (before part) = own at named name
  have given' : own ≠ [] := by
    rintro rfl
    exact given named.symm
  have letter (byte : UInt8) (held : byte ∈ own) : 65 ≤ byte.toNat ∧ byte.toNat ≤ 122 :=
    lower_letter (letters _ (named ▸ List.mem_map_of_mem held))
  have solid (byte : UInt8) (held : byte ∈ own) : byte ∉ spaces.flatten := by
    intro space
    have := letter byte held
    have := space_bytes byte space
    omega
  have noBlank (byte : UInt8) (held : byte ∈ own) : isBlank byte = false := by
    have := letter byte held
    simp only [isBlank, Bool.or_eq_false_iff, decide_eq_false_iff_not]
    constructor <;> (rintro rfl; revert this; decide)
  have whole : part = lead ++ (own ++ (trail ++ rest)) := by
    conv => lhs; rw [parts, name]
    simp
  obtain ⟨tail, cut, trimmed, split, gone⟩ := trimSpace_word blank given' solid (trail ++ rest)
  refine ⟨lower tail, ?_, (head_lower tail).trans ?_⟩
  · have ascii (byte : UInt8) (held : byte ∈ own) : byte.toNat < 128 := by
      have := letter byte held
      omega
    rw [whole, trimmed, lower_append ascii, named]
  · exact head_tail_iff parts apart ends name given' noBlank blank' split gone

private theorem isPrefixOf_equals {word tail : Bytes} :
    (word ++ [equals]).isPrefixOf (word ++ tail) = decide (tail.head? = some equals) := by
  rw [Bool.eq_iff_iff, List.isPrefixOf_iff_prefix, List.prefix_append_right_inj, decide_eq_true_iff]
  cases tail with
  | nil => simp
  | cons byte tail => simp [eq_comm]

private theorem stray_iff {tail part : Bytes} (kind : tail.head? = some equals ↔ isStray part = false) :
    decide (tail.head? = some equals) = !isStray part := by
  rw [Bool.eq_iff_iff, decide_eq_true_iff, kind, Bool.not_eq_true']

/-- A domain is left out unless it is stray, and a path is replaced unless it is stray. -/
theorem of_names_domain {part : Bytes} (named : names "domain" part = true) :
    isDropped part = !isStray part ∧ isPath part = false := by
  obtain ⟨tail, lowered, kind⟩ := lower_trimSpace (by decide +kernel) (by decide +kernel) named
  have word : bytes "domain=" = bytes "domain" ++ [equals] := by decide
  have sameSite : (bytes "samesite=").isPrefixOf (bytes "domain" ++ tail) = false := rfl
  have path_ : (bytes "path=").isPrefixOf (bytes "domain" ++ tail) = false := rfl
  have secure_ : bytes "domain" ++ tail ≠ bytes "secure" := by
    intro same
    have heads : some (100 : UInt8) = some 115 := congrArg List.head? same
    exact absurd heads (by decide)
  rw [isDropped, isPath, lowered, word, isPrefixOf_equals, stray_iff kind, sameSite, path_, decide_eq_false secure_]
  simp

theorem of_names_path {part : Bytes} (named : names "path" part = true) :
    isPath part = !isStray part ∧ isDropped part = false := by
  obtain ⟨tail, lowered, kind⟩ := lower_trimSpace (by decide +kernel) (by decide +kernel) named
  have word : bytes "path=" = bytes "path" ++ [equals] := by decide
  have sameSite : (bytes "samesite=").isPrefixOf (bytes "path" ++ tail) = false := rfl
  have domain_ : (bytes "domain=").isPrefixOf (bytes "path" ++ tail) = false := rfl
  have secure_ : bytes "path" ++ tail ≠ bytes "secure" := by
    intro same
    have heads : some (112 : UInt8) = some 115 := congrArg List.head? same
    exact absurd heads (by decide)
  rw [isDropped, isPath, lowered, word, isPrefixOf_equals, stray_iff kind, sameSite, domain_, decide_eq_false secure_]
  simp

/-! ## What the proxy writes -/

/-- What the proxy makes of a part that it keeps. -/
def replaced (cameraID : UUID) (part : Bytes) : Bytes := if isPath part then pathPart cameraID else part

private theorem scope_eq (cameraID : UUID) (parts : List Bytes) : scope cameraID parts =
    ((parts.filter (!isDropped ·)).map (replaced cameraID), (parts.filter (!isDropped ·)).any isPath) := by
  induction parts with
  | nil => rfl
  | cons part parts ih =>
    rw [scope, ih]
    dsimp only
    by_cases gone : isDropped part = true
    · rw [if_pos gone, List.filter_cons_of_neg (by simp [gone])]
    · rw [if_neg gone, List.filter_cons_of_pos (by simpa using gone), List.map_cons, List.any_cons, replaced]
      cases isPath part <;> rfl

/-- What the proxy puts behind the parts. -/
def added (cameraID : UUID) (secure pathScoped : Bool) : List Bytes :=
  (if pathScoped then [] else [pathPart cameraID]) ++ ([bytes " SameSite=Strict"] ++ if secure then [bytes " Secure"] else [])

private theorem semicolon_notMem_pathPart (cameraID : UUID) : semicolon ∉ pathPart cameraID := by
  have apart : semicolon ∉ bytes cameraID.text := by
    intro held
    rcases Uuid.mem_text_bytes held with hyphen | digit
    · exact absurd hyphen (by decide)
    · exact absurd digit (by decide)
  have front : semicolon ∉ bytes " Path=" ∧ semicolon ∉ bytes "/api/cameras/" ∧ semicolon ∉ bytes "/web-ui" ∧ semicolon ≠ slash := by
    decide
  simp [pathPart, cookiePath, webUI, apart, front]

private theorem readSetCookie_rewrite (c : Bytes) (cameraID : UUID) (secure : Bool) :
    readSetCookie (rewriteSetCookie c cameraID secure) =
      readParts (((c.splitOn semicolon).filter (!isDropped ·)).map (replaced cameraID) ++
        added cameraID secure (((c.splitOn semicolon).filter (!isDropped ·)).any isPath)) := by
  have written : rewriteSetCookie c cameraID secure = List.intercalate [semicolon]
      (((c.splitOn semicolon).filter (!isDropped ·)).map (replaced cameraID) ++
        added cameraID secure (((c.splitOn semicolon).filter (!isDropped ·)).any isPath)) := by
    rw [rewriteSetCookie, scope_eq, added]
    cases ((c.splitOn semicolon).filter (!isDropped ·)).any isPath <;> cases secure <;> simp
  have strict : semicolon ∉ bytes " SameSite=Strict" ∧ semicolon ∉ bytes " Secure" := by decide
  rw [written, readSetCookie, List.splitOn_intercalate]
  · intro part held
    rcases List.mem_append.mp held with kept | new
    · obtain ⟨original, held', rfl⟩ := List.mem_map.mp kept
      rw [replaced]
      split
      · exact semicolon_notMem_pathPart cameraID
      · exact FormBody.notMem_of_mem_splitOn original (List.mem_of_mem_filter held')
    · rcases List.mem_append.mp new with path | rest
      · split at path
        · cases path
        · obtain rfl := List.mem_singleton.mp path
          exact semicolon_notMem_pathPart cameraID
      · rcases List.mem_append.mp rest with middle | last
        · obtain rfl := List.mem_singleton.mp middle
          exact strict.1
        · split at last
          · obtain rfl := List.mem_singleton.mp last
            exact strict.2
          · cases last
  · simp [added]

private theorem trimBlanks_solid {text : Bytes} (first : text.head?.any isBlank = false) (last : text.getLast?.any isBlank = false) :
    trimBlanks text = text := by
  have drop {text : Bytes} (first : text.head?.any isBlank = false) : text.dropWhile isBlank = text := by
    cases text with
    | nil => rfl
    | cons byte text => exact List.dropWhile_cons_of_neg (by simpa using first)
  rw [trimBlanks, drop first, drop (by rwa [List.head?_reverse]), List.reverse_reverse]

private theorem cookieAv_pathPart (cameraID : UUID) :
    cookieAv (pathPart cameraID) = (bytes "Path", cookiePath cameraID) := by
  have parts : pathPart cameraID = 32 :: 80 :: 97 :: 116 :: 104 :: equals :: cookiePath cameraID := rfl
  have name : before (pathPart cameraID) = [32, 80, 97, 116, 104] := by
    rw [before, parts]
    simp [equals]
  have value : (pathPart cameraID).dropWhile (· ≠ equals) = equals :: cookiePath cameraID := by
    rw [parts]
    simp [equals]
  have last : (cookiePath cameraID).getLast?.any isBlank = false := by
    rw [cookiePath, List.getLast?_append, List.getLast?_singleton]
    rfl
  rw [cookieAv, name, value, List.drop_one, List.tail_cons, trimBlanks_solid rfl last]
  rfl

private theorem pairOf_pathPart (cameraID : UUID) :
    pairOf (pathPart cameraID) = some (bytes "Path", cookiePath cameraID) := by
  have held : equals ∈ pathPart cameraID := List.mem_append_left _ (by decide)
  have given : bytes "Path" ≠ [] := by decide
  rw [pairOf, cookieAv_pathPart, if_pos ⟨held, given⟩]

private theorem names_pathPart (cameraID : UUID) : names "path" (pathPart cameraID) = true ∧
    names "domain" (pathPart cameraID) = false ∧ names "samesite" (pathPart cameraID) = false := by
  simp only [names, cookieAv_pathPart]
  decide

private theorem names_added : names "path" (bytes " SameSite=Strict") = false ∧ names "domain" (bytes " SameSite=Strict") = false ∧
    names "samesite" (bytes " SameSite=Strict") = true ∧ (cookieAv (bytes " SameSite=Strict")).2 = bytes "Strict" ∧
    names "path" (bytes " Secure") = false ∧ names "domain" (bytes " Secure") = false ∧
    names "samesite" (bytes " Secure") = false ∧ names "secure" (bytes " Secure") = true := by decide

/-! ## What the browser reads of it -/

private theorem filter_added (word : String) (cameraID : UUID) (secure pathScoped : Bool) :
    (added cameraID secure pathScoped).filter (names word) =
      (if pathScoped then [] else [pathPart cameraID].filter (names word)) ++ ([bytes " SameSite=Strict"].filter (names word) ++
        if secure then [bytes " Secure"].filter (names word) else []) := by
  rw [added, List.filter_append, List.filter_append]
  cases pathScoped <;> cases secure <;> rfl

/-- Of the domains in the parts that are kept, the stray ones are left. -/
private theorem domainOf_rewritten {cameraID : UUID} {later : List Bytes} (kept : ∀ part ∈ later, isDropped part = false)
    (secure pathScoped : Bool) :
    domainOf (later.map (replaced cameraID) ++ added cameraID secure pathScoped) = domainOf (later.filter isStray) := by
  have new : (added cameraID secure pathScoped).filter (names "domain") = [] := by
    rw [filter_added]
    cases pathScoped <;> cases secure <;> simp [names_pathPart, names_added]
  have old : (later.map (replaced cameraID)).filter (names "domain") = (later.filter isStray).filter (names "domain") := by
    induction later with
    | nil => rfl
    | cons part later ih =>
      have rest := ih fun other held => kept other (List.mem_cons_of_mem _ held)
      have own := kept part List.mem_cons_self
      rw [List.map_cons, List.filter_cons, rest, List.filter_filter, List.filter_filter, List.filter_cons, replaced]
      by_cases named : names "domain" part = true
      · obtain ⟨dropped, noPath⟩ := of_names_domain named
        have stray : isStray part = true := by simpa [own] using dropped
        simp [named, noPath, stray]
      · cases isPath part <;> simp [named, names_pathPart]
  have swap (parts : List Bytes) : (parts.filter fun part => (cookieAv part).2 ≠ []).filter (names "domain") =
      (parts.filter (names "domain")).filter fun part => (cookieAv part).2 ≠ [] := by
    rw [List.filter_filter, List.filter_filter]
    exact List.filter_congr fun part _ => Bool.and_comm _ _
  rw [domainOf, domainOf, lastValue, lastValue, swap, swap, List.filter_append, new, old, List.append_nil]

/-- The paths that the browser finds among the parts that are kept: those that are replaced, and
stray ones. -/
def paths (parts : List Bytes) : List Bytes := parts.filter fun part => isPath part || (isStray part && names "path" part)

private theorem filter_names_path (cameraID : UUID) (later : List Bytes) :
    (later.map (replaced cameraID)).filter (names "path") = (paths later).map (replaced cameraID) := by
  induction later with
  | nil => rfl
  | cons part later ih =>
    rw [List.map_cons, List.filter_cons, ih, paths, paths, List.filter_cons, replaced]
    by_cases path : isPath part = true
    · simp [path, names_pathPart, replaced]
    · by_cases named : names "path" part = true
      · have stray : isStray part = true := by
          have kind := (of_names_path named).1
          simpa [path] using kind
        simp [path, named, stray, replaced]
      · simp [path, named]

/-- What the parts behind the first one must not have for the cookie to be confined. -/
structure Tame (cameraID : UUID) (lead : Bytes) (later : List Bytes) : Prop where
  domain : domainOf (later.filter isStray) = none
  path : (∀ part ∈ lead :: later, isPath part = false) ∨
    ∃ part, (paths later).getLast? = some part ∧ (isPath part = true ∨ (cookieAv part).2 = cookiePath cameraID)

private theorem pathOf_rewritten (cameraID : UUID) (secure : Bool) (lead : Bytes) (later : List Bytes) :
    pathOf (later.map (replaced cameraID) ++ added cameraID secure ((lead :: later).any isPath)) = some (cookiePath cameraID) ↔
      (∀ part ∈ lead :: later, isPath part = false) ∨
        ∃ part, (paths later).getLast? = some part ∧ (isPath part = true ∨ (cookieAv part).2 = cookiePath cameraID) := by
  have own : (some (cookiePath cameraID)).filter (fun value => decide (value.head? = some slash)) = some (cookiePath cameraID) := rfl
  rw [pathOf, lastValue, List.filter_append, filter_names_path, filter_added]
  cases marked : (lead :: later).any isPath with
  | false =>
    have none_ : ∀ part ∈ lead :: later, isPath part = false := by simpa using marked
    refine iff_of_true ?_ (.inl none_)
    cases secure <;> simp [names_pathPart, names_added, cookieAv_pathPart, own]
  | true =>
    have some_ : ¬ ∀ part ∈ lead :: later, isPath part = false := by
      obtain ⟨part, held, path⟩ := List.any_eq_true.mp marked
      exact fun none_ => nomatch path.symm.trans (none_ part held)
    have rest : [bytes " SameSite=Strict"].filter (names "path") = [] ∧ [bytes " Secure"].filter (names "path") = [] := by
      simp [names_added]
    rw [or_iff_right some_, rest.1, rest.2, ite_self, if_pos rfl, List.append_nil, List.append_nil, List.append_nil, List.getLast?_map]
    cases (paths later).getLast? with
    | none => simp
    | some part =>
      have value : (cookieAv (replaced cameraID part)).2 = if isPath part then cookiePath cameraID else (cookieAv part).2 := by
        rw [replaced]
        split
        · rw [cookieAv_pathPart]
        · rfl
      simp only [Option.map_some, value, Option.some_inj, exists_eq_left']
      cases isPath part with
      | true => simpa using own
      | false =>
        simp only [Bool.false_eq_true, if_false, false_or]
        refine ⟨fun found => ?_, fun same => same ▸ own⟩
        exact (Option.filter_eq_some_iff.mp found).1 |> Option.some.inj

private theorem sameSite_rewritten (cameraID : UUID) (secure pathScoped : Bool) (parts : List Bytes) :
    lastValue "samesite" (parts ++ added cameraID secure pathScoped) = some (bytes "Strict") := by
  have strict : [bytes " SameSite=Strict"].filter (names "samesite") = [bytes " SameSite=Strict"] := by simp [names_added]
  have rest : [bytes " Secure"].filter (names "samesite") = [] := by simp [names_added]
  rw [lastValue, List.filter_append, filter_added, strict, rest, ite_self, List.append_nil, ← List.append_assoc,
    List.getLast?_concat, Option.map_some, names_added.2.2.2.1]

private theorem secure_rewritten (cameraID : UUID) (pathScoped : Bool) (parts : List Bytes) :
    (parts ++ added cameraID true pathScoped).any (names "secure") = true := by
  simp [added, names_added]

/-- The parts that the proxy keeps. -/
def kept (c : Bytes) : List Bytes := (c.splitOn semicolon).filter (!isDropped ·)

/-- The first part that is kept stands for the same cookie, and what follows it is tame. -/
def Confinable (cameraID : UUID) (c : Bytes) : Prop :=
  ∃ first others lead later, c.splitOn semicolon = first :: others ∧ kept c = lead :: later ∧
    pairOf (replaced cameraID lead) = pairOf first ∧ (pairOf first ≠ none → Tame cameraID lead later)

/-- A part that is left out is not the cookie that the proxy's path would be. -/
private theorem pairOf_ne_path {cameraID : UUID} {first : Bytes} (gone : isDropped first = true) :
    pairOf first ≠ some (bytes "Path", cookiePath cameraID) := by
  intro same
  unfold pairOf at same
  split at same
  · have name : (cookieAv first).1 = bytes "Path" := congrArg Prod.fst (Option.some.inj same)
    have named : names "path" first = true := by
      rw [names, name]
      decide
    rw [(of_names_path named).2] at gone
    cases gone
  · cases same

private theorem confined_iff {cameraID : UUID} {secure : Bool} {first lead : Bytes} {others later : List Bytes}
    (kept : ∀ part ∈ later, isDropped part = false) :
    Confined cameraID secure (readParts (first :: others))
        (readParts ((lead :: later).map (replaced cameraID) ++ added cameraID secure ((lead :: later).any isPath))) ↔
      pairOf (replaced cameraID lead) = pairOf first ∧ (pairOf first ≠ none → Tame cameraID lead later) := by
  rw [List.map_cons, List.cons_append, readParts, readParts]
  cases given : pairOf first with
  | none =>
    rw [Option.map_none, Confined, Option.map_eq_none_iff]
    exact ⟨fun none_ => ⟨none_, fun some_ => absurd rfl some_⟩, And.left⟩
  | some pair =>
    rw [Option.map_some, Confined]
    constructor
    · rintro ⟨out, read, name, value, path, domain, _, _⟩
      obtain ⟨pair', own, rfl⟩ := Option.map_eq_some_iff.mp read
      refine ⟨own.trans (congrArg some (Prod.ext name value)), fun _ => ⟨?_, ?_⟩⟩
      · exact (domainOf_rewritten kept secure _).symm.trans domain
      · exact (pathOf_rewritten cameraID secure lead later).mp path
    · rintro ⟨same, tame⟩
      obtain ⟨domain, path⟩ := tame (Option.some_ne_none pair)
      rw [same, Option.map_some]
      refine ⟨_, rfl, rfl, rfl, ?_, ?_, ?_, ?_⟩
      · exact (pathOf_rewritten cameraID secure lead later).mpr path
      · exact (domainOf_rewritten kept secure _).trans domain
      · exact sameSite_rewritten cameraID secure _ _
      · rintro rfl
        exact secure_rewritten cameraID _ _

/-- Every `Set-Cookie` of an answer is a rewritten one of the camera. -/
theorem mem_copyHeadersForProxy {src : List (Bytes × List Bytes)} {cameraID : UUID} {secure : Bool} {name value : Bytes}
    (held : (name, value) ∈ copyHeadersForProxy src cameraID secure) (cookie : lower name = bytes "set-cookie") :
    ∃ header ∈ src, ∃ v ∈ header.2, value = rewriteSetCookie v cameraID secure := by
  obtain ⟨header, listed, made⟩ := List.mem_flatMap.mp held
  split at made
  · cases made
  · split at made
    · obtain ⟨v, given, same⟩ := List.mem_map.mp made
      cases same
      exact ⟨header, listed, v, given, rfl⟩
    · next other =>
      obtain ⟨v, _, same⟩ := List.mem_map.mp made
      cases same
      exact absurd cookie other

/-- A cookie stays what it was and with the page of its camera exactly when the first part that the
proxy keeps is the cookie, no domain has a blank before its `=`, and no such path, nor one without
`=`, is behind the proxy's own; and all cookies of an answer went through this. -/
theorem rewriteSetCookie_confined_iff (c : Bytes) (cameraID : UUID) (secure : Bool) :
    (Confined cameraID secure (readSetCookie c) (readSetCookie (rewriteSetCookie c cameraID secure)) ↔ Confinable cameraID c) ∧
      ∀ (src : List (Bytes × List Bytes)) (name value : Bytes), (name, value) ∈ copyHeadersForProxy src cameraID secure →
        lower name = bytes "set-cookie" → ∃ header ∈ src, ∃ v ∈ header.2, value = rewriteSetCookie v cameraID secure := by
  refine ⟨?_, fun src name value => mem_copyHeadersForProxy⟩
  obtain ⟨first, others, parts⟩ := List.exists_cons_of_ne_nil (List.splitOn_ne_nil semicolon c)
  rw [readSetCookie_rewrite, readSetCookie, ← kept, parts]
  cases front : kept c with
  | nil =>
    have gone : isDropped first = true := by
      have all := List.filter_eq_nil_iff.mp front first (by rw [parts]; exact List.mem_cons_self)
      simpa using all
    refine iff_of_false (fun confined => ?_) fun ⟨_, _, lead, later, _, some_, _⟩ => nomatch front.symm.trans some_
    have lead : [].map (replaced cameraID) ++ added cameraID secure ([].any isPath) =
        pathPart cameraID :: ([bytes " SameSite=Strict"] ++ if secure then [bytes " Secure"] else []) := rfl
    rw [lead, readParts, readParts, pairOf_pathPart, Option.map_some] at confined
    cases given : pairOf first with
    | none =>
      rw [given, Option.map_none, Confined] at confined
      cases confined
    | some pair =>
      rw [given, Option.map_some, Confined] at confined
      obtain ⟨out, read, name, value, _⟩ := confined
      obtain rfl := Option.some.inj read
      exact pairOf_ne_path gone (given.trans (congrArg some (Prod.ext name.symm value.symm)))
  | cons lead later =>
    have held (part : Bytes) (here : part ∈ later) : isDropped part = false := by
      have listed : part ∈ kept c := front ▸ List.mem_cons_of_mem _ here
      simpa using (List.mem_filter.mp listed).2
    rw [confined_iff held]
    constructor
    · exact fun both => ⟨first, others, lead, later, parts, front, both⟩
    · rintro ⟨first', others', lead', later', parts', front', both⟩
      cases parts.symm.trans parts'
      cases front.symm.trans front'
      exact both

/-- `Domain` with a blank before its `=` comes through. -/
theorem spaced_domain_survives : ¬ ∀ (c : Bytes) (cameraID : UUID) (secure : Bool),
    Confined cameraID secure (readSetCookie c) (readSetCookie (rewriteSetCookie c cameraID secure)) := by
  intro holds
  have confined := holds (bytes "sid=1; Domain =example.org") ⟨0⟩ true
  have original : readSetCookie (bytes "sid=1; Domain =example.org") =
      some ⟨bytes "sid", bytes "1", none, some (bytes "example.org"), none, false⟩ := by decide +kernel
  have rewritten : (readSetCookie (rewriteSetCookie (bytes "sid=1; Domain =example.org") ⟨0⟩ true)).map Cookie.domain =
      some (some (bytes "example.org")) := by decide +kernel
  rw [original, Confined] at confined
  obtain ⟨out, read, _, _, _, domain, _⟩ := confined
  rw [read, Option.map_some, domain] at rewritten
  exact nomatch rewritten

end Ironsight.CameraCookies
