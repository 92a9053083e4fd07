import Ironsight.Credentials
import Ironsight.Durations
import Ironsight.LineScanner
import Ironsight.MediaLinks

/-! Playlists with signed links. Each URI of a playlist on disk is replaced by a token of its
own, which hands on the authority of the playlist's token. A byte above the ASCII range is in
no valid path, nor is the character that it becomes in one. -/
namespace Ironsight.SignedPlaylists
open Credentials (latin)
open Durations (saturated)
open LineScanner Tokens MediaLinks

def hash : UInt8 := 35

def quote : UInt8 := 34

/-- `URI="`. -/
def marker : List UInt8 := [85, 82, 73, 61, 34]

/-- What is written out: bytes of the playlist, and `/media/v1/` with a token behind it. -/
inductive Piece where
  | bytes (kept : List UInt8)
  | link (token : Token)
  deriving DecidableEq

/-- The line itself where there is no URI to be rewritten. -/
def rewriteAttributeURI (line : List UInt8) (cfg : Config) (parent : MediaClaims) (ttl : Int) (stamp : Stamp) : List Piece :=
  match cut marker line with
  | none => [.bytes line]
  | some (before, rest) =>
    match cut [quote] rest with
    | none => [.bytes line]
    | some (uri, behind) =>
      match signMediaToken parent.userID parent.cameraID "hls" (latin uri) cfg.jwtSecret ttl stamp with
      | .error _ => [.bytes line]
      | .ok token => [.bytes (before ++ marker), .link token, .bytes (quote :: behind)]

/-- The line, and whether it was rewritten. -/
def rewriteM3U8Line (line : List UInt8) (cfg : Config) (parent : MediaClaims) (ttl : Int) (stamp : Stamp) : List Piece × Bool :=
  let trimmed := trimSpace line
  if trimmed = [] then ([.bytes line], false)
  else if trimmed.head? = some hash then
    if (cut marker trimmed).isSome then (rewriteAttributeURI line cfg parent ttl stamp, true) else ([.bytes line], false)
  else
    match signMediaToken parent.userID parent.cameraID "hls" (latin trimmed) cfg.jwtSecret ttl stamp with
    | .error _ => ([.bytes line], false)
    | .ok token => ([.link token], true)

/-- The lifetime of the tokens of a playlist, from what is left of the parent's. -/
def childTTL (parent : MediaClaims) (now : Int) : Int :=
  match parent.registered.expiresAt with
  | none => defaultMediaTTL
  | some seconds =>
    let remaining := saturated (seconds * second - now)
    let ttl := if remaining < defaultMediaTTL then remaining else defaultMediaTTL
    if ttl < second then second else ttl

/-- The lines from number `i` on; a token on line `i` is minted with the stamp of that number. -/
def rewriteLines (cfg : Config) (parent : MediaClaims) (ttl : Int) (stamps : Nat → Stamp) : Nat → List (List UInt8) → List Piece
  | _, [] => []
  | i, line :: lines =>
    (rewriteM3U8Line line cfg parent ttl (stamps i)).1 ++ .bytes [newline] :: rewriteLines cfg parent ttl stamps (i + 1) lines

inductive Answer where
  | failed (status : Nat) (body : String)
  | playlist (contentType cacheControl : String) (body : List Piece)
  deriving DecidableEq

/-- The scanner's buffer. -/
def bufferSize : Nat := 1024 * 1024

/-- `file` is none where it cannot be opened, and `now` the time at which the lifetime of the
tokens is computed. -/
def serveRewrittenM3U8 (cfg : Config) (parent : MediaClaims) (file : Option (List UInt8)) (now : Int) (stamps : Nat → Stamp) :
    Answer :=
  match file with
  | none => .failed 404 "not found"
  | some content =>
    let ttl := childTTL parent now
    if tooLong bufferSize content then .failed 500 "playlist read failed"
    else .playlist "application/vnd.apple.mpegurl" "no-store, private"
      (rewriteLines cfg parent ttl stamps 0 (scanned bufferSize content))

/-! ## What a playlist may hand on -/

/-- Until it expires, and that is not after its parent, the token reads back as the parent's
authority over one URI. -/
def HandsOn (secret : String) (parent : MediaClaims) (token : Token) (uri : List UInt8) : Prop :=
  ∃ claims expiry, (∀ now < expiry * second, parseMediaToken token secret now = .ok claims) ∧
    claims.registered.expiresAt = some expiry ∧ claims.userID = parent.userID ∧ claims.cameraID = parent.cameraID ∧
    claims.kind = "hls" ∧ claims.path = latin uri ∧ ∀ limit, parent.registered.expiresAt = some limit → expiry ≤ limit

/-- What is written is the content of the file, but for tokens in the place of URIs. -/
def Rewrites (secret : String) (parent : MediaClaims) : List Piece → List UInt8 → Prop
  | [], content => content = []
  | .bytes kept :: out, content => ∃ rest, content = kept ++ rest ∧ Rewrites secret parent out rest
  | .link token :: out, content =>
    ∃ uri rest, content = uri ++ rest ∧ HandsOn secret parent token uri ∧ Rewrites secret parent out rest

/-- A line with nothing but a URI. -/
def Bare (line : List UInt8) : Prop := trimSpace line ≠ [] ∧ (trimSpace line).head? ≠ some hash

instance (line : List UInt8) : Decidable (Bare line) := inferInstanceAs (Decidable (_ ∧ _))

/-- The URI of a line. -/
def uriOf (line : List UInt8) : Option (List UInt8) :=
  if Bare line then some (trimSpace line)
  else if trimSpace line = [] ∨ (cut marker (trimSpace line)).isNone then none
  else (cut marker line).bind fun around => (cut [quote] around.2).map Prod.fst

/-- The line has a URI that a token can be made for. -/
def Mintable (line uri : List UInt8) : Prop := uriOf line = some uri ∧ validMediaPath (latin uri) = true

/-- The lines end with a newline, the last one too, and without a carriage return, and there
are no blanks around a bare URI. -/
structure Plain (content : List UInt8) : Prop where
  ended : (splitLines content).2 = []
  newlines : ∀ line ∈ (splitLines content).1, line.getLast? ≠ some carriageReturn
  unpadded : ∀ line ∈ (splitLines content).1, Bare line → validMediaPath (latin (trimSpace line)) = true → trimSpace line = line

/-- A token is minted before the parent expires, and within a second of the time that the
lifetimes were computed at, or so early that the parent outlives the longest of them. -/
def InTime (parent : MediaClaims) (now : Int) (stamp : Stamp) : Prop :=
  ∀ limit, parent.registered.expiresAt = some limit → stamp.expiryClock < limit * second ∧
    (stamp.expiryClock < now + second ∨ stamp.expiryClock + defaultMediaTTL < (limit + 1) * second)

/-! ## Tokens -/

theorem latin_inj {name other : List UInt8} (same : latin name = latin other) : name = other := by
  have chars : Function.Injective fun byte : UInt8 => Char.ofNat byte.toNat := by
    intro a b equal
    have code : ∀ byte : UInt8, (Char.ofNat byte.toNat).toNat = byte.toNat := fun byte => by
      have small := byte.toNat_lt
      rw [Char.ofNat, dif_pos (.inl (by omega))]
      rfl
    exact UInt8.toNat_inj.mp (by rw [← code a, ← code b]; exact congrArg Char.toNat equal)
  exact List.map_injective_iff.mpr chars (String.ofList_injective same)

/-- The lifetime is within the bounds that a signer sets. -/
theorem clamp_childTTL (parent : MediaClaims) (now : Int) : clamp (childTTL parent now) = childTTL parent now := by
  unfold childTTL
  cases parent.registered.expiresAt with
  | none => rfl
  | some seconds =>
    dsimp only [clamp, defaultMediaTTL, hour, second]
    split_ifs <;> omega

/-- With its lifetime a token does not outlast its parent exactly if it is minted in time. -/
theorem inTime_iff (parent : MediaClaims) (now : Int) (stamp : Stamp) :
    (∀ limit, parent.registered.expiresAt = some limit → numericDate (stamp.expiryClock + childTTL parent now) ≤ limit) ↔
      InTime parent now stamp := by
  refine forall₂_congr fun limit expires => ?_
  dsimp only [childTTL]
  rw [expires]
  dsimp only [saturated, numericDate, defaultMediaTTL, second]
  split_ifs <;> omega

section Parent
variable {cfg : Config} {parent : MediaClaims}

/-- The token that is written for a URI. -/
def child (cfg : Config) (parent : MediaClaims) (ttl : Int) (stamp : Stamp) (uri : List UInt8) : Token :=
  .signed cfg.jwtSecret (linkClaims parent.userID parent.cameraID "hls" (latin uri) ttl stamp).encode

/-- What an accepted token can be relied on for. -/
structure Accepted (cfg : Config) (parent : MediaClaims) : Prop where
  secret : cfg.jwtSecret ≠ ""
  user : parent.userID ≠ ""
  camera : parent.cameraID ≠ ""

theorem accepted_of_parsed {token : Token} {at_ : Int} (parsed : parseMediaToken token cfg.jwtSecret at_ = .ok parent) :
    Accepted cfg parent := by
  unfold parseMediaToken at parsed
  split_ifs at parsed with given
  split at parsed
  · cases parsed
  · split_ifs at parsed with issuer kind path subject
    cases parsed
    rw [not_or] at subject
    exact ⟨given, subject.1, subject.2⟩

variable (accepted : Accepted cfg parent)
include accepted

theorem sign_child {ttl : Int} {stamp : Stamp} {uri : List UInt8} {token : Token} :
    signMediaToken parent.userID parent.cameraID "hls" (latin uri) cfg.jwtSecret ttl stamp = .ok token ↔
      validMediaPath (latin uri) = true ∧ token = child cfg parent ttl stamp uri := by
  rw [sign_link accepted.secret accepted.camera (by decide)]
  exact and_iff_right accepted.user

/-- No token is made for a path that is not valid. -/
private theorem sign_invalid {uri : List UInt8} (invalid : validMediaPath (latin uri) = false) (ttl : Int) (stamp : Stamp) :
    ∃ err, signMediaToken parent.userID parent.cameraID "hls" (latin uri) cfg.jwtSecret ttl stamp = .error err := by
  cases signed : signMediaToken parent.userID parent.cameraID "hls" (latin uri) cfg.jwtSecret ttl stamp with
  | error err => exact ⟨err, rfl⟩
  | ok token =>
    have valid := ((sign_child accepted).mp signed).1
    rw [invalid] at valid
    cases valid

/-- A token stands for the URI that it was made for and for no other. -/
theorem handsOn_child_iff {now : Int} {stamp : Stamp} {uri other : List UInt8} (valid : validMediaPath (latin uri) = true) :
    HandsOn cfg.jwtSecret parent (child cfg parent (childTTL parent now) stamp uri) other ↔
      other = uri ∧ InTime parent now stamp := by
  have reads : ∀ at_ < numericDate (stamp.expiryClock + childTTL parent now) * second,
      parseMediaToken (child cfg parent (childTTL parent now) stamp uri) cfg.jwtSecret at_ =
        .ok (linkClaims parent.userID parent.cameraID "hls" (latin uri) (childTTL parent now) stamp) := by
    intro at_ early
    rw [← clamp_childTTL] at early
    exact parse_link accepted.secret accepted.camera (by decide) accepted.user valid early
  have expires : (linkClaims parent.userID parent.cameraID "hls" (latin uri) (childTTL parent now) stamp).registered.expiresAt =
      some (numericDate (stamp.expiryClock + childTTL parent now)) := by
    rw [linkClaims, clamp_childTTL]
    rfl
  rw [← inTime_iff]
  constructor
  · rintro ⟨claims, expiry, parses, expiresAt, -, -, -, path, bounded⟩
    -- both expiries lie behind a time early enough for the two readings
    have early : min expiry (numericDate (stamp.expiryClock + childTTL parent now)) * second - 1 <
        min expiry (numericDate (stamp.expiryClock + childTTL parent now)) * second := by omega
    have one := parses (min expiry (numericDate (stamp.expiryClock + childTTL parent now)) * second - 1) (by
      dsimp only [second] at early ⊢
      omega)
    have two := reads (min expiry (numericDate (stamp.expiryClock + childTTL parent now)) * second - 1) (by
      dsimp only [second] at early ⊢
      omega)
    cases one.symm.trans two
    cases expires.symm.trans expiresAt
    exact ⟨latin_inj path.symm, bounded⟩
  · rintro ⟨rfl, bounded⟩
    exact ⟨_, _, reads, expires, rfl, rfl, rfl, rfl, bounded⟩

end Parent

theorem rewrites_append {secret : String} {parent : MediaClaims} {out behind : List Piece} {content : List UInt8} :
    Rewrites secret parent (out ++ behind) content ↔
      ∃ before rest, content = before ++ rest ∧ Rewrites secret parent out before ∧ Rewrites secret parent behind rest := by
  induction out generalizing content with
  | nil => simp [Rewrites]
  | cons piece out ih =>
    cases piece with
    | bytes kept =>
      simp only [List.cons_append, Rewrites, ih]
      constructor
      · rintro ⟨_, rfl, before, rest, rfl, one, two⟩
        exact ⟨kept ++ before, rest, (List.append_assoc ..).symm, ⟨before, rfl, one⟩, two⟩
      · rintro ⟨_, rest, rfl, ⟨before, rfl, one⟩, two⟩
        exact ⟨before ++ rest, List.append_assoc .., before, rest, rfl, one, two⟩
    | link token =>
      simp only [List.cons_append, Rewrites, ih]
      constructor
      · rintro ⟨uri, _, rfl, hands, before, rest, rfl, one, two⟩
        exact ⟨uri ++ before, rest, (List.append_assoc ..).symm, ⟨uri, before, rfl, hands, one⟩, two⟩
      · rintro ⟨_, rest, rfl, ⟨uri, before, rfl, hands, one⟩, two⟩
        exact ⟨uri, before ++ rest, List.append_assoc .., hands, before, rest, rfl, one, two⟩

/-! ## Lines -/

/-- A line with its links read back as URIs. -/
def restored (line : List UInt8) : List UInt8 :=
  if Bare line ∧ validMediaPath (latin (trimSpace line)) = true then trimSpace line else line

private theorem not_mintable {line uri : List UInt8} (named : uriOf line = some uri)
    (invalid : validMediaPath (latin uri) = false) (other : List UInt8) : ¬ Mintable line other := by
  rintro ⟨named', valid⟩
  cases named.symm.trans named'
  rw [invalid] at valid
  cases valid

/-- A line with something on it is a URI or begins with a hash. -/
private theorem hash_of_not_bare {line : List UInt8} (tag : ¬ Bare line) (given : trimSpace line ≠ []) :
    (trimSpace line).head? = some hash := by
  by_contra other
  exact tag ⟨given, other⟩

section Lines
variable {cfg : Config} {parent : MediaClaims} (accepted : Accepted cfg parent)
include accepted

theorem rewriteAttributeURI_cases (line : List UInt8) (ttl : Int) (stamp : Stamp) (tag : ¬ Bare line)
    (marked : ¬ (trimSpace line = [] ∨ (cut marker (trimSpace line)).isNone)) :
    (rewriteAttributeURI line cfg parent ttl stamp = [.bytes line] ∧ ∀ uri, ¬ Mintable line uri) ∨
      ∃ before uri behind, Mintable line uri ∧ line = before ++ uri ++ behind ∧
        rewriteAttributeURI line cfg parent ttl stamp = [.bytes before, .link (child cfg parent ttl stamp uri), .bytes behind] := by
  have named : uriOf line = (cut marker line).bind fun around => (cut [quote] around.2).map Prod.fst := by
    rw [uriOf, if_neg tag, if_neg marked]
  cases around : cut marker line with
  | none =>
    rw [around] at named
    exact .inl ⟨by rw [rewriteAttributeURI, around], fun uri mintable => nomatch named.symm.trans mintable.1⟩
  | some parts =>
    obtain ⟨before, rest⟩ := parts
    rw [around, Option.bind_some] at named
    cases quoted : cut [quote] rest with
    | none =>
      rw [quoted] at named
      refine .inl ⟨by simp only [rewriteAttributeURI, around, quoted], fun uri mintable => nomatch named.symm.trans mintable.1⟩
    | some parts =>
      obtain ⟨uri, behind⟩ := parts
      rw [quoted] at named
      cases valid : validMediaPath (latin uri) with
      | false =>
        obtain ⟨err, refused⟩ := sign_invalid accepted valid ttl stamp
        exact .inl ⟨by simp only [rewriteAttributeURI, around, quoted, refused], not_mintable named valid⟩
      | true =>
        refine .inr ⟨before ++ marker, uri, quote :: behind, ⟨named, valid⟩, ?_, ?_⟩
        · rw [cut_parts around, cut_parts quoted]
          simp only [List.append_assoc, List.singleton_append]
        · simp only [rewriteAttributeURI, around, quoted, (sign_child accepted).mpr ⟨valid, rfl⟩]

/-- A line is kept, or it is a bare URI, or a tag with a URI in it. -/
theorem rewriteM3U8Line_cases (line : List UInt8) (ttl : Int) (stamp : Stamp) :
    ((rewriteM3U8Line line cfg parent ttl stamp).1 = [.bytes line] ∧ ∀ uri, ¬ Mintable line uri) ∨
    (Bare line ∧ Mintable line (trimSpace line) ∧
      (rewriteM3U8Line line cfg parent ttl stamp).1 = [.link (child cfg parent ttl stamp (trimSpace line))]) ∨
    (¬ Bare line ∧ ∃ before uri behind, Mintable line uri ∧ line = before ++ uri ++ behind ∧
      (rewriteM3U8Line line cfg parent ttl stamp).1 = [.bytes before, .link (child cfg parent ttl stamp uri), .bytes behind]) := by
  by_cases bare : Bare line
  · have named : uriOf line = some (trimSpace line) := by rw [uriOf, if_pos bare]
    simp only [rewriteM3U8Line, if_neg bare.1, if_neg bare.2]
    cases valid : validMediaPath (latin (trimSpace line)) with
    | false =>
      obtain ⟨err, refused⟩ := sign_invalid accepted valid ttl stamp
      exact .inl ⟨by rw [refused], not_mintable named valid⟩
    | true =>
      refine .inr (.inl ⟨bare, ⟨named, valid⟩, ?_⟩)
      rw [(sign_child accepted).mpr ⟨valid, rfl⟩]
  · by_cases unmarked : trimSpace line = [] ∨ (cut marker (trimSpace line)).isNone
    · refine .inl ⟨?_, fun uri mintable => ?_⟩
      · simp only [rewriteM3U8Line]
        by_cases empty : trimSpace line = []
        · rw [if_pos empty]
        · have hashed := hash_of_not_bare bare empty
          have absent : ¬ (cut marker (trimSpace line)).isSome = true := by
            rw [Option.not_isSome_iff_eq_none]
            exact Option.isNone_iff_eq_none.mp (unmarked.resolve_left empty)
          rw [if_neg empty, if_pos hashed, if_neg absent]
      · have named : uriOf line = none := by rw [uriOf, if_neg bare, if_pos unmarked]
        cases named.symm.trans mintable.1
    · have empty : ¬ trimSpace line = [] := fun empty => unmarked (.inl empty)
      have hashed := hash_of_not_bare bare empty
      have present : (cut marker (trimSpace line)).isSome = true := by
        cases found : cut marker (trimSpace line) with
        | none => exact absurd (.inr (by rw [found]; rfl)) unmarked
        | some _ => rfl
      have same : (rewriteM3U8Line line cfg parent ttl stamp).1 = rewriteAttributeURI line cfg parent ttl stamp := by
        simp only [rewriteM3U8Line]
        rw [if_neg empty, if_pos hashed, if_pos present]
      rw [same]
      rcases rewriteAttributeURI_cases accepted line ttl stamp bare unmarked with kept | rewritten
      · exact .inl kept
      · exact .inr (.inr ⟨bare, rewritten⟩)

theorem line_rewrites_iff (line : List UInt8) (now : Int) (stamp : Stamp) (content : List UInt8) :
    Rewrites cfg.jwtSecret parent (rewriteM3U8Line line cfg parent (childTTL parent now) stamp).1 content ↔
      content = restored line ∧ ∀ uri, Mintable line uri → InTime parent now stamp := by
  rcases rewriteM3U8Line_cases accepted line (childTTL parent now) stamp with
    ⟨written, unminted⟩ | ⟨bare, mintable, written⟩ | ⟨tag, before, uri, behind, mintable, parts, written⟩
  · have same : restored line = line := if_neg fun bare => unminted _ ⟨by rw [uriOf, if_pos bare.1], bare.2⟩
    rw [written, same]
    simp [Rewrites, unminted]
  · have same : restored line = trimSpace line := if_pos ⟨bare, mintable.2⟩
    rw [written, same]
    simp only [Rewrites, handsOn_child_iff accepted mintable.2]
    constructor
    · rintro ⟨_, _, rfl, ⟨rfl, timely⟩, rfl⟩
      exact ⟨List.append_nil _, fun _ _ => timely⟩
    · rintro ⟨rfl, timely⟩
      exact ⟨_, [], (List.append_nil _).symm, ⟨rfl, timely _ mintable⟩, rfl⟩
  · have same : restored line = line := if_neg fun bare => tag bare.1
    rw [written, same, parts]
    simp only [Rewrites, handsOn_child_iff accepted mintable.2]
    constructor
    · rintro ⟨_, rfl, _, _, rfl, ⟨rfl, timely⟩, _, rfl, rfl⟩
      exact ⟨by simp only [List.append_nil, List.append_assoc], fun _ _ => timely⟩
    · rintro ⟨rfl, timely⟩
      refine ⟨uri ++ behind, List.append_assoc .., uri, behind, rfl, ⟨rfl, timely uri ?_⟩, [], (List.append_nil _).symm, rfl⟩
      rw [← parts]
      exact mintable

theorem lines_rewrites_iff (lines : List (List UInt8)) (now : Int) (stamps : Nat → Stamp) (i : Nat) (content : List UInt8) :
    Rewrites cfg.jwtSecret parent (rewriteLines cfg parent (childTTL parent now) stamps i lines) content ↔
      content = terminated (lines.map restored) ∧
        ∀ j line, lines[j]? = some line → ∀ uri, Mintable line uri → InTime parent now (stamps (i + j)) := by
  induction lines generalizing i content with
  | nil => simp [rewriteLines, Rewrites, terminated]
  | cons line lines ih =>
    simp only [rewriteLines, rewrites_append, line_rewrites_iff accepted, Rewrites, ih]
    constructor
    · rintro ⟨_, _, rfl, ⟨rfl, first⟩, _, rfl, rfl, later⟩
      refine ⟨by simp [terminated], fun j line' at_j => ?_⟩
      cases j with
      | zero =>
        cases at_j
        exact first
      | succ j =>
        rw [show i + (j + 1) = i + 1 + j by omega]
        exact later j line' at_j
    · rintro ⟨rfl, each⟩
      refine ⟨restored line, newline :: terminated (lines.map restored), by simp [terminated], ⟨rfl, each 0 line rfl⟩,
        terminated (lines.map restored), rfl, rfl, fun j line' at_j => ?_⟩
      rw [show i + 1 + j = i + (j + 1) by omega]
      exact each (j + 1) line' at_j

end Lines

/-! ## Playlists -/

theorem restored_within (line : List UInt8) : restored line <:+: line := by
  rw [restored]
  split
  · exact trimSpace_within line
  · exact List.infix_rfl

/-- What a delivered line is restored to is the line of the file exactly if nothing was cut off. -/
theorem restored_dropCR_iff {line : List UInt8} : restored (dropCR line) = line ↔
    line.getLast? ≠ some carriageReturn ∧ (Bare line → validMediaPath (latin (trimSpace line)) = true → trimSpace line = line) := by
  constructor
  · intro same
    have whole : dropCR line = line := by
      refine (dropCR_front line).eq_of_length (Nat.le_antisymm (dropCR_front line).length_le ?_)
      rw [← congrArg List.length same]
      exact (restored_within _).length_le
    refine ⟨dropCR_eq_self_iff.mp whole, fun bare valid => ?_⟩
    rw [whole, restored, if_pos ⟨bare, valid⟩] at same
    exact same
  · rintro ⟨ends, unpadded⟩
    rw [dropCR_eq_self_iff.mpr ends, restored]
    split
    · rename_i minted
      exact unpadded minted.1 minted.2
    · rfl

/-- The lines that were delivered make up the file exactly if it is plain. -/
theorem content_iff {content : List UInt8} (fits : tooLong bufferSize content = false) :
    content = terminated ((scanned bufferSize content).map restored) ↔ Plain content := by
  obtain ⟨plainLines, plainTail⟩ := newline_notMem_splitLines content
  rw [scanned_of_not_tooLong fits, List.map_map]
  constructor
  · intro same
    have plain : ∀ line ∈ (rawLines content).map (restored ∘ dropCR), newline ∉ line := by
      intro line held
      obtain ⟨raw, inside, rfl⟩ := List.mem_map.mp held
      exact fun there => newline_notMem_rawLines inside ((dropCR_front raw).subset ((restored_within _).subset there))
    obtain ⟨lines, ended⟩ := terminated_inj plain plainLines plainTail (same.symm.trans (splitLines_join content).symm)
    rw [rawLines, if_pos ended, List.append_nil] at lines
    have each : ∀ line ∈ (splitLines content).1, restored (dropCR line) = line := by
      have mapped : (splitLines content).1.map (restored ∘ dropCR) = (splitLines content).1.map id := by rw [lines, List.map_id]
      exact List.map_inj_left.mp mapped
    exact ⟨ended, fun line held => (restored_dropCR_iff.mp (each line held)).1,
      fun line held => (restored_dropCR_iff.mp (each line held)).2⟩
  · rintro ⟨ended, newlines, unpadded⟩
    have each : (splitLines content).1.map (restored ∘ dropCR) = (splitLines content).1 := by
      conv_rhs => rw [← List.map_id (splitLines content).1]
      exact List.map_congr_left fun line held => restored_dropCR_iff.mpr ⟨newlines line held, unpadded line held⟩
    have join := splitLines_join content
    rw [ended, List.append_nil] at join
    rw [rawLines, if_pos ended, List.append_nil, each, join]

/-- Without carriage returns the delivered lines are those of the file. -/
theorem scanned_plain {content : List UInt8} (fits : tooLong bufferSize content = false) (plain : Plain content) :
    scanned bufferSize content = (splitLines content).1 := by
  rw [scanned_of_not_tooLong fits, rawLines, if_pos plain.ended, List.append_nil]
  conv_rhs => rw [← List.map_id (splitLines content).1]
  exact List.map_congr_left fun line held => dropCR_eq_self_iff.mpr (plain.newlines line held)

theorem served_of_fits {cfg : Config} {parent : MediaClaims} {content : List UInt8} {now : Int} {stamps : Nat → Stamp}
    (fits : tooLong bufferSize content = false) : serveRewrittenM3U8 cfg parent (some content) now stamps =
      .playlist "application/vnd.apple.mpegurl" "no-store, private"
        (rewriteLines cfg parent (childTTL parent now) stamps 0 (scanned bufferSize content)) := by
  simp only [serveRewrittenM3U8, fits, Bool.false_eq_true, if_false]

/-- A playlist that is served is the file with tokens for its URIs, none of them with more than
the authority of the parent, exactly if the file is plain and each token is minted in time. -/
theorem rewritten_iff {cfg : Config} {token : Token} {accepted : Int} {parent : MediaClaims}
    (parsed : parseMediaToken token cfg.jwtSecret accepted = .ok parent) (content : List UInt8) (now : Int) (stamps : Nat → Stamp) :
    (∀ contentType cacheControl out, serveRewrittenM3U8 cfg parent (some content) now stamps =
        .playlist contentType cacheControl out → Rewrites cfg.jwtSecret parent out content) ↔
      tooLong bufferSize content = true ∨ (Plain content ∧ ∀ i line uri, (splitLines content).1[i]? = some line →
        Mintable line uri → InTime parent now (stamps i)) := by
  have relied := accepted_of_parsed parsed
  cases fits : tooLong bufferSize content with
  | true =>
    refine ⟨fun _ => .inl rfl, fun _ contentType cacheControl out served => ?_⟩
    simp only [serveRewrittenM3U8, fits, if_true] at served
    cases served
  | false =>
    have served := @served_of_fits cfg parent content now stamps fits
    have exactly := lines_rewrites_iff relied (scanned bufferSize content) now stamps 0 content
    rw [content_iff fits] at exactly
    simp only [Nat.zero_add] at exactly
    constructor
    · intro faithful
      obtain ⟨plain, timely⟩ := exactly.mp (faithful _ _ _ served)
      rw [scanned_plain fits plain] at timely
      exact .inr ⟨plain, fun i line uri at_i mintable => timely i line at_i uri mintable⟩
    · rintro (tooLong | ⟨plain, timely⟩) contentType cacheControl out answer
      · cases tooLong
      · rw [served] at answer
        cases answer
        refine exactly.mpr ⟨plain, fun i line at_i uri mintable => ?_⟩
        rw [scanned_plain fits plain] at at_i
        exact timely i line uri at_i mintable

/-- The parent of the playlists below, good for five minutes from time zero. -/
private def liveStamp : Stamp := ⟨⟨7⟩, 0, 0⟩

private def liveConfig : Config := ⟨"", "/hls", "swordfish"⟩

private def live : MediaClaims := linkClaims "4f0c" "c1" "hls" "live.m3u8" defaultMediaTTL liveStamp

private theorem live_parsed : parseMediaToken (.signed "swordfish" live.encode) liveConfig.jwtSecret 0 = .ok live :=
  parse_link (by decide) (by decide) (by decide) (by decide) (by decide) (by decide)

/-- `#EXTM3U` and `a.ts`, each with a newline. -/
private def twoLines : List UInt8 := [35, 69, 88, 84, 77, 51, 85, 10, 97, 46, 116, 115, 10]

/-- The tag stays and the name of the segment is signed. -/
theorem two_lines_faithful : Rewrites liveConfig.jwtSecret live
    (rewriteLines liveConfig live (childTTL live 0) (fun _ => liveStamp) 0 (scanned bufferSize twoLines)) twoLines := by
  refine (rewritten_iff live_parsed twoLines 0 fun _ => liveStamp).mpr (.inr ⟨⟨by decide, by decide, by decide⟩, ?_⟩) _ _ _
    (served_of_fits (by decide))
  rintro _ _ _ _ _ limit ⟨⟩
  decide

/-- A carriage return at the end of a tag line is lost. -/
theorem carriage_return_lost : parseMediaToken (.signed "swordfish" live.encode) liveConfig.jwtSecret 0 = .ok live ∧
    live.kind = "hls" ∧ ∃ contentType cacheControl out,
      serveRewrittenM3U8 liveConfig live (some [35, 69, 88, 84, 77, 51, 85, 13, 10]) 0 (fun _ => liveStamp) =
        .playlist contentType cacheControl out ∧
      ¬ Rewrites liveConfig.jwtSecret live out [35, 69, 88, 84, 77, 51, 85, 13, 10] := by
  refine ⟨live_parsed, rfl, "application/vnd.apple.mpegurl", "no-store, private", [.bytes [35, 69, 88, 84, 77, 51, 85], .bytes [10]], by decide, ?_⟩
  rintro ⟨_, same, _, rfl, rfl⟩
  exact absurd same (by decide)

end Ironsight.SignedPlaylists
