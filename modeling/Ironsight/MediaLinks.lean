import Ironsight.CleanPaths
import Ironsight.SegmentNames
import Ironsight.TokensProofs

/-! Signed links to recorded media. A link carries the last element of a stored path; the
directory is put together again from the configuration and the camera of the token. -/
namespace Ironsight.MediaLinks
open Uuid Paths CleanPaths Tokens SegmentNames

/-- The fields of `config.Config` that the media routes read. -/
structure Config where
  storagePath : String
  hlsPath : String
  jwtSecret : String
  deriving DecidableEq

/-! ## From a path to a link -/

/-- `DefaultMediaTTL`. -/
def defaultMediaTTL : Int := 300 * second

/-- `/media/v1/<token>`, and the seconds and tenths behind `#t=`. -/
structure PlaybackURL where
  token : Token
  seek : Option (Int × Nat)
  deriving DecidableEq

/-- What follows the last backslash or slash. -/
def afterSeparators (name : String) : String :=
  String.ofList (name.toList.reverse.takeWhile fun c => c ≠ '\\' ∧ c ≠ '/').reverse

/-- `MintSegmentPlaybackURL`; no URL is the empty one. `tenths` is the first digit of a
fraction of a second, which the code reads off a floating point number. -/
def mintSegmentPlaybackURL (cfg : Config) (tenths : Int → Nat) (userID cameraID segFilePath : String)
    (segStart eventTime : Int) (stamp : Stamp) : Option PlaybackURL :=
  if segFilePath = "" then none
  else
    let leaf := afterSeparators (base segFilePath)
    match signMediaToken userID cameraID "segment" leaf cfg.jwtSecret defaultMediaTTL stamp with
    | .error _ => none
    | .ok token =>
      let offset := eventTime - segStart
      some { token, seek := if 0 < offset ∧ offset < 7200 * second then some (offset / second, tenths offset) else none }

/-! ## From a token to a path -/

/-- The directory of a kind of media, above the cameras' own; none is a kind that is not
served or a path that is not configured. -/
def mediaRoot (cfg : Config) (kind : String) : Option String :=
  if kind = "segment" then if cfg.storagePath = "" then none else some cfg.storagePath
  else if kind = "hls" then if cfg.hlsPath = "" then none else some cfg.hlsPath
  else if kind = "snapshot" then if cfg.storagePath = "" then none else some (join [dir cfg.storagePath, "snapshots"])
  else none

/-- `resolveMediaPath`: the file that a token names, or nothing outside the root of its kind. -/
def resolveMediaPath (cfg : Config) (claims : MediaClaims) : Option String :=
  let leaf := base claims.path
  if leaf ≠ claims.path then none else (mediaRoot cfg claims.kind).map fun directory => join [directory, claims.cameraID, leaf]

/-! ## Stored paths -/

/-- Who wrote a row: the watcher of FFmpeg's files, the Go recorder or `writeClip`. -/
inductive Writer where
  | continuous (name : String)
  | gort (stamp : String)
  | clip (eventType stamp : String)
  deriving DecidableEq

/-- The last element of the path that a writer joins to the camera's directory. -/
def Writer.name : Writer → String
  | .continuous name => name
  | .gort stamp => "seg_" ++ stamp ++ ".mp4"
  | .clip eventType stamp => "clip_" ++ eventType ++ "_" ++ stamp

/-- `writeClip` makes a directory of that path and copies the ring's files into it. -/
def Writer.isDir : Writer → Bool
  | .clip _ _ => true
  | _ => false

/-- The watcher takes names of a directory listing, and a formatted time has no slash. -/
def Writer.Names : Writer → Prop
  | .continuous name => isSegmentName name = true ∧ '/' ∉ name.toList
  | .gort stamp => '/' ∉ stamp.toList
  | .clip _ _ => True

/-- A row of `segments`: `storagePath` is the one configured when the recorder started. -/
structure Row where
  storagePath : String
  cameraID : UUID
  writer : Writer
  deriving DecidableEq

/-- `outputDir` of a recorder. -/
def Row.outputDir (row : Row) : String := join [row.storagePath, row.cameraID.text]

/-- Where the recorder put the file. -/
def Row.filePath (row : Row) : String := join [row.outputDir, row.writer.name]

/-! ## What the links promise -/

/-- There is a URL, and its token resolves to the stored path as long as it is valid, which
names a regular file. -/
def Playable (cfg : Config) (tenths : Int → Nat) (userID : String) (row : Row) (segStart eventTime : Int) (stamp : Stamp) :
    Prop :=
  row.writer.isDir = false ∧ ∃ url, mintSegmentPlaybackURL cfg tenths userID row.cameraID.text row.filePath segStart eventTime stamp =
    some url ∧ ∀ now : Int, now < numericDate (stamp.expiryClock + defaultMediaTTL) * second →
      ∃ claims, parseMediaToken url.token cfg.jwtSecret now = .ok claims ∧ resolveMediaPath cfg claims = some row.filePath

/-- The path is an entry of the directory. -/
def DirectlyInside (path directory : String) : Prop := ∃ name, place path = (place directory).child name

/-! ## Camera ids -/

private theorem readDigits_place {bytes : List UInt8} {positions : List Nat} {id : UUID} (read : readDigits bytes positions = some id)
    {i : Nat} (listed : i ∈ positions) : bytes[i]? ≠ some 47 := by
  unfold readDigits at read
  obtain ⟨digits, mapped, -⟩ := Option.map_eq_some_iff.mp read
  clear read
  intro slash
  induction positions generalizing digits with
  | nil => exact absurd listed List.not_mem_nil
  | cons first rest ih =>
    rw [List.mapM_cons] at mapped
    obtain ⟨digit, one, mapped⟩ := Option.bind_eq_some_iff.mp mapped
    obtain ⟨others, more, -⟩ := Option.bind_eq_some_iff.mp mapped
    rcases List.mem_cons.mp listed with rfl | later
    · rw [slash] at one
      cases one
    · exact ih later others more

private theorem readHyphenated_place {bytes : List UInt8} {id : UUID} (read : readHyphenated bytes = some id) {i : Nat}
    (early : i < 36) : bytes[i]? ≠ some 47 := by
  unfold readHyphenated at read
  split at read
  · rename_i hyphens
    intro slash
    by_cases listed : i ≠ 8 ∧ i ≠ 13 ∧ i ≠ 18 ∧ i ≠ 23
    · exact readDigits_place read (List.mem_filter.mpr ⟨List.mem_range.mpr early, by simpa using listed⟩) slash
    · obtain ⟨eighth, thirteenth, eighteenth, last⟩ := hyphens
      have place : i = 8 ∨ i = 13 ∨ i = 18 ∨ i = 23 := by omega
      rcases place with rfl | rfl | rfl | rfl
      · exact absurd (slash.symm.trans eighth) (by decide)
      · exact absurd (slash.symm.trans thirteenth) (by decide)
      · exact absurd (slash.symm.trans eighteenth) (by decide)
      · exact absurd (slash.symm.trans last) (by decide)
  · cases read

/-- In a text that `uuid.Parse` reads, a slash stands at one of the ends if anywhere. -/
private theorem parse_place {text : String} {id : UUID} (read : parse text = some id) :
    32 ≤ text.toUTF8.data.toList.length ∧
      ∀ i, text.toUTF8.data.toList[i]? = some 47 → i = 0 ∨ i + 1 = text.toUTF8.data.toList.length := by
  unfold parse at read
  generalize text.toUTF8.data.toList = bytes at read ⊢
  dsimp only at read
  split at read
  · rename_i long
    exact ⟨by omega, fun i slash => absurd slash (readHyphenated_place read (by
      have bound := (List.getElem?_eq_some_iff.mp slash).1
      omega))⟩
  · rename_i long
    split at read
    · rename_i urn
      refine ⟨by omega, fun i slash => ?_⟩
      have bound := (List.getElem?_eq_some_iff.mp slash).1
      by_cases front : i < 9
      · have lowered : ((bytes.take 9).map lower)[i]? = some 47 := by
          rw [List.getElem?_map, List.getElem?_take_of_lt front, slash]
          rfl
        rw [urn] at lowered
        exact absurd (List.mem_of_getElem? lowered) (by decide)
      · have behind : (bytes.drop 9)[i - 9]? = some 47 := by
          rw [List.getElem?_drop, show 9 + (i - 9) = i by omega, slash]
        exact absurd behind (readHyphenated_place read (by omega))
    · cases read
  · rename_i long
    refine ⟨by omega, fun i slash => ?_⟩
    have bound := (List.getElem?_eq_some_iff.mp slash).1
    by_cases ends : i = 0 ∨ i + 1 = 38
    · omega
    · have behind : (bytes.drop 1)[i - 1]? = some 47 := by
        rw [List.getElem?_drop, show 1 + (i - 1) = i by omega, slash]
      exact absurd behind (readHyphenated_place read (by omega))
  · rename_i long
    exact ⟨by omega, fun i slash => absurd slash (readDigits_place read (List.mem_range.mpr (by
      have bound := (List.getElem?_eq_some_iff.mp slash).1
      omega)))⟩
  · cases read

private theorem bytes_append (before : List Char) (rest : List Char) :
    (String.ofList (before ++ '/' :: rest)).toUTF8.data.toList =
      (String.ofList before).toUTF8.data.toList ++ 47 :: (String.ofList rest).toUTF8.data.toList := by
  have slash : String.utf8EncodeChar '/' = [47] := by decide
  simp [String.toUTF8, String.ofList, List.utf8Encode, slash]

private theorem bytes_nil {text : List Char} : (String.ofList text).toUTF8.data.toList = [] ↔ text = [] := by
  cases text with
  | nil => simp
  | cons c rest =>
    have some_bytes : String.utf8EncodeChar c ≠ [] := List.ne_nil_of_length_pos (by
      rw [String.length_utf8EncodeChar]
      exact c.utf8Size_pos)
    simp [String.toUTF8, String.ofList, List.utf8Encode, some_bytes]

private theorem bytes_length (text : List Char) : (String.ofList text).toUTF8.data.toList.length ≤ 4 * text.length := by
  induction text with
  | nil => simp
  | cons c rest ih =>
    have size := c.utf8Size_le_four
    have whole : (String.ofList (c :: rest)).toUTF8.data.toList =
        String.utf8EncodeChar c ++ (String.ofList rest).toUTF8.data.toList := by
      simp [String.toUTF8, String.ofList, List.utf8Encode]
    rw [whole, List.length_append, String.length_utf8EncodeChar, List.length_cons]
    omega

/-- Long text with a slash at its ends at most is one component. -/
private theorem one_component {chars : List Char} (many : 8 ≤ chars.length)
    (ends : ∀ before rest, chars = before ++ '/' :: rest → before = [] ∨ rest = []) :
    ∃ name, components chars = [name] ∧ Plain name := by
  have opened : ∃ body, components chars = components body ∧ 7 ≤ body.length ∧
      ∀ before rest, body = before ++ '/' :: rest → before = [] := by
    obtain ⟨front, last, rfl⟩ := List.eq_nil_or_concat chars |>.resolve_left (by rintro rfl; simp at many)
    rw [List.concat_eq_append] at many ends ⊢
    by_cases slash : last = '/'
    · subst slash
      refine ⟨front, by simp [components_append, components], by simpa using many, fun before rest split => ?_⟩
      exact (ends before (rest ++ ['/']) (by rw [split]; simp)).resolve_right (by simp)
    · refine ⟨front ++ [last], rfl, by omega, fun before rest split => ?_⟩
      refine (ends before rest split).resolve_right ?_
      rintro rfl
      exact slash (List.cons.inj (List.append_inj' split rfl).2).1
  obtain ⟨body, same, many, front⟩ := opened
  have closed : ∃ name, components body = components name ∧ 6 ≤ name.length ∧ '/' ∉ name := by
    obtain ⟨c, rest, rfl⟩ := List.exists_cons_of_ne_nil (List.ne_nil_of_length_pos (by omega : 0 < body.length))
    by_cases slash : c = '/'
    · refine ⟨rest, by rw [components, if_pos slash], by simpa using many, fun member => ?_⟩
      obtain ⟨before, after, rfl⟩ := List.append_of_mem member
      exact absurd (front (c :: before) after rfl) (List.cons_ne_nil c before)
    · refine ⟨c :: rest, rfl, by omega, fun member => ?_⟩
      obtain ⟨before, after, split⟩ := List.append_of_mem member
      rw [front before after split] at split
      exact slash (List.cons.inj split).1
  obtain ⟨name, alike, many, plain⟩ := closed
  have given : name ≠ [] := List.ne_nil_of_length_pos (by omega)
  refine ⟨name, by rw [same, alike, components_name given plain], given, plain, ?_, ?_⟩
  · rintro rfl
    exact absurd many (by decide)
  · rintro rfl
    exact absurd many (by decide)

/-- The text of a camera id is one plain name, with a slash before or behind it at most. -/
theorem parse_components {text : String} {id : UUID} (read : parse text = some id) :
    ∃ name, components text.toList = [name] ∧ Plain name := by
  obtain ⟨long, places⟩ := parse_place read
  have whole : String.ofList text.toList = text := String.ofList_toList
  have many : 8 ≤ text.toList.length := by
    have bound := bytes_length text.toList
    rw [whole] at bound
    omega
  have ends (before rest : List Char) (split : text.toList = before ++ '/' :: rest) : before = [] ∨ rest = [] := by
    rw [← whole, split, bytes_append] at places
    have slash := places (String.ofList before).toUTF8.data.toList.length (by simp)
    rw [List.length_append, List.length_cons] at slash
    rcases slash with first | last
    · exact .inl (bytes_nil.mp (List.length_eq_zero_iff.mp first))
    · exact .inr (bytes_nil.mp (List.length_eq_zero_iff.mp (by omega)))
  exact one_component many ends

theorem slash_notMem_text (id : UUID) : '/' ∉ id.text.toList := by
  have digit {n : Nat} (small : n < 16) : hexDigit n ≠ '/' := by
    revert n
    decide
  have digits (c : Char) (member : c ∈ id.digits) : c ≠ '/' := by
    obtain ⟨i, -, rfl⟩ := List.mem_map.mp member
    exact digit (Nat.mod_lt _ (by decide))
  unfold UUID.text
  simp only [String.toList_ofList, List.mem_append, List.mem_cons, not_or]
  have taken {n m : Nat} : '/' ∉ (id.digits.drop n).take m := fun member =>
    digits '/' (List.mem_of_mem_drop (List.mem_of_mem_take member)) rfl
  have first : '/' ∉ id.digits.take 8 := fun member => digits '/' (List.mem_of_mem_take member) rfl
  have last : '/' ∉ id.digits.drop 20 := fun member => digits '/' (List.mem_of_mem_drop member) rfl
  exact ⟨⟨⟨⟨first, by decide, taken⟩, by decide, taken⟩, by decide, taken⟩, by decide, last⟩

theorem plain_text (id : UUID) : Plain id.text.toList := by
  obtain ⟨name, only, plain⟩ := parse_components (parse_text id)
  have given : id.text.toList ≠ [] := by
    intro none
    rw [none] at only
    cases only
  rw [components_name given (slash_notMem_text id)] at only
  obtain ⟨rfl, -⟩ := List.cons.inj only
  exact plain

/-! ## Leaves -/

theorem mediaPathChar_ne {c : Char} (allowed : mediaPathChar c = true) : c ≠ '/' ∧ c ≠ '\\' := by
  constructor
  · rintro rfl
    exact absurd allowed (by decide)
  · rintro rfl
    exact absurd allowed (by decide)

/-- What the allow-list takes is a plain name. -/
theorem plain_of_valid {name : String} (valid : validMediaPath name = true) :
    Plain name.toList ∧ '\\' ∉ name.toList := by
  obtain ⟨given, -, dot, dots, chars, -⟩ := of_decide_eq_true valid
  have all := List.all_eq_true.mp chars
  have texts (other : String) (differs : name ≠ other) : name.toList ≠ other.toList :=
    fun same => differs (String.toList_injective same)
  exact ⟨⟨texts "" given, fun member => (mediaPathChar_ne (all _ member)).1 rfl, texts "." dot, texts ".." dots⟩,
    fun member => (mediaPathChar_ne (all _ member)).2 rfl⟩

theorem base_plain {name : String} (plain : Plain name.toList) : base name = name := by
  have last := @base_render false [] name.toList plain.given plain.closed
  have text : render false [name.toList] = name := by
    simp [render]
  rw [List.nil_append, text, String.ofList_toList] at last
  exact last

theorem afterSeparators_eq {name : String} (plain : Plain name.toList) (other : '\\' ∉ name.toList) :
    afterSeparators name = name := by
  have all : name.toList.reverse.takeWhile (fun c => decide (c ≠ '\\' ∧ c ≠ '/')) = name.toList.reverse := by
    refine List.takeWhile_eq_self_iff.mpr fun c member => ?_
    rw [List.mem_reverse] at member
    simp only [decide_eq_true_eq]
    exact ⟨fun same => other (same ▸ member), fun same => plain.closed (same ▸ member)⟩
  rw [afterSeparators, all, List.reverse_reverse, String.ofList_toList]

/-- The recorders' own names. -/
theorem plain_name {writer : Writer} (names : writer.Names) (file : writer.isDir = false) :
    Plain writer.name.toList := by
  have plain {name : List Char} (ending : ".mp4".toList <:+ name) (closed : '/' ∉ name) : Plain name := by
    have long := ending.length_le
    refine ⟨List.ne_nil_of_length_pos (by simp at long; omega), closed, ?_, ?_⟩ <;>
      · rintro rfl
        exact absurd long (by decide)
  cases writer with
  | continuous name =>
    obtain ⟨named, closed⟩ := names
    obtain ⟨suffix, -⟩ := of_decide_eq_true named
    exact plain (List.isSuffixOf_iff_suffix.mp suffix) closed
  | gort stamp =>
    have closed : '/' ∉ stamp.toList := names
    refine plain ⟨"seg_".toList ++ stamp.toList, by simp [Writer.name]⟩ ?_
    simp [Writer.name, closed]
  | clip _ _ => cases file

theorem filePath_eq {row : Row} (plain : Plain row.writer.name.toList) : row.filePath =
    render (rooted row.storagePath) (kept row.storagePath ++ [row.cameraID.text.toList, row.writer.name.toList]) := by
  have outer : row.outputDir = render (rooted row.storagePath) (kept row.storagePath ++ [row.cameraID.text.toList]) :=
    join_plain row.storagePath (by simpa using plain_text row.cameraID)
  have again := @kept_render row.storagePath [row.cameraID.text.toList] (by simpa using plain_text row.cameraID) (by simp)
  rw [← outer] at again
  rw [Row.filePath, join_plain row.outputDir (by simpa using plain), again.1, again.2]
  simp

/-! ## Tokens -/

theorem decode_encode (userID cameraID path kind issuer : String) (stamp : Stamp) (lifetime : Int) :
    MediaClaims.decode (MediaClaims.encode ⟨userID, cameraID, path, kind, stamp.registered issuer lifetime⟩) =
      some ⟨userID, cameraID, path, kind, stamp.registered issuer lifetime⟩ := by
  simp [MediaClaims.decode, RegisteredClaims.decodeRest, MediaClaims.encode, RegisteredClaims.encodeRest, Payload.text,
    Payload.date, Stamp.registered, List.lookup_append]

/-- The claims that a media token is signed with. -/
def linkClaims (userID cameraID kind path : String) (ttl : Int) (stamp : Stamp) : MediaClaims :=
  ⟨userID, cameraID, path, kind, stamp.registered mediaTokenIssuer (clamp ttl)⟩

section Links
variable {userID cameraID kind path secret : String} {ttl : Int} {stamp : Stamp} (given : secret ≠ "") (named : cameraID ≠ "")
  (known : mediaKindIsValid kind = true)
include given named known

theorem sign_link {token : Token} : signMediaToken userID cameraID kind path secret ttl stamp = .ok token ↔
    userID ≠ "" ∧ validMediaPath path = true ∧ token = .signed secret (linkClaims userID cameraID kind path ttl stamp).encode := by
  unfold signMediaToken
  rw [if_neg given]
  by_cases anonymous : userID = ""
  · simp [anonymous]
  · by_cases valid : validMediaPath path = true
    · simp [anonymous, named, known, valid, linkClaims, eq_comm]
    · simp [anonymous, named, known, valid]

/-- Within its lifetime a media token reads back as what was signed. -/
theorem parse_link {now : Int} (user : userID ≠ "") (valid : validMediaPath path = true)
    (early : now < numericDate (stamp.expiryClock + clamp ttl) * second) :
    parseMediaToken (.signed secret (linkClaims userID cameraID kind path ttl stamp).encode) secret now =
      .ok (linkClaims userID cameraID kind path ttl stamp) := by
  have expiry : (linkClaims userID cameraID kind path ttl stamp).encode.date "exp" =
      some (some (numericDate (stamp.expiryClock + clamp ttl))) := by
    simp [linkClaims, MediaClaims.encode, RegisteredClaims.encodeRest, Payload.date, Stamp.registered,
      TokensProofs.lookup_always, List.lookup_append]
  have fresh : verified secret now (.signed secret (linkClaims userID cameraID kind path ttl stamp).encode) =
      some (linkClaims userID cameraID kind path ttl stamp).encode := by
    have early : now < numericDate (stamp.expiryClock + clamp ttl) * 1000000000 := early
    simp [verified, expiry, early]
  have read : MediaClaims.decode (linkClaims userID cameraID kind path ttl stamp).encode =
      some (linkClaims userID cameraID kind path ttl stamp) := decode_encode ..
  simp only [parseMediaToken, given, if_false, fresh, Option.bind_some, read]
  simp [linkClaims, Stamp.registered, known, valid, user, named]

end Links

/-- The claims that a link of a segment is signed with. -/
def segmentClaims (userID cameraID path : String) (stamp : Stamp) : MediaClaims :=
  ⟨userID, cameraID, path, "segment", stamp.registered mediaTokenIssuer (clamp defaultMediaTTL)⟩

theorem sign_segment {userID cameraID path secret : String} {stamp : Stamp} (given : secret ≠ "") (named : cameraID ≠ "")
    {token : Token} : signMediaToken userID cameraID "segment" path secret defaultMediaTTL stamp = .ok token ↔
      userID ≠ "" ∧ validMediaPath path = true ∧ token = .signed secret (segmentClaims userID cameraID path stamp).encode :=
  sign_link given named (by decide)

/-- Within its lifetime a signed link reads back as what was signed. -/
theorem parse_segment {userID cameraID path secret : String} {stamp : Stamp} {now : Int} (given : secret ≠ "")
    (named : cameraID ≠ "") (user : userID ≠ "") (valid : validMediaPath path = true)
    (early : now < numericDate (stamp.expiryClock + defaultMediaTTL) * second) :
    parseMediaToken (.signed secret (segmentClaims userID cameraID path stamp).encode) secret now =
      .ok (segmentClaims userID cameraID path stamp) :=
  parse_link given named (by decide) user valid early

/-! ## Playable rows -/

theorem resolve_segment {cfg : Config} {userID cameraID path : String} {stamp : Stamp} (plain : Plain path.toList) :
    resolveMediaPath cfg (segmentClaims userID cameraID path stamp) =
      if cfg.storagePath = "" then none else some (join [cfg.storagePath, cameraID, path]) := by
  have leaf : base path = path := base_plain plain
  simp only [resolveMediaPath, segmentClaims, leaf]
  by_cases empty : cfg.storagePath = "" <;> simp [mediaRoot, empty]

/-- Two paths of plain names behind two directories are one path exactly when the
directories are and the names are. -/
theorem join_inj {first second : String} {cameraID : UUID} {leaf name : String} (leafPlain : Plain leaf.toList)
    (namePlain : Plain name.toList) : join [first, cameraID.text, leaf] =
      render (rooted second) (kept second ++ [cameraID.text.toList, name.toList]) ↔ clean first = clean second ∧ leaf = name := by
  have camera := plain_text cameraID
  have joined : join [first, cameraID.text, leaf] =
      render (rooted first) (kept first ++ [cameraID.text.toList, leaf.toList]) :=
    join_plain first (by simp [camera, leafPlain])
  have named (path : String) {last : List Char} (plain : Plain last) :
      ∀ name ∈ kept path ++ [cameraID.text.toList, last], name ≠ [] ∧ '/' ∉ name ∧ name ≠ ['.'] := by
    intro name member
    simp only [List.mem_append, List.mem_cons, List.not_mem_nil, or_false] at member
    rcases member with old | rfl | rfl
    · exact kept_named path name old
    · exact ⟨camera.given, camera.closed, camera.other.1⟩
    · exact ⟨plain.given, plain.closed, plain.other.1⟩
  rw [joined, render_inj (named first leafPlain) (named second namePlain), clean_inj]
  constructor
  · rintro ⟨roots, all⟩
    obtain ⟨directories, names⟩ := List.append_inj' all rfl
    simp only [List.cons.injEq, true_and, and_true] at names
    exact ⟨⟨roots, directories⟩, String.toList_injective names⟩
  · rintro ⟨⟨roots, directories⟩, rfl⟩
    exact ⟨roots, by rw [directories]⟩

private theorem cameraID_given (row : Row) : row.cameraID.text ≠ "" := fun none =>
  (plain_text row.cameraID).given (by rw [none]; rfl)

section File
variable {cfg : Config} {row : Row} {stamp : Stamp} {userID : String}

private theorem base_filePath (plain : Plain row.writer.name.toList) : base row.filePath = row.writer.name := by
  rw [filePath_eq plain, List.append_cons, base_render plain.given plain.closed, String.ofList_toList]

private theorem filePath_given (plain : Plain row.writer.name.toList) : row.filePath ≠ "" := by
  intro none
  have last := base_filePath plain
  rw [none] at last
  have dot : (base "").toList = ['.'] := by decide
  exact plain.other.1 (last ▸ dot)

/-- A minted link carries a token for the last element of the row's path. -/
private theorem token_of_minted (given : cfg.jwtSecret ≠ "") (plain : Plain row.writer.name.toList)
    {tenths : Int → Nat} {segStart eventTime : Int} {url : PlaybackURL}
    (found : mintSegmentPlaybackURL cfg tenths userID row.cameraID.text row.filePath segStart eventTime stamp = some url) :
    userID ≠ "" ∧ validMediaPath (afterSeparators row.writer.name) = true ∧ url.token = .signed cfg.jwtSecret
      (segmentClaims userID row.cameraID.text (afterSeparators row.writer.name) stamp).encode := by
  rw [mintSegmentPlaybackURL, if_neg (filePath_given plain), base_filePath plain] at found
  dsimp only at found
  split at found
  · cases found
  · next token signed =>
    cases found
    exact (sign_segment given (cameraID_given row)).mp signed

/-- A link is minted for a name that the media routes take. -/
private theorem minted_of_valid (given : cfg.jwtSecret ≠ "") (plain : Plain row.writer.name.toList)
    (user : userID ≠ "") (allowed : validMediaPath row.writer.name = true) (tenths : Int → Nat) (segStart eventTime : Int) :
    ∃ url, mintSegmentPlaybackURL cfg tenths userID row.cameraID.text row.filePath segStart eventTime stamp = some url ∧
      url.token = .signed cfg.jwtSecret (segmentClaims userID row.cameraID.text row.writer.name stamp).encode := by
  have leaf : afterSeparators row.writer.name = row.writer.name :=
    afterSeparators_eq plain (plain_of_valid allowed).2
  have signed : signMediaToken userID row.cameraID.text "segment" (afterSeparators row.writer.name) cfg.jwtSecret
      defaultMediaTTL stamp = .ok (.signed cfg.jwtSecret (segmentClaims userID row.cameraID.text row.writer.name stamp).encode) :=
    (sign_segment given (cameraID_given row)).mpr ⟨user, leaf.symm ▸ allowed, by rw [leaf]⟩
  rw [mintSegmentPlaybackURL, if_neg (filePath_given plain), base_filePath plain]
  simp only [signed]
  exact ⟨_, rfl, rfl⟩

/-- What a link resolves to is the row's own file exactly when the directories and the
names agree. -/
private theorem resolve_filePath (plain : Plain row.writer.name.toList) {leaf : String}
    (leafPlain : Plain leaf.toList) :
    resolveMediaPath cfg (segmentClaims userID row.cameraID.text leaf stamp) = some row.filePath ↔
      cfg.storagePath ≠ "" ∧ clean cfg.storagePath = clean row.storagePath ∧ leaf = row.writer.name := by
  rw [resolve_segment leafPlain, filePath_eq plain]
  by_cases configured : cfg.storagePath = ""
  · simp [configured]
  · rw [if_neg configured, Option.some.injEq, join_inj leafPlain plain]
    exact (and_iff_right configured).symm

end File

/-- Under a secret, a row is playable exactly when it is no clip, its file has a name that
the media routes take and the storage path is the one that it was written under. -/
theorem playable_iff {cfg : Config} (given : cfg.jwtSecret ≠ "") (tenths : Int → Nat) (userID : String) {row : Row}
    (names : row.writer.Names) (segStart eventTime : Int) (stamp : Stamp) :
    Playable cfg tenths userID row segStart eventTime stamp ↔
      userID ≠ "" ∧ row.writer.isDir = false ∧ validMediaPath row.writer.name = true ∧
        cfg.storagePath ≠ "" ∧ clean cfg.storagePath = clean row.storagePath := by
  have named := cameraID_given row
  have plain (file : row.writer.isDir = false) := plain_name names file
  constructor
  · rintro ⟨file, url, found, valid⟩
    obtain ⟨user, allowed, token⟩ := token_of_minted given (plain file) found
    obtain ⟨claims, parsed, resolved⟩ := valid (numericDate (stamp.expiryClock + defaultMediaTTL) * second - 1) (by omega)
    rw [token, parse_segment given named user allowed (by omega)] at parsed
    cases parsed
    obtain ⟨configured, same, leaf⟩ := (resolve_filePath (plain file) (plain_of_valid allowed).1).mp resolved
    exact ⟨user, file, leaf ▸ allowed, configured, same⟩
  · rintro ⟨user, file, allowed, configured, same⟩
    obtain ⟨url, found, token⟩ := minted_of_valid given (plain file) user allowed tenths segStart eventTime
    refine ⟨file, url, found, fun now early => ⟨_, token ▸ parse_segment given named user allowed early, ?_⟩⟩
    exact (resolve_filePath (plain file) (plain file)).mpr ⟨configured, same, rfl⟩

/-! ## The camera's own directory -/

private theorem mediaRoot_given {cfg : Config} {kind directory : String} (served : mediaRoot cfg kind = some directory) :
    directory ≠ "" := by
  have snapshots : join [dir cfg.storagePath, "snapshots"] ≠ "" := by
    intro none
    have plain : Plain "snapshots".toList := by decide
    have joined := join_plain (dir cfg.storagePath) (by simpa using plain : ∀ name ∈ ["snapshots"], Plain name.toList)
    have last := @base_render (rooted (dir cfg.storagePath)) (kept (dir cfg.storagePath)) "snapshots".toList plain.given plain.closed
    rw [List.map_cons, List.map_nil, none] at joined
    rw [← joined] at last
    exact absurd last (by decide)
  unfold mediaRoot at served
  split_ifs at served with _ empty _ empty _ empty <;> cases served
  · exact empty
  · exact empty
  · exact snapshots

theorem accepted_path {token : Token} {secret : String} {now : Int} {claims : MediaClaims}
    (accepted : parseMediaToken token secret now = .ok claims) : validMediaPath claims.path = true := by
  unfold parseMediaToken at accepted
  split at accepted
  · cases accepted
  · split at accepted
    · cases accepted
    · split_ifs at accepted with _ _ valid
      cases accepted
      simpa using valid

/-- What an accepted token resolves to lies in the camera's own directory exactly when the
token spells the camera as the directory is named, up to slashes around it. -/
theorem resolved_inside_iff {cfg : Config} {token : Token} {now : Int} {claims : MediaClaims} {id : UUID} {directory path : String}
    (accepted : parseMediaToken token cfg.jwtSecret now = .ok claims) (camera : parse claims.cameraID = some id)
    (served : mediaRoot cfg claims.kind = some directory) (resolved : resolveMediaPath cfg claims = some path) :
    DirectlyInside path (join [directory, id.text]) ↔ components claims.cameraID.toList = [id.text.toList] := by
  have given := mediaRoot_given served
  have leaf := (plain_of_valid (accepted_path accepted)).1
  obtain ⟨spelled, only, plain⟩ := parse_components camera
  have own := plain_text id
  have joined : path = render (rooted directory) (kept directory ++ [spelled, claims.path.toList]) := by
    have same : base claims.path = claims.path := base_plain leaf
    simp only [resolveMediaPath, same, ne_eq, not_true_eq_false, if_false, served, Option.map_some, Option.some.injEq] at resolved
    rw [← resolved]
    refine join_components given ?_ (by simp [plain, leaf])
    simp [only, components_name leaf.given leaf.closed]
  have outer : join [directory, id.text] = render (rooted directory) (kept directory ++ [id.text.toList]) :=
    join_plain directory (by simpa using own)
  have named {names : List (List Char)} (plain : ∀ name ∈ names, Plain name) :
      ∀ name ∈ kept directory ++ names, name ≠ [] ∧ '/' ∉ name := by
    intro name member
    rcases List.mem_append.mp member with old | new
    · exact ⟨(kept_named directory name old).1, (kept_named directory name old).2.1⟩
    · exact ⟨(plain name new).given, (plain name new).closed⟩
  rw [DirectlyInside, joined, outer, place_render (named (by simp [plain, leaf])) (.inl (by simp)),
    place_render (named (by simpa using own)) (.inl (by simp)), only]
  simp only [Place.child, Place.mk.injEq, true_and, List.append_assoc, List.append_cancel_left_eq, List.cons_append,
    List.nil_append, List.cons.injEq, and_true]
  constructor
  · rintro ⟨_, same, -⟩
    exact same
  · exact fun same => ⟨_, same, rfl⟩

/-- A signed link plays the stored file exactly when the row is no clip and the storage path
has stayed, and a token stays in the directory of its camera exactly when it spells the
camera as the code does. -/
theorem link_plays_iff (cfg : Config) (given : cfg.jwtSecret ≠ "") (tenths : Int → Nat) :
    (∀ (userID : String) (row : Row) (segStart eventTime : Int) (stamp : Stamp), row.writer.Names →
      (Playable cfg tenths userID row segStart eventTime stamp ↔
        userID ≠ "" ∧ row.writer.isDir = false ∧ validMediaPath row.writer.name = true ∧
          cfg.storagePath ≠ "" ∧ clean cfg.storagePath = clean row.storagePath)) ∧
      ∀ (token : Token) (now : Int) (claims : MediaClaims) (id : UUID) (directory path : String),
        parseMediaToken token cfg.jwtSecret now = .ok claims → parse claims.cameraID = some id →
          mediaRoot cfg claims.kind = some directory → resolveMediaPath cfg claims = some path →
            (DirectlyInside path (join [directory, id.text]) ↔ components claims.cameraID.toList = [id.text.toList]) :=
  ⟨fun userID _ segStart eventTime stamp names => playable_iff given tenths userID names segStart eventTime stamp,
    fun _ _ _ _ _ _ accepted camera served resolved => resolved_inside_iff accepted camera served resolved⟩

private def lobbyConfig : Config := ⟨"/data/recordings", "/data/hls", "swordfish"⟩

private def lobbyStamp : Stamp := ⟨⟨5⟩, 1750000000500000000, 1750000000500000000⟩

private def lobbyRow : Row := ⟨"/data/recordings/", ⟨10⟩, .gort "20260220_171312"⟩

private def lobbyClip : Row := ⟨"/data/recordings", ⟨10⟩, .clip "intrusion" "20260220_171312"⟩

private def capitals : MediaClaims := segmentClaims "4f0c" "00000000-0000-0000-0000-00000000000A" "a.mp4" lobbyStamp

/-- A recorder's link plays; a token that spells the camera in capitals leads elsewhere. -/
theorem lobby_link_plays : Playable lobbyConfig (fun _ => 0) "4f0c" lobbyRow 0 1500000000 lobbyStamp ∧
    ¬ DirectlyInside "/data/recordings/00000000-0000-0000-0000-00000000000A/a.mp4"
      (join ["/data/recordings", (⟨10⟩ : UUID).text]) := by
  obtain ⟨rows, tokens⟩ := link_plays_iff lobbyConfig (by decide) (fun _ => 0)
  have names : lobbyRow.writer.Names := show '/' ∉ "20260220_171312".toList by decide
  constructor
  · exact (rows "4f0c" lobbyRow 0 1500000000 lobbyStamp names).mpr ⟨by decide, rfl, by decide, by decide, by decide⟩
  · rw [tokens (.signed "swordfish" capitals.encode) 1750000100000000000 capitals ⟨10⟩ "/data/recordings" _
      (parse_segment (by decide) (by decide) (by decide) (by decide) (by decide)) (by decide +kernel) rfl (by decide +kernel)]
    decide +kernel

/-- The link of a clip is minted and resolves to the clip's directory. -/
theorem clip_link_does_not_play :
    lobbyClip.writer.Names ∧ lobbyConfig.jwtSecret ≠ "" ∧ lobbyConfig.storagePath = lobbyClip.storagePath ∧
    (mintSegmentPlaybackURL lobbyConfig (fun _ => 0) "4f0c" lobbyClip.cameraID.text lobbyClip.filePath 0 0 lobbyStamp).isSome = true ∧
      resolveMediaPath lobbyConfig (segmentClaims "4f0c" lobbyClip.cameraID.text lobbyClip.writer.name lobbyStamp) =
        some lobbyClip.filePath ∧
        ¬ Playable lobbyConfig (fun _ => 0) "4f0c" lobbyClip 0 0 lobbyStamp := by
  have given : lobbyConfig.jwtSecret ≠ "" := by decide
  have valid : validMediaPath lobbyClip.writer.name = true := by decide
  obtain ⟨plain, -⟩ := plain_of_valid valid
  have user : "4f0c" ≠ "" := by decide
  obtain ⟨url, minted, -⟩ := minted_of_valid given plain user valid (fun _ => 0) 0 0
  refine ⟨trivial, given, rfl, by rw [minted]; rfl, ?_, fun ⟨file, _⟩ => Bool.noConfusion file⟩
  exact (resolve_filePath plain plain).mpr ⟨by decide, rfl, rfl⟩

end Ironsight.MediaLinks
