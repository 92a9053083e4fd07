import Mathlib.Data.Prod.Lex
import Ironsight.EventMessages
import Ironsight.EventQuery
import Ironsight.RankedRows
import Ironsight.RuleSets

/-! The search page. Described recordings and alarms are asked for separately, fifty rows of
each; the violation filter works on what the statements deliver, and the answer is sorted by a
hand-written exchange sort. -/
namespace Ironsight.FrameSearch
open Tables Uuid Access RankedRows JsonReader
open EventMessages (contains)
open EventQuery (ilike)
open Manifests (timestamptz storable inTimestamps)
open Reanalysis (zeroTime)
open RuleSets (numberValue)
open Soc (Millis)

/-! ## Requests and rows -/

structure DateRange where
  startText : String
  endText : String

structure TimeOfDay where
  startText : String
  endText : String

/-- `SearchFiltersRequest`. -/
structure SearchFiltersRequest where
  query : String := ""
  violationTypes : List String := []
  siteIDs : List String := []
  dateRange : Option DateRange := none
  confidenceMin : Rat := 0
  timeOfDay : Option TimeOfDay := none
  model : String := ""

/-- The columns of `segment_descriptions` that are read; `detections` is the text of the column. -/
structure DescriptionRow where
  segmentID : Int
  cameraID : UUID
  description : String
  tags : List String
  detections : String
  deriving DecidableEq

structure SegmentRow where
  id : Int
  startTime : Instant
  endTime : Instant
  filePath : String
  deriving DecidableEq

/-- The columns of `active_alarms` that are read; a number is one without rounding. -/
structure AlarmRow where
  id : String
  cameraID : String
  cameraName : String
  siteID : String
  siteName : String
  ts : Millis
  type : String
  description : String
  aiDescription : Option String
  aiPpeViolations : Option String
  aiDetections : Option String
  snapshotURL : Option String
  clipURL : Option String
  aiFalsePositivePct : Option Rat
  deriving DecidableEq

structure Database extends Directory where
  descriptions : Table DescriptionRow.segmentID
  segments : Table SegmentRow.id
  alarms : Table AlarmRow.id

/-- A described recording with its joins. -/
structure DescribedSegment where
  description : DescriptionRow
  segment : SegmentRow
  camera : Camera
  deriving DecidableEq

/-- The join of descriptions, segments and cameras. -/
def describedSegments (db : Database) : List DescribedSegment :=
  db.descriptions.rows.filterMap fun description => do
    let segment ← db.segments.find? description.segmentID
    let camera ← db.cameras.find? description.cameraID
    return ⟨description, segment, camera⟩

/-! ## Surroundings -/

/-- The full text search of the database, beside the letter cases. -/
structure TextSearch extends EventQuery.Text where
  describes : String → String → Bool
  rank : String → String → Rat

/-- A statement may fail, meets its rows in an order of its own, and its rows may break off. -/
structure Stream (ρ : Type*) where
  failure : Option String := none
  scan : Scan ρ
  delivered : Option Nat := none

/-- `ORDER BY key DESC LIMIT 50`. -/
def Stream.first {ρ τ : Type*} [LinearOrder τ] (stream : Stream ρ) (key : ρ → τ) (rows : List ρ) : List ρ :=
  let found := ((stream.scan.arrange rows).insertionSort fun first second => key second ≤ key first).take 50
  match stream.delivered with
  | none => found
  | some rows => found.take rows

/-- `hour` reads an instant in the time zone of the session; `evaluates` are the alarms on which
the casts of the statement are tried; `walk` is the order of a map. -/
structure Env where
  segments : Stream DescribedSegment
  alarms : Stream AlarmRow
  text : TextSearch
  hour : Instant → Int
  evaluates : AlarmRow → Bool
  walk : Scan String
  stamp : DescribedSegment → Tokens.Stamp
  tenths : Int → Nat

def encodingError : String := "ERROR: invalid byte sequence for encoding \"UTF8\": 0x00 (SQLSTATE 22021)"

/-! ## Results -/

structure SearchFrameDetection where
  label : String
  bbox : Int × Int × Int × Int
  violation : Bool
  conf : Rat
  deriving DecidableEq

structure SearchFrameTokenMatch where
  token : String
  score : Rat
  source : String
  deriving DecidableEq

inductive ClipURL where
  | signed (url : Option MediaLinks.PlaybackURL)
  | stored (text : String)
  deriving DecidableEq

/-- The flags are the keys of the map, all true. -/
structure SearchFrameResult where
  frameID : String
  siteID : String
  siteName : String
  cameraID : String
  cameraName : String
  ts : Millis
  relevanceScore : Rat
  caption : String
  thumbnailURL : String := ""
  clipURL : ClipURL
  detections : Option (List SearchFrameDetection)
  violationFlags : List String
  tokenMatches : Option (List SearchFrameTokenMatch)
  source : String
  deriving DecidableEq

def ppeViolationLabelMap : List (String × String) :=
  ["nohat", "no-hat", "no_hat", "no-hardhat", "no_hardhat", "no-hard-hat"].map (·, "no_hard_hat") ++
    ["novest", "no-vest", "no_vest", "no-hivis", "no_hivis", "no-hi-vis"].map (·, "no_hi_vis") ++
      ["noharness", "no-harness", "no_harness"].map (·, "no_harness")

/-! ## Helpers -/

/-- `fmt.Sscanf(s, "%d", &h)` within 0 and 23. -/
def hourOf (s : String) : Option Int :=
  if s.utf8ByteSize < 2 then none
  else
    let text := s.toList.dropWhile fun c => RecoveryCodes.isSpace c && c ≠ '\n'
    let signed := text.head? = some '-' ∨ text.head? = some '+'
    let digits := (if signed then text.tail else text).takeWhile Char.isDigit
    let h : Int := (if text.head? = some '-' then -1 else 1) * (Nat.ofDigitChars 10 digits 0 : Int)
    if digits = [] ∨ h < 0 ∨ 23 < h then none else some h

def parseTimeOfDay (t : TimeOfDay) : Option (Int × Int) :=
  match hourOf t.startText, hourOf t.endText with
  | none, none => none
  | sh, eh => some (sh.getD 0, eh.getD 23)

/-- `time.Parse("2006-01-02", text)`. -/
def parseDate (text : String) : Option Instant := do
  let (year, value) ← Rfc3339.getYear text.toList
  let value ← Rfc3339.skip '-' value
  let (month, value) ← Rfc3339.getnum true value
  guard (0 < month ∧ month ≤ 12)
  let value ← Rfc3339.skip '-' value
  let (day, value) ← Rfc3339.getnum true value
  guard (value = [] ∧ 0 < day ∧ day ≤ Rfc3339.daysIn month year)
  return Rfc3339.dayNumber year month day * 86400 * 1000000000

def parseDateRange (dr : Option DateRange) : Instant × Instant :=
  match dr with
  | none => (zeroTime, zeroTime)
  | some dr =>
    ((parseDate dr.startText <|> Rfc3339.parse dr.startText.toList).getD zeroTime,
      ((parseDate dr.endText).map (· + 24 * Tokens.hour) <|> Rfc3339.parse dr.endText.toList).getD zeroTime)

/-- `json.Unmarshal` into a slice of maps; none is its error. -/
def readMaps (raw : String) : Option (List (List (String × Tree))) :=
  match readDocument raw.toList with
  | some .null => some []
  | some (.array items) => items.mapM fun item => match item with
    | .object members => some members
    | .null => some []
    | _ => none
  | _ => none

/-- The value of a key, the last of its name. -/
def get (members : List (String × Tree)) (key : String) : Tree := (members.reverse.lookup key).getD .null

def asString : Tree → String
  | .string value => value
  | _ => ""

def toFloat : Tree → Rat
  | .number token => numberValue token
  | _ => 0

/-- `int(x)`, which cuts the fraction off. -/
def truncate (x : Rat) : Int := if 0 ≤ x then x.floor else -(-x).floor

def boxOf (d : List (String × Tree)) : Int × Int × Int × Int :=
  match get d "bbox_normalized", get d "bbox" with
  | .object bn, _ =>
    (truncate (toFloat (get bn "x1") * 1920), truncate (toFloat (get bn "y1") * 1080),
      truncate (toFloat (get bn "x2") * 1920), truncate (toFloat (get bn "y2") * 1080))
  | _, .object b => (truncate (toFloat (get b "x1")), truncate (toFloat (get b "y1")),
      truncate (toFloat (get b "x2")), truncate (toFloat (get b "y2")))
  | _, .array [x1, y1, x2, y2] => (truncate (toFloat x1), truncate (toFloat y1), truncate (toFloat x2), truncate (toFloat y2))
  | _, _ => (0, 0, 0, 0)

def parseYOLODetections (text : TextSearch) (raw : String) : Option (List SearchFrameDetection) :=
  if raw = "" then none
  else (readMaps raw).map fun arr => arr.filterMap fun d =>
    let label := if asString (get d "class") = "" then asString (get d "label") else asString (get d "class")
    if label = "" then none
    else some { label, bbox := boxOf d, violation := (ppeViolationLabelMap.lookup (text.toLower label)).isSome,
                conf := toFloat (get d "confidence") }

def ppeFromJSON (text : TextSearch) (raw : String) : List String :=
  ((((readMaps raw).getD []).filterMap fun v => ppeViolationLabelMap.lookup (text.toLower (asString (get v "class"))))).dedup

def tagsToViolationFlags (text : TextSearch) (tags : List String) : List String :=
  let lc := text.toLower (" ".intercalate tags)
  (if ["no hard hat", "no hardhat", "missing hard hat"].any (contains lc) then ["no_hard_hat"] else []) ++
    (if ["no vest", "no hi-vis", "no high-vis", "missing vest"].any (contains lc) then ["no_hi_vis"] else []) ++
      (if ["no harness", "missing harness"].any (contains lc) then ["no_harness"] else [])

def matchesViolationFilter (flags required : List String) : Bool := required.all fun req => flags.contains req

def tokensMatchingQuery (text : TextSearch) (q : String) (tags : List String) : Option (List SearchFrameTokenMatch) :=
  if q = "" then none
  else some ((tags.filter fun tag => contains (text.toLower q) (text.toLower tag) || contains (text.toLower tag) (text.toLower q)).map
    fun tag => ⟨tag, 85 / 100, "caption"⟩)

def alarmTokenMatches (env : Env) (q alarmType : String) (flags : List String) : List SearchFrameTokenMatch :=
  (if q ≠ "" ∧ alarmType ≠ "" ∧ contains (env.text.toLower q) (env.text.toLower alarmType) then
      [⟨alarmType, 95 / 100, "caption"⟩] else []) ++
    (env.walk.arrange flags).map fun flag => ⟨flag, 9 / 10, "visual"⟩

/-! ## Segments -/

/-- `rank DESC, s.start_time DESC`. -/
def segmentKey (text : TextSearch) (q : String) (row : DescribedSegment) : Rat ×ₗ Instant :=
  toLex (text.rank row.description.description q, row.segment.startTime)

/-- `d.tags && string_to_array(lower($1), ' ')`. -/
def tagged (text : TextSearch) (q : String) (tags : List String) : Bool :=
  let words := if text.lower q = "" then [] else ((text.lower q).toList.splitOn ' ').map String.ofList
  tags.any words.contains

def matchClause (text : TextSearch) (model q : String) (d : DescriptionRow) : Bool :=
  if model = "caption" then text.describes d.description q
  else if model = "visual" then tagged text q d.tags
  else text.describes d.description q || tagged text q d.tags

/-- The hour is between two others, around midnight if the first is the later one. -/
def inHours (hours : Option (Int × Int)) (hour : Int) : Bool :=
  match hours with
  | none => true
  | some (sh, eh) => if sh ≤ eh then sh ≤ hour ∧ hour ≤ eh else sh ≤ hour ∨ hour ≤ eh

/-- `EXTRACT(hour FROM instant AT TIME ZONE 'UTC')`. -/
def utcHour (instant : Instant) : Int := instant / Tokens.hour % 24

def segmentWhere (env : Env) (q : String) (req : SearchFiltersRequest) (allowed : List UUID) (restricted : Bool)
    (range : Instant × Instant) (row : DescribedSegment) : Bool :=
  matchClause env.text req.model q row.description ∧
    (range.1 = zeroTime ∨ timestamptz range.1 ≤ row.segment.startTime) ∧
      (range.2 = zeroTime ∨ row.segment.endTime ≤ timestamptz range.2) ∧
        inHours (req.timeOfDay.bind parseTimeOfDay) (utcHour row.segment.startTime) ∧
          (req.siteIDs = [] ∨ row.camera.siteId.any fun site => req.siteIDs.contains site) ∧
            (restricted = true → row.description.cameraID ∈ allowed)

def segmentResult (cfg : MediaLinks.Config) (env : Env) (userID q : String) (row : DescribedSegment) : SearchFrameResult :=
  let rank := env.text.rank row.description.description q
  let rankN := rank / (rank + 1 / 2)
  let offset := max 0 ((row.segment.endTime - row.segment.startTime) / 2)
  { frameID := "seg-" ++ toString row.description.segmentID
    siteID := row.camera.siteId.getD ""
    siteName := row.camera.siteId.getD ""
    cameraID := row.description.cameraID.text
    cameraName := row.camera.name
    ts := (row.segment.startTime + offset) / 1000000
    relevanceScore := if rankN < 15 / 100 then 15 / 100 else rankN
    caption := row.description.description
    clipURL := .signed (MediaLinks.mintSegmentPlaybackURL cfg env.tenths userID row.description.cameraID.text row.segment.filePath
      row.segment.startTime (row.segment.startTime + offset) (env.stamp row))
    detections := parseYOLODetections env.text row.description.detections
    violationFlags := tagsToViolationFlags env.text row.description.tags
    tokenMatches := tokensMatchingQuery env.text q row.description.tags
    source := "vlm_segment" }

def searchVLMSegments (cfg : MediaLinks.Config) (db : Database) (env : Env) (userID q : String) (req : SearchFiltersRequest)
    (allowed : List UUID) (restricted : Bool) (range : Instant × Instant) : Except String (List SearchFrameResult) :=
  if q = "" then .ok []
  else match env.segments.failure with
    | some err => .error err
    | none =>
      if !(storable q && req.siteIDs.all storable) then .error encodingError
      else
        let rows := env.segments.first (segmentKey env.text q)
          ((describedSegments db).filter (segmentWhere env q req allowed restricted range))
        .ok ((rows.map (segmentResult cfg env userID q)).filter fun result =>
          matchesViolationFilter result.violationFlags req.violationTypes)

/-! ## Alarms -/

def isHex (c : Char) : Bool := c.isDigit || ('a' ≤ c && c ≤ 'f') || ('A' ≤ c && c ≤ 'F')

/-- The sixteen pairs of digits of `uuid_in`, which takes a hyphen after every other of them. -/
def uuidPairs : Nat → List Char → Option (List Char × List Char)
  | 0, text => some ([], text)
  | left + 1, a :: b :: text => do
    guard (isHex a && isHex b)
    let rest := if text.head? = some '-' ∧ left % 2 = 0 ∧ left ≠ 0 then text.tail else text
    let (digits, text) ← uuidPairs left rest
    return (a :: b :: digits, text)
  | _, _ => none

/-- `camera_id::uuid`. -/
def castUUID (text : String) : Option UUID := do
  let braces := text.toList.head? = some '{'
  let (digits, rest) ← uuidPairs 16 (if braces then text.toList.tail else text.toList)
  guard (rest = if braces then ['}'] else [])
  parse (String.ofList digits)

/-- `to_timestamp(ts/1000)`. -/
def alarmTime (row : AlarmRow) : Instant := row.ts.tdiv 1000 * 1000000000

def alarmWhere (env : Env) (q : String) (req : SearchFiltersRequest) (allowed : List UUID) (restricted : Bool)
    (range : Instant × Instant) (row : AlarmRow) : Bool :=
  (q = "" ∨ row.aiDescription.any (ilike env.text.toText ("%" ++ q ++ "%")) ∨ ilike env.text.toText ("%" ++ q ++ "%") row.description ∨
      ilike env.text.toText ("%" ++ q ++ "%") row.type) ∧
    (range.1 = zeroTime ∨ timestamptz range.1 ≤ alarmTime row) ∧ (range.2 = zeroTime ∨ alarmTime row ≤ timestamptz range.2) ∧
      inHours (req.timeOfDay.bind parseTimeOfDay) (env.hour (alarmTime row)) ∧ (req.siteIDs = [] ∨ row.siteID ∈ req.siteIDs) ∧
        (restricted = true → (castUUID row.cameraID).any fun id => allowed.contains id)

/-- A cast or a conversion that fails on an alarm. -/
def alarmError (req : SearchFiltersRequest) (restricted : Bool) (range : Instant × Instant) (row : AlarmRow) : Option String :=
  let timed := range.1 ≠ zeroTime ∨ range.2 ≠ zeroTime ∨ (req.timeOfDay.bind parseTimeOfDay).isSome = true
  if timed ∧ inTimestamps (row.ts.tdiv 1000) = false then some "ERROR: timestamp out of range (SQLSTATE 22008)"
  else if restricted = true ∧ castUUID row.cameraID = none then
    some ("ERROR: invalid input syntax for type uuid: \"" ++ row.cameraID ++ "\" (SQLSTATE 22P02)")
  else none

def alarmResult (env : Env) (q : String) (row : AlarmRow) : SearchFrameResult :=
  let violationFlags := ppeFromJSON env.text (row.aiPpeViolations.getD "[]")
  let fpPct := row.aiFalsePositivePct.getD 0
  let relevance := if 1 - fpPct < 3 / 10 then 3 / 10 else 1 - fpPct
  { frameID := "alarm-" ++ row.id
    siteID := row.siteID
    siteName := row.siteName
    cameraID := row.cameraID
    cameraName := row.cameraName
    ts := row.ts
    relevanceScore := if q ≠ "" then relevance * (6 / 10) + 4 / 10 else relevance
    caption := if row.aiDescription.getD "" = "" then row.description else row.aiDescription.getD ""
    thumbnailURL := row.snapshotURL.getD ""
    clipURL := .stored (row.clipURL.getD "")
    detections := parseYOLODetections env.text (row.aiDetections.getD "[]")
    violationFlags
    tokenMatches := some (alarmTokenMatches env q row.type violationFlags)
    source := if violationFlags ≠ [] then "safety_alarm" else "security_alarm" }

def searchAlarms (db : Database) (env : Env) (q : String) (req : SearchFiltersRequest) (allowed : List UUID) (restricted : Bool)
    (range : Instant × Instant) : Except String (List SearchFrameResult) :=
  match env.alarms.failure with
  | some err => .error err
  | none =>
    if !(storable q && req.siteIDs.all storable) then .error encodingError
    else match (db.alarms.rows.filter env.evaluates).findSome? (alarmError req restricted range) with
      | some err => .error err
      | none =>
        let rows := env.alarms.first AlarmRow.ts (db.alarms.rows.filter (alarmWhere env q req allowed restricted range))
        .ok ((rows.map (alarmResult env q)).filter fun result => matchesViolationFilter result.violationFlags req.violationTypes)

/-! ## The handler -/

/-- The gate of `ConfidenceMin`: relevance or a detection clears it. -/
def confident (min : Rat) (result : SearchFrameResult) : Bool :=
  min ≤ 0 ∨ min ≤ result.relevanceScore ∨ (result.detections.getD []).any fun d => min ≤ d.conf

/-- The inner loop: what stands at the front is exchanged for every more relevant row behind it. -/
def exchange (front : SearchFrameResult) : List SearchFrameResult → SearchFrameResult × List SearchFrameResult
  | [] => (front, [])
  | next :: behind =>
    if front.relevanceScore < next.relevanceScore then ((exchange next behind).1, front :: (exchange next behind).2)
    else ((exchange front behind).1, next :: (exchange front behind).2)

/-- The outer loop, for as many turns as there are rows. -/
def exchangeSort : Nat → List SearchFrameResult → List SearchFrameResult
  | turns + 1, front :: behind => (exchange front behind).1 :: exchangeSort turns (exchange front behind).2
  | _, all => all

/-- `HandleSearchFrames`; no body is one that is not decoded. -/
def handleSearchFrames (cfg : MediaLinks.Config) (db : Database) (env : Env) (claims : Option Claims)
    (body : Option SearchFiltersRequest) : Reply (List SearchFrameResult) :=
  match claims, body with
  | none, _ => .error 401 "unauthorized"
  | some _, none => .error 400 "invalid request"
  | some claims, some req =>
    let q := RecoveryCodes.trimSpace req.query
    if q = "" ∧ req.violationTypes = [] then .json 200 []
    else match authorizedCameraIDs db.toDirectory (some claims) with
      | .error err => .error 500 err
      | .ok (allowed, restricted) =>
        if restricted = true ∧ allowed = [] then .json 200 []
        else match searchVLMSegments cfg db env claims.userId q req allowed restricted (parseDateRange req.dateRange) with
          | .error err => .error 500 err
          | .ok vlmResults =>
            match searchAlarms db env q req allowed restricted (parseDateRange req.dateRange) with
            | .error err => .error 500 err
            | .ok alarmResults =>
              let all := (vlmResults ++ alarmResults).filter (confident req.confidenceMin)
              .json 200 ((exchangeSort all.length all).take 100)

end Ironsight.FrameSearch
