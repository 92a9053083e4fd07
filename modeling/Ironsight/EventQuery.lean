import Ironsight.EventReads
import Ironsight.JsonReader
import Ironsight.LikePatterns
import Ironsight.Manifests
import Ironsight.MediaLinks
import Ironsight.RecoveryCodes
import Ironsight.Rfc3339

/-! The event list. A request's parameters become a query, the caller's cameras narrow
it, and the statement is put together from the filters that are there, each with the next
placeholder. What comes back is a window of the events that pass. -/
namespace Ironsight.EventQuery
open Tables Uuid Access EventReads

/-! ## Rows -/

/-- A row of `events`; `details` is the text of the column. -/
structure EventRow where
  id : Int
  cameraID : UUID
  eventTime : Instant
  eventType : String
  details : Option String
  thumbnail : Option String
  segmentID : Option Int
  deriving DecidableEq

/-- The columns of `segments` that the join reads. -/
structure SegmentRow where
  id : Int
  filePath : String
  startTime : Instant
  deriving DecidableEq

/-- `database.Event`; the two segment fields stay on the server. -/
structure Event where
  id : Int
  cameraID : UUID
  eventTime : Instant
  eventType : String
  details : Option (List (String × JsonReader.Tree))
  thumbnail : String
  source : String := ""
  segmentID : Option Int
  playbackURL : Option MediaLinks.PlaybackURL := none
  segmentFilePath : String := ""
  segmentStart : Instant := 0

/-- The letter cases of the database, for `ILIKE`, and of Go. -/
structure Text where
  lower : String → String
  toLower : String → String

/-! ## The request -/

/-- `database.EventQuery`. -/
structure Query where
  cameraID : Option UUID := none
  startTime : Instant
  endTime : Instant
  eventTypes : List String := []
  search : String
  limit : Int := 0
  offset : Int := 0
  cameraIDs : List UUID := []
  cameraIDsNonNil : Bool := false
  deriving DecidableEq

/-- `r.URL.Query().Get`, empty for a parameter that is absent. -/
abbrev Params := String → String

/-- A parameter that is there and can be read. -/
def given {α : Type} (text : String) (read : String → Option α) : Option α := if text = "" then none else read text

/-- `strings.Split(text, ",")`. -/
def split (text : String) : List String := (text.toList.splitOn ',').map String.ofList

def parseTimeRange (params : Params) (now : Instant) : Instant × Instant :=
  let time (text : String) := Rfc3339.parse text.toList
  ((given (params "start") time).getD (now - Tokens.hour), (given (params "end") time).getD now)

/-- The ids of `camera_ids` that parse. -/
def listedIDs (params : Params) : List UUID := (split (params "camera_ids")).filterMap fun s => parse (RecoveryCodes.trimSpace s)

def parseEventQuery (params : Params) (now : Instant) : Query :=
  let (start, stop) := parseTimeRange params now
  let q : Query := { startTime := start, endTime := stop, search := params "search" }
  let q :=
    if params "camera_ids" ≠ "" then
      match listedIDs params with
      | [] => q
      | [id] => { q with cameraID := some id }
      | ids => { q with cameraIDs := ids, cameraIDsNonNil := true }
    else { q with cameraID := given (params "camera_id") parse }
  { q with
    eventTypes := if params "types" = "" then [] else split (params "types")
    limit := (given (params "limit") atoi).getD 0
    offset := (given (params "offset") atoi).getD 0 }

/-- The ids of the first list that are in the second. -/
def intersectUUIDs (a b : List UUID) : List UUID := a.filter fun x => b.contains x

/-- `applyEventRBAC`; none is a request that is denied. -/
def applyEventRBAC (q : Query) (restricted : Bool) (allowed : List UUID) : Option Query :=
  if !restricted then some q
  else match q.cameraID with
    | some id => if allowed.contains id then some q else none
    | none =>
      if q.cameraIDsNonNil ∧ q.cameraIDs ≠ [] then
        let isect := intersectUUIDs q.cameraIDs allowed
        if isect = [] then none else some { q with cameraIDs := isect }
      else some { q with cameraIDs := allowed, cameraIDsNonNil := true }

/-! ## The statement -/

inductive Arg where
  | time (value : Instant)
  | uuid (value : UUID)
  | text (value : String)
  | texts (values : List String)
  | uuids (values : List UUID)
  deriving DecidableEq

/-- A comparison of a column of `events` with a placeholder. -/
inductive Comparison where
  | timeFrom
  | timeTo
  | cameraEq
  | typeAny
  | detailsILike
  | cameraAny
  deriving DecidableEq

structure Statement where
  conditions : List (Comparison × Nat)
  args : List Arg
  argN : Nat
  deriving DecidableEq

/-- A further condition on the next placeholder. -/
def Statement.add (statement : Statement) (comparison : Comparison) (arg : Arg) : Statement :=
  ⟨statement.conditions ++ [(comparison, statement.argN)], statement.args ++ [arg], statement.argN + 1⟩

def Statement.addIf (statement : Statement) (present : Bool) (comparison : Comparison) (arg : Arg) : Statement :=
  if present then statement.add comparison arg else statement

/-- The `WHERE` clause of `QueryEvents` and its arguments. -/
def build (q : Query) : Statement :=
  let base : Statement := ⟨[(.timeFrom, 1), (.timeTo, 2)], [.time q.startTime, .time q.endTime], 3⟩
  let camera := match q.cameraID with
    | some id => base.add .cameraEq (.uuid id)
    | none => base
  let types := camera.addIf (q.eventTypes ≠ []) .typeAny (.texts q.eventTypes)
  let search := types.addIf (q.search ≠ "") .detailsILike (.text ("%" ++ q.search ++ "%"))
  search.addIf q.cameraIDsNonNil .cameraAny (.uuids q.cameraIDs)

/-- `text ILIKE pattern`. -/
def ilike (text : Text) (pattern value : String) : Bool :=
  LikePatterns.like (text.lower pattern).toList (text.lower value).toList

/-- What a comparison asks of a row under its argument, none if that is of another type. A
time loses what is below a microsecond. -/
def Comparison.test (text : Text) : Comparison → Arg → Option (EventRow → Bool)
  | .timeFrom, .time value => some fun row => Manifests.timestamptz value ≤ row.eventTime
  | .timeTo, .time value => some fun row => row.eventTime ≤ Manifests.timestamptz value
  | .cameraEq, .uuid value => some fun row => row.cameraID = value
  | .typeAny, .texts values => some fun row => values.contains row.eventType
  | .detailsILike, .text pattern => some fun row => row.details.any fun details => ilike text pattern details
  | .cameraAny, .uuids values => some fun row => values.contains row.cameraID
  | _, _ => none

/-- The tests of all conditions; a placeholder without its argument makes the statement fail. -/
def Statement.tests (text : Text) (statement : Statement) : Option (List (EventRow → Bool)) :=
  statement.conditions.mapM fun condition => statement.args[condition.2 - 1]? >>= condition.1.test text

/-- A text with a zero byte is no value of a text column. -/
def Arg.storable : Arg → Bool
  | .text value => !value.toList.contains '\x00'
  | .texts values => values.all fun value => !value.toList.contains '\x00'
  | _ => true

/-! ## Running it -/

/-- What a request meets outside the tables: the clock, a query that fails, a stream of rows
that breaks off, the order of the scan and what each link is signed with. -/
structure Env where
  now : Instant
  failure : Option String := none
  delivered : Option Nat := none
  scan : Scan EventRow
  stamp : EventRow → Tokens.Stamp
  tenths : Int → Nat
  text : Text

/-- The directory, with the events and the segments. -/
structure Database extends Directory where
  events : List EventRow
  segments : Table SegmentRow.id

/-- `ORDER BY e.event_time DESC`, ties as the scan meets them. -/
def newestFirst (env : Env) (rows : List EventRow) : List EventRow :=
  (env.scan.arrange rows).insertionSort fun first second => second.eventTime ≤ first.eventTime

/-- `json.Unmarshal` into a map; it is nil for `null`, and emptied when that fails. -/
def readDetails (details : Option String) : Option (List (String × JsonReader.Tree)) :=
  match details.bind fun text => JsonReader.readDocument text.toList with
  | some (.object members) => some members
  | some .null => none
  | _ => some []

/-- The event of a row that has a thumbnail. -/
def eventOf (db : Database) (row : EventRow) : Event :=
  let segment := row.segmentID.bind db.segments.find?
  { id := row.id
    cameraID := row.cameraID
    eventTime := row.eventTime
    eventType := row.eventType
    details := readDetails row.details
    thumbnail := row.thumbnail.getD ""
    segmentID := row.segmentID
    segmentFilePath := (segment.map SegmentRow.filePath).getD ""
    segmentStart := (segment.map SegmentRow.startTime).getD 0 }

def errNullThumbnail : String := "can't scan into dest[5] (col: thumbnail): cannot scan NULL into *string"

/-- The loop over the rows; a stream that breaks off ends it like one that is done. -/
def scanRows (db : Database) (rows : List EventRow) : Except String (List (EventRow × Event)) :=
  rows.mapM fun row => if row.thumbnail = none then .error errNullThumbnail else .ok (row, eventOf db row)

def Query.window (q : Query) (rows : List EventRow) : List EventRow :=
  let limit := if q.limit ≤ 0 ∨ q.limit > 1000 then 100 else q.limit
  (rows.drop q.offset.toNat).take limit.toNat

/-- `QueryEvents`; each event stands beside its row. -/
def queryEvents (db : Database) (env : Env) (q : Query) : Except String (List (EventRow × Event)) :=
  if q.cameraIDsNonNil ∧ q.cameraIDs = [] then .ok []
  else match env.failure with
    | some err => .error err
    | none =>
      match (build q).tests env.text with
      | none => .error "ERROR: operator does not exist (SQLSTATE 42883)"
      | some tests =>
        if !(build q).args.all Arg.storable then .error "ERROR: invalid byte sequence for encoding \"UTF8\": 0x00 (SQLSTATE 22021)"
        else if q.offset < 0 then .error "ERROR: OFFSET must not be negative (SQLSTATE 2201X)"
        else
          let window := q.window (newestFirst env (db.events.filter fun row => tests.all fun test => test row))
          scanRows db (match env.delivered with
            | none => window
            | some rows => window.take rows)

/-! ## The handler -/

/-- `decorateEventPlaybackURLs`. -/
def playbackURL (cfg : MediaLinks.Config) (env : Env) (userID : String) (row : EventRow) (event : Event) : Event :=
  if userID = "" ∨ event.segmentFilePath = "" then event
  else { event with
    playbackURL := MediaLinks.mintSegmentPlaybackURL cfg env.tenths userID event.cameraID.text event.segmentFilePath
      event.segmentStart event.eventTime (env.stamp row) }

/-- `DetectionSource`. -/
def detectionSource (text : Text) (details : Option (List (String × JsonReader.Tree))) : String :=
  let str (key : String) : String := match details.bind fun members => members.lookup key with
    | some (.string value) => text.toLower (RecoveryCodes.trimSpace value)
    | _ => ""
  if str "source" ∈ ["milesight_ws", "milesight-sense-webhook", "onvif", "milesight"] then "camera"
  else if str "source" ∈ ["yolo", "qwen", "ai", "server"] then "server"
  else if str "driver" = "milesight" then "camera"
  else if "tns1:ruleengine/".toList.isPrefixOf (str "topic").toList ∨ "milesight:".toList.isPrefixOf (str "topic").toList then
    "camera"
  else ""

def decorate (cfg : MediaLinks.Config) (env : Env) (userID : String) (row : EventRow) (event : Event) : Event :=
  let event := playbackURL cfg env userID row event
  { event with source := detectionSource env.text event.details }

/-- `HandleQueryEvents`: filters of the request, narrowed to the cameras of the caller. -/
def handleQueryEvents (cfg : MediaLinks.Config) (db : Database) (env : Env) (claims : Option Claims) (params : Params) :
    Reply (List Event) :=
  match claims with
  | none => .error 401 "unauthorized"
  | some claims =>
    match authorizedCameraIDs db.toDirectory (some claims) with
    | .error err => .error 500 err
    | .ok (allowed, restricted) =>
      match applyEventRBAC (parseEventQuery params env.now) restricted allowed with
      | none => .json 200 []
      | some q =>
        match queryEvents db env q with
        | .error err => .error 500 err
        | .ok events => .json 200 (events.map fun found => decorate cfg env claims.userId found.1 found.2)

/-! ## What the parameters ask for -/

/-- The cameras that are asked for: `camera_ids` if it is given at all, else `camera_id`. Of
none, all are. -/
def requestedCameras (params : Params) : List UUID :=
  if params "camera_ids" ≠ "" then listedIDs params else (given (params "camera_id") parse).toList

/-- The event passes the filters of the request. -/
structure Requested (text : Text) (params : Params) (now : Instant) (row : EventRow) : Prop where
  earliest : Manifests.timestamptz (parseTimeRange params now).1 ≤ row.eventTime
  latest : row.eventTime ≤ Manifests.timestamptz (parseTimeRange params now).2
  camera : requestedCameras params = [] ∨ row.cameraID ∈ requestedCameras params
  type : params "types" = "" ∨ row.eventType ∈ split (params "types")
  search : params "search" = "" ∨ row.details.any (ilike text ("%" ++ params "search" ++ "%")) = true

instance (text : Text) (params : Params) (now : Instant) (row : EventRow) : Decidable (Requested text params now row) :=
  decidable_of_iff (Manifests.timestamptz (parseTimeRange params now).1 ≤ row.eventTime ∧
      row.eventTime ≤ Manifests.timestamptz (parseTimeRange params now).2 ∧
      (requestedCameras params = [] ∨ row.cameraID ∈ requestedCameras params) ∧
      (params "types" = "" ∨ row.eventType ∈ split (params "types")) ∧
      (params "search" = "" ∨ row.details.any (ilike text ("%" ++ params "search" ++ "%")) = true))
    ⟨fun ⟨earliest, latest, camera, type, search⟩ => ⟨earliest, latest, camera, type, search⟩,
      fun asked => ⟨asked.earliest, asked.latest, asked.camera, asked.type, asked.search⟩⟩

/-- The rows are cut from the wanted ones, newest first, by the request's offset and limit. -/
def Window (params : Params) (wanted rows : List EventRow) : Prop :=
  ∃ ordered : List EventRow, ordered.Perm wanted ∧ (ordered.Pairwise fun first second => second.eventTime ≤ first.eventTime) ∧
    let asked := (given (params "limit") atoi).getD 0
    rows = (ordered.drop ((given (params "offset") atoi).getD 0).toNat).take
      (if asked ≤ 0 ∨ asked > 1000 then 100 else asked).toNat

/-! ## The statement means its query -/

/-- What a query asks of a row besides its camera. -/
def Query.passes (text : Text) (q : Query) (row : EventRow) : Bool :=
  Manifests.timestamptz q.startTime ≤ row.eventTime ∧ row.eventTime ≤ Manifests.timestamptz q.endTime ∧
    (q.eventTypes = [] ∨ row.eventType ∈ q.eventTypes) ∧
      (q.search = "" ∨ row.details.any (ilike text ("%" ++ q.search ++ "%")) = true)

def Query.covers (q : Query) (id : UUID) : Bool :=
  (∀ only ∈ q.cameraID, id = only) ∧ (q.cameraIDsNonNil = true → id ∈ q.cameraIDs)

/-- Every condition finds its own argument, whichever filters are there. -/
theorem tests_build (text : Text) (q : Query) :
    ∃ tests, (build q).tests text = some tests ∧ 
      ∀ row, (tests.all fun test => test row) = (q.passes text row && q.covers row.cameraID) := by
  obtain ⟨cameraID, startTime, endTime, eventTypes, search, limit, offset, cameraIDs, whitelisted⟩ := q
  by_cases types : eventTypes = [] <;> by_cases searched : search = "" <;> cases cameraID <;> cases whitelisted <;>
    simp [build, Statement.addIf, Statement.add, Statement.tests, Comparison.test, Query.passes, Query.covers, types, searched,
      Bool.and_assoc, Bool.and_left_comm, Bool.and_comm]

/-! ## Narrowing -/

/-- The three shapes of a parsed camera filter: one camera, none, several. -/
inductive Shape (asked : List UUID) (q : Query) : Prop where
  | one (id : UUID) (only : asked = [id]) (camera : q.cameraID = some id) (flag : q.cameraIDsNonNil = false)
  | all (none_ : asked = []) (camera : q.cameraID = none) (flag : q.cameraIDsNonNil = false)
  | several (some_ : asked ≠ []) (camera : q.cameraID = none) (listed : q.cameraIDs = asked) (flag : q.cameraIDsNonNil = true)

theorem parse_shape (params : Params) (now : Instant) :
    Shape (requestedCameras params) (parseEventQuery params now) := by
  by_cases listed : params "camera_ids" = ""
  · cases single : given (params "camera_id") parse with
    | none => exact .all (by simp [requestedCameras, listed, single]) (by simp [parseEventQuery, listed, single]) (by simp [parseEventQuery, listed])
    | some id =>
      exact .one id (by simp [requestedCameras, listed, single]) (by simp [parseEventQuery, listed, single])
        (by simp [parseEventQuery, listed])
  · have asked : requestedCameras params = listedIDs params := by simp [requestedCameras, listed]
    rw [asked]
    match ids : listedIDs params with
    | [] => exact .all rfl (by simp [parseEventQuery, listed, ids]) (by simp [parseEventQuery, listed, ids])
    | [id] => exact .one id rfl (by simp [parseEventQuery, listed, ids]) (by simp [parseEventQuery, listed, ids])
    | first :: second :: rest =>
      exact .several (List.cons_ne_nil _ _) (by simp [parseEventQuery, listed, ids]) (by simp [parseEventQuery, listed, ids])
        (by simp [parseEventQuery, listed, ids])

/-- What a query asks besides its cameras. -/
def Query.rest (q : Query) : Instant × Instant × List String × String × Int × Int :=
  (q.startTime, q.endTime, q.eventTypes, q.search, q.limit, q.offset)

theorem parse_rest (params : Params) (now : Instant) : (parseEventQuery params now).rest =
    ((parseTimeRange params now).1, (parseTimeRange params now).2, if params "types" = "" then [] else split (params "types"),
      params "search", (given (params "limit") atoi).getD 0, (given (params "offset") atoi).getD 0) := by
  have same (q : Query) (fallback : Option UUID) (ids : List UUID) : (if params "camera_ids" ≠ "" then
      match ids with
      | [] => q
      | [id] => { q with cameraID := some id }
      | ids => { q with cameraIDs := ids, cameraIDsNonNil := true }
    else { q with cameraID := fallback }).rest = q.rest := by
    split
    · split <;> rfl
    · rfl
  have parts := same { startTime := (parseTimeRange params now).1, endTime := (parseTimeRange params now).2, search := params "search" }
    (given (params "camera_id") parse) (listedIDs params)
  simp only [Query.rest, Prod.mk.injEq] at parts
  simp only [parseEventQuery, Query.rest, parts]

/-- A query that is let through asks the same of a row, and covers the cameras that are
both asked for and allowed. -/
theorem narrowed_covers {asked allowed : List UUID} {q narrowed : Query} (shape : Shape asked q)
    (through : applyEventRBAC q true allowed = some narrowed) : narrowed.rest = q.rest ∧
      ∀ id, narrowed.covers id = true ↔ (asked = [] ∨ id ∈ asked) ∧ id ∈ allowed := by
  simp only [applyEventRBAC, Bool.not_true, Bool.false_eq_true, if_false] at through
  cases shape with
  | one only asks camera flag =>
    simp only [camera] at through
    split at through
    · rename_i held
      cases through
      refine ⟨rfl, fun id => ?_⟩
      simp only [List.contains_iff_mem] at held
      simp only [Query.covers, camera, flag, asks, Option.mem_some_iff, forall_eq', Bool.false_eq_true, false_imp_iff, and_true,
        decide_eq_true_eq, List.cons_ne_nil, List.mem_singleton, false_or]
      exact ⟨fun same => ⟨same, same ▸ held⟩, And.left⟩
    · cases through
  | all none_ camera flag =>
    simp only [camera, flag, Bool.false_eq_true, false_and, if_false, Option.some.injEq] at through
    subst through
    exact ⟨rfl, fun id => by simp [Query.covers, none_]⟩
  | several some_ camera listed flag =>
    simp only [camera, flag, listed, some_, ne_eq, not_false_eq_true, and_self, if_true] at through
    split at through
    · cases through
    · cases through
      exact ⟨rfl, fun id => by simp [Query.covers, some_, intersectUUIDs]⟩

/-- Of a request that is denied, no camera is allowed. -/
theorem denied_disjoint {asked allowed : List UUID} {q : Query} (shape : Shape asked q)
    (denied : applyEventRBAC q true allowed = none) (id : UUID) : ¬ ((asked = [] ∨ id ∈ asked) ∧ id ∈ allowed) := by
  simp only [applyEventRBAC, Bool.not_true, Bool.false_eq_true, if_false] at denied
  cases shape with
  | one only asks camera flag =>
    simp only [camera] at denied
    split at denied
    · cases denied
    · rename_i missing
      rintro ⟨asked | held, allowed⟩
      · exact List.cons_ne_nil _ _ (asks.symm.trans asked)
      · rw [asks, List.mem_singleton] at held
        exact missing (held ▸ List.contains_iff_mem.mpr allowed)
  | all none_ camera flag => simp [camera, flag] at denied
  | several some_ camera listed flag =>
    simp only [camera, flag, listed, some_, ne_eq, not_false_eq_true, and_self, if_true] at denied
    split at denied
    · rename_i disjoint
      rintro ⟨asked | held, allowed⟩
      · exact some_ asked
      · have member : id ∈ intersectUUIDs asked _ := List.mem_filter.mpr ⟨held, List.contains_iff_mem.mpr allowed⟩
        rw [disjoint] at member
        exact absurd member List.not_mem_nil
    · cases denied

/-! ## The answer -/

section Answers
variable {cfg : MediaLinks.Config} {db : Database} {env : Env} {params : Params}

theorem newestFirst_perm (rows : List EventRow) : (newestFirst env rows).Perm rows :=
  (List.perm_insertionSort _ _).trans (env.scan.perm rows)

theorem newestFirst_sorted (rows : List EventRow) :
    (newestFirst env rows).Pairwise fun first second => second.eventTime ≤ first.eventTime := by
  have total : Std.Total fun first second : EventRow => second.eventTime ≤ first.eventTime :=
    ⟨fun first second => le_total second.eventTime first.eventTime⟩
  have trans : IsTrans EventRow fun first second => second.eventTime ≤ first.eventTime :=
    ⟨fun _ _ _ later latest => le_trans latest later⟩
  exact List.pairwise_insertionSort _ _

theorem scanRows_ok {rows : List EventRow} {found : List (EventRow × Event)} (read : scanRows db rows = .ok found) :
    found = rows.map fun row => (row, eventOf db row) := by
  induction rows generalizing found with
  | nil =>
    cases read
    rfl
  | cons row rows ih =>
    rw [scanRows, List.mapM_cons] at read
    by_cases missing : row.thumbnail = none
    · rw [if_pos missing] at read
      cases read
    · rw [if_neg missing] at read
      cases later : scanRows db rows with
      | error err =>
        rw [scanRows] at later
        simp [later, bind, Except.bind] at read
      | ok others =>
        have tail := ih later
        rw [scanRows] at later
        simp only [later, bind, Except.bind, pure, Except.pure, Except.ok.injEq] at read
        rw [← read, tail]
        rfl

/-- The rows that arrive. -/
def arrived (env : Env) (rows : List EventRow) : List EventRow :=
  match env.delivered with
  | none => rows
  | some n => rows.take n

theorem arrived_starts (rows : List EventRow) : arrived env rows <+: rows := by
  unfold arrived
  split
  · exact List.prefix_rfl
  · exact List.take_prefix _ _

/-- A query that succeeds answers with the rows of its window that arrived. -/
theorem queryEvents_ok {q : Query} {found : List (EventRow × Event)} (answered : queryEvents db env q = .ok found) :
    ∃ ordered : List EventRow,
      ordered.Perm (db.events.filter fun row => q.passes env.text row && q.covers row.cameraID) ∧
      (ordered.Pairwise fun first second => second.eventTime ≤ first.eventTime) ∧
        found = (arrived env (q.window ordered)).map fun row => (row, eventOf db row) := by
  obtain ⟨tests, built, means⟩ := tests_build env.text q
  unfold queryEvents at answered
  split at answered
  · rename_i nobody
    cases answered
    have none_ : (db.events.filter fun row => q.passes env.text row && q.covers row.cameraID) = [] := by
      refine List.filter_eq_nil_iff.mpr fun row _ => ?_
      simp [Query.covers, nobody.1, nobody.2]
    refine ⟨[], by rw [none_], List.Pairwise.nil, ?_⟩
    have empty : arrived env (q.window []) = [] := List.prefix_nil.mp (by simpa [Query.window] using arrived_starts (q.window []))
    rw [empty]
    rfl
  · split at answered
    · cases answered
    · simp only [built] at answered
      split_ifs at answered
      have selected : (db.events.filter fun row => tests.all fun test => test row) =
          db.events.filter fun row => q.passes env.text row && q.covers row.cameraID :=
        List.filter_congr fun row _ => means row
      rw [selected] at answered
      exact ⟨_, newestFirst_perm _, newestFirst_sorted _, scanRows_ok answered⟩

end Answers

/-- The event of a row as the caller is shown it. -/
def shown (cfg : MediaLinks.Config) (db : Database) (env : Env) (userID : String) (row : EventRow) : Event :=
  decorate cfg env userID row (eventOf db row)

theorem shown_cameraID (cfg : MediaLinks.Config) (db : Database) (env : Env) (userID : String) (row : EventRow) :
    (shown cfg db env userID row).cameraID = row.cameraID := by
  simp only [shown, decorate, playbackURL]
  split <;> rfl

/-- The rows that a caller may be shown under the parameters. -/
def wanted (db : Database) (env : Env) (caller : RestrictedCaller) (params : Params) : List EventRow :=
  db.events.filter fun row =>
    Requested env.text params env.now row ∧ row.cameraID ∈ cameraView db.toDirectory (some caller.toClaims)

/-- An answer starts the window of the wanted events, and is the whole of it unless the
stream of rows broke off; every event is of a camera that the caller may see. -/
structure Answered (cfg : MediaLinks.Config) (db : Database) (env : Env) (caller : RestrictedCaller) (params : Params)
    (events : List Event) : Prop where
  window : ∃ rows, Window params (wanted db env caller params) rows ∧
    events <+: rows.map (shown cfg db env caller.userId) ∧
      (env.delivered = none → events = rows.map (shown cfg db env caller.userId))
  cameras : ∀ event ∈ events, event.cameraID ∈ cameraView db.toDirectory (some caller.toClaims)

/-- What the parsed query asks besides its cameras is what the parameters ask. -/
theorem requested_iff {text : Text} {params : Params} {now : Instant} {q : Query}
    (same : q.rest = (parseEventQuery params now).rest) (row : EventRow) : Requested text params now row ↔
      q.passes text row = true ∧ (requestedCameras params = [] ∨ row.cameraID ∈ requestedCameras params) := by
  have parts := same.trans (parse_rest params now)
  simp only [Query.rest, Prod.mk.injEq] at parts
  obtain ⟨start, stop, types, search, -, -⟩ := parts
  have typed : (q.eventTypes = [] ∨ row.eventType ∈ q.eventTypes) ↔
      (params "types" = "" ∨ row.eventType ∈ split (params "types")) := by
    rw [types]
    by_cases empty : params "types" = ""
    · simp [empty]
    · have pieces : split (params "types") ≠ [] := by simp [split]
      simp [empty, pieces]
  simp only [Query.passes, typed, start, stop, search, decide_eq_true_eq]
  constructor
  · intro asked
    exact ⟨⟨asked.earliest, asked.latest, asked.type, asked.search⟩, asked.camera⟩
  · rintro ⟨⟨earliest, latest, type, search⟩, camera⟩
    exact ⟨earliest, latest, camera, type, search⟩

private theorem window_of_rest {params : Params} {now : Instant} {q : Query} {events ordered : List EventRow}
    (same : q.rest = (parseEventQuery params now).rest) (perm : ordered.Perm events)
    (sorted : ordered.Pairwise fun first second => second.eventTime ≤ first.eventTime) :
    Window params events (q.window ordered) := by
  have parts := same.trans (parse_rest params now)
  simp only [Query.rest, Prod.mk.injEq] at parts
  obtain ⟨-, -, -, -, limit, offset⟩ := parts
  exact ⟨ordered, perm, sorted, by rw [Query.window, limit, offset]⟩

section Scoped
variable {cfg : MediaLinks.Config} {db : Database} {env : Env} {caller : RestrictedCaller} {params : Params}

/-- A restricted caller has a view, and the view is limited. -/
private theorem restricted_view {allowed : List UUID} {restricted : Bool}
    (authorized : authorizedCameraIDs db.toDirectory (some caller.toClaims) = .ok (allowed, restricted)) :
    restricted = true ∧ cameraView db.toDirectory (some caller.toClaims) = allowed := by
  refine ⟨?_, by simp only [cameraView, authorized]⟩
  simp only [authorizedCameraIDs, caller.restricted, Bool.false_eq_true, if_false] at authorized
  split at authorized
  · cases authorized
    rfl
  · split at authorized
    · cases authorized
    · split at authorized <;> cases authorized <;> rfl

/-- When the narrowing denies the query, no wanted event is left out by the empty answer. -/
private theorem answered_nothing {allowed : List UUID}
    (seen : cameraView db.toDirectory (some caller.toClaims) = allowed)
    (narrowed : applyEventRBAC (parseEventQuery params env.now) true allowed = none) :
    Answered cfg db env caller params [] := by
  have nothing : wanted db env caller params = [] := by
    refine List.filter_eq_nil_iff.mpr fun row _ asked => ?_
    simp only [decide_eq_true_eq, seen] at asked
    exact denied_disjoint (parse_shape params env.now) narrowed row.cameraID ⟨asked.1.camera, asked.2⟩
  exact ⟨⟨[], ⟨[], by rw [nothing], List.Pairwise.nil, by simp⟩, List.nil_prefix, fun _ => rfl⟩,
    fun event member => absurd member List.not_mem_nil⟩

/-- What the narrowed query answers is decorated into an answer to the caller. -/
private theorem answered_query {allowed : List UUID} {q : Query} {found : List (EventRow × Event)}
    (seen : cameraView db.toDirectory (some caller.toClaims) = allowed)
    (narrowed : applyEventRBAC (parseEventQuery params env.now) true allowed = some q)
    (answered : queryEvents db env q = .ok found) :
    Answered cfg db env caller params (found.map fun entry => decorate cfg env caller.userId entry.1 entry.2) := by
  obtain ⟨rest, covers⟩ := narrowed_covers (parse_shape params env.now) narrowed
  obtain ⟨ordered, perm, sorted, rfl⟩ := queryEvents_ok answered
  have same : (db.events.filter fun row => q.passes env.text row && q.covers row.cameraID) = wanted db env caller params := by
    refine List.filter_congr fun row _ => ?_
    rw [Bool.eq_iff_iff, Bool.and_eq_true, covers, decide_eq_true_eq, requested_iff rest, seen, and_assoc]
  have arrives : arrived env (q.window ordered) <+: q.window ordered := arrived_starts _
  rw [same] at perm
  rw [List.map_map]
  refine ⟨⟨q.window ordered, window_of_rest rest perm sorted, ?_, fun whole => ?_⟩, fun event member => ?_⟩
  · exact arrives.map (shown cfg db env caller.userId)
  · simp only [arrived, whole]
    rfl
  · obtain ⟨row, held, rfl⟩ := List.mem_map.mp member
    have kept : row ∈ ordered := List.mem_of_mem_drop (List.mem_of_mem_take (arrives.subset held))
    have member := (List.mem_filter.mp (perm.mem_iff.mp kept)).2
    simp only [decide_eq_true_eq] at member
    exact (shown_cameraID cfg db env caller.userId row).symm ▸ member.2

end Scoped

/-- An answer to a restricted caller is a window of exactly the events that the parameters
ask for on the cameras that the caller may see. -/
theorem events_scoped (cfg : MediaLinks.Config) (db : Database) (env : Env) (caller : RestrictedCaller) (params : Params) :
    (∃ status text, handleQueryEvents cfg db env (some caller.toClaims) params = .error status text) ∨
      ∃ events, handleQueryEvents cfg db env (some caller.toClaims) params = .json 200 events ∧
        Answered cfg db env caller params events := by
  unfold handleQueryEvents
  dsimp only
  cases authorized : authorizedCameraIDs db.toDirectory (some caller.toClaims) with
  | error err => exact .inl ⟨500, err, rfl⟩
  | ok view =>
    obtain ⟨allowed, restricted⟩ := view
    obtain ⟨rfl, seen⟩ := restricted_view authorized
    dsimp only
    cases narrowed : applyEventRBAC (parseEventQuery params env.now) true allowed with
    | none => exact .inr ⟨[], rfl, answered_nothing seen narrowed⟩
    | some q =>
      dsimp only
      cases answered : queryEvents db env q with
      | error err => exact .inl ⟨500, err, rfl⟩
      | ok found => exact .inr ⟨_, rfl, answered_query seen narrowed answered⟩

/-- The cameras asked for if a parameter of which nothing parses counted as absent. -/
def countedCameras (params : Params) : List UUID :=
  match listedIDs params with
  | [] => (given (params "camera_id") parse).toList
  | ids => ids

private theorem viewer_limited : globalViewRoles .viewer = false := rfl

private def viewer : RestrictedCaller where
  userId := "00000000-0000-0000-0000-000000000001"
  username := "vera"
  role := .viewer
  organizationId := "co-1"
  restricted := viewer_limited

private def yard : Database where
  users := ⟨[{ id := ⟨1⟩, username := "vera", role := .viewer, organizationId := some "co-1", assignedSiteIds := ["site-1"] }],
    by decide⟩
  sites := ⟨[{ id := "site-1", name := "Yard", organizationId := "co-1" }], by decide⟩
  cameras := ⟨[{ id := ⟨10⟩, name := "gate", siteId := some "site-1" }, { id := ⟨11⟩, name := "shed", siteId := some "site-1" }],
    by decide⟩
  events := [⟨7, ⟨11⟩, 1749999000000000000, "motion", some "{}", some "", none⟩]
  segments := .empty

private def quiet : Env where
  now := 1750000000000000000
  scan := ⟨id, fun _ => .refl _⟩
  stamp := fun _ => ⟨⟨5⟩, 0, 0⟩
  tenths := fun _ => 0
  text := ⟨id, id⟩

/-- Two parameters, the list of which nothing parses. -/
private def mistyped : Params := fun key =>
  if key = "camera_ids" then "gate" else if key = "camera_id" then "00000000-0000-0000-0000-00000000000a" else ""

private def Reply.cameras : Reply (List Event) → Option (List UUID)
  | .json 200 events => some (events.map Event.cameraID)
  | _ => none

/-- Garbage in `camera_ids` makes the handler pass over a readable `camera_id`. -/
theorem unreadable_list_hides_camera_id : countedCameras mistyped = [⟨10⟩] ∧
    Reply.cameras (handleQueryEvents ⟨"", "", ""⟩ yard quiet (some viewer.toClaims) mistyped) = some [⟨11⟩] := by
  decide +kernel

end Ironsight.EventQuery
