import Ironsight.EventQuery
import Ironsight.RankedRows
import Mathlib.Data.Int.Interval

/-! Paging through the event search. The pages are queries of their own, joined by an offset;
each asks for one row more than it shows. The statement orders by time alone, so that events
of one time may change places between two pages. -/
namespace Ironsight.EventSearch
open Tables Uuid Access EventQuery RankedRows
open EventReads (atoi atoi_toDigits)

/-- The identifiers come from one sequence of 64-bit numbers. -/
structure Log extends Database where
  drawn : (events.map EventRow.id).Nodup
  ranged : ∀ event ∈ events, 0 < event.id ∧ event.id ≤ 9223372036854775807

structure SearchEventsResponse where
  events : List Event
  nextOffset : Int
  hasMore : Bool
  authorizedCameras : List UUID
  restricted : Bool

/-! ## The handler -/

def handleSearchEvents (cfg : MediaLinks.Config) (db : Database) (env : Env) (claims : Option Claims) (params : Params) :
    Reply SearchEventsResponse :=
  match claims with
  | none => .error 401 "unauthorized"
  | some claims =>
    match authorizedCameraIDs db.toDirectory (some claims) with
    | .error err => .error 500 err
    | .ok (allowed, restricted) =>
      match applyEventRBAC (parseEventQuery params env.now) restricted allowed with
      | none => .json 200 { events := [], nextOffset := 0, hasMore := false, authorizedCameras := allowed, restricted := true }
      | some q =>
        let requested := if q.limit ≤ 0 ∨ 500 < q.limit then 50 else q.limit
        match queryEvents db env { q with limit := requested + 1 } with
        | .error err => .error 500 err
        | .ok found =>
          let hasMore := decide (requested < found.length)
          let events := if hasMore then found.take requested.toNat else found
          .json 200
            { events := events.map fun entry => decorate cfg env claims.userId entry.1 entry.2
              nextOffset := q.offset + events.length
              hasMore
              authorizedCameras := if restricted then allowed else []
              restricted }

/-! ## Following the pages -/

/-- The parameters with another offset. -/
def atOffset (params : Params) (offset : Int) : Params := fun name =>
  if name = "offset" then String.ofList (Nat.toDigits 10 offset.toNat) else params name

/-- The pages from a turn on, by their `next_offset` while `has_more` is true; none if one is
refused or the fuel runs out. -/
def follow (ask : Nat → Int → Reply SearchEventsResponse) : (fuel turn : Nat) → Int → Option (List SearchEventsResponse)
  | 0, _, _ => none
  | fuel + 1, turn, offset =>
    match ask turn offset with
    | .json _ page => if page.hasMore then (follow ask fuel (turn + 1) page.nextOffset).map (page :: ·) else some [page]
    | _ => none

/-- The request is answered in full, and means the same range of time as at the given moment. -/
structure Served (text : Text) (params : Params) (now : Instant) (env : Env) : Prop where
  failure : env.failure = none
  delivered : env.delivered = none
  text : env.text = text
  range : parseTimeRange params env.now = parseTimeRange params now

/-- The events that the caller may see and the parameters ask for. -/
def matching (db : Database) (text : Text) (params : Params) (now : Instant) (allowed : List UUID) (restricted : Bool) :
    List EventRow :=
  db.events.filter fun row => Requested text params now row ∧ (restricted = true → row.cameraID ∈ allowed)

/-- In whatever order each statement delivers events of one time, the pages end and have every
matching event once. -/
def Lossless (cfg : MediaLinks.Config) (db : Database) (claims : Claims) (text : Text) (params : Params) (now : Instant)
    (allowed : List UUID) (restricted : Bool) : Prop :=
  ∀ envs : Nat → Env, (∀ turn, Served text params now (envs turn)) → ∃ fuel pages,
    follow (fun turn offset => handleSearchEvents cfg db (envs turn) (some claims) (atOffset params offset)) fuel 0 0 = some pages ∧
      ((pages.flatMap SearchEventsResponse.events).map Event.id).Perm
        ((matching db text params now allowed restricted).map EventRow.id)

/-- The statement is one that the database takes, if it comes to a statement. -/
def Storable (params : Params) (now : Instant) (allowed : List UUID) (restricted : Bool) : Prop :=
  ∀ q, applyEventRBAC (parseEventQuery params now) restricted allowed = some q → ¬ (q.cameraIDsNonNil ∧ q.cameraIDs = []) →
    (build q).args.all Arg.storable = true

/-! ## The query of a page -/

section Queries
variable {params : Params} {now : Instant} {text : Text} {allowed : List UUID} {restricted : Bool} {q : Query} {db : Database} {env : Env}

/-- Of the parameters of the next page only the offset differs. -/
private theorem parse_atOffset {offset : Nat} (bound : offset ≤ 9223372036854775807) :
    parseEventQuery (atOffset params offset) now = { parseEventQuery params now with offset := offset } := by
  have other (name : String) (differs : name ≠ "offset") : atOffset params offset name = params name := if_neg differs
  have own : given (atOffset params offset "offset") atoi = some (offset : Int) := by
    have written : String.ofList (Nat.toDigits 10 offset) ≠ "" := by
      intro empty
      have digits := congrArg String.toList empty
      rw [String.toList_ofList] at digits
      exact Nat.toDigits_ne_nil digits
    rw [atOffset, if_pos rfl, Int.toNat_natCast, given, if_neg written]
    exact atoi_toDigits bound
  have range : parseTimeRange (atOffset params offset) now = parseTimeRange params now := by
    simp only [parseTimeRange, other "start" (by decide), other "end" (by decide)]
  have listed : listedIDs (atOffset params offset) = listedIDs params := by
    simp only [listedIDs, other "camera_ids" (by decide)]
  simp only [parseEventQuery, range, listed, own, other "search" (by decide), other "camera_ids" (by decide),
    other "camera_id" (by decide), other "types" (by decide), other "limit" (by decide), Option.getD_some]

private theorem parse_of_range {later : Instant} (range : parseTimeRange params later = parseTimeRange params now) :
    parseEventQuery params later = parseEventQuery params now := by
  simp only [parseEventQuery, range]

private theorem applyEventRBAC_offset (offset : Int) : applyEventRBAC { q with offset } restricted allowed =
    (applyEventRBAC q restricted allowed).map fun q => { q with offset } := by
  obtain ⟨cameraID, startTime, endTime, eventTypes, search, limit, before, cameraIDs, cameraIDsNonNil⟩ := q
  cases restricted <;> cases cameraID <;> simp only [applyEventRBAC, Bool.not_true, Bool.not_false, Bool.false_eq_true, if_true, if_false]
  · rfl
  · rfl
  · split_ifs <;> rfl
  · split_ifs <;> rfl

private theorem applyEventRBAC_limit {narrowed : Query} (through : applyEventRBAC q restricted allowed = some narrowed) :
    narrowed.limit = q.limit := by
  obtain ⟨cameraID, startTime, endTime, eventTypes, search, limit, before, cameraIDs, cameraIDsNonNil⟩ := q
  cases restricted <;> cases cameraID <;>
    simp only [applyEventRBAC, Bool.not_true, Bool.not_false, Bool.false_eq_true, if_true, if_false] at through
  · cases through
    rfl
  · cases through
    rfl
  · split_ifs at through <;> cases through <;> rfl
  · split_ifs at through
    cases through
    rfl

private theorem covers_of_shape {asked : List UUID} (shape : Shape asked q) (id : UUID) :
    q.covers id = true ↔ asked = [] ∨ id ∈ asked := by
  cases shape with
  | one only asks camera flag => simp [Query.covers, camera, flag, asks]
  | all none_ camera flag => simp [Query.covers, camera, flag, none_]
  | several some_ camera listed flag => simp [Query.covers, camera, flag, listed, some_]

/-- The rows that the query of a page selects are the matching ones. -/
private theorem selected_eq (through : applyEventRBAC (parseEventQuery params now) restricted allowed = some q) :
    (db.events.filter fun row => q.passes text row && q.covers row.cameraID) = matching db text params now allowed restricted := by
  refine List.filter_congr fun row _ => ?_
  rw [Bool.eq_iff_iff, Bool.and_eq_true, decide_eq_true_iff]
  cases restricted with
  | true =>
    obtain ⟨rest, covers⟩ := narrowed_covers (parse_shape params now) through
    rw [covers, requested_iff rest, and_assoc]
    simp
  | false =>
    cases through
    rw [covers_of_shape (parse_shape params now), requested_iff rfl]
    simp

private theorem matching_of_denied (db : Database) (text : Text) (denied : applyEventRBAC (parseEventQuery params now) restricted allowed = none) :
    matching db text params now allowed restricted = [] := by
  refine List.filter_eq_nil_iff.mpr fun row _ asked => ?_
  rw [decide_eq_true_iff] at asked
  cases restricted with
  | true => exact denied_disjoint (parse_shape params now) denied row.cameraID ⟨asked.1.camera, asked.2 rfl⟩
  | false => cases denied

private theorem matching_of_nobody (db : Database) (text : Text) (through : applyEventRBAC (parseEventQuery params now) restricted allowed = some q)
    (nobody : q.cameraIDsNonNil = true ∧ q.cameraIDs = []) : matching db text params now allowed restricted = [] := by
  rw [← selected_eq through]
  refine List.filter_eq_nil_iff.mpr fun row _ => ?_
  simp [Query.covers, nobody.1, nobody.2]

/-- A query that nothing disturbs. -/
private theorem queryEvents_served (db : Database) (failure : env.failure = none) (delivered : env.delivered = none) (positive : 0 ≤ q.offset)
    (somebody : ¬ (q.cameraIDsNonNil = true ∧ q.cameraIDs = [])) : queryEvents db env q =
      if (build q).args.all Arg.storable then
        scanRows db (q.window (newestFirst env (db.events.filter fun row => q.passes env.text row && q.covers row.cameraID)))
      else .error "ERROR: invalid byte sequence for encoding \"UTF8\": 0x00 (SQLSTATE 22021)" := by
  obtain ⟨tests, built, means⟩ := tests_build env.text q
  have selected : (db.events.filter fun row => tests.all fun test => test row) =
      db.events.filter fun row => q.passes env.text row && q.covers row.cameraID :=
    List.filter_congr fun row _ => means row
  simp only [queryEvents, if_neg somebody, failure, built, delivered, selected, if_neg (not_lt.mpr positive)]
  cases (build q).args.all Arg.storable with
  | true | false => rfl

private theorem scanRows_of_some {rows : List EventRow} (some_ : ∀ row ∈ rows, row.thumbnail ≠ none) :
    scanRows db rows = .ok (rows.map fun row => (row, eventOf db row)) := by
  induction rows with
  | nil => rfl
  | cons row rows ih =>
    obtain ⟨own, later⟩ := List.forall_mem_cons.mp some_
    have rest := ih later
    rw [scanRows] at rest ⊢
    rw [List.mapM_cons, if_neg own, rest]
    rfl

private theorem some_of_scanRows {rows : List EventRow} {found : List (EventRow × Event)} (read : scanRows db rows = .ok found) :
    ∀ row ∈ rows, row.thumbnail ≠ none := by
  induction rows generalizing found with
  | nil => exact List.forall_mem_nil _
  | cons row rows ih =>
    rw [scanRows, List.mapM_cons] at read
    by_cases missing : row.thumbnail = none
    · rw [if_pos missing] at read
      cases read
    · rw [if_neg missing] at read
      cases later : scanRows db rows with
      | error err =>
        rw [scanRows] at later
        simp [later, bind, Except.bind] at read
      | ok others => exact List.forall_mem_cons.mpr ⟨missing, ih later⟩

end Queries

/-! ## Pages -/

section Pages
variable {cfg : MediaLinks.Config} {db : Database} {env : Env} {claims : Claims} {params : Params} {now : Instant} {text : Text}
  {allowed : List UUID} {restricted : Bool} {size offset : Nat}

/-- What `env` delivers the matching rows in. -/
private def arranged (db : Database) (text : Text) (params : Params) (now : Instant) (allowed : List UUID) (restricted : Bool)
    (env : Env) : List EventRow :=
  newestFirst env (matching db text params now allowed restricted)

private theorem ranked_arranged (env : Env) : Ranked EventRow.eventTime (matching db text params now allowed restricted)
    (arranged db text params now allowed restricted env) :=
  ⟨newestFirst_perm _, newestFirst_sorted _⟩

private theorem arranged_nil (none_ : matching db text params now allowed restricted = []) :
    arranged db text params now allowed restricted env = [] := by
  rw [arranged, none_]
  exact List.perm_nil.mp (newestFirst_perm [])

/-- The rows that the statement of a page delivers. -/
private def fetched (size offset : Nat) (rows : List EventRow) : List EventRow := (rows.drop offset).take (size + 1)

private theorem handleSearchEvents_eq (authorized : authorizedCameraIDs db.toDirectory (some claims) = .ok (allowed, restricted))
    (asked : given (params "limit") atoi = some (size : Int)) (least : 1 ≤ size) (greatest : size ≤ 500)
    (bound : offset ≤ 9223372036854775807) (served : Served text params now env) :
    handleSearchEvents cfg db env (some claims) (atOffset params offset) =
      match applyEventRBAC (parseEventQuery params now) restricted allowed with
      | none => .json 200 { events := [], nextOffset := 0, hasMore := false, authorizedCameras := allowed, restricted := true }
      | some q =>
        match queryEvents db env { q with offset := offset, limit := size + 1 } with
        | .error err => .error 500 err
        | .ok found => .json 200
            { events := (found.take size).map fun entry => decorate cfg env claims.userId entry.1 entry.2
              nextOffset := offset + ((found.take size).length : Nat)
              hasMore := decide (size < found.length)
              authorizedCameras := if restricted then allowed else []
              restricted } := by
  have limit : (parseEventQuery params now).limit = size := by
    have parts := parse_rest params now
    simp only [Query.rest, Prod.mk.injEq] at parts
    rw [parts.2.2.2.2.1, asked, Option.getD_some]
  simp only [handleSearchEvents, authorized, parse_atOffset bound, parse_of_range served.range, applyEventRBAC_offset]
  cases through : applyEventRBAC (parseEventQuery params now) restricted allowed with
  | none => rfl
  | some q =>
    have own : q.limit = size := (applyEventRBAC_limit through).trans limit
    have small : ¬ ((size : Int) ≤ 0 ∨ 500 < (size : Int)) := by omega
    simp only [Option.map_some, own, if_neg small]
    cases queryEvents db env { q with offset := offset, limit := size + 1 } with
    | error err => rfl
    | ok found =>
      by_cases more : size < found.length
      · simp [more]
      · simp [more, List.take_of_length_le (not_lt.mp more)]

private theorem shown_id (userID : String) (row : EventRow) :
    (decorate cfg env userID row (eventOf db row)).id = row.id := by
  simp only [decorate, playbackURL]
  split <;> rfl

private theorem window_fetched {q : Query} (greatest : size ≤ 500) (rows : List EventRow) :
    ({ q with offset := offset, limit := size + 1 } : Query).window rows = fetched size offset rows := by
  have small : ¬ ((size : Int) + 1 ≤ 0 ∨ (size : Int) + 1 > 1000) := by omega
  simp only [Query.window, if_neg small, fetched]
  rfl

/-- What a page shows of the rows. -/
private structure Shows (rows : List EventRow) (size offset : Nat) (page : SearchEventsResponse) : Prop where
  events : page.events.map Event.id = ((rows.drop offset).take size).map EventRow.id
  more : page.hasMore = true ↔ offset + size < rows.length
  next : page.hasMore = true → page.nextOffset = (offset + size : Nat)

private theorem mem_fetched {row : EventRow}
    (held : row ∈ fetched size offset (arranged db text params now allowed restricted env)) :
    row ∈ matching db text params now allowed restricted :=
  (newestFirst_perm _).mem_iff.mp (List.mem_of_mem_drop (List.mem_of_mem_take held))

private theorem shows_fetched (rows : List EventRow) : Shows rows size offset
    { events := (((fetched size offset rows).map fun row => (row, eventOf db row)).take size).map fun entry =>
        decorate cfg env claims.userId entry.1 entry.2
      nextOffset := offset + ((((fetched size offset rows).map fun row => (row, eventOf db row)).take size).length : Nat)
      hasMore := decide (size < ((fetched size offset rows).map fun row => (row, eventOf db row)).length)
      authorizedCameras := if restricted then allowed else []
      restricted } where
  events := by
    have shorter : min size (size + 1) = size := by omega
    rw [← List.map_take, fetched, List.take_take, shorter, List.map_map, List.map_map]
    exact List.map_congr_left fun row _ => shown_id claims.userId row
  more := by
    simp only [decide_eq_true_eq, fetched, List.length_map, List.length_take, List.length_drop]
    omega
  next := by
    simp only [decide_eq_true_eq, fetched, List.length_map, List.length_take, List.length_drop]
    omega

private theorem queryEvents_nobody {q : Query} {offset limit : Int} (nobody : q.cameraIDsNonNil = true ∧ q.cameraIDs = []) :
    queryEvents db env { q with offset, limit } = .ok [] :=
  if_pos nobody

private theorem queryEvents_page {q : Query} (greatest : size ≤ 500) (served : Served text params now env)
    (through : applyEventRBAC (parseEventQuery params now) restricted allowed = some q)
    (somebody : ¬ (q.cameraIDsNonNil = true ∧ q.cameraIDs = [])) :
    queryEvents db env { q with offset := offset, limit := size + 1 } =
      if (build q).args.all Arg.storable then scanRows db (fetched size offset (arranged db text params now allowed restricted env))
      else .error "ERROR: invalid byte sequence for encoding \"UTF8\": 0x00 (SQLSTATE 22021)" := by
  have answer := queryEvents_served db (q := { q with offset := offset, limit := size + 1 }) served.failure served.delivered
    (Int.natCast_nonneg offset) somebody
  rw [served.text, window_fetched greatest] at answer
  rw [arranged, ← selected_eq through]
  exact answer

private theorem page_shows (cfg : MediaLinks.Config) (offset : Nat) (authorized : authorizedCameraIDs db.toDirectory (some claims) = .ok (allowed, restricted))
    (asked : given (params "limit") atoi = some (size : Int)) (least : 1 ≤ size) (greatest : size ≤ 500)
    (bound : offset ≤ 9223372036854775807) (served : Served text params now env)
    (storable : Storable params now allowed restricted)
    (some_ : ∀ row ∈ matching db text params now allowed restricted, row.thumbnail ≠ none) :
    ∃ page, handleSearchEvents cfg db env (some claims) (atOffset params offset) = .json 200 page ∧
      Shows (arranged db text params now allowed restricted env) size offset page := by
  rw [handleSearchEvents_eq authorized asked least greatest bound served]
  cases through : applyEventRBAC (parseEventQuery params now) restricted allowed with
  | none =>
    have none_ := matching_of_denied db text through
    refine ⟨_, rfl, ?_⟩
    rw [arranged_nil none_]
    exact ⟨by simp, by simp, nofun⟩
  | some q =>
    by_cases nobody : q.cameraIDsNonNil = true ∧ q.cameraIDs = []
    · have none_ := matching_of_nobody db text through nobody
      simp only [queryEvents_nobody nobody]
      refine ⟨_, rfl, ?_⟩
      rw [arranged_nil none_]
      exact ⟨by simp, by simp, nofun⟩
    · simp only [queryEvents_page greatest served through nobody, storable q through nobody, if_true]
      rw [scanRows_of_some fun row held => some_ row (mem_fetched held)]
      exact ⟨_, rfl, shows_fetched _⟩

/-- A page that is answered shows that its statement was taken and its rows could be read. -/
private theorem of_answered {status : Nat} {page : SearchEventsResponse}
    (authorized : authorizedCameraIDs db.toDirectory (some claims) = .ok (allowed, restricted))
    (asked : given (params "limit") atoi = some (size : Int)) (least : 1 ≤ size) (greatest : size ≤ 500)
    (bound : offset ≤ 9223372036854775807) (served : Served text params now env)
    (answered : handleSearchEvents cfg db env (some claims) (atOffset params offset) = .json status page) :
    Storable params now allowed restricted ∧
      (∀ row ∈ fetched size offset (arranged db text params now allowed restricted env), row.thumbnail ≠ none) ∧
        Shows (arranged db text params now allowed restricted env) size offset page := by
  rw [handleSearchEvents_eq authorized asked least greatest bound served] at answered
  cases through : applyEventRBAC (parseEventQuery params now) restricted allowed with
  | none =>
    have none_ := matching_of_denied db text through
    simp only [through] at answered
    cases answered
    rw [arranged_nil none_]
    exact ⟨fun q narrowed => absurd (through.symm.trans narrowed) (Option.some_ne_none q).symm, by simp [fetched], by simp, by simp, nofun⟩
  | some q =>
    simp only [through] at answered
    by_cases nobody : q.cameraIDsNonNil = true ∧ q.cameraIDs = []
    · have none_ := matching_of_nobody db text through nobody
      simp only [queryEvents_nobody nobody] at answered
      cases answered
      rw [arranged_nil none_]
      refine ⟨fun other narrowed somebody => ?_, by simp [fetched], by simp, by simp, nofun⟩
      cases through.symm.trans narrowed
      exact absurd nobody somebody
    · rw [queryEvents_page greatest served through nobody] at answered
      by_cases taken : (build q).args.all Arg.storable = true
      · rw [if_pos taken] at answered
        cases read : scanRows db (fetched size offset (arranged db text params now allowed restricted env)) with
        | error err =>
          rw [read] at answered
          cases answered
        | ok found =>
          have some_ := some_of_scanRows read
          rw [scanRows_of_some some_] at answered
          cases answered
          refine ⟨fun other narrowed _ => ?_, some_, shows_fetched _⟩
          cases through.symm.trans narrowed
          exact taken
      · rw [if_neg taken] at answered
        cases answered

end Pages

/-! ## Runs -/

/-- There are no more events than identifiers. -/
private theorem Log.length_le (log : Log) : log.events.length ≤ 9223372036854775807 := by
  have inside : (log.events.map EventRow.id).toFinset ⊆ Finset.Icc 1 9223372036854775807 := by
    intro id held
    obtain ⟨row, here, rfl⟩ := List.mem_map.mp (List.mem_toFinset.mp held)
    exact Finset.mem_Icc.mpr (log.ranged row here)
  have counted := Finset.card_le_card inside
  rw [List.toFinset_card_of_nodup log.drawn, List.length_map, Int.card_Icc] at counted
  exact counted

private theorem follow_unique {ask : Nat → Int → Reply SearchEventsResponse} {fuel fuel' turn : Nat} {offset : Int}
    {pages pages' : List SearchEventsResponse} (run : follow ask fuel turn offset = some pages)
    (run' : follow ask fuel' turn offset = some pages') : pages = pages' := by
  induction fuel generalizing fuel' turn offset pages pages' with
  | zero => cases run
  | succ fuel ih =>
    cases fuel' with
    | zero => cases run'
    | succ fuel' =>
      simp only [follow] at run run'
      cases answer : ask turn offset with
      | error status err =>
        rw [answer] at run
        cases run
      | noContent =>
        rw [answer] at run
        cases run
      | json status page =>
        simp only [answer] at run run'
        by_cases more : page.hasMore = true
        · rw [if_pos more, Option.map_eq_some_iff] at run run'
          obtain ⟨rest, later, rfl⟩ := run
          obtain ⟨rest', later', rfl⟩ := run'
          rw [ih later later']
        · rw [if_neg more] at run run'
          exact Option.some_injective _ (run.symm.trans run')

section Runs
variable {cfg : MediaLinks.Config} {log : Log} {envs : Nat → Env} {claims : Claims} {params : Params} {now : Instant} {text : Text}
  {allowed : List UUID} {restricted : Bool} {size : Nat}

private theorem matching_length :
    (matching log.toDatabase text params now allowed restricted).length ≤ 9223372036854775807 :=
  (List.length_filter_le _ _).trans log.length_le

private theorem arranged_length {env : Env} : (arranged log.toDatabase text params now allowed restricted env).length =
    (matching log.toDatabase text params now allowed restricted).length :=
  (newestFirst_perm _).length_eq

/-- From a turn on the pages show the windows of their own orders. -/
private theorem follow_windows (cfg : MediaLinks.Config) (authorized : authorizedCameraIDs log.toDirectory (some claims) = .ok (allowed, restricted))
    (asked : given (params "limit") atoi = some (size : Int)) (least : 1 ≤ size) (greatest : size ≤ 500)
    (served : ∀ turn, Served text params now (envs turn)) (storable : Storable params now allowed restricted)
    (some_ : ∀ row ∈ matching log.toDatabase text params now allowed restricted, row.thumbnail ≠ none) (left turn : Nat)
    (reached : turn * size ≤ (matching log.toDatabase text params now allowed restricted).length)
    (covered : (matching log.toDatabase text params now allowed restricted).length ≤ (turn + (left + 1)) * size) :
    ∃ pages, follow (fun turn offset => handleSearchEvents cfg log.toDatabase (envs turn) (some claims) (atOffset params offset))
        (left + 1) turn (turn * size : Nat) = some pages ∧
      (pages.flatMap SearchEventsResponse.events).map Event.id = ((List.range' turn (left + 1)).flatMap fun turn =>
        window size turn (arranged log.toDatabase text params now allowed restricted (envs turn))).map EventRow.id := by
  obtain ⟨page, answer, shows⟩ := page_shows cfg (turn * size) authorized asked least greatest
    (reached.trans matching_length) (served turn) storable some_
  have events : page.events.map Event.id =
      (window size turn (arranged log.toDatabase text params now allowed restricted (envs turn))).map EventRow.id := shows.events
  induction left generalizing turn page with
  | zero =>
    have last : page.hasMore ≠ true := by
      rw [ne_eq, shows.more, arranged_length, not_lt, ← Nat.succ_mul]
      exact covered
    refine ⟨[page], ?_, ?_⟩
    · simp only [follow, answer, if_neg last]
    · rw [List.flatMap_singleton, List.range'_one, List.flatMap_singleton]
      exact events
  | succ left ih =>
    by_cases more : page.hasMore = true
    · have behind := shows.more.mp more
      rw [arranged_length, ← Nat.succ_mul] at behind
      obtain ⟨next, answer', shows'⟩ := page_shows cfg ((turn + 1) * size) authorized asked least greatest
        (behind.le.trans matching_length) (served (turn + 1)) storable some_
      obtain ⟨pages, run, shown⟩ := ih (turn + 1) behind.le (by rwa [Nat.add_assoc, Nat.add_comm 1]) next answer' shows' shows'.events
      refine ⟨page :: pages, ?_, ?_⟩
      · rw [follow, answer]
        simp only [more, if_true, shows.next more, ← Nat.succ_mul]
        rw [run]
        rfl
      · have turns : List.range' turn (left + 1 + 1) = turn :: List.range' (turn + 1) (left + 1) := List.range'_succ
        rw [turns, List.flatMap_cons, List.flatMap_cons, List.map_append, List.map_append, shown, events]
    · have ends : (matching log.toDatabase text params now allowed restricted).length ≤ (turn + 1) * size := by
        rw [shows.more, arranged_length, not_lt, ← Nat.succ_mul] at more
        exact more
      have none_ : ((List.range' (turn + 1) (left + 1)).flatMap fun turn =>
          window size turn (arranged log.toDatabase text params now allowed restricted (envs turn))) = [] := by
        refine List.flatMap_eq_nil_iff.mpr fun later held => ?_
        have after : (turn + 1) * size ≤ later * size := Nat.mul_le_mul_right size (List.mem_range'_1.mp held).1
        rw [window, List.drop_eq_nil_of_le (arranged_length.trans_le (ends.trans after)), List.take_nil]
      refine ⟨[page], ?_, ?_⟩
      · simp only [follow, answer, if_neg more]
      · rw [List.flatMap_singleton, List.range'_succ, List.flatMap_cons, none_, List.append_nil]
        exact events

/-- A run that ends read every row from its turn on. -/
private theorem of_follow {env : Env} (authorized : authorizedCameraIDs log.toDirectory (some claims) = .ok (allowed, restricted))
    (asked : given (params "limit") atoi = some (size : Int)) (least : 1 ≤ size) (greatest : size ≤ 500) (served : Served text params now env)
    {fuel turn : Nat} {pages : List SearchEventsResponse}
    (reached : turn * size ≤ (matching log.toDatabase text params now allowed restricted).length)
    (run : follow (fun _ offset => handleSearchEvents cfg log.toDatabase env (some claims) (atOffset params offset)) fuel turn
      (turn * size : Nat) = some pages) :
    Storable params now allowed restricted ∧
      ∀ row ∈ (arranged log.toDatabase text params now allowed restricted env).drop (turn * size), row.thumbnail ≠ none := by
  induction fuel generalizing turn pages with
  | zero => cases run
  | succ fuel ih =>
    simp only [follow] at run
    cases answer : handleSearchEvents cfg log.toDatabase env (some claims) (atOffset params (turn * size : Nat)) with
    | error status err =>
      rw [answer] at run
      cases run
    | noContent =>
      rw [answer] at run
      cases run
    | json status page =>
      obtain ⟨storable, read, shows⟩ := of_answered authorized asked least greatest (reached.trans matching_length) served answer
      refine ⟨storable, fun row held => ?_⟩
      simp only [answer] at run
      rw [← List.take_append_drop (size + 1) (List.drop _ _)] at held
      rcases List.mem_append.mp held with here | later
      · exact read row here
      · by_cases more : page.hasMore = true
        · have behind := shows.more.mp more
          rw [arranged_length, ← Nat.succ_mul] at behind
          rw [if_pos more, Option.map_eq_some_iff, shows.next more, ← Nat.succ_mul] at run
          obtain ⟨rest, goes, _⟩ := run
          rw [List.drop_drop, ← Nat.add_assoc, ← Nat.succ_mul, ← List.drop_drop] at later
          exact (ih behind.le goes).2 row (List.mem_of_mem_drop later)
        · rw [shows.more, not_lt] at more
          rw [List.drop_drop, List.drop_eq_nil_of_le (by omega)] at later
          cases later

/-- A moment at which the statement meets the rows by a given scan. -/
private def meeting (now : Instant) (text : Text) (scan : Scan EventRow) : Env where
  now
  text
  scan
  stamp := fun _ => ⟨⟨0⟩, 0, 0⟩
  tenths := fun _ => 0

private theorem exists_env {rows : List EventRow}
    (ranked : Ranked EventRow.eventTime (matching log.toDatabase text params now allowed restricted) rows) :
    ∃ env, Served text params now env ∧ arranged log.toDatabase text params now allowed restricted env = rows := by
  obtain ⟨scan, delivers⟩ := exists_scan ranked
  exact ⟨meeting now text scan, ⟨rfl, rfl, rfl, rfl⟩, delivers⟩

/-- Following the pages loses and repeats nothing exactly if each statement is taken, each matching
row can be read, and no page ends among events of one time. -/
theorem lossless_iff (cfg : MediaLinks.Config) (log : Log) (claims : Claims) (text : Text) (params : Params) (now : Instant)
    (allowed : List UUID) (restricted : Bool) (size : Nat)
    (authorized : authorizedCameraIDs log.toDirectory (some claims) = .ok (allowed, restricted))
    (asked : given (params "limit") atoi = some (size : Int)) (least : 1 ≤ size) (greatest : size ≤ 500) :
    Lossless cfg log.toDatabase claims text params now allowed restricted ↔
      Storable params now allowed restricted ∧
        (∀ row ∈ matching log.toDatabase text params now allowed restricted, row.thumbnail ≠ none) ∧
          Together EventRow.eventTime size (matching log.toDatabase text params now allowed restricted) := by
  have covered : (matching log.toDatabase text params now allowed restricted).length ≤
      (0 + ((matching log.toDatabase text params now allowed restricted).length + 1)) * size := by
    rw [Nat.zero_add]
    exact (Nat.le_succ _).trans (Nat.le_mul_of_pos_right _ least)
  have start : 0 * size ≤ (matching log.toDatabase text params now allowed restricted).length := by
    rw [Nat.zero_mul]
    exact Nat.zero_le _
  constructor
  · intro lossless
    rw [Nat.zero_add] at covered
    have plain := ranked_favouring EventRow.eventTime (fun _ => true) (matching log.toDatabase text params now allowed restricted)
    obtain ⟨env, served, arranged_⟩ := exists_env plain
    obtain ⟨fuel, pages, run, _⟩ := lossless (fun _ => env) fun _ => served
    obtain ⟨storable, read⟩ := of_follow authorized asked least greatest served start (by rw [Nat.zero_mul]; exact run)
    have some_ : ∀ row ∈ matching log.toDatabase text params now allowed restricted, row.thumbnail ≠ none := by
      intro row held
      refine read row ?_
      rw [Nat.zero_mul, List.drop_zero, arranged_]
      exact plain.perm.mem_iff.mpr held
    refine ⟨storable, some_, together_of_nodup covered fun choose ranked => ?_⟩
    choose envs served arranged_ using fun turn => exists_env (ranked turn)
    obtain ⟨fuel, pages, run, once⟩ := lossless _ served
    obtain ⟨pages', run', shown⟩ := follow_windows cfg authorized asked least greatest served storable some_ _ 0 start
      (by rw [Nat.zero_add]; exact covered)
    rw [Nat.zero_mul, Nat.cast_zero] at run'
    obtain rfl := follow_unique run run'
    have distinct : ((matching log.toDatabase text params now allowed restricted).map EventRow.id).Nodup :=
      log.drawn.sublist (List.filter_sublist.map EventRow.id)
    rw [shown, ← List.range_eq_range'] at once
    simp only [arranged_] at once
    exact (once.nodup_iff.mpr distinct).of_map
  · rintro ⟨storable, some_, together⟩ envs served
    obtain ⟨pages, run, shown⟩ := follow_windows cfg authorized asked least greatest served storable some_ _ 0 start covered
    rw [Nat.zero_mul, Nat.cast_zero] at run
    refine ⟨_, pages, run, ?_⟩
    rw [shown, ← List.range_eq_range']
    rw [Nat.zero_add] at covered
    exact (windows_perm least together (fun turn => ranked_arranged (envs turn)) covered).map EventRow.id

end Runs

private def keeper : Claims where
  userId := "00000000-0000-0000-0000-000000000001"
  username := "vera"
  role := .viewer
  organizationId := "co-1"

/-- Two events of one camera, the second a given time after the first. -/
private def apart (gap : Nat) : Log where
  users := .single { id := ⟨1⟩, username := "vera", role := .viewer, organizationId := some "co-1", assignedSiteIds := ["site-1"] }
  sites := .single { id := "site-1", name := "Yard", organizationId := "co-1" }
  cameras := .single { id := ⟨10⟩, name := "gate", siteId := some "site-1" }
  events := [⟨7, ⟨10⟩, 1749999000000000000, "motion", some "{}", some "", none⟩,
    ⟨8, ⟨10⟩, 1749999000000000000 + gap, "motion", some "{}", some "", none⟩]
  segments := .empty
  drawn := by simp
  ranged := by simp

private def oneEach : Params := fun name => if name = "limit" then "1" else ""

/-- Every other statement meets the rows from the other end. -/
private def turning (turn : Nat) : Env where
  now := 1750000000000000000
  scan := if turn % 2 = 0 then .inOrder else ⟨List.reverse, List.reverse_perm⟩
  stamp := fun _ => ⟨⟨5⟩, 0, 0⟩
  tenths := fun _ => 0
  text := ⟨id, id⟩

/-- Two events of different times, one to a page. -/
theorem distinct_times_paged : Lossless ⟨"", "", ""⟩ (apart 1).toDatabase keeper ⟨id, id⟩ oneEach 1750000000000000000 [⟨10⟩] true := by
  refine (lossless_iff ⟨"", "", ""⟩ (apart 1) keeper ⟨id, id⟩ oneEach 1750000000000000000 [⟨10⟩] true 1 (by decide +kernel)
    (by decide +kernel) le_rfl (by omega)).mpr ⟨?_, by decide +kernel, ?_⟩
  · intro q through _
    have taken : (applyEventRBAC (parseEventQuery oneEach 1750000000000000000) true [⟨10⟩]).all
        (fun q => (build q).args.all Arg.storable) = true := by decide +kernel
    rw [through] at taken
    exact taken
  · have single : ∀ row ∈ matching (apart 1).toDatabase ⟨id, id⟩ oneEach 1750000000000000000 [⟨10⟩] true,
        notBelow EventRow.eventTime (matching (apart 1).toDatabase ⟨id, id⟩ oneEach 1750000000000000000 [⟨10⟩] true) row.eventTime =
          above EventRow.eventTime (matching (apart 1).toDatabase ⟨id, id⟩ oneEach 1750000000000000000 [⟨10⟩] true) row.eventTime + 1 := by
      decide +kernel
    intro row held page between
    have place := single row held
    omega

/-- Two events of one time, asked for one at a time: the second page may show the first again. -/
theorem tied_event_repeated :
    ¬ Lossless ⟨"", "", ""⟩ (apart 0).toDatabase keeper ⟨id, id⟩ oneEach 1750000000000000000 [⟨10⟩] true := by
  intro lossless
  obtain ⟨fuel, pages, run, once⟩ := lossless turning fun _ => ⟨rfl, rfl, rfl, rfl⟩
  have shown : ((follow (fun turn offset => handleSearchEvents ⟨"", "", ""⟩ (apart 0).toDatabase (turning turn) (some keeper)
      (atOffset oneEach offset)) 2 0 0).map fun pages => (pages.flatMap SearchEventsResponse.events).map Event.id) = some [7, 7] := by
    decide +kernel
  obtain ⟨pages', run', ids⟩ := Option.map_eq_some_iff.mp shown
  rw [follow_unique run run', ids] at once
  exact absurd (once.mem_iff (a := 8)) (by decide +kernel)

end Ironsight.EventSearch
