import Ironsight.Access
import Ironsight.Runs
import Ironsight.SqlText
import Ironsight.Uuid
import Mathlib.Tactic.IntervalCases

/-! The audit trail of served media. Handlers put a row into a bounded ring and go on; one
goroutine takes the rows out and writes them in batches: when a batch is full, at every
tick, and what is left when it is stopped. -/
namespace Ironsight.MediaAudit
open Runs Uuid SqlText
open Access (Instant)

def AuditRingSize : Nat := 1024
def AuditFlushBatch : Nat := 100

structure MediaAuditRow where
  when : Instant
  userID : UUID
  username : String
  cameraID : String
  path : String
  kind : String
  ip : String
  deriving DecidableEq

/-! ## One batch -/

/-- The argument of a placeholder. -/
inductive Arg where
  | null
  | id (id : UUID)
  | text (text : String)
  | time (time : Instant)
  deriving DecidableEq

structure Statement where
  text : List Char
  args : List Arg
  deriving DecidableEq

/-- `byte('0' + n)`. -/
def digit (n : Nat) : Char := Char.ofNat ('0'.toNat + n)

/-- The loop of `writeIdx`: `i` digits of the buffer are free. -/
def digitsInto : Nat → Nat → List Char → Option (List Char)
  | _, 0, digits => some digits
  | 0, _ + 1, _ => none
  | i + 1, n@(_ + 1), digits => digitsInto i (n / 10) (digit (n % 10) :: digits)

/-- `writeIdx`; no value where the index leaves the buffer. -/
def writeIdx (n : Nat) : Option (List Char) :=
  if n < 10 then some [digit n] else digitsInto 6 n []

/-- `mediaDetailsJSON`. -/
def mediaDetailsJSON (kind path : String) : String :=
  "\x7b\"kind\":\"" ++ kind ++ "\",\"path\":\"" ++ path ++ "\"\x7d"

/-- The tuple of one row, whose placeholders start at `argIdx`. -/
def writeTuple (argIdx : Nat) : Option (List Char) := do
  let userID ← writeIdx argIdx
  let username ← writeIdx (argIdx + 1)
  let cameraID ← writeIdx (argIdx + 2)
  let details ← writeIdx (argIdx + 3)
  let ip ← writeIdx (argIdx + 4)
  let when_ ← writeIdx (argIdx + 5)
  return "($".toList ++ userID ++ ",$".toList ++ username ++ ",'media_serve','camera',$".toList ++ cameraID ++
    ",$".toList ++ details ++ ",$".toList ++ ip ++ ",$".toList ++ when_ ++ ")".toList

/-- The loop over the rows, from row `i` on. -/
def writeTuples (i argIdx : Nat) : List MediaAuditRow → Option (List Char)
  | [] => some []
  | _ :: rest => do
    let tuple ← writeTuple argIdx
    let later ← writeTuples (i + 1) (argIdx + 6) rest
    return (if 0 < i then [','] else []) ++ tuple ++ later

def userArg (row : MediaAuditRow) : Arg := if row.userID ≠ UUID.nil then .id row.userID else .null

def rowArgs (row : MediaAuditRow) : List Arg :=
  [userArg row, .text row.username, .text row.cameraID, .text (mediaDetailsJSON row.kind row.path), .text row.ip,
    .time row.when]

def insertInto : List Char :=
  "INSERT INTO audit_log (user_id, username, action, target_type, target_id, details, ip_address, created_at) VALUES ".toList

/-- `flushBatch`: the statement that is sent, if any. -/
def flushBatch (db : Bool) (rows : List MediaAuditRow) : Except String (Option Statement) :=
  if db = false ∨ rows = [] then .ok none
  else
    match writeTuples 0 1 rows with
    | none => .error "index out of range"
    | some tuples => .ok (some ⟨insertInto ++ tuples, rows.flatMap rowArgs⟩)

/-! ## The ring and its goroutine -/

inductive Stage where
  | looping
  | draining
  | done
  deriving DecidableEq

/-- `mediaAuditor`: the ring, the stop channel, the ticker and the locals of `run`;
`flushed` are the batches that were handed to `flushBatch`. -/
structure MediaAuditor where
  rows : List MediaAuditRow := []
  stop : Bool := false
  ticked : Bool := false
  pending : List MediaAuditRow := []
  stage : Stage := .looping
  flushed : List (List MediaAuditRow) := []
  deriving DecidableEq

/-- The cases of the `select` in `run`. -/
inductive Case where
  | stop
  | row
  | tick
  deriving DecidableEq

/-- What happens to the auditor; a turn takes one case of its `select`. -/
inductive Event where
  | enqueue (row : MediaAuditRow)
  | tick
  | stop
  | turn (chosen : Case)
  deriving DecidableEq

def flush (auditor : MediaAuditor) : MediaAuditor :=
  if auditor.pending = [] then auditor
  else { auditor with flushed := auditor.flushed ++ [auditor.pending], pending := [] }

/-- A row is taken out of the ring; a full batch is flushed. -/
def take (row : MediaAuditRow) (rest : List MediaAuditRow) (auditor : MediaAuditor) : MediaAuditor :=
  let taken := { auditor with rows := rest, pending := auditor.pending ++ [row] }
  if AuditFlushBatch ≤ taken.pending.length then flush taken else taken

def ready (auditor : MediaAuditor) : Case → Bool
  | .stop => auditor.stop
  | .row => auditor.rows ≠ []
  | .tick => auditor.ticked

/-- The case that is run: the chosen one if it is ready, else any that is. -/
def selected (auditor : MediaAuditor) (chosen : Case) : Option Case :=
  [chosen, .stop, .row, .tick].find? (ready auditor)

/-- One turn of the goroutine. A flush needs no turn of its own: what happens meanwhile
happens to the ring, which it does not look at. -/
def run (chosen : Case) (auditor : MediaAuditor) : MediaAuditor :=
  match auditor.stage, auditor.rows with
  | .done, _ => auditor
  | .draining, row :: rest => take row rest auditor
  | .draining, [] => { flush auditor with stage := .done }
  | .looping, rows =>
    match selected auditor chosen, rows with
    | none, _ | some .row, [] => auditor
    | some .stop, _ => { auditor with stage := .draining }
    | some .row, row :: rest => take row rest auditor
    | some .tick, _ => flush { auditor with ticked := false }

def enqueue (row : MediaAuditRow) (auditor : MediaAuditor) : MediaAuditor :=
  if auditor.rows.length < AuditRingSize then { auditor with rows := auditor.rows ++ [row] } else auditor

def step (auditor : MediaAuditor) : Event → MediaAuditor
  | .enqueue row => enqueue row auditor
  | .tick => { auditor with ticked := true }
  | .stop => { auditor with stop := true }
  | .turn chosen => run chosen auditor

/-- The rows that `enqueue` puts into the ring along a run. -/
def accepted : MediaAuditor → List Event → List MediaAuditRow
  | _, [] => []
  | auditor, event :: rest =>
    let later := accepted (step auditor event) rest
    match event with
    | .enqueue row => if auditor.rows.length < AuditRingSize then row :: later else later
    | .tick | .stop | .turn _ => later

/-! ## Where the rows are -/

/-- All rows that were accepted so far: those flushed, those taken and those in the ring. -/
def MediaAuditor.all (auditor : MediaAuditor) : List MediaAuditRow :=
  auditor.flushed.flatten ++ auditor.pending ++ auditor.rows

@[simp] theorem all_flush (auditor : MediaAuditor) : (flush auditor).all = auditor.all := by
  unfold flush
  split
  · rfl
  · simp [MediaAuditor.all]

theorem all_take {auditor : MediaAuditor} {row : MediaAuditRow} {rest : List MediaAuditRow}
    (first : auditor.rows = row :: rest) : (take row rest auditor).all = auditor.all := by
  unfold take
  dsimp only
  split
  · rw [all_flush]
    simp [MediaAuditor.all, first]
  · simp [MediaAuditor.all, first]

theorem all_run (chosen : Case) (auditor : MediaAuditor) : (run chosen auditor).all = auditor.all := by
  unfold run
  split
  · rfl
  · rename_i taken
    exact all_take taken
  · exact all_flush auditor
  · split
    · rfl
    · rfl
    · rfl
    · exact all_take ‹_›
    · exact all_flush _

theorem all_exec (events : List Event) (auditor : MediaAuditor) :
    (exec step auditor events).all = auditor.all ++ accepted auditor events := by
  induction events generalizing auditor with
  | nil => simp [accepted]
  | cons event rest ih =>
    rw [exec_cons, ih]
    cases event with
    | enqueue row =>
      simp only [step, enqueue, accepted]
      split <;> simp [MediaAuditor.all]
    | tick | stop => rfl
    | turn chosen => exact congrArg (· ++ _) (all_run chosen auditor)

/-! ## How large the batches are -/

/-- Flushed batches are neither empty nor too large, and the next one is not full yet. -/
structure Sized (auditor : MediaAuditor) : Prop where
  batches : ∀ batch ∈ auditor.flushed, batch ≠ [] ∧ batch.length ≤ AuditFlushBatch
  pending : auditor.pending.length < AuditFlushBatch

theorem sized_flush {auditor : MediaAuditor} (batches : ∀ batch ∈ auditor.flushed, batch ≠ [] ∧ batch.length ≤ AuditFlushBatch)
    (pending : auditor.pending.length ≤ AuditFlushBatch) : Sized (flush auditor) := by
  unfold flush
  split
  · rename_i none_pending
    exact ⟨batches, by simp [none_pending, AuditFlushBatch]⟩
  · rename_i some_pending
    refine ⟨fun batch member => ?_, by simp [AuditFlushBatch]⟩
    rcases List.mem_append.mp member with old | new
    · exact batches batch old
    · cases List.mem_singleton.mp new
      exact ⟨some_pending, pending⟩

theorem sized_take {auditor : MediaAuditor} (sized : Sized auditor) (row : MediaAuditRow) (rest : List MediaAuditRow) :
    Sized (take row rest auditor) := by
  have pending := sized.pending
  unfold take
  dsimp only
  split
  · refine sized_flush sized.batches ?_
    simp only [List.length_append, List.length_singleton]
    omega
  · rename_i room
    exact ⟨sized.batches, Nat.lt_of_not_le room⟩

theorem sized_step {auditor : MediaAuditor} (sized : Sized auditor) (event : Event) : Sized (step auditor event) := by
  have pending := Nat.le_of_lt sized.pending
  cases event with
  | enqueue row =>
    simp only [step, enqueue]
    split <;> exact ⟨sized.batches, sized.pending⟩
  | tick | stop => exact ⟨sized.batches, sized.pending⟩
  | turn chosen =>
    simp only [step, run]
    split
    · exact sized
    · exact sized_take sized _ _
    · have flushed := sized_flush sized.batches pending
      exact ⟨flushed.batches, flushed.pending⟩
    · split
      · exact sized
      · exact sized
      · exact ⟨sized.batches, sized.pending⟩
      · exact sized_take sized _ _
      · exact sized_flush sized.batches pending

/-! ## The end -/

/-- Nothing is left when the goroutine has returned, and it returns only when stopped. -/
structure Ended (auditor : MediaAuditor) : Prop where
  stopped : auditor.stop = true
  left : auditor.stage = .done → auditor.pending = [] ∧ auditor.rows = []

/-- How many more turns the goroutine of a stopped auditor takes at most. -/
def rank (auditor : MediaAuditor) : Nat :=
  match auditor.stage with
  | .done => 0
  | .draining => auditor.rows.length + 1
  | .looping => auditor.rows.length + (if auditor.ticked then 1 else 0) + 2

@[simp] theorem flush_stop (auditor : MediaAuditor) :
    (flush auditor).stop = auditor.stop := by unfold flush; split <;> rfl
@[simp] theorem flush_rows (auditor : MediaAuditor) :
    (flush auditor).rows = auditor.rows := by unfold flush; split <;> rfl
@[simp] theorem flush_stage (auditor : MediaAuditor) :
    (flush auditor).stage = auditor.stage := by unfold flush; split <;> rfl
@[simp] theorem flush_ticked (auditor : MediaAuditor) :
    (flush auditor).ticked = auditor.ticked := by unfold flush; split <;> rfl

@[simp] theorem flush_pending (auditor : MediaAuditor) : (flush auditor).pending = [] := by
  unfold flush
  split <;> simp_all

section Take
variable (row : MediaAuditRow) (rest : List MediaAuditRow) (auditor : MediaAuditor)

@[simp] theorem take_stop : (take row rest auditor).stop = auditor.stop := by unfold take; dsimp only; split <;> simp
@[simp] theorem take_rows : (take row rest auditor).rows = rest := by unfold take; dsimp only; split <;> simp
@[simp] theorem take_stage : (take row rest auditor).stage = auditor.stage := by unfold take; dsimp only; split <;> simp
@[simp] theorem take_ticked : (take row rest auditor).ticked = auditor.ticked := by unfold take; dsimp only; split <;> simp

end Take

theorem run_ends {auditor : MediaAuditor} (ended : Ended auditor) (chosen : Case) :
    Ended (run chosen auditor) ∧ rank (run chosen auditor) ≤ rank auditor - 1 := by
  have stopped := ended.stopped
  cases stage : auditor.stage with
  | done => simpa [run, stage, rank] using ended
  | draining =>
    cases rows : auditor.rows with
    | nil =>
      have same : run chosen auditor = { flush auditor with stage := .done } := by simp [run, stage, rows]
      rw [same]
      exact ⟨⟨by simpa using stopped, fun _ => by simp [rows]⟩, by simp [rank]⟩
    | cons row rest =>
      have same : run chosen auditor = take row rest auditor := by simp [run, stage, rows]
      rw [same]
      exact ⟨⟨by simpa using stopped, fun done => by simp [stage] at done⟩, by simp [rank, stage, rows]⟩
  | looping =>
    have chosen_ : ∃ case, selected auditor chosen = some case ∧ ready auditor case = true := by
      cases found : selected auditor chosen with
      | none =>
        have unready := List.find?_eq_none.mp found .stop (by simp)
        simp [ready, stopped] at unready
      | some case => exact ⟨case, rfl, List.find?_some found⟩
    obtain ⟨case, selects, ready_⟩ := chosen_
    cases case with
    | stop =>
      have same : run chosen auditor = { auditor with stage := .draining } := by simp [run, stage, selects]
      rw [same]
      exact ⟨⟨stopped, nofun⟩, by simp [rank, stage]⟩
    | row =>
      obtain ⟨row, rest, rows⟩ := List.exists_cons_of_ne_nil (of_decide_eq_true ready_)
      have same : run chosen auditor = take row rest auditor := by simp [run, stage, selects, rows]
      rw [same]
      refine ⟨⟨by simpa using stopped, fun done => by simp [stage] at done⟩, ?_⟩
      simp only [rank, take_stage, take_rows, take_ticked, stage, rows, List.length_cons]
      omega
    | tick =>
      have same : run chosen auditor = flush { auditor with ticked := false } := by simp [run, stage, selects]
      have ticked : auditor.ticked = true := ready_
      rw [same]
      exact ⟨⟨by simpa using stopped, fun done => by simp [stage] at done⟩, by simp [rank, stage, ticked]⟩

/-- What may happen once the auditor is stopped. -/
def Event.late : Event → Bool
  | .tick | .turn _ => true
  | .enqueue _ | .stop => false

theorem rank_tick (auditor : MediaAuditor) : rank { auditor with ticked := true } ≤ rank auditor + 1 := by
  unfold rank
  cases auditor.stage
  · dsimp only
    split <;> omega
  · exact Nat.le_succ _
  · exact Nat.le_succ _

def Event.isTick : Event → Bool
  | .tick => true
  | .enqueue _ | .stop | .turn _ => false

def Event.isTurn : Event → Bool
  | .turn _ => true
  | .enqueue _ | .stop | .tick => false

theorem exec_done {events : List Event} : ∀ {auditor : MediaAuditor}, auditor.stage = .done →
    (exec step auditor events).stage = .done := by
  induction events with
  | nil => exact fun done => done
  | cons event rest ih =>
    intro auditor done
    refine ih ?_
    cases event with
    | enqueue row =>
      simp only [step, enqueue]
      split <;> exact done
    | tick | stop => exact done
    | turn chosen => simp [step, run, done]

theorem rank_eq_zero {auditor : MediaAuditor} : rank auditor = 0 ↔ auditor.stage = .done := by
  unfold rank
  cases auditor.stage <;> simp

theorem exec_ends {after : List Event} :
    ∀ {auditor : MediaAuditor}, Ended auditor → (∀ event ∈ after, event.late = true) →
    Ended (exec step auditor after) ∧ ((exec step auditor after).stage = .done ∨
      rank (exec step auditor after) + after.countP Event.isTurn ≤ rank auditor + after.countP Event.isTick) := by
  induction after with
  | nil => exact fun ended _ => ⟨ended, .inr (Nat.le_refl _)⟩
  | cons event rest ih =>
    intro auditor ended late
    rw [List.forall_mem_cons] at late
    cases event with
    | enqueue | stop => cases late.1
    | tick =>
      have bounded := rank_tick auditor
      have next : Ended { auditor with ticked := true } := ⟨ended.stopped, ended.left⟩
      obtain ⟨kept, done | lower⟩ := ih next late.2
      · exact ⟨kept, .inl done⟩
      · refine ⟨kept, .inr ?_⟩
        have turns : (Event.tick :: rest).countP Event.isTurn = rest.countP Event.isTurn :=
          List.countP_cons_of_neg Bool.false_ne_true
        have ticks : (Event.tick :: rest).countP Event.isTick = rest.countP Event.isTick + 1 := List.countP_cons_of_pos rfl
        rw [turns, ticks]
        exact Nat.le_trans lower (by omega)
    | turn chosen =>
      obtain ⟨next, lowered⟩ := run_ends ended chosen
      obtain ⟨kept, done | lower⟩ := ih next late.2
      · exact ⟨kept, .inl done⟩
      · refine ⟨kept, ?_⟩
        by_cases done : rank auditor = 0
        · have finished : (exec step auditor (.turn chosen :: rest)).stage = .done := exec_done (rank_eq_zero.mp done)
          exact .inl finished
        · right
          have turns : (Event.turn chosen :: rest).countP Event.isTurn = rest.countP Event.isTurn + 1 := List.countP_cons_of_pos rfl
          have ticks : (Event.turn chosen :: rest).countP Event.isTick = rest.countP Event.isTick :=
            List.countP_cons_of_neg Bool.false_ne_true
          rw [turns, ticks]
          change rank (exec step (run chosen auditor) rest) + _ ≤ _
          omega

/-! ## What the statement says -/

theorem digit_eq : ∀ d < 10, digit d = d.digitChar := by decide

theorem digitsInto_eq {i : Nat} : ∀ {n : Nat} {digits : List Char}, 0 < n → n < 10 ^ i →
    digitsInto i n digits = some (Nat.toDigits 10 n ++ digits) := by
  induction i with
  | zero => intro n digits positive bounded; simp at bounded; omega
  | succ i ih =>
    intro n digits positive bounded
    obtain ⟨m, rfl⟩ := Nat.exists_eq_succ_of_ne_zero (Nat.pos_iff_ne_zero.mp positive)
    have last : digit (Nat.succ m % 10) = (Nat.succ m % 10).digitChar := digit_eq _ (Nat.mod_lt _ (by decide))
    rw [digitsInto, last]
    by_cases single : Nat.succ m < 10
    · rw [Nat.div_eq_of_lt single, Nat.toDigits_of_lt_base single, Nat.mod_eq_of_lt single]
      unfold digitsInto
      rfl
    · have shorter : Nat.succ m / 10 < 10 ^ i := by
        rw [Nat.pow_succ] at bounded
        omega
      rw [ih (by omega) shorter, Nat.toDigits_of_base_le (by decide) (Nat.le_of_not_lt single)]
      simp

theorem writeIdx_eq {n : Nat} (bounded : n < 10 ^ 6) : writeIdx n = some (Nat.toDigits 10 n) := by
  unfold writeIdx
  split
  · rename_i single
    rw [digit_eq n single, Nat.toDigits_of_lt_base single]
  · rw [digitsInto_eq (by omega) bounded, List.append_nil]

/-- The placeholder of an index. -/
def param (n : Nat) : Operand := .param (Nat.toDigits 10 n)

def tupleOperands (argIdx : Nat) : List Operand :=
  [param argIdx, param (argIdx + 1), .quoted "media_serve".toList, .quoted "camera".toList, param (argIdx + 2),
    param (argIdx + 3), param (argIdx + 4), param (argIdx + 5)]

def tupleTokens (argIdx : Nat) : List Token := listed ((tupleOperands argIdx).map Operand.token)

private theorem scan_index (n : Nat) : scan (.param []) (Nat.toDigits 10 n) = (.param (Nat.toDigits 10 n), []) :=
  scan_digits (fun _ member => Nat.isDigit_of_mem_toDigits (by decide) (by decide) member) []

private theorem scan_open : scan .between "($".toList = (.param [], [.mark '(']) := by decide

private theorem scan_comma (digits : List Char) :
    scan (.param digits) ",$".toList = (.param [], [.param digits, .mark ',']) :=
  rfl

private theorem scan_constants (digits : List Char) : scan (.param digits) ",'media_serve','camera',$".toList =
    (.param [], [.param digits, .mark ',', .quoted "media_serve".toList, .mark ',', .quoted "camera".toList, .mark ',']) := by
  rw [show ",'media_serve','camera',$".toList = _ from String.toList_ofList]
  rfl

private theorem scan_close (digits : List Char) :
    scan (.param digits) ")".toList = (.between, [.param digits, .mark ')']) :=
  rfl

theorem writeTuple_scan {argIdx : Nat} (bounded : argIdx + 5 < 10 ^ 6) :
    ∃ tuple, writeTuple argIdx = some tuple ∧ scan .between tuple = (.between, tupleTokens argIdx) := by
  unfold writeTuple
  rw [writeIdx_eq (n := argIdx) (by omega), writeIdx_eq (n := argIdx + 1) (by omega), writeIdx_eq (n := argIdx + 2) (by omega),
    writeIdx_eq (n := argIdx + 3) (by omega), writeIdx_eq (n := argIdx + 4) (by omega), writeIdx_eq bounded]
  refine ⟨_, rfl, ?_⟩
  simp only [scan_append, scan_open, scan_index, scan_comma, scan_constants, scan_close]
  rfl

/-- The tokens of the tuples from row `i` on. -/
def tuplesTokens (i argIdx : Nat) : List MediaAuditRow → List Token
  | [] => []
  | _ :: rest => (if 0 < i then [.mark ','] else []) ++ tupleTokens argIdx ++ tuplesTokens (i + 1) (argIdx + 6) rest

theorem writeTuples_scan {rows : List MediaAuditRow} : ∀ (i : Nat) {argIdx : Nat}, argIdx + 6 * rows.length ≤ 10 ^ 6 →
    ∃ tuples, writeTuples i argIdx rows = some tuples ∧ scan .between tuples = (.between, tuplesTokens i argIdx rows) := by
  induction rows with
  | nil => exact fun _ _ _ => ⟨[], rfl, rfl⟩
  | cons row rest ih =>
    intro i argIdx bounded
    rw [List.length_cons] at bounded
    have here : argIdx + 5 < 10 ^ 6 := by omega
    have there : argIdx + 6 + 6 * rest.length ≤ 10 ^ 6 := by omega
    obtain ⟨tuple, writes, reads⟩ := writeTuple_scan here
    obtain ⟨later, writes_, reads_⟩ := ih (i + 1) there
    refine ⟨(if 0 < i then [','] else []) ++ tuple ++ later, by simp [writeTuples, writes, writes_], ?_⟩
    have comma : scan .between [','] = (.between, [.mark ',']) := by decide
    unfold tuplesTokens
    split
    · simp only [scan_append, comma, reads, reads_]
    · simp only [List.nil_append, scan_append, reads, reads_]

private theorem scan_insertInto : scan .between insertInto = (.between,
    [keyword "INSERT", keyword "INTO", keyword "audit_log"] ++
      listed (["user_id", "username", "action", "target_type", "target_id", "details", "ip_address", "created_at"].map keyword) ++
      [keyword "VALUES"]) := by
  rw [show insertInto = _ from String.toList_ofList]
  decide +kernel

/-- The tuples of the rows whose placeholders start at `argIdx`. -/
def tuplesOperands (argIdx : Nat) : List MediaAuditRow → List (List Operand)
  | [] => []
  | _ :: rest => tupleOperands argIdx :: tuplesOperands (argIdx + 6) rest

/-- The insert of a batch. -/
def insertion (rows : List MediaAuditRow) : Insert where
  table := "audit_log"
  columns := ["user_id", "username", "action", "target_type", "target_id", "details", "ip_address", "created_at"]
  values := tuplesOperands 1 rows

/-- What the row of a serve has to be. -/
def auditLogRow (row : MediaAuditRow) : List (String × Arg) :=
  [("user_id", userArg row), ("username", .text row.username), ("action", .text "media_serve"), ("target_type", .text "camera"),
    ("target_id", .text row.cameraID), ("details", .text (mediaDetailsJSON row.kind row.path)), ("ip_address", .text row.ip),
    ("created_at", .time row.when)]

private theorem tuplesTokens_later {rows : List MediaAuditRow} : ∀ {i argIdx : Nat}, 0 < i →
    tuplesTokens i argIdx rows = (tuplesOperands argIdx rows).flatMap fun tuple => .mark ',' :: listed (tuple.map Operand.token) := by
  induction rows with
  | nil => exact fun _ => rfl
  | cons row rest ih =>
    intro i argIdx later
    rw [tuplesTokens, if_pos later, ih (Nat.succ_pos i)]
    rfl

theorem tuplesTokens_eq (rows : List MediaAuditRow) :
    tuplesTokens 0 1 rows = [.mark ','].intercalate ((insertion rows).values.map fun tuple => listed (tuple.map Operand.token)) := by
  cases rows with
  | nil => rfl
  | cons row rest =>
    rw [tuplesTokens, tuplesTokens_later (Nat.succ_pos 0)]
    simp only [insertion, tuplesOperands, List.map_cons, intercalate_singleton_cons, List.flatMap_map]
    rfl

theorem tuplesTokens_digits (rows : List MediaAuditRow) : ∀ i argIdx : Nat,
    (tuplesTokens i argIdx rows).filterMap Token.digits = (List.range' argIdx (6 * rows.length)).map (Nat.toDigits 10) := by
  induction rows with
  | nil => exact fun _ _ => rfl
  | cons row rest ih =>
    intro i argIdx
    have comma : (if 0 < i then [Token.mark ','] else []).filterMap Token.digits = [] := by split <;> rfl
    have six : 6 * (row :: rest).length = 6 + 6 * rest.length := by rw [List.length_cons]; omega
    rw [tuplesTokens, List.filterMap_append, List.filterMap_append, comma, ih, six, ← List.range'_append_1, List.map_append]
    rfl

/-- The placeholders of a tuple find the arguments of its row. -/
private theorem value_at (earlier later : List Arg) (row : MediaAuditRow) (j : Nat) (inside : j < 6) :
    (param (earlier.length + 1 + j)).value .text (earlier ++ (rowArgs row ++ later)) = (rowArgs row)[j]? := by
  have shifted : earlier.length + 1 + j = earlier.length + j + 1 := by omega
  rw [param, shifted, value_param, List.getElem?_append_right (Nat.le_add_right ..), Nat.add_sub_cancel_left,
    List.getElem?_append_left (by simpa [rowArgs] using inside)]

theorem tupleOperands_row (earlier later : List Arg) (row : MediaAuditRow) :
    tupleRow .text (earlier ++ (rowArgs row ++ later)) (insertion []).columns (tupleOperands (earlier.length + 1)) =
      some (auditLogRow row) := by
  have given (j : Nat) (inside : j < 6) := value_at earlier later row j inside
  have first := given 0 (by decide)
  rw [Nat.add_zero] at first
  have six : (tupleOperands (earlier.length + 1)).mapM (Operand.value .text (earlier ++ (rowArgs row ++ later))) =
      some [userArg row, .text row.username, .text "media_serve", .text "camera", .text row.cameraID,
        .text (mediaDetailsJSON row.kind row.path), .text row.ip, .time row.when] := by
    simp only [tupleOperands, List.mapM_cons, List.mapM_nil, first, given 1 (by decide), given 2 (by decide),
      given 3 (by decide), given 4 (by decide), given 5 (by decide), value_quoted]
    rfl
  have whole : (tupleOperands (earlier.length + 1)).length = (insertion []).columns.length := rfl
  rw [tupleRow, if_pos whole, six]
  rfl

/-- The tuples give the rows. -/
theorem tuplesOperands_rows {rows : List MediaAuditRow} : ∀ earlier : List Arg,
    (tuplesOperands (earlier.length + 1) rows).mapM
        (tupleRow .text (earlier ++ rows.flatMap rowArgs) (insertion []).columns) = some (rows.map auditLogRow) := by
  induction rows with
  | nil => exact fun _ => rfl
  | cons row rest ih =>
    intro earlier
    have later := ih (earlier ++ rowArgs row)
    have next : (earlier ++ rowArgs row).length + 1 = earlier.length + 1 + 6 := by
      rw [List.length_append]
      rfl
    rw [next, List.append_assoc] at later
    rw [tuplesOperands, List.mapM_cons, List.flatMap_cons, tupleOperands_row, later]
    rfl

/-- The statement of a batch names its placeholders from 1 on, each once, and inserts the
rows of the batch. -/
structure Inserts (statement : Statement) (rows : List MediaAuditRow) : Prop where
  numbered : placeholders statement.text = some ((List.range' 1 (6 * rows.length)).map (Nat.toDigits 10))
  given : statement.args.length = 6 * rows.length
  denotes : Denotes statement.text (insertion rows)
  bound : (insertion rows).rows .text statement.args = some (rows.map auditLogRow)

theorem flushBatch_inserts {rows : List MediaAuditRow} (some_row : rows ≠ []) (small : rows.length ≤ AuditFlushBatch) :
    ∃ statement, flushBatch true rows = .ok (some statement) ∧ Inserts statement rows := by
  have indexed : 1 + 6 * rows.length ≤ 10 ^ 6 := by
    unfold AuditFlushBatch at small
    omega
  obtain ⟨tuples, writes, reads⟩ := writeTuples_scan 0 indexed
  refine ⟨⟨insertInto ++ tuples, rows.flatMap rowArgs⟩, by simp [flushBatch, some_row, writes], ?_⟩
  have all : tokens (insertInto ++ tuples) = some (insertion rows).tokens := by
    rw [tokens, scan_append, scan_insertInto, reads, tuplesTokens_eq]
    simp only [closed, Option.map_some, Insert.tokens, List.append_nil, List.append_assoc, List.cons_append, List.nil_append]
    rfl
  refine ⟨?_, ?_, all, ?_⟩
  · rw [placeholders, tokens, scan_append, scan_insertInto, reads]
    simp only [closed, Option.map_some, List.append_nil, List.filterMap_append, tuplesTokens_digits]
    rfl
  · simp [List.length_flatMap, rowArgs, Nat.mul_comm]
  · exact tuplesOperands_rows []

/-! ## Every accepted row is inserted once, in order -/

/-- An auditor that has not been stopped. -/
structure Running (auditor : MediaAuditor) : Prop where
  open_ : auditor.stop = false
  looping : auditor.stage = .looping
  held : auditor.rows.length ≤ AuditRingSize

theorem running_step {auditor : MediaAuditor} {event : Event} (running : Running auditor) (goes_on : event ≠ .stop) :
    Running (step auditor event) := by
  obtain ⟨open_, looping, held⟩ := running
  cases event with
  | enqueue row =>
    simp only [step, enqueue]
    split
    · rename_i room
      exact ⟨open_, looping, by simpa using Nat.succ_le_of_lt room⟩
    · exact ⟨open_, looping, held⟩
  | tick => exact ⟨open_, looping, held⟩
  | stop => exact absurd rfl goes_on
  | turn chosen =>
    simp only [step, run, looping]
    split
    · exact ⟨open_, looping, held⟩
    · exact ⟨open_, looping, held⟩
    · rename_i selects
      have ready_ := List.find?_some selects
      rw [ready, open_] at ready_
      cases ready_
    · rename_i row rest selects rows
      rw [rows] at held
      exact ⟨by simpa using open_, by simpa using looping, by simpa using Nat.le_of_succ_le held⟩
    · exact ⟨by simpa using open_, by simp, by simpa using held⟩

theorem running_exec {before : List Event} : ∀ {auditor : MediaAuditor}, Running auditor → .stop ∉ before →
    Running (exec step auditor before) := by
  induction before with
  | nil => exact fun running _ => running
  | cons event rest ih =>
    intro auditor running goes_on
    rw [List.mem_cons, not_or] at goes_on
    exact ih (running_step running (Ne.symm goes_on.1)) goes_on.2

private def served : MediaAuditRow := ⟨0, UUID.nil, "ada", "cam-1", "seg_20250101_000000.mp4", "segment", "10.0.0.1"⟩

private def exported : MediaAuditRow := ⟨0, UUID.nil, "grace", "cam-2", "clip_20250101_000000.mp4", "export", "10.0.0.2"⟩

end Ironsight.MediaAudit
