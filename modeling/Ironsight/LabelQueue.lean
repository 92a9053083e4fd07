import Ironsight.Access
import Ironsight.Runs

/-! The queue of frames that annotators label. A job is claimed by one statement and
submitted by a transaction of two, so another annotator may come between any two of
them. A statement that meets a row which an open transaction has updated waits for
that transaction; the oldest pending job is taken past such rows. -/
namespace Ironsight.LabelQueue
open Tables Runs Uuid
open Access (Instant errNoRows foreignKeyViolation)

/-- The values of `status`. -/
inductive Status where
  | pending
  | claimed
  | labeled
  | skipped
  deriving DecidableEq

/-- `VLMLabelJob`: the columns that the queue reads and writes. -/
structure VLMLabelJob where
  id : Int
  alarmID : String := ""
  status : Status := .pending
  claimedBy : Option UUID := none
  claimedAt : Option Instant := none
  createdAt : Instant := 0
  deriving DecidableEq

/-- `VLMLabel`, without the columns that the database fills in. -/
structure VLMLabel where
  jobID : Int
  annotatorID : UUID
  verdict : String
  correctedDescription : String := ""
  correctedThreat : String := ""
  tags : List String := []
  notes : String := ""
  deriving DecidableEq

/-- A lock that an open transaction holds on a job: for a label that refers to it, or
for an update of its row. -/
inductive Lock where
  | referred
  | updated
  deriving DecidableEq

structure Store where
  jobs : Table VLMLabelJob.id
  labels : List VLMLabel
  users : List UUID
  locks : List (Int × Lock) := []

/-- The functions of the label queue. -/
inductive Call where
  | claimLabelJob (jobID : Int) (annotatorID : UUID)
  | nextPendingLabelJob (annotatorID : UUID)
  | submitLabel (label : VLMLabel)
  deriving DecidableEq

inductive Err where
  | text (err : String)
  | invalidVerdict (verdict : String)
  deriving DecidableEq

/-- The statement that comes next; a transaction that is to be committed knows whether
its update found the job. -/
inductive Pc where
  | calling
  | updating
  | committing (updated : Bool)
  | returned (answer : Except Err (Option VLMLabelJob))

structure Thread where
  call : Call
  pc : Pc

/-- What a statement meets outside. -/
structure Env where
  now : Instant := 0
  order : Scan VLMLabelJob := .inOrder
  fault : Option Fault := none

/-- The answer to a statement that was carried out. -/
def answered (fault : Option Fault) (answer : Except Err (Option VLMLabelJob)) : Pc :=
  match fault with
  | some (.refused err) | some (.lost err) => .returned (.error (.text err))
  | none => .returned answer

/-- `SET status='claimed', claimed_by, claimed_at=NOW()`. -/
def VLMLabelJob.claim (annotatorID : UUID) (now : Instant) (job : VLMLabelJob) : VLMLabelJob :=
  { job with status := .claimed, claimedBy := some annotatorID, claimedAt := some now }

def Store.setJob (store : Store) (jobID : Int) (change : VLMLabelJob → VLMLabelJob) (same : ∀ job, (change job).id = job.id) :
    Store :=
  { store with jobs := store.jobs.modify (fun job => job.id = jobID) change same }

/-- `UPDATE … WHERE id=$1 AND status='pending' RETURNING …`. -/
def claimLabelJob (jobID : Int) (annotatorID : UUID) (env : Env) (store : Store) : Pc × Store :=
  match store.jobs.find? jobID with
  | none => (answered env.fault (.error (.text errNoRows)), store)
  | some job =>
    if job.status ≠ .pending then (answered env.fault (.error (.text errNoRows)), store)
    else if (jobID, .updated) ∈ store.locks then (.calling, store)
    else (answered env.fault (.ok (some (job.claim annotatorID env.now))),
      store.setJob jobID (VLMLabelJob.claim annotatorID env.now) fun _ => rfl)

/-- The oldest pending job that no open transaction has a lock on. -/
def oldestPending (order : Scan VLMLabelJob) (store : Store) : Option VLMLabelJob :=
  newest (fun job => -job.createdAt) ((order.arrange store.jobs.rows).filter fun job =>
    job.status = .pending ∧ ∀ lock ∈ store.locks, lock.1 ≠ job.id)

def nextPendingLabelJob (annotatorID : UUID) (env : Env) (store : Store) : Pc × Store :=
  match oldestPending env.order store with
  | none => (answered env.fault (.error (.text errNoRows)), store)
  | some job => (answered env.fault (.ok (some (job.claim annotatorID env.now))),
      store.setJob job.id (VLMLabelJob.claim annotatorID env.now) fun _ => rfl)

/-- `UPDATE … SET status='skipped' WHERE id=$1 AND claimed_by=$2`. -/
def skipLabelJob (jobID : Int) (annotatorID : UUID) (env : Env) (store : Store) : Pc × Store :=
  match store.jobs.find? jobID with
  | none => (answered env.fault (.ok none), store)
  | some job =>
    if job.claimedBy ≠ some annotatorID then (answered env.fault (.ok none), store)
    else if (jobID, .updated) ∈ store.locks then (.calling, store)
    else (answered env.fault (.ok none), store.setJob jobID (fun job => { job with status := .skipped }) fun _ => rfl)

def allowedVerdicts : List String := ["correct", "incorrect", "needs_correction"]

/-- `INSERT INTO vlm_labels`, in a transaction of its own so far. -/
def insertLabel (label : VLMLabel) (store : Store) : Except String Store :=
  if label.annotatorID ∉ store.users then .error (foreignKeyViolation "vlm_labels" "vlm_labels_annotator_id_fkey")
  else if store.jobs.find? label.jobID = none then .error (foreignKeyViolation "vlm_labels" "vlm_labels_job_id_fkey")
  else .ok { store with locks := (label.jobID, .referred) :: store.locks }

/-- The locks of a transaction on its job are given up. -/
def Store.release (store : Store) (jobID : Int) (updated : Bool) : Store :=
  { store with locks :=
      (if updated then store.locks.erase (jobID, .updated) else store.locks).erase (jobID, .referred) }

/-- The statements of `SubmitLabel` behind its check of the verdict. -/
def submit (label : VLMLabel) (pc : Pc) (env : Env) (store : Store) : Pc × Store :=
  match pc with
  | .calling =>
    match env.fault with
    | some (.refused err) | some (.lost err) => (.returned (.error (.text ("insert label: " ++ err))), store)
    | none =>
      match insertLabel label store with
      | .error err => (.returned (.error (.text ("insert label: " ++ err))), store)
      | .ok after => (.updating, after)
  | .updating =>
    match env.fault with
    | some (.refused err) | some (.lost err) =>
      (.returned (.error (.text ("update job: " ++ err))), store.release label.jobID false)
    | none =>
      match store.jobs.find? label.jobID with
      | none => (.committing false, store)
      | some job =>
        if job.claimedBy ≠ some label.annotatorID then (.committing false, store)
        else if (label.jobID, .updated) ∈ store.locks then (.updating, store)
        else (.committing true, { store with locks := (label.jobID, .updated) :: store.locks })
  | .committing updated =>
    let rest := store.release label.jobID updated
    match env.fault with
    | some (.refused err) => (.returned (.error (.text err)), rest)
    | fault =>
      let labelled := { rest with labels := rest.labels ++ [label] }
      (answered fault (.ok none),
        if updated then labelled.setJob label.jobID (fun job => { job with status := .labeled }) fun _ => rfl
        else labelled)
  | .returned answer => (.returned answer, store)

/-- A single statement that is refused changes nothing. -/
def single (fault : Option Fault) (statement : Store → Pc × Store) (store : Store) : Pc × Store :=
  match fault with
  | some (.refused err) => (.returned (.error (.text err)), store)
  | some (.lost _) | none => statement store

/-- One statement of a call. -/
def statement (call : Call) (pc : Pc) (env : Env) (store : Store) : Pc × Store :=
  match call, pc with
  | _, .returned answer => (.returned answer, store)
  | .claimLabelJob jobID annotatorID, _ => single env.fault (claimLabelJob jobID annotatorID env) store
  | .nextPendingLabelJob annotatorID, _ => single env.fault (nextPendingLabelJob annotatorID env) store
  | .submitLabel label, pc =>
    if label.verdict = "skipped" then single env.fault (skipLabelJob label.jobID label.annotatorID env) store
    else if label.verdict ∉ allowedVerdicts then (.returned (.error (.invalidVerdict label.verdict)), store)
    else submit label pc env store

def next (env : Env) (thread : Thread) (store : Store) : Thread × Store :=
  ({ thread with pc := (statement thread.call thread.pc env store).1 }, (statement thread.call thread.pc env store).2)

/-- The functions, one statement at a time. -/
def program : Program Store Thread Call Env where
  start call := ⟨call, .calling⟩
  next := next

/-! ## Jobs and their labels -/

def labelsOf (store : Store) (jobID : Int) : List VLMLabel := store.labels.filter fun label => label.jobID = jobID

/-- A job has one label at most, one exactly when it is labeled, and from its claimer. -/
structure Labelled (labels : List VLMLabel) (job : VLMLabelJob) : Prop where
  once : labels.length ≤ 1
  exactly : labels ≠ [] ↔ job.status = .labeled
  annotator : ∀ label ∈ labels, job.claimedBy = some label.annotatorID

instance (labels : List VLMLabel) (job : VLMLabelJob) : Decidable (Labelled labels job) :=
  decidable_of_iff (labels.length ≤ 1 ∧ (labels ≠ [] ↔ job.status = .labeled) ∧
      ∀ label ∈ labels, job.claimedBy = some label.annotatorID)
    ⟨fun ⟨once, exactly, annotator⟩ => ⟨once, exactly, annotator⟩, fun held => ⟨held.once, held.exactly, held.annotator⟩⟩

/-- Each job has the labels that its status says. -/
def Consistent (store : Store) : Prop := ∀ job ∈ store.jobs, Labelled (labelsOf store job.id) job

instance (store : Store) : Decidable (Consistent store) := inferInstanceAs (Decidable (∀ job ∈ store.jobs, _))

/-- The label that this statement commits, and whether the update of its transaction
found the job claimed by the annotator. -/
def commits (env : Env) (thread : Thread) : Option (VLMLabel × Bool) :=
  match thread.call, thread.pc with
  | .submitLabel label, .committing updated => if executes false env.fault then some (label, updated) else none
  | _, _ => none

/-- The job that this statement skips. -/
def skips (env : Env) (thread : Thread) (store : Store) : Option Int :=
  match thread.call, thread.pc with
  | .submitLabel label, .calling =>
    if label.verdict = "skipped" ∧ executes false env.fault = true ∧
        ((store.jobs.find? label.jobID).bind VLMLabelJob.claimedBy) = some label.annotatorID ∧
        (label.jobID, .updated) ∉ store.locks then
      some label.jobID
    else none
  | _, _ => none

/-- A label is committed for a job that its annotator has claimed and that has no label,
and no labeled job is skipped. -/
def SubmitsClaimed (pool : Pool Store Thread) (env : Env) (thread : Thread) : Prop :=
  (∀ submitted ∈ commits env thread, submitted.2 = true ∧ labelsOf pool.shared submitted.1.jobID = []) ∧
    ∀ jobID ∈ skips env thread pool.shared, labelsOf pool.shared jobID = []

instance (pool : Pool Store Thread) (env : Env) (thread : Thread) : Decidable (SubmitsClaimed pool env thread) :=
  inferInstanceAs (Decidable (_ ∧ _))

/-- A consistent queue, before the first call. -/
structure Start where
  jobs : Table VLMLabelJob.id
  labels : List VLMLabel
  users : List UUID
  consistent : Consistent { jobs, labels, users }

def Start.pool (start : Start) : Pool Store Thread := ⟨{ start with }, []⟩

/-! ## What a statement does -/

/-- The label of an open transaction. -/
def Thread.opened (thread : Thread) : Option VLMLabel :=
  match thread.call, thread.pc with
  | .submitLabel label, .updating | .submitLabel label, .committing _ => some label
  | _, _ => none

/-- The label of an open transaction that has updated its job. -/
def Thread.taken (thread : Thread) : Option VLMLabel :=
  match thread.call, thread.pc with
  | .submitLabel label, .committing true => some label
  | _, _ => none

/-- All that one statement can do. -/
inductive Effect (env : Env) (thread : Thread) (store : Store) : Pc → Store → Prop where
  | waited (uncommitted : commits env thread = none) (quiet : skips env thread store = none) :
      Effect env thread store thread.pc store
  | ended (answer : Except Err (Option VLMLabelJob)) (closed : thread.opened = none) (quiet : skips env thread store = none) :
      Effect env thread store (.returned answer) store
  | claimed (answer : Except Err (Option VLMLabelJob)) {job : VLMLabelJob} (annotatorID : UUID) (held : job ∈ store.jobs)
      (pending : job.status = .pending) (free : (job.id, .updated) ∉ store.locks) (closed : thread.opened = none)
      (quiet : skips env thread store = none) :
      Effect env thread store (.returned answer)
        (store.setJob job.id (VLMLabelJob.claim annotatorID env.now) fun _ => rfl)
  | skipped (answer : Except Err (Option VLMLabelJob)) {job : VLMLabelJob} (held : job ∈ store.jobs)
      (free : (job.id, .updated) ∉ store.locks) (closed : thread.opened = none)
      (skips_ : skips env thread store = some job.id) :
      Effect env thread store (.returned answer)
        (store.setJob job.id (fun job => { job with status := .skipped }) fun _ => rfl)
  | entered {label : VLMLabel} {job : VLMLabelJob} (call : thread.call = .submitLabel label)
      (allowed : label.verdict ∈ allowedVerdicts) (held : job ∈ store.jobs) (named : job.id = label.jobID)
      (closed : thread.opened = none) (quiet : skips env thread store = none) :
      Effect env thread store .updating { store with locks := (label.jobID, .referred) :: store.locks }
  | missed {label : VLMLabel} (call : thread.call = .submitLabel label) (pc : thread.pc = .updating) :
      Effect env thread store (.committing false) store
  | took {label : VLMLabel} {job : VLMLabelJob} (call : thread.call = .submitLabel label) (pc : thread.pc = .updating)
      (held : job ∈ store.jobs) (named : job.id = label.jobID) (own : job.claimedBy = some label.annotatorID)
      (free : (label.jobID, .updated) ∉ store.locks) :
      Effect env thread store (.committing true) { store with locks := (label.jobID, .updated) :: store.locks }
  | rolledBack (answer : Except Err (Option VLMLabelJob)) {label : VLMLabel} (opened : thread.opened = some label)
      (uncommitted : commits env thread = none) :
      Effect env thread store (.returned answer) (store.release label.jobID thread.taken.isSome)
  | committed (answer : Except Err (Option VLMLabelJob)) {label : VLMLabel} {updated : Bool}
      (call : thread.call = .submitLabel label) (pc : thread.pc = .committing updated)
      (commits_ : commits env thread = some (label, updated)) :
      Effect env thread store (.returned answer)
        (if updated then
          ({ store.release label.jobID updated with labels := store.labels ++ [label] } : Store).setJob label.jobID
            (fun job => { job with status := .labeled }) fun _ => rfl
        else { store.release label.jobID updated with labels := store.labels ++ [label] })

/-- Only a submission with a verdict that makes a label opens a transaction. -/
inductive Formed : Thread → Prop where
  | calling (call : Call) : Formed ⟨call, .calling⟩
  | returned (call : Call) (answer : Except Err (Option VLMLabelJob)) : Formed ⟨call, .returned answer⟩
  | updating (label : VLMLabel) (allowed : label.verdict ∈ allowedVerdicts) : Formed ⟨.submitLabel label, .updating⟩
  | committing (label : VLMLabel) (updated : Bool) (allowed : label.verdict ∈ allowedVerdicts) :
      Formed ⟨.submitLabel label, .committing updated⟩

section Statement
variable {env : Env} {store : Store} {label : VLMLabel}

private theorem not_skipped_of_allowed (allowed : label.verdict ∈ allowedVerdicts) : label.verdict ≠ "skipped" := by
  intro same
  rw [same] at allowed
  revert allowed
  decide

private theorem claim_effect (jobID : Int) (annotatorID : UUID) :
    Effect env ⟨.claimLabelJob jobID annotatorID, .calling⟩ store (claimLabelJob jobID annotatorID env store).1
      (claimLabelJob jobID annotatorID env store).2 := by
  unfold claimLabelJob answered
  split
  · split <;> exact .ended _ rfl rfl
  · rename_i job found
    obtain ⟨held, rfl⟩ := Table.find?_eq_some.mp found
    split
    · split <;> exact .ended _ rfl rfl
    · rename_i pending
      split
      · exact .waited rfl rfl
      · rename_i free
        split <;> exact .claimed _ annotatorID held (not_not.mp pending) free rfl rfl

private theorem next_effect (annotatorID : UUID) :
    Effect env ⟨.nextPendingLabelJob annotatorID, .calling⟩ store (nextPendingLabelJob annotatorID env store).1
      (nextPendingLabelJob annotatorID env store).2 := by
  unfold nextPendingLabelJob answered
  split
  · split <;> exact .ended _ rfl rfl
  · rename_i job oldest
    obtain ⟨chosen, _⟩ := newest_some oldest
    obtain ⟨listed, facts⟩ := List.mem_filter.mp chosen
    obtain ⟨pending, free⟩ := of_decide_eq_true facts
    have held : job ∈ store.jobs := (env.order.perm store.jobs.rows).mem_iff.mp listed
    split <;> exact .claimed _ annotatorID held pending (fun locked => free _ locked rfl) rfl rfl

private theorem skip_effect (skipped : label.verdict = "skipped") (executed : executes false env.fault = true) :
    Effect env ⟨.submitLabel label, .calling⟩ store (skipLabelJob label.jobID label.annotatorID env store).1
      (skipLabelJob label.jobID label.annotatorID env store).2 := by
  have skips_ : skips env ⟨.submitLabel label, .calling⟩ store =
      if (store.jobs.find? label.jobID).bind VLMLabelJob.claimedBy = some label.annotatorID ∧
        (label.jobID, .updated) ∉ store.locks then some label.jobID else none := by
    simp [skips, skipped, executed]
  unfold skipLabelJob answered
  split
  · rename_i absent
    have quiet : skips env ⟨.submitLabel label, .calling⟩ store = none := by simp [skips_, absent]
    split <;> exact .ended _ rfl quiet
  · rename_i job found
    obtain ⟨held, named⟩ := Table.find?_eq_some.mp found
    split
    · rename_i foreign
      have quiet : skips env ⟨.submitLabel label, .calling⟩ store = none := by simp [skips_, found, foreign]
      split <;> exact .ended _ rfl quiet
    · rename_i own
      split
      · rename_i locked
        exact .waited rfl (by simp [skips_, locked])
      · rename_i free
        have chosen : skips env ⟨.submitLabel label, .calling⟩ store = some label.jobID := by
          simp [skips_, found, not_not.mp own, free]
        rw [← named] at free chosen ⊢
        split <;> exact .skipped _ held free rfl chosen

private theorem submit_calling_effect (allowed : label.verdict ∈ allowedVerdicts) :
    Effect env ⟨.submitLabel label, .calling⟩ store (submit label .calling env store).1 (submit label .calling env store).2 := by
  have quiet : skips env ⟨.submitLabel label, .calling⟩ store = none := by simp [skips, not_skipped_of_allowed allowed]
  unfold submit
  dsimp only
  split
  · exact .ended _ rfl quiet
  · exact .ended _ rfl quiet
  · split
    · exact .ended _ rfl quiet
    · rename_i after inserted
      unfold insertLabel at inserted
      split at inserted
      · cases inserted
      · split at inserted
        · cases inserted
        · rename_i known
          cases inserted
          obtain ⟨job, found⟩ := Option.ne_none_iff_exists'.mp known
          obtain ⟨held, named⟩ := Table.find?_eq_some.mp found
          exact .entered rfl allowed held named rfl quiet

private theorem submit_updating_effect :
    Effect env ⟨.submitLabel label, .updating⟩ store (submit label .updating env store).1 (submit label .updating env store).2 := by
  unfold submit
  dsimp only
  split
  · exact .rolledBack _ rfl rfl
  · exact .rolledBack _ rfl rfl
  · split
    · exact .missed rfl rfl
    · rename_i job found
      obtain ⟨held, named⟩ := Table.find?_eq_some.mp found
      split
      · exact .missed rfl rfl
      · rename_i own
        split
        · exact .waited rfl rfl
        · rename_i free
          exact .took rfl rfl held named (not_not.mp own) free

private theorem submit_committing_effect (updated : Bool) :
    Effect env ⟨.submitLabel label, .committing updated⟩ store (submit label (.committing updated) env store).1
      (submit label (.committing updated) env store).2 := by
  unfold submit answered
  dsimp only
  cases fault : env.fault with
  | none => exact .committed _ rfl rfl (by simp [commits, executes, fault])
  | some failing =>
    cases failing with
    | lost err => exact .committed _ rfl rfl (by simp [commits, executes, fault])
    | refused err =>
      have uncommitted : commits env ⟨.submitLabel label, .committing updated⟩ = none := by simp [commits, executes, fault]
      have taken : (⟨.submitLabel label, .committing updated⟩ : Thread).taken.isSome = updated := by cases updated <;> rfl
      have effect : Effect env ⟨.submitLabel label, .committing updated⟩ store (.returned (.error (.text err))) _ :=
        .rolledBack _ rfl uncommitted
      rwa [taken] at effect

theorem statement_effect {thread : Thread} (formed : Formed thread) (env : Env) (store : Store) :
    Effect env thread store (statement thread.call thread.pc env store).1 (statement thread.call thread.pc env store).2 := by
  cases formed with
  | returned call answer => cases call <;> exact .waited rfl rfl
  | calling call =>
    have refused (err : String) (fault : env.fault = some (.refused err)) : skips env ⟨call, .calling⟩ store = none := by
      cases call <;> simp [skips, executes, fault]
    unfold statement single
    cases call with
    | claimLabelJob jobID annotatorID =>
      dsimp only
      split
      · rename_i err fault
        exact .ended _ rfl (refused err fault)
      · exact claim_effect jobID annotatorID
      · exact claim_effect jobID annotatorID
    | nextPendingLabelJob annotatorID =>
      dsimp only
      split
      · rename_i err fault
        exact .ended _ rfl (refused err fault)
      · exact next_effect annotatorID
      · exact next_effect annotatorID
    | submitLabel label =>
      dsimp only
      split
      · rename_i skipped
        split
        · rename_i err fault
          exact .ended _ rfl (refused err fault)
        · rename_i fault
          exact skip_effect skipped (by simp [executes, fault])
        · rename_i fault
          exact skip_effect skipped (by simp [executes, fault])
      · rename_i other
        split
        · exact .ended _ rfl (by simp [skips, other])
        · rename_i allowed
          exact submit_calling_effect (not_not.mp allowed)
  | updating label allowed =>
    unfold statement
    dsimp only
    rw [if_neg (not_skipped_of_allowed allowed), if_neg (not_not.mpr allowed)]
    exact submit_updating_effect
  | committing label updated allowed =>
    unfold statement
    dsimp only
    rw [if_neg (not_skipped_of_allowed allowed), if_neg (not_not.mpr allowed)]
    exact submit_committing_effect updated

end Statement

section Effects
variable {env : Env} {thread : Thread} {store after : Store} {pc : Pc}

private theorem mem_setJob {jobID : Int} {change : VLMLabelJob → VLMLabelJob} {same : ∀ job, (change job).id = job.id}
    {job : VLMLabelJob} :
    job ∈ (store.setJob jobID change same).jobs ↔ ∃ old ∈ store.jobs, job = if old.id = jobID then change old else old := by
  simp [Store.setJob, Table.mem_modify]

/-- Jobs stay, and a locked one with its claimer. -/
private theorem Effect.job {job : VLMLabelJob} (effect : Effect env thread store pc after) (held : job ∈ store.jobs) :
    ∃ later ∈ after.jobs, later.id = job.id ∧
      ((job.id, .updated) ∈ store.locks → later.claimedBy = job.claimedBy) := by
  cases effect with
  | waited | ended | entered | missed | took | rolledBack => exact ⟨job, held, rfl, fun _ => rfl⟩
  | @claimed answer chosen annotatorID =>
    rename_i member pending free closed quiet
    refine ⟨_, mem_setJob.mpr ⟨job, held, rfl⟩, ?_, fun locked => ?_⟩
    · split <;> rfl
    · rw [if_neg]
      intro same
      exact free (same ▸ locked)
  | skipped =>
    refine ⟨_, mem_setJob.mpr ⟨job, held, rfl⟩, ?_, fun _ => ?_⟩ <;> split <;> rfl
  | @committed answer label updated =>
    cases updated with
    | false => exact ⟨job, held, rfl, fun _ => rfl⟩
    | true =>
      rw [if_pos rfl]
      refine ⟨_, mem_setJob.mpr ⟨job, held, rfl⟩, ?_, fun _ => ?_⟩ <;> split <;> rfl

private theorem mem_release {k : Int} (jobID : Int) (updated : Bool) (locked : (k, .updated) ∈ store.locks) :
    (k, .updated) ∈ (store.release jobID updated).locks ∨ updated = true ∧ jobID = k := by
  by_cases own : updated = true ∧ jobID = k
  · exact .inr own
  · left
    refine (List.mem_erase_of_ne (by simp)).mpr ?_
    split
    · rename_i taken
      exact (List.mem_erase_of_ne fun same => own ⟨taken, (Prod.mk.inj same).1.symm⟩).mpr locked
    · exact locked

private theorem opened_of_taken {label : VLMLabel} (taken : thread.taken = some label) :
    thread.opened = some label := by
  unfold Thread.taken at taken
  split at taken
  · rename_i call pc
    simpa [Thread.opened, call, pc] using taken
  · cases taken

/-- A transaction gives up no lock but its own. -/
private theorem Effect.lock {k : Int} (effect : Effect env thread store pc after) (locked : (k, .updated) ∈ store.locks) :
    (k, .updated) ∈ after.locks ∨ ∃ label, thread.taken = some label ∧ label.jobID = k := by
  cases effect with
  | waited | ended | missed | claimed | skipped => exact .inl locked
  | entered | took => exact .inl (List.mem_cons_of_mem _ locked)
  | @rolledBack answer label opened uncommitted =>
    rcases mem_release label.jobID thread.taken.isSome locked with kept | ⟨taken, same⟩
    · exact .inl kept
    · obtain ⟨other, found⟩ := Option.isSome_iff_exists.mp taken
      cases opened.symm.trans (opened_of_taken found)
      exact .inr ⟨label, found, same⟩
  | @committed answer label updated call pc_ commits_ =>
    rcases mem_release label.jobID updated locked with kept | ⟨taken, same⟩
    · left
      cases updated <;> exact kept
    · subst taken
      exact .inr ⟨label, by simp [Thread.taken, call, pc_], same⟩

private theorem Effect.formed (effect : Effect env thread store pc after) (formed : Formed thread) :
    Formed { thread with pc } := by
  cases effect with
  | waited => exact formed
  | ended | claimed | skipped | rolledBack | committed => exact .returned _ _
  | entered call allowed =>
    rw [call]
    exact .updating _ allowed
  | missed call pc_ | took call pc_ =>
    cases formed with
    | updating label allowed => exact .committing label _ allowed
    | calling | returned | committing => cases pc_

/-- A transaction begins for a job that is there. -/
private theorem Effect.opened {label : VLMLabel} (effect : Effect env thread store pc after)
    (opened : ({ thread with pc } : Thread).opened = some label) :
    thread.opened = some label ∨ ∃ job ∈ store.jobs, job.id = label.jobID := by
  cases effect with
  | waited => exact .inl opened
  | ended | claimed | skipped | rolledBack | committed =>
    simp only [Thread.opened] at opened
    split at opened <;> simp_all
  | entered call allowed held named =>
    simp only [Thread.opened, call, Option.some.injEq] at opened
    subst opened
    exact .inr ⟨_, held, named⟩
  | missed call pc_ | took call pc_ =>
    simp only [Thread.opened, call, Option.some.injEq] at opened
    subst opened
    exact .inl (by simp [Thread.opened, call, pc_])

/-- A transaction takes a job that no other has taken, from its claimer. -/
private theorem Effect.taken {label : VLMLabel} (effect : Effect env thread store pc after)
    (taken : ({ thread with pc } : Thread).taken = some label) :
    thread.taken = some label ∧ after = store ∨
      (label.jobID, .updated) ∉ store.locks ∧ (label.jobID, .updated) ∈ after.locks ∧
        ∃ job ∈ after.jobs, job.id = label.jobID ∧ job.claimedBy = some label.annotatorID := by
  cases effect with
  | waited => exact .inl ⟨taken, rfl⟩
  | ended | claimed | skipped | rolledBack | committed | entered | missed =>
    simp only [Thread.taken] at taken
    split at taken <;> simp_all
  | took call pc_ held named own free =>
    simp only [Thread.taken, call, Option.some.injEq] at taken
    subst taken
    exact .inr ⟨free, List.mem_cons_self, _, held, named, own⟩

end Effects

/-- Open transactions are of jobs that are there; those that have updated their job hold
its lock, each alone, and the job is their annotator's. -/
structure Sound (pool : Pool Store Thread) : Prop where
  formed : ∀ thread ∈ pool.threads, Formed thread
  known : ∀ thread ∈ pool.threads, ∀ label, thread.opened = some label → ∃ job ∈ pool.shared.jobs, job.id = label.jobID
  held : ∀ thread ∈ pool.threads, ∀ label, thread.taken = some label →
    (label.jobID, .updated) ∈ pool.shared.locks ∧
      ∃ job ∈ pool.shared.jobs, job.id = label.jobID ∧ job.claimedBy = some label.annotatorID
  apart : Distinct (fun thread => thread.taken.map VLMLabel.jobID) pool.threads

private theorem sound_run {pool : Pool Store Thread} {index : Nat} {env : Env} {thread : Thread} {pc : Pc} {after : Store}
    (sound : Sound pool) (running : pool.threads[index]? = some thread)
    (effect : Effect env thread pool.shared pc after) :
    Sound ⟨after, pool.threads.set index { thread with pc }⟩ where
  formed := forall_mem_set sound.formed (effect.formed (sound.formed thread (List.mem_of_getElem? running)))
  known := by
    have kept {label : VLMLabel} (before : ∃ job ∈ pool.shared.jobs, job.id = label.jobID) :
        ∃ job ∈ after.jobs, job.id = label.jobID := by
      obtain ⟨job, held, named⟩ := before
      obtain ⟨later, member, same, _⟩ := effect.job held
      exact ⟨later, member, same.trans named⟩
    refine forall_mem_set (fun other member label opened => kept (sound.known other member label opened)) ?_
    intro label opened
    rcases effect.opened opened with before | begun
    · exact kept (sound.known thread (List.mem_of_getElem? running) label before)
    · exact kept begun
  held := by
    intro other member label taken
    rcases mem_set_cases member with rfl | ⟨j, apart, found⟩
    · rcases effect.taken taken with ⟨before, rfl⟩ | ⟨_, locked, owned⟩
      · exact sound.held thread (List.mem_of_getElem? running) label before
      · exact ⟨locked, owned⟩
    · obtain ⟨locked, job, held, named, own⟩ := sound.held other (List.mem_of_getElem? found) label taken
      obtain ⟨later, member, same, claimer⟩ := effect.job held
      refine ⟨?_, later, member, same.trans named, (claimer (named ▸ locked)).trans own⟩
      rcases effect.lock locked with kept | ⟨mine, holds, same⟩
      · exact kept
      · exact absurd (sound.apart j index other thread label.jobID found running (by simp [taken])
          (by simp [holds, same])) apart
  apart := by
    refine sound.apart.set running fun k takes => ?_
    obtain ⟨label, taken, rfl⟩ := Option.map_eq_some_iff.mp takes
    rcases effect.taken taken with ⟨before, _⟩ | ⟨free, _⟩
    · exact .inl (by simp [before])
    · refine .inr fun other member holds => ?_
      obtain ⟨theirs, taken_, same⟩ := Option.map_eq_some_iff.mp holds
      exact free (same ▸ (sound.held other member theirs taken_).1)

theorem sound_step {pool : Pool Store Thread} (sound : Sound pool) (move : Move Call Env) :
    Sound (program.step pool move) := by
  refine Program.step_preserves Sound sound move ?_ ?_
  · intro call _
    exact {
      formed := forall_mem_append sound.formed (.calling call)
      known := forall_mem_append sound.known fun label opened => by cases call <;> cases opened
      held := forall_mem_append sound.held fun label taken => by cases call <;> cases taken
      apart := sound.apart.append (by cases call <;> rfl) }
  · intro index env thread _ running
    have formed := sound.formed thread (List.mem_of_getElem? running)
    exact sound_run sound running (statement_effect formed env pool.shared)

/-! ## What keeps the queue consistent -/

section Consistency
variable {env : Env} {thread : Thread} {store after : Store} {pc : Pc}

private theorem commits_of_closed (closed : thread.opened = none) : commits env thread = none := by
  unfold commits
  split
  · rename_i label updated call pc
    simp [Thread.opened, call, pc] at closed
  · rfl

/-- One job gets another status. -/
private theorem consistent_setJob {job : VLMLabelJob} {change : VLMLabelJob → VLMLabelJob}
    {same : ∀ job, (change job).id = job.id} (consistent : Consistent store) (held : job ∈ store.jobs) :
    Consistent (store.setJob job.id change same) ↔ Labelled (labelsOf store job.id) (change job) := by
  constructor
  · intro all
    have changed := all (change job) (mem_setJob.mpr ⟨job, held, by simp⟩)
    rwa [same] at changed
  · intro changed current member
    obtain ⟨old, before, rfl⟩ := mem_setJob.mp member
    split
    · rename_i this
      rw [Table.key_inj before held this, same]
      exact changed
    · exact consistent old before

private theorem labelsOf_append (label : VLMLabel) (jobID : Int) :
    labelsOf { store with labels := store.labels ++ [label] } jobID =
      labelsOf store jobID ++ if label.jobID = jobID then [label] else [] := by
  unfold labelsOf
  rw [List.filter_append]
  by_cases own : label.jobID = jobID <;> simp [own]

/-- A label beside the job, which its transaction did not find, is one too many. -/
private theorem not_consistent_committed_missed {label : VLMLabel} {job : VLMLabelJob} (consistent : Consistent store)
    (held : job ∈ store.jobs) (named : job.id = label.jobID) :
    ¬ Consistent { store with labels := store.labels ++ [label] } := by
  intro all
  have old := consistent job held
  have new : Labelled (labelsOf store job.id ++ [label]) job := by
    have labelled := all job held
    rwa [labelsOf_append, if_pos named.symm] at labelled
  have none_before : labelsOf store job.id = [] := by
    have once := new.once
    rw [List.length_append, List.length_singleton] at once
    exact List.length_eq_zero_iff.mp (by omega)
  have labeled : job.status = .labeled := new.exactly.mp (by simp)
  exact old.exactly.mpr labeled none_before

private theorem consistent_committed {label : VLMLabel} {job : VLMLabelJob} (consistent : Consistent store)
    (held : job ∈ store.jobs) (named : job.id = label.jobID) (own : job.claimedBy = some label.annotatorID) :
    Consistent (({ store with labels := store.labels ++ [label] } : Store).setJob label.jobID
        (fun job => { job with status := .labeled }) fun _ => rfl) ↔ labelsOf store label.jobID = [] := by
  constructor
  · intro all
    have labelled := all { job with status := .labeled } (mem_setJob.mpr ⟨job, held, by simp [named]⟩)
    have once := labelled.once
    rw [named] at once
    change (labelsOf { store with labels := store.labels ++ [label] } label.jobID).length ≤ 1 at once
    rw [labelsOf_append, if_pos rfl, List.length_append, List.length_singleton] at once
    exact List.length_eq_zero_iff.mp (by omega)
  · intro unlabelled current member
    obtain ⟨old, before, rfl⟩ := mem_setJob.mp member
    change Labelled (labelsOf { store with labels := store.labels ++ [label] } _) _
    rw [labelsOf_append]
    split
    · rename_i this
      obtain rfl := Table.key_inj before held (this.trans named.symm)
      change Labelled (labelsOf store old.id ++ if label.jobID = old.id then [label] else []) _
      rw [if_pos named.symm, named, unlabelled]
      exact ⟨Nat.le_refl 1, by simp, by simpa using own⟩
    · rename_i other
      rw [if_neg fun same => other same.symm, List.append_nil]
      exact consistent old before

/-- A claim takes a job without a label. -/
private theorem labelled_claim {labels : List VLMLabel} {job : VLMLabelJob} (labelled : Labelled labels job)
    (pending : job.status = .pending) (annotatorID : UUID) (now : Instant) : Labelled labels (job.claim annotatorID now) := by
  have unlabelled : labels = [] := by
    by_contra some
    have labeled := labelled.exactly.mp some
    rw [pending] at labeled
    cases labeled
  subst unlabelled
  exact ⟨Nat.zero_le 1, by simp [VLMLabelJob.claim], by simp⟩

private theorem labelled_skipped {labels : List VLMLabel} {job : VLMLabelJob} (labelled : Labelled labels job) :
    Labelled labels { job with status := .skipped } ↔ labels = [] := by
  constructor
  · intro skipped
    by_contra some
    cases skipped.exactly.mp some
  · rintro rfl
    exact ⟨Nat.zero_le 1, by simp, by simp⟩

private theorem careful_quiet (pool : Pool Store Thread) (submits : commits env thread = none)
    (skips_ : skips env thread pool.shared = none) : SubmitsClaimed pool env thread := by
  simp [SubmitsClaimed, submits, skips_]

end Consistency

/-- A statement leaves the queue consistent exactly when it is careful. -/
theorem consistent_exact {pool : Pool Store Thread} {env : Env} {thread : Thread} {pc : Pc} {after : Store}
    (sound : Sound pool) (running : thread ∈ pool.threads) (consistent : Consistent pool.shared)
    (effect : Effect env thread pool.shared pc after) : Consistent after ↔ SubmitsClaimed pool env thread := by
  cases effect with
  | waited uncommitted quiet => exact iff_of_true consistent (careful_quiet pool uncommitted quiet)
  | ended answer closed quiet => exact iff_of_true consistent (careful_quiet pool (commits_of_closed closed) quiet)
  | claimed answer annotatorID held pending free closed quiet =>
    refine iff_of_true ?_ (careful_quiet pool (commits_of_closed closed) quiet)
    exact (consistent_setJob consistent held).mpr (labelled_claim (consistent _ held) pending annotatorID env.now)
  | skipped answer held free closed skips_ =>
    refine (consistent_setJob consistent held).trans ((labelled_skipped (consistent _ held)).trans ?_)
    simp [SubmitsClaimed, commits_of_closed closed, skips_]
  | entered call allowed held named closed quiet =>
    exact iff_of_true consistent (careful_quiet pool (commits_of_closed closed) quiet)
  | missed call pc =>
    exact iff_of_true consistent (careful_quiet pool (by simp [commits, call, pc]) (by simp [skips, call, pc]))
  | took call pc =>
    exact iff_of_true consistent (careful_quiet pool (by simp [commits, call, pc]) (by simp [skips, call, pc]))
  | rolledBack answer opened uncommitted =>
    refine iff_of_true consistent (careful_quiet pool uncommitted ?_)
    unfold skips
    split
    · rename_i call pc
      simp [Thread.opened, call, pc] at opened
    · rfl
  | @committed answer label updated call pc commits_ =>
    obtain ⟨job, held, named⟩ := sound.known thread running label (by simp [Thread.opened, call, pc])
    have careful : SubmitsClaimed pool env thread ↔ updated = true ∧ labelsOf pool.shared label.jobID = [] := by
      have quiet : skips env thread pool.shared = none := by simp [skips, call, pc]
      simp [SubmitsClaimed, commits_, quiet]
    rw [careful]
    cases updated with
    | false => exact iff_of_false (not_consistent_committed_missed consistent held named) (by simp)
    | true =>
      obtain ⟨_, owned, member, same, own⟩ := sound.held thread running label (by simp [Thread.taken, call, pc])
      exact (consistent_committed consistent member same own).trans (by simp)

theorem start_sound (start : Start) : Sound start.pool where
  formed := fun _ member => absurd member List.not_mem_nil
  known := fun _ member => absurd member List.not_mem_nil
  held := fun _ member => absurd member List.not_mem_nil
  apart := fun i _ _ _ _ running => by simp [Start.pool] at running

/-- Jobs and labels agree throughout a run exactly when every label of it is committed
for a job that was found claimed by its annotator and has no label, and no labeled job
is skipped. -/
theorem labels_consistent_iff (start : Start) (moves : List (Move Call Env)) :
    Throughout program.step (fun pool => Consistent pool.shared) start.pool moves ↔
      Along program.step (OnStatement SubmitsClaimed) start.pool moves := by
  have preserved (pool : Pool Store Thread) (move : Move Call Env) (sound : Sound pool) : Sound (program.step pool move) :=
    sound_step sound move
  refine throughout_iff_along preserved ?_ moves start.pool (start_sound start) start.consistent
  intro pool move sound consistent
  cases move with
  | spawn call => exact iff_of_true consistent trivial
  | run index env =>
    cases running : pool.threads[index]? with
    | none => exact iff_of_true (by rwa [Program.step_run_none running]) (by simp [OnStatement, running])
    | some thread =>
      have member := List.mem_of_getElem? running
      have effect := statement_effect (sound.formed thread member) env pool.shared
      have exact_step := consistent_exact sound member consistent effect
      rw [Program.step_run running]
      exact exact_step.trans (by simp [OnStatement, running])

private def annotator : UUID := ⟨7⟩

/-- One job that nobody has claimed. -/
def unclaimed : Start where
  jobs := ⟨[{ id := 1 }], by decide⟩
  labels := []
  users := [annotator]
  consistent := by decide

/-- The label goes in, the update finds no row, and the transaction is committed. -/
theorem not_labels_consistent :
    ¬ Throughout program.step (fun pool => Consistent pool.shared) unclaimed.pool
      [.spawn (.submitLabel { jobID := 1, annotatorID := annotator, verdict := "correct" }), .run 0 {}, .run 0 {}, .run 0 {}] := by
  decide

end Ironsight.LabelQueue
