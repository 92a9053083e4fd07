import Ironsight.Exports
import Ironsight.Paths
import Ironsight.Runs

/-! The export workers, any number of processes over one table. A worker requeues once,
when it starts, and then claims and processes; shutting it down cancels the context
that its status updates are sent with. Ownership is no more than a status and a start
time, so the promises about it are judged over every interleaving of the statements. -/
namespace Ironsight.ExportWorkers
open Tables Runs Uuid Exports
open Access (Instant)

/-- How the processing of a job has ended. -/
inductive Outcome where
  | completed (outputFile : String) (size : Int)
  | failed (reason : String)
  deriving DecidableEq

/-- Where a worker is. -/
inductive Pc where
  /-- `Start`, before its requeue. -/
  | starting
  /-- The loop of `drainQueue`. -/
  | polling
  /-- The `select` of `runLoop`. -/
  | waiting
  /-- `processExport`, before `GetSegments`. -/
  | loading (job : Export)
  /-- Before the list file, the concat and the look at its output. -/
  | rendering (job : Export)
  /-- Before the status update of a job that has ended. -/
  | writing (job : Export) (outcome : Outcome)
  | exited
  | crashed
  deriving DecidableEq

/-- A worker process. `interrupted` is the job whose status update the cancelled
context refused. -/
structure Worker where
  pc : Pc := .starting
  cancelled : Bool := false
  interrupted : Option UUID := none
  deriving DecidableEq

/-- A worker starts, or an export is asked for. -/
inductive Request where
  | start
  | create (id cameraId : UUID) (startTime endTime now : Instant)

/-- A worker, or a request that queues an export. -/
inductive Thread where
  | worker (w : Worker)
  | creating (id cameraId : UUID) (startTime endTime now : Instant)
  | created
  deriving DecidableEq

/-- What a step meets outside. -/
structure Env where
  signal : Option Signal := none
  /-- `NOW()`. -/
  now : Instant := 0
  fault : Option Fault := none
  /-- Rows locked by statements that are under way. -/
  locked : List UUID := []
  /-- The tick wins when the context is done as well. -/
  tick : Bool := false
  /-- The paths that `GetSegments` answers. -/
  segments : Except String (List String) := .ok []
  /-- The size of the output, or why there is none. -/
  rendered : Except String Int := .error ""

/-- `outputFile`. -/
def outputFile (exportPath : String) (job : Export) : String :=
  Paths.join [exportPath, "export_" ++ job.id.prefix8 ++ ".mp4"]

/-- What `processExport` makes of the segments. -/
def loaded (w : Worker) (segments : Except String (List String)) (job : Export) : Pc :=
  if w.cancelled then .writing job (.failed "get segments: context canceled")
  else match segments with
    | .error err => .writing job (.failed ("get segments: " ++ err))
    | .ok [] => .writing job (.failed "no recordings found for the specified time range")
    | .ok (_ :: _) => .rendering job

/-- The concat is killed with the context. -/
def rendered (exportPath : String) (w : Worker) (result : Except String Int) (job : Export) : Outcome :=
  if w.cancelled then .failed "ffmpeg concat: context canceled\nOutput: "
  else match result with
    | .error reason => .failed reason
    | .ok size => .completed (outputFile exportPath job) size

/-- The closing update of `processExport`, or that of `markFailed`. -/
def writeOutcome (exports : ExportTable) (job : Export) (outcome : Outcome) (now : Instant) : ExportTable :=
  match outcome with
  | .completed outputFile size => updateExportStatus exports job.id .completed outputFile size "" now
  | .failed reason => updateExportStatus exports job.id .failed "" 0 reason now

/-- One statement of a worker. -/
def Worker.next (exportPath : String) (env : Env) (w : Worker) (exports : ExportTable) : Worker × ExportTable :=
  match w.pc with
  | .starting =>
    ({ w with pc := .polling }, if executes w.cancelled env.fault then requeueStuckExports exports env.now else exports)
  | .polling =>
    if w.cancelled then ({ w with pc := .waiting }, exports)
    else match env.fault, claimNextExport exports env.locked env.now with
      | some (.refused _), _ | _, none => ({ w with pc := .waiting }, exports)
      | some (.lost _), some (_, after) => ({ w with pc := .waiting }, after)
      | none, some (job, after) => ({ w with pc := .loading job }, after)
  | .waiting => ({ w with pc := if w.cancelled ∧ ¬ env.tick then .exited else .polling }, exports)
  | .loading job => ({ w with pc := loaded w env.segments job }, exports)
  | .rendering job => ({ w with pc := .writing job (rendered exportPath w env.rendered job) }, exports)
  | .writing job outcome =>
    if w.cancelled then ({ w with pc := .polling, interrupted := some job.id }, exports)
    else ({ w with pc := .polling }, if executes w.cancelled env.fault then writeOutcome exports job outcome env.now else exports)
  | .exited | .crashed => (w, exports)

def next (exportPath : String) (env : Env) (thread : Thread) (exports : ExportTable) : Thread × ExportTable :=
  match thread with
  | .worker w =>
    match env.signal with
    | some .kill => (.worker { w with pc := .crashed }, exports)
    | some .shutdown => (.worker { w with cancelled := true }, exports)
    | none =>
      let after := w.next exportPath env exports
      (.worker after.1, after.2)
  | .creating id cameraId startTime endTime now =>
    match env.fault with
    | some (.refused _) => (.created, exports)
    | some (.lost _) | none =>
      (.created, (exports.insert? (newExport id now cameraId startTime endTime)).getD exports)
  | .created => (.created, exports)

/-- Workers and requests, one statement at a time. -/
def program (exportPath : String) : Program ExportTable Thread Request Env where
  start
    | .start => .worker {}
    | .create id cameraId startTime endTime now => .creating id cameraId startTime endTime now
  next := next exportPath

/-! ## Ownership -/

/-- The export that `processExport` is at. -/
def Pc.job : Pc → Option UUID
  | .loading job | .rendering job | .writing job _ => some job.id
  | .starting | .polling | .waiting | .exited | .crashed => none

/-- The export that a live worker is processing. -/
def Thread.job : Thread → Option UUID
  | .worker w => w.pc.job
  | .creating .. | .created => none

/-- The export that a graceful shutdown took from a worker. -/
def Thread.interrupted : Thread → Option UUID
  | .worker w => w.interrupted
  | .creating .. | .created => none

/-- The requeue of any start later than the timeout after the claim puts the export
back into the queue. -/
def RequeuedAfterTimeout (exports : ExportTable) (e : Export) : Prop :=
  ∃ started, e.startedAt = some started ∧ ∀ now, started + stuckJobTimeout < now →
    ∃ row ∈ requeueStuckExports exports now, row.id = e.id ∧ row.status = .pending

/-- An export in processing has one live worker, or will be requeued. -/
def Accounted (pool : Pool ExportTable Thread) : Prop :=
  ∀ e ∈ pool.shared, e.status = .processing →
    (∃! index : Nat, ∃ thread : Thread, pool.threads[index]? = some thread ∧ thread.job = some e.id) ∨
      RequeuedAfterTimeout pool.shared e

/-- After the requeue of a start, no export that a shutdown took from a worker is in
processing without one. -/
def Recovered (exportPath : String) (pool : Pool ExportTable Thread) : Move Request Env → Prop
  | .spawn _ => True
  | .run index env => ∀ w, pool.threads[index]? = some (.worker w) → w.pc = .starting → env.signal = none →
      ∀ thread ∈ pool.threads, ∀ id ∈ thread.interrupted,
        ∀ e ∈ ((program exportPath).step pool (.run index env)).shared, e.id = id → e.status = .processing →
          ∃ owner ∈ pool.threads, owner.job = some id

/-- What the claim promises of a step. -/
structure Owned (exportPath : String) (pool : Pool ExportTable Thread) (move : Move Request Env) : Prop where
  accounted : Accounted ((program exportPath).step pool move)
  exclusive : Distinct Thread.job ((program exportPath).step pool move).threads
  recovered : Recovered exportPath pool move

/-- A claim takes an export that no worker is still processing, and when a worker
starts, every job that a shutdown took from another one and nobody has taken up since
is older than the timeout. -/
def ClaimsUnowned (pool : Pool ExportTable Thread) (env : Env) : Thread → Prop
  | .worker w => env.signal = none → match w.pc with
    | .polling => w.cancelled = false → env.fault = none → ∀ e, nextPending pool.shared env.locked = some e →
        ∀ owner ∈ pool.threads, owner.job ≠ some e.id
    | .starting => ∀ thread ∈ pool.threads, ∀ id ∈ thread.interrupted, ∀ e ∈ pool.shared, e.id = id →
        e.status = .processing → (∀ owner ∈ pool.threads, owner.job ≠ some id) →
          executes w.cancelled env.fault = true ∧ e.stuck env.now = true
    | _ => True
  | .creating .. | .created => True

/-- A table in which every export in processing was claimed at some time. -/
structure Start where
  exports : ExportTable
  claimed : ∀ e ∈ exports, e.status = .processing → e.startedAt ≠ none

/-- No worker runs yet. -/
def Start.pool (start : Start) : Pool ExportTable Thread := ⟨start.exports, []⟩

/-! ## Single statements -/

/-- Every export in processing was claimed at some time. -/
def Claimed (exports : ExportTable) : Prop := ∀ e ∈ exports, e.status = .processing → e.startedAt ≠ none

private theorem claimed_requeue {exports : ExportTable} {now : Instant} (claimed : Claimed exports) :
    Claimed (requeueStuckExports exports now) := by
  intro e held processing
  obtain ⟨before, same, _⟩ := processing_requeued.mp ⟨held, processing⟩
  exact claimed e before same

private theorem claimed_claim {exports after : ExportTable} {locked : List UUID} {now : Instant} {job : Export}
    (claimed : Claimed exports) (done : claimNextExport exports locked now = some (job, after)) : Claimed after := by
  obtain ⟨old, _, _, _, _, rows⟩ := claimNextExport_some done
  intro e held processing
  rcases (rows e).mp held with rfl | ⟨before, _⟩
  · simp [Export.claimed]
  · exact claimed e before processing

private theorem claimed_write {exports : ExportTable} {job : Export} {outcome : Outcome} {now : Instant}
    (claimed : Claimed exports) : Claimed (writeOutcome exports job outcome now) := by
  intro e held processing
  cases outcome with
  | completed file size | failed reason =>
    obtain ⟨old, before, rfl⟩ := mem_updateExportStatus.mp held
    split at processing
    · cases processing
    · rename_i other
      rw [if_neg other]
      exact claimed old before processing

private theorem claimed_insert {exports : ExportTable} {id cameraId : UUID} {startTime endTime now : Instant}
    (claimed : Claimed exports) :
    Claimed ((exports.insert? (newExport id now cameraId startTime endTime)).getD exports) := by
  cases done : exports.insert? (newExport id now cameraId startTime endTime) with
  | none => exact claimed
  | some after =>
    intro e held processing
    rcases (Table.mem_insert? done).mp held with before | rfl
    · exact claimed e before processing
    · cases processing

private theorem claimed_next {exportPath : String} {env : Env} {thread : Thread} {exports : ExportTable}
    (claimed : Claimed exports) : Claimed (next exportPath env thread exports).2 := by
  cases thread with
  | created => exact claimed
  | creating id cameraId startTime endTime now =>
    unfold next
    dsimp only
    split
    · exact claimed
    · exact claimed_insert claimed
    · exact claimed_insert claimed
  | worker w =>
    unfold next
    dsimp only
    split
    · exact claimed
    · exact claimed
    · unfold Worker.next
      cases w.pc with
      | starting =>
        dsimp only
        split
        · exact claimed_requeue claimed
        · exact claimed
      | polling =>
        dsimp only
        split
        · exact claimed
        · split
          · exact claimed
          · exact claimed
          · rename_i done
            exact claimed_claim claimed done
          · rename_i done
            exact claimed_claim claimed done
      | waiting | loading | rendering | exited | crashed => exact claimed
      | writing job outcome =>
        dsimp only
        split
        · exact claimed
        · dsimp only
          split
          · exact claimed_write claimed
          · exact claimed

/-- The worker claims this export. -/
def Claims (env : Env) (exports : ExportTable) (w : Worker) (e : Export) : Prop :=
  w.pc = .polling ∧ w.cancelled = false ∧ env.fault = none ∧ nextPending exports env.locked = some e

private theorem loaded_job (w : Worker) (segments : Except String (List String)) (job : Export) :
    (loaded w segments job).job = some job.id := by
  unfold loaded
  split
  · rfl
  · split <;> rfl

/-- A worker takes up an export by claiming it, and in no other way. -/
private theorem worker_job {exportPath : String} {env : Env} {w : Worker} {exports : ExportTable} {id : UUID}
    (holds : (w.next exportPath env exports).1.pc.job = some id) :
    w.pc.job = some id ∨ ∃ e, Claims env exports w e ∧ e.id = id := by
  unfold Worker.next at holds
  cases at_ : w.pc with
  | starting => simp [at_, Pc.job] at holds
  | polling =>
    simp only [at_] at holds
    split at holds
    · simp [Pc.job] at holds
    · rename_i live
      split at holds
      · simp [Pc.job] at holds
      · simp [Pc.job] at holds
      · simp [Pc.job] at holds
      · rename_i job after fault done
        obtain ⟨old, _, _, found, rfl, _⟩ := claimNextExport_some done
        exact .inr ⟨old, ⟨at_, by simpa using live, fault, found⟩, by simpa [Pc.job, Export.claimed] using holds⟩
  | waiting =>
    simp only [at_] at holds
    split at holds <;> simp [Pc.job] at holds
  | loading job =>
    simp only [at_, loaded_job] at holds
    exact .inl holds
  | rendering job =>
    simp only [at_, Pc.job] at holds
    exact .inl holds
  | writing job outcome =>
    simp only [at_] at holds
    split at holds <;> simp [Pc.job] at holds
  | exited | crashed => simp [at_, Pc.job] at holds

private theorem worker_claims {exportPath : String} {env : Env} {w : Worker} {exports : ExportTable} {e : Export}
    (claims : Claims env exports w e) : (w.next exportPath env exports).1.pc.job = some e.id := by
  obtain ⟨at_, live, fault, found⟩ := claims
  simp [Worker.next, at_, live, fault, claimNextExport, found, Pc.job, Export.claimed]

/-! ## Runs -/

section Steps
variable {exportPath : String} {pool : Pool ExportTable Thread} {index : Nat} {env : Env}

private theorem accounted_of_claimed (claimed : Claimed pool.shared) : Accounted pool := by
  intro e held processing
  obtain ⟨started, at_⟩ := Option.ne_none_iff_exists'.mp (claimed e held processing)
  refine .inr ⟨started, at_, fun now late => ?_⟩
  have early : started < now - stuckJobTimeout := Int.lt_sub_right_of_add_lt late
  have stuck : e.stuck now = true := by simp [Export.stuck, processing, at_, early]
  exact ⟨e.requeued, mem_requeueStuckExports.mpr ⟨e, held, by rw [stuck]; rfl⟩, rfl, rfl⟩

/-- A statement of a worker keeps the exports of live workers apart exactly if what it
claims is nobody's. -/
private theorem exclusive_iff {w : Worker} (distinct : Distinct Thread.job pool.threads)
    (running : pool.threads[index]? = some (.worker w)) :
    Distinct Thread.job (pool.threads.set index (.worker (w.next exportPath env pool.shared).1)) ↔
      ∀ e, Claims env pool.shared w e → ∀ owner ∈ pool.threads, owner.job ≠ some e.id := by
  constructor
  · intro apart e claims owner member same
    have idle : (Thread.worker w).job = none := by simp [Thread.job, claims.1, Pc.job]
    obtain ⟨other, found⟩ := List.mem_iff_getElem?.mp member
    have elsewhere : index ≠ other := by
      rintro rfl
      rw [running, Option.some.injEq] at found
      rw [← found, idle] at same
      cases same
    have inside := (List.getElem?_eq_some_iff.mp running).1
    exact elsewhere (apart index other (.worker (w.next exportPath env pool.shared).1) owner e.id
      (by rw [List.getElem?_set_self inside]) (by rw [List.getElem?_set_ne elsewhere, found]) (worker_claims claims) same)
  · intro free
    refine distinct.set running fun id taken => ?_
    rcases worker_job taken with kept | ⟨e, claims, rfl⟩
    · exact .inl kept
    · exact .inr (free e claims)

/-- The requeue of a start recovers what shutdowns interrupted exactly if it is old enough. -/
private theorem recovered_iff {w : Worker} (running : pool.threads[index]? = some (.worker w))
    (quiet : env.signal = none) (at_ : w.pc = .starting) :
    Recovered exportPath pool (.run index env) ↔ ∀ thread ∈ pool.threads, ∀ id ∈ thread.interrupted,
      ∀ e ∈ pool.shared, e.id = id → e.status = .processing → (∀ owner ∈ pool.threads, owner.job ≠ some id) →
        executes w.cancelled env.fault = true ∧ e.stuck env.now = true := by
  have after : ((program exportPath).step pool (.run index env)).shared =
      if executes w.cancelled env.fault then requeueStuckExports pool.shared env.now else pool.shared := by
    rw [Program.step_run running]
    simp [program, next, quiet, Worker.next, at_]
  simp only [Recovered, after]
  constructor
  · intro recovered thread member id taken e held named processing unowned
    have here := recovered w running at_ quiet thread member id taken
    by_contra fails
    have left : e ∈ if executes w.cancelled env.fault then requeueStuckExports pool.shared env.now else pool.shared := by
      cases ran : executes w.cancelled env.fault with
      | false => simpa using held
      | true =>
        rw [if_pos rfl]
        exact (processing_requeued.mpr ⟨held, processing, by simpa [ran] using fails⟩).1
    obtain ⟨owner, present, owns⟩ := here e left named processing
    exact unowned owner present owns
  · intro careful w' same _ _ thread member id taken e held named processing
    by_contra unowned
    push Not at unowned
    cases ran : executes w.cancelled env.fault with
    | false =>
      rw [ran, if_neg (by decide)] at held
      have failed := (careful thread member id taken e held named processing unowned).1
      rw [ran] at failed
      cases failed
    | true =>
      rw [ran, if_pos rfl] at held
      obtain ⟨before, _, fresh⟩ := processing_requeued.mp ⟨held, processing⟩
      have old := (careful thread member id taken e before named processing unowned).2
      rw [fresh] at old
      cases old

/-- Threads other than workers, and signals, take up nothing. -/
private theorem apart_of_idle {thread after : Thread} (distinct : Distinct Thread.job pool.threads)
    (running : pool.threads[index]? = some thread) (idle : ∀ id, after.job = some id → thread.job = some id) :
    Distinct Thread.job (pool.threads.set index after) :=
  distinct.set running fun id taken => .inl (idle id taken)

/-- Every export in processing is accounted for after any statement. -/
private theorem owned_split {thread : Thread} (claimed : Claimed pool.shared) (running : pool.threads[index]? = some thread) :
    Owned exportPath pool (.run index env) ↔
      Distinct Thread.job (pool.threads.set index (next exportPath env thread pool.shared).1) ∧
        Recovered exportPath pool (.run index env) := by
  have stepped : (program exportPath).step pool (.run index env) =
      ⟨(next exportPath env thread pool.shared).2, pool.threads.set index (next exportPath env thread pool.shared).1⟩ :=
    Program.step_run running env
  have accounted : Accounted ((program exportPath).step pool (.run index env)) := by
    rw [stepped]
    exact accounted_of_claimed (claimed_next claimed)
  constructor
  · rintro ⟨_, exclusive, recovered⟩
    rw [stepped] at exclusive
    exact ⟨exclusive, recovered⟩
  · rintro ⟨exclusive, recovered⟩
    exact ⟨accounted, by rw [stepped]; exact exclusive, recovered⟩

/-- A worker that no signal meets. -/
private theorem worker_careful_iff {w : Worker} (running : pool.threads[index]? = some (.worker w))
    (quiet : env.signal = none) :
    ((∀ e, Claims env pool.shared w e → ∀ owner ∈ pool.threads, owner.job ≠ some e.id) ∧
      Recovered exportPath pool (.run index env)) ↔ ClaimsUnowned pool env (.worker w) := by
  have unstarted (later : w.pc ≠ .starting) : Recovered exportPath pool (.run index env) := by
    intro other same at_
    rw [running, Option.some.injEq, Thread.worker.injEq] at same
    exact absurd (same ▸ at_) later
  have unclaimed (elsewhere : w.pc ≠ .polling) :
      ∀ e, Claims env pool.shared w e → ∀ owner ∈ pool.threads, owner.job ≠ some e.id :=
    fun e claims => absurd claims.1 elsewhere
  cases at_ : w.pc with
  | starting =>
    rw [recovered_iff running quiet at_]
    simp only [ClaimsUnowned, quiet, at_, true_implies]
    exact and_iff_right (unclaimed (by simp [at_]))
  | polling =>
    simp only [ClaimsUnowned, quiet, at_, true_implies]
    constructor
    · rintro ⟨free, _⟩ live fault e found
      exact free e ⟨at_, live, fault, found⟩
    · intro careful
      exact ⟨fun e claims => careful claims.2.1 claims.2.2.1 e claims.2.2.2, unstarted (by simp [at_])⟩
  | waiting | loading | rendering | writing | exited | crashed =>
    simp only [ClaimsUnowned, quiet, at_, true_implies, iff_true]
    exact ⟨unclaimed (by simp [at_]), unstarted (by simp [at_])⟩

/-- What a statement has to meet for the step to be owned. -/
theorem owned_run_iff {thread : Thread} (distinct : Distinct Thread.job pool.threads) (claimed : Claimed pool.shared)
    (running : pool.threads[index]? = some thread) :
    Owned exportPath pool (.run index env) ↔ ClaimsUnowned pool env thread := by
  rw [owned_split claimed running]
  cases thread with
  | created =>
    refine iff_of_true ⟨apart_of_idle distinct running fun _ taken => taken, fun w same => ?_⟩ trivial
    simp [running] at same
  | creating id cameraId startTime endTime now =>
    refine iff_of_true ⟨apart_of_idle distinct running fun _ taken => ?_, fun w same => ?_⟩ trivial
    · unfold next at taken
      dsimp only at taken
      split at taken <;> cases taken
    · simp [running] at same
  | worker w =>
    cases signal : env.signal with
    | some sent =>
      refine iff_of_true ⟨apart_of_idle distinct running fun _ taken => ?_, fun _ _ _ quiet => ?_⟩ fun quiet => ?_
      · unfold next at taken
        rw [signal] at taken
        cases sent with
        | kill => cases taken
        | shutdown => exact taken
      · rw [signal] at quiet
        cases quiet
      · rw [signal] at quiet
        cases quiet
    | none =>
      have ran : (next exportPath env (.worker w) pool.shared).1 = .worker (w.next exportPath env pool.shared).1 := by
        simp [next, signal]
      rw [ran, exclusive_iff distinct running]
      exact worker_careful_iff running signal

end Steps

/-- Live workers hold different exports, and every export in processing was claimed. -/
structure Sound (pool : Pool ExportTable Thread) : Prop where
  exclusive : Distinct Thread.job pool.threads
  claimed : Claimed pool.shared

variable {exportPath : String} {pool : Pool ExportTable Thread}

private theorem sound_step (sound : Sound pool) {move : Move Request Env} (owned : Owned exportPath pool move) :
    Sound ((program exportPath).step pool move) where
  exclusive := owned.exclusive
  claimed := by
    cases move with
    | spawn request => exact sound.claimed
    | run index env =>
      cases running : pool.threads[index]? with
      | none =>
        rw [Program.step_run_none running]
        exact sound.claimed
      | some thread =>
        rw [Program.step_run running]
        exact claimed_next sound.claimed

private theorem owned_step_iff (sound : Sound pool) (move : Move Request Env) :
    Owned exportPath pool move ↔ OnStatement ClaimsUnowned pool move := by
  cases move with
  | spawn request =>
    refine iff_of_true ⟨accounted_of_claimed sound.claimed, ?_, trivial⟩ trivial
    rw [Program.step_spawn]
    exact sound.exclusive.append (by cases request <;> rfl)
  | run index env =>
    cases running : pool.threads[index]? with
    | none =>
      have stays : (program exportPath).step pool (.run index env) = pool := Program.step_run_none running env
      refine iff_of_true ⟨?_, ?_, fun w same => ?_⟩ fun thread here => ?_
      · rw [stays]
        exact accounted_of_claimed sound.claimed
      · rw [stays]
        exact sound.exclusive
      · rw [running] at same
        cases same
      · rw [running] at here
        cases here
    | some thread =>
      rw [owned_run_iff sound.exclusive sound.claimed running]
      simp [OnStatement, running]

/-! ## A failing run for each cause -/

private def job : Export := newExport ⟨1⟩ 0 ⟨2⟩ 0 60

private def oneJob : Start where
  exports := ⟨[job], by decide⟩
  claimed e held processing := by
    rw [List.mem_singleton.mp held] at processing
    cases processing

private def minute : Instant := 60 * 1000000000

private def at_ (now : Instant) : Env := { now }

/-- A statement with a segment to render. -/
private def found (now : Instant) : Env := { now, segments := .ok ["seg.mp4"] }

/-- A worker is still rendering after eleven minutes when the next one starts and
requeues its job. -/
private def longJob : List (Move Request Env) :=
  [.spawn .start, .run 0 (at_ 0), .run 0 (at_ 0), .run 0 (found 0), .spawn .start, .run 1 (at_ (11 * minute))]

/-- A worker is shut down while it processes a job, its status update is refused, and a
new worker is about to start. -/
private def shutDown : List (Move Request Env) :=
  [.spawn .start, .run 0 (at_ 0), .run 0 (at_ 0), .run 0 (found 0), .run 0 { signal := some .shutdown },
    .run 0 (at_ 1), .run 0 (at_ 2), .spawn .start]

end Ironsight.ExportWorkers
