import Ironsight.Runs
import Mathlib.Logic.Function.Basic

/-! The leader election of the worker processes. A process that is granted the advisory lock
starts its loops; the server frees the lock when the session ends, the process learns of
it with a later heartbeat, and between the two another process may be granted the lock. -/
namespace Ironsight.LeaderElection
open Runs

/-! ## A process -/

inductive Loop where
  | retention
  | indexer
  | export_
  | tracking
  | aggregator
  | ppe
  | vlm
  | monthly
  | digest
  deriving DecidableEq

/-- The settings that `main` reads. -/
structure Flags where
  leaderDisabled : Bool := false
  tracking : Bool := true
  vlm : Bool := false
  deriving DecidableEq

/-- The loops in the order in which `main` starts them. -/
def Flags.loops (flags : Flags) : List Loop :=
  [.retention, .indexer, .export_] ++ (if flags.tracking then [.tracking, .aggregator] else []) ++ [.ppe] ++
    (if flags.vlm then [.vlm] else []) ++ [.monthly, .digest]

/-- The statements of the shutdown; `stop` tells a loop to end and `wait` waits for it. -/
inductive Statement where
  | cancel
  | stop (loop : Loop)
  | wait (loop : Loop)
  | release
  | closeDB
  deriving DecidableEq

/-- What follows the `select`, and then the deferred calls, the last one first. -/
def Flags.shutdown (flags : Flags) : List Statement :=
  [.cancel, .stop .retention, .stop .indexer, .wait .indexer, .wait .export_, .stop .ppe] ++
    (if flags.vlm then [.stop .vlm, .wait .vlm] else []) ++ (if flags.leaderDisabled then [] else [.release]) ++
      [.cancel, .closeDB]

inductive Stage where
  | down
  | polling
  | launching (rest : List Loop)
  | serving
  | stopping (rest : List Statement)
  deriving DecidableEq

/-- A process: whether its lock's session lives, its handle is lost and its context is
cancelled. The indexer has a context of its own. -/
structure Process where
  flags : Flags := {}
  stage : Stage := .down
  connected : Bool := false
  lost : Bool := false
  cancelled : Bool := false
  indexerStopped : Bool := false
  running : List Loop := []
  deriving DecidableEq

/-- The loop has been told to end. -/
def Process.told (process : Process) (loop : Loop) : Bool :=
  if loop = .indexer then process.indexerStopped else process.cancelled

/-- The process holds a handle and sends heartbeats. -/
def Process.beats (process : Process) : Bool :=
  !process.flags.leaderDisabled && !process.lost && match process.stage with
    | .down | .polling => false
    | .launching _ | .serving | .stopping _ => true

/-! ## All processes and the lock -/

/-- The session that was granted the lock, if any, by its process. -/
structure State where
  holder : Option Nat := none
  processes : Nat → Process := fun _ => {}

/-- No process is up. -/
def State.initial : State := {}

def State.write (state : State) (p : Nat) (process : Process) : State :=
  { state with processes := Function.update state.processes p process }

/-- The session of the process has ended, and with it its hold on the lock. -/
def State.free (state : State) (p : Nat) : State := if state.holder = some p then { state with holder := none } else state

/-- The process is gone, its loops and its session with it. -/
def State.leave (state : State) (p : Nat) : State := (state.write p {}).free p

/-- `Release`, once. -/
def State.release (state : State) (p : Nat) : State :=
  let process := state.processes p
  if process.lost then state else (state.write p { process with lost := true, connected := false }).free p

/-- What happens next: a process comes up, sends its next poll or heartbeat (`ok` is whether
it is answered), starts its next loop, is signalled, goes on with its shutdown or dies; a
loop that was told to end does so; the watcher of `Lost` cancels the context; a lock
connection is lost. -/
inductive Move where
  | start (p : Nat) (flags : Flags)
  | poll (p : Nat) (ok : Bool)
  | launch (p : Nat)
  | heartbeat (p : Nat) (ok : Bool)
  | lose (p : Nat)
  | watch (p : Nat)
  | signal (p : Nat)
  | observe (p : Nat)
  | advance (p : Nat)
  | finish (p : Nat) (loop : Loop)
  | kill (p : Nat)
  deriving DecidableEq

/-- A round of `AcquireLeader`; an error is fatal. -/
def poll (state : State) (p : Nat) (ok : Bool) : State :=
  let process := state.processes p
  if process.stage ≠ .polling then state
  else if !ok || !process.connected then state.leave p
  else if state.holder = none then
    { state.write p { process with stage := .launching process.flags.loops } with holder := some p }
  else state

/-- The next statement of `main` while it starts the loops. -/
def launch (state : State) (p : Nat) : State :=
  let process := state.processes p
  match process.stage with
  | .launching (loop :: rest) => state.write p { process with stage := .launching rest, running := loop :: process.running }
  | .launching [] => state.write p { process with stage := .serving }
  | _ => state

/-- The next statement of the shutdown. -/
def advance (state : State) (p : Nat) : State :=
  let process := state.processes p
  match process.stage with
  | .stopping [] => state.leave p
  | .stopping (statement :: rest) =>
    let process := { process with stage := .stopping rest }
    match statement with
    | .cancel => state.write p { process with cancelled := true }
    | .stop loop => state.write p { process with indexerStopped := process.indexerStopped || decide (loop = .indexer) }
    | .wait loop => if loop ∈ process.running then state else state.write p process
    | .release => (state.write p process).release p
    | .closeDB => state.write p process
  | _ => state

/-- What becomes of all processes when one of them, or the database, moves. -/
def step (state : State) : Move → State
  | .start p flags =>
    if (state.processes p).stage ≠ .down then state
    else if flags.leaderDisabled then state.write p { flags, stage := .launching flags.loops }
    else state.write p { flags, stage := .polling, connected := true }
  | .poll p ok => poll state p ok
  | .launch p => launch state p
  | .heartbeat p ok =>
    let process := state.processes p
    if process.beats ∧ !(ok && process.connected) then state.release p else state
  | .lose p => (state.write p { state.processes p with connected := false }).free p
  | .watch p =>
    let process := state.processes p
    if process.lost then state.write p { process with cancelled := true } else state
  | .signal p =>
    -- Before `signal.Notify` a signal ends the process.
    let process := state.processes p
    match process.stage with
    | .serving => state.write p { process with stage := .stopping process.flags.shutdown }
    | .stopping _ => state
    | .down | .polling | .launching _ => state.leave p
  | .observe p =>
    let process := state.processes p
    if process.stage = .serving ∧ process.cancelled then
      state.write p { process with stage := .stopping process.flags.shutdown }
    else state
  | .advance p => advance state p
  | .finish p loop =>
    let process := state.processes p
    if loop ∈ process.running ∧ process.told loop then state.write p { process with running := process.running.erase loop }
    else state
  | .kill p => state.leave p

/-! ## Exclusion -/

/-- No two processes have loops running. -/
def Exclusive (state : State) : Prop :=
  ∀ p q, (state.processes p).running ≠ [] → (state.processes q).running ≠ [] → p = q

/-- There are loops still to start. -/
def Stage.launches : Stage → Bool
  | .launching (_ :: _) => true
  | _ => false

/-- The next statement of the shutdown is `Release`. -/
def Stage.releases : Stage → Bool
  | .stopping (.release :: _) => true
  | _ => false

/-- The process has loops running or still to start. -/
def Engaged (process : Process) : Prop := process.running ≠ [] ∨ process.stage.launches = true

instance (process : Process) : Decidable (Engaged process) := inferInstanceAs (Decidable (_ ∨ _))

/-- No engaged process loses its lock's connection or a heartbeat, `Release` in a shutdown
finds no loop running, and no process skips the election. -/
def LocksOutliveLoops (state : State) : Move → Prop
  | .start _ flags => flags.leaderDisabled = false
  | .lose p => ¬ Engaged (state.processes p)
  | .heartbeat p ok => Engaged (state.processes p) → ok = true
  | .advance p => (state.processes p).stage.releases = true → (state.processes p).running = []
  | _ => True

instance (state : State) : (move : Move) → Decidable (LocksOutliveLoops state move)
  | .start _ flags => inferInstanceAs (Decidable (flags.leaderDisabled = false))
  | .lose p => inferInstanceAs (Decidable (¬ Engaged (state.processes p)))
  | .heartbeat p ok => inferInstanceAs (Decidable (Engaged (state.processes p) → ok = true))
  | .advance p => inferInstanceAs (Decidable ((state.processes p).stage.releases = true → (state.processes p).running = []))
  | .poll _ _ | .launch _ | .watch _ | .signal _ | .observe _ | .finish _ _ | .kill _ => isTrue trivial

/-- An engaged process holds the lock, by a session that lives. -/
def Held (state : State) : Prop :=
  ∀ p, Engaged (state.processes p) → state.holder = some p ∧ (state.processes p).connected = true

section Steps
variable {state : State} {p : Nat}

theorem exclusive_of_held (held : Held state) : Exclusive state := by
  intro p q one other
  have first := (held p (.inl one)).1
  rw [(held q (.inl other)).1] at first
  exact (Option.some.inj first).symm

/-- A process that is no more engaged than before, over the same session. -/
private theorem held_write (held : Held state) {process : Process} (own : Engaged process → Engaged (state.processes p))
    (session : Engaged process → process.connected = (state.processes p).connected) : Held (state.write p process) := by
  intro q engaged
  by_cases same : q = p
  · subst same
    simp only [State.write, Function.update_self] at engaged ⊢
    rw [session engaged]
    exact held q (own engaged)
  · simp only [State.write, Function.update_of_ne same] at engaged ⊢
    exact held q engaged

private theorem held_free (held : Held state) (idle : ¬ Engaged (state.processes p)) : Held (state.free p) := by
  unfold State.free
  split
  · rename_i holds
    intro q engaged
    have owner := (held q engaged).1
    rw [holds] at owner
    cases owner
    exact absurd engaged idle
  · exact held

private theorem write_self (process : Process) : (state.write p process).processes p = process := by
  simp [State.write]

private theorem not_engaged_fresh {flags : Flags} {stage : Stage} {connected : Bool} (launched : stage.launches = false) :
    ¬ Engaged { flags := flags, stage := stage, connected := connected } := by
  rintro (running | launching)
  · exact running rfl
  · exact absurd (launched.symm.trans launching) Bool.false_ne_true

private theorem held_leave (held : Held state) (p : Nat) : Held (state.leave p) := by
  have idle : ¬ Engaged ({} : Process) := not_engaged_fresh rfl
  refine held_free (held_write held (fun engaged => absurd engaged idle) fun engaged => absurd engaged idle) ?_
  rwa [write_self]

private theorem held_release (held : Held state) (idle : ¬ Engaged (state.processes p)) : Held (state.release p) := by
  unfold State.release
  dsimp only
  split
  · exact held
  · refine held_free (held_write held (fun engaged => engaged) fun engaged => absurd engaged idle) ?_
    rwa [write_self]

/-- The lock is granted when nobody holds it, so nobody else is engaged. -/
private theorem held_poll (held : Held state) (ok : Bool) : Held (poll state p ok) := by
  unfold poll
  dsimp only
  split_ifs with waiting refused open_
  · exact held
  · exact held_leave held p
  · have connected : (state.processes p).connected = true := by
      simp only [Bool.or_eq_true, Bool.not_eq_true', not_or, Bool.not_eq_false] at refused
      exact refused.2
    intro q engaged
    by_cases same : q = p
    · subst same
      simpa [State.write] using connected
    · simp only [State.write, Function.update_of_ne same] at engaged
      have owner := (held q engaged).1
      rw [open_] at owner
      cases owner
  · exact held

private theorem held_launch (held : Held state) : Held (launch state p) := by
  unfold launch
  dsimp only
  split
  · rename_i loop rest stage
    exact held_write held (fun _ => .inr (by rw [stage]; rfl)) fun _ => rfl
  · rename_i stage
    refine held_write held (fun engaged => .inl ?_) fun _ => rfl
    exact engaged.resolve_right Bool.false_ne_true
  · exact held

private theorem held_stopping (held : Held state) {process : Process} {rest : List Statement} (stage : process.stage = .stopping rest)
    (running : process.running = (state.processes p).running) (session : process.connected = (state.processes p).connected) :
    Held (state.write p process) := by
  refine held_write held (fun engaged => .inl ?_) fun _ => session
  rcases engaged with some_ | launching
  · rwa [← running]
  · rw [stage] at launching
    exact absurd launching Bool.false_ne_true

private theorem held_advance (held : Held state) (orderly : LocksOutliveLoops state (.advance p)) : Held (advance state p) := by
  unfold advance
  dsimp only
  split
  · exact held_leave held p
  · rename_i statement rest stage
    cases statement with
    | cancel | stop _ | closeDB => exact held_stopping held rfl rfl rfl
    | wait loop =>
      dsimp only
      split
      · exact held
      · exact held_stopping held rfl rfl rfl
    | release =>
      have nothing : (state.processes p).running = [] := orderly (by rw [stage]; rfl)
      refine held_release (held_stopping held rfl rfl rfl) ?_
      rw [write_self]
      exact fun engaged => engaged.resolve_right Bool.false_ne_true nothing
  · exact held

theorem held_step {move : Move} (held : Held state) (orderly : LocksOutliveLoops state move) : Held (step state move) := by
  cases move with
  | start p flags =>
    have elected : flags.leaderDisabled = false := orderly
    simp only [step, elected, Bool.false_eq_true, if_false]
    split
    · exact held
    · have idle : ¬ Engaged { flags := flags, stage := .polling, connected := true } :=
        not_engaged_fresh rfl
      exact held_write held (fun engaged => absurd engaged idle) fun engaged => absurd engaged idle
  | poll p ok => exact held_poll held ok
  | launch p => exact held_launch held
  | heartbeat p ok =>
    simp only [step]
    split
    · rename_i failed
      refine held_release held fun engaged => ?_
      have connected := (held p engaged).2
      have answered : ok = true := orderly engaged
      simp [connected, answered] at failed
    · exact held
  | lose p =>
    have idle : ¬ Engaged (state.processes p) := orderly
    refine held_free (held_write held (fun engaged => engaged) fun engaged => absurd engaged idle) ?_
    rwa [write_self]
  | watch p =>
    simp only [step]
    split
    · exact held_write held (fun engaged => engaged) fun _ => rfl
    · exact held
  | signal p =>
    simp only [step]
    split
    · exact held_stopping held rfl rfl rfl
    · exact held
    · exact held_leave held p
    · exact held_leave held p
    · exact held_leave held p
  | observe p =>
    simp only [step]
    split
    · exact held_stopping held rfl rfl rfl
    · exact held
  | advance p => exact held_advance held orderly
  | finish p loop =>
    simp only [step]
    split
    · rename_i ending
      refine held_write held (fun _ => .inl (List.ne_nil_of_mem ending.1)) fun _ => rfl
    · exact held
  | kill p => exact held_leave held p

end Steps

/-- Only one process works at a time in every run in which no process loses its lock's
connection or a heartbeat while it has loops running or still to start, none gives the lock
up in its shutdown while a loop is running, and none skips the election. -/
theorem one_worker (moves : List Move) (orderly : Along step LocksOutliveLoops .initial moves) :
    Throughout step Exclusive .initial moves := by
  have idle : Held .initial := fun p engaged => absurd engaged (not_engaged_fresh rfl)
  exact throughout_mono (fun _ held => exclusive_of_held held) moves _
    (throughout_of_invariant (fun _ _ held allowed => held_step held allowed) moves _ idle orderly)

/-- The first process comes up with all its loops, the second waits for the lock. -/
private def standby : List Move :=
  [.start 0 {}, .poll 0 true, .start 1 {}, .poll 1 true] ++ List.replicate 9 (.launch 0) ++ [.poll 1 true]

/-- The first process shuts down after its loops, then the second starts its own. -/
private def handover : List Move :=
  standby ++ [.signal 0, .advance 0, .finish 0 .retention, .finish 0 .export_, .finish 0 .tracking, .finish 0 .aggregator,
    .finish 0 .ppe, .finish 0 .monthly, .finish 0 .digest, .advance 0, .advance 0, .finish 0 .indexer, .advance 0, .advance 0,
    .advance 0, .advance 0, .poll 1 true, .launch 1]

theorem handover_exclusive : Throughout step Exclusive .initial handover := one_worker handover (by decide +kernel)

private theorem not_exclusive {moves : List Move} (first : .retention ∈ ((exec step .initial moves).processes 0).running)
    (second : .retention ∈ ((exec step .initial moves).processes 1).running) : ¬ Throughout step Exclusive .initial moves := by
  intro exclusive
  have same := throughout_last moves _ exclusive 0 1 (List.ne_nil_of_mem first) (List.ne_nil_of_mem second)
  cases same

/-- The second process is granted the lock before the first one's heartbeat notices that its
connection is gone; and in a shutdown, `Release` comes while the retention pass goes on. -/
theorem two_workers :
    (¬ Throughout step Exclusive .initial (standby ++ [.lose 0, .poll 1 true, .launch 1])) ∧
      ¬ Throughout step Exclusive .initial (standby ++ [.signal 0, .advance 0, .advance 0, .advance 0, .finish 0 .indexer,
        .advance 0, .finish 0 .export_, .advance 0, .advance 0, .advance 0, .poll 1 true, .launch 1]) :=
  ⟨not_exclusive (by decide +kernel) (by decide +kernel), not_exclusive (by decide +kernel) (by decide +kernel)⟩

end Ironsight.LeaderElection
