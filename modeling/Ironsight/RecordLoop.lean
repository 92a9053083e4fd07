import Ironsight.Runs
import Ironsight.ScheduleWindows

/-! The loop of a recorder with a schedule. The schedule is asked before FFmpeg is started
and not again until it has exited, so what ends a recording when a window closes is
whatever ends FFmpeg. -/
namespace Ironsight.RecordLoop
open Runs ScheduleWindows

/-- The settings of a `Recorder`; `zone` is what the wall clock is ahead of the time. -/
structure Config where
  schedule : String
  zone : Int → Int

def Config.open (config : Config) (now : Int) : Bool := isWithinSchedule config.schedule (now + config.zone now)

def second : Int := 1000000000

def pause : Int := 30 * second

def retryDelay : Int := 5 * second

/-- Where the loop stands; FFmpeg is active in `running` alone. -/
inductive Stage where
  | top
  | checking
  | pausing (until_ : Int)
  | launching
  | running
  | exited (failed : Bool)
  | sleeping (until_ : Int)
  | stopped
  deriving DecidableEq

structure State where
  now : Int
  cancelled : Bool := false
  stage : Stage := .top
  deriving DecidableEq

/-- Time passes, the loop performs a statement, FFmpeg exits by itself or by the stall
watchdog, or `Stop` cancels the context. -/
inductive Move where
  | elapse (nanos : Nat)
  | act (started : Bool)
  | exit (failed : Bool)
  | stop
  deriving DecidableEq

/-- A statement of `recordLoop` and, from `launching`, of `runFFmpeg` up to `cmd.Start`. -/
def act (config : Config) (started : Bool) (state : State) : State :=
  match state.stage with
  | .top => { state with stage := if state.cancelled then .stopped else .checking }
  | .checking =>
    { state with stage := if config.schedule ≠ "" ∧ !config.open state.now then .pausing (state.now + pause) else .launching }
  | .pausing until_ =>
    if state.cancelled then { state with stage := .stopped }
    else if until_ ≤ state.now then { state with stage := .top }
    else state
  | .launching => { state with stage := if started ∧ !state.cancelled then .running else .exited true }
  | .running => state
  | .exited failed =>
    if !failed then { state with stage := .top }
    else { state with stage := if state.cancelled then .stopped else .sleeping (state.now + retryDelay) }
  | .sleeping until_ => if until_ ≤ state.now then { state with stage := .top } else state
  | .stopped => state

/-- Time passes, or the loop goes on. -/
def step (config : Config) (state : State) : Move → State
  | .elapse nanos => { state with now := state.now + nanos }
  | .act started => act config started state
  | .exit failed => if state.stage = .running then { state with stage := .exited failed } else state
  | .stop => { state with cancelled := true }

/-- The schedule was open at most thirty seconds ago. -/
def Recent (config : Config) (now : Int) : Prop := ∃ time, now - pause ≤ time ∧ time ≤ now ∧ config.open time = true

/-- While FFmpeg is active the schedule is open, or was at most thirty seconds earlier. -/
def Honoured (config : Config) (state : State) : Prop := state.stage = .running → Recent config state.now

/-- The schedule closed thirty seconds ago and has stayed closed. -/
def Overdue (config : Config) (now : Int) : Prop :=
  config.open (now - pause) = true ∧ ∀ time, now - pause < time → time ≤ now + 1 → config.open time = false

/-- FFmpeg is being started or active. -/
def Stage.up : Stage → Bool
  | .launching | .running => true
  | _ => false

/-- No time passes over the point thirty seconds after a closing before FFmpeg, once the
check has let it through, has exited. -/
def ExitsBeforeOverdue (config : Config) (state : State) : Move → Prop
  | .elapse nanos => state.stage.up = true → ∀ k < nanos, ¬ Overdue config (state.now + k)
  | _ => True

/-! ## Runs -/

section Runs
variable {config : Config}

theorem open_of_unscheduled (unscheduled : config.schedule = "") (now : Int) : config.open now = true := by
  have blank : RecoveryCodes.trimSpace "" = "" := by decide
  rw [Config.open, unscheduled, isWithinSchedule]
  simp [blank]

theorem recent_of_open {now : Int} (held : config.open now = true) : Recent config now :=
  ⟨now, by have := (by decide : 0 ≤ pause); omega, le_refl now, held⟩

/-- A nanosecond passes that is not overdue. -/
private theorem recent_succ {now : Int} (recent : Recent config now) (due : ¬ Overdue config now) :
    Recent config (now + 1) := by
  obtain ⟨time, late, early, held⟩ := recent
  by_cases last : time = now - pause
  · subst last
    by_contra closed
    refine due ⟨held, fun other after before => ?_⟩
    by_contra open_
    exact closed ⟨other, by omega, before, by simpa using open_⟩
  · exact ⟨time, by omega, by omega, held⟩

private theorem recent_elapse {now : Int} (nanos : Nat) (recent : Recent config now)
    (due : ∀ k < nanos, ¬ Overdue config (now + k)) : Recent config (now + nanos) := by
  induction nanos with
  | zero => simpa using recent
  | succ nanos ih =>
    have before := ih fun k below => due k (by omega)
    have after := recent_succ before (due nanos (by omega))
    rwa [Nat.cast_succ, ← add_assoc]

/-- FFmpeg is up only after a check that let it through, and the schedule was open since. -/
def Checked (config : Config) (state : State) : Prop := state.stage.up = true → Recent config state.now

/-- From the statements of the loop only the check leads to FFmpeg being started. -/
private theorem checked_act (started : Bool) {state : State} (checked : Checked config state) :
    Checked config (act config started state) := by
  unfold act
  cases stage : state.stage with
  | checking =>
    dsimp only
    split
    · exact fun up => absurd up Bool.false_ne_true
    · rename_i passed
      refine fun _ => recent_of_open ?_
      by_cases unscheduled : config.schedule = ""
      · exact open_of_unscheduled unscheduled state.now
      · simpa [unscheduled] using passed
  | launching =>
    have recent := checked (by rw [stage]; rfl)
    exact fun _ => recent
  | running =>
    dsimp only
    exact checked
  | top =>
    dsimp only
    split <;> exact fun up => absurd up Bool.false_ne_true
  | exited failed =>
    dsimp only
    split
    · exact fun up => absurd up Bool.false_ne_true
    · split <;> exact fun up => absurd up Bool.false_ne_true
  | pausing until_ | sleeping until_ =>
    dsimp only
    split_ifs <;> simp [Checked, Stage.up, stage]
  | stopped =>
    dsimp only
    exact checked

theorem checked_step {state : State} {move : Move} (checked : Checked config state) (prompt : ExitsBeforeOverdue config state move) :
    Checked config (step config state move) := by
  cases move with
  | elapse nanos => exact fun up => recent_elapse nanos (checked up) (prompt up)
  | act started => exact checked_act started checked
  | exit failed =>
    simp only [step]
    split
    · exact fun up => absurd up Bool.false_ne_true
    · exact checked
  | stop => exact checked

/-- The three statements from the top of the loop to an FFmpeg that runs. -/
theorem act_launches {now : Int} (held : config.open now = true) :
    act config true (act config true (act config true { now := now })) = { now := now, stage := .running } := by
  have passed : act config true { now := now, stage := .checking } = { now := now, stage := .launching } := by
    simp [act, held]
  exact congrArg (act config true) passed

/-- FFmpeg is started under an open schedule and exits by itself in time. -/
private theorem along_exit {now : Int} (held : config.open now = true) {nanos : Nat}
    (early : ∀ k : Nat, k < nanos → ¬ Overdue config (now + k)) : Along (step config) (ExitsBeforeOverdue config) { now := now }
      [.act true, .act true, .act true, .elapse nanos, .exit true] := by
  refine ⟨trivial, trivial, trivial, fun _ => ?_, trivial, trivial⟩
  simp only [step, act_launches held]
  exact early

private theorem exec_elapse {now : Int} (held : config.open now = true) (nanos : Nat) :
    exec (step config) { now := now } [.act true, .act true, .act true, .elapse nanos] =
      { now := now + nanos, stage := .running } := by
  simp only [exec_cons, exec_nil, step, act_launches held]

/-- A clock that goes past thirty seconds after a closing while FFmpeg is active makes the
recording outlast its schedule. -/
theorem overdue_breaks {state : State} (running : state.stage = .running) (due : Overdue config state.now) :
    ¬ Honoured config (step config state (.elapse 1)) := by
  intro honoured
  obtain ⟨time, late, early, held⟩ := honoured running
  simp only [step, Nat.cast_one] at late early
  rw [due.2 time (by omega) early] at held
  cases held

/-- A recorder keeps to its schedule in every run in which FFmpeg, once the check has let it
through, exits before thirty seconds have passed since the schedule closed; where it does
not, the recording goes on. -/
theorem schedule_kept (config : Config) :
    (∀ (moves : List Move) (now : Int), Along (step config) (ExitsBeforeOverdue config) { now := now } moves →
      Throughout (step config) (Honoured config) { now := now } moves) ∧
      ∀ state : State, state.stage = .running → Overdue config state.now → ¬ Honoured config (step config state (.elapse 1)) := by
  refine ⟨fun moves now prompt => ?_, fun state running due => overdue_breaks running due⟩
  have start : Checked config { now := now } := fun up => absurd up Bool.false_ne_true
  refine throughout_mono (fun state checked running => checked (by rw [running]; rfl)) moves _
    (throughout_of_invariant (fun state move held allowed => checked_step held allowed) moves _ start prompt)

end Runs

/-- Thursdays from 08:00 to 17:00. -/
private def office : Config where
  schedule := "[\x7b\"enabled\":true,\"days\":[4],\"start_time\":\"08:00\",\"end_time\":\"17:00\"\x7d]"
  zone := fun _ => 0

private def thursday : ScheduleWindow := ⟨true, [4], "08:00", "17:00"⟩

private theorem thursday_timed : Timed thursday 480 1020 :=
  ⟨⟨8, by decide, 0, by decide, by decide, by decide⟩, ⟨17, by decide, 0, by decide, by decide, by decide⟩⟩

private theorem office_edited : Edited office.schedule [thursday] := by
  refine edited_single ['4'] ?_ ?_ ?_ (by decide) thursday_timed
  all_goals rw [show office.schedule.toList = _ from String.toList_ofList]; rfl

/-- The first of January 1970 was a Thursday. -/
private theorem office_open {time : Int} (low : 0 ≤ time) (high : time < 86400 * second) :
    office.open time = true ↔ 480 * 60 * second ≤ time ∧ time < 1020 * 60 * second := by
  have here : minuteOfDay (time + 0) = time / 60000000000 ∧ dayOf (time + 0) = 0 := by
    unfold minuteOfDay dayOf minuteOf
    unfold second at high
    omega
  have same : office.open time = isWithinSchedule office.schedule (time + 0) := rfl
  rw [same, isWithinSchedule_iff office_edited]
  unfold second
  constructor
  · rintro ⟨w, member, -, opened⟩
    rw [List.mem_singleton] at member
    subst member
    rcases opened with ⟨start, stop, timed, -, late, early⟩ | ⟨start, stop, timed, turned, -, -⟩
    · rw [HHMM_unique timed.start thursday_timed.start, here.1] at late
      rw [HHMM_unique timed.start thursday_timed.start, HHMM_unique timed.stop thursday_timed.stop, here.1] at early
      have before := early (by decide)
      omega
    · rw [HHMM_unique timed.start thursday_timed.start, HHMM_unique timed.stop thursday_timed.stop] at turned
      omega
  · rintro ⟨late, early⟩
    refine ⟨thursday, List.mem_singleton_self thursday, rfl, .inl ⟨480, 1020, thursday_timed, ?_, ?_, fun _ => ?_⟩⟩
    · rw [here.2]
      decide
    · rw [here.1]
      omega
    · rw [here.1]
      omega

/-- From 16:59:10, FFmpeg runs for forty seconds. -/
theorem office_hours_kept : Throughout (step office) (Honoured office) { now := 61150 * second }
    [.act true, .act true, .act true, .elapse 40000000000, .exit true] := by
  have passed : office.open (61150 * second) = true := (office_open (by decide) (by decide)).mpr (by decide)
  refine (schedule_kept office).1 _ _ (along_exit passed fun k below => ?_)
  rintro ⟨-, closed⟩
  have still := closed (61150 * second + k + 1) (by simp only [pause, second]; omega) (le_refl _)
  rw [(office_open (by simp only [second]; omega) (by simp only [second]; omega)).mpr (by simp only [second]; omega)] at still
  cases still

/-- Started at 16:59:50, FFmpeg is still recording at 17:00:50. -/
theorem closing_time_ignored : ¬ Throughout (step office) (Honoured office) { now := 61190 * second }
    [.act true, .act true, .act true, .elapse 60000000000] := by
  intro kept
  have passed : office.open (61190 * second) = true := (office_open (by decide) (by decide)).mpr (by decide)
  have honoured := throughout_last _ _ kept
  rw [exec_elapse passed] at honoured
  obtain ⟨time, late, early, held⟩ := honoured rfl
  simp only [pause, second] at late early
  have closed := (office_open (by omega) (by simp only [second]; omega)).mp held
  simp only [second] at closed
  omega

end Ironsight.RecordLoop
