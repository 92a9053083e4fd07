import Mathlib.Data.List.Perm.Basic
import Ironsight.Runs
import Ironsight.Tables
import Ironsight.Uuid

/-! The recording engine: one map for FFmpeg recorders, one for Go recorders of the
cameras that are listed for them. Every call holds the engine's lock from beginning to
end, so a run is a sequence of calls. Starting looks only into the first map. -/
namespace Ironsight.RecordingEngine
open Tables Uuid Runs

structure RecordingSettings where
  recordingMode : String := ""
  preBufferSec : Int := 0
  postBufferSec : Int := 0
  recordingTriggers : String := ""
  schedule : String := ""
  deriving DecidableEq

/-- What a recorder is made of; a Go recorder takes no settings. -/
inductive Kind where
  | ffmpeg (mode : String) (preBuffer postBuffer : Int) (triggers schedule : String) (hasAudio : Bool)
  | gort
  deriving DecidableEq

/-- A recorder that was made, by its identity; `running` is set by `Start` and cleared by
`Stop`. -/
structure Recorder where
  handle : Nat
  cameraID : UUID
  kind : Kind
  running : Bool
  deriving DecidableEq

/-- A map from cameras to recorders. -/
abbrev RecorderMap := Table (Prod.fst : UUID × Nat → UUID)

/-- The fields of `Engine`, and every recorder made so far. -/
structure Engine where
  recorders : RecorderMap := .empty
  gortRecorders : RecorderMap := .empty
  made : Table Recorder.handle := .empty
  next : Nat := 0

/-- Whether the output directory can be made, by the engine and by the Go recorder, and
what the audio probe finds. -/
structure Env where
  mkdir : Bool := true
  gortMkdir : Bool := true
  hasAudio : Bool := false
  deriving DecidableEq

inductive StartError where
  | alreadyActive
  | createRecordingDir
  | createOutputDir
  deriving DecidableEq

/-- The list holds whole identifiers or beginnings of them. -/
def useGortRecorder (gortCameras : List String) (cameraID : UUID) : Bool :=
  gortCameras.any fun tok =>
    decide (tok ≠ "") && (decide (tok = cameraID.text) || tok.toList.isPrefixOf cameraID.text.toList)

/-- The settings with the defaults in place of what is not set. -/
def resolve (settings : Option RecordingSettings) (hasAudio : Bool) : Kind :=
  let s := settings.getD {}
  .ffmpeg (if s.recordingMode ≠ "" then s.recordingMode else "continuous")
    (if 0 < s.preBufferSec then s.preBufferSec else 10)
    (if 0 < s.postBufferSec then s.postBufferSec else 30)
    (if s.recordingTriggers ≠ "" then s.recordingTriggers else "motion,object") s.schedule hasAudio

/-- A new recorder, started. -/
def Engine.make (engine : Engine) (cameraID : UUID) (kind : Kind) : Engine :=
  { engine with
    made := engine.made.put { handle := engine.next, cameraID, kind, running := true }
    next := engine.next + 1 }

/-- `Stop` of the recorder, which does nothing to one that is not running. -/
def stop (handle : Nat) (made : Table Recorder.handle) : Table Recorder.handle :=
  made.modify (fun recorder => recorder.handle = handle) (fun recorder => { recorder with running := false }) fun _ => rfl

def startRecording (gortCameras : List String) (env : Env) (cameraID : UUID) (settings : Option RecordingSettings)
    (engine : Engine) : Except StartError Engine :=
  if (engine.recorders.find? cameraID).isSome then .error .alreadyActive
  else if env.mkdir = false then .error .createRecordingDir
  else if useGortRecorder gortCameras cameraID then
    if env.gortMkdir = false then .error .createOutputDir
    else
      .ok { engine.make cameraID .gort with gortRecorders := engine.gortRecorders.put (cameraID, engine.next) }
  else
    .ok { engine.make cameraID (resolve settings env.hasAudio) with
      recorders := engine.recorders.put (cameraID, engine.next) }

/-- None stands for the error that no recording is active. -/
def stopRecording (cameraID : UUID) (engine : Engine) : Option Engine :=
  match engine.gortRecorders.find? cameraID with
  | some (_, handle) =>
    some { engine with
      made := stop handle engine.made
      gortRecorders := engine.gortRecorders.remove fun entry => entry.1 = cameraID }
  | none =>
    match engine.recorders.find? cameraID with
    | none => none
    | some (_, handle) =>
      some { engine with
        made := stop handle engine.made
        recorders := engine.recorders.remove fun entry => entry.1 = cameraID }

/-- Stops what the map holds. -/
def stopEach (map : RecorderMap) (made : Table Recorder.handle) : Table Recorder.handle :=
  map.rows.foldl (fun made entry => stop entry.2 made) made

/-- `StopAll`, which stops what the two maps hold. -/
def stopAll (engine : Engine) : Engine :=
  { engine with
    made := stopEach engine.gortRecorders (stopEach engine.recorders engine.made)
    recorders := .empty
    gortRecorders := .empty }

def activeCount (engine : Engine) : Nat := engine.recorders.rows.length + engine.gortRecorders.rows.length

/-! ## Runs -/

/-- The calls of an engine. -/
inductive Move where
  | start (cameraID : UUID) (settings : Option RecordingSettings) (env : Env)
  | stop (cameraID : UUID)
  | stopAll
  deriving DecidableEq

/-- A call that returns an error leaves the engine as it was. -/
def step (gortCameras : List String) (engine : Engine) : Move → Engine
  | .start cameraID settings env =>
    match startRecording gortCameras env cameraID settings engine with
    | .ok after => after
    | .error _ => engine
  | .stop cameraID => (stopRecording cameraID engine).getD engine
  | .stopAll => RecordingEngine.stopAll engine

/-- One recorder runs for a camera at most, the maps hold every one that runs, and
`ActiveCount` tells how many there are. -/
structure Sound (engine : Engine) : Prop where
  single : ∀ first ∈ engine.made, ∀ second ∈ engine.made, first.running = true → second.running = true →
    first.cameraID = second.cameraID → first = second
  held : ∀ recorder ∈ engine.made, recorder.running = true →
    (recorder.cameraID, recorder.handle) ∈ engine.recorders ∨ (recorder.cameraID, recorder.handle) ∈ engine.gortRecorders
  counted : activeCount engine = engine.made.rows.countP Recorder.running

/-- No recorder runs. -/
def NoneRunning (engine : Engine) : Prop := ∀ recorder ∈ engine.made, recorder.running = false

/-- No start gets through for a camera that has a Go recorder already. -/
def Allowed (gortCameras : List String) (engine : Engine) : Move → Prop
  | .start cameraID _ env => useGortRecorder gortCameras cameraID = true → (engine.gortRecorders.find? cameraID).isSome →
      ¬ (env.mkdir = true ∧ env.gortMkdir = true)
  | .stop _ => True
  | .stopAll => True

/-! ## What the maps hold -/

/-- The recorder runs for the camera. -/
def Active (made : Table Recorder.handle) (cameraID : UUID) (handle : Nat) : Prop :=
  ∃ recorder ∈ made, recorder.running = true ∧ recorder.cameraID = cameraID ∧ recorder.handle = handle

/-- The map holds exactly the running recorders of the chosen cameras. -/
def Holds (map : RecorderMap) (made : Table Recorder.handle) (chosen : UUID → Prop) : Prop :=
  ∀ cameraID handle, (cameraID, handle) ∈ map ↔ Active made cameraID handle ∧ chosen cameraID

/-- Recorders are made under fresh identities, and each map holds the running ones of its
kind. -/
structure Tracked (gortCameras : List String) (engine : Engine) : Prop where
  fresh : ∀ recorder ∈ engine.made, recorder.handle < engine.next
  recorders : Holds engine.recorders engine.made fun cameraID => ¬ useGortRecorder gortCameras cameraID = true
  gortRecorders : Holds engine.gortRecorders engine.made fun cameraID => useGortRecorder gortCameras cameraID = true

private theorem active_camera {made : Table Recorder.handle} {first second : UUID} {handle : Nat}
    (left : Active made first handle) (right : Active made second handle) : first = second := by
  obtain ⟨recorder, held, -, rfl, same⟩ := left
  obtain ⟨other, held', -, rfl, same'⟩ := right
  rw [Table.key_inj held held' (same.trans same'.symm)]

private theorem active_stop {made : Table Recorder.handle} {stopped handle : Nat} {cameraID : UUID} :
    Active (stop stopped made) cameraID handle ↔ Active made cameraID handle ∧ handle ≠ stopped := by
  constructor
  · rintro ⟨recorder, held, running, rfl, rfl⟩
    obtain ⟨old, present, rfl⟩ := Table.mem_modify.mp held
    split at running
    · cases running
    · rename_i other
      rw [if_neg other]
      exact ⟨⟨old, present, running, rfl, rfl⟩, by simpa using other⟩
  · rintro ⟨⟨recorder, held, running, rfl, rfl⟩, differs⟩
    refine ⟨recorder, Table.mem_modify.mpr ⟨recorder, held, ?_⟩, running, rfl, rfl⟩
    rw [if_neg (by simpa using differs)]

private theorem active_stopEach {map : RecorderMap} {made : Table Recorder.handle} {cameraID : UUID} {handle : Nat} :
    Active (stopEach map made) cameraID handle ↔ Active made cameraID handle ∧ handle ∉ map.rows.map Prod.snd := by
  rw [stopEach]
  induction map.rows generalizing made with
  | nil => simp
  | cons entry entries ih => rw [List.foldl_cons, ih, active_stop, List.map_cons, List.mem_cons, not_or, and_assoc]

private theorem active_make {engine : Engine} (cameraID : UUID) (kind : Kind) {other : UUID} {handle : Nat}
    (fresh : ∀ recorder ∈ engine.made, recorder.handle < engine.next) :
    Active (engine.make cameraID kind).made other handle ↔
      Active engine.made other handle ∨ other = cameraID ∧ handle = engine.next := by
  constructor
  · rintro ⟨recorder, held, running, rfl, rfl⟩
    rcases Table.mem_put.mp held with rfl | ⟨old, -⟩
    · exact .inr ⟨rfl, rfl⟩
    · exact .inl ⟨recorder, old, running, rfl, rfl⟩
  · rintro (⟨recorder, held, running, rfl, rfl⟩ | ⟨rfl, rfl⟩)
    · exact ⟨recorder, Table.mem_put.mpr (.inr ⟨held, (fresh recorder held).ne⟩), running, rfl, rfl⟩
    · exact ⟨_, Table.mem_put.mpr (.inl rfl), rfl, rfl, rfl⟩

section Holds
variable {map : RecorderMap} {engine : Engine} {chosen : UUID → Prop} {cameraID : UUID} {kind : Kind} {handle : Nat}

private theorem holds_add (fresh : ∀ recorder ∈ engine.made, recorder.handle < engine.next)
    (holds : Holds map engine.made chosen) (absent : map.find? cameraID = none) (own : chosen cameraID) :
    Holds (map.put (cameraID, engine.next)) (engine.make cameraID kind).made chosen := by
  intro other handle
  rw [Table.mem_put, holds, active_make cameraID kind fresh, Prod.mk.injEq]
  constructor
  · rintro (⟨rfl, rfl⟩ | ⟨⟨active, picked⟩, -⟩)
    · exact ⟨.inr ⟨rfl, rfl⟩, own⟩
    · exact ⟨.inl active, picked⟩
  · rintro ⟨active | added, picked⟩
    · refine .inr ⟨⟨active, picked⟩, ?_⟩
      exact Table.find?_eq_none.mp absent _ ((holds other handle).mpr ⟨active, picked⟩)
    · exact .inl added

private theorem holds_add_other (fresh : ∀ recorder ∈ engine.made, recorder.handle < engine.next)
    (holds : Holds map engine.made chosen) (foreign : ¬ chosen cameraID) :
    Holds map (engine.make cameraID kind).made chosen := by
  intro other handle
  rw [holds, active_make cameraID kind fresh]
  constructor
  · rintro ⟨active, picked⟩
    exact ⟨.inl active, picked⟩
  · rintro ⟨active | ⟨rfl, rfl⟩, picked⟩
    · exact ⟨active, picked⟩
    · exact absurd picked foreign

private theorem holds_remove (holds : Holds map engine.made chosen) (found : (cameraID, handle) ∈ map) :
    Holds (map.remove fun entry => entry.1 = cameraID) (stop handle engine.made) chosen := by
  intro other handle'
  have active := ((holds cameraID handle).mp found).1
  rw [Table.mem_remove, holds, active_stop, decide_eq_false_iff_not]
  constructor
  · rintro ⟨⟨active', picked⟩, differs⟩
    refine ⟨⟨active', ?_⟩, picked⟩
    rintro rfl
    exact differs (active_camera active' active)
  · rintro ⟨⟨active', differs⟩, picked⟩
    refine ⟨⟨active', picked⟩, ?_⟩
    rintro rfl
    have same := Table.key_inj ((holds other handle').mpr ⟨active', picked⟩) found rfl
    exact differs (Prod.mk.inj same).2

private theorem holds_stop_other (holds : Holds map engine.made chosen) (active : Active engine.made cameraID handle)
    (foreign : ¬ chosen cameraID) : Holds map (stop handle engine.made) chosen := by
  intro other handle'
  rw [holds, active_stop]
  constructor
  · rintro ⟨active', picked⟩
    refine ⟨⟨active', ?_⟩, picked⟩
    rintro rfl
    exact foreign (active_camera active' active ▸ picked)
  · rintro ⟨⟨active', -⟩, picked⟩
    exact ⟨active', picked⟩

end Holds

private theorem fresh_make {engine : Engine} {cameraID : UUID} {kind : Kind}
    (fresh : ∀ recorder ∈ engine.made, recorder.handle < engine.next) :
    ∀ recorder ∈ (engine.make cameraID kind).made, recorder.handle < engine.next + 1 := by
  intro recorder held
  rcases Table.mem_put.mp held with rfl | ⟨old, -⟩
  · exact Nat.lt_succ_self _
  · exact Nat.lt_succ_of_lt (fresh recorder old)

private theorem fresh_stop {made : Table Recorder.handle} {handle next : Nat}
    (fresh : ∀ recorder ∈ made, recorder.handle < next) : ∀ recorder ∈ stop handle made, recorder.handle < next := by
  intro recorder held
  obtain ⟨old, present, rfl⟩ := Table.mem_modify.mp held
  have bounded := fresh old present
  split <;> exact bounded

private theorem fresh_stopEach {map : RecorderMap} {made : Table Recorder.handle} {next : Nat}
    (fresh : ∀ recorder ∈ made, recorder.handle < next) : ∀ recorder ∈ stopEach map made, recorder.handle < next :=
  List.foldlRecOn map.rows _ (motive := fun made : Table Recorder.handle => ∀ recorder ∈ made, recorder.handle < next) fresh
    fun _ fresh _ _ => fresh_stop fresh

/-! ## Steps -/

section Step
variable {gortCameras : List String} {engine : Engine}

private theorem active_cases (tracked : Tracked gortCameras engine) {cameraID : UUID} {handle : Nat}
    (active : Active engine.made cameraID handle) :
    (cameraID, handle) ∈ engine.recorders ∨ (cameraID, handle) ∈ engine.gortRecorders := by
  by_cases gort : useGortRecorder gortCameras cameraID = true
  · exact .inr ((tracked.gortRecorders _ _).mpr ⟨active, gort⟩)
  · exact .inl ((tracked.recorders _ _).mpr ⟨active, gort⟩)

private theorem active_stopAll (tracked : Tracked gortCameras engine) (cameraID : UUID) (handle : Nat) :
    ¬ Active (stopAll engine).made cameraID handle := by
  intro active
  rw [stopAll, active_stopEach, active_stopEach] at active
  obtain ⟨⟨before, notFirst⟩, notSecond⟩ := active
  rcases active_cases tracked before with first | second
  · exact notFirst (List.mem_map_of_mem first)
  · exact notSecond (List.mem_map_of_mem second)

private theorem noneRunning_stopAll (tracked : Tracked gortCameras engine) : NoneRunning (stopAll engine) := by
  intro recorder held
  cases running : recorder.running with
  | false => rfl
  | true => exact absurd ⟨recorder, held, running, rfl, rfl⟩ (active_stopAll tracked recorder.cameraID recorder.handle)

/-- Starting keeps the maps right unless a Go recorder is there already. -/
private theorem tracked_start {env : Env} {cameraID : UUID} {settings : Option RecordingSettings} {after : Engine}
    (tracked : Tracked gortCameras engine) (allowed : Allowed gortCameras engine (.start cameraID settings env))
    (started : startRecording gortCameras env cameraID settings engine = .ok after) : Tracked gortCameras after := by
  revert started
  fun_cases startRecording gortCameras env cameraID settings engine with
  | case1 | case2 | case3 => nofun
  | case4 active dir gort gortDir =>
    intro started
    cases started
    have absent : engine.gortRecorders.find? cameraID = none := by
      by_contra present
      exact allowed gort (Option.isSome_iff_ne_none.mpr present) ⟨by simpa using dir, by simpa using gortDir⟩
    exact {
      fresh := fresh_make tracked.fresh
      recorders := holds_add_other tracked.fresh tracked.recorders (not_not_intro gort)
      gortRecorders := holds_add tracked.fresh tracked.gortRecorders absent gort }
  | case5 active dir ffmpeg =>
    intro started
    cases started
    exact {
      fresh := fresh_make tracked.fresh
      recorders := holds_add tracked.fresh tracked.recorders (by simpa using active) ffmpeg
      gortRecorders := holds_add_other tracked.fresh tracked.gortRecorders ffmpeg }

private theorem tracked_stop {cameraID : UUID} {after : Engine} (tracked : Tracked gortCameras engine)
    (stopped : stopRecording cameraID engine = some after) : Tracked gortCameras after := by
  revert stopped
  fun_cases stopRecording cameraID engine with
  | case1 key handle found =>
    intro stopped
    cases stopped
    obtain ⟨held, same⟩ := Table.find?_eq_some.mp found
    cases same
    obtain ⟨active, gort⟩ := (tracked.gortRecorders _ _).mp held
    exact {
      fresh := fresh_stop tracked.fresh
      recorders := holds_stop_other tracked.recorders active (not_not_intro gort)
      gortRecorders := holds_remove tracked.gortRecorders held }
  | case2 => nofun
  | case3 absent key handle found =>
    intro stopped
    cases stopped
    obtain ⟨held, same⟩ := Table.find?_eq_some.mp found
    cases same
    obtain ⟨active, ffmpeg⟩ := (tracked.recorders _ _).mp held
    exact {
      fresh := fresh_stop tracked.fresh
      recorders := holds_remove tracked.recorders held
      gortRecorders := holds_stop_other tracked.gortRecorders active ffmpeg }

private theorem tracked_stopAll (tracked : Tracked gortCameras engine) : Tracked gortCameras (stopAll engine) where
  fresh := fresh_stopEach (fresh_stopEach tracked.fresh)
  recorders := fun cameraID handle =>
    ⟨fun held => absurd held List.not_mem_nil, fun active => absurd active.1 (active_stopAll tracked cameraID handle)⟩
  gortRecorders := fun cameraID handle =>
    ⟨fun held => absurd held List.not_mem_nil, fun active => absurd active.1 (active_stopAll tracked cameraID handle)⟩

theorem tracked_step (tracked : Tracked gortCameras engine) (move : Move) (allowed : Allowed gortCameras engine move) :
    Tracked gortCameras (step gortCameras engine move) := by
  cases move with
  | start cameraID settings env =>
    rw [step]
    cases started : startRecording gortCameras env cameraID settings engine with
    | ok after => exact tracked_start tracked allowed started
    | error err => exact tracked
  | stop cameraID =>
    rw [step]
    cases stopped : stopRecording cameraID engine with
    | none => exact tracked
    | some after => exact tracked_stop tracked stopped
  | stopAll => exact tracked_stopAll tracked

private theorem active_unique (tracked : Tracked gortCameras engine) {cameraID : UUID} {first second : Nat}
    (left : Active engine.made cameraID first) (right : Active engine.made cameraID second) : first = second := by
  by_cases gort : useGortRecorder gortCameras cameraID = true
  · have same := Table.key_inj ((tracked.gortRecorders _ _).mpr ⟨left, gort⟩)
      ((tracked.gortRecorders _ _).mpr ⟨right, gort⟩) rfl
    exact (Prod.mk.inj same).2
  · have same := Table.key_inj ((tracked.recorders _ _).mpr ⟨left, gort⟩) ((tracked.recorders _ _).mpr ⟨right, gort⟩) rfl
    exact (Prod.mk.inj same).2

/-- The entries of both maps are the running recorders, each once. -/
private theorem entries_perm (tracked : Tracked gortCameras engine) :
    (engine.recorders.rows ++ engine.gortRecorders.rows).Perm
      ((engine.made.rows.filter Recorder.running).map fun recorder => (recorder.cameraID, recorder.handle)) := by
  have left : (engine.recorders.rows ++ engine.gortRecorders.rows).Nodup := by
    refine List.Nodup.append (List.Nodup.of_map _ engine.recorders.distinct)
      (List.Nodup.of_map _ engine.gortRecorders.distinct) ?_
    rintro ⟨cameraID, handle⟩ ffmpeg gort
    exact ((tracked.recorders _ _).mp ffmpeg).2 ((tracked.gortRecorders _ _).mp gort).2
  have right : ((engine.made.rows.filter Recorder.running).map fun recorder =>
      (recorder.cameraID, recorder.handle)).Nodup := by
    apply List.Nodup.of_map Prod.snd
    rw [List.map_map]
    exact engine.made.distinct.sublist (List.filter_sublist.map Recorder.handle)
  rw [List.perm_ext_iff_of_nodup left right]
  rintro ⟨cameraID, handle⟩
  rw [List.mem_append, List.mem_map]
  constructor
  · intro held
    have active : Active engine.made cameraID handle := by
      rcases held with ffmpeg | gort
      · exact ((tracked.recorders _ _).mp ffmpeg).1
      · exact ((tracked.gortRecorders _ _).mp gort).1
    obtain ⟨recorder, present, running, rfl, rfl⟩ := active
    exact ⟨recorder, List.mem_filter.mpr ⟨present, running⟩, rfl⟩
  · rintro ⟨recorder, kept, same⟩
    cases same
    obtain ⟨present, running⟩ := List.mem_filter.mp kept
    exact active_cases tracked ⟨recorder, present, running, rfl, rfl⟩

theorem sound_of_tracked (tracked : Tracked gortCameras engine) : Sound engine where
  single := fun first held second held' running running' same => by
    refine Table.key_inj held held' (active_unique tracked ⟨first, held, running, rfl, rfl⟩ ?_)
    exact ⟨second, held', running', same.symm, rfl⟩
  held := fun recorder held running => active_cases tracked ⟨recorder, held, running, rfl, rfl⟩
  counted := by
    have count := (entries_perm tracked).length_eq
    rw [List.length_append, List.length_map, ← List.countP_eq_length_filter] at count
    exact count

/-- A second Go recorder is started beside the first. -/
private theorem not_sound_of_restart {move : Move} (tracked : Tracked gortCameras engine)
    (forbidden : ¬ Allowed gortCameras engine move) : ¬ Sound (step gortCameras engine move) := by
  cases move with
  | stop cameraID => exact absurd trivial forbidden
  | stopAll => exact absurd trivial forbidden
  | start cameraID settings env =>
    simp only [Allowed, Classical.not_imp, not_not] at forbidden
    obtain ⟨gort, present, dir, gortDir⟩ := forbidden
    obtain ⟨⟨camera, handle⟩, found⟩ := Option.isSome_iff_exists.mp present
    obtain ⟨held, same⟩ := Table.find?_eq_some.mp found
    cases same
    have before := ((tracked.gortRecorders _ _).mp held).1
    have absent : engine.recorders.find? camera = none := by
      rw [Table.find?_eq_none]
      rintro ⟨other, handle'⟩ ffmpeg rfl
      exact ((tracked.recorders _ _).mp ffmpeg).2 gort
    have started : step gortCameras engine (.start camera settings env) =
        { engine.make camera .gort with gortRecorders := engine.gortRecorders.put (camera, engine.next) } := by
      simp [step, startRecording, absent, dir, gort, gortDir]
    rw [started]
    intro sound
    obtain ⟨old, kept, running, sameCamera, sameHandle⟩ := (active_make camera .gort tracked.fresh).mpr (.inl before)
    obtain ⟨new, made, running', sameCamera', sameHandle'⟩ :=
      (active_make camera .gort tracked.fresh).mpr (.inr ⟨rfl, rfl⟩)
    have one := sound.single old kept new made running running' (sameCamera.trans sameCamera'.symm)
    obtain ⟨recorder, known, -, -, sameHandle''⟩ := before
    have earlier := tracked.fresh recorder known
    rw [sameHandle'', ← sameHandle, one, sameHandle'] at earlier
    exact Nat.lt_irrefl _ earlier

end Step

/-- The maps and the running recorders agree in every state of a run just when no start
gets through for a camera that has a Go recorder; then nothing runs after `StopAll`. -/
theorem one_recorder_iff (gortCameras : List String) (moves : List Move) :
    (Throughout (step gortCameras) Sound {} moves ∧ ∀ earlier later, moves = earlier ++ .stopAll :: later →
      NoneRunning (exec (step gortCameras) {} (earlier ++ [.stopAll]))) ↔
    Along (step gortCameras) (Allowed gortCameras) {} moves := by
  have start : Tracked gortCameras {} := ⟨fun _ held => absurd held List.not_mem_nil,
    fun _ _ => ⟨fun held => absurd held List.not_mem_nil, fun ⟨⟨_, held, _⟩, _⟩ => absurd held List.not_mem_nil⟩,
    fun _ _ => ⟨fun held => absurd held List.not_mem_nil, fun ⟨⟨_, held, _⟩, _⟩ => absurd held List.not_mem_nil⟩⟩
  have whole : Throughout (step gortCameras) Sound {} moves ↔ Along (step gortCameras) (Allowed gortCameras) {} moves := by
    refine @throughout_iff_along_of _ _ _ (Tracked gortCameras) _ (fun _ _ => True) _
      (fun engine move tracked _ _ allowed => tracked_step tracked move allowed)
      (fun engine move tracked _ _ => ⟨fun sound => ?_, fun allowed => sound_of_tracked (tracked_step tracked move allowed)⟩)
      moves {} start (sound_of_tracked start) (along_trivial _ _)
    by_contra forbidden
    exact not_sound_of_restart tracked forbidden sound
  constructor
  · rintro ⟨sound, -⟩
    exact whole.mp sound
  · intro allowed
    refine ⟨whole.mpr allowed, ?_⟩
    rintro earlier later rfl
    have tracked : Throughout (step gortCameras) (Tracked gortCameras) {} (earlier ++ .stopAll :: later) :=
      throughout_of_invariant (fun _ move tracked => tracked_step tracked move) _ _ start allowed
    rw [exec_append, exec_cons, exec_nil]
    exact noneRunning_stopAll (throughout_at earlier tracked)

private def cellularCamera : UUID := ⟨0x9ca4bcfd4f1e4c6f8a3d2b1c0e5f7a90⟩

private def startTwice : Engine :=
  exec (step ["9ca4bcfd"]) {} [.start cellularCamera none {}, .start cellularCamera none {}]

/-- Two recorders run for one camera, one of them counted; `StopAll` leaves the other. -/
theorem second_start_leaks_recorder :
    startTwice.made.rows.map (fun recorder => (recorder.cameraID, recorder.running)) =
      [(cellularCamera, true), (cellularCamera, true)] ∧
    activeCount startTwice = 1 ∧
    (stopAll startTwice).made.rows.map Recorder.running = [true, false] := by
  refine ⟨?_, ?_, ?_⟩ <;> decide +kernel

end Ironsight.RecordingEngine
