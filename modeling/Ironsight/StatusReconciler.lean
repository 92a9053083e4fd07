import Mathlib.Data.List.Infix
import Mathlib.Logic.Function.Basic
import Ironsight.Runs
import Ironsight.Tables
import Ironsight.Uuid

/-! The goroutine that keeps camera statuses in step with the media server. Each
cycle reads the server's list of paths and the live cameras; a counter of misses is
carried from cycle to cycle, and a status is written only where the row does not
show it already. -/
namespace Ironsight.StatusReconciler
open Tables Runs Uuid

/-- `reconcilerMissThreshold`. -/
def reconcilerMissThreshold : Int := 2

/-- `pathsListItem`; the counter runs since the path was created. -/
structure PathsListItem where
  name : String
  ready : Bool
  bytesReceived : Int
  deriving DecidableEq

/-- The server's answer; `decoded` is what the JSON decoder makes of the body. -/
structure Response where
  statusCode : Nat
  body : String := ""
  decoded : Except String (List PathsListItem)

/-- The condition under which `FetchPathsReady` takes a path into its map. -/
def PathsListItem.healthy (it : PathsListItem) : Bool := it.ready || 0 < it.bytesReceived

/-- `FetchPathsReady`: the keys of the map it returns. -/
def fetchPathsReady (mediaMTXAPIAddr : String) (http : Except String Response) : Except String (List String) :=
  if mediaMTXAPIAddr = "" then .error "mediamtx API address not configured"
  else match http with
    | .error err => .error err
    | .ok resp =>
      if resp.statusCode < 200 ∨ 300 ≤ resp.statusCode then
        .error ("mediamtx /v3/paths/list returned " ++ toString resp.statusCode ++ ": " ++ resp.body)
      else match resp.decoded with
        | .error err => .error ("mediamtx /v3/paths/list decode: " ++ err)
        | .ok items => .ok ((items.filter PathsListItem.healthy).map PathsListItem.name)

/-- A row of `cameras`: the columns that the reconciler reads and writes. -/
structure Camera where
  id : UUID
  name : String
  status : String
  lastStreamError : Option String := none
  deleted : Bool := false
  deriving DecidableEq

abbrev Cameras := Table Camera.id

/-- The rows, and the counters in the memory of the goroutine. -/
structure State where
  cameras : Cameras
  miss : UUID → Int

/-- The reconciler as it starts. -/
def State.start (cameras : Cameras) : State := ⟨cameras, fun _ => 0⟩

/-- What one cycle meets outside: the configured address, the server's answer, and
which of its statements fail. -/
structure Cycle where
  mediaMTXAPIAddr : String
  http : Except String Response
  listError : Option String := none
  writeError : UUID → Option String := fun _ => none

/-- `ListCameras`, which reads `cameras_active`. -/
def listCameras (cameras : Cameras) : List Camera :=
  (cameras.rows.filter fun camera => !camera.deleted).insertionSort fun first second => first.name ≤ second.name

/-- `ClearCameraStreamError`. -/
def clearCameraStreamError (cameras : Cameras) (id : UUID) : Cameras :=
  cameras.modify (fun camera => camera.id = id)
    (fun camera => { camera with status := "online", lastStreamError := none }) fun _ => rfl

/-- `UpdateCameraStreamError`; an empty text is stored as `NULL`. -/
def updateCameraStreamError (cameras : Cameras) (id : UUID) (streamErr : String) : Cameras :=
  cameras.modify (fun camera => camera.id = id)
    (fun camera => { camera with
      status := "offline", lastStreamError := if streamErr = "" then none else some streamErr }) fun _ => rfl

/-- `n++` on a 64-bit `int`. -/
def increment (n : Int) : Int := if n = 2 ^ 63 - 1 then -2 ^ 63 else n + 1

/-- The body of the loop over the listed cameras; a failed write is only logged. -/
def visit (env : Cycle) (ready : List String) (state : State) (cam : Camera) : State :=
  if cam.id.text ∈ ready then
    { miss := Function.update state.miss cam.id 0
      cameras :=
        if cam.status ≠ "online" ∧ env.writeError cam.id = none then clearCameraStreamError state.cameras cam.id
        else state.cameras }
  else
    { miss := Function.update state.miss cam.id (increment (state.miss cam.id))
      cameras :=
        if reconcilerMissThreshold ≤ increment (state.miss cam.id) ∧ cam.status ≠ "offline" ∧
            env.writeError cam.id = none then
          updateCameraStreamError state.cameras cam.id "no active stream (reconciler)"
        else state.cameras }

/-- `reconcileOnce`. -/
def reconcileOnce (state : State) (env : Cycle) : State :=
  match fetchPathsReady env.mediaMTXAPIAddr env.http with
  | .error _ => state
  | .ok ready =>
    match env.listError with
    | some _ => state
    | none => (listCameras state.cameras).foldl (visit env ready) state

/-- A tick of the loop, or a camera coming or going. -/
inductive Move where
  | cycle (env : Cycle)
  | create (camera : Camera)
  | delete (id : UUID)
  | restore (id : UUID)

/-- A cycle of the reconciler, or a change of the cameras between two. -/
def step (state : State) : Move → State
  | .cycle env => reconcileOnce state env
  | .create camera => { state with cameras := (state.cameras.insert? camera).getD state.cameras }
  | .delete id => { state with
      cameras := state.cameras.modify (fun camera => camera.id = id) (fun camera => { camera with deleted := true })
        fun _ => rfl }
  | .restore id => { state with
      cameras := state.cameras.modify (fun camera => camera.id = id) (fun camera => { camera with deleted := false })
        fun _ => rfl }

/-! ## Readings -/

/-- The healthy paths of a cycle that no failure skips. -/
def Cycle.paths (env : Cycle) : Option (List String) :=
  match fetchPathsReady env.mediaMTXAPIAddr env.http, env.listError with
  | .ok ready, none => some ready
  | _, _ => none

/-- The live row of a camera. -/
def listed (cameras : Cameras) (id : UUID) : Option Camera :=
  (cameras.find? id).filter fun camera => !camera.deleted

/-- Whether a step is an effective cycle of the camera, and whether its path was
ready in it. -/
def reading (state : State) (id : UUID) : Move → Option Bool
  | .cycle env => do
    let ready ← env.paths
    let _ ← listed state.cameras id
    return decide (id.text ∈ ready)
  | .create _ | .delete _ | .restore _ => none

/-- The readings of a run, oldest first. -/
def readings (id : UUID) : State → List Move → List Bool
  | _, [] => []
  | state, move :: rest => (reading state id move).toList ++ readings id (step state move) rest

/-- The status that the readings of a camera call for, given the one before. -/
structure Lawful (readings : List Bool) (before after : String) : Prop where
  online : readings.getLast? = some true → after = "online"
  offline : [false, false] <:+ readings → after = "offline"
  unchanged : readings.getLast? ≠ some true → ¬ [false, false] <:+ readings → after = before

/-- The writes of a step succeed. -/
def Move.WritesSucceed : Move → Prop
  | .cycle env => ∀ id, env.writeError id = none
  | .create _ | .delete _ | .restore _ => True

/-! ## One cycle -/

private theorem find_clear {cameras : Cameras} {target id : UUID} :
    (clearCameraStreamError cameras target).find? id = (cameras.find? id).map fun camera =>
      if camera.id = target then { camera with status := "online", lastStreamError := none } else camera := by
  simp [clearCameraStreamError, Table.find?_modify]

private theorem find_update {cameras : Cameras} {target id : UUID} {streamErr : String} :
    (updateCameraStreamError cameras target streamErr).find? id = (cameras.find? id).map fun camera =>
      if camera.id = target then
        { camera with status := "offline", lastStreamError := if streamErr = "" then none else some streamErr }
      else camera := by
  simp [updateCameraStreamError, Table.find?_modify]

/-- An update of another row. -/
private theorem map_other {cameras : Cameras} {target id : UUID} (other : target ≠ id) (change : Camera → Camera) :
    ((cameras.find? id).map fun camera => if camera.id = target then change camera else camera) =
      cameras.find? id := by
  cases found : cameras.find? id with
  | none => rfl
  | some camera =>
    have named := (Table.find?_eq_some.mp found).2
    rw [Option.map_some, if_neg (by rw [named]; exact other.symm)]

private theorem visit_other {env : Cycle} {ready : List String} {state : State} {cam : Camera} {id : UUID}
    (other : cam.id ≠ id) : (visit env ready state cam).miss id = state.miss id ∧
      (visit env ready state cam).cameras.find? id = state.cameras.find? id := by
  unfold visit
  split
  · refine ⟨Function.update_of_ne other.symm _ _, ?_⟩
    dsimp only
    split
    · rw [find_clear, map_other other]
    · rfl
  · refine ⟨Function.update_of_ne other.symm _ _, ?_⟩
    dsimp only
    split
    · rw [find_update, map_other other]
    · rfl

private theorem visits_other {env : Cycle} {ready : List String} {id : UUID} : ∀ {cams : List Camera} {state : State},
    (∀ cam ∈ cams, cam.id ≠ id) → (cams.foldl (visit env ready) state).miss id = state.miss id ∧
      (cams.foldl (visit env ready) state).cameras.find? id = state.cameras.find? id
  | [], _, _ => ⟨rfl, rfl⟩
  | cam :: rest, state, others => by
    obtain ⟨counted, found⟩ := @visit_other env ready state cam id (others cam List.mem_cons_self)
    obtain ⟨later, after⟩ := @visits_other env ready id rest (visit env ready state cam)
      fun other member => others other (List.mem_cons_of_mem _ member)
    exact ⟨later.trans counted, after.trans found⟩

/-- The counter after a reading. -/
def counted (ready : Bool) (miss : Int) : Int := if ready then 0 else increment miss

/-- The status after a reading, the counter already advanced. -/
def settled (ready : Bool) (miss : Int) (status : String) : String :=
  if ready then "online" else if reconcilerMissThreshold ≤ miss then "offline" else status

private theorem visit_self {env : Cycle} {ready : List String} {state : State} {cam : Camera}
    (written : env.writeError cam.id = none) (held : state.cameras.find? cam.id = some cam) :
    (visit env ready state cam).miss cam.id = counted (decide (cam.id.text ∈ ready)) (state.miss cam.id) ∧
      ∃ row, (visit env ready state cam).cameras.find? cam.id = some row ∧
        row.status = settled (decide (cam.id.text ∈ ready))
          (counted (decide (cam.id.text ∈ ready)) (state.miss cam.id)) cam.status := by
  unfold visit
  by_cases healthy : cam.id.text ∈ ready
  · simp only [healthy, if_true, counted, settled, decide_true, Function.update_self, true_and, written, and_true]
    by_cases shown : cam.status = "online"
    · exact ⟨cam, by simpa [shown] using held, shown⟩
    · exact ⟨_, by rw [if_pos shown, find_clear, held, Option.map_some, if_pos rfl], rfl⟩
  · simp only [healthy, if_false, counted, settled, decide_false, Function.update_self, true_and, written, and_true,
      Bool.false_eq_true]
    by_cases due : reconcilerMissThreshold ≤ increment (state.miss cam.id)
    · by_cases shown : cam.status = "offline"
      · exact ⟨cam, by simpa [shown] using held, by simp [due, shown]⟩
      · exact ⟨_, by rw [if_pos ⟨due, shown⟩, find_update, held, Option.map_some, if_pos rfl], by simp [due]⟩
    · exact ⟨cam, by simpa [due] using held, by simp [due]⟩

private theorem mem_listCameras {cameras : Cameras} {cam : Camera} :
    cam ∈ listCameras cameras ↔ listed cameras cam.id = some cam := by
  simp only [listCameras, List.mem_insertionSort, List.mem_filter, Bool.not_eq_true', listed, Option.filter_eq_some_iff,
    Table.find?_eq_some, Table.mem_def, and_true]

private theorem listed_nodup (cameras : Cameras) : ((listCameras cameras).map Camera.id).Nodup := by
  have sorted := List.perm_insertionSort (fun first second : Camera => first.name ≤ second.name)
    (cameras.rows.filter fun camera => !camera.deleted)
  exact ((sorted.map Camera.id).nodup_iff).mpr (cameras.distinct.sublist (List.filter_sublist.map Camera.id))

private theorem reconcileOnce_eq (state : State) (env : Cycle) : reconcileOnce state env =
    match env.paths with
    | none => state
    | some ready => (listCameras state.cameras).foldl (visit env ready) state := by
  unfold reconcileOnce Cycle.paths
  cases fetchPathsReady env.mediaMTXAPIAddr env.http with
  | error _ => rfl
  | ok ready => cases env.listError <;> rfl

/-- A cycle that a failure skips. -/
theorem reconcileOnce_skipped {state : State} {env : Cycle} (failed : env.paths = none) :
    reconcileOnce state env = state := by
  rw [reconcileOnce_eq, failed]

/-- What a step is for a camera that it does not read. -/
theorem reconcileOnce_unread {state : State} {env : Cycle} {id : UUID} (unread : reading state id (.cycle env) = none) :
    (reconcileOnce state env).miss id = state.miss id ∧
      (reconcileOnce state env).cameras.find? id = state.cameras.find? id := by
  rw [reconcileOnce_eq]
  cases ran : env.paths with
  | none => exact ⟨rfl, rfl⟩
  | some ready =>
    apply visits_other
    intro cam member same
    subst same
    simp [reading, ran, mem_listCameras.mp member] at unread

/-- What an effective cycle does to a camera. -/
theorem reconcileOnce_read {state : State} {env : Cycle} {id : UUID} {ready : Bool}
    (read : reading state id (.cycle env) = some ready) (written : env.writeError id = none) :
    (reconcileOnce state env).miss id = counted ready (state.miss id) ∧
      ∃ old row, state.cameras.find? id = some old ∧ (reconcileOnce state env).cameras.find? id = some row ∧
        row.status = settled ready (counted ready (state.miss id)) old.status := by
  simp only [reading, Option.bind_eq_bind, Option.bind_eq_some_iff, Option.pure_def, Option.some.injEq] at read
  obtain ⟨names, ran, cam, live, rfl⟩ := read
  rw [reconcileOnce_eq, ran]
  obtain ⟨held, _⟩ := Option.filter_eq_some_iff.mp live
  obtain ⟨_, rfl⟩ := Table.find?_eq_some.mp held
  obtain ⟨before, after, split_⟩ := List.append_of_mem (mem_listCameras.mpr live)
  have distinct := listed_nodup state.cameras
  rw [split_] at distinct ⊢
  simp only [List.map_append, List.map_cons, List.nodup_append, List.nodup_cons, List.mem_map, List.mem_cons] at distinct
  obtain ⟨_, ⟨later, _⟩, apart⟩ := distinct
  dsimp only
  rw [List.foldl_append, List.foldl_cons]
  obtain ⟨missEarlier, heldEarlier⟩ := @visits_other env names cam.id before state
    fun other member same => apart other.id ⟨other, member, rfl⟩ cam.id (.inl rfl) same
  obtain ⟨missNow, row, heldNow, status⟩ := @visit_self env names _ cam written (heldEarlier.trans held)
  obtain ⟨missLater, heldLater⟩ := @visits_other env names cam.id after
    (visit env names (before.foldl (visit env names) state) cam)
    fun other member same => later ⟨other, member, same⟩
  rw [missEarlier] at missNow status
  exact ⟨missLater.trans missNow, cam, row, held, heldLater.trans heldNow, status⟩

/-! ## Runs -/

theorem readings_snoc {id : UUID} {move : Move} : ∀ {moves : List Move} {start : State},
    readings id start (moves ++ [move]) =
      readings id start moves ++ (reading (exec step start moves) id move).toList
  | [], start => by simp [readings]
  | first :: rest, start => by
    simp only [List.cons_append, readings, exec_cons, readings_snoc, List.append_assoc]

/-- What the counter and the row of a camera keep of its readings. The counter
stays below the threshold until the row says offline; how far it has gone by then,
or whether it has wrapped around, no longer matters. -/
structure Tracked (state : State) (id : UUID) (readings : List Bool) : Prop where
  unknown : state.cameras.find? id = none → readings = []
  clear : readings.getLast? ≠ some false → state.miss id = 0
  single : readings.getLast? = some false → ¬ [false, false] <:+ readings → state.miss id = 1
  online : readings.getLast? = some true → ∀ row, state.cameras.find? id = some row → row.status = "online"
  offline : [false, false] <:+ readings → ∀ row, state.cameras.find? id = some row → row.status = "offline"

private theorem two_misses {before : List Bool} {ready : Bool} :
    [false, false] <:+ before ++ [ready] ↔ ready = false ∧ before.getLast? = some false := by
  rw [List.suffix_concat_iff, ← List.singleton_suffix_iff_getLast?_eq_some]
  constructor
  · rintro (empty | ⟨one, same, ends⟩)
    · cases empty
    · obtain ⟨rfl, last⟩ := @List.append_inj' _ [false] [false] one [ready] same rfl
      cases last
      exact ⟨rfl, ends⟩
  · rintro ⟨rfl, ends⟩
    exact .inr ⟨[false], rfl, ends⟩

private theorem tracked_start (cameras : Cameras) (id : UUID) : Tracked (.start cameras) id [] where
  unknown _ := rfl
  clear _ := rfl
  single last := by cases last
  online last := by cases last
  offline two := by simp at two

/-- A step that leaves the counter and the status of a camera alone. -/
private theorem Tracked.kept {state after : State} {id : UUID} {readings : List Bool} (tracked : Tracked state id readings)
    (same : after.miss id = state.miss id)
    (rows : ∀ row, after.cameras.find? id = some row →
      state.cameras.find? id = none ∨ ∃ old, state.cameras.find? id = some old ∧ row.status = old.status)
    (gone : after.cameras.find? id = none → state.cameras.find? id = none) : Tracked after id readings where
  unknown absent := tracked.unknown (gone absent)
  clear last := same.trans (tracked.clear last)
  single last one := same.trans (tracked.single last one)
  online last row held := by
    rcases rows row held with absent | ⟨old, found, status⟩
    · rw [tracked.unknown absent] at last
      cases last
    · exact status.trans (tracked.online last old found)
  offline two row held := by
    rcases rows row held with absent | ⟨old, found, status⟩
    · rw [tracked.unknown absent] at two
      simp at two
    · exact status.trans (tracked.offline two old found)

/-- The status after an effective cycle is the one the readings call for. -/
private theorem settled_lawful {state : State} {id : UUID} {before : List Bool} {old : Camera} (ready : Bool)
    (tracked : Tracked state id before) (held : state.cameras.find? id = some old) :
    Lawful (before ++ [ready]) old.status (settled ready (counted ready (state.miss id)) old.status) where
  online last := by
    have now : ready = true := by simpa using last
    simp [settled, now]
  offline two := by
    obtain ⟨rfl, last⟩ := two_misses.mp two
    by_cases already : [false, false] <:+ before
    · simp [settled, tracked.offline already old held]
    · simp [settled, counted, tracked.single last already, increment, reconcilerMissThreshold]
  unchanged last single := by
    have now : ready = false := by simpa using last
    subst now
    have first : before.getLast? ≠ some false := fun missed => single (two_misses.mpr ⟨rfl, missed⟩)
    simp [settled, counted, tracked.clear first, increment, reconcilerMissThreshold]

private theorem Tracked.read {state after : State} {id : UUID} {before : List Bool} {ready : Bool} {old row : Camera}
    (tracked : Tracked state id before) (held : state.cameras.find? id = some old)
    (miss : after.miss id = counted ready (state.miss id)) (found : after.cameras.find? id = some row)
    (status : row.status = settled ready (counted ready (state.miss id)) old.status) :
    Tracked after id (before ++ [ready]) := by
  have lawful := settled_lawful ready tracked held
  rw [← status] at lawful
  have only {other : Camera} (same : after.cameras.find? id = some other) : other = row :=
    Option.some.inj (same.symm.trans found)
  constructor
  case unknown =>
    intro absent
    rw [found] at absent
    cases absent
  case clear =>
    intro last
    have now : ready = true := by simpa using last
    simp [miss, counted, now]
  case single =>
    intro last single
    have now : ready = false := by simpa using last
    subst now
    have first : before.getLast? ≠ some false := fun missed => single (two_misses.mpr ⟨rfl, missed⟩)
    simp [miss, counted, tracked.clear first, increment]
  case online =>
    intro last other same
    rw [only same]
    exact lawful.online last
  case offline =>
    intro two other same
    rw [only same]
    exact lawful.offline two

private theorem tracked_step {state : State} {id : UUID} {before : List Bool} {move : Move}
    (tracked : Tracked state id before) (written : move.WritesSucceed) :
    Tracked (step state move) id (before ++ (reading state id move).toList) := by
  cases move with
  | cycle env =>
    cases read : reading state id (.cycle env) with
    | none =>
      obtain ⟨miss, same⟩ := reconcileOnce_unread read
      rw [Option.toList_none, List.append_nil]
      exact tracked.kept miss (fun row held => .inr ⟨row, same.symm.trans held, rfl⟩) fun absent => same.symm.trans absent
    | some ready =>
      obtain ⟨miss, old, row, held, found, status⟩ := reconcileOnce_read read (written id)
      exact tracked.read held miss found status
  | create camera =>
    rw [reading, Option.toList_none, List.append_nil]
    cases done : state.cameras.insert? camera with
    | none => simpa [step, done] using tracked
    | some after =>
      have placed := Table.find?_insert? (k := id) done
      simp only [step, done, Option.getD_some]
      refine tracked.kept rfl (fun row held => ?_) fun absent => ?_
      · by_cases here : camera.id = id
        · subst here
          exact .inl (Table.find?_eq_none.mpr (Table.insert?_fresh done))
        · rw [placed, if_neg here] at held
          exact .inr ⟨row, held, rfl⟩
      · rw [placed] at absent
        split at absent
        · cases absent
        · exact absent
  | delete target | restore target =>
    rw [reading, Option.toList_none, List.append_nil]
    simp only [step]
    refine tracked.kept rfl (fun row held => ?_) fun absent => ?_
    · rw [Table.find?_modify] at held
      obtain ⟨old, found, rfl⟩ := Option.map_eq_some_iff.mp held
      refine .inr ⟨old, found, ?_⟩
      split <;> rfl
    · rw [Table.find?_modify] at absent
      exact Option.map_eq_none_iff.mp absent

/-- Every run of cycles whose writes succeed, cameras coming and going in between. -/
theorem tracked_exec (cameras : Cameras) (id : UUID) (moves : List Move)
    (written : ∀ move ∈ moves, move.WritesSucceed) :
    Tracked (exec step (.start cameras) moves) id (readings id (.start cameras) moves) := by
  induction moves using List.reverseRecOn with
  | nil => exact tracked_start cameras id
  | append_singleton moves move ih =>
    have earlier := ih fun other member => written other (List.mem_append_left _ member)
    rw [exec_append, exec_cons, exec_nil, readings_snoc]
    exact tracked_step earlier (written move (by simp))

/-- After every cycle each live camera shows the status that its readings call for;
a cycle that the media server or the camera list fails changes nothing and is no
reading. -/
theorem reconciliation_law (cameras : Cameras) (moves : List Move) (env : Cycle)
    (written : ∀ move ∈ moves ++ [.cycle env], move.WritesSucceed) :
    (env.paths = none → step (exec step (.start cameras) moves) (.cycle env) = exec step (.start cameras) moves ∧
      ∀ id, readings id (.start cameras) (moves ++ [.cycle env]) = readings id (.start cameras) moves) ∧
    ∀ row ∈ listCameras (exec step (.start cameras) (moves ++ [.cycle env])).cameras,
      ∃ old ∈ (exec step (.start cameras) moves).cameras, old.id = row.id ∧
        Lawful (readings row.id (.start cameras) (moves ++ [.cycle env])) old.status row.status := by
  constructor
  · intro failed
    refine ⟨reconcileOnce_skipped failed, fun id => ?_⟩
    simp [readings_snoc, reading, failed]
  · intro row live
    have tracked := tracked_exec cameras row.id moves fun move member => written move (List.mem_append_left _ member)
    have after := tracked_exec cameras row.id (moves ++ [.cycle env]) written
    obtain ⟨held, _⟩ := Option.filter_eq_some_iff.mp (mem_listCameras.mp live)
    rw [exec_append, exec_cons, exec_nil] at held after
    rw [readings_snoc] at after ⊢
    cases read : reading (exec step (.start cameras) moves) row.id (.cycle env) with
    | none =>
      have found := (reconcileOnce_unread read).2.symm.trans held
      rw [read, Option.toList_none, List.append_nil] at after
      obtain ⟨member, named⟩ := Table.find?_eq_some.mp found
      refine ⟨row, member, named, ?_⟩
      rw [Option.toList_none, List.append_nil]
      exact ⟨fun last => after.online last row held, fun two => after.offline two row held, fun _ _ => rfl⟩
    | some ready =>
      obtain ⟨_, old, other, found, now, status⟩ := reconcileOnce_read read (written (.cycle env) (by simp) row.id)
      obtain ⟨member, named⟩ := Table.find?_eq_some.mp found
      refine ⟨old, member, named, ?_⟩
      cases Option.some.inj (held.symm.trans now)
      rw [status]
      exact settled_lawful ready tracked found

private def gate : Camera := ⟨⟨1⟩, "Gate", "online", none, false⟩

private def gateOnly : Cameras := ⟨[gate], by decide⟩

/-- A cycle in which the server lists these paths. -/
private def listing (items : List PathsListItem) : Cycle :=
  { mediaMTXAPIAddr := "mediamtx:9997", http := .ok { statusCode := 200, decoded := .ok items } }

/-- The server does not list the camera, twice. -/
theorem reconciliation_law_two_misses :
    (∀ move ∈ [Move.cycle (listing [])] ++ [Move.cycle (listing [])], move.WritesSucceed) ∧
    ∀ row ∈ listCameras (exec step (.start gateOnly) ([Move.cycle (listing [])] ++ [Move.cycle (listing [])])).cameras,
      ∃ old ∈ (exec step (.start gateOnly) [Move.cycle (listing [])]).cameras, old.id = row.id ∧
        Lawful (readings row.id (.start gateOnly) ([Move.cycle (listing [])] ++ [Move.cycle (listing [])]))
          old.status row.status := by
  have written : ∀ move ∈ [Move.cycle (listing [])] ++ [Move.cycle (listing [])], move.WritesSucceed := by
    simp [Move.WritesSucceed, listing]
  exact ⟨written, (reconciliation_law gateOnly [.cycle (listing [])] (listing []) written).2⟩

/-! ## Streams that have died -/

/-- The cycle goes through, and the server lists the camera's path once, as this item. -/
structure Shows (env : Cycle) (id : UUID) (it : PathsListItem) : Prop where
  configured : env.mediaMTXAPIAddr ≠ ""
  camerasListed : env.listError = none
  answered : ∃ resp items, env.http = .ok resp ∧ 200 ≤ resp.statusCode ∧ resp.statusCode < 300 ∧
    resp.decoded = .ok items ∧ items.filter (fun other => other.name = id.text) = [it]

/-- Two consecutive polls find the path of a live camera not ready and its counter
where it was. -/
structure Stalled (state : State) (id : UUID) (first second : Cycle) (earlier later : PathsListItem) : Prop where
  live : (listed state.cameras id).isSome
  before : Shows first id earlier
  after : Shows second id later
  notReady : earlier.ready = false ∧ later.ready = false
  notGrown : later.bytesReceived ≤ earlier.bytesReceived

theorem Shows.paths {env : Cycle} {id : UUID} {it : PathsListItem} (shows_ : Shows env id it) :
    ∃ ready, env.paths = some ready ∧ (id.text ∈ ready ↔ it.healthy = true) := by
  obtain ⟨configured, camerasListed, resp, items, answered, least, most, decoded, only⟩ := shows_
  refine ⟨(items.filter PathsListItem.healthy).map PathsListItem.name, ?_, ?_⟩
  · have inRange : ¬ (resp.statusCode < 200 ∨ 300 ≤ resp.statusCode) := by omega
    simp only [Cycle.paths, fetchPathsReady, configured, if_false, answered, inRange, decoded, camerasListed]
  · have named (other : PathsListItem) : other ∈ items ∧ other.name = id.text ↔ other = it := by
      have member : other ∈ items.filter (fun other => other.name = id.text) ↔ other ∈ [it] := by rw [only]
      simpa using member
    simp only [List.mem_map, List.mem_filter]
    constructor
    · rintro ⟨other, ⟨member, healthy⟩, same⟩
      rwa [(named other).mp ⟨member, same⟩] at healthy
    · intro healthy
      obtain ⟨member, same⟩ := (named it).mpr rfl
      exact ⟨it, ⟨member, healthy⟩, same⟩

/-- Such a poll is an effective cycle of the camera. -/
theorem Shows.reading {state : State} {env : Cycle} {id : UUID} {it : PathsListItem} (shows_ : Shows env id it)
    (live : (listed state.cameras id).isSome) : reading state id (.cycle env) = some it.healthy := by
  obtain ⟨ready, went, healthy⟩ := shows_.paths
  obtain ⟨row, found⟩ := Option.isSome_iff_exists.mp live
  cases it_ : it.healthy with
  | true => simp [StatusReconciler.reading, went, found, healthy.mpr it_]
  | false =>
    have absent : id.text ∉ ready := fun named => by simp [healthy.mp named] at it_
    simp [StatusReconciler.reading, went, found, absent]

private theorem visits_deleted {env : Cycle} {ready : List String} {id : UUID} : ∀ {cams : List Camera} {state : State},
    ((cams.foldl (visit env ready) state).cameras.find? id).map Camera.deleted =
      (state.cameras.find? id).map Camera.deleted
  | [], _ => rfl
  | cam :: rest, state => by
    rw [List.foldl_cons, visits_deleted]
    unfold visit
    split
    · dsimp only
      split
      · rw [find_clear, Option.map_map]
        congr 1
        funext row
        simp only [Function.comp_apply]
        split <;> rfl
      · rfl
    · dsimp only
      split
      · rw [find_update, Option.map_map]
        congr 1
        funext row
        simp only [Function.comp_apply]
        split <;> rfl
      · rfl

/-- A cycle does not take a camera from the list. -/
theorem listed_reconcileOnce {state : State} {env : Cycle} {id : UUID} :
    (listed (reconcileOnce state env).cameras id).isSome = (listed state.cameras id).isSome := by
  have deleted (cameras : Cameras) : (listed cameras id).isSome =
      ((cameras.find? id).map Camera.deleted).any fun gone => !gone := by
    unfold listed
    cases cameras.find? id with
    | none => rfl
    | some row => cases gone : row.deleted <;> simp [Option.filter, gone]
  rw [deleted, deleted, reconcileOnce_eq]
  cases env.paths with
  | none => rfl
  | some ready => simp only [visits_deleted]

private theorem healthy_notReady {it : PathsListItem} (notReady : it.ready = false) :
    it.healthy = decide (0 < it.bytesReceived) := by
  rw [PathsListItem.healthy, notReady, Bool.false_or]

/-- One cycle after a healthy reading, whatever it reads, the row says online. -/
private theorem settled_online {state : State} {id : UUID} {before : List Bool} {old : Camera} (ready : Bool)
    (tracked : Tracked state id before) (held : state.cameras.find? id = some old)
    (last : before.getLast? = some true) : settled ready (counted ready (state.miss id)) old.status = "online" := by
  have lawful := settled_lawful ready tracked held
  cases ready with
  | true => exact lawful.online (by simp)
  | false =>
    have single : ¬ [false, false] <:+ before ++ [false] := fun two => by
      have missed := (two_misses.mp two).2
      rw [last] at missed
      cases missed
    exact (lawful.unchanged (by simp) single).trans (tracked.online last old held)

/-- Two consecutive polls that find a path not ready and its counter standing still end
with the camera offline exactly if the counter stands at zero: one byte since the
path was created counts as a live stream for ever. -/
theorem stalled_offline_iff (cameras : Cameras) (moves : List Move) (id : UUID) (first second : Cycle)
    (earlier later : PathsListItem)
    (written : ∀ move ∈ moves ++ [.cycle first] ++ [.cycle second], move.WritesSucceed)
    (stalled : Stalled (exec step (.start cameras) moves) id first second earlier later) :
    (∃ row, (exec step (.start cameras) (moves ++ [.cycle first] ++ [.cycle second])).cameras.find? id = some row ∧
      row.status = "offline") ↔ earlier.bytesReceived ≤ 0 := by
  have before := stalled.before.reading stalled.live
  have live : (listed (exec step (.start cameras) (moves ++ [.cycle first])).cameras id).isSome := by
    rw [exec_append, exec_cons, exec_nil]
    exact listed_reconcileOnce.trans stalled.live
  have after := stalled.after.reading live
  have tracked := tracked_exec cameras id (moves ++ [.cycle first]) fun move member =>
    written move (List.mem_append_left _ member)
  rw [readings_snoc, before, Option.toList_some] at tracked
  obtain ⟨_, old, row, held, found, status⟩ := reconcileOnce_read after (written (.cycle second) (by simp) id)
  have only : (∃ other, (exec step (.start cameras) (moves ++ [.cycle first] ++ [.cycle second])).cameras.find? id =
      some other ∧ other.status = "offline") ↔ row.status = "offline" := by
    rw [exec_append, exec_cons, exec_nil]
    simp [step, found]
  rw [only, status]
  by_cases dead : earlier.bytesReceived ≤ 0
  · have first_ : earlier.healthy = false := by simp [healthy_notReady stalled.notReady.1, dead]
    have second_ : later.healthy = false := by
      simp [healthy_notReady stalled.notReady.2, stalled.notGrown.trans dead]
    rw [first_] at tracked
    rw [second_]
    exact iff_of_true ((settled_lawful false tracked held).offline ⟨readings id (.start cameras) moves, by simp⟩) dead
  · have first_ : earlier.healthy = true := by simp [healthy_notReady stalled.notReady.1, Int.not_le.mp dead]
    rw [first_] at tracked
    rw [settled_online later.healthy tracked held (by simp)]
    exact iff_of_false (by decide) dead

/-- The gate's path, not ready. -/
private def gatePath (bytesReceived : Int) : PathsListItem := ⟨gate.id.text, false, bytesReceived⟩

private theorem shows_gate (bytesReceived : Int) :
    Shows (listing [gatePath bytesReceived]) gate.id (gatePath bytesReceived) where
  configured := by simp [listing]
  camerasListed := rfl
  answered := ⟨_, _, rfl, Nat.le_refl 200, by simp, rfl, by simp [gatePath]⟩

/-- A path that has never received a byte. -/
theorem stalled_offline_never_connected : (∃ row, (exec step (.start gateOnly)
      ([] ++ [.cycle (listing [gatePath 0])] ++ [.cycle (listing [gatePath 0])])).cameras.find? gate.id = some row ∧
    row.status = "offline") ↔ (gatePath 0).bytesReceived ≤ 0 :=
  stalled_offline_iff gateOnly [] gate.id (listing [gatePath 0]) (listing [gatePath 0]) (gatePath 0) (gatePath 0)
    (by simp [Move.WritesSucceed, listing]) ⟨by decide, shows_gate 0, shows_gate 0, ⟨rfl, rfl⟩, le_rfl⟩

/-- A camera that went dark after 4 kB: the counter stands still for three polls, and
the row still says online. -/
theorem dark_camera_stays_online :
    Shows (listing [gatePath 4096]) gate.id (gatePath 4096) ∧
    ∃ row, (exec step (.start gateOnly) [.cycle (listing [gatePath 4096]), .cycle (listing [gatePath 4096]),
      .cycle (listing [gatePath 4096])]).cameras.find? gate.id = some row ∧ row.status = "online" := by
  exact ⟨shows_gate 4096, gate, by decide, rfl⟩

end Ironsight.StatusReconciler
