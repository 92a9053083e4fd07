import Ironsight.Runs
import Mathlib.Data.List.Infix
import Mathlib.Logic.Function.Basic

/-! The paths of one camera on an external media server. Registering the camera starts a
goroutine that adds its paths; each edit writes the stream map and then replaces the
paths, one request after the other. Between any two requests the other side may come, and
any request may fail. -/
namespace Ironsight.StreamPaths
open Runs

/-- The two paths of a camera: its id, and its id with `_sub`. -/
inductive PathName where
  | main
  | sub
  deriving DecidableEq

instance (holds : PathName → Prop) [DecidablePred holds] : Decidable (∀ name, holds name) :=
  decidable_of_iff (holds .main ∧ holds .sub) ⟨fun both name => by cases name <;> simp [both], fun all => ⟨all .main, all .sub⟩⟩

structure MtxAPIPath where
  source : String
  sourceOnDemand : Bool
  rtspTransport : String
  deriving DecidableEq

/-- `StreamInfo`, as far as its paths are made of it. -/
structure StreamInfo where
  cameraName : String
  rtspURI : String
  subStreamURI : String
  deriving DecidableEq

/-- The path that the code sends for a name. -/
def StreamInfo.path (info : StreamInfo) : PathName → MtxAPIPath
  | .main => { source := info.rtspURI, sourceOnDemand := false, rtspTransport := "tcp" }
  | .sub => { source := info.subStreamURI, sourceOnDemand := true, rtspTransport := "tcp" }

/-! ## The control API -/

abbrev Paths := PathName → Option MtxAPIPath

/-- `apiError`, or an error of the transport, which has no status. -/
structure APIErr where
  status : Option Nat
  body : String
  deriving DecidableEq

def isAlreadyExists (err : APIErr) : Bool := err.status = some 400 ∧ "already".toList <:+: err.body.toLower.toList

def isNotFound (err : APIErr) : Bool := err.status = some 404

/-- An error that is neither of the two answers that speak of the path. -/
structure Failure where
  err : APIErr
  other : isAlreadyExists err = false ∧ isNotFound err = false

/-- A failing request: not carried out, or carried out with its answer lost. -/
inductive CallFault where
  | refused (failure : Failure)
  | lost (failure : Failure)

inductive Request where
  | add (name : PathName) (path : MtxAPIPath)
  | patch (name : PathName) (path : MtxAPIPath)
  | delete (name : PathName)

/-- What the media server does with a request that reaches it. -/
def Request.served (paths : Paths) : Request → Except APIErr Paths
  | .add name path =>
    match paths name with
    | some _ => .error ⟨some 400, "path already exists"⟩
    | none => .ok (Function.update paths name (some path))
  | .patch name path =>
    match paths name with
    | some _ => .ok (Function.update paths name (some path))
    | none => .error ⟨some 404, "path not found"⟩
  | .delete name =>
    match paths name with
    | some _ => .ok (Function.update paths name none)
    | none => .error ⟨some 404, "path not found"⟩

/-- The request changes the paths, whether or not its answer arrives. -/
def Request.carried (request : Request) (fault : Option CallFault) (paths : Paths) : Bool :=
  match fault with
  | some (.refused _) => false
  | some (.lost _) | none => (request.served paths).isOk

/-- `doAPIWithMethod`. -/
def Request.send (request : Request) (fault : Option CallFault) (paths : Paths) : Except APIErr Unit × Paths :=
  match fault, request.served paths with
  | some (.refused failure), _ => (.error failure.err, paths)
  | some (.lost failure), .ok after => (.error failure.err, after)
  | some (.lost failure), .error _ => (.error failure.err, paths)
  | none, .ok after => (.ok (), after)
  | none, .error err => (.error err, paths)

/-- The request of `apiAddPath` that comes next. -/
inductive Adding where
  | posting
  | patching
  deriving DecidableEq

/-- What the goroutine asks the media server for. -/
def Adding.request (adding : Adding) (name : PathName) (path : MtxAPIPath) : Request :=
  match adding with
  | .posting => .add name path
  | .patching => .patch name path

/-- One request of `apiAddPath`; without a result the path exists and is patched next. -/
def apiAddPath (name : PathName) (path : MtxAPIPath) (adding : Adding) (fault : Option CallFault) (paths : Paths) :
    Option (Except APIErr Unit) × Paths :=
  let answer := (adding.request name path).send fault paths
  (match adding, answer.1 with
    | .posting, .error err => if isAlreadyExists err then none else some (.error err)
    | .patching, .error err => if isAlreadyExists err then some (.ok ()) else some (.error err)
    | _, .ok () => some (.ok ()),
    answer.2)

def apiRemovePath (name : PathName) (fault : Option CallFault) (paths : Paths) : Except APIErr Unit × Paths :=
  let answer := (Request.delete name).send fault paths
  (match answer.1 with
    | .error err => if isNotFound err then .ok () else .error err
    | .ok () => .ok (),
    answer.2)

/-! ## The goroutine of `AddStream` -/

/-- The goroutine has captured the source it was started with; without a next request it
has ended. -/
structure Goroutine where
  info : StreamInfo
  pc : Option (PathName × Adding) := some (.main, .posting)
  deriving DecidableEq

/-- Errors are only logged. -/
def Goroutine.next (goroutine : Goroutine) (fault : Option CallFault) (paths : Paths) : Goroutine × Paths :=
  match goroutine.pc with
  | none => (goroutine, paths)
  | some (name, adding) =>
    let answer := apiAddPath name (goroutine.info.path name) adding fault paths
    ({ goroutine with pc :=
        match answer.1, name with
        | none, _ => some (name, .patching)
        | some _, .main => if goroutine.info.subStreamURI ≠ "" then some (.sub, .posting) else none
        | some _, .sub => none },
      answer.2)

/-! ## `SetStreamSource` and `ReplaceStreamSource` -/

inductive ReplaceErr where
  | deleting (name : PathName) (err : APIErr)
  | notConfirmed (lastErr : Option APIErr)
  | context (err : String)
  deriving DecidableEq

inductive At where
  | deletingMain
  | deletingSub
  | adding (name : PathName) (adding : Adding)
  | listing
  | waiting
  deriving DecidableEq

/-- The locals of `ReplaceStreamSource`; `installed` is history that the code does not
keep: an add of the sub path was carried out in this call. -/
structure Locals where
  info : StreamInfo
  lastErr : Option APIErr := none
  installed : Bool := false
  deriving DecidableEq

inductive Replace where
  | returned (answer : Option (Except ReplaceErr Unit))
  | edited
  | running (locals : Locals) (at_ : At)

/-- What a step of `ReplaceStreamSource` meets outside: the fate of its request, the
answer of `/v3/paths/list` (which may leave a path out), the clock and the context. -/
structure Env where
  fault : Option CallFault := none
  listed : Except APIErr Bool := .ok true
  expired : Bool := false
  cancelled : Option String := none

/-- The list is answered, and names the path if it is there. -/
def Env.shows (env : Env) : Bool :=
  match env.listed with
  | .ok shown => shown
  | .error _ => false

structure World where
  paths : Paths
  info : StreamInfo
  goroutine : Goroutine
  replace : Replace

def Locals.failed (locals : Locals) : Except APIErr Unit → Locals
  | .ok () => locals
  | .error err => { locals with lastErr := some err }

/-- The end of a round that has not found the main path. -/
def unconfirmed (env : Env) (locals : Locals) : Replace :=
  if env.expired then .returned (some (.error (.notConfirmed locals.lastErr))) else .running locals .waiting

/-- `ReplaceStreamSource` in external mode, up to its next request. -/
def replaceStreamSource (env : Env) (world : World) : Replace × Paths :=
  match world.replace with
  | .returned answer => (.returned answer, world.paths)
  | .edited => (.running { info := world.info } .deletingMain, world.paths)
  | .running locals .deletingMain =>
    let answer := apiRemovePath .main env.fault world.paths
    match answer.1 with
    | .error err => (.returned (some (.error (.deleting .main err))), answer.2)
    | .ok () =>
      (.running locals (if locals.info.subStreamURI ≠ "" then .deletingSub else .adding .main .posting), answer.2)
  | .running locals .deletingSub =>
    let answer := apiRemovePath .sub env.fault world.paths
    match answer.1 with
    | .error err => (.returned (some (.error (.deleting .sub err))), answer.2)
    | .ok () => (.running locals (.adding .main .posting), answer.2)
  | .running locals (.adding name adding) =>
    let answer := apiAddPath name (locals.info.path name) adding env.fault world.paths
    let carried := (adding.request name (locals.info.path name)).carried env.fault world.paths
    let locals := { locals with installed := locals.installed || (name = .sub && carried) }
    (match answer.1, name with
      | none, _ => .running locals (.adding name .patching)
      | some result, .main =>
        .running (locals.failed result) (if locals.info.subStreamURI ≠ "" then .adding .sub .posting else .listing)
      | some result, .sub => .running (locals.failed result) .listing,
      answer.2)
  | .running locals .listing =>
    (if env.shows = true ∧ world.paths .main ≠ none then .returned (some (.ok ()))
      else
        match env.listed with
        | .error err => unconfirmed env { locals with lastErr := some err }
        | .ok _ => unconfirmed env locals,
      world.paths)
  | .running locals .waiting =>
    (match env.cancelled with
      | some err => .returned (some (.error (.context err)))
      | none => .running locals (.adding .main .posting),
      world.paths)

/-- An edit, the next step of its `ReplaceStreamSource`, or the next request of the
goroutine. An edit begins when the one before has returned. -/
inductive Move where
  | edit (info : StreamInfo)
  | replace (env : Env)
  | goroutine (fault : Option CallFault)

/-- An edit, a statement of a replace, or a request of the goroutine. -/
def step (world : World) : Move → World
  | .edit info =>
    match world.replace with
    | .returned _ => { world with info, replace := .edited }
    | .edited | .running _ _ => world
  | .replace env =>
    let after := replaceStreamSource env world
    { world with replace := after.1, paths := after.2 }
  | .goroutine fault =>
    let after := world.goroutine.next fault world.paths
    { world with goroutine := after.1, paths := after.2 }

/-- `AddStream`, with whatever paths the media server has of earlier times. -/
def registered (info : StreamInfo) (paths : Paths) : World :=
  ⟨paths, info, { info }, .returned none⟩

/-! ## What the media server has -/

/-- The path that a camera has under a name. -/
def StreamInfo.desired (info : StreamInfo) : PathName → Option MtxAPIPath
  | .main => some (info.path .main)
  | .sub => if info.subStreamURI = "" then none else some (info.path .sub)

/-- With nothing under way after a successful replace, the media server has the paths of
the stream map. -/
def Live (world : World) : Prop :=
  match world.replace, world.goroutine.pc with
  | .returned (some (.ok ())), none => ∀ name, world.paths name = world.info.desired name
  | _, _ => True

instance (world : World) : Decidable (Live world) := by
  unfold Live
  split <;> infer_instance

/-- `ReplaceStreamSource` has still to delete the path, or has failed. -/
def ahead (world : World) (name : PathName) : Bool :=
  match world.replace with
  | .returned (some (.ok ())) => false
  | .returned (some (.error _)) | .returned none => true
  | .edited => name = .main ∨ world.info.subStreamURI ≠ ""
  | .running locals at_ =>
    match name with
    | .main => at_ = .deletingMain
    | .sub => locals.info.subStreamURI ≠ "" ∧ (at_ = .deletingMain ∨ at_ = .deletingSub)

/-- The path that a request of the goroutine changes. -/
def writes (world : World) (fault : Option CallFault) : Option PathName :=
  world.goroutine.pc.bind fun (name, adding) =>
    if (adding.request name (world.goroutine.info.path name)).carried fault world.paths then some name else none

/-- The locals of a replace that is about to ask for the list. -/
def confirming (world : World) : Option Locals :=
  match world.replace with
  | .running locals .listing => some locals
  | _ => none

/-- An edit without a sub-stream finds no sub path; a replace that is about to return has
installed the sub path it has; a late write of the goroutine is that of the stream map. -/
def KeepsToStreamMap (world : World) : Move → Prop
  | .edit info => info.subStreamURI = "" → world.paths .sub = none
  | .replace env => ∀ locals ∈ confirming world,
      env.shows = true → locals.info.subStreamURI ≠ "" → locals.installed = true
  | .goroutine fault => ∀ name ∈ writes world fault,
      world.info.desired name = some (world.goroutine.info.path name) ∨ ahead world name = true

instance (world : World) (move : Move) : Decidable (KeepsToStreamMap world move) := by
  cases move <;> unfold KeepsToStreamMap <;> infer_instance

/-! ## Requests -/

def Request.name : Request → PathName
  | .add name _ | .patch name _ | .delete name => name

/-- What a request that is carried out leaves under its name. -/
def Request.effect : Request → Option MtxAPIPath
  | .add _ path | .patch _ path => some path
  | .delete _ => none

section Requests
variable {request : Request} {fault : Option CallFault} {paths : Paths} {name other : PathName} {path : MtxAPIPath}

theorem served_ok {after : Paths} (served : request.served paths = .ok after) :
    after = Function.update paths request.name request.effect := by
  cases request <;> simp only [Request.served] at served <;> split at served <;> cases served <;> rfl

theorem send_paths (request : Request) (fault : Option CallFault) (paths : Paths) : (request.send fault paths).2 =
    if request.carried fault paths then Function.update paths request.name request.effect else paths := by
  unfold Request.send Request.carried
  cases served : request.served paths with
  | ok after =>
    rw [← served_ok served]
    split <;> simp_all [Except.isOk, Except.toBool]
  | error err => split <;> simp_all [Except.isOk, Except.toBool]

theorem send_other (differs : other ≠ request.name) : (request.send fault paths).2 other = paths other := by
  rw [send_paths]
  split
  · exact Function.update_of_ne differs ..
  · rfl

/-- An answered delete leaves no path. -/
theorem removed (deleted : (apiRemovePath name fault paths).1 = .ok ()) :
    (apiRemovePath name fault paths).2 name = none := by
  unfold apiRemovePath Request.send Request.served at *
  cases found : paths name with
  | none => cases fault with
    | none => simp [found]
    | some fault => cases fault <;> simp_all
  | some path => cases fault with
    | none => simp [found]
    | some fault =>
      cases fault with
      | refused failure => simp [failure.other.2] at deleted
      | lost failure => simp [found, failure.other.2] at deleted

theorem added (name : PathName) (path : MtxAPIPath) (adding : Adding) (fault : Option CallFault) (paths : Paths) :
    (apiAddPath name path adding fault paths).2 =
      if (adding.request name path).carried fault paths then Function.update paths name (some path) else paths := by
  have sent := send_paths (adding.request name path) fault paths
  cases adding <;> exact sent

theorem added_self (adding : Adding) : (apiAddPath name path adding fault paths).2 name =
    if (adding.request name path).carried fault paths then some path else paths name := by
  rw [added]
  split
  · exact Function.update_self ..
  · rfl

theorem added_other (adding : Adding) (differs : other ≠ name) :
    (apiAddPath name path adding fault paths).2 other = paths other := by
  rw [added]
  split
  · exact Function.update_of_ne differs ..
  · rfl

theorem removed_other (differs : other ≠ name) : (apiRemovePath name fault paths).2 other = paths other :=
  send_other differs

end Requests

/-! ## What holds between the requests -/

/-- A path whose deletion is behind is gone or the one of the stream map. -/
structure Steady (world : World) : Prop where
  own : ∀ locals at_, world.replace = .running locals at_ → locals.info = world.info
  wanted : ∀ locals adding, world.replace = .running locals (.adding .sub adding) → world.info.subStreamURI ≠ ""
  fresh : ∀ name, ahead world name = false → world.paths name = none ∨ world.paths name = world.info.desired name
  installed : ∀ locals at_, world.replace = .running locals at_ → locals.installed = true →
    ahead world .sub = false ∧ world.paths .sub = world.info.desired .sub
  settled : world.replace = .returned (some (.ok ())) → ∀ name, world.paths name = world.info.desired name

theorem registered_steady (info : StreamInfo) (paths : Paths) : Steady (registered info paths) where
  own := by rintro _ _ ⟨⟩
  wanted := by rintro _ _ ⟨⟩
  fresh := by rintro _ ⟨⟩
  installed := by rintro _ _ ⟨⟩
  settled := by rintro ⟨⟩

variable {world : World}

theorem goroutine_writes (fault : Option CallFault) (name : PathName) :
    (world.goroutine.next fault world.paths).2 name =
    if writes world fault = some name then some (world.goroutine.info.path name) else world.paths name := by
  unfold Goroutine.next writes
  cases pc : world.goroutine.pc with
  | none => rfl
  | some next =>
    obtain ⟨own, adding⟩ := next
    simp only [added, Option.bind_some]
    split
    · by_cases same : name = own
      · subst same
        simp
      · simp [Function.update_of_ne same, Ne.symm same]
    · simp

theorem steady_goroutine {fault : Option CallFault} (steady : Steady world) (meets : KeepsToStreamMap world (.goroutine fault)) :
    Steady (step world (.goroutine fault)) := by
  have kept (name : PathName) (behind : ahead world name = false) :
      (step world (.goroutine fault)).paths name = world.paths name ∨
        (step world (.goroutine fault)).paths name = world.info.desired name := by
    change (world.goroutine.next fault world.paths).2 name = _ ∨ (world.goroutine.next fault world.paths).2 name = _
    rw [goroutine_writes]
    split
    · rename_i written
      have late := meets name written
      rw [behind] at late
      exact .inr (late.resolve_right Bool.false_ne_true).symm
    · exact .inl rfl
  refine ⟨steady.own, steady.wanted, fun name behind => ?_, fun locals at_ running installed => ?_, fun returned name => ?_⟩
  · rcases kept name behind with same | wanted
    · rw [same]
      exact steady.fresh name behind
    · exact .inr wanted
  · obtain ⟨behind, live⟩ := steady.installed locals at_ running installed
    exact ⟨behind, (kept .sub behind).elim (fun same => same.trans live) id⟩
  · have behind : ahead world name = false := by
      change world.replace = _ at returned
      simp [ahead, returned]
    exact (kept name behind).elim (fun same => same.trans (steady.settled returned name)) id

theorem steady_edit {info : StreamInfo} (steady : Steady world) (meets : KeepsToStreamMap world (.edit info)) :
    Steady (step world (.edit info)) := by
  unfold step
  dsimp only
  split
  · refine ⟨by rintro _ _ ⟨⟩, by rintro _ _ ⟨⟩, fun name behind => ?_, by rintro _ _ ⟨⟩, by rintro ⟨⟩⟩
    cases name with
    | main => cases behind
    | sub => exact .inl (meets (by simpa [ahead] using behind))
  · exact steady
  · exact steady

/-- A replace that has failed promises nothing. -/
theorem steady_failed (err : ReplaceErr) (paths : Paths) :
    Steady { world with replace := .returned (some (.error err)), paths } where
  own := by rintro _ _ ⟨⟩
  wanted := by rintro _ _ ⟨⟩
  fresh := by rintro _ ⟨⟩
  installed := by rintro _ _ ⟨⟩
  settled := by rintro ⟨⟩

/-- The deletions are behind: the paths are gone or right, and an installed sub path is
there. -/
theorem steady_running {paths : Paths} {locals : Locals} {at_ : At} (own : locals.info = world.info)
    (past : at_ ≠ .deletingMain ∧ at_ ≠ .deletingSub)
    (wanted : ∀ adding, at_ = .adding .sub adding → world.info.subStreamURI ≠ "")
    (fresh : ∀ name, paths name = none ∨ paths name = world.info.desired name)
    (installed : locals.installed = true → paths .sub = world.info.desired .sub) :
    Steady { world with replace := .running locals at_, paths } where
  own := fun _ _ running => by cases running; exact own
  wanted := fun _ adding running => by cases running; exact wanted adding rfl
  fresh := fun name _ => fresh name
  installed := fun _ _ running held => by
    cases running
    exact ⟨by simp [ahead, past], installed held⟩
  settled := by rintro ⟨⟩

theorem steady_deletingMain {env : Env} {locals : Locals} (steady : Steady world)
    (running : world.replace = .running locals .deletingMain) : Steady (step world (.replace env)) := by
  have own := steady.own locals _ running
  simp only [step, replaceStreamSource, running]
  cases deleted : (apiRemovePath .main env.fault world.paths).1 with
  | error err => exact steady_failed _ _
  | ok _ =>
    have gone := removed deleted
    have same : (apiRemovePath .main env.fault world.paths).2 .sub = world.paths .sub := removed_other (by decide)
    dsimp only
    by_cases empty : locals.info.subStreamURI = ""
    · have behind : ahead world .sub = false := by simp [ahead, running, empty]
      rw [if_neg (not_not.mpr empty)]
      refine steady_running own (by simp) (by simp) (fun name => ?_) fun installed => ?_
      · cases name with
        | main => exact .inl gone
        | sub => rw [same]; exact steady.fresh .sub behind
      · exact same.trans (steady.installed locals _ running installed).2
    · rw [if_pos empty]
      have uninstalled : locals.installed = false := by
        by_contra installed
        have behind := (steady.installed locals _ running (by simpa using installed)).1
        simp [ahead, running, empty] at behind
      refine ⟨fun _ _ now => ?_, by rintro _ _ ⟨⟩, fun name behind => ?_, fun _ _ now installed => ?_, by rintro ⟨⟩⟩
      · cases now
        exact own
      · cases name with
        | main => exact .inl gone
        | sub => simp [ahead, empty] at behind
      · cases now
        rw [uninstalled] at installed
        cases installed

theorem steady_deletingSub {env : Env} {locals : Locals} (steady : Steady world)
    (running : world.replace = .running locals .deletingSub) : Steady (step world (.replace env)) := by
  have own := steady.own locals _ running
  simp only [step, replaceStreamSource, running]
  cases deleted : (apiRemovePath .sub env.fault world.paths).1 with
  | error err => exact steady_failed _ _
  | ok _ =>
    have gone := removed deleted
    have same : (apiRemovePath .sub env.fault world.paths).2 .main = world.paths .main := removed_other (by decide)
    refine steady_running own (by simp) (by simp) (fun name => ?_) fun installed => ?_
    · cases name with
      | main => dsimp only; rw [same]; exact steady.fresh .main (by simp [ahead, running])
      | sub => exact .inl gone
    · have behind := (steady.installed locals _ running installed).1
      have empty : world.info.subStreamURI = "" := by simpa [ahead, running, own] using behind
      simpa [StreamInfo.desired, empty] using gone

theorem failed_info (result : Except APIErr Unit) (locals : Locals) : (locals.failed result).info = locals.info := by
  cases result <;> rfl

theorem failed_installed (result : Except APIErr Unit) (locals : Locals) :
    (locals.failed result).installed = locals.installed := by
  cases result <;> rfl

section Adding
variable {locals : Locals} {name : PathName} {adding : Adding}

/-- A replace adds only paths that the stream map has. -/
private theorem adding_desired (steady : Steady world) (running : world.replace = .running locals (.adding name adding)) :
    world.info.desired name = some (locals.info.path name) := by
  have own := steady.own locals _ running
  cases name with
  | main => rw [own]; rfl
  | sub => simp [StreamInfo.desired, steady.wanted locals adding running, own]

private theorem adding_fresh (env : Env) (steady : Steady world)
    (running : world.replace = .running locals (.adding name adding)) (other : PathName) :
    (apiAddPath name (locals.info.path name) adding env.fault world.paths).2 other = none ∨
      (apiAddPath name (locals.info.path name) adding env.fault world.paths).2 other = world.info.desired other := by
  have before : world.paths other = none ∨ world.paths other = world.info.desired other :=
    steady.fresh other (by cases other <;> simp [ahead, running])
  by_cases same : other = name
  · subst same
    rw [added_self]
    split
    · exact .inr (adding_desired steady running).symm
    · exact before
  · rwa [added_other adding same]

/-- The sub path counts as installed by an earlier request or by this one. -/
private theorem adding_installed (env : Env) (steady : Steady world)
    (running : world.replace = .running locals (.adding name adding))
    (held : (locals.installed || (decide (name = .sub) &&
      (adding.request name (locals.info.path name)).carried env.fault world.paths)) = true) :
    (apiAddPath name (locals.info.path name) adding env.fault world.paths).2 .sub = world.info.desired .sub := by
  by_cases now : name = .sub ∧ (adding.request name (locals.info.path name)).carried env.fault world.paths = true
  · obtain ⟨rfl, done⟩ := now
    rw [added_self, if_pos done]
    exact (adding_desired steady running).symm
  · have before : locals.installed = true := by
      rcases Bool.or_eq_true_iff.mp held with before | new
      · exact before
      · exact absurd (by simpa using new) now
    have live := (steady.installed locals _ running before).2
    by_cases same : name = .sub
    · subst same
      have quiet : (adding.request .sub (locals.info.path .sub)).carried env.fault world.paths = false := by simpa using now
      rwa [added_self, quiet, if_neg Bool.false_ne_true]
    · rwa [added_other adding (Ne.symm same)]

theorem steady_adding {env : Env} (steady : Steady world) (running : world.replace = .running locals (.adding name adding)) :
    Steady (step world (.replace env)) := by
  have own := steady.own locals _ running
  have fresh := adding_fresh env steady running
  have installed := adding_installed env steady running
  simp only [step, replaceStreamSource, running]
  cases answered : (apiAddPath name (locals.info.path name) adding env.fault world.paths).1 with
  | none =>
    refine steady_running own (by simp) (fun _ same => ?_) fresh installed
    cases same
    exact steady.wanted locals adding running
  | some result =>
    -- a failed request is noted and the replace goes on to the next path or the listing
    cases name with
    | main =>
      dsimp only
      split
      · rename_i wanted
        exact steady_running ((failed_info ..).trans own) (by simp) (fun _ _ => own ▸ wanted) fresh
          (by rwa [failed_installed])
      · exact steady_running ((failed_info ..).trans own) (by simp) (by simp) fresh (by rwa [failed_installed])
    | sub => exact steady_running ((failed_info ..).trans own) (by simp) (by simp) fresh (by rwa [failed_installed])

end Adding

theorem steady_listing {env : Env} {locals : Locals} (steady : Steady world) (running : world.replace = .running locals .listing)
    (meets : KeepsToStreamMap world (.replace env)) : Steady (step world (.replace env)) := by
  have own := steady.own locals _ running
  have fresh (name : PathName) := steady.fresh name (by cases name <;> simp [ahead, running])
  have goes_on (held : Locals) (info : held.info = locals.info) (same : held.installed = locals.installed) :
      Steady { world with replace := unconfirmed env held } := by
    unfold unconfirmed
    split
    · exact steady_failed _ _
    · refine steady_running (info.trans own) (by simp) (by simp) fresh fun installed => ?_
      exact (steady.installed locals _ running (same ▸ installed)).2
  simp only [step, replaceStreamSource, running]
  split
  · rename_i confirmed
    obtain ⟨shown, there⟩ := confirmed
    refine ⟨by rintro _ _ ⟨⟩, by rintro _ _ ⟨⟩, fun name _ => fresh name, by rintro _ _ ⟨⟩, fun _ name => ?_⟩
    cases name with
    | main => exact (fresh .main).resolve_left there
    | sub =>
      by_cases empty : world.info.subStreamURI = ""
      · simpa [StreamInfo.desired, empty] using fresh .sub
      · have installed := meets locals (by simp [confirming, running]) shown (own ▸ empty)
        exact (steady.installed locals _ running installed).2
  · split
    · exact goes_on _ rfl rfl
    · exact goes_on _ rfl rfl

theorem steady_waiting {env : Env} {locals : Locals} (steady : Steady world) (running : world.replace = .running locals .waiting) :
    Steady (step world (.replace env)) := by
  have own := steady.own locals _ running
  have fresh (name : PathName) := steady.fresh name (by cases name <;> simp [ahead, running])
  simp only [step, replaceStreamSource, running]
  split
  · exact steady_failed _ _
  · exact steady_running own (by simp) (by simp) fresh fun installed => (steady.installed locals _ running installed).2

theorem steady_replace {env : Env} (steady : Steady world) (meets : KeepsToStreamMap world (.replace env)) :
    Steady (step world (.replace env)) := by
  cases running : world.replace with
  | returned answer =>
    have same : step world (.replace env) = world := by
      cases world
      simp_all [step, replaceStreamSource]
    rwa [same]
  | edited =>
    simp only [step, replaceStreamSource, running]
    refine ⟨fun _ _ now => ?_, by rintro _ _ ⟨⟩, fun name behind => ?_, fun _ _ now installed => ?_, by rintro ⟨⟩⟩
    · cases now
      rfl
    · refine steady.fresh name ?_
      cases name <;> simp [ahead, running] at behind ⊢
      exact behind
    · cases now
      cases installed
  | running locals at_ =>
    cases at_ with
    | deletingMain => exact steady_deletingMain steady running
    | deletingSub => exact steady_deletingSub steady running
    | adding name adding => exact steady_adding steady running
    | listing => exact steady_listing steady running meets
    | waiting => exact steady_waiting steady running

theorem steady_step (steady : Steady world) (move : Move) (meets : KeepsToStreamMap world move) : Steady (step world move) := by
  cases move with
  | edit info => exact steady_edit steady meets
  | replace env => exact steady_replace steady meets
  | goroutine fault => exact steady_goroutine steady meets

theorem live_of_steady (steady : Steady world) : Live world := by
  unfold Live
  split
  · rename_i returned _
    exact steady.settled returned
  · trivial

/-- In a run whose moves all meet the condition, the media server has the paths of the
stream map whenever a replace has succeeded and nothing is under way. -/
theorem source_change_live (info : StreamInfo) (paths : Paths) (moves : List Move)
    (meets : Along step KeepsToStreamMap (registered info paths) moves) : Throughout step Live (registered info paths) moves :=
  throughout_mono (fun _ steady => live_of_steady steady) moves _
    (throughout_of_invariant (fun _ move steady meets => steady_step steady move meets) moves _
      (registered_steady info paths) meets)

private def old : StreamInfo := ⟨"Gate", "rtsp://10.0.0.5/1", "rtsp://10.0.0.5/2"⟩

/-- Both paths are added, then the camera gets another address. -/
theorem source_change_live_gate :
    Throughout step Live (registered old fun _ => none)
      [.goroutine none, .goroutine none, .edit ⟨"Gate", "rtsp://10.0.0.9/1", "rtsp://10.0.0.9/2"⟩, .replace {}, .replace {},
        .replace {}, .replace {}, .replace {}, .replace {}] :=
  source_change_live old (fun _ => none) _ (by decide)

/-- The sub-stream is taken away; its path stays. -/
theorem not_source_change_live :
    ¬ Throughout step Live (registered old fun _ => none)
      [.goroutine none, .goroutine none, .edit { old with subStreamURI := "" }, .replace {}, .replace {}, .replace {},
        .replace {}] := by
  decide

end Ironsight.StreamPaths
