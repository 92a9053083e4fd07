import Mathlib.Logic.Function.Basic
import Ironsight.CameraAssignment

/-! Where a device is and where it has been. The site of a camera or a speaker is a
column of its row; its history is kept in `device_assignments`, under the text that
the request spelled its id with. An assignment is three statements without a
transaction, a removal two, and requests for one device may overlap. A process that
dies is one whose remaining statements all fail. -/
namespace Ironsight.DeviceHistory
open Tables Runs Uuid
open Access (Instant foreignKeyViolation invalidUuid)
open CameraAssignment (DeviceAssignment)

inductive DeviceType where
  | camera
  | speaker
  deriving DecidableEq

/-- The value of `device_type`. -/
def DeviceType.text : DeviceType → String
  | .camera => "camera"
  | .speaker => "speaker"

/-- The table of such devices. -/
def DeviceType.table : DeviceType → String
  | .camera => "cameras"
  | .speaker => "speakers"

/-- A row of `cameras` or of `speakers`: the columns that an assignment writes. -/
structure Device where
  id : UUID
  siteId : Option String
  location : String := ""
  deriving DecidableEq

structure Store where
  devices : DeviceType → Table Device.id
  sites : List String
  assignments : List DeviceAssignment

/-- One call of the four functions below; without a target it is a removal. -/
structure Operation where
  deviceType : DeviceType
  deviceId : String
  target : Option (String × String)
  deriving DecidableEq

/-- `AssignCameraToSite`. -/
def assignCameraToSite (cameraID siteID location : String) : Operation := ⟨.camera, cameraID, some (siteID, location)⟩

/-- `UnassignCameraFromSite`. -/
def unassignCameraFromSite (cameraID : String) : Operation := ⟨.camera, cameraID, none⟩

/-- `AssignSpeakerToSite`. -/
def assignSpeakerToSite (speakerID siteID location : String) : Operation := ⟨.speaker, speakerID, some (siteID, location)⟩

/-- `UnassignSpeakerFromSite`. -/
def unassignSpeakerFromSite (speakerID : String) : Operation := ⟨.speaker, speakerID, none⟩

/-- The statement that comes next. -/
inductive Pc where
  | closing
  | updating
  | opening
  | returned (err : Option String)
  deriving DecidableEq

structure Thread where
  op : Operation
  pc : Pc
  deriving DecidableEq

/-- `NOW()`, and whether the statement fails. -/
structure Env where
  now : Instant := 0
  fault : Option String := none

/-- `UPDATE device_assignments SET removed_at=NOW() …`, by the text of the id. -/
def closeAssignments (op : Operation) (now : Instant) (store : Store) : Store :=
  { store with assignments := store.assignments.map fun row =>
      if row.deviceType = op.deviceType.text ∧ row.deviceId = op.deviceId ∧ row.removedAt = none then
        { row with removedAt := some now }
      else row }

/-- The row of the device with the site and the location of the operation. -/
def Operation.placed (op : Operation) (device : Device) : Device :=
  { device with siteId := op.target.map Prod.fst, location := (op.target.map Prod.snd).getD "" }

theorem Operation.placed_id (op : Operation) (device : Device) : (op.placed device).id = device.id := rfl

/-- The rows after the device was placed. -/
def place (op : Operation) (devices : Table Device.id) (id : UUID) : Table Device.id :=
  devices.modify (fun device => device.id = id) op.placed op.placed_id

/-- `UPDATE … SET site_id, location WHERE id`, with the foreign key on the site. -/
def updateDevice (op : Operation) (env : Env) (store : Store) : Except String Store :=
  match env.fault with
  | some err => .error err
  | none => match uuidIn op.deviceId with
    | none => .error (invalidUuid op.deviceId)
    | some id =>
      if (store.devices op.deviceType).find? id ≠ none ∧ ∃ target ∈ op.target, target.1 ∉ store.sites then
        .error (foreignKeyViolation op.deviceType.table (op.deviceType.table ++ "_site_id_fkey"))
      else .ok { store with
        devices := Function.update store.devices op.deviceType (place op (store.devices op.deviceType) id) }

/-- `INSERT INTO device_assignments`. -/
def openAssignment (op : Operation) (now : Instant) (target : String × String) (store : Store) : Store :=
  { store with
    assignments := store.assignments ++ [⟨op.deviceType.text, op.deviceId, target.1, target.2, now, none⟩] }

/-- One statement of a call. The errors of the first and of the last are dropped. -/
def next (env : Env) (thread : Thread) (store : Store) : Thread × Store :=
  match thread.pc with
  | .closing =>
    ({ thread with pc := .updating }, if env.fault = none then closeAssignments thread.op env.now store else store)
  | .updating =>
    match updateDevice thread.op env store, thread.op.target with
    | .error err, _ => ({ thread with pc := .returned (some err) }, store)
    | .ok after, none => ({ thread with pc := .returned none }, after)
    | .ok after, some _ => ({ thread with pc := .opening }, after)
  | .opening =>
    ({ thread with pc := .returned none },
      match env.fault, thread.op.target with
      | none, some target => openAssignment thread.op env.now target store
      | _, _ => store)
  | .returned _ => (thread, store)

/-- The four functions, one statement at a time. -/
def program : Program Store Thread Operation Env where
  start op := ⟨op, .closing⟩
  next := next

/-! ## Devices and their history -/

/-- The open rows of a device, whatever spelling of its id they carry. -/
def openRows (store : Store) (type : DeviceType) (id : UUID) : List DeviceAssignment :=
  store.assignments.filter fun row =>
    row.deviceType = type.text ∧ uuidIn row.deviceId = some id ∧ row.removedAt = none

/-- The device has an open row exactly when it has a site, one, and for that site. -/
def Agrees (store : Store) (type : DeviceType) (device : Device) : Prop :=
  (openRows store type device.id).map DeviceAssignment.siteId = device.siteId.toList

instance (store : Store) (type : DeviceType) (device : Device) : Decidable (Agrees store type device) :=
  inferInstanceAs (Decidable (_ = _))

/-- The thread is between two statements of an operation on this device. -/
def Thread.underWay (type : DeviceType) (id : UUID) (thread : Thread) : Bool :=
  thread.op.deviceType = type ∧ uuidIn thread.op.deviceId = some id ∧ (thread.pc = .updating ∨ thread.pc = .opening)

/-- How many operations on a device are under way. -/
def operations (pool : Pool Store Thread) (type : DeviceType) (id : UUID) : Nat :=
  pool.threads.countP (Thread.underWay type id)

/-- Every device on which no operation is under way agrees with its history. -/
def HistoryAgrees (pool : Pool Store Thread) : Prop :=
  ∀ type, ∀ device ∈ pool.shared.devices type, operations pool type device.id = 0 → Agrees pool.shared type device

instance (pool : Pool Store Thread) : Decidable (HistoryAgrees pool) :=
  decidable_of_iff
    ((∀ device ∈ pool.shared.devices .camera, operations pool .camera device.id = 0 → Agrees pool.shared .camera device) ∧
      ∀ device ∈ pool.shared.devices .speaker, operations pool .speaker device.id = 0 → Agrees pool.shared .speaker device)
    ⟨fun both type => by cases type; exacts [both.1, both.2], fun all => ⟨all .camera, all .speaker⟩⟩

/-- What a statement that ends an operation has to meet: one that fails, a device in
agreement; a removal, no open row; an insert, no open row and the site of its own
operation. -/
def EndsInAgreement (store : Store) (env : Env) (thread : Thread) (device : Device) : Prop :=
  match thread.pc with
  | .closing | .returned _ => True
  | .updating =>
    match updateDevice thread.op env store with
    | .error _ => Agrees store thread.op.deviceType device
    | .ok _ => thread.op.target = none → openRows store thread.op.deviceType device.id = []
  | .opening =>
    match env.fault, thread.op.target with
    | none, some target => openRows store thread.op.deviceType device.id = [] ∧ device.siteId = some target.1
    | _, _ => Agrees store thread.op.deviceType device

/-- The statement meets that, if its operation is the only one under way on the device. -/
def Settles (pool : Pool Store Thread) (env : Env) (thread : Thread) : Prop :=
  ∀ device ∈ pool.shared.devices thread.op.deviceType, uuidIn thread.op.deviceId = some device.id →
    operations pool thread.op.deviceType device.id = 1 → EndsInAgreement pool.shared env thread device

/-- Nothing comes in between: the statement does not fail, the site is there, and a call
that starts finds no other one under way on its device and every open row of the device
under its own spelling of the id. -/
def Undisturbed (pool : Pool Store Thread) (env : Env) (thread : Thread) : Prop :=
  env.fault = none ∧ (∀ target ∈ thread.op.target, target.1 ∈ pool.shared.sites) ∧
    (thread.pc = .closing → ∀ id ∈ uuidIn thread.op.deviceId, operations pool thread.op.deviceType id = 0 ∧
      ∀ row ∈ openRows pool.shared thread.op.deviceType id, row.deviceId = thread.op.deviceId)

instance (pool : Pool Store Thread) (env : Env) (thread : Thread) : Decidable (Undisturbed pool env thread) :=
  inferInstanceAs (Decidable (_ ∧ _))

/-- The system at rest: no call has begun, and history and devices agree. -/
structure Rest where
  store : Store
  agrees : ∀ type, ∀ device ∈ store.devices type, Agrees store type device

/-- No call has begun. -/
def Rest.pool (rest : Rest) : Pool Store Thread := ⟨rest.store, []⟩

/-! ## Single statements -/

/-- The operation is about this device. -/
def Operation.Concerns (op : Operation) (type : DeviceType) (id : UUID) : Prop :=
  op.deviceType = type ∧ uuidIn op.deviceId = some id

instance (op : Operation) (type : DeviceType) (id : UUID) : Decidable (op.Concerns type id) :=
  inferInstanceAs (Decidable (_ ∧ _))

private theorem text_inj {first second : DeviceType} (same : first.text = second.text) : first = second := by
  cases first <;> cases second <;> simp [DeviceType.text] at same ⊢

private theorem filter_map_same {α : Type} {chosen : α → Bool} {change : α → α} (rows : List α)
    (same : ∀ row, chosen (change row) = chosen row) (kept : ∀ row, chosen row = true → change row = row) :
    (rows.map change).filter chosen = rows.filter chosen := by
  have composed : chosen ∘ change = chosen := funext same
  rw [List.filter_map, composed]
  exact (List.map_congr_left fun row member => kept row (List.of_mem_filter member)).trans (List.map_id' _)

/-- Closing by a text does not reach the rows of another device. -/
private theorem openRows_close {op : Operation} {now : Instant} {store : Store} {type : DeviceType} {id : UUID}
    (other : ¬ op.Concerns type id) : openRows (closeAssignments op now store) type id = openRows store type id := by
  have apart (row : DeviceAssignment) (here : row.deviceType = type.text ∧ uuidIn row.deviceId = some id) :
      ¬ (row.deviceType = op.deviceType.text ∧ row.deviceId = op.deviceId) := by
    rintro ⟨sameType, sameText⟩
    exact other ⟨text_inj (sameType.symm.trans here.1), sameText ▸ here.2⟩
  apply filter_map_same
  · intro row
    by_cases here : row.deviceType = type.text ∧ uuidIn row.deviceId = some id
    · have unchanged : ¬ (row.deviceType = op.deviceType.text ∧ row.deviceId = op.deviceId ∧ row.removedAt = none) :=
        fun chosen => apart row here ⟨chosen.1, chosen.2.1⟩
      rw [if_neg unchanged]
    · split
      · rename_i chosen
        simp only [chosen.1, chosen.2.1] at here ⊢
        simp [← and_assoc, here]
      · rfl
  · intro row chosen
    simp only [decide_eq_true_eq] at chosen
    exact if_neg fun taken => apart row ⟨chosen.1, chosen.2.1⟩ ⟨taken.1, taken.2.1⟩

private theorem openRows_open {op : Operation} {now : Instant} {target : String × String} {store : Store}
    {type : DeviceType} {id : UUID} :
    openRows (openAssignment op now target store) type id = openRows store type id ++
      if op.Concerns type id then [⟨op.deviceType.text, op.deviceId, target.1, target.2, now, none⟩] else [] := by
  have named : op.deviceType.text = type.text ↔ op.deviceType = type := ⟨text_inj, fun same => same ▸ rfl⟩
  simp only [openRows, openAssignment, List.filter_append, List.filter_cons, List.filter_nil, named, and_true,
    decide_eq_true_eq, Operation.Concerns]
  congr

private theorem mem_place {op : Operation} {devices : Table Device.id} {id : UUID} {device : Device} :
    device ∈ place op devices id ↔
      if device.id = id then ∃ old ∈ devices, old.id = id ∧ device = op.placed old else device ∈ devices := by
  rw [place, Table.mem_modify]
  simp only [decide_eq_true_eq]
  constructor
  · rintro ⟨old, held, rfl⟩
    by_cases chosen : old.id = id
    · rw [if_pos chosen, if_pos ((op.placed_id old).trans chosen)]
      exact ⟨old, held, chosen, rfl⟩
    · rw [if_neg chosen, if_neg chosen]
      exact held
  · intro found
    split at found
    · obtain ⟨old, held, chosen, rfl⟩ := found
      exact ⟨old, held, by rw [if_pos chosen]⟩
    · rename_i other
      exact ⟨device, found, by rw [if_neg other]⟩

/-- A successful update writes the one row of its device. -/
private theorem updateDevice_ok {op : Operation} {env : Env} {store after : Store}
    (done : updateDevice op env store = .ok after) : ∃ id, uuidIn op.deviceId = some id ∧
      after.assignments = store.assignments ∧
      (∀ device, device ∈ after.devices op.deviceType ↔ device ∈ place op (store.devices op.deviceType) id) ∧
      ∀ type, op.deviceType ≠ type → after.devices type = store.devices type := by
  unfold updateDevice at done
  split at done
  · cases done
  · split at done
    · cases done
    · rename_i id named
      split at done
      · cases done
      · cases done
        refine ⟨id, named, rfl, fun device => ?_, fun type elsewhere => ?_⟩
        · simp only [Function.update_self]
        · simp only [Function.update_of_ne (Ne.symm elsewhere)]

/-- A statement leaves the devices that it does not concern, and their history, alone. -/
private theorem next_other {env : Env} {thread : Thread} {store : Store} {type : DeviceType} {id : UUID}
    (other : ¬ thread.op.Concerns type id) : openRows (next env thread store).2 type id = openRows store type id ∧
      ∀ device : Device, device.id = id → (device ∈ (next env thread store).2.devices type ↔ device ∈ store.devices type) := by
  unfold next
  cases thread.pc with
  | closing =>
    dsimp only
    split
    · exact ⟨openRows_close other, fun _ _ => Iff.rfl⟩
    · exact ⟨rfl, fun _ _ => Iff.rfl⟩
  | updating =>
    dsimp only
    cases done : updateDevice thread.op env store with
    | error err => exact ⟨rfl, fun _ _ => Iff.rfl⟩
    | ok after =>
      obtain ⟨own, named, assignments, placed, elsewhere⟩ := updateDevice_ok done
      have kept : openRows after type id = openRows store type id ∧
          ∀ device : Device, device.id = id → (device ∈ after.devices type ↔ device ∈ store.devices type) := by
        refine ⟨by simp only [openRows, assignments], fun device here => ?_⟩
        by_cases same : thread.op.deviceType = type
        · subst same
          have apart : device.id ≠ own := fun own_ => other ⟨rfl, by rw [named, ← own_, here]⟩
          rw [placed, mem_place, if_neg apart]
        · rw [elsewhere type same]
      cases thread.op.target <;> exact kept
  | opening =>
    cases env.fault with
    | some err => exact ⟨rfl, fun _ _ => Iff.rfl⟩
    | none =>
      cases thread.op.target with
      | none => exact ⟨rfl, fun _ _ => Iff.rfl⟩
      | some target =>
        refine ⟨?_, fun _ _ => Iff.rfl⟩
        show openRows (openAssignment thread.op env.now target store) type id = _
        rw [openRows_open, if_neg other, List.append_nil]
  | returned err => exact ⟨rfl, fun _ _ => Iff.rfl⟩

private theorem next_op (env : Env) (thread : Thread) (store : Store) : (next env thread store).1.op = thread.op := by
  unfold next
  cases thread.pc with
  | closing | opening | returned => rfl
  | updating =>
    dsimp only
    cases updateDevice thread.op env store with
    | error err => rfl
    | ok after => cases thread.op.target <;> rfl

/-! ## Runs -/

section Steps
variable {pool : Pool Store Thread} {index : Nat} {thread : Thread} {env : Env}

/-- The pool after the thread's statement. -/
private def ran (pool : Pool Store Thread) (index : Nat) (thread : Thread) (env : Env) : Pool Store Thread :=
  ⟨(next env thread pool.shared).2, pool.threads.set index (next env thread pool.shared).1⟩

private theorem operations_other {type : DeviceType} {id : UUID} (running : pool.threads[index]? = some thread)
    (other : ¬ thread.op.Concerns type id) : operations (ran pool index thread env) type id = operations pool type id := by
  have idle {current : Thread} (same : current.op = thread.op) : Thread.underWay type id current = false := by
    have apart : ¬ (current.op.deviceType = type ∧ uuidIn current.op.deviceId = some id) := by
      rw [same]
      exact other
    simp only [Thread.underWay, decide_eq_false_iff_not]
    exact fun busy => apart ⟨busy.1, busy.2.1⟩
  have counted := countP_set_add (Thread.underWay type id) running (next env thread pool.shared).1
  rw [idle rfl, idle (next_op env thread pool.shared)] at counted
  simpa [operations, ran] using counted

/-- An operation of the device that this statement ends, or carries on. -/
private theorem operations_own {type : DeviceType} {id : UUID} (running : pool.threads[index]? = some thread) :
    operations (ran pool index thread env) type id + (if thread.underWay type id then 1 else 0) =
      operations pool type id + if (next env thread pool.shared).1.underWay type id then 1 else 0 :=
  countP_set_add (Thread.underWay type id) running _

private theorem underWay_iff {current : Thread} {type : DeviceType} {id : UUID} (concerns : current.op.Concerns type id) :
    current.underWay type id = true ↔ current.pc = .updating ∨ current.pc = .opening := by
  obtain ⟨rfl, named⟩ := concerns
  simp [Thread.underWay, named]

/-- While an operation is under way on the device, nothing is asked of it. -/
private theorem operations_pos {type : DeviceType} {id : UUID} (running : pool.threads[index]? = some thread)
    (concerns : thread.op.Concerns type id)
    (busy : (next env thread pool.shared).1.pc = .updating ∨ (next env thread pool.shared).1.pc = .opening) :
    operations (ran pool index thread env) type id ≠ 0 := by
  have after : (next env thread pool.shared).1.op.Concerns type id := by
    rw [next_op]
    exact concerns
  obtain ⟨inside, _⟩ := List.getElem?_eq_some_iff.mp running
  have member : (next env thread pool.shared).1 ∈ (ran pool index thread env).threads := List.mem_set inside _
  exact Nat.ne_of_gt (List.countP_pos_iff.mpr ⟨_, member, (underWay_iff after).mpr busy⟩)

private theorem operations_ended {type : DeviceType} {id : UUID} (running : pool.threads[index]? = some thread)
    (concerns : thread.op.Concerns type id) (busy : thread.pc = .updating ∨ thread.pc = .opening)
    {err : Option String} (ended : (next env thread pool.shared).1.pc = .returned err) :
    operations (ran pool index thread env) type id = 0 ↔ operations pool type id = 1 := by
  have after : (next env thread pool.shared).1.op.Concerns type id := by
    rw [next_op]
    exact concerns
  have idle : ¬ (next env thread pool.shared).1.underWay type id = true := by
    rw [underWay_iff after, ended]
    simp
  have counted := @operations_own pool index thread env type id running
  rw [if_pos ((underWay_iff concerns).mpr busy), if_neg idle] at counted
  omega

/-- A device taken off its site agrees if the statement closed all its rows. -/
private theorem agrees_removed {id : UUID} {after : Store} (running : pool.threads[index]? = some thread)
    (named : uuidIn thread.op.deviceId = some id) (at_ : thread.pc = .updating)
    (done : updateDevice thread.op env pool.shared = .ok after) (target : thread.op.target = none) :
    (∀ device ∈ (ran pool index thread env).shared.devices thread.op.deviceType, device.id = id →
      operations (ran pool index thread env) thread.op.deviceType id = 0 →
      Agrees (ran pool index thread env).shared thread.op.deviceType device) ↔
    ∀ device ∈ pool.shared.devices thread.op.deviceType, device.id = id →
      operations pool thread.op.deviceType id = 1 → EndsInAgreement pool.shared env thread device := by
  have removed : next env thread pool.shared = ({ thread with pc := .returned none }, after) := by
    simp [next, at_, done, target]
  obtain ⟨own, named_, assignments, placed, _⟩ := updateDevice_ok done
  cases Option.some.inj (named.symm.trans named_)
  rw [operations_ended running ⟨rfl, named⟩ (.inl at_) (by rw [removed])]
  simp only [ran, removed, EndsInAgreement, at_, done, placed, mem_place, target, true_implies]
  have agrees (old : Device) : Agrees after thread.op.deviceType (thread.op.placed old) ↔
      openRows pool.shared thread.op.deviceType old.id = [] := by
    simp [Agrees, openRows, assignments, Operation.placed, target]
  constructor
  · intro settled device held here alone
    exact (agrees device).mp (settled (thread.op.placed device)
      (by rw [if_pos (show (thread.op.placed device).id = id from here)]; exact ⟨device, held, here, rfl⟩) here alone)
  · intro settled device held here alone
    rw [if_pos here] at held
    obtain ⟨old, member, same, rfl⟩ := held
    exact (agrees old).mpr (settled old member same alone)

/-- A row opened for the device agrees if it is the only open one and the device
already names its site. -/
private theorem agrees_openAssignment {store : Store} {op : Operation} {now : Instant} {site : String × String}
    {device : Device} (concerns : op.Concerns op.deviceType device.id) :
    Agrees (openAssignment op now site store) op.deviceType device ↔
      openRows store op.deviceType device.id = [] ∧ device.siteId = some site.1 := by
  rw [Agrees, openRows_open, if_pos concerns, List.map_append]
  cases openRows store op.deviceType device.id with
  | nil => cases device.siteId <;> simp [@eq_comm _ site.1]
  | cons row rows => cases device.siteId <;> simp

/-- What the end of an operation leaves of its device. -/
private theorem agrees_own {id : UUID} (running : pool.threads[index]? = some thread)
    (named : uuidIn thread.op.deviceId = some id) (agreed : HistoryAgrees pool) :
    (∀ device ∈ (ran pool index thread env).shared.devices thread.op.deviceType, device.id = id →
      operations (ran pool index thread env) thread.op.deviceType id = 0 →
      Agrees (ran pool index thread env).shared thread.op.deviceType device) ↔
    ∀ device ∈ pool.shared.devices thread.op.deviceType, device.id = id →
      operations pool thread.op.deviceType id = 1 → EndsInAgreement pool.shared env thread device := by
  have concerns : thread.op.Concerns thread.op.deviceType id := ⟨rfl, named⟩
  cases at_ : thread.pc with
  | closing =>
    have busy : (next env thread pool.shared).1.pc = .updating := by simp [next, at_]
    refine iff_of_true (fun _ _ _ none_ => absurd none_ (operations_pos running concerns (.inl busy))) ?_
    intro device _ _ _
    simp [EndsInAgreement, at_]
  | returned err =>
    have same : next env thread pool.shared = (thread, pool.shared) := by simp [next, at_]
    refine iff_of_true (fun device held here none_ => ?_) fun device _ _ _ => by simp [EndsInAgreement, at_]
    have counted := @operations_own pool index thread env thread.op.deviceType id running
    rw [same] at counted
    have before : operations pool thread.op.deviceType id = 0 := by
      dsimp only at counted
      omega
    simp only [ran, same] at held ⊢
    subst here
    exact agreed thread.op.deviceType device held before
  | updating =>
    cases done : updateDevice thread.op env pool.shared with
    | error err =>
      have failed : next env thread pool.shared = ({ thread with pc := .returned (some err) }, pool.shared) := by
        simp [next, at_, done]
      rw [operations_ended running concerns (.inl at_) (by rw [failed])]
      simp [ran, failed, EndsInAgreement, at_, done]
    | ok after =>
      cases target : thread.op.target with
      | none => exact agrees_removed running named at_ done target
      | some site =>
        have carried : (next env thread pool.shared).1.pc = .opening := by simp [next, at_, done, target]
        refine iff_of_true (fun _ _ _ none_ => absurd none_ (operations_pos running concerns (.inr carried))) ?_
        intro device _ _ _
        simp [EndsInAgreement, at_, done, target]
  | opening =>
    have ended : (next env thread pool.shared).1.pc = .returned none := by simp [next, at_]
    rw [operations_ended running concerns (.inr at_) ended]
    cases fault : env.fault with
    | some err => simp [ran, next, EndsInAgreement, at_, fault]
    | none =>
      cases target : thread.op.target with
      | none => simp [ran, next, EndsInAgreement, at_, fault, target, Agrees]
      | some site =>
        have opened : (next env thread pool.shared).2 = openAssignment thread.op env.now site pool.shared := by
          simp [next, at_, fault, target]
        simp only [ran, opened, EndsInAgreement, at_, fault, target]
        refine forall_congr' fun device => forall_congr' fun _ => forall_congr' fun here => forall_congr' fun _ => ?_
        exact agrees_openAssignment (here ▸ concerns)

/-- A statement keeps devices and history in agreement exactly if it settles what it ends. -/
theorem run_agrees_iff (running : pool.threads[index]? = some thread) (agreed : HistoryAgrees pool) :
    HistoryAgrees (ran pool index thread env) ↔ Settles pool env thread := by
  constructor
  · intro kept device held named
    refine (agrees_own running named agreed).mp (fun later member here none_ => ?_) device held rfl
    rw [← here] at none_
    exact kept thread.op.deviceType later member none_
  · intro settled type device held none_
    by_cases concerns : thread.op.Concerns type device.id
    · obtain ⟨rfl, named⟩ := concerns
      refine (agrees_own running named agreed).mpr (fun before member here alone => ?_) device held rfl none_
      exact settled before member (here ▸ named) (here ▸ alone)
    · obtain ⟨rows, same⟩ := @next_other env thread pool.shared type device.id concerns
      have before := agreed type device ((same device rfl).mp held)
        ((operations_other running concerns).symm.trans none_)
      exact (congrArg (List.map DeviceAssignment.siteId) rows).trans before

end Steps

/-! ## Calls that nothing disturbs -/

/-- What a call that is under way has done: the rows of its device are closed, and from
its update on the device names the site of the call. -/
def Carried (store : Store) (thread : Thread) : Prop :=
  ∀ id ∈ uuidIn thread.op.deviceId,
    (thread.pc = .updating ∨ thread.pc = .opening → openRows store thread.op.deviceType id = []) ∧
    (thread.pc = .opening → ∀ device ∈ store.devices thread.op.deviceType, device.id = id →
      device.siteId = thread.op.target.map Prod.fst)

/-- One call at a time on each device, each with its work so far, and agreement at rest. -/
structure InTurn (pool : Pool Store Thread) : Prop where
  agrees : HistoryAgrees pool
  alone : ∀ type id, operations pool type id ≤ 1
  carried : ∀ index : Nat, ∀ thread ∈ pool.threads[index]?, Carried pool.shared thread

/-- Two calls that are under way on a device of which one may be are the same call. -/
private theorem underWay_same {pool : Pool Store Thread} {type : DeviceType} {id : UUID} {first second : Nat}
    {thread current : Thread} (running : pool.threads[first]? = some thread) (there : pool.threads[second]? = some current)
    (busy : thread.underWay type id = true) (busy' : current.underWay type id = true)
    (alone : operations pool type id ≤ 1) : first = second := by
  by_contra apart
  have counted := countP_set_add (Thread.underWay type id) running { thread with pc := .closing }
  have idle : ¬ Thread.underWay type id { thread with pc := .closing } = true := by simp [Thread.underWay]
  have kept : current ∈ pool.threads.set first { thread with pc := .closing } :=
    List.mem_of_getElem? ((List.getElem?_set_ne apart).trans there)
  have remains := List.countP_pos_iff.mpr ⟨current, kept, busy'⟩
  rw [if_pos busy, if_neg idle] at counted
  unfold operations at alone
  omega

private theorem openRows_closed {op : Operation} {now : Instant} {store : Store} {id : UUID}
    (spelled : ∀ row ∈ openRows store op.deviceType id, row.deviceId = op.deviceId) :
    openRows (closeAssignments op now store) op.deviceType id = [] := by
  rw [openRows, List.filter_eq_nil_iff]
  intro row member chosen
  obtain ⟨old, held, rfl⟩ := List.mem_map.mp member
  simp only [decide_eq_true_eq] at chosen
  split at chosen
  · cases chosen.2.2
  · rename_i kept
    have own := spelled old (List.mem_filter.mpr ⟨held, by simpa using chosen⟩)
    exact kept ⟨chosen.1, own, chosen.2.2⟩

private theorem updateDevice_known {op : Operation} {env : Env} {store : Store} {id : UUID} (named : uuidIn op.deviceId = some id)
    (executes : env.fault = none) (known : ∀ target ∈ op.target, target.1 ∈ store.sites) :
    ∃ after, updateDevice op env store = .ok after := by
  have sound : ¬ ((store.devices op.deviceType).find? id ≠ none ∧ ∃ target ∈ op.target, target.1 ∉ store.sites) :=
    fun violated => violated.2.elim fun target unknown => unknown.2 (known target unknown.1)
  simp only [updateDevice, executes, named, if_neg sound]
  exact ⟨_, rfl⟩

section Turns
variable {pool : Pool Store Thread} {index : Nat} {thread : Thread} {env : Env}

private theorem settles_of_undisturbed (turn : InTurn pool) (running : pool.threads[index]? = some thread)
    (undisturbed : Undisturbed pool env thread) : Settles pool env thread := by
  intro device held named _
  obtain ⟨executes, known, _⟩ := undisturbed
  obtain ⟨closed, sited⟩ := turn.carried index thread running device.id named
  unfold EndsInAgreement
  cases at_ : thread.pc with
  | closing | returned => trivial
  | updating =>
    obtain ⟨after, done⟩ := updateDevice_known named executes known
    simp only [done]
    exact fun _ => closed (.inl at_)
  | opening =>
    have site := sited at_ device held rfl
    cases target : thread.op.target with
    | none =>
      rw [target] at site
      simp [executes, Agrees, closed (.inr at_), site]
    | some target_ =>
      rw [target] at site
      simp only [executes]
      exact ⟨closed (.inr at_), site⟩

private theorem operations_ran (turn : InTurn pool) (running : pool.threads[index]? = some thread)
    (undisturbed : Undisturbed pool env thread) (type : DeviceType) (id : UUID) :
    operations (ran pool index thread env) type id ≤ 1 := by
  have bound := turn.alone type id
  by_cases concerns : thread.op.Concerns type id
  · have counted := @operations_own pool index thread env type id running
    cases at_ : thread.pc with
    | updating =>
      rw [if_pos ((underWay_iff concerns).mpr (.inl at_))] at counted
      split at counted <;> omega
    | opening =>
      rw [if_pos ((underWay_iff concerns).mpr (.inr at_))] at counted
      split at counted <;> omega
    | closing =>
      obtain ⟨rfl, named⟩ := concerns
      have none_ := (undisturbed.2.2 at_ id named).1
      split at counted <;> split at counted <;> omega
    | returned err =>
      have same : next env thread pool.shared = (thread, pool.shared) := by simp [next, at_]
      rw [same] at counted
      dsimp only at counted
      omega
  · rw [operations_other running concerns]
    exact bound

/-- The call that goes on carries its work along. -/
private theorem carried_own (turn : InTurn pool) (running : pool.threads[index]? = some thread)
    (undisturbed : Undisturbed pool env thread) :
    Carried (next env thread pool.shared).2 (next env thread pool.shared).1 := by
  have before := turn.carried index thread running
  obtain ⟨executes, known, starting⟩ := undisturbed
  unfold Carried at before ⊢
  rw [next_op]
  intro id named
  obtain ⟨closed, sited⟩ := before id named
  cases at_ : thread.pc with
  | closing =>
    have done : next env thread pool.shared =
        ({ thread with pc := .updating }, closeAssignments thread.op env.now pool.shared) := by simp [next, at_, executes]
    rw [done]
    exact ⟨fun _ => openRows_closed (starting at_ id named).2, nofun⟩
  | updating =>
    obtain ⟨after, done⟩ := updateDevice_known named executes known
    obtain ⟨own, named_, assignments, placed, _⟩ := updateDevice_ok done
    cases Option.some.inj (Eq.trans (Eq.symm named) named_)
    have stored : (next env thread pool.shared).2 = after := by
      cases target : thread.op.target <;> simp [next, at_, done, target]
    rw [stored]
    refine ⟨fun _ => ?_, fun _ device held here => ?_⟩
    · have same : openRows after thread.op.deviceType id = openRows pool.shared thread.op.deviceType id := by
        simp only [openRows, assignments]
      rw [same]
      exact closed (.inl at_)
    · rw [placed, mem_place, if_pos here] at held
      obtain ⟨old, _, _, rfl⟩ := held
      rfl
  | opening => simp [next, at_]
  | returned err => simp [next, at_]

private theorem carried_other {other : Nat} {current : Thread} (turn : InTurn pool)
    (running : pool.threads[index]? = some thread) (undisturbed : Undisturbed pool env thread) (apart : index ≠ other)
    (there : pool.threads[other]? = some current) : Carried (next env thread pool.shared).2 current := by
  intro id named
  have before := turn.carried other current there id named
  by_cases concerns : thread.op.Concerns current.op.deviceType id
  · -- Only one of the two is under way, and it is not the one that runs.
    have idle (busy : current.pc = .updating ∨ current.pc = .opening) : (next env thread pool.shared).2 = pool.shared := by
      have busy' : current.underWay current.op.deviceType id = true := (underWay_iff ⟨rfl, named⟩).mpr busy
      have alone := turn.alone current.op.deviceType id
      cases at_ : thread.pc with
      | returned err => simp [next, at_]
      | closing =>
        obtain ⟨type, named_⟩ := concerns
        have none_ := (undisturbed.2.2 at_ id named_).1
        rw [type] at none_
        exact absurd none_ (Nat.ne_of_gt (List.countP_pos_iff.mpr ⟨current, List.mem_of_getElem? there, busy'⟩))
      | updating => exact absurd (underWay_same running there ((underWay_iff concerns).mpr (.inl at_)) busy' alone) apart
      | opening => exact absurd (underWay_same running there ((underWay_iff concerns).mpr (.inr at_)) busy' alone) apart
    refine ⟨fun busy => ?_, fun busy => ?_⟩
    · rw [idle busy]
      exact before.1 busy
    · rw [idle (.inr busy)]
      exact before.2 busy
  · obtain ⟨rows, devices⟩ := @next_other env thread pool.shared current.op.deviceType id concerns
    rw [rows]
    exact ⟨before.1, fun busy device held here => before.2 busy device ((devices device here).mp held) here⟩

theorem inTurn_ran (turn : InTurn pool) (running : pool.threads[index]? = some thread)
    (undisturbed : Undisturbed pool env thread) : InTurn (ran pool index thread env) where
  agrees := (run_agrees_iff running turn.agrees).mpr (settles_of_undisturbed turn running undisturbed)
  alone := operations_ran turn running undisturbed
  carried other current there := by
    by_cases same : index = other
    · subst same
      obtain ⟨inside, _⟩ := List.getElem?_eq_some_iff.mp running
      rw [ran, List.getElem?_set_self inside] at there
      cases there
      exact carried_own turn running undisturbed
    · rw [ran, List.getElem?_set_ne same] at there
      exact carried_other turn running undisturbed same there

end Turns

theorem inTurn_step (pool : Pool Store Thread) (move : Move Operation Env) (turn : InTurn pool)
    (undisturbed : OnStatement Undisturbed pool move) : InTurn (program.step pool move) := by
  cases move with
  | spawn request =>
    rw [Program.step_spawn]
    have same (type : DeviceType) (id : UUID) :
        operations ⟨pool.shared, pool.threads ++ [program.start request]⟩ type id = operations pool type id := by
      simp [operations, program, Thread.underWay]
    refine ⟨fun type device held none_ => turn.agrees type device held ((same _ _).symm.trans none_),
      fun type id => (same type id).trans_le (turn.alone type id), fun index thread there => ?_⟩
    rw [Option.mem_def, List.getElem?_append] at there
    split at there
    · exact turn.carried index thread there
    · have started : thread = program.start request := by simpa using List.mem_of_getElem? there
      rw [started]
      intro id _
      refine ⟨fun busy => ?_, nofun⟩
      rcases busy with busy | busy <;> cases busy
  | run index env =>
    cases running : pool.threads[index]? with
    | none =>
      rw [Program.step_run_none running]
      exact turn
    | some thread =>
      rw [Program.step_run running]
      exact inTurn_ran turn running (undisturbed thread running)

/-- In every run of the four operations, with any statements failing, every device
agrees with its history whenever nothing is under way on it, exactly if each statement
that ends the only operation under way on a device settles it; and so in every run in
which nothing disturbs a call. -/
theorem history_agrees_iff (rest : Rest) (moves : List (Move Operation Env)) :
    (Throughout program.step HistoryAgrees rest.pool moves ↔ Along program.step (OnStatement Settles) rest.pool moves) ∧
      (Along program.step (OnStatement Undisturbed) rest.pool moves → Throughout program.step HistoryAgrees rest.pool moves) := by
  have initial : InTurn rest.pool :=
    ⟨fun type device held _ => rest.agrees type device held, fun _ _ => Nat.zero_le _, by rintro _ _ ⟨⟩⟩
  refine ⟨?_, fun undisturbed =>
    throughout_mono (fun _ turn => turn.agrees) moves _ (throughout_of_invariant inTurn_step moves _ initial undisturbed)⟩
  have always : ∀ pool move, True → (fun _ : Pool Store Thread => True) (program.step pool move) := fun _ _ _ => trivial
  refine throughout_iff_along always (fun pool move _ agreed => ?_) moves rest.pool trivial
    fun type device held _ => rest.agrees type device held
  cases move with
  | spawn request =>
    refine iff_of_true (fun type device held none_ => ?_) trivial
    rw [Program.step_spawn] at held none_ ⊢
    refine agreed type device held ?_
    simpa [operations, program, Thread.underWay] using none_
  | run index env =>
    cases running : pool.threads[index]? with
    | none =>
      rw [Program.step_run_none running]
      exact iff_of_true agreed fun current here => by simp [running] at here
    | some thread =>
      rw [Program.step_run running]
      have only : OnStatement Settles pool (.run index env : Move Operation Env) ↔ Settles pool env thread := by
        simp [OnStatement, running]
      rw [only]
      exact run_agrees_iff running agreed

/-! ## A run that nothing disturbs, and one for each cause of failure -/

private def gate : UUID := ⟨1⟩

/-- One camera without a site, and two sites. -/
private def oneCamera : Rest where
  store := {
    devices := fun
      | .camera => ⟨[⟨gate, none, ""⟩], by decide⟩
      | .speaker => .empty
    sites := ["s-1", "s-2"]
    assignments := [] }
  agrees type device held := by
    cases type with
    | camera =>
      rw [List.mem_singleton.mp held]
      rfl
    | speaker => cases held

private def toSite (site : String) : Operation := assignCameraToSite gate.text site "Gate"

/-- A statement that succeeds, at this time. -/
private def at_ (now : Instant) : Env := ⟨now, none⟩

/-- A camera that is put on one site, then on the other, and taken off it again. -/
theorem moved_camera_agrees :
    Throughout program.step HistoryAgrees oneCamera.pool
      [.spawn (toSite "s-1"), .run 0 (at_ 1), .run 0 (at_ 2), .run 0 (at_ 3), .spawn (toSite "s-2"), .run 1 (at_ 4),
        .run 1 (at_ 5), .run 1 (at_ 6), .spawn (unassignCameraFromSite gate.text), .run 2 (at_ 7), .run 2 (at_ 8)] :=
  (history_agrees_iff oneCamera _).2 (by decide +kernel)

/-- Two assignments of one camera that overlap leave two open rows; an insert that
fails leaves a camera with a site and no open row. -/
theorem history_disagrees :
    ¬ Throughout program.step HistoryAgrees oneCamera.pool
      [.spawn (toSite "s-1"), .spawn (toSite "s-2"), .run 0 (at_ 1), .run 1 (at_ 2), .run 0 (at_ 3), .run 0 (at_ 4),
        .run 1 (at_ 5), .run 1 (at_ 6)] ∧
    ¬ Throughout program.step HistoryAgrees oneCamera.pool
      [.spawn (toSite "s-1"), .run 0 (at_ 1), .run 0 (at_ 2), .run 0 ⟨3, some "connection reset"⟩] := by
  constructor <;> decide +kernel

end Ironsight.DeviceHistory
