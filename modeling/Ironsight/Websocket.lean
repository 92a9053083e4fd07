import Ironsight.Access
import Ironsight.CameraAssignment
import Ironsight.JsonReader
import Ironsight.ProfileUpdate
import Ironsight.Runs

/-! The WebSocket hub of every API replica and the Redis channel between them. A
broadcast reaches the clients of its own replica through a queue, and those of the
others inside an envelope that names its sender; both ways end in the same loop
over the client map, which asks each client's cached view. -/
namespace Ironsight.Websocket
open Tables Uuid Access Runs JsonReader ProfileUpdate

/-- The text of a JSON message. -/
abbrev Message := List Char

/-! ## Clients -/

/-- `wsClient`. -/
structure Client where
  claims : Claims
  allowedCameras : List UUID
  globalView : Bool

/-- `wsClient.canSee`, on a pointer that may be nil. -/
def canSee (client : Option Client) (cameraID : UUID) : Bool :=
  match client with
  | none => false
  | some client => if client.globalView then true else client.allowedCameras.contains cameraID

/-- The client that `HandleWebSocket` registers for these claims. -/
def handleWebSocket (db : Directory) (claims : Claims) : Option Client :=
  match authorizedCameraIDs db (some claims) with
  | .error _ => none
  | .ok (ids, restricted) => some { claims, allowedCameras := ids, globalView := !restricted }

/-- The body of the loop of `refreshAllRBAC`; `answered` is false of a lookup that the
database fails. -/
def refreshClient (db : Directory) (answered : Bool) (client : Client) : Client :=
  if client.globalView then client
  else if !answered then client
  else match authorizedCameraIDs db (some client.claims) with
    | .error _ => client
    | .ok (ids, restricted) =>
      if !restricted then { client with globalView := true, allowedCameras := [] }
      else { client with allowedCameras := ids }

/-! ## Routing -/

/-- `json.Unmarshal` into a `map[string]json.RawMessage`. A raw member stands here as the
value that its text names. -/
def unmarshalMap : Tree → Option (Table (Prod.fst : String × Tree → String))
  | .null => some .empty
  | .object members => some (members.foldl Table.put .empty)
  | _ => none

/-- `json.Unmarshal` into an empty `string`. -/
def unmarshalString : Tree → Option String
  | .null => some ""
  | .string value => some value
  | _ => none

/-- `routeKeyFromMessage`. -/
def routeKeyFromMessage (raw : Message) : UUID :=
  match (readDocument raw).bind unmarshalMap with
  | none => .nil
  | some m =>
    match m.find? "camera_id" with
    | some (_, v) => ((unmarshalString v).bind parse).getD .nil
    | none =>
      match m.find? "data" with
      | none => .nil
      | some (_, dataRaw) =>
        match unmarshalMap dataRaw with
        | none => .nil
        | some nested =>
          match nested.find? "camera_id" with
          | none => .nil
          | some (_, v) => ((unmarshalString v).bind parse).getD .nil

/-! ## One hub -/

/-- `h.clients`, by connection. -/
abbrev Clients := Table (Prod.fst : Nat × Client → Nat)

/-- A hub, with the sender of its bridge if one is attached. Messages carry the number
of their broadcast. -/
structure Hub where
  senderID : Option String
  clients : Clients := .empty
  queue : List (Nat × Message) := []

/-- The capacity of `h.broadcast`. -/
def capacity : Nat := 256

/-- `refreshAllRBAC`. -/
def Hub.refreshAllRBAC (hub : Hub) (db : Directory) (answered : Nat → Bool) : Hub :=
  { hub with
    clients := hub.clients.modify (fun _ => true)
      (fun row => (row.1, refreshClient db (answered row.1) row.2)) fun _ => rfl }

/-- The connections that `writeToClients` writes to. -/
def Hub.addressed (hub : Hub) (message : Message) : List (Nat × Client) :=
  hub.clients.rows.filter fun row => canSee (some row.2) (routeKeyFromMessage message)

/-- `writeToClients`: a connection that cannot be written to is dropped. -/
def Hub.writeToClients (hub : Hub) (message : Message) (dead : List Nat) : Hub :=
  { hub with
    clients := hub.clients.remove fun row =>
      canSee (some row.2) (routeKeyFromMessage message) && dead.contains row.1 }

/-! ## The deployment -/

/-- The envelope of the bridge as `encoding/json` writes and reads it; writing fails on
a payload that is not JSON. -/
structure Codec where
  marshal : String → Message → Option (List Char)
  unmarshal : List Char → Option (String × Message)

/-- A payload survives the envelope up to whitespace and escaping. -/
def Codec.Survives (codec : Codec) : Prop :=
  ∀ sender payload data, codec.marshal sender payload = some data → ∀ found ∈ codec.unmarshal data,
    found.1 = sender ∧ readDocument found.2 = readDocument payload

/-- The tables, in which every camera has the identifier that `CreateCamera` drew with
`uuid.New`. -/
structure Registry where
  tables : Directory
  drawn : ∀ camera ∈ tables.cameras, camera.id ≠ .nil

/-- A message that a client was sent, and the client as it was then. -/
structure Receipt where
  replica : Nat
  conn : Nat
  broadcast : Nat
  payload : Message
  client : Client

/-- The replicas with the messages between them. `broadcasts` and `received` only record
what happened; `outbox` holds the publishing goroutines, `relayed` which publication
Redis has handed to which subscriber. -/
structure Deployment where
  registry : Registry
  hubs : List Hub
  broadcasts : List (Nat × Message) := []
  outbox : List (Nat × List Char) := []
  published : List (Nat × List Char) := []
  relayed : List (Nat × Nat) := []
  received : List Receipt := []

inductive Change where
  | role (user : UUID) (role : Role) (now : Instant)
  | sites (user : UUID) (update : UserProfileUpdate) (now : Instant)
  | camera (camera : UUID) (site : Option String) (location : String)

/-- `UpdateUserRole`, `UpdateUserProfile`, `AssignCameraToSite` and
`UnassignCameraFromSite`. -/
def Change.apply (change : Change) (db : Directory) : Directory :=
  match change with
  | .role id given now =>
    { db with
      users := db.users.modify (fun user => user.id = id)
        (fun user => { user with role := given, updatedAt := now }) fun _ => rfl }
  | .sites id update now => updateUserProfile now db id update
  | .camera id site label => { db with cameras := CameraAssignment.place db.cameras id site label }

/-- No change touches an identifier. -/
theorem Change.apply_drawn (change : Change) {db : Directory} (drawn : ∀ camera ∈ db.cameras, camera.id ≠ .nil) :
    ∀ camera ∈ (change.apply db).cameras, camera.id ≠ .nil := by
  cases change with
  | role | sites => exact drawn
  | camera id site location =>
    intro camera held
    dsimp only [Change.apply, CameraAssignment.place] at held
    rw [Table.mem_modify] at held
    obtain ⟨old, member, rfl⟩ := held
    split <;> exact drawn old member

def Registry.change (registry : Registry) (change : Change) : Registry :=
  ⟨change.apply registry.tables, change.apply_drawn registry.drawn⟩

inductive Move where
  | change (change : Change)
  | connect (replica conn : Nat) (claims : Claims)
  | disconnect (replica conn : Nat)
  | refresh (replica : Nat) (answered : Nat → Bool)
  | broadcast (replica : Nat) (message : Message)
  | drain (replica : Nat) (dead : List Nat)
  | publish (waiting : Nat) (accepted : Bool)
  | deliver (publication replica : Nat) (dead : List Nat)

/-- One of the hubs moves on. -/
def Deployment.update (s : Deployment) (replica : Nat) (change : Hub → Hub) : Deployment :=
  { s with hubs := s.hubs.modify replica change }

/-- One of the hubs writes a message to its clients. -/
def Deployment.write (s : Deployment) (replica broadcast : Nat) (payload : Message) (dead : List Nat) : Deployment :=
  match s.hubs[replica]? with
  | none => s
  | some hub =>
    let written := (hub.addressed payload).filter fun row => !dead.contains row.1
    { s.update replica (·.writeToClients payload dead) with
      received := s.received ++ written.map fun row => ⟨replica, row.1, broadcast, payload, row.2⟩ }

/-- `Broadcast` up to the start of its goroutine. -/
def Deployment.broadcast (codec : Codec) (s : Deployment) (replica : Nat) (message : Message) : Deployment :=
  match s.hubs[replica]? with
  | none => s
  | some hub =>
    let number := s.broadcasts.length
    let data := hub.senderID.bind fun senderID => codec.marshal senderID message
    { s.update replica fun hub =>
        if hub.queue.length < capacity then { hub with queue := hub.queue ++ [(number, message)] } else hub with
      broadcasts := s.broadcasts ++ [(replica, message)]
      outbox := s.outbox ++ data.toList.map fun data => (number, data) }

/-- The body of the loop of `runBridgeSubscriber`. -/
def Deployment.relay (codec : Codec) (s : Deployment) (replica broadcast : Nat) (data : List Char) (dead : List Nat) :
    Deployment :=
  match (s.hubs[replica]?).bind Hub.senderID, codec.unmarshal data with
  | some senderID, some (sender, payload) =>
    if sender = senderID then s else s.write replica broadcast payload dead
  | _, _ => s

def step (codec : Codec) (s : Deployment) : Move → Deployment
  | .change change => { s with registry := s.registry.change change }
  | .connect replica conn claims =>
    match handleWebSocket s.registry.tables claims with
    | none => s
    | some client => s.update replica fun hub => { hub with clients := hub.clients.put (conn, client) }
  | .disconnect replica conn =>
    s.update replica fun hub => { hub with clients := hub.clients.remove fun row => row.1 = conn }
  | .refresh replica answered => s.update replica (·.refreshAllRBAC s.registry.tables answered)
  | .broadcast replica message => s.broadcast codec replica message
  | .drain replica dead =>
    match ((s.hubs[replica]?).map Hub.queue).getD [] with
    | [] => s
    | (number, message) :: _ =>
      (s.update replica fun hub => { hub with queue := hub.queue.tail }).write replica number message dead
  | .publish waiting accepted =>
    match s.outbox[waiting]? with
    | none => s
    | some entry =>
      { s with
        outbox := s.outbox.eraseIdx waiting
        published := if accepted then s.published ++ [entry] else s.published }
  | .deliver publication replica dead =>
    match s.published[publication]? with
    | none => s
    | some (number, data) =>
      -- Redis gives each subscriber a publication at most once
      if s.relayed.contains (publication, replica) then s
      else { s with relayed := (publication, replica) :: s.relayed }.relay codec replica number data dead

/-- Replicas that have just started, with the senders of their bridges. -/
def start (registry : Registry) (senders : List (Option String)) : Deployment :=
  { registry, hubs := senders.map fun senderID => { senderID } }

end Ironsight.Websocket
