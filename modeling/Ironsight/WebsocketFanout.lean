import Mathlib.Data.List.Nodup
import Ironsight.Websocket

/-! Fan-out without duplicates and without leaks. A broadcast reaches the clients of a
replica by one way only: through the queue on the replica it was made on, where the
echo of its publication is recognised by the sender, and through that publication on
the others. The camera it is routed by is read off the value of the message, so it is
the same on both sides of the envelope. -/
namespace Ironsight.WebsocketFanout
open Tables Uuid Access Runs JsonReader Websocket

/-! ## The routing camera of a message -/

/-- The value of a member; of several with one key the last. -/
def member (key : String) : Tree → Option Tree
  | .object members => (members.reverse.find? fun found => found.1 = key).map Prod.snd
  | _ => none

/-- A camera identifier in the text of a value. -/
def cameraID : Tree → Option UUID
  | .string value => parse value
  | _ => none

/-- The top-level `camera_id`, else `data.camera_id`. A top-level one of another shape
hides the nested one. -/
def routingID (value : Tree) : Option UUID :=
  match member "camera_id" value with
  | some found => cameraID found
  | none => ((member "data" value).bind (member "camera_id")).bind cameraID

private theorem parse_empty : parse "" = none := by decide +kernel

private theorem unmarshalString_parse (value : Tree) : (unmarshalString value).bind parse = cameraID value := by
  cases value <;> simp [unmarshalString, cameraID, parse_empty]

private theorem find?_put {table : Table (Prod.fst : String × Tree → String)} {row : String × Tree} {key : String} :
    (table.put row).find? key = if row.1 = key then some row else table.find? key := by
  split
  · rename_i same
    exact Table.find?_eq_some.mpr ⟨Table.mem_put.mpr (.inl rfl), same⟩
  · rename_i differs
    cases found : table.find? key with
    | none =>
      refine Table.find?_eq_none.mpr fun other held => ?_
      rcases Table.mem_put.mp held with rfl | ⟨old, _⟩
      · exact differs
      · exact Table.find?_eq_none.mp found other old
    | some other =>
      obtain ⟨held, same⟩ := Table.find?_eq_some.mp found
      exact Table.find?_eq_some.mpr ⟨Table.mem_put.mpr (.inr ⟨held, fun clash => differs (clash.symm.trans same)⟩), same⟩

private theorem find?_foldl_put (members : List (String × Tree)) (key : String) :
    (members.foldl Table.put (.empty : Table (Prod.fst : String × Tree → String))).find? key =
      members.reverse.find? fun found => found.1 = key := by
  induction members using List.reverseRecOn with
  | nil => rfl
  | append_singleton members last ih =>
    rw [List.foldl_append, List.foldl_cons, List.foldl_nil, find?_put, ih, List.reverse_append, List.reverse_singleton,
      List.singleton_append, List.find?_cons]
    by_cases same : last.1 = key <;> simp [same]

/-- The map holds what the members say. -/
private theorem unmarshalMap_member {value : Tree} {map : Table (Prod.fst : String × Tree → String)}
    (read : unmarshalMap value = some map) (key : String) : (map.find? key).map Prod.snd = member key value := by
  cases value with
  | null =>
    cases read
    rfl
  | object members =>
    cases read
    rw [find?_foldl_put, member]
  | _ => cases read

private theorem member_of_unreadable {value : Tree} (unread : unmarshalMap value = none) (key : String) :
    member key value = none := by
  cases value with
  | object => cases unread
  | _ => rfl

/-- Only the value of a message decides where it goes. -/
theorem routeKeyFromMessage_eq (raw : Message) :
    routeKeyFromMessage raw = ((readDocument raw).bind routingID).getD .nil := by
  unfold routeKeyFromMessage
  cases readDocument raw with
  | none => rfl
  | some value =>
    cases read : unmarshalMap value with
    | none =>
      have bare := member_of_unreadable read
      simp [read, routingID, bare]
    | some map =>
      have top := unmarshalMap_member read "camera_id"
      have nested := unmarshalMap_member read "data"
      simp only [Option.bind_some, read, routingID, ← top, ← nested]
      cases map.find? "camera_id" with
      | some found => simp [unmarshalString_parse]
      | none =>
        cases map.find? "data" with
        | none => rfl
        | some found =>
          cases inner : unmarshalMap found.2 with
          | none => simp [inner, member_of_unreadable inner]
          | some map =>
            simp only [Option.map_none, Option.map_some, Option.bind_some, inner, ← unmarshalMap_member inner]
            cases map.find? "camera_id" with
            | none => rfl
            | some found => simp [unmarshalString_parse]

/-! ## Allow-sets -/

/-- The allow-set names cameras, and `uuid.Nil` is none. -/
def Scoped (hub : Hub) : Prop := ∀ row ∈ hub.clients, UUID.nil ∉ row.2.allowedCameras

/-- What a client may be sent: anything with a global view, else a message that is routed
by a camera of its allow-set. -/
def Permitted (client : Client) (message : Message) : Prop :=
  client.globalView = true ∨
    ∃ camera, (readDocument message).bind routingID = some camera ∧ camera ∈ client.allowedCameras

private theorem authorizedCameraIDs_drawn (registry : Registry) {claims : Option Claims} {ids : List UUID}
    {restricted : Bool} (granted : authorizedCameraIDs registry.tables claims = .ok (ids, restricted)) :
    UUID.nil ∉ ids := by
  unfold authorizedCameraIDs at granted
  repeat' split at granted
  all_goals cases granted
  all_goals first
    | exact List.not_mem_nil
    | intro held
      obtain ⟨camera, known, same⟩ := List.mem_map.mp held
      exact registry.drawn camera (List.mem_of_mem_filter known) same

private theorem handleWebSocket_drawn (registry : Registry) {claims : Claims} {client : Client}
    (connected : handleWebSocket registry.tables claims = some client) : UUID.nil ∉ client.allowedCameras := by
  unfold handleWebSocket at connected
  split at connected
  · cases connected
  · rename_i ids restricted granted
    cases connected
    exact authorizedCameraIDs_drawn registry granted

private theorem refreshClient_drawn (registry : Registry) (answered : Bool) {client : Client}
    (before : UUID.nil ∉ client.allowedCameras) :
    UUID.nil ∉ (refreshClient registry.tables answered client).allowedCameras := by
  unfold refreshClient
  split
  · exact before
  · split
    · exact before
    · split
      · exact before
      · rename_i ids restricted granted
        split
        · exact List.not_mem_nil
        · exact authorizedCameraIDs_drawn registry granted

theorem permitted_of_canSee {client : Client} {message : Message} (drawn : UUID.nil ∉ client.allowedCameras)
    (sees : canSee (some client) (routeKeyFromMessage message) = true) : Permitted client message := by
  simp only [canSee] at sees
  split at sees
  · rename_i sees_all
    exact .inl sees_all
  · rw [routeKeyFromMessage_eq] at sees
    have held := List.contains_iff_mem.mp sees
    cases routed : (readDocument message).bind routingID with
    | none =>
      rw [routed] at held
      exact absurd held drawn
    | some camera =>
      rw [routed] at held
      exact .inr ⟨camera, routed, held⟩

/-! ## The invariant -/

/-- Where a received message comes from: a broadcast of this replica, or a publication
that Redis has handed to it. -/
structure Accounted (s : Deployment) (receipt : Receipt) : Prop where
  source : ∃ origin message, s.broadcasts[receipt.broadcast]? = some (origin, message) ∧
    readDocument receipt.payload = readDocument message ∧ Permitted receipt.client message ∧
    (origin = receipt.replica ∨ ∃ publication data, s.published[publication]? = some (receipt.broadcast, data) ∧
      (publication, receipt.replica) ∈ s.relayed)

/-- The replica that a broadcast was made on, and the envelope it went out in. -/
def Sent (codec : Codec) (s : Deployment) (entry : Nat × List Char) : Prop :=
  ∃ origin message sender, s.broadcasts[entry.1]? = some (origin, message) ∧
    (s.hubs[origin]?).bind Hub.senderID = some sender ∧ codec.marshal sender message = some entry.2

structure Sound (codec : Codec) (s : Deployment) : Prop where
  views : ∀ (replica : Nat) hub, s.hubs[replica]? = some hub → Scoped hub
  queued : ∀ (replica : Nat) hub, s.hubs[replica]? = some hub → ∀ entry ∈ hub.queue,
    s.broadcasts[entry.1]? = some (replica, entry.2) ∧
      ∀ receipt ∈ s.received, receipt.broadcast = entry.1 → receipt.replica ≠ replica
  queuedOnce : ∀ (replica : Nat) hub, s.hubs[replica]? = some hub → (hub.queue.map Prod.fst).Nodup
  sent : ∀ entry ∈ s.outbox ++ s.published, Sent codec s entry
  sentOnce : ((s.outbox ++ s.published).map Prod.fst).Nodup
  received : ∀ receipt ∈ s.received, Accounted s receipt
  receivedOnce : (s.received.map fun receipt => (receipt.replica, receipt.conn, receipt.broadcast)).Nodup

/-- What a hub may do by itself: drop queued messages and take new views. -/
structure Quiet (change : Hub → Hub) : Prop where
  sender : ∀ hub, (change hub).senderID = hub.senderID
  queue : ∀ hub, (change hub).queue.Sublist hub.queue
  views : ∀ hub, Scoped hub → Scoped (change hub)

section Steps
variable {codec : Codec} {s : Deployment}

private theorem update_sender {change : Hub → Hub} (sender : ∀ hub, (change hub).senderID = hub.senderID)
    (replica origin : Nat) : ((s.update replica change).hubs[origin]?).bind Hub.senderID =
      (s.hubs[origin]?).bind Hub.senderID := by
  rw [Deployment.update, List.getElem?_modify]
  cases s.hubs[origin]? with
  | none => rfl
  | some hub =>
    show (if replica = origin then change hub else hub).senderID = hub.senderID
    split
    · exact sender hub
    · rfl

private theorem update_hub {change : Hub → Hub} {replica other : Nat} {hub : Hub}
    (found : (s.update replica change).hubs[other]? = some hub) :
    ∃ old, s.hubs[other]? = some old ∧ hub = if replica = other then change old else old := by
  rw [Deployment.update, List.getElem?_modify] at found
  obtain ⟨old, held, rfl⟩ := Option.map_eq_some_iff.mp found
  exact ⟨old, held, rfl⟩

/-- A hub that only drops messages and takes new views keeps everything. -/
private theorem Sound.update (sound : Sound codec s) {change : Hub → Hub} (quiet : Quiet change) (replica : Nat) :
    Sound codec (s.update replica change) where
  views other hub found := by
    obtain ⟨old, held, rfl⟩ := update_hub found
    have before := sound.views other old held
    split
    · exact quiet.views old before
    · exact before
  queued other hub found entry member := by
    obtain ⟨old, held, rfl⟩ := update_hub found
    refine sound.queued other old held entry ?_
    split at member
    · exact (quiet.queue old).subset member
    · exact member
  queuedOnce other hub found := by
    obtain ⟨old, held, rfl⟩ := update_hub found
    have before := sound.queuedOnce other old held
    split
    · exact before.sublist ((quiet.queue old).map _)
    · exact before
  sent entry member := by
    obtain ⟨origin, message, sender, made, known, written⟩ := sound.sent entry member
    exact ⟨origin, message, sender, made, (update_sender quiet.sender replica origin).trans known, written⟩
  sentOnce := sound.sentOnce
  received receipt member := ⟨(sound.received receipt member).source⟩
  receivedOnce := sound.receivedOnce

private theorem writeToClients_quiet (payload : Message) (dead : List Nat) :
    Quiet (·.writeToClients payload dead) where
  sender _ := rfl
  queue _ := List.Sublist.refl _
  views _ before row held := before row (Table.mem_remove.mp held).1

/-- The receipts that one write adds. -/
private theorem write_received {replica : Nat} {hub : Hub} (number : Nat) (payload : Message) (dead : List Nat)
    (found : s.hubs[replica]? = some hub) : ∃ written : List (Nat × Client),
      s.write replica number payload dead =
        { s.update replica (·.writeToClients payload dead) with
          received := s.received ++ written.map fun row => ⟨replica, row.1, number, payload, row.2⟩ } ∧
      (written.map Prod.fst).Nodup ∧
      ∀ row ∈ written, row ∈ hub.clients ∧ canSee (some row.2) (routeKeyFromMessage payload) = true := by
  refine ⟨(hub.addressed payload).filter fun row => !dead.contains row.1, by simp only [Deployment.write, found], ?_, ?_⟩
  · exact hub.clients.distinct.sublist ((List.filter_sublist.trans List.filter_sublist).map _)
  · intro row held
    have addressed := List.mem_of_mem_filter held
    exact ⟨List.mem_of_mem_filter addressed, by simpa using List.of_mem_filter addressed⟩

/-- A replica that writes a message it has not written before, and that does not wait in
its queue, keeps everything. -/
private theorem Sound.write (sound : Sound codec s) {replica number origin : Nat} {payload message : Message}
    (made : s.broadcasts[number]? = some (origin, message)) (same : readDocument payload = readDocument message)
    (fresh : ∀ receipt ∈ s.received, receipt.broadcast = number → receipt.replica ≠ replica)
    (unqueued : ∀ hub, s.hubs[replica]? = some hub → ∀ entry ∈ hub.queue, entry.1 ≠ number)
    (handed : origin = replica ∨ ∃ (publication : Nat) (data : List Char),
      s.published[publication]? = some (number, data) ∧ (publication, replica) ∈ s.relayed) (dead : List Nat) :
    Sound codec (s.write replica number payload dead) := by
  cases found : s.hubs[replica]? with
  | none =>
    rw [Deployment.write, found]
    exact sound
  | some hub =>
    obtain ⟨written, after, distinct, shown⟩ := write_received number payload dead found
    have quiet := sound.update (writeToClients_quiet payload dead) replica
    rw [after]
    refine ⟨quiet.views, ?_, quiet.queuedOnce, quiet.sent, quiet.sentOnce, ?_, ?_⟩
    · intro other later held entry member
      obtain ⟨put, waiting⟩ := quiet.queued other later held entry member
      refine ⟨put, fun receipt recorded => ?_⟩
      rcases List.mem_append.mp recorded with old | new
      · exact waiting receipt old
      · obtain ⟨row, _, rfl⟩ := List.mem_map.mp new
        rintro sameNumber rfl
        obtain ⟨before, known, rfl⟩ := update_hub held
        exact unqueued before known entry ((by simpa [Hub.writeToClients] using member) : entry ∈ before.queue) sameNumber.symm
    · intro receipt recorded
      rcases List.mem_append.mp recorded with old | new
      · exact ⟨(sound.received receipt old).source⟩
      · obtain ⟨row, held, rfl⟩ := List.mem_map.mp new
        obtain ⟨client, sees⟩ := shown row held
        have permitted := permitted_of_canSee (sound.views replica hub found row client) sees
        rw [Permitted, same] at permitted
        exact ⟨origin, message, made, same, permitted, handed⟩
    · rw [List.map_append]
      refine List.Nodup.append sound.receivedOnce ?_ ?_
      · rw [List.map_map]
        have lifted := distinct.map fun (first second : Nat) (equal : (replica, first, number) = (replica, second, number)) =>
          (Prod.mk.inj (Prod.mk.inj equal).2).1
        rwa [List.map_map] at lifted
      · intro key old new
        obtain ⟨receipt, recorded, rfl⟩ := List.mem_map.mp old
        obtain ⟨added, held, equal⟩ := List.mem_map.mp new
        obtain ⟨row, _, rfl⟩ := List.mem_map.mp held
        simp only [Prod.mk.injEq] at equal
        exact fresh receipt recorded equal.2.2.symm equal.1.symm

private theorem connect_quiet {conn : Nat} {claims : Claims} {client : Client}
    (connected : handleWebSocket s.registry.tables claims = some client) :
    Quiet fun hub => { hub with clients := hub.clients.put (conn, client) } where
  sender _ := rfl
  queue _ := List.Sublist.refl _
  views _ before row held := by
    rcases Table.mem_put.mp held with rfl | ⟨old, _⟩
    · exact handleWebSocket_drawn s.registry connected
    · exact before row old

private theorem disconnect_quiet (conn : Nat) :
    Quiet fun hub => { hub with clients := hub.clients.remove fun row => row.1 = conn } where
  sender _ := rfl
  queue _ := List.Sublist.refl _
  views _ before row held := before row (Table.mem_remove.mp held).1

private theorem refresh_quiet (answered : Nat → Bool) :
    Quiet (·.refreshAllRBAC s.registry.tables answered) where
  sender _ := rfl
  queue _ := List.Sublist.refl _
  views hub before row held := by
    dsimp only [Hub.refreshAllRBAC] at held
    rw [Table.mem_modify] at held
    obtain ⟨old, member, rfl⟩ := held
    exact refreshClient_drawn s.registry _ (before old member)

private theorem getElem?_append_some {α : Type} {earlier : List α} {n : Nat} {value : α} (held : earlier[n]? = some value)
    (later : List α) : (earlier ++ later)[n]? = some value := by
  rw [List.getElem?_append_left (List.getElem?_eq_some_iff.mp held).1, held]

/-- What is already known of a broadcast says that it is not the next one. -/
private theorem not_next {n : Nat} {made : Nat × Message} (held : s.broadcasts[n]? = some made) :
    n ≠ s.broadcasts.length :=
  Nat.ne_of_lt (List.getElem?_eq_some_iff.mp held).1

variable (codec s) in
/-- What a broadcast writes: the message at the end of the replica's queue, unless that is full,
and at most one envelope. -/
private structure Broadcasts (hub : Hub) (message : Message) (change : Hub → Hub) (added : List (Nat × List Char)) : Prop where
  sender : ∀ hub, (change hub).senderID = hub.senderID
  clients : ∀ hub, (change hub).clients = hub.clients
  queue : ∀ hub, (change hub).queue = hub.queue ∨ (change hub).queue = hub.queue ++ [(s.broadcasts.length, message)]
  single : (added.map Prod.fst).Nodup
  envelopes : ∀ entry ∈ added, entry.1 = s.broadcasts.length ∧
    ∃ senderID, hub.senderID = some senderID ∧ codec.marshal senderID message = some entry.2

variable (codec) in
private theorem broadcast_effect {replica : Nat} {hub : Hub} (message : Message) (found : s.hubs[replica]? = some hub) :
    ∃ (change : Hub → Hub) (added : List (Nat × List Char)),
      s.broadcast codec replica message =
        { s.update replica change with
          broadcasts := s.broadcasts ++ [(replica, message)]
          outbox := s.outbox ++ added } ∧
      Broadcasts codec s hub message change added := by
  refine ⟨fun hub => if hub.queue.length < capacity then
      { hub with queue := hub.queue ++ [(s.broadcasts.length, message)] } else hub,
    (hub.senderID.bind fun senderID => codec.marshal senderID message).toList.map fun data => (s.broadcasts.length, data),
    by simp only [Deployment.broadcast, found], fun hub => ?_, fun hub => ?_, fun hub => ?_, ?_, fun entry member => ?_⟩
  · split <;> rfl
  · split <;> rfl
  · split
    · exact .inr rfl
    · exact .inl rfl
  · cases hub.senderID.bind fun senderID => codec.marshal senderID message <;> simp
  · obtain ⟨data, held, rfl⟩ := List.mem_map.mp member
    exact ⟨rfl, Option.bind_eq_some_iff.mp (Option.mem_toList.mp held)⟩

section Broadcast
variable {replica : Nat} {hub : Hub} {message : Message} {change : Hub → Hub} {added : List (Nat × List Char)}

/-- The broadcasts so far stay where they are. -/
private theorem broadcast_grown {n : Nat} {made : Nat × Message} (held : s.broadcasts[n]? = some made) :
    (s.broadcasts ++ [(replica, message)])[n]? = some made :=
  getElem?_append_some held _

private theorem broadcast_next :
    (s.broadcasts ++ [(replica, message)])[s.broadcasts.length]? = some (replica, message) := by
  simp

private theorem Sound.broadcast_queued (sound : Sound codec s) (made : Broadcasts codec s hub message change added)
    (other : Nat) (later : Hub) (held : (s.update replica change).hubs[other]? = some later) :
    ∀ entry ∈ later.queue, (s.broadcasts ++ [(replica, message)])[entry.1]? = some (other, entry.2) ∧
      ∀ receipt ∈ s.received, receipt.broadcast = entry.1 → receipt.replica ≠ other := by
  intro entry member
  obtain ⟨old, known, rfl⟩ := update_hub held
  have kept (waiting : entry ∈ old.queue) := sound.queued other old known entry waiting
  split at member
  · rename_i here
    rcases made.queue old with same | longer
    · rw [same] at member
      exact ⟨broadcast_grown (kept member).1, (kept member).2⟩
    · rw [longer] at member
      rcases List.mem_append.mp member with waiting | new
      · exact ⟨broadcast_grown (kept waiting).1, (kept waiting).2⟩
      · rw [List.mem_singleton.mp new, ← here]
        refine ⟨broadcast_next, fun receipt recorded number => ?_⟩
        obtain ⟨origin, text, made, _⟩ := (sound.received receipt recorded).source
        exact absurd number (not_next made)
  · exact ⟨broadcast_grown (kept member).1, (kept member).2⟩

private theorem Sound.broadcast_queuedOnce (sound : Sound codec s) (made : Broadcasts codec s hub message change added)
    (other : Nat) (later : Hub) (held : (s.update replica change).hubs[other]? = some later) :
    (later.queue.map Prod.fst).Nodup := by
  obtain ⟨old, known, rfl⟩ := update_hub held
  have before := sound.queuedOnce other old known
  split
  · rcases made.queue old with same | longer
    · rw [same]
      exact before
    · rw [longer, List.map_append]
      refine List.Nodup.append before (List.nodup_singleton _) fun number waiting new => ?_
      obtain ⟨entry, member, rfl⟩ := List.mem_map.mp waiting
      exact not_next (sound.queued other old known entry member).1 (List.mem_singleton.mp new)
  · exact before

/-- No envelope of the new broadcast was there before. -/
private theorem Sound.broadcast_sentOnce (sound : Sound codec s) (made : Broadcasts codec s hub message change added) :
    ((s.outbox ++ added ++ s.published).map Prod.fst).Nodup := by
  have rearranged : (s.outbox ++ added ++ s.published).Perm (s.outbox ++ s.published ++ added) := by
    rw [List.append_assoc, List.append_assoc]
    exact List.perm_append_comm.append_left _
  refine (rearranged.map Prod.fst).nodup_iff.mpr ?_
  rw [List.map_append]
  refine List.Nodup.append sound.sentOnce made.single fun number earlier new => ?_
  obtain ⟨entry, member, rfl⟩ := List.mem_map.mp earlier
  obtain ⟨other, held, same⟩ := List.mem_map.mp new
  obtain ⟨origin, text, senderID, before, _⟩ := sound.sent entry member
  exact not_next before (same.symm.trans (made.envelopes other held).1)

end Broadcast

private theorem Sound.broadcast (sound : Sound codec s) (replica : Nat) (message : Message) :
    Sound codec (s.broadcast codec replica message) := by
  cases found : s.hubs[replica]? with
  | none =>
    rw [Deployment.broadcast, found]
    exact sound
  | some hub =>
    obtain ⟨change, added, after, made⟩ := broadcast_effect codec message found
    rw [after]
    refine ⟨?views, sound.broadcast_queued made, sound.broadcast_queuedOnce made, ?sent, sound.broadcast_sentOnce made,
      ?received, sound.receivedOnce⟩
    case views =>
      intro other later held row member
      obtain ⟨old, known, rfl⟩ := update_hub held
      split at member
      · exact sound.views other old known row (made.clients old ▸ member)
      · exact sound.views other old known row member
    case sent =>
      intro entry member
      have whole : entry ∈ s.outbox ++ s.published ∨ entry ∈ added := by
        simp only [List.mem_append] at member ⊢
        tauto
      rcases whole with earlier | new
      · obtain ⟨origin, text, senderID, before, named, written⟩ := sound.sent entry earlier
        exact ⟨origin, text, senderID, broadcast_grown before, (update_sender made.sender replica origin).trans named, written⟩
      · obtain ⟨number, senderID, named, written⟩ := made.envelopes entry new
        refine ⟨replica, message, senderID, number ▸ broadcast_next, ?_, written⟩
        exact (update_sender made.sender replica replica).trans (by rw [found]; exact named)
    case received =>
      intro receipt recorded
      obtain ⟨origin, text, before, rest⟩ := (sound.received receipt recorded).source
      exact ⟨origin, text, broadcast_grown before, rest⟩

private theorem Sound.publish (sound : Sound codec s) (waiting : Nat) (accepted : Bool) :
    Sound codec (step codec s (.publish waiting accepted)) := by
  cases found : s.outbox[waiting]? with
  | none =>
    rw [step, found]
    exact sound
  | some entry =>
    obtain ⟨inside, rfl⟩ := List.getElem?_eq_some_iff.mp found
    have moved : (s.outbox[waiting] :: s.outbox.eraseIdx waiting).Perm s.outbox := List.getElem_cons_eraseIdx_perm inside
    have left : ∃ lost, (s.outbox.eraseIdx waiting ++
        (if accepted then s.published ++ [s.outbox[waiting]] else s.published) ++ lost).Perm (s.outbox ++ s.published) := by
      cases accepted with
      | true =>
        refine ⟨[], ?_⟩
        rw [List.append_nil, if_pos rfl, ← List.append_assoc]
        exact (List.perm_append_singleton _ _).trans (List.cons_append ▸ moved.append_right _)
      | false =>
        refine ⟨[s.outbox[waiting]], ?_⟩
        exact (List.perm_append_singleton _ _).trans (List.cons_append ▸ moved.append_right _)
    obtain ⟨lost, rearranged⟩ := left
    have kept (publication : Nat) (entry : Nat × List Char) (held : s.published[publication]? = some entry) :
        (if accepted then s.published ++ [s.outbox[waiting]] else s.published)[publication]? = some entry := by
      split
      · exact getElem?_append_some held _
      · exact held
    rw [step, found]
    refine ⟨sound.views, sound.queued, sound.queuedOnce, ?_, ?_, ?_, sound.receivedOnce⟩
    · intro entry member
      exact sound.sent entry (rearranged.subset (List.mem_append_left _ member))
    · have once := ((rearranged.map Prod.fst).nodup_iff).mpr sound.sentOnce
      rw [List.map_append] at once
      exact once.of_append_left
    · intro receipt recorded
      obtain ⟨origin, text, made, same, permitted, handed⟩ := (sound.received receipt recorded).source
      refine ⟨origin, text, made, same, permitted, handed.imp id ?_⟩
      rintro ⟨publication, data, held, relayed⟩
      exact ⟨publication, data, kept _ _ held, relayed⟩

private theorem drop_quiet : Quiet fun hub => { hub with queue := hub.queue.tail } where
  sender _ := rfl
  queue _ := List.tail_sublist _
  views _ before := before

/-- The head of a queue has not been written here, and does not wait behind itself. -/
private theorem Sound.drain (sound : Sound codec s) (replica : Nat) (dead : List Nat) :
    Sound codec (step codec s (.drain replica dead)) := by
  cases found : s.hubs[replica]? with
  | none =>
    rw [step, found]
    exact sound
  | some hub =>
    cases waiting : hub.queue with
    | nil =>
      simp only [step, found, Option.map_some, Option.getD_some, waiting]
      exact sound
    | cons entry rest =>
      obtain ⟨number, message⟩ := entry
      simp only [step, found, Option.map_some, Option.getD_some, waiting]
      have member : (number, message) ∈ hub.queue := by
        rw [waiting]
        exact List.mem_cons_self
      obtain ⟨made, unwritten⟩ := sound.queued replica hub found (number, message) member
      have once := sound.queuedOnce replica hub found
      rw [waiting] at once
      refine (sound.update drop_quiet replica).write made rfl unwritten (fun later held other behind => ?_) (.inl rfl) dead
      obtain ⟨old, known, rfl⟩ := update_hub held
      rw [found] at known
      cases known
      rw [if_pos rfl, waiting] at behind
      rintro same
      exact (List.nodup_cons.mp once).1 (List.mem_map.mpr ⟨other, behind, same⟩)

/-- A broadcast is published once. -/
private theorem Sound.published_once (sound : Sound codec s) {first second number : Nat} {text data : List Char}
    (held : s.published[first]? = some (number, text)) (found : s.published[second]? = some (number, data)) :
    first = second := by
  have once := sound.sentOnce
  rw [List.map_append] at once
  have inside : first < (s.published.map Prod.fst).length := by
    rw [List.length_map]
    exact (List.getElem?_eq_some_iff.mp held).1
  refine (List.getElem?_inj inside once.of_append_right).mp ?_
  rw [List.getElem?_map, List.getElem?_map, held, found]
  rfl

/-- A publication is relayed to each subscriber once, and to its own sender not at all. -/
private theorem Sound.deliver (survives : codec.Survives) (sound : Sound codec s) (publication replica : Nat)
    (dead : List Nat) :
    Sound codec (step codec s (.deliver publication replica dead)) := by
  cases found : s.published[publication]? with
  | none =>
    rw [step, found]
    exact sound
  | some entry =>
    obtain ⟨number, data⟩ := entry
    simp only [step, found]
    split
    · exact sound
    · rename_i unhanded
      have noted : Sound codec { s with relayed := (publication, replica) :: s.relayed } := by
        refine ⟨sound.views, sound.queued, sound.queuedOnce, sound.sent, sound.sentOnce, ?_, sound.receivedOnce⟩
        intro receipt recorded
        obtain ⟨origin, text, made, same, permitted, handed⟩ := (sound.received receipt recorded).source
        refine ⟨origin, text, made, same, permitted, handed.imp id ?_⟩
        rintro ⟨earlier, text, held, relayed⟩
        exact ⟨earlier, text, held, List.mem_cons_of_mem _ relayed⟩
      unfold Deployment.relay
      split
      · rename_i senderID sender payload named read
        split
        · exact noted
        · rename_i foreign
          obtain ⟨origin, message, writer, made, known, written⟩ :=
            sound.sent (number, data) (List.mem_append_right _ (List.mem_of_getElem? found))
          obtain ⟨same, value⟩ := survives writer message data written (sender, payload) read
          -- the echo comes back to the replica whose sender the envelope names
          have elsewhere : origin ≠ replica := by
            rintro rfl
            rw [known] at named
            cases named
            exact foreign same
          refine noted.write made value (fun receipt recorded sameNumber here => ?_)
            (fun hub held entry waiting sameNumber => ?_) (.inr ⟨publication, data, found, List.mem_cons_self⟩) dead
          · obtain ⟨source, text, first, _, _, own | ⟨earlier, text, held, handed⟩⟩ := (sound.received receipt recorded).source
            · rw [sameNumber, made] at first
              cases first
              exact elsewhere (own.trans here)
            · have twice : earlier = publication := sound.published_once (sameNumber ▸ held) found
              rw [twice, here] at handed
              exact unhanded (List.contains_iff_mem.mpr handed)
          · have first := (sound.queued replica hub held entry waiting).1
            rw [sameNumber, made] at first
            cases first
            exact elsewhere rfl
      · exact noted

private theorem Sound.step (survives : codec.Survives) (sound : Sound codec s) (move : Move) :
    Sound codec (step codec s move) := by
  cases move with
  | change =>
    exact ⟨sound.views, sound.queued, sound.queuedOnce, sound.sent, sound.sentOnce,
      fun receipt recorded => ⟨(sound.received receipt recorded).source⟩, sound.receivedOnce⟩
  | connect replica conn claims =>
    rw [Websocket.step]
    split
    · exact sound
    · exact sound.update (connect_quiet ‹_›) replica
  | disconnect replica conn => exact sound.update (disconnect_quiet conn) replica
  | refresh replica answered => exact sound.update (refresh_quiet answered) replica
  | broadcast replica message => exact sound.broadcast replica message
  | drain replica dead => exact sound.drain replica dead
  | publish waiting accepted => exact sound.publish waiting accepted
  | deliver publication replica dead => exact sound.deliver survives publication replica dead

end Steps

private theorem start_sound (codec : Codec) (registry : Registry) (senders : List (Option String)) :
    Sound codec (start registry senders) := by
  have fresh (replica : Nat) (hub : Hub) (found : (start registry senders).hubs[replica]? = some hub) :
      ∃ senderID, hub = { senderID } := by
    rw [start, List.getElem?_map] at found
    obtain ⟨senderID, _, rfl⟩ := Option.map_eq_some_iff.mp found
    exact ⟨senderID, rfl⟩
  refine ⟨?_, ?_, ?_, fun _ held => absurd held List.not_mem_nil, List.nodup_nil,
    fun _ held => absurd held List.not_mem_nil, List.nodup_nil⟩
  · intro replica hub found row held
    obtain ⟨senderID, rfl⟩ := fresh replica hub found
    exact absurd held List.not_mem_nil
  · intro replica hub found entry held
    obtain ⟨senderID, rfl⟩ := fresh replica hub found
    exact absurd held List.not_mem_nil
  · intro replica hub found
    obtain ⟨senderID, rfl⟩ := fresh replica hub found
    exact List.nodup_nil

/-- In every run of any number of replicas, each connection receives each broadcast at
most once, and what a restricted client receives was at that moment routed by a camera
of its allow-set, whichever replica it came from. -/
theorem fan_out_once_and_permitted (codec : Codec) (survives : codec.Survives) (registry : Registry)
    (senders : List (Option String)) (moves : List Move) :
    ((exec (step codec) (start registry senders) moves).received.map fun receipt =>
        (receipt.replica, receipt.conn, receipt.broadcast)).Nodup ∧
      ∀ receipt ∈ (exec (step codec) (start registry senders) moves).received, ∃ origin message,
        (exec (step codec) (start registry senders) moves).broadcasts[receipt.broadcast]? = some (origin, message) ∧
        readDocument receipt.payload = readDocument message ∧ Permitted receipt.client message := by
  have sound : Sound codec (exec (step codec) (start registry senders) moves) :=
    exec_invariant (fun _ move sound => sound.step survives move) moves _ (start_sound codec registry senders)
  refine ⟨sound.receivedOnce, fun receipt recorded => ?_⟩
  obtain ⟨origin, message, made, same, permitted, _⟩ := (sound.received receipt recorded).source
  exact ⟨origin, message, made, same, permitted⟩

/-! ## A restricted client on the other replica -/

private def alarm : Message := "\x7b\"camera_id\":\"00000000-0000-0000-0000-000000000001\"\x7d".toList

private def envelope : List Char :=
  "\x7b\"s\":\"00112233aabbccdd\",\"p\":\x7b\"camera_id\":\"00000000-0000-0000-0000-000000000001\"\x7d\x7d".toList

private def bridge : Codec where
  marshal sender payload := if sender = "00112233aabbccdd" ∧ payload = alarm then some envelope else none
  unmarshal data := if data = envelope then some ("00112233aabbccdd", alarm) else none

private theorem bridge_survives : bridge.Survives := by
  intro sender payload data written found read
  obtain ⟨⟨rfl, rfl⟩, rfl⟩ : (sender = "00112233aabbccdd" ∧ payload = alarm) ∧ envelope = data := by
    simpa [bridge] using written
  obtain rfl : ("00112233aabbccdd", alarm) = found := by simpa [bridge] using read
  exact ⟨rfl, rfl⟩

private def guarded : Registry where
  tables :=
    { users := ⟨[⟨⟨9⟩, "carla", .customer, "", "", "", none, ["S"], 0, 0, none⟩], by decide⟩
      sites := .empty
      cameras := ⟨[⟨⟨1⟩, "gate", "", "", some "S", "", none⟩], by decide⟩ }
  drawn := by decide

private def carla : Claims := ⟨"00000000-0000-0000-0000-000000000009", "carla", .customer, "", "org"⟩

private def relayed : List Move :=
  [.connect 1 7 carla, .broadcast 0 alarm, .drain 0 [], .publish 0 true, .deliver 0 0 [], .deliver 0 1 [], .deliver 0 1 []]

/-- The alarm of one replica reaches the client of the other one, once. -/
theorem alarm_relayed_once :
    ((exec (step bridge) (start guarded [some "00112233aabbccdd", some "ddccbbaa33221100"]) relayed).received.map
      fun receipt => (receipt.replica, receipt.conn, receipt.broadcast)) = [(1, 7, 0)] ∧
    ((exec (step bridge) (start guarded [some "00112233aabbccdd", some "ddccbbaa33221100"]) relayed).received.map
      fun receipt => (receipt.replica, receipt.conn, receipt.broadcast)).Nodup := by
  refine ⟨?_, (fan_out_once_and_permitted bridge bridge_survives guarded
    [some "00112233aabbccdd", some "ddccbbaa33221100"] relayed).1⟩
  unfold relayed bridge
  rw [show alarm = _ from String.toList_ofList, show envelope = _ from String.toList_ofList]
  decide +kernel

end Ironsight.WebsocketFanout
