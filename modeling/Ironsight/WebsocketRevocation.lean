import Ironsight.Websocket

/-! What a refresh does for connections that are already open. The allow-set of a
restricted client is looked up again, but the role comes from the claims of the ticket,
and a global view is never looked at. -/
namespace Ironsight.WebsocketRevocation
open Tables Uuid Access Runs Websocket

/-- The row of the user behind a connection. A single-sign-on identity has none. -/
def storedUser (db : Directory) (client : Client) : Option User :=
  (parse client.claims.userId).bind fun id => (getUserByID db id).toOption

/-- A new connection of the same user, with the role that is stored now. -/
def reconnected (db : Directory) (client : Client) (user : User) : Option Client :=
  handleWebSocket db { client.claims with role := user.role }

/-- Every client of the replica sees the cameras that a new connection would. -/
def UpToDate (s : Deployment) (replica : Nat) : Prop :=
  ∀ hub, s.hubs[replica]? = some hub → ∀ row ∈ hub.clients, ∀ user, storedUser s.registry.tables row.2 = some user →
    ∃ new, reconnected s.registry.tables row.2 user = some new ∧
      ∀ camera ∈ s.registry.tables.cameras, canSee (some row.2) camera.id = canSee (some new) camera.id

/-- No lookup of the refresh fails. -/
def LookupsSucceed (s : Deployment) (replica : Nat) (answered : Nat → Bool) : Prop :=
  ∀ hub, s.hubs[replica]? = some hub → ∀ row ∈ hub.clients, row.2.globalView = false →
    answered row.1 = true ∧ ∃ granted, authorizedCameraIDs s.registry.tables (some row.2.claims) = .ok granted

/-- The role in the claims and the stored one are both global or both restricted, or else
every camera is at a site that the user is assigned. -/
def SameReach (s : Deployment) (replica : Nat) : Prop :=
  ∀ hub, s.hubs[replica]? = some hub → ∀ row ∈ hub.clients, ∀ user, storedUser s.registry.tables row.2 = some user →
    globalViewRoles row.2.claims.role = globalViewRoles user.role ∨
      ∀ camera ∈ s.registry.tables.cameras, camera.id ∈ camerasAtSites s.registry.tables user.assignedSiteIds

section Lookup
variable {db : Directory} {client : Client} {user : User} {claims : Claims}

private theorem camerasAtSites_nil : camerasAtSites db [] = [] := by
  have none_chosen : (db.cameras.rows.filter fun camera => camera.siteId.any (([] : List String).contains ·)) = [] := by
    rw [List.filter_eq_nil_iff]
    intro camera _
    cases camera.siteId <;> simp
  rw [camerasAtSites, none_chosen, List.map_nil]

private theorem authorizedCameraIDs_global (db : Directory) (claims : Claims) (global : globalViewRoles claims.role = true) :
    authorizedCameraIDs db (some claims) = .ok ([], false) := by
  simp only [authorizedCameraIDs, global, if_true]

/-- A stored user with a restricted role gets the cameras at the assigned sites. -/
private theorem authorizedCameraIDs_restricted (claims : Claims) {id : UUID} (named : parse claims.userId = some id)
    (found : getUserByID db id = .ok user) (restricted : globalViewRoles claims.role = false) :
    authorizedCameraIDs db (some claims) = .ok (camerasAtSites db user.assignedSiteIds, true) := by
  simp only [authorizedCameraIDs, restricted, Bool.false_eq_true, if_false, named, found]
  split
  · rename_i unassigned
    rw [unassigned, camerasAtSites_nil]
  · rfl

private theorem authorizedCameraIDs_kind {ids : List UUID} {restricted : Bool}
    (granted : authorizedCameraIDs db (some claims) = .ok (ids, restricted)) :
    restricted = !globalViewRoles claims.role := by
  cases kind : globalViewRoles claims.role with
  | true =>
    rw [authorizedCameraIDs_global db claims kind] at granted
    cases granted
    rfl
  | false =>
    simp only [authorizedCameraIDs, kind, Bool.false_eq_true, if_false] at granted
    repeat' split at granted
    all_goals cases granted
    all_goals rfl

private theorem storedUser_found (stored : storedUser db client = some user) :
    ∃ id, parse client.claims.userId = some id ∧ getUserByID db id = .ok user := by
  obtain ⟨id, named, found⟩ := Option.bind_eq_some_iff.mp stored
  refine ⟨id, named, ?_⟩
  cases looked : getUserByID db id with
  | error => rw [looked] at found; cases found
  | ok other =>
    rw [looked] at found
    cases found
    rfl

/-- What a new connection sees. -/
private theorem reconnected_sees (stored : storedUser db client = some user) :
    ∃ new, reconnected db client user = some new ∧ ∀ camera : UUID, canSee (some new) camera =
      (globalViewRoles user.role || (camerasAtSites db user.assignedSiteIds).contains camera) := by
  obtain ⟨id, named, found⟩ := storedUser_found stored
  cases kind : globalViewRoles user.role with
  | true =>
    have granted := authorizedCameraIDs_global db { client.claims with role := user.role } kind
    exact ⟨_, by simp only [reconnected, handleWebSocket, granted]; rfl, fun camera => rfl⟩
  | false =>
    have granted := authorizedCameraIDs_restricted { client.claims with role := user.role } named found kind
    exact ⟨_, by simp only [reconnected, handleWebSocket, granted]; rfl, fun camera => rfl⟩

/-- The global view follows the claims of the ticket. -/
private def Frozen (client : Client) : Prop := client.globalView = globalViewRoles client.claims.role

private theorem handleWebSocket_frozen (connected : handleWebSocket db claims = some client) : Frozen client := by
  unfold handleWebSocket at connected
  split at connected
  · cases connected
  · rename_i ids restricted granted
    cases connected
    simp [Frozen, authorizedCameraIDs_kind granted]

private theorem refreshClient_claims (answered : Bool) : (refreshClient db answered client).claims = client.claims := by
  unfold refreshClient
  repeat' split
  all_goals rfl

/-- The promotion that the refresh looks for never happens: the role it looks up is the
one that made the view restricted. -/
private theorem refreshClient_frozen (frozen : Frozen client) (answered : Bool) :
    Frozen (refreshClient db answered client) := by
  unfold refreshClient
  split
  · exact frozen
  · rename_i restrictedView
    split
    · exact frozen
    · split
      · exact frozen
      · rename_i ids restricted granted
        have kind := authorizedCameraIDs_kind granted
        rw [← frozen, Bool.eq_false_iff.mpr restrictedView] at kind
        rw [kind]
        exact frozen

/-- What a client sees after its lookup. -/
private theorem refreshClient_sees (frozen : Frozen client) (stored : storedUser db client = some user)
    (lookup : client.globalView = false → answered = true) (camera : UUID) :
    canSee (some (refreshClient db answered client)) camera =
      (globalViewRoles client.claims.role || (camerasAtSites db user.assignedSiteIds).contains camera) := by
  obtain ⟨id, named, found⟩ := storedUser_found stored
  cases view : client.globalView with
  | true =>
    have kept : refreshClient db answered client = client := by simp only [refreshClient, view, if_true]
    rw [kept, ← frozen, view]
    simp only [canSee, view, if_true, Bool.true_or]
  | false =>
    have kind : globalViewRoles client.claims.role = false := by rw [← frozen, view]
    have granted := authorizedCameraIDs_restricted client.claims named found kind
    have refreshed : refreshClient db answered client =
        { client with allowedCameras := camerasAtSites db user.assignedSiteIds } := by
      simp [refreshClient, view, lookup view, granted]
    rw [refreshed, kind]
    simp only [canSee, view, Bool.false_eq_true, if_false, Bool.false_or]

end Lookup

section Histories
variable {codec : Codec} {s : Deployment}

private def AllFrozen (s : Deployment) : Prop :=
  ∀ (replica : Nat) hub, s.hubs[replica]? = some hub → ∀ row ∈ hub.clients, Frozen row.2

private theorem AllFrozen.update (frozen : AllFrozen s) (replica : Nat) {change : Hub → Hub}
    (keeps : ∀ hub, (∀ row ∈ hub.clients, Frozen row.2) → ∀ row ∈ (change hub).clients, Frozen row.2) :
    AllFrozen (s.update replica change) := by
  intro other hub found
  rw [Deployment.update, List.getElem?_modify] at found
  obtain ⟨old, held, rfl⟩ := Option.map_eq_some_iff.mp found
  split
  · exact keeps old (frozen other old held)
  · exact frozen other old held

private theorem AllFrozen.write (frozen : AllFrozen s) (replica number : Nat) (payload : Message) (dead : List Nat) :
    AllFrozen (s.write replica number payload dead) := by
  unfold Deployment.write
  split
  · exact frozen
  · exact frozen.update replica fun hub before row held => before row (Table.mem_remove.mp held).1

private theorem AllFrozen.step (frozen : AllFrozen s) (move : Move) : AllFrozen (step codec s move) := by
  cases move with
  | change => exact frozen
  | connect replica conn claims =>
    rw [Websocket.step]
    split
    · exact frozen
    · rename_i client connected
      refine frozen.update replica fun hub before row held => ?_
      rcases Table.mem_put.mp held with rfl | ⟨old, _⟩
      · exact handleWebSocket_frozen connected
      · exact before row old
  | disconnect replica conn =>
    exact frozen.update replica fun hub before row held => before row (Table.mem_remove.mp held).1
  | refresh replica answered =>
    refine frozen.update replica fun hub before row held => ?_
    dsimp only [Hub.refreshAllRBAC] at held
    rw [Table.mem_modify] at held
    obtain ⟨old, member, rfl⟩ := held
    exact refreshClient_frozen (before old member) _
  | broadcast replica message =>
    rw [Websocket.step, Deployment.broadcast]
    split
    · exact frozen
    · refine AllFrozen.update frozen replica fun hub before => ?_
      split
      · exact before
      · exact before
  | drain replica dead =>
    rw [Websocket.step]
    split
    · exact frozen
    · refine AllFrozen.write ?_ replica _ _ dead
      exact frozen.update replica fun _ before => before
  | publish waiting accepted =>
    rw [Websocket.step]
    split
    · exact frozen
    · exact frozen
  | deliver publication replica dead =>
    rw [Websocket.step]
    split
    · exact frozen
    · split
      · exact frozen
      · unfold Deployment.relay
        split
        · split
          · exact frozen
          · refine AllFrozen.write ?_ replica _ _ dead
            exact frozen
        · exact frozen

private theorem refreshed_hub {replica : Nat} {answered : Nat → Bool} :
    (step codec s (.refresh replica answered)).hubs[replica]? =
      (s.hubs[replica]?).map (·.refreshAllRBAC s.registry.tables answered) := by
  rw [Websocket.step, Deployment.update, List.getElem?_modify]
  cases s.hubs[replica]? <;> simp

/-- Two views that agree on the cameras at the assigned sites agree on all exactly if they
are of one kind, or nothing lies elsewhere. -/
private theorem same_views_iff (cameras : List Camera) (first second : Bool) (assigned : List UUID) :
    (∀ camera ∈ cameras, (first || assigned.contains camera.id) = (second || assigned.contains camera.id)) ↔
      first = second ∨ ∀ camera ∈ cameras, camera.id ∈ assigned := by
  cases first <;> cases second <;> simp [eq_comm]

/-- One client of the refresh. -/
private theorem refreshed_client_iff {db : Directory} {client : Client} {user : User} (answered : Bool)
    (frozen : Frozen client)
    (stored : storedUser db client = some user) (lookup : client.globalView = false → answered = true) :
    (∃ new, reconnected db client user = some new ∧
        ∀ camera ∈ db.cameras, canSee (some (refreshClient db answered client)) camera.id = canSee (some new) camera.id) ↔
      (globalViewRoles client.claims.role = globalViewRoles user.role ∨
        ∀ camera ∈ db.cameras, camera.id ∈ camerasAtSites db user.assignedSiteIds) := by
  obtain ⟨new, connected, sees⟩ := reconnected_sees stored
  have views := same_views_iff db.cameras.rows (globalViewRoles client.claims.role) (globalViewRoles user.role)
    (camerasAtSites db user.assignedSiteIds)
  refine Iff.trans ?_ views
  constructor
  · rintro ⟨other, found, same⟩ camera held
    rw [connected] at found
    cases found
    have equal := same camera held
    rwa [refreshClient_sees frozen stored lookup, sees] at equal
  · intro same
    refine ⟨new, connected, fun camera held => ?_⟩
    rw [refreshClient_sees frozen stored lookup, sees]
    exact same camera held

/-- One refresh, client by client. -/
private theorem upToDate_refresh_iff (frozen : AllFrozen s) {replica : Nat} {answered : Nat → Bool}
    (lookups : LookupsSucceed s replica answered) :
    UpToDate (step codec s (.refresh replica answered)) replica ↔ SameReach s replica := by
  have each (hub : Hub) (found : s.hubs[replica]? = some hub) (row : Nat × Client) (held : row ∈ hub.clients) (user : User)
      (stored : storedUser s.registry.tables row.2 = some user) :=
    refreshed_client_iff (answered row.1) (frozen replica hub found row held) stored
      fun view => (lookups hub found row held view).1
  constructor
  · intro current hub found row held user stored
    refine (each hub found row held user stored).mp ?_
    have refreshed := current (hub.refreshAllRBAC s.registry.tables answered) (by rw [refreshed_hub, found]; rfl)
      (row.1, refreshClient s.registry.tables (answered row.1) row.2) ?_ user ?_
    · rw [reconnected, refreshClient_claims] at refreshed
      exact refreshed
    · dsimp only [Hub.refreshAllRBAC]
      rw [Table.mem_modify]
      exact ⟨row, held, rfl⟩
    · rw [storedUser, refreshClient_claims]
      exact stored
  · intro reach later found row held user stored
    rw [refreshed_hub] at found
    obtain ⟨hub, before, rfl⟩ := Option.map_eq_some_iff.mp found
    dsimp only [Hub.refreshAllRBAC] at held
    rw [Table.mem_modify] at held
    obtain ⟨old, member, rfl⟩ := held
    simp only [if_true, storedUser, refreshClient_claims] at stored
    have refreshed := (each hub before old member user stored).mpr (reach hub before old member user stored)
    simp only [if_true, reconnected, refreshClient_claims]
    exact refreshed

private theorem exec_frozen (codec : Codec) (registry : Registry) (senders : List (Option String)) (moves : List Move) :
    AllFrozen (exec (step codec) (start registry senders) moves) := by
  refine exec_invariant (fun _ move frozen => frozen.step move) moves _ ?_
  intro other hub found row held
  rw [start, List.getElem?_map] at found
  obtain ⟨senderID, _, rfl⟩ := Option.map_eq_some_iff.mp found
  exact absurd held List.not_mem_nil

end Histories

/-- After any history and a refresh in which no lookup fails, the open connections of a
replica see what new ones would, exactly if no user has changed between a global and a
restricted role since the ticket, unless every camera is at an assigned site. -/
theorem up_to_date_iff_same_reach (codec : Codec) (registry : Registry) (senders : List (Option String)) (moves : List Move)
    (replica : Nat) (answered : Nat → Bool)
    (lookups : LookupsSucceed (exec (step codec) (start registry senders) moves) replica answered) :
    UpToDate (exec (step codec) (start registry senders) (moves ++ [.refresh replica answered])) replica ↔
      SameReach (exec (step codec) (start registry senders) moves) replica := by
  rw [exec_append, exec_cons, exec_nil]
  exact upToDate_refresh_iff (exec_frozen codec registry senders moves) lookups

/-! ## A role that changes after the ticket -/

private def noBridge : Codec := ⟨fun _ _ => none, fun _ => none⟩

private def enrolled (role : Role) : Registry where
  tables :=
    { users := ⟨[⟨⟨9⟩, "carla", role, "", "", "", none, [], 0, 0, none⟩], List.nodup_singleton _⟩
      sites := .empty
      cameras := ⟨[⟨⟨1⟩, "gate", "", "", some "S", "", none⟩], List.nodup_singleton _⟩ }
  drawn := by
    intro camera held
    obtain rfl := List.mem_singleton.mp held
    decide

/-- She connects with one role and has another when the refresh comes. -/
private def reassigned (first second : Role) : List Move :=
  [.connect 0 7 ⟨"00000000-0000-0000-0000-000000000009", "carla", first, "", "org"⟩, .change (.role ⟨9⟩ second 0)]

private theorem lookups_of {s : Deployment} (granted : ∀ hub ∈ s.hubs, ∀ row ∈ hub.clients, row.2.globalView = false →
    (authorizedCameraIDs s.registry.tables (some row.2.claims)).toOption.isSome = true) (replica : Nat) :
    LookupsSucceed s replica fun _ => true := by
  intro hub found row held view
  refine ⟨rfl, ?_⟩
  have some_granted := granted hub (List.mem_of_getElem? found) row held view
  cases answer : authorizedCameraIDs s.registry.tables (some row.2.claims) with
  | error => rw [answer] at some_granted; cases some_granted
  | ok ids => exact ⟨ids, rfl⟩

/-- A viewer who is made a customer while connected, after the refresh. -/
theorem viewer_made_customer_up_to_date :
    UpToDate (exec (step noBridge) (start (enrolled .viewer) [none]) (reassigned .viewer .customer ++ [.refresh 0 fun _ => true]))
      0 := by
  refine (up_to_date_iff_same_reach noBridge (enrolled .viewer) [none] (reassigned .viewer .customer) 0 (fun _ => true)
    (lookups_of (by decide +kernel) 0)).mpr fun hub found row held user stored => .inl ?_
  have all : ∀ hub ∈ (exec (step noBridge) (start (enrolled .viewer) [none]) (reassigned .viewer .customer)).hubs,
      ∀ row ∈ hub.clients, (storedUser (exec (step noBridge) (start (enrolled .viewer) [none])
        (reassigned .viewer .customer)).registry.tables row.2).all fun user =>
          globalViewRoles row.2.claims.role == globalViewRoles user.role := by
    decide +kernel
  have same := all hub (List.mem_of_getElem? found) row held
  rw [stored] at same
  simpa using same

/-- A demoted operator keeps the global view, and a promoted customer does not get it. -/
theorem role_changes_do_not_reach :
    (LookupsSucceed (exec (step noBridge) (start (enrolled .socOperator) [none]) (reassigned .socOperator .viewer)) 0
        (fun _ => true) ∧
      ¬ UpToDate (exec (step noBridge) (start (enrolled .socOperator) [none])
        (reassigned .socOperator .viewer ++ [.refresh 0 fun _ => true])) 0) ∧
    LookupsSucceed (exec (step noBridge) (start (enrolled .viewer) [none]) (reassigned .viewer .socOperator)) 0
        (fun _ => true) ∧
      ¬ UpToDate (exec (step noBridge) (start (enrolled .viewer) [none])
        (reassigned .viewer .socOperator ++ [.refresh 0 fun _ => true])) 0 := by
  have demoted := lookups_of (s := exec (step noBridge) (start (enrolled .socOperator) [none])
    (reassigned .socOperator .viewer)) (by decide +kernel) 0
  have promoted := lookups_of (s := exec (step noBridge) (start (enrolled .viewer) [none])
    (reassigned .viewer .socOperator)) (by decide +kernel) 0
  refine ⟨⟨demoted, fun current => ?_⟩, promoted, fun current => ?_⟩
  · rw [exec_append, exec_cons, exec_nil] at current
    have reach := (upToDate_refresh_iff (exec_frozen noBridge _ _ _) demoted).mp current
    have one := reach _ rfl _ List.mem_cons_self _ rfl
    exact absurd one (by decide +kernel)
  · rw [exec_append, exec_cons, exec_nil] at current
    have reach := (upToDate_refresh_iff (exec_frozen noBridge _ _ _) promoted).mp current
    have one := reach _ rfl _ List.mem_cons_self _ rfl
    exact absurd one (by decide +kernel)

end Ironsight.WebsocketRevocation
