import Mathlib.Algebra.Order.BigOperators.Group.List
import Ironsight.EventReads

/-! Noninterference of the read endpoints. Two databases that agree on what the
caller may see are compared request by request: the event list gives the same
answer only for a site the caller sees, the other two endpoints except for
names taken from cameras, and alarms, that the agreement leaves open. -/
namespace Ironsight.EventReadsProofs
open Tables Uuid Access Soc EventReads

/-- What an agreement covers beyond sites, events and incidents: the cameras
placed at the sites, and the alarms of the incidents. -/
structure Shared where
  cameras : Bool
  alarms : Bool

/-- Incidents of the caller's sites. -/
def visibleIncidents (store : Store) (caller : RestrictedCaller) : List Incident :=
  store.incidents.rows.filter fun incident => incident.siteId ∈ visibleIds store caller

/-- `other` agrees with `one` on the caller's row, its sites, and the events
and incidents of those sites. -/
structure Agree (shared : Shared) (caller : RestrictedCaller) (one other : Store) : Prop where
  user : ∀ uid, parse caller.userId = some uid → other.users.find? uid = one.users.find? uid
  sites : visibleSites other caller = visibleSites one caller
  events : other.events.rows.filter (fun event => event.siteId ∈ visibleIds one caller) =
    one.events.rows.filter (fun event => event.siteId ∈ visibleIds one caller)
  incidents : visibleIncidents other caller = visibleIncidents one caller
  alarms : shared.alarms = true →
    other.alarms.rows.filter (fun alarm => alarm.incidentId ∈ (visibleIncidents one caller).map Incident.id) =
      one.alarms.rows.filter (fun alarm => alarm.incidentId ∈ (visibleIncidents one caller).map Incident.id)
  cameras : shared.cameras = true →
    other.cameras.rows.filter (fun camera => camera.siteId.any (· ∈ visibleIds one caller)) =
      one.cameras.rows.filter (fun camera => camera.siteId.any (· ∈ visibleIds one caller))

/-- A camera reference that stays within the agreement: no camera could bear
the text, or the camera is placed at a visible site and those are shared. -/
def CameraConfined (shared : Shared) (caller : RestrictedCaller) (store : Store) (cameraId : String) : Prop :=
  ∀ id : UUID, id.text = cameraId → shared.cameras = true ∧
    ∃ camera ∈ store.cameras, camera.id = id ∧ ∃ site ∈ camera.siteId, site ∈ visibleIds store caller

/-- When a request is answered from what the agreement covers. -/
def Confined (shared : Shared) (caller : RestrictedCaller) (store : Store) : Request → Prop
  | .listSecurityEvents siteId => siteId ∈ visibleIds store caller
  | .listIncidents siteId severity limit =>
    ∀ site ∈ visibleIds store caller, siteId = "" ∨ site = siteId →
      ∀ event ∈ incidentEvents store site severity (limitOf limit),
        CameraConfined shared caller store event.cameraId
  | .getIncident id =>
    if isIncidentId id then
      ∀ incident ∈ visibleIncidents store caller, incident.id = id → shared.alarms = true
    else ∀ event ∈ store.events, event.id = id → event.siteId ∈ visibleIds store caller →
      CameraConfined shared caller store event.cameraId

/-! ## One store -/

theorem mem_visibleIds {store : Store} {caller : RestrictedCaller} {siteId : String} :
    siteId ∈ visibleIds store caller ↔ ∃ site ∈ visibleSites store caller, site.id = siteId := by
  simp [visibleIds]

private theorem visible_site {store : Store} {caller : RestrictedCaller} {site : Site}
    (seen : site ∈ visibleSites store caller) : site ∈ store.sites ∧ site.deletedAt = none :=
  ⟨(mem_listSitesScoped.mp seen).1, (mem_listSitesScoped.mp seen).2.1⟩

/-- The per-row check admits exactly the listed sites. -/
theorem admits_iff_visible (store : Store) (caller : RestrictedCaller) (siteId : String) :
    admits store caller siteId = true ↔ siteId ∈ visibleIds store caller := by
  rw [mem_visibleIds, visibleSites, ← canAccessSiteByID_iff_listed caller.restricted]
  unfold admits
  cases canAccessSiteByID store.toDirectory (some caller.toClaims) siteId <;> simp

theorem cameraNamed_eq_some {store : Store} {text : String} {camera : Camera} :
    cameraNamed store text = some camera ↔ camera ∈ store.cameras ∧ camera.id.text = text := by
  constructor
  · intro found
    exact ⟨List.mem_of_find?_eq_some found, by simpa using List.find?_some found⟩
  · rintro ⟨member, rfl⟩
    cases found : cameraNamed store camera.id.text with
    | none =>
      have absent := List.find?_eq_none.mp found camera member
      simp at absent
    | some other =>
      have same : other.id.text = camera.id.text := by simpa using List.find?_some found
      rw [Table.key_inj (List.mem_of_find?_eq_some found) member (UUID.text_injective same)]

theorem mem_visibleIncidents {store : Store} {caller : RestrictedCaller} {incident : Incident} :
    incident ∈ visibleIncidents store caller ↔
      incident ∈ store.incidents ∧ incident.siteId ∈ visibleIds store caller := by
  simp [visibleIncidents, Table.mem_def]

private theorem incident_shown {store : Store} {caller : RestrictedCaller} {incident : Incident}
    (numbered : isIncidentId incident.id = true)
    (seen : incident ∈ visibleIncidents store caller) :
    handleGetIncident store caller incident.id =
      .incident incident ((store.alarms.rows.filter fun alarm => alarm.incidentId = incident.id).insertionSort
        fun first second => first.ts ≤ second.ts) := by
  obtain ⟨held, visible⟩ := mem_visibleIncidents.mp seen
  simp only [handleGetIncident, numbered, if_true, getIncidentWithAlarms,
    Table.find?_eq_some.mpr ⟨held, rfl⟩, Option.map_some, (admits_iff_visible store caller _).mpr visible]

private theorem incident_hidden {store : Store} {caller : RestrictedCaller} {id : String}
    (numbered : isIncidentId id = true)
    (hidden : ∀ incident ∈ visibleIncidents store caller, incident.id ≠ id) :
    handleGetIncident store caller id = .notFound := by
  simp only [handleGetIncident, numbered, if_true, getIncidentWithAlarms]
  cases found : store.incidents.find? id with
  | none => rfl
  | some incident =>
    obtain ⟨held, rfl⟩ := Table.find?_eq_some.mp found
    have unseen : ¬ admits store caller incident.siteId = true := by
      rw [admits_iff_visible]
      exact fun visible => hidden incident (mem_visibleIncidents.mpr ⟨held, visible⟩) rfl
    simp [unseen]

private theorem event_shown {store : Store} {caller : RestrictedCaller} {event : SecurityEvent}
    (plain : ¬ isIncidentId event.id = true) (held : event ∈ store.events)
    (visible : event.siteId ∈ visibleIds store caller) :
    handleGetIncident store caller event.id = .detail (detail store event) := by
  simp [handleGetIncident, plain, Table.find?_eq_some.mpr ⟨held, rfl⟩,
    (admits_iff_visible store caller _).mpr visible]

private theorem event_hidden {store : Database} {caller : RestrictedCaller} {id : String}
    (plain : ¬ isIncidentId id = true)
    (hidden : ∀ event ∈ store.events, event.id = id → event.siteId ∉ visibleIds store.toStore caller) :
    handleGetIncident store.toStore caller id = .notFound := by
  simp only [handleGetIncident, plain, Bool.false_eq_true, if_false]
  cases found : store.events.find? id with
  | none => rfl
  | some event =>
    obtain ⟨held, same⟩ := Table.find?_eq_some.mp found
    obtain ⟨site, present, siteSame⟩ := store.eventSites event held
    have named : event.siteId ≠ "" := siteSame ▸ store.siteNamed site present
    have unseen : ¬ admits store.toStore caller event.siteId = true := by
      rw [admits_iff_visible]
      exact hidden event held same
    simp [named, unseen]

/-! ## Agreement carries the confined answers over -/

section Agreement
variable {shared : Shared} {caller : RestrictedCaller} {one other : Store}

theorem Agree.visible (agree : Agree shared caller one other) :
    visibleIds other caller = visibleIds one caller := by
  simp only [visibleIds, agree.sites]

private theorem filter_of_filter {α : Type} {wide narrow : α → Bool} {left right : List α}
    (same : left.filter wide = right.filter wide) (within : ∀ row, narrow row = true → wide row = true) :
    left.filter narrow = right.filter narrow := by
  have restrict (rows : List α) : rows.filter narrow = (rows.filter wide).filter narrow := by
    rw [List.filter_filter]
    apply List.filter_congr
    intro row _
    cases chosen : narrow row with
    | true => simp [within row chosen]
    | false => simp
  rw [restrict left, restrict right, same]

private theorem Agree.site_row (agree : Agree shared caller one other) {siteId : String}
    (seen : siteId ∈ visibleIds one caller) : other.sites.find? siteId = one.sites.find? siteId := by
  obtain ⟨site, listed, rfl⟩ := mem_visibleIds.mp seen
  have mine := (visible_site listed).1
  rw [← agree.sites] at listed
  rw [Table.find?_eq_some.mpr ⟨mine, rfl⟩, Table.find?_eq_some.mpr ⟨(visible_site listed).1, rfl⟩]

private theorem Agree.camera_name (agree : Agree shared caller one other) {cameraId : String}
    (confined : CameraConfined shared caller one cameraId) : cameraNamed other cameraId = cameraNamed one cameraId := by
  by_cases named : ∃ id : UUID, id.text = cameraId
  · obtain ⟨id, rfl⟩ := named
    obtain ⟨covered, camera, held, rfl, site, placed, seen⟩ := confined id rfl
    have listed : camera ∈ one.cameras.rows.filter
        (fun camera => camera.siteId.any (· ∈ visibleIds one caller)) := by
      simp only [List.mem_filter, Option.any_eq_true, decide_eq_true_eq]
      exact ⟨held, site, placed, seen⟩
    rw [← agree.cameras covered] at listed
    rw [cameraNamed_eq_some.mpr ⟨held, rfl⟩, cameraNamed_eq_some.mpr ⟨(List.mem_filter.mp listed).1, rfl⟩]
  · have nothing (store : Store) : cameraNamed store cameraId = none := by
      apply List.find?_eq_none.mpr
      intro camera _ same
      exact named ⟨camera.id, by simpa using same⟩
    rw [nothing, nothing]

private theorem Agree.listed_events (agree : Agree shared caller one other) {site severity : String} {limit : Nat}
    (seen : site ∈ visibleIds one caller) (named : site ≠ "") :
    incidentEvents other site severity limit = incidentEvents one site severity limit := by
  unfold incidentEvents
  rw [filter_of_filter agree.events]
  intro event chosen
  simp only [named, false_or, decide_eq_true_eq] at chosen ⊢
  exact chosen.1 ▸ seen

private theorem Agree.summaries (agree : Agree shared caller one other) {site severity : String} {limit : Nat}
    (seen : site ∈ visibleIds one caller) (named : site ≠ "")
    (confined : ∀ event ∈ incidentEvents one site severity limit, CameraConfined shared caller one event.cameraId) :
    listIncidents other site severity limit = listIncidents one site severity limit := by
  unfold listIncidents
  rw [agree.listed_events seen named]
  apply List.map_congr_left
  intro event listed
  have atSite : event.siteId = site := by
    have member := List.mem_of_mem_take listed
    simp only [newestFirst, List.mem_insertionSort, List.mem_filter, decide_eq_true_eq, named, false_or] at member
    exact member.2.1
  simp only [summarize, agree.camera_name (confined event listed), agree.site_row (atSite ▸ seen)]

private theorem Agree.incident_answer (agree : Agree shared caller one other) {id : String}
    (numbered : isIncidentId id = true)
    (confined : ∀ incident ∈ visibleIncidents one caller, incident.id = id → shared.alarms = true) :
    handleGetIncident other caller id = handleGetIncident one caller id := by
  by_cases seen : ∃ incident ∈ visibleIncidents one caller, incident.id = id
  · obtain ⟨incident, visible, rfl⟩ := seen
    have same := agree.alarms (confined incident visible rfl)
    rw [incident_shown numbered visible, incident_shown numbered (agree.incidents ▸ visible), filter_of_filter same]
    intro alarm chosen
    simp only [decide_eq_true_eq, List.mem_map] at chosen ⊢
    exact ⟨incident, visible, chosen.symm⟩
  · have hidden : ∀ incident ∈ visibleIncidents one caller, incident.id ≠ id :=
      fun incident visible same => seen ⟨incident, visible, same⟩
    rw [incident_hidden numbered hidden, incident_hidden numbered (agree.incidents ▸ hidden)]

private theorem Agree.event_mem (agree : Agree shared caller one other) {event : SecurityEvent}
    (visible : event.siteId ∈ visibleIds one caller) : event ∈ other.events ↔ event ∈ one.events := by
  have listed (store : Store) : event ∈ store.events ↔
      event ∈ store.events.rows.filter (fun event => event.siteId ∈ visibleIds one caller) := by
    simp [Table.mem_def, visible]
  rw [listed other, listed one, agree.events]

end Agreement

private theorem Agree.event_answer {shared : Shared} {caller : RestrictedCaller} {one other : Database}
    (agree : Agree shared caller one.toStore other.toStore) {id : String}
    (plain : ¬ isIncidentId id = true)
    (confined : ∀ event ∈ one.events, event.id = id → event.siteId ∈ visibleIds one.toStore caller →
      CameraConfined shared caller one.toStore event.cameraId) :
    handleGetIncident other.toStore caller id = handleGetIncident one.toStore caller id := by
  by_cases seen : ∃ event ∈ one.events, event.id = id ∧ event.siteId ∈ visibleIds one.toStore caller
  · obtain ⟨event, held, rfl, visible⟩ := seen
    rw [event_shown plain held visible,
      event_shown plain ((agree.event_mem visible).mpr held) (agree.visible ▸ visible)]
    simp only [detail, agree.camera_name (confined event held rfl visible), agree.site_row visible]
  · have hidden : ∀ event ∈ one.events, event.id = id → event.siteId ∉ visibleIds one.toStore caller :=
      fun event held same visible => seen ⟨event, held, same, visible⟩
    rw [event_hidden plain hidden, event_hidden plain]
    intro event held same visible
    rw [agree.visible] at visible
    exact hidden event ((agree.event_mem visible).mp held) same visible

/-- A confined request is answered alike on databases that agree. -/
theorem respond_of_agree (order : MapOrder) {shared : Shared} {caller : RestrictedCaller} {one other : Database}
    (agree : Agree shared caller one.toStore other.toStore) {request : Request}
    (confined : Confined shared caller one.toStore request) :
    respond order other.toStore caller request = respond order one.toStore caller request := by
  have named : ∀ site ∈ visibleIds one.toStore caller, site ≠ "" := by
    intro site seen
    obtain ⟨row, listed, rfl⟩ := mem_visibleIds.mp seen
    exact one.siteNamed row (visible_site listed).1
  cases request with
  | listSecurityEvents siteId =>
    have siteNamed := named siteId confined
    simp only [respond, listSecurityEvents]
    rw [filter_of_filter agree.events]
    intro event chosen
    simp only [siteNamed, false_or, decide_eq_true_eq] at chosen ⊢
    exact chosen ▸ confined
  | listIncidents siteId severity limit =>
    simp only [respond, handleListIncidents, agree.visible]
    by_cases given : siteId = ""
    · simp only [given, ne_eq, not_true_eq_false, if_false]
      congr 2
      apply List.flatMap_congr
      intro site listed
      have seen := (order.perm _).mem_iff.mp listed
      exact agree.summaries seen (named site seen) (confined site seen (.inl given))
    · by_cases seen : siteId ∈ visibleIds one.toStore caller
      · simp [given, seen, agree.summaries seen given (confined siteId seen (.inr rfl))]
      · simp [given, seen]
  | getIncident id =>
    simp only [respond]
    by_cases numbered : isIncidentId id = true
    · rw [Confined, if_pos numbered] at confined
      exact agree.incident_answer numbered confined
    · rw [Confined, if_neg numbered] at confined
      exact agree.event_answer numbered confined

/-! ## Unconfined answers differ somewhere -/

private theorem exists_fresh (texts : List String) : ∃ text : String, text ≠ "" ∧ text ∉ texts := by
  refine ⟨String.ofList (List.replicate ((texts.map String.length).sum + 1) 'x'), ?_, fun member => ?_⟩
  · intro empty
    have length := congrArg String.length empty
    simp at length
  · have bounded := List.le_sum_of_mem (List.mem_map_of_mem (f := String.length) member)
    simp at bounded

/-- A site that exists, if need be as a deleted row, leaves the live sites alone. -/
private theorem exists_hidden_site (sites : Table Site.id) {siteId : String} (named : siteId ≠ "")
    (allNamed : ∀ site ∈ sites, site.id ≠ "") :
    ∃ wider : Table Site.id, (∃ site ∈ wider, site.id = siteId) ∧ (∀ site ∈ sites, site ∈ wider) ∧
      (∀ site ∈ wider, site.id ≠ "") ∧
      (wider.rows.filter fun site => site.deletedAt = none) = sites.rows.filter fun site => site.deletedAt = none := by
  by_cases present : ∃ site ∈ sites, site.id = siteId
  · exact ⟨sites, present, fun _ held => held, allNamed, rfl⟩
  · let row : Site := ⟨siteId, "", "", some 0⟩
    have fresh : ∀ other ∈ sites, other.id ≠ row.id := fun other held same => present ⟨other, held, same⟩
    obtain ⟨wider, done⟩ := Table.insert?_of_fresh fresh
    refine ⟨wider, ⟨row, (Table.mem_insert? done).mpr (.inr rfl), rfl⟩,
      fun _ held => (Table.mem_insert? done).mpr (.inl held), ?_, ?_⟩
    · intro site member
      rcases (Table.mem_insert? done).mp member with old | rfl
      · exact allNamed site old
      · exact named
    · simp [Table.insert?_rows done, row]

private theorem visibleSites_congr {one other : Store} (caller : RestrictedCaller) (users : other.users = one.users)
    (live : (other.sites.rows.filter fun site => site.deletedAt = none) =
      one.sites.rows.filter fun site => site.deletedAt = none) :
    visibleSites other caller = visibleSites one caller := by
  have lookup : getUserByID other.toDirectory = getUserByID one.toDirectory := by
    funext id
    simp only [getUserByID, users]
  have scope : callerScope other.toDirectory (some caller.toClaims) =
      callerScope one.toDirectory (some caller.toClaims) := by
    simp only [callerScope, lookup]
  have active : activeSites other.toDirectory = activeSites one.toDirectory := live
  unfold visibleSites
  rw [scope]
  unfold listSitesScoped
  rw [active]

/-- An event more at a site the caller does not see. -/
private theorem exists_hidden_event (shared : Shared) (caller : RestrictedCaller) (db : Database) {siteId : String}
    (named : siteId ≠ "") (hidden : siteId ∉ visibleIds db.toStore caller) :
    ∃ (other : Database) (event : SecurityEvent), event.siteId = siteId ∧
      other.events.rows = db.events.rows ++ [event] ∧ Agree shared caller db.toStore other.toStore := by
  obtain ⟨wider, exists_, kept, allNamed, live⟩ := exists_hidden_site db.sites named db.siteNamed
  obtain ⟨id, _, unused⟩ := exists_fresh (db.events.rows.map SecurityEvent.id)
  let event : SecurityEvent := { id := id, alarmId := "", siteId := siteId }
  have fresh : ∀ other ∈ db.events, other.id ≠ event.id :=
    fun other held same => unused (List.mem_map.mpr ⟨other, held, same⟩)
  obtain ⟨events, done⟩ := Table.insert?_of_fresh fresh
  let other : Database :=
    { db.toStore with
      sites := wider
      events := events
      eventSites := by
        intro row member
        rcases (Table.mem_insert? done).mp member with old | rfl
        · obtain ⟨site, held, same⟩ := db.eventSites row old
          exact ⟨site, kept site held, same⟩
        · exact exists_
      siteNamed := allNamed }
  have sites : visibleSites other.toStore caller = visibleSites db.toStore caller :=
    visibleSites_congr caller rfl live
  have visible : visibleIds other.toStore caller = visibleIds db.toStore caller := by
    simp only [visibleIds, sites]
  refine ⟨other, event, rfl, Table.insert?_rows done, fun _ _ => rfl, sites, ?_, ?_, fun _ => rfl, fun _ => rfl⟩
  · simp [other, Table.insert?_rows done, event, hidden]
  · simp only [visibleIncidents, visible]
    rfl

private theorem events_leak (order : MapOrder) (shared : Shared) (caller : RestrictedCaller) (db : Database)
    {siteId : String} (hidden : siteId ∉ visibleIds db.toStore caller) :
    ∃ other : Database, Agree shared caller db.toStore other.toStore ∧
      respond order other.toStore caller (.listSecurityEvents siteId) ≠
        respond order db.toStore caller (.listSecurityEvents siteId) := by
  have target : ∃ place, place ≠ "" ∧ place ∉ visibleIds db.toStore caller ∧ (siteId = "" ∨ place = siteId) := by
    by_cases given : siteId = ""
    · obtain ⟨place, named, fresh⟩ := exists_fresh (visibleIds db.toStore caller)
      exact ⟨place, named, fresh, .inl given⟩
    · exact ⟨siteId, given, hidden, .inr rfl⟩
  obtain ⟨place, named, unseen, selected⟩ := target
  obtain ⟨other, event, atPlace, rows, agree⟩ := exists_hidden_event shared caller db named unseen
  refine ⟨other, agree, fun same => ?_⟩
  have chosen : siteId = "" ∨ event.siteId = siteId := by rwa [atPlace]
  have lengths := congrArg List.length (Response.events.inj same)
  simp [listSecurityEvents, newestFirst, rows, List.filter_append, chosen] at lengths

/-- The camera name that a response shows. -/
private def shownName (store : Store) (cameraId : String) : String :=
  ((cameraNamed store cameraId).map Camera.name).getD ""

private theorem shownName_of_mem (store : Store) {camera : Camera} (held : camera ∈ store.cameras) :
    shownName store camera.id.text = camera.name := by
  simp [shownName, cameraNamed_eq_some.mpr ⟨held, rfl⟩]

private theorem append_ne (name : String) : name ++ "x" ≠ name := by
  intro same
  have length := congrArg String.length same
  simp at length

private def rename (cameras : Table Camera.id) (id : UUID) : Table Camera.id :=
  cameras.modify (fun camera => camera.id = id) (fun camera => { camera with name := camera.name ++ "x" }) fun _ => rfl

private theorem mem_rename {cameras : Table Camera.id} {camera : Camera} (held : camera ∈ cameras) :
    { camera with name := camera.name ++ "x" } ∈ rename cameras camera.id :=
  Table.mem_modify.mpr ⟨camera, held, by simp⟩

/-- Renaming a camera outside the visible sites does not touch those at them. -/
private theorem filter_rename {cameras : Table Camera.id} {id : UUID} {visible : Camera → Bool}
    (outside : ∀ camera ∈ cameras, camera.id = id → visible camera = false)
    (bySite : ∀ camera name, visible { camera with name := name } = visible camera) :
    (rename cameras id).rows.filter visible = cameras.rows.filter visible := by
  simp only [rename, Table.modify, List.filter_map]
  have sameRows : cameras.rows.filter (visible ∘ fun camera =>
      if decide (camera.id = id) then { camera with name := camera.name ++ "x" } else camera) =
        cameras.rows.filter visible := by
    apply List.filter_congr
    intro camera _
    simp only [Function.comp_apply]
    split
    · exact bySite camera _
    · rfl
  rw [sameRows]
  conv => rhs; rw [← List.map_id (cameras.rows.filter visible)]
  apply List.map_congr_left
  intro camera member
  obtain ⟨held, seen⟩ := List.mem_filter.mp member
  have other : camera.id ≠ id := by
    intro same
    rw [outside camera held same] at seen
    cases seen
  simp [other]

/-- A camera reference that is not confined can change its name unnoticed. -/
private theorem exists_renamed_camera {shared : Shared} {caller : RestrictedCaller} {store : Store} {cameraId : String}
    (unconfined : ¬ CameraConfined shared caller store cameraId) :
    ∃ cameras : Table Camera.id, shownName { store with cameras := cameras } cameraId ≠ shownName store cameraId ∧
      Agree shared caller store { store with cameras := cameras } := by
  simp only [CameraConfined, not_forall] at unconfined
  obtain ⟨id, rfl, unshared⟩ := unconfined
  by_cases present : ∃ camera ∈ store.cameras, camera.id = id
  · obtain ⟨camera, held, rfl⟩ := present
    refine ⟨rename store.cameras camera.id, ?_, fun _ _ => rfl, rfl, rfl, rfl, fun _ => rfl, fun covered => ?_⟩
    · have shown := shownName_of_mem { store with cameras := rename store.cameras camera.id } (mem_rename held)
      rw [shownName_of_mem store held]
      exact fun same => append_ne camera.name (shown.symm.trans same)
    · apply filter_rename
      · intro row member same
        by_contra seen
        simp only [Bool.not_eq_false, Option.any_eq_true, decide_eq_true_eq] at seen
        exact unshared ⟨covered, row, member, same, seen⟩
      · intro row name
        rfl
  · let row : Camera := { id := id, name := "x", siteId := none }
    have fresh : ∀ other ∈ store.cameras, other.id ≠ row.id := fun other held same => present ⟨other, held, same⟩
    obtain ⟨cameras, done⟩ := Table.insert?_of_fresh fresh
    refine ⟨cameras, ?_, fun _ _ => rfl, rfl, rfl, rfl, fun _ => rfl, fun covered => ?_⟩
    · have before : cameraNamed store id.text = none := by
        apply List.find?_eq_none.mpr
        intro camera held same
        exact present ⟨camera, held, UUID.text_injective (by simpa using same)⟩
      have after : row ∈ cameras := (Table.mem_insert? done).mpr (.inr rfl)
      have shown := shownName_of_mem { store with cameras := cameras } after
      have unnamed : shownName store id.text = "" := by simp [shownName, before]
      rw [unnamed]
      exact fun same => absurd (shown.symm.trans same) (by simp [row])
    · simp [Table.insert?_rows done, row]

/-- The events behind one answer of `HandleListIncidents`. -/
private def listedEvents (order : MapOrder) (store : Store) (caller : RestrictedCaller)
    (siteId severity limit : String) : List SecurityEvent :=
  (if siteId ≠ "" then [siteId].filter (· ∈ visibleIds store caller) else order.arrange (visibleIds store caller)).flatMap
    fun site => incidentEvents store site severity (limitOf limit)

private theorem handleListIncidents_eq (order : MapOrder) (store : Store) (caller : RestrictedCaller)
    (siteId severity limit : String) : handleListIncidents order store caller siteId severity limit =
      .incidents ((listedEvents order store caller siteId severity limit).map (summarize store)) := by
  unfold handleListIncidents listedEvents
  by_cases given : siteId = ""
  · by_cases none_ : visibleIds store caller = []
    · have empty : order.arrange [] = [] := (order.perm []).eq_nil
      simp [given, none_, empty]
    · simp only [given, none_, ne_eq, not_true_eq_false, if_false, List.map_flatMap]
      rfl
  · by_cases seen : siteId ∈ visibleIds store caller
    · simp [given, seen, listIncidents]
    · simp [given, seen]

private theorem cameras_leak (order : MapOrder) {shared : Shared} {caller : RestrictedCaller} {db : Database}
    {siteId severity limit site : String} (seen : site ∈ visibleIds db.toStore caller)
    (asked : siteId = "" ∨ site = siteId) {event : SecurityEvent}
    (listed : event ∈ incidentEvents db.toStore site severity (limitOf limit))
    (unconfined : ¬ CameraConfined shared caller db.toStore event.cameraId) :
    ∃ other : Database, Agree shared caller db.toStore other.toStore ∧
      respond order other.toStore caller (.listIncidents siteId severity limit) ≠
        respond order db.toStore caller (.listIncidents siteId severity limit) := by
  obtain ⟨cameras, renamed, agree⟩ := exists_renamed_camera unconfined
  let other : Database := { db with cameras := cameras }
  refine ⟨other, agree, fun same => renamed ?_⟩
  have named : site ≠ "" := by
    obtain ⟨row, present, rfl⟩ := mem_visibleIds.mp seen
    exact db.siteNamed row (visible_site present).1
  have member : event ∈ listedEvents order db.toStore caller siteId severity limit := by
    unfold listedEvents
    refine List.mem_flatMap.mpr ⟨site, ?_, listed⟩
    rcases asked with rfl | rfl
    · simpa using (order.perm _).mem_iff.mpr seen
    · simp [named, seen]
  simp only [respond, handleListIncidents_eq] at same
  have rows := List.map_inj_left.mp (Response.incidents.inj same) event member
  exact congrArg IncidentSummary.cameraName rows

private theorem detail_leak (order : MapOrder) {shared : Shared} {caller : RestrictedCaller} {db : Database}
    {event : SecurityEvent} (plain : ¬ isIncidentId event.id = true) (held : event ∈ db.events)
    (visible : event.siteId ∈ visibleIds db.toStore caller)
    (unconfined : ¬ CameraConfined shared caller db.toStore event.cameraId) :
    ∃ other : Database, Agree shared caller db.toStore other.toStore ∧
      respond order other.toStore caller (.getIncident event.id) ≠
        respond order db.toStore caller (.getIncident event.id) := by
  obtain ⟨cameras, renamed, agree⟩ := exists_renamed_camera unconfined
  let other : Database := { db with cameras := cameras }
  refine ⟨other, agree, fun same => renamed ?_⟩
  have named : event.cameraId ≠ "" := by
    intro empty
    apply unconfined
    intro id text
    have parsed := parse_text id
    rw [text, empty, show parse "" = none by decide] at parsed
    cases parsed
  have after : handleGetIncident other.toStore caller event.id = .detail (detail other.toStore event) :=
    event_shown plain held (agree.visible ▸ visible)
  simp only [respond, after, event_shown plain held visible] at same
  have shown := congrArg IncidentDetail.cameraName (Response.detail.inj same)
  simp only [detail, named, if_false] at shown
  exact shown

private theorem alarms_leak (order : MapOrder) {shared : Shared} {caller : RestrictedCaller} {db : Database}
    {incident : Incident} (numbered : isIncidentId incident.id = true)
    (seen : incident ∈ visibleIncidents db.toStore caller) (unshared : ¬ shared.alarms = true) :
    ∃ other : Database, Agree shared caller db.toStore other.toStore ∧
      respond order other.toStore caller (.getIncident incident.id) ≠
        respond order db.toStore caller (.getIncident incident.id) := by
  obtain ⟨id, _, unused⟩ := exists_fresh (db.alarms.rows.map ActiveAlarm.id)
  let alarm : ActiveAlarm := { id := id, alarmCode := "", incidentId := incident.id, siteId := incident.siteId }
  have fresh : ∀ other ∈ db.alarms, other.id ≠ alarm.id :=
    fun other held same => unused (List.mem_map.mpr ⟨other, held, same⟩)
  obtain ⟨alarms, done⟩ := Table.insert?_of_fresh fresh
  let other : Database := { db with alarms := alarms }
  refine ⟨other, ⟨fun _ _ => rfl, rfl, rfl, rfl, fun covered => absurd covered unshared, fun _ => rfl⟩, fun same => ?_⟩
  have theirs : incident ∈ visibleIncidents other.toStore caller := seen
  simp only [respond, incident_shown numbered seen, incident_shown numbered theirs] at same
  have lengths := congrArg List.length (Response.incident.inj same).2
  simp [other, Table.insert?_rows done, List.filter_append, alarm] at lengths

/-- Every database that agrees gives the caller the same answer exactly if the
request is confined. -/
theorem reads_isolated_iff_confined (order : MapOrder) (shared : Shared) (caller : RestrictedCaller)
    (db : Database) (request : Request) :
    (∀ other : Database, Agree shared caller db.toStore other.toStore →
      respond order other.toStore caller request = respond order db.toStore caller request) ↔
      Confined shared caller db.toStore request := by
  constructor
  · intro isolated
    by_contra unconfined
    suffices leak : ∃ other : Database, Agree shared caller db.toStore other.toStore ∧
        respond order other.toStore caller request ≠ respond order db.toStore caller request by
      obtain ⟨other, agree, differ⟩ := leak
      exact differ (isolated other agree)
    cases request with
    | listSecurityEvents siteId => exact events_leak order shared caller db unconfined
    | listIncidents siteId severity limit =>
      simp only [Confined, not_forall] at unconfined
      obtain ⟨site, seen, asked, event, listed, loose⟩ := unconfined
      exact cameras_leak order seen asked listed loose
    | getIncident id =>
      by_cases numbered : isIncidentId id = true
      · simp only [Confined, numbered, if_true, not_forall] at unconfined
        obtain ⟨incident, seen, rfl, unshared⟩ := unconfined
        exact alarms_leak order numbered seen unshared
      · simp only [Confined, numbered, Bool.false_eq_true, if_false, not_forall] at unconfined
        obtain ⟨event, held, rfl, visible, loose⟩ := unconfined
        exact detail_leak order numbered held visible loose
  · intro confined other agree
    exact respond_of_agree order agree confined

private def viewer : RestrictedCaller where
  userId := "00000000-0000-0000-0000-00000000000a"
  username := "yard"
  role := .viewer
  organizationId := "co-1"
  restricted := rfl

private def listOrder : MapOrder := ⟨id, fun _ => .refl _⟩

private def quietTenants : Database where
  users := ⟨[⟨⟨10⟩, "yard", .viewer, "Yard", "", "", some "co-1", ["AA-100"], 0, 0, none⟩], by decide⟩
  sites := ⟨[⟨"AA-100", "Mill", "co-1", none⟩, ⟨"BB-200", "Quarry", "co-2", none⟩], by decide⟩
  cameras := .empty
  events := .empty
  incidents := .empty
  alarms := .empty
  eventSites := fun _ member => by cases member
  siteNamed := by decide

private def busyNeighbour : Database :=
  { quietTenants with
    events := ⟨[{ id := "EVT-2026-0001", alarmId := "alarm-1", siteId := "BB-200" }], by decide⟩
    eventSites := by decide +kernel }

/-- Another organisation's event shows up in the caller's event list although
the two databases agree on everything the caller may see. -/
theorem neighbour_event_listed :
    Agree ⟨true, true⟩ viewer quietTenants.toStore busyNeighbour.toStore ∧
      respond listOrder busyNeighbour.toStore viewer (.listSecurityEvents "") ≠
        respond listOrder quietTenants.toStore viewer (.listSecurityEvents "") := by
  refine ⟨⟨fun _ _ => rfl, rfl, ?_, rfl, fun _ => rfl, fun _ => rfl⟩, ?_⟩
  · decide +kernel
  · decide +kernel

end Ironsight.EventReadsProofs
