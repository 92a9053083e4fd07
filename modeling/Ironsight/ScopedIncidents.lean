import Ironsight.EventReads
import Ironsight.RankedRows

/-! The incident list of a caller who sees some sites only. It is asked for site by site and
the answers are strung together, where one query with the sites in it would sort and limit
them all. -/
namespace Ironsight.ScopedIncidents
open Tables Uuid Access Soc EventReads RankedRows

/-- The walk over the map of sites, and how the query of each site meets rows of one time. -/
structure Env where
  order : MapOrder
  scan : String → Scan SecurityEvent

/-! ## Code -/

def listIncidents (scan : Scan SecurityEvent) (store : Store) (siteId severity : String) (limit : Nat) :
    Except String (List IncidentSummary) :=
  if '\x00' ∈ severity.toList then .error "ERROR: invalid byte sequence for encoding \"UTF8\": 0x00 (SQLSTATE 22021)"
  else .ok (((newestFirst SecurityEvent.ts (scan.arrange (store.events.rows.filter fun event =>
    (siteId = "" ∨ event.siteId = siteId) ∧ (severity = "" ∨ event.severity = severity)))).take limit).map (summarize store))

/-- The loop over `allowedIDs`. -/
def fanOut (env : Env) (store : Store) (severity : String) (limit : Nat) : List String → Except String (List IncidentSummary)
  | [] => .ok []
  | sid :: sids => do
    let rows ← listIncidents (env.scan sid) store sid severity limit
    let merged ← fanOut env store severity limit sids
    return rows ++ merged

/-- `HandleListIncidents` without `site_id`. -/
def handleListIncidents (env : Env) (store : Store) (caller : RestrictedCaller) (severity limit : String) :
    Reply (List IncidentSummary) :=
  let allowedIds := visibleIds store caller
  if allowedIds = [] then .json 200 []
  else match fanOut env store severity (limitOf limit) (env.order.arrange allowedIds) with
    | .error err => .error 500 err
    | .ok merged => .json 200 merged

/-! ## Expectation -/

/-- The store with the events of some sites only. -/
def onlySites (store : Store) (ids : List String) : Store :=
  { store with events := store.events.remove fun event => event.siteId ∉ ids }

/-- What `ListIncidents` may answer on a table that holds the caller's sites only. -/
def Expected (store : Store) (caller : RestrictedCaller) (severity limit : String) (reply : Reply (List IncidentSummary)) : Prop :=
  ∃ scan list, listIncidents scan (onlySites store (visibleIds store caller)) "" severity (limitOf limit) = .ok list ∧
    reply = .json 200 list

/-- The incidents that the caller may see and the filter lets through. -/
def incidents (store : Store) (caller : RestrictedCaller) (severity : String) : List SecurityEvent :=
  store.events.rows.filter fun event => event.siteId ∈ visibleIds store caller ∧ (severity = "" ∨ event.severity = severity)

section Answers
variable {env : Env} {store : Store} {caller : RestrictedCaller} {severity limit : String}

private theorem listIncidents_only (scan : Scan SecurityEvent) (n : Nat) :
    listIncidents scan (onlySites store (visibleIds store caller)) "" severity n =
      if '\x00' ∈ severity.toList then .error "ERROR: invalid byte sequence for encoding \"UTF8\": 0x00 (SQLSTATE 22021)"
      else .ok (((newestFirst SecurityEvent.ts (scan.arrange (incidents store caller severity))).take n).map (summarize store)) := by
  have selected : ((onlySites store (visibleIds store caller)).events.rows.filter fun event =>
      ("" = "" ∨ event.siteId = "") ∧ (severity = "" ∨ event.severity = severity)) = incidents store caller severity := by
    rw [onlySites, Table.remove, List.filter_filter]
    refine List.filter_congr fun event _ => ?_
    by_cases seen : event.siteId ∈ visibleIds store caller <;> simp [seen]
  rw [listIncidents, selected]
  rfl

/-- Expected are the first incidents in some order of their times. -/
theorem expected_iff {reply : Reply (List IncidentSummary)} : Expected store caller severity limit reply ↔
    '\x00' ∉ severity.toList ∧ ∃ ordered, Ranked SecurityEvent.ts (incidents store caller severity) ordered ∧
      reply = .json 200 ((ordered.take (limitOf limit)).map (summarize store)) := by
  simp only [Expected, listIncidents_only]
  constructor
  · rintro ⟨scan, list, answer, rfl⟩
    split_ifs at answer with stored
    cases answer
    exact ⟨stored, _, ranked_newest scan _, rfl⟩
  · rintro ⟨stored, ordered, ranked, rfl⟩
    obtain ⟨scan, delivers⟩ := exists_scan ranked
    refine ⟨scan, _, if_neg stored, ?_⟩
    rw [newestFirst, delivers]

/-- An expected list is within the limit and newest first. -/
theorem Expected.newest {list : List IncidentSummary} (expected : Expected store caller severity limit (.json 200 list)) :
    list.length ≤ limitOf limit ∧ list.Pairwise fun first second => second.ts ≤ first.ts := by
  obtain ⟨_, ordered, ranked, reply⟩ := expected_iff.mp expected
  cases reply
  rw [List.length_map]
  exact ⟨List.length_take_le _ _, List.pairwise_map.mpr (ranked.sorted.sublist (List.take_sublist _ _))⟩

/-- The answer for one site, before the limit. -/
private def answered (env : Env) (store : Store) (caller : RestrictedCaller) (severity sid : String) : List SecurityEvent :=
  newestFirst SecurityEvent.ts ((env.scan sid).arrange ((incidents store caller severity).filter fun event => event.siteId = sid))

private theorem incidents_of_site {sid : String} (seen : sid ∈ visibleIds store caller) :
    (store.events.rows.filter fun event => event.siteId = sid ∧ (severity = "" ∨ event.severity = severity)) =
      (incidents store caller severity).filter fun event => event.siteId = sid := by
  rw [incidents, List.filter_filter]
  refine List.filter_congr fun event _ => ?_
  rw [Bool.eq_iff_iff, Bool.and_eq_true, decide_eq_true_iff, decide_eq_true_iff, decide_eq_true_iff]
  exact ⟨fun ⟨same, filter⟩ => ⟨same, same ▸ seen, filter⟩, fun ⟨same, _, filter⟩ => ⟨same, filter⟩⟩

private theorem fanOut_eq (stored : '\x00' ∉ severity.toList) {n : Nat} {sids : List String}
    (named : ∀ sid ∈ sids, sid ≠ "" ∧ sid ∈ visibleIds store caller) :
    fanOut env store severity n sids = .ok ((fanned n (answered env store caller severity) sids).map (summarize store)) := by
  induction sids with
  | nil => rfl
  | cons sid sids ih =>
    obtain ⟨⟨name, seen⟩, later⟩ := List.forall_mem_cons.mp named
    have rows : listIncidents (env.scan sid) store sid severity n =
        .ok (((answered env store caller severity sid).take n).map (summarize store)) := by
      simp only [listIncidents, if_neg stored, name, false_or, answered, ← incidents_of_site seen]
    have parts : fanned n (answered env store caller severity) (sid :: sids) =
        (answered env store caller severity sid).take n ++ fanned n (answered env store caller severity) sids := List.flatMap_cons
    rw [fanOut, rows, ih later, parts, List.map_append]
    rfl

private theorem handleListIncidents_eq_fanned (stored : '\x00' ∉ severity.toList) (named : ∀ sid ∈ visibleIds store caller, sid ≠ "") :
    handleListIncidents env store caller severity limit = .json 200
      ((fanned (limitOf limit) (answered env store caller severity) (env.order.arrange (visibleIds store caller))).map (summarize store)) := by
  have perm := env.order.perm (visibleIds store caller)
  rw [handleListIncidents]
  by_cases none_ : visibleIds store caller = []
  · rw [none_] at perm ⊢
    rw [List.perm_nil.mp perm]
    rfl
  · rw [if_neg none_, fanOut_eq stored fun sid held => ⟨named sid (perm.mem_iff.mp held), perm.mem_iff.mp held⟩]

private theorem nodup_visibleIds : (visibleIds store caller).Nodup := by
  have active : ((activeSites store.toDirectory).map Site.id).Nodup :=
    store.sites.distinct.sublist (List.filter_sublist.map Site.id)
  have sorted (sites : List Site) (distinct : (sites.map Site.id).Nodup) : ((orderByName sites).map Site.id).Nodup :=
    ((List.perm_insertionSort _ sites).map Site.id).nodup_iff.mpr distinct
  rw [visibleIds, visibleSites, listSitesScoped]
  split_ifs
  · exact sorted _ active
  · exact sorted _ (active.sublist (List.filter_sublist.map Site.id))
  · exact sorted _ (active.sublist (List.filter_sublist.map Site.id))
  · exact List.nodup_nil

/-- The walk that meets the caller's sites in a given order. -/
private def walking (ids order : List String) (perm : order.Perm ids) : MapOrder where
  arrange := fun sids => if sids = ids then order else sids
  perm := fun sids => by
    split_ifs with same
    · exact same ▸ perm
    · exact .refl _

end Answers

/-- The list is as expected, whatever the order of the sites and of events of one time, exactly
if the incidents are of one site, or are no more than the limit and all of one time. -/
theorem handleListIncidents_expected_iff (db : Database) (caller : RestrictedCaller) (severity limit : String) :
    (∀ env, Expected db.toStore caller severity limit (handleListIncidents env db.toStore caller severity limit)) ↔
      '\x00' ∉ severity.toList ∧
        Plain SecurityEvent.ts SecurityEvent.siteId (limitOf limit) (incidents db.toStore caller severity) := by
  have named : ∀ sid ∈ visibleIds db.toStore caller, sid ≠ "" := by
    intro sid held
    obtain ⟨site, seen, rfl⟩ := List.mem_map.mp held
    exact db.siteNamed site (mem_listSitesScoped.mp seen).1
  have covered : ∀ event ∈ incidents db.toStore caller severity, event.siteId ∈ visibleIds db.toStore caller := fun event held =>
    (of_decide_eq_true (List.mem_filter.mp held).2).1
  constructor
  · intro always
    have plain : Env := ⟨⟨id, fun _ => .refl _⟩, fun _ => ⟨id, fun _ => .refl _⟩⟩
    have stored := (expected_iff.mp (always plain)).1
    have positive : 0 < limitOf limit := by
      rw [limitOf]
      split
      · split_ifs <;> omega
      · omega
    refine ⟨stored, of_fanned positive nodup_visibleIds covered (fun sid => ranked_newest (plain.scan sid) _) fun order perm => ?_⟩
    have expected := always ⟨walking _ order perm, plain.scan⟩
    rw [handleListIncidents_eq_fanned stored named, show MapOrder.arrange _ _ = order from if_pos rfl] at expected
    obtain ⟨short, sorted⟩ := expected.newest
    rw [List.length_map] at short
    exact ⟨short, List.pairwise_map.mp sorted⟩
  · rintro ⟨stored, plain⟩ env
    have perm := env.order.perm (visibleIds db.toStore caller)
    obtain ⟨ordered, ranked, same⟩ := fanned_ranked (perm.nodup_iff.mpr nodup_visibleIds)
      (fun event held => perm.mem_iff.mpr (covered event held))
      (fun sid => ranked_newest (env.scan sid) ((incidents db.toStore caller severity).filter fun event => event.siteId = sid)) plain
    refine expected_iff.mpr ⟨stored, ordered, ranked, ?_⟩
    rw [handleListIncidents_eq_fanned stored named, ← same]
    rfl

private theorem portal_limited : globalViewRoles .viewer = false := rfl

private def portal : RestrictedCaller where
  userId := "00000000-0000-0000-0000-00000000000a"
  username := "yard"
  role := .viewer
  organizationId := "co-1"
  restricted := portal_limited

/-- Two sites of one customer with an incident each, the quarry's a second later. -/
private def twoSites : Database where
  users := ⟨[⟨⟨10⟩, "yard", .viewer, "Yard", "", "", some "co-1", ["AA-100", "BB-200"], 0, 0, none⟩], by decide⟩
  sites := ⟨[⟨"AA-100", "Mill", "co-1", none⟩, ⟨"BB-200", "Quarry", "co-1", none⟩], by decide⟩
  cameras := .empty
  events := ⟨[{ id := "EVT-2026-0001", alarmId := "alarm-1", siteId := "AA-100", ts := 1000 },
    { id := "EVT-2026-0002", alarmId := "alarm-2", siteId := "BB-200", ts := 2000 }], by decide⟩
  incidents := .empty
  alarms := .empty
  eventSites := by decide +kernel
  siteNamed := by decide

private def asListed : Env := ⟨⟨id, List.Perm.refl⟩, fun _ => .inOrder⟩

/-- The mill's older incident comes before the quarry's, if the map gives the mill first. -/
theorem older_incident_first : handleListIncidents asListed twoSites.toStore portal "" "" =
      .json 200 (twoSites.events.rows.map (summarize twoSites.toStore)) ∧
    ¬ Expected twoSites.toStore portal "" "" (handleListIncidents asListed twoSites.toStore portal "" "") := by
  have answer : handleListIncidents asListed twoSites.toStore portal "" "" =
      .json 200 (twoSites.events.rows.map (summarize twoSites.toStore)) := by decide +kernel
  refine ⟨answer, fun expected => ?_⟩
  rw [answer] at expected
  exact absurd expected.newest.2 (by decide +kernel)

end Ironsight.ScopedIncidents
