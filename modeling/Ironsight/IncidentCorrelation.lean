import Ironsight.AlarmDelivery

/-! Whether the alarms of one burst share an incident. A goroutine looks for the
newest open incident of its site and opens one if it finds none; the lookup and
the insert are two statements. The alarms of a burst end up in one incident as
long as no goroutine looks while another one of the site has looked and not yet
written what it decided. -/
namespace Ironsight.IncidentCorrelation
open Tables Runs Access Soc AlarmPipeline AlarmDelivery

/-! ## What a goroutine is about to write -/

/-- The draft a goroutine works on. -/
def draftOf : Thread → Option Draft
  | .findIncident draft | .nextIncidentID draft | .insertIncident draft _ | .attachAlarm draft _
  | .nextAlarmCode draft _ _ | .insertAlarm draft _ _ _ | .raised draft _ => some draft
  | _ => none

/-- The goroutine found no incident at the site and has not inserted one yet. -/
def opening (site : String) : Thread → Option String
  | .nextIncidentID draft | .insertIncident draft _ => if draft.siteId = site then some site else none
  | _ => none

/-- The incident that the goroutine found at the site and has not updated yet. -/
def attaching (site : String) : Thread → Option String
  | .attachAlarm draft id => if draft.siteId = site then some id else none
  | _ => none

/-- The incident that a goroutine of the site goes by. -/
def chosenAt (site : String) : Thread → Option String
  | .attachAlarm draft id | .nextAlarmCode draft id _ | .insertAlarm draft id _ _ | .raised draft id =>
    if draft.siteId = site then some id else none
  | _ => none

/-- The alarms of the site lie within five minutes of one another. -/
def Burst (site : String) (first : Nat) (pool : Pipeline) : Prop :=
  ∀ thread ∈ pool.threads, ∀ draft ∈ draftOf thread, draft.siteId = site →
    first ≤ draft.now ∧ (draft.now : Int) ≤ first + incidentCorrelationWindow

instance (site : String) (first : Nat) : DecidablePred (Burst site first) := fun pool =>
  inferInstanceAs (Decidable (∀ thread ∈ pool.threads, ∀ draft ∈ draftOf thread, draft.siteId = site →
    first ≤ draft.now ∧ (draft.now : Int) ≤ first + incidentCorrelationWindow))

/-- No incident of the site is acknowledged. -/
def Unacknowledged (site : String) (pool : Pipeline) (_ : Env) (thread : Thread) : Prop :=
  match thread with
  | .ackIncident id => ∀ incident ∈ pool.shared.incidents, incident.id = id → incident.siteId ≠ site
  | _ => True

/-- No goroutine of the site looks for an incident while another one is opening
one, nor while another one holds an incident that is out of its sight until the
update. -/
def Settled (site : String) (pool : Pipeline) (_ : Env) (thread : Thread) : Prop :=
  match thread with
  | .findIncident draft => draft.siteId = site → (∀ other ∈ pool.threads, opening site other = none) ∧
      ∀ other ∈ pool.threads, ∀ id ∈ attaching site other, ∀ incident ∈ pool.shared.incidents, incident.id = id →
        (draft.now : Int) - incidentCorrelationWindow ≤ incident.lastAlarmTs
  | _ => True

instance unacknowledgedDecidable (site : String) (pool : Pipeline) (env : Env) :
    (thread : Thread) → Decidable (Unacknowledged site pool env thread)
  | .ackIncident id =>
    inferInstanceAs (Decidable (∀ incident ∈ pool.shared.incidents, incident.id = id → incident.siteId ≠ site))
  | .callback _ | .dropped | .getCamera _ | .unassigned | .findIncident _ | .nextIncidentID _ | .insertIncident _ _
  | .attachAlarm _ _ | .nextAlarmCode _ _ _ | .insertAlarm _ _ _ _ | .deleteIncident _ | .lost | .raised _ _
  | .ackAlarms _ | .replied _ => isTrue trivial

instance settledDecidable (site : String) (pool : Pipeline) (env : Env) :
    (thread : Thread) → Decidable (Settled site pool env thread)
  | .findIncident draft => inferInstanceAs (Decidable (draft.siteId = site →
      (∀ other ∈ pool.threads, opening site other = none) ∧
        ∀ other ∈ pool.threads, ∀ id ∈ attaching site other, ∀ incident ∈ pool.shared.incidents, incident.id = id →
          (draft.now : Int) - incidentCorrelationWindow ≤ incident.lastAlarmTs))
  | .callback _ | .dropped | .getCamera _ | .unassigned | .nextIncidentID _ | .insertIncident _ _
  | .attachAlarm _ _ | .nextAlarmCode _ _ _ | .insertAlarm _ _ _ _ | .deleteIncident _ | .lost | .raised _ _
  | .ackIncident _ | .ackAlarms _ | .replied _ => isTrue trivial

/-- All alarms raised at the site are in one incident. -/
def OneIncident (site : String) (pool : Pipeline) : Prop :=
  ∀ first second left right, .raised first left ∈ pool.threads → .raised second right ∈ pool.threads →
    first.siteId = site → second.siteId = site → left = right

/-- No alarm is lost, those of the site are all in one incident at any time, and
every goroutine is through after at most eight statements. -/
structure BurstShared (site : String) (world : World) (moves : List (Move Request Env)) : Prop where
  grouped : Throughout pipeline.step (fun pool => Delivered pool ∧ OneIncident site pool) ⟨world, []⟩ moves
  ends : ∀ (thread : Nat) current, (exec pipeline.step ⟨world, []⟩ moves).threads[thread]? = some current →
    ∀ more : List (Move Request Env), 8 ≤ more.countP (Move.runs thread) →
      ∃ later, (exec pipeline.step ⟨world, []⟩ (moves ++ more)).threads[thread]? = some later ∧ later.finished = true

/-! ## The open incidents of a site -/

/-- The active incidents of the site, in table order. -/
def active (incidents : Table Incident.id) (site : String) : List Incident :=
  incidents.rows.filter fun incident => incident.siteId = site ∧ incident.status = .active

theorem mem_active {incidents : Table Incident.id} {site : String} {incident : Incident} :
    incident ∈ active incidents site ↔ incident ∈ incidents ∧ incident.siteId = site ∧ incident.status = .active := by
  simp [active, Table.mem_def]

/-- No open incident has a later alarm; several may, if their last alarms are of one time. -/
def Foremost (incidents : List Incident) (incident : Incident) : Prop :=
  incident ∈ incidents ∧ ∀ other ∈ incidents, other.lastAlarmTs ≤ incident.lastAlarmTs

instance (incidents : List Incident) : DecidablePred (Foremost incidents) := fun _ => inferInstanceAs (Decidable (_ ∧ _))

/-- The lookup answers with a foremost open incident that is recent enough. -/
theorem foremost_of_find {scan : Scan Incident} {incidents : Table Incident.id} {site : String} {now : Nat} {incident : Incident}
    (found : findOpenIncident scan incidents site now = some incident) :
    Foremost (active incidents site) incident ∧ (now : Int) - incidentCorrelationWindow ≤ incident.lastAlarmTs := by
  obtain ⟨⟨held, place, open_, recent⟩, greatest⟩ := findOpenIncident_some found
  refine ⟨⟨mem_active.mpr ⟨held, place, open_⟩, fun other listed => ?_⟩, recent⟩
  obtain ⟨held, place, open_⟩ := mem_active.mp listed
  exact greatest other held place open_

theorem old_of_find {scan : Scan Incident} {incidents : Table Incident.id} {site : String} {now : Nat}
    (found : findOpenIncident scan incidents site now = none) : ∀ incident ∈ active incidents site,
      ¬ (now : Int) - incidentCorrelationWindow ≤ incident.lastAlarmTs := by
  intro incident listed
  obtain ⟨held, place, open_⟩ := mem_active.mp listed
  exact findOpenIncident_none found incident held place open_

/-- What does not concern the site leaves its open incidents alone. -/
private theorem filter_map_of_unconcerned {α : Type*} {selected : α → Bool} {change : α → α} {rows : List α}
    (unconcerned : ∀ row ∈ rows, change row = row ∨ (selected row = false ∧ selected (change row) = false)) :
    (rows.map change).filter selected = rows.filter selected := by
  induction rows with
  | nil => rfl
  | cons row rest ih =>
    have later := ih fun other member => unconcerned other (List.mem_cons_of_mem _ member)
    rcases unconcerned row List.mem_cons_self with same | ⟨before, after⟩
    · simp [List.filter_cons, same, later]
    · simp [before, after, later]

/-- What a statement does to the open incidents of the site. -/
inductive SiteEffect (site : String) (thread after : Thread) (before later : List Incident) : Prop where
  | same (kept : later = before) (unattached : attaching site thread = none)
      (unopened : ∀ draft id, thread = .insertIncident draft id → draft.siteId ≠ site)
  | attached (draft : Draft) (id : String) (was : thread = .attachAlarm draft id) (sited : draft.siteId = site)
      (is : after = .nextAlarmCode draft id false)
      (updated : later = before.map fun incident => if incident.id = id then draft.attached incident else incident)
  | opened (draft : Draft) (id : String) (was : thread = .insertIncident draft id) (sited : draft.siteId = site)
      (is : after = .nextAlarmCode draft id true) (added : later = before ++ [draft.incident id])

section OpenIncidents
variable {incidents : Table Incident.id} {draft : Draft} {id site : String}

private theorem active_insert {later : Table Incident.id} (done : incidents.insert? (draft.incident id) = some later)
    (site : String) : active later site = active incidents site ++ if draft.siteId = site then [draft.incident id] else [] := by
  rw [active, Table.insert?_rows done, List.filter_append, active]
  by_cases here : draft.siteId = site <;> simp [Draft.incident, here]

private theorem active_attach : active (attachAlarmToIncident incidents draft id) site =
    (active incidents site).map fun incident => if incident.id = id then draft.attached incident else incident := by
  have rows : active (attachAlarmToIncident incidents draft id) site =
      (incidents.rows.map fun incident => if incident.id = id then draft.attached incident else incident).filter
        fun incident => incident.siteId = site ∧ incident.status = .active := by
    simp [active, attachAlarmToIncident, Table.modify]
  rw [rows, List.filter_map, active]
  congr 1
  apply List.filter_congr
  intro incident _
  simp only [Function.comp_apply]
  split <;> rfl

/-- An update of the incidents under one identifier, none of which is at the site. -/
private theorem active_change_elsewhere {change : Incident → Incident}
    (place : ∀ incident, (change incident).siteId = incident.siteId)
    (elsewhere : ∀ incident ∈ incidents, incident.id = id → incident.siteId ≠ site) :
    (incidents.rows.map fun incident => if incident.id = id then change incident else incident).filter
      (fun incident => incident.siteId = site ∧ incident.status = .active) = active incidents site := by
  refine filter_map_of_unconcerned fun incident held => ?_
  by_cases this : incident.id = id
  · have away := elsewhere incident held this
    exact .inr ⟨by simp [away], by simp [this, place, away]⟩
  · exact .inl (if_neg this)

end OpenIncidents

section Statements
variable {env : Env} {thread after : Thread} {world changed : World} {site : String}

private theorem site_effect (outcome : Outcome env thread world after changed) (standing : gaveUp thread = false)
    (sound : env.fails = false)
    (unacknowledged : ∀ id, thread = .ackIncident id →
      ∀ incident ∈ world.incidents, incident.id = id → incident.siteId ≠ site)
    (sited : ∀ draft id, thread = .attachAlarm draft id →
      ∃ incident ∈ world.incidents, incident.id = id ∧ incident.siteId = draft.siteId)
    (fresh : ∀ draft id, thread = .insertIncident draft id → ∀ incident ∈ world.incidents, incident.id ≠ id) :
    SiteEffect site thread after (active world.incidents site) (active changed.incidents site) := by
  cases outcome with
  | @incidentOpened draft id _ incidents done =>
    have rows := active_insert done site
    by_cases here : draft.siteId = site
    · exact .opened draft id rfl here rfl (by rw [rows, if_pos here])
    · refine .same (by rw [rows, if_neg here, List.append_nil]) rfl fun other _ same => ?_
      cases same
      exact here
  | @incidentRefused draft id _ why =>
    rcases why with failed | refused
    · rw [sound] at failed
      cases failed
    · obtain ⟨incident, held, same⟩ := Table.insert?_eq_none.mp refused
      exact absurd same (fresh draft id rfl incident held)
  | @attached draft id =>
    by_cases here : draft.siteId = site
    · exact .attached draft id rfl here rfl active_attach
    · refine .same ?_ (if_neg here) (by rintro _ _ ⟨⟩)
      rw [attachAlarmToIncident, active, Table.modify]
      simp only [decide_eq_true_eq]
      refine active_change_elsewhere (fun _ => rfl) fun incident held this => ?_
      obtain ⟨found, member, same, place⟩ := sited draft id rfl
      rw [Table.key_inj held member (this.trans same.symm), place]
      exact here
  | attachFailed failed =>
    rw [sound] at failed
    cases failed
  | @ackedIncident id =>
    refine .same ?_ rfl (by rintro _ _ ⟨⟩)
    rw [acknowledgeIncident, active, Table.modify]
    simp only [decide_eq_true_eq]
    exact active_change_elsewhere (fun _ => rfl) (unacknowledged id rfl)
  | deleted => cases standing
  | idle finished =>
    cases thread with
    | dropped | unassigned | lost | raised | replied => exact .same rfl rfl (by rintro _ _ ⟨⟩)
    | _ => cases finished
  | _ => exact .same rfl rfl (by rintro _ _ ⟨⟩)

/-- A goroutine starts opening an incident when its lookup finds none. -/
private theorem opening_origin (outcome : Outcome env thread world after changed) (sound : env.fails = false)
    {key : String} (held : opening site after = some key) : opening site thread = some key ∨
      ∃ draft, thread = .findIncident draft ∧ draft.siteId = site ∧
        findOpenIncident env.scan world.incidents site draft.now = none := by
  cases outcome with
  | @noIncident draft _ why =>
    simp only [opening] at held
    split at held
    · rename_i here
      rcases why with failed | none_
      · rw [sound] at failed
        cases failed
      · exact .inr ⟨draft, rfl, here, here ▸ none_⟩
    · cases held
  | incidentID => exact .inl held
  | noAlarmCode | alarmRefused =>
    unfold afterFailure at held
    split at held <;> cases held
  | idle => exact .inl held
  | _ => cases held

/-- A goroutine keeps the incident it chose, and chooses the one that its lookup
finds or its insert creates. -/
private theorem chosenAt_origin (outcome : Outcome env thread world after changed) {id : String}
    (held : chosenAt site after = some id) : chosenAt site thread = some id ∨
      (∃ draft incident, thread = .findIncident draft ∧ draft.siteId = site ∧ after = .attachAlarm draft id ∧
        findOpenIncident env.scan world.incidents site draft.now = some incident ∧ incident.id = id) ∨
      ∃ draft, thread = .insertIncident draft id ∧ draft.siteId = site := by
  cases outcome with
  | @openIncident draft _ incident _ found =>
    simp only [chosenAt] at held
    split at held
    · rename_i here
      cases held
      exact .inr (.inl ⟨draft, incident, rfl, here, rfl, here ▸ found, rfl⟩)
    · cases held
  | @incidentOpened draft =>
    simp only [chosenAt] at held
    split at held
    · rename_i here
      cases held
      exact .inr (.inr ⟨draft, rfl, here⟩)
    · cases held
  | noAlarmCode | alarmRefused =>
    unfold afterFailure at held
    split at held <;> cases held
  | attachFailed | attached | alarmCode | alarmRaised | idle => exact .inl held
  | _ => cases held

private theorem attachAlarm_origin (outcome : Outcome env thread world after changed) {draft : Draft} {id : String}
    (attach : after = .attachAlarm draft id) : ∃ incident ∈ world.incidents, incident.id = id ∧
      findOpenIncident env.scan world.incidents draft.siteId draft.now = some incident := by
  cases outcome with
  | openIncident incident held found =>
    cases attach
    exact ⟨incident, held, rfl, found⟩
  | noAlarmCode | alarmRefused =>
    unfold afterFailure at attach
    split at attach <;> cases attach
  | idle finished =>
    rw [attach] at finished
    cases finished
  | _ => cases attach

private theorem chosen_not_opening {holder : Thread} {id : String} (chosen : chosenAt site holder = some id) :
    opening site holder = none := by
  cases holder <;> first | rfl | cases chosen

end Statements

/-! ## The invariant -/

/-- Of the site's open incidents at most one was extended within the burst, and at most one is
foremost if a lookup of the burst can find it; only one goroutine at a time opens an incident,
and then nobody goes by one yet; and whoever goes by an incident goes by the foremost. -/
structure Gathered (site : String) (first : Nat) (pool : Pipeline) : Prop where
  recent : ∀ one ∈ active pool.shared.incidents site, ∀ other ∈ active pool.shared.incidents site,
    (first : Int) ≤ one.lastAlarmTs → (first : Int) ≤ other.lastAlarmTs → one = other
  untied : ∀ one other, Foremost (active pool.shared.incidents site) one → Foremost (active pool.shared.incidents site) other →
    (first : Int) - incidentCorrelationWindow ≤ one.lastAlarmTs → one = other
  alone : Distinct (opening site) pool.threads
  quiet : ∀ thread ∈ pool.threads, opening site thread ≠ none →
    (∀ incident ∈ active pool.shared.incidents site, ¬ (first : Int) ≤ incident.lastAlarmTs) ∧
      ∀ other ∈ pool.threads, chosenAt site other = none
  sited : ∀ thread ∈ pool.threads, ∀ draft id, thread = .attachAlarm draft id →
    ∃ incident ∈ pool.shared.incidents, incident.id = id ∧ incident.siteId = draft.siteId
  chosen : ∀ thread ∈ pool.threads, ∀ id ∈ chosenAt site thread, ∃ incident,
    Foremost (active pool.shared.incidents site) incident ∧ (first : Int) - incidentCorrelationWindow ≤ incident.lastAlarmTs ∧
      incident.id = id ∧ (attaching site thread = none → (first : Int) ≤ incident.lastAlarmTs)

theorem Gathered.oneIncident {site : String} {first : Nat} {pool : Pipeline} (gathered : Gathered site first pool) :
    OneIncident site pool := by
  intro one other left right oneHeld otherHeld oneHere otherHere
  obtain ⟨incident, best, reached, rfl, _⟩ := gathered.chosen _ oneHeld left (if_pos oneHere)
  obtain ⟨second, again, _, rfl, _⟩ := gathered.chosen _ otherHeld right (if_pos otherHere)
  rw [gathered.untied incident second best again reached]

private theorem Gathered.spawn {site : String} {first : Nat} {pool : Pipeline} (gathered : Gathered site first pool)
    (request : Request) : Gathered site first { pool with threads := pool.threads ++ [pipeline.start request] } := by
  have unopened : opening site (pipeline.start request) = none := by cases request <;> rfl
  have unchosen : chosenAt site (pipeline.start request) = none := by cases request <;> rfl
  have unattached : ∀ draft id, pipeline.start request ≠ .attachAlarm draft id := by cases request <;> rintro _ _ ⟨⟩
  exact {
    recent := gathered.recent
    untied := gathered.untied
    alone := gathered.alone.append unopened
    quiet := by
      refine forall_mem_append (fun thread member busy => ?_) fun busy => absurd unopened busy
      obtain ⟨old, idle⟩ := gathered.quiet thread member busy
      exact ⟨old, forall_mem_append idle unchosen⟩
    sited := forall_mem_append gathered.sited fun draft id same => absurd same (unattached draft id)
    chosen := by
      refine forall_mem_append gathered.chosen fun id held => ?_
      rw [unchosen] at held
      cases held }

section Runs
variable {site : String} {first : Nat} {pool : Pipeline} {thread : Nat} {env : Env} {current after : Thread}
  {changed : World}

private theorem Gathered.run_sited (gathered : Gathered site first pool)
    (outcome : Outcome env current pool.shared after changed) (standing : gaveUp current = false) :
    ∀ holder ∈ pool.threads.set thread after, ∀ draft id, holder = .attachAlarm draft id →
      ∃ incident ∈ changed.incidents, incident.id = id ∧ incident.siteId = draft.siteId := by
  have stays {id siteId : String}
      (held : ∃ incident ∈ pool.shared.incidents, incident.id = id ∧ incident.siteId = siteId) :
      ∃ incident ∈ changed.incidents, incident.id = id ∧ incident.siteId = siteId := by
    obtain ⟨incident, member, same, place⟩ := held
    obtain ⟨new, remains, sameId, sameSite⟩ := incident_stays outcome standing member
    exact ⟨new, remains, sameId.trans same, sameSite.trans place⟩
  intro holder member draft id attach
  rcases mem_set_cases member with rfl | ⟨j, _, found⟩
  · obtain ⟨incident, held, same, open_⟩ := attachAlarm_origin outcome attach
    have listed := (foremost_of_find open_).1.1
    exact stays ⟨incident, held, same, (mem_active.mp listed).2.1⟩
  · exact stays (gathered.sited holder (List.mem_of_getElem? found) draft id attach)

/-- A lookup that finds nothing found no incident of the burst, and nobody goes by one:
those that did have put theirs above all others. -/
private theorem Gathered.quiet_of_lookup (gathered : Gathered site first pool) (here : current ∈ pool.threads)
    (burst : Burst site first pool) (settled : Settled site pool env current) {draft : Draft}
    (looks : current = .findIncident draft) (place : draft.siteId = site)
    (none_ : findOpenIncident env.scan pool.shared.incidents site draft.now = none) :
    (∀ incident ∈ active pool.shared.incidents site, ¬ (first : Int) ≤ incident.lastAlarmTs) ∧
      ∀ other ∈ pool.threads, chosenAt site other = none := by
  subst looks
  have bound := (burst _ here draft rfl place).2
  have stale : ∀ incident ∈ active pool.shared.incidents site, ¬ (first : Int) ≤ incident.lastAlarmTs := by
    intro incident listed recent
    have := old_of_find none_ incident listed
    omega
  refine ⟨stale, fun other held => ?_⟩
  by_contra chosen
  obtain ⟨id, chosen⟩ := Option.ne_none_iff_exists'.mp chosen
  obtain ⟨incident, ⟨listed, _⟩, _, rfl, extended⟩ := gathered.chosen other held id chosen
  cases attach : attaching site other with
  | none => exact stale incident listed (extended attach)
  | some id =>
    have same : incident.id = id := by
      cases other with
      | attachAlarm other_ id_ => exact Option.some.inj (chosen.symm.trans attach)
      | _ => cases attach
    exact old_of_find none_ incident listed
      ((settled place).2 other held id attach incident (mem_active.mp listed).1 same)

/-- While nobody writes to the site's open incidents, a lookup finds what the
others went by, or nothing because there is nothing. -/
private theorem Gathered.run_same (gathered : Gathered site first pool) (running : pool.threads[thread]? = some current)
    (outcome : Outcome env current pool.shared after changed) (standing : gaveUp current = false)
    (sound : env.fails = false) (burst : Burst site first pool) (settled : Settled site pool env current)
    (kept : active changed.incidents site = active pool.shared.incidents site)
    (unattached : attaching site current = none)
    (unopened : ∀ draft id, current = .insertIncident draft id → draft.siteId ≠ site) :
    Gathered site first { shared := changed, threads := pool.threads.set thread after } := by
  have here := List.mem_of_getElem? running
  refine ⟨?_, ?_, ?_, ?_, gathered.run_sited outcome standing, ?_⟩
  · rw [kept]
    exact gathered.recent
  · rw [kept]
    exact gathered.untied
  · refine gathered.alone.set running fun key new => ?_
    rcases opening_origin outcome sound new with old | ⟨draft, rfl, place, _⟩
    · exact .inl old
    · refine .inr fun other member busy => ?_
      rw [(settled place).1 other member] at busy
      cases busy
  · rw [kept]
    intro holder member busy
    rcases mem_set_cases member with rfl | ⟨j, elsewhere, found⟩
    · obtain ⟨key, opens⟩ := Option.ne_none_iff_exists'.mp busy
      have unchosen : chosenAt site holder = none := by
        by_contra chosen
        obtain ⟨id, chosen⟩ := Option.ne_none_iff_exists'.mp chosen
        rw [chosen_not_opening chosen] at opens
        cases opens
      rcases opening_origin outcome sound opens with old | ⟨draft, rfl, place, none_⟩
      · obtain ⟨stale, idle⟩ := gathered.quiet current here (by simp [old])
        exact ⟨stale, forall_mem_set idle unchosen⟩
      · obtain ⟨stale, idle⟩ := gathered.quiet_of_lookup here burst settled rfl place none_
        exact ⟨stale, forall_mem_set idle unchosen⟩
    · have old := List.mem_of_getElem? found
      obtain ⟨stale, idle⟩ := gathered.quiet holder old busy
      refine ⟨stale, forall_mem_set idle ?_⟩
      by_contra chosen
      obtain ⟨id, chosen⟩ := Option.ne_none_iff_exists'.mp chosen
      rcases chosenAt_origin outcome chosen with before | ⟨draft, _, rfl, place, _⟩ | ⟨draft, rfl, place⟩
      · rw [idle current here] at before
        cases before
      · exact busy ((settled place).1 holder old)
      · exact unopened draft id rfl place
  · rw [kept]
    refine forall_mem_set gathered.chosen fun id held => ?_
    rcases chosenAt_origin outcome held with before | ⟨draft, incident, rfl, place, rfl, found, same⟩ | ⟨draft, rfl, place⟩
    · obtain ⟨incident, best, reached, same, extended⟩ := gathered.chosen current here id before
      exact ⟨incident, best, reached, same, fun _ => extended unattached⟩
    · obtain ⟨foremost, recent⟩ := foremost_of_find found
      have bound := (burst _ here draft rfl place).1
      refine ⟨incident, foremost, by omega, same, fun none_ => ?_⟩
      simp [attaching, place] at none_
    · exact absurd place (unopened draft id rfl)

/-- With one incident in the burst, any two in it are the same. -/
private theorem recent_of_others {top : Incident} {incidents : List Incident}
    (others : ∀ incident ∈ incidents, incident = top ∨ ¬ (first : Int) ≤ incident.lastAlarmTs) :
    ∀ one ∈ incidents, ∀ other ∈ incidents,
      (first : Int) ≤ one.lastAlarmTs → (first : Int) ≤ other.lastAlarmTs → one = other := by
  intro one oneListed other otherListed oneRecent otherRecent
  rcases others one oneListed with rfl | stale
  · rcases others other otherListed with rfl | stale
    · rfl
    · exact absurd otherRecent stale
  · exact absurd oneRecent stale

/-- With one incident in the burst, it is foremost, and nothing else is. -/
private theorem foremost_of_others {top : Incident} {incidents : List Incident} (listed : top ∈ incidents)
    (others : ∀ incident ∈ incidents, incident = top ∨ ¬ (first : Int) ≤ incident.lastAlarmTs)
    (extended : (first : Int) ≤ top.lastAlarmTs) :
    Foremost incidents top ∧ (first : Int) - incidentCorrelationWindow ≤ top.lastAlarmTs ∧ ∀ one other, Foremost incidents one → Foremost incidents other →
      (first : Int) - incidentCorrelationWindow ≤ one.lastAlarmTs → one = other := by
  have only {incident : Incident} (foremost : Foremost incidents incident) : incident = top :=
    (others incident foremost.1).resolve_right fun stale => stale (extended.trans (foremost.2 top listed))
  refine ⟨⟨listed, fun incident member => ?_⟩, ?_, fun one other best again _ => (only best).trans (only again).symm⟩
  · rcases others incident member with rfl | stale
    · exact le_rfl
    · exact (not_le.mp stale).le.trans extended
  · exact (Int.sub_le_self _ (by decide)).trans extended

private theorem opening_of_busy {holder : Thread} (busy : opening site holder ≠ none) :
    opening site holder = some site := by
  cases holder with
  | nextIncidentID | insertIncident =>
    simp only [opening] at busy ⊢
    split at busy
    · rename_i placed
      exact if_pos placed
    · exact absurd rfl busy
  | _ => exact absurd rfl busy

/-- The update puts the incident that everybody goes by into the burst, above
all others. -/
private theorem Gathered.run_attached (gathered : Gathered site first pool)
    (running : pool.threads[thread]? = some current) (outcome : Outcome env current pool.shared after changed)
    (standing : gaveUp current = false) (burst : Burst site first pool) {draft : Draft} {id : String}
    (was : current = .attachAlarm draft id) (place : draft.siteId = site) (now : after = .nextAlarmCode draft id false)
    (updated : active changed.incidents site = (active pool.shared.incidents site).map fun incident =>
      if incident.id = id then draft.attached incident else incident) :
    Gathered site first { shared := changed, threads := pool.threads.set thread after } := by
  have here := List.mem_of_getElem? running
  have chosen : chosenAt site current = some id := by
    rw [was]
    exact if_pos place
  have bound := (burst current here draft (by rw [was]; rfl) place).1
  obtain ⟨top, best, reached, same, _⟩ := gathered.chosen current here id chosen
  obtain ⟨listed, above⟩ := best
  have unique {incident : Incident} (member : incident ∈ active pool.shared.incidents site) (sameId : incident.id = id) :
      incident = top :=
    Table.key_inj (mem_active.mp member).1 (mem_active.mp listed).1 (sameId.trans same.symm)
  have others : ∀ incident ∈ active changed.incidents site,
      incident = draft.attached top ∨ ¬ (first : Int) ≤ incident.lastAlarmTs := by
    intro incident member
    rw [updated] at member
    obtain ⟨old, oldListed, rfl⟩ := List.mem_map.mp member
    by_cases this : old.id = id
    · exact .inl (by rw [if_pos this, unique oldListed this])
    · rw [if_neg this]
      refine .inr fun recent => ?_
      have lower := above old oldListed
      rw [gathered.recent old oldListed top listed recent (recent.trans lower)] at this
      exact this same
  have extended : (first : Int) ≤ (draft.attached top).lastAlarmTs := Int.ofNat_le.mpr bound
  have listed' : draft.attached top ∈ active changed.incidents site := by
    rw [updated]
    exact List.mem_map.mpr ⟨top, listed, if_pos same⟩
  obtain ⟨foremost, reached', untied⟩ := foremost_of_others listed' others extended
  refine ⟨?_, untied, ?_, ?_, gathered.run_sited outcome standing, ?_⟩
  · exact recent_of_others others
  · refine gathered.alone.set running fun key new => ?_
    rw [now] at new
    cases new
  · intro holder member busy
    rcases mem_set_cases member with rfl | ⟨j, _, found⟩
    · rw [now] at busy
      exact absurd rfl busy
    · rw [(gathered.quiet holder (List.mem_of_getElem? found) busy).2 current here] at chosen
      cases chosen
  · have common {holder : Thread} {other : String} (member : holder ∈ pool.threads)
        (held : chosenAt site holder = some other) : id = other := by
      obtain ⟨incident, again, _, sameId, _⟩ := gathered.chosen holder member other held
      rw [gathered.untied top incident ⟨listed, above⟩ again reached, sameId] at same
      exact same.symm
    intro holder member other held
    refine ⟨draft.attached top, foremost, reached', ?_, fun _ => extended⟩
    rcases mem_set_cases member with rfl | ⟨j, _, found⟩
    · rw [now, chosenAt, if_pos place] at held
      exact same.trans (Option.some.inj held)
    · exact same.trans (common (List.mem_of_getElem? found) held)

/-- The incident opened by the only goroutine that opens one is above all others. -/
private theorem Gathered.run_opened (gathered : Gathered site first pool)
    (running : pool.threads[thread]? = some current) (outcome : Outcome env current pool.shared after changed)
    (standing : gaveUp current = false) (burst : Burst site first pool) {draft : Draft} {id : String}
    (was : current = .insertIncident draft id) (place : draft.siteId = site) (now : after = .nextAlarmCode draft id true)
    (added : active changed.incidents site = active pool.shared.incidents site ++ [draft.incident id]) :
    Gathered site first { shared := changed, threads := pool.threads.set thread after } := by
  have here := List.mem_of_getElem? running
  have opens : opening site current = some site := by
    rw [was]
    exact if_pos place
  have bound := (burst current here draft (by rw [was]; rfl) place).1
  obtain ⟨stale, idle⟩ := gathered.quiet current here (by simp [opens])
  have others : ∀ incident ∈ active changed.incidents site,
      incident = draft.incident id ∨ ¬ (first : Int) ≤ incident.lastAlarmTs := by
    intro incident member
    rw [added] at member
    rcases List.mem_append.mp member with old | new
    · exact .inr (stale incident old)
    · exact .inl (List.mem_singleton.mp new)
  have extended : (first : Int) ≤ (draft.incident id).lastAlarmTs := Int.ofNat_le.mpr bound
  have listed : draft.incident id ∈ active changed.incidents site := by simp [added]
  obtain ⟨foremost, reached', untied⟩ := foremost_of_others listed others extended
  refine ⟨?_, untied, ?_, ?_, gathered.run_sited outcome standing, ?_⟩
  · exact recent_of_others others
  · refine gathered.alone.set running fun key new => ?_
    rw [now] at new
    cases new
  · intro holder member busy
    rcases mem_set_cases member with rfl | ⟨j, elsewhere, found⟩
    · rw [now] at busy
      exact absurd rfl busy
    · have alsoOpens := opening_of_busy busy
      exact absurd (gathered.alone j thread holder current site found running alsoOpens opens) elsewhere
  · intro holder member other held
    rcases mem_set_cases member with rfl | ⟨j, _, found⟩
    · rw [now, chosenAt, if_pos place] at held
      exact ⟨draft.incident id, foremost, reached', Option.some.inj held, fun _ => extended⟩
    · rw [idle holder (List.mem_of_getElem? found)] at held
      cases held

private theorem Gathered.run (gathered : Gathered site first pool) (orderly : HeldApart pool)
    (running : pool.threads[thread]? = some current) (outcome : Outcome env current pool.shared after changed)
    (sound : env.fails = false) (burst : Burst site first pool) (unacknowledged : Unacknowledged site pool env current)
    (settled : Settled site pool env current) :
    Gathered site first { shared := changed, threads := pool.threads.set thread after } := by
  have here := List.mem_of_getElem? running
  have standing := orderly.standing current here
  have effect : SiteEffect site current after (active pool.shared.incidents site) (active changed.incidents site) := by
    refine site_effect outcome standing sound ?_ (gathered.sited current here) ?_
    · rintro id rfl
      exact unacknowledged
    · rintro draft id rfl
      exact orderly.newIncidents _ here id rfl
  cases effect with
  | same kept unattached unopened =>
    exact gathered.run_same running outcome standing sound burst settled kept unattached unopened
  | attached draft id was place now updated =>
    exact gathered.run_attached running outcome standing burst was place now updated
  | opened draft id was place now added =>
    exact gathered.run_opened running outcome standing burst was place now added

end Runs

/-! ## All statements of a run -/

/-- What a move must not do for the alarms of the site to stay together. -/
structure Allowed (site : String) (first : Nat) (pool : Pipeline) (move : Move Request Env) : Prop where
  burst : Burst site first pool
  unacknowledged : OnStatement (Unacknowledged site) pool move
  healthy : OnStatement (fun pool => Healthy pool.shared) pool move
  unclaimed : OnStatement Unclaimed pool move
  settled : OnStatement (Settled site) pool move

/-- Nothing is lost and the site's alarms stay together. -/
structure Correlated (site : String) (first : Nat) (pool : Pipeline) : Prop where
  orderly : HeldApart pool
  gathered : Gathered site first pool

private theorem Correlated.step {site : String} {first : Nat} {pool : Pipeline} {move : Move Request Env}
    (correlated : Correlated site first pool) (allowed : Allowed site first pool move) :
    Correlated site first (pipeline.step pool move) where
  orderly := correlated.orderly.step allowed.healthy allowed.unclaimed
  gathered := by
    have gathered := correlated.gathered
    refine Program.step_preserves (Gathered site first) gathered move (fun request _ => gathered.spawn request) ?_
    rintro thread env current rfl running
    exact gathered.run correlated.orderly running (next_outcome env current pool.shared)
      (allowed.healthy current running).1 allowed.burst (allowed.unacknowledged current running)
      (allowed.settled current running)

/-- Of the site's open incidents no two share the latest last alarm, if that is late enough for a
lookup of the burst to find them. -/
def Untied (site : String) (first : Nat) (world : World) : Prop :=
  ∀ one ∈ active world.incidents site, ∀ other ∈ active world.incidents site,
    Foremost (active world.incidents site) one → Foremost (active world.incidents site) other →
      (first : Int) - incidentCorrelationWindow ≤ one.lastAlarmTs → one = other

instance (site : String) (first : Nat) : DecidablePred (Untied site first) := fun world =>
  inferInstanceAs (Decidable (∀ one ∈ active world.incidents site, ∀ other ∈ active world.incidents site, _))

private theorem gathered_initial {site : String} {first : Nat} {world : World}
    (single : ∀ one ∈ active world.incidents site, ∀ other ∈ active world.incidents site,
      (first : Int) ≤ one.lastAlarmTs → (first : Int) ≤ other.lastAlarmTs → one = other)
    (untied : Untied site first world) : Gathered site first ⟨world, []⟩ := by
  refine ⟨single, fun one other best again => ?_, ?_, ?_, ?_, ?_⟩
  · exact untied one best.1 other again.1 best again
  all_goals simp [Distinct]

/-- The alarms of a burst share one incident, if no lookup at the site runs
between another goroutine's lookup and the write it decides on, in whatever order the
lookups meet incidents with the same last alarm. -/
theorem burst_shares_incident (world : World) (site : String) (first : Nat) (moves : List (Move Request Env))
    (burst : Throughout pipeline.step (Burst site first) ⟨world, []⟩ moves)
    (unacknowledged : Along pipeline.step (OnStatement (Unacknowledged site)) ⟨world, []⟩ moves)
    (single : ∀ one ∈ active world.incidents site, ∀ other ∈ active world.incidents site,
      (first : Int) ≤ one.lastAlarmTs → (first : Int) ≤ other.lastAlarmTs → one = other)
    (untied : Untied site first world)
    (healthy : Along pipeline.step (OnStatement fun pool => Healthy pool.shared) ⟨world, []⟩ moves)
    (unclaimed : Along pipeline.step (OnStatement Unclaimed) ⟨world, []⟩ moves)
    (settled : Along pipeline.step (OnStatement (Settled site)) ⟨world, []⟩ moves) : BurstShared site world moves where
  grouped := by
    have allowed : Along pipeline.step (Allowed site first) ⟨world, []⟩ moves := by
      have all := along_and (along_of_throughout burst)
        (along_and unacknowledged (along_and healthy (along_and unclaimed settled)))
      exact along_mono (fun _ _ ⟨one, two, three, four, five⟩ => ⟨one, two, three, four, five⟩) all
    have correlated := throughout_of_invariant (fun _ _ held permitted => Correlated.step held permitted) moves _
      ⟨HeldApart.initial world, gathered_initial single untied⟩ allowed
    exact throughout_mono (fun _ held => ⟨held.orderly.delivered, held.gathered.oneIncident⟩) moves _ correlated
  ends thread current running more turns := by
    rw [exec_append]
    exact finished_after_eight running more turns

private def refinery : World where
  users := .empty
  sites := ⟨[⟨"AA-100", "Refinery", "co-1", none⟩], by decide⟩
  cameras := ⟨[⟨⟨7⟩, "Gate", "", "", some "AA-100", "", none⟩, ⟨⟨2 ^ 100⟩, "Tank farm", "", "", some "AA-100", "", none⟩],
    by decide +kernel⟩
  events := .empty
  incidents := .empty
  alarms := .empty
  alarmLastFired := []

private def act (thread : Nat) : Move Request Env := .run thread { now := 1750000000000000000 }

private def twoEvents : List (Move Request Env) :=
  [.spawn (.event { cameraId := ⟨7⟩, eventType := "human" }), .spawn (.event { cameraId := ⟨2 ^ 100⟩, eventType := "human" })]

/-- The second goroutine looks for an incident after the first has opened one. -/
private def afterwards : List (Move Request Env) :=
  twoEvents ++ List.replicate 7 (act 0) ++ List.replicate 6 (act 1)

theorem two_events_share_incident : BurstShared "AA-100" refinery afterwards :=
  burst_shares_incident refinery "AA-100" 1750000000000 afterwards (by decide +kernel) (by decide +kernel)
    (by decide +kernel) (by decide +kernel) (by decide +kernel) (by decide +kernel) (by decide +kernel)

/-- Both goroutines look before either has opened an incident. -/
private def overlapping : List (Move Request Env) :=
  twoEvents ++ List.replicate 3 (act 0) ++ List.replicate 3 (act 1) ++ List.replicate 4 (act 0) ++
    List.replicate 4 (act 1)

private def drafted (cameraId : Uuid.UUID) (name : String) : Draft where
  event := { cameraId := cameraId, eventType := "human" }
  cameraName := name
  siteId := "AA-100"
  siteName := "Refinery"
  now := 1750000000000
  clipUrl := ""

/-- Two alarms of one site in the same millisecond, nothing fails and nothing is
acknowledged, and yet each has an incident of its own. -/
theorem overlapping_lookups_split_burst :
    Throughout pipeline.step (Burst "AA-100" 1750000000000) ⟨refinery, []⟩ overlapping ∧
      Along pipeline.step (OnStatement (Unacknowledged "AA-100")) ⟨refinery, []⟩ overlapping ∧
      Along pipeline.step (OnStatement fun pool => Healthy pool.shared) ⟨refinery, []⟩ overlapping ∧
      Along pipeline.step (OnStatement Unclaimed) ⟨refinery, []⟩ overlapping ∧
      ¬ BurstShared "AA-100" refinery overlapping := by
  refine ⟨by decide +kernel, by decide +kernel, by decide +kernel, by decide +kernel, fun shared => ?_⟩
  obtain ⟨_, together⟩ := throughout_last overlapping _ shared.grouped
  have gate : .raised (drafted ⟨7⟩ "Gate") "INC-2025-0001" ∈
      (exec pipeline.step ⟨refinery, []⟩ overlapping).threads := by
    decide +kernel
  have tanks : .raised (drafted ⟨2 ^ 100⟩ "Tank farm") "INC-2025-0002" ∈
      (exec pipeline.step ⟨refinery, []⟩ overlapping).threads := by
    decide +kernel
  exact absurd (together _ _ _ _ gate tanks rfl rfl) (by decide)

end Ironsight.IncidentCorrelation
