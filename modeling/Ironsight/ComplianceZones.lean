import Ironsight.AnalyticsProofs

/-! A compliance rule and the zone it applies. Deleting a zone takes the rules of
its organisation along, so a live rule keeps a live zone as long as it was bound
to a zone of its own organisation in the first place. Creation checks the
organisation but not the camera, an update checks neither: a run keeps every
rule on a zone of its own exactly if these two requests are well aimed. -/
namespace Ironsight.ComplianceZones
open Tables Runs Uuid Access Analytics AnalyticsProofs

/-- The rule refers to a live zone of its organisation, and unless it is
site-wide to one drawn on its own camera. -/
def OnOwnZone (db : Database) (rule : ComplianceRule) : Prop :=
  ∃ zone ∈ db.zones, zone.id = rule.zoneId ∧ zone.deletedAt = none ∧ zone.organizationId = rule.organizationId ∧
    ∀ camera ∈ rule.cameraId, zone.cameraId = camera

/-- Every live rule has a zone of its own. -/
def Sound (db : Database) : Prop := ∀ rule ∈ db.rules, rule.deletedAt = none → OnOwnZone db rule

/-- The worker's query applies to a camera only polygons of the organisation it
asks for, and only site-wide rules bring in another camera's polygon. -/
def WorkerSound (db : Database) : Prop :=
  ∀ camera siteId organizationId, ∀ pair ∈ listZonesAndRulesForCamera db camera siteId organizationId,
    pair.2.organizationId = organizationId ∧ (pair.1.cameraId ≠ none → pair.2.cameraId = camera)

/-- A request that binds a rule binds it to a zone of its own. -/
def WellAimed (text : Text) (db : Database) (call : Call) : Prop :=
  match call.request with
  | .createComplianceRule path body => ∀ claims camera type input zone,
      RuleAccepted text db call path body claims camera type input zone → input.siteWide = false →
        zone.cameraId = camera.id
  | .updateComplianceRule path rulePath body => ∀ claims camera id type input,
      RuleRevised text db call path rulePath body claims camera id type input →
        ∀ rule ∈ db.rules, ownRule id claims.organizationId rule = true → rule.deletedAt = none →
          ∃ zone ∈ db.zones, zone.id = input.zoneId ∧ zone.deletedAt = none ∧
            zone.organizationId = claims.organizationId ∧ (input.siteWide = false → zone.cameraId = camera)
  | _ => True

theorem workerSound_of_sound {db : Database} (sound : Sound db) : WorkerSound db := by
  intro camera siteId organizationId pair listed
  simp only [listZonesAndRulesForCamera, List.mem_filterMap, List.mem_filter, decide_eq_true_eq, Option.map_eq_some_iff,
    Option.filter_eq_some_iff] at listed
  obtain ⟨rule, ⟨held, applies, live, _⟩, zone, ⟨found, _⟩, rfl⟩ := listed
  obtain ⟨own, member, same, _, organization, drawn⟩ := sound rule held live
  obtain ⟨inTable, zoneId⟩ := Table.find?_eq_some.mp found
  have one : own = zone := Table.key_inj member inTable (same.trans zoneId.symm)
  subst one
  simp only [appliesTo, decide_eq_true_eq] at applies
  refine ⟨organization.trans applies.1, fun bound => ?_⟩
  rcases applies.2 with here | ⟨siteWide, _⟩
  · exact drawn camera here
  · exact absurd siteWide bound

/-! ## One request -/

section Steps
variable {text : Text} {db : Database} {call : Call}

private theorem sound_of_accepted (sound : Sound db)
    (accepted : ∀ after reply, respond text db call = .ok (after, reply) → Sound after) :
    Sound (step text db call) := by
  unfold step handle
  cases answer : respond text db call with
  | error refusal => exact sound
  | ok result => exact accepted result.1 result.2 answer

private theorem sound_congr {after : Database} (sound : Sound db) (zones : after.zones = db.zones)
    (rules : after.rules = db.rules) : Sound after := by
  unfold Sound OnOwnZone
  rw [zones, rules]
  exact sound

/-- A live zone stays a live zone with the same owner and camera. -/
private def Keeps (before after : Table PPEZone.id) (zone : PPEZone) : Prop :=
  zone ∈ before → zone.deletedAt = none → ∃ kept ∈ after, kept.id = zone.id ∧ kept.deletedAt = none ∧
    kept.organizationId = zone.organizationId ∧ kept.cameraId = zone.cameraId

private theorem OnOwnZone.keeps {after : Database} {rule : ComplianceRule} (onZone : OnOwnZone db rule)
    (keeps : ∀ zone, zone.id = rule.zoneId → Keeps db.zones after.zones zone) : OnOwnZone after rule := by
  obtain ⟨zone, held, same, live, organization, drawn⟩ := onZone
  obtain ⟨kept, member, sameId, stillLive, sameOrganization, sameCamera⟩ := keeps zone same held live
  exact ⟨kept, member, sameId.trans same, stillLive, sameOrganization.trans organization,
    fun camera given => sameCamera.trans (drawn camera given)⟩

private theorem createPPEZone_sound {path : String} {body : Option PPEZoneCreate} (sound : Sound db) {after : Database}
    {reply : Reply Body} (done : handleCreatePPEZone text db call path body = .ok (after, reply)) : Sound after := by
  simp only [handleCreatePPEZone, bind_ok, require_ok, ensure_ok, attempt_ok, writer_ok, gate_ok, pure, Except.pure,
    Except.ok.injEq, Prod.mk.injEq] at done
  obtain ⟨claims, _, id, _, _, _, input, _, type, _, _, _, own, _, _, _, _, _, zones, inserted, rfl, rfl⟩ := done
  intro rule held live
  refine (sound rule held live).keeps fun zone _ member undeleted => ?_
  exact ⟨zone, (Table.mem_insert? inserted).mpr (.inl member), rfl, undeleted, rfl, rfl⟩

private theorem mem_updatedZones {id : UUID} {organizationId : String} {input : PPEZoneCreate} {type : ZoneType}
    {now : Instant} {zone : PPEZone} : zone ∈ (updatePPEZone db id organizationId input type now).zones ↔
      ∃ old ∈ db.zones, zone = if ownZone id organizationId old then revisedZone input type now old else old := by
  simp only [updatePPEZone, Table.mem_modify]

private theorem mem_zonesAfterDelete {id : UUID} {organizationId : String} {now : Instant} {zone : PPEZone} :
    zone ∈ (softDeletePPEZone db id organizationId now).zones ↔
      ∃ old ∈ db.zones, zone = if liveZone id organizationId old then { old with deletedAt := some now } else old := by
  simp only [softDeletePPEZone, Table.mem_modify]

private theorem mem_rulesAfterDelete {id : UUID} {organizationId : String} {now : Instant} {rule : ComplianceRule} :
    rule ∈ (softDeletePPEZone db id organizationId now).rules ↔
      ∃ old ∈ db.rules, rule = if boundRule id organizationId old then { old with deletedAt := some now } else old := by
  simp only [softDeletePPEZone, Table.mem_modify]

private theorem mem_updatedRules {id : UUID} {organizationId : String} {camera : UUID} {input : ComplianceRuleCreate}
    {type : RuleType} {now : Instant} {rule : ComplianceRule} :
    rule ∈ (updateComplianceRule db id organizationId camera input type now).rules ↔ ∃ old ∈ db.rules,
      rule = if ownRule id organizationId old then revisedRule input type camera now old else old := by
  simp only [updateComplianceRule, Table.mem_modify]

private theorem mem_remainingRules {id : UUID} {organizationId : String} {now : Instant} {rule : ComplianceRule} :
    rule ∈ (softDeleteComplianceRule db id organizationId now).rules ↔
      ∃ old ∈ db.rules, rule = if liveRule id organizationId old then { old with deletedAt := some now } else old := by
  simp only [softDeleteComplianceRule, Table.mem_modify]

private theorem updatePPEZone_sound (sound : Sound db) (id : UUID) (organizationId : String) (input : PPEZoneCreate)
    (type : ZoneType) (now : Instant) : Sound (updatePPEZone db id organizationId input type now) := by
  intro rule held live
  refine (sound rule held live).keeps fun zone _ member undeleted => ?_
  refine ⟨_, mem_updatedZones.mpr ⟨zone, member, rfl⟩, ?_⟩
  split <;> exact ⟨rfl, undeleted, rfl, rfl⟩

/-- The cascade is enough: a live rule on the deleted zone is of the same
organisation, so it goes too. -/
private theorem softDeletePPEZone_sound (sound : Sound db) (id : UUID) (organizationId : String) (now : Instant) :
    Sound (softDeletePPEZone db id organizationId now) := by
  intro rule held live
  obtain ⟨old, member, version⟩ := mem_rulesAfterDelete.mp held
  by_cases bound : boundRule id organizationId old = true
  · rw [if_pos bound] at version
    rw [version] at live
    cases live
  · rw [if_neg bound] at version
    subst version
    have onZone := sound rule member live
    refine onZone.keeps fun zone same inTable undeleted => ?_
    have spared : ¬ liveZone id organizationId zone = true := by
      intro doomed
      simp only [liveZone, decide_eq_true_eq] at doomed
      obtain ⟨own, ownMember, ownId, _, ownOrganization, _⟩ := onZone
      have one : own = zone := Table.key_inj ownMember inTable (ownId.trans same.symm)
      subst one
      apply bound
      simp only [boundRule, decide_eq_true_eq]
      exact ⟨same.symm.trans doomed.1, ownOrganization.symm.trans doomed.2.1, live⟩
    refine ⟨zone, mem_zonesAfterDelete.mpr ⟨zone, inTable, ?_⟩, rfl, undeleted, rfl, rfl⟩
    rw [if_neg spared]

private theorem softDeleteComplianceRule_sound (sound : Sound db) (id : UUID) (organizationId : String)
    (now : Instant) : Sound (softDeleteComplianceRule db id organizationId now) := by
  intro rule held live
  obtain ⟨old, member, version⟩ := mem_remainingRules.mp held
  by_cases chosen : liveRule id organizationId old = true
  · rw [if_pos chosen] at version
    rw [version] at live
    cases live
  · rw [if_neg chosen] at version
    subst version
    exact sound rule member live

private theorem createComplianceRule_sound_iff {path : String} {body : Option ComplianceRuleCreate}
    (request : call.request = .createComplianceRule path body) (sound : Sound db) :
    Sound (step text db call) ↔ WellAimed text db call := by
  simp only [WellAimed, request]
  constructor
  · intro after claims camera type input zone accepted local_
    have fresh : ∀ rule ∈ db.rules, rule.id ≠ (newRule call claims camera type input).id := accepted.fresh
    obtain ⟨rules, inserted⟩ := Table.insert?_of_fresh fresh
    have answer := createComplianceRule_ok.mpr ⟨claims, camera, type, input, zone, rules, accepted, inserted, rfl⟩
    simp only [step, handle, respond, request, answer] at after
    obtain ⟨own, member, same, _, _, drawn⟩ := after _ ((Table.mem_insert? inserted).mpr (.inr rfl)) rfl
    obtain ⟨owned, zoneId, _⟩ := getPPEZone_some.mp accepted.owned
    have one : own = zone := Table.key_inj member owned (same.trans zoneId.symm)
    subst one
    exact drawn camera.id (by simp [newRule, local_])
  · intro aimed
    refine sound_of_accepted sound fun after reply answer => ?_
    simp only [respond, request] at answer
    obtain ⟨claims, camera, type, input, zone, rules, accepted, inserted, result⟩ := createComplianceRule_ok.mp answer
    cases result
    intro rule held live
    rcases (Table.mem_insert? inserted).mp held with old | rfl
    · exact sound rule old live
    · obtain ⟨owned, zoneId, organization, undeleted⟩ := getPPEZone_some.mp accepted.owned
      refine ⟨zone, owned, zoneId, undeleted, organization, fun own given => ?_⟩
      cases local_ : input.siteWide with
      | true => simp [newRule, local_] at given
      | false =>
        rw [aimed claims camera type input zone accepted local_]
        simpa [newRule, local_] using given

private theorem updateComplianceRule_sound_iff {path rulePath : String} {body : Option ComplianceRuleCreate}
    (request : call.request = .updateComplianceRule path rulePath body) (sound : Sound db) :
    Sound (step text db call) ↔ WellAimed text db call := by
  simp only [WellAimed, request]
  constructor
  · intro after claims camera id type input revised rule held chosen live
    have answer := updateComplianceRule_ok.mpr ⟨claims, camera, id, type, input, revised, rfl⟩
    simp only [step, handle, respond, request, answer] at after
    have member : revisedRule input type camera call.env.now rule ∈
        (updateComplianceRule db id claims.organizationId camera input type call.env.now).rules :=
      mem_updatedRules.mpr ⟨rule, held, by rw [if_pos chosen]⟩
    obtain ⟨zone, inTable, same, undeleted, organization, drawn⟩ := after _ member live
    simp only [ownRule, decide_eq_true_eq] at chosen
    refine ⟨zone, inTable, same, undeleted, organization.trans chosen.2, fun local_ => drawn camera ?_⟩
    simp [revisedRule, local_]
  · intro aimed
    refine sound_of_accepted sound fun after reply answer => ?_
    simp only [respond, request] at answer
    obtain ⟨claims, camera, id, type, input, revised, result⟩ := updateComplianceRule_ok.mp answer
    cases result
    intro rule held live
    obtain ⟨old, member, version⟩ := mem_updatedRules.mp held
    by_cases chosen : ownRule id claims.organizationId old = true
    · rw [if_pos chosen] at version
      subst version
      obtain ⟨zone, inTable, same, undeleted, organization, drawn⟩ :=
        aimed claims camera id type input revised old member chosen live
      simp only [ownRule, decide_eq_true_eq] at chosen
      refine ⟨zone, inTable, same, undeleted, organization.trans chosen.2.symm, fun own given => ?_⟩
      cases local_ : input.siteWide with
      | true => simp [revisedRule, local_] at given
      | false =>
        rw [drawn local_]
        simpa [revisedRule, local_] using given
    · rw [if_neg chosen] at version
      subst version
      exact sound rule member live

private theorem sound_iff_of_aimed (sound : Sound db) (aimed : WellAimed text db call)
    (accepted : ∀ after reply, respond text db call = .ok (after, reply) → Sound after) :
    Sound (step text db call) ↔ WellAimed text db call :=
  iff_of_true (sound_of_accepted sound accepted) aimed

/-- From a sound state a request leads to a sound state exactly if it is well
aimed. -/
theorem sound_step_iff (sound : Sound db) : Sound (step text db call) ↔ WellAimed text db call := by
  cases request : call.request with
  | createComplianceRule path body => exact createComplianceRule_sound_iff request sound
  | updateComplianceRule path rulePath body => exact updateComplianceRule_sound_iff request sound
  | listVCARules path =>
    refine sound_iff_of_aimed sound (by simp [WellAimed, request]) fun after reply answer => ?_
    simp only [respond, request, handleListVCARules, bind_ok, pure, Except.pure, Except.ok.injEq, Prod.mk.injEq] at answer
    obtain ⟨_, _, _, _, rfl, rfl⟩ := answer
    exact sound
  | createVCARule path body =>
    refine sound_iff_of_aimed sound (by simp [WellAimed, request]) fun after reply answer => ?_
    simp only [respond, request] at answer
    obtain ⟨_, _, _, _, _, result⟩ := createVCARule_ok.mp answer
    cases result
    exact sound_congr sound rfl rfl
  | updateVCARule own path body =>
    refine sound_iff_of_aimed sound (by simp [WellAimed, request]) fun after reply answer => ?_
    simp only [respond, request, handleUpdateVCARule, bind_ok, pure, Except.pure, Except.ok.injEq, Prod.mk.injEq] at answer
    obtain ⟨_, _, _, _, _, _, _, _, rfl, rfl⟩ := answer
    exact sound_congr sound rfl rfl
  | deleteVCARule own path =>
    refine sound_iff_of_aimed sound (by simp [WellAimed, request]) fun after reply answer => ?_
    simp only [respond, request, handleDeleteVCARule, bind_ok, pure, Except.pure, Except.ok.injEq, Prod.mk.injEq] at answer
    obtain ⟨_, _, _, _, rfl, rfl⟩ := answer
    exact sound_congr sound rfl rfl
  | syncVCARules path =>
    refine sound_iff_of_aimed sound (by simp [WellAimed, request]) fun after reply answer => ?_
    simp only [respond, request, handleSyncVCARules, bind_ok, pure, Except.pure, Except.ok.injEq, Prod.mk.injEq] at answer
    obtain ⟨_, _, _, _, _, _, _, _, _, _, rfl, rfl⟩ := answer
    exact sound_congr sound rfl rfl
  | listPPEZones path includeDeleted =>
    refine sound_iff_of_aimed sound (by simp [WellAimed, request]) fun after reply answer => ?_
    simp only [respond, request, handleListPPEZones, bind_ok, pure, Except.pure, Except.ok.injEq, Prod.mk.injEq] at answer
    obtain ⟨_, _, _, _, _, _, _, _, _, _, rfl, rfl⟩ := answer
    exact sound
  | createPPEZone path body =>
    refine sound_iff_of_aimed sound (by simp [WellAimed, request]) fun after reply answer => ?_
    simp only [respond, request] at answer
    exact createPPEZone_sound sound answer
  | updatePPEZone own path body =>
    refine sound_iff_of_aimed sound (by simp [WellAimed, request]) fun after reply answer => ?_
    simp only [respond, request, handleUpdatePPEZone, bind_ok, pure, Except.pure, Except.ok.injEq, Prod.mk.injEq] at answer
    obtain ⟨_, _, _, _, _, _, _, _, _, _, _, _, rfl, rfl⟩ := answer
    exact updatePPEZone_sound sound _ _ _ _ _
  | deletePPEZone own path =>
    refine sound_iff_of_aimed sound (by simp [WellAimed, request]) fun after reply answer => ?_
    simp only [respond, request, handleDeletePPEZone, bind_ok, pure, Except.pure, Except.ok.injEq, Prod.mk.injEq] at answer
    obtain ⟨_, _, _, _, _, _, rfl, rfl⟩ := answer
    exact softDeletePPEZone_sound sound _ _ _
  | listComplianceRules path includeDeleted =>
    refine sound_iff_of_aimed sound (by simp [WellAimed, request]) fun after reply answer => ?_
    simp only [respond, request, handleListComplianceRules, bind_ok, pure, Except.pure, Except.ok.injEq,
      Prod.mk.injEq] at answer
    obtain ⟨_, _, _, _, _, _, _, _, _, _, _, _, rfl, rfl⟩ := answer
    exact sound
  | deleteComplianceRule own path =>
    refine sound_iff_of_aimed sound (by simp [WellAimed, request]) fun after reply answer => ?_
    simp only [respond, request, handleDeleteComplianceRule, bind_ok, pure, Except.pure, Except.ok.injEq,
      Prod.mk.injEq] at answer
    obtain ⟨_, _, _, _, _, _, _, _, rfl, rfl⟩ := answer
    exact softDeleteComplianceRule_sound sound _ _ _

end Steps

/-! ## Runs -/

/-- What holds in a state of a good run. -/
def Good (db : Database) : Prop := Sound db ∧ WorkerSound db

/-- From a sound state, every state of a run is sound, and so are the worker's
polygons, exactly if every request of the run is well aimed. -/
theorem rules_on_own_zones_iff_well_aimed (text : Text) (db : Database) (sound : Sound db) (calls : List Call) :
    Throughout (step text) Good db calls ↔ Along (step text) (WellAimed text) db calls := by
  have good_iff (state : Database) : Good state ↔ Sound state :=
    ⟨And.left, fun held => ⟨held, workerSound_of_sound held⟩⟩
  let anything (_ : Database) : Prop := True
  have exact_step (state : Database) (call : Call) (_ : anything state) (good : Good state) :
      Good (step text state call) ↔ WellAimed text state call :=
    (good_iff _).trans (sound_step_iff good.1)
  have kept (state : Database) (call : Call) (_ : anything state) : anything (step text state call) := trivial
  exact throughout_iff_along kept exact_step calls db trivial ((good_iff db).mpr sound)

private def plainText : Text := ⟨fun text => "\"" ++ text ++ "\"", String.toLower⟩

private def foreman : Claims := ⟨"00000000-0000-0000-0000-00000000000a", "ops", .siteManager, "Ops", "co-1"⟩

private def gate : PPEZone := { id := ⟨2⟩, organizationId := "co-1", cameraId := ⟨7⟩, zoneType := .noGo }

private def dock : PPEZone := { id := ⟨3⟩, organizationId := "co-2", cameraId := ⟨8⟩, zoneType := .noGo }

private def noEntry : ComplianceRule :=
  { id := ⟨4⟩, organizationId := "co-1", cameraId := some ⟨7⟩, zoneId := ⟨2⟩, ruleType := .noGo }

private def tenants : Database where
  users := ⟨[⟨⟨10⟩, "ops", .siteManager, "Ops", "", "", some "co-1", ["AA-100"], 0, 0, none⟩], by decide⟩
  sites := ⟨[⟨"AA-100", "Plant", "co-1", none⟩, ⟨"BB-200", "Terminal", "co-2", none⟩], by decide⟩
  cameras := ⟨[⟨⟨7⟩, "Gate", "", "", some "AA-100", "", none⟩, ⟨⟨8⟩, "Dock", "", "", some "BB-200", "", none⟩,
    ⟨⟨9⟩, "Fence", "", "", some "AA-100", "", none⟩], by decide⟩
  organizations := ["co-1", "co-2"]
  vcaRules := .empty
  zones := ⟨[gate, dock], by decide⟩
  rules := ⟨[noEntry], by decide⟩

private theorem tenants_sound : Sound tenants := by
  intro rule held _
  have only : rule = noEntry := List.mem_singleton.mp held
  subst only
  exact ⟨gate, by decide, rfl, rfl, rfl, fun camera given => Option.some.inj given⟩

private def removesGate : Call :=
  ⟨some foreman, .deletePPEZone "" "00000000-0000-0000-0000-000000000002", { now := 5 }⟩

/-- Deleting the gate's zone takes its rule along. -/
theorem deleted_zone_takes_rule : Throughout (step plainText) Good tenants [removesGate] :=
  (rules_on_own_zones_iff_well_aimed plainText tenants tenants_sound [removesGate]).mpr ⟨trivial, trivial⟩

/-- The rule is re-pointed to the dock of another organisation. -/
private def repoints : Call :=
  ⟨some foreman, .updateComplianceRule "00000000-0000-0000-0000-000000000007" "00000000-0000-0000-0000-000000000004"
    (some { zoneId := ⟨3⟩, ruleType := "no_go", enabled := true }), { now := 5 }⟩

/-- A rule for the fence is created on the gate's zone. -/
private def misplaces : Call :=
  ⟨some foreman, .createComplianceRule "00000000-0000-0000-0000-000000000009"
    (some { zoneId := ⟨2⟩, ruleType := "no_go", enabled := true }), { now := 5, newId := ⟨5⟩ }⟩

/-- An update makes the worker apply another tenant's polygon to the gate, and a
creation makes it apply the gate's polygon to the fence's picture. -/
theorem foreign_polygon_applied :
    ¬ Throughout (step plainText) Good tenants [repoints] ∧ ¬ Throughout (step plainText) Good tenants [misplaces] := by
  constructor
  · rintro ⟨_, _, worker⟩
    have applied : ({ noEntry with zoneId := ⟨3⟩, updatedAt := 5 }, dock) ∈
        listZonesAndRulesForCamera (step plainText tenants repoints) ⟨7⟩ "AA-100" "co-1" := by
      decide +kernel
    exact absurd (worker _ _ _ _ applied).1 (by decide)
  · rintro ⟨_, _, worker⟩
    have applied : ({ noEntry with
          id := ⟨5⟩, siteId := some "AA-100", cameraId := some ⟨9⟩, createdBy := some ⟨10⟩, createdAt := 5,
          updatedAt := 5 }, gate) ∈
        listZonesAndRulesForCamera (step plainText tenants misplaces) ⟨9⟩ "AA-100" "co-1" := by
      decide +kernel
    exact absurd ((worker _ _ _ _ applied).2 (by decide)) (by decide)

end Ironsight.ComplianceZones
