import Ironsight.PpeWorker

/-! Persons in no-go zones and the alarms the worker raises for them. The engine reports
every person in such a zone, whatever it wears; the worker asks the engine only about
frames in which the detector saw a PPE violation. -/
namespace Ironsight.NoGoAlarms
open Tables Uuid Access Analytics PpeWorker

variable {F : Type} [Float64 F]

/-- A live, enabled zone under a live, enabled no-go rule of the camera. -/
structure NoGoZone (db : Database) (cam : PPECamera) (zone : PPEZone) : Prop where
  held : zone ∈ db.zones
  live : zone.deletedAt = none
  enabled : zone.enabled = true
  ruled : ∃ rule ∈ db.rules, rule.zoneId = zone.id ∧ rule.ruleType = .noGo ∧ rule.deletedAt = none ∧
    rule.enabled = true ∧ appliesTo cam.organizationID cam.cameraID cam.siteID rule = true

/-- The centroid of a detection lies in the polygon of a zone. -/
def Inside (detection : Detection F) (zone : PPEZone) : Prop :=
  3 ≤ zone.region.length ∧ pointInPolygon (centroid detection).1 (centroid detection).2 zone.region = true

/-- A person that the worker has to raise an alarm for. -/
structure Intrusion (w : Worker F) (db : Database) (cam : PPECamera) (yolo : YOLOResult F) (person : Detection F)
    (zone : PPEZone) : Prop where
  seen : person ∈ yolo.detections
  labelled : person.class_ = "person"
  confident : Float64.atMost (threshold w) person.confidence.value = true
  noGo : NoGoZone db cam zone
  inside : Inside person zone

/-- The detector gave a result for the camera, and its zones and rules were read. -/
def Evaluated (w : Worker F) (env : Env F) (cam : PPECamera) (yolo : YOLOResult F) : Prop :=
  w.aiEnabled = true ∧ env.listFault = none ∧
    ∃ frame source, fetchSnapshot env cam = .ok (frame, source) ∧ env.detectYOLO frame = .ok yolo

/-- The alarm of a detection in a zone. -/
def alarm (cam : PPECamera) (detection : Detection F) (zone : PPEZone) : Message F :=
  noGoMessage cam ⟨detection, zone.id.text, zone.name, [], "no_go"⟩

/-- Every intrusion in the frame is broadcast. -/
def AlarmsKept (w : Worker F) (db : Database) (env : Env F) (failures : UUID → Nat) (cam : PPECamera) : Prop :=
  ∀ yolo, Evaluated w env cam yolo → ∀ person zone, Intrusion w db cam yolo person zone →
    .broadcast (alarm cam person zone) ∈ (processCamera w db env failures cam).2

/-! ## The rules of a camera -/

section Listing
variable {db : Database} {camera : UUID} {siteId organizationId : String}

private theorem mem_listed {rule : ComplianceRule} {zone : PPEZone} :
    (rule, zone) ∈ listZonesAndRulesForCamera db camera siteId organizationId ↔
      (rule ∈ db.rules ∧ appliesTo organizationId camera siteId rule = true ∧ rule.deletedAt = none ∧
        rule.enabled = true) ∧ zone ∈ db.zones ∧ zone.id = rule.zoneId ∧ zone.deletedAt = none ∧ zone.enabled = true := by
  simp only [listZonesAndRulesForCamera, List.mem_filterMap, List.mem_filter, decide_eq_true_eq, Option.map_eq_some_iff,
    Option.filter_eq_some_iff, Prod.mk.injEq]
  constructor
  · rintro ⟨_, ⟨held, applies, live, enabled⟩, _, ⟨found, zoneLive, zoneEnabled⟩, rfl, rfl⟩
    obtain ⟨inTable, same⟩ := Table.find?_eq_some.mp found
    exact ⟨⟨held, applies, live, enabled⟩, inTable, same, zoneLive, zoneEnabled⟩
  · rintro ⟨⟨held, applies, live, enabled⟩, inTable, same, zoneLive, zoneEnabled⟩
    exact ⟨rule, ⟨held, applies, live, enabled⟩, zone, ⟨Table.find?_eq_some.mpr ⟨inTable, same⟩, zoneLive, zoneEnabled⟩,
      rfl, rfl⟩

/-- The map of the engine finds the zone that the query joined to the rule. -/
private theorem zoneByID_listed {rule : ComplianceRule} {zone : PPEZone}
    (listed : (rule, zone) ∈ listZonesAndRulesForCamera db camera siteId organizationId) :
    zoneByID ((listZonesAndRulesForCamera db camera siteId organizationId).map Prod.snd) rule.zoneId.text = some zone := by
  obtain ⟨_, inTable, same, _⟩ := mem_listed.mp listed
  cases found : zoneByID ((listZonesAndRulesForCamera db camera siteId organizationId).map Prod.snd) rule.zoneId.text with
  | none =>
    have absent := List.find?_eq_none.mp found zone (List.mem_reverse.mpr (List.mem_map.mpr ⟨_, listed, rfl⟩))
    exact absurd (congrArg UUID.text same) (by simpa using absent)
  | some other =>
    have member := List.mem_reverse.mp (List.mem_of_find?_eq_some found)
    have text : other.id.text = rule.zoneId.text := by simpa using List.find?_some found
    obtain ⟨⟨otherRule, _⟩, otherListed, rfl⟩ := List.mem_map.mp member
    obtain ⟨_, otherInTable, _⟩ := mem_listed.mp otherListed
    rw [Table.key_inj otherInTable inTable ((UUID.text_injective text).trans same.symm)]

end Listing

section Frame
variable {w : Worker F} {db : Database} {env : Env F} {cam : PPECamera} {yolo : YOLOResult F}

private theorem zoneHolds_iff {detection : Detection F} {zone : PPEZone} :
    zoneHolds detection zone = true ↔ zone.enabled = true ∧ Inside detection zone := by
  simp only [zoneHolds, Inside, Bool.and_eq_true, decide_eq_true_eq, and_assoc]

private theorem fires_noGo {detection : Detection F} {zone : PPEZone} {rule : ComplianceRule} {sv : Violation F}
    (found : fires detection zone rule = some sv) (noGo : sv.ruleType = "no_go") :
    rule.ruleType = .noGo ∧ sv = ⟨detection, zone.id.text, zone.name, [], "no_go"⟩ := by
  cases type : rule.ruleType with
  | ppeRequired =>
    simp only [fires, type, Option.ite_none_right_eq_some, Option.some.injEq] at found
    obtain ⟨_, rfl⟩ := found
    simp at noGo
  | noGo =>
    simp only [fires, type, Option.some.injEq] at found
    exact ⟨rfl, found.symm⟩

/-- What the engine reports under a no-go rule: every detection in a no-go zone. -/
private theorem mem_evaluateCompliance {detections : List (Detection F)} {sv : Violation F} (noGo : sv.ruleType = "no_go") :
    let pairs := listZonesAndRulesForCamera db cam.cameraID cam.siteID cam.organizationID
    sv ∈ evaluateCompliance detections (pairs.map Prod.snd) (pairs.map Prod.fst) ↔
      ∃ detection ∈ detections, ∃ zone, NoGoZone db cam zone ∧ Inside detection zone ∧
        sv = ⟨detection, zone.id.text, zone.name, [], "no_go"⟩ := by
  intro pairs
  constructor
  · intro reported
    unfold evaluateCompliance at reported
    split at reported
    · cases reported
    · obtain ⟨detection, given, reported⟩ := List.mem_flatMap.mp reported
      obtain ⟨rule, inRules, applied⟩ := List.mem_filterMap.mp reported
      obtain ⟨⟨_, zone⟩, listed, rfl⟩ := List.mem_map.mp inRules
      obtain ⟨⟨held, applies, live, enabled⟩, inTable, same, zoneLive, zoneEnabled⟩ := mem_listed.mp listed
      simp only [applyRule, enabled, if_true, zoneByID_listed listed, pairs, Option.ite_none_right_eq_some] at applied
      obtain ⟨holds, fired⟩ := applied
      obtain ⟨type, built⟩ := fires_noGo fired noGo
      exact ⟨detection, given, zone, ⟨inTable, zoneLive, zoneEnabled, _, held, same.symm, type, live, enabled, applies⟩,
        (zoneHolds_iff.mp holds).2, built⟩
  · rintro ⟨detection, given, zone, ⟨inTable, zoneLive, zoneEnabled, rule, held, same, type, live, enabled, applies⟩,
      inside, rfl⟩
    have listed : (rule, zone) ∈ pairs :=
      mem_listed.mpr ⟨⟨held, applies, live, enabled⟩, inTable, same.symm, zoneLive, zoneEnabled⟩
    have some_pairs : pairs.isEmpty = false := List.isEmpty_eq_false_iff_exists_mem.mpr ⟨_, listed⟩
    have some_detections : detections.isEmpty = false := List.isEmpty_eq_false_iff_exists_mem.mpr ⟨_, given⟩
    have holds : zoneHolds detection zone = true := zoneHolds_iff.mpr ⟨zoneEnabled, inside⟩
    unfold evaluateCompliance
    simp only [List.isEmpty_map, some_pairs, some_detections, Bool.or_self, Bool.false_eq_true, if_false]
    refine List.mem_flatMap.mpr ⟨detection, given, List.mem_filterMap.mpr ⟨rule, List.mem_map.mpr ⟨_, listed, rfl⟩, ?_⟩⟩
    simp only [applyRule, enabled, if_true, zoneByID_listed listed, pairs, holds, fires, type]

private theorem mem_route {source : String} {sv : Violation F} {message : Message F} :
    .broadcast message ∈ route w cam source sv ↔
      Float64.less sv.detection.confidence.value (threshold w) = false ∧ sv.ruleType = "no_go" ∧ w.hub = true ∧
        message = noGoMessage cam sv := by
  unfold route emitNoGoAlarm
  split_ifs with low noGo hub ppe <;> simp_all

private theorem mem_fullFrame {source : String} {violations : List (Detection F)} {message : Message F} :
    .broadcast message ∉ fullFrame w source violations := by
  intro broadcast
  obtain ⟨v, _, saved⟩ := List.mem_flatMap.mp broadcast
  split at saved <;> simp at saved

/-- The broadcasts of the zone filter when the rules could be read. -/
private theorem mem_zoneFilter {source : String} {message : Message F} (read : env.listFault = none) :
    .broadcast message ∈ zoneFilter w db env cam source yolo ↔ w.hub = true ∧
      ∃ detection ∈ yolo.ppeViolations ++ yolo.detections.filter (fun d => d.class_ = "person"),
        Float64.less detection.confidence.value (threshold w) = false ∧
        ∃ zone, NoGoZone db cam zone ∧ Inside detection zone ∧ message = alarm cam detection zone := by
  unfold zoneFilter
  simp only [read, List.isEmpty_map]
  split
  case isTrue none_listed =>
    refine iff_of_false mem_fullFrame ?_
    rintro ⟨_, _, _, _, zone, ⟨inTable, zoneLive, zoneEnabled, rule, held, same, _, live, enabled, applies⟩, _⟩
    have listed := mem_listed.mpr ⟨⟨held, applies, live, enabled⟩, inTable, same.symm, zoneLive, zoneEnabled⟩
    rw [List.isEmpty_iff.mp none_listed] at listed
    cases listed
  case isFalse some_listed =>
    simp only [List.mem_flatMap, mem_route]
    constructor
    · rintro ⟨sv, reported, confident, noGo, hub, rfl⟩
      obtain ⟨detection, given, zone, noGoZone, inside, rfl⟩ := (mem_evaluateCompliance noGo).mp reported
      exact ⟨hub, detection, given, confident, zone, noGoZone, inside, rfl⟩
    · rintro ⟨hub, detection, given, confident, zone, noGoZone, inside, rfl⟩
      exact ⟨_, (mem_evaluateCompliance rfl).mpr ⟨detection, given, zone, noGoZone, inside, rfl⟩, confident, rfl, hub, rfl⟩

private theorem mem_fanOutToTracking {result : CameraFrameResult F} {message : Message F} :
    .broadcast message ∉ fanOutToTracking w env result := by
  unfold fanOutToTracking
  split_ifs <;> simp

variable {failures : UUID → Nat}

/-- An evaluated frame without PPE violations leads to no broadcast, any other one to the
alarms of the no-go zones. -/
private theorem broadcasts_of_evaluated {message : Message F} (evaluated : Evaluated w env cam yolo) :
    .broadcast message ∈ (processCamera w db env failures cam).2 ↔ yolo.ppeViolations ≠ [] ∧ w.hub = true ∧
      ∃ detection ∈ yolo.ppeViolations ++ yolo.detections.filter (fun d => d.class_ = "person"),
        Float64.less detection.confidence.value (threshold w) = false ∧
        ∃ zone, NoGoZone db cam zone ∧ Inside detection zone ∧ message = alarm cam detection zone := by
  obtain ⟨aiEnabled, read, frame, source, fetched, detected⟩ := evaluated
  unfold processCamera
  simp only [fetched, aiEnabled, detected, Bool.not_true, Bool.false_eq_true, if_false]
  rw [List.mem_append, or_iff_right mem_fanOutToTracking]
  split
  case isTrue none_seen =>
    exact iff_of_false (by simp) fun broadcast => broadcast.1 (List.isEmpty_iff.mp none_seen)
  case isFalse some_seen =>
    rw [mem_zoneFilter read, and_iff_right fun empty => some_seen (List.isEmpty_iff.mpr empty)]

/-- Every person in a no-go zone leads to an alarm exactly as long as frames with such an
intrusion hold a PPE violation, too: without one the worker returns before the rules. -/
theorem alarms_kept_iff (w : Worker F) (hub : w.hub = true) (db : Database) (env : Env F) (failures : UUID → Nat)
    (cam : PPECamera) : AlarmsKept w db env failures cam ↔
      ∀ yolo, Evaluated w env cam yolo → yolo.ppeViolations ≠ [] ∨
        ∀ person zone, ¬ Intrusion w db cam yolo person zone := by
  constructor
  · intro kept yolo evaluated
    by_cases violated : yolo.ppeViolations = []
    · exact .inr fun person zone intrusion =>
        ((broadcasts_of_evaluated evaluated).mp (kept yolo evaluated person zone intrusion)).1 violated
    · exact .inl violated
  · intro covered yolo evaluated person zone intrusion
    rcases covered yolo evaluated with violated | none_seen
    · have asked : person ∈ yolo.ppeViolations ++ yolo.detections.filter fun d => d.class_ = "person" :=
        List.mem_append_right _ (List.mem_filter.mpr ⟨intrusion.seen, by simpa using intrusion.labelled⟩)
      have confident := Float64.not_less_of_atMost _ _ intrusion.confident
      exact (broadcasts_of_evaluated evaluated).mpr
        ⟨violated, hub, person, asked, confident, zone, intrusion.noGo, intrusion.inside, rfl⟩
    · exact absurd intrusion (none_seen person zone)

end Frame

/-! ## A blast pit -/

private def unit : List Point :=
  [⟨0, 0⟩, ⟨0x3FF0000000000000, 0⟩, ⟨0x3FF0000000000000, 0x3FF0000000000000⟩, ⟨0, 0x3FF0000000000000⟩]

private def pit : PPEZone :=
  { id := ⟨31⟩, organizationId := "co-9", cameraId := ⟨32⟩, zoneType := .noGo, name := "Blast pit", region := unit }

private def pitRule : ComplianceRule :=
  { id := ⟨33⟩, organizationId := "co-9", cameraId := some ⟨32⟩, zoneId := ⟨31⟩, ruleType := .noGo }

private def pitTables : Database where
  users := .empty
  sites := .empty
  cameras := .empty
  organizations := ["co-9"]
  vcaRules := .empty
  zones := ⟨[pit], by decide⟩
  rules := ⟨[pitRule], by decide⟩

private def pitCamera : PPECamera := { cameraID := ⟨32⟩, organizationID := "co-9", siteID := "PT-1" }

private def number (value : ℚ) : Number ℚ := ⟨value, rfl⟩

private def box : BBox ℚ := ⟨number (1 / 4), number (1 / 4), number (3 / 4), number (3 / 4)⟩

private def intruder : Detection ℚ := ⟨"person", number (3 / 4), box, box⟩

private def hatless : Detection ℚ := ⟨"no-hat", number (3 / 4), box, box⟩

private def pitWorker : Worker ℚ := { aiEnabled := true, ppeConfidenceThreshold := 1 / 2, hub := true, trackingCh := false }

/-- The detector sees the intruder and some PPE violations. -/
private def pitEnv (violations : List (Detection ℚ)) : Env ℚ where
  milesightSnapshot := .ok [0xFF, 0xD8]
  getSnapshotURI := .error "no route to host"
  onvifSnapshot _ := .error "no route to host"
  detectYOLO _ := .ok ⟨[intruder], [], violations⟩

private theorem pit_evaluated (violations : List (Detection ℚ)) :
    Evaluated pitWorker (pitEnv violations) pitCamera ⟨[intruder], [], violations⟩ :=
  ⟨rfl, rfl, [0xFF, 0xD8], "milesight_cgi", rfl, rfl⟩

private theorem pit_intrusion (violations : List (Detection ℚ)) :
    Intrusion pitWorker pitTables pitCamera ⟨[intruder], [], violations⟩ intruder pit where
  seen := List.mem_singleton_self _
  labelled := rfl
  confident := by decide +kernel
  noGo := ⟨List.mem_singleton_self _, rfl, rfl, pitRule, List.mem_singleton_self _, rfl, rfl, rfl, rfl, by decide⟩
  inside := ⟨by decide, by decide +kernel⟩

/-- A properly equipped person walks into the pit and nobody is told. -/
theorem equipped_intruder_unnoticed : ¬ AlarmsKept pitWorker pitTables (pitEnv []) (fun _ => 0) pitCamera := by
  intro kept
  have sent := kept _ (pit_evaluated []) intruder pit (pit_intrusion [])
  exact ((broadcasts_of_evaluated (pit_evaluated [])).mp sent).1 rfl

/-- The same person next to a hatless one is reported. -/
theorem alarms_kept_beside_hatless : AlarmsKept pitWorker pitTables (pitEnv [hatless]) (fun _ => 0) pitCamera := by
  refine (alarms_kept_iff pitWorker rfl pitTables (pitEnv [hatless]) (fun _ => 0) pitCamera).mpr ?_
  rintro yolo ⟨_, _, frame, source, _, detected⟩
  have same : ⟨[intruder], [], [hatless]⟩ = yolo := Except.ok.inj detected
  subst same
  exact .inl (List.cons_ne_nil _ _)

end Ironsight.NoGoAlarms
