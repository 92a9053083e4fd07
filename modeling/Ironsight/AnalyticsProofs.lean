import Ironsight.Analytics

/-! Which cameras a request to the analytics endpoints reaches. Every handler is
first inverted: what it takes for a request to be accepted, and what it then
writes and answers. From that, the cameras whose rows a restricted caller
reaches without a check are listed per request, and camera access is respected
along a run exactly if there are none. -/
namespace Ironsight.AnalyticsProofs
open Tables Runs Uuid Access Analytics

/-! ## Checks -/

theorem bind_ok {ε α β : Type} {first : Except ε α} {next : α → Except ε β} {result : β} :
    (first >>= next) = .ok result ↔ ∃ value, first = .ok value ∧ next value = .ok result := by
  cases first with
  | error err => simp [bind, Except.bind]
  | ok value => simp [bind, Except.bind]

@[simp] theorem ensure_ok {holds : Bool} {status : Nat} {text : String} {done : Unit} :
    ensure holds status text = .ok done ↔ holds = true := by
  cases holds <;> simp [ensure]

@[simp] theorem require_ok {α : Type} {value : Option α} {status : Nat} {text : String} {found : α} :
    require value status text = .ok found ↔ value = some found := by
  cases value <;> simp [require]

@[simp] theorem attempt_ok {env : Env} {query : Query} {label : String} {done : Unit} :
    attempt env query label = .ok done ↔ env.fault query = none := by
  unfold attempt
  cases env.fault query <;> simp

/-- The caller of a write. -/
def Writes (call : Call) (claims : Claims) : Prop :=
  call.claims = some claims ∧ zoneWriteRoles claims.role = true

@[simp] theorem writer_ok {call : Call} {claims : Claims} : writer call = .ok claims ↔ Writes call claims := by
  simp only [writer, bind_ok, require_ok, ensure_ok, Writes, pure, Except.pure, Except.ok.injEq]
  constructor
  · rintro ⟨caller, given, _, allowed, rfl⟩
    exact ⟨given, allowed⟩
  · rintro ⟨given, allowed⟩
    exact ⟨claims, given, (), allowed, rfl⟩

/-- The camera check was made and passed. -/
def Passes (db : Database) (call : Call) (claims : Claims) (camera : UUID) : Prop :=
  (globalViewRoles claims.role = false → call.env.fault .authorizedCameraIDs = none) ∧
    canAccessCamera db.toDirectory (some claims) camera = .ok true

@[simp] theorem gate_ok {db : Database} {claims : Claims} {call : Call} {camera : UUID} {done : Unit} :
    gate db claims call.env camera = .ok done ↔ Passes db call claims camera := by
  unfold gate Passes
  cases global : globalViewRoles claims.role with
  | true =>
    cases answer : canAccessCamera db.toDirectory (some claims) camera with
    | error err => simp
    | ok allowed => simp
  | false =>
    cases answer : canAccessCamera db.toDirectory (some claims) camera with
    | error err => simp [bind_ok]
    | ok allowed => simp [bind_ok]

/-! ## Accepted requests -/

/-- A creation of a VCA rule that reaches the table. -/
structure VCAAccepted (db : Database) (call : Call) (path : String) (body : Option VCARuleCreate) (camera : UUID)
    (input : VCARuleCreate) : Prop where
  path : parse path = some camera
  body : body = some input
  type : validVCATypes.contains input.ruleType = true
  region : 2 ≤ input.region.length
  healthy : call.env.fault .createVCARule = none
  numbers : encodes input = true
  fresh : ∀ rule ∈ db.vcaRules, rule.id ≠ call.env.newId
  known : ∃ row ∈ db.cameras, row.id = camera

/-- A creation of a compliance rule that reaches the table. -/
structure RuleAccepted (text : Text) (db : Database) (call : Call) (path : String)
    (body : Option ComplianceRuleCreate) (claims : Claims) (camera : Camera) (type : RuleType)
    (input : ComplianceRuleCreate) (zone : PPEZone) : Prop where
  writer : Writes call claims
  path : parse path = some camera.id
  gate : Passes db call claims camera.id
  body : body = some input
  valid : validateComplianceRuleCreate text input = .ok type
  owned : getPPEZone db input.zoneId claims.organizationId = some zone
  known : getCamera db.toDirectory camera.id = some camera
  healthy : call.env.fault .getPPEZone = none ∧ call.env.fault .getCamera = none ∧
    call.env.fault .createComplianceRule = none
  fresh : ∀ rule ∈ db.rules, rule.id ≠ call.env.newId
  linked : references db claims.organizationId (camera.siteId.filter (· ≠ "")) (parse claims.userId) = true

/-- An update of a compliance rule that reaches the table. -/
structure RuleRevised (text : Text) (db : Database) (call : Call) (path rulePath : String)
    (body : Option ComplianceRuleCreate) (claims : Claims) (camera rule : UUID) (type : RuleType)
    (input : ComplianceRuleCreate) : Prop where
  writer : Writes call claims
  path : parse path = some camera
  rulePath : parse rulePath = some rule
  body : body = some input
  valid : validateComplianceRuleCreate text input = .ok type
  healthy : call.env.fault .updateComplianceRule = none
  found : ∃ row ∈ db.rules, ownRule rule claims.organizationId row = true
  known : input.siteWide = true ∨ (db.cameras.find? camera).isSome = true
  drawn : (db.zones.find? input.zoneId).isSome = true

private theorem getCamera_id {db : Directory} {id : UUID} {camera : Camera} (found : getCamera db id = some camera) :
    camera.id = id := by
  unfold getCamera at found
  exact (Table.find?_eq_some.mp (Option.filter_eq_some_iff.mp found).1).2

theorem createVCARule_ok {db : Database} {call : Call} {path : String} {body : Option VCARuleCreate}
    {result : Database × Reply Body} :
    handleCreateVCARule db call path body = .ok result ↔ ∃ camera input rules,
      VCAAccepted db call path body camera input ∧
      db.vcaRules.insert? { vcaRuleFromCreate call.env.newId camera input with
        createdAt := call.env.now, updatedAt := call.env.now } = some rules ∧
      result = ({ db with vcaRules := rules }, .json 201 (.vcaRule (vcaRuleFromCreate call.env.newId camera input))) := by
  simp only [handleCreateVCARule, insertVCARule, bind_ok, require_ok, ensure_ok, attempt_ok, pure, Except.pure,
    Except.ok.injEq, decide_eq_true_eq]
  constructor
  · rintro ⟨camera, path, input, body, _, type, _, region, _, healthy, _, numbers, rules, ⟨stored, inserted, _, known,
      rfl⟩, rfl⟩
    refine ⟨camera, input, stored, ⟨path, body, type, region, healthy, numbers, Table.insert?_fresh inserted, ?_⟩,
      inserted, rfl⟩
    obtain ⟨row, found⟩ := Option.isSome_iff_exists.mp known
    exact ⟨row, Table.find?_eq_some.mp found⟩
  · rintro ⟨camera, input, rules, accepted, inserted, rfl⟩
    obtain ⟨row, held, same⟩ := accepted.known
    have known : (db.cameras.find? camera).isSome = true :=
      Option.isSome_iff_exists.mpr ⟨row, Table.find?_eq_some.mpr ⟨held, same⟩⟩
    exact ⟨camera, accepted.path, input, accepted.body, (), accepted.type, (), accepted.region, (), accepted.healthy,
      (), accepted.numbers, rules, ⟨rules, inserted, (), known, rfl⟩, rfl⟩

theorem createComplianceRule_ok {text : Text} {db : Database} {call : Call} {path : String}
    {body : Option ComplianceRuleCreate} {result : Database × Reply Body} :
    handleCreateComplianceRule text db call path body = .ok result ↔ ∃ claims camera type input zone rules,
      RuleAccepted text db call path body claims camera type input zone ∧
      db.rules.insert? (newRule call claims camera type input) = some rules ∧
      result = ({ db with rules := rules }, .json 201
        (if call.env.fault .getComplianceRule = none then .rule (joined db false (newRule call claims camera type input))
        else .id call.env.newId)) := by
  simp only [handleCreateComplianceRule, bind_ok, require_ok, ensure_ok, attempt_ok, writer_ok, gate_ok, pure,
    Except.pure, Except.ok.injEq, decide_eq_true_eq]
  constructor
  · rintro ⟨claims, writer, cameraId, path, _, gate, input, body, type, valid, _, zoneFault, zone, owned, _, cameraFault,
      camera, found, _, fault, rules, inserted, _, linked, rfl⟩
    have same := getCamera_id found
    subst same
    exact ⟨claims, camera, type, input, zone, rules, ⟨writer, path, gate, body, valid, owned, found,
      ⟨zoneFault, cameraFault, fault⟩, Table.insert?_fresh inserted, linked⟩, inserted, rfl⟩
  · rintro ⟨claims, camera, type, input, zone, rules, accepted, inserted, rfl⟩
    obtain ⟨zoneFault, cameraFault, fault⟩ := accepted.healthy
    exact ⟨claims, accepted.writer, camera.id, accepted.path, (), accepted.gate, input, accepted.body, type,
      accepted.valid, (), zoneFault, zone, accepted.owned, (), cameraFault, camera, accepted.known, (), fault, rules,
      inserted, (), accepted.linked, rfl⟩

theorem updateComplianceRule_ok {text : Text} {db : Database} {call : Call} {path rulePath : String}
    {body : Option ComplianceRuleCreate} {result : Database × Reply Body} :
    handleUpdateComplianceRule text db call path rulePath body = .ok result ↔ ∃ claims camera rule type input,
      RuleRevised text db call path rulePath body claims camera rule type input ∧
      result = (updateComplianceRule db rule claims.organizationId camera input type call.env.now, .noContent) := by
  simp only [handleUpdateComplianceRule, bind_ok, require_ok, ensure_ok, attempt_ok, writer_ok, pure, Except.pure,
    Except.ok.injEq, decide_eq_true_eq, Table.affected_pos, Bool.or_eq_true]
  constructor
  · rintro ⟨claims, writer, camera, path, rule, rulePath, input, body, type, valid, _, healthy, _, found, _, known, _,
      zone, rfl⟩
    exact ⟨claims, camera, rule, type, input, ⟨writer, path, rulePath, body, valid, healthy, found, known, zone⟩, rfl⟩
  · rintro ⟨claims, camera, rule, type, input, revised, rfl⟩
    exact ⟨claims, revised.writer, camera, revised.path, rule, revised.rulePath, input, revised.body, type,
      revised.valid, (), revised.healthy, (), revised.found, (), revised.known, (), revised.drawn, rfl⟩

/-! ## Rows and cameras -/

/-- `CanAccessCamera` admits the camera for the caller of a request. -/
def Admits (db : Database) (call : Call) (camera : UUID) : Prop :=
  canAccessCamera db.toDirectory call.claims camera = .ok true

/-- The caller's role is outside `globalViewRoles`. -/
def Restricted (call : Call) : Prop := ∃ claims ∈ call.claims, globalViewRoles claims.role = false

/-- A row of the camera is created, changed or deleted. -/
def Touched (before after : Database) (camera : UUID) : Prop :=
  (∃ row, Table.Written before.vcaRules after.vcaRules row ∧ row.cameraId = camera) ∨
    (∃ row, Table.Written before.zones after.zones row ∧ row.cameraId = camera) ∨
      ∃ row, Table.Written before.rules after.rules row ∧ row.cameraId = some camera

/-- A listed rule shows the name and type of its live zone. -/
def ShowsZone (db : Database) (zoneId camera : UUID) : Prop :=
  ∃ zone ∈ db.zones, zone.id = zoneId ∧ zone.deletedAt = none ∧ zone.cameraId = camera

/-- A row of the camera is returned, or columns of one are joined in. -/
def Returned (db : Database) (reply : Reply Body) (camera : UUID) : Prop :=
  match reply with
  | .json _ (.vcaRules rows) => ∃ row ∈ rows, row.cameraId = camera
  | .json _ (.vcaRule row) => row.cameraId = camera
  | .json _ (.zones rows) => ∃ row ∈ rows, row.cameraId = camera
  | .json _ (.zone row) => row.cameraId = camera
  | .json _ (.rules rows) => ∃ row ∈ rows, row.rule.cameraId = some camera ∨ ShowsZone db row.rule.zoneId camera
  | .json _ (.rule row) => row.rule.cameraId = some camera ∨ ShowsZone db row.rule.zoneId camera
  | _ => False

/-- The cameras whose rows a request writes or returns. -/
def Reached (text : Text) (db : Database) (call : Call) (camera : UUID) : Prop :=
  Touched db (handle text db call).1 camera ∨ Returned db (handle text db call).2 camera

/-- Camera access is respected by one request. -/
def Respects (text : Text) (db : Database) (call : Call) : Prop :=
  Restricted call → ∀ camera, Reached text db call camera → Admits db call camera

/-- The cameras that a restricted caller's request reaches without a check of
that very camera. -/
def Unchecked (text : Text) (db : Database) (call : Call) (camera : UUID) : Prop :=
  match call.request with
  | .listVCARules path => parse path = some camera ∧ call.env.fault .listVCARules = none ∧
      ∃ rule ∈ db.vcaRules, rule.cameraId = camera ∧ rule.deletedAt = none
  | .createVCARule path body => ∃ input, VCAAccepted db call path body camera input
  | .updateVCARule _ path body => ∃ rule ∈ db.vcaRules, rule.cameraId = camera ∧ parse path = some rule.id ∧
      call.env.fault .updateVCARule = none ∧
      ∃ input ∈ body, encodes input = true ∧ revisedVCARule input call.env.now rule ≠ rule
  | .deleteVCARule _ path => ∃ rule ∈ db.vcaRules, rule.cameraId = camera ∧ parse path = some rule.id ∧
      call.env.fault .softDeleteVCARule = none ∧ rule.deletedAt = none
  | .syncVCARules path => parse path = some camera ∧ call.env.fault .getCamera = none ∧
      call.env.fault .listVCARules = none ∧
      (∃ row ∈ getCamera db.toDirectory camera, matchesMilesight text row = true) ∧
      ∃ rule ∈ db.vcaRules, rule.cameraId = camera ∧ rule.deletedAt = none ∧ call.env.markFails rule.id = false ∧
        markedRule call.env rule ≠ rule
  | .listPPEZones _ _ | .createPPEZone _ _ => False
  | .updatePPEZone _ path body => ∃ zone ∈ db.zones, zone.cameraId = camera ∧ parse path = some zone.id ∧
      call.env.fault .updatePPEZone = none ∧
      ∃ claims, Writes call claims ∧ zone.organizationId = claims.organizationId ∧
        ∃ input ∈ body, ∃ type, validatePPEZoneCreate text input = .ok type ∧
          revisedZone input type call.env.now zone ≠ zone
  | .deletePPEZone _ path => call.env.fault .softDeletePPEZone = none ∧
      ∃ claims, Writes call claims ∧ ∃ id ∈ parse path,
        (∃ rule ∈ db.rules, rule.cameraId = some camera ∧ boundRule id claims.organizationId rule = true) ∨
          ∃ zone ∈ db.zones, zone.cameraId = camera ∧ liveZone id claims.organizationId zone = true
  | .listComplianceRules path includeDeleted => includeDeleted = false ∧
      call.env.fault .listComplianceRules = none ∧ ∃ claims ∈ call.claims, ∃ own ∈ db.cameras,
        parse path = some own.id ∧ Passes db call claims own.id ∧ own.deletedAt = none ∧
        ∃ rule ∈ db.rules, appliesTo claims.organizationId own.id (own.siteId.getD "") rule = true ∧
          rule.deletedAt = none ∧ ShowsZone db rule.zoneId camera
  | .createComplianceRule path body => call.env.fault .getComplianceRule = none ∧ ∃ claims own type input zone,
      RuleAccepted text db call path body claims own type input zone ∧ zone.cameraId = camera
  | .updateComplianceRule path rulePath body => ∃ claims own id type input,
      RuleRevised text db call path rulePath body claims own id type input ∧
      ∃ rule ∈ db.rules, ownRule id claims.organizationId rule = true ∧
        revisedRule input type own call.env.now rule ≠ rule ∧
        (rule.cameraId = some camera ∨ (revisedRule input type own call.env.now rule).cameraId = some camera)
  | .deleteComplianceRule _ path => ∃ rule ∈ db.rules, rule.cameraId = some camera ∧ parse path = some rule.id ∧
      call.env.fault .softDeleteComplianceRule = none ∧ rule.deletedAt = none ∧
      ∃ claims, Writes call claims ∧ rule.organizationId = claims.organizationId

/-- Every camera reached unchecked is one the caller may access anyway. -/
def Confined (text : Text) (db : Database) (call : Call) : Prop :=
  Restricted call → ∀ camera, Unchecked text db call camera → Admits db call camera

private theorem not_touched {db : Database} {camera : UUID} : ¬ Touched db db camera := by
  rintro (⟨_, written, _⟩ | ⟨_, written, _⟩ | ⟨_, written, _⟩) <;> exact Table.not_written_self written

private theorem reached_iff {text : Text} {db : Database} {call : Call} {camera : UUID} :
    Reached text db call camera ↔ ∃ after reply, respond text db call = .ok (after, reply) ∧
      (Touched db after camera ∨ Returned db reply camera) := by
  unfold Reached handle
  cases answer : respond text db call with
  | error refusal => simp [not_touched, Returned]
  | ok result =>
    obtain ⟨after, reply⟩ := result
    simp

private theorem touched_vca {db : Database} {rules : Table VCARule.id} {camera : UUID} :
    Touched db { db with vcaRules := rules } camera ↔ ∃ row, Table.Written db.vcaRules rules row ∧ row.cameraId = camera := by
  simp [Touched, Table.not_written_self]

private theorem touched_zones {db : Database} {zones : Table PPEZone.id} {camera : UUID} :
    Touched db { db with zones := zones } camera ↔ ∃ row, Table.Written db.zones zones row ∧ row.cameraId = camera := by
  simp [Touched, Table.not_written_self]

private theorem touched_rules {db : Database} {rules : Table ComplianceRule.id} {camera : UUID} :
    Touched db { db with rules := rules } camera ↔
      ∃ row, Table.Written db.rules rules row ∧ row.cameraId = some camera := by
  simp [Touched, Table.not_written_self]

/-! ## What each handler reaches -/

/-- An accepted answer reaches the camera. -/
private def Reaches (db : Database) (answer : Answer) (camera : UUID) : Prop :=
  ∃ after reply, answer = .ok (after, reply) ∧ (Touched db after camera ∨ Returned db reply camera)

section Handlers
variable {text : Text} {db : Database} {call : Call} {camera : UUID}

private theorem listVCARules_reaches {path : String} : Reaches db (handleListVCARules db call path) camera ↔
    parse path = some camera ∧ call.env.fault .listVCARules = none ∧
      ∃ rule ∈ db.vcaRules, rule.cameraId = camera ∧ rule.deletedAt = none := by
  simp only [Reaches, handleListVCARules, bind_ok, require_ok, attempt_ok, pure, Except.pure, Except.ok.injEq,
    Prod.mk.injEq]
  constructor
  · rintro ⟨_, _, ⟨id, path, _, healthy, rfl, rfl⟩, touched | ⟨row, listed, rfl⟩⟩
    · exact absurd touched not_touched
    · obtain ⟨rule, member, rfl⟩ := List.mem_map.mp listed
      simp only [activeVCARules, List.mem_insertionSort, List.mem_filter, decide_eq_true_eq] at member
      obtain ⟨held, rfl, live⟩ := member
      exact ⟨path, healthy, rule, held, rfl, live⟩
  · rintro ⟨path, healthy, rule, held, rfl, live⟩
    refine ⟨db, _, ⟨rule.cameraId, path, (), healthy, rfl, rfl⟩, .inr ⟨scanned rule, List.mem_map_of_mem ?_, rfl⟩⟩
    simp only [activeVCARules, List.mem_insertionSort, List.mem_filter, live, and_self, decide_true, and_true]
    exact held

private theorem createVCARule_reaches {path : String} {body : Option VCARuleCreate} :
    Reaches db (handleCreateVCARule db call path body) camera ↔ ∃ input, VCAAccepted db call path body camera input := by
  simp only [Reaches, createVCARule_ok, Prod.mk.injEq]
  constructor
  · rintro ⟨_, _, ⟨id, input, rules, accepted, inserted, rfl, rfl⟩, reached⟩
    have same : id = camera := by
      rcases reached with touched | returned
      · obtain ⟨row, written, own⟩ := touched_vca.mp touched
        rw [(Table.written_insert? inserted).mp written] at own
        exact own
      · exact returned
    exact ⟨input, same ▸ accepted⟩
  · rintro ⟨input, accepted⟩
    have fresh : ∀ rule ∈ db.vcaRules, rule.id ≠ ({ vcaRuleFromCreate call.env.newId camera input with
        createdAt := call.env.now, updatedAt := call.env.now } : VCARule).id := accepted.fresh
    obtain ⟨rules, inserted⟩ := Table.insert?_of_fresh fresh
    exact ⟨_, _, ⟨camera, input, rules, accepted, inserted, rfl, rfl⟩, .inr rfl⟩

private theorem updateVCARule_reaches {path : String} {body : Option VCARuleCreate} :
    Reaches db (handleUpdateVCARule db call path body) camera ↔ ∃ rule ∈ db.vcaRules, rule.cameraId = camera ∧
      parse path = some rule.id ∧ call.env.fault .updateVCARule = none ∧
      ∃ input ∈ body, encodes input = true ∧ revisedVCARule input call.env.now rule ≠ rule := by
  simp only [Reaches, handleUpdateVCARule, bind_ok, require_ok, ensure_ok, attempt_ok, pure, Except.pure,
    Except.ok.injEq, Prod.mk.injEq]
  constructor
  · rintro ⟨_, _, ⟨id, path, input, body, _, healthy, _, numbers, rfl, rfl⟩, touched | returned⟩
    · obtain ⟨row, written, rfl⟩ := touched_vca.mp touched
      obtain ⟨rule, held, chosen, changed, versions⟩ := Table.written_modify.mp written
      rw [decide_eq_true_eq] at chosen
      have sameCamera : rule.cameraId = row.cameraId := by
        rcases versions with rfl | rfl <;> rfl
      exact ⟨rule, held, sameCamera, chosen ▸ path, healthy, input, body, numbers, changed⟩
    · exact returned.elim
  · rintro ⟨rule, held, rfl, path, healthy, input, body, numbers, changed⟩
    refine ⟨_, _, ⟨rule.id, path, input, body, (), healthy, (), numbers, rfl, rfl⟩, .inl (touched_vca.mpr ?_)⟩
    exact ⟨rule, Table.written_modify.mpr ⟨rule, held, by simp, changed, .inl rfl⟩, rfl⟩

private theorem deleteVCARule_reaches {path : String} : Reaches db (handleDeleteVCARule db call path) camera ↔
    ∃ rule ∈ db.vcaRules, rule.cameraId = camera ∧ parse path = some rule.id ∧
      call.env.fault .softDeleteVCARule = none ∧ rule.deletedAt = none := by
  simp only [Reaches, handleDeleteVCARule, bind_ok, require_ok, attempt_ok, pure, Except.pure, Except.ok.injEq,
    Prod.mk.injEq]
  constructor
  · rintro ⟨_, _, ⟨id, path, _, healthy, rfl, rfl⟩, touched | returned⟩
    · obtain ⟨row, written, rfl⟩ := touched_vca.mp touched
      obtain ⟨rule, held, chosen, _, versions⟩ := Table.written_modify.mp written
      rw [decide_eq_true_eq] at chosen
      have sameCamera : rule.cameraId = row.cameraId := by
        rcases versions with rfl | rfl <;> rfl
      exact ⟨rule, held, sameCamera, chosen.1 ▸ path, healthy, chosen.2⟩
    · exact returned.elim
  · rintro ⟨rule, held, rfl, path, healthy, live⟩
    refine ⟨_, _, ⟨rule.id, path, (), healthy, rfl, rfl⟩, .inl (touched_vca.mpr ?_)⟩
    refine ⟨rule, Table.written_modify.mpr ⟨rule, held, by simpa using live, fun same => ?_, .inl rfl⟩, rfl⟩
    have deleted := congrArg VCARule.deletedAt same
    rw [live] at deleted
    cases deleted

private theorem syncVCARules_reaches {path : String} : Reaches db (handleSyncVCARules text db call path) camera ↔
    parse path = some camera ∧ call.env.fault .getCamera = none ∧ call.env.fault .listVCARules = none ∧
      (∃ row ∈ getCamera db.toDirectory camera, matchesMilesight text row = true) ∧
      ∃ rule ∈ db.vcaRules, rule.cameraId = camera ∧ rule.deletedAt = none ∧ call.env.markFails rule.id = false ∧
        markedRule call.env rule ≠ rule := by
  simp only [Reaches, handleSyncVCARules, bind_ok, require_ok, ensure_ok, attempt_ok, pure, Except.pure,
    Except.ok.injEq, Prod.mk.injEq, decide_eq_true_eq]
  constructor
  · rintro ⟨_, _, ⟨id, path, _, cameraFault, own, found, _, driver, _, healthy, rfl, rfl⟩, touched | returned⟩
    · obtain ⟨row, written, rfl⟩ := touched_vca.mp touched
      obtain ⟨rule, held, chosen, changed, versions⟩ := Table.written_modify.mp written
      rw [decide_eq_true_eq] at chosen
      obtain ⟨rfl, live, marked⟩ := chosen
      have sameCamera : rule.cameraId = row.cameraId := by
        rcases versions with rfl | rfl <;> rfl
      rw [← sameCamera]
      exact ⟨path, cameraFault, healthy, ⟨own, found, driver⟩, rule, held, rfl, live, marked, changed⟩
    · split at returned <;> exact returned.elim
  · rintro ⟨path, cameraFault, healthy, ⟨own, found, driver⟩, rule, held, rfl, live, marked, changed⟩
    refine ⟨_, _, ⟨rule.cameraId, path, (), cameraFault, own, found, (), driver, (), healthy, rfl, rfl⟩,
      .inl (touched_vca.mpr ⟨rule, Table.written_modify.mpr ⟨rule, held, ?_, changed, .inl rfl⟩, rfl⟩)⟩
    simp [live, marked]

private theorem admits_of_passes {claims : Claims} (caller : call.claims = some claims)
    (passed : Passes db call claims camera) : Admits db call camera := by
  unfold Admits
  rw [caller]
  exact passed.2

private theorem listPPEZones_reaches {path : String} {includeDeleted : Bool}
    (reached : Reaches db (handleListPPEZones db call path includeDeleted) camera) : Admits db call camera := by
  simp only [Reaches, handleListPPEZones, bind_ok, require_ok, ensure_ok, attempt_ok, gate_ok, pure, Except.pure,
    Except.ok.injEq, Prod.mk.injEq] at reached
  obtain ⟨_, _, ⟨claims, caller, id, _, _, passed, _, _, _, _, rfl, rfl⟩, touched | ⟨row, listed, rfl⟩⟩ := reached
  · exact absurd touched not_touched
  · simp only [listZones, List.mem_insertionSort, List.mem_filter, decide_eq_true_eq] at listed
    exact listed.2.1 ▸ admits_of_passes caller passed

private theorem createPPEZone_reaches {path : String} {body : Option PPEZoneCreate}
    (reached : Reaches db (handleCreatePPEZone text db call path body) camera) : Admits db call camera := by
  simp only [Reaches, handleCreatePPEZone, bind_ok, require_ok, ensure_ok, attempt_ok, writer_ok, gate_ok, pure,
    Except.pure, Except.ok.injEq, Prod.mk.injEq] at reached
  obtain ⟨_, _, ⟨claims, writes, id, _, _, passed, input, _, type, _, _, _, own, found, _, _, _, _, zones, inserted, rfl,
    rfl⟩, reached⟩ := reached
  have same : own.id = camera := by
    rcases reached with touched | returned
    · obtain ⟨row, written, rfl⟩ := touched_zones.mp touched
      rw [(Table.written_insert? inserted).mp written]
      rfl
    · exact returned
  rw [← same, getCamera_id found]
  exact admits_of_passes writes.1 passed

private theorem updatePPEZone_reaches {path : String} {body : Option PPEZoneCreate} :
    Reaches db (handleUpdatePPEZone text db call path body) camera ↔ ∃ zone ∈ db.zones, zone.cameraId = camera ∧
      parse path = some zone.id ∧ call.env.fault .updatePPEZone = none ∧
      ∃ claims, Writes call claims ∧ zone.organizationId = claims.organizationId ∧
        ∃ input ∈ body, ∃ type, validatePPEZoneCreate text input = .ok type ∧
          revisedZone input type call.env.now zone ≠ zone := by
  simp only [Reaches, handleUpdatePPEZone, bind_ok, require_ok, ensure_ok, attempt_ok, writer_ok, pure, Except.pure,
    Except.ok.injEq, Prod.mk.injEq, decide_eq_true_eq, Table.affected_pos]
  constructor
  · rintro ⟨_, _, ⟨claims, writes, id, path, input, body, type, valid, _, healthy, _, _, rfl, rfl⟩, touched | returned⟩
    · obtain ⟨row, written, rfl⟩ := touched_zones.mp touched
      obtain ⟨zone, held, chosen, changed, versions⟩ := Table.written_modify.mp written
      rw [ownZone, decide_eq_true_eq] at chosen
      have sameCamera : zone.cameraId = row.cameraId := by
        rcases versions with rfl | rfl <;> rfl
      exact ⟨zone, held, sameCamera, chosen.1 ▸ path, healthy, claims, writes, chosen.2, input, body, type, valid,
        changed⟩
    · exact returned.elim
  · rintro ⟨zone, held, rfl, path, healthy, claims, writes, organization, input, body, type, valid, changed⟩
    have chosen : ownZone zone.id claims.organizationId zone = true := by simp [ownZone, organization]
    exact ⟨_, _, ⟨claims, writes, zone.id, path, input, body, type, valid, (), healthy, (), ⟨zone, held, chosen⟩, rfl,
      rfl⟩, .inl (touched_zones.mpr ⟨zone, Table.written_modify.mpr ⟨zone, held, chosen, changed, .inl rfl⟩, rfl⟩)⟩

private theorem softDeletePPEZone_touched {id : UUID} {organizationId : String} {now : Instant} :
    Touched db (softDeletePPEZone db id organizationId now) camera ↔
      (∃ rule ∈ db.rules, rule.cameraId = some camera ∧ boundRule id organizationId rule = true) ∨
        ∃ zone ∈ db.zones, zone.cameraId = camera ∧ liveZone id organizationId zone = true := by
  simp only [Touched, softDeletePPEZone, Table.not_written_self, false_and, exists_false, false_or]
  constructor
  · rintro (⟨row, written, rfl⟩ | ⟨row, written, own⟩)
    · obtain ⟨zone, held, chosen, _, versions⟩ := Table.written_modify.mp written
      refine .inr ⟨zone, held, ?_, chosen⟩
      rcases versions with rfl | rfl <;> rfl
    · obtain ⟨rule, held, chosen, _, versions⟩ := Table.written_modify.mp written
      refine .inl ⟨rule, held, ?_, chosen⟩
      rcases versions with rfl | rfl <;> exact own
  · rintro (⟨rule, held, own, chosen⟩ | ⟨zone, held, own, chosen⟩)
    · refine .inr ⟨rule, Table.written_modify.mpr ⟨rule, held, chosen, fun same => ?_, .inl rfl⟩, own⟩
      simp only [boundRule, decide_eq_true_eq] at chosen
      have deleted := congrArg ComplianceRule.deletedAt same
      rw [chosen.2.2] at deleted
      cases deleted
    · refine .inl ⟨zone, Table.written_modify.mpr ⟨zone, held, chosen, fun same => ?_, .inl rfl⟩, own⟩
      simp only [liveZone, decide_eq_true_eq] at chosen
      have deleted := congrArg PPEZone.deletedAt same
      rw [chosen.2.2] at deleted
      cases deleted

private theorem deletePPEZone_reaches {path : String} : Reaches db (handleDeletePPEZone db call path) camera ↔
    call.env.fault .softDeletePPEZone = none ∧ ∃ claims, Writes call claims ∧ ∃ id ∈ parse path,
      (∃ rule ∈ db.rules, rule.cameraId = some camera ∧ boundRule id claims.organizationId rule = true) ∨
        ∃ zone ∈ db.zones, zone.cameraId = camera ∧ liveZone id claims.organizationId zone = true := by
  simp only [Reaches, handleDeletePPEZone, bind_ok, require_ok, attempt_ok, writer_ok, pure, Except.pure,
    Except.ok.injEq, Prod.mk.injEq]
  constructor
  · rintro ⟨_, _, ⟨claims, writes, id, path, _, healthy, rfl, rfl⟩, touched | returned⟩
    · exact ⟨healthy, claims, writes, id, path, softDeletePPEZone_touched.mp touched⟩
    · split at returned <;> exact returned.elim
  · rintro ⟨healthy, claims, writes, id, path, reached⟩
    exact ⟨_, _, ⟨claims, writes, id, path, (), healthy, rfl, rfl⟩, .inl (softDeletePPEZone_touched.mpr reached)⟩

private theorem listComplianceRules_reaches {path : String} {includeDeleted : Bool} (restricted : Restricted call)
    (closed : ¬ Admits db call camera) :
    Reaches db (handleListComplianceRules db call path includeDeleted) camera ↔ includeDeleted = false ∧
      call.env.fault .listComplianceRules = none ∧ ∃ claims ∈ call.claims, ∃ own ∈ db.cameras,
        parse path = some own.id ∧ Passes db call claims own.id ∧ own.deletedAt = none ∧
        ∃ rule ∈ db.rules, appliesTo claims.organizationId own.id (own.siteId.getD "") rule = true ∧
          rule.deletedAt = none ∧ ShowsZone db rule.zoneId camera := by
  simp only [Reaches, handleListComplianceRules, bind_ok, require_ok, ensure_ok, attempt_ok, gate_ok, pure,
    Except.pure, Except.ok.injEq, Prod.mk.injEq, Option.filter_eq_some_iff]
  obtain ⟨caller, given, limited⟩ := restricted
  constructor
  · rintro ⟨_, _, ⟨claims, same, id, path, _, passed, _, permitted, own, ⟨found, live⟩, _, healthy, rfl, rfl⟩,
      touched | ⟨listed, member, shown⟩⟩
    · exact absurd touched not_touched
    obtain ⟨held, rfl⟩ := Table.find?_eq_some.mp found
    rw [Option.mem_def.mp given] at same
    cases same
    -- Only an administrator may list deleted rows, and no administrator is restricted.
    have current : includeDeleted = false := by
      cases includeDeleted with
      | false => rfl
      | true =>
        simp only [Bool.not_true, Bool.false_or, decide_eq_true_eq] at permitted
        rw [permitted] at limited
        cases limited
    subst current
    obtain ⟨rule, filtered, rfl⟩ := List.mem_map.mp member
    simp only [listRules, List.mem_insertionSort, List.mem_filter, decide_eq_true_eq, Bool.false_eq_true,
      false_or] at filtered live
    obtain ⟨inTable, applies, undeleted⟩ := filtered
    rcases shown with own_ | zone
    · have here : own.id = camera := by
        simp only [appliesTo, decide_eq_true_eq] at applies
        rcases applies.2 with camera_ | ⟨none_, _⟩
        · exact Option.some.inj (camera_.symm.trans own_)
        · simp [joined, none_] at own_
      exact absurd (here ▸ admits_of_passes given passed) closed
    · exact ⟨rfl, healthy, caller, given, own, held, path, passed, live, rule, inTable, applies, undeleted, zone⟩
  · rintro ⟨rfl, healthy, claims, given, own, held, path, passed, live, rule, inTable, applies, undeleted, zone⟩
    refine ⟨db, _, ⟨claims, given, own.id, path, (), passed, (), rfl, own,
      ⟨Table.find?_eq_some.mpr ⟨held, rfl⟩, by simpa using live⟩, (), healthy, rfl, rfl⟩,
      .inr ⟨joined db false rule, List.mem_map_of_mem ?_, .inr zone⟩⟩
    simp only [listRules, List.mem_insertionSort, List.mem_filter, decide_eq_true_eq]
    exact ⟨inTable, applies, .inr undeleted⟩

theorem getPPEZone_some {id : UUID} {organizationId : String} {zone : PPEZone} :
    getPPEZone db id organizationId = some zone ↔
      zone ∈ db.zones ∧ zone.id = id ∧ zone.organizationId = organizationId ∧ zone.deletedAt = none := by
  simp [getPPEZone, Option.filter_eq_some_iff, Table.find?_eq_some, and_assoc]

private theorem createComplianceRule_reaches {path : String} {body : Option ComplianceRuleCreate}
    (closed : ¬ Admits db call camera) :
    Reaches db (handleCreateComplianceRule text db call path body) camera ↔
      call.env.fault .getComplianceRule = none ∧ ∃ claims own type input zone,
        RuleAccepted text db call path body claims own type input zone ∧ zone.cameraId = camera := by
  simp only [Reaches, createComplianceRule_ok, Prod.mk.injEq]
  constructor
  · rintro ⟨_, _, ⟨claims, own, type, input, zone, rules, accepted, inserted, rfl, rfl⟩, reached⟩
    have admitted := admits_of_passes accepted.writer.1 accepted.gate
    have elsewhere : (newRule call claims own type input).cameraId ≠ some camera := by
      intro same
      simp only [newRule] at same
      split at same
      · cases same
      · exact closed (Option.some.inj same ▸ admitted)
    rcases reached with touched | returned
    · obtain ⟨row, written, here⟩ := touched_rules.mp touched
      rw [(Table.written_insert? inserted).mp written] at here
      exact absurd here elsewhere
    · split at returned
      · rename_i healthy
        refine ⟨healthy, claims, own, type, input, zone, accepted, ?_⟩
        rcases returned with here | ⟨shown, held, same, _, cameraId⟩
        · exact absurd here elsewhere
        · obtain ⟨owned, zoneId, _⟩ := getPPEZone_some.mp accepted.owned
          rwa [Table.key_inj owned held (zoneId.trans same.symm)]
      · exact returned.elim
  · rintro ⟨healthy, claims, own, type, input, zone, accepted, rfl⟩
    have fresh : ∀ rule ∈ db.rules, rule.id ≠ (newRule call claims own type input).id := accepted.fresh
    obtain ⟨rules, inserted⟩ := Table.insert?_of_fresh fresh
    obtain ⟨owned, zoneId, _, live⟩ := getPPEZone_some.mp accepted.owned
    refine ⟨_, _, ⟨claims, own, type, input, zone, rules, accepted, inserted, rfl, rfl⟩, .inr ?_⟩
    rw [if_pos healthy]
    exact .inr ⟨zone, owned, zoneId, live, rfl⟩

private theorem updateComplianceRule_reaches {path rulePath : String} {body : Option ComplianceRuleCreate} :
    Reaches db (handleUpdateComplianceRule text db call path rulePath body) camera ↔ ∃ claims own id type input,
      RuleRevised text db call path rulePath body claims own id type input ∧
      ∃ rule ∈ db.rules, ownRule id claims.organizationId rule = true ∧
        revisedRule input type own call.env.now rule ≠ rule ∧
        (rule.cameraId = some camera ∨ (revisedRule input type own call.env.now rule).cameraId = some camera) := by
  simp only [Reaches, updateComplianceRule_ok, Prod.mk.injEq]
  constructor
  · rintro ⟨_, _, ⟨claims, own, id, type, input, revised, rfl, rfl⟩, touched | returned⟩
    · obtain ⟨row, written, here⟩ := touched_rules.mp touched
      obtain ⟨rule, held, chosen, changed, versions⟩ := Table.written_modify.mp written
      refine ⟨claims, own, id, type, input, revised, rule, held, chosen, changed, ?_⟩
      rcases versions with rfl | rfl
      · exact .inl here
      · exact .inr here
    · exact returned.elim
  · rintro ⟨claims, own, id, type, input, revised, rule, held, chosen, changed, before | after⟩
    · exact ⟨_, _, ⟨claims, own, id, type, input, revised, rfl, rfl⟩, .inl (touched_rules.mpr
        ⟨rule, Table.written_modify.mpr ⟨rule, held, chosen, changed, .inl rfl⟩, before⟩)⟩
    · exact ⟨_, _, ⟨claims, own, id, type, input, revised, rfl, rfl⟩, .inl (touched_rules.mpr
        ⟨_, Table.written_modify.mpr ⟨rule, held, chosen, changed, .inr rfl⟩, after⟩)⟩

private theorem deleteComplianceRule_reaches {path : String} :
    Reaches db (handleDeleteComplianceRule db call path) camera ↔ ∃ rule ∈ db.rules, rule.cameraId = some camera ∧
      parse path = some rule.id ∧ call.env.fault .softDeleteComplianceRule = none ∧ rule.deletedAt = none ∧
      ∃ claims, Writes call claims ∧ rule.organizationId = claims.organizationId := by
  simp only [Reaches, handleDeleteComplianceRule, bind_ok, require_ok, ensure_ok, attempt_ok, writer_ok, pure,
    Except.pure, Except.ok.injEq, Prod.mk.injEq, decide_eq_true_eq, Table.affected_pos]
  constructor
  · rintro ⟨_, _, ⟨claims, writes, id, path, _, healthy, _, _, rfl, rfl⟩, touched | returned⟩
    · obtain ⟨row, written, here⟩ := touched_rules.mp touched
      obtain ⟨rule, held, chosen, _, versions⟩ := Table.written_modify.mp written
      rw [liveRule, decide_eq_true_eq] at chosen
      have sameCamera : rule.cameraId = row.cameraId := by
        rcases versions with rfl | rfl <;> rfl
      exact ⟨rule, held, sameCamera.trans here, chosen.1 ▸ path, healthy, chosen.2.2, claims, writes, chosen.2.1⟩
    · exact returned.elim
  · rintro ⟨rule, held, here, path, healthy, live, claims, writes, organization⟩
    have chosen : liveRule rule.id claims.organizationId rule = true := by simp [liveRule, organization, live]
    refine ⟨_, _, ⟨claims, writes, rule.id, path, (), healthy, (), ⟨rule, held, chosen⟩, rfl, rfl⟩,
      .inl (touched_rules.mpr ⟨rule, Table.written_modify.mpr ⟨rule, held, chosen, fun same => ?_, .inl rfl⟩, here⟩)⟩
    have deleted := congrArg ComplianceRule.deletedAt same
    rw [live] at deleted
    cases deleted

/-- A camera that the caller may not access is reached exactly on the unchecked
paths. -/
theorem reached_iff_unchecked (restricted : Restricted call) (closed : ¬ Admits db call camera) :
    Reached text db call camera ↔ Unchecked text db call camera := by
  rw [reached_iff]
  unfold Unchecked respond
  cases call.request with
  | listVCARules path => exact listVCARules_reaches
  | createVCARule path body => exact createVCARule_reaches
  | updateVCARule own path body => exact updateVCARule_reaches
  | deleteVCARule own path => exact deleteVCARule_reaches
  | syncVCARules path => exact syncVCARules_reaches
  | listPPEZones path includeDeleted => exact iff_of_false (fun reached => closed (listPPEZones_reaches reached)) id
  | createPPEZone path body => exact iff_of_false (fun reached => closed (createPPEZone_reaches reached)) id
  | updatePPEZone own path body => exact updatePPEZone_reaches
  | deletePPEZone own path => exact deletePPEZone_reaches
  | listComplianceRules path includeDeleted => exact listComplianceRules_reaches restricted closed
  | createComplianceRule path body => exact createComplianceRule_reaches closed
  | updateComplianceRule path rulePath body => exact updateComplianceRule_reaches
  | deleteComplianceRule own path => exact deleteComplianceRule_reaches

theorem respects_iff_confined : Respects text db call ↔ Confined text db call := by
  constructor
  · intro respects restricted camera unchecked
    by_contra closed
    exact closed (respects restricted camera ((reached_iff_unchecked restricted closed).mpr unchecked))
  · intro confined restricted camera reached
    by_contra closed
    exact closed (confined restricted camera ((reached_iff_unchecked restricted closed).mp reached))

end Handlers

/-- Along a run, no row of a camera the caller may not access is created,
changed, deleted or returned exactly if every request is confined. -/
theorem access_respected_iff_confined (text : Text) (db : Database) (calls : List Call) :
    Along (step text) (Respects text) db calls ↔ Along (step text) (Confined text) db calls :=
  along_congr (fun _ _ => respects_iff_confined) calls db

private def goText : Text := ⟨fun text => "\"" ++ text ++ "\"", String.toLower⟩

private def manager : Claims := ⟨"00000000-0000-0000-0000-00000000000a", "ops", .siteManager, "Ops", "co-1"⟩

private def outsider : Claims := ⟨"00000000-0000-0000-0000-00000000000b", "eve", .viewer, "Eve", "co-2"⟩

private def gateRule : VCARule := { id := ⟨1⟩, cameraId := ⟨7⟩, ruleType := "intrusion" }

private def gateZone : PPEZone := { id := ⟨2⟩, organizationId := "co-1", cameraId := ⟨7⟩, zoneType := .noGo }

/-- Two sites of `co-1`; the manager is assigned the one without the camera. -/
private def yards : Database where
  users := ⟨[⟨⟨10⟩, "ops", .siteManager, "Ops", "", "", some "co-1", ["AA-200"], 0, 0, none⟩,
    ⟨⟨11⟩, "eve", .viewer, "Eve", "", "", some "co-2", [], 0, 0, none⟩], by decide⟩
  sites := ⟨[⟨"AA-100", "Yard", "co-1", none⟩, ⟨"AA-200", "Depot", "co-1", none⟩], by decide⟩
  cameras := ⟨[⟨⟨7⟩, "Gate", "Milesight", "MS-2962", some "AA-100", "", none⟩], by decide⟩
  organizations := ["co-1", "co-2"]
  vcaRules := ⟨[gateRule], by decide⟩
  zones := ⟨[gateZone], by decide⟩
  rules := .empty

private def deletesRule : Call :=
  ⟨some outsider, .deleteVCARule "" "00000000-0000-0000-0000-000000000001", { now := 5 }⟩

private def deletesZone : Call :=
  ⟨some manager, .deletePPEZone "" "00000000-0000-0000-0000-000000000002", { now := 5 }⟩

/-- A viewer of another organisation deletes the gate's intrusion rule, and a
site manager deletes a zone on a camera of a site not assigned to them. -/
theorem outsider_deletes_rule_and_manager_deletes_zone :
    ¬ Along (step goText) (Respects goText) yards [deletesRule] ∧
      ¬ Along (step goText) (Respects goText) yards [deletesZone] := by
  constructor
  · rintro ⟨respects, _⟩
    have written : Table.Written yards.vcaRules (handle goText yards deletesRule).1.vcaRules gateRule :=
      .inl ⟨by decide +kernel, by decide +kernel⟩
    have admitted := respects ⟨outsider, rfl, rfl⟩ ⟨7⟩ (.inl (.inl ⟨gateRule, written, rfl⟩))
    have refused : canAccessCamera yards.toDirectory (some outsider) ⟨7⟩ = .ok false := by
      decide +kernel
    exact absurd (refused.symm.trans admitted) (by decide)
  · rintro ⟨respects, _⟩
    have written : Table.Written yards.zones (handle goText yards deletesZone).1.zones gateZone :=
      .inl ⟨by decide +kernel, by decide +kernel⟩
    have admitted := respects ⟨manager, rfl, rfl⟩ ⟨7⟩ (.inl (.inr (.inl ⟨gateZone, written, rfl⟩)))
    have refused : canAccessCamera yards.toDirectory (some manager) ⟨7⟩ = .ok false := by
      decide +kernel
    exact absurd (refused.symm.trans admitted) (by decide)

end Ironsight.AnalyticsProofs
