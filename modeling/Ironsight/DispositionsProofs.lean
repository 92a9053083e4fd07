import Ironsight.Dispositions

/-! When dispositions are all or nothing. Each request keeps an account of what
it has done by the statement it stands before (`Stage`); the moves of others keep
it and its own extend it, as long as no write that matters is dropped. A request
that panics has a row behind it and an error as its answer. -/
namespace Ironsight.Dispositions
open Tables Runs Uuid Access Soc FourEyes FourEyesProofs

/-! ## What one statement does to the tables -/

/-- What later statements keep of an alarm. -/
structure Later (old alarm : ActiveAlarm) : Prop where
  id : alarm.id = old.id
  threat : alarm.aiThreatLevel = old.aiThreatLevel
  acknowledged : old.acknowledged = true → alarm.acknowledged = true
  author : ∀ user, old.acknowledgedByUserId = some user → alarm.acknowledgedByUserId = some user

private theorem Later.refl (alarm : ActiveAlarm) : Later alarm alarm := ⟨rfl, rfl, fun held => held, fun _ held => held⟩

/-- The verdict that a statement is about to write. -/
def Writes (env : Env) (thread : Thread) (alarmId : String) (correct : Bool) : Prop :=
  env.fault = none ∧ ∃ d, thread = .disposing d ∧ d.pc = .writeCorrect correct ∧ d.input.alarmId = alarmId

/-- An alarm after a statement, and the one it was before. -/
def Became (env : Env) (thread : Thread) (old alarm : ActiveAlarm) : Prop :=
  Later old alarm ∧ ((alarm.aiWasCorrect = old.aiWasCorrect ∧ ∀ correct, ¬ Writes env thread alarm.id correct) ∨
    ∃ correct, Writes env thread alarm.id correct ∧ alarm.aiWasCorrect = some correct)

private theorem became_self {env : Env} {thread : Thread} {alarm : ActiveAlarm}
    (quiet : ∀ correct, ¬ Writes env thread alarm.id correct) : Became env thread alarm alarm :=
  ⟨.refl alarm, .inl ⟨rfl, quiet⟩⟩

private theorem mem_updateAlarms {env : Env} {store : Store} {alarms : Table ActiveAlarm.id} {alarm : ActiveAlarm}
    (member : alarm ∈ (updateAlarms env store alarms).alarms) :
    (env.fault = none ∧ alarm ∈ alarms) ∨ (env.fault ≠ none ∧ alarm ∈ store.alarms) := by
  unfold updateAlarms at member
  split at member
  · rename_i err failed
    exact .inr ⟨by simp [failed], member⟩
  · rename_i healthy
    exact .inl ⟨healthy, member⟩

/-- An acknowledgement marks the alarm it names and names its author if nobody
came first. -/
private theorem mem_acknowledgeAlarm {alarms : Table ActiveAlarm.id} {alarmId callsign : String} {now : Instant}
    {user : Option UUID} {alarm : ActiveAlarm} (member : alarm ∈ acknowledgeAlarm alarms alarmId now user callsign) :
    ∃ old ∈ alarms, Later old alarm ∧ alarm.aiWasCorrect = old.aiWasCorrect ∧
      (alarm.id = alarmId → alarm.acknowledged = true ∧
        alarm.acknowledgedByUserId = old.acknowledgedByUserId.orElse fun _ => user) := by
  dsimp only [acknowledgeAlarm] at member
  rw [Table.mem_modify] at member
  obtain ⟨old, held, rfl⟩ := member
  refine ⟨old, held, ?_⟩
  by_cases named : old.id = alarmId
  · rw [if_pos (decide_eq_true named)]
    refine ⟨⟨rfl, rfl, fun _ => rfl, fun first author => ?_⟩, rfl, fun _ => ⟨rfl, rfl⟩⟩
    simp [author]
  · rw [if_neg (by simpa using named)]
    exact ⟨.refl old, rfl, fun same => absurd same named⟩

/-- An acknowledgement that may fail keeps the verdicts. -/
private theorem became_acknowledged {env : Env} {thread : Thread} {store : Store} {alarmId callsign : String}
    {user : Option UUID} {alarm : ActiveAlarm} (quiet : ∀ correct, ¬Writes env thread alarm.id correct)
    (member : alarm ∈ (updateAlarms env store (acknowledgeAlarm store.alarms alarmId env.now user callsign)).alarms) :
    ∃ old ∈ store.alarms, Became env thread old alarm := by
  rcases mem_updateAlarms member with ⟨_, written⟩ | ⟨_, kept⟩
  · obtain ⟨old, held, later, sameVerdict, _⟩ := mem_acknowledgeAlarm written
    exact ⟨old, held, later, .inl ⟨sameVerdict, quiet⟩⟩
  · exact ⟨alarm, kept, became_self quiet⟩

/-- A verdict that may fail reaches the alarm it names. -/
private theorem became_judged {env : Env} {store : Store} {d : Disposition} {correct : Bool} {alarm : ActiveAlarm}
    (pc : d.pc = .writeCorrect correct)
    (member : alarm ∈ (updateAlarms env store (store.alarms.modify (fun alarm => alarm.id = d.input.alarmId)
      (fun alarm => { alarm with aiWasCorrect := some correct }) fun _ => rfl)).alarms) :
    ∃ old ∈ store.alarms, Became env (.disposing d) old alarm := by
  rcases mem_updateAlarms member with ⟨healthy, written⟩ | ⟨failed, kept⟩
  · rw [Table.mem_modify] at written
    obtain ⟨old, held, rfl⟩ := written
    refine ⟨old, held, ?_⟩
    by_cases named : old.id = d.input.alarmId
    · rw [if_pos (decide_eq_true named)]
      exact ⟨⟨rfl, rfl, fun held => held, fun _ held => held⟩, .inr ⟨correct, ⟨healthy, d, rfl, pc, named.symm⟩, rfl⟩⟩
    · rw [if_neg (by simpa using named)]
      refine became_self ?_
      rintro _ ⟨_, other, same, _, sameId⟩
      cases same
      exact named sameId.symm
  · exact ⟨alarm, kept, became_self fun _ writes => failed writes.1⟩

/-- Every statement of either handler keeps the alarms, apart from what
acknowledgements and verdicts add. -/
theorem next_alarms (text : TextLib) (env : Env) (thread : Thread) (store : Store) :
    ∀ alarm ∈ ((program text).next env thread store).2.alarms, ∃ old ∈ store.alarms, Became env thread old alarm := by
  intro alarm member
  cases thread with
  | refused reply =>
    exact ⟨alarm, member, became_self (by rintro correct ⟨_, d, same, _⟩; cases same)⟩
  | verifying v =>
    have sameAlarms : (nextVerification text env v store).2.alarms = store.alarms := by
      unfold nextVerification
      split
      · split <;> rfl
      · rfl
      · rfl
    refine ⟨alarm, ?_, became_self (by rintro correct ⟨_, d, same, _⟩; cases same)⟩
    rw [← sameAlarms]
    exact member
  | disposing d =>
    have elsewhere (quiet : ∀ correct, d.pc ≠ .writeCorrect correct) :
        ∀ correct, ¬ Writes env (.disposing d) alarm.id correct := by
      rintro correct ⟨_, other, same, stage, _⟩
      cases same
      exact quiet correct stage
    simp only [program] at member
    cases stage : d.pc with
    | insertEvent =>
      refine ⟨alarm, ?_, became_self (elsewhere (by simp [stage]))⟩
      simp only [nextDisposition, stage] at member
      split at member <;> exact member
    | closeAlarm =>
      simp only [nextDisposition, stage] at member
      exact became_acknowledged (elsewhere (by simp [stage])) member
    | acknowledge =>
      simp only [nextDisposition, stage] at member
      exact became_acknowledged (elsewhere (by simp [stage])) member
    | readThreat =>
      simp only [nextDisposition, stage] at member
      exact ⟨alarm, member, became_self (elsewhere (by simp [stage]))⟩
    | done reply =>
      simp only [nextDisposition, stage] at member
      exact ⟨alarm, member, became_self (elsewhere (by simp [stage]))⟩
    | writeCorrect correct =>
      simp only [nextDisposition, stage] at member
      exact became_judged stage member

/-- Events keep their id and what was dispositioned. -/
theorem next_events (text : TextLib) (env : Env) (thread : Thread) (store : Store) {event : SecurityEvent}
    (held : event ∈ store.events) : ∃ later ∈ ((program text).next env thread store).2.events,
      later.id = event.id ∧ later.alarmId = event.alarmId ∧ later.siteId = event.siteId ∧
        later.dispositionCode = event.dispositionCode := by
  rcases next_effect text env thread store with
    ⟨_, table, _, _⟩ | ⟨_, _, table, _, _, _⟩ | ⟨v, _, _, table, _, _⟩
  · rw [table]
    exact ⟨event, held, rfl, rfl, rfl, rfl⟩
  · exact ⟨event, (Table.mem_insert? table).mpr (.inl held), rfl, rfl, rfl, rfl⟩
  · rw [table]
    refine ⟨_, Table.mem_modify.mpr ⟨event, held, rfl⟩, ?_⟩
    split <;> exact ⟨rfl, rfl, rfl, rfl⟩

/-- A statement leaves the request with the same caller and the same body. -/
theorem nextDisposition_subject (text : TextLib) (env : Env) (d : Disposition) (store : Store) :
    (nextDisposition text env d store).1.claims = d.claims ∧
      (nextDisposition text env d store).1.input.toEventBody = d.input.toEventBody := by
  unfold nextDisposition
  split
  · split <;> exact ⟨rfl, rfl⟩
  all_goals exact ⟨rfl, rfl⟩

/-! ## Accounts of requests -/

section Accounts
variable {text : TextLib} {store : Store} {moves : List (Move Request Env)} {thread : Nat} {d d' : Disposition}

private theorem after_snoc (move : Move Request Env) :
    after text store (moves ++ [move]) = (program text).step (after text store moves) move := by
  unfold after
  rw [exec_append, exec_cons, exec_nil]

private theorem after_run {current : Thread} (running : (after text store moves).threads[thread]? = some current)
    (env : Env) : after text store (moves ++ [.run thread env]) =
      ⟨((program text).next env current (after text store moves).shared).2,
        (after text store moves).threads.set thread ((program text).next env current (after text store moves).shared).1⟩ := by
  rw [after_snoc, Program.step_run running]

private theorem after_events (move : Move Request Env) {event : SecurityEvent}
    (held : event ∈ (after text store moves).shared.events) :
    ∃ later ∈ (after text store (moves ++ [move])).shared.events, later.id = event.id ∧
      later.alarmId = event.alarmId ∧ later.siteId = event.siteId ∧ later.dispositionCode = event.dispositionCode := by
  rw [after_snoc]
  refine Program.step_preserves (fun pool : Pool Store Thread => ∃ later ∈ pool.shared.events, later.id = event.id ∧
    later.alarmId = event.alarmId ∧ later.siteId = event.siteId ∧ later.dispositionCode = event.dispositionCode)
    ⟨event, held, rfl, rfl, rfl, rfl⟩ move (fun _ _ => ⟨event, held, rfl, rfl, rfl, rfl⟩) ?_
  intro other env current _ _
  exact next_events text env current _ held

/-- An alarm after a move is the one before it, or has the verdict of the
request that moved. -/
private theorem after_alarms (move : Move Request Env) :
    ∀ alarm ∈ (after text store (moves ++ [move])).shared.alarms, ∃ old ∈ (after text store moves).shared.alarms,
      Later old alarm ∧ (alarm.aiWasCorrect = old.aiWasCorrect ∨ ∃ (other : Nat) (d : Disposition) (correct : Bool),
        (after text store moves).threads[other]? = some (.disposing d) ∧ d.pc = .writeCorrect correct ∧
        d.input.alarmId = alarm.id ∧ alarm.aiWasCorrect = some correct) := by
  intro alarm member
  rw [after_snoc] at member
  cases move with
  | spawn request => exact ⟨alarm, member, .refl alarm, .inl rfl⟩
  | run other env =>
    cases running : (after text store moves).threads[other]? with
    | none =>
      rw [Program.step_run_none running] at member
      exact ⟨alarm, member, .refl alarm, .inl rfl⟩
    | some current =>
      rw [Program.step_run running] at member
      obtain ⟨old, held, later, ⟨same, _⟩ | ⟨correct, ⟨_, d, rfl, stage, named⟩, written⟩⟩ :=
        next_alarms text env current _ alarm member
      · exact ⟨old, held, later, .inl same⟩
      · exact ⟨old, held, later, .inr ⟨other, d, correct, running, stage, named, written⟩⟩

/-- A request is still there after a move, with the body it came with. -/
private theorem after_threads (move : Move Request Env) (running : .disposing d ∈ (after text store moves).threads) :
    ∃ later, .disposing later ∈ (after text store (moves ++ [move])).threads ∧
      later.input.toEventBody = d.input.toEventBody := by
  rw [after_snoc]
  refine Program.step_preserves (fun pool : Pool Store Thread => ∃ later, .disposing later ∈ pool.threads ∧
    later.input.toEventBody = d.input.toEventBody) ⟨d, running, rfl⟩ move
    (fun _ _ => ⟨d, List.mem_append_left _ running, rfl⟩) ?_
  intro other env current _ moving
  by_cases same : current = .disposing d
  · subst same
    have inside := (List.getElem?_eq_some_iff.mp moving).1
    exact ⟨_, List.mem_set inside _, (nextDisposition_subject text env d _).2⟩
  · exact ⟨d, mem_set_of_ne moving running fun equal => same equal.symm, rfl⟩

private theorem LeftAlone.snoc (left : LeftAlone text store moves thread) {move : Move Request Env}
    (quiet : ∀ env, move = .run thread env →
      (after text store (moves ++ [move])).shared.events = (after text store moves).shared.events ∧
      (after text store (moves ++ [move])).shared.alarms = (after text store moves).shared.alarms) :
    LeftAlone text store (moves ++ [move]) thread := by
  intro earlier env part
  rcases List.prefix_concat_iff.mp part with whole | shorter
  · obtain ⟨same, last⟩ := List.append_inj' whole rfl
    have performed : move = .run thread env := (List.singleton_inj.mp last).symm
    rw [whole, same]
    exact quiet env performed
  · exact left earlier env shorter

private theorem NewRow.snoc {id : String} (row : NewRow text store moves thread d id) (move : Move Request Env)
    (body : d'.input.toEventBody = d.input.toEventBody) : NewRow text store (moves ++ [move]) thread d' id := by
  obtain ⟨⟨earlier, env, part, inserted⟩, event, held, sameId, sameAlarm, sameSite, sameCode⟩ := row
  obtain ⟨later, member, keptId, keptAlarm, keptSite, keptCode⟩ := after_events move held
  refine ⟨⟨earlier, env, part.trans (List.prefix_append ..), inserted⟩, later, member, keptId.trans sameId, ?_⟩
  rw [body]
  exact ⟨keptAlarm.trans sameAlarm, keptSite.trans sameSite, keptCode.trans sameCode⟩

private theorem Acknowledged.snoc {old alarm : ActiveAlarm} (acknowledged : Acknowledged text store moves thread d old)
    (later : Later old alarm) (move : Move Request Env) (claims : d'.claims = d.claims) :
    Acknowledged text store (moves ++ [move]) thread d' alarm := by
  refine ⟨later.acknowledged acknowledged.1, fun user names => ?_⟩
  have same : caller d' = caller d := by simp only [caller, Disposition.operator, claims]
  rw [same] at names
  rcases acknowledged.2 user names with own | ⟨first, author, earlier, env, part, before⟩
  · exact .inl (later.author user own)
  · rw [← later.id] at before
    exact .inr ⟨first, later.author first author, earlier, env, part.trans (List.prefix_append ..), before⟩

/-- What a request has done by the statement it stands before. -/
inductive Stage (text : TextLib) (store : Store) (moves : List (Move Request Env)) (thread : Nat) (d : Disposition) :
    Prop where
  | waiting (pc : d.pc = .insertEvent) (left : LeftAlone text store moves thread)
  | refused (err : String) (pc : d.pc = .done (.error 500 err)) (left : LeftAlone text store moves thread)
  | inserted (id : String) (event : d.event = some id) (row : NewRow text store moves thread d id)
      (pc : d.pc = .closeAlarm ∨ (d.pc = .acknowledge ∧ d.input.disposedByUserId = d.operator.getD .nil) ∨
        (d.pc = .done (.json 200 id) ∧ d.input.alarmId = ""))
  | acknowledged (id : String) (event : d.event = some id) (row : NewRow text store moves thread d id)
      (pc : d.pc = .readThreat ∨ ∃ correct, d.pc = .writeCorrect correct)
      (alarms : ∀ alarm ∈ (after text store moves).shared.alarms, alarm.id = d.input.alarmId →
        Acknowledged text store moves thread d alarm)
      (verdict : ∀ correct, d.pc = .writeCorrect correct → ∀ alarm ∈ (after text store moves).shared.alarms,
        alarm.id = d.input.alarmId → correct = aiCorrect alarm.aiThreatLevel d.input.dispositionCode)
  | finished (id : String) (pc : d.pc = .done (.json 200 id)) (row : NewRow text store moves thread d id)
      (alarms : ∀ alarm ∈ (after text store moves).shared.alarms, alarm.id = d.input.alarmId →
        Acknowledged text store moves thread d alarm ∧ Judged (after text store moves) alarm)

/-- The account that the pool keeps of one of its threads. -/
def Account (text : TextLib) (store : Store) (moves : List (Move Request Env)) (thread : Nat) : Thread → Prop
  | .disposing d => Stage text store moves thread d
  | .refused _ | .verifying _ => True

private theorem Judged.snoc (move : Move Request Env) {old alarm : ActiveAlarm} (accounts : ∀ thread current,
      (after text store moves).threads[thread]? = some current → Account text store moves thread current)
    (judged : Judged (after text store moves) old) (later : Later old alarm)
    (held : old ∈ (after text store moves).shared.alarms)
    (verdict : alarm.aiWasCorrect = old.aiWasCorrect ∨ ∃ (other : Nat) (d : Disposition) (correct : Bool),
      (after text store moves).threads[other]? = some (.disposing d) ∧ d.pc = .writeCorrect correct ∧
      d.input.alarmId = alarm.id ∧ alarm.aiWasCorrect = some correct) :
    Judged (after text store (moves ++ [move])) alarm := by
  intro assessed
  rw [later.threat] at assessed ⊢
  rcases verdict with same | ⟨other, d, correct, running, stage, named, written⟩
  · obtain ⟨d, present, named, value⟩ := judged assessed
    obtain ⟨d', present', body⟩ := after_threads move present
    refine ⟨d', present', ?_, ?_⟩
    · rw [body, named, later.id]
    · rw [same, value, body]
  · obtain ⟨d', present', body⟩ := after_threads move (List.mem_of_getElem? running)
    refine ⟨d', present', by rw [body, named], ?_⟩
    have account : Stage text store moves other d := accounts other _ running
    cases account with
    | acknowledged id event row pc alarms right =>
      rw [written, body, right correct stage old held (by rw [named, later.id])]
    | waiting pc _ => simp [pc] at stage
    | refused err pc _ => simp [pc] at stage
    | inserted id _ _ pc => rcases pc with pc | ⟨pc, _⟩ | ⟨pc, _⟩ <;> simp [pc] at stage
    | finished id pc _ _ => simp [pc] at stage

/-- A request that does not move keeps its account. -/
private theorem account_kept (moves : List (Move Request Env)) (move : Move Request Env) (accounts : ∀ thread current,
      (after text store moves).threads[thread]? = some current → Account text store moves thread current)
    (thread : Nat) (current : Thread) (running : (after text store moves).threads[thread]? = some current)
    (elsewhere : Move.runs thread move = false) : Account text store (moves ++ [move]) thread current := by
  cases current with
  | refused reply => trivial
  | verifying v => trivial
  | disposing d =>
    have still {alarm : ActiveAlarm} (member : alarm ∈ (after text store (moves ++ [move])).shared.alarms) :=
      after_alarms move alarm member
    have quiet : ∀ env, move = .run thread env →
        (after text store (moves ++ [move])).shared.events = (after text store moves).shared.events ∧
        (after text store (moves ++ [move])).shared.alarms = (after text store moves).shared.alarms := by
      rintro env rfl
      simp [Move.runs] at elsewhere
    have account : Stage text store moves thread d := accounts thread _ running
    cases account with
    | waiting pc left => exact Stage.waiting pc (left.snoc quiet)
    | refused err pc left => exact Stage.refused err pc (left.snoc quiet)
    | inserted id event row pc => exact Stage.inserted id event (row.snoc move rfl) pc
    | acknowledged id event row pc alarms verdict =>
      refine Stage.acknowledged id event (row.snoc move rfl) pc ?_ ?_
      · intro alarm member named
        obtain ⟨old, held, later, _⟩ := still member
        exact (alarms old held (later.id.symm.trans named)).snoc later move rfl
      · intro correct stage alarm member named
        obtain ⟨old, held, later, _⟩ := still member
        rw [later.threat]
        exact verdict correct stage old held (later.id.symm.trans named)
    | finished id pc row alarms =>
      refine Stage.finished id pc (row.snoc move rfl) ?_
      intro alarm member named
      obtain ⟨old, held, later, written⟩ := still member
      obtain ⟨acknowledged, judged⟩ := alarms old held (later.id.symm.trans named)
      exact ⟨acknowledged.snoc later move rfl, judged.snoc move accounts later held written⟩

private theorem after_length_le {earlier : List (Move Request Env)} (part : earlier <+: moves) :
    (after text store earlier).threads.length ≤ (after text store moves).threads.length := by
  obtain ⟨rest, rfl⟩ := part
  unfold after
  rw [exec_append]
  exact Program.length_exec_le _ _

private theorem start_disposing {request : Request} (started : start text request = .disposing d) :
    d.pc = .insertEvent ∧ d.event = none := by
  unfold start at started
  split at started
  · cases started
  · cases started
    exact ⟨rfl, rfl⟩
  · cases started
  · split at started
    · cases started
    · split at started
      · cases started
      · split at started <;> cases started

/-- A new request has left everything alone: the moves before it ran others. -/
private theorem account_spawned (moves : List (Move Request Env)) (request : Request) :
    Account text store (moves ++ [.spawn request]) (after text store moves).threads.length (start text request) := by
  have left : LeftAlone text store (moves ++ [.spawn request]) (after text store moves).threads.length := by
    refine LeftAlone.snoc ?_ (by rintro env ⟨⟩)
    intro earlier env part
    have grown : (after text store earlier).threads.length ≤ (after text store moves).threads.length :=
      after_length_le ((List.prefix_append ..).trans part)
    rw [after_snoc, Program.step_run_none (List.getElem?_eq_none grown)]
    exact ⟨rfl, rfl⟩
  cases started : start text request with
  | refused reply => trivial
  | verifying v => trivial
  | disposing d => exact Stage.waiting (start_disposing started).1 left

private theorem threatOf_of_mem {store : Store} {alarm : ActiveAlarm} (held : alarm ∈ store.alarms) :
    threatOf store alarm.id = alarm.aiThreatLevel := by
  have found := Table.find?_eq_some.mpr ⟨held, rfl⟩
  simp only [threatOf, found]

private theorem judgeAI_healthy {env : Env} {d : Disposition} {id : String} {store : Store}
    (healthy : env.fault = none) : judgeAI env d id store =
      if threatOf store d.input.alarmId = "" then .done (.json 200 id)
      else if 0 < d.input.dispositionCode.toUTF8.size ∧ d.input.dispositionCode.toUTF8.size < 5 then .done (.error 500 "")
      else .writeCorrect (aiCorrect (threatOf store d.input.alarmId) d.input.dispositionCode) := by
  cases found : store.alarms.find? d.input.alarmId with
  | none => simp only [judgeAI, threatOf, healthy, found, if_true]
  | some alarm =>
    simp only [judgeAI, threatOf, healthy, found, aiCorrect]
    rfl

/-- The verdict that is about to be written, for a code that is not too short. -/
private theorem judgeAI_cases (env : Env) (d : Disposition) (id : String) (store : Store)
    (sound : ¬ (env.fault = none ∧ threatOf store d.input.alarmId ≠ "" ∧ 0 < d.input.dispositionCode.toUTF8.size ∧
      d.input.dispositionCode.toUTF8.size < 5)) :
    (judgeAI env d id store = .done (.json 200 id) ∧ (env.fault = none → threatOf store d.input.alarmId = "")) ∨
      judgeAI env d id store =
        .writeCorrect (aiCorrect (threatOf store d.input.alarmId) d.input.dispositionCode) := by
  cases failed : env.fault with
  | some err => exact .inl ⟨by simp [judgeAI, failed], by simp⟩
  | none =>
    rw [judgeAI_healthy failed]
    by_cases unassessed : threatOf store d.input.alarmId = ""
    · exact .inl ⟨if_pos unassessed, fun _ => unassessed⟩
    · have long : ¬ (0 < d.input.dispositionCode.toUTF8.size ∧ d.input.dispositionCode.toUTF8.size < 5) :=
        fun short => sound ⟨failed, unassessed, short⟩
      rw [if_neg unassessed, if_neg long]
      exact .inr rfl

private theorem completes_disposing {pool : Pool Store Thread} {env : Env}
    (running : pool.threads[thread]? = some (.disposing d)) (completes : Completes pool (.run thread env)) :
    ¬ Panics pool.shared env d ∧ (hasWork pool.shared d = true → env.fault = none) := by
  have here : OnDisposition _ pool env (.disposing d) := completes (.disposing d) (Option.mem_def.mpr running)
  exact here

private theorem nextDisposition_done {reply : Reply String} (answered : d.pc = .done reply) {env : Env} {store : Store} :
    nextDisposition text env d store = (d, store) := by
  simp only [nextDisposition, answered]

private theorem after_done {reply : Reply String}
    (running : (after text store moves).threads[thread]? = some (.disposing d)) (answered : d.pc = .done reply)
    (env : Env) : after text store (moves ++ [.run thread env]) = after text store moves := by
  obtain ⟨inside, held⟩ := List.getElem?_eq_some_iff.mp running
  rw [after_run running]
  simp only [program, nextDisposition_done answered]
  rw [← held, List.set_getElem_self]

/-! ### One statement of a request -/

section Statements
variable {env : Env} {id : String}

/-- The row is in, or the request is refused and has written nothing. -/
private theorem stage_insertEvent (running : (after text store moves).threads[thread]? = some (.disposing d))
    (pc : d.pc = .insertEvent) (left : LeftAlone text store moves thread) :
    Stage text store (moves ++ [.run thread env]) thread (nextDisposition text env d (after text store moves).shared).1 := by
  have moved := after_run running env
  cases inserted : insertEvent env d.input (after text store moves).shared with
  | error err =>
    have unchanged : nextDisposition text env d (after text store moves).shared =
        ({ d with pc := .done (.error 500 err) }, (after text store moves).shared) := by
      simp only [nextDisposition, pc, inserted]
    rw [unchanged]
    refine Stage.refused err rfl (left.snoc fun _ _ => ?_)
    simp only [moved, program, unchanged, and_self]
  | ok events =>
    have opened : nextDisposition text env d (after text store moves).shared =
        ({ d with event := some (eventId env), pc := .closeAlarm },
          { (after text store moves).shared with events := events }) := by
      simp only [nextDisposition, pc, inserted]
    have table := insertEvent_ok inserted
    have present : newEvent env d.input ∈ (after text store (moves ++ [.run thread env])).shared.events := by
      simp only [moved, program, opened]
      exact (Table.mem_insert? table).mpr (.inr rfl)
    rw [opened]
    refine Stage.inserted (eventId env) rfl ⟨⟨moves, env, List.prefix_rfl, ?_, ?_⟩, ?_⟩ (.inl rfl)
    · exact fun event held => Table.insert?_fresh table event held
    · exact ⟨_, present, rfl⟩
    · exact ⟨_, present, rfl, rfl, rfl, rfl⟩

/-- The request names its caller, or is done because it names no alarm. -/
private theorem stage_closeAlarm (pc : d.pc = .closeAlarm) (event : d.event = some id)
    (row : NewRow text store moves thread d id) :
    Stage text store (moves ++ [.run thread env]) thread (nextDisposition text env d (after text store moves).shared).1 := by
  have subject := nextDisposition_subject text env d (after text store moves).shared
  refine Stage.inserted id (by simp only [nextDisposition, pc, event]) (row.snoc (.run thread env) subject.2) ?_
  simp only [nextDisposition, pc, event, Option.getD_some]
  by_cases unnamed : d.input.alarmId = ""
  · exact .inr (.inr ⟨if_pos unnamed, unnamed⟩)
  · exact .inr (.inl ⟨if_neg unnamed, rfl⟩)

private theorem stage_acknowledge (running : (after text store moves).threads[thread]? = some (.disposing d))
    (heeded : hasWork (after text store moves).shared d = true → env.fault = none) (pc : d.pc = .acknowledge)
    (attributed : d.input.disposedByUserId = d.operator.getD .nil) (event : d.event = some id)
    (row : NewRow text store moves thread d id) :
    Stage text store (moves ++ [.run thread env]) thread (nextDisposition text env d (after text store moves).shared).1 := by
  have next : (nextDisposition text env d (after text store moves).shared).1 = { d with pc := .readThreat } := by
    simp only [nextDisposition, pc]
  rw [next]
  refine Stage.acknowledged id event (row.snoc _ rfl) (.inl rfl) ?_ (by simp)
  intro alarm member named
  have named : alarm.id = d.input.alarmId := named
  simp only [after_run running env, program, nextDisposition, pc] at member
  rcases mem_updateAlarms member with ⟨_, written⟩ | ⟨failed, kept⟩
  · obtain ⟨old, held, later, _, marked⟩ := mem_acknowledgeAlarm written
    obtain ⟨acknowledged, author⟩ := marked named
    refine ⟨acknowledged, fun user names => ?_⟩
    have names : caller d = some user := names
    rw [attributed, ← caller, names] at author
    cases first : old.acknowledgedByUserId with
    | none => exact .inl (by simpa [first] using author)
    | some earlier =>
      refine .inr ⟨earlier, by simpa [first] using author, moves, env, List.prefix_rfl, ⟨d, running, pc⟩, ?_⟩
      exact ⟨old, held, later.id.symm, first⟩
  · -- The statement failed, so there was no alarm to acknowledge.
    refine absurd (heeded ?_) failed
    simp only [hasWork, pc]
    rw [← named, Table.find?_eq_some.mpr ⟨kept, rfl⟩]
    rfl

/-- The threat level is read: the request is done when there is none, and else holds
the verdict of the level that it read. -/
private theorem stage_readThreat (running : (after text store moves).threads[thread]? = some (.disposing d))
    (sound : ¬Panics (after text store moves).shared env d)
    (heeded : hasWork (after text store moves).shared d = true → env.fault = none) (pc : d.pc = .readThreat)
    (event : d.event = some id) (row : NewRow text store moves thread d id)
    (alarms : ∀ alarm ∈ (after text store moves).shared.alarms, alarm.id = d.input.alarmId →
      Acknowledged text store moves thread d alarm) :
    Stage text store (moves ++ [.run thread env]) thread (nextDisposition text env d (after text store moves).shared).1 := by
  have next : nextDisposition text env d (after text store moves).shared =
      ({ d with pc := judgeAI env d id (after text store moves).shared }, (after text store moves).shared) := by
    simp only [nextDisposition, pc, event, Option.getD_some]
  have sameAlarms : (after text store (moves ++ [.run thread env])).shared.alarms =
      (after text store moves).shared.alarms := by
    simp only [after_run running env, program, next]
  rw [next]
  have kept : ∀ alarm ∈ (after text store moves).shared.alarms, alarm.id = d.input.alarmId →
      Acknowledged text store (moves ++ [.run thread env]) thread
        { d with pc := judgeAI env d id (after text store moves).shared } alarm :=
    fun alarm member named => (alarms alarm member named).snoc (.refl alarm) _ rfl
  rcases judgeAI_cases env d id (after text store moves).shared fun short => sound ⟨pc, short⟩ with
    ⟨answered, unassessed⟩ | judged
  · refine Stage.finished id answered (row.snoc _ rfl) ?_
    rw [sameAlarms]
    refine fun alarm member named => ⟨kept alarm member named, fun assessed => absurd ?_ assessed⟩
    have named : alarm.id = d.input.alarmId := named
    rw [← threatOf_of_mem member, named]
    by_contra present
    exact present (unassessed (heeded (by simpa [hasWork, pc] using present)))
  · refine Stage.acknowledged id event (row.snoc _ rfl) (.inr ⟨_, judged⟩) ?_ ?_
    · rw [sameAlarms]
      exact kept
    · rw [sameAlarms]
      intro correct stage alarm member named
      have named : alarm.id = d.input.alarmId := named
      have same : CreatePc.writeCorrect correct = _ := stage.symm.trans judged
      rw [CreatePc.writeCorrect.inj same, ← named, threatOf_of_mem member]

/-- The verdict is written, and the request is done. -/
private theorem stage_writeCorrect {correct : Bool}
    (running : (after text store moves).threads[thread]? = some (.disposing d))
    (heeded : hasWork (after text store moves).shared d = true → env.fault = none) (pc : d.pc = .writeCorrect correct)
    (event : d.event = some id) (row : NewRow text store moves thread d id)
    (alarms : ∀ alarm ∈ (after text store moves).shared.alarms, alarm.id = d.input.alarmId →
      Acknowledged text store moves thread d alarm)
    (verdict : ∀ alarm ∈ (after text store moves).shared.alarms, alarm.id = d.input.alarmId →
      correct = aiCorrect alarm.aiThreatLevel d.input.dispositionCode) :
    Stage text store (moves ++ [.run thread env]) thread (nextDisposition text env d (after text store moves).shared).1 := by
  have moved := after_run running env
  have healthy : env.fault = none := heeded (by simp only [hasWork, pc])
  have next : (nextDisposition text env d (after text store moves).shared).1 = { d with pc := .done (.json 200 id) } := by
    simp only [nextDisposition, pc, event, Option.getD_some]
  rw [next]
  refine Stage.finished id rfl (row.snoc _ rfl) ?_
  intro alarm member named
  have named : alarm.id = d.input.alarmId := named
  rw [moved] at member
  obtain ⟨old, held, later, written⟩ := next_alarms text env (.disposing d) _ alarm member
  have oldNamed : old.id = d.input.alarmId := later.id.symm.trans named
  refine ⟨(alarms old held oldNamed).snoc later _ rfl, fun _ => ?_⟩
  refine ⟨{ d with pc := .done (.json 200 id) }, ?_, named.symm, ?_⟩
  · rw [moved, ← next]
    exact List.mem_set (List.getElem?_eq_some_iff.mp running).1 _
  · rcases written with ⟨_, none_⟩ | ⟨_, ⟨_, other, moving, stage, _⟩, value⟩
    · exact absurd ⟨healthy, d, rfl, pc, named.symm⟩ (none_ correct)
    · obtain rfl := Thread.disposing.inj moving
      have same := CreatePc.writeCorrect.inj (stage.symm.trans pc)
      rw [value, same, verdict old held oldNamed, later.threat]

end Statements

/-- A request that moves extends its account, if its statement completes. -/
private theorem account_ran (moves : List (Move Request Env)) (thread : Nat) (env : Env) (current : Thread)
    (running : (after text store moves).threads[thread]? = some current)
    (permitted : Completes (after text store moves) (.run thread env))
    (account : Account text store moves thread current) :
    Account text store (moves ++ [.run thread env]) thread
      ((program text).next env current (after text store moves).shared).1 := by
  cases current with
  | refused reply => trivial
  | verifying v => trivial
  | disposing d =>
    obtain ⟨sound, heeded⟩ := completes_disposing running permitted
    have account : Stage text store moves thread d := account
    show Stage text store (moves ++ [.run thread env]) thread (nextDisposition text env d (after text store moves).shared).1
    cases account with
    | waiting pc left => exact stage_insertEvent running pc left
    | refused err pc left =>
      have still := after_done running pc env
      rw [nextDisposition_done pc]
      refine Stage.refused err pc (left.snoc fun _ _ => ?_)
      rw [still]
      exact ⟨rfl, rfl⟩
    | inserted id event row pc =>
      rcases pc with pc | ⟨pc, attributed⟩ | ⟨pc, unnamed⟩
      · exact stage_closeAlarm pc event row
      · exact stage_acknowledge running heeded pc attributed event row
      · rw [nextDisposition_done pc]
        exact Stage.inserted id event (row.snoc _ rfl) (.inr (.inr ⟨pc, unnamed⟩))
    | acknowledged id event row pc alarms verdict =>
      rcases pc with pc | ⟨correct, pc⟩
      · exact stage_readThreat running sound heeded pc event row alarms
      · exact stage_writeCorrect running heeded pc event row alarms (verdict correct pc)
    | finished id pc row alarms =>
      have still := after_done running pc env
      rw [nextDisposition_done pc]
      refine Stage.finished id pc (row.snoc _ rfl) ?_
      rw [still]
      intro alarm member named
      obtain ⟨acknowledged, judged⟩ := alarms alarm member named
      exact ⟨acknowledged.snoc (.refl alarm) _ rfl, judged⟩

/-- The accounts of all requests, in a run whose statements complete. -/
theorem account_of_completes (moves : List (Move Request Env)) (completes : Along (program text).step Completes ⟨store, []⟩ moves)
    {current : Thread} (running : (after text store moves).threads[thread]? = some current) :
    Account text store moves thread current :=
  Program.account_rule Completes rfl (Account text store) account_spawned
    (fun moves move accounts _ thread current running elsewhere => account_kept moves move accounts thread current running elsewhere)
    account_ran moves completes thread current running

/-- No statement that completes leaves a disposition half done. -/
theorem allOrNothing_of_completes (moves : List (Move Request Env))
    (completes : Along (program text).step Completes ⟨store, []⟩ moves) : AllOrNothing text store moves := by
  intro thread d reply running answered
  have account : Stage text store moves thread d := account_of_completes moves completes running
  cases account with
  | waiting pc _ => simp [pc] at answered
  | refused err pc left =>
    rw [pc] at answered
    cases answered
    exact .inr ⟨500, err, rfl, left⟩
  | inserted id event row pc =>
    rcases pc with pc | ⟨pc, _⟩ | ⟨pc, unnamed⟩
    · simp [pc] at answered
    · simp [pc] at answered
    · rw [pc] at answered
      cases answered
      exact .inl ⟨id, rfl, row, fun named => absurd unnamed named⟩
  | acknowledged id event row pc _ _ => rcases pc with pc | ⟨correct, pc⟩ <;> simp [pc] at answered
  | finished id pc row alarms =>
    rw [pc] at answered
    cases answered
    exact .inl ⟨id, rfl, row, fun _ => alarms⟩

/-- An answered request stays as it is. -/
private theorem done_stays {reply : Reply String} (answered : d.pc = .done reply) (rest : List (Move Request Env))
    (running : (after text store moves).threads[thread]? = some (.disposing d)) :
    (after text store (moves ++ rest)).threads[thread]? = some (.disposing d) := by
  induction rest using List.reverseRecOn with
  | nil => rwa [List.append_nil]
  | append_singleton rest move still =>
    rw [← List.append_assoc]
    cases move with
    | spawn request =>
      rw [after_snoc, Program.step_spawn, List.getElem?_append_left (List.getElem?_eq_some_iff.mp still).1]
      exact still
    | run other env =>
      by_cases here : other = thread
      · subst here
        rw [after_done still answered]
        exact still
      · cases moving : (after text store (moves ++ rest)).threads[other]? with
        | none => rw [after_snoc, Program.step_run_none moving, still]
        | some current => rw [after_run moving, List.getElem?_set_ne here, still]

/-- Once the row is in, the request has changed a table. -/
def Trace (text : TextLib) (store : Store) (moves : List (Move Request Env)) (thread : Nat) : Thread → Prop
  | .disposing d => (d.pc = .insertEvent ∨ d.event ≠ none ∨ ∃ reply, d.pc = .done reply) ∧
      (d.event ≠ none → ¬ LeftAlone text store moves thread)
  | .refused _ | .verifying _ => True

private theorem LeftAlone.of_snoc {move : Move Request Env} (left : LeftAlone text store (moves ++ [move]) thread) :
    LeftAlone text store moves thread :=
  fun earlier env part => left earlier env (part.trans (List.prefix_append ..))

private theorem trace_ran (moves : List (Move Request Env)) (thread : Nat) (env : Env) (current : Thread)
    (running : (after text store moves).threads[thread]? = some current) (trace : Trace text store moves thread current) :
    Trace text store (moves ++ [.run thread env]) thread
      ((program text).next env current (after text store moves).shared).1 := by
  cases current with
  | refused reply => trivial
  | verifying v => trivial
  | disposing d =>
    obtain ⟨opened, changed⟩ := trace
    show Trace text store _ thread (.disposing (nextDisposition text env d (after text store moves).shared).1)
    cases stage : d.pc with
    | insertEvent =>
      cases inserted : insertEvent env d.input (after text store moves).shared with
      | error err =>
        simp only [nextDisposition, stage, inserted]
        exact ⟨.inr (.inr ⟨_, rfl⟩), fun event left => changed event left.of_snoc⟩
      | ok events =>
        have opened : nextDisposition text env d (after text store moves).shared =
            ({ d with event := some (eventId env), pc := .closeAlarm },
              { (after text store moves).shared with events := events }) := by
          simp only [nextDisposition, stage, inserted]
        rw [opened]
        refine ⟨.inr (.inl (by simp)), fun _ left => ?_⟩
        have same := (left moves env List.prefix_rfl).1
        rw [after_run running] at same
        simp only [program, opened] at same
        have table := insertEvent_ok inserted
        have present := (Table.mem_insert? table).mpr (.inr rfl)
        rw [same] at present
        exact Table.insert?_fresh table _ present rfl
    | closeAlarm =>
      simp only [nextDisposition, stage]
      exact ⟨.inr (.inl (by simpa [stage] using opened)), fun event left => changed event left.of_snoc⟩
    | acknowledge =>
      simp only [nextDisposition, stage]
      exact ⟨.inr (.inl (by simpa [stage] using opened)), fun event left => changed event left.of_snoc⟩
    | readThreat =>
      simp only [nextDisposition, stage]
      exact ⟨.inr (.inl (by simpa [stage] using opened)), fun event left => changed event left.of_snoc⟩
    | writeCorrect correct =>
      simp only [nextDisposition, stage]
      exact ⟨.inr (.inl (by simpa [stage] using opened)), fun event left => changed event left.of_snoc⟩
    | done reply =>
      simp only [nextDisposition, stage]
      exact ⟨.inr (.inr ⟨reply, stage⟩), fun event left => changed event left.of_snoc⟩

/-- What a request has changed, in every run. -/
private theorem trace_of_run (moves : List (Move Request Env)) {current : Thread}
    (running : (after text store moves).threads[thread]? = some current) : Trace text store moves thread current := by
  refine Program.account_rule (fun _ _ => True) rfl (Trace text store) ?_ ?_ ?_ moves (along_trivial moves _)
    thread current running
  · intro moves request
    show Trace text store _ _ (start text request)
    cases started : start text request with
    | refused reply => trivial
    | verifying v => trivial
    | disposing d =>
      obtain ⟨stage, event⟩ := start_disposing started
      exact ⟨.inl stage, fun inserted => absurd event inserted⟩
  · intro moves move traces _ thread current running _
    have trace := traces thread current running
    cases current with
    | disposing d => exact ⟨trace.1, fun event left => trace.2 event left.of_snoc⟩
    | refused reply => trivial
    | verifying v => trivial
  · exact fun moves thread env current running _ trace => trace_ran moves thread env current running trace

/-- A request that panics has inserted its event, and answers an error. -/
theorem noPanic_of_allOrNothing (moves : List (Move Request Env)) (promise : AllOrNothing text store moves) :
    Along (program text).step NoPanic ⟨store, []⟩ moves := by
  refine (along_iff_parts moves).mpr fun earlier move part => ?_
  cases move with
  | spawn request => trivial
  | run thread env =>
    intro current running
    have running : (after text store earlier).threads[thread]? = some current := running
    cases current with
    | refused reply => trivial
    | verifying v => trivial
    | disposing d =>
      rintro ⟨stage, healthy, assessed, some_, short⟩
      have opened := (trace_of_run earlier running).1
      have assessed : threatOf (after text store earlier).shared d.input.alarmId ≠ "" := assessed
      have crashed : (nextDisposition text env d (after text store earlier).shared).1 =
          { d with pc := .done (.error 500 "") } := by
        simp only [nextDisposition, stage, judgeAI_healthy healthy, if_neg assessed]
        rw [if_pos ⟨some_, short⟩]
      have here : (after text store (earlier ++ [.run thread env])).threads[thread]? =
          some (.disposing { d with pc := .done (.error 500 "") }) := by
        rw [after_run running, List.getElem?_set_self (List.getElem?_eq_some_iff.mp running).1, ← crashed]
        rfl
      obtain ⟨rest, rfl⟩ := part
      have last := done_stays rfl rest here
      have event : d.event ≠ none := by simpa [stage] using opened
      rcases promise thread _ _ last rfl with ⟨id, answered, _⟩ | ⟨_, _, _, left⟩
      · cases answered
      · exact (trace_of_run _ last).2 event left

/-- Whatever is dispositioned and however the requests interleave, dispositions
are all or nothing in every run in which no request panics and no failed write is
dropped, and only in runs in which none panics. -/
theorem all_or_nothing (text : TextLib) (store : Store) (moves : List (Move Request Env)) :
    (Along (program text).step Completes ⟨store, []⟩ moves → AllOrNothing text store moves) ∧
      (AllOrNothing text store moves → Along (program text).step NoPanic ⟨store, []⟩ moves) :=
  ⟨allOrNothing_of_completes moves, noPanic_of_allOrNothing moves⟩

end Accounts

private def plainTexts : TextLib := ⟨String.toUpper, fun text => "\"" ++ text ++ "\""⟩

private def operator : Claims where
  userId := "00000000-0000-0000-0000-00000000000c"
  username := "cleo"
  role := .socOperator
  organizationId := ""

/-- A site with one open alarm that the AI rated high. -/
private def oneAlarm : Store where
  users := .empty
  sites := ⟨[⟨"AB-123", "Quay", "co-1", none⟩], by decide⟩
  cameras := .empty
  events := .empty
  incidents := .empty
  alarms := ⟨[{ id := "alm-1", alarmCode := "ALM-1", incidentId := "inc-1", siteId := "AB-123", aiThreatLevel := "high" }],
    by decide⟩

/-- The operator dispositions that alarm under `code`. -/
private def dispositionRun (code : String) : List (Move Request Env) :=
  [.spawn (.create (some operator) (some { alarmId := "alm-1", siteId := "AB-123", dispositionCode := code })),
    .run 0 {}, .run 0 {}, .run 0 {}, .run 0 {}, .run 0 {}]

/-- One alarm, and every statement succeeds. -/
theorem all_or_nothing_verified_threat : AllOrNothing plainTexts oneAlarm (dispositionRun "verified-threat") :=
  (all_or_nothing plainTexts oneAlarm _).1 (by decide +kernel)

/-- The code `test` is four bytes long: the event is in the table and the alarm
acknowledged when the slice panics. -/
theorem all_or_nothing_short_code : ¬ AllOrNothing plainTexts oneAlarm (dispositionRun "test") := by
  intro promise
  have quiet := noPanic_of_allOrNothing _ promise
  revert quiet
  decide +kernel

end Ironsight.Dispositions
