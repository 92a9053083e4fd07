import Ironsight.FourEyes

/-! The four-eyes rule over every interleaving of dispositions and
verifications. Two of its three parts hold outright: an event is signed at most
once, and a signature never changes. The third fails, because the row never
learns who dispositioned it, and holds exactly in the runs where nobody asks to
verify an open event of their own. -/
namespace Ironsight.FourEyesProofs
open Tables Runs Uuid Access Soc FourEyes

/-- The event a request has inserted, with the operator it acted for. -/
def disposition : Thread → Option (String × Option UUID)
  | .disposing d => d.event.map fun id => (id, d.operator)
  | .refused _ | .verifying _ => none

/-- The event a request has signed, as its 204 reply says. -/
def signed : Thread → Option String
  | .verifying v => if v.pc = .done .noContent then some v.eventId else none
  | .refused _ | .disposing _ => none

/-- `user` dispositioned `event`: the row says so, or the request that inserted
it acted for that user. -/
def DispositionedBy (pool : Pool Store Thread) (event : SecurityEvent) (user : UUID) : Prop :=
  event.disposedByUserId = some user ∨ some (event.id, some user) ∈ pool.threads.map disposition

instance (pool : Pool Store Thread) (event : SecurityEvent) (user : UUID) :
    Decidable (DispositionedBy pool event user) :=
  inferInstanceAs (Decidable (_ ∨ _))

/-- No event is verified by the user who dispositioned it. -/
def NoSelfVerification (pool : Pool Store Thread) : Prop :=
  ∀ event ∈ pool.shared.events, ∀ user ∈ event.verifiedByUserId, ¬ DispositionedBy pool event user

instance (pool : Pool Store Thread) : Decidable (NoSelfVerification pool) :=
  inferInstanceAs (Decidable (∀ event ∈ pool.shared.events, ∀ user ∈ event.verifiedByUserId, _))

/-- No event has two successful verifications. -/
def VerifiedOnce (pool : Pool Store Thread) : Prop :=
  ∀ id, (pool.threads.map signed).count (some id) ≤ 1

/-- Signatures that are there stay there, unchanged. -/
def SignaturesKept (before after : Table SecurityEvent.id) : Prop :=
  ∀ event ∈ before, event.verifiedAt ≠ none ∨ event.verifiedByUserId ≠ none →
    ∃ later ∈ after, later.id = event.id ∧ later.verifiedByUserId = event.verifiedByUserId ∧
      later.verifiedAt = event.verifiedAt

/-- The four-eyes rule along a run from `pool`. -/
def FourEyesRule (text : TextLib) (pool : Pool Store Thread) (moves : List (Move Request Env)) : Prop :=
  Throughout (program text).step NoSelfVerification pool moves ∧
  Throughout (program text).step VerifiedOnce pool moves ∧
  ∀ earlier later, moves = earlier ++ later →
    SignaturesKept (exec (program text).step pool earlier).shared.events
      (exec (program text).step pool moves).shared.events

/-- The verification a request performs. -/
def verification : Thread → Option Verification
  | .verifying v => some v
  | .refused _ | .disposing _ => none

/-- The conditional update of a verification is not about to sign an event that
a request of the same user inserted. -/
def SecondOperator (pool : Pool Store Thread) : Move Request Env → Prop
  | .spawn _ => True
  | .run thread env => ∀ current ∈ pool.threads[thread]?, ∀ v ∈ verification current, v.pc = .update →
      env.fault = none → ∀ event ∈ pool.shared.events, verifiable v event = true →
        some (event.id, some v.verifier) ∉ pool.threads.map disposition

instance (pool : Pool Store Thread) : (move : Move Request Env) → Decidable (SecondOperator pool move)
  | .spawn _ => isTrue trivial
  | .run thread env => inferInstanceAs (Decidable (∀ current ∈ pool.threads[thread]?,
      ∀ v ∈ verification current, v.pc = .update → env.fault = none → ∀ event ∈ pool.shared.events, _))

/-- Rows as this code writes them: both signature columns or neither, and not
signed by the recorded disposer. -/
def SignaturesValid (events : Table SecurityEvent.id) : Prop :=
  ∀ event ∈ events, (event.verifiedByUserId = none ↔ event.verifiedAt = none) ∧
    ∀ user, event.verifiedByUserId = some user → event.disposedByUserId ≠ some user

/-! ## What one statement does -/

/-- A verification that stands before its update and meets a row to sign. -/
def Signs (env : Env) (thread : Thread) (events : Table SecurityEvent.id) (v : Verification)
    (event : SecurityEvent) : Prop :=
  v ∈ verification thread ∧ v.pc = .update ∧ env.fault = none ∧ event ∈ events ∧ verifiable v event = true

private theorem eq_verifying {thread : Thread} {v : Verification} (same : v ∈ verification thread) :
    thread = .verifying v := by
  cases thread with
  | verifying w =>
    cases same
    rfl
  | refused _ => cases same
  | disposing _ => cases same

/-- The three things a statement can do to the events table. -/
inductive Effect (env : Env) (before after : Thread) (events events' : Table SecurityEvent.id) : Prop where
  | quiet (idle : ∀ v event, ¬ Signs env before events v event) (table : events' = events)
      (sameDisposition : disposition after = disposition before) (sameSigned : signed after = signed before)
  | inserted (idle : ∀ v event, ¬ Signs env before events v event) (event : SecurityEvent)
      (table : events.insert? event = some events')
      (unsigned : event.verifiedByUserId = none ∧ event.verifiedAt = none)
      (opened : (disposition after).map Prod.fst = some event.id) (sameSigned : signed after = signed before)
  | verified (v : Verification) (event : SecurityEvent) (signs : Signs env before events v event)
      (table : events' = signEvents env v events) (sameDisposition : disposition after = disposition before)
      (replied : signed after = some v.eventId)

private theorem disposing_idle (env : Env) (d : Disposition) (events : Table SecurityEvent.id) :
    ∀ v event, ¬ Signs env (.disposing d) events v event := by
  rintro v event ⟨same, _⟩
  cases same

private theorem waiting_idle {v : Verification} (waiting : v.pc ≠ .update) (env : Env)
    (events : Table SecurityEvent.id) : ∀ w event, ¬ Signs env (.verifying v) events w event := by
  rintro w event ⟨same, ready, _⟩
  cases same
  exact waiting ready

theorem insertEvent_ok {env : Env} {c : SecurityEventCreate} {store : Store}
    {events : Table SecurityEvent.id} (done : insertEvent env c store = .ok events) :
    store.events.insert? (newEvent env c) = some events := by
  unfold insertEvent at done
  split at done
  · cases done
  · split at done
    · cases done
    · rename_i table inserted
      split at done
      · cases done
      · cases done
        exact inserted

@[simp] theorem updateAlarms_events (env : Env) (store : Store) (alarms : Table ActiveAlarm.id) :
    (updateAlarms env store alarms).events = store.events := by
  unfold updateAlarms
  split <;> rfl

private theorem nextDisposition_effect (text : TextLib) (env : Env) (d : Disposition) (store : Store) :
    Effect env (.disposing d) (.disposing (nextDisposition text env d store).1) store.events
      (nextDisposition text env d store).2.events := by
  have idle := disposing_idle env d store.events
  cases stage : d.pc with
  | insertEvent =>
    simp only [nextDisposition, stage]
    split
    · exact .quiet idle rfl rfl rfl
    · rename_i events done
      exact .inserted idle (newEvent env d.input) (insertEvent_ok done) ⟨rfl, rfl⟩ rfl rfl
  | closeAlarm =>
    simp only [nextDisposition, stage, updateAlarms_events]
    exact .quiet idle rfl rfl rfl
  | acknowledge =>
    simp only [nextDisposition, stage, updateAlarms_events]
    exact .quiet idle rfl rfl rfl
  | readThreat =>
    simp only [nextDisposition, stage]
    exact .quiet idle rfl rfl rfl
  | writeCorrect correct =>
    simp only [nextDisposition, stage, updateAlarms_events]
    exact .quiet idle rfl rfl rfl
  | done reply =>
    simp only [nextDisposition, stage]
    exact .quiet idle rfl rfl rfl

private theorem verifiable_id {v : Verification} {event : SecurityEvent} (chosen : verifiable v event = true) :
    event.id = v.eventId := by
  simp only [verifiable, decide_eq_true_eq] at chosen
  exact chosen.1

private theorem refusal_not_signed (text : TextLib) (env : Env) (v : Verification) (store : Store) :
    refusal text env v store ≠ .noContent := by
  unfold refusal
  split
  · split
    · simp
    · split <;> simp
  · simp

private theorem nextVerification_effect (text : TextLib) (env : Env) (v : Verification) (store : Store) :
    Effect env (.verifying v) (.verifying (nextVerification text env v store).1) store.events
      (nextVerification text env v store).2.events := by
  cases stage : v.pc with
  | update =>
    cases healthy : env.fault with
    | some err =>
      have idle : ∀ w event, ¬ Signs env (.verifying v) store.events w event := by
        rintro w event ⟨_, _, sound, _⟩
        simp [healthy] at sound
      simp only [nextVerification, stage, healthy]
      exact .quiet idle rfl rfl (by simp [signed, stage])
    | none =>
      simp only [nextVerification, stage, healthy]
      by_cases one : store.events.affected (verifiable v) = 1
      · obtain ⟨event, held, chosen⟩ := Table.affected_pos.mp (Nat.lt_of_lt_of_eq Nat.zero_lt_one one.symm)
        exact .verified v event ⟨rfl, stage, healthy, held, chosen⟩ rfl rfl (by simp [signed, one])
      · have atMost : store.events.affected (verifiable v) ≤ 1 :=
          Table.affected_le_one v.eventId fun _ => verifiable_id
        have none_ : store.events.affected (verifiable v) = 0 := by omega
        have idle : ∀ w event, ¬ Signs env (.verifying v) store.events w event := by
          rintro w event ⟨same, _, _, held, chosen⟩
          cases same
          have positive := Table.affected_pos.mpr ⟨event, held, chosen⟩
          omega
        exact .quiet idle (Table.modify_of_not_affected none_) rfl (by simp [signed, stage, one])
  | disambiguate =>
    simp only [nextVerification, stage]
    exact .quiet (waiting_idle (by simp [stage]) env _) rfl rfl (by simp [signed, stage, refusal_not_signed])
  | done reply =>
    simp only [nextVerification, stage]
    exact .quiet (waiting_idle (by simp [stage]) env _) rfl rfl rfl

/-- What one statement of either handler does. -/
theorem next_effect (text : TextLib) (env : Env) (thread : Thread) (store : Store) :
    Effect env thread ((program text).next env thread store).1 store.events
      ((program text).next env thread store).2.events := by
  cases thread with
  | refused reply => exact .quiet (by rintro v event ⟨same, _⟩; cases same) rfl rfl rfl
  | disposing d => exact nextDisposition_effect text env d store
  | verifying v => exact nextVerification_effect text env v store

/-! ## Runs -/

/-- A request that has only been admitted has inserted and signed nothing. -/
private theorem start_silent (text : TextLib) (request : Request) :
    disposition (start text request) = none ∧ signed (start text request) = none := by
  unfold start
  split
  · exact ⟨rfl, rfl⟩
  · exact ⟨rfl, rfl⟩
  · exact ⟨rfl, rfl⟩
  · split
    · exact ⟨rfl, rfl⟩
    · split
      · exact ⟨rfl, rfl⟩
      · split <;> exact ⟨rfl, rfl⟩

private theorem mem_signEvents {env : Env} {v : Verification} {events : Table SecurityEvent.id}
    {event : SecurityEvent} (member : event ∈ signEvents env v events) :
    (event ∈ events ∧ verifiable v event = false) ∨
      ∃ old ∈ events, verifiable v old = true ∧ event.id = old.id ∧
        event.disposedByUserId = old.disposedByUserId ∧
        event.verifiedByUserId = some v.verifier ∧ event.verifiedAt = some env.now := by
  obtain ⟨old, held, rfl⟩ := Table.mem_modify.mp member
  by_cases chosen : verifiable v old = true
  · rw [if_pos chosen]
    exact .inr ⟨old, held, chosen, rfl, rfl, rfl, rfl⟩
  · rw [if_neg chosen]
    exact .inl ⟨held, by simpa using chosen⟩

private theorem signEvents_signs (env : Env) {v : Verification} {events : Table SecurityEvent.id}
    {event : SecurityEvent} (held : event ∈ events) (chosen : verifiable v event = true) :
    ∃ later ∈ signEvents env v events, later.id = event.id ∧
      later.verifiedByUserId = some v.verifier ∧ later.verifiedAt = some env.now :=
  ⟨_, Table.mem_modify.mpr ⟨event, held, rfl⟩, by simp [chosen], by simp [chosen], by simp [chosen]⟩

private theorem signEvents_keeps (env : Env) {v : Verification} {events : Table SecurityEvent.id}
    {event : SecurityEvent} (held : event ∈ events) (closed : event.verifiedAt ≠ none) :
    event ∈ signEvents env v events :=
  Table.mem_modify.mpr ⟨event, held, by simp [verifiable, closed]⟩

private theorem secondOperator_iff {pool : Pool Store Thread} {thread : Nat} {current : Thread} (env : Env)
    (running : pool.threads[thread]? = some current) :
    SecondOperator pool (.run thread env) ↔ ∀ v event, Signs env current pool.shared.events v event →
      some (event.id, some v.verifier) ∉ pool.threads.map disposition := by
  simp only [SecondOperator, running, Option.mem_def, Option.some.injEq, forall_eq']
  constructor
  · rintro allowed v event ⟨same, ready, healthy, held, chosen⟩
    exact allowed v same ready healthy event held chosen
  · intro allowed v same ready healthy event held chosen
    exact allowed v event ⟨same, ready, healthy, held, chosen⟩

/-- A new row is unsigned, and its id is not the id of an older row, so the
request that now goes by it dispositioned nothing else. -/
private theorem inserted_noSelfVerification {pool : Pool Store Thread} (fine : NoSelfVerification pool) {thread : Nat}
    {after : Thread} {store : Store} {event : SecurityEvent}
    (table : pool.shared.events.insert? event = some store.events) (unsigned : event.verifiedByUserId = none)
    (opened : (disposition after).map Prod.fst = some event.id) :
    NoSelfVerification ⟨store, pool.threads.set thread after⟩ := by
  intro other member user verifiedBy disposed
  rcases (Table.mem_insert? table).mp member with old | rfl
  · refine fine other old user verifiedBy (disposed.imp_right fun recorded => ?_)
    rw [List.map_set] at recorded
    rcases List.mem_or_eq_of_mem_set recorded with kept | new
    · exact kept
    · have same : other.id = event.id := by simpa [← new] using opened
      exact absurd same (Table.insert?_fresh table other old)
  · simp [unsigned] at verifiedBy

/-- The update signs rows of the verifier's choice, so the rule survives it
exactly if none of them was inserted for the verifier. -/
private theorem verified_noSelfVerification_iff {pool : Pool Store Thread} (fine : NoSelfVerification pool)
    {thread : Nat} {env : Env} {current after : Thread} {store : Store} {v : Verification} {event : SecurityEvent}
    (running : pool.threads[thread]? = some current) (signs : Signs env current pool.shared.events v event)
    (table : store.events = signEvents env v pool.shared.events)
    (sameDisposition : disposition after = disposition current) :
    NoSelfVerification ⟨store, pool.threads.set thread after⟩ ↔
      ∀ w own, Signs env current pool.shared.events w own →
        some (own.id, some w.verifier) ∉ pool.threads.map disposition := by
  simp only [NoSelfVerification, DispositionedBy, table, map_set_same running sameDisposition]
  constructor
  · rintro after w own ⟨same, _, _, held, chosen⟩ recorded
    obtain rfl : v = w := by simpa using signs.1.symm.trans same
    obtain ⟨later, written, sameId, signer, _⟩ := signEvents_signs env held chosen
    exact after later written v.verifier signer (.inr (sameId ▸ recorded))
  · intro allowed other member user verifiedBy disposed
    rcases mem_signEvents member with ⟨old, _⟩ | ⟨old, held, chosen, sameId, sameDisposer, signer, _⟩
    · exact fine other old user verifiedBy disposed
    · obtain rfl : v.verifier = user := by simpa [signer] using verifiedBy
      rw [sameId, sameDisposer] at disposed
      rcases disposed with disposer | recorded
      · simp [verifiable, disposer] at chosen
      · obtain ⟨thread_, ready, healthy, _, _⟩ := signs
        exact allowed v old ⟨thread_, ready, healthy, held, chosen⟩ recorded

/-- From a state where the rule holds, a step breaks it exactly when it lets an
operator sign an event of their own. -/
theorem step_noSelfVerification (text : TextLib) {pool : Pool Store Thread} (fine : NoSelfVerification pool)
    (move : Move Request Env) :
    NoSelfVerification ((program text).step pool move) ↔ SecondOperator pool move := by
  cases move with
  | spawn request =>
    refine iff_of_true ?_ trivial
    intro event member user signs disposed
    refine fine event member user signs (disposed.imp_right fun recorded => ?_)
    simpa [program, (start_silent text request).1] using recorded
  | run thread env =>
    cases running : pool.threads[thread]? with
    | none =>
      rw [Program.step_run_none running]
      refine iff_of_true fine ?_
      simp [SecondOperator, running]
    | some current =>
      rw [Program.step_run running, secondOperator_iff env running]
      rcases next_effect text env current pool.shared with
        ⟨idle, table, sameDisposition, _⟩ | ⟨idle, event, table, unsigned, opened, _⟩ |
        ⟨v, event, signs, table, sameDisposition, _⟩
      · refine iff_of_true ?_ fun v event signs => absurd signs (idle v event)
        simp only [NoSelfVerification, DispositionedBy, table, map_set_same running sameDisposition]
        exact fine
      · exact iff_of_true (inserted_noSelfVerification fine table unsigned.1 opened)
          fun v event signs => absurd signs (idle v event)
      · exact verified_noSelfVerification_iff fine running signs table sameDisposition

/-- What carries the two unconditional parts: a row has both signature columns
or neither, and a request that replied with success has left a signed row. -/
structure Signatures (pool : Pool Store Thread) : Prop where
  paired : ∀ event ∈ pool.shared.events, event.verifiedByUserId = none ↔ event.verifiedAt = none
  once : VerifiedOnce pool
  backed : ∀ id, some id ∈ pool.threads.map signed →
    ∃ event ∈ pool.shared.events, event.id = id ∧ event.verifiedAt ≠ none

private theorem inserted_paired {events events' : Table SecurityEvent.id} {event : SecurityEvent}
    (table : events.insert? event = some events')
    (unsigned : event.verifiedByUserId = none ∧ event.verifiedAt = none)
    (paired : ∀ event ∈ events, event.verifiedByUserId = none ↔ event.verifiedAt = none) :
    ∀ event ∈ events', event.verifiedByUserId = none ↔ event.verifiedAt = none := by
  intro other member
  rcases (Table.mem_insert? table).mp member with old | rfl
  · exact paired other old
  · simp [unsigned]

/-- A first success for its event adds one to a count that was zero. -/
private theorem verified_once {pool : Pool Store Thread} {thread : Nat} {current after : Thread} {id : String}
    (valid : Signatures pool) (running : pool.threads[thread]? = some current)
    (unsigned : signed current = none) (signs : signed after = some id)
    (absent : some id ∉ pool.threads.map signed) :
    ∀ other, ((pool.threads.set thread after).map signed).count (some other) ≤ 1 := by
  intro other
  obtain ⟨inside, held⟩ := List.getElem?_eq_some_iff.mp running
  rw [List.map_set, signs, List.count_set (by simpa using inside)]
  have previous : (pool.threads.map signed).count (some id) = 0 := List.count_eq_zero.mpr absent
  have bounded := valid.once other
  by_cases same : id = other
  · subst same
    simp [previous]
  · simpa [held, unsigned, same] using bounded

/-- Every statement keeps the signatures valid. -/
theorem step_signatures (text : TextLib) (pool : Pool Store Thread) (move : Move Request Env)
    (valid : Signatures pool) : Signatures ((program text).step pool move) := by
  refine Program.step_preserves Signatures valid move ?_ ?_
  · intro request _
    have silent : signed ((program text).start request) = none := (start_silent text request).2
    refine ⟨valid.paired, fun id => ?_, fun id replied => valid.backed id ?_⟩
    · simpa [silent, VerifiedOnce] using valid.once id
    · simpa [silent] using replied
  · intro thread env current _ running
    rcases next_effect text env current pool.shared with
      ⟨_, table, _, sameSigned⟩ | ⟨_, event, table, unsigned, _, sameSigned⟩ |
      ⟨v, event, ⟨isVerifying, ready, _, held, chosen⟩, table, _, replied⟩
    · refine ⟨?_, ?_, ?_⟩
      · simpa only [table] using valid.paired
      · simpa only [VerifiedOnce, map_set_same running sameSigned] using valid.once
      · simpa only [table, map_set_same running sameSigned] using valid.backed
    · refine ⟨inserted_paired table unsigned valid.paired, ?_, ?_⟩
      · simpa only [VerifiedOnce, map_set_same running sameSigned] using valid.once
      · intro id success
        rw [map_set_same running sameSigned] at success
        obtain ⟨old, member, sameId, closed⟩ := valid.backed id success
        exact ⟨old, (Table.mem_insert? table).mpr (.inl member), sameId, closed⟩
    · obtain rfl := eq_verifying isVerifying
      have unsigned : signed (.verifying v) = none := by simp [signed, ready]
      have absent : some v.eventId ∉ pool.threads.map signed := by
        intro success
        obtain ⟨old, member, sameId, closed⟩ := valid.backed _ success
        have same := Table.key_inj member held (sameId.trans (verifiable_id chosen).symm)
        simp [verifiable, ← same, closed] at chosen
      refine ⟨?_, verified_once valid running unsigned replied absent, ?_⟩
      · intro other member
        simp only [table] at member
        rcases mem_signEvents member with ⟨old, _⟩ | ⟨_, _, _, _, _, signer, time⟩
        · exact valid.paired other old
        · simp [signer, time]
      · intro id success
        simp only [table]
        rw [List.map_set, replied] at success
        rcases List.mem_or_eq_of_mem_set success with earlier | new
        · obtain ⟨old, member, sameId, closed⟩ := valid.backed id earlier
          exact ⟨old, signEvents_keeps env member closed, sameId, closed⟩
        · obtain ⟨later, written, sameId, _, time⟩ := signEvents_signs env held chosen
          refine ⟨later, written, ?_, by simp [time]⟩
          rw [sameId, verifiable_id chosen]
          exact (Option.some.inj new).symm

private theorem step_keeps (text : TextLib) (pool : Pool Store Thread) (move : Move Request Env)
    (valid : Signatures pool) :
    SignaturesKept pool.shared.events ((program text).step pool move).shared.events := by
  intro event held present
  have closed : event.verifiedAt ≠ none := by
    rcases present with time | signer
    · exact time
    · exact fun open_ => signer ((valid.paired event held).mpr open_)
  suffices kept : event ∈ ((program text).step pool move).shared.events from ⟨event, kept, rfl, rfl, rfl⟩
  refine Program.step_preserves (fun pool : Pool Store Thread => event ∈ pool.shared.events) held move (fun _ _ => held) ?_
  intro thread env current _ running
  rcases next_effect text env current pool.shared with
    ⟨_, table, _, _⟩ | ⟨_, _, table, _, _, _⟩ | ⟨v, _, _, table, _, _⟩
  · simpa only [table] using held
  · exact (Table.mem_insert? table).mpr (.inl held)
  · simpa only [table] using signEvents_keeps env held closed

private theorem SignaturesKept.trans {first second third : Table SecurityEvent.id}
    (one : SignaturesKept first second) (two : SignaturesKept second third) : SignaturesKept first third := by
  intro event held present
  obtain ⟨middle, member, sameId, sameSigner, sameTime⟩ := one event held present
  obtain ⟨last, written, sameId', sameSigner', sameTime'⟩ := two middle member (by rwa [sameTime, sameSigner])
  exact ⟨last, written, sameId'.trans sameId, sameSigner'.trans sameSigner, sameTime'.trans sameTime⟩

/-- Started on any database with valid signatures, every run of disposition and
verification requests obeys the four-eyes rule exactly if no verification meets
an open event that a request of its own user inserted. -/
theorem four_eyes_iff_second_operator (text : TextLib) (store : Store)
    (valid : SignaturesValid store.events) (moves : List (Move Request Env)) :
    FourEyesRule text ⟨store, []⟩ moves ↔ Along (program text).step SecondOperator ⟨store, []⟩ moves := by
  have initial : Signatures ⟨store, []⟩ :=
    ⟨fun event held => (valid event held).1, fun _ => by simp, fun _ replied => by simp at replied⟩
  have fine : NoSelfVerification ⟨store, []⟩ := by
    intro event held user signer disposed
    rcases disposed with recorded | inserted
    · exact (valid event held).2 user signer recorded
    · simp at inserted
  have exactly : Throughout (program text).step NoSelfVerification ⟨store, []⟩ moves ↔
      Along (program text).step SecondOperator ⟨store, []⟩ moves :=
    throughout_iff_along (step_signatures text)
      (fun _ move _ holds => step_noSelfVerification text holds move) moves _ initial fine
  have always : Throughout (program text).step Signatures ⟨store, []⟩ moves :=
    throughout_of_invariant (fun pool move held _ => step_signatures text pool move held) moves _ initial
      (along_trivial moves _)
  constructor
  · exact fun rule => exactly.mp rule.1
  · intro allowed
    refine ⟨exactly.mpr allowed, throughout_mono (fun _ => Signatures.once) moves _ always, ?_⟩
    rintro earlier later rfl
    rw [exec_append]
    exact exec_related (fun before after => SignaturesKept before.shared.events after.shared.events)
      (fun _ event held _ => ⟨event, held, rfl, rfl, rfl⟩) (fun _ _ _ => SignaturesKept.trans)
      (step_signatures text) (step_keeps text) later _
      (exec_invariant (step_signatures text) earlier _ initial)

private def plainText : TextLib := ⟨String.toUpper, fun text => "\"" ++ text ++ "\""⟩

private def supervisor : Claims where
  userId := "00000000-0000-0000-0000-00000000000a"
  username := "ada"
  role := .socSupervisor
  organizationId := ""

private def oneSite : Store where
  users := .empty
  sites := ⟨[⟨"AB-123", "Yard", "co-1", none⟩], by decide⟩
  cameras := .empty
  events := .empty
  incidents := .empty
  alarms := .empty

private def disposed : Move Request Env :=
  .spawn (.create (some supervisor) (some { siteId := "AB-123", dispositionCode := "verified-threat" }))

private def verifies (user : String) : Move Request Env :=
  .spawn (.verify (some { supervisor with userId := user }) "EVT-2026-0000")

/-- A second supervisor signs: the condition is met and so is the rule. -/
theorem four_eyes_other_supervisor :
    SignaturesValid oneSite.events ∧
      FourEyesRule plainText ⟨oneSite, []⟩
        [disposed, .run 0 {}, verifies "00000000-0000-0000-0000-00000000000b", .run 1 {}] := by
  have valid : SignaturesValid oneSite.events := fun event held => absurd held (by decide +revert)
  refine ⟨valid, (four_eyes_iff_second_operator plainText oneSite valid _).mpr ?_⟩
  decide +kernel

/-- The disposing supervisor signs the same event: the row was stored without
its disposer, so the conditional update takes it. -/
theorem four_eyes_self_verification :
    ¬ FourEyesRule plainText ⟨oneSite, []⟩ [disposed, .run 0 {}, verifies supervisor.userId, .run 1 {}] := by
  intro rule
  have last := throughout_last _ _ rule.1
  revert last
  decide +kernel

end Ironsight.FourEyesProofs
