import Ironsight.FourEyesProofs

/-! What a disposition leaves behind, over every interleaving of requests. The
row, the acknowledgement and the verdict on the AI are three writes without a
transaction, so an answer is judged by what each statement of the request did:
an error promises that none of them changed a table. A panic is answered 500 by
the router and falls under the same promise. -/
namespace Ironsight.Dispositions
open Tables Runs Uuid Access Soc FourEyes FourEyesProofs

/-- What `ComputeAICorrectness` documents: a threat agrees with every code but
a false positive, no threat with a false positive alone. -/
def aiCorrect (threat code : String) : Bool :=
  let saidThreat := threat = "critical" ∨ threat = "high"
  let falsePositive := code.toUTF8.data.toList.take 5 = "false".toUTF8.data.toList
  decide ((saidThreat ∧ ¬ falsePositive) ∨ (¬ saidThreat ∧ falsePositive))

/-- The user who dispositions, as a column holds it. -/
def caller (d : Disposition) : Option UUID := nullableUUID (d.operator.getD .nil)

/-- The AI's verdict on the alarm of that id, empty where there is none. -/
def threatOf (store : Store) (alarmId : String) : String :=
  match store.alarms.find? alarmId with
  | some alarm => alarm.aiThreatLevel
  | none => ""

section Promise
variable (text : TextLib) (store : Store)

/-- Where a run of the handlers over `store` has come to. -/
def after (moves : List (Move Request Env)) : Pool Store Thread := exec (program text).step ⟨store, []⟩ moves

/-- No statement of the request changed either table. -/
def LeftAlone (moves : List (Move Request Env)) (thread : Nat) : Prop :=
  ∀ earlier env, earlier ++ [.run thread env] <+: moves →
    (after text store (earlier ++ [.run thread env])).shared.events = (after text store earlier).shared.events ∧
    (after text store (earlier ++ [.run thread env])).shared.alarms = (after text store earlier).shared.alarms

/-- A statement of the request met no event of this id and left one, which is
still there and says what was dispositioned and how. -/
def NewRow (moves : List (Move Request Env)) (thread : Nat) (d : Disposition) (id : String) : Prop :=
  (∃ earlier env, earlier ++ [.run thread env] <+: moves ∧
    (∀ event ∈ (after text store earlier).shared.events, event.id ≠ id) ∧
    ∃ event ∈ (after text store (earlier ++ [.run thread env])).shared.events, event.id = id) ∧
  ∃ event ∈ (after text store moves).shared.events, event.id = id ∧ event.alarmId = d.input.alarmId ∧
    event.siteId = d.input.siteId ∧ event.dispositionCode = d.input.dispositionCode

/-- When the request came to acknowledge the alarm, `user` already had. -/
def AcknowledgedBefore (moves : List (Move Request Env)) (thread : Nat) (alarmId : String) (user : UUID) : Prop :=
  ∃ earlier env, earlier ++ [.run thread env] <+: moves ∧
    (∃ d, (after text store earlier).threads[thread]? = some (.disposing d) ∧ d.pc = .acknowledge) ∧
    ∃ alarm ∈ (after text store earlier).shared.alarms, alarm.id = alarmId ∧ alarm.acknowledgedByUserId = some user

/-- The alarm is acknowledged, by the caller unless another user came first. -/
def Acknowledged (moves : List (Move Request Env)) (thread : Nat) (d : Disposition) (alarm : ActiveAlarm) : Prop :=
  alarm.acknowledged = true ∧
  ∀ user ∈ caller d, alarm.acknowledgedByUserId = some user ∨
    ∃ first, alarm.acknowledgedByUserId = some first ∧ AcknowledgedBefore text store moves thread alarm.id first

/-- The alarm, if the AI assessed it, carries a verdict computed for the code of
a request that names it. -/
def Judged (pool : Pool Store Thread) (alarm : ActiveAlarm) : Prop :=
  alarm.aiThreatLevel ≠ "" → ∃ d, .disposing d ∈ pool.threads ∧ d.input.alarmId = alarm.id ∧
    alarm.aiWasCorrect = some (aiCorrect alarm.aiThreatLevel d.input.dispositionCode)

/-- What an answer of 200 promises. -/
def Dispositioned (moves : List (Move Request Env)) (thread : Nat) (d : Disposition) (id : String) : Prop :=
  NewRow text store moves thread d id ∧
  (d.input.alarmId ≠ "" → ∀ alarm ∈ (after text store moves).shared.alarms, alarm.id = d.input.alarmId →
    Acknowledged text store moves thread d alarm ∧ Judged (after text store moves) alarm)

/-- Every disposition that has been answered is there as a whole or not at all. -/
def AllOrNothing (moves : List (Move Request Env)) : Prop :=
  ∀ thread d reply, (after text store moves).threads[thread]? = some (.disposing d) → d.pc = .done reply →
    (∃ id, reply = .json 200 id ∧ Dispositioned text store moves thread d id) ∨
    (∃ status err, reply = .error status err ∧ LeftAlone text store moves thread)

end Promise

/-- `dispositionCode[:5]` is reached and reads past the end of the code. -/
def Panics (store : Store) (env : Env) (d : Disposition) : Prop :=
  d.pc = .readThreat ∧ env.fault = none ∧ threatOf store d.input.alarmId ≠ "" ∧
    0 < d.input.dispositionCode.toUTF8.size ∧ d.input.dispositionCode.toUTF8.size < 5

instance (store : Store) (env : Env) (d : Disposition) : Decidable (Panics store env d) :=
  inferInstanceAs (Decidable (_ ∧ _))

/-- The statement has something to write whose loss the handler would not notice. -/
def hasWork (store : Store) (d : Disposition) : Bool :=
  match d.pc with
  | .acknowledge => (store.alarms.find? d.input.alarmId).isSome
  | .readThreat => threatOf store d.input.alarmId ≠ ""
  | .writeCorrect _ => true
  | .insertEvent | .closeAlarm | .done _ => false

/-- A condition on the statements of dispositions. -/
def OnDisposition (holds : Store → Env → Disposition → Prop) (pool : Pool Store Thread) (env : Env) : Thread → Prop
  | .disposing d => holds pool.shared env d
  | .refused _ | .verifying _ => True

instance (holds : Store → Env → Disposition → Prop) [∀ store env d, Decidable (holds store env d)]
    (pool : Pool Store Thread) (env : Env) : (thread : Thread) → Decidable (OnDisposition holds pool env thread)
  | .disposing _ => inferInstanceAs (Decidable (holds _ _ _))
  | .refused _ => isTrue trivial
  | .verifying _ => isTrue trivial

/-- No request reads past the end of a short code. -/
def NoPanic : Pool Store Thread → Move Request Env → Prop :=
  OnStatement (OnDisposition fun store env d => ¬ Panics store env d)

/-- Nor is a failed write dropped. -/
def Completes : Pool Store Thread → Move Request Env → Prop :=
  OnStatement (OnDisposition fun store env d => ¬ Panics store env d ∧
    (hasWork store d = true → env.fault = none))

instance : (pool : Pool Store Thread) → (move : Move Request Env) → Decidable (NoPanic pool move) :=
  fun pool move => inferInstanceAs (Decidable (OnStatement _ pool move))

instance : (pool : Pool Store Thread) → (move : Move Request Env) → Decidable (Completes pool move) :=
  fun pool move => inferInstanceAs (Decidable (OnStatement _ pool move))

end Ironsight.Dispositions
