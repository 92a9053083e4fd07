import Ironsight.Notifications
import Ironsight.Runs
import Ironsight.WeeklyDigest

/-! Sending each weekly digest once. A worker looks for the record of a digest, hands
the digest to the dispatcher and then makes the record; the dispatcher cannot take part
in a transaction, so what has left it is kept apart from what the table says. Any number
of worker processes may be started, shut down and killed. -/
namespace Ironsight.DigestSends
open Tables Runs WeeklyDigest
open Notifications (AlarmRecipient)

/-- A row of `digest_sends`, for the only scope there is. -/
structure DigestSend where
  orgId : String
  scope : String := "org"
  periodStart : Int
  deriving DecidableEq

/-- `digest_sends_unique`. -/
def DigestSend.key (d : DigestSend) : String × String × Int := (d.orgId, d.scope, d.periodStart)

/-- The digest of an organisation for the week that begins then. -/
abbrev Digest := String × Int

/-- The records, and the digests that were handed to the dispatcher. -/
structure Store where
  sends : Table DigestSend.key
  dispatched : List Digest := []

/-- `GetLastDigestSend`. -/
def getLastDigestSend (store : Store) (orgId : String) (periodStart : Int) : Option DigestSend :=
  store.sends.find? (orgId, "org", periodStart)

/-- `UpsertDigestSend`: a second record of one digest is no record. -/
def upsertDigestSend (store : Store) (orgId : String) (periodStart : Int) : Store :=
  { store with sends := (store.sends.insert? { orgId, periodStart }).getD store.sends }

/-- Where a worker is. -/
inductive Pc where
  /-- Before the check of a start or of a tick. -/
  | waiting
  | listing (periodStart : Int)
  /-- At the head of the loop, these organisations ahead. -/
  | checking (periodStart : Int) (orgs : List String)
  | sending (periodStart : Int) (org : String) (rest : List String)
  | recording (periodStart : Int) (org : String) (rest : List String)
  | exited
  | crashed
  deriving DecidableEq

structure Worker where
  pc : Pc := .waiting
  cancelled : Bool := false
  deriving DecidableEq

/-- What a step meets outside. -/
structure Env where
  signal : Option Signal := none
  now : Int := 0
  fault : Option Fault := none
  /-- The tick wins when the context is done as well. -/
  tick : Bool := false
  /-- The answer of `ListOrganizationsWithEmail`. -/
  orgs : List String := []
  /-- Whom `runWeeklyDigestForOrg` mails. -/
  recipients : List AlarmRecipient := []

/-- One statement of `runWeeklyDigest`. -/
def statement (cfg : Config) (env : Env) (w : Worker) (store : Store) : Worker × Store :=
  match w.pc with
  | .waiting =>
    ({ w with pc :=
        if w.cancelled ∧ ¬ env.tick then .exited
        else if due cfg env.now then .listing (period env.now).1
        else .waiting }, store)
  | .listing periodStart =>
    ({ w with pc := if w.cancelled ∨ env.fault ≠ none then .waiting else .checking periodStart env.orgs }, store)
  | .checking _ [] => ({ w with pc := .waiting }, store)
  | .checking periodStart (org :: rest) =>
    ({ w with pc :=
        if w.cancelled then .waiting
        else if env.fault ≠ none ∨ getLastDigestSend store org periodStart ≠ none then .checking periodStart rest
        else .sending periodStart org rest }, store)
  | .sending periodStart org rest =>
    if w.cancelled ∨ env.recipients = [] then ({ w with pc := .checking periodStart rest }, store)
    else ({ w with pc := .recording periodStart org rest },
      { store with dispatched := store.dispatched ++ [(org, periodStart)] })
  | .recording periodStart org rest =>
    ({ w with pc := .checking periodStart rest },
      if executes w.cancelled env.fault then upsertDigestSend store org periodStart else store)
  | .exited | .crashed => (w, store)

def next (cfg : Config) (env : Env) (w : Worker) (store : Store) : Worker × Store :=
  match env.signal with
  | some .kill => ({ w with pc := .crashed }, store)
  | some .shutdown => ({ w with cancelled := true }, store)
  | none => statement cfg env w store

/-- Workers that check, dispatch and record in turns. -/
def program (cfg : Config) : Program Store Worker Unit Env where
  start _ := {}
  next := next cfg

/-! ## At most once -/

/-- The digest that a worker is about to send; one that was shut down sends none. -/
def Worker.sends (w : Worker) : Option Digest :=
  match w.pc with
  | .sending periodStart org _ => if w.cancelled then none else some (org, periodStart)
  | .waiting | .listing _ | .checking .. | .recording .. | .exited | .crashed => none

/-- The digest that a worker has dispatched and is about to record. -/
def Worker.records (w : Worker) : Option Digest :=
  match w.pc with
  | .recording periodStart org _ => some (org, periodStart)
  | .waiting | .listing _ | .checking .. | .sending .. | .exited | .crashed => none

/-- The digest for which a worker stands between its check and its record. -/
def Worker.pending (w : Worker) : Option Digest :=
  match w.pc with
  | .sending periodStart org _ => if w.cancelled then none else some (org, periodStart)
  | .recording periodStart org _ => some (org, periodStart)
  | .waiting | .listing _ | .checking .. | .exited | .crashed => none

/-- The digest whose check this statement passes. -/
def passes (env : Env) (w : Worker) (store : Store) : Option Digest :=
  match env.signal, w.pc with
  | none, .checking periodStart (org :: _) =>
    if w.cancelled = false ∧ env.fault = none ∧ getLastDigestSend store org periodStart = none then
      some (org, periodStart)
    else none
  | _, _ => none

/-- No digest was dispatched twice. -/
def AtMostOnce (pool : Pool Store Worker) : Prop := pool.shared.dispatched.Nodup

instance (pool : Pool Store Worker) : Decidable (AtMostOnce pool) := inferInstanceAs (Decidable (List.Nodup _))

/-- What may come between a check and its record is ruled out: a worker that has dispatched a
digest is neither shut down nor killed before it records it, and its record is carried out; and
a worker passes its check of a digest only while no other one stands between the two. -/
structure UndisturbedSend (pool : Pool Store Worker) (env : Env) (w : Worker) : Prop where
  recorded : w.records ≠ none → env.signal = none ∧ executes w.cancelled env.fault = true
  alone : ∀ digest ∈ passes env w pool.shared, ∀ other ∈ pool.threads, other.pending ≠ some digest

instance (pool : Pool Store Worker) (env : Env) (w : Worker) : Decidable (UndisturbedSend pool env w) :=
  decidable_of_iff ((w.records ≠ none → env.signal = none ∧ executes w.cancelled env.fault = true) ∧
      ∀ digest ∈ passes env w pool.shared, ∀ other ∈ pool.threads, other.pending ≠ some digest)
    ⟨fun both => ⟨both.1, both.2⟩, fun holds => ⟨holds.recorded, holds.alone⟩⟩

/-- Before the first worker starts. -/
def start (sends : Table DigestSend.key) : Pool Store Worker := ⟨{ sends }, []⟩

/-- The table has a record of the digest. -/
def Recorded (store : Store) (digest : Digest) : Prop := getLastDigestSend store digest.1 digest.2 ≠ none

/-- Each digest was dispatched once at most. What was dispatched is recorded or is about to be,
what a worker is about to send was not dispatched, and no two workers are at one digest. -/
structure Sound (pool : Pool Store Worker) : Prop where
  once : AtMostOnce pool
  kept : ∀ digest ∈ pool.shared.dispatched, Recorded pool.shared digest ∨ ∃ w ∈ pool.threads, w.records = some digest
  unsent : ∀ w ∈ pool.threads, ∀ digest, w.sends = some digest → digest ∉ pool.shared.dispatched
  apart : Distinct Worker.pending pool.threads

theorem pending_of_sends {w : Worker} {digest : Digest} (sends : w.sends = some digest) : w.pending = some digest := by
  cases at_ : w.pc <;> simp_all [Worker.sends, Worker.pending]

theorem pending_of_records {w : Worker} {digest : Digest} (records : w.records = some digest) : w.pending = some digest := by
  cases at_ : w.pc <;> simp_all [Worker.records, Worker.pending]

theorem records_of_sends {w : Worker} {digest : Digest} (sends : w.sends = some digest) : w.records = none := by
  cases at_ : w.pc <;> simp_all [Worker.sends, Worker.records]

/-- A record of a digest stays and is there once it was made. -/
theorem recorded_upsert {store : Store} {orgId : String} {periodStart : Int} {digest : Digest}
    (known : Recorded store digest ∨ digest = (orgId, periodStart)) : Recorded (upsertDigestSend store orgId periodStart) digest := by
  obtain ⟨there, others⟩ := Table.find?_getD_insert? store.sends { orgId, periodStart }
  by_cases here : digest = (orgId, periodStart)
  · subst here
    exact there
  · have elsewhere : (digest.1, "org", digest.2) ≠ DigestSend.key { orgId, periodStart } := by
      intro same
      injection same with org rest
      injection rest with _ week
      exact here (Prod.ext org week)
    have before := known.resolve_right here
    rw [Recorded, getLastDigestSend, upsertDigestSend, others _ elsewhere]
    exact before

theorem unrecorded_of_passes {env : Env} {w : Worker} {store : Store} {digest : Digest} (passed : passes env w store = some digest) :
    getLastDigestSend store digest.1 digest.2 = none := by
  unfold passes at passed
  split at passed
  · split_ifs at passed with found
    cases passed
    exact found.2.2
  · cases passed

section Steps
variable {cfg : Config} {env : Env} {w : Worker} {store : Store}

/-- What a statement does for the digests: its worker passes a check, dispatches what it was about
to send, records what it dispatched, or is afterwards at no digest. -/
private theorem next_cases :
    (w.records = none ∧ (next cfg env w store).2 = store ∧ (next cfg env w store).1.pending = none) ∨
    (∃ digest, passes env w store = some digest ∧ w.records = none ∧ (next cfg env w store).2 = store ∧
      (next cfg env w store).1.sends = some digest) ∨
    (∃ digest, w.sends = some digest ∧ (next cfg env w store).1.sends = none ∧ (next cfg env w store).1.records = some digest ∧
      (next cfg env w store).2 = { store with dispatched := store.dispatched ++ [digest] }) ∨
    ∃ digest, w.records = some digest ∧ (env.signal = none → executes w.cancelled env.fault = true →
      (next cfg env w store).1.pending = none ∧ (next cfg env w store).2 = upsertDigestSend store digest.1 digest.2) := by
  cases quiet : env.signal with
  | some signal =>
    cases records : w.records with
    | some digest => exact .inr (.inr (.inr ⟨digest, rfl, nofun⟩))
    | none =>
      left
      rw [next, quiet]
      cases signal with
      | kill => exact ⟨rfl, rfl, rfl⟩
      | shutdown =>
        refine ⟨rfl, rfl, ?_⟩
        cases at_ : w.pc <;> simp_all [Worker.pending, Worker.records]
  | none =>
    rw [next, quiet]
    cases at_ : w.pc with
    | waiting =>
      left
      simp only [statement, at_, Worker.records, true_and]
      split_ifs <;> rfl
    | listing periodStart =>
      left
      simp only [statement, at_, Worker.records, true_and]
      split_ifs <;> rfl
    | checking periodStart orgs =>
      cases orgs with
      | nil => exact .inl ⟨by rw [Worker.records, at_], by rw [statement, at_], by rw [statement, at_]; rfl⟩
      | cons org rest =>
        simp only [statement, at_, Worker.records, true_and, passes, quiet]
        split_ifs <;> simp_all [Worker.pending, Worker.sends]
    | sending periodStart org rest =>
      simp only [statement, at_, Worker.records, Worker.sends, true_and]
      split_ifs <;> simp_all [Worker.pending]
    | recording periodStart org rest =>
      refine .inr (.inr (.inr ⟨(org, periodStart), by rw [Worker.records, at_], fun _ carried => ?_⟩))
      simp only [statement, at_, carried, if_true]
      exact ⟨rfl, trivial⟩
    | exited => exact .inl ⟨by rw [Worker.records, at_], by rw [statement, at_], by rw [statement, at_, Worker.pending, at_]⟩
    | crashed => exact .inl ⟨by rw [Worker.records, at_], by rw [statement, at_], by rw [statement, at_, Worker.pending, at_]⟩

private theorem mem_set_self {threads : List Worker} {index : Nat} {after : Worker} (running : threads[index]? = some w) :
    after ∈ threads.set index after :=
  List.mem_set (List.getElem?_eq_some_iff.mp running).1 after

/-- A worker that was not at a digest when it ran stays out of those that are. -/
private theorem records_elsewhere {threads : List Worker} {index : Nat} {after : Worker} {digest : Digest}
    (running : threads[index]? = some w) (free : w.records ≠ some digest) (held : ∃ v ∈ threads, v.records = some digest) :
    ∃ v ∈ threads.set index after, v.records = some digest := by
  obtain ⟨v, member, records⟩ := held
  exact ⟨v, mem_set_of_ne running member fun same => free (same ▸ records), records⟩

/-- An undisturbed statement keeps the invariant. -/
private theorem sound_run {pool : Pool Store Worker} {index : Nat} (sound : Sound pool)
    (running : pool.threads[index]? = some w) (undisturbed : UndisturbedSend pool env w) :
    Sound ⟨(next cfg env w pool.shared).2, pool.threads.set index (next cfg env w pool.shared).1⟩ := by
  have here := List.mem_of_getElem? running
  rcases @next_cases cfg env w pool.shared with
    ⟨free, same, nothing⟩ | ⟨digest, passed, free, same, sends⟩ | ⟨digest, sends, idle, records, dispatched⟩ | ⟨digest, records, carried⟩
  · rw [same]
    exact
      { once := sound.once
        kept := fun digest sent => (sound.kept digest sent).imp_right (records_elsewhere running (by rw [free]; nofun))
        unsent := forall_mem_set sound.unsent fun digest sends => by rw [pending_of_sends sends] at nothing; cases nothing
        apart := sound.apart.set running fun digest pending => by rw [nothing] at pending; cases pending }
  · -- What has no record and is recorded by no one was not dispatched.
    have unsent : digest ∉ pool.shared.dispatched := by
      intro sent
      rcases sound.kept digest sent with recorded | ⟨v, member, records⟩
      · exact recorded (unrecorded_of_passes passed)
      · exact undisturbed.alone digest passed v member (pending_of_records records)
    rw [same]
    exact
      { once := sound.once
        kept := fun other sent => (sound.kept other sent).imp_right (records_elsewhere running (by rw [free]; nofun))
        unsent := forall_mem_set sound.unsent fun other own => by rw [sends] at own; cases own; exact unsent
        apart := sound.apart.set running fun other pending => by
          rw [pending_of_sends sends] at pending
          cases pending
          exact .inr (undisturbed.alone digest passed) }
  · rw [dispatched]
    have pending := pending_of_sends sends
    have after : (next cfg env w pool.shared).1.pending = some digest := pending_of_records records
    exact
      { once := List.nodup_append.mpr ⟨sound.once, List.nodup_singleton _, fun other held last only same => by
          rw [List.mem_singleton.mp only] at same
          exact sound.unsent w here digest sends (same ▸ held)⟩
        kept := fun other sent => by
          rcases List.mem_append.mp sent with old | new
          · refine (sound.kept other old).imp_right (records_elsewhere running fun own => ?_)
            rw [records_of_sends sends] at own
            cases own
          · rw [List.mem_singleton.mp new]
            exact .inr ⟨_, mem_set_self running, records⟩
        unsent := by
          intro other member own sends'
          rcases mem_set_cases member with rfl | ⟨j, elsewhere, found⟩
          · rw [idle] at sends'
            cases sends'
          · rw [List.mem_append, List.mem_singleton]
            rintro (held | rfl)
            · exact sound.unsent other (List.mem_of_getElem? found) own sends' held
            · exact elsewhere (sound.apart j index other w own found running (pending_of_sends sends') pending)
        apart := sound.apart.set running fun other own => by
          rw [after] at own
          cases own
          exact .inl pending }
  · obtain ⟨live, executed⟩ := undisturbed.recorded (by rw [records]; nofun)
    obtain ⟨nothing, recorded⟩ := carried live executed
    rw [recorded]
    exact
      { once := sound.once
        kept := fun other sent => by
          by_cases own : other = digest
          · exact .inl (recorded_upsert (.inr own))
          · refine (sound.kept other sent).imp (fun known => recorded_upsert (.inl known)) (records_elsewhere running fun same => own ?_)
            rw [records] at same
            exact (Option.some.inj same).symm
        unsent := forall_mem_set sound.unsent fun other sends => by rw [pending_of_sends sends] at nothing; cases nothing
        apart := sound.apart.set running fun other pending => by rw [nothing] at pending; cases pending }

end Steps

theorem sound_step (cfg : Config) (pool : Pool Store Worker) (move : Move Unit Env) (sound : Sound pool)
    (undisturbed : OnStatement UndisturbedSend pool move) : Sound ((program cfg).step pool move) := by
  refine Program.step_preserves Sound sound move (fun request _ => ?_) fun index env w ran running => ?_
  · exact
      { once := sound.once
        kept := fun digest sent => (sound.kept digest sent).imp_right fun ⟨w, member, records⟩ =>
          ⟨w, List.mem_append_left _ member, records⟩
        unsent := forall_mem_append sound.unsent nofun
        apart := sound.apart.append rfl }
  · subst ran
    exact sound_run sound running (undisturbed w running)

/-- In every run in which no worker is stopped, and no record fails, between a dispatch and its
record, and no two workers are at one digest at a time, no digest is dispatched twice: whatever
else fails, and whenever workers are started, shut down or killed. -/
theorem at_most_once (cfg : Config) (sends : Table DigestSend.key) (moves : List (Move Unit Env))
    (undisturbed : Along (program cfg).step (OnStatement UndisturbedSend) (start sends) moves) :
    Throughout (program cfg).step AtMostOnce (start sends) moves := by
  have initial : Sound (start sends) :=
    { once := List.nodup_nil
      kept := fun digest sent => absurd sent List.not_mem_nil
      unsent := fun w member => absurd member List.not_mem_nil
      apart := fun i j first second digest left => by cases left }
  exact throughout_mono (fun _ sound => sound.once) moves _
    (throughout_of_invariant (sound_step cfg) moves (start sends) initial undisturbed)

/-! ## Two runs of one Monday -/

private def cfg : Config := ⟨1, 13⟩

/-- Monday, 16 June 2025, at one in the afternoon. -/
private def monday : Env := { now := 1750078800000000000 }

private def mailing : Env := { monday with orgs := ["org-a"], recipients := [{ userId := ⟨1⟩, email := "ops@a.test" }] }

/-- The statements of a worker up to the dispatch. -/
private def upToDispatch (worker : Nat) : List (Move Unit Env) :=
  [.spawn (), .run worker mailing, .run worker mailing, .run worker mailing, .run worker mailing]

/-- The worker records what it sent and is killed; the one that follows finds the record. -/
theorem at_most_once_after_restart :
    Along (program cfg).step (OnStatement UndisturbedSend) (start .empty)
      (upToDispatch 0 ++ [.run 0 mailing, .run 0 { signal := some .kill }] ++ upToDispatch 1) ∧
    Throughout (program cfg).step AtMostOnce (start .empty)
      (upToDispatch 0 ++ [.run 0 mailing, .run 0 { signal := some .kill }] ++ upToDispatch 1) := by
  have undisturbed : Along (program cfg).step (OnStatement UndisturbedSend) (start .empty)
      (upToDispatch 0 ++ [.run 0 mailing, .run 0 { signal := some .kill }] ++ upToDispatch 1) := by decide +kernel
  exact ⟨undisturbed, at_most_once cfg .empty _ undisturbed⟩

/-- The worker is killed between the dispatch and the record, and the next one sends the
digest again. -/
theorem dispatched_twice : ¬ Throughout (program cfg).step AtMostOnce (start .empty)
    (upToDispatch 0 ++ [.run 0 { signal := some .kill }] ++ upToDispatch 1) := by
  decide +kernel

end Ironsight.DigestSends
