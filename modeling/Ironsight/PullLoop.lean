import Mathlib.Data.List.Infix
import Ironsight.Runs

/-! `EventSubscriber.pullLoop`: one goroutine that keeps one PullPoint
subscription on a camera, and the camera that hands them out. Every request is a
statement of its own, so the context can be cancelled and time can pass between
any two of them. A create request is sent from four places: at the start, when a
renewal fails, after too many errors, and while the camera is unreachable. -/
namespace Ironsight.PullLoop
open Runs

/-- Nanoseconds of the monotonic clock. -/
abbrev Instant := Nat

def second : Nat := 1000000000

/-- `subscriptionTTL`. -/
def subscriptionTTL : Nat := 3600 * second

/-- `renewBeforeSec`. -/
def renewBefore : Nat := 300 * second

/-- `maxErrors`. -/
def maxErrors : Nat := 10

/-- Where a create request comes from. -/
inductive Path where
  | initial
  | renewal
  | lost
  | reestablish
  deriving DecidableEq

/-- The statement that comes next. -/
inductive Pc where
  | creating (path : Path)
  /-- A `select` on a timer, the stop channel and the context. -/
  | waiting (until_ : Instant) (path : Path)
  | checking
  | renewing
  /-- The unsubscribe with which `recreate` begins, after too many errors or a
  failed renewal. -/
  | releasing (lost : Bool)
  | pulling
  | sleeping (until_ : Instant)
  /-- The deferred unsubscribe. -/
  | leaving
  | returned
  deriving DecidableEq

/-- The locals of the loop, the outside world as it sees it, and what the camera
holds for it. -/
structure State where
  pc : Pc := .creating .initial
  subscriptionAddr : String := ""
  expiresAt : Instant := 0
  consecutiveErrors : Nat := 0
  now : Instant := 0
  /-- The context is done. -/
  cancelled : Bool := false
  /-- The stop channel is closed. -/
  stopped : Bool := false
  /-- The subscriptions that the camera holds for this loop. -/
  held : List String := []
  /-- When the camera last said that it is full, and to which request. -/
  refusal : Option (Instant × Path) := none
  deriving DecidableEq

/-- What a statement gets from outside: how long it took, the answer to a create
request, the error of a pull or a renewal, and whether a `select` takes its timer. -/
structure Answer where
  elapsed : Nat := 0
  created : Except String String := .error ""
  failed : Option String := none
  timer : Bool := true

/-- Time passes, the server shuts the loop down, or the loop goes on. -/
inductive Move where
  | pass (elapsed : Nat)
  | cancel
  | stop
  | run (answer : Answer)

section Step
variable (toLower : String → String)

/-- `isSubscriptionCapError`. -/
def isSubscriptionCapError (err : String) : Bool :=
  let s := (toLower err).toList
  "maximum number of subscribe".toList <:+: s ∨ "too many subscriptions".toList <:+: s ∨ "subscription limit".toList <:+: s

/-- `newSubscription`: nothing is sent when the context is done. -/
def newSubscription (s : State) (answer : Answer) : Except String String :=
  if s.cancelled then .error "context canceled"
  else match answer.created with
    | .error err => .error err
    | .ok addr => if addr = "" then .error "empty subscription address" else .ok addr

/-- How long the loop waits after a refused create request on this path. -/
def pause (path : Path) (err : String) : Nat :=
  if isSubscriptionCapError toLower err then 300 * second
  else match path with
    | .lost => 30 * second
    | .initial | .renewal | .reestablish => 60 * second

/-- The answer to a create request. -/
def create (path : Path) (s : State) (answer : Answer) : State :=
  let now := s.now + answer.elapsed
  match newSubscription s answer with
  | .ok addr =>
    { s with
      pc := match path with
        | .renewal => .pulling
        | .initial | .lost | .reestablish => .checking
      now := now
      subscriptionAddr := addr
      expiresAt := now + subscriptionTTL
      consecutiveErrors := 0
      held := addr :: s.held }
  | .error err =>
    let refusal := if !s.cancelled && isSubscriptionCapError toLower err then some (now, path) else s.refusal
    match path with
    | .renewal => { s with pc := .pulling, now, refusal }
    | .lost => { s with pc := .waiting (now + pause toLower path err) .reestablish, subscriptionAddr := "", now, refusal }
    | .initial | .reestablish => { s with pc := .waiting (now + pause toLower path err) path, now, refusal }

/-- `unsubscribe`; the camera honours what it is sent. -/
def unsubscribe (s : State) (sent : Bool) : List String :=
  if sent && s.subscriptionAddr ≠ "" then s.held.filter (· ≠ s.subscriptionAddr) else s.held

/-- One statement of `pullLoop`. -/
def run (s : State) (answer : Answer) : State :=
  let now := s.now + answer.elapsed
  -- A request fails unsent when the context is done.
  let failed := s.cancelled || answer.failed.isSome
  match s.pc with
  | .creating path => create toLower path s answer
  | .waiting until_ path =>
    if answer.timer ∧ until_ ≤ now then { s with pc := .creating path, now }
    else if s.stopped || s.cancelled then { s with pc := .leaving, now }
    else { s with now }
  | .checking =>
    if s.stopped || s.cancelled then { s with pc := .leaving, now }
    else { s with pc := if s.expiresAt < now + renewBefore then .renewing else .pulling, now }
  | .renewing =>
    if failed then { s with pc := .releasing false, now }
    else { s with pc := .pulling, now, expiresAt := now + subscriptionTTL }
  | .releasing lost =>
    { s with pc := .creating (if lost then .lost else .renewal), now, held := unsubscribe s (!s.cancelled) }
  | .pulling =>
    if failed then
      { s with
        pc := if maxErrors ≤ s.consecutiveErrors + 1 then .releasing true else .sleeping (now + 2 * second)
        now
        consecutiveErrors := s.consecutiveErrors + 1 }
    else { s with pc := .checking, now, consecutiveErrors := 0 }
  | .sleeping until_ => if until_ ≤ now then { s with pc := .checking, now } else { s with now }
  | .leaving => { s with pc := .returned, now, held := unsubscribe s true }
  | .returned => { s with now }

/-- What each of them leaves. -/
def step (s : State) : Move → State
  | .pass elapsed => { s with now := s.now + elapsed }
  | .cancel => { s with cancelled := true }
  | .stop => { s with stopped := true }
  | .run answer => run toLower s answer

end Step

/-! ## What is promised -/

/-- The camera holds at most one subscription of the loop, and none once the
loop has returned. -/
def SlotsKept (s : State) : Prop := s.held.length ≤ 1 ∧ (s.pc = .returned → s.held = [])

/-- The unsubscribe after too many errors is not one that the cancelled context
keeps from being sent. -/
def ReleaseSent (s : State) : Move → Prop
  | .run _ => s.pc = .releasing true → s.held ≠ [] → s.cancelled = false
  | .pass _ | .cancel | .stop => True

def Pc.creates : Pc → Bool
  | .creating _ => true
  | .waiting _ _ | .checking | .renewing | .releasing _ | .pulling | .sleeping _ | .leaving | .returned => false

/-- A create request goes out. -/
def Creates (s : State) : Move → Prop
  | .run _ => s.cancelled = false ∧ s.pc.creates = true
  | .pass _ | .cancel | .stop => False

/-- A create request goes out no earlier than five minutes after the camera last
said that it is full. -/
def BacksOff (s : State) (move : Move) : Prop :=
  Creates s move → ∀ refusal ∈ s.refusal, refusal.1 + 300 * second ≤ s.now

/-- The camera says that it is full. -/
def refused (toLower : String → String) (s : State) (answer : Answer) : Bool :=
  match newSubscription s answer with
  | .ok _ => false
  | .error err => !s.cancelled && isSubscriptionCapError toLower err

/-- The camera does not answer the create request that follows a failed renewal
by saying that it is full. -/
def RenewalAdmitted (toLower : String → String) (s : State) : Move → Prop
  | .run answer => s.pc = .creating .renewal → refused toLower s answer = false
  | .pass _ | .cancel | .stop => True

instance (s : State) : (move : Move) → Decidable (ReleaseSent s move)
  | .run _ => inferInstanceAs (Decidable (_ → _ → _))
  | .pass _ => isTrue trivial
  | .cancel => isTrue trivial
  | .stop => isTrue trivial

instance (s : State) : (move : Move) → Decidable (Creates s move)
  | .run _ => inferInstanceAs (Decidable (_ ∧ _))
  | .pass _ => isFalse not_false
  | .cancel => isFalse not_false
  | .stop => isFalse not_false

instance (s : State) (move : Move) : Decidable (BacksOff s move) :=
  inferInstanceAs (Decidable (_ → ∀ refusal ∈ _, _))

instance (toLower : String → String) (s : State) : (move : Move) → Decidable (RenewalAdmitted toLower s move)
  | .run _ => inferInstanceAs (Decidable (_ → _))
  | .pass _ => isTrue trivial
  | .cancel => isTrue trivial
  | .stop => isTrue trivial

instance (s : State) : Decidable (SlotsKept s) := inferInstanceAs (Decidable (_ ∧ _))

/-! ## Slots -/

section Slots
variable {toLower : String → String}

/-- Before these statements the loop holds nothing: it has no address. -/
def Pc.idle : Pc → Bool
  | .creating .renewal | .checking | .renewing | .releasing _ | .pulling | .sleeping _ | .leaving => false
  | .creating .initial | .creating .lost | .creating .reestablish | .waiting _ _ | .returned => true

/-- The camera holds what the loop remembers. -/
structure Tight (s : State) : Prop where
  one : s.held = [] ∨ (s.held = [s.subscriptionAddr] ∧ s.subscriptionAddr ≠ "")
  idle : s.pc.idle = true → s.held = []
  renewal : s.pc = .creating .renewal → s.held = [] ∨ s.cancelled = true

/-- The camera holds a subscription that the loop has given up: the context was
done when it should have been released. -/
structure Leaked (s : State) : Prop where
  cancelled : s.cancelled = true
  one : ∃ addr, s.held = [addr]
  forgotten : s.pc = .creating .lost ∨ s.subscriptionAddr = "" ∧
    (s.pc = .creating .reestablish ∨ (∃ until_ , s.pc = .waiting until_ .reestablish) ∨ s.pc = .leaving ∨ s.pc = .returned)

private theorem newSubscription_named {s : State} {answer : Answer} {addr : String}
    (created : newSubscription s answer = .ok addr) : s.cancelled = false ∧ addr ≠ "" := by
  unfold newSubscription at created
  split at created
  · cases created
  · rename_i working
    split at created
    · cases created
    · split at created
      · cases created
      · rename_i named
        cases created
        exact ⟨by simpa using working, named⟩

private theorem unsubscribe_tight {s : State}
    (one : s.held = [] ∨ (s.held = [s.subscriptionAddr] ∧ s.subscriptionAddr ≠ "")) : unsubscribe s true = [] := by
  rcases one with none_ | ⟨held, named⟩
  · simp [unsubscribe, none_]
  · simp [unsubscribe, held, named]

private theorem create_tight {s : State} (tight : Tight s) {path : Path} (here : s.pc = .creating path) (answer : Answer) :
    Tight (create toLower path s answer) := by
  have empty (open_ : s.cancelled = false) : s.held = [] := by
    cases path with
    | renewal => exact (tight.renewal here).resolve_right (by simp [open_])
    | initial | lost | reestablish => exact tight.idle (by rw [here]; rfl)
  cases made : newSubscription s answer with
  | ok addr =>
    obtain ⟨open_, named⟩ := newSubscription_named made
    simp only [create, made]
    refine ⟨.inr ⟨by rw [empty open_], named⟩, ?_, ?_⟩
    · cases path <;> simp [Pc.idle]
    · cases path <;> simp
  | error err =>
    simp only [create, made]
    cases path with
    | renewal => exact ⟨tight.one, by simp [Pc.idle], by simp⟩
    | lost =>
      have none_ : s.held = [] := tight.idle (by rw [here]; rfl)
      exact ⟨.inl none_, fun _ => none_, by simp⟩
    | initial =>
      have none_ : s.held = [] := tight.idle (by rw [here]; rfl)
      exact ⟨.inl none_, fun _ => none_, by simp⟩
    | reestablish =>
      have none_ : s.held = [] := tight.idle (by rw [here]; rfl)
      exact ⟨.inl none_, fun _ => none_, by simp⟩

/-- A statement keeps the books right, if it does not give up a subscription that
it could not release. -/
theorem run_tight {s : State} (tight : Tight s) (answer : Answer) (sent : ReleaseSent s (.run answer)) :
    Tight (run toLower s answer) := by
  cases here : s.pc with
  | creating path =>
    simp only [run, here]
    exact create_tight tight here answer
  | waiting until_ path =>
    have none_ : s.held = [] := tight.idle (by rw [here]; rfl)
    simp only [run, here]
    split
    · exact ⟨.inl none_, fun _ => none_, fun _ => .inl none_⟩
    · split <;> exact ⟨.inl none_, fun _ => none_, fun _ => .inl none_⟩
  | checking =>
    simp only [run, here]
    split
    · exact ⟨tight.one, by simp [Pc.idle], by simp⟩
    · split <;> exact ⟨tight.one, by simp [Pc.idle], by simp⟩
  | renewing =>
    simp only [run, here]
    split <;> exact ⟨tight.one, by simp [Pc.idle], by simp⟩
  | releasing lost =>
    simp only [run, here]
    cases open_ : s.cancelled with
    | false =>
      have none_ := unsubscribe_tight tight.one
      exact ⟨.inl none_, fun _ => none_, fun _ => .inl none_⟩
    | true =>
      have kept : unsubscribe s (!true) = s.held := rfl
      refine ⟨by rw [kept]; exact tight.one, fun idle => ?_, fun _ => .inr rfl⟩
      cases lost with
      | false => cases idle
      | true =>
        rw [kept]
        by_contra some_
        rw [sent here some_] at open_
        cases open_
  | pulling =>
    simp only [run, here]
    split
    · split <;> exact ⟨tight.one, by simp [Pc.idle], by simp⟩
    · exact ⟨tight.one, by simp [Pc.idle], by simp⟩
  | sleeping until_ =>
    simp only [run, here]
    split <;> exact ⟨tight.one, by simp [Pc.idle], by simp⟩
  | leaving =>
    simp only [run, here]
    have none_ := unsubscribe_tight tight.one
    exact ⟨.inl none_, fun _ => none_, fun _ => .inl none_⟩
  | returned =>
    simp only [run, here]
    have none_ : s.held = [] := tight.idle (by rw [here]; rfl)
    exact ⟨.inl none_, fun _ => none_, fun _ => .inl none_⟩

theorem step_tight {s : State} (tight : Tight s) (move : Move) (sent : ReleaseSent s move) :
    Tight (step toLower s move) := by
  cases move with
  | pass elapsed => exact ⟨tight.one, tight.idle, tight.renewal⟩
  | cancel => exact ⟨tight.one, tight.idle, fun _ => .inr rfl⟩
  | stop => exact ⟨tight.one, tight.idle, tight.renewal⟩
  | run answer => exact run_tight tight answer sent

/-- What is given up is never released. -/
theorem step_leaked {s : State} (leaked : Leaked s) (move : Move) : Leaked (step toLower s move) := by
  obtain ⟨cancelled, one, forgotten⟩ := leaked
  have unsent (answer : Answer) : newSubscription s answer = .error "context canceled" := by
    simp [newSubscription, cancelled]
  cases move with
  | pass elapsed => exact ⟨cancelled, one, forgotten⟩
  | cancel => exact ⟨rfl, one, forgotten⟩
  | stop => exact ⟨cancelled, one, forgotten⟩
  | run answer =>
    simp only [step]
    rcases forgotten with here | ⟨nameless, here | ⟨until_, here⟩ | here | here⟩
    · simp only [run, here, create, unsent]
      exact ⟨cancelled, one, .inr ⟨rfl, .inr (.inl ⟨_, rfl⟩)⟩⟩
    · simp only [run, here, create, unsent]
      exact ⟨cancelled, one, .inr ⟨nameless, .inr (.inl ⟨_, rfl⟩)⟩⟩
    · simp only [run, here, cancelled, Bool.or_true, if_true]
      split
      · exact ⟨rfl, one, .inr ⟨nameless, .inl rfl⟩⟩
      · exact ⟨rfl, one, .inr ⟨nameless, .inr (.inr (.inl rfl))⟩⟩
    · have kept : unsubscribe s true = s.held := by simp [unsubscribe, nameless]
      simp only [run, here, kept]
      exact ⟨cancelled, one, .inr ⟨nameless, .inr (.inr (.inr rfl))⟩⟩
    · simp only [run, here]
      exact ⟨cancelled, one, .inr ⟨nameless, .inr (.inr (.inr rfl))⟩⟩

/-- The one way to lose a subscription. -/
theorem leaked_of_unsent {s : State} (tight : Tight s) (answer : Answer) (unsent : ¬ ReleaseSent s (.run answer)) :
    Leaked (run toLower s answer) := by
  obtain ⟨here, some_, cancelled⟩ : s.pc = .releasing true ∧ s.held ≠ [] ∧ s.cancelled = true := by
    simpa [ReleaseSent] using unsent
  have kept : unsubscribe s (!true) = s.held := rfl
  simp only [run, here, cancelled, kept, if_true]
  exact ⟨rfl, ⟨_, (tight.one.resolve_left some_).1⟩, .inl rfl⟩

private theorem tight_start : Tight {} := ⟨.inl rfl, fun _ => rfl, fun _ => .inl rfl⟩

private theorem step_tight_or_leaked (s : State) (move : Move) (books : Tight s ∨ Leaked s) :
    Tight (step toLower s move) ∨ Leaked (step toLower s move) := by
  rcases books with tight | leaked
  · by_cases sent : ReleaseSent s move
    · exact .inl (step_tight tight move sent)
    · cases move with
      | pass elapsed => exact absurd trivial sent
      | cancel | stop => exact absurd trivial sent
      | run answer => exact .inr (leaked_of_unsent tight answer sent)
  · exact .inr (step_leaked leaked move)

private theorem slotsKept_of_tight (s : State) (tight : Tight s) : SlotsKept s := by
  refine ⟨?_, fun here => tight.idle (by rw [here]; rfl)⟩
  rcases tight.one with none_ | ⟨held, _⟩
  · simp [none_]
  · simp [held]

private theorem along_releaseSent_of_kept : ∀ (moves : List Move) (s : State), Tight s →
    (exec (step toLower) s moves).held = [] → Along (step toLower) ReleaseSent s moves
  | [], _, _, _ => trivial
  | move :: rest, s, tight, empty => by
    by_cases sent : ReleaseSent s move
    · exact ⟨sent, along_releaseSent_of_kept rest _ (step_tight tight move sent) empty⟩
    · have leaked : Leaked (step toLower s move) := by
        cases move with
        | pass elapsed => exact absurd trivial sent
        | cancel | stop => exact absurd trivial sent
        | run answer => exact leaked_of_unsent tight answer sent
      have keeps : ∀ s move, Leaked s → Leaked (step toLower s move) := fun s move leaked => step_leaked leaked move
      obtain ⟨_, ⟨addr, held⟩, _⟩ := exec_invariant keeps rest _ leaked
      rw [exec_cons, held] at empty
      cases empty

end Slots

/-! ## Backing off -/

section BackOff
variable {toLower : String → String}

/-- The refusal is five minutes old, or the loop will not create before it is. -/
def Quiet (s : State) (refused : Instant) : Prop :=
  refused + 300 * second ≤ s.now ∨ (∃ until_ path, s.pc = .waiting until_ path ∧ refused + 300 * second ≤ until_) ∨
    s.pc = .leaving ∨ s.pc = .returned

/-- Every refusal that did not come on the renewal path is waited for. -/
def Waited (s : State) : Prop := ∀ refusal ∈ s.refusal, refusal.2 ≠ .renewal → Quiet s refusal.1

private theorem pause_cap {path : Path} {err : String} (cap : isSubscriptionCapError toLower err = true) :
    pause toLower path err = 300 * second := if_pos cap

/-- An answer to a create request leaves the books as they were, or records a
refusal after which the loop waits, except in a renewal. -/
private theorem create_refusal (s : State) (path : Path) (answer : Answer) :
    (create toLower path s answer).refusal = s.refusal ∨
      (refused toLower s answer = true ∧ (create toLower path s answer).refusal = some (s.now + answer.elapsed, path) ∧
        (path ≠ .renewal → ∃ next,
          (create toLower path s answer).pc = .waiting (s.now + answer.elapsed + 300 * second) next)) := by
  cases made : newSubscription s answer with
  | ok addr => exact .inl (by simp only [create, made])
  | error err =>
    by_cases full : (!s.cancelled && isSubscriptionCapError toLower err) = true
    · have told : refused toLower s answer = true := by simpa only [refused, made] using full
      have cap : isSubscriptionCapError toLower err = true := (Bool.and_eq_true_iff.mp full).2
      refine .inr ⟨told, ?_⟩
      simp only [create, made, full, if_true, pause_cap cap]
      cases path with
      | renewal => exact ⟨rfl, fun other => absurd rfl other⟩
      | initial | lost | reestablish => exact ⟨rfl, fun _ => ⟨_, rfl⟩⟩
    · simp only [create, made, full, Bool.false_eq_true, if_false]
      cases path <;> exact .inl rfl

/-- Every other statement leaves them as they were. -/
private theorem run_keeps {s : State} (other : ∀ path, s.pc ≠ .creating path) (answer : Answer) :
    (run toLower s answer).refusal = s.refusal ∧ (run toLower s answer).now = s.now + answer.elapsed := by
  cases here : s.pc with
  | creating path => exact absurd here (other path)
  | waiting until_ path =>
    simp only [run, here]
    split
    · exact ⟨rfl, rfl⟩
    · split <;> exact ⟨rfl, rfl⟩
  | checking =>
    simp only [run, here]
    split <;> exact ⟨rfl, rfl⟩
  | renewing =>
    simp only [run, here]
    split <;> exact ⟨rfl, rfl⟩
  | releasing lost => simp [run, here]
  | pulling =>
    simp only [run, here]
    split <;> exact ⟨rfl, rfl⟩
  | sleeping until_ =>
    simp only [run, here]
    split <;> exact ⟨rfl, rfl⟩
  | leaving | returned => simp [run, here]

/-- Only a refused create request is recorded. -/
private theorem run_refusal (s : State) (answer : Answer) :
    (run toLower s answer).refusal = s.refusal ∨ ∃ path, s.pc = .creating path ∧ refused toLower s answer = true ∧
      (run toLower s answer).refusal = some (s.now + answer.elapsed, path) ∧
      (path ≠ .renewal → ∃ next, (run toLower s answer).pc = .waiting (s.now + answer.elapsed + 300 * second) next) := by
  by_cases creating : ∃ path, s.pc = .creating path
  · obtain ⟨path, here⟩ := creating
    simp only [run, here]
    exact (create_refusal s path answer).imp_right fun told => ⟨path, rfl, told⟩
  · exact .inl (run_keeps (fun path here => creating ⟨path, here⟩) answer).1

/-- Every statement takes its time. -/
private theorem run_now (s : State) (answer : Answer) : (run toLower s answer).now = s.now + answer.elapsed := by
  by_cases creating : ∃ path, s.pc = .creating path
  · obtain ⟨path, here⟩ := creating
    simp only [run, here, create]
    split
    · rfl
    · cases path <;> rfl
  · exact (run_keeps (fun path here => creating ⟨path, here⟩) answer).2

/-- A wait ends when it is over, or in the end of the loop. -/
private theorem run_waiting {s : State} {until_ : Instant} {path : Path} (here : s.pc = .waiting until_ path)
    (answer : Answer) : until_ ≤ s.now + answer.elapsed ∨ (run toLower s answer).pc = .waiting until_ path ∨
      (run toLower s answer).pc = .leaving := by
  simp only [run, here]
  split
  · rename_i fired
    exact .inl fired.2
  · split
    · exact .inr (.inr rfl)
    · exact .inr (.inl rfl)

theorem run_waited {s : State} (waited : Waited s) (answer : Answer) : Waited (run toLower s answer) := by
  intro refusal recorded other
  unfold Quiet
  rw [run_now]
  rcases run_refusal s answer with same | ⟨path, here, _, told, waits⟩
  · rw [same] at recorded
    rcases waited refusal recorded other with past | ⟨until_, path, stage, due⟩ | stage | stage
    · exact .inl (Nat.le_trans past (Nat.le_add_right ..))
    · rcases run_waiting stage answer with elapsed | still | ending
      · exact .inl (Nat.le_trans due elapsed)
      · exact .inr (.inl ⟨until_, path, still, due⟩)
      · exact .inr (.inr (.inl ending))
    · exact .inr (.inr (.inr (by simp only [run, stage])))
    · exact .inr (.inr (.inr (by simp only [run, stage])))
  · rw [told] at recorded
    cases recorded
    obtain ⟨next, waiting⟩ := waits other
    exact .inr (.inl ⟨_, next, waiting, le_rfl⟩)

theorem step_waited (s : State) (move : Move) (waited : Waited s) : Waited (step toLower s move) := by
  cases move with
  | pass elapsed =>
    intro refusal recorded other
    rcases waited refusal recorded other with past | ⟨until_, path, stage, due⟩ | stage | stage
    · exact .inl (Nat.le_trans past (Nat.le_add_right ..))
    · exact .inr (.inl ⟨until_, path, stage, due⟩)
    · exact .inr (.inr (.inl stage))
    · exact .inr (.inr (.inr stage))
  | cancel | stop => exact waited
  | run answer => exact run_waited waited answer

/-- The camera was never full when a renewal had failed. -/
def RenewalsServed (s : State) : Prop := ∀ refusal ∈ s.refusal, refusal.2 ≠ .renewal

private theorem step_renewalsServed (s : State) (move : Move) (served : RenewalsServed s)
    (admitted : RenewalAdmitted toLower s move) : RenewalsServed (step toLower s move) := by
  cases move with
  | pass elapsed => exact served
  | cancel | stop => exact served
  | run answer =>
    intro refusal recorded renewal
    have recorded : refusal ∈ (run toLower s answer).refusal := recorded
    rcases run_refusal s answer with same | ⟨path, here, told, new, _⟩
    · rw [same] at recorded
      exact served refusal recorded renewal
    · rw [new] at recorded
      cases recorded
      have path_renewal : path = .renewal := renewal
      rw [admitted (by rw [here, path_renewal])] at told
      cases told

private theorem quiet_creating {s : State} {refused : Instant} (quiet : Quiet s refused) {path : Path}
    (here : s.pc = .creating path) : refused + 300 * second ≤ s.now := by
  rcases quiet with past | ⟨_, _, stage, _⟩ | stage | stage
  · exact past
  all_goals simp [here] at stage

private theorem creates_path {s : State} {move : Move} (creates : Creates s move) : ∃ path, s.pc = .creating path := by
  cases move with
  | run answer =>
    have stage : s.pc.creates = true := creates.2
    cases here : s.pc with
    | creating path => exact ⟨path, rfl⟩
    | _ => simp [Pc.creates, here] at stage
  | pass elapsed => exact creates.elim
  | cancel | stop => exact creates.elim

/-- Whatever the camera answers and however time passes, a create request that
goes out within five minutes of a refusal follows a refusal on the renewal path,
and none does in a run in which no renewal is refused so. -/
theorem backs_off_of_renewals_admitted (toLower : String → String) (moves : List Move) :
    Along (step toLower) (fun s move => Creates s move → ∀ refusal ∈ s.refusal, refusal.2 ≠ .renewal →
      refusal.1 + 300 * second ≤ s.now) {} moves ∧
    (Along (step toLower) (RenewalAdmitted toLower) {} moves → Along (step toLower) BacksOff {} moves) := by
  have start : Waited {} := nofun
  have always : Along (step toLower) (fun s _ => Waited s) {} moves :=
    along_of_throughout (throughout_of_invariant (fun s move held _ => step_waited s move held) moves _ start
      (along_trivial moves _))
  have blamed : Along (step toLower) (fun s move => Creates s move → ∀ refusal ∈ s.refusal, refusal.2 ≠ .renewal →
      refusal.1 + 300 * second ≤ s.now) {} moves := by
    refine along_mono (fun s move waited creates refusal recorded other => ?_) always
    obtain ⟨path, here⟩ := creates_path creates
    exact quiet_creating (waited refusal recorded other) here
  refine ⟨blamed, fun admitted => ?_⟩
  have served : Along (step toLower) (fun s _ => RenewalsServed s) {} moves :=
    along_of_throughout (throughout_of_invariant step_renewalsServed moves _ nofun admitted)
  refine along_mono (fun s move both creates refusal recorded => ?_) (along_and blamed served)
  exact both.1 creates refusal recorded (both.2 refusal recorded)

end BackOff

/-! ## Runs -/

private def lowerCase (text : String) : String := String.ofList (text.toList.map Char.toLower)

private def full : Answer := { created := .error "ONVIF error (HTTP 500): Maximum number of Subscribe reached" }

/-- The loop subscribes, and nine pulls fail one after the other. -/
private def nineErrors : List Move :=
  .run { created := .ok "sub-1" } ::
    (List.replicate 9 [.run {}, .run { failed := some "timeout" }, .run { elapsed := 2 * second }]).flatten

/-- The loop subscribes, and almost an hour later a renewal fails. -/
private def failedRenewal : List Move :=
  [.run { created := .ok "sub-1" }, .pass (3400 * second), .run {}, .run { failed := some "rejected" }, .run {}]

/-- The camera is full when the loop starts and has room five minutes later. -/
private def refusedStart : List Move := [.run full, .pass (300 * second), .run {}]

/-- The first create request is refused, and the one that renews the subscription is not. -/
theorem backs_off_admitted_renewal :
    Along (step lowerCase) BacksOff {} (refusedStart ++ failedRenewal ++ [.run { created := .ok "sub-2" }]) :=
  (backs_off_of_renewals_admitted lowerCase _).2 (by decide +kernel)

/-- The camera is full, one pull succeeds, the renewal fails again, and the next
create request goes out at once. -/
theorem backs_off_full_camera :
    ¬ Along (step lowerCase) BacksOff {}
      (failedRenewal ++ [.run full, .run {}, .run {}, .run { failed := some "rejected" }, .run {}, .run full]) := by
  decide +kernel

end Ironsight.PullLoop
