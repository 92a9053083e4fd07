import Ironsight.Footage
import Ironsight.Runs

/-! The link of an event to its footage. `InsertEvent` looks for a segment and inserts the
event with what it found; `InsertSegment` registers a segment once its file is closed.
The calls run side by side, and nothing looks at an event again. -/
namespace Ironsight.EventLinks
open Tables Runs Uuid Footage
open Access (Instant)

/-- The calls of the recorder and of the event sources. -/
inductive Request where
  | insertSegment (segment : Segment)
  /-- `details` is the JSON of the event, if there is one. -/
  | insertEvent (cameraID : UUID) (eventTime : Instant) (eventType : String) (details : Option String) (thumbnail : String)

/-- Where a call is. -/
inductive Call where
  | registering (segment : Segment)
  | looking (event : Event)
  | inserting (event : Event)
  | returned
  deriving DecidableEq

/-- What a statement meets: the number it draws, and how it fails. -/
structure Env where
  /-- The next number of the sequence. -/
  id : Nat := 0
  scan : Scan Segment := .inOrder
  fault : Option Fault := none

def begin : Request → Call
  | .insertSegment segment => .registering segment
  | .insertEvent _ _ _ none _ => .returned
  | .insertEvent cameraID eventTime eventType (some details) thumbnail =>
    .looking { cameraID, eventTime, eventType, details, thumbnail }

/-- What the query gives `InsertEvent`; an error is no segment. -/
def found (env : Env) (store : Store) (event : Event) : Option Segment :=
  if env.fault = none then coveringSegment env.scan store.segments event else none

/-- One statement. -/
def next (env : Env) (call : Call) (store : Store) : Call × Store :=
  match call with
  | .registering segment =>
    (.returned, if executes false env.fault then
      { store with segments := (insertSegment store.segments segment env.id).getD store.segments } else store)
  | .looking event => (.inserting { event with segmentID := (found env store event).map Segment.id }, store)
  | .inserting event =>
    (.returned, if executes false env.fault then { store with events := store.events ++ [{ event with id := env.id }] }
      else store)
  | .returned => (.returned, store)

/-- `InsertEvent` and `InsertSegment`, one statement at a time. -/
def program : Program Store Call Request Env := { start := begin, next }

abbrev Calls := Pool Store Call

/-- Before the first call. -/
def start : Calls := ⟨{ segments := .empty }, []⟩

/-- Every event of a registered segment of its camera is linked to such a segment. -/
def Linked (pool : Calls) : Prop :=
  ∀ event ∈ pool.shared.events, Covered pool.shared.segments event → Links pool.shared.segments event

instance (pool : Calls) : Decidable (Linked pool) := inferInstanceAs (Decidable (∀ event ∈ pool.shared.events, _))

/-- The event whose query was answered. -/
def Call.answered : Call → Option Event
  | .inserting event => some event
  | .registering _ | .looking _ | .returned => none

/-- The events that were looked up: those in the table and those on the way there. -/
def lookedUp (pool : Calls) : List Event := pool.shared.events ++ pool.threads.filterMap Call.answered

/-- A segment is registered before the events in it are looked up, unless another one of
theirs was; and no query fails that would find a segment. -/
def Timely (pool : Calls) (env : Env) : Call → Prop
  | .registering segment => executes false env.fault = true → insertSegment pool.shared.segments segment env.id ≠ none →
    ∀ event ∈ lookedUp pool, segment.covers event = true → Covered pool.shared.segments event
  | .looking event => env.fault ≠ none → ¬ Covered pool.shared.segments event
  | .inserting _ | .returned => True

instance (pool : Calls) (env : Env) : (call : Call) → Decidable (Timely pool env call)
  | .registering _ => inferInstanceAs (Decidable (_ → _ → ∀ event ∈ lookedUp pool, _))
  | .looking _ => inferInstanceAs (Decidable (_ → _))
  | .inserting _ | .returned => isTrue trivial

/-! ## Links -/

/-- The link of an event is what it can be: a segment of its footage, or nothing where
there is none. -/
def Right (segments : SegmentTable) (event : Event) : Prop :=
  Links segments event ∨ event.segmentID = none ∧ ¬ Covered segments event

/-- The links of all events that were looked up are right. -/
structure Sound (pool : Calls) : Prop where
  rows : ∀ event ∈ pool.shared.events, Right pool.shared.segments event
  waiting : ∀ call ∈ pool.threads, ∀ event ∈ call.answered, Right pool.shared.segments event

section Steps
variable {pool : Calls} {env : Env} {event : Event} {segment : Segment} {segments after : SegmentTable}

private theorem Sound.linked (sound : Sound pool) : Linked pool := by
  intro event member covered
  rcases sound.rows event member with links | ⟨_, uncovered⟩
  · exact links
  · exact absurd covered uncovered

private theorem sound_iff : Sound pool ↔ ∀ event ∈ lookedUp pool, Right pool.shared.segments event := by
  constructor
  · rintro ⟨rows, waiting⟩ event member
    rcases List.mem_append.mp member with row | call
    · exact rows event row
    · obtain ⟨call, running, answered⟩ := List.mem_filterMap.mp call
      exact waiting call running event answered
  · intro all
    exact ⟨fun event row => all event (List.mem_append_left _ row), fun call running event answered =>
      all event (List.mem_append_right _ (List.mem_filterMap.mpr ⟨call, running, answered⟩))⟩

/-- A new segment leaves a right link right, unless it is the first one of an event. -/
private theorem right_insertSegment {id : Nat} (inserted : insertSegment segments segment id = some after)
    (right : Right segments event) (timely : segment.covers event = true → Covered segments event) : Right after event := by
  rcases right with links | ⟨unlinked, uncovered⟩
  · exact .inl (links_insertSegment inserted links)
  · refine .inr ⟨unlinked, fun covered => ?_⟩
    rcases (covered_insertSegment inserted).mp covered with before | here
    · exact uncovered before
    · exact uncovered (timely here)

/-- What the query finds is the right link. -/
private theorem right_found (timely : env.fault ≠ none → ¬ Covered pool.shared.segments event) :
    Right pool.shared.segments { event with segmentID := (found env pool.shared event).map Segment.id } := by
  by_cases answered : env.fault = none
  · rw [found, if_pos answered]
    cases query : coveringSegment env.scan pool.shared.segments event with
    | none => exact .inr ⟨rfl, coveringSegment_eq_none.mp query⟩
    | some segment =>
      obtain ⟨member, covers⟩ := coveringSegment_some query
      exact .inl ⟨segment, member, covers, rfl⟩
  · rw [found, if_neg answered]
    exact .inr ⟨rfl, timely answered⟩

/-- A timely statement keeps all links right. -/
private theorem sound_run {call : Call} {index : Nat} (sound : Sound pool) (running : pool.threads[index]? = some call)
    (timely : Timely pool env call) :
    Sound ⟨(next env call pool.shared).2, pool.threads.set index (next env call pool.shared).1⟩ := by
  have member := List.mem_of_getElem? running
  cases call with
  | registering segment =>
    have right : ∀ event ∈ lookedUp pool, Right (next env (.registering segment) pool.shared).2.segments event := by
      intro event looked
      have before := sound_iff.mp sound event looked
      unfold next
      dsimp only
      split
      · rename_i executed
        cases inserted : insertSegment pool.shared.segments segment env.id with
        | none => exact before
        | some after => exact right_insertSegment inserted before (timely executed (by simp [inserted]) event looked)
      · exact before
    have same : (next env (.registering segment) pool.shared).2.events = pool.shared.events := by
      unfold next
      dsimp only
      split <;> rfl
    refine ⟨fun event row => right event (List.mem_append_left _ (same ▸ row)), ?_⟩
    refine forall_mem_set (fun call running event answered => ?_) (fun event answered => by cases answered)
    exact right event (List.mem_append_right _ (List.mem_filterMap.mpr ⟨call, running, answered⟩))
  | looking event =>
    refine ⟨sound.rows, forall_mem_set sound.waiting fun waiting answered => ?_⟩
    cases answered
    exact right_found timely
  | inserting event =>
    have right := sound.waiting _ member event rfl
    unfold next
    dsimp only
    refine ⟨?_, ?_⟩
    · split
      · exact forall_mem_append sound.rows right
      · exact sound.rows
    · split
      all_goals exact forall_mem_set sound.waiting fun waiting answered => by cases answered
  | returned => exact ⟨sound.rows, forall_mem_set sound.waiting fun waiting answered => by cases answered⟩

/-- An event without a link, of a segment that is registered, is on its way to the table. -/
private theorem unlinked_after_insert {index : Nat} (running : pool.threads[index]? = some (.inserting event))
    (covered : Covered pool.shared.segments event) (unlinked : event.segmentID = none) :
    ¬ Linked (program.step pool (.run index {})) := by
  intro linked
  rw [Program.step_run running] at linked
  obtain ⟨segment, _, _, link⟩ := linked { event with id := 0 } (List.mem_append_right _ List.mem_cons_self) covered
  rw [unlinked] at link
  cases link

/-- A right link to a segment there was none of is no link. -/
private theorem Right.unlinked (right : Right segments event) (uncovered : ¬ Covered segments event) :
    event.segmentID = none := by
  rcases right with ⟨segment, member, covers, _⟩ | ⟨unlinked, _⟩
  · exact absurd ⟨segment, member, covers⟩ uncovered
  · exact unlinked

/-- Nothing mends what an untimely statement does: at most one statement later the table
holds an event without its link. -/
theorem untimely_unlinks {move : Move Request Env} (sound : Sound pool) (untimely : ¬ OnStatement Timely pool move) :
    ∃ later, ¬ Linked (exec program.step (program.step pool move) later) := by
  cases move with
  | spawn request => exact absurd trivial untimely
  | run index env =>
    obtain ⟨call, running, late⟩ : ∃ call, pool.threads[index]? = some call ∧ ¬ Timely pool env call := by
      simpa [OnStatement] using untimely
    rw [Program.step_run running]
    obtain ⟨inside, _⟩ := List.getElem?_eq_some_iff.mp running
    cases call with
    | registering segment =>
      obtain ⟨executed, registered, event, looked, covers, uncovered⟩ : executes false env.fault = true ∧
          insertSegment pool.shared.segments segment env.id ≠ none ∧
          ∃ event ∈ lookedUp pool, segment.covers event = true ∧ ¬ Covered pool.shared.segments event := by
        simpa [Timely] using late
      obtain ⟨after, inserted⟩ := Option.ne_none_iff_exists'.mp registered
      have covered : Covered after event := (covered_insertSegment inserted).mpr (.inr covers)
      have unlinked := (sound_iff.mp sound event looked).unlinked uncovered
      have done : program.next env (.registering segment) pool.shared = (.returned, { pool.shared with segments := after }) := by
        simp [program, next, executed, inserted]
      rw [done]
      rcases List.mem_append.mp looked with row | waiting
      · refine ⟨[], fun linked => ?_⟩
        obtain ⟨other, _, _, link⟩ := linked event row covered
        rw [unlinked] at link
        cases link
      · obtain ⟨call, member, answered⟩ := List.mem_filterMap.mp waiting
        obtain ⟨j, there⟩ := List.mem_iff_getElem?.mp member
        have inserting : call = .inserting event := by
          cases call <;> cases answered
          rfl
        have elsewhere : index ≠ j := by
          rintro rfl
          rw [running, inserting] at there
          cases there
        refine ⟨[.run j {}], unlinked_after_insert ?_ covered unlinked⟩
        rw [List.getElem?_set_ne elsewhere, there, inserting]
    | looking event =>
      obtain ⟨failed, covered⟩ : env.fault ≠ none ∧ Covered pool.shared.segments event := by simpa [Timely] using late
      have nothing : found env pool.shared event = none := if_neg failed
      have covered : Covered pool.shared.segments { event with segmentID := none } := covered
      refine ⟨[.run index {}], unlinked_after_insert ?_ covered rfl⟩
      simp [program, next, nothing, inside]
    | inserting event => exact absurd trivial late
    | returned => exact absurd trivial late

end Steps

theorem sound_step (pool : Calls) (move : Move Request Env) (sound : Sound pool) (timely : OnStatement Timely pool move) :
    Sound (program.step pool move) := by
  cases move with
  | spawn request =>
    rw [Program.step_spawn]
    refine ⟨sound.rows, forall_mem_append sound.waiting fun event answered => ?_⟩
    rcases request with _ | ⟨_, _, _, _ | _, _⟩ <;> cases answered
  | run index env =>
    cases running : pool.threads[index]? with
    | none =>
      rw [Program.step_run_none running]
      exact sound
    | some call =>
      rw [Program.step_run running]
      exact sound_run sound running (timely call running)

/-- In every run in which each segment is registered before the events in it are looked
up, every event of a registered segment is linked to its footage, in every state. The
condition leaves nothing out: a statement that breaches it after such a run leaves an
event without its link, at most one statement later. -/
theorem events_linked (moves : List (Move Request Env)) (timely : Along program.step (OnStatement Timely) start moves) :
    Throughout program.step Linked start moves ∧
      ∀ move, ¬ OnStatement Timely (exec program.step start moves) move →
        ∃ later, ¬ Linked (exec program.step start (moves ++ move :: later)) := by
  have initial : Sound start := ⟨by rintro _ ⟨⟩, by rintro _ ⟨⟩⟩
  have sound := throughout_of_invariant sound_step moves start initial timely
  refine ⟨throughout_mono (fun _ sound => sound.linked) moves _ sound, fun move untimely => ?_⟩
  obtain ⟨later, unlinked⟩ := untimely_unlinks (throughout_last moves _ sound) untimely
  refine ⟨later, ?_⟩
  rw [exec_append, exec_cons]
  exact unlinked

/-- The minute from noon of 16 June 2025 on. -/
private def noon : Segment :=
  ⟨0, ⟨1⟩, 1750075200000000000, 1750075260000000000, "/recordings/cam-1/seg_20250616_120000.mp4", 5000000⟩

/-- Motion half a minute later. -/
private def motion : Request := .insertEvent ⟨1⟩ 1750075230000000000 "motion" (some "{}") ""

/-- An event that is reported when its segment is registered. -/
theorem linked_when_reported_late :
    Throughout program.step Linked start
      [.spawn (.insertSegment noon), .run 0 { id := 7 }, .spawn motion, .run 1 {}, .run 1 { id := 1 }] :=
  (events_linked _ (by decide +kernel)).1

/-- An event that is reported when it happens, while its segment is being recorded. -/
theorem live_event_unlinked :
    ¬ Throughout program.step Linked start
      [.spawn motion, .run 0 {}, .run 0 { id := 1 }, .spawn (.insertSegment noon), .run 1 { id := 7 }] := by
  decide +kernel

end Ironsight.EventLinks
