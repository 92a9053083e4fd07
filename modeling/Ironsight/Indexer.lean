import Ironsight.Footage
import Ironsight.RecoveryCodes
import Ironsight.ReviewQueue
import Ironsight.Runs

/-! The indexer, any number of workers over one queue. A worker takes the newest segment
with an event and without a description, looks at a frame and a clip of it, and writes
the description, or one that says why there is none. The claim is a query and the
result a later insert, so what the workers do together is judged over every interleaving
of their statements. -/
namespace Ironsight.Indexer
open Tables Runs Uuid Footage PpeWorker ReviewQueue
open Access (Instant)
open RecoveryCodes (trimSpace)

/-! ## Descriptions -/

/-- `ai.DescribeResult`, as far as it is read. `E` is an entity, which is only passed on;
the time is in whole milliseconds. -/
structure DescribeResult (E : Type) where
  description : String
  tags : List String
  activityLevel : String
  entities : List E
  inferenceMs : Int
  degraded : Bool

/-- A `describeRow`. -/
structure DescribeRow (F E : Type) [Float64 F] where
  description : ByteArray
  tags : List String
  activityLevel : String
  entities : List E := []
  detections : List (Detection F) := []
  analysisMs : Int := 0

/-- A row of `segment_descriptions`. -/
structure Description (F E : Type) [Float64 F] where
  segmentID : Nat
  cameraID : UUID
  description : String
  tags : List String
  activityLevel : String
  entities : List E
  detections : List (Detection F)
  indexerVersion : Nat
  analysisMs : Int

/-- The footage, with the descriptions of its segments. -/
structure Store (F E : Type) [Float64 F] extends Footage.Store where
  descriptions : Table (Description.segmentID (F := F) (E := E))

/-- What the file system, FFmpeg, the detector and the model answer about a segment. An
error is its text; of a clip the size is read. -/
structure Answers (F E : Type) [Float64 F] where
  stat : Option String := none
  extractFrame : Option String := none
  readFrame : Option String := none
  detectYOLO : Except String (List (Detection F) × Int)
  extractClip : Option String := none
  readClip : Except String Nat := .ok 1000
  describeVideo : Option (DescribeResult E) := none

section Pipeline
variable {F E : Type} [Float64 F] (toLower : String → String)

def yoloInterestingClasses : List String :=
  ["person", "bicycle", "car", "motorcycle", "bus", "truck", "dog", "cat", "horse", "backpack", "handbag", "suitcase"]

/-- `countInteresting`, from a confidence of 0.35 on. -/
def countInteresting (dets : List (Detection F)) : Nat :=
  dets.countP fun d => !Float64.less d.confidence.value (Float64.ofBits 0x3FD6666666666666) &&
    decide (d.class_ ∈ yoloInterestingClasses)

/-- `normalizeTags`: of at most thirty. -/
def normalizeTags (tags : List String) : List String :=
  (tags.foldl (fun out tag =>
    let tag := toLower (trimSpace tag)
    if tag = "" ∨ tag ∈ out then out else out ++ [tag]) []).take 30

/-- `normalizeActivity`, which returns the text untrimmed. -/
def normalizeActivity (activity : String) : String :=
  if toLower (trimSpace activity) ∈ ["none", "low", "moderate", "high"] then toLower activity else "unknown"

/-- `index` up to its insert. -/
def describe (answers : Answers F E) : Except String (DescribeRow F E) :=
  match answers.stat, answers.extractFrame, answers.readFrame, answers.detectYOLO with
  | some err, _, _, _ => .error ("segment file missing: " ++ err)
  | none, some err, _, _ => .error ("extract frame: " ++ err)
  | none, none, some err, _ => .error ("read frame: " ++ err)
  | none, none, none, .error err => .error ("yolo: " ++ err)
  | none, none, none, .ok (detections, yoloMs) =>
    if countInteresting detections < 1 then
      .ok { description := "Empty scene, no activity.".toUTF8, tags := ["empty"], activityLevel := "none", detections
            analysisMs := yoloMs }
    else match answers.extractClip, answers.readClip, answers.describeVideo with
      | some err, _, _ => .error ("extract clip: " ++ err)
      | none, .error err, _ => .error ("read clip: " ++ err)
      | none, .ok size, res =>
        if size < 1000 then
          .ok { description := "Recording gap — no decodable video.".toUTF8, tags := ["gap"], activityLevel := "none"
                detections, analysisMs := yoloMs }
        else match res with
          | none => .error "qwen describe returned nil"
          | some res =>
            let description := (trimSpace res.description).toUTF8
            let analysisMs := res.inferenceMs + yoloMs
            if res.degraded then
              .ok { description, tags := ["indexer-degraded"], activityLevel := "unknown", entities := res.entities
                    detections, analysisMs }
            else
              .ok { description, tags := normalizeTags toLower res.tags
                    activityLevel := normalizeActivity toLower res.activityLevel, entities := res.entities
                    detections, analysisMs }

end Pipeline

section Statements
variable {F E : Type} [Float64 F]

/-- Every text of the row is taken by the database; JSON always is. -/
def DescribeRow.Storable (row : DescribeRow F E) : Prop :=
  Accepted row.description ∧ (∀ tag ∈ row.tags, Accepted tag.toUTF8) ∧ Accepted row.activityLevel.toUTF8

instance (row : DescribeRow F E) : Decidable row.Storable := inferInstanceAs (Decidable (_ ∧ _ ∧ _))

/-- `insertDescription`: a second row of a segment is no row; `none` is an error. -/
def insertDescription (descriptions : Table (Description.segmentID (F := F) (E := E))) (seg : Segment)
    (row : DescribeRow F E) : Option (Table (Description.segmentID (F := F) (E := E))) :=
  if storable : row.Storable then
    some ((descriptions.insert? {
      segmentID := seg.id, cameraID := seg.cameraID, description := String.ofByteArray row.description storable.1.1
      tags := row.tags, activityLevel := row.activityLevel, entities := row.entities, detections := row.detections
      indexerVersion := 1, analysisMs := row.analysisMs }).getD descriptions)
  else none

/-- At most 200 bytes of an error, cut where it is. -/
def cutMessage (msg : String) : ByteArray :=
  if 200 < msg.utf8ByteSize then msg.toUTF8.extract 0 200 else msg.toUTF8

/-- The row that `recordFailed` inserts. -/
def failedRow (cause : String) : DescribeRow F E where
  description := "Indexing failed: ".toUTF8 ++ cutMessage cause
  tags := ["indexer-failed"]
  activityLevel := "unknown"

/-- `claimNextSegment`: the newest closed segment with an event and no description. -/
def claimNextSegment (minSegmentAge : Instant) (scan : Scan Segment) (now : Instant) (store : Store F E) : Option Segment :=
  newest Segment.startTime ((scan.arrange store.segments.rows).filter fun s =>
    (store.descriptions.find? s.id).isNone && decide (s.endTime ≤ now - minSegmentAge) && decide (1000000 < s.fileSize) &&
      store.events.any fun e => e.segmentID = some s.id)

end Statements

/-! ## Workers -/

/-- Where a worker is. -/
inductive Pc where
  | claiming
  | indexing (seg : Segment)
  | failing (seg : Segment) (cause : String)
  | exited
  | crashed
  deriving DecidableEq

/-- A worker, and the segment of its last iteration that was not cancelled. -/
structure Worker where
  pc : Pc := .claiming
  cancelled : Bool := false
  last : Option Segment := none
  deriving DecidableEq

/-- A worker, or a call that brings the queue a segment or an event. -/
inductive Thread where
  | worker (w : Worker)
  | registering (segment : Segment)
  | recording (event : Event)
  | returned
  deriving DecidableEq

/-- A worker starts, or a segment is registered. -/
inductive Request where
  | start
  | segment (segment : Segment)
  | event (event : Event)

/-- What a step meets outside. -/
structure Env (F E : Type) [Float64 F] where
  signal : Option Signal := none
  now : Instant := 0
  scan : Scan Segment := .inOrder
  /-- Why the claim fails. -/
  fault : Option String := none
  answers : Answers F E := { detectYOLO := .ok ([], 0) }
  /-- The text of the database's refusal of a row. -/
  rejection : String := "ERROR: invalid byte sequence for encoding \"UTF8\": 0x00 (SQLSTATE 22021)"

section Steps
variable {F E : Type} [Float64 F] (toLower : String → String) (minSegmentAge : Instant)

def Worker.next (env : Env F E) (w : Worker) (store : Store F E) : Worker × Store F E :=
  match w.pc with
  | .claiming =>
    if w.cancelled then ({ w with pc := .exited }, store)
    else match env.fault, claimNextSegment minSegmentAge env.scan env.now store with
      | some _, _ | none, none => (w, store)
      | none, some seg => ({ w with pc := .indexing seg }, store)
  | .indexing seg =>
    match describe toLower env.answers with
    | .error cause => ({ w with pc := .failing seg cause }, store)
    | .ok row =>
      if w.cancelled then ({ w with pc := .failing seg "context canceled" }, store)
      else match insertDescription store.descriptions seg row with
        | none => ({ w with pc := .failing seg env.rejection }, store)
        | some descriptions => ({ w with pc := .claiming, last := some seg }, { store with descriptions })
  | .failing seg cause =>
    -- the error of this insert is ignored
    if w.cancelled then ({ w with pc := .claiming }, store)
    else ({ w with pc := .claiming, last := some seg },
      { store with descriptions := (insertDescription store.descriptions seg (failedRow cause)).getD store.descriptions })
  | .exited | .crashed => (w, store)

def next (env : Env F E) (thread : Thread) (store : Store F E) : Thread × Store F E :=
  match thread with
  | .worker w =>
    match env.signal with
    | some .kill => (.worker { w with pc := .crashed }, store)
    | some .shutdown => (.worker { w with cancelled := true }, store)
    | none =>
      let after := w.next toLower minSegmentAge env store
      (.worker after.1, after.2)
  | .registering segment => (.returned, { store with segments := (store.segments.insert? segment).getD store.segments })
  | .recording event => (.returned, { store with events := store.events ++ [event] })
  | .returned => (.returned, store)

/-- Workers and registrations, one statement at a time. -/
def program : Program (Store F E) Thread Request (Env F E) where
  start
    | .start => .worker {}
    | .segment segment => .registering segment
    | .event event => .recording event
  next := next toLower minSegmentAge

end Steps

/-! ## Division and progress -/

def Pc.claimed : Pc → Option Nat
  | .indexing seg | .failing seg _ => some seg.id
  | .claiming | .exited | .crashed => none

/-- The segment that a worker is at. -/
def Thread.claimed : Thread → Option Nat
  | .worker w => w.pc.claimed
  | .registering _ | .recording _ | .returned => none

/-- The segment of the last iteration that was not cancelled. -/
def Thread.last : Thread → Option Segment
  | .worker w => w.last
  | .registering _ | .recording _ | .returned => none

section Properties
variable {F E : Type} [Float64 F]

/-- No two workers are at one segment, and each iteration has left a description. -/
structure Progress (pool : Pool (Store F E) Thread) : Prop where
  divided : Distinct Thread.claimed pool.threads
  recorded : ∀ thread ∈ pool.threads, ∀ seg ∈ thread.last, pool.shared.descriptions.find? seg.id ≠ none

/-- The error text can be stored when it is cut: no character straddles the cut, and no
NUL is before it. -/
def Fits (cause : String) : Prop :=
  (cause.utf8ByteSize ≤ 200 ∨ (String.Pos.Raw.mk 200).IsValid cause) ∧ (0 : UInt8) ∉ (cause.toByteArray.extract 0 200).data.toList

/-- A claim answers a segment that no other worker is at, and a failure is recorded with
a text that can be stored. -/
def ClaimsUnheld (minSegmentAge : Instant) (pool : Pool (Store F E) Thread) (env : Env F E) : Thread → Prop
  | .worker w => env.signal = none → w.cancelled = false → match w.pc with
    | .claiming => env.fault = none → ∀ seg ∈ claimNextSegment minSegmentAge env.scan env.now pool.shared,
        ∀ other ∈ pool.threads, other.claimed ≠ some seg.id
    | .failing _ cause => Fits cause
    | .indexing _ | .exited | .crashed => True
  | .registering _ | .recording _ | .returned => True

/-- Before the first worker starts. -/
def start (store : Store F E) : Pool (Store F E) Thread := ⟨store, []⟩

end Properties

section Rows
variable {F E : Type} [Float64 F] {descriptions after : Table (Description.segmentID (F := F) (E := E))} {seg : Segment}
  {row : DescribeRow F E}

/-- A failure is recorded exactly if its text can be. -/
private theorem storable_failedRow (cause : String) : (failedRow cause : DescribeRow F E).Storable ↔ Fits cause := by
  have texts : (∀ tag ∈ ["indexer-failed"], Accepted tag.toUTF8) ∧ Accepted "unknown".toUTF8 := by decide
  rw [DescribeRow.Storable, failedRow, and_iff_left texts, accepted_append (by decide), cutMessage, Fits]
  by_cases long : 200 < cause.utf8ByteSize
  · rw [if_pos long, accepted_extract_iff long.le]
    simp only [Nat.not_le.mpr long, false_or]
  · have short := Nat.le_of_not_lt long
    rw [if_neg long, accepted_toUTF8, extract_whole short]
    exact (and_iff_right (.inl short)).symm

private theorem insertDescription_eq_none : insertDescription descriptions seg row = none ↔ ¬ row.Storable := by
  unfold insertDescription
  split
  · rename_i storable
    exact iff_of_false (by simp) (not_not.mpr storable)
  · rename_i refused
    exact iff_of_true rfl refused

private theorem storable_of_insertDescription (done : insertDescription descriptions seg row = some after) :
    row.Storable := by
  by_contra refused
  rw [insertDescription_eq_none.mpr refused] at done
  cases done

/-- The segment has a description then, and the others what they had. -/
private theorem find?_insertDescription (done : insertDescription descriptions seg row = some after) :
    after.find? seg.id ≠ none ∧ ∀ id, id ≠ seg.id → after.find? id = descriptions.find? id := by
  unfold insertDescription at done
  split at done
  · cases done
    exact Table.find?_getD_insert? descriptions _
  · cases done

private theorem claimNextSegment_undescribed {minSegmentAge : Instant} {scan : Scan Segment} {now : Instant} {store : Store F E}
    (found : claimNextSegment minSegmentAge scan now store = some seg) : store.descriptions.find? seg.id = none := by
  have chosen := (List.mem_filter.mp (newest_some found).1).2
  simp only [Bool.and_eq_true] at chosen
  exact Option.isNone_iff_eq_none.mp chosen.1.1.1

end Rows

section Moves
variable {F E : Type} [Float64 F] {pool : Pool (Store F E) Thread} {index : Nat} {thread : Thread} {seg : Segment}

/-- Division and progress, and that no worker is at a segment with a description. -/
structure Sound (pool : Pool (Store F E) Thread) : Prop where
  progress : Progress pool
  undescribed : ∀ thread ∈ pool.threads, ∀ id ∈ thread.claimed, pool.shared.descriptions.find? id = none

/-- A thread that writes no description and claims nothing new changes nothing. -/
private theorem sound_quiet (after : Thread) (store : Store F E) (sound : Sound pool) (running : pool.threads[index]? = some thread)
    (same : store.descriptions = pool.shared.descriptions) (last : after.last = thread.last)
    (claimed : after.claimed = none ∨ after.claimed = thread.claimed) : Sound ⟨store, pool.threads.set index after⟩ := by
  have member := List.mem_of_getElem? running
  refine ⟨⟨sound.progress.divided.set running fun id holds => ?_, ?_⟩, ?_⟩
  · rcases claimed with none_ | kept
    · rw [none_] at holds
      cases holds
    · exact .inl (kept ▸ holds)
  · rw [same]
    exact forall_mem_set sound.progress.recorded (last ▸ sound.progress.recorded thread member)
  · rw [same]
    refine forall_mem_set sound.undescribed fun id holds => ?_
    rcases claimed with none_ | kept
    · rw [none_] at holds
      cases holds
    · exact sound.undescribed thread member id (kept ▸ holds)

/-- A worker that has described its segment. -/
private theorem sound_described {row : DescribeRow F E} {descriptions : Table (Description.segmentID (F := F) (E := E))}
    (after : Thread) (sound : Sound pool) (running : pool.threads[index]? = some thread) (holds : thread.claimed = some seg.id)
    (done : insertDescription pool.shared.descriptions seg row = some descriptions)
    (free : after.claimed = none) (last : after.last = some seg) :
    Sound ⟨{ pool.shared with descriptions }, pool.threads.set index after⟩ := by
  obtain ⟨here, elsewhere⟩ := find?_insertDescription done
  refine ⟨⟨sound.progress.divided.set running fun id claims => ?_, ?_⟩, ?_⟩
  · rw [free] at claims
    cases claims
  · intro current member other earlier
    rcases List.mem_or_eq_of_mem_set member with old | rfl
    · by_cases same : other.id = seg.id
      · rw [same]
        exact here
      · rw [elsewhere other.id same]
        exact sound.progress.recorded current old other earlier
    · rw [last] at earlier
      cases earlier
      exact here
  · intro current member id claims
    rcases mem_set_cases member with rfl | ⟨j, apart, found⟩
    · rw [free] at claims
      cases claims
    · have other : id ≠ seg.id := by
        rintro rfl
        exact apart (sound.progress.divided j index current thread seg.id found running claims holds)
      rw [elsewhere id other]
      exact sound.undescribed current (List.mem_of_getElem? found) id claims

/-- A worker that claims a segment keeps the division exactly if nobody is at it. -/
private theorem sound_claimed (after : Thread) (sound : Sound pool) (running : pool.threads[index]? = some thread) (free : thread.claimed = none)
    (undescribed : pool.shared.descriptions.find? seg.id = none) (claims : after.claimed = some seg.id)
    (last : after.last = thread.last) :
    (Progress ⟨pool.shared, pool.threads.set index after⟩ ↔ ∀ other ∈ pool.threads, other.claimed ≠ some seg.id) ∧
      (Progress ⟨pool.shared, pool.threads.set index after⟩ → Sound ⟨pool.shared, pool.threads.set index after⟩) := by
  obtain ⟨inside, _⟩ := List.getElem?_eq_some_iff.mp running
  refine ⟨⟨fun progress other member holds => ?_, fun alone => ⟨?_, ?_⟩⟩, fun progress => ⟨progress, ?_⟩⟩
  · obtain ⟨j, found⟩ := List.mem_iff_getElem?.mp member
    have apart : index ≠ j := by
      rintro rfl
      rw [running] at found
      cases found
      rw [free] at holds
      cases holds
    have there : (pool.threads.set index after)[j]? = some other := by rw [List.getElem?_set_ne apart, found]
    have here : (pool.threads.set index after)[index]? = some after := by simp [inside]
    exact apart (progress.divided index j after other seg.id here there claims holds)
  · refine sound.progress.divided.set running fun id holds => .inr ?_
    rw [claims] at holds
    cases holds
    exact alone
  · exact forall_mem_set sound.progress.recorded (last ▸ sound.progress.recorded thread (List.mem_of_getElem? running))
  · refine forall_mem_set sound.undescribed fun id holds => ?_
    rw [claims] at holds
    cases holds
    exact undescribed

/-- A failure that cannot be recorded leaves no description. -/
private theorem unrecorded (after : Thread) (sound : Sound pool) (running : pool.threads[index]? = some thread)
    (holds : thread.claimed = some seg.id) (last : after.last = some seg) :
    ¬ Progress ⟨pool.shared, pool.threads.set index after⟩ := by
  obtain ⟨inside, _⟩ := List.getElem?_eq_some_iff.mp running
  have here : after ∈ pool.threads.set index after := List.mem_set inside after
  intro progress
  exact progress.recorded after here seg last (sound.undescribed thread (List.mem_of_getElem? running) seg.id holds)

variable {toLower : String → String} {minSegmentAge : Instant} {env : Env F E} {w : Worker}

/-- Division and progress go on in this pool exactly under this condition, and then soundly. -/
private structure Exact (after : Pool (Store F E) Thread) (careful : Prop) : Prop where
  goesOn : Progress after ↔ careful
  soundly : careful → Sound after

private theorem Sound.exact {after : Pool (Store F E) Thread} {careful : Prop} (sound : Sound after) (meets : careful) :
    Exact after careful :=
  ⟨iff_of_true sound.progress meets, fun _ => sound⟩

/-- The pool after a statement of the worker. -/
private def ran (toLower : String → String) (minSegmentAge : Instant) (env : Env F E) (pool : Pool (Store F E) Thread)
    (index : Nat) (w : Worker) : Pool (Store F E) Thread :=
  ⟨(w.next toLower minSegmentAge env pool.shared).2,
    pool.threads.set index (.worker (w.next toLower minSegmentAge env pool.shared).1)⟩

/-- A statement that ends at the same segment, or at none, and describes nothing. -/
private theorem idle_exact {careful : Prop} {after : Worker} {store : Store F E} (sound : Sound pool)
    (running : pool.threads[index]? = some (.worker w))
    (same : store.descriptions = pool.shared.descriptions) (last : after.last = w.last)
    (claimed : after.pc.claimed = none ∨ after.pc.claimed = w.pc.claimed) (meets : careful) :
    Exact ⟨store, pool.threads.set index (.worker after)⟩ careful :=
  (sound_quiet (.worker after) store sound running same last claimed).exact meets

private theorem claiming_exact (sound : Sound pool) (running : pool.threads[index]? = some (.worker w))
    (quiet : env.signal = none) (at_ : w.pc = .claiming) :
    Exact (ran toLower minSegmentAge env pool index w) (ClaimsUnheld minSegmentAge pool env (.worker w)) := by
  simp only [ran, Worker.next, at_]
  by_cases cancelled : w.cancelled = true
  · simp only [if_pos cancelled]
    exact idle_exact sound running rfl rfl (.inl rfl) (by simp [ClaimsUnheld, cancelled])
  · simp only [if_neg cancelled]
    cases fault : env.fault with
    | some err => exact idle_exact sound running rfl rfl (.inr rfl) (by simp [ClaimsUnheld, at_, fault])
    | none =>
      cases found : claimNextSegment minSegmentAge env.scan env.now pool.shared with
      | none => exact idle_exact sound running rfl rfl (.inr rfl) (by simp [ClaimsUnheld, at_, found])
      | some seg =>
        have careful : ClaimsUnheld minSegmentAge pool env (.worker w) ↔
            ∀ other ∈ pool.threads, other.claimed ≠ some seg.id := by
          simp [ClaimsUnheld, at_, found, quiet, cancelled, fault]
        have claimed := sound_claimed (.worker { w with pc := .indexing seg }) sound running
          (by simp [Thread.claimed, at_, Pc.claimed]) (claimNextSegment_undescribed found) rfl rfl
        exact ⟨claimed.1.trans careful.symm, fun alone => claimed.2 (claimed.1.mpr (careful.mp alone))⟩

private theorem indexing_exact (sound : Sound pool) (running : pool.threads[index]? = some (.worker w))
    (at_ : w.pc = .indexing seg) :
    Exact (ran toLower minSegmentAge env pool index w) (ClaimsUnheld minSegmentAge pool env (.worker w)) := by
  have careful : ClaimsUnheld minSegmentAge pool env (.worker w) := by simp [ClaimsUnheld, at_]
  have holds : w.pc.claimed = some seg.id := by rw [at_]; rfl
  simp only [ran, Worker.next, at_]
  cases answered : describe toLower env.answers with
  | error cause => exact idle_exact sound running rfl rfl (.inr holds.symm) careful
  | ok row =>
    by_cases cancelled : w.cancelled = true
    · simp only [if_pos cancelled]
      exact idle_exact sound running rfl rfl (.inr holds.symm) careful
    · simp only [if_neg cancelled]
      cases done : insertDescription pool.shared.descriptions seg row with
      | none => exact idle_exact sound running rfl rfl (.inr holds.symm) careful
      | some descriptions =>
        have kept : Sound _ := sound_described (.worker { w with pc := .claiming, last := some seg })
          sound running holds done rfl rfl
        exact kept.exact careful

private theorem failing_exact {cause : String} (sound : Sound pool) (running : pool.threads[index]? = some (.worker w))
    (quiet : env.signal = none) (at_ : w.pc = .failing seg cause) :
    Exact (ran toLower minSegmentAge env pool index w) (ClaimsUnheld minSegmentAge pool env (.worker w)) := by
  have holds : w.pc.claimed = some seg.id := by rw [at_]; rfl
  simp only [ran, Worker.next, at_]
  by_cases cancelled : w.cancelled = true
  · simp only [if_pos cancelled]
    exact idle_exact sound running rfl rfl (.inl rfl) (by simp [ClaimsUnheld, cancelled])
  · simp only [if_neg cancelled]
    have careful : ClaimsUnheld minSegmentAge pool env (.worker w) ↔ Fits cause := by
      simp [ClaimsUnheld, at_, quiet, cancelled]
    cases done : insertDescription pool.shared.descriptions seg (failedRow cause) with
    | none =>
      have refused : ¬ Fits cause := (storable_failedRow cause).not.mp (insertDescription_eq_none.mp done)
      have lost := unrecorded (.worker { w with pc := .claiming, last := some seg }) sound running holds rfl
      exact ⟨iff_of_false lost (careful.not.mpr refused), fun fits => absurd (careful.mp fits) refused⟩
    | some descriptions =>
      have fits : Fits cause := (storable_failedRow cause).mp (storable_of_insertDescription done)
      have kept : Sound _ := sound_described (.worker { w with pc := .claiming, last := some seg })
        sound running holds done rfl rfl
      exact kept.exact (careful.mpr fits)

/-- One statement of a worker: division and progress go on exactly if it is careful. -/
private theorem worker_exact (sound : Sound pool) (running : pool.threads[index]? = some (.worker w)) (quiet : env.signal = none) :
    Exact (ran toLower minSegmentAge env pool index w) (ClaimsUnheld minSegmentAge pool env (.worker w)) := by
  cases at_ : w.pc with
  | claiming => exact claiming_exact sound running quiet at_
  | indexing seg => exact indexing_exact sound running at_
  | failing seg cause => exact failing_exact sound running quiet at_
  | exited | crashed =>
    simp only [ran, Worker.next, at_]
    exact idle_exact sound running rfl rfl (.inr rfl) (by simp [ClaimsUnheld, at_])

/-- What a move does to division and progress. -/
private theorem step_exact (sound : Sound pool) (move : Move Request (Env F E)) :
    Exact ((program toLower minSegmentAge).step pool move) (OnStatement (ClaimsUnheld minSegmentAge) pool move) := by
  cases move with
  | spawn request =>
    have kept : Sound ((program toLower minSegmentAge).step pool (.spawn request)) := by
      rw [Program.step_spawn]
      cases request
      all_goals
        refine ⟨⟨sound.progress.divided.append rfl, forall_mem_append sound.progress.recorded ?_⟩,
          forall_mem_append sound.undescribed ?_⟩
        · rintro _ ⟨⟩
        · rintro _ ⟨⟩
    exact kept.exact trivial
  | run index env =>
    cases running : pool.threads[index]? with
    | none =>
      rw [Program.step_run_none running]
      exact sound.exact (by simp [OnStatement, running])
    | some thread =>
      have judged : OnStatement (ClaimsUnheld minSegmentAge) pool (.run index env : Move Request (Env F E)) ↔
          ClaimsUnheld minSegmentAge pool env thread := by simp [OnStatement, running]
      rw [Program.step_run running, judged]
      cases thread with
      | worker w =>
        cases signal : env.signal with
        | some signal_ =>
          have kept : Sound ⟨(next toLower minSegmentAge env (.worker w) pool.shared).2,
              pool.threads.set index (next toLower minSegmentAge env (.worker w) pool.shared).1⟩ := by
            unfold next
            cases signal_
            all_goals simp only [signal]
            · exact sound_quiet _ _ sound running rfl rfl (.inr rfl)
            · exact sound_quiet _ _ sound running rfl rfl (.inl rfl)
          exact kept.exact (by simp [ClaimsUnheld, signal])
        | none =>
          have same : (program toLower minSegmentAge).next env (.worker w) pool.shared =
              (.worker (w.next toLower minSegmentAge env pool.shared).1, (w.next toLower minSegmentAge env pool.shared).2) := by
            simp [program, next, signal]
          rw [same]
          exact worker_exact sound running signal
      | registering segment =>
        have kept := sound_quiet .returned
          { pool.shared with segments := (pool.shared.segments.insert? segment).getD pool.shared.segments }
          sound running rfl rfl (.inr rfl)
        exact kept.exact trivial
      | recording event =>
        have kept := sound_quiet .returned { pool.shared with events := pool.shared.events ++ [event] }
          sound running rfl rfl (.inr rfl)
        exact kept.exact trivial
      | returned =>
        have kept := sound_quiet .returned pool.shared sound running rfl rfl (.inr rfl)
        exact kept.exact trivial

/-- Over every interleaving of any number of workers, whatever the file system, the
detector and the model answer, the workers divide the segments and describe each one they
take exactly if no claim answers a segment that another worker is at and every failure
has a text that can be stored. -/
theorem divided_and_described_iff (toLower : String → String) (minSegmentAge : Instant) (store : Store F E)
    (moves : List (Move Request (Env F E))) :
    Throughout (program toLower minSegmentAge).step Progress (start store) moves ↔
      Along (program toLower minSegmentAge).step (OnStatement (ClaimsUnheld minSegmentAge)) (start store) moves := by
  have nobody : Distinct Thread.claimed (start store).threads := fun i j first second k left => by cases left
  have initial : Sound (start store) := ⟨⟨nobody, by rintro _ ⟨⟩⟩, by rintro _ ⟨⟩⟩
  exact throughout_iff_along_of (fun _ move sound _ _ careful => (step_exact sound move).2 careful)
    (fun _ move sound _ _ => (step_exact sound move).1) moves _ initial initial.progress (along_trivial moves _)

end Moves

/-! ## Two runs over one segment -/

/-- Six megabytes of camera 1 with an event. -/
private def queue : Store ℚ Unit where
  segments := ⟨[⟨7, ⟨1⟩, 0, 60000000000, "/recordings/cam-1/seg_20250616_120000.mp4", 6000000⟩], by decide⟩
  events := [{ id := 1, cameraID := ⟨1⟩, eventTime := 30000000000, eventType := "motion", segmentID := some 7 }]
  descriptions := .empty

private def letters (n : Nat) : List Char := 'y' :: 'o' :: 'l' :: 'o' :: ':' :: ' ' :: List.replicate n 'a'

private theorem letters_size (n : Nat) : (letters n).utf8Encode.size = n + 6 := by
  induction n with
  | zero => decide
  | succ n ih =>
    have longer : letters (n + 1) = letters n ++ ['a'] := by
      rw [letters, letters, List.replicate_succ']
      rfl
    have one : ['a'].utf8Encode.size = 1 := by decide
    rw [longer, List.utf8Encode_append, ByteArray.size_append, ih, one]

/-- 201 bytes, of which the last two are one character. -/
private def verbose : String := String.ofList (letters 193 ++ ['é'])

private theorem verbose_cut : ¬ Fits verbose := by
  have size : verbose.utf8ByteSize = 201 := by
    show verbose.toByteArray.size = 201
    rw [verbose, String.toByteArray_ofList, List.utf8Encode_append, ByteArray.size_append, letters_size]
    decide
  rintro ⟨short | boundary, _⟩
  · omega
  · have inside : ¬ (String.Pos.Raw.mk ((letters 193).utf8Encode.size + 1)).IsValid verbose := not_isValid_inside (by decide)
    rw [letters_size] at inside
    exact inside boundary

/-- The detector fails with a text whose last letter is an é. -/
private def refusing : Env ℚ Unit where
  now := 600000000000
  answers := { detectYOLO := .error (String.ofList (List.replicate 193 'a' ++ ['é'])) }

/-- A worker that claims the segment and has the error. -/
private def toFailure : List (Move Request (Env ℚ Unit)) := [.spawn .start, .run 0 refusing, .run 0 refusing]

private def failed : Thread :=
  .worker { pc := .failing ⟨7, ⟨1⟩, 0, 60000000000, "/recordings/cam-1/seg_20250616_120000.mp4", 6000000⟩ verbose }

private theorem yolo_letters (n : Nat) :
    "yolo: " ++ String.ofList (List.replicate n 'a' ++ ['é']) = String.ofList (letters n ++ ['é']) := by
  rw [← String.toList_inj, String.toList_append, String.toList_ofList, String.toList_ofList, String.toList_ofList]
  rfl

/-- The worker has the error and is about to record it. -/
private theorem about_to_record :
    exec (program String.toLower 90000000000).step (start queue) toFailure = ⟨queue, [failed]⟩ := by
  rw [failed, verbose, ← yolo_letters]
  rfl

/-- One worker whose failure is cut inside the é, and two workers that claim the segment
one after the other. -/
theorem segment_claimed_again :
    ¬ Throughout (program String.toLower 90000000000).step Progress (start queue)
      (toFailure ++ [.run 0 refusing]) ∧
    ¬ Throughout (program String.toLower 90000000000).step Progress (start queue)
      [.spawn .start, .spawn .start, .run 0 refusing, .run 1 refusing] := by
  constructor
  · intro held
    have before : Progress ⟨queue, [failed]⟩ := about_to_record ▸ throughout_at toFailure held
    have sound : Sound ⟨queue, [failed]⟩ := by
      refine ⟨before, fun thread member id holds => ?_⟩
      rw [List.mem_singleton.mp member] at holds
      cases holds
      rfl
    have after := throughout_last (toFailure ++ [.run 0 refusing]) _ held
    rw [exec_append, about_to_record, exec_cons, exec_nil] at after
    have careful : OnStatement (ClaimsUnheld 90000000000) ⟨queue, [failed]⟩ (.run 0 refusing) := (step_exact sound _).1.mp after
    exact verbose_cut (careful failed rfl rfl rfl)
  · intro held
    have final := throughout_last _ _ held
    have same := final.divided 0 1 _ _ 7 rfl rfl (by decide +kernel) (by decide +kernel)
    cases same

end Ironsight.Indexer
