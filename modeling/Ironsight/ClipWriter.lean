import Mathlib.Data.List.Sort
import Ironsight.Access
import Ironsight.Runs
import Ironsight.SegmentNames
import Ironsight.SegmentWatch

/-! The clip writer of a camera in event mode. FFmpeg keeps a ring of short
files; an event starts a clip or extends the one being recorded, a goroutine
waits for the end of its post-buffer and copies the files of its window, and a
cleaner removes what is older than any pre-buffer.

The mutex makes one statement of each critical section. Everything between two
of them is open to the other goroutines. -/
namespace Ironsight.ClipWriter
open Tables Uuid Access SegmentNames
open SegmentWatch (second)

/-! ## The ring and the clips -/

/-- An entry of the ring directory. -/
structure RingFile where
  name : String
  isDir : Bool := false
  size : Nat := 0
  deriving DecidableEq

abbrev Ring := Table RingFile.name

/-- The settings of a `ClipWriter`; `stamp` formats a time as `20060102_150405` in
the zone of the host. -/
structure Config where
  cameraID : UUID
  outputDir : String
  preBufferSec : Int
  postBufferSec : Int
  stamp : Instant → String

/-- The arguments of `writeClip`. -/
structure Clip where
  clipStart : Instant
  eventTime : Instant
  eventType : String
  deriving DecidableEq

/-- A row of `segments` that stands for a clip. -/
structure Segment where
  cameraID : UUID
  startTime : Instant
  endTime : Instant
  filePath : String
  fileSize : Nat
  durationMs : Int
  deriving DecidableEq

/-- Both buffer walks skip directories, other files and names without a time. -/
def RingFile.time? (file : RingFile) : Option Instant :=
  if file.isDir ∨ ¬ ".mp4".toList.isSuffixOf file.name.toList then none else parseRingTimestamp file.name

/-- `os.ReadDir`, sorted by name. -/
def readDir (ring : Ring) : List RingFile := ring.rows.insertionSort fun first second => first.name ≤ second.name

/-- A segment belongs to the window from five seconds before `start` to `stop`. -/
def overlaps (start stop time : Instant) : Bool := decide (time < stop) && decide (start - 5 * second < time)

/-- The names of the segments of a window; sorted like the paths. -/
def collectRingSegments (ring : Ring) (start stop : Instant) : List String :=
  ((readDir ring).filter fun file => file.time?.any (overlaps start stop)).map RingFile.name

namespace Config
variable (config : Config)

def newEnd (eventTime : Instant) : Instant := eventTime + config.postBufferSec * second

def newClip (eventTime : Instant) (eventType : String) : Clip :=
  { clipStart := eventTime - config.preBufferSec * second, eventTime, eventType }

/-- Segments older than this are removed by a clean pass that reads `now`. -/
def cutoff (now : Instant) : Instant := now - (config.preBufferSec + 5) * second

/-- The row that `writeClip` registers. -/
def segment (clip : Clip) (actualEnd : Instant) (totalSize : Nat) : Segment :=
  { cameraID := config.cameraID
    startTime := clip.clipStart
    endTime := actualEnd
    filePath := config.outputDir ++ "/clip_" ++ clip.eventType ++ "_" ++ config.stamp clip.eventTime
    fileSize := totalSize
    durationMs := (actualEnd - clip.clipStart).tdiv 1000000 }

end Config

/-! ## The goroutines -/

/-- The fields of the writer under its mutex, the ring directory, the rows and the
clock. `events` records the times of the events triggered so far. -/
structure Shared where
  recording : Bool := false
  finalizing : Bool := false
  recordingEnd : Instant := 0
  ring : Ring := .empty
  segments : List Segment := []
  now : Instant := 0
  events : List Instant := []

/-- Where a goroutine stands: a call of `TriggerEvent` and the `writeClip` it
starts, a call of `CleanRingBuffer`, or FFmpeg about to write a file. -/
inductive Thread where
  | triggered (eventTime : Instant) (eventType : String)
  | waiting (clip : Clip)
  | expired (clip : Clip)
  | collecting (clip : Clip) (actualEnd : Instant)
  | copying (clip : Clip) (actualEnd : Instant) (name : String) (rest : List String) (totalSize : Nat)
  | inserting (clip : Clip) (actualEnd : Instant) (totalSize : Nat)
  | releasing
  | checking
  | reading
  | listing (cutoff : Instant)
  | removing (cutoff : Instant) (entries : List RingFile)
  | writing (file : RingFile)
  | done
  deriving DecidableEq

inductive Request where
  | triggerEvent (eventTime : Instant) (eventType : String)
  | cleanRingBuffer
  | record (file : RingFile)

/-- What the outside world decides: how long the statement took to come, whether
the file system or the database does what it asks, whether the context is done. -/
structure Env where
  elapsed : Nat := 0
  ok : Bool := true
  cancelled : Bool := false

def start : Request → Thread
  | .triggerEvent eventTime eventType => .triggered eventTime eventType
  | .cleanRingBuffer => .checking
  | .record file => .writing file

/-- The critical section of `TriggerEvent`. -/
def triggerEvent (config : Config) (eventTime : Instant) (eventType : String) (shared : Shared) : Thread × Shared :=
  let newEnd := config.newEnd eventTime
  let events := eventTime :: shared.events
  if shared.recording then
    if shared.recordingEnd < newEnd then (.done, { shared with recordingEnd := newEnd, events })
    else (.done, { shared with events })
  else
    (.waiting (config.newClip eventTime eventType),
      { shared with recording := true, recordingEnd := newEnd, events })

/-- The bytes of a ring segment that reach the clip directory. -/
def copied (ring : Ring) (ok : Bool) (name : String) : Nat :=
  match ring.find? name with
  | some file => if ok ∧ ¬ file.isDir then file.size else 0
  | none => 0

/-- `CleanRingBuffer` at one entry of its listing. -/
def clean (ring : Ring) (cutoff : Instant) (ok : Bool) (entry : RingFile) : Ring :=
  if ok ∧ entry.time?.any fun time => decide (time < cutoff) then ring.remove fun file => file.name = entry.name
  else ring

/-- One statement of a goroutine at the time `shared.now`. -/
def statement (config : Config) (env : Env) (shared : Shared) : Thread → Thread × Shared
  | .triggered eventTime eventType => triggerEvent config eventTime eventType shared
  | .waiting clip =>
    if shared.recordingEnd ≤ shared.now then (.expired clip, shared)
    else (if env.cancelled then .done else .waiting clip, shared)
  | .expired clip =>
    (.collecting clip shared.recordingEnd, { shared with recording := false, finalizing := true })
  | .collecting clip actualEnd =>
    if env.ok then
      match collectRingSegments shared.ring clip.clipStart actualEnd with
      | [] => (.releasing, shared)
      | name :: rest => (.copying clip actualEnd name rest 0, shared)
    else (.releasing, shared)
  | .copying clip actualEnd name rest totalSize =>
    let totalSize := totalSize + copied shared.ring env.ok name
    match rest with
    | [] => (.inserting clip actualEnd totalSize, shared)
    | next :: rest => (.copying clip actualEnd next rest totalSize, shared)
  | .inserting clip actualEnd totalSize =>
    (.releasing, { shared with
      segments := if env.ok then shared.segments ++ [config.segment clip actualEnd totalSize] else shared.segments })
  | .releasing => (.done, { shared with finalizing := false })
  | .checking => (if shared.recording ∨ shared.finalizing then .done else .reading, shared)
  | .reading => (.listing (config.cutoff shared.now), shared)
  | .listing cutoff => (if env.ok then .removing cutoff (readDir shared.ring) else .done, shared)
  | .removing cutoff (entry :: rest) =>
    (.removing cutoff rest, { shared with ring := clean shared.ring cutoff env.ok entry })
  | .removing _ [] => (.done, shared)
  | .writing file => (.done, { shared with ring := shared.ring.put file })
  | .done => (.done, shared)

def Shared.advance (shared : Shared) (elapsed : Nat) : Shared := { shared with now := shared.now + elapsed }

/-- Time passes and one goroutine performs a statement. -/
def next (config : Config) (env : Env) (thread : Thread) (shared : Shared) : Thread × Shared :=
  statement config env (shared.advance env.elapsed) thread

def program (config : Config) : Runs.Program Shared Thread Request Env := { start, next := next config }

abbrev Pool := Runs.Pool Shared Thread

abbrev Move := Runs.Move Request Env

def step (config : Config) : Pool → Move → Pool := (program config).step

/-- A clip writer that has just been made. -/
def fresh : Pool := { shared := {}, threads := [] }

/-! ## What a statement can do -/

/-- The outcomes of a statement, with the conditions under which they come about. -/
inductive Outcome (config : Config) (env : Env) (shared : Shared) : Thread → Thread → Shared → Prop
  | extend (eventTime : Instant) (eventType : String) (busy : shared.recording = true) :
      Outcome config env shared (.triggered eventTime eventType) .done
        { shared with
          recordingEnd := max shared.recordingEnd (config.newEnd eventTime)
          events := eventTime :: shared.events }
  | begin (eventTime : Instant) (eventType : String) (idle : shared.recording = false) :
      Outcome config env shared (.triggered eventTime eventType) (.waiting (config.newClip eventTime eventType))
        { shared with
          recording := true
          recordingEnd := config.newEnd eventTime
          events := eventTime :: shared.events }
  | expire (clip : Clip) (ended : shared.recordingEnd ≤ shared.now) :
      Outcome config env shared (.waiting clip) (.expired clip) shared
  | poll (clip : Clip) (early : shared.now < shared.recordingEnd) :
      Outcome config env shared (.waiting clip) (.waiting clip) shared
  | cancel (clip : Clip) (early : shared.now < shared.recordingEnd) (cancelled : env.cancelled = true) :
      Outcome config env shared (.waiting clip) .done shared
  | finalize (clip : Clip) :
      Outcome config env shared (.expired clip) (.collecting clip shared.recordingEnd)
        { shared with recording := false, finalizing := true }
  | collect (clip : Clip) (actualEnd : Instant) (name : String) (rest : List String)
      (found : collectRingSegments shared.ring clip.clipStart actualEnd = name :: rest) :
      Outcome config env shared (.collecting clip actualEnd) (.copying clip actualEnd name rest 0) shared
  | giveUp (clip : Clip) (actualEnd : Instant)
      (nothing : env.ok = true → collectRingSegments shared.ring clip.clipStart actualEnd = []) :
      Outcome config env shared (.collecting clip actualEnd) .releasing shared
  | copy (clip : Clip) (actualEnd : Instant) (name next : String) (rest : List String) (totalSize : Nat) :
      Outcome config env shared (.copying clip actualEnd name (next :: rest) totalSize)
        (.copying clip actualEnd next rest (totalSize + copied shared.ring env.ok name)) shared
  | copyLast (clip : Clip) (actualEnd : Instant) (name : String) (totalSize : Nat) :
      Outcome config env shared (.copying clip actualEnd name [] totalSize)
        (.inserting clip actualEnd (totalSize + copied shared.ring env.ok name)) shared
  | insert (clip : Clip) (actualEnd : Instant) (totalSize : Nat) (ok : env.ok = true) :
      Outcome config env shared (.inserting clip actualEnd totalSize) .releasing
        { shared with segments := shared.segments ++ [config.segment clip actualEnd totalSize] }
  | insertFailed (clip : Clip) (actualEnd : Instant) (totalSize : Nat) (failed : env.ok = false) :
      Outcome config env shared (.inserting clip actualEnd totalSize) .releasing shared
  | release : Outcome config env shared .releasing .done { shared with finalizing := false }
  | skip (busy : shared.recording = true ∨ shared.finalizing = true) : Outcome config env shared .checking .done shared
  | check (idle : shared.recording = false ∧ shared.finalizing = false) :
      Outcome config env shared .checking .reading shared
  | read : Outcome config env shared .reading (.listing (config.cutoff shared.now)) shared
  | list (cutoff : Instant) : Outcome config env shared (.listing cutoff) (.removing cutoff (readDir shared.ring)) shared
  | listFailed (cutoff : Instant) : Outcome config env shared (.listing cutoff) .done shared
  | remove (cutoff : Instant) (entry : RingFile) (rest : List RingFile) :
      Outcome config env shared (.removing cutoff (entry :: rest)) (.removing cutoff rest)
        { shared with ring := clean shared.ring cutoff env.ok entry }
  | removed (cutoff : Instant) : Outcome config env shared (.removing cutoff []) .done shared
  | record (file : RingFile) :
      Outcome config env shared (.writing file) .done { shared with ring := shared.ring.put file }
  | rest : Outcome config env shared .done .done shared

private theorem outcome_triggerEvent (config : Config) (env : Env) (shared : Shared) (eventTime : Instant)
    (eventType : String) : Outcome config env shared (.triggered eventTime eventType)
      (triggerEvent config eventTime eventType shared).1 (triggerEvent config eventTime eventType shared).2 := by
  have extended (busy : shared.recording = true) :
      Outcome config env shared (.triggered eventTime eventType) .done _ := .extend eventTime eventType busy
  fun_cases triggerEvent config eventTime eventType shared with
  | case1 _ _ busy later =>
    rw [max_eq_right later.le] at extended
    exact extended busy
  | case2 _ _ busy covered =>
    rw [max_eq_left (not_lt.mp covered)] at extended
    exact extended busy
  | case3 _ _ idle => exact .begin eventTime eventType (Bool.eq_false_of_not_eq_true idle)

private theorem outcome_statement (config : Config) (env : Env) (shared : Shared) (current : Thread) :
    Outcome config env shared current (statement config env shared current).1 (statement config env shared current).2 := by
  fun_cases statement config env shared current with
  | case1 eventTime eventType => exact outcome_triggerEvent config env shared eventTime eventType
  | case2 clip ended => exact .expire clip ended
  | case3 clip early =>
    split
    · exact .cancel clip (not_le.mp early) ‹_›
    · exact .poll clip (not_le.mp early)
  | case4 clip => exact .finalize clip
  | case5 clip actualEnd _ nothing => exact .giveUp clip actualEnd fun _ => nothing
  | case6 clip actualEnd _ name rest found => exact .collect clip actualEnd name rest found
  | case7 clip actualEnd failed => exact .giveUp clip actualEnd fun ok => absurd ok failed
  | case8 clip actualEnd name totalSize => exact .copyLast clip actualEnd name totalSize
  | case9 clip actualEnd name totalSize _ next rest => exact .copy clip actualEnd name next rest totalSize
  | case10 clip actualEnd totalSize =>
    cases ok : env.ok with
    | true => exact .insert clip actualEnd totalSize ok
    | false => exact .insertFailed clip actualEnd totalSize ok
  | case11 => exact .release
  | case12 =>
    split
    · exact .skip ‹_›
    · rename_i idle
      exact .check (by simpa using idle)
  | case13 => exact .read
  | case14 cutoff =>
    split
    · exact .list cutoff
    · exact .listFailed cutoff
  | case15 cutoff entry rest => exact .remove cutoff entry rest
  | case16 cutoff => exact .removed cutoff
  | case17 file => exact .record file
  | case18 => exact .rest

theorem outcome_next (config : Config) (env : Env) (current : Thread) (shared : Shared) :
    Outcome config env (shared.advance env.elapsed) current (next config env current shared).1
      (next config env current shared).2 :=
  outcome_statement config env (shared.advance env.elapsed) current

end Ironsight.ClipWriter
