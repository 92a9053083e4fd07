import Mathlib.Data.String.Basic
import Ironsight.Access
import Ironsight.Runs
import Ironsight.SegmentNames

/-! The continuous recorder of a camera: FFmpeg writes one file after another, and
while it runs a watcher scans the directory and registers the files it takes for
complete. Each FFmpeg run has a watcher of its own, which remembers when it
started and which files it is done with. -/
namespace Ironsight.SegmentWatch
open Tables Uuid Access SegmentNames

/-! ## Files and rows -/

/-- An entry of the directory. `codec` is what `ProbeVideoCodec` reads, none without
a moov atom; `finalised` records that FFmpeg closed the file. -/
structure File where
  name : String
  isDir : Bool := false
  size : Nat := 0
  modTime : Instant
  codec : Option String := none
  durationMs : Option Nat := none
  finalised : Bool := false
  deriving DecidableEq

abbrev Directory := Table File.name

/-- A row of `segments`. -/
structure Segment where
  cameraID : UUID
  startTime : Instant
  endTime : Instant
  filePath : String
  fileSize : Nat
  durationMs : Nat
  hasAudio : Bool
  videoCodec : String
  deriving DecidableEq

structure Recorder where
  cameraID : UUID
  outputDir : String
  segmentDur : Nat
  hasAudio : Bool

/-- `filepath.Join(r.outputDir, name)`. -/
def Recorder.path (recorder : Recorder) (name : String) : String := recorder.outputDir ++ "/" ++ name

def second : Int := 1000000000

/-- A file to be registered: closed by FFmpeg, readable and not tiny. -/
def File.complete (file : File) : Bool :=
  !file.isDir && isSegmentName file.name && file.finalised && decide (1000 ≤ file.size)

/-! ## The watcher -/

/-- A scan under way: the entries still to visit, with the newest segment of the
listing, and the file whose size is being watched. -/
structure Pass where
  newest : String
  pending : List (String × Bool)
  waiting : Option File := none
  deriving DecidableEq

/-- The local state of `watchSegments`; `due` records which files the latest scan
found complete and rotated away. -/
structure Watcher where
  startedAt : Instant
  seen : List String := []
  pruneCounter : Nat := 0
  pass : Option Pass := none
  due : List String := []
  deriving DecidableEq

/-- A run of FFmpeg: the file it writes, and those it has not closed. -/
structure FFmpeg where
  writing : Option String := none
  opened : List String := []
  deriving DecidableEq

structure World where
  now : Instant
  files : Directory
  ffmpeg : Option FFmpeg := none
  watcher : Option Watcher := none
  segments : List Segment := []

/-- `os.ReadDir`, sorted by name. -/
def readDir (files : Directory) : List File := files.rows.insertionSort fun first second => first.name ≤ second.name

/-- The greatest segment name of a listing, empty if there is none. -/
def newestSegment (entries : List File) : String :=
  entries.foldl (fun newest file =>
    if !file.isDir && isSegmentName file.name && decide (newest < file.name) then file.name else newest) ""

/-- A tick: every hundredth time names of vanished files are forgotten, then the
directory is listed. -/
def scan (files : Directory) (watcher : Watcher) : Watcher :=
  let counter := watcher.pruneCounter + 1
  let entries := readDir files
  let newest := newestSegment entries
  { watcher with
    pruneCounter := if 100 ≤ counter then 0 else counter
    seen := if 100 ≤ counter then watcher.seen.filter fun name => (files.find? name).isSome else watcher.seen
    pass := some { newest, pending := entries.map fun file => (file.name, file.isDir) }
    due := (entries.filter fun file => file.complete && decide (file.name ≠ newest)).map File.name }

/-- Probing: the codec and the duration, if the file is of this run and readable. -/
def probe (recorder : Recorder) (world : World) (startedAt : Instant) (info : File) : Option (String × Nat) :=
  let fallback := recorder.segmentDur * 1000
  if startedAt < info.modTime then
    match world.files.find? info.name with
    | none => none
    | some file => file.codec.map fun codec => (codec, file.durationMs.getD fallback)
  else some ("", fallback)

def segment (recorder : Recorder) (info : File) (probed : String × Nat) : Segment :=
  let startTime := (parseSegmentTimestamp info.name).getD (info.modTime - recorder.segmentDur * second)
  { cameraID := recorder.cameraID
    startTime
    endTime := startTime + probed.2 * 1000000
    filePath := recorder.path info.name
    fileSize := info.size
    durationMs := probed.2
    hasAudio := recorder.hasAudio
    videoCodec := probed.1 }

/-- The rest of the loop body for a file that looks stable; an unreadable file is
given up when it has not been written for two segment lengths. -/
def register (recorder : Recorder) (world : World) (watcher : Watcher) (info : File) (inserted : Bool) : World :=
  let done := { watcher with seen := info.name :: watcher.seen }
  match probe recorder world watcher.startedAt info with
  | none =>
    let stale := decide (recorder.segmentDur * 2 * second < world.now - info.modTime)
    { world with watcher := some (if stale then done else watcher) }
  | some probed =>
    { world with
      watcher := some done
      segments := if inserted then world.segments ++ [segment recorder info probed] else world.segments }

/-- The body of the loop up to the pause for a recently written file. -/
def visit (recorder : Recorder) (world : World) (watcher : Watcher) (newest name : String) (isDir : Bool)
    (pass : Pass) (inserted : Bool) : World :=
  let next := { watcher with pass := some pass }
  if isDir ∨ name ∈ watcher.seen ∨ name = newest ∨ ¬ isSegmentName name then { world with watcher := some next }
  else match world.files.find? name with
    | none => { world with watcher := some next }
    | some info =>
      if info.size < 1000 then { world with watcher := some next }
      else if info.modTime < watcher.startedAt then
        { world with watcher := some { next with seen := name :: watcher.seen } }
      else if world.now - info.modTime < 30 * second then
        { world with watcher := some { next with pass := some { pass with waiting := some info } } }
      else register recorder world next info inserted

/-- The next statement of the watcher; `inserted` tells whether `InsertSegment`
succeeds. -/
def watch (recorder : Recorder) (world : World) (inserted : Bool) : World :=
  match world.watcher with
  | none => world
  | some watcher =>
    match watcher.pass with
    | none => { world with watcher := some (scan world.files watcher) }
    | some pass =>
      match pass.waiting with
      | some info =>
        let next := { watcher with pass := some { pass with waiting := none } }
        match world.files.find? info.name with
        | none => { world with watcher := some next }
        | some again =>
          if again.size ≠ info.size then { world with watcher := some next }
          else register recorder world next info inserted
      | none =>
        match pass.pending with
        | [] => { world with watcher := some { watcher with pass := none } }
        | (name, isDir) :: rest =>
          visit recorder world watcher pass.newest name isDir { pass with pending := rest } inserted

/-! ## FFmpeg and the record loop -/

inductive Action where
  | start
  | openFile (name : String)
  | write (size : Nat) (codec : Option String)
  | finalise (name : String) (size : Nat) (codec : String) (durationMs : Option Nat)
  | exit
  | cancel
  | watch (inserted : Bool)
  | other (name : String) (isDir : Bool) (size : Nat)

/-- An action, after some nanoseconds and one more. -/
structure Move where
  elapsed : Nat := 0
  action : Action

/-- The file that FFmpeg writes grows. -/
def writeFile (world : World) (size : Nat) (codec : Option String) : World :=
  match world.ffmpeg.bind FFmpeg.writing with
  | none => world
  | some name => { world with files := world.files.put { name, size, modTime := world.now, codec } }

/-- FFmpeg closes a file: the one it writes, or one it has rotated away from. -/
def finaliseFile (world : World) (name : String) (size : Nat) (codec : String) (durationMs : Option Nat) : World :=
  match world.ffmpeg with
  | none => world
  | some ffmpeg =>
    if name ∈ ffmpeg.opened then
      { world with
        ffmpeg := some
          { writing := ffmpeg.writing.filter (· ≠ name), opened := ffmpeg.opened.filter (· ≠ name) }
        files := world.files.put { name, size, modTime := world.now, codec := some codec, durationMs, finalised := true } }
    else world

def act (recorder : Recorder) (world : World) : Action → World
  | .start =>
    if world.ffmpeg.isNone ∧ world.watcher.isNone then
      { world with ffmpeg := some {}, watcher := some { startedAt := world.now } }
    else world
  | .openFile name =>
    match world.ffmpeg with
    | none => world
    | some ffmpeg =>
      { world with
        ffmpeg := some { writing := some name, opened := name :: ffmpeg.opened }
        files := world.files.put { name, modTime := world.now } }
  | .write size codec => writeFile world size codec
  | .finalise name size codec durationMs => finaliseFile world name size codec durationMs
  | .exit => { world with ffmpeg := none }
  | .cancel => if world.ffmpeg.isNone then { world with watcher := none } else world
  | .watch inserted => watch recorder world inserted
  | .other name isDir size => { world with files := world.files.put { name, isDir, size, modTime := world.now } }

def step (recorder : Recorder) (world : World) (move : Move) : World :=
  act recorder { world with now := world.now + 1 + move.elapsed } move.action

/-- A recorder before its first run. -/
def idle : World := { now := 0, files := .empty }

end Ironsight.SegmentWatch
