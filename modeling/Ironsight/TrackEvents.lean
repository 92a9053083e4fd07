import Mathlib.Algebra.Order.Ring.Int
import Mathlib.Data.List.Basic
import Ironsight.Runs

/-! The analytics stream of a Milesight camera. A message is a JSON frame or a
binary one; either gives a list of tracks with flags, and `emitTrackEvents`
reports a key of a track and an event type when it becomes active. It returns
after the first report of a frame, before it has cleared the keys that are no
longer active. -/
namespace Ironsight.TrackEvents
open Runs

/-! ## Tracks -/

inductive EventType where
  | intrusion
  | linecross
  | loitering
  | human
  | motion
  | object
  deriving DecidableEq

def EventType.text : EventType → String
  | .intrusion => "intrusion"
  | .linecross => "linecross"
  | .loitering => "loitering"
  | .human => "human"
  | .motion => "motion"
  | .object => "object"

/-- `msTrack`. -/
structure Track where
  trackID : Int
  x : Int := 0
  y : Int := 0
  w : Int := 0
  h : Int := 0
  classID : Int := 0
  vcaIntrusionDetection : Int := 0
  vcaIntrusionEnter : Int := 0
  vcaIntrusionExit : Int := 0
  lineCrossing : Int := 0
  objectLoitering : Int := 0
  humanDetection : Int := 0
  vcaAdvancedMotion : Int := 0
  aiMotion : Int := 0
  objectLeftRemoved : Int := 0
  tamperDefocus : Int := 0
  deriving DecidableEq

/-- `flagDef`. -/
structure Flag where
  val : Int
  eventType : EventType
  ruleName : String
  deriving DecidableEq

/-- The flags of a track, each with the event type it raises. -/
def Track.flags (track : Track) : List Flag :=
  [⟨track.vcaIntrusionDetection, .intrusion, "Intrusion Detection"⟩,
    ⟨track.vcaIntrusionEnter, .intrusion, "Intrusion Zone Enter"⟩,
    ⟨track.vcaIntrusionExit, .intrusion, "Intrusion Zone Exit"⟩,
    ⟨track.lineCrossing, .linecross, "Line Crossing"⟩,
    ⟨track.objectLoitering, .loitering, "Object Loitering"⟩,
    ⟨track.humanDetection, .human, "Human Detection"⟩,
    ⟨track.vcaAdvancedMotion, .motion, "Advanced Motion"⟩,
    ⟨track.aiMotion, .motion, "AI Motion"⟩,
    ⟨track.objectLeftRemoved, .object, "Object Left/Removed"⟩,
    ⟨track.tamperDefocus, .intrusion, "Tamper/Defocus"⟩]

/-- `classNames`, or the number of an unknown class. -/
def Track.objType (track : Track) : String :=
  if track.classID = 1 then "human"
  else if track.classID = 2 then "vehicle"
  else if track.classID = 3 then "face"
  else "class_" ++ toString track.classID

/-- The key `trackID:eventType`; the number has no colon, so the text determines
both parts. -/
structure Key where
  trackID : Int
  eventType : EventType
  deriving DecidableEq

/-! ## Events -/

structure BoundingBox where
  x : Int
  y : Int
  w : Int
  h : Int
  label : String
  deriving DecidableEq

/-- The map handed to the callback; the score is in hundredths. -/
structure Details where
  source : String := "milesight_ws"
  topic : String
  ruleName : String
  objType : String
  score : Nat := 95
  trackID : Int
  boundingBoxes : List BoundingBox
  frame : Option (Int × Int)
  deriving DecidableEq

/-- The arguments of one callback. -/
structure Event where
  eventType : EventType
  details : Details
  deriving DecidableEq

def Event.key (event : Event) : Key := ⟨event.details.trackID, event.eventType⟩

/-- The event that a rising flag leads to. -/
def event (track : Track) (flag : Flag) (frameW frameH : Int) : Event where
  eventType := flag.eventType
  details :=
    { topic := "milesight:" ++ flag.eventType.text
      ruleName := flag.ruleName
      objType := track.objType
      trackID := track.trackID
      boundingBoxes := [⟨track.x, track.y, track.w, track.h, track.objType⟩]
      frame := if 0 < frameW ∧ 0 < frameH then some (frameW, frameH) else none }

/-- The part of `EventStream` that frames change. -/
structure EventStream where
  activeFlags : List Key := []
  deriving DecidableEq

/-- The pairs of a track and a raised flag, in the order of the two loops. -/
def raised (tracks : List Track) : List (Track × Flag) :=
  tracks.flatMap fun track => (track.flags.filter fun flag => flag.val ≠ 0).map fun flag => (track, flag)

def keyOf (raise : Track × Flag) : Key := ⟨raise.1.trackID, raise.2.eventType⟩

/-- The keys that are active in a frame. -/
def activeKeys (tracks : List Track) : List Key := (raised tracks).map keyOf

/-- `emitTrackEvents`: the first key that is not yet held is reported, and the
function returns there; otherwise the keys that fell are cleared. -/
def emitTrackEvents (stream : EventStream) (tracks : List Track) (frameW frameH : Int) : EventStream × List Event :=
  match (raised tracks).find? fun raise => keyOf raise ∉ stream.activeFlags with
  | some raise => (⟨keyOf raise :: stream.activeFlags⟩, [event raise.1 raise.2 frameW frameH])
  | none => (⟨stream.activeFlags.filter fun key => key ∈ activeKeys tracks⟩, [])

/-! ## Messages -/

abbrev Bytes := List UInt8

def msHeaderSize : Nat := 80
def msTrackRecSize : Nat := 76
def msTrackNumOff : Nat := 56
def msAnalyticsFrameW : Int := 320
def msAnalyticsFrameH : Int := 180
def msMagic : Bytes := [0x33, 0x22, 0x11, 0x00, 0x37]

/-- `binary.LittleEndian.Uint32` at an offset. -/
def uint32 (data : Bytes) (offset : Nat) : Nat :=
  ((data.drop offset).take 4).foldr (fun byte rest => byte.toNat + 256 * rest) 0

/-- A field of a track record, as `int32`. -/
def int32 (record : Bytes) (index : Nat) : Int :=
  let n := uint32 record (index * 4)
  if n < 2 ^ 31 then n else n - 2 ^ 32

def isBinaryTrackFrame (data : Bytes) : Bool :=
  msHeaderSize ≤ data.length ∧ data.take msMagic.length = msMagic ∧ (data.length - msHeaderSize) % msTrackRecSize = 0

/-- One record of a binary frame: a track that is shown counts as motion. -/
def binaryTrack (record : Bytes) : Track where
  trackID := int32 record 0
  x := int32 record 1
  y := int32 record 2
  w := int32 record 3
  h := int32 record 4
  classID := int32 record 5
  vcaAdvancedMotion := if int32 record 18 ≠ 0 then 1 else 0

/-- `decodeBinaryTrack` of a binary frame. -/
def decodeBinaryTrack (data : Bytes) : List Track :=
  let byLen := (data.length - msHeaderSize) / msTrackRecSize
  (List.range (min byLen (uint32 data msTrackNumOff))).map fun i =>
    binaryTrack ((data.drop (msHeaderSize + i * msTrackRecSize)).take msTrackRecSize)

/-- `findJSONStart`. -/
def findJSONStart : Bytes → Option Bytes
  | first :: second :: third :: rest =>
    if first = 123 ∧ second = 34 then some (first :: second :: third :: rest)
    else findJSONStart (second :: third :: rest)
  | _ => none

/-- The tracks that `parseMessage` finds in a message; `unmarshal` is the JSON
decoder with the fields of `msTrackFrame`. -/
def parseMessage (unmarshal : Bytes → Option (List Track)) (data : Bytes) : Option (List Track) :=
  if data.length < 8 then none
  else if data.head? = some 123 then unmarshal data
  else if isBinaryTrackFrame data then some (decodeBinaryTrack data)
  else (findJSONStart data).bind unmarshal

/-! ## A stream over time -/

/-- A frame, with the keys active in it and the events it led to. -/
structure Frame where
  active : List Key
  events : List Event
  deriving DecidableEq

/-- A stream and all frames it was fed. -/
structure Observed where
  stream : EventStream
  history : List Frame
  deriving DecidableEq

/-- A frame goes through `emitTrackEvents`. -/
def feed (observed : Observed) (tracks : List Track) : Observed :=
  let after := emitTrackEvents observed.stream tracks msAnalyticsFrameW msAnalyticsFrameH
  { stream := after.1, history := observed.history ++ [⟨activeKeys tracks, after.2⟩] }

/-- A message from the socket; one without tracks is dropped. -/
def receive (unmarshal : Bytes → Option (List Track)) (observed : Observed) (data : Bytes) : Observed :=
  match parseMessage unmarshal data with
  | none => observed
  | some tracks => feed observed tracks

/-- `NewEventStream`. -/
def newEventStream : Observed := ⟨{}, []⟩

/-- Messages feed the frames decoded from them, whichever the decoder. -/
theorem exec_receive (unmarshal : Bytes → Option (List Track)) (messages : List Bytes) (observed : Observed) :
    exec (receive unmarshal) observed messages = exec feed observed (messages.filterMap (parseMessage unmarshal)) := by
  induction messages generalizing observed with
  | nil => rfl
  | cons data rest ih =>
    rw [exec_cons, ih, receive]
    cases parsed : parseMessage unmarshal data with
    | none => rw [List.filterMap_cons_none parsed]
    | some tracks => rw [List.filterMap_cons_some parsed, exec_cons]

end Ironsight.TrackEvents
