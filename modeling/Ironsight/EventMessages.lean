import Ironsight.PpeWorker
import Ironsight.RecoveryCodes

/-! The notification messages of a camera: each becomes one event, unless it is a snapshot of
the state at the renewal of the subscription and shows nothing active. The items of a message
pass through a map under their lower-case names, in which the last of a name remains. -/
namespace Ironsight.EventMessages
open Tables PpeWorker RecoveryCodes

/-- A token of `encoding/xml`, with local names. -/
inductive Token where
  | start (name : String) (attrs : List (String × String))
  | end_ (name : String)
  | charData (text : String)
  deriving DecidableEq

/-- What the parser takes from libraries: `strings.ToLower`, the tokens that the XML decoder
delivers of a text before it fails, and the `%f` of `fmt.Sscanf`. -/
structure Library (F : Type) where
  toLower : String → String
  tokens : String → List Token
  sscanf : String → F

structure BoxJSON (F : Type) where
  label : String
  confidence : F
  x : F
  y : F
  w : F
  h : F

/-- A value of the details. -/
inductive Detail (F : Type) where
  | text (value : String)
  | boxes (boxes : List (BoxJSON F))

abbrev Details (F : Type) := Table (Prod.fst : String × Detail F → String)

structure AnalyticsObject (F : Type) where
  id : String
  label : String
  confidence : F
  left : F
  top : F
  right : F
  bottom : F
  awaitingLabel : Bool

/-- A decoded notification message. -/
structure Message where
  topic : String
  propertyOperation : String
  innerXML : String
  deriving DecidableEq

structure ParsedEvent (F : Type) where
  type : String
  details : Details F

variable {F : Type} [Float64 F]

/-! ## Items and objects -/

def zero : F := Float64.ofBits 0

/-- The coordinate at the right edge. -/
def one : F := Float64.ofBits 0x3FF0000000000000

def two : F := Float64.ofBits 0x4000000000000000

def parseFloat (lib : Library F) (s : String) : F := lib.sscanf (trimSpace s)

def clamp01 (v : F) : F := if Float64.less v zero then zero else if Float64.less one v then one else v

/-- The last of the attributes with a name, as a loop reads them. -/
def lastAttr {α : Type} (name : String) (read : String → α) (old : α) (attrs : List (String × String)) : α :=
  attrs.foldl (fun old attr => if attr.1 = name then read attr.2 else old) old

/-- The names under which a plate is also kept as `plate_number`. -/
def plateNames : List String := ["plate", "platenumber", "licenseplatenumber"]

/-- A `SimpleItem` with a name. -/
def addItem (lib : Library F) (details : Details F) (item : String × String) : Details F :=
  let details := details.put (lib.toLower item.1, .text item.2)
  if lib.toLower item.1 ∈ plateNames then details.put ("plate_number", .text item.2) else details

/-- The variables of the loop of `parseDataItems`. -/
structure State (F : Type) where
  details : Details F
  inObject : Bool
  currentObj : AnalyticsObject F
  objects : List (AnalyticsObject F)

def emptyObject : AnalyticsObject F := ⟨"", "", zero, zero, zero, zero, zero, false⟩

/-- The name and the value of a `SimpleItem`. -/
def simpleItem (attrs : List (String × String)) : String × String := (lastAttr "Name" id "" attrs, lastAttr "Value" id "" attrs)

def parseToken (lib : Library F) (s : State F) : Token → State F
  | .start name attrs =>
    if name = "SimpleItem" then
      if (simpleItem attrs).1 ≠ "" then { s with details := addItem lib s.details (simpleItem attrs) } else s
    else if name = "Object" then
      { s with inObject := true, currentObj := { emptyObject with id := lastAttr "ObjectId" id "" attrs } }
    else if name = "BoundingBox" then
      let obj := s.currentObj
      if s.inObject then
        { s with currentObj := { obj with
          left := lastAttr "left" (parseFloat lib) obj.left attrs
          top := lastAttr "top" (parseFloat lib) obj.top attrs
          right := lastAttr "right" (parseFloat lib) obj.right attrs
          bottom := lastAttr "bottom" (parseFloat lib) obj.bottom attrs } }
      else s
    else if name = "Type" then
      let obj := s.currentObj
      if s.inObject then
        { s with currentObj := { obj with
          confidence := lastAttr "Likelihood" (parseFloat lib) obj.confidence attrs
          awaitingLabel := true } }
      else s
    else s
  | .charData text =>
    let obj := s.currentObj
    if s.inObject && obj.awaitingLabel then
      let label := trimSpace text
      { s with currentObj := { obj with
        label := if label ≠ "" then lib.toLower label else obj.label
        awaitingLabel := false } }
    else s
  | .end_ name =>
    if name = "Object" && s.inObject then { s with inObject := false, objects := s.objects ++ [s.currentObj] } else s

/-- The box of an object in coordinates from 0 to 1, unless it has no extent. -/
def boxOf (o : AnalyticsObject F) : Option (BoxJSON F) :=
  let negative := Float64.less o.left zero || Float64.less o.top zero || Float64.less o.right zero ||
    Float64.less o.bottom zero
  let scale (v : F) : F := clamp01 (if negative then (v + one) / two else v)
  let w := scale o.right - scale o.left
  let h := scale o.bottom - scale o.top
  if Float64.atMost w zero || Float64.atMost h zero then none
  else some ⟨o.label, o.confidence, scale o.left, scale o.top, w, h⟩

/-- The tokens of the inner XML under a root of their own. -/
def innerTokens (lib : Library F) (innerXML : String) : List Token := lib.tokens ("<root>" ++ innerXML ++ "</root>")

/-- The details with the items and the boxes of a message. -/
def parseDataItems (lib : Library F) (innerXML : String) (details : Details F) : Details F :=
  let s := (innerTokens lib innerXML).foldl (parseToken lib) ⟨details, false, emptyObject, []⟩
  if s.objects = [] then s.details else s.details.put ("bounding_boxes", .boxes (s.objects.filterMap boxOf))

/-! ## Events -/

/-- The event types by what the topic contains, in the order of the cases. -/
def eventTypes : List (List String × String) :=
  [(["motiondetect", "cellmotion", "motion"], "motion"),
    (["humandetect", "human"], "human"),
    (["vehicledetect", "vehicle"], "vehicle"),
    (["facedetect", "face"], "face"),
    (["intrusion", "fielddetect", "regionentrance", "regionexit"], "intrusion"),
    (["linedetect", "linecross"], "linecross"),
    (["loitering", "loiter"], "loitering"),
    (["peoplecount", "peoplecounting"], "peoplecount"),
    (["tamper"], "tamper"),
    (["objectdetect", "object"], "object"),
    (["licenseplate", "lpr", "anpr", "plate"], "lpr"),
    (["videoloss", "signalloss"], "videoloss")]

/-- `strings.Contains`. -/
def contains (text part : String) : Bool := text.toList.tails.any part.toList.isPrefixOf

def classifyEvent (lib : Library F) (topic : String) : String :=
  match eventTypes.find? fun entry => entry.1.any (contains (lib.toLower topic)) with
  | some entry => entry.2
  | none => "other"

/-- `strings.HasPrefix(key, "is")`. -/
def isKey (key : String) : Bool := "is".toList.isPrefixOf key.toList

/-- The value of an item that is not active. -/
def inactive (lib : Library F) (value : String) : Bool :=
  let v := lib.toLower (trimSpace value)
  v = "" || v = "false" || v = "0"

/-- The loop of `isInitializedNoEventState`, in the order in which the map is met. -/
def noneActive (lib : Library F) (sawBool : Bool) : List (String × Detail F) → Bool
  | [] => sawBool
  | (key, raw) :: details =>
    if isKey key then
      match raw with
      | .boxes _ => noneActive lib sawBool details
      | .text s => if inactive lib s then noneActive lib true details else false
    else noneActive lib sawBool details

def isInitializedNoEventState (lib : Library F) (scan : Scan (String × Detail F)) (propertyOp : String) (details : Details F) :
    Bool :=
  if propertyOp ≠ "Initialized" then false else noneActive lib false (scan.arrange details.rows)

/-- The details before the items are read. -/
def ownDetails (msg : Message) : Details F :=
  ((Table.empty.put ("topic", .text msg.topic)).put ("raw", .text msg.innerXML)).put
    ("property_operation", .text msg.propertyOperation)

/-- The event of a message without a driver. -/
def eventOf (lib : Library F) (msg : Message) : ParsedEvent F where
  type := classifyEvent lib msg.topic
  details := parseDataItems lib msg.innerXML (ownDetails msg)

/-- `parseNotificationMessages` after the envelope is decoded, without driver hooks. -/
def parseNotificationMessages (lib : Library F) (scan : Scan (String × Detail F)) (msgs : List Message) : List (ParsedEvent F) :=
  msgs.foldl (fun events msg =>
    let evt := eventOf lib msg
    if isInitializedNoEventState lib scan msg.propertyOperation evt.details then events
    else if evt.type ≠ "" then events ++ [evt]
    else events) []

end Ironsight.EventMessages
