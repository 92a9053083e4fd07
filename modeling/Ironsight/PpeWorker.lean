import Mathlib.Data.Rat.Defs
import Mathlib.Algebra.Order.Ring.Rat
import Ironsight.Analytics

/-! The PPE worker's look at one camera: a snapshot, the detector, the rules of the
camera and the engine that applies them. Violations of a PPE rule go to the review
queue, persons in a no-go zone to the hub. The worker's arithmetic is that of its
doubles, of which only an order fact is needed. -/
namespace Ironsight.PpeWorker
open Uuid Access Analytics

/-- Go's `float64` as the worker uses it; comparisons with a NaN are false. -/
class Float64 (F : Type) extends Add F, Sub F, Mul F, Div F where
  ofBits : BitVec 64 → F
  less : F → F → Bool
  atMost : F → F → Bool
  finite : F → Bool
  not_less_of_atMost : ∀ x y, atMost x y = true → less y x = false

section Detector
variable (F : Type) [Float64 F]

/-- A number read from JSON text, which `json.Marshal` can write again. -/
structure Number where
  value : F
  finite : Float64.finite value = true

structure BBox where
  x1 : Number F
  y1 : Number F
  x2 : Number F
  y2 : Number F

/-- `ai.Detection`. -/
structure Detection where
  class_ : String
  confidence : Number F
  bbox : BBox F
  bboxNorm : BBox F

/-- `ai.YOLOResult`, without the timings and the names of the models. -/
structure YOLOResult where
  detections : List (Detection F)
  ppeDetections : List (Detection F)
  ppeViolations : List (Detection F)

end Detector

variable {F : Type} [Float64 F]

/-! ## The compliance engine -/

/-- `safety.Violation`. -/
structure Violation (F : Type) [Float64 F] where
  detection : Detection F
  zoneID : String
  zoneName : String
  missingClasses : List String
  ruleType : String

/-- Whether the edge between two corners crosses the ray to the right of a point. -/
def intersects (px py : F) (previous current : Point) : Bool :=
  let xi : F := Float64.ofBits current.x
  let yi : F := Float64.ofBits current.y
  let xj : F := Float64.ofBits previous.x
  let yj : F := Float64.ofBits previous.y
  (Float64.less py yi != Float64.less py yj) && Float64.less px ((xj - xi) * (py - yi) / (yj - yi) + xi)

/-- The loop of `pointInPolygon`, with the corner before the next one. -/
def crossings (px py : F) : Point → List Point → Bool → Bool
  | _, [], inside => inside
  | previous, current :: rest, inside =>
    crossings px py current rest (if intersects px py previous current then !inside else inside)

def pointInPolygon (px py : F) (polygon : List Point) : Bool :=
  match polygon.getLast? with
  | none => false
  | some last => crossings px py last polygon false

def classMatchesAny (cls : String) (required : List String) : Bool := required.any fun r => cls = r

/-- The centroid of the normalised box. -/
def centroid (detection : Detection F) : F × F :=
  let box := detection.bboxNorm
  (box.x1.value + (box.x2.value - box.x1.value) / Float64.ofBits 0x4000000000000000,
    box.y1.value + (box.y2.value - box.y1.value) / Float64.ofBits 0x4000000000000000)

/-- The map `zoneByID`: of several zones under one id the last one stays. -/
def zoneByID (zones : List PPEZone) (id : String) : Option PPEZone :=
  zones.reverse.find? fun zone => zone.id.text = id

/-- The tests that a zone has to pass for a detection. -/
def zoneHolds (detection : Detection F) (zone : PPEZone) : Bool :=
  zone.enabled && decide (3 ≤ zone.region.length) &&
    pointInPolygon (centroid detection).1 (centroid detection).2 zone.region

/-- What a rule makes of a detection in its zone. -/
def fires (detection : Detection F) (zone : PPEZone) (rule : ComplianceRule) : Option (Violation F) :=
  match rule.ruleType with
  | .ppeRequired =>
    if classMatchesAny detection.class_ rule.ppeClasses then
      some ⟨detection, zone.id.text, zone.name, rule.ppeClasses, "ppe_required"⟩
    else none
  | .noGo => some ⟨detection, zone.id.text, zone.name, [], "no_go"⟩

/-- The body of the inner loop. -/
def applyRule (zones : List PPEZone) (detection : Detection F) (rule : ComplianceRule) : Option (Violation F) :=
  if rule.enabled then
    match zoneByID zones rule.zoneId.text with
    | none => none
    | some zone => if zoneHolds detection zone then fires detection zone rule else none
  else none

/-- `EvaluateCompliance`. -/
def evaluateCompliance (detections : List (Detection F)) (zones : List PPEZone) (rules : List ComplianceRule) :
    List (Violation F) :=
  if rules.isEmpty || zones.isEmpty || detections.isEmpty then []
  else detections.flatMap fun detection => rules.filterMap (applyRule zones detection)

/-! ## The worker -/

/-- `database.PPECamera`. -/
structure PPECamera where
  cameraID : UUID
  organizationID : String
  siteID : String
  cameraName : String := ""
  onvifAddress : String := ""
  profileToken : String := ""
  manufacturer : String := ""
  deriving DecidableEq

structure CameraFrameResult (F : Type) [Float64 F] where
  camera : PPECamera
  frameBytes : List UInt8
  yolo : Option (YOLOResult F)
  fetchedAt : Instant

/-- The fields of `Worker` and of its configuration; a hub and a tracking channel are
there or nil. -/
structure Worker (F : Type) [Float64 F] where
  aiEnabled : Bool
  ppeConfidenceThreshold : F
  hub : Bool
  trackingCh : Bool

/-- What a look at a camera meets: the clock, the snapshot sources, the detector and the
state of the tracking channel; the listing of the rules may fail. -/
structure Env (F : Type) [Float64 F] where
  fetchedAt : Instant := 0
  milesightSnapshot : Except String (List UInt8)
  getSnapshotURI : Except String String
  onvifSnapshot : String → Except String (List UInt8)
  detectYOLO : List UInt8 → Except String (YOLOResult F)
  listFault : Option String := none
  trackingFull : Bool := false

/-- The envelope of a no-go alarm. -/
structure Message (F : Type) [Float64 F] where
  type : String
  cameraID : String
  organizationID : String
  zoneID : String
  zoneName : String
  confidence : Number F
  class_ : String
  bboxNorm : BBox F

/-- What the worker does to the outside, in order; saving a violation is recorded as the
call of `persistViolation`. -/
inductive Effect (F : Type) [Float64 F] where
  | alert (name level text : String)
  | track (result : CameraFrameResult F)
  | persistViolation (v : Detection F) (frameSource zoneID : String)
  | broadcast (message : Message F)

/-- `fetchSnapshot`, the frame with its source. -/
def fetchSnapshot (env : Env F) (cam : PPECamera) : Except String (List UInt8 × String) :=
  let isMilesight := cam.manufacturer = "" ∨ cam.manufacturer = "Milesight" ∨ cam.manufacturer = "milesight"
  let onvif : Except String (List UInt8 × String) :=
    if cam.profileToken = "" then
      .error ("no profile token available for ONVIF fallback on camera " ++ cam.cameraID.text)
    else
      match env.getSnapshotURI with
      | .error err => .error ("GetSnapshotURI: " ++ err)
      | .ok snapshotURI =>
        match env.onvifSnapshot snapshotURI with
        | .error err => .error ("FetchSnapshot (ONVIF): " ++ err)
        | .ok frame => .ok (frame, "onvif")
  if isMilesight then
    match env.milesightSnapshot with
    | .ok (byte :: frame) => .ok (byte :: frame, "milesight_cgi")
    | _ => onvif
  else onvif

/-- `fanOutToTracking`: a full channel drops the frame. -/
def fanOutToTracking (w : Worker F) (env : Env F) (result : CameraFrameResult F) : List (Effect F) :=
  if w.trackingCh then
    if env.trackingFull then
      [.alert "ppe_tracking_channel_full" "info"
        ("tracking channel full, dropped frame for camera " ++ result.camera.cameraID.text)]
    else [.track result]
  else []

def noGoMessage (cam : PPECamera) (sv : Violation F) : Message F where
  type := "no_go_intrusion"
  cameraID := cam.cameraID.text
  organizationID := cam.organizationID
  zoneID := sv.zoneID
  zoneName := sv.zoneName
  confidence := sv.detection.confidence
  class_ := sv.detection.class_
  bboxNorm := sv.detection.bboxNorm

def emitNoGoAlarm (w : Worker F) (cam : PPECamera) (sv : Violation F) : List (Effect F) :=
  if w.hub then [.broadcast (noGoMessage cam sv)] else []

/-- The confidence below which the worker looks away. -/
def threshold (w : Worker F) : F :=
  if Float64.atMost w.ppeConfidenceThreshold (Float64.ofBits 0) then Float64.ofBits 0x3FE0000000000000
  else w.ppeConfidenceThreshold

/-- The loop body over the violations that the engine found. -/
def route (w : Worker F) (cam : PPECamera) (source : String) (sv : Violation F) : List (Effect F) :=
  if Float64.less sv.detection.confidence.value (threshold w) then []
  else if sv.ruleType = "no_go" then emitNoGoAlarm w cam sv
  else if sv.ruleType = "ppe_required" then [.persistViolation sv.detection source sv.zoneID]
  else []

/-- The behaviour without rules: every violation of the frame is saved. -/
def fullFrame (w : Worker F) (source : String) (violations : List (Detection F)) : List (Effect F) :=
  violations.flatMap fun v =>
    if Float64.less v.confidence.value (threshold w) then [] else [.persistViolation v source ""]

/-- The zone filter of a frame. A failed listing counts as no rules. -/
def zoneFilter (w : Worker F) (db : Database) (env : Env F) (cam : PPECamera) (source : String)
    (yolo : YOLOResult F) : List (Effect F) :=
  let zonesAndRules := match env.listFault with
    | some _ => []
    | none => listZonesAndRulesForCamera db cam.cameraID cam.siteID cam.organizationID
  let allDetectionsForRules :=
    if zonesAndRules.isEmpty then []
    else yolo.ppeViolations ++ yolo.detections.filter fun d => d.class_ = "person"
  let zones := zonesAndRules.map Prod.snd
  let rules := zonesAndRules.map Prod.fst
  if rules.isEmpty then fullFrame w source yolo.ppeViolations
  else (evaluateCompliance allDetectionsForRules zones rules).flatMap (route w cam source)

/-- `processCamera`: the runs of failed snapshots after it, and what it did. A frame
without PPE violations ends before the rules are read. -/
def processCamera (w : Worker F) (db : Database) (env : Env F) (consecutiveFailures : UUID → Nat) (cam : PPECamera) :
    (UUID → Nat) × List (Effect F) :=
  match fetchSnapshot env cam with
  | .error err =>
    let n := consecutiveFailures cam.cameraID + 1
    (Function.update consecutiveFailures cam.cameraID n,
      if 3 ≤ n then [.alert "ppe_frame_fetch_failure" "warning" ("camera " ++ cam.cameraID.text ++ ": " ++ err)] else [])
  | .ok (frameBytes, source) =>
    let after := Function.update consecutiveFailures cam.cameraID 0
    let fanOut (yolo : Option (YOLOResult F)) := fanOutToTracking w env ⟨cam, frameBytes, yolo, env.fetchedAt⟩
    if !w.aiEnabled then (after, fanOut none)
    else
      match env.detectYOLO frameBytes with
      | .error err =>
        (after, .alert "ppe_yolo_call_failure" "warning" ("camera " ++ cam.cameraID.text ++ ": " ++ err) :: fanOut none)
      | .ok yolo =>
        (after, fanOut (some yolo) ++
          if yolo.ppeViolations.isEmpty then [] else zoneFilter w db env cam source yolo)

/-! ## Exact doubles -/

/-- The value of a finite double. -/
def double (bits : BitVec 64) : ℚ :=
  let fraction : ℚ := (bits.toNat % 2 ^ 52 : Nat)
  let exponent := bits.toNat / 2 ^ 52 % 2 ^ 11
  let magnitude : ℚ :=
    if exponent = 0 then fraction / 2 ^ 1074 else (2 ^ 52 + fraction) * 2 ^ exponent / 2 ^ 1075
  if bits.toNat / 2 ^ 63 = 0 then magnitude else -magnitude

/-- Doubles without rounding, as good as the real ones on halves and quarters. -/
instance exact : Float64 ℚ where
  ofBits := double
  less x y := x < y
  atMost x y := x ≤ y
  finite _ := true
  not_less_of_atMost x y ordered := by simpa using ordered

end Ironsight.PpeWorker
