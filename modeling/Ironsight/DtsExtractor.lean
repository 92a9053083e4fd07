import Ironsight.Runs
import Ironsight.Sps

/-! The DTS extractor of the media library: it reads the picture order count of a slice,
learns how far pictures are reordered and how counts grow, and spreads the time to the
presentation of a picture over the pictures that come before it. -/
namespace Ironsight.DtsExtractor
open BitReader Sps
open Runs hiding Fault
open EmulationPrevention (emulationPreventionRemove)

/-- Pictures that may be shown after later ones were decoded. -/
def maxReorderedFrames : Int := 10

def maxBytesToGetPOC : Nat := 22

/-- `PicOrderCntType`. -/
def picOrderCntType (sps : SPS) : Nat :=
  match sps.picOrderCnt with
  | .lsb _ => 0
  | .cycle .. => 1
  | .none => 2

def log2MaxPicOrderCntLsbMinus4 (sps : SPS) : UInt32 :=
  match sps.picOrderCnt with
  | .lsb log2Max => log2Max
  | _ => 0

/-! ## The picture order count -/

def readPictureOrderCount (sps : SPS) (idr : Bool) : Reader UInt32 := do
  let _firstMbInSlice ← readGolombUnsigned
  let _sliceType ← readGolombUnsigned
  let _picParameterSetId ← readGolombUnsigned
  let _frameNum ← readBits (sps.log2MaxFrameNumMinus4 + 4).toNat
  let _idrPicId ← given idr readGolombUnsigned 0
  uint32 (readBits (log2MaxPicOrderCntLsbMinus4 sps + 4).toNat)

def getPictureOrderCount (buf : Bytes) (sps : SPS) (idr : Bool) : Except Fault UInt32 :=
  match buf with
  | [] => .error .panic
  | _ :: buf =>
    match emulationPreventionRemove (buf.take maxBytesToGetPOC) with
    | none => .error .panic
    | some buf => (·.1) <$> readPictureOrderCount sps idr buf 0

/-- `1 << (Log2MaxPicOrderCntLsbMinus4 + 4)`, which is zero for a shift of 32 or more. -/
def maxVal (sps : SPS) : UInt32 :=
  let shift := log2MaxPicOrderCntLsbMinus4 sps + 4
  if shift < 32 then 1 <<< shift else 0

def pictureOrderCountDiff (a b : UInt32) (sps : SPS) : Int32 :=
  let d := (a - b) &&& (maxVal sps - 1)
  if d > maxVal sps / 2 then d.toInt32 - (maxVal sps).toInt32 else d.toInt32

/-! ## The extractor -/

/-- The previous DTS is there once it is filled. -/
structure DTSExtractor where
  sps : Bytes := []
  spsp : Option SPS := none
  prevDTS : Option Int64 := none
  randomReceived : Bool := false
  expectedPOC : UInt32 := 0
  reorderedFrames : Int := 0
  pause : Int := 0
  auCount : Int := 0
  pocIncrement : Int := 2
  prevPOC : UInt32 := 0
  prevPrevPOC : UInt32 := 0
  deriving DecidableEq

/-- What a part of `Extract` leaves, and its result. -/
abbrev Outcome (α : Type) := DTSExtractor × Except Fault α

/-- An error ends the call. -/
def Outcome.andThen {α β : Type} (outcome : Outcome α) (rest : DTSExtractor → α → Outcome β) : Outcome β :=
  match outcome with
  | (d, .ok a) => rest d a
  | (d, .error fault) => (d, .error fault)

/-- The slice that the loop over the NAL units stops at, and whether it is an IDR. -/
structure Found where
  slice : Option (Bool × Bytes)
  nonZeroNalRefIDFound : Bool
  deriving DecidableEq

namespace DTSExtractor

/-- Another parameter set resets everything but the previous DTS. -/
def reset (d : DTSExtractor) (nalu : Bytes) (spsp : SPS) : DTSExtractor :=
  { sps := nalu, spsp := some spsp, prevDTS := d.prevDTS }

def scan : List Bytes → DTSExtractor → Bool → Outcome Found
  | [], d, nonZero => (d, .ok { slice := none, nonZeroNalRefIDFound := nonZero })
  | [] :: _, d, _ => (d, .error .panic)
  | (header :: payload) :: rest, d, nonZero =>
    let nonZero := nonZero || decide (header &&& 0x60 > 0)
    match header &&& 0x1F with
    | 7 =>
      if d.sps = header :: payload then scan rest d nonZero
      else match SPS.unmarshal (header :: payload) with
        | .ok spsp => scan rest (d.reset (header :: payload) spsp) nonZero
        | .error (.error text) => (d, .error (.error s!"invalid SPS: {text}"))
        | .error .panic => (d, .error .panic)
    | 5 => (d, .ok { slice := some (true, header :: payload), nonZeroNalRefIDFound := nonZero })
    | 1 => (d, .ok { slice := some (false, header :: payload), nonZeroNalRefIDFound := nonZero })
    | _ => scan rest d nonZero

def raise (d : DTSExtractor) (increase : Int) : Outcome Unit :=
  if d.reorderedFrames + increase > maxReorderedFrames then
    (d, .error (.error s!"too many reordered frames ({d.reorderedFrames + increase})"))
  else ({ d with reorderedFrames := d.reorderedFrames + increase, pause := d.pause + increase }, .ok ())

/-- The count of an IDR is where the counting starts. -/
def startAt (d : DTSExtractor) (poc : UInt32) : DTSExtractor :=
  let d := { d with expectedPOC := poc }
  if d.pocIncrement = 2 then
    { d with pocIncrement := if poc % 2 ≠ 0 then 1 else 2, auCount := 1, prevPrevPOC := 0, prevPOC := poc }
  else d

def diffOfIDR (d : DTSExtractor) (sps : SPS) (idr : Bytes) : Outcome Int :=
  match getPictureOrderCount idr sps true with
  | .ok poc => (d.startAt poc, .ok 0)
  | .error fault => ({ d with expectedPOC := 0 }, .error fault)

/-- An odd count early on says that counts grow by one, two steps of four that they grow by four. -/
def detect (d : DTSExtractor) (poc : UInt32) : Outcome Unit :=
  if d.auCount < 5 ∧ d.pocIncrement = 2 then
    let checked : Outcome Unit :=
      if poc % 2 ≠ 0 then
        let d := { d with pocIncrement := 1, expectedPOC := d.expectedPOC / 2 }
        if d.reorderedFrames ≠ 0 then d.raise d.reorderedFrames else (d, .ok ())
      else if d.auCount ≥ 2 ∧ poc % 4 = 0 ∧ poc = d.prevPOC + 4 ∧ d.prevPOC = d.prevPrevPOC + 4 then
        ({ d with pocIncrement := 4, expectedPOC := d.expectedPOC * 2 }, .ok ())
      else (d, .ok ())
    checked.andThen fun d _ =>
      ({ d with auCount := d.auCount + 1, prevPrevPOC := d.prevPOC, prevPOC := poc }, .ok ())
  else (d, .ok ())

/-- The count that is expected next. -/
def advance (d : DTSExtractor) (sps : SPS) : DTSExtractor :=
  { d with expectedPOC := (d.expectedPOC + UInt32.ofInt d.pocIncrement) &&& (maxVal sps - 1) }

/-- `a / b`, which panics where `b` is zero. -/
def quotient (a b : Int) : Except Fault Int := if b = 0 then .error .panic else .ok (a.tdiv b)

def diffOfNonIDR (d : DTSExtractor) (sps : SPS) (nonIDR : Bytes) : Outcome Int :=
  match getPictureOrderCount nonIDR sps false with
  | .error fault => (d, .error fault)
  | .ok poc => (d.detect poc).andThen fun d _ =>
    let d := d.advance sps
    (d, quotient (pictureOrderCountDiff poc d.expectedPOC sps).toInt d.pocIncrement)

/-- A picture that is later or earlier than known so far raises the number of reordered frames. -/
def settle (d : DTSExtractor) (diff : Int) : Outcome Int :=
  let diff := diff + d.reorderedFrames
  if diff > 2 * d.reorderedFrames + 1 then
    let increase := diff - (2 * d.reorderedFrames + 1)
    (d.raise increase).andThen fun d _ => (d, .ok (diff + increase))
  else if diff < 0 then
    (d.raise (-diff)).andThen fun d _ => (d, .ok (diff + -diff))
  else (d, .ok diff)

/-- `a / b` for two `int64`, which panics where `b` is zero. -/
def quotient64 (a b : Int64) : Except Fault Int64 := if b = 0 then .error .panic else .ok (a / b)

/-- The DTS, and whether it is not checked against the PTS. -/
def dtsOf (d : DTSExtractor) (pts : Int64) (diff : Int) : Outcome (Int64 × Bool) :=
  if d.pause > 0 then
    ({ d with pause := d.pause - 1 },
      match d.prevDTS with
      | none => .ok (pts, true)
      | some prev => .ok (prev + 90, true))
  else (d,
    match d.prevDTS with
    | none => .ok (pts, true)
    | some prev => do return (prev + (← quotient64 (pts - prev) (Int64.ofInt diff + 1)), false))

/-- What follows once it is known how many pictures the slice is late. -/
def timed (pts : Int64) (outcome : Outcome Int) : Outcome (Int64 × Bool) :=
  (outcome.andThen settle).andThen fun d diff => d.dtsOf pts diff

def slotted (d : DTSExtractor) (sps : SPS) (found : Found) (pts : Int64) : Outcome (Int64 × Bool) :=
  match found.slice with
  | some (true, idr) => timed pts (diffOfIDR { d with randomReceived := true } sps idr)
  | other =>
    if !d.randomReceived then (d, .error (.error "random access frame not received yet"))
    else match other with
      | some (_, nonIDR) => timed pts (d.diffOfNonIDR sps nonIDR)
      | none =>
        if !found.nonZeroNalRefIDFound then
          match d.prevDTS with
          | none => (d, .ok (pts, true))
          | some prev => (d, .ok (prev, false))
        else (d, .error (.error "access unit doesn't contain an IDR or non-IDR NALU"))

def extractInner (d : DTSExtractor) (au : List Bytes) (pts : Int64) : Outcome (Int64 × Bool) :=
  (scan au d false).andThen fun d found =>
    match d.spsp with
    | none => (d, .error (.error "SPS not received yet"))
    | some spsp =>
      if picOrderCntType spsp = 2 ∨ spsp.frameMbsOnlyFlag = false then (d, .ok (pts, false))
      else if picOrderCntType spsp = 1 then (d, .error (.error "pic_order_cnt_type = 1 is not supported yet"))
      else d.slotted spsp found pts

/-- `Extract`: a DTS below the one before it is refused, and one above the PTS where the check is
not skipped. -/
def extract (d : DTSExtractor) (au : List Bytes) (pts : Int64) : Outcome Int64 :=
  (d.extractInner au pts).andThen fun d (dts, skipChecks) =>
    if skipChecks = false ∧ dts > pts then (d, .error (.error "DTS is greater than PTS"))
    else match d.prevDTS with
      | some prev =>
        if dts < prev then
          (d, .error (.error s!"DTS is not monotonically increasing, was {prev}, now is {dts}"))
        else ({ d with prevDTS := some dts }, .ok dts)
      | none => ({ d with prevDTS := some dts }, .ok dts)

end DTSExtractor

end Ironsight.DtsExtractor
