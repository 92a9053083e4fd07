import Ironsight.BitReader
import Ironsight.EmulationPrevention

/-! The sequence parameter set of H.264, as the media library reads it. An option
stands for a flag and the fields that follow it when it is set. -/
namespace Ironsight.Sps
open BitStrings BitReader
open EmulationPrevention (emulationPreventionRemove inserted emulationPreventionRemove_inserted)

structure HrdEntry where
  bitRateValueMinus1 : UInt32
  cpbSizeValueMinus1 : UInt32
  cbrFlag : Bool
  deriving DecidableEq

/-- `SPS_HRD`. -/
structure Hrd where
  cpbCntMinus1 : UInt32
  bitRateScale : UInt8
  cpbSizeScale : UInt8
  entries : List HrdEntry
  initialCpbRemovalDelayLengthMinus1 : UInt8
  cpbRemovalDelayLengthMinus1 : UInt8
  dpbOutputDelayLengthMinus1 : UInt8
  timeOffsetLength : UInt8
  deriving DecidableEq

/-- `SPS_TimingInfo`. -/
structure TimingInfo where
  numUnitsInTick : UInt32
  timeScale : UInt32
  fixedFrameRateFlag : Bool
  deriving DecidableEq

/-- `SPS_BitstreamRestriction`. -/
structure BitstreamRestriction where
  motionVectorsOverPicBoundariesFlag : Bool
  maxBytesPerPicDenom : UInt32
  maxBitsPerMbDenom : UInt32
  log2MaxMvLengthHorizontal : UInt32
  log2MaxMvLengthVertical : UInt32
  maxNumReorderFrames : UInt32
  maxDecFrameBuffering : UInt32
  deriving DecidableEq

structure AspectRatio where
  aspectRatioIdc : UInt8
  sarWidth : UInt16
  sarHeight : UInt16
  deriving DecidableEq

structure Colour where
  colourPrimaries : UInt8
  transferCharacteristics : UInt8
  matrixCoefficients : UInt8
  deriving DecidableEq

structure VideoSignal where
  videoFormat : UInt8
  videoFullRangeFlag : Bool
  colourDescription : Option Colour
  deriving DecidableEq

structure ChromaLoc where
  chromaSampleLocTypeTopField : UInt32
  chromaSampleLocTypeBottomField : UInt32
  deriving DecidableEq

/-- `SPS_VUI`. -/
structure Vui where
  aspectRatioInfo : Option AspectRatio
  overscanAppropriateFlag : Option Bool
  videoSignalType : Option VideoSignal
  chromaLocInfo : Option ChromaLoc
  timingInfo : Option TimingInfo
  nalHRD : Option Hrd
  vclHRD : Option Hrd
  lowDelayHrdFlag : Bool
  picStructPresentFlag : Bool
  bitstreamRestriction : Option BitstreamRestriction
  deriving DecidableEq

/-- `SPS_FrameCropping`. -/
structure FrameCropping where
  leftOffset : UInt32
  rightOffset : UInt32
  topOffset : UInt32
  bottomOffset : UInt32
  deriving DecidableEq

/-- What `readScalingList` returns. -/
structure ScalingList where
  scales : List Int
  useDefaultScalingMatrixFlag : Bool
  deriving DecidableEq

/-- What only the selected profiles have. Of the scaling lists the ones that are present are
kept, one behind the other; neither their index nor whether there was a matrix stays. -/
structure Chroma where
  chromaFormatIdc : UInt32 := 1
  separateColourPlaneFlag : Bool := false
  bitDepthLumaMinus8 : UInt32 := 0
  bitDepthChromaMinus8 : UInt32 := 0
  qpprimeYZeroTransformBypassFlag : Bool := false
  scalingList4x4 : List (List Int) := []
  useDefaultScalingMatrix4x4Flag : List Bool := []
  scalingList8x8 : List (List Int) := []
  useDefaultScalingMatrix8x8Flag : List Bool := []
  deriving DecidableEq

/-- `PicOrderCntType` and the fields of that type. -/
inductive PicOrderCnt
  | lsb (log2MaxPicOrderCntLsbMinus4 : UInt32)
  | cycle (deltaPicOrderAlwaysZeroFlag : Bool) (offsetForNonRefPic offsetForTopToBottomField : Int32)
      (offsetForRefFrames : List Int32)
  | none
  deriving DecidableEq

/-- `SPS`; what the source sets only together is one field. -/
structure SPS where
  profileIdc : UInt8
  constraintSet0Flag : Bool
  constraintSet1Flag : Bool
  constraintSet2Flag : Bool
  constraintSet3Flag : Bool
  constraintSet4Flag : Bool
  constraintSet5Flag : Bool
  levelIdc : UInt8
  id : UInt32
  chroma : Chroma
  log2MaxFrameNumMinus4 : UInt32
  picOrderCnt : PicOrderCnt
  maxNumRefFrames : UInt32
  gapsInFrameNumValueAllowedFlag : Bool
  picWidthInMbsMinus1 : UInt32
  picHeightInMapUnitsMinus1 : UInt32
  frameMbsOnlyFlag : Bool
  mbAdaptiveFrameFieldFlag : Bool
  direct8x8InferenceFlag : Bool
  frameCropping : Option FrameCropping
  vui : Option Vui
  deriving DecidableEq

/-! ## Reading -/

def HrdEntry.read : Reader HrdEntry := do
  let bitRateValueMinus1 ← readGolombUnsigned
  let cpbSizeValueMinus1 ← readGolombUnsigned
  let cbrFlag ← readFlag
  return { bitRateValueMinus1, cpbSizeValueMinus1, cbrFlag }

/-- `SPS_HRD.unmarshal`. -/
def Hrd.unmarshal : Reader Hrd := do
  let cpbCntMinus1 ← readGolombUnsigned
  hasSpace 8
  refuse (31 < cpbCntMinus1) "invalid cpb_cnt_minus1"
  let bitRateScale ← uint8 (readBitsUnsafe 4)
  let cpbSizeScale ← uint8 (readBitsUnsafe 4)
  let entries ← times HrdEntry.read (cpbCntMinus1.toNat + 1)
  hasSpace (5 + 5 + 5 + 5)
  let initialCpbRemovalDelayLengthMinus1 ← uint8 (readBitsUnsafe 5)
  let cpbRemovalDelayLengthMinus1 ← uint8 (readBitsUnsafe 5)
  let dpbOutputDelayLengthMinus1 ← uint8 (readBitsUnsafe 5)
  let timeOffsetLength ← uint8 (readBitsUnsafe 5)
  return { cpbCntMinus1, bitRateScale, cpbSizeScale, entries, initialCpbRemovalDelayLengthMinus1,
           cpbRemovalDelayLengthMinus1, dpbOutputDelayLengthMinus1, timeOffsetLength }

/-- `SPS_TimingInfo.unmarshal`. -/
def TimingInfo.unmarshal : Reader TimingInfo := do
  hasSpace (32 + 32 + 1)
  let numUnitsInTick ← uint32 (readBitsUnsafe 32)
  let timeScale ← uint32 (readBitsUnsafe 32)
  let fixedFrameRateFlag ← readFlagUnsafe
  return { numUnitsInTick, timeScale, fixedFrameRateFlag }

/-- `SPS_BitstreamRestriction.unmarshal`. -/
def BitstreamRestriction.unmarshal : Reader BitstreamRestriction := do
  let motionVectorsOverPicBoundariesFlag ← readFlag
  let maxBytesPerPicDenom ← readGolombUnsigned
  let maxBitsPerMbDenom ← readGolombUnsigned
  let log2MaxMvLengthHorizontal ← readGolombUnsigned
  let log2MaxMvLengthVertical ← readGolombUnsigned
  let maxNumReorderFrames ← readGolombUnsigned
  let maxDecFrameBuffering ← readGolombUnsigned
  return { motionVectorsOverPicBoundariesFlag, maxBytesPerPicDenom, maxBitsPerMbDenom, log2MaxMvLengthHorizontal,
           log2MaxMvLengthVertical, maxNumReorderFrames, maxDecFrameBuffering }

/-- Only `Extended_SAR` brings a width and a height. -/
def AspectRatio.read : Reader AspectRatio := do
  let aspectRatioIdc ← uint8 (readBits 8)
  if aspectRatioIdc = 255 then
    hasSpace 32
    let sarWidth ← uint16 (readBitsUnsafe 16)
    let sarHeight ← uint16 (readBitsUnsafe 16)
    return { aspectRatioIdc, sarWidth, sarHeight }
  else return { aspectRatioIdc, sarWidth := 0, sarHeight := 0 }

def Colour.read : Reader Colour := do
  hasSpace 24
  let colourPrimaries ← uint8 (readBitsUnsafe 8)
  let transferCharacteristics ← uint8 (readBitsUnsafe 8)
  let matrixCoefficients ← uint8 (readBitsUnsafe 8)
  return { colourPrimaries, transferCharacteristics, matrixCoefficients }

def VideoSignal.read : Reader VideoSignal := do
  hasSpace 5
  let videoFormat ← uint8 (readBitsUnsafe 3)
  let videoFullRangeFlag ← readFlagUnsafe
  let colourDescription ← optional readFlagUnsafe Colour.read
  return { videoFormat, videoFullRangeFlag, colourDescription }

def ChromaLoc.read : Reader ChromaLoc := do
  let chromaSampleLocTypeTopField ← readGolombUnsigned
  let chromaSampleLocTypeBottomField ← readGolombUnsigned
  return { chromaSampleLocTypeTopField, chromaSampleLocTypeBottomField }

/-- `SPS_VUI.unmarshal`. -/
def Vui.unmarshal : Reader Vui := do
  let aspectRatioInfo ← optional readFlag AspectRatio.read
  let overscanAppropriateFlag ← optional readFlag readFlag
  let videoSignalType ← optional readFlag VideoSignal.read
  let chromaLocInfo ← optional readFlag ChromaLoc.read
  let timingInfo ← optional readFlag TimingInfo.unmarshal
  let nalHRD ← optional readFlag Hrd.unmarshal
  let vclHRD ← optional readFlag Hrd.unmarshal
  let lowDelayHrdFlag ← given (nalHRD.isSome || vclHRD.isSome) readFlag false
  let picStructPresentFlag ← readFlag
  let bitstreamRestriction ← optional readFlag BitstreamRestriction.unmarshal
  return { aspectRatioInfo, overscanAppropriateFlag, videoSignalType, chromaLocInfo, timingInfo, nalHRD, vclHRD,
           lowDelayHrdFlag, picStructPresentFlag, bitstreamRestriction }

/-- `SPS_FrameCropping.unmarshal`. -/
def FrameCropping.unmarshal : Reader FrameCropping := do
  let leftOffset ← readGolombUnsigned
  let rightOffset ← readGolombUnsigned
  let topOffset ← readGolombUnsigned
  let bottomOffset ← readGolombUnsigned
  return { leftOffset, rightOffset, topOffset, bottomOffset }

/-- The next scale, and whether it asks for the default matrix. -/
def nextScale (first : Bool) (lastScale nextScale : Int) (useDefault : Bool) : Reader (Int × Bool) :=
  if nextScale ≠ 0 then do
    let deltaScale ← readGolombSigned
    let nextScale := (Int32.ofInt (lastScale + deltaScale.toInt + 256)).toInt.tmod 256
    return (nextScale, first && nextScale = 0)
  else pure (nextScale, useDefault)

/-- The loop of `readScalingList`; a next scale of zero ends the reading. -/
def scales : Nat → Bool → Int → Int → Bool → Reader ScalingList
  | 0, _, _, _, useDefault => pure { scales := [], useDefaultScalingMatrixFlag := useDefault }
  | n + 1, first, lastScale, next, useDefault => do
    let (next, useDefault) ← nextScale first lastScale next useDefault
    let scale := if next = 0 then lastScale else next
    let rest ← scales n false scale next useDefault
    return { rest with scales := scale :: rest.scales }

def readScalingList (size : Nat) : Reader ScalingList := scales size true 8 8 false

/-- Appends the list with this index, to those of its size. -/
def Chroma.append (chroma : Chroma) (i : Nat) (list : ScalingList) : Chroma :=
  if i < 6 then
    { chroma with
      scalingList4x4 := chroma.scalingList4x4 ++ [list.scales]
      useDefaultScalingMatrix4x4Flag := chroma.useDefaultScalingMatrix4x4Flag ++ [list.useDefaultScalingMatrixFlag] }
  else
    { chroma with
      scalingList8x8 := chroma.scalingList8x8 ++ [list.scales]
      useDefaultScalingMatrix8x8Flag := chroma.useDefaultScalingMatrix8x8Flag ++ [list.useDefaultScalingMatrixFlag] }

/-- The loop over the lists, from an index on. -/
def scalingLists : Nat → Nat → Chroma → Reader Chroma
  | 0, _, chroma => pure chroma
  | n + 1, i, chroma => do
    let list ← optional readFlag (readScalingList (if i < 6 then 16 else 64))
    scalingLists n (i + 1) ((list.map (chroma.append i)).getD chroma)

def Chroma.read : Reader Chroma := do
  let chromaFormatIdc ← readGolombUnsigned
  let separateColourPlaneFlag ← given (chromaFormatIdc = 3) readFlag false
  let bitDepthLumaMinus8 ← readGolombUnsigned
  let bitDepthChromaMinus8 ← readGolombUnsigned
  let qpprimeYZeroTransformBypassFlag ← readFlag
  let chroma := { chromaFormatIdc, separateColourPlaneFlag, bitDepthLumaMinus8, bitDepthChromaMinus8,
                  qpprimeYZeroTransformBypassFlag }
  let filled ← optional readFlag (scalingLists (if chromaFormatIdc ≠ 3 then 8 else 12) 0 chroma)
  return filled.getD chroma

def maxRefFrames : UInt32 := 255

def PicOrderCnt.read : Reader PicOrderCnt := do
  match ← readGolombUnsigned with
  | 0 => return .lsb (← readGolombUnsigned)
  | 1 => do
    let deltaPicOrderAlwaysZeroFlag ← readFlag
    let offsetForNonRefPic ← readGolombSigned
    let offsetForTopToBottomField ← readGolombSigned
    let num ← readGolombUnsigned
    refuse (maxRefFrames < num) "num_ref_frames_in_pic_order_cnt_cycle exceeds 255"
    let offsetForRefFrames ← times readGolombSigned num.toNat
    return .cycle deltaPicOrderAlwaysZeroFlag offsetForNonRefPic offsetForTopToBottomField offsetForRefFrames
  | 2 => return .none
  | other => fail s!"invalid pic_order_cnt_type: {other}"

/-- The profiles with chroma information. -/
def chromaProfiles : List UInt8 := [100, 110, 122, 244, 44, 83, 86, 118, 128, 138, 139, 134, 135]

/-- What `Unmarshal` reads behind the first three bytes. -/
def SPS.read (profileIdc constraints levelIdc : UInt8) : Reader SPS := do
  let id ← readGolombUnsigned
  let chroma ← given (profileIdc ∈ chromaProfiles) Chroma.read {}
  let log2MaxFrameNumMinus4 ← readGolombUnsigned
  let picOrderCnt ← PicOrderCnt.read
  let maxNumRefFrames ← readGolombUnsigned
  let gapsInFrameNumValueAllowedFlag ← readFlag
  let picWidthInMbsMinus1 ← readGolombUnsigned
  let picHeightInMapUnitsMinus1 ← readGolombUnsigned
  let frameMbsOnlyFlag ← readFlag
  let mbAdaptiveFrameFieldFlag ← given (¬ frameMbsOnlyFlag) readFlag false
  let direct8x8InferenceFlag ← readFlag
  let frameCropping ← optional readFlag FrameCropping.unmarshal
  let vui ← optional readFlag Vui.unmarshal
  return {
    profileIdc
    constraintSet0Flag := constraints.toNat.testBit 7, constraintSet1Flag := constraints.toNat.testBit 6
    constraintSet2Flag := constraints.toNat.testBit 5, constraintSet3Flag := constraints.toNat.testBit 4
    constraintSet4Flag := constraints.toNat.testBit 3, constraintSet5Flag := constraints.toNat.testBit 2
    levelIdc, id, chroma, log2MaxFrameNumMinus4, picOrderCnt, maxNumRefFrames, gapsInFrameNumValueAllowedFlag
    picWidthInMbsMinus1, picHeightInMapUnitsMinus1, frameMbsOnlyFlag, mbAdaptiveFrameFieldFlag
    direct8x8InferenceFlag, frameCropping, vui }

/-- `SPS.Unmarshal` of a new set; one that holds scaling lists already would keep them. -/
def SPS.unmarshal : Bytes → Except Fault SPS
  | [] => .error (.error "not enough bits")
  | header :: rest =>
    if header &&& 0x1F ≠ 7 then .error (.error "not a SPS")
    else match emulationPreventionRemove rest with
      | none => .error .panic
      | some (profileIdc :: constraints :: levelIdc :: buf) => (·.1) <$> SPS.read profileIdc constraints levelIdc buf 0
      | some _ => .error (.error "not enough bits")

/-! ## The syntax -/

def ue (v : UInt32) : Bits := golomb v.toNat

def se (k : Int32) : Bits := golomb (signedNumber k.toInt)

/-- The signed values of the standard. -/
def Signed (k : Int32) : Prop := -2 ^ 30 ≤ k.toInt ∧ k.toInt < 2 ^ 30

def HrdEntry.code (entry : HrdEntry) : Bits :=
  [ue entry.bitRateValueMinus1, ue entry.cpbSizeValueMinus1, [entry.cbrFlag]].flatten

def Hrd.code (hrd : Hrd) : Bits :=
  [ue hrd.cpbCntMinus1, digits 4 hrd.bitRateScale.toNat, digits 4 hrd.cpbSizeScale.toNat, hrd.entries.flatMap HrdEntry.code,
    digits 5 hrd.initialCpbRemovalDelayLengthMinus1.toNat, digits 5 hrd.cpbRemovalDelayLengthMinus1.toNat,
    digits 5 hrd.dpbOutputDelayLengthMinus1.toNat, digits 5 hrd.timeOffsetLength.toNat].flatten

structure Hrd.Valid (hrd : Hrd) : Prop where
  count : hrd.entries.length = hrd.cpbCntMinus1.toNat + 1
  few : hrd.cpbCntMinus1 ≤ 31
  bitRate : hrd.bitRateScale.toNat < 2 ^ 4
  cpbSize : hrd.cpbSizeScale.toNat < 2 ^ 4
  initial : hrd.initialCpbRemovalDelayLengthMinus1.toNat < 2 ^ 5
  removal : hrd.cpbRemovalDelayLengthMinus1.toNat < 2 ^ 5
  output : hrd.dpbOutputDelayLengthMinus1.toNat < 2 ^ 5
  offset : hrd.timeOffsetLength.toNat < 2 ^ 5

def TimingInfo.code (info : TimingInfo) : Bits :=
  [digits 32 info.numUnitsInTick.toNat, digits 32 info.timeScale.toNat, [info.fixedFrameRateFlag]].flatten

def BitstreamRestriction.code (r : BitstreamRestriction) : Bits :=
  [[r.motionVectorsOverPicBoundariesFlag], ue r.maxBytesPerPicDenom, ue r.maxBitsPerMbDenom, ue r.log2MaxMvLengthHorizontal,
    ue r.log2MaxMvLengthVertical, ue r.maxNumReorderFrames, ue r.maxDecFrameBuffering].flatten

def AspectRatio.code (ratio : AspectRatio) : Bits :=
  digits 8 ratio.aspectRatioIdc.toNat ++
    if ratio.aspectRatioIdc = 255 then digits 16 ratio.sarWidth.toNat ++ digits 16 ratio.sarHeight.toNat else []

def AspectRatio.Valid (ratio : AspectRatio) : Prop :=
  ratio.aspectRatioIdc ≠ 255 → ratio.sarWidth = 0 ∧ ratio.sarHeight = 0

def Colour.code (colour : Colour) : Bits :=
  [digits 8 colour.colourPrimaries.toNat, digits 8 colour.transferCharacteristics.toNat,
    digits 8 colour.matrixCoefficients.toNat].flatten

def VideoSignal.code (signal : VideoSignal) : Bits :=
  [digits 3 signal.videoFormat.toNat, [signal.videoFullRangeFlag], flagged Colour.code signal.colourDescription].flatten

def ChromaLoc.code (loc : ChromaLoc) : Bits :=
  [ue loc.chromaSampleLocTypeTopField, ue loc.chromaSampleLocTypeBottomField].flatten

def Vui.code (vui : Vui) : Bits :=
  [flagged AspectRatio.code vui.aspectRatioInfo, flagged ([·]) vui.overscanAppropriateFlag,
    flagged VideoSignal.code vui.videoSignalType, flagged ChromaLoc.code vui.chromaLocInfo,
    flagged TimingInfo.code vui.timingInfo, flagged Hrd.code vui.nalHRD, flagged Hrd.code vui.vclHRD,
    if vui.nalHRD.isSome || vui.vclHRD.isSome then [vui.lowDelayHrdFlag] else [], [vui.picStructPresentFlag],
    flagged BitstreamRestriction.code vui.bitstreamRestriction].flatten

structure Vui.Valid (vui : Vui) : Prop where
  aspectRatio : ∀ ratio ∈ vui.aspectRatioInfo, ratio.Valid
  videoFormat : ∀ signal ∈ vui.videoSignalType, signal.videoFormat.toNat < 2 ^ 3
  nal : ∀ hrd ∈ vui.nalHRD, hrd.Valid
  vcl : ∀ hrd ∈ vui.vclHRD, hrd.Valid
  lowDelay : ¬ (vui.nalHRD.isSome || vui.vclHRD.isSome) → vui.lowDelayHrdFlag = false

def FrameCropping.code (cropping : FrameCropping) : Bits :=
  [ue cropping.leftOffset, ue cropping.rightOffset, ue cropping.topOffset, ue cropping.bottomOffset].flatten

/-- A difference of scales, from -128 to 127. -/
def wrapped (delta : Int) : Int := (delta + 128) % 256 - 128

/-- The scales that are written, each as the difference from the last one. -/
def deltas : Int → List Int → Bits
  | _, [] => []
  | lastScale, scale :: rest => golomb (signedNumber (wrapped (scale - lastScale))) ++ deltas scale rest

/-- A list may end early, with a next scale of zero: then the last scale stands for the
rest, and a list without any scale asks for the default matrix. -/
def ScalingList.Code (size : Nat) (list : ScalingList) (code : Bits) : Prop :=
  ∃ written : List Int, (∀ scale ∈ written, 0 < scale ∧ scale < 256) ∧ written.length ≤ size ∧
    list.scales = written ++ List.replicate (size - written.length) (written.getLastD 8) ∧
    list.useDefaultScalingMatrixFlag = written.isEmpty ∧
    code = deltas 8 written ++
      if written.length < size then golomb (signedNumber (wrapped (0 - written.getLastD 8))) else []

def listSize (i : Nat) : Nat := if i < 6 then 16 else 64

/-- The lists from an index on. -/
inductive ListsCode : Nat → List (Option ScalingList) → Bits → Prop
  | nil (i : Nat) : ListsCode i [] []
  | absent {i : Nat} {rest : List (Option ScalingList)} {more : Bits} :
    ListsCode (i + 1) rest more → ListsCode i (none :: rest) (false :: more)
  | present {i : Nat} {list : ScalingList} {rest : List (Option ScalingList)} {code more : Bits} :
    list.Code (listSize i) code → ListsCode (i + 1) rest more → ListsCode i (some list :: rest) (true :: (code ++ more))

def matrixSize (chromaFormatIdc : UInt32) : Nat := if chromaFormatIdc ≠ 3 then 8 else 12

/-- The chroma information of a set is written with its scaling matrix, whose lists have an index
each. The set has those that are present: the first six indices in one sequence, the others in
another, each in their order. -/
structure Chroma.Code (chroma : Chroma) (matrix : Option (List (Option ScalingList))) (code : Bits) : Prop where
  separate : ¬ chroma.chromaFormatIdc = 3 → chroma.separateColourPlaneFlag = false
  lists4x4 : chroma.scalingList4x4 = (((matrix.getD []).take 6).filterMap id).map ScalingList.scales
  flags4x4 : chroma.useDefaultScalingMatrix4x4Flag =
    (((matrix.getD []).take 6).filterMap id).map ScalingList.useDefaultScalingMatrixFlag
  lists8x8 : chroma.scalingList8x8 = (((matrix.getD []).drop 6).filterMap id).map ScalingList.scales
  flags8x8 : chroma.useDefaultScalingMatrix8x8Flag =
    (((matrix.getD []).drop 6).filterMap id).map ScalingList.useDefaultScalingMatrixFlag
  written : ∃ listsCode : List (Option ScalingList) → Bits,
    (∀ lists ∈ matrix, lists.length = matrixSize chroma.chromaFormatIdc ∧ ListsCode 0 lists (listsCode lists)) ∧
    code = [ue chroma.chromaFormatIdc, if chroma.chromaFormatIdc = 3 then [chroma.separateColourPlaneFlag] else [],
      ue chroma.bitDepthLumaMinus8, ue chroma.bitDepthChromaMinus8, [chroma.qpprimeYZeroTransformBypassFlag],
      flagged listsCode matrix].flatten

def PicOrderCnt.code : PicOrderCnt → Bits
  | .lsb log2Max => ue 0 ++ ue log2Max
  | .cycle zero nonRef topToBottom offsets =>
    [ue 1, [zero], se nonRef, se topToBottom, golomb offsets.length, offsets.flatMap se].flatten
  | .none => ue 2

def PicOrderCnt.Valid : PicOrderCnt → Prop
  | .cycle _ nonRef topToBottom offsets =>
    Signed nonRef ∧ Signed topToBottom ∧ offsets.length ≤ 255 ∧ ∀ offset ∈ offsets, Signed offset
  | _ => True

/-- The bits of a sequence parameter set and its scaling matrix behind the first three bytes. -/
structure SPS.Code (sps : SPS) (matrix : Option (List (Option ScalingList))) (code : Bits) : Prop where
  picOrderCnt : sps.picOrderCnt.Valid
  adaptive : ¬ ¬ sps.frameMbsOnlyFlag → sps.mbAdaptiveFrameFieldFlag = false
  plain : sps.profileIdc ∉ chromaProfiles → sps.chroma = {}
  vui : ∀ vui ∈ sps.vui, vui.Valid
  code : ∃ chroma, (sps.profileIdc ∈ chromaProfiles → sps.chroma.Code matrix chroma) ∧
    code = [ue sps.id, if sps.profileIdc ∈ chromaProfiles then chroma else [], ue sps.log2MaxFrameNumMinus4,
      sps.picOrderCnt.code, ue sps.maxNumRefFrames, [sps.gapsInFrameNumValueAllowedFlag], ue sps.picWidthInMbsMinus1,
      ue sps.picHeightInMapUnitsMinus1, [sps.frameMbsOnlyFlag],
      if ¬ sps.frameMbsOnlyFlag then [sps.mbAdaptiveFrameFieldFlag] else [], [sps.direct8x8InferenceFlag],
      flagged FrameCropping.code sps.frameCropping, flagged Vui.code sps.vui].flatten

/-! ## Each part is read back -/

theorem reads_hrdEntry (entry : HrdEntry) : Reads HrdEntry.read entry.code entry :=
  (reads_ue _).bind ((reads_ue _).bind ((reads_flag _).bind (reads_pure _)))

theorem reads_cropping (cropping : FrameCropping) : Reads FrameCropping.unmarshal cropping.code cropping :=
  (reads_ue _).bind ((reads_ue _).bind ((reads_ue _).bind ((reads_ue _).bind (reads_pure _))))

theorem reads_chromaLoc (loc : ChromaLoc) : Reads ChromaLoc.read loc.code loc :=
  (reads_ue _).bind ((reads_ue _).bind (reads_pure _))

theorem reads_restriction (r : BitstreamRestriction) : Reads BitstreamRestriction.unmarshal r.code r :=
  (reads_flag _).bind <| (reads_ue _).bind <| (reads_ue _).bind <| (reads_ue _).bind <| (reads_ue _).bind <|
    (reads_ue _).bind <| (reads_ue _).bind <| reads_pure _

theorem reads_timing (info : TimingInfo) : Reads TimingInfo.unmarshal info.code info := by
  have fields : Reads (do
      let numUnitsInTick ← uint32 (readBitsUnsafe 32)
      let timeScale ← uint32 (readBitsUnsafe 32)
      let fixedFrameRateFlag ← readFlagUnsafe
      return { numUnitsInTick, timeScale, fixedFrameRateFlag : TimingInfo }) info.code info :=
    (reads_uint32 _).bind ((reads_uint32 _).bind ((reads_flagUnsafe _).bind (reads_pure _)))
  exact fields.spaced (by decide) (by simp [TimingInfo.code])

theorem reads_colour (colour : Colour) : Reads Colour.read colour.code colour :=
  Reads.spaced ((reads_uint8 (by decide) (UInt8.toNat_lt _)).bind <| (reads_uint8 (by decide) (UInt8.toNat_lt _)).bind <|
    (reads_uint8 (by decide) (UInt8.toNat_lt _)).bind <| reads_pure _) (by decide) (by simp [Colour.code])

theorem reads_signal (signal : VideoSignal) (format : signal.videoFormat.toNat < 2 ^ 3) :
    Reads VideoSignal.read signal.code signal :=
  Reads.spaced ((reads_uint8 (by decide) format).bind <| (reads_flagUnsafe _).bind <|
    (reads_optional _ _ reads_flagUnsafe fun colour _ => reads_colour colour).bind <| reads_pure _) (by decide)
    (by cases colour : signal.colourDescription <;> simp [VideoSignal.code, flagged, colour]; omega)

theorem reads_aspectRatio (ratio : AspectRatio) (valid : ratio.Valid) : Reads AspectRatio.read ratio.code ratio := by
  have idc : Reads (uint8 (readBits 8)) (digits 8 ratio.aspectRatioIdc.toNat) ratio.aspectRatioIdc := by
    have reads := (reads_fixed (show 0 < 8 by decide) ratio.aspectRatioIdc.toNat_lt).last (f := UInt64.toUInt8)
    rwa [UInt64.toUInt8_ofNat', UInt8.ofNat_toNat] at reads
  refine idc.bind ?_
  by_cases extended : ratio.aspectRatioIdc = 255
  · rw [if_pos extended, if_pos extended]
    have fields := (reads_uint16 ratio.sarWidth).bind (f := fun sarWidth => do
      let sarHeight ← uint16 (readBitsUnsafe 16)
      return { ratio with sarWidth, sarHeight }) (reads_uint16 ratio.sarHeight).last
    exact fields.spaced (by decide) (by simp)
  · obtain ⟨width, height⟩ := valid extended
    have same : ratio = { aspectRatioIdc := ratio.aspectRatioIdc, sarWidth := 0, sarHeight := 0 } := by
      cases ratio
      simp_all
    rw [if_neg extended, if_neg extended, ← same]
    exact reads_pure ratio

theorem reads_hrd (hrd : Hrd) (valid : hrd.Valid) : Reads Hrd.unmarshal hrd.code hrd := by
  have lengths : Reads (do
      hasSpace (5 + 5 + 5 + 5)
      let initialCpbRemovalDelayLengthMinus1 ← uint8 (readBitsUnsafe 5)
      let cpbRemovalDelayLengthMinus1 ← uint8 (readBitsUnsafe 5)
      let dpbOutputDelayLengthMinus1 ← uint8 (readBitsUnsafe 5)
      let timeOffsetLength ← uint8 (readBitsUnsafe 5)
      return { hrd with initialCpbRemovalDelayLengthMinus1, cpbRemovalDelayLengthMinus1, dpbOutputDelayLengthMinus1,
                        timeOffsetLength })
      [digits 5 hrd.initialCpbRemovalDelayLengthMinus1.toNat, digits 5 hrd.cpbRemovalDelayLengthMinus1.toNat,
        digits 5 hrd.dpbOutputDelayLengthMinus1.toNat, digits 5 hrd.timeOffsetLength.toNat].flatten hrd :=
    Reads.spaced ((reads_uint8 (by decide) valid.initial).bind <| (reads_uint8 (by decide) valid.removal).bind <|
      (reads_uint8 (by decide) valid.output).bind <| (reads_uint8 (by decide) valid.offset).bind <| reads_pure _)
      (by decide) (by simp)
  have entries := reads_times (r := HrdEntry.read) fun entry (_ : entry ∈ hrd.entries) => reads_hrdEntry entry
  rw [valid.count] at entries
  refine (reads_ue _).bind (Reads.spaced ?_ (by decide) (by simp; omega))
  refine Reads.unrefused (by simpa using valid.few) ?_
  exact (reads_uint8 (by decide) valid.bitRate).bind <| (reads_uint8 (by decide) valid.cpbSize).bind <| entries.bind lengths

theorem reads_vui (vui : Vui) (valid : vui.Valid) : Reads Vui.unmarshal vui.code vui :=
  (reads_optional _ _ reads_flag fun ratio mem => reads_aspectRatio ratio (valid.aspectRatio ratio mem)).bind <|
    (reads_optional _ _ reads_flag fun bit _ => reads_flag bit).bind <|
    (reads_optional _ _ reads_flag fun signal mem => reads_signal signal (valid.videoFormat signal mem)).bind <|
    (reads_optional _ _ reads_flag fun loc _ => reads_chromaLoc loc).bind <|
    (reads_optional _ _ reads_flag fun info _ => reads_timing info).bind <|
    (reads_optional _ _ reads_flag fun hrd mem => reads_hrd hrd (valid.nal hrd mem)).bind <|
    (reads_optional _ _ reads_flag fun hrd mem => reads_hrd hrd (valid.vcl hrd mem)).bind <|
    (reads_given (fun _ => reads_flag _) valid.lowDelay).bind <| (reads_flag _).bind <|
    (reads_optional _ _ reads_flag fun r _ => reads_restriction r).bind <| reads_pure _

/-! ## Scaling lists -/

theorem reads_delta (first useDefault : Bool) {lastScale next current : Int} (last : 0 < lastScale ∧ lastScale < 256)
    (range : 0 ≤ next ∧ next < 256) (reading : current ≠ 0) :
    Reads (nextScale first lastScale current useDefault) (golomb (signedNumber (wrapped (next - lastScale))))
      (next, first && next = 0) := by
  have delta : (Int32.ofInt (wrapped (next - lastScale))).toInt = wrapped (next - lastScale) :=
    Int32.toInt_ofInt_of_le (by unfold wrapped; omega) (by unfold wrapped; omega)
  have sum : (Int32.ofInt (lastScale + wrapped (next - lastScale) + 256)).toInt.tmod 256 = next := by
    rw [Int32.toInt_ofInt_of_le (by unfold wrapped; omega) (by unfold wrapped; omega),
      Int.tmod_eq_emod_of_nonneg (by unfold wrapped; omega)]
    unfold wrapped
    omega
  have reads := (reads_se (k := Int32.ofInt (wrapped (next - lastScale))) (by rw [delta]; unfold wrapped; omega)
    (by rw [delta]; unfold wrapped; omega)).last
    (f := fun deltaScale => ((Int32.ofInt (lastScale + deltaScale.toInt + 256)).toInt.tmod 256,
      first && decide ((Int32.ofInt (lastScale + deltaScale.toInt + 256)).toInt.tmod 256 = 0)))
  rw [delta, sum] at reads
  rw [nextScale, if_pos reading]
  exact reads

theorem reads_scale {n : Nat} {first useDefault flag : Bool} {lastScale current next : Int} {code more : Bits}
    {rest : ScalingList} (head : Reads (nextScale first lastScale current useDefault) code (next, flag))
    (tail : Reads (scales n false (if next = 0 then lastScale else next) next flag) more rest) :
    Reads (scales (n + 1) first lastScale current useDefault) (code ++ more)
      { rest with scales := (if next = 0 then lastScale else next) :: rest.scales } :=
  head.bind tail.last

theorem reads_repeated (n : Nat) (first useDefault : Bool) (lastScale : Int) :
    Reads (scales n first lastScale 0 useDefault) []
      { scales := List.replicate n lastScale, useDefaultScalingMatrixFlag := useDefault } := by
  induction n generalizing first with
  | zero => exact reads_pure _
  | succ n ih =>
    have head : Reads (nextScale first lastScale 0 useDefault) [] (0, useDefault) := by
      rw [nextScale, if_neg (by simp)]
      exact reads_pure _
    exact reads_scale head (ih false)

theorem reads_scales {n : Nat} {written : List Int} (first : Bool) {lastScale next : Int}
    (range : ∀ scale ∈ written, 0 < scale ∧ scale < 256) (fits : written.length ≤ n)
    (last : 0 < lastScale ∧ lastScale < 256) (reading : next ≠ 0) :
    Reads (scales n first lastScale next false)
      (deltas lastScale written ++
        if written.length < n then golomb (signedNumber (wrapped (0 - written.getLastD lastScale))) else [])
      { scales := written ++ List.replicate (n - written.length) (written.getLastD lastScale)
        useDefaultScalingMatrixFlag := first && written.isEmpty && decide (0 < n) } := by
  induction n generalizing written first lastScale next with
  | zero =>
    obtain rfl : written = [] := List.length_eq_zero_iff.mp (Nat.le_zero.mp fits)
    simpa [deltas, scales] using reads_pure (⟨[], false⟩ : ScalingList)
  | succ n ih =>
    cases written with
    | nil =>
      have reads := reads_scale (reads_delta first false last (show 0 ≤ (0 : Int) ∧ (0 : Int) < 256 by decide) reading)
        (reads_repeated n false (first && decide ((0 : Int) = 0)) lastScale)
      simpa [deltas, List.replicate_succ] using reads
    | cons scale written =>
      obtain ⟨positive, below⟩ := range scale List.mem_cons_self
      have nonzero : scale ≠ 0 := by omega
      have tail := ih false (fun other mem => range other (List.mem_cons_of_mem _ mem))
        (Nat.le_of_succ_le_succ fits) ⟨positive, below⟩ nonzero
      have head := reads_delta first false last (show 0 ≤ scale ∧ scale < 256 from ⟨by omega, below⟩) reading
      rw [decide_eq_false nonzero, Bool.and_false] at head
      have reads := reads_scale head (n := n) (by rw [if_neg nonzero]; exact tail)
      simpa [deltas, nonzero, List.getLast?_cons] using reads

theorem reads_scalingList {size : Nat} {list : ScalingList} {code : Bits} (some : 0 < size) (coded : list.Code size code) :
    Reads (readScalingList size) code list := by
  obtain ⟨written, range, fits, scales_eq, flag_eq, rfl⟩ := coded
  have reads := reads_scales true range fits (show 0 < (8 : Int) ∧ (8 : Int) < 256 by decide) (show (8 : Int) ≠ 0 by decide)
  rw [decide_eq_true some, Bool.and_true, Bool.true_and, ← scales_eq, ← flag_eq] at reads
  exact reads

/-- What the loop makes of lists from an index on. -/
def Chroma.appendAll : Chroma → Nat → List (Option ScalingList) → Chroma
  | chroma, _, [] => chroma
  | chroma, i, list :: rest => ((list.map (chroma.append i)).getD chroma).appendAll (i + 1) rest

theorem reads_scalingLists {i : Nat} {lists : List (Option ScalingList)} {code : Bits} (coded : ListsCode i lists code)
    (chroma : Chroma) : Reads (scalingLists lists.length i chroma) code (chroma.appendAll i lists) := by
  induction coded generalizing chroma with
  | nil i => exact reads_pure chroma
  | absent coded ih => exact (reads_optional (fun _ => []) none reads_flag (by simp)).bind (ih chroma)
  | @present i list rest code more coded coded' ih =>
    have size : 0 < listSize i := by unfold listSize; split <;> decide
    exact (reads_optional (fun _ => code) (some list) reads_flag
      (by rintro _ ⟨⟩; exact reads_scalingList size coded)).bind (ih _)

/-- The lists with an index below six come to the four by fours, the others to the eight by eights. -/
theorem appendAll_eq (chroma : Chroma) (i : Nat) (lists : List (Option ScalingList)) : chroma.appendAll i lists =
    { chroma with
      scalingList4x4 := chroma.scalingList4x4 ++ ((lists.take (6 - i)).filterMap id).map ScalingList.scales
      useDefaultScalingMatrix4x4Flag := chroma.useDefaultScalingMatrix4x4Flag ++
        ((lists.take (6 - i)).filterMap id).map ScalingList.useDefaultScalingMatrixFlag
      scalingList8x8 := chroma.scalingList8x8 ++ ((lists.drop (6 - i)).filterMap id).map ScalingList.scales
      useDefaultScalingMatrix8x8Flag := chroma.useDefaultScalingMatrix8x8Flag ++
        ((lists.drop (6 - i)).filterMap id).map ScalingList.useDefaultScalingMatrixFlag } := by
  induction lists generalizing chroma i with
  | nil => simp [Chroma.appendAll]
  | cons list rest ih =>
    rw [Chroma.appendAll, ih]
    by_cases low : i < 6
    · obtain ⟨left, more⟩ : ∃ left, 6 - i = left + 1 := ⟨5 - i, by omega⟩
      have fewer : 6 - (i + 1) = left := by omega
      cases list <;> simp [Chroma.append, low, more, fewer]
    · have none_ : 6 - i = 0 := by omega
      have none' : 6 - (i + 1) = 0 := by omega
      cases list <;> simp [Chroma.append, low, none_, none']

/-! ## The whole set -/

theorem reads_chroma {chroma : Chroma} {matrix : Option (List (Option ScalingList))} {code : Bits} (coded : chroma.Code matrix code) :
    Reads Chroma.read code chroma := by
  obtain ⟨separate, lists4x4, flags4x4, lists8x8, flags8x8, listsCode, coded, rfl⟩ := coded
  let plain : Chroma := {
    chromaFormatIdc := chroma.chromaFormatIdc
    separateColourPlaneFlag := chroma.separateColourPlaneFlag
    bitDepthLumaMinus8 := chroma.bitDepthLumaMinus8
    bitDepthChromaMinus8 := chroma.bitDepthChromaMinus8
    qpprimeYZeroTransformBypassFlag := chroma.qpprimeYZeroTransformBypassFlag }
  have lists : Reads (optional readFlag (scalingLists (matrixSize chroma.chromaFormatIdc) 0 plain)) (flagged listsCode matrix)
      (matrix.map (plain.appendAll 0)) := by
    cases matrix with
    | none => exact (reads_flag false).bind (reads_pure none)
    | some lists =>
      obtain ⟨length, coded⟩ := coded lists rfl
      have reads := reads_scalingLists coded plain
      rw [length] at reads
      exact (reads_flag true).bind reads.last
  have filled : (matrix.map (plain.appendAll 0)).getD plain = chroma := by
    have kept : (matrix.map (plain.appendAll 0)).getD plain = plain.appendAll 0 (matrix.getD []) := by cases matrix <;> rfl
    rw [kept, appendAll_eq]
    simp only [plain, List.nil_append, Nat.sub_zero, ← lists4x4, ← flags4x4, ← lists8x8, ← flags8x8]
  have last : Reads (pure ((matrix.map (plain.appendAll 0)).getD plain)) [] chroma := by
    rw [filled]
    exact reads_pure chroma
  exact (reads_ue _).bind <| (reads_given (fun _ => reads_flag _) separate).bind <| (reads_ue _).bind <|
    (reads_ue _).bind <| (reads_flag _).bind <| lists.bind last

theorem reads_signed {k : Int32} (signed : Signed k) : Reads readGolombSigned (se k) k := reads_se signed.1 signed.2

theorem reads_picOrderCnt (cnt : PicOrderCnt) (valid : cnt.Valid) : Reads PicOrderCnt.read cnt.code cnt := by
  cases cnt with
  | lsb log2Max => exact (reads_ue 0).bind (reads_ue log2Max).last
  | cycle zero nonRef topToBottom offsets =>
    obtain ⟨signedNonRef, signedTop, few, signed⟩ := valid
    have count : (UInt32.ofNat offsets.length).toNat = offsets.length := by
      rw [UInt32.toNat_ofNat']
      omega
    have num := reads_ue (UInt32.ofNat offsets.length)
    have times := reads_times (r := readGolombSigned) fun offset mem => reads_signed (signed offset mem)
    rw [count] at num
    refine (reads_ue 1).bind <| (reads_flag _).bind <| (reads_signed signedNonRef).bind <| (reads_signed signedTop).bind <|
      num.bind <| Reads.unrefused ?_ ?_
    · rw [UInt32.lt_iff_toNat_lt, count]
      exact Nat.not_lt.mpr few
    · rw [count]
      exact times.bind (reads_pure _)
  | none => exact (reads_ue 2).bind (reads_pure _)

theorem reads_sps {sps : SPS} {matrix : Option (List (Option ScalingList))} {code : Bits} {constraints : UInt8}
    (coded : sps.Code matrix code)
    (flags : [sps.constraintSet0Flag, sps.constraintSet1Flag, sps.constraintSet2Flag, sps.constraintSet3Flag,
      sps.constraintSet4Flag, sps.constraintSet5Flag] = [7, 6, 5, 4, 3, 2].map constraints.toNat.testBit) :
    Reads (SPS.read sps.profileIdc constraints sps.levelIdc) code sps := by
  obtain ⟨picOrderCnt, adaptive, plain, vui, chroma, chromaCoded, rfl⟩ := coded
  simp only [List.map_cons, List.map_nil, List.cons.injEq, and_true] at flags
  obtain ⟨flag0, flag1, flag2, flag3, flag4, flag5⟩ := flags
  refine (reads_ue _).bind <| (reads_given (fun has => reads_chroma (chromaCoded has)) plain).bind <| (reads_ue _).bind <|
    (reads_picOrderCnt _ picOrderCnt).bind <| (reads_ue _).bind <| (reads_flag _).bind <| (reads_ue _).bind <|
    (reads_ue _).bind <| (reads_flag _).bind <| (reads_given (fun _ => reads_flag _) adaptive).bind <|
    (reads_flag _).bind <| (reads_optional _ _ reads_flag fun cropping _ => reads_cropping cropping).bind <|
    (reads_optional _ _ reads_flag fun v mem => reads_vui v (vui v mem)).bind ?_
  rw [← flag0, ← flag1, ← flag2, ← flag3, ← flag4, ← flag5]
  exact reads_pure sps

/-- A camera's set, with a scaling matrix that has all lists of the first kind and none of the
second. -/
def wqhd : SPS where
  profileIdc := 100
  constraintSet0Flag := false
  constraintSet1Flag := false
  constraintSet2Flag := false
  constraintSet3Flag := false
  constraintSet4Flag := false
  constraintSet5Flag := false
  levelIdc := 50
  id := 0
  chroma := { scalingList4x4 := .replicate 6 (.replicate 16 16), useDefaultScalingMatrix4x4Flag := .replicate 6 false }
  log2MaxFrameNumMinus4 := 6
  picOrderCnt := .none
  maxNumRefFrames := 1
  gapsInFrameNumValueAllowedFlag := true
  picWidthInMbsMinus1 := 159
  picHeightInMapUnitsMinus1 := 89
  frameMbsOnlyFlag := true
  mbAdaptiveFrameFieldFlag := false
  direct8x8InferenceFlag := true
  frameCropping := none
  vui := some {
    aspectRatioInfo := none, overscanAppropriateFlag := none
    videoSignalType := some { videoFormat := 5, videoFullRangeFlag := true, colourDescription := some ⟨1, 1, 1⟩ }
    chromaLocInfo := none, timingInfo := some { numUnitsInTick := 1, timeScale := 40, fixedFrameRateFlag := true }
    nalHRD := none, vclHRD := none, lowDelayHrdFlag := false, picStructPresentFlag := false, bitstreamRestriction := none }

end Ironsight.Sps
