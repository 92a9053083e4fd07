import Ironsight.DtsInvariants
import Mathlib.Tactic.Linarith
import Mathlib.Tactic.Zify

/-! What the DTS extractor makes of a well-formed stream: it reads the count of a picture
out of its slice, finds how much later the picture is shown than decoded, and once it knows
how many pictures are reordered, its DTS keep the pace of the stream. -/
namespace Ironsight.DtsTiming
open BitStrings BitReader Sps DtsExtractor DTSExtractor DtsInvariants
open EmulationPrevention hiding Bytes
open Runs hiding Fault

/-- A parameter set of the standard that the extractor counts with. -/
structure Counted (sps : SPS) : Prop where
  lsb : picOrderCntType sps = 0
  frames : sps.frameMbsOnlyFlag = true
  frameNum_le : sps.log2MaxFrameNumMinus4.toNat ≤ 12
  picOrderCnt_le : (log2MaxPicOrderCntLsbMinus4 sps).toNat ≤ 12

/-- The width of a frame number. -/
def frameNumWidth (sps : SPS) : Nat := sps.log2MaxFrameNumMinus4.toNat + 4

/-- The width of a picture order count. -/
def countWidth (sps : SPS) : Nat := (log2MaxPicOrderCntLsbMinus4 sps).toNat + 4

/-- What a slice header carries of a count. -/
def lsb (sps : SPS) (count : Int) : Nat := (count % 2 ^ countWidth sps).toNat

/-- The fields of a slice header up to its picture order count. An IDR has an id. -/
structure SliceHeader where
  firstMbInSlice : UInt32
  sliceType : UInt32
  picParameterSetId : UInt32
  frameNum : Nat
  idrPicId : Option UInt32
  picOrderCnt : Int
  deriving DecidableEq

def SliceHeader.code (sps : SPS) (header : SliceHeader) : Bits :=
  ue header.firstMbInSlice ++ (ue header.sliceType ++ (ue header.picParameterSetId ++
    (digits (frameNumWidth sps) header.frameNum ++ (header.idrPicId.elim [] ue ++
      digits (countWidth sps) (lsb sps header.picOrderCnt)))))

/-- A slice with this header; the header ends in the part that is read of a slice. -/
structure Slice (sps : SPS) (header : SliceHeader) (nalu : Bytes) : Prop where
  frameNum_lt : header.frameNum < 2 ^ frameNumWidth sps
  short : (header.code sps).length ≤ 120
  written : ∃ first payload rest, nalu = first :: inserted payload ∧
    first &&& 0x1F = (if header.idrPicId.isSome then 5 else 1) ∧ bits payload = header.code sps ++ rest

section Counts
variable {sps : SPS}

theorem toNat_width (v : UInt32) (le : v.toNat ≤ 12) : (v + 4).toNat = v.toNat + 4 := by
  rw [UInt32.toNat_add]
  exact Nat.mod_eq_of_lt (by change v.toNat + 4 < 4294967296; omega)

theorem lsb_lt (sps : SPS) (count : Int) : lsb sps count < 2 ^ countWidth sps := by
  have pos : (0 : Int) < 2 ^ countWidth sps := Int.pow_pos (by decide)
  rw [lsb, Int.toNat_lt (Int.emod_nonneg count pos.ne')]
  exact_mod_cast Int.emod_lt_of_pos count pos

/-! ## The count of a slice -/

theorem reads_pictureOrderCount (counted : Counted sps) {header : SliceHeader} (fits : header.frameNum < 2 ^ frameNumWidth sps) :
    Reads (readPictureOrderCount sps header.idrPicId.isSome) (header.code sps) (UInt32.ofNat (lsb sps header.picOrderCnt)) := by
  have frameNum := reads_fixed (show 0 < frameNumWidth sps by unfold frameNumWidth; omega) fits
  have count := (reads_fixed (show 0 < countWidth sps by unfold countWidth; omega) (lsb_lt sps header.picOrderCnt)).last
    (f := UInt64.toUInt32)
  rw [UInt64.toUInt32_ofNat'] at count
  rw [frameNumWidth, ← toNat_width _ counted.frameNum_le] at frameNum
  rw [countWidth, ← toNat_width _ counted.picOrderCnt_le] at count
  have id : Reads (given (header.idrPicId.isSome = true) readGolombUnsigned 0) (header.idrPicId.elim [] ue)
      (header.idrPicId.getD 0) := by
    cases header.idrPicId with
    | none => exact reads_pure 0
    | some id => exact reads_ue id
  refine (reads_ue _).bind <| (reads_ue _).bind <| (reads_ue _).bind ?_
  rw [frameNumWidth, countWidth, ← toNat_width _ counted.frameNum_le, ← toNat_width _ counted.picOrderCnt_le]
  exact frameNum.bind (id.bind count)

/-- The count of a slice is what its header says, wherever emulation prevention bytes had to go. -/
theorem getPictureOrderCount_slice (counted : Counted sps) {header : SliceHeader} {nalu : Bytes} (slice : Slice sps header nalu) :
    getPictureOrderCount nalu sps header.idrPicId.isSome = .ok (UInt32.ofNat (lsb sps header.picOrderCnt)) := by
  obtain ⟨first, payload, rest, rfl, -, written⟩ := slice.written
  obtain ⟨part, enough⟩ := removed_take_inserted payload maxBytesToGetPOC
  have short := slice.short
  have length := congrArg List.length written
  rw [length_bits, List.length_append] at length
  have covered : header.code sps <+: bits (removed ((inserted payload).take maxBytesToGetPOC)) := by
    obtain ⟨more, same⟩ := part
    have whole : header.code sps ++ rest = bits (removed ((inserted payload).take maxBytesToGetPOC)) ++ bits more := by
      rw [← written, ← bits_append, same]
    refine List.prefix_of_prefix_length_le ⟨rest, rfl⟩ ⟨bits more, whole.symm⟩ ?_
    rw [length_bits]
    have : maxBytesToGetPOC = 22 := rfl
    omega
  obtain ⟨behind, here⟩ := covered
  have reads := reads_pictureOrderCount counted slice.frameNum_lt (show (bits _).drop 0 = _ ++ behind from here.symm)
  rw [getPictureOrderCount, emulationPreventionRemove_eq]
  dsimp only
  rw [reads]
  rfl

/-! ## Differences of counts -/

theorem toNat_maxVal (counted : Counted sps) : (maxVal sps).toNat = 2 ^ countWidth sps := by
  have small := toNat_width _ counted.picOrderCnt_le
  have := counted.picOrderCnt_le
  have below : log2MaxPicOrderCntLsbMinus4 sps + 4 < 32 := by
    rw [UInt32.lt_iff_toNat_lt, small]
    change _ < 32
    omega
  have exponent : ((log2MaxPicOrderCntLsbMinus4 sps).toNat + 4) % 32 = countWidth sps := Nat.mod_eq_of_lt (by omega)
  have : 2 ^ countWidth sps ≤ 2 ^ 16 := Nat.pow_le_pow_right (by decide) (by unfold countWidth; omega)
  rw [maxVal, if_pos below, UInt32.toNat_shiftLeft, small, exponent, Nat.shiftLeft_eq]
  change 1 * _ % 2 ^ 32 = _
  omega

theorem and_maxVal (counted : Counted sps) (v : UInt32) : (v &&& (maxVal sps - 1)).toNat = v.toNat % 2 ^ countWidth sps := by
  have pos : 0 < 2 ^ countWidth sps := Nat.two_pow_pos _
  have one_le : (1 : UInt32) ≤ maxVal sps := by
    rw [UInt32.le_iff_toNat_le, toNat_maxVal counted]
    exact pos
  rw [UInt32.toNat_and, UInt32.toNat_sub_of_le _ _ one_le, toNat_maxVal counted]
  exact Nat.and_two_pow_sub_one_eq_mod ..

theorem countWidth_le (counted : Counted sps) : 2 ^ 4 ≤ 2 ^ countWidth sps ∧ 2 ^ countWidth sps ≤ 2 ^ 16 := by
  have := counted.picOrderCnt_le
  exact ⟨Nat.pow_le_pow_right (by decide) (by unfold countWidth; omega),
    Nat.pow_le_pow_right (by decide) (by unfold countWidth; omega)⟩

theorem toNat_lsb (counted : Counted sps) (count : Int) : (UInt32.ofNat (lsb sps count)).toNat = lsb sps count := by
  have := lsb_lt sps count
  have := (countWidth_le counted).2
  rw [UInt32.toNat_ofNat']
  exact Nat.mod_eq_of_lt (by omega)

theorem cast_lsb (count : Int) : (lsb sps count : Int) = count % 2 ^ countWidth sps :=
  Int.toNat_of_nonneg (Int.emod_nonneg _ (Int.pow_pos (by decide)).ne')

theorem width_dvd (counted : Counted sps) : 2 ^ countWidth sps ∣ 2 ^ 32 := by
  have := counted.picOrderCnt_le
  exact Nat.pow_dvd_pow 2 (by unfold countWidth; omega)

/-- The count expected next, from the one expected before. -/
theorem lsb_advance (counted : Counted sps) (count : Int) {increment : Int}
    (known : increment = 1 ∨ increment = 2 ∨ increment = 4) :
    (UInt32.ofNat (lsb sps count) + UInt32.ofInt increment) &&& (maxVal sps - 1) =
      UInt32.ofNat (lsb sps (count + increment)) := by
  apply UInt32.toNat_inj.mp
  have cast : ((UInt32.ofInt increment).toNat : Int) = increment := by obtain rfl | rfl | rfl := known <;> rfl
  rw [and_maxVal counted, UInt32.toNat_add, Nat.mod_mod_of_dvd _ (width_dvd counted), toNat_lsb counted, toNat_lsb counted]
  zify
  rw [cast_lsb, cast_lsb, cast, Int.emod_add_emod]

theorem toNat_masked_sub (counted : Counted sps) (a b : Int) :
    (((UInt32.ofNat (lsb sps a) - UInt32.ofNat (lsb sps b)) &&& (maxVal sps - 1)).toNat : Int) =
      (a - b) % 2 ^ countWidth sps := by
  have below := lsb_lt sps b
  have most := (countWidth_le counted).2
  rw [and_maxVal counted, UInt32.toNat_sub, Nat.mod_mod_of_dvd _ (width_dvd counted), toNat_lsb counted, toNat_lsb counted]
  have multiple : (2 : Int) ^ 32 % 2 ^ countWidth sps = 0 :=
    Int.emod_eq_zero_of_dvd (by exact_mod_cast width_dvd counted)
  rw [Int.natCast_mod, Nat.cast_add, Nat.cast_sub (by omega), cast_lsb, cast_lsb]
  push_cast
  rw [Int.add_emod_emod, ← Int.emod_add_emod, Int.sub_emod_emod, Int.emod_add_emod]
  have split : 4294967296 - b + a = a - b + 2 ^ 32 := by ring
  rw [split, ← Int.add_emod_emod, multiple, Int.add_zero]

/-- Counts that are less than half the range apart are told apart, across the wrap. -/
theorem pictureOrderCountDiff_lsb (counted : Counted sps) {a b : Int} (low : -2 ^ countWidth sps < 2 * (a - b))
    (high : 2 * (a - b) ≤ 2 ^ countWidth sps) :
    (pictureOrderCountDiff (UInt32.ofNat (lsb sps a)) (UInt32.ofNat (lsb sps b)) sps).toInt = a - b := by
  have masked := toNat_masked_sub counted a b
  have ⟨least, most⟩ := countWidth_le counted
  have max_eq := toNat_maxVal counted
  rw [pictureOrderCountDiff]
  generalize (UInt32.ofNat (lsb sps a) - UInt32.ofNat (lsb sps b)) &&& (maxVal sps - 1) = d at masked ⊢
  generalize maxVal sps = top at max_eq ⊢
  have power : ((2 ^ countWidth sps : Nat) : Int) = 2 ^ countWidth sps := by push_cast; rfl
  rw [← power] at masked low high
  generalize 2 ^ countWidth sps = m at *
  have toInt32 : ∀ v : UInt32, v.toNat ≤ 2 ^ 16 → v.toInt32.toInt = v.toNat := by
    intro v small
    rw [← UInt32.ofNat_toNat (x := v), UInt32.toInt32_ofNat', Int32.toInt_ofNat_of_lt (by omega), UInt32.ofNat_toNat]
  have d_lt : d.toNat < m := by
    zify
    rw [masked]
    exact Int.emod_lt_of_pos _ (by omega)
  by_cases negative : a < b
  · have wrapped : (d.toNat : Int) = a - b + m := by
      rw [masked, ← Int.add_emod_right, Int.emod_eq_of_lt (by omega) (by omega)]
    rw [if_pos (by rw [gt_iff_lt, UInt32.lt_iff_toNat_lt, UInt32.toNat_div, max_eq]; change m / 2 < _; omega),
      Int32.toInt_sub, toInt32 d (by omega), toInt32 top (by omega), max_eq, wrapped]
    rw [Int.bmod_eq_of_le (by omega) (by omega)]
    omega
  · have plain : (d.toNat : Int) = a - b := by rw [masked, Int.emod_eq_of_lt (by omega) (by omega)]
    rw [if_neg (by rw [gt_iff_lt, UInt32.lt_iff_toNat_lt, UInt32.toNat_div, max_eq]; change ¬ m / 2 < _; omega),
      toInt32 d (by omega), plain]

end Counts

/-! ## One picture -/

/-- What the first five pictures from an IDR leave, whose counts are these, the latest first. -/
structure Recalls (sps : SPS) (since : List Int) (d : DTSExtractor) : Prop where
  auCount : d.auCount = min since.length 5
  prevPOC : ∀ prev ∈ since[0]?, since.length < 5 → d.prevPOC = UInt32.ofNat (lsb sps prev)
  prevPrevPOC : ∀ prev ∈ since[1]?, since.length < 5 → d.prevPrevPOC = UInt32.ofNat (lsb sps prev)

/-- The extractor has counted up to a picture. -/
structure Counting (sps : SPS) (increment count : Int) (since : List Int) (d : DTSExtractor) : Prop where
  random : d.randomReceived = true
  expected : d.expectedPOC = UInt32.ofNat (lsb sps count)
  even : increment = 2 → count % 2 = 0
  recalls : increment = 2 → Recalls sps since d

/-- The extractor has the parameter set, knows how counts grow and how many pictures are
reordered, and no pause is left to take. -/
structure Settled (sps : SPS) (own : Bytes) (increment reordered : Int) (d : DTSExtractor) : Prop where
  own : d.sps = own
  spsp : d.spsp = some sps
  reordered : d.reorderedFrames = reordered
  pause : d.pause = 0
  pocIncrement : d.pocIncrement = increment

/-- Settled, and counting as soon as there was an IDR. -/
structure Steady (sps : SPS) (own : Bytes) (increment reordered count : Int) (since : List Int) (d : DTSExtractor) : Prop
    extends Settled sps own increment reordered d where
  counting : since ≠ [] → Counting sps increment count since d

/-- A NAL unit in front of a slice that says nothing new. -/
def Silent (own nalu : Bytes) : Prop :=
  ∃ first rest, nalu = first :: rest ∧ first &&& 0x1F ≠ 5 ∧ first &&& 0x1F ≠ 1 ∧ (first &&& 0x1F = 7 → nalu = own)

/-- The last two counts and this one rise by four each, to a multiple of four, as the
slices carry them: what the code takes for counts that grow by four. -/
def RisesByFour (sps : SPS) (since : List Int) (count : Int) : Prop :=
  ∃ prev ∈ since[0]?, ∃ prevPrev ∈ since[1]?,
    lsb sps count % 4 = 0 ∧ lsb sps count = lsb sps prev + 4 ∧ lsb sps prev = lsb sps prevPrev + 4

/-- How many pictures later than decoded it is shown, with its presentation time. -/
structure Picture where
  late : Int
  units : List Bytes
  pts : Int64

/-- The access unit of the picture that follows the one with this count, and the ones since
the last IDR with these. The counting starts again at an IDR, which is never reordered. Of
counts that grow by two, the first five from an IDR must not rise as if they grew by four. -/
structure Follows (sps : SPS) (own : Bytes) (increment count next : Int) (since : List Int) (picture : Picture)
    (header : SliceHeader) : Prop where
  units : ∃ before slice after, picture.units = before ++ slice :: after ∧ (∀ nalu ∈ before, Silent own nalu) ∧
    Slice sps header slice
  counted : header.picOrderCnt = next + increment * picture.late
  near : -2 ^ countWidth sps < 2 * (increment * picture.late) ∧ 2 * (increment * picture.late) ≤ 2 ^ countWidth sps
  start : header.idrPicId.isSome → picture.late = 0 ∧ (increment = 2 → next % 2 = 0)
  onwards : header.idrPicId = none → since ≠ [] ∧ next = count + increment ∧
    (increment = 2 → since.length < 5 → ¬ RisesByFour sps since header.picOrderCnt)

/-- The counts since the last IDR, with this picture. -/
def SliceHeader.since (header : SliceHeader) (since : List Int) : List Int :=
  if header.idrPicId.isSome then [header.picOrderCnt] else header.picOrderCnt :: since

section Pictures
variable {sps : SPS} {own : Bytes} {increment reordered count next : Int} {since : List Int} {d : DTSExtractor}

theorem scan_silent {before : List Bytes} (units : List Bytes) (silent : ∀ nalu ∈ before, Silent d.sps nalu) (nonZero : Bool) :
    ∃ nonZero', scan (before ++ units) d nonZero = scan units d nonZero' := by
  induction before generalizing nonZero with
  | nil => exact ⟨nonZero, rfl⟩
  | cons nalu before ih =>
    obtain ⟨first, rest, rfl, noIDR, noSlice, own⟩ := silent nalu List.mem_cons_self
    obtain ⟨nonZero', same⟩ := ih (fun other mem => silent other (List.mem_cons_of_mem _ mem))
      (nonZero || decide (first &&& 0x60 > 0))
    refine ⟨nonZero', ?_⟩
    rw [List.cons_append, scan]
    split
    next set =>
      rw [if_pos (own set).symm]
      exact same
    next idr => exact absurd idr noIDR
    next slice => exact absurd slice noSlice
    next => exact same

theorem scan_slice {header : SliceHeader} {slice : Bytes} (written : Slice sps header slice) (after : List Bytes)
    (nonZero : Bool) :
    ∃ nonZero', scan (slice :: after) d nonZero =
      (d, .ok { slice := some (header.idrPicId.isSome, slice), nonZeroNalRefIDFound := nonZero' }) := by
  obtain ⟨first, payload, rest, rfl, type, -⟩ := written.written
  refine ⟨nonZero || decide (first &&& 0x60 > 0), ?_⟩
  rw [scan, type]
  cases header.idrPicId <;> rfl

theorem lsb_even (counted : Counted sps) (even : next % 2 = 0) : ¬ UInt32.ofNat (lsb sps next) % 2 ≠ 0 := by
  rw [not_not]
  apply UInt32.toNat_inj.mp
  rw [UInt32.toNat_mod, toNat_lsb counted]
  change lsb sps next % 2 = 0
  have dvd : (2 : Int) ∣ 2 ^ countWidth sps := dvd_pow_self 2 (by unfold countWidth; omega)
  zify
  rw [cast_lsb, Int.emod_emod_of_dvd _ dvd, even]

theorem risesByFour_of_code (counted : Counted sps) {prev prevPrev count : Int} (fourth : UInt32.ofNat (lsb sps count) % 4 = 0)
    (first : UInt32.ofNat (lsb sps count) = UInt32.ofNat (lsb sps prev) + 4)
    (second : UInt32.ofNat (lsb sps prev) = UInt32.ofNat (lsb sps prevPrev) + 4) :
    lsb sps count % 4 = 0 ∧ lsb sps count = lsb sps prev + 4 ∧ lsb sps prev = lsb sps prevPrev + 4 := by
  have most := (countWidth_le counted).2
  have plus : ∀ other : Int, (UInt32.ofNat (lsb sps other) + 4).toNat = lsb sps other + 4 := by
    intro other
    have below := lsb_lt sps other
    rw [UInt32.toNat_add, toNat_lsb counted]
    exact Nat.mod_eq_of_lt (by change lsb sps other + 4 < 4294967296; omega)
  refine ⟨?_, ?_, ?_⟩
  · have := congrArg UInt32.toNat fourth
    rwa [UInt32.toNat_mod, toNat_lsb counted] at this
  · rw [← toNat_lsb counted count, first, plus]
  · rw [← toNat_lsb counted prev, second, plus]

/-- Where counts grow by two, the code finds nothing that speaks against it, and goes on recalling. -/
theorem detect_counting (counted : Counted sps) (known : d.pocIncrement = increment)
    (counting : Counting sps increment count since d) {poc : Int} (even : increment = 2 → poc % 2 = 0)
    (calm : increment = 2 → since.length < 5 → ¬ RisesByFour sps since poc) :
    ∃ auCount prevPrev prev,
      d.detect (UInt32.ofNat (lsb sps poc)) = ({ d with auCount := auCount, prevPrevPOC := prevPrev, prevPOC := prev }, .ok ()) ∧
      (increment = 2 →
        Recalls sps (poc :: since) { d with auCount := auCount, prevPrevPOC := prevPrev, prevPOC := prev }) := by
  rw [detect]
  by_cases early : d.auCount < 5 ∧ d.pocIncrement = 2
  · have two : increment = 2 := known.symm.trans early.2
    have recalls := counting.recalls two
    have few : since.length < 5 := by have := recalls.auCount; omega
    have level : ¬ (d.auCount ≥ 2 ∧ UInt32.ofNat (lsb sps poc) % 4 = 0 ∧ UInt32.ofNat (lsb sps poc) = d.prevPOC + 4 ∧
        d.prevPOC = d.prevPrevPOC + 4) := by
      rintro ⟨several, fourth, first, second⟩
      have length : 2 ≤ since.length := by have := recalls.auCount; omega
      have prev := recalls.prevPOC since[0] (List.getElem?_eq_getElem _) few
      have prevPrev := recalls.prevPrevPOC since[1] (List.getElem?_eq_getElem _) few
      rw [prev] at first
      rw [prev, prevPrev] at second
      exact calm two few ⟨_, List.getElem?_eq_getElem _, _, List.getElem?_eq_getElem _,
        risesByFour_of_code counted fourth first second⟩
    rw [if_pos early]
    dsimp only
    rw [if_neg (lsb_even counted (even two)), if_neg level]
    refine ⟨_, _, _, rfl, fun _ => ⟨?_, ?_, ?_⟩⟩
    · have := recalls.auCount
      simp only [List.length_cons]
      omega
    · rintro prev ⟨⟩ _
      rfl
    · intro prev mem _
      exact recalls.prevPOC prev mem few
  · rw [if_neg early]
    refine ⟨_, _, _, rfl, fun two => ?_⟩
    have recalls := counting.recalls two
    have many : 5 ≤ since.length := by
      have := recalls.auCount
      have := known.trans two
      omega
    refine ⟨?_, fun _ _ few => absurd few (by simp; omega), fun _ _ few => absurd few (by simp; omega)⟩
    have := recalls.auCount
    simp only [List.length_cons]
    omega

theorem diffOfNonIDR_steady (counted : Counted sps) (known : increment = 1 ∨ increment = 2 ∨ increment = 4)
    (steady : Steady sps own increment reordered count since d) {picture : Picture} {header : SliceHeader} {slice : Bytes}
    (written : Slice sps header slice) (follows : Follows sps own increment count next since picture header)
    (plain : header.idrPicId = none) :
    ∃ d', d.diffOfNonIDR sps slice = (d', .ok picture.late) ∧
      Steady sps own increment reordered next (header.picOrderCnt :: since) d' ∧ d'.prevDTS = d.prevDTS := by
  obtain ⟨started, rfl, calm⟩ := follows.onwards plain
  have counting := steady.counting started
  have even : increment = 2 → (count + increment) % 2 = 0 := fun two => by have := counting.even two; omega
  have count_eq := getPictureOrderCount_slice counted written
  obtain ⟨auCount, prevPrev, prev, detected, recalls⟩ := detect_counting counted steady.pocIncrement counting
    (fun two => by rw [follows.counted, two]; have := even two; omega) calm
  have advanced :
      (({ d with auCount := auCount, prevPrevPOC := prevPrev, prevPOC := prev } : DTSExtractor).advance sps).expectedPOC =
      UInt32.ofNat (lsb sps (count + increment)) := by
    rw [← lsb_advance counted count known, ← steady.pocIncrement, ← counting.expected]
    rfl
  have diff : quotient (pictureOrderCountDiff (UInt32.ofNat (lsb sps header.picOrderCnt))
      (UInt32.ofNat (lsb sps (count + increment))) sps).toInt increment = .ok picture.late := by
    have apart : header.picOrderCnt - (count + increment) = increment * picture.late := by rw [follows.counted]; ring
    rw [pictureOrderCountDiff_lsb counted (by rw [apart]; exact follows.near.1) (by rw [apart]; exact follows.near.2), apart,
      quotient, if_neg (by omega), Int.mul_tdiv_cancel_left _ (by omega)]
  rw [plain] at count_eq
  refine ⟨({ d with auCount := auCount, prevPrevPOC := prevPrev, prevPOC := prev } : DTSExtractor).advance sps, ?_,
    ⟨⟨steady.own, steady.spsp, steady.reordered, steady.pause, steady.pocIncrement⟩,
      fun _ => ⟨counting.random, advanced, even, fun two => ⟨(recalls two).1, (recalls two).2, (recalls two).3⟩⟩⟩, rfl⟩
  rw [diffOfNonIDR, show getPictureOrderCount slice sps false = _ from count_eq]
  dsimp only
  rw [andThen_ok detected, advanced]
  change (_, quotient _ d.pocIncrement) = _
  rw [steady.pocIncrement, diff]

theorem diffOfIDR_steady (counted : Counted sps)
    (settled : Settled sps own increment reordered d) {picture : Picture} {header : SliceHeader} {slice : Bytes}
    (written : Slice sps header slice) (follows : Follows sps own increment count next since picture header)
    (idr : header.idrPicId.isSome) :
    ∃ d', ({ d with randomReceived := true } : DTSExtractor).diffOfIDR sps slice = (d', .ok picture.late) ∧
      Steady sps own increment reordered next [header.picOrderCnt] d' ∧ d'.prevDTS = d.prevDTS := by
  obtain ⟨late, even⟩ := follows.start idr
  have own_count : header.picOrderCnt = next := by rw [follows.counted, late, Int.mul_zero, Int.add_zero]
  have count_eq := getPictureOrderCount_slice counted written
  rw [idr, own_count] at count_eq
  rw [diffOfIDR, count_eq, late, own_count]
  dsimp only
  refine ⟨_, rfl, ?_⟩
  rw [startAt]
  dsimp only
  split
  next two =>
    have by_two : increment = 2 := settled.pocIncrement.symm.trans two
    rw [if_neg (lsb_even counted (even by_two))]
    refine ⟨⟨⟨settled.own, settled.spsp, settled.reordered, settled.pause, by_two.symm⟩, fun _ => ⟨rfl, rfl, even, fun _ => ?_⟩⟩, rfl⟩
    exact ⟨rfl, by rintro prev ⟨⟩ _; rfl, by rintro prev ⟨⟩⟩
  next other =>
    exact ⟨⟨⟨settled.own, settled.spsp, settled.reordered, settled.pause, settled.pocIncrement⟩,
      fun _ => ⟨rfl, rfl, even, fun two => absurd (settled.pocIncrement.trans two) other⟩⟩, rfl⟩

theorem settle_steady (settled : Settled sps own increment reordered d) {late : Int} (first : -reordered ≤ late)
    (last : late ≤ reordered + 1) : d.settle late = (d, .ok (late + reordered)) := by
  rw [settle, settled.reordered]
  dsimp only
  rw [if_neg (by omega), if_neg (by omega)]

/-- What a picture leaves of the error of the DTS before it. -/
def remaining (reordered error late : Int) : Int := error * (late + reordered) / (late + reordered + 1)

theorem remaining_bounds {error late : Int} (first : -reordered ≤ late) (nonneg : 0 ≤ error) :
    0 ≤ remaining reordered error late ∧ remaining reordered error late ≤ error ∧
      remaining reordered error late * (late + reordered + 1) ≤ error * (late + reordered) := by
  have pos : 0 < late + reordered + 1 := by omega
  have product : 0 ≤ error * (late + reordered) := Int.mul_nonneg nonneg (by omega)
  refine ⟨Int.ediv_nonneg product pos.le, ?_, Int.ediv_mul_le _ pos.ne'⟩
  refine Int.ediv_le_of_le_mul pos ?_
  rw [mul_add _ (late + reordered)]
  omega

/-- The distance from the previous DTS to the presentation, shared out. -/
theorem share {late : Int} (error period : Int) (first : -reordered ≤ late) :
    ((late + reordered + 1) * period - error) / (late + reordered + 1) = period - error + remaining reordered error late := by
  have pos : late + reordered + 1 ≠ 0 := by omega
  have split : (late + reordered + 1) * period - error =
      error * (late + reordered) + (late + reordered + 1) * (period - error) := by ring
  rw [split, Int.add_mul_ediv_left _ _ pos, remaining]
  ring

theorem dtsOf_steady {prev pts : Int64} {error late period : Int} (settled : Settled sps own increment reordered d)
    (known : d.prevDTS = some prev) (first : -reordered ≤ late) (last : late ≤ reordered + 1) (few : reordered ≤ maxReorderedFrames)
    (nonneg : 0 ≤ error) (small : error ≤ period) (fits : 22 * period < 2 ^ 63)
    (shown : pts.toInt = prev.toInt - error + (late + reordered + 1) * period) :
    ∃ dts, d.dtsOf pts (late + reordered) = (d, .ok (dts, false)) ∧
      dts.toInt = prev.toInt - error + period + remaining reordered error late ∧ prev.toInt ≤ dts.toInt ∧ dts.toInt ≤ pts.toInt := by
  have most : maxReorderedFrames = 10 := rfl
  obtain ⟨k, k_eq⟩ : ∃ k, k = late + reordered + 1 := ⟨_, rfl⟩
  have shared := share error period first
  have bounds := remaining_bounds first nonneg
  rw [← k_eq] at shown shared bounds
  have below : k * period ≤ 22 * period := Int.mul_le_mul_of_nonneg_right (by omega) (by omega)
  have above : 1 * period ≤ k * period := Int.mul_le_mul_of_nonneg_right (by omega) (by omega)
  have distance : (pts - prev).toInt = k * period - error := by
    rw [Int64.toInt_sub, shown, Int.bmod_eq_of_le (by omega) (by omega)]
    omega
  have divisor : (Int64.ofInt (late + reordered) + 1).toInt = k := by
    rw [Int64.toInt_add, Int64.toInt_ofInt_of_le (by omega) (by omega)]
    change (late + reordered + 1).bmod (2 ^ 64) = k
    rw [Int.bmod_eq_of_le (by omega) (by omega), k_eq]
  have some : Int64.ofInt (late + reordered) + 1 ≠ 0 := by
    intro zero
    rw [zero] at divisor
    change (0 : Int) = k at divisor
    omega
  have step : ((pts - prev) / (Int64.ofInt (late + reordered) + 1)).toInt = period - error + remaining reordered error late := by
    rw [Int64.toInt_div_of_ne_right _ _ (by rintro minus; rw [minus] at divisor; change (-1 : Int) = k at divisor; omega),
      distance, divisor, Int.tdiv_eq_ediv_of_nonneg (by omega), shared]
  have inside : period - error + remaining reordered error late ≤ k * period - error := by
    rw [← shared]
    exact Int.ediv_le_self _ (by omega)
  have forward : 0 ≤ period - error + remaining reordered error late := by omega
  have bounds_pts := pts.toInt_lt
  have bounds_prev := prev.le_toInt
  have dts_eq : (prev + (pts - prev) / (Int64.ofInt (late + reordered) + 1)).toInt =
      prev.toInt - error + period + remaining reordered error late := by
    rw [Int64.toInt_add, step, Int.bmod_eq_of_le (by omega) (by omega)]
    omega
  refine ⟨prev + (pts - prev) / (Int64.ofInt (late + reordered) + 1), ?_, dts_eq, by omega, by omega⟩
  rw [dtsOf, settled.pause, if_neg (by decide), known]
  dsimp only
  rw [quotient64, if_neg some]
  rfl

/-- One picture of the stream: its DTS is the pace and what is left of the error. -/
theorem extract_picture (counted : Counted sps) (known : increment = 1 ∨ increment = 2 ∨ increment = 4)
    (few : reordered ≤ maxReorderedFrames) (steady : Steady sps own increment reordered count since d) {prev : Int64}
    (prevDTS : d.prevDTS = some prev) {picture : Picture} {header : SliceHeader}
    (follows : Follows sps own increment count next since picture header) (first : -reordered ≤ picture.late)
    (last : picture.late ≤ reordered + 1) {error period : Int} (nonneg : 0 ≤ error) (small : error ≤ period)
    (fits : 22 * period < 2 ^ 63)
    (shown : picture.pts.toInt = prev.toInt - error + (picture.late + reordered + 1) * period) :
    ∃ d' dts, d.extract picture.units picture.pts = (d', .ok dts) ∧
      dts.toInt = prev.toInt - error + period + remaining reordered error picture.late ∧
      Steady sps own increment reordered next (header.since since) d' ∧ d'.prevDTS = some dts := by
  obtain ⟨before, slice, after, units, silent, written⟩ := follows.units
  rw [← steady.own] at silent
  obtain ⟨nonZero, skipped⟩ := scan_silent (slice :: after) silent false
  obtain ⟨nonZero', found⟩ := scan_slice (d := d) written after nonZero
  have diff : ∃ d', Steady sps own increment reordered next (header.since since) d' ∧ d'.prevDTS = d.prevDTS ∧
      d.slotted sps { slice := some (header.idrPicId.isSome, slice), nonZeroNalRefIDFound := nonZero' } picture.pts =
        d'.dtsOf picture.pts (picture.late + reordered) := by
    cases plain : header.idrPicId with
    | none =>
      obtain ⟨d', result, steady', kept⟩ := diffOfNonIDR_steady counted known steady written follows plain
      have since_eq : header.since since = header.picOrderCnt :: since := if_neg (by simp [plain])
      refine ⟨d', by rwa [since_eq], kept, ?_⟩
      have random := (steady.counting (follows.onwards plain).1).random
      rw [slotted]
      simp only [Option.isSome_none, random, Bool.not_true, Bool.false_eq_true, if_false]
      rw [timed, andThen_ok ((andThen_ok result).trans (settle_steady steady'.toSettled first last))]
    | some id =>
      obtain ⟨d', result, steady', kept⟩ := diffOfIDR_steady counted steady.toSettled written follows (by rw [plain]; rfl)
      have since_eq : header.since since = [header.picOrderCnt] := if_pos (by simp [plain])
      refine ⟨d', by rwa [since_eq], kept, ?_⟩
      rw [slotted]
      simp only [Option.isSome_some]
      rw [timed, andThen_ok ((andThen_ok result).trans (settle_steady steady'.toSettled first last))]
  obtain ⟨d', steady', kept, slotted_eq⟩ := diff
  obtain ⟨dts, dts_eq, value, forward, early⟩ :=
    dtsOf_steady steady'.toSettled (kept.trans prevDTS) first last few nonneg small fits shown
  refine ⟨{ d' with prevDTS := some dts }, dts, ?_, value,
    ⟨⟨steady'.own, steady'.spsp, steady'.reordered, steady'.pause, steady'.pocIncrement⟩, fun some => ?_⟩, rfl⟩
  · have inner : d.extractInner picture.units picture.pts = (d', .ok (dts, false)) := by
      rw [extractInner, units, andThen_ok (skipped.trans found), steady.spsp]
      dsimp only
      rw [if_neg (by simp [counted.lsb, counted.frames]), if_neg (by simp [counted.lsb]), slotted_eq, dts_eq]
    rw [extract, andThen_ok inner]
    dsimp only
    rw [if_neg (by simp [Int64.lt_iff_toInt_lt, early]), kept, prevDTS]
    dsimp only
    rw [if_neg (by simp [Int64.lt_iff_toInt_lt, forward])]
  · obtain ⟨random, expected, even, recalls⟩ := steady'.counting some
    exact ⟨random, expected, even, fun two => ⟨(recalls two).1, (recalls two).2, (recalls two).3⟩⟩

end Pictures

/-! ## A stream -/

/-- The call that hands the picture over. -/
def Picture.call (picture : Picture) : Call := (picture.units, picture.pts)

/-- Pictures at a constant rate, after one with this count and after those since the last
IDR. `shown` is when the next picture is shown if it is not reordered. A stream starts with
an IDR where there was none before. -/
def Stream (sps : SPS) (own : Bytes) (increment reordered period : Int) : Int → List Int → Int → List Picture → Prop
  | _, _, _, [] => True
  | count, since, shown, picture :: rest =>
    ∃ next header, Follows sps own increment count next since picture header ∧ -reordered ≤ picture.late ∧
      picture.late ≤ reordered + 1 ∧ picture.pts.toInt = shown + picture.late * period ∧
      Stream sps own increment reordered period next (header.since since) (shown + period) rest

/-- The error after these pictures. -/
def left (reordered error : Int) (pictures : List Picture) : Int :=
  pictures.foldl (fun error picture => remaining reordered error picture.late) error

section Streams
variable {sps : SPS} {own : Bytes} {increment reordered period count shown error : Int} {d : DTSExtractor}

/-- The picture gets the time that the pace gives it, and what is left of the error. -/
def Paced (reordered period shown error : Int) (earlier : List Picture) (picture : Picture) (result : Except Fault Int64) : Prop :=
  ∃ dts, result = .ok dts ∧
    dts.toInt = shown + (earlier.length - reordered) * period + left reordered error (earlier ++ [picture])

theorem left_zero (pictures : List Picture) : left reordered 0 pictures = 0 := by
  induction pictures with
  | nil => rfl
  | cons picture rest ih => rwa [left, List.foldl_cons, remaining, Int.zero_mul, Int.zero_ediv]

/-- Every picture takes its share of the error away, and the earliest takes all of it. -/
theorem left_bounds {pictures : List Picture} (late : ∀ picture ∈ pictures, -reordered ≤ picture.late ∧ picture.late ≤ reordered + 1)
    (nonneg : 0 ≤ error) :
    0 ≤ left reordered error pictures ∧
      left reordered error pictures * (2 * reordered + 2) ^ pictures.length ≤ error * (2 * reordered + 1) ^ pictures.length ∧
      ((∃ picture ∈ pictures, picture.late = -reordered) → left reordered error pictures = 0) := by
  induction pictures generalizing error with
  | nil => exact ⟨nonneg, by simp [left], by rintro ⟨_, ⟨⟩, _⟩⟩
  | cons picture rest ih =>
    have ⟨first, last⟩ := late picture List.mem_cons_self
    obtain ⟨nonneg', -, taken⟩ := remaining_bounds first nonneg
    obtain ⟨kept, shrunk, gone⟩ := ih (fun other mem => late other (List.mem_cons_of_mem _ mem)) nonneg'
    have onwards : left reordered error (picture :: rest) = left reordered (remaining reordered error picture.late) rest := rfl
    rw [onwards]
    refine ⟨kept, ?_, ?_⟩
    · have one : remaining reordered error picture.late * (2 * reordered + 2) ≤ error * (2 * reordered + 1) := by
        have parts : (picture.late + reordered) * (2 * reordered + 2) ≤ (2 * reordered + 1) * (picture.late + reordered + 1) := by
          linarith
        refine Int.le_of_mul_le_mul_right ?_ (show 0 < picture.late + reordered + 1 by omega)
        calc remaining reordered error picture.late * (2 * reordered + 2) * (picture.late + reordered + 1)
            = remaining reordered error picture.late * (picture.late + reordered + 1) * (2 * reordered + 2) := by ring
          _ ≤ error * (picture.late + reordered) * (2 * reordered + 2) := Int.mul_le_mul_of_nonneg_right taken (by omega)
          _ = error * ((picture.late + reordered) * (2 * reordered + 2)) := by ring
          _ ≤ error * ((2 * reordered + 1) * (picture.late + reordered + 1)) := Int.mul_le_mul_of_nonneg_left parts nonneg
          _ = error * (2 * reordered + 1) * (picture.late + reordered + 1) := by ring
      rw [List.length_cons, pow_succ, pow_succ]
      have power : 0 ≤ (2 * reordered + 1) ^ rest.length := Int.pow_nonneg (by omega)
      have scale : 0 ≤ 2 * reordered + 2 := by omega
      calc left reordered (remaining reordered error picture.late) rest * ((2 * reordered + 2) ^ rest.length * (2 * reordered + 2))
          = left reordered (remaining reordered error picture.late) rest * (2 * reordered + 2) ^ rest.length * (2 * reordered + 2) := by
            ring
        _ ≤ remaining reordered error picture.late * (2 * reordered + 1) ^ rest.length * (2 * reordered + 2) :=
            Int.mul_le_mul_of_nonneg_right shrunk scale
        _ = remaining reordered error picture.late * (2 * reordered + 2) * (2 * reordered + 1) ^ rest.length := by ring
        _ ≤ error * (2 * reordered + 1) * (2 * reordered + 1) ^ rest.length := Int.mul_le_mul_of_nonneg_right one power
        _ = error * ((2 * reordered + 1) ^ rest.length * (2 * reordered + 1)) := by ring
    · rintro ⟨other, mem, here⟩
      obtain rfl | mem := List.mem_cons.mp mem
      · have none : remaining reordered error other.late = 0 := by
          rw [remaining, here, Int.add_left_neg, Int.mul_zero, Int.zero_ediv]
        rw [none, left_zero]
      · exact gone ⟨other, mem, here⟩

theorem paced_stream (counted : Counted sps) (known : increment = 1 ∨ increment = 2 ∨ increment = 4)
    (few : reordered ≤ maxReorderedFrames) (fits : 22 * period < 2 ^ 63) {pictures : List Picture} :
    ∀ {count shown error : Int} {since : List Int} {d : DTSExtractor} {prev : Int64},
      Steady sps own increment reordered count since d →
      d.prevDTS = some prev → prev.toInt = shown - (1 + reordered) * period + error → 0 ≤ error → error ≤ period →
      Stream sps own increment reordered period count since shown pictures →
      ∀ earlier picture later, pictures = earlier ++ picture :: later →
        Paced reordered period shown error earlier picture
          ((exec step d (earlier.map Picture.call)).extract picture.units picture.pts).2 := by
  induction pictures with
  | nil => intro _ _ _ _ _ _ _ _ _ _ _ _ earlier picture later split; simp at split
  | cons picture rest ih =>
    intro count shown error since d prev steady prevDTS behind nonneg small stream earlier picture' later split
    obtain ⟨next, header, follows, first, last, pts, onwards⟩ := stream
    have shown_eq : picture.pts.toInt = prev.toInt - error + (picture.late + reordered + 1) * period := by
      rw [pts, behind]
      ring
    obtain ⟨d', dts, result, value, steady', prevDTS'⟩ := extract_picture counted known few steady prevDTS follows first last
      nonneg small fits shown_eq
    cases earlier with
    | nil =>
      obtain ⟨rfl, rfl⟩ := List.cons.inj split
      refine ⟨dts, ?_, ?_⟩
      · rw [List.map_nil, exec_nil, result]
      · rw [value, behind, List.nil_append, left, List.foldl_cons, List.foldl_nil, List.length_nil]
        push_cast
        ring
    | cons other earlier =>
      obtain ⟨rfl, rfl⟩ := List.cons.inj split
      have stepped : step d picture.call = d' := congrArg Prod.fst result
      have bounds := remaining_bounds first nonneg
      obtain ⟨dts', result', value'⟩ := ih steady' prevDTS' (by rw [value, behind]; ring) bounds.1 (by omega) onwards earlier picture'
        later rfl
      refine ⟨dts', ?_, ?_⟩
      · rw [List.map_cons, exec_cons, stepped, result']
      · rw [value', List.cons_append, left, left, List.foldl_cons, List.length_cons]
        push_cast
        ring

theorem lates_stream {since : List Int} {pictures : List Picture}
    (stream : Stream sps own increment reordered period count since shown pictures) :
    ∀ picture ∈ pictures, -reordered ≤ picture.late ∧ picture.late ≤ reordered + 1 := by
  induction pictures generalizing count since shown with
  | nil => rintro _ ⟨⟩
  | cons picture rest ih =>
    obtain ⟨next, header, follows, first, last, pts, onwards⟩ := stream
    rintro other mem
    obtain rfl | mem := List.mem_cons.mp mem
    · exact ⟨first, last⟩
    · exact ih onwards other mem

end Streams

end Ironsight.DtsTiming
