import Mathlib.Data.List.Basic
import Ironsight.TrackEvents

/-! The decoder of binary track frames with every read made explicit: a read
outside the bytes ends the call, as an index out of range ends it in the source.
Beside it stands the layout that the decoder is written for: a header and the
records behind it, each a row of 32-bit words with the lowest byte first. -/
namespace Ironsight.BinaryTracks
open TrackEvents

/-! ## Checked reads -/

/-- `data[low:high]`, held to the bytes that are there. -/
def slice (data : Bytes) (low high : Nat) : Option Bytes :=
  if low ≤ high ∧ high ≤ data.length then some ((data.drop low).take (high - low)) else none

/-- `binary.LittleEndian.Uint32`. -/
def littleEndianUint32 : Bytes → Option Nat
  | b0 :: b1 :: b2 :: b3 :: _ => some (b0.toNat + 2 ^ 8 * b1.toNat + 2 ^ 16 * b2.toNat + 2 ^ 24 * b3.toNat)
  | _ => none

/-- `i32` of a record. -/
def i32 (record : Bytes) (index : Nat) : Option Int := do
  let n ← littleEndianUint32 (← slice record (index * 4) (index * 4 + 4))
  return if n < 2 ^ 31 then (n : Int) else n - 2 ^ 32

/-! ## The decoder -/

/-- The loop of `isBinaryTrackFrame` over the magic bytes. -/
def magicMatches (data : Bytes) : Nat → Bytes → Option Bool
  | _, [] => some true
  | i, byte :: rest => do
    let found ← data[i]?
    if found ≠ byte then some false else magicMatches data (i + 1) rest

def isBinaryTrackFrame (data : Bytes) : Option Bool :=
  if data.length < msHeaderSize ∨ data.length < msMagic.length then some false
  else do
    let same ← magicMatches data 0 msMagic
    return same && decide ((data.length - msHeaderSize) % msTrackRecSize = 0)

/-- One round of the loop over the records. -/
def decodeRecord (data : Bytes) (i : Nat) : Option Track := do
  let base := msHeaderSize + i * msTrackRecSize
  let record ← slice data base (base + msTrackRecSize)
  let trackID ← i32 record 0
  let x ← i32 record 1
  let y ← i32 record 2
  let w ← i32 record 3
  let h ← i32 record 4
  let classID ← i32 record 5
  let showEvent ← i32 record 18
  return { trackID, x, y, w, h, classID, vcaAdvancedMotion := if showEvent ≠ 0 then 1 else 0 }

/-- `decodeBinaryTrack`. A read outside the bytes gives `none`, the nil slice is
`some none`. -/
def decodeBinaryTrack (data : Bytes) : Option (Option (List Track)) := do
  let binary ← isBinaryTrackFrame data
  if binary then
    let byLen := (data.length - msHeaderSize) / msTrackRecSize
    let trackNum : Int := (← littleEndianUint32 (← slice data msTrackNumOff (msTrackNumOff + 4)))
    let n := if 0 ≤ trackNum ∧ trackNum < byLen then trackNum.toNat else byLen
    let tracks ← (List.range n).mapM (decodeRecord data)
    return some tracks
  else return none

/-! ## The reads stay inside -/

theorem slice_inside {data : Bytes} {low high : Nat} (ordered : low ≤ high) (inside : high ≤ data.length) :
    slice data low high = some ((data.drop low).take (high - low)) := if_pos ⟨ordered, inside⟩

theorem littleEndianUint32_slice {data : Bytes} {offset : Nat} (inside : offset + 4 ≤ data.length) :
    (slice data offset (offset + 4)).bind littleEndianUint32 = some (uint32 data offset) := by
  rw [slice_inside (Nat.le_add_right _ _) inside, Nat.add_sub_cancel_left, Option.bind_some, uint32]
  have length : ((data.drop offset).take 4).length = 4 := by
    rw [List.length_take, List.length_drop]
    omega
  match (data.drop offset).take 4, length with
  | [b0, b1, b2, b3], _ =>
    simp only [littleEndianUint32, List.foldr_cons, List.foldr_nil]
    congr 1
    omega

theorem i32_inside {record : Bytes} {index : Nat} (inside : index * 4 + 4 ≤ record.length) :
    i32 record index = some (int32 record index) := by
  have read := littleEndianUint32_slice inside
  obtain ⟨word, found, value⟩ := Option.bind_eq_some_iff.mp read
  simp [i32, found, value, int32]

theorem decodeRecord_inside {data : Bytes} {i : Nat} (inside : msHeaderSize + (i + 1) * msTrackRecSize ≤ data.length) :
    decodeRecord data i =
      some (binaryTrack ((data.drop (msHeaderSize + i * msTrackRecSize)).take msTrackRecSize)) := by
  rw [Nat.succ_mul, ← Nat.add_assoc] at inside
  have length : ((data.drop (msHeaderSize + i * msTrackRecSize)).take msTrackRecSize).length = msTrackRecSize := by
    rw [List.length_take, List.length_drop]
    omega
  have field : ∀ index < 19, i32 ((data.drop (msHeaderSize + i * msTrackRecSize)).take msTrackRecSize) index =
      some (int32 ((data.drop (msHeaderSize + i * msTrackRecSize)).take msTrackRecSize) index) := by
    intro index small
    refine i32_inside ?_
    rw [length, msTrackRecSize]
    omega
  rw [decodeRecord]
  simp [slice_inside (Nat.le_add_right _ _) inside, field, binaryTrack]

theorem magicMatches_inside {data magic : Bytes} {i : Nat} (inside : i + magic.length ≤ data.length) :
    magicMatches data i magic = some (decide ((data.drop i).take magic.length = magic)) := by
  induction magic generalizing i with
  | nil => simp [magicMatches]
  | cons byte rest ih =>
    rw [List.length_cons] at inside
    have here : i < data.length := by omega
    rw [magicMatches, List.getElem?_eq_getElem here, ih (by omega), List.drop_eq_getElem_cons here, List.length_cons,
      List.take_succ_cons]
    by_cases same : data[i] = byte <;> simp [same]

theorem isBinaryTrackFrame_eq (data : Bytes) :
    isBinaryTrackFrame data = some (TrackEvents.isBinaryTrackFrame data) := by
  rw [isBinaryTrackFrame, TrackEvents.isBinaryTrackFrame]
  by_cases short : data.length < msHeaderSize
  · rw [if_pos (Or.inl short), decide_eq_false (fun whole => Nat.not_le.mpr short whole.1)]
  · have long : msHeaderSize ≤ data.length := Nat.not_lt.mp short
    have magic : 0 + msMagic.length ≤ data.length := le_trans (by decide) long
    rw [if_neg (by simp only [not_or]; exact ⟨short, by omega⟩), magicMatches_inside magic]
    simp [long]

theorem mapM_some {α β : Type} {f : α → Option β} {g : α → β} :
    ∀ {items : List α}, (∀ item ∈ items, f item = some (g item)) →
    items.mapM f = some (items.map g)
  | [], _ => rfl
  | item :: rest, given => by
    have tail := mapM_some fun other member => given other (List.mem_cons_of_mem item member)
    simp [List.mapM_cons, given item List.mem_cons_self, tail]

/-- The smaller of the two counts is taken; the one of the header is never negative. -/
private theorem fewer (trackNum byLen : Nat) :
    (if 0 ≤ (trackNum : Int) ∧ (trackNum : Int) < byLen then (trackNum : Int).toNat else byLen) = min byLen trackNum := by
  split <;> omega

private theorem whole_record {data : Bytes} {i trackNum : Nat} (few : i < min ((data.length - msHeaderSize) / msTrackRecSize) trackNum)
    (long : msHeaderSize ≤ data.length) : msHeaderSize + (i + 1) * msTrackRecSize ≤ data.length := by
  have room : (i + 1) * msTrackRecSize ≤ data.length - msHeaderSize :=
    le_trans (Nat.mul_le_mul_right _ (by omega)) (Nat.div_mul_le_self _ _)
  omega

/-- The checked decoder never stops, and gives what the unchecked one does. -/
theorem decodeBinaryTrack_eq (data : Bytes) : decodeBinaryTrack data =
    some (if TrackEvents.isBinaryTrackFrame data then some (TrackEvents.decodeBinaryTrack data) else none) := by
  rw [decodeBinaryTrack, isBinaryTrackFrame_eq, Option.bind_eq_bind, Option.bind_some]
  cases binary : TrackEvents.isBinaryTrackFrame data with
  | false => rfl
  | true =>
    obtain ⟨long, -, -⟩ := of_decide_eq_true binary
    have head : msTrackNumOff + 4 ≤ data.length := le_trans (by decide) long
    obtain ⟨field, found, value⟩ := Option.bind_eq_some_iff.mp (littleEndianUint32_slice head)
    simp only [found, value, Option.bind_eq_bind, Option.bind_some, ↓reduceIte, fewer, Option.pure_def]
    rw [mapM_some fun i member => decodeRecord_inside (whole_record (List.mem_range.mp member) long)]
    rfl

/-! ## The documented layout -/

/-- A 32-bit word, the lowest byte first. -/
def word (n : UInt32) : Bytes := [n.toUInt8, (n >>> 8).toUInt8, (n >>> 16).toUInt8, (n >>> 24).toUInt8]

/-- The 19 words of a track record. -/
structure Record where
  trackID : Int32
  x : Int32
  y : Int32
  w : Int32
  h : Int32
  classID : Int32
  rules : Vector Int32 12
  showEvent : Int32
  deriving DecidableEq

def Record.words (record : Record) : List Int32 :=
  [record.trackID, record.x, record.y, record.w, record.h, record.classID] ++ record.rules.toList ++ [record.showEvent]

def Record.bytes (record : Record) : Bytes := record.words.flatMap fun field => word field.toUInt32

/-- The track that a record describes: one that is shown counts as motion. -/
def Record.track (record : Record) : Track where
  trackID := record.trackID.toInt
  x := record.x.toInt
  y := record.y.toInt
  w := record.w.toInt
  h := record.h.toInt
  classID := record.classID.toInt
  vcaAdvancedMotion := if record.showEvent ≠ 0 then 1 else 0

/-- A header: the magic bytes first, the number of records at its place, and any
bytes where the decoder does not look. -/
structure Header where
  front : Bytes
  trackNum : UInt32
  back : Bytes
  magic : msMagic <+: front
  place : front.length = msTrackNumOff
  size : front.length + 4 + back.length = msHeaderSize

def Header.bytes (header : Header) : Bytes := header.front ++ word header.trackNum ++ header.back

/-- A frame on the wire. -/
def frameBytes (header : Header) (records : List Record) : Bytes := header.bytes ++ records.flatMap Record.bytes

/-- What a binary frame has to be: the magic bytes, a whole header and whole records. -/
def WellFormed (data : Bytes) : Prop :=
  msMagic <+: data ∧ msHeaderSize ≤ data.length ∧ msTrackRecSize ∣ data.length - msHeaderSize

/-! ## Words and records in their places -/

/-- Rows of one width lie at the multiples of it. -/
theorem row_at {α : Type} {width : Nat} {row : α → Bytes} (wide : ∀ item, (row item).length = width) (behind : Bytes) :
    ∀ {items : List α} {i : Nat} (inside : i < items.length),
      ((items.flatMap row ++ behind).drop (i * width)).take width = row items[i]
  | item :: rest, 0, _ => by
    simp only [List.flatMap_cons, Nat.zero_mul, List.drop_zero, List.append_assoc, List.getElem_cons_zero]
    exact List.take_left' (wide item)
  | item :: rest, i + 1, inside => by
    have next := row_at wide behind (Nat.lt_of_succ_lt_succ inside)
    rw [List.flatMap_cons, Nat.succ_mul, Nat.add_comm, ← List.drop_drop, List.append_assoc, List.drop_left' (wide item), next]
    rfl

theorem length_rows {α : Type} {width : Nat} {row : α → Bytes} (wide : ∀ item, (row item).length = width) (items : List α) :
    (items.flatMap row).length = items.length * width := by
  induction items with
  | nil => simp
  | cons item rest ih => rw [List.flatMap_cons, List.length_append, wide, ih, List.length_cons, Nat.succ_mul, Nat.add_comm]

/-- The four bytes of a word give the word back. -/
theorem uint32_word {data : Bytes} {offset : Nat} {n : UInt32} (read : (data.drop offset).take 4 = word n) :
    uint32 data offset = n.toNat := by
  have small := n.toNat_lt
  simp only [uint32, read, word, List.foldr_cons, List.foldr_nil, UInt32.toNat_toUInt8, UInt32.toNat_shiftRight]
  simp only [Nat.shiftRight_eq_div_pow, UInt32.toNat_ofNat, Nat.reduceMod, Nat.reducePow]
  omega

/-- A field is read with its sign. -/
theorem int32_field {record : Bytes} {index : Nat} {field : Int32}
    (read : (record.drop (index * 4)).take 4 = word field.toUInt32) : int32 record index = field.toInt := by
  have signed : field.toInt = field.toBitVec.toInt := rfl
  have same : field.toUInt32.toNat = field.toBitVec.toNat := rfl
  rw [int32, uint32_word read, signed, BitVec.toInt_eq_toNat_cond, same]
  split <;> split <;> omega

theorem length_word (field : Int32) : (word field.toUInt32).length = 4 := rfl

theorem Record.length_words (record : Record) : record.words.length = 19 := by simp [Record.words]

theorem Record.length_bytes (record : Record) : record.bytes.length = msTrackRecSize := by
  rw [Record.bytes, length_rows length_word, record.length_words]
  rfl

theorem Record.int32_bytes {record : Record} {index : Nat} {field : Int32} (place : record.words[index]? = some field) :
    int32 record.bytes index = field.toInt := by
  obtain ⟨inside, rfl⟩ := List.getElem?_eq_some_iff.mp place
  have row := row_at length_word [] inside
  rw [List.append_nil] at row
  exact int32_field row

theorem Record.binaryTrack_bytes (record : Record) : binaryTrack record.bytes = record.track := by
  have last : record.words[18]? = some record.showEvent := by simp [Record.words]
  have shown : record.showEvent.toInt ≠ 0 ↔ record.showEvent ≠ 0 := not_congr (Int32.toInt_inj (y := 0))
  rw [binaryTrack, Record.track, int32_bytes last, int32_bytes (show record.words[0]? = some record.trackID from rfl),
    int32_bytes (show record.words[1]? = some record.x from rfl), int32_bytes (show record.words[2]? = some record.y from rfl),
    int32_bytes (show record.words[3]? = some record.w from rfl), int32_bytes (show record.words[4]? = some record.h from rfl),
    int32_bytes (show record.words[5]? = some record.classID from rfl)]
  simp only [shown]

/-! ## Frames -/

theorem isBinary_iff (data : Bytes) : TrackEvents.isBinaryTrackFrame data = true ↔ WellFormed data := by
  rw [TrackEvents.isBinaryTrackFrame, decide_eq_true_eq, WellFormed, List.prefix_iff_eq_take, Nat.dvd_iff_mod_eq_zero]
  exact ⟨fun ⟨long, magic, whole⟩ => ⟨magic.symm, long, whole⟩, fun ⟨magic, long, whole⟩ => ⟨long, magic.symm, whole⟩⟩

theorem Header.length_bytes (header : Header) : header.bytes.length = msHeaderSize := by
  have size := header.size
  simp only [Header.bytes, List.length_append]
  exact size

theorem length_frame (header : Header) (records : List Record) :
    (frameBytes header records).length = msHeaderSize + records.length * msTrackRecSize := by
  rw [frameBytes, List.length_append, header.length_bytes, length_rows Record.length_bytes]

theorem frame_wellFormed (header : Header) (records : List Record) : WellFormed (frameBytes header records) := by
  refine ⟨?_, ?_, ?_⟩
  · simp only [frameBytes, Header.bytes, List.append_assoc]
    exact header.magic.trans (List.prefix_append _ _)
  · rw [length_frame]
    exact Nat.le_add_right _ _
  · rw [length_frame, Nat.add_sub_cancel_left]
    exact Nat.dvd_mul_left _ _

theorem frame_trackNum (header : Header) (records : List Record) :
    uint32 (frameBytes header records) msTrackNumOff = header.trackNum.toNat := by
  refine uint32_word ?_
  simp only [frameBytes, Header.bytes, List.append_assoc]
  rw [List.drop_left' header.place]
  rfl

theorem decode_frame {header : Header} {records : List Record} (counted : header.trackNum.toNat = records.length) :
    TrackEvents.decodeBinaryTrack (frameBytes header records) = records.map Record.track := by
  have count : (msHeaderSize + records.length * msTrackRecSize - msHeaderSize) / msTrackRecSize = records.length := by
    rw [Nat.add_sub_cancel_left]
    exact Nat.mul_div_cancel _ (by decide)
  rw [TrackEvents.decodeBinaryTrack, frame_trackNum, counted, length_frame, count, Nat.min_self]
  refine List.ext_getElem (by simp) fun i inside _ => ?_
  have within : i < records.length := by simpa using inside
  have record := row_at Record.length_bytes [] within
  rw [List.append_nil] at record
  rw [List.getElem_map, List.getElem_range, List.getElem_map, frameBytes, ← List.drop_drop, List.drop_left' header.length_bytes,
    record, Record.binaryTrack_bytes]

/-- No message makes the decoder read outside it. It gives nil exactly for a
message that is no well formed frame, and otherwise as many tracks as the smaller
of the two counts says. A frame written by the layout is read back, and the motion
flag is set exactly for the tracks that are shown. -/
theorem binary_tracks_decoded (data : Bytes) (header : Header) (records : List Record)
    (counted : header.trackNum.toNat = records.length) :
    (∃ result, decodeBinaryTrack data = some result ∧ (result = none ↔ ¬ WellFormed data) ∧
      ∀ tracks, result = some tracks →
        tracks.length = min (uint32 data msTrackNumOff) ((data.length - msHeaderSize) / msTrackRecSize)) ∧
    decodeBinaryTrack (frameBytes header records) = some (some (records.map Record.track)) ∧
    ∀ record ∈ records, record.track.vcaAdvancedMotion ≠ 0 ↔ record.showEvent ≠ 0 := by
  refine ⟨⟨_, decodeBinaryTrack_eq data, ?_, fun tracks decoded => ?_⟩, ?_, fun record _ => ?_⟩
  · rw [← isBinary_iff]
    split <;> simp_all
  · split at decoded
    · obtain rfl := Option.some.inj decoded
      rw [TrackEvents.decodeBinaryTrack, List.length_map, List.length_range, Nat.min_comm]
    · cases decoded
  · rw [decodeBinaryTrack_eq, if_pos ((isBinary_iff _).mpr (frame_wellFormed header records)), decode_frame counted]
  · rw [Record.track]
    split <;> simp_all

/-- The header of a frame with two people, one of them left of the picture. -/
private def seen : Header where
  front := msMagic ++ List.replicate 51 0
  trackNum := 2
  back := List.replicate 20 0
  magic := List.prefix_append _ _
  place := rfl
  size := rfl

private def walker : Record := ⟨7, -3, 40, 20, 60, 1, Vector.replicate 12 0, 1⟩

private def bystander : Record := ⟨8, 100, 40, 20, 60, 1, Vector.replicate 12 0, 0⟩

/-- The one left of the picture keeps its negative coordinate. -/
theorem two_people_decoded : decodeBinaryTrack (frameBytes seen [walker, bystander]) =
    some (some [{ trackID := 7, x := -3, y := 40, w := 20, h := 60, classID := 1, vcaAdvancedMotion := 1 },
      { trackID := 8, x := 100, y := 40, w := 20, h := 60, classID := 1 }]) :=
  (binary_tracks_decoded [] seen [walker, bystander] (by decide)).2.1

end Ironsight.BinaryTracks
