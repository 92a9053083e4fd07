import Mathlib.Algebra.Order.Ring.Int
import Mathlib.Data.List.Chain
import Ironsight.Runs

/-! The segment writer of the in-process recorder. Access units go into fMP4 files
one behind, because the duration of a unit is known when the next one arrives; a
new file begins with a keyframe, and opening it may fail. -/
namespace Ironsight.SegmentWriter
open Runs

abbrev Bytes := List UInt8
abbrev Instant := Int

/-- An access unit that waits for the next one. -/
structure PendingAU where
  avcc : Bytes
  dts : Int64
  pts : Int64
  idrPresent : Bool
  deriving DecidableEq

/-- An `fmp4.Part` with its one track and the one sample made of `unit`. -/
structure Part where
  sequenceNumber : UInt32
  baseTime : UInt64
  duration : UInt32
  ptsOffset : Int32
  unit : PendingAU
  deriving DecidableEq

def Part.isNonSyncSample (part : Part) : Bool := !part.unit.idrPresent

/-- `fmp4.Init` with its one track. -/
structure Init where
  timeScale : UInt32
  sps : Option Bytes
  pps : Option Bytes
  deriving DecidableEq

/-- A segment file, and what the writer keeps of it while it is open. -/
structure Segment where
  startWall : Instant
  startDTS : Int64
  init : Init
  seq : UInt32 := 0
  parts : List Part := []
  deriving DecidableEq

/-- The `segmentWriter`. The DTS extractor is its answers, and whether it was made. -/
structure Writer where
  segmentDur : Int
  sps : Option Bytes := none
  pps : Option Bytes := none
  closed : List Segment := []
  cur : Option Segment := none
  primed : Bool := false
  pending : Option PendingAU := none
  lastDelta : Int64 := 0
  deriving DecidableEq

/-- One call of `writeAccessUnit`, the answer of `Extract`, and the errors that writing
a part, creating a file and writing its init box meet. -/
structure Call where
  au : List Bytes
  pts : Int64 := 0
  clockRate : Int := 90000
  now : Instant := 0
  dts : Except String Int64
  part : Option String := none
  create : Option String := none
  init : Option String := none

/-! ## The NAL units of an access unit -/

/-- What the loop over the NAL units leaves. -/
structure Nalus where
  sps : Option Bytes
  pps : Option Bytes
  kept : List Bytes := []
  idrPresent : Bool := false

/-- Parameter sets are remembered and access unit delimiters dropped. -/
def Nalus.add (nalus : Nalus) : Bytes → Nalus
  | [] => nalus
  | header :: rest =>
    let typ := header &&& 0x1F
    if typ = 7 then { nalus with sps := some (header :: rest) }
    else if typ = 8 then { nalus with pps := some (header :: rest) }
    else if typ = 9 then nalus
    else { nalus with kept := nalus.kept ++ [header :: rest], idrPresent := nalus.idrPresent || typ == 5 }

/-- What is stored: a keyframe goes behind the parameter sets. -/
def Nalus.stored (nalus : Nalus) : List Bytes :=
  match nalus.idrPresent, nalus.sps, nalus.pps with
  | true, some sps, some pps => sps :: pps :: nalus.kept
  | _, _, _ => nalus.kept

/-- `AVCC.Marshal`, which never fails. -/
def avcc (nalus : List Bytes) : Bytes :=
  nalus.flatMap fun nalu => [24, 16, 8, 0].map (fun shift => UInt8.ofNat (nalu.length >>> shift)) ++ nalu

namespace Writer

def nalus (w : Writer) (au : List Bytes) : Nalus := au.foldl Nalus.add { sps := w.sps, pps := w.pps }

/-- The first half of `writeAccessUnit`: there is nothing to store, or no DTS for it, or
a unit to store. -/
def receive (w : Writer) (call : Call) : Writer × Option (Except String PendingAU) :=
  let nalus := w.nalus call.au
  let w := { w with sps := nalus.sps, pps := nalus.pps }
  if nalus.kept = [] then (w, none)
  else if w.primed = false ∧ nalus.idrPresent = false then (w, none)
  else
    ({ w with primed := true }, some <|
      match call.dts with
      | .error err => .error s!"dts extract: {err}"
      | .ok dts => .ok { avcc := SegmentWriter.avcc nalus.stored, dts, pts := call.pts, idrPresent := nalus.idrPresent })

/-! ## Segments -/

/-- The duration of a unit without a next one. -/
def fallback (w : Writer) : Int64 := if w.lastDelta ≤ 0 then 3000 else w.lastDelta

def duration (w : Writer) (unit : PendingAU) (nextDTS : Int64) : Int64 :=
  if nextDTS - unit.dts ≤ 0 then w.fallback else nextDTS - unit.dts

end Writer

/-- The part of a unit that lasts so long. -/
def Segment.part (segment : Segment) (unit : PendingAU) (dur : Int64) : Part where
  sequenceNumber := segment.seq + 1
  baseTime := (unit.dts - segment.startDTS).toUInt64
  duration := dur.toUInt64.toUInt32
  ptsOffset := (unit.pts - unit.dts).toInt32
  unit

/-- The segment with one more part. -/
def Segment.add (segment : Segment) (unit : PendingAU) (dur : Int64) : Segment :=
  { segment with seq := segment.seq + 1, parts := segment.parts ++ [segment.part unit dur] }

namespace Writer

/-- The unit is forgotten before it is written. -/
def flushPending (w : Writer) (nextDTS : Int64) (err : Option String) : Writer × Option String :=
  match w.pending, w.cur with
  | none, _ => (w, none)
  | some _, none => ({ w with pending := none }, some "invalid argument")
  | some unit, some segment =>
    ({ w with
        pending := none
        lastDelta := if nextDTS - unit.dts ≤ 0 then w.lastDelta else nextDTS - unit.dts
        cur := some (if err = none then segment.add unit (w.duration unit nextDTS)
          else { segment with seq := segment.seq + 1 }) }, err)

/-- Best effort: what the last part meets is ignored. -/
def finalizeCurrent (w : Writer) (err : Option String) : Writer :=
  match w.cur with
  | none => w
  | some _ =>
    let w := match w.pending with
      | none => w
      | some unit => (w.flushPending (unit.dts + w.fallback) err).1
    { w with closed := w.closed ++ w.cur.toList, cur := none }

/-- `close`. -/
def close (w : Writer) : Writer := w.finalizeCurrent none

/-- The segment that a rotation opens. -/
def segment (w : Writer) (call : Call) (startDTS : Int64) : Segment where
  startWall := call.now
  startDTS
  init :=
    { timeScale := UInt32.ofInt (if call.clockRate = 0 then 90000 else call.clockRate), sps := w.sps, pps := w.pps }

def rotate (w : Writer) (call : Call) (startDTS : Int64) : Writer × Option String :=
  let w := w.finalizeCurrent call.part
  match call.create, call.init with
  | some err, _ => (w, some s!"create segment: {err}")
  | none, some err => (w, some s!"init marshal: {err}")
  | none, none => ({ w with cur := some (w.segment call startDTS) }, none)

/-- `needRotate`; the start of an open segment is never the zero time. -/
def needRotate (w : Writer) (idrPresent : Bool) (now : Instant) : Bool :=
  match w.cur with
  | none => true
  | some segment => idrPresent && decide (now - segment.startWall ≥ w.segmentDur)

/-- An error ends the call. -/
def proceed (result : Writer × Option String) (rest : Writer → Writer × Option String) : Writer × Option String :=
  match result.2 with
  | some err => (result.1, some err)
  | none => rest result.1

/-- The second half of `writeAccessUnit`. -/
def store (w : Writer) (call : Call) (newAU : PendingAU) : Writer × Option String :=
  if w.needRotate newAU.idrPresent call.now then
    proceed (if w.cur.isSome then w.flushPending newAU.dts call.part else (w, none)) fun w =>
      proceed (w.rotate call newAU.dts) fun w =>
        (if newAU.idrPresent then { w with pending := some newAU } else w, none)
  else
    proceed (w.flushPending newAU.dts call.part) fun w => ({ w with pending := some newAU }, none)

def writeAccessUnit (w : Writer) (call : Call) : Writer × Option String :=
  match w.receive call with
  | (w, none) => (w, none)
  | (w, some (.error err)) => (w, some err)
  | (w, some (.ok newAU)) => w.store call newAU

/-- The unit that a call stores, if it gets that far. -/
def unit? (w : Writer) (call : Call) : Option PendingAU :=
  match (w.receive call).2 with
  | some (.ok newAU) => some newAU
  | some (.error _) | none => none

/-- The segment files of a writer that is closed now. -/
def files (w : Writer) : List Segment := w.close.closed

end Writer

/-! ## A session -/

/-- A writer, the DTS of the last unit that had one, and the units that were taken
without an error. -/
structure Session where
  writer : Writer
  last : Option Int64 := none
  owed : List PendingAU := []

/-- A call of the writer, with the DTS of the last unit noted. -/
def step (s : Session) (call : Call) : Session where
  writer := (s.writer.writeAccessUnit call).1
  last := (s.writer.unit? call).map PendingAU.dts <|> s.last
  owed := s.owed ++ if (s.writer.writeAccessUnit call).2 = none then (s.writer.unit? call).toList else []

/-- A new session, with the parameter sets of the stream's description. -/
def opened (segmentDur : Int) (sps pps : Option Bytes) : Session := ⟨{ segmentDur, sps, pps }, none, []⟩

/-- The DTS of a unit is after the one before. -/
def Increasing (s : Session) (call : Call) : Prop :=
  ∀ newAU ∈ s.writer.unit? call, ∀ last ∈ s.last, last < newAU.dts

/-- A segment starts with a sync sample, and each sample starts where the one before
ends, counted from the start of the segment. -/
structure Playable (segment : Segment) : Prop where
  sync : ∀ part ∈ segment.parts.head?, part.isNonSyncSample = false
  consecutive : segment.parts.IsChain fun part next => part.baseTime.toNat + part.duration.toNat = next.baseTime.toNat
  unwrapped : ∀ part ∈ segment.parts, (part.baseTime.toNat : Int) = part.unit.dts.toInt - segment.startDTS.toInt

/-- The units in segment files, in their order. -/
def written (files : List Segment) : List PendingAU := files.flatMap fun file => file.parts.map Part.unit

/-- The files are playable and hold what was taken. -/
structure Kept (files : List Segment) (owed : List PendingAU) : Prop where
  playable : ∀ file ∈ files, Playable file
  complete : written files = owed

/-- The footage of a session that is closed now. -/
def WellFormed (s : Session) : Prop := Kept s.writer.files s.owed

/-- What a call that stores a unit may not meet. -/
structure Stores (w : Writer) (call : Call) (newAU : PendingAU) : Prop where
  /-- The waiting unit is written. -/
  part : w.pending ≠ none → call.part = none
  /-- A unit of the same segment comes in time for the width of a duration. -/
  near : ∀ unit ∈ w.pending, w.needRotate newAU.idrPresent call.now = false →
    newAU.dts.toInt - unit.dts.toInt < 2 ^ 32
  /-- Only a keyframe opens a segment. -/
  keyframe : w.cur = none → call.create = none → call.init = none → newAU.idrPresent = true

/-- Every unit that a call stores is stored as it should be. -/
def Clean (s : Session) (call : Call) : Prop := ∀ newAU ∈ s.writer.unit? call, Stores s.writer call newAU

instance (s : Session) (call : Call) : Decidable (Increasing s call) :=
  decidable_of_iff (((s.writer.unit? call).all fun newAU => s.last.all fun last => decide (last < newAU.dts)) = true)
    (by simp [Increasing, Option.all_eq_true])

instance (segment : Segment) : Decidable (Playable segment) :=
  decidable_of_iff ((∀ part ∈ segment.parts.head?, part.isNonSyncSample = false) ∧
      (segment.parts.IsChain fun part next => part.baseTime.toNat + part.duration.toNat = next.baseTime.toNat) ∧
      ∀ part ∈ segment.parts, (part.baseTime.toNat : Int) = part.unit.dts.toInt - segment.startDTS.toInt)
    ⟨fun ⟨sync, consecutive, unwrapped⟩ => ⟨sync, consecutive, unwrapped⟩,
      fun ⟨sync, consecutive, unwrapped⟩ => ⟨sync, consecutive, unwrapped⟩⟩

instance (s : Session) : Decidable (WellFormed s) :=
  decidable_of_iff ((∀ file ∈ s.writer.files, Playable file) ∧ written s.writer.files = s.owed)
    ⟨fun ⟨playable, complete⟩ => ⟨playable, complete⟩, fun ⟨playable, complete⟩ => ⟨playable, complete⟩⟩

/-! ## What a call does -/

section Differences

private theorem toUInt64_toNat (x : Int64) : (x.toUInt64.toNat : Int) = x.toInt % 2 ^ 64 := by
  have bound := x.toUInt64.toNat_lt
  rw [← Int64.toInt_toBitVec, BitVec.toInt_eq_toNat_bmod, ← Int64.toBitVec_toUInt64, UInt64.toNat_toBitVec, Int.bmod_def]
  omega

/-- An unsigned difference of ordered times is exact. -/
private theorem baseTime_eq {dts start : Int64} (after : start ≤ dts) :
    ((dts - start).toUInt64.toNat : Int) = dts.toInt - start.toInt := by
  have order := Int64.le_iff_toInt_le.mp after
  have above := dts.toInt_lt
  have below := start.le_toInt
  rw [toUInt64_toNat, Int64.toInt_sub, Int.bmod_def]
  omega

/-- The duration of a unit is the way to the next one exactly if it fits 32 bits. -/
private theorem duration_eq_iff {w : Writer} {unit : PendingAU} {nextDTS : Int64} (after : unit.dts < nextDTS) :
    ((w.duration unit nextDTS).toUInt64.toUInt32.toNat : Int) = nextDTS.toInt - unit.dts.toInt ↔
      nextDTS.toInt - unit.dts.toInt < 2 ^ 32 := by
  have order := Int64.lt_iff_toInt_lt.mp after
  have width := (w.duration unit nextDTS).toUInt64.toUInt32.toNat_lt
  constructor
  · intro exact
    omega
  · intro near
    have positive : ¬ nextDTS - unit.dts ≤ 0 := by
      have zero : (0 : Int64).toInt = 0 := rfl
      rw [Int64.le_iff_toInt_le, Int64.toInt_sub, Int.bmod_def]
      omega
    have whole := baseTime_eq (Int64.le_of_lt after)
    rw [Writer.duration, if_neg positive, UInt64.toNat_toUInt32]
    omega

end Differences

section Segments
variable {segment : Segment} {unit next : PendingAU} {dur : Int64}

/-- What one more part asks for. How long it is itself does not matter. -/
private theorem playable_add_iff : Playable (segment.add unit dur) ↔
    Playable segment ∧ (segment.parts = [] → unit.idrPresent = true) ∧
      (∀ last ∈ segment.parts.getLast?,
        last.baseTime.toNat + last.duration.toNat = (unit.dts - segment.startDTS).toUInt64.toNat) ∧
      ((unit.dts - segment.startDTS).toUInt64.toNat : Int) = unit.dts.toInt - segment.startDTS.toInt := by
  have first : (segment.add unit dur).parts.head? = segment.parts.head?.or (some (segment.part unit dur)) := by
    rw [Segment.add, List.head?_append]
    rfl
  constructor
  · rintro ⟨sync, consecutive, unwrapped⟩
    obtain ⟨before, _, joined⟩ := List.isChain_append.mp consecutive
    refine ⟨⟨fun part head => sync part ?_, before, fun part member => unwrapped part (List.mem_append_left _ member)⟩,
      fun empty => ?_, fun last end_ => joined last end_ _ rfl, unwrapped _ (List.mem_append_right _ List.mem_cons_self)⟩
    · rw [first, Option.mem_def.mp head]
      rfl
    · have alone := sync (segment.part unit dur) (by rw [first, empty]; rfl)
      simpa [Part.isNonSyncSample, Segment.part] using alone
  · rintro ⟨⟨sync, consecutive, unwrapped⟩, opener, joined, exact_⟩
    refine ⟨fun part head => ?_, ?_, fun part member => ?_⟩
    · rw [first] at head
      cases before : segment.parts.head? with
      | none =>
        rw [before] at head
        cases head
        simp [Part.isNonSyncSample, Segment.part, opener (List.head?_eq_none_iff.mp before)]
      | some _ =>
        rw [before] at head
        cases head
        exact sync _ before
    · refine List.isChain_append.mpr ⟨consecutive, List.isChain_singleton _, fun part last other only => ?_⟩
      cases only
      exact joined part last
    · rcases List.mem_append.mp member with old | new
      · exact unwrapped part old
      · rw [List.mem_singleton.mp new]
        exact exact_

private theorem playable_add_congr (other : Int64) :
    Playable (segment.add unit dur) ↔ Playable (segment.add unit other) := by
  rw [playable_add_iff, playable_add_iff]

/-- A segment is opened by a keyframe at its own start. -/
private theorem playable_first {w : Writer} {call : Call} (idr : unit.idrPresent = true) :
    Playable ((w.segment call unit.dts).add unit dur) := by
  refine playable_add_iff.mpr ⟨⟨?_, ?_, ?_⟩, fun _ => idr, ?_, baseTime_eq (Int64.le_refl _)⟩
  · rintro part ⟨⟩
  · exact .nil
  · rintro part ⟨⟩
  · rintro last ⟨⟩

/-- The next unit of a segment fits behind the one before exactly if its duration does. -/
private theorem playable_next_iff {w : Writer} (start : segment.startDTS ≤ unit.dts) (after : unit.dts < next.dts) :
    Playable ((segment.add unit (w.duration unit next.dts)).add next dur) ↔
      Playable (segment.add unit (w.duration unit next.dts)) ∧ next.dts.toInt - unit.dts.toInt < 2 ^ 32 := by
  have here : ((unit.dts - segment.startDTS).toUInt64.toNat : Int) = _ := baseTime_eq start
  have there : ((next.dts - segment.startDTS).toUInt64.toNat : Int) = _ := baseTime_eq (Int64.le_trans start (Int64.le_of_lt after))
  have last : (segment.add unit (w.duration unit next.dts)).parts.getLast? =
      some (segment.part unit (w.duration unit next.dts)) := List.getLast?_concat
  have joined : (segment.part unit (w.duration unit next.dts)).baseTime.toNat +
      (segment.part unit (w.duration unit next.dts)).duration.toNat = (next.dts - segment.startDTS).toUInt64.toNat ↔
      next.dts.toInt - unit.dts.toInt < 2 ^ 32 := by
    rw [← duration_eq_iff (w := w) after]
    simp only [Segment.part]
    omega
  rw [playable_add_iff]
  constructor
  · rintro ⟨before, _, behind, _⟩
    exact ⟨before, joined.mp (behind _ last)⟩
  · rintro ⟨before, near⟩
    refine ⟨before, fun empty => absurd empty (List.append_ne_nil_of_right_ne_nil _ (List.cons_ne_nil _ _)), ?_, there⟩
    intro part end_
    rw [last] at end_
    cases end_
    exact joined.mpr near

end Segments

section Writers
variable {w : Writer} {call : Call} {newAU unit : PendingAU} {segment : Segment}

@[simp] private theorem proceed_none (w : Writer) (rest : Writer → Writer × Option String) :
    Writer.proceed (w, none) rest = rest w := rfl

@[simp] private theorem proceed_some (w : Writer) (err : String) (rest : Writer → Writer × Option String) :
    Writer.proceed (w, some err) rest = (w, some err) := rfl

private theorem files_idle (idle : w.cur = none) : w.files = w.closed := by
  rw [Writer.files, Writer.close, Writer.finalizeCurrent, idle]

private theorem files_empty (cur : w.cur = some segment) (pending : w.pending = none) :
    w.files = w.closed ++ [segment] := by
  simp [Writer.files, Writer.close, Writer.finalizeCurrent, cur, pending]

private theorem files_recording (cur : w.cur = some segment) (pending : w.pending = some unit) :
    w.files = w.closed ++ [segment.add unit (w.duration unit (unit.dts + w.fallback))] := by
  simp [Writer.files, Writer.close, Writer.finalizeCurrent, Writer.flushPending, cur, pending]

/-- The state behind a part that was written. -/
private def flushed (w : Writer) (segment : Segment) (unit : PendingAU) (nextDTS : Int64) : Writer :=
  { w with
    pending := none
    lastDelta := if nextDTS - unit.dts ≤ 0 then w.lastDelta else nextDTS - unit.dts
    cur := some (segment.add unit (w.duration unit nextDTS)) }

private theorem flushPending_written (cur : w.cur = some segment) (pending : w.pending = some unit) (nextDTS : Int64) :
    w.flushPending nextDTS none = (flushed w segment unit nextDTS, none) := by
  simp [Writer.flushPending, cur, pending, flushed]

/-- Behind a failed part the waiting unit is in no file. -/
private theorem store_lost {err : String} (newAU : PendingAU) (cur : w.cur = some segment) (pending : w.pending = some unit)
    (part : call.part = some err) : (w.store call newAU).2 = some err ∧
      (w.store call newAU).1.files = w.closed ++ [{ segment with seq := segment.seq + 1 }] := by
  have lost : w.store call newAU = w.flushPending newAU.dts call.part := by
    unfold Writer.store
    split <;> simp [Writer.flushPending, cur, pending, part]
  rw [lost]
  constructor
  · simp [Writer.flushPending, cur, pending, part]
  · have open_ : (w.flushPending newAU.dts call.part).1.cur = some { segment with seq := segment.seq + 1 } := by
      simp [Writer.flushPending, cur, pending, part]
    rw [files_empty open_]
    all_goals simp [Writer.flushPending, cur, pending, part]

/-- Without a rotation the waiting unit is written and the new one waits. -/
private theorem store_on (cur : w.cur = some segment) (pending : w.pending = some unit) (part : call.part = none)
    (same : w.needRotate newAU.idrPresent call.now = false) :
    w.store call newAU = ({ flushed w segment unit newAU.dts with pending := some newAU }, none) := by
  rw [Writer.store, if_neg (by simp [same]), part, flushPending_written cur pending, proceed_none]

/-- A rotation that fails leaves no segment open. -/
private theorem rotate_failed (failed : call.create ≠ none ∨ call.init ≠ none) (startDTS : Int64) :
    ∃ err, w.rotate call startDTS = (w.finalizeCurrent call.part, some err) := by
  unfold Writer.rotate
  cases create : call.create with
  | some err => exact ⟨_, rfl⟩
  | none =>
    cases init : call.init with
    | some err => exact ⟨_, rfl⟩
    | none => simp [create, init] at failed

private theorem rotate_done (create : call.create = none) (init : call.init = none) (startDTS : Int64) :
    w.rotate call startDTS =
      ({ w.finalizeCurrent call.part with cur := some ((w.finalizeCurrent call.part).segment call startDTS) }, none) := by
  rw [Writer.rotate, create, init]

private theorem finalizeCurrent_idle {err : Option String} (idle : w.cur = none) : w.finalizeCurrent err = w := by
  rw [Writer.finalizeCurrent, idle]

private theorem finalizeCurrent_flushed {err : Option String} {nextDTS : Int64} :
    (flushed w segment unit nextDTS).finalizeCurrent err =
      { flushed w segment unit nextDTS with
        closed := w.closed ++ [segment.add unit (w.duration unit nextDTS)], cur := none } := rfl

/-- What is left of the waiting unit when a rotation closes its segment. -/
private def rotated (w : Writer) (segment : Segment) (unit : PendingAU) (nextDTS : Int64) : Writer :=
  { flushed w segment unit nextDTS with
    closed := w.closed ++ [segment.add unit (w.duration unit nextDTS)], cur := none }

private theorem store_idle_failed (newAU : PendingAU) (idle : w.cur = none) (failed : call.create ≠ none ∨ call.init ≠ none) :
    ∃ err, w.store call newAU = (w, some err) := by
  obtain ⟨err, gone⟩ := rotate_failed (w := w) failed newAU.dts
  rw [finalizeCurrent_idle idle] at gone
  refine ⟨err, ?_⟩
  simp only [Writer.store, Writer.needRotate, idle, if_true, Option.isSome_none, Bool.false_eq_true, if_false, proceed_none, gone,
    proceed_some]

private theorem store_idle_done (idle : w.cur = none) (create : call.create = none) (init : call.init = none) :
    w.store call newAU = ({ w with
      cur := some (w.segment call newAU.dts), pending := if newAU.idrPresent then some newAU else w.pending }, none) := by
  have done := rotate_done (w := w) create init newAU.dts
  rw [finalizeCurrent_idle idle] at done
  simp only [Writer.store, Writer.needRotate, idle, if_true, Option.isSome_none, Bool.false_eq_true, if_false, proceed_none, done]
  split <;> rfl

/-- A segment that is open is left for another at a keyframe only. -/
private theorem keyframe_of_needRotate (cur : w.cur = some segment) (rotates : w.needRotate newAU.idrPresent call.now = true) :
    newAU.idrPresent = true := by
  simp only [Writer.needRotate, cur, Bool.and_eq_true] at rotates
  exact rotates.1

private theorem store_rotate_failed (cur : w.cur = some segment) (pending : w.pending = some unit) (part : call.part = none)
    (rotates : w.needRotate newAU.idrPresent call.now = true) (failed : call.create ≠ none ∨ call.init ≠ none) :
    ∃ err, w.store call newAU = (rotated w segment unit newAU.dts, some err) := by
  obtain ⟨err, gone⟩ := rotate_failed (w := flushed w segment unit newAU.dts) failed newAU.dts
  refine ⟨err, ?_⟩
  simp only [Writer.store, rotates, if_true, cur, Option.isSome_some, part, flushPending_written cur pending, proceed_none, gone,
    finalizeCurrent_flushed, proceed_some, rotated]

private theorem store_rotate_done (cur : w.cur = some segment) (pending : w.pending = some unit) (part : call.part = none)
    (rotates : w.needRotate newAU.idrPresent call.now = true) (create : call.create = none) (init : call.init = none) :
    w.store call newAU = ({ rotated w segment unit newAU.dts with
      cur := some ((rotated w segment unit newAU.dts).segment call newAU.dts), pending := some newAU }, none) := by
  have done := rotate_done (w := flushed w segment unit newAU.dts) create init newAU.dts
  rw [part, finalizeCurrent_flushed] at done
  rw [Writer.store, if_pos rotates, cur, Option.isSome_some, if_pos rfl, part, flushPending_written cur pending, proceed_none,
    done, proceed_none, if_pos (keyframe_of_needRotate cur rotates)]
  rfl

end Writers

section Sessions
variable {w : Writer} {call : Call} {newAU unit : PendingAU} {segment : Segment} {files : List Segment}
  {owed : List PendingAU} {last : Option Int64} {dur : Int64}

private theorem kept_snoc_iff : Kept (files ++ [segment]) owed ↔
    (∀ file ∈ files, Playable file) ∧ Playable segment ∧ written files ++ segment.parts.map Part.unit = owed := by
  have all : written (files ++ [segment]) = written files ++ segment.parts.map Part.unit := by simp [written]
  constructor
  · rintro ⟨playable, complete⟩
    refine ⟨fun file member => playable file (List.mem_append_left _ member),
      playable segment (List.mem_append_right _ List.mem_cons_self), ?_⟩
    rw [← all]
    exact complete
  · rintro ⟨before, here, complete⟩
    refine ⟨fun file member => ?_, all.trans complete⟩
    rcases List.mem_append.mp member with old | new
    · exact before file old
    · rw [List.mem_singleton.mp new]
      exact here

/-- A segment waits for the duration of its last unit as long as it is open, and the
unit is the last one that had a DTS. -/
structure Sound (s : Session) : Prop where
  paired : s.writer.cur.isSome = s.writer.pending.isSome
  started : ∀ segment ∈ s.writer.cur, ∀ unit ∈ s.writer.pending, segment.startDTS ≤ unit.dts
  recent : ∀ unit ∈ s.writer.pending, s.last = some unit.dts

/-- A unit that opens a segment. -/
private theorem kept_first (kept : Kept files owed) (idr : unit.idrPresent = true) :
    Kept (files ++ [(w.segment call unit.dts).add unit dur]) (owed ++ [unit]) := by
  refine kept_snoc_iff.mpr ⟨kept.playable, playable_first idr, ?_⟩
  simp [kept.complete, Segment.add, Segment.part, Writer.segment]

/-- Whatever comes next, the waiting unit is in its segment. -/
private theorem kept_waiting (cur : w.cur = some segment) (pending : w.pending = some unit) (kept : Kept w.files owed) :
    Kept (w.closed ++ [segment.add unit dur]) owed := by
  rw [files_recording cur pending, kept_snoc_iff] at kept
  obtain ⟨before, here, complete⟩ := kept
  refine kept_snoc_iff.mpr ⟨before, (playable_add_congr _).mp here, ?_⟩
  rw [← complete]
  simp [Segment.add, Segment.part]

/-- The footage stays as it should exactly if the unit is stored as it should be, and
the session goes on soundly. -/
private structure Exact (w : Writer) (call : Call) (newAU : PendingAU) (owed : List PendingAU) : Prop where
  kept : Kept (w.store call newAU).1.files (owed ++ if (w.store call newAU).2 = none then [newAU] else []) ↔
    Stores w call newAU
  sound : Stores w call newAU →
    Sound ⟨(w.store call newAU).1, some newAU.dts, owed ++ if (w.store call newAU).2 = none then [newAU] else []⟩

/-- A unit that finds no segment open. -/
private theorem idle_exact (idle : w.cur = none) (empty : w.pending = none) (kept : Kept w.files owed) :
    Exact w call newAU owed := by
  rw [files_idle idle] at kept
  by_cases failed : call.create ≠ none ∨ call.init ≠ none
  · obtain ⟨err, gone⟩ := store_idle_failed newAU idle failed
    have stores : Stores w call newAU := by
      refine ⟨fun waiting => absurd empty waiting, fun unit waits => ?_, fun _ create init => ?_⟩
      · rw [empty] at waits
        cases waits
      · simp [create, init] at failed
    constructor
    all_goals rw [gone]
    · refine iff_of_true ?_ stores
      rw [files_idle idle]
      simpa using kept
    · exact fun _ => ⟨by simp [idle, empty], by simp [idle], by simp [empty]⟩
  · obtain ⟨create, init⟩ : call.create = none ∧ call.init = none := by simpa using failed
    have done : w.store call newAU = _ := store_idle_done idle create init
    by_cases idr : newAU.idrPresent = true
    · have stores : Stores w call newAU :=
        ⟨fun waiting => absurd empty waiting, by simp [empty], fun _ _ _ => idr⟩
      constructor
      all_goals rw [done]
      · refine iff_of_true ?_ stores
        rw [files_recording rfl (if_pos idr)]
        exact kept_first kept idr
      · exact fun _ => ⟨by simp [idr], by simp [idr, Writer.segment], by simp [idr]⟩
    · have lost : ¬ Stores w call newAU := fun stores => idr (stores.keyframe idle create init)
      refine ⟨iff_of_false ?_ lost, fun stores => absurd stores lost⟩
      rw [done, files_empty rfl ((if_neg idr).trans empty), kept_snoc_iff]
      rintro ⟨_, _, complete⟩
      simp [kept.complete, Writer.segment] at complete

section Recording
variable (cur : w.cur = some segment) (pending : w.pending = some unit) (kept : Kept w.files owed)
include cur pending kept

/-- The waiting unit is owed and in no file. -/
private theorem lost_exact {err : String} (part : call.part = some err) : Exact w call newAU owed := by
  obtain ⟨failed, files⟩ := store_lost newAU cur pending part
  have lost : ¬ Stores w call newAU := by
    intro stores
    have fine := stores.part (by simp [pending])
    simp [part] at fine
  refine ⟨iff_of_false ?_ lost, fun stores => absurd stores lost⟩
  rw [files_recording cur pending, kept_snoc_iff] at kept
  rw [files, failed, kept_snoc_iff]
  rintro ⟨_, _, now⟩
  rw [← kept.2.2] at now
  simp [Segment.add] at now

/-- The next unit of a segment is stored well exactly if it is near the one before. -/
private theorem next_exact (started : segment.startDTS ≤ unit.dts) (after : unit.dts < newAU.dts) (part : call.part = none)
    (same : w.needRotate newAU.idrPresent call.now = false) : Exact w call newAU owed := by
  have waiting : Kept (w.closed ++ [segment.add unit (w.duration unit newAU.dts)]) owed := kept_waiting cur pending kept
  have near : Stores w call newAU ↔ newAU.dts.toInt - unit.dts.toInt < 2 ^ 32 := by
    constructor
    · intro stores
      exact stores.near unit pending same
    · intro near
      refine ⟨fun _ => part, fun other waits _ => ?_, fun idle => by simp [cur] at idle⟩
      rw [pending] at waits
      cases waits
      exact near
  constructor
  all_goals rw [store_on cur pending part same]
  · rw [near, files_recording (w := { flushed w segment unit newAU.dts with pending := some newAU }) rfl rfl, kept_snoc_iff,
      playable_next_iff started after]
    obtain ⟨before, ended, complete⟩ := kept_snoc_iff.mp waiting
    constructor
    · rintro ⟨_, ⟨_, near⟩, _⟩
      exact near
    · intro near
      refine ⟨before, ⟨ended, near⟩, ?_⟩
      rw [← complete]
      simp [flushed, Segment.add, Segment.part]
  · exact fun _ => ⟨rfl, by rintro _ ⟨⟩ _ ⟨⟩; exact Int64.le_trans started (Int64.le_of_lt after), by rintro _ ⟨⟩; rfl⟩

/-- A rotation keeps what was there, and the new segment has its keyframe if it opens. -/
private theorem rotate_exact (part : call.part = none) (rotates : w.needRotate newAU.idrPresent call.now = true) :
    Exact w call newAU owed := by
  have waiting : Kept (rotated w segment unit newAU.dts).closed owed := kept_waiting cur pending kept
  have stores : Stores w call newAU :=
    ⟨fun _ => part, fun _ _ same => by simp [rotates] at same, fun idle => by simp [cur] at idle⟩
  by_cases failed : call.create ≠ none ∨ call.init ≠ none
  · obtain ⟨err, gone⟩ := store_rotate_failed cur pending part rotates failed
    constructor
    all_goals rw [gone]
    · refine iff_of_true ?_ stores
      rw [files_idle rfl]
      simpa using waiting
    · exact fun _ => ⟨rfl, by rintro _ ⟨⟩, by rintro _ ⟨⟩⟩
  · obtain ⟨create, init⟩ : call.create = none ∧ call.init = none := by simpa using failed
    constructor
    all_goals rw [store_rotate_done cur pending part rotates create init]
    · refine iff_of_true ?_ stores
      rw [files_recording rfl rfl]
      exact kept_first waiting (keyframe_of_needRotate cur rotates)
    · exact fun _ => ⟨rfl, by rintro _ ⟨⟩ _ ⟨⟩; exact Int64.le_refl _, by rintro _ ⟨⟩; rfl⟩

/-- A unit that another one waits for in the open segment. -/
private theorem recording_exact (started : segment.startDTS ≤ unit.dts) (after : unit.dts < newAU.dts) :
    Exact w call newAU owed := by
  cases part : call.part with
  | some err => exact lost_exact cur pending kept part
  | none =>
    cases rotates : w.needRotate newAU.idrPresent call.now with
    | false => exact next_exact cur pending kept started after part rotates
    | true => exact rotate_exact cur pending kept part rotates

end Recording

/-- Parameter sets and the DTS extractor are nothing to the files. -/
private theorem files_received (w : Writer) (sps pps : Option Bytes) (primed : Bool) :
    ({ w with sps, pps, primed } : Writer).files = w.files := by
  rcases Option.eq_none_or_eq_some w.cur with cur | ⟨segment, cur⟩
  · rw [files_idle cur, files_idle (w := { w with sps, pps, primed }) cur]
  · rcases Option.eq_none_or_eq_some w.pending with pending | ⟨unit, pending⟩
    · rw [files_empty cur pending, files_empty (w := { w with sps, pps, primed }) cur pending]
    · rw [files_recording cur pending, files_recording (w := { w with sps, pps, primed }) cur pending]
      rfl

private theorem receive_fst (w : Writer) (call : Call) :
    ∃ sps pps primed, (w.receive call).1 = { w with sps, pps, primed } := by
  unfold Writer.receive
  dsimp only
  split
  · exact ⟨_, _, w.primed, rfl⟩
  · split
    · exact ⟨_, _, w.primed, rfl⟩
    · exact ⟨_, _, true, rfl⟩

/-- What a call does before it stores a unit. -/
private theorem write_cases (w : Writer) (call : Call) : ∃ sps pps primed,
    (w.unit? call = none ∧ (w.writeAccessUnit call).1 = { w with sps, pps, primed }) ∨
    (∃ newAU, w.unit? call = some newAU ∧
      w.writeAccessUnit call = Writer.store { w with sps, pps, primed } call newAU) := by
  obtain ⟨sps, pps, primed, same⟩ := receive_fst w call
  refine ⟨sps, pps, primed, ?_⟩
  unfold Writer.unit? Writer.writeAccessUnit
  rcases received : w.receive call with ⟨w', _ | err | newAU⟩
  all_goals rw [received] at same
  · exact .inl ⟨rfl, same⟩
  · exact .inl ⟨rfl, same⟩
  · exact .inr ⟨newAU, rfl, congrArg (Writer.store · call newAU) same⟩

/-- A call keeps the footage well formed exactly if it stores its unit as it should. -/
private theorem step_exact {s : Session} (sound : Sound s) (increasing : Increasing s call) (fine : WellFormed s) :
    (WellFormed (step s call) ↔ Clean s call) ∧ (Clean s call → Sound (step s call)) := by
  obtain ⟨sps, pps, primed, ⟨nothing, same⟩ | ⟨newAU, stored, ran⟩⟩ := write_cases s.writer call
  · have clean : Clean s call := by
      intro newAU stored
      rw [nothing] at stored
      cases stored
    have owed : (step s call).owed = s.owed := by simp [step, nothing]
    have last : (step s call).last = s.last := by simp [step, nothing]
    refine ⟨iff_of_true ?_ clean, fun _ => ⟨?_, ?_, ?_⟩⟩
    · rw [WellFormed, owed, step, same, files_received]
      exact fine
    · rw [step, same]
      exact sound.paired
    · rw [step, same]
      exact sound.started
    · rw [last, step, same]
      exact sound.recent
  · have next : step s call = ⟨(Writer.store { s.writer with sps, pps, primed } call newAU).1, some newAU.dts,
        s.owed ++ if (Writer.store { s.writer with sps, pps, primed } call newAU).2 = none then [newAU] else []⟩ := by
      simp [step, ran, stored]
    have clean : Clean s call ↔ Stores { s.writer with sps, pps, primed } call newAU := by
      constructor
      · intro all
        obtain ⟨part, near, keyframe⟩ := all newAU stored
        exact ⟨part, near, keyframe⟩
      · rintro ⟨part, near, keyframe⟩ other member
        rw [stored] at member
        cases member
        exact ⟨part, near, keyframe⟩
    rw [clean, next]
    have fine : Kept ({ s.writer with sps, pps, primed } : Writer).files s.owed := (files_received ..).symm ▸ fine
    have paired := sound.paired
    cases cur : s.writer.cur with
    | none =>
      have empty : s.writer.pending = none := by simpa [cur] using paired.symm
      have exact_ : Exact { s.writer with sps, pps, primed } call newAU s.owed := idle_exact cur empty fine
      exact ⟨exact_.kept, exact_.sound⟩
    | some segment =>
      obtain ⟨unit, pending⟩ := Option.isSome_iff_exists.mp (paired.symm.trans (by rw [cur]; rfl))
      have exact_ : Exact { s.writer with sps, pps, primed } call newAU s.owed := recording_exact cur pending fine
        (sound.started segment cur unit pending) (increasing newAU stored unit.dts (sound.recent unit pending))
      exact ⟨exact_.kept, exact_.sound⟩

end Sessions

/-- Over every sequence of access units with increasing DTS, whichever files cannot be
created or written, the footage stays playable and complete exactly if every unit is
stored as it should be. -/
theorem well_formed_iff (segmentDur : Int) (sps pps : Option Bytes) (calls : List Call)
    (increasing : Along step Increasing (opened segmentDur sps pps) calls) :
    Throughout step WellFormed (opened segmentDur sps pps) calls ↔ Along step Clean (opened segmentDur sps pps) calls := by
  have initial : Sound (opened segmentDur sps pps) := ⟨rfl, by rintro _ ⟨⟩, by rintro _ ⟨⟩⟩
  have fine : WellFormed (opened segmentDur sps pps) := ⟨by rintro _ ⟨⟩, rfl⟩
  exact throughout_iff_along_of
    (fun _ _ sound increasing fine clean => (step_exact sound increasing fine).2 clean)
    (fun _ _ sound increasing fine => (step_exact sound increasing fine).1) calls _ initial fine increasing

/-- A keyframe, whose file may fail to be created. -/
private def keyframe (now : Instant) (dts : Int64) (create : Option String) : Call :=
  { au := [[0x65]], now, pts := dts, dts := .ok dts, create }

private def frame (now : Instant) (dts : Int64) : Call := { au := [[0x41]], now, pts := dts, dts := .ok dts }

/-- At the first minute the disk is full. -/
private def fullDisk : List Call :=
  [keyframe 0 0 none, frame 33000000 3000, keyframe 60000000000 5400000 (some "no space left on device")]

/-- The keyframe after a failed rotation opens the next segment. -/
theorem well_formed_behind_keyframe :
    Throughout step WellFormed (opened 60000000000 (some [0x67]) (some [0x68]))
      (fullDisk ++ [keyframe 62000000000 5580000 none, frame 62033000000 5583000]) ↔
    Along step Clean (opened 60000000000 (some [0x67]) (some [0x68]))
      (fullDisk ++ [keyframe 62000000000 5580000 none, frame 62033000000 5583000]) :=
  well_formed_iff _ _ _ _ (by decide +kernel)

/-- The frame after a failed rotation opens the next segment and is in no file. -/
theorem frame_lost_behind_rotation :
    Along step Increasing (opened 60000000000 (some [0x67]) (some [0x68])) (fullDisk ++ [frame 60033000000 5403000]) ∧
    ¬ Throughout step WellFormed (opened 60000000000 (some [0x67]) (some [0x68]))
      (fullDisk ++ [frame 60033000000 5403000]) := by
  decide +kernel

end Ironsight.SegmentWriter
