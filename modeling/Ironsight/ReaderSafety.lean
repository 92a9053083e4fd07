import Ironsight.Sps

/-! Readers never index outside their buffer. A reader that is safe for a room before and
a room behind leaves that much behind it when it finds that much before it, unless it ends
with an error. -/
namespace Ironsight.ReaderSafety
open BitStrings BitReader Sps

/-- Where so many bits are left, the reader reads and leaves so many, or it returns an error. -/
def Safe {α : Type} (before behind : Nat) (r : Reader α) : Prop :=
  ∀ ⦃buf pos⦄, pos + before ≤ (bits buf).length →
    (∃ v next, r buf pos = .ok (v, next) ∧ next + behind ≤ (bits buf).length) ∨ ∃ text, r buf pos = .error (.error text)

section Rules
variable {α β : Type} {a b c a' b' : Nat} {r : Reader α} {f : α → Reader β}

theorem safe_pure (v : α) : Safe a a (pure v : Reader α) := fun _ pos room => .inl ⟨v, pos, rfl, room⟩

theorem safe_fail (text : String) : Safe a b (fail text : Reader α) := fun _ _ _ => .inr ⟨text, rfl⟩

theorem Safe.bind (first : Safe a b r) (second : ∀ v, Safe b c (f v)) : Safe a c (r >>= f) := by
  intro buf pos room
  obtain ⟨v, next, read, left⟩ | ⟨text, failed⟩ := first room
  · rw [bind_ok read]
    exact second v left
  · exact .inr ⟨text, bind_error failed⟩

theorem Safe.last {g : α → β} (safe : Safe a b r) : Safe a b (do return g (← r)) := safe.bind fun _ => safe_pure _

theorem safe_refuse {p : Prop} [Decidable p] (text : String) : Safe a a (refuse p text) := by
  rw [refuse]
  split
  · exact safe_fail text
  · exact safe_pure ()

theorem safe_given {p : Prop} [Decidable p] (safe : Safe a a r) (absent : α) : Safe a a (given p r absent) := by
  rw [given]
  split
  · exact safe
  · exact safe_pure absent

theorem safe_optional {flag : Reader Bool} (flags : Safe a b flag) (safe : Safe b b r) : Safe a b (optional flag r) := by
  refine flags.bind fun set => ?_
  cases set
  · exact safe_pure none
  · exact safe.last

theorem safe_times (safe : Safe a a r) (n : Nat) : Safe a a (times r n) := by
  induction n with
  | zero => exact safe_pure []
  | succ n ih => exact safe.bind fun _ => ih.last

theorem safe_of_reads {n : Nat} (value : Bits → α) (reads : ∀ code : Bits, code.length = n → Reads r code (value code)) :
    Safe (n + a) a r := by
  intro buf pos room
  have length : (((bits buf).drop pos).take n).length = n := by simp only [List.length_take, List.length_drop]; omega
  have read := reads _ length (List.take_append_drop n ((bits buf).drop pos)).symm
  exact .inl ⟨_, _, read, by omega⟩

end Rules

/-! ## The readers -/

variable {a : Nat}

theorem safe_hasSpace (n : Nat) : Safe a n (hasSpace n) := by
  intro buf pos room
  by_cases space : pos + n ≤ (bits buf).length
  · exact .inl ⟨_, _, hasSpace_ok space, space⟩
  · rw [length_bits] at space
    refine .inr ⟨"not enough bits", ?_⟩
    change (if buf.length * 8 < pos + n then fail "not enough bits" else pure ()) buf pos = _
    rw [if_pos (by omega)]
    rfl

theorem safe_flagUnsafe (b : Nat) : Safe (1 + b) b readFlagUnsafe :=
  safe_of_reads (fun code => code.headD false) fun code length => by
    obtain ⟨bit, rfl⟩ := List.length_eq_one_iff.mp length
    exact reads_flagUnsafe bit

theorem safe_bitsUnsafe (n b : Nat) (some : 0 < n) : Safe (n + b) b (readBitsUnsafe n) :=
  safe_of_reads (fun code => UInt64.ofNat (value code)) fun code length =>
    length ▸ reads_bitsUnsafe (List.length_pos_iff.mp (by omega))

theorem safe_uint8 (n b : Nat) (some : 0 < n) : Safe (n + b) b (uint8 (readBitsUnsafe n)) := (safe_bitsUnsafe n b some).last

theorem safe_uint16 (b : Nat) : Safe (16 + b) b (uint16 (readBitsUnsafe 16)) := (safe_bitsUnsafe 16 b (by decide)).last

theorem safe_uint32 (b : Nat) : Safe (32 + b) b (uint32 (readBitsUnsafe 32)) := (safe_bitsUnsafe 32 b (by decide)).last

theorem safe_flag : Safe 0 0 readFlag := (safe_hasSpace 1).bind fun _ => safe_flagUnsafe 0

theorem safe_bits {n : Nat} (some : 0 < n) : Safe 0 0 (readBits n) :=
  (safe_hasSpace n).bind fun _ => safe_bitsUnsafe n 0 some

theorem safe_golomb : Safe 0 0 readGolombUnsigned := by
  intro buf pos room
  obtain ⟨n, _, ⟨rest, here⟩, read⟩ | failed := readGolombUnsigned_cases room
  · refine .inl ⟨_, _, read, ?_⟩
    have := congrArg List.length here
    rw [List.length_append, List.length_drop] at this
    have positive := length_golomb n
    omega
  · exact .inr failed

theorem safe_signed : Safe 0 0 readGolombSigned := by
  refine safe_golomb.bind fun v => ?_
  dsimp only
  split <;> exact safe_pure _

/-! ## The sequence parameter set -/

theorem safe_hrd : Safe 0 0 Hrd.unmarshal := by
  have entry : Safe 0 0 HrdEntry.read :=
    safe_golomb.bind fun _ => safe_golomb.bind fun _ => safe_flag.bind fun _ => safe_pure _
  exact safe_golomb.bind fun _ => (safe_hasSpace 8).bind fun _ => (safe_refuse _).bind fun _ =>
    (safe_uint8 4 4 (by decide)).bind fun _ => (safe_uint8 4 0 (by decide)).bind fun _ =>
    (safe_times entry _).bind fun _ => (safe_hasSpace 20).bind fun _ =>
    (safe_uint8 5 15 (by decide)).bind fun _ => (safe_uint8 5 10 (by decide)).bind fun _ =>
    (safe_uint8 5 5 (by decide)).bind fun _ => (safe_uint8 5 0 (by decide)).bind fun _ => safe_pure _

theorem safe_vui : Safe 0 0 Vui.unmarshal := by
  have ratio : Safe 0 0 AspectRatio.read := by
    refine (safe_bits (n := 8) (by decide)).last.bind fun idc => ?_
    split
    · exact (safe_hasSpace 32).bind fun _ => (safe_uint16 16).bind fun _ => (safe_uint16 0).bind fun _ => safe_pure _
    · exact safe_pure _
  have colour : Safe 0 0 Colour.read :=
    (safe_hasSpace 24).bind fun _ => (safe_uint8 8 16 (by decide)).bind fun _ => (safe_uint8 8 8 (by decide)).bind fun _ =>
      (safe_uint8 8 0 (by decide)).bind fun _ => safe_pure _
  have signal : Safe 0 0 VideoSignal.read :=
    (safe_hasSpace 5).bind fun _ => (safe_uint8 3 2 (by decide)).bind fun _ => (safe_flagUnsafe 1).bind fun _ =>
      (safe_optional (safe_flagUnsafe 0) colour).bind fun _ => safe_pure _
  have loc : Safe 0 0 ChromaLoc.read := safe_golomb.bind fun _ => safe_golomb.bind fun _ => safe_pure _
  have timing : Safe 0 0 TimingInfo.unmarshal :=
    (safe_hasSpace 65).bind fun _ => (safe_uint32 33).bind fun _ => (safe_uint32 1).bind fun _ =>
      (safe_flagUnsafe 0).bind fun _ => safe_pure _
  have restriction : Safe 0 0 BitstreamRestriction.unmarshal :=
    safe_flag.bind fun _ => safe_golomb.bind fun _ => safe_golomb.bind fun _ => safe_golomb.bind fun _ =>
      safe_golomb.bind fun _ => safe_golomb.bind fun _ => safe_golomb.bind fun _ => safe_pure _
  exact (safe_optional safe_flag ratio).bind fun _ => (safe_optional safe_flag safe_flag).bind fun _ =>
    (safe_optional safe_flag signal).bind fun _ => (safe_optional safe_flag loc).bind fun _ =>
    (safe_optional safe_flag timing).bind fun _ => (safe_optional safe_flag safe_hrd).bind fun _ =>
    (safe_optional safe_flag safe_hrd).bind fun _ => (safe_given safe_flag _).bind fun _ => safe_flag.bind fun _ =>
    (safe_optional safe_flag restriction).bind fun _ => safe_pure _

theorem safe_scales (n : Nat) (first : Bool) (lastScale next : Int) (useDefault : Bool) :
    Safe 0 0 (scales n first lastScale next useDefault) := by
  induction n generalizing first lastScale next useDefault with
  | zero => exact safe_pure _
  | succ n ih =>
    have head : Safe 0 0 (nextScale first lastScale next useDefault) := by
      rw [nextScale]
      split
      · exact safe_signed.last
      · exact safe_pure _
    exact head.bind fun _ => (ih ..).last

theorem safe_scalingLists (n i : Nat) (chroma : Chroma) : Safe 0 0 (scalingLists n i chroma) := by
  induction n generalizing i chroma with
  | zero => exact safe_pure chroma
  | succ n ih => exact (safe_optional safe_flag (safe_scales ..)).bind fun _ => ih (i + 1) _

theorem safe_chroma : Safe 0 0 Chroma.read :=
  safe_golomb.bind fun _ => (safe_given safe_flag _).bind fun _ => safe_golomb.bind fun _ => safe_golomb.bind fun _ =>
    safe_flag.bind fun _ => (safe_optional safe_flag (safe_scalingLists ..)).bind fun _ => safe_pure _

theorem safe_picOrderCnt : Safe 0 0 PicOrderCnt.read := by
  refine safe_golomb.bind fun type => ?_
  split
  · exact safe_golomb.last
  · exact safe_flag.bind fun _ => safe_signed.bind fun _ => safe_signed.bind fun _ => safe_golomb.bind fun _ =>
      (safe_refuse _).bind fun _ => (safe_times safe_signed _).bind fun _ => safe_pure _
  · exact safe_pure _
  · exact safe_fail _

theorem safe_sps (profileIdc constraints levelIdc : UInt8) : Safe 0 0 (SPS.read profileIdc constraints levelIdc) := by
  have cropping : Safe 0 0 FrameCropping.unmarshal :=
    safe_golomb.bind fun _ => safe_golomb.bind fun _ => safe_golomb.bind fun _ => safe_golomb.bind fun _ => safe_pure _
  exact safe_golomb.bind fun _ => (safe_given safe_chroma _).bind fun _ => safe_golomb.bind fun _ =>
    safe_picOrderCnt.bind fun _ => safe_golomb.bind fun _ => safe_flag.bind fun _ => safe_golomb.bind fun _ =>
    safe_golomb.bind fun _ => safe_flag.bind fun _ => (safe_given safe_flag _).bind fun _ => safe_flag.bind fun _ =>
    (safe_optional safe_flag cropping).bind fun _ => (safe_optional safe_flag safe_vui).bind fun _ => safe_pure _

/-- No bytes make `Unmarshal` index outside its buffer. -/
theorem unmarshal_safe (buf : Bytes) : SPS.unmarshal buf ≠ .error .panic := by
  unfold SPS.unmarshal
  split
  · simp
  next header rest =>
    split
    · simp
    · rw [EmulationPrevention.emulationPreventionRemove_eq]
      split
      next none => cases none
      next profileIdc constraints levelIdc buf _ =>
        obtain ⟨sps, next, read, _⟩ | ⟨text, failed⟩ := safe_sps profileIdc constraints levelIdc (Nat.zero_le (bits buf).length)
        · rw [read]
          rintro ⟨⟩
        · rw [failed]
          rintro ⟨⟩
      · simp

end Ironsight.ReaderSafety
