import Ironsight.BitStrings

/-! The bit reader of the media library. A reader works on a buffer at a bit position;
it ends with an error, or with the panic of an index out of range. -/
namespace Ironsight.BitReader
open BitStrings

abbrev Bytes := List UInt8

inductive Fault
  | error (text : String)
  | panic
  deriving DecidableEq

abbrev Reader (α : Type) := ReaderT Bytes (StateT Nat (Except Fault)) α

def fail {α : Type} (text : String) : Reader α := fun _ _ => .error (.error text)

def refuse (c : Prop) [Decidable c] (text : String) : Reader Unit := if c then fail text else pure ()

/-- What is read under a condition only. -/
def given {α : Type} (c : Prop) [Decidable c] (r : Reader α) (absent : α) : Reader α := if c then r else pure absent

/-- A flag, and what follows it when it is set. -/
def optional {α : Type} (flag : Reader Bool) (r : Reader α) : Reader (Option α) := do
  if ← flag then return some (← r)
  return none

def times {α : Type} (r : Reader α) : Nat → Reader (List α)
  | 0 => pure []
  | n + 1 => do
    let a ← r
    return a :: (← times r n)

/-- The byte that holds the next bit. -/
def byteAt : Reader UInt8 := fun buf pos =>
  match buf[pos / 8]? with
  | some byte => .ok (byte, pos)
  | none => .error .panic

def move (n : Nat) : Reader Unit := modify (· + n)

def hasSpace (n : Nat) : Reader Unit := do
  if (← read).length * 8 < (← get) + n then fail "not enough bits"

/-- The loop over whole bytes. -/
def readWhole : Nat → UInt64 → Reader UInt64
  | 0, v => pure v
  | k + 1, v => do
    let byte ← byteAt
    move 8
    readWhole k (v <<< 8 ||| byte.toUInt64)

/-- What is left of a byte, when less than a byte is left to read. -/
def readLast (n : Nat) (v : UInt64) : Reader UInt64 :=
  if n = 0 then pure v
  else do
    let byte ← byteAt
    move n
    return v <<< UInt64.ofNat n ||| UInt64.ofNat (byte.toNat >>> (8 - n))

def readBitsUnsafe (n : Nat) : Reader UInt64 := do
  let res := 8 - (← get) % 8
  let byte ← byteAt
  if n < res then
    move n
    return UInt64.ofNat ((byte.toNat >>> (res - n)) &&& (2 ^ n - 1))
  move res
  let v ← readWhole ((n - res) / 8) (UInt64.ofNat (byte.toNat &&& (2 ^ res - 1)))
  readLast ((n - res) % 8) v

def readBits (n : Nat) : Reader UInt64 := do
  hasSpace n
  readBitsUnsafe n

def uint8 (r : Reader UInt64) : Reader UInt8 := do return (← r).toUInt8

def uint16 (r : Reader UInt64) : Reader UInt16 := do return (← r).toUInt16

def uint32 (r : Reader UInt64) : Reader UInt32 := do return (← r).toUInt32

def readFlagUnsafe : Reader Bool := do
  let byte ← byteAt
  let flag := byte.toNat.testBit (7 - (← get) % 8)
  move 1
  return flag

def readFlag : Reader Bool := do
  hasSpace 1
  readFlagUnsafe

/-- One round of the loop over the leading zeros, whether it is the last. -/
def leadingOne : Reader Bool := do
  if (← read).length * 8 = (← get) then fail "not enough bits"
  readFlagUnsafe

/-- The loop over the leading zeros, of which there may be so many more. -/
def leadingZeros : Nat → Reader Nat
  | 0 => do
    if ← leadingOne then return 32
    fail "invalid value"
  | left + 1 => do
    if ← leadingOne then return 31 - left
    leadingZeros left

/-- The loop over the bits behind the first one. -/
def codeNum : Nat → UInt32 → Reader UInt32
  | 0, num => pure num
  | n + 1, num => do
    let b ← readFlagUnsafe
    codeNum n (num ||| b.toUInt32 <<< UInt32.ofNat n)

/-- `ReadGolombUnsigned`: at most 32 zeros, then as many bits behind the leading one. -/
def readGolombUnsigned : Reader UInt32 := do
  let zeros ← leadingZeros 32
  if (← read).length * 8 < (← get) + zeros then fail "not enough bits"
  let num ← codeNum zeros 0
  return UInt32.ofNat (2 ^ zeros) - 1 + num

def readGolombSigned : Reader Int32 := do
  let vi := (← readGolombUnsigned).toInt32
  if vi &&& 1 ≠ 0 then return (vi + 1) / 2
  return -vi / 2

section
variable {α β : Type} {buf : Bytes} {pos next : Nat} {rest : Bits}

theorem bind_ok {r : Reader α} {f : α → Reader β} {a : α} (done : r buf pos = .ok (a, next)) :
    (r >>= f) buf pos = f a buf next := by
  change (r buf pos >>= fun p => f p.1 buf p.2) = _
  rw [done]
  rfl

theorem bind_error {r : Reader α} {f : α → Reader β} {fault : Fault} (failed : r buf pos = .error fault) :
    (r >>= f) buf pos = .error fault := by
  change (r buf pos >>= fun p => f p.1 buf p.2) = _
  rw [failed]
  rfl

theorem get_bind {f : Nat → Reader β} : (get >>= f) buf pos = f pos buf pos := bind_ok rfl

theorem read_bind {f : Bytes → Reader β} : (read >>= f) buf pos = f buf buf pos := bind_ok rfl

theorem move_bind {n : Nat} {f : Unit → Reader β} : (move n >>= f) buf pos = f () buf (pos + n) := bind_ok rfl

/-- Where the code stands, the reader returns the value and stops behind the code. -/
def Reads (r : Reader α) (code : Bits) (v : α) : Prop :=
  ∀ ⦃buf pos rest⦄, (bits buf).drop pos = code ++ rest → r buf pos = .ok (v, pos + code.length)

theorem reads_pure (v : α) : Reads (pure v) [] v := fun _ _ _ _ => rfl

theorem Reads.bind {r : Reader α} {f : α → Reader β} {code more : Bits} {v : α} {w : β}
    (first : Reads r code v) (second : Reads (f v) more w) : Reads (r >>= f) (code ++ more) w := by
  intro buf pos rest here
  rw [List.append_assoc] at here
  have behind : (bits buf).drop (pos + code.length) = more ++ rest := by
    rw [← List.drop_drop, here, List.drop_left]
  rw [bind_ok (first here), second behind, List.length_append, Nat.add_assoc]

/-- A result made of the last value read. -/
theorem Reads.last {r : Reader α} {f : α → β} {code : Bits} {v : α} (reads : Reads r code v) :
    Reads (do return f (← r)) code (f v) := by
  simpa using reads.bind (f := fun a => pure (f a)) (reads_pure (f v))

theorem Reads.unrefused {c : Prop} [Decidable c] {text : String} {r : Reader α} {code : Bits} {v : α} (fine : ¬ c)
    (reads : Reads r code v) : Reads (do refuse c text; r) code v := by
  have passes : Reads (refuse c text) [] () := by
    rw [refuse, if_neg fine]
    exact reads_pure ()
  exact passes.bind reads

theorem reads_given {c : Prop} [Decidable c] {r : Reader α} {code : Bits} {v absent : α} (present : c → Reads r code v)
    (otherwise : ¬ c → v = absent) : Reads (given c r absent) (if c then code else []) v := by
  by_cases holds : c
  · rw [given, if_pos holds, if_pos holds]
    exact present holds
  · rw [given, if_neg holds, if_neg holds, otherwise holds]
    exact reads_pure absent

/-- The code of an option is a flag and the code of what there is. -/
def flagged (code : α → Bits) : Option α → Bits
  | none => [false]
  | some a => true :: code a

theorem reads_optional {flag : Reader Bool} {r : Reader α} (code : α → Bits) (value : Option α)
    (flags : ∀ bit, Reads flag [bit] bit) (each : ∀ a ∈ value, Reads r (code a) a) :
    Reads (optional flag r) (flagged code value) value := by
  cases value with
  | none => exact (flags false).bind (reads_pure none)
  | some a => exact (flags true).bind (each a rfl).last

theorem reads_times {r : Reader α} {code : α → Bits} {list : List α} (each : ∀ a ∈ list, Reads r (code a) a) :
    Reads (times r list.length) (list.flatMap code) list := by
  induction list with
  | nil => exact reads_pure []
  | cons a list ih =>
    exact (each a List.mem_cons_self).bind (ih fun b mem => each b (List.mem_cons_of_mem a mem)).last

/-! ## Single bits -/

theorem room_of_drop {code : Bits} (nonempty : code ≠ []) (here : (bits buf).drop pos = code ++ rest) :
    pos + code.length ≤ (bits buf).length := by
  have lengths := congrArg List.length here
  have : 0 < code.length := List.length_pos_iff.mpr nonempty
  rw [List.length_drop, List.length_append] at lengths
  omega

/-- The byte with the bits that stand at a position. -/
theorem exists_byte {code : Bits} (nonempty : code ≠ []) (here : (bits buf).drop pos = code ++ rest) :
    ∃ byte, buf[pos / 8]? = some byte ∧
      code ++ rest = digits (8 - pos % 8) byte.toNat ++ bits (buf.drop (pos / 8 + 1)) := by
  have room := room_of_drop nonempty here
  have : 0 < code.length := List.length_pos_iff.mpr nonempty
  rw [length_bits] at room
  have byte := List.getElem?_eq_getElem (show pos / 8 < buf.length by omega)
  exact ⟨_, byte, by rw [← here, bits_drop_inside byte]⟩

theorem byteAt_ok {byte : UInt8} (at_pos : buf[pos / 8]? = some byte) : byteAt buf pos = .ok (byte, pos) := by
  rw [byteAt, at_pos]

theorem hasSpace_ok {n : Nat} (room : pos + n ≤ (bits buf).length) : hasSpace n buf pos = .ok ((), pos) := by
  rw [length_bits] at room
  change (if buf.length * 8 < pos + n then fail "not enough bits" else pure ()) buf pos = _
  rw [if_neg (by omega)]
  rfl

theorem reads_flagUnsafe (bit : Bool) : Reads readFlagUnsafe [bit] bit := by
  intro buf pos rest here
  obtain ⟨byte, at_pos, parts⟩ := exists_byte (by simp) here
  obtain ⟨width, eq⟩ : ∃ width, 8 - pos % 8 = width + 1 := ⟨7 - pos % 8, by omega⟩
  rw [eq, digits, List.singleton_append, List.cons_append, List.cons_eq_cons] at parts
  have width_eq : width = 7 - pos % 8 := by omega
  rw [readFlagUnsafe, bind_ok (byteAt_ok at_pos), parts.1, width_eq]
  rfl

/-- What is read behind the check has at least the space that the check asks for. -/
theorem Reads.spaced {n : Nat} {r : Reader α} {code : Bits} {v : α} (reads : Reads r code v) (some : 0 < n)
    (fits : n ≤ code.length) : Reads (do hasSpace n; r) code v := by
  intro buf pos rest here
  have room := room_of_drop (List.length_pos_iff.mp (by omega)) here
  rw [bind_ok (hasSpace_ok (by omega)), reads here]

theorem reads_flag (bit : Bool) : Reads readFlag [bit] bit := (reads_flagUnsafe bit).spaced (by decide) le_rfl

/-! ## Several bits -/

theorem shift_or {high low width : Nat} (below : low < 2 ^ width) (narrow : width < 64) :
    UInt64.ofNat high <<< UInt64.ofNat width ||| UInt64.ofNat low = UInt64.ofNat (high * 2 ^ width + low) := by
  apply UInt64.toNat_inj.mp
  have small : width % 2 ^ 64 % 64 = width := by omega
  simp only [UInt64.toNat_or, UInt64.toNat_shiftLeft, UInt64.toNat_ofNat', small]
  rw [← Nat.or_mod_two_pow, ← Nat.shiftLeft_eq, Nat.shiftLeft_add_eq_or_of_lt below, Nat.or_mod_two_pow, Nat.or_mod_two_pow]
  congr 1
  rw [Nat.shiftLeft_eq, Nat.shiftLeft_eq, Nat.mod_mul_mod]

/-- The bits of one byte, the first of them. -/
theorem digits_front {width byte : Nat} {code more : Bits} (le : code.length ≤ width)
    (parts : code ++ rest = digits width byte ++ more) : value code = byte / 2 ^ (width - code.length) % 2 ^ code.length := by
  obtain ⟨low, rfl⟩ := Nat.exists_eq_add_of_le le
  rw [digits_add, List.append_assoc] at parts
  rw [(List.append_inj parts (by simp)).1, value_digits]
  simp

theorem drop_behind {code more : Bits} (here : (bits buf).drop pos = code ++ more) :
    (bits buf).drop (pos + code.length) = more := by
  rw [← List.drop_drop, here, List.drop_left]

theorem readWhole_ok {k : Nat} (high : Nat) (whole : pos % 8 = 0) {code : Bits} (length : code.length = 8 * k)
    (here : (bits buf).drop pos = code ++ rest) :
    readWhole k (UInt64.ofNat high) buf pos = .ok (UInt64.ofNat (high * 2 ^ code.length + value code), pos + code.length) := by
  induction k generalizing pos high code with
  | zero =>
    obtain rfl : code = [] := List.length_eq_zero_iff.mp length
    simp [readWhole, value]
    rfl
  | succ k ih =>
    obtain ⟨first, more, rfl, eight⟩ : ∃ first more, code = first ++ more ∧ first.length = 8 :=
      ⟨code.take 8, code.drop 8, (List.take_append_drop 8 code).symm, by simp; omega⟩
    rw [List.append_assoc] at here
    obtain ⟨byte, at_pos, parts⟩ := exists_byte (by rintro rfl; cases eight) here
    rw [whole] at parts
    have first_eq := (List.append_inj parts (by simpa using eight)).1
    rw [readWhole, bind_ok (byteAt_ok at_pos), move_bind]
    have step : UInt64.ofNat high <<< 8 ||| byte.toUInt64 = UInt64.ofNat (high * 2 ^ 8 + byte.toNat) := by
      rw [← shift_or byte.toNat_lt (by decide), ← UInt8.toNat_toUInt64, UInt64.ofNat_toNat]
      rfl
    have behind := drop_behind here
    rw [eight] at behind
    rw [step, ih _ (by omega) (by rw [List.length_append] at length; omega) behind, List.length_append, eight, value_append, first_eq,
      value_digits, Nat.mod_eq_of_lt byte.toNat_lt, Nat.pow_add, Nat.add_mul, Nat.mul_assoc, Nat.add_assoc, Nat.add_assoc]

theorem readLast_ok (high : Nat) (whole : pos % 8 = 0) {code : Bits} (short : code.length < 8)
    (here : (bits buf).drop pos = code ++ rest) :
    readLast code.length (UInt64.ofNat high) buf pos =
      .ok (UInt64.ofNat (high * 2 ^ code.length + value code), pos + code.length) := by
  by_cases nonempty : code = []
  · subst nonempty
    simp [readLast, value]
    rfl
  · obtain ⟨byte, at_pos, parts⟩ := exists_byte nonempty here
    rw [whole] at parts
    have below : byte.toNat / 2 ^ (8 - code.length) < 2 ^ code.length := by
      rw [Nat.div_lt_iff_lt_mul (Nat.two_pow_pos _), ← Nat.pow_add, Nat.add_sub_cancel' (by omega)]
      exact byte.toNat_lt
    have low := digits_front (by omega) parts
    rw [Nat.sub_zero, Nat.mod_eq_of_lt below] at low
    rw [readLast, if_neg (mt List.length_eq_zero_iff.mp nonempty), bind_ok (byteAt_ok at_pos),
      move_bind, Nat.shiftRight_eq_div_pow, ← low,
      shift_or (value_lt code) (by omega)]
    rfl

/-- `ReadBitsUnsafe` reads the number that the bits stand for, at any alignment. -/
theorem reads_bitsUnsafe {code : Bits} (nonempty : code ≠ []) :
    Reads (readBitsUnsafe code.length) code (UInt64.ofNat (value code)) := by
  intro buf pos rest here
  obtain ⟨byte, at_pos, parts⟩ := exists_byte nonempty here
  rw [readBitsUnsafe, get_bind, bind_ok (byteAt_ok at_pos)]
  by_cases inside : code.length < 8 - pos % 8
  · rw [if_pos inside, move_bind, Nat.and_two_pow_sub_one_eq_mod, Nat.shiftRight_eq_div_pow,
      ← digits_front (by omega) parts]
    rfl
  · rw [if_neg inside, move_bind, Nat.and_two_pow_sub_one_eq_mod]
    obtain ⟨res, res_eq⟩ : ∃ res, res = 8 - pos % 8 := ⟨_, rfl⟩
    rw [← res_eq] at parts inside ⊢
    obtain ⟨first, whole, last, rfl, first_length, whole_length, last_length⟩ :
        ∃ first whole last, code = first ++ (whole ++ last) ∧ first.length = res ∧
          whole.length = 8 * ((code.length - res) / 8) ∧ last.length = (code.length - res) % 8 :=
      ⟨code.take res, (code.drop res).take (8 * ((code.length - res) / 8)), (code.drop res).drop (8 * ((code.length - res) / 8)),
        by rw [List.take_append_drop, List.take_append_drop], by simp; omega, by simp; omega, by simp; omega⟩
    rw [List.append_assoc, List.append_assoc] at here
    have from_whole := drop_behind here
    have from_last := drop_behind from_whole
    rw [first_length] at from_whole from_last
    rw [List.append_assoc] at parts
    have first_eq := (List.append_inj parts (by simpa using first_length)).1
    have first_value : byte.toNat % 2 ^ res = value first := by rw [first_eq, value_digits]
    rw [first_value, bind_ok (readWhole_ok _ (by omega) whole_length from_whole), ← last_length,
      readLast_ok _ (by omega) (by omega) from_last]
    simp only [value_append, List.length_append, first_length, Nat.pow_add, Nat.add_mul, Nat.mul_assoc, Nat.add_assoc]

/-! ## The Exp-Golomb code -/

theorem leadingOne_here {bit : Bool} (here : (bits buf).drop pos = bit :: rest) :
    leadingOne buf pos = .ok (bit, pos + 1) := by
  have room := room_of_drop (List.cons_ne_nil bit []) here
  rw [length_bits, List.length_singleton] at room
  rw [leadingOne, read_bind, get_bind, if_neg (by omega)]
  exact reads_flagUnsafe bit here

theorem reads_leadingOne (bit : Bool) : Reads leadingOne [bit] bit := fun _ _ _ here => leadingOne_here here

theorem reads_leadingZeros {left zeros : Nat} (enough : zeros ≤ left) (most : left ≤ 32) :
    Reads (leadingZeros left) (List.replicate zeros false ++ [true]) (32 - left + zeros) := by
  induction left generalizing zeros with
  | zero =>
    obtain rfl : zeros = 0 := Nat.le_zero.mp enough
    exact (reads_leadingOne true).bind (reads_pure 32)
  | succ left ih =>
    cases zeros with
    | zero =>
      have count : 32 - (left + 1) + 0 = 31 - left := by omega
      rw [count]
      exact (reads_leadingOne true).bind (reads_pure (31 - left))
    | succ zeros =>
      have count : 32 - (left + 1) + (zeros + 1) = 32 - left + zeros := by omega
      rw [count, List.replicate_succ, List.cons_append]
      exact (reads_leadingOne false).bind (ih (by omega) (by omega))

theorem bit_or {high width : Nat} (bit : Bool) (narrow : width < 32) :
    UInt32.ofNat (high * 2 ^ (width + 1)) ||| bit.toUInt32 <<< UInt32.ofNat width =
      UInt32.ofNat ((high * 2 + bit.toNat) * 2 ^ width) := by
  apply UInt32.toNat_inj.mp
  have small : width % 2 ^ 32 % 32 = width := by omega
  have low : bit.toNat <<< width < 2 ^ (width + 1) := by
    rw [Nat.shiftLeft_eq, Nat.pow_succ]
    cases bit <;> simp
  have bit_eq : bit.toUInt32.toNat = bit.toNat := by cases bit <;> rfl
  simp only [UInt32.toNat_or, UInt32.toNat_shiftLeft, UInt32.toNat_ofNat', small, bit_eq]
  rw [← Nat.or_mod_two_pow, ← Nat.shiftLeft_eq, ← Nat.shiftLeft_add_eq_or_of_lt low, Nat.shiftLeft_eq, Nat.shiftLeft_eq]
  congr 1
  ring

theorem reads_codeNum (high : Nat) {code : Bits} (short : code.length ≤ 32) :
    Reads (codeNum code.length (UInt32.ofNat (high * 2 ^ code.length))) code
      (UInt32.ofNat (high * 2 ^ code.length + value code)) := by
  induction code generalizing high with
  | nil => exact reads_pure _
  | cons bit code ih =>
    rw [List.length_cons] at short
    refine (reads_flagUnsafe bit).bind ?_
    have sum : high * 2 ^ (code.length + 1) + value (bit :: code) = (high * 2 + bit.toNat) * 2 ^ code.length + value code := by
      rw [value, Nat.pow_succ]
      ring
    rw [List.length_cons, bit_or bit (by omega), sum]
    exact ih (high * 2 + bit.toNat) (by omega)

theorem sub_one_add {zeros n : Nat} :
    UInt32.ofNat (2 ^ zeros) - 1 + UInt32.ofNat n = UInt32.ofNat (2 ^ zeros - 1 + n) := by
  rw [UInt32.ofNat_add, UInt32.ofNat_sub (Nat.one_le_two_pow)]
  rfl

theorem reads_parts {code : Bits} (short : code.length ≤ 32) :
    Reads readGolombUnsigned (List.replicate code.length false ++ true :: code)
      (UInt32.ofNat (2 ^ code.length - 1 + value code)) := by
  intro buf pos rest here
  rw [← List.singleton_append, ← List.append_assoc] at here ⊢
  have parts := here
  rw [List.append_assoc] at parts
  have behind := drop_behind parts
  have room : ¬ buf.length * 8 < pos + (List.replicate code.length false ++ [true]).length + code.length := by
    have := room_of_drop (by simp) here
    rw [length_bits, List.length_append] at this
    omega
  have zeros := reads_leadingZeros short le_rfl parts
  have rest_read := reads_codeNum 0 short behind
  rw [Nat.sub_self, Nat.zero_add] at zeros
  rw [Nat.zero_mul, Nat.zero_add] at rest_read
  rw [readGolombUnsigned, bind_ok zeros, read_bind, get_bind, if_neg room]
  change (codeNum code.length (UInt32.ofNat 0) >>= _) buf _ = _
  rw [bind_ok rest_read, sub_one_add, @List.length_append Bool _ code, Nat.add_assoc]
  rfl

/-- The code of a number below `2 ^ 33 - 1`; from `2 ^ 32` on the number wraps. -/
theorem reads_golomb {n : Nat} (short : (n + 1).log2 ≤ 32) : Reads readGolombUnsigned (golomb n) (UInt32.ofNat n) := by
  have reads := reads_parts (show (digits (n + 1).log2 (n + 1)).length ≤ 32 by rwa [length_digits])
  rwa [length_digits, value_digits, golomb_rest, ← golomb_eq] at reads

theorem reads_ue (v : UInt32) : Reads readGolombUnsigned (golomb v.toNat) v := by
  have below := v.toNat_lt
  have reads := reads_golomb (n := v.toNat) (by rw [← Nat.lt_succ_iff, Nat.log2_lt (by omega)]; omega)
  rwa [UInt32.ofNat_toNat] at reads

/-- A field of fixed width. -/
theorem reads_fixedUnsafe {width n : Nat} (some : 0 < width) (below : n < 2 ^ width) :
    Reads (readBitsUnsafe width) (digits width n) (UInt64.ofNat n) := by
  have reads := reads_bitsUnsafe (show digits width n ≠ [] from List.length_pos_iff.mp (by simpa using some))
  rwa [length_digits, value_digits, Nat.mod_eq_of_lt below] at reads

theorem reads_fixed {width n : Nat} (some : 0 < width) (below : n < 2 ^ width) :
    Reads (readBits width) (digits width n) (UInt64.ofNat n) :=
  (reads_fixedUnsafe some below).spaced some (by simp)

theorem reads_uint8 {width : Nat} {v : UInt8} (some : 0 < width) (below : v.toNat < 2 ^ width) :
    Reads (uint8 (readBitsUnsafe width)) (digits width v.toNat) v := by
  have reads := (reads_fixedUnsafe some below).last (f := UInt64.toUInt8)
  rwa [UInt64.toUInt8_ofNat', UInt8.ofNat_toNat] at reads

theorem reads_uint16 (v : UInt16) : Reads (uint16 (readBitsUnsafe 16)) (digits 16 v.toNat) v := by
  have reads := (reads_fixedUnsafe (show 0 < 16 by decide) v.toNat_lt).last (f := UInt64.toUInt16)
  rwa [UInt64.toUInt16_ofNat', UInt16.ofNat_toNat] at reads

theorem reads_uint32 (v : UInt32) : Reads (uint32 (readBitsUnsafe 32)) (digits 32 v.toNat) v := by
  have reads := (reads_fixedUnsafe (show 0 < 32 by decide) v.toNat_lt).last (f := UInt64.toUInt32)
  rwa [UInt64.toUInt32_ofNat', UInt32.ofNat_toNat] at reads

/-- The number whose code stands for a signed value. -/
def signedNumber (k : Int) : Nat := if 0 < k then (2 * k - 1).toNat else (-2 * k).toNat

theorem odd_iff (n : Nat) : Int32.ofNat n &&& 1 ≠ 0 ↔ n % 2 = 1 := by
  have bits : (Int32.ofNat n &&& 1).toUInt32 = UInt32.ofNat (n % 2) := by
    rw [Int32.toUInt32_and, Int32.toUInt32_ofNat', ← UInt32.toNat_inj, UInt32.toNat_and, UInt32.toNat_ofNat',
      UInt32.toNat_ofNat', show (Int32.toUInt32 1).toNat = 1 from rfl, Nat.and_one_is_mod]
    omega
  constructor
  · intro odd
    by_contra even
    rw [show n % 2 = 0 by omega] at bits
    exact odd (congrArg UInt32.toInt32 bits)
  · intro odd zero
    rw [zero, odd] at bits
    cases bits

theorem signed_of_code {k : Int32} (low : -2 ^ 30 ≤ k.toInt) (high : k.toInt < 2 ^ 30) :
    (if Int32.ofNat (signedNumber k.toInt) &&& 1 ≠ 0 then (Int32.ofNat (signedNumber k.toInt) + 1) / 2
      else -Int32.ofNat (signedNumber k.toInt) / 2) = k := by
  have two : (2 : Int32).toInt = 2 := rfl
  have one : (1 : Int32).toInt = 1 := rfl
  have size : Int32.size = 2 ^ 32 := rfl
  apply Int32.toInt_inj.mp
  by_cases positive : 0 < k.toInt
  · have number : (signedNumber k.toInt : Int) = 2 * k.toInt - 1 := by
      rw [signedNumber, if_pos positive, Int.toNat_of_nonneg (by omega)]
    have half : (2 * k.toInt).tdiv 2 = k.toInt := Int.mul_tdiv_cancel_left _ (by decide)
    rw [if_pos ((odd_iff _).mpr (by omega)), Int32.toInt_div, Int32.toInt_add, Int32.toInt_ofNat', number, two, one, size,
      Int.bmod_eq_of_le (n := 2 * k.toInt - 1) (by omega) (by omega), Int.sub_add_cancel,
      Int.bmod_eq_of_le (n := 2 * k.toInt) (by omega) (by omega), half, Int.bmod_eq_of_le (by omega) (by omega)]
  · have number : (signedNumber k.toInt : Int) = -2 * k.toInt := by
      rw [signedNumber, if_neg positive, Int.toNat_of_nonneg (by omega)]
    have half : (2 * k.toInt).tdiv 2 = k.toInt := Int.mul_tdiv_cancel_left _ (by decide)
    -- the lowest value is its own negative
    have back : (-(-2 * k.toInt).bmod (2 ^ 32)).bmod (2 ^ 32) = 2 * k.toInt := by
      rw [Int.bmod_neg_bmod, Int.neg_mul, Int.neg_neg]
      exact Int.bmod_eq_of_le (by omega) (by omega)
    rw [if_neg (mt (odd_iff _).mp (by omega)), Int32.toInt_div, Int32.toInt_neg, Int32.toInt_ofNat', number, two, size, back,
      half, Int.bmod_eq_of_le (by omega) (by omega)]
/-- Signed values of 31 bits are read back. -/
theorem reads_se {k : Int32} (low : -2 ^ 30 ≤ k.toInt) (high : k.toInt < 2 ^ 30) :
    Reads readGolombSigned (golomb (signedNumber k.toInt)) k := by
  have number : signedNumber k.toInt < 2 ^ 32 := by
    unfold signedNumber
    split <;> omega
  have reads := reads_golomb (n := signedNumber k.toInt) (by rw [← Nat.lt_succ_iff, Nat.log2_lt (by omega)]; omega)
  have result := signed_of_code low high
  intro buf pos rest here
  rw [readGolombSigned, bind_ok (reads here), UInt32.toInt32_ofNat']
  split at result
  next odd => rw [if_pos odd, result]; rfl
  next even => rw [if_neg even, result]; rfl

theorem leadingOne_end (done : pos = (bits buf).length) : leadingOne buf pos = .error (.error "not enough bits") := by
  rw [length_bits] at done
  rw [leadingOne, read_bind, get_bind, if_pos (by omega)]
  exact bind_error rfl

theorem leadingZeros_end {left zeros : Nat} (enough : zeros ≤ left) (inside : pos ≤ (bits buf).length)
    (here : (bits buf).drop pos = List.replicate zeros false) :
    leadingZeros left buf pos = .error (.error "not enough bits") := by
  induction zeros generalizing left pos with
  | zero =>
    have done : pos = (bits buf).length := le_antisymm inside (List.drop_eq_nil_iff.mp here)
    cases left <;> exact bind_error (leadingOne_end done)
  | succ zeros ih =>
    obtain ⟨left, rfl⟩ := Nat.exists_eq_add_of_le' (show 1 ≤ left by omega)
    rw [List.replicate_succ] at here
    rw [leadingZeros, bind_ok (leadingOne_here here)]
    exact ih (by omega) (room_of_drop (List.cons_ne_nil false []) here) (drop_behind (show _ = [false] ++ _ from here))

theorem leadingZeros_over {left : Nat} (here : (bits buf).drop pos = List.replicate (left + 1) false ++ rest) :
    leadingZeros left buf pos = .error (.error "invalid value") := by
  induction left generalizing pos with
  | zero =>
    rw [leadingZeros, bind_ok (leadingOne_here here)]
    rfl
  | succ left ih =>
    rw [List.replicate_succ, List.cons_append] at here
    rw [leadingZeros, bind_ok (leadingOne_here here)]
    exact ih (drop_behind (show _ = [false] ++ _ from here))

theorem readGolombUnsigned_cases (inside : pos ≤ (bits buf).length) :
    (∃ n, (n + 1).log2 ≤ 32 ∧ golomb n <+: (bits buf).drop pos ∧
      readGolombUnsigned buf pos = .ok (UInt32.ofNat n, pos + (golomb n).length)) ∨
    ∃ text, readGolombUnsigned buf pos = .error (.error text) := by
  obtain ⟨n, rest, short, here⟩ | ⟨rest, here⟩ | ⟨zeros, few, here | ⟨rest, cut, here⟩⟩ := golomb_cases ((bits buf).drop pos) 32
  · exact .inl ⟨n, short, ⟨rest, here.symm⟩, reads_golomb short here⟩
  · exact .inr ⟨_, bind_error (leadingZeros_over here)⟩
  · exact .inr ⟨_, bind_error (leadingZeros_end few inside here)⟩
  · refine .inr ⟨"not enough bits", ?_⟩
    rw [← List.singleton_append, ← List.append_assoc] at here
    have room := room_of_drop (by simp) here
    have length := congrArg List.length here
    rw [length_bits] at room
    rw [List.length_drop, length_bits, List.length_append] at length
    rw [readGolombUnsigned, bind_ok (reads_leadingZeros few le_rfl here), read_bind, get_bind, if_pos (by omega)]
    exact bind_error rfl

/-- From a position inside the buffer it reads a number exactly where the number's code stands,
leaves the position behind the code, and never panics. -/
theorem readGolombUnsigned_exact (inside : pos ≤ (bits buf).length) (w : UInt32) :
    (readGolombUnsigned buf pos = .ok (w, next) ↔
      ∃ n, (n + 1).log2 ≤ 32 ∧ golomb n <+: (bits buf).drop pos ∧ w = UInt32.ofNat n ∧ next = pos + (golomb n).length) ∧
    readGolombUnsigned buf pos ≠ .error .panic := by
  obtain ⟨n, short, ⟨rest, here⟩, read⟩ | ⟨text, failed⟩ := readGolombUnsigned_cases inside
  · rw [read]
    refine ⟨⟨fun same => ?_, ?_⟩, by simp⟩
    · cases same
      exact ⟨n, short, ⟨rest, here⟩, rfl, rfl⟩
    · rintro ⟨m, short', ⟨rest', here'⟩, rfl, rfl⟩
      rw [← read, reads_golomb short' here'.symm]
  · rw [failed]
    refine ⟨⟨by simp, ?_⟩, by simp⟩
    rintro ⟨n, short, ⟨rest, here⟩, -⟩
    rw [reads_golomb short here.symm] at failed
    cases failed

end

/-- The code of four, at the start of a byte. -/
theorem readGolombUnsigned_exact_four :
    (readGolombUnsigned [0b00101000] 0 = .ok (4, 5) ↔
      ∃ n, (n + 1).log2 ≤ 32 ∧ golomb n <+: (bits [0b00101000]).drop 0 ∧ 4 = UInt32.ofNat n ∧ 5 = 0 + (golomb n).length) ∧
    readGolombUnsigned [0b00101000] 0 ≠ .error .panic :=
  readGolombUnsigned_exact (Nat.zero_le _) 4

end Ironsight.BitReader
