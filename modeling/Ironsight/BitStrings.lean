import Mathlib.Algebra.Order.Ring.Nat
import Mathlib.Data.Nat.Bitwise
import Mathlib.Data.Nat.Log
import Mathlib.Tactic.Ring

/-! Bit strings, most significant bit first: the bits of bytes, the number that a bit
string stands for, and the unsigned Exp-Golomb code. -/
namespace Ironsight.BitStrings

/-- The most significant bit first. -/
abbrev Bits := List Bool

/-- The number that a bit string stands for. -/
def value : Bits → Nat
  | [] => 0
  | bit :: bits => bit.toNat * 2 ^ bits.length + value bits

/-- The last `width` bits of a number. -/
def digits : Nat → Nat → Bits
  | 0, _ => []
  | width + 1, n => n.testBit width :: digits width n

/-- The bits of the bytes, one byte after the other. -/
def bits (bytes : List UInt8) : Bits := bytes.flatMap fun byte => digits 8 byte.toNat

/-- As many zeros as there are bits behind the leading one of `n + 1`, then `n + 1`. -/
def golomb (n : Nat) : Bits := List.replicate (n + 1).log2 false ++ digits ((n + 1).log2 + 1) (n + 1)

@[simp] theorem length_digits (width n : Nat) : (digits width n).length = width := by
  induction width with
  | zero => rfl
  | succ width ih => simp [digits, ih]

@[simp] theorem length_bits (bytes : List UInt8) : (bits bytes).length = 8 * bytes.length := by
  induction bytes with
  | nil => rfl
  | cons byte bytes ih =>
    simp only [bits, List.flatMap_cons, List.length_append, length_digits, List.length_cons] at ih ⊢
    omega

@[simp] theorem bits_nil : bits [] = [] := rfl

theorem bits_cons (byte : UInt8) (bytes : List UInt8) : bits (byte :: bytes) = digits 8 byte.toNat ++ bits bytes := rfl

@[simp] theorem bits_append (first second : List UInt8) : bits (first ++ second) = bits first ++ bits second := by
  simp [bits]

/-! ## Numbers -/

theorem value_lt (bits : Bits) : value bits < 2 ^ bits.length := by
  induction bits with
  | nil => simp [value]
  | cons bit bits ih =>
    simp only [value, List.length_cons, Nat.pow_succ]
    cases bit <;> simp <;> omega

theorem value_append (first second : Bits) :
    value (first ++ second) = value first * 2 ^ second.length + value second := by
  induction first with
  | nil => simp [value]
  | cons bit first ih =>
    simp only [List.cons_append, value, ih, List.length_append, Nat.pow_add]
    ring

@[simp] theorem value_digits (width n : Nat) : value (digits width n) = n % 2 ^ width := by
  induction width with
  | zero => simp [digits, value, Nat.mod_one]
  | succ width ih =>
    rw [digits, value, length_digits, ih, Nat.pow_succ, Nat.mod_mul, Nat.toNat_testBit]
    ring

theorem digits_value (bits : Bits) : digits bits.length (value bits) = bits := by
  suffices ∀ high, digits bits.length (high * 2 ^ bits.length + value bits) = bits by simpa using this 0
  induction bits with
  | nil => exact fun _ => rfl
  | cons bit bits ih =>
    intro high
    have split : high * 2 ^ (bits.length + 1) + (bit.toNat * 2 ^ bits.length + value bits) =
        (high * 2 + bit.toNat) * 2 ^ bits.length + value bits := by ring
    simp only [List.length_cons, value, digits, split, ih, List.cons.injEq, and_true]
    rw [Nat.testBit_eq_decide_div_mod_eq, Nat.mul_comm,
      Nat.mul_add_div (Nat.two_pow_pos _), Nat.div_eq_of_lt (value_lt bits)]
    cases bit <;> simp

/-- The high digits and the low ones. -/
theorem digits_add (high low n : Nat) : digits (high + low) n = digits high (n / 2 ^ low) ++ digits low n := by
  induction high with
  | zero => simp [digits]
  | succ high ih =>
    rw [Nat.succ_add, digits, digits, ih, List.cons_append, Nat.testBit_div_two_pow, Nat.add_comm]

theorem digits_drop {skip width : Nat} (le : skip ≤ width) (n : Nat) :
    (digits width n).drop skip = digits (width - skip) n := by
  obtain ⟨rest, rfl⟩ := Nat.exists_eq_add_of_le le
  rw [digits_add, List.drop_left' (by simp), Nat.add_sub_cancel_left]

theorem digits_mod {width wider : Nat} (le : width ≤ wider) (n : Nat) : digits width (n % 2 ^ wider) = digits width n := by
  induction width with
  | zero => rfl
  | succ width ih =>
    have : width < wider := le
    rw [digits, digits, ih (by omega), Nat.testBit_mod_two_pow]
    simp [this]

/-! ## The bits from a place on -/

theorem bits_drop (bytes : List UInt8) (n : Nat) : (bits bytes).drop (8 * n) = bits (bytes.drop n) := by
  induction n generalizing bytes with
  | zero => rfl
  | succ n ih =>
    cases bytes with
    | nil => simp
    | cons byte bytes =>
      rw [bits_cons, Nat.mul_succ, Nat.add_comm, ← List.drop_drop, List.drop_left' (by simp), ih]
      rfl

/-- Inside a byte there are its low digits first. -/
theorem bits_drop_inside {bytes : List UInt8} {byte : UInt8} {pos : Nat} (at_pos : bytes[pos / 8]? = some byte) :
    (bits bytes).drop pos = digits (8 - pos % 8) byte.toNat ++ bits (bytes.drop (pos / 8 + 1)) := by
  obtain ⟨inside, rfl⟩ := List.getElem?_eq_some_iff.mp at_pos
  have place : pos = 8 * (pos / 8) + pos % 8 := by omega
  conv_lhs => rw [place, ← List.drop_drop, bits_drop, List.drop_eq_getElem_cons inside, bits_cons]
  rw [List.drop_append_of_le_length (by simp; omega), digits_drop (by omega)]

/-! ## The Exp-Golomb code -/

theorem length_golomb (n : Nat) : (golomb n).length = 2 * (n + 1).log2 + 1 := by
  simp only [golomb, List.length_append, List.length_replicate, length_digits]
  omega

/-- The zeros, the one, and the bits behind it. -/
theorem golomb_eq (n : Nat) :
    golomb n = List.replicate (n + 1).log2 false ++ true :: digits (n + 1).log2 (n + 1) := by
  have low : 2 ^ (n + 1).log2 ≤ n + 1 := Nat.log2_self_le (by omega)
  have high : n + 1 < 2 ^ ((n + 1).log2 + 1) := Nat.lt_log2_self
  have one : (n + 1).testBit (n + 1).log2 = true := by
    rw [Nat.testBit_eq_decide_div_mod_eq, Nat.div_eq_of_lt_le (k := 1) (by omega) (by rw [Nat.pow_succ] at high; omega)]
    rfl
  rw [golomb, digits, one]

/-- The number in the bits behind the leading one. -/
theorem golomb_rest (n : Nat) : 2 ^ (n + 1).log2 - 1 + (n + 1) % 2 ^ (n + 1).log2 = n := by
  have low : 2 ^ (n + 1).log2 ≤ n + 1 := Nat.log2_self_le (by omega)
  have high : n + 1 < 2 ^ ((n + 1).log2 + 1) := Nat.lt_log2_self
  have pos := Nat.two_pow_pos (n + 1).log2
  rw [Nat.pow_succ] at high
  rw [Nat.mod_eq_sub_mod low, Nat.mod_eq_of_lt (by omega)]
  omega

theorem log2_of_parts (rest : Bits) : (2 ^ rest.length - 1 + value rest + 1).log2 = rest.length := by
  have pos := Nat.two_pow_pos rest.length
  have below := value_lt rest
  rw [Nat.log2_eq_iff (by omega), Nat.pow_succ]
  omega

/-- The code of the number whose leading one has these bits behind it. -/
theorem golomb_of_parts (rest : Bits) :
    golomb (2 ^ rest.length - 1 + value rest) = List.replicate rest.length false ++ true :: rest := by
  have pos := Nat.two_pow_pos rest.length
  have parts : 2 ^ rest.length - 1 + value rest + 1 = 2 ^ rest.length + value rest := by omega
  rw [golomb_eq, log2_of_parts, parts]
  congr 2
  conv_rhs => rw [← digits_value rest]
  rw [← digits_mod (le_refl _), Nat.add_mod_left, digits_mod (le_refl _)]

/-- A bit string begins with a code, or with more than so many zeros, or is too short. -/
theorem golomb_cases (bits : Bits) (most : Nat) :
    (∃ n rest, (n + 1).log2 ≤ most ∧ bits = golomb n ++ rest) ∨
    (∃ rest, bits = List.replicate (most + 1) false ++ rest) ∨
    ∃ zeros ≤ most, bits = List.replicate zeros false ∨
      ∃ rest, rest.length < zeros ∧ bits = List.replicate zeros false ++ true :: rest := by
  obtain ⟨zeros, tail, rfl, stop⟩ : ∃ zeros tail, bits = List.replicate zeros false ++ tail ∧ tail.head? ≠ some false := by
    induction bits with
    | nil => exact ⟨0, [], rfl, by simp⟩
    | cons bit bits ih =>
      cases bit with
      | true => exact ⟨0, true :: bits, rfl, by simp⟩
      | false =>
        obtain ⟨zeros, tail, rfl, stop⟩ := ih
        exact ⟨zeros + 1, tail, rfl, stop⟩
  by_cases many : most < zeros
  · obtain ⟨extra, rfl⟩ := Nat.exists_eq_add_of_lt many
    refine .inr (.inl ⟨List.replicate extra false ++ tail, ?_⟩)
    rw [← List.append_assoc, List.replicate_append_replicate, Nat.add_right_comm]
  match tail, stop with
  | [], _ => exact .inr (.inr ⟨zeros, by omega, .inl (by simp)⟩)
  | true :: rest, _ =>
    by_cases short : rest.length < zeros
    · exact .inr (.inr ⟨zeros, by omega, .inr ⟨rest, short, rfl⟩⟩)
    · obtain ⟨code, more, rfl, length⟩ : ∃ code more, rest = code ++ more ∧ code.length = zeros :=
        ⟨rest.take zeros, rest.drop zeros, (List.take_append_drop ..).symm, by simp; omega⟩
      subst length
      refine .inl ⟨2 ^ code.length - 1 + value code, more, ?_, by rw [golomb_of_parts, List.append_assoc, List.cons_append]⟩
      rw [log2_of_parts]
      omega

end Ironsight.BitStrings
