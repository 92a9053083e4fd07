import Mathlib.Data.List.Basic

/-! Standard base64 with padding, as `base64.StdEncoding` writes and reads it. -/
namespace Ironsight.Base64

/-- The digit of six bits. -/
def digit (n : Nat) : Char :=
  Char.ofNat (if n < 26 then 65 + n else if n < 52 then 71 + n else if n < 62 then n - 4 else if n = 62 then 43 else 47)

/-- The six bits of a digit. -/
def undigit (c : Char) : Option Nat :=
  let n := c.toNat
  if 65 ≤ n ∧ n ≤ 90 then some (n - 65)
  else if 97 ≤ n ∧ n ≤ 122 then some (n - 71)
  else if 48 ≤ n ∧ n ≤ 57 then some (n + 4)
  else if n = 43 then some 62
  else if n = 47 then some 63
  else none

def encodeChars : List UInt8 → List Char
  | [] => []
  | [a] => [digit (a.toNat / 4), digit (a.toNat % 4 * 16), '=', '=']
  | [a, b] => [digit (a.toNat / 4), digit (a.toNat % 4 * 16 + b.toNat / 16), digit (b.toNat % 16 * 4), '=']
  | a :: b :: c :: rest =>
    digit (a.toNat / 4) :: digit (a.toNat % 4 * 16 + b.toNat / 16) :: digit (b.toNat % 16 * 4 + c.toNat / 64) ::
      digit (c.toNat % 64) :: encodeChars rest

/-- `EncodeToString`. -/
def encode (bytes : List UInt8) : String := String.ofList (encodeChars bytes)

/-- Groups of four digits; only the last may be padded. -/
def decodeChars : List Char → Option (List UInt8)
  | [] => some []
  | p :: q :: r :: s :: rest => do
    let p ← undigit p
    let q ← undigit q
    let a := UInt8.ofNat (p * 4 + q / 16)
    if rest = [] ∧ r = '=' ∧ s = '=' then return [a]
    let r ← undigit r
    let b := UInt8.ofNat (q % 16 * 16 + r / 4)
    if rest = [] ∧ s = '=' then return [a, b]
    let s ← undigit s
    let bytes ← decodeChars rest
    return a :: b :: UInt8.ofNat (r % 4 * 64 + s) :: bytes
  | _ => none

/-- `DecodeString`, which skips line ends. -/
def decode (text : String) : Option (List UInt8) := decodeChars (text.toList.filter fun c => c ≠ '\r' ∧ c ≠ '\n')

private theorem undigit_digit {n : Nat} (small : n < 64) : undigit (digit n) = some n := by
  revert n
  decide

private theorem digit_large {n : Nat} (large : ¬ n < 64) : digit n = '/' := by
  simp only [digit]
  rw [if_neg (by omega), if_neg (by omega), if_neg (by omega), if_neg (by omega)]

private theorem digit_ne (n : Nat) : digit n ≠ '=' ∧ digit n ≠ '\r' ∧ digit n ≠ '\n' := by
  by_cases small : n < 64
  · revert n
    decide
  · rw [digit_large small]
    decide

private theorem ofNat_eq {byte : UInt8} {n : Nat} (same : n = byte.toNat) : UInt8.ofNat n = byte := by
  rw [same, UInt8.ofNat_toNat]

private theorem decodeChars_encodeChars (bytes : List UInt8) : decodeChars (encodeChars bytes) = some bytes := by
  fun_induction encodeChars bytes with
  | case1 => rfl
  | case2 a =>
    have bound := a.toNat_lt
    have first := undigit_digit (show a.toNat / 4 < 64 by omega)
    have second := undigit_digit (show a.toNat % 4 * 16 < 64 by omega)
    have byte : UInt8.ofNat (a.toNat / 4 * 4 + a.toNat % 4 * 16 / 16) = a := ofNat_eq (by omega)
    simp only [decodeChars, first, second, byte, Option.bind_eq_bind, Option.bind_some, and_self, if_true]
    rfl
  | case3 a b =>
    have bound := a.toNat_lt
    have bound' := b.toNat_lt
    have first := undigit_digit (show a.toNat / 4 < 64 by omega)
    have second := undigit_digit (show a.toNat % 4 * 16 + b.toNat / 16 < 64 by omega)
    have third := undigit_digit (show b.toNat % 16 * 4 < 64 by omega)
    have plain := (digit_ne (b.toNat % 16 * 4)).1
    have byte : UInt8.ofNat (a.toNat / 4 * 4 + (a.toNat % 4 * 16 + b.toNat / 16) / 16) = a := ofNat_eq (by omega)
    have byte' : UInt8.ofNat ((a.toNat % 4 * 16 + b.toNat / 16) % 16 * 16 + b.toNat % 16 * 4 / 4) = b :=
      ofNat_eq (by omega)
    simp only [decodeChars, first, second, third, plain, byte, byte', Option.bind_eq_bind, Option.bind_some, false_and,
      and_false, if_false, and_self, if_true]
    rfl
  | case4 a b c rest ih =>
    have bound := a.toNat_lt
    have bound' := b.toNat_lt
    have bound'' := c.toNat_lt
    have first := undigit_digit (show a.toNat / 4 < 64 by omega)
    have second := undigit_digit (show a.toNat % 4 * 16 + b.toNat / 16 < 64 by omega)
    have third := undigit_digit (show b.toNat % 16 * 4 + c.toNat / 64 < 64 by omega)
    have fourth := undigit_digit (show c.toNat % 64 < 64 by omega)
    have plain' := (digit_ne (c.toNat % 64)).1
    have byte : UInt8.ofNat (a.toNat / 4 * 4 + (a.toNat % 4 * 16 + b.toNat / 16) / 16) = a := ofNat_eq (by omega)
    have byte' : UInt8.ofNat ((a.toNat % 4 * 16 + b.toNat / 16) % 16 * 16 + (b.toNat % 16 * 4 + c.toNat / 64) / 4) = b :=
      ofNat_eq (by omega)
    have byte'' : UInt8.ofNat ((b.toNat % 16 * 4 + c.toNat / 64) % 4 * 64 + c.toNat % 64) = c := ofNat_eq (by omega)
    simp only [decodeChars, first, second, third, fourth, plain', byte, byte', byte'', ih, Option.bind_eq_bind,
      Option.bind_some, and_false, if_false]
    rfl

/-- Only digits and padding are written. -/
theorem encodeChars_forall {P : Char → Prop} (digits : ∀ n, P (digit n)) (padding : P '=') (bytes : List UInt8) :
    ∀ c ∈ encodeChars bytes, P c := by
  fun_induction encodeChars bytes with
  | case1 => nofun
  | case2 a => simp [digits, padding]
  | case3 a b => simp [digits, padding]
  | case4 a b c rest ih => simpa [digits] using ih

private theorem encodeChars_plain (bytes : List UInt8) : ∀ c ∈ encodeChars bytes, c ≠ '\r' ∧ c ≠ '\n' :=
  encodeChars_forall (fun n => (digit_ne n).2) (by decide) bytes

private theorem digit_ascii (n : Nat) : (digit n).toNat < 128 := by
  by_cases small : n < 64
  · revert n
    decide
  · rw [digit_large small]
    decide

theorem encode_ascii (bytes : List UInt8) : ∀ c ∈ (encode bytes).toList, c.toNat < 128 := by
  rw [encode, String.toList_ofList]
  exact encodeChars_forall digit_ascii (by decide) bytes

/-- What was encoded decodes to itself. -/
theorem decode_encode (bytes : List UInt8) : decode (encode bytes) = some bytes := by
  have kept : (encodeChars bytes).filter (fun c => decide (c ≠ '\r' ∧ c ≠ '\n')) = encodeChars bytes :=
    List.filter_eq_self.mpr fun c member => decide_eq_true (encodeChars_plain bytes c member)
  rw [decode, encode, String.toList_ofList, kept, decodeChars_encodeChars]

theorem encode_ne_empty {bytes : List UInt8} (given : bytes ≠ []) : encode bytes ≠ "" := by
  intro empty
  have decoded := decode_encode bytes
  rw [empty] at decoded
  exact given (Option.some.inj decoded).symm

example : encode [77, 97, 110, 33] = "TWFuIQ==" := by decide +kernel

end Ironsight.Base64
