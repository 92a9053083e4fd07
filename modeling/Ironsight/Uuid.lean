import Mathlib.Data.List.Basic
import Mathlib.Data.BitVec

/-! UUIDs and their text, as the Go side and the database side read it. The two
readers differ: `uuid.Parse` goes by the length of the text and looks at fixed
positions, Postgres' `uuid_in` accepts a hyphen after any group of four digits
and braces around the whole. -/
namespace Ironsight.Uuid

/-- `uuid.UUID`, sixteen bytes read as one big-endian number. -/
structure UUID where
  bits : BitVec 128
  deriving DecidableEq

/-- `uuid.Nil`, the zero value of the type. -/
def UUID.nil : UUID := ⟨0⟩

instance : Inhabited UUID := ⟨UUID.nil⟩

/-- One lower-case hexadecimal digit. -/
def hexDigit (n : Nat) : Char :=
  if n < 10 then Char.ofNat ('0'.toNat + n) else Char.ofNat ('a'.toNat + (n - 10))

/-- The value of one hexadecimal digit of either case. -/
def unhex (byte : UInt8) : Option Nat :=
  let n := byte.toNat
  if 48 ≤ n ∧ n ≤ 57 then some (n - 48)
  else if 97 ≤ n ∧ n ≤ 102 then some (n - 87)
  else if 65 ≤ n ∧ n ≤ 70 then some (n - 55)
  else none

/-- The digits of an identifier from the most significant one. -/
def UUID.digits (id : UUID) : List Char :=
  (List.range 32).map fun i => hexDigit (id.bits.toNat / 16 ^ (31 - i) % 16)

/-- `UUID.String`: groups of 8, 4, 4, 4 and 12 digits. -/
def UUID.text (id : UUID) : String :=
  let digits := id.digits
  String.ofList (digits.take 8 ++ '-' :: (digits.drop 8).take 4 ++ '-' :: (digits.drop 12).take 4 ++
    '-' :: (digits.drop 16).take 4 ++ '-' :: digits.drop 20)

/-- `cameraID.String()[:8]`. -/
def UUID.prefix8 (id : UUID) : String := String.ofList (id.digits.take 8)

private def hyphen : UInt8 := 45

/-- Hexadecimal digits at the given positions, most significant first. -/
def readDigits (bytes : List UInt8) (positions : List Nat) : Option UUID :=
  (positions.mapM fun i => bytes[i]? >>= unhex).map fun digits =>
    ⟨BitVec.ofNat 128 (digits.foldl (fun acc digit => acc * 16 + digit) 0)⟩

def lower (byte : UInt8) : UInt8 :=
  if 65 ≤ byte.toNat ∧ byte.toNat ≤ 90 then byte + 32 else byte

/-- The hyphenated form; `uuid.Parse` reads 36 bytes and ignores what follows. -/
def readHyphenated (bytes : List UInt8) : Option UUID :=
  if bytes[8]? = some hyphen ∧ bytes[13]? = some hyphen ∧ bytes[18]? = some hyphen ∧
      bytes[23]? = some hyphen then
    readDigits bytes ((List.range 36).filter fun i => i ≠ 8 ∧ i ≠ 13 ∧ i ≠ 18 ∧ i ≠ 23)
  else none

/-- `uuid.Parse`: the hyphenated form, bare, after `urn:uuid:` in any letter
case or between one byte on each side, and 32 plain digits. -/
def parse (text : String) : Option UUID :=
  let bytes := text.toUTF8.data.toList
  match bytes.length with
  | 36 => readHyphenated bytes
  | 45 =>
    if (bytes.take 9).map lower = "urn:uuid:".toUTF8.data.toList then readHyphenated (bytes.drop 9)
    else none
  | 38 => readHyphenated (bytes.drop 1)
  | 32 => readDigits bytes (List.range 32)
  | _ => none

/-- Sixteen bytes of digits; a hyphen may follow every second byte but the last. -/
def readPairs : Nat → List UInt8 → Option (List Nat × List UInt8)
  | 0, rest => some ([], rest)
  | n + 1, high :: low :: rest => do
    let h ← unhex high
    let l ← unhex low
    let rest := if n % 2 = 0 ∧ 0 < n ∧ rest.head? = some hyphen then rest.drop 1 else rest
    let (digits, rest) ← readPairs n rest
    return (h :: l :: digits, rest)
  | _ + 1, _ => none

/-- Postgres' `uuid_in`, which reads a text parameter compared with a `uuid`
column. -/
def uuidIn (text : String) : Option UUID :=
  let bytes := text.toUTF8.data.toList
  let braces := bytes.head? = some 123
  match readPairs 16 (if braces then bytes.drop 1 else bytes) with
  | none => none
  | some (digits, rest) =>
    if rest = (if braces then [125] else []) then
      some ⟨BitVec.ofNat 128 (digits.foldl (fun acc digit => acc * 16 + digit) 0)⟩
    else none

/-! ## Round trip -/

private theorem bytes_ofList (chars : List Char) :
    (String.ofList chars).toUTF8.data.toList = chars.flatMap String.utf8EncodeChar := by
  simp [String.toUTF8, String.ofList, List.utf8Encode]

private def hexByte (n : Nat) : UInt8 := (hexDigit n).val.toUInt8

private theorem hexDigit_bytes {n : Nat} (digit : n < 16) : String.utf8EncodeChar (hexDigit n) = [hexByte n] := by
  revert n
  decide

private theorem unhex_hexByte {n : Nat} (digit : n < 16) : unhex (hexByte n) = some n := by
  revert n
  decide

private theorem foldl_digits (n : Nat) : ∀ k : Nat,
    ((List.range k).map fun i => n / 16 ^ (k - 1 - i) % 16).foldl (fun acc digit => acc * 16 + digit) 0 =
      n % 16 ^ k := by
  intro k
  induction k generalizing n with
  | zero => simp [Nat.mod_one]
  | succ k ih =>
    have shifted : (List.range k).map (fun i => n / 16 ^ (k + 1 - 1 - i) % 16) =
        (List.range k).map fun i => n / 16 / 16 ^ (k - 1 - i) % 16 := by
      apply List.map_congr_left
      intro i member
      have below : i < k := List.mem_range.mp member
      rw [Nat.div_div_eq_div_mul, ← pow_succ', show k - 1 - i + 1 = k + 1 - 1 - i by omega]
    rw [List.range_succ, List.map_append, List.foldl_append, shifted, ih (n / 16)]
    simp only [List.map_cons, List.map_nil, List.foldl_cons, List.foldl_nil, Nat.add_sub_cancel, Nat.sub_self,
      pow_zero, Nat.div_one]
    rw [pow_succ', Nat.mod_mul]
    omega

/-- The byte of the digit at position `i`. -/
private def digitByte (id : UUID) (i : Nat) : UInt8 := hexByte (id.bits.toNat / 16 ^ (31 - i) % 16)

private theorem digits_bytes (id : UUID) (positions : List Nat) :
    (positions.map fun i => hexDigit (id.bits.toNat / 16 ^ (31 - i) % 16)).flatMap String.utf8EncodeChar =
      positions.map (digitByte id) := by
  induction positions with
  | nil => rfl
  | cons i rest ih =>
    rw [List.map_cons, List.flatMap_cons, ih, hexDigit_bytes (Nat.mod_lt _ (by decide))]
    rfl

/-- Digits in groups with hyphens between them. -/
private def hyphenated (byte : Nat → UInt8) : List UInt8 :=
  (List.range 8).map byte ++ 45 :: (List.range' 8 4).map byte ++ 45 :: (List.range' 12 4).map byte ++
    45 :: (List.range' 16 4).map byte ++ 45 :: (List.range' 20 12).map byte

private theorem text_bytes (id : UUID) : id.text.toUTF8.data.toList = hyphenated (digitByte id) := by
  have hyphenBytes : String.utf8EncodeChar '-' = [45] := by decide
  unfold UUID.text UUID.digits
  simp only [← List.map_take, ← List.map_drop, bytes_ofList, List.flatMap_append, List.flatMap_cons, digits_bytes,
    hyphenBytes]
  rfl

/-- The text has digits and hyphens only. -/
theorem mem_text_bytes {id : UUID} {byte : UInt8} (held : byte ∈ id.text.toUTF8.data.toList) :
    byte = 45 ∨ (unhex byte).isSome = true := by
  have digit (i : Nat) : (unhex (digitByte id i)).isSome = true := by
    rw [digitByte, unhex_hexByte (Nat.mod_lt _ (by decide))]
    rfl
  rw [text_bytes, hyphenated] at held
  simp only [List.mem_append, List.mem_cons, List.mem_map] at held
  rcases held with ((((⟨i, _, rfl⟩ | rfl | ⟨i, _, rfl⟩) | rfl | ⟨i, _, rfl⟩) | rfl | ⟨i, _, rfl⟩) | rfl | ⟨i, _, rfl⟩)
  all_goals first | exact .inl rfl | exact .inr (digit i)

private theorem mapM_eq_of_map {α β γ : Type} {f : α → Option γ} {g : β → γ} {xs : List α} {ys : List β}
    (same : xs.map f = ys.map fun y => some (g y)) : xs.mapM f = some (ys.map g) := by
  induction xs generalizing ys with
  | nil =>
    have empty : ys = [] := by simpa using same.symm
    simp [empty]
  | cons x xs ih =>
    cases ys with
    | nil => cases same
    | cons y ys =>
      simp only [List.map_cons, List.cons.injEq] at same
      simp [List.mapM_cons, same.1, ih same.2]

private theorem readHyphenated_text (id : UUID) : readHyphenated (hyphenated (digitByte id)) = some id := by
  have separated : readHyphenated (hyphenated (digitByte id)) = readDigits (hyphenated (digitByte id))
      ((List.range 36).filter fun i => i ≠ 8 ∧ i ≠ 13 ∧ i ≠ 18 ∧ i ≠ 23) := rfl
  have places : ((List.range 36).filter fun i => i ≠ 8 ∧ i ≠ 13 ∧ i ≠ 18 ∧ i ≠ 23).map
      (fun i => (hyphenated (digitByte id))[i]? >>= unhex) =
        (List.range 32).map fun i => unhex (digitByte id i) := rfl
  have digits : (List.range 32).map (fun i => unhex (digitByte id i)) =
      (List.range 32).map fun i => some (id.bits.toNat / 16 ^ (31 - i) % 16) :=
    List.map_congr_left fun i _ => unhex_hexByte (Nat.mod_lt _ (by decide))
  rw [separated, readDigits, mapM_eq_of_map (places.trans digits), Option.map_some, foldl_digits _ 32]
  congr 1
  have bounded : id.bits.toNat < 16 ^ 32 := id.bits.isLt
  rw [Nat.mod_eq_of_lt bounded, BitVec.ofNat_toNat, BitVec.setWidth_eq]

/-- `uuid.Parse` reads back what `UUID.String` writes. -/
theorem parse_text (id : UUID) : parse id.text = some id := by
  have width : (hyphenated (digitByte id)).length = 36 := rfl
  unfold parse
  rw [text_bytes]
  simp only [width]
  exact readHyphenated_text id

theorem UUID.text_injective {first second : UUID} (same : first.text = second.text) : first = second := by
  have read : some first = some second := by rw [← parse_text, same, parse_text]
  exact Option.some.inj read

example : parse "00000000-0000-0000-0000-00000000000a" = some ⟨10⟩ := by decide +kernel
example : uuidIn "{0000000000000000000000000000000A}" = some ⟨10⟩ := by decide +kernel
example : (⟨10⟩ : UUID).text = "00000000-0000-0000-0000-00000000000a" := by decide +kernel

end Ironsight.Uuid
