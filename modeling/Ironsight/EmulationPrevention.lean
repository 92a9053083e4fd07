import Mathlib.Data.List.Infix
import Mathlib.Tactic.Common

/-! The emulation prevention bytes of a NAL unit: a three behind two zeros, which the
standard puts before a byte of at most three. -/
namespace Ironsight.EmulationPrevention

abbrev Bytes := List UInt8

/-! ## The code -/

/-- The first loop; it looks at three bytes, the first of which is the first of the list. -/
def size : Bytes → Int → Int
  | 0 :: 0 :: 3 :: rest, n => size rest (n - 1)
  | _ :: rest, n => size rest n
  | [], n => n

/-- `make([]byte, n)`, which panics on a negative length. -/
def make? (n : Int) : Option Bytes := if n < 0 then none else some (List.replicate n.toNat 0)

/-- `list[first:last]`, which panics on bounds that are out of order or behind the end. -/
def slice? (list : Bytes) (first last : Nat) : Option Bytes :=
  if first ≤ last ∧ last ≤ list.length then some ((list.take last).drop first) else none

/-- What `copy(ret[pos:], src)` leaves of `ret`. -/
def copyTo (ret : Bytes) (pos : Nat) (src : Bytes) : Bytes :=
  ret.take pos ++ src.take (ret.length - pos) ++ ret.drop (pos + src.length)

/-- What the second loop keeps. -/
structure Cursor where
  ret : Bytes
  pos : Nat := 0
  start : Nat := 0
  deriving DecidableEq

/-- `pos += copy(ret[pos:], nalu[start:i])`, and the start behind `i`. -/
def Cursor.cut (nalu : Bytes) (i : Nat) (cursor : Cursor) : Option Cursor := do
  let dst ← slice? cursor.ret cursor.pos cursor.ret.length
  let src ← slice? nalu cursor.start i
  return { ret := copyTo cursor.ret cursor.pos src, pos := cursor.pos + min src.length dst.length, start := i + 1 }

/-- The second loop, at index `i`. -/
def fill (nalu : Bytes) : Bytes → Nat → Cursor → Option Cursor
  | 0 :: 0 :: 3 :: rest, i, cursor => do fill nalu rest (i + 3) (← cursor.cut nalu i)
  | _ :: rest, i, cursor => fill nalu rest (i + 1) cursor
  | [], _, cursor => some cursor

/-- Where a length is negative or a bound outside its slice there is no result: a panic. -/
def emulationPreventionRemove (nalu : Bytes) : Option Bytes := do
  let ret ← make? (size nalu nalu.length)
  let cursor ← fill nalu nalu 2 { ret }
  let _dst ← slice? cursor.ret cursor.pos cursor.ret.length
  let src ← slice? nalu cursor.start nalu.length
  return copyTo cursor.ret cursor.pos src

/-! ## What it does -/

/-- The bytes without the threes behind two zeros. -/
def removed : Bytes → Bytes
  | 0 :: 0 :: 3 :: rest => 0 :: 0 :: removed rest
  | byte :: rest => byte :: removed rest
  | [] => []

/-- The encoding that the standard prescribes. -/
def inserted : Bytes → Bytes
  | 0 :: 0 :: byte :: rest =>
    if byte ≤ 3 then 0 :: 0 :: 3 :: inserted (byte :: rest) else 0 :: 0 :: byte :: inserted rest
  | byte :: rest => byte :: inserted rest
  | [] => []

/-- Two zeros and a three stand first. -/
def Marked (nalu : Bytes) : Prop := ∃ rest, nalu = 0 :: 0 :: 3 :: rest

theorem removed_cons {byte : UInt8} {rest : Bytes} (plain : ¬ Marked (byte :: rest)) :
    removed (byte :: rest) = byte :: removed rest := by
  rw [removed]
  rintro tail rfl rfl
  exact plain ⟨tail, rfl⟩

theorem size_cons {byte : UInt8} {rest : Bytes} (plain : ¬ Marked (byte :: rest)) (n : Int) :
    size (byte :: rest) n = size rest n := by
  rw [size]
  rintro tail rfl rfl
  exact plain ⟨tail, rfl⟩

theorem fill_cons {nalu : Bytes} {byte : UInt8} {rest : Bytes} (plain : ¬ Marked (byte :: rest)) (i : Nat) (cursor : Cursor) :
    fill nalu (byte :: rest) i cursor = fill nalu rest (i + 1) cursor := by
  rw [fill]
  rintro tail rfl rfl
  exact plain ⟨tail, rfl⟩

/-- Along the loops: nothing left, three bytes of which the last goes, or a byte that stays. -/
theorem byMarks {motive : Bytes → Prop} (nil : motive [])
    (marked : ∀ rest, motive rest → motive (0 :: 0 :: 3 :: rest))
    (plain : ∀ byte rest, ¬ Marked (byte :: rest) → motive rest → motive (byte :: rest)) (nalu : Bytes) : motive nalu := by
  induction nalu using removed.induct with
  | case1 rest ih => exact marked rest ih
  | case2 byte rest other ih =>
    refine plain byte rest ?_ ih
    rintro ⟨tail, same⟩
    cases same
    exact other tail rfl rfl
  | case3 => exact nil

theorem length_removed (nalu : Bytes) : (removed nalu).length ≤ nalu.length ∧ 2 * nalu.length ≤ 3 * (removed nalu).length := by
  induction nalu using byMarks with
  | nil => simp [removed]
  | marked rest ih => simp only [removed, List.length_cons]; omega
  | plain byte rest plain ih => simp only [removed_cons plain, List.length_cons]; omega

theorem size_eq (nalu : Bytes) (n : Int) : size nalu n = n - (nalu.length - (removed nalu).length) := by
  induction nalu using byMarks generalizing n with
  | nil => simp [size, removed]
  | marked rest ih =>
    simp only [size, ih, removed, List.length_cons]
    omega
  | plain byte rest plain ih =>
    simp only [size_cons plain, ih, removed_cons plain, List.length_cons]
    omega

theorem slice?_some {list : Bytes} {first last : Nat} (order : first ≤ last) (inside : last ≤ list.length) :
    slice? list first last = some ((list.take last).drop first) := if_pos ⟨order, inside⟩

theorem copyTo_full {ret src : Bytes} {pos : Nat} (full : pos + src.length = ret.length) :
    copyTo ret pos src = ret.take pos ++ src := by
  simp [copyTo, show ret.length - pos = src.length by omega, show ret.length ≤ pos + src.length by omega]

theorem take_copyTo {ret src : Bytes} {pos : Nat} (room : pos + src.length ≤ ret.length) :
    (copyTo ret pos src).take (pos + src.length) = ret.take pos ++ src := by
  rw [copyTo, List.take_of_length_le (l := src) (by omega), List.take_left' (by simp; omega)]

theorem take_succ_of_drop {nalu rest : Bytes} {i : Nat} {byte : UInt8} (here : nalu.drop i = byte :: rest) :
    nalu.take (i + 1) = nalu.take i ++ [byte] := by
  have at_i : nalu[i]? = some byte := by rw [← List.head?_drop, here]; rfl
  rw [List.take_add_one, at_i]
  rfl

/-- A cut inside both slices does not panic. -/
theorem cut_some {nalu : Bytes} {i : Nat} (cursor : Cursor) (order : cursor.start ≤ i) (inside : i ≤ nalu.length)
    (room : cursor.pos + (i - cursor.start) ≤ cursor.ret.length) :
    cursor.cut nalu i = some { ret := copyTo cursor.ret cursor.pos ((nalu.take i).drop cursor.start)
                               pos := cursor.pos + (i - cursor.start)
                               start := i + 1 } := by
  rw [Cursor.cut, slice?_some (by omega) le_rfl, slice?_some order inside]
  have copied : min ((nalu.take i).drop cursor.start).length ((cursor.ret.take cursor.ret.length).drop cursor.pos).length =
      i - cursor.start := by
    simp only [List.length_drop, List.length_take]
    omega
  change some ({ ret := _, pos := cursor.pos + min _ _, start := _ } : Cursor) = _
  rw [copied]

/-- What is copied already, what is still to copy, and what the rest of the loop leaves:
a place inside both slices, from which the last copy completes the bytes. -/
theorem fill_eq {nalu suffix : Bytes} {i : Nat} (cursor : Cursor) (here : nalu.drop i = suffix)
    (start : cursor.start ≤ i) (inside : i ≤ nalu.length)
    (fits : cursor.pos + (i - cursor.start) + (removed suffix).length = cursor.ret.length) :
    ∃ final, fill nalu suffix (i + 2) cursor = some final ∧ final.pos ≤ final.ret.length ∧ final.start ≤ nalu.length ∧
      copyTo final.ret final.pos (nalu.drop final.start) =
        cursor.ret.take cursor.pos ++ ((nalu.take i).drop cursor.start ++ removed suffix) := by
  induction suffix using byMarks generalizing i cursor with
  | nil =>
    obtain rfl : i = nalu.length := le_antisymm inside (List.drop_eq_nil_iff.mp here)
    simp only [removed, List.length_nil, Nat.add_zero] at fits
    refine ⟨cursor, rfl, by omega, start, ?_⟩
    simp only [List.take_length, removed, List.append_nil]
    exact copyTo_full (by rw [List.length_drop]; exact fits)
  | marked rest ih =>
    have length := congrArg List.length here
    simp only [List.length_drop, List.length_cons] at length
    simp only [removed, List.length_cons] at fits
    have behind : nalu.drop (i + 3) = rest := by rw [← List.drop_drop, here]; rfl
    have zeros : nalu.take (i + 2) = nalu.take i ++ [0, 0] := by
      have second : nalu.drop (i + 1) = 0 :: 3 :: rest := by rw [← List.drop_drop, here]; rfl
      rw [take_succ_of_drop second, take_succ_of_drop here, List.append_assoc]
      rfl
    have src : ((nalu.take (i + 2)).drop cursor.start).length = i + 2 - cursor.start := by simp; omega
    have kept : (copyTo cursor.ret cursor.pos ((nalu.take (i + 2)).drop cursor.start)).length = cursor.ret.length := by
      simp only [copyTo, List.length_append, List.length_take, List.length_drop, src]
      omega
    have cut := cut_some cursor (show cursor.start ≤ i + 2 by omega) (show i + 2 ≤ nalu.length by omega) (by omega)
    obtain ⟨final, filled, pos, start', copied⟩ := ih
      { ret := copyTo cursor.ret cursor.pos ((nalu.take (i + 2)).drop cursor.start)
        pos := cursor.pos + (i + 2 - cursor.start)
        start := i + 3 } behind le_rfl (by omega) (by dsimp only; rw [kept]; omega)
    refine ⟨final, ?_, pos, start', ?_⟩
    · rw [fill, cut]
      exact filled
    · rw [copied]
      dsimp only
      rw [← src, take_copyTo (by omega), zeros, List.drop_append_of_le_length (by simp; omega)]
      simp [removed]
  | plain byte rest plain ih =>
    have length := congrArg List.length here
    simp only [List.length_drop, List.length_cons] at length
    simp only [removed_cons plain, List.length_cons] at fits
    have behind : nalu.drop (i + 1) = rest := by rw [← List.drop_drop, here]; rfl
    obtain ⟨final, filled, pos, start', copied⟩ := ih cursor behind (by omega) (by omega) (by omega)
    refine ⟨final, by rw [fill_cons plain]; exact filled, pos, start', ?_⟩
    rw [copied, take_succ_of_drop here, List.drop_append_of_le_length (by simp; omega), removed_cons plain,
      List.append_assoc]
    rfl

/-- It never panics, the two passes agree on the size, and all that is left out are the marked threes. -/
theorem emulationPreventionRemove_eq (nalu : Bytes) : emulationPreventionRemove nalu = some (removed nalu) := by
  have bounds := length_removed nalu
  have made : make? (size nalu nalu.length) = some (List.replicate (removed nalu).length 0) := by
    rw [make?, size_eq, if_neg (by omega), show (nalu.length - (nalu.length - (removed nalu).length) : Int) =
      (removed nalu).length by omega, Int.toNat_natCast]
  obtain ⟨final, filled, pos, start, copied⟩ := fill_eq { ret := List.replicate (removed nalu).length 0 } (i := 0)
    (rfl : nalu.drop 0 = nalu) le_rfl (Nat.zero_le _) (by simp)
  simp only [List.drop_zero, Nat.zero_add] at filled
  simp only [emulationPreventionRemove, made, filled, slice?_some pos le_rfl, slice?_some start le_rfl, Option.bind_eq_bind,
    Option.bind_some, Option.pure_def, List.take_length, copied]
  simp

/-! ## The insertion is undone -/

theorem head?_inserted (payload : Bytes) : (inserted payload).head? = payload.head? := by
  cases payload using inserted.induct with
  | case1 byte rest low => simp [inserted, low]
  | case2 byte rest high => simp [inserted, high]
  | case3 byte rest other => rw [inserted.eq_2 _ _ other]; rfl
  | case4 => rfl

theorem inserted_marked {payload rest : Bytes} (marked : inserted payload = 0 :: 3 :: rest) :
    ∃ tail, payload = 0 :: 3 :: tail := by
  cases payload using inserted.induct with
  | case1 byte tail low => simp [inserted, low] at marked
  | case2 byte tail high => simp [inserted, high] at marked
  | case3 byte tail other =>
    rw [inserted.eq_2 _ _ other] at marked
    obtain ⟨rfl, three⟩ := List.cons_eq_cons.mp marked
    have head := head?_inserted tail
    rw [three, List.head?_cons] at head
    obtain ⟨more, rfl⟩ := List.head?_eq_some_iff.mp head.symm
    exact ⟨more, rfl⟩
  | case4 => cases marked

theorem removed_inserted (payload : Bytes) : removed (inserted payload) = payload := by
  induction payload using inserted.induct with
  | case1 byte rest low ih => rw [inserted, if_pos low, removed, ih]
  | case2 byte rest high ih =>
    have three : byte ≠ 3 := by rintro rfl; exact high (by decide)
    have zero : byte ≠ 0 := by rintro rfl; exact high (by decide)
    rw [inserted, if_neg high, removed_cons (by simp [Marked, three]), removed_cons (by simp [Marked, zero]),
      removed_cons (by simp [Marked, zero]), ih]
  | case3 byte rest other ih =>
    rw [inserted.eq_2 _ _ other, removed_cons, ih]
    rintro ⟨tail, marked⟩
    obtain ⟨rfl, rest_eq⟩ := List.cons_eq_cons.mp marked
    obtain ⟨more, rfl⟩ := inserted_marked rest_eq
    exact other 3 more rfl rfl
  | case4 => rfl

/-- A part of the NAL unit holds a part of the payload. -/
theorem removed_prefix {first second : Bytes} (part : first <+: second) : removed first <+: removed second := by
  induction second using byMarks generalizing first with
  | nil => rw [List.prefix_nil.mp part]
  | marked rest ih =>
    match first, part with
    | [], _ => exact List.nil_prefix
    | [_], part => obtain ⟨more, same⟩ := part; cases same; exact ⟨_, rfl⟩
    | [_, _], part => obtain ⟨more, same⟩ := part; cases same; exact ⟨_, rfl⟩
    | _ :: _ :: _ :: tail, part =>
      obtain ⟨more, same⟩ := part
      cases same
      simp only [removed, List.prefix_cons_inj]
      exact ih ⟨more, rfl⟩
  | plain byte rest plain ih =>
    match first, part with
    | [], _ => exact List.nil_prefix
    | other :: tail, part =>
      obtain ⟨more, same⟩ := part
      cases same
      have shorter : ¬ Marked (byte :: tail) := fun ⟨rest, marked⟩ => plain ⟨rest ++ more, congrArg (· ++ more) marked⟩
      rw [removed_cons plain, removed_cons shorter, List.prefix_cons_inj]
      exact ih ⟨more, rfl⟩

/-- Removing undoes the insertion for every payload. -/
theorem emulationPreventionRemove_inserted (payload : Bytes) :
    emulationPreventionRemove (inserted payload) = some payload := by
  rw [emulationPreventionRemove_eq, removed_inserted]

/-- What the first bytes of the NAL unit say is the beginning of the payload, of which at
most a third of them is lost. -/
theorem removed_take_inserted (payload : Bytes) (most : Nat) :
    removed ((inserted payload).take most) <+: payload ∧
      (payload.length = (removed ((inserted payload).take most)).length ∨
        2 * most ≤ 3 * (removed ((inserted payload).take most)).length) := by
  constructor
  · conv_rhs => rw [← removed_inserted payload]
    exact removed_prefix (List.take_prefix ..)
  · by_cases whole : (inserted payload).length ≤ most
    · exact .inl (by rw [List.take_of_length_le whole, removed_inserted])
    · have := (length_removed ((inserted payload).take most)).2
      rw [List.length_take, Nat.min_eq_left (by omega)] at this
      exact .inr this

end Ironsight.EmulationPrevention
