import Mathlib.Data.List.Basic

/-! The init segment of an HEVC stream, with the `array_completeness` bits of its `hvcC` box
set. The server patches the init segments of its playlists, the player those of a live
connection. A read outside the segment ends a patch without a result. -/
namespace Ironsight.HvccPatch

/-- `'hvcC'`. -/
def marker : List UInt8 := [0x68, 0x76, 0x63, 0x43]

/-- Two bytes of a length, read at an offset. -/
def twoBytes (bytes : List UInt8) (off : Nat) : Option Nat := do
  let high ← bytes[off]?
  let low ← bytes[off + 1]?
  return high.toNat <<< 8 ||| low.toNat

/-- `|= 0x80`. -/
def setTopBit (bytes : List UInt8) (off : Nat) : Option (List UInt8) := do
  let flag ← bytes[off]?
  return bytes.set off (flag ||| 0x80)

/-- How the walk over the units of an array ends: with the patch, or at an offset. -/
inductive Walked where
  | returned
  | reached (off : Nat)
  deriving DecidableEq

namespace Server

/-- `bytes.Index`. -/
def index (needle bytes : List UInt8) : Option Nat :=
  (List.range (bytes.length + 1)).find? fun i => needle.isPrefixOf (bytes.drop i)

/-- The loop over `numNalus`, of which `left` are to come. -/
def nalus (out : List UInt8) : (left off : Nat) → Option Walked
  | 0, off => some (.reached off)
  | left + 1, off =>
    if off < out.length then
      if off + 2 > out.length then some .returned
      else do
        let naluLen ← twoBytes out off
        nalus out left (off + (2 + naluLen))
    else some (.reached off)

/-- The loop over `numArrays`, of which `left` are to come. -/
def arrays : (left off : Nat) → List UInt8 → Option (List UInt8)
  | 0, _, out => some out
  | left + 1, off, out =>
    if off < out.length then do
      let out ← setTopBit out off
      let off := off + 1
      if off + 2 > out.length then return out
      let numNalus ← twoBytes out off
      match ← nalus out numNalus (off + 2) with
      | .returned => return out
      | .reached off => arrays left off out
    else some out

/-- `patchHVCCCompleteness`; a read outside the segment has no answer. -/
def patchHVCCCompleteness (body : List UInt8) : Option (List UInt8) :=
  match index marker body with
  | none => some body
  | some start =>
    let off := start + 26
    if off ≥ body.length then some body
    else do
      let numArrays ← body[off]?
      arrays numArrays.toNat (off + 1) body

end Server

namespace Player

/-- The search for the marker from `i` on. -/
def search (bytes : List UInt8) (i : Nat) : Option Nat :=
  if i + 4 ≤ bytes.length then
    if bytes[i]? = some 0x68 ∧ bytes[i + 1]? = some 0x76 ∧ bytes[i + 2]? = some 0x63 ∧ bytes[i + 3]? = some 0x43 then some i
    else search bytes (i + 1)
  else none
termination_by bytes.length - i

/-- The loop over the units from `j` on. -/
def nalus (bytes : List UInt8) (numNalus j off : Nat) : Option Walked :=
  if j < numNalus ∧ off < bytes.length then
    if off + 2 > bytes.length then some .returned
    else do
      let naluLen ← twoBytes bytes off
      nalus bytes numNalus (j + 1) (off + (2 + naluLen))
  else some (.reached off)
termination_by numNalus - j

/-- The loop over the arrays from `i` on. -/
def arrays (numArrays i off : Nat) (bytes : List UInt8) : Option (List UInt8) :=
  if i < numArrays ∧ off < bytes.length then do
    let bytes ← setTopBit bytes off
    let off := off + 1
    if off + 2 > bytes.length then return bytes
    let numNalus ← twoBytes bytes off
    match ← nalus bytes numNalus 0 (off + 2) with
    | .returned => return bytes
    | .reached off => arrays numArrays (i + 1) off bytes
  else some bytes
termination_by numArrays - i

/-- The buffer itself where there is nothing to patch, else its patched copy. -/
def applyHvccPatch (buf : List UInt8) : Option (List UInt8) :=
  match search buf 0 with
  | none => some buf
  | some start =>
    let off := start + 26
    if off ≥ buf.length then some buf
    else do
      let numArrays ← buf[off]?
      arrays numArrays.toNat 0 (off + 1) buf

end Player

/-! ## What the walk does to the bytes ahead of it -/

def length16 (high low : UInt8) : Nat := high.toNat <<< 8 ||| low.toNat

/-- What is left behind the units; nothing if one is cut off within its length. -/
def unitsLeft : Nat → List UInt8 → Option (List UInt8)
  | 0, ahead => some ahead
  | _ + 1, [] => some []
  | _ + 1, [_] => none
  | left + 1, high :: low :: ahead => unitsLeft left (ahead.drop (length16 high low))

/-- The bytes ahead with the top bits of their arrays set. -/
def marked : Nat → List UInt8 → List UInt8
  | 0, ahead => ahead
  | _ + 1, [] => []
  | _ + 1, [flag] => [flag ||| 0x80]
  | _ + 1, [flag, cut] => [flag ||| 0x80, cut]
  | left + 1, flag :: high :: low :: ahead =>
    (flag ||| 0x80) :: high :: low ::
      match unitsLeft (length16 high low) ahead with
      | none => ahead
      | some behind => ahead.take (ahead.length - behind.length) ++ marked left behind

theorem top_bit_idem (flag : UInt8) : flag ||| 0x80 ||| 0x80 = flag ||| 0x80 := by
  rw [UInt8.or_assoc, UInt8.or_self]

/-- The walk over the units depends only on the bytes that it goes past and on how many are
left behind. -/
theorem unitsLeft_split {left : Nat} {ahead behind : List UInt8} (walked : unitsLeft left ahead = some behind) :
    ∃ front, ahead = front ++ behind ∧
      ∀ other : List UInt8, other.length = behind.length → unitsLeft left (front ++ other) = some other := by
  induction left, ahead using unitsLeft.induct with
  | case1 ahead =>
    cases walked
    exact ⟨[], rfl, fun other _ => rfl⟩
  | case2 left =>
    cases walked
    exact ⟨[], rfl, fun other same => by rw [List.length_eq_zero_iff.mp same]; rfl⟩
  | case3 => cases walked
  | case4 left high low ahead ih =>
    obtain ⟨front, parts, anywhere⟩ := ih walked
    refine ⟨high :: low :: (ahead.take (length16 high low) ++ front), ?_, fun other same => ?_⟩
    · rw [List.cons_append, List.cons_append, List.append_assoc, ← parts, List.take_append_drop]
    · have past : (ahead.take (length16 high low) ++ (front ++ other)).drop (length16 high low) = front ++ other := by
        by_cases enough : length16 high low ≤ ahead.length
        · rw [List.drop_left' (List.length_take_of_le enough)]
        · rw [List.drop_eq_nil_of_le (by omega)] at parts
          obtain ⟨rfl, rfl⟩ := List.append_eq_nil_iff.mp parts.symm
          rw [List.length_eq_zero_iff.mp same, List.append_nil, List.append_nil,
            List.drop_eq_nil_of_le (List.length_take_le _ _)]
      rw [List.cons_append, List.cons_append, List.append_assoc, unitsLeft, past]
      exact anywhere other same

/-- Behind the units of an array the walk goes on to the next array. -/
theorem marked_array {left : Nat} {flag high low : UInt8} {front behind : List UInt8}
    (walked : unitsLeft (length16 high low) (front ++ behind) = some behind) :
    marked (left + 1) (flag :: high :: low :: (front ++ behind)) =
      (flag ||| 0x80) :: high :: low :: (front ++ marked left behind) := by
  simp [marked, walked]

theorem marked_cut {left : Nat} {flag high low : UInt8} {ahead : List UInt8}
    (walked : unitsLeft (length16 high low) ahead = none) :
    marked (left + 1) (flag :: high :: low :: ahead) = (flag ||| 0x80) :: high :: low :: ahead := by
  simp [marked, walked]

theorem marked_length (left : Nat) (ahead : List UInt8) : (marked left ahead).length = ahead.length := by
  induction left generalizing ahead with
  | zero => rfl
  | succ left ih =>
    match ahead with
    | [] | [_] | [_, _] => rfl
    | flag :: high :: low :: ahead =>
      cases walked : unitsLeft (length16 high low) ahead with
      | none => rw [marked_cut walked]; rfl
      | some behind =>
        obtain ⟨front, rfl, -⟩ := unitsLeft_split walked
        simp [marked_array walked, ih]

theorem marked_marked (left : Nat) (ahead : List UInt8) : marked left (marked left ahead) = marked left ahead := by
  induction left generalizing ahead with
  | zero => rfl
  | succ left ih =>
    match ahead with
    | [] => rfl
    | [flag] | [flag, _] => simp only [marked, top_bit_idem]
    | flag :: high :: low :: ahead =>
      cases walked : unitsLeft (length16 high low) ahead with
      | none => rw [marked_cut walked, marked_cut walked, top_bit_idem]
      | some behind =>
        obtain ⟨front, rfl, anywhere⟩ := unitsLeft_split walked
        rw [marked_array walked, marked_array (anywhere _ (marked_length left behind)), top_bit_idem, ih]

/-! ## The walks -/

theorem twoBytes_at (pre : List UInt8) (high low : UInt8) (ahead : List UInt8) :
    twoBytes (pre ++ high :: low :: ahead) pre.length = some (length16 high low) := by
  simp [twoBytes, length16]

theorem setTopBit_at (pre : List UInt8) (flag : UInt8) (ahead : List UInt8) :
    setTopBit (pre ++ flag :: ahead) pre.length = some (pre ++ (flag ||| 0x80) :: ahead) := by
  simp [setTopBit]

namespace Server

/-- The walk over the units reads within the segment and ends where they do. -/
theorem nalus_exact (out : List UInt8) (left off : Nat) :
    (nalus out left off = some .returned ∧ unitsLeft left (out.drop off) = none) ∨
      ∃ behind, off ≤ behind ∧ nalus out left off = some (.reached behind) ∧
        unitsLeft left (out.drop off) = some (out.drop behind) := by
  induction left generalizing off with
  | zero => exact .inr ⟨off, Nat.le_refl off, rfl, rfl⟩
  | succ left ih =>
    rw [nalus]
    by_cases inside : off < out.length
    · rw [if_pos inside]
      by_cases cut : off + 2 > out.length
      · rw [if_pos cut, List.drop_eq_getElem_cons inside, List.drop_eq_nil_of_le (by omega)]
        exact .inl ⟨rfl, rfl⟩
      · have second : off + 1 < out.length := by omega
        rw [if_neg cut, List.drop_eq_getElem_cons inside, List.drop_eq_getElem_cons second, unitsLeft, List.drop_drop]
        have read : twoBytes out off = some (length16 out[off] out[off + 1]) := by
          simp [twoBytes, length16, List.getElem?_eq_getElem inside, List.getElem?_eq_getElem second]
        rw [read, Option.bind_eq_bind, Option.bind_some, ← Nat.add_assoc]
        rcases ih (off + 2 + length16 out[off] out[off + 1]) with ended | ⟨behind, after, walked, left⟩
        · exact .inl ended
        · exact .inr ⟨behind, by omega, walked, left⟩
    · rw [if_neg inside, List.drop_eq_nil_of_le (by omega)]
      exact .inr ⟨off, Nat.le_refl off, rfl, by rw [List.drop_eq_nil_of_le (by omega)]; rfl⟩

/-- The walk over the units that lie ahead splits them from what is behind them. -/
theorem nalus_split (pre ahead : List UInt8) (left : Nat) :
    (nalus (pre ++ ahead) left pre.length = some .returned ∧ unitsLeft left ahead = none) ∨
      ∃ off front behind, nalus (pre ++ ahead) left pre.length = some (.reached off) ∧ ahead = front ++ behind ∧
        unitsLeft left ahead = some behind ∧ (pre ++ ahead).take off = pre ++ front ∧ (pre ++ ahead).drop off = behind := by
  rcases nalus_exact (pre ++ ahead) left pre.length with ended | ⟨off, after, walked, found⟩
  · rw [List.drop_left] at ended
    exact .inl ended
  · rw [List.drop_left] at found
    obtain ⟨front, parts, -⟩ := unitsLeft_split found
    refine .inr ⟨off, front, _, walked, parts, found, ?_, rfl⟩
    have whole : (pre ++ ahead).take off ++ (pre ++ ahead).drop off = (pre ++ front) ++ (pre ++ ahead).drop off := by
      rw [List.take_append_drop, List.append_assoc, ← parts]
    exact List.append_cancel_right whole

/-- The walk over the arrays reads within the segment and marks the bytes from its offset on. -/
theorem arrays_exact (left off : Nat) (out : List UInt8) :
    arrays left off out = some (out.take off ++ marked left (out.drop off)) := by
  induction left generalizing off out with
  | zero => rw [arrays, marked, List.take_append_drop]
  | succ left ih =>
    rw [arrays]
    by_cases inside : off < out.length
    · rw [if_pos inside]
      obtain ⟨pre, flag, ahead, rfl, rfl⟩ : ∃ pre flag ahead, out = pre ++ flag :: ahead ∧ off = pre.length :=
        ⟨out.take off, out[off], out.drop (off + 1), by rw [← List.drop_eq_getElem_cons inside, List.take_append_drop],
          (List.length_take_of_le (Nat.le_of_lt inside)).symm⟩
      rw [setTopBit_at, List.take_left, List.drop_left, Option.bind_eq_bind, Option.bind_some]
      match ahead with
      | [] => simp [marked]
      | [cut] => simp [marked]
      | high :: low :: ahead =>
        have roomy : ¬ pre.length + 1 + 2 > (pre ++ (flag ||| 0x80) :: high :: low :: ahead).length := by
          simp only [List.length_append, List.length_cons]
          omega
        have read : twoBytes (pre ++ (flag ||| 0x80) :: high :: low :: ahead) (pre.length + 1) = some (length16 high low) := by
          simpa using twoBytes_at (pre ++ [flag ||| 0x80]) high low ahead
        have split := nalus_split (pre ++ [flag ||| 0x80, high, low]) ahead (length16 high low)
        have past : (pre ++ [flag ||| 0x80, high, low]).length = pre.length + 1 + 2 := by simp
        rw [past, List.append_assoc] at split
        simp only [List.cons_append, List.nil_append] at split
        dsimp only
        rw [if_neg roomy, read, Option.bind_eq_bind, Option.bind_some]
        rcases split with ⟨walked, cut⟩ | ⟨off, front, behind, walked, rfl, found, before, after⟩
        · rw [walked, marked_cut cut]
          rfl
        · rw [walked, marked_array found]
          refine (ih off _).trans ?_
          rw [before, after]
          simp
    · rw [if_neg inside, List.drop_eq_nil_of_le (by omega), List.take_of_length_le (by omega), marked, List.append_nil]

end Server

/-! ## The two programs -/

/-- The marker is at `i` where its four bytes are. -/
theorem marker_at (bytes : List UInt8) (i : Nat) : marker.isPrefixOf (bytes.drop i) = true ↔
    bytes[i]? = some 0x68 ∧ bytes[i + 1]? = some 0x76 ∧ bytes[i + 2]? = some 0x63 ∧ bytes[i + 3]? = some 0x43 := by
  rw [List.isPrefixOf_iff_prefix, List.prefix_iff_getElem?]
  constructor
  · intro same
    have each : ∀ k byte, marker[k]? = some byte → bytes[i + k]? = some byte := fun k byte at_k => by
      obtain ⟨h, rfl⟩ := List.getElem?_eq_some_iff.mp at_k
      rw [← same k h, List.getElem?_drop]
    exact ⟨each 0 _ rfl, each 1 _ rfl, each 2 _ rfl, each 3 _ rfl⟩
  · rintro ⟨first, second, third, fourth⟩ k h
    rw [List.getElem?_drop]
    match k, h with
    | 0, _ => exact first
    | 1, _ => exact second
    | 2, _ => exact third
    | 3, _ => exact fourth

theorem marked_at_inside {bytes : List UInt8} {i : Nat} (found : marker.isPrefixOf (bytes.drop i) = true) :
    i + 4 ≤ bytes.length := by
  obtain ⟨-, -, -, last⟩ := (marker_at bytes i).mp found
  have inside := (List.getElem?_eq_some_iff.mp last).1
  omega

/-- The first occurrence. -/
theorem Server.index_eq_some {bytes : List UInt8} {start : Nat} : Server.index marker bytes = some start ↔
    marker.isPrefixOf (bytes.drop start) = true ∧ ∀ i < start, ¬ marker.isPrefixOf (bytes.drop i) = true := by
  rw [Server.index, List.find?_range_eq_some]
  constructor
  · rintro ⟨found, -, first⟩
    exact ⟨found, fun i before => by simpa only [Bool.not_eq_true', Bool.not_eq_true] using first i before⟩
  · rintro ⟨found, first⟩
    have inside := marked_at_inside found
    exact ⟨found, List.mem_range.mpr (by omega), fun i before => by
      simpa only [Bool.not_eq_true', Bool.not_eq_true] using first i before⟩

theorem Server.index_eq_none {bytes : List UInt8} : Server.index marker bytes = none ↔
    ∀ i, ¬ marker.isPrefixOf (bytes.drop i) = true := by
  rw [Server.index, List.find?_eq_none]
  constructor
  · intro nowhere i found
    exact nowhere i (List.mem_range.mpr (by have := marked_at_inside found; omega)) found
  · exact fun nowhere i _ => nowhere i

theorem Player.search_eq {bytes : List UInt8} {i : Nat} (past : ∀ j < i, ¬ marker.isPrefixOf (bytes.drop j) = true) :
    Player.search bytes i = Server.index marker bytes := by
  fun_induction Player.search bytes i with
  | case1 i _ here => exact (Server.index_eq_some.mpr ⟨(marker_at bytes i).mpr here, past⟩).symm
  | case2 i _ elsewhere ih =>
    refine ih fun j before found => ?_
    rcases Nat.lt_succ_iff_lt_or_eq.mp before with earlier | rfl
    · exact past j earlier found
    · exact elsewhere ((marker_at bytes j).mp found)
  | case3 i beyond =>
    refine (Server.index_eq_none.mpr fun j found => ?_).symm
    exact past j (by have := marked_at_inside found; omega) found

theorem Player.nalus_eq (bytes : List UInt8) (numNalus j off : Nat) :
    Player.nalus bytes numNalus j off = Server.nalus bytes (numNalus - j) off := by
  fun_induction Player.nalus bytes numNalus j off with
  | case1 j off more cut =>
    obtain ⟨left, remaining⟩ : ∃ left, numNalus - j = left + 1 := ⟨numNalus - j - 1, by omega⟩
    rw [remaining, Server.nalus, if_pos more.2, if_pos cut]
  | case2 j off more roomy ih =>
    obtain ⟨left, remaining⟩ : ∃ left, numNalus - j = left + 1 := ⟨numNalus - j - 1, by omega⟩
    rw [show numNalus - (j + 1) = left by omega] at ih
    rw [remaining, Server.nalus, if_pos more.2, if_neg roomy]
    simp only [ih]
  | case3 j off finished =>
    cases remaining : numNalus - j with
    | zero => rw [Server.nalus]
    | succ left => rw [Server.nalus, if_neg fun inside => finished ⟨by omega, inside⟩]

theorem Player.arrays_eq (numArrays i off : Nat) (bytes : List UInt8) :
    Player.arrays numArrays i off bytes = Server.arrays (numArrays - i) off bytes := by
  fun_induction Player.arrays numArrays i off bytes with
  | case1 i off bytes more ih =>
    obtain ⟨left, remaining⟩ : ∃ left, numArrays - i = left + 1 := ⟨numArrays - i - 1, by omega⟩
    rw [show numArrays - (i + 1) = left by omega] at ih
    rw [remaining, Server.arrays, if_pos more.2]
    simp only [ih, Player.nalus_eq, Nat.sub_zero]
  | case2 i off bytes finished =>
    cases remaining : numArrays - i with
    | zero => rw [Server.arrays]
    | succ left => rw [Server.arrays, if_neg fun inside => finished ⟨by omega, inside⟩]

/-- The player patches as the server does. -/
theorem Player.applyHvccPatch_eq (buf : List UInt8) : Player.applyHvccPatch buf = Server.patchHVCCCompleteness buf := by
  simp only [Player.applyHvccPatch, Server.patchHVCCCompleteness, Player.search_eq (i := 0) (fun j none => absurd none (Nat.not_lt_zero j)),
    Player.arrays_eq, Nat.sub_zero]

/-! ## What the patch does -/

namespace Server

/-- Up to and including the count of arrays nothing changes; there is none where the segment
ends before it. -/
theorem patch_exact (body : List UInt8) :
    (patchHVCCCompleteness body = some body ∧ ∀ start numArrays, index marker body = some start → body[start + 26]? ≠ some numArrays) ∨
      ∃ start numArrays, index marker body = some start ∧ body[start + 26]? = some numArrays ∧
        patchHVCCCompleteness body = some (body.take (start + 27) ++ marked numArrays.toNat (body.drop (start + 27))) := by
  rw [patchHVCCCompleteness]
  cases found : index marker body with
  | none => exact .inl ⟨rfl, fun _ _ at_start => nomatch at_start⟩
  | some start =>
    by_cases short : start + 26 ≥ body.length
    · refine .inl ⟨by simp only [if_pos short], ?_⟩
      rintro _ numArrays ⟨⟩ count
      rw [List.getElem?_eq_none short] at count
      cases count
    · have inside : start + 26 < body.length := by omega
      have count : body[start + 26]? = some body[start + 26] := List.getElem?_eq_getElem inside
      refine .inr ⟨start, _, rfl, count, ?_⟩
      simp only [if_neg short, count, Option.bind_eq_bind, Option.bind_some]
      exact arrays_exact _ _ _

/-- The first occurrence of the marker is found in the bytes up to its end. -/
theorem index_of_take {body out : List UInt8} {start : Nat} (found : index marker body = some start)
    (same : out.take (start + 4) = body.take (start + 4)) : index marker out = some start := by
  have windows : ∀ i ≤ start, (marker.isPrefixOf (out.drop i) = true ↔ marker.isPrefixOf (body.drop i) = true) := by
    intro i before
    have each : ∀ k < 4, out[i + k]? = body[i + k]? := fun k small => by
      rw [← List.getElem?_take_of_lt (show i + k < start + 4 by omega), same, List.getElem?_take_of_lt (by omega)]
    rw [marker_at, marker_at, ← each 1 (by decide), ← each 2 (by decide), ← each 3 (by decide)]
    exact and_congr_left' (by rw [show out[i]? = body[i]? from each 0 (by decide)])
  rw [index_eq_some] at found ⊢
  exact ⟨(windows start (Nat.le_refl start)).mpr found.1, fun i before there =>
    found.2 i before ((windows i (Nat.le_of_lt before)).mp there)⟩

/-- The patch has a result of the same length, and nothing more to do on it. -/
theorem patch_total (body : List UInt8) :
    ∃ out, patchHVCCCompleteness body = some out ∧ out.length = body.length ∧ patchHVCCCompleteness out = some out := by
  rcases patch_exact body with ⟨untouched, -⟩ | ⟨start, numArrays, found, count, patched⟩
  · exact ⟨body, untouched, rfl, untouched⟩
  · have inside := (List.getElem?_eq_some_iff.mp count).1
    have before : (body.take (start + 27)).length = start + 27 := List.length_take_of_le (by omega)
    refine ⟨_, patched, by rw [List.length_append, marked_length, ← List.length_append, List.take_append_drop], ?_⟩
    have kept : index marker (body.take (start + 27) ++ marked numArrays.toNat (body.drop (start + 27))) = some start :=
      index_of_take found (by rw [List.take_append_of_le_length (by omega), List.take_take, Nat.min_eq_left (by omega)])
    have counted : (body.take (start + 27) ++ marked numArrays.toNat (body.drop (start + 27)))[start + 26]? = some numArrays := by
      rw [List.getElem?_append_left (by omega), List.getElem?_take_of_lt (by omega), count]
    rcases patch_exact (body.take (start + 27) ++ marked numArrays.toNat (body.drop (start + 27)))
      with ⟨-, uncounted⟩ | ⟨again, numArrays', found', count', patched'⟩
    · exact absurd counted (uncounted start numArrays kept)
    · cases kept.symm.trans found'
      cases counted.symm.trans count'
      rw [patched', List.take_left' before, List.drop_left' before, marked_marked]

end Server

/-! ## Complete configuration records -/

/-- A unit with its length in front. -/
def unitBytes (unit : List UInt8) : List UInt8 :=
  UInt8.ofNat (unit.length >>> 8) :: UInt8.ofNat unit.length :: unit

/-- An array of units of one type. -/
structure NaluArray where
  flag : UInt8
  nalus : List (List UInt8)
  fewNalus : nalus.length < 65536
  shortNalus : ∀ nalu ∈ nalus, nalu.length < 65536

namespace NaluArray

def bytes (array : NaluArray) : List UInt8 :=
  array.flag :: UInt8.ofNat (array.nalus.length >>> 8) :: UInt8.ofNat array.nalus.length :: array.nalus.flatMap unitBytes

/-- With its top bit set. -/
def complete (array : NaluArray) : NaluArray := { array with flag := array.flag ||| 0x80 }

end NaluArray

/-- The configuration record behind the marker: its fields up to the count of arrays, and the
arrays. -/
structure ConfigurationRecord where
  fields : List UInt8
  arrays : List NaluArray
  fieldsLength : fields.length = 22
  fewArrays : arrays.length < 256

namespace ConfigurationRecord

def bytes (record : ConfigurationRecord) : List UInt8 :=
  record.fields ++ UInt8.ofNat record.arrays.length :: record.arrays.flatMap NaluArray.bytes

def complete (record : ConfigurationRecord) : ConfigurationRecord where
  fields := record.fields
  arrays := record.arrays.map NaluArray.complete
  fieldsLength := record.fieldsLength
  fewArrays := by rw [List.length_map]; exact record.fewArrays

end ConfigurationRecord

theorem length16_split {n : Nat} (small : n < 65536) : length16 (UInt8.ofNat (n >>> 8)) (UInt8.ofNat n) = n := by
  rw [length16, UInt8.toNat_ofNat', UInt8.toNat_ofNat', Nat.shiftRight_eq_div_pow,
    ← Nat.shiftLeft_add_eq_or_of_lt (Nat.mod_lt _ (by decide)), Nat.shiftLeft_eq]
  omega

theorem unitsLeft_units {nalus : List (List UInt8)} (short : ∀ nalu ∈ nalus, nalu.length < 65536) (behind : List UInt8) :
    unitsLeft nalus.length (nalus.flatMap unitBytes ++ behind) = some behind := by
  induction nalus with
  | nil => rfl
  | cons nalu nalus ih =>
    obtain ⟨fits, rest⟩ := List.forall_mem_cons.mp short
    rw [List.flatMap_cons, unitBytes, List.length_cons, List.append_assoc, List.cons_append, List.cons_append, unitsLeft,
      length16_split fits, List.drop_left]
    exact ih rest

/-- Exactly the arrays of a record are marked. -/
theorem marked_arrays (arrays : List NaluArray) (tail : List UInt8) :
    marked arrays.length (arrays.flatMap NaluArray.bytes ++ tail) =
      (arrays.map NaluArray.complete).flatMap NaluArray.bytes ++ tail := by
  induction arrays with
  | nil => rfl
  | cons array arrays ih =>
    have walked := unitsLeft_units array.shortNalus (arrays.flatMap NaluArray.bytes ++ tail)
    rw [← length16_split array.fewNalus] at walked
    rw [List.flatMap_cons, List.length_cons, List.map_cons, List.flatMap_cons, List.append_assoc, List.append_assoc, ← ih]
    exact marked_array walked

/-- In a segment whose first marker starts a complete configuration record, the top bit of
each array is set and nothing else changes. -/
theorem Server.patch_record (front tail : List UInt8) (record : ConfigurationRecord)
    (found : Server.index marker (front ++ marker ++ record.bytes ++ tail) = some front.length) :
    Server.patchHVCCCompleteness (front ++ marker ++ record.bytes ++ tail) =
      some (front ++ marker ++ record.complete.bytes ++ tail) := by
  have fixed : (front ++ marker ++ record.fields).length = front.length + 26 := by
    rw [List.length_append, List.length_append, record.fieldsLength]
    rfl
  have parts : front ++ marker ++ record.bytes ++ tail =
      (front ++ marker ++ record.fields) ++ UInt8.ofNat record.arrays.length :: (record.arrays.flatMap NaluArray.bytes ++ tail) := by
    simp only [ConfigurationRecord.bytes, List.append_assoc, List.cons_append]
  have counted : (front ++ marker ++ record.bytes ++ tail)[front.length + 26]? = some (UInt8.ofNat record.arrays.length) := by
    rw [parts, ← fixed, List.getElem?_append_right (Nat.le_refl _), Nat.sub_self]
    rfl
  rcases Server.patch_exact (front ++ marker ++ record.bytes ++ tail) with ⟨-, uncounted⟩ | ⟨start, numArrays, found', count, patched⟩
  · exact absurd counted (uncounted _ _ found)
  · cases found.symm.trans found'
    cases counted.symm.trans count
    have number : (UInt8.ofNat record.arrays.length).toNat = record.arrays.length := by
      rw [UInt8.toNat_ofNat', Nat.mod_eq_of_lt record.fewArrays]
    have ahead : front ++ marker ++ record.bytes ++ tail =
        (front ++ marker ++ record.fields ++ [UInt8.ofNat record.arrays.length]) ++ (record.arrays.flatMap NaluArray.bytes ++ tail) := by
      rw [parts, List.append_cons]
    have length : (front ++ marker ++ record.fields ++ [UInt8.ofNat record.arrays.length]).length = front.length + 27 := by
      rw [List.length_append, fixed]
      rfl
    rw [patched, ahead, List.take_left' length, List.drop_left' length, number, marked_arrays]
    simp only [ConfigurationRecord.bytes, ConfigurationRecord.complete, List.length_map, List.append_assoc, List.cons_append,
      List.nil_append]

/-- Both programs patch every segment, to the same bytes and without a change of its length,
and leave a patched one as it is; of a complete configuration record at the first marker they
change the top bit of each array and nothing else. -/
theorem hvcc_patch_exact :
    (∀ body : List UInt8, ∃ out, Server.patchHVCCCompleteness body = some out ∧ Player.applyHvccPatch body = some out ∧
      out.length = body.length ∧ Server.patchHVCCCompleteness out = some out ∧ Player.applyHvccPatch out = some out) ∧
    ∀ (front tail : List UInt8) (record : ConfigurationRecord),
      Server.index marker (front ++ marker ++ record.bytes ++ tail) = some front.length →
        Server.patchHVCCCompleteness (front ++ marker ++ record.bytes ++ tail) =
          some (front ++ marker ++ record.complete.bytes ++ tail) := by
  refine ⟨fun body => ?_, Server.patch_record⟩
  obtain ⟨out, patched, length, again⟩ := Server.patch_total body
  exact ⟨out, patched, (Player.applyHvccPatch_eq body).trans patched, length, again, (Player.applyHvccPatch_eq out).trans again⟩

/-- A record of a video parameter set and two sequence parameter sets. -/
private def small : ConfigurationRecord where
  fields := List.replicate 22 1
  arrays := [⟨0x20, [[0x40, 0x01]], by decide, by decide⟩, ⟨0x21, [[0x42, 0x01, 0x01], [0x42, 0x02]], by decide, by decide⟩]
  fieldsLength := by decide
  fewArrays := by decide

/-- Two bytes in front of the marker and one behind the record. -/
theorem hvcc_patch_small : Server.patchHVCCCompleteness ([0, 0] ++ marker ++ small.bytes ++ [7]) =
    some ([0, 0] ++ marker ++ small.complete.bytes ++ [7]) :=
  hvcc_patch_exact.2 [0, 0] [7] small (by decide)

end Ironsight.HvccPatch
