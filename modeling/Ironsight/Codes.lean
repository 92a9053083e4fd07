import Mathlib.Algebra.Order.Ring.Nat
import Mathlib.Data.List.Basic
import Mathlib.Data.List.MinMax

/-! Human-readable sequence codes `PREFIX-NNNN`: the calendar their prefixes are
built from, the padded decimal number, and the allocation query that reads the
largest number in use and adds one. A code allocated from a list of codes is
not in that list; two allocations from the same list are the same code. -/
namespace Ironsight.Codes

/-- Year, month and day of a day number since 1 January 1970, UTC. -/
def civil (days : Nat) : Nat × Nat × Nat :=
  let z := days + 719468
  let era := z / 146097
  let doe := z - era * 146097
  let yoe := (doe - doe / 1460 + doe / 36524 - doe / 146096) / 365
  let doy := doe - (365 * yoe + yoe / 4 - yoe / 100)
  let mp := (5 * doy + 2) / 153
  let day := doy - (153 * mp + 2) / 5 + 1
  let month := if mp < 10 then mp + 3 else mp - 9
  (yoe + era * 400 + (if month ≤ 2 then 1 else 0), month, day)

/-- The UTC date of an instant in milliseconds since the epoch. -/
def dateOf (millis : Nat) : Nat × Nat × Nat := civil (millis / 86400000)

example : dateOf 1750000000000 = (2025, 6, 15) := by decide

/-- `%0<width>d`: at least `width` digits, more when the number needs them. -/
def padded (width n : Nat) : String :=
  let digits := Nat.toDigits 10 n
  String.ofList (List.replicate (width - digits.length) '0' ++ digits)

/-- `Format("060102")`. -/
def yymmdd (millis : Nat) : String :=
  let (year, month, day) := dateOf millis
  padded 2 (year % 100) ++ padded 2 month ++ padded 2 day

/-- `CAST(… AS INT)` of a text of digits. Postgres also takes blanks and a sign,
which no code here contains. -/
def castInt (text : List Char) : Option Nat :=
  if text ≠ [] ∧ text.all Char.isDigit then some (Nat.ofDigitChars 10 text 0) else none

/-- `code LIKE prefix || '%'`; the prefixes used hold no wildcard. -/
def matches_ (pre code : String) : Bool := pre.toList.isPrefixOf code.toList

/-- The numbers behind `pre` in a list of codes; a code that is not a number
there makes the query fail. -/
def sequenceNumbers (pre : String) (codes : List String) : Option (List Nat) :=
  (codes.filter (matches_ pre)).mapM fun code => castInt (code.toList.drop pre.toList.length)

/-- `COALESCE(MAX(…), 0) + 1`. -/
def nextSeq (pre : String) (codes : List String) : Option Nat :=
  (sequenceNumbers pre codes).map fun numbers => numbers.foldr max 0 + 1

/-- The code that carries number `n`. -/
def code (pre : String) (n : Nat) : String := pre ++ padded 4 n

private theorem padded_toList (width n : Nat) : (padded width n).toList =
    List.replicate (width - (Nat.toDigits 10 n).length) '0' ++ Nat.toDigits 10 n := by
  simp [padded]

theorem padded_digits (width n : Nat) : ∀ c ∈ (padded width n).toList, c.isDigit = true := by
  intro c member
  rw [padded_toList, List.mem_append] at member
  rcases member with zero | digit
  · rw [List.eq_of_mem_replicate zero]
    rfl
  · exact Nat.isDigit_of_mem_toDigits (by decide) (by decide) digit

/-- A number that fits is padded to the width exactly. -/
theorem padded_length {width n : Nat} (wide : 0 < width) (fits : n < 10 ^ width) :
    (padded width n).toList.length = width := by
  have short := (Nat.length_toDigits_le_iff (b := 10) (by decide) wide).mpr fits
  rw [padded_toList, List.length_append, List.length_replicate]
  omega

theorem ofDigitChars_padded (width n : Nat) : Nat.ofDigitChars 10 (padded width n).toList 0 = n := by
  rw [padded_toList, Nat.ofDigitChars_append, Nat.ofDigitChars_replicate_zero, Nat.mul_zero, Nat.ofDigitChars_ten_toDigits]

/-- The padded form reads back as the number. -/
theorem castInt_padded (width n : Nat) : castInt (padded width n).toList = some n := by
  have digits := padded_digits width n
  have nonempty : (padded width n).toList ≠ [] := by
    rw [padded_toList]
    simp [Nat.toDigits_ne_nil]
  rw [castInt, if_pos ⟨nonempty, List.all_eq_true.mpr digits⟩, ofDigitChars_padded]

theorem padded_injective (width : Nat) : Function.Injective (padded width) := by
  intro first second same
  have read := congrArg (fun text => castInt text.toList) same
  simp only [castInt_padded, Option.some.injEq] at read
  exact read

theorem matches_code (pre : String) (n : Nat) : matches_ pre (code pre n) = true := by
  simp [matches_, code, String.toList_append]

theorem drop_code (pre : String) (n : Nat) :
    (code pre n).toList.drop pre.toList.length = (padded 4 n).toList := by
  simp [code, String.toList_append]

theorem code_ne_empty (pre : String) (n : Nat) : code pre n ≠ "" := by
  intro empty
  have digits := drop_code pre n
  rw [empty, String.toList_empty, List.drop_nil] at digits
  have value := castInt_padded 4 n
  rw [← digits] at value
  cases value

private theorem le_foldr_max {n : Nat} : ∀ {numbers : List Nat}, n ∈ numbers → n ≤ numbers.foldr max 0
  | head :: rest, member => by
    rcases List.mem_cons.mp member with rfl | later
    · exact Nat.le_max_left ..
    · exact Nat.le_trans (le_foldr_max later) (Nat.le_max_right ..)

private theorem mem_of_mapM {α β : Type} {f : α → Option β} {x : α} {y : β} (found : f x = some y) :
    ∀ {xs : List α} {ys : List β}, xs.mapM f = some ys → x ∈ xs → y ∈ ys
  | head :: rest, ys, mapped, member => by
    simp only [List.mapM_cons, Option.bind_eq_bind, Option.bind_eq_some_iff, Option.pure_def,
      Option.some.injEq] at mapped
    obtain ⟨first, headFound, others, restFound, rfl⟩ := mapped
    rcases List.mem_cons.mp member with rfl | later
    · rw [found] at headFound
      cases headFound
      exact List.mem_cons_self ..
    · exact List.mem_cons_of_mem _ (mem_of_mapM found restFound later)

/-- A number allocated from a list is above every number of the list, so its
code is new. -/
theorem nextSeq_fresh {pre : String} {codes : List String} {n : Nat}
    (allocated : nextSeq pre codes = some n) : code pre n ∉ codes := by
  intro taken
  obtain ⟨numbers, read, rfl⟩ := Option.map_eq_some_iff.mp allocated
  have listed : code pre (numbers.foldr max 0 + 1) ∈ codes.filter (matches_ pre) :=
    List.mem_filter.mpr ⟨taken, matches_code ..⟩
  have present : numbers.foldr max 0 + 1 ∈ numbers :=
    mem_of_mapM (by rw [drop_code, castInt_padded]) read listed
  have bounded := le_foldr_max present
  omega

end Ironsight.Codes
