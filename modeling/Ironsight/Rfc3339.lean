import Mathlib.Data.List.TakeWhile
import Ironsight.Calendar

/-! Reading times as `time.Parse` reads them under the layout `time.RFC3339Nano`: one digit
for the hour is enough, a comma may introduce the fraction, and offsets go up to 24:60. A
printed instant of the years 0 to 9999 is read back. -/
namespace Ironsight.Rfc3339
open Codes Calendar

/-! ## The parser -/

/-- The day number of a date. -/
def dayNumber (year : Int) (month day : Nat) : Int :=
  365 * (year - 1) + (year - 1) / 4 - (year - 1) / 100 + (year - 1) / 400 - 719162 +
    ((monthLengths (leap year)).take (month - 1)).sum + day - 1

def daysIn (month : Nat) (year : Int) : Nat := ((monthLengths (leap year))[month - 1]?).getD 0

def digit (c : Char) : Nat := c.toNat - 48

/-- One or two digits, two when `fixed`. -/
def getnum (fixed : Bool) : List Char → Option (Nat × List Char)
  | a :: b :: rest =>
    if !a.isDigit then none
    else if b.isDigit then some (digit a * 10 + digit b, rest)
    else if fixed then none
    else some (digit a, b :: rest)
  | [a] => if a.isDigit && !fixed then some (digit a, []) else none
  | [] => none

/-- A character of the layout. -/
def skip (expected : Char) : List Char → Option (List Char)
  | c :: rest => if c = expected then some rest else none
  | [] => none

def getYear : List Char → Option (Nat × List Char)
  | a :: b :: c :: d :: rest =>
    if [a, b, c, d].all Char.isDigit then some (Nat.ofDigitChars 10 [a, b, c, d] 0, rest) else none
  | _ => none

/-- The nanoseconds of a fraction, from its first nine digits, and 0 without one. -/
def getFraction : List Char → Nat × List Char
  | [] => (0, [])
  | mark :: rest =>
    let digits := rest.takeWhile Char.isDigit
    if (mark = '.' || mark = ',') && !digits.isEmpty then
      (Nat.ofDigitChars 10 (digits.take 9) 0 * 10 ^ (9 - digits.length), rest.dropWhile Char.isDigit)
    else (0, mark :: rest)

/-- The offset from UTC in seconds. -/
def getZone : List Char → Option (Int × List Char)
  | 'Z' :: rest => some (0, rest)
  | sign :: a :: b :: ':' :: c :: d :: rest => do
    let (hr, _) ← getnum true [a, b]
    let (mm, _) ← getnum true [c, d]
    if 24 < hr ∨ 60 < mm then none
    else if sign = '+' then some ((hr * 60 + mm) * 60, rest)
    else if sign = '-' then some (-((hr * 60 + mm) * 60), rest)
    else none
  | _ => none

/-- Nanoseconds since the epoch. -/
def parse (value : List Char) : Option Int := do
  let (year, value) ← getYear value
  let value ← skip '-' value
  let (month, value) ← getnum true value
  guard (0 < month ∧ month ≤ 12)
  let value ← skip '-' value
  let (day, value) ← getnum true value
  let value ← skip 'T' value
  let (hour, value) ← getnum false value
  guard (hour < 24)
  let value ← skip ':' value
  let (minute, value) ← getnum true value
  guard (minute < 60)
  let value ← skip ':' value
  let (second, value) ← getnum true value
  guard (second < 60)
  let (nsec, value) := getFraction value
  let (zoneOffset, value) ← getZone value
  guard (value = [] ∧ 0 < day ∧ day ≤ daysIn month year)
  return ((dayNumber year month day * 86400 + hour * 3600 + minute * 60 + second - zoneOffset) * 1000000000 + nsec)

example : parse "2025-06-15T15:06:40.12Z".toList = some 1750000000120000000 := by decide +kernel
example : parse "2025-06-15T17:36:40,120+02:30".toList = some 1750000000120000000 := by decide +kernel

/-! ## Dates -/

/-- Only leap years have a day 365. -/
private theorem yearDay_bound (days : Int) : (yearDay days).2 < 365 + if leap (yearDay days).1 then 1 else 0 := by
  obtain ⟨era, century, four, year, _, years, _, fours, _, short | ⟨last, ends, quiet⟩⟩ := yearDay_cycles days
  · omega
  · have leaps : leap (yearDay days).1 = true := by
      rw [years, leap, decide_eq_true_eq]
      omega
    rw [leaps, last]
    decide

private theorem monthDay_spec : ∀ (lengths : List Nat) (month day : Nat), day < lengths.sum →
    ∃ i length, lengths[i]? = some length ∧ (monthDay lengths month day).1 = month + i ∧
      (lengths.take i).sum + (monthDay lengths month day).2 = day + 1 ∧ 0 < (monthDay lengths month day).2 ∧
      (monthDay lengths month day).2 ≤ length
  | [], _, _, within => absurd within (Nat.not_lt_zero _)
  | length :: rest, month, day, within => by
    rw [monthDay]
    split
    · next short => exact ⟨0, length, rfl, rfl, by simp, Nat.succ_pos day, short⟩
    · next long =>
      rw [List.sum_cons] at within
      obtain ⟨i, found, held, months, sum, pos, fits⟩ := monthDay_spec rest (month + 1) (day - length) (by omega)
      exact ⟨i + 1, found, held, by omega, by rw [List.take_succ_cons, List.sum_cons]; omega, pos, fits⟩

private theorem sum_monthLengths (leap : Bool) : (monthLengths leap).sum = 365 + if leap then 1 else 0 := by
  cases leap <;> rfl

private theorem mem_monthLengths {leap : Bool} {length : Nat} (held : length ∈ monthLengths leap) : length ≤ 31 := by
  revert length
  cases leap <;> decide

/-- The date of a day is a date of the calendar, and the date of that day alone. -/
private theorem date_spec (days : Int) : dayNumber (date days).1 (date days).2.1 (date days).2.2 = days ∧
    (0 < (date days).2.1 ∧ (date days).2.1 ≤ 12) ∧ 0 < (date days).2.2 ∧ (date days).2.2 ≤ 31 ∧
      (date days).2.2 ≤ daysIn (date days).2.1 (date days).1 := by
  obtain ⟨era, century, four, year, whole, years, centuries, fours, inFour, _⟩ := yearDay_cycles days
  obtain ⟨i, length, held, month, sum, positive, fits⟩ :=
    monthDay_spec (monthLengths (leap (yearDay days).1)) 1 (yearDay days).2 (by
      rw [sum_monthLengths]
      exact yearDay_bound days)
  have index : i < 12 := by
    have := (List.getElem?_eq_some_iff.mp held).1
    simpa [monthLengths] using this
  have bounded := mem_monthLengths (List.mem_of_getElem? held)
  have before : (monthDay (monthLengths (leap (yearDay days).1)) 1 (yearDay days).2).1 - 1 = i := by omega
  simp only [date, dayNumber, daysIn, before, held, Option.getD_some]
  refine ⟨?_, ⟨by omega, by omega⟩, positive, by omega, fits⟩
  have quarters : ((yearDay days).1 - 1) / 4 = 100 * era + 25 * century + four := by omega
  have hundreds : ((yearDay days).1 - 1) / 100 = 4 * era + century := by omega
  have eras : ((yearDay days).1 - 1) / 400 = era := by omega
  rw [quarters, hundreds, eras]
  omega

/-- The date of a day has the number of the day. -/
theorem dayNumber_date (days : Int) :
    dayNumber (date days).1 (date days).2.1 (date days).2.2 = days := (date_spec days).1

theorem month_day_small (days : Int) : (date days).2.1 < 100 ∧ (date days).2.2 < 100 := by
  obtain ⟨_, ⟨_, month⟩, _, day, _⟩ := date_spec days
  exact ⟨by omega, by omega⟩

/-! ## Printed times are read -/

private theorem two_digits {n : Nat} (small : n < 100) : ∃ a b : Char, twoDigits n = [a, b] ∧ a.isDigit = true ∧
    b.isDigit = true ∧ digit a * 10 + digit b = n := by
  have digits := padded_digits 2 n
  have value := ofDigitChars_padded 2 n
  obtain ⟨a, b, same⟩ := List.length_eq_two.mp (padded_length (by decide : 0 < 2) small)
  rw [same] at digits value
  refine ⟨a, b, same, digits a (by simp), digits b (by simp), ?_⟩
  rw [Nat.ofDigitChars_cons, Nat.ofDigitChars_cons, Nat.ofDigitChars_nil] at value
  simp only [digit]
  change 10 * (10 * 0 + (a.toNat - 48)) + (b.toNat - 48) = n at value
  omega

private theorem getnum_twoDigits {n : Nat} (small : n < 100) (fixed : Bool) (rest : List Char) :
    getnum fixed (twoDigits n ++ rest) = some (n, rest) := by
  obtain ⟨a, b, same, first, second, value⟩ := two_digits small
  simp [same, getnum, first, second, value]

private theorem skip_cons (c : Char) (rest : List Char) : skip c (c :: rest) = some rest := by simp [skip]

private theorem getYear_yearText {year : Int} (early : 0 ≤ year) (late : year ≤ 9999) (rest : List Char) :
    getYear (yearText year ++ rest) = some (year.toNat, rest) := by
  have nonneg : ¬ year < 0 := by omega
  have small : year.natAbs < 10 ^ 4 := by omega
  have digits := padded_digits 4 year.natAbs
  have value := ofDigitChars_padded 4 year.natAbs
  have length := padded_length (by decide : 0 < 4) small
  match same : (padded 4 year.natAbs).toList, length with
  | [a, b, c, d], _ =>
    rw [same] at digits value
    have all : [a, b, c, d].all Char.isDigit = true := List.all_eq_true.mpr digits
    have absolute : year.natAbs = year.toNat := by omega
    simp only [yearText, nonneg, if_false, List.nil_append, same, List.cons_append, getYear, all, if_true, value]
    rw [absolute]

/-- The digits of a fraction without the trailing zeros. -/
private theorem trimmed_digits (nanos : Nat) : ∃ zeros, (padded 9 nanos).toList =
    ((padded 9 nanos).toList.reverse.dropWhile (· = '0')).reverse ++ List.replicate zeros '0' := by
  have split := List.takeWhile_append_dropWhile (p := fun c => decide (c = '0')) (l := (padded 9 nanos).toList.reverse)
  refine ⟨((padded 9 nanos).toList.reverse.takeWhile fun c => decide (c = '0')).length, ?_⟩
  have zeros : ((padded 9 nanos).toList.reverse.takeWhile fun c => decide (c = '0')) = List.replicate
      ((padded 9 nanos).toList.reverse.takeWhile fun c => decide (c = '0')).length '0' :=
    List.eq_replicate_of_mem fun c member => by simpa using List.mem_takeWhile_imp member
  have back := congrArg List.reverse split
  rw [List.reverse_append, List.reverse_reverse, zeros, List.reverse_replicate] at back
  exact back.symm

private theorem getFraction_fraction {nanos : Nat} (small : nanos < 10 ^ 9) (rest : List Char) :
    getFraction (fraction nanos ++ 'Z' :: rest) = (nanos, 'Z' :: rest) := by
  unfold fraction
  split
  · next none_ =>
    subst none_
    simp [getFraction]
  · next some_ =>
    obtain ⟨zeros, trimmed⟩ := trimmed_digits nanos
    generalize ((padded 9 nanos).toList.reverse.dropWhile (· = '0')).reverse = digits at trimmed ⊢
    have length := padded_length (by decide : 0 < 9) small
    have value := ofDigitChars_padded 9 nanos
    have allDigits := padded_digits 9 nanos
    rw [trimmed] at length value allDigits
    rw [List.length_append, List.length_replicate] at length
    rw [Nat.ofDigitChars_append, Nat.ofDigitChars_replicate_zero] at value
    have isDigits : ∀ c ∈ digits, c.isDigit = true := fun c held => allDigits c (List.mem_append_left _ held)
    have given : digits ≠ [] := by
      rintro rfl
      rw [Nat.ofDigitChars_nil, Nat.mul_zero] at value
      exact some_ value.symm
    have taken : (digits ++ 'Z' :: rest).takeWhile Char.isDigit = digits := by
      rw [List.takeWhile_append_of_pos isDigits, List.takeWhile_cons_of_neg (by decide), List.append_nil]
    have left : (digits ++ 'Z' :: rest).dropWhile Char.isDigit = 'Z' :: rest := by
      rw [List.dropWhile_append_of_pos isDigits, List.dropWhile_cons_of_neg (by decide)]
    have missing : 9 - digits.length = zeros := by omega
    simp only [List.cons_append, getFraction, taken, left, List.take_of_length_le (by omega : digits.length ≤ 9), missing]
    simp [given, Nat.mul_comm, value]

private theorem bind_of_some {α β : Type} {first : Option α} {a : α} {rest : α → Option β} {result : Option β}
    (found : first = some a) (goesOn : rest a = result) : (first >>= rest) = result := by
  rw [found]
  exact goesOn

/-- A printed instant of the years 0 to 9999 is read back. -/
theorem parse_rfc3339Nano {instant : Int} (early : 0 ≤ (date (instant / 1000000000 / 86400)).1)
    (late : (date (instant / 1000000000 / 86400)).1 ≤ 9999) : parse (rfc3339Nano instant).toList = some instant := by
  obtain ⟨days, ⟨month, month'⟩, day, day', within⟩ := date_spec (instant / 1000000000 / 86400)
  generalize dated : date (instant / 1000000000 / 86400) = found at *
  obtain ⟨y, m, d⟩ := found
  generalize clock : (instant / 1000000000 % 86400).toNat = second
  have bound : second < 86400 := by omega
  have nanos : (instant % 1000000000).toNat < 10 ^ 9 := by omega
  simp only at early late days month month' day day' within
  have year : ((y.toNat : Nat) : Int) = y := Int.toNat_of_nonneg early
  have zone : getZone ['Z'] = some (0, []) := rfl
  have passed {holds : Prop} [Decidable holds] (given : holds) : (guard holds : Option Unit) = some () := if_pos given
  simp only [rfc3339Nano, String.toList_ofList, dated, clock, parse]
  refine bind_of_some (getYear_yearText early late _) (bind_of_some (skip_cons '-' _) ?_)
  refine bind_of_some (getnum_twoDigits (by omega : m < 100) true _) (bind_of_some (passed ⟨month, month'⟩) ?_)
  refine bind_of_some (skip_cons '-' _) (bind_of_some (getnum_twoDigits (by omega : d < 100) true _) ?_)
  refine bind_of_some (skip_cons 'T' _) ?_
  refine bind_of_some (getnum_twoDigits (by omega : second / 3600 < 100) false _) (bind_of_some (passed (by omega)) ?_)
  refine bind_of_some (skip_cons ':' _) ?_
  refine bind_of_some (getnum_twoDigits (by omega : second / 60 % 60 < 100) true _) (bind_of_some (passed (by omega)) ?_)
  refine bind_of_some (skip_cons ':' _) ?_
  refine bind_of_some (getnum_twoDigits (by omega : second % 60 < 100) true _) (bind_of_some (passed (by omega)) ?_)
  simp only [getFraction_fraction nanos, year]
  refine bind_of_some zone (bind_of_some (passed ⟨rfl, day, within⟩) ?_)
  rw [days, Option.pure_def, Option.some_inj]
  omega

end Ironsight.Rfc3339
