import Mathlib.Algebra.Order.Ring.Int
import Ironsight.Codes

/-! Dates of the proleptic Gregorian calendar and their RFC 3339 text with
nanoseconds. The text of an instant determines the instant. -/
namespace Ironsight.Calendar
open Codes

/-! ## Dates -/

/-- The year and the day within it, from 0, of a day number since 1 January
1970: cycles of 400, 100, 4 and 1 years, counted from year 1. -/
def yearDay (days : Int) : Int × Nat :=
  let days := days + 719162
  let cycle := days % 146097
  let century := min (cycle / 36524) 3
  let inCentury := cycle - 36524 * century
  let inFour := inCentury % 1461
  let year := min (inFour / 365) 3
  (400 * (days / 146097) + 100 * century + 4 * (inCentury / 1461) + year + 1, (inFour - 365 * year).toNat)

/-- A day number by its cycles; only the last year of a cycle may have a day 365. -/
theorem yearDay_cycles (days : Int) : ∃ era century four year : Int,
    days + 719162 = 146097 * era + 36524 * century + 1461 * four + 365 * year + (yearDay days).2 ∧
      (yearDay days).1 = 400 * era + 100 * century + 4 * four + year + 1 ∧
        (0 ≤ century ∧ century ≤ 3) ∧ (0 ≤ four ∧ four ≤ 24) ∧ (0 ≤ year ∧ year ≤ 3) ∧
          ((yearDay days).2 < 365 ∨ (yearDay days).2 = 365 ∧ year = 3 ∧ (four < 24 ∨ century = 3)) := by
  have cycle := Int.emod_nonneg (days + 719162) (by decide : (146097 : Int) ≠ 0)
  have below := Int.emod_lt_of_pos (days + 719162) (by decide : (0 : Int) < 146097)
  have whole := Int.mul_ediv_add_emod (days + 719162) 146097
  simp only [yearDay]
  generalize (days + 719162) % 146097 = rest at *
  generalize (days + 719162) / 146097 = era at *
  generalize centuryEq : min (rest / 36524) 3 = century
  have centuries : 0 ≤ century ∧ century ≤ 3 ∧ 0 ≤ rest - 36524 * century ∧ rest - 36524 * century < 36525 := by omega
  generalize fourEq : (rest - 36524 * century) / 1461 = four
  generalize inFourEq : (rest - 36524 * century) % 1461 = inFour
  have fours : 0 ≤ four ∧ four ≤ 24 ∧ 0 ≤ inFour ∧ inFour < 1461 ∧ rest - 36524 * century = 1461 * four + inFour := by
    omega
  generalize yearEq : min (inFour / 365) 3 = year
  have years : 0 ≤ year ∧ year ≤ 3 ∧ 0 ≤ inFour - 365 * year := by omega
  exact ⟨era, century, four, year, by omega, by omega, by omega, by omega, by omega, by omega⟩

theorem yearDay_injective : Function.Injective yearDay := by
  intro first second same
  obtain ⟨era, century, four, year, days, years, bounds⟩ := yearDay_cycles first
  obtain ⟨era', century', four', year', days', years', bounds'⟩ := yearDay_cycles second
  rw [same] at days years
  omega

def leap (year : Int) : Bool := year % 4 = 0 ∧ (year % 100 ≠ 0 ∨ year % 400 = 0)

def monthLengths (leap : Bool) : List Nat := [31, if leap then 29 else 28, 31, 30, 31, 30, 31, 31, 30, 31, 30, 31]

/-- The month and the day of the month, both from 1. -/
def monthDay (lengths : List Nat) (month day : Nat) : Nat × Nat :=
  match lengths with
  | [] => (month, day + 1)
  | length :: rest => if day < length then (month, day + 1) else monthDay rest (month + 1) (day - length)

private theorem le_month (lengths : List Nat) (month day : Nat) : month ≤ (monthDay lengths month day).1 := by
  induction lengths generalizing month day with
  | nil => exact Nat.le_refl month
  | cons length rest ih =>
    rw [monthDay]
    split
    · exact Nat.le_refl month
    · exact Nat.le_trans (Nat.le_succ month) (ih (month + 1) (day - length))

private theorem monthDay_injective (lengths : List Nat) (month : Nat) :
    Function.Injective (monthDay lengths month) := by
  induction lengths generalizing month with
  | nil =>
    intro first second same
    simpa [monthDay] using same
  | cons length rest ih =>
    intro first second same
    simp only [monthDay] at same
    split at same
    · split at same
      · simpa using same
      · have later := le_month rest (month + 1) (second - length)
        rw [← same] at later
        exact absurd later (Nat.not_succ_le_self month)
    · split at same
      · have later := le_month rest (month + 1) (first - length)
        rw [same] at later
        exact absurd later (Nat.not_succ_le_self month)
      · have equal := ih (month + 1) same
        omega

/-- Year, month and day of a day number. -/
def date (days : Int) : Int × Nat × Nat :=
  let (year, day) := yearDay days
  (year, monthDay (monthLengths (leap year)) 1 day)

theorem date_injective : Function.Injective date := by
  intro first second same
  simp only [date, Prod.mk.injEq] at same
  obtain ⟨sameYear, sameDay⟩ := same
  rw [sameYear] at sameDay
  exact yearDay_injective (Prod.ext sameYear (monthDay_injective _ _ sameDay))

private theorem yearDay_lt {first second : Int} (lt : first < second) : (yearDay first).1 < (yearDay second).1 ∨
    (yearDay first).1 = (yearDay second).1 ∧ (yearDay first).2 < (yearDay second).2 := by
  obtain ⟨era, century, four, year, days, years, bounds⟩ := yearDay_cycles first
  obtain ⟨era', century', four', year', days', years', bounds'⟩ := yearDay_cycles second
  omega

private theorem monthDay_lt (lengths : List Nat) (month : Nat) {first second : Nat} (lt : first < second) :
    (monthDay lengths month first).1 < (monthDay lengths month second).1 ∨
      (monthDay lengths month first).1 = (monthDay lengths month second).1 ∧
        (monthDay lengths month first).2 < (monthDay lengths month second).2 := by
  induction lengths generalizing month first second with
  | nil => exact .inr ⟨rfl, by simpa [monthDay] using lt⟩
  | cons length rest ih =>
    simp only [monthDay]
    split
    · split
      · exact .inr ⟨rfl, by omega⟩
      · exact .inl (le_month rest (month + 1) (second - length))
    · rw [if_neg (by omega)]
      exact ih (month + 1) (by omega)

/-- Dates follow one another as days do. -/
theorem date_lt {first second : Int} (lt : first < second) : (date first).1 < (date second).1 ∨
    (date first).1 = (date second).1 ∧ ((date first).2.1 < (date second).2.1 ∨
      (date first).2.1 = (date second).2.1 ∧ (date first).2.2 < (date second).2.2) := by
  simp only [date]
  rcases yearDay_lt lt with years | ⟨years, days⟩
  · exact .inl years
  · rw [years]
    exact .inr ⟨rfl, monthDay_lt _ _ days⟩

example : date 0 = (1970, 1, 1) ∧ date 20254 = (2025, 6, 15) ∧ date 19782 = (2024, 2, 29) ∧ date (-719163) = (0, 12, 31) := by
  decide

/-! ## Text -/

/-- At least four digits, after a sign for the years before year 0. -/
def yearText (year : Int) : List Char := (if year < 0 then ['-'] else []) ++ (padded 4 year.natAbs).toList

def twoDigits (n : Nat) : List Char := (padded 2 n).toList

/-- The fraction of a second, without trailing zeros and empty when there is none. -/
def fraction (nanos : Nat) : List Char :=
  if nanos = 0 then [] else '.' :: ((padded 9 nanos).toList.reverse.dropWhile (· = '0')).reverse

/-- `UTC().Format(time.RFC3339Nano)` of nanoseconds since the epoch. -/
def rfc3339Nano (instant : Int) : String :=
  let seconds := instant / 1000000000
  let (year, month, day) := date (seconds / 86400)
  let second := (seconds % 86400).toNat
  String.ofList (yearText year ++ '-' :: (twoDigits month ++ '-' :: (twoDigits day ++ 'T' ::
    (twoDigits (second / 3600) ++ ':' :: (twoDigits (second / 60 % 60) ++ ':' ::
      (twoDigits (second % 60) ++ (fraction (instant % 1000000000).toNat ++ ['Z'])))))))

/-- A run of digits ends where the first other character stands. -/
private theorem digits_end {first second rest other : List Char} (firstDigits : ∀ c ∈ first, c.isDigit = true)
    (secondDigits : ∀ c ∈ second, c.isDigit = true) (restStops : ∀ c ∈ rest.head?, c.isDigit = false)
    (otherStops : ∀ c ∈ other.head?, c.isDigit = false) (same : first ++ rest = second ++ other) :
    first = second ∧ rest = other := by
  induction first generalizing second with
  | nil =>
    cases second with
    | nil => exact ⟨rfl, same⟩
    | cons c second =>
      rw [List.nil_append] at same
      have stops := restStops c (by simp [same])
      rw [secondDigits c List.mem_cons_self] at stops
      cases stops
  | cons c first ih =>
    cases second with
    | nil =>
      rw [List.nil_append] at same
      have stops := otherStops c (by simp [← same])
      rw [firstDigits c List.mem_cons_self] at stops
      cases stops
    | cons d second =>
      obtain ⟨rfl, later⟩ := List.cons.inj same
      obtain ⟨rfl, equal⟩ := ih (fun e member => firstDigits e (List.mem_cons_of_mem _ member))
        (fun e member => secondDigits e (List.mem_cons_of_mem _ member)) later
      exact ⟨rfl, equal⟩

private theorem padded_end {width n m : Nat} {rest other : List Char} (restStops : ∀ c ∈ rest.head?, c.isDigit = false)
    (otherStops : ∀ c ∈ other.head?, c.isDigit = false)
    (same : (padded width n).toList ++ rest = (padded width m).toList ++ other) : n = m ∧ rest = other := by
  obtain ⟨digits, equal⟩ := digits_end (padded_digits width n) (padded_digits width m) restStops otherStops same
  exact ⟨padded_injective width (String.toList_injective digits), equal⟩

private theorem padded_ne_sign {width n : Nat} {rest other : List Char} :
    (padded width n).toList ++ rest ≠ '-' :: other := by
  intro same
  cases digits : (padded width n).toList with
  | nil =>
    have read := castInt_padded width n
    rw [digits] at read
    cases read
  | cons c others =>
    rw [digits, List.cons_append] at same
    have digit := padded_digits width n c (by simp [digits])
    rw [(List.cons.inj same).1] at digit
    cases digit

private theorem yearText_end {first second : Int} {rest other : List Char} (restStops : ∀ c ∈ rest.head?, c.isDigit = false)
    (otherStops : ∀ c ∈ other.head?, c.isDigit = false) (same : yearText first ++ rest = yearText second ++ other) :
    first = second ∧ rest = other := by
  unfold yearText at same
  by_cases before : first < 0
  · by_cases beforeToo : second < 0
    · simp only [before, beforeToo, if_true, List.cons_append, List.nil_append, List.cons.injEq, true_and] at same
      obtain ⟨years, equal⟩ := padded_end restStops otherStops same
      exact ⟨by omega, equal⟩
    · simp only [before, beforeToo, if_true, if_false, List.cons_append, List.nil_append] at same
      exact absurd same.symm padded_ne_sign
  · by_cases beforeToo : second < 0
    · simp only [before, beforeToo, if_true, if_false, List.cons_append, List.nil_append] at same
      exact absurd same padded_ne_sign
    · simp only [before, beforeToo, if_false, List.nil_append] at same
      obtain ⟨years, equal⟩ := padded_end restStops otherStops same
      exact ⟨by omega, equal⟩

/-- Of two lists of one length, what remains without leading zeros tells the list. -/
private theorem dropWhile_injective {first second : List Char} (length : first.length = second.length)
    (same : first.dropWhile (· = '0') = second.dropWhile (· = '0')) : first = second := by
  have zeros (digits : List Char) :
      digits = List.replicate (digits.length - (digits.dropWhile (· = '0')).length) '0' ++ digits.dropWhile (· = '0') := by
    have split := List.takeWhile_append_dropWhile (p := fun c => decide (c = '0')) (l := digits)
    have count := congrArg List.length split
    rw [List.length_append] at count
    have all : digits.takeWhile (fun c => decide (c = '0')) =
        List.replicate (digits.takeWhile fun c => decide (c = '0')).length '0' := by
      refine List.eq_replicate_of_mem fun c member => ?_
      simpa using List.all_eq_true.mp List.all_takeWhile c member
    rw [show digits.length - (digits.dropWhile (· = '0')).length = (digits.takeWhile (· = '0')).length by omega, ← all, split]
  rw [zeros first, zeros second, length, same]

private theorem fraction_injective {first second : Nat} (firstBound : first < 10 ^ 9) (secondBound : second < 10 ^ 9)
    (same : fraction first = fraction second) : first = second := by
  unfold fraction at same
  split at same
  · split at same
    · omega
    · cases same
  · split at same
    · cases same
    · have digits := List.reverse_injective (List.cons.inj same).2
      have lengths : (padded 9 first).toList.reverse.length = (padded 9 second).toList.reverse.length := by
        rw [List.length_reverse, List.length_reverse, padded_length (by decide) firstBound,
          padded_length (by decide) secondBound]
      have texts := List.reverse_injective (dropWhile_injective lengths digits)
      exact padded_injective 9 (String.toList_injective texts)

/-- The text of an instant tells the instant. -/
theorem rfc3339Nano_injective : Function.Injective rfc3339Nano := by
  have stops (c : Char) (rest : List Char) (other : c.isDigit = false) : ∀ d ∈ (c :: rest).head?, d.isDigit = false := by
    intro d member
    cases member
    exact other
  have stopsFraction (nanos : Nat) : ∀ d ∈ (fraction nanos ++ ['Z']).head?, d.isDigit = false := by
    unfold fraction
    split <;> exact stops _ _ (by decide)
  intro first second same
  have letters := congrArg String.toList same
  simp only [rfc3339Nano, String.toList_ofList] at letters
  obtain ⟨sameYear, letters⟩ := yearText_end (stops '-' _ rfl) (stops '-' _ rfl) letters
  obtain ⟨sameMonth, letters⟩ := padded_end (stops '-' _ rfl) (stops '-' _ rfl) (List.cons.inj letters).2
  obtain ⟨sameDay, letters⟩ := padded_end (stops 'T' _ rfl) (stops 'T' _ rfl) (List.cons.inj letters).2
  obtain ⟨sameHour, letters⟩ := padded_end (stops ':' _ rfl) (stops ':' _ rfl) (List.cons.inj letters).2
  obtain ⟨sameMinute, letters⟩ := padded_end (stops ':' _ rfl) (stops ':' _ rfl) (List.cons.inj letters).2
  obtain ⟨sameSecond, letters⟩ := padded_end (stopsFraction _) (stopsFraction _) (List.cons.inj letters).2
  have sameFraction := fraction_injective (by omega) (by omega) (List.append_cancel_right letters)
  have sameDate := date_injective (Prod.ext sameYear (Prod.ext sameMonth sameDay))
  omega

example : rfc3339Nano 1750000000120000000 = "2025-06-15T15:06:40.12Z" := by decide +kernel

end Ironsight.Calendar
