import Mathlib.Data.String.Basic
import Ironsight.Rfc3339

/-! Times of whole seconds in the text of RFC 3339. In the years 0 to 9999 every field has its
width, so that the texts follow one another as strings as the times do. -/
namespace Ironsight.Timestamps
open Codes Calendar Rfc3339

/-- `UTC().Format(time.RFC3339)` of seconds since the epoch. -/
def rfc3339 (seconds : Int) : String := rfc3339Nano (seconds * 1000000000)

/-- The years that RFC 3339 has. -/
def FourDigitYear (seconds : Int) : Prop := 0 ≤ (date (seconds / 86400)).1 ∧ (date (seconds / 86400)).1 ≤ 9999

instance (seconds : Int) : Decidable (FourDigitYear seconds) := inferInstanceAs (Decidable (_ ∧ _))

theorem parse_rfc3339 {seconds : Int} (year : FourDigitYear seconds) :
    parse (rfc3339 seconds).toList = some (seconds * 1000000000) := by
  have whole : seconds * 1000000000 / 1000000000 = seconds := by omega
  refine parse_rfc3339Nano ?_ ?_ <;> rw [whole]
  · exact year.1
  · exact year.2

/-! ## Digits -/

private theorem code_digit {c : Char} (held : c.isDigit = true) :
    48 ≤ c.toNat ∧ c.toNat ≤ 57 := Char.isDigit_iff_toNat.mp held

/-- Digits of one number do not make up for what came before them. -/
private theorem ofDigitChars_lt {first second : List Char} {n m : Nat} (length : first.length = second.length)
    (firstDigits : ∀ c ∈ first, c.isDigit = true) (lt : n < m) :
    Nat.ofDigitChars 10 first n < Nat.ofDigitChars 10 second m := by
  induction first generalizing second n m with
  | nil =>
    rw [List.eq_nil_of_length_eq_zero length.symm]
    exact lt
  | cons c first ih =>
    cases second with
    | nil => cases length
    | cons d second =>
      have bound := (code_digit (firstDigits c List.mem_cons_self)).2
      rw [Nat.ofDigitChars_cons, Nat.ofDigitChars_cons]
      refine ih (Nat.succ.inj length) (fun e held => firstDigits e (List.mem_cons_of_mem _ held)) ?_
      change 10 * n + (c.toNat - 48) < 10 * m + (d.toNat - 48)
      omega

private theorem lt_of_ofDigitChars_lt {first second : List Char} {n : Nat} (length : first.length = second.length)
    (firstDigits : ∀ c ∈ first, c.isDigit = true) (secondDigits : ∀ c ∈ second, c.isDigit = true)
    (lt : Nat.ofDigitChars 10 first n < Nat.ofDigitChars 10 second n) : first < second := by
  induction first generalizing second n with
  | nil =>
    rw [List.eq_nil_of_length_eq_zero length.symm] at lt
    exact absurd lt (Nat.lt_irrefl _)
  | cons c first ih =>
    cases second with
    | nil => cases length
    | cons d second =>
      have firstRest : ∀ e ∈ first, e.isDigit = true := fun e held => firstDigits e (List.mem_cons_of_mem _ held)
      have secondRest : ∀ e ∈ second, e.isDigit = true := fun e held => secondDigits e (List.mem_cons_of_mem _ held)
      have firstBound := code_digit (firstDigits c List.mem_cons_self)
      have secondBound := code_digit (secondDigits d List.mem_cons_self)
      rw [Nat.ofDigitChars_cons, Nat.ofDigitChars_cons] at lt
      rw [List.cons_lt_cons_iff]
      rcases lt_trichotomy c d with less | rfl | greater
      · exact .inl less
      · exact .inr ⟨rfl, ih (Nat.succ.inj length) firstRest secondRest lt⟩
      · refine absurd (ofDigitChars_lt (Nat.succ.inj length).symm secondRest ?_) (Nat.lt_asymm lt)
        have codes : d.toNat < c.toNat := greater
        change 10 * n + (d.toNat - 48) < 10 * n + (c.toNat - 48)
        omega

private theorem append_lt {first second rest other : List Char} (length : first.length = second.length) (lt : first < second) :
    first ++ rest < second ++ other := by
  induction first generalizing second with
  | nil =>
    rw [List.eq_nil_of_length_eq_zero length.symm] at lt
    exact absurd lt (lt_irrefl _)
  | cons c first ih =>
    cases second with
    | nil => cases length
    | cons d second =>
      rw [List.cons_append, List.cons_append, List.cons_lt_cons_iff]
      exact (List.cons_lt_cons_iff.mp lt).imp_right fun ⟨same, later⟩ => ⟨same, ih (Nat.succ.inj length) later⟩

/-! ## Fields -/

private theorem cons_lt {c : Char} {rest other : List Char} (lt : rest < other) : c :: rest < c :: other :=
  List.cons_lt_cons_iff.mpr (.inr ⟨rfl, lt⟩)

/-- A field decides unless both texts have the same there. -/
private theorem field_lt {width n m : Nat} {c : Char} {rest other : List Char} {Later : Prop} (wide : 0 < width)
    (small : n < 10 ^ width) (small' : m < 10 ^ width) (lt : n < m ∨ n = m ∧ Later) (later : Later → rest < other) :
    (padded width n).toList ++ c :: rest < (padded width m).toList ++ c :: other := by
  rcases lt with less | ⟨rfl, held⟩
  · have length := (padded_length wide small).trans (padded_length wide small').symm
    refine append_lt length (lt_of_ofDigitChars_lt (n := 0) length (padded_digits width n) (padded_digits width m) ?_)
    rwa [ofDigitChars_padded, ofDigitChars_padded]
  · generalize (padded width n).toList = digits
    induction digits with
    | nil => exact cons_lt (later held)
    | cons d digits ih => exact cons_lt ih

private theorem yearText_lt {year year' : Int} {c : Char} {rest other : List Char} {Later : Prop} (early : 0 ≤ year)
    (late : year ≤ 9999) (early' : 0 ≤ year') (late' : year' ≤ 9999) (lt : year < year' ∨ year = year' ∧ Later)
    (later : Later → rest < other) : yearText year ++ c :: rest < yearText year' ++ c :: other := by
  have decided : year.natAbs < year'.natAbs ∨ year.natAbs = year'.natAbs ∧ Later := by
    rcases lt with less | ⟨rfl, held⟩
    · exact .inl (by omega)
    · exact .inr ⟨rfl, held⟩
  unfold yearText
  rw [if_neg (not_lt.mpr early), if_neg (not_lt.mpr early'), List.nil_append, List.nil_append]
  exact field_lt (by decide) (by omega) (by omega) decided later

/-- The fields of a time, in the order in which they decide. -/
private theorem fields_lt {first second : Int} (lt : first < second) :
    (date (first / 86400)).1 < (date (second / 86400)).1 ∨ (date (first / 86400)).1 = (date (second / 86400)).1 ∧
      ((date (first / 86400)).2.1 < (date (second / 86400)).2.1 ∨ (date (first / 86400)).2.1 = (date (second / 86400)).2.1 ∧
        ((date (first / 86400)).2.2 < (date (second / 86400)).2.2 ∨ (date (first / 86400)).2.2 = (date (second / 86400)).2.2 ∧
          (first % 86400).toNat < (second % 86400).toNat)) := by
  rcases (by omega : first / 86400 < second / 86400 ∨
    first / 86400 = second / 86400 ∧ (first % 86400).toNat < (second % 86400).toNat) with days | ⟨same, later⟩
  · have dates := date_lt days
    tauto
  · rw [same]
    exact .inr ⟨rfl, .inr ⟨rfl, .inr ⟨rfl, later⟩⟩⟩

private theorem clock_lt {first second : Nat} (lt : first < second) : first / 3600 < second / 3600 ∨
    first / 3600 = second / 3600 ∧ (first / 60 % 60 < second / 60 % 60 ∨
      first / 60 % 60 = second / 60 % 60 ∧ first % 60 < second % 60) := by
  omega

/-- Later seconds have greater texts. -/
theorem rfc3339_lt {first second : Int} (year : FourDigitYear first) (year' : FourDigitYear second) (lt : first < second) :
    rfc3339 first < rfc3339 second := by
  have whole (seconds : Int) : seconds * 1000000000 / 1000000000 = seconds := by omega
  have none (seconds : Int) : seconds * 1000000000 % 1000000000 = 0 := by omega
  obtain ⟨month, day⟩ := month_day_small (first / 86400)
  obtain ⟨month', day'⟩ := month_day_small (second / 86400)
  have fields := fields_lt lt
  have bound : (first % 86400).toNat < 86400 := by omega
  have bound' : (second % 86400).toNat < 86400 := by omega
  rw [String.lt_iff_toList_lt]
  simp only [rfc3339, rfc3339Nano, String.toList_ofList, whole, none]
  generalize (first % 86400).toNat = time at *
  generalize (second % 86400).toNat = time' at *
  refine yearText_lt year.1 year.2 year'.1 year'.2 fields fun later => ?_
  refine field_lt (by decide) month month' later fun later => ?_
  refine field_lt (by decide) day day' later fun later => ?_
  refine field_lt (by decide) (by omega) (by omega) (clock_lt later) fun later => ?_
  refine field_lt (by decide) (by omega) (by omega) later fun later => ?_
  rw [fraction, if_pos Int.toNat_zero]
  exact field_lt (by decide) (by omega) (by omega) (.inl later) False.elim

theorem rfc3339_lt_iff {first second : Int} (year : FourDigitYear first) (year' : FourDigitYear second) :
    rfc3339 first < rfc3339 second ↔ first < second := by
  refine ⟨fun lt => ?_, rfc3339_lt year year'⟩
  by_contra le
  rcases eq_or_lt_of_le (not_lt.mp le) with rfl | later
  · exact lt_irrefl _ lt
  · exact lt_asymm lt (rfc3339_lt year' year later)

end Ironsight.Timestamps
