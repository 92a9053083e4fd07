import Ironsight.Codes
import Ironsight.EventReads
import Ironsight.OfflineVerify
import Ironsight.RecoveryCodes

/-! Recording schedules. A window opens at its start on its days and closes at its end, on
the day after when the end is earlier than the start. The code asks of a time whether its
own day is one of the window's, also when the window was opened the day before. -/
namespace Ironsight.ScheduleWindows
open Codes JsonReader OfflineVerify

/-- Nanoseconds of the clock on the wall, counted like those since the epoch. -/
abbrev Wall := Int

def minuteOf (wall : Wall) : Int := wall / 60000000000

def dayOf (wall : Wall) : Int := minuteOf wall / 1440

def minuteOfDay (wall : Wall) : Int := minuteOf wall % 1440

/-- `time.Weekday`, from Sunday; the epoch was a Thursday. -/
def weekday (day : Int) : Int := (day + 4) % 7

/-! ## The schedule's text -/

/-- `scheduleWindow`. -/
structure ScheduleWindow where
  enabled : Bool := false
  days : List Int := []
  startTime : String := ""
  endTime : String := ""
  deriving DecidableEq

/-- `scheduleConfig`, the single window of earlier versions. -/
structure ScheduleConfig where
  days : List Int := []
  start : String := ""
  end_ : String := ""
  deriving DecidableEq

def decodeBool (old : Bool) : Tree → Option Bool
  | .null => some old
  | .bool value => some value
  | _ => none

/-- An `int`: no fraction, no exponent, within 64 bits. -/
def decodeInt (old : Int) : Tree → Option Int
  | .null => some old
  | .number token => EventReads.atoi (String.ofList token)
  | _ => none

/-- A `[]int`, with what its backing array holds behind its end. -/
structure Ints where
  items : List Int := []
  hidden : List Int := []

def decodeElements (backing : List Int) : List Tree → Option (List Int)
  | [] => some []
  | tree :: trees => do
    let item ← decodeInt (backing.headD 0) tree
    let items ← decodeElements backing.tail trees
    return item :: items

def decodeInts (old : Ints) : Tree → Option Ints
  | .null | .array [] => some {}
  | .array trees =>
    let backing := old.items ++ old.hidden
    (decodeElements backing trees).map fun items => ⟨items, backing.drop items.length⟩
  | _ => none

def decodeWindow (members : List (String × Tree)) : Option ScheduleWindow := do
  let enabled ← (given "enabled" members).foldlM decodeBool false
  let days ← (given "days" members).foldlM decodeInts {}
  let startTime ← (given "start_time" members).foldlM decodeString ""
  let endTime ← (given "end_time" members).foldlM decodeString ""
  return { enabled, days := days.items, startTime, endTime }

/-- `json.Unmarshal` into a list of windows; `null` stands for one without anything set. -/
def unmarshalWindows (text : List Char) : Option (List ScheduleWindow) :=
  match readDocument text with
  | some (.array trees) => trees.mapM fun tree => match tree with
    | .null => some {}
    | .object members => decodeWindow members
    | _ => none
  | some .null => some []
  | _ => none

def unmarshalConfig (text : List Char) : Option ScheduleConfig :=
  match readDocument text with
  | some .null => some {}
  | some (.object members) => do
    let days ← (given "days" members).foldlM decodeInts {}
    let start ← (given "start" members).foldlM decodeString ""
    let end_ ← (given "end" members).foldlM decodeString ""
    return { days := days.items, start, end_ }
  | _ => none

/-! ## Times of day -/

/-- `strings.SplitN(text, ":", 2)`, none if there are no two parts. -/
def splitTime (text : String) : Option (List Char × List Char) :=
  if ':' ∈ text.toList then
    some (text.toList.takeWhile fun c => c ≠ ':', (text.toList.dropWhile fun c => c ≠ ':').tail)
  else none

/-- `fmt.Sscanf(text, "%d", &n)` into a variable that is 0, which an error leaves as it is. -/
def sscanf (text : List Char) : Int :=
  let (sign, rest) : Int × List Char := match text.dropWhile fun c => c ≠ '\n' ∧ RecoveryCodes.isSpace c with
    | '-' :: rest => (-1, rest)
    | '+' :: rest => (1, rest)
    | rest => (1, rest)
  let digits := rest.takeWhile Char.isDigit
  let value := sign * (Nat.ofDigitChars 10 digits 0 : Int)
  if digits ≠ [] ∧ -9223372036854775808 ≤ value ∧ value ≤ 9223372036854775807 then value else 0

/-- A result of 64-bit arithmetic. -/
def wrap (n : Int) : Int := n.bmod 18446744073709551616

def minutes (parts : List Char × List Char) : Int := wrap (wrap (sscanf parts.1 * 60) + sscanf parts.2)

/-- `nowInWindow`. -/
def nowInWindow (now : Wall) (days : List Int) (start end_ : String) : Bool :=
  if weekday (dayOf now) ∉ days then false
  else match splitTime start, splitTime end_ with
    | some startParts, some endParts =>
      let currentMinutes := minuteOfDay now
      let startMinutes := minutes startParts
      let endMinutes := minutes endParts
      if startMinutes ≤ endMinutes then currentMinutes ≥ startMinutes ∧ currentMinutes < endMinutes
      else currentMinutes ≥ startMinutes ∨ currentMinutes < endMinutes
    | _, _ => true

/-- `isWithinSchedule` at a time. -/
def isWithinSchedule (scheduleJSON : String) (now : Wall) : Bool :=
  let s := RecoveryCodes.trimSpace scheduleJSON
  if s = "" then true
  else if s.toList.head? = some '[' then
    match unmarshalWindows s.toList with
    | some [] => true
    | some windows => windows.any fun w => w.enabled && nowInWindow now w.days w.startTime w.endTime
    | none => true
  else match unmarshalConfig s.toList with
    | none => true
    | some sched =>
      if sched.days = [] ∨ sched.start = "" ∨ sched.end_ = "" then true
      else nowInWindow now sched.days sched.start sched.end_

/-! ## What the editor shows -/

/-- The text of a time input, and the minutes since midnight. -/
def HHMM (text : String) (minutes : Int) : Prop :=
  ∃ h < 24, ∃ m < 60, text = padded 2 h ++ ":" ++ padded 2 m ∧ minutes = h * 60 + m

/-- A window whose times are those of a time input. -/
structure Timed (w : ScheduleWindow) (start stop : Int) : Prop where
  start : HHMM w.startTime start
  stop : HHMM w.endTime stop

/-- The window that was opened on one of its days is still open. -/
def Contains (w : ScheduleWindow) (now : Wall) : Prop :=
  ∃ start stop, Timed w start stop ∧ ∃ day : Int, weekday day ∈ w.days ∧
    day * 1440 + start ≤ minuteOf now ∧ minuteOf now < (if start ≤ stop then day else day + 1) * 1440 + stop

/-! ## Reading times -/

private theorem two_digits : ∀ n < 60, ':' ∉ (padded 2 n).toList ∧ sscanf (padded 2 n).toList = n := by
  simp only [padded, String.toList_ofList]
  decide +kernel

theorem wrap_small {n : Int} (low : 0 ≤ n) (high : n < 2000) : wrap n = n := by
  have whole : n % ((18446744073709551616 : Nat) : Int) = n := Int.emod_eq_of_lt low (by omega)
  rw [wrap, Int.bmod, whole]
  exact if_pos (by omega)

/-- The code reads a time input as what it shows. -/
theorem minutes_HHMM {text : String} {n : Int} (shows : HHMM text n) :
    ∃ parts, splitTime text = some parts ∧ minutes parts = n ∧ 0 ≤ n ∧ n < 1440 := by
  obtain ⟨h, hourBound, m, minuteBound, rfl, rfl⟩ := shows
  obtain ⟨hourPlain, hour⟩ := two_digits h (by omega)
  obtain ⟨-, minute⟩ := two_digits m minuteBound
  have text : (padded 2 h ++ ":" ++ padded 2 m).toList = (padded 2 h).toList ++ ':' :: (padded 2 m).toList := by simp
  have before : ∀ c ∈ (padded 2 h).toList, decide (c ≠ ':') = true := by
    intro c member
    simpa using fun same : c = ':' => hourPlain (same ▸ member)
  have split : splitTime (padded 2 h ++ ":" ++ padded 2 m) = some ((padded 2 h).toList, (padded 2 m).toList) := by
    rw [splitTime, text, if_pos (List.mem_append_right _ List.mem_cons_self), List.takeWhile_append_of_pos before,
      List.dropWhile_append_of_pos before]
    simp
  refine ⟨_, split, ?_, by omega, by omega⟩
  unfold minutes
  rw [hour, minute, wrap_small (n := (h : Int) * 60) (by omega) (by omega), wrap_small (by omega) (by omega)]

theorem HHMM_unique {text : String} {n m : Int} (first : HHMM text n) (second : HHMM text m) : n = m := by
  obtain ⟨parts, split, rfl, -⟩ := minutes_HHMM first
  obtain ⟨others, again, rfl, -⟩ := minutes_HHMM second
  rw [split] at again
  rw [Option.some.inj again]

/-! ## Open windows -/

/-- The time is on a day of the window, from its start on and before its end if that is on
the same day. -/
def OpenedToday (w : ScheduleWindow) (now : Wall) : Prop :=
  ∃ start stop, Timed w start stop ∧ weekday (dayOf now) ∈ w.days ∧ start ≤ minuteOfDay now ∧ (start ≤ stop → minuteOfDay now < stop)

/-- The time is before the end of an overnight window, and the given weekday is one of its
days. -/
def BeforeEnd (w : ScheduleWindow) (now : Wall) (weekday : Int) : Prop :=
  ∃ start stop, Timed w start stop ∧ stop < start ∧ minuteOfDay now < stop ∧ weekday ∈ w.days

private theorem minute_split (now : Wall) :
    minuteOf now = dayOf now * 1440 + minuteOfDay now ∧ 0 ≤ minuteOfDay now ∧ minuteOfDay now < 1440 := by
  unfold dayOf minuteOfDay
  omega

/-- What the code asks: today's part, or the part before the end under today's weekday. -/
theorem nowInWindow_iff {w : ScheduleWindow} {start stop : Int} (timed : Timed w start stop) (now : Wall) :
    nowInWindow now w.days w.startTime w.endTime = true ↔ OpenedToday w now ∨ BeforeEnd w now (weekday (dayOf now)) := by
  obtain ⟨parts, split, opens, -⟩ := minutes_HHMM timed.start
  obtain ⟨others, splitEnd, closes, -⟩ := minutes_HHMM timed.stop
  have today : OpenedToday w now ↔ weekday (dayOf now) ∈ w.days ∧ start ≤ minuteOfDay now ∧ (start ≤ stop → minuteOfDay now < stop) := by
    constructor
    · rintro ⟨start', stop', timed', held⟩
      rwa [HHMM_unique timed'.start timed.start, HHMM_unique timed'.stop timed.stop] at held
    · exact fun held => ⟨start, stop, timed, held⟩
  have ending : BeforeEnd w now (weekday (dayOf now)) ↔ stop < start ∧ minuteOfDay now < stop ∧ weekday (dayOf now) ∈ w.days := by
    constructor
    · rintro ⟨start', stop', timed', held⟩
      rwa [HHMM_unique timed'.start timed.start, HHMM_unique timed'.stop timed.stop] at held
    · exact fun held => ⟨start, stop, timed, held⟩
  rw [today, ending, nowInWindow, split, splitEnd]
  dsimp only
  rw [opens, closes]
  by_cases selected : weekday (dayOf now) ∈ w.days
  · rw [if_neg (not_not.mpr selected)]
    split
    · rename_i ordered
      simp only [decide_eq_true_eq]
      constructor
      · exact fun ⟨late, early⟩ => .inl ⟨selected, late, fun _ => early⟩
      · rintro (⟨-, late, early⟩ | ⟨turned, -⟩)
        · exact ⟨late, early ordered⟩
        · omega
    · rename_i turned
      simp only [decide_eq_true_eq]
      constructor
      · rintro (late | early)
        · exact .inl ⟨selected, late, fun ordered => absurd ordered turned⟩
        · exact .inr ⟨by omega, early, selected⟩
      · rintro (⟨-, late, -⟩ | ⟨-, early, -⟩)
        · exact .inl late
        · exact .inr early
  · rw [if_pos selected]
    simp only [Bool.false_eq_true, selected, false_and, and_false, or_self]

/-- What the editor shows: today's part, or the part before the end under yesterday's
weekday. -/
theorem contains_iff {w : ScheduleWindow} (now : Wall) :
    Contains w now ↔ OpenedToday w now ∨ BeforeEnd w now (weekday (dayOf now - 1)) := by
  obtain ⟨whole, low, high⟩ := minute_split now
  constructor
  · rintro ⟨start, stop, timed, day, selected, opened, closed⟩
    obtain ⟨-, -, -, startLow, startHigh⟩ := minutes_HHMM timed.start
    obtain ⟨-, -, -, stopLow, stopHigh⟩ := minutes_HHMM timed.stop
    split at closed
    · have same : day = dayOf now := by omega
      subst same
      exact .inl ⟨start, stop, timed, selected, by omega, fun _ => by omega⟩
    · rename_i turned
      by_cases same : day = dayOf now
      · subst same
        exact .inl ⟨start, stop, timed, selected, by omega, fun ordered => absurd ordered turned⟩
      · have before : day = dayOf now - 1 := by omega
        subst before
        exact .inr ⟨start, stop, timed, by omega, by omega, selected⟩
  · rintro (⟨start, stop, timed, selected, opened, closed⟩ | ⟨start, stop, timed, turned, closed, selected⟩)
    · obtain ⟨-, -, -, stopLow, -⟩ := minutes_HHMM timed.stop
      refine ⟨start, stop, timed, dayOf now, selected, by omega, ?_⟩
      split
      · rename_i ordered
        have early := closed ordered
        omega
      · omega
    · obtain ⟨-, -, -, startLow, startHigh⟩ := minutes_HHMM timed.start
      refine ⟨start, stop, timed, dayOf now - 1, selected, by omega, ?_⟩
      rw [if_neg (by omega)]
      omega

/-- A schedule of windows as the editor writes it. -/
structure Edited (scheduleJSON : String) (windows : List ScheduleWindow) : Prop where
  opens : (RecoveryCodes.trimSpace scheduleJSON).toList.head? = some '['
  reads : unmarshalWindows (RecoveryCodes.trimSpace scheduleJSON).toList = some windows
  given : windows ≠ []
  timed : ∀ w ∈ windows, ∃ start stop, Timed w start stop

theorem isWithinSchedule_iff {scheduleJSON : String} {windows : List ScheduleWindow} (edited : Edited scheduleJSON windows)
    (now : Wall) : isWithinSchedule scheduleJSON now = true ↔
      ∃ w ∈ windows, w.enabled = true ∧ (OpenedToday w now ∨ BeforeEnd w now (weekday (dayOf now))) := by
  have some_text : RecoveryCodes.trimSpace scheduleJSON ≠ "" := by
    intro none
    have opens := edited.opens
    rw [none] at opens
    cases opens
  obtain ⟨first, rest, rfl⟩ := List.exists_cons_of_ne_nil edited.given
  rw [isWithinSchedule]
  simp only [some_text, if_false, edited.opens, if_true, edited.reads, List.any_eq_true, Bool.and_eq_true]
  constructor
  · rintro ⟨w, member, enabled, within⟩
    obtain ⟨start, stop, timed⟩ := edited.timed w member
    exact ⟨w, member, enabled, (nowInWindow_iff timed now).mp within⟩
  · rintro ⟨w, member, enabled, opened⟩
    obtain ⟨start, stop, timed⟩ := edited.timed w member
    exact ⟨w, member, enabled, (nowInWindow_iff timed now).mpr opened⟩

/-- A schedule means what the editor shows exactly at the times at which a window of the
day is open, or the overnight windows that have not ended include one of today exactly when
they include one of yesterday. -/
theorem schedule_shown_iff (scheduleJSON : String) (windows : List ScheduleWindow) (edited : Edited scheduleJSON windows) (now : Wall) :
    (isWithinSchedule scheduleJSON now = true ↔ ∃ w ∈ windows, w.enabled = true ∧ Contains w now) ↔
      (∃ w ∈ windows, w.enabled = true ∧ OpenedToday w now) ∨
        ((∃ w ∈ windows, w.enabled = true ∧ BeforeEnd w now (weekday (dayOf now))) ↔
          ∃ w ∈ windows, w.enabled = true ∧ BeforeEnd w now (weekday (dayOf now - 1))) := by
  simp only [isWithinSchedule_iff edited, contains_iff, and_or_left, exists_or]
  by_cases opened : ∃ w ∈ windows, w.enabled = true ∧ OpenedToday w now
  · simp only [opened, true_or]
  · simp only [opened, false_or]

private theorem dropWhile_opened {c : Char} {text : List Char} (opens : text.head? = some c) (solid : RecoveryCodes.isSpace c = false) :
    text.dropWhile RecoveryCodes.isSpace = text := by
  cases text with
  | nil => rfl
  | cons d rest =>
    obtain rfl := Option.some.inj opens
    rw [List.dropWhile_cons_of_neg (by simp [solid])]

/-- A schedule of one window on one day. -/
theorem edited_single {text start stop : String} (day : List Char) {n first last : Int} (opens : text.toList.head? = some '[')
    (closes : text.toList.reverse.head? = some ']')
    (read : readDocument text.toList = some (.array [.object [("enabled", .bool true), ("days", .array [.number day]),
      ("start_time", .string start), ("end_time", .string stop)]]))
    (digits : EventReads.atoi (String.ofList day) = some n) (timed : Timed ⟨true, [n], start, stop⟩ first last) :
    Edited text [⟨true, [n], start, stop⟩] := by
  have trimmed : (RecoveryCodes.trimSpace text).toList = text.toList := by
    rw [RecoveryCodes.trimSpace, String.toList_ofList, dropWhile_opened opens (by decide), dropWhile_opened closes (by decide),
      List.reverse_reverse]
  refine ⟨trimmed.symm ▸ opens, ?_, List.cons_ne_nil _ _, fun w member => ⟨first, last, List.mem_singleton.mp member ▸ timed⟩⟩
  rw [trimmed, unmarshalWindows, read]
  simp [decodeWindow, given, names, foldChar, decodeBool, decodeInts, ScheduleWindows.decodeElements, decodeString, decodeInt, digits]

/-- One window, on Fridays from 22:00 to 06:00. -/
private def fridayNight : String :=
  "[\x7b\"enabled\":true,\"days\":[5],\"start_time\":\"22:00\",\"end_time\":\"06:00\"\x7d]"

private def friday : ScheduleWindow := ⟨true, [5], "22:00", "06:00"⟩

private theorem friday_timed : Timed friday 1320 360 :=
  ⟨⟨22, by decide, 0, by decide, by decide, by decide⟩, ⟨6, by decide, 0, by decide, by decide, by decide⟩⟩

private theorem friday_edited : Edited fridayNight [friday] := by
  refine edited_single ['5'] ?_ ?_ ?_ (by decide) friday_timed
  -- The literal is taken apart once, and the reader runs on its characters.
  all_goals rw [show fridayNight.toList = _ from String.toList_ofList]; rfl

/-- Friday 23:00, 9 January 1970. -/
theorem friday_evening_shown : isWithinSchedule fridayNight 774000000000000 = true ↔
    ∃ w ∈ [friday], w.enabled = true ∧ Contains w 774000000000000 :=
  (schedule_shown_iff fridayNight [friday] friday_edited 774000000000000).mpr
    (.inl ⟨friday, List.mem_singleton_self friday, rfl, 1320, 360, friday_timed, by decide, by decide, by decide⟩)

/-- Saturday 02:00 belongs to the night that began on Friday, and nothing is recorded. -/
theorem saturday_night_not_recorded : Edited fridayNight [friday] ∧ Contains friday 784800000000000 ∧
    isWithinSchedule fridayNight 784800000000000 = false := by
  refine ⟨friday_edited, ⟨1320, 360, friday_timed, 8, by decide, by decide, by decide⟩, Bool.eq_false_iff.mpr fun opened => ?_⟩
  obtain ⟨w, member, -, held⟩ := (isWithinSchedule_iff friday_edited _).mp opened
  obtain rfl := List.mem_singleton.mp member
  rcases held with ⟨-, -, -, day, -⟩ | ⟨-, -, -, -, -, day⟩ <;> exact absurd day (by decide)

end Ironsight.ScheduleWindows
