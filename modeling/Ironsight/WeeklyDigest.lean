import Ironsight.Rfc3339

/-! The weeks that the weekly digests report on. The scheduler takes the week before
the one of its send day and the compliance queries take both ends of a period as part
of it, so the period is made to end one second before the next one begins. Instants
are nanoseconds since the Unix epoch. -/
namespace Ironsight.WeeklyDigest
open Calendar Rfc3339

def second : Int := 1000000000

def hour : Int := 3600 * second

def day : Int := 86400 * second

/-! ## The scheduler's calendar -/

/-- The UTC day of an instant, counted from 1 January 1970. -/
def dayOf (t : Int) : Int := t / day

/-- `Weekday` of a day, Sunday being 0. -/
def weekday (n : Int) : Int := (n + 4) % 7

/-- `time.Date(…, time.UTC)`; days outside the month carry over. -/
def timeDate (year : Int) (month : Nat) (dayOfMonth : Int) (clock : Int) : Int :=
  (dayNumber year month 1 + (dayOfMonth - 1)) * day + clock

/-- `AddDate(0, 0, days)` of a time in UTC. -/
def addDays (t : Int) (days : Int) : Int :=
  let (year, month, dayOfMonth) := date (dayOf t)
  timeDate year month (dayOfMonth + days) (t % day)

/-- `weekStart`. -/
def weekStart (t : Int) : Int :=
  let weekday := if weekday (dayOf t) = 0 then 7 else weekday (dayOf t)
  let daysToMonday := weekday - 1
  let mon := addDays t (-daysToMonday)
  let (year, month, dayOfMonth) := date (dayOf mon)
  timeDate year month dayOfMonth 0

/-- `DigestSendDay` and `DigestSendHour`, which `clampWeekday` and `clampHour` keep
within their ranges. -/
structure Config where
  digestSendDay : Fin 7
  digestSendHour : Fin 24
  deriving DecidableEq

/-- The two tests at the head of `check`. -/
def due (cfg : Config) (now : Int) : Prop :=
  weekday (dayOf now) = cfg.digestSendDay ∧ now % day / hour = cfg.digestSendHour

instance (cfg : Config) (now : Int) : Decidable (due cfg now) := inferInstanceAs (Decidable (_ ∧ _))

/-- `periodStart` and `periodEnd`. -/
def period (now : Int) : Int × Int := (addDays (weekStart now) (-7), weekStart now - second)

/-! ## The compliance headline -/

inductive ReviewStatus where
  | pending
  | reviewedCompliant
  | reviewedViolation
  | dismissed
  deriving DecidableEq

/-- A row of `pending_review_queue`: the columns that the headline reads. -/
structure ReviewRow where
  organizationId : String
  siteId : Option String := none
  status : ReviewStatus := .pending
  createdAt : Int
  deriving DecidableEq

/-- `ComplianceFilter`, without the bucket size. -/
structure ComplianceFilter where
  orgId : String
  siteId : Option String := none
  start : Int
  stop : Int
  deriving DecidableEq

/-- The `WHERE` clause; `BETWEEN` includes both ends. -/
def ComplianceFilter.selects (f : ComplianceFilter) (row : ReviewRow) : Prop :=
  row.organizationId = f.orgId ∧ (f.start ≤ row.createdAt ∧ row.createdAt ≤ f.stop) ∧
    ∀ site ∈ f.siteId, row.siteId = some site

instance (f : ComplianceFilter) (row : ReviewRow) : Decidable (f.selects row) := inferInstanceAs (Decidable (_ ∧ _ ∧ _))

/-- `ComplianceHeadlineMetrics`. -/
structure ComplianceHeadlineMetrics where
  totalViolations : Nat
  totalReviewed : Nat
  pendingCount : Nat
  deriving DecidableEq

/-- `GetComplianceHeadline`. -/
def getComplianceHeadline (rows : List ReviewRow) (f : ComplianceFilter) : Except String ComplianceHeadlineMetrics :=
  if f.orgId = "" then .error "GetComplianceHeadline: org_id is required"
  else
    let selected := rows.filter fun row => f.selects row
    .ok {
      totalViolations := selected.countP fun row => row.status = .reviewedViolation
      totalReviewed := selected.countP fun row => row.status ≠ .pending
      pendingCount := selected.countP fun row => row.status = .pending }

/-- The filter with which `runWeeklyDigestForOrg` is run at that time. -/
def digestFilter (orgId : String) (now : Int) : ComplianceFilter :=
  { orgId, start := (period now).1, stop := (period now).2 }

/-! ## Weeks -/

private theorem dayNumber_day (year : Int) (month dayOfMonth : Nat) :
    dayNumber year month 1 + (dayOfMonth - 1) = dayNumber year month dayOfMonth := by
  simp only [dayNumber]
  omega

private theorem timeDate_date (n days : Int) (clock : Int) :
    timeDate (date n).1 (date n).2.1 ((date n).2.2 + days) clock = (n + days) * day + clock := by
  have number := (dayNumber_day (date n).1 (date n).2.1 (date n).2.2).trans (dayNumber_date n)
  have carried : dayNumber (date n).1 (date n).2.1 1 + ((date n).2.2 + days - 1) = n + days := by omega
  rw [timeDate, carried]

/-- In UTC a day has the same length all the year round. -/
theorem addDays_eq (t : Int) (days : Int) : addDays t days = t + days * day := by
  have whole := Int.mul_ediv_add_emod t day
  have step : addDays t days = (dayOf t + days) * day + t % day := timeDate_date (dayOf t) days (t % day)
  rw [step, dayOf, Int.add_mul, Int.mul_comm (t / day)]
  omega

/-- The Monday of the week of a day. -/
def monday (n : Int) : Int := n - (n + 3) % 7

theorem weekStart_eq (t : Int) : weekStart t = monday (dayOf t) * day := by
  have offset : (if weekday (dayOf t) = 0 then 7 else weekday (dayOf t)) - 1 = (dayOf t + 3) % 7 := by
    unfold weekday
    by_cases sunday : (dayOf t + 4) % 7 = 0
    · rw [if_pos sunday]
      omega
    · rw [if_neg sunday]
      omega
  have back : dayOf (addDays t (-((dayOf t + 3) % 7))) = monday (dayOf t) := by
    rw [addDays_eq, dayOf, Int.add_mul_ediv_right _ _ (by decide)]
    rfl
  have start : weekStart t = timeDate (date (monday (dayOf t))).1 (date (monday (dayOf t))).2.1
      ((date (monday (dayOf t))).2.2 + 0) 0 := by
    simp only [weekStart, offset, back, Int.add_zero]
  rw [start, timeDate_date]
  simp

/-- `weekStart` is a Monday, 00:00 UTC, at most and less than a week before. -/
theorem weekStart_spec (t : Int) : weekday (dayOf (weekStart t)) = 1 ∧ weekStart t % day = 0 ∧
    weekStart t ≤ t ∧ t < weekStart t + 7 * day := by
  have same : dayOf (weekStart t) = monday (dayOf t) := by
    rw [weekStart_eq, dayOf, Int.mul_ediv_cancel _ (by decide)]
  refine ⟨?_, ?_, ?_, ?_⟩
  · rw [same]
    simp only [weekday, monday]
    omega
  · rw [weekStart_eq, Int.mul_emod_left]
  · rw [weekStart_eq]
    simp only [monday, dayOf, day, second]
    omega
  · rw [weekStart_eq]
    simp only [monday, dayOf, day, second]
    omega

/-- The digest of a send day covers the week before its own, less the last second. -/
theorem digestFilter_selects {row : ReviewRow} {now : Int} :
    (digestFilter row.organizationId now).selects row ↔
      (monday (dayOf now) - 7) * day ≤ row.createdAt ∧ row.createdAt ≤ monday (dayOf now) * day - second := by
  have bounds : period now = ((monday (dayOf now) - 7) * day, monday (dayOf now) * day - second) := by
    rw [period, addDays_eq, weekStart_eq, Int.sub_mul]
    rfl
  simp [ComplianceFilter.selects, digestFilter, bounds]

/-! ## Tiling -/

/-- The digest of that send day of the row's organisation counts the row. -/
def ReportedOn (cfg : Config) (row : ReviewRow) (n : Int) : Prop :=
  ∃ now, dayOf now = n ∧ due cfg now ∧ (digestFilter row.organizationId now).selects row

/-- The day on which the digests about the week of a day are sent. -/
def sendDay (cfg : Config) (n : Int) : Int := monday n + 7 + (cfg.digestSendDay + 6) % 7

private theorem reportedOn_iff {cfg : Config} {row : ReviewRow} {n : Int} : ReportedOn cfg row n ↔
    n = sendDay cfg (dayOf row.createdAt) ∧ row.createdAt ≤ weekStart row.createdAt + 7 * day - second := by
  have within_ := cfg.digestSendDay.isLt
  have hours := cfg.digestSendHour.isLt
  constructor
  · rintro ⟨now, rfl, ⟨onDay, _⟩, counted⟩
    rw [digestFilter_selects] at counted
    rw [weekStart_eq]
    simp only [weekday, monday, sendDay, day, second] at *
    generalize dayOf now = n at *
    simp only [dayOf, day, second] at *
    omega
  · rintro ⟨rfl, early⟩
    rw [weekStart_eq] at early
    have onDay : dayOf (sendDay cfg (dayOf row.createdAt) * day + cfg.digestSendHour * hour) =
        sendDay cfg (dayOf row.createdAt) := by
      generalize sendDay cfg (dayOf row.createdAt) = n
      simp only [dayOf, day, hour, second]
      omega
    refine ⟨sendDay cfg (dayOf row.createdAt) * day + cfg.digestSendHour * hour, onDay, ⟨?_, ?_⟩, ?_⟩
    · rw [onDay]
      simp only [weekday, sendDay, monday]
      omega
    · generalize sendDay cfg (dayOf row.createdAt) = n
      simp only [day, hour, second]
      omega
    · rw [digestFilter_selects, onDay]
      simp only [sendDay, monday, dayOf, day, second] at early ⊢
      omega

/-- The digests of one organisation tile time at this row: it is reported on by the
digest of exactly one send day, and its week is the one it lies in. -/
def Tiles (cfg : Config) (row : ReviewRow) : Prop :=
  (∃! n, ReportedOn cfg row n) ∧ weekday (dayOf (weekStart row.createdAt)) = 1 ∧ weekStart row.createdAt % day = 0 ∧
    weekStart row.createdAt ≤ row.createdAt ∧ row.createdAt < weekStart row.createdAt + 7 * day

/-- Every row is reported on once, except those of the last second of a week that are
not of its very beginning: no digest reports on them. -/
theorem tiles_iff (cfg : Config) (row : ReviewRow) :
    Tiles cfg row ↔ row.createdAt ≤ weekStart row.createdAt + 7 * day - second := by
  constructor
  · rintro ⟨⟨n, reported, _⟩, _⟩
    exact (reportedOn_iff.mp reported).2
  · intro early
    refine ⟨⟨_, reportedOn_iff.mpr ⟨rfl, early⟩, ?_⟩, weekStart_spec row.createdAt⟩
    intro n reported
    exact (reportedOn_iff.mp reported).1

/-- A violation of Sunday, 15 June 2025, half a second before midnight. -/
private def lateViolation : ReviewRow := { organizationId := "org-a", createdAt := 1750031999500000000 }

/-- Neither the digest of 16 June nor any other reports on it. -/
theorem late_violation_unreported : ¬ Tiles ⟨1, 13⟩ lateViolation ∧ ∀ n, ¬ ReportedOn ⟨1, 13⟩ lateViolation n := by
  have late : ¬ lateViolation.createdAt ≤ weekStart lateViolation.createdAt + 7 * day - second := by decide +kernel
  have unreported (n : Int) : ¬ ReportedOn ⟨1, 13⟩ lateViolation n := fun reported => late (reportedOn_iff.mp reported).2
  exact ⟨fun ⟨⟨n, reported, _⟩, _⟩ => unreported n reported, unreported⟩

end Ironsight.WeeklyDigest
