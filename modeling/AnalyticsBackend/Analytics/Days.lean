import AnalyticsBackend.Analytics.BusinessTime

/-!
# Days

Calendar dates by the number of their day, and what `Date.UTC` makes of them.
-/

namespace AnalyticsBackend.Analytics

open Lib Lib.Calendar

/-- The start of a day, as the instant at which UTC shows it. -/
def midnight (n : Int) : Int := n * msPerDay

def dateOfDay (n : Int) : CalendarDate := dateOf (midnight n)

/-- The first day of the year 100: `Date.UTC` reads the years before it as 1900 to 1999. -/
def century : Int := monthStart (12 * 100)

@[simp] theorem day_midnight (n : Int) : day (midnight n) = n := by
  unfold day midnight msPerDay
  omega

theorem midnight_day (t : Int) : midnight (day t) = t - timeInDay t := by
  unfold midnight day timeInDay msPerDay
  omega

theorem dateOf_eq {s t : Int} (same : day s = day t) : dateOf s = dateOf t := by
  unfold dateOf getUTCFullYear getUTCMonth getUTCDate
  rw [same]

@[simp] theorem dateOf_day (t : Int) : dateOfDay (day t) = dateOf t :=
  dateOf_eq (day_midnight _)

theorem dateOfDay_monthStart (k : Int) :
    dateOfDay (monthStart k) = { year := k / 12, month := k % 12 + 1, day := 1 } := by
  simp [dateOfDay, dateOf, getUTCFullYear, getUTCMonth, getUTCDate]

theorem dateOfDay_eq (d : Int) : dateOfDay d =
    { year := monthOf d / 12, month := monthOf d % 12 + 1, day := d - monthStart (monthOf d) + 1 } := by
  simp [dateOfDay, dateOf, getUTCFullYear, getUTCMonth, getUTCDate]

theorem year_dateOfDay (n : Int) (y : Int) :
    y ≤ (dateOfDay n).year ↔ monthStart (12 * y) ≤ n := by
  have spec := monthOf_spec n
  change y ≤ monthOf (day (midnight n)) / 12 ↔ _
  rw [day_midnight]
  constructor
  · intro le
    have := monthStart_strictMono.monotone (show 12 * y ≤ monthOf n by omega)
    omega
  · intro le
    have := monthStart_strictMono.lt_iff_lt.mp (lt_of_le_of_lt le spec.2)
    omega

theorem makeDay_dateOfDay (n : Int) :
    makeDay (dateOfDay n).year ((dateOfDay n).month - 1) (dateOfDay n).day = n := by
  change makeDay (monthOf (day (midnight n)) / 12) (monthOf (day (midnight n)) % 12 + 1 - 1)
    (day (midnight n) - monthStart (monthOf (day (midnight n))) + 1) = n
  unfold makeDay
  rw [day_midnight, Int.add_sub_cancel, Int.mul_ediv_add_emod]
  omega

theorem dateUTC_dateOfDay {n : Int} (late : century ≤ n) :
    dateUTC (dateOfDay n).year ((dateOfDay n).month - 1) (dateOfDay n).day = midnight n := by
  have year := (year_dateOfDay n 100).mpr late
  unfold dateUTC midnight makeDate
  rw [if_neg (by omega), makeDay_dateOfDay]
  omega

theorem utcOf_dateOfDay {n : Int} (late : century ≤ n) : utcOf (dateOfDay n).start = midnight n := by
  have same := dateUTC_dateOfDay late
  unfold utcOf CalendarDate.start
  dsimp only
  omega

theorem monthStart_1900 (k : Int) : monthStart k + 693000 ≤ monthStart (k + 22800) := by
  unfold monthStart
  dsimp only
  have year : (k + 22800 - 2) / 12 = (k - 2) / 12 + 1900 := by omega
  have month : (k + 22800 - 2) % 12 = (k - 2) % 12 := by omega
  rw [year, month]
  generalize (k - 2) / 12 = y
  omega

theorem utcOf_dateOfDay_early {n : Int} (first : monthStart 12 ≤ n) (early : n < century) :
    midnight (n + 693000) ≤ utcOf (dateOfDay n).start := by
  have year := (year_dateOfDay n 1).mpr (by rwa [Int.mul_one])
  have notLate := (year_dateOfDay n 100).not.mpr (by unfold century at early; omega)
  have same := makeDay_dateOfDay n
  have later := monthStart_1900 (12 * (dateOfDay n).year + ((dateOfDay n).month - 1))
  unfold utcOf dateUTC CalendarDate.start makeDay makeDate midnight msPerDay at *
  dsimp only
  rw [if_pos (by omega), show 12 * (1900 + (dateOfDay n).year) + ((dateOfDay n).month - 1) =
    12 * (dateOfDay n).year + ((dateOfDay n).month - 1) + 22800 by omega]
  omega

theorem dateUTC_ge {year month date : Int} (y : 1 ≤ year) (m : 0 ≤ month) (d : 1 ≤ date) :
    midnight (monthStart 12) ≤ dateUTC year month date := by
  have first : monthStart 12 ≤ monthStart (12 * (if 0 ≤ year ∧ year ≤ 99 then 1900 + year else year) +
      month) := monthStart_strictMono.monotone (by split <;> omega)
  unfold dateUTC makeDay makeDate midnight msPerDay
  omega

theorem addCalendarDays_dateOfDay {d : Int} (late : century ≤ d) (n : Int) :
    addCalendarDays (dateOfDay d) n = dateOfDay (d + n) := by
  have date := dateUTC_dateOfDay late
  have sum : dateUTC (dateOfDay d).year ((dateOfDay d).month - 1) ((dateOfDay d).day + n) =
      midnight (d + n) := by
    unfold dateUTC makeDay makeDate midnight msPerDay at *
    omega
  rw [addCalendarDays, sum]
  rfl

theorem addCalendarMonths_eq {k : Int} (late : 1200 ≤ k) (n : Int) :
    addCalendarMonths (k / 12) (k % 12 + 1) n = dateOfDay (monthStart (k + n)) := by
  have sum : dateUTC (k / 12) (k % 12 + 1 - 1 + n) 1 = midnight (monthStart (k + n)) := by
    unfold dateUTC makeDay makeDate midnight msPerDay
    rw [if_neg (by omega), show 12 * (k / 12) + (k % 12 + 1 - 1 + n) = k + n by omega]
    omega
  unfold addCalendarMonths
  rw [sum, show dateOf (midnight (monthStart (k + n))) = dateOfDay (monthStart (k + n)) from rfl,
    dateOfDay_monthStart]

end AnalyticsBackend.Analytics
