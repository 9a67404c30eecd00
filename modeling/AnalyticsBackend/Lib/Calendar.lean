import Mathlib.Algebra.Order.Group.Int
import Mathlib.Tactic.Common
import Mathlib.Data.Int.ConditionallyCompleteOrder
import Mathlib.Order.ConditionallyCompleteLattice.Basic

/-!
# The proleptic Gregorian calendar in UTC

Instants are milliseconds since 1970-01-01T00:00:00Z, as in ECMAScript `Date`, but
without its range limit. A month is numbered `12 * year + month` with `month` from 0 to
11, so month arithmetic needs no carry; `monthStart` is the first day of a month and
`monthOf` its inverse. The getters and setters follow the abstract operations `Day`,
`MakeDay` and `MakeDate` of the language specification.
-/

namespace AnalyticsBackend.Lib.Calendar

def msPerDay : Int := 86400000

/-- `Day(t)`. -/
def day (t : Int) : Int := t / msPerDay

/-- `TimeWithinDay(t)`. -/
def timeInDay (t : Int) : Int := t % msPerDay

/-- `MakeDate(day, time)`. -/
def makeDate (d time : Int) : Int := d * msPerDay + time

/-- The first day of month `k`. Years are counted from March, so that the leap day comes
last and the month lengths follow `(153 * m + 2) / 5`. -/
def monthStart (k : Int) : Int :=
  let j := k - 2
  let y := j / 12
  let m := j % 12
  365 * y + y / 4 - y / 100 + y / 400 + (153 * m + 2) / 5 - 719468

/-- The month a day lies in: an estimate from the mean month of 146097 / 4800 days,
which is off by one month at most. -/
def monthOf (d : Int) : Int :=
  let k := (d + 719468) * 4800 / 146097 + 2
  if d < monthStart k then k - 1
  else if monthStart (k + 1) ≤ d then k + 1
  else k

theorem monthStart_succ (k : Int) :
    monthStart k + 28 ≤ monthStart (k + 1) ∧ monthStart (k + 1) ≤ monthStart k + 31 := by
  unfold monthStart
  dsimp only
  rcases (by omega : (k - 2) % 12 < 11 ∨ (k - 2) % 12 = 11) with inside | last
  · have year : (k + 1 - 2) / 12 = (k - 2) / 12 := by omega
    have month : (k + 1 - 2) % 12 = (k - 2) % 12 + 1 := by omega
    rw [year, month]
    omega
  · -- February: the year number moves on, and the leap rule decides 28 or 29
    have year : (k + 1 - 2) / 12 = (k - 2) / 12 + 1 := by omega
    have month : (k + 1 - 2) % 12 = 0 := by omega
    rw [year, month, last]
    generalize (k - 2) / 12 = y
    omega

theorem monthStart_strictMono : StrictMono monthStart := by
  apply strictMono_int_of_lt_succ
  intro k
  have := (monthStart_succ k).1
  omega

/-- The mean month is never off by more than one month. -/
theorem monthStart_mean (k : Int) :
    4800 * (monthStart k + 719468) ≤ 146097 * (k - 2) + 146097 ∧
      146097 * (k - 2) - 146097 ≤ 4800 * (monthStart k + 719468) := by
  unfold monthStart
  dsimp only
  omega

theorem monthOf_spec (d : Int) :
    monthStart (monthOf d) ≤ d ∧ d < monthStart (monthOf d + 1) := by
  unfold monthOf
  dsimp only
  generalize hk : (d + 719468) * 4800 / 146097 + 2 = k
  have below := (monthStart_mean (k - 1)).1
  have above := (monthStart_mean (k + 2)).2
  split
  case isTrue h =>
    refine ⟨by omega, ?_⟩
    rwa [Int.sub_add_cancel]
  case isFalse h =>
    split
    case isTrue h' =>
      refine ⟨h', ?_⟩
      rw [show k + 1 + 1 = k + 2 by omega]
      omega
    case isFalse h' => exact ⟨by omega, by omega⟩

theorem monthOf_eq {d k : Int} (lower : monthStart k ≤ d) (upper : d < monthStart (k + 1)) :
    monthOf d = k := by
  have spec := monthOf_spec d
  have h1 : monthOf d < k + 1 :=
    monthStart_strictMono.lt_iff_lt.mp (lt_of_le_of_lt spec.1 upper)
  have h2 : k < monthOf d + 1 :=
    monthStart_strictMono.lt_iff_lt.mp (lt_of_le_of_lt lower spec.2)
  omega

/-! ## Getters and setters of `Date` -/

def getUTCFullYear (t : Int) : Int := monthOf (day t) / 12

/-- From 0 (January) to 11. -/
def getUTCMonth (t : Int) : Int := monthOf (day t) % 12

/-- The day of the month, from 1. -/
def getUTCDate (t : Int) : Int := day t - monthStart (monthOf (day t)) + 1

/-- `MakeDay(year, month, date)`: months and days outside their range carry over. -/
def makeDay (year month date : Int) : Int := monthStart (12 * year + month) + date - 1

def setUTCDate (t : Int) (date : Int) : Int :=
  makeDate (makeDay (getUTCFullYear t) (getUTCMonth t) date) (timeInDay t)

def setUTCMonth (t : Int) (month : Int) : Int :=
  makeDate (makeDay (getUTCFullYear t) month (getUTCDate t)) (timeInDay t)

/-- `Date.UTC(year, month, date)`, which reads the years 0 to 99 as 1900 to 1999. -/
def dateUTC (year month date : Int) : Int :=
  makeDate (makeDay (if 0 ≤ year ∧ year ≤ 99 then 1900 + year else year) month date) 0

@[simp] theorem day_makeDate (d t : Int) : day (makeDate d (timeInDay t)) = d := by
  unfold day makeDate timeInDay msPerDay
  omega

@[simp] theorem timeInDay_makeDate (d t : Int) :
    timeInDay (makeDate d (timeInDay t)) = timeInDay t := by
  unfold makeDate timeInDay msPerDay
  omega

theorem getUTCDate_pos (t : Int) : 1 ≤ getUTCDate t := by
  have := (monthOf_spec (day t)).1
  unfold getUTCDate
  omega

@[simp] theorem day_setUTCDate (t : Int) (date : Int) :
    day (setUTCDate t date) = monthStart (monthOf (day t)) + date - 1 := by
  unfold setUTCDate makeDay getUTCFullYear getUTCMonth
  rw [day_makeDate, Int.mul_ediv_add_emod]

@[simp] theorem timeInDay_setUTCDate (t : Int) (date : Int) :
    timeInDay (setUTCDate t date) = timeInDay t := timeInDay_makeDate _ _

/-- Adding months keeps the day of the month when the month is addressed from its first
day. -/
@[simp] theorem day_setUTCMonth_add (t : Int) (months : Int) :
    day (setUTCMonth t (getUTCMonth t + months)) =
      monthStart (monthOf (day t) + months) + getUTCDate t - 1 := by
  unfold setUTCMonth makeDay getUTCFullYear getUTCMonth
  rw [day_makeDate, ← Int.add_assoc, Int.mul_ediv_add_emod]

@[simp] theorem timeInDay_setUTCMonth (t : Int) (month : Int) :
    timeInDay (setUTCMonth t month) = timeInDay t := timeInDay_makeDate _ _

@[simp] theorem monthOf_monthStart (k : Int) : monthOf (monthStart k) = k :=
  monthOf_eq (le_refl _) (monthStart_strictMono (by omega))

/-- Instants with the same time of day are ordered as their days. -/
theorem lt_of_day_lt {s t : Int} (time : timeInDay s = timeInDay t) (h : day s < day t) :
    s < t := by
  unfold timeInDay day msPerDay at *
  omega

example : getUTCDate 0 = 1 ∧ getUTCFullYear 951782400000 = 2000 ∧
    getUTCMonth 951782400000 = 1 ∧ getUTCDate 951782400000 = 29 := by decide

end AnalyticsBackend.Lib.Calendar
