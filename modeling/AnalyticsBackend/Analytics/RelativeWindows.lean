import AnalyticsBackend.Analytics.Days

/-!
# Relative windows

Where the windows of the presets lie, for every zone. A zone is its offset from UTC as a function of
time; midnight is skipped or shown twice where the offset jumps.
-/

namespace AnalyticsBackend.Analytics

open Lib Lib.Calendar

/-! ## Zones -/

/-- An offset from UTC, in whole seconds and of less than a day. In any two days it jumps at most once,
by three hours at most. -/
structure ZoneOffset where
  offset : Int → Int
  whole : ∀ t, offset t % 1000 = 0
  bounded : ∀ t, -msPerDay < offset t ∧ offset t < msPerDay
  jumps : ∀ a, (∃ jump, ∀ t, a ≤ t → t < a + 2 * msPerDay →
      offset t = if t < jump then offset a else offset (a + 2 * msPerDay - 1)) ∧
    offset (a + 2 * msPerDay - 1) - offset a ≤ 10800000 ∧
    offset a - offset (a + 2 * msPerDay - 1) ≤ 10800000

namespace ZoneOffset

variable (z : ZoneOffset)

/-- What the clock shows, as the instant at which UTC shows it. -/
def shown (t : Int) : Int := t + z.offset t

/-- The fields of the wall clock. The years before year 1 are counted from 1 in their own era. -/
def parts (t : Int) : ZonedParts :=
  let x := z.shown t
  { year := if 1 ≤ getUTCFullYear x then getUTCFullYear x else 1 - getUTCFullYear x
    month := getUTCMonth x + 1, day := getUTCDate x, hour := timeInDay x / 3600000
    minute := timeInDay x / 60000 % 60, second := timeInDay x / 1000 % 60 }

/-- The only jump in the two days from an instant, with the offsets before and after it. -/
structure JumpsAt (a jump before after : Int) : Prop where
  offset : ∀ t, a ≤ t → t < a + 2 * msPerDay → z.offset t = if t < jump then before else after
  inside : before ≠ after → a < jump ∧ jump < a + 2 * msPerDay
  boundedBefore : -msPerDay < before ∧ before < msPerDay
  boundedAfter : -msPerDay < after ∧ after < msPerDay
  small : after - before ≤ 10800000 ∧ before - after ≤ 10800000

theorem exists_jump (a : Int) : ∃ jump before after, z.JumpsAt a jump before after := by
  obtain ⟨⟨jump, piecewise⟩, forward, backward⟩ := z.jumps a
  refine ⟨jump, z.offset a, z.offset (a + 2 * msPerDay - 1), piecewise, fun differ => ?_,
    z.bounded _, z.bounded _, forward, backward⟩
  have first := piecewise a (by omega) (by unfold msPerDay; omega)
  have last := piecewise (a + 2 * msPerDay - 1) (by unfold msPerDay; omega) (by omega)
  constructor
  · by_contra early
    rw [if_neg (by omega)] at first
    exact differ first
  · by_contra late
    rw [if_pos (by omega)] at last
    exact differ last.symm

theorem offset_near {a s t : Int} (s₀ : a ≤ s) (s₁ : s < a + 2 * msPerDay) (t₀ : a ≤ t)
    (t₁ : t < a + 2 * msPerDay) : z.offset s - z.offset t ≤ 10800000 := by
  obtain ⟨jump, before, after, at'⟩ := z.exists_jump a
  have small := at'.small
  rw [at'.offset s s₀ s₁, at'.offset t t₀ t₁]
  split <;> split <;> omega

end ZoneOffset

/-- The runtime shows the wall clock of a zone. -/
def Shows (zones : Zones) (tz : String) (z : ZoneOffset) : Prop := ∀ t, zones.parts tz t = z.parts t

/-! ## The clock as it is read -/

section Clock

variable {zones : Zones} {tz : String} {z : ZoneOffset}

theorem offsetAt_eq (shows : Shows zones tz z) {t : Int} (late : midnight century ≤ z.shown t) :
    offsetAt zones tz t = z.offset t := by
  have lateDay : century ≤ day (z.shown t) := by
    unfold day midnight msPerDay at *
    omega
  have year : 100 ≤ getUTCFullYear (z.shown t) := by
    have := (year_dateOfDay (day (z.shown t)) 100).mpr lateDay
    rwa [dateOf_day] at this
  have date := dateUTC_dateOfDay lateDay
  rw [dateOf_day, midnight_day] at date
  have whole := z.whole t
  unfold offsetAt utcOf
  rw [shows t]
  simp only [ZoneOffset.parts, if_pos (show 1 ≤ getUTCFullYear (z.shown t) by omega)]
  change dateUTC (dateOf (z.shown t)).year ((dateOf (z.shown t)).month - 1) (dateOf (z.shown t)).day +
    _ + _ + _ + _ - _ = _
  rw [date]
  unfold timeInDay ZoneOffset.shown msPerDay
  omega

theorem offsetAt_early (shows : Shows zones tz z) {t : Int} (first : midnight (monthStart 12) ≤ z.shown t)
    (early : z.shown t < midnight century) : z.offset t + midnight 693000 ≤ offsetAt zones tz t := by
  have days : monthStart 12 ≤ day (z.shown t) ∧ day (z.shown t) < century := by
    unfold day midnight msPerDay at *
    omega
  have year : 1 ≤ getUTCFullYear (z.shown t) := by
    have := (year_dateOfDay (day (z.shown t)) 1).mpr days.1
    rwa [dateOf_day] at this
  have early : getUTCFullYear (z.shown t) ≤ 99 := by
    have := (year_dateOfDay (day (z.shown t)) 100).not.mpr (by unfold century at days; omega)
    rw [dateOf_day] at this
    change ¬ 100 ≤ getUTCFullYear (z.shown t) at this
    omega
  have date := makeDay_dateOfDay (day (z.shown t))
  rw [dateOf_day] at date
  have later := monthStart_1900 (12 * getUTCFullYear (z.shown t) + ((dateOf (z.shown t)).month - 1))
  have whole := z.whole t
  unfold offsetAt utcOf
  rw [shows t]
  simp only [ZoneOffset.parts, if_pos year]
  change _ ≤ dateUTC (getUTCFullYear (z.shown t)) ((dateOf (z.shown t)).month - 1)
    (dateOf (z.shown t)).day + _ + _ + _ + _ - _
  change makeDay (getUTCFullYear (z.shown t)) _ _ = _ at date
  unfold dateUTC makeDay makeDate at *
  rw [if_pos (by omega), show 12 * (1900 + getUTCFullYear (z.shown t)) +
    ((dateOf (z.shown t)).month - 1) = 12 * getUTCFullYear (z.shown t) +
      ((dateOf (z.shown t)).month - 1) + 22800 by omega]
  unfold timeInDay ZoneOffset.shown day midnight msPerDay at *
  omega

theorem offsetAt_ge (shows : Shows zones tz z) (t : Int) :
    midnight (monthStart 12) - t ≤ offsetAt zones tz t := by
  have year : 1 ≤ (z.parts t).year := by
    simp only [ZoneOffset.parts]
    split <;> omega
  have month : 0 ≤ (z.parts t).month - 1 := by
    simp only [ZoneOffset.parts, getUTCMonth]
    omega
  have date := dateUTC_ge year month (getUTCDate_pos (z.shown t))
  unfold offsetAt utcOf
  rw [shows t]
  change _ ≤ dateUTC (z.parts t).year ((z.parts t).month - 1) (getUTCDate (z.shown t)) + _ + _ + _ + _ - _
  simp only [ZoneOffset.parts] at date ⊢
  unfold timeInDay msPerDay
  omega

/-! ## Midnight -/

abbrev startOf (zones : Zones) (tz : String) (n : Int) : Int :=
  zonedTimeToUtc zones (dateOfDay n).start tz

theorem zonedTimeToUtc_or (zones : Zones) (w : WallTime) (tz : String) :
    zonedTimeToUtc zones w tz = utcOf w - offsetAt zones tz (utcOf w) ∨
      zonedTimeToUtc zones w tz =
        utcOf w - offsetAt zones tz (utcOf w - offsetAt zones tz (utcOf w)) := by
  unfold zonedTimeToUtc
  dsimp only
  split
  · exact .inl rfl
  · split <;> omega

theorem shows_midnight (shows : Shows zones tz z) {t : Int}
    (first : midnight (monthStart 12) ≤ z.shown t) (n : Int) :
    ((zones.parts tz t).year == (dateOfDay n).year && (zones.parts tz t).month == (dateOfDay n).month &&
      (zones.parts tz t).day == (dateOfDay n).day && (zones.parts tz t).hour == 0 &&
      (zones.parts tz t).minute == 0) =
        decide (midnight n ≤ z.shown t ∧ z.shown t < midnight n + 60000) := by
  have year : 1 ≤ getUTCFullYear (z.shown t) := by
    have := (year_dateOfDay (day (z.shown t)) 1).mpr
      (by rw [Int.mul_one]; unfold day midnight msPerDay at *; omega)
    rwa [dateOf_day] at this
  have sameDay : (dateOf (z.shown t)).year = (dateOfDay n).year ∧
      (dateOf (z.shown t)).month = (dateOfDay n).month ∧ (dateOf (z.shown t)).day = (dateOfDay n).day ↔
        day (z.shown t) = n := by
    constructor
    · rintro ⟨year, month, date⟩
      have left := makeDay_dateOfDay (day (z.shown t))
      rw [dateOf_day, year, month, date, makeDay_dateOfDay] at left
      exact left.symm
    · rintro rfl
      simp
  rw [shows t, Bool.eq_iff_iff]
  simp only [Bool.and_eq_true, beq_iff_eq, decide_eq_true_eq, ZoneOffset.parts, if_pos year]
  constructor
  · rintro ⟨⟨⟨⟨year, month⟩, date⟩, hour⟩, minute⟩
    have same := sameDay.mp ⟨year, month, date⟩
    unfold day timeInDay midnight msPerDay at *
    omega
  · intro within
    obtain ⟨year, month, date⟩ := sameDay.mpr (by unfold day midnight msPerDay at *; omega)
    refine ⟨⟨⟨⟨year, month⟩, date⟩, ?_⟩, ?_⟩ <;>
    · unfold day timeInDay midnight msPerDay at *
      omega

/-- Where a wall time is looked up, the clock shows years from 100 on. -/
structure ReadsLate (z : ZoneOffset) (m : Int) : Prop where
  guess : midnight century ≤ z.shown m
  candidate : midnight century ≤ z.shown (m - z.offset m)

theorem ReadsLate.of_le {m : Int} (late : midnight century + msPerDay ≤ m) : ReadsLate z m := by
  have ⟨bounded, bounded'⟩ := z.bounded m
  have near := z.offset_near (a := m - msPerDay) (s := m) (t := m - z.offset m) (by omega) (by omega)
    (by omega) (by omega)
  constructor <;>
  · unfold ZoneOffset.shown msPerDay at *
    omega

theorem ReadsLate.of_lt {n : Int} (late : century < n) : ReadsLate z (midnight n) :=
  .of_le (by unfold midnight msPerDay; omega)

theorem startOf_eq (shows : Shows zones tz z) {n jump before after : Int} (late : century ≤ n)
    (reads : ReadsLate z (midnight n))
    (at' : z.JumpsAt (midnight n - msPerDay) jump before after) :
    startOf zones tz n =
      if jump + after ≤ midnight n ∧ (jump ≤ midnight n ∨ jump + before ≤ midnight n) then
        midnight n - after
      else midnight n - before := by
  have guess := utcOf_dateOfDay late
  have boundedBefore := at'.boundedBefore
  have boundedAfter := at'.boundedAfter
  have small := at'.small
  have early : midnight (monthStart 12) + 3 * msPerDay ≤ midnight century := by decide
  have lateMidnight : midnight century ≤ midnight n := by unfold midnight msPerDay; omega
  have offsets (t : Int) (from' : midnight n - msPerDay ≤ t)
      (until' : t < midnight n + msPerDay) : z.offset t = if t < jump then before else after :=
    at'.offset t from' (by omega)
  have read := offsetAt_eq shows reads.guess
  have read' := offsetAt_eq shows reads.candidate
  have bounded := z.bounded (midnight n)
  have bounded' := z.bounded (midnight n - z.offset (midnight n))
  have far (t : Int) (from' : midnight n - msPerDay ≤ t) : midnight (monthStart 12) ≤ z.shown t := by
    have := z.bounded t
    unfold ZoneOffset.shown
    omega
  have candidate := shows_midnight shows (far (midnight n - z.offset (midnight n)) (by omega)) n
  have other := shows_midnight shows
    (far (midnight n - z.offset (midnight n - z.offset (midnight n))) (by omega)) n
  unfold startOf zonedTimeToUtc
  simp only [guess, read, read']
  dsimp only [CalendarDate.start]
  rw [candidate, other]
  by_cases guessEarly : midnight n < jump
  · have atGuess : z.offset (midnight n) = before := by
      rw [offsets _ (by omega) (by omega), if_pos guessEarly]
    rw [atGuess] at *
    by_cases candidateEarly : midnight n - before < jump
    · have atCandidate : z.offset (midnight n - before) = before := by
        rw [offsets _ (by omega) (by omega), if_pos candidateEarly]
      rw [atCandidate, if_pos rfl, if_neg (by omega)]
    · have atCandidate : z.offset (midnight n - before) = after := by
        rw [offsets _ (by omega) (by omega), if_neg candidateEarly]
      have atOther := offsets (midnight n - after) (by omega) (by omega)
      simp only [ZoneOffset.shown, atCandidate, atOther]
      clear * - guessEarly candidateEarly
      split
      · omega
      · split <;> rename_i shown shown' <;>
          simp only [decide_eq_true_eq, decide_eq_false_iff_not] at shown shown' <;>
          split at shown' <;> omega
  · have atGuess : z.offset (midnight n) = after := by
      rw [offsets _ (by omega) (by omega), if_neg guessEarly]
    rw [atGuess] at *
    by_cases candidateEarly : midnight n - after < jump
    · have atCandidate : z.offset (midnight n - after) = before := by
        rw [offsets _ (by omega) (by omega), if_pos candidateEarly]
      have atOther := offsets (midnight n - before) (by omega) (by omega)
      simp only [ZoneOffset.shown, atCandidate, atOther]
      clear * - guessEarly candidateEarly
      split
      · omega
      · split <;> rename_i shown shown' <;>
          simp only [decide_eq_true_eq, decide_eq_false_iff_not] at shown shown' <;>
          split at shown' <;> omega
    · have atCandidate : z.offset (midnight n - after) = after := by
        rw [offsets _ (by omega) (by omega), if_neg candidateEarly]
      rw [atCandidate, if_pos rfl, if_pos (by omega)]

theorem zonedTimeToUtc_near (shows : Shows zones tz z) {w : WallTime} (reads : ReadsLate z (utcOf w)) :
    ∃ t, utcOf w - msPerDay < t ∧ t < utcOf w + msPerDay ∧
      zonedTimeToUtc zones w tz = utcOf w - z.offset t := by
  have ⟨bounded, bounded'⟩ := z.bounded (utcOf w)
  have read := offsetAt_eq shows reads.guess
  have read' := offsetAt_eq shows reads.candidate
  rcases zonedTimeToUtc_or zones w tz with is | is
  · exact ⟨utcOf w, by unfold msPerDay; omega, by unfold msPerDay; omega, by rw [is, read]⟩
  · exact ⟨utcOf w - z.offset (utcOf w), by omega, by omega, by rw [is, read, read']⟩

/-! ## When midnight is put past the present -/

/-- A jump before `t` went over midnight, which the clock without the jump would not show by `t`. -/
def Skipped (z : ZoneOffset) (m t : Int) : Prop :=
  ∃ jump, jump ≤ t ∧ t + z.offset (jump - 1) < m ∧ m < jump + z.offset jump

/-- At `t` the clock shows midnight or later, and a jump after `t` sets it back to midnight or before.
The jump is no later than midnight is shown by UTC. -/
def ShownAgain (z : ZoneOffset) (m t : Int) : Prop :=
  ∃ jump, t < jump ∧ m ≤ t + z.offset (jump - 1) ∧ jump + z.offset jump ≤ m ∧ jump ≤ m

/-- A jump before `t` set the clock back from past midnight, which it does not show again by `t`. The
jump is later than midnight is shown by UTC. -/
def ShownBefore (z : ZoneOffset) (m t : Int) : Prop :=
  ∃ jump, jump ≤ t ∧ m < jump + z.offset (jump - 1) ∧ t + z.offset jump < m ∧ m < jump

theorem ZoneOffset.JumpsAt.unique {a jump before after : Int} (at' : z.JumpsAt a jump before after)
    {j : Int} (from' : a < j) (until' : j < a + 2 * msPerDay)
    (jumps : z.offset (j - 1) ≠ z.offset j) :
    j = jump ∧ z.offset (j - 1) = before ∧ z.offset j = after := by
  have left := at'.offset (j - 1) (by omega) (by omega)
  have right := at'.offset j (by omega) until'
  split at left <;> split at right <;> omega

theorem ZoneOffset.JumpsAt.around {a jump before after : Int} (at' : z.JumpsAt a jump before after)
    (differ : before ≠ after) : z.offset (jump - 1) = before ∧ z.offset jump = after := by
  obtain ⟨from', until'⟩ := at'.inside differ
  rw [at'.offset _ (by omega) (by omega), at'.offset _ (by omega) until', if_pos (by omega),
    if_neg (by omega)]
  exact ⟨rfl, rfl⟩

section Near

variable {m t jump before after : Int} (at' : z.JumpsAt (m - msPerDay) jump before after)
include at'

theorem skipped_iff (until' : t < m + msPerDay) :
    Skipped z m t ↔ jump ≤ t ∧ t + before < m ∧ m < jump + after := by
  constructor
  · rintro ⟨jump', past, notYet, begun⟩
    have bounded := z.bounded jump'
    obtain ⟨rfl, rfl, rfl⟩ := at'.unique (j := jump') (by omega) (by omega) (by omega)
    exact ⟨past, notYet, begun⟩
  · rintro ⟨past, notYet, begun⟩
    obtain ⟨left, right⟩ := at'.around (by omega)
    exact ⟨jump, past, by rwa [left], by rwa [right]⟩

theorem shownAgain_iff (from' : m - msPerDay < t) :
    ShownAgain z m t ↔ t < jump ∧ m ≤ t + before ∧ jump + after ≤ m ∧ jump ≤ m := by
  constructor
  · rintro ⟨jump', ahead, shown, back, early⟩
    obtain ⟨rfl, rfl, rfl⟩ := at'.unique (j := jump') (by omega)
      (by unfold msPerDay; omega) (by omega)
    exact ⟨ahead, shown, back, early⟩
  · rintro ⟨ahead, shown, back, early⟩
    obtain ⟨left, right⟩ := at'.around (by omega)
    exact ⟨jump, ahead, by rwa [left], by rwa [right], early⟩

theorem shownBefore_iff (until' : t < m + msPerDay) :
    ShownBefore z m t ↔ jump ≤ t ∧ m < jump + before ∧ t + after < m ∧ m < jump := by
  constructor
  · rintro ⟨jump', past, shown, back, late⟩
    obtain ⟨rfl, rfl, rfl⟩ := at'.unique (j := jump') (by unfold msPerDay; omega) (by omega)
      (by omega)
    exact ⟨past, shown, back, late⟩
  · rintro ⟨past, shown, back, late⟩
    obtain ⟨left, right⟩ := at'.around (by omega)
    exact ⟨jump, past, by rwa [left], by rwa [right], late⟩

end Near

/-! ## The first and the last day of a window -/

theorem shown_day {t n : Int} (on : day (z.shown t) = n) :
    midnight n ≤ t + z.offset t ∧ t + z.offset t < midnight n + msPerDay ∧
      midnight n - msPerDay < t ∧ t < midnight n + 2 * msPerDay := by
  have bounded := z.bounded t
  unfold day midnight ZoneOffset.shown msPerDay at *
  omega

theorem startOf_le_iff (shows : Shows zones tz z) {n t : Int} (late : century ≤ n)
    (reads : ReadsLate z (midnight n)) (on : day (z.shown t) = n) :
    startOf zones tz n ≤ t ↔ ¬ Skipped z (midnight n) t ∧ ¬ ShownAgain z (midnight n) t := by
  obtain ⟨jump, before, after, at'⟩ := z.exists_jump (midnight n - msPerDay)
  obtain ⟨shown, _, from', _⟩ := shown_day on
  have boundedBefore := at'.boundedBefore
  have boundedAfter := at'.boundedAfter
  rw [startOf_eq shows late reads at', shownAgain_iff at' from']
  by_cases near : t < midnight n + msPerDay
  · have offset := at'.offset t (by omega) (by omega)
    rw [skipped_iff at' near]
    split at offset <;> split <;> omega
  · have notSkipped : ¬ Skipped z (midnight n) t := by
      rintro ⟨jump', past, notYet, begun⟩
      have bounded := z.bounded (jump' - 1)
      omega
    simp only [notSkipped, not_false_eq_true, true_and]
    split <;> omega

theorem lt_startOf_iff (shows : Shows zones tz z) {n t : Int} (late : century < n)
    (on : day (z.shown t) = n - 1) :
    t < startOf zones tz n ↔ ¬ ShownBefore z (midnight n) t := by
  obtain ⟨jump, before, after, at'⟩ := z.exists_jump (midnight n - msPerDay)
  obtain ⟨shown, shown', from', until'⟩ := shown_day on
  have previous : midnight (n - 1) = midnight n - msPerDay := by unfold midnight msPerDay; omega
  have boundedBefore := at'.boundedBefore
  have boundedAfter := at'.boundedAfter
  have reads := ReadsLate.of_lt (z := z) late
  rw [previous] at shown shown' from' until'
  rw [startOf_eq shows (by omega) reads at', shownBefore_iff at' (by omega)]
  by_cases near : midnight n - msPerDay ≤ t
  · have offset := at'.offset t near (by omega)
    split at offset <;> split <;> omega
  · split <;> omega

theorem startOf_le_of_lt (shows : Shows zones tz z) {n t : Int} (late : century ≤ n)
    (reads : ReadsLate z (midnight n)) (before : n < day (z.shown t)) : startOf zones tz n ≤ t := by
  have guess := utcOf_dateOfDay late
  obtain ⟨s, from', until', start⟩ := zonedTimeToUtc_near shows (w := (dateOfDay n).start)
    (by rwa [guess])
  obtain ⟨shown, _, lower, _⟩ := shown_day (z := z) (t := t) rfl
  have days : midnight n + msPerDay ≤ midnight (day (z.shown t)) := by unfold midnight msPerDay; omega
  have bounded := z.bounded s
  rw [guess] at from' until' start
  rw [startOf, start]
  by_cases near : t < midnight n + msPerDay
  · have close := z.offset_near (a := midnight n - msPerDay) (s := t) (t := s) (by omega) (by omega)
      (by omega) (by omega)
    unfold msPerDay at *
    omega
  · omega

/-- A window that ends after the day after the one that the clock shows ends after that instant. -/
theorem lt_startOf_of_lt (shows : Shows zones tz z) {n t : Int} (late : century ≤ day (z.shown t))
    (after : day (z.shown t) + 1 < n) : t < startOf zones tz n := by
  have guess := utcOf_dateOfDay (show century ≤ n by omega)
  obtain ⟨s, from', until', start⟩ := zonedTimeToUtc_near shows (w := (dateOfDay n).start)
    (by rw [guess]; exact .of_lt (by omega))
  obtain ⟨_, shown, _, upper⟩ := shown_day (z := z) (t := t) rfl
  have days : midnight (day (z.shown t)) + 2 * msPerDay ≤ midnight n := by
    unfold midnight msPerDay; omega
  have bounded := z.bounded s
  rw [guess] at from' until' start
  rw [startOf, start]
  by_cases near : midnight n - msPerDay ≤ t
  · have close := z.offset_near (a := midnight n - msPerDay) (s := s) (t := t) (by omega) (by omega)
      (by omega) (by omega)
    unfold msPerDay at *
    omega
  · omega

theorem startOf_century_le (shows : Shows zones tz z) {t : Int} (late : century ≤ day (z.shown t))
    (reads : ¬ ReadsLate z (midnight century)) : startOf zones tz century ≤ t := by
  have guess := utcOf_dateOfDay (le_refl century)
  obtain ⟨shown, _, lower, _⟩ := shown_day (z := z) (t := t) rfl
  have days : midnight century ≤ midnight (day (z.shown t)) := by unfold midnight msPerDay; omega
  have ⟨bounded, bounded'⟩ := z.bounded (midnight century)
  have ends : midnight (monthStart 12) + 3 * msPerDay ≤ midnight century ∧
      midnight century ≤ midnight (monthStart 12) + 40000 * msPerDay := by decide
  have far : midnight 693000 = 693000 * msPerDay := rfl
  have either := zonedTimeToUtc_or zones (dateOfDay century).start tz
  rw [guess] at either
  by_cases read : midnight century ≤ z.shown (midnight century)
  · -- Only the candidate is looked up in the year 99: it is before the jump, and its offset is too late.
    have notRead : ¬ midnight century ≤ z.shown (midnight century - z.offset (midnight century)) :=
      fun read' => reads ⟨read, read'⟩
    rw [offsetAt_eq shows read] at either
    have again := offsetAt_early shows
      (t := midnight century - z.offset (midnight century)) (by
        have := z.bounded (midnight century - z.offset (midnight century))
        unfold ZoneOffset.shown
        omega) (by omega)
    obtain ⟨jump, before, after, at'⟩ := z.exists_jump (midnight century - msPerDay)
    have small := at'.small
    have atGuess := at'.offset (midnight century) (by unfold msPerDay; omega) (by unfold msPerDay; omega)
    have atCandidate := at'.offset (midnight century - z.offset (midnight century)) (by omega) (by omega)
    have earlier : midnight century - z.offset (midnight century) ≤ t := by
      by_contra past
      have atT := at'.offset t (by omega) (by unfold ZoneOffset.shown at read; omega)
      unfold ZoneOffset.shown at read notRead
      split at atGuess <;> split at atCandidate <;> split at atT <;> omega
    have bounded' := z.bounded (midnight century - z.offset (midnight century))
    unfold startOf msPerDay at *
    omega
  · -- Both offsets are read many years too late.
    have first := offsetAt_early shows (t := midnight century)
      (by unfold ZoneOffset.shown; omega) (by omega)
    have second := offsetAt_ge shows (midnight century - offsetAt zones tz (midnight century))
    unfold startOf msPerDay at *
    omega

/-! ## Windows -/

/-- The period around a day that a preset names: its first day, and the day after its last. -/
def DatePreset.period (preset : DatePreset) (d : Int) : Option (Int × Int) :=
  let quarter := monthOf d - monthOf d % 3
  let year := 12 * (monthOf d / 12)
  match preset with
  | .today => some (d, d + 1)
  | .last7Days => some (d - 6, d + 1)
  | .last30Days => some (d - 29, d + 1)
  | .thisMonth => some (monthStart (monthOf d), monthStart (monthOf d + 1))
  | .thisQuarter => some (monthStart quarter, monthStart (quarter + 3))
  | .thisYear => some (monthStart year, monthStart (year + 12))
  | _ => none

theorem DatePreset.period_around {preset : DatePreset} {d first after : Int}
    (is : preset.period d = some (first, after)) : first ≤ d ∧ d + 1 ≤ after := by
  have spec := monthOf_spec d
  have mono := monthStart_strictMono.monotone
  cases preset with
  | thisMonth =>
      obtain ⟨rfl, rfl⟩ := Prod.mk.inj (Option.some.inj is)
      omega
  | thisQuarter =>
      obtain ⟨rfl, rfl⟩ := Prod.mk.inj (Option.some.inj is)
      have lower := mono (show monthOf d - monthOf d % 3 ≤ monthOf d by omega)
      have upper := mono (show monthOf d + 1 ≤ monthOf d - monthOf d % 3 + 3 by omega)
      omega
  | thisYear =>
      obtain ⟨rfl, rfl⟩ := Prod.mk.inj (Option.some.inj is)
      have lower := mono (show 12 * (monthOf d / 12) ≤ monthOf d by omega)
      have upper := mono (show monthOf d + 1 ≤ 12 * (monthOf d / 12) + 12 by omega)
      omega
  | today | last7Days | last30Days =>
      obtain ⟨rfl, rfl⟩ := Prod.mk.inj (Option.some.inj is)
      omega
  | _ => exact nomatch is

theorem DatePreset.period_late {preset : DatePreset} {d first after : Int}
    (is : preset.period d = some (first, after)) (late : century ≤ d) :
    century ≤ first ∨ d - 29 ≤ first := by
  have mono := monthStart_strictMono.monotone
  have lateMonth : 1200 ≤ monthOf d := by
    have year := (year_dateOfDay d 100).mpr late
    change 100 ≤ monthOf (day (midnight d)) / 12 at year
    rw [day_midnight] at year
    omega
  cases preset with
  | thisMonth =>
      obtain ⟨rfl, rfl⟩ := Prod.mk.inj (Option.some.inj is)
      have lower : century ≤ _ := mono lateMonth
      omega
  | thisQuarter =>
      obtain ⟨rfl, rfl⟩ := Prod.mk.inj (Option.some.inj is)
      have lower : century ≤ _ := mono (show 1200 ≤ monthOf d - monthOf d % 3 by omega)
      omega
  | thisYear =>
      obtain ⟨rfl, rfl⟩ := Prod.mk.inj (Option.some.inj is)
      have lower : century ≤ _ := mono (show 1200 ≤ 12 * (monthOf d / 12) by omega)
      omega
  | today | last7Days | last30Days =>
      obtain ⟨rfl, rfl⟩ := Prod.mk.inj (Option.some.inj is)
      omega
  | _ => exact nomatch is

/-- A window contains an instant. -/
def Window.Covers (w : Window) (t : Int) : Prop :=
  ∃ fromDate toDate, w.fromDate = some fromDate ∧ w.toDate = some toDate ∧ fromDate ≤ t ∧ t ≤ toDate

/-- A window ends where another starts. -/
def Window.Adjacent (w next : Window) : Prop :=
  ∃ toDate, w.toDate = some toDate ∧ next.fromDate = some (toDate + 1)

theorem today_eq (shows : Shows zones tz z) {t : Int} (first : monthStart 12 ≤ day (z.shown t)) :
    ({ year := (zones.parts tz t).year, month := (zones.parts tz t).month
       day := (zones.parts tz t).day } : CalendarDate) = dateOfDay (day (z.shown t)) := by
  have year : 1 ≤ getUTCFullYear (z.shown t) := by
    have := (year_dateOfDay (day (z.shown t)) 1).mpr (by rwa [Int.mul_one])
    rwa [dateOf_day] at this
  rw [shows t, dateOf_day]
  simp only [ZoneOffset.parts, if_pos year]
  rfl

section Resolve

variable {timezone : String} {range : DateRange} {now : Int}
  (shows : Shows zones (normalizeTimeZone zones timezone) z)
include shows

theorem resolveDateRange_period {preset : DatePreset} (is : range.preset = some preset)
    {first after : Int} (period : preset.period (day (z.shown now)) = some (first, after))
    (late : century ≤ day (z.shown now)) :
    (resolveDateRange zones range timezone now).fromDate =
        some (startOf zones (normalizeTimeZone zones timezone) first) ∧
      (resolveDateRange zones range timezone now).toDate =
        some (startOf zones (normalizeTimeZone zones timezone) after - 1) := by
  have today := today_eq shows (t := now) (le_trans (by decide) late)
  generalize day (z.shown now) = d at *
  have lateMonth : 1200 ≤ monthOf d := by
    have year := (year_dateOfDay d 100).mpr late
    rw [dateOfDay_eq] at year
    dsimp only at year
    omega
  have year : (zones.parts (normalizeTimeZone zones timezone) now).year = monthOf d / 12 := by
    have := congrArg CalendarDate.year today
    rwa [dateOfDay_eq] at this
  have month : (zones.parts (normalizeTimeZone zones timezone) now).month = monthOf d % 12 + 1 := by
    have := congrArg CalendarDate.month today
    rwa [dateOfDay_eq] at this
  have months (k : Int) : ({ year := k / 12, month := k % 12 + 1, day := 1 } : CalendarDate) =
      dateOfDay (monthStart k) := (dateOfDay_monthStart k).symm
  unfold resolveDateRange
  simp only [is]
  cases preset with
  | today =>
      obtain ⟨rfl, rfl⟩ := Prod.mk.inj (Option.some.inj period)
      dsimp only
      rw [today, addCalendarDays_dateOfDay late]
      exact ⟨rfl, rfl⟩
  | last7Days =>
      obtain ⟨rfl, rfl⟩ := Prod.mk.inj (Option.some.inj period)
      dsimp only
      rw [today, addCalendarDays_dateOfDay late, addCalendarDays_dateOfDay late,
        show d + -6 = d - 6 by omega]
      exact ⟨rfl, rfl⟩
  | last30Days =>
      obtain ⟨rfl, rfl⟩ := Prod.mk.inj (Option.some.inj period)
      dsimp only
      rw [today, addCalendarDays_dateOfDay late, addCalendarDays_dateOfDay late,
        show d + -29 = d - 29 by omega]
      exact ⟨rfl, rfl⟩
  | thisMonth =>
      obtain ⟨rfl, rfl⟩ := Prod.mk.inj (Option.some.inj period)
      simp only [year, month]
      rw [addCalendarMonths_eq lateMonth, months]
      exact ⟨rfl, rfl⟩
  | thisQuarter =>
      obtain ⟨rfl, rfl⟩ := Prod.mk.inj (Option.some.inj period)
      have quarter : 1200 ≤ monthOf d - monthOf d % 3 := by omega
      have sameYear : monthOf d / 12 = (monthOf d - monthOf d % 3) / 12 := by omega
      have sameMonth : monthOf d % 12 + 1 - (monthOf d % 12 + 1 - 1) % 3 =
          (monthOf d - monthOf d % 3) % 12 + 1 := by omega
      simp only [year, month]
      rw [sameMonth, sameYear, addCalendarMonths_eq quarter, months]
      exact ⟨rfl, rfl⟩
  | thisYear =>
      obtain ⟨rfl, rfl⟩ := Prod.mk.inj (Option.some.inj period)
      have first := months (12 * (monthOf d / 12))
      have next := months (12 * (monthOf d / 12) + 12)
      rw [show 12 * (monthOf d / 12) / 12 = monthOf d / 12 by omega,
        show 12 * (monthOf d / 12) % 12 + 1 = 1 by omega] at first
      rw [show (12 * (monthOf d / 12) + 12) / 12 = monthOf d / 12 + 1 by omega,
        show (12 * (monthOf d / 12) + 12) % 12 + 1 = 1 by omega] at next
      simp only [year]
      rw [first, next]
      exact ⟨rfl, rfl⟩
  | _ => exact nomatch period

theorem not_covers_of_late {c : CalendarDate} (late : midnight century + msPerDay ≤ utcOf c.start)
    (past : now + msPerDay ≤ utcOf c.start) {w : Window}
    (start : w.fromDate = some (zonedTimeToUtc zones c.start (normalizeTimeZone zones timezone))) :
    ¬ w.Covers now := by
  rintro ⟨fromDate, toDate, is, -, lower, -⟩
  obtain ⟨t, _, _, near⟩ := zonedTimeToUtc_near shows (.of_le late)
  have bounded := z.bounded t
  rw [start] at is
  have same := Option.some.inj is
  omega

theorem not_covers_of_early {preset : DatePreset} (is : range.preset = some preset)
    {first after : Int} (period : preset.period (day (z.shown now)) = some (first, after))
    (present : midnight century ≤ now) (early : first < century) :
    ¬ (resolveDateRange zones range timezone now).Covers now := by
  have bounded := z.bounded now
  obtain ⟨_, _, _, upper⟩ := shown_day (z := z) (t := now) rfl
  by_cases late : century ≤ day (z.shown now)
  · have near := DatePreset.period_late period late
    have guess := utcOf_dateOfDay_early (n := first)
      (le_trans (show monthStart 12 ≤ century - 29 by decide) (by omega)) early
    refine not_covers_of_late shows ?_ ?_ (resolveDateRange_period shows is period late).1 <;>
    · unfold midnight msPerDay at *
      omega
  · have last : day (z.shown now) = century - 1 := by
      unfold day ZoneOffset.shown midnight msPerDay at *
      omega
    have today := today_eq shows (t := now) (by rw [last]; decide)
    rw [last, show dateOfDay (century - 1) = { year := 99, month := 12, day := 31 } by decide] at today
    obtain ⟨year, month, date⟩ := CalendarDate.mk.inj today
    have past (c : CalendarDate) (far : midnight (century + 600000) ≤ utcOf c.start)
        (start : (resolveDateRange zones range timezone now).fromDate =
          some (zonedTimeToUtc zones c.start (normalizeTimeZone zones timezone))) :
        ¬ (resolveDateRange zones range timezone now).Covers now := by
      refine not_covers_of_late shows ?_ ?_ start <;>
      · unfold midnight msPerDay at *
        omega
    unfold resolveDateRange at past ⊢
    simp only [is, year, month, date] at past ⊢
    cases preset with
    | today => exact past ⟨99, 12, 31⟩ (by decide) rfl
    | last7Days => exact past (addCalendarDays ⟨99, 12, 31⟩ (-6)) (by decide) rfl
    | last30Days => exact past (addCalendarDays ⟨99, 12, 31⟩ (-29)) (by decide) rfl
    | thisMonth => exact past ⟨99, 12, 1⟩ (by decide) rfl
    | thisQuarter => exact past ⟨99, 10, 1⟩ (by decide) rfl
    | thisYear => exact past ⟨99, 1, 1⟩ (by decide) rfl
    | _ => exact nomatch period

/-- When the window of a period covers the present. It starts in the year 100 or later. Where it starts
on the day that the clock shows, no jump puts midnight past the present; where it ends with that day,
no jump puts the next midnight before it. -/
structure Kept (z : ZoneOffset) (now first after : Int) : Prop where
  late : century ≤ first
  start : first = day (z.shown now) → ReadsLate z (midnight first) →
    ¬ Skipped z (midnight first) now ∧ ¬ ShownAgain z (midnight first) now
  stop : after = day (z.shown now) + 1 → ¬ ShownBefore z (midnight after) now

/-- A window from the year 100 on covers the present where the jumps of the clock let it. -/
theorem covers_iff {preset : DatePreset} (is : range.preset = some preset)
    {first after : Int} (period : preset.period (day (z.shown now)) = some (first, after))
    (late : century ≤ first) :
    (resolveDateRange zones range timezone now).Covers now ↔ Kept z now first after := by
  obtain ⟨lower, upper⟩ := DatePreset.period_around period
  have today : century ≤ day (z.shown now) := le_trans late lower
  obtain ⟨fromDate, toDate⟩ := resolveDateRange_period shows is period today
  have covers : (resolveDateRange zones range timezone now).Covers now ↔
      startOf zones (normalizeTimeZone zones timezone) first ≤ now ∧
        now < startOf zones (normalizeTimeZone zones timezone) after := by
    unfold Window.Covers
    rw [fromDate, toDate]
    constructor
    · rintro ⟨a, b, fromIs, toIs, start, stop⟩
      have := Option.some.inj fromIs
      have := Option.some.inj toIs
      omega
    · rintro ⟨start, stop⟩
      exact ⟨_, _, rfl, rfl, start, by omega⟩
  have starts : startOf zones (normalizeTimeZone zones timezone) first ≤ now ↔
      (first = day (z.shown now) → ReadsLate z (midnight first) →
        ¬ Skipped z (midnight first) now ∧ ¬ ShownAgain z (midnight first) now) := by
    by_cases reads : ReadsLate z (midnight first)
    · by_cases same : first = day (z.shown now)
      · rw [startOf_le_iff shows late reads same.symm]
        exact ⟨fun kept _ _ => kept, fun kept => kept same reads⟩
      · exact ⟨fun _ is => absurd is same, fun _ => startOf_le_of_lt shows late reads (by omega)⟩
    · have onCentury : first = century := by
        by_contra other
        exact reads (.of_lt (by omega))
      subst onCentury
      exact ⟨fun _ _ read => absurd read reads, fun _ => startOf_century_le shows today reads⟩
  have stops : now < startOf zones (normalizeTimeZone zones timezone) after ↔
      (after = day (z.shown now) + 1 → ¬ ShownBefore z (midnight after) now) := by
    by_cases same : after = day (z.shown now) + 1
    · rw [lt_startOf_iff shows (by omega) (by omega)]
      exact ⟨fun kept _ => kept, fun kept => kept same⟩
    · exact ⟨fun _ is => absurd is same, fun _ => lt_startOf_of_lt shows today (by omega)⟩
  rw [covers, starts, stops]
  exact ⟨fun ⟨start, stop⟩ => ⟨late, start, stop⟩, fun kept => ⟨kept.start, kept.stop⟩⟩

end Resolve

/-- The presets whose windows tile the past. -/
def TILES : List (DatePreset × DatePreset) :=
  [(.yesterday, .today), (.lastMonth, .thisMonth), (.previousMonth, .thisMonth),
    (.lastQuarter, .thisQuarter), (.lastYear, .thisYear)]

theorem adjacent_of_tiles {p : DatePreset × DatePreset} (mem : p ∈ TILES) (range : DateRange)
    (timezone : String) (now : Int) :
    (resolveDateRange zones { range with preset := some p.1 } timezone now).Adjacent
      (resolveDateRange zones { range with preset := some p.2 } timezone now) := by
  have meet {w next : Window} {t : Int} (stop : w.toDate = some (t - 1)) (start : next.fromDate = some t) :
      w.Adjacent next := ⟨t - 1, stop, by rw [start, Int.sub_add_cancel]⟩
  simp only [TILES, List.mem_cons, List.not_mem_nil, or_false] at mem
  rcases mem with rfl | rfl | rfl | rfl | rfl <;> exact meet rfl rfl

end Clock

/-- From the year 100 on, the window of a preset covers the present exactly where the jumps of the clock
let it, and the windows of the past tile it: for every zone. -/
theorem relative_windows_cover {zones : Zones} {timezone : String} {z : ZoneOffset}
    (shows : Shows zones (normalizeTimeZone zones timezone) z) {now : Int}
    (present : 100 ≤ getUTCFullYear now) (range : DateRange) :
    (∀ preset first after, preset.period (day (z.shown now)) = some (first, after) →
      ((resolveDateRange zones { range with preset := some preset } timezone now).Covers now ↔
        Kept z now first after)) ∧
      ∀ p ∈ TILES, (resolveDateRange zones { range with preset := some p.1 } timezone now).Adjacent
        (resolveDateRange zones { range with preset := some p.2 } timezone now) := by
  have late : midnight century ≤ now := by
    have days := (year_dateOfDay (day now) 100).mp (by rwa [dateOf_day])
    change century ≤ day now at days
    unfold day midnight msPerDay at *
    omega
  refine ⟨fun preset first after period => ?_, fun p mem => adjacent_of_tiles mem range timezone now⟩
  by_cases early : first < century
  · refine iff_of_false (not_covers_of_early shows rfl period late early) fun kept => ?_
    exact absurd kept.late (by omega)
  · exact covers_iff shows rfl period (by omega)

namespace Amman

/-- On 2021-10-29 at 01:00 the clock goes back to 00:00: two hours east of UTC instead of three. -/
def amman : ZoneOffset where
  offset t := if t < 1635458400000 then 10800000 else 7200000
  whole t := by split <;> rfl
  bounded t := by split <;> decide
  jumps a := by
    refine ⟨⟨1635458400000, fun t from' until' => ?_⟩, ?_⟩
    · unfold msPerDay at *
      split <;> split <;> omega
    · unfold msPerDay
      split <;> split <;> omega

def zones : Zones where
  known _ := true
  spelling name := name
  parts _ t := amman.parts t

def today : DateRange where
  field := "createdAt"
  preset := some .today
  fromText := none
  toText := none

/-- 00:30, before the clock goes back. -/
def early : Int := 1635456600000

/-- 00:00, when the clock has gone back. -/
def again : Int := 1635458400000

end Amman

open Amman in
/-- The window of today starts where midnight is shown for the second time, and the present may be
before it. -/
theorem midnight_shown_twice : ¬ ∀ (zones : Zones) (timezone : String) (z : ZoneOffset) (now : Int)
    (range : DateRange), Shows zones (normalizeTimeZone zones timezone) z →
      100 ≤ getUTCFullYear now → getUTCFullYear now ≤ 9998 →
      (∀ preset ∈ [DatePreset.today, .thisMonth, .thisQuarter, .thisYear, .last7Days, .last30Days],
        (resolveDateRange zones { range with preset := some preset } timezone now).Covers now) ∧
      ∀ p ∈ TILES, (resolveDateRange zones { range with preset := some p.1 } timezone now).Adjacent
        (resolveDateRange zones { range with preset := some p.2 } timezone now) := by
  intro all
  have covers := (all zones "Asia/Amman" amman early today (fun _ => rfl) (by decide) (by decide)).1
    .today (List.mem_cons_self ..)
  obtain ⟨fromDate, toDate, is, -, lower, -⟩ := covers
  have start : (resolveDateRange zones today "Asia/Amman" early).fromDate = some again := by
    decide +kernel
  have same := Option.some.inj (is.symm.trans start)
  exact absurd lower (by rw [same]; decide)

open Amman in
/-- When the clock shows midnight again, the window of today covers it. -/
theorem relative_windows_cover_again :
    (resolveDateRange zones today "Asia/Amman" again).Covers again := by
  have shows : Shows zones (normalizeTimeZone zones "Asia/Amman") amman := fun _ => rfl
  have present : 100 ≤ getUTCFullYear again := by decide
  have covers := (relative_windows_cover shows present today).1 .today 18929 18930 (by decide)
  refine covers.mpr ⟨by decide, fun _ _ => ⟨?_, ?_⟩, fun _ => ?_⟩
  · rintro ⟨jump, past, notYet, begun⟩
    simp only [amman, again, midnight, msPerDay] at *
    split at notYet <;> omega
  · rintro ⟨jump, ahead, shown, back, early⟩
    simp only [amman, again, midnight, msPerDay] at *
    split at back <;> omega
  · rintro ⟨jump, past, shown, back, late⟩
    simp only [amman, again, midnight, msPerDay] at *
    split at shown <;> omega

end AnalyticsBackend.Analytics
