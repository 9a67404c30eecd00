import AnalyticsBackend.Reports.CronSearch

/-!
# The next fire

The instants at which an expression fires in a zone, and when a projection is the next of them.
-/

namespace AnalyticsBackend.Reports
open Lib Lib.Calendar Analytics

/-- The instants at which an expression fires: the first at which the clock shows a matching minute. -/
def FireInstants (spec : CronSpec) (z : ZoneOffset) : Set Int :=
  { t | ∃ x, spec.Matches x ∧ IsLeast (z.showing x) t }

/-- `s` is the first of them after `t`. -/
def NextFire (spec : CronSpec) (z : ZoneOffset) (t s : Int) : Prop :=
  IsLeast { u | u ∈ FireInstants spec z ∧ t < u } s

/-- `s` is on one of the days that a search from `t` looks at. -/
def InHorizon (z : ZoneOffset) (t s : Int) : Prop :=
  day (z.shown s) ≤ day (z.shown t) + SEARCH_DAYS

/-- A matching minute that the search starts with has been shown by `t`, is shown again after it, and
the offset read for its first guess is the later one. -/
def ShownOnceMore (spec : CronSpec) (z : ZoneOffset) (t : Int) : Prop :=
  ∃ x first second, spec.Matches x ∧ ReadsLate z x ∧ z.shown t < x + 60000 ∧ first ≤ t ∧ t < second ∧
    z.shown first = x ∧ z.shown second = x ∧ z.offset x = z.offset second

/-- A projection at `t` finds that `s` is next. -/
structure Foreseen (spec : CronSpec) (z : ZoneOffset) (t s : Int) : Prop where
  present : century ≤ day (z.shown t)
  reads : ReadsLate z (z.shown s)
  guess : ¬LateGuess z (z.shown s)
  past : ¬ShownOnceMore spec z t

/-! ## Where the search starts -/

section Start

variable {z : ZoneOffset} {t : Int}

theorem searchStart_eq (late : century ≤ day (z.shown t)) :
    searchDay z t = day (z.shown t) ∧ searchStart z t = z.shown t / 60000 * 60000 := by
  have year : 1 ≤ getUTCFullYear (z.shown t) := by
    have := (year_dateOfDay (day (z.shown t)) 1).mpr
      (le_trans (show monthStart (12 * 1) ≤ century by decide) late)
    rwa [dateOf_day] at this
  have date := dateUTC_dateOfDay late
  rw [dateOf_day] at date
  have same : searchDay z t = day (z.shown t) := by
    unfold searchDay
    simp only [ZoneOffset.parts, if_pos year]
    change day (dateUTC (dateOf (z.shown t)).year ((dateOf (z.shown t)).month - 1)
      (dateOf (z.shown t)).day) = _
    rw [date, day_midnight]
  refine ⟨same, ?_⟩
  unfold searchStart
  rw [same, midnight_day]
  unfold timeInDay msPerDay
  omega

theorem monthStart_199 (k : Int) : monthStart k + 72000 ≤ monthStart (k + 2388) := by
  unfold monthStart
  dsimp only
  have year : (k + 2388 - 2) / 12 = (k - 2) / 12 + 199 := by omega
  have month : (k + 2388 - 2) % 12 = (k - 2) % 12 := by omega
  rw [year, month]
  generalize (k - 2) / 12 = y
  omega

theorem searchDay_early (early : day (z.shown t) < century) :
    century ≤ searchDay z t ∧ day (z.shown t) + 72000 ≤ searchDay z t ∧
      (day (z.shown t) < century - 590000 → century + 2 ≤ searchDay z t) := by
  have mono := monthStart_strictMono.monotone
  have whole := makeDay_dateOfDay (day (z.shown t))
  have notLate := (year_dateOfDay (day (z.shown t)) 100).not.mpr (Int.not_le.mpr early)
  have ancient := (year_dateOfDay (day (z.shown t)) (-1500)).not
  rw [dateOf_day] at whole notLate ancient
  have first := getUTCDate_pos (z.shown t)
  have months : 0 ≤ getUTCMonth (z.shown t) := by unfold getUTCMonth; omega
  unfold searchDay
  simp only [ZoneOffset.parts]
  simp only [dateOf] at whole notLate ancient
  generalize day (z.shown t) = d at *
  generalize getUTCFullYear (z.shown t) = year at *
  generalize getUTCMonth (z.shown t) = month at *
  generalize getUTCDate (z.shown t) = date at *
  -- the year that `Date.UTC` reads
  obtain ⟨read, read_eq, read_ge, later, read_ge'⟩ : ∃ read, read = (if 0 ≤ (if 1 ≤ year then year
      else 1 - year) ∧ (if 1 ≤ year then year else 1 - year) ≤ 99 then
        1900 + (if 1 ≤ year then year else 1 - year) else (if 1 ≤ year then year else 1 - year)) ∧
      100 ≤ read ∧ year + 199 ≤ read ∧ (year < -1500 → 1501 ≤ read) := by
    refine ⟨_, rfl, ?_⟩
    split <;> split at * <;> omega
  unfold dateUTC
  rw [← read_eq]
  have sum : day (makeDate (makeDay read (month + 1 - 1) date) 0) =
      monthStart (12 * read + month) + date - 1 := by
    unfold day makeDate makeDay msPerDay
    rw [show 12 * read + (month + 1 - 1) = 12 * read + month by omega]
    omega
  rw [sum]
  have far := monthStart_199 (12 * year + month)
  have apart := mono (show 12 * year + month + 2388 ≤ 12 * read + month by omega)
  have least := mono (show 12 * 100 ≤ 12 * read + month by omega)
  unfold makeDay at whole
  rw [show 12 * year + (month + 1 - 1) = 12 * year + month by omega] at whole
  refine ⟨?_, by omega, fun long => ?_⟩
  · unfold century
    omega
  · have long' : year < -1500 := by
      have := ancient.mpr (by
        have : century - 590000 ≤ monthStart (12 * -1500) := by decide
        omega)
      omega
    have least' := mono (show 12 * 1501 ≤ 12 * read + month by omega)
    have : century + 2 ≤ monthStart (12 * 1501) := by decide
    omega

end Start

/-! ## What the search makes of a minute -/

section Minute

variable {zones : Zones} {tz : String} {z : ZoneOffset} {t x : Int}

theorem wallTime_of_whole (whole : x % 60000 = 0) :
    wallTime x = { year := (dateOf x).year, month := (dateOf x).month, day := (dateOf x).day
                   hour := ((timeInDay x / 3600000).toNat : Nat)
                   minute := ((timeInDay x / 60000 % 60).toNat : Nat) } := by
  have fields : ((timeInDay x / 3600000).toNat : Int) = timeInDay x / 3600000 ∧
      ((timeInDay x / 60000 % 60).toNat : Int) = timeInDay x / 60000 % 60 ∧
      timeInDay x / 1000 % 60 = 0 ∧ timeInDay x % 1000 = 0 := by
    unfold timeInDay msPerDay
    omega
  unfold wallTime
  rw [fields.1, fields.2.1, fields.2.2.1, fields.2.2.2]
  rfl

theorem firesAtMinute_some (whole : x % 60000 = 0) {r : Int}
    (fires : firesAtMinute zones tz t x = some r) :
    r = zonedTimeToUtc zones (wallTime x) tz ∧ t < r := by
  have after := firesAt_gt fires
  unfold firesAtMinute firesAt at fires
  rw [← wallTime_of_whole whole] at fires
  simp only at fires
  split at fires
  · exact nomatch fires
  · split at fires
    · exact nomatch fires
    · exact ⟨(Option.some.inj fires).symm, after⟩

theorem zonedTimeToUtc_within (shows : Shows zones tz z) (late : midnight century ≤ x) :
    (∃ u, x - msPerDay < u ∧ u < x + msPerDay ∧
      zonedTimeToUtc zones (wallTime x) tz = x - z.offset u) ∨
      zonedTimeToUtc zones (wallTime x) tz ≤ x - midnight 600000 ∧ x < midnight century + msPerDay := by
  by_cases reads : ReadsLate z x
  · have near := zonedTimeToUtc_near shows (w := wallTime x) (by rwa [utcOf_wallTime late])
    rw [utcOf_wallTime late] at near
    exact .inl near
  · rcases zonedTimeToUtc_early shows late reads with far | ⟨first, -⟩
    · exact .inr ⟨far, Int.not_le.mp fun le => reads (.of_le le)⟩
    · exact .inl ⟨x, by unfold msPerDay; omega, by unfold msPerDay; omega, first⟩

theorem firesAtMinute_eq_some (shows : Shows zones tz z) (civil : z.Civil) (whole : x % 60000 = 0)
    (late : midnight century ≤ x) (recent : x - midnight 600000 ≤ t) {r : Int} :
    firesAtMinute zones tz t x = some r ↔
      r = zonedTimeToUtc zones (wallTime x) tz ∧ t < r ∧ z.shown r = x := by
  unfold firesAtMinute firesAt
  rw [← wallTime_of_whole whole]
  have within := zonedTimeToUtc_within shows late
  generalize zonedTimeToUtc zones (wallTime x) tz = put at *
  simp only
  split
  · exact iff_of_false (Option.some_ne_none r).symm (by rintro ⟨rfl, after, -⟩; omega)
  · rename_i after
    obtain ⟨u, from', until', near⟩ := within.resolve_right (by omega)
    have bounded := z.bounded u
    have close := z.offset_near (a := x - msPerDay) (s := u) (t := put) (by omega) (by omega)
      (by omega) (by omega)
    have close' := z.offset_near (a := x - msPerDay) (s := put) (t := u) (by omega) (by omega)
      (by omega) (by omega)
    have minutes := civil.minutes u
    have minutes' := civil.minutes put
    have agree : ((zones.parts tz put).day ≠ (dateOf x).day ∨
        (zones.parts tz put).hour ≠ ((timeInDay x / 3600000).toNat : Nat) ∨
        (zones.parts tz put).minute ≠ ((timeInDay x / 60000 % 60).toNat : Nat)) ↔ z.shown put ≠ x := by
      rw [shows put]
      simp only [ZoneOffset.parts]
      constructor
      · rintro differ rfl
        simp only [dateOf] at differ
        unfold timeInDay msPerDay at differ
        omega
      · intro differ
        -- the two are hours apart at most, so another wall time is another time of day
        by_contra same
        unfold ZoneOffset.shown timeInDay msPerDay at *
        omega
    split
    · rename_i differ
      refine iff_of_false (Option.some_ne_none r).symm ?_
      rintro ⟨is, -, shown⟩
      exact agree.mp differ (is ▸ shown)
    · rename_i same
      have shown := not_not.mp (agree.not.mp same)
      rw [Option.some.injEq]
      exact ⟨fun is => ⟨is.symm, by omega, is ▸ shown⟩, fun is => is.1.symm⟩

end Minute

/-! ## The projection -/

/-- From the year 100 on, the minutes that a search from `t` tries. -/
structure Sought (spec : CronSpec) (z : ZoneOffset) (t x : Int) : Prop where
  matching : spec.Matches x
  started : z.shown t < x + 60000
  within : day x ≤ day (z.shown t) + SEARCH_DAYS

section Projection

variable {zones : Zones} {z : ZoneOffset} {spec : CronSpec} {t s : Int}

theorem sought_iff (present : century ≤ day (z.shown t)) {x : Int} :
    (∃ k : Nat, k ≤ SEARCH_DAYS ∧ Tried spec z t (searchDay z t + k) x) ↔ Sought spec z t x := by
  obtain ⟨day_eq, start_eq⟩ := searchStart_eq present
  constructor
  · rintro ⟨k, few, matching, started, on⟩
    have whole := matching.whole
    exact ⟨matching, by omega, by omega⟩
  · rintro ⟨matching, started, within⟩
    have whole := matching.whole
    refine ⟨(day x - day (z.shown t)).toNat, by omega, matching, by omega, ?_⟩
    have order : day (z.shown t) ≤ day x := by
      unfold day msPerDay
      omega
    omega

theorem Sought.near (present : century ≤ day (z.shown t)) {x : Int} (sought : Sought spec z t x) :
    midnight century ≤ x ∧ x - midnight 600000 ≤ t := by
  have whole := sought.matching.whole
  have started := sought.started
  have within := sought.within
  have bounded := z.bounded t
  unfold day ZoneOffset.shown midnight msPerDay SEARCH_DAYS at *
  omega

section Run

variable {expr timeZone : String} (shows : Shows zones (normalizeTimeZone zones timeZone) z)
  (civil : z.Civil) (valid : timeZone = "" ∨ isValidTimeZone zones timeZone = true)
  (parsed : parseCron expr = .ok spec)
include shows civil valid parsed

/-- From the year 100 on, a projection is where the first minute is put that is put after `t` and shown
there. -/
theorem nextCronDate_of_present (present : century ≤ day (z.shown t)) {r : Int} :
    nextCronDate zones expr t timeZone = .ok (some r) ↔
      ∃ x, Sought spec z t x ∧
        (r = zonedTimeToUtc zones (wallTime x) (normalizeTimeZone zones timeZone) ∧ t < r ∧
          z.shown r = x) ∧
        ∀ x', Sought spec z t x' → x' < x →
          ∀ r', ¬(r' = zonedTimeToUtc zones (wallTime x') (normalizeTimeZone zones timeZone) ∧
            t < r' ∧ z.shown r' = x') := by
  rw [nextCronDate_eq_some shows valid parsed]
  have fires {x : Int} (sought : Sought spec z t x) (r : Int) :=
    firesAtMinute_eq_some shows civil sought.matching.whole (sought.near present).1
      (sought.near present).2 (r := r)
  constructor
  · rintro ⟨x, tried, is, earlier⟩
    have sought := (sought_iff present).mp tried
    refine ⟨x, sought, (fires sought r).mp is, fun x' sought' less r' fires' => ?_⟩
    obtain ⟨k, few, tried'⟩ := (sought_iff present).mpr sought'
    have none := earlier k few x' tried' less
    rw [(fires sought' r').mpr fires'] at none
    exact nomatch none
  · rintro ⟨x, sought, is, earlier⟩
    refine ⟨x, (sought_iff present).mpr sought, (fires sought r).mpr is,
      fun k few x' tried' less => Option.eq_none_iff_forall_ne_some.mpr fun r' fires' => ?_⟩
    have sought' := (sought_iff present).mp ⟨k, few, tried'⟩
    exact earlier x' sought' less r' ((fires sought' r').mp fires')

omit civil in
/-- From an instant at which the clock shows a year before 100, the search misses the next fire. -/
theorem nextCronDate_of_early (early : day (z.shown t) < century) (near : InHorizon z t s)
    (later : t < s) : nextCronDate zones expr t timeZone ≠ .ok (some s) := by
  intro projected
  obtain ⟨x, ⟨k, few, tried⟩, fires, -⟩ := (nextCronDate_eq_some shows valid parsed).mp projected
  obtain ⟨late, apart, ancient⟩ := searchDay_early early
  obtain ⟨put, -⟩ := firesAtMinute_some tried.matching.whole fires
  have on := tried.day
  have bounded := z.bounded s
  have bounded' := z.bounded t
  have lateMinute : midnight century ≤ x := by
    unfold day midnight msPerDay at *
    omega
  rcases zonedTimeToUtc_within shows lateMinute with ⟨u, from', until', is⟩ | ⟨far, first⟩
  · have bounded'' := z.bounded u
    rw [← put] at is
    unfold InHorizon SEARCH_DAYS at near
    unfold day ZoneOffset.shown msPerDay at *
    omega
  · rw [← put] at far
    have := ancient (by unfold day ZoneOffset.shown midnight msPerDay at *; omega)
    unfold day midnight msPerDay at *
    omega

omit civil valid parsed in
theorem reads_of_shown (present : century ≤ day (z.shown t)) {x r : Int} (sought : Sought spec z t x)
    (put : r = zonedTimeToUtc zones (wallTime x) (normalizeTimeZone zones timeZone)) (after : t < r)
    (shown : z.shown r = x) : ReadsLate z x := by
  obtain ⟨late, recent⟩ := sought.near present
  by_contra early
  rcases zonedTimeToUtc_early shows late early with far | ⟨first, other⟩
  · omega
  · rw [← first, ← put] at other
    omega

theorem foreseen_of_projected (next : NextFire spec z t s) (present : century ≤ day (z.shown t))
    (projected : nextCronDate zones expr t timeZone = .ok (some s)) : Foreseen spec z t s := by
  obtain ⟨⟨⟨y, matching, first⟩, later⟩, least⟩ := next
  obtain ⟨x, sought, ⟨put, after, shown⟩, earlier⟩ :=
    (nextCronDate_of_present shows civil valid parsed present).mp projected
  obtain rfl : y = x := by
    have : z.shown s = y := first.1
    omega
  have reads := reads_of_shown shows present sought put after shown
  have late := (sought.near present).1
  refine ⟨present, shown ▸ reads, ?_, ?_⟩
  · rw [shown]
    rintro ⟨one, other, order, is, is', same⟩
    have second := zonedTimeToUtc_of_lateGuess shows civil late reads order is is' same
    have := first.2 (show one ∈ z.showing y from is)
    omega
  · rintro ⟨x, one, other, matching', reads', started, past, coming, is, is', same⟩
    obtain ⟨first', is_first⟩ := exists_first is
    have before := is_first.2 (show one ∈ z.showing x from is)
    have less : x < y := by
      rcases lt_trichotomy x y with less | rfl | less
      · exact less
      · have := is_first.unique first
        omega
      · have := first_lt_first first is_first less
        omega
    have sought' : Sought spec z t x := by
      refine ⟨matching', started, le_trans ?_ sought.within⟩
      unfold day msPerDay
      omega
    have second := zonedTimeToUtc_of_lateGuess shows civil (sought'.near present).1 reads'
      (by omega) is is' same
    exact earlier x sought' less other ⟨second.symm, coming, is'⟩

theorem projected_of_foreseen (next : NextFire spec z t s) (near : InHorizon z t s)
    (foreseen : Foreseen spec z t s) : nextCronDate zones expr t timeZone = .ok (some s) := by
  obtain ⟨⟨⟨y, matching, first⟩, later⟩, least⟩ := next
  obtain ⟨present, reads, guess, past⟩ := foreseen
  have shown : z.shown s = y := first.1
  rw [shown] at reads guess
  unfold InHorizon at near
  rw [shown] at near
  have ahead := shown_lt_of_first first later
  have sought : Sought spec z t y := ⟨matching, by omega, by omega⟩
  have late := (sought.near present).1
  refine (nextCronDate_of_present shows civil valid parsed present).mpr
    ⟨y, sought, ⟨(zonedTimeToUtc_eq_first shows civil late reads guess first).symm, later, shown⟩, ?_⟩
  rintro x sought' less r ⟨put, after, shown'⟩
  have reads' := reads_of_shown shows present sought' put after shown'
  have late' := (sought'.near present).1
  obtain ⟨first', is_first⟩ := exists_first shown'
  have sooner := first_lt_first is_first first less
  have gone : first' ≤ t := by
    by_contra coming
    have := least ⟨⟨x, sought'.matching, is_first⟩, Int.not_le.mp coming⟩
    omega
  by_cases guess' : LateGuess z x
  · obtain ⟨one, other, order, is, is', same⟩ := guess'
    have second := zonedTimeToUtc_of_lateGuess shows civil late' reads' order is is' same
    exact past ⟨x, first', other, sought'.matching, reads', sought'.started, gone, by omega,
      is_first.1, is', same⟩
  · have := zonedTimeToUtc_eq_first shows civil late' reads' guess' is_first
    omega

theorem nextCronDate_eq_next (next : NextFire spec z t s) (near : InHorizon z t s) :
    nextCronDate zones expr t timeZone = .ok (some s) ↔ Foreseen spec z t s := by
  by_cases present : century ≤ day (z.shown t)
  · exact ⟨foreseen_of_projected shows civil valid parsed next present,
      projected_of_foreseen shows civil valid parsed next near⟩
  · refine iff_of_false ?_ fun is => present is.present
    exact nextCronDate_of_early shows valid parsed (Int.not_le.mp present) near next.1.2

/-- Any projection from `t` on, up to the next fire after `t`, is that fire iff it is foreseen there: as
long as it is, recomputing the projection does not move it. -/
theorem nextCronDate_next_iff (next : NextFire spec z t s) {t' : Int} (from' : t ≤ t') (until' : t' < s)
    (near : InHorizon z t' s) :
    nextCronDate zones expr t' timeZone = .ok (some s) ↔ Foreseen spec z t' s := by
  obtain ⟨⟨fires, -⟩, least⟩ := next
  have next' : NextFire spec z t' s :=
    ⟨⟨fires, until'⟩, fun u ⟨fires', after⟩ => least ⟨fires', lt_of_le_of_lt from' after⟩⟩
  exact nextCronDate_eq_next shows civil valid parsed next' near

end Run

theorem nextFire_of_minute (civil : z.Civil) (fires : s ∈ FireInstants spec z) :
    NextFire spec z (s - 60000) s := by
  have aligned {u : Int} (is : u ∈ FireInstants spec z) : u % 60000 = 0 := by
    obtain ⟨x, matching, first⟩ := is
    have whole := matching.whole
    have minutes := civil.minutes u
    have shown : z.shown u = x := first.1
    unfold ZoneOffset.shown at shown
    omega
  refine ⟨⟨fires, by omega⟩, fun u ⟨fires', after⟩ => ?_⟩
  have here := aligned fires
  have there := aligned fires'
  omega

end Projection

namespace Amman
open Analytics.Amman

def atNoon : CronSpec where
  minutes := [0]
  hours := [12]
  daysOfMonth := (List.range 31).map (1 + ·)
  months := (List.range 12).map (1 + ·)
  daysOfWeek := [1, 2, 3, 4, 5, 6, 7, 0]
  domRestricted := false
  dowRestricted := false

def atHalfPast : CronSpec := { atNoon with minutes := [30], hours := [0] }

/-- 12:00 on the day on which the clock goes back. -/
def lunch : Int := 1635501600000

theorem next_lunch : NextFire atNoon amman (lunch - 60000) lunch := by
  refine nextFire_of_minute civil ⟨noon, ⟨by decide, by decide +kernel, by decide, by decide⟩,
    show amman.shown lunch = noon by decide, fun u shown => ?_⟩
  change amman.shown u = noon at shown
  simp only [ZoneOffset.shown, amman, noon] at shown
  unfold lunch
  split at shown <;> omega

theorem next_early : NextFire atHalfPast amman (early - 60000) early := by
  refine nextFire_of_minute civil ⟨halfPast, ⟨by decide, by decide +kernel, by decide, by decide⟩,
    show amman.shown early = halfPast by decide, fun u shown => ?_⟩
  change amman.shown u = halfPast at shown
  simp only [ZoneOffset.shown, amman, halfPast] at shown
  unfold early
  split at shown <;> omega

end Amman

open Analytics.Amman Amman in
/-- At noon the clock shows every time once, and the fire is found. -/
theorem nextCronDate_next_lunch :
    nextCronDate zones "0 12 * * *" (lunch - 60000) "Asia/Amman" = .ok (some lunch) := by
  have shows : Shows zones (normalizeTimeZone zones "Asia/Amman") amman := fun _ => rfl
  have near : InHorizon amman (lunch - 60000) lunch := by
    unfold InHorizon
    decide +kernel
  refine (nextCronDate_next_iff shows civil (.inr (by decide +kernel)) (by decide +kernel) next_lunch
    (le_refl _) (by decide) near).mpr ⟨by decide +kernel, .of_le (by decide +kernel), ?_, ?_⟩
  · rintro ⟨first, second, order, shown, shown', -⟩
    have on : amman.shown lunch = 1635508800000 := by decide
    rw [on] at shown shown'
    simp only [ZoneOffset.shown, amman] at shown shown'
    split at shown <;> split at shown' <;> omega
  · rintro ⟨x, first, second, -, -, started, past, coming, shown, shown', -⟩
    simp only [ZoneOffset.shown, amman, lunch] at *
    split at started <;> split at shown <;> split at shown' <;> omega

open Analytics.Amman Amman in
/-- The fire at half past midnight is put an hour later, where the clock shows it again. -/
theorem repeated_minute_fires_late : ¬ ∀ (zones : Zones) (expr timeZone : String) (spec : CronSpec)
    (z : ZoneOffset) (t s : Int), Shows zones (normalizeTimeZone zones timeZone) z → z.Civil →
      timeZone = "" ∨ isValidTimeZone zones timeZone = true → parseCron expr = .ok spec →
      NextFire spec z t s → InHorizon z t s → nextCronDate zones expr t timeZone = .ok (some s) := by
  intro all
  have shows : Shows zones (normalizeTimeZone zones "Asia/Amman") amman := fun _ => rfl
  have valid : "Asia/Amman" = "" ∨ isValidTimeZone zones "Asia/Amman" = true :=
    .inr (by decide +kernel)
  have parsed : parseCron "30 0 * * *" = .ok atHalfPast := by decide +kernel
  have near : InHorizon amman (early - 60000) early := by
    unfold InHorizon
    decide +kernel
  have projected := all _ _ _ _ _ _ _ shows civil valid parsed next_early near
  have foreseen := (nextCronDate_eq_next shows civil valid parsed next_early near).mp projected
  exact foreseen.guess ⟨early, early + 3600000, by decide, rfl, by decide +kernel, by decide +kernel⟩

end AnalyticsBackend.Reports
