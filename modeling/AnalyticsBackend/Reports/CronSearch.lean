import AnalyticsBackend.Analytics.WallClock
import AnalyticsBackend.Lib.Result
import AnalyticsBackend.Lib.Sorted
import AnalyticsBackend.Reports.Cron

/-!
# The search of a projection

The days, hours and minutes that `nextCronDate` tries are the matching minutes of the calendar from the
one that the clock shows on, in their order.
-/

namespace AnalyticsBackend.Reports
open Lib Lib.Calendar Analytics

/-! ## Parsed expressions -/

/-- The hours and minutes of an expression ascend, and are those of a day. -/
structure CronSpec.Ordered (spec : CronSpec) : Prop where
  hours : spec.hours.Pairwise (· ≤ ·)
  minutes : spec.minutes.Pairwise (· ≤ ·)
  hourBound : ∀ hour ∈ spec.hours, hour ≤ 23
  minuteBound : ∀ minute ∈ spec.minutes, minute ≤ 59

theorem parseNumber_le {value raw : List Char} {field : CronField} {n : Nat}
    (parsed : parseNumber value field raw = .ok n) : n ≤ field.max := by
  simp only [parseNumber] at parsed
  split at parsed
  · exact nomatch parsed
  · split at parsed
    · exact nomatch parsed
    · have is := Except.ok.inj parsed
      omega

theorem parseRange_le {field : CronField} {part rangeText : List Char} {stepped : Bool} {lo hi : Nat}
    (wide : field.min ≤ field.max) (parsed : parseRange field part rangeText stepped = .ok (lo, hi)) :
    lo ≤ field.max ∧ hi ≤ field.max := by
  unfold parseRange at parsed
  split at parsed
  · obtain ⟨rfl, rfl⟩ := Prod.mk.inj (Except.ok.inj parsed)
    exact ⟨wide, le_refl _⟩
  · split at parsed
    · split at parsed
      · obtain ⟨lo', first, parsed⟩ := bind_eq_ok.mp parsed
        obtain ⟨hi', last, parsed⟩ := bind_eq_ok.mp parsed
        split at parsed
        · exact nomatch parsed
        · obtain ⟨rfl, rfl⟩ := Prod.mk.inj (Except.ok.inj parsed)
          exact ⟨parseNumber_le first, parseNumber_le last⟩
      · exact nomatch parsed
    · obtain ⟨lo', first, parsed⟩ := bind_eq_ok.mp parsed
      obtain ⟨rfl, is⟩ := Prod.mk.inj (Except.ok.inj parsed)
      have bound := parseNumber_le first
      refine ⟨bound, ?_⟩
      rw [← is]
      split
      · exact le_refl _
      · exact bound

theorem expandPart_le {field : CronField} {text part : List Char} {values : List Nat}
    (wide : field.min ≤ field.max) (expanded : expandPart field text part = .ok values) {n : Nat}
    (mem : n ∈ values) : n ≤ field.max := by
  unfold expandPart at expanded
  split at expanded
  · exact nomatch expanded
  · split at expanded
    · split at expanded
      · exact nomatch expanded
      · obtain ⟨step, -, expanded⟩ := bind_eq_ok.mp expanded
        obtain ⟨⟨lo, hi⟩, range, expanded⟩ := bind_eq_ok.mp expanded
        obtain ⟨low, high⟩ := parseRange_le wide range
        rw [← Except.ok.inj expanded] at mem
        obtain ⟨k, within, rfl⟩ := List.mem_map.mp mem
        have steps : k * step ≤ hi - lo := by
          have few : k ≤ (hi - lo) / step := by
            have := List.mem_range.mp within
            omega
          exact le_trans (Nat.mul_le_mul_right step few) (Nat.div_mul_le_self _ _)
        omega
    · rw [← Except.ok.inj expanded] at mem
      exact absurd mem List.not_mem_nil

theorem expandField_le {field : CronField} {raw : List Char} {values : List Nat}
    (wide : field.min ≤ field.max) (expanded : expandField raw field = .ok values) :
    ∀ n ∈ values, n ≤ field.max := by
  intro n mem
  unfold expandField at expanded
  split at expanded
  · exact nomatch expanded
  · obtain ⟨parts, each, expanded⟩ := bind_eq_ok.mp expanded
    rw [← Except.ok.inj expanded, List.mem_dedup] at mem
    obtain ⟨part, among, mem⟩ := List.mem_flatten.mp mem
    obtain ⟨textPart, -, is⟩ := mem_mapM_ok each among
    exact expandPart_le wide is mem

theorem parseCron_ordered {expr : String} {spec : CronSpec} (parsed : parseCron expr = .ok spec) :
    spec.Ordered := by
  unfold parseCron at parsed
  split at parsed
  · split at parsed
    · exact nomatch parsed
    · obtain ⟨minutes, minute, parsed⟩ := bind_eq_ok.mp parsed
      obtain ⟨hours, hour, parsed⟩ := bind_eq_ok.mp parsed
      obtain ⟨daysOfMonth, -, parsed⟩ := bind_eq_ok.mp parsed
      obtain ⟨months, -, parsed⟩ := bind_eq_ok.mp parsed
      obtain ⟨daysOfWeek, -, parsed⟩ := bind_eq_ok.mp parsed
      rw [← Except.ok.inj parsed]
      exact {
        hours := List.pairwise_insertionSort _ _
        minutes := List.pairwise_insertionSort _ _
        hourBound := fun n mem =>
          expandField_le (show hourField.min ≤ hourField.max by decide) hour n
            (List.mem_insertionSort _ |>.mp mem)
        minuteBound := fun n mem =>
          expandField_le (show minuteField.min ≤ minuteField.max by decide) minute n
            (List.mem_insertionSort _ |>.mp mem) }
  · exact nomatch parsed

/-! ## Matching minutes -/

structure CronSpec.Matches (spec : CronSpec) (x : Int) : Prop where
  whole : x % 60000 = 0
  date : dayMatches spec (dateOf x) = true
  hour : (timeInDay x / 3600000).toNat ∈ spec.hours
  minute : (timeInDay x / 60000 % 60).toNat ∈ spec.minutes

def minuteOf (n : Int) (hour minute : Nat) : Int := midnight n + hour * 3600000 + minute * 60000

section MinuteOf

variable {n : Int} {hour minute : Nat} (hours : hour ≤ 23) (minutes : minute ≤ 59)
include hours minutes

theorem day_minuteOf : day (minuteOf n hour minute) = n := by
  unfold day minuteOf midnight msPerDay
  omega

theorem hour_minuteOf : timeInDay (minuteOf n hour minute) / 3600000 = hour := by
  unfold timeInDay minuteOf midnight msPerDay
  omega

omit hours in
theorem minute_minuteOf : timeInDay (minuteOf n hour minute) / 60000 % 60 = minute := by
  unfold timeInDay minuteOf midnight msPerDay
  omega

theorem matches_minuteOf {spec : CronSpec} : spec.Matches (minuteOf n hour minute) ↔
    dayMatches spec (dateOfDay n) = true ∧ hour ∈ spec.hours ∧ minute ∈ spec.minutes := by
  have date : dateOf (minuteOf n hour minute) = dateOfDay n := by
    rw [← dateOf_day, day_minuteOf hours minutes]
  constructor
  · intro is
    have hour' := is.hour
    have minute' := is.minute
    rw [hour_minuteOf hours minutes, Int.toNat_natCast] at hour'
    rw [minute_minuteOf minutes, Int.toNat_natCast] at minute'
    exact ⟨date ▸ is.date, hour', minute'⟩
  · rintro ⟨day', hour', minute'⟩
    refine ⟨?_, date ▸ day', ?_, ?_⟩
    · unfold minuteOf midnight msPerDay
      omega
    · rwa [hour_minuteOf hours minutes, Int.toNat_natCast]
    · rwa [minute_minuteOf minutes, Int.toNat_natCast]

end MinuteOf

theorem CronSpec.Matches.eq_minuteOf {spec : CronSpec} {x : Int} (is : spec.Matches x) :
    x = minuteOf (day x) (timeInDay x / 3600000).toNat (timeInDay x / 60000 % 60).toNat := by
  have whole := is.whole
  unfold minuteOf day timeInDay midnight msPerDay at *
  omega

section Search

variable {zones : Zones} {tz : String} {z : ZoneOffset}

def firesAtMinute (zones : Zones) (tz : String) (t x : Int) : Option Int :=
  firesAt zones tz t (dateOf x) (timeInDay x / 3600000).toNat (timeInDay x / 60000 % 60).toNat

theorem firesAtMinute_minuteOf {t n : Int} {hour minute : Nat} (hours : hour ≤ 23)
    (minutes : minute ≤ 59) : firesAtMinute zones tz t (minuteOf n hour minute) =
      firesAt zones tz t (dateOfDay n) hour minute := by
  unfold firesAtMinute
  rw [hour_minuteOf hours minutes, minute_minuteOf minutes, ← dateOf_day,
    day_minuteOf hours minutes]
  rfl

/-- The day on which the search starts: the one that the clock shows, as `Date.UTC` reads it. -/
def searchDay (z : ZoneOffset) (t : Int) : Int :=
  day (dateUTC (z.parts t).year ((z.parts t).month - 1) (z.parts t).day)

def searchStart (z : ZoneOffset) (t : Int) : Int :=
  midnight (searchDay z t) + timeInDay (z.shown t) / 60000 * 60000

structure Tried (spec : CronSpec) (z : ZoneOffset) (t n x : Int) : Prop where
  matching : spec.Matches x
  started : searchStart z t ≤ x
  day : day x = n

theorem addCalendarDays_eq (c : CalendarDate) (k : Int) :
    addCalendarDays c k = dateOfDay (Calendar.day (dateUTC c.year (c.month - 1) c.day) + k) := by
  have sum : dateUTC c.year (c.month - 1) (c.day + k) =
      midnight (Calendar.day (dateUTC c.year (c.month - 1) c.day) + k) := by
    unfold dateUTC makeDate makeDay midnight Calendar.day msPerDay
    omega
  rw [addCalendarDays, sum]
  rfl

/-- On the first day, the minutes before the one that the clock shows are passed over. -/
theorem started_iff {t : Int} {offset hour minute : Nat} (hours : hour ≤ 23) (minutes : minute ≤ 59) :
    searchStart z t ≤ minuteOf (searchDay z t + offset) hour minute ↔
      ¬(offset = 0 ∧ (hour : Int) < (z.parts t).hour) ∧
        ¬(offset = 0 ∧ (hour : Int) = (z.parts t).hour ∧ (minute : Int) < (z.parts t).minute) := by
  simp only [searchStart, minuteOf, ZoneOffset.parts]
  unfold timeInDay midnight msPerDay
  omega

theorem tried_iff {spec : CronSpec} (ordered : spec.Ordered) {t n x : Int} : Tried spec z t n x ↔
    ∃ hour ∈ spec.hours, ∃ minute ∈ spec.minutes, x = minuteOf n hour minute ∧
      dayMatches spec (dateOfDay n) = true ∧ searchStart z t ≤ x := by
  constructor
  · rintro ⟨matching, started, rfl⟩
    exact ⟨_, matching.hour, _, matching.minute, matching.eq_minuteOf,
      by rw [dateOf_day]; exact matching.date, started⟩
  · rintro ⟨hour, hourMem, minute, minuteMem, rfl, matching, started⟩
    have hours := ordered.hourBound hour hourMem
    have minutes := ordered.minuteBound minute minuteMem
    exact ⟨(matches_minuteOf hours minutes).mpr ⟨matching, hourMem, minuteMem⟩, started,
      day_minuteOf hours minutes⟩

theorem findSome?_congr {A B : Type} {f g : A → Option B} {l : List A} (same : ∀ a ∈ l, f a = g a) :
    l.findSome? f = l.findSome? g := by
  induction l with
  | nil => rfl
  | cons a rest ih =>
      rw [List.findSome?_cons, List.findSome?_cons, same a (List.mem_cons_self ..),
        ih fun b mem => same b (List.mem_cons_of_mem _ mem)]

variable {spec : CronSpec} (ordered : spec.Ordered) (shows : Shows zones tz z)
include ordered shows

theorem firesOn_eq {t n : Int} {offset : Nat} (n_eq : n = searchDay z t + offset)
    (matching : dayMatches spec (dateOfDay n) = true) :
    firesOn zones spec tz t (zones.parts tz t) offset =
      spec.hours.findSome? fun hour => spec.minutes.findSome? fun minute =>
        if searchStart z t ≤ minuteOf n hour minute then
          firesAtMinute zones tz t (minuteOf n hour minute)
        else none := by
  subst n_eq
  unfold firesOn
  simp only [addCalendarDays_eq, shows t]
  rw [if_neg (by simpa [searchDay] using matching)]
  refine findSome?_congr fun hour hourMem => ?_
  have hours := ordered.hourBound hour hourMem
  split
  · rename_i skipped
    refine (List.findSome?_eq_none_iff.mpr fun minute minuteMem => if_neg fun started => ?_).symm
    exact ((started_iff hours (ordered.minuteBound minute minuteMem)).mp started).1 skipped
  · rename_i kept
    refine findSome?_congr fun minute minuteMem => ?_
    have minutes := ordered.minuteBound minute minuteMem
    have started : searchStart z t ≤ minuteOf (searchDay z t + offset) hour minute ↔ _ :=
      started_iff hours minutes
    rw [firesAtMinute_minuteOf hours minutes]
    split
    · rename_i skipped
      exact (if_neg fun is => (started.mp is).2 skipped).symm
    · rename_i kept'
      exact (if_pos (started.mpr ⟨kept, kept'⟩)).symm

theorem firesOn_eq_none {t : Int} {offset : Nat} :
    firesOn zones spec tz t (zones.parts tz t) offset = none ↔
      ∀ x, Tried spec z t (searchDay z t + offset) x → firesAtMinute zones tz t x = none := by
  by_cases matching : dayMatches spec (dateOfDay (searchDay z t + offset)) = true
  · rw [firesOn_eq ordered shows rfl matching]
    simp only [List.findSome?_eq_none_iff, ite_eq_right_iff]
    constructor
    · intro none x tried
      obtain ⟨hour, hourMem, minute, minuteMem, rfl, -, started⟩ := (tried_iff ordered).mp tried
      exact none hour hourMem minute minuteMem started
    · intro none hour hourMem minute minuteMem started
      exact none _ ((tried_iff ordered).mpr
        ⟨hour, hourMem, minute, minuteMem, rfl, matching, started⟩)
  · refine iff_of_true ?_ fun x tried => ?_
    · unfold firesOn
      simp only [addCalendarDays_eq, shows t]
      exact if_pos (by simpa [searchDay] using matching)
    · obtain ⟨_, _, _, _, _, is, _⟩ := (tried_iff ordered).mp tried
      exact absurd is matching

theorem firesOn_eq_some {t r : Int} {offset : Nat} :
    firesOn zones spec tz t (zones.parts tz t) offset = some r ↔
      ∃ x, Tried spec z t (searchDay z t + offset) x ∧ firesAtMinute zones tz t x = some r ∧
        ∀ x', Tried spec z t (searchDay z t + offset) x' → x' < x →
          firesAtMinute zones tz t x' = none := by
  by_cases matching : dayMatches spec (dateOfDay (searchDay z t + offset)) = true
  · rw [firesOn_eq ordered shows rfl matching, findSome?_ascending ordered.hours]
    simp only [findSome?_ascending ordered.minutes, List.findSome?_eq_none_iff, ite_eq_right_iff]
    constructor
    · rintro ⟨hour, hourMem, ⟨minute, minuteMem, is, earlierMinute⟩, earlierHour⟩
      obtain ⟨started, fires⟩ := Option.ite_none_right_eq_some.mp is
      refine ⟨_, (tried_iff ordered).mpr ⟨hour, hourMem, minute, minuteMem, rfl, matching, started⟩,
        fires, fun x' tried less => ?_⟩
      obtain ⟨hour', hourMem', minute', minuteMem', rfl, -, started'⟩ := (tried_iff ordered).mp tried
      have minutes := ordered.minuteBound minute minuteMem
      have minutes' := ordered.minuteBound minute' minuteMem'
      rcases (by unfold minuteOf at less; omega : hour' < hour ∨ hour' = hour ∧ minute' < minute) with
        sooner | ⟨rfl, sooner⟩
      · exact earlierHour hour' hourMem' sooner minute' minuteMem' started'
      · exact earlierMinute minute' minuteMem' sooner started'
    · rintro ⟨x, tried, fires, earlier⟩
      obtain ⟨hour, hourMem, minute, minuteMem, rfl, -, started⟩ := (tried_iff ordered).mp tried
      have before {hour' minute' : Nat} (hourMem' : hour' ∈ spec.hours)
          (minuteMem' : minute' ∈ spec.minutes)
          (less : hour' < hour ∨ hour' = hour ∧ minute' < minute)
          (started' : searchStart z t ≤ minuteOf (searchDay z t + offset) hour' minute') :
          firesAtMinute zones tz t (minuteOf (searchDay z t + offset) hour' minute') = none := by
        have minutes' := ordered.minuteBound minute' minuteMem'
        refine earlier _ ((tried_iff ordered).mpr
          ⟨hour', hourMem', minute', minuteMem', rfl, matching, started'⟩) ?_
        unfold minuteOf
        omega
      refine ⟨hour, hourMem, ⟨minute, minuteMem, ?_, fun minute' mem' less started' => ?_⟩,
        fun hour' mem' less minute' minuteMem' started' => ?_⟩
      · rw [if_pos started, fires]
      · exact before hourMem mem' (.inr ⟨rfl, less⟩) started'
      · exact before mem' minuteMem' (.inl less) started'
  · refine iff_of_false (fun fires => ?_) fun ⟨x, tried, _⟩ => ?_
    · unfold firesOn at fires
      simp only [addCalendarDays_eq, shows t] at fires
      rw [if_pos (by simpa [searchDay] using matching)] at fires
      exact nomatch fires
    · obtain ⟨_, _, _, _, _, is, _⟩ := (tried_iff ordered).mp tried
      exact absurd is matching

omit ordered shows in
theorem nextCronDate_eq_some {expr timeZone : String} {t r : Int}
    (shows : Shows zones (normalizeTimeZone zones timeZone) z)
    (valid : timeZone = "" ∨ isValidTimeZone zones timeZone = true)
    (parsed : parseCron expr = .ok spec) :
    nextCronDate zones expr t timeZone = .ok (some r) ↔
      ∃ x, (∃ k : Nat, k ≤ SEARCH_DAYS ∧ Tried spec z t (searchDay z t + k) x) ∧
        firesAtMinute zones (normalizeTimeZone zones timeZone) t x = some r ∧
        ∀ k : Nat, k ≤ SEARCH_DAYS → ∀ x', Tried spec z t (searchDay z t + k) x' → x' < x →
          firesAtMinute zones (normalizeTimeZone zones timeZone) t x' = none := by
  have ordered := parseCron_ordered parsed
  have known : ¬(timeZone ≠ "" ∧ (!isValidTimeZone zones timeZone) = true) := by
    rintro ⟨named, unknown⟩
    rcases valid with empty | valid
    · exact named empty
    · simp [valid] at unknown
  unfold nextCronDate
  rw [parsed, ok_bind, if_neg known]
  change Except.ok _ = _ ↔ _
  rw [Except.ok.injEq, findSome?_ascending List.pairwise_le_range]
  simp only [List.mem_range, Nat.lt_succ_iff, firesOn_eq_some ordered shows,
    firesOn_eq_none ordered shows]
  constructor
  · rintro ⟨k, within, ⟨x, tried, fires, sameDay⟩, daysBefore⟩
    refine ⟨x, ⟨k, within, tried⟩, fires, fun k' within' x' tried' less => ?_⟩
    have order : k' ≤ k := by
      have is := tried.day
      have is' := tried'.day
      unfold day msPerDay at is is'
      omega
    rcases order.lt_or_eq with sooner | rfl
    · exact daysBefore k' within' sooner x' tried'
    · exact sameDay x' tried' less
  · rintro ⟨x, ⟨k, within, tried⟩, fires, earlier⟩
    refine ⟨k, within, ⟨x, tried, fires, fun x' => earlier k within x'⟩,
      fun k' within' sooner x' tried' => earlier k' within' x' tried' ?_⟩
    have is := tried.day
    have is' := tried'.day
    unfold day msPerDay at is is'
    omega

end Search

end AnalyticsBackend.Reports
