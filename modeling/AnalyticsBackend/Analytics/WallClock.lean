import AnalyticsBackend.Analytics.RelativeWindows
import Mathlib.Order.Bounds.Basic

/-!
# Wall times

The instant that a wall time is resolved to, in a zone whose offsets are whole minutes. A wall time
that is skipped is moved over the gap. One that is shown twice is resolved to the second time when the
offset read at the guess is already the later one, which is the case east of UTC.
-/

namespace AnalyticsBackend.Analytics

open Lib Lib.Calendar

/-- The wall time that UTC shows at an instant: every wall time of the calendar is one. -/
def wallTime (x : Int) : WallTime where
  year := getUTCFullYear x
  month := getUTCMonth x + 1
  day := getUTCDate x
  hour := timeInDay x / 3600000
  minute := timeInDay x / 60000 % 60
  second := timeInDay x / 1000 % 60
  millisecond := timeInDay x % 1000

theorem utcOf_wallTime {x : Int} (late : midnight century ≤ x) : utcOf (wallTime x) = x := by
  have days : century ≤ day x := by
    unfold day midnight msPerDay at *
    omega
  have date := dateUTC_dateOfDay days
  rw [dateOf_day, midnight_day] at date
  unfold utcOf
  change dateUTC (dateOf x).year ((dateOf x).month - 1) (dateOf x).day + timeInDay x / 3600000 * 3600000 +
    timeInDay x / 60000 % 60 * 60000 + timeInDay x / 1000 % 60 * 1000 + timeInDay x % 1000 = x
  rw [date]
  unfold timeInDay msPerDay
  omega

/-- The offset of a zone is in whole minutes, and fourteen hours at most. -/
structure ZoneOffset.Civil (z : ZoneOffset) : Prop where
  minutes : ∀ t, z.offset t % 60000 = 0
  hours : ∀ t, -50400000 ≤ z.offset t ∧ z.offset t ≤ 50400000

/-- The instants at which the clock of a zone shows the wall time `x`. -/
def ZoneOffset.showing (z : ZoneOffset) (x : Int) : Set Int := { t | z.shown t = x }

/-- `r` is what the wall time `x` is to be resolved to: the first instant at which the clock shows it;
where a jump skips it, the instant at which the clock shows it moved over the gap. -/
def Resolves (z : ZoneOffset) (x r : Int) : Prop :=
  IsLeast (z.showing x) r ∨
    z.showing x = ∅ ∧ ∃ jump, z.shown (jump - 1) < x ∧ x < z.shown jump ∧
      z.shown r = x + (z.offset jump - z.offset (jump - 1))

section Resolve

variable {zones : Zones} {tz : String} {z : ZoneOffset}

theorem shows_wall (shows : Shows zones tz z) {t : Int} (first : midnight (monthStart 12) ≤ z.shown t)
    (x : Int) :
    ((zones.parts tz t).year == (wallTime x).year && (zones.parts tz t).month == (wallTime x).month &&
      (zones.parts tz t).day == (wallTime x).day && (zones.parts tz t).hour == (wallTime x).hour &&
      (zones.parts tz t).minute == (wallTime x).minute) = decide (z.shown t / 60000 = x / 60000) := by
  have year : 1 ≤ getUTCFullYear (z.shown t) := by
    have := (year_dateOfDay (day (z.shown t)) 1).mpr
      (by rw [Int.mul_one]; unfold day midnight msPerDay at *; omega)
    rwa [dateOf_day] at this
  have sameDay : (dateOf (z.shown t)).year = (dateOf x).year ∧
      (dateOf (z.shown t)).month = (dateOf x).month ∧ (dateOf (z.shown t)).day = (dateOf x).day ↔
        day (z.shown t) = day x := by
    constructor
    · rintro ⟨year, month, date⟩
      have left := makeDay_dateOfDay (day (z.shown t))
      have right := makeDay_dateOfDay (day x)
      rw [dateOf_day] at left right
      rw [year, month, date, right] at left
      exact left.symm
    · intro same
      rw [dateOf_eq same]
      exact ⟨rfl, rfl, rfl⟩
  rw [shows t, Bool.eq_iff_iff]
  simp only [Bool.and_eq_true, beq_iff_eq, decide_eq_true_eq, ZoneOffset.parts, if_pos year]
  constructor
  · rintro ⟨⟨⟨⟨year, month⟩, date⟩, hour⟩, minute⟩
    have same := sameDay.mp ⟨year, month, date⟩
    simp only [wallTime] at hour minute
    unfold day timeInDay msPerDay at *
    omega
  · intro within
    obtain ⟨year, month, date⟩ := sameDay.mpr (by unfold day msPerDay at *; omega)
    refine ⟨⟨⟨⟨year, month⟩, date⟩, ?_⟩, ?_⟩ <;>
    · simp only [wallTime]
      unfold timeInDay msPerDay at *
      omega

theorem zonedTimeToUtc_eq (shows : Shows zones tz z) (civil : z.Civil)
    {x jump before after : Int} (late : midnight century ≤ x) (reads : ReadsLate z x)
    (at' : z.JumpsAt (x - msPerDay) jump before after) :
    zonedTimeToUtc zones (wallTime x) tz =
      if jump + after ≤ x ∧ (jump ≤ x ∨ jump + before ≤ x) then x - after else x - before := by
  have boundedBefore := at'.boundedBefore
  have boundedAfter := at'.boundedAfter
  have early : midnight (monthStart 12) + 3 * msPerDay ≤ midnight century := by decide
  have offsets (t : Int) (from' : x - msPerDay ≤ t) (until' : t < x + msPerDay) :
      z.offset t = if t < jump then before else after := at'.offset t from' (by omega)
  have read := offsetAt_eq shows reads.guess
  have read' := offsetAt_eq shows reads.candidate
  have bounded := z.bounded x
  have bounded' := z.bounded (x - z.offset x)
  have far (t : Int) (from' : x - msPerDay ≤ t) : midnight (monthStart 12) ≤ z.shown t := by
    have := z.bounded t
    unfold ZoneOffset.shown
    omega
  have candidate := shows_wall shows (far (x - z.offset x) (by omega)) x
  have other := shows_wall shows (far (x - z.offset (x - z.offset x)) (by omega)) x
  -- to the minute is to the millisecond
  have exact (o : Int) (whole : o % 60000 = 0) :
      decide (z.shown (x - o) / 60000 = x / 60000) = decide (z.shown (x - o) = x) := by
    have minute := civil.minutes (x - o)
    refine decide_eq_decide.mpr ?_
    unfold ZoneOffset.shown
    omega
  unfold zonedTimeToUtc
  simp only [utcOf_wallTime late, read, read']
  rw [candidate, other, exact _ (civil.minutes x), exact _ (civil.minutes _)]
  by_cases guessEarly : x < jump
  · have atGuess : z.offset x = before := by
      rw [offsets _ (by omega) (by omega), if_pos guessEarly]
    rw [atGuess]
    rw [atGuess] at bounded bounded'
    by_cases candidateEarly : x - before < jump
    · have atCandidate : z.offset (x - before) = before := by
        rw [offsets _ (by omega) (by omega), if_pos candidateEarly]
      rw [atCandidate, if_pos rfl, if_neg (by omega)]
    · have atCandidate : z.offset (x - before) = after := by
        rw [offsets _ (by omega) (by omega), if_neg candidateEarly]
      have atOther := offsets (x - after) (by omega) (by omega)
      simp only [ZoneOffset.shown, atCandidate, atOther]
      clear * - guessEarly candidateEarly
      split
      · omega
      · split <;> rename_i shown shown' <;>
          simp only [decide_eq_true_eq, decide_eq_false_iff_not] at shown shown' <;>
          split at shown' <;> omega
  · have atGuess : z.offset x = after := by
      rw [offsets _ (by omega) (by omega), if_neg guessEarly]
    rw [atGuess]
    rw [atGuess] at bounded bounded'
    by_cases candidateEarly : x - after < jump
    · have atCandidate : z.offset (x - after) = before := by
        rw [offsets _ (by omega) (by omega), if_pos candidateEarly]
      have atOther := offsets (x - before) (by omega) (by omega)
      simp only [ZoneOffset.shown, atCandidate, atOther]
      clear * - guessEarly candidateEarly
      split
      · omega
      · split <;> rename_i shown shown' <;>
          simp only [decide_eq_true_eq, decide_eq_false_iff_not] at shown shown' <;>
          split at shown' <;> omega
    · have atCandidate : z.offset (x - after) = after := by
        rw [offsets _ (by omega) (by omega), if_neg candidateEarly]
      rw [atCandidate, if_pos rfl, if_pos (by omega)]

theorem mem_showing {x jump before after : Int} (at' : z.JumpsAt (x - msPerDay) jump before after)
    (t : Int) : t ∈ z.showing x ↔
      t = x - before ∧ x < jump + before ∨ t = x - after ∧ jump + after ≤ x := by
  have boundedBefore := at'.boundedBefore
  have boundedAfter := at'.boundedAfter
  have bounded := z.bounded t
  change t + z.offset t = x ↔ _
  constructor
  · intro shown
    have offset := at'.offset t (by omega) (by omega)
    split at offset <;> omega
  · intro either
    have offset := at'.offset t (by omega) (by omega)
    split at offset <;> omega

theorem resolves_iff (civil : z.Civil) {x jump before after : Int}
    (at' : z.JumpsAt (x - msPerDay) jump before after) (r : Int) :
    Resolves z x r ↔
      r = if jump + before ≤ x ∧ jump + after ≤ x then x - after else x - before := by
  have showing := mem_showing at'
  by_cases early : x < jump + before
  · -- the clock shows it before the jump
    have least : IsLeast (z.showing x) (x - before) := by
      refine ⟨(showing _).mpr (.inl ⟨rfl, early⟩), fun t mem => ?_⟩
      rcases (showing t).mp mem with is | is <;> omega
    rw [if_neg (by omega)]
    constructor
    · rintro (first | ⟨none, -⟩)
      · exact first.unique least
      · exact absurd (none ▸ least.1) (Set.notMem_empty _)
    · rintro rfl
      exact .inl least
  · by_cases late : jump + after ≤ x
    · -- the clock shows it after the jump only
      have least : IsLeast (z.showing x) (x - after) := by
        refine ⟨(showing _).mpr (.inr ⟨rfl, late⟩), fun t mem => ?_⟩
        rcases (showing t).mp mem with is | is <;> omega
      rw [if_pos (by omega)]
      constructor
      · rintro (first | ⟨none, -⟩)
        · exact first.unique least
        · exact absurd (none ▸ least.1) (Set.notMem_empty _)
      · rintro rfl
        exact .inl least
    · -- the jump skips it
      have none : z.showing x = ∅ := by
        refine Set.eq_empty_of_forall_notMem fun t mem => ?_
        rcases (showing t).mp mem with is | is <;> omega
      have ⟨inside, inside'⟩ := at'.inside (by omega)
      have hoursAt := fun t => civil.hours t
      rw [if_neg (by omega)]
      constructor
      · rintro (first | ⟨-, jump', below, above, moved⟩)
        · exact absurd (none ▸ first.1) (Set.notMem_empty _)
        · have hours := hoursAt jump'
          have hours' := hoursAt (jump' - 1)
          have hoursR := hoursAt r
          unfold ZoneOffset.shown at below above moved
          have offset := at'.offset jump' (by unfold msPerDay; omega) (by unfold msPerDay; omega)
          have offset' := at'.offset (jump' - 1) (by unfold msPerDay; omega) (by unfold msPerDay; omega)
          have small := at'.small
          have gap : z.offset jump' - z.offset (jump' - 1) ≤ 10800000 := by
            split at offset <;> split at offset' <;> omega
          have offsetR := at'.offset r (by unfold msPerDay; omega) (by unfold msPerDay; omega)
          split at offset <;> split at offset' <;> split at offsetR <;> omega
      · rintro rfl
        have offset := at'.offset jump (by omega) (by omega)
        have offset' := at'.offset (jump - 1) (by omega) (by omega)
        have boundedBefore := at'.boundedBefore
        have offsetR := at'.offset (x - before) (by omega) (by omega)
        rw [if_neg (by omega)] at offset offsetR
        rw [if_pos (by omega)] at offset'
        refine .inr ⟨none, jump, ?_, ?_, ?_⟩ <;> unfold ZoneOffset.shown <;> omega

/-- The wall time is shown twice, and the offset read for its first guess is the later one. -/
def LateGuess (z : ZoneOffset) (x : Int) : Prop :=
  ∃ first second, first < second ∧ z.shown first = x ∧ z.shown second = x ∧
    z.offset x = z.offset second

theorem lateGuess_iff {x jump before after : Int} (at' : z.JumpsAt (x - msPerDay) jump before after) :
    LateGuess z x ↔ jump + after ≤ x ∧ x < jump + before ∧ jump ≤ x := by
  have showing := mem_showing at'
  have bounded := at'.boundedBefore
  have offset := at'.offset x (by unfold msPerDay; omega) (by unfold msPerDay; omega)
  constructor
  · rintro ⟨first, second, order, shown, shown', same⟩
    have shows := (showing first).mp shown
    have shows' := (showing second).mp shown'
    unfold ZoneOffset.shown at shown shown'
    split at offset <;> omega
  · rintro ⟨past, notYet, late⟩
    have shown := (showing (x - before)).mpr (.inl ⟨rfl, notYet⟩)
    have shown' := (showing (x - after)).mpr (.inr ⟨rfl, past⟩)
    refine ⟨x - before, x - after, by omega, shown, shown', ?_⟩
    have is : z.shown (x - after) = x := shown'
    unfold ZoneOffset.shown at is
    rw [if_neg (by omega)] at offset
    omega

theorem exists_first {x t : Int} (shown : z.shown t = x) : ∃ first, IsLeast (z.showing x) first := by
  obtain ⟨jump, before, after, at'⟩ := z.exists_jump (x - msPerDay)
  have showing := mem_showing at'
  have mem := (showing t).mp shown
  by_cases early : x < jump + before
  · refine ⟨x - before, (showing _).mpr (.inl ⟨rfl, early⟩), fun u mem' => ?_⟩
    rcases (showing u).mp mem' with is | is <;> omega
  · refine ⟨x - after, (showing _).mpr (.inr ⟨rfl, by omega⟩), fun u mem' => ?_⟩
    rcases (showing u).mp mem' with is | is <;> omega

theorem shown_lt_of_first {x first t : Int} (is : IsLeast (z.showing x) first) (earlier : t < first) :
    z.shown t < x := by
  by_contra passed
  have shown : z.shown first = x := is.1
  -- the clock goes back between the two, so the wall time was shown before it did
  have bounded := z.bounded t
  have bounded' := z.bounded first
  have near := z.offset_near (a := t) (s := t) (t := first) (le_refl t) (by unfold msPerDay; omega)
    (by omega) (by unfold ZoneOffset.shown at *; omega)
  obtain ⟨jump, before, after, at'⟩ := z.exists_jump (t - msPerDay)
  have offset := at'.offset t (by unfold msPerDay; omega) (by unfold msPerDay; omega)
  have offset' := at'.offset first (by omega) (by unfold ZoneOffset.shown msPerDay at *; omega)
  have offset'' := at'.offset (x - before)
  unfold ZoneOffset.shown at *
  have sooner : x - before + z.offset (x - before) = x := by
    split at offset <;> split at offset' <;> unfold msPerDay at * <;> omega
  have least := is.2 (show z.shown (x - before) = x from sooner)
  split at offset <;> split at offset' <;> omega

theorem first_lt_first {x y first first' : Int} (is : IsLeast (z.showing x) first)
    (is' : IsLeast (z.showing y) first') (later : x < y) : first < first' := by
  have shown : z.shown first' = y := is'.1
  have shown' : z.shown first = x := is.1
  rcases lt_trichotomy first first' with less | rfl | less
  · exact less
  · omega
  · have := shown_lt_of_first is less
    omega

theorem Resolves.near (civil : z.Civil) {x r : Int} (is : Resolves z x r) :
    x - msPerDay < r ∧ r < x + msPerDay := by
  obtain ⟨jump, before, after, at'⟩ := z.exists_jump (x - msPerDay)
  have boundedBefore := at'.boundedBefore
  have boundedAfter := at'.boundedAfter
  rw [resolves_iff civil at'] at is
  split at is <;> omega

theorem Resolves.shown_ge (civil : z.Civil) {x r : Int} (is : Resolves z x r) : x ≤ z.shown r := by
  obtain ⟨jump, before, after, at'⟩ := z.exists_jump (x - msPerDay)
  have boundedBefore := at'.boundedBefore
  have boundedAfter := at'.boundedAfter
  rw [resolves_iff civil at'] at is
  have offset := at'.offset r (by split at is <;> omega) (by split at is <;> omega)
  unfold ZoneOffset.shown
  split at is <;> split at offset <;> omega

/-- Where the clock shows years before 100, the offset is read wrongly: the wall time is put centuries
before, or at an instant at which the clock shows such a year. -/
theorem zonedTimeToUtc_early (shows : Shows zones tz z) {x : Int} (late : midnight century ≤ x)
    (early : ¬ReadsLate z x) :
    zonedTimeToUtc zones (wallTime x) tz ≤ x - midnight 600000 ∨
      zonedTimeToUtc zones (wallTime x) tz = x - z.offset x ∧
        z.shown (x - z.offset x) < midnight century := by
  have year : midnight (monthStart 12) + 3 * msPerDay ≤ midnight century := by decide
  have recent : midnight century - midnight (monthStart 12) + 4 * msPerDay ≤ 40000 * msPerDay := by
    decide
  have far : midnight 693000 = 693000 * msPerDay ∧ midnight 600000 = 600000 * msPerDay := ⟨rfl, rfl⟩
  have bounded := z.bounded x
  have bounded' := z.bounded (x - z.offset x)
  have either := zonedTimeToUtc_or zones (wallTime x) tz
  rw [utcOf_wallTime late] at either
  by_cases guess : midnight century ≤ z.shown x
  · -- the guess is read as it is, the candidate is not
    have candidate : z.shown (x - z.offset x) < midnight century := by
      by_contra reads
      exact early ⟨guess, Int.not_lt.mp reads⟩
    rw [offsetAt_eq shows guess] at either
    have read := offsetAt_early shows (t := x - z.offset x)
      (by unfold ZoneOffset.shown msPerDay at *; omega) candidate
    rcases either with first | second
    · exact .inr ⟨first, candidate⟩
    · left
      unfold msPerDay at *
      omega
  · left
    have first := offsetAt_early shows (t := x) (by unfold ZoneOffset.shown msPerDay at *; omega)
      (Int.not_le.mp guess)
    have second := offsetAt_ge shows (x - offsetAt zones tz x)
    unfold ZoneOffset.shown msPerDay at *
    omega

theorem not_resolves_of_early (shows : Shows zones tz z) (civil : z.Civil) {x : Int}
    (late : midnight century ≤ x) (early : ¬ReadsLate z x) :
    ¬Resolves z x (zonedTimeToUtc zones (wallTime x) tz) := by
  intro is
  have near := is.near civil
  have shown := is.shown_ge civil
  have far : midnight 600000 = 600000 * msPerDay := rfl
  rcases zonedTimeToUtc_early shows late early with before | ⟨first, other⟩
  · unfold msPerDay at *
    omega
  · rw [first] at shown
    omega

theorem resolves_iff_of_reads (shows : Shows zones tz z) (civil : z.Civil) {x : Int}
    (late : midnight century ≤ x) (reads : ReadsLate z x) :
    Resolves z x (zonedTimeToUtc zones (wallTime x) tz) ↔ ¬LateGuess z x := by
  obtain ⟨jump, before, after, at'⟩ := z.exists_jump (x - msPerDay)
  rw [resolves_iff civil at', lateGuess_iff at', zonedTimeToUtc_eq shows civil late reads at']
  split <;> split <;> omega

theorem zonedTimeToUtc_eq_first (shows : Shows zones tz z) (civil : z.Civil) {x first : Int}
    (late : midnight century ≤ x) (reads : ReadsLate z x) (guess : ¬LateGuess z x)
    (is : IsLeast (z.showing x) first) : zonedTimeToUtc zones (wallTime x) tz = first := by
  rcases (resolves_iff_of_reads shows civil late reads).mpr guess with least | ⟨none, -⟩
  · exact least.unique is
  · exact absurd (none ▸ is.1) (Set.notMem_empty _)

/-- In a zone of whole minutes, a wall time of the years from 100 on is resolved as it should be iff
the clock shows such years where it is looked up, and, when the wall time is shown twice, its first
guess does not read the later offset. -/
theorem wall_time_resolves (shows : Shows zones tz z) (civil : z.Civil) {x : Int}
    (present : 100 ≤ getUTCFullYear x) :
    Resolves z x (zonedTimeToUtc zones (wallTime x) tz) ↔ ReadsLate z x ∧ ¬LateGuess z x := by
  have late : midnight century ≤ x := by
    have days := (year_dateOfDay (day x) 100).mp (by rwa [dateOf_day])
    change century ≤ day x at days
    unfold day midnight msPerDay at *
    omega
  by_cases reads : ReadsLate z x
  · rw [resolves_iff_of_reads shows civil late reads]
    exact (and_iff_right reads).symm
  · exact iff_of_false (not_resolves_of_early shows civil late reads) fun is => reads is.1

theorem zonedTimeToUtc_of_lateGuess (shows : Shows zones tz z) (civil : z.Civil) {x second : Int}
    (late : midnight century ≤ x) (reads : ReadsLate z x) {first : Int} (order : first < second)
    (shown : z.shown first = x) (shown' : z.shown second = x) (same : z.offset x = z.offset second) :
    zonedTimeToUtc zones (wallTime x) tz = second := by
  obtain ⟨jump, before, after, at'⟩ := z.exists_jump (x - msPerDay)
  obtain ⟨past, notYet, guess⟩ := (lateGuess_iff at').mp ⟨first, second, order, shown, shown', same⟩
  have mem := (mem_showing at' first).mp shown
  have mem' := (mem_showing at' second).mp shown'
  rw [zonedTimeToUtc_eq shows civil late reads at', if_pos ⟨past, .inl guess⟩]
  omega

end Resolve

namespace Amman

theorem civil : amman.Civil where
  minutes t := by
    simp only [amman]
    split <;> rfl
  hours t := by
    simp only [amman]
    split <;> decide

/-- Noon of the day on which 00:00 to 01:00 is shown twice. -/
def noon : Int := 1635508800000

def halfPast : Int := 1635467400000

end Amman

open Amman in
/-- Noon is shown once, and resolved to that instant. -/
theorem wall_time_resolves_noon :
    Resolves amman noon (zonedTimeToUtc zones (wallTime noon) "Asia/Amman") := by
  have shows : Shows zones "Asia/Amman" amman := fun _ => rfl
  have present : 100 ≤ getUTCFullYear noon := by decide
  refine (wall_time_resolves shows civil present).mpr ⟨.of_le (by decide), ?_⟩
  rintro ⟨first, second, order, shown, shown', -⟩
  simp only [ZoneOffset.shown, amman, noon] at shown shown'
  split at shown <;> split at shown' <;> omega

open Amman in
/-- Half past midnight is resolved to the second instant at which the clock shows it. -/
theorem repeated_time_resolves_late : ¬ ∀ (zones : Zones) (tz : String) (z : ZoneOffset) (x : Int),
    Shows zones tz z → z.Civil → 100 ≤ getUTCFullYear x → getUTCFullYear x ≤ 9998 →
      Resolves z x (zonedTimeToUtc zones (wallTime x) tz) := by
  intro all
  have is := all zones "Asia/Amman" amman halfPast (fun _ => rfl) civil (by decide) (by decide)
  have resolved : zonedTimeToUtc zones (wallTime halfPast) "Asia/Amman" = early + 3600000 := by
    decide +kernel
  have shown : early ∈ amman.showing halfPast := by
    change amman.shown early = halfPast
    decide +kernel
  rw [resolved] at is
  rcases is with least | ⟨none, -⟩
  · exact absurd (least.2 shown) (by decide)
  · exact absurd (none ▸ shown) (Set.notMem_empty _)

end AnalyticsBackend.Analytics
