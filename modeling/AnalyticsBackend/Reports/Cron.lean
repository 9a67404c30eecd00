import AnalyticsBackend.Analytics.BusinessTime
import Mathlib.Data.List.Sort

/-!
# Cron projections

`utils/cron.js`: five-field cron expressions and the next instant at which one fires in a time
zone.
-/

namespace AnalyticsBackend.Reports
open Lib Lib.Calendar Analytics

structure CronField where
  name : String
  min : Nat
  max : Nat

/-! The entries of `FIELDS`. -/

def minuteField : CronField := { name := "minute", min := 0, max := 59 }

def hourField : CronField := { name := "hour", min := 0, max := 23 }

def dayOfMonthField : CronField := { name := "day-of-month", min := 1, max := 31 }

def monthField : CronField := { name := "month", min := 1, max := 12 }

def dayOfWeekField : CronField := { name := "day-of-week", min := 0, max := 7 }

/-- How far ahead (in days) a projection searches. -/
def SEARCH_DAYS : Nat := 366 * 5

/-- `/^\d+$/`. -/
def isDigits (s : List Char) : Bool := !s.isEmpty && s.all Char.isDigit

/-- `Number` of digits. -/
def numberOf (s : List Char) : Nat :=
  s.foldl (fun acc c => 10 * acc + (c.toNat - '0'.toNat)) 0

def parseNumber (value : List Char) (field : CronField) (raw : List Char) : Except String Nat :=
  let text := String.ofList raw
  if !isDigits value then .error s!"Invalid {field.name} value \"{text}\""
  else
    let n := numberOf value
    if n < field.min ∨ field.max < n then
      .error s!"{field.name} value {n} is out of range {field.min}-{field.max}"
    else .ok n

/-- The step of a part: what follows its `/`. -/
def parseStep (field : CronField) (part : List Char) (stepText : Option (List Char)) :
    Except String Nat :=
  match stepText with
  | none => .ok 1
  | some text =>
      let shown := String.ofList part
      if !isDigits text ∨ numberOf text < 1 then .error s!"Invalid {field.name} step \"{shown}\""
      else .ok (numberOf text)

/-- The bounds of a part: `*`, `a-b`, or `a`, which with a step is `a` to the maximum. -/
def parseRange (field : CronField) (part rangeText : List Char) (stepped : Bool) :
    Except String (Nat × Nat) :=
  if rangeText = ['*'] then .ok (field.min, field.max)
  else if rangeText.contains '-' then
    let shown := String.ofList part
    match splitChars '-' rangeText with
    | [loText, hiText] => do
        let lo ← parseNumber loText field part
        let hi ← parseNumber hiText field part
        if hi < lo then .error s!"Invalid {field.name} range \"{shown}\"" else return (lo, hi)
    | _ => .error s!"Invalid {field.name} range \"{shown}\""
  else do
    let lo ← parseNumber rangeText field part
    return (lo, if stepped then field.max else lo)

def expandPart (field : CronField) (text part : List Char) : Except String (List Nat) := do
  if part.isEmpty then
    let shown := String.ofList text
    .error s!"Invalid {field.name} list \"{shown}\""
  else
    match splitChars '/' part with
    | rangeText :: rest => do
        if 1 < rest.length then
          let shown := String.ofList part
          .error s!"Invalid {field.name} step \"{shown}\""
        else
          let step ← parseStep field part rest.head?
          let (lo, hi) ← parseRange field part rangeText rest.head?.isSome
          return (List.range ((hi - lo) / step + 1)).map fun k => lo + k * step
    | [] => return []

/-- Expand one field into the values it matches, each once. -/
def expandField (raw : List Char) (field : CronField) : Except String (List Nat) := do
  if raw.isEmpty then .error s!"Empty {field.name} field"
  else
    let parts ← (splitChars ',' raw).mapM (expandPart field raw)
    return parts.flatten.dedup

/-- `split(/\s+/)` of a trimmed text. -/
def words : List Char → List (List Char)
  | [] => [[]]
  | [c] => [[c]]
  | c :: d :: rest =>
      if isJsSpace c then
        if isJsSpace d then words (d :: rest) else [] :: words (d :: rest)
      else
        match words (d :: rest) with
        | [] => [[c]]
        | word :: more => (c :: word) :: more

/-- A parsed expression. -/
structure CronSpec where
  minutes : List Nat
  hours : List Nat
  daysOfMonth : List Nat
  months : List Nat
  daysOfWeek : List Nat
  domRestricted : Bool
  dowRestricted : Bool
  deriving DecidableEq, Repr

def parseCron (expr : String) : Except String CronSpec :=
  match words (trim expr).toList with
  | [minute, hour, dom, month, dow] =>
      if minute.isEmpty then .error s!"Cron expression must have 5 fields: {expr}"
      else do
        let minutes ← expandField minute minuteField
        let hours ← expandField hour hourField
        let daysOfMonth ← expandField dom dayOfMonthField
        let months ← expandField month monthField
        let daysOfWeek ← expandField dow dayOfWeekField
        return {
          minutes := minutes.insertionSort (· ≤ ·)
          hours := hours.insertionSort (· ≤ ·)
          daysOfMonth, months
          daysOfWeek := if daysOfWeek.contains 7 then (daysOfWeek ++ [0]).dedup else daysOfWeek
          domRestricted := dom ≠ ['*']
          dowRestricted := dow ≠ ['*'] }
  | _ => .error s!"Cron expression must have 5 fields: {expr}"

/-- Day of week (0 = Sunday) of a calendar date. -/
def calendarWeekday (d : CalendarDate) : Int := (day (dateUTC d.year (d.month - 1) d.day) + 4) % 7

def dayMatches (spec : CronSpec) (date : CalendarDate) : Bool :=
  let dom := spec.daysOfMonth.contains date.day.toNat
  let dow := spec.daysOfWeek.contains (calendarWeekday date).toNat
  spec.months.contains date.month.toNat &&
    if spec.domRestricted && spec.dowRestricted then dom || dow else dom && dow

section Projection

variable (zones : Zones)

/-- The instant of a wall time of a day, unless it is not after `t` or is skipped that day. -/
def firesAt (tz : String) (t : Int) (date : CalendarDate) (hour minute : Nat) : Option Int :=
  let instant := zonedTimeToUtc zones
    { year := date.year, month := date.month, day := date.day, hour, minute } tz
  if instant ≤ t then none
  else
    let shown := zones.parts tz instant
    if shown.day ≠ date.day ∨ shown.hour ≠ hour ∨ shown.minute ≠ minute then none else some instant

/-- The first instant of a day; on the first day of the search, from the wall time on. -/
def firesOn (spec : CronSpec) (tz : String) (t : Int) (start : ZonedParts) (offset : Nat) :
    Option Int :=
  let date := addCalendarDays { year := start.year, month := start.month, day := start.day } offset
  if !dayMatches spec date then none
  else
    spec.hours.findSome? fun (hour : Nat) =>
      if offset = 0 ∧ (hour : Int) < start.hour then none
      else
        spec.minutes.findSome? fun (minute : Nat) =>
          if offset = 0 ∧ (hour : Int) = start.hour ∧ (minute : Int) < start.minute then none
          else firesAt zones tz t date hour minute

/-- The first instant strictly after `t` at which the expression fires in the zone; `ok none` when
there is none within the search horizon. -/
@[irreducible]
def nextCronDate (expr : String) (t : Int) (timeZone : String) : Except String (Option Int) := do
  let spec ← parseCron expr
  if timeZone ≠ "" ∧ !isValidTimeZone zones timeZone then .error s!"Unknown time zone \"{timeZone}\""
  else
    let tz := normalizeTimeZone zones timeZone
    return (List.range (SEARCH_DAYS + 1)).findSome? (firesOn zones spec tz t (zones.parts tz t))

/-- The check of an expression when a schedule is saved, at time `now`. -/
def assertValidCron (expr : String) (now : Int) (timeZone : String) : Except String Unit :=
  match nextCronDate zones expr now timeZone with
  | .error message => .error s!"Invalid cron expression \"{expr}\": {message}"
  | .ok none => .error s!"Invalid cron expression \"{expr}\": it never runs"
  | .ok (some _) => .ok ()

variable {zones}

theorem firesAt_gt {tz : String} {t next : Int} {date : CalendarDate} {hour minute : Nat}
    (fires : firesAt zones tz t date hour minute = some next) : t < next := by
  simp only [firesAt] at fires
  split at fires
  · exact nomatch fires
  · rename_i after
    split at fires
    · exact nomatch fires
    · have is := Option.some.inj fires
      omega

theorem firesOn_gt {spec : CronSpec} {tz : String} {t next : Int} {start : ZonedParts}
    {offset : Nat} (fires : firesOn zones spec tz t start offset = some next) : t < next := by
  simp only [firesOn] at fires
  split at fires
  · exact nomatch fires
  · obtain ⟨hour, -, fires⟩ := List.exists_of_findSome?_eq_some fires
    split at fires
    · exact nomatch fires
    · obtain ⟨minute, -, fires⟩ := List.exists_of_findSome?_eq_some fires
      split at fires
      · exact nomatch fires
      · exact firesAt_gt fires

theorem nextCronDate_gt {expr : String} {t next : Int} {timeZone : String}
    (projected : nextCronDate zones expr t timeZone = .ok (some next)) : t < next := by
  unfold nextCronDate at projected
  cases parsed : parseCron expr with
  | error message => simp [parsed, bind, Except.bind] at projected
  | ok spec =>
      simp only [parsed, bind, Except.bind] at projected
      split at projected
      · exact nomatch projected
      · obtain ⟨offset, -, fires⟩ :=
          List.exists_of_findSome?_eq_some (Except.ok.inj projected)
        exact firesOn_gt fires

end Projection

end AnalyticsBackend.Reports
