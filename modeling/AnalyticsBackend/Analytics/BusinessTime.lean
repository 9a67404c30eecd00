import AnalyticsBackend.Lib.Calendar
import AnalyticsBackend.Lib.Js

/-!
# Business time

The time zone helpers of `utils/timezone.js` and the windows of `services/analytics.engine.js`:
boundaries of a date range, relative presets and the comparison window. Instants are
milliseconds; the zone data of the runtime is a parameter.
-/

namespace AnalyticsBackend.Analytics

open Lib Lib.Calendar

/-! ## Time zones -/

/-- Wall-clock fields of an instant; `month` is 1 to 12. -/
structure ZonedParts where
  year : Int
  month : Int
  day : Int
  hour : Int
  minute : Int
  second : Int
  deriving DecidableEq, Repr

/-- The zone data of the runtime (`Intl`): which names it knows, their known spelling, and the
wall clock of an instant. -/
structure Zones where
  known : String → Bool
  spelling : String → String
  parts : String → Int → ZonedParts

/-- A runtime that knows no zone but UTC. -/
def Zones.utc : Zones where
  known name := name == "UTC"
  spelling _ := "UTC"
  parts _ t :=
    { year := getUTCFullYear t, month := getUTCMonth t + 1, day := getUTCDate t
      hour := timeInDay t / 3600000, minute := timeInDay t / 60000 % 60
      second := timeInDay t / 1000 % 60 }

structure CalendarDate where
  year : Int
  month : Int
  day : Int
  deriving DecidableEq, Repr

structure WallTime where
  year : Int
  month : Int
  day : Int
  hour : Int := 0
  minute : Int := 0
  second : Int := 0
  millisecond : Int := 0
  deriving DecidableEq, Repr

def CalendarDate.start (d : CalendarDate) : WallTime :=
  { year := d.year, month := d.month, day := d.day }

def DEFAULT_TIMEZONE : String := "UTC"

def isValidTimeZone (zones : Zones) (value : String) : Bool :=
  !(trim value).isEmpty && jsLength value ≤ 64 && zones.known (trim value)

def isZoneChar (c : Char) : Bool :=
  c.isAlpha || c.isDigit || c = '_' || c = '+' || c = '-'

/-- `CASED_ZONE_RE`: properly-cased names such as `Asia/Kolkata`. -/
def isCasedZone (name : String) : Bool :=
  (splitChars '/' name.toList).all fun part =>
    match part with
    | [] => false
    | c :: rest => c.isUpper && rest.all isZoneChar

/-- Canonical spelling of a time zone name; UTC when it is not valid. -/
def normalizeTimeZone (zones : Zones) (value : String) : String :=
  if isValidTimeZone zones value then
    if isCasedZone (trim value) then trim value else zones.spelling (trim value)
  else DEFAULT_TIMEZONE

/-- `Date.UTC` of wall-clock fields. -/
def utcOf (w : WallTime) : Int :=
  dateUTC w.year (w.month - 1) w.day + w.hour * 3600000 + w.minute * 60000 + w.second * 1000 +
    w.millisecond

/-- Offset of the zone from UTC at an instant, in milliseconds (east positive). -/
def offsetAt (zones : Zones) (tz : String) (t : Int) : Int :=
  let p := zones.parts tz t
  utcOf { year := p.year, month := p.month, day := p.day, hour := p.hour, minute := p.minute,
          second := p.second } - t / 1000 * 1000

/-- The UTC instant at which the wall clock shows the given time. -/
def zonedTimeToUtc (zones : Zones) (w : WallTime) (tz : String) : Int :=
  let guess := utcOf w
  let firstOffset := offsetAt zones tz guess
  let candidate := guess - firstOffset
  let secondOffset := offsetAt zones tz candidate
  if secondOffset = firstOffset then candidate
  else
    -- Near a transition: the first candidate that shows the time, else the later one.
    let other := guess - secondOffset
    let shows (t : Int) : Bool :=
      let p := zones.parts tz t
      p.year == w.year && p.month == w.month && p.day == w.day && p.hour == w.hour &&
        p.minute == w.minute
    match shows candidate, shows other with
    | true, true => min candidate other
    | true, false => candidate
    | false, true => other
    | false, false => max candidate other

def dateOf (t : Int) : CalendarDate :=
  { year := getUTCFullYear t, month := getUTCMonth t + 1, day := getUTCDate t }

def addCalendarDays (d : CalendarDate) (days : Int) : CalendarDate :=
  dateOf (dateUTC d.year (d.month - 1) (d.day + days))

def addCalendarMonths (year month months : Int) : CalendarDate :=
  { dateOf (dateUTC year (month - 1 + months) 1) with day := 1 }

/-! ## Boundaries of a date range -/

/-- A parsed boundary: an instant, a whole day or a wall time of the workspace. -/
inductive Boundary where
  | instant (ms : Int)
  | dateOnly (date : CalendarDate)
  | wallTime (time : WallTime)
  deriving DecidableEq, Repr

def validCalendar (year month day : Int) : Bool :=
  dateOf (dateUTC year (month - 1) day) == { year, month, day }

def digitValue (c : Char) : Option Nat :=
  if c.isDigit then some (c.toNat - '0'.toNat) else none

/-- The number of exactly `n` digits, and what follows. -/
def takeDigits : Nat → List Char → Nat → Option (Nat × List Char)
  | 0, rest, acc => some (acc, rest)
  | n + 1, c :: rest, acc => (digitValue c).bind fun d => takeDigits n rest (10 * acc + d)
  | _ + 1, [], _ => none

def expect (c : Char) : List Char → Option (List Char)
  | d :: rest => if d = c then some rest else none
  | [] => none

/-- `YYYY-MM-DD`, and what follows. -/
def parseDate (s : List Char) : Option (CalendarDate × List Char) := do
  let (year, s) ← takeDigits 4 s 0
  let s ← expect '-' s
  let (month, s) ← takeDigits 2 s 0
  let s ← expect '-' s
  let (day, s) ← takeDigits 2 s 0
  some ({ year, month, day }, s)

def parseFraction (s : List Char) : Option (Int × List Char) :=
  match takeDigits 3 s 0 with
  | some (n, rest) => some (n, rest)
  | none =>
      match takeDigits 2 s 0 with
      | some (n, rest) => some (10 * n, rest)
      | none => (takeDigits 1 s 0).map fun (n, rest) => (100 * n, rest)

/-- `HH:MM`, then optional seconds and their fraction. -/
def parseClock (date : CalendarDate) (s : List Char) : Option (WallTime × List Char) := do
  let (hour, s) ← takeDigits 2 s 0
  let s ← expect ':' s
  let (minute, s) ← takeDigits 2 s 0
  let time : WallTime :=
    { year := date.year, month := date.month, day := date.day, hour, minute }
  match (do
      let s ← expect ':' s
      takeDigits 2 s 0) with
  | none => some (time, s)
  | some (second, s) =>
      let time := { time with second }
      match (do
          let s ← expect '.' s
          parseFraction s) with
      | none => some (time, s)
      | some (millisecond, s) => some ({ time with millisecond }, s)

/-- The offset `Z`, `±HH:MM` or `±HHMM` that ends a date-time, in milliseconds. -/
def parseOffset : List Char → Option Int
  | ['Z'] => some 0
  | sign :: s => do
      let factor ← if sign = '+' then some 1 else if sign = '-' then some (-1) else none
      let (hours, s) ← takeDigits 2 s 0
      let (minutes, s) ← takeDigits 2 ((expect ':' s).getD s) 0
      if s ≠ [] ∨ 23 < hours ∨ 59 < minutes then none
      else some (factor * (hours * 3600000 + minutes * 60000))
  | [] => none

/-- Parse a calendar date or date-time boundary; none when it is not valid ISO-8601. -/
def parseBoundaryText (value : String) : Option Boundary :=
  match parseDate (trim value).toList with
  | none => none
  | some (date, []) =>
      if validCalendar date.year date.month date.day then some (.dateOnly date) else none
  | some (date, sep :: s) =>
      if sep = 'T' ∨ sep = ' ' then
        match parseClock date s with
        | none => none
        | some (time, rest) =>
            if !validCalendar date.year date.month date.day ∨ 23 < time.hour ∨
                59 < time.minute ∨ 59 < time.second then none
            else if rest = [] then some (.wallTime time)
            else (parseOffset rest).map fun offset => .instant (utcOf time - offset)
      else none

def parseBoundaryParts : Js → Option Boundary
  | .date ms => ms.map .instant
  | .str s => parseBoundaryText s
  | _ => none

def boundaryInstant (zones : Zones) (parts : Boundary) (tz : String) (isEnd : Bool) : Int :=
  match parts with
  | .instant ms => ms
  | .dateOnly date =>
      if isEnd then zonedTimeToUtc zones (addCalendarDays date 1).start tz - 1
      else zonedTimeToUtc zones date.start tz
  | .wallTime time => zonedTimeToUtc zones time tz

def Boundary.sameKind : Boundary → Boundary → Bool
  | .instant _, .instant _ => true
  | .dateOnly _, .dateOnly _ => true
  | .wallTime _, .wallTime _ => true
  | _, _ => false

def padLeft (width : Nat) (n : Nat) : String :=
  let digits := (toString n).toList
  String.ofList (List.replicate (width - digits.length) '0' ++ digits)

/-- `toISOString()`. -/
def isoText (t : Int) : String :=
  let year := getUTCFullYear t
  let clock := timeInDay t
  let yearText :=
    if 0 ≤ year ∧ year ≤ 9999 then padLeft 4 year.toNat
    else (if year < 0 then "-" else "+") ++ padLeft 6 year.natAbs
  yearText ++ "-" ++ padLeft 2 (getUTCMonth t + 1).toNat ++ "-" ++ padLeft 2 (getUTCDate t).toNat ++
    "T" ++ padLeft 2 (clock / 3600000).toNat ++ ":" ++ padLeft 2 (clock / 60000 % 60).toNat ++ ":" ++
    padLeft 2 (clock / 1000 % 60).toNat ++ "." ++ padLeft 3 (clock % 1000).toNat ++ "Z"

/-! ## Windows -/

inductive DatePreset where
  | today
  | yesterday
  | last7Days
  | last30Days
  | thisMonth
  | lastMonth
  | previousMonth
  | thisQuarter
  | lastQuarter
  | thisYear
  | lastYear
  | custom
  deriving DecidableEq, Repr

namespace DatePreset

def all : List DatePreset :=
  [.today, .yesterday, .last7Days, .last30Days, .thisMonth, .lastMonth, .previousMonth,
    .thisQuarter, .lastQuarter, .thisYear, .lastYear, .custom]

def text : DatePreset → String
  | .today => "today"
  | .yesterday => "yesterday"
  | .last7Days => "last_7_days"
  | .last30Days => "last_30_days"
  | .thisMonth => "this_month"
  | .lastMonth => "last_month"
  | .previousMonth => "previous_month"
  | .thisQuarter => "this_quarter"
  | .lastQuarter => "last_quarter"
  | .thisYear => "this_year"
  | .lastYear => "last_year"
  | .custom => "custom"

end DatePreset

/-- A validated date range: a relative preset, or one or two boundaries. -/
structure DateRange where
  field : String
  preset : Option DatePreset
  fromText : Option String
  toText : Option String
  deriving DecidableEq, Repr

/-- A resolved window; `toDate` is its last millisecond. -/
structure Window where
  field : String
  preset : Option DatePreset
  fromDate : Option Int
  toDate : Option Int
  deriving DecidableEq, Repr

/-- Resolve a validated date range into an inclusive UTC window. -/
def resolveDateRange (zones : Zones) (range : DateRange) (timezone : String) (now : Int) : Window :=
  let tz := normalizeTimeZone zones timezone
  let today := zones.parts tz now
  let day : CalendarDate := { year := today.year, month := today.month, day := today.day }
  let start (d : CalendarDate) : Int := zonedTimeToUtc zones d.start tz
  let window (fromDate toExclusive : CalendarDate) : Window :=
    { field := range.field, preset := range.preset, fromDate := some (start fromDate)
      toDate := some (start toExclusive - 1) }
  let monthStart : CalendarDate := { year := day.year, month := day.month, day := 1 }
  let quarterStart : CalendarDate :=
    { year := day.year, month := day.month - (day.month - 1) % 3, day := 1 }
  let yearStart : CalendarDate := { year := day.year, month := 1, day := 1 }
  let addMonths (d : CalendarDate) (n : Int) := addCalendarMonths d.year d.month n
  match range.preset with
  | some .today => window day (addCalendarDays day 1)
  | some .yesterday => window (addCalendarDays day (-1)) day
  | some .last7Days => window (addCalendarDays day (-6)) (addCalendarDays day 1)
  | some .last30Days => window (addCalendarDays day (-29)) (addCalendarDays day 1)
  | some .thisMonth => window monthStart (addMonths monthStart 1)
  | some .lastMonth | some .previousMonth => window (addMonths monthStart (-1)) monthStart
  | some .thisQuarter => window quarterStart (addMonths quarterStart 3)
  | some .lastQuarter => window (addMonths quarterStart (-3)) quarterStart
  | some .thisYear => window yearStart { year := day.year + 1, month := 1, day := 1 }
  | some .lastYear => window { year := day.year - 1, month := 1, day := 1 } yearStart
  | some .custom | none =>
      { field := range.field
        preset := range.preset
        fromDate := (range.fromText.bind parseBoundaryText).map fun p =>
          boundaryInstant zones p tz false
        toDate := (range.toText.bind parseBoundaryText).map fun p =>
          boundaryInstant zones p tz true }

/-! ## Comparison windows -/

def daysInMonth (year month : Int) : Int := getUTCDate (dateUTC year month 0)

/-- `instant` moved by calendar months in `tz`, the day clamped to the month. -/
def shiftMonths (zones : Zones) (instant months : Int) (tz : String) : Int :=
  let p := zones.parts tz instant
  let target := addCalendarMonths p.year p.month months
  zonedTimeToUtc zones
    { year := target.year, month := target.month
      day := min p.day (daysInMonth target.year target.month)
      hour := p.hour, minute := p.minute, second := p.second
      millisecond := instant % 1000 } tz

/-- Months between two month starts in `tz`; none when either is not 00:00 on the 1st. -/
def wholeMonths (zones : Zones) (fromDate toExclusive : Int) (tz : String) : Option Int :=
  let a := zones.parts tz fromDate
  let b := zones.parts tz toExclusive
  let aligned (p : ZonedParts) : Bool := p.day == 1 && p.hour == 0 && p.minute == 0 && p.second == 0
  if !aligned a ∨ !aligned b ∨ fromDate % 1000 ≠ 0 ∨ toExclusive % 1000 ≠ 0 then none
  else
    let n := (b.year - a.year) * 12 + (b.month - a.month)
    if 0 < n then some n else none

/-- The two bounds of the comparison window of an absolute window. -/
def comparisonWindow (zones : Zones) (fromDate toDate : Int) (previousYear : Bool)
    (timezone : String) : Int × Int :=
  let tz := normalizeTimeZone zones timezone
  let stop := toDate + 1
  if previousYear then
    (shiftMonths zones fromDate (-12) tz, shiftMonths zones stop (-12) tz - 1)
  else
    match wholeMonths zones fromDate stop tz with
    | some months => (shiftMonths zones fromDate (-months) tz, fromDate - 1)
    | none => (fromDate - (stop - fromDate), fromDate - 1)

end AnalyticsBackend.Analytics
