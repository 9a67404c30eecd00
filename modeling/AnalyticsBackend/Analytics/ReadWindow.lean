import AnalyticsBackend.Analytics.ReadBack
import AnalyticsBackend.Analytics.WallClock
import Mathlib.Data.List.DropRight
import Mathlib.Data.List.Flatten

/-!
# Reading a window back

A window is written out with the texts of its two instants. The parser of boundaries reads such a text
as the same instant from the year 100 to the year 9999, and not at all outside of these years.
-/

namespace AnalyticsBackend.Analytics

open Lib Lib.Calendar

/-! ## The text of an instant -/

theorem not_space_of_isDigit {c : Char} (digit : c.isDigit = true) : isJsSpace c = false := by
  have bounds : 48 ≤ c.toNat ∧ c.toNat ≤ 57 := by
    simpa [Char.isDigit, UInt32.le_iff_toNat_le] using digit
  simp [isJsSpace]
  omega

theorem not_space_of_padLeft {width n : Nat} {c : Char} (mem : c ∈ (padLeft width n).toList) :
    isJsSpace c = false :=
  not_space_of_isDigit (isDigit_padLeft mem)

theorem trim_isoText (t : Int) : trim (isoText t) = isoText t := by
  have padded (width n : Nat) : ∀ c ∈ (padLeft width n).toList, isJsSpace c = false :=
    fun c mem => not_space_of_padLeft mem
  have mark (s : String) (known : s ∈ ["-", "T", ":", ".", "Z", "+"]) :
      ∀ c ∈ s.toList, isJsSpace c = false := by
    have all : ∀ s ∈ ["-", "T", ":", ".", "Z", "+"], s.toList.all (!isJsSpace ·) = true := by
      decide +kernel
    intro c mem
    exact (Bool.not_eq_true' _).mp (List.all_eq_true.mp (all s known) c mem)
  have year : ∀ c ∈ (if 0 ≤ getUTCFullYear t ∧ getUTCFullYear t ≤ 9999 then
      padLeft 4 (getUTCFullYear t).toNat
      else (if getUTCFullYear t < 0 then "-" else "+") ++ padLeft 6 (getUTCFullYear t).natAbs).toList,
      isJsSpace c = false := by
    split
    · exact padded _ _
    · rw [String.toList_append]
      refine List.forall_mem_append.mpr ⟨?_, padded _ _⟩
      split
      · exact mark "-" (by decide)
      · exact mark "+" (by decide)
  refine trim_of_no_space ?_
  simp only [isoText, String.toList_append, List.forall_mem_append]
  exact ⟨⟨⟨⟨⟨⟨⟨⟨⟨⟨⟨⟨⟨year, mark "-" (by decide)⟩, padded _ _⟩, mark "-" (by decide)⟩, padded _ _⟩,
    mark "T" (by decide)⟩, padded _ _⟩, mark ":" (by decide)⟩, padded _ _⟩, mark ":" (by decide)⟩,
    padded _ _⟩, mark "." (by decide)⟩, padded _ _⟩, mark "Z" (by decide)⟩

section Texts

variable {t : Int}

theorem clock_bounds (t : Int) : 0 ≤ timeInDay t ∧ timeInDay t < 86400000 := by
  unfold timeInDay msPerDay
  omega

theorem parseDate_isoText (from' : 0 ≤ getUTCFullYear t) (until' : getUTCFullYear t ≤ 9999) :
    parseDate (isoText t).toList = some (dateOf t, clockText t) := by
  have month : 0 ≤ getUTCMonth t ∧ getUTCMonth t < 12 := by
    unfold getUTCMonth
    omega
  have day : 1 ≤ getUTCDate t ∧ getUTCDate t ≤ 31 := by
    have spec := monthOf_spec (Calendar.day t)
    have next := monthStart_succ (monthOf (Calendar.day t))
    unfold getUTCDate
    omega
  rw [isoText_toList from' until', parseDate, takeDigits_padLeft (by decide) (by omega)]
  simp only [Option.bind_eq_bind, Option.bind_some, expect, if_true]
  rw [takeDigits_padLeft (by decide) (by omega)]
  simp only [Option.bind_some, if_true]
  rw [takeDigits_padLeft (by decide) (by omega)]
  simp only [Option.bind_some, dateOf, Option.some.injEq, Prod.mk.injEq, CalendarDate.mk.injEq,
    and_true]
  omega

theorem parseClock_clockText (date : CalendarDate) : parseClock date (clockText t).tail =
    some ({ wallTime t with year := date.year, month := date.month, day := date.day }, ['Z']) := by
  have bounds := clock_bounds t
  rw [clockText, List.cons_append, List.tail_cons, parseClock, takeDigits_padLeft (by decide) (by omega)]
  simp only [Option.bind_eq_bind, Option.bind_some, expect, if_true]
  rw [takeDigits_padLeft (by decide) (by omega)]
  simp only [Option.bind_some, if_true]
  rw [takeDigits_padLeft (by decide) (by omega)]
  simp only [Option.bind_some, if_true, parseFraction]
  rw [takeDigits_padLeft (by decide) (by omega)]
  simp only [wallTime, Option.some.injEq, Prod.mk.injEq, WallTime.mk.injEq, and_true, true_and]
  omega

theorem validCalendar_dateOf (from' : 0 ≤ getUTCFullYear t) :
    validCalendar (dateOf t).year (dateOf t).month (dateOf t).day = true ↔ 100 ≤ getUTCFullYear t := by
  have year : (dateOfDay (day t)).year = getUTCFullYear t := by rw [dateOf_day]; rfl
  rw [validCalendar, beq_iff_eq]
  constructor
  · intro same
    by_contra early
    have first : 1 ≤ getUTCDate t := getUTCDate_pos t
    have month : 0 ≤ getUTCMonth t := by
      unfold getUTCMonth
      omega
    have days : monthStart (12 * (1900 + getUTCFullYear t)) ≤
        makeDay (1900 + getUTCFullYear t) (getUTCMonth t) (getUTCDate t) := by
      have := monthStart_strictMono.monotone
        (show 12 * (1900 + getUTCFullYear t) ≤ 12 * (1900 + getUTCFullYear t) + getUTCMonth t by omega)
      unfold makeDay
      omega
    have late := (year_dateOfDay _ _).mpr days
    have read : dateUTC (getUTCFullYear t) (getUTCMonth t + 1 - 1) (getUTCDate t) =
        midnight (makeDay (1900 + getUTCFullYear t) (getUTCMonth t) (getUTCDate t)) := by
      unfold dateUTC midnight makeDate
      rw [if_pos (by omega), Int.add_sub_cancel, Int.add_zero]
    have shown := congrArg CalendarDate.year same
    simp only [dateOf] at shown
    rw [read] at shown
    have : (dateOfDay (makeDay (1900 + getUTCFullYear t) (getUTCMonth t) (getUTCDate t))).year =
      getUTCFullYear t := shown
    omega
  · intro late
    have century : century ≤ day t := (year_dateOfDay (day t) 100).mp (year ▸ late)
    have date := dateUTC_dateOfDay century
    rw [dateOf_day] at date
    rw [date]
    exact dateOf_day t

/-- The years whose instants are read back from their texts. -/
def readable (t : Int) : Bool := 100 ≤ getUTCFullYear t && getUTCFullYear t ≤ 9999

theorem parseDate_signed (outside : ¬(0 ≤ getUTCFullYear t ∧ getUTCFullYear t ≤ 9999)) :
    parseDate (isoText t).toList = none := by
  have signed : ∃ sign rest, (isoText t).toList = sign :: rest ∧ digitValue sign = none := by
    simp only [isoText, if_neg outside, String.toList_append]
    split
    · exact ⟨'-', _, rfl, by decide⟩
    · exact ⟨'+', _, rfl, by decide⟩
  obtain ⟨sign, rest, is, none⟩ := signed
  rw [is, parseDate, takeDigits, none]
  rfl

theorem parseBoundaryText_isoText (t : Int) :
    parseBoundaryText (isoText t) = if readable t then some (.instant t) else none := by
  rw [parseBoundaryText, trim_isoText]
  by_cases inside : 0 ≤ getUTCFullYear t ∧ getUTCFullYear t ≤ 9999
  · have clock := parseClock_clockText (t := t) (dateOf t)
    have bounds := clock_bounds t
    have starts : clockText t = 'T' :: (clockText t).tail := by
      rw [clockText, List.cons_append, List.tail_cons]
    rw [parseDate_isoText inside.1 inside.2, starts]
    simp only [true_or, if_true, clock]
    have hours : ¬(23 < (wallTime t).hour ∨ 59 < (wallTime t).minute ∨ 59 < (wallTime t).second) := by
      unfold wallTime
      dsimp only
      omega
    by_cases late : 100 ≤ getUTCFullYear t
    · have valid := (validCalendar_dateOf inside.1).mpr late
      have century : midnight century ≤ t := by
        have days : century ≤ day t := (year_dateOfDay (day t) 100).mp (by rw [dateOf_day]; exact late)
        unfold midnight day msPerDay at *
        omega
      have read := utcOf_wallTime century
      rw [if_neg (by simpa [valid] using hours), if_neg (by simp)]
      rw [if_pos (by simp [readable, late, inside.2])]
      have same : utcOf (wallTime t) - 0 = t := by rw [read, Int.sub_zero]
      exact congrArg (fun ms => some (Boundary.instant ms)) same
    · have invalid : validCalendar (dateOf t).year (dateOf t).month (dateOf t).day = false := by
        rw [← Bool.not_eq_true, validCalendar_dateOf inside.1]
        exact late
      rw [if_pos (by simp [invalid]), if_neg (by simp [readable, late])]
  · rw [parseDate_signed inside, if_neg]
    simp only [readable, Bool.and_eq_true, decide_eq_true_eq]
    omega

end Texts

/-! ## The range of a window -/

theorem isEmpty_isoText (t : Int) : (isoText t).isEmpty = false := by
  have chars : (isoText t).toList ≠ [] := by simp [isoText]
  by_contra empty
  rw [Bool.not_eq_false, String.isEmpty_iff] at empty
  exact chars (by rw [empty]; rfl)

/-- The `from` or `to` of a window. -/
def endJs (edge : Option Int) : Js := (edge.map fun t => .str (isoText t)).getD .undefined

theorem endJs_some (t : Int) : endJs (some t) = .str (isoText t) := rfl

@[simp] theorem isBlank_endJs (edge : Option Int) : (endJs edge).isBlank = edge.isNone := by
  cases edge with
  | none => rfl
  | some t => exact isEmpty_isoText t

theorem checkBoundary_endJs {edge : Option Int} (read : ∀ t ∈ edge, readable t = true) (path : String) :
    checkBoundary (endJs edge) path = pure (edge.map fun t => (.instant t, isoText t)) := by
  cases edge with
  | none => rfl
  | some t =>
      have parsed := parseBoundaryText_isoText t
      rw [if_pos (read t rfl)] at parsed
      unfold checkBoundary
      rw [if_neg (by simp), endJs_some]
      simp only [parseBoundaryParts, parsed, trim_isoText, Option.map_some]

theorem readable_of_clean {edge : Option Int} {path : String}
    (clean : (checkBoundary (endJs edge) path).errors = []) : ∀ t ∈ edge, readable t = true := by
  rintro t is
  obtain rfl : edge = some t := is
  by_contra early
  have parsed := parseBoundaryText_isoText t
  rw [if_neg early] at parsed
  unfold checkBoundary at clean
  rw [if_neg (by simp), endJs_some] at clean
  simp [parseBoundaryParts, parsed] at clean

def isDateColumn (name : String) : Bool := isSafeText name && !NOT_DATES.contains name

theorem checkRangeField_eq_pure {name : String} (date : isDateColumn name = true) (path : String) :
    checkRangeField (.str name) path = pure name := by
  rw [isDateColumn, Bool.and_eq_true, Bool.not_eq_true'] at date
  rw [checkRangeField, if_neg (by simp [Js.isBlank, not_isEmpty_of_safe date.1]), safeName_str date.1]
  dsimp only
  rw [failIf_eq_pure date.2]
  rfl

theorem clean_checkRangeField {value : Js} {path : String}
    (clean : (checkRangeField value path).errors = []) :
    isDateColumn (checkRangeField value path).value = true := by
  unfold checkRangeField at clean ⊢
  split at clean
  · exact nomatch clean
  · rename_i given
    rw [if_neg given]
    cases is : safeName value with
    | none => simp [is] at clean
    | some name =>
        simp only [is, Check.bind_errors, Check.pure_errors, List.append_nil, Check.bind_value,
          Check.pure_value] at clean ⊢
        rw [isDateColumn, (safeName_eq is).2, good_of_failIf clean]
        rfl

/-- The windows that are read back from what they are written as. -/
structure Bounds.Readable (b : Bounds) : Prop where
  column : isDateColumn b.field = true
  bounded : b.fromDate.isSome = true ∨ b.toDate.isSome = true
  first : ∀ t ∈ b.fromDate, readable t = true
  last : ∀ t ∈ b.toDate, readable t = true
  ordered : ∀ a ∈ b.fromDate, ∀ c ∈ b.toDate, a ≤ c

/-- The range that a window is read as. -/
def Bounds.range (b : Bounds) : DateRange where
  field := b.field
  preset := none
  fromText := b.fromDate.map isoText
  toText := b.toDate.map isoText

/-- The properties that a window is written with. -/
theorem boundsJs_eq (b : Bounds) : ∃ fields, b.js = .obj fields ∧
    (∀ entry ∈ fields, entry.1 ∈ ["field", "preset", "from", "to"]) ∧
    field fields "field" = .str b.field ∧ field fields "preset" = .undefined ∧
    field fields "from" = endJs b.fromDate ∧ field fields "to" = endJs b.toDate := by
  refine ⟨_, rfl, fun entry mem => ?_, ?_⟩
  · rcases List.mem_append.mp mem with mem | mem
    · rcases List.mem_cons.mp mem with rfl | mem
      · simp
      · simp [mem_optional mem]
    · simp [mem_optional mem]
  · simp only [List.cons_append, List.nil_append, field_cons, field_optional, field_lone, String.reduceEq,
      if_true, if_false, endJs, and_self]

theorem validateDateRange_js (rt : Runtime) {b : Bounds} (readable : b.Readable) (path : String) :
    validateDateRange rt b.js path = pure b.range := by
  obtain ⟨fields, is, known, column, preset, first, last⟩ := boundsJs_eq b
  rw [validateDateRange, is]
  dsimp only [Js.plainObject]
  rw [rejectUnknownKeys_eq_pure known, Check.pure_bind, column, checkRangeField_eq_pure readable.column,
    Check.pure_bind, preset, first, last]
  have asked : choice DatePreset.all DatePreset.text .undefined = none := rfl
  have some' : ¬(!(!(endJs b.fromDate).isBlank) && !(!(endJs b.toDate).isBlank)) = true := by
    have bounded := readable.bounded
    cases from' : b.fromDate with
    | some t => simp
    | none =>
        rw [from'] at bounded
        obtain ⟨t, until'⟩ := Option.isSome_iff_exists.mp (bounded.resolve_left (by simp))
        simp [until']
  rw [asked, if_neg (by simp [Js.isNullish]), if_neg (by simp), if_neg some', checkCustomRange, first, last,
    checkBoundary_endJs readable.first, checkBoundary_endJs readable.last]
  simp only [Check.pure_bind]
  have ordered := readable.ordered
  rw [Bounds.range]
  generalize b.fromDate = first at ordered
  generalize b.toDate = last at ordered
  match first, last with
  | none, none | none, some c | some a, none => rfl
  | some a, some c =>
      have notBefore : ¬c < a := not_lt.mpr (ordered a rfl c rfl)
      simp only [Option.map_some]
      rw [failIf_eq_pure (by simp [boundaryInstant, notBefore])]
      rfl

/-- A window that is read back has an end and only readable ends. -/
theorem readable_of_validateDateRange {rt : Runtime} {b : Bounds} {path : String}
    (clean : (validateDateRange rt b.js path).errors = []) :
    (b.fromDate.isSome = true ∨ b.toDate.isSome = true) ∧
      (∀ t ∈ b.fromDate, readable t = true) ∧ ∀ t ∈ b.toDate, readable t = true := by
  obtain ⟨fields, is, -, column, preset, first, last⟩ := boundsJs_eq b
  rw [validateDateRange, is] at clean
  dsimp only [Js.plainObject] at clean
  rw [column, preset, first, last] at clean
  have asked : choice DatePreset.all DatePreset.text .undefined = none := rfl
  simp only [Check.bind_errors, List.append_eq_nil_iff] at clean
  obtain ⟨-, -, clean⟩ := clean
  rw [asked, if_neg (by simp [Js.isNullish]), if_neg (by simp)] at clean
  split at clean
  · exact nomatch clean
  · rename_i some'
    simp only [checkCustomRange, first, last, Check.bind_errors, List.append_eq_nil_iff] at clean
    refine ⟨?_, readable_of_clean clean.1, readable_of_clean clean.2.1⟩
    cases from' : b.fromDate with
    | some t => simp
    | none =>
        cases until' : b.toDate with
        | some t => simp
        | none => exact absurd (by simp [from', until']) some'

/-- The window that an absolute range stands for, in every zone and at every instant. -/
theorem resolveDateRange_range (zones : Zones) {b : Bounds} (first : ∀ t ∈ b.fromDate, readable t = true)
    (last : ∀ t ∈ b.toDate, readable t = true) (timezone : String) (now : Int) :
    resolveDateRange zones b.range timezone now =
      { field := b.field, preset := none, fromDate := b.fromDate, toDate := b.toDate } := by
  have back (edge : Option Int) (read : ∀ t ∈ edge, readable t = true) (tz : String) (isEnd : Bool) :
      ((edge.map isoText).bind parseBoundaryText).map (fun p => boundaryInstant zones p tz isEnd) =
        edge := by
    cases edge with
    | none => rfl
    | some t =>
        rw [Option.map_some, Option.bind_some, parseBoundaryText_isoText, if_pos (read t rfl)]
        rfl
  simp only [resolveDateRange, Bounds.range, back _ first, back _ last]

theorem column_of_validateDateRange {rt : Runtime} {value : Js} {path : String}
    (clean : (validateDateRange rt value path).errors = []) :
    isDateColumn (validateDateRange rt value path).value.field = true := by
  unfold validateDateRange at clean ⊢
  cases object : value.plainObject with
  | none => simp [object] at clean
  | some r =>
      simp only [object, Check.bind_errors, List.append_eq_nil_iff, Check.bind_value] at clean ⊢
      obtain ⟨-, column, clean⟩ := clean
      have column := clean_checkRangeField column
      generalize (checkRangeField (field r "field") (path ++ ".field")).value = name at *
      split
      · exact column
      · split
        · exact column
        · split
          · exact column
          · unfold checkCustomRange
            dsimp only [Check.bind_value]
            split <;> exact column

theorem resolveDateRange_field (zones : Zones) (range : DateRange) (timezone : String) (now : Int) :
    (resolveDateRange zones range timezone now).field = range.field := by
  unfold resolveDateRange
  dsimp only
  split <;> rfl

/-! ## Time zones -/

/-- What the runtime's spelling of a zone is: a short name that it knows and spells the same. -/
structure Zones.Canonical (zones : Zones) : Prop where
  utc : zones.known DEFAULT_TIMEZONE = true
  known : ∀ name, zones.known name = true → zones.known (zones.spelling name) = true
  trimmed : ∀ name, zones.known name = true → trim (zones.spelling name) = zones.spelling name
  short : ∀ name, zones.known name = true →
    (zones.spelling name).isEmpty = false ∧ jsLength (zones.spelling name) ≤ 64
  again : ∀ name, zones.known name = true →
    zones.spelling (zones.spelling name) = zones.spelling name

theorem trim_sublist (s : String) : (trim s).toList.Sublist s.toList := by
  rw [trim, String.toList_ofList]
  refine .trans ?_ (List.dropWhile_sublist isJsSpace)
  have back := (List.dropWhile_sublist isJsSpace
    (l := (s.toList.dropWhile isJsSpace).reverse)).reverse
  rwa [List.reverse_reverse] at back

theorem jsLength_trim (s : String) : jsLength (trim s) ≤ jsLength s := by
  unfold jsLength utf16
  exact ((trim_sublist s).flatMap _).length_le

theorem trim_trim (s : String) : trim (trim s) = trim s := by
  have front : (s.toList.dropWhile isJsSpace).dropWhile isJsSpace = s.toList.dropWhile isJsSpace :=
    List.dropWhile_idempotent _ _
  have cut : trim s = String.ofList ((s.toList.dropWhile isJsSpace).rdropWhile isJsSpace) := rfl
  generalize s.toList.dropWhile isJsSpace = l at front cut
  have starts : (l.rdropWhile isJsSpace).dropWhile isJsSpace = l.rdropWhile isJsSpace := by
    obtain ⟨back, whole⟩ := List.rdropWhile_prefix isJsSpace l
    cases is : l.rdropWhile isJsSpace with
    | nil => rfl
    | cons c rest =>
        rw [is, List.cons_append] at whole
        rw [← whole] at front
        by_cases space : isJsSpace c = true
        · rw [List.dropWhile_cons_of_pos space] at front
          have shorter := (List.dropWhile_sublist isJsSpace (l := rest ++ back)).length_le
          rw [front, List.length_cons] at shorter
          omega
        · rw [List.dropWhile_cons_of_neg space]
  have twice : trim (String.ofList (l.rdropWhile isJsSpace)) =
      String.ofList (((l.rdropWhile isJsSpace).dropWhile isJsSpace).rdropWhile isJsSpace) := by
    rw [trim, String.toList_ofList]
    rfl
  rw [cut, twice, starts, List.rdropWhile_idempotent]

theorem trim_utc : trim DEFAULT_TIMEZONE = DEFAULT_TIMEZONE := by decide

section Zone

variable {zones : Zones} (canonical : zones.Canonical) (value : String)
include canonical

theorem valid_normalizeTimeZone : isValidTimeZone zones (normalizeTimeZone zones value) = true := by
  unfold normalizeTimeZone
  split
  · rename_i valid
    simp only [isValidTimeZone, Bool.and_eq_true, Bool.not_eq_true', decide_eq_true_eq] at valid
    obtain ⟨⟨some, short⟩, known⟩ := valid
    split
    · have short := (jsLength_trim value).trans short
      rw [isValidTimeZone, trim_trim, some, known, decide_eq_true short]
      rfl
    · obtain ⟨there, short⟩ := canonical.short _ known
      rw [isValidTimeZone, canonical.trimmed _ known, canonical.known _ known, there,
        decide_eq_true short]
      rfl
  · rw [isValidTimeZone, trim_utc, canonical.utc]
    decide

theorem normalizeTimeZone_again : normalizeTimeZone zones (normalizeTimeZone zones value) =
    normalizeTimeZone zones value := by
  have valid := valid_normalizeTimeZone canonical value
  rw [normalizeTimeZone, if_pos valid]
  clear valid
  unfold normalizeTimeZone
  split
  · rename_i valid
    simp only [isValidTimeZone, Bool.and_eq_true] at valid
    obtain ⟨-, known⟩ := valid
    split
    · rename_i cased
      rw [trim_trim, if_pos cased]
    · rw [canonical.trimmed _ known]
      split
      · rfl
      · exact canonical.again _ known
  · rw [trim_utc, if_pos (by decide)]

end Zone

end AnalyticsBackend.Analytics
