import AnalyticsBackend.Analytics.BusinessTime
import AnalyticsBackend.Analytics.Pipeline
import AnalyticsBackend.Analytics.SensitiveFields

/-!
# The query contract

`validateQuery` and `normalizeQuery` of `services/analytics.engine.js`: a query as a client
sends it is read into its typed parts, with every problem recorded under the path of its
field. A query is accepted when nothing was recorded.
-/

namespace AnalyticsBackend.Analytics

open Lib Lib.Mongo

/-! ## Reading with errors -/

/-- A value read from an input, with the problems found on the way (`fail`). -/
structure Check (α : Type) where
  errors : List FieldError
  value : α

namespace Check

variable {α β : Type}

protected def pure (a : α) : Check α := ⟨[], a⟩

protected def bind (x : Check α) (f : α → Check β) : Check β :=
  ⟨x.errors ++ (f x.value).errors, (f x.value).value⟩

instance : Monad Check where
  pure := Check.pure
  bind := Check.bind

@[simp] theorem pure_errors (a : α) : (pure a : Check α).errors = [] := rfl

@[simp] theorem pure_value (a : α) : (pure a : Check α).value = a := rfl

@[simp] theorem bind_errors (x : Check α) (f : α → Check β) :
    (x >>= f).errors = x.errors ++ (f x.value).errors := rfl

@[simp] theorem bind_value (x : Check α) (f : α → Check β) :
    (x >>= f).value = (f x.value).value := rfl

end Check

/-- Record a problem under a path. -/
def fail (path message : String) : Check Unit := ⟨[{ field := path, message }], ()⟩

@[simp] theorem fail_errors (path message : String) :
    (fail path message).errors = [{ field := path, message }] := rfl

/-- Record a problem when `bad`. -/
def failIf (bad : Bool) (path message : String) : Check Unit :=
  if bad then fail path message else pure ()

@[simp] theorem failIf_errors (bad : Bool) (path message : String) :
    (failIf bad path message).errors = if bad then [{ field := path, message }] else [] := by
  cases bad with
  | true => rfl
  | false => rfl

/-- Read the items of an array with their positions. -/
def checkItems {α β : Type} (f : Nat → α → Check β) : Nat → List α → Check (List β)
  | _, [] => pure []
  | i, a :: rest => do
      let b ← f i a
      let bs ← checkItems f (i + 1) rest
      pure (b :: bs)

theorem checkItems_accepted {α β : Type} {f : Nat → α → Check β} {i : Nat} {items : List α}
    (accepted : (checkItems f i items).errors = []) {b : β}
    (member : b ∈ (checkItems f i items).value) :
    ∃ j a, (f j a).errors = [] ∧ (f j a).value = b := by
  induction items generalizing i with
  | nil => exact absurd member List.not_mem_nil
  | cons a rest ih =>
      simp only [checkItems, Check.bind_errors, Check.pure_errors, List.append_nil,
        List.append_eq_nil_iff] at accepted
      simp only [checkItems, Check.bind_value, Check.pure_value, List.mem_cons] at member
      rcases member with rfl | later
      · exact ⟨i, a, accepted.1, rfl⟩
      · exact ih accepted.2 later

/-! ## Names and scalars -/

structure Limits where
  connectorIds : Nat
  filters : Nat
  filterGroups : Nat
  inValues : Nat
  metrics : Nat
  groupBy : Nat
  orderBy : Nat
  nameLength : Nat
  valueLength : Nat
  maxPage : Nat
  maxLimit : Nat

def LIMITS : Limits where
  connectorIds := 50
  filters := 50
  filterGroups := 5
  inValues := 1000
  metrics := 20
  groupBy := 5
  orderBy := 5
  nameLength := 200
  valueLength := 1000
  maxPage := 100000
  maxLimit := 200

/-- The conversions and the arithmetic of the language that a query's values go through:
`Number(text)`, `String(v)` of what is not a string, `JSON.stringify`, `-` and `/`. -/
structure Runtime where
  zones : Zones
  number : String → Magnitude
  show_ : Js → String
  showValue : Value → String
  stringify : List Value → String
  minus : Magnitude → Magnitude → Magnitude
  quotient : Magnitude → Magnitude → Magnitude

/-- A runtime in UTC that reads and shows no numbers. -/
def Runtime.plain : Runtime where
  zones := .utc
  number _ := .nan
  show_ _ := ""
  showValue _ := ""
  stringify _ := ""
  minus _ _ := .nan
  quotient _ _ := .nan

def Runtime.text (rt : Runtime) : Js → String
  | .str s => s
  | v => rt.show_ v

/-- A field or alias name: no `$`, no `.` and no control characters. -/
def isSafeText (s : String) : Bool :=
  !s.isEmpty && jsLength s ≤ LIMITS.nameLength &&
    s.toList.all fun c => c ≠ '$' && c ≠ '.' && 0x20 ≤ c.toNat

/-- `isSafeName`, with the name. -/
def safeName : Js → Option String
  | .str s => if isSafeText s then some s else none
  | _ => none

def isReservedOutputName (name : String) : Bool := name == "_id" || hasPrefix "__" name

def NOT_FILTERABLE : List String := ["ingestedAt", "tenantId"]

def NOT_DATES : List String := ["connectorId", "sourceRowId", "tenantId"]

def SENSITIVE_FIELD_MESSAGE : String :=
  "is a protected field (credential-like column) and cannot be queried"

def UNSAFE_NAME_MESSAGE : String := "must be a field name without \"$\" or \".\""

def scalar : Js → Option Value
  | .null => some .null
  | .bool b => some (.bool b)
  | .num (.finite q) => some (.num { type := .double, value := .finite q })
  | .str s => if jsLength s ≤ LIMITS.valueLength then some (.str s) else none
  | _ => none

def isDatasetId : Js → Bool
  | .str s => isHexId s
  | _ => false

/-- Report the keys that are not allowed. -/
def rejectUnknownKeys (fields : List (String × Js)) (allowed : List String) (path : String) :
    Check Unit := do
  let _ ← checkItems (fun _ (entry : String × Js) =>
    failIf (!allowed.contains entry.1)
      (if path.isEmpty then entry.1 else path ++ "." ++ entry.1) "is not a recognised field") 0 fields
  pure ()

/-! ## The parts of a query -/

def validateConnectorIds (rt : Runtime) (value : Js) (path : String) : Check (List String) :=
  match value with
  | .arr items => do
      failIf (LIMITS.connectorIds < items.length) path s!"at most {LIMITS.connectorIds} datasets"
      let _ ← checkItems (fun i id =>
        failIf (!isDatasetId id) s!"{path}[{i}]" "must be a dataset id") 0 items
      pure (items.map rt.text)
  | _ => do
      fail path "must be an array of dataset ids"
      pure []

inductive FilterOp where
  | eq
  | neq
  | isIn
  | nin
  | range (op : RangeOp)
  | present
  deriving DecidableEq, Repr

def FILTER_OPS : List (String × FilterOp) :=
  [("eq", .eq), ("neq", .neq), ("in", .isIn), ("nin", .nin), ("gt", .range .gt),
    ("gte", .range .gte), ("lt", .range .lt), ("lte", .range .lte), ("exists", .present)]

def rangeBound (rt : Runtime) : Js → Option Number
  | .num (.finite q) => some { type := .double, value := .finite q }
  | .str s =>
      if (trim s).isEmpty then none
      else
        match rt.number s with
        | .finite q => some { type := .double, value := .finite q }
        | _ => none
  | _ => none

/-- The values of an `in` filter; a single scalar is wrapped. -/
def listOf : Js → List Js
  | .arr items => items
  | v => [v]

def booleanOf : Js → Option Bool
  | .bool b => some b
  | .str s => if s = "true" then some true else if s = "false" then some false else none
  | _ => none

/-- The values of an `in` or `nin` filter. -/
def checkValues (field : Js) (value : Js) (path : String) : Check (List Value) := do
  let values := listOf value
  failIf (LIMITS.inValues < values.length) path s!"at most {LIMITS.inValues} values"
  if !values.all fun v => (scalar v).isSome then
    fail path "values must be strings, numbers, booleans or null"
  else
    failIf (field.text = some "connectorId" && !values.all isDatasetId) path
      "values must be dataset ids"
  pure (values.filterMap scalar)

/-- The value of an `eq` or `neq` filter. -/
def checkScalar (field : Js) (value : Js) (path : String) : Check Value := do
  match scalar value with
  | none => do
      fail path s!"must be a string (max {LIMITS.valueLength} characters), number, boolean or null"
      pure .null
  | some v => do
      failIf (field.text = some "connectorId" && !isDatasetId value) path "must be a dataset id"
      pure v

/-- The `op` and `value` of a filter. -/
def checkTest (rt : Runtime) (op : FilterOp) (field value : Js) (path : String) :
    Check FilterTest :=
  match op with
  | .isIn => do
      let values ← checkValues field value path
      pure (.isIn values)
  | .nin => do
      let values ← checkValues field value path
      pure (.nin values)
  | .range op =>
      match rangeBound rt value with
      | some n => pure (.range op n)
      | none => do
          fail path "must be a number (use dateRange to filter dates)"
          pure (.range op { type := .double, value := .nan })
  | .present =>
      match booleanOf value with
      | some b => pure (.present b)
      | none => do
          fail path "must be true or false"
          pure (.present true)
  | .eq => do
      let v ← checkScalar field value path
      pure (.eq v)
  | .neq => do
      let v ← checkScalar field value path
      pure (.neq v)

/-- The field of a filter: a safe name that is neither credential-like nor reserved. -/
def checkFilterField (field : Js) (path : String) : Check String :=
  match safeName field with
  | none => do
      fail path UNSAFE_NAME_MESSAGE
      pure ""
  | some name => do
      if isSensitiveFieldName name then fail path SENSITIVE_FIELD_MESSAGE
      else
        failIf (NOT_FILTERABLE.contains name) path
          (if name = "ingestedAt" then "use dateRange to filter on ingestedAt" else "is not filterable")
      pure name

def validateFilter (rt : Runtime) (value : Js) (path : String) : Check Filter :=
  match value.plainObject with
  | none => do
      fail path "must be an object { field, op, value }"
      pure { field := "", test := .present true }
  | some f => do
      rejectUnknownKeys f ["field", "op", "value"] path
      let name ← checkFilterField (field f "field") (path ++ ".field")
      match (field f "op").text.bind fun s => FILTER_OPS.lookup s with
      | none => do
          fail (path ++ ".op") ("must be one of " ++ String.intercalate ", " (FILTER_OPS.map Prod.fst))
          pure { field := name, test := .present true }
      | some op => do
          let test ← checkTest rt op (field f "field") (field f "value") (path ++ ".value")
          pure { field := name, test }

def validateFilters (rt : Runtime) (value : Js) (path : String) : Check (List Filter) :=
  match value with
  | .arr items => do
      failIf (LIMITS.filters < items.length) path s!"at most {LIMITS.filters} filters"
      checkItems (fun i f => validateFilter rt f s!"{path}[{i}]") 0 items
  | _ => do
      fail path "must be an array"
      pure []

def validateFiltersOp (value : Js) (path : String) : Check FiltersOp :=
  if value.text = some "and" then pure .and
  else if value.text = some "or" then pure .or
  else do
    fail path "must be \"and\" or \"or\""
    pure .and

def choice {α : Type} (all : List α) (text : α → String) (value : Js) : Option α :=
  value.text.bind fun s => all.find? fun a => text a = s

def checkRangeField (value : Js) (path : String) : Check String :=
  if value.isBlank then do
    fail path
      "is required: name the date column to filter on (use \"ingestedAt\" for ingestion time)"
    pure ""
  else
    match safeName value with
    | none => do
        fail path UNSAFE_NAME_MESSAGE
        pure ""
    | some name => do
        failIf (NOT_DATES.contains name) path "must be a date column"
        pure name

/-- One end of a custom range: absent, or a parsed boundary with its text. -/
def checkBoundary (value : Js) (path : String) : Check (Option (Boundary × String)) :=
  if value.isBlank then pure none
  else
    match parseBoundaryParts value, value with
    | some parts, .date (some ms) => pure (some (parts, isoText ms))
    | some parts, .str s => pure (some (parts, trim s))
    | _, _ => do
        fail path "must be an ISO-8601 date (YYYY-MM-DD) or date-time"
        pure none

def DatePreset.relative : DatePreset → Bool
  | .custom => false
  | _ => true

def checkCustomRange (rt : Runtime) (r : List (String × Js)) (name : String)
    (preset : Option DatePreset) (path : String) : Check DateRange := do
  let first ← checkBoundary (field r "from") (path ++ ".from")
  let last ← checkBoundary (field r "to") (path ++ ".to")
  -- Ends of the same kind can be ordered without knowing the time zone.
  match first, last with
  | some (a, _), some (b, _) =>
      failIf (a.sameKind b && boundaryInstant rt.zones b DEFAULT_TIMEZONE true <
        boundaryInstant rt.zones a DEFAULT_TIMEZONE false) path "from must be on or before to"
  | _, _ => pure ()
  pure { field := name, preset, fromText := first.map Prod.snd, toText := last.map Prod.snd }

def validateDateRange (rt : Runtime) (value : Js) (path : String) : Check DateRange :=
  match value.plainObject with
  | none => do
      fail path "must be an object { field, preset?, from?, to? }"
      pure { field := "", preset := none, fromText := none, toText := none }
  | some r => do
      rejectUnknownKeys r ["field", "preset", "from", "to"] path
      let name ← checkRangeField (field r "field") (path ++ ".field")
      let hasFrom := !(field r "from").isBlank
      let hasTo := !(field r "to").isBlank
      let preset := choice DatePreset.all DatePreset.text (field r "preset")
      if !(field r "preset").isNullish && preset.isNone then do
        fail (path ++ ".preset")
          ("must be one of " ++ String.intercalate ", " (DatePreset.all.map DatePreset.text))
        pure { field := name, preset := none, fromText := none, toText := none }
      else if preset.any DatePreset.relative then do
        let named := (preset.map DatePreset.text).getD ""
        failIf hasFrom (path ++ ".from") s!"is not allowed with the relative preset \"{named}\""
        failIf hasTo (path ++ ".to") s!"is not allowed with the relative preset \"{named}\""
        pure { field := name, preset, fromText := none, toText := none }
      else if !hasFrom && !hasTo then do
        fail path (if preset = some .custom then "a custom range needs from and/or to"
          else "needs a preset or from/to")
        pure { field := name, preset, fromText := none, toText := none }
      else checkCustomRange rt r name preset path

def checkAlias (value : Js) (path : String) : Check (Option String) :=
  if value.isBlank then pure none
  else
    match safeName value with
    | some name => pure (some name)
    | none => do
        fail path "must be a name without \"$\" or \".\""
        pure none

def checkMetricName (seen : List (String × Nat)) (m : Metric) (path : String) : Check Unit := do
  let name := metricAlias m
  failIf (isReservedOutputName name) (path ++ ".alias")
    s!"\"{name}\" is reserved (names starting with \"__\" are used internally)"
  match seen.lookup name with
  | some i => fail (path ++ ".alias") s!"duplicates the name of metrics[{i}] (\"{name}\")"
  | none => pure ()

def isLowerLetter (c : Char) : Bool := 'a' ≤ c && c ≤ 'z'

def isKeyChar (c : Char) : Bool := isLowerLetter c || c.isDigit || c = '_'

def isRefVersion (s : List Char) : Bool :=
  match s with
  | [] => false
  | c :: _ => c ≠ '0' && s.all Char.isDigit && s.length ≤ 6

/-- `METRIC_REF_RE`: `metric:<key>` or `metric:<key>@<version>`. -/
def isMetricRef (s : String) : Bool :=
  hasPrefix "metric:" s &&
    match splitChars '@' (s.toList.drop "metric:".length) with
    | [key] => isKey key
    | [key, version] => isKey key && isRefVersion version
    | _ => false
where
  isKey : List Char → Bool
    | [] => false
    | c :: rest => isLowerLetter c && rest.all isKeyChar && rest.length ≤ 63

def validateMetricRef (seen : List (String × Nat)) (m : List (String × Js)) (path : String) :
    Check Metric := do
  rejectUnknownKeys m ["ref", "alias"] path
  let ref := ((field m "ref").text).getD ""
  failIf (!isMetricRef ref) (path ++ ".ref")
    "must be \"metric:<key>\" or \"metric:<key>@<version>\""
  let name ← checkAlias (field m "alias") (path ++ ".alias")
  let out := Metric.ref ref name
  checkMetricName seen out path
  pure out

def checkMetricField (op : Option MetricOp) (value : Js) (path : String) :
    Check (Option String) :=
  if value.isBlank then do
    match op with
    | some .count | none => pure none
    | some op => do
        fail path s!"is required for {op.text}"
        pure none
  else
    match safeName value with
    | none => do
        fail path UNSAFE_NAME_MESSAGE
        pure none
    | some name =>
        if isSensitiveFieldName name then do
          fail path SENSITIVE_FIELD_MESSAGE
          pure none
        else pure (some name)

/-- A plain metric. An operator that was refused stands as a count while the rest is read. -/
def validatePlainMetric (seen : List (String × Nat)) (m : List (String × Js)) (path : String) :
    Check Metric := do
  rejectUnknownKeys m ["field", "op", "alias"] path
  let op := choice MetricOp.all MetricOp.text (field m "op")
  failIf op.isNone (path ++ ".op")
    ("must be one of " ++ String.intercalate ", " (MetricOp.all.map MetricOp.text))
  let name ← checkMetricField op (field m "field") (path ++ ".field")
  let shown ← checkAlias (field m "alias") (path ++ ".alias")
  let out := Metric.plain (op.getD .count) name shown
  checkMetricName seen out path
  pure out

def validateMetric (seen : List (String × Nat)) (value : Js) (path : String) :
    Check (Option Metric) :=
  match value.plainObject with
  | none => do
      fail path "must be an object { op, field?, alias? }"
      pure none
  | some m =>
      match field m "ref" with
      | .undefined => do
          let out ← validatePlainMetric seen m path
          pure (some out)
      | _ => do
          let out ← validateMetricRef seen m path
          pure (some out)

def validateMetricList (path : String) :
    Nat → List (String × Nat) → List Js → Check (List (Option Metric))
  | _, _, [] => pure []
  | i, seen, value :: rest => do
      let m ← validateMetric seen value s!"{path}[{i}]"
      let seen :=
        match m with
        | some m => if (seen.lookup (metricAlias m)).isSome then seen else (metricAlias m, i) :: seen
        | none => seen
      let ms ← validateMetricList path (i + 1) seen rest
      pure (m :: ms)

def validateMetrics (value : Js) (path : String) : Check (List (Option Metric)) :=
  match value with
  | .arr items => do
      failIf (LIMITS.metrics < items.length) path s!"at most {LIMITS.metrics} metrics"
      validateMetricList path 0 [] items
  | _ => do
      fail path "must be an array"
      pure []

def itemOf : Js → Option (List (String × Js))
  | .str s => some [("field", .str s)]
  | v => v.plainObject

/-- A group field; `shorthand` tells whether the item was a string. -/
def checkGroupField (shorthand : Bool) (seen : List String) (value : Js) (path : String) :
    Check String :=
  match safeName value with
  | none => do
      fail (if shorthand then path else path ++ ".field") UNSAFE_NAME_MESSAGE
      pure ""
  | some name => do
      if isReservedOutputName name then
        fail (path ++ ".field")
          s!"\"{name}\" is reserved (names starting with \"__\" are used internally)"
      else if isSensitiveFieldName name then fail (path ++ ".field") SENSITIVE_FIELD_MESSAGE
      else failIf (seen.contains name) (path ++ ".field") "is already grouped on"
      pure name

def checkBucket (name : String) (value : Js) (path : String) : Check (Option DateBucket) :=
  if value.isNullish then pure none
  else
    match choice buckets bucketText value with
    | none => do
        fail path ("must be one of " ++ String.intercalate ", " (buckets.map bucketText))
        pure none
    | some bucket =>
        if NOT_DATES.contains name then do
          fail path "can only bucket a date column"
          pure none
        else pure (some bucket)
where
  buckets : List DateBucket := [.day, .week, .month, .quarter, .year]
  bucketText : DateBucket → String
    | .day => "day"
    | .week => "week"
    | .month => "month"
    | .quarter => "quarter"
    | .year => "year"

def validateGroup (seen : List String) (value : Js) (path : String) : Check (Option GroupBy) :=
  match itemOf value with
  | none => do
      fail path "must be a field name or an object { field, bucket? }"
      pure none
  | some item => do
      rejectUnknownKeys item ["field", "bucket"] path
      let name ← checkGroupField value.text.isSome seen (field item "field") path
      let bucket ← checkBucket name (field item "bucket") (path ++ ".bucket")
      pure (some { field := name, bucket })

def validateGroupList (path : String) :
    Nat → List String → List Js → Check (List (Option GroupBy))
  | _, _, [] => pure []
  | i, seen, value :: rest => do
      let g ← validateGroup seen value s!"{path}[{i}]"
      let gs ← validateGroupList path (i + 1) ((g.map GroupBy.field).toList ++ seen) rest
      pure (g :: gs)

def validateGroupBy (value : Js) (path : String) : Check (List (Option GroupBy)) :=
  match value with
  | .arr items => do
      failIf (LIMITS.groupBy < items.length) path s!"at most {LIMITS.groupBy} fields"
      validateGroupList path 0 [] items
  | _ => do
      fail path "must be an array"
      pure []

def checkOrderField (value : Js) (path : String) : Check String :=
  match safeName value with
  | none => do
      fail path UNSAFE_NAME_MESSAGE
      pure ""
  | some name => do
      if name = "_id" then fail path s!"\"{name}\" is reserved"
      else failIf (isSensitiveFieldName name) path SENSITIVE_FIELD_MESSAGE
      pure name

/-- The text of a value when it is there: `direction ?? dir`. -/
def firstOf (a b : Js) : Js := if a.isNullish then b else a

/-- `item.direction !== item.dir`; two objects are never the same. -/
def differs : Js → Js → Bool
  | .null, .null => false
  | .bool a, .bool b => a != b
  | .num a, .num b => a == .nan || a != b
  | .str a, .str b => a != b
  | _, _ => true

def isUndefined : Js → Bool
  | .undefined => true
  | _ => false

def validateOrder (value : Js) (path : String) : Check (Option OrderBy) :=
  match itemOf value with
  | none => do
      fail path "must be a field name or an object { field, direction? }"
      pure none
  | some item => do
      rejectUnknownKeys item ["field", "direction", "dir"] path
      let name ← checkOrderField (field item "field") (path ++ ".field")
      let direction := field item "direction"
      let dir := field item "dir"
      failIf (!isUndefined direction && !isUndefined dir && differs direction dir)
        (path ++ ".dir") "conflicts with direction"
      let asked := firstOf direction (firstOf dir (.str "asc"))
      failIf (asked.text ≠ some "asc" && asked.text ≠ some "desc")
        (path ++ (if isUndefined direction then ".dir" else ".direction"))
        "must be \"asc\" or \"desc\""
      pure (some { field := name, direction := if asked.text = some "desc" then .desc else .asc })

def validateOrderBy (value : Js) (path : String) : Check (List (Option OrderBy)) :=
  match value with
  | .arr items => do
      failIf (LIMITS.orderBy < items.length) path s!"at most {LIMITS.orderBy} fields"
      checkItems (fun i o => validateOrder o s!"{path}[{i}]") 0 items
  | _ => do
      fail path "must be an array"
      pure []

def intOf (rt : Runtime) : Js → Option Int
  | .num n => n.integer
  | .str s =>
      if !(trim s).isEmpty && (trim s).toList.all Char.isDigit then (rt.number s).integer
      else none
  | _ => none

def checkWhole (rt : Runtime) (value : Js) (most : Nat) (path : String) : Check (Option Nat) :=
  if value.isNullish then pure none
  else
    match intOf rt value with
    | some n =>
        if 1 ≤ n ∧ n ≤ most then pure (some n.toNat)
        else do
          fail path s!"must be a whole number from 1 to {most}"
          pure none
    | none => do
        fail path s!"must be a whole number from 1 to {most}"
        pure none

def validatePagination (rt : Runtime) (value : Js) (path : String) : Check Pagination :=
  match value.plainObject with
  | none => do
      fail path "must be an object { page?, limit? }"
      pure { page := none, limit := none }
  | some p => do
      rejectUnknownKeys p ["page", "limit"] path
      let page ← checkWhole rt (field p "page") LIMITS.maxPage (path ++ ".page")
      let limit ← checkWhole rt (field p "limit") LIMITS.maxLimit (path ++ ".limit")
      pure { page, limit }

def validateCompare (value : Js) (path : String) : Check CompareType :=
  match value.plainObject with
  | none => do
      fail path "must be an object { type }"
      pure .previousPeriod
  | some c => do
      rejectUnknownKeys c ["type"] path
      match (field c "type").text with
      | some "previous_period" => pure .previousPeriod
      | some "previous_year" => pure .previousYear
      | _ => do
          fail (path ++ ".type") "must be one of previous_period, previous_year"
          pure .previousPeriod

/-! ## The whole query -/

/-- The parts of a query that were given. -/
structure Collected where
  connectorIds : Option (List String)
  filters : Option (List Filter)
  filtersOp : Option FiltersOp
  dateRange : Option DateRange
  metrics : Option (List (Option Metric))
  groupBy : Option (List (Option GroupBy))
  orderBy : Option (List (Option OrderBy))
  pagination : Option Pagination

def Collected.empty : Collected :=
  { connectorIds := none, filters := none, filtersOp := none, dateRange := none, metrics := none
    groupBy := none, orderBy := none, pagination := none }

/-- Read one key of the query: `VALIDATORS[key]`. -/
def collectKey (rt : Runtime) (pre key : String) (value : Js) (out : Collected) :
    Check Collected :=
  let path := pre ++ key
  match key with
  | "connectorIds" => do
      let v ← validateConnectorIds rt value path
      pure { out with connectorIds := some v }
  | "filters" => do
      let v ← validateFilters rt value path
      pure { out with filters := some v }
  | "filtersOp" => do
      let v ← validateFiltersOp value path
      pure { out with filtersOp := some v }
  | "dateRange" => do
      let v ← validateDateRange rt value path
      pure { out with dateRange := some v }
  | "metrics" => do
      let v ← validateMetrics value path
      pure { out with metrics := some v }
  | "groupBy" => do
      let v ← validateGroupBy value path
      pure { out with groupBy := some v }
  | "orderBy" => do
      let v ← validateOrderBy value path
      pure { out with orderBy := some v }
  | "pagination" => do
      let v ← validatePagination rt value path
      pure { out with pagination := some v }
  | _ => pure out

def QUERY_KEYS : List String :=
  ["connectorIds", "filters", "filtersOp", "dateRange", "metrics", "groupBy", "orderBy",
    "pagination"]

def outputNames (groupBy : List GroupBy) (metrics : List Metric) : List String :=
  (groupBy.map GroupBy.field ++
    (if metrics.isEmpty then ["count"] else metrics.map metricAlias)).eraseDups

/-- Cross-field rules: grouped ordering and name clashes. -/
def validateCombination (out : Collected) (pre : String) : Check Unit := do
  let groupItems := out.groupBy.getD []
  let groupBy := groupItems.filterMap id
  let metrics := (out.metrics.getD []).filterMap id
  if groupBy.isEmpty && metrics.isEmpty then pure ()
  else do
    let groupFields := groupBy.map GroupBy.field
    let _ ← checkItems (fun i m =>
      failIf (groupFields.contains (metricAlias m)) s!"{pre}metrics[{i}].alias"
        s!"\"{metricAlias m}\" is also a groupBy field") 0 metrics
    if metrics.isEmpty then do
      let _ ← checkItems (fun i (g : Option GroupBy) =>
        failIf (g.any fun g => g.field = "count") s!"{pre}groupBy[{i}].field"
          "\"count\" clashes with the default count column: add a metric with another alias")
        0 groupItems
      pure ()
    let outputs := outputNames groupBy metrics
    let _ ← checkItems (fun i (o : Option OrderBy) =>
      failIf (o.any fun o => isSafeText o.field && !outputs.contains o.field)
        s!"{pre}orderBy[{i}].field"
        ("must be a groupBy field or metric alias in a grouped or aggregate query (" ++
          String.intercalate ", " outputs ++ ")"))
      0 (out.orderBy.getD [])
    pure ()

def collectEntries (rt : Runtime) (keys : List String) (pre : String) :
    List (String × Js) → Collected → Check Collected
  | [], out => pure out
  | (key, value) :: rest, out =>
      if !keys.contains key then do
        fail (pre ++ key) "is not a recognised query field"
        collectEntries rt keys pre rest out
      else if value.isNullish then collectEntries rt keys pre rest out
      else do
        let out ← collectKey rt pre key value out
        collectEntries rt keys pre rest out

/-- `collect` without extra keys. -/
def collect (rt : Runtime) (input : List (String × Js)) (keys : List String) (pre : String) :
    Check Collected := do
  let out ← collectEntries rt keys pre input .empty
  validateCombination out pre
  pure out

def invalidQuery (errors : List FieldError) : ApiError :=
  { statusCode := 400, code := .invalidQuery, message := "Invalid analytics query", errors }

/-- `validateQuery` without extra keys; `pre` is the path prefix of its errors. -/
def validateQuery (rt : Runtime) (input : Js) (keys : List String) (pre : String) :
    Except ApiError Collected :=
  match input.plainObject with
  | none =>
      let root :=
        if pre.toList.getLast? = some '.' then String.ofList pre.toList.dropLast else pre
      .error (invalidQuery [{ field := if root.isEmpty then "query" else root,
                              message := "must be an object" }])
  | some fields =>
      let out := collect rt fields keys pre
      if out.errors.isEmpty then .ok out.value else .error (invalidQuery out.errors)

def INTERNAL_KEYS : List String :=
  ["tenantId", "timezone", "now", "filterGroups", "access", "compare"]

/-- The options of `normalizeQuery`. A scope of the data access service under `access` is held
apart from the other entries. -/
structure EngineOptions where
  entries : List (String × Js)
  access : Option AccessScope

/-- A query with defaults applied, before its window and references are resolved. -/
structure NormalizedQuery where
  tenantId : String
  timezone : Option String
  now : Option Int
  filterGroups : List FilterGroup
  access : Option AccessScope
  connectorIds : List String
  filters : List Filter
  filtersOp : FiltersOp
  dateRange : Option DateRange
  metrics : List Metric
  groupBy : List GroupBy
  orderBy : List OrderBy
  pagination : Pagination
  compare : Option CompareType

def checkGroupOp (value : Js) (path : String) : Check FiltersOp :=
  if isUndefined value then pure .and else validateFiltersOp value path

def validateFilterGroup (rt : Runtime) (value : Js) (path : String) : Check (Option FilterGroup) :=
  match value.plainObject with
  | none => do
      fail path "must be an object { filters, filtersOp? }"
      pure none
  | some group => do
      rejectUnknownKeys group ["filters", "filtersOp"] path
      let filters ← validateFilters rt (firstOf (field group "filters") (.arr [])) (path ++ ".filters")
      let op ← checkGroupOp (field group "filtersOp") (path ++ ".filtersOp")
      pure (some { filters, filtersOp := op })

def validateFilterGroups (rt : Runtime) (value : Js) : Check (List FilterGroup) :=
  if value.isNullish then pure []
  else
    match value with
    | .arr items => do
        failIf (LIMITS.filterGroups < items.length) "filterGroups"
          s!"at most {LIMITS.filterGroups} groups"
        let groups ← checkItems (fun i g => validateFilterGroup rt g s!"filterGroups[{i}]") 0 items
        pure (groups.filterMap id)
    | _ => do
        fail "filterGroups" "must be an array"
        pure []

def checkTimezone (rt : Runtime) (value : Js) : Check (Option String) :=
  if value.isNullish then pure none
  else
    match value.text with
    | none => do
        fail "timezone" "must be an IANA time zone name"
        pure none
    | some tz => do
        failIf (!isValidTimeZone rt.zones tz) "timezone" "must be an IANA time zone name"
        pure (some (normalizeTimeZone rt.zones tz))

def checkNow : Js → Check (Option Int)
  | .undefined => pure none
  | .date (some t) => pure (some t)
  | _ => do
      fail "now" "must be a Date"
      pure none

/-- The period comparison, kept only when asked for. -/
def checkCompare (value : Js) : Check (Option CompareType) :=
  if value.isNullish then pure none
  else do
    let c ← validateCompare value "compare"
    pure (some c)

/-- What `normalizeQuery` reads besides the tenant. -/
def normalizeParts (rt : Runtime) (options : EngineOptions) (tenantId : String) :
    Check NormalizedQuery := do
  let internal (key : String) : Js := field options.entries key
  let out ← collect rt (options.entries.filter fun e => !INTERNAL_KEYS.contains e.1) QUERY_KEYS ""
  let timezone ← checkTimezone rt (internal "timezone")
  let now ← checkNow (internal "now")
  let filterGroups ← validateFilterGroups rt (internal "filterGroups")
  let compare ← checkCompare (internal "compare")
  pure
    { tenantId, timezone, now, filterGroups, compare
      access := options.access
      connectorIds := out.connectorIds.getD []
      filters := out.filters.getD []
      filtersOp := out.filtersOp.getD .and
      dateRange := out.dateRange
      metrics := (out.metrics.getD []).filterMap id
      groupBy := (out.groupBy.getD []).filterMap id
      orderBy := (out.orderBy.getD []).filterMap id
      pagination := out.pagination.getD { page := none, limit := none } }

/-- Validate the full engine options. -/
def normalizeQuery (rt : Runtime) (options : EngineOptions) : Except ApiError NormalizedQuery :=
  match (field options.entries "tenantId").text with
  | none => .error { statusCode := 400, code := .invalidQuery, message := "tenantId is required" }
  | some tenantId =>
      if tenantId.isEmpty then
        .error { statusCode := 400, code := .invalidQuery, message := "tenantId is required" }
      else
        let out := normalizeParts rt options tenantId
        if out.errors.isEmpty then .ok out.value else .error (invalidQuery out.errors)

end AnalyticsBackend.Analytics
