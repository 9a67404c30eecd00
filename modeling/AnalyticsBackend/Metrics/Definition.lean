import AnalyticsBackend.Analytics.Encode
import AnalyticsBackend.Analytics.Engine
import AnalyticsBackend.Lib.JsOrder

/-!
# Metric definitions

`models/MetricDefinition.js` and `sanitizeDefinition` of `services/metricDefinition.service.js`.
-/

namespace AnalyticsBackend.Metrics
open Lib Lib.Mongo Analytics

/-! ## Documents -/

/-- `METRIC_AGGREGATIONS`, and `ratio`. -/
inductive MetricKind where
  | count
  | sum
  | avg
  | min
  | max
  | countDistinct
  | ratio
  deriving DecidableEq, Repr

def MetricKind.text : MetricKind → String
  | .count => "count"
  | .sum => "sum"
  | .avg => "avg"
  | .min => "min"
  | .max => "max"
  | .countDistinct => "count_distinct"
  | .ratio => "ratio"

def METRIC_AGGREGATIONS : List MetricKind := [.count, .sum, .avg, .min, .max, .countDistinct]

def METRIC_KINDS : List MetricKind := METRIC_AGGREGATIONS ++ [.ratio]

inductive MetricFormat where
  | number
  | integer
  | currency
  | percent
  deriving DecidableEq, Repr

def MetricFormat.text : MetricFormat → String
  | .number => "number"
  | .integer => "integer"
  | .currency => "currency"
  | .percent => "percent"

def METRIC_FORMATS : List MetricFormat := [.number, .integer, .currency, .percent]

/-- `METRIC_DIRECTIONS`. -/
inductive MetricDirection where
  | higherIsBetter
  | lowerIsBetter
  | neutral
  deriving DecidableEq, Repr

def MetricDirection.text : MetricDirection → String
  | .higherIsBetter => "higher_is_better"
  | .lowerIsBetter => "lower_is_better"
  | .neutral => "neutral"

def METRIC_DIRECTIONS : List MetricDirection := [.higherIsBetter, .lowerIsBetter, .neutral]

/-- `METRIC_SOURCES`. -/
inductive MetricSource where
  | manual
  | profiler
  deriving DecidableEq, Repr

/-- One side of a ratio. -/
structure DefinitionPart where
  aggregation : MetricKind
  field : Option String
  filters : List Js

/-- The `DEFINITION_FIELDS` of a version. -/
structure Definition where
  key : String
  label : String
  description : String
  connectorId : String
  aggregation : MetricKind
  field : Option String
  numerator : Option DefinitionPart
  denominator : Option DefinitionPart
  filters : List Js
  unit : Option String
  format : MetricFormat
  direction : MetricDirection
  owner : Option String

structure MetricVersion where
  tenantId : String
  version : Nat
  definition : Definition
  source : MetricSource
  rationale : Option String
  createdBy : Option String

/-- A stored version: its status and the stamps of it may change. -/
structure VersionRow where
  content : MetricVersion
  status : MetricStatus
  approvedBy : Option String := none
  approvedAt : Option Int := none
  archivedBy : Option String := none
  archivedAt : Option Int := none

/-! ## Reading a definition back -/

def textOrNull : Option String → Js
  | some s => .str s
  | none => .null

def DefinitionPart.js (part : DefinitionPart) : Js :=
  .obj [("aggregation", .str part.aggregation.text), ("field", textOrNull part.field),
    ("filters", .arr part.filters)]

/-- A side of a ratio that may be missing. -/
def partOrNull : Option DefinitionPart → Js
  | some part => part.js
  | none => .null

/-- The `base` of an update: the stored fields by name, the dataset as the text of its stored id. -/
def Definition.base (d : Definition) : List (String × Js) :=
  [("key", .str d.key), ("label", .str d.label), ("description", .str d.description),
    ("connectorId", .str (ObjectId.ofHex d.connectorId).toHex),
    ("aggregation", .str d.aggregation.text),
    ("field", textOrNull d.field), ("numerator", partOrNull d.numerator),
    ("denominator", partOrNull d.denominator), ("filters", .arr d.filters),
    ("unit", textOrNull d.unit), ("format", .str d.format.text),
    ("direction", .str d.direction.text), ("owner", textOrNull d.owner)]

/-! ## Validation -/

def DEFINITION_FIELDS : List String :=
  ["key", "label", "description", "connectorId", "aggregation", "field", "numerator", "denominator",
    "filters", "unit", "format", "direction", "owner"]

def PART_KEYS : List String := ["aggregation", "field", "filters"]

structure MetricLimits where
  labelMax : Nat
  descriptionMax : Nat
  unitMax : Nat
  filtersMax : Nat

def METRIC_LIMITS : MetricLimits where
  labelMax := 120
  descriptionMax := 1000
  unitMax := 32
  filtersMax := 20

/-- `METRIC_KEY_PATTERN`. -/
def isMetricKey (key : String) : Bool := isMetricRef.isKey key.toList

def invalid (errors : List FieldError) : ApiError where
  statusCode := 400
  code := .metricInvalid
  message := "Invalid metric definition"
  errors := errors

def notFound (name : String) : ApiError where
  statusCode := 404
  code := .metricNotFound
  message := s!"Metric \"{name}\" not found"

section Sanitize

variable (rt : Runtime)

/-- `sanitizeFilters` at the field `filters` under a path prefix. -/
def sanitizeFilters (value : Js) (pre : String) : Check (List Js) :=
  match value with
  | .undefined | .null => pure []
  | .arr items => do
      failIf (METRIC_LIMITS.filtersMax < items.length) (pre ++ "filters")
        s!"at most {METRIC_LIMITS.filtersMax} filters"
      match validateQuery rt (.obj [("filters", .arr items)]) ["filters"] pre with
      | .ok out => pure ((out.filters.getD []).map Filter.js)
      | .error e => ⟨e.errors, []⟩
  | _ => do
      fail (pre ++ "filters") "must be an array of filters"
      pure []

/-- `sanitizeAggregation` among the allowed kinds. -/
def sanitizeAggregation (allowed : List MetricKind) (aggregation field : Js) (pre : String) :
    Check (Option MetricKind × Option String) :=
  match choice allowed MetricKind.text aggregation with
  | none => do
      fail (pre ++ "aggregation")
        ("must be one of " ++ String.intercalate ", " (allowed.map MetricKind.text))
      pure (none, none)
  | some .ratio => pure (some .ratio, none)
  | some .count => do
      failIf (!field.isBlank && (safeName field).isNone) (pre ++ "field") UNSAFE_NAME_MESSAGE
      pure (some .count, none)
  | some kind => do
      if field.isBlank then fail (pre ++ "field") s!"is required for {kind.text}"
      else failIf (safeName field).isNone (pre ++ "field") UNSAFE_NAME_MESSAGE
      pure (some kind, if field.isBlank then none else some (rt.text field))

/-- `sanitizePart`. -/
def sanitizePart (value : Js) (path : String) : Check (Option DefinitionPart) :=
  match value.plainObject with
  | none => do
      fail path "must be an object { aggregation, field?, filters? }"
      pure none
  | some part => do
      rejectUnknownKeys part PART_KEYS path
      let agg ← sanitizeAggregation rt METRIC_AGGREGATIONS (field part "aggregation")
        (field part "field") (path ++ ".")
      let filters ← sanitizeFilters rt (field part "filters") (path ++ ".")
      pure (agg.1.map fun aggregation => { aggregation, field := agg.2, filters })

/-- `optionalText`. -/
def optionalText (value : Js) (path : String) (most : Nat) : Check (Option String) :=
  match value with
  | .undefined | .null => pure none
  | .str s => do
      failIf (most < jsLength (trim s)) path s!"must be at most {most} characters"
      pure (if trim s = "" then none else some (trim s))
  | _ => do
      fail path "must be a string"
      pure none

def sanitizeLabel (value : Js) : Check String := do
  let label := (value.text.map trim).getD ""
  if label = "" then fail "label" "is required"
  else
    failIf (METRIC_LIMITS.labelMax < jsLength label) "label"
      s!"must be at most {METRIC_LIMITS.labelMax} characters"
  pure label

def sanitizeKey (value : Js) : Check String := do
  let key := (value.text.map trim).getD ""
  failIf (!isMetricKey key) "key"
    "must start with a lowercase letter and use only a-z, 0-9 and _ (max 64)"
  pure key

def sanitizeSides (aggregation : Option MetricKind) (numerator denominator : Js) :
    Check (Option DefinitionPart × Option DefinitionPart) := do
  if aggregation = some .ratio then
    let n ← sanitizePart rt numerator "numerator"
    let d ← sanitizePart rt denominator "denominator"
    pure (n, d)
  else
    failIf (!numerator.isNullish) "numerator" "is only allowed for a ratio"
    failIf (!denominator.isNullish) "denominator" "is only allowed for a ratio"
    pure (none, none)

def sanitizeChoice {α : Type} (all : List α) (text : α → String) (value : Js) (missing : α)
    (path : String) : Check α :=
  if value.isNullish then pure missing
  else
    match choice all text value with
    | some a => pure a
    | none => do
        fail path ("must be one of " ++ String.intercalate ", " (all.map text))
        pure missing

/-- The format of a definition: that of a ratio is a percentage unless it is named or null. -/
def missingFormat (aggregation : Option MetricKind) (value : Js) : MetricFormat :=
  if aggregation = some .ratio ∧ isUndefined value then .percent else .number

def sanitizeOwner (value : Js) : Option String :=
  if value.isBlank then none else some (slice 64 (rt.text value))

def definitionOf (input : List (String × Js)) : Check Definition := do
  rejectUnknownKeys input DEFINITION_FIELDS ""
  let key ← sanitizeKey (field input "key")
  let label ← sanitizeLabel (field input "label")
  let description ← optionalText (field input "description") "description"
    METRIC_LIMITS.descriptionMax
  let connectorId :=
    if (field input "connectorId").isNullish then "" else rt.text (field input "connectorId")
  failIf (!isHexId connectorId) "connectorId" "must be a dataset id"
  let agg ← sanitizeAggregation rt METRIC_KINDS (field input "aggregation") (field input "field") ""
  let filters ← sanitizeFilters rt (field input "filters") ""
  let unit ← optionalText (field input "unit") "unit" METRIC_LIMITS.unitMax
  let sides ← sanitizeSides rt agg.1 (field input "numerator") (field input "denominator")
  let format ← sanitizeChoice METRIC_FORMATS MetricFormat.text (field input "format")
    (missingFormat agg.1 (field input "format")) "format"
  let direction ← sanitizeChoice METRIC_DIRECTIONS MetricDirection.text (field input "direction")
    .higherIsBetter "direction"
  pure {
    key, label, description := description.getD "", connectorId
    aggregation := agg.1.getD .count, field := agg.2, numerator := sides.1, denominator := sides.2
    filters, unit, format, direction, owner := sanitizeOwner rt (field input "owner") }

/-- `sanitizeDefinition`. -/
def sanitizeDefinition (input : Js) : Except ApiError Definition :=
  match input.plainObject with
  | none => .error (invalid [{ field := "body", message := "must be an object" }])
  | some fields =>
      let out := definitionOf rt fields
      if out.errors.isEmpty then .ok out.value else .error (invalid out.errors)

theorem sanitizeDefinition_key {fields : List (String × Js)} {d : Definition}
    (ok : sanitizeDefinition rt (.obj fields) = .ok d) :
    d.key = ((field fields "key").text.map trim).getD "" ∧ isMetricKey d.key = true := by
  unfold sanitizeDefinition at ok
  simp only [Js.plainObject] at ok
  split at ok
  · rename_i none
    obtain rfl := Except.ok.inj ok
    rw [List.isEmpty_iff] at none
    simp only [definitionOf, Check.bind_errors, List.append_eq_nil_iff] at none
    have key := none.2.1
    simp only [sanitizeKey, Check.bind_errors, failIf_errors, Check.pure_errors,
      List.append_nil] at key
    refine ⟨rfl, ?_⟩
    change isMetricKey (((field fields "key").text.map trim).getD "") = true
    cases is : isMetricKey (((field fields "key").text.map trim).getD "") with
    | true => rfl
    | false => simp [is] at key
  · exact nomatch ok

end Sanitize

/-! ## Keys -/

theorem not_space_of_keyChar {c : Char} (is : isKeyChar c = true) : isJsSpace c = false := by
  have bounds : (97 ≤ c.toNat ∧ c.toNat ≤ 122) ∨ (48 ≤ c.toNat ∧ c.toNat ≤ 57) ∨ c.toNat = 95 := by
    simp only [isKeyChar, isLowerLetter, Char.isDigit, Bool.or_eq_true, Bool.and_eq_true,
      decide_eq_true_eq] at is
    rcases is with (letter | digit) | underscore
    · exact .inl ⟨letter.1, letter.2⟩
    · exact .inr (.inl ⟨digit.1, digit.2⟩)
    · exact .inr (.inr (by rw [underscore]; rfl))
  simp only [isJsSpace, Bool.or_eq_false_iff, List.contains_eq_mem, decide_eq_false_iff_not,
    Bool.and_eq_false_iff]
  refine ⟨fun mem => ?_, ?_⟩
  · simp only [List.mem_cons, List.not_mem_nil, or_false] at mem
    omega
  · omega

theorem trim_key {key : String} (is : isMetricKey key = true) : trim key = key := by
  refine trim_of_no_space fun c mem => ?_
  unfold isMetricKey isMetricRef.isKey at is
  split at is
  · cases is
  · rename_i first rest split
    simp only [Bool.and_eq_true] at is
    rw [split] at mem
    rcases List.mem_cons.mp mem with rfl | later
    · exact not_space_of_keyChar (by simp [isKeyChar, is.1.1])
    · exact not_space_of_keyChar (List.all_eq_true.mp is.1.2 c later)

/-- The key of a patched definition is the key of the metric. -/
theorem field_set (fields : List (String × Js)) (name : String) (v : Js) :
    field (JsObject.set fields name v) name = v := by
  rw [field, JsObject.lookup_set, if_pos rfl]
  rfl

end AnalyticsBackend.Metrics
