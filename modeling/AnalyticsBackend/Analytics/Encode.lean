import AnalyticsBackend.Analytics.Contract

/-!
# Queries as values of the language

What `validateQuery` and `prepareQuery` return as a value of the language again: a stored definition
or query, and the options of a prepared query, are read back in this form.
-/

namespace AnalyticsBackend.Analytics

open Lib Lib.Mongo

/-- A stored value as it is read back. -/
def valueJs : Value → Js
  | .null => .null
  | .bool b => .bool b
  | .num n => .num n.value
  | .str s => .str s
  | .date ms => .date (some ms)
  | .oid id => .str id.toHex
  | .arr items => .arr (valuesJs items)
  | .obj fields => .obj (fieldsJs fields)
where
  valuesJs : List Value → List Js
    | [] => []
    | v :: rest => valueJs v :: valuesJs rest
  fieldsJs : List (String × Value) → List (String × Js)
    | [] => []
    | (name, v) :: rest => (name, valueJs v) :: fieldsJs rest

def RangeOp.text : RangeOp → String
  | .gt => "gt"
  | .gte => "gte"
  | .lt => "lt"
  | .lte => "lte"

/-- The `op` of a filter. -/
def FilterTest.op : FilterTest → String
  | .eq _ => "eq"
  | .neq _ => "neq"
  | .isIn _ => "in"
  | .nin _ => "nin"
  | .range op _ => op.text
  | .present _ => "exists"

/-- The `value` of a filter. -/
def FilterTest.operand : FilterTest → Js
  | .eq v | .neq v => valueJs v
  | .isIn vs | .nin vs => .arr (vs.map valueJs)
  | .range _ bound => .num bound.value
  | .present expected => .bool expected

def Filter.js (f : Filter) : Js :=
  .obj [("field", .str f.field), ("op", .str f.test.op), ("value", f.test.operand)]

/-- A property that is there only with a value. -/
def optional (name : String) (v : Option Js) : List (String × Js) := v.toList.map fun j => (name, j)

def Metric.js : Metric → Js
  | .plain op column name =>
      .obj ([("op", .str op.text)] ++ optional "field" (column.map .str) ++ optional "alias" (name.map .str))
  | .ref text name => .obj ([("ref", .str text)] ++ optional "alias" (name.map .str))

def GroupBy.js (g : GroupBy) : Js :=
  .obj ([("field", .str g.field)] ++
    optional "bucket" (g.bucket.map fun b => .str (checkBucket.bucketText b)))

def directionText : Direction → String
  | .asc => "asc"
  | .desc => "desc"

def OrderBy.js (o : OrderBy) : Js :=
  .obj [("field", .str o.field), ("direction", .str (directionText o.direction))]

def wholeJs (n : Nat) : Js := .num (.finite n)

def Pagination.js (p : Pagination) : Js :=
  .obj (optional "page" (p.page.map wholeJs) ++ optional "limit" (p.limit.map wholeJs))

def FiltersOp.text : FiltersOp → String
  | .and => "and"
  | .or => "or"

def FilterGroup.js (g : FilterGroup) : Js :=
  .obj [("filters", .arr (g.filters.map Filter.js)), ("filtersOp", .str g.filtersOp.text)]

/-- An absolute window, its ends as `toISOString` writes them. -/
def Bounds.js (b : Bounds) : Js :=
  .obj ([("field", .str b.field)] ++ optional "from" (b.fromDate.map fun t => .str (isoText t)) ++
    optional "to" (b.toDate.map fun t => .str (isoText t)))

def CompareType.text : CompareType → String
  | .previousPeriod => "previous_period"
  | .previousYear => "previous_year"

def CompareType.js (c : CompareType) : Js := .obj [("type", .str c.text)]

/-- The `options` of `prepareQuery`, as the engine takes options. -/
def Options.js (o : Options) : EngineOptions where
  entries := optional "compare" (o.compare.map CompareType.js) ++
    [("tenantId", .str o.tenantId), ("timezone", .str o.timezone),
      ("filterGroups", .arr (o.filterGroups.map FilterGroup.js)),
      ("connectorIds", .arr (o.connectorIds.map .str)), ("filters", .arr (o.filters.map Filter.js)),
      ("filtersOp", .str o.filtersOp.text), ("dateRange", (o.dateRange.map Bounds.js).getD .null),
      ("metrics", .arr (o.metrics.map Metric.js)), ("groupBy", .arr (o.groupBy.map GroupBy.js)),
      ("orderBy", .arr (o.orderBy.map OrderBy.js)), ("pagination", o.pagination.js)]
  access := o.access

end AnalyticsBackend.Analytics
