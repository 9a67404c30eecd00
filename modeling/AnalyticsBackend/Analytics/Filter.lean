import AnalyticsBackend.Lib.Mongo.Pipeline

/-!
# Filters of a query

`filterExpr` and `buildFilterStages` of `services/analytics.engine.js`: a validated filter
clause as a fragment of `$expr`. The rules of a data access scope go through the same
translation.
-/

namespace AnalyticsBackend.Analytics

open Lib Lib.Mongo

/-- `RANGE_OPS`. -/
inductive RangeOp where
  | gt
  | gte
  | lt
  | lte
  deriving DecidableEq, Repr

def RangeOp.comparison : RangeOp → Comparison
  | .gt => .gt
  | .gte => .gte
  | .lt => .lt
  | .lte => .lte

/-- The `op` of a filter with the `value` it takes. -/
inductive FilterTest where
  | eq (value : Value)
  | neq (value : Value)
  | isIn (values : List Value)
  | nin (values : List Value)
  | range (op : RangeOp) (bound : Number)
  | present (expected : Bool)

structure Filter where
  field : String
  test : FilterTest

inductive FiltersOp where
  | and
  | or
  deriving DecidableEq, Repr

/-- Fields that live on the row document itself. -/
def TOP_LEVEL_FIELDS : List String := ["connectorId", "ingestedAt", "sourceRowId", "tenantId"]

/-- The path of a filter or metric field; everything but the top-level fields is in `data`. -/
def dataPath (field : String) : List String :=
  if TOP_LEVEL_FIELDS.contains field then [field] else "data" :: splitDots field

/-- Numeric view of a field: what is not numeric becomes null. -/
def toNumber (path : List String) : Expr := .call (.convert "double") [.field path]

/-- `new ObjectId(v)` for the dataset ids that the contract accepts. -/
def newObjectId : Value → Value
  | .str s => .oid (ObjectId.ofHex s)
  | v => v

/-- A filter value, never evaluated as an expression. -/
def lit (field : String) (v : Value) : Expr :=
  .literal (if field = "connectorId" then newObjectId v else v)

def isMissing (path : List String) (op : Comparison) : Expr :=
  .compare op (.ifNull (.field path) (.literal .null)) (.literal .null)

/-- Translate a single (validated) filter clause. -/
def filterExpr (f : Filter) : Expr :=
  let path := dataPath f.field
  match f.test with
  | .eq value => .compare .eq (.field path) (lit f.field value)
  | .neq value => .compare .ne (.field path) (lit f.field value)
  | .isIn values => .isIn (.field path) (values.map (lit f.field))
  | .nin values => .not (.isIn (.field path) (values.map (lit f.field)))
  | .present true => isMissing path .ne
  | .present false => isMissing path .eq
  | .range op bound =>
      -- Values of a CSV are strings: both sides are compared as numbers.
      .and [.compare .ne (toNumber path) (.literal .null),
        .compare op.comparison (toNumber path) (.literal (.num bound))]

/-- The `$match` stages of one group of filters. -/
def buildFilterStages (filters : List Filter) (op : FiltersOp) : List Stage :=
  let conds := filters.map filterExpr
  if op = .or ∧ 1 < conds.length then [.matching (.expr (.or conds))]
  else conds.map fun cond => .matching (.expr cond)

end AnalyticsBackend.Analytics
