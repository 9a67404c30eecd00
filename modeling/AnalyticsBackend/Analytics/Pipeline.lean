import AnalyticsBackend.Analytics.DataAccess

/-!
# The aggregation pipeline of a query

The shape of a prepared query and the stages that `services/analytics.engine.js` builds from
it: the leading match, the access stages, the window, the filters and the grouped or raw rows.
-/

namespace AnalyticsBackend.Analytics

open Lib Lib.Mongo

/-! ## The parts of a query -/

/-- `METRIC_OPS`. -/
inductive MetricOp where
  | count
  | sum
  | avg
  | min
  | max
  | countDistinct
  | countNonNull
  deriving DecidableEq, Repr

namespace MetricOp

def all : List MetricOp := [.count, .sum, .avg, .min, .max, .countDistinct, .countNonNull]

def text : MetricOp → String
  | .count => "count"
  | .sum => "sum"
  | .avg => "avg"
  | .min => "min"
  | .max => "max"
  | .countDistinct => "count_distinct"
  | .countNonNull => "count_non_null"

/-- `NUMERIC_OPS`. -/
def numeric : MetricOp → Bool
  | .sum | .avg | .min | .max => true
  | .count | .countDistinct | .countNonNull => false

end MetricOp

inductive Metric where
  | plain (op : MetricOp) (field : Option String) (aliasName : Option String)
  | ref (ref : String) (aliasName : Option String)
  deriving DecidableEq, Repr

inductive DateBucket where
  | day
  | week
  | month
  | quarter
  | year
  deriving DecidableEq, Repr

structure GroupBy where
  field : String
  bucket : Option DateBucket
  deriving DecidableEq, Repr

structure OrderBy where
  field : String
  direction : Direction
  deriving DecidableEq, Repr

structure Pagination where
  page : Option Nat
  limit : Option Nat
  deriving DecidableEq, Repr

structure FilterGroup where
  filters : List Filter
  filtersOp : FiltersOp

/-- An absolute window over a date column; either end may be open. -/
structure Bounds where
  field : String
  fromDate : Option Int
  toDate : Option Int
  deriving DecidableEq, Repr

structure MetricPart where
  aggregation : MetricOp
  field : Option String
  filters : List Filter

inductive MetricBody where
  | single (aggregation : MetricOp) (field : Option String)
  | ratio (numerator denominator : MetricPart)

structure MetricDefinition where
  key : String
  version : Nat
  connectorId : ObjectId
  body : MetricBody
  filters : List Filter

/-- The resolved definitions under their pinned references. -/
abbrev MetricDefs := List (String × MetricDefinition)

inductive CompareType where
  | previousPeriod
  | previousYear
  deriving DecidableEq, Repr

/-- A query that is ready to run: an absolute window, pinned metric references and the access
scope (`none` for anything that is not a scope of the data access service). -/
structure Options where
  tenantId : String
  timezone : String
  filterGroups : List FilterGroup
  access : Option AccessScope
  connectorIds : List String
  filters : List Filter
  filtersOp : FiltersOp
  dateRange : Option Bounds
  metrics : List Metric
  groupBy : List GroupBy
  orderBy : List OrderBy
  pagination : Pagination
  compare : Option CompareType

def hasPrefix (start s : String) : Bool := start.toList.isPrefixOf s.toList

/-- The name of a metric reference: the key of `metric:<key>[@<version>]`. -/
def refKey (ref : String) : String :=
  String.ofList ((ref.toList.drop "metric:".length).takeWhile fun c => c ≠ '@')

/-- Output name of a metric. -/
def metricAlias : Metric → String
  | .plain op field none =>
    match field with
    | none => op.text
    | some f => op.text ++ "_" ++ f
  | .ref ref none => refKey ref
  | .plain _ _ (some name) | .ref _ (some name) => name

/-! ## Dates -/

/-- `MIN_BUSINESS_DATE`, 0001-01-02. -/
def MIN_BUSINESS_DATE : Int := -62135510400000

/-- `MAX_BUSINESS_DATE`, 9999-12-30. -/
def MAX_BUSINESS_DATE : Int := 253402128000000

def nullLit : Expr := .literal .null

def intLit (n : Int) : Expr := .literal (.num { type := .int, value := .finite n })

/-- A row value read as a business date; what cannot be read is null. -/
def businessDate (path : List String) (tz : String) : Expr :=
  let ofType (name : String) : Expr :=
    .compare .eq (.type (.field path)) (.literal (.str name))
  let parsed : Expr := .switch
    [(ofType "date", .field path),
      (ofType "string",
        .cond (.call (.regexMatch "(Z|z|[+-][0-9]\x7b2\x7d:?[0-9]\x7b2\x7d)$") [.field path])
          (.call (.dateFromString none) [.field path])
          (.call (.dateFromString (some tz)) [.field path])),
      (.isIn (.type (.field path))
        (["int", "long", "double", "decimal"].map fun name => .literal (.str name)),
        .call (.convert "date") [.field path])]
    nullLit
  .letIn [("d", parsed)]
    (.cond
      (.and [.compare .gte (.var "d") (.literal (.date MIN_BUSINESS_DATE)),
        .compare .lte (.var "d") (.literal (.date MAX_BUSINESS_DATE))])
      (.var "d") nullLit)

/-- Start of the bucket containing the date in field `ref`, as text in `tz`. -/
def bucketStart (ref : String) (bucket : DateBucket) (tz : String) : Expr :=
  let date : Expr := .field [ref]
  let part (name : String) : Expr := .call (.datePart name tz) [date]
  let shown (e : Expr) (format zone : String) : Expr := .call (.dateToString format zone) [e]
  let guard (e : Expr) : Expr := .cond (.compare .eq date nullLit) nullLit e
  match bucket with
  | .day => guard (shown date "%Y-%m-%d" tz)
  | .month => guard (shown date "%Y-%m-01" tz)
  | .year => guard (shown date "%Y-01-01" tz)
  | .week =>
      guard (shown (.call .dateFromIsoWeek [part "isoWeekYear", part "isoWeek", intLit 1])
        "%Y-%m-%d" "UTC")
  | .quarter =>
      let third : Expr := .call .divide [.call .subtract [part "month", intLit 1], intLit 3]
      let month : Expr :=
        .call .add [.call .multiply [.call .floor [third], intLit 3], intLit 1]
      guard (shown (.call .dateFromParts [part "year", month, intLit 1]) "%Y-%m-%d" "UTC")

/-! ## The leading stages -/

/-- The leading match: tenancy, datasets, ingestion window, not deleted. -/
def buildBaseMatch (tenantId : String) (connectorIds : List String) (dateRange : Option Bounds) :
    Predicate :=
  let datasets :=
    if connectorIds.isEmpty then []
    else [(["connectorId"], Condition.oneOf (connectorIds.map fun id => .oid (.ofHex id)))]
  let window :=
    match dateRange with
    | some { field := "ingestedAt", fromDate, toDate } =>
        match fromDate, toDate with
        | none, none => [(["ingestedAt"], Condition.eq (.obj []))]
        | _, _ =>
          (fromDate.toList.map fun t => (["ingestedAt"], Condition.gte (.date t))) ++
            (toDate.toList.map fun t => (["ingestedAt"], Condition.lte (.date t)))
    | _ => []
  .conditions ([(["tenantId"], .eq (.str tenantId)), (["deletedAt"], .eq .null)] ++
    datasets ++ window)

/-- The window over a data column. -/
def buildDateStages (dateRange : Option Bounds) (tz : String) : List Stage :=
  match dateRange with
  | none => []
  | some w =>
      if w.field = "ingestedAt" then []
      else
        [.addFields [("__window", businessDate (dataPath w.field) tz)],
          .matching (.conditions ((["__window"], .ne .null) ::
            (w.fromDate.toList.map fun t => (["__window"], Condition.gte (.date t))) ++
            (w.toDate.toList.map fun t => (["__window"], Condition.lte (.date t)))))]

/-- The condition of one row scope: the row is of another dataset, or meets every rule. -/
def RowScope.expr (s : RowScope) : Expr :=
  .or [.compare .ne (.field ["connectorId"]) (.literal (.oid s.connectorId.objectId)),
    match s.rule with
    | .none => .literal (.bool false)
    | .filters rules => .and (rules.map fun r => filterExpr r.filter)]

/-- Stages enforcing a data access scope; a missing or foreign scope matches nothing. -/
def buildAccessStages : Option AccessScope → List Stage
  | none => [.matching noRow]
  | some access =>
      if access.bypass then []
      else
        (if access.denied.isEmpty then []
          else [.matching (.conditions [(["connectorId"],
            .noneOf (access.denied.map fun d => .oid d.objectId))])]) ++
        (if access.rowScopes.isEmpty then []
          else [.matching (.expr (.and (access.rowScopes.map RowScope.expr)))])

/-! ## Grouped rows -/

/-- The condition of a metric definition: its dataset and its filters. -/
def metricCondition (connectorId : ObjectId) (filters : List Filter) : Expr :=
  .and (.compare .eq (.field ["connectorId"]) (.literal (.oid connectorId)) ::
    filters.map filterExpr)

/-- The accumulator `$<op>`; only some of the metric operators name one. -/
def accumulatorOf (op : MetricOp) (e : Expr) : Accumulator :=
  match op with
  | .sum => .sum e
  | .avg => .avg e
  | .min => .min e
  | .max => .max e
  | .count | .countDistinct | .countNonNull => .unknown op.text e

def notMissing (path : List String) : Expr := isMissing path .ne

/-- A conditional accumulator for one aggregation of a metric definition. -/
def conditionalAccumulator (aggregation : MetricOp) (field : Option String) (cond : Expr) :
    Accumulator :=
  let path := dataPath (field.getD "null")
  match aggregation with
  | .count => .sum (.cond cond (intLit 1) (intLit 0))
  | .countDistinct =>
      .addToSet (.cond (.and [cond, notMissing path]) (.field path) .remove)
  | op => accumulatorOf op (.cond cond (toNumber path) nullLit)

def sized (aggregation : MetricOp) (slot : String) : Expr :=
  match aggregation with
  | .countDistinct => .size (.field [slot])
  | _ => .field [slot]

/-- `n / d`, and null when the denominator is null or zero. -/
def ratioOutput (n d : Expr) : Expr :=
  .letIn [("n", n), ("d", d)]
    (.cond (.or [.compare .eq (.var "d") nullLit, .compare .eq (.var "d") (intLit 0)])
      nullLit (.call .divide [.var "n", .var "d"]))

/-- Accumulators and output of a metric that needs internal slots. -/
structure SlotStages where
  accumulators : List (String × Accumulator)
  output : Expr

def definitionStages (defn : MetricDefinition) (slot : String) : SlotStages :=
  match defn.body with
  | .ratio numerator denominator =>
      let side (p : MetricPart) :=
        conditionalAccumulator p.aggregation p.field
          (metricCondition defn.connectorId (defn.filters ++ p.filters))
      { accumulators := [(slot ++ "n", side numerator), (slot ++ "d", side denominator)]
        output := ratioOutput (sized numerator.aggregation (slot ++ "n"))
          (sized denominator.aggregation (slot ++ "d")) }
  | .single aggregation field =>
      { accumulators := [(slot, conditionalAccumulator aggregation field
          (metricCondition defn.connectorId defn.filters))]
        output := sized aggregation slot }

def unresolved (ref : String) : ApiError :=
  { statusCode := 400, code := .invalidQuery, message := "Invalid analytics query"
    errors := [{ field := "metrics", message := s!"metric \"{ref}\" was not resolved" }] }

/-- The internal slots of one metric; `none` when a plain accumulator does. -/
def metricStages (metric : Metric) (slot : String) (defs : MetricDefs) :
    Except ApiError (Option SlotStages) :=
  match metric with
  | .ref ref _ =>
    match defs.lookup ref with
    | none => .error (unresolved ref)
    | some defn => .ok (some (definitionStages defn slot))
  | .plain .countDistinct field _ =>
      let path := dataPath (field.getD "undefined")
      .ok (some
        { accumulators := [(slot, .addToSet (.cond (notMissing path) (.field path) .remove))]
          output := .size (.field [slot]) })
  | .plain _ _ _ => .ok none

/-- The accumulator of a plain metric. -/
def metricAccumulator (op : MetricOp) (field : Option String) : Accumulator :=
  let path := dataPath (field.getD "undefined")
  match op with
  | .count => .sum (intLit 1)
  | .countNonNull => .sum (.cond (isMissing path .eq) (intLit 0) (intLit 1))
  | .countDistinct => .addToSet (.field path)
  | op => accumulatorOf op (toNumber path)

/-- Per numeric metric, the count of values that are present but not numeric. -/
def excludedAccumulators (metrics : List Metric) : List (String × Accumulator) :=
  metrics.zipIdx.filterMap fun (m, i) =>
    match m with
    | .plain op (some field) _ =>
        if op.numeric then
          let path := dataPath field
          some (s!"__excl{i}", .sum (.cond
            (.and [notMissing path, .compare .eq (toNumber path) nullLit])
            (intLit 1) (intLit 0)))
        else none
    | _ => none

/-- The accumulators of a query's metrics and the outputs computed from internal slots. -/
structure MetricPlan where
  accumulators : List (String × Accumulator)
  derived : List (String × Expr)

def planMetrics (defs : MetricDefs) :
    List (Metric × Nat) → MetricPlan → Except ApiError MetricPlan
  | [], plan => .ok plan
  | (m, i) :: rest, plan => do
      match ← metricStages m s!"__m{i}" defs with
      | some slots =>
          planMetrics defs rest
            { accumulators := JsObject.assign plan.accumulators slots.accumulators
              derived := JsObject.set plan.derived (metricAlias m) slots.output }
      | none =>
          match m with
          | .plain op field _ =>
              planMetrics defs rest
                { plan with
                  accumulators :=
                    JsObject.set plan.accumulators (metricAlias m) (metricAccumulator op field) }
          | .ref _ _ => planMetrics defs rest plan

def bucketFields (groupBy : List GroupBy) (tz : String) : List (String × Expr) :=
  groupBy.zipIdx.filterMap fun (g, i) =>
    g.bucket.map fun _ => (s!"__bucket{i}", businessDate (dataPath g.field) tz)

/-- The `_id` of the group. -/
def groupId (groupBy : List GroupBy) (tz : String) : Expr :=
  if groupBy.isEmpty then nullLit
  else .document (groupBy.zipIdx.foldl (fun id (g, i) =>
    JsObject.set id g.field
      (match g.bucket with
      | some bucket => bucketStart s!"__bucket{i}" bucket tz
      | none => .field (dataPath g.field))) [])

def groupProjection (groupBy : List GroupBy) (plan : MetricPlan)
    (excluded : List (String × Accumulator)) : List (String × Projection) :=
  let fields := groupBy.foldl
    (fun spec g => JsObject.set spec g.field (.computed (.field ("_id" :: splitDots g.field))))
    [("_id", .exclude)]
  let kept := (plan.accumulators.filter fun a => !hasPrefix "__m" a.1).map
    fun a => (a.1, Projection.keep)
  let outputs := plan.derived.map fun d => (d.1, Projection.computed d.2)
  let counters := excluded.map fun a => (a.1, Projection.keep)
  JsObject.assign (JsObject.assign (JsObject.assign fields kept) outputs) counters

structure GroupStages where
  pre : List Stage
  group : Stage
  project : Stage

/-- `$addFields` for bucketed fields and the `$group` / `$project` pair. -/
def buildGroupStages (groupBy : List GroupBy) (metrics : List Metric) (tz : String)
    (defs : MetricDefs) : Except ApiError GroupStages := do
  let plan ← planMetrics defs metrics.zipIdx { accumulators := [], derived := [] }
  let plan :=
    if plan.accumulators.isEmpty then
      { plan with accumulators := [("count", Accumulator.sum (intLit 1))] }
    else plan
  let excluded := excludedAccumulators metrics
  let buckets := bucketFields groupBy tz
  .ok
    { pre := if buckets.isEmpty then [] else [.addFields buckets]
      group := .group (groupId groupBy tz) (JsObject.assign plan.accumulators excluded)
      project := .project (groupProjection groupBy plan excluded) }

/-- `$sort` for grouped results: the requested order, then every group field. -/
def buildGroupedSort (orderBy : List OrderBy) (groupBy : List GroupBy) : List Stage :=
  let asked := orderBy.foldl (fun spec o => JsObject.set spec o.field o.direction) []
  let spec := groupBy.foldl
    (fun spec g =>
      if JsObject.has spec g.field ∨ JsObject.inherited.contains g.field then spec
      else JsObject.set spec g.field Direction.asc) asked
  if spec.isEmpty then [] else [.sort spec]

/-! ## Raw rows -/

/-- Projection and `$sort` of raw rows; data columns are sorted through internal keys. -/
def buildRawStages (orderBy : List OrderBy) : List Stage :=
  let project := [("_id", Projection.exclude), ("connectorId", .keep), ("sourceRowId", .keep),
    ("data", .keep), ("ingestedAt", .keep)]
  let plan := orderBy.zipIdx.foldl
    (fun (plan : List (String × Projection) × List (String × Direction)) (o, i) =>
      if TOP_LEVEL_FIELDS.contains o.field then
        (plan.1, JsObject.set plan.2 o.field o.direction)
      else
        (JsObject.set plan.1 s!"__sort{i}" (.computed (.field ("data" :: splitDots o.field))),
          JsObject.set plan.2 s!"__sort{i}" o.direction))
    (project, [])
  let sort := if plan.2.isEmpty then [("ingestedAt", Direction.desc)] else plan.2
  let sort := if JsObject.has sort "sourceRowId" then sort
    else JsObject.set sort "sourceRowId" Direction.asc
  [.project plan.1, .sort sort]

/-! ## The whole pipeline -/

structure QueryStages where
  groupMode : Bool
  lead : List Stage
  group : List Stage
  rowStages : List Stage

/-- Metrics without groupBy aggregate everything into one row (a KPI). -/
def Options.groupMode (o : Options) : Bool := !o.groupBy.isEmpty || !o.metrics.isEmpty

/-- The stages that choose the rows of a query. -/
def Options.selection (o : Options) : List Stage :=
  [.matching (buildBaseMatch o.tenantId o.connectorIds o.dateRange)] ++
    buildAccessStages o.access ++
    buildDateStages o.dateRange o.timezone ++
    buildFilterStages o.filters o.filtersOp ++
    o.filterGroups.flatMap fun g => buildFilterStages g.filters g.filtersOp

/-- Pipeline stages shared by paged queries and row streams. -/
def buildQueryStages (o : Options) (defs : MetricDefs) : Except ApiError QueryStages :=
  if o.groupMode then do
    let g ← buildGroupStages o.groupBy o.metrics o.timezone defs
    .ok
      { groupMode := true
        lead := o.selection ++ g.pre
        group := [g.group, g.project]
        rowStages := [g.group, g.project] ++ buildGroupedSort o.orderBy o.groupBy }
  else
    .ok
      { groupMode := false
        lead := o.selection
        group := []
        rowStages := buildRawStages o.orderBy }

end AnalyticsBackend.Analytics
