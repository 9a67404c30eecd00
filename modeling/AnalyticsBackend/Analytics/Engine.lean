import AnalyticsBackend.Analytics.Contract
import AnalyticsBackend.Analytics.RowRules
import Mathlib.Algebra.Ring.Rat

/-!
# Running a query

`prepareQuery`, `queryRows` and `openRowStream` of `services/analytics.engine.js`: a query is
validated, its metric references and its window are resolved, the actor's access scope is
attached, and the aggregation is run once, or twice for a comparison. The concurrency limiter
and the time limits of the database are left out.
-/

namespace AnalyticsBackend.Analytics

open Lib Lib.Mongo

/-- A failure of the engine: one of its own errors, or one of the database as it came. -/
inductive EngineError where
  | api (e : ApiError)
  | server (e : ServerError)

/-! ## What a query is prepared against -/

inductive MetricStatus where
  | draft
  | approved
  | archived
  deriving DecidableEq, Repr

structure StoredPart where
  aggregation : MetricOp
  field : Option String
  filters : List Js

inductive StoredBody where
  | single (aggregation : MetricOp) (field : Option String)
  | ratio (numerator denominator : StoredPart)

/-- `models/MetricDefinition.js`: one version of a metric definition. -/
structure StoredMetric where
  tenantId : String
  key : String
  version : Nat
  status : MetricStatus
  connectorId : ObjectId
  body : StoredBody
  filters : List Js

inductive SyncStatus where
  | idle
  | queued
  | running
  | failed
  | succeeded
  deriving DecidableEq, Repr

structure Connector where
  id : ObjectId
  tenantId : String
  name : String
  lastSyncedAt : Option Int
  syncStatus : SyncStatus

/-- The stored settings and the identity a query is prepared with. -/
structure Workspace where
  directory : Directory
  actor : Option DataActor
  timezone : String → String
  metrics : List StoredMetric
  connectors : List Connector
  now : Int

/-! ## Metric references -/

def refVersion (ref : String) : Option Nat :=
  match splitChars '@' ref.toList with
  | [_, version] => decimalIndex (String.ofList version)
  | _ => none

/-- `metricDefinition.service.resolveMetricRef`: only approved versions resolve. -/
def resolveMetricRef (stored : List StoredMetric) (tenantId ref : String) : Option StoredMetric :=
  let own := stored.filter fun d => d.tenantId = tenantId ∧ d.key = refKey ref
  match refVersion ref with
  | some version =>
      (own.find? fun d => d.version = version).filter fun d => d.status = .approved
  | none =>
      (own.filter fun d => d.status = .approved).foldl
        (fun latest d =>
          match latest with
          | some l => if l.version < d.version then some d else some l
          | none => some d) none

def checkPart (rt : Runtime) (key path : String) (part : StoredPart) : Check MetricPart := do
  failIf (part.aggregation ≠ .count && !part.field.any isSafeText) path
    s!"metric \"{key}\" has an invalid field"
  let filters ← validateFilters rt (.arr part.filters) (path ++ ".filters")
  pure { aggregation := part.aggregation, field := part.field, filters }

def checkBody (rt : Runtime) (key path : String) : StoredBody → Check MetricBody
  | .single aggregation field => do
      let part ← checkPart rt key path { aggregation, field, filters := [] }
      pure (.single part.aggregation part.field)
  | .ratio numerator denominator => do
      let n ← checkPart rt key path numerator
      let d ← checkPart rt key path denominator
      pure (.ratio n d)

/-- A stored definition as a query uses it. Its filters were stored in their normal form, which
reading them again gives back. -/
def checkDefinition (rt : Runtime) (connectorIds : List String) (d : StoredMetric)
    (path : String) : Check MetricDefinition := do
  let datasetId := d.connectorId.toHex
  failIf (!connectorIds.isEmpty && !connectorIds.contains datasetId) path
    s!"metric \"{d.key}\" reads dataset {datasetId}, which this query does not include"
  let body ← checkBody rt d.key path d.body
  let filters ← validateFilters rt (.arr d.filters) (path ++ ".filters")
  pure { key := d.key, version := d.version, connectorId := d.connectorId, body, filters }

def MetricDefinition.pinned (d : MetricDefinition) : String := s!"metric:{d.key}@{d.version}"

def resolveMetric (rt : Runtime) (ws : Workspace) (tenantId : String) (connectorIds : List String)
    (i : Nat) (m : Metric) : Check (Metric × Option MetricDefinition) :=
  match m with
  | .plain _ _ _ => pure (m, none)
  | .ref ref name => do
      let path := s!"metrics[{i}].ref"
      match resolveMetricRef ws.metrics tenantId ref with
      | none => do
          fail path s!"\"{ref}\" is not an approved metric of this workspace"
          pure (m, none)
      | some d => do
          let d ← checkDefinition rt connectorIds d path
          pure (.ref d.pinned name, some d)

/-- A query's metrics with pinned references, the datasets it reads and the definitions. -/
structure ResolvedMetrics where
  metrics : List Metric
  connectorIds : List String
  defs : MetricDefs

def resolveMetricRefs (rt : Runtime) (ws : Workspace) (q : NormalizedQuery) :
    Except ApiError ResolvedMetrics :=
  let found := checkItems (resolveMetric rt ws q.tenantId q.connectorIds) 0 q.metrics
  if found.errors.isEmpty then
    let defs := found.value.filterMap Prod.snd
    .ok
      { metrics := found.value.map Prod.fst
        connectorIds :=
          if q.connectorIds.isEmpty then
            sortStrings (defs.map fun d => d.connectorId.toHex).eraseDups
          else q.connectorIds
        defs := defs.map fun d => (d.pinned, d) }
  else .error (invalidQuery found.errors)

/-! ## Preparing -/

def SyncStatus.pending : SyncStatus → Bool
  | .queued | .running | .failed => true
  | .idle | .succeeded => false

/-- Refuse a dataset whose first import has not finished. -/
def assertDatasetsReady (connectors : List Connector) (tenantId : String)
    (connectorIds : List String) : Except ApiError Unit :=
  let asked := connectorIds.map ObjectId.ofHex
  let pending := connectors.filter fun c => c.tenantId = tenantId ∧ c.id ∈ asked ∧
    c.lastSyncedAt = none ∧ c.syncStatus.pending
  match pending with
  | [] => .ok ()
  | first :: _ =>
      .error
        { statusCode := 409, code := .datasetNotReady
          message :=
            if first.syncStatus = .failed then
              s!"\"{first.name}\" has no data because its import failed. Open the dataset to see why, then upload the file or sync again."
            else
              s!"\"{first.name}\" is still importing. Run the query again when the import has finished."
          errors := pending.map fun c =>
            { field := "connectorIds"
              message := c.name ++ ": " ++
                if c.syncStatus = .failed then "import failed" else "import in progress" } }

/-- A prepared query: what to run, and the window, time zone and definitions it runs with. -/
structure Prepared where
  options : Options
  window : Option Window
  timezone : String
  defs : MetricDefs

def Window.bounds (w : Window) : Bounds :=
  { field := w.field, fromDate := w.fromDate, toDate := w.toDate }

def resolveWindow (rt : Runtime) (ws : Workspace) (q : NormalizedQuery) (timezone : String) :
    Except ApiError (Option Window) :=
  match q.dateRange with
  | none => .ok none
  | some range =>
      let w := resolveDateRange rt.zones range timezone (q.now.getD ws.now)
      match w.fromDate, w.toDate with
      | some a, some b =>
          if b < a then
            .error (invalidQuery [{ field := "dateRange", message := "from must be on or before to" }])
          else .ok (some w)
      | _, _ => .ok (some w)

def prepareQuery (rt : Runtime) (ws : Workspace) (raw : EngineOptions) :
    Except ApiError Prepared := do
  let q ← normalizeQuery rt raw
  let resolved ← resolveMetricRefs rt ws q
  let timezone := q.timezone.getD (ws.timezone q.tenantId)
  let window ← resolveWindow rt ws q timezone
  -- The actor's dataset grants and row rules, never from request input.
  let access := q.access.getD (resolveAccessScope ws.directory q.tenantId ws.actor)
  assertQueryable (some access) resolved.connectorIds
  assertDatasetsReady ws.connectors q.tenantId resolved.connectorIds
  .ok
    { options :=
        { tenantId := q.tenantId
          timezone
          filterGroups := q.filterGroups
          access := some access
          connectorIds := resolved.connectorIds
          filters := q.filters
          filtersOp := q.filtersOp
          dateRange := window.map Window.bounds
          metrics := resolved.metrics
          groupBy := q.groupBy
          orderBy := q.orderBy
          pagination := q.pagination
          compare := q.compare }
      window
      timezone
      defs := resolved.defs }

/-! ## Rows of the result -/

/-- The language's reading of a value as a condition. -/
def jsTruthy : Value → Bool
  | .null => false
  | .bool b => b
  | .num n => n.value != .finite 0 && n.value != .nan
  | .str s => !s.isEmpty
  | _ => true

def isInternalKey (name : String) : Bool :=
  name == "_id" || hasPrefix "__sort" name || hasPrefix "__excl" name

def idText (rt : Runtime) : Value → Value
  | .oid id => .str id.toHex
  | .str s => .str s
  | v => if jsTruthy v then .str (rt.showValue v) else v

/-- Coerce object ids into strings, drop internal keys, strip credential-like keys. -/
def normalizeRow (rt : Runtime) (row : Doc) : Doc :=
  (row.filter fun entry => !isInternalKey entry.1).map fun (name, v) =>
    if name = "connectorId" then (name, idText rt v)
    else if name = "data" then (name, stripSensitiveFields v)
    else (name, v)

/-- The keys of a row's data. -/
def dataKeys (row : Doc) : List String :=
  match Doc.get row "data" with
  | some (.obj fields) => fields.map Prod.fst
  | _ => []

def metricNames (metrics : List Metric) : List String :=
  if metrics.isEmpty then ["count"] else metrics.map metricAlias

def computeColumns (rows : List Doc) (o : Options) : List String :=
  if o.groupMode then o.groupBy.map GroupBy.field ++ metricNames o.metrics
  else sortStrings (rows.flatMap dataKeys).eraseDups

def counterOf (row : Doc) (name : String) : ℚ :=
  match Doc.get row name with
  | some (.num { value := .finite q, .. }) => q
  | _ => 0

/-- Values excluded from numeric metrics, for the metrics that have some. -/
def collectExcluded (rows : List Doc) (metrics : List Metric) : List (String × ℚ) :=
  metrics.zipIdx.filterMap fun (m, i) =>
    let n := (rows.map fun row => counterOf row s!"__excl{i}").sum
    if 0 < n then some (metricAlias m, n) else none

/-- `facet.total[0].n`, zero when nothing was counted. -/
def totalOf (counted : List Doc) : Nat :=
  match counted with
  | row :: _ => (counterOf row "n").num.toNat
  | [] => 0

structure WindowView where
  field : String
  preset : Option DatePreset
  fromText : Option String
  toText : Option String
  deriving DecidableEq, Repr

def windowView (w : Window) : WindowView :=
  { field := w.field, preset := w.preset, fromText := w.fromDate.map isoText
    toText := w.toDate.map isoText }

structure QueryResult where
  excluded : List (String × ℚ)
  rows : List Doc
  total : Nat
  page : Nat
  pages : Nat
  limit : Nat
  columns : List String
  groupMode : Bool
  timezone : String
  window : Option WindowView
  compare : Option (CompareType × WindowView)

/-! ## Running -/

def namesTimeZone (message : String) : Bool :=
  (lowerCase message.toList).tails.any fun s =>
    "timezone".toList.isPrefixOf s || "time zone".toList.isPrefixOf s

/-- Map a driver failure to the engine's typed errors. -/
def aggregateError (e : ServerError) (timezone : String) : EngineError :=
  if e.code = 50 then
    .api { statusCode := 408, code := .queryTimeout,
           message := "The query took too long. Narrow the date range or add filters." }
  else if namesTimeZone e.message then
    .api (invalidQuery [{ field := "timezone",
                          message := s!"the database does not recognise the time zone \"{timezone}\"" }])
  else .server e

/-- The documents of the collection. -/
def storeDocs (store : List ConnectorRow) : List Doc := store.map ConnectorRow.doc

def DEFAULT_PAGE : Nat := 1

def DEFAULT_LIMIT : Nat := 50

def Options.page (o : Options) : Nat := o.pagination.page.getD DEFAULT_PAGE

def Options.limit (o : Options) : Nat := o.pagination.limit.getD DEFAULT_LIMIT

def Options.skip (o : Options) : Nat := (o.page - 1) * o.limit

def liftApi {α : Type} : Except ApiError α → Except EngineError α
  | .ok a => .ok a
  | .error e => .error (.api e)

def liftServer {α : Type} (timezone : String) : Except ServerError α → Except EngineError α
  | .ok a => .ok a
  | .error e => .error (aggregateError e timezone)

/-- The pipelines of one page: the rows and their total. -/
def QueryStages.rowsPipeline (s : QueryStages) (o : Options) : List Stage :=
  s.rowStages ++ [.skip o.skip, .limit o.limit]

def QueryStages.totalPipeline (s : QueryStages) : List Stage :=
  s.group.take 1 ++ [.count "n"]

def pageResult (rt : Runtime) (o : Options) (window : Option Window) (timezone : String)
    (found : List Doc × List Doc) : QueryResult :=
  let rows := found.1.map (normalizeRow rt)
  let total := totalOf found.2
  { excluded := if o.groupMode then collectExcluded found.1 o.metrics else []
    rows
    total
    page := o.page
    pages := if total = 0 then 0 else (total + o.limit - 1) / o.limit
    limit := o.limit
    columns := computeColumns rows o
    groupMode := o.groupMode
    timezone
    window := window.map windowView
    compare := none }

/-- Execute one prepared query. -/
def runPrepared (server : Server) (rt : Runtime) (store : List ConnectorRow) (o : Options)
    (window : Option Window) (timezone : String) (defs : MetricDefs) :
    Except EngineError QueryResult := do
  let stages ← liftApi (buildQueryStages o defs)
  let found ← liftServer timezone
    (aggregateFacet server stages.lead (stages.rowsPipeline o) stages.totalPipeline
      (storeDocs store))
  .ok (pageResult rt o window timezone found)

/-! ## Comparison -/

def COMPARE_SUFFIXES : List String := ["_previous", "_change", "_change_pct"]

def compareErrors (o : Options) (window : Option Window) : List FieldError :=
  let fields := o.groupBy.map GroupBy.field
  let names := metricNames o.metrics
  let bounded := window.any fun w => w.fromDate.isSome && w.toDate.isSome
  (if bounded then [] else
    [{ field := "compare", message := "needs a dateRange with a start and an end" }]) ++
  (if o.groupBy.any fun g => g.bucket.isSome then
    [{ field := "compare",
       message := "cannot be combined with a bucketed groupBy (compare totals or categories)" }]
    else []) ++
  (if o.groupBy.isEmpty && o.metrics.isEmpty then
    [{ field := "compare", message := "needs metrics or groupBy" }] else []) ++
  names.flatMap fun name => COMPARE_SUFFIXES.filterMap fun suffix =>
    if (fields ++ names).contains (name ++ suffix) then
      some { field := "compare",
             message := s!"the comparison column \"{name ++ suffix}\" clashes with an output of the query" }
    else none

/-- A value of a result row that a filter takes. -/
def isScalarValue : Value → Bool
  | .bool _ => true
  | .num n => n.value.isFinite && n.type != .decimal
  | .str s => jsLength s ≤ LIMITS.valueLength
  | _ => false

/-- The filter that keeps a comparison to the groups on the page; none when a value of the
column cannot be filtered on. -/
def narrowingFilter (rows : List Doc) (name : String) : Option Filter :=
  let values := rows.map fun row => Doc.get row name
  if values.all fun v => v.any isScalarValue then
    let distinct := Accumulator.distinct (values.filterMap id)
    if distinct.isEmpty ∨ LIMITS.inValues < distinct.length then none
    else some { field := name, test := .isIn distinct }
  else none

/-- The query over the comparison window. -/
def previousOptions (o : Options) (field : String) (bounds : Int × Int) (rows : List Doc) :
    Options :=
  let base : Options :=
    { o with compare := none
             dateRange := some { field, fromDate := some bounds.1, toDate := some bounds.2 } }
  if o.groupBy.isEmpty then base
  else
    let base := { base with pagination := { page := some 1, limit := some LIMITS.maxLimit } }
    let narrowing := o.groupBy.map fun g => narrowingFilter rows g.field
    if narrowing.all Option.isSome ∧ o.filterGroups.length < LIMITS.filterGroups then
      { base with
        filterGroups := o.filterGroups ++
          [{ filters := narrowing.filterMap id, filtersOp := .and }] }
    else base

/-- What the rows of the two windows are joined on. -/
def rowKey (rt : Runtime) (o : Options) (row : Doc) : String :=
  rt.stringify (o.groupBy.map fun g => (Doc.get row g.field).getD .null)

/-- `typeof v === 'number'`, with the number. -/
def jsNumber : Option Value → Option Magnitude
  | some (.num n) => if n.type = .decimal then none else some n.value
  | _ => none

def magnitudeAbs : Magnitude → Magnitude
  | .finite q => .finite (if q < 0 then -q else q)
  | .negInf => .posInf
  | m => m

def numberOrNull : Option Magnitude → Value
  | some m => .num { type := .double, value := m }
  | none => .null

def compareColumns (rt : Runtime) (row : Doc) (prior : Option Doc) (out : Doc) (name : String) :
    Doc :=
  let current := jsNumber (Doc.get row name)
  let before := prior.bind fun p => jsNumber (Doc.get p name)
  let change := current.bind fun a => before.map fun b => rt.minus a b
  let pct := change.bind fun c =>
    before.bind fun b => if b = .finite 0 then none else some (rt.quotient c (magnitudeAbs b))
  Doc.set (Doc.set (Doc.set out (name ++ "_previous") (numberOrNull before))
    (name ++ "_change") (numberOrNull change)) (name ++ "_change_pct") (numberOrNull pct)

def compareRow (rt : Runtime) (o : Options) (previous : List Doc) (row : Doc) : Doc :=
  let prior := previous.reverse.find? fun p => rowKey rt o p = rowKey rt o row
  (metricNames o.metrics).foldl (compareColumns rt row prior) row

/-- Run a prepared query and its comparison window. -/
def runCompared (server : Server) (rt : Runtime) (store : List ConnectorRow) (p : Prepared)
    (type : CompareType) : Except EngineError QueryResult := do
  let o := { p.options with compare := none }
  let errors := compareErrors o p.window
  if !errors.isEmpty then .error (.api (invalidQuery errors))
  else
    match p.window with
    | some { field, fromDate := some a, toDate := some b, .. } => do
        let current ← runPrepared server rt store o p.window p.timezone p.defs
        let bounds := comparisonWindow rt.zones a b (type = .previousYear) p.timezone
        let window : Window :=
          { field, preset := none, fromDate := some bounds.1, toDate := some bounds.2 }
        let previous ← runPrepared server rt store (previousOptions o field bounds current.rows)
          (some window) p.timezone p.defs
        .ok
          { current with
            rows := current.rows.map (compareRow rt o previous.rows)
            columns := current.columns ++ (metricNames o.metrics).flatMap fun name =>
              COMPARE_SUFFIXES.map fun suffix => name ++ suffix
            compare := some (type, windowView window) }
    | _ => .error (.api (invalidQuery errors))

/-! ## The entry points -/

/-- Execute a prepared query, once or with its comparison. -/
def runQuery (server : Server) (rt : Runtime) (store : List ConnectorRow) (p : Prepared) :
    Except EngineError QueryResult :=
  match p.options.compare with
  | some type => runCompared server rt store p type
  | none => runPrepared server rt store p.options p.window p.timezone p.defs

/-- Run an analytics query. -/
def queryRows (server : Server) (rt : Runtime) (ws : Workspace) (store : List ConnectorRow)
    (raw : EngineOptions) : Except EngineError QueryResult := do
  let p ← liftApi (prepareQuery rt ws raw)
  runQuery server rt store p

/-- A stream of the whole result; `rows` is what reading it to the end yields. -/
structure RowStream where
  groupMode : Bool
  columns : List String
  timezone : String
  window : Option WindowView
  rows : Except EngineError (List Doc)

def keyStages (maxColumns : Nat) : List Stage :=
  let data : Expr := .field ["data"]
  [.project [("_id", .exclude), ("k", .computed (.keys (.cond
      (.compare .eq (.type data) (.literal (.str "object"))) data (.document []))))],
    .unwind "k", .group (.field ["k"]) [], .sort [("_id", .asc)], .limit (maxColumns + 1)]

def shownKeys (keys : List Doc) : List String :=
  keys.filterMap fun k =>
    match Doc.get k "_id" with
    | some (.str s) => if isSensitiveFieldName s then none else some s
    | _ => none

def streamColumns (server : Server) (store : List ConnectorRow) (o : Options) (timezone : String)
    (stages : QueryStages) (maxColumns : Nat) : Except EngineError (List String) := do
  if o.groupMode then .ok (o.groupBy.map GroupBy.field ++ metricNames o.metrics)
  else
    let keys ← liftServer timezone
      (aggregate server (stages.lead ++ keyStages maxColumns) (storeDocs store))
    let columns := shownKeys keys
    if maxColumns < columns.length then
      .error (.api { statusCode := 422, code := .tooManyColumns,
                     message := s!"The result has more than {maxColumns} columns; filter the query or select fewer datasets." })
    else .ok columns

/-- Open a cursor over the whole result of a prepared query. -/
def streamPrepared (server : Server) (rt : Runtime) (store : List ConnectorRow) (p : Prepared)
    (maxColumns : Nat) : Except EngineError RowStream := do
  if p.options.compare.isSome then
    .error (.api (invalidQuery [{
      field := "compare"
      message := "is not accepted: a row stream (export, report artefact) has no comparison window" }]))
  else
    let stages ← liftApi (buildQueryStages p.options p.defs)
    let columns ← streamColumns server store p.options p.timezone stages maxColumns
    .ok
      { groupMode := p.options.groupMode
        columns
        timezone := p.timezone
        window := p.window.map windowView
        rows := liftServer p.timezone
          ((aggregate server (stages.lead ++ stages.rowStages) (storeDocs store)).map
            (List.map (normalizeRow rt))) }

/-- Open a cursor over the whole result of a query; it takes no pages. -/
def openRowStream (server : Server) (rt : Runtime) (ws : Workspace) (store : List ConnectorRow)
    (raw : EngineOptions) (maxColumns : Nat) : Except EngineError RowStream := do
  if isUndefined (field raw.entries "pagination") then do
    let p ← liftApi (prepareQuery rt ws raw)
    streamPrepared server rt store p maxColumns
  else
    .error (.api (invalidQuery [{
      field := "pagination"
      message := "is not accepted: an export always contains the whole result" }]))

end AnalyticsBackend.Analytics
