import AnalyticsBackend.Lib.Collection
import AnalyticsBackend.Lib.Guided
import AnalyticsBackend.Metrics.Definition

/-!
# The metric catalogue

`repositories/metricDefinition.repository.js` and the lifecycle of
`services/metricDefinition.service.js`. The audit trail, which is best-effort, and the views of a
version that leave fields out are not modelled.
-/

namespace AnalyticsBackend.Metrics
open Lib Lib.Mongo Analytics

/-! ## The store -/

/-- The stored versions in the order of their inserts, the clock, and the datasets of a workspace. -/
structure MetricDb where
  versions : List VersionRow
  clock : Int
  datasetOwned : String → String → Bool

def VersionRow.isOf (tenantId key : String) (row : VersionRow) : Bool :=
  row.content.tenantId = tenantId && row.content.definition.key = key

namespace MetricDb

def ofKey (db : MetricDb) (tenantId key : String) : List VersionRow :=
  db.versions.filter (VersionRow.isOf tenantId key)

/-- `findVersion`. -/
def findVersion (db : MetricDb) (tenantId key : String) (version : Nat) : Option VersionRow :=
  db.versions.find? fun row => row.isOf tenantId key && row.content.version = version

/-- `findLatest`. -/
def findLatest (db : MetricDb) (tenantId key : String) (status : Option MetricStatus) :
    Option VersionRow :=
  ((db.ofKey tenantId key).filter fun row => status.all fun s => row.status = s).argmax
    fun row => row.content.version

end MetricDb

/-- An atomic step. -/
inductive MetricLabel where
  | look
  | insert (content : MetricVersion)
  | approve (tenantId key : String) (version : Nat) (by' : Option String) (now : Int)
  | archiveKey (tenantId key : String) (by' : Option String) (now : Int)

/-- A version with the same place in the unique index. -/
def MetricVersion.clashes (content : MetricVersion) (row : VersionRow) : Bool :=
  row.isOf content.tenantId content.definition.key && row.content.version = content.version

/-- The unique index takes an insert. -/
def MetricDb.admits (db : MetricDb) (content : MetricVersion) : Bool :=
  !db.versions.any content.clashes

/-- The filter of `setStatus` from `draft`. -/
def isDraft (tenantId key : String) (version : Nat) (row : VersionRow) : Bool :=
  row.isOf tenantId key && row.content.version = version && row.status = .draft

def VersionRow.approve (by' : Option String) (now : Int) (row : VersionRow) : VersionRow :=
  { row with status := .approved, approvedBy := by', approvedAt := some now }

/-- The update of `archiveKey`, for the versions that are not archived. -/
def VersionRow.archive (by' : Option String) (now : Int) (row : VersionRow) : VersionRow :=
  if row.status = .archived then row
  else { row with status := .archived, archivedBy := by', archivedAt := some now }

/-- What a step does. -/
def MetricLabel.act (label : MetricLabel) (db : MetricDb) : MetricDb :=
  match label with
  | .look => db
  | .insert content =>
      if db.admits content then { db with versions := db.versions ++ [{ content, status := .draft }] }
      else db
  | .approve tenantId key version by' now =>
      { db with
        versions := Collection.updateFirst (isDraft tenantId key version) (VersionRow.approve by' now)
          db.versions }
  | .archiveKey tenantId key by' now =>
      { db with
        versions := db.versions.map fun row =>
          if row.isOf tenantId key then row.archive by' now else row }

abbrev MetricProg := Prog MetricLabel MetricDb

/-- A program that may throw. -/
abbrev MetricM := ExceptT ApiError MetricProg

/-- One step. -/
def call {A : Type} (label : MetricLabel) (report : MetricDb → A) : MetricM A :=
  ExceptT.lift (Prog.update label label.act report)

/-- A stored read, or a question to another service. -/
def look {A : Type} (f : MetricDb → A) : MetricM A := call .look f

/-! ## Reading -/

/-- `get` of one version. -/
def get (tenantId key : String) (version : Nat) : MetricM VersionRow := do
  if !isMetricKey key then throw (notFound key)
  else
    let versions ← look fun db => db.ofKey tenantId key
    if versions.isEmpty then throw (notFound key)
    else
      match versions.find? fun row => row.content.version = version with
      | some row => return row
      | none => throw (notFound s!"{key}@{version}")

/-- The arguments of `resolveMetricRef`. -/
structure ResolveRef where
  tenantId : String
  ref : String
  includeDrafts : Bool := false
  deriving DecidableEq, Repr

/-- `resolveMetricRef`. -/
def resolveMetricRef (req : ResolveRef) : MetricM (Option VersionRow) := do
  if req.tenantId = "" ∨ !isMetricRef req.ref then return none
  else
    let key := refKey req.ref
    match refVersion req.ref with
    | some version => do
        let doc ← look fun db => db.findVersion req.tenantId key version
        return doc.filter fun row =>
          row.status = .approved || (req.includeDrafts && row.status = .draft)
    | none => do
        match ← look fun db => db.findLatest req.tenantId key (some .approved) with
        | some row => return some row
        | none =>
            if req.includeDrafts then
              look fun db => db.findLatest req.tenantId key (some .draft)
            else return none

/-! ## The lifecycle -/

def tenantRequired : ApiError := .badRequest "tenantId is required"

def checked {A : Type} : Except ApiError A → MetricM A
  | .ok a => return a
  | .error e => throw e

/-- `assertDatasetOwned`. -/
def assertDatasetOwned (tenantId connectorId : String) : MetricM Unit := do
  if ← look fun db => db.datasetOwned tenantId connectorId then return ()
  else
    throw (invalid [{ field := "connectorId", message := "must be a dataset of this workspace" }])

def metricExists (key : String) : ApiError where
  statusCode := 409
  code := .metricExists
  message := s!"A metric with key \"{key}\" already exists"

def metricArchived (key : String) : ApiError where
  statusCode := 409
  code := .metricArchived
  message := s!"Metric \"{key}\" is archived"

def notDraft (message : String) : ApiError where
  statusCode := 409
  code := .metricNotDraft
  message := message

def statusText : MetricStatus → String
  | .draft => "draft"
  | .approved => "approved"
  | .archived => "archived"

section Lifecycle

variable (rt : Runtime)

/-- The arguments of `create`. -/
structure CreateMetric where
  tenantId : String
  actorId : Option String := none
  input : Js
  source : MetricSource := .manual
  rationale : Option String := none

/-- `create`: version 1, a draft. -/
def create (req : CreateMetric) : MetricM VersionRow := do
  if req.tenantId = "" then throw tenantRequired
  else
    let definition ← checked (sanitizeDefinition rt req.input)
    assertDatasetOwned req.tenantId definition.connectorId
    match ← look fun db => db.findLatest req.tenantId definition.key none with
    | some _ => throw (metricExists definition.key)
    | none => do
        let content : MetricVersion :=
          { tenantId := req.tenantId, version := 1, definition, source := req.source
            rationale := req.rationale, createdBy := req.actorId }
        if ← call (.insert content) fun db => db.admits content then
          return { content, status := .draft }
        else throw (metricExists definition.key)

/-- The arguments of `update`. -/
structure UpdateMetric where
  tenantId : String
  key : String
  actorId : Option String := none
  patch : Js

def patched (latest : Definition) (patch : List (String × Js)) (key : String) : Js :=
  .obj (JsObject.set (JsObject.assign latest.base patch) "key" (.str key))

def checkedPatch (patch : Js) (key : String) : Except ApiError (List (String × Js)) :=
  match patch.plainObject with
  | none | some [] => .error (invalid [{ field := "body", message := "nothing to change" }])
  | some fields =>
      match field fields "key" with
      | .undefined => .ok fields
      | .str s =>
          if s = key then .ok fields
          else .error (invalid [{ field := "key", message := "cannot be changed" }])
      | _ => .error (invalid [{ field := "key", message := "cannot be changed" }])

/-- `update`: the patch on the latest version is the next version, a draft. -/
def update (req : UpdateMetric) : MetricM VersionRow := do
  if req.tenantId = "" then throw tenantRequired
  else
    match ← look fun db => db.findLatest req.tenantId req.key none with
    | none => throw (notFound req.key)
    | some latest =>
        if latest.status = .archived then throw (metricArchived req.key)
        else do
          let patch ← checked (checkedPatch req.patch req.key)
          let definition ← checked
            (sanitizeDefinition rt (patched latest.content.definition patch req.key))
          assertDatasetOwned req.tenantId definition.connectorId
          let content : MetricVersion :=
            { tenantId := req.tenantId, version := latest.content.version + 1, definition
              source := .manual, rationale := none, createdBy := req.actorId }
          if ← call (.insert content) fun db => db.admits content then
            get req.tenantId req.key content.version
          else
            throw (.conflict s!"Metric \"{req.key}\" was changed concurrently; reload and retry")

/-- The arguments of `approve`; the version is what `Number(version)` gives. -/
structure ApproveMetric where
  tenantId : String
  key : String
  version : Magnitude
  actorId : Option String := none

/-- `Number.isInteger(v) && v >= 1`. -/
def versionNumber (m : Magnitude) : Option Nat :=
  (m.integer.filter fun v => 1 ≤ v).map Int.toNat

/-- `approve`: a draft becomes approved. -/
def approve (req : ApproveMetric) : MetricM VersionRow := do
  if req.tenantId = "" then throw tenantRequired
  else
    match versionNumber req.version with
    | none => throw (invalid [{ field := "version", message := "must be a version number" }])
    | some v => do
        match ← look fun db => db.findVersion req.tenantId req.key v with
        | none => throw (notFound s!"{req.key}@{v}")
        | some doc =>
            if doc.status ≠ .draft then
              throw (notDraft s!"Version {v} of \"{req.key}\" is {statusText doc.status}, not a draft")
            else do
              let now ← look MetricDb.clock
              if ← call (.approve req.tenantId req.key v req.actorId now)
                  (fun db => db.versions.any (isDraft req.tenantId req.key v)) then
                get req.tenantId req.key v
              else throw (notDraft s!"Version {v} of \"{req.key}\" is no longer a draft")

/-- `archive`: every version of a metric; how many it changed. -/
def archive (tenantId key : String) (actorId : Option String) : MetricM Nat := do
  if tenantId = "" then throw tenantRequired
  else
    match ← look fun db => db.findLatest tenantId key none with
    | none => throw (notFound key)
    | some _ => do
        let now ← look MetricDb.clock
        call (.archiveKey tenantId key actorId now) fun db =>
          (db.ofKey tenantId key).countP fun row => row.status ≠ .archived

/-! ## The system -/

inductive MetricCall where
  | create (req : CreateMetric)
  | update (req : UpdateMetric)
  | approve (req : ApproveMetric)
  | archive (tenantId key : String) (actorId : Option String)
  | resolve (req : ResolveRef)

/-- What a call answers. -/
inductive MetricReply where
  | version (row : VersionRow)
  | archived (tenantId key : String) (versions : Nat)
  | resolved (req : ResolveRef) (row : Option VersionRow)

def MetricCall.program : MetricCall → MetricM MetricReply
  | .create req => do return .version (← Metrics.create rt req)
  | .update req => do return .version (← Metrics.update rt req)
  | .approve req => do return .version (← Metrics.approve req)
  | .archive tenantId key actorId => do
      return .archived tenantId key (← Metrics.archive tenantId key actorId)
  | .resolve req => do return .resolved req (← resolveMetricRef req)

/-- Any number of calls by any callers. From outside, time passes and datasets come and go. -/
def metricSystem : System Nat MetricLabel MetricDb (Except ApiError MetricReply) where
  start := fun _ p => ∃ call : MetricCall, p = (call.program rt).run
  env := fun db db' => ∃ clock datasetOwned, db' = { db with clock, datasetOwned }
  ok := fun _ _ _ => True

end Lifecycle

end AnalyticsBackend.Metrics
