import AnalyticsBackend.Lib.Guided
import AnalyticsBackend.Lib.Mongo.Value
import AnalyticsBackend.Reports.Cron
import AnalyticsBackend.Usage.Reconcile

/-!
# Reports

`models/Report.js` with its soft-delete and dependency plugins, and `repositories/report.repository.js`.
The audit trail, timestamps, and the other services' own stores are left out: what a report asks of
another service is answered by `Services`, which may change at any time.
-/

namespace AnalyticsBackend.Reports
open Lib Collection Mongo Analytics Usage

/-! ## Documents -/

/-- `REPORT_STATUSES`. -/
inductive ReportStatus where
  | draft
  | active
  | paused
  | archived
  deriving DecidableEq, Repr

inductive ReportFormat where
  | json
  | csv
  | xlsx
  deriving DecidableEq, Repr

/-- `REPORT_SOURCES`. -/
inductive ReportSource where
  | widget
  | query
  deriving DecidableEq, Repr

/-- `RUN_STATUSES`. -/
inductive RunStatus where
  | pending
  | running
  | ready
  | failed
  deriving DecidableEq, Repr

/-- `TRIGGER_SOURCES`. -/
inductive TriggerSource where
  | manual
  | schedule
  | alert
  deriving DecidableEq, Repr

inductive RecipientType where
  | user
  | external
  deriving DecidableEq, Repr

structure Recipient where
  type : RecipientType
  value : String
  deriving DecidableEq, Repr

/-- `scheduleSchema`. -/
structure Schedule where
  enabled : Bool
  cron : String
  timezone : Option String
  recipients : List Recipient
  format : ReportFormat
  destinationIds : List String
  deriving DecidableEq, Repr

/-- The fields that an element of `runs` and `lastRun` share. A field that was never stored reads as
its default. -/
structure RunFields where
  status : RunStatus := .pending
  startedAt : Option Int := none
  finishedAt : Option Int := none
  durationMs : Option Int := none
  format : Option ReportFormat := none
  resultKey : Option String := none
  expiredAt : Option Int := none
  rowCount : Option Nat := none
  truncated : Bool := false
  rowLimit : Option Nat := none
  fileName : Option String := none
  contentType : Option String := none
  size : Option Nat := none
  error : Option String := none
  runBy : Option String := none
  triggeredBy : Option TriggerSource := none
  deriving DecidableEq, Repr

/-- `runSchema`: an element of `runs`. -/
structure RunRecord where
  id : ObjectId
  fields : RunFields
  filters : Option Js

/-- The broken marker of the `dependencyHealth` plugin. -/
structure Broken where
  brokenAt : Int
  brokenReason : String
  brokenRef : Option String
  deriving DecidableEq, Repr

/-- `reportSchema`; `version` is `__v`. -/
structure Report where
  id : ObjectId
  tenantId : String
  ownerId : Option String
  name : String
  description : String
  status : ReportStatus
  source : ReportSource
  dashboardId : Option String
  widgetId : Option String
  query : Option Js
  format : ReportFormat
  filters : Js
  schedule : Schedule
  runs : List RunRecord := []
  lastRun : RunFields := {}
  nextRunAt : Option Int
  lockedBy : Option String := none
  lockedUntil : Option Int := none
  lastScheduledAt : Option Int := none
  createdBy : Option String
  updatedBy : Option String := none
  broken : Option Broken := none
  deletedAt : Option Int := none
  deletedBy : Option String := none
  version : Nat := 0

/-- The filter of the `softDelete` plugin. -/
def Report.live (r : Report) : Bool := r.deletedAt = none

/-- `datasetId` of a query. -/
def datasetOf (query : Option Js) : Option String :=
  match query with
  | some (.obj fields) => (field fields "datasetId").text.filter (· ≠ "")
  | _ => none

/-- `reference` of the plugin: what the report reads from. -/
def Report.reference (r : Report) : Option String :=
  match r.source with
  | .widget => (r.widgetId.filter (· ≠ "")).map fun id => s!"widget:{id}"
  | .query => (datasetOf r.query).map fun id => s!"connector:{id}"

/-! ## Updates -/

/-- The `$set` of `reportRepository.update`. -/
structure ReportSet where
  name : Option String := none
  description : Option String := none
  status : Option ReportStatus := none
  source : Option ReportSource := none
  dashboardId : Option String := none
  widgetId : Option String := none
  query : Option Js := none
  format : Option ReportFormat := none
  filters : Option Js := none
  schedule : Option Schedule := none
  nextRunAt : Option (Option Int) := none
  updatedBy : Option (Option String) := none

def ReportSet.apply (set : ReportSet) (r : Report) : Report :=
  { r with
    name := set.name.getD r.name
    description := set.description.getD r.description
    status := set.status.getD r.status
    source := set.source.getD r.source
    dashboardId := set.dashboardId.or r.dashboardId
    widgetId := set.widgetId.or r.widgetId
    query := set.query.or r.query
    format := set.format.getD r.format
    filters := set.filters.getD r.filters
    schedule := set.schedule.getD r.schedule
    nextRunAt := set.nextRunAt.getD r.nextRunAt
    updatedBy := set.updatedBy.getD r.updatedBy }

/-- `updateEnables`: the update switches the schedule on. -/
def ReportSet.enables (set : ReportSet) : Bool := set.schedule.any Schedule.enabled

/-- `updateTouchesFields` of the reference fields. -/
def ReportSet.touchesReference (set : ReportSet) : Bool :=
  set.source.isSome || set.widgetId.isSome || set.query.isSome

/-- The patch of `completeRun`. -/
structure RunPatch where
  status : RunStatus
  startedAt : Option Int := none
  finishedAt : Option Int := none
  durationMs : Option Int := none
  resultKey : Option String := none
  rowCount : Option Nat := none
  truncated : Option Bool := none
  rowLimit : Option (Option Nat) := none
  fileName : Option String := none
  contentType : Option String := none
  size : Option Nat := none
  format : Option ReportFormat := none
  error : Option String := none
  deriving DecidableEq, Repr

def RunPatch.apply (patch : RunPatch) (f : RunFields) : RunFields :=
  { f with
    status := patch.status
    startedAt := patch.startedAt.or f.startedAt
    finishedAt := patch.finishedAt.or f.finishedAt
    durationMs := patch.durationMs.or f.durationMs
    resultKey := patch.resultKey.or f.resultKey
    rowCount := patch.rowCount.or f.rowCount
    truncated := patch.truncated.getD f.truncated
    rowLimit := patch.rowLimit.getD f.rowLimit
    fileName := patch.fileName.or f.fileName
    contentType := patch.contentType.or f.contentType
    size := patch.size.or f.size
    format := patch.format.or f.format
    error := patch.error.or f.error }

def RunPatch.complete (patch : RunPatch) (run : RunRecord) : RunRecord :=
  { run with fields := patch.apply run.fields }

/-- `maxHistory`. -/
def maxHistory : Nat := 100

/-- The `$push` and `$set` of `addRun`. -/
def Report.addRun (run : RunRecord) (r : Report) : Report :=
  let runs := r.runs ++ [run]
  { r with runs := runs.drop (runs.length - maxHistory), lastRun := run.fields }

/-- The first update of `completeRun`: the element that `runs.$` is. -/
def Report.completeRun (runId : ObjectId) (patch : RunPatch) (r : Report) : Report :=
  { r with runs := updateFirst (fun run => run.id = runId) patch.complete r.runs }

/-- The second update of `completeRun`. -/
def Report.mirrorRun (patch : RunPatch) (r : Report) : Report :=
  { r with lastRun := patch.apply r.lastRun }

/-- The arguments of `claimDueSchedule`. -/
structure ScheduleClaim where
  id : ObjectId
  expectedNextRunAt : Option Int
  nextRunAt : Option Int
  owner : String
  leaseMs : Int
  now : Int
  deriving DecidableEq, Repr

/-- `SCHEDULABLE_STATUSES`. -/
def ReportStatus.schedulable (s : ReportStatus) : Bool := s ≠ .archived

/-- `leaseFree`. -/
def Report.leaseFree (now : Int) (r : Report) : Bool := r.lockedUntil.all fun t => t ≤ now

/-- The filter of `findByDueSchedule`. -/
def Report.due (now : Int) (r : Report) : Bool :=
  r.live && r.schedule.enabled && r.nextRunAt.any (fun t => t ≤ now) && r.status.schedulable &&
    r.leaseFree now

/-- The filter of `claimDueSchedule`. -/
def ScheduleClaim.selects (claim : ScheduleClaim) (r : Report) : Bool :=
  r.id = claim.id && r.live && r.schedule.enabled && r.nextRunAt = claim.expectedNextRunAt &&
    r.status.schedulable && r.leaseFree claim.now

def ScheduleClaim.apply (claim : ScheduleClaim) (r : Report) : Report :=
  { r with
    nextRunAt := claim.nextRunAt
    lockedBy := some claim.owner
    lockedUntil := some (claim.now + claim.leaseMs)
    lastScheduledAt := some claim.now }

/-! ## The store -/

/-- What ends a call: an `ApiError`, the `VersionError` of a `save`, or another error. -/
inductive ReportFailure where
  | api (error : ApiError)
  | versionError
  | storage
  | other
  deriving DecidableEq, Repr

/-- What `resolveExecution` answers. -/
structure Execution where
  datasetId : String
  params : Js

/-- What `writeQueryArtifact` answers. -/
structure Artifact where
  rowCount : Nat
  truncated : Bool
  rowLimit : Option Nat
  contentType : String
  size : Nat
  deriving DecidableEq, Repr

/-- What other services answer at the moment: the workspace time zone, whether a workspace is active
and has scheduled delivery, its members and destinations, what `assertMetricRefsActive` objects to a
query, its entitlements, what the queue refuses a job with, and the execution of a report. -/
structure Services where
  timezone : String → String
  tenantActive : String → Bool
  scheduledDelivery : String → Bool
  activeMember : String → String → Bool
  destinationOwned : String → String → Bool
  metricRefs : String → Js → Option ApiError
  entitlement : String → UsageMetric → Entitlement
  queueRefuses : Option ReportFailure
  resolveExecution : Report → Option Js → Except ReportFailure Execution
  writeQueryArtifact : Execution → ReportFormat → String → Except ReportFailure Artifact

/-- The data of an analytics job of type `report`. -/
structure ReportJob where
  tenantId : String
  reportId : ObjectId
  runId : ObjectId
  format : ReportFormat
  filters : Option Js
  triggeredBy : TriggerSource
  runBy : Option String

/-- The stores that the report service writes, the clock, and the other services. -/
structure ReportDb where
  reports : List Report
  usage : UsageDb
  queue : List ReportJob
  nextId : Nat
  clock : Int
  services : Services

namespace ReportDb

/-- `findById` under `tenantId`. -/
def findById (db : ReportDb) (tenantId : String) (id : ObjectId) : Option Report :=
  db.reports.find? fun r => r.id = id && r.tenantId = tenantId && r.live

/-- `findById` of the model. -/
def findLive (db : ReportDb) (id : ObjectId) : Option Report :=
  db.reports.find? fun r => r.id = id && r.live

/-- `findByDueSchedule`, the oldest first. -/
def findByDueSchedule (db : ReportDb) (now : Int) (limit : Nat) : List Report :=
  ((db.reports.filter (Report.due now)).insertionSort fun a b =>
    a.nextRunAt.getD 0 ≤ b.nextRunAt.getD 0).take limit

/-- The filter of `reprojectSchedules`. -/
def following (db : ReportDb) (tenantId : String) : List Report :=
  db.reports.filter fun r => r.tenantId = tenantId && r.live && r.schedule.enabled &&
    (r.schedule.timezone.all fun tz => tz = "")

end ReportDb

/-- An atomic step. `enqueue` says which claimed slot a scheduled run is for, which the queue does not
see. -/
inductive ReportLabel where
  | look
  | mint
  | create (report : Report)
  | update (id : ObjectId) (set : ReportSet)
  | clearBroken (id : ObjectId)
  | softDelete (id : ObjectId) (version : Nat) (by' : Option String) (now : Int)
  | addRun (id : ObjectId) (run : RunRecord)
  | completeRun (id runId : ObjectId) (patch : RunPatch)
  | mirrorRun (id : ObjectId) (patch : RunPatch)
  | claimDueSchedule (claim : ScheduleClaim)
  | releaseScheduleClaim (id : ObjectId) (owner : String)
  | enqueue (job : ReportJob) (slot : Option Int)
  | consume (metric : UsageMetric) (label : UsageLabel)
  | release (metric : UsageMetric) (label : UsageLabel)

def ReportLabel.onCounters : ReportLabel → Bool
  | .consume _ _ | .release _ _ => true
  | _ => false

/-- Which report an update selects, and what it makes of it. -/
def ReportLabel.selects : ReportLabel → Report → Bool
  | .update id _, r => r.id = id && r.live
  | .clearBroken id, r => r.id = id && r.broken.isSome
  | .softDelete id version _ _, r => r.id = id && r.version = version
  | .addRun id _, r => r.id = id && r.live
  | .completeRun id runId _, r => r.id = id && r.live && r.runs.any fun run => run.id = runId
  | .mirrorRun id _, r => r.id = id
  | .claimDueSchedule claim, r => claim.selects r
  | .releaseScheduleClaim id owner, r => r.id = id && r.lockedBy = some owner
  | _, _ => false

def ReportLabel.set : ReportLabel → Report → Report
  | .update _ set, r => set.apply r
  | .clearBroken _, r => { r with broken := none }
  | .softDelete _ _ by' now, r =>
      { r with deletedAt := some now, deletedBy := by', version := r.version + 1 }
  | .addRun _ run, r => r.addRun run
  | .completeRun _ runId patch, r => r.completeRun runId patch
  | .mirrorRun _ patch, r => r.mirrorRun patch
  | .claimDueSchedule claim, r => claim.apply r
  | .releaseScheduleClaim _ _, r => { r with lockedBy := none, lockedUntil := none }
  | _, r => r

/-- What a step does, apart from those on the usage counters. -/
def ReportLabel.act (label : ReportLabel) (db : ReportDb) : ReportDb :=
  match label with
  | .look | .consume _ _ | .release _ _ => db
  | .mint => { db with nextId := db.nextId + 1 }
  | .create report =>
      { db with
        reports := db.reports ++ [{ report with id := ⟨db.nextId⟩ }]
        nextId := db.nextId + 1 }
  | .enqueue job _ =>
      if db.services.queueRefuses.isSome then db else { db with queue := db.queue ++ [job] }
  | label => { db with reports := updateFirst label.selects label.set db.reports }

/-- The report that an update selects, as it was. -/
def ReportLabel.found (label : ReportLabel) (db : ReportDb) : Option Report :=
  db.reports.find? label.selects

abbrev ReportProg := Prog ReportLabel ReportDb

/-- A program that may throw. -/
abbrev ReportM := ExceptT ReportFailure ReportProg

/-- One step. -/
def call {A : Type} (label : ReportLabel) (report : ReportDb → A) : ReportM A :=
  ExceptT.lift (Prog.update label label.act report)

/-- A stored read, or a question to another service. -/
def look {A : Type} (f : ReportDb → A) : ReportM A := call .look f

def onUsage {A : Type} (label : UsageLabel → ReportLabel) (p : UsageProg A) : ReportM A :=
  ExceptT.lift (p.onto ReportDb.usage (fun usage db => { db with usage }) label)

/-- A `try` whose `catch` goes on. -/
def attempt {A : Type} (p : ReportM A) : ReportM (Except ReportFailure A) :=
  ExceptT.mk (p.run >>= fun result => pure (.ok result))

/-! ## The repository -/

def dependencyBroken : ApiError where
  statusCode := 409
  code := .dependencyBroken
  message := "This report schedule cannot be turned on: the dataset it reads from was deleted. " ++
    "Point it at another dataset or widget first."

/-- The hook before an update: `refuseEnablingWhileBroken`. -/
def refuseEnablingWhileBroken (id : ObjectId) (set : ReportSet) : ReportM Unit := do
  if set.enables then
    match ← look fun db => db.findLive id with
    | none => return ()
    | some current =>
        match current.broken with
        | none => return ()
        | some broken =>
            if (set.apply current).reference ≠ broken.brokenRef then return ()
            else throw (.api dependencyBroken)
  else return ()

/-- The hook after an update: `repairWhenReferenceChanges`. -/
def repairWhenReferenceChanges (set : ReportSet) (doc : Report) : ReportM Unit :=
  match doc.broken with
  | none => return ()
  | some broken =>
      if !set.touchesReference ∨ (doc.reference.isSome ∧ doc.reference = broken.brokenRef) then
        return ()
      else call (.clearBroken doc.id) fun _ => ()

/-- `update`: the updated report, or none. -/
def updateReport (id : ObjectId) (set : ReportSet) : ReportM (Option Report) := do
  refuseEnablingWhileBroken id set
  match ← call (.update id set) (fun db => (db.findLive id).map set.apply) with
  | none => return none
  | some doc => do
      repairWhenReferenceChanges set doc
      return some doc

/-- `remove`: `softDeleteById` reads the report and saves it under its version. -/
def removeReport (id : ObjectId) (by' : Option String) : ReportM Bool := do
  match ← look fun db => db.findLive id with
  | none => return false
  | some doc => do
      let now ← look ReportDb.clock
      let label := ReportLabel.softDelete id doc.version by' now
      if ← call label (fun db => (label.found db).isSome) then return true
      else throw .versionError

/-- `completeRun`. -/
def completeRun (id runId : ObjectId) (patch : RunPatch) : ReportM Unit := do
  call (.completeRun id runId patch) fun _ => ()
  call (.mirrorRun id patch) fun _ => ()
  look fun _ => ()

end AnalyticsBackend.Reports
