import AnalyticsBackend.Reports.Service

/-!
# Runs of a report

`run` and `processRun` of `services/report.service.js`, and `handleAnalyticsJob` of
`jobs/analytics.worker.js` as far as reports go.
-/

namespace AnalyticsBackend.Reports
open Lib Mongo Analytics Usage

section Config

variable (config : ReportConfig)

/-- The arguments of `run`. `slot` is the claimed slot that a scheduled run is for; the service has
no such argument. -/
structure RunRequest where
  tenantId : String
  reportId : ObjectId
  actorId : Option String := none
  format : Option String := none
  filters : Option Js := none
  triggeredBy : TriggerSource := .manual
  slot : Option Int := none

/-- `REPORT_FORMATS.includes(format)` of a run. -/
def checkedFormat (format : Option String) : ReportM (Option ReportFormat) :=
  match format with
  | none => return none
  | some text =>
      match ReportFormat.ofText text with
      | some format => return some format
      | none => throw (.api (.badRequest "Invalid report format"
          [{ field := "format", message := "must be one of json, csv, xlsx" }]))

def RunRequest.record (req : RunRequest) (runId : ObjectId) (format : ReportFormat)
    (overrides : Option Js) : RunRecord where
  id := runId
  fields :=
    { status := .pending, format := some format, runBy := req.actorId
      triggeredBy := some req.triggeredBy }
  filters := overrides

def RunRequest.job (req : RunRequest) (runId : ObjectId) (format : ReportFormat)
    (overrides : Option Js) : ReportJob where
  tenantId := req.tenantId
  reportId := req.reportId
  runId := runId
  format := format
  filters := overrides
  triggeredBy := req.triggeredBy
  runBy := req.actorId

def notQueued (now : Int) : RunPatch where
  status := .failed
  finishedAt := some now
  error := some "The report could not be queued; please retry shortly"

/-- `run`: enqueue an ad-hoc or scheduled run; its id. -/
def run (req : RunRequest) : ReportM ObjectId := do
  let overrides ← patchedFilters config req.filters
  let wanted ← checkedFormat req.format
  match ← look fun db => db.findById req.tenantId req.reportId with
  | none => throw (.api (.notFound "Report not found"))
  | some report => do
      let runId ← call .mint fun db => (⟨db.nextId⟩ : ObjectId)
      let format := wanted.getD report.format
      call (.addRun req.reportId (req.record runId format overrides)) fun _ => ()
      match ← call (.enqueue (req.job runId format overrides) req.slot)
          (fun db => db.services.queueRefuses) with
      | none => return runId
      | some refused => do
          let now ← look ReportDb.clock
          let _ ← attempt (completeRun req.reportId runId (notQueued now))
          throw refused

/-- `failureMessage`. -/
def failureMessage : ReportFailure → String
  | .api e =>
      let details := (e.errors.filter fun f => f.field ≠ "").map fun f => s!"{f.field} {f.message}"
      let all := "; ".intercalate details
      slice 2000 (if details = [] then e.message else s!"{e.message}: {all}")
  | .storage => "The report file could not be stored; please retry"
  | .versionError | .other => "The report could not be generated; please retry"

def failedRun (now : Int) (error : String) : RunPatch :=
  { status := .failed, finishedAt := some now, error := some error }

/-- The run of a report. -/
def Report.run (report : Report) (runId : ObjectId) : Option RunRecord :=
  report.runs.find? fun r => r.id = runId

/-- Whether a scheduled run without a requester may act as the owner: an owner who is a user must be
an active member. -/
def ownerMayRun (job : ReportJob) (report : Report) : ReportM Bool := do
  let triggeredBy := ((report.run job.runId).bind fun r => r.fields.triggeredBy).getD job.triggeredBy
  match report.ownerId.or report.createdBy with
  | none => return true
  | some ownerId =>
      if triggeredBy = .schedule ∧ job.runBy = none ∧ isObjectId ownerId then
        look fun db => db.services.activeMember job.tenantId ownerId
      else return true

/-- `ARTIFACT_FORMATS[fmt].ext`. -/
def ReportFormat.ext (f : ReportFormat) : String := f.text

def idText (id : ObjectId) : String := toString id.value

def artifactKey (job : ReportJob) (format : ReportFormat) : String :=
  s!"reports/{job.tenantId}/{idText job.reportId}/{idText job.runId}.{format.ext}"

def readyRun (job : ReportJob) (report : Report) (format : ReportFormat) (out : Artifact)
    (t0 startedAt now : Int) : RunPatch where
  status := .ready
  finishedAt := some now
  durationMs := some (now - t0)
  resultKey := some (artifactKey job format)
  rowCount := some out.rowCount
  truncated := some out.truncated
  rowLimit := some out.rowLimit
  fileName := some (config.artifactFileName report.name format startedAt)
  contentType := some out.contentType
  size := some out.size
  format := some format

/-- The answer of another service that may fail. -/
def ask {A : Type} (f : ReportDb → Except ReportFailure A) : ReportM A := do
  match ← look f with
  | .ok a => return a
  | .error e => throw e

/-- The part of `processRun` that generates the artefact. -/
def generate (job : ReportJob) (report : Report) (t0 : Int) : ReportM Unit := do
  let now ← look ReportDb.clock
  completeRun job.reportId job.runId { status := .running, startedAt := some now }
  let record := report.run job.runId
  let overrides := (record.bind RunRecord.filters).or job.filters
  let execution ← ask fun db => db.services.resolveExecution report overrides
  let format := (record.bind fun r => r.fields.format).getD job.format
  let startedAt ← look ReportDb.clock
  let out ← ask fun db => db.services.writeQueryArtifact execution format (artifactKey job format)
  let finished ← look ReportDb.clock
  completeRun job.reportId job.runId (readyRun config job report format out t0 startedAt finished)

/-- The body of the `try` of `processRun`. -/
def processBody (job : ReportJob) (t0 : Int) : ReportM Unit := do
  match ← look fun db => db.findById job.tenantId job.reportId with
  | none => do
      let now ← look ReportDb.clock
      completeRun job.reportId job.runId (failedRun now "Report not found")
  | some report => do
      if ← ownerMayRun job report then generate config job report t0
      else do
        let now ← look ReportDb.clock
        completeRun job.reportId job.runId (failedRun now
          ("Report owner is no longer an active member of this workspace; reassign or recreate " ++
            "the report to resume scheduled runs"))

/-- `processRun`. -/
def processRun (job : ReportJob) : ReportM Unit := do
  let t0 ← look ReportDb.clock
  match ← attempt (processBody config job t0) with
  | .ok () => return ()
  | .error e => do
      let now ← look ReportDb.clock
      completeRun job.reportId job.runId
        { failedRun now (failureMessage e) with durationMs := some (now - t0) }

/-- `handleAnalyticsJob` of a report: the run of a workspace that is not active is skipped. -/
def handleAnalyticsJob (job : ReportJob) : ReportM Unit := do
  if ← look fun db => db.services.tenantActive job.tenantId then processRun config job
  else do
    let now ← look ReportDb.clock
    completeRun job.reportId job.runId (failedRun now "Skipped: the workspace is not active")

end Config

end AnalyticsBackend.Reports
