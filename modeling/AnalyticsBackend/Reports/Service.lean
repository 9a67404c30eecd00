import AnalyticsBackend.Reports.Report

/-!
# The report service

`services/report.service.js`, with `withQuota` of `services/usage.service.js` and `safeNextRun` of
`jobs/claims.js`. The audit trail, run attribution and deliveries, which are best-effort and write
nothing of a report, are left out.
-/

namespace AnalyticsBackend.Reports
open Lib Mongo Analytics Usage

/-- The configuration, and the pure parts of the service that other modules own: the validation of a
query and of a filter envelope, the lower-case stem of a file name, and the zone data. -/
structure ReportConfig where
  zones : Zones
  claimLeaseMs : Int
  maxRecipients : Nat
  sanitizeReportQuery : Js → Except ApiError Js
  sanitizeReportFilters : Js → Except ApiError Js
  artifactFileName : String → ReportFormat → Int → String

/-! ## Names of enumerated values -/

def ReportFormat.text : ReportFormat → String
  | .json => "json"
  | .csv => "csv"
  | .xlsx => "xlsx"

def ReportFormat.ofText (s : String) : Option ReportFormat :=
  [ReportFormat.json, .csv, .xlsx].find? fun f => f.text = s

def ReportStatus.text : ReportStatus → String
  | .draft => "draft"
  | .active => "active"
  | .paused => "paused"
  | .archived => "archived"

def ReportStatus.ofText (s : String) : Option ReportStatus :=
  [ReportStatus.draft, .active, .paused, .archived].find? fun f => f.text = s

def ReportSource.ofText (s : String) : Option ReportSource :=
  if s = "widget" then some .widget else if s = "query" then some .query else none

/-! ## Schedules -/

def DEFAULT_REPORT_CRON : String := "0 0 * * *"

/-- The schedule of a request; on an update the fields that are not there stay. -/
structure SchedulePatch where
  enabled : Option Bool := none
  cron : Option String := none
  timezone : Option (Option String) := none
  recipients : Option (List Recipient) := none
  format : Option String := none
  destinationIds : Option (List String) := none
  deriving DecidableEq, Repr

/-- `{ ...existing.schedule, ...patch.schedule }`. -/
def Schedule.with (s : Schedule) (patch : SchedulePatch) : SchedulePatch where
  enabled := some (patch.enabled.getD s.enabled)
  cron := some (patch.cron.getD s.cron)
  timezone := some (patch.timezone.getD s.timezone)
  recipients := some (patch.recipients.getD s.recipients)
  format := some (patch.format.getD s.format.text)
  destinationIds := some (patch.destinationIds.getD s.destinationIds)

section Config

variable (config : ReportConfig)

/-- `scheduleTimezone`. -/
def scheduleTimezone (value : Option String) : Except ApiError (Option String) :=
  match value.filter (· ≠ "") with
  | none => .ok none
  | some name =>
      if !isValidTimeZone config.zones name then
        .error (.badRequest "Invalid schedule time zone"
          [{ field := "schedule.timezone",
             message := "must be an IANA time zone name, or empty to use the workspace time zone" }])
      else .ok (some (normalizeTimeZone config.zones name))

/-- `sanitizeSchedule`, at time `now`. -/
def sanitizeSchedule (schedule : SchedulePatch) (defaultFormat : ReportFormat) (now : Int) :
    Except ApiError Schedule := do
  let timezone ← scheduleTimezone config (schedule.timezone.getD none)
  let out : Schedule :=
    { enabled := schedule.enabled.getD false
      cron := schedule.cron.getD DEFAULT_REPORT_CRON
      timezone
      format := (schedule.format.bind ReportFormat.ofText).getD defaultFormat
      recipients := schedule.recipients.getD []
      destinationIds := schedule.destinationIds.getD [] }
  if out.enabled ∧ trim out.cron = "" then
    .error (.badRequest "an enabled schedule requires a cron expression")
  else if out.enabled then
    match assertValidCron config.zones out.cron now (out.timezone.getD "UTC") with
    | .error message => .error (.badRequest message)
    | .ok () => .ok out
  else .ok out

/-- `OBJECT_ID_RE`. -/
@[irreducible]
def isObjectId (value : String) : Bool := isHexId value

/-- `RECIPIENT_EMAIL_RE`. -/
@[irreducible]
def isRecipientEmail (value : String) : Bool :=
  match splitChars '@' value.toList with
  | [name, domain] =>
      !name.isEmpty && (name ++ domain).all (fun c => !isJsSpace c) &&
        (domain.drop 1).dropLast.contains '.'
  | _ => false

def invalidRecipient (message : String) : ReportFailure :=
  .api (.badRequest "Invalid recipient" [{ field := "schedule.recipients", message }])

def validateRecipient (tenantId : String) (r : Recipient) : ReportM Recipient :=
  let value := trim r.value
  match r.type with
  | .external =>
      if isRecipientEmail value then return { type := .external, value := value.toLower }
      else throw (invalidRecipient "external recipients must be email addresses")
  | .user =>
      let refused := invalidRecipient "user recipients must be active members of this workspace"
      if isObjectId value then do
        if ← look fun db => db.services.activeMember tenantId value then
          return { type := .user, value }
        else throw refused
      else throw refused

def validateRecipients (tenantId : String) : List Recipient → ReportM (List Recipient)
  | [] => return []
  | r :: rest => do
      let valid ← validateRecipient tenantId r
      return valid :: (← validateRecipients tenantId rest)

/-- `assertDestinationsOwned`. -/
def assertDestinationsOwned (tenantId : String) (ids : List String) (field : String) :
    ReportM (List String) := do
  let unique := ids.dedup
  if unique.any fun id => !isObjectId id then
    throw (.api (.badRequest "Invalid destinations" [{ field, message := "must be destination ids" }]))
  else if unique.isEmpty then return []
  else if ← look fun db => unique.all (db.services.destinationOwned tenantId) then return unique
  else
    throw (.api (.badRequest "Invalid destinations"
      [{ field, message := "must be destinations of this workspace" }]))

/-- `validateScheduleDelivery`. -/
def validateScheduleDelivery (tenantId : String) (schedule : Schedule) : ReportM Schedule := do
  if config.maxRecipients < schedule.recipients.length then
    throw (.api (.badRequest "Too many recipients"
      [{ field := "schedule.recipients", message := s!"at most {config.maxRecipients}" }]))
  else do
    let recipients ← validateRecipients tenantId schedule.recipients
    let destinationIds ← assertDestinationsOwned tenantId schedule.destinationIds
      "schedule.destinationIds"
    return { schedule with recipients, destinationIds }

def Schedule.effectiveCron (s : Schedule) : String :=
  if s.cron = "" then DEFAULT_REPORT_CRON else s.cron

def Schedule.ownZone (s : Schedule) : Option String := s.timezone.filter (· ≠ "")

/-- `effectiveScheduleTimezone`. -/
def effectiveScheduleTimezone (tenantId : String) (schedule : Schedule) : ReportM String :=
  match schedule.ownZone with
  | some name => return normalizeTimeZone config.zones name
  | none => look fun db => db.services.timezone tenantId

/-- `projectNextRun` from an instant. An error is that of `nextCronDate`. -/
def projectNextRun (tenantId : String) (schedule : Schedule) (start : Int) :
    ReportM (Option Int) := do
  if !schedule.enabled then return none
  else do
    let tz ← effectiveScheduleTimezone config tenantId schedule
    match nextCronDate config.zones schedule.effectiveCron start tz with
    | .ok next => return next
    | .error _ => throw .other

/-! ## Quotas -/

/-- The loop of `withQuota`: what was consumed, and what refused the rest. -/
def consumeQuota (tenantId : String) (by' : Option String) :
    List UsageMetric → List UsageMetric → ReportM (List UsageMetric × Option ApiError)
  | [], consumed => return (consumed, none)
  | metric :: rest, consumed => do
      let ent ← look fun db => db.services.entitlement tenantId metric
      let now ← look ReportDb.clock
      match ← onUsage (.consume metric)
          (checkAndConsume ent (quotaRequest tenantId metric 1 by' now)) with
      | .ok _ => consumeQuota tenantId by' rest (consumed ++ [metric])
      | .error e => return (consumed, some e)

/-- `release` of one unit. -/
def releaseQuota (tenantId : String) (metric : UsageMetric) (by' : Option String) :
    ReportM Unit := do
  let now ← look ReportDb.clock
  let _ ← onUsage (.release metric) (Usage.release tenantId metric 1 by' now)
  return ()

def releaseConsumed (tenantId : String) (by' : Option String) : List UsageMetric → ReportM Unit
  | [] => return ()
  | metric :: rest => do
      releaseQuota tenantId metric by'
      releaseConsumed tenantId by' rest

/-- `withQuota`. -/
def withQuota {A : Type} (tenantId : String) (metrics : List UsageMetric) (by' : Option String)
    (fn : ReportM A) : ReportM A := do
  let (consumed, refused) ← consumeQuota tenantId by' metrics []
  match refused with
  | some e => do
      releaseConsumed tenantId by' consumed
      throw (.api e)
  | none =>
      match ← attempt fn with
      | .ok a => return a
      | .error e => do
          releaseConsumed tenantId by' consumed
          throw e

/-! ## Reports -/

/-- The arguments of `create`. -/
structure CreateReport where
  tenantId : String
  actorId : Option String
  name : String
  description : String := ""
  source : String := "widget"
  dashboardId : Option String := none
  widgetId : Option String := none
  query : Option Js := none
  format : String := "csv"
  filters : Js := .obj []
  schedule : Option SchedulePatch := none
  status : String := "draft"

def checked {A : Type} : Except ApiError A → ReportM A
  | .ok a => return a
  | .error e => throw (.api e)

def checkedQuery (tenantId : String) (query : Js) : ReportM Js := do
  let sanitized ← checked (config.sanitizeReportQuery query)
  match ← look fun db => db.services.metricRefs tenantId sanitized with
  | some e => throw (.api e)
  | none => return sanitized

def sourceQuery (req : CreateReport) (source : ReportSource) : ReportM (Option Js) := do
  match source with
  | .widget =>
      if (req.dashboardId.filter (· ≠ "")).isNone ∨ (req.widgetId.filter (· ≠ "")).isNone then
        throw (.api (.badRequest "widget source requires dashboardId and widgetId"))
      else return none
  | .query =>
      match req.query with
      | some query =>
          if (datasetOf (some query)).isNone then
            throw (.api (.badRequest "query source requires query.datasetId"))
          else return some (← checkedQuery config req.tenantId query)
      | none => throw (.api (.badRequest "query source requires query.datasetId"))

def newSchedule (req : CreateReport) (format : ReportFormat) (now : Int) : Except ApiError Schedule :=
  match req.schedule with
  | some schedule => sanitizeSchedule config schedule format now
  | none => .ok
      { enabled := false, format, cron := DEFAULT_REPORT_CRON, timezone := none, recipients := []
        destinationIds := [] }

/-- The metrics of `create`. -/
def quotaMetrics (enabled : Bool) : List UsageMetric :=
  if enabled then [.reports, .scheduledReports] else [.reports]

/-- The document that `create` saves. -/
def CreateReport.document (req : CreateReport) (source : ReportSource) (format : ReportFormat)
    (query : Option Js) (schedule : Schedule) (filters : Js) (nextRunAt : Option Int) : Report where
  id := ⟨0⟩
  tenantId := req.tenantId
  ownerId := req.actorId
  name := trim req.name
  description := req.description
  status := (ReportStatus.ofText req.status).getD .draft
  source := source
  dashboardId := if source = .widget then req.dashboardId else none
  widgetId := if source = .widget then req.widgetId else none
  query := query
  format := format
  filters := filters
  schedule := schedule
  nextRunAt := nextRunAt
  createdBy := req.actorId

def create (req : CreateReport) : ReportM Unit := do
  if trim req.name = "" then throw (.api (.badRequest "report name is required"))
  else
    match ReportFormat.ofText req.format, ReportSource.ofText req.source with
    | none, _ => throw (.api (.badRequest "invalid report format"))
    | some _, none => throw (.api (.badRequest "invalid report source"))
    | some format, some source => do
        let query ← sourceQuery config req source
        let now ← look ReportDb.clock
        let sanitized ← checked (newSchedule config req format now)
        let schedule ← validateScheduleDelivery config req.tenantId sanitized
        let filters ← checked (config.sanitizeReportFilters req.filters)
        let start ← look ReportDb.clock
        let nextRunAt ← projectNextRun config req.tenantId schedule start
        withQuota req.tenantId (quotaMetrics schedule.enabled) req.actorId
          (call (.create (req.document source format query schedule filters nextRunAt)) fun _ => ())

/-- The `patch` of `update`. -/
structure UpdatePatch where
  name : Option String := none
  description : Option String := none
  status : Option String := none
  source : Option String := none
  dashboardId : Option String := none
  widgetId : Option String := none
  query : Option Js := none
  format : Option String := none
  filters : Option Js := none
  schedule : Option SchedulePatch := none

/-- The arguments of `update`. -/
structure UpdateReport where
  tenantId : String
  reportId : ObjectId
  actorId : Option String
  patch : UpdatePatch

def checkedText {A : Type} (ofText : String → Option A) (message : String) (value : Option String) :
    ReportM (Option A) :=
  match value with
  | none => return none
  | some text =>
      match ofText text with
      | some a => return some a
      | none => throw (.api (.badRequest message))

def checkedName (value : Option String) : ReportM (Option String) :=
  match value with
  | none => return none
  | some name =>
      if trim name = "" then throw (.api (.badRequest "report name must be a non-empty string"))
      else return some (trim name)

/-- The widget of a patch: `String(patch.dashboardId ?? existing.dashboardId)`. -/
def patchedWidget (existing : Report) (source : Option ReportSource) (patch : UpdatePatch) :
    ReportM (Option String × Option String) :=
  if source = some .widget ∨ (patch.dashboardId.filter (· ≠ "")).isSome ∨
      (patch.widgetId.filter (· ≠ "")).isSome then
    let dashboardId := (patch.dashboardId.or existing.dashboardId).getD "null"
    let widgetId := (patch.widgetId.or existing.widgetId).getD "null"
    if dashboardId = "" ∨ widgetId = "" then
      throw (.api (.badRequest "widget source requires dashboardId and widgetId"))
    else return (some dashboardId, some widgetId)
  else return (none, none)

def patchedQuery (tenantId : String) (query : Option Js) : ReportM (Option Js) :=
  match query with
  | none => return none
  | some query =>
      if (datasetOf (some query)).isNone then
        throw (.api (.badRequest "query source requires query.datasetId"))
      else do return some (← checkedQuery config tenantId query)

def patchedFilters (filters : Option Js) : ReportM (Option Js) :=
  match filters with
  | none => return none
  | some filters => do return some (← checked (config.sanitizeReportFilters filters))

def patchedSchedule (existing : Report) (format : Option ReportFormat) (req : UpdateReport) :
    ReportM (Option (Schedule × Option Int)) :=
  match req.patch.schedule with
  | none => return none
  | some patch => do
      let now ← look ReportDb.clock
      let sanitized ← checked (sanitizeSchedule config (existing.schedule.with patch)
        (format.getD existing.format) now)
      let schedule ← validateScheduleDelivery config req.tenantId sanitized
      let start ← look ReportDb.clock
      let next ← projectNextRun config req.tenantId schedule start
      return some (schedule, next)

/-- The `updates` of a patch. -/
def updatesOf (existing : Report) (req : UpdateReport) : ReportM ReportSet := do
  let name ← checkedName req.patch.name
  let status ← checkedText ReportStatus.ofText "invalid report status" req.patch.status
  let source ← checkedText ReportSource.ofText "invalid report source" req.patch.source
  let (dashboardId, widgetId) ← patchedWidget existing source req.patch
  let query ← patchedQuery config req.tenantId req.patch.query
  let format ← checkedText ReportFormat.ofText "invalid report format" req.patch.format
  let filters ← patchedFilters config req.patch.filters
  let scheduled ← patchedSchedule config existing format req
  return {
    name, description := req.patch.description, status, source, dashboardId, widgetId, query, format
    filters, schedule := scheduled.map Prod.fst, nextRunAt := scheduled.map Prod.snd }

/-- `Object.keys(updates).length === 0`. -/
def UpdatePatch.isEmpty (patch : UpdatePatch) : Bool :=
  patch.name.isNone && patch.description.isNone && patch.status.isNone && patch.source.isNone &&
    (patch.dashboardId.filter (· ≠ "")).isNone && (patch.widgetId.filter (· ≠ "")).isNone &&
    patch.query.isNone && patch.format.isNone && patch.filters.isNone && patch.schedule.isNone

/-- `applyUpdate`. -/
def applyUpdate (id : ObjectId) (updates : ReportSet) : ReportM Unit := do
  match ← updateReport id updates with
  | none => throw (.api (.notFound "Report not found"))
  | some _ => return ()

def update (req : UpdateReport) : ReportM Unit := do
  match ← look fun db => db.findById req.tenantId req.reportId with
  | none => throw (.api (.notFound "Report not found"))
  | some existing => do
      let changes ← updatesOf config existing req
      if req.patch.isEmpty then return ()
      else do
        let updates := { changes with updatedBy := some req.actorId }
        let wasScheduled := existing.schedule.enabled
        let isScheduled := (updates.schedule.map Schedule.enabled).getD wasScheduled
        if !wasScheduled && isScheduled then
          withQuota req.tenantId [.scheduledReports] req.actorId (applyUpdate req.reportId updates)
        else do
          applyUpdate req.reportId updates
          if wasScheduled && !isScheduled then
            releaseQuota req.tenantId .scheduledReports req.actorId
          else return ()

def remove (tenantId : String) (reportId : ObjectId) (actorId : Option String) : ReportM Unit := do
  match ← look fun db => db.findById tenantId reportId with
  | none => throw (.api (.notFound "Report not found"))
  | some existing => do
      if ← removeReport reportId actorId then do
        releaseQuota tenantId .reports actorId
        if existing.schedule.enabled then releaseQuota tenantId .scheduledReports actorId
        else return ()
      else throw (.api (.notFound "Report not found"))

end Config

end AnalyticsBackend.Reports
