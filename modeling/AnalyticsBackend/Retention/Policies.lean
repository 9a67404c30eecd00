import AnalyticsBackend.Retention.Store

/-!
# Retention policies

`services/retention.service.js`, with what it calls of `services/auditExport.service.js` and
`repositories/auditExport.repository.js`. The counts per model of a report are left out.
-/

namespace AnalyticsBackend.Retention
open Lib Mongo

/-! ## Settings -/

/-- `env.retention`, and what a caller sets over it. A batch size is `none` when it is no number. -/
structure RetentionSettings where
  auditLogDays : Magnitude
  accessLogDays : Magnitude
  loginAttemptDays : Magnitude
  sessionDays : Magnitude
  expiredTokenDays : Magnitude
  notificationDays : Magnitude
  alertEventDays : Magnitude
  analyticsQueryDays : Magnitude
  jobRunDays : Magnitude
  syncRunDays : Magnitude
  outboxDays : Magnitude
  exportDays : Magnitude
  exportRecordDays : Magnitude
  reportArtifactDays : Magnitude
  softDeleteDays : Magnitude
  deletedUserDays : Magnitude
  archivedTenantDays : Magnitude
  batchSize : Option ℚ
  maxBatchesPerRun : Option ℚ
  legalHoldTenantIds : List String
  byEnvKey : List (String × Magnitude)

/-- `Math.trunc`. -/
def truncate (q : ℚ) : Int := if 0 ≤ q then q.floor else q.ceil

/-- `cutoffFor`; the range of a `Date` has no limit here. -/
def cutoffFor (days : Magnitude) (now : Int) : Option Int :=
  match days with
  | .finite n => if n ≤ 0 then none else some (truncate (now - n * Calendar.msPerDay))
  | _ => none

/-- `Math.max(1, Math.floor(Number(value)) || fallback)`. -/
def atLeastOne (value : Option ℚ) (fallback : Nat) : Nat :=
  match value with
  | none => fallback
  | some q => if q.floor = 0 then fallback else max 1 q.floor.toNat

/-- `ctx`, with the order in which a server finds documents. -/
structure Ctx where
  server : Server
  now : Int
  dryRun : Bool
  batchSize : Nat
  maxBatches : Nat
  heldTenantIds : List String

/-- What a policy reports. -/
structure Outcome where
  matched : Nat := 0
  deleted : Nat := 0
  objectsDeleted : Nat := 0
  failed : Nat := 0
  more : Bool := false
  heldBack : Bool := false
  anonymised : Option Nat := none
  tenants : Option Nat := none
  tenantsCompleted : Nat := 0
  deriving DecidableEq, Repr

/-! ## Models -/

/-- The models whose schema has a `tenantId`, in the order of `mongoose.modelNames().sort()`. -/
def tenantModels : List String :=
  ["AccessLog", "AccessRequest", "AdminRole", "AiConsent", "AiQuestion", "AlertEvent", "AlertRule",
    "AnalyticsQuery", "ApiKey", "ApiKeyUsage", "AuditExport", "AuditLog", "Connector",
    "ConnectorRow", "Dashboard", "DatasetAccess", "DatasetSchema", "DeliveryDestination",
    "DeliveryRun", "DeliveryUnsubscribe", "EmailVerificationToken", "EmbedConfig", "EmbedToken",
    "EntitlementOverride", "Insight", "LoginAttempt", "MetricDefinition", "Notification",
    "NotificationPreference", "OutboundEmail", "PasswordResetToken", "PaymentTransaction",
    "Report", "Role", "RowPolicy", "SecurityAlert", "SecuritySignal", "Session", "Setting",
    "Subscription", "SubscriptionHistory", "SupportAccessGrant", "SupportImpersonation", "SyncRun",
    "TenantDeletion", "TenantExport", "TenantInvitation", "UsageCounter", "UsageReservation",
    "User", "UserRole", "WebhookEvent", "Widget"]

/-- The models whose schema has none. -/
def platformModels : List String :=
  ["Admin", "AdminInvitation", "AuthCooldown", "ComplianceLog", "ConfigRevision", "EmailTemplate",
    "FeatureFlag", "JobLock", "JobRun", "MasterData", "Module", "Permission", "RolePermission",
    "SecurityDetectionCursor", "SupportImpersonationCounter", "Tenant"]

def TENANT_PURGE_EXCLUDED : List String :=
  ["Tenant", "AuditLog", "ComplianceLog", "PaymentTransaction", "Subscription",
    "SubscriptionHistory", "WebhookEvent", "JobRun", "JobLock"]

def SOFT_DELETED_MODELS : List String :=
  ["Connector", "ConnectorRow", "Dashboard", "Widget", "Report", "AlertRule", "AlertEvent",
    "Notification", "AnalyticsQuery", "ApiKey", "EmbedToken"]

/-- `model.schema.path('tenantId')`. -/
def tenantOwned (model : String) : Bool := tenantModels.contains model

/-! ## Holds -/

/-- `getLegalHoldTenantIds`. -/
def heldTenants (configured : List String) (db : RetentionDb) : List String :=
  ((configured.map trim).filter (· ≠ "") ++
    ((db.colls "Tenant").filter Document.legalHold).map fun t => t.id.toHex).eraseDups

/-- `holdFilter`, for a policy with a tenant field or without. -/
def holdFilter (tenantField : Bool) (ctx : Ctx) (d : Document) : Bool :=
  !d.legalHold && !(tenantField && d.inTenants ctx.heldTenantIds)

section Run

variable (ctx : Ctx)

/-! ## Batched deletion -/

/-- The loop of `purgeBatched`. -/
def purgeBatches (model : String) (filter : Document → Bool)
    (sort : List Document → List Document) : Nat → Nat → RetentionM Outcome
  | 0, deleted => return { matched := deleted, deleted }
  | batches + 1, deleted => do
      let ids ← access id fun db =>
        ((sort (find ctx.server filter (db.colls model))).take ctx.batchSize).map Document.id
      if ids.isEmpty then return { matched := deleted, deleted }
      else
        -- the filter is applied again, so that a row that has changed since it was read stays
        let gone ← deleteMany model fun d => filter d && ids.contains d.id
        let deleted := deleted + gone
        if ids.length < ctx.batchSize then return { matched := deleted, deleted }
        else if batches = 0 then
          let left ← countDocuments model filter
          return { matched := deleted, deleted, more := 0 < left }
        else purgeBatches model filter sort batches deleted

/-- `purgeBatched`. -/
def purgeBatched (model : String) (filter : Document → Bool)
    (sort : List Document → List Document := id) : RetentionM Outcome := do
  if ctx.dryRun then
    let matched ← countDocuments model filter
    return { matched }
  else purgeBatches ctx model filter sort ctx.maxBatches 0

/-! ## The audit trail -/

/-- `sort` of a query: by what a key reads of a document, a missing value first. -/
def sortBy {K : Type} [Ord K] (key : Document → K) (docs : List Document) : List Document :=
  docs.insertionSort fun a b => compare (key a) (key b) ≠ .gt

def oldestHeld (cutoff : Int) : RetentionM (Option Document) :=
  if ctx.heldTenantIds.isEmpty then return none
  else
    access id fun db =>
      let held := find ctx.server
        (fun d => d.inTenants ctx.heldTenantIds && d.before "occurredAt" cutoff) (db.colls "AuditLog")
      (sortBy (fun d => d.date "occurredAt") held).head?

/-- `purgeAuditLog`. -/
def purgeAuditLog (cutoff : Int) : RetentionM Outcome := do
  let oldestHeld ← oldestHeld ctx cutoff
  let boundary := (oldestHeld.bind fun d => d.date "occurredAt").getD cutoff
  let firstKept ← access id fun db =>
    let kept := find ctx.server
      (fun d => (d.date "occurredAt").any (fun at' => boundary ≤ at') && d.seq.isSome)
      (db.colls "AuditLog")
    (sortBy Document.seq kept).head?
  let filter := fun (d : Document) =>
    d.before "occurredAt" boundary &&
      match firstKept.bind Document.seq with
      | none => true
      | some first => d.seq.all fun seq => seq < first
  let result ← purgeBatched ctx "AuditLog" filter
    fun docs => sortBy Document.seq (sortBy (fun d => d.date "occurredAt") docs)
  return { result with heldBack := boundary ≠ cutoff }

/-! ## Batches of documents -/

/-- The documents of a batch in turn, with the count of failures. -/
def forEach (work : Document → Outcome → RetentionM (Outcome × Nat)) :
    List Document → Outcome → Nat → RetentionM (Outcome × Nat)
  | [], out, failed => return (out, failed)
  | d :: rest, out, failed => do
      let (out, undone) ← work d out
      forEach work rest out (failed + undone)

/-- The loop of a policy that works on documents one by one: a batch with a failure is the last. -/
def inBatches (model : String) (filter : Document → Bool) (sort : List Document → List Document)
    (work : Document → Outcome → RetentionM (Outcome × Nat)) : Nat → Outcome → RetentionM Outcome
  | 0, out => return out
  | batches + 1, out => do
      let docs ← access id fun db =>
        (sort (find ctx.server filter (db.colls model))).take ctx.batchSize
      if docs.isEmpty then return out
      else
        let (out, failed) ← forEach work docs out 0
        if ctx.dryRun ∨ docs.length < ctx.batchSize ∨ 0 < failed then return out
        else inBatches model filter sort work batches out

/-! ## Stored files -/

def analyticsExportExpired (cutoff : Int) (d : Document) : Bool :=
  d.kind = some "export" && d.resultKey.isSome &&
    (d.artifact.bind Artifact.finishedAt).any (fun at' => at' < cutoff) && holdFilter true ctx d

/-- `$set` of an expired artifact, while it is the same. -/
def expireArtifact (key : String) (d : Document) : Document :=
  if d.resultKey = some key then
    let expired := fun a : Artifact => { a with resultKey := none, expiredAt := some ctx.now }
    { d with artifact := d.artifact.map expired }
  else d

/-- One document of `expireAnalyticsExports`. -/
def expireAnalyticsExport (d : Document) (out : Outcome) : RetentionM (Outcome × Nat) := do
  let key := d.resultKey.getD ""
  let out := { out with matched := out.matched + 1 }
  match ← attempt (del key) with
  | .error _ => return ({ out with failed := out.failed + 1 }, 1)
  | .ok () =>
      updateOne "AnalyticsQuery" d.id (expireArtifact ctx key)
      return ({ out with objectsDeleted := out.objectsDeleted + 1, deleted := out.deleted + 1 }, 0)

/-- `expireAnalyticsExports`. -/
def expireAnalyticsExports (cutoff : Int) : RetentionM Outcome := do
  if ctx.dryRun then
    let matched ← countDocuments "AnalyticsQuery" (analyticsExportExpired ctx cutoff)
    return { matched }
  else
    inBatches ctx "AnalyticsQuery" (analyticsExportExpired ctx cutoff) id
      (expireAnalyticsExport ctx) ctx.maxBatches {}

/-- `findExpiredArtifacts`: `$nin` of the held ids as strings. -/
def exportExpired (d : Document) : Bool :=
  d.status = some "completed" && (d.date "expiresAt").any (fun at' => at' ≤ ctx.now) &&
    !(ctx.heldTenantIds.any fun id => d.tenantId = some (.text id)) && !d.legalHold

/-- `$set` of `markExpired`. -/
def markedExpired (d : Document) : Document :=
  ({ d with status := some "expired", storageKey := none } : Document).setDate "purgedAt" ctx.now

/-- `markExpired`: `findOneAndUpdate`. -/
def markExpired (exportId : Option String) : RetentionM Bool :=
  let found := fun d : Document => d.exportId = exportId && d.status = some "completed"
  access
    (fun db => db.update "AuditExport" fun docs =>
      match docs.find? found with
      | none => docs
      | some first => docs.map fun d => if d.id = first.id then markedExpired ctx d else d)
    fun db => (db.colls "AuditExport").any found

/-- Delete a file, if there is one. -/
def delStored (key : String) : RetentionM (Except String Unit) :=
  if key = "" then return .ok () else attempt (del key)

/-- One row of `expireArtifacts`. -/
def expireExport (row : Document) (out : Outcome) : RetentionM (Outcome × Nat) := do
  let key := row.storageKey.getD ""
  let out := { out with matched := out.matched + 1 }
  match ← delStored key with
  | .error _ => return ({ out with failed := out.failed + 1 }, 1)
  | .ok () =>
      let objectsDeleted := if key = "" then out.objectsDeleted else out.objectsDeleted + 1
      let marked ← markExpired ctx row.exportId
      let deleted := if marked then out.deleted + 1 else out.deleted
      return ({ out with objectsDeleted, deleted }, 0)

/-- `expireExports`, which calls `expireArtifacts`. -/
def expireExports : RetentionM Outcome := do
  if ctx.dryRun then
    let matched ← countDocuments "AuditExport" (exportExpired ctx)
    return { matched }
  else
    inBatches ctx "AuditExport" (exportExpired ctx) (sortBy fun d => d.date "expiresAt")
      (expireExport ctx) ctx.maxBatches {}

/-- `runExpired`. -/
def runExpired (cutoff : Int) (run : ReportRun) : Bool :=
  run.resultKey.any (· ≠ "") && run.finishedAt.any fun at' => at' < cutoff

def reportExpired (cutoff : Int) (d : Document) : Bool :=
  (d.runs.any fun run => run.resultKey.isSome && run.finishedAt.any fun at' => at' < cutoff) &&
    holdFilter true ctx d

/-- Delete the files of runs: the runs whose file is gone, and how many have failed. -/
def expireRuns : List ReportRun → List ReportRun → Nat → RetentionM (List ReportRun × Nat)
  | [], done, failed => return (done, failed)
  | run :: rest, done, failed => do
      match ← attempt (del (run.resultKey.getD "")) with
      | .ok () => expireRuns rest (done ++ [run]) failed
      | .error _ => expireRuns rest done (failed + 1)

/-- `$set` of the runs whose files are gone, and of `lastRun` when its file is. -/
def clearRuns (done : List ReportRun) (d : Document) : Document :=
  let expired := fun run : ReportRun => { run with resultKey := none, expiredAt := some ctx.now }
  let gone := fun run : ReportRun =>
    run.resultKey.any fun key => key ≠ "" && done.any fun r => r.resultKey = some key
  { d with
    runs := d.runs.map fun run => if done.any fun r => r.id = run.id then expired run else run
    lastRun := d.lastRun.map fun run => if gone run then expired run else run }

/-- One report of `expireReportArtifacts`. -/
def expireReport (cutoff : Int) (d : Document) (out : Outcome) : RetentionM (Outcome × Nat) := do
  let expired := d.runs.filter (runExpired cutoff)
  let out := { out with matched := out.matched + expired.length }
  if ctx.dryRun then return (out, 0)
  else
    let (done, failed) ← expireRuns expired [] 0
    let objectsDeleted := out.objectsDeleted + done.length
    let out := { out with objectsDeleted, failed := out.failed + failed }
    if done.isEmpty then return (out, failed)
    else
      updateOne "Report" d.id (clearRuns ctx done)
      return ({ out with deleted := out.deleted + done.length }, failed)

/-- `expireReportArtifacts`. -/
def expireReportArtifacts (cutoff : Int) : RetentionM Outcome :=
  inBatches ctx "Report" (reportExpired ctx cutoff) id (expireReport ctx cutoff) ctx.maxBatches {}

/-! ## Soft-deleted data -/

/-- The keys of `deleteReportStorage`. -/
def reportKeys (d : Document) : List String :=
  d.runs.filterMap ReportRun.resultKey ++ (d.lastRun.bind ReportRun.resultKey).toList

/-- `deleteReportStorage`. -/
def deleteReportStorage (d : Document) : RetentionM Nat := do
  let (deleted, failed) ← delMany (reportKeys d)
  if 0 < failed then throw "STORAGE_DELETE_FAILED"
  else return deleted

/-- `{ deletedAt: { $ne: null, $lt: cutoff } }` and no hold. -/
def softDeletedDue (model : String) (cutoff : Int) (d : Document) : Bool :=
  d.before "deletedAt" cutoff && holdFilter (tenantOwned model) ctx d

/-- `{ _id, deletedAt: { $ne: null } }`. -/
def deleteSoftDeleted (model : String) (d : Document) : RetentionM Nat :=
  deleteMany model fun other => other.id = d.id && (other.date "deletedAt").isSome

/-- One report of `purgeSoftDeleted`; its files count, also when the row stays. -/
def purgeReport (d : Document) (out : Outcome) : RetentionM (Outcome × Nat) := do
  let out := { out with matched := out.matched + 1 }
  match ← attempt (deleteReportStorage d) with
  | .error _ => return ({ out with failed := out.failed + 1 }, 1)
  | .ok files =>
      let out := { out with objectsDeleted := out.objectsDeleted + files }
      match ← attempt (deleteSoftDeleted "Report" d) with
      | .error _ => return ({ out with failed := out.failed + 1 }, 1)
      | .ok rows => return ({ out with deleted := out.deleted + rows }, 0)

/-- The loop of `purgeSoftDeleted`. -/
def purgeSoftDeletedOf (cutoff : Int) : List String → Outcome → RetentionM Outcome
  | [], out => return out
  | model :: rest, out => do
      if model = "Report" ∧ ctx.dryRun = false then
        let out ← inBatches ctx model (softDeletedDue ctx model cutoff) id purgeReport
          ctx.maxBatches out
        purgeSoftDeletedOf cutoff rest out
      else
        let r ← purgeBatched ctx model (softDeletedDue ctx model cutoff)
        purgeSoftDeletedOf cutoff rest
          { out with
            matched := out.matched + r.matched
            deleted := out.deleted + r.deleted
            more := out.more || r.more }

/-- `purgeSoftDeleted`. -/
def purgeSoftDeleted (cutoff : Int) : RetentionM Outcome :=
  purgeSoftDeletedOf ctx cutoff SOFT_DELETED_MODELS {}

/-- `String(tenantId)` of a document. -/
def Document.tenantName (d : Document) : String := (d.tenantId.map TenantRef.name).getD "null"

/-- `anonymiseUser`: nothing that it overwrites is read here. -/
def anonymiseUser (_tenantId _userId : String) : RetentionM Unit := access id fun _ => ()

def grantOf (user d : Document) : Bool :=
  d.tenantId = some (.text user.tenantName) && d.userId = some user.id.toHex

def deleteUser (user : Document) : RetentionM Nat := do
  let _ ← deleteMany "UserRole" (grantOf user)
  deleteSoftDeleted "User" user

/-- One user of `purgeDeletedUsers`. -/
def purgeUser (user : Document) (out : Outcome) : RetentionM (Outcome × Nat) := do
  let out := { out with matched := out.matched + 1 }
  match ← attempt (anonymiseUser user.tenantName user.id.toHex) with
  | .error _ => return ({ out with failed := out.failed + 1 }, 1)
  | .ok () =>
      let out := { out with anonymised := out.anonymised.map (· + 1) }
      match ← attempt (deleteUser user) with
      | .error _ => return ({ out with failed := out.failed + 1 }, 1)
      | .ok rows => return ({ out with deleted := out.deleted + rows }, 0)

def userDue (cutoff : Int) (d : Document) : Bool := d.before "deletedAt" cutoff && holdFilter true ctx d

/-- `purgeDeletedUsers`. -/
def purgeDeletedUsers (cutoff : Int) : RetentionM Outcome := do
  if ctx.dryRun then
    let matched ← countDocuments "User" (userDue ctx cutoff)
    return { matched }
  else inBatches ctx "User" (userDue ctx cutoff) id purgeUser ctx.maxBatches { anonymised := some 0 }

/-! ## Archived tenants -/

/-- `tenantStoragePrefixes`. -/
def tenantStoragePrefixes (tenantId : String) : List String :=
  [s!"reports/{tenantId}/", s!"audit/exports/{tenantId}/", s!"access-logs/exports/{tenantId}/",
    s!"exports/{tenantId}/", s!"tenant-exports/{tenantId}/"]

/-- The models that `purgeTenantData` purges. -/
def purgedModels : List String :=
  tenantModels.filter fun model => !TENANT_PURGE_EXCLUDED.contains model

/-- What `purgeTenantData` reports. -/
structure TenantPurge where
  matched : Nat := 0
  deleted : Nat := 0
  objectsDeleted : Nat := 0
  complete : Bool := true
  deriving DecidableEq, Repr

/-- The rows of `purgeTenantData`. -/
def purgeTenantRows (tenantId : String) : List String → TenantPurge → RetentionM TenantPurge
  | [], out => return out
  | model :: rest, out => do
      let r ← purgeBatched ctx model fun d => d.inTenants [tenantId]
      purgeTenantRows tenantId rest
        { out with
          matched := out.matched + r.matched
          deleted := out.deleted + r.deleted
          complete := out.complete && !r.more }

/-- The batches of one path of `purgeTenantData`. -/
def purgePath (path : String) : Nat → TenantPurge → RetentionM TenantPurge
  | 0, out => return out
  | batches + 1, out => do
      let r ← delPrefix path ctx.batchSize ctx.dryRun
      let gone := if ctx.dryRun then r.matched else r.deleted
      let complete := out.complete && r.failed = 0
      let out := { out with objectsDeleted := out.objectsDeleted + gone, complete }
      if ctx.dryRun ∨ r.matched < ctx.batchSize ∨ 0 < r.failed then return out
      else if batches = 0 then return { out with complete := false }
      else purgePath path batches out

def purgePaths : List String → TenantPurge → RetentionM TenantPurge
  | [], out => return out
  | path :: rest, out => do
      let out ← purgePath ctx path ctx.maxBatches out
      purgePaths rest out

/-- `purgeTenantData`. -/
def purgeTenantData (tenantId : String) : RetentionM TenantPurge := do
  let out ← purgeTenantRows ctx tenantId purgedModels {}
  purgePaths ctx (tenantStoragePrefixes tenantId) out

/-- The tenants of `purgeArchivedTenants`. -/
def archivedDue (cutoff : Int) (t : Document) : Bool :=
  t.status = some "archived" && t.before "archivedAt" cutoff && (t.date "dataPurgedAt").isNone &&
    !t.legalHold && !(idForms ctx.heldTenantIds).contains (.oid t.id)

def TENANTS_PER_RUN : Nat := 5

/-- The loop of `purgeArchivedTenants`. -/
def purgeTenants : List Document → Outcome → RetentionM Outcome
  | [], out => return out
  | tenant :: rest, out => do
      let r ← purgeTenantData ctx tenant.id.toHex
      let out := { out with
        tenants := out.tenants.map (· + 1)
        matched := out.matched + r.matched
        deleted := out.deleted + r.deleted
        objectsDeleted := out.objectsDeleted + r.objectsDeleted
        more := out.more || !r.complete }
      if ctx.dryRun = false ∧ r.complete then
        updateOne "Tenant" tenant.id fun t => t.setDate "dataPurgedAt" ctx.now
        purgeTenants rest { out with tenantsCompleted := out.tenantsCompleted + 1 }
      else purgeTenants rest out

/-- `purgeArchivedTenants`. -/
def purgeArchivedTenants (cutoff : Int) : RetentionM Outcome := do
  let tenants ← access id fun db =>
    (find ctx.server (archivedDue ctx cutoff) (db.colls "Tenant")).take TENANTS_PER_RUN
  let out ← purgeTenants ctx tenants { tenants := some 0 }
  return { out with more := out.more || tenants.length = TENANTS_PER_RUN }

/-! ## The policies -/

/-- What a policy does: a batched deletion, or a procedure of its own. -/
inductive PolicyWork where
  | rows (filter : Int → Document → Bool)
  | auditLog
  | exports
  | analyticsExports
  | reportArtifacts
  | softDeleted
  | deletedUsers
  | archivedTenants
  | invalid (reason : String)

structure Policy where
  key : String
  collection : String
  days : RetentionSettings → Magnitude
  perRowExpiry : Bool := false
  work : PolicyWork

def SYNC_RUN_OPEN_STATUSES : List String := ["queued", "running", "retrying"]

def OUTBOX_TERMINAL_STATUSES : List String := ["sent", "dead"]

/-- The filter of `passwordResetTokens` and of `emailVerificationTokens`. -/
def tokenExpired (cutoff : Int) (d : Document) : Bool :=
  d.before "expiresAt" cutoff || d.before "usedAt" cutoff

/-- `BUILTIN_POLICIES`, in their order. -/
def BUILTIN_POLICIES : List Policy :=
  [{ key := "auditLogs", collection := "AuditLog", days := (·.auditLogDays), work := .auditLog },
    { key := "accessLogs", collection := "AccessLog", days := (·.accessLogDays)
      work := .rows fun c d => d.before "occurredAt" c },
    { key := "loginAttempts", collection := "LoginAttempt", days := (·.loginAttemptDays)
      work := .rows fun c d => d.before "occurredAt" c },
    { key := "sessions", collection := "Session", days := (·.sessionDays)
      work := .rows fun c d =>
        (d.status ≠ some "active" && d.before "updatedAt" c) || d.before "expiresAt" c },
    { key := "passwordResetTokens", collection := "PasswordResetToken"
      days := (·.expiredTokenDays), work := .rows tokenExpired },
    { key := "emailVerificationTokens", collection := "EmailVerificationToken"
      days := (·.expiredTokenDays), work := .rows tokenExpired },
    { key := "tenantInvitations", collection := "TenantInvitation", days := (·.expiredTokenDays)
      work := .rows fun c d =>
        d.before "expiresAt" c || (d.status ≠ some "pending" && d.before "updatedAt" c) },
    { key := "notifications", collection := "Notification", days := (·.notificationDays)
      work := .rows fun c d => d.before "createdAt" c },
    { key := "alertEvents", collection := "AlertEvent", days := (·.alertEventDays)
      work := .rows fun c d => d.before "triggeredAt" c },
    { key := "analyticsQueries", collection := "AnalyticsQuery", days := (·.analyticsQueryDays)
      work := .rows fun c d => d.before "createdAt" c && d.resultKey.isNone },
    { key := "jobRuns", collection := "JobRun", days := (·.jobRunDays)
      work := .rows fun c d => d.status ≠ some "running" && d.before "finishedAt" c },
    { key := "syncRuns", collection := "SyncRun", days := (·.syncRunDays)
      work := .rows fun c d =>
        !(d.status.any SYNC_RUN_OPEN_STATUSES.contains) && d.before "finishedAt" c },
    { key := "outboundEmails", collection := "OutboundEmail", days := (·.outboxDays)
      work := .rows fun c d =>
        d.status.any OUTBOX_TERMINAL_STATUSES.contains && d.before "updatedAt" c },
    { key := "exportArtifacts", collection := "AuditExport", days := (·.exportDays)
      perRowExpiry := true, work := .exports },
    { key := "exportRecords", collection := "AuditExport", days := (·.exportRecordDays)
      work := .rows fun c d =>
        d.before "createdAt" c && (d.status ≠ some "completed" || d.storageKey.isNone) },
    { key := "analyticsExports", collection := "AnalyticsQuery", days := (·.exportDays)
      work := .analyticsExports },
    { key := "reportArtifacts", collection := "Report", days := (·.reportArtifactDays)
      work := .reportArtifacts },
    { key := "softDeleted", collection := ",".intercalate SOFT_DELETED_MODELS
      days := (·.softDeleteDays), work := .softDeleted },
    { key := "deletedUsers", collection := "User", days := (·.deletedUserDays)
      work := .deletedUsers },
    { key := "archivedTenants", collection := "Tenant", days := (·.archivedTenantDays)
      work := .archivedTenants }]

end Run

/-! ### Declared policies -/

/-- An entry of `RETENTION`; `defaultDays` is `none` when it is no integer. -/
structure DeclaredEntry where
  model : String
  field : String
  envKey : String
  defaultDays : Option Int

/-- A file `retention.<package>.js`, or why it does not load. -/
structure DeclaredFile where
  package : String
  entries : Except String (List DeclaredEntry)

def isLetter (c : Char) : Bool := ('A' ≤ c && c ≤ 'Z') || ('a' ≤ c && c ≤ 'z')

def isDigit (c : Char) : Bool := '0' ≤ c && c ≤ '9'

def isModelName (name : String) : Bool :=
  match name.toList with
  | [] => false
  | c :: rest =>
      'A' ≤ c && c ≤ 'Z' && rest.all (fun c => isLetter c || isDigit c) && rest.length ≤ 63

def isFieldName (name : String) : Bool :=
  match name.toList with
  | [] => false
  | c :: rest =>
      (isLetter c || c = '_') && rest.all (fun c => isLetter c || isDigit c || c = '_' || c = '.') &&
        rest.length ≤ 63

/-- `ENV_KEY`: one character or more between the two ends. -/
def isEnvKey (name : String) : Bool :=
  let start := "RETENTION_".toList
  let stop := "_DAYS".toList
  let inner := (name.toList.drop start.length).dropLast.dropLast.dropLast.dropLast.dropLast
  start.isPrefixOf name.toList && stop.isSuffixOf name.toList &&
    name.toList = start ++ inner ++ stop && !inner.isEmpty &&
    inner.all fun c => ('A' ≤ c && c ≤ 'Z') || isDigit c || c = '_'

def DeclaredEntry.problems (entry : DeclaredEntry) : List String :=
  (if isModelName entry.model then [] else ["model"]) ++
    (if isFieldName entry.field then [] else ["field"]) ++
    (if isEnvKey entry.envKey then [] else ["envKey"]) ++
    if entry.defaultDays.any fun days => 0 ≤ days then [] else ["defaultDays"]

def invalidPolicy (key collection reason : String) : Policy :=
  { key, collection, days := fun _ => .nan, work := .invalid reason }

/-- The policy of an entry. -/
def DeclaredEntry.policy (package : String) (entry : DeclaredEntry) : Policy :=
  let name := if entry.model = "" then "invalid" else entry.model
  let key := s!"{package}:{name}"
  if !entry.problems.isEmpty then
    invalidPolicy key "" ("invalid " ++ ", ".intercalate entry.problems)
  else if (BUILTIN_POLICIES.map Policy.collection).contains entry.model then
    invalidPolicy key "" "collection already has a built-in policy"
  else
    { key, collection := entry.model
      days := fun s =>
        match s.byEnvKey.lookup entry.envKey with
        | some (.finite days) => .finite days
        | _ => .finite (entry.defaultDays.getD 0)
      work := .rows fun c d => d.before entry.field c }

/-- `loadDeclaredPolicies` over the files in their order. -/
def loadDeclaredPolicies (files : List DeclaredFile) : List Policy :=
  files.flatMap fun file =>
    match file.entries with
    | .error message => [invalidPolicy s!"{file.package}:invalid" "" message]
    | .ok entries => entries.map (DeclaredEntry.policy file.package)

/-! ## The run -/

/-- What `runRetention` is called with. -/
structure RetentionRun where
  server : Server
  now : Int
  dryRun : Bool
  settings : RetentionSettings
  only : Option (List String)
  declared : List DeclaredFile

/-- What becomes of a policy in a run. -/
inductive PolicyResult where
  | skipped (key reason : String)
  | failed (key error : String)
  | ran (key : String) (cutoff : Option Int) (outcome : Outcome)
  deriving DecidableEq, Repr

structure RetentionReport where
  dryRun : Bool
  legalHoldTenantIds : List String
  policies : List PolicyResult
  deriving DecidableEq, Repr

def Policy.perform (policy : Policy) (ctx : Ctx) (cutoff : Int) : RetentionM Outcome :=
  match policy.work with
  | .rows filter =>
      let model := policy.collection
      purgeBatched ctx model fun d => filter cutoff d && holdFilter (tenantOwned model) ctx d
  | .auditLog => purgeAuditLog ctx cutoff
  | .exports => expireExports ctx
  | .analyticsExports => expireAnalyticsExports ctx cutoff
  | .reportArtifacts => expireReportArtifacts ctx cutoff
  | .softDeleted => purgeSoftDeleted ctx cutoff
  | .deletedUsers => purgeDeletedUsers ctx cutoff
  | .archivedTenants => purgeArchivedTenants ctx cutoff
  | .invalid _ => return {}

/-- `resolveModel` finds the model. -/
def Policy.resolved (policy : Policy) : Bool :=
  match policy.work with
  | .rows _ => tenantModels.contains policy.collection || platformModels.contains policy.collection
  | _ => true

/-- One turn of the loop of `runRetention`. -/
def runPolicy (run : RetentionRun) (ctx : Ctx) (policy : Policy) : RetentionM PolicyResult := do
  match policy.work with
  | .invalid reason => return .skipped policy.key reason
  | _ =>
      let cutoff := cutoffFor (policy.days run.settings) run.now
      if cutoff.isNone ∧ policy.perRowExpiry = false then return .skipped policy.key "disabled"
      else if policy.resolved = false then return .skipped policy.key "model_not_registered"
      else
        match ← attempt (policy.perform ctx (cutoff.getD 0)) with
        | .ok outcome => return .ran policy.key cutoff outcome
        | .error error => return .failed policy.key error

def runPolicies (run : RetentionRun) (ctx : Ctx) :
    List Policy → List PolicyResult → RetentionM (List PolicyResult)
  | [], results => return results
  | policy :: rest, results => do
      if run.only.all fun keys => keys.contains policy.key then
        let result ← runPolicy run ctx policy
        runPolicies run ctx rest (results ++ [result])
      else runPolicies run ctx rest results

def RetentionRun.ctx (run : RetentionRun) (heldTenantIds : List String) : Ctx where
  server := run.server
  now := run.now
  dryRun := run.dryRun
  batchSize := atLeastOne run.settings.batchSize 500
  maxBatches := atLeastOne run.settings.maxBatchesPerRun 200
  heldTenantIds := heldTenantIds

/-- `runRetention`. -/
def runRetention (run : RetentionRun) : RetentionM RetentionReport := do
  let heldTenantIds ← access id (heldTenants run.settings.legalHoldTenantIds)
  let policies ← runPolicies run (run.ctx heldTenantIds)
    (BUILTIN_POLICIES ++ loadDeclaredPolicies run.declared) []
  return { dryRun := run.dryRun, legalHoldTenantIds := heldTenantIds, policies }

end AnalyticsBackend.Retention
