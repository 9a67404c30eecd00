import AnalyticsBackend.Reports.Runs

/-!
# Scheduled runs

`runDue` and `reprojectSchedules` of `services/report.service.js`, and the calls of the report service
as one system.
-/

namespace AnalyticsBackend.Reports
open Lib Mongo Analytics Usage

section Config

variable (config : ReportConfig)

/-! ## The scan -/

/-- `safeNextRun` in UTC with the default cron as its fallback. -/
def safeNextRun (cron : String) (start : Int) : Option Int :=
  match nextCronDate config.zones cron start DEFAULT_TIMEZONE with
  | .ok next => next
  | .error _ =>
      match nextCronDate config.zones DEFAULT_REPORT_CRON start DEFAULT_TIMEZONE with
      | .ok next => next
      | .error _ => none

/-- The next run of a due report in a zone, at time `now`. -/
@[irreducible]
def nextRunIn (schedule : Schedule) (now : Int) (tz : String) : Option Int :=
  match nextCronDate config.zones schedule.effectiveCron now tz with
  | .ok next => next
  | .error _ =>
      match nextCronDate config.zones DEFAULT_REPORT_CRON now tz with
      | .ok next => next
      | .error _ => safeNextRun config schedule.effectiveCron now

/-- What a scan has looked up for a workspace. -/
structure ScanMemo where
  zones : List (String × String) := []
  active : List (String × Bool) := []
  entitled : List (String × Bool) := []

def workspaceZone (memo : ScanMemo) (tenantId : String) : ReportM (String × ScanMemo) :=
  match memo.zones.lookup tenantId with
  | some tz => return (tz, memo)
  | none => do
      let tz ← look fun db => db.services.timezone tenantId
      return (tz, { memo with zones := (tenantId, tz) :: memo.zones })

/-- `nextDueRun`. -/
def nextDueRun (r : Report) (now : Int) (memo : ScanMemo) : ReportM (Option Int × ScanMemo) :=
  match r.schedule.ownZone with
  | some name => return (nextRunIn config r.schedule now (normalizeTimeZone config.zones name), memo)
  | none => do
      let (tz, memo) ← workspaceZone memo r.tenantId
      return (nextRunIn config r.schedule now tz, memo)

/-- `isActive`, looked up once in a scan. -/
def isActive (memo : ScanMemo) (tenantId : String) : ReportM (Bool × ScanMemo) :=
  match memo.active.lookup tenantId with
  | some active => return (active, memo)
  | none => do
      let active ← look fun db => db.services.tenantActive tenantId
      return (active, { memo with active := (tenantId, active) :: memo.active })

/-- `isEntitled`, looked up once in a scan. -/
def isEntitled (memo : ScanMemo) (tenantId : String) : ReportM (Bool × ScanMemo) :=
  match memo.entitled.lookup tenantId with
  | some entitled => return (entitled, memo)
  | none => do
      let entitled ← look fun db => db.services.scheduledDelivery tenantId
      return (entitled, { memo with entitled := (tenantId, entitled) :: memo.entitled })

/-- The arguments of `runDue`. -/
structure Scan where
  now : Int
  limit : Nat := 50
  owner : String
  deriving DecidableEq, Repr

/-- What `runDue` answers. -/
structure ScanResult where
  scanned : Nat := 0
  claimed : Nat := 0
  enqueued : Nat := 0
  skippedInactive : Nat := 0
  skippedNotEntitled : Nat := 0
  failed : Nat := 0
  deriving DecidableEq, Repr

def dueRun (r : Report) : RunRequest where
  tenantId := r.tenantId
  reportId := r.id
  format := some r.schedule.format.text
  triggeredBy := .schedule
  slot := r.nextRunAt

/-- The body of the `try` for a claimed report. -/
def runClaimed (r : Report) (memo : ScanMemo) (result : ScanResult) :
    ReportM (ScanResult × ScanMemo) := do
  let (active, memo) ← isActive memo r.tenantId
  if !active then return ({ result with skippedInactive := result.skippedInactive + 1 }, memo)
  else do
    let (entitled, memo) ← isEntitled memo r.tenantId
    if !entitled then
      return ({ result with skippedNotEntitled := result.skippedNotEntitled + 1 }, memo)
    else
      match ← attempt (run config (dueRun r)) with
      | .ok _ => return ({ result with enqueued := result.enqueued + 1 }, memo)
      | .error _ => return ({ result with failed := result.failed + 1 }, memo)

def Scan.claim (scan : Scan) (r : Report) (next : Option Int) : ScheduleClaim where
  id := r.id
  expectedNextRunAt := r.nextRunAt
  nextRunAt := next
  owner := scan.owner
  leaseMs := config.claimLeaseMs
  now := scan.now

/-- The loop of `runDue`. -/
def runAll (scan : Scan) : List Report → ScanMemo → ScanResult → ReportM ScanResult
  | [], _, result => return result
  | r :: rest, memo, result => do
      let (next, memo) ← nextDueRun config r scan.now memo
      let label := ReportLabel.claimDueSchedule (scan.claim config r next)
      if ← call label (fun db => (label.found db).isSome) then do
        let (result, memo) ← runClaimed config r memo { result with claimed := result.claimed + 1 }
        call (.releaseScheduleClaim r.id scan.owner) fun _ => ()
        runAll scan rest memo result
      else runAll scan rest memo result

/-- `runDue`. -/
def runDue (scan : Scan) : ReportM ScanResult := do
  let due ← look fun db => db.findByDueSchedule scan.now scan.limit
  runAll config scan due {} { scanned := due.length }

/-! ## Reprojection -/

def reprojectPage (tenantId : String) (now : Int) : List Report → ReportM Unit
  | [] => return ()
  | r :: rest => do
      let _ ← attempt (do
        let next ← projectNextRun config tenantId r.schedule now
        updateReport r.id { nextRunAt := some next })
      reprojectPage tenantId now rest

/-- The loop over the pages, of which the run reads at most `pages`. -/
def reprojectPages (tenantId : String) (now : Int) : Nat → Nat → ReportM Unit
  | 0, _ => return ()
  | pages + 1, page => do
      let docs ← look fun db => ((db.following tenantId).drop (100 * page)).take 100
      let total ← look fun db => (db.following tenantId).length
      reprojectPage config tenantId now docs
      if total ≤ 100 * (page + 1) then return () else reprojectPages tenantId now pages (page + 1)

/-- `reprojectSchedules`; a run of it that comes to an end reads finitely many pages. -/
def reprojectSchedules (tenantId : String) (now : Int) (pages : Nat) : ReportM Unit :=
  reprojectPages config tenantId now pages 0

/-! ## The system -/

/-- A call of the service, or the delivery of a job to its worker. -/
inductive ReportCall where
  | create (req : CreateReport)
  | update (req : UpdateReport)
  | remove (tenantId : String) (reportId : ObjectId) (actorId : Option String)
  | run (req : RunRequest)
  | processRun (job : ReportJob)
  | handleAnalyticsJob (job : ReportJob)
  | runDue (scan : Scan)
  | reprojectSchedules (tenantId : String) (now : Int) (pages : Nat)

/-- The program of a call, whose answer is left out. A run that a caller asks for is for no slot. -/
def ReportCall.program : ReportCall → ReportM Unit
  | .create req => Reports.create config req
  | .update req => Reports.update config req
  | .remove tenantId reportId actorId => Reports.remove tenantId reportId actorId
  | .run req => do let _ ← Reports.run config { req with slot := none }
  | .processRun job => Reports.processRun config job
  | .handleAnalyticsJob job => Reports.handleAnalyticsJob config job
  | .runDue scan => do let _ ← Reports.runDue config scan
  | .reprojectSchedules tenantId now pages => Reports.reprojectSchedules config tenantId now pages

/-- Calls as `made` allows them, any number and in any order. From outside, time passes and what other
services answer changes. -/
def reportSystem (made : ReportCall → Prop) :
    System Nat ReportLabel ReportDb (Except ReportFailure Unit) where
  start := fun _ p => ∃ call, made call ∧ p = (call.program config).run
  env := fun db db' => ∃ clock services, db' = { db with clock, services }
  ok := fun _ _ _ => True

end Config

end AnalyticsBackend.Reports
