import AnalyticsBackend.Lib.Collection
import AnalyticsBackend.Usage.Counter

/-!
# Reconciliation

`reconcile` and `withQuota` of `services/usage.service.js`, `compareAndSet` of
`repositories/usageCounter.repository.js`, `voidStale` and `summarize` of
`repositories/usageReservation.repository.js`, and the create and delete of a counted resource
as `services/alert.service.js`, `report.service.js`, `dashboard.service.js` and
`connector.service.js` have them: the counter before the document on a create, the document
before the counter on a delete. The audit events are left out.
-/

namespace AnalyticsBackend.Usage
open Lib

def reconciledMetrics : List UsageMetric :=
  [.members, .connectors, .dashboards, .reports, .scheduledReports, .alerts, .storedRows]

theorem mem_reconciledMetrics (m : UsageMetric) : m ∈ reconciledMetrics ↔ m.metered = false := by
  cases m <;> decide

/-- A counted document, and what it holds of each metric: an alert rule one of `alerts`, a
report one of `reports` and, with its schedule enabled, one of `scheduledReports`, a connector
one of `connectors` and its rows of `storedRows`. -/
structure Resource where
  id : String
  version : Nat
  deletedAt : Option Int
  deletedBy : Option String
  units : List (UsageMetric × Nat)
  deriving DecidableEq, Repr

def unitsOf (m : UsageMetric) (units : List (UsageMetric × Nat)) : Nat :=
  ((units.filter fun u => u.1 = m).map Prod.snd).sum

/-- What `countDocuments` and its siblings find of a resource: nothing once it is deleted. -/
def Resource.counted (m : UsageMetric) (r : Resource) : Nat :=
  if r.deletedAt = none then unitsOf m r.units else 0

/-- The collections of one tenant, and the clock. `inFlight` is not stored anywhere: what
creates have added to a counter and have no document for yet, and deletes have removed a
document for and not yet taken off its counter. -/
structure MeterDb where
  usage : UsageDb
  resources : List Resource
  clock : Int
  inFlight : UsageMetric → Int

def currentKey (tenantId : String) (metric : UsageMetric) : CounterKey :=
  { tenantId, metric, period := currentPeriod }

theorem currentKey_injective {tenantId : String} {m m' : UsageMetric}
    (same : currentKey tenantId m = currentKey tenantId m') : m = m' := by
  injection same

namespace MeterDb

def counter (db : MeterDb) (tenantId : String) (m : UsageMetric) : Option CounterRow :=
  db.usage.counters (currentKey tenantId m)

/-- The value of a resource counter. -/
def value (db : MeterDb) (tenantId : String) (m : UsageMetric) : Int :=
  db.usage.valueOf (currentKey tenantId m)

/-- The resources that exist, by metric. -/
def count (db : MeterDb) (m : UsageMetric) : Nat :=
  (db.resources.map (Resource.counted m)).sum

/-- `findById`, which passes over deleted documents. -/
def findLive (db : MeterDb) (id : String) : Option Resource :=
  db.resources.find? fun r => r.id = id && r.deletedAt = none

end MeterDb

/-- The label of an atomic step: what it reads or writes, and with which arguments. -/
inductive MeterLabel where
  | look
  | counter (metric : UsageMetric)
  | insert (resource : Resource)
  | remove (id : String) (version : Nat) (by' : Option String) (now : Int)
  | count (metric : UsageMetric) (row : Option CounterRow) (now settleMs : Int)
  | voidStale (now lingerMs : Int)
  | compareAndSet (metric : UsageMetric) (expected : Option (Int × Option Int)) (value : Nat)
      (by' : Option String) (now : Int)
  deriving DecidableEq, Repr

abbrev MeterProg := Prog MeterLabel MeterDb

def look {A : Type} (f : MeterDb → A) : MeterProg A := Prog.read .look f

/-- A step of a create or a delete on its counter: what it adds is in flight, and what it takes
off was. -/
def MeterDb.onCounter (tenantId : String) (metric : UsageMetric) (usage : UsageDb)
    (db : MeterDb) : MeterDb :=
  { db with
    usage
    inFlight := Function.update db.inFlight metric
      (db.inFlight metric + (usage.valueOf (currentKey tenantId metric) - db.value tenantId metric)) }

def counting {A : Type} (tenantId : String) (metric : UsageMetric) (p : UsageProg A) : MeterProg A :=
  p.onto MeterDb.usage (MeterDb.onCounter tenantId metric) (fun _ => .counter metric)

/-! ## Creating -/

/-- The request of one metric in `withQuota`. -/
def quotaRequest (tenantId : String) (metric : UsageMetric) (requested : Nat) (by' : Option String)
    (now : Int) : ConsumeRequest :=
  { key := currentKey tenantId metric, requested, actor := by', expiresAt := none, now }

/-- The decrement of `release`. -/
def releaseChange (tenantId : String) (metric : UsageMetric) (requested : Nat)
    (by' : Option String) (now : Int) : CounterChange :=
  { key := currentKey tenantId metric, delta := requested, actor := by', kind := .current,
    expiresAt := none, silent := false, now }

/-- `release`, whose decrement is stamped with the time of the store (`$$NOW`). -/
def releaseUnits (tenantId : String) (metric : UsageMetric) (requested : Nat)
    (by' : Option String) : MeterProg Int := do
  if tenantId = "" ∨ metric.metered = true ∨ requested = 0 then return 0
  else
    Prog.update (.counter metric)
      (fun db => db.onCounter tenantId metric
        ((releaseChange tenantId metric requested by' db.clock).decrement db.usage))
      (fun db =>
        ((db.counter tenantId metric).map fun row => max 0 (row.value - (requested : Int))).getD 0)

/-- Give back each entry of a list. -/
def releaseAll (tenantId : String) (by' : Option String) : List (UsageMetric × Nat) → MeterProg Unit
  | [] => return ()
  | (metric, requested) :: rest => do
      let _ ← releaseUnits tenantId metric requested by'
      releaseAll tenantId by' rest

/-- The loop of `withQuota`: what was consumed, and what refused the rest. -/
def consumeAll (tenantId : String) (ent : UsageMetric → Entitlement) (requested : Nat)
    (by' : Option String) :
    List UsageMetric → List (UsageMetric × Nat) →
      MeterProg (List (UsageMetric × Nat) × Option ApiError)
  | [], consumed => return (consumed, none)
  | metric :: rest, consumed => do
      let now ← look MeterDb.clock
      match ← counting tenantId metric
          (checkAndConsume (ent metric) (quotaRequest tenantId metric requested by' now)) with
      | .ok _ => consumeAll tenantId ent requested by' rest (consumed ++ [(metric, requested)])
      | .error e => return (consumed, some e)

/-- Consume quota, run `fn`, and give the quota back if `fn` fails. -/
def withQuota {A : Type} (tenantId : String) (ent : UsageMetric → Entitlement)
    (metrics : List UsageMetric) (requested : Nat) (by' : Option String)
    (fn : MeterProg (Except ApiError A)) : MeterProg (Except ApiError A) := do
  let (consumed, refused) ← consumeAll tenantId ent requested by' metrics []
  match refused with
  | some e => do
      releaseAll tenantId by' consumed
      return .error e
  | none => do
      match ← fn with
      | .ok a => return .ok a
      | .error e => do
          releaseAll tenantId by' consumed
          return .error e

/-- The document of a create: its id, and what the store says when it refuses the insert. -/
structure NewResource where
  id : String
  metrics : List UsageMetric
  requested : Nat
  actor : Option String
  entitlement : UsageMetric → Entitlement
  fails : Option ApiError

def NewResource.document (new : NewResource) : Resource :=
  { id := new.id, version := 0, deletedAt := none, deletedBy := none,
    units := new.metrics.map fun m => (m, new.requested) }

def MeterDb.insertResource (resource : Resource) (db : MeterDb) : MeterDb :=
  if db.resources.any (fun r => r.id = resource.id) then db
  else
    { db with
      resources := resource :: db.resources
      inFlight := fun m => db.inFlight m - resource.counted m }

/-- `create` of a resource repository. -/
def insertResource (new : NewResource) : MeterProg (Except ApiError String) := do
  match new.fails with
  | some e => return .error e
  | none =>
      if ← Prog.update (.insert new.document) (MeterDb.insertResource new.document)
          (fun db => db.resources.any fun r => r.id = new.id) then
        return .error (ApiError.conflict "Duplicate key")
      else return .ok new.id

/-- A create: quota first, then the document. -/
def createResource (tenantId : String) (new : NewResource) : MeterProg (Except ApiError String) :=
  withQuota tenantId new.entitlement new.metrics new.requested new.actor (insertResource new)

/-! ## Deleting -/

/-- `doc.softDelete()`: the `save` is checked against `__v`. -/
def MeterDb.removeResource (id : String) (version : Nat) (by' : Option String) (now : Int)
    (db : MeterDb) : MeterDb :=
  match db.resources.find? fun r => r.id = id && r.version = version with
  | some r =>
      { db with
        resources := Collection.updateFirst (fun r => r.id = id && r.version = version)
          (fun r => { r with deletedAt := some now, deletedBy := by', version := version + 1 })
          db.resources
        inFlight := fun m => db.inFlight m + r.counted m }
  | none => db

/-- What ends a delete early: an `ApiError`, or the `VersionError` of the `save`. -/
inductive MeterFailure where
  | api (error : ApiError)
  | versionError (id : String)
  deriving DecidableEq, Repr

/-- A delete: the document first, then the quota. `noun` is the resource in the error text. -/
def deleteResource (tenantId noun id : String) (by' : Option String) :
    MeterProg (Except MeterFailure Unit) := do
  match ← look fun db => db.findLive id with
  | none => return .error (.api (ApiError.notFound s!"{noun} not found"))
  | some existing =>
      match ← look fun db => db.findLive id with
      | none => return .error (.api (ApiError.notFound s!"{noun} not found"))
      | some doc => do
          let now ← look MeterDb.clock
          if ← Prog.update (.remove id doc.version by' now)
              (MeterDb.removeResource id doc.version by' now)
              (fun db => (db.resources.find? fun r => r.id = id && r.version = doc.version).isSome)
          then do
            releaseAll tenantId by' existing.units
            return .ok ()
          else return .error (.versionError id)

/-! ## Reconciling -/

/-- `voidStale`. -/
def Reservation.voided (tenantId : String) (now lingerMs : Int) (r : Reservation) : Reservation :=
  if r.tenantId = tenantId ∧ r.settledAt = none ∧ r.staleAt ≤ now then
    { r with
      remaining := 0, settledAt := some now, voidedAt := some now,
      expiresAt := now + max 0 lingerMs }
  else r

/-- What `summarize` says of one metric. -/
structure ReservationSummary where
  outstanding : Nat
  lastChangedAt : Option Int
  deriving DecidableEq, Repr

/-- `summarize`: `none` for a metric without reservations. -/
def MeterDb.summarize (db : MeterDb) (tenantId : String) (now : Int) (m : UsageMetric) :
    Option ReservationSummary :=
  match db.usage.reservations.filter fun r => r.tenantId = tenantId && r.metric = m with
  | [] => none
  | rows => some
      { outstanding := (rows.map fun r =>
          if r.settledAt = none ∧ now < r.staleAt then r.remaining else 0).sum
        lastChangedAt := (rows.map Reservation.updatedAt).max? }

/-- `at && settleMs > 0 && now - at < settleMs`. -/
def recent (settleMs now : Int) (changedAt : Option Int) : Bool :=
  changedAt.any fun t => 0 < settleMs && now - t < settleMs

/-- `expected` of `compareAndSet`. -/
def expectedOf (row : Option CounterRow) : Option (Int × Option Int) :=
  row.map fun r => (r.value, r.lastIncrementedAt)

/-- The filter of `compareAndSet`; `none` is the row that must not exist. -/
def MeterDb.matches (db : MeterDb) (tenantId : String) (m : UsageMetric)
    (expected : Option (Int × Option Int)) : Bool :=
  expectedOf (db.counter tenantId m) = expected

/-- `compareAndSet`. -/
def MeterDb.compareAndSet (tenantId : String) (m : UsageMetric)
    (expected : Option (Int × Option Int)) (value : Nat) (by' : Option String) (now : Int)
    (db : MeterDb) : MeterDb :=
  if db.matches tenantId m expected then
    let row : CounterRow :=
      match db.counter tenantId m with
      | some row =>
          { row with value, lastReconciledAt := some now, updatedBy := by', kind := .current }
      | none =>
          { kind := .current, value, lastIncrementedAt := none, lastReconciledAt := some now,
            updatedBy := by', expiresAt := none }
    { db with usage := db.usage.setCounter (currentKey tenantId m) row }
  else db

/-- `action` of a metric of the report. -/
inductive ReconcileAction where
  | none
  | wouldCorrect
  | skippedRecentActivity
  | corrected
  | skippedConcurrentChange
  deriving DecidableEq, Repr

structure ReconcileEntry where
  metric : UsageMetric
  recorded : Int
  actual : Nat
  drift : Int
  action : ReconcileAction
  reserved : Option Nat
  deriving DecidableEq, Repr

/-- The arguments of `reconcile`, and in which order the counts of `countResources`, which are
sent together, reach the store. -/
structure ReconcileRequest where
  dryRun : Bool
  actor : Option String
  settleMs : Int
  lingerMs : Int
  arrival : List UsageMetric
  deriving DecidableEq, Repr

structure ReconcileReport where
  tenantId : String
  dryRun : Bool
  checkedAt : Int
  drifted : Nat
  corrected : Nat
  skipped : Nat
  metrics : List ReconcileEntry
  deriving DecidableEq, Repr

def readCounters (tenantId : String) :
    List UsageMetric → (UsageMetric → Option CounterRow) →
      MeterProg (UsageMetric → Option CounterRow)
  | [], counters => return counters
  | m :: rest, counters => do
      let row ← look fun db => db.counter tenantId m
      readCounters tenantId rest (Function.update counters m row)

/-- `countResources`. The steps carry what the run has read of the metric. -/
def countResources (req : ReconcileRequest) (counters : UsageMetric → Option CounterRow)
    (now : Int) : List UsageMetric → (UsageMetric → Nat) → MeterProg (UsageMetric → Nat)
  | [], actual => return actual
  | m :: rest, actual => do
      let n ← Prog.read (.count m (counters m) now req.settleMs) fun db => db.count m
      countResources req counters now rest (Function.update actual m n)

/-- The write of a drifted metric: `corrected` if the counter was still as it was read. -/
def correct (tenantId : String) (m : UsageMetric) (row : Option CounterRow) (real : Nat)
    (by' : Option String) : MeterProg ReconcileAction := do
  let now ← look MeterDb.clock
  let written ← Prog.update (.compareAndSet m (expectedOf row) real by' now)
    (MeterDb.compareAndSet tenantId m (expectedOf row) real by' now)
    (fun db => db.matches tenantId m (expectedOf row))
  return if written then .corrected else .skippedConcurrentChange

def reconcileMetric (tenantId : String) (req : ReconcileRequest) (now : Int)
    (row : Option CounterRow) (actual : Nat) (reserved : Option ReservationSummary)
    (m : UsageMetric) : MeterProg ReconcileEntry := do
  let recorded := (row.map CounterRow.value).getD 0
  let held := (reserved.map ReservationSummary.outstanding).getD 0
  let real := actual + held
  let entry : ReconcileEntry :=
    { metric := m, recorded, actual := real, drift := real - recorded, action := .none,
      reserved := if 0 < held then some held else none }
  if entry.drift = 0 then return entry
  else if req.dryRun then return { entry with action := .wouldCorrect }
  else if recent req.settleMs now (row.bind CounterRow.lastIncrementedAt)
      || recent req.settleMs now (reserved.bind ReservationSummary.lastChangedAt) then
    return { entry with action := .skippedRecentActivity }
  else
    let action ← correct tenantId m row real req.actor
    return { entry with action }

def reconcileMetrics (tenantId : String) (req : ReconcileRequest) (now : Int)
    (counters : UsageMetric → Option CounterRow) (actual : UsageMetric → Nat)
    (reserved : UsageMetric → Option ReservationSummary) :
    List UsageMetric → MeterProg (List ReconcileEntry)
  | [] => return []
  | m :: rest => do
      let entry ← reconcileMetric tenantId req now (counters m) (actual m) (reserved m) m
      let entries ← reconcileMetrics tenantId req now counters actual reserved rest
      return entry :: entries

/-- The totals of a report. -/
def report (tenantId : String) (req : ReconcileRequest) (now : Int)
    (metrics : List ReconcileEntry) : ReconcileReport :=
  { tenantId, dryRun := req.dryRun, checkedAt := now
    drifted := metrics.countP fun e => e.drift ≠ 0
    corrected := metrics.countP fun e => e.action = .corrected
    skipped := metrics.countP fun e =>
      e.action = .skippedRecentActivity || e.action = .skippedConcurrentChange
    metrics }

/-- `usageReservationRepository.voidStale`, unless this is a dry run. -/
def voidStale (tenantId : String) (req : ReconcileRequest) (now : Int) : MeterProg Unit :=
  if req.dryRun then return ()
  else
    Prog.update (.voidStale now req.lingerMs)
      (fun db =>
        { db with
          usage := { db.usage with
            reservations := db.usage.reservations.map (Reservation.voided tenantId now req.lingerMs) } })
      (fun _ => ())

/-- Recount one tenant's resources and correct drifted counters. -/
def reconcile (tenantId : String) (req : ReconcileRequest) :
    MeterProg (Except ApiError ReconcileReport) := do
  if tenantId = "" then return .error (.badRequest "tenantId is required")
  else
    let now ← look MeterDb.clock
    let counters ← readCounters tenantId reconciledMetrics (fun _ => none)
    voidStale tenantId req now
    let actual ← countResources req counters now req.arrival (fun _ => 0)
    let reserved ← look fun db => db.summarize tenantId now
    let metrics ← reconcileMetrics tenantId req now counters actual reserved reconciledMetrics
    return .ok (report tenantId req now metrics)

/-! ## The system -/

/-- An operation on the resources of a tenant, or a reconciliation. -/
inductive MeterCall where
  | create (new : NewResource)
  | delete (noun id : String) (by' : Option String)
  | reconcile (req : ReconcileRequest)

/-- What a call answers. -/
inductive MeterReply where
  | created (result : Except ApiError String)
  | deleted (result : Except MeterFailure Unit)
  | reconciled (result : Except ApiError ReconcileReport)

def MeterCall.program (tenantId : String) : MeterCall → MeterProg MeterReply
  | .create new => do return .created (← createResource tenantId new)
  | .delete noun id by' => do return .deleted (← deleteResource tenantId noun id by')
  | .reconcile req => do return .reconciled (← Usage.reconcile tenantId req)

/-- The calls of a run in which no settle window is shorter than `settleMs`: creates consume
resource metrics, and a reconciliation counts each of its metrics. -/
def MeterCall.Within (settleMs : Int) : MeterCall → Prop
  | .create new => ∀ m ∈ new.metrics, m.metered = false
  | .delete _ _ _ => True
  | .reconcile req => settleMs ≤ req.settleMs ∧ req.arrival.Perm reconciledMetrics

/-- Calls of one tenant under any names. From outside, time passes and other tenants' counters
change. -/
def meterSystem (tenantId : String) (settleMs : Int) (ok : MeterLabel → MeterDb → MeterDb → Prop) :
    System Nat MeterLabel MeterDb MeterReply where
  start := fun _ p => ∃ call : MeterCall, call.Within settleMs ∧ p = call.program tenantId
  env := fun db db' => db.clock ≤ db'.clock ∧ db'.resources = db.resources ∧
    db'.inFlight = db.inFlight ∧ db'.usage.reservations = db.usage.reservations ∧
    ∀ m, db'.counter tenantId m = db.counter tenantId m
  ok := ok

end AnalyticsBackend.Usage
