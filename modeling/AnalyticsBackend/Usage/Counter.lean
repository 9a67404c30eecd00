import AnalyticsBackend.ApiError
import AnalyticsBackend.Lib.Interleaving
import Mathlib.Algebra.Ring.Nat

/-!
# Usage counters

`models/UsageCounter.js`, `repositories/usageCounter.repository.js` and the consuming side
of `services/usage.service.js`. One counter row per tenant, metric and period (a unique
index). A conditional upsert is two atomic steps: the update of a row that matches, and,
when none does, an insert that the unique index may refuse.
-/

namespace AnalyticsBackend.Usage
open Lib

inductive UsageMetric where
  | members
  | connectors
  | dashboards
  | reports
  | alerts
  | scheduledReports
  | storedRows
  | apiCallsPerDay
  | aiQuestionsPerDay
  deriving DecidableEq, Repr

def UsageMetric.text : UsageMetric → String
  | .members => "members"
  | .connectors => "connectors"
  | .dashboards => "dashboards"
  | .reports => "reports"
  | .alerts => "alerts"
  | .scheduledReports => "scheduledReports"
  | .storedRows => "storedRows"
  | .apiCallsPerDay => "apiCallsPerDay"
  | .aiQuestionsPerDay => "aiQuestionsPerDay"

/-- `periodOf(metric) !== 'current'`: the metrics of `METRIC_PERIODS`, which are counted by
the UTC day. -/
def UsageMetric.metered : UsageMetric → Bool
  | .apiCallsPerDay => true
  | .aiQuestionsPerDay => true
  | _ => false

inductive CounterKind where
  | current
  | cumulative
  deriving DecidableEq, Repr

/-- The `period` of the resource counts. -/
def currentPeriod : String := "current"

structure CounterKey where
  tenantId : String
  metric : UsageMetric
  period : String
  deriving DecidableEq, Repr

structure CounterRow where
  kind : CounterKind
  value : Int
  lastIncrementedAt : Option Int
  lastReconciledAt : Option Int
  updatedBy : Option String
  expiresAt : Option Int
  deriving DecidableEq, Repr

/-- An entry of the reservation ledger (`models/UsageReservation.js`). -/
structure Reservation where
  tenantId : String
  metric : UsageMetric
  key : String
  connectorId : Option String
  reserved : Nat
  remaining : Nat
  settledAt : Option Int
  voidedAt : Option Int
  staleAt : Int
  expiresAt : Int
  updatedAt : Int
  deriving DecidableEq, Repr

/-- The usage collections, and the rows stored for the connector under consideration (by
`sourceRowId`, which is unique for a connector). -/
structure UsageDb where
  counters : CounterKey → Option CounterRow
  reservations : List Reservation
  rows : Finset String

/-- No documents at all. -/
def emptyUsage : UsageDb := { counters := fun _ => none, reservations := [], rows := ∅ }

/-- The label of an atomic step. -/
inductive UsageLabel where
  | read
  | writeCounter (key : CounterKey)
  | writeReservation (key : String)
  | upsertRows
  deriving DecidableEq, Repr

abbrev UsageProg (A : Type) := Prog UsageLabel UsageDb A

namespace UsageDb

def setCounter (db : UsageDb) (key : CounterKey) (row : CounterRow) : UsageDb :=
  { db with counters := Function.update db.counters key (some row) }

/-- The counter as callers see it: a missing row counts as 0. -/
def valueOf (db : UsageDb) (key : CounterKey) : Int :=
  ((db.counters key).map CounterRow.value).getD 0

@[simp] theorem valueOf_setCounter (db : UsageDb) (key : CounterKey) (row : CounterRow) :
    (db.setCounter key row).valueOf key = row.value := by
  simp [valueOf, setCounter]

theorem valueOf_setCounter_ne (db : UsageDb) {key other : CounterKey} (row : CounterRow)
    (h : other ≠ key) : (db.setCounter key row).valueOf other = db.valueOf other := by
  simp [valueOf, setCounter, Function.update_of_ne h]

theorem valueOf_some {db : UsageDb} {key : CounterKey} {row : CounterRow}
    (stored : db.counters key = some row) : db.valueOf key = row.value := by
  simp [valueOf, stored]

theorem valueOf_none {db : UsageDb} {key : CounterKey} (missing : db.counters key = none) :
    db.valueOf key = 0 := by
  simp [valueOf, missing]

end UsageDb

/-! ## The repository -/

/-- `findOne`. -/
def findCounter (key : CounterKey) : UsageProg (Option CounterRow) :=
  Prog.read .read (fun db => db.counters key)

/-- The arguments of `incrementWithinLimit`, and `max` of the limit it enforces. -/
structure LimitedIncrement where
  key : CounterKey
  delta : Int
  max : Int
  actor : Option String
  kind : CounterKind
  expiresAt : Option Int
  silent : Bool
  now : Int
  deriving DecidableEq, Repr

structure LimitResult where
  ok : Bool
  value : Int
  deriving DecidableEq, Repr

/-- The `$inc` and `$set` of the update. -/
def LimitedIncrement.incremented (req : LimitedIncrement) (row : CounterRow) : CounterRow :=
  { row with
    value := row.value + req.delta
    lastIncrementedAt := some req.now
    updatedBy := req.actor
    kind := if req.silent then row.kind else req.kind }

/-- The row an insert creates (`insertDefaults`, or the schema defaults). -/
def LimitedIncrement.inserted (req : LimitedIncrement) : CounterRow :=
  { kind := req.kind
    value := req.delta
    lastIncrementedAt := some req.now
    lastReconciledAt := none
    updatedBy := req.actor
    expiresAt := req.expiresAt }

/-- The filter `value: { $lte: max - delta }`. -/
def LimitedIncrement.hasRoom (req : LimitedIncrement) (row : CounterRow) : Bool :=
  row.value ≤ req.max - req.delta

def LimitedIncrement.updateMatching (req : LimitedIncrement) (db : UsageDb) : UsageDb :=
  match db.counters req.key with
  | some row => if req.hasRoom row then db.setCounter req.key (req.incremented row) else db
  | none => db

def LimitedIncrement.updatedValue (req : LimitedIncrement) (db : UsageDb) : Option Int :=
  match db.counters req.key with
  | some row => if req.hasRoom row then some (req.incremented row).value else none
  | none => none

/-- The insert half: the unique index refuses a second row (`none` is E11000). -/
def LimitedIncrement.insertMissing (req : LimitedIncrement) (db : UsageDb) : UsageDb :=
  match db.counters req.key with
  | some _ => db
  | none => db.setCounter req.key req.inserted

def LimitedIncrement.insertedValue (req : LimitedIncrement) (db : UsageDb) : Option Int :=
  match db.counters req.key with
  | some _ => none
  | none => some req.delta

/-- The conditional upsert of `incrementWithinLimit`. -/
def upsertWithinLimit (req : LimitedIncrement) : UsageProg (Option Int) := do
  match ← Prog.update (.writeCounter req.key) req.updateMatching req.updatedValue with
  | some value => return some value
  | none => Prog.update (.writeCounter req.key) req.insertMissing req.insertedValue

def refusedAt (current : Option CounterRow) : LimitResult :=
  { ok := false, value := (current.map CounterRow.value).getD 0 }

/-- The loop of `incrementWithinLimit` with `attempts` left. -/
def incrementAttempts (req : LimitedIncrement) : Nat → UsageProg LimitResult
  | 0 => do return refusedAt (← findCounter req.key)
  | attempts + 1 => do
      match ← upsertWithinLimit req with
      | some value => return { ok := true, value }
      | none =>
          match ← findCounter req.key with
          | none => return refusedAt none
          | some current =>
              if req.hasRoom current then incrementAttempts req attempts
              else return refusedAt (some current)

/-- `incrementWithinLimit`; the error is the text of the thrown `Error`. -/
def incrementWithinLimit (req : LimitedIncrement) : UsageProg (Except String LimitResult) := do
  if req.key.tenantId = "" then return .error "tenantId is required"
  else if req.delta ≤ 0 then return .error "delta must be a positive integer"
  else if req.max < 0 then return .error "max must be a non-negative integer"
  else if req.max < req.delta then return .ok (refusedAt (← findCounter req.key))
  else return .ok (← incrementAttempts req 5)

/-- The arguments of the unconditional writes. -/
structure CounterChange where
  key : CounterKey
  delta : Int
  actor : Option String
  kind : CounterKind
  expiresAt : Option Int
  silent : Bool
  now : Int
  deriving DecidableEq, Repr

/-- The update of `incrementOrCreate` and `incrementSilently`. -/
def CounterChange.apply (c : CounterChange) (db : UsageDb) : UsageDb :=
  match db.counters c.key with
  | some row => db.setCounter c.key
      { row with
        value := row.value + c.delta
        lastIncrementedAt := some c.now
        updatedBy := c.actor
        kind := if c.silent then row.kind else c.kind }
  | none => db.setCounter c.key
      { kind := c.kind
        value := c.delta
        lastIncrementedAt := some c.now
        lastReconciledAt := none
        updatedBy := c.actor
        expiresAt := if c.silent then c.expiresAt else none }

/-- `incrementOrCreate` (`silent = false`) and `incrementSilently`: one upsert on the
unique key. -/
def incrementUnbounded (c : CounterChange) : UsageProg Int :=
  Prog.update (.writeCounter c.key) c.apply (fun db => db.valueOf c.key + c.delta)

/-- The pipeline update of `decrementClamped`. -/
def CounterChange.decrement (c : CounterChange) (db : UsageDb) : UsageDb :=
  match db.counters c.key with
  | some row => db.setCounter c.key
      { row with
        value := max 0 (row.value - c.delta)
        lastIncrementedAt := some c.now
        updatedBy := c.actor }
  | none => db

/-- `decrementClamped`. -/
def decrementClamped (c : CounterChange) : UsageProg (Except String Int) := do
  if c.key.tenantId = "" then return .error "tenantId is required"
  else if c.delta ≤ 0 then return .error "delta must be a positive integer"
  else
    let value ← Prog.update (.writeCounter c.key) c.decrement
      (fun db => ((db.counters c.key).map (fun row => max 0 (row.value - c.delta))).getD 0)
    return .ok value

/-! ### The atomic updates -/

section Updates

variable {db : UsageDb} {req : LimitedIncrement}

theorem updateMatching_none (h : req.updatedValue db = none) : req.updateMatching db = db := by
  unfold LimitedIncrement.updatedValue at h
  unfold LimitedIncrement.updateMatching
  cases stored : db.counters req.key with
  | none => rfl
  | some row =>
      by_cases room : req.hasRoom row = true
      · simp [stored, room] at h
      · simp [room]

theorem updateMatching_some {value : Int} (h : req.updatedValue db = some value) :
    (req.updateMatching db).valueOf req.key = db.valueOf req.key + req.delta ∧
      db.valueOf req.key ≤ req.max - req.delta ∧
      ∀ k, k ≠ req.key → (req.updateMatching db).valueOf k = db.valueOf k := by
  unfold LimitedIncrement.updatedValue at h
  unfold LimitedIncrement.updateMatching
  cases stored : db.counters req.key with
  | none => simp [stored] at h
  | some row =>
      by_cases room : req.hasRoom row = true
      · simp only [room, if_true, UsageDb.valueOf_setCounter, UsageDb.valueOf_some stored]
        refine ⟨rfl, by simpa [LimitedIncrement.hasRoom] using room, ?_⟩
        exact fun k hk => UsageDb.valueOf_setCounter_ne db _ hk
      · simp [stored, room] at h

theorem insertMissing_none (h : req.insertedValue db = none) : req.insertMissing db = db := by
  unfold LimitedIncrement.insertedValue at h
  unfold LimitedIncrement.insertMissing
  cases stored : db.counters req.key with
  | none => simp [stored] at h
  | some row => rfl

theorem insertMissing_some {value : Int} (h : req.insertedValue db = some value) :
    (req.insertMissing db).valueOf req.key = db.valueOf req.key + req.delta ∧
      db.valueOf req.key = 0 ∧
      ∀ k, k ≠ req.key → (req.insertMissing db).valueOf k = db.valueOf k := by
  unfold LimitedIncrement.insertedValue at h
  unfold LimitedIncrement.insertMissing
  cases stored : db.counters req.key with
  | none =>
      simp only [UsageDb.valueOf_setCounter, UsageDb.valueOf_none stored]
      refine ⟨by simp [LimitedIncrement.inserted], trivial, ?_⟩
      exact fun k hk => UsageDb.valueOf_setCounter_ne db _ hk
  | some row => simp [stored] at h

theorem decrement_valueOf (db : UsageDb) (change : CounterChange) :
    (change.decrement db).valueOf change.key = max 0 (db.valueOf change.key - change.delta) ∨
      (change.decrement db).valueOf change.key = db.valueOf change.key := by
  unfold CounterChange.decrement
  cases stored : db.counters change.key with
  | none => exact .inr rfl
  | some row => exact .inl (by simp [UsageDb.valueOf_some stored])

theorem decrement_valueOf_ne {change : CounterChange} {k : CounterKey} (h : k ≠ change.key) :
    (change.decrement db).valueOf k = db.valueOf k := by
  unfold CounterChange.decrement
  cases db.counters change.key with
  | none => rfl
  | some row => exact UsageDb.valueOf_setCounter_ne db _ h

end Updates

/-! ## The service -/

/-- One entry of the effective limits. -/
structure Limit where
  max : Int
  hard : Bool
  deriving DecidableEq, Repr

/-- What `resolveEffective` says about a tenant: whether writes are blocked, and its limit
on the metric at hand. -/
structure Entitlement where
  writeBlocked : Bool
  state : String
  limit : Option Limit
  deriving DecidableEq, Repr

/-- The arguments of `checkAndConsume`. `period` and `expiresAt` are `periodKeyFor` and
`meteredExpiry` of the metric. -/
structure ConsumeRequest where
  key : CounterKey
  requested : Int
  actor : Option String
  expiresAt : Option Int
  now : Int
  deriving DecidableEq, Repr

/-- `kind` of a period. -/
def ConsumeRequest.kind (req : ConsumeRequest) : CounterKind :=
  if req.key.period = currentPeriod then .current else .cumulative

def ConsumeRequest.limited (req : ConsumeRequest) (limit : Int) : LimitedIncrement :=
  { key := req.key, delta := req.requested, max := limit, actor := req.actor, kind := req.kind,
    expiresAt := req.expiresAt, silent := false, now := req.now }

/-- The unconditional increment of a consume request (`incrementUnbounded`). -/
def ConsumeRequest.unbounded (req : ConsumeRequest) : CounterChange :=
  { key := req.key, delta := req.requested, actor := req.actor, kind := req.kind,
    expiresAt := req.expiresAt, silent := req.key.period ≠ currentPeriod, now := req.now }

/-- `writeBlockedError`. -/
def writeBlockedError (state : String) : ApiError :=
  { statusCode := 403, code := .subscriptionWriteBlocked,
    message := s!"Subscription state \"{state}\" blocks writes; restore or upgrade to continue." }

/-- `quotaExceededError`: a resource count answers 409, a metered metric 429. -/
def quotaExceededError (metric : UsageMetric) (limit : Int) : ApiError :=
  let message :=
    if metric.metered then s!"Plan limit reached for {metric.text} (max {limit} per day)"
    else s!"Plan limit reached for {metric.text} (max {limit})"
  { statusCode := if metric.metered then 429 else 409, code := .quotaExceeded, message,
    errors := [{ field := metric.text, message }] }

/-- The answer of `checkAndConsume`. -/
structure Consumed where
  soft : Bool
  hard : Bool
  value : Int
  deriving DecidableEq, Repr

/-- `checkAndConsume` under a resolved entitlement. -/
def checkAndConsume (ent : Entitlement) (req : ConsumeRequest) :
    UsageProg (Except ApiError Consumed) := do
  if req.key.tenantId = "" then return .error (.badRequest "tenantId is required")
  else if req.requested ≤ 0 then
    return .error (.badRequest "requested must be a positive integer")
  else if ent.writeBlocked then return .error (writeBlockedError ent.state)
  else
    match ent.limit with
    | none =>
        let value ← incrementUnbounded req.unbounded
        return .ok { soft := false, hard := false, value }
    | some limit =>
        if limit.hard then
          match ← incrementWithinLimit (req.limited limit.max) with
          | .error message =>
              return .error { statusCode := 500, code := .internalError, message }
          | .ok result =>
              if result.ok then return .ok { soft := false, hard := true, value := result.value }
              else return .error (quotaExceededError req.key.metric limit.max)
        else
          let value ← incrementUnbounded req.unbounded
          return .ok { soft := limit.max < value, hard := false, value }

/-- `release`: never throws, and ignores what it cannot give back. -/
def release (tenantId : String) (metric : UsageMetric) (requested : Int) (actor : Option String)
    (now : Int) : UsageProg Int := do
  if tenantId = "" ∨ metric.metered = true ∨ requested ≤ 0 then return 0
  else
    match ← decrementClamped
      { key := { tenantId, metric, period := currentPeriod }, delta := requested, actor,
        kind := .current, expiresAt := none, silent := false, now } with
    | .ok value => return value
    | .error _ => return 0

end AnalyticsBackend.Usage
