import AnalyticsBackend.Lib.Collection
import AnalyticsBackend.Usage.Counter

/-!
# The reservation ledger

`repositories/usageReservation.repository.js` and `reserve` / `cancelReservation` of
`services/usage.service.js`. Every write is one atomic update of the reservation under a
key; `(tenantId, metric, key)` is unique.
-/

namespace AnalyticsBackend.Usage
open Lib

def Reservation.isOpen (tenantId : String) (metric : UsageMetric) (key : String)
    (r : Reservation) : Bool :=
  r.tenantId = tenantId && r.metric = metric && r.key = key && r.settledAt = none

def UsageDb.openReservation (db : UsageDb) (tenantId : String) (metric : UsageMetric)
    (key : String) : Option Reservation :=
  db.reservations.find? (Reservation.isOpen tenantId metric key)

def UsageDb.updateReservation (db : UsageDb) (tenantId : String) (metric : UsageMetric)
    (key : String) (patch : Reservation → Reservation) : UsageDb :=
  { db with
    reservations :=
      Collection.updateFirst (Reservation.isOpen tenantId metric key) patch db.reservations }

/-- `draw`: take up to `max`. The filter also asks for `remaining > 0`, without which the
update would take nothing. -/
def drawReservation (tenantId : String) (metric : UsageMetric) (key : String) (max : Int)
    (now : Int) : UsageProg Int := do
  if key = "" ∨ max ≤ 0 then return 0
  else
    Prog.update (.writeReservation key)
      (fun db =>
        match db.openReservation tenantId metric key with
        | some r =>
            if 0 < r.remaining then
              db.updateReservation tenantId metric key (fun r =>
                { r with remaining := (r.remaining - max).toNat, updatedAt := now })
            else db
        | none => db)
      (fun db =>
        match db.openReservation tenantId metric key with
        | some r => if 0 < r.remaining then min r.remaining max else 0
        | none => 0)

/-- `giveBack`: `false` when the reservation is no longer open. -/
def giveBackReservation (tenantId : String) (metric : UsageMetric) (key : String) (amount : Int)
    (now : Int) : UsageProg Bool := do
  if key = "" ∨ amount ≤ 0 then return true
  else
    Prog.update (.writeReservation key)
      (fun db => db.updateReservation tenantId metric key (fun r =>
        { r with remaining := r.remaining + amount.toNat, updatedAt := now }))
      (fun db => (db.openReservation tenantId metric key).isSome)

/-- `settle`: close the reservation and return what it had left. -/
def settleReservation (tenantId : String) (metric : UsageMetric) (key : String)
    (now lingerMs : Int) : UsageProg Int := do
  if key = "" then return 0
  else
    Prog.update (.writeReservation key)
      (fun db => db.updateReservation tenantId metric key (fun r =>
        { r with
          remaining := 0, settledAt := some now, updatedAt := now,
          expiresAt := now + max 0 lingerMs }))
      (fun db => ((db.openReservation tenantId metric key).map (fun r => (r.remaining : Int))).getD 0)

/-- The arguments of `create`. -/
structure NewReservation where
  tenantId : String
  metric : UsageMetric
  key : String
  connectorId : Option String
  amount : Nat
  staleAt : Int
  expiresAt : Int
  now : Int
  deriving DecidableEq, Repr

def NewReservation.document (req : NewReservation) : Reservation where
  tenantId := req.tenantId
  metric := req.metric
  key := req.key
  connectorId := req.connectorId
  reserved := req.amount
  remaining := req.amount
  settledAt := none
  voidedAt := none
  staleAt := req.staleAt
  expiresAt := req.expiresAt
  updatedAt := req.now

/-- The unique index of the ledger holds the key already, open or closed. -/
def UsageDb.reservationExists (db : UsageDb) (req : NewReservation) : Bool :=
  db.reservations.any (fun r =>
    r.tenantId = req.tenantId && r.metric = req.metric && r.key = req.key)

/-- `create`: `false` when the unique index refuses the document. -/
def createReservation (req : NewReservation) : UsageProg Bool :=
  Prog.update (.writeReservation req.key)
    (fun db =>
      if db.reservationExists req then db
      else { db with reservations := req.document :: db.reservations })
    (fun db => !db.reservationExists req)

/-! ## The service -/

/-- `reservationLingerMs` and the time to live of a reservation, from the environment. -/
structure ReservationConfig where
  lingerMs : Int
  ttlMs : Int
  /-- The backstop after `staleAt`: seven days. -/
  backstopMs : Int := 7 * 86400000
  deriving DecidableEq, Repr

/-- The arguments of `reserve`. -/
structure ReserveRequest where
  tenantId : String
  metric : UsageMetric
  key : String
  connectorId : Option String
  requested : Int
  actor : Option String
  now : Int
  deriving DecidableEq, Repr

/-- The ledger entry of a reserve request. -/
def ReserveRequest.entry (cfg : ReservationConfig) (req : ReserveRequest) : NewReservation where
  tenantId := req.tenantId
  metric := req.metric
  key := req.key
  connectorId := req.connectorId
  amount := req.requested.toNat
  staleAt := req.now + cfg.ttlMs
  expiresAt := req.now + cfg.ttlMs + cfg.backstopMs
  now := req.now

/-- The consumption of a reserve request. -/
def ReserveRequest.consume (req : ReserveRequest) : ConsumeRequest where
  key := { tenantId := req.tenantId, metric := req.metric, period := currentPeriod }
  requested := req.requested
  actor := req.actor
  expiresAt := none
  now := req.now

/-- `reserve`: consume, then write the ledger entry, and give the capacity back if that
fails. -/
def reserve (cfg : ReservationConfig) (ent : Entitlement) (req : ReserveRequest) :
    UsageProg (Except ApiError Int) := do
  if req.tenantId = "" then return .error (.badRequest "tenantId is required")
  else if req.key = "" then return .error (.badRequest "key is required")
  else if req.metric.metered then
    return .error (.badRequest "only resource metrics can be reserved")
  else if req.requested ≤ 0 then
    return .error (.badRequest "requested must be a positive integer")
  else
    match ← checkAndConsume ent req.consume with
    | .error e => return .error e
    | .ok _ =>
        if ← createReservation (req.entry cfg) then return .ok req.requested
        else
          let _ ← release req.tenantId req.metric req.requested req.actor req.now
          return .error { statusCode := 500, code := .internalError, message := "E11000" }

/-- `cancelReservation`: close the reservation and give back what it has left. -/
def cancelReservation (cfg : ReservationConfig) (tenantId : String) (metric : UsageMetric)
    (key : String) (actor : Option String) (now : Int) : UsageProg Int := do
  if tenantId = "" ∨ key = "" then return 0
  else
    let left ← settleReservation tenantId metric key now cfg.lingerMs
    if 0 < left then
      let _ ← release tenantId metric left actor now
      return left
    else return left

end AnalyticsBackend.Usage
