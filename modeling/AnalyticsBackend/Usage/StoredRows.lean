import AnalyticsBackend.Lib.Triple
import AnalyticsBackend.Usage.Reservation

/-!
# The stored-rows meter

`createStoredRowsSink` of `services/usage.service.js`: the credit of a message (in the
ledger or in the message itself), the sink that meters each batch, and its settlement. The
persistence function `upsert` is the caller's; it is described by its outcome.
-/

namespace AnalyticsBackend.Usage
open Lib

/-- The counter of stored rows. -/
def storedRowsKey (tenantId : String) : CounterKey :=
  { tenantId, metric := .storedRows, period := currentPeriod }

/-- `release` of stored rows. -/
def releaseRows (tenantId : String) (requested : Int) (actor : Option String) (now : Int) :
    UsageProg Int := release tenantId .storedRows requested actor now

/-- `adjustStoredRows`. -/
def adjustStoredRows (tenantId : String) (delta : Int) (actor : Option String) (now : Int) :
    UsageProg Unit := do
  if delta = 0 then return ()
  else if delta < 0 then
    let _ ← releaseRows tenantId (-delta) actor now
    return ()
  else
    let _ ← incrementUnbounded
      { key := storedRowsKey tenantId, delta, actor, kind := .current, expiresAt := none,
        silent := false, now }
    return ()

/-- The credit of a message: a ledger key, or what is left of the amount it carried. -/
inductive Credit where
  | ledger (key : String) (named : key ≠ "")
  | inMemory (credit : Nat)
  deriving DecidableEq

/-- A sink: its workspace and connector, and the credit its closure holds. -/
structure Sink where
  tenantId : String
  connectorId : String
  credit : Credit
  actor : Option String
  /-- `createStoredRowsSink` refuses a blank workspace. -/
  named : tenantId ≠ ""

/-- `createStoredRowsSink`: the ledger when there is a key, else the amount of the message. -/
def createStoredRowsSink (tenantId connectorId : String) (reserved : Int)
    (reservationKey : Option String) (actor : Option String) : Except ApiError Sink :=
  if named : tenantId = "" then .error (.badRequest "tenantId and connectorId are required")
  else if connectorId = "" then .error (.badRequest "tenantId and connectorId are required")
  else
    let credit : Credit :=
      match reservationKey with
      | some key => if named : key = "" then .inMemory reserved.toNat else .ledger key named
      | none => .inMemory reserved.toNat
    .ok { tenantId, connectorId, credit, actor, named }

namespace Sink

/-- `credit.draw`. -/
def draw (sink : Sink) (max : Int) (now : Int) : UsageProg (Int × Sink) := do
  match sink.credit with
  | .ledger key _ =>
      let taken ← drawReservation sink.tenantId .storedRows key max now
      return (taken, sink)
  | .inMemory credit =>
      let taken : Int := min max credit
      return (taken, { sink with credit := .inMemory (credit - taken).toNat })

/-- `credit.giveBack`: a closed reservation leaves the capacity on the counter only. -/
def giveBack (sink : Sink) (amount : Int) (now : Int) : UsageProg Sink := do
  match sink.credit with
  | .ledger key _ =>
      if amount ≤ 0 then return sink
      else
        if ← giveBackReservation sink.tenantId .storedRows key amount now then return sink
        else
          let _ ← releaseRows sink.tenantId amount sink.actor now
          return sink
  | .inMemory credit =>
      if 0 < amount then return { sink with credit := .inMemory (credit + amount.toNat) }
      else return sink

/-- `sink.settle`. -/
def settle (sink : Sink) (cfg : ReservationConfig) (now : Int) : UsageProg (Int × Sink) := do
  match sink.credit with
  | .ledger key _ =>
      let left ← cancelReservation cfg sink.tenantId .storedRows key sink.actor now
      return (left, sink)
  | .inMemory credit =>
      let settled : Sink := { sink with credit := .inMemory 0 }
      if 0 < credit then
        let _ ← releaseRows sink.tenantId credit sink.actor now
        return (credit, settled)
      else return (credit, settled)

end Sink

/-! ## Persistence -/

/-- The outcome of one `upsert` call: which of the rows that were not stored it inserts,
and whether it then fails. -/
structure UpsertOutcome where
  inserted : List String
  fails : Bool
  deriving DecidableEq, Repr

/-- `{ upserted, matched }`. -/
structure UpsertResult where
  upserted : Int
  matched : Int
  deriving DecidableEq, Repr

/-- The rows of a batch that an outcome inserts into the stored ones. -/
def UpsertOutcome.newRows (outcome : UpsertOutcome) (batch : List String) (rows : Finset String) :
    Finset String :=
  (batch.toFinset \ rows).filter (· ∈ outcome.inserted)

/-- `upsert(batch)`; a failure reports the rows it inserted (`upsertedCount`). -/
def upsert (outcome : UpsertOutcome) (batch : List String) :
    UsageProg (Except Int UpsertResult) :=
  Prog.update .upsertRows
    (fun db => { db with rows := db.rows ∪ outcome.newRows batch db.rows })
    (fun db =>
      let count : Int := (outcome.newRows batch db.rows).card
      if outcome.fails then .error count
      else .ok { upserted := count, matched := batch.length - count })

/-- `findExistingSourceRowIds`. -/
def findExistingSourceRowIds (ids : Finset String) : UsageProg (Finset String) :=
  Prog.read .read (fun db => ids ∩ db.rows)

/-! ## The sink -/

/-- What a sink call throws: the error of the quota check, or of `upsert`. -/
inductive SinkError where
  | quota (error : ApiError)
  | upsert (upsertedCount : Int)
  deriving DecidableEq, Repr

/-- What a sink call returns, and the sink it leaves. -/
abbrev SinkResult := Except SinkError UpsertResult × Sink

/-- The circumstances of one sink call: the entitlement in force, what `upsert` does, and
the clock. -/
structure SinkCall where
  ent : Entitlement
  outcome : UpsertOutcome
  now : Int
  deriving DecidableEq, Repr

/-- The quota check of the rows that the credit does not cover. -/
def consumeRest (sink : Sink) (call : SinkCall) (rest : Int) :
    UsageProg (Except ApiError Unit) := do
  if 0 < rest then
    match ← checkAndConsume call.ent
      { key := storedRowsKey sink.tenantId, requested := rest, actor := sink.actor,
        expiresAt := none, now := call.now } with
    | .error e => return .error e
    | .ok _ => return .ok ()
  else return .ok ()

/-- The refusal path: the credit is restored, and rows that exist already are refreshed. -/
def sinkRefused (sink : Sink) (call : SinkCall) (batch : List String) (known : Finset String)
    (taken : Int) (error : ApiError) : UsageProg SinkResult := do
  let sink ← sink.giveBack taken call.now
  if error.code = .quotaExceeded ∧ 0 < known.card then
    match ← upsert call.outcome (batch.filter (· ∈ known)) with
    | .error count => return (.error (.upsert count), sink)
    | .ok _ => return (.error (.quota error), sink)
  else return (.error (.quota error), sink)

/-- The failure path: rows that were not stored go back where their capacity came from. -/
def sinkFailed (sink : Sink) (call : SinkCall) (fresh taken count : Int) :
    UsageProg SinkResult := do
  let unwritten := max 0 (fresh - count)
  let back := min unwritten (max 0 (taken - count))
  let sink ← sink.giveBack back call.now
  if 0 < unwritten - back then
    let _ ← releaseRows sink.tenantId (unwritten - back) sink.actor call.now
    return (.error (.upsert count), sink)
  else return (.error (.upsert count), sink)

/-- The write of a batch whose new rows are paid for. -/
def sinkWrite (sink : Sink) (call : SinkCall) (batch : List String) (fresh taken : Int) :
    UsageProg SinkResult := do
  match ← upsert call.outcome batch with
  | .error count => sinkFailed sink call fresh taken count
  | .ok result =>
      adjustStoredRows sink.tenantId (result.upserted - fresh) sink.actor call.now
      return (.ok result, sink)

/-- `fresh > 0 ? await credit.draw(fresh) : 0`. -/
def Sink.drawFresh (sink : Sink) (fresh : Int) (now : Int) : UsageProg (Int × Sink) :=
  if 0 < fresh then sink.draw fresh now else return (0, sink)

/-- One batch fed to the sink. Rows are named by their `sourceRowId`. -/
def Sink.feed (sink : Sink) (call : SinkCall) (batch : List String) : UsageProg SinkResult := do
  if batch = [] then
    match ← upsert call.outcome [] with
    | .error count => return (.error (.upsert count), sink)
    | .ok result => return (.ok result, sink)
  else
    let ids := batch.toFinset
    let known ← findExistingSourceRowIds ids
    let fresh : Int := max 0 ((ids.card : Int) - known.card)
    let (taken, sink) ← sink.drawFresh fresh call.now
    match ← consumeRest sink call (fresh - taken) with
    | .error e => sinkRefused sink call batch known taken e
    | .ok () => sinkWrite sink call batch fresh taken

/-! ## Runs -/

/-- What a sync message carries for its rows: `reservationKey`, and `reservedRows` of older ones. -/
structure SyncMessage where
  tenantId : String
  connectorId : String
  reservationKey : Option String := none
  reservedRows : Int := 0
  deriving DecidableEq, Repr

/-- The sink that an attempt of `processSyncMessage` makes. -/
def SyncMessage.sink (message : SyncMessage) : Except ApiError Sink :=
  createStoredRowsSink message.tenantId message.connectorId message.reservedRows
    message.reservationKey none

/-- What happens to a message and its connector. -/
inductive SyncAction where
  | feed (call : SinkCall) (batch : List String)
  | settle (now : Int)
  /-- The message is delivered again: the next attempt makes a sink of its own. -/
  | retry
  | cancelReservation (key : String) (actor : Option String) (now : Int)
  | reserve (ent : Entitlement) (key : String) (connectorId : Option String) (requested : Int)
      (actor : Option String) (now : Int)
  deriving DecidableEq, Repr

/-- The program of an action, with the sink it leaves. -/
def SyncAction.program (cfg : ReservationConfig) (message : SyncMessage) (sink : Sink) :
    SyncAction → UsageProg Sink
  | .feed call batch => do return (← sink.feed call batch).2
  | .settle now => do return (← sink.settle cfg now).2
  | .retry =>
      match message.sink with
      | .ok renewed => return renewed
      | .error _ => return sink
  | .cancelReservation key actor now => do
      let _ ← Usage.cancelReservation cfg sink.tenantId .storedRows key actor now
      return sink
  | .reserve ent key connectorId requested actor now => do
      let _ ← Usage.reserve cfg ent
        { tenantId := sink.tenantId, metric := .storedRows, key, connectorId, requested, actor, now }
      return sink

/-- The actions one after the other. -/
def runSync (cfg : ReservationConfig) (message : SyncMessage) (sink : Sink) :
    List SyncAction → UsageProg Sink
  | [] => return sink
  | action :: rest => do runSync cfg message (← action.program cfg message sink) rest

end AnalyticsBackend.Usage
