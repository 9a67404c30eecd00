import AnalyticsBackend.ApiError
import AnalyticsBackend.Lib.Interleaving
import AnalyticsBackend.Lib.Mongo.Value

/-!
# The email outbox

`services/outbox.service.js` over `repositories/outboundEmail.repository.js`: claiming a due
message, delivering it and recording the outcome, for the drain, the dispatch of one message and
the requeueing of a dead one. A drain carries one reading of the clock through its whole batch.

What the template renderer and the mail transport answer is up to them: each delivery comes with
a `Trial`. The audit event of a requeue is left out.
-/

namespace AnalyticsBackend.Email
open Lib
open Mongo (ObjectId)

/-- `OUTBOX_STATUSES`. -/
inductive OutboxStatus where
  | pending
  | sending
  | retrying
  | sent
  | dead
  deriving DecidableEq, Repr

structure MailError where
  code : String
  message : String
  deriving DecidableEq, Repr

/-- `<owner>:<uuid>`, the uuid being drawn by a claim: the process and the number of its claim
name it. -/
structure LockToken where
  owner : String
  uuid : Nat × Nat
  deriving DecidableEq, Repr

/-- A stored message, with the fields that claiming, delivering and requeueing read or write. -/
structure OutboundEmail where
  tenantId : Option String
  variablesEnc : Option String
  status : OutboxStatus
  attempts : Nat
  maxAttempts : Nat
  nextAttemptAt : Int
  lockedBy : Option LockToken
  lockedUntil : Option Int
  lastAttemptAt : Option Int
  lastError : Option MailError
  sentAt : Option Int
  deadAt : Option Int
  messageId : Option String
  transport : Option String
  deriving DecidableEq, Repr

/-- A claim whose outcome has not been written yet: taken at `claimedAt`, with a lease that ends
at `lockedUntil`. -/
structure Delivery where
  id : ObjectId
  token : LockToken
  claimedAt : Int
  lockedUntil : Int
  deriving DecidableEq, Repr

/-- The clock all instances share and the messages; `ids` is the index on `_id`. The deliveries in
flight are not stored anywhere, the length of a send speaks of them. -/
structure OutboxDb where
  clock : Int
  ids : List ObjectId
  message : ObjectId → Option OutboundEmail
  inFlight : List Delivery

/-- `claimableFilter`. -/
def claimable (now : Int) (m : OutboundEmail) : Bool :=
  ((m.status = .pending || m.status = .retrying) && m.nextAttemptAt ≤ now) ||
    (m.status = .sending && m.lockedUntil.any (· ≤ now))

/-- `sort: { nextAttemptAt: 1, _id: 1 }`. -/
def sortsBefore (a b : ObjectId × OutboundEmail) : Bool :=
  a.2.nextAttemptAt < b.2.nextAttemptAt ||
    (a.2.nextAttemptAt = b.2.nextAttemptAt && a.1.value < b.1.value)

/-- The first of some messages in that order. -/
def earliest : List (ObjectId × OutboundEmail) → Option (ObjectId × OutboundEmail)
  | [] => none
  | a :: rest =>
      match earliest rest with
      | some b => if sortsBefore b a then some b else some a
      | none => some a

/-- The message that a claim with time `now` takes: the one named, or the first in order. -/
def OutboxDb.pick (db : OutboxDb) (now : Int) (id : Option ObjectId) :
    Option (ObjectId × OutboundEmail) :=
  earliest (db.ids.filterMap fun key =>
    (db.message key).bind fun m =>
      if claimable now m && id.all (· = key) then some (key, m) else none)

def OutboundEmail.claim (token : LockToken) (leaseMs now : Int) (m : OutboundEmail) :
    OutboundEmail :=
  { m with
    status := .sending, lockedBy := some token, lockedUntil := some (now + leaseMs)
    lastAttemptAt := some now, attempts := m.attempts + 1 }

inductive Outcome where
  | sent (now : Int) (messageId transport : Option String)
  | retry (nextAttemptAt : Int) (error : MailError)
  | dead (now : Int) (error : MailError)
  deriving DecidableEq, Repr

/-- The `$set` of `markSent`, `markRetry` and `markDead`. -/
def Outcome.apply (outcome : Outcome) (m : OutboundEmail) : OutboundEmail :=
  match outcome with
  | .sent now messageId transport =>
      { m with
        status := .sent, sentAt := some now, messageId, transport, lockedBy := none
        lockedUntil := none, lastError := none, variablesEnc := none }
  | .retry nextAttemptAt error =>
      { m with
        status := .retrying, nextAttemptAt, lastError := some error, lockedBy := none
        lockedUntil := none }
  | .dead now error =>
      { m with
        status := .dead, deadAt := some now, lastError := some error, lockedBy := none
        lockedUntil := none }

/-- `claimed(id, lockToken)`: the claim a transition applies to. -/
def OutboundEmail.heldBy (token : LockToken) (m : OutboundEmail) : Bool :=
  m.status = .sending && m.lockedBy = some token

/-- The atomic steps; `send` hands the envelope to the transport. -/
inductive OutboxLabel where
  | look
  | claim (now : Int) (token : LockToken) (leaseMs : Int) (id : Option ObjectId)
  | send (id : ObjectId) (token : LockToken)
  | outcome (id : ObjectId) (token : LockToken) (outcome : Outcome)
  | requeue (id : ObjectId) (now : Int)
  deriving DecidableEq, Repr

def OutboxDb.put (db : OutboxDb) (id : ObjectId) (m : OutboundEmail) : OutboxDb :=
  { db with message := Function.update db.message id (some m) }

/-- What a step does to the store. -/
def OutboxLabel.act : OutboxLabel → OutboxDb → OutboxDb
  | .look | .send _ _ => id
  | .claim now token leaseMs id => fun db =>
      (db.pick now id).elim db fun (key, m) =>
        { db.put key (m.claim token leaseMs now) with
          inFlight :=
            { id := key, token, claimedAt := db.clock, lockedUntil := now + leaseMs } ::
              db.inFlight }
  | .outcome id token result => fun db =>
      let written := ((db.message id).filter (OutboundEmail.heldBy token)).elim db fun m =>
        db.put id (result.apply m)
      { written with inFlight := db.inFlight.filter fun d => !(d.id = id && d.token = token) }
  | .requeue id now => fun db =>
      ((db.message id).filter fun m => m.status = .dead).elim db fun m =>
        db.put id
          { m with
            status := .pending, attempts := 0, nextAttemptAt := now, deadAt := none
            lockedBy := none, lockedUntil := none }

abbrev OutboxProg := Prog OutboxLabel OutboxDb

/-- A step, and what it reports of the store it found. -/
def step {A : Type} (label : OutboxLabel) (report : OutboxDb → A) : OutboxProg A :=
  Prog.update label label.act report

def look {A : Type} (f : OutboxDb → A) : OutboxProg A := Prog.read .look f

/-- The outbox settings of `config/env.js`. -/
structure OutboxEnv where
  leaseMs : Int
  backoffBaseMs : Nat
  backoffMaxMs : Nat
  batchSize : Nat

/-- Exponential backoff for the attempt that just failed (1-based). -/
def computeBackoffMs (env : OutboxEnv) (attempt : Nat) : Int :=
  min env.backoffMaxMs (env.backoffBaseMs * 2 ^ (max 1 attempt - 1))

/-- `PERMANENT_CODES`: error codes that retrying cannot fix. -/
def permanentCodes : List String :=
  ["INVALID_INPUT", "TEMPLATE_UNKNOWN", "TEMPLATE_VARIABLES_MISSING", "TEMPLATE_VARIABLES_INVALID",
    "TEMPLATE_RENDER_FAILED", "RECIPIENT_REJECTED", "DECRYPTION_FAILED", "INVALID_ENVELOPE",
    "ATTACHMENT_MISSING"]

/-- What the transport reports of a message it took. -/
structure Receipt where
  accepted : List String
  rejected : List String
  messageId : Option String
  deriving DecidableEq, Repr

/-- How one delivery goes: whether the message can be rendered, what the transport answers, and
whether the `sent` write is acknowledged; one that is not may have been carried out. -/
structure Trial where
  unrendered : Option MailError
  reply : Except MailError Receipt
  sentWrite : Except (MailError × Bool) Unit
  transport : Option String
  envelopeId : Option String

def Trial.verdict (trial : Trial) : Except MailError Receipt :=
  match trial.reply with
  | .ok receipt =>
      if receipt.rejected ≠ [] ∧ receipt.accepted = [] then
        .error
          { code := "RECIPIENT_REJECTED"
            message := "Every recipient was rejected by the mail server" }
      else .ok receipt
  | .error error => .error error

/-- `claimNext`: the claimed message after the update. -/
def claimNext (env : OutboxEnv) (now : Int) (token : LockToken) (id : Option ObjectId) :
    OutboxProg (Option (ObjectId × OutboundEmail)) :=
  step (.claim now token env.leaseMs id) fun db =>
    (db.pick now id).map fun (key, m) => (key, m.claim token env.leaseMs now)

section Delivery

variable (env : OutboxEnv) (now : Int) (id : ObjectId) (token : LockToken)
  (message : OutboundEmail) (trial : Trial)

def mark (outcome : Outcome) : OutboxProg Unit := step (.outcome id token outcome) fun _ => ()

/-- The `catch` around the send: dead-letter the message, or schedule another attempt. -/
def sendFailed (error : MailError) : OutboxProg OutboxStatus :=
  if permanentCodes.contains error.code ∨ message.maxAttempts ≤ message.attempts then do
    mark id token (.dead now error)
    return .dead
  else do
    mark id token (.retry (now + computeBackoffMs env message.attempts) error)
    return .retrying

def sendRendered : OutboxProg OutboxStatus := do
  step (.send id token) fun _ => ()
  match trial.verdict with
  | .error error => sendFailed env now id token message error
  | .ok receipt =>
      let sent := Outcome.sent now (receipt.messageId.or trial.envelopeId) trial.transport
      match trial.sentWrite with
      | .ok _ =>
          mark id token sent
          return .sent
      | .error (error, true) =>
          mark id token sent
          sendFailed env now id token message error
      | .error (error, false) => sendFailed env now id token message error

/-- Deliver a message this process has claimed, and record the outcome. -/
def deliverClaimed : OutboxProg OutboxStatus :=
  if message.maxAttempts < message.attempts then do
    mark id token
      (.dead now { code := "ATTEMPTS_EXHAUSTED", message := "Delivery attempts exhausted" })
    return .dead
  else
    match trial.unrendered with
    | some error => do
        mark id token (.dead now error)
        return .dead
    | none => sendRendered env now id token message trial

end Delivery

structure DrainCounts where
  claimed : Nat := 0
  sent : Nat := 0
  retried : Nat := 0
  deadLettered : Nat := 0
  deriving DecidableEq, Repr

def DrainCounts.count (counts : DrainCounts) (status : OutboxStatus) : DrainCounts :=
  { claimed := counts.claimed + 1
    sent := if status = .sent then counts.sent + 1 else counts.sent
    retried := if status = .retrying then counts.retried + 1 else counts.retried
    deadLettered := if status = .dead then counts.deadLettered + 1 else counts.deadLettered }

/-- The loop of `drainOutbox`: at most `left` more messages, the next claim being number `k`. -/
def drainFrom (env : OutboxEnv) (now : Int) (owner : String) (process : Nat) (trial : Nat → Trial) :
    Nat → Nat → DrainCounts → OutboxProg DrainCounts
  | 0, _, counts => pure counts
  | left + 1, k, counts => do
      match ← claimNext env now { owner, uuid := (process, k) } none with
      | none => return counts
      | some (id, message) =>
          let status ←
            deliverClaimed env now id { owner, uuid := (process, k) } message (trial k)
          drainFrom env now owner process trial left (k + 1) (counts.count status)

/-- Drain due messages (the email job). -/
def drainOutbox (env : OutboxEnv) (limit : Nat) (owner : String) (process : Nat)
    (trial : Nat → Trial) : OutboxProg DrainCounts := do
  let now ← look OutboxDb.clock
  drainFrom env now owner process trial (max 1 limit) 0 {}

/-- Claim and deliver one specific message if it is due. -/
def dispatchById (env : OutboxEnv) (id : ObjectId) (owner : String) (process : Nat)
    (trial : Trial) : OutboxProg (Option OutboxStatus) := do
  let now ← look OutboxDb.clock
  match ← claimNext env now { owner, uuid := (process, 0) } (some id) with
  | none => return none
  | some (key, message) =>
      let status ← deliverClaimed env now key { owner, uuid := (process, 0) } message trial
      return some status

/-- Return a dead-lettered message to the queue with a fresh attempt budget; an id that is no
ObjectId names no message. -/
def requeueDeadMessage (id : Option ObjectId) (scopeTenantId : Option String) :
    OutboxProg (Except ApiError Unit) := do
  let existing ← look fun db => id.bind fun key => (db.message key).map fun m => (key, m)
  match existing with
  | none => return .error (ApiError.notFound "Outbox message not found")
  | some (key, m) =>
      if scopeTenantId.any (fun scope => scope ≠ "" ∧ m.tenantId ≠ some scope) then
        return .error (ApiError.notFound "Outbox message not found")
      else if m.status ≠ .dead then
        return .error (ApiError.conflict "Only dead-lettered messages can be requeued")
      else
        let now ← look OutboxDb.clock
        let requeued ← step (.requeue key now) fun db =>
          ((db.message key).filter fun m => m.status = .dead).isSome
        if requeued then return .ok ()
        else return .error (ApiError.conflict "Only dead-lettered messages can be requeued")

/-- Any number of calls. From outside only the clock moves, and never as far as the `limit` of a
delivery in flight: that is how long a send may take. -/
def outboxSystem (env : OutboxEnv) (limit : Delivery → Int) :
    System Nat OutboxLabel OutboxDb Unit where
  start i p :=
    (∃ batch owner trial, p = (drainOutbox env batch owner i trial >>= fun _ => pure ())) ∨
      (∃ id owner trial, p = (dispatchById env id owner i trial >>= fun _ => pure ())) ∨
      ∃ id scope, p = (requeueDeadMessage id scope >>= fun _ => pure ())
  env db db' := db.clock ≤ db'.clock ∧ (∀ d ∈ db.inFlight, db'.clock < limit d) ∧
    db'.ids = db.ids ∧ db'.message = db.message ∧ db'.inFlight = db.inFlight
  ok _ _ db' := ∀ d ∈ db'.inFlight, db'.clock < limit d

abbrev OutboxEvent := Event Nat OutboxLabel OutboxDb
abbrev OutboxWorld := World Nat OutboxLabel OutboxDb

end AnalyticsBackend.Email
