import AnalyticsBackend.ApiError
import AnalyticsBackend.Lib.Collection
import AnalyticsBackend.Lib.Interleaving
import AnalyticsBackend.Lib.Js

/-!
# The delivery pipeline

`deliver`, `retryDelivery` and `retryDue` of `services/delivery/index.js` over the collection of
delivery runs. What the outbox or the destination answers is up to them: each attempt comes with an
answer. A worker that crashes takes no further step. The payload is left out.
-/

namespace AnalyticsBackend.Delivery
open Lib Collection

/-- `DELIVERY_STATUSES`. -/
inductive DeliveryStatus where
  | pending
  | sent
  | retrying
  | dead
  | skipped
  deriving DecidableEq, Repr

/-- `DELIVERY_TYPES`. -/
inductive DeliveryType where
  | email
  | webhook
  | slack
  | teams
  deriving DecidableEq, Repr

/-- A `DeliveryRun`, its payload apart. -/
structure DeliveryRun where
  id : String
  tenantId : String
  kind : String
  idempotencyKey : String
  sourceId : Option String
  reportRunId : Option String
  destinationType : DeliveryType
  destinationId : Option String
  recipient : String
  external : Bool
  status : DeliveryStatus
  attempts : Nat
  maxAttempts : Nat
  nextAttemptAt : Option Int
  lastAttemptAt : Option Int
  sentAt : Option Int
  deadAt : Option Int
  lastError : Option String
  outboxId : Option String
  deriving DecidableEq, Repr

/-- The fields of a `DeliveryDestination` that a delivery reads. -/
structure DeliveryDestination where
  id : String
  tenantId : String
  type : DeliveryType
  name : String
  deriving DecidableEq, Repr

/-- `env.delivery` and the backoff of the outbox. -/
structure DeliveryEnv where
  maxAttempts : Nat
  backoffBaseMs : Int
  backoffMaxMs : Int
  deriving DecidableEq, Repr

/-- The runs, the destinations that are not removed, and who has opted out. -/
structure DeliveryDb where
  clock : Int
  runs : List DeliveryRun
  destinations : List DeliveryDestination
  unsubscribed : List (String × String)
  deriving Repr

namespace DeliveryDb

def findByKey (db : DeliveryDb) (tenantId idempotencyKey : String) : Option DeliveryRun :=
  db.runs.find? fun run => run.tenantId = tenantId && run.idempotencyKey = idempotencyKey

def findDestination (db : DeliveryDb) (tenantId : String) (id : Option String) :
    Option DeliveryDestination :=
  db.destinations.find? fun d => some d.id = id && d.tenantId = tenantId

/-- `isUnsubscribed`. -/
def isUnsubscribed (db : DeliveryDb) (tenantId email : String) : Bool :=
  db.unsubscribed.contains (tenantId, email.toLower)

end DeliveryDb

/-! ## Outcomes -/

/-- What an attempt throws. -/
inductive SendError where
  | transport (code message : String) (transient : Bool)
  | attachmentMissing
  | other
  deriving DecidableEq, Repr

/-- `err.transient`, or anything but a missing attachment. -/
def SendError.isTransient : SendError → Bool
  | transport _ _ transient => transient
  | attachmentMissing => false
  | other => true

/-- `errorText`; the codes and messages of the transports are ASCII. -/
def SendError.text : SendError → String
  | transport code message _ => String.ofList ((code ++ ": " ++ message).toList.take 300)
  | attachmentMissing => "ATTACHMENT_MISSING: the report file is no longer available"
  | other => "DELIVERY_FAILED: the delivery could not be completed"

inductive DeliveryOutcome where
  | sent (outboxId : Option String)
  | skipped
  | retrying (lastError : String) (nextAttemptAt : Int)
  | dead (lastError : String)
  deriving DecidableEq, Repr

/-- The `patch` of an attempt. -/
structure DeliveryPatch where
  outcome : DeliveryOutcome
  attempts : Nat
  lastAttemptAt : Int
  deriving DecidableEq, Repr

def DeliveryPatch.apply (patch : DeliveryPatch) (run : DeliveryRun) : DeliveryRun :=
  let run := { run with attempts := patch.attempts, lastAttemptAt := some patch.lastAttemptAt }
  match patch.outcome with
  | .sent outboxId =>
      { run with
        status := .sent
        outboxId := outboxId.or run.outboxId
        nextAttemptAt := none
        sentAt := some patch.lastAttemptAt
        lastError := none }
  | .skipped =>
      { run with
        status := .skipped
        nextAttemptAt := none
        lastError := some "UNSUBSCRIBED: recipient opted out" }
  | .retrying lastError nextAttemptAt =>
      { run with
        status := .retrying
        nextAttemptAt := some nextAttemptAt
        lastError := some lastError }
  | .dead lastError =>
      { run with
        status := .dead
        nextAttemptAt := none
        deadAt := some patch.lastAttemptAt
        lastError := some lastError }

/-- `computeBackoffMs`. -/
def computeBackoffMs (env : DeliveryEnv) (attempt : Nat) : Int :=
  min env.backoffMaxMs (env.backoffBaseMs * 2 ^ (max 1 attempt - 1))

/-- What becomes of an attempt that has failed. -/
def failed (env : DeliveryEnv) (run : DeliveryRun) (now : Int) (error : SendError) : DeliveryOutcome :=
  let attempts := run.attempts + 1
  let maxAttempts := if run.maxAttempts = 0 then env.maxAttempts else run.maxAttempts
  if error.isTransient && attempts < maxAttempts then
    .retrying error.text (now + computeBackoffMs env attempts)
  else .dead error.text

/-! ## Steps -/

/-- The label of an atomic step. -/
inductive DeliveryLabel where
  | look
  | create (run : DeliveryRun)
  | claim (id tenantId : String) (seen : DeliveryStatus)
  | claimDue (now : Int)
  | send (id : String)
  | record (id tenantId : String) (patch : DeliveryPatch)
  deriving DecidableEq, Repr

/-- The filter of `retryDue`. -/
def DeliveryRun.due (now : Int) (run : DeliveryRun) : Bool :=
  run.status = .retrying && run.nextAttemptAt.any (· ≤ now)

/-- The run that `retryDue` claims: the first in the order of `nextAttemptAt`. -/
def DeliveryDb.nextDue (db : DeliveryDb) (now : Int) : Option DeliveryRun :=
  letI : Preorder Int := Int.instLinearOrder.toPreorder
  (db.runs.filter (DeliveryRun.due now)).argmin fun run => run.nextAttemptAt.getD 0

def DeliveryLabel.selected (db : DeliveryDb) : DeliveryLabel → Option DeliveryRun
  | .claim id tenantId seen =>
      db.runs.find? fun run => run.id = id && run.tenantId = tenantId && run.status = seen
  | .claimDue now => db.nextDue now
  | .record id tenantId _ => db.runs.find? fun run => run.id = id && run.tenantId = tenantId
  | _ => none

/-- The update of a run. -/
def DeliveryLabel.set : DeliveryLabel → DeliveryRun → DeliveryRun
  | .claim _ _ _, run => { run with status := .pending, attempts := 0, deadAt := none }
  | .claimDue _, run => { run with status := .pending }
  | .record _ _ patch, run => patch.apply run
  | _, run => run

def DeliveryDb.refuses (db : DeliveryDb) (run : DeliveryRun) : Bool :=
  (db.findByKey run.tenantId run.idempotencyKey).isSome

/-- What a step does; an id names one run. -/
def DeliveryLabel.act (label : DeliveryLabel) (db : DeliveryDb) : DeliveryDb :=
  match label with
  | .create run => if db.refuses run then db else { db with runs := db.runs ++ [run] }
  | _ =>
      match label.selected db with
      | some run => { db with runs := updateFirst (·.id = run.id) label.set db.runs }
      | none => db

abbrev DeliveryProg := Prog DeliveryLabel DeliveryDb

def look {A : Type} (f : DeliveryDb → A) : DeliveryProg A := Prog.update .look (DeliveryLabel.act .look) f

def updateRun (label : DeliveryLabel) : DeliveryProg (Option DeliveryRun) :=
  Prog.update label label.act fun db => (label.selected db).map label.set

/-! ## Attempts -/

/-- What the outbox or the destination answers; the outbox names its message. -/
abbrev SendAnswer := Except SendError (Option String)

/-- The outbound call. -/
def send (env : DeliveryEnv) (run : DeliveryRun) (now : Int) (answer : SendAnswer) :
    DeliveryProg DeliveryOutcome := do
  let _ ← Prog.update (.send run.id) (DeliveryLabel.act (.send run.id)) fun _ => ()
  match answer with
  | .ok outboxId => return .sent outboxId
  | .error error => return failed env run now error

def attemptEmail (env : DeliveryEnv) (run : DeliveryRun) (now : Int) (answer : SendAnswer) :
    DeliveryProg DeliveryOutcome := do
  if run.external then
    let optedOut ← look fun db => db.isUnsubscribed run.tenantId run.recipient
    if optedOut then return .skipped
    else send env run now answer
  else send env run now answer

def attemptDestination (env : DeliveryEnv) (run : DeliveryRun) (now : Int) (answer : SendAnswer) :
    DeliveryProg DeliveryOutcome := do
  let dest ← look fun db => db.findDestination run.tenantId run.destinationId
  match dest with
  | none =>
      return failed env run now (.transport "DESTINATION_REMOVED" "Destination no longer exists" false)
  | some _ => send env run now answer

/-- `attempt`: one attempt, and its outcome recorded. -/
def attempt (env : DeliveryEnv) (run : DeliveryRun) (now : Int) (answer : SendAnswer) :
    DeliveryProg (Option DeliveryRun) := do
  let outcome ←
    if run.destinationType = .email then attemptEmail env run now answer
    else attemptDestination env run now answer
  updateRun (.record run.id run.tenantId
    { outcome, attempts := run.attempts + 1, lastAttemptAt := now })

/-! ## Deliveries -/

/-- `EMAIL_RE`: one `@` with text before it, and a dot inside what follows it; no white space. -/
def emailRe (address : String) : Bool :=
  match splitChars '@' address.toList with
  | [name, domain] =>
      !name.isEmpty && (domain.drop 1).dropLast.contains '.' && !address.toList.any isJsSpace
  | _ => false

/-- `OBJECT_ID_RE`: 24 hexadecimal digits. -/
def objectIdRe (id : String) : Bool :=
  id.toList.length = 24 &&
    id.toList.all fun c => c.isDigit || ('a' ≤ c && c ≤ 'f') || ('A' ≤ c && c ≤ 'F')

/-- The arguments of `deliver`, `sendTo` being the `to` of an e-mail destination; `id` is the one of
the run that it may create. -/
structure DeliverRequest where
  id : String
  tenantId : String
  kind : String
  idempotencyKey : String
  type : Option DeliveryType
  sendTo : String
  destinationId : String
  external : Bool
  sourceId : Option String
  reportRunId : Option String
  answer : SendAnswer

/-- What `deliver` answers. -/
structure DeliverAnswer where
  id : String
  status : DeliveryStatus
  duplicate : Bool
  deriving DecidableEq, Repr

/-- The checks of `deliver`. -/
def DeliverRequest.refusal (req : DeliverRequest) : Option ApiError :=
  if req.tenantId = "" || req.kind = "" || req.idempotencyKey = "" then
    some (.badRequest "tenantId, kind and idempotencyKey are required")
  else
    match req.type with
    | none => some (.badRequest "Invalid delivery destination type")
    | some .email =>
        if emailRe req.sendTo then none else some (.badRequest "Invalid delivery recipient")
    | some _ =>
        if objectIdRe req.destinationId then none
        else some (.badRequest "Invalid delivery destination")

/-- The document that `deliver` creates, with the destination that it found. -/
def DeliverRequest.document (env : DeliveryEnv) (req : DeliverRequest) (type : DeliveryType)
    (dest : Option DeliveryDestination) : DeliveryRun where
  id := req.id
  tenantId := req.tenantId
  kind := req.kind
  idempotencyKey := req.idempotencyKey
  sourceId := req.sourceId
  reportRunId := req.reportRunId
  destinationType := (dest.map DeliveryDestination.type).getD type
  destinationId := if type = .email then none else some req.destinationId
  recipient :=
    if type = .email then req.sendTo.toLower else (dest.map DeliveryDestination.name).getD ""
  external := if type = .email then req.external else false
  status := .pending
  attempts := 0
  maxAttempts := env.maxAttempts
  nextAttemptAt := none
  lastAttemptAt := none
  sentAt := none
  deadAt := none
  lastError := none
  outboxId := none

abbrev DeliverResult := Except ApiError DeliverAnswer

def duplicateOf (run : DeliveryRun) : DeliverResult :=
  .ok { id := run.id, status := run.status, duplicate := true }

/-- What becomes of a document that has not been there: `null._id` throws. -/
def missingRun : ApiError :=
  { statusCode := 500, code := .internalError, message := "Cannot read properties of null" }

/-- `deliver` from the creation of the run on. -/
def createAndAttempt (env : DeliveryEnv) (run : DeliveryRun) (answer : SendAnswer) :
    DeliveryProg DeliverResult := do
  let created ← Prog.update (.create run) (DeliveryLabel.act (.create run)) fun db => !db.refuses run
  if created then
    let now ← look DeliveryDb.clock
    let done ← attempt env run now answer
    match done with
    | some done => return .ok { id := done.id, status := done.status, duplicate := false }
    | none => return .error missingRun
  else
    let existing ← look fun db => db.findByKey run.tenantId run.idempotencyKey
    match existing with
    | some run => return duplicateOf run
    | none => return .error missingRun

def deliver (env : DeliveryEnv) (req : DeliverRequest) : DeliveryProg DeliverResult := do
  match req.refusal, req.type with
  | some error, _ => return .error error
  | none, none => return .error (.badRequest "Invalid delivery destination type")
  | none, some type =>
      let existing ← look fun db => db.findByKey req.tenantId req.idempotencyKey
      match existing with
      | some run => return duplicateOf run
      | none =>
          if type = .email then createAndAttempt env (req.document env type none) req.answer
          else
            let dest ← look fun db => db.findDestination req.tenantId (some req.destinationId)
            createAndAttempt env (req.document env type dest) req.answer

/-- `retryDelivery`. -/
def retryDelivery (env : DeliveryEnv) (tenantId deliveryId : String) (answer : SendAnswer) :
    DeliveryProg (Except ApiError Unit) := do
  if !objectIdRe deliveryId then return .error (.notFound "Delivery not found")
  else
    let found ← look fun db => db.runs.find? fun run => run.id = deliveryId && run.tenantId = tenantId
    match found with
    | none => return .error (.notFound "Delivery not found")
    | some run =>
        if run.status ≠ .dead && run.status ≠ .retrying then
          return .error (.conflict "Only failed deliveries can be retried")
        else
          let claimed ← updateRun (.claim run.id run.tenantId run.status)
          match claimed with
          | none => return .error (.conflict "Delivery is already being retried")
          | some claimed =>
              let now ← look DeliveryDb.clock
              let _ ← attempt env claimed now answer
              return .ok ()

/-- The rounds of `retryDue`, each with the answer to its attempt. -/
def retryRounds (env : DeliveryEnv) (now : Int) : List SendAnswer → Nat → DeliveryProg Nat
  | [], retried => return retried
  | answer :: rest, retried => do
      let claimed ← updateRun (.claimDue now)
      match claimed with
      | none => return retried
      | some run =>
          let _ ← attempt env run now answer
          retryRounds env now rest (retried + 1)

/-- `retryDue`, as many rounds as its limit says. -/
def retryDue (env : DeliveryEnv) (answers : List SendAnswer) : DeliveryProg Nat := do
  let now ← look DeliveryDb.clock
  retryRounds env now answers 0

/-! ## The system -/

inductive DeliveryCall where
  | deliver (req : DeliverRequest)
  | retryDelivery (tenantId deliveryId : String) (answer : SendAnswer)
  | retryDue (answers : List SendAnswer)

def DeliveryCall.program (env : DeliveryEnv) : DeliveryCall → DeliveryProg Unit
  | .deliver req => Delivery.deliver env req >>= fun _ => pure ()
  | .retryDelivery tenantId deliveryId answer =>
      Delivery.retryDelivery env tenantId deliveryId answer >>= fun _ => pure ()
  | .retryDue answers => Delivery.retryDue env answers >>= fun _ => pure ()

def DeliveryDrawn (label : DeliveryLabel) (db _ : DeliveryDb) : Prop :=
  match label with
  | .create run => ∀ run' ∈ db.runs, run'.id ≠ run.id
  | _ => True

instance (label : DeliveryLabel) (db db' : DeliveryDb) : Decidable (DeliveryDrawn label db db') := by
  unfold DeliveryDrawn
  split <;> infer_instance

/-- Any number of calls. From outside the clock goes on, and destinations and opt-outs change. -/
def deliverySystem (env : DeliveryEnv) : System Nat DeliveryLabel DeliveryDb Unit where
  start := fun _ p => ∃ call : DeliveryCall, p = call.program env
  env := fun db db' => db'.runs = db.runs ∧ db.clock ≤ db'.clock
  ok := DeliveryDrawn

instance (env : DeliveryEnv) (label : DeliveryLabel) (db db' : DeliveryDb) :
    Decidable ((deliverySystem env).ok label db db') :=
  inferInstanceAs (Decidable (DeliveryDrawn label db db'))

abbrev DeliveryEvent := Event Nat DeliveryLabel DeliveryDb

abbrev DeliveryWorld := World Nat DeliveryLabel DeliveryDb

end AnalyticsBackend.Delivery
