import AnalyticsBackend.Billing.Subscription
import AnalyticsBackend.Lib.Interleaving

/-!
# The billing collections of one tenant

`repositories/subscription.repository.js` and `repositories/paymentTransaction.repository.js`.
Each repository call is one atomic step; `findOneAndUpdate` is a conditional update of the
one document its filter can match. History rows and audit events are written by separate
calls after the update they describe and read by none of the operations modelled here, so
they are left out.
-/

namespace AnalyticsBackend.Billing
open Lib

/-- `TRANSACTION_STATUSES`. -/
inductive TransactionStatus where
  | pending
  | authorized
  | captured
  | failed
  | refunded
  | expired
  | cancelled
  deriving DecidableEq, Repr

/-- `models/PaymentTransaction.js`. -/
structure PaymentTransaction where
  planId : PlanCode
  amountMinor : Nat
  currency : String
  providerOrderId : String
  providerPaymentId : Option String
  status : TransactionStatus
  failureReason : Option String
  interval : BillingInterval
  termMonths : Nat
  createdAt : Int
  authorizedAt : Option Int
  capturedAt : Option Int
  failedAt : Option Int
  refundedAt : Option Int
  expiredAt : Option Int
  cancelledAt : Option Int
  clientVerifiedAt : Option Int
  appliedAt : Option Int
  applyingUntil : Option Int
  reconcileAttempts : Nat
  nextReconcileAt : Option Int
  deriving DecidableEq, Repr

/-- The stored spelling of a transaction status. -/
def TransactionStatus.text : TransactionStatus → String
  | .pending => "pending"
  | .authorized => "authorized"
  | .captured => "captured"
  | .failed => "failed"
  | .refunded => "refunded"
  | .expired => "expired"
  | .cancelled => "cancelled"

/-- `CAPTURABLE_STATUSES`: a verified capture may still move from these. -/
def capturableStatuses : List TransactionStatus := [.pending, .authorized, .failed, .expired]

/-- `OPEN_STATUSES`: reconciliation keeps checking these. -/
def openStatuses : List TransactionStatus := [.pending, .authorized]

/-- The forward-only lifecycle of `models/PaymentTransaction.js`: where a status may go. -/
def TransactionStatus.next : TransactionStatus → List TransactionStatus
  | .pending => [.authorized, .captured, .failed, .expired, .cancelled]
  | .authorized => [.captured, .failed, .expired]
  | .failed | .expired => [.captured]
  | .captured => [.refunded]
  | .refunded | .cancelled => []

/-- `TENANT_STATUSES`. -/
inductive TenantStatus where
  | pending
  | active
  | suspended
  | disabled
  | archived
  deriving DecidableEq, Repr

/-- The stored spelling of a tenant status. -/
def TenantStatus.text : TenantStatus → String
  | .pending => "pending"
  | .active => "active"
  | .suspended => "suspended"
  | .disabled => "disabled"
  | .archived => "archived"

/-- What billing reads of the tenant record. -/
structure Tenant where
  planId : Option PlanCode
  status : TenantStatus
  deleted : Bool
  deriving DecidableEq, Repr

/-- The stored documents of one tenant, and the clock that stamps the next write. -/
structure BillingDb where
  subscription : Option Subscription
  transactions : TransactionId → Option PaymentTransaction
  tenant : Option Tenant
  clock : Int

inductive SubscriptionWriter where
  | create
  | changePlan
  | cancel
  | reactivate
  | setState (state : SubscriptionState) (system : Bool)
  | paidTerm (transaction : TransactionId)
  | scheduleChange
  | clearScheduledChange
  | lifecycle
  deriving DecidableEq, Repr

/-- The label of an atomic step: a read, a write of the subscription by one of the
operations, or a write of a transaction. -/
inductive BillingLabel where
  | read
  | writeSubscription (writer : SubscriptionWriter)
  | writeTransaction (transaction : TransactionId)
  deriving DecidableEq, Repr

/-- A program of the billing services. -/
abbrev BillingProg (A : Type) := Prog BillingLabel BillingDb A

/-- A `$set` on the stored subscription. -/
abbrev SubscriptionPatch := Subscription → Subscription

namespace BillingDb

/-- `subscriptionRepository.update`: patch the row if it still meets `expect`. -/
def updateSubscription (db : BillingDb) (expect : Subscription → Bool)
    (patch : SubscriptionPatch) : BillingDb :=
  match db.subscription with
  | some row =>
      if expect row then
        { db with subscription := some { patch row with updatedAt := db.clock } }
      else db
  | none => db

/-- What `findOneAndUpdate(..., { new: true })` returns for the update above. -/
def updatedSubscription (db : BillingDb) (expect : Subscription → Bool)
    (patch : SubscriptionPatch) : Option Subscription :=
  match db.subscription with
  | some row =>
      if expect row then some { patch row with updatedAt := db.clock } else none
  | none => none

def updateTransaction (db : BillingDb) (id : TransactionId)
    (expect : PaymentTransaction → Bool) (patch : PaymentTransaction → PaymentTransaction) :
    BillingDb :=
  match db.transactions id with
  | some row =>
      if expect row then
        { db with transactions := Function.update db.transactions id (some (patch row)) }
      else db
  | none => db

/-- The row such an update returns, or `none` when it matched nothing. -/
def updatedTransaction (db : BillingDb) (id : TransactionId)
    (expect : PaymentTransaction → Bool) (patch : PaymentTransaction → PaymentTransaction) :
    Option PaymentTransaction :=
  match db.transactions id with
  | some row => if expect row then some (patch row) else none
  | none => none

end BillingDb

/-! ## `subscriptionRepository` -/

/-- `findByTenantId` (and `findById` of the row it created). -/
def findSubscription : BillingProg (Option Subscription) :=
  Prog.read .read BillingDb.subscription

/-- `tenantRepository.findById`. -/
def findTenant : BillingProg (Option Tenant) := Prog.read .read BillingDb.tenant

/-- `update(id, patch, { expect })`. -/
def updateSubscription (writer : SubscriptionWriter) (expect : Subscription → Bool)
    (patch : SubscriptionPatch) : BillingProg (Option Subscription) :=
  Prog.update (.writeSubscription writer) (fun db => db.updateSubscription expect patch)
    (fun db => db.updatedSubscription expect patch)

/-- `upsertForTenant`: `$set` on the row of the tenant, which is created when missing. -/
def upsertForTenant (fresh : Subscription) (patch : SubscriptionPatch) :
    BillingProg Subscription :=
  Prog.update (.writeSubscription .create)
    (fun db => { db with
      subscription := some { patch (db.subscription.getD fresh) with updatedAt := db.clock } })
    (fun db => { patch (db.subscription.getD fresh) with updatedAt := db.clock })

/-! ## `paymentTransactionRepository` -/

/-- `findById`, `findByOrderId` and `findByPaymentId` of a stored transaction. -/
def findTransaction (id : TransactionId) : BillingProg (Option PaymentTransaction) :=
  Prog.read .read (fun db => db.transactions id)

/-- A `findOneAndUpdate` of one transaction. -/
def updateTransaction (id : TransactionId) (expect : PaymentTransaction → Bool)
    (patch : PaymentTransaction → PaymentTransaction) :
    BillingProg (Option PaymentTransaction) :=
  Prog.update (.writeTransaction id) (fun db => db.updateTransaction id expect patch)
    (fun db => db.updatedTransaction id expect patch)

/-- The filter of `claimForApply`: captured, not applied, and no live claim. -/
def claimable (now : Int) (row : PaymentTransaction) : Bool :=
  row.status = .captured && row.appliedAt = none &&
    match row.applyingUntil with
    | none => true
    | some claimedUntil => claimedUntil ≤ now

/-- `claimForApply`. -/
def claimForApply (id : TransactionId) (now leaseMs : Int) :
    BillingProg (Option PaymentTransaction) :=
  updateTransaction id (claimable now) (fun row => { row with applyingUntil := some (now + leaseMs) })

/-- `markApplied`. -/
def markApplied (id : TransactionId) (now : Int) : BillingProg (Option PaymentTransaction) :=
  updateTransaction id (fun row => row.status = .captured)
    (fun row => { row with appliedAt := some now, applyingUntil := none })

/-- `releaseApply`. -/
def releaseApply (id : TransactionId) : BillingProg (Option PaymentTransaction) :=
  updateTransaction id (fun row => row.appliedAt = none)
    (fun row => { row with applyingUntil := none })

/-- `transitionStatus`: a conditional move out of one of `fromStatuses`. -/
def transitionStatus (id : TransactionId) (target : TransactionStatus)
    (fromStatuses : List TransactionStatus) (patch : PaymentTransaction → PaymentTransaction) :
    BillingProg (Option PaymentTransaction) :=
  updateTransaction id (fun row => row.status ∈ fromStatuses)
    (fun row => { patch row with status := target })

end AnalyticsBackend.Billing
