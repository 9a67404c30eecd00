import AnalyticsBackend.Billing.Capture

/-!
# Payments of one workspace

The writers of the stored payment transactions: `services/billing.service.js`,
`handle` of `services/billingWebhook.service.js` and the sweep of
`services/billingReconcile.service.js`. What the provider answers is a parameter of each
call. Audit events, and the leases of stored webhook events (which only decide how often an
event is handled), are left out.
-/

namespace AnalyticsBackend.Billing
open Lib System

/-! ## The provider -/

structure ProviderOrder where
  status : String
  amount : Option Int
  amountPaid : Option Int
  amountDue : Option Int
  deriving DecidableEq, Repr

structure ProviderPayment where
  id : String
  orderId : Option String
  status : String
  captured : Bool
  amount : Option Int
  currency : Option String
  deriving DecidableEq, Repr

/-- The answers of the payment provider during one call; `error` is a throw. -/
structure Provider where
  fetchOrder : String → Except ApiError ProviderOrder
  fetchOrderPayments : String → Except ApiError (List ProviderPayment)
  fetchPayment : String → Except ApiError ProviderPayment

/-- The environment settings of the sweep, besides those of the subscriptions. -/
structure PaymentsConfig extends BillingConfig where
  pendingExpireHours : Int := 48
  reconcileBackoffBaseMs : Nat := 60000
  reconcileBackoffMaxMs : Nat := 21600000

/-- The characters of `toUpperCase()` of a currency code. -/
def upperCase (code : String) : List Char := code.toList.map Char.toUpper

def ProviderPayment.matchesOrder (payment : ProviderPayment) (txn : PaymentTransaction) : Bool :=
  payment.amount = some (txn.amountMinor : Int) ∧
    upperCase (payment.currency.getD "") = upperCase txn.currency

/-- `providerCaptureForOrder`: the captured payment of a paid order, if any. -/
def providerCaptureForOrder (provider : Provider) (txn : PaymentTransaction) :
    Except ApiError (Option ProviderPayment) := do
  let order ← provider.fetchOrder txn.providerOrderId
  if order.status = "paid" ∨ (0 < order.amountPaid.getD 0 ∧ order.amountDue.getD 0 = 0) then
    let payments ← provider.fetchOrderPayments txn.providerOrderId
    return payments.find? (fun payment =>
      payment.status = "captured" && payment.captured && payment.matchesOrder txn)
  else return none

/-! ## The safe capture -/

/-- What `confirmAndApplyCapture` and `handle` return. -/
structure CaptureOutcome where
  outcome : String
  transaction : Option PaymentTransaction
  deriving DecidableEq, Repr

def recordFailed (id : TransactionId) (reason : String) (now : Int) :
    BillingProg (Option PaymentTransaction) :=
  transitionStatus id .failed openStatuses (fun row => { row with
    failureReason := some reason, failedAt := some now })

def recordAuthorized (id : TransactionId) (paymentId : Option String) (now : Int) :
    BillingProg (Option PaymentTransaction) :=
  transitionStatus id .authorized [.pending] (fun row => { row with
    providerPaymentId := paymentId.or row.providerPaymentId, authorizedAt := some now })

/-- The capture flip. -/
def recordCaptured (id : TransactionId) (paymentId : String) (now : Int) :
    BillingProg (Option PaymentTransaction) :=
  transitionStatus id .captured capturableStatuses (fun row => { row with
    providerPaymentId := some paymentId, capturedAt := some now, failureReason := none })

def recordRefunded (id : TransactionId) (now : Int) : BillingProg (Option PaymentTransaction) :=
  transitionStatus id .refunded [.captured] (fun row => { row with refundedAt := some now })

def recordExpired (id : TransactionId) (reason : String) (now : Int) :
    BillingProg (Option PaymentTransaction) :=
  transitionStatus id .expired [.pending] (fun row => { row with
    expiredAt := some now, failureReason := some reason })

def recordCancelled (id : TransactionId) (reason : String) (now : Int) :
    BillingProg (Option PaymentTransaction) :=
  transitionStatus id .cancelled [.pending] (fun row => { row with
    cancelledAt := some now, failureReason := some reason })

/-- The end of `confirmAndApplyCapture`: the flip, then the term of a captured row. -/
def captureAndApply (cfg : PaymentsConfig) (id : TransactionId) (paymentId : String) (now : Int)
    (faults : CaptureFaults) : BillingProg (Except ApiError CaptureOutcome) := do
  let moved ← recordCaptured id paymentId now
  let row ← match moved with
    | some row => pure (some row)
    | none => findTransaction id
  match row with
  | none => return .ok { outcome := "transaction_moved", transaction := none }
  | some row =>
      if row.status ≠ .captured then
        return .ok { outcome := s!"transaction_{row.status.text}", transaction := some row }
      else
        match ← applyCapture cfg.toBillingConfig id now faults with
        | .error e => return .error e
        | .ok _ =>
            let stored ← findTransaction id
            return .ok
              { outcome := if moved.isSome then "captured" else "already_captured"
                transaction := stored }

/-- `confirmAndApplyCapture` of the transaction `id`, read as `transaction` before. -/
def confirmAndApplyCapture (cfg : PaymentsConfig) (provider : Provider) (id : TransactionId)
    (transaction : Option PaymentTransaction) (paymentId : Option String) (now : Int)
    (faults : CaptureFaults) : BillingProg (Except ApiError CaptureOutcome) := do
  match transaction with
  | none => return .ok { outcome := "unknown_order", transaction := none }
  | some txn =>
      match txn.status with
      | .cancelled => return .ok { outcome := "transaction_cancelled", transaction := some txn }
      | .refunded => return .ok { outcome := "transaction_refunded", transaction := some txn }
      | .captured =>
          match ← applyCapture cfg.toBillingConfig id now faults with
          | .error e => return .error e
          | .ok _ =>
              let stored ← findTransaction id
              return .ok { outcome := "already_captured", transaction := stored }
      | _ =>
          match paymentId.filter (· ≠ "") with
          | none => return .ok { outcome := "not_captured", transaction := some txn }
          | some paymentId =>
              match provider.fetchPayment paymentId with
              | .error e => return .error e
              | .ok payment =>
                  if payment.orderId ≠ some txn.providerOrderId then
                    return .ok { outcome := "order_mismatch", transaction := some txn }
                  else if payment.matchesOrder txn = false then
                    let moved ← recordFailed id "payment_amount_mismatch" now
                    return .ok { outcome := "amount_mismatch", transaction := moved.or (some txn) }
                  else if payment.status = "authorized" ∧ payment.captured = false then
                    let moved ← recordAuthorized id (some paymentId) now
                    return .ok { outcome := "authorized", transaction := moved.or (some txn) }
                  else if payment.status ≠ "captured" then
                    return .ok { outcome := "not_captured", transaction := some txn }
                  else captureAndApply cfg id paymentId now faults

/-! ## Webhook events -/

/-- The events that `handle` knows. -/
inductive WebhookEvent where
  | paymentCaptured
  | orderPaid
  | paymentAuthorized
  | paymentFailed
  | refundCreated
  | refundProcessed
  | other
  deriving DecidableEq, Repr

/-- The outcome of an event that came too late to move the row. -/
def notMoved (txn : PaymentTransaction) : CaptureOutcome :=
  { outcome := s!"transaction_{txn.status.text}", transaction := some txn }

/-- `handle` of an event about transaction `id`, the one that the order id of the event (or
else its payment id) finds. -/
def handle (cfg : PaymentsConfig) (provider : Provider) (id : TransactionId)
    (event : WebhookEvent) (paymentId : Option String) (now : Int) (faults : CaptureFaults) :
    BillingProg (Except ApiError CaptureOutcome) := do
  match ← findTransaction id with
  | none => return .ok { outcome := "unknown_order", transaction := none }
  | some txn =>
      match event with
      | .paymentCaptured | .orderPaid =>
          confirmAndApplyCapture cfg provider id (some txn) paymentId now faults
      | .paymentAuthorized =>
          match ← recordAuthorized id (paymentId.filter (· ≠ "")) now with
          | some moved => return .ok { outcome := "authorized", transaction := some moved }
          | none => return .ok (notMoved txn)
      | .paymentFailed =>
          match ← recordFailed id "payment_failed" now with
          | none => return .ok (notMoved txn)
          | some moved =>
              -- `applyFailure` only reads the subscription and appends history
              let _ ← findSubscription
              return .ok { outcome := "failed", transaction := some moved }
      | .refundCreated | .refundProcessed =>
          if txn.status = .refunded then
            return .ok { outcome := "already_refunded", transaction := some txn }
          else
            match ← recordRefunded id now with
            | none => return .ok (notMoved txn)
            | some moved =>
                -- so does `applyRefund`
                let _ ← findSubscription
                return .ok { outcome := "refunded", transaction := some moved }
      | .other => return .ok { outcome := "unsupported", transaction := some txn }

/-! ## Reconciliation -/

def maxAttempts : Nat := 10

/-- `backoffMs`. -/
def backoffMs (cfg : PaymentsConfig) (attempts : Nat) : Nat :=
  min cfg.reconcileBackoffMaxMs (cfg.reconcileBackoffBaseMs * 2 ^ attempts)

/-- `scheduleNextCheck`. -/
def scheduleNextCheck (id : TransactionId) (nextReconcileAt : Option Int)
    (incrementAttempts : Bool) : BillingProg (Option PaymentTransaction) :=
  updateTransaction id (fun _ => true) (fun row => { row with
    nextReconcileAt := nextReconcileAt
    reconcileAttempts := if incrementAttempts then row.reconcileAttempts + 1 else row.reconcileAttempts })

/-- `tooOld` of `expireIfStale`. -/
def tooOld (cfg : PaymentsConfig) (txn : PaymentTransaction) (now : Int) : Bool :=
  cfg.pendingExpireHours * 3600 * 1000 ≤ now - txn.createdAt

/-- `expireIfStale`. -/
def expireIfStale (cfg : PaymentsConfig) (id : TransactionId) (txn : PaymentTransaction)
    (now : Int) : BillingProg Bool := do
  if txn.status ≠ .pending ∨ (tooOld cfg txn now = false ∧ txn.reconcileAttempts + 1 < maxAttempts)
  then return false
  else
    let moved ← recordExpired id
      (if tooOld cfg txn now then "checkout_abandoned" else "reconcile_attempts_exhausted") now
    return moved.isSome

/-- The counter that a checked transaction goes to. -/
inductive ReconcileOutcome where
  | captured
  | failed
  | stale
  | skipped
  | expired
  deriving DecidableEq, Repr

/-- `next` of `reconcileOne`. -/
def nextCheck (cfg : PaymentsConfig) (id : TransactionId) (txn : PaymentTransaction) (now : Int) :
    BillingProg (Option PaymentTransaction) :=
  scheduleNextCheck id (some (now + backoffMs cfg (txn.reconcileAttempts + 1))) true

/-- An order on which no money moved: expire it or look again later. -/
def reconcileUnpaid (cfg : PaymentsConfig) (id : TransactionId) (txn : PaymentTransaction)
    (now : Int) (otherwise : ReconcileOutcome) :
    BillingProg (Except ApiError ReconcileOutcome) := do
  if ← expireIfStale cfg id txn now then return .ok .expired
  else
    let _ ← nextCheck cfg id txn now
    return .ok otherwise

def paymentToConfirm (provider : Provider) (txn : PaymentTransaction) :
    Except ApiError (Option String) := do
  let payments ← provider.fetchOrderPayments txn.providerOrderId
  match payments.find? (fun payment => payment.status = "captured") with
  | some captured => return some captured.id
  | none => return txn.providerPaymentId

/-- `reconcileOne` of the transaction `id`, read as `txn` before. -/
def reconcileOne (cfg : PaymentsConfig) (provider : Provider) (id : TransactionId)
    (txn : PaymentTransaction) (now : Int) (faults : CaptureFaults) :
    BillingProg (Except ApiError ReconcileOutcome) := do
  match provider.fetchOrder txn.providerOrderId with
  | .error e => reconcileUnpaid cfg id txn now (if e.statusCode = 404 then .stale else .skipped)
  | .ok order =>
      let paid := order.amountPaid.getD 0
      let due := order.amountDue.getD (order.amount.getD 0)
      if ¬ (order.status = "paid" ∨ (0 < paid ∧ due = 0)) then
        reconcileUnpaid cfg id txn now .skipped
      else if order.amount.getD 0 ≠ txn.amountMinor then
        let _ ← nextCheck cfg id txn now
        return .ok .skipped
      else
        match paymentToConfirm provider txn with
        | .error e => return .error e
        | .ok paymentId =>
            match paymentId.filter (· ≠ "") with
            | none =>
                let _ ← nextCheck cfg id txn now
                return .ok .skipped
            | some paymentId =>
                match ← confirmAndApplyCapture cfg provider id (some txn) (some paymentId) now
                  faults with
                | .error e => return .error e
                | .ok result =>
                    if result.outcome = "captured" ∨ result.outcome = "already_captured" then
                      let _ ← scheduleNextCheck id none false
                      return .ok .captured
                    else if result.outcome = "amount_mismatch" ∨ result.outcome = "order_mismatch"
                    then return .ok .failed
                    else
                      let _ ← nextCheck cfg id txn now
                      return .ok .skipped

/-- The body of the first loop of `reconcilePending`, on a row that `listOpenDue` found. -/
def reconcileOpen (cfg : PaymentsConfig) (provider : Provider) (id : TransactionId) (now : Int)
    (faults : CaptureFaults) : BillingProg Unit := do
  match ← findTransaction id with
  | none => return ()
  | some txn =>
      if txn.status ∈ openStatuses ∧ (∀ due ∈ txn.nextReconcileAt, due ≤ now) then
        match ← reconcileOne cfg provider id txn now faults with
        | .ok _ => return ()
        | .error _ =>
            let _ ← scheduleNextCheck id (some (now + backoffMs cfg txn.reconcileAttempts)) true
            return ()
      else return ()

/-! ## The workspace -/

/-- One round of `reconcileOpenForSwitch`: how many checkouts were cancelled. -/
def reconcileForSwitch (cfg : PaymentsConfig) (provider : Provider) (targetPlanCode : PlanCode)
    (id : TransactionId) (txn : PaymentTransaction) (now : Int) (faults : CaptureFaults) :
    BillingProg (Except ApiError Nat) := do
  if txn.planId = targetPlanCode then return .ok 0
  else
    match providerCaptureForOrder provider txn with
    | .error e => return .error e
    | .ok (some captured) =>
        match ← confirmAndApplyCapture cfg provider id (some txn) (some captured.id) now faults with
        | .error e => return .error e
        | .ok _ =>
            return .error (.conflict
              "A previous payment completed. Refresh billing before choosing another plan.")
    | .ok none =>
        if txn.status ≠ .pending then
          return .error (.conflict ("An existing payment is still being processed. " ++
            "Check its status before choosing another plan."))
        else
          let moved ← recordCancelled id "superseded_by_new_checkout" now
          return .ok (if moved.isSome then 1 else 0)

/-- The loop of `reconcileOpenForSwitch`. -/
def reconcileEach (cfg : PaymentsConfig) (provider : Provider) (targetPlanCode : PlanCode)
    (now : Int) (faults : CaptureFaults) :
    List (TransactionId × PaymentTransaction) → Nat → BillingProg (Except ApiError Nat)
  | [], cancelled => return .ok cancelled
  | (id, txn) :: rest, cancelled => do
      match ← reconcileForSwitch cfg provider targetPlanCode id txn now faults with
      | .error e => return .error e
      | .ok moved => reconcileEach cfg provider targetPlanCode now faults rest (cancelled + moved)

/-- `reconcileOpenForSwitch`. `ids` are the workspace's transactions, newest first. -/
def reconcileOpenForSwitch (cfg : PaymentsConfig) (provider : Provider)
    (targetPlanCode : PlanCode) (ids : List TransactionId) (now : Int) (faults : CaptureFaults) :
    BillingProg (Except ApiError Nat) := do
  -- `listOpenForTenant`
  let listed ← Prog.read .read (fun db => ids.filterMap (fun id =>
    ((db.transactions id).filter (fun row => row.status ∈ openStatuses)).map (fun row => (id, row))))
  reconcileEach cfg provider targetPlanCode now faults listed 0

/-- `cancelCheckout` of the transaction that the order id finds. -/
def cancelCheckout (cfg : PaymentsConfig) (provider : Provider) (id : TransactionId) (now : Int)
    (faults : CaptureFaults) : BillingProg (Except ApiError PaymentTransaction) := do
  match ← findTransaction id with
  | none => return .error (.notFound "No matching checkout for this workspace")
  | some txn =>
      if txn.status = .cancelled then return .ok txn
      else if txn.status ≠ .pending then
        return .error (.conflict
          "This checkout is already being processed and cannot be abandoned safely.")
      else
        match providerCaptureForOrder provider txn with
        | .error e => return .error e
        | .ok (some captured) =>
            match ← confirmAndApplyCapture cfg provider id (some txn) (some captured.id) now faults
              with
            | .error e => return .error e
            | .ok _ =>
                return .error (.conflict ("This payment completed while it was being checked. " ++
                  "Refresh billing to see the result."))
        | .ok none =>
            match ← recordCancelled id "abandoned_by_workspace" now with
            | none =>
                return .error (.conflict
                  "Checkout changed while it was being abandoned; refresh billing.")
            | some moved => return .ok moved

/-- `phase` of `getCheckoutStatus`. -/
def checkoutPhase (txn : PaymentTransaction) : String :=
  match txn.status with
  | .captured => if txn.appliedAt.isSome then "confirmed" else "applying"
  | .failed => "failed"
  | .expired => "expired"
  | .cancelled => "cancelled"
  | .refunded => "refunded"
  | _ => "pending_confirmation"

/-- `verifyCheckout`: the browser's callback stamps the row and reports its phase. -/
def verifyCheckout (id : TransactionId) (signatureOk : Bool) (now : Int) :
    BillingProg (Except ApiError String) := do
  match ← findTransaction id with
  | none => return .error (.notFound "No matching checkout for this workspace")
  | some txn =>
      if signatureOk = false then
        return .error (.badRequest "Payment signature verification failed")
      else
        let stamped ← transitionStatus id txn.status [txn.status] (fun row => { row with
          clientVerifiedAt := some now
          nextReconcileAt := if txn.status ∈ openStatuses then some now else row.nextReconcileAt })
        let _ ← findSubscription
        return .ok (checkoutPhase (stamped.getD txn))

end AnalyticsBackend.Billing
