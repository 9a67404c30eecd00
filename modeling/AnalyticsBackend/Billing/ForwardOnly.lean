import AnalyticsBackend.Billing.Payments

/-!
# Payment transactions move forward only

Any number of webhook events, reconcile checks, expiries, cancellations and checkout
callbacks, with every atomic step interleaved. Every step keeps to `Forward`; a safe capture
of a payment that the provider reports as captured leaves the row captured or refunded,
unless it has been cancelled.
-/

namespace AnalyticsBackend.Billing
open Lib System

/-! ## The calls -/

/-- A call of one of the writers of payment transactions. -/
inductive PaymentCall where
  | webhook (provider : Provider) (id : TransactionId) (event : WebhookEvent)
      (paymentId : Option String) (now : Int) (faults : CaptureFaults)
  | confirm (provider : Provider) (id : TransactionId) (paymentId : Option String) (now : Int)
      (faults : CaptureFaults)
  | reconcile (provider : Provider) (id : TransactionId) (now : Int) (faults : CaptureFaults)
  | reapply (id : TransactionId) (now : Int) (faults : CaptureFaults)
  | planSwitch (provider : Provider) (targetPlanCode : PlanCode) (ids : List TransactionId)
      (now : Int) (faults : CaptureFaults)
  | cancel (provider : Provider) (id : TransactionId) (now : Int) (faults : CaptureFaults)
  | verify (id : TransactionId) (signatureOk : Bool) (now : Int)

def readAndConfirm (cfg : PaymentsConfig) (provider : Provider) (id : TransactionId)
    (paymentId : Option String) (now : Int) (faults : CaptureFaults) :
    BillingProg (Except ApiError CaptureOutcome) := do
  let transaction ← findTransaction id
  confirmAndApplyCapture cfg provider id transaction paymentId now faults

def PaymentCall.program (cfg : PaymentsConfig) : PaymentCall → BillingProg Unit
  | .webhook provider id event paymentId now faults =>
      ignored (handle cfg provider id event paymentId now faults)
  | .confirm provider id paymentId now faults =>
      ignored (readAndConfirm cfg provider id paymentId now faults)
  | .reconcile provider id now faults => reconcileOpen cfg provider id now faults
  | .reapply id now faults => ignored (applyCapture cfg.toBillingConfig id now faults)
  | .planSwitch provider targetPlanCode ids now faults =>
      ignored (reconcileOpenForSwitch cfg provider targetPlanCode ids now faults)
  | .cancel provider id now faults => ignored (cancelCheckout cfg provider id now faults)
  | .verify id signatureOk now => ignored (verifyCheckout id signatureOk now)

/-- Process `i` runs `calls i`. From outside, new transactions are created and the other
documents change at will. -/
def paymentSystem (cfg : PaymentsConfig) (calls : Nat → PaymentCall) :
    System Nat BillingLabel BillingDb Unit where
  start := fun i p => p = (calls i).program cfg
  env := fun db db' =>
    ∀ id row, db.transactions id = some row → db'.transactions id = some row
  ok := fun _ _ _ => True

/-! ## Every step goes forward -/

/-- A transition along the lifecycle whose patch leaves the order and the mark alone. -/
theorem each_transitionStatus {target : TransactionStatus} {fromStatuses : List TransactionStatus}
    {patch : PaymentTransaction → PaymentTransaction} (id : TransactionId)
    (moves : ∀ status ∈ fromStatuses, target = status ∨ target ∈ status.next)
    (same : ∀ row, (patch row).appliedAt = row.appliedAt ∧
      (patch row).providerOrderId = row.providerOrderId ∧
      (patch row).amountMinor = row.amountMinor ∧ (patch row).currency = row.currency) :
    (transitionStatus id target fromStatuses patch).Each PaymentStep := by
  refine Prog.Each.update (paymentStep_updateTransaction _ _ _ ?_)
  intro row expected
  obtain ⟨mark, order, amount, currency⟩ := same row
  have listed : row.status ∈ fromStatuses := by simpa using expected
  refine ⟨moves _ listed, ?_, order, amount, currency⟩
  intro marked
  show (patch row).appliedAt ≠ none
  rwa [mark]

theorem each_recordFailed (id : TransactionId) (reason : String) (now : Int) :
    (recordFailed id reason now).Each PaymentStep :=
  each_transitionStatus id (by decide) (fun _ => ⟨rfl, rfl, rfl, rfl⟩)

theorem each_recordRefunded (id : TransactionId) (now : Int) :
    (recordRefunded id now).Each PaymentStep :=
  each_transitionStatus id (by decide) (fun _ => ⟨rfl, rfl, rfl, rfl⟩)

theorem each_recordExpired (id : TransactionId) (reason : String) (now : Int) :
    (recordExpired id reason now).Each PaymentStep :=
  each_transitionStatus id (by decide) (fun _ => ⟨rfl, rfl, rfl, rfl⟩)

theorem each_recordAuthorized (id : TransactionId) (paymentId : Option String) (now : Int) :
    (recordAuthorized id paymentId now).Each PaymentStep :=
  each_transitionStatus id (by decide) (fun _ => ⟨rfl, rfl, rfl, rfl⟩)

theorem each_recordCaptured (id : TransactionId) (paymentId : String) (now : Int) :
    (recordCaptured id paymentId now).Each PaymentStep :=
  each_transitionStatus id (by decide) (fun _ => ⟨rfl, rfl, rfl, rfl⟩)

theorem each_recordCancelled (id : TransactionId) (reason : String) (now : Int) :
    (recordCancelled id reason now).Each PaymentStep :=
  each_transitionStatus id (by decide) (fun _ => ⟨rfl, rfl, rfl, rfl⟩)

theorem each_scheduleNextCheck (id : TransactionId) (nextReconcileAt : Option Int)
    (incrementAttempts : Bool) :
    (scheduleNextCheck id nextReconcileAt incrementAttempts).Each PaymentStep :=
  Prog.Each.update (paymentStep_updateTransaction _ _ _
    (fun _ _ => ⟨.inl rfl, fun marked => marked, rfl, rfl, rfl⟩))

theorem each_afterFlip (cfg : PaymentsConfig) (id : TransactionId) (now : Int)
    (faults : CaptureFaults) (outcome : String) (row : PaymentTransaction) :
    (if row.status ≠ .captured then
        pure (.ok { outcome := s!"transaction_{row.status.text}", transaction := some row })
      else do
        match ← applyCapture cfg.toBillingConfig id now faults with
        | .error e => return .error e
        | .ok _ =>
            let stored ← findTransaction id
            return .ok { outcome := outcome, transaction := stored } :
      BillingProg (Except ApiError CaptureOutcome)).Each PaymentStep := by
  split
  · exact trivial
  · refine (each_applyCapture _ id now faults).bind ?_
    intro applied
    cases applied with
    | error e => exact trivial
    | ok _ => exact (each_findTransaction id).bind fun _ => trivial

theorem each_captureAndApply (cfg : PaymentsConfig) (id : TransactionId) (paymentId : String)
    (now : Int) (faults : CaptureFaults) :
    (captureAndApply cfg id paymentId now faults).Each PaymentStep := by
  refine (each_recordCaptured id paymentId now).bind ?_
  intro moved
  cases moved with
  | some row => exact each_afterFlip cfg id now faults _ row
  | none =>
      refine (each_findTransaction id).bind ?_
      intro row
      cases row with
      | none => exact trivial
      | some row => exact each_afterFlip cfg id now faults _ row

theorem each_confirmAndApplyCapture (cfg : PaymentsConfig) (provider : Provider)
    (id : TransactionId) (transaction : Option PaymentTransaction) (paymentId : Option String)
    (now : Int) (faults : CaptureFaults) :
    (confirmAndApplyCapture cfg provider id transaction paymentId now faults).Each
      PaymentStep := by
  unfold confirmAndApplyCapture
  split
  · exact trivial
  · split
    · exact trivial
    · exact trivial
    · refine (each_applyCapture _ id now faults).bind ?_
      intro applied
      cases applied with
      | error e => exact trivial
      | ok _ => exact (each_findTransaction id).bind fun _ => trivial
    · split
      · exact trivial
      · split
        · exact trivial
        · split
          · exact trivial
          · split
            · exact (each_recordFailed id _ now).bind fun _ => trivial
            · split
              · exact (each_recordAuthorized id _ now).bind fun _ => trivial
              · split
                · exact trivial
                · exact each_captureAndApply cfg id _ now faults

theorem each_handle (cfg : PaymentsConfig) (provider : Provider) (id : TransactionId)
    (event : WebhookEvent) (paymentId : Option String) (now : Int) (faults : CaptureFaults) :
    (handle cfg provider id event paymentId now faults).Each PaymentStep := by
  refine (each_findTransaction id).bind ?_
  intro transaction
  cases transaction with
  | none => exact trivial
  | some txn =>
      cases event with
      | paymentCaptured => exact each_confirmAndApplyCapture cfg provider id _ paymentId now faults
      | orderPaid => exact each_confirmAndApplyCapture cfg provider id _ paymentId now faults
      | paymentAuthorized =>
          refine (each_recordAuthorized id _ now).bind ?_
          intro moved
          cases moved <;> exact trivial
      | paymentFailed =>
          refine (each_recordFailed id _ now).bind ?_
          intro moved
          cases moved with
          | none => exact trivial
          | some moved => exact each_findSubscription.bind fun _ => trivial
      | refundCreated | refundProcessed =>
          dsimp only
          split
          · exact trivial
          · refine (each_recordRefunded id now).bind ?_
            intro moved
            cases moved with
            | none => exact trivial
            | some moved => exact each_findSubscription.bind fun _ => trivial
      | other => exact trivial

theorem each_reconcileUnpaid (cfg : PaymentsConfig) (id : TransactionId)
    (txn : PaymentTransaction) (now : Int) (otherwise : ReconcileOutcome) :
    (reconcileUnpaid cfg id txn now otherwise).Each PaymentStep := by
  have expire : (expireIfStale cfg id txn now).Each PaymentStep := by
    unfold expireIfStale
    split
    · exact trivial
    · exact (each_recordExpired id _ now).bind fun _ => trivial
  refine expire.bind ?_
  intro expired
  cases expired with
  | true => exact trivial
  | false => exact (each_scheduleNextCheck id _ true).bind fun _ => trivial

theorem each_reconcileOne (cfg : PaymentsConfig) (provider : Provider) (id : TransactionId)
    (txn : PaymentTransaction) (now : Int) (faults : CaptureFaults) :
    (reconcileOne cfg provider id txn now faults).Each PaymentStep := by
  have skip : (do
      let _ ← nextCheck cfg id txn now
      return .ok .skipped : BillingProg (Except ApiError ReconcileOutcome)).Each PaymentStep :=
    (each_scheduleNextCheck id _ true).bind fun _ => trivial
  unfold reconcileOne
  split
  · exact each_reconcileUnpaid cfg id txn now _
  · dsimp only
    split
    · exact each_reconcileUnpaid cfg id txn now _
    · split
      · exact skip
      · split
        · exact trivial
        · split
          · exact skip
          · refine (each_confirmAndApplyCapture cfg provider id _ _ now faults).bind ?_
            intro result
            cases result with
            | error e => exact trivial
            | ok result =>
                dsimp only
                split
                · exact (each_scheduleNextCheck id none false).bind fun _ => trivial
                · split
                  · exact trivial
                  · exact skip

theorem each_reconcileOpen (cfg : PaymentsConfig) (provider : Provider) (id : TransactionId)
    (now : Int) (faults : CaptureFaults) :
    (reconcileOpen cfg provider id now faults).Each PaymentStep := by
  refine (each_findTransaction id).bind ?_
  intro transaction
  cases transaction with
  | none => exact trivial
  | some txn =>
      dsimp only
      split
      · refine (each_reconcileOne cfg provider id txn now faults).bind ?_
        intro outcome
        cases outcome with
        | ok _ => exact trivial
        | error e => exact (each_scheduleNextCheck id _ true).bind fun _ => trivial
      · exact trivial

theorem each_reconcileForSwitch (cfg : PaymentsConfig) (provider : Provider)
    (targetPlanCode : PlanCode) (id : TransactionId) (txn : PaymentTransaction) (now : Int)
    (faults : CaptureFaults) :
    (reconcileForSwitch cfg provider targetPlanCode id txn now faults).Each PaymentStep := by
  unfold reconcileForSwitch
  split
  · exact trivial
  · split
    · exact trivial
    · refine (each_confirmAndApplyCapture cfg provider id _ _ now faults).bind ?_
      intro result
      cases result <;> exact trivial
    · split
      · exact trivial
      · exact (each_recordCancelled id _ now).bind fun _ => trivial

/-- By induction on the open transactions that were listed. -/
theorem each_reconcileEach (cfg : PaymentsConfig) (provider : Provider)
    (targetPlanCode : PlanCode) (now : Int) (faults : CaptureFaults)
    (listed : List (TransactionId × PaymentTransaction)) (cancelled : Nat) :
    (reconcileEach cfg provider targetPlanCode now faults listed cancelled).Each PaymentStep := by
  induction listed generalizing cancelled with
  | nil => exact trivial
  | cons first rest ih =>
      obtain ⟨id, txn⟩ := first
      refine (each_reconcileForSwitch cfg provider targetPlanCode id txn now faults).bind ?_
      intro moved
      cases moved with
      | error e => exact trivial
      | ok moved => exact ih (cancelled + moved)

theorem each_cancelCheckout (cfg : PaymentsConfig) (provider : Provider) (id : TransactionId)
    (now : Int) (faults : CaptureFaults) :
    (cancelCheckout cfg provider id now faults).Each PaymentStep := by
  refine (each_findTransaction id).bind ?_
  intro transaction
  cases transaction with
  | none => exact trivial
  | some txn =>
      dsimp only
      split
      · exact trivial
      · split
        · exact trivial
        · split
          · exact trivial
          · refine (each_confirmAndApplyCapture cfg provider id _ _ now faults).bind ?_
            intro result
            cases result <;> exact trivial
          · refine (each_recordCancelled id _ now).bind ?_
            intro moved
            cases moved <;> exact trivial

theorem each_verifyCheckout (id : TransactionId) (signatureOk : Bool) (now : Int) :
    (verifyCheckout id signatureOk now).Each PaymentStep := by
  refine (each_findTransaction id).bind ?_
  intro transaction
  cases transaction with
  | none => exact trivial
  | some txn =>
      dsimp only
      split
      · exact trivial
      · have stamp : (transitionStatus id txn.status [txn.status] (fun row => { row with
            clientVerifiedAt := some now
            nextReconcileAt :=
              if txn.status ∈ openStatuses then some now else row.nextReconcileAt })).Each
            PaymentStep :=
          each_transitionStatus id (fun status listed => .inl (List.mem_singleton.mp listed).symm)
            (fun _ => ⟨rfl, rfl, rfl, rfl⟩)
        exact stamp.bind fun _ => each_findSubscription.bind fun _ => trivial

theorem each_paymentCall (cfg : PaymentsConfig) (call : PaymentCall) :
    (call.program cfg).Each PaymentStep := by
  cases call with
  | webhook provider id event paymentId now faults =>
      exact (each_handle cfg provider id event paymentId now faults).bind fun _ => trivial
  | confirm provider id paymentId now faults =>
      refine Prog.Each.bind ((each_findTransaction id).bind ?_) (fun _ => trivial)
      exact fun _ => each_confirmAndApplyCapture cfg provider id _ paymentId now faults
  | reconcile provider id now faults => exact each_reconcileOpen cfg provider id now faults
  | reapply id now faults => exact (each_applyCapture _ id now faults).bind fun _ => trivial
  | planSwitch provider targetPlanCode ids now faults =>
      refine Prog.Each.bind ?_ (fun _ => trivial)
      exact (Prog.Each.read paymentStep_read).bind fun _ => each_reconcileEach _ _ _ _ _ _ _
  | cancel provider id now faults =>
      exact (each_cancelCheckout cfg provider id now faults).bind fun _ => trivial
  | verify id signatureOk now =>
      exact (each_verifyCheckout id signatureOk now).bind fun _ => trivial

/-! ## Stored rows over a run -/

/-- A stored row moved forward any number of times. -/
abbrev Later (row row' : PaymentTransaction) : Prop := Relation.ReflTransGen Forward row row'

/-- The statuses that a verified capture can end in. -/
def settledStatuses : List TransactionStatus := [.captured, .refunded, .cancelled]

theorem capturable_or_settled (status : TransactionStatus) :
    status ∈ capturableStatuses ∨ status ∈ settledStatuses := by
  cases status <;> decide

theorem Forward.settled {row row' : PaymentTransaction} (forward : Forward row row')
    (settled : row.status ∈ settledStatuses) : row'.status ∈ settledStatuses := by
  have closed : ∀ status ∈ settledStatuses, ∀ next ∈ status.next, next ∈ settledStatuses := by
    decide
  rcases forward.status with same | next
  · rwa [same]
  · exact closed _ settled _ next

theorem Later.settled {row row' : PaymentTransaction} (later : Later row row')
    (settled : row.status ∈ settledStatuses) : row'.status ∈ settledStatuses := by
  induction later with
  | refl => exact settled
  | tail _ forward ih => exact forward.settled ih

theorem Later.order {row row' : PaymentTransaction} (later : Later row row') :
    row'.providerOrderId = row.providerOrderId ∧ row'.amountMinor = row.amountMinor ∧
      row'.currency = row.currency := by
  induction later with
  | refl => exact ⟨rfl, rfl, rfl⟩
  | tail _ forward ih =>
      obtain ⟨order, amount, currency⟩ := ih
      exact ⟨forward.order.trans order, forward.amount.trans amount,
        forward.currency.trans currency⟩

/-- The provider reports the payment as captured, for the order, amount and currency of the
row. -/
def Verified (provider : Provider) (paymentId : Option String) (row : PaymentTransaction) : Prop :=
  ∃ id payment, paymentId = some id ∧ id ≠ "" ∧ provider.fetchPayment id = .ok payment ∧
    payment.orderId = some row.providerOrderId ∧ payment.matchesOrder row = true ∧
    payment.status = "captured"

theorem Verified.later {provider : Provider} {paymentId : Option String}
    {row row' : PaymentTransaction} (verified : Verified provider paymentId row)
    (later : Later row row') : Verified provider paymentId row' := by
  obtain ⟨id, payment, named, nonempty, fetched, order, amounts, captured⟩ := verified
  obtain ⟨order', amount', currency'⟩ := later.order
  refine ⟨id, payment, named, nonempty, fetched, ?_, ?_, captured⟩
  · rw [order', order]
  · rw [ProviderPayment.matchesOrder, amount', currency']
    exact amounts

/-! ## The safe capture -/

section SafeCapture

variable {cfg : PaymentsConfig} {calls : Nat → PaymentCall} {db : BillingDb} {i : Nat}
  {provider : Provider} {id : TransactionId} {paymentId : Option String} {now : Int}
  {faults : CaptureFaults}

/-- The rows the run began with are stored, and have moved forward. -/
def RowsForward (db : BillingDb) (w : World Nat BillingLabel BillingDb) : Prop :=
  ∀ id row, db.transactions id = some row →
    ∃ row', w.store.transactions id = some row' ∧ Later row row'

/-- Every stored row is still stored, and has moved forward. -/
def RowsStep (s s' : BillingDb) : Prop :=
  ∀ id row, s.transactions id = some row →
    ∃ row', s'.transactions id = some row' ∧ Forward row row'

def EventForward (e : Event Nat BillingLabel BillingDb) : Prop := RowsStep e.before e.after

/-- `Safe` in the payment system. -/
abbrev PaymentSafe {A : Type} (cfg : PaymentsConfig) (calls : Nat → PaymentCall) (db : BillingDb)
    (i : Nat) (Q : A → World Nat BillingLabel BillingDb → Prop) (p : BillingProg A)
    (P : World Nat BillingLabel BillingDb → Prop) : Prop :=
  Safe (paymentSystem cfg calls).env (paymentSystem cfg calls).ok (RowsForward db) EventForward i
    Q p P

theorem rowsForward_push {w : World Nat BillingLabel BillingDb} {label : BillingLabel}
    {act : BillingDb → BillingDb} (held : RowsForward db w) (step : PaymentStep label act) :
    RowsForward db (w.push ⟨i, label, w.store, act w.store⟩) := by
  intro id row initial
  obtain ⟨row', stored, later⟩ := held id row initial
  obtain ⟨row'', stored', forward⟩ := step.forward w.store id row' stored
  exact ⟨row'', stored', later.tail forward⟩

theorem persistent_row {Q : PaymentTransaction → Prop}
    (closed : ∀ row row', Q row → Forward row row' → Q row') :
    Persistent (paymentSystem cfg calls).env (RowsForward db) EventForward
      (fun w => ∃ row, w.store.transactions id = some row ∧ Q row) := by
  constructor
  · rintro w e _ ⟨row, stored, hQ⟩ before forward _
    obtain ⟨row', stored', moved⟩ := forward id row (before ▸ stored)
    exact ⟨row', stored', closed row row' hQ moved⟩
  · rintro w s' _ ⟨row, stored, hQ⟩ may
    exact ⟨row, may id row stored, hQ⟩

theorem paymentSafe_of_each {A : Type} {p : BillingProg A}
    {P : World Nat BillingLabel BillingDb → Prop}
    (persistent : Persistent (paymentSystem cfg calls).env (RowsForward db) EventForward P)
    (each : p.Each PaymentStep) : PaymentSafe cfg calls db i (fun _ w => P w) p P := by
  refine Safe.of_each persistent (each.mono ?_)
  intro label act step w held _
  exact ⟨rowsForward_push held step, step.forward w.store⟩

/-- The row is captured, refunded or cancelled. -/
def Settled (id : TransactionId) (w : World Nat BillingLabel BillingDb) : Prop :=
  ∃ row, w.store.transactions id = some row ∧ row.status ∈ settledStatuses

theorem persistent_settled : Persistent (paymentSystem cfg calls).env (RowsForward db) EventForward
    (Settled id) :=
  persistent_row fun _ _ settled forward => forward.settled settled

/-- What `confirmAndApplyCapture` knows of the row it was called with: it has moved forward
since. -/
def ReadAs (provider : Provider) (id : TransactionId) (paymentId : Option String)
    (transaction : Option PaymentTransaction) (w : World Nat BillingLabel BillingDb) : Prop :=
  ∃ row, w.store.transactions id = some row ∧
    ∃ txn, transaction = some txn ∧ Verified provider paymentId txn ∧ Later txn row

theorem persistent_readAs (transaction : Option PaymentTransaction) :
    Persistent (paymentSystem cfg calls).env (RowsForward db) EventForward
      (ReadAs provider id paymentId transaction) := by
  refine persistent_row ?_
  rintro row row' ⟨txn, read, verified, later⟩ forward
  exact ⟨txn, read, verified, later.tail forward⟩

theorem settled_recordCaptured {w : World Nat BillingLabel BillingDb} {row : PaymentTransaction}
    {patch : PaymentTransaction → PaymentTransaction} {label : BillingLabel}
    (stored : w.store.transactions id = some row) :
    Settled id (w.push ⟨i, label, w.store,
      w.store.updateTransaction id (fun row => row.status ∈ capturableStatuses)
        (fun row => { patch row with status := .captured })⟩) := by
  by_cases capturable : row.status ∈ capturableStatuses
  · exact ⟨{ patch row with status := .captured },
      by simp [BillingDb.updateTransaction, stored, capturable], by simp [settledStatuses]⟩
  · have settled := (capturable_or_settled row.status).resolve_left capturable
    exact ⟨row, by simp [BillingDb.updateTransaction, stored, capturable], settled⟩

theorem safe_captureAndApply (transaction : Option PaymentTransaction) (payment : String) :
    PaymentSafe cfg calls db i (fun _ w => Settled id w)
      (captureAndApply cfg id payment now faults)
      (ReadAs provider id paymentId transaction) := by
  have each := each_captureAndApply cfg id payment now faults
  rintro w held ⟨row, stored, _⟩ _
  exact ⟨rowsForward_push held each.1, each.1.forward w.store, Settled id,
    persistent_settled.stable i, settled_recordCaptured stored,
    paymentSafe_of_each persistent_settled (each.2 w.store)⟩

/-- A verified payment of a row that is neither settled nor gone reaches the capture flip. -/
theorem confirmAndApplyCapture_verified {txn : PaymentTransaction}
    (verified : Verified provider paymentId txn) (unsettled : txn.status ∉ settledStatuses) :
    ∃ payment, confirmAndApplyCapture cfg provider id (some txn) paymentId now faults =
      captureAndApply cfg id payment now faults := by
  obtain ⟨payId, payment, rfl, nonempty, fetched, order, amounts, captured⟩ := verified
  refine ⟨payId, ?_⟩
  unfold confirmAndApplyCapture
  cases status : txn.status with
  | cancelled => simp [status, settledStatuses] at unsettled
  | refunded => simp [status, settledStatuses] at unsettled
  | captured => simp [status, settledStatuses] at unsettled
  | _ => simp [Option.filter, nonempty, fetched, order, amounts, captured, status]

/-- A verified capture settles the row, whatever was read of it before. -/
theorem safe_confirmAndApplyCapture (transaction : Option PaymentTransaction) :
    PaymentSafe cfg calls db i (fun _ w => Settled id w)
      (confirmAndApplyCapture cfg provider id transaction paymentId now faults)
      (ReadAs provider id paymentId transaction) := by
  have read : ∀ w, RowsForward db w → ReadAs provider id paymentId transaction w →
      ∃ txn, transaction = some txn ∧ Verified provider paymentId txn := by
    rintro w _ ⟨row, _, txn, read, verified, _⟩
    exact ⟨txn, read, verified⟩
  refine Safe.of_fact read ?_
  rintro ⟨txn, rfl, verified⟩
  by_cases unsettled : txn.status ∈ settledStatuses
  · -- it was settled when it was read, so it still is
    refine (paymentSafe_of_each persistent_settled
      (each_confirmAndApplyCapture cfg provider id (some txn) paymentId now faults)).weaken ?_
    rintro w _ ⟨row, stored, txn', same, _, later⟩
    cases same
    exact ⟨row, stored, later.settled unsettled⟩
  · have flip : ∃ payment, confirmAndApplyCapture cfg provider id (some txn) paymentId now faults =
        captureAndApply cfg id payment now faults :=
      confirmAndApplyCapture_verified verified unsettled
    obtain ⟨payment, program⟩ := flip
    rw [program]
    exact safe_captureAndApply _ _

theorem safe_readAndConfirm {row : PaymentTransaction} (initial : db.transactions id = some row)
    (verified : Verified provider paymentId row) :
    PaymentSafe cfg calls db i (fun _ w => Settled id w)
      (readAndConfirm cfg provider id paymentId now faults) (fun _ => True) := by
  have find : PaymentSafe cfg calls db i (ReadAs provider id paymentId) (findTransaction id)
      (fun _ => True) := by
    refine Safe.update (fun transaction => (persistent_readAs transaction).stable i) ?_
    intro w held _ _
    obtain ⟨row', stored, later⟩ := held id row initial
    exact ⟨held, fun _ row stored => ⟨row, stored, .refl row⟩, row', stored, row', stored,
      verified.later later, .refl⟩
  exact find.bind fun transaction => safe_confirmAndApplyCapture transaction

end SafeCapture

/-! ## Every run -/

/-- What a process that has returned leaves: a capture of a verified payment has settled
its row. -/
def PaymentReported (db : BillingDb) (call : PaymentCall)
    (w : World Nat BillingLabel BillingDb) : Prop :=
  match call with
  | .confirm provider id paymentId _ _ =>
      ∀ row, db.transactions id = some row → Verified provider paymentId row → Settled id w
  | _ => True

theorem payment_discipline (cfg : PaymentsConfig) (calls : Nat → PaymentCall) (db : BillingDb) :
    Discipline (paymentSystem cfg calls) (RowsForward db) EventForward
      (fun i _ w => PaymentReported db (calls i) w) db := by
  refine ⟨fun id row stored => ⟨row, stored, .refl⟩, ?_, ?_⟩
  · intro w db' held may id row initial
    obtain ⟨row', stored, later⟩ := held id row initial
    exact ⟨row', may id row' stored, later⟩
  · rintro i p rfl
    refine ⟨fun _ => True, ⟨fun _ _ _ _ _ _ _ _ => trivial, fun _ _ _ _ _ => trivial⟩,
      fun _ _ _ => trivial, ?_⟩
    have anyCall : PaymentSafe cfg calls db i (fun _ _ => True) ((calls i).program cfg)
        (fun _ => True) :=
      paymentSafe_of_each ⟨fun _ _ _ _ _ _ _ => trivial, fun _ _ _ _ _ => trivial⟩
        (each_paymentCall cfg (calls i))
    cases call : calls i with
    | confirm provider id paymentId now faults =>
        by_cases verified : ∃ row, db.transactions id = some row ∧ Verified provider paymentId row
        · obtain ⟨row, initial, verified⟩ := verified
          exact (safe_readAndConfirm initial verified).bind fun _ _ _ settled _ _ _ => settled
        · rw [call] at anyCall
          exact anyCall.post fun _ _ _ row initial verified' =>
            absurd ⟨row, initial, verified'⟩ verified
    | _ =>
        rw [call] at anyCall
        exact anyCall.post fun _ _ _ => trivial

/-- In every run: each step moves every stored transaction along its lifecycle or leaves its
status alone, and a safe capture of a payment that the provider reports as captured has left
the row captured or refunded when it returns, unless the row is cancelled. -/
theorem payments_forward_only (cfg : PaymentsConfig) (calls : Nat → PaymentCall) (db : BillingDb)
    (c : Config Nat BillingLabel BillingDb Unit) (reach : Reach (paymentSystem cfg calls) db c) :
    (∀ c', Step (paymentSystem cfg calls) c c' → ∀ id row,
      c.world.store.transactions id = some row → ∃ row',
        c'.world.store.transactions id = some row' ∧
          (row'.status = row.status ∨ row'.status ∈ row.status.next)) ∧
    ∀ i provider id paymentId now faults row,
      calls i = .confirm provider id paymentId now faults → c.pool i = some (.done ()) →
        db.transactions id = some row → Verified provider paymentId row →
          ∃ row', c.world.store.transactions id = some row' ∧
            (row'.status = .captured ∨ row'.status = .refunded ∨ row'.status = .cancelled) := by
  constructor
  · intro c' step
    have env : ∀ s s', (paymentSystem cfg calls).env s s' → RowsStep s s' :=
      fun s s' may id row stored => ⟨row, may id row stored, .refl row⟩
    have start : ∀ i p, (paymentSystem cfg calls).start i p →
        p.Each (fun _ act => ∀ s, RowsStep s (act s)) := by
      rintro i p rfl
      exact (each_paymentCall cfg (calls i)).mono fun _ _ step => step.forward
    have forward := reach.step_relates (fun s id row stored => ⟨row, stored, .refl row⟩) env start
      step
    intro id row stored
    obtain ⟨row', stored', moved⟩ := forward id row stored
    exact ⟨row', stored', moved.status⟩
  · intro i provider id paymentId now faults row call returned initial verified
    have reported := reach.result (payment_discipline cfg calls db) returned
    rw [call] at reported
    obtain ⟨row', stored, settled⟩ := reported row initial verified
    exact ⟨row', stored, by simpa [settledStatuses] using settled⟩

/-! ## A capture and a cancellation -/

/-- An open checkout for one month of `pro`. -/
def pendingMonth : PaymentTransaction :=
  { capturedMonth "order_1" with
    status := .pending, providerPaymentId := none, capturedAt := none }

/-- A workspace with the open checkout 1. -/
def pendingOrder : BillingDb where
  subscription := none
  transactions := fun id => if id = 1 then some pendingMonth else none
  tenant := some { planId := none, status := .active, deleted := false }
  clock := 0

def unpaidProvider : Provider where
  fetchOrder := fun _ => .ok
    { status := "created", amount := some 4900, amountPaid := some 0, amountDue := some 4900 }
  fetchOrderPayments := fun _ => .ok []
  fetchPayment := fun _ => .error (.notFound "Payment not found")

/-- The provider after the customer has paid. -/
def paidProvider : Provider :=
  let payment : ProviderPayment :=
    { id := "pay_1", orderId := some "order_1", status := "captured", captured := true,
      amount := some 4900, currency := some "usd" }
  { fetchOrder := fun _ => .ok
      { status := "paid", amount := some 4900, amountPaid := some 4900, amountDue := some 0 }
    fetchOrderPayments := fun _ => .ok [payment]
    fetchPayment := fun _ => .ok payment }

theorem pendingMonth_verified : Verified paidProvider (some "pay_1") pendingMonth :=
  ⟨"pay_1", _, rfl, by decide, rfl, rfl, by decide, rfl⟩

def referencePayments : PaymentsConfig := { catalogue := fun _ => none }

/-- Process 0 abandons the checkout, process 1 is told of the payment. -/
def cancelAndPay : Nat → PaymentCall
  | 0 => .cancel unpaidProvider 1 0 {}
  | _ => .confirm paidProvider 1 (some "pay_1") 1000 {}

def wholeCall (i : Nat) : List (Move Nat BillingLabel BillingDb Unit) :=
  .start i ((cancelAndPay i).program referencePayments) :: List.replicate 20 (.act i)

theorem wholeCall_legal (i : Nat) {c : Config Nat BillingLabel BillingDb Unit}
    (unused : c.pool i = none) :
    (paymentSystem referencePayments cancelAndPay).LegalRun c (wholeCall i) :=
  ⟨⟨unused, rfl⟩, .acts (fun _ _ _ => trivial) i 20 _⟩

/-- The capture alone. -/
def capturedOnly : Config Nat BillingLabel BillingDb Unit :=
  (wholeCall 1).foldl Config.move (.idle pendingOrder)

set_option maxRecDepth 4000 in
theorem payments_forward_only_capture :
    ∃ row, capturedOnly.world.store.transactions 1 = some row ∧
      (row.status = .captured ∨ row.status = .refunded ∨ row.status = .cancelled) := by
  have reach : Reach (paymentSystem referencePayments cancelAndPay) pendingOrder capturedOnly :=
    Reach.moves .init (wholeCall_legal 1 rfl)
  exact (payments_forward_only referencePayments cancelAndPay pendingOrder _ reach).2 1
    paidProvider 1 (some "pay_1") 1000 {} pendingMonth rfl rfl rfl pendingMonth_verified

/-- The checkout is abandoned before the customer pays. -/
def cancelledThenPaid : Config Nat BillingLabel BillingDb Unit :=
  (wholeCall 1).foldl Config.move ((wholeCall 0).foldl Config.move (.idle pendingOrder))

set_option maxRecDepth 4000 in
/-- The verified capture of a cancelled checkout leaves the row cancelled. -/
theorem capture_of_cancelled :
    Reach (paymentSystem referencePayments cancelAndPay) pendingOrder cancelledThenPaid ∧
      cancelledThenPaid.pool 1 = some (.done ()) ∧
      Verified paidProvider (some "pay_1") pendingMonth ∧
      (cancelledThenPaid.world.store.transactions 1).map (·.status) = some .cancelled := by
  have cancelled : Reach (paymentSystem referencePayments cancelAndPay) pendingOrder
      ((wholeCall 0).foldl Config.move (.idle pendingOrder)) :=
    Reach.moves .init (wholeCall_legal 0 rfl)
  exact ⟨Reach.moves cancelled (wholeCall_legal 1 rfl), rfl, pendingMonth_verified, rfl⟩

end AnalyticsBackend.Billing
