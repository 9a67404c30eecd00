import AnalyticsBackend.Billing.Service

/-!
# Applying a captured payment

`applyCapture` of `services/billingLifecycle.service.js`, and how often the term of one
transaction reaches the subscription when any number of processors and lifecycle steps
interleave. A processor that crashes takes no further step; a lease lapses because a later
processor brings a later `now`.
-/

namespace AnalyticsBackend.Billing
open Lib System

def applyLeaseMs : Int := 60 * 1000

def blockedTenantStatuses : List TenantStatus := [.suspended, .disabled, .archived]

/-- `loadTenantGuard`. -/
def loadTenantGuard : BillingProg (Except ApiError Unit) := do
  match ← findTenant with
  | none => return .error (.notFound "Tenant not found")
  | some tenant =>
      if tenant.deleted then return .error (.notFound "Tenant not found")
      else if tenant.status ∈ blockedTenantStatuses then
        return .error (.conflict
          s!"Tenant is \"{tenant.status.text}\"; provider events cannot activate it")
      else return .ok ()

/-- Which calls inside the `try` of `applyCapture` throw for a reason of their own: the
history or audit call after the write of the term, or `markApplied`. -/
structure CaptureFaults where
  historyFails : Bool := false
  markFails : Bool := false
  deriving DecidableEq, Repr

/-- What `applyCapture` returns, without the subscription. -/
structure CaptureResult where
  applied : Bool
  idempotent : Bool
  mode : Option PaidTermMode := none
  reason : Option String := none
  deriving DecidableEq, Repr

def PaymentTransaction.term (row : PaymentTransaction) (id : TransactionId) (now : Int) :
    PaidTermRequest where
  planId := row.planId
  interval := row.interval
  termMonths := row.termMonths
  transactionId := id
  now := now

/-- The `try` block of `applyCapture`, on the row it has claimed. -/
def applyClaimed (cfg : BillingConfig) (id : TransactionId) (now : Int) (faults : CaptureFaults)
    (claimed : PaymentTransaction) : BillingProg (Except ApiError CaptureResult) := do
  match ← loadTenantGuard with
  | .error e => return .error e
  | .ok () =>
      match ← applyPaidTerm cfg (claimed.term id now) faults.historyFails with
      | .error e => return .error e
      | .ok result =>
          if faults.markFails then
            return .error { statusCode := 500, code := .internalError, message := "markApplied" }
          else
            let _ ← markApplied id now
            return .ok { applied := true, idempotent := result.idempotent, mode := some result.mode }

/-- `applyCapture`. -/
def applyCapture (cfg : BillingConfig) (id : TransactionId) (now : Int) (faults : CaptureFaults) :
    BillingProg (Except ApiError CaptureResult) := do
  match ← findTransaction id with
  | none => return .error (.notFound "Payment transaction not found")
  | some current =>
      if current.status ≠ .captured then
        return .ok
          { applied := false, idempotent := true,
            reason := some s!"transaction_{current.status.text}" }
      else if current.appliedAt.isSome then
        return .ok { applied := true, idempotent := true, reason := some "already_applied" }
      else
        match ← claimForApply id now applyLeaseMs with
        | none =>
            return .ok { applied := false, idempotent := true, reason := some "apply_in_progress" }
        | some claimed =>
            match ← applyClaimed cfg id now faults claimed with
            | .ok result => return .ok result
            | .error e =>
                let _ ← releaseApply id
                return .error e

/-! ## The memory of what was applied -/

namespace BillingDb

/-- `lastTransactionId` of the stored row. -/
def slot (db : BillingDb) : Option TransactionId := db.subscription.bind (·.lastTransactionId)

/-- The transaction is stored with an `appliedAt`. -/
def Applied (db : BillingDb) (id : TransactionId) : Prop :=
  ∃ row, db.transactions id = some row ∧ row.appliedAt ≠ none

theorem slot_some {db : BillingDb} {row : Subscription} (stored : db.subscription = some row) :
    db.slot = row.lastTransactionId := by
  simp [slot, stored]

end BillingDb

def writesTerm (id : TransactionId) (e : Event Nat BillingLabel BillingDb) : Bool :=
  e.label = .writeSubscription (.paidTerm id) ∧ e.after.subscription ≠ e.before.subscription

/-- How often the term of a transaction was added to the subscription. -/
def termWrites (id : TransactionId) (trace : List (Event Nat BillingLabel BillingDb)) : Nat :=
  trace.countP (writesTerm id)

/-- A step that keeps the memory of what was applied: a term is written only while its
transaction is not marked applied, and the slot of the subscription drops a transaction
only when that one is marked applied. -/
def KeepsMemory (label : BillingLabel) (db db' : BillingDb) : Prop :=
  (∀ id, label = .writeSubscription (.paidTerm id) → db'.subscription ≠ db.subscription →
    ¬ db.Applied id) ∧
  ∀ id, db.slot = some id → db'.slot ≠ some id → db.Applied id

/-- Processors of captured transactions and lifecycle steps, at any instants. From outside,
the clock, the tenant record and the transactions change, but no mark is taken back. -/
def captureSystem (cfg : BillingConfig) (ok : BillingLabel → BillingDb → BillingDb → Prop) :
    System Nat BillingLabel BillingDb Unit where
  start := fun _ p =>
    (∃ id now faults, p = ignored (applyCapture cfg id now faults)) ∨
      ∃ now, p = ignored (advanceLifecycle cfg now)
  env := fun db db' =>
    db'.subscription = db.subscription ∧ ∀ id, db.Applied id → db'.Applied id
  ok := ok

/-! ## What one step does -/

/-- How one step may change a stored transaction: the status stays or moves forward, no
mark is taken back, and the order that was bought is not changed. -/
structure Forward (row row' : PaymentTransaction) : Prop where
  status : row'.status = row.status ∨ row'.status ∈ row.status.next
  mark : row.appliedAt ≠ none → row'.appliedAt ≠ none
  order : row'.providerOrderId = row.providerOrderId
  amount : row'.amountMinor = row.amountMinor
  currency : row'.currency = row.currency

theorem Forward.refl (row : PaymentTransaction) : Forward row row :=
  ⟨.inl rfl, fun marked => marked, rfl, rfl, rfl⟩

/-- An atomic step of the payment programs: transactions go forward, and a step that is to
write a term finds the slot free of its transaction and leaves it there, or changes
nothing. -/
structure PaymentStep (label : BillingLabel) (act : BillingDb → BillingDb) : Prop where
  forward : ∀ db id row, db.transactions id = some row →
    ∃ row', (act db).transactions id = some row' ∧ Forward row row'
  term : ∀ id, label = .writeSubscription (.paidTerm id) → ∀ db,
    (act db).subscription = db.subscription ∨ (db.slot ≠ some id ∧ (act db).slot = some id)

theorem PaymentStep.applied {label : BillingLabel} {act : BillingDb → BillingDb}
    (step : PaymentStep label act) {db : BillingDb} {id : TransactionId}
    (applied : db.Applied id) : (act db).Applied id := by
  obtain ⟨row, stored, marked⟩ := applied
  obtain ⟨row', stored', forward⟩ := step.forward db id row stored
  exact ⟨row', stored', forward.mark marked⟩

theorem paymentStep_read : PaymentStep .read id :=
  ⟨fun _ _ row stored => ⟨row, stored, .refl row⟩, fun _ label => by cases label⟩

theorem paymentStep_updateSubscription {writer : SubscriptionWriter}
    (expect : Subscription → Bool) (patch : SubscriptionPatch)
    (term : ∀ id, writer = .paidTerm id → ∀ row, expect row = true →
      row.lastTransactionId ≠ some id ∧ (patch row).lastTransactionId = some id) :
    PaymentStep (.writeSubscription writer) (fun db => db.updateSubscription expect patch) := by
  constructor
  · intro db id row stored
    refine ⟨row, ?_, .refl row⟩
    unfold BillingDb.updateSubscription
    split
    · split <;> exact stored
    · exact stored
  · intro id label db
    have writer_id : writer = .paidTerm id := by simpa using label
    cases stored : db.subscription with
    | none => exact .inl (by simp [BillingDb.updateSubscription, stored])
    | some row =>
        by_cases met : expect row = true
        · right
          obtain ⟨other, named⟩ := term id writer_id row met
          constructor
          · rwa [BillingDb.slot_some stored]
          · simp [BillingDb.updateSubscription, stored, met, BillingDb.slot, named]
        · exact .inl (by simp [BillingDb.updateSubscription, stored, met])

theorem paymentStep_updateTransaction (id : TransactionId) (expect : PaymentTransaction → Bool)
    (patch : PaymentTransaction → PaymentTransaction)
    (forward : ∀ row, expect row = true → Forward row (patch row)) :
    PaymentStep (.writeTransaction id) (fun db => db.updateTransaction id expect patch) := by
  refine ⟨?_, fun _ label => by cases label⟩
  intro db other row stored
  show ∃ row', (db.updateTransaction id expect patch).transactions other = some row' ∧ _
  unfold BillingDb.updateTransaction
  split
  case h_1 current found =>
    split
    case isTrue met =>
      by_cases same : other = id
      · subst same
        rw [stored, Option.some.injEq] at found
        subst found
        exact ⟨patch row, by simp, forward row met⟩
      · exact ⟨row, by simpa [same] using stored, .refl row⟩
    case isFalse => exact ⟨row, stored, .refl row⟩
  case h_2 => exact ⟨row, stored, .refl row⟩

theorem each_claimForApply (id : TransactionId) (now leaseMs : Int) :
    (claimForApply id now leaseMs).Each PaymentStep :=
  Prog.Each.update (paymentStep_updateTransaction _ _ _
    (fun _ _ => ⟨.inl rfl, fun marked => marked, rfl, rfl, rfl⟩))

theorem each_markApplied (id : TransactionId) (now : Int) :
    (markApplied id now).Each PaymentStep :=
  Prog.Each.update (paymentStep_updateTransaction _ _ _
    (fun _ _ => ⟨.inl rfl, fun _ => by simp, rfl, rfl, rfl⟩))

theorem each_releaseApply (id : TransactionId) : (releaseApply id).Each PaymentStep :=
  Prog.Each.update (paymentStep_updateTransaction _ _ _
    (fun _ _ => ⟨.inl rfl, fun marked => marked, rfl, rfl, rfl⟩))

theorem each_findTransaction (id : TransactionId) : (findTransaction id).Each PaymentStep :=
  Prog.Each.read paymentStep_read

theorem paidTermDecision_slot {cfg : BillingConfig} {req : PaidTermRequest}
    {existing : Subscription} {mode : PaidTermMode} {patch : SubscriptionPatch}
    (decided : paidTermDecision cfg req existing = .ok (some (mode, patch))) :
    existing.lastTransactionId ≠ some req.transactionId ∧
      ∀ row, (patch row).lastTransactionId = some req.transactionId := by
  have names : ∀ row,
      ((paidTermMode cfg existing req).2 row).lastTransactionId = some req.transactionId := by
    intro row
    unfold paidTermMode
    split
    · rfl
    · split <;> rfl
  unfold paidTermDecision at decided
  split at decided
  case isTrue => cases decided
  case isFalse other =>
    refine ⟨other, ?_⟩
    split at decided
    · cases decided
    · dsimp only at decided
      rw [assertTransition_active] at decided
      have taken : paidTermMode cfg existing req = (mode, patch) := by
        split at decided <;> simpa using decided
      rwa [taken] at names

/-! ## The programs -/

theorem each_findSubscription : findSubscription.Each PaymentStep := Prog.Each.read paymentStep_read

theorem each_findTenant : findTenant.Each PaymentStep := Prog.Each.read paymentStep_read

theorem each_createForTenant (planId : PlanCode) (state : SubscriptionState)
    (trialDays : Option Int) (now : Int) :
    (createForTenant planId state trialDays now).Each PaymentStep := by
  have upsert : ∀ fresh patch, (upsertForTenant fresh patch).Each PaymentStep := fun fresh patch =>
    Prog.Each.update ⟨fun _ _ row stored => ⟨row, stored, .refl row⟩, fun _ label => by cases label⟩
  refine each_findSubscription.bind ?_
  intro existing
  cases existing with
  | some existing => exact trivial
  | none =>
      cases assertTransition none state with
      | error e => exact trivial
      | ok _ =>
          refine each_findTenant.bind ?_
          intro tenant
          cases tenant with
          | none => exact trivial
          | some tenant =>
              show Prog.Each PaymentStep (if tenant.deleted = true then _ else _)
              split
              · exact trivial
              · split
                · exact trivial
                · exact (upsert _ _).bind fun _ => trivial

theorem each_ensureForTenant (cfg : BillingConfig) (now : Int) :
    (ensureForTenant cfg now).Each PaymentStep := by
  refine each_findSubscription.bind ?_
  intro existing
  cases existing with
  | some existing => exact trivial
  | none =>
      refine each_findTenant.bind ?_
      intro tenant
      cases tenant with
      | none => exact trivial
      | some tenant =>
          show Prog.Each PaymentStep (if tenant.deleted = true then _ else _)
          split
          · exact trivial
          · cases provisioningTrial cfg tenant with
            | none => exact each_createForTenant _ _ _ _
            | some trial => exact each_createForTenant _ _ _ _

theorem each_findOrProvision (cfg : BillingConfig) (now : Int) :
    (findOrProvision cfg now).Each PaymentStep := by
  refine each_findSubscription.bind ?_
  intro existing
  cases existing with
  | some existing => exact trivial
  | none =>
      refine (each_ensureForTenant cfg now).bind ?_
      intro created
      cases created with
      | error e => exact trivial
      | ok created =>
          refine each_findSubscription.bind ?_
          intro stored
          cases stored <;> exact trivial

theorem each_applyPaidTerm (cfg : BillingConfig) (req : PaidTermRequest) (historyFails : Bool) :
    (applyPaidTerm cfg req historyFails).Each PaymentStep := by
  unfold applyPaidTerm
  cases checkPaidTerm req with
  | error e => exact trivial
  | ok _ =>
      refine (each_findOrProvision cfg req.now).bind ?_
      intro found
      cases found with
      | error e => exact trivial
      | ok existing =>
          dsimp only
          cases decided : paidTermDecision cfg req existing with
          | error e => exact trivial
          | ok decision =>
              cases decision with
              | none => exact trivial
              | some decision =>
                  obtain ⟨mode, patch⟩ := decision
                  obtain ⟨other, named⟩ := paidTermDecision_slot decided
                  have write : (updateSubscription (.paidTerm req.transactionId)
                      (sameStampAndSlot existing) patch).Each PaymentStep := by
                    apply Prog.Each.update
                    apply paymentStep_updateSubscription
                    intro id writer row met
                    injection writer with same
                    subst same
                    have slot : row.lastTransactionId = existing.lastTransactionId := by
                      simp only [sameStampAndSlot, decide_eq_true_eq] at met
                      exact met.2
                    exact ⟨slot ▸ other, named row⟩
                  refine write.bind ?_
                  intro updated
                  cases updated with
                  | some updated => cases historyFails <;> exact trivial
                  | none =>
                      refine each_findSubscription.bind ?_
                      intro fresh
                      cases fresh with
                      | none => exact trivial
                      | some fresh =>
                          show Prog.Each PaymentStep (if _ then _ else _)
                          split <;> exact trivial

theorem each_applyClaimed (cfg : BillingConfig) (id : TransactionId) (now : Int)
    (faults : CaptureFaults) (claimed : PaymentTransaction) :
    (applyClaimed cfg id now faults claimed).Each PaymentStep := by
  have guard : loadTenantGuard.Each PaymentStep := by
    refine each_findTenant.bind ?_
    intro tenant
    cases tenant with
    | none => exact trivial
    | some tenant =>
        show Prog.Each PaymentStep (if tenant.deleted = true then _ else _)
        split
        · exact trivial
        · split <;> exact trivial
  refine guard.bind ?_
  intro guarded
  cases guarded with
  | error e => exact trivial
  | ok _ =>
      refine (each_applyPaidTerm cfg _ _).bind ?_
      intro result
      cases result with
      | error e => exact trivial
      | ok result =>
          show Prog.Each PaymentStep (if faults.markFails = true then _ else _)
          split
          · exact trivial
          · exact (each_markApplied id now).bind fun _ => trivial

theorem each_applyCapture (cfg : BillingConfig) (id : TransactionId) (now : Int)
    (faults : CaptureFaults) : (applyCapture cfg id now faults).Each PaymentStep := by
  refine (each_findTransaction id).bind ?_
  intro current
  cases current with
  | none => exact trivial
  | some current =>
      show Prog.Each PaymentStep (if current.status ≠ .captured then _ else _)
      split
      · exact trivial
      · split
        · exact trivial
        · refine (each_claimForApply id now applyLeaseMs).bind ?_
          intro claimed
          cases claimed with
          | none => exact trivial
          | some claimed =>
              refine (each_applyClaimed cfg id now faults claimed).bind ?_
              intro result
              cases result with
              | ok result => exact trivial
              | error e => exact (each_releaseApply id).bind fun _ => trivial

theorem each_advanceLifecycle (cfg : BillingConfig) (now : Int) :
    (advanceLifecycle cfg now).Each PaymentStep := by
  have write : ∀ existing patch,
      (updateSubscription .lifecycle (sameStamp existing) patch).Each PaymentStep := by
    intro existing patch
    apply Prog.Each.update
    apply paymentStep_updateSubscription
    intro id writer
    cases writer
  refine each_findSubscription.bind ?_
  intro existing
  cases existing with
  | none => exact trivial
  | some existing =>
      dsimp only
      split
      · exact trivial
      · exact trivial
      · refine (write _ _).bind ?_
        intro updated
        cases updated <;> exact trivial

/-! ## Every run -/

def Remembered (w : World Nat BillingLabel BillingDb) : Prop :=
  ∀ id, termWrites id w.trace = 0 ∨
    termWrites id w.trace = 1 ∧ (w.store.Applied id ∨ w.store.slot = some id)

theorem remembered_push {w : World Nat BillingLabel BillingDb} {label : BillingLabel}
    {act : BillingDb → BillingDb} {i : Nat} (held : Remembered w) (step : PaymentStep label act)
    (keeps : KeepsMemory label w.store (act w.store)) :
    Remembered (w.push ⟨i, label, w.store, act w.store⟩) := by
  intro id
  show termWrites id (⟨i, label, w.store, act w.store⟩ :: w.trace) = 0 ∨ _
  rw [World.push_trace, World.push_store, termWrites, List.countP_cons]
  by_cases writes : writesTerm id ⟨i, label, w.store, act w.store⟩ = true
  · -- a write of the term: neither the mark nor the slot names it, so it is the first
    obtain ⟨written, changed⟩ : label = .writeSubscription (.paidTerm id) ∧
        (act w.store).subscription ≠ w.store.subscription := by
      simpa [writesTerm] using writes
    have unmarked := keeps.1 id written changed
    rcases step.term id written w.store with same | ⟨free, named⟩
    · exact absurd same changed
    · rcases held id with none_yet | ⟨_, marked | named_before⟩
      · right
        rw [if_pos writes]
        exact ⟨by unfold termWrites at none_yet; omega, .inr named⟩
      · exact absurd marked unmarked
      · exact absurd named_before free
  · rw [if_neg writes, Nat.add_zero]
    rcases held id with none_yet | ⟨once, marked | named⟩
    · exact .inl none_yet
    · exact .inr ⟨once, .inl (step.applied marked)⟩
    · right
      refine ⟨once, ?_⟩
      by_cases still : (act w.store).slot = some id
      · exact .inr still
      · exact .inl (step.applied (keeps.2 id named still))

/-- In every run whose steps keep the memory of what was applied, no term is added to the
subscription twice. -/
theorem captured_term_applied_once (cfg : BillingConfig) (db : BillingDb)
    (c : Config Nat BillingLabel BillingDb Unit)
    (reach : Reach (captureSystem cfg KeepsMemory) db c) (id : TransactionId) :
    termWrites id c.world.trace ≤ 1 := by
  have remembered : Remembered c.world := by
    refine reach.invariant ?_ ?_ ?_
    · exact fun _ => .inl rfl
    · rintro w db' held ⟨same, kept⟩ id
      rcases held id with none_yet | ⟨once, marked | named⟩
      · exact .inl none_yet
      · exact .inr ⟨once, .inl (kept id marked)⟩
      · exact .inr ⟨once, .inr (by simpa [BillingDb.slot, same] using named)⟩
    · intro i p started
      have each : p.Each PaymentStep := by
        rcases started with ⟨id, now, faults, rfl⟩ | ⟨now, rfl⟩
        · exact (each_applyCapture cfg id now faults).bind fun _ => trivial
        · exact (each_advanceLifecycle cfg now).bind fun _ => trivial
      exact each.mono fun label act step w held keeps j => remembered_push held step keeps
  rcases remembered id with none_yet | ⟨once, _⟩
  · omega
  · omega

/-! ## Two captured payments -/

/-- A captured order for one month of `pro`, not applied yet. -/
def capturedMonth (orderId : String) : PaymentTransaction where
  planId := "pro"
  amountMinor := 4900
  currency := "USD"
  providerOrderId := orderId
  providerPaymentId := some "pay"
  status := .captured
  failureReason := none
  interval := .month
  termMonths := 1
  createdAt := 0
  authorizedAt := none
  capturedAt := some 0
  failedAt := none
  refundedAt := none
  expiredAt := none
  cancelledAt := none
  clientVerifiedAt := none
  appliedAt := none
  applyingUntil := none
  reconcileAttempts := 0
  nextReconcileAt := none

/-- A workspace on the free plan with the captured transactions 1 and 2. -/
def twoCaptured : BillingDb :=
  let db : BillingDb :=
    { subscription := none
      transactions := fun id =>
        if id = 1 then some (capturedMonth "order_1")
        else if id = 2 then some (capturedMonth "order_2") else none
      tenant := some { planId := none, status := .active, deleted := false }
      clock := 0 }
  ServiceCall.ensureForTenant.perform referenceConfig db 0

def processor (id : TransactionId) (now : Int) : BillingProg Unit :=
  ignored (applyCapture referenceConfig id now {})

/-- The moves of a processor: it is started, reads, claims, checks the tenant, reads the
subscription and writes the term. -/
def upToWrite (i : Nat) (id : TransactionId) (now : Int) :
    List (Move Nat BillingLabel BillingDb Unit) :=
  [.start i (processor id now), .act i, .act i, .act i, .act i, .act i]

/-- Transaction 1 alone, to the mark. -/
theorem captured_term_applied_once_alone :
    termWrites 1 ((upToWrite 0 1 0 ++ [Move.act 0]).foldl Config.move
      (.idle twoCaptured)).world.trace ≤ 1 := by
  have quiet : ∀ {label : BillingLabel} {db db' : BillingDb}, db'.subscription = db.subscription →
      KeepsMemory label db db' := by
    intro label db db' same
    refine ⟨fun _ _ changed => absurd same changed, fun id named dropped => ?_⟩
    rw [BillingDb.slot, same] at dropped
    exact absurd named dropped
  refine captured_term_applied_once referenceConfig twoCaptured _ (Reach.moves .init ?_) 1
  refine ⟨⟨rfl, .inl ⟨1, 0, {}, rfl⟩⟩, quiet rfl, quiet rfl, quiet rfl, quiet rfl, ⟨?_, ?_⟩,
    quiet rfl, trivial⟩
  · rintro id written _ ⟨row, stored, marked⟩
    have same : id = 1 := by
      injection written with written
      injection written with same
      exact same.symm
    subst same
    have unmarked : row.appliedAt = none := by
      rw [← Option.some.inj stored]
      rfl
    exact marked unmarked
  · intro id named
    cases named

/-- A processor of transaction 1 writes the term and crashes before it marks the
transaction. -/
def crashedProcessor : Config Nat BillingLabel BillingDb Unit :=
  (upToWrite 0 1 0).foldl Config.move (.idle twoCaptured)

/-- Transaction 2 takes the slot and is marked. -/
def slotTaken : Config Nat BillingLabel BillingDb Unit :=
  (upToWrite 1 2 1000 ++ [Move.act 1]).foldl Config.move (later 1000 crashedProcessor)

/-- The lease of transaction 1 has lapsed: another processor writes its term again. -/
def replayed : Config Nat BillingLabel BillingDb Unit :=
  (upToWrite 2 1 60000).foldl Config.move (later 60000 slotTaken)

/-- The runs with no condition on their steps. -/
abbrev anyRun : System Nat BillingLabel BillingDb Unit :=
  captureSystem referenceConfig (fun _ _ _ => True)

set_option maxRecDepth 4000 in
theorem term_applied_twice :
    Reach anyRun twoCaptured replayed ∧ termWrites 1 replayed.world.trace = 2 := by
  refine ⟨?_, by decide +kernel⟩
  have crashed : Reach anyRun twoCaptured crashedProcessor := Reach.moves .init
    ⟨⟨rfl, .inl ⟨1, 0, {}, rfl⟩⟩, trivial, trivial, trivial, trivial, trivial, trivial⟩
  have atNext : Reach anyRun twoCaptured (later 1000 crashedProcessor) :=
    crashed.move ⟨rfl, fun _ applied => applied⟩
  have taken : Reach anyRun twoCaptured slotTaken := Reach.moves atNext
    ⟨⟨rfl, .inl ⟨2, 1000, {}, rfl⟩⟩, trivial, trivial, trivial, trivial, trivial, trivial, trivial⟩
  have lapsed : Reach anyRun twoCaptured (later 60000 slotTaken) :=
    taken.move ⟨rfl, fun _ applied => applied⟩
  exact Reach.moves lapsed
    ⟨⟨rfl, .inl ⟨1, 60000, {}, rfl⟩⟩, trivial, trivial, trivial, trivial, trivial, trivial⟩

end AnalyticsBackend.Billing
