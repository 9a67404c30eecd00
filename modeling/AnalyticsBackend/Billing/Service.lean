import AnalyticsBackend.Billing.Store

/-!
# The subscription service

The operations of `services/subscription.service.js` that write the row. Each is a pure
decision on the row it read, named after the operation, followed by the write; the writes
of `scheduleChange`, `clearScheduledChange`, `applyPaidTerm` and `advanceLifecycle` are
compare-and-set, those of `cancel`, `reactivate`, `setState` and `changePlan` are not.
-/

namespace AnalyticsBackend.Billing
open Lib Lib.Calendar

def noSubscription : ApiError := .notFound "No subscription for this tenant"

def changedConcurrently : ApiError :=
  .conflict "Subscription changed concurrently; please retry"

/-- Read the row, decide, write. A decision is an error, nothing to do, or a patch. -/
def readDecideWrite (writer : SubscriptionWriter)
    (decide : Subscription → Except ApiError (Option SubscriptionPatch))
    (expect : Subscription → Subscription → Bool) :
    BillingProg (Except ApiError Subscription) := do
  match ← findSubscription with
  | none => return .error noSubscription
  | some existing =>
      match decide existing with
      | .error e => return .error e
      | .ok none => return .ok existing
      | .ok (some patch) =>
          match ← updateSubscription writer (expect existing) patch with
          | none => return .error changedConcurrently
          | some updated => return .ok updated

/-- The filter of an unconditional `update(existing._id, patch)`. -/
def anyRow (_existing _row : Subscription) : Bool := true

/-- The filter of `casUpdate`: the row has not moved since it was read. -/
def sameStamp (existing row : Subscription) : Bool := row.updatedAt = existing.updatedAt

/-! ## Unconditional writes -/

/-- `changePlan`. -/
def changePlanDecision (planId : PlanCode) (termEnd : Option Int) (now : Int)
    (existing : Subscription) : Except ApiError (Option SubscriptionPatch) :=
  if existing.planId = planId ∧ termEnd = none then .ok none
  else
    let periodEnd := termEnd.getD (defaultPeriodEnd now)
    if periodEnd ≤ now then .error (.badRequest "termEnd must be in the future")
    else .ok (some fun row => { row with
      planId := planId
      previousPlanId := some existing.planId
      currentPeriodStart := now
      currentPeriodEnd := periodEnd
      stateChangedAt := some now
      scheduledChange := none })

def changePlan (planId : PlanCode) (termEnd : Option Int) (now : Int) :
    BillingProg (Except ApiError Subscription) :=
  readDecideWrite .changePlan (changePlanDecision planId termEnd now) anyRow

/-- `existing.scheduledChange?.source === 'payment'`. -/
def Subscription.hasQueuedPayment (sub : Subscription) : Bool :=
  match sub.scheduledChange with
  | some change => change.source = .payment
  | none => false

def cancelDecision (immediate : Bool) (now : Int) (existing : Subscription) :
    Except ApiError (Option SubscriptionPatch) :=
  if existing.state = .canceled then .ok none
  else if existing.state = .expired ∨ existing.state = .restricted then
    .error (.conflict s!"Cannot cancel a subscription in state \"{existing.state.text}\"")
  else if isFreePlan existing.planId then
    .error (.conflict "The free plan has no paid term to cancel")
  else if existing.hasQueuedPayment then
    .error (.conflict "A prepaid term is queued after this one; contact support to cancel")
  else
    match assertTransition (some existing.state) .canceled with
    | .error e => .error e
    | .ok () => .ok (some fun row => { row with
        state := .canceled
        previousState := some existing.state
        canceledAt := some now
        cancelAtPeriodEnd := !immediate
        stateChangedAt := some now
        scheduledChange := none
        currentPeriodEnd := if immediate then now else row.currentPeriodEnd })

def cancel (immediate : Bool) (now : Int) : BillingProg (Except ApiError Subscription) :=
  readDecideWrite .cancel (cancelDecision immediate now) anyRow

def reactivateDecision (planId : Option PlanCode) (now : Int) (existing : Subscription) :
    Except ApiError (Option SubscriptionPatch) :=
  if existing.state = .active then .ok none
  else
    let target := planId.getD existing.planId
    match assertTransition (some existing.state) .active with
    | .error e => .error e
    | .ok () =>
        if existing.currentPeriodEnd ≤ now then
          .error (.conflict "The prepaid term has ended; purchase a new term to continue")
        else .ok (some fun row => { row with
          state := .active
          planId := target
          previousState := some existing.state
          previousPlanId :=
            if existing.planId = target then existing.previousPlanId else some existing.planId
          canceledAt := none
          cancelAtPeriodEnd := false
          graceEndsAt := none
          stateChangedAt := some now })

def reactivate (planId : Option PlanCode) (now : Int) :
    BillingProg (Except ApiError Subscription) :=
  readDecideWrite .reactivate (reactivateDecision planId now) anyRow

/-- The arguments of `setState`. -/
structure SetStateRequest where
  state : SubscriptionState
  graceEndsAt : Option Int
  periodEnd : Option Int
  reason : String
  system : Bool
  now : Int
  deriving DecidableEq, Repr

/-- The period a re-activated row gets: the given end, a default window when the stored
term has lapsed, else what is stored. -/
def SetStateRequest.period (req : SetStateRequest) (existing : Subscription) :
    Except ApiError (Option (Option Int × Int)) :=
  if req.state = .active ∨ req.state = .trialing then
    match req.periodEnd with
    | some periodEnd =>
        if periodEnd ≤ req.now then .error (.badRequest "periodEnd must be in the future")
        else .ok (some (none, periodEnd))
    | none =>
        if existing.currentPeriodEnd ≤ req.now then
          .ok (some (some req.now, defaultPeriodEnd req.now))
        else .ok none
  else .ok none

/-- `setState`: an administrative restriction is a hold (`adminHold`), the lifecycle job's
own (`system`) is not. -/
def setStateDecision (req : SetStateRequest) (existing : Subscription) :
    Except ApiError (Option SubscriptionPatch) :=
  if req.reason.toList.all Char.isWhitespace then
    .error (.badRequest "A reason is required for an administrative state change")
  else
    match assertTransition (some existing.state) req.state with
    | .error e => .error e
    | .ok () =>
        match req.period existing with
        | .error e => .error e
        | .ok period => .ok (some fun row => { row with
            state := req.state
            previousState := some existing.state
            graceEndsAt :=
              if req.state = .pastDue then some (req.graceEndsAt.getD (req.now + 7 * dayMs))
              else none
            stateChangedAt := some req.now
            adminHold :=
              if req.state = .restricted then !req.system
              else if req.system then row.adminHold else false
            currentPeriodStart :=
              match period with
              | some (some start, _) => start
              | _ => row.currentPeriodStart
            currentPeriodEnd :=
              match period with
              | some (_, periodEnd) => periodEnd
              | none => row.currentPeriodEnd })

def setState (req : SetStateRequest) : BillingProg (Except ApiError Subscription) :=
  readDecideWrite (.setState req.state req.system) (setStateDecision req) anyRow

/-! ## Provisioning -/

/-- The row `createForTenant` writes over whatever the tenant's row is. -/
def createPatch (planId : PlanCode) (state : SubscriptionState) (trialEndsAt : Option Int)
    (now : Int) : SubscriptionPatch := fun row => { row with
  planId := planId
  state := state
  trialEndsAt := trialEndsAt
  currentPeriodStart := now
  currentPeriodEnd := trialEndsAt.getD (defaultPeriodEnd now)
  graceEndsAt := if state = .pastDue then some (now + 7 * dayMs) else none
  canceledAt := if state = .canceled then some now else none
  cancelAtPeriodEnd := false
  previousPlanId := none
  previousState := none
  stateChangedAt := some now }

/-- The schema defaults of the fields that `createForTenant` does not set. -/
def subscriptionDefaults : Subscription where
  planId := defaultPlanCode
  state := .active
  trialEndsAt := none
  currentPeriodStart := 0
  currentPeriodEnd := 0
  graceEndsAt := none
  canceledAt := none
  cancelAtPeriodEnd := false
  previousPlanId := none
  previousState := none
  stateChangedAt := none
  billingInterval := none
  lastTransactionId := none
  adminHold := false
  scheduledChange := none
  updatedAt := 0

/-- `trialEndsAt` of a new row: only a trial with positive `trialDays` has one. -/
def trialEnd (state : SubscriptionState) (trialDays : Option Int) (now : Int) : Option Int :=
  match state, trialDays with
  | .trialing, some days => if 0 < days then some (now + days * dayMs) else none
  | _, _ => none

/-- `createForTenant`: idempotent on an existing row. -/
def createForTenant (planId : PlanCode) (state : SubscriptionState) (trialDays : Option Int)
    (now : Int) : BillingProg (Except ApiError Subscription) := do
  match ← findSubscription with
  | some existing => return .ok existing
  | none =>
      match assertTransition none state with
      | .error e => return .error e
      | .ok () =>
          match ← findTenant with
          | none => return .error (.notFound "Tenant not found")
          | some tenant =>
              if tenant.deleted then return .error (.notFound "Tenant not found")
              else if state = .trialing ∧ trialEnd state trialDays now = none then
                return .error (.badRequest "A trial needs a positive trialDays")
              else
                let created ← upsertForTenant subscriptionDefaults
                  (createPatch planId state (trialEnd state trialDays now) now)
                return .ok created

/-- The plan a tenant without a subscription is provisioned on: a trial of the tenant
record's plan when that plan has `trialDays`, else the free plan. -/
def provisioningTrial (cfg : BillingConfig) (tenant : Tenant) : Option (PlanCode × Int) :=
  match tenant.planId with
  | none => none
  | some code =>
      match getActiveByCode cfg.catalogue code with
      | none => none
      | some plan =>
          match plan.trialDays with
          | some days => if isFreePlan plan.code = false ∧ 0 < days then some (plan.code, days) else none
          | none => none

/-- `ensureForTenant`. -/
def ensureForTenant (cfg : BillingConfig) (now : Int) :
    BillingProg (Except ApiError Subscription) := do
  match ← findSubscription with
  | some existing => return .ok existing
  | none =>
      match ← findTenant with
      | none => return .error (.notFound "Tenant not found")
      | some tenant =>
          if tenant.deleted then return .error (.notFound "Tenant not found")
          else
            match provisioningTrial cfg tenant with
            | some (code, days) => createForTenant code .trialing (some days) now
            | none => createForTenant defaultPlanCode .active none now

/-! ## Prepaid terms -/

/-- The arguments of `applyPaidTerm`. -/
structure PaidTermRequest where
  planId : PlanCode
  interval : BillingInterval
  termMonths : Int
  transactionId : TransactionId
  now : Int
  deriving DecidableEq, Repr

/-- `mode` of an applied term. -/
inductive PaidTermMode where
  | alreadyApplied
  | trialConverted
  | renewed
  | scheduled
  | upgraded
  | activated
  | reactivated
  deriving DecidableEq, Repr

/-- `running` of `applyPaidTerm` and `termRunning` of `scheduleChange`: the row's own paid
plan is in force. -/
def termRunning (cfg : BillingConfig) (existing : Subscription) (now : Int) : Bool :=
  let access := accessAt cfg existing now
  !isFreePlan existing.planId &&
    (access.state = .active || access.state = .trialing || access.state = .canceled) &&
    access.planId = existing.planId

/-- `planService.tierOf` of the plan a code resolves to. -/
def tierOfCode (cfg : BillingConfig) (code : PlanCode) : Int :=
  tierOf (resolveByCode cfg.catalogue code)

def renewedEnd (existing : Subscription) (req : PaidTermRequest) : Int :=
  addMonths (max req.now existing.currentPeriodEnd) req.termMonths

/-- A queued prepaid term moves back with the renewal before it; a queued move to free is
withdrawn. -/
def shiftedChange (existing : Subscription) (newEnd : Int) : Option ScheduledChange :=
  match existing.scheduledChange with
  | some queued =>
      if queued.source = .payment then
        some { queued with
          effectiveAt := newEnd
          termEnd := queued.termEnd.map (· + (newEnd - existing.currentPeriodEnd)) }
      else none
  | none => none

/-- The queued term that a purchase of the same plan extends: its start and end. -/
def sameQueued (existing : Subscription) (planId : PlanCode) : Option (Int × Int) :=
  match existing.scheduledChange with
  | some queued =>
      match queued.termEnd with
      | some termEnd =>
          if queued.source = .payment ∧ queued.planId = planId then
            some (queued.effectiveAt, termEnd)
          else none
      | none => none
  | none => none

/-- The `scheduledChange` of a term that waits for the running one to end. -/
def queuedTerm (existing : Subscription) (req : PaidTermRequest) : ScheduledChange :=
  let slot := (sameQueued existing req.planId).getD
    (existing.currentPeriodEnd, existing.currentPeriodEnd)
  { planId := req.planId
    effectiveAt := slot.1
    termEnd := some (addMonths slot.2 req.termMonths)
    interval := some req.interval
    transactionId := some req.transactionId
    source := .payment
    requestedAt := some req.now }

def renewPatch (existing : Subscription) (req : PaidTermRequest) : SubscriptionPatch :=
  fun row => { row with
    lastTransactionId := some req.transactionId
    stateChangedAt := some req.now
    state := .active
    previousState := some existing.state
    currentPeriodEnd := renewedEnd existing req
    scheduledChange := shiftedChange existing (renewedEnd existing req)
    billingInterval := some req.interval
    graceEndsAt := none
    canceledAt := none
    cancelAtPeriodEnd := false
    trialEndsAt := existing.trialEndsAt }

def queuePatch (existing : Subscription) (req : PaidTermRequest) : SubscriptionPatch :=
  fun row => { row with
    lastTransactionId := some req.transactionId
    stateChangedAt := some req.now
    scheduledChange := some (queuedTerm existing req) }

def startPatch (existing : Subscription) (req : PaidTermRequest) : SubscriptionPatch :=
  fun row => { row with
    lastTransactionId := some req.transactionId
    stateChangedAt := some req.now
    planId := req.planId
    previousPlanId :=
      if existing.planId = req.planId then existing.previousPlanId else some existing.planId
    state := .active
    previousState := some existing.state
    currentPeriodStart := req.now
    currentPeriodEnd := addMonths req.now req.termMonths
    billingInterval := some req.interval
    graceEndsAt := none
    canceledAt := none
    cancelAtPeriodEnd := false
    scheduledChange := none }

/-- The mode decision of `applyPaidTerm`. -/
def paidTermMode (cfg : BillingConfig) (existing : Subscription) (req : PaidTermRequest) :
    PaidTermMode × SubscriptionPatch :=
  if termRunning cfg existing req.now ∧ existing.planId = req.planId then
    (if existing.state = .trialing then .trialConverted else .renewed, renewPatch existing req)
  else if termRunning cfg existing req.now ∧
      tierOfCode cfg req.planId ≤ tierOfCode cfg existing.planId then
    (.scheduled, queuePatch existing req)
  else
    (if termRunning cfg existing req.now then .upgraded
      else if isFreePlan existing.planId then .activated else .reactivated,
     startPatch existing req)

/-- The argument checks of `applyPaidTerm`. -/
def checkPaidTerm (req : PaidTermRequest) : Except ApiError Unit :=
  if req.planId = "" then .error (.badRequest "planId is required")
  else if req.termMonths < 1 then .error (.badRequest "termMonths must be a positive integer")
  else .ok ()

/-- `applyPaidTerm` on the row it read: `none` when the slot already names the transaction. -/
def paidTermDecision (cfg : BillingConfig) (req : PaidTermRequest) (existing : Subscription) :
    Except ApiError (Option (PaidTermMode × SubscriptionPatch)) :=
  if existing.lastTransactionId = some req.transactionId then .ok none
  else if existing.state = .restricted ∧ existing.adminHold = true then
    .error (.conflict
      "Subscription is under an administrative hold; provider events cannot activate it")
  else
    let decision := paidTermMode cfg existing req
    -- a queued term leaves the state alone; the other two write `active`
    if decision.1 = .scheduled then .ok (some decision)
    else
      match assertTransition (some existing.state) .active with
      | .error e => .error e
      | .ok () => .ok (some decision)

def sameStampAndSlot (existing row : Subscription) : Bool :=
  row.updatedAt = existing.updatedAt ∧ row.lastTransactionId = existing.lastTransactionId

/-- What `applyPaidTerm` returns. -/
structure PaidTermResult where
  subscription : Subscription
  mode : PaidTermMode
  idempotent : Bool
  deriving DecidableEq, Repr

/-- The row `applyPaidTerm` works on, provisioned first when the tenant has none. -/
def findOrProvision (cfg : BillingConfig) (now : Int) :
    BillingProg (Except ApiError Subscription) := do
  match ← findSubscription with
  | some existing => return .ok existing
  | none =>
      match ← ensureForTenant cfg now with
      | .error e => return .error e
      | .ok created =>
          -- `findById(created.id)`
          match ← findSubscription with
          | some existing => return .ok existing
          | none => return .ok created

/-- `applyPaidTerm`. `historyFails` says whether the history or audit call after the write
throws. -/
def applyPaidTerm (cfg : BillingConfig) (req : PaidTermRequest) (historyFails : Bool) :
    BillingProg (Except ApiError PaidTermResult) := do
  match checkPaidTerm req with
  | .error e => return .error e
  | .ok () =>
      match ← findOrProvision cfg req.now with
      | .error e => return .error e
      | .ok existing =>
          match paidTermDecision cfg req existing with
          | .error e => return .error e
          | .ok none =>
              return .ok { subscription := existing, mode := .alreadyApplied, idempotent := true }
          | .ok (some (mode, patch)) =>
              match ← updateSubscription (.paidTerm req.transactionId)
                (sameStampAndSlot existing) patch with
              | some updated =>
                  if historyFails then
                    return .error { statusCode := 500, code := .internalError, message := "history" }
                  else
                    return .ok { subscription := updated, mode, idempotent := false }
              | none =>
                  match ← findSubscription with
                  | some fresh =>
                      if fresh.lastTransactionId = some req.transactionId then
                        return .ok
                          { subscription := fresh, mode := .alreadyApplied, idempotent := true }
                      else return .error changedConcurrently
                  | none => return .error changedConcurrently

/-! ## Queued changes of the workspace -/

/-- `scheduleChange` to another plan. -/
def scheduleChangeDecision (cfg : BillingConfig) (planId : PlanCode) (source : ChangeSource)
    (now : Int) (existing : Subscription) : Except ApiError (Option SubscriptionPatch) :=
  if existing.state = .restricted ∧ existing.adminHold = true then
    .error (.conflict "Subscription is under an administrative hold; contact support")
  else if termRunning cfg existing now then
    if existing.hasQueuedPayment then
      .error (.conflict
        "A prepaid term is already queued for the end of this term; contact support to change it")
    else .ok (some fun row => { row with
      scheduledChange := some
        { planId := planId, effectiveAt := existing.currentPeriodEnd, termEnd := none,
          interval := none, transactionId := none, source := source, requestedAt := some now } })
  else
    match assertTransition (some existing.state) .active with
    | .error e => .error e
    | .ok () => .ok (some fun row => { row with
        planId := planId
        previousPlanId := some existing.planId
        state := .active
        previousState := some existing.state
        currentPeriodStart := now
        currentPeriodEnd := addMonths now 1
        graceEndsAt := none
        canceledAt := none
        cancelAtPeriodEnd := false
        scheduledChange := none
        billingInterval := none
        stateChangedAt := some now })

/-- `clearScheduledChange`: a queued paid term is kept. -/
def clearScheduledChangeDecision (existing : Subscription) :
    Except ApiError (Option SubscriptionPatch) :=
  match existing.scheduledChange with
  | none => .ok none
  | some change =>
      if change.source = .payment then
        .error (.conflict "A prepaid term is queued; contact support to change it")
      else .ok (some fun row => { row with scheduledChange := none })

def clearScheduledChange : BillingProg (Except ApiError Subscription) :=
  readDecideWrite .clearScheduledChange clearScheduledChangeDecision sameStamp

/-- `scheduleChange`: choosing the current plan withdraws the queued change. -/
def scheduleChange (cfg : BillingConfig) (planId : PlanCode) (source : ChangeSource)
    (now : Int) : BillingProg (Except ApiError Subscription) := do
  if planId = "" then return .error (.badRequest "planId is required")
  else
    match ← findSubscription with
    | none => return .error noSubscription
    | some existing =>
        if existing.planId = planId then clearScheduledChange
        else
          match scheduleChangeDecision cfg planId source now existing with
          | .error e => return .error e
          | .ok none => return .ok existing
          | .ok (some patch) =>
              match ← updateSubscription .scheduleChange (sameStamp existing) patch with
              | none => return .error changedConcurrently
              | some updated => return .ok updated

/-! ## The lifecycle step -/

/-- `action` of a lifecycle step. -/
inductive LifecycleAction where
  | none
  | rolled
  | trialEnded
  | scheduledApplied
  | moved (state : SubscriptionState)
  deriving DecidableEq, Repr

def applyChangePatch (existing : Subscription) (change : ScheduledChange) (now : Int) :
    SubscriptionPatch := fun row => { row with
  planId := change.planId
  previousPlanId := some existing.planId
  state := .active
  currentPeriodStart := if isFreePlan change.planId then now else change.effectiveAt
  currentPeriodEnd :=
    if isFreePlan change.planId then addMonths now 1
    else change.termEnd.getD row.currentPeriodEnd
  billingInterval :=
    if isFreePlan change.planId then .none
    else change.interval.or existing.billingInterval
  lastTransactionId := change.transactionId.or existing.lastTransactionId
  scheduledChange := .none
  graceEndsAt := .none
  stateChangedAt := some now }

def endTrialPatch (existing : Subscription) (now : Int) : SubscriptionPatch :=
  fun row => { row with
    planId := defaultPlanCode
    previousPlanId := some existing.planId
    state := .active
    previousState := some .trialing
    currentPeriodStart := now
    currentPeriodEnd := addMonths now 1
    scheduledChange := .none
    billingInterval := .none
    stateChangedAt := some now }

def rollPatch (now : Int) : SubscriptionPatch := fun row => { row with
  state := .active
  currentPeriodStart := now
  currentPeriodEnd := addMonths now 1
  scheduledChange := .none }

/-- The patch that stores a computed `past_due`, `restricted` or `expired`. -/
def movePatch (existing : Subscription) (access : Access) (now : Int) : SubscriptionPatch :=
  fun row => { row with
    state := access.state
    previousState := some existing.state
    stateChangedAt := some now
    graceEndsAt := if access.state = .pastDue then access.graceEndsAt else row.graceEndsAt
    adminHold := if access.state = .restricted then false else row.adminHold }

/-- `advanceLifecycle` on the row it read: the action and, unless there is nothing to do,
the patch. -/
def lifecycleDecision (cfg : BillingConfig) (now : Int) (existing : Subscription) :
    Except ApiError (Option (LifecycleAction × SubscriptionPatch)) :=
  let access := accessAt cfg existing now
  if isFreePlan existing.planId then
    if existing.currentPeriodEnd ≤ now ∧ existing.state ≠ .restricted then
      .ok (some (.rolled, rollPatch now))
    else .ok .none
  else if existing.state = .trialing ∧ access.reason = some .trialEnded then
    .ok (some (.trialEnded, endTrialPatch existing now))
  else
    match existing.state, access.reason, existing.scheduledChange with
    | .active, some .scheduledChange, some change =>
        .ok (some (.scheduledApplied, applyChangePatch existing change now))
    | _, _, _ =>
        if access.state = existing.state then .ok .none
        else if access.state = .pastDue ∨ access.state = .restricted ∨ access.state = .expired then
          match assertTransition (some existing.state) access.state with
          | .error e => .error e
          | .ok () => .ok (some (.moved access.state, movePatch existing access now))
        else .ok .none

/-- `advanceLifecycle`. -/
def advanceLifecycle (cfg : BillingConfig) (now : Int) :
    BillingProg (Except ApiError (LifecycleAction × Option Subscription)) := do
  match ← findSubscription with
  | none => return .ok (.none, .none)
  | some existing =>
      match lifecycleDecision cfg now existing with
      | .error e => return .error e
      | .ok none => return .ok (.none, some existing)
      | .ok (some (action, patch)) =>
          match ← updateSubscription .lifecycle (sameStamp existing) patch with
          | none => return .error changedConcurrently
          | some updated => return .ok (action, some updated)

/-! ## What the decisions write -/

section Decisions

variable {cfg : BillingConfig} {now : Int} {existing : Subscription} {patch : SubscriptionPatch}

def LeavesState (patch : SubscriptionPatch) (row : Subscription) : Prop :=
  (patch row).state = row.state ∧ (patch row).adminHold = row.adminHold

theorem changePlanDecision_leaves {planId : PlanCode} {termEnd : Option Int}
    (decided : changePlanDecision planId termEnd now existing = .ok (some patch))
    (row : Subscription) : LeavesState patch row := by
  unfold changePlanDecision at decided
  split at decided
  · cases decided
  · dsimp only at decided
    split at decided
    · cases decided
    · cases decided
      exact ⟨rfl, rfl⟩

theorem cancelDecision_writes {immediate : Bool}
    (decided : cancelDecision immediate now existing = .ok (some patch)) :
    assertTransition (some existing.state) .canceled = .ok () ∧
      ∀ row, (patch row).state = .canceled := by
  unfold cancelDecision at decided
  split at decided
  · cases decided
  · split at decided
    · cases decided
    · split at decided
      · cases decided
      · split at decided
        · cases decided
        · split at decided
          · cases decided
          · rename_i asserted
            cases decided
            exact ⟨asserted, fun _ => rfl⟩

theorem reactivateDecision_writes {planId : Option PlanCode}
    (decided : reactivateDecision planId now existing = .ok (some patch)) (row : Subscription) :
    (patch row).state = .active := by
  unfold reactivateDecision at decided
  split at decided
  · cases decided
  · rw [assertTransition_active] at decided
    dsimp only at decided
    split at decided
    · cases decided
    · cases decided
      rfl

theorem setStateDecision_writes {req : SetStateRequest}
    (decided : setStateDecision req existing = .ok (some patch)) :
    assertTransition (some existing.state) req.state = .ok () ∧
      ∀ row, (patch row).state = req.state ∧ (patch row).adminHold =
        if req.state = .restricted then !req.system
        else if req.system then row.adminHold else false := by
  unfold setStateDecision at decided
  split at decided
  · cases decided
  · split at decided
    · cases decided
    · rename_i asserted
      split at decided
      · cases decided
      · cases decided
        exact ⟨asserted, fun row => ⟨rfl, rfl⟩⟩

theorem clearScheduledChangeDecision_leaves
    (decided : clearScheduledChangeDecision existing = .ok (some patch)) (row : Subscription) :
    LeavesState patch row := by
  unfold clearScheduledChangeDecision at decided
  split at decided
  · cases decided
  · split at decided
    · cases decided
    · cases decided
      exact ⟨rfl, rfl⟩

theorem scheduleChangeDecision_writes {planId : PlanCode} {source : ChangeSource}
    (decided : scheduleChangeDecision cfg planId source now existing = .ok (some patch))
    (row : Subscription) : LeavesState patch row ∨ (patch row).state = .active := by
  unfold scheduleChangeDecision at decided
  split at decided
  · cases decided
  · split at decided
    · split at decided
      · cases decided
      · cases decided
        exact .inl ⟨rfl, rfl⟩
    · rw [assertTransition_active] at decided
      cases decided
      exact .inr rfl

theorem paidTermMode_writes (req : PaidTermRequest) (row : Subscription) :
    LeavesState (paidTermMode cfg existing req).2 row ∨
      ((paidTermMode cfg existing req).2 row).state = .active := by
  unfold paidTermMode
  split
  · exact .inr rfl
  · split
    · exact .inl ⟨rfl, rfl⟩
    · exact .inr rfl

theorem paidTermDecision_eq {req : PaidTermRequest} {mode : PaidTermMode}
    (decided : paidTermDecision cfg req existing = .ok (some (mode, patch))) :
    ¬ (existing.state = .restricted ∧ existing.adminHold = true) ∧
      paidTermMode cfg existing req = (mode, patch) := by
  unfold paidTermDecision at decided
  split at decided
  · cases decided
  · split at decided
    · cases decided
    · rename_i free
      dsimp only at decided
      rw [assertTransition_active] at decided
      refine ⟨free, ?_⟩
      split at decided <;> simpa using decided

/-- A lifecycle step makes the row active or moves it along the graph, never to a hold. -/
theorem lifecycleDecision_writes {action : LifecycleAction}
    (decided : lifecycleDecision cfg now existing = .ok (some (action, patch))) :
    (∀ row, (patch row).state = .active) ∨
      ∃ target, assertTransition (some existing.state) target = .ok () ∧
        ∀ row, (patch row).state = target ∧ (target = .restricted → (patch row).adminHold = false) := by
  unfold lifecycleDecision at decided
  dsimp only at decided
  split at decided
  · split at decided
    · cases decided
      exact .inl fun _ => rfl
    · cases decided
  · split at decided
    · cases decided
      exact .inl fun _ => rfl
    · split at decided
      · cases decided
        exact .inl fun _ => rfl
      · split at decided
        · cases decided
        · split at decided
          · split at decided
            · cases decided
            · rename_i asserted
              cases decided
              refine .inr ⟨_, asserted, fun row => ⟨rfl, fun restricted => ?_⟩⟩
              simp [movePatch, restricted]
          · cases decided

end Decisions

/-! ## The service as a whole -/

/-- A call of one of the writing operations, with the arguments its callers choose. -/
inductive ServiceCall where
  | createForTenant (planId : PlanCode) (state : SubscriptionState) (trialDays : Option Int)
  | ensureForTenant
  | changePlan (planId : PlanCode) (termEnd : Option Int)
  | cancel (immediate : Bool)
  | reactivate (planId : Option PlanCode)
  | setState (state : SubscriptionState) (graceEndsAt periodEnd : Option Int) (reason : String)
      (system : Bool)
  | applyPaidTerm (planId : PlanCode) (interval : BillingInterval) (termMonths : Int)
      (transactionId : TransactionId) (historyFails : Bool)
  | scheduleChange (planId : PlanCode) (source : ChangeSource)
  | clearScheduledChange
  | advanceLifecycle
  deriving DecidableEq, Repr

/-- A program whose result nobody reads. -/
def ignored {A : Type} (p : BillingProg A) : BillingProg Unit := do
  let _ ← p
  return ()

/-- The program of a call made at `now`. -/
def ServiceCall.program (cfg : BillingConfig) (now : Int) : ServiceCall → BillingProg Unit
  | .createForTenant planId state trialDays =>
      ignored (Billing.createForTenant planId state trialDays now)
  | .ensureForTenant => ignored (Billing.ensureForTenant cfg now)
  | .changePlan planId termEnd => ignored (Billing.changePlan planId termEnd now)
  | .cancel immediate => ignored (Billing.cancel immediate now)
  | .reactivate planId => ignored (Billing.reactivate planId now)
  | .setState state graceEndsAt periodEnd reason system =>
      ignored (Billing.setState { state, graceEndsAt, periodEnd, reason, system, now })
  | .applyPaidTerm planId interval termMonths transactionId historyFails =>
      ignored (Billing.applyPaidTerm cfg { planId, interval, termMonths, transactionId, now }
        historyFails)
  | .scheduleChange planId source => ignored (Billing.scheduleChange cfg planId source now)
  | .clearScheduledChange => ignored Billing.clearScheduledChange
  | .advanceLifecycle => ignored (Billing.advanceLifecycle cfg now)

/-- A call run by itself at `now`. -/
def ServiceCall.perform (cfg : BillingConfig) (db : BillingDb) (now : Int) (call : ServiceCall) :
    BillingDb :=
  ((call.program cfg now).run { db with clock := now }).2

/-- The stores that calls of the service, one after the other, lead to. -/
inductive Reachable (cfg : BillingConfig) : BillingDb → Prop
  | init (tenant : Option Tenant) (clock : Int) :
      Reachable cfg { subscription := none, transactions := fun _ => none, tenant, clock }
  | call {db : BillingDb} (now : Int) (c : ServiceCall) :
      Reachable cfg db → db.clock ≤ now → Reachable cfg (c.perform cfg db now)

/-- A workspace with one month of `pro` bought on day 0. -/
def proMonth : BillingDb :=
  let db : BillingDb :=
    { subscription := none, transactions := fun _ => none,
      tenant := some { planId := none, status := .active, deleted := false }, clock := 0 }
  let db := ServiceCall.ensureForTenant.perform referenceConfig db 0
  (ServiceCall.applyPaidTerm "pro" .month 1 1 false).perform referenceConfig db 0

theorem proMonth_reachable : Reachable referenceConfig proMonth :=
  .call 0 _ (.call 0 _ (.init _ 0) (by decide)) (by decide)

/-- The clock moves on. -/
def later (t : Int) (c : Config Nat BillingLabel BillingDb Unit) :
    Config Nat BillingLabel BillingDb Unit :=
  c.move (.env { c.world.store with clock := t })

end AnalyticsBackend.Billing
