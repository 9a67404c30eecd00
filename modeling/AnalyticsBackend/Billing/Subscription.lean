import AnalyticsBackend.ApiError
import AnalyticsBackend.Billing.Plan
import AnalyticsBackend.Lib.Calendar

/-!
# Subscriptions

The stored row (`models/Subscription.js`), the state graph and the effective access of
`services/subscription.service.js`. There is one row per tenant (unique index on
`tenantId`) and every operation reads and writes the row of its own tenant, so the row
carries no tenant id here. Instants are milliseconds; the fields the schema marks
`required` are not optional.
-/

namespace AnalyticsBackend.Billing
open Lib.Calendar

/-- `SUBSCRIPTION_STATES`. -/
inductive SubscriptionState where
  | trialing
  | active
  | pastDue
  | canceled
  | expired
  | restricted
  deriving DecidableEq, Repr

/-- The stored spelling of a state. -/
def SubscriptionState.text : SubscriptionState → String
  | .trialing => "trialing"
  | .active => "active"
  | .pastDue => "past_due"
  | .canceled => "canceled"
  | .expired => "expired"
  | .restricted => "restricted"

/-- `scheduledChange.source`. -/
inductive ChangeSource where
  | workspace
  | payment
  | admin
  deriving DecidableEq, Repr

abbrev TransactionId := Nat

/-- `interval` of a prepaid term. -/
inductive BillingInterval where
  | month
  | year
  deriving DecidableEq, Repr

/-- The embedded `scheduledChange`: a queued downgrade, or a prepaid term queued after
the running one. -/
structure ScheduledChange where
  planId : PlanCode
  effectiveAt : Int
  termEnd : Option Int
  interval : Option BillingInterval
  transactionId : Option TransactionId
  source : ChangeSource
  requestedAt : Option Int
  deriving DecidableEq, Repr

structure Subscription where
  planId : PlanCode
  state : SubscriptionState
  trialEndsAt : Option Int
  currentPeriodStart : Int
  currentPeriodEnd : Int
  graceEndsAt : Option Int
  canceledAt : Option Int
  cancelAtPeriodEnd : Bool
  previousPlanId : Option PlanCode
  previousState : Option SubscriptionState
  stateChangedAt : Option Int
  billingInterval : Option BillingInterval
  lastTransactionId : Option TransactionId
  adminHold : Bool
  scheduledChange : Option ScheduledChange
  /-- Set by the `timestamps` option of the schema at every write. -/
  updatedAt : Int
  deriving DecidableEq, Repr

/-! ## The state graph -/

/-- The table of `assertTransition`: the states each state may move to. -/
def transitionTable : SubscriptionState → List SubscriptionState
  | .trialing => [.active, .canceled, .expired, .restricted, .pastDue]
  | .active => [.pastDue, .canceled, .restricted, .expired]
  | .pastDue => [.active, .canceled, .expired, .restricted]
  | .canceled => [.expired, .active, .restricted]
  | .expired => [.active, .restricted]
  | .restricted => [.active, .canceled]

/-- `assertTransition`: the same state again, a creation (`from = null`), or a move of
the table. The checks for unknown states are the type's. -/
def assertTransition (fromState : Option SubscriptionState) (target : SubscriptionState) :
    Except ApiError Unit :=
  match fromState with
  | none =>
      if target = .trialing ∨ target = .active ∨ target = .pastDue then .ok ()
      else .error (.conflict s!"Cannot create a subscription in state \"{target.text}\"")
  | some state =>
      if state = target then .ok ()
      else if target ∈ transitionTable state then .ok ()
      else .error (.conflict
        s!"Subscription transition \"{state.text}\" -> \"{target.text}\" is not allowed")

theorem assertTransition_active (state : SubscriptionState) :
    assertTransition (some state) .active = .ok () := by
  cases state <;> rfl

/-! ## Calendar -/

def dayMs : Int := 86400000

/-- `addMonths`: calendar months in UTC, clamped to the last day of the month. -/
def addMonths (date : Int) (months : Int) : Int :=
  let d := date
  let dayOfMonth := getUTCDate d
  let d := setUTCDate d 1
  let d := setUTCMonth d (getUTCMonth d + months)
  let last := getUTCDate (dateUTC (getUTCFullYear d) (getUTCMonth d + 1) 0)
  setUTCDate d (min dayOfMonth last)

/-- `defaultPeriodWindow`: 30 days from now. -/
def defaultPeriodEnd (now : Int) : Int := setUTCDate now (getUTCDate now + 30)

theorem lt_addMonths (date : Int) {months : Int} (h : 1 ≤ months) :
    date < addMonths date months := by
  unfold addMonths
  dsimp only
  generalize hlast : getUTCDate (dateUTC _ _ 0) = last
  have last_pos : 1 ≤ last := hlast ▸ getUTCDate_pos _
  have dom_pos := getUTCDate_pos date
  apply lt_of_day_lt (by simp)
  -- the term ends in a later month, the date lies before the end of its own
  have before := (monthOf_spec (day date)).2
  have later : monthStart (monthOf (day date) + 1) ≤ monthStart (monthOf (day date) + months) :=
    monthStart_strictMono.monotone (by omega)
  have first : getUTCDate (setUTCDate date 1) = 1 := by
    unfold getUTCDate
    simp
  simp only [day_setUTCDate, day_setUTCMonth_add, first, Int.add_sub_cancel, monthOf_monthStart]
  omega

/-! ## Effective access -/

/-- `reason` of a computed access. -/
inductive AccessReason where
  | noSubscription
  | adminHold
  | unpaid
  | trialEnded
  | canceled
  | scheduledChange
  | grace
  deriving DecidableEq, Repr

/-- The result of `computeAccess`. -/
structure Access where
  state : SubscriptionState
  planId : PlanCode
  writeBlocked : Bool
  inGrace : Bool := false
  graceEndsAt : Option Int := none
  periodEnded : Bool := false
  reason : Option AccessReason := none
  deriving DecidableEq, Repr

def blocksWrites (state : SubscriptionState) : Bool :=
  state = .expired ∨ state = .restricted

/-- The `result` helper of `computeAccess`, without the extra fields. -/
def Access.of (state : SubscriptionState) (planId : PlanCode) : Access :=
  { state, planId, writeBlocked := blocksWrites state }

/-- `Date.getTime() >= Date.getTime()` of the end of the stored period. -/
def Subscription.ended (sub : Subscription) (now : Int) : Bool := sub.currentPeriodEnd ≤ now

/-- The scheduled change that has taken over an ended active term at `now`, if any: a
move to the free plan, or a prepaid term that is still running. -/
def Subscription.dueChange (sub : Subscription) (now : Int) : Option ScheduledChange :=
  match sub.scheduledChange with
  | some change =>
      if change.planId ≠ "" ∧ change.effectiveAt ≤ now then
        if isFreePlan change.planId then some change
        else
          match change.termEnd with
          | some termEnd => if now < termEnd then some change else none
          | none => none
      else none
  | none => none

/-- When the grace window of a lapsed term ends: the stored end of a past-due row, else
`graceDays` after the period. -/
def Subscription.graceEnd (sub : Subscription) (graceDays : Int) : Int :=
  match sub.state, sub.graceEndsAt with
  | .pastDue, some stored => stored
  | _, _ => sub.currentPeriodEnd + max 0 graceDays * dayMs

/-- The tail of `computeAccess`: a lapsed paid term in its grace window, then restricted. -/
def graceAccess (sub : Subscription) (now graceDays : Int) : Access :=
  let graceEnd := sub.graceEnd graceDays
  if now < graceEnd then
    { Access.of .pastDue sub.planId with
      inGrace := true, graceEndsAt := some graceEnd, periodEnded := true, reason := some .grace }
  else
    { Access.of .restricted sub.planId with
      graceEndsAt := some graceEnd, periodEnded := true, reason := some .unpaid }

/-- `computeAccess` of a stored row: the state that is in force at `now`. -/
def computeAccessOf (sub : Subscription) (now graceDays : Int) : Access :=
  if isFreePlan sub.planId then
    if sub.state = .restricted ∧ sub.adminHold = true then
      { Access.of .restricted sub.planId with reason := some .adminHold }
    else .of .active sub.planId
  else
    match sub.state with
    | .restricted =>
        { Access.of .restricted sub.planId with
          reason := some (if sub.adminHold then .adminHold else .unpaid) }
    | .expired => { Access.of .expired sub.planId with periodEnded := true }
    | .trialing =>
        if now < sub.trialEndsAt.getD sub.currentPeriodEnd then .of .trialing sub.planId
        else
          { Access.of .active defaultPlanCode with
            periodEnded := true, reason := some .trialEnded }
    | .canceled =>
        if sub.ended now then
          { Access.of .expired sub.planId with periodEnded := true, reason := some .canceled }
        else .of .canceled sub.planId
    | .active =>
        if sub.ended now then
          match sub.dueChange now with
          | some change =>
              { Access.of .active change.planId with
                periodEnded := true, reason := some .scheduledChange }
          | none => graceAccess sub now graceDays
        else .of .active sub.planId
    | .pastDue => graceAccess sub now graceDays

/-- `computeAccess`: a tenant without a row is on the free plan. -/
def computeAccess (sub : Option Subscription) (now graceDays : Int) : Access :=
  match sub with
  | none => { Access.of .active defaultPlanCode with reason := some .noSubscription }
  | some sub => computeAccessOf sub now graceDays

/-- The access in force at `now`, with the grace days of the plan stored on the row, as
`resolveEffective` and `advanceLifecycle` compute it. -/
def accessAt (cfg : BillingConfig) (sub : Subscription) (now : Int) : Access :=
  computeAccessOf sub now (graceDaysFor cfg (resolveByCode cfg.catalogue sub.planId))

end AnalyticsBackend.Billing
