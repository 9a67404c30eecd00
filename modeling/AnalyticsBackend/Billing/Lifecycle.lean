import AnalyticsBackend.Billing.Service

/-!
# The lifecycle job on a stored row

`advanceLifecycle` run alone: what one run does to the row in each stored state, and runs
over a schedule of instants. `computeAccess` is restated state by state beside it, so that
later proofs compare the two without unfolding either.
-/

namespace AnalyticsBackend.Billing
open Lib Lib.Calendar

def Subscription.trialEnd (sub : Subscription) : Int := sub.trialEndsAt.getD sub.currentPeriodEnd

/-- The grace days `computeAccess` is given for a row: those of the plan stored on it. -/
def graceDaysOf (cfg : BillingConfig) (planId : PlanCode) : Int :=
  graceDaysFor cfg (resolveByCode cfg.catalogue planId)

def graceEndOf (cfg : BillingConfig) (sub : Subscription) : Int :=
  sub.graceEnd (graceDaysOf cfg sub.planId)

structure EffectiveAccess where
  state : SubscriptionState
  planId : PlanCode
  writeBlocked : Bool
  deriving DecidableEq, Repr

def Access.effective (access : Access) : EffectiveAccess :=
  { state := access.state, planId := access.planId, writeBlocked := access.writeBlocked }

def effectiveOf (state : SubscriptionState) (planId : PlanCode) : EffectiveAccess :=
  { state, planId, writeBlocked := blocksWrites state }

/-- The effective access at `now` on a stored row. -/
def effectiveAt (cfg : BillingConfig) (sub : Subscription) (now : Int) : EffectiveAccess :=
  (accessAt cfg sub now).effective

/-- The effective access of the tenant at `now`; without a row it is the free plan. -/
def BillingDb.effective (cfg : BillingConfig) (db : BillingDb) (now : Int) : EffectiveAccess :=
  match db.subscription with
  | none => (computeAccess none now cfg.defaultGraceDays).effective
  | some row => effectiveAt cfg row now

/-! ## `computeAccess` by stored state -/

section Access

variable {cfg : BillingConfig} {sub : Subscription} {now : Int}

theorem effectiveAt_free (free : isFreePlan sub.planId = true) (open_ : sub.state ≠ .restricted) :
    effectiveAt cfg sub now = effectiveOf .active sub.planId := by
  simp [effectiveAt, accessAt, computeAccessOf, free, open_, Access.of, Access.effective,
    effectiveOf]

theorem effectiveAt_restricted (paid : isFreePlan sub.planId = false)
    (state : sub.state = .restricted) :
    effectiveAt cfg sub now = effectiveOf .restricted sub.planId := by
  simp [effectiveAt, accessAt, computeAccessOf, paid, state, Access.of, Access.effective,
    effectiveOf]

theorem effectiveAt_expired (paid : isFreePlan sub.planId = false)
    (state : sub.state = .expired) :
    effectiveAt cfg sub now = effectiveOf .expired sub.planId := by
  simp [effectiveAt, accessAt, computeAccessOf, paid, state, Access.of, Access.effective,
    effectiveOf]

theorem effectiveAt_trialing (paid : isFreePlan sub.planId = false)
    (state : sub.state = .trialing) :
    effectiveAt cfg sub now =
      if now < sub.trialEnd then effectiveOf .trialing sub.planId
      else effectiveOf .active defaultPlanCode := by
  by_cases before : now < sub.trialEnd
  all_goals
    rw [Subscription.trialEnd] at before ⊢
    simp [effectiveAt, accessAt, computeAccessOf, paid, state, before, Access.of,
      Access.effective, effectiveOf]

theorem effectiveAt_canceled (paid : isFreePlan sub.planId = false)
    (state : sub.state = .canceled) :
    effectiveAt cfg sub now =
      if now < sub.currentPeriodEnd then effectiveOf .canceled sub.planId
      else effectiveOf .expired sub.planId := by
  by_cases before : now < sub.currentPeriodEnd
  · have open_ : sub.ended now = false := by simpa [Subscription.ended] using before
    simp [effectiveAt, accessAt, computeAccessOf, paid, state, before, open_, Access.of,
      Access.effective, effectiveOf]
  · have ended : sub.ended now = true := by simpa [Subscription.ended] using before
    simp [effectiveAt, accessAt, computeAccessOf, paid, state, before, ended, Access.of,
      Access.effective, effectiveOf]

theorem effective_graceAccess (sub : Subscription) (now graceDays : Int) :
    (graceAccess sub now graceDays).effective =
      if now < sub.graceEnd graceDays then effectiveOf .pastDue sub.planId
      else effectiveOf .restricted sub.planId := by
  unfold graceAccess
  by_cases before : now < sub.graceEnd graceDays <;>
    simp [before, Access.of, Access.effective, effectiveOf]

theorem effectiveAt_pastDue (paid : isFreePlan sub.planId = false)
    (state : sub.state = .pastDue) :
    effectiveAt cfg sub now =
      if now < graceEndOf cfg sub then effectiveOf .pastDue sub.planId
      else effectiveOf .restricted sub.planId := by
  rw [graceEndOf, ← effective_graceAccess]
  simp [effectiveAt, accessAt, computeAccessOf, paid, state, graceDaysOf]

theorem effectiveAt_active_running (paid : isFreePlan sub.planId = false)
    (state : sub.state = .active) (before : now < sub.currentPeriodEnd) :
    effectiveAt cfg sub now = effectiveOf .active sub.planId := by
  have open_ : sub.ended now = false := by simpa [Subscription.ended] using before
  simp [effectiveAt, accessAt, computeAccessOf, paid, state, open_, Access.of, Access.effective,
    effectiveOf]

theorem effectiveAt_active_due (paid : isFreePlan sub.planId = false)
    (state : sub.state = .active) (after : sub.currentPeriodEnd ≤ now) {change : ScheduledChange}
    (due : sub.dueChange now = some change) :
    effectiveAt cfg sub now = effectiveOf .active change.planId := by
  have ended : sub.ended now = true := by simpa [Subscription.ended] using after
  simp [effectiveAt, accessAt, computeAccessOf, paid, state, ended, due, Access.of,
    Access.effective, effectiveOf]

theorem effectiveAt_active_lapsed (paid : isFreePlan sub.planId = false)
    (state : sub.state = .active) (after : sub.currentPeriodEnd ≤ now)
    (due : sub.dueChange now = none) :
    effectiveAt cfg sub now =
      if now < graceEndOf cfg sub then effectiveOf .pastDue sub.planId
      else effectiveOf .restricted sub.planId := by
  have ended : sub.ended now = true := by simpa [Subscription.ended] using after
  rw [graceEndOf, ← effective_graceAccess]
  simp [effectiveAt, accessAt, computeAccessOf, paid, state, ended, due, graceDaysOf]

theorem dueChange_eq_some {change : ScheduledChange} :
    sub.dueChange now = some change ↔
      sub.scheduledChange = some change ∧ change.planId ≠ "" ∧ change.effectiveAt ≤ now ∧
        (isFreePlan change.planId = true ∨ ∃ termEnd, change.termEnd = some termEnd ∧ now < termEnd) := by
  unfold Subscription.dueChange
  cases queued : sub.scheduledChange with
  | none => simp
  | some other =>
      by_cases started : other.planId ≠ "" ∧ other.effectiveAt ≤ now
      · cases free : isFreePlan other.planId <;> cases bound : other.termEnd <;> grind
      · grind

end Access

/-! ## One run of the job -/

/-- The row that `advanceLifecycle` at `now` leaves. -/
def advanceRow (cfg : BillingConfig) (now : Int) (row : Subscription) : Subscription :=
  match lifecycleDecision cfg now row with
  | .ok (some (_, patch)) => { patch row with updatedAt := now }
  | _ => row

/-- One run of the job by itself, at the instant `now`. -/
def runJob (cfg : BillingConfig) (db : BillingDb) (now : Int) : BillingDb :=
  ((advanceLifecycle cfg now).run { db with clock := now }).2

/-- The job at each instant of a schedule, in order. -/
def runJobs (cfg : BillingConfig) (db : BillingDb) (schedule : List Int) : BillingDb :=
  schedule.foldl (runJob cfg) db

/-- Nothing else writes between the read and the write of a job that runs alone, so its
compare-and-set goes through. -/
theorem runJob_subscription (cfg : BillingConfig) {db : BillingDb} {row : Subscription}
    (now : Int) (stored : db.subscription = some row) :
    (runJob cfg db now).subscription = some (advanceRow cfg now row) := by
  unfold runJob advanceLifecycle advanceRow
  cases decision : lifecycleDecision cfg now row with
  | error e => simp [findSubscription, Prog.read, stored, decision]
  | ok step =>
      cases step with
      | none => simp [findSubscription, Prog.read, stored, decision]
      | some step =>
          obtain ⟨action, patch⟩ := step
          simp [findSubscription, updateSubscription, Prog.read, Prog.update, stored, decision,
            BillingDb.updateSubscription, BillingDb.updatedSubscription, sameStamp]

section Advance

variable {cfg : BillingConfig} {row : Subscription} {now : Int}

theorem advanceRow_free (free : isFreePlan row.planId = true) :
    advanceRow cfg now row =
      if row.currentPeriodEnd ≤ now ∧ row.state ≠ .restricted then
        { rollPatch now row with updatedAt := now }
      else row := by
  unfold advanceRow lifecycleDecision
  by_cases due : row.currentPeriodEnd ≤ now ∧ row.state ≠ .restricted <;> simp [free, due]

theorem advanceRow_restricted (state : row.state = .restricted) : advanceRow cfg now row = row := by
  cases free : isFreePlan row.planId <;>
    simp [advanceRow, lifecycleDecision, accessAt, computeAccessOf, free, state, Access.of]

theorem advanceRow_expired (paid : isFreePlan row.planId = false) (state : row.state = .expired) :
    advanceRow cfg now row = row := by
  simp [advanceRow, lifecycleDecision, accessAt, computeAccessOf, paid, state, Access.of]

theorem advanceRow_trialing (paid : isFreePlan row.planId = false) (state : row.state = .trialing) :
    advanceRow cfg now row =
      if now < row.trialEnd then row else { endTrialPatch row now row with updatedAt := now } := by
  by_cases before : now < row.trialEnd
  all_goals
    rw [Subscription.trialEnd] at before
    simp [advanceRow, lifecycleDecision, accessAt, computeAccessOf, paid, state, before, Access.of,
      Subscription.trialEnd]

theorem advanceRow_canceled (paid : isFreePlan row.planId = false) (state : row.state = .canceled) :
    advanceRow cfg now row =
      if now < row.currentPeriodEnd then row
      else { row with
        state := .expired, previousState := some .canceled, stateChangedAt := some now,
        updatedAt := now } := by
  by_cases before : now < row.currentPeriodEnd
  · have open_ : row.ended now = false := by simpa [Subscription.ended] using before
    simp [advanceRow, lifecycleDecision, accessAt, computeAccessOf, paid, state, before, open_,
      Access.of]
  · have ended : row.ended now = true := by simpa [Subscription.ended] using before
    simp [advanceRow, lifecycleDecision, accessAt, computeAccessOf, paid, state, before, ended,
      Access.of, assertTransition, transitionTable, movePatch]

/-- What the job writes when a lapsed term has nothing to take over: the start of the grace
window, or the restriction after it. -/
def lapsedRow (cfg : BillingConfig) (row : Subscription) (now : Int) : Subscription :=
  if now < graceEndOf cfg row then
    { row with
      state := .pastDue, previousState := some row.state, stateChangedAt := some now,
      graceEndsAt := some (graceEndOf cfg row), updatedAt := now }
  else
    { row with
      state := .restricted, previousState := some row.state, stateChangedAt := some now,
      adminHold := false, updatedAt := now }

theorem advanceRow_pastDue (paid : isFreePlan row.planId = false) (state : row.state = .pastDue) :
    advanceRow cfg now row = if now < graceEndOf cfg row then row else lapsedRow cfg row now := by
  by_cases before : now < graceEndOf cfg row
  · rw [if_pos before]
    rw [graceEndOf, graceDaysOf] at before
    simp [advanceRow, lifecycleDecision, accessAt, computeAccessOf, graceAccess, paid, state,
      before, Access.of]
  · rw [if_neg before, lapsedRow, if_neg before]
    rw [graceEndOf, graceDaysOf] at before
    simp [advanceRow, lifecycleDecision, accessAt, computeAccessOf, graceAccess, paid, state,
      before, Access.of, assertTransition, transitionTable, movePatch]

theorem advanceRow_active_running (paid : isFreePlan row.planId = false)
    (state : row.state = .active) (before : now < row.currentPeriodEnd) :
    advanceRow cfg now row = row := by
  have open_ : row.ended now = false := by simpa [Subscription.ended] using before
  simp [advanceRow, lifecycleDecision, accessAt, computeAccessOf, paid, state, open_, Access.of]

theorem advanceRow_active_due (paid : isFreePlan row.planId = false)
    (state : row.state = .active) (after : row.currentPeriodEnd ≤ now) {change : ScheduledChange}
    (due : row.dueChange now = some change) :
    advanceRow cfg now row = { applyChangePatch row change now row with updatedAt := now } := by
  have ended : row.ended now = true := by simpa [Subscription.ended] using after
  have queued := (dueChange_eq_some.mp due).1
  simp [advanceRow, lifecycleDecision, accessAt, computeAccessOf, paid, state, ended, due, queued]

theorem advanceRow_active_lapsed (paid : isFreePlan row.planId = false)
    (state : row.state = .active) (after : row.currentPeriodEnd ≤ now)
    (due : row.dueChange now = none) : advanceRow cfg now row = lapsedRow cfg row now := by
  have ended : row.ended now = true := by simpa [Subscription.ended] using after
  by_cases before : now < graceEndOf cfg row
  · rw [lapsedRow, if_pos before]
    rw [graceEndOf, graceDaysOf] at before ⊢
    simp [advanceRow, lifecycleDecision, accessAt, computeAccessOf, graceAccess, paid, state,
      ended, due, before, Access.of, assertTransition, transitionTable, movePatch]
  · rw [lapsedRow, if_neg before]
    rw [graceEndOf, graceDaysOf] at before
    simp [advanceRow, lifecycleDecision, accessAt, computeAccessOf, graceAccess, paid, state,
      ended, due, before, Access.of, assertTransition, transitionTable, movePatch]

end Advance

end AnalyticsBackend.Billing
