import AnalyticsBackend.Billing.Lifecycle

/-!
# The lifecycle job run late

`advanceLifecycle` is meant to persist what `computeAccess` already enforces. Here the
effective access at `t₂` on the row that the job leaves at `t₁` is compared with the one
on the row it found. They differ exactly where a queued change is read at two instants
that disagree about it: the job applied a prepaid term that has run out at `t₂`, or found
the change not yet due and moved the row to a state that no longer looks at it.
-/

namespace AnalyticsBackend.Billing
open Lib Lib.Calendar

/-- When the job at `t₁` keeps the access at `t₂`. Only a lapsed paid active term with a
queued change can lose it: a change in force at `t₁` is still in force at `t₂` (or names
the same plan, in the same grace phase), and one not in force at `t₁` is not in force
later. -/
def JobKeepsAccess (cfg : BillingConfig) (row : Subscription) (t₁ t₂ : Int) : Prop :=
  ∀ change, row.state = .active → isFreePlan row.planId = false → row.currentPeriodEnd ≤ t₁ →
    row.scheduledChange = some change → change.planId ≠ "" →
      if isFreePlan change.planId then change.effectiveAt ≤ t₁ ∨ t₂ < change.effectiveAt
      else
        ∀ termEnd, change.termEnd = some termEnd →
          if change.effectiveAt ≤ t₁ then
            t₁ < termEnd → termEnd ≤ t₂ →
              change.planId = row.planId ∧
                (t₂ < termEnd + max 0 (graceDaysOf cfg row.planId) * dayMs ↔
                  t₂ < row.currentPeriodEnd + max 0 (graceDaysOf cfg row.planId) * dayMs)
          else change.effectiveAt ≤ t₂ → termEnd ≤ t₂

section Rows

variable {cfg : BillingConfig} {row : Subscription} {t₁ t₂ : Int}

theorem jobKeepsAccess_due (state : row.state = .active) (paid : isFreePlan row.planId = false)
    (ended : row.currentPeriodEnd ≤ t₁) {change : ScheduledChange}
    (due : row.dueChange t₁ = some change) :
    JobKeepsAccess cfg row t₁ t₂ ↔
      (isFreePlan change.planId = false → ∀ termEnd, change.termEnd = some termEnd → termEnd ≤ t₂ →
        change.planId = row.planId ∧
          (t₂ < termEnd + max 0 (graceDaysOf cfg row.planId) * dayMs ↔
            t₂ < row.currentPeriodEnd + max 0 (graceDaysOf cfg row.planId) * dayMs)) := by
  obtain ⟨queued, named, started, running⟩ := dueChange_eq_some.mp due
  unfold JobKeepsAccess
  cases free : isFreePlan change.planId with
  | true => simp [queued, state, paid, ended, free, started]
  | false =>
      obtain ⟨bound, isBound, before⟩ : ∃ termEnd, change.termEnd = some termEnd ∧ t₁ < termEnd := by
        simpa [free] using running
      simp [queued, state, paid, ended, free, started, named, isBound, before]

theorem jobKeepsAccess_lapsed (state : row.state = .active) (paid : isFreePlan row.planId = false)
    (ended : row.currentPeriodEnd ≤ t₁) (later : t₁ ≤ t₂) (due : row.dueChange t₁ = none) :
    JobKeepsAccess cfg row t₁ t₂ ↔ row.dueChange t₂ = none := by
  have none_iff : row.dueChange t₂ = none ↔ ∀ change, row.dueChange t₂ ≠ some change := by
    rw [Option.eq_none_iff_forall_ne_some]
  have notDue : ∀ change, row.dueChange t₁ ≠ some change := by simp [due]
  simp only [none_iff, ne_eq, dueChange_eq_some] at notDue ⊢
  unfold JobKeepsAccess
  constructor
  · rintro keeps change ⟨queued, named, started, running⟩
    have condition := keeps change state paid ended queued named
    have earlier := notDue change
    cases free : isFreePlan change.planId with
    | true => grind
    | false => grind
  · intro none₂ change _ _ _ queued named
    have earlier := notDue change
    have later := none₂ change
    cases free : isFreePlan change.planId with
    | true => grind
    | false => grind

theorem lapsedRow_planId : (lapsedRow cfg row t₁).planId = row.planId := by
  unfold lapsedRow
  split <;> rfl

theorem effectiveAt_lapsedRow (paid : isFreePlan row.planId = false) (later : t₁ ≤ t₂) :
    effectiveAt cfg (lapsedRow cfg row t₁) t₂ =
      if t₂ < graceEndOf cfg row then effectiveOf .pastDue row.planId
      else effectiveOf .restricted row.planId := by
  have paid' : isFreePlan (lapsedRow cfg row t₁).planId = false := by rwa [lapsedRow_planId]
  by_cases before : t₁ < graceEndOf cfg row
  · have state : (lapsedRow cfg row t₁).state = .pastDue := by simp [lapsedRow, before]
    have window : (lapsedRow cfg row t₁).graceEndsAt = some (graceEndOf cfg row) := by
      simp [lapsedRow, before]
    have graceEnd : graceEndOf cfg (lapsedRow cfg row t₁) = graceEndOf cfg row := by
      rw [graceEndOf, Subscription.graceEnd, state, window]
    rw [effectiveAt_pastDue paid' state, graceEnd, lapsedRow_planId]
  · have state : (lapsedRow cfg row t₁).state = .restricted := by simp [lapsedRow, before]
    rw [effectiveAt_restricted paid' state, lapsedRow_planId, if_neg (by omega)]

theorem effectiveAt_applied_free {change : ScheduledChange} (free : isFreePlan change.planId = true) :
    effectiveAt cfg { applyChangePatch row change t₁ row with updatedAt := t₁ } t₂ =
      effectiveOf .active change.planId :=
  effectiveAt_free free (by simp [applyChangePatch])

theorem effectiveAt_applied_term {change : ScheduledChange} {termEnd : Int}
    (paid : isFreePlan change.planId = false) (bound : change.termEnd = some termEnd) :
    effectiveAt cfg { applyChangePatch row change t₁ row with updatedAt := t₁ } t₂ =
      if t₂ < termEnd then effectiveOf .active change.planId
      else if t₂ < termEnd + max 0 (graceDaysOf cfg change.planId) * dayMs then
        effectiveOf .pastDue change.planId
      else effectiveOf .restricted change.planId := by
  by_cases before : t₂ < termEnd
  · rw [if_pos before, effectiveAt_active_running paid rfl]
    · rfl
    · simpa [applyChangePatch, paid, bound] using before
  · rw [if_neg before, effectiveAt_active_lapsed paid rfl]
    · simp [applyChangePatch, graceEndOf, Subscription.graceEnd, paid, bound]
    · simpa [applyChangePatch, paid, bound] using before
    · simp [Subscription.dueChange, applyChangePatch]

theorem graceEndOf_active (state : row.state = .active) :
    graceEndOf cfg row =
      row.currentPeriodEnd + max 0 (graceDaysOf cfg row.planId) * dayMs := by
  simp [graceEndOf, Subscription.graceEnd, state]

theorem advance_due_iff (later : t₁ ≤ t₂) (state : row.state = .active)
    (paid : isFreePlan row.planId = false) (ended : row.currentPeriodEnd ≤ t₁)
    {change : ScheduledChange} (due : row.dueChange t₁ = some change) :
    effectiveAt cfg (advanceRow cfg t₁ row) t₂ = effectiveAt cfg row t₂ ↔
      JobKeepsAccess cfg row t₁ t₂ := by
  obtain ⟨queued, named, started, running⟩ := dueChange_eq_some.mp due
  rw [advanceRow_active_due paid state ended due, jobKeepsAccess_due state paid ended due]
  cases free : isFreePlan change.planId with
  | true =>
      -- the free plan has no end, so the change is in force for good
      have due₂ : row.dueChange t₂ = some change :=
        dueChange_eq_some.mpr ⟨queued, named, by omega, .inl free⟩
      simp [effectiveAt_applied_free free, effectiveAt_active_due paid state (by omega) due₂]
  | false =>
      obtain ⟨termEnd, bound, before⟩ : ∃ termEnd, change.termEnd = some termEnd ∧ t₁ < termEnd := by
        simpa [free] using running
      rw [effectiveAt_applied_term free bound]
      by_cases running : t₂ < termEnd
      · have due₂ : row.dueChange t₂ = some change :=
          dueChange_eq_some.mpr ⟨queued, named, by omega, .inr ⟨termEnd, bound, running⟩⟩
        rw [if_pos running, effectiveAt_active_due paid state (by omega) due₂]
        simp [bound]
        omega
      · -- the term that took running has run out: two different rows are in their grace phase
        have due₂ : row.dueChange t₂ = none := by
          rw [Option.eq_none_iff_forall_ne_some]
          intro other h
          obtain ⟨queued', -, -, running'⟩ := dueChange_eq_some.mp h
          grind
        rw [if_neg running, effectiveAt_active_lapsed paid state (by omega) due₂,
          graceEndOf_active state]
        simp only [bound, Option.some.injEq, forall_eq', forall_const]
        by_cases same : change.planId = row.planId
        · rw [same]
          simp only [true_and]
          split <;> split <;> simp [effectiveOf] <;> omega
        · have differ : ∀ s s', effectiveOf s change.planId ≠ effectiveOf s' row.planId := by
            intro s s' h
            exact same (congrArg EffectiveAccess.planId h)
          split <;> split <;> simp [differ, same] <;> omega

theorem advance_lapsed_iff (later : t₁ ≤ t₂) (state : row.state = .active)
    (paid : isFreePlan row.planId = false) (ended : row.currentPeriodEnd ≤ t₁)
    (due : row.dueChange t₁ = none) :
    effectiveAt cfg (advanceRow cfg t₁ row) t₂ = effectiveAt cfg row t₂ ↔
      JobKeepsAccess cfg row t₁ t₂ := by
  rw [advanceRow_active_lapsed paid state ended due,
    jobKeepsAccess_lapsed state paid ended later due, effectiveAt_lapsedRow paid later]
  cases due₂ : row.dueChange t₂ with
  | none =>
      rw [effectiveAt_active_lapsed paid state (by omega) due₂]
      simp
  | some change =>
      rw [effectiveAt_active_due paid state (by omega) due₂]
      split <;> simp [effectiveOf]

theorem advance_keeps (later : t₁ ≤ t₂)
    (other : isFreePlan row.planId = true ∨ row.state ≠ .active ∨ t₁ < row.currentPeriodEnd) :
    effectiveAt cfg (advanceRow cfg t₁ row) t₂ = effectiveAt cfg row t₂ := by
  cases free : isFreePlan row.planId with
  | true =>
      rw [advanceRow_free free]
      split
      case isTrue due =>
        have rolled : isFreePlan ({ rollPatch t₁ row with updatedAt := t₁ } : Subscription).planId =
            true := free
        rw [effectiveAt_free free due.2, effectiveAt_free rolled (by simp [rollPatch])]
        rfl
      case isFalse => rfl
  | false =>
      cases state : row.state with
      | restricted => rw [advanceRow_restricted state]
      | expired => rw [advanceRow_expired free state]
      | trialing =>
          rw [advanceRow_trialing free state]
          split
          case isTrue => rfl
          case isFalse ended =>
            rw [effectiveAt_trialing free state, if_neg (by omega)]
            exact effectiveAt_free rfl (by simp [endTrialPatch])
      | canceled =>
          rw [advanceRow_canceled free state]
          split
          case isTrue => rfl
          case isFalse ended =>
            rw [effectiveAt_canceled free state, if_neg (by omega)]
            exact effectiveAt_expired free rfl
      | pastDue =>
          rw [advanceRow_pastDue free state]
          split
          case isTrue => rfl
          case isFalse ended => rw [effectiveAt_lapsedRow free later, effectiveAt_pastDue free state]
      | active =>
          have running : t₁ < row.currentPeriodEnd := by
            rcases other with h | h | h
            · simp [free] at h
            · exact absurd state h
            · exact h
          rw [advanceRow_active_running free state running]

theorem advance_effective_iff (later : t₁ ≤ t₂) :
    effectiveAt cfg (advanceRow cfg t₁ row) t₂ = effectiveAt cfg row t₂ ↔
      JobKeepsAccess cfg row t₁ t₂ := by
  by_cases lapsed : isFreePlan row.planId = false ∧ row.state = .active ∧ row.currentPeriodEnd ≤ t₁
  · obtain ⟨paid, state, ended⟩ := lapsed
    cases due : row.dueChange t₁ with
    | some change => exact advance_due_iff later state paid ended due
    | none => exact advance_lapsed_iff later state paid ended due
  · have keeps : JobKeepsAccess cfg row t₁ t₂ := by
      intro change state paid ended
      exact absurd ⟨paid, state, ended⟩ lapsed
    have other : isFreePlan row.planId = true ∨ row.state ≠ .active ∨ t₁ < row.currentPeriodEnd := by
      cases free : isFreePlan row.planId with
      | true => exact .inl rfl
      | false =>
          by_cases state : row.state = .active
          · exact .inr (.inr (by simpa [free, state] using lapsed))
          · exact .inr (.inl state)
    have same : effectiveAt cfg (advanceRow cfg t₁ row) t₂ = effectiveAt cfg row t₂ :=
      advance_keeps later other
    exact ⟨fun _ => keeps, fun _ => same⟩

end Rows

/-! ## Runs of the job -/

/-- Every run of a schedule meets the condition on the row it finds, for a read at `t`. -/
def JobsKeepAccess (cfg : BillingConfig) (db : BillingDb) (t : Int) : List Int → Prop
  | [] => True
  | now :: rest =>
      (∀ row, db.subscription = some row → JobKeepsAccess cfg row now t) ∧
        JobsKeepAccess cfg (runJob cfg db now) t rest

theorem runJob_keeps_iff {cfg : BillingConfig} {db : BillingDb} {row : Subscription}
    (stored : db.subscription = some row) {t₁ t₂ : Int} (later : t₁ ≤ t₂) :
    (runJob cfg db t₁).effective cfg t₂ = db.effective cfg t₂ ↔ JobKeepsAccess cfg row t₁ t₂ := by
  have written := runJob_subscription cfg t₁ stored
  unfold BillingDb.effective
  rw [written, stored]
  exact advance_effective_iff later

/-- A schedule of runs, by induction: each run keeps the access that the next one finds. -/
theorem runJobs_keep {cfg : BillingConfig} {db : BillingDb} {row : Subscription}
    (stored : db.subscription = some row) {t : Int} {schedule : List Int}
    (before : ∀ now ∈ schedule, now ≤ t) (steps : JobsKeepAccess cfg db t schedule) :
    (runJobs cfg db schedule).effective cfg t = db.effective cfg t := by
  induction schedule generalizing db row with
  | nil => rfl
  | cons now rest ih =>
      obtain ⟨first, others⟩ := steps
      have here := (runJob_keeps_iff stored (before now List.mem_cons_self)).mpr (first row stored)
      have later := ih (runJob_subscription cfg now stored)
        (fun x hx => before x (List.mem_cons_of_mem _ hx)) others
      exact later.trans here

/-- A run of the job at `t₁` leaves the access at `t₂` as it was exactly when
`JobKeepsAccess` holds of the row, and so does every schedule whose runs all meet it. -/
theorem runJob_effective_iff (cfg : BillingConfig) (db : BillingDb) (row : Subscription)
    (stored : db.subscription = some row) :
    (∀ t₁ t₂, t₁ ≤ t₂ →
      ((runJob cfg db t₁).effective cfg t₂ = db.effective cfg t₂ ↔
        JobKeepsAccess cfg row t₁ t₂)) ∧
    ∀ t schedule, (∀ now ∈ schedule, now ≤ t) → JobsKeepAccess cfg db t schedule →
      (runJobs cfg db schedule).effective cfg t = db.effective cfg t :=
  ⟨fun _ _ later => runJob_keeps_iff stored later,
    fun _ _ before steps => runJobs_keep stored before steps⟩

/-- A workspace that bought one month of `pro` and then one month of `starter`, which waits
for the first to end. -/
def queuedStarter : BillingDb :=
  (ServiceCall.applyPaidTerm "starter" .month 1 2 false).perform referenceConfig proMonth 1000

set_option maxRecDepth 4000 in
theorem runJob_effective_iff_queuedStarter :
    (runJob referenceConfig queuedStarter (40 * dayMs)).effective referenceConfig (50 * dayMs) =
      queuedStarter.effective referenceConfig (50 * dayMs) := by
  obtain ⟨row, stored, ends, starts⟩ : ∃ row, queuedStarter.subscription = some row ∧
      row.scheduledChange.bind ScheduledChange.termEnd = some (59 * dayMs) ∧
        row.scheduledChange.map ScheduledChange.effectiveAt = some (31 * dayMs) :=
    ⟨_, rfl, by decide, by decide⟩
  apply ((runJob_effective_iff referenceConfig queuedStarter row stored).1 (40 * dayMs) (50 * dayMs)
    (by decide)).mpr
  intro change _ _ _ isChange _
  simp only [isChange, Option.bind_some, Option.map_some, Option.some.injEq] at ends starts
  split
  · exact .inl (by rw [starts]; decide)
  · intro termEnd bound
    rw [ends, Option.some.injEq] at bound
    rw [starts, ← bound, if_pos (by decide)]
    intro _ late
    exact absurd late (by decide)

set_option maxRecDepth 4000 in
/-- The job on day 40 puts `starter` in force, and on day 60 the workspace is in the grace
period of `starter`; without the job it is restricted on `pro`, whose own grace period is
over. -/
theorem late_job_changes_access :
    ¬ ∀ cfg db, Reachable cfg db → ∀ t₁ t₂, t₁ ≤ t₂ →
      (runJob cfg db t₁).effective cfg t₂ = db.effective cfg t₂ := by
  intro same
  have reachable : Reachable referenceConfig queuedStarter :=
    .call 1000 _ proMonth_reachable (by decide)
  have equal := same referenceConfig queuedStarter reachable (40 * dayMs) (60 * dayMs) (by decide)
  revert equal
  decide

end AnalyticsBackend.Billing
