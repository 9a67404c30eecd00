import AnalyticsBackend.Billing.Lifecycle

/-!
# A paid term is served

What a customer gets for a captured payment: after `applyPaidTerm` there is a contiguous
interval of the months bought in which the effective access is on the plan bought, however
the lifecycle job is scheduled. A term that starts now or extends the running one is
always served. A term that is queued behind the running one is served only when the stored
state is one in which the queue is looked at.
-/

namespace AnalyticsBackend.Billing
open Lib Lib.Calendar

/-- The access that a paid plan gives: on that plan, with writes allowed. -/
def Serves (planId : PlanCode) (access : EffectiveAccess) : Prop :=
  access.planId = planId ∧ access.writeBlocked = false

/-- The jobs of a schedule that ran before a read at `t` (a job at `t` itself may run
before or after the read). -/
def RanBefore (t : Int) (schedule ran : List Int) : Prop :=
  ∃ rest, schedule = ran ++ rest ∧ (∀ now ∈ ran, now ≤ t) ∧ ∀ now ∈ rest, t ≤ now

/-- For every schedule of jobs from `now` on there is an interval of `months` months, from
`now` or from the end of the term that was running, throughout which `planId` is served. -/
def TermKept (cfg : BillingConfig) (db : BillingDb) (planId : PlanCode) (months now : Int)
    (running : Option Int) : Prop :=
  ∀ schedule : List Int, schedule.Pairwise (· ≤ ·) → (∀ t ∈ schedule, now ≤ t) →
    ∃ start, (start = now ∨ running = some start) ∧ now ≤ start ∧
      ∀ t, start ≤ t → t < addMonths start months → ∀ ran, RanBefore t schedule ran →
        Serves planId ((runJobs cfg db ran).effective cfg t)

/-- The end of the term in force at `now`, if one is. -/
def runningEnd (cfg : BillingConfig) (row : Subscription) (now : Int) : Option Int :=
  if termRunning cfg row now then some row.currentPeriodEnd else none

/-- A purchase that is queued: another plan of the same or a lower tier, bought while a
term is in force. -/
def Waits (cfg : BillingConfig) (row : Subscription) (req : PaidTermRequest) : Prop :=
  termRunning cfg row req.now = true ∧ row.planId ≠ req.planId ∧
    tierOfCode cfg req.planId ≤ tierOfCode cfg row.planId

instance (cfg : BillingConfig) (row : Subscription) (req : PaidTermRequest) :
    Decidable (Waits cfg row req) := by
  unfold Waits
  infer_instance

/-- The queue slot a waiting purchase gets: the start, and the end it counts its months
from. -/
def queueSlot (row : Subscription) (planId : PlanCode) : Int × Int :=
  (sameQueued row planId).getD (row.currentPeriodEnd, row.currentPeriodEnd)

/-- When a purchase is served. A queued one needs a row whose queue is looked at when the
running term ends: an active one, whose slot covers the months from then on, or (for the
free plan) a trial that has ended by then. -/
def TermServed (cfg : BillingConfig) (row : Subscription) (req : PaidTermRequest) : Prop :=
  Waits cfg row req →
    (row.state = .active ∧
      (queueSlot row req.planId).1 ≤ max req.now row.currentPeriodEnd ∧
      (isFreePlan req.planId = true ∨
        addMonths (max req.now row.currentPeriodEnd) req.termMonths ≤
          addMonths (queueSlot row req.planId).2 req.termMonths)) ∨
    (row.state = .trialing ∧ isFreePlan req.planId = true ∧
      row.trialEnd ≤ row.currentPeriodEnd)

/-! ## Invariants of the job -/

/-- The row is active on `planId` at least until `termEnd` (for good on the free plan). -/
structure ServesUntil (planId : PlanCode) (termEnd : Int) (row : Subscription) : Prop where
  plan : row.planId = planId
  state : row.state = .active
  covered : isFreePlan planId = true ∨ termEnd ≤ row.currentPeriodEnd

/-- The row serves another plan until `start`, and has `planId` queued from then to
`termEnd`. -/
structure QueuedUntil (planId : PlanCode) (start termEnd : Int) (row : Subscription) : Prop where
  paid : isFreePlan row.planId = false
  state : row.state = .active
  ends : row.currentPeriodEnd ≤ start
  named : planId ≠ ""
  queued : ∃ change, row.scheduledChange = some change ∧ change.planId = planId ∧
    change.effectiveAt ≤ start ∧ (isFreePlan planId = true ∨ change.termEnd = some termEnd)

/-- A trial that ends on the free plan by `start`. -/
structure TrialUntil (start : Int) (row : Subscription) : Prop where
  paid : isFreePlan row.planId = false
  state : row.state = .trialing
  ends : row.trialEnd ≤ start

section Rows

variable {cfg : BillingConfig} {row : Subscription} {planId : PlanCode} {start termEnd t : Int}

theorem serves_active : Serves planId (effectiveOf .active planId) := ⟨rfl, rfl⟩

theorem ServesUntil.serves (h : ServesUntil planId termEnd row) (before : t < termEnd) :
    Serves planId (effectiveAt cfg row t) := by
  obtain ⟨rfl, state, covered⟩ := h
  cases free : isFreePlan row.planId with
  | true =>
      rw [effectiveAt_free free (by simp [state])]
      exact serves_active
  | false =>
      have running : termEnd ≤ row.currentPeriodEnd := by simpa [free] using covered
      rw [effectiveAt_active_running free state (by omega)]
      exact serves_active

theorem ServesUntil.advance (h : ServesUntil planId termEnd row) (before : t < termEnd) :
    ServesUntil planId termEnd (advanceRow cfg t row) := by
  cases free : isFreePlan row.planId with
  | true =>
      rw [advanceRow_free free]
      split
      case isTrue => exact ⟨h.plan, rfl, .inl (h.plan ▸ free)⟩
      case isFalse => exact h
  | false =>
      have running : termEnd ≤ row.currentPeriodEnd := by
        have covered := h.covered
        rw [← h.plan, free] at covered
        simpa using covered
      rw [advanceRow_active_running free h.state (by omega)]
      exact h

theorem QueuedUntil.due (h : QueuedUntil planId start termEnd row) (from_ : start ≤ t)
    (before : t < termEnd) :
    ∃ change, row.dueChange t = some change ∧ change.planId = planId ∧
      (isFreePlan planId = true ∨ change.termEnd = some termEnd) := by
  obtain ⟨change, queued, plan, effective, bound⟩ := h.queued
  refine ⟨change, ?_, plan, bound⟩
  apply dueChange_eq_some.mpr
  refine ⟨queued, plan ▸ h.named, by omega, ?_⟩
  rw [plan]
  exact bound.imp id (fun b => ⟨termEnd, b, before⟩)

theorem QueuedUntil.serves (h : QueuedUntil planId start termEnd row) (from_ : start ≤ t)
    (before : t < termEnd) : Serves planId (effectiveAt cfg row t) := by
  obtain ⟨change, due, plan, -⟩ := h.due from_ before
  have ended := h.ends
  rw [effectiveAt_active_due h.paid h.state (by omega) due, plan]
  exact serves_active

/-- The job leaves the row as it is while the old term runs, and then puts the queued one
in force. -/
theorem QueuedUntil.advance (h : QueuedUntil planId start termEnd row)
    (place : t < row.currentPeriodEnd ∨ start ≤ t) (before : t < termEnd) :
    QueuedUntil planId start termEnd (advanceRow cfg t row) ∧
        (advanceRow cfg t row).currentPeriodEnd = row.currentPeriodEnd ∨
      ServesUntil planId termEnd (advanceRow cfg t row) := by
  rcases place with running | from_
  · left
    rw [advanceRow_active_running h.paid h.state running]
    exact ⟨h, rfl⟩
  · right
    obtain ⟨change, due, plan, bound⟩ := h.due from_ before
    have ended := h.ends
    rw [advanceRow_active_due h.paid h.state (by omega) due]
    refine ⟨plan, rfl, ?_⟩
    cases free : isFreePlan planId with
    | true => exact .inl rfl
    | false =>
        right
        have boundIs : change.termEnd = some termEnd := by simpa [free] using bound
        simp [applyChangePatch, plan, free, boundIs]

theorem TrialUntil.serves (h : TrialUntil start row) (from_ : start ≤ t) :
    Serves defaultPlanCode (effectiveAt cfg row t) := by
  have ended := h.ends
  rw [effectiveAt_trialing h.paid h.state, if_neg (by omega)]
  exact serves_active

theorem TrialUntil.advance (h : TrialUntil start row) :
    TrialUntil start (advanceRow cfg t row) ∨
      ServesUntil defaultPlanCode termEnd (advanceRow cfg t row) := by
  rw [advanceRow_trialing h.paid h.state]
  split
  case isTrue => exact .inl h
  case isFalse => exact .inr ⟨rfl, rfl, .inl rfl⟩

end Rows

/-! ## Runs of the job -/

section Runs

variable {cfg : BillingConfig} {planId : PlanCode} {start termEnd now : Int}

/-- An invariant of the stored row that the job keeps at every instant of a schedule holds
after the schedule. -/
theorem runJobs_invariant {P : Subscription → Prop} {when_ : Int → Prop}
    (step : ∀ row t, P row → when_ t → P (advanceRow cfg t row)) {db : BillingDb}
    {row : Subscription} (stored : db.subscription = some row) (initial : P row)
    {schedule : List Int} (instants : ∀ t ∈ schedule, when_ t) :
    ∃ row', (runJobs cfg db schedule).subscription = some row' ∧ P row' := by
  induction schedule generalizing db row with
  | nil => exact ⟨row, stored, initial⟩
  | cons t rest ih =>
      exact ih (runJob_subscription cfg t stored)
        (step row t initial (instants t List.mem_cons_self))
        (fun x hx => instants x (List.mem_cons_of_mem _ hx))

theorem effective_of_row {db : BillingDb} {row : Subscription} (stored : db.subscription = some row)
    (t : Int) : db.effective cfg t = effectiveAt cfg row t := by
  unfold BillingDb.effective
  rw [stored]

theorem termKept_of_invariant {P : Subscription → Prop} {db : BillingDb} {row : Subscription}
    {months : Int} {running : Option Int} (stored : db.subscription = some row) (initial : P row)
    (step : ∀ row t, P row → now ≤ t ∧ t < addMonths start months → P (advanceRow cfg t row))
    (serves : ∀ row t, P row → start ≤ t → t < addMonths start months →
      Serves planId (effectiveAt cfg row t))
    (start_eq : start = now ∨ running = some start) (from_ : now ≤ start) :
    TermKept cfg db planId months now running := by
  intro schedule _ later
  refine ⟨start, start_eq, from_, ?_⟩
  rintro t after before ran ⟨rest, rfl, ranBefore, -⟩
  have instants : ∀ x ∈ ran, now ≤ x ∧ x < addMonths start months := by
    intro x hx
    exact ⟨later x (List.mem_append_left _ hx), lt_of_le_of_lt (ranBefore x hx) before⟩
  obtain ⟨row', stored', invariant⟩ := runJobs_invariant step stored initial instants
  rw [effective_of_row stored']
  exact serves row' t invariant after before

theorem TermKept.without_jobs {db : BillingDb} {row : Subscription} {months : Int}
    {running : Option Int} (kept : TermKept cfg db planId months now running)
    (stored : db.subscription = some row) :
    ∃ start, (start = now ∨ running = some start) ∧ now ≤ start ∧
      ∀ t, start ≤ t → t < addMonths start months → Serves planId (effectiveAt cfg row t) := by
  obtain ⟨start, start_eq, from_, serves⟩ := kept [] List.Pairwise.nil (by simp)
  refine ⟨start, start_eq, from_, ?_⟩
  intro t after before
  have served := serves t after before [] ⟨[], rfl, by simp, by simp⟩
  rwa [runJobs, List.foldl_nil, effective_of_row stored] at served

theorem termKept_of_servesUntil {db : BillingDb} {row : Subscription} {months : Int}
    {running : Option Int} (stored : db.subscription = some row)
    (initial : ServesUntil planId (addMonths start months) row)
    (start_eq : start = now ∨ running = some start) (from_ : now ≤ start) :
    TermKept cfg db planId months now running :=
  termKept_of_invariant stored initial (fun _ _ h bounds => h.advance bounds.2)
    (fun _ _ h _ before => h.serves before) start_eq from_

theorem termKept_of_queuedUntil {db : BillingDb} {row : Subscription} {months : Int}
    {running : Option Int} (stored : db.subscription = some row)
    (initial : QueuedUntil planId start termEnd row)
    (covers : addMonths start months ≤ termEnd ∨ isFreePlan planId = true)
    (start_is : start = max now row.currentPeriodEnd)
    (start_eq : start = now ∨ running = some start) :
    TermKept cfg db planId months now running := by
  -- the free plan is served for good, so any end of the term will do for it
  have initial' : QueuedUntil planId start (max termEnd (addMonths start months)) row := by
    obtain ⟨paid, state, ends, named, change, queued, plan, effective, bound⟩ := initial
    refine ⟨paid, state, ends, named, change, queued, plan, effective, ?_⟩
    rcases covers with covers | free
    · rwa [max_eq_left covers]
    · exact .inl free
  refine termKept_of_invariant (P := fun row' =>
    QueuedUntil planId start (max termEnd (addMonths start months)) row' ∧
        row'.currentPeriodEnd = row.currentPeriodEnd ∨
      ServesUntil planId (max termEnd (addMonths start months)) row') stored (.inl ⟨initial', rfl⟩)
    ?_ ?_ start_eq (by omega)
  · rintro row' t (⟨h, ends⟩ | h) ⟨from_, before⟩
    · have place : t < row'.currentPeriodEnd ∨ start ≤ t := by omega
      rcases h.advance place (by omega) with ⟨h', ends'⟩ | h'
      · exact .inl ⟨h', ends'.trans ends⟩
      · exact .inr h'
    · exact .inr (h.advance (by omega))
  · rintro row' t (⟨h, -⟩ | h) from_ before
    · exact h.serves from_ (by omega)
    · exact h.serves (by omega)

theorem termKept_of_trialUntil {db : BillingDb} {row : Subscription} {months : Int}
    {running : Option Int} (stored : db.subscription = some row) (initial : TrialUntil start row)
    (start_eq : start = now ∨ running = some start) (from_ : now ≤ start) :
    TermKept cfg db defaultPlanCode months now running := by
  refine termKept_of_invariant (P := fun row' =>
    TrialUntil start row' ∨ ServesUntil defaultPlanCode (addMonths start months) row') stored
    (.inl initial) ?_ ?_ start_eq from_
  · rintro row' t (h | h) ⟨-, before⟩
    · exact h.advance
    · exact .inr (h.advance before)
  · rintro row' t (h | h) after before
    · exact h.serves after
    · exact h.serves before

end Runs

/-! ## The three kinds of purchase -/

section Purchase

variable {cfg : BillingConfig} {row : Subscription} {req : PaidTermRequest}

theorem termRunning_cases {now : Int} (running : termRunning cfg row now = true) :
    isFreePlan row.planId = false ∧
      (row.state = .active ∨ row.state = .trialing ∧ now < row.trialEnd ∨
        row.state = .canceled) := by
  have paid : isFreePlan row.planId = false := by
    cases free : isFreePlan row.planId with
    | true => simp [termRunning, free] at running
    | false => rfl
  have inForce : ((effectiveAt cfg row now).state = .active ∨
      (effectiveAt cfg row now).state = .trialing ∨ (effectiveAt cfg row now).state = .canceled) ∧
        (effectiveAt cfg row now).planId = row.planId := by
    simpa [termRunning, paid, or_assoc, effectiveAt, Access.effective] using running
  refine ⟨paid, ?_⟩
  cases state : row.state with
  | active => exact .inl rfl
  | canceled => exact .inr (.inr rfl)
  | trialing =>
      refine .inr (.inl ⟨rfl, ?_⟩)
      by_contra passed
      rw [effectiveAt_trialing paid state, if_neg passed] at inForce
      simp [← inForce.2, effectiveOf] at paid
  | pastDue =>
      rw [effectiveAt_pastDue paid state] at inForce
      split at inForce <;> simp [effectiveOf] at inForce
  | expired =>
      rw [effectiveAt_expired paid state] at inForce
      simp [effectiveOf] at inForce
  | restricted =>
      rw [effectiveAt_restricted paid state] at inForce
      simp [effectiveOf] at inForce

theorem start_of_running (running : termRunning cfg row req.now = true) :
    max req.now row.currentPeriodEnd = req.now ∨
      runningEnd cfg row req.now = some (max req.now row.currentPeriodEnd) := by
  unfold runningEnd
  rw [if_pos running]
  rcases le_total req.now row.currentPeriodEnd with h | h
  · exact .inr (by rw [max_eq_right h])
  · exact .inl (max_eq_left h)

/-- What a successful application wrote. -/
theorem applyPaidTerm_applied {db db' : BillingDb} {historyFails : Bool} {result : PaidTermResult}
    (stored : db.subscription = some row)
    (applied : (applyPaidTerm cfg req historyFails).run db = (.ok result, db'))
    (fresh : result.mode ≠ .alreadyApplied) :
    req.planId ≠ "" ∧ 1 ≤ req.termMonths ∧
      db'.subscription =
        some { (paidTermMode cfg row req).2 row with updatedAt := db.clock } := by
  unfold applyPaidTerm at applied
  cases checked : checkPaidTerm req with
  | error e => simp [checked] at applied
  | ok _ =>
      have arguments : req.planId ≠ "" ∧ 1 ≤ req.termMonths := by
        unfold checkPaidTerm at checked
        split at checked
        · simp at checked
        · split at checked
          · simp at checked
          · exact ⟨by assumption, by omega⟩
      refine ⟨arguments.1, arguments.2, ?_⟩
      rw [checked] at applied
      cases decision : paidTermDecision cfg req row with
      | error e =>
          simp [findOrProvision, findSubscription, Prog.read, stored, decision] at applied
      | ok step =>
          cases step with
          | none =>
              simp [findOrProvision, findSubscription, Prog.read, stored, decision] at applied
              exact absurd (applied.1 ▸ rfl) fresh
          | some step =>
              have mode : step = paidTermMode cfg row req := by
                unfold paidTermDecision at decision
                grind
              subst mode
              cases historyFails
              all_goals
                simp [findOrProvision, findSubscription, updateSubscription, Prog.read, Prog.update,
                  stored, decision, BillingDb.updateSubscription, BillingDb.updatedSubscription,
                  sameStampAndSlot] at applied
              rw [← applied.2]

theorem termKept_renewed {db : BillingDb} {clock : Int}
    (running : termRunning cfg row req.now = true) (same : row.planId = req.planId)
    (stored : db.subscription = some { renewPatch row req row with updatedAt := clock }) :
    TermKept cfg db req.planId req.termMonths req.now (runningEnd cfg row req.now) :=
  termKept_of_servesUntil stored ⟨same, rfl, .inr (le_refl _)⟩ (start_of_running running)
    (le_max_left _ _)

theorem termKept_started {db : BillingDb} {clock : Int}
    (stored : db.subscription = some { startPatch row req row with updatedAt := clock }) :
    TermKept cfg db req.planId req.termMonths req.now (runningEnd cfg row req.now) :=
  termKept_of_servesUntil stored ⟨rfl, rfl, .inr (le_refl _)⟩ (.inl rfl) (le_refl _)

def queuedRow (row : Subscription) (req : PaidTermRequest) (clock : Int) : Subscription :=
  { queuePatch row req row with updatedAt := clock }

theorem termKept_queued {db : BillingDb} {clock : Int} (waits : Waits cfg row req)
    (named : req.planId ≠ "") (stored : db.subscription = some (queuedRow row req clock))
    (served : TermServed cfg row req) :
    TermKept cfg db req.planId req.termMonths req.now (runningEnd cfg row req.now) := by
  obtain ⟨paid, states⟩ := termRunning_cases waits.1
  rcases served waits with ⟨state, starts, covers⟩ | ⟨state, free, ends⟩
  · have queued : QueuedUntil req.planId (max req.now row.currentPeriodEnd)
        (addMonths (queueSlot row req.planId).2 req.termMonths) (queuedRow row req clock) :=
      ⟨paid, state, le_max_right _ _, named, queuedTerm row req, rfl, rfl, starts, .inr rfl⟩
    exact termKept_of_queuedUntil stored queued (covers.symm) rfl (start_of_running waits.1)
  · have trial : TrialUntil row.currentPeriodEnd (queuedRow row req clock) := ⟨paid, state, ends⟩
    have before : req.now < row.trialEnd := by simpa [state] using states
    have isFree : req.planId = defaultPlanCode := by simpa [isFreePlan] using free
    have start_eq : runningEnd cfg row req.now = some row.currentPeriodEnd := by
      rw [runningEnd, if_pos waits.1]
    rw [isFree]
    exact termKept_of_trialUntil stored trial (.inr start_eq) (by omega)

theorem queued_active_due {clock t : Int} (waits : Waits cfg row req) (state : row.state = .active)
    (serves : Serves req.planId (effectiveAt cfg (queuedRow row req clock) t)) :
    row.currentPeriodEnd ≤ t ∧ (queueSlot row req.planId).1 ≤ t ∧
      (isFreePlan req.planId = true ∨ t < addMonths (queueSlot row req.planId).2 req.termMonths) := by
  have paid : isFreePlan (queuedRow row req clock).planId = false := (termRunning_cases waits.1).1
  have active : (queuedRow row req clock).state = .active := state
  by_cases ended : row.currentPeriodEnd ≤ t
  · cases due : (queuedRow row req clock).dueChange t with
    | none =>
        rw [effectiveAt_active_lapsed paid active ended due] at serves
        split at serves <;> exact absurd serves.1 waits.2.1
    | some change =>
        obtain ⟨queued, -, started, running⟩ := dueChange_eq_some.mp due
        have change_eq : queuedTerm row req = change := Option.some.inj queued
        subst change_eq
        refine ⟨ended, started, running.imp id ?_⟩
        rintro ⟨termEnd, bound, before⟩
        rw [← Option.some.inj bound] at before
        exact before
  · rw [effectiveAt_active_running paid active (by exact not_le.mp ended)] at serves
    exact absurd serves.1 waits.2.1

/-- A queued purchase that is served meets the condition: reading the row alone, without
any job, shows it. -/
theorem termServed_of_queued {db : BillingDb} {clock : Int} (months : 1 ≤ req.termMonths)
    (stored : db.subscription = some (queuedRow row req clock))
    (kept : TermKept cfg db req.planId req.termMonths req.now (runningEnd cfg row req.now)) :
    TermServed cfg row req := by
  intro waits
  obtain ⟨paid, states⟩ := termRunning_cases waits.1
  obtain ⟨start, start_eq, from_, serves⟩ := kept.without_jobs stored
  have nonempty : start < addMonths start req.termMonths := lt_addMonths start months
  have first := serves start (le_refl _) nonempty
  have ends : start = req.now ∨ row.currentPeriodEnd = start := by
    simpa [runningEnd, waits.1] using start_eq
  have paid' : isFreePlan (queuedRow row req clock).planId = false := paid
  rcases states with state | ⟨state, before⟩ | state
  · left
    obtain ⟨ended, starts, -⟩ := queued_active_due waits state first
    have start_is : start = max req.now row.currentPeriodEnd := by omega
    refine ⟨state, start_is ▸ starts, ?_⟩
    cases free : isFreePlan req.planId with
    | true => exact .inl rfl
    | false =>
        right
        rw [← start_is]
        by_contra short
        -- the instant at which the queued term has run out too early
        have last := serves (max start (addMonths (queueSlot row req.planId).2 req.termMonths))
          (le_max_left _ _) (by omega)
        obtain ⟨-, -, running⟩ := queued_active_due waits state last
        rw [free] at running
        simp only [Bool.false_eq_true, false_or] at running
        omega
  · right
    rw [effectiveAt_trialing paid' state] at first
    split at first
    case isTrue => exact absurd first.1 waits.2.1
    case isFalse passed =>
      have free : req.planId = defaultPlanCode := first.1.symm
      have passed' : row.trialEnd ≤ start := not_lt.mp passed
      exact ⟨state, by simp [free], by omega⟩
  · rw [effectiveAt_canceled paid' state] at first
    split at first <;> exact absurd first.1 waits.2.1

theorem paidTermMode_cases (cfg : BillingConfig) (row : Subscription) (req : PaidTermRequest) :
    (termRunning cfg row req.now = true ∧ row.planId = req.planId ∧
        (paidTermMode cfg row req).2 = renewPatch row req) ∨
      (Waits cfg row req ∧ (paidTermMode cfg row req).2 = queuePatch row req) ∨
      (¬ Waits cfg row req ∧ (paidTermMode cfg row req).2 = startPatch row req) := by
  unfold paidTermMode Waits
  by_cases running : termRunning cfg row req.now = true
  · by_cases same : row.planId = req.planId
    · simp [running, same]
    · by_cases lower : tierOfCode cfg req.planId ≤ tierOfCode cfg row.planId <;>
        simp [running, same, lower]
  · simp [running]

/-- A term bought through `applyPaidTerm` is kept exactly when `TermServed` holds of the
row it was applied to. -/
theorem applyPaidTerm_keeps_term_iff (cfg : BillingConfig) (req : PaidTermRequest)
    (historyFails : Bool) (db db' : BillingDb) (row : Subscription) (result : PaidTermResult)
    (stored : db.subscription = some row)
    (applied : (applyPaidTerm cfg req historyFails).run db = (.ok result, db'))
    (fresh : result.mode ≠ .alreadyApplied) :
    TermKept cfg db' req.planId req.termMonths req.now (runningEnd cfg row req.now) ↔
      TermServed cfg row req := by
  obtain ⟨named, months, written⟩ := applyPaidTerm_applied stored applied fresh
  rcases paidTermMode_cases cfg row req with ⟨running, same, patch⟩ | ⟨waits, patch⟩ | ⟨other, patch⟩
  · rw [patch] at written
    exact iff_of_true (termKept_renewed running same written)
      (fun waits => absurd same waits.2.1)
  · rw [patch] at written
    exact ⟨termServed_of_queued months written, termKept_queued waits named written⟩
  · rw [patch] at written
    exact iff_of_true (termKept_started written) (fun waits => absurd waits other)

end Purchase

/-- The purchase of one month of a plan on day 10. -/
def monthOn10 (planId : PlanCode) : PaidTermRequest :=
  { planId, interval := .month, termMonths := 1, transactionId := 2, now := 10 * dayMs }

set_option maxRecDepth 4000 in
/-- A renewal on day 10 is kept. -/
theorem applyPaidTerm_keeps_term_proMonth :
    ∃ result db', (applyPaidTerm referenceConfig (monthOn10 "pro") false).run proMonth =
        (.ok result, db') ∧
      TermKept referenceConfig db' "pro" 1 (10 * dayMs) (some (31 * dayMs)) := by
  obtain ⟨row, stored, samePlan, ends⟩ : ∃ row, proMonth.subscription = some row ∧
      row.planId = "pro" ∧ runningEnd referenceConfig row (10 * dayMs) = some (31 * dayMs) :=
    ⟨_, rfl, by decide, by decide⟩
  refine ⟨_, _, rfl, ?_⟩
  rw [← ends]
  refine (applyPaidTerm_keeps_term_iff referenceConfig (monthOn10 "pro") false proMonth _ row _
    stored rfl (by decide)).mpr ?_
  intro waits
  exact absurd samePlan waits.2.1

/-- The same workspace after it canceled the plan at the end of its term. -/
def canceledPro : BillingDb := (ServiceCall.cancel false).perform referenceConfig proMonth 1000

set_option maxRecDepth 4000 in
/-- A month of `starter` bought on day 10 by a workspace whose `pro` month is canceled but
runs until day 31: the purchase succeeds, is queued, and is never served. -/
theorem queued_term_lost :
    ¬ ∀ cfg req historyFails db db' row result, Reachable cfg db → db.subscription = some row →
      (applyPaidTerm cfg req historyFails).run db = (.ok result, db') →
      result.mode ≠ .alreadyApplied →
      TermKept cfg db' req.planId req.termMonths req.now (runningEnd cfg row req.now) := by
  intro kept
  obtain ⟨row, stored, state, waits⟩ : ∃ row, canceledPro.subscription = some row ∧
      row.state = .canceled ∧ Waits referenceConfig row (monthOn10 "starter") :=
    ⟨_, rfl, by decide, by decide⟩
  have reachable : Reachable referenceConfig canceledPro :=
    .call 1000 _ proMonth_reachable (by decide)
  obtain ⟨result, db', applied, fresh, written⟩ : ∃ result db',
      (applyPaidTerm referenceConfig (monthOn10 "starter") false).run canceledPro =
        (.ok result, db') ∧ result.mode ≠ .alreadyApplied ∧
      db'.subscription = some (queuedRow row (monthOn10 "starter") 1000) := by
    refine ⟨_, _, rfl, by decide, ?_⟩
    rw [← Option.some.inj stored]
    rfl
  have served := termServed_of_queued (by decide) written
    (kept _ _ _ _ _ _ _ reachable stored applied fresh) waits
  simp [state] at served

end AnalyticsBackend.Billing
