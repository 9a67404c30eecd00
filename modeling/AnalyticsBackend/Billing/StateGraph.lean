import AnalyticsBackend.Billing.Service

/-!
# The stored state along its graph

`assertTransition` is asked about the row that was read. The compare-and-set writers find that row
again, but for a write in the same millisecond; `cancel`, `setState` and the provisioning upsert write
whatever row is there. What makes the row active may write any row.
-/

namespace AnalyticsBackend.Billing
open Lib System

abbrev BillingEvent := Event Nat BillingLabel BillingDb

abbrev BillingWorld := World Nat BillingLabel BillingDb

/-- Any calls of the service at any instants. From outside, the clock goes on and the other documents
change at will. -/
def serviceSystem (cfg : BillingConfig) : System Nat BillingLabel BillingDb Unit where
  start := fun _ p => ∃ (now : Int) (call : ServiceCall), p = call.program cfg now
  env := fun db db' => db'.subscription = db.subscription ∧ db.clock ≤ db'.clock
  ok := fun _ _ _ => True

/-- The row moves to a state that `assertTransition` allows from the one it holds. -/
def AlongGraph (before after : Option Subscription) : Prop :=
  match after with
  | some row => assertTransition (before.map Subscription.state) row.state = .ok ()
  | none => before = none

instance (before after : Option Subscription) : Decidable (AlongGraph before after) := by
  unfold AlongGraph
  split <;> infer_instance

def lastFound : List BillingEvent → Option Subscription
  | [] => none
  | e :: earlier => if e.label = .read then e.before.subscription else lastFound earlier

/-- The row that a writer finds is in the state in which it has read it; for one that compares the
stamp, if the stamp is the same; for the upsert, there is no row. -/
def Follows (writer : SubscriptionWriter) (found row : Option Subscription) : Prop :=
  match writer with
  | .create => row = none
  | .cancel | .setState _ _ => row.map Subscription.state = found.map Subscription.state
  | .lifecycle => row.map Subscription.updatedAt = found.map Subscription.updatedAt →
      row.map Subscription.state = found.map Subscription.state
  | _ => True

instance (writer : SubscriptionWriter) (found row : Option Subscription) :
    Decidable (Follows writer found row) := by
  unfold Follows
  split <;> infer_instance

/-- No write of a step finds the row in another state than its process has read. -/
def unmoved (found : Option Subscription) (e : BillingEvent) : Bool :=
  match e.label with
  | .writeSubscription writer => decide (Follows writer found e.before.subscription)
  | _ => true

def unmovedThroughout : List BillingEvent → Bool
  | [] => true
  | e :: earlier =>
      unmoved (lastFound (earlier.filter fun e' => e'.tid = e.tid)) e && unmovedThroughout earlier

/-- Every step whose writer finds the row as it has read it goes along the graph. -/
def GraphKept : List BillingEvent → Prop
  | [] => True
  | e :: earlier =>
      (unmoved (lastFound (earlier.filter fun e' => e'.tid = e.tid)) e = true →
        AlongGraph e.before.subscription e.after.subscription) ∧ GraphKept earlier

theorem GraphKept.along {trace : List BillingEvent} (kept : GraphKept trace)
    (throughout : unmovedThroughout trace = true) :
    ∀ e ∈ trace, AlongGraph e.before.subscription e.after.subscription := by
  induction trace with
  | nil => exact fun e mem => absurd mem List.not_mem_nil
  | cons e earlier ih =>
      simp only [unmovedThroughout, Bool.and_eq_true] at throughout
      intro e' mem
      rcases List.mem_cons.mp mem with rfl | mem
      · exact kept.1 throughout.1
      · exact ih kept.2 throughout.2 e' mem

theorem assertTransition_self (state : SubscriptionState) :
    assertTransition (some state) state = .ok () := by
  cases state <;> rfl

theorem alongGraph_same (row : Option Subscription) : AlongGraph row row := by
  cases row with
  | none => rfl
  | some row => exact assertTransition_self row.state

theorem updateSubscription_along {db : BillingDb} {expect : Subscription → Bool}
    {patch : SubscriptionPatch}
    (along : ∀ row, db.subscription = some row → expect row = true →
      assertTransition (some row.state) (patch row).state = .ok ()) :
    AlongGraph db.subscription (db.updateSubscription expect patch).subscription := by
  unfold BillingDb.updateSubscription
  split
  · rename_i row stored
    split
    · rename_i met
      rw [stored]
      exact along row stored met
    · exact alongGraph_same _
  · exact alongGraph_same _

/-! ## What one step does -/

section Programs

variable {cfg : BillingConfig} {i : Nat} {A : Type}

/-- A program of process `i` keeps to the graph. -/
abbrev Keeps (cfg : BillingConfig) (i : Nat) (R : A → BillingWorld → Prop) (p : BillingProg A)
    (P : BillingWorld → Prop) : Prop :=
  Safe (serviceSystem cfg).env (serviceSystem cfg).ok (fun w => GraphKept w.trace) (fun _ => True) i
    R p P

theorem stable_any : Stable (serviceSystem cfg).env (fun w : BillingWorld => GraphKept w.trace)
    (fun _ => True) i (fun _ => True) :=
  ⟨fun _ _ _ _ _ _ _ _ => trivial, fun _ _ _ _ _ => trivial⟩

def Found (i : Nat) (found : Option Subscription) (w : BillingWorld) : Prop :=
  lastFound (w.own i) = found

theorem stable_found (found : Option Subscription) :
    Stable (serviceSystem cfg).env (fun w : BillingWorld => GraphKept w.trace) (fun _ => True) i
      (Found i found) :=
  Stable.own i fun own => lastFound own = found

theorem keeps_findSubscription {P : BillingWorld → Prop} :
    Keeps cfg i (Found i) findSubscription P := by
  refine Safe.update stable_found fun w kept _ _ => ?_
  refine ⟨⟨fun _ => alongGraph_same _, kept⟩, trivial, ?_⟩
  rw [Found, World.own_push, if_pos rfl, lastFound, if_pos rfl]

theorem keeps_findTenant {P : BillingWorld → Prop} :
    Keeps cfg i (fun _ _ => True) findTenant P := by
  refine Safe.update (fun _ => stable_any) fun w kept _ _ => ?_
  exact ⟨⟨fun _ => alongGraph_same _, kept⟩, trivial, trivial⟩

theorem keeps_updateSubscription {writer : SubscriptionWriter} {existing : Subscription}
    {expect : Subscription → Bool} {patch : SubscriptionPatch}
    (along : ∀ row, expect row = true → Follows writer (some existing) (some row) →
      assertTransition (some row.state) (patch row).state = .ok ()) :
    Keeps cfg i (fun _ _ => True) (updateSubscription writer expect patch)
      (Found i (some existing)) := by
  refine Safe.update (fun _ => stable_any) fun w kept found _ => ?_
  refine ⟨⟨fun follows => updateSubscription_along fun row stored met => ?_, kept⟩, trivial, trivial⟩
  rw [show w.trace.filter (fun e' => e'.tid = i) = w.own i from rfl, found, unmoved,
    decide_eq_true_eq] at follows
  dsimp only at follows stored
  exact along row met (stored ▸ follows)

theorem keeps_freeWrite {writer : SubscriptionWriter} {expect : Subscription → Bool}
    {patch : SubscriptionPatch} {P : BillingWorld → Prop}
    (writes : ∀ row, LeavesState patch row ∨ (patch row).state = .active) :
    Keeps cfg i (fun _ _ => True) (updateSubscription writer expect patch) P := by
  refine Safe.update (fun _ => stable_any) fun w kept _ _ => ?_
  refine ⟨⟨fun _ => updateSubscription_along fun row _ _ => ?_, kept⟩, trivial, trivial⟩
  rcases writes row with leaves | active
  · rw [leaves.1]
    exact assertTransition_self row.state
  · rw [active]
    exact assertTransition_active row.state

theorem keeps_upsertForTenant {planId : PlanCode} {state : SubscriptionState}
    {trialEndsAt : Option Int} {now : Int} (asserted : assertTransition none state = .ok ())
    {P : BillingWorld → Prop} :
    Keeps cfg i (fun _ _ => True)
      (upsertForTenant subscriptionDefaults (createPatch planId state trialEndsAt now)) P := by
  refine Safe.update (fun _ => stable_any) fun w kept _ _ => ?_
  refine ⟨⟨fun follows => ?_, kept⟩, trivial, trivial⟩
  have absent : w.store.subscription = none := by
    rw [unmoved, decide_eq_true_eq] at follows
    exact follows
  show assertTransition (w.store.subscription.map Subscription.state) state = .ok ()
  rw [absent]
  exact asserted

/-! ## The operations -/

theorem keeps_readDecideWrite {writer : SubscriptionWriter}
    {decide : Subscription → Except ApiError (Option SubscriptionPatch)}
    {expect : Subscription → Subscription → Bool} {P : BillingWorld → Prop}
    (write : ∀ existing patch, decide existing = .ok (some patch) →
      Keeps cfg i (fun _ _ => True) (updateSubscription writer (expect existing) patch)
        (Found i (some existing))) :
    Keeps cfg i (fun _ _ => True) (readDecideWrite writer decide expect) P := by
  refine Safe.bind keeps_findSubscription fun found => ?_
  cases found with
  | none => exact fun _ _ _ => trivial
  | some existing =>
      dsimp only
      cases decided : decide existing with
      | error e => exact fun _ _ _ => trivial
      | ok decision =>
          cases decision with
          | none => exact fun _ _ _ => trivial
          | some patch =>
              refine Safe.bind (write existing patch decided) fun updated => ?_
              cases updated <;> exact fun _ _ _ => trivial

theorem keeps_cancel (immediate : Bool) (now : Int) {P : BillingWorld → Prop} :
    Keeps cfg i (fun _ _ => True) (cancel immediate now) P := by
  refine keeps_readDecideWrite fun existing patch decided => ?_
  obtain ⟨asserted, writes⟩ := cancelDecision_writes decided
  refine keeps_updateSubscription fun row _ follows => ?_
  rw [writes, Option.some.inj follows]
  exact asserted

theorem keeps_setState (req : SetStateRequest) {P : BillingWorld → Prop} :
    Keeps cfg i (fun _ _ => True) (setState req) P := by
  refine keeps_readDecideWrite fun existing patch decided => ?_
  obtain ⟨asserted, writes⟩ := setStateDecision_writes decided
  refine keeps_updateSubscription fun row _ follows => ?_
  rw [(writes row).1, Option.some.inj follows]
  exact asserted

theorem keeps_clearScheduledChange {P : BillingWorld → Prop} :
    Keeps cfg i (fun _ _ => True) clearScheduledChange P :=
  keeps_readDecideWrite fun _ _ decided =>
    keeps_freeWrite fun row => .inl (clearScheduledChangeDecision_leaves decided row)

theorem keeps_scheduleChange (planId : PlanCode) (source : ChangeSource) (now : Int)
    {P : BillingWorld → Prop} :
    Keeps cfg i (fun _ _ => True) (scheduleChange cfg planId source now) P := by
  unfold scheduleChange
  split
  · exact fun _ _ _ => trivial
  · refine Safe.bind keeps_findSubscription fun found => ?_
    cases found with
    | none => exact fun _ _ _ => trivial
    | some existing =>
        dsimp only
        split
        · exact keeps_clearScheduledChange
        · cases decided : scheduleChangeDecision cfg planId source now existing with
          | error e => exact fun _ _ _ => trivial
          | ok decision =>
              cases decision with
              | none => exact fun _ _ _ => trivial
              | some patch =>
                  refine Safe.bind (keeps_freeWrite (scheduleChangeDecision_writes decided))
                    fun updated => ?_
                  cases updated <;> exact fun _ _ _ => trivial

theorem keeps_advanceLifecycle (now : Int) {P : BillingWorld → Prop} :
    Keeps cfg i (fun _ _ => True) (advanceLifecycle cfg now) P := by
  refine Safe.bind keeps_findSubscription fun found => ?_
  cases found with
  | none => exact fun _ _ _ => trivial
  | some existing =>
      dsimp only
      cases decided : lifecycleDecision cfg now existing with
      | error e => exact fun _ _ _ => trivial
      | ok decision =>
          cases decision with
          | none => exact fun _ _ _ => trivial
          | some decision =>
              obtain ⟨action, patch⟩ := decision
              have write : Keeps cfg i (fun _ _ => True)
                  (updateSubscription .lifecycle (sameStamp existing) patch)
                  (Found i (some existing)) := by
                refine keeps_updateSubscription fun row met follows => ?_
                have stamp : row.updatedAt = existing.updatedAt := by simpa [sameStamp] using met
                have state := Option.some.inj (follows (congrArg some stamp))
                rcases lifecycleDecision_writes decided with active | ⟨target, asserted, moved⟩
                · rw [active]
                  exact assertTransition_active row.state
                · rw [(moved row).1, state]
                  exact asserted
              refine Safe.bind write fun updated => ?_
              cases updated <;> exact fun _ _ _ => trivial

theorem keeps_createForTenant (planId : PlanCode) (state : SubscriptionState)
    (trialDays : Option Int) (now : Int) {P : BillingWorld → Prop} :
    Keeps cfg i (fun _ _ => True) (createForTenant planId state trialDays now) P := by
  refine Safe.bind keeps_findSubscription fun found => ?_
  cases found with
  | some existing => exact fun _ _ _ => trivial
  | none =>
      dsimp only
      cases asserted : assertTransition none state with
      | error e => exact fun _ _ _ => trivial
      | ok _ =>
          refine Safe.bind keeps_findTenant fun tenant => ?_
          cases tenant with
          | none => exact fun _ _ _ => trivial
          | some tenant =>
              dsimp only
              split
              · exact fun _ _ _ => trivial
              · split
                · exact fun _ _ _ => trivial
                · exact Safe.bind (keeps_upsertForTenant asserted) fun _ _ _ _ => trivial

theorem keeps_ensureForTenant (now : Int) {P : BillingWorld → Prop} :
    Keeps cfg i (fun _ _ => True) (ensureForTenant cfg now) P := by
  refine Safe.bind keeps_findSubscription fun found => ?_
  cases found with
  | some existing => exact fun _ _ _ => trivial
  | none =>
      refine Safe.bind keeps_findTenant fun tenant => ?_
      cases tenant with
      | none => exact fun _ _ _ => trivial
      | some tenant =>
          dsimp only
          split
          · exact fun _ _ _ => trivial
          · split <;> exact keeps_createForTenant _ _ _ _

theorem keeps_findOrProvision (now : Int) {P : BillingWorld → Prop} :
    Keeps cfg i (fun _ _ => True) (findOrProvision cfg now) P := by
  refine Safe.bind keeps_findSubscription fun found => ?_
  cases found with
  | some existing => exact fun _ _ _ => trivial
  | none =>
      refine Safe.bind (keeps_ensureForTenant now) fun ensured => ?_
      cases ensured with
      | error e => exact fun _ _ _ => trivial
      | ok created =>
          refine Safe.bind keeps_findSubscription fun stored => ?_
          cases stored <;> exact fun _ _ _ => trivial

theorem keeps_applyPaidTerm (req : PaidTermRequest) (historyFails : Bool) {P : BillingWorld → Prop} :
    Keeps cfg i (fun _ _ => True) (applyPaidTerm cfg req historyFails) P := by
  unfold applyPaidTerm
  cases checkPaidTerm req with
  | error e => exact fun _ _ _ => trivial
  | ok _ =>
      refine Safe.bind (keeps_findOrProvision req.now) fun found => ?_
      cases found with
      | error e => exact fun _ _ _ => trivial
      | ok existing =>
          dsimp only
          cases decided : paidTermDecision cfg req existing with
          | error e => exact fun _ _ _ => trivial
          | ok decision =>
              cases decision with
              | none => exact fun _ _ _ => trivial
              | some decision =>
                  obtain ⟨mode, patch⟩ := decision
                  have writes (row : Subscription) := @paidTermMode_writes cfg existing req row
                  rw [(paidTermDecision_eq decided).2] at writes
                  dsimp only at writes
                  refine Safe.bind (keeps_freeWrite writes) fun updated => ?_
                  cases updated with
                  | some updated =>
                      dsimp only
                      split <;> exact fun _ _ _ => trivial
                  | none =>
                      refine Safe.bind keeps_findSubscription fun fresh => ?_
                      cases fresh with
                      | none => exact fun _ _ _ => trivial
                      | some fresh =>
                          dsimp only
                          split <;> exact fun _ _ _ => trivial

theorem keeps_serviceCall (now : Int) (call : ServiceCall) :
    Keeps cfg i (fun _ _ => True) (call.program cfg now) (fun _ => True) := by
  have ends {A : Type} {p : BillingProg A} (safe : Keeps cfg i (fun _ _ => True) p (fun _ => True)) :
      Keeps cfg i (fun _ _ => True) (ignored p) (fun _ => True) :=
    safe.bind fun _ _ _ _ => trivial
  cases call with
  | createForTenant planId state trialDays => exact ends (keeps_createForTenant _ _ _ _)
  | ensureForTenant => exact ends (keeps_ensureForTenant now)
  | changePlan planId termEnd =>
      exact ends (keeps_readDecideWrite fun _ _ decided =>
        keeps_freeWrite fun row => .inl (changePlanDecision_leaves decided row))
  | cancel immediate => exact ends (keeps_cancel immediate now)
  | reactivate planId =>
      exact ends (keeps_readDecideWrite fun _ _ decided =>
        keeps_freeWrite fun row => .inr (reactivateDecision_writes decided row))
  | setState state graceEndsAt periodEnd reason system => exact ends (keeps_setState _)
  | applyPaidTerm planId interval termMonths transactionId historyFails =>
      exact ends (keeps_applyPaidTerm _ historyFails)
  | scheduleChange planId source => exact ends (keeps_scheduleChange planId source now)
  | clearScheduledChange => exact ends keeps_clearScheduledChange
  | advanceLifecycle => exact ends (keeps_advanceLifecycle now)

end Programs

/-! ## Every run -/

theorem graph_discipline (cfg : BillingConfig) (db : BillingDb) :
    Discipline (serviceSystem cfg) (fun w => GraphKept w.trace) (fun _ => True)
      (fun _ _ _ => True) db where
  init := trivial
  env := fun _ _ kept _ => kept
  start := by
    rintro i p ⟨now, call, rfl⟩
    exact ⟨_, stable_any, fun _ _ _ => trivial, keeps_serviceCall now call⟩

/-- In every run in which no writer finds the row in another state than it has read, every step takes
the row along the graph. -/
theorem state_along_graph (cfg : BillingConfig) (db : BillingDb)
    (c : Config Nat BillingLabel BillingDb Unit) (reach : Reach (serviceSystem cfg) db c)
    (follows : unmovedThroughout c.world.trace = true) :
    ∀ e ∈ c.world.trace, AlongGraph e.before.subscription e.after.subscription :=
  (reach.sound (graph_discipline cfg db)).inv.along follows

/-! ## Stale writes -/

namespace StaleWrite

abbrev Run := Config Nat BillingLabel BillingDb Unit

def begin (i : Nat) (call : ServiceCall) (steps : Nat) (c : Run) : Run :=
  (.start i (call.program referenceConfig c.world.store.clock) ::
    List.replicate steps (.act i)).foldl Config.move c

def act (i : Nat) (c : Run) : Run := c.move (.act i)

section Reached

variable {db : BillingDb} {c : Run}

abbrev Reached (db : BillingDb) (c : Run) : Prop := Reach (serviceSystem referenceConfig) db c

theorem Reached.begin {i : Nat} {call : ServiceCall} {steps : Nat} (reached : Reached db c)
    (fresh : (c.pool i).isNone = true) : Reached db (begin i call steps c) :=
  reached.moves ⟨⟨Option.isNone_iff_eq_none.mp fresh, _, call, rfl⟩,
    .acts (fun _ _ _ => trivial) i steps _⟩

theorem Reached.act {i : Nat} (reached : Reached db c) : Reached db (act i c) := by
  refine reached.move ?_
  show (serviceSystem referenceConfig).Legal c (.act i)
  cases pool : c.pool i with
  | none => simp [Legal, pool]
  | some p => cases p <;> simp [Legal, pool, serviceSystem]

theorem Reached.later {t : Int} (reached : Reached db c) (on : c.world.store.clock ≤ t) :
    Reached db (later t c) :=
  reached.move ⟨rfl, on⟩

end Reached

def leaves (writer : SubscriptionWriter) (c : Run) : Bool :=
  c.world.trace.any fun e => e.label = .writeSubscription writer &&
    !decide (AlongGraph e.before.subscription e.after.subscription)

/-- The writes of `begin` all find the row as it was read. -/
def canceled : Run := begin 0 (.cancel false) 2 (.idle proMonth)

/-- An administrator has read the active row and writes `past_due` over the cancellation. -/
def staleState : Run :=
  act 0 (begin 1 (.cancel false) 2
    (begin 0 (.setState .pastDue none none "invoice" false) 1 (.idle proMonth)))

/-- A cancellation is written over a row that has been canceled and has expired since. -/
def staleCancel : Run :=
  act 0 (begin 2 .advanceLifecycle 2 (later 1000 (begin 1 (.cancel true) 2
    (begin 0 (.cancel false) 1 (.idle proMonth)))))

def unprovisioned : BillingDb :=
  { subscription := none, transactions := fun _ => none,
    tenant := some { planId := none, status := .active, deleted := false }, clock := 0 }

/-- The trial of a provisioning is written over the row of another. -/
def staleCreation : Run :=
  act 0 (begin 1 .ensureForTenant 5
    (begin 0 (.createForTenant "pro" .trialing (some 14)) 2 (.idle unprovisioned)))

/-- A workspace that has queued a smaller plan and has not paid again. -/
def lapsed : BillingDb :=
  (ServiceCall.scheduleChange "starter" .workspace).perform referenceConfig proMonth dayMs

/-- In one millisecond the queued plan is withdrawn, the job reads the row, the term is canceled and
the job writes `past_due`. -/
def staleJob : Run :=
  act 1 (begin 2 (.cancel false) 2 (begin 1 .advanceLifecycle 1 (begin 0 .clearScheduledChange 2
    (later (32 * dayMs) (.idle lapsed)))))

theorem staleState_reached : Reached proMonth staleState :=
  (Reached.begin (Reached.begin .init rfl) rfl).act

theorem staleCancel_reached : Reached proMonth staleCancel :=
  (((Reached.begin (Reached.begin .init rfl) rfl).later (by decide +kernel)).begin rfl).act

theorem staleCreation_reached : Reached unprovisioned staleCreation :=
  (Reached.begin (Reached.begin .init rfl) rfl).act

theorem staleJob_reached : Reached lapsed staleJob := by
  have lapses : Reached lapsed (later (32 * dayMs) (.idle lapsed)) :=
    Reached.later .init (by decide +kernel)
  refine (((lapses.begin ?_).begin ?_).begin ?_).act
  all_goals decide +kernel

theorem not_along_of_leaves {writer : SubscriptionWriter} {c : Run}
    (left : leaves writer c = true) :
    ∃ e ∈ c.world.trace, e.label = .writeSubscription writer ∧
      ¬ AlongGraph e.before.subscription e.after.subscription := by
  obtain ⟨e, mem, is⟩ := List.any_eq_true.mp left
  simp only [Bool.and_eq_true, decide_eq_true_eq, Bool.not_eq_true', decide_eq_false_iff_not] at is
  exact ⟨e, mem, is⟩

end StaleWrite

open StaleWrite in
/-- A cancellation by itself. -/
theorem state_along_graph_canceled :
    Reached proMonth canceled ∧
    ∀ e ∈ canceled.world.trace, AlongGraph e.before.subscription e.after.subscription :=
  ⟨.begin .init rfl, state_along_graph referenceConfig proMonth canceled (Reached.begin .init rfl)
    (by decide +kernel)⟩

open StaleWrite in
/-- Each of the four conditional writers leaves the graph in some run. -/
theorem stale_writes_leave_graph :
    (¬ ∀ cfg db (c : Run), Reach (serviceSystem cfg) db c →
      ∀ e ∈ c.world.trace, AlongGraph e.before.subscription e.after.subscription) ∧
    ∀ writer ∈ [.create, .cancel, .setState .pastDue false, .lifecycle],
      ∃ db c, Reached db c ∧ ∃ e ∈ c.world.trace, e.label = .writeSubscription writer ∧
        ¬ AlongGraph e.before.subscription e.after.subscription := by
  constructor
  · intro all
    obtain ⟨e, mem, -, off⟩ := @not_along_of_leaves (.setState .pastDue false) staleState
      (by decide +kernel)
    exact off (all referenceConfig proMonth staleState staleState_reached e mem)
  · intro writer mem
    simp only [List.mem_cons, List.not_mem_nil, or_false] at mem
    rcases mem with rfl | rfl | rfl | rfl
    · exact ⟨_, _, staleCreation_reached, not_along_of_leaves (by decide +kernel)⟩
    · exact ⟨_, _, staleCancel_reached, not_along_of_leaves (by decide +kernel)⟩
    · exact ⟨_, _, staleState_reached, not_along_of_leaves (by decide +kernel)⟩
    · exact ⟨_, _, staleJob_reached, not_along_of_leaves (by decide +kernel)⟩

end AnalyticsBackend.Billing
