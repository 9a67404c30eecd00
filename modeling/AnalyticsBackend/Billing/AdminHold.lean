import AnalyticsBackend.Billing.Service

/-!
# Administrative holds

Any number of workspace operations, payment applications, lifecycle steps and
administrative changes of state, with every read and write interleaved. A hold survives the
compare-and-set writers, because the write of the hold moves the stamp they compare, and the
operations that refuse a held row; it does not survive `cancel`, `reactivate` and the
provisioning upsert, which write whatever row is there.
-/

namespace AnalyticsBackend.Billing
open Lib System

/-- The row is under an administrative hold. -/
def Subscription.Held (sub : Subscription) : Prop :=
  sub.state = .restricted ∧ sub.adminHold = true

/-- The tenant's row is under an administrative hold. -/
def BillingDb.Held (db : BillingDb) : Prop := ∃ row, db.subscription = some row ∧ row.Held

theorem Subscription.Held.access {sub : Subscription} (held : sub.Held) (now graceDays : Int) :
    (computeAccessOf sub now graceDays).state = .restricted := by
  unfold computeAccessOf
  split
  · rw [if_pos (show sub.state = .restricted ∧ sub.adminHold = true from held)]
    rfl
  · rw [held.1]
    rfl

/-- The last administrative change of state among the steps taken so far (the newest first)
restricted the row. -/
def holdInForce : List (Event Nat BillingLabel BillingDb) → Bool
  | [] => false
  | e :: earlier =>
      match e.label with
      | .writeSubscription (.setState state false) =>
          state = .restricted && e.before.subscription.isSome
      | _ => holdInForce earlier

/-- The writers that neither compare the stamp nor refuse a held row at the write. -/
def unguardedWriters : List SubscriptionWriter := [.create, .cancel, .reactivate]

/-- A step that respects holds: none of the unguarded writers writes a held row, and an
administrative restriction is not written in the millisecond of the write before it. -/
def RespectsHold (label : BillingLabel) (db db' : BillingDb) : Prop :=
  (∀ writer ∈ unguardedWriters, label = .writeSubscription writer → db.Held →
    db'.subscription = db.subscription) ∧
  (label = .writeSubscription (.setState .restricted false) →
    ∀ row, db.subscription = some row → row.updatedAt < db.clock)

/-- Service calls at any instants; every `setState` is an administrative one. From outside,
the clock goes on and the other documents change at will. -/
def holdSystem (cfg : BillingConfig) (ok : BillingLabel → BillingDb → BillingDb → Prop) :
    System Nat BillingLabel BillingDb Unit where
  start := fun _ p => ∃ (now : Int) (call : ServiceCall), p = call.program cfg now ∧
    ∀ state graceEndsAt periodEnd reason,
      call ≠ .setState state graceEndsAt periodEnd reason true
  env := fun db db' => db'.subscription = db.subscription ∧ db.clock ≤ db'.clock
  ok := ok

/-! ## What one step does -/

/-- The stamp of the row is in the past, and a hold that is in force is on the row. -/
structure HoldKept (w : World Nat BillingLabel BillingDb) : Prop where
  stamped : ∀ row, w.store.subscription = some row → row.updatedAt ≤ w.store.clock
  held : holdInForce w.trace = true → w.store.Held

/-- Around an event the row stays, its stamp does not go back, and a row that is held under
the stamp it had was held before. -/
def StampMoves (e : Event Nat BillingLabel BillingDb) : Prop :=
  ∀ row, e.before.subscription = some row → ∃ row', e.after.subscription = some row' ∧
    row.updatedAt ≤ row'.updatedAt ∧ (row'.updatedAt = row.updatedAt → row'.Held → row.Held)

theorem stampMoves_same {e : Event Nat BillingLabel BillingDb}
    (same : e.after.subscription = e.before.subscription) : StampMoves e :=
  fun row stored => ⟨row, same.trans stored, le_rfl, fun _ held => held⟩

/-- `Safe` in the hold system. -/
abbrev HoldSafe {A : Type} (cfg : BillingConfig) (i : Nat)
    (Q : A → World Nat BillingLabel BillingDb → Prop) (p : BillingProg A)
    (P : World Nat BillingLabel BillingDb → Prop) : Prop :=
  Safe (holdSystem cfg RespectsHold).env (holdSystem cfg RespectsHold).ok HoldKept StampMoves i
    Q p P

/-- What a process knows of a row it has read: the stamp has not gone back since, and if it
is still the same, a hold on the row was there when it was read. -/
def Seen (existing : Subscription) (w : World Nat BillingLabel BillingDb) : Prop :=
  ∃ row, w.store.subscription = some row ∧ existing.updatedAt ≤ row.updatedAt ∧
    (row.updatedAt = existing.updatedAt → row.Held → existing.Held)

section Programs

variable {cfg : BillingConfig} {i : Nat}

theorem persistent_true : Persistent (holdSystem cfg RespectsHold).env HoldKept StampMoves
    (fun _ => True) :=
  ⟨fun _ _ _ _ _ _ _ => trivial, fun _ _ _ _ _ => trivial⟩

theorem persistent_seen (existing : Subscription) :
    Persistent (holdSystem cfg RespectsHold).env HoldKept StampMoves (Seen existing) := by
  constructor
  · rintro w e _ ⟨row, stored, later, hold⟩ before moves _
    obtain ⟨row', stored', later', hold'⟩ := moves row (before ▸ stored)
    refine ⟨row', stored', later.trans later', ?_⟩
    intro same held
    have same_row : row'.updatedAt = row.updatedAt := by omega
    exact hold (by omega) (hold' same_row held)
  · rintro w db' _ ⟨row, stored, later, hold⟩ may
    exact ⟨row, may.1.trans stored, later, hold⟩

theorem holdKept_same {w : World Nat BillingLabel BillingDb} {label : BillingLabel} {db : BillingDb}
    (kept : HoldKept w) (subscription : db.subscription = w.store.subscription)
    (clock : db.clock = w.store.clock)
    (ordinary : ∀ state, label ≠ .writeSubscription (.setState state false)) :
    HoldKept (w.push ⟨i, label, w.store, db⟩) := by
  refine ⟨?_, ?_⟩
  · intro row stored
    show row.updatedAt ≤ db.clock
    rw [clock]
    exact kept.stamped row (subscription ▸ stored)
  · intro hold
    have before : holdInForce w.trace = true := by
      rw [World.push_trace, holdInForce] at hold
      split at hold
      · exact absurd ‹_› (ordinary _)
      · exact hold
    obtain ⟨row, stored, held⟩ := kept.held before
    exact ⟨row, subscription.trans stored, held⟩

theorem safe_findSubscription {P : World Nat BillingLabel BillingDb → Prop}
    (persistent : Persistent (holdSystem cfg RespectsHold).env HoldKept StampMoves P) :
    HoldSafe cfg i (fun found w => P w ∧ ∀ existing, found = some existing → Seen existing w)
      findSubscription P := by
  refine Safe.update (fun found => ?_) ?_
  · exact (persistent.stable i).and
      (.all fun existing => .imp fun _ => (persistent_seen existing).stable i)
  · intro w kept hP _
    have kept' : HoldKept (w.push ⟨i, .read, w.store, w.store⟩) :=
      holdKept_same kept rfl rfl (fun _ label => by cases label)
    have same := stampMoves_same (e := ⟨i, .read, w.store, w.store⟩) rfl
    refine ⟨kept', same, persistent.1 w _ kept hP rfl same kept', ?_⟩
    intro existing found
    exact ⟨existing, found, le_rfl, fun _ held => held⟩

theorem safe_findTenant : HoldSafe cfg i (fun _ _ => True) findTenant (fun _ => True) := by
  refine Safe.update (fun _ => persistent_true.stable i) ?_
  intro w kept _ _
  exact ⟨holdKept_same kept rfl rfl (fun _ label => by cases label), stampMoves_same rfl, trivial⟩

/-- A write that is no administrative change of state creates no hold, and it takes one away
only if its writer is unguarded or compares the stamp of a row that was not held. -/
structure OrdinaryWrite (writer : SubscriptionWriter) (existing : Subscription)
    (expect : Subscription → Bool) (patch : SubscriptionPatch) : Prop where
  ordinary : ∀ state, writer ≠ .setState state false
  creates : ∀ row, expect row = true → (patch row).Held → row.Held
  lifts : writer ∈ unguardedWriters ∨ (∀ row, row.Held → (patch row).Held) ∨
    (¬ existing.Held ∧ ∀ row, expect row = true → row.updatedAt = existing.updatedAt)

theorem safe_updateSubscription {writer : SubscriptionWriter} {existing : Subscription}
    {expect : Subscription → Bool} {patch : SubscriptionPatch}
    (write : OrdinaryWrite writer existing expect patch) :
    HoldSafe cfg i (fun _ _ => True) (updateSubscription writer expect patch) (Seen existing) := by
  refine Safe.update (fun _ => persistent_true.stable i) ?_
  rintro w kept ⟨row, stored, _, seen⟩ allowed
  have ordinary : ∀ state, BillingLabel.writeSubscription writer ≠
      .writeSubscription (.setState state false) := by
    intro state same
    injection same with same
    exact write.ordinary state same
  cases met : expect row with
  | false =>
      have same : w.store.updateSubscription expect patch = w.store := by
        simp [BillingDb.updateSubscription, stored, met]
      rw [same]
      exact ⟨holdKept_same kept rfl rfl ordinary, stampMoves_same rfl, trivial⟩
  | true =>
      have after : (w.store.updateSubscription expect patch).subscription =
          some { patch row with updatedAt := w.store.clock } := by
        simp [BillingDb.updateSubscription, stored, met]
      have clock : (w.store.updateSubscription expect patch).clock = w.store.clock := by
        simp [BillingDb.updateSubscription, stored, met]
      refine ⟨⟨?_, ?_⟩, ?_, trivial⟩
      · intro row' stored'
        rw [World.push_store, after, Option.some.injEq] at stored'
        rw [World.push_store, clock, ← stored']
      · intro hold
        have before : holdInForce w.trace = true := by
          rw [World.push_trace, holdInForce] at hold
          split at hold
          · exact absurd ‹_› (ordinary _)
          · exact hold
        obtain ⟨row', stored', held⟩ := kept.held before
        rw [stored, Option.some.injEq] at stored'
        subst stored'
        refine ⟨_, after, ?_⟩
        rcases write.lifts with unguarded | keeps | ⟨free, compared⟩
        · -- the step respects the hold: it changed nothing
          have same := allowed.1 writer unguarded rfl ⟨row, stored, held⟩
          rw [after, stored, Option.some.injEq] at same
          rwa [same]
        · exact keeps row held
        · exact absurd (seen (compared row met) held) free
      · intro row' stored'
        rw [stored, Option.some.injEq] at stored'
        subst stored'
        exact ⟨_, after, kept.stamped row stored, fun _ held => write.creates row met held⟩

theorem safe_setStateWrite {req : SetStateRequest} {existing : Subscription}
    {patch : SubscriptionPatch} (admin : req.system = false)
    (decided : setStateDecision req existing = .ok (some patch)) :
    HoldSafe cfg i (fun _ _ => True)
      (updateSubscription (.setState req.state req.system) (anyRow existing) patch)
      (Seen existing) := by
  have state : ∀ row, (patch row).state = req.state ∧
      (patch row).adminHold = decide (req.state = .restricted) := by
    intro row
    obtain ⟨target, hold⟩ := (setStateDecision_writes decided).2 row
    refine ⟨target, ?_⟩
    by_cases restricted : req.state = .restricted <;> simp [hold, restricted, admin]
  refine Safe.update (fun _ => persistent_true.stable i) ?_
  rintro w kept ⟨row, stored, _, _⟩ allowed
  have after : (w.store.updateSubscription (anyRow existing) patch).subscription =
      some { patch row with updatedAt := w.store.clock } := by
    simp [BillingDb.updateSubscription, stored, anyRow]
  have clock : (w.store.updateSubscription (anyRow existing) patch).clock = w.store.clock := by
    simp [BillingDb.updateSubscription, stored, anyRow]
  refine ⟨⟨?_, ?_⟩, ?_, trivial⟩
  · intro row' stored'
    rw [World.push_store, after, Option.some.injEq] at stored'
    rw [World.push_store, clock, ← stored']
  · intro hold
    rw [World.push_trace, holdInForce, admin] at hold
    have restricted : req.state = .restricted := by
      simp only [Bool.and_eq_true, decide_eq_true_eq] at hold
      exact hold.1
    refine ⟨_, after, (state row).1.trans restricted, ?_⟩
    show (patch row).adminHold = true
    rw [(state row).2, restricted]
    rfl
  · intro row' stored'
    rw [stored, Option.some.injEq] at stored'
    subst stored'
    refine ⟨_, after, kept.stamped row stored, ?_⟩
    intro same held
    have restricted : req.state = .restricted := (state row).1.symm.trans held.1
    have earlier := allowed.2 (by rw [restricted, admin]) row stored
    have stamp : w.store.clock = row.updatedAt := same
    omega

/-! ## The decisions -/

theorem not_held_of_state {row : Subscription} {state : SubscriptionState}
    (written : row.state = state) (other : state ≠ .restricted) : ¬ row.Held :=
  fun held => other (written.symm.trans held.1)

theorem not_held_of_active {row : Subscription} (written : row.state = .active) : ¬ row.Held :=
  not_held_of_state written (by decide)

/-- A patch that leaves the state and the hold alone neither puts a hold on a row nor lifts one. -/
theorem held_of_leaves {patch : SubscriptionPatch} {row : Subscription}
    (leaves : LeavesState patch row) : (patch row).Held ↔ row.Held := by
  unfold Subscription.Held
  rw [leaves.1, leaves.2]

theorem leaves_write {writer : SubscriptionWriter} {existing : Subscription}
    {expect : Subscription → Bool} {patch : SubscriptionPatch}
    (ordinary : ∀ state, writer ≠ .setState state false)
    (leaves : ∀ row, LeavesState patch row) : OrdinaryWrite writer existing expect patch :=
  ⟨ordinary, fun row _ => (held_of_leaves (leaves row)).mp,
    .inr (.inl fun row => (held_of_leaves (leaves row)).mpr)⟩

theorem changePlan_write {planId : PlanCode} {termEnd : Option Int} {now : Int}
    {existing : Subscription} {patch : SubscriptionPatch}
    (decided : changePlanDecision planId termEnd now existing = .ok (some patch)) :
    OrdinaryWrite .changePlan existing (anyRow existing) patch :=
  leaves_write (fun _ => nofun) (changePlanDecision_leaves decided)

theorem cancel_write {immediate : Bool} {now : Int} {existing : Subscription}
    {patch : SubscriptionPatch} (decided : cancelDecision immediate now existing = .ok (some patch)) :
    OrdinaryWrite .cancel existing (anyRow existing) patch := by
  have state := (cancelDecision_writes decided).2
  refine ⟨fun _ => nofun, ?_, .inl (by decide)⟩
  exact fun row _ held => absurd held (not_held_of_state (state row) (by decide))

theorem reactivate_write {planId : Option PlanCode} {now : Int} {existing : Subscription}
    {patch : SubscriptionPatch} (decided : reactivateDecision planId now existing = .ok (some patch)) :
    OrdinaryWrite .reactivate existing (anyRow existing) patch := by
  have state := reactivateDecision_writes decided
  refine ⟨fun _ => nofun, ?_, .inl (by decide)⟩
  exact fun row _ held => absurd held (not_held_of_active (state row))

theorem clearScheduledChange_write {existing : Subscription} {patch : SubscriptionPatch}
    (decided : clearScheduledChangeDecision existing = .ok (some patch)) :
    OrdinaryWrite .clearScheduledChange existing (sameStamp existing) patch :=
  leaves_write (fun _ => nofun) (clearScheduledChangeDecision_leaves decided)

theorem held_of_writes {patch : SubscriptionPatch} {row : Subscription}
    (writes : LeavesState patch row ∨ (patch row).state = .active) (held : (patch row).Held) :
    row.Held := by
  rcases writes with leaves | active
  · exact (held_of_leaves leaves).mp held
  · exact absurd held (not_held_of_active active)

theorem scheduleChange_write {planId : PlanCode} {source : ChangeSource} {now : Int}
    {existing : Subscription} {patch : SubscriptionPatch}
    (decided : scheduleChangeDecision cfg planId source now existing = .ok (some patch)) :
    OrdinaryWrite .scheduleChange existing (sameStamp existing) patch := by
  have writes := scheduleChangeDecision_writes decided
  unfold scheduleChangeDecision at decided
  split at decided
  case isTrue => cases decided
  case isFalse free =>
    have stamp : ∀ row, sameStamp existing row = true → row.updatedAt = existing.updatedAt :=
      fun row met => by simpa [sameStamp] using met
    exact ⟨fun _ => nofun, fun row _ => held_of_writes (writes row), .inr (.inr ⟨free, stamp⟩)⟩

theorem paidTerm_write {req : PaidTermRequest} {existing : Subscription} {mode : PaidTermMode}
    {patch : SubscriptionPatch}
    (decided : paidTermDecision cfg req existing = .ok (some (mode, patch))) :
    OrdinaryWrite (.paidTerm req.transactionId) existing (sameStampAndSlot existing) patch := by
  obtain ⟨free, taken⟩ := paidTermDecision_eq decided
  have writes (row : Subscription) := @paidTermMode_writes cfg existing req row
  rw [taken] at writes
  have stamp : ∀ row, sameStampAndSlot existing row = true → row.updatedAt = existing.updatedAt := by
    intro row met
    simp only [sameStampAndSlot, decide_eq_true_eq] at met
    exact met.1
  exact ⟨fun _ => nofun, fun row _ => held_of_writes (writes row), .inr (.inr ⟨free, stamp⟩)⟩

theorem lifecycleDecision_held {now : Int} {existing : Subscription} (held : existing.Held) :
    lifecycleDecision cfg now existing = .ok none := by
  have access : (accessAt cfg existing now).state = .restricted := held.access _ _
  unfold lifecycleDecision
  simp [held.1, access]

theorem lifecycle_write {now : Int} {existing : Subscription} {action : LifecycleAction}
    {patch : SubscriptionPatch}
    (decided : lifecycleDecision cfg now existing = .ok (some (action, patch))) :
    OrdinaryWrite .lifecycle existing (sameStamp existing) patch := by
  have free : ¬ existing.Held := by
    intro held
    rw [lifecycleDecision_held held] at decided
    cases decided
  have stamp : ∀ row, sameStamp existing row = true → row.updatedAt = existing.updatedAt :=
    fun row met => by simpa [sameStamp] using met
  refine ⟨fun _ => nofun, fun row _ held => ?_, .inr (.inr ⟨free, stamp⟩)⟩
  exfalso
  rcases lifecycleDecision_writes decided with active | ⟨target, -, moved⟩
  · exact not_held_of_active (active row) held
  · obtain ⟨restricted, hold⟩ := held
    rw [(moved row).1] at restricted
    rw [(moved row).2 restricted] at hold
    exact nomatch hold

/-! ## The programs -/

theorem safe_readDecideWrite {writer : SubscriptionWriter}
    {decide : Subscription → Except ApiError (Option SubscriptionPatch)}
    {expect : Subscription → Subscription → Bool}
    (write : ∀ existing patch, decide existing = .ok (some patch) →
      HoldSafe cfg i (fun _ _ => True) (updateSubscription writer (expect existing) patch)
        (Seen existing)) :
    HoldSafe cfg i (fun _ _ => True) (readDecideWrite writer decide expect) (fun _ => True) := by
  refine (safe_findSubscription persistent_true).bind ?_
  intro found
  cases found with
  | none => exact fun _ _ _ => trivial
  | some existing =>
      dsimp only
      cases decided : decide existing with
      | error e => exact fun _ _ _ => trivial
      | ok decision =>
          cases decision with
          | none => exact fun _ _ _ => trivial
          | some patch =>
              refine ((write existing patch decided).weaken fun w _ seen => seen.2 _ rfl).bind ?_
              intro updated
              cases updated <;> exact fun _ _ _ => trivial

theorem safe_upsertForTenant {planId : PlanCode} {state : SubscriptionState}
    {trialEndsAt : Option Int} {now : Int} (other : state ≠ .restricted) :
    HoldSafe cfg i Seen
      (upsertForTenant subscriptionDefaults (createPatch planId state trialEndsAt now))
      (fun _ => True) := by
  refine Safe.update (fun created => (persistent_seen created).stable i) ?_
  intro w kept _ allowed
  have unheld : ∀ row stamp,
      ¬ Subscription.Held { createPatch planId state trialEndsAt now row with updatedAt := stamp } :=
    fun row stamp => not_held_of_state rfl other
  refine ⟨⟨?_, ?_⟩, ?_, ?_⟩
  · rintro row ⟨⟩
    exact le_rfl
  · intro hold
    have before : w.store.Held := kept.held hold
    have same := allowed.1 .create (by decide) rfl before
    obtain ⟨row, stored, held⟩ := before
    exact ⟨row, same.trans stored, held⟩
  · intro row stored
    exact ⟨_, rfl, kept.stamped row stored, fun _ held => absurd held (unheld _ _)⟩
  · exact ⟨_, rfl, le_rfl, fun _ held => held⟩

/-- What a provisioning operation reports is the row that is there. -/
def SeenOk (result : Except ApiError Subscription) (w : World Nat BillingLabel BillingDb) : Prop :=
  ∀ existing, result = .ok existing → Seen existing w

theorem safe_createForTenant (planId : PlanCode) (state : SubscriptionState)
    (trialDays : Option Int) (now : Int) :
    HoldSafe cfg i SeenOk (createForTenant planId state trialDays now) (fun _ => True) := by
  have refused : ∀ (e : ApiError) (P : World Nat BillingLabel BillingDb → Prop),
      HoldSafe cfg i SeenOk (Prog.done (.error e)) P := fun e P _ _ _ _ => nofun
  refine (safe_findSubscription persistent_true).bind ?_
  intro found
  cases found with
  | some existing =>
      rintro w _ ⟨_, seen⟩ _ ⟨⟩
      exact seen existing rfl
  | none =>
      dsimp only
      cases asserted : assertTransition none state with
      | error e => exact refused e _
      | ok _ =>
          have other : state ≠ .restricted := by
            rintro rfl
            cases asserted
          refine (safe_findTenant.weaken fun _ _ _ => trivial).bind ?_
          intro tenant
          cases tenant with
          | none => exact refused _ _
          | some tenant =>
              dsimp only
              split
              · exact refused _ _
              · split
                · exact refused _ _
                · refine (safe_upsertForTenant other).bind ?_
                  rintro created w _ seen _ ⟨⟩
                  exact seen

theorem safe_ensureForTenant (now : Int) :
    HoldSafe cfg i SeenOk (ensureForTenant cfg now) (fun _ => True) := by
  have refused : ∀ (e : ApiError) (P : World Nat BillingLabel BillingDb → Prop),
      HoldSafe cfg i SeenOk (Prog.done (.error e)) P := fun e P _ _ _ _ => nofun
  refine (safe_findSubscription persistent_true).bind ?_
  intro found
  cases found with
  | some existing =>
      rintro w _ ⟨_, seen⟩ _ ⟨⟩
      exact seen existing rfl
  | none =>
      refine (safe_findTenant.weaken fun _ _ _ => trivial).bind ?_
      intro tenant
      cases tenant with
      | none => exact refused _ _
      | some tenant =>
          dsimp only
          split
          · exact refused _ _
          · split
            · exact safe_createForTenant _ _ _ _
            · exact safe_createForTenant _ _ _ _

theorem safe_findOrProvision (now : Int) :
    HoldSafe cfg i SeenOk (findOrProvision cfg now) (fun _ => True) := by
  refine (safe_findSubscription persistent_true).bind ?_
  intro found
  cases found with
  | some existing =>
      rintro w _ ⟨_, seen⟩ _ ⟨⟩
      exact seen existing rfl
  | none =>
      refine ((safe_ensureForTenant now).weaken fun _ _ _ => trivial).bind ?_
      intro ensured
      cases ensured with
      | error e => exact fun _ _ _ _ => nofun
      | ok created =>
          have again : HoldSafe cfg i
              (fun found w => Seen created w ∧ ∀ existing, found = some existing → Seen existing w)
              findSubscription (SeenOk (.ok created)) :=
            (safe_findSubscription (persistent_seen created)).weaken fun _ _ seen => seen _ rfl
          refine again.bind ?_
          intro stored
          cases stored with
          | some existing =>
              rintro w _ ⟨_, seen⟩ _ ⟨⟩
              exact seen existing rfl
          | none =>
              rintro w _ ⟨seen, _⟩ _ ⟨⟩
              exact seen

theorem safe_applyPaidTerm (req : PaidTermRequest) (historyFails : Bool) :
    HoldSafe cfg i (fun _ _ => True) (applyPaidTerm cfg req historyFails) (fun _ => True) := by
  unfold applyPaidTerm
  cases checkPaidTerm req with
  | error e => exact fun _ _ _ => trivial
  | ok _ =>
      refine (safe_findOrProvision req.now).bind ?_
      intro found
      cases found with
      | error e => exact fun _ _ _ => trivial
      | ok existing =>
          dsimp only
          cases decided : paidTermDecision cfg req existing with
          | error e => exact fun _ _ _ => trivial
          | ok decision =>
              cases decision with
              | none => exact fun _ _ _ => trivial
              | some decision =>
                  obtain ⟨mode, patch⟩ := decision
                  have write : HoldSafe cfg i (fun _ _ => True)
                      (updateSubscription (.paidTerm req.transactionId)
                        (sameStampAndSlot existing) patch) (SeenOk (.ok existing)) :=
                    (safe_updateSubscription (paidTerm_write decided)).weaken
                      fun _ _ seen => seen _ rfl
                  refine write.bind ?_
                  intro updated
                  cases updated with
                  | some updated =>
                      dsimp only
                      split <;> exact fun _ _ _ => trivial
                  | none =>
                      refine (safe_findSubscription persistent_true).bind ?_
                      intro fresh
                      cases fresh with
                      | none => exact fun _ _ _ => trivial
                      | some fresh =>
                          dsimp only
                          split <;> exact fun _ _ _ => trivial

theorem safe_scheduleChange (planId : PlanCode) (source : ChangeSource) (now : Int) :
    HoldSafe cfg i (fun _ _ => True) (scheduleChange cfg planId source now) (fun _ => True) := by
  unfold scheduleChange
  split
  · exact fun _ _ _ => trivial
  · refine (safe_findSubscription persistent_true).bind ?_
    intro found
    cases found with
    | none => exact fun _ _ _ => trivial
    | some existing =>
        dsimp only
        split
        · have clear : HoldSafe cfg i (fun _ _ => True) clearScheduledChange (fun _ => True) :=
            safe_readDecideWrite fun _ _ decided =>
              safe_updateSubscription (clearScheduledChange_write decided)
          exact clear.weaken fun _ _ _ => trivial
        · cases decided : scheduleChangeDecision cfg planId source now existing with
          | error e => exact fun _ _ _ => trivial
          | ok decision =>
              cases decision with
              | none => exact fun _ _ _ => trivial
              | some patch =>
                  refine ((safe_updateSubscription (scheduleChange_write decided)).weaken
                    fun _ _ seen => seen.2 _ rfl).bind ?_
                  intro updated
                  cases updated <;> exact fun _ _ _ => trivial

theorem safe_advanceLifecycle (now : Int) :
    HoldSafe cfg i (fun _ _ => True) (advanceLifecycle cfg now) (fun _ => True) := by
  refine (safe_findSubscription persistent_true).bind ?_
  intro found
  cases found with
  | none => exact fun _ _ _ => trivial
  | some existing =>
      dsimp only
      cases decided : lifecycleDecision cfg now existing with
      | error e => exact fun _ _ _ => trivial
      | ok decision =>
          cases decision with
          | none => exact fun _ _ _ => trivial
          | some decision =>
              obtain ⟨action, patch⟩ := decision
              refine ((safe_updateSubscription (lifecycle_write decided)).weaken
                fun _ _ seen => seen.2 _ rfl).bind ?_
              intro updated
              cases updated <;> exact fun _ _ _ => trivial

theorem safe_serviceCall (now : Int) {call : ServiceCall}
    (admin : ∀ state graceEndsAt periodEnd reason,
      call ≠ .setState state graceEndsAt periodEnd reason true) :
    HoldSafe cfg i (fun _ _ => True) (call.program cfg now) (fun _ => True) := by
  have ends : ∀ {A : Type} {p : BillingProg A} {R : A → World Nat BillingLabel BillingDb → Prop},
      HoldSafe cfg i R p (fun _ => True) →
        HoldSafe cfg i (fun _ _ => True) (ignored p) (fun _ => True) :=
    fun safe => safe.bind fun _ _ _ _ => trivial
  cases call with
  | createForTenant planId state trialDays => exact ends (safe_createForTenant _ _ _ _)
  | ensureForTenant => exact ends (safe_ensureForTenant now)
  | changePlan planId termEnd =>
      exact ends (safe_readDecideWrite fun _ _ decided =>
        safe_updateSubscription (changePlan_write decided))
  | cancel immediate =>
      exact ends (safe_readDecideWrite fun _ _ decided =>
        safe_updateSubscription (cancel_write decided))
  | reactivate planId =>
      exact ends (safe_readDecideWrite fun _ _ decided =>
        safe_updateSubscription (reactivate_write decided))
  | setState state graceEndsAt periodEnd reason system =>
      cases system with
      | true => exact absurd rfl (admin state graceEndsAt periodEnd reason)
      | false =>
          exact ends (safe_readDecideWrite fun _ _ decided => safe_setStateWrite rfl decided)
  | applyPaidTerm planId interval termMonths transactionId historyFails =>
      exact ends (safe_applyPaidTerm _ historyFails)
  | scheduleChange planId source => exact ends (safe_scheduleChange planId source now)
  | clearScheduledChange =>
      exact ends (safe_readDecideWrite fun _ _ decided =>
        safe_updateSubscription (clearScheduledChange_write decided))
  | advanceLifecycle => exact ends (safe_advanceLifecycle now)

end Programs

/-! ## Every run -/

theorem hold_discipline (cfg : BillingConfig) {db : BillingDb}
    (past : ∀ row, db.subscription = some row → row.updatedAt ≤ db.clock) :
    Discipline (holdSystem cfg RespectsHold) HoldKept StampMoves (fun _ _ _ => True) db := by
  refine ⟨⟨past, by simp [holdInForce]⟩, ?_, ?_⟩
  · rintro w db' kept ⟨subscription, clock⟩
    refine ⟨?_, ?_⟩
    · intro row stored
      have := kept.stamped row (subscription ▸ stored)
      show row.updatedAt ≤ db'.clock
      omega
    · intro hold
      obtain ⟨row, stored, held⟩ := kept.held hold
      exact ⟨row, subscription.trans stored, held⟩
  · rintro i p ⟨now, call, rfl, admin⟩
    exact ⟨_, persistent_true.stable i, fun _ _ _ => trivial, safe_serviceCall now admin⟩

/-- In every run whose steps respect holds: after an administrative restriction, and until
another administrative change of state, the tenant is restricted at every instant. -/
theorem hold_lifted_by_admin_only (cfg : BillingConfig) (db : BillingDb)
    (past : ∀ row, db.subscription = some row → row.updatedAt ≤ db.clock)
    (c : Config Nat BillingLabel BillingDb Unit)
    (reach : Reach (holdSystem cfg RespectsHold) db c)
    (hold : holdInForce c.world.trace = true) (now graceDays : Int) :
    (computeAccess c.world.store.subscription now graceDays).state = .restricted := by
  obtain ⟨row, stored, held⟩ := (reach.sound (hold_discipline cfg past)).inv.held hold
  rw [stored]
  exact held.access now graceDays

/-! ## A hold and a cancellation -/

/-- An administrator restricts the workspace. -/
def restrict : ServiceCall := .setState .restricted none none "chargeback" false

/-- Process `i` is started with a call and takes its first `steps` steps. -/
def opening (i : Nat) (call : ServiceCall) (now : Int) (steps : Nat) :
    List (Move Nat BillingLabel BillingDb Unit) :=
  .start i (call.program referenceConfig now) :: List.replicate steps (.act i)

/-- The hold is written. -/
def restricted : Config Nat BillingLabel BillingDb Unit :=
  (opening 1 restrict 1000 2).foldl Config.move (later 1000 (.idle proMonth))

set_option maxRecDepth 4000 in
theorem hold_lifted_by_admin_only_restrict :
    (computeAccess restricted.world.store.subscription 2000 0).state = .restricted := by
  have begun : Reach (holdSystem referenceConfig RespectsHold) proMonth
      (later 1000 (.idle proMonth)) := Reach.init.move ⟨rfl, by decide⟩
  have reach : Reach (holdSystem referenceConfig RespectsHold) proMonth restricted := by
    refine Reach.moves begun ⟨⟨rfl, 1000, restrict, rfl, ?_⟩, ⟨?_, ?_⟩, ⟨?_, ?_⟩, trivial⟩
    · exact fun _ _ _ _ => by simp [restrict]
    · exact fun _ _ label => by cases label
    · exact fun label => by cases label
    · rintro writer unguarded label
      injection label with same
      subst same
      exact absurd unguarded (by decide)
    · rintro _ row ⟨⟩
      decide
  refine hold_lifted_by_admin_only referenceConfig proMonth ?_ _ reach rfl 2000 0
  rintro row ⟨⟩
  decide

/-- A cancellation has read the row. -/
def cancelReads : Config Nat BillingLabel BillingDb Unit :=
  (opening 0 (.cancel false) 0 1).foldl Config.move (.idle proMonth)

/-- Then the hold is written. -/
def holdWritten : Config Nat BillingLabel BillingDb Unit :=
  (opening 1 restrict 1000 2).foldl Config.move (later 1000 cancelReads)

/-- Then the cancellation writes what it decided on the row it had read. -/
def staleCancel : Config Nat BillingLabel BillingDb Unit := (later 2000 holdWritten).move (.act 0)

set_option maxRecDepth 4000 in
/-- The hold is gone without another administrative change of state. -/
theorem hold_lifted_by_stale_cancel :
    Reach (holdSystem referenceConfig (fun _ _ _ => True)) proMonth staleCancel ∧
      holdInForce staleCancel.world.trace = true ∧
      computeAccess staleCancel.world.store.subscription 2000 0 = .of .canceled "pro" := by
  have free : ∀ label s s',
      (holdSystem referenceConfig (fun _ _ _ => True)).ok label s s' := fun _ _ _ => trivial
  have read : Reach (holdSystem referenceConfig (fun _ _ _ => True)) proMonth cancelReads :=
    Reach.moves .init ⟨⟨rfl, 0, .cancel false, rfl, fun _ _ _ _ => nofun⟩, .acts free 0 1 _⟩
  have waiting : Reach (holdSystem referenceConfig (fun _ _ _ => True)) proMonth
      (later 1000 cancelReads) := read.move ⟨rfl, by decide⟩
  have written : Reach (holdSystem referenceConfig (fun _ _ _ => True)) proMonth holdWritten :=
    Reach.moves waiting ⟨⟨rfl, 1000, restrict, rfl, fun _ _ _ _ => by simp [restrict]⟩,
      .acts free 1 2 _⟩
  have waiting' : Reach (holdSystem referenceConfig (fun _ _ _ => True)) proMonth
      (later 2000 holdWritten) := written.move ⟨rfl, by decide⟩
  exact ⟨waiting'.move trivial, by decide, by decide⟩

end AnalyticsBackend.Billing
