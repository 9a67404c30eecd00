import AnalyticsBackend.Usage.Reconcile

/-!
# Reconciliation against creates and deletes

A counter is right when it is the number of resources plus what creates and deletes have in
flight. Every step of a create or delete keeps it right, since what they do to the counter or to
the documents they also do to what is in flight. A reconciliation keeps it right by not writing:
a counter it has read and that nothing touched since agrees with the documents whenever nothing
is in flight.
-/

namespace AnalyticsBackend.Usage
open Lib System

/-- The counter was written after `t`. -/
def Stamped (t : Int) (row : Option CounterRow) : Prop :=
  ∃ r at', row = some r ∧ r.lastIncrementedAt = some at' ∧ t < at'

/-- When a step leaves the settle window its effect. A create or delete stamps the counter with
a time less than the window ago. A reconciliation counts a metric while nothing of it is in
flight, unless it has read a recent change of the counter, which it will skip, or the counter has
changed since it read it. -/
def InWindow (tenantId : String) (settleMs : Int) : MeterLabel → MeterDb → MeterDb → Prop
  | .counter m, db, db' =>
      db'.counter tenantId m = db.counter tenantId m ∨
        Stamped (db.clock - settleMs) (db'.counter tenantId m)
  | .count m row now window, db, _ =>
      db.inFlight m = 0 ∨ recent window now (row.bind CounterRow.lastIncrementedAt) = true ∨
        db.matches tenantId m (expectedOf row) = false
  | _, _, _ => True

/-- Counters that are right, at rest. -/
structure Correct (tenantId : String) (db : MeterDb) : Prop where
  balanced : ∀ m ∈ reconciledMetrics, db.value tenantId m = db.count m
  idle : ∀ m, db.inFlight m = 0
  ledger : ∀ r ∈ db.usage.reservations, r.tenantId ≠ tenantId
  ids : (db.resources.map Resource.id).Nodup

def moved (m : UsageMetric) (e : Event Nat MeterLabel MeterDb) : Int :=
  e.after.inFlight m - e.before.inFlight m

/-- What a call has in flight. -/
def share (w : World Nat MeterLabel MeterDb) (i : Nat) (m : UsageMetric) : Int :=
  ((w.own i).map (moved m)).sum

/-- A call has exactly `v` in flight. -/
def Owes (i : Nat) (v : UsageMetric → Int) (w : World Nat MeterLabel MeterDb) : Prop :=
  ∀ m, m.metered = false → share w i m = v m

/-- The invariant: the counters are right, and no call has less than nothing in flight. -/
structure MeterInv (tenantId : String) (w : World Nat MeterLabel MeterDb) : Prop where
  balanced : ∀ m, m.metered = false →
    w.store.value tenantId m = w.store.count m + w.store.inFlight m
  shares : ∀ i m, m.metered = false → 0 ≤ share w i m
  total : ∀ m, w.store.inFlight m = (w.trace.map (moved m)).sum
  ledger : ∀ r ∈ w.store.usage.reservations, r.tenantId ≠ tenantId
  ids : (w.store.resources.map Resource.id).Nodup

/-- What every step does: it stamps the counters it changes, and a document it changes has a
new version. -/
structure MeterStep (tenantId : String) (settleMs : Int) (e : Event Nat MeterLabel MeterDb) :
    Prop where
  clock : e.after.clock = e.before.clock
  counters : ∀ m, m.metered = false → e.after.counter tenantId m = e.before.counter tenantId m ∨
    Stamped (e.before.clock - settleMs) (e.after.counter tenantId m)
  resources : ∀ r ∈ e.before.resources, ∃ r' ∈ e.after.resources,
    r'.id = r.id ∧ r'.units = r.units ∧ (r' = r ∨ r.version < r'.version)

section Steps

variable {tenantId : String} {settleMs : Int} {w : World Nat MeterLabel MeterDb} {i : Nat}

theorem share_push_self (w : World Nat MeterLabel MeterDb) (i : Nat) (label : MeterLabel)
    (after : MeterDb) (m : UsageMetric) :
    share (w.push ⟨i, label, w.store, after⟩) i m =
      share w i m + (after.inFlight m - w.store.inFlight m) := by
  simp [share, World.own, moved, add_comm]

theorem share_push_other (w : World Nat MeterLabel MeterDb) {e : Event Nat MeterLabel MeterDb}
    (other : e.tid ≠ i) (m : UsageMetric) : share (w.push e) i m = share w i m := by
  simp [share, World.own, other]

theorem Owes.push_same {v : UsageMetric → Int} (owes : Owes i v w) {label : MeterLabel}
    {after : MeterDb} (same : after.inFlight = w.store.inFlight) :
    Owes i v (w.push ⟨i, label, w.store, after⟩) := by
  intro m resource
  rw [share_push_self, owes m resource, same]
  omega

theorem MeterInv.share_le (inv : MeterInv tenantId w) (i : Nat) {m : UsageMetric}
    (resource : m.metered = false) : share w i m ≤ w.store.inFlight m := by
  rw [inv.total m]
  exact World.own_le_total (fun j => inv.shares j m resource) i

/-- No call has more in flight than the counter says. -/
theorem MeterInv.share_le_value (inv : MeterInv tenantId w) (i : Nat) {m : UsageMetric}
    (resource : m.metered = false) : share w i m ≤ w.store.value tenantId m := by
  have share := inv.share_le i resource
  have balanced := inv.balanced m resource
  omega

theorem MeterInv.push (inv : MeterInv tenantId w) {label : MeterLabel} {after : MeterDb}
    (balanced : ∀ m, m.metered = false → after.value tenantId m = after.count m + after.inFlight m)
    (nonneg : ∀ m, m.metered = false →
      0 ≤ share w i m + (after.inFlight m - w.store.inFlight m))
    (ledger : ∀ r ∈ after.usage.reservations, r.tenantId ≠ tenantId)
    (ids : (after.resources.map Resource.id).Nodup) :
    MeterInv tenantId (w.push ⟨i, label, w.store, after⟩) where
  balanced := balanced
  shares := by
    intro j m resource
    by_cases own : j = i
    · subst own
      rw [share_push_self]
      exact nonneg m resource
    · rw [share_push_other w fun same => own same.symm]
      exact inv.shares j m resource
  total := by
    intro m
    have total := inv.total m
    simp only [World.push_store, World.push_trace, List.map_cons, List.sum_cons, moved]
    change _ = (w.trace.map (moved m)).sum at total
    change _ = _ + (w.trace.map (moved m)).sum
    omega
  ledger := ledger
  ids := ids

/-- A step that changes at most the other collections keeps the invariant. -/
theorem MeterInv.push_same (inv : MeterInv tenantId w) {label : MeterLabel} {after : MeterDb}
    (counters : ∀ m, after.counter tenantId m = w.store.counter tenantId m)
    (resources : after.resources = w.store.resources)
    (inFlight : after.inFlight = w.store.inFlight)
    (ledger : ∀ r ∈ after.usage.reservations, r.tenantId ≠ tenantId) :
    MeterInv tenantId (w.push ⟨i, label, w.store, after⟩) := by
  refine inv.push ?_ ?_ ledger (resources ▸ inv.ids)
  · intro m resource
    have value : after.value tenantId m = w.store.value tenantId m :=
      congrArg (fun row => (row.map CounterRow.value).getD 0) (counters m)
    rw [value, inFlight, MeterDb.count, resources]
    exact inv.balanced m resource
  · intro m resource
    have share := inv.shares i m resource
    rw [inFlight]
    omega

theorem MeterStep.same {label : MeterLabel} {before after : MeterDb}
    (clock : after.clock = before.clock)
    (counters : ∀ m, after.counter tenantId m = before.counter tenantId m)
    (resources : after.resources = before.resources) :
    MeterStep tenantId settleMs ⟨i, label, before, after⟩ where
  clock := clock
  counters := fun m _ => .inl (counters m)
  resources := fun r mem => ⟨r, resources ▸ mem, rfl, rfl, .inl rfl⟩

end Steps

/-! ## Assertions that hold on -/

section Stable

variable {tenantId : String} {settleMs : Int} {I : World Nat MeterLabel MeterDb → Prop}

abbrev MeterStable (tenantId : String) (settleMs : Int)
    (I : World Nat MeterLabel MeterDb → Prop) (i : Nat)
    (P : World Nat MeterLabel MeterDb → Prop) : Prop :=
  Stable (meterSystem tenantId settleMs (InWindow tenantId settleMs)).env I
    (MeterStep tenantId settleMs) i P

theorem stable_owes (i : Nat) (v : UsageMetric → Int) :
    MeterStable tenantId settleMs I i (Owes i v) :=
  Stable.own i fun events => ∀ m, m.metered = false → (events.map (moved m)).sum = v m

theorem stable_clock (i : Nat) (now : Int) :
    MeterStable tenantId settleMs I i (fun w => now ≤ w.store.clock) :=
  Stable.le (fun _ _ env => env.1) (fun _ step => step.clock.ge) i now

theorem stable_written {window now : Int} (longer : settleMs ≤ window) {m : UsageMetric}
    (resource : m.metered = false) (P : Option CounterRow → Prop)
    (written : ∀ row, Stamped (now - window) row → P row) (i : Nat) :
    MeterStable tenantId settleMs I i
      (fun w => now ≤ w.store.clock ∧ P (w.store.counter tenantId m)) := by
  constructor
  · intro w e _ ⟨later, holds⟩ _ before step _
    refine ⟨?_, ?_⟩
    · rw [World.push_store, step.clock, before]
      exact later
    · rw [World.push_store]
      rcases step.counters m resource with same | ⟨r, at', stored, stamp, recent⟩
      · rw [same, before]
        exact holds
      · rw [before] at recent
        exact written _ ⟨r, at', stored, stamp, by omega⟩
  · intro w db' _ ⟨later, holds⟩ env
    refine ⟨le_trans later env.1, ?_⟩
    change P (db'.counter tenantId m)
    rw [env.2.2.2.2 m]
    exact holds

/-- A document as it was read, or a newer version of it. -/
def Present (r : Resource) (w : World Nat MeterLabel MeterDb) : Prop :=
  ∃ r' ∈ w.store.resources, r'.id = r.id ∧ r'.units = r.units ∧ (r' = r ∨ r.version < r'.version)

theorem stable_present (i : Nat) (r : Resource) :
    MeterStable tenantId settleMs I i (Present r) := by
  constructor
  · intro w e _ ⟨r', mem, id, units, newer⟩ _ before step _
    obtain ⟨r'', mem', id', units', newer'⟩ := step.resources r' (before ▸ mem)
    refine ⟨r'', mem', id'.trans id, units'.trans units, ?_⟩
    rcases newer with rfl | newer
    · exact newer'
    · rcases newer' with rfl | newer'
      · exact .inr newer
      · exact .inr (lt_trans newer newer')
  · intro w db' _ ⟨r', mem, rest⟩ env
    exact ⟨r', by rw [env.2.1]; exact mem, rest⟩

end Stable

/-! ## Steps on a counter -/

structure Touches (key : CounterKey) (usage usage' : UsageDb) : Prop where
  counters : ∀ k, k ≠ key → usage'.counters k = usage.counters k
  reservations : usage'.reservations = usage.reservations

theorem Touches.refl (key : CounterKey) (usage : UsageDb) : Touches key usage usage :=
  ⟨fun _ _ => rfl, rfl⟩

theorem Touches.setCounter (key : CounterKey) (usage : UsageDb) (row : CounterRow) :
    Touches key usage (usage.setCounter key row) :=
  ⟨fun _ other => Function.update_of_ne other .., rfl⟩

theorem touches_updateMatching (req : LimitedIncrement) (usage : UsageDb) :
    Touches req.key usage (req.updateMatching usage) := by
  unfold LimitedIncrement.updateMatching
  split
  · split
    · exact .setCounter ..
    · exact .refl ..
  · exact .refl ..

theorem touches_insertMissing (req : LimitedIncrement) (usage : UsageDb) :
    Touches req.key usage (req.insertMissing usage) := by
  unfold LimitedIncrement.insertMissing
  split
  · exact .refl ..
  · exact .setCounter ..

theorem touches_apply (change : CounterChange) (usage : UsageDb) :
    Touches change.key usage (change.apply usage) := by
  unfold CounterChange.apply
  split <;> exact .setCounter ..

theorem touches_decrement (change : CounterChange) (usage : UsageDb) :
    Touches change.key usage (change.decrement usage) := by
  unfold CounterChange.decrement
  split
  · exact .setCounter ..
  · exact .refl ..

theorem apply_valueOf (change : CounterChange) (usage : UsageDb) :
    (change.apply usage).valueOf change.key = usage.valueOf change.key + change.delta := by
  unfold CounterChange.apply
  cases stored : usage.counters change.key with
  | none => simp [UsageDb.valueOf_none stored]
  | some row => simp [UsageDb.valueOf_some stored]

theorem decrement_covered {change : CounterChange} {usage : UsageDb} (positive : 0 < change.delta)
    (covered : change.delta ≤ usage.valueOf change.key) :
    (change.decrement usage).valueOf change.key = usage.valueOf change.key - change.delta := by
  unfold CounterChange.decrement
  cases stored : usage.counters change.key with
  | none =>
      rw [UsageDb.valueOf_none stored] at covered
      omega
  | some row =>
      rw [UsageDb.valueOf_some stored] at covered ⊢
      simp only [UsageDb.valueOf_setCounter]
      omega

/-- Move one metric by `d`. -/
def bump (m : UsageMetric) (d : Int) (v : UsageMetric → Int) : UsageMetric → Int :=
  Function.update v m (v m + d)

@[simp] theorem bump_zero (m : UsageMetric) (v : UsageMetric → Int) : bump m 0 v = v := by
  simp [bump]

section Counter

variable {tenantId : String} {settleMs : Int} {w : World Nat MeterLabel MeterDb} {i : Nat}
  {m : UsageMetric} {v : UsageMetric → Int} {usage : UsageDb}

/-- `Safe` in the guarded system. -/
abbrev MeterSafe {A : Type} (tenantId : String) (settleMs : Int) (i : Nat)
    (Q : A → World Nat MeterLabel MeterDb → Prop) (p : MeterProg A)
    (P : World Nat MeterLabel MeterDb → Prop) : Prop :=
  Safe (meterSystem tenantId settleMs (InWindow tenantId settleMs)).env (InWindow tenantId settleMs)
    (MeterInv tenantId) (MeterStep tenantId settleMs) i Q p P

/-- A step on a counter keeps the invariant as long as its call does not take more off than it
has in flight. -/
theorem MeterInv.push_counter (inv : MeterInv tenantId w)
    (touches : Touches (currentKey tenantId m) w.store.usage usage)
    (covered : m.metered = false →
      0 ≤ share w i m + (usage.valueOf (currentKey tenantId m) - w.store.value tenantId m)) :
    MeterInv tenantId (w.push ⟨i, .counter m, w.store, w.store.onCounter tenantId m usage⟩) := by
  refine inv.push ?_ ?_ ?_ inv.ids
  · intro m' resource
    have balanced := inv.balanced m' resource
    by_cases same : m' = m
    · subst same
      simp only [MeterDb.value, MeterDb.onCounter, MeterDb.count, Function.update_self] at *
      omega
    · have other : currentKey tenantId m' ≠ currentKey tenantId m :=
        fun h => same (currentKey_injective h)
      have value : usage.valueOf (currentKey tenantId m') = w.store.value tenantId m' := by
        rw [MeterDb.value, UsageDb.valueOf, UsageDb.valueOf, touches.counters _ other]
      simp only [MeterDb.value, MeterDb.onCounter, MeterDb.count, Function.update_of_ne same] at *
      omega
  · intro m' resource
    by_cases same : m' = m
    · subst same
      have covered := covered resource
      simp only [MeterDb.onCounter, Function.update_self]
      omega
    · have nonneg := inv.shares i m' resource
      simp only [MeterDb.onCounter, Function.update_of_ne same]
      omega
  · rw [show (w.store.onCounter tenantId m usage).usage.reservations =
      w.store.usage.reservations from touches.reservations]
    exact inv.ledger

theorem meterStep_counter (touches : Touches (currentKey tenantId m) w.store.usage usage)
    (fresh : InWindow tenantId settleMs (.counter m) w.store
      (w.store.onCounter tenantId m usage)) :
    MeterStep tenantId settleMs
      ⟨i, .counter m, w.store, w.store.onCounter tenantId m usage⟩ where
  clock := rfl
  counters := by
    intro m' _
    by_cases same : m' = m
    · subst same
      exact fresh
    · exact .inl (touches.counters _ fun h => same (currentKey_injective h))
  resources := fun r mem => ⟨r, mem, rfl, rfl, .inl rfl⟩

theorem Owes.push_counter (owes : Owes i v w) {d : Int}
    (moves : m.metered = false →
      usage.valueOf (currentKey tenantId m) = w.store.value tenantId m + d) :
    Owes i (bump m d v)
      (w.push ⟨i, .counter m, w.store, w.store.onCounter tenantId m usage⟩) := by
  intro m' resource
  rw [share_push_self, owes m' resource]
  by_cases same : m' = m
  · subst same
    have moves := moves resource
    simp only [MeterDb.onCounter, bump, Function.update_self]
    omega
  · simp only [MeterDb.onCounter, bump, Function.update_of_ne same]
    omega

theorem counting_safe {A : Type} {label : UsageLabel} {act : UsageDb → UsageDb}
    {report : UsageDb → A} (gain : A → Int) (nonneg : ∀ a, 0 ≤ gain a)
    (touches : ∀ usage, Touches (currentKey tenantId m) usage (act usage))
    (moves : ∀ usage, (act usage).valueOf (currentKey tenantId m) =
      usage.valueOf (currentKey tenantId m) + gain (report usage)) :
    MeterSafe tenantId settleMs i (fun a => Owes i (bump m (gain a) v))
      (counting tenantId m (Prog.update label act report)) (Owes i v) := by
  rw [counting, Prog.onto_update]
  refine Safe.update (fun a => stable_owes i _) fun w inv owes fresh => ?_
  refine ⟨inv.push_counter (touches _) ?_, meterStep_counter (touches _) fresh,
    owes.push_counter fun _ => moves _⟩
  intro resource
  have share := inv.shares i m resource
  have moves := moves w.store.usage
  have gained := nonneg (report w.store.usage)
  rw [moves]
  simp only [MeterDb.value]
  omega

end Counter

/-! ## Creates -/

section Create

variable {tenantId : String} {settleMs : Int} {i : Nat} {m : UsageMetric}
  {v : UsageMetric → Int}

theorem read_safe {A : Type} {P : World Nat MeterLabel MeterDb → Prop}
    {R : A → World Nat MeterLabel MeterDb → Prop} {label : MeterLabel} {f : MeterDb → A}
    (stable : ∀ a, MeterStable tenantId settleMs (MeterInv tenantId) i (R a))
    (found : ∀ w, MeterInv tenantId w → P w → InWindow tenantId settleMs label w.store w.store →
      R (f w.store) (w.push ⟨i, label, w.store, w.store⟩)) :
    MeterSafe tenantId settleMs i R (Prog.read label f) P := by
  refine Safe.update stable fun w inv holds allowed => ⟨?_, ?_, found w inv holds allowed⟩
  · exact inv.push_same (fun _ => rfl) rfl rfl inv.ledger
  · exact .same rfl (fun _ => rfl) rfl

/-- A look at the store tells nothing about what is in flight. -/
theorem look_owes_safe {A : Type} (f : MeterDb → A) :
    MeterSafe tenantId settleMs i (fun _ => Owes i v) (look f) (Owes i v) :=
  read_safe (fun _ => stable_owes i v) fun _ _ owes _ => owes.push_same rfl

theorem counting_bind {A B : Type} (p : UsageProg B) (k : B → UsageProg A) :
    counting tenantId m (p >>= k) = (counting tenantId m p >>= fun b => counting tenantId m (k b)) :=
  Prog.onto_bind ..

theorem done_safe {A : Type} {a : A} {Q : A → World Nat MeterLabel MeterDb → Prop}
    {P : World Nat MeterLabel MeterDb → Prop} (holds : ∀ w, P w → Q a w) :
    MeterSafe tenantId settleMs i Q (Prog.done a) P :=
  fun w _ hP => holds w hP

theorem findCounter_safe (key : CounterKey) :
    MeterSafe tenantId settleMs i (fun _ => Owes i v) (counting tenantId m (findCounter key))
      (Owes i v) := by
  have safe : MeterSafe tenantId settleMs i (fun _ => Owes i (bump m 0 v))
      (counting tenantId m (Prog.update .read id fun db => db.counters key)) (Owes i v) := by
    refine counting_safe (fun _ => 0) (fun _ => le_refl _) (fun usage => .refl _ usage) ?_
    intro usage
    rw [id, add_zero]
  simp only [bump_zero] at safe
  exact safe

def gained (req : LimitedIncrement) (through : Bool) : Int := if through then req.delta else 0

theorem gained_nonneg {req : LimitedIncrement} (positive : 0 < req.delta) (through : Bool) :
    0 ≤ gained req through := by
  unfold gained
  split <;> omega

theorem upsert_safe {req : LimitedIncrement} (keyed : req.key = currentKey tenantId m)
    (positive : 0 < req.delta) :
    MeterSafe tenantId settleMs i (fun value => Owes i (bump m (gained req value.isSome) v))
      (counting tenantId m (upsertWithinLimit req)) (Owes i v) := by
  unfold upsertWithinLimit
  rw [counting_bind]
  have update : MeterSafe tenantId settleMs i
      (fun value => Owes i (bump m (gained req value.isSome) v))
      (counting tenantId m
        (Prog.update (.writeCounter req.key) req.updateMatching req.updatedValue)) (Owes i v) := by
    refine counting_safe (fun value : Option Int => gained req value.isSome) (fun _ => gained_nonneg positive _)
      (fun usage => keyed ▸ touches_updateMatching req usage) ?_
    intro usage
    rw [← keyed]
    cases reported : req.updatedValue usage with
    | none => simp [updateMatching_none reported, gained]
    | some value => simp [(updateMatching_some reported).1, gained]
  have insert : MeterSafe tenantId settleMs i
      (fun value => Owes i (bump m (gained req value.isSome) v))
      (counting tenantId m
        (Prog.update (.writeCounter req.key) req.insertMissing req.insertedValue)) (Owes i v) := by
    refine counting_safe (fun value : Option Int => gained req value.isSome) (fun _ => gained_nonneg positive _)
      (fun usage => keyed ▸ touches_insertMissing req usage) ?_
    intro usage
    rw [← keyed]
    cases reported : req.insertedValue usage with
    | none => simp [insertMissing_none reported, gained]
    | some value => simp [(insertMissing_some reported).1, gained]
  refine Safe.bind update fun value => ?_
  cases value with
  | some value => exact done_safe fun _ owes => owes
  | none => exact insert.weaken fun _ _ owes => by simpa [gained] using owes

theorem incrementAttempts_safe {req : LimitedIncrement} (keyed : req.key = currentKey tenantId m)
    (positive : 0 < req.delta) (attempts : Nat) :
    MeterSafe tenantId settleMs i (fun result => Owes i (bump m (gained req result.ok) v))
      (counting tenantId m (incrementAttempts req attempts)) (Owes i v) := by
  have refused (current : Option CounterRow) :
      MeterSafe tenantId settleMs i (fun result => Owes i (bump m (gained req result.ok) v))
        (Prog.done (refusedAt current)) (Owes i v) :=
    done_safe fun _ owes => by simpa [gained, refusedAt] using owes
  induction attempts with
  | zero =>
      unfold incrementAttempts
      rw [counting_bind]
      exact Safe.bind (findCounter_safe req.key) fun current => refused current
  | succ attempts ih =>
      unfold incrementAttempts
      rw [counting_bind]
      refine Safe.bind (upsert_safe keyed positive) fun value => ?_
      cases value with
      | some value => exact done_safe fun _ owes => owes
      | none =>
          have untouched : bump m (gained req (none : Option Int).isSome) v = v := by simp [gained]
          rw [untouched]
          dsimp only
          rw [counting_bind]
          refine Safe.bind (findCounter_safe req.key) fun current => ?_
          cases current with
          | none => exact refused none
          | some current =>
              dsimp only
              split
              · exact ih
              · exact refused (some current)

theorem incrementWithinLimit_safe {req : LimitedIncrement}
    (keyed : req.key = currentKey tenantId m) (positive : 0 < req.delta) :
    MeterSafe tenantId settleMs i
      (fun result => Owes i (bump m (gained req (result.toOption.any LimitResult.ok)) v))
      (counting tenantId m (incrementWithinLimit req)) (Owes i v) := by
  have failed (message : String) :
      MeterSafe tenantId settleMs i
        (fun result : Except String LimitResult =>
          Owes i (bump m (gained req (result.toOption.any LimitResult.ok)) v))
        (Prog.done (.error message)) (Owes i v) :=
    done_safe fun _ owes => by simpa [gained, Except.toOption] using owes
  unfold incrementWithinLimit
  split
  · exact failed _
  · split
    · exact failed _
    · split
      · exact failed _
      · split
        · rw [counting_bind]
          refine Safe.bind (findCounter_safe req.key) fun current => done_safe fun _ owes => ?_
          simpa [gained, Except.toOption, refusedAt] using owes
        · rw [counting_bind]
          refine Safe.bind (incrementAttempts_safe keyed positive 5) fun result =>
            done_safe fun _ owes => ?_
          simpa [Except.toOption] using owes

theorem incrementUnbounded_safe {change : CounterChange}
    (keyed : change.key = currentKey tenantId m) (positive : 0 < change.delta) :
    MeterSafe tenantId settleMs i (fun _ => Owes i (bump m change.delta v))
      (counting tenantId m (incrementUnbounded change)) (Owes i v) := by
  refine counting_safe (fun _ => change.delta) (fun _ => positive.le)
    (fun usage => keyed ▸ touches_apply change usage) ?_
  intro usage
  rw [← keyed]
  exact apply_valueOf change usage

theorem checkAndConsume_safe {ent : Entitlement} {req : ConsumeRequest}
    (keyed : req.key = currentKey tenantId m) :
    MeterSafe tenantId settleMs i
      (fun result => Owes i (bump m (if result.isOk then req.requested else 0) v))
      (counting tenantId m (checkAndConsume ent req)) (Owes i v) := by
  have failed (e : ApiError) :
      MeterSafe tenantId settleMs i
        (fun result : Except ApiError Consumed =>
          Owes i (bump m (if result.isOk then req.requested else 0) v))
        (Prog.done (.error e)) (Owes i v) :=
    done_safe fun _ owes => by simpa [Except.isOk, Except.toBool] using owes
  unfold checkAndConsume
  split
  · exact failed _
  · split
    · exact failed _
    · rename_i positive
      have positive : 0 < req.requested := by omega
      split
      · exact failed _
      · split
        · rw [counting_bind]
          refine Safe.bind (incrementUnbounded_safe (show req.unbounded.key = _ from keyed) positive)
            fun value => done_safe fun _ owes => ?_
          simpa [Except.isOk, Except.toBool, ConsumeRequest.unbounded] using owes
        · rename_i limit _
          split
          · rw [counting_bind]
            refine Safe.bind
              (incrementWithinLimit_safe (show (req.limited limit.max).key = _ from keyed)
                positive)
              fun result => ?_
            cases result with
            | error message =>
                exact done_safe fun _ owes => by
                  simpa [gained, Except.toOption, Except.isOk, Except.toBool] using owes
            | ok result =>
                dsimp only
                by_cases through : result.ok = true
                · rw [if_pos through]
                  refine done_safe fun _ owes => ?_
                  simpa [gained, Except.toOption, Except.isOk, Except.toBool, through,
                    ConsumeRequest.limited] using owes
                · rw [if_neg through]
                  refine done_safe fun _ owes => ?_
                  simpa [gained, Except.toOption, Except.isOk, Except.toBool, through] using owes
          · rw [counting_bind]
            refine Safe.bind (incrementUnbounded_safe (show req.unbounded.key = _ from keyed) positive)
              fun value => done_safe fun _ owes => ?_
            simpa [Except.isOk, Except.toBool, ConsumeRequest.unbounded] using owes

/-- A call has exactly the units of a list in flight. -/
def OwesUnits (i : Nat) (units : List (UsageMetric × Nat)) : World Nat MeterLabel MeterDb → Prop :=
  Owes i fun m => unitsOf m units

theorem OwesUnits.share_eq {units : List (UsageMetric × Nat)} {w : World Nat MeterLabel MeterDb}
    (owes : OwesUnits i units w) (resource : m.metered = false) :
    share w i m = unitsOf m units :=
  owes m resource

@[simp] theorem unitsOf_nil (m : UsageMetric) : unitsOf m [] = 0 := rfl

theorem unitsOf_cons (m : UsageMetric) (u : UsageMetric × Nat) (units : List (UsageMetric × Nat)) :
    unitsOf m (u :: units) = (if u.1 = m then u.2 else 0) + unitsOf m units := by
  by_cases same : u.1 = m <;> simp [unitsOf, same]

theorem unitsOf_append (m : UsageMetric) (units units' : List (UsageMetric × Nat)) :
    unitsOf m (units ++ units') = unitsOf m units + unitsOf m units' := by
  simp [unitsOf]

theorem bump_unitsOf (metric : UsageMetric) (n : Nat) (units : List (UsageMetric × Nat)) :
    bump metric n (fun m => (unitsOf m units : Int)) =
      fun m => (unitsOf m (units ++ [(metric, n)]) : Int) := by
  funext m
  rw [unitsOf_append, unitsOf_cons, unitsOf_nil]
  by_cases same : m = metric
  · subst same
    simp [bump]
  · have other : ¬ metric = m := fun h => same h.symm
    simp [bump, Function.update_of_ne same, other]

theorem consumeAll_safe (ent : UsageMetric → Entitlement) (requested : Nat)
    (by' : Option String) (metrics : List UsageMetric) (consumed : List (UsageMetric × Nat)) :
    MeterSafe tenantId settleMs i
      (fun result w => OwesUnits i result.1 w ∧ (result.2 = none →
        result.1 = consumed ++ metrics.map fun m => (m, requested)))
      (consumeAll tenantId ent requested by' metrics consumed) (OwesUnits i consumed) := by
  induction metrics generalizing consumed with
  | nil => exact done_safe fun _ owes => ⟨owes, fun _ => by simp⟩
  | cons metric rest ih =>
      unfold consumeAll
      refine Safe.bind (look_owes_safe MeterDb.clock) fun now => ?_
      refine Safe.bind (checkAndConsume_safe rfl) fun result => ?_
      cases result with
      | error e =>
          refine done_safe fun _ owes => ⟨?_, fun none => nomatch none⟩
          simpa [Except.isOk, Except.toBool, OwesUnits] using owes
      | ok c =>
          have consumes := ih (consumed ++ [(metric, requested)])
          refine (consumes.weaken fun w _ owes => ?_).post fun result w holds => ?_
          · rw [OwesUnits, ← bump_unitsOf]
            exact owes
          · refine ⟨holds.1, fun none => ?_⟩
            rw [holds.2 none]
            simp

theorem releaseUnits_safe (named : tenantId ≠ "") (metric : UsageMetric) (requested : Nat)
    (by' : Option String) (rest : List (UsageMetric × Nat)) :
    MeterSafe tenantId settleMs i (fun _ => OwesUnits i rest)
      (releaseUnits tenantId metric requested by') (OwesUnits i ((metric, requested) :: rest)) := by
  unfold releaseUnits
  split
  · rename_i nothing
    refine done_safe fun w owes m resource => ?_
    rw [owes.share_eq resource, unitsOf_cons]
    rcases nothing with empty | metered | none
    · exact absurd empty named
    · have other : ¬ metric = m := by
        rintro rfl
        rw [metered] at resource
        exact nomatch resource
      simp [other]
    · simp [none]
  · rename_i something
    have positive : (0 : Int) < requested := by omega
    refine Safe.update (fun _ => stable_owes i _) fun w inv owes fresh => ?_
    -- what is given back is in flight, so the counter has it
    have value (resource : metric.metered = false) :
        ((releaseChange tenantId metric requested by' w.store.clock).decrement
          w.store.usage).valueOf (currentKey tenantId metric) =
            w.store.value tenantId metric + -requested := by
      have covered := inv.share_le_value i resource
      rw [owes.share_eq resource, unitsOf_cons, if_pos rfl] at covered
      rw [← sub_eq_add_neg]
      refine decrement_covered positive ?_
      change (requested : Int) ≤ w.store.value tenantId metric
      omega
    have touches : Touches (currentKey tenantId metric) w.store.usage
        ((releaseChange tenantId metric requested by' w.store.clock).decrement w.store.usage) :=
      touches_decrement (releaseChange tenantId metric requested by' w.store.clock) w.store.usage
    refine ⟨inv.push_counter touches ?_, meterStep_counter touches fresh, ?_⟩
    · intro resource
      rw [value resource, owes.share_eq resource, unitsOf_cons, if_pos rfl]
      omega
    · have owes' := Owes.push_counter owes value
      intro m resource
      rw [owes' m resource]
      by_cases same : m = metric
      · subst same
        simp [bump, unitsOf_cons]
      · have other : ¬ metric = m := fun h => same h.symm
        simp [bump, Function.update_of_ne same, unitsOf_cons, other]

theorem releaseAll_safe (named : tenantId ≠ "") (by' : Option String)
    (units : List (UsageMetric × Nat)) :
    MeterSafe tenantId settleMs i (fun _ => OwesUnits i []) (releaseAll tenantId by' units)
      (OwesUnits i units) := by
  induction units with
  | nil => exact done_safe fun _ owes => owes
  | cons u rest ih => exact Safe.bind (releaseUnits_safe named u.1 u.2 by' rest) fun _ => ih

theorem counted_document (new : NewResource) (m : UsageMetric) :
    new.document.counted m = unitsOf m new.document.units := by
  simp [Resource.counted, NewResource.document]

theorem insertResource_safe (new : NewResource) :
    MeterSafe tenantId settleMs i
      (fun result => OwesUnits i (if result.isOk then [] else new.document.units))
      (insertResource new) (OwesUnits i new.document.units) := by
  have failed (e : ApiError) :
      MeterSafe tenantId settleMs i
        (fun result : Except ApiError String =>
          OwesUnits i (if result.isOk then [] else new.document.units))
        (Prog.done (.error e)) (OwesUnits i new.document.units) :=
    done_safe fun _ owes => owes
  unfold insertResource
  split
  · exact failed _
  · have insert : MeterSafe tenantId settleMs i
        (fun taken : Bool => OwesUnits i (if taken then new.document.units else []))
        (Prog.update (.insert new.document) (MeterDb.insertResource new.document)
          (fun db => db.resources.any fun r => r.id = new.id))
        (OwesUnits i new.document.units) := by
      refine Safe.update (fun _ => stable_owes i _) fun w inv owes _ => ?_
      unfold MeterDb.insertResource
      by_cases taken : (w.store.resources.any fun r => r.id = new.id) = true
      · have taken' : (w.store.resources.any fun r => r.id = new.document.id) = true := taken
        rw [if_pos taken', taken]
        exact ⟨inv.push_same (fun _ => rfl) rfl rfl inv.ledger, .same rfl (fun _ => rfl) rfl,
          owes.push_same rfl⟩
      · have free : ¬ (w.store.resources.any fun r => r.id = new.document.id) = true := taken
        rw [if_neg free, if_neg taken]
        refine ⟨inv.push ?_ ?_ inv.ledger ?_, ⟨rfl, fun _ _ => .inl rfl, ?_⟩, ?_⟩
        · intro m resource
          have balanced := inv.balanced m resource
          simp only [MeterDb.value, MeterDb.count, List.map_cons, List.sum_cons] at *
          omega
        · intro m resource
          have share := owes.share_eq resource
          have counted := counted_document new m
          dsimp only
          omega
        · refine List.nodup_cons.mpr ⟨fun mem => ?_, inv.ids⟩
          obtain ⟨r, stored, same⟩ := List.mem_map.mp mem
          exact free (List.any_eq_true.mpr ⟨r, stored, by simpa using same⟩)
        · exact fun r mem => ⟨r, List.mem_cons_of_mem _ mem, rfl, rfl, .inl rfl⟩
        · intro m resource
          have share := owes.share_eq resource
          have counted := counted_document new m
          rw [share_push_self]
          simp only [unitsOf_nil]
          omega
    refine Safe.bind insert fun taken => ?_
    cases taken with
    | true => exact failed _
    | false => exact done_safe fun _ owes => owes

theorem createResource_safe (named : tenantId ≠ "") (new : NewResource) :
    MeterSafe tenantId settleMs i (fun _ => OwesUnits i []) (createResource tenantId new)
      (OwesUnits i []) := by
  unfold createResource withQuota
  refine Safe.bind (consumeAll_safe new.entitlement new.requested new.actor new.metrics [])
    fun result => ?_
  obtain ⟨consumed, refused⟩ := result
  cases refused with
  | some e =>
      refine Safe.bind ((releaseAll_safe named new.actor consumed).weaken fun _ _ h => h.1)
        fun _ => done_safe fun _ owes => owes
  | none =>
      refine Safe.of_fact (fun w _ holds => holds.2 rfl) fun all => ?_
      obtain rfl : consumed = new.document.units := all
      refine Safe.bind ((insertResource_safe new).weaken fun _ _ h => h.1) fun result => ?_
      cases result with
      | ok id => exact done_safe fun _ owes => owes
      | error e =>
          exact Safe.bind (releaseAll_safe named new.actor new.document.units)
            fun _ => done_safe fun _ owes => owes

end Create

/-! ## Deletes -/

section Delete

variable {tenantId : String} {settleMs : Int} {i : Nat}

theorem MeterDb.findLive_some {db : MeterDb} {id : String} {r : Resource}
    (found : db.findLive id = some r) : r ∈ db.resources ∧ r.id = id ∧ r.deletedAt = none := by
  refine ⟨List.mem_of_find?_eq_some found, ?_⟩
  simpa using List.find?_some found

theorem eq_of_id {resources : List Resource} (ids : (resources.map Resource.id).Nodup)
    {r r' : Resource} (mem : r ∈ resources) (mem' : r' ∈ resources) (same : r.id = r'.id) :
    r = r' :=
  List.inj_on_of_nodup_map ids mem mem' same

theorem sum_counted_updateFirst {p : Resource → Bool} {f : Resource → Resource}
    {resources : List Resource} {r : Resource} (found : resources.find? p = some r)
    {m : UsageMetric} (gone : (f r).counted m = 0) :
    (((Collection.updateFirst p f resources).map (Resource.counted m)).sum : Int) =
      (resources.map (Resource.counted m)).sum - r.counted m := by
  induction resources with
  | nil => simp at found
  | cons d rest ih =>
      rw [List.find?_cons] at found
      cases matched : p d with
      | true =>
          rw [matched] at found
          obtain rfl : d = r := Option.some.inj found
          simp only [Collection.updateFirst, matched, if_true, List.map_cons, List.sum_cons, gone]
          omega
      | false =>
          rw [matched] at found
          have rest := ih found
          simp only [Collection.updateFirst, matched, Bool.false_eq_true, if_false, List.map_cons,
            List.sum_cons]
          omega

theorem remove_safe {doc : Resource} (live : doc.deletedAt = none) (by' : Option String)
    (now : Int) :
    MeterSafe tenantId settleMs i
      (fun saved : Bool => OwesUnits i (if saved then doc.units else []))
      (Prog.update (.remove doc.id doc.version by' now)
        (MeterDb.removeResource doc.id doc.version by' now)
        (fun db =>
          (db.resources.find? fun r => r.id = doc.id && r.version = doc.version).isSome))
      (fun w => Present doc w ∧ OwesUnits i [] w) := by
  refine Safe.update (fun _ => stable_owes i _) fun w inv ⟨present, owes⟩ _ => ?_
  obtain ⟨r, mem, id, -, newer⟩ := present
  unfold MeterDb.removeResource
  cases found : w.store.resources.find? fun r => r.id = doc.id && r.version = doc.version with
  | none =>
      exact ⟨inv.push_same (fun _ => rfl) rfl rfl inv.ledger, .same rfl (fun _ => rfl) rfl,
        owes.push_same rfl⟩
  | some stored =>
      -- the stored document with this id and version is the one that was read
      have matched : stored.id = doc.id ∧ stored.version = doc.version := by
        simpa using List.find?_some found
      have same : stored = r :=
        eq_of_id inv.ids (List.mem_of_find?_eq_some found) mem (matched.1.trans id.symm)
      obtain rfl : stored = doc := by
        rcases newer with read | newer
        · exact same.trans read
        · rw [← same, matched.2] at newer
          exact absurd newer (lt_irrefl _)
      have counted (m : UsageMetric) : stored.counted m = unitsOf m stored.units := by
        simp [Resource.counted, live]
      refine ⟨inv.push ?_ ?_ inv.ledger ?_, ⟨rfl, fun _ _ => .inl rfl, ?_⟩, ?_⟩
      · intro m resource
        have balanced := inv.balanced m resource
        have gone : Resource.counted m
            { stored with deletedAt := some now, deletedBy := by',
                          version := stored.version + 1 } = 0 := by
          simp [Resource.counted]
        have counts := sum_counted_updateFirst
          (f := fun r => { r with deletedAt := some now, deletedBy := by', version := stored.version + 1 })
          found gone
        simp only [MeterDb.value, MeterDb.count] at *
        omega
      · intro m resource
        have share := owes.share_eq resource
        rw [unitsOf_nil] at share
        dsimp only
        omega
      · have ids := inv.ids
        rw [← Collection.map_updateFirst (p := fun r => r.id = stored.id && r.version = stored.version)
          (f := fun r => { r with deletedAt := some now, deletedBy := by', version := stored.version + 1 })
          fun _ => rfl] at ids
        exact ids
      · intro r' mem'
        rcases Collection.mem_updateFirst mem' with kept | ⟨matched', kept⟩
        · exact ⟨r', kept, rfl, rfl, .inl rfl⟩
        · refine ⟨_, kept, rfl, rfl, .inr ?_⟩
          have version : r'.version = stored.version := by
            exact of_decide_eq_true (Bool.and_eq_true _ _ ▸ matched').2
          rw [version]
          exact Nat.lt_succ_self _
      · intro m resource
        have share := owes.share_eq resource
        have counted := counted m
        rw [unitsOf_nil] at share
        rw [share_push_self]
        simp only [Option.isSome_some, if_true]
        omega

theorem findLive_safe (id : String) {P : World Nat MeterLabel MeterDb → Prop}
    (stable : MeterStable tenantId settleMs (MeterInv tenantId) i P)
    (kept : ∀ w, P w → P (w.push ⟨i, .look, w.store, w.store⟩)) :
    MeterSafe tenantId settleMs i
      (fun found w => P w ∧ ∀ r, found = some r →
        r.id = id ∧ r.deletedAt = none ∧ Present r w)
      (look fun db => db.findLive id) P := by
  refine read_safe (fun found => ?_) fun w _ holds _ => ⟨kept w holds, fun r found => ?_⟩
  · refine stable.and (Stable.all fun r => Stable.imp fun _ => ?_)
    exact (Stable.own i fun _ => r.id = id).and
      ((Stable.own i fun _ => r.deletedAt = none).and (stable_present i r))
  · obtain ⟨mem, same, live⟩ := MeterDb.findLive_some found
    exact ⟨same, live, r, mem, rfl, rfl, .inl rfl⟩

theorem deleteResource_safe (named : tenantId ≠ "") (noun id : String) (by' : Option String) :
    MeterSafe tenantId settleMs i (fun _ => OwesUnits i []) (deleteResource tenantId noun id by')
      (OwesUnits i []) := by
  unfold deleteResource
  refine Safe.bind (findLive_safe id (stable_owes i _) fun _ owes => owes.push_same rfl)
    fun existing => ?_
  cases existing with
  | none => exact done_safe fun _ h => h.1
  | some existing =>
      refine Safe.of_fact (fun _ _ h => (h.2 existing rfl).1.symm) fun existed : id = existing.id => ?_
      refine Safe.bind
        ((findLive_safe id ((stable_owes i _).and (stable_present i existing)) ?_).weaken
          fun w _ h => ⟨h.1, (h.2 existing rfl).2.2⟩) fun doc => ?_
      · exact fun w h => ⟨Owes.push_same h.1 rfl, h.2⟩
      cases doc with
      | none => exact done_safe fun _ h => h.1.1
      | some doc =>
          refine Safe.of_fact (fun w inv h => ?_) fun (read : doc.id = id ∧ doc.deletedAt = none ∧
            doc.units = existing.units) => ?_
          · obtain ⟨same, live, present⟩ := h.2 doc rfl
            refine ⟨same, live, ?_⟩
            obtain ⟨r, mem, id, units, -⟩ := present
            obtain ⟨r', mem', id', units', -⟩ := h.1.2
            obtain rfl := eq_of_id inv.ids mem mem' (id.trans (same.trans (existed.trans id'.symm)))
            exact units.symm.trans units'
          · obtain ⟨rfl, live, units⟩ := read
            rw [← units]
            refine Safe.bind (read_safe
              (fun _ => (stable_present i doc).and (stable_owes i fun m => unitsOf m []))
              fun w _ h _ => ⟨(h.2 doc rfl).2.2, Owes.push_same h.1.1 rfl⟩) fun now => ?_
            refine Safe.bind (remove_safe live by' now) fun saved => ?_
            cases saved with
            | true => exact Safe.bind (releaseAll_safe named by' doc.units) fun _ =>
                done_safe fun _ owes => owes
            | false => exact done_safe fun _ owes => owes

end Delete

/-! ## Reconciliations -/

section Reconcile

variable {tenantId : String} {settleMs : Int} {i : Nat} {req : ReconcileRequest} {now : Int}
  {counters : UsageMetric → Option CounterRow}

/-- What a run that started at `now` knows of the counters. -/
def Watched (tenantId : String) (now : Int) (known : UsageMetric → Option CounterRow → Prop)
    (w : World Nat MeterLabel MeterDb) : Prop :=
  now ≤ w.store.clock ∧ ∀ m, m.metered = false → known m (w.store.counter tenantId m)

theorem stable_watched (longer : settleMs ≤ req.settleMs)
    {known : UsageMetric → Option CounterRow → Prop}
    (written : ∀ m row, Stamped (now - req.settleMs) row → known m row) :
    MeterStable tenantId settleMs (MeterInv tenantId) i (Watched tenantId now known) := by
  have each (m : UsageMetric) : MeterStable tenantId settleMs (MeterInv tenantId) i (fun w =>
      m.metered = false → now ≤ w.store.clock ∧ known m (w.store.counter tenantId m)) :=
    Stable.imp fun resource => stable_written longer resource (known m) (written m) i
  have clock : MeterStable tenantId settleMs (MeterInv tenantId) i
      (fun w => now ≤ w.store.clock) := stable_clock i now
  have all := clock.and (Stable.all each)
  constructor
  · intro w e inv ⟨later, holds⟩ other before step inv'
    have kept := all.1 w e inv ⟨later, fun m resource => ⟨later, holds m resource⟩⟩ other before
      step inv'
    exact ⟨kept.1, fun m resource => (kept.2 m resource).2⟩
  · intro w db' inv ⟨later, holds⟩ env
    have kept := all.2 w db' inv ⟨later, fun m resource => ⟨later, holds m resource⟩⟩ env
    exact ⟨kept.1, fun m resource => (kept.2 m resource).2⟩

/-- The counter is as the run read it, or was written since. -/
def AsRead (t : Int) (read : List UsageMetric) (counters : UsageMetric → Option CounterRow)
    (m : UsageMetric) (row : Option CounterRow) : Prop :=
  m ∈ read → row = counters m ∨ Stamped t row

/-- The run will skip the metric, or its count agrees with what it read, or the counter was
written since. -/
def Harmless (t : Int) (req : ReconcileRequest) (now : Int)
    (counters : UsageMetric → Option CounterRow) (actual : UsageMetric → Nat) (m : UsageMetric)
    (row : Option CounterRow) : Prop :=
  recent req.settleMs now ((counters m).bind CounterRow.lastIncrementedAt) = true ∨
    (actual m : Int) = ((counters m).map CounterRow.value).getD 0 ∨ Stamped t row

/-- A run has nothing in flight, and knows something of the counters. -/
def Watching (tenantId : String) (i : Nat) (now : Int)
    (known : UsageMetric → Option CounterRow → Prop) (w : World Nat MeterLabel MeterDb) : Prop :=
  Watched tenantId now known w ∧ OwesUnits i [] w

theorem stable_watching (longer : settleMs ≤ req.settleMs)
    {known : UsageMetric → Option CounterRow → Prop}
    (written : ∀ m row, Stamped (now - req.settleMs) row → known m row) :
    MeterStable tenantId settleMs (MeterInv tenantId) i (Watching tenantId i now known) :=
  (stable_watched longer written).and (stable_owes i _)

theorem readCounters_safe (longer : settleMs ≤ req.settleMs)
    (counters : UsageMetric → Option CounterRow) (rest read : List UsageMetric) :
    MeterSafe tenantId settleMs i
      (fun counters' => Watching tenantId i now
        (AsRead (now - req.settleMs) (read ++ rest) counters'))
      (readCounters tenantId rest counters)
      (Watching tenantId i now (AsRead (now - req.settleMs) read counters)) := by
  induction rest generalizing read counters with
  | nil => exact done_safe fun w h => by rw [List.append_nil]; exact h
  | cons m rest ih =>
      unfold readCounters
      refine Safe.bind (R := fun row => Watching tenantId i now
        (AsRead (now - req.settleMs) (read ++ [m]) (Function.update counters m row)))
        (read_safe (fun row => stable_watching longer fun _ _ stamped _ => .inr stamped) ?_)
        fun row => ?_
      · intro w _ ⟨⟨later, holds⟩, owes⟩ _
        refine ⟨⟨later, fun m' resource read' => ?_⟩, Owes.push_same owes rfl⟩
        by_cases same : m' = m
        · subst same
          exact .inl (by simp)
        · rw [Function.update_of_ne same]
          refine holds m' resource ?_
          rcases List.mem_append.mp read' with before | last
          · exact before
          · exact absurd (List.mem_singleton.mp last) same
      · have reads := ih (Function.update counters m row) (read ++ [m])
        rw [List.append_assoc] at reads
        exact reads

theorem countResources_safe (longer : settleMs ≤ req.settleMs)
    (counters : UsageMetric → Option CounterRow) (rest counted : List UsageMetric)
    (actual : UsageMetric → Nat) :
    MeterSafe tenantId settleMs i
      (fun actual' => Watching tenantId i now fun m row =>
        AsRead (now - req.settleMs) reconciledMetrics counters m row ∧
          (m ∈ counted ++ rest → Harmless (now - req.settleMs) req now counters actual' m row))
      (countResources req counters now rest actual)
      (Watching tenantId i now fun m row =>
        AsRead (now - req.settleMs) reconciledMetrics counters m row ∧
          (m ∈ counted → Harmless (now - req.settleMs) req now counters actual m row)) := by
  induction rest generalizing counted actual with
  | nil => exact done_safe fun w h => by rw [List.append_nil]; exact h
  | cons m rest ih =>
      unfold countResources
      refine Safe.bind (R := fun n => Watching tenantId i now fun m' row =>
        AsRead (now - req.settleMs) reconciledMetrics counters m' row ∧
          (m' ∈ counted ++ [m] → Harmless (now - req.settleMs) req now counters
            (Function.update actual m n) m' row)) (read_safe (fun n => ?_) ?_) fun n => ?_
      · refine stable_watching longer fun m' row stamped => ?_
        exact ⟨fun _ => .inr stamped, fun _ => .inr (.inr stamped)⟩
      · intro w inv ⟨⟨later, holds⟩, owes⟩ settled
        refine ⟨⟨later, fun m' resource => ?_⟩, Owes.push_same owes rfl⟩
        obtain ⟨asRead, before⟩ := holds m' resource
        refine ⟨asRead, fun mem => ?_⟩
        by_cases same : m' = m
        · subst same
          rcases asRead ((mem_reconciledMetrics m').mpr resource) with read | stamped
          · rcases settled with still | recent | changed
            · -- nothing in flight: the counter that was read is the number of documents
              have balanced := inv.balanced m' resource
              rw [still, add_zero] at balanced
              refine .inr (.inl ?_)
              rw [Function.update_self, ← balanced, ← read]
              rfl
            · exact .inl recent
            · rw [World.push_store, MeterDb.matches] at *
              rw [read] at changed
              simp at changed
          · exact .inr (.inr stamped)
        · have earlier : m' ∈ counted := by
            rcases List.mem_append.mp mem with earlier | last
            · exact earlier
            · exact absurd (List.mem_singleton.mp last) same
          unfold Harmless
          rw [Function.update_of_ne same]
          exact before earlier
      · have counts := ih (counted ++ [m]) (Function.update actual m n)
        rw [List.append_assoc] at counts
        exact counts

/-- A compare-and-set of a metric that the run does not skip, and whose count differs from what
it read, finds the counter changed. -/
theorem not_matches {db : MeterDb} {m : UsageMetric} {row : Option CounterRow}
    (old : recent req.settleMs now (row.bind CounterRow.lastIncrementedAt) = false)
    (positive : 0 < req.settleMs)
    (stamped : Stamped (now - req.settleMs) (db.counter tenantId m)) :
    db.matches tenantId m (expectedOf row) = false := by
  obtain ⟨r, at', stored, stamp, later⟩ := stamped
  rw [MeterDb.matches, stored]
  refine decide_eq_false fun same => ?_
  cases row with
  | none => exact nomatch same
  | some read =>
      simp only [expectedOf, Option.map_some, Option.some.injEq, Prod.mk.injEq] at same
      simp only [Option.bind_some, ← same.2, stamp, recent, Option.any_some, Bool.and_eq_false_iff,
        decide_eq_false_iff_not] at old
      omega

/-- A step of a run that keeps to itself what it finds. -/
theorem watching_same {known : UsageMetric → Option CounterRow → Prop}
    {w : World Nat MeterLabel MeterDb} {label : MeterLabel}
    (watching : Watching tenantId i now known w) :
    Watching tenantId i now known (w.push ⟨i, label, w.store, w.store⟩) :=
  ⟨watching.1, Owes.push_same watching.2 rfl⟩

abbrev Reporting (tenantId : String) (settleMs : Int) (i : Nat) (now : Int)
    (known : UsageMetric → Option CounterRow → Prop) (label : MeterLabel)
    (act : MeterDb → MeterDb) : Prop :=
  ∀ w, MeterInv tenantId w → Watching tenantId i now known w →
    InWindow tenantId settleMs label w.store (act w.store) →
      MeterInv tenantId (w.push ⟨i, label, w.store, act w.store⟩) ∧
        MeterStep tenantId settleMs ⟨i, label, w.store, act w.store⟩ ∧
        Watching tenantId i now known (w.push ⟨i, label, w.store, act w.store⟩)

theorem reporting_same {known : UsageMetric → Option CounterRow → Prop} {label : MeterLabel}
    {act : MeterDb → MeterDb}
    (same : ∀ w, Watching tenantId i now known w → act w.store = w.store) :
    Reporting tenantId settleMs i now known label act := by
  intro w inv watching _
  rw [same w watching]
  exact ⟨inv.push_same (fun _ => rfl) rfl rfl inv.ledger, .same rfl (fun _ => rfl) rfl,
    watching_same watching⟩

theorem reconcileMetric_each {actual : UsageMetric → Nat} {m : UsageMetric}
    (resource : m.metered = false) (positive : 0 < req.settleMs) :
    (reconcileMetric tenantId req now (counters m) (actual m) none m).Each
      (Reporting tenantId settleMs i now
        (Harmless (now - req.settleMs) req now counters actual)) := by
  unfold reconcileMetric
  dsimp only
  split
  · trivial
  · rename_i drifted
    split
    · trivial
    · split
      · trivial
      · rename_i old
        refine Prog.Each.bind ?_ fun _ => trivial
        unfold correct
        refine Prog.Each.bind (.read (reporting_same fun _ _ => rfl)) fun at' => ?_
        refine Prog.Each.bind (.update (reporting_same fun w watching => ?_)) fun _ => trivial
        unfold MeterDb.compareAndSet
        rw [if_neg]
        rw [Bool.not_eq_true]
        have old' : recent req.settleMs now ((counters m).bind CounterRow.lastIncrementedAt) =
            false := by
          simp only [Bool.or_eq_true, not_or, Bool.not_eq_true] at old
          exact old.1
        rcases watching.1.2 m resource with recent | agrees | stamped
        · rw [old'] at recent
          cases recent
        · refine absurd ?_ drifted
          simp only [Option.map_none, Option.getD_none]
          omega
        · exact not_matches old' positive stamped

theorem reconcileMetrics_each {actual : UsageMetric → Nat} (positive : 0 < req.settleMs)
    {metrics : List UsageMetric} (resources : ∀ m ∈ metrics, m.metered = false) :
    (reconcileMetrics tenantId req now counters actual (fun _ => none) metrics).Each
      (Reporting tenantId settleMs i now
        (Harmless (now - req.settleMs) req now counters actual)) := by
  induction metrics with
  | nil => trivial
  | cons m rest ih =>
      refine Prog.Each.bind (reconcileMetric_each (resources m (List.mem_cons_self ..)) positive)
        fun entry => ?_
      exact Prog.Each.bind (ih fun m' mem => resources m' (List.mem_cons_of_mem _ mem)) fun _ =>
        trivial

theorem voidStale_safe {known : UsageMetric → Option CounterRow → Prop}
    (longer : settleMs ≤ req.settleMs)
    (written : ∀ m row, Stamped (now - req.settleMs) row → known m row) :
    MeterSafe tenantId settleMs i (fun _ => Watching tenantId i now known)
      (voidStale tenantId req now) (Watching tenantId i now known) := by
  unfold voidStale
  split
  · exact done_safe fun _ h => h
  · refine Safe.update (fun _ => stable_watching longer written) fun w inv watching _ => ?_
    refine ⟨inv.push_same (fun _ => rfl) rfl rfl ?_, .same rfl (fun _ => rfl) rfl,
      watching.1, Owes.push_same watching.2 rfl⟩
    intro r mem
    obtain ⟨r', stored, rfl⟩ := List.mem_map.mp mem
    have tenant : (r'.voided tenantId now req.lingerMs).tenantId = r'.tenantId := by
      unfold Reservation.voided
      split <;> rfl
    rw [tenant]
    exact inv.ledger r' stored

theorem summarize_none {db : MeterDb} (ledger : ∀ r ∈ db.usage.reservations, r.tenantId ≠ tenantId) :
    db.summarize tenantId now = fun _ => none := by
  funext m
  have empty : (db.usage.reservations.filter fun r => r.tenantId = tenantId && r.metric = m) = [] := by
    refine List.filter_eq_nil_iff.mpr fun r mem => ?_
    simp [ledger r mem]
  rw [MeterDb.summarize, empty]

theorem reconcile_safe (positive : 0 < settleMs) (longer : settleMs ≤ req.settleMs)
    (arrives : req.arrival.Perm reconciledMetrics) :
    MeterSafe tenantId settleMs i (fun _ => OwesUnits i []) (reconcile tenantId req)
      (OwesUnits i []) := by
  unfold reconcile
  split
  · exact done_safe fun _ owes => owes
  · refine Safe.bind (R := fun now =>
      Watching tenantId i now (AsRead (now - req.settleMs) [] fun _ => none))
      (read_safe (fun now => stable_watching longer fun _ _ stamped _ => .inr stamped)
        fun w _ owes _ => ⟨⟨le_refl _, fun _ _ read => nomatch read⟩, Owes.push_same owes rfl⟩)
      fun now => ?_
    refine Safe.bind (readCounters_safe longer (fun _ => none) reconciledMetrics []) fun counters => ?_
    refine Safe.bind (voidStale_safe longer fun _ _ stamped _ => .inr stamped) fun _ => ?_
    refine Safe.bind ((countResources_safe longer counters req.arrival [] fun _ => 0).weaken fun w _ h => ⟨⟨h.1.1, fun m resource =>
      ⟨h.1.2 m resource, fun none => nomatch none⟩⟩, h.2⟩) fun actual => ?_
    refine Safe.bind (R := fun reserved w => Watching tenantId i now
        (Harmless (now - req.settleMs) req now counters actual) w ∧ reserved = fun _ => none)
      (read_safe (fun reserved => ?_) fun w inv h _ => ⟨⟨⟨h.1.1, fun m resource => ?_⟩,
        Owes.push_same h.2 rfl⟩, summarize_none inv.ledger⟩) fun reserved => ?_
    · refine (stable_watching longer fun _ _ stamped => .inr (.inr stamped)).and ?_
      exact Stable.own i fun _ => reserved = fun _ => none
    · refine (h.1.2 m resource).2 (List.mem_append_right _ ?_)
      exact arrives.mem_iff.mpr ((mem_reconciledMetrics m).mpr resource)
    · refine Safe.of_fact (fun _ _ h => h.2) fun nothing => ?_
      subst nothing
      refine Safe.bind ((Safe.of_kept
        (stable_watching longer fun _ _ stamped => .inr (.inr stamped))
        (reconcileMetrics_each (by omega) fun m mem => (mem_reconciledMetrics m).mp mem)).weaken
          fun _ _ h => h.1) fun _ => ?_
      exact done_safe fun _ h => h.2

end Reconcile

/-! ## The result -/

section Result

variable {tenantId : String} {settleMs : Int}

theorem meterCall_safe (named : tenantId ≠ "") (positive : 0 < settleMs) (i : Nat)
    {call : MeterCall} (within : call.Within settleMs) :
    MeterSafe tenantId settleMs i (fun _ => OwesUnits i []) (call.program tenantId)
      (OwesUnits i []) := by
  cases call with
  | create new => exact Safe.bind (createResource_safe named new) fun _ => done_safe fun _ h => h
  | delete noun id by' =>
      exact Safe.bind (deleteResource_safe named noun id by') fun _ => done_safe fun _ h => h
  | reconcile req =>
      exact Safe.bind (reconcile_safe positive within.1 within.2) fun _ => done_safe fun _ h => h

theorem meter_discipline (named : tenantId ≠ "") (positive : 0 < settleMs) {s₀ : MeterDb}
    (correct : Correct tenantId s₀) :
    Discipline (meterSystem tenantId settleMs (InWindow tenantId settleMs)) (MeterInv tenantId)
      (MeterStep tenantId settleMs) (fun i _ => OwesUnits i []) s₀ where
  init :=
    { balanced := fun m resource => by
        rw [correct.balanced m ((mem_reconciledMetrics m).mpr resource), correct.idle m, add_zero]
      shares := fun _ _ _ => le_refl _
      total := correct.idle
      ledger := correct.ledger
      ids := correct.ids }
  env := by
    intro w db' inv env
    obtain ⟨-, resources, inFlight, reservations, counters⟩ := env
    refine ⟨fun m resource => ?_, inv.shares, fun m => ?_, ?_, ?_⟩
    · have value : db'.value tenantId m = w.store.value tenantId m :=
        congrArg (fun row => (row.map CounterRow.value).getD 0) (counters m)
      dsimp only
      rw [value, MeterDb.count, resources, inFlight]
      exact inv.balanced m resource
    · dsimp only
      rw [inFlight]
      exact inv.total m
    · dsimp only
      rw [reservations]
      exact inv.ledger
    · dsimp only
      rw [resources]
      exact inv.ids
  start := by
    rintro i p ⟨call, within, rfl⟩
    refine ⟨OwesUnits i [], stable_owes i _, fun w _ fresh m _ => ?_, ?_⟩
    · have none : w.own i = [] := List.filter_eq_nil_iff.mpr fun e mem => by simp [fresh e mem]
      simp [share, none]
    · exact meterCall_safe named positive i within

/-- While steps keep to the settle window, reconciliation leaves correct counters correct: once
every call has returned, each counter is the number of resources that exist. -/
theorem reconcile_keeps_counters (tenantId : String) (settleMs : Int) (s₀ : MeterDb)
    (c : Config Nat MeterLabel MeterDb MeterReply) (named : tenantId ≠ "")
    (positive : 0 < settleMs) (correct : Correct tenantId s₀)
    (reach : (meterSystem tenantId settleMs (InWindow tenantId settleMs)).Reach s₀ c)
    (finished : ∀ i p, c.pool i = some p → ∃ reply, p = .done reply) :
    ∀ m ∈ reconciledMetrics, c.world.store.value tenantId m = c.world.store.count m := by
  intro m mem
  have resource := (mem_reconciledMetrics m).mp mem
  have held := reach.sound (meter_discipline named positive correct)
  -- a call that has returned, and one that never started, have nothing in flight
  have settled (i : Nat) : share c.world i m = 0 := by
    cases running : c.pool i with
    | none =>
        have none : c.world.own i = [] :=
          List.filter_eq_nil_iff.mpr fun e mem => by simp [held.unused i running e mem]
        simp [share, none]
    | some p =>
        obtain ⟨reply, rfl⟩ := finished i p running
        exact reach.result (meter_discipline named positive correct) running m resource
  have total := c.world.sum_own (moved m) (c.world.trace.map Event.tid).toFinset fun e mem =>
    List.mem_toFinset.mpr (List.mem_map_of_mem mem)
  have nothing : c.world.store.inFlight m = 0 := by
    rw [held.inv.total m, total]
    exact Finset.sum_eq_zero fun i _ => settled i
  rw [held.inv.balanced m resource, nothing, add_zero]

end Result

instance (t : Int) (row : Option CounterRow) : Decidable (Stamped t row) :=
  decidable_of_iff (row.any fun r => r.lastIncrementedAt.any fun at' => t < at') (by
    simp only [Stamped, Option.any_eq_true, decide_eq_true_eq]
    constructor
    · rintro ⟨r, stored, at', stamp, later⟩
      exact ⟨r, at', stored, stamp, later⟩
    · rintro ⟨r, at', stored, stamp, later⟩
      exact ⟨r, stored, at', stamp, later⟩)

instance (tenantId : String) (settleMs : Int) (label : MeterLabel) (db db' : MeterDb) :
    Decidable (InWindow tenantId settleMs label db db') := by
  cases label <;> unfold InWindow <;> infer_instance

instance (tenantId : String) (settleMs : Int) (label : MeterLabel) (db db' : MeterDb) :
    Decidable ((meterSystem tenantId settleMs (InWindow tenantId settleMs)).ok label db db') :=
  inferInstanceAs (Decidable (InWindow tenantId settleMs label db db'))

namespace DeletedAlert

def alert (id : String) : Resource :=
  { id, version := 0, deletedAt := none, deletedBy := none, units := [(.alerts, 1)] }

/-- Two alert rules, and the counter says two, since long ago. -/
def store : MeterDb where
  usage := emptyUsage.setCounter (currentKey "t1" .alerts)
    { kind := .current, value := 2, lastIncrementedAt := some 0, lastReconciledAt := none,
      updatedBy := none, expiresAt := none }
  resources := [alert "a", alert "b"]
  clock := 1000000
  inFlight := fun _ => 0

def removal : MeterCall := .delete "Alert" "a" none

def recount : MeterCall :=
  .reconcile
    { dryRun := false, actor := some "system", settleMs := 60000, lingerMs := 0,
      arrival := reconciledMetrics }

abbrev MeterMove := Move Nat MeterLabel MeterDb MeterReply

def startCall (i : Nat) (call : MeterCall) (n : Nat) : List MeterMove :=
  .start i (call.program "t1") :: List.replicate n (.act i)

/-- The delete runs between the reads and the counts of a reconciliation. -/
def detected : List MeterMove :=
  startCall 1 recount 8 ++ (startCall 0 removal 5 ++ List.replicate 11 (.act 1))

/-- A reconciliation runs between the two steps of the delete. -/
def overlooked : List MeterMove :=
  startCall 0 removal 4 ++ (startCall 1 recount 19 ++ List.replicate 1 (.act 0))

def after (ms : List MeterMove) : Config Nat MeterLabel MeterDb MeterReply :=
  ms.foldl Config.move (.idle store)

theorem store_correct : Correct "t1" store where
  balanced := by decide
  idle := fun _ => rfl
  ledger := fun _ mem => nomatch mem
  ids := by decide

theorem within : removal.Within 60000 ∧ recount.Within 60000 :=
  ⟨trivial, le_refl _, .refl _⟩

/-- Both calls have returned. -/
def returned (c : Config Nat MeterLabel MeterDb MeterReply) (i : Nat) : Bool :=
  match c.pool i with
  | some (.step ..) => false
  | _ => true

theorem finished {ms : List MeterMove} (only : ∀ i ∈ ms.filterMap Move.process, i = 0 ∨ i = 1)
    (delete : returned (after ms) 0 = true) (reconcile : returned (after ms) 1 = true) (i : Nat)
    (p : MeterProg MeterReply) (running : (after ms).pool i = some p) :
    ∃ reply, p = .done reply := by
  have isReturned : returned (after ms) i = true := by
    rcases only i (Config.moves_only running) with rfl | rfl
    · exact delete
    · exact reconcile
  rw [returned, running] at isReturned
  cases p with
  | done reply => exact ⟨reply, rfl⟩
  | step label act next => exact nomatch isReturned

end DeletedAlert

open DeletedAlert in
/-- The reconciliation finds the counter changed and leaves it alone. -/
theorem reconcile_keeps_counters_detected :
    (after detected).world.store.value "t1" .alerts =
      (after detected).world.store.count .alerts := by
  refine reconcile_keeps_counters "t1" 60000 store (after detected) (by decide) (by decide)
    store_correct (Reach.moves .init ?_)
    (finished (by decide) (by decide +kernel) (by decide +kernel)) .alerts (by decide)
  refine LegalRun.append ⟨⟨rfl, recount, within.2, rfl⟩, ?_⟩
    (LegalRun.append ⟨⟨rfl, removal, within.1, rfl⟩, ?_⟩ ?_)
  all_goals decide +kernel

open DeletedAlert in
/-- The delete has removed the alert and not yet released it when the reconciliation counts. The
counter has not changed for a long time, so it is corrected, and the release takes the same
alert off once more. -/
theorem deleted_alert_counted_twice :
    ¬ ∀ (tenantId : String) (settleMs : Int) (s₀ : MeterDb)
        (c : Config Nat MeterLabel MeterDb MeterReply), tenantId ≠ "" → 0 < settleMs →
      Correct tenantId s₀ →
      (meterSystem tenantId settleMs fun _ _ _ => True).Reach s₀ c →
      (∀ i p, c.pool i = some p → ∃ reply, p = .done reply) →
      ∀ m ∈ reconciledMetrics, c.world.store.value tenantId m = c.world.store.count m := by
  intro all
  have same := all "t1" 60000 store (after overlooked) (by decide) (by decide) store_correct
    (Reach.moves .init (LegalRun.append ⟨⟨rfl, removal, within.1, rfl⟩, .acts (fun _ _ _ => trivial) ..⟩
      (LegalRun.append ⟨⟨rfl, recount, within.2, rfl⟩, .acts (fun _ _ _ => trivial) ..⟩
        (.acts (fun _ _ _ => trivial) ..))))
    (finished (by decide) (by decide +kernel) (by decide +kernel)) .alerts (by decide)
  have value : (after overlooked).world.store.value "t1" .alerts = 0 := by decide +kernel
  have count : (after overlooked).world.store.count .alerts = 1 := by decide +kernel
  rw [value, count] at same
  exact absurd same (by decide)

end AnalyticsBackend.Usage
