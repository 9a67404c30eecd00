import AnalyticsBackend.Delivery.Pipeline

/-!
# One worker at a delivery

A run is `pending` exactly while a worker is between its creation or its claim and the recorded
outcome, and a pending run is nobody else's to claim. Nothing claims a run that a crash has left
`pending`.
-/

namespace AnalyticsBackend.Delivery
open Lib Collection System

/-! ## Who is at what -/

def takes (e : DeliveryEvent) : Option String :=
  match e.label with
  | .create run => if e.before.refuses run then none else some run.id
  | .claim _ _ _ | .claimDue _ => (e.label.selected e.before).map DeliveryRun.id
  | _ => none

def DeliveryLabel.isRecord : DeliveryLabel → Bool
  | .record _ _ _ => true
  | _ => false

/-- The run that the last of some steps leave their worker at. -/
def latest : List DeliveryEvent → Option String
  | [] => none
  | e :: earlier => (takes e).or (if e.label.isRecord then none else latest earlier)

/-- The run that a worker attempts. -/
def attempting (w : DeliveryWorld) (i : Nat) : Option String := latest (w.own i)

/-- The run is sent, skipped or dead, or `retryDue` claims it from some time on. -/
def Settled (run : DeliveryRun) : Prop :=
  run.status = .sent ∨ run.status = .skipped ∨ run.status = .dead ∨
    ∃ from_, ∀ now, from_ ≤ now → run.due now = true

/-- Runs that nobody attempts. -/
structure DeliveryStart (db : DeliveryDb) : Prop where
  ids : (db.runs.map DeliveryRun.id).Nodup
  keys : (db.runs.map fun run => (run.tenantId, run.idempotencyKey)).Nodup
  idle : ∀ run ∈ db.runs, run.status ≠ .pending
  queued : ∀ run ∈ db.runs, run.status = .retrying → run.nextAttemptAt.isSome = true

/-- Ids and keys are unique, and the pending runs are those that are attempted, each by one worker. -/
structure DeliveryInv (w : DeliveryWorld) : Prop where
  ids : (w.store.runs.map DeliveryRun.id).Nodup
  keys : (w.store.runs.map fun run => (run.tenantId, run.idempotencyKey)).Nodup
  held : ∀ run ∈ w.store.runs, run.status = .pending → ∃ i, attempting w i = some run.id
  busy : ∀ i id, attempting w i = some id → ∃ run ∈ w.store.runs, run.id = id ∧ run.status = .pending
  alone : ∀ i j id, attempting w i = some id → attempting w j = some id → i = j
  queued : ∀ run ∈ w.store.runs, run.status = .retrying → run.nextAttemptAt.isSome = true

structure DeliveryStep (e : DeliveryEvent) : Prop where
  acts : e.after = e.label.act e.before
  drawn : DeliveryDrawn e.label e.before e.after

def Exists (id tenantId : String) (db : DeliveryDb) : Prop :=
  ∃ run ∈ db.runs, run.id = id ∧ run.tenantId = tenantId

/-- When a step may be taken: a run is created pending and no pending run is claimed, by a worker that
attempts none, and an outcome is recorded by the worker that attempts the run. -/
def Permitted (w : DeliveryWorld) (i : Nat) : DeliveryLabel → Prop
  | .create run => attempting w i = none ∧ run.status = .pending
  | .claim _ _ seen => attempting w i = none ∧ seen ≠ .pending
  | .claimDue _ => attempting w i = none
  | .record id tenantId _ => attempting w i = some id ∧ Exists id tenantId w.store
  | .look | .send _ => True

section Steps

variable {w : DeliveryWorld} {e : DeliveryEvent}

theorem attempting_self (w : DeliveryWorld) (e : DeliveryEvent) :
    attempting (w.push e) e.tid =
      (takes e).or (if e.label.isRecord then none else attempting w e.tid) := by
  rw [attempting, World.own_push, if_pos rfl, latest, attempting]

theorem attempting_other (w : DeliveryWorld) {e : DeliveryEvent} {i : Nat} (other : e.tid ≠ i) :
    attempting (w.push e) i = attempting w i := by
  rw [attempting, World.own_push, if_neg other, attempting]

theorem set_id (label : DeliveryLabel) (run : DeliveryRun) : (label.set run).id = run.id := by
  cases label with
  | record id tenantId patch => cases h : patch.outcome <;> simp [DeliveryLabel.set, DeliveryPatch.apply, h]
  | _ => rfl

theorem set_key (label : DeliveryLabel) (run : DeliveryRun) :
    ((label.set run).tenantId, (label.set run).idempotencyKey) = (run.tenantId, run.idempotencyKey) := by
  cases label with
  | record id tenantId patch => cases h : patch.outcome <;> simp [DeliveryLabel.set, DeliveryPatch.apply, h]
  | _ => rfl

theorem apply_status (patch : DeliveryPatch) (run : DeliveryRun) :
    (patch.apply run).status ≠ .pending ∧
      ((patch.apply run).status = .retrying → (patch.apply run).nextAttemptAt.isSome = true) := by
  cases h : patch.outcome <;> simp [DeliveryPatch.apply, h]

theorem selected_mem {label : DeliveryLabel} {db : DeliveryDb} {run : DeliveryRun}
    (found : label.selected db = some run) : run ∈ db.runs := by
  cases label with
  | claim | record => exact List.mem_of_find?_eq_some found
  | claimDue now => exact List.mem_of_mem_filter (List.argmin_mem found)
  | look | create | send => exact nomatch found

def DeliveryLabel.isClaim : DeliveryLabel → Bool
  | .claim _ _ _ | .claimDue _ => true
  | _ => false

theorem claimed_status {label : DeliveryLabel} {db : DeliveryDb} {run : DeliveryRun} {i : Nat}
    (claims : label.isClaim = true) (may : Permitted w i label)
    (found : label.selected db = some run) :
    run.status ≠ .pending ∧ (label.set run).status = .pending := by
  cases label with
  | claim id tenantId seen =>
      have is := List.find?_some found
      simp only [Bool.and_eq_true, decide_eq_true_eq] at is
      exact ⟨is.2 ▸ may.2, rfl⟩
  | claimDue now =>
      have is := List.of_mem_filter (List.argmin_mem found)
      simp only [DeliveryRun.due, Bool.and_eq_true, decide_eq_true_eq] at is
      exact ⟨by rw [is.1]; decide, rfl⟩
  | look | create | send | record => exact nomatch claims

/-- The runs after a step are those before it, with one of them or a new one in a new state. -/
def Replaces (runs : List DeliveryRun) (new : DeliveryRun) (runs' : List DeliveryRun) : Prop :=
  ∀ run, run ∈ runs' ↔ (run ∈ runs ∧ run.id ≠ new.id) ∨ run = new

theorem taken (inv : DeliveryInv w) {new : DeliveryRun}
    (replaces : Replaces w.store.runs new e.after.runs) (pending : new.status = .pending)
    (takesNew : takes e = some new.id) (none : attempting w e.tid = none)
    (free : ∀ j, attempting w j ≠ some new.id) :
    (∀ run ∈ e.after.runs, run.status = .pending → ∃ i, attempting (w.push e) i = some run.id) ∧
      (∀ i id, attempting (w.push e) i = some id → ∃ run ∈ e.after.runs, run.id = id ∧ run.status = .pending) ∧
      ∀ i j id, attempting (w.push e) i = some id → attempting (w.push e) j = some id → i = j := by
  have mine : attempting (w.push e) e.tid = some new.id := by
    rw [attempting_self, takesNew, Option.some_or]
  have others {j : Nat} (other : j ≠ e.tid) : attempting (w.push e) j = attempting w j :=
    attempting_other w (Ne.symm other)
  refine ⟨fun run mem is => ?_, fun i id is => ?_, fun i j id at₁ at₂ => ?_⟩
  · rcases (replaces run).mp mem with ⟨was, -⟩ | rfl
    · obtain ⟨i, at_⟩ := inv.held run was is
      have other : i ≠ e.tid := by
        rintro rfl
        rw [none] at at_
        exact nomatch at_
      exact ⟨i, (others other).trans at_⟩
    · exact ⟨e.tid, mine⟩
  · by_cases own : i = e.tid
    · subst own
      rw [mine] at is
      exact ⟨new, (replaces new).mpr (.inr rfl), Option.some.inj is, pending⟩
    · rw [others own] at is
      obtain ⟨run, was, rfl, status⟩ := inv.busy i id is
      have apart : run.id ≠ new.id := fun same => free i (same ▸ is)
      exact ⟨run, (replaces run).mpr (.inl ⟨was, apart⟩), rfl, status⟩
  · by_cases own₁ : i = e.tid
    · by_cases own₂ : j = e.tid
      · exact own₁.trans own₂.symm
      · rw [own₁, mine] at at₁
        rw [others own₂, ← at₁] at at₂
        exact absurd at₂ (free j)
    · by_cases own₂ : j = e.tid
      · rw [own₂, mine] at at₂
        rw [others own₁, ← at₂] at at₁
        exact absurd at₁ (free i)
      · rw [others own₁] at at₁
        rw [others own₂] at at₂
        exact inv.alone i j id at₁ at₂

theorem released (inv : DeliveryInv w) {new : DeliveryRun}
    (replaces : Replaces w.store.runs new e.after.runs) (settled : new.status ≠ .pending)
    (takesNone : takes e = none) (records : e.label.isRecord = true)
    (mine : attempting w e.tid = some new.id) :
    (∀ run ∈ e.after.runs, run.status = .pending → ∃ i, attempting (w.push e) i = some run.id) ∧
      (∀ i id, attempting (w.push e) i = some id → ∃ run ∈ e.after.runs, run.id = id ∧ run.status = .pending) ∧
      ∀ i j id, attempting (w.push e) i = some id → attempting (w.push e) j = some id → i = j := by
  have none : attempting (w.push e) e.tid = none := by
    rw [attempting_self, takesNone, records]
    rfl
  have others {j : Nat} (other : j ≠ e.tid) : attempting (w.push e) j = attempting w j :=
    attempting_other w (Ne.symm other)
  have busy {i : Nat} {id : String} (is : attempting (w.push e) i = some id) :
      i ≠ e.tid ∧ attempting w i = some id := by
    have other : i ≠ e.tid := by
      rintro rfl
      rw [none] at is
      exact nomatch is
    exact ⟨other, (others other).symm.trans is⟩
  refine ⟨fun run mem is => ?_, fun i id is => ?_, fun i j id at₁ at₂ => ?_⟩
  · rcases (replaces run).mp mem with ⟨was, apart⟩ | rfl
    · obtain ⟨i, at_⟩ := inv.held run was is
      have other : i ≠ e.tid := by
        rintro rfl
        exact apart (Option.some.inj (at_.symm.trans mine))
      exact ⟨i, (others other).trans at_⟩
    · exact absurd is settled
  · obtain ⟨other, was⟩ := busy is
    obtain ⟨run, mem, rfl, status⟩ := inv.busy i id was
    have apart : run.id ≠ new.id := fun same => other (inv.alone i e.tid run.id was (same ▸ mine))
    exact ⟨run, (replaces run).mpr (.inl ⟨mem, apart⟩), rfl, status⟩
  · exact inv.alone i j id (busy at₁).2 (busy at₂).2

theorem DeliveryInv.same (inv : DeliveryInv w) (runs : e.after.runs = w.store.runs)
    (takesNone : takes e = none) (records : e.label.isRecord = false) : DeliveryInv (w.push e) := by
  have still (i : Nat) : attempting (w.push e) i = attempting w i := by
    by_cases own : e.tid = i
    · subst own
      rw [attempting_self, takesNone, records]
      rfl
    · exact attempting_other w own
  refine ⟨?_, ?_, ?_, ?_, ?_, ?_⟩
  all_goals simp only [World.push_store, runs, still]
  · exact inv.ids
  · exact inv.keys
  · exact inv.held
  · exact inv.busy
  · exact inv.alone
  · exact inv.queued

theorem updated {run : DeliveryRun} (inv : DeliveryInv w) (before : e.before = w.store)
    (step : DeliveryStep e) (found : e.label.selected w.store = some run) :
    (e.after.runs.map DeliveryRun.id).Nodup ∧
      (e.after.runs.map fun run => (run.tenantId, run.idempotencyKey)).Nodup ∧
      Replaces w.store.runs (e.label.set run) e.after.runs := by
  have after : e.after.runs = updateFirst (·.id = run.id) e.label.set w.store.runs := by
    rw [step.acts, before]
    cases label : e.label with
    | claim | claimDue | record =>
        rw [label] at found
        simp only [DeliveryLabel.act, found]
    | look | create | send =>
        rw [label] at found
        cases found
  rw [after]
  refine ⟨?_, ?_, fun run' => ?_⟩
  · rw [map_updateFirst (set_id e.label)]
    exact inv.ids
  · rw [map_updateFirst (set_key e.label)]
    exact inv.keys
  · rw [set_id]
    exact mem_updateFirst_key inv.ids (selected_mem found) run'

theorem DeliveryInv.claim (inv : DeliveryInv w) (before : e.before = w.store) (step : DeliveryStep e)
    (may : Permitted w e.tid e.label) (claims : e.label.isClaim = true) {run : DeliveryRun}
    (found : e.label.selected w.store = some run) : DeliveryInv (w.push e) := by
  obtain ⟨idle, pending⟩ := claimed_status claims may found
  obtain ⟨ids, keys, replaces⟩ := updated inv before step found
  have none : attempting w e.tid = none := by
    cases label : e.label with
    | claim => exact (label ▸ may : Permitted w e.tid (.claim _ _ _)).1
    | claimDue => exact (label ▸ may : Permitted w e.tid (.claimDue _))
    | look | create | send | record =>
        rw [label] at claims
        exact nomatch claims
  have takesNew : takes e = some (e.label.set run).id := by
    rw [set_id, takes, before]
    cases label : e.label with
    | claim | claimDue =>
        rw [label] at found
        simp only [found, Option.map_some]
    | look | create | send | record =>
        rw [label] at claims
        exact nomatch claims
  have free (j : Nat) : attempting w j ≠ some (e.label.set run).id := by
    intro is
    obtain ⟨run', mem, same, status⟩ := inv.busy j _ is
    rw [set_id] at same
    obtain rfl := List.inj_on_of_nodup_map inv.ids mem (selected_mem found) same
    exact idle status
  obtain ⟨held, busy, alone⟩ := taken inv replaces pending takesNew none free
  refine ⟨ids, keys, held, busy, alone, fun run' mem status => ?_⟩
  rcases (replaces run').mp mem with ⟨was, -⟩ | rfl
  · exact inv.queued run' was status
  · rw [pending] at status
    exact nomatch status

theorem DeliveryInv.record (inv : DeliveryInv w) (before : e.before = w.store) (step : DeliveryStep e)
    {id tenantId : String} {patch : DeliveryPatch} (label : e.label = .record id tenantId patch)
    (mine : attempting w e.tid = some id) (exists_ : Exists id tenantId w.store) :
    DeliveryInv (w.push e) := by
  obtain ⟨run₀, there⟩ := exists_
  obtain ⟨run, found⟩ : ∃ run, e.label.selected w.store = some run := by
    rw [label, ← Option.isSome_iff_exists, DeliveryLabel.selected, List.find?_isSome]
    exact ⟨run₀, there.1, by simp [there.2]⟩
  have same : run.id = id := by
    rw [label] at found
    have is := List.find?_some found
    simp only [Bool.and_eq_true, decide_eq_true_eq] at is
    exact is.1
  obtain ⟨ids, keys, replaces⟩ := updated inv before step found
  have applied : e.label.set run = patch.apply run := by rw [label]; rfl
  have settled : (e.label.set run).status ≠ .pending := applied ▸ (apply_status patch run).1
  have mine' : attempting w e.tid = some (e.label.set run).id := by rw [set_id, same, mine]
  obtain ⟨held, busy, alone⟩ := released inv replaces settled (by rw [takes, label]) (by rw [label]; rfl) mine'
  refine ⟨ids, keys, held, busy, alone, fun run' mem status => ?_⟩
  rcases (replaces run').mp mem with ⟨was, -⟩ | rfl
  · exact inv.queued run' was status
  · rw [applied] at status ⊢
    exact (apply_status patch run).2 status

theorem DeliveryInv.create (inv : DeliveryInv w) (before : e.before = w.store) (step : DeliveryStep e)
    {run : DeliveryRun} (label : e.label = .create run) (none : attempting w e.tid = none)
    (pending : run.status = .pending) (accepted : w.store.refuses run = false) :
    DeliveryInv (w.push e) := by
  have fresh := step.drawn
  rw [label, before] at fresh
  have after : e.after.runs = w.store.runs ++ [run] := by
    rw [step.acts, label, before]
    simp only [DeliveryLabel.act, accepted]
    rfl
  have replaces : Replaces w.store.runs run e.after.runs := by
    intro run'
    rw [after, List.mem_append, List.mem_singleton]
    refine or_congr_left ⟨fun was => ⟨was, fresh run' was⟩, And.left⟩
  have free (j : Nat) : attempting w j ≠ some run.id := by
    intro is
    obtain ⟨run', was, same, -⟩ := inv.busy j _ is
    exact fresh run' was same
  have takesNew : takes e = some run.id := by
    simp [takes, label, before, accepted]
  obtain ⟨held, busy, alone⟩ := taken inv replaces pending takesNew none free
  refine ⟨?_, ?_, held, busy, alone, fun run' mem status => ?_⟩
  · rw [World.push_store, after, List.map_append, List.nodup_append]
    refine ⟨inv.ids, by simp, fun id mem id' mem' => ?_⟩
    obtain ⟨run', was, rfl⟩ := List.mem_map.mp mem
    obtain rfl : id' = run.id := by simpa using mem'
    exact fresh run' was
  · rw [World.push_store, after, List.map_append, List.nodup_append]
    refine ⟨inv.keys, by simp, fun key mem key' mem' => ?_⟩
    obtain ⟨run', was, rfl⟩ := List.mem_map.mp mem
    obtain rfl : key' = (run.tenantId, run.idempotencyKey) := by simpa using mem'
    rintro same
    simp only [DeliveryDb.refuses, DeliveryDb.findByKey, Option.isSome_eq_false_iff,
      Option.isNone_iff_eq_none, List.find?_eq_none] at accepted
    obtain ⟨tenant, key⟩ := Prod.mk.inj same
    exact accepted run' was (by simp [tenant, key])
  · rcases (replaces run').mp mem with ⟨was, -⟩ | rfl
    · exact inv.queued run' was status
    · rw [pending] at status
      cases status

/-- One permitted step keeps the invariant. -/
theorem DeliveryInv.push (inv : DeliveryInv w) (before : e.before = w.store) (step : DeliveryStep e)
    (may : Permitted w e.tid e.label) : DeliveryInv (w.push e) := by
  have acts := step.acts
  rw [before] at acts
  cases label : e.label with
  | look | send =>
      refine inv.same ?_ (by rw [takes, label]) (by rw [label]; rfl)
      rw [acts, label]
      rfl
  | create run =>
      rw [label] at may
      cases refused : w.store.refuses run with
      | true =>
          refine inv.same ?_ (by simp [takes, label, before, refused]) (by rw [label]; rfl)
          rw [acts, label]
          simp only [DeliveryLabel.act, refused, if_true]
      | false => exact inv.create before step label may.1 may.2 refused
  | claim | claimDue =>
      cases found : e.label.selected w.store with
      | none =>
          refine inv.same ?_ ?_ (by rw [label]; rfl)
          · rw [acts, label]
            rw [label] at found
            simp only [DeliveryLabel.act, found]
          · rw [takes, label, before]
            rw [label] at found
            simp only [found, Option.map_none]
      | some run => exact inv.claim before step may (by rw [label]; rfl) found
  | record id tenantId patch =>
      rw [label] at may
      exact inv.record before step label may.1 may.2

theorem DeliveryInv.env (inv : DeliveryInv w) {env : DeliveryEnv} {db : DeliveryDb}
    (may : (deliverySystem env).env w.store db) : DeliveryInv { store := db, trace := w.trace } := by
  obtain ⟨runs, -⟩ := may
  refine ⟨?_, ?_, ?_, ?_, inv.alone, ?_⟩
  all_goals dsimp only; rw [runs]
  · exact inv.ids
  · exact inv.keys
  · exact inv.held
  · exact inv.busy
  · exact inv.queued

theorem Exists.act {id tenantId : String} {db : DeliveryDb} (there : Exists id tenantId db)
    (label : DeliveryLabel) : Exists id tenantId (label.act db) := by
  obtain ⟨run, mem, rfl, rfl⟩ := there
  have update : ∀ selected : DeliveryRun, Exists run.id run.tenantId
      { db with runs := updateFirst (·.id = selected.id) label.set db.runs } := by
    intro selected
    rcases mem_updateFirst (p := fun r => r.id = selected.id) (f := label.set) mem with kept | ⟨-, moved⟩
    · exact ⟨run, kept, rfl, rfl⟩
    · exact ⟨_, moved, set_id label run, congrArg Prod.fst (set_key label run)⟩
  cases label with
  | create new =>
      simp only [DeliveryLabel.act]
      split
      · exact ⟨run, mem, rfl, rfl⟩
      · exact ⟨run, List.mem_append_left _ mem, rfl, rfl⟩
  | look | claim | claimDue | send | record =>
      simp only [DeliveryLabel.act]
      split
      · exact update _
      · exact ⟨run, mem, rfl, rfl⟩

end Steps

/-! ## Programs -/

section Programs

variable {env : DeliveryEnv} {i : Nat} {A : Type}

/-- A program of process `i` keeps the invariant. -/
abbrev Keeps (env : DeliveryEnv) (i : Nat) (R : A → DeliveryWorld → Prop) (p : DeliveryProg A)
    (P : DeliveryWorld → Prop) : Prop :=
  Safe (deliverySystem env).env (deliverySystem env).ok DeliveryInv DeliveryStep i R p P

/-- The worker attempts no run. -/
def Idle (i : Nat) (w : DeliveryWorld) : Prop := attempting w i = none

def Busy (i : Nat) (run : DeliveryRun) (w : DeliveryWorld) : Prop :=
  attempting w i = some run.id ∧ Exists run.id run.tenantId w.store

theorem stable_idle : Stable (deliverySystem env).env DeliveryInv DeliveryStep i (Idle i) :=
  Stable.own i fun own => latest own = none

theorem stable_busy (run : DeliveryRun) :
    Stable (deliverySystem env).env DeliveryInv DeliveryStep i (Busy i run) := by
  refine (Stable.own i fun own => latest own = some run.id).and ⟨?_, ?_⟩
  · intro w e _ there _ before step _
    rw [World.push_store, step.acts, before]
    exact there.act e.label
  · rintro w db _ there ⟨runs, -⟩
    unfold Exists
    rw [runs]
    exact there

def Got (i : Nat) : Option DeliveryRun → DeliveryWorld → Prop
  | none => Idle i
  | some run => Busy i run

theorem stable_got (run : Option DeliveryRun) :
    Stable (deliverySystem env).env DeliveryInv DeliveryStep i (Got i run) := by
  cases run with
  | none => exact stable_idle
  | some run => exact stable_busy run

theorem keeps_step {label : DeliveryLabel} {report : DeliveryDb → A} {P : DeliveryWorld → Prop}
    {R : A → DeliveryWorld → Prop}
    (stable : ∀ a, Stable (deliverySystem env).env DeliveryInv DeliveryStep i (R a))
    (may : ∀ w, P w → Permitted w i label)
    (step : ∀ w, P w → R (report w.store) (w.push ⟨i, label, w.store, label.act w.store⟩)) :
    Keeps env i R (Prog.update label label.act report) P := by
  refine Safe.update stable fun w inv holds drawn => ?_
  have does : DeliveryStep ⟨i, label, w.store, label.act w.store⟩ := ⟨rfl, drawn⟩
  exact ⟨inv.push rfl does (may w holds), does, step w holds⟩

/-- A step that takes on nothing and records nothing leaves the worker where it is. -/
theorem got_quiet {label : DeliveryLabel} (quiet : label = .look ∨ ∃ id, label = .send id)
    {w : DeliveryWorld} {run : Option DeliveryRun} (got : Got i run w) :
    Got i run (w.push ⟨i, label, w.store, label.act w.store⟩) := by
  have still : attempting (w.push ⟨i, label, w.store, label.act w.store⟩) i = attempting w i := by
    rw [show i = Event.tid ⟨i, label, w.store, label.act w.store⟩ from rfl, attempting_self]
    rcases quiet with rfl | ⟨id, rfl⟩ <;> rfl
  cases run with
  | none => exact still.trans got
  | some run => exact ⟨still.trans got.1, got.2.act label⟩

theorem keeps_quiet {label : DeliveryLabel} (quiet : label = .look ∨ ∃ id, label = .send id)
    {report : DeliveryDb → A} (run : Option DeliveryRun) :
    Keeps env i (fun _ => Got i run) (Prog.update label label.act report) (Got i run) := by
  refine keeps_step (fun _ => stable_got run) (fun w _ => ?_) fun w got => got_quiet quiet got
  rcases quiet with rfl | ⟨id, rfl⟩ <;> trivial

theorem keeps_look {f : DeliveryDb → A} (run : Option DeliveryRun) :
    Keeps env i (fun _ => Got i run) (look f) (Got i run) :=
  keeps_quiet (.inl rfl) run

theorem keeps_claim {label : DeliveryLabel} (claims : label.isClaim = true)
    (may : ∀ w, Idle i w → Permitted w i label) :
    Keeps env i (Got i) (updateRun label) (Idle i) := by
  refine keeps_step stable_got may fun w idle => ?_
  have now : attempting (w.push ⟨i, label, w.store, label.act w.store⟩) i =
      (label.selected w.store).map DeliveryRun.id := by
    rw [show i = Event.tid ⟨i, label, w.store, label.act w.store⟩ from rfl, attempting_self]
    have none : attempting w i = none := idle
    cases label with
    | claim | claimDue =>
        simp only [takes, DeliveryLabel.isRecord, none, ite_self, Option.or_none]
    | look | create | send | record => exact nomatch claims
  cases found : label.selected w.store with
  | none =>
      rw [found] at now
      exact now
  | some run =>
      rw [found] at now
      refine ⟨now.trans (congrArg some (set_id label run).symm), ?_⟩
      have there : Exists run.id run.tenantId w.store := ⟨run, selected_mem found, rfl, rfl⟩
      rw [set_id, show (label.set run).tenantId = run.tenantId from congrArg Prod.fst (set_key label run)]
      exact there.act label

theorem keeps_send (run : DeliveryRun) (now : Int) (answer : SendAnswer) :
    Keeps env i (fun _ => Busy i run) (send env run now answer) (Busy i run) := by
  refine Safe.bind (keeps_quiet (.inr ⟨run.id, rfl⟩) (some run)) fun _ => ?_
  cases answer <;> exact fun w _ busy => busy

theorem keeps_record (run : DeliveryRun) (patch : DeliveryPatch) :
    Keeps env i (fun _ => Idle i) (updateRun (.record run.id run.tenantId patch)) (Busy i run) := by
  refine keeps_step (fun _ => stable_idle) (fun w busy => busy) fun w busy => ?_
  exact attempting_self w ⟨i, _, _, _⟩

theorem keeps_attemptEmail (run : DeliveryRun) (now : Int) (answer : SendAnswer) :
    Keeps env i (fun _ => Busy i run) (attemptEmail env run now answer) (Busy i run) := by
  unfold attemptEmail
  split
  · refine Safe.bind (keeps_look (some run)) fun optedOut => ?_
    split
    · exact fun w _ busy => busy
    · exact keeps_send run now answer
  · exact keeps_send run now answer

theorem keeps_attemptDestination (run : DeliveryRun) (now : Int) (answer : SendAnswer) :
    Keeps env i (fun _ => Busy i run) (attemptDestination env run now answer) (Busy i run) := by
  refine Safe.bind (keeps_look (some run)) fun dest => ?_
  cases dest with
  | none => exact fun w _ busy => busy
  | some dest => exact keeps_send run now answer

theorem keeps_attempt (run : DeliveryRun) (now : Int) (answer : SendAnswer) :
    Keeps env i (fun _ => Idle i) (attempt env run now answer) (Busy i run) := by
  unfold attempt
  split
  · exact Safe.bind (keeps_attemptEmail run now answer) fun _ => keeps_record run _
  · exact Safe.bind (keeps_attemptDestination run now answer) fun _ => keeps_record run _

theorem keeps_createAndAttempt {run : DeliveryRun} (pending : run.status = .pending)
    (answer : SendAnswer) :
    Keeps env i (fun _ => Idle i) (createAndAttempt env run answer) (Idle i) := by
  refine Safe.bind (R := fun created => Got i (if created then some run else none)) ?_ fun created => ?_
  · refine keeps_step (fun _ => stable_got _) (fun w idle => ⟨idle, pending⟩) fun w idle => ?_
    have none : attempting w i = none := idle
    have now := attempting_self w ⟨i, .create run, w.store, DeliveryLabel.act (.create run) w.store⟩
    cases refused : w.store.refuses run with
    | true =>
        simp only [takes, refused, if_true, none, ite_self, Option.or_none] at now
        exact now
    | false =>
        simp only [takes, refused] at now
        refine ⟨now, run, ?_, rfl, rfl⟩
        simp only [World.push_store, DeliveryLabel.act, refused]
        exact List.mem_append_right _ (List.mem_singleton_self _)
  · split
    · rename_i created
      subst created
      refine Safe.bind (keeps_look (some run)) fun now => ?_
      refine Safe.bind (keeps_attempt run now answer) fun done => ?_
      cases done <;> exact fun w _ idle => idle
    · refine Safe.bind (keeps_look none) fun existing => ?_
      cases existing <;> exact fun w _ idle => idle

theorem keeps_deliver (req : DeliverRequest) :
    Keeps env i (fun _ => Idle i) (deliver env req) (Idle i) := by
  unfold deliver
  split
  · exact fun w _ idle => idle
  · exact fun w _ idle => idle
  · refine Safe.bind (keeps_look none) fun existing => ?_
    cases existing with
    | some run => exact fun w _ idle => idle
    | none =>
        dsimp only
        split
        · exact keeps_createAndAttempt rfl req.answer
        · exact Safe.bind (keeps_look none) fun dest => keeps_createAndAttempt rfl req.answer

theorem keeps_retryDelivery (tenantId deliveryId : String) (answer : SendAnswer) :
    Keeps env i (fun _ => Idle i) (retryDelivery env tenantId deliveryId answer) (Idle i) := by
  unfold retryDelivery
  split
  · exact fun w _ idle => idle
  · refine Safe.bind (keeps_look none) fun found => ?_
    cases found with
    | none => exact fun w _ idle => idle
    | some run =>
        dsimp only
        split
        · exact fun w _ idle => idle
        · rename_i failed
          have seen : run.status ≠ .pending := by
            rintro is
            simp [is] at failed
          refine Safe.bind (keeps_claim rfl fun w idle => ⟨idle, seen⟩) fun claimed => ?_
          cases claimed with
          | none => exact fun w _ idle => idle
          | some claimed =>
              refine Safe.bind (keeps_look (some claimed)) fun now => ?_
              exact Safe.bind (keeps_attempt claimed now answer) fun _ w _ idle => idle

theorem keeps_retryRounds (now : Int) (answers : List SendAnswer) (retried : Nat) :
    Keeps env i (fun _ => Idle i) (retryRounds env now answers retried) (Idle i) := by
  induction answers generalizing retried with
  | nil => exact fun w _ idle => idle
  | cons answer rest ih =>
      refine Safe.bind (keeps_claim rfl fun w idle => idle) fun claimed => ?_
      cases claimed with
      | none => exact fun w _ idle => idle
      | some run => exact Safe.bind (keeps_attempt run now answer) fun _ => ih (retried + 1)

theorem keeps_program (call : DeliveryCall) :
    Keeps env i (fun _ => Idle i) (call.program env) (Idle i) := by
  cases call with
  | deliver req => exact Safe.bind (keeps_deliver req) fun _ w _ idle => idle
  | retryDelivery tenantId deliveryId answer =>
      exact Safe.bind (keeps_retryDelivery tenantId deliveryId answer) fun _ w _ idle => idle
  | retryDue answers =>
      refine Safe.bind (Safe.bind (keeps_look none) fun now => keeps_retryRounds now answers 0) fun _ => ?_
      exact fun w _ idle => idle

theorem deliveryDiscipline {s₀ : DeliveryDb} (start : DeliveryStart s₀) :
    Discipline (deliverySystem env) DeliveryInv DeliveryStep (fun i _ => Idle i) s₀ where
  init :=
    { ids := start.ids
      keys := start.keys
      held := fun run mem pending => absurd pending (start.idle run mem)
      busy := fun _ _ is => nomatch is
      alone := fun _ _ _ is => nomatch is
      queued := start.queued }
  env := fun _ _ inv may => inv.env may
  start := by
    rintro i p ⟨call, rfl⟩
    refine ⟨Idle i, stable_idle, fun w _ unused => ?_, keeps_program call⟩
    have own : w.own i = [] := by
      rw [World.own, List.filter_eq_nil_iff]
      exact fun e mem => by simpa using unused e mem
    rw [Idle, attempting, own]
    rfl

end Programs

end AnalyticsBackend.Delivery
