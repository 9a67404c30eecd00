import AnalyticsBackend.Tenancy.Deletion

/-!
# Deletions over a run

A record moves from `scheduled` to `cancelled`, or to `purging` and from there through `failed` to
`purged`. A claim that is taken over has lapsed, where the claims are made at the time they compute
their leases from and an outcome is recorded by the worker that holds the claim.
-/

namespace AnalyticsBackend.Tenancy
open Lib Collection System

variable {settings : DeletionSettings} {tenantId : String}

/-! ## Updates of records -/

theorem record_kept (settings : DeletionSettings) (tenantId : String) (label : DeletionLabel)
    {db : DeletionDb} {r : TenantDeletion} (mem : r ∈ db.deletions) : ∃ r' ∈ (label.act settings tenantId db).deletions,
      r' = r ∨ (label.selects settings r = true ∧ r' = label.set settings r) := by
  have updated (p : TenantDeletion → Bool) (f : TenantDeletion → TenantDeletion) :
      ∃ r' ∈ updateFirst p f db.deletions, r' = r ∨ (p r = true ∧ r' = f r) := by
    rcases mem_updateFirst (p := p) (f := f) mem with same | ⟨selected, moved⟩
    · exact ⟨r, same, .inl rfl⟩
    · exact ⟨f r, moved, .inr ⟨selected, rfl⟩⟩
  cases label with
  | create record =>
      refine ⟨r, ?_, .inl rfl⟩
      simp only [DeletionLabel.act]
      split
      · exact mem
      · exact List.mem_append_left _ mem
  | cancel | claim | markPurged | markFailed => exact updated _ _
  | look | lifecycle | remove | rewrite | removeFile => exact ⟨r, mem, .inl rfl⟩

theorem record_before {label : DeletionLabel} {db : DeletionDb} {r' : TenantDeletion}
    (mem : r' ∈ (label.act settings tenantId db).deletions) :
    (∃ r ∈ db.deletions, r' = r ∨ (label.selects settings r = true ∧ r' = label.set settings r)) ∨
      (label = .create r' ∧ db.openDeletion = none) := by
  have updated (p : TenantDeletion → Bool) (f : TenantDeletion → TenantDeletion)
      (mem : r' ∈ updateFirst p f db.deletions) :
      ∃ r ∈ db.deletions, r' = r ∨ (p r = true ∧ r' = f r) := by
    rcases of_mem_updateFirst mem with same | ⟨r, was, selected, moved⟩
    · exact ⟨r', same, .inl rfl⟩
    · exact ⟨r, was, .inr ⟨selected, moved⟩⟩
  cases label with
  | create record =>
      simp only [DeletionLabel.act] at mem
      split at mem
      · exact .inl ⟨r', mem, .inl rfl⟩
      · rename_i none
        rcases List.mem_append.mp mem with was | new
        · exact .inl ⟨r', was, .inl rfl⟩
        · obtain rfl := List.mem_singleton.mp new
          exact .inr ⟨rfl, by simpa using none⟩
  | cancel | claim | markPurged | markFailed => exact .inl (updated _ _ mem)
  | look | lifecycle | remove | rewrite | removeFile => exact .inl ⟨r', mem, .inl rfl⟩

theorem set_id (label : DeletionLabel) (r : TenantDeletion) : (label.set settings r).id = r.id := by
  cases label <;> rfl

/-- The statuses that a deletion does not leave once it is claimed. -/
def DeletionStatus.started : DeletionStatus → Bool
  | .purging | .failed | .purged => true
  | _ => false

def DeletionStatus.pending : DeletionStatus → Bool
  | .scheduled | .purging | .failed => true
  | _ => false

def Claimed (id : String) (db : DeletionDb) : Prop :=
  ∃ r ∈ db.deletions, r.id = id ∧ r.status.started = true

/-- A deletion whose cancellation was accepted. -/
def Cancelled (id : String) (db : DeletionDb) : Prop :=
  ∃ r ∈ db.deletions, r.id = id ∧ r.status = .cancelled

theorem Claimed.act {id : String} {db : DeletionDb} (claimed : Claimed id db)
    (label : DeletionLabel) : Claimed id (label.act settings tenantId db) := by
  obtain ⟨r, mem, rfl, started⟩ := claimed
  obtain ⟨r', mem', rfl | ⟨selected, rfl⟩⟩ := record_kept settings tenantId label mem
  · exact ⟨r', mem', rfl, started⟩
  · refine ⟨_, mem', set_id label r, ?_⟩
    cases label with
    | cancel id =>
        simp only [DeletionLabel.selects, Bool.and_eq_true, decide_eq_true_eq] at selected
        rw [selected.2] at started
        exact nomatch started
    | claim | markPurged | markFailed => rfl
    | look | create | lifecycle | remove | rewrite | removeFile => exact nomatch selected

theorem Cancelled.act {id : String} {db : DeletionDb} (cancelled : Cancelled id db)
    (label : DeletionLabel) : Cancelled id (label.act settings tenantId db) := by
  obtain ⟨r, mem, rfl, status⟩ := cancelled
  obtain ⟨r', mem', rfl | ⟨selected, rfl⟩⟩ := record_kept settings tenantId label mem
  · exact ⟨r', mem', rfl, status⟩
  · cases label with
    | claim now => simp [DeletionLabel.selects, TenantDeletion.due, status] at selected
    | cancel | markPurged | markFailed => simp [DeletionLabel.selects, status] at selected
    | look | create | lifecycle | remove | rewrite | removeFile => exact nomatch selected

/-! ## Steps -/

def claimOf (settings : DeletionSettings) (e : DeletionEvent) : Option String :=
  match e.label with
  | .claim now => (e.before.deletions.find? (·.due settings now)).map TenantDeletion.id
  | _ => none

/-- The deletion whose cancellation a step accepts. -/
def cancelOf (e : DeletionEvent) : Option String :=
  match e.label with
  | .cancel id => if e.before.deletions.any fun r => r.id = id && r.status = .scheduled then some id
      else none
  | _ => none

def outcomeOf (e : DeletionEvent) : Option String :=
  match e.label with
  | .markPurged id | .markFailed id _ =>
      if e.before.deletions.any fun r => r.id = id && r.status = .purging then some id else none
  | _ => none

def DeletionLabel.isOutcome : DeletionLabel → Bool
  | .markPurged _ | .markFailed _ _ => true
  | _ => false

/-- The deletion that a step takes data away for. -/
def DeletionLabel.purges : DeletionLabel → Option String
  | .remove deletion _ _ | .rewrite deletion _ _ _ | .removeFile deletion _ => some deletion
  | _ => none

/-- The step reopens the workspace. -/
def restores (tenantId : String) (e : DeletionEvent) : Bool :=
  match e.label with
  | .lifecycle .restore => (e.before.docs .tenant).any (·.id = tenantId)
  | _ => false

def DeletionDb.active (tenantId : String) (db : DeletionDb) : Bool :=
  (db.docs .tenant).any fun d => d.id = tenantId && d.status = some .active

def DeletionLabel.Proper : DeletionLabel → Prop
  | .create record => record.isOpen = true ∧ record.status = .scheduled
  | .rewrite _ _ _ update => ∀ d, ∃ kept ⊆ d.rolloutTenantIds,
      update d = { d with rolloutTenantIds := kept }
  | _ => True

structure DeletionStep (settings : DeletionSettings) (tenantId : String) (e : DeletionEvent) :
    Prop where
  acts : e.after = e.label.act settings tenantId e.before
  drawn : DeletionDrawn e.label e.before e.after
  proper : e.label.Proper

/-! ## The records of a run -/

/-- Ids are unique, a deletion is open while it is pending, and at most one is. -/
structure RecordsSound (db : DeletionDb) : Prop where
  unique : (db.deletions.map TenantDeletion.id).Nodup
  drawn : ∀ r ∈ db.deletions, r.id ∈ db.drawnIds
  pending : ∀ r ∈ db.deletions, r.isOpen = r.status.pending
  single : ∀ r ∈ db.deletions, ∀ r' ∈ db.deletions, r.isOpen = true → r'.isOpen = true → r.id = r'.id

namespace RecordsSound

variable {db : DeletionDb}

theorem eq_of_id (sound : RecordsSound db) {r r' : TenantDeletion} (mem : r ∈ db.deletions)
    (mem' : r' ∈ db.deletions) (same : r.id = r'.id) : r = r' :=
  List.inj_on_of_nodup_map sound.unique mem mem' same

theorem not_both (sound : RecordsSound db) {id : String} (claimed : Claimed id db)
    (cancelled : Cancelled id db) : False := by
  obtain ⟨r, mem, rfl, started⟩ := claimed
  obtain ⟨r', mem', same, status⟩ := cancelled
  obtain rfl := sound.eq_of_id mem' mem same
  rw [status] at started
  exact nomatch started

/-- What a step does to a selected record keeps its openness in order. -/
theorem set_pending {label : DeletionLabel} {r : TenantDeletion} (is : r.isOpen = r.status.pending)
    (selected : label.selects settings r = true) :
    (label.set settings r).isOpen = (label.set settings r).status.pending ∧
      ((label.set settings r).isOpen = true → r.isOpen = true) := by
  cases label with
  | cancel id => exact ⟨rfl, nofun⟩
  | markPurged id => exact ⟨rfl, nofun⟩
  | markFailed id retryAfter =>
      simp only [DeletionLabel.selects, Bool.and_eq_true, decide_eq_true_eq] at selected
      rw [selected.2] at is
      exact ⟨is, fun _ => is⟩
  | claim now =>
      have pending : r.status.pending = true := by
        simp only [DeletionLabel.selects, TenantDeletion.due, Bool.and_eq_true] at selected
        cases status : r.status <;> simp [status, DeletionStatus.pending] at selected ⊢
      rw [pending] at is
      exact ⟨is, fun _ => is⟩
  | look | create | lifecycle | remove | rewrite | removeFile => exact nomatch selected

theorem step (sound : RecordsSound db) {e : DeletionEvent} (before : e.before = db)
    (step : DeletionStep settings tenantId e) : RecordsSound e.after := by
  subst before
  rw [step.acts]
  have proper := step.proper
  have fresh := step.drawn
  have back {r' : TenantDeletion} (mem : r' ∈ (e.label.act settings tenantId e.before).deletions) :
      (∃ r ∈ e.before.deletions, r'.id = r.id ∧ r'.isOpen = r'.status.pending ∧
        (r'.isOpen = true → r.isOpen = true)) ∨
      (e.label = .create r' ∧ e.before.openDeletion = none) := by
    refine (record_before mem).imp_left fun ⟨r, was, moved⟩ => ⟨r, was, ?_⟩
    rcases moved with rfl | ⟨selected, rfl⟩
    · exact ⟨rfl, sound.pending _ was, id⟩
    · exact ⟨set_id .., set_pending (sound.pending r was) selected⟩
  have closed (none : e.before.openDeletion = none) (r : TenantDeletion)
      (was : r ∈ e.before.deletions) : ¬ r.isOpen = true :=
    List.find?_eq_none.mp none r was
  refine ⟨?_, fun r' mem => ?_, fun r' mem => ?_, fun r mem r' mem' isOpen isOpen' => ?_⟩
  · cases label : e.label with
    | create record =>
        simp only [DeletionLabel.act]
        split
        · exact sound.unique
        · rw [label] at fresh
          rw [List.map_append, List.nodup_append]
          refine ⟨sound.unique, by simp, fun id mem id' mem' => ?_⟩
          obtain ⟨r, was, rfl⟩ := List.mem_map.mp mem
          obtain rfl : id' = record.id := by simpa using mem'
          rintro same
          exact fresh (same ▸ sound.drawn r was)
    | cancel | claim | markPurged | markFailed =>
        simp only [DeletionLabel.act, map_updateFirst fun r => set_id _ r]
        exact sound.unique
    | look | lifecycle | remove | rewrite | removeFile => exact sound.unique
  · have grows : e.before.drawnIds ⊆ (e.label.act settings tenantId e.before).drawnIds := by
      cases e.label with
      | create record => exact List.subset_cons_self ..
      | _ => exact List.Subset.refl _
    rcases back mem with ⟨r, was, same, -⟩ | ⟨label, -⟩
    · rw [same]
      exact grows (sound.drawn r was)
    · rw [label]
      exact List.mem_cons_self ..
  · rcases back mem with ⟨r, -, -, pending, -⟩ | ⟨label, -⟩
    · exact pending
    · rw [label] at proper
      rw [proper.1, proper.2]
      rfl
  · rcases back mem with ⟨was, inBefore, same, -, opened⟩ | ⟨label, none⟩
    · rcases back mem' with ⟨was', inBefore', same', -, opened'⟩ | ⟨label', none⟩
      · rw [same, same']
        exact sound.single _ inBefore _ inBefore' (opened isOpen) (opened' isOpen')
      · exact absurd (opened isOpen) (closed none _ inBefore)
    · rcases back mem' with ⟨was', inBefore', same', -, opened'⟩ | ⟨label', -⟩
      · exact absurd (opened' isOpen') (closed none _ inBefore')
      · rw [label] at label'
        rw [DeletionLabel.create.inj label']

end RecordsSound

/-! ## Leases -/

def working (settings : DeletionSettings) (i : Nat) : DeletionTrace → Option (String × Int)
  | [] => none
  | e :: earlier =>
      if e.tid = i then
        match claimOf settings e with
        | some id => some (id, e.before.clock)
        | none => if e.label.isOutcome then none else working settings i earlier
      else working settings i earlier

def lastClaimer (settings : DeletionSettings) (id : String) : DeletionTrace → Option Nat
  | [] => none
  | e :: earlier => if claimOf settings e = some id then some e.tid else lastClaimer settings id earlier

/-- Every claim is made at the time that its lease is computed from. -/
def claimsPrompt (settings : DeletionSettings) (trace : DeletionTrace) : Bool :=
  trace.all fun e =>
    match e.label with
    | .claim now => claimOf settings e = none || e.before.clock = now
    | _ => true

/-- Every outcome is recorded by the worker that has claimed the deletion last. -/
def outcomesOwn (settings : DeletionSettings) : DeletionTrace → Bool
  | [] => true
  | e :: earlier => outcomesOwn settings earlier &&
      (outcomeOf e).all fun id => lastClaimer settings id earlier = some e.tid

def LeasesHeld (settings : DeletionSettings) (w : DeletionWorld) : Prop :=
  claimsPrompt settings w.trace = true → outcomesOwn settings w.trace = true →
    ∀ i id claimedAt, working settings i w.trace = some (id, claimedAt) →
      (lastClaimer settings id w.trace = some i ∧ ∃ r ∈ w.store.deletions, r.id = id ∧
        r.status = .purging ∧ r.leaseUntil = some (claimedAt + settings.leaseMs)) ∨
      claimedAt + settings.leaseMs < w.store.clock

theorem clock_act (label : DeletionLabel) (db : DeletionDb) :
    (label.act settings tenantId db).clock = db.clock := by
  cases label <;> rfl

theorem claimOf_cases {e : DeletionEvent} {id : String} (claims : claimOf settings e = some id) :
    ∃ now r, e.label = .claim now ∧ e.before.deletions.find? (·.due settings now) = some r ∧
      r.id = id := by
  unfold claimOf at claims
  split at claims
  · rename_i now label
    obtain ⟨r, found, same⟩ := Option.map_eq_some_iff.mp claims
    exact ⟨now, r, label, found, same⟩
  · exact nomatch claims

theorem due_pending {now : Int} {r : TenantDeletion} (due : r.due settings now = true) :
    r.status.pending = true := by
  simp only [TenantDeletion.due, Bool.and_eq_true] at due
  cases status : r.status <;> simp [status, DeletionStatus.pending] at due ⊢

section Leases

variable {w : DeletionWorld} {e : DeletionEvent}

theorem LeasesHeld.claim (held : LeasesHeld settings w) (sound : RecordsSound w.store)
    (before : e.before = w.store) (step : DeletionStep settings tenantId e) {id' : String}
    (claims : claimOf settings e = some id') : LeasesHeld settings (w.push e) := by
  intro prompt own i id claimedAt is
  obtain ⟨now, r, label, found, rfl⟩ := claimOf_cases claims
  simp only [claimsPrompt, World.push_trace, List.all_cons, label, claims, Bool.and_eq_true,
    Bool.or_eq_true, decide_eq_true_eq, reduceCtorEq, false_or] at prompt
  simp only [outcomesOwn, World.push_trace, Bool.and_eq_true] at own
  obtain ⟨atNow, prompt⟩ := prompt
  rw [before] at atNow found
  have due : r.due settings now = true := List.find?_some found
  have mem := List.mem_of_find?_eq_some found
  have isOpen : r.isOpen = true := (sound.pending r mem).trans (due_pending due)
  have after : e.after.deletions = updateFirst (·.due settings now) (·.claimed settings now)
      w.store.deletions := by
    rw [step.acts, label, before]
    rfl
  have clock : e.after.clock = w.store.clock := by rw [step.acts, clock_act, before]
  rw [World.push_trace] at is ⊢
  rw [World.push_store, after, clock]
  simp only [working, claims] at is
  split at is
  · -- The worker that claims.
    rename_i own
    obtain ⟨rfl, rfl⟩ := Prod.mk.inj (Option.some.inj is)
    refine .inl ⟨by rw [lastClaimer, if_pos claims, own], _, updated_mem found, rfl, rfl, ?_⟩
    rw [before, atNow]
    rfl
  · rename_i other
    rcases held prompt own.1 i id claimedAt is with ⟨last, r₀, mem₀, rfl, status, lease⟩ | lapsed
    · -- The one it takes over from.
      have isOpen₀ : r₀.isOpen = true := by rw [sound.pending r₀ mem₀, status]; rfl
      obtain rfl := sound.eq_of_id mem mem₀ (sound.single r mem r₀ mem₀ isOpen isOpen₀)
      simp only [TenantDeletion.due, status, lease, Option.any_some, Bool.and_eq_true,
        decide_eq_true_eq] at due
      exact .inr (by omega)
    · exact .inr lapsed

theorem LeasesHeld.other (held : LeasesHeld settings w) (before : e.before = w.store)
    (step : DeletionStep settings tenantId e) (claims : claimOf settings e = none) :
    LeasesHeld settings (w.push e) := by
  intro prompt own i id claimedAt is
  simp only [claimsPrompt, World.push_trace, List.all_cons, Bool.and_eq_true] at prompt
  simp only [outcomesOwn, World.push_trace, Bool.and_eq_true] at own
  have clock : e.after.clock = w.store.clock := by rw [step.acts, clock_act, before]
  rw [World.push_trace] at is ⊢
  rw [World.push_store, clock]
  have still : working settings i w.trace = some (id, claimedAt) ∧
      (e.tid = i → e.label.isOutcome = false) := by
    simp only [working, claims] at is
    split at is
    · split at is
      · cases is
      · rename_i outcome
        exact ⟨is, fun _ => by simpa using outcome⟩
    · rename_i other
      exact ⟨is, fun same => absurd same other⟩
  rcases held prompt.2 own.1 i id claimedAt still.1 with ⟨last, r, mem, rfl, status, lease⟩ | lapsed
  · refine .inl ⟨by rw [lastClaimer, if_neg (by simp [claims])]; exact last, ?_⟩
    rw [step.acts, before]
    obtain ⟨r', mem', rfl | ⟨selected, rfl⟩⟩ := record_kept settings tenantId e.label mem
    · exact ⟨r', mem', rfl, status, lease⟩
    · exfalso
      -- Of the updates, a cancellation asks for a scheduled record, and an outcome is the holder's.
      have outcome (recorded : outcomeOf e = some r.id) (is : e.label.isOutcome = true) : False := by
        have holder := own.2
        rw [recorded, Option.all_some, decide_eq_true_eq] at holder
        have same : e.tid = i := Option.some.inj (holder.symm.trans last)
        rw [still.2 same] at is
        cases is
      cases label : e.label with
      | cancel id' => simp [label, DeletionLabel.selects, status] at selected
      | claim now =>
          rw [label] at selected
          simp only [claimOf, label, Option.map_eq_none_iff, List.find?_eq_none, before] at claims
          exact claims r mem selected
      | markPurged id' =>
          simp only [label, DeletionLabel.selects, Bool.and_eq_true, decide_eq_true_eq] at selected
          refine outcome ?_ (by rw [label]; rfl)
          have found : (e.before.deletions.any fun r => r.id = id' && r.status = .purging) = true :=
            List.any_eq_true.mpr ⟨r, before ▸ mem, by simp [selected]⟩
          simp only [outcomeOf, label]
          rw [if_pos found, selected.1]
      | markFailed id' retryAfter =>
          simp only [label, DeletionLabel.selects, Bool.and_eq_true, decide_eq_true_eq] at selected
          refine outcome ?_ (by rw [label]; rfl)
          have found : (e.before.deletions.any fun r => r.id = id' && r.status = .purging) = true :=
            List.any_eq_true.mpr ⟨r, before ▸ mem, by simp [selected]⟩
          simp only [outcomeOf, label]
          rw [if_pos found, selected.1]
      | look | create | lifecycle | remove | rewrite | removeFile =>
          rw [label] at selected
          cases selected
  · exact .inr lapsed

/-- Of two workers that are at deletions of the workspace at once, one has outheld its lease. -/
theorem LeasesHeld.apart (held : LeasesHeld settings w) (sound : RecordsSound w.store)
    (prompt : claimsPrompt settings w.trace = true) (own : outcomesOwn settings w.trace = true)
    {i j : Nat} (different : i ≠ j) {id id' : String} {claimedAt claimedAt' : Int}
    (at₁ : working settings i w.trace = some (id, claimedAt))
    (at₂ : working settings j w.trace = some (id', claimedAt')) :
    claimedAt + settings.leaseMs < w.store.clock ∨ claimedAt' + settings.leaseMs < w.store.clock := by
  rcases held prompt own i id claimedAt at₁ with ⟨last, r, mem, rfl, status, -⟩ | lapsed
  · rcases held prompt own j id' claimedAt' at₂ with ⟨last', r', mem', rfl, status', -⟩ | lapsed'
    · have isOpen : r.isOpen = true := by rw [sound.pending r mem, status]; rfl
      have isOpen' : r'.isOpen = true := by rw [sound.pending r' mem', status']; rfl
      rw [sound.single r mem r' mem' isOpen isOpen'] at last
      exact absurd (Option.some.inj (last.symm.trans last')) different
    · exact .inr lapsed'
  · exact .inl lapsed

end Leases

end AnalyticsBackend.Tenancy
