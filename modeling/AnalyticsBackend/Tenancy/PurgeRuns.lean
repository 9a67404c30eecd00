import AnalyticsBackend.Tenancy.PurgedData

/-!
# The runs of purges

What holds of the store and of the steps taken in every run of requests and purge jobs. A worker
purges only what it has claimed, and marks a deletion as purged only after it has counted everything.
-/

namespace AnalyticsBackend.Tenancy
open Lib Collection System

variable {settings : DeletionSettings} {tenantId : String}

/-! ## Conditions -/

/-- Every write that reopens the workspace finds no open deletion. -/
def restoresGuarded (tenantId : String) (trace : DeletionTrace) : Bool :=
  trace.all fun e => !restores tenantId e || e.before.openDeletion.isNone

/-- The records and the workspace as the programs leave them. -/
structure StartSound (tenantId : String) (db : DeletionDb) : Prop where
  records : RecordsSound db
  tenants : ((db.docs .tenant).map Document.id).Nodup
  purged : ∀ r ∈ db.deletions, r.status = .purged → ∀ d ∈ db.docs .tenant, d.id ≠ tenantId

/-- A step of a purge takes nothing away that it should not, and nothing gives up a claimed purge. -/
structure StepWanted (settings : DeletionSettings) (tenantId : String) (e : DeletionEvent)
    (earlier : DeletionTrace) : Prop where
  notCancelled : ∀ id, e.label.purges = some id → ∀ c ∈ earlier, cancelOf c ≠ some id
  notActive : restoresGuarded tenantId earlier = true → e.label.purges.isSome = true →
    e.before.active tenantId = false
  noCancel : ∀ c ∈ earlier, ∀ id, claimOf settings c = some id → cancelOf e ≠ some id
  noRestore : restoresGuarded tenantId (e :: earlier) = true →
    ∀ c ∈ earlier, (claimOf settings c).isSome = true → restores tenantId e = false

def TraceWanted (settings : DeletionSettings) (tenantId : String) : DeletionTrace → Prop
  | [] => True
  | e :: earlier => StepWanted settings tenantId e earlier ∧ TraceWanted settings tenantId earlier

theorem TraceWanted.of_split {later earlier : DeletionTrace} {e : DeletionEvent}
    (wanted : TraceWanted settings tenantId (later ++ e :: earlier)) :
    StepWanted settings tenantId e earlier := by
  induction later with
  | nil => exact wanted.1
  | cons e' later ih => exact ih wanted.2

/-! ## The invariant -/

structure RunSound (settings : DeletionSettings) (tenantId : String) (w : DeletionWorld) : Prop where
  start : StartSound tenantId w.store
  leases : LeasesHeld settings w
  claims : ∀ e ∈ w.trace, ∀ id, claimOf settings e = some id → Claimed id w.store
  cancels : ∀ e ∈ w.trace, ∀ id, cancelOf e = some id → Cancelled id w.store
  wanted : TraceWanted settings tenantId w.trace

structure DeletionInv (settings : DeletionSettings) (tenantId : String) (s₀ : DeletionDb)
    (w : DeletionWorld) : Prop where
  roles : RolesKept tenantId s₀ w.store
  done : ∀ e ∈ w.trace, ∀ id, e.label = .markPurged id → Cleared settings tenantId s₀ w.store
  run : StartSound tenantId s₀ → RunSound settings tenantId w

/-- The deletion is claimed, and the workspace is closed unless something has reopened it. -/
structure Entered (tenantId : String) (id : String) (w : DeletionWorld) : Prop where
  claimed : Claimed id w.store
  closed : restoresGuarded tenantId w.trace = true → w.store.active tenantId = false

/-- What a step needs to be taken. -/
structure Permitted (settings : DeletionSettings) (tenantId : String) (s₀ : DeletionDb)
    (label : DeletionLabel) (w : DeletionWorld) : Prop where
  roles : (∀ deletion which, label ≠ .remove deletion .role which) ∨ RolesFree tenantId w.store
  marks : ∀ id, label = .markPurged id → Cleared settings tenantId s₀ w.store
  purges : StartSound tenantId s₀ → ∀ id, label.purges = some id → Entered tenantId id w

section Invariant

variable {s₀ : DeletionDb} {w : DeletionWorld} {e : DeletionEvent}

theorem claimed_open {db : DeletionDb} (start : StartSound tenantId db) {id : String}
    (claimed : Claimed id db) :
    db.openDeletion.isNone = false ∨ ∀ d ∈ db.docs .tenant, d.id ≠ tenantId := by
  obtain ⟨r, mem, rfl, started⟩ := claimed
  by_cases purged : r.status = .purged
  · exact .inr (start.purged r mem purged)
  · have isOpen : r.isOpen = true := by
      rw [start.records.pending r mem]
      cases status : r.status <;> simp_all [DeletionStatus.started, DeletionStatus.pending]
    refine .inl ?_
    rw [Option.isNone_eq_false_iff, DeletionDb.openDeletion, List.find?_isSome]
    exact ⟨r, mem, isOpen⟩

theorem not_restored (start : StartSound tenantId e.before) {id : String}
    (claimed : Claimed id e.before)
    (guarded : (!restores tenantId e || e.before.openDeletion.isNone) = true) :
    restores tenantId e = false := by
  rcases claimed_open start claimed with isOpen | gone
  · simpa [isOpen] using guarded
  · unfold restores
    split
    · rw [List.any_eq_false]
      exact fun d mem => by simpa using gone d mem
    · rfl

theorem active_act {label : DeletionLabel} (proper : label.Proper) {db : DeletionDb}
    (active : (label.act settings tenantId db).active tenantId = true) :
    db.active tenantId = true ∨
      (label = .lifecycle .restore ∧ (db.docs .tenant).any (·.id = tenantId) = true) := by
  have kept {docs : List Document} {model : Model}
      (came : model = .tenant → ∀ d ∈ docs, ∃ d₀ ∈ db.docs .tenant, d.id = d₀.id ∧ d.status = d₀.status)
      (active : ({ db with docs := Function.update db.docs model docs } : DeletionDb).active tenantId =
        true) : db.active tenantId = true := by
    obtain ⟨d, mem, is⟩ := List.any_eq_true.mp active
    simp only [Bool.and_eq_true, decide_eq_true_eq] at is
    by_cases same : model = .tenant
    · subst same
      simp only [Function.update_self] at mem
      obtain ⟨d₀, mem₀, sameId, sameStatus⟩ := came rfl d mem
      exact List.any_eq_true.mpr ⟨d₀, mem₀, by simp [← sameId, ← sameStatus, is]⟩
    · simp only [Function.update_of_ne (Ne.symm same)] at mem
      exact List.any_eq_true.mpr ⟨d, mem, by simp [is]⟩
  cases label with
  | look | create | cancel | claim | markPurged | markFailed | removeFile => exact .inl active
  | remove deletion model which =>
      refine .inl (kept (fun same d mem => ⟨d, ?_, rfl, rfl⟩) active)
      exact List.mem_of_mem_filter (same ▸ mem)
  | rewrite deletion model which update =>
      refine .inl (kept (fun same d mem => ?_) active)
      subst same
      obtain ⟨d₀, mem₀, rfl⟩ := List.mem_map.mp mem
      refine ⟨d₀, mem₀, ?_⟩
      split
      · obtain ⟨kept, -, is⟩ := proper d₀
        rw [is]
        exact ⟨rfl, rfl⟩
      · exact ⟨rfl, rfl⟩
  | lifecycle w =>
      obtain ⟨d, mem, is⟩ := List.any_eq_true.mp active
      simp only [DeletionLabel.act, Function.update_self] at mem
      rcases of_mem_updateFirst mem with was | ⟨d₀, was, selected, rfl⟩
      · exact .inl (List.any_eq_true.mpr ⟨d, was, is⟩)
      · cases w with
        | restore =>
            refine .inr ⟨rfl, List.any_eq_true.mpr ⟨d₀, was, ?_⟩⟩
            simp only [Bool.and_eq_true] at selected
            exact selected.1
        | suspend | disable | archive | disableForDeletion => simp [TenantWrite.set] at is

theorem Entered.push {id : String} (entered : Entered tenantId id w)
    (start : StartSound tenantId w.store) (before : e.before = w.store)
    (step : DeletionStep settings tenantId e) : Entered tenantId id (w.push e) := by
  refine ⟨?_, fun guarded => ?_⟩
  · rw [World.push_store, step.acts, before]
    exact entered.claimed.act e.label
  · simp only [restoresGuarded, World.push_trace, List.all_cons, Bool.and_eq_true] at guarded
    have closed := entered.closed guarded.2
    by_contra active
    rw [World.push_store, step.acts, Bool.not_eq_false] at active
    rcases active_act step.proper active with was | ⟨label, there⟩
    · rw [before, closed] at was
      cases was
    · have restored := not_restored (before ▸ start) (before ▸ entered.claimed) guarded.1
      simp only [restores, label] at restored
      rw [there] at restored
      cases restored

theorem StartSound.push (start : StartSound tenantId w.store) (before : e.before = w.store)
    (step : DeletionStep settings tenantId e)
    (marks : ∀ id, e.label = .markPurged id → Cleared settings tenantId s₀ w.store) :
    StartSound tenantId e.after := by
  have shrinks : Shrinks w.store e.after := by
    rw [step.acts, before]
    exact act_shrinks step.proper _
  have gone (gone : ∀ d ∈ w.store.docs .tenant, d.id ≠ tenantId) :
      ∀ d ∈ e.after.docs .tenant, d.id ≠ tenantId := by
    intro d mem same
    obtain ⟨d₀, mem₀, came⟩ := shrinks.docs .tenant d mem
    exact gone d₀ mem₀ (came.id ▸ same)
  refine ⟨start.records.step before step, ?_, fun r' mem purged => ?_⟩
  · -- The ids of workspaces.
    have proper := step.proper
    rw [step.acts, before]
    cases label : e.label with
    | look | create | cancel | claim | markPurged | markFailed | removeFile => exact start.tenants
    | lifecycle w' =>
        simp only [DeletionLabel.act, Function.update_self]
        rw [map_updateFirst fun d => (write_came w' d).id]
        exact start.tenants
    | remove deletion model which =>
        by_cases same : model = .tenant
        · subst same
          simp only [DeletionLabel.act, Function.update_self]
          exact start.tenants.sublist (List.Sublist.map _ List.filter_sublist)
        · simp only [DeletionLabel.act, Function.update_of_ne (Ne.symm same)]
          exact start.tenants
    | rewrite deletion model which update =>
        by_cases same : model = .tenant
        · subst same
          simp only [DeletionLabel.act, Function.update_self, List.map_map]
          rw [label] at proper
          have ids : (Document.id ∘ fun d => if which d then update d else d) = Document.id := by
            funext d
            obtain ⟨kept, -, is⟩ := proper d
            simp only [Function.comp_apply]
            split
            · rw [is]
            · rfl
          rw [ids]
          exact start.tenants
        · simp only [DeletionLabel.act, Function.update_of_ne (Ne.symm same)]
          exact start.tenants
  · rw [step.acts, before] at mem
    rcases record_before mem with ⟨r, was, rfl | ⟨selected, rfl⟩⟩ | ⟨label, -⟩
    · exact gone (start.purged _ was purged)
    · cases label : e.label with
      | markPurged id => exact gone (marks id label).gone
      | cancel | claim | markFailed =>
          rw [label] at purged
          cases purged
      | look | create | lifecycle | remove | rewrite | removeFile =>
          rw [label] at selected
          cases selected
    · have proper := step.proper
      rw [label] at proper
      rw [proper.2] at purged
      cases purged

theorem RunSound.wanted_step (sound : RunSound settings tenantId w) (before : e.before = w.store)
    (permitted : ∀ id, e.label.purges = some id → Entered tenantId id w) :
    StepWanted settings tenantId e w.trace where
  notCancelled := fun id purges c mem cancelled =>
    sound.start.records.not_both (permitted id purges).claimed (sound.cancels c mem id cancelled)
  notActive := fun guarded purges => by
    obtain ⟨id, purges⟩ := Option.isSome_iff_exists.mp purges
    rw [before]
    exact (permitted id purges).closed guarded
  noCancel := fun c mem id claims cancels => by
    obtain ⟨r, there, rfl, started⟩ := sound.claims c mem id claims
    unfold cancelOf at cancels
    split at cancels
    · split at cancels
      · rename_i found
        obtain ⟨r', there', is⟩ := List.any_eq_true.mp found
        simp only [Bool.and_eq_true, decide_eq_true_eq] at is
        rw [before] at there'
        have same : r'.id = r.id := is.1.trans (Option.some.inj cancels)
        obtain rfl := sound.start.records.eq_of_id there' there same
        rw [is.2] at started
        exact nomatch started
      · exact nomatch cancels
    · exact nomatch cancels
  noRestore := fun guarded c mem claims => by
    obtain ⟨id, claims⟩ := Option.isSome_iff_exists.mp claims
    simp only [restoresGuarded, List.all_cons, Bool.and_eq_true] at guarded
    exact not_restored (before ▸ sound.start) (before ▸ sound.claims c mem id claims) guarded.1

theorem claimed_after (step : DeletionStep settings tenantId e)
    {id : String} (claims : claimOf settings e = some id) : Claimed id e.after := by
  obtain ⟨now, r, label, found, rfl⟩ := claimOf_cases claims
  rw [step.acts, label]
  exact ⟨_, updated_mem found, rfl, rfl⟩

theorem cancelled_after (step : DeletionStep settings tenantId e) {id : String}
    (cancels : cancelOf e = some id) : Cancelled id e.after := by
  unfold cancelOf at cancels
  split at cancels
  · rename_i id' label
    split at cancels
    · rename_i found
      obtain rfl := Option.some.inj cancels
      rw [step.acts, label]
      obtain ⟨r, found⟩ :=
        Option.isSome_iff_exists.mp (List.find?_isSome.mpr (List.any_eq_true.mp found))
      have is := List.find?_some found
      simp only [Bool.and_eq_true, decide_eq_true_eq] at is
      exact ⟨_, updated_mem found, is.1, rfl⟩
    · exact nomatch cancels
  · exact nomatch cancels

theorem RunSound.push (sound : RunSound settings tenantId w) (before : e.before = w.store)
    (step : DeletionStep settings tenantId e)
    (marks : ∀ id, e.label = .markPurged id → Cleared settings tenantId s₀ w.store)
    (permitted : ∀ id, e.label.purges = some id → Entered tenantId id w) :
    RunSound settings tenantId (w.push e) where
  start := sound.start.push before step marks
  leases := by
    cases claims : claimOf settings e with
    | none => exact sound.leases.other before step claims
    | some id => exact sound.leases.claim sound.start.records before step claims
  claims := by
    refine List.forall_mem_cons.mpr ⟨fun id claims => claimed_after step claims, ?_⟩
    intro c mem id claims
    rw [World.push_store, step.acts, before]
    exact (sound.claims c mem id claims).act e.label
  cancels := by
    refine List.forall_mem_cons.mpr ⟨fun id cancels => cancelled_after step cancels, ?_⟩
    intro c mem id cancels
    rw [World.push_store, step.acts, before]
    exact (sound.cancels c mem id cancels).act e.label
  wanted := ⟨sound.wanted_step before permitted, sound.wanted⟩

/-- One permitted step keeps the invariant. -/
theorem DeletionInv.push (inv : DeletionInv settings tenantId s₀ w) (before : e.before = w.store)
    (step : DeletionStep settings tenantId e) (permitted : Permitted settings tenantId s₀ e.label w) :
    DeletionInv settings tenantId s₀ (w.push e) := by
  have shrinks : Shrinks w.store e.after := by
    rw [step.acts, before]
    exact act_shrinks step.proper _
  refine ⟨inv.roles.shrink shrinks ?_, ?_, fun start => ?_⟩
  · refine permitted.roles.imp_left fun other => ?_
    rw [World.push_store, step.acts, before]
    exact roleIds_act step.proper other _
  · refine List.forall_mem_cons.mpr ⟨fun id label => ?_, fun e' mem id label => ?_⟩
    · exact (permitted.marks id label).shrink shrinks
    · exact (inv.done e' mem id label).shrink shrinks
  · exact (inv.run start).push before step permitted.marks (permitted.purges start)

theorem DeletionInv.env (inv : DeletionInv settings tenantId s₀ w) {db : DeletionDb}
    (may : (deletionSystem settings tenantId).env w.store db) :
    DeletionInv settings tenantId s₀ { store := db, trace := w.trace } := by
  obtain ⟨clock, later, rfl⟩ := may
  refine ⟨inv.roles, fun e mem id label => ?_, fun start => ?_⟩
  · exact ⟨(inv.done e mem id label).docs, (inv.done e mem id label).files⟩
  · have sound := inv.run start
    refine ⟨⟨⟨sound.start.records.unique, sound.start.records.drawn, sound.start.records.pending,
      sound.start.records.single⟩, sound.start.tenants, sound.start.purged⟩, ?_, sound.claims,
      sound.cancels, sound.wanted⟩
    intro prompt own i id claimedAt is
    exact (sound.leases prompt own i id claimedAt is).imp_right fun lapsed => lt_of_lt_of_le lapsed later

end Invariant

end AnalyticsBackend.Tenancy
