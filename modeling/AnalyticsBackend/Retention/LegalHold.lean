import AnalyticsBackend.Retention.Holds

/-!
# Retention and legal holds

The audit trail, the grants of a deleted user and the data of an archived tenant are deleted without a
look at the holds of their rows, and a file goes with the first document that refers to it. Where no
hold lies there, no run deletes anything that is on hold.
-/

namespace AnalyticsBackend.Retention
open Lib Mongo Prog

def RetentionRun.deletes (run : RetentionRun) (key : String) (days : Magnitude) (cutoff : Int) : Prop :=
  run.dryRun = false ∧ (run.only.all fun keys => keys.contains key) = true ∧
    cutoffFor days run.now = some cutoff

/-- The tenants on hold for a run. -/
def RetentionRun.held (run : RetentionRun) (db : RetentionDb) : List String :=
  heldTenants run.settings.legalHoldTenantIds db

/-- The `ctx` of a run. -/
abbrev RetentionRun.start (run : RetentionRun) (db : RetentionDb) : Ctx := run.ctx (run.held db)

inductive FileDue (run : RetentionRun) (db : RetentionDb) (key : String) : Prop where
  | analytics (cutoff : Int) (d : Document)
      (deletes : run.deletes "analyticsExports" run.settings.exportDays cutoff)
      (mem : d ∈ db.colls "AnalyticsQuery")
      (due : analyticsExportExpired (run.start db) cutoff d = true)
      (is : d.resultKey = some key)
  | auditExport (d : Document) (wet : run.dryRun = false)
      (wanted : (run.only.all fun keys => keys.contains "exportArtifacts") = true)
      (mem : d ∈ db.colls "AuditExport") (due : exportExpired (run.start db) d = true)
      (is : d.storageKey = some key)
  | report (cutoff : Int) (d : Document) (r : ReportRun)
      (deletes : run.deletes "reportArtifacts" run.settings.reportArtifactDays cutoff)
      (mem : d ∈ db.colls "Report") (unheld : holdFilter true (run.start db) d = true)
      (ran : r ∈ d.runs) (due : runExpired cutoff r = true) (is : r.resultKey = some key)
  | softDeleted (cutoff : Int) (d : Document)
      (deletes : run.deletes "softDeleted" run.settings.softDeleteDays cutoff)
      (mem : d ∈ db.colls "Report")
      (due : softDeletedDue (run.start db) "Report" cutoff d = true)
      (is : key ∈ reportKeys d)
  | tenant (cutoff : Int) (t : Document) (path : String)
      (deletes : run.deletes "archivedTenants" run.settings.archivedTenantDays cutoff)
      (mem : t ∈ db.colls "Tenant") (due : archivedDue (run.start db) cutoff t = true)
      (stored : path ∈ tenantStoragePrefixes t.id.toHex) (under : below path key = true)

/-- Nothing on hold lies where a policy does not look for holds. -/
structure HoldsSeen (run : RetentionRun) (db : RetentionDb) : Prop where
  audit : ∀ cutoff, run.deletes "auditLogs" run.settings.auditLogDays cutoff →
    ∀ d ∈ db.colls "AuditLog", d.before "occurredAt" cutoff = true → d.legalHold = false
  grants : ∀ cutoff, run.deletes "deletedUsers" run.settings.deletedUserDays cutoff →
    ∀ user ∈ db.colls "User", userDue (run.start db) cutoff user = true →
      ∀ d ∈ db.colls "UserRole", grantOf user d = true → d.legalHold = false
  rows : ∀ cutoff, run.deletes "archivedTenants" run.settings.archivedTenantDays cutoff →
    ∀ t ∈ db.colls "Tenant", archivedDue (run.start db) cutoff t = true →
      ∀ model ∈ purgedModels, ∀ d ∈ db.colls model, d.inTenants [t.id.toHex] = true →
        d.legalHold = false
  files : ∀ model, ∀ d ∈ db.colls model, Held (run.held db) model d →
    ∀ key ∈ d.fileKeys, ¬ FileDue run db key

/-! ## Loops -/

section Loops

variable {held : List String} {db₀ : RetentionDb} {ctx : Ctx}

theorem mem_of_mem_find {server : Server} {filter : Document → Bool} {docs : List Document}
    {d : Document} (mem : d ∈ find server filter docs) : d ∈ docs ∧ filter d = true := by
  obtain ⟨arranged, passes⟩ := List.mem_filter.mp mem
  obtain ⟨i, -, is⟩ := List.mem_filterMap.mp arranged
  exact ⟨List.mem_of_getElem? is, passes⟩

theorem mem_find {server : Server} {filter : Document → Bool} {docs : List Document} {d : Document}
    (mem : d ∈ docs) (passes : filter d = true) : d ∈ find server filter docs := by
  refine List.mem_filter.mpr ⟨?_, passes⟩
  obtain ⟨i, inside, is⟩ := List.getElem_of_mem mem
  refine List.mem_filterMap.mpr ⟨i, ?_, by rw [List.getElem?_eq_getElem inside, is]⟩
  exact (server.order_perm _).mem_iff.mpr (List.mem_range.mpr inside)

theorem mem_sortBy {K : Type} [Ord K] {key : Document → K} {docs : List Document} {d : Document} :
    d ∈ sortBy key docs ↔ d ∈ docs :=
  List.mem_insertionSort _

theorem head_sortBy {K : Type} [Ord K] [Std.TransOrd K] {key : Document → K} {docs : List Document}
    {first : Document} (is : (sortBy key docs).head? = some first) {d : Document} (mem : d ∈ docs) :
    (compare (key first) (key d)).isLE = true := by
  let le := fun a b : Document => compare (key a) (key b) ≠ .gt
  have isLE (a b : Document) : le a b ↔ (compare (key a) (key b)).isLE = true := by
    dsimp only [le]
    cases compare (key a) (key b) <;> decide
  have total : Std.Total le := ⟨fun a b => by
    rw [isLE, isLE, Std.OrientedOrd.eq_swap (a := key b)]
    cases compare (key a) (key b) <;> decide⟩
  have trans : IsTrans Document le := ⟨fun a b c ab bc => by
    rw [isLE] at ab bc ⊢
    exact Std.TransOrd.isLE_trans ab bc⟩
  have ordered : (sortBy key docs).Pairwise le := List.pairwise_insertionSort le docs
  have there : d ∈ sortBy key docs := mem_sortBy.mpr mem
  cases sorted : sortBy key docs with
  | nil => rw [sorted] at is; exact nomatch is
  | cons head rest =>
      rw [sorted] at is ordered there
      have same : head = first := Option.some.inj is
      subst same
      rcases List.mem_cons.mp there with rfl | later
      · exact (isLE d d).mp ((total.total d d).elim id id)
      · exact (isLE head d).mp (List.rel_of_pairwise_cons ordered later)

theorem keeps_countDocuments (model : String) (filter : Document → Bool) :
    Keeps held db₀ (countDocuments model filter) fun _ => True :=
  Keeps.look fun _ _ => trivial

theorem keeps_purgeBatched (sound : StoreSound db₀) {model : String} {filter : Document → Bool}
    {sort : List Document → List Document}
    (unheld : ctx.dryRun = false → ∀ d₀ ∈ db₀.colls model, ∀ d, Aged d₀ d → filter d = true →
      ¬ Held held model d₀) :
    Keeps held db₀ (purgeBatched ctx model filter sort) fun _ => True := by
  have batches (wet : ctx.dryRun = false) (n deleted : Nat) :
      Keeps held db₀ (purgeBatches ctx model filter sort n deleted) fun _ => True := by
    induction n generalizing deleted with
    | zero => exact Keeps.pure trivial
    | succ n ih =>
        refine (Keeps.look (Q := fun _ => True) fun _ _ => trivial).bind fun ids _ => ?_
        split
        · exact Keeps.pure trivial
        · refine (keeps_deleteMany sound fun d₀ mem d aged selected => ?_).bind fun gone _ => ?_
          · exact unheld wet d₀ mem d aged (Bool.and_eq_true_iff.mp selected).1
          · dsimp only
            split
            · exact Keeps.pure trivial
            · split
              · exact (keeps_countDocuments _ _).bind fun _ _ => Keeps.pure trivial
              · exact ih _
  unfold purgeBatched
  split
  · exact (keeps_countDocuments _ _).bind fun _ _ => Keeps.pure trivial
  · rename_i wet
    exact batches (Bool.not_eq_true _ ▸ wet) _ _

theorem keeps_forEach {P : Document → Prop} {work : Document → Outcome → RetentionM (Outcome × Nat)}
    (works : ∀ d out, P d → Keeps held db₀ (work d out) fun _ => True) {docs : List Document}
    (all : ∀ d ∈ docs, P d) (out : Outcome) (failed : Nat) :
    Keeps held db₀ (forEach work docs out failed) fun _ => True := by
  induction docs generalizing out failed with
  | nil => exact Keeps.pure trivial
  | cons d rest ih =>
      refine (works d out (all d (List.mem_cons_self ..))).bind fun result _ => ?_
      exact ih (fun other mem => all other (List.mem_cons_of_mem _ mem)) _ _

theorem keeps_inBatches {model : String} {filter : Document → Bool}
    {sort : List Document → List Document} (sorted : ∀ docs, ∀ d ∈ sort docs, d ∈ docs)
    {work : Document → Outcome → RetentionM (Outcome × Nat)}
    (works : ∀ d₀ ∈ db₀.colls model, ∀ d, Aged d₀ d → filter d = true → ∀ out,
      Keeps held db₀ (work d out) fun _ => True) (n : Nat) (out : Outcome) :
    Keeps held db₀ (inBatches ctx model filter sort work n out) fun _ => True := by
  induction n generalizing out with
  | zero => exact Keeps.pure trivial
  | succ n ih =>
      refine (Keeps.look (Q := fun docs => ∀ d ∈ docs,
        (∃ d₀ ∈ db₀.colls model, Aged d₀ d) ∧ filter d = true) fun db intact d mem => ?_).bind
          fun docs found => ?_
      · obtain ⟨there, passes⟩ := mem_of_mem_find (sorted _ d (List.mem_of_mem_take mem))
        exact ⟨intact.aged model d there, passes⟩
      · split
        · exact Keeps.pure trivial
        · refine (keeps_forEach (fun d out is => ?_) found _ _).bind fun result _ => ?_
          · obtain ⟨⟨d₀, mem, aged⟩, passes⟩ := is
            exact works d₀ mem d aged passes out
          · dsimp only
            split
            · exact Keeps.pure trivial
            · exact ih _

end Loops

/-! ## Policies -/

theorem not_held {ctx : Ctx} {model : String} {d : Document}
    (passes : holdFilter (tenantOwned model) ctx d = true) : ¬ Held ctx.heldTenantIds model d := by
  simp only [holdFilter, Bool.and_eq_true, Bool.not_eq_true'] at passes
  rintro (itself | ⟨owned, ofTenant⟩)
  · rw [passes.1] at itself
    cases itself
  · rw [owned, ofTenant] at passes
    cases passes.2

section Policies

variable {run : RetentionRun} {db₀ : RetentionDb}

abbrev Guarded {A : Type} (run : RetentionRun) (db₀ : RetentionDb) (p : RetentionM A) : Prop :=
  Keeps (run.held db₀) db₀ p fun _ => True

theorem HoldsSeen.free (seen : HoldsSeen run db₀) {key : String} (due : FileDue run db₀ key) :
    FreeKey (run.held db₀) db₀ key :=
  fun model d mem is mentioned => seen.files model d mem is key mentioned due

theorem guarded_rows (sound : StoreSound db₀) (model : String) (filter : Document → Bool) :
    Guarded run db₀ (purgeBatched (run.start db₀) model fun d =>
      filter d && holdFilter (tenantOwned model) (run.start db₀) d) := by
  refine keeps_purgeBatched sound fun _ d₀ _ d aged passes => ?_
  have unheld := (Bool.and_eq_true_iff.mp passes).2
  rw [aged.holdFilter] at unheld
  exact not_held unheld

def BoundaryOf (held : List String) (db₀ : RetentionDb) (cutoff : Int) (oldest : Option Document) :
    Prop :=
  ∀ boundary, (oldest.bind fun d => d.date "occurredAt").getD cutoff = boundary →
    boundary ≤ cutoff ∧ ∀ d ∈ db₀.colls "AuditLog", d.inTenants held = true →
      d.before "occurredAt" boundary = false

theorem boundaryOf_oldest (sound : StoreSound db₀) {server : Server} {held : List String}
    {cutoff : Int} {db : RetentionDb} (intact : Intact held db₀ db) {oldest : Option Document}
    (is : (sortBy (fun d => d.date "occurredAt") (find server
      (fun d => d.inTenants held && d.before "occurredAt" cutoff) (db.colls "AuditLog"))).head? =
        oldest) : BoundaryOf held db₀ cutoff oldest := by
  rintro boundary rfl
  have le : (oldest.bind fun d => d.date "occurredAt").getD cutoff ≤ cutoff := by
    cases oldest with
    | none => exact le_refl _
    | some first =>
        have mem := mem_of_mem_find (mem_sortBy.mp (List.mem_of_mem_head? is))
        obtain ⟨t, date, early⟩ := Document.before_iff.mp (Bool.and_eq_true_iff.mp mem.2).2
        simp only [Option.bind_some, date, Option.getD_some]
        exact early.le
  refine ⟨le, fun d₀ mem₀ ofTenant => ?_⟩
  rw [← Bool.not_eq_true]
  intro early
  obtain ⟨t, date, before⟩ := Document.before_iff.mp early
  obtain ⟨⟨d, mem, same⟩, -⟩ := intact.kept "AuditLog" d₀ mem₀ (.inr ⟨by decide, ofTenant⟩)
  obtain ⟨d₁, mem₁, aged⟩ := intact.aged "AuditLog" d mem
  have one : d₁ = d₀ :=
    List.inj_on_of_nodup_map (sound.ids "AuditLog") mem₁ mem₀ (aged.id.symm.trans same)
  subst one
  have selected : (d.inTenants held && d.before "occurredAt" cutoff) = true := by
    rw [aged.inTenants, aged.before (by decide), ofTenant]
    exact Document.before_iff.mpr ⟨t, date, before.trans_le le⟩
  have there : d ∈ find server (fun d => d.inTenants held && d.before "occurredAt" cutoff)
      (db.colls "AuditLog") := mem_find mem selected
  cases oldest with
  | none =>
      have empty := List.head?_eq_none_iff.mp is
      exact absurd (mem_sortBy.mpr there) (empty ▸ List.not_mem_nil)
  | some first =>
      have mem' := mem_of_mem_find (mem_sortBy.mp (List.mem_of_mem_head? is))
      obtain ⟨t', date', -⟩ := Document.before_iff.mp (Bool.and_eq_true_iff.mp mem'.2).2
      have least := head_sortBy is there
      rw [date', aged.date (by decide), date] at least
      simp only [Option.bind_some, date', Option.getD_some] at before
      have le : (compare t' t).isLE = true := least
      exact absurd before (Std.isLE_compare.mp le).not_gt

theorem guarded_auditLog (sound : StoreSound db₀) (seen : HoldsSeen run db₀) {cutoff : Int}
    (deletes : run.dryRun = false → run.deletes "auditLogs" run.settings.auditLogDays cutoff) :
    Guarded run db₀ (purgeAuditLog (run.start db₀) cutoff) := by
  refine Keeps.bind (Q := BoundaryOf (run.held db₀) db₀ cutoff) ?_ fun oldest boundary => ?_
  · unfold oldestHeld
    split
    · rename_i nobody
      refine Keeps.pure fun boundary is => ?_
      have nobody : run.held db₀ = [] := List.isEmpty_iff.mp nobody
      rw [nobody]
      exact ⟨is.symm.le, fun d₀ _ ofTenant => absurd ofTenant Bool.false_ne_true⟩
    · exact Keeps.look fun db intact => boundaryOf_oldest sound intact rfl
  · refine (Keeps.look (Q := fun _ => True) fun _ _ => trivial).bind fun firstKept _ => ?_
    refine (keeps_purgeBatched sound fun wet d₀ mem d aged passes => ?_).bind fun _ _ =>
      Keeps.pure trivial
    have early := (Bool.and_eq_true_iff.mp passes).1
    rw [aged.before (by decide)] at early
    obtain ⟨le, spared⟩ := boundary _ rfl
    rintro (itself | ⟨-, ofTenant⟩)
    · obtain ⟨t, date, before⟩ := Document.before_iff.mp early
      have late := Document.before_iff.mpr ⟨t, date, before.trans_le le⟩
      rw [seen.audit cutoff (deletes wet) d₀ mem late] at itself
      cases itself
    · rw [spared d₀ mem ofTenant] at early
      cases early

/-! ### Files -/

theorem guarded_analyticsExports (seen : HoldsSeen run db₀) {cutoff : Int}
    (deletes : run.dryRun = false → run.deletes "analyticsExports" run.settings.exportDays cutoff) :
    Guarded run db₀ (expireAnalyticsExports (run.start db₀) cutoff) := by
  unfold expireAnalyticsExports
  split
  · exact (keeps_countDocuments _ _).bind fun _ _ => Keeps.pure trivial
  · rename_i wet
    have wet : run.dryRun = false := Bool.not_eq_true _ ▸ wet
    refine keeps_inBatches (fun _ _ mem => mem) (fun d₀ mem d aged due out => ?_) _ _
    have stored : d.resultKey.isSome = true := by
      simp only [analyticsExportExpired, Bool.and_eq_true] at due
      exact due.1.1.2
    obtain ⟨key, is⟩ := Option.isSome_iff_exists.mp stored
    -- the document still has its file, so its artifact is that of the start
    have same : d.artifact = d₀.artifact := by
      rcases aged.artifact with same | gone
      · exact same
      · rw [is] at gone
        exact nomatch gone
    have due₀ : analyticsExportExpired (run.start db₀) cutoff d₀ = true := by
      rw [← due, analyticsExportExpired, analyticsExportExpired, aged.kind, aged.holdFilter,
        Document.resultKey, Document.resultKey, same]
    have is₀ : d₀.resultKey = some key := by rw [← is, Document.resultKey, ← same]; rfl
    have free := seen.free (.analytics cutoff d₀ (deletes wet) mem due₀ is₀)
    unfold expireAnalyticsExport
    rw [is]
    refine (keeps_del free).attempt.bind fun result _ => ?_
    cases result with
    | error => exact Keeps.pure trivial
    | ok =>
        exact (keeps_updateOne (aged_expireArtifact _ _)).bind fun _ _ => Keeps.pure trivial

theorem guarded_markExpired {ctx : Ctx} (exportId : Option String) :
    Guarded run db₀ (markExpired ctx exportId) := by
  refine Keeps.access (fun db intact => ?_) fun _ _ => trivial
  cases found : (db.colls "AuditExport").find? fun d =>
      d.exportId = exportId && d.status = some "completed" with
  | none =>
      rw [RetentionDb.update_congr (g := fun docs => docs.map id)
        (by simp only [found, List.map_id])]
      exact intact.rewrite Aged.refl
  | some first =>
      rw [RetentionDb.update_congr
        (g := fun docs => docs.map fun d => if d.id = first.id then markedExpired ctx d else d)
        (by simp only [found])]
      refine intact.rewrite fun d => ?_
      split
      · exact aged_markedExpired ctx d
      · exact Aged.refl d

theorem guarded_exports (seen : HoldsSeen run db₀)
    (wanted : (run.only.all fun keys => keys.contains "exportArtifacts") = true) :
    Guarded run db₀ (expireExports (run.start db₀)) := by
  unfold expireExports
  split
  · exact (keeps_countDocuments _ _).bind fun _ _ => Keeps.pure trivial
  · rename_i wet
    have wet : run.dryRun = false := Bool.not_eq_true _ ▸ wet
    refine keeps_inBatches (fun _ _ mem => mem_sortBy.mp mem) (fun d₀ mem d aged due out => ?_) _ _
    have stored : Guarded run db₀ (delStored (d.storageKey.getD "")) := by
      unfold delStored
      split
      · exact Keeps.pure trivial
      · rename_i named
        cases is : d.storageKey with
        | none => exact absurd (by rw [is]; rfl) named
        | some key =>
            have due₀ : exportExpired (run.start db₀) d₀ = true := by
              have completed : d.status = some "completed" := by
                simp only [exportExpired, Bool.and_eq_true, decide_eq_true_eq] at due
                exact due.1.1.1
              have status : d.status = d₀.status := by
                rcases aged.status with same | expired
                · exact same
                · rw [completed] at expired
                  exact absurd expired (by decide)
              rw [← due, exportExpired, exportExpired, status, aged.date (by decide), aged.tenantId,
                aged.legalHold]
            have is₀ : d₀.storageKey = some key := by
              rcases aged.storageKey with same | gone
              · rw [← same, is]
              · rw [is] at gone
                exact nomatch gone
            exact (keeps_del (seen.free (.auditExport d₀ wet wanted mem due₀ is₀))).attempt.weaken
              fun _ _ => trivial
    unfold expireExport
    refine stored.bind fun result _ => ?_
    cases result with
    | error => exact Keeps.pure trivial
    | ok => exact (guarded_markExpired _).bind fun _ _ => Keeps.pure trivial

theorem guarded_reportArtifacts (seen : HoldsSeen run db₀) {cutoff : Int}
    (deletes : run.dryRun = false →
      run.deletes "reportArtifacts" run.settings.reportArtifactDays cutoff) :
    Guarded run db₀ (expireReportArtifacts (run.start db₀) cutoff) := by
  refine keeps_inBatches (fun _ _ mem => mem) (fun d₀ mem d aged due out => ?_) _ _
  unfold expireReport
  split
  · exact Keeps.pure trivial
  · rename_i wet
    have wet : run.dryRun = false := Bool.not_eq_true _ ▸ wet
    have unheld : holdFilter true (run.start db₀) d₀ = true := by
      rw [← aged.holdFilter]
      exact (Bool.and_eq_true_iff.mp due).2
    have runs (expired : List ReportRun)
        (all : ∀ r ∈ expired, r ∈ d.runs ∧ runExpired cutoff r = true) (done : List ReportRun)
        (failed : Nat) : Guarded run db₀ (expireRuns expired done failed) := by
      induction expired generalizing done failed with
      | nil => exact Keeps.pure trivial
      | cons r rest ih =>
          have later := ih fun other there => all other (List.mem_cons_of_mem _ there)
          obtain ⟨ran, expired⟩ := all r (List.mem_cons_self ..)
          cases is : r.resultKey with
          | none => simp [runExpired, is] at expired
          | some key =>
              have free := seen.free
                (.report cutoff d₀ r (deletes wet) mem unheld (aged.run ran is) expired is)
              unfold expireRuns
              rw [is]
              refine (keeps_del free).attempt.bind fun result _ => ?_
              cases result with
              | ok => exact later _ _
              | error => exact later _ _
    refine (runs _ (fun r there => List.mem_filter.mp there) [] 0).bind fun result _ => ?_
    dsimp only
    split
    · exact Keeps.pure trivial
    · exact (keeps_updateOne (aged_clearRuns _ _)).bind fun _ _ => Keeps.pure trivial

/-! ### Rows -/

theorem keeps_deleteSoftDeleted (sound : StoreSound db₀) {model : String} {d₀ d : Document}
    (mem : d₀ ∈ db₀.colls model) (aged : Aged d₀ d) (unheld : ¬ Held (run.held db₀) model d₀) :
    Guarded run db₀ (deleteSoftDeleted model d) := by
  refine keeps_deleteMany sound fun other₀ there other aged' selected => ?_
  have same : other.id = d.id := of_decide_eq_true (Bool.and_eq_true_iff.mp selected).1
  have one : other₀ = d₀ := List.inj_on_of_nodup_map (sound.ids model) there mem
    (aged'.id.symm.trans (same.trans aged.id))
  rwa [one]

theorem guarded_softDeleted (sound : StoreSound db₀) (seen : HoldsSeen run db₀) {cutoff : Int}
    (deletes : run.dryRun = false → run.deletes "softDeleted" run.settings.softDeleteDays cutoff) :
    Guarded run db₀ (purgeSoftDeleted (run.start db₀) cutoff) := by
  have due₀ {model : String} {d₀ d : Document} (aged : Aged d₀ d)
      (due : softDeletedDue (run.start db₀) model cutoff d = true) :
      softDeletedDue (run.start db₀) model cutoff d₀ = true := by
    rw [← due, softDeletedDue, softDeletedDue, aged.before (by decide), aged.holdFilter]
  have unheld {model : String} {d : Document}
      (due : softDeletedDue (run.start db₀) model cutoff d = true) :
      ¬ Held (run.held db₀) model d :=
    not_held (Bool.and_eq_true_iff.mp due).2
  have report (wet : run.dryRun = false) (d₀ : Document) (mem : d₀ ∈ db₀.colls "Report")
      (d : Document) (aged : Aged d₀ d)
      (due : softDeletedDue (run.start db₀) "Report" cutoff d = true) (out : Outcome) :
      Guarded run db₀ (purgeReport d out) := by
    have files : Guarded run db₀ (deleteReportStorage d) := by
      refine (keeps_delMany fun key is => seen.free
        (.softDeleted cutoff d₀ (deletes wet) mem (due₀ aged due) (aged.reportKeys is))).bind
          fun result _ => ?_
      dsimp only
      split
      · exact Keeps.throw _
      · exact Keeps.pure trivial
    have row := keeps_deleteSoftDeleted sound mem aged (unheld (due₀ aged due))
    unfold purgeReport
    refine files.attempt.bind fun result _ => ?_
    cases result with
    | error => exact Keeps.pure trivial
    | ok =>
        refine row.attempt.bind fun result _ => ?_
        cases result with
        | error => exact Keeps.pure trivial
        | ok => exact Keeps.pure trivial
  have models (models : List String) (out : Outcome) :
      Guarded run db₀ (purgeSoftDeletedOf (run.start db₀) cutoff models out) := by
    induction models generalizing out with
    | nil => exact Keeps.pure trivial
    | cons model rest ih =>
        unfold purgeSoftDeletedOf
        split
        · rename_i wet
          obtain ⟨rfl, wet⟩ := wet
          exact (keeps_inBatches (fun _ _ mem => mem) (report wet) _ _).bind fun _ _ => ih _
        · refine (keeps_purgeBatched sound fun _ d₀ _ d aged due => ?_).bind fun _ _ => ih _
          exact unheld (due₀ aged due)
  exact models _ _

/-- Whom the text of a reference puts on hold the reference does too, in either shape. -/
theorem inTenants_of_name {d : Document} {ids : List String} {ref : TenantRef}
    (is : d.tenantId = some ref) (bytes : ∀ id, ref = .oid id → id.value < 16 ^ 24)
    (mem : .text ref.name ∈ idForms ids) : d.inTenants ids = true := by
  refine inTenants_iff.mpr ⟨ref, ?_, is⟩
  cases ref with
  | text id => exact mem
  | oid id => exact oid_mem_idForms (bytes id rfl) (text_mem_idForms.mp mem)

theorem guarded_deletedUsers (sound : StoreSound db₀) (seen : HoldsSeen run db₀) {cutoff : Int}
    (deletes : run.dryRun = false → run.deletes "deletedUsers" run.settings.deletedUserDays cutoff) :
    Guarded run db₀ (purgeDeletedUsers (run.start db₀) cutoff) := by
  unfold purgeDeletedUsers
  split
  · exact (keeps_countDocuments _ _).bind fun _ _ => Keeps.pure trivial
  · rename_i wet
    have wet : run.dryRun = false := Bool.not_eq_true _ ▸ wet
    refine keeps_inBatches (fun _ _ mem => mem) (fun d₀ mem user aged due out => ?_) _ _
    have due₀ : userDue (run.start db₀) cutoff d₀ = true := by
      rw [← due, userDue, userDue, aged.before (by decide), aged.holdFilter]
    have unheld : ¬ Held (run.held db₀) "User" d₀ :=
      @not_held (run.start db₀) "User" d₀ (Bool.and_eq_true_iff.mp due₀).2
    have grants : Guarded run db₀ (deleteMany "UserRole" (grantOf user)) := by
      refine keeps_deleteMany sound fun g₀ there g aged' granted => ?_
      have granted₀ : grantOf d₀ g₀ = true := by
        rw [← granted, grantOf, grantOf, Document.tenantName, Document.tenantName, aged.tenantId,
          aged.id, aged'.tenantId, aged'.userId]
      rintro (itself | ⟨-, ofTenant⟩)
      · rw [seen.grants cutoff (deletes wet) d₀ mem due₀ g₀ there granted₀] at itself
        cases itself
      · obtain ⟨ref, is⟩ := Option.isSome_iff_exists.mp (sound.users d₀ mem)
        obtain ⟨ref', mem', is'⟩ := inTenants_iff.mp ofTenant
        have named : g₀.tenantId = some (.text ref.name) := by
          have := of_decide_eq_true (Bool.and_eq_true_iff.mp granted₀).1
          rwa [Document.tenantName, is] at this
        rw [named] at is'
        cases is'
        exact unheld (.inr ⟨by decide, inTenants_of_name is
          (fun id same => (sound.bytes "User" d₀ mem).2 id (is.trans (congrArg some same))) mem'⟩)
    have deletion : Guarded run db₀ (deleteUser user) :=
      grants.bind fun _ _ => keeps_deleteSoftDeleted sound mem aged unheld
    unfold purgeUser
    refine (Keeps.look (Q := fun _ => True) fun _ _ => trivial).attempt.bind fun result _ => ?_
    cases result with
    | error => exact Keeps.pure trivial
    | ok =>
        refine deletion.attempt.bind fun result _ => ?_
        cases result with
        | error => exact Keeps.pure trivial
        | ok => exact Keeps.pure trivial

/-! ### Archived tenants -/

theorem guarded_tenantData (sound : StoreSound db₀) {ctx : Ctx} {id : ObjectId}
    (unheld : ctx.dryRun = false → ∀ model ∈ purgedModels, ∀ d ∈ db₀.colls model,
      d.inTenants [id.toHex] = true → ¬ Held (run.held db₀) model d)
    (free : ctx.dryRun = false → ∀ path ∈ tenantStoragePrefixes id.toHex, ∀ key,
      below path key = true → FreeKey (run.held db₀) db₀ key) :
    Guarded run db₀ (purgeTenantData ctx id.toHex) := by
  have rows (models : List String) (all : ∀ model ∈ models, model ∈ purgedModels)
      (out : TenantPurge) : Guarded run db₀ (purgeTenantRows ctx id.toHex models out) := by
    induction models generalizing out with
    | nil => exact Keeps.pure trivial
    | cons model rest ih =>
        have purged := all model (List.mem_cons_self ..)
        refine (keeps_purgeBatched sound fun wet d₀ mem d aged owned => ?_).bind fun _ _ =>
          ih (fun other there => all other (List.mem_cons_of_mem _ there)) _
        rw [aged.inTenants] at owned
        exact unheld wet model purged d₀ mem owned
  have batches (path : String) (stored : path ∈ tenantStoragePrefixes id.toHex) (n : Nat)
      (out : TenantPurge) : Guarded run db₀ (purgePath ctx path n out) := by
    induction n generalizing out with
    | zero => exact Keeps.pure trivial
    | succ n ih =>
        refine (keeps_delPrefix fun wet key under => free wet path stored key under).bind
          fun r _ => ?_
        dsimp only
        split
        · exact Keeps.pure trivial
        · split
          · exact Keeps.pure trivial
          · exact ih _
  have paths (rest : List String) (all : ∀ path ∈ rest, path ∈ tenantStoragePrefixes id.toHex)
      (out : TenantPurge) : Guarded run db₀ (purgePaths ctx rest out) := by
    induction rest generalizing out with
    | nil => exact Keeps.pure trivial
    | cons path rest ih =>
        exact (batches path (all path (List.mem_cons_self ..)) _ _).bind fun _ _ =>
          ih (fun other there => all other (List.mem_cons_of_mem _ there)) _
  exact (rows purgedModels (fun _ mem => mem) {}).bind fun _ _ => paths _ (fun _ mem => mem) _

theorem not_held_of_due {ctx : Ctx} {cutoff : Int} {t d : Document} (bytes : t.id.value < 16 ^ 24)
    (due : archivedDue ctx cutoff t = true) (owned : d.inTenants [t.id.toHex] = true) :
    ¬ d.inTenants ctx.heldTenantIds = true := by
  have free : .oid t.id ∉ idForms ctx.heldTenantIds := by
    simp only [archivedDue, Bool.and_eq_true, Bool.not_eq_true'] at due
    intro mem
    rw [List.contains_iff_mem.mpr mem] at due
    exact nomatch due.2
  intro held
  obtain ⟨ref, mem, is⟩ := inTenants_iff.mp owned
  obtain ⟨ref', mem', is'⟩ := inTenants_iff.mp held
  have same : ref' = ref := Option.some.inj (is'.symm.trans is)
  subst same
  cases ref' with
  | text id =>
      have named : id = t.id.toHex := List.mem_singleton.mp (text_mem_idForms.mp mem)
      rw [named] at mem'
      exact free (oid_mem_idForms bytes (text_mem_idForms.mp mem'))
  | oid id =>
      have named : id = t.id := by
        simpa [idForms, isHexId_toHex, ofHex_toHex bytes] using mem
      rw [named] at mem'
      exact free mem'

theorem archivedDue_of_aged {ctx : Ctx} {cutoff : Int} {t₀ t : Document} (aged : Aged t₀ t)
    (due : archivedDue ctx cutoff t = true) : archivedDue ctx cutoff t₀ = true := by
  simp only [archivedDue, Bool.and_eq_true, decide_eq_true_eq, aged.legalHold, aged.id] at due ⊢
  obtain ⟨⟨⟨⟨archived, late⟩, unpurged⟩, free⟩, other⟩ := due
  rw [aged.before (by decide)] at late
  have status : t₀.status = some "archived" := by
    rcases aged.status with same | expired
    · rw [← same, archived]
    · rw [archived] at expired
      exact absurd expired (by decide)
  have unpurged₀ : (t₀.date "dataPurgedAt").isNone = true := by
    rcases aged.dates "dataPurgedAt" with same | ⟨-, set⟩
    · rwa [← same]
    · rw [Option.isNone_iff_eq_none.mp unpurged] at set
      exact nomatch set
  exact ⟨⟨⟨⟨status, late⟩, unpurged₀⟩, free⟩, other⟩

theorem guarded_archivedTenants (sound : StoreSound db₀) (seen : HoldsSeen run db₀) {cutoff : Int}
    (deletes : run.dryRun = false →
      run.deletes "archivedTenants" run.settings.archivedTenantDays cutoff) :
    Guarded run db₀ (purgeArchivedTenants (run.start db₀) cutoff) := by
  have data (t₀ : Document) (mem : t₀ ∈ db₀.colls "Tenant")
      (due : archivedDue (run.start db₀) cutoff t₀ = true) :
      Guarded run db₀ (purgeTenantData (run.start db₀) t₀.id.toHex) := by
    refine guarded_tenantData sound (fun wet model purged d there owned => ?_)
      fun wet path stored key under =>
        seen.free (.tenant cutoff t₀ path (deletes wet) mem due stored under)
    rintro (itself | ⟨-, ofTenant⟩)
    · rw [seen.rows cutoff (deletes wet) t₀ mem due model purged d there owned] at itself
      cases itself
    · exact not_held_of_due (sound.bytes "Tenant" t₀ mem).1 due owned ofTenant
  have tenants (ts : List Document) (all : ∀ t ∈ ts, ∃ t₀ ∈ db₀.colls "Tenant",
      t.id = t₀.id ∧ archivedDue (run.start db₀) cutoff t₀ = true) (out : Outcome) :
      Guarded run db₀ (purgeTenants (run.start db₀) ts out) := by
    induction ts generalizing out with
    | nil => exact Keeps.pure trivial
    | cons t rest ih =>
        have later := ih fun other there => all other (List.mem_cons_of_mem _ there)
        obtain ⟨t₀, mem, same, due⟩ := all t (List.mem_cons_self ..)
        unfold purgeTenants
        rw [same]
        refine (data t₀ mem due).bind fun r _ => ?_
        dsimp only
        split
        · exact (keeps_updateOne fun _ => aged_setDate (.inr rfl) _).bind fun _ _ => later _
        · exact later _
  refine (Keeps.look (Q := fun ts => ∀ t ∈ ts, ∃ t₀ ∈ db₀.colls "Tenant",
    t.id = t₀.id ∧ archivedDue (run.start db₀) cutoff t₀ = true) fun db intact t mem => ?_).bind
      fun ts all => (tenants ts all _).bind fun _ _ => Keeps.pure trivial
  obtain ⟨there, due⟩ := mem_of_mem_find (List.mem_of_mem_take mem)
  obtain ⟨t₀, mem₀, aged⟩ := intact.aged "Tenant" t there
  exact ⟨t₀, mem₀, aged.id, archivedDue_of_aged aged due⟩

/-! ### The run -/

def Policy.Is (policy : Policy) (key : String) (days : RetentionSettings → Magnitude) : Prop :=
  policy.key = key ∧ policy.days = days ∧ policy.perRowExpiry = false

/-- A procedure of its own has its key and its window. -/
def Policy.Known (policy : Policy) : Prop :=
  match policy.work with
  | .rows _ | .invalid _ => True
  | .auditLog => policy.Is "auditLogs" RetentionSettings.auditLogDays
  | .exports => policy.key = "exportArtifacts"
  | .analyticsExports => policy.Is "analyticsExports" RetentionSettings.exportDays
  | .reportArtifacts => policy.Is "reportArtifacts" RetentionSettings.reportArtifactDays
  | .softDeleted => policy.Is "softDeleted" RetentionSettings.softDeleteDays
  | .deletedUsers => policy.Is "deletedUsers" RetentionSettings.deletedUserDays
  | .archivedTenants => policy.Is "archivedTenants" RetentionSettings.archivedTenantDays

theorem known_builtin : ∀ policy ∈ BUILTIN_POLICIES, policy.Known := by
  simp [BUILTIN_POLICIES, Policy.Known, Policy.Is]

theorem known_declared (files : List DeclaredFile) :
    ∀ policy ∈ loadDeclaredPolicies files, policy.Known := by
  intro policy mem
  obtain ⟨file, -, mem⟩ := List.mem_flatMap.mp mem
  split at mem
  · rw [List.mem_singleton.mp mem]
    trivial
  · obtain ⟨entry, -, rfl⟩ := List.mem_map.mp mem
    unfold DeclaredEntry.policy
    dsimp only
    split
    · trivial
    · split <;> trivial

theorem guarded_perform (sound : StoreSound db₀) (seen : HoldsSeen run db₀) {policy : Policy}
    (known : policy.Known) (wanted : (run.only.all fun keys => keys.contains policy.key) = true)
    {cutoff : Int}
    (at' : policy.perRowExpiry = false → cutoffFor (policy.days run.settings) run.now = some cutoff) :
    Guarded run db₀ (policy.perform (run.start db₀) cutoff) := by
  have deletes {key : String} {days : RetentionSettings → Magnitude} (is : policy.Is key days)
      (wet : run.dryRun = false) : run.deletes key (days run.settings) cutoff := by
    obtain ⟨rfl, rfl, window⟩ := is
    exact ⟨wet, wanted, at' window⟩
  unfold Policy.perform
  unfold Policy.Known at known
  cases work : policy.work with
  | rows filter => exact guarded_rows sound policy.collection _
  | invalid => exact Keeps.pure trivial
  | exports =>
      simp only [work] at known
      rw [known] at wanted
      exact guarded_exports seen wanted
  | auditLog =>
      simp only [work] at known
      exact guarded_auditLog sound seen (deletes known)
  | analyticsExports =>
      simp only [work] at known
      exact guarded_analyticsExports seen (deletes known)
  | reportArtifacts =>
      simp only [work] at known
      exact guarded_reportArtifacts seen (deletes known)
  | softDeleted =>
      simp only [work] at known
      exact guarded_softDeleted sound seen (deletes known)
  | deletedUsers =>
      simp only [work] at known
      exact guarded_deletedUsers sound seen (deletes known)
  | archivedTenants =>
      simp only [work] at known
      exact guarded_archivedTenants sound seen (deletes known)

theorem guarded_policy (sound : StoreSound db₀) (seen : HoldsSeen run db₀) {policy : Policy}
    (known : policy.Known) (wanted : (run.only.all fun keys => keys.contains policy.key) = true) :
    Guarded run db₀ (runPolicy run (run.start db₀) policy) := by
  unfold runPolicy
  split
  · exact Keeps.pure trivial
  dsimp only
  split
  · exact Keeps.pure trivial
  · rename_i enabled
    split
    · exact Keeps.pure trivial
    · have work : Guarded run db₀ (policy.perform (run.start db₀)
          ((cutoffFor (policy.days run.settings) run.now).getD 0)) := by
        refine guarded_perform sound seen known wanted fun window => ?_
        cases is : cutoffFor (policy.days run.settings) run.now with
        | none => exact absurd ⟨by rw [is]; rfl, window⟩ enabled
        | some cutoff => rfl
      refine work.attempt.bind fun result _ => ?_
      cases result with
      | ok => exact Keeps.pure trivial
      | error => exact Keeps.pure trivial

theorem guarded_policies (sound : StoreSound db₀) (seen : HoldsSeen run db₀) {policies : List Policy}
    (known : ∀ policy ∈ policies, policy.Known) (results : List PolicyResult) :
    Guarded run db₀ (runPolicies run (run.start db₀) policies results) := by
  induction policies generalizing results with
  | nil => exact Keeps.pure trivial
  | cons policy rest ih =>
      have later := ih fun other there => known other (List.mem_cons_of_mem _ there)
      unfold runPolicies
      split
      · rename_i wanted
        exact (guarded_policy sound seen (known policy (List.mem_cons_self ..)) wanted).bind
          fun _ _ => later _
      · exact later _

end Policies

/-- Where nothing on hold lies out of a policy's sight, no run of the policies, however far it gets,
has deleted a document on hold or a file that one refers to. -/
theorem retention_keeps_holds (run : RetentionRun) (db : RetentionDb) (sound : StoreSound db)
    (seen : HoldsSeen run db) :
    (runRetention run).run.Along (HoldsKept (run.held db) db) db := by
  have known : ∀ policy ∈ BUILTIN_POLICIES ++ loadDeclaredPolicies run.declared, policy.Known := by
    intro policy mem
    rcases List.mem_append.mp mem with builtin | declared
    · exact known_builtin policy builtin
    · exact known_declared run.declared policy declared
  have first : Triple (Intact (run.held db) db) (· = db)
      (access id (heldTenants run.settings.legalHoldTenantIds)).run
      fun result s => Intact (run.held db) db s ∧ ∀ held, result = .ok held → held = run.held db := by
    have start := Intact.start (run.held db) db
    have ticked : Intact (run.held db) db (RetentionDb.perform id db) := by
      unfold RetentionDb.perform
      dsimp only [id]
      split <;> exact start.tick _
    refine Triple.update (fun s is => is ▸ start) (fun s is => is ▸ ticked) fun s is => ?_
    subst is
    refine ⟨ticked, fun held found => ?_⟩
    split at found
    · exact (Except.ok.inj found).symm
    · exact nomatch found
  have whole : Triple (Intact (run.held db) db) (· = db) (runRetention run).run
      fun _ s => Intact (run.held db) db s := by
    refine Triple.bind first fun result => ?_
    cases result with
    | error e => exact Triple.done (fun _ h => h.1) fun _ h => h.1
    | ok held =>
        refine fun s h => ?_
        have same : held = run.held db := h.2 held rfl
        subst same
        have kept : Guarded run db (runPolicies run (run.start db) _ [] >>= fun policies =>
            pure ({ dryRun := run.dryRun, legalHoldTenantIds := run.held db, policies } :
              RetentionReport)) :=
          (guarded_policies sound seen known []).bind fun _ _ => Keeps.pure trivial
        exact ⟨(kept s h.1).1, (kept s h.1).2.1⟩
  exact (whole db rfl).1.mono fun _ intact => intact.kept

/-! ## Holds out of sight -/

namespace OutOfSight

def settings : RetentionSettings where
  auditLogDays := .finite 365
  accessLogDays := .finite 30
  loginAttemptDays := .finite 90
  sessionDays := .finite 30
  expiredTokenDays := .finite 1
  notificationDays := .finite 90
  alertEventDays := .finite 180
  analyticsQueryDays := .finite 90
  jobRunDays := .finite 30
  syncRunDays := .finite 30
  outboxDays := .finite 30
  exportDays := .finite 1
  exportRecordDays := .finite 30
  reportArtifactDays := .finite 30
  softDeleteDays := .finite 30
  deletedUserDays := .finite 30
  archivedTenantDays := .finite 365
  batchSize := some 500
  maxBatchesPerRun := some 200
  legalHoldTenantIds := []
  byEnvKey := []

/-- A run of one policy, ten years after the start of time. -/
def runOf (key : String) : RetentionRun where
  server := Server.plain
  now := 315360000000
  dryRun := false
  settings := settings
  only := some [key]
  declared := []

/-- Two rows of the access trace, the first of a tenant on hold. -/
def trace : RetentionDb where
  colls := fun model =>
    if model = "AccessLog" then
      [{ id := ⟨1⟩, tenantId := some (.text "00000000000000000000000b"), dates := [("occurredAt", 0)] },
        { id := ⟨2⟩, tenantId := some (.text "t1"), dates := [("occurredAt", 0)] }]
    else if model = "Tenant" then [{ id := ⟨11⟩, status := some "active", legalHold := true }]
    else []
  files := []
  faults := []

theorem trace_cases {model : String} {d : Document} (mem : d ∈ trace.colls model) :
    (model = "AccessLog" ∨ model = "Tenant") ∧ d.fileKeys = [] ∧ d.id.value < 16 ^ 24 ∧
      (∀ id, d.tenantId ≠ some (.oid id)) ∧ d.status ≠ some "archived" := by
  unfold trace at mem
  dsimp only at mem
  split at mem
  · rename_i access
    simp only [List.mem_cons, List.not_mem_nil, or_false] at mem
    rcases mem with rfl | rfl
    · exact ⟨.inl access, rfl, by decide, fun _ => nofun, by decide⟩
    · exact ⟨.inl access, rfl, by decide, fun _ => nofun, by decide⟩
  · split at mem
    · rename_i tenant
      rw [List.mem_singleton.mp mem]
      exact ⟨.inr tenant, rfl, by decide, fun _ => nofun, by decide⟩
    · exact nomatch mem

theorem trace_sound : StoreSound trace where
  ids := fun model => by
    unfold trace
    dsimp only
    split
    · decide
    · split <;> decide
  bytes := fun model d mem =>
    ⟨(trace_cases mem).2.2.1, fun id is => absurd is ((trace_cases mem).2.2.2.1 id)⟩
  users := fun d mem => (trace_cases mem).1.elim (fun is => absurd is (by decide))
    fun is => absurd is (by decide)

theorem trace_seen (run : RetentionRun) : HoldsSeen run trace where
  audit := fun _ _ d mem => (trace_cases mem).1.elim (fun is => absurd is (by decide))
    fun is => absurd is (by decide)
  grants := fun _ _ user mem => (trace_cases mem).1.elim (fun is => absurd is (by decide))
    fun is => absurd is (by decide)
  rows := fun cutoff _ t mem due => by
    simp only [archivedDue, Bool.and_eq_true, decide_eq_true_eq] at due
    exact absurd due.1.1.1.1 (trace_cases mem).2.2.2.2
  files := fun _ d mem _ key mentioned => by
    rw [(trace_cases mem).2.1] at mentioned
    exact nomatch mentioned

/-- A row of the audit trail, a dashboard of an archived tenant and a role grant on hold; an email on
hold with the file of a report; and the export of a held tenant, whose id is stored as an object id. -/
def store : RetentionDb where
  colls := fun model =>
    ([("AuditLog", [{ id := ⟨1⟩, legalHold := true, dates := [("occurredAt", 0)] }]),
      ("Tenant", [{ id := ⟨10⟩, status := some "archived", dates := [("archivedAt", 0)] },
        { id := ⟨11⟩, status := some "active", legalHold := true }]),
      ("Dashboard", [{ id := ⟨2⟩, tenantId := some (.oid ⟨10⟩), legalHold := true }]),
      ("User", [{ id := ⟨3⟩, tenantId := some (.text "t1"), dates := [("deletedAt", 0)] }]),
      ("UserRole", [{ id := ⟨4⟩, tenantId := some (.text "t1"), legalHold := true
                      userId := some "000000000000000000000003" }]),
      ("Report", [{ id := ⟨5⟩, tenantId := some (.text "t1")
                    runs := [{ id := ⟨6⟩, resultKey := some "reports/t1/a", finishedAt := some 0 }] }]),
      ("OutboundEmail", [{ id := ⟨7⟩, tenantId := some (.text "t1"), legalHold := true
                           attachments := ["reports/t1/a"] }]),
      ("AuditExport", [{ id := ⟨8⟩, tenantId := some (.oid ⟨11⟩), status := some "completed"
                         exportId := some "e1", storageKey := some "exports/b"
                         dates := [("expiresAt", 0)] }])].lookup model : Option (List Document)).getD []
  files := ["reports/t1/a", "exports/b"]
  faults := []

/-- The store that a run of one policy leaves. -/
def after (key : String) : RetentionDb := ((runRetention (runOf key)).run.run store).2

theorem not_along {key : String} (lost : ¬ HoldsKept ((runOf key).held store) store (after key)) :
    ¬ (runRetention (runOf key)).run.Along (HoldsKept ((runOf key).held store) store) store :=
  fun along => lost along.last

theorem lost_row {key model : String} (gone : ∃ d ∈ store.colls model, d.legalHold = true ∧
    ((after key).colls model).all (fun d' => d'.id ≠ d.id) = true) :
    ¬ HoldsKept ((runOf key).held store) store (after key) := by
  intro kept
  obtain ⟨d, mem, hold, none'⟩ := gone
  obtain ⟨⟨d', mem', same⟩, -⟩ := kept model d mem (.inl hold)
  exact of_decide_eq_true (List.all_eq_true.mp none' d' mem') same

theorem lost_file {key model : String} (gone : ∃ d ∈ store.colls model,
    (d.legalHold || tenantOwned model && d.inTenants ((runOf key).held store)) = true ∧
      ∃ file ∈ d.fileKeys, file ∈ store.files ∧ file ∉ (after key).files) :
    ¬ HoldsKept ((runOf key).held store) store (after key) := by
  intro kept
  obtain ⟨d, mem, hold, file, mentioned, stored, missing⟩ := gone
  refine missing ((kept model d mem ?_).2 file mentioned stored)
  simpa [Held] using hold

end OutOfSight

open OutOfSight in
/-- A run deletes the row of another tenant only. -/
theorem retention_keeps_holds_trace :
    (runRetention (runOf "accessLogs")).run.Along
      (HoldsKept ((runOf "accessLogs").held trace) trace) trace ∧
    (((runRetention (runOf "accessLogs")).run.run trace).2.colls "AccessLog").map Document.id =
      [⟨1⟩] :=
  ⟨retention_keeps_holds (runOf "accessLogs") trace trace_sound (trace_seen _), by decide +kernel⟩

open OutOfSight in
/-- Five policies each lose something that is on hold. -/
theorem retention_loses_holds :
    ["auditLogs", "deletedUsers", "archivedTenants", "reportArtifacts", "exportArtifacts"].Forall
      fun key =>
        ¬ (runRetention (runOf key)).run.Along (HoldsKept ((runOf key).held store) store) store := by
  refine List.forall_iff_forall_mem.mpr fun key mem => ?_
  refine not_along ?_
  simp only [List.mem_cons, List.not_mem_nil, or_false] at mem
  rcases mem with rfl | rfl | rfl | rfl | rfl
  · exact @lost_row _ "AuditLog" (by decide +kernel)
  · exact @lost_row _ "UserRole" (by decide +kernel)
  · exact @lost_row _ "Dashboard" (by decide +kernel)
  · exact @lost_file _ "OutboundEmail" (by decide +kernel)
  · exact @lost_file _ "AuditExport" (by decide +kernel)

end AnalyticsBackend.Retention
