import AnalyticsBackend.Tenancy.DeletionRecords

/-!
# What a purge takes away

No step of a deletion or of the lifecycle adds a document, so what was counted as gone stays gone.
The permissions of a role are found through the role: the registry clears them first, so that a role
that is gone has left no permission behind.
-/

namespace AnalyticsBackend.Tenancy
open Lib Collection System

variable {settings : DeletionSettings} {tenantId : String}

/-! ## Documents over a run -/

/-- A document as it was, but for the lifecycle of a workspace and for workspaces that it is no
longer rolled out to. -/
structure CameFrom (d d₀ : Document) : Prop where
  id : d.id = d₀.id
  tenantId : d.tenantId = d₀.tenantId
  tenantObjectId : d.tenantObjectId = d₀.tenantObjectId
  roleId : d.roleId = d₀.roleId
  subjectId : d.subjectId = d₀.subjectId
  rollout : d.rolloutTenantIds ⊆ d₀.rolloutTenantIds

theorem CameFrom.refl (d : Document) : CameFrom d d := ⟨rfl, rfl, rfl, rfl, rfl, List.Subset.refl _⟩

/-- Nothing is added. -/
structure Shrinks (db db' : DeletionDb) : Prop where
  docs : ∀ m, ∀ d ∈ db'.docs m, ∃ d₀ ∈ db.docs m, CameFrom d d₀
  files : db'.files ⊆ db.files

theorem Shrinks.of_same {db db' : DeletionDb} (docs : db'.docs = db.docs) (files : db'.files = db.files) :
    Shrinks db db' :=
  ⟨fun m d mem => ⟨d, docs ▸ mem, .refl d⟩, by rw [files]; exact List.Subset.refl _⟩

/-- A change of one collection that adds nothing to it. -/
theorem Shrinks.of_update {db : DeletionDb} {model : Model} {docs : List Document}
    (came : ∀ d ∈ docs, ∃ d₀ ∈ db.docs model, CameFrom d d₀) :
    Shrinks db { db with docs := Function.update db.docs model docs } := by
  refine ⟨fun m d mem => ?_, List.Subset.refl _⟩
  by_cases same : m = model
  · subst same
    simp only [Function.update_self] at mem
    exact came d mem
  · simp only [Function.update_of_ne same] at mem
    exact ⟨d, mem, .refl d⟩

theorem write_came (w : TenantWrite) (d : Document) : CameFrom (w.set d) d := by
  cases w <;> exact ⟨rfl, rfl, rfl, rfl, rfl, List.Subset.refl _⟩

theorem act_shrinks {label : DeletionLabel} (proper : label.Proper) (db : DeletionDb) :
    Shrinks db (label.act settings tenantId db) := by
  cases label with
  | look | create | cancel | claim | markPurged | markFailed => exact .of_same rfl rfl
  | lifecycle w =>
      refine .of_update fun d mem => ?_
      rcases of_mem_updateFirst mem with was | ⟨d₀, was, -, rfl⟩
      · exact ⟨d, was, .refl d⟩
      · exact ⟨d₀, was, write_came w d₀⟩
  | remove deletion model which =>
      exact .of_update fun d mem => ⟨d, List.mem_of_mem_filter mem, .refl d⟩
  | rewrite deletion model which update =>
      refine .of_update fun d mem => ?_
      obtain ⟨d₀, was, rfl⟩ := List.mem_map.mp mem
      refine ⟨d₀, was, ?_⟩
      split
      · obtain ⟨kept, fewer, is⟩ := proper d₀
        rw [is]
        exact ⟨rfl, rfl, rfl, rfl, rfl, fewer⟩
      · exact .refl d₀
  | removeFile deletion key =>
      exact ⟨fun m d mem => ⟨d, mem, .refl d⟩, List.filter_subset_self ..⟩

/-! ## The registry -/

/-- What the purge relies on in an entry: it does not match what it did not match before, and only
role permissions and compliance evidence are found through ids that are collected. -/
structure Regular (entry : PurgeEntry) : Prop where
  mono : ∀ ctx d d₀, CameFrom d d₀ → entry.filter ctx d = true → entry.filter ctx d₀ = true
  detach : ∀ update, entry.mode = .detach update → ∀ ctx d, ∃ kept ⊆ d.rolloutTenantIds,
    update ctx d = { d with rolloutTenantIds := kept }
  role : entry.model = .role → entry.filter = byTenant
  rolePermission : entry.model = .rolePermission → entry.mode = .delete ∧
    ∀ ctx d, entry.filter ctx d = d.roleId.any ctx.roleIds.contains
  evidence : entry.model = .complianceLog → ∀ config, entry.keeps config = true
  direct : entry.model ≠ .rolePermission → entry.model ≠ .complianceLog → ∀ ctx ctx' d,
    ctx.tenantId = ctx'.tenantId → entry.filter ctx d = entry.filter ctx' d

theorem byTenant_mono (ctx : PurgeContext) (d d₀ : Document) (came : CameFrom d d₀)
    (is : byTenant ctx d = true) : byTenant ctx d₀ = true := by
  simpa [byTenant, came.tenantId] using is

theorem byTenant_direct (ctx ctx' : PurgeContext) (d : Document)
    (same : ctx.tenantId = ctx'.tenantId) : byTenant ctx d = byTenant ctx' d := by
  rw [byTenant, byTenant, same]

theorem regular_deleteByTenant {model : Model} (other : model ≠ .rolePermission)
    (other' : model ≠ .complianceLog) : Regular (deleteByTenant model) where
  mono := byTenant_mono
  detach := fun _ is => nomatch is
  role := fun _ => rfl
  rolePermission := fun is => absurd is other
  evidence := fun is => absurd is other'
  direct := fun _ _ => byTenant_direct

theorem regular_retain {model : Model} {keep : PurgeConfig → Bool}
    {filter : PurgeContext → Document → Bool} (other : model ≠ .rolePermission)
    (other' : model ≠ .complianceLog) (other'' : model ≠ .role)
    (mono : ∀ ctx d d₀, CameFrom d d₀ → filter ctx d = true → filter ctx d₀ = true)
    (direct : ∀ ctx ctx' d, ctx.tenantId = ctx'.tenantId → filter ctx d = filter ctx' d) :
    Regular { model, mode := .retain keep, filter } where
  mono := mono
  detach := fun _ is => nomatch is
  role := fun is => absurd is other''
  rolePermission := fun is => absurd is other
  evidence := fun is => absurd is other'
  direct := fun _ _ => direct

theorem regular_registry : ∀ entry ∈ purgeRegistry, Regular entry := by
  unfold purgeRegistry
  repeat refine List.forall_mem_cons.mpr ⟨regular_deleteByTenant (by decide) (by decide), ?_⟩
  refine List.forall_mem_cons.mpr ⟨?_, ?_⟩
  · exact
      { mono := fun ctx d d₀ came is => by simpa only [came.roleId] using is
        detach := fun _ is => nomatch is
        role := fun is => nomatch is
        rolePermission := fun _ => ⟨rfl, fun _ _ => rfl⟩
        evidence := fun is => nomatch is
        direct := fun is => absurd rfl is }
  repeat refine List.forall_mem_cons.mpr ⟨regular_deleteByTenant (by decide) (by decide), ?_⟩
  refine List.forall_mem_cons.mpr ⟨?_, ?_⟩
  · exact
      { mono := fun ctx d d₀ came is => by
          simp only [List.contains_iff_mem] at is ⊢
          exact came.rollout is
        detach := fun update is ctx d => by
          obtain rfl := PurgeMode.detach.inj is
          exact ⟨_, List.filter_subset_self .., rfl⟩
        role := fun is => nomatch is
        rolePermission := fun is => nomatch is
        evidence := fun is => nomatch is
        direct := fun _ _ ctx ctx' d same => by dsimp only; rw [same] }
  refine List.forall_mem_cons.mpr ⟨?_, ?_⟩
  · exact
      { mono := fun ctx d d₀ came is => by simpa only [came.id] using is
        detach := fun _ is => nomatch is
        role := fun is => nomatch is
        rolePermission := fun is => nomatch is
        evidence := fun is => nomatch is
        direct := fun _ _ ctx ctx' d same => by dsimp only; rw [same] }
  refine List.forall_mem_cons.mpr ⟨regular_retain (by decide) (by decide) (by decide) byTenant_mono
    byTenant_direct, ?_⟩
  refine List.forall_mem_cons.mpr ⟨regular_retain (by decide) (by decide) (by decide) byTenant_mono
    byTenant_direct, ?_⟩
  refine List.forall_mem_cons.mpr ⟨?_, ?_⟩
  · exact
      { mono := fun ctx d d₀ came is => by simpa only [came.subjectId] using is
        detach := fun _ is => nomatch is
        role := fun is => nomatch is
        rolePermission := fun is => nomatch is
        evidence := fun _ _ => rfl
        direct := fun _ is => absurd rfl is }
  refine List.forall_mem_cons.mpr ⟨regular_retain (by decide) (by decide) (by decide) byTenant_mono
    byTenant_direct, ?_⟩
  refine List.forall_mem_cons.mpr ⟨regular_retain (by decide) (by decide) (by decide) byTenant_mono
    byTenant_direct, ?_⟩
  refine List.forall_mem_cons.mpr ⟨regular_retain (by decide) (by decide) (by decide) ?_ ?_, ?_⟩
  · exact fun ctx d d₀ came is => by simpa [came.tenantObjectId] using is
  · exact fun ctx ctx' d same => by rw [same]
  refine List.forall_mem_cons.mpr ⟨?_, ?_⟩
  · exact
      { mono := fun ctx d d₀ came is => by simpa only [came.id] using is
        detach := fun _ is => nomatch is
        role := fun is => nomatch is
        rolePermission := fun is => nomatch is
        evidence := fun is => nomatch is
        direct := fun _ _ ctx ctx' d same => by dsimp only; rw [same] }
  exact fun _ mem => nomatch mem

def rolesAfterPermissions : Bool → List PurgeEntry → Bool
  | _, [] => true
  | cleared, entry :: rest => (entry.model ≠ .role || cleared) &&
      rolesAfterPermissions (cleared || entry.model = .rolePermission) rest

theorem registry_order : rolesAfterPermissions false purgeRegistry = true := by decide

/-! ## Roles and their permissions -/

/-- The ids of the roles of the workspace. -/
def roleIdsOf (tenantId : String) (db : DeletionDb) : List String :=
  ((db.docs .role).filter (·.tenantId = some tenantId)).map Document.id

def contextOf (tenantId : String) (db : DeletionDb) : PurgeContext where
  tenantId := tenantId
  userIds := ((db.docs .user).filter (·.tenantId = some tenantId)).map Document.id
  roleIds := roleIdsOf tenantId db

/-- What permissions there are of the roles of `s₀` are of roles that are still there. -/
def RolesKept (tenantId : String) (s₀ db : DeletionDb) : Prop :=
  ∀ d ∈ db.docs .rolePermission, ∀ id ∈ roleIdsOf tenantId s₀, d.roleId = some id →
    id ∈ roleIdsOf tenantId db

def RolesFree (tenantId : String) (db : DeletionDb) : Prop :=
  ∀ d ∈ db.docs .rolePermission, ∀ id ∈ roleIdsOf tenantId db, d.roleId ≠ some id

theorem Shrinks.roleIds {db db' : DeletionDb} (shrinks : Shrinks db db') :
    roleIdsOf tenantId db' ⊆ roleIdsOf tenantId db := by
  intro id mem
  obtain ⟨d, held, rfl⟩ := List.mem_map.mp mem
  obtain ⟨there, own⟩ := List.mem_filter.mp held
  obtain ⟨d₀, there₀, came⟩ := shrinks.docs .role d there
  refine List.mem_map.mpr ⟨d₀, List.mem_filter.mpr ⟨there₀, ?_⟩, came.id.symm⟩
  rw [← came.tenantId]
  exact own

theorem RolesFree.shrink {db db' : DeletionDb} (free : RolesFree tenantId db)
    (shrinks : Shrinks db db') : RolesFree tenantId db' := by
  intro d mem id there
  obtain ⟨d₀, mem₀, came⟩ := shrinks.docs .rolePermission d mem
  rw [came.roleId]
  exact free d₀ mem₀ id (shrinks.roleIds there)

theorem RolesKept.shrink {s₀ db db' : DeletionDb} (kept : RolesKept tenantId s₀ db)
    (shrinks : Shrinks db db')
    (roles : roleIdsOf tenantId db ⊆ roleIdsOf tenantId db' ∨ RolesFree tenantId db) :
    RolesKept tenantId s₀ db' := by
  intro d mem id there is
  obtain ⟨d₀, mem₀, came⟩ := shrinks.docs .rolePermission d mem
  rw [came.roleId] at is
  have before := kept d₀ mem₀ id there is
  rcases roles with same | free
  · exact same before
  · exact absurd is (free d₀ mem₀ id before)

theorem roleIds_act {label : DeletionLabel} (proper : label.Proper)
    (other : ∀ deletion which, label ≠ .remove deletion .role which) (db : DeletionDb) :
    roleIdsOf tenantId db ⊆ roleIdsOf tenantId (label.act settings tenantId db) := by
  have same {docs : List Document} {model : Model} (apart : Model.role ≠ model) :
      roleIdsOf tenantId { db with docs := Function.update db.docs model docs } =
        roleIdsOf tenantId db := by
    simp only [roleIdsOf, Function.update_of_ne apart]
  cases label with
  | look | create | cancel | claim | markPurged | markFailed | removeFile =>
      exact List.Subset.refl _
  | lifecycle w =>
      simp only [DeletionLabel.act]
      rw [same (by decide)]
      exact List.Subset.refl _
  | remove deletion model which =>
      have apart : Model.role ≠ model := by
        rintro rfl
        exact other deletion which rfl
      simp only [DeletionLabel.act]
      rw [same apart]
      exact List.Subset.refl _
  | rewrite deletion model which update =>
      simp only [DeletionLabel.act]
      by_cases apart : Model.role = model
      · subst apart
        intro id mem
        obtain ⟨d, held, rfl⟩ := List.mem_map.mp mem
        obtain ⟨there, own⟩ := List.mem_filter.mp held
        obtain ⟨kept, -, is⟩ := proper d
        refine List.mem_map.mpr ⟨if which d then update d else d, List.mem_filter.mpr ⟨?_, ?_⟩, ?_⟩
        · simp only [Function.update_self]
          exact List.mem_map.mpr ⟨d, there, rfl⟩
        · split
          · rw [is]
            exact own
          · exact own
        · split
          · rw [is]
          · rfl
      · rw [same apart]
        exact List.Subset.refl _

/-! ## The purged workspace -/

/-- Nothing of the workspace as it was at `s₀` is left, but what the registry retains. -/
structure Cleared (settings : DeletionSettings) (tenantId : String) (s₀ db : DeletionDb) : Prop where
  docs : ∀ entry ∈ purgeRegistry, entry.keeps settings.config = false →
    ∀ d ∈ db.docs entry.model, entry.filter (contextOf tenantId s₀) d = false
  files : ∀ pre ∈ storagePrefixes tenantId, ∀ key ∈ db.files, ¬ pre.toList <+: key.toList

def Counted (settings : DeletionSettings) (ctx : PurgeContext) (entries : List PurgeEntry)
    (db : DeletionDb) : Prop :=
  ∀ entry ∈ entries, entry.keeps settings.config = false →
    ∀ d ∈ db.docs entry.model, entry.filter ctx d = false

/-- No file has one of the prefixes. -/
def FilesGone (pres : List String) (db : DeletionDb) : Prop :=
  ∀ pre ∈ pres, ∀ key ∈ db.files, ¬ pre.toList <+: key.toList

theorem Counted.shrink {ctx : PurgeContext} {entries : List PurgeEntry} {db db' : DeletionDb}
    (counted : Counted settings ctx entries db) (regular : ∀ entry ∈ entries, Regular entry)
    (shrinks : Shrinks db db') : Counted settings ctx entries db' := by
  intro entry mem kept d there
  obtain ⟨d₀, there₀, came⟩ := shrinks.docs entry.model d there
  have none := counted entry mem kept d₀ there₀
  by_contra found
  have := (regular entry mem).mono ctx d d₀ came (by simpa using found)
  exact absurd (none.symm.trans this) (by decide)

theorem FilesGone.shrink {pres : List String} {db db' : DeletionDb} (gone : FilesGone pres db)
    (shrinks : Shrinks db db') : FilesGone pres db' :=
  fun pre mem key there => gone pre mem key (shrinks.files there)

theorem Cleared.shrink {s₀ db db' : DeletionDb} (cleared : Cleared settings tenantId s₀ db)
    (shrinks : Shrinks db db') : Cleared settings tenantId s₀ db' where
  docs := Counted.shrink cleared.docs regular_registry shrinks
  files := FilesGone.shrink cleared.files shrinks

theorem Cleared.gone {s₀ db : DeletionDb} (cleared : Cleared settings tenantId s₀ db) :
    ∀ d ∈ db.docs .tenant, d.id ≠ tenantId := by
  intro d mem same
  have last : (⟨.tenant, .delete, fun ctx d => d.id = ctx.tenantId⟩ : PurgeEntry) ∈
      purgeRegistry := List.mem_of_getLast? rfl
  have unmatched := cleared.docs _ last rfl d mem
  simp only [contextOf] at unmatched
  exact of_decide_eq_false unmatched same

theorem cleared_of_counted {s₀ db : DeletionDb} {ctx : PurgeContext}
    (own : ctx.tenantId = tenantId) (kept : RolesKept tenantId s₀ db)
    (counted : Counted settings ctx purgeRegistry db)
    (files : FilesGone (storagePrefixes tenantId) db) : Cleared settings tenantId s₀ db := by
  refine ⟨fun entry mem deleted d there => ?_, files⟩
  have regular := regular_registry entry mem
  by_cases joins : entry.model = .rolePermission
  · rw [(regular.rolePermission joins).2]
    by_contra found
    -- The role of the permission is still there, but no role is.
    obtain ⟨id, is, held⟩ := Option.any_eq_true .. |>.mp (by simpa using found)
    have role := kept d (joins ▸ there) id (List.contains_iff_mem.mp held) is
    obtain ⟨r, mem, rfl⟩ := List.mem_map.mp role
    obtain ⟨thereRole, ownRole⟩ := List.mem_filter.mp mem
    have entryMem : deleteByTenant .role ∈ purgeRegistry := by simp [purgeRegistry]
    have none := counted _ entryMem rfl r thereRole
    have both : byTenant ctx r = true := by
      rw [byTenant, own]
      exact ownRole
    exact absurd (none.symm.trans both) (by decide)
  · by_cases evidence : entry.model = .complianceLog
    · exact absurd ((regular.evidence evidence settings.config).symm.trans deleted) (by decide)
    · rw [regular.direct joins evidence (contextOf tenantId s₀) ctx d own.symm]
      exact counted entry mem deleted d there

end AnalyticsBackend.Tenancy
