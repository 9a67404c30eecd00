import AnalyticsBackend.Platform.AdminService
import AnalyticsBackend.Lib.Result

/-!
# The last super admin

`changeSuperSafely` takes a super admin away, counts, and puts it back when none is left. While
it is in flight the platform may be without an active super admin, but then some change that
took one away is still open and its undo will bring one back. The plain writes of `update` and
`suspend` have no such second look: they are chosen by an earlier read, and can hit an admin
that has become the last active super admin since.
-/

namespace AnalyticsBackend.Platform
open Lib System

abbrev AdminEvent := Event Nat AdminLabel AdminDb
abbrev AdminWorld := World Nat AdminLabel AdminDb

/-- The operations of the claim's runs, with their arguments. -/
inductive AdminCall where
  | update (id : String) (patch : AdminPatch) (actor : Option String)
  | suspend (id : String) (actor : Option String)
  | restore (id : String) (actor : Option String)
  | create (req : NewAdmin) (actor : Option String)
  | invite (req : NewAdmin) (actor : Option String)
  | revokeRole (adminId roleId : String) (tenantId actor : Option String)
  deriving DecidableEq, Repr

/-- An operation, with its value forgotten. -/
def AdminCall.program : AdminCall → AdminProg (Except ApiError Unit)
  | .update id patch actor => (Platform.update id patch actor).andThen fun _ => pure (.ok ())
  | .suspend id actor => (Platform.suspend id actor).andThen fun _ => pure (.ok ())
  | .restore id actor => (Platform.restore id actor).andThen fun _ => pure (.ok ())
  | .create req actor => (Platform.create req actor).andThen fun _ => pure (.ok ())
  | .invite req actor => (Platform.invite req actor).andThen fun _ => pure (.ok ())
  | .revokeRole adminId roleId tenantId actor =>
      (Platform.revokeRole adminId roleId tenantId actor).andThen fun _ => pure (.ok ())

/-- There is an active super admin. -/
def AdminDb.HasSuper (db : AdminDb) : Prop := ∃ a ∈ db.admins, a.activeSuper = true

/-- The set takes a super admin away: it lowers the type or ends the active status. -/
def AdminSet.takes (set : AdminSet) : Bool :=
  set.adminType.any (· ≠ .super) || set.status.any (· ≠ .active)

/-- A plain write that can take a super admin away lands only while another admin is an active
super admin. -/
def PlainWritesSpareLast : AdminLabel → AdminDb → AdminDb → Prop
  | .patch id set, db, _ =>
      set.takes = true → ∃ a ∈ db.admins, a.activeSuper = true ∧ a.id ≠ id
  | _, _, _ => True

/-- From outside, admins may sign in, accept or lose invitations and change in any way that
keeps the type, the status and the deletion mark of an admin who is not pending; roles, grants
and tenants change at will. -/
def AdminEnv (db db' : AdminDb) : Prop :=
  ∀ a ∈ db.admins, a.status ≠ .pending → ∃ a' ∈ db'.admins, a'.id = a.id ∧
    a'.adminType = a.adminType ∧ a'.status = a.status ∧ a'.deletedAt = a.deletedAt

/-- Any number of operations, with the steps that a run may take. -/
def adminSystem (ok : AdminLabel → AdminDb → AdminDb → Prop) :
    System Nat AdminLabel AdminDb (Except ApiError Unit) where
  start _ p := ∃ call : AdminCall, p = call.program
  env := AdminEnv
  ok

/-- The guarded change that a process has written and neither found safe nor undone. -/
def openChange : List AdminEvent → Option (String × AdminSet)
  | [] => none
  | e :: earlier =>
      match e.label with
      | .demote id set =>
          if (e.before.findWhere id Admin.activeSuper).isSome then some (id, set)
          else openChange earlier
      | .recount => if e.before.countActiveSupers < 1 then openChange earlier else none
      | .undo _ _ _ => none
      | _ => openChange earlier

def AdminSet.OneSided (set : AdminSet) : Prop :=
  set.status = none ∨ set.adminType = none ∧ set.status = some .suspended

/-- The undo of `set` would make `a` an active super admin. -/
structure Recovers (set : AdminSet) (a : Admin) : Prop where
  live : a.deletedAt = none
  written : set.written a = true
  adminType : set.adminType = none → a.adminType = .super
  status : set.status = none → a.status = .active

/-- The undo of a change would make an active super admin. -/
def Recoverable (db : AdminDb) (id : String) (set : AdminSet) : Prop :=
  set.OneSided ∧ ∃ a ∈ db.admins, a.id = id ∧ Recovers set a

def SuperKept (w : AdminWorld) : Prop :=
  w.store.HasSuper ∨
    ∃ i id set, openChange (w.own i) = some (id, set) ∧ Recoverable w.store id set

/-! ## Raising rows -/

/-- `b` is `a` with, at most, its type raised to super or its status set to active. -/
structure Raised (a b : Admin) : Prop where
  id : b.id = a.id
  deletedAt : b.deletedAt = a.deletedAt
  adminType : b.adminType = a.adminType ∨ b.adminType = .super
  status : b.status = a.status ∨ b.status = .active

def Raises (db db' : AdminDb) : Prop :=
  ∀ a ∈ db.admins, a.status ≠ .pending → ∃ b ∈ db'.admins, Raised a b

theorem Raised.refl (a : Admin) : Raised a a := ⟨rfl, rfl, .inl rfl, .inl rfl⟩

theorem Raises.of_admins {db db' : AdminDb} (same : ∀ a ∈ db.admins, a ∈ db'.admins) :
    Raises db db' :=
  fun a mem _ => ⟨a, same a mem, Raised.refl a⟩

theorem Raises.of_env {db db' : AdminDb} (may : AdminEnv db db') : Raises db db' := by
  intro a mem known
  obtain ⟨b, mem', id, adminType, status, deletedAt⟩ := may a mem known
  exact ⟨b, mem', id, deletedAt, .inl adminType, .inl status⟩

theorem activeSuper_iff {a : Admin} :
    a.activeSuper = true ↔ a.deletedAt = none ∧ a.adminType = .super ∧ a.status = .active := by
  simp [Admin.activeSuper, Admin.live, and_assoc]

theorem Raised.activeSuper {a b : Admin} (raised : Raised a b) (h : a.activeSuper = true) :
    b.activeSuper = true := by
  rw [activeSuper_iff] at h ⊢
  obtain ⟨live, type, status⟩ := h
  refine ⟨raised.deletedAt.trans live, ?_, ?_⟩
  · rcases raised.adminType with same | up
    · exact same.trans type
    · exact up
  · rcases raised.status with same | up
    · exact same.trans status
    · exact up

theorem written_iff {set : AdminSet} {a : Admin} : set.written a = true ↔
    (∀ t ∈ set.adminType, t = a.adminType) ∧ ∀ s ∈ set.status, s = a.status := by
  simp [AdminSet.written, Option.all_eq_true]

/-- Raising a row that an undo would bring back either brings it back or leaves it so. -/
theorem Recovers.raised {set : AdminSet} {a b : Admin} (recovers : Recovers set a)
    (oneSided : set.OneSided) (raised : Raised a b) :
    b.activeSuper = true ∨ Recovers set b := by
  have live : b.deletedAt = none := raised.deletedAt.trans recovers.live
  obtain ⟨types, statuses⟩ := written_iff.mp recovers.written
  rcases oneSided with noStatus | ⟨noType, -⟩
  · have active : b.status = .active := by
      rcases raised.status with same | up
      · exact same.trans (recovers.status noStatus)
      · exact up
    rcases raised.adminType with same | up
    · right
      refine ⟨live, written_iff.mpr ⟨fun t mem => (types t mem).trans same.symm, ?_⟩,
        fun none => same.trans (recovers.adminType none), fun _ => active⟩
      rw [noStatus]
      exact fun s mem => nomatch mem
    · exact .inl (activeSuper_iff.mpr ⟨live, up, active⟩)
  · have super : b.adminType = .super := by
      rcases raised.adminType with same | up
      · exact same.trans (recovers.adminType noType)
      · exact up
    rcases raised.status with same | up
    · right
      refine ⟨live, written_iff.mpr ⟨?_, fun s mem => (statuses s mem).trans same.symm⟩,
        fun _ => super, fun none => same.trans (recovers.status none)⟩
      rw [noType]
      exact fun t mem => nomatch mem
    · exact .inl (activeSuper_iff.mpr ⟨live, super, up⟩)

theorem AdminDb.HasSuper.raises {db db' : AdminDb} (raises : Raises db db') (has : db.HasSuper) :
    db'.HasSuper := by
  obtain ⟨a, mem, active⟩ := has
  have known : a.status ≠ .pending := by
    rw [(activeSuper_iff.mp active).2.2]
    decide
  obtain ⟨b, mem', raised⟩ := raises a mem known
  exact ⟨b, mem', raised.activeSuper active⟩

theorem Recoverable.raises {db db' : AdminDb} {id : String} {set : AdminSet}
    (raises : Raises db db') (recoverable : Recoverable db id set) :
    db'.HasSuper ∨ Recoverable db' id set := by
  obtain ⟨oneSided, a, mem, named, recovers⟩ := recoverable
  have known : a.status ≠ .pending := by
    obtain ⟨-, statuses⟩ := written_iff.mp recovers.written
    rcases oneSided with noStatus | ⟨-, suspends⟩
    · rw [recovers.status noStatus]
      decide
    · rw [← statuses .suspended suspends]
      decide
  obtain ⟨b, mem', raised⟩ := raises a mem known
  rcases recovers.raised oneSided raised with active | still
  · exact .inl ⟨b, mem', active⟩
  · exact .inr ⟨oneSided, b, mem', raised.id.trans named, still⟩

/-! ## Updates -/

theorem mem_updateWhere {db : AdminDb} {id : String} {expect : Admin → Bool} {set : AdminSet}
    {a : Admin} (mem : a ∈ db.admins) :
    (if a.id = id && a.live && expect a then set.apply a else a) ∈
      (db.updateWhere id expect set).admins :=
  List.mem_map_of_mem mem

theorem raised_apply {set : AdminSet} (a : Admin) (spares : set.takes = false) :
    Raised a (set.apply a) := by
  simp only [AdminSet.takes, Bool.or_eq_false_iff, Option.any_eq_false] at spares
  refine ⟨rfl, rfl, ?_, ?_⟩
  · cases type : set.adminType with
    | none => left; simp [AdminSet.apply, type]
    | some t =>
        right
        simp_all [AdminSet.apply]
  · cases status : set.status with
    | none => left; simp [AdminSet.apply, status]
    | some s =>
        right
        simp_all [AdminSet.apply]

theorem raises_updateWhere {db : AdminDb} {id : String} {expect : Admin → Bool} {set : AdminSet}
    (spares : set.takes = false) : Raises db (db.updateWhere id expect set) := by
  intro a mem _
  refine ⟨_, mem_updateWhere mem, ?_⟩
  split
  · exact raised_apply a spares
  · exact Raised.refl a

theorem hasSuper_other {db : AdminDb} {id : String} {expect : Admin → Bool} {set : AdminSet}
    {a : Admin} (mem : a ∈ db.admins) (active : a.activeSuper = true) (other : a.id ≠ id) :
    (db.updateWhere id expect set).HasSuper := by
  refine ⟨a, ?_, active⟩
  have kept : _ ∈ (db.updateWhere id expect set).admins := mem_updateWhere mem
  simpa [other] using kept

/-- A guarded change that lands can be undone. -/
theorem recoverable_demoted {db : AdminDb} {id : String} {set : AdminSet} {found : Admin}
    (hit : db.findWhere id Admin.activeSuper = some found) (oneSided : set.OneSided) :
    Recoverable (db.updateWhere id Admin.activeSuper set) id set := by
  have matched := List.find?_some hit
  have mem : found ∈ db.admins := List.mem_of_find?_eq_some hit
  simp only [Bool.and_eq_true, decide_eq_true_eq] at matched
  obtain ⟨⟨named, live⟩, active⟩ := matched
  have changed : _ ∈ (db.updateWhere id Admin.activeSuper set).admins := mem_updateWhere mem
  rw [if_pos (by simp [named, live, active])] at changed
  obtain ⟨deleted, type, status⟩ := activeSuper_iff.mp active
  refine ⟨oneSided, _, changed, named, deleted, written_iff.mpr ⟨?_, ?_⟩, ?_, ?_⟩
  · intro t mem
    simp [AdminSet.apply, Option.mem_def.mp mem]
  · intro s mem
    simp [AdminSet.apply, Option.mem_def.mp mem]
  · intro none
    simp [AdminSet.apply, none, type]
  · intro none
    simp [AdminSet.apply, none, status]

structure PutsBack (set undoing : AdminSet) : Prop where
  adminType : undoing.adminType = set.adminType.map fun _ => .super
  status : undoing.status = set.status.map fun _ => .active

theorem PutsBack.spares {set undoing : AdminSet} (puts : PutsBack set undoing) :
    undoing.takes = false := by
  rw [AdminSet.takes, puts.adminType, puts.status]
  cases set.adminType <;> cases set.status <;> simp

theorem hasSuper_undone {db : AdminDb} {id : String} {set undoing : AdminSet}
    (recoverable : Recoverable db id set) (puts : PutsBack set undoing) :
    (db.updateWhere id set.written undoing).HasSuper := by
  obtain ⟨-, a, mem, named, recovers⟩ := recoverable
  have changed : _ ∈ (db.updateWhere id set.written undoing).admins := mem_updateWhere mem
  rw [if_pos (by simp [named, Admin.live, recovers.live, recovers.written])] at changed
  refine ⟨_, changed, activeSuper_iff.mpr ⟨recovers.live, ?_, ?_⟩⟩
  · cases type : set.adminType with
    | none => simp [AdminSet.apply, puts.adminType, type, recovers.adminType type]
    | some t => simp [AdminSet.apply, puts.adminType, type]
  · cases status : set.status with
    | none => simp [AdminSet.apply, puts.status, status, recovers.status status]
    | some s => simp [AdminSet.apply, puts.status, status]

theorem hasSuper_of_count {db : AdminDb} (counted : ¬ db.countActiveSupers < 1) : db.HasSuper := by
  have positive : 0 < db.admins.countP Admin.activeSuper := by
    unfold AdminDb.countActiveSupers at counted
    omega
  exact List.countP_pos_iff.mp positive

/-! ## The steps -/

/-- The steps that open and close no guarded change. -/
def AdminLabel.quiet : AdminLabel → Bool
  | .demote _ _ | .recount | .undo _ _ _ => false
  | _ => true

theorem openChange_quiet {e : AdminEvent} (quiet : e.label.quiet = true)
    (earlier : List AdminEvent) : openChange (e :: earlier) = openChange earlier := by
  cases label : e.label with
  | demote id set => exact absurd quiet (by simp [label, AdminLabel.quiet])
  | recount => exact absurd quiet (by simp [label, AdminLabel.quiet])
  | undo id set undoing => exact absurd quiet (by simp [label, AdminLabel.quiet])
  | look => rw [openChange, label]
  | patch id set => rw [openChange, label]
  | insert admin => rw [openChange, label]
  | grant row => rw [openChange, label]
  | ungrant adminId roleId tenantId => rw [openChange, label]

theorem SuperKept.raised {w : AdminWorld} {e : AdminEvent} (kept : SuperKept w)
    (raises : Raises w.store e.after)
    (still : ∀ i change, openChange (w.own i) = some change →
      openChange ((w.push e).own i) = some change) : SuperKept (w.push e) := by
  rcases kept with has | ⟨i, id, set, opened, recoverable⟩
  · exact .inl (has.raises raises)
  · rcases recoverable.raises raises with has | recoverable
    · exact .inl has
    · exact .inr ⟨i, id, set, still i _ opened, recoverable⟩

theorem openChange_push_quiet {w : AdminWorld} {e : AdminEvent} (quiet : e.label.quiet = true)
    (i : Nat) : openChange ((w.push e).own i) = openChange (w.own i) := by
  rw [World.own_push]
  split
  · exact openChange_quiet quiet _
  · rfl

theorem SuperKept.quiet {w : AdminWorld} (kept : SuperKept w) (i : Nat) {label : AdminLabel}
    (quiet : label.quiet = true)
    (allowed : PlainWritesSpareLast label w.store (label.act w.store)) :
    SuperKept (w.push ⟨i, label, w.store, label.act w.store⟩) := by
  have still : ∀ j change, openChange (w.own j) = some change →
      openChange ((w.push ⟨i, label, w.store, label.act w.store⟩).own j) = some change := by
    intro j change opened
    rwa [openChange_push_quiet quiet]
  cases label with
  | look => exact kept.raised (Raises.of_admins fun _ mem => mem) still
  | patch id set =>
      cases takes : set.takes with
      | false => exact kept.raised (raises_updateWhere takes) still
      | true =>
          obtain ⟨a, mem, active, other⟩ := allowed takes
          exact .inl (hasSuper_other mem active other)
  | demote id set => exact nomatch quiet
  | recount => exact nomatch quiet
  | undo id set undoing => exact nomatch quiet
  | insert admin =>
      refine kept.raised (Raises.of_admins ?_) still
      intro a mem
      simp only [AdminLabel.act]
      split
      · exact mem
      · exact List.mem_append_left _ mem
  | grant row =>
      refine kept.raised (Raises.of_admins ?_) still
      intro a mem
      simp only [AdminLabel.act]
      split <;> exact mem
  | ungrant adminId roleId tenantId => exact kept.raised (Raises.of_admins fun _ mem => mem) still

theorem SuperKept.demote {w : AdminWorld} (kept : SuperKept w) (i : Nat) {id : String}
    {set : AdminSet} (oneSided : set.OneSided) :
    SuperKept (w.push ⟨i, .demote id set, w.store, (AdminLabel.demote id set).act w.store⟩) := by
  cases hit : w.store.findWhere id Admin.activeSuper with
  | some found =>
      right
      refine ⟨i, id, set, ?_, recoverable_demoted hit oneSided⟩
      rw [World.own_push, if_pos rfl]
      simp [openChange, hit]
  | none =>
      have same : (AdminLabel.demote id set).act w.store = w.store := by
        have untouched : ∀ a ∈ w.store.admins,
            (if a.id = id && a.live && a.activeSuper then set.apply a else a) = a := by
          intro a mem
          rw [if_neg]
          exact List.find?_eq_none.mp hit a mem
        simp only [AdminLabel.act, AdminDb.updateWhere]
        rw [List.map_congr_left untouched, List.map_id']
      refine kept.raised (by rw [same]; exact Raises.of_admins fun _ mem => mem) ?_
      intro j change opened
      rw [World.own_push]
      split
      · simpa [openChange, hit] using opened
      · exact opened

/-- Counting closes an open change only when there is an active super admin. -/
theorem SuperKept.recount {w : AdminWorld} (kept : SuperKept w) (i : Nat) :
    SuperKept (w.push ⟨i, .recount, w.store, w.store⟩) := by
  by_cases none : w.store.countActiveSupers < 1
  · refine kept.raised (Raises.of_admins fun _ mem => mem) ?_
    intro j change opened
    rw [World.own_push]
    split
    · simpa [openChange, none] using opened
    · exact opened
  · exact .inl (hasSuper_of_count none)

theorem SuperKept.undo {w : AdminWorld} (kept : SuperKept w) {i : Nat} {id : String}
    {set undoing : AdminSet} (opened : openChange (w.own i) = some (id, set))
    (puts : PutsBack set undoing) :
    SuperKept (w.push ⟨i, .undo id set undoing, w.store,
      (AdminLabel.undo id set undoing).act w.store⟩) := by
  have raises : Raises w.store (w.store.updateWhere id set.written undoing) :=
    raises_updateWhere puts.spares
  rcases kept with has | ⟨j, id', set', opened', recoverable⟩
  · exact .inl (has.raises raises)
  · by_cases own : i = j
    · subst own
      rw [opened, Option.some.injEq, Prod.mk.injEq] at opened'
      obtain ⟨rfl, rfl⟩ := opened'
      exact .inl (hasSuper_undone recoverable puts)
    · rcases recoverable.raises raises with has | recoverable
      · exact .inl has
      · refine .inr ⟨j, id', set', ?_, recoverable⟩
        rw [World.own_push, if_neg own]
        exact opened'

/-! ## The operations -/

/-- Every step of the program is a quiet one. -/
abbrev Quiet {A : Type} (p : AdminProg A) : Prop :=
  p.Each fun label act => label.quiet = true ∧ act = label.act

section Quiet

variable {A B : Type}

theorem quiet_look (f : AdminDb → A) : Quiet (look f) := ⟨⟨rfl, rfl⟩, fun _ => trivial⟩

theorem quiet_write {label : AdminLabel} (quiet : label.quiet = true) (report : AdminDb → A) :
    Quiet (write label report) :=
  ⟨⟨quiet, rfl⟩, fun _ => trivial⟩

theorem quiet_patchAdmin (id : String) (set : AdminSet) : Quiet (patchAdmin id set) :=
  quiet_write rfl _

theorem quiet_insertAdmin (admin : Admin) : Quiet (insertAdmin admin) := quiet_write rfl _

theorem quiet_requireAdmin (id : String) : Quiet (requireAdmin id) := quiet_look _

theorem quiet_requireActiveSuper (actor : Option String) (message : String) :
    Quiet (requireActiveSuper actor message) := by
  refine (quiet_look _).bind fun found => ?_
  cases found with
  | none => trivial
  | some a => dsimp only; split <;> trivial

theorem quiet_assertMayChangePrivileges (actor targetId : Option String) :
    Quiet (assertMayChangePrivileges actor targetId) := by
  unfold assertMayChangePrivileges
  split
  · trivial
  · split
    · trivial
    · exact quiet_requireActiveSuper _ _

theorem quiet_assertMayManageAdmin (actor : Option String) (target : Admin) :
    Quiet (assertMayManageAdmin actor target) := by
  unfold assertMayManageAdmin
  split
  · trivial
  · split
    · trivial
    · exact quiet_requireActiveSuper _ _

theorem quiet_assertScopeTenantExists (tenantScope : String) (actor : Option String) :
    Quiet (assertScopeTenantExists tenantScope actor) := by
  unfold assertScopeTenantExists
  split
  · trivial
  · refine (quiet_look _).bind fun known => ?_
    cases known <;> trivial

theorem quiet_assertMoreThanOneSuper (message : String) : Quiet (assertMoreThanOneSuper message) := by
  refine (quiet_look _).bind fun count => ?_
  split <;> trivial

theorem quiet_assertNotLastActiveSuper (targetId : String) (desiredAdminType : Option AdminType)
    (desiredStatus : Option AdminStatus) (actor : Option String) :
    Quiet (assertNotLastActiveSuper targetId desiredAdminType desiredStatus actor) := by
  refine (quiet_requireAdmin targetId).andThen fun target => ?_
  have ofActor : ∀ c : Bool, Quiet (if c = true then
      assertMoreThanOneSuper "Refusing to demote the last active super administrator"
      else pure (.ok ())) := by
    intro c
    split
    · exact quiet_assertMoreThanOneSuper _
    · trivial
  dsimp only
  split
  · split
    · trivial
    · exact (quiet_assertMoreThanOneSuper _).andThen fun _ => ofActor _
  · exact ofActor _

theorem quiet_countActiveSupersHoldingRoles (roleIds : List String) :
    Quiet (countActiveSupersHoldingRoles roleIds) := by
  unfold countActiveSupersHoldingRoles
  split
  · trivial
  · refine (quiet_look _).bind fun adminIds => ?_
    split
    · trivial
    · exact quiet_look _

theorem quiet_superAdminRoleIds : Quiet superAdminRoleIds := by
  refine (quiet_look _).bind fun builtIn => ?_
  exact (quiet_look _).bind fun legacy => trivial

theorem quiet_removeGrant (adminId roleId : String) (tenantId : Option String) :
    Quiet (removeGrant adminId roleId tenantId) :=
  quiet_write rfl _

theorem quiet_revokeGrantsAbove (adminType : AdminType) (grants : List AdminRole) :
    Quiet (revokeGrantsAbove adminType grants) := by
  induction grants with
  | nil => trivial
  | cons g rest ih =>
      refine (quiet_look _).bind fun role => ?_
      cases role.bind Role.builtIn with
      | none => exact ih
      | some definition =>
          dsimp only
          split
          · exact (quiet_removeGrant _ _ _).bind fun _ => ih
          · exact ih

theorem quiet_revokeRolesAboveType (adminId : String) (adminType : AdminType) :
    Quiet (revokeRolesAboveType adminId adminType) :=
  (quiet_look _).bind fun grants => quiet_revokeGrantsAbove adminType grants

theorem quiet_guardSuperGrant (adminId roleId : String) : Quiet (guardSuperGrant adminId roleId) := by
  refine quiet_superAdminRoleIds.bind fun superRoleIds => ?_
  refine (quiet_look _).bind fun grants => ?_
  dsimp only
  split
  · refine (quiet_countActiveSupersHoldingRoles _).bind fun holders => ?_
    split <;> trivial
  · trivial

theorem quiet_revokeRole (adminId roleId : String) (tenantId actor : Option String) :
    Quiet (revokeRole adminId roleId tenantId actor) := by
  refine (quiet_requireAdmin adminId).andThen fun admin => ?_
  refine (quiet_look _).bind fun role => ?_
  cases role with
  | none => trivial
  | some role =>
      refine (quiet_assertMayChangePrivileges _ _).andThen fun _ => ?_
      have guard : ∀ c : Bool,
          Quiet (if c = true then guardSuperGrant adminId roleId else pure (.ok none)) := by
        intro c
        split
        · exact quiet_guardSuperGrant _ _
        · trivial
      refine (guard _).andThen fun revokedGrant => ?_
      refine (quiet_removeGrant _ _ _).bind fun removed => ?_
      dsimp only
      split
      · refine quiet_superAdminRoleIds.bind fun superRoleIds => ?_
        refine (quiet_countActiveSupersHoldingRoles _).bind fun holders => ?_
        split
        · exact (quiet_write rfl _).bind fun _ => trivial
        · trivial
      · trivial

theorem quiet_updateGuards (admin : Admin) (set : AdminSet) (actor : Option String) :
    Quiet (updateGuards admin set actor) := by
  refine (quiet_assertMayManageAdmin _ _).andThen fun _ => ?_
  refine (quiet_assertNotLastActiveSuper _ _ _ _).andThen fun _ => ?_
  have privileges : ∀ c : Bool, Quiet (if c = true then
      assertMayChangePrivileges actor (some admin.id) else pure (.ok ())) := by
    intro c
    split
    · exact quiet_assertMayChangePrivileges _ _
    · trivial
  refine (privileges _).andThen fun _ => ?_
  split
  · exact quiet_assertScopeTenantExists _ _
  · trivial

theorem quiet_restore (id : String) (actor : Option String) : Quiet (restore id actor) := by
  refine (quiet_requireAdmin id).andThen fun admin => ?_
  refine (quiet_assertMayManageAdmin _ _).andThen fun _ => ?_
  exact (quiet_patchAdmin _ _).bind fun _ => trivial

theorem quiet_findByEmail (email : String) : Quiet (findByEmail email) := quiet_look _

/-- The last steps of `create` and `invite`: the insert, and its answer. -/
theorem quiet_insertRow (row : Admin) (refused : ApiError) :
    Quiet (show AdminProg (Except ApiError Admin) from do
      let inserted ← insertAdmin row
      if inserted then return .ok row
      return .error refused) := by
  refine (quiet_insertAdmin row).bind fun inserted => ?_
  cases inserted <;> trivial

theorem quiet_create (req : NewAdmin) (actor : Option String) : Quiet (create req actor) := by
  unfold create
  split
  · trivial
  split
  · trivial
  cases AdminType.ofText req.adminType with
  | none => trivial
  | some adminType =>
      dsimp only
      split
      · trivial
      have privileges : ∀ c : Bool, Quiet (if c = true then
          assertMayChangePrivileges actor none else pure (.ok ())) := by
        intro c
        split
        · exact quiet_assertMayChangePrivileges _ _
        · trivial
      refine (privileges _).andThen fun _ => ?_
      have known : Quiet ((orNull req.tenantScope).elim (pure (.ok ())) fun s =>
          assertScopeTenantExists s actor) := by
        cases orNull req.tenantScope with
        | none => trivial
        | some scope => exact quiet_assertScopeTenantExists _ _
      refine known.andThen fun _ => ?_
      refine (quiet_findByEmail _).bind fun found => ?_
      cases found with
      | some other => trivial
      | none => exact quiet_insertRow _ _

theorem quiet_invite (req : NewAdmin) (actor : Option String) : Quiet (invite req actor) := by
  unfold invite
  split
  · trivial
  cases AdminType.ofText req.adminType with
  | none => trivial
  | some adminType =>
      dsimp only
      have privileges : ∀ c : Bool, Quiet (if c = true then
          assertMayChangePrivileges actor none else pure (.ok ())) := by
        intro c
        split
        · exact quiet_assertMayChangePrivileges _ _
        · trivial
      refine (privileges _).andThen fun _ => ?_
      refine (quiet_findByEmail _).bind fun found => ?_
      cases found with
      | some other => dsimp only; split <;> trivial
      | none => exact quiet_insertRow _ _

end Quiet

/-- `Safe` in the runs whose plain writes spare the last super admin. -/
abbrev AdminSafe {A : Type} (i : Nat) (Q : A → AdminWorld → Prop) (p : AdminProg A)
    (P : AdminWorld → Prop) : Prop :=
  Safe AdminEnv PlainWritesSpareLast SuperKept (fun _ => True) i Q p P

section Calls

variable {A B : Type} {i : Nat}

theorem stable_openChange (P : Option (String × AdminSet) → Prop) :
    Stable AdminEnv SuperKept (fun _ => True) i (fun w => P (openChange (w.own i))) :=
  Stable.own i (fun events => P (openChange events))

/-- Process `i` has no guarded change in flight. -/
def NothingOpen (i : Nat) (w : AdminWorld) : Prop := openChange (w.own i) = none

theorem safe_quiet {p : AdminProg A} (quiet : Quiet p) :
    AdminSafe i (fun _ w => NothingOpen i w) p (NothingOpen i) := by
  refine Safe.of_kept (stable_openChange (· = none)) (quiet.mono ?_)
  rintro label act ⟨quiet, rfl⟩ w kept nothing allowed
  refine ⟨kept.quiet i quiet allowed, trivial, ?_⟩
  rw [NothingOpen, openChange_push_quiet quiet]
  exact nothing

theorem safe_changeSuperSafely {target : Admin} {set : AdminSet} {actor : Option String}
    (oneSided : (set.stamped actor).OneSided)
    (puts : PutsBack (set.stamped actor) ((set.undoing target).stamped target.updatedBy)) :
    AdminSafe i (fun _ w => NothingOpen i w) (changeSuperSafely target set actor)
      (NothingOpen i) := by
  -- After the compare-and-set the change is open exactly if it landed.
  refine Safe.bind (R := fun updated w => openChange (w.own i) =
      updated.map fun _ => (target.id, set.stamped actor)) ?_ ?_
  · refine Safe.update (fun updated => stable_openChange (· = updated.map _)) ?_
    intro w kept nothing _
    refine ⟨kept.demote i oneSided, trivial, ?_⟩
    rw [World.own_push, if_pos rfl]
    cases hit : w.store.findWhere target.id Admin.activeSuper with
    | none => simpa [openChange, hit, NothingOpen] using nothing
    | some found => simp [openChange, hit]
  · intro updated
    cases updated with
    | none => exact fun _ _ nothing => nothing
    | some updated =>
        refine Safe.bind (R := fun remaining w => if remaining < 1 then
          openChange (w.own i) = some (target.id, set.stamped actor) else NothingOpen i w) ?_ ?_
        · refine Safe.update ?_ ?_
          · intro remaining
            split
            · exact stable_openChange (· = some _)
            · exact stable_openChange (· = none)
          · intro w kept opened _
            refine ⟨kept.recount i, trivial, ?_⟩
            split
            case isTrue none =>
              rw [World.own_push, if_pos rfl]
              simpa [openChange, none] using opened
            case isFalse some =>
              rw [NothingOpen, World.own_push, if_pos rfl]
              simp only [openChange, some, if_false]
        · intro remaining
          split
          · refine Safe.bind (R := fun _ w => NothingOpen i w) ?_ fun _ _ _ nothing => nothing
            refine Safe.update (fun _ => stable_openChange (· = none)) ?_
            intro w kept opened _
            refine ⟨kept.undo opened puts, trivial, ?_⟩
            rw [NothingOpen, World.own_push, if_pos rfl]
            rfl
          · exact fun _ _ nothing => nothing

@[simp] theorem stamped_adminType (set : AdminSet) (actor : Option String) :
    (set.stamped actor).adminType = set.adminType := by
  unfold AdminSet.stamped
  split
  · split <;> rfl
  · rfl

@[simp] theorem stamped_status (set : AdminSet) (actor : Option String) :
    (set.stamped actor).status = set.status := by
  unfold AdminSet.stamped
  split
  · split <;> rfl
  · rfl

theorem putsBack_undoing {target : Admin} (type : target.adminType = .super)
    (status : target.status = .active) (set : AdminSet) (actor stamp : Option String) :
    PutsBack (set.stamped actor) ((set.undoing target).stamped stamp) := by
  constructor
  · simp [AdminSet.undoing, type]
  · simp [AdminSet.undoing, status]

theorem toSet_status {patch : AdminPatch} {set : AdminSet} (built : patch.toSet = .ok set) :
    set.status = none := by
  simp only [AdminPatch.toSet, bind_eq_ok] at built
  obtain ⟨adminType, -, built⟩ := built
  split at built
  · exact nomatch built
  · rw [Except.ok.injEq] at built
    rw [← built]

theorem safe_writeUpdate (admin : Admin) {set : AdminSet} (noStatus : set.status = none)
    (actor : Option String) :
    AdminSafe i (fun _ w => NothingOpen i w) (writeUpdate admin set actor) (NothingOpen i) := by
  unfold writeUpdate
  split
  case isTrue demotes =>
    simp only [AdminSet.demotes, Bool.and_eq_true, decide_eq_true_eq] at demotes
    refine Safe.andThen (safe_changeSuperSafely (.inl ?_)
      (putsBack_undoing demotes.1.2 demotes.2 _ _ _)) (fun _ _ _ nothing => nothing)
      fun _ _ _ nothing => nothing
    rw [stamped_status, noStatus]
  case isFalse => exact safe_quiet ((quiet_patchAdmin _ _).bind fun _ => trivial)

theorem safe_writeSuspend (admin : Admin) (actor : Option String) :
    AdminSafe i (fun _ w => NothingOpen i w) (writeSuspend admin actor) (NothingOpen i) := by
  unfold writeSuspend
  split
  · exact fun _ _ nothing => nothing
  · split
    case isTrue active =>
      simp only [Bool.and_eq_true, decide_eq_true_eq] at active
      refine Safe.andThen (safe_changeSuperSafely (.inr ⟨?_, ?_⟩)
        (putsBack_undoing active.1 active.2 _ _ _)) (fun _ _ _ nothing => nothing)
        fun _ _ _ nothing => nothing
      · rw [stamped_adminType]
      · rw [stamped_status]
    case isFalse => exact safe_quiet ((quiet_patchAdmin _ _).bind fun _ => trivial)

theorem safe_update (id : String) (patch : AdminPatch) (actor : Option String) :
    AdminSafe i (fun _ w => NothingOpen i w) (update id patch actor) (NothingOpen i) := by
  refine Safe.andThen (safe_quiet (quiet_requireAdmin id)) (fun admin => ?_)
    fun _ _ _ nothing => nothing
  cases built : patch.toSet with
  | error e => exact fun _ _ nothing => nothing
  | ok set =>
      refine Safe.andThen (safe_quiet (quiet_updateGuards admin set actor)) (fun _ => ?_)
        fun _ _ _ nothing => nothing
      refine Safe.andThen (safe_writeUpdate admin (toSet_status built) actor) (fun updated => ?_)
        fun _ _ _ nothing => nothing
      cases set.adminType with
      | none => exact fun _ _ nothing => nothing
      | some adminType =>
          dsimp only
          split
          · exact safe_quiet ((quiet_revokeRolesAboveType id adminType).bind fun _ => trivial)
          · exact fun _ _ nothing => nothing

theorem safe_suspend (id : String) (actor : Option String) :
    AdminSafe i (fun _ w => NothingOpen i w) (suspend id actor) (NothingOpen i) := by
  refine Safe.andThen (safe_quiet (quiet_requireAdmin id)) (fun admin => ?_)
    fun _ _ _ nothing => nothing
  refine Safe.andThen (safe_quiet (quiet_assertMayManageAdmin _ _)) (fun _ => ?_)
    fun _ _ _ nothing => nothing
  refine Safe.andThen (safe_quiet (quiet_assertNotLastActiveSuper _ _ _ _)) (fun _ => ?_)
    fun _ _ _ nothing => nothing
  refine Safe.andThen (safe_writeSuspend admin actor) (fun _ => ?_) fun _ _ _ nothing => nothing
  exact safe_quiet ((quiet_look _).bind fun _ => trivial)

theorem safe_adminCall (call : AdminCall) :
    AdminSafe i (fun _ w => NothingOpen i w) call.program (NothingOpen i) := by
  cases call with
  | update id patch actor =>
      exact Safe.andThen (safe_update id patch actor) (fun _ _ _ nothing => nothing)
        fun _ _ _ nothing => nothing
  | suspend id actor =>
      exact Safe.andThen (safe_suspend id actor) (fun _ _ _ nothing => nothing)
        fun _ _ _ nothing => nothing
  | restore id actor => exact safe_quiet ((quiet_restore id actor).andThen fun _ => trivial)
  | create req actor => exact safe_quiet ((quiet_create req actor).andThen fun _ => trivial)
  | invite req actor => exact safe_quiet ((quiet_invite req actor).andThen fun _ => trivial)
  | revokeRole adminId roleId tenantId actor =>
      exact safe_quiet ((quiet_revokeRole adminId roleId tenantId actor).andThen fun _ => trivial)

end Calls

theorem SuperKept.env {w : AdminWorld} (kept : SuperKept w) {db : AdminDb}
    (may : AdminEnv w.store db) : SuperKept { store := db, trace := w.trace } := by
  rcases kept with has | ⟨i, id, set, opened, recoverable⟩
  · exact .inl (has.raises (Raises.of_env may))
  · rcases recoverable.raises (Raises.of_env may) with has | recoverable
    · exact .inl has
    · exact .inr ⟨i, id, set, opened, recoverable⟩

theorem admin_discipline {db : AdminDb} (initial : db.HasSuper) :
    Discipline (adminSystem PlainWritesSpareLast) SuperKept (fun _ => True)
      (fun i _ w => NothingOpen i w) db := by
  refine ⟨.inl initial, fun w db' kept may => kept.env may, ?_⟩
  rintro i p ⟨call, rfl⟩
  refine ⟨NothingOpen i, stable_openChange (· = none), ?_, safe_adminCall call⟩
  intro w _ unused
  have none_own : w.own i = [] := by simpa [World.own, List.filter_eq_nil_iff] using unused
  simp [NothingOpen, none_own, openChange]

/-- In every run whose plain writes spare the last super admin there is an active super admin
whenever all operations have finished. -/
theorem super_admin_remains (db : AdminDb) (initial : db.HasSuper)
    (c : Config Nat AdminLabel AdminDb (Except ApiError Unit))
    (reach : Reach (adminSystem PlainWritesSpareLast) db c)
    (finished : ∀ i p, c.pool i = some p → ∃ result, p = .done result) :
    c.world.store.HasSuper := by
  have rule := admin_discipline initial
  have held := reach.sound rule
  rcases held.inv with has | ⟨i, id, set, opened, -⟩
  · exact has
  · have nothing : openChange (c.world.own i) = none := by
      cases running : c.pool i with
      | none =>
          have unused := held.unused i running
          have none_own : c.world.own i = [] := by
            simpa [World.own, List.filter_eq_nil_iff] using unused
          rw [none_own, openChange]
      | some p =>
          obtain ⟨result, rfl⟩ := finished i p running
          exact reach.result rule running
    rw [nothing] at opened
    cases opened

/-! ## Runs -/

def bareAdmin (id : String) (adminType : AdminType) (status : AdminStatus) : Admin where
  id
  email := id ++ "@example.com"
  passwordHash := none
  status
  adminType
  tenantScope := none
  profile := {}
  createdBy := none
  updatedBy := none
  deletedAt := none

def barePlatform (admins : List Admin) : AdminDb where
  admins
  roles := []
  grants := []
  tenants := []
  now := 0

def adminS : String := "aaaaaaaaaaaaaaaaaaaaaaaa"
def adminT : String := "bbbbbbbbbbbbbbbbbbbbbbbb"

/-- Two super admins, both suspended at once: each count finds none, and both come back. -/
def crossedSuspensions : List (Move Nat AdminLabel AdminDb (Except ApiError Unit)) :=
  [.start 0 (AdminCall.suspend adminS none).program,
    .start 1 (AdminCall.suspend adminT none).program,
    .act 0, .act 1, .act 0, .act 1, .act 0, .act 1, .act 0, .act 1, .act 0, .act 1,
    .act 0, .act 1]

def twoSupers : AdminDb :=
  barePlatform [bareAdmin adminS .super .active, bareAdmin adminT .super .active]

def crossedRun : Config Nat AdminLabel AdminDb (Except ApiError Unit) :=
  crossedSuspensions.foldl Config.move (.idle twoSupers)

theorem super_admin_remains_crossed : crossedRun.world.store.HasSuper := by
  refine super_admin_remains twoSupers ⟨_, List.mem_cons_self .., by decide⟩ _
    (Reach.moves .init ?_) ?_
  · refine ⟨⟨rfl, _, rfl⟩, ⟨rfl, _, rfl⟩, trivial, trivial, trivial, trivial, trivial, trivial,
      trivial, trivial, trivial, trivial, trivial, trivial, trivial⟩
  · intro i p running
    have named := Config.moves_only running
    simp only [crossedSuspensions, List.filterMap_cons, List.filterMap_nil, Move.process,
      List.mem_cons, List.not_mem_nil, or_false] at named
    have which : i = 0 ∨ i = 1 := by omega
    rcases which with rfl | rfl <;> exact ⟨_, (Option.some.inj running).symm⟩

/-- `T`, a support admin, is being suspended; before the plain write lands, `T` is promoted and
suspends the other super admin. -/
def stalePromotion : List (Move Nat AdminLabel AdminDb (Except ApiError Unit)) :=
  [.start 0 (AdminCall.suspend adminT (some adminS)).program, .act 0, .act 0,
    .start 1 (AdminCall.update adminT { adminType := some "super" } (some adminS)).program,
    .act 1, .act 1, .act 1, .act 1,
    .start 2 (AdminCall.suspend adminS (some adminT)).program,
    .act 2, .act 2, .act 2, .act 2, .act 2, .act 2, .act 2, .act 0, .act 0]

def superAndSupport : AdminDb :=
  barePlatform [bareAdmin adminS .super .active, bareAdmin adminT .support .active]

def promotionRun : Config Nat AdminLabel AdminDb (Except ApiError Unit) :=
  stalePromotion.foldl Config.move (.idle superAndSupport)

/-- All three operations succeed, and no active super admin is left. -/
theorem stale_suspend_takes_last_super :
    ∃ db c, db.HasSuper ∧ Reach (adminSystem fun _ _ _ => True) db c ∧
      (∀ i p, c.pool i = some p → p = .done (.ok ())) ∧ ¬ c.world.store.HasSuper := by
  refine ⟨superAndSupport, promotionRun, ⟨_, List.mem_cons_self .., by decide⟩,
    Reach.moves .init ?_, ?_, ?_⟩
  · exact ⟨⟨rfl, _, rfl⟩, trivial, trivial, ⟨rfl, _, rfl⟩, trivial, trivial, trivial, trivial,
      ⟨rfl, _, rfl⟩, trivial, trivial, trivial, trivial, trivial, trivial, trivial, trivial,
      trivial, trivial⟩
  · intro i p running
    have named := Config.moves_only running
    simp only [stalePromotion, List.filterMap_cons, List.filterMap_nil, Move.process,
      List.mem_cons, List.not_mem_nil, or_false] at named
    have which : i = 0 ∨ i = 1 ∨ i = 2 := by omega
    rcases which with rfl | rfl | rfl <;> exact (Option.some.inj running).symm
  · have none : promotionRun.world.store.admins.any Admin.activeSuper = false := by
      decide +kernel
    rintro ⟨a, mem, active⟩
    exact Bool.false_ne_true (none.symm.trans (List.any_eq_true.mpr ⟨a, mem, active⟩))

end AnalyticsBackend.Platform
