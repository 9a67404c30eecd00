import AnalyticsBackend.Support.Programs

/-!
# Support access ends

A revocation ends the sessions that it finds recorded. It misses one that is being opened meanwhile,
and a new consent ends no session of the consents that it supersedes. A session lasts a second at
least, though less is left of its grant, and a slot that was taken before midnight is used, or given
back, after it.
-/

namespace AnalyticsBackend.Support
open Lib System Platform

abbrev SupportRun := Config Nat SupportLabel SupportDb Unit

/-- No session is live under a grant that a finished operation has revoked. -/
def RevokedEnded (c : SupportRun) : Prop :=
  ∀ i result, c.pool i = some (.done result) → ∀ e ∈ c.world.own i, ∀ grantId ∈ revokes e,
    ∀ o ∈ openings c.world.trace, o.grantId = grantId →
      c.world.store.live o.session.sessionId = false

/-- No session and no record of one lasts longer than its grant. -/
def WithinGrant (w : SupportWorld) : Prop :=
  ∀ grant ∈ w.store.grants, ∀ expiresAt, grant.expiresAt = some expiresAt →
    (∀ o ∈ openings w.trace, o.grantId = grant.grantId →
      o.session.expiresAt ≤ expiresAt ∧ o.expiresAt ≤ expiresAt) ∧
    ∀ r ∈ w.store.records, r.grantId = grant.grantId → r.expiresAt ≤ expiresAt

/-- A session is opened while a second is left of its grant. -/
def SecondLeft (w : SupportWorld) : Prop :=
  ∀ grant ∈ w.store.grants, ∀ expiresAt, grant.expiresAt = some expiresAt →
    ∀ o ∈ openings w.trace, o.grantId = grant.grantId → o.startedAt + 1000 ≤ expiresAt

/-- Every session has a grant that ends, and under a break-glass grant it is its requester's and has
started after another super admin's approval. -/
def GrantedToAdmin (w : SupportWorld) : Prop :=
  ∀ o ∈ openings w.trace, ∃ grant ∈ w.store.grants, grant.grantId = o.grantId ∧
    grant.expiresAt.isSome = true ∧
    (grant.kind = .breakGlass → FourEyes w.trace grant o.session.impersonatedBy o.startedAt)

/-- No admin has opened more sessions in a day than the cap. -/
def WithinCap (cap : Int) (w : SupportWorld) : Prop :=
  0 < cap → ∀ adminId day, ((startedOn w.store adminId day).length : Int) ≤ cap

theorem revokedEnded_of_clean {settings : SupportSettings} {s₀ : SupportDb} (start : SupportStart s₀)
    {c : SupportRun} (reach : Reach (supportSystem settings) s₀ c)
    (clean : cleanThroughout c.world.trace = true) : RevokedEnded c := by
  intro i result done e mem grantId revoked o opened under
  have ended : Ending i none c.world := reach.result (supportDiscipline start) done
  rw [← Bool.not_eq_true]
  intro live
  exact absurd ((ended clean e mem grantId revoked).2 o opened under live) List.not_mem_nil

theorem SupportInv.withinGrant_iff {settings : SupportSettings} {w : SupportWorld}
    (inv : SupportInv settings w) : WithinGrant w ↔ SecondLeft w := by
  -- the grant of an opening is the one under its id
  have ofGrant {grant : SupportGrant} (mem : grant ∈ w.store.grants) {expiresAt : Int}
      (expires : grant.expiresAt = some expiresAt) {o : Opening} (opened : o ∈ openings w.trace)
      (under : o.grantId = grant.grantId) :
      (o.expiresAt ≤ expiresAt ↔ o.startedAt + 1000 ≤ expiresAt) ∧ o.session.expiresAt ≤ o.expiresAt := by
    obtain ⟨⟨expiresAt', ⟨grant', mem', id, -, expires', -⟩, whole⟩, session⟩ :=
      inv.sessions.opened o opened
    have same : grant' = grant :=
      List.inj_on_of_nodup_map inv.grants.ids mem' mem (id.trans under)
    subst same
    have same : expiresAt' = expiresAt := Option.some.inj (expires'.symm.trans expires)
    subst same
    exact ⟨whole, session⟩
  constructor
  · intro within grant mem expiresAt expires o opened under
    exact (ofGrant mem expires opened under).1.mp ((within grant mem expiresAt expires).1 o opened under).2
  · intro left grant mem expiresAt expires
    have ends (o : Opening) (opened : o ∈ openings w.trace) (under : o.grantId = grant.grantId) :
        o.session.expiresAt ≤ expiresAt ∧ o.expiresAt ≤ expiresAt := by
      obtain ⟨whole, session⟩ := ofGrant mem expires opened under
      have is := whole.mpr (left grant mem expiresAt expires o opened under)
      exact ⟨session.trans is, is⟩
    refine ⟨ends, fun r recorded under => ?_⟩
    obtain ⟨o, opened, -, -, ofGrant, -, expiry⟩ := inv.sessions.records r recorded
    rw [expiry]
    exact (ends o opened (ofGrant.symm.trans under)).2

theorem SupportInv.withinCap {settings : SupportSettings} {w : SupportWorld}
    (inv : SupportInv settings w) (same : ∀ i, sameDay settings.dailyCap (w.own i) = true) :
    WithinCap settings.dailyCap w := by
  intro on adminId day
  have spent : 0 ≤ (w.trace.map (share settings.dailyCap adminId day)).sum := by
    rw [w.sum_own _ (w.trace.map Event.tid).toFinset fun e mem =>
      List.mem_toFinset.mpr (List.mem_map_of_mem mem)]
    exact Finset.sum_nonneg fun i _ => inv.budget.spent i (same i) adminId day
  have counted := inv.budget.counted adminId day
  have capped := inv.budget.capped adminId day
  omega

/-- In every run: break-glass sessions are the requester's, after another's approval. Where no session
is opened and no consent superseded in the course of a revocation, a finished revocation has ended the
sessions under its grant. A session lasts no longer than its grant if and only if a second of it is
left at the start. Where slots are spent on their day, nobody exceeds the cap. -/
theorem support_access_ends (settings : SupportSettings) (s₀ : SupportDb) (start : SupportStart s₀)
    (c : SupportRun) (reach : Reach (supportSystem settings) s₀ c) :
    GrantedToAdmin c.world ∧
      (cleanThroughout c.world.trace = true → RevokedEnded c) ∧
      (WithinGrant c.world ↔ SecondLeft c.world) ∧
      ((∀ i, sameDay settings.dailyCap (c.world.own i) = true) →
        WithinCap settings.dailyCap c.world) := by
  have inv := (reach.sound (supportDiscipline start)).inv
  refine ⟨fun o opened => ?_, revokedEnded_of_clean start reach, inv.withinGrant_iff,
    inv.withinCap⟩
  obtain ⟨⟨expiresAt, ⟨grant, mem, id, -, expires, eyes⟩, -⟩, -⟩ := inv.sessions.opened o opened
  exact ⟨grant, mem, id, by rw [expires]; rfl, eyes⟩

/-! ## Sessions that outlive their grant -/

namespace LateSupport

def settings : SupportSettings where
  dailyCap := 1
  tokenTtl := some 900
  consentMaxHours := 72
  breakGlassTtl := some 3600
  refreshTtl := 2592000
  absoluteTtl := 2592000

def operator : Admin where
  id := "adm1"
  email := "operator@platform.example"
  passwordHash := none
  status := .active
  adminType := .support
  tenantScope := none
  profile := {}
  createdBy := none
  updatedBy := none
  deletedAt := none

/-- A workspace with an owner and a member; it is the last second of a day. -/
def store : SupportDb where
  clock := 1700006399000
  grants := []
  sessions := []
  records := []
  counters := fun _ _ => 0
  admins := [operator]
  users := [{ id := "usr1", tenantId := "t1", email := "ada@example.com", status := .active }]
  tenants := [{ id := "t1", status := .active, ownerId := none }]

theorem started : SupportStart store := ⟨rfl, rfl, rfl, fun _ _ => rfl⟩

def consent (grantId : String) : SupportCall :=
  .grantConsent { tenantId := "t1", userId := "usr1", durationHours := some 1, note := none, grantId }

def impersonation (sessionId : String) : SupportCall :=
  .impersonate
    { adminId := "adm1", targetUserId := "usr1", reason := "r", ticket := none, sessionId, fault := none }

def revocation (grantId : String) : SupportCall := .revokeConsent "t1" grantId "usr1" none

def begin (i : Nat) (call : SupportCall) (steps : Nat) (c : SupportRun) : SupportRun :=
  (.start i (call.program settings) :: List.replicate steps (.act i)).foldl Config.move c

/-- A process takes a number of further steps. -/
def go (i : Nat) (steps : Nat) (c : SupportRun) : SupportRun :=
  (List.replicate steps (.act i)).foldl Config.move c

def wait (clock : Int) (c : SupportRun) : SupportRun :=
  c.move (.env { c.world.store with clock })

section Reached

variable {c : SupportRun}

abbrev Reached (c : SupportRun) : Prop := Reach (supportSystem settings) store c

theorem Reached.begin {i : Nat} {call : SupportCall} {steps : Nat} (reached : Reached c)
    (fresh : (c.pool i).isNone = true)
    (legal : (supportSystem settings).LegalRun (c.move (.start i (call.program settings)))
      (List.replicate steps (.act i))) : Reached (begin i call steps c) :=
  reached.moves (show (supportSystem settings).LegalRun c (.start i (call.program settings) :: _) from
    ⟨⟨Option.isNone_iff_eq_none.mp fresh, call, rfl⟩, legal⟩)

theorem Reached.go {i steps : Nat} (reached : Reached c)
    (legal : (supportSystem settings).LegalRun c (List.replicate steps (.act i))) :
    Reached (go i steps c) :=
  reached.moves legal

theorem Reached.wait {clock : Int} (reached : Reached c) (later : c.world.store.clock ≤ clock) :
    Reached (wait clock c) := by
  refine reached.move (show SupportOutside _ _ from ⟨later, rfl, rfl, ⟨fun _ => false, ?_⟩,
    fun _ => false, ?_, nofun⟩)
  · simp [endAll]
  · simp [closeAll]

end Reached

def granted : SupportRun := begin 0 (consent "g1") 6 (.idle store)

def opened : SupportRun := begin 1 (impersonation "s1") 20 granted

/-- The consent is revoked afterwards. -/
def revoked : SupportRun := begin 2 (revocation "g1") 20 opened

/-- A second consent supersedes it instead. -/
def renewed : SupportRun := begin 2 (consent "g2") 6 opened

/-- The consent is revoked while the session is being opened. -/
def raced : SupportRun := go 1 10 (begin 2 (revocation "g1") 20 (begin 1 (impersonation "s1") 10 granted))

/-- The session is opened half a second before the consent ends. -/
def late : SupportRun := begin 1 (impersonation "s1") 20 (wait 1700009998500 granted)

/-- A slot is taken before midnight for a session that starts after it, before another one. -/
def overnight : SupportRun :=
  begin 2 (impersonation "s2") 20 (go 1 10
    (wait 1700006400000 (begin 1 (impersonation "s1") 8 granted)))

theorem uses_begin {used : List Nat} {c : SupportRun} (uses : Uses used c) (i : Nat)
    (call : SupportCall) (steps : Nat) : Uses (i :: used) (begin i call steps c) :=
  uses.begin i _ steps

theorem uses_wait {used : List Nat} {c : SupportRun} (uses : Uses used c) (clock : Int) :
    Uses used (wait clock c) := uses

theorem reached_runs : (Reached opened ∧ Reached revoked ∧ Reached renewed) ∧
    Reached raced ∧ Reached late ∧ Reached overnight := by
  have used : Uses [0] granted := uses_begin (.idle store) 0 _ 6
  have fresh (steps : Nat) : ((begin 1 (impersonation "s1") steps granted).pool 2).isNone = true :=
    (uses_begin used 1 (impersonation "s1") steps).fresh (by decide)
  have isGranted : Reached granted := Reached.begin .init rfl (by decide +kernel)
  have isOpened : Reached opened := isGranted.begin (used.fresh (by decide)) (by decide +kernel)
  have isRaced : Reached raced := by
    refine ((isGranted.begin (used.fresh (by decide)) ?_).begin (fresh 10) ?_).go ?_
    all_goals decide +kernel
  have isLate : Reached late := by
    refine (isGranted.wait ?_).begin ((uses_wait used _).fresh (by decide)) ?_
    all_goals decide +kernel
  have isOvernight : Reached overnight := by
    have usedOne := (uses_wait (uses_begin used 1 (impersonation "s1") 8) 1700006400000).go 1 10
    refine (((isGranted.begin (used.fresh (by decide)) ?_).wait ?_).go ?_).begin
      (usedOne.fresh (by decide)) ?_
    all_goals decide +kernel
  exact ⟨⟨isOpened, isOpened.begin (fresh 20) (by decide +kernel),
    isOpened.begin (fresh 20) (by decide +kernel)⟩, isRaced, isLate, isOvernight⟩

def finished (c : SupportRun) (i : Nat) : Bool :=
  match c.pool i with
  | some (.done _) => true
  | _ => false

theorem done_of_finished {c : SupportRun} {i : Nat} (is : finished c i = true) :
    ∃ result, c.pool i = some (.done result) := by
  unfold finished at is
  split at is
  · exact ⟨_, ‹_›⟩
  · cases is

theorem not_revokedEnded {c : SupportRun} (i : Nat) (ended : finished c i = true)
    (outlives : ∃ e ∈ c.world.own i, ∃ o ∈ openings c.world.trace,
      (revokes e).contains o.grantId = true ∧ c.world.store.live o.session.sessionId = true) :
    ¬ RevokedEnded c := by
  intro all
  obtain ⟨result, done⟩ := done_of_finished ended
  obtain ⟨e, mem, o, opened, revoked, live⟩ := outlives
  have dead := all i result done e mem o.grantId (List.contains_iff_mem.mp revoked) o opened rfl
  rw [live] at dead
  exact nomatch dead

end LateSupport

open LateSupport in
/-- A session goes on under a consent that was superseded, and under one that was revoked while it was
being opened; one outlasts its consent by half a second; two are opened in a day under a cap of one. -/
theorem support_outlives_grant :
    (Reached renewed ∧ ¬ RevokedEnded renewed) ∧ (Reached raced ∧ ¬ RevokedEnded raced) ∧
      (Reached late ∧ ¬ WithinGrant late.world) ∧
      (Reached overnight ∧ ¬ WithinCap settings.dailyCap overnight.world) := by
  obtain ⟨⟨-, -, isRenewed⟩, isRaced, isLate, isOvernight⟩ := reached_runs
  refine ⟨⟨isRenewed, not_revokedEnded 2 (by decide +kernel) (by decide +kernel)⟩,
    ⟨isRaced, not_revokedEnded 2 (by decide +kernel) (by decide +kernel)⟩,
    ⟨isLate, fun within => ?_⟩, ⟨isOvernight, fun within => ?_⟩⟩
  · have mem : ∃ g ∈ late.world.store.grants, g.expiresAt = some 1700009999000 ∧
        ∃ r ∈ late.world.store.records, r.grantId = g.grantId ∧ r.expiresAt = 1700009999500 := by
      decide +kernel
    obtain ⟨g, mem, expires, r, recorded, under, expiry⟩ := mem
    have is := (within g mem _ expires).2 r recorded under
    omega
  · have two : (startedOn overnight.world.store "adm1" 19676).length = 2 := by decide +kernel
    have one := within (by decide) "adm1" 19676
    rw [two] at one
    exact absurd one (by decide)

open LateSupport in
/-- A session that is open when its consent is revoked is ended then. -/
theorem support_access_ends_revoked :
    openings revoked.world.trace ≠ [] ∧ RevokedEnded revoked ∧ WithinGrant revoked.world := by
  have ends := support_access_ends settings store started revoked reached_runs.1.2.1
  refine ⟨by decide +kernel, ends.2.1 (by decide +kernel), ends.2.2.1.mpr ?_⟩
  have left : ∀ grant ∈ revoked.world.store.grants, ∀ o ∈ openings revoked.world.trace,
      (grant.expiresAt.all fun expiresAt => o.startedAt + 1000 ≤ expiresAt) = true := by
    decide +kernel
  intro grant mem expiresAt expires o opened _
  have is := left grant mem o opened
  rw [expires] at is
  exact of_decide_eq_true is

end AnalyticsBackend.Support
