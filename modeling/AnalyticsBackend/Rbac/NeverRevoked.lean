import AnalyticsBackend.Rbac.Cache

/-!
# The cache serves no revoked right

A key embeds the counters that were read before the rows, and a write increments its counter after
its changes. So an entry under the present counters was resolved after every write whose
invalidation has finished. An entry expires with the earliest of the grants that were live when the
expiry was read, and no grant that the resolution finds live after that was unknown then.
-/

namespace AnalyticsBackend.Rbac
open Lib System

/-! ## What is returned -/

namespace RbacRequest

/-- The set that the request computes at a time from the rows that its reads find. -/
def value (request : RbacRequest) (now : Int) (rows₁ rows₂ rows₃ : RbacRows) : List String :=
  let roleIds := (request.live now rows₁).map RoleGrant.roleId
  match request.kind with
  | .perms => sortedSet (permissionKeys (joinedPermissions roleIds rows₂) rows₃)
  | .roles => sortedSet (roleNames roleIds rows₂)

/-- The counters that the key of the request embeds. -/
def covers (request : RbacRequest) (target : VersionKey) : Bool :=
  target = .global || target = .scope (scopeLabel request.tenantId) ||
    (request.dependsOnPlatform && target = .scope platformScope)

end RbacRequest

/-- What the request computes from the rows that some of the events found, seen by `view`. -/
def Computed (view : RbacRows → RbacRows) (events : RbacTrace) (request : RbacRequest)
    (v : List String) : Prop :=
  ∃ e₀ ∈ events, ∃ e₁ ∈ events, ∃ e₂ ∈ events, ∃ e₃ ∈ events,
    v = request.value e₀.before.clock (view e₁.before.rows) (view e₂.before.rows)
      (view e₃.before.rows)

/-- What is computed from the rows themselves, where each grant that counts and has a deadline
meets `bound`. -/
def ReadWithin {X : Type} (events : RbacTrace) (request : RbacRequest)
    (compute : Int → RbacRows → RbacRows → RbacRows → X) (x : X) (bound : RoleGrant → Int → Prop) :
    Prop :=
  ∃ e₀ ∈ events, ∃ e₁ ∈ events, ∃ e₂ ∈ events, ∃ e₃ ∈ events,
    x = compute e₀.before.clock e₁.before.rows e₂.before.rows e₃.before.rows ∧
      ∀ g ∈ request.live e₀.before.clock e₁.before.rows, ∀ t, g.expiresAt = some t → bound g t

theorem ReadWithin.mono {X : Type} {events events' : RbacTrace} {request : RbacRequest}
    {compute : Int → RbacRows → RbacRows → RbacRows → X} {x : X}
    {bound bound' : RoleGrant → Int → Prop} (read : ReadWithin events request compute x bound)
    (more : events ⊆ events') (weaker : ∀ g t, bound g t → bound' g t) :
    ReadWithin events' request compute x bound' := by
  obtain ⟨e₀, mem₀, e₁, mem₁, e₂, mem₂, e₃, mem₃, is, bounded⟩ := read
  exact ⟨e₀, more mem₀, e₁, more mem₁, e₂, more mem₂, e₃, more mem₃, is,
    fun g live t expires => weaker g t (bounded g live t expires)⟩

/-! ## Counters -/

def bumps (target : VersionKey) (trace : RbacTrace) : Nat :=
  trace.countP fun e =>
    match e.label with
    | .increment key => key = target
    | _ => false

theorem bumps_cons_increment {e : RbacEvent} {target : VersionKey} (label : e.label = .increment target)
    (trace : RbacTrace) : bumps target (e :: trace) = bumps target trace + 1 := by
  rw [bumps, List.countP_cons_of_pos (by simp [label])]
  rfl

theorem bumps_append (target : VersionKey) (recent past : RbacTrace) :
    bumps target (recent ++ past) = bumps target recent + bumps target past :=
  List.countP_append ..

theorem bumps_suffix (target : VersionKey) {past trace : RbacTrace} (suffix : past <:+ trace) :
    bumps target past ≤ bumps target trace := by
  obtain ⟨recent, rfl⟩ := suffix
  rw [bumps_append]
  exact Nat.le_add_left _ _

/-- Of two parts of a trace, the one that has counted no less comes no earlier than an increment
that ends the other. -/
theorem suffix_of_bumps {target : VersionKey} {K : RbacEvent} {past past' trace : RbacTrace}
    (label : K.label = .increment target) (suffix : K :: past <:+ trace) (suffix' : past' <:+ trace)
    (counted : bumps target (K :: past) ≤ bumps target past') : K :: past <:+ past' := by
  rcases List.suffix_or_suffix_of_suffix suffix suffix' with before | after
  · exact before
  · rcases List.suffix_cons_iff.mp after with same | within
    · exact same ▸ List.suffix_refl _
    · have fewer := bumps_suffix target within
      rw [bumps_cons_increment label] at counted
      omega

namespace RbacRequest

/-- The counters that the key embeds, with their values. -/
def reads (request : RbacRequest) (versions : Versions) : List (VersionKey × Nat) :=
  [(.global, versions.global), (.scope (scopeLabel request.tenantId), versions.scope)] ++
    versions.platform.toList.map fun n => (.scope platformScope, n)

theorem key_inj {request request' : RbacRequest} {versions versions' : Versions}
    (tenant : request.tenantId ≠ some platformScope)
    (tenant' : request'.tenantId ≠ some platformScope)
    (same : request.key versions = request'.key versions') :
    request = request' ∧ versions = versions' := by
  obtain ⟨kind, tenantId, actorType, actorId⟩ := request
  obtain ⟨kind', tenantId', actorType', actorId'⟩ := request'
  obtain ⟨global, scope, platform⟩ := versions
  obtain ⟨global', scope', platform'⟩ := versions'
  simp only [key, ActorKey.mk.injEq] at same
  obtain ⟨label, rfl, rfl, rfl, rfl, rfl, rfl⟩ := same
  have tenants : tenantId = tenantId' := by
    cases tenantId <;> cases tenantId' <;> simp_all [scopeLabel]
  rw [tenants]
  exact ⟨rfl, rfl⟩

end RbacRequest

/-! ## Sources -/

def Granted (g : RoleGrant) (past : RbacTrace) : Prop := ∃ C ∈ past, g.id ∈ C.after.drawnGrants

/-- The value comes from reads after the embedded counters had their values; every grant known by
then that counts and has a deadline meets `bound`. -/
def Sourced (s₀ : RbacDb) (request : RbacRequest) (versions : Versions) (v : List String)
    (bound : RbacTrace → Int → Prop) (trace : RbacTrace) : Prop :=
  ∃ recent past, trace = recent ++ past ∧
    (∀ r ∈ request.reads versions, r.2 ≤ s₀.versions r.1 + bumps r.1 past) ∧
    ReadWithin recent request request.value v fun g t => Granted g past → bound recent t

/-- An entry that expires by then. -/
def Capped (exp : Option Int) (t : Int) : Prop := ∃ x, exp = some x ∧ x ≤ t

def AtWork (i : Nat) (events : RbacTrace) (t : Int) : Prop :=
  ∃ e ∈ events, e.tid = i ∧ e.before.clock < t

theorem Sourced.later {s₀ : RbacDb} {request : RbacRequest} {versions : Versions} {v : List String}
    {bound bound' : RbacTrace → Int → Prop} {trace : RbacTrace}
    (sourced : Sourced s₀ request versions v bound trace) (e : RbacEvent)
    (weaker : ∀ recent t, bound recent t → bound' (e :: recent) t) :
    Sourced s₀ request versions v bound' (e :: trace) := by
  obtain ⟨recent, past, rfl, counted, read⟩ := sourced
  exact ⟨e :: recent, past, rfl, counted,
    read.mono (List.subset_cons_self ..) fun g t bounded known => weaker recent t (bounded known)⟩

theorem Sourced.weaken {s₀ : RbacDb} {request : RbacRequest} {versions : Versions} {v : List String}
    {bound bound' : RbacTrace → Int → Prop} {trace : RbacTrace}
    (sourced : Sourced s₀ request versions v bound trace)
    (weaker : ∀ recent t, bound recent t → bound' recent t) :
    Sourced s₀ request versions v bound' trace := by
  obtain ⟨recent, past, rfl, counted, read⟩ := sourced
  exact ⟨recent, past, rfl, counted,
    read.mono (List.Subset.refl _) fun g t bounded known => weaker recent t (bounded known)⟩

theorem AtWork.later {i : Nat} (e : RbacEvent) (recent : RbacTrace) (t : Int)
    (work : AtWork i recent t) : AtWork i (e :: recent) t := by
  obtain ⟨e', mem, own, early⟩ := work
  exact ⟨e', List.mem_cons_of_mem _ mem, own, early⟩

/-! ## The invariant -/

/-- The counters count the increments, and every entry has a source. -/
structure CacheInv (home : String → String) (s₀ : RbacDb) (w : RbacWorld) : Prop where
  counted : ∀ key, w.store.versions key = s₀.versions key + bumps key w.trace
  drawn : ∀ g ∈ w.store.rows.allGrants, g.id ∈ w.store.drawnGrants
  kept : ∀ e ∈ w.trace, e.after.drawnGrants ⊆ w.store.drawnGrants
  clock : ∀ e ∈ w.trace, e.before.clock ≤ w.store.clock
  ordered : w.trace.Pairwise fun e earlier => earlier.before.clock ≤ e.before.clock
  atHome : RolesAtHome home w.store.rows
  foundAtHome : ∀ e ∈ w.trace, RolesAtHome home e.before.rows
  entries : ∀ request versions, request.tenantId ≠ some platformScope → ∀ envelope lapses,
    w.store.entries (request.key versions) = some (envelope, lapses) →
      Sourced s₀ request versions envelope.v (fun _ => Capped envelope.exp) w.trace

structure CacheStep (home : String → String) (e : RbacEvent) : Prop where
  acts : e.after = e.label.act e.before
  allowed : RbacAllowed home e.label e.before e.after
  targeted : ∀ target f, e.label = .change target f → Targeted home target f

theorem RbacLabel.clock_act (label : RbacLabel) (db : RbacDb) : (label.act db).clock = db.clock := by
  cases label <;> rfl

theorem RbacLabel.drawn_act (label : RbacLabel) (db : RbacDb) :
    db.drawnGrants ⊆ (label.act db).drawnGrants := by
  cases label with
  | change target f => exact List.subset_append_right ..
  | look => exact List.Subset.refl _
  | increment target => exact List.Subset.refl _
  | set key envelope ttlSec => exact List.Subset.refl _

section Invariant

variable {home : String → String} {s₀ : RbacDb} {w : RbacWorld} {e : RbacEvent}

/-- One step keeps the invariant, where the entry it stores has a source. -/
theorem CacheInv.push (inv : CacheInv home s₀ w) (before : e.before = w.store)
    (step : CacheStep home e)
    (sourced : ∀ request versions, request.tenantId ≠ some platformScope → ∀ envelope ttlSec,
      e.label = .set (request.key versions) envelope ttlSec →
        Sourced s₀ request versions envelope.v (fun _ => Capped envelope.exp) (e :: w.trace)) :
    CacheInv home s₀ (w.push e) := by
  have after : e.after = e.label.act w.store := before ▸ step.acts
  have grows : w.store.drawnGrants ⊆ e.after.drawnGrants := after ▸ e.label.drawn_act _
  refine ⟨fun key => ?_, ?_, ?_, ?_, ?_, ?_, ?_, ?_⟩
  · -- The counters.
    have counted := inv.counted key
    rw [World.push_store, World.push_trace, after]
    cases label : e.label with
    | increment target =>
        by_cases same : key = target
        · subst same
          rw [bumps_cons_increment label]
          simp only [RbacLabel.act, Function.update_self]
          omega
        · have other : bumps key (e :: w.trace) = bumps key w.trace := by
            rw [bumps, List.countP_cons_of_neg (by simp [label, Ne.symm same])]
            rfl
          rw [other]
          simp only [RbacLabel.act, Function.update_of_ne same]
          exact counted
    | look | change | set =>
        have other : bumps key (e :: w.trace) = bumps key w.trace := by
          rw [bumps, List.countP_cons_of_neg (by simp [label])]
          rfl
        rw [other]
        exact counted
  · -- The ids of grants.
    rw [World.push_store, after]
    cases label : e.label with
    | change target f => exact fun g mem => List.mem_append_left _ (List.mem_map_of_mem mem)
    | look | increment | set => exact inv.drawn
  · refine List.forall_mem_cons.mpr ⟨List.Subset.refl _, fun e' mem => ?_⟩
    exact List.Subset.trans (inv.kept e' mem) grows
  · rw [World.push_store, after, RbacLabel.clock_act]
    exact List.forall_mem_cons.mpr ⟨before ▸ le_refl _, inv.clock⟩
  · exact List.pairwise_cons.mpr ⟨fun e' mem => before ▸ inv.clock e' mem, inv.ordered⟩
  · rw [World.push_store, after]
    cases label : e.label with
    | change target f =>
        have allowed := step.allowed
        rw [after, label] at allowed
        exact allowed.2.2
    | look | increment | set => exact inv.atHome
  · exact List.forall_mem_cons.mpr ⟨before ▸ inv.atHome, inv.foundAtHome⟩
  · -- The entries.
    intro request versions tenant envelope lapses is
    have old (is : w.store.entries (request.key versions) = some (envelope, lapses)) :
        Sourced s₀ request versions envelope.v (fun _ => Capped envelope.exp) (e :: w.trace) :=
      (inv.entries request versions tenant envelope lapses is).later e fun _ _ capped => capped
    rw [World.push_store, after] at is
    cases label : e.label with
    | set key stored ttlSec =>
        simp only [label, RbacLabel.act] at is
        by_cases same : request.key versions = key
        · subst same
          simp only [Function.update_self, Option.some.injEq, Prod.mk.injEq] at is
          obtain ⟨rfl, -⟩ := is
          exact sourced request versions tenant stored ttlSec label
        · exact old (by simpa [Function.update_of_ne same] using is)
    | look | change | increment =>
        simp only [label, RbacLabel.act] at is
        exact old is

theorem CacheInv.env (inv : CacheInv home s₀ w) {db : RbacDb} (may : (rbacSystem home).env w.store db) :
    CacheInv home s₀ { store := db, trace := w.trace } := by
  obtain ⟨later, lapsed, -, is⟩ := may
  rw [is]
  refine ⟨inv.counted, fun g mem => inv.drawn g ?_, inv.kept,
    fun e mem => le_trans (inv.clock e mem) later, inv.ordered, ?_, inv.foundAtHome, inv.entries⟩
  · exact List.mem_append.mpr ((List.mem_append.mp mem).imp List.mem_of_mem_filter
      List.mem_of_mem_filter)
  · exact ⟨fun g mem => inv.atHome.adminRoles g (List.mem_of_mem_filter mem),
      fun g mem => inv.atHome.userRoles g (List.mem_of_mem_filter mem)⟩

end Invariant

/-! ## Resolutions -/

/-- The counter had the value at a step of the process, or a higher one. -/
def ReadAt (s₀ : RbacDb) (i : Nat) (target : VersionKey) (n : Nat) (trace : RbacTrace) : Prop :=
  (∃ e past, e :: past <:+ trace ∧ e.tid = i ∧ s₀.versions target + bumps target past ≤ n) ∧
    n ≤ s₀.versions target + bumps target trace

def VersionsRead (s₀ : RbacDb) (i : Nat) (request : RbacRequest) (versions : Versions)
    (trace : RbacTrace) : Prop :=
  (∀ r ∈ request.reads versions, ReadAt s₀ i r.1 r.2 trace) ∧
    (request.dependsOnPlatform = true → versions.platform.isSome = true)

/-- A grant that was drawn by then and that the actor holds is one of the grants whose deadline
caps the entry, or it was removed. -/
def ExpiryRead (past : RbacTrace) (request : RbacRequest) (now : Int) (exp : Option Int)
    (db : RbacDb) : Prop :=
  ∀ g t, request.sees g = true → g.expiresAt = some t → now < t → Granted g past →
    Capped exp t ∨ (g.id ∈ db.drawnGrants ∧ g ∉ db.rows.grants request.actorType)

theorem ReadAt.later {s₀ : RbacDb} {i : Nat} {target : VersionKey} {n : Nat} (e : RbacEvent)
    (trace : RbacTrace) (read : ReadAt s₀ i target n trace) : ReadAt s₀ i target n (e :: trace) := by
  obtain ⟨⟨e', past, suffix, own, least⟩, most⟩ := read
  refine ⟨⟨e', past, suffix.trans (List.suffix_cons ..), own, least⟩, le_trans most ?_⟩
  exact Nat.add_le_add_left (bumps_suffix _ (List.suffix_cons ..)) _

theorem VersionsRead.later {s₀ : RbacDb} {i : Nat} {request : RbacRequest} {versions : Versions}
    (e : RbacEvent) (trace : RbacTrace) (read : VersionsRead s₀ i request versions trace) :
    VersionsRead s₀ i request versions (e :: trace) :=
  ⟨fun r mem => (read.1 r mem).later e trace, read.2⟩

section Programs

variable {A : Type} {home : String → String} {s₀ : RbacDb} {i : Nat}

/-- A program of process `i` keeps the invariant and does what every step does. -/
abbrev Keeps (home : String → String) (s₀ : RbacDb) (i : Nat) (R : A → RbacWorld → Prop)
    (p : RbacProg A) (P : RbacWorld → Prop) : Prop :=
  Safe (rbacSystem home).env (rbacSystem home).ok (CacheInv home s₀) (CacheStep home) i R p P

abbrev Lasting (home : String → String) (s₀ : RbacDb) (P : RbacWorld → Prop) : Prop :=
  Persistent (rbacSystem home).env (CacheInv home s₀) (CacheStep home) P

theorem lasting_versions {request : RbacRequest} {versions : Versions} :
    Lasting home s₀ (fun w => VersionsRead s₀ i request versions w.trace) :=
  .of_trace VersionsRead.later

theorem lasting_clock (now : Int) : Lasting home s₀ (fun w => now ≤ w.store.clock) := by
  refine .le (fun _ _ may => may.1) (fun e step => ?_) now
  rw [step.acts, RbacLabel.clock_act]

theorem lasting_expiry {past : RbacTrace} {request : RbacRequest} {now : Int} {exp : Option Int} :
    Lasting home s₀ (fun w => ExpiryRead past request now exp w.store) := by
  constructor
  · intro w e _ known before step _ g t sees expires live granted
    refine (known g t sees expires live granted).imp_right fun ⟨drawn, absent⟩ => ?_
    rw [World.push_store, step.acts, before]
    refine ⟨e.label.drawn_act _ drawn, fun mem => ?_⟩
    cases label : e.label with
    | change target f =>
        have allowed := step.allowed
        rw [step.acts, before, label] at allowed
        rw [label] at mem
        revert mem absent
        cases request.actorType with
        | admin => exact fun absent mem => (allowed.1 g mem).elim absent (· drawn)
        | user => exact fun absent mem => (allowed.2.1 g mem).elim absent (· drawn)
    | look | increment | set =>
        rw [label] at mem
        exact absent mem
  · rintro w db _ known ⟨_, lapsed, _, is⟩ g t sees expires live granted
    refine (known g t sees expires live granted).imp_right fun ⟨drawn, absent⟩ => ?_
    rw [is]
    refine ⟨drawn, ?_⟩
    revert absent
    cases request.actorType with
    | admin => exact fun absent mem => absent (List.mem_of_mem_filter mem)
    | user => exact fun absent mem => absent (List.mem_of_mem_filter mem)

abbrev lookAt (i : Nat) (w : RbacWorld) : RbacEvent := ⟨i, .look, w.store, w.store⟩

theorem keeps_look {f : RbacDb → A} {P : RbacWorld → Prop} {R : A → RbacWorld → Prop}
    (lasting : ∀ a, Lasting home s₀ (R a))
    (step : ∀ w, CacheInv home s₀ w → P w → R (f w.store) (w.push (lookAt i w))) :
    Keeps home s₀ i R (look f) P := by
  refine Safe.update (fun a => (lasting a).stable i) fun w inv holds _ => ?_
  have looks : CacheStep home (lookAt i w) := ⟨rfl, trivial, nofun⟩
  exact ⟨inv.push rfl looks nofun, looks, step w inv holds⟩

theorem keeps_version (target : VersionKey) {P : RbacWorld → Prop} (lasting : Lasting home s₀ P) :
    Keeps home s₀ i (fun n w => P w ∧ ReadAt s₀ i target n w.trace)
      (look fun db => db.versions target) P := by
  refine keeps_look (fun n => lasting.and (.of_trace ReadAt.later)) fun w inv holds => ?_
  refine ⟨lasting.1 w _ inv holds rfl ⟨rfl, trivial, nofun⟩
    (inv.push rfl ⟨rfl, trivial, nofun⟩ nofun), ⟨lookAt i w, w.trace, List.suffix_refl _, rfl, ?_⟩, ?_⟩
  · exact (inv.counted target).ge
  · rw [inv.counted target]
    exact Nat.add_le_add_left (bumps_suffix _ (List.suffix_cons ..)) _

theorem keeps_currentVersions (scope : String) {P : RbacWorld → Prop} (lasting : Lasting home s₀ P) :
    Keeps home s₀ i (fun n w => (P w ∧ ReadAt s₀ i .global n.1 w.trace) ∧
      ReadAt s₀ i (.scope scope) n.2 w.trace) (currentVersions scope) P := by
  refine Safe.bind (keeps_version .global lasting) fun global => ?_
  refine Safe.bind (keeps_version (.scope scope) (lasting.and (.of_trace ReadAt.later))) fun n => ?_
  exact fun w inv holds => holds

theorem keeps_readVersions (request : RbacRequest) :
    Keeps home s₀ i (fun versions w => VersionsRead s₀ i request versions w.trace)
      request.readVersions (fun _ => True) := by
  have always : Lasting home s₀ (fun _ => True) :=
    ⟨fun _ _ _ _ _ _ _ => trivial, fun _ _ _ _ _ => trivial⟩
  refine Safe.bind (keeps_currentVersions _ always) fun n => ?_
  have kept : Lasting home s₀ (fun w => (True ∧ ReadAt s₀ i .global n.1 w.trace) ∧
      ReadAt s₀ i (.scope (scopeLabel request.tenantId)) n.2 w.trace) :=
    (always.and (.of_trace ReadAt.later)).and (.of_trace ReadAt.later)
  obtain ⟨global, scope⟩ := n
  dsimp only
  split
  · refine Safe.bind (keeps_currentVersions platformScope kept) fun m => ?_
    intro w inv holds
    obtain ⟨⟨⟨⟨-, global⟩, scope⟩, -⟩, platform⟩ := holds
    refine ⟨fun r mem => ?_, fun _ => rfl⟩
    simp only [RbacRequest.reads, Option.toList_some, List.map_cons, List.map_nil, List.cons_append,
      List.nil_append, List.mem_cons, List.not_mem_nil, or_false] at mem
    rcases mem with rfl | rfl | rfl
    · exact global
    · exact scope
    · exact platform
  · rename_i alone
    rintro w inv ⟨⟨-, global⟩, scope⟩
    refine ⟨fun r mem => ?_, fun depends => absurd depends alone⟩
    simp only [RbacRequest.reads, Option.toList_none, List.map_nil, List.append_nil,
      List.mem_cons, List.not_mem_nil, or_false] at mem
    rcases mem with rfl | rfl
    · exact global
    · exact scope

theorem keeps_mayServe {request : RbacRequest} {versions : Versions} (hit : Option Envelope) :
    Keeps home s₀ i (fun served w => VersionsRead s₀ i request versions w.trace ∧
        ∀ v, served = some v → Sourced s₀ request versions v (AtWork i) w.trace)
      (RbacRequest.mayServe hit)
      (fun w => VersionsRead s₀ i request versions w.trace ∧ ∀ envelope, hit = some envelope →
        Sourced s₀ request versions envelope.v (fun _ => Capped envelope.exp) w.trace) := by
  cases hit with
  | none => exact fun w _ holds => ⟨holds.1, nofun⟩
  | some envelope =>
      obtain ⟨v, exp⟩ := envelope
      cases exp with
      | none =>
          rintro w inv ⟨read, sourced⟩
          refine ⟨read, ?_⟩
          rintro _ ⟨⟩
          refine (sourced _ rfl).weaken fun recent t capped => ?_
          obtain ⟨x, impossible, -⟩ := capped
          exact nomatch impossible
      | some exp =>
          refine Safe.bind (R := fun now w => VersionsRead s₀ i request versions w.trace ∧
            (now < exp → Sourced s₀ request versions v (AtWork i) w.trace)) ?_ fun now => ?_
          · refine keeps_look (fun now => ?_) fun w inv holds => ?_
            · refine lasting_versions.and (.of_trace (T := fun trace => now < exp →
                Sourced s₀ request versions v (AtWork i) trace) fun e trace sourced early => ?_)
              exact (sourced early).later e (AtWork.later e)
            · refine ⟨holds.1.later _ _, fun early => ?_⟩
              refine (holds.2 _ rfl).later _ fun recent t capped => ?_
              obtain ⟨x, is, most⟩ := capped
              obtain rfl := Option.some.inj is
              exact ⟨lookAt i w, List.mem_cons_self .., rfl, lt_of_lt_of_le early most⟩
          · rintro w inv ⟨read, sourced⟩
            refine ⟨read, fun v' served => ?_⟩
            by_cases early : now < exp
            · rw [if_pos early] at served
              obtain rfl := Option.some.inj served
              exact sourced early
            · rw [if_neg early] at served
              exact nomatch served

/-- What the process has computed since a part of the trace, from grants that the deadline of the
entry bounds. -/
def Since {X : Type} (i : Nat) (request : RbacRequest) (exp : Option Int) (past : RbacTrace)
    (compute : Int → RbacRows → RbacRows → RbacRows → X) (x : X) (trace : RbacTrace) : Prop :=
  ∃ recent, trace = recent ++ past ∧ ReadWithin recent request compute x fun g t =>
    Granted g past → Capped exp t ∧ AtWork i recent t

def ClockRead (i : Nat) (past : RbacTrace) (now : Int) (trace : RbacTrace) : Prop :=
  ∃ recent, trace = recent ++ past ∧ ∃ e ∈ recent, e.tid = i ∧ e.before.clock = now

section Live

variable {X Y : Type} {request : RbacRequest} {versions : Versions} {exp : Option Int}
  {past : RbacTrace}

theorem Since.later {compute : Int → RbacRows → RbacRows → RbacRows → X} {x : X} (e : RbacEvent)
    (trace : RbacTrace) (since : Since i request exp past compute x trace) :
    Since i request exp past compute x (e :: trace) := by
  obtain ⟨recent, rfl, read⟩ := since
  exact ⟨e :: recent, rfl, read.mono (List.subset_cons_self ..) fun g t bounded known =>
    ⟨(bounded known).1, (bounded known).2.later e⟩⟩

theorem Since.map {compute : Int → RbacRows → RbacRows → RbacRows → X}
    {compute' : Int → RbacRows → RbacRows → RbacRows → Y} {x : X} {y : Y} {trace : RbacTrace}
    (since : Since i request exp past compute x trace)
    (follows : ∀ now rows₁ rows₂ rows₃, x = compute now rows₁ rows₂ rows₃ →
      y = compute' now rows₁ rows₂ rows₃) : Since i request exp past compute' y trace := by
  obtain ⟨recent, rfl, e₀, mem₀, e₁, mem₁, e₂, mem₂, e₃, mem₃, is, bounded⟩ := since
  exact ⟨recent, rfl, e₀, mem₀, e₁, mem₁, e₂, mem₂, e₃, mem₃, follows _ _ _ _ is, bounded⟩

theorem keeps_second {f : Int → RbacRows → X} (h : X → RbacRows → Y) (x : X) :
    Keeps home s₀ i (fun y w => VersionsRead s₀ i request versions w.trace ∧
        Since i request exp past (fun now rows₁ rows₂ _ => h (f now rows₁) rows₂) y w.trace)
      (look fun db => h x db.rows)
      (fun w => VersionsRead s₀ i request versions w.trace ∧
        Since i request exp past (fun now rows₁ _ _ => f now rows₁) x w.trace) := by
  refine keeps_look (fun y => lasting_versions.and (.of_trace Since.later)) ?_
  rintro w inv ⟨versioned, since⟩
  obtain ⟨recent, split, e₀, mem₀, e₁, mem₁, e₂, mem₂, e₃, mem₃, is, bounded⟩ :=
    since.later (lookAt i w)
  have first : lookAt i w ∈ recent := by
    cases recent with
    | nil => exact nomatch mem₀
    | cons e recent =>
        obtain rfl := (List.cons.inj split).1
        exact List.mem_cons_self ..
  exact ⟨versioned.later _ _, recent, split, e₀, mem₀, e₁, mem₁, lookAt i w, first, e₃, mem₃,
    by rw [is], bounded⟩

theorem keeps_third {f : Int → RbacRows → RbacRows → X} (h : X → RbacRows → Y) (x : X) :
    Keeps home s₀ i (fun y w => VersionsRead s₀ i request versions w.trace ∧
        Since i request exp past
          (fun now rows₁ rows₂ rows₃ => h (f now rows₁ rows₂) rows₃) y w.trace)
      (look fun db => h x db.rows)
      (fun w => VersionsRead s₀ i request versions w.trace ∧
        Since i request exp past (fun now rows₁ rows₂ _ => f now rows₁ rows₂) x w.trace) := by
  refine keeps_look (fun y => lasting_versions.and (.of_trace Since.later)) ?_
  rintro w inv ⟨versioned, since⟩
  obtain ⟨recent, split, e₀, mem₀, e₁, mem₁, e₂, mem₂, e₃, mem₃, is, bounded⟩ :=
    since.later (lookAt i w)
  have first : lookAt i w ∈ recent := by
    cases recent with
    | nil => exact nomatch mem₀
    | cons e recent =>
        obtain rfl := (List.cons.inj split).1
        exact List.mem_cons_self ..
  exact ⟨versioned.later _ _, recent, split, e₀, mem₀, e₁, mem₁, e₂, mem₂, lookAt i w, first,
    by rw [is], bounded⟩

theorem keeps_live (now₀ : Int) {k : List String → RbacProg A} {R : A → RbacWorld → Prop}
    (rest : ∀ roleIds, Keeps home s₀ i R (k roleIds) (fun w =>
      VersionsRead s₀ i request versions w.trace ∧ Since i request exp past
        (fun now rows₁ _ _ => (request.live now rows₁).map RoleGrant.roleId) roleIds w.trace)) :
    Keeps home s₀ i R
      (do
        let now ← look RbacDb.clock
        let roleIds ← look fun db => (request.live now db.rows).map RoleGrant.roleId
        k roleIds)
      (fun w => ((VersionsRead s₀ i request versions w.trace ∧ past <:+ w.trace) ∧
        now₀ ≤ w.store.clock) ∧ ExpiryRead past request now₀ exp w.store) := by
  have grows (now : Int) (e : RbacEvent) (trace : RbacTrace) (read : ClockRead i past now trace) :
      ClockRead i past now (e :: trace) := by
    obtain ⟨recent, rfl, e', mem, own, clock⟩ := read
    exact ⟨e :: recent, rfl, e', List.mem_cons_of_mem _ mem, own, clock⟩
  refine Safe.bind (R := fun now w => ((VersionsRead s₀ i request versions w.trace ∧
    ClockRead i past now w.trace) ∧ ExpiryRead past request now₀ exp w.store) ∧ now₀ ≤ now)
    ?_ fun now => Safe.bind ?_ rest
  · refine keeps_look (fun now => ?_) ?_
    · exact ((lasting_versions.and (.of_trace (grows now))).and lasting_expiry).and
        ⟨fun _ _ _ h _ _ _ => h, fun _ _ _ h _ => h⟩
    · rintro w inv ⟨⟨⟨versioned, recent, split⟩, early⟩, known⟩
      refine ⟨⟨⟨versioned.later _ _, lookAt i w :: recent, ?_, lookAt i w, List.mem_cons_self ..,
        rfl, rfl⟩, known⟩, early⟩
      rw [World.push_trace, ← split, List.cons_append]
  · refine keeps_look (fun roleIds => lasting_versions.and (.of_trace Since.later)) ?_
    rintro w inv ⟨⟨⟨versioned, recent, split, e₀, mem₀, own, rfl⟩, known⟩, early⟩
    refine ⟨versioned.later _ _, lookAt i w :: recent, ?_, e₀, List.mem_cons_of_mem _ mem₀,
      lookAt i w, List.mem_cons_self .., lookAt i w, List.mem_cons_self .., lookAt i w,
      List.mem_cons_self .., rfl, fun g live t expires granted => ?_⟩
    · rw [World.push_trace, split, List.cons_append]
    · obtain ⟨mem, is⟩ := List.mem_filter.mp live
      simp only [Bool.and_eq_true, expires, Option.all_some, decide_eq_true_eq] at is
      refine ⟨?_, e₀, List.mem_cons_of_mem _ mem₀, own, is.2⟩
      refine (known g t is.1 expires (lt_of_le_of_lt early is.2) granted).resolve_right ?_
      exact fun removed => removed.2 mem

theorem keeps_fn (request : RbacRequest) (now₀ : Int) :
    Keeps home s₀ i (fun v w => VersionsRead s₀ i request versions w.trace ∧
        Since i request exp past request.value v w.trace) request.fn
      (fun w => ((VersionsRead s₀ i request versions w.trace ∧ past <:+ w.trace) ∧
        now₀ ≤ w.store.clock) ∧ ExpiryRead past request now₀ exp w.store) := by
  obtain ⟨kind, tenantId, actorType, actorId⟩ := request
  cases kind with
  | perms =>
      refine keeps_live now₀ fun roleIds => ?_
      split
      · rename_i none
        refine fun w inv holds => ⟨holds.1, holds.2.map fun now rows₁ rows₂ rows₃ is => ?_⟩
        simp only [RbacRequest.value, ← is, List.isEmpty_iff.mp none]
        simp [RbacRequest.joinedPermissions, RbacRequest.permissionKeys]
      · refine Safe.bind (keeps_second RbacRequest.joinedPermissions roleIds) fun joins => ?_
        split
        · rename_i none
          refine fun w inv holds => ⟨holds.1, holds.2.map fun now rows₁ rows₂ rows₃ is => ?_⟩
          simp only [RbacRequest.value, ← is, List.isEmpty_iff.mp none]
          simp [RbacRequest.permissionKeys]
        · refine Safe.bind (keeps_third RbacRequest.permissionKeys joins) fun keys => ?_
          refine fun w inv holds => ⟨holds.1, holds.2.map fun now rows₁ rows₂ rows₃ is => ?_⟩
          rw [is]
          rfl
  | roles =>
      refine keeps_live now₀ fun roleIds => ?_
      split
      · rename_i none
        refine fun w inv holds => ⟨holds.1, holds.2.map fun now rows₁ rows₂ rows₃ is => ?_⟩
        simp only [RbacRequest.value, ← is, List.isEmpty_iff.mp none]
        simp [RbacRequest.roleNames]
      · refine Safe.bind (keeps_second RbacRequest.roleNames roleIds) fun names => ?_
        refine fun w inv holds => ⟨holds.1, holds.2.map fun now rows₁ rows₂ rows₃ is => ?_⟩
        rw [is]
        rfl

end Live

theorem capped_earliest {request : RbacRequest} {now t : Int} {rows : RbacRows} {g : RoleGrant}
    (mem : g ∈ rows.grants request.actorType) (sees : request.sees g = true)
    (expires : g.expiresAt = some t) (live : now < t) :
    Capped (request.earliestExpiry now rows) t := by
  have counts : t ∈ ((rows.grants request.actorType).filter request.sees).filterMap fun g =>
      g.expiresAt.filter (now < ·) :=
    List.mem_filterMap.mpr ⟨g, List.mem_filter.mpr ⟨mem, sees⟩, by simp [expires, live]⟩
  unfold RbacRequest.earliestExpiry
  generalize ((rows.grants request.actorType).filter request.sees).filterMap (fun g =>
    g.expiresAt.filter (now < ·)) = deadlines at counts
  cases least : deadlines.min? with
  | none =>
      rw [List.min?_eq_none_iff.mp least] at counts
      exact nomatch counts
  | some x => exact ⟨x, rfl, (List.min?_eq_some_iff.mp least).2 t counts⟩

theorem keeps_resolveMiss {request : RbacRequest} (tenant : request.tenantId ≠ some platformScope)
    (versions : Versions) :
    Keeps home s₀ i (fun v w => VersionsRead s₀ i request versions w.trace ∧
        Sourced s₀ request versions v (AtWork i) w.trace)
      (request.resolveMiss (request.key versions))
      (fun w => VersionsRead s₀ i request versions w.trace) := by
  -- What has happened when the versions are read is fixed here.
  refine Safe.weaken (P := fun w => ∃ past, (VersionsRead s₀ i request versions w.trace ∧
    past <:+ w.trace) ∧ ∀ r ∈ request.reads versions, r.2 ≤ s₀.versions r.1 + bumps r.1 past) ?_
    fun w inv read => ⟨w.trace, ⟨read, List.suffix_refl _⟩, fun r mem => (read.1 r mem).2⟩
  refine Safe.exists_entry fun past => Safe.of_fact (fun w inv holds => holds.2) fun counted => ?_
  have suffixed : Lasting home s₀ (fun w => past <:+ w.trace) :=
    .of_trace fun e trace suffix => suffix.trans (List.suffix_cons ..)
  refine Safe.bind (R := fun exp w => ∃ now₀, ((VersionsRead s₀ i request versions w.trace ∧
    past <:+ w.trace) ∧ now₀ ≤ w.store.clock) ∧ ExpiryRead past request now₀ exp w.store) ?_ ?_
  · -- The earliest deadline.
    refine Safe.bind (R := fun now₀ w => (VersionsRead s₀ i request versions w.trace ∧
      past <:+ w.trace) ∧ now₀ ≤ w.store.clock) ?_ fun now₀ => ?_
    · refine keeps_look (fun now₀ => (lasting_versions.and suffixed).and (lasting_clock now₀)) ?_
      rintro w inv ⟨⟨read, suffix⟩, -⟩
      exact ⟨⟨read.later _ _, suffix.trans (List.suffix_cons ..)⟩, le_refl _⟩
    · refine Safe.post (Q := fun exp w => ((VersionsRead s₀ i request versions w.trace ∧
        past <:+ w.trace) ∧ now₀ ≤ w.store.clock) ∧ ExpiryRead past request now₀ exp w.store) ?_
        fun exp w holds => ⟨now₀, holds⟩
      refine keeps_look (fun exp => ((lasting_versions.and suffixed).and (lasting_clock now₀)).and
        lasting_expiry) ?_
      rintro w inv ⟨⟨read, suffix⟩, early⟩
      refine ⟨⟨⟨read.later _ _, suffix.trans (List.suffix_cons ..)⟩, early⟩,
        fun g t sees expires live granted => ?_⟩
      by_cases mem : g ∈ w.store.rows.grants request.actorType
      · exact .inl (capped_earliest mem sees expires live)
      · obtain ⟨C, inPast, drawn⟩ := granted
        exact .inr ⟨inv.kept C (suffix.subset inPast) drawn, mem⟩
  · -- The resolution and the entry.
    refine fun exp => Safe.exists_entry fun now₀ => Safe.bind (keeps_fn request now₀) fun v => ?_
    have kept : Lasting home s₀ (fun w => VersionsRead s₀ i request versions w.trace ∧
        Since i request exp past request.value v w.trace) :=
      lasting_versions.and (.of_trace Since.later)
    have source (w : RbacWorld) (since : Since i request exp past request.value v w.trace) :
        Sourced s₀ request versions v (fun recent t => Capped exp t ∧ AtWork i recent t) w.trace := by
      obtain ⟨recent, split, read⟩ := since
      exact ⟨recent, past, split, counted, read⟩
    refine Safe.bind (R := fun _ w => VersionsRead s₀ i request versions w.trace ∧
      Since i request exp past request.value v w.trace) ?_ fun now => ?_
    · exact keeps_look (fun _ => kept) fun w inv holds => ⟨holds.1.later _ _, holds.2.later _ _⟩
    · split
      · refine Safe.bind (R := fun _ w => VersionsRead s₀ i request versions w.trace ∧
          Since i request exp past request.value v w.trace) ?_ fun _ => ?_
        · refine Safe.update (fun _ => kept.stable i) fun w inv holds _ => ?_
          have step : CacheStep home ⟨i, .set (request.key versions) { v, exp }
              (RbacRequest.ttlSec now exp), w.store, RbacLabel.act (.set (request.key versions)
                { v, exp } (RbacRequest.ttlSec now exp)) w.store⟩ := ⟨rfl, trivial, nofun⟩
          refine ⟨inv.push rfl step ?_, step, holds.1.later _ _, holds.2.later _ _⟩
          intro request' versions' tenant' envelope ttlSec label
          obtain ⟨same, rfl, -⟩ := RbacLabel.set.inj label
          obtain ⟨rfl, rfl⟩ := RbacRequest.key_inj tenant tenant' same
          exact (source w holds.2).later _ fun _ _ bounded => bounded.1
        · exact fun w inv holds => ⟨holds.1, (source w holds.2).weaken fun _ _ bounded => bounded.2⟩
      · exact fun w inv holds => ⟨holds.1, (source w holds.2).weaken fun _ _ bounded => bounded.2⟩

theorem keeps_resolve {request : RbacRequest} (tenant : request.tenantId ≠ some platformScope) :
    Keeps home s₀ i (fun v w => ∃ versions, VersionsRead s₀ i request versions w.trace ∧
        Sourced s₀ request versions v (AtWork i) w.trace)
      request.resolve (fun _ => True) := by
  refine Safe.bind (keeps_readVersions request) fun versions => ?_
  refine Safe.bind (R := fun hit w => VersionsRead s₀ i request versions w.trace ∧
    ∀ envelope, hit = some envelope →
      Sourced s₀ request versions envelope.v (fun _ => Capped envelope.exp) w.trace) ?_ fun hit => ?_
  · have lasting (hit : Option Envelope) : Lasting home s₀ (fun w => ∀ envelope,
        hit = some envelope →
          Sourced s₀ request versions envelope.v (fun _ => Capped envelope.exp) w.trace) := by
      refine .of_trace (T := fun trace => ∀ envelope, hit = some envelope →
        Sourced s₀ request versions envelope.v (fun _ => Capped envelope.exp) trace) ?_
      exact fun e trace sourced envelope is => (sourced envelope is).later e fun _ _ capped => capped
    refine keeps_look (fun hit => lasting_versions.and (lasting hit)) fun w inv read => ?_
    refine ⟨read.later _ _, fun envelope hit => ?_⟩
    unfold RbacDb.cached at hit
    split at hit
    · rename_i stored lapses is
      split at hit
      · exact nomatch hit
      · obtain rfl := Option.some.inj hit
        exact (inv.entries request versions tenant stored lapses is).later _ fun _ _ capped => capped
    · exact nomatch hit
  · refine Safe.bind (keeps_mayServe hit) fun served => ?_
    split
    · exact fun w inv holds => ⟨versions, holds.1, holds.2 _ rfl⟩
    · exact (keeps_resolveMiss tenant versions).weaken (fun w inv holds => holds.1)
        |>.post fun v w holds => ⟨versions, holds⟩

theorem keeps_write (w : RbacWrite)
    (targeted : ∀ f ∈ w.changes, Targeted home w.invalidation.versionKey f) :
    Keeps home s₀ i (fun _ _ => True) w.program (fun _ => True) := by
  have always : Stable (rbacSystem home).env (CacheInv home s₀) (CacheStep home) i
      (fun _ => True) := ⟨fun _ _ _ _ _ _ _ _ => trivial, fun _ _ _ _ _ => trivial⟩
  obtain ⟨changes, invalidation⟩ := w
  unfold RbacWrite.program
  dsimp only at targeted ⊢
  induction changes with
  | nil =>
      refine Safe.update (fun _ => always) fun w inv _ _ => ?_
      have step : CacheStep home ⟨i, .increment invalidation.versionKey, w.store,
        RbacLabel.act (.increment invalidation.versionKey) w.store⟩ := ⟨rfl, trivial, nofun⟩
      exact ⟨inv.push rfl step nofun, step, trivial⟩
  | cons f rest ih =>
      refine Safe.bind (R := fun _ _ => True) ?_ fun _ =>
        ih fun f' mem => targeted f' (List.mem_cons_of_mem _ mem)
      refine Safe.update (fun _ => always) fun w inv _ allowed => ?_
      have step : CacheStep home ⟨i, .change invalidation.versionKey f, w.store,
          RbacLabel.act (.change invalidation.versionKey f) w.store⟩ := by
        refine ⟨rfl, allowed, fun target f' label => ?_⟩
        obtain ⟨rfl, rfl⟩ := RbacLabel.change.inj label
        exact targeted f (List.mem_cons_self ..)
      exact ⟨inv.push rfl step nofun, step, trivial⟩

end Programs

/-! ## Runs -/

/-- A store with an empty cache, in which the ids of the grants are drawn and no role is granted
outside its home. -/
structure RbacStart (home : String → String) (db : RbacDb) : Prop where
  drawn : ∀ g ∈ db.rows.allGrants, g.id ∈ db.drawnGrants
  atHome : RolesAtHome home db.rows
  empty : ∀ key, db.entries key = none

def Answered (s₀ : RbacDb) (i : Nat) : RbacAnswer → RbacWorld → Prop
  | .resolved request v, w => ∃ versions, VersionsRead s₀ i request versions w.trace ∧
      Sourced s₀ request versions v (AtWork i) w.trace
  | .written, _ => True

theorem rbac_discipline (home : String → String) (s₀ : RbacDb) (start : RbacStart home s₀) :
    Discipline (rbacSystem home) (CacheInv home s₀) (CacheStep home) (Answered s₀) s₀ where
  init := by
    refine ⟨fun key => rfl, start.drawn, List.forall_mem_nil _, List.forall_mem_nil _,
      List.Pairwise.nil, start.atHome, List.forall_mem_nil _, ?_⟩
    intro request versions _ envelope lapses is
    rw [start.empty] at is
    exact nomatch is
  env := fun w db inv may => inv.env may
  start := fun i p may => by
    refine ⟨fun _ => True, ⟨fun _ _ _ _ _ _ _ _ => trivial, fun _ _ _ _ _ => trivial⟩,
      fun _ _ _ => trivial, ?_⟩
    rcases may with ⟨request, tenant, rfl⟩ | ⟨write, targeted, rfl⟩
    · exact Safe.bind (keeps_resolve tenant) fun v w inv holds => holds
    · exact Safe.bind (keeps_write write targeted) fun _ w inv holds => trivial

section Answers

variable {home : String → String} {s₀ : RbacDb} {request : RbacRequest}

theorem reads_of_covers {versions : Versions} {target : VersionKey}
    (platform : request.dependsOnPlatform = true → versions.platform.isSome = true)
    (covers : request.covers target = true) : ∃ n, (target, n) ∈ request.reads versions := by
  simp only [RbacRequest.covers, Bool.or_eq_true, Bool.and_eq_true, decide_eq_true_eq] at covers
  rcases covers with (rfl | rfl) | ⟨depends, rfl⟩
  · exact ⟨_, List.mem_cons_self ..⟩
  · exact ⟨_, List.mem_cons_of_mem _ (List.mem_cons_self ..)⟩
  · obtain ⟨n, is⟩ := Option.isSome_iff_exists.mp (platform depends)
    exact ⟨n, List.mem_append_right _ (by simp [is])⟩

/-- What a process has read, in a run in which its first step comes after an invalidation that
covers it, was resolved after that invalidation. -/
theorem after_invalidation {i : Nat} {versions : Versions} {trace since rest recent past : RbacTrace}
    {K : RbacEvent} {target : VersionKey} (invalidated : K.label = .increment target)
    (split : trace = since ++ K :: rest) (starts : ∀ e ∈ K :: rest, e.tid ≠ i)
    (covers : request.covers target = true) (read : VersionsRead s₀ i request versions trace)
    (split' : trace = recent ++ past)
    (counted : ∀ r ∈ request.reads versions, r.2 ≤ s₀.versions r.1 + bumps r.1 past) :
    K :: rest <:+ past := by
  have suffix : K :: rest <:+ trace := ⟨since, split.symm⟩
  obtain ⟨n, mem⟩ := reads_of_covers read.2 covers
  obtain ⟨⟨e, earlier, suffix', own, least⟩, -⟩ := read.1 _ mem
  have most := counted _ mem
  -- The first step of the process comes after the invalidation, and so does its read.
  have within : K :: rest <:+ earlier := by
    rcases List.suffix_or_suffix_of_suffix suffix' suffix with before | after
    · exact absurd own (starts e (before.subset (List.mem_cons_self ..)))
    · rcases List.suffix_cons_iff.mp after with same | within
      · exact absurd own (starts e (same ▸ List.mem_cons_self ..))
      · exact within
  refine suffix_of_bumps invalidated suffix ⟨recent, split'.symm⟩ ?_
  have fewer := bumps_suffix target within
  dsimp only at least most
  omega

theorem filter_eq_of_imp {A : Type} {p q : A → Bool} {l l' : List A}
    (same : l'.filter q = l.filter q) (imp : ∀ a, p a = true → q a = true) :
    l'.filter p = l.filter p := by
  have narrow (l : List A) : l.filter p = (l.filter q).filter p := by
    rw [List.filter_filter]
    refine List.filter_congr fun a _ => ?_
    by_cases is : p a = true
    · simp [is, imp a is]
    · simp [is]
  rw [narrow l', narrow l, same]

theorem covers_platform (admin : request.actorType = .admin) :
    request.covers (.scope platformScope) = true := by
  by_cases platform : scopeLabel request.tenantId = platformScope
  · simp [RbacRequest.covers, platform]
  · simp [RbacRequest.covers, RbacRequest.dependsOnPlatform, admin, platform]

theorem covers_grant {g : RoleGrant} (sees : request.sees g = true) :
    request.covers (.scope (scopeLabel g.tenantId)) = true := by
  unfold RbacRequest.sees at sees
  split at sees
  · rename_i admin
    simp only [Bool.and_eq_true, List.contains_iff_mem, adminGrantTenantFilter] at sees
    have platform : g.tenantId = none → request.covers (.scope (scopeLabel g.tenantId)) = true := by
      intro none
      rw [none]
      exact covers_platform admin
    split at sees
    · rename_i id scope
      split at sees
      · exact platform (List.mem_singleton.mp sees.2)
      · rcases List.mem_cons.mp sees.2 with none | own
        · exact platform none
        · simp [RbacRequest.covers, List.mem_singleton.mp own, scope]
    · exact platform (List.mem_singleton.mp sees.2)
  · simp only [Bool.and_eq_true, decide_eq_true_eq] at sees
    simp [RbacRequest.covers, sees.1]

theorem covers_home {g : RoleGrant} {rows : RbacRows} (atHome : RolesAtHome home rows)
    (mem : g ∈ rows.grants request.actorType) (sees : request.sees g = true) :
    request.covers (.scope (home g.roleId)) = true := by
  cases actorType : request.actorType with
  | admin =>
      rw [actorType] at mem
      rw [atHome.adminRoles g mem]
      exact covers_platform actorType
  | user =>
      rw [actorType] at mem
      rw [atHome.userRoles g mem]
      exact covers_grant sees

/-- A change of a scope that does not cover the request changes nothing that it reads. -/
theorem value_of_other_scope {label : String} {f : RbacRows → RbacRows}
    (ofScope : ∀ rows, OfScope home label rows (f rows))
    (uncovered : request.covers (.scope label) = false) (now : Int) {rows₁ : RbacRows}
    (atHome : RolesAtHome home rows₁) (rows₂ rows₃ : RbacRows) :
    request.value now rows₁ rows₂ rows₃ = request.value now (f rows₁) (f rows₂) (f rows₃) := by
  have other (g : RoleGrant) (sees : request.sees g = true) : scopeLabel g.tenantId ≠ label := by
    rintro rfl
    exact absurd (covers_grant sees) (by simp [uncovered])
  have live : request.live now (f rows₁) = request.live now rows₁ := by
    unfold RbacRequest.live RbacRows.grants
    split
    · exact filter_eq_of_imp (ofScope rows₁).adminRoles fun g is => by
        simp only [Bool.and_eq_true] at is
        simpa using other g is.1
    · exact filter_eq_of_imp (ofScope rows₁).userRoles fun g is => by
        simp only [Bool.and_eq_true] at is
        simpa using other g is.1
  have away (id : String) (mem : ((request.live now rows₁).map RoleGrant.roleId).contains id = true) :
      home id ≠ label := by
    obtain ⟨g, counts, rfl⟩ := List.mem_map.mp (List.contains_iff_mem.mp mem)
    obtain ⟨mem, is⟩ := List.mem_filter.mp counts
    simp only [Bool.and_eq_true] at is
    rintro rfl
    exact absurd (covers_home atHome mem is.1) (by simp [uncovered])
  have joins : RbacRequest.joinedPermissions ((request.live now rows₁).map RoleGrant.roleId) (f rows₂) =
      RbacRequest.joinedPermissions ((request.live now rows₁).map RoleGrant.roleId) rows₂ :=
    congrArg (List.map RolePermission.permissionId) (filter_eq_of_imp (ofScope rows₂).rolePermissions fun join is => by
      simpa using away join.roleId is)
  have names : RbacRequest.roleNames ((request.live now rows₁).map RoleGrant.roleId) (f rows₂) =
      RbacRequest.roleNames ((request.live now rows₁).map RoleGrant.roleId) rows₂ :=
    congrArg (List.map Role.name) (filter_eq_of_imp (ofScope rows₂).roles fun role is => by
      simpa using away role.id is)
  simp only [RbacRequest.value, live, joins, names]
  rw [RbacRequest.permissionKeys, RbacRequest.permissionKeys, (ofScope rows₃).permissions]

theorem created_in_scope {label : String} {rows rows' : RbacRows} {g : RoleGrant}
    (ofScope : OfScope home label rows rows') (created : g ∈ rows'.allGrants)
    (fresh : g ∉ rows.allGrants) : scopeLabel g.tenantId = label := by
  by_contra other
  have kept {l l' : List RoleGrant} (same : l'.filter (scopeLabel ·.tenantId ≠ label) =
      l.filter (scopeLabel ·.tenantId ≠ label)) (mem : g ∈ l') : g ∈ l := by
    have is : g ∈ l'.filter (scopeLabel ·.tenantId ≠ label) :=
      List.mem_filter.mpr ⟨mem, by simpa using other⟩
    rw [same] at is
    exact List.mem_of_mem_filter is
  exact fresh (List.mem_append.mpr ((List.mem_append.mp created).imp (kept ofScope.adminRoles)
    (kept ofScope.userRoles)))

theorem value_without {gone : RoleGrant → Bool} {now : Int} {rows₁ : RbacRows}
    (unused : ∀ g ∈ request.live now rows₁, gone g = false) (rows₂ rows₃ : RbacRows) :
    request.value now rows₁ rows₂ rows₃ = request.value now (rows₁.withoutGrants gone)
      (rows₂.withoutGrants gone) (rows₃.withoutGrants gone) := by
  have live : request.live now (rows₁.withoutGrants gone) = request.live now rows₁ := by
    have grants : (rows₁.withoutGrants gone).grants request.actorType =
        (rows₁.grants request.actorType).filter fun g => !gone g := by
      cases request.actorType <;> rfl
    unfold RbacRequest.live at unused ⊢
    rw [grants, List.filter_filter]
    refine List.filter_congr fun g mem => ?_
    by_cases counts : (request.sees g && g.expiresAt.all (now < ·)) = true
    · rw [counts, unused g (List.mem_filter.mpr ⟨mem, counts⟩)]
      rfl
    · rw [Bool.eq_false_of_not_eq_true counts, Bool.false_and]
  simp only [RbacRequest.value, live]
  rfl

end Answers

/-- A resolution that starts after an invalidation has finished computes what it returns from rows
found after it; where the invalidation is of another scope, the write would not change what it
returns. And no resolution that takes its steps after the deadline of a grant, whose creation and
invalidation were finished by then, returns anything that the others do not give. -/
theorem revoked_never_served (home : String → String) (s₀ : RbacDb) (start : RbacStart home s₀)
    (c : Config Nat RbacLabel RbacDb RbacAnswer) (reach : (rbacSystem home).Reach s₀ c) (i : Nat)
    (request : RbacRequest) (v : List String)
    (returned : c.pool i = some (.done (.resolved request v))) (since middle before : RbacTrace)
    (K C : RbacEvent) (target : VersionKey) (f : RbacRows → RbacRows)
    (split : c.world.trace = since ++ K :: (middle ++ C :: before))
    (changed : C.label = .change target f) (invalidated : K.label = .increment target) :
    ((∀ e ∈ K :: (middle ++ C :: before), e.tid ≠ i) →
      (request.covers target = true → Computed id since request v) ∧
      (request.covers target = false → Computed f c.world.trace request v)) ∧
    ∀ g t, g ∈ C.after.rows.allGrants → g ∉ C.before.rows.allGrants → g.expiresAt = some t →
      K.before.clock < t → (∀ e ∈ c.world.trace, e.tid = i → t ≤ e.before.clock) →
        Computed (RbacRows.withoutGrants (· = g)) c.world.trace request v := by
  have rule := rbac_discipline home s₀ start
  have held := reach.sound rule
  have inv := held.inv
  obtain ⟨versions, read, recent, past, split', counted, e₀, mem₀, e₁, mem₁, e₂, mem₂, e₃, mem₃, is,
    bounded⟩ := reach.result rule returned
  have all {e : RbacEvent} (mem : e ∈ recent) : e ∈ c.world.trace :=
    split' ▸ List.mem_append_left _ mem
  have inTrace : C ∈ c.world.trace := by simp [split]
  have step := held.events C inTrace
  refine ⟨fun starts => ⟨fun covers => ?_, fun uncovered => ?_⟩, ?_⟩
  · obtain ⟨newer, rfl⟩ := after_invalidation invalidated split starts covers read split' counted
    have split : since = recent ++ newer := by
      rw [split', ← List.append_assoc] at split
      exact (List.append_cancel_right split).symm
    subst split
    exact ⟨e₀, List.mem_append_left _ mem₀, e₁, List.mem_append_left _ mem₁, e₂,
      List.mem_append_left _ mem₂, e₃, List.mem_append_left _ mem₃, is⟩
  · cases target with
    | global => exact nomatch uncovered
    | scope label =>
        have ofScope := step.targeted _ f changed
        refine ⟨e₀, all mem₀, e₁, all mem₁, e₂, all mem₂, e₃, all mem₃, is.trans ?_⟩
        exact value_of_other_scope ofScope uncovered _ (inv.foundAtHome e₁ (all mem₁)) _ _
  · intro g t created fresh expires early late
    refine ⟨e₀, all mem₀, e₁, all mem₁, e₂, all mem₂, e₃, all mem₃, is.trans ?_⟩
    refine value_without (fun g' live => ?_) _ _
    by_contra same
    obtain rfl : g' = g := by simpa using same
    obtain ⟨mem, counts⟩ := List.mem_filter.mp live
    simp only [Bool.and_eq_true] at counts
    -- The process starts after the deadline, so after the invalidation.
    have starts : ∀ e ∈ K :: (middle ++ C :: before), e.tid ≠ i := by
      intro e inPast own
      have reached := late e (split ▸ List.mem_append_right _ inPast) own
      have ordered := inv.ordered
      rw [split] at ordered
      rcases List.mem_cons.mp inPast with rfl | earlier
      · omega
      · have := (List.pairwise_cons.mp (List.pairwise_append.mp ordered).2.1).1 e earlier
        omega
    cases covers : request.covers target with
    | true =>
        have within := after_invalidation invalidated split starts covers read split' counted
        have drawn : g'.id ∈ C.after.drawnGrants := by
          rw [step.acts, changed] at created ⊢
          exact List.mem_append_left _ (List.mem_map_of_mem created)
        obtain ⟨e, atWork, own, reached⟩ := bounded g' live t expires
          ⟨C, within.subset (by simp), drawn⟩
        exact absurd (late e (all atWork) own) (by omega)
    | false =>
        cases target with
        | global => exact nomatch covers
        | scope label =>
            have ofScope := step.targeted _ f changed C.before.rows
            have rows : C.after.rows = f C.before.rows := by
              rw [step.acts, changed]
              rfl
            have own := created_in_scope ofScope (rows ▸ created) fresh
            rw [← own, covers_grant counts.1] at covers
            exact nomatch covers

namespace TemporaryGrant

/-- All roles are platform roles. -/
def home (_ : String) : String := platformScope

def viewing : RoleGrant where
  id := "grant-1"
  actorId := "admin-1"
  tenantId := none
  roleId := "role-1"
  expiresAt := none

def operating : RoleGrant :=
  { viewing with id := "grant-2", roleId := "role-2", expiresAt := some 1700000060000 }

def store : RbacDb where
  clock := 1700000000000
  rows :=
    { adminRoles := [viewing], userRoles := [], rolePermissions := [], permissions := []
      roles := [⟨"role-1", "viewer"⟩, ⟨"role-2", "operator"⟩] }
  versions := fun _ => 0
  entries := fun _ => none
  drawnGrants := ["grant-1"]

def request : RbacRequest where
  kind := .roles
  tenantId := none
  actorType := .admin
  actorId := "admin-1"

def grant (rows : RbacRows) : RbacRows := { rows with adminRoles := operating :: rows.adminRoles }

def granting : RbacWrite where
  changes := [grant]
  invalidation := .scope none

abbrev Moves := List (Move Nat RbacLabel RbacDb RbacAnswer)

/-- A resolution, with the number of steps it takes. -/
def resolving (i steps : Nat) : Moves :=
  .start i (request.resolve >>= fun v => pure (.resolved request v)) :: List.replicate steps (.act i)

def writing : Moves :=
  .start 0 (granting.program >>= fun _ => pure .written) :: List.replicate 2 (.act 0)

def granted : Config Nat RbacLabel RbacDb RbacAnswer := writing.foldl Config.move (.idle store)

/-- A resolution that stores the set with the grant. -/
def cached : Config Nat RbacLabel RbacDb RbacAnswer := (resolving 1 10).foldl Config.move granted

def deadline : RbacDb := { cached.world.store with clock := 1700000060000 }

/-- A resolution after the deadline. -/
def lapsed : Config Nat RbacLabel RbacDb RbacAnswer :=
  (.env deadline :: resolving 2 10).foldl Config.move cached

theorem started : RbacStart home store := by
  refine ⟨fun g mem => ?_, by decide, fun _ => rfl⟩
  obtain rfl := List.mem_singleton.mp mem
  decide

theorem reached : (rbacSystem home).Reach store lapsed := by
  have granted : (rbacSystem home).Reach store granted := by
    refine Reach.moves .init ⟨⟨rfl, .inr ⟨granting, fun f mem => ?_, rfl⟩⟩, by decide +kernel⟩
    obtain rfl := List.mem_singleton.mp mem
    exact fun rows => ⟨rfl, rfl, rfl, rfl, rfl⟩
  have cached : (rbacSystem home).Reach store cached :=
    granted.moves ⟨⟨rfl, .inl ⟨request, nofun, rfl⟩⟩, by decide +kernel⟩
  refine cached.moves ⟨⟨by decide +kernel, fun _ => false, nofun, ?_⟩,
    ⟨rfl, .inl ⟨request, nofun, rfl⟩⟩, by decide +kernel⟩
  rfl

end TemporaryGrant

open TemporaryGrant in
/-- The grant has lapsed, and what was stored with it is not served. -/
theorem revoked_never_served_lapsed :
    lapsed.pool 2 = some (.done (.resolved request (RbacRequest.sortedSet ["viewer"]))) ∧
      Computed (RbacRows.withoutGrants (· = operating)) lapsed.world.trace request
        (RbacRequest.sortedSet ["viewer"]) := by
  have returned : lapsed.pool 2 = some (.done (.resolved request (RbacRequest.sortedSet ["viewer"]))) := rfl
  refine ⟨returned, (revoked_never_served home store started lapsed reached 2 request _ returned
    (lapsed.world.trace.take 20) [] [] ⟨0, .increment (.scope platformScope), _, _⟩
    ⟨0, .change (.scope platformScope) grant, _, _⟩ _ grant rfl rfl rfl).2 operating
    1700000060000 ?_ ?_ rfl ?_ ?_⟩
  all_goals decide +kernel

end AnalyticsBackend.Rbac
