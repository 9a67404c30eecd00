import AnalyticsBackend.Support.Runs

/-!
# The invariants of support access

Which grants are in use, which sessions were opened under them, which of these are live once a grant
is revoked, and how many slots a process has left.
-/

namespace AnalyticsBackend.Support
open Lib System Platform

/-! ## Approval -/

def eligible (admin : Admin) : Bool :=
  admin.adminType = .super && unscoped admin && admin.status = .active

def HasRead (events : List SupportEvent) (adminId : String) : Prop :=
  ∃ e ∈ events, ∃ a ∈ e.before.admins, a.id = adminId ∧ eligible a = true

/-- A grant was approved by an admin whom the process has found eligible. -/
def ApprovedBy (trace : List SupportEvent) (grantId approver : String) : Prop :=
  ∃ e ∈ trace, (∃ tenantId now reason expiresAt,
      e.label = .transitionGrant grantId tenantId (.approve approver now reason expiresAt)) ∧
    HasRead (trace.filter fun e' => e'.tid = e.tid) approver

/-- Another admin than the requester has approved a grant, at a time or before it. -/
def FourEyes (trace : List SupportEvent) (grant : SupportGrant) (requester : String) (time : Int) :
    Prop :=
  grant.requestedBy = some requester ∧ ∃ approver decidedAt, approver ≠ requester ∧
    grant.decidedBy = some approver ∧ grant.decidedAt = some decidedAt ∧ decidedAt ≤ time ∧
    ApprovedBy trace grant.grantId approver

def UsedBy (w : SupportWorld) (grantId adminId : String) (expiresAt time : Int) : Prop :=
  ∃ grant ∈ w.store.grants, grant.grantId = grantId ∧ grant.used = true ∧
    grant.expiresAt = some expiresAt ∧
    (grant.kind = .breakGlass → FourEyes w.trace grant adminId time)

structure OpeningSound (w : SupportWorld) (o : Opening) : Prop where
  used : ∃ expiresAt, UsedBy w o.grantId o.session.impersonatedBy expiresAt o.startedAt ∧
    (o.expiresAt ≤ expiresAt ↔ o.startedAt + 1000 ≤ expiresAt)
  session : o.session.expiresAt ≤ o.expiresAt

def RecordOf (trace : List SupportEvent) (r : SupportImpersonation) : Prop :=
  ∃ o ∈ openings trace, r.sessionId = o.session.sessionId ∧ r.adminId = o.session.impersonatedBy ∧
    r.grantId = o.grantId ∧ r.startedAt = o.startedAt ∧ r.expiresAt = o.expiresAt

/-- A process has the slot left that it spends. -/
def Spendable (cap : Int) (w : SupportWorld) (i : Nat) (spent : String × Int) : Prop :=
  lastSlot cap (w.own i) = some spent → sameDay cap (w.own i) = true →
    1 ≤ ((w.own i).map (share cap spent.1 spent.2)).sum

/-- Ids are unique, break-glass grants have been requested, and active ones are approved. -/
structure GrantsInv (w : SupportWorld) : Prop where
  ids : (w.store.grants.map SupportGrant.grantId).Nodup
  requested : ∀ g ∈ w.store.grants, g.kind = .breakGlass → g.requestedBy.isSome = true
  approved : ∀ g ∈ w.store.grants, g.status = .active → g.expiresAt.isSome = true ∧
    (g.kind = .breakGlass → ∃ requester, FourEyes w.trace g requester w.store.clock)

/-- Sessions were opened under grants that were in use; under a revoked grant none is live that has no
record. -/
structure SessionsInv (w : SupportWorld) : Prop where
  opened : ∀ o ∈ openings w.trace, OpeningSound w o
  present : ∀ o ∈ openings w.trace, ∃ s ∈ w.store.sessions, s.sessionId = o.session.sessionId
  records : ∀ r ∈ w.store.records, RecordOf w.trace r
  known : cleanThroughout w.trace = true → ∀ o ∈ openings w.trace,
    w.store.revoked o.grantId = true → w.store.live o.session.sessionId = true →
      w.store.recorded o.session.sessionId o.grantId = true

/-- Slots are counted up to the cap, and each process spends what it has taken. -/
structure BudgetInv (cap : Int) (w : SupportWorld) : Prop where
  counted : ∀ adminId day, ((startedOn w.store adminId day).length : Int) +
    (w.trace.map (share cap adminId day)).sum ≤ w.store.counters adminId day
  capped : ∀ adminId day, (w.store.counters adminId day : Int) ≤ max 0 cap
  spent : ∀ i, sameDay cap (w.own i) = true → ∀ adminId day,
    0 ≤ ((w.own i).map (share cap adminId day)).sum

structure SupportInv (settings : SupportSettings) (w : SupportWorld) : Prop where
  grants : GrantsInv w
  sessions : SessionsInv w
  budget : BudgetInv settings.dailyCap w

structure SupportStep (settings : SupportSettings) (e : SupportEvent) : Prop where
  acts : e.after = e.label.act settings e.before
  drawn : SupportDrawn e.label e.before e.after

/-- When a step may be taken. -/
def Permitted (settings : SupportSettings) (w : SupportWorld) (i : Nat) : SupportLabel → Prop
  | .createGrant grant =>
      (grant.kind = .consent ∧ grant.status = .active ∧ grant.expiresAt.isSome = true) ∨
        (grant.kind = .breakGlass ∧ grant.status = .pending ∧ grant.requestedBy.isSome = true)
  | .transitionGrant grantId _ (.approve approver now _ _) =>
      now ≤ w.store.clock ∧ HasRead (w.own i) approver ∧
        ∀ g ∈ w.store.grants, g.grantId = grantId → g.requestedBy ≠ some approver
  | .createSession o => OpeningSound w o
  | .createRecord r =>
      RecordOf w.trace r ∧ Spendable settings.dailyCap w i (r.adminId, Calendar.day r.startedAt)
  | .giveBack adminId day => Spendable settings.dailyCap w i (adminId, day)
  | .endRecord sessionId _ _ => w.store.live sessionId = false
  | _ => True

/-! ## Grants in use -/

section Grants

variable {settings : SupportSettings} {w : SupportWorld} {e : SupportEvent}

theorem SupportStep.store (step : SupportStep settings e) (before : e.before = w.store) :
    (w.push e).store = e.label.act settings w.store := by
  rw [World.push_store, step.acts, before]

theorem HasRead.mono {events events' : List SupportEvent} {adminId : String}
    (read : HasRead events adminId) (sub : events ⊆ events') : HasRead events' adminId := by
  obtain ⟨e, mem, a, there, is⟩ := read
  exact ⟨e, sub mem, a, there, is⟩

theorem ApprovedBy.cons {trace : List SupportEvent} {grantId approver : String}
    (approved : ApprovedBy trace grantId approver) (e : SupportEvent) :
    ApprovedBy (e :: trace) grantId approver := by
  obtain ⟨e', mem, label, read⟩ := approved
  refine ⟨e', List.mem_cons_of_mem _ mem, label, read.mono fun x there => ?_⟩
  rw [List.mem_filter] at there ⊢
  exact ⟨List.mem_cons_of_mem _ there.1, there.2⟩

/-- What keeps the parties and the decision of a grant keeps its approval. -/
theorem FourEyes.kept {trace trace' : List SupportEvent} {grant grant' : SupportGrant}
    {requester : String} {time time' : Int} (eyes : FourEyes trace grant requester time)
    (id : grant'.grantId = grant.grantId) (requestedBy : grant'.requestedBy = grant.requestedBy)
    (decidedBy : grant'.decidedBy = grant.decidedBy) (decidedAt : grant'.decidedAt = grant.decidedAt)
    (later : time ≤ time')
    (approved : ∀ approver, ApprovedBy trace grant.grantId approver →
      ApprovedBy trace' grant.grantId approver) :
    FourEyes trace' grant' requester time' := by
  obtain ⟨by_, approver, at_, other, is, when_, before, has⟩ := eyes
  refine ⟨requestedBy.trans by_, approver, at_, other, decidedBy.trans is, decidedAt.trans when_,
    before.trans later, ?_⟩
  rw [id]
  exact approved approver has

theorem UsedBy.push {grantId adminId : String} {expiresAt time : Int}
    (used : UsedBy w grantId adminId expiresAt time) (before : e.before = w.store)
    (step : SupportStep settings e) : UsedBy (w.push e) grantId adminId expiresAt time := by
  obtain ⟨grant, mem, rfl, is, expires, eyes⟩ := used
  obtain ⟨used', expires', by', at'⟩ := @decide_used e.label grant is
  refine ⟨e.label.decide grant, ?_, decide_grantId grant, used', expires'.trans expires, ?_⟩
  · rw [step.store before, act_grants]
    exact List.mem_append_left _ (List.mem_map_of_mem mem)
  · intro kind
    rw [(decide_same grant).1] at kind
    exact (eyes kind).kept (decide_grantId grant) (decide_same grant).2.1 by' at' le_rfl
      fun approver approved => approved.cons e

theorem UsedBy.env {grantId adminId : String} {expiresAt time : Int} {db : SupportDb}
    (used : UsedBy w grantId adminId expiresAt time) (outside : SupportOutside w.store db) :
    UsedBy { store := db, trace := w.trace } grantId adminId expiresAt time := by
  obtain ⟨grant, mem, rest⟩ := used
  refine ⟨grant, ?_, rest⟩
  rw [outside.2.1]
  exact mem

theorem UsedBy.later {grantId adminId : String} {expiresAt time time' : Int}
    (used : UsedBy w grantId adminId expiresAt time) (later : time ≤ time') :
    UsedBy w grantId adminId expiresAt time' := by
  obtain ⟨grant, mem, id, is, expires, eyes⟩ := used
  exact ⟨grant, mem, id, is, expires, fun kind => (eyes kind).kept rfl rfl rfl rfl later fun _ has => has⟩

theorem act_clock (label : SupportLabel) (db : SupportDb) :
    (label.act settings db).clock = db.clock := by
  cases label with
  | takeSlot =>
      simp only [SupportLabel.act]
      split <;> rfl
  | _ => rfl

theorem FourEyes.approve (inv : GrantsInv w) (may : Permitted settings w e.tid e.label)
    {grant : SupportGrant} (mem : grant ∈ w.store.grants) (kind : grant.kind = .breakGlass)
    {tenantId : Option String} {approver reason : String} {now expiresAt : Int}
    (label : e.label = .transitionGrant grant.grantId tenantId (.approve approver now reason expiresAt)) :
    ∃ requester, FourEyes (e :: w.trace)
      ((GrantDecision.approve approver now reason expiresAt).apply grant) requester w.store.clock := by
  rw [label] at may
  obtain ⟨before, read, other⟩ := may
  obtain ⟨requester, by_⟩ := Option.isSome_iff_exists.mp (inv.requested grant mem kind)
  have apart : approver ≠ requester := by
    rintro rfl
    exact other grant mem rfl by_
  refine ⟨requester, by_, approver, now, apart, rfl, rfl, before, e, List.mem_cons_self, ?_, ?_⟩
  · exact ⟨tenantId, now, reason, expiresAt, label⟩
  · refine read.mono fun x there => ?_
    have old : x ∈ w.trace.filter fun e' => e'.tid = e.tid := there
    rw [List.mem_filter] at old ⊢
    exact ⟨List.mem_cons_of_mem _ old.1, old.2⟩

theorem GrantsInv.push (inv : GrantsInv w) (before : e.before = w.store)
    (step : SupportStep settings e) (may : Permitted settings w e.tid e.label) :
    GrantsInv (w.push e) := by
  have grants : (w.push e).store.grants = w.store.grants.map e.label.decide ++ e.label.newGrant := by
    rw [step.store before, act_grants]
  have clock : (w.push e).store.clock = w.store.clock := by rw [step.store before, act_clock]
  have new (g : SupportGrant) (mem : g ∈ e.label.newGrant) : e.label = .createGrant g := by
    cases label : e.label with
    | createGrant grant =>
        rw [label] at mem
        rw [List.mem_singleton.mp mem]
    | _ =>
        rw [label] at mem
        exact absurd mem List.not_mem_nil
  refine ⟨?_, fun g mem kind => ?_, fun g mem active => ?_⟩
  · have ids : (w.store.grants.map e.label.decide).map SupportGrant.grantId =
        w.store.grants.map SupportGrant.grantId := by
      rw [List.map_map]
      exact List.map_congr_left fun g _ => decide_grantId g
    rw [grants, List.map_append, ids, List.nodup_append]
    refine ⟨inv.ids, ?_, fun id old id' fresh => ?_⟩
    · cases e.label <;> simp [SupportLabel.newGrant]
    · obtain ⟨g', mem', rfl⟩ := List.mem_map.mp fresh
      obtain ⟨g, mem, rfl⟩ := List.mem_map.mp old
      have drawn := step.drawn
      rw [new g' mem', before] at drawn
      exact drawn g mem
  · rw [grants] at mem
    rcases List.mem_append.mp mem with old | fresh
    · obtain ⟨g, was, rfl⟩ := List.mem_map.mp old
      rw [(decide_same g).2.1]
      rw [(decide_same g).1] at kind
      exact inv.requested g was kind
    · rw [new g fresh] at may
      rcases may with ⟨consent, -⟩ | ⟨-, -, requested⟩
      · rw [consent] at kind
        cases kind
      · exact requested
  · rw [grants] at mem
    rw [clock]
    rcases List.mem_append.mp mem with old | fresh
    · obtain ⟨g, was, rfl⟩ := List.mem_map.mp old
      rcases decide_active active with same | ⟨tenantId, approver, now, reason, expiresAt, label, is⟩
      · rw [same] at active ⊢
        obtain ⟨expires, eyes⟩ := inv.approved g was active
        refine ⟨expires, fun kind => ?_⟩
        obtain ⟨requester, has⟩ := eyes kind
        exact ⟨requester, has.kept rfl rfl rfl rfl le_rfl fun approver approved => approved.cons e⟩
      · rw [is]
        refine ⟨rfl, fun kind => ?_⟩
        exact FourEyes.approve inv may was kind label
    · rw [new g fresh] at may
      rcases may with ⟨consent, -, expires⟩ | ⟨-, pending, -⟩
      · exact ⟨expires, fun kind => by cases consent.symm.trans kind⟩
      · cases pending.symm.trans active

theorem GrantsInv.env (inv : GrantsInv w) {db : SupportDb} (outside : SupportOutside w.store db) :
    GrantsInv { store := db, trace := w.trace } := by
  obtain ⟨clock, grants, -⟩ := outside
  refine ⟨?_, ?_, fun g mem active => ?_⟩
  · dsimp only
    rw [grants]
    exact inv.ids
  · dsimp only
    rw [grants]
    exact inv.requested
  · dsimp only at mem ⊢
    rw [grants] at mem
    obtain ⟨expires, eyes⟩ := inv.approved g mem active
    refine ⟨expires, fun kind => ?_⟩
    obtain ⟨requester, has⟩ := eyes kind
    exact ⟨requester, has.kept rfl rfl rfl rfl clock fun _ approved => approved⟩

end Grants

/-! ## Sessions -/

section Sessions

variable {settings : SupportSettings} {w : SupportWorld} {e : SupportEvent}

theorem mem_openings_cons {o : Opening} {trace : List SupportEvent} :
    o ∈ openings (e :: trace) ↔ e.label.opening = some o ∨ o ∈ openings trace := by
  unfold openings
  cases opens : e.label.opening with
  | none => simp [opens]
  | some opening => simp [opens, eq_comm]

theorem RecordOf.cons {trace : List SupportEvent} {r : SupportImpersonation}
    (of : RecordOf trace r) : RecordOf (e :: trace) r := by
  obtain ⟨o, mem, rest⟩ := of
  exact ⟨o, mem_openings_cons.mpr (.inr mem), rest⟩

theorem opening_eq {label : SupportLabel} {o : Opening} (opens : label.opening = some o) :
    label = .createSession o := by
  cases label with
  | createSession => exact congrArg SupportLabel.createSession (Option.some.inj opens)
  | _ => exact nomatch opens

theorem newGrant_not_revoked {label : SupportLabel} {i : Nat} (may : Permitted settings w i label) :
    ∀ g ∈ label.newGrant, g.status ≠ .revoked := by
  intro g mem
  cases label with
  | createGrant grant =>
      rw [List.mem_singleton.mp mem]
      rcases may with ⟨-, active, -⟩ | ⟨-, pending, -⟩
      · rw [active]
        decide
      · rw [pending]
        decide
  | _ => exact absurd mem List.not_mem_nil

theorem SessionsInv.live_before (inv : SessionsInv w) (before : e.before = w.store)
    (step : SupportStep settings e) {o : Opening} (mem : o ∈ openings w.trace)
    (live : (w.push e).store.live o.session.sessionId = true) :
    w.store.live o.session.sessionId = true := by
  rw [step.store before] at live
  rcases live_act live with was | ⟨opening, opens, same⟩
  · exact was
  · obtain ⟨s, there, id⟩ := inv.present o mem
    have drawn := step.drawn
    rw [opening_eq opens, before] at drawn
    exact absurd (id.trans same.symm) (drawn s there)

theorem recorded_of_clean {o : Opening} (clean : cleanStep w.trace e = true)
    (before : e.before = w.store) (mem : o ∈ openings w.trace) (revoked : o.grantId ∈ revokes e)
    (live : w.store.live o.session.sessionId = true) :
    w.store.recorded o.session.sessionId o.grantId = true := by
  unfold cleanStep at clean
  cases label : e.label with
  | transitionGrant =>
      rw [label] at clean
      have is := List.all_eq_true.mp clean o mem
      simpa [revoked, before, live] using is
  | revokeConsents =>
      rw [label] at clean
      have is := List.all_eq_true.mp clean o mem
      simp [revoked, before, live] at is
  | look | createGrant | takeSlot | giveBack | createSession | revokeSession | createRecord | endRecord =>
      obtain ⟨g, there, -⟩ := List.mem_map.mp revoked
      have is := (List.mem_filter.mp there).2
      rw [label] at is
      simp only [SupportLabel.decide, Bool.and_eq_true, decide_eq_true_eq] at is
      exact absurd (of_decide_eq_true is.2) is.1

theorem SessionsInv.push (inv : SessionsInv w) (before : e.before = w.store)
    (step : SupportStep settings e) (may : Permitted settings w e.tid e.label) :
    SessionsInv (w.push e) := by
  have store := step.store before
  have sound {o : Opening} (is : OpeningSound w o) : OpeningSound (w.push e) o := by
    obtain ⟨expiresAt, used, whole⟩ := is.used
    exact ⟨⟨expiresAt, used.push before step, whole⟩, is.session⟩
  refine ⟨fun o mem => ?_, fun o mem => ?_, fun r mem => ?_, fun clean o mem revoked live => ?_⟩
  · rcases mem_openings_cons.mp mem with opens | old
    · rw [opening_eq opens] at may
      exact sound may
    · exact sound (inv.opened o old)
  · rw [store]
    rcases mem_openings_cons.mp mem with opens | old
    · rw [opening_eq opens]
      exact ⟨o.session, List.mem_append_right _ (List.mem_singleton_self _), rfl⟩
    · obtain ⟨s, there, id⟩ := inv.present o old
      obtain ⟨s', there', id'⟩ := @act_sessions_keeps settings e.label _ _ there
      exact ⟨s', there', id'.trans id⟩
  · rw [store] at mem
    rcases mem_act_records mem with ⟨r', old, session, admin, grant, started, expires⟩ | new
    · obtain ⟨o, opened, is⟩ := inv.records r' old
      refine ⟨o, mem_openings_cons.mpr (.inr opened), ?_⟩
      rw [session, admin, grant, started, expires]
      exact is
    · cases label : e.label with
      | createRecord record =>
          rw [label] at new may
          rw [List.mem_singleton.mp new]
          exact may.1.cons
      | _ =>
          rw [label] at new
          exact absurd new List.not_mem_nil
  · simp only [World.push_trace, cleanThroughout, Bool.and_eq_true] at clean
    rcases mem_openings_cons.mp mem with opens | old
    · -- no session is opened under a revoked grant
      have free := clean.1
      rw [store] at revoked
      unfold cleanStep at free
      rw [opening_eq opens] at free revoked
      rw [before, Bool.not_eq_true'] at free
      have was : w.store.revoked o.grantId = true := revoked
      rw [free] at was
      cases was
    · have was := inv.live_before before step old live
      have recorded : w.store.recorded o.session.sessionId o.grantId = true := by
        rw [store] at revoked
        rcases @revoked_of_act settings e.label w.store e.tid e.after o.grantId
          (newGrant_not_revoked may) revoked with earlier | now
        · exact inv.known clean.2 o old earlier was
        · refine recorded_of_clean clean.1 before old ?_ was
          rw [revokes, before]
          exact now
      rw [store]
      rcases @recorded_act settings e.label _ _ _ recorded with kept | ⟨endedBy, now, label⟩
      · exact kept
      · rw [label] at may
        have ended : w.store.live o.session.sessionId = false := may
        rw [ended] at was
        cases was

theorem live_outside {db db' : SupportDb} (outside : SupportOutside db db') {sessionId : String}
    (live : db'.live sessionId = true) : db.live sessionId = true := by
  obtain ⟨-, -, -, ⟨ended, sessions⟩, -⟩ := outside
  obtain ⟨s', mem, is⟩ := List.any_eq_true.mp live
  rw [sessions] at mem
  obtain ⟨s, was, rfl⟩ := List.mem_map.mp mem
  refine List.any_eq_true.mpr ⟨s, was, ?_⟩
  split at is
  · simp at is
  · exact is

theorem recorded_outside {db db' : SupportDb} (outside : SupportOutside db db')
    {sessionId grantId : String} (live : db'.live sessionId = true)
    (recorded : db.recorded sessionId grantId = true) : db'.recorded sessionId grantId = true := by
  obtain ⟨-, -, -, -, closed, records, only⟩ := outside
  obtain ⟨s, there, active⟩ := List.any_eq_true.mp live
  simp only [Bool.and_eq_true, decide_eq_true_eq] at active
  obtain ⟨r, mem, is⟩ := List.any_eq_true.mp recorded
  have kept : closed r.sessionId ≠ true := by
    intro closes
    simp only [Bool.and_eq_true, decide_eq_true_eq] at is
    refine only s there ?_ active.2
    rw [active.1, ← is.1.1, closes]
  refine List.any_eq_true.mpr ⟨r, ?_, is⟩
  rw [records]
  exact List.mem_map.mpr ⟨r, mem, if_neg kept⟩

theorem SessionsInv.env (inv : SessionsInv w) {db : SupportDb} (outside : SupportOutside w.store db) :
    SessionsInv { store := db, trace := w.trace } := by
  refine ⟨fun o mem => ?_, fun o mem => ?_, fun r mem => ?_, fun clean o mem revoked live => ?_⟩
  · obtain ⟨⟨expiresAt, used, whole⟩, session⟩ := inv.opened o mem
    exact ⟨⟨expiresAt, used.env outside, whole⟩, session⟩
  · obtain ⟨s, there, id⟩ := inv.present o mem
    obtain ⟨-, -, -, ⟨ended, sessions⟩, -⟩ := outside
    refine ⟨if ended s.sessionId then { s with status := .revoked } else s, ?_, ?_⟩
    · dsimp only
      rw [sessions]
      exact List.mem_map_of_mem there
    · split <;> exact id
  · obtain ⟨-, -, -, -, closed, records, -⟩ := outside
    dsimp only at mem
    rw [records] at mem
    obtain ⟨r', old, rfl⟩ := List.mem_map.mp mem
    obtain ⟨o, opened, is⟩ := inv.records r' old
    refine ⟨o, opened, ?_⟩
    split
    · exact is
    · exact is
  · have was := live_outside outside live
    refine recorded_outside outside live (inv.known clean o mem ?_ was)
    unfold SupportDb.revoked at revoked ⊢
    rw [← outside.2.1]
    exact revoked

end Sessions

/-! ## Slots -/

section Budget

variable {settings : SupportSettings} {w : SupportWorld} {e : SupportEvent}

theorem startedOn_new (db : SupportDb) (label : SupportLabel) (adminId : String) (day : Int) :
    ((startedOn { db with records := label.newRecord } adminId day).length : Int) ≤
      if label.spends = some (adminId, day) then 1 else 0 := by
  cases label with
  | createRecord r =>
      by_cases same : r.adminId = adminId ∧ Calendar.day r.startedAt = day
      · simp [startedOn, SupportLabel.newRecord, SupportLabel.spends, same.1, same.2]
      · have none : startedOn { db with records := [r] } adminId day = [] := by
          simpa [startedOn] using same
        rw [SupportLabel.newRecord, none]
        simp only [List.length_nil, Int.ofNat_zero]
        split <;> decide
  | giveBack =>
      simp only [startedOn, SupportLabel.newRecord, List.filter_nil, List.length_nil, Int.ofNat_zero]
      split <;> decide
  | _ => simp [startedOn, SupportLabel.newRecord, SupportLabel.spends]

theorem counters_act (label : SupportLabel) (db : SupportDb) (adminId : String) (day : Int) :
    (label.act settings db).counters adminId day =
      if label = .takeSlot adminId day ∧ db.hasSlot settings.dailyCap adminId day = true then
        db.counters adminId day + 1
      else if label = .giveBack adminId day then db.counters adminId day - 1
      else db.counters adminId day := by
  have count (a : String) (d : Int) (n : Nat) : (db.count a d n).counters adminId day =
      if a = adminId ∧ d = day then n else db.counters adminId day := by
    by_cases other : adminId = a
    · subst other
      by_cases same : day = d
      · subst same
        simp [SupportDb.count]
      · have apart : ¬ d = day := fun is => same is.symm
        simp [SupportDb.count, same, apart]
    · have apart : ¬ a = adminId := fun is => other is.symm
      simp [SupportDb.count, other, apart]
  cases label with
  | takeSlot a d =>
      simp only [SupportLabel.act, SupportLabel.takeSlot.injEq, reduceCtorEq, if_false]
      by_cases same : a = adminId ∧ d = day
      · obtain ⟨rfl, rfl⟩ := same
        by_cases free : db.hasSlot settings.dailyCap a d = true
        · simp [free, count]
        · simp [free]
      · split
        · rw [count, if_neg same, if_neg fun is => same is.1]
        · rw [if_neg fun is => same is.1]
  | giveBack a d =>
      simp only [SupportLabel.act, SupportLabel.giveBack.injEq, reduceCtorEq, false_and, if_false, count]
      split
      · rename_i same
        rw [same.1, same.2]
      · rfl
  | _ => simp [SupportLabel.act]

theorem BudgetInv.push (inv : BudgetInv settings.dailyCap w) (before : e.before = w.store)
    (step : SupportStep settings e) (may : Permitted settings w e.tid e.label) :
    BudgetInv settings.dailyCap (w.push e) := by
  have store := step.store before
  refine ⟨fun adminId day => ?_, fun adminId day => ?_, fun i same adminId day => ?_⟩
  · have was := inv.counted adminId day
    have new := startedOn_new w.store e.label adminId day
    have started := @startedOn_act settings e.label w.store adminId day
    rw [store, started, counters_act, World.push_trace, List.map_cons, List.sum_cons, share, before]
    push_cast
    by_cases takes : e.label = .takeSlot adminId day ∧
        w.store.hasSlot settings.dailyCap adminId day = true
    · have spends : e.label.spends ≠ some (adminId, day) := by
        rw [takes.1]
        exact nofun
      rw [if_pos takes, if_neg spends, if_pos takes]
      rw [if_neg spends] at new
      omega
    · rw [if_neg takes, if_neg takes]
      by_cases gives : e.label = .giveBack adminId day
      · have spends : e.label.spends = some (adminId, day) := by
          rw [gives]
          rfl
        have none : startedOn { w.store with records := e.label.newRecord } adminId day = [] := by
          rw [gives]
          rfl
        rw [if_pos gives, if_pos spends, none]
        simp only [List.length_nil, Int.ofNat_zero]
        omega
      · rw [if_neg gives]
        omega
  · have was := inv.capped adminId day
    rw [store, counters_act]
    split
    · rename_i takes
      have free := takes.2
      simp only [SupportDb.hasSlot, decide_eq_true_eq] at free
      omega
    · split <;> omega
  · rw [World.own_push] at same ⊢
    split
    · rename_i own
      subst own
      rw [if_pos rfl] at same
      simp only [sameDay, Bool.and_eq_true] at same
      have was := inv.spent e.tid same.2 adminId day
      rw [List.map_cons, List.sum_cons, share]
      by_cases spends : e.label.spends = some (adminId, day)
      · rw [if_pos spends]
        have slot := same.1
        rw [spends, Option.all_some, decide_eq_true_eq] at slot
        have left : Spendable settings.dailyCap w e.tid (adminId, day) := by
          cases label : e.label with
          | giveBack a d =>
              rw [label] at may spends
              obtain ⟨rfl, rfl⟩ := Prod.mk.inj (Option.some.inj spends)
              exact may
          | createRecord r =>
              rw [label] at may spends
              obtain ⟨rfl, rfl⟩ := Prod.mk.inj (Option.some.inj spends)
              exact may.2
          | _ =>
              rw [label] at spends
              exact nomatch spends
        have one := left slot same.2
        dsimp only at one
        split <;> omega
      · rw [if_neg spends]
        split <;> omega
    · rename_i other
      rw [if_neg other] at same
      exact inv.spent i same adminId day

theorem BudgetInv.env {cap : Int} (inv : BudgetInv cap w) {db : SupportDb}
    (outside : SupportOutside w.store db) : BudgetInv cap { store := db, trace := w.trace } := by
  obtain ⟨-, -, counters, -, closed, records, -⟩ := outside
  have started (adminId : String) (day : Int) :
      (startedOn db adminId day).length = (startedOn w.store adminId day).length := by
    unfold startedOn
    rw [records, closeAll, List.filter_map, List.length_map]
    refine congrArg List.length (List.filter_congr fun r _ => ?_)
    dsimp only [Function.comp]
    split <;> rfl
  refine ⟨fun adminId day => ?_, fun adminId day => ?_, inv.spent⟩
  · dsimp only
    rw [started, counters]
    exact inv.counted adminId day
  · dsimp only
    rw [counters]
    exact inv.capped adminId day

end Budget

theorem SupportInv.push {settings : SupportSettings} {w : SupportWorld} {e : SupportEvent}
    (inv : SupportInv settings w) (before : e.before = w.store) (step : SupportStep settings e)
    (may : Permitted settings w e.tid e.label) : SupportInv settings (w.push e) :=
  ⟨inv.grants.push before step may, inv.sessions.push before step may,
    inv.budget.push before step may⟩

theorem SupportInv.env {settings : SupportSettings} {w : SupportWorld} (inv : SupportInv settings w)
    {db : SupportDb} (outside : SupportOutside w.store db) :
    SupportInv settings { store := db, trace := w.trace } :=
  ⟨inv.grants.env outside, inv.sessions.env outside, inv.budget.env outside⟩

end AnalyticsBackend.Support
