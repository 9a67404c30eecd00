import AnalyticsBackend.Support.Invariants

/-!
# The programs of support access

Each operation keeps the invariants, and ends the sessions under every grant that it has revoked.
-/

namespace AnalyticsBackend.Support
open Lib System Platform

def Narrowed (w : SupportWorld) (grantId : String) (left : List String) : Prop :=
  w.store.revoked grantId = true ∧ ∀ o ∈ openings w.trace, o.grantId = grantId →
    w.store.live o.session.sessionId = true → o.session.sessionId ∈ left

/-- The sessions that a process has still to end: those under one grant, or none. -/
def remaining (current : Option (String × List String)) (grantId : String) : List String :=
  match current with
  | some (grantId', left) => if grantId = grantId' then left else []
  | none => []

/-- In a clean run, a process has ended the sessions under the grants that it has revoked, but for
those that it is about to end. -/
def Ending (i : Nat) (current : Option (String × List String)) (w : SupportWorld) : Prop :=
  cleanThroughout w.trace = true → ∀ e ∈ w.own i, ∀ grantId ∈ revokes e,
    Narrowed w grantId (remaining current grantId)

/-- The same, but for all the sessions under one grant. -/
def Revoking (i : Nat) (grantId : String) (w : SupportWorld) : Prop :=
  w.store.revoked grantId = true ∧ (cleanThroughout w.trace = true → ∀ e ∈ w.own i,
    ∀ grantId' ∈ revokes e, grantId' = grantId ∨ Narrowed w grantId' [])

def Dead (sessionId : String) (w : SupportWorld) : Prop :=
  w.store.live sessionId = false ∧ ∃ s ∈ w.store.sessions, s.sessionId = sessionId

def Present (records : List SupportImpersonation) (w : SupportWorld) : Prop :=
  ∀ r ∈ records, ∃ s ∈ w.store.sessions, s.sessionId = r.sessionId

def Authorized (grant : SupportGrant) (adminId : String) (w : SupportWorld) : Prop :=
  ∃ expiresAt time, grant.expiresAt = some expiresAt ∧ time ≤ w.store.clock ∧
    UsedBy w grant.grantId adminId expiresAt time

/-- A process has a slot for each day on which it may spend one. -/
def Reserved (cap : Int) (i : Nat) (w : SupportWorld) : Prop := ∀ spent, Spendable cap w i spent

section Facts

variable {settings : SupportSettings} {w : SupportWorld} {e : SupportEvent} {i : Nat}

/-- A program of process `i` keeps the invariants. -/
abbrev Keeps {A : Type} (settings : SupportSettings) (i : Nat) (R : A → SupportWorld → Prop)
    (p : SupportProg A) (P : SupportWorld → Prop) : Prop :=
  Safe (supportSystem settings).env (supportSystem settings).ok (SupportInv settings)
    (SupportStep settings) i R p P

abbrev Lasting (settings : SupportSettings) (P : SupportWorld → Prop) : Prop :=
  Persistent (supportSystem settings).env (SupportInv settings) (SupportStep settings) P

abbrev Steady (settings : SupportSettings) (i : Nat) (P : SupportWorld → Prop) : Prop :=
  Stable (supportSystem settings).env (SupportInv settings) (SupportStep settings) i P

theorem Narrowed.push {grantId : String} {left : List String} (narrowed : Narrowed w grantId left)
    (inv : SessionsInv w) (before : e.before = w.store) (step : SupportStep settings e)
    (clean : cleanStep w.trace e = true) : Narrowed (w.push e) grantId left := by
  obtain ⟨revoked, only⟩ := narrowed
  refine ⟨?_, fun o mem under live => ?_⟩
  · rw [step.store before]
    exact revoked_act revoked
  · rcases mem_openings_cons.mp mem with opens | old
    · unfold cleanStep at clean
      rw [opening_eq opens] at clean
      dsimp only at clean
      rw [before, under, revoked] at clean
      exact nomatch clean
    · exact only o old under (inv.live_before before step old live)

theorem Narrowed.env {grantId : String} {left : List String} (narrowed : Narrowed w grantId left)
    {db : SupportDb} (outside : SupportOutside w.store db) :
    Narrowed { store := db, trace := w.trace } grantId left := by
  obtain ⟨revoked, only⟩ := narrowed
  refine ⟨?_, fun o mem under live => only o mem under (live_outside outside live)⟩
  unfold SupportDb.revoked at revoked ⊢
  rw [outside.2.1]
  exact revoked

theorem steady_ending (current : Option (String × List String)) :
    Steady settings i (Ending i current) := by
  constructor
  · intro w e inv ending other before step _ clean e' mem grantId revokes
    rw [World.own_push, if_neg other] at mem
    simp only [World.push_trace, cleanThroughout, Bool.and_eq_true] at clean
    exact (ending clean.2 e' mem grantId revokes).push inv.sessions before step clean.1
  · intro w db _ ending outside clean e' mem grantId revokes
    exact (ending clean e' mem grantId revokes).env outside

theorem steady_revoking (grantId : String) : Steady settings i (Revoking i grantId) := by
  constructor
  · rintro w e inv ⟨revoked, ending⟩ other before step _
    refine ⟨?_, fun clean e' mem grantId' revokes => ?_⟩
    · rw [step.store before]
      exact revoked_act revoked
    · rw [World.own_push, if_neg other] at mem
      simp only [World.push_trace, cleanThroughout, Bool.and_eq_true] at clean
      exact (ending clean.2 e' mem grantId' revokes).imp_right fun narrowed =>
        narrowed.push inv.sessions before step clean.1
  · rintro w db _ ⟨revoked, ending⟩ outside
    refine ⟨?_, fun clean e' mem grantId' revokes => ?_⟩
    · unfold SupportDb.revoked at revoked ⊢
      rw [outside.2.1]
      exact revoked
    · exact (ending clean e' mem grantId' revokes).imp_right fun narrowed => narrowed.env outside

theorem lasting_present (records : List SupportImpersonation) : Lasting settings (Present records) := by
  constructor
  · intro w e _ present before step _ r mem
    obtain ⟨s, there, id⟩ := present r mem
    obtain ⟨s', there', id'⟩ := @act_sessions_keeps settings e.label _ _ there
    exact ⟨s', step.store before ▸ there', id'.trans id⟩
  · intro w db _ present outside r mem
    obtain ⟨s, there, id⟩ := present r mem
    obtain ⟨-, -, -, ⟨ended, sessions⟩, -⟩ := outside
    refine ⟨if ended s.sessionId then { s with status := .revoked } else s, ?_, ?_⟩
    · dsimp only
      rw [sessions]
      exact List.mem_map_of_mem there
    · split <;> exact id

theorem lasting_dead (sessionId : String) : Lasting settings (Dead sessionId) := by
  constructor
  · rintro w e _ ⟨dead, s, there, id⟩ before step _
    obtain ⟨s', there', id'⟩ := @act_sessions_keeps settings e.label _ _ there
    refine ⟨?_, s', step.store before ▸ there', id'.trans id⟩
    rw [← Bool.not_eq_true]
    intro live
    rw [step.store before] at live
    rcases live_act live with was | ⟨opening, opens, same⟩
    · rw [dead] at was
      cases was
    · have drawn := step.drawn
      rw [opening_eq opens, before] at drawn
      exact drawn s there (id.trans same.symm)
  · rintro w db _ ⟨dead, s, there, id⟩ outside
    refine ⟨?_, ?_⟩
    · rw [← Bool.not_eq_true]
      intro live
      have was := live_outside outside live
      rw [dead] at was
      cases was
    · obtain ⟨-, -, -, ⟨ended, sessions⟩, -⟩ := outside
      refine ⟨if ended s.sessionId then { s with status := .revoked } else s, ?_, ?_⟩
      · dsimp only
        rw [sessions]
        exact List.mem_map_of_mem there
      · split <;> exact id

theorem lasting_time (time : Int) : Lasting settings fun w => time ≤ w.store.clock := by
  constructor
  · intro w e _ past before step _
    rw [step.store before, act_clock]
    exact past
  · intro w db _ past outside
    exact past.trans outside.1

theorem lasting_authorized (grant : SupportGrant) (adminId : String) :
    Lasting settings (Authorized grant adminId) := by
  constructor
  · rintro w e inv ⟨expiresAt, time, is, past, used⟩ before step inv'
    exact ⟨expiresAt, time, is, (lasting_time time).1 w e inv past before step inv',
      used.push before step⟩
  · rintro w db inv ⟨expiresAt, time, is, past, used⟩ outside
    exact ⟨expiresAt, time, is, past.trans outside.1, used.env outside⟩

theorem steady_reserved (cap : Int) : Steady settings i (Reserved cap i) :=
  Stable.own i fun own => ∀ spent, lastSlot cap own = some spent → sameDay cap own = true →
    1 ≤ (own.map (share cap spent.1 spent.2)).sum

theorem keeps_step {A : Type} {label : SupportLabel} {report : SupportDb → A}
    {P : SupportWorld → Prop} {R : A → SupportWorld → Prop}
    (steady : ∀ a, Steady settings i (R a))
    (may : ∀ w, SupportInv settings w → P w → Permitted settings w i label)
    (post : ∀ w, SupportInv settings w → P w →
      SupportStep settings ⟨i, label, w.store, label.act settings w.store⟩ →
      R (report w.store) (w.push ⟨i, label, w.store, label.act settings w.store⟩)) :
    Keeps settings i R (Prog.update label (label.act settings) report) P := by
  refine Safe.update steady fun w inv holds drawn => ?_
  have step : SupportStep settings ⟨i, label, w.store, label.act settings w.store⟩ := ⟨rfl, drawn⟩
  exact ⟨inv.push rfl step (may w inv holds), step, post w inv holds step⟩

/-! ## Steps that revoke nothing -/

def SupportLabel.harmless : SupportLabel → Bool
  | .transitionGrant _ _ (.revoke _ _ _ _) | .revokeConsents _ _ _ _ => false
  | _ => true

theorem revokes_harmless {label : SupportLabel} (harmless : label.harmless = true) (db db' : SupportDb) :
    revokes ⟨i, label, db, db'⟩ = [] := by
  have keeps (g : SupportGrant) : g.status ≠ .revoked → (label.decide g).status ≠ .revoked := by
    intro is
    cases label with
    | transitionGrant grantId tenantId decision =>
        cases decision with
        | revoke => cases harmless
        | approve | deny =>
            simp only [SupportLabel.decide]
            split
            · rintro ⟨⟩
            · exact is
    | revokeConsents => cases harmless
    | _ => exact is
  rw [revokes, List.map_eq_nil_iff, List.filter_eq_nil_iff]
  intro g _ is
  simp only [Bool.and_eq_true, decide_eq_true_eq] at is
  exact keeps g is.1 is.2

theorem Ending.harmless {current : Option (String × List String)} {label : SupportLabel}
    (ending : Ending i current w) (inv : SupportInv settings w) (harmless : label.harmless = true)
    (step : SupportStep settings ⟨i, label, w.store, label.act settings w.store⟩) :
    Ending i current (w.push ⟨i, label, w.store, label.act settings w.store⟩) := by
  intro clean e mem grantId revokes
  simp only [World.push_trace, cleanThroughout, Bool.and_eq_true] at clean
  rw [World.own_push, if_pos rfl] at mem
  rcases List.mem_cons.mp mem with rfl | old
  · rw [revokes_harmless harmless] at revokes
    exact absurd revokes List.not_mem_nil
  · exact (ending clean.2 e old grantId revokes).push inv.sessions rfl step clean.1

theorem keeps_look {A : Type} {f : SupportDb → A} {current : Option (String × List String)}
    {F : SupportWorld → Prop} {Q : A → SupportWorld → Prop}
    (steady : ∀ a, Steady settings i (Q a))
    (reads : ∀ w, SupportInv settings w → F w →
      Q (f w.store) (w.push ⟨i, .look, w.store, w.store⟩)) :
    Keeps settings i (fun a w => Ending i current w ∧ Q a w) (look f)
      (fun w => Ending i current w ∧ F w) := by
  refine Safe.update (fun a => (steady_ending current).and (steady a)) fun w inv holds drawn => ?_
  have step : SupportStep settings ⟨i, .look, w.store, id w.store⟩ := ⟨rfl, drawn⟩
  exact ⟨inv.push rfl step trivial, step, holds.1.harmless inv rfl step, reads w inv holds.2⟩

theorem keeps_plainLook {A : Type} {f : SupportDb → A} {current : Option (String × List String)} :
    Keeps settings i (fun _ w => Ending i current w) (look f) (Ending i current) := by
  refine Safe.update (fun _ => steady_ending current) fun w inv ending drawn => ?_
  have step : SupportStep settings ⟨i, .look, w.store, id w.store⟩ := ⟨rfl, drawn⟩
  exact ⟨inv.push rfl step trivial, step, ending.harmless inv rfl step⟩

theorem keeps_lastingLook {A : Type} {f : SupportDb → A} {current : Option (String × List String)}
    {F : SupportWorld → Prop} (lasting : Lasting settings F) :
    Keeps settings i (fun _ w => Ending i current w ∧ F w) (look f)
      (fun w => Ending i current w ∧ F w) := by
  refine Safe.update (fun _ => (steady_ending current).and (lasting.stable i)) fun w inv holds drawn => ?_
  have step : SupportStep settings ⟨i, .look, w.store, id w.store⟩ := ⟨rfl, drawn⟩
  have inv' : SupportInv settings (w.push ⟨i, .look, w.store, id w.store⟩) := inv.push rfl step trivial
  exact ⟨inv', step, holds.1.harmless inv rfl step, lasting.1 w _ inv holds.2 rfl step inv'⟩

theorem keeps_harmless {A : Type} {label : SupportLabel} {report : SupportDb → A}
    {current : Option (String × List String)} {F : SupportWorld → Prop}
    {Q : A → SupportWorld → Prop} (harmless : label.harmless = true)
    (steady : ∀ a, Steady settings i (Q a))
    (may : ∀ w, SupportInv settings w → F w → Permitted settings w i label)
    (post : ∀ w, SupportInv settings w → F w →
      SupportStep settings ⟨i, label, w.store, label.act settings w.store⟩ →
      Q (report w.store) (w.push ⟨i, label, w.store, label.act settings w.store⟩)) :
    Keeps settings i (fun a w => Ending i current w ∧ Q a w) (perform settings label report)
      (fun w => Ending i current w ∧ F w) := by
  refine keeps_step (fun a => (steady_ending current).and (steady a))
    (fun w inv holds => may w inv holds.2) fun w inv holds step => ?_
  exact ⟨holds.1.harmless inv harmless step, post w inv holds.2 step⟩

end Facts

section Revocation

variable {settings : SupportSettings} {i : Nat}

theorem keeps_revoke (grantId : String) (tenantId : Option String) (revokedBy : String)
    (byType : RevokerType) (now : Int) (reason : Option String) :
    Keeps settings i
      (fun updated => if updated.isSome then Revoking i grantId else Ending i none)
      (transitionGrant settings grantId tenantId (.revoke revokedBy byType now reason))
      (Ending i none) := by
  unfold transitionGrant
  refine keeps_step (fun updated => ?_) (fun _ _ _ => trivial) fun w inv ending step => ?_
  · split
    · exact steady_revoking grantId
    · exact steady_ending none
  generalize hlabel : SupportLabel.transitionGrant grantId tenantId
    (.revoke revokedBy byType now reason) = label at step ⊢
  have decides {g : SupportGrant} (decided : label.decides g = true) :
      g.grantId = grantId ∧ (label.decide g).status = .revoked := by
    subst hlabel
    have is := decided
    simp only [SupportLabel.decides, Bool.and_eq_true, decide_eq_true_eq] at is
    refine ⟨is.1.1, ?_⟩
    simp only [SupportLabel.decide, decided, if_true]
    rfl
  have only {g : String} (mem : g ∈ revokes ⟨i, label, w.store, label.act settings w.store⟩) :
      ∃ grant ∈ w.store.grants, grant.grantId = g ∧ label.decides grant = true := by
    obtain ⟨grant, there, rfl⟩ := List.mem_map.mp mem
    obtain ⟨stored, is⟩ := List.mem_filter.mp there
    refine ⟨grant, stored, rfl, ?_⟩
    simp only [Bool.and_eq_true, decide_eq_true_eq] at is
    by_contra not
    subst hlabel
    simp only [SupportLabel.decide] at is
    rw [if_neg not] at is
    exact is.1 is.2
  have old (clean : cleanThroughout (w.push ⟨i, label, w.store, label.act settings w.store⟩).trace = true)
      (e : SupportEvent) (mem : e ∈ w.own i) (g : String) (is : g ∈ revokes e) :
      Narrowed (w.push ⟨i, label, w.store, label.act settings w.store⟩) g [] := by
    simp only [World.push_trace, cleanThroughout, Bool.and_eq_true] at clean
    exact (ending clean.2 e mem g is).push inv.sessions rfl step clean.1
  cases found : w.store.grants.find? label.decides with
  | some grant =>
      have is := decides (List.find?_some found)
      refine ⟨List.any_eq_true.mpr ⟨label.decide grant, ?_, ?_⟩, fun clean e mem g revoked => ?_⟩
      · rw [step.store rfl, act_grants]
        exact List.mem_append_left _ (List.mem_map_of_mem (List.mem_of_find?_eq_some found))
      · simp [is]
      · rw [World.own_push, if_pos rfl] at mem
        rcases List.mem_cons.mp mem with rfl | earlier
        · obtain ⟨grant', -, rfl, decided⟩ := only revoked
          exact .inl (decides decided).1
        · exact .inr (old clean e earlier g revoked)
  | none =>
      intro clean e mem g revoked
      rw [World.own_push, if_pos rfl] at mem
      rcases List.mem_cons.mp mem with rfl | earlier
      · obtain ⟨grant', stored, -, decided⟩ := only revoked
        exact absurd decided (List.find?_eq_none.mp found grant' stored)
      · exact old clean e earlier g revoked

theorem keeps_listActive (grantId : String) :
    Keeps settings i
      (fun active w => Ending i (some (grantId, active.map SupportImpersonation.sessionId)) w ∧
        Present active w)
      (look fun db => db.records.filter fun r => r.grantId = grantId && r.status = .active)
      (Revoking i grantId) := by
  refine Safe.update
    (fun active => (steady_ending _).and ((lasting_present active).stable i)) fun w inv holds drawn => ?_
  obtain ⟨revoked, ending⟩ := holds
  have step : SupportStep settings ⟨i, .look, w.store, id w.store⟩ := ⟨rfl, drawn⟩
  refine ⟨inv.push rfl step trivial, step, fun clean e mem g is => ?_, fun r mem => ?_⟩
  · simp only [World.push_trace, cleanThroughout, Bool.and_eq_true] at clean
    rw [World.own_push, if_pos rfl] at mem
    rcases List.mem_cons.mp mem with rfl | old
    · rw [revokes_harmless rfl] at is
      exact absurd is List.not_mem_nil
    · by_cases same : g = grantId
      · subst same
        refine ⟨revoked, fun o opened under live => ?_⟩
        have recorded := inv.sessions.known clean.2 o opened (under ▸ revoked) live
        obtain ⟨r, there, matches_⟩ := List.any_eq_true.mp recorded
        simp only [Bool.and_eq_true, decide_eq_true_eq] at matches_
        rw [remaining, if_pos rfl, ← matches_.1.1]
        refine List.mem_map_of_mem (List.mem_filter.mpr ⟨there, ?_⟩)
        simp [matches_.1.2, under, matches_.2]
      · rw [remaining, if_neg same]
        rcases ending clean.2 e old g is with is | narrowed
        · exact absurd is same
        · exact narrowed
  · obtain ⟨o, opened, session, -⟩ := inv.sessions.records r (List.mem_of_mem_filter mem)
    rw [session]
    exact inv.sessions.present o opened

theorem live_revokeSession {db : SupportDb} {sessionId : String} :
    (SupportLabel.act settings (.revokeSession sessionId) db).live sessionId = false := by
  rw [SupportDb.live, List.any_eq_false]
  intro s' mem
  obtain ⟨s, -, rfl⟩ := List.mem_map.mp mem
  split
  · simp
  · rename_i other
    simp [other]

theorem keeps_revokeSession (grantId : String) (r : SupportImpersonation)
    (rest : List SupportImpersonation) :
    Keeps settings i
      (fun _ w => Ending i (some (grantId, rest.map SupportImpersonation.sessionId)) w ∧
        (Dead r.sessionId w ∧ Present rest w))
      (perform settings (.revokeSession r.sessionId) fun _ => ())
      (fun w => Ending i (some (grantId, (r :: rest).map SupportImpersonation.sessionId)) w ∧
        Present (r :: rest) w) := by
  refine keeps_step
    (fun _ => (steady_ending _).and
      (((lasting_dead r.sessionId).stable i).and ((lasting_present rest).stable i)))
    (fun _ _ _ => trivial) fun w inv holds step => ?_
  obtain ⟨ending, present⟩ := holds
  have inv' := inv.push rfl step trivial
  have store := step.store (w := w) rfl
  have dead : (w.push ⟨i, .revokeSession r.sessionId, w.store,
      SupportLabel.act settings (.revokeSession r.sessionId) w.store⟩).store.live r.sessionId = false :=
    @live_revokeSession settings w.store r.sessionId
  refine ⟨fun clean e mem g is => ?_, ⟨dead, ?_⟩, ?_⟩
  · simp only [World.push_trace, cleanThroughout, Bool.and_eq_true] at clean
    rw [World.own_push, if_pos rfl] at mem
    rcases List.mem_cons.mp mem with rfl | old
    · rw [revokes_harmless rfl] at is
      exact absurd is List.not_mem_nil
    · obtain ⟨revoked, only⟩ := (ending clean.2 e old g is).push inv.sessions rfl step clean.1
      refine ⟨revoked, fun o opened under live => ?_⟩
      have left := only o opened under live
      by_cases same : g = grantId
      · rw [remaining, if_pos same] at left ⊢
        rcases List.mem_cons.mp left with is | rest
        · rw [is, dead] at live
          cases live
        · exact rest
      · rw [remaining, if_neg same] at left
        exact absurd left List.not_mem_nil
  · exact ((lasting_present (r :: rest)).1 w _ inv present rfl step inv') r List.mem_cons_self
  · exact fun r' mem =>
      ((lasting_present (r :: rest)).1 w _ inv present rfl step inv') r' (List.mem_cons_of_mem _ mem)

theorem keeps_endSessions (grantId endedBy : String) (active : List SupportImpersonation) :
    Keeps settings i (fun _ => Ending i (some (grantId, [])))
      (endSessions settings endedBy active)
      (fun w => Ending i (some (grantId, active.map SupportImpersonation.sessionId)) w ∧
        Present active w) := by
  induction active with
  | nil => exact fun w _ holds => holds.1
  | cons r rest ih =>
      refine Safe.bind (keeps_revokeSession grantId r rest) fun _ => ?_
      refine Safe.bind (keeps_lastingLook ((lasting_dead r.sessionId).and (lasting_present rest)))
        fun now => ?_
      refine Safe.bind (keeps_harmless rfl (fun _ => (lasting_present rest).stable i)
        (fun w _ holds => holds.1.1) fun w inv holds step => ?_) fun _ => ih
      exact (lasting_present rest).1 w _ inv holds.2 rfl step (inv.push rfl step holds.1.1)

theorem Ending.over {grantId : String} {w : SupportWorld} (ending : Ending i (some (grantId, [])) w) :
    Ending i none w := by
  intro clean e mem g is
  have narrowed := ending clean e mem g is
  simp only [remaining, ite_self] at narrowed
  exact narrowed

theorem keeps_endSessionsForGrant (grantId endedBy : String) :
    Keeps settings i (fun _ => Ending i none) (endSessionsForGrant settings grantId endedBy)
      (Revoking i grantId) := by
  refine Safe.bind (keeps_listActive grantId) fun active => ?_
  refine Safe.bind (keeps_endSessions grantId endedBy active) fun _ => ?_
  exact fun w _ ending => ending.over

theorem keeps_revokeGrantAndSessions (grant : SupportGrant) (revokedBy : String)
    (byType : RevokerType) (reason : String) (now : Int) :
    Keeps settings i (fun _ => Ending i none)
      (revokeGrantAndSessions settings grant revokedBy byType reason now) (Ending i none) := by
  unfold revokeGrantAndSessions
  split
  · exact fun w _ ending => ending
  · refine Safe.bind (keeps_revoke grant.grantId _ revokedBy byType now _) fun updated => ?_
    cases updated with
    | none => exact fun w _ ending => ending
    | some updated =>
        exact Safe.bind (keeps_endSessionsForGrant grant.grantId revokedBy) fun _ w _ ending => ending

end Revocation

/-! ## Consent and revocation -/

section Operations

variable {settings : SupportSettings} {i : Nat}

def ReadAdmin (i : Nat) (admin : Admin) (w : SupportWorld) : Prop :=
  ∃ e ∈ w.own i, admin ∈ e.before.admins

theorem lasting_readAdmin (admin : Admin) : Lasting settings (ReadAdmin i admin) := by
  constructor
  · rintro w e _ ⟨e', mem, there⟩ _ _ _
    refine ⟨e', ?_, there⟩
    rw [World.own_push]
    split
    · exact List.mem_cons_of_mem _ mem
    · exact mem
  · exact fun _ _ _ read _ => read

/-- What a lookup gets is kept with what is known. -/
def Resolved {A : Type} (i : Nat) (F : A → SupportWorld → Prop) (result : Except ApiError A)
    (w : SupportWorld) : Prop :=
  Ending i none w ∧ ∀ a, result = .ok a → F a w

theorem Resolved.error {A : Type} {F : A → SupportWorld → Prop} {e : ApiError} {w : SupportWorld}
    (ending : Ending i none w) : Resolved i F (.error e) w :=
  ⟨ending, fun _ => nofun⟩

theorem keeps_resolveAdmin (adminId : String) :
    Keeps settings i (Resolved i fun admin w => ReadAdmin i admin w ∧ admin.status = .active)
      (resolveAdmin adminId) (Ending i none) := by
  have read : Keeps settings i
      (fun found w => Ending i none w ∧ ∀ admin, found = some admin → ReadAdmin i admin w)
      (look fun db => db.admins.find? fun a => a.id = adminId)
      (fun w => Ending i none w ∧ True) := by
    refine keeps_look (fun found => .all fun admin => .imp fun _ => (lasting_readAdmin admin).stable i)
      fun w _ _ admin found => ?_
    refine ⟨⟨i, .look, w.store, w.store⟩, ?_, List.mem_of_find?_eq_some found⟩
    rw [World.own_push, if_pos rfl]
    exact List.mem_cons_self
  refine Safe.bind (read.weaken fun _ _ ending => ⟨ending, trivial⟩) fun found => ?_
  cases found with
  | none => exact fun w _ holds => .error holds.1
  | some admin =>
      dsimp only
      split
      · exact fun w _ holds => .error holds.1
      · rename_i active
        rintro w _ ⟨ending, has⟩
        refine ⟨ending, ?_⟩
        rintro _ ⟨⟩
        exact ⟨has admin rfl, not_not.mp active⟩

theorem keeps_findTenant {F : SupportWorld → Prop} (lasting : Lasting settings F) (tenantId : String) :
    Keeps settings i (fun _ w => Ending i none w ∧ F w) (findTenant tenantId)
      (fun w => Ending i none w ∧ F w) := by
  refine Safe.bind (keeps_lastingLook lasting) fun found => ?_
  cases found <;> exact fun w _ holds => holds

theorem lasting_true : Lasting settings fun _ => True :=
  ⟨fun _ _ _ _ _ _ _ => trivial, fun _ _ _ _ _ => trivial⟩

theorem keeps_revokeConsent (tenantId grantId userId : String) (reason : Option String) :
    Keeps settings i (fun _ => Ending i none)
      (revokeConsent settings tenantId grantId userId reason) (Ending i none) := by
  refine Safe.bind keeps_plainLook fun grant => ?_
  cases grant with
  | none => exact fun w _ ending => ending
  | some grant =>
      dsimp only
      split
      · exact fun w _ ending => ending
      · exact Safe.bind keeps_plainLook fun now => keeps_revokeGrantAndSessions grant _ _ _ now

theorem keeps_revokeGrantAsAdmin (adminId grantId reason : String) :
    Keeps settings i (fun _ => Ending i none)
      (revokeGrantAsAdmin settings adminId grantId reason) (Ending i none) := by
  unfold revokeGrantAsAdmin
  split
  · exact fun w _ ending => ending
  · refine Safe.andThen (keeps_resolveAdmin adminId) (fun admin => ?_) fun _ w _ holds => holds.1
    refine Safe.bind (keeps_plainLook.weaken fun _ _ holds => holds.1) fun grant => ?_
    cases grant with
    | none => exact fun w _ ending => ending
    | some grant =>
        dsimp only
        split
        · exact fun w _ ending => ending
        · exact Safe.bind keeps_plainLook fun now => keeps_revokeGrantAndSessions grant _ _ _ now

theorem keeps_revokeConsents (ids : List String) (tenantId revokedBy : String) (now : Int) :
    Keeps settings i (fun _ => Ending i none)
      (perform settings (.revokeConsents ids tenantId revokedBy now) fun _ => ids)
      (Ending i none) := by
  refine keeps_step (fun _ => steady_ending none) (fun _ _ _ => trivial) fun w inv ending step => ?_
  intro clean e mem g is
  simp only [World.push_trace, cleanThroughout, Bool.and_eq_true] at clean
  rw [World.own_push, if_pos rfl] at mem
  rcases List.mem_cons.mp mem with rfl | old
  · refine ⟨?_, fun o opened under live => ?_⟩
    · obtain ⟨grant, there, rfl⟩ := List.mem_map.mp is
      obtain ⟨stored, revoked⟩ := List.mem_filter.mp there
      simp only [Bool.and_eq_true, decide_eq_true_eq] at revoked
      refine List.any_eq_true.mpr
        ⟨(SupportLabel.revokeConsents ids tenantId revokedBy now).decide grant, ?_, ?_⟩
      · rw [step.store rfl, act_grants]
        exact List.mem_append_left _ (List.mem_map_of_mem stored)
      · simp [revoked.2]
    · exfalso
      rcases mem_openings_cons.mp opened with opens | earlier
      · cases opens
      · have was := inv.sessions.live_before rfl step earlier live
        have free := List.all_eq_true.mp clean.1 o earlier
        simp [under, is, was] at free
  · exact (ending clean.2 e old g is).push inv.sessions rfl step clean.1

theorem keeps_createGrant {A : Type} {grant : SupportGrant} {report : SupportDb → A}
    (may : (grant.kind = .consent ∧ grant.status = .active ∧ grant.expiresAt.isSome = true) ∨
      (grant.kind = .breakGlass ∧ grant.status = .pending ∧ grant.requestedBy.isSome = true)) :
    Keeps settings i (fun _ => Ending i none) (perform settings (.createGrant grant) report)
      (Ending i none) :=
  keeps_step (fun _ => steady_ending none) (fun _ _ _ => may) fun _ inv ending step =>
    ending.harmless inv rfl step

theorem keeps_grantConsent (req : ConsentRequest) :
    Keeps settings i (fun _ => Ending i none) (grantConsent settings req) (Ending i none) := by
  unfold grantConsent
  split
  · exact fun w _ ending => ending
  · split
    · exact fun w _ ending => ending
    · split
      · exact fun w _ ending => ending
      · rename_i hours _
        refine Safe.andThen ((keeps_findTenant lasting_true req.tenantId).weaken
          fun _ _ ending => ⟨ending, trivial⟩) (fun tenant => ?_) fun _ w _ holds => holds.1
        refine Safe.bind (keeps_plainLook.weaken fun _ _ holds => holds.1) fun now => ?_
        have supersede : Keeps settings i (fun _ => Ending i none)
            (revokeActiveConsents settings req.tenantId req.userId now) (Ending i none) := by
          refine Safe.bind keeps_plainLook fun ids => ?_
          split
          · exact fun w _ ending => ending
          · exact keeps_revokeConsents ids _ _ now
        exact Safe.bind supersede fun _ => keeps_createGrant (.inl ⟨rfl, rfl, rfl⟩)

/-! ## Break-glass -/

theorem keeps_requestBreakGlass (req : BreakGlassRequest) :
    Keeps settings i (fun _ => Ending i none) (requestBreakGlass settings req) (Ending i none) := by
  unfold requestBreakGlass
  split
  · exact fun w _ ending => ending
  · refine Safe.andThen (keeps_resolveAdmin req.adminId) (fun admin => ?_) fun _ w _ holds => holds.1
    split
    · exact fun w _ holds => holds.1
    · split
      · exact fun w _ holds => holds.1
      · refine Safe.andThen ((keeps_findTenant lasting_true req.tenantId).weaken
          fun _ _ holds => ⟨holds.1, trivial⟩) (fun tenant => ?_) fun _ w _ holds => holds.1
        exact (keeps_createGrant (.inr ⟨rfl, rfl, rfl⟩)).weaken fun _ _ holds => holds.1

def Known (grant : SupportGrant) (w : SupportWorld) : Prop :=
  (∃ g ∈ w.store.grants, g.grantId = grant.grantId) ∧
    ∀ g ∈ w.store.grants, g.grantId = grant.grantId → g.requestedBy = grant.requestedBy

theorem lasting_known (grant : SupportGrant) : Lasting settings (Known grant) := by
  constructor
  · rintro w e _ ⟨⟨g₀, mem₀, id₀⟩, known⟩ before step _
    unfold Known
    rw [step.store before, act_grants]
    refine ⟨⟨e.label.decide g₀, List.mem_append_left _ (List.mem_map_of_mem mem₀), ?_⟩, ?_⟩
    · rw [decide_grantId, id₀]
    · intro g mem id
      rcases List.mem_append.mp mem with old | new
      · obtain ⟨g', was, rfl⟩ := List.mem_map.mp old
        rw [(decide_same g').2.1]
        rw [decide_grantId] at id
        exact known g' was id
      · exfalso
        cases label : e.label with
        | createGrant grant' =>
            rw [label] at new
            have drawn := step.drawn
            rw [label, before] at drawn
            rw [List.mem_singleton.mp new] at id
            exact drawn g₀ mem₀ (id₀.trans id.symm)
        | _ =>
            rw [label] at new
            exact absurd new List.not_mem_nil
  · intro w db _ known outside
    unfold Known
    rw [outside.2.1]
    exact known

theorem eligible_of_asserted {admin : Admin} {grant : SupportGrant} (active : admin.status = .active)
    (asserted : assertEligibleApprover admin grant = .ok ()) :
    eligible admin = true ∧ grant.requestedBy ≠ some admin.id := by
  unfold assertEligibleApprover at asserted
  split at asserted
  · exact nomatch asserted
  · rename_i fits
    split at asserted
    · exact nomatch asserted
    · rename_i other
      simp only [not_or, ne_eq, not_not, Bool.not_eq_false] at fits
      exact ⟨by simp [eligible, fits.1, fits.2, active], fun is => other is.symm⟩

/-- The decisions of an approver about a pending grant. -/
def Decides (decision : Admin → Int → GrantDecision) : Prop :=
  ∀ admin now, (∃ reason expiresAt, decision admin now = .approve admin.id now reason expiresAt) ∨
    ∃ reason, decision admin now = .deny admin.id now reason

theorem keeps_decideBreakGlass {decision : Admin → Int → GrantDecision} (decides : Decides decision)
    (adminId grantId : String) :
    Keeps settings i (fun _ => Ending i none) (decideBreakGlass settings adminId grantId decision)
      (Ending i none) := by
  refine Safe.andThen (keeps_resolveAdmin adminId) (fun admin => ?_) fun _ w _ holds => holds.1
  have found : Keeps settings i
      (fun found w => Ending i none w ∧ (ReadAdmin i admin w ∧ admin.status = .active) ∧
        ∀ grant, found = some grant → Known grant w)
      (findGrant grantId none)
      (fun w => Ending i none w ∧ ReadAdmin i admin w ∧ admin.status = .active) := by
    have steady : Steady settings i fun w => ReadAdmin i admin w ∧ admin.status = .active :=
      ((lasting_readAdmin admin).stable i).and ⟨fun _ _ _ is _ _ _ _ => is, fun _ _ _ is _ => is⟩
    refine keeps_look (fun found => steady.and (.all fun grant => .imp fun _ => (lasting_known grant).stable i))
      fun w inv holds => ⟨⟨?_, holds.2⟩, fun grant found => ?_⟩
    · obtain ⟨e, mem, there⟩ := holds.1
      refine ⟨e, ?_, there⟩
      rw [World.own_push, if_pos rfl]
      exact List.mem_cons_of_mem _ mem
    · have mem := List.mem_of_find?_eq_some found
      refine ⟨⟨grant, mem, rfl⟩, fun g mem' same => ?_⟩
      rw [List.inj_on_of_nodup_map inv.grants.ids mem' mem same]
  refine Safe.bind (found.weaken fun _ _ holds => ⟨holds.1, holds.2 admin rfl⟩) fun grant => ?_
  cases grant with
  | none => exact fun w _ holds => holds.1
  | some grant =>
      dsimp only
      split
      · exact fun w _ holds => holds.1
      · split
        · exact fun w _ holds => holds.1
        · exact fun w _ holds => holds.1
        · rename_i asserted
          have date : Keeps settings i
              (fun now w => Ending i none w ∧ (ReadAdmin i admin w ∧ Known grant w ∧
                now ≤ w.store.clock) ∧ admin.status = .active)
              newDate
              (fun w => Ending i none w ∧ (ReadAdmin i admin w ∧ admin.status = .active) ∧
                ∀ grant', some grant = some grant' → Known grant' w) := by
            refine keeps_look (fun now => Stable.and (((lasting_readAdmin admin).and
              ((lasting_known grant).and (lasting_time now))).stable i)
              ⟨fun _ _ _ is _ _ _ _ => is, fun _ _ _ is _ => is⟩) fun w inv holds => ?_
            obtain ⟨⟨⟨e, mem, there⟩, active⟩, known⟩ := holds
            refine ⟨⟨⟨e, ?_, there⟩, known grant rfl, le_rfl⟩, active⟩
            rw [World.own_push, if_pos rfl]
            exact List.mem_cons_of_mem _ mem
          refine Safe.bind date fun now => ?_
          have decided : Keeps settings i (fun _ => Ending i none)
              (transitionGrant settings grant.grantId none (decision admin now))
              (fun w => Ending i none w ∧ (ReadAdmin i admin w ∧ Known grant w ∧
                now ≤ w.store.clock) ∧ admin.status = .active) := by
            unfold transitionGrant
            rcases decides admin now with ⟨reason, expiresAt, is⟩ | ⟨reason, is⟩
            · rw [is]
              refine keeps_step (fun _ => steady_ending none) (fun w _ holds => ?_)
                fun w inv holds step => holds.1.harmless inv rfl step
              obtain ⟨-, ⟨⟨e, mem, there⟩, known, past⟩, active⟩ := holds
              obtain ⟨fits, other⟩ := eligible_of_asserted active asserted
              exact ⟨past, ⟨e, mem, admin, there, rfl, fits⟩, fun g mem' same => known.2 g mem' same ▸ other⟩
            · rw [is]
              exact keeps_step (fun _ => steady_ending none) (fun w _ _ => trivial)
                fun w inv holds step => holds.1.harmless inv rfl step
          refine Safe.bind decided fun updated => ?_
          cases updated <;> exact fun w _ ending => ending

theorem keeps_approveBreakGlass (adminId grantId reason : String) :
    Keeps settings i (fun _ => Ending i none) (approveBreakGlass settings adminId grantId reason)
      (Ending i none) := by
  unfold approveBreakGlass
  split
  · exact fun w _ ending => ending
  · exact keeps_decideBreakGlass (fun admin now => .inl ⟨_, _, rfl⟩) adminId grantId

theorem keeps_denyBreakGlass (adminId grantId reason : String) :
    Keeps settings i (fun _ => Ending i none) (denyBreakGlass settings adminId grantId reason)
      (Ending i none) := by
  unfold denyBreakGlass
  split
  · exact fun w _ ending => ending
  · exact keeps_decideBreakGlass (fun admin now => .inr ⟨_, rfl⟩) adminId grantId

/-! ## Impersonation -/

theorem keeps_resolveTarget (req : ImpersonateRequest) :
    Keeps settings i (fun _ => Ending i none) (resolveTarget req) (Ending i none) := by
  refine Safe.bind keeps_plainLook fun admin => ?_
  cases admin with
  | none => exact fun w _ ending => ending
  | some admin =>
      refine Safe.bind keeps_plainLook fun user => ?_
      cases user with
      | none => exact fun w _ ending => ending
      | some user =>
          dsimp only
          split
          · exact fun w _ ending => ending
          · split <;> exact fun w _ ending => ending

theorem keeps_findActiveGrant (tenantId adminId : String) (kind : GrantKind)
    (requestedBy : Option String) (own : kind = .breakGlass → requestedBy = some adminId) (now : Int) :
    Keeps settings i
      (fun found w => Ending i none w ∧ ∀ grant, found = some grant → Authorized grant adminId w)
      (findActiveGrant tenantId kind requestedBy now) (Ending i none) := by
  refine Safe.weaken (keeps_look (F := fun _ => True)
    (fun found => .all fun grant => .imp fun _ => (lasting_authorized grant adminId).stable i)
    fun w inv _ grant found => ?_) fun w _ ending => ⟨ending, trivial⟩
  obtain ⟨mem, is⟩ := List.mem_filter.mp (List.argmax_mem found)
  simp only [Bool.and_eq_true, decide_eq_true_eq] at is
  obtain ⟨⟨⟨⟨-, active⟩, ofKind⟩, requested⟩, -⟩ := is
  obtain ⟨expires, eyes⟩ := inv.grants.approved grant mem active
  obtain ⟨expiresAt, expiry⟩ := Option.isSome_iff_exists.mp expires
  refine ⟨expiresAt, w.store.clock, expiry, le_rfl, grant, mem, rfl, ?_, expiry, fun breakGlass => ?_⟩
  · simp [SupportGrant.used, active]
  · obtain ⟨requester, has⟩ := eyes breakGlass
    have mine : grant.requestedBy = some adminId := by
      rw [own (ofKind.symm.trans breakGlass)] at requested
      exact of_decide_eq_true requested
    have same : requester = adminId := Option.some.inj (has.1.symm.trans mine)
    subst same
    exact has.kept rfl rfl rfl rfl le_rfl fun approver approved => approved.cons _

theorem keeps_findStaff (emails : List String) :
    Keeps settings i (fun _ => Ending i none) (findStaff emails) (Ending i none) := by
  induction emails with
  | nil => exact fun w _ ending => ending
  | cons email rest ih =>
      refine Safe.bind keeps_plainLook fun staff => ?_
      split
      · exact fun w _ ending => ending
      · exact ih

theorem keeps_authorizeImpersonation (admin : Admin) (user : SupportUser) :
    Keeps settings i (Resolved i fun grant => Authorized grant admin.id)
      (authorizeImpersonation admin user) (Ending i none) := by
  refine Safe.bind keeps_plainLook fun now => ?_
  refine Safe.andThen ((keeps_findTenant lasting_true user.tenantId).weaken
    fun _ _ ending => ⟨ending, trivial⟩) (fun tenant => ?_) fun _ w _ holds => .error holds.1
  split
  · exact fun w _ holds => .error holds.1
  · split
    · exact fun w _ holds => .error holds.1
    · have target : Keeps settings i (fun _ => Ending i none) (assertTargetNotProtected user tenant)
          (fun w => Ending i none w ∧ True) := by
        unfold assertTargetNotProtected
        split
        · exact (keeps_findStaff _).weaken fun _ _ holds => holds.1
        · exact Safe.bind (keeps_plainLook.weaken fun _ _ holds => holds.1)
            fun owner => keeps_findStaff _
      refine Safe.andThen target (fun _ => ?_) fun _ w _ ending => .error ending
      refine Safe.bind (keeps_findActiveGrant user.tenantId admin.id .consent none nofun now)
        fun consent => ?_
      cases consent with
      | some grant =>
          rintro w _ ⟨ending, authorized⟩
          refine ⟨ending, ?_⟩
          rintro _ ⟨⟩
          exact authorized grant rfl
      | none =>
          refine Safe.bind ((keeps_findActiveGrant user.tenantId admin.id .breakGlass (some admin.id)
            (fun _ => rfl) now).weaken fun _ _ holds => holds.1) fun breakGlass => ?_
          cases breakGlass with
          | some grant =>
              rintro w _ ⟨ending, authorized⟩
              refine ⟨ending, ?_⟩
              rintro _ ⟨⟩
              exact authorized grant rfl
          | none => exact fun w _ holds => .error holds.1

/-! ## The slot -/

theorem lastSlot_none {cap : Int} (off : cap ≤ 0) (events : List SupportEvent) :
    lastSlot cap events = none := by
  induction events with
  | nil => rfl
  | cons e earlier ih =>
      unfold lastSlot
      split
      · rw [if_neg ?_, ih]
        simp only [SupportDb.hasSlot, decide_eq_true_eq]
        omega
      · exact ih

theorem Reserved.quiet {cap : Int} {w : SupportWorld} {label : SupportLabel} {db : SupportDb}
    (reserved : Reserved cap i w) (takes : ∀ adminId day, label ≠ .takeSlot adminId day)
    (spends : label.spends = none) : Reserved cap i (w.push ⟨i, label, w.store, db⟩) := by
  intro spent slot same
  have last : lastSlot cap (⟨i, label, w.store, db⟩ :: w.own i) = lastSlot cap (w.own i) := by
    cases label with
    | takeSlot a d => exact absurd rfl (takes a d)
    | _ => rfl
  rw [World.own_push, if_pos rfl] at slot same ⊢
  rw [last] at slot
  simp only [sameDay, Bool.and_eq_true] at same
  have one := reserved spent slot same.2
  have none : share cap spent.1 spent.2 ⟨i, label, w.store, db⟩ = 0 := by
    simp [share, takes, spends]
  rw [List.map_cons, List.sum_cons, none]
  omega

theorem keeps_takeSlot {F : SupportWorld → Prop} (lasting : Lasting settings F) (adminId : String)
    (day : Int) :
    Keeps settings i
      (fun taken w => Ending i none w ∧ F w ∧ (taken = true → Reserved settings.dailyCap i w))
      (perform settings (.takeSlot adminId day) fun db => db.hasSlot settings.dailyCap adminId day)
      (fun w => Ending i none w ∧ F w) := by
  refine keeps_harmless rfl (fun taken => (lasting.stable i).and (.imp fun _ => steady_reserved _))
    (fun _ _ _ => trivial) fun w inv holds step => ⟨?_, fun taken spent slot same => ?_⟩
  · exact lasting.1 w _ inv holds rfl step (inv.push rfl step trivial)
  · rw [World.own_push, if_pos rfl] at slot same ⊢
    simp only [lastSlot, taken, if_true, Option.some.injEq] at slot
    subst slot
    simp only [sameDay, Bool.and_eq_true] at same
    have was := inv.budget.spent i same.2 adminId day
    rw [List.map_cons, List.sum_cons, share, if_pos ⟨rfl, taken⟩, if_neg (by rintro ⟨⟩)]
    dsimp only
    omega

theorem keeps_reserve {F : SupportWorld → Prop} (lasting : Lasting settings F) (adminId : String) :
    Keeps settings i
      (fun result w => Ending i none w ∧ F w ∧ (result = .ok () → Reserved settings.dailyCap i w))
      (reserveImpersonationSlot settings adminId) (fun w => Ending i none w ∧ F w) := by
  unfold reserveImpersonationSlot
  split
  · rename_i off
    refine fun w _ holds => ⟨holds.1, holds.2, fun _ spent slot => ?_⟩
    rw [lastSlot_none off] at slot
    exact nomatch slot
  · refine Safe.bind (keeps_lastingLook lasting) fun now => ?_
    have increment : Keeps settings i
        (fun taken w => Ending i none w ∧ F w ∧ (taken = true → Reserved settings.dailyCap i w))
        (incrementDailyCounter settings adminId now) (fun w => Ending i none w ∧ F w) := by
      refine Safe.bind (keeps_takeSlot lasting adminId _) fun first => ?_
      cases first with
      | true => exact fun w _ holds => holds
      | false => exact (keeps_takeSlot lasting adminId _).weaken fun _ _ holds => ⟨holds.1, holds.2.1⟩
    refine Safe.bind increment fun taken => ?_
    cases taken with
    | true => exact fun w _ holds => ⟨holds.1, holds.2.1, fun _ => holds.2.2 rfl⟩
    | false => exact fun w _ holds => ⟨holds.1, holds.2.1, nofun⟩

theorem keeps_release (adminId : String) :
    Keeps settings i (fun _ => Ending i none) (releaseImpersonationSlot settings adminId)
      (fun w => Ending i none w ∧ Reserved settings.dailyCap i w) := by
  unfold releaseImpersonationSlot
  split
  · exact fun w _ holds => holds.1
  · have date : Keeps settings i (fun _ w => Ending i none w ∧ Reserved settings.dailyCap i w)
        newDate (fun w => Ending i none w ∧ Reserved settings.dailyCap i w) :=
      keeps_look (fun _ => steady_reserved _) fun w _ reserved => reserved.quiet nofun rfl
    refine Safe.bind date fun now => ?_
    refine keeps_step (fun _ => steady_ending none) (fun w _ holds => ?_)
      fun w inv holds step => holds.1.harmless inv rfl step
    exact holds.2 (adminId, Calendar.day now)

/-! ## The session -/

theorem sessionExpiry_le {grant : SupportGrant} {expiresAt : Int} (expiry : grant.expiresAt = some expiresAt)
    (startedAt : Int) :
    sessionExpiry settings grant startedAt ≤ expiresAt ↔ startedAt + 1000 ≤ expiresAt := by
  have ttl : 60 ≤ impersonationTtlSeconds settings := le_max_left _ _
  simp only [sessionExpiry, expiry, Option.getD_some]
  omega

def Usable (grant : SupportGrant) (adminId : String) (time : Int) (w : SupportWorld) : Prop :=
  ∃ expiresAt, grant.expiresAt = some expiresAt ∧ UsedBy w grant.grantId adminId expiresAt time

theorem lasting_usable (grant : SupportGrant) (adminId : String) (time : Int) :
    Lasting settings (Usable grant adminId time) := by
  constructor
  · rintro w e _ ⟨expiresAt, expiry, used⟩ before step _
    exact ⟨expiresAt, expiry, used.push before step⟩
  · rintro w db _ ⟨expiresAt, expiry, used⟩ outside
    exact ⟨expiresAt, expiry, used.env outside⟩

theorem lasting_opened (o : Opening) : Lasting settings fun w => o ∈ openings w.trace :=
  ⟨fun _ _ _ opened _ _ _ => mem_openings_cons.mpr (.inr opened), fun _ _ _ opened _ => opened⟩

theorem keeps_slot {A : Type} {label : SupportLabel} {report : SupportDb → A} {F : SupportWorld → Prop}
    (lasting : Lasting settings F) (harmless : label.harmless = true)
    (takes : ∀ adminId day, label ≠ .takeSlot adminId day) (spends : label.spends = none)
    (may : ∀ w, SupportInv settings w → F w → Permitted settings w i label) :
    Keeps settings i (fun _ w => Ending i none w ∧ F w ∧ Reserved settings.dailyCap i w)
      (perform settings label report)
      (fun w => Ending i none w ∧ F w ∧ Reserved settings.dailyCap i w) :=
  keeps_harmless harmless (fun _ => (lasting.stable i).and (steady_reserved _))
    (fun w inv holds => may w inv holds.1) fun w inv holds step =>
      ⟨lasting.1 w _ inv holds.1 rfl step (inv.push rfl step (may w inv holds.1)),
        holds.2.quiet takes spends⟩

theorem keeps_slotLook {A : Type} {f : SupportDb → A} {F : SupportWorld → Prop}
    (lasting : Lasting settings F) :
    Keeps settings i (fun _ w => Ending i none w ∧ F w ∧ Reserved settings.dailyCap i w) (look f)
      (fun w => Ending i none w ∧ F w ∧ Reserved settings.dailyCap i w) :=
  @keeps_slot settings i A .look f F lasting rfl nofun rfl fun _ _ _ => trivial

theorem keeps_start (grant : SupportGrant) (adminId : String) :
    Keeps settings i
      (fun startedAt w => Ending i none w ∧ Usable grant adminId startedAt w ∧
        Reserved settings.dailyCap i w)
      newDate
      (fun w => Ending i none w ∧ Authorized grant adminId w ∧ Reserved settings.dailyCap i w) := by
  refine keeps_look (fun startedAt => ((lasting_usable grant adminId startedAt).stable i).and
    (steady_reserved _)) fun w inv holds => ?_
  obtain ⟨⟨expiresAt, time, expiry, past, used⟩, reserved⟩ := holds
  have step : SupportStep settings ⟨i, .look, w.store, w.store⟩ := ⟨rfl, trivial⟩
  exact ⟨⟨expiresAt, expiry, (used.later past).push rfl step⟩, reserved.quiet nofun rfl⟩

theorem keeps_openSupportSession (req : ImpersonateRequest) (admin : Admin) (user : SupportUser)
    (grant : SupportGrant) :
    Keeps settings i
      (fun result w => Ending i none w ∧
        ∀ e, result = .error e → Reserved settings.dailyCap i w)
      (openSupportSession settings req admin user grant)
      (fun w => Ending i none w ∧ Authorized grant admin.id w ∧ Reserved settings.dailyCap i w) := by
  refine Safe.bind (keeps_start grant admin.id) fun startedAt => ?_
  have lasting := @lasting_usable settings grant admin.id startedAt
  refine Safe.bind (keeps_slotLook lasting) fun signedInAt => ?_
  refine Safe.bind (keeps_slotLook lasting) fun now => ?_
  dsimp only
  split
  · exact fun w _ holds => ⟨holds.1, fun _ _ => holds.2.2⟩
  · generalize hopening : Opening.mk _ grant.grantId startedAt _ = o
    have create : Keeps settings i
        (fun _ w => Ending i none w ∧ o ∈ openings w.trace ∧ Reserved settings.dailyCap i w)
        (perform settings (.createSession o) fun _ => ())
        (fun w => Ending i none w ∧ Usable grant admin.id startedAt w ∧
          Reserved settings.dailyCap i w) := by
      refine keeps_harmless rfl (fun _ => ((lasting_opened o).stable i).and (steady_reserved _))
        (fun w inv holds => ?_) fun w inv holds step => ?_
      · obtain ⟨⟨expiresAt, expiry, used⟩, -⟩ := holds
        subst hopening
        exact ⟨⟨expiresAt, used, sessionExpiry_le expiry startedAt⟩, min_le_left _ _⟩
      · exact ⟨mem_openings_cons.mpr (.inl rfl), holds.2.quiet nofun rfl⟩
    refine Safe.bind create fun _ => ?_
    split
    · refine Safe.bind (keeps_slot (lasting_opened o) rfl nofun rfl fun _ _ _ => trivial) fun _ => ?_
      exact fun w _ holds => ⟨holds.1, fun _ _ => holds.2.2⟩
    · refine keeps_step (fun result => (steady_ending none).and (.all fun e => .imp fun _ =>
        steady_reserved _)) (fun w inv holds => ?_) fun w inv holds step => ?_
      · obtain ⟨-, opened, reserved⟩ := holds
        refine ⟨⟨o, opened, ?_⟩, reserved _⟩
        subst hopening
        exact ⟨rfl, rfl, rfl, rfl, rfl⟩
      · exact ⟨holds.1.harmless inv rfl step, fun _ => nofun⟩

theorem keeps_impersonate (req : ImpersonateRequest) :
    Keeps settings i (fun _ => Ending i none) (impersonate settings req) (Ending i none) := by
  unfold impersonate
  split
  · exact fun w _ ending => ending
  · refine Safe.andThen (keeps_resolveTarget req) (fun target => ?_) fun _ w _ ending => ending
    refine Safe.andThen (keeps_authorizeImpersonation target.1 target.2) (fun grant => ?_)
      fun _ w _ holds => holds.1
    have reserve : Keeps settings i
        (fun result w => Ending i none w ∧ Authorized grant target.1.id w ∧
          (result = .ok () → Reserved settings.dailyCap i w))
        (reserveImpersonationSlot settings target.1.id)
        (Resolved i (fun grant => Authorized grant target.1.id) (.ok grant)) :=
      (keeps_reserve (lasting_authorized grant target.1.id) target.1.id).weaken
        fun _ _ holds => ⟨holds.1, holds.2 grant rfl⟩
    refine Safe.andThen reserve (fun _ => ?_) fun _ w _ holds => holds.1
    refine Safe.bind ((keeps_openSupportSession req target.1 target.2 grant).weaken
      fun _ _ holds => ⟨holds.1, holds.2.1, holds.2.2 rfl⟩) fun opened => ?_
    cases opened with
    | ok record => exact fun w _ holds => holds.1
    | error e =>
        refine Safe.bind ((keeps_release target.1.id).weaken
          fun _ _ holds => ⟨holds.1, holds.2 e rfl⟩) fun _ => ?_
        exact fun w _ ending => ending

theorem keeps_program (call : SupportCall) :
    Keeps settings i (fun _ => Ending i none) (call.program settings) (Ending i none) := by
  have ends {A : Type} {p : SupportProg A}
      (keeps : Keeps settings i (fun _ => Ending i none) p (Ending i none)) :
      Keeps settings i (fun _ => Ending i none) (ignored p) (Ending i none) :=
    keeps.bind fun _ w _ ending => ending
  cases call with
  | grantConsent req => exact ends (keeps_grantConsent req)
  | revokeConsent tenantId grantId userId reason => exact ends (keeps_revokeConsent _ _ _ _)
  | revokeGrantAsAdmin adminId grantId reason => exact ends (keeps_revokeGrantAsAdmin _ _ _)
  | requestBreakGlass req => exact ends (keeps_requestBreakGlass req)
  | approveBreakGlass adminId grantId reason => exact ends (keeps_approveBreakGlass _ _ _)
  | denyBreakGlass adminId grantId reason => exact ends (keeps_denyBreakGlass _ _ _)
  | impersonate req => exact ends (keeps_impersonate req)

/-- Nothing has been granted, opened or counted yet. -/
structure SupportStart (db : SupportDb) : Prop where
  grants : db.grants = []
  sessions : db.sessions = []
  records : db.records = []
  counters : ∀ adminId day, db.counters adminId day = 0

theorem SupportStart.inv {s₀ : SupportDb} (start : SupportStart s₀) :
    SupportInv settings { store := s₀, trace := [] } where
  grants := by
    refine ⟨?_, ?_, ?_⟩
    all_goals
      dsimp only
      rw [start.grants]
    · exact List.nodup_nil
    · exact fun g mem => absurd mem List.not_mem_nil
    · exact fun g mem => absurd mem List.not_mem_nil
  sessions := by
    refine ⟨fun o mem => absurd mem List.not_mem_nil, fun o mem => absurd mem List.not_mem_nil,
      fun r mem => ?_, fun _ o mem => absurd mem List.not_mem_nil⟩
    dsimp only at mem
    rw [start.records] at mem
    exact absurd mem List.not_mem_nil
  budget := by
    refine ⟨fun adminId day => ?_, fun adminId day => ?_, fun _ _ _ _ => le_rfl⟩
    · have none : startedOn s₀ adminId day = [] := by rw [startedOn, start.records, List.filter_nil]
      dsimp only
      rw [none, start.counters]
      exact le_rfl
    · dsimp only
      rw [start.counters]
      exact le_max_left _ _

theorem supportDiscipline {s₀ : SupportDb} (start : SupportStart s₀) :
    Discipline (supportSystem settings) (SupportInv settings) (SupportStep settings)
      (fun i _ => Ending i none) s₀ where
  init := start.inv
  env := fun _ _ inv outside => inv.env outside
  start := by
    rintro i p ⟨call, rfl⟩
    refine ⟨Ending i none, steady_ending none, fun w _ unused _ e mem => ?_, keeps_program call⟩
    rw [World.own, List.mem_filter] at mem
    exact absurd (of_decide_eq_true mem.2) (unused e mem.1)

end Operations

end AnalyticsBackend.Support
