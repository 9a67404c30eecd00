import AnalyticsBackend.Support.Access

/-!
# Runs of support access

What every step does to the grants, the sessions and the budget. Grants and sessions are never taken
away, a revoked grant stays revoked and an ended session stays ended.
-/

namespace AnalyticsBackend.Support
open Lib System Platform

/-! ## What a run has done -/

def SupportLabel.opening : SupportLabel → Option Opening
  | .createSession opening => some opening
  | _ => none

/-- The sessions that were opened, the latest first. -/
def openings (trace : List SupportEvent) : List Opening := trace.filterMap fun e => e.label.opening

def SupportDb.live (db : SupportDb) (sessionId : String) : Bool :=
  db.sessions.any fun s => s.sessionId = sessionId && s.status = .active

def SupportDb.recorded (db : SupportDb) (sessionId grantId : String) : Bool :=
  db.records.any fun r => r.sessionId = sessionId && r.grantId = grantId && r.status = .active

def SupportDb.revoked (db : SupportDb) (grantId : String) : Bool :=
  db.grants.any fun g => g.grantId = grantId && g.status = .revoked

def revokes (e : SupportEvent) : List String :=
  (e.before.grants.filter fun g => g.status ≠ .revoked && (e.label.decide g).status = .revoked).map
    SupportGrant.grantId

/-- No session is opened under a revoked grant. A grant is revoked while each live session under it
has its record, and a consent is superseded while no session under it is live. -/
def cleanStep (earlier : List SupportEvent) (e : SupportEvent) : Bool :=
  match e.label with
  | .createSession opening => !e.before.revoked opening.grantId
  | .transitionGrant _ _ _ =>
      (openings earlier).all fun o =>
        !(revokes e).contains o.grantId || !e.before.live o.session.sessionId ||
          e.before.recorded o.session.sessionId o.grantId
  | .revokeConsents _ _ _ _ =>
      (openings earlier).all fun o =>
        !(revokes e).contains o.grantId || !e.before.live o.session.sessionId
  | _ => true

def cleanThroughout : List SupportEvent → Bool
  | [] => true
  | e :: earlier => cleanStep earlier e && cleanThroughout earlier

def lastSlot (cap : Int) : List SupportEvent → Option (String × Int)
  | [] => none
  | e :: earlier =>
      match e.label with
      | .takeSlot adminId day =>
          if e.before.hasSlot cap adminId day then some (adminId, day) else lastSlot cap earlier
      | _ => lastSlot cap earlier

def SupportLabel.spends : SupportLabel → Option (String × Int)
  | .giveBack adminId day => some (adminId, day)
  | .createRecord record => some (record.adminId, Calendar.day record.startedAt)
  | _ => none

/-- A process records its session, or gives its slot back, on the day of the slot. -/
def sameDay (cap : Int) : List SupportEvent → Bool
  | [] => true
  | e :: earlier =>
      (e.label.spends.all fun spent => lastSlot cap earlier = some spent) && sameDay cap earlier

def share (cap : Int) (adminId : String) (day : Int) (e : SupportEvent) : Int :=
  (if e.label = .takeSlot adminId day ∧ e.before.hasSlot cap adminId day = true then 1 else 0) -
    (if e.label.spends = some (adminId, day) then 1 else 0)

def startedOn (db : SupportDb) (adminId : String) (day : Int) : List SupportImpersonation :=
  db.records.filter fun r => r.adminId = adminId && Calendar.day r.startedAt = day

/-! ## Steps -/

section Steps

variable {settings : SupportSettings} {label : SupportLabel} {db : SupportDb}

def SupportLabel.newGrant : SupportLabel → List SupportGrant
  | .createGrant grant => [grant]
  | _ => []

theorem act_grants : (label.act settings db).grants = db.grants.map label.decide ++ label.newGrant := by
  have same {label : SupportLabel} (quiet : ∀ g, label.decide g = g) :
      db.grants = db.grants.map label.decide ++ [] := by
    rw [List.append_nil, List.map_congr_left fun g _ => quiet g, List.map_id']
  cases label with
  | createGrant grant =>
      simp only [SupportLabel.act, SupportLabel.newGrant]
      exact congrArg (· ++ [grant]) ((same fun g => rfl).trans (List.append_nil _))
  | transitionGrant | revokeConsents => exact (List.append_nil _).symm
  | takeSlot =>
      simp only [SupportLabel.act]
      split <;> exact same fun g => rfl
  | look | giveBack | createSession | revokeSession | createRecord | endRecord =>
      exact same fun g => rfl

@[simp] theorem apply_grantId (grant : SupportGrant) (decision : GrantDecision) :
    (decision.apply grant).grantId = grant.grantId := by
  cases decision <;> rfl

@[simp] theorem decide_grantId (grant : SupportGrant) : (label.decide grant).grantId = grant.grantId := by
  cases label <;> simp only [SupportLabel.decide] <;> split <;> simp

theorem decide_same (grant : SupportGrant) :
    (label.decide grant).kind = grant.kind ∧ (label.decide grant).requestedBy = grant.requestedBy ∧
      (label.decide grant).tenantId = grant.tenantId := by
  have applied (decision : GrantDecision) : (decision.apply grant).kind = grant.kind ∧
      (decision.apply grant).requestedBy = grant.requestedBy ∧
      (decision.apply grant).tenantId = grant.tenantId := by
    cases decision <;> exact ⟨rfl, rfl, rfl⟩
  cases label with
  | transitionGrant | revokeConsents =>
      simp only [SupportLabel.decide]
      split
      · exact applied _
      · exact ⟨rfl, rfl, rfl⟩
  | _ => exact ⟨rfl, rfl, rfl⟩

def SupportGrant.used (grant : SupportGrant) : Bool := grant.status = .active || grant.status = .revoked

theorem decide_used {grant : SupportGrant} (used : grant.used = true) :
    (label.decide grant).used = true ∧ (label.decide grant).expiresAt = grant.expiresAt ∧
      (label.decide grant).decidedBy = grant.decidedBy ∧
      (label.decide grant).decidedAt = grant.decidedAt := by
  cases label with
  | transitionGrant grantId tenantId decision =>
      simp only [SupportLabel.decide]
      split
      · rename_i decides
        cases decision with
        | revoke => exact ⟨rfl, rfl, rfl, rfl⟩
        | approve | deny =>
            simp only [SupportLabel.decides, GrantDecision.fromStatuses, Bool.and_eq_true,
              List.contains_iff_mem, List.mem_singleton] at decides
            simp [SupportGrant.used, decides.2] at used
      · exact ⟨used, rfl, rfl, rfl⟩
  | revokeConsents =>
      simp only [SupportLabel.decide]
      split
      · exact ⟨rfl, rfl, rfl, rfl⟩
      · exact ⟨used, rfl, rfl, rfl⟩
  | _ => exact ⟨used, rfl, rfl, rfl⟩

theorem decide_revoked {grant : SupportGrant} (revoked : grant.status = .revoked) :
    (label.decide grant).status = .revoked := by
  have not (decides : label.decides grant = true) : False := by
    cases label with
    | transitionGrant grantId tenantId decision =>
        cases decision <;> simp [SupportLabel.decides, GrantDecision.fromStatuses, revoked] at decides
    | revokeConsents => simp [SupportLabel.decides, revoked] at decides
    | _ => exact nomatch decides
  cases label with
  | transitionGrant | revokeConsents =>
      simp only [SupportLabel.decide]
      rw [if_neg not, revoked]
  | _ => exact revoked

theorem decide_active {grant : SupportGrant} (active : (label.decide grant).status = .active) :
    label.decide grant = grant ∨ ∃ tenantId approver now reason expiresAt,
      label = .transitionGrant grant.grantId tenantId (.approve approver now reason expiresAt) ∧
        label.decide grant = (GrantDecision.approve approver now reason expiresAt).apply grant := by
  cases label with
  | transitionGrant grantId tenantId decision =>
      by_cases decides : (SupportLabel.transitionGrant grantId tenantId decision).decides grant = true
      · cases decision with
        | approve approver now reason expiresAt =>
            have same : grant.grantId = grantId := by
              simp only [SupportLabel.decides, Bool.and_eq_true, decide_eq_true_eq] at decides
              exact decides.1.1
            refine .inr ⟨tenantId, approver, now, reason, expiresAt, by rw [same], ?_⟩
            simp only [SupportLabel.decide, decides, if_true]
        | deny | revoke =>
            simp only [SupportLabel.decide, decides, if_true] at active
            exact nomatch active
      · refine .inl ?_
        simp only [SupportLabel.decide]
        rw [if_neg decides]
  | revokeConsents grantIds tenantId revokedBy now =>
      by_cases decides : (SupportLabel.revokeConsents grantIds tenantId revokedBy now).decides grant = true
      · simp only [SupportLabel.decide, decides, if_true] at active
        exact nomatch active
      · refine .inl ?_
        simp only [SupportLabel.decide]
        rw [if_neg decides]
  | _ => exact .inl rfl

theorem mem_act_sessions {s' : SupportSession} (mem : s' ∈ (label.act settings db).sessions) :
    (∃ s ∈ db.sessions, s.sessionId = s'.sessionId ∧ (s'.status = .active → s.status = .active)) ∨
      ∃ opening, label.opening = some opening ∧ s' = opening.session := by
  cases label with
  | createSession opening =>
      rcases List.mem_append.mp mem with old | new
      · exact .inl ⟨s', old, rfl, id⟩
      · exact .inr ⟨opening, rfl, List.mem_singleton.mp new⟩
  | revokeSession sessionId =>
      obtain ⟨s, old, rfl⟩ := List.mem_map.mp mem
      refine .inl ⟨s, old, ?_, ?_⟩
      · split <;> rfl
      · split
        · exact nofun
        · exact id
  | takeSlot =>
      simp only [SupportLabel.act] at mem
      split at mem <;> exact .inl ⟨s', mem, rfl, id⟩
  | look | createGrant | transitionGrant | revokeConsents | giveBack | createRecord | endRecord =>
      exact .inl ⟨s', mem, rfl, id⟩

theorem act_sessions_keeps {s : SupportSession} (mem : s ∈ db.sessions) :
    ∃ s' ∈ (label.act settings db).sessions, s'.sessionId = s.sessionId := by
  cases label with
  | createSession opening => exact ⟨s, List.mem_append_left _ mem, rfl⟩
  | revokeSession sessionId => exact ⟨_, List.mem_map_of_mem mem, by split <;> rfl⟩
  | takeSlot =>
      simp only [SupportLabel.act]
      split <;> exact ⟨s, mem, rfl⟩
  | look | createGrant | transitionGrant | revokeConsents | giveBack | createRecord | endRecord =>
      exact ⟨s, mem, rfl⟩

theorem live_act {sessionId : String} (live : (label.act settings db).live sessionId = true) :
    db.live sessionId = true ∨ ∃ opening, label.opening = some opening ∧
      opening.session.sessionId = sessionId := by
  obtain ⟨s', mem, is⟩ := List.any_eq_true.mp live
  simp only [Bool.and_eq_true, decide_eq_true_eq] at is
  obtain ⟨rfl, active⟩ := is
  rcases mem_act_sessions mem with ⟨s, old, same, was⟩ | ⟨opening, opens, rfl⟩
  · refine .inl (List.any_eq_true.mpr ⟨s, old, ?_⟩)
    simp [same, was active]
  · exact .inr ⟨opening, opens, rfl⟩

def SupportLabel.newRecord : SupportLabel → List SupportImpersonation
  | .createRecord record => [record]
  | _ => []

theorem mem_act_records {r' : SupportImpersonation} (mem : r' ∈ (label.act settings db).records) :
    (∃ r ∈ db.records, r'.sessionId = r.sessionId ∧ r'.adminId = r.adminId ∧ r'.grantId = r.grantId ∧
      r'.startedAt = r.startedAt ∧ r'.expiresAt = r.expiresAt) ∨ r' ∈ label.newRecord := by
  cases label with
  | createRecord record =>
      rcases List.mem_append.mp mem with old | new
      · exact .inl ⟨r', old, rfl, rfl, rfl, rfl, rfl⟩
      · exact .inr new
  | endRecord =>
      obtain ⟨r, old, rfl⟩ := List.mem_map.mp mem
      exact .inl ⟨r, old, by split <;> exact ⟨rfl, rfl, rfl, rfl, rfl⟩⟩
  | takeSlot =>
      simp only [SupportLabel.act] at mem
      split at mem <;> exact .inl ⟨r', mem, rfl, rfl, rfl, rfl, rfl⟩
  | look | createGrant | transitionGrant | revokeConsents | giveBack | createSession | revokeSession =>
      exact .inl ⟨r', mem, rfl, rfl, rfl, rfl, rfl⟩

theorem recorded_act {sessionId grantId : String} (recorded : db.recorded sessionId grantId = true) :
    (label.act settings db).recorded sessionId grantId = true ∨
      ∃ endedBy now, label = .endRecord sessionId endedBy now := by
  obtain ⟨r, mem, is⟩ := List.any_eq_true.mp recorded
  have kept : r ∈ (label.act settings db).records →
      (label.act settings db).recorded sessionId grantId = true :=
    fun there => List.any_eq_true.mpr ⟨r, there, is⟩
  cases label with
  | createRecord => exact .inl (kept (List.mem_append_left _ mem))
  | endRecord ended endedBy now =>
      by_cases same : sessionId = ended
      · exact .inr ⟨endedBy, now, by rw [same]⟩
      · refine .inl (kept (List.mem_map.mpr ⟨r, mem, if_neg ?_⟩))
        simp only [Bool.and_eq_true, decide_eq_true_eq] at is
        exact fun ends => same (is.1.1.symm.trans ends.1)
  | takeSlot =>
      simp only [SupportLabel.act] at kept ⊢
      split
      · rename_i free
        rw [if_pos free] at kept
        exact .inl (kept mem)
      · rename_i full
        rw [if_neg full] at kept
        exact .inl (kept mem)
  | look | createGrant | transitionGrant | revokeConsents | giveBack | createSession | revokeSession =>
      exact .inl (kept mem)

theorem startedOn_act (adminId : String) (day : Int) :
    (startedOn (label.act settings db) adminId day).length =
      (startedOn db adminId day).length + (startedOn { db with records := label.newRecord } adminId day).length := by
  cases label with
  | createRecord record =>
      simp only [startedOn, SupportLabel.act, SupportLabel.newRecord, List.filter_append,
        List.length_append]
  | endRecord sessionId endedBy now =>
      simp only [startedOn, SupportLabel.act, SupportLabel.newRecord, List.filter_nil,
        List.length_nil, Nat.add_zero, List.filter_map, List.length_map]
      refine congrArg List.length (List.filter_congr fun r _ => ?_)
      dsimp only [Function.comp]
      split <;> rfl
  | takeSlot =>
      simp only [SupportLabel.act]
      split <;> rfl
  | look | createGrant | transitionGrant | revokeConsents | giveBack | createSession | revokeSession =>
      rfl

theorem revoked_act {grantId : String} (revoked : db.revoked grantId = true) :
    (label.act settings db).revoked grantId = true := by
  obtain ⟨g, mem, is⟩ := List.any_eq_true.mp revoked
  simp only [Bool.and_eq_true, decide_eq_true_eq] at is
  refine List.any_eq_true.mpr ⟨label.decide g, ?_, ?_⟩
  · rw [act_grants]
    exact List.mem_append_left _ (List.mem_map_of_mem mem)
  · simp [is.1, decide_revoked is.2]

theorem revoked_of_act {i : Nat} {db' : SupportDb} {grantId : String}
    (new : ∀ g ∈ label.newGrant, g.status ≠ .revoked)
    (revoked : (label.act settings db).revoked grantId = true) :
    db.revoked grantId = true ∨ grantId ∈ revokes ⟨i, label, db, db'⟩ := by
  obtain ⟨g', mem, is⟩ := List.any_eq_true.mp revoked
  simp only [Bool.and_eq_true, decide_eq_true_eq] at is
  rw [act_grants] at mem
  rcases List.mem_append.mp mem with old | fresh
  · obtain ⟨g, was, rfl⟩ := List.mem_map.mp old
    rw [decide_grantId] at is
    by_cases before : g.status = .revoked
    · exact .inl (List.any_eq_true.mpr ⟨g, was, by simp [is.1, before]⟩)
    · refine .inr (List.mem_map.mpr ⟨g, List.mem_filter.mpr ⟨was, ?_⟩, is.1⟩)
      simp [before, is.2]
  · exact absurd is.2 (new g' fresh)

end Steps

end AnalyticsBackend.Support
