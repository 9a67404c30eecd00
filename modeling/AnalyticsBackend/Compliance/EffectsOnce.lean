import AnalyticsBackend.Compliance.Request

/-!
# A request takes effect once

`startProcessing` hands the row on whether or not its own transition found the request
`received`. The effects of a request are therefore those of one delivery, and none after a
cancellation, in the runs where no delivery comes to its claim once the request has left
`received`. What a delivery does is read off its own steps; that only one claim can land is an
invariant of the row.
-/

namespace AnalyticsBackend.Compliance
open Lib System

abbrev ComplianceEvent := Event Nat ComplianceLabel ComplianceDb
abbrev ComplianceWorld := World Nat ComplianceLabel ComplianceDb

/-- The effects of processing a request. -/
inductive Effect where
  | erased
  | sessionsRevoked
  | evidenceStored
  | completed
  | evidenceAttached
  | recorded
  deriving DecidableEq, Repr

/-- The effect a step is there for, whether or not it finds something to change. -/
def ComplianceLabel.effect : ComplianceLabel → Option Effect
  | .look | .file _ => none
  | .transition _ _ toState _ => if toState = .completed then some .completed else none
  | .attach _ _ => some .evidenceAttached
  | .softDelete _ _ _ _ => some .erased
  | .revokeSessions _ _ _ => some .sessionsRevoked
  | .put _ _ => some .evidenceStored
  | .audit event => if event.action.outcome = .completed then some .recorded else none

/-- A transition to `toState` that its filter lets through. -/
def ComplianceLabel.enters (requestId : String) (target : RequestStatus) (db : ComplianceDb) :
    ComplianceLabel → Bool
  | .transition id fromStates toState _ =>
      id = requestId && toState = target && (db.awaiting id fromStates).isSome
  | _ => false

/-- A delivery's own claim succeeded. -/
def Starts (requestId : String) (e : ComplianceEvent) : Prop :=
  e.label.enters requestId .inProgress e.before = true

/-- A cancellation was accepted. -/
def Cancels (requestId : String) (e : ComplianceEvent) : Prop :=
  e.label.enters requestId .cancelled e.before = true

/-- The effects are those of a run whose own claim succeeded, each happens at most once, and
there are none when a cancellation was accepted before any claim. -/
structure EffectsOnce (requestId : String) (trace : List ComplianceEvent) : Prop where
  own : ∀ later e earlier, trace = later ++ e :: earlier → e.label.effect.isSome = true →
    ∃ e' ∈ earlier, e'.tid = e.tid ∧ Starts requestId e'
  once : ∀ kind, trace.countP (fun e => e.label.effect = some kind) ≤ 1
  cancelled : ∀ later e earlier, trace = later ++ e :: earlier → Cancels requestId e →
    (∀ e' ∈ earlier, ¬ Starts requestId e') → ∀ e' ∈ trace, e'.label.effect = none

/-- A delivery comes to its claim only while the request is `received`. -/
def ClaimsReceived : ComplianceLabel → ComplianceDb → ComplianceDb → Prop
  | .transition requestId _ .inProgress _, db, _ =>
      ∃ row, db.requests requestId = some row ∧ row.status = .received
  | _, _, _ => True

/-- Any number of cancellations and of deliveries to any of the processors, for one request.
From outside everything but the request may change. -/
def complianceSystem (requestId : String) (ok : ComplianceLabel → ComplianceDb → ComplianceDb → Prop) :
    System Nat ComplianceLabel ComplianceDb (Result Unit) where
  start _ p :=
    (∃ actor reason, p = (cancelRequest requestId actor reason).andThen fun _ => succeed ()) ∨
      ∃ type, p = (complianceProcessor type requestId).andThen fun _ => succeed ()
  env db db' := db'.requests requestId = db.requests requestId
  ok

/-! ## The trail of a delivery -/

/-- A step with an effect comes after the process's own claim, and no earlier step of the process
had that effect. -/
def AfterClaim (requestId : String) (past : List (ComplianceLabel × ComplianceDb))
    (label : ComplianceLabel) (_ : ComplianceDb) : Prop :=
  ∀ kind, label.effect = some kind →
    (∃ x ∈ past, x.1.enters requestId .inProgress x.2 = true) ∧ ∀ x ∈ past, x.1.effect ≠ some kind

/-- The process has claimed the request, and had no effects but these. -/
structure Claimed (requestId : String) (had : List Effect)
    (past : List (ComplianceLabel × ComplianceDb)) : Prop where
  claim : ∃ x ∈ past, x.1.enters requestId .inProgress x.2 = true
  effects : ∀ x ∈ past, ∀ kind, x.1.effect = some kind → kind ∈ had

section Trail

variable {requestId : String} {had : List Effect} {past : List (ComplianceLabel × ComplianceDb)}
  {label : ComplianceLabel} {db : ComplianceDb}

theorem afterClaim_of_quiet (quiet : label.effect = none) : AfterClaim requestId past label db := by
  intro kind has
  rw [quiet] at has
  exact nomatch has

theorem Claimed.quiet (claimed : Claimed requestId had past) (quiet : label.effect = none) :
    Claimed requestId had ((label, db) :: past) := by
  obtain ⟨x, mem, claim⟩ := claimed.claim
  refine ⟨⟨x, List.mem_cons_of_mem _ mem, claim⟩, ?_⟩
  intro x mem kind has
  rcases List.mem_cons.mp mem with rfl | mem
  · rw [quiet] at has
    exact nomatch has
  · exact claimed.effects x mem kind has

theorem Claimed.step {kind : Effect} (claimed : Claimed requestId had past)
    (label : ComplianceLabel) (db : ComplianceDb) (effect : label.effect = some kind)
    (new : kind ∉ had) :
    AfterClaim requestId past label db ∧ Claimed requestId (kind :: had) ((label, db) :: past) := by
  constructor
  · intro kind' has
    rw [effect, Option.some.injEq] at has
    subst has
    exact ⟨claimed.claim, fun x mem has => new (claimed.effects x mem kind has)⟩
  · obtain ⟨x, mem, claim⟩ := claimed.claim
    refine ⟨⟨x, List.mem_cons_of_mem _ mem, claim⟩, ?_⟩
    intro x mem kind' has
    rcases List.mem_cons.mp mem with rfl | mem
    · rw [effect, Option.some.injEq] at has
      exact has ▸ List.mem_cons_self
    · exact List.mem_cons_of_mem _ (claimed.effects x mem kind' has)

theorem Claimed.mono {had' : List Effect} (claimed : Claimed requestId had past)
    (more : ∀ kind ∈ had, kind ∈ had') : Claimed requestId had' past :=
  ⟨claimed.claim, fun x mem kind has => more kind (claimed.effects x mem kind has)⟩

/-- No step of the program has an effect. -/
def Quiet {A : Type} (p : ComplianceProg A) : Prop := p.Each fun label _ => label.effect = none

theorem quiet_trail {A : Type} {p : ComplianceProg A} (quiet : Quiet p)
    (claimed : Claimed requestId had past) :
    p.Trail ClaimsReceived (AfterClaim requestId) (fun _ past => Claimed requestId had past)
      past := by
  refine Prog.Trail.of_each claimed (quiet.mono ?_)
  intro label _ none past db claimed
  exact ⟨afterClaim_of_quiet none, claimed.quiet none⟩

theorem quiet_look {A : Type} (f : ComplianceDb → A) : Quiet (look f) := Prog.Each.read rfl

theorem quiet_write {A : Type} {label : ComplianceLabel} {report : ComplianceDb → A}
    (quiet : label.effect = none) : Quiet (write label report) := Prog.Each.update quiet

theorem quiet_findUser (userId : String) : Quiet (findUser userId) := by
  unfold findUser
  split
  · exact (quiet_look _).bind fun _ => trivial
  · trivial

theorem quiet_getTenantSummary (tenantId : String) : Quiet (getTenantSummary tenantId) := by
  unfold getTenantSummary
  split
  · exact (quiet_look _).bind fun _ => trivial
  · trivial

theorem quiet_collectPages (filter : AuditEntry → Bool) (left page : Nat)
    (records : List AuditEntry) : Quiet (collectPages filter left page records) := by
  induction left generalizing page records with
  | zero => trivial
  | succ left ih =>
      refine (quiet_look _).bind fun docs => ?_
      dsimp only
      split
      · trivial
      · split
        · trivial
        · exact ih _ _

theorem quiet_subjectSummary (row : ComplianceLog) : Quiet (subjectSummary row) := by
  unfold subjectSummary
  split
  · exact (quiet_findUser _).andThen fun _ => trivial
  · exact (quiet_getTenantSummary _).andThen fun _ => trivial

theorem quiet_buildSubjectManifest (row : ComplianceLog) : Quiet (buildSubjectManifest row) := by
  refine (quiet_subjectSummary row).andThen fun subject => ?_
  refine (quiet_collectPages _ _ _ _).bind fun records => ?_
  exact (quiet_look _).bind fun _ => trivial

theorem quiet_cancelRequest (actor : Option String) (reason : String) :
    Quiet (cancelRequest requestId actor reason) := by
  refine (quiet_look _).bind fun found => ?_
  cases found with
  | none => trivial
  | some row =>
      refine (quiet_look _).bind fun now => ?_
      refine Prog.Each.bind (quiet_write rfl) fun updated => ?_
      cases updated with
      | none => trivial
      | some row => exact (quiet_write rfl).bind fun _ => trivial

theorem startOrNotFound_trail (type : RequestType) :
    (startOrNotFound requestId type).Trail ClaimsReceived (AfterClaim requestId)
      (fun result past => ∀ row, result = .ok row → Claimed requestId [] past) [] := by
  refine Prog.Trail.andThen (R := fun result past =>
    ∀ row, result = .ok (some row) → Claimed requestId [] past) ?_ ?_ ?_
  · unfold startProcessing
    split
    · exact fun row same => nomatch same
    · refine Prog.Trail.bind (R := fun _ past => ∃ db, past = [(.look, db)])
        (fun db _ => ⟨afterClaim_of_quiet rfl, db, rfl⟩) fun found past looked => ?_
      obtain ⟨db, rfl⟩ := looked
      cases found with
      | none => exact fun row same => nomatch same
      | some row =>
          dsimp only
          split
          · exact fun row same => nomatch same
          · intro db' received
            refine ⟨afterClaim_of_quiet rfl, fun row' _ => ?_⟩
            obtain ⟨stored, found, status⟩ := received
            constructor
            · refine ⟨_, List.mem_cons_self, ?_⟩
              simp [ComplianceLabel.enters, ComplianceDb.awaiting, found, status]
            · intro x mem kind has
              simp only [List.mem_cons, List.not_mem_nil, or_false] at mem
              rcases mem with rfl | rfl <;> exact nomatch has
  · intro found past claimed
    cases found with
    | none => exact fun row same => nomatch same
    | some row => exact fun row' _ => claimed row rfl
  · exact fun e past _ row same => nomatch same

theorem softDelete_trail (userId : String) (deletedBy : Option String)
    (claimed : Claimed requestId [] past) :
    (softDelete userId deletedBy).Trail ClaimsReceived (AfterClaim requestId)
      (fun _ past => Claimed requestId [.erased] past) past := by
  have some_effects : ∀ kind ∈ ([] : List Effect), kind ∈ [Effect.erased] := by simp
  refine (quiet_trail (quiet_findUser userId) claimed).andThen ?_ fun e past h => h.mono some_effects
  intro found past claimed
  cases found with
  | none => exact claimed.mono some_effects
  | some user =>
      refine (quiet_trail (quiet_look _) claimed).bind fun now past claimed => ?_
      intro db _
      obtain ⟨may, claimed⟩ := claimed.step (.softDelete userId deletedBy user.version now) db rfl
        (by simp)
      refine ⟨may, ?_⟩
      show Prog.Trail _ _ _ _ (ite _ _ _)
      split <;> exact claimed

theorem revokeAllForActor_trail (actorId reason : String)
    (claimed : Claimed requestId [.erased] past) :
    (revokeAllForActor actorId reason).Trail ClaimsReceived (AfterClaim requestId)
      (fun _ past => Claimed requestId [.sessionsRevoked, .erased] past) past := by
  refine (quiet_trail (quiet_look _) claimed).bind fun now past claimed => ?_
  exact fun db _ => claimed.step _ _ rfl (by decide)

theorem purgeSubject_trail (row : ComplianceLog) (claimed : Claimed requestId [] past) :
    (purgeSubject row).Trail ClaimsReceived (AfterClaim requestId)
      (fun _ past => Claimed requestId [.sessionsRevoked, .erased] past) past := by
  have more : ∀ {had}, (∀ kind ∈ had, kind ∈ [Effect.erased]) → ∀ {past},
      Claimed requestId had past → Claimed requestId [.sessionsRevoked, .erased] past :=
    fun few _ claimed => claimed.mono fun kind mem => List.mem_cons_of_mem _ (few kind mem)
  have few : ∀ kind ∈ ([] : List Effect), kind ∈ [Effect.erased] := by simp
  unfold purgeSubject
  split
  · refine (quiet_trail (quiet_findUser _) claimed).andThen ?_ fun e past h => more few h
    intro found past claimed
    cases found with
    | none => exact more few claimed
    | some user =>
        refine (softDelete_trail _ _ claimed).andThen ?_ fun e past h => more (fun _ h => h) h
        intro _ past claimed
        refine (revokeAllForActor_trail _ _ claimed).bind fun _ past claimed => ?_
        exact (quiet_trail (quiet_look _) claimed).bind fun _ past claimed => claimed
  · exact (quiet_trail (quiet_getTenantSummary _) claimed).andThen (fun _ past h => more few h)
      fun e past h => more few h

theorem attachEvidenceAndAudit_trail (row : ComplianceLog) (done : Option ComplianceLog)
    (storageKey : String) (recordCount : Nat)
    (claimed : Claimed requestId [.completed, .evidenceStored, .sessionsRevoked, .erased] past) :
    (attachEvidenceAndAudit row done storageKey recordCount).Trail ClaimsReceived
      (AfterClaim requestId) (fun _ _ => True) past := by
  unfold attachEvidenceAndAudit
  dsimp only
  split
  · intro db _
    obtain ⟨may, claimed⟩ := claimed.step (.attach row.requestId storageKey) db rfl (by decide)
    exact ⟨may, fun db _ => ⟨(claimed.step _ _ rfl (by decide)).1, trivial⟩⟩
  · exact fun db _ => ⟨(claimed.step _ _ rfl (by decide)).1, trivial⟩

theorem finish_trail (row : ComplianceLog) (storageKey : String) (manifest : Mongo.Doc)
    (recordCount : Nat) (claimed : Claimed requestId [.sessionsRevoked, .erased] past) :
    (finish requestId row storageKey manifest recordCount).Trail ClaimsReceived
      (AfterClaim requestId) (fun _ _ => True) past := by
  intro db _
  obtain ⟨may, claimed⟩ := claimed.step (.put storageKey manifest) db rfl (by decide)
  refine ⟨may, (quiet_trail (quiet_look _) claimed).bind fun now past claimed => ?_⟩
  refine Prog.Trail.bind (R := fun _ past =>
    Claimed requestId [.completed, .evidenceStored, .sessionsRevoked, .erased] past)
    (fun db _ => claimed.step _ _ rfl (by decide)) fun done past claimed => ?_
  exact (attachEvidenceAndAudit_trail _ _ _ _ claimed).bind fun _ _ _ => trivial

theorem processor_trail (type : RequestType) :
    (complianceProcessor type requestId).Trail ClaimsReceived (AfterClaim requestId)
      (fun _ _ => True) [] := by
  have few : ∀ kind ∈ ([] : List Effect), kind ∈ [Effect.sessionsRevoked, .erased] := by simp
  have recorded : ∀ folder timeField note type,
      (recordRequest requestId folder timeField note type).Trail ClaimsReceived
        (AfterClaim requestId) (fun _ _ => True) [] := by
    intro folder timeField note type
    refine (startOrNotFound_trail type).andThen ?_ fun _ _ _ => trivial
    intro row past claimed
    refine (quiet_trail (quiet_look _) (claimed row rfl)).bind fun now past claimed => ?_
    exact (finish_trail _ _ _ _ (claimed.mono few)).bind fun _ _ _ => trivial
  cases type with
  | dataExport =>
      refine (startOrNotFound_trail _).andThen ?_ fun _ _ _ => trivial
      intro row past claimed
      refine (quiet_trail (quiet_buildSubjectManifest row) (claimed row rfl)).andThen ?_
        fun _ _ _ => trivial
      intro built past claimed
      exact (finish_trail _ _ _ _ (claimed.mono few)).bind fun _ _ _ => trivial
  | delete =>
      refine (startOrNotFound_trail _).andThen ?_ fun _ _ _ => trivial
      intro row past claimed
      refine (quiet_trail (quiet_look _) (claimed row rfl)).bind fun now past claimed => ?_
      refine (purgeSubject_trail row claimed).andThen ?_ fun _ _ _ => trivial
      intro purged past claimed
      exact (finish_trail _ _ _ _ claimed).bind fun _ _ _ => trivial
  | restrict => exact recorded _ _ _ _
  | consentWithdraw => exact recorded _ _ _ _

end Trail

/-! ## The claim of a request -/

/-- The transitions of one request: none goes back to `received`, `in_progress` is entered from
`received` only, and a request that is closed stays as it is. -/
def Onward (requestId : String) : ComplianceLabel → Prop
  | .transition id fromStates toState _ =>
      id = requestId ∧ toState ≠ .received ∧ (toState = .inProgress → fromStates = [.received]) ∧
        ∀ status ∈ fromStates, status = .received ∨ status = .inProgress
  | _ => True

/-- A step of the store that its label describes. -/
def Lawful (requestId : String) (label : ComplianceLabel) (act : ComplianceDb → ComplianceDb) :
    Prop := act = label.act ∧ Onward requestId label

section Lawful

variable {requestId : String}

theorem lawful_look {A : Type} (f : ComplianceDb → A) : (look f).Each (Lawful requestId) :=
  Prog.Each.read ⟨rfl, trivial⟩

theorem lawful_write {A : Type} {label : ComplianceLabel} {report : ComplianceDb → A}
    (onward : Onward requestId label) : (write label report).Each (Lawful requestId) :=
  Prog.Each.update ⟨rfl, onward⟩

theorem lawful_findUser (userId : String) : (findUser userId).Each (Lawful requestId) := by
  unfold findUser
  split
  · exact (lawful_look _).bind fun _ => trivial
  · trivial

theorem lawful_getTenantSummary (tenantId : String) :
    (getTenantSummary tenantId).Each (Lawful requestId) := by
  unfold getTenantSummary
  split
  · exact (lawful_look _).bind fun _ => trivial
  · trivial

theorem lawful_collectPages (filter : AuditEntry → Bool) (left page : Nat)
    (records : List AuditEntry) :
    (collectPages filter left page records).Each (Lawful requestId) := by
  induction left generalizing page records with
  | zero => trivial
  | succ left ih =>
      refine (lawful_look _).bind fun docs => ?_
      dsimp only
      split
      · trivial
      · split
        · trivial
        · exact ih _ _

theorem lawful_buildSubjectManifest (row : ComplianceLog) :
    (buildSubjectManifest row).Each (Lawful requestId) := by
  refine Prog.Each.andThen ?_ fun subject => ?_
  · unfold subjectSummary
    split
    · exact (lawful_findUser _).andThen fun _ => trivial
    · exact (lawful_getTenantSummary _).andThen fun _ => trivial
  · refine (lawful_collectPages _ _ _ _).bind fun records => ?_
    exact (lawful_look _).bind fun _ => trivial

theorem lawful_softDelete (userId : String) (deletedBy : Option String) :
    (softDelete userId deletedBy).Each (Lawful requestId) := by
  refine (lawful_findUser _).andThen fun found => ?_
  cases found with
  | none => trivial
  | some user =>
      refine (lawful_look _).bind fun now => Prog.Each.bind (lawful_write trivial) fun saved => ?_
      cases saved <;> trivial

theorem lawful_purgeSubject (row : ComplianceLog) :
    (purgeSubject row).Each (Lawful requestId) := by
  unfold purgeSubject
  split
  · refine (lawful_findUser _).andThen fun found => ?_
    cases found with
    | none => trivial
    | some user =>
        refine (lawful_softDelete _ _).andThen fun _ => ?_
        refine Prog.Each.bind ?_ fun _ => (lawful_look _).bind fun _ => trivial
        exact (lawful_look _).bind fun _ => lawful_write trivial
  · exact (lawful_getTenantSummary _).andThen fun _ => trivial

theorem lawful_finish (row : ComplianceLog) (storageKey : String) (manifest : Mongo.Doc)
    (recordCount : Nat) :
    (finish requestId row storageKey manifest recordCount).Each (Lawful requestId) := by
  refine Prog.Each.bind (lawful_write trivial) fun _ => (lawful_look _).bind fun now => ?_
  refine Prog.Each.bind (lawful_write ⟨rfl, by simp, by simp, by simp⟩) fun done => ?_
  refine Prog.Each.bind ?_ fun _ => trivial
  unfold attachEvidenceAndAudit
  dsimp only
  split
  · exact Prog.Each.bind (lawful_write trivial) fun _ => lawful_write trivial
  · exact lawful_write trivial

theorem lawful_startOrNotFound (type : RequestType) :
    (startOrNotFound requestId type).Each (Lawful requestId) := by
  refine Prog.Each.andThen ?_ fun found => ?_
  · unfold startProcessing
    split
    · trivial
    · refine (lawful_look _).bind fun found => ?_
      cases found with
      | none => trivial
      | some row =>
          dsimp only
          split
          · trivial
          · exact Prog.Each.bind (lawful_write ⟨rfl, by simp, fun _ => rfl, by simp⟩) fun _ => trivial
  · cases found <;> trivial

theorem lawful_processor (type : RequestType) :
    (complianceProcessor type requestId).Each (Lawful requestId) := by
  have recorded : ∀ folder timeField note type,
      (recordRequest requestId folder timeField note type).Each (Lawful requestId) := by
    intro folder timeField note type
    refine (lawful_startOrNotFound type).andThen fun row => (lawful_look _).bind fun now => ?_
    exact (lawful_finish _ _ _ _).bind fun _ => trivial
  cases type with
  | dataExport =>
      refine (lawful_startOrNotFound _).andThen fun row => ?_
      refine (lawful_buildSubjectManifest row).andThen fun built => ?_
      exact (lawful_finish _ _ _ _).bind fun _ => trivial
  | delete =>
      refine (lawful_startOrNotFound _).andThen fun row => (lawful_look _).bind fun now => ?_
      refine (lawful_purgeSubject row).andThen fun purged => ?_
      exact (lawful_finish _ _ _ _).bind fun _ => trivial
  | restrict => exact recorded _ _ _ _
  | consentWithdraw => exact recorded _ _ _ _

theorem lawful_cancelRequest (actor : Option String) (reason : String) :
    (cancelRequest requestId actor reason).Each (Lawful requestId) := by
  refine (lawful_look _).bind fun found => ?_
  cases found with
  | none => trivial
  | some row =>
      refine (lawful_look _).bind fun now => ?_
      refine Prog.Each.bind (lawful_write ⟨rfl, by simp, by simp, by simp⟩) fun updated => ?_
      cases updated with
      | none => trivial
      | some row => exact Prog.Each.bind (lawful_write trivial) fun _ => trivial

end Lawful

/-- The request has left `received`. -/
def Left (requestId : String) (db : ComplianceDb) : Prop :=
  ∃ row, db.requests requestId = some row ∧ row.status ≠ .received

/-- Once a claim or a cancellation has landed the request has left `received`, and no claim
landed after another or after a cancellation. -/
structure ClaimedOnce (requestId : String) (w : ComplianceWorld) : Prop where
  left : ∀ e ∈ w.trace, Starts requestId e ∨ Cancels requestId e → Left requestId w.store
  first : ∀ later e earlier, w.trace = later ++ e :: earlier → Starts requestId e →
    ∀ e' ∈ earlier, ¬ (Starts requestId e' ∨ Cancels requestId e')

section ClaimedOnce

variable {requestId : String} {label : ComplianceLabel} {db : ComplianceDb}

theorem awaiting_some {fromStates : List RequestStatus} {row : ComplianceLog}
    (found : db.awaiting requestId fromStates = some row) :
    db.requests requestId = some row ∧ row.status ∈ fromStates := by
  simpa [ComplianceDb.awaiting, Option.filter_eq_some_iff] using found

theorem Left.act (left : Left requestId db) (onward : Onward requestId label) :
    Left requestId (label.act db) := by
  obtain ⟨row, stored, status⟩ := left
  cases label with
  | transition id fromStates toState patch =>
      obtain ⟨rfl, notReceived, -, -⟩ := onward
      cases found : db.awaiting id fromStates with
      | none => exact ⟨row, by simpa [ComplianceLabel.act, found] using stored, status⟩
      | some row' =>
          refine ⟨patch.apply toState row', ?_, notReceived⟩
          simp [ComplianceLabel.act, found, ComplianceDb.setRequest]
  | attach id key =>
      cases found : db.requests id with
      | none => exact ⟨row, by simpa [ComplianceLabel.act, found] using stored, status⟩
      | some row' =>
          by_cases same : requestId = id
          · subst same
            rw [stored, Option.some.injEq] at found
            subst found
            refine ⟨{ row with evidenceKey := some key }, ?_, status⟩
            simp [ComplianceLabel.act, stored, ComplianceDb.setRequest]
          · refine ⟨row, ?_, status⟩
            simpa [ComplianceLabel.act, found, ComplianceDb.setRequest,
              Function.update_of_ne same] using stored
  | file filed =>
      by_cases exists' : (db.requests filed.requestId).isSome
      · exact ⟨row, by simpa [ComplianceLabel.act, exists'] using stored, status⟩
      · have apart : requestId ≠ filed.requestId := by
          rintro rfl
          exact exists' (by simp [stored])
        refine ⟨row, ?_, status⟩
        simpa [ComplianceLabel.act, exists', ComplianceDb.setRequest,
          Function.update_of_ne apart] using stored
  | look => exact ⟨row, stored, status⟩
  | softDelete userId deletedBy version now => exact ⟨row, stored, status⟩
  | revokeSessions actorId reason now => exact ⟨row, stored, status⟩
  | put key manifest => exact ⟨row, stored, status⟩
  | audit event => exact ⟨row, stored, status⟩

theorem not_left_of_starts (onward : Onward requestId label)
    (starts : label.enters requestId .inProgress db = true) : ¬ Left requestId db := by
  rintro ⟨row, stored, status⟩
  cases label with
  | transition id fromStates toState patch =>
      obtain ⟨rfl, -, source, -⟩ := onward
      simp only [ComplianceLabel.enters, Bool.and_eq_true, decide_eq_true_eq] at starts
      obtain ⟨⟨-, rfl⟩, found⟩ := starts
      obtain ⟨row', found⟩ := Option.isSome_iff_exists.mp found
      obtain ⟨stored', mem⟩ := awaiting_some found
      rw [stored, Option.some.injEq] at stored'
      subst stored'
      rw [source rfl] at mem
      exact status (List.mem_singleton.mp mem)
  | _ => exact nomatch starts

theorem left_of_enters {target : RequestStatus} (onward : Onward requestId label)
    (enters : label.enters requestId target db = true) : Left requestId (label.act db) := by
  cases label with
  | transition id fromStates toState patch =>
      obtain ⟨rfl, notReceived, -, -⟩ := onward
      simp only [ComplianceLabel.enters, Bool.and_eq_true, decide_eq_true_eq] at enters
      obtain ⟨row, found⟩ := Option.isSome_iff_exists.mp enters.2
      refine ⟨patch.apply toState row, ?_, notReceived⟩
      simp [ComplianceLabel.act, found, ComplianceDb.setRequest]
  | _ => exact nomatch enters

theorem ClaimedOnce.push {w : ComplianceWorld} (once : ClaimedOnce requestId w)
    (onward : Onward requestId label) (i : Nat) :
    ClaimedOnce requestId (w.push ⟨i, label, w.store, label.act w.store⟩) := by
  constructor
  · intro e mem decided
    rcases List.mem_cons.mp mem with rfl | mem
    · rcases decided with starts | cancels
      · exact left_of_enters onward starts
      · exact left_of_enters onward cancels
    · exact (once.left e mem decided).act onward
  · intro later e earlier split starts e' mem decided
    cases later with
    | nil =>
        obtain ⟨rfl, rfl⟩ := List.cons.inj split
        exact not_left_of_starts onward starts (once.left e' mem decided)
    | cons e'' later =>
        exact once.first later e earlier (List.cons.inj split).2 starts e' mem decided

end ClaimedOnce

theorem claimedOnce {requestId : String} {ok : ComplianceLabel → ComplianceDb → ComplianceDb → Prop}
    {s₀ : ComplianceDb} {c : Config Nat ComplianceLabel ComplianceDb (Result Unit)}
    (reach : (complianceSystem requestId ok).Reach s₀ c) : ClaimedOnce requestId c.world := by
  refine Reach.invariant (I := ClaimedOnce requestId) ?_ ?_ ?_ reach
  · constructor
    · intro e mem
      exact nomatch mem
    · intro later e earlier split
      simp at split
  · intro w db once may
    refine ⟨fun e mem decided => ?_, once.first⟩
    obtain ⟨row, stored, status⟩ := once.left e mem decided
    exact ⟨row, may.trans stored, status⟩
  · intro i p start
    have lawful : p.Each (Lawful requestId) := by
      rcases start with ⟨actor, reason, rfl⟩ | ⟨type, rfl⟩
      · exact (lawful_cancelRequest actor reason).andThen fun _ => trivial
      · exact (lawful_processor type).andThen fun _ => trivial
    refine lawful.mono ?_
    rintro label _ ⟨rfl, onward⟩ w once _ j
    exact once.push onward j

theorem afterClaim {requestId : String} {s₀ : ComplianceDb}
    {c : Config Nat ComplianceLabel ComplianceDb (Result Unit)}
    (reach : (complianceSystem requestId ClaimsReceived).Reach s₀ c) :
    Trailed (AfterClaim requestId) c.world.trace := by
  refine (reach.trailed (R := fun _ _ => True) ?_).1
  intro i p start
  rcases start with ⟨actor, reason, rfl⟩ | ⟨type, rfl⟩
  · refine Prog.Trail.andThen (R := fun _ _ => True) ?_ (fun _ _ _ => trivial) fun _ _ _ => trivial
    refine Prog.Trail.of_each (K := fun _ => True) trivial ((quiet_cancelRequest actor reason).mono ?_)
    intro label _ quiet past db _
    exact ⟨afterClaim_of_quiet quiet, trivial⟩
  · exact (processor_trail type).andThen (fun _ _ _ => trivial) fun _ _ _ => trivial

theorem countP_le_one {E : Type} {p : E → Bool} {events : List E}
    (apart : ∀ later e earlier, events = later ++ e :: earlier → p e = true →
      ∀ e' ∈ earlier, p e' ≠ true) : events.countP p ≤ 1 := by
  induction events with
  | nil => simp
  | cons e rest ih =>
      by_cases holds : p e = true
      · have none : rest.countP p = 0 := List.countP_eq_zero.mpr (apart [] e rest rfl holds)
        simp [holds, none]
      · rw [List.countP_cons_of_neg holds]
        exact ih fun later e' earlier split => apart (e :: later) e' earlier (by simp [split])

theorem starts_unique {requestId : String} {w : ComplianceWorld} (once : ClaimedOnce requestId w)
    {e e' : ComplianceEvent} (mem : e ∈ w.trace) (mem' : e' ∈ w.trace)
    (starts : Starts requestId e) (starts' : Starts requestId e') : e.tid = e'.tid := by
  obtain ⟨later, earlier, split⟩ := List.append_of_mem mem
  rw [split, List.mem_append, List.mem_cons] at mem'
  rcases mem' with newer | rfl | older
  · obtain ⟨later', between, rfl⟩ := List.append_of_mem newer
    have older : e ∈ between ++ e :: earlier := by simp
    rw [List.append_assoc, List.cons_append] at split
    exact absurd (.inl starts) (once.first later' e' _ split starts' e older)
  · rfl
  · exact absurd (.inl starts') (once.first later e earlier split starts e' older)

/-- In every run in which no delivery comes to its claim once the request has left `received`,
the effects of the request are those of one delivery whose own claim succeeded, and there are
none when a cancellation was accepted first. -/
theorem request_takes_effect_once (requestId : String) {s₀ : ComplianceDb}
    {c : Config Nat ComplianceLabel ComplianceDb (Result Unit)}
    (reach : (complianceSystem requestId ClaimsReceived).Reach s₀ c) :
    EffectsOnce requestId c.world.trace := by
  have once := claimedOnce reach
  have trailed := afterClaim reach
  have own : ∀ later e earlier, c.world.trace = later ++ e :: earlier →
      e.label.effect.isSome = true → ∃ e' ∈ earlier, e'.tid = e.tid ∧ Starts requestId e' := by
    intro later e earlier split has
    obtain ⟨kind, has⟩ := Option.isSome_iff_exists.mp has
    obtain ⟨⟨x, mem, starts⟩, -⟩ := trailed later e earlier split kind has
    simp only [System.steps, List.mem_map, List.mem_filter, decide_eq_true_eq] at mem
    obtain ⟨e', ⟨mem, tid⟩, rfl⟩ := mem
    exact ⟨e', mem, tid, starts⟩
  refine ⟨own, ?_, ?_⟩
  · intro kind
    refine countP_le_one fun later e earlier split has e' mem has' => ?_
    rw [decide_eq_true_eq] at has has'
    have same : e'.tid = e.tid := by
      obtain ⟨d, memd, tid, starts⟩ := own later e earlier split (by rw [has]; rfl)
      obtain ⟨between, older, split'⟩ := List.append_of_mem mem
      have whole : c.world.trace = (later ++ e :: between) ++ e' :: older := by
        rw [split, split', List.append_assoc, List.cons_append]
      obtain ⟨d', memd', tid', starts'⟩ := own _ e' older whole (by rw [has']; rfl)
      rw [← tid, ← tid']
      refine starts_unique once ?_ ?_ starts' starts
      · rw [whole]; simp [memd']
      · rw [split]; simp [memd]
    obtain ⟨-, new⟩ := trailed later e earlier split kind has
    refine new (e'.label, e'.before) ?_ has'
    simp only [System.steps, List.mem_map, List.mem_filter, decide_eq_true_eq]
    exact ⟨e', ⟨mem, same⟩, rfl⟩
  · intro later e earlier split cancels unclaimed
    have unstarted : ∀ d ∈ c.world.trace, ¬ Starts requestId d := by
      intro d mem starts
      rw [split, List.mem_append, List.mem_cons] at mem
      rcases mem with newer | rfl | older
      · obtain ⟨later', between, rfl⟩ := List.append_of_mem newer
        rw [List.append_assoc, List.cons_append] at split
        exact once.first later' d _ split starts e (by simp) (.inr cancels)
      · revert starts cancels
        unfold Starts Cancels
        cases d.label <;> simp_all [ComplianceLabel.enters]
      · exact unclaimed d older starts
    intro e' mem
    cases has : e'.label.effect with
    | none => rfl
    | some kind =>
        obtain ⟨later', earlier', split'⟩ := List.append_of_mem mem
        obtain ⟨d, memd, -, starts⟩ := own later' e' earlier' split' (by rw [has]; rfl)
        exact absurd starts (unstarted d (by rw [split']; simp [memd]))

/-! ## A cancelled request that is processed all the same -/

namespace Erasure

def subject : String := "64b000000000000000000001"

/-- A filed erasure of a live user who has a session. -/
def filed : ComplianceDb where
  clock := 1000
  requests id :=
    if id = "crq_1" then
      some
        { requestId := "crq_1", type := .delete, subjectId := subject, subjectType := .user
          tenantScope := [], status := .received, reason := some "please", evidenceKey := none
          completedAt := none, cancelledReason := none, createdAt := 0 }
    else none
  filed := ["crq_1"]
  users :=
    [{ id := subject, tenantId := "t1", email := "ana@example.com", status := .active
       profile := {}, createdAt := 0, updatedBy := none, deletedAt := none, deletedBy := none
       version := 0 }]
  sessions :=
    [{ sessionId := "s1", actorId := subject, status := .active, revokedAt := none
       revokedReason := none }]
  tenants := []
  trail := []
  objects := []
  recorded := []

def cancellation : ComplianceProg (Result Unit) :=
  (cancelRequest "crq_1" none "Cancelled by administrator").andThen fun _ => succeed ()

def delivery : ComplianceProg (Result Unit) :=
  (complianceProcessor .delete "crq_1").andThen fun _ => succeed ()

/-- The delivery alone, up to its claim; then a cancellation of the claimed request, and the rest
of the delivery. -/
def claimedFirst : List (Move Nat ComplianceLabel ComplianceDb (Result Unit)) :=
  [.start 0 delivery, .act 0, .act 0, .start 1 cancellation, .act 1, .act 1, .act 1, .act 0, .act 0,
    .act 0, .act 0, .act 0]

def cancelledFirst : List (Move Nat ComplianceLabel ComplianceDb (Result Unit)) :=
  [.start 0 cancellation, .act 0, .act 0, .act 0, .act 0, .start 1 delivery, .act 1, .act 1, .act 1,
    .act 1, .act 1, .act 1, .act 1]

end Erasure

theorem request_takes_effect_once_erasure :
    EffectsOnce "crq_1" (Erasure.claimedFirst.foldl Config.move (.idle Erasure.filed)).world.trace ∧
      ((Erasure.claimedFirst.foldl Config.move (.idle Erasure.filed)).world.store.user
        Erasure.subject).isNone = true := by
  constructor
  · have reach : (complianceSystem "crq_1" ClaimsReceived).Reach Erasure.filed
        (Erasure.claimedFirst.foldl Config.move (.idle Erasure.filed)) := by
      refine Reach.moves .init ?_
      exact ⟨⟨rfl, .inr ⟨.delete, rfl⟩⟩, trivial, ⟨_, rfl, rfl⟩, ⟨rfl, .inl ⟨none, _, rfl⟩⟩, trivial,
        trivial, trivial, trivial, trivial, trivial, trivial, trivial, trivial⟩
    exact request_takes_effect_once "crq_1" reach
  · decide +kernel

/-- A delivery of a cancelled request erases its subject. -/
theorem cancelled_request_takes_effect :
    ¬ ∀ (requestId : String) (s₀ : ComplianceDb)
        (c : Config Nat ComplianceLabel ComplianceDb (Result Unit)),
      (complianceSystem requestId fun _ _ _ => True).Reach s₀ c →
        EffectsOnce requestId c.world.trace := by
  intro all
  have reach : (complianceSystem "crq_1" fun _ _ _ => True).Reach Erasure.filed
      (Erasure.cancelledFirst.foldl Config.move (.idle Erasure.filed)) := by
    refine Reach.moves .init ?_
    exact ⟨⟨rfl, .inl ⟨none, _, rfl⟩⟩, trivial, trivial, trivial, trivial, ⟨rfl, .inr ⟨.delete, rfl⟩⟩,
      trivial, trivial, trivial, trivial, trivial, trivial, trivial, trivial⟩
  have once := all _ _ _ reach
  have erased : (Erasure.cancelledFirst.foldl Config.move
      (.idle Erasure.filed)).world.trace.any (fun e => e.label.effect = some .erased) = true := by
    decide +kernel
  have unclaimed : (Erasure.cancelledFirst.foldl Config.move
      (.idle Erasure.filed)).world.trace.all
        (fun e => !e.label.enters "crq_1" .inProgress e.before) = true := by
    decide +kernel
  obtain ⟨e, mem, has⟩ := List.any_eq_true.mp erased
  obtain ⟨later, earlier, split⟩ := List.append_of_mem mem
  rw [decide_eq_true_eq] at has
  obtain ⟨d, memd, -, starts⟩ := once.own later e earlier split (by rw [has]; rfl)
  have missed := List.all_eq_true.mp unclaimed d (by rw [split]; simp [memd])
  rw [Starts] at starts
  rw [starts] at missed
  exact nomatch missed

end AnalyticsBackend.Compliance
