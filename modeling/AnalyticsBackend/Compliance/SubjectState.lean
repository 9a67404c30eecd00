import AnalyticsBackend.Compliance.EffectsOnce
import AnalyticsBackend.Lib.NewestPage
import Std.Data.String.ToNat

/-!
# The compliance state of a subject

`fileRequest` and `getSubjectComplianceState` of `services/compliance.service.js`. The state is folded
from the first page of the subject's requests, newest first, so that a request that decides it is seen
as long as it is on that page. `enqueue` is not in the model: a failure of it is swallowed, and the
processors of a request may run at any time.
-/

namespace AnalyticsBackend.Compliance
open Lib System

/-! ## Filing -/

def RequestType.all : List RequestType := [.dataExport, .delete, .restrict, .consentWithdraw]

/-- `REQUEST_TYPES_SET.has(type)`. -/
def requestTypeOf : Js → Option RequestType
  | .str s => RequestType.all.find? fun type => type.text = s
  | _ => none

/-- `SUBJECT_TYPES_SET.has(subjectType)`. -/
def subjectTypeOf : Js → Option SubjectType
  | .str s => [SubjectType.user, .tenant].find? fun type => type.text = s
  | _ => none

def nonEmpty : Js → Option String
  | .str s => if s = "" then none else some s
  | _ => none

def notBlank : Js → Option String
  | .str s => if trim s = "" then none else some s
  | _ => none

/-- The options of `fileRequest`; `actor` is `by`. What it checks may be any value. -/
structure Filing where
  subjectId : Js
  subjectType : Js := .str "user"
  type : Js
  reason : Js
  tenantScope : List String := []
  subjectEmail : Option String := none
  actor : Option String := none

/-- The row of a request that passes the checks. -/
def Filing.row (f : Filing) (requestId : String) (now : Int) : Except ApiError ComplianceLog := do
  let some subjectId := nonEmpty f.subjectId | .error (.badRequest "subjectId is required")
  let some type := requestTypeOf f.type
    | .error (.badRequest ("type must be one of: " ++ ", ".intercalate (RequestType.all.map (·.text))))
  let some reason := notBlank f.reason | .error (.badRequest "reason is required")
  let some subjectType := subjectTypeOf f.subjectType
    | .error (.badRequest "subjectType must be \"user\" or \"tenant\"")
  .ok
    { requestId, type, subjectId, subjectType, tenantScope := f.tenantScope, status := .received
      reason := some reason, evidenceKey := none, completedAt := none, cancelledReason := none
      createdAt := now }

def Filing.event (f : Filing) (row : ComplianceLog) : AuditEvent :=
  let admin := f.actor.filter (· ≠ "")
  { actorType := if admin.isSome then .admin else .user
    actorId := admin.or (some row.subjectId)
    actorDisplay := if admin.isSome then none else f.subjectEmail
    action := ⟨row.type, .filed⟩, resourceId := row.requestId, tenantId := row.tenantScope.head?
    before := []
    after := [("requestId", .str row.requestId), ("type", .str row.type.text),
      ("status", .str row.status.text)]
    reason := row.reason.getD "" }

/-- File a data-subject request, under the id that `makeRequestId` draws. Always produces a row. -/
def fileRequest (requestId : String) (f : Filing) : ComplianceProg (Result ComplianceLog) := do
  let now ← look ComplianceDb.clock
  match f.row requestId now with
  | .error e => fail e
  | .ok row =>
      let saved ← write (.file row) fun db => !(db.requests requestId).isSome
      if saved then
        write (.audit (f.event row)) fun _ => ()
        succeed row
      else pure (.error (.duplicateKey requestId))

/-! ## The state -/

/-- The stored requests. -/
def ComplianceDb.rows (db : ComplianceDb) : List ComplianceLog := db.filed.filterMap db.requests

/-- The filter `{ subjectId, subjectType }`. -/
def ComplianceDb.ofSubject (db : ComplianceDb) (subjectId : String) (subjectType : SubjectType) :
    List ComplianceLog :=
  db.rows.filter fun r => r.subjectId = subjectId && r.subjectType = subjectType

/-- `list`: a page of the requests that a filter finds, in an order of the database. -/
def listPage (order : List ComplianceLog → List ComplianceLog) (found : List ComplianceLog)
    (page limit : Nat) : List ComplianceLog :=
  ((order found).drop ((page - 1) * limit)).take limit

namespace ComplianceLog

/-- A restriction or a withdrawn consent, neither cancelled nor rejected. -/
def restricts (r : ComplianceLog) : Bool :=
  (r.type = .restrict || r.type = .consentWithdraw) && !(r.status = .cancelled || r.status = .rejected)

/-- A completed erasure. -/
def erases (r : ComplianceLog) : Bool := r.type = .delete && r.status = .completed

/-- `['received', 'in_progress'].includes(r.status)`. -/
def isOpen (r : ComplianceLog) : Bool := r.status = .received || r.status = .inProgress

end ComplianceLog

structure SubjectState where
  subjectId : String
  subjectType : SubjectType
  restricted : Bool
  deleted : Bool
  deleteInProgress : Bool
  inProgress : Bool
  activeRequests : Nat
  deriving DecidableEq, Repr

def pageLimit : Nat := 100

/-- Fold a subject's compliance requests into a single state snapshot. -/
def getSubjectComplianceState (order : List ComplianceLog → List ComplianceLog) (subjectId : Js)
    (subjectType : SubjectType) : ComplianceProg (Result SubjectState) :=
  match nonEmpty subjectId with
  | none => fail (ApiError.badRequest "subjectId is required")
  | some subjectId => do
      let docs ← look fun db => listPage order (db.ofSubject subjectId subjectType) 1 pageLimit
      succeed
        { subjectId, subjectType
          restricted := docs.any ComplianceLog.restricts
          deleted := docs.any ComplianceLog.erases
          deleteInProgress := docs.any fun r => r.type = .delete && r.isOpen
          inProgress := docs.any ComplianceLog.isOpen
          activeRequests := docs.length }

/-- Any number of requests filed, cancelled and processed, and of states read. From outside everything
but the requests may change. -/
def subjectSystem (order : List ComplianceLog → List ComplianceLog) :
    System Nat ComplianceLabel ComplianceDb (Result Unit) where
  start _ p :=
    (∃ requestId f, p = (fileRequest requestId f).andThen fun _ => succeed ()) ∨
    (∃ requestId actor reason,
      p = (cancelRequest requestId actor reason).andThen fun _ => succeed ()) ∨
    (∃ requestId type, p = (complianceProcessor type requestId).andThen fun _ => succeed ()) ∨
    ∃ subjectId subjectType,
      p = (getSubjectComplianceState order subjectId subjectType).andThen fun _ => succeed ()
  env db db' := db'.requests = db.requests ∧ db'.filed = db.filed
  ok _ _ _ := True

/-! ## Runs -/

/-- A request that is closed stays closed, and every request stays filed. -/
def Kept (db db' : ComplianceDb) : Prop :=
  ∀ id row, id ∈ db.filed → db.requests id = some row → id ∈ db'.filed ∧
    ∃ row', db'.requests id = some row' ∧ row'.type = row.type ∧ row'.subjectId = row.subjectId ∧
      row'.subjectType = row.subjectType ∧ (row.status = .completed → row'.status = .completed)

theorem Kept.refl (db : ComplianceDb) : Kept db db :=
  fun _ row mem stored => ⟨mem, row, stored, rfl, rfl, rfl, id⟩

theorem Kept.trans {db db' db'' : ComplianceDb} (first : Kept db db') (second : Kept db' db'') :
    Kept db db'' := by
  intro id row mem stored
  obtain ⟨mem', row', stored', type, subject, kind, closed⟩ := first id row mem stored
  obtain ⟨mem'', row'', stored'', type', subject', kind', closed'⟩ := second id row' mem' stored'
  exact ⟨mem'', row'', stored'', type'.trans type, subject'.trans subject, kind'.trans kind,
    fun completed => closed' (closed completed)⟩

theorem Kept.of_same {db db' : ComplianceDb} (requests : db'.requests = db.requests)
    (filed : db'.filed = db.filed) : Kept db db' := by
  intro id row mem stored
  exact ⟨filed ▸ mem, row, by rw [requests, stored], rfl, rfl, rfl, fun completed => completed⟩

theorem Kept.setRequest {db : ComplianceDb} {id : String} {row row' : ComplianceLog}
    (stored : db.requests id = some row) (type : row'.type = row.type)
    (subject : row'.subjectId = row.subjectId) (kind : row'.subjectType = row.subjectType)
    (closed : row.status = .completed → row'.status = .completed) :
    Kept db (db.setRequest id row') := by
  intro id' found mem stored'
  refine ⟨mem, ?_⟩
  by_cases same : id' = id
  · subst same
    rw [stored, Option.some.injEq] at stored'
    subst stored'
    exact ⟨row', by simp [ComplianceDb.setRequest], type, subject, kind, closed⟩
  · refine ⟨found, ?_, rfl, rfl, rfl, fun completed => completed⟩
    simpa [ComplianceDb.setRequest, Function.update_of_ne same] using stored'

theorem kept_act {requestId : String} {label : ComplianceLabel} (onward : Onward requestId label)
    (db : ComplianceDb) : Kept db (label.act db) := by
  cases label with
  | file filed =>
      by_cases exists' : (db.requests filed.requestId).isSome
      · simpa [ComplianceLabel.act, exists'] using Kept.refl db
      · intro id row mem stored
        have apart : id ≠ filed.requestId := by
          rintro rfl
          exact exists' (by simp [stored])
        refine ⟨?_, row, ?_, rfl, rfl, rfl, fun completed => completed⟩
        · simp [ComplianceLabel.act, exists', mem]
        · simpa [ComplianceLabel.act, exists', ComplianceDb.setRequest,
            Function.update_of_ne apart] using stored
  | transition id fromStates toState patch =>
      obtain ⟨-, -, -, unsettled⟩ := onward
      cases found : db.awaiting id fromStates with
      | none => simpa [ComplianceLabel.act, found] using Kept.refl db
      | some row =>
          obtain ⟨stored, mem⟩ := awaiting_some found
          have open' : row.status ≠ .completed := by
            intro completed
            rcases unsettled _ mem with received | inProgress
            · cases received.symm.trans completed
            · cases inProgress.symm.trans completed
          have kept : Kept db (db.setRequest id (patch.apply toState row)) :=
            Kept.setRequest stored rfl rfl rfl fun completed => absurd completed open'
          simpa [ComplianceLabel.act, found] using kept
  | attach id key =>
      cases found : db.requests id with
      | none => simpa [ComplianceLabel.act, found] using Kept.refl db
      | some row =>
          have kept : Kept db (db.setRequest id { row with evidenceKey := some key }) :=
            Kept.setRequest found rfl rfl rfl fun completed => completed
          simpa [ComplianceLabel.act, found] using kept
  | look => exact Kept.refl db
  | softDelete userId deletedBy version now => exact Kept.of_same rfl rfl
  | revokeSessions actorId reason now => exact Kept.of_same rfl rfl
  | put key manifest => exact Kept.of_same rfl rfl
  | audit event => exact Kept.of_same rfl rfl

theorem lawful_fileRequest (requestId : String) (f : Filing) :
    (fileRequest requestId f).Each (Lawful requestId) := by
  refine (lawful_look _).bind fun now => ?_
  split
  · trivial
  · refine Prog.Each.bind (lawful_write trivial) fun saved => ?_
    cases saved
    · trivial
    · exact Prog.Each.bind (lawful_write trivial) fun _ => trivial

theorem lawful_getSubjectComplianceState (requestId : String)
    (order : List ComplianceLog → List ComplianceLog) (subjectId : Js) (subjectType : SubjectType) :
    (getSubjectComplianceState order subjectId subjectType).Each (Lawful requestId) := by
  unfold getSubjectComplianceState
  split
  · trivial
  · exact (lawful_look _).bind fun _ => trivial

variable {order : List ComplianceLog → List ComplianceLog}

theorem subjectSystem_lawful {i : Nat} {p : ComplianceProg (Result Unit)}
    (start : (subjectSystem order).start i p) : ∃ requestId, p.Each (Lawful requestId) := by
  rcases start with ⟨requestId, f, rfl⟩ | ⟨requestId, actor, reason, rfl⟩ | ⟨requestId, type, rfl⟩ |
    ⟨subjectId, subjectType, rfl⟩
  · exact ⟨requestId, (lawful_fileRequest requestId f).andThen fun _ => trivial⟩
  · exact ⟨requestId, (lawful_cancelRequest actor reason).andThen fun _ => trivial⟩
  · exact ⟨requestId, (lawful_processor type).andThen fun _ => trivial⟩
  · exact ⟨"", (lawful_getSubjectComplianceState "" order subjectId subjectType).andThen
      fun _ => trivial⟩

theorem kept_later {s₀ : ComplianceDb} {c c' : Config Nat ComplianceLabel ComplianceDb (Result Unit)}
    (reach : (subjectSystem order).Reach s₀ c)
    (on : Relation.ReflTransGen (Step (subjectSystem order)) c c') :
    Kept c.world.store c'.world.store := by
  induction on with
  | refl => exact Kept.refl _
  | tail on' step ih =>
      refine ih.trans (Reach.step_relates Kept.refl ?_ ?_ (reach.later on') step)
      · rintro db db' ⟨requests, filed⟩
        exact Kept.of_same requests filed
      · intro i p start
        obtain ⟨requestId, lawful⟩ := subjectSystem_lawful start
        refine lawful.mono ?_
        rintro label _ ⟨rfl, onward⟩ db
        exact kept_act onward db

/-! ## What is reported -/

section Reports

variable {subjectId : String} {subjectType : SubjectType} {db : ComplianceDb}

/-- What the calls at a point of a run report, whatever order the database has for requests of one
instant. -/
def Reports (subjectId : String) (subjectType : SubjectType) (reported : SubjectState → Bool)
    (db : ComplianceDb) : Prop :=
  ∀ order, NewestFirst ComplianceLog.createdAt order →
    ∃ state, ((getSubjectComplianceState order (.str subjectId) subjectType).run db).1 = .ok state ∧
      reported state = true

/-- Some request of the subject has a property. -/
def Has (p : ComplianceLog → Bool) (subjectId : String) (subjectType : SubjectType)
    (db : ComplianceDb) : Prop := ∃ r ∈ db.ofSubject subjectId subjectType, p r = true

/-- If there is one, fewer than `pageLimit` requests without the property are as new as the newest
request with it. -/
def Uncovered (p : ComplianceLog → Bool) (subjectId : String) (subjectType : SubjectType)
    (db : ComplianceDb) : Prop :=
  Has p subjectId subjectType db → ∃ r ∈ db.ofSubject subjectId subjectType, p r = true ∧
    outranked ComplianceLog.createdAt p (db.ofSubject subjectId subjectType) r < pageLimit

theorem mem_ofSubject {r : ComplianceLog} :
    r ∈ db.ofSubject subjectId subjectType ↔ (∃ id ∈ db.filed, db.requests id = some r) ∧
      r.subjectId = subjectId ∧ r.subjectType = subjectType := by
  simp [ComplianceDb.ofSubject, ComplianceDb.rows, List.mem_filter, List.mem_filterMap]

theorem run_getSubjectComplianceState (named : subjectId ≠ "") (db : ComplianceDb) :
    ((getSubjectComplianceState order (.str subjectId) subjectType).run db).1 =
      let docs := (order (db.ofSubject subjectId subjectType)).take pageLimit
      .ok
        { subjectId, subjectType
          restricted := docs.any ComplianceLog.restricts
          deleted := docs.any ComplianceLog.erases
          deleteInProgress := docs.any fun r => r.type = .delete && r.isOpen
          inProgress := docs.any ComplianceLog.isOpen
          activeRequests := docs.length } := by
  simp [getSubjectComplianceState, nonEmpty, named, look, Prog.read, succeed, listPage]

theorem reports_iff {p : ComplianceLog → Bool} {reported : SubjectState → Bool}
    (fold : ∀ order, ∃ state,
      ((getSubjectComplianceState order (.str subjectId) subjectType).run db).1 = .ok state ∧
        reported state = ((order (db.ofSubject subjectId subjectType)).take pageLimit).any p)
    (has : Has p subjectId subjectType db) :
    Reports subjectId subjectType reported db ↔ Uncovered p subjectId subjectType db := by
  have shown := @shown_iff _ _ _ ComplianceLog.createdAt p (db.ofSubject subjectId subjectType) pageLimit
  constructor
  · intro reports _
    refine shown.mp fun order newest => ?_
    obtain ⟨state, found, holds⟩ := reports order newest
    obtain ⟨state', found', eq⟩ := fold order
    rw [found, Except.ok.injEq] at found'
    rw [← eq, ← found', holds]
  · intro uncovered order newest
    obtain ⟨state, found, eq⟩ := fold order
    exact ⟨state, found, eq.trans (shown.mpr (uncovered has) order newest)⟩

/-- A completed erasure stays one. -/
theorem has_erases_later {db' : ComplianceDb} (kept : Kept db db')
    (has : Has ComplianceLog.erases subjectId subjectType db) :
    Has ComplianceLog.erases subjectId subjectType db' := by
  obtain ⟨r, mem, erases⟩ := has
  obtain ⟨⟨id, filed, stored⟩, subject, kind⟩ := mem_ofSubject.mp mem
  obtain ⟨filed', r', stored', type', subject', kind', closed⟩ := kept id r filed stored
  simp only [ComplianceLog.erases, Bool.and_eq_true, decide_eq_true_eq] at erases
  refine ⟨r', mem_ofSubject.mpr ⟨⟨id, filed', stored'⟩, subject'.trans subject, kind'.trans kind⟩, ?_⟩
  simp [ComplianceLog.erases, type', erases.1, closed erases.2]

end Reports

/-- From any point of a run on at which an erasure of a subject is completed, the subject is reported
deleted exactly while the newest completed erasure is not covered by a page of other requests; and
while a restriction of it is in force, it is reported restricted exactly under the same condition on
the restrictions and withdrawn consents in force. -/
theorem erased_and_restricted_iff {s₀ : ComplianceDb}
    {c c' : Config Nat ComplianceLabel ComplianceDb (Result Unit)}
    (reach : (subjectSystem order).Reach s₀ c)
    (on : Relation.ReflTransGen (Step (subjectSystem order)) c c') {subjectId : String}
    (named : subjectId ≠ "") (subjectType : SubjectType) :
    (Has ComplianceLog.erases subjectId subjectType c.world.store →
      (Reports subjectId subjectType SubjectState.deleted c'.world.store ↔
        Uncovered ComplianceLog.erases subjectId subjectType c'.world.store)) ∧
    (Has (fun r => r.type = .restrict && r.restricts) subjectId subjectType c'.world.store →
      (Reports subjectId subjectType SubjectState.restricted c'.world.store ↔
        Uncovered ComplianceLog.restricts subjectId subjectType c'.world.store)) := by
  constructor
  · intro erased
    have still := has_erases_later (kept_later reach on) erased
    exact reports_iff (fun order => ⟨_, run_getSubjectComplianceState named _, rfl⟩) still
  · rintro ⟨r, mem, holds⟩
    rw [Bool.and_eq_true] at holds
    exact reports_iff (fun order => ⟨_, run_getSubjectComplianceState named _, rfl⟩)
      ⟨r, mem, holds.2⟩

namespace History

def subject : String := "64b000000000000000000001"

/-- A request of the subject, the `number`-th filed. -/
def request (number : Nat) (type : RequestType) (status : RequestStatus) : ComplianceLog where
  requestId := s!"crq_{number}"
  type
  subjectId := subject
  subjectType := .user
  tenantScope := []
  status
  reason := some "please"
  evidenceKey := none
  completedAt := none
  cancelledReason := none
  createdAt := number

/-- A store with these requests, the newest first. -/
def store (rows : List ComplianceLog) : ComplianceDb where
  clock := rows.length
  requests id := rows.find? fun r => r.requestId = id
  filed := rows.map ComplianceLog.requestId
  users := []
  sessions := []
  tenants := []
  trail := []
  objects := []
  recorded := []

def filedRows (exports : Nat) : List ComplianceLog :=
  ((List.range exports).map fun i => request (i + 2) .dataExport .received).reverse ++
    [request 1 .restrict .received, request 0 .delete .completed]

def erased (exports : Nat) : ComplianceDb := store (filedRows exports)

theorem filedRows_succ (exports : Nat) :
    filedRows (exports + 1) = request (exports + 2) .dataExport .received :: filedRows exports := by
  simp [filedRows, List.range_succ]

theorem requestIds (exports : Nat) : (filedRows exports).map ComplianceLog.requestId =
    (List.range (exports + 2)).reverse.map fun number => s!"crq_{number}" := by
  induction exports with
  | zero => rfl
  | succ n ih =>
      rw [filedRows_succ, List.map_cons, ih, show n + 1 + 2 = (n + 2) + 1 from rfl,
        List.range_succ (n := n + 2), List.reverse_concat]
      rfl

theorem number_injective : Function.Injective fun number : Nat => s!"crq_{number}" :=
  fun _ _ same => Nat.repr_injective (String.append_right_inj _ |>.mp same)

theorem nodup_requestIds (exports : Nat) :
    ((filedRows exports).map ComplianceLog.requestId).Nodup := by
  rw [requestIds]
  exact (List.nodup_reverse.mpr List.nodup_range).map number_injective

theorem rows_store {rows : List ComplianceLog} (distinct : (rows.map ComplianceLog.requestId).Nodup) :
    (store rows).rows = rows := by
  have found (r : ComplianceLog) (mem : r ∈ rows) :
      rows.find? (fun r' => r'.requestId = r.requestId) = some r := by
    obtain ⟨r', is⟩ := Option.isSome_iff_exists.mp
      (List.find?_isSome.mpr ⟨r, mem, decide_eq_true rfl⟩ :
        (rows.find? fun r' => r'.requestId = r.requestId).isSome)
    have same := List.inj_on_of_nodup_map distinct (List.mem_of_find?_eq_some is) mem
      (by simpa using List.find?_some is)
    rw [is, same]
  rw [ComplianceDb.rows, store, List.filterMap_map]
  exact (List.filterMap_congr found).trans List.filterMap_some

theorem rows_erased (exports : Nat) : (erased exports).rows = filedRows exports :=
  rows_store (nodup_requestIds exports)

def filing (requestId : String) : ComplianceProg (Result Unit) :=
  (fileRequest requestId
    { subjectId := .str subject, type := .str "export", reason := .str "once more" }).andThen
      fun _ => succeed ()

def oneMore (exports : Nat) : Config Nat ComplianceLabel ComplianceDb (Result Unit) :=
  [.start 0 (filing s!"crq_{exports + 2}"), .act 0, .act 0, .act 0].foldl Config.move
    (.idle (erased exports))

theorem oneMore_on (order : List ComplianceLog → List ComplianceLog) (exports : Nat) :
    Relation.ReflTransGen (Step (subjectSystem order)) (.idle (erased exports)) (oneMore exports) := by
  have act (c) : (subjectSystem order).Legal c (.act 0) := by
    simp only [Legal]
    split <;> trivial
  exact LegalRun.steps ⟨⟨rfl, .inl ⟨_, _, rfl⟩⟩, act _, act _, act _, trivial⟩

end History

theorem erased_and_restricted_iff_oneMore :
    Reports History.subject .user SubjectState.deleted (History.oneMore 1).world.store ∧
      Reports History.subject .user SubjectState.restricted (History.oneMore 1).world.store := by
  have iffs := @erased_and_restricted_iff id _ _ _ .init (History.oneMore_on id 1) History.subject
    (by decide) .user
  constructor
  · refine (iffs.1 ⟨History.request 0 .delete .completed, ?_, by decide⟩).mpr fun _ => ?_
    · decide +kernel
    · exact ⟨History.request 0 .delete .completed, by decide +kernel, by decide, by decide +kernel⟩
  · refine (iffs.2 ⟨History.request 1 .restrict .received, ?_, by decide⟩).mpr fun _ => ?_
    · decide +kernel
    · exact ⟨History.request 1 .restrict .received, by decide +kernel, by decide, by decide +kernel⟩

/-- The hundredth request after an erasure hides it. -/
theorem hundred_requests_hide :
    ¬ ∀ (order : List ComplianceLog → List ComplianceLog) (s₀ : ComplianceDb)
        (c c' : Config Nat ComplianceLabel ComplianceDb (Result Unit)),
      (subjectSystem order).Reach s₀ c →
        Relation.ReflTransGen (Step (subjectSystem order)) c c' →
        ∀ subjectId, subjectId ≠ "" → ∀ subjectType,
          (Has ComplianceLog.erases subjectId subjectType c.world.store →
            Reports subjectId subjectType SubjectState.deleted c'.world.store) ∧
          (Has (fun r => r.type = .restrict && r.restricts) subjectId subjectType c'.world.store →
            Reports subjectId subjectType SubjectState.restricted c'.world.store) := by
  intro all
  have both := all id (History.erased 99) _ _ .init .refl History.subject (by decide) .user
  have found : (History.erased 99).ofSubject History.subject .user =
      (History.filedRows 99).filter fun r => r.subjectId = History.subject && r.subjectType = .user := by
    rw [ComplianceDb.ofSubject, History.rows_erased]
  have has : Has ComplianceLog.erases History.subject .user (History.erased 99) := by
    refine ⟨History.request 0 .delete .completed, ?_, by decide⟩
    rw [found]
    decide +kernel
  have reports : Reports History.subject .user SubjectState.deleted (History.erased 99) :=
    both.1 has
  obtain ⟨state, reported, deleted⟩ := reports _ (newestFirst_worst _ fun _ => false)
  rw [run_getSubjectComplianceState (by decide), Except.ok.injEq] at reported
  have missed : ((((History.erased 99).ofSubject History.subject .user).insertionSort
      (Worst ComplianceLog.createdAt fun _ => false)).take pageLimit).any
        ComplianceLog.erases = false := by
    rw [found]
    decide +kernel
  rw [← reported] at deleted
  exact absurd deleted (by simp only [missed, Bool.false_eq_true, not_false_eq_true])

end AnalyticsBackend.Compliance
