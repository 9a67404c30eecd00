import AnalyticsBackend.ApiError
import AnalyticsBackend.Lib.Collection
import AnalyticsBackend.Lib.Interleaving
import AnalyticsBackend.Lib.Mongo.Value

/-!
# Data-subject requests

`services/compliance.service.js` over `models/ComplianceLog.js`: the filing and the cancellation of
a request and its four queued processors. Every stored read and every update of one document (or, for the
sessions of an actor, one `updateMany`) is an atomic step. A processor that throws goes no
further, so the failures of the store and of the storage driver are processes that stop. The
instants of a manifest stand as dates; the stored text has them as `toISOString()` prints them.
-/

namespace AnalyticsBackend.Compliance
open Lib Collection

/-- `REQUEST_TYPES`. -/
inductive RequestType where
  | dataExport
  | delete
  | restrict
  | consentWithdraw
  deriving DecidableEq, Repr

def RequestType.text : RequestType → String
  | dataExport => "export"
  | delete => "delete"
  | restrict => "restrict"
  | consentWithdraw => "consent.withdraw"

/-- `REQUEST_STATUSES`. -/
inductive RequestStatus where
  | received
  | inProgress
  | completed
  | rejected
  | cancelled
  deriving DecidableEq, Repr

def RequestStatus.text : RequestStatus → String
  | received => "received"
  | inProgress => "in_progress"
  | completed => "completed"
  | rejected => "rejected"
  | cancelled => "cancelled"

/-- `SUBJECT_TYPES`. -/
inductive SubjectType where
  | user
  | tenant
  deriving DecidableEq, Repr

def SubjectType.text : SubjectType → String
  | user => "user"
  | tenant => "tenant"

/-- A stored request, with the fields that cancelling and processing it read or write. -/
structure ComplianceLog where
  requestId : String
  type : RequestType
  subjectId : String
  subjectType : SubjectType
  tenantScope : List String
  status : RequestStatus
  reason : Option String
  evidenceKey : Option String
  completedAt : Option Int
  cancelledReason : Option String
  createdAt : Int
  deriving DecidableEq, Repr

/-- The `patch` of a transition; what is `none` is not set. -/
structure RequestPatch where
  evidenceKey : Option String := none
  completedAt : Option Int := none
  cancelledReason : Option String := none
  deriving DecidableEq, Repr

/-- `USER_STATUSES`. -/
inductive UserStatus where
  | invited
  | unverified
  | active
  | suspended
  | locked
  deriving DecidableEq, Repr

def UserStatus.text : UserStatus → String
  | invited => "invited"
  | unverified => "unverified"
  | active => "active"
  | suspended => "suspended"
  | locked => "locked"

structure UserProfile where
  name : String := ""
  locale : String := "en"
  timezone : String := "UTC"
  avatarUrl : Option String := none
  phone : Option String := none
  deriving DecidableEq, Repr

/-- A stored user; `version` is the `__v` that a `save` is checked against. -/
structure User where
  id : String
  tenantId : String
  email : String
  status : UserStatus
  profile : UserProfile
  createdAt : Int
  updatedBy : Option String
  deletedAt : Option Int
  deletedBy : Option String
  version : Nat
  deriving DecidableEq, Repr

/-- A row that the soft-delete filter lets through. -/
def User.live (u : User) : Bool := u.deletedAt = none

/-- `SESSION_STATUSES`. -/
inductive SessionStatus where
  | active
  | revoked
  | expired
  deriving DecidableEq, Repr

structure Session where
  sessionId : String
  actorId : String
  status : SessionStatus
  revokedAt : Option Int
  revokedReason : Option String
  deriving DecidableEq, Repr

/-- A stored tenant, with what a summary shows of it. -/
structure Tenant where
  id : String
  name : String
  slug : String
  status : String
  createdAt : Int
  deriving DecidableEq, Repr

/-- What became of a request, as the audit trail names it. -/
inductive Outcome where
  | filed
  | cancelled
  | completed
  deriving DecidableEq, Repr

/-- The `action` of the event of a request. -/
structure AuditAction where
  type : RequestType
  outcome : Outcome
  deriving DecidableEq, Repr

/-- `ACTOR_TYPES` of the audit trail. -/
inductive ActorType where
  | admin
  | user
  | service
  | system
  deriving DecidableEq, Repr

/-- An event as `auditLog.service#emit` is given it; a `before` that is not given is empty. -/
structure AuditEvent where
  actorType : ActorType
  actorId : Option String
  actorDisplay : Option String
  action : AuditAction
  resourceId : String
  tenantId : Option String
  before : Mongo.Doc
  after : Mongo.Doc
  reason : String

/-- An entry of the audit trail, with the columns by which a subject's entries are found. -/
structure AuditEntry where
  actorId : Option String
  resourceId : Option String
  tenantId : Option String
  occurredAt : Int
  entry : Mongo.Doc

/-- What the requests work on. The request ids are unique, and `filed` are those of the stored
requests; `recorded` are the events emitted, the newest first. -/
structure ComplianceDb where
  clock : Int
  requests : String → Option ComplianceLog
  filed : List String
  users : List User
  sessions : List Session
  tenants : List Tenant
  trail : List AuditEntry
  objects : List (String × Mongo.Doc)
  recorded : List AuditEvent

namespace ComplianceDb

/-- `userRepository.findById`, for an id that can be cast. -/
def user (db : ComplianceDb) (id : String) : Option User :=
  db.users.find? fun u => u.id = id && u.live

/-- `Tenant.findById`, for an id that can be cast. -/
def tenant (db : ComplianceDb) (id : String) : Option Tenant := db.tenants.find? fun t => t.id = id

end ComplianceDb

/-- The atomic steps. -/
inductive ComplianceLabel where
  | look
  | file (row : ComplianceLog)
  | transition (requestId : String) (fromStates : List RequestStatus) (toState : RequestStatus)
      (patch : RequestPatch)
  | attach (requestId key : String)
  | softDelete (userId : String) (deletedBy : Option String) (version : Nat) (now : Int)
  | revokeSessions (actorId reason : String) (now : Int)
  | put (key : String) (manifest : Mongo.Doc)
  | audit (event : AuditEvent)

/-- `{ $set: { status: toState, ...patch } }`. -/
def RequestPatch.apply (patch : RequestPatch) (toState : RequestStatus) (r : ComplianceLog) :
    ComplianceLog :=
  { r with
    status := toState
    evidenceKey := patch.evidenceKey.or r.evidenceKey
    completedAt := patch.completedAt.or r.completedAt
    cancelledReason := patch.cancelledReason.or r.cancelledReason }

/-- The row that the filter of a transition matches. -/
def ComplianceDb.awaiting (db : ComplianceDb) (requestId : String)
    (fromStates : List RequestStatus) : Option ComplianceLog :=
  (db.requests requestId).filter fun r => fromStates.contains r.status

def ComplianceDb.setRequest (db : ComplianceDb) (requestId : String) (row : ComplianceLog) :
    ComplianceDb :=
  { db with requests := Function.update db.requests requestId (some row) }

/-- The session after `revokeAllForActor`. -/
def Session.revokeFor (actorId reason : String) (now : Int) (s : Session) : Session :=
  if s.actorId = actorId && s.status = .active then
    { s with status := .revoked, revokedAt := some now, revokedReason := some reason }
  else s

/-- What a step does to the store. -/
def ComplianceLabel.act : ComplianceLabel → ComplianceDb → ComplianceDb
  | .look => id
  | .file row => fun db =>
      if (db.requests row.requestId).isSome then db
      else { db.setRequest row.requestId row with filed := row.requestId :: db.filed }
  | .transition requestId fromStates toState patch => fun db =>
      (db.awaiting requestId fromStates).elim db fun row =>
        db.setRequest requestId (patch.apply toState row)
  | .attach requestId key => fun db =>
      (db.requests requestId).elim db fun row =>
        db.setRequest requestId { row with evidenceKey := some key }
  | .softDelete userId deletedBy version now => fun db =>
      { db with
        users := updateFirst (fun u => u.id = userId && u.version = version)
          (fun u => { u with deletedAt := some now, deletedBy, version := version + 1 }) db.users }
  | .revokeSessions actorId reason now => fun db =>
      { db with sessions := db.sessions.map (Session.revokeFor actorId reason now) }
  | .put key manifest => fun db =>
      { db with objects := (key, manifest) :: db.objects.filter fun o => o.1 ≠ key }
  | .audit event => fun db => { db with recorded := event :: db.recorded }

abbrev ComplianceProg := Prog ComplianceLabel ComplianceDb

/-- What ends an operation early: an `ApiError`, or what the store driver throws. -/
inductive Failure where
  | api (error : ApiError)
  | castError (value : String)
  | duplicateKey (requestId : String)
  | versionError (userId : String)
  deriving DecidableEq, Repr

abbrev Result := Except Failure

def look {A : Type} (f : ComplianceDb → A) : ComplianceProg A := Prog.read .look f

def write {A : Type} (label : ComplianceLabel) (report : ComplianceDb → A) : ComplianceProg A :=
  Prog.update label label.act report

def fail {A : Type} (error : ApiError) : ComplianceProg (Result A) := pure (.error (.api error))

def succeed {A : Type} (a : A) : ComplianceProg (Result A) := pure (.ok a)

/-! ## Repositories -/

/-- `transition`: the updated row, or `none` when the filter matches nothing. -/
def transition (requestId : String) (fromStates : List RequestStatus) (toState : RequestStatus)
    (patch : RequestPatch) : ComplianceProg (Option ComplianceLog) :=
  write (.transition requestId fromStates toState patch) fun db =>
    (db.awaiting requestId fromStates).map (patch.apply toState)

/-- `findById` of the users; an id that is no ObjectId does not cast. -/
def findUser (userId : String) : ComplianceProg (Result (Option User)) :=
  if Mongo.isHexId userId then do
    let found ← look fun db => db.user userId
    succeed found
  else pure (.error (.castError userId))

/-- `softDelete` of the users: `findById`, then a `save` that is checked against `__v`. -/
def softDelete (userId : String) (deletedBy : Option String) : ComplianceProg (Result (Option User)) :=
  (findUser userId).andThen fun found =>
    match found with
    | none => succeed none
    | some user => do
        let now ← look ComplianceDb.clock
        let saved ← write (.softDelete userId deletedBy user.version now) fun db =>
          (db.users.find? fun u => u.id = userId && u.version = user.version).isSome
        if saved then
          succeed
            (some { user with deletedAt := some now, deletedBy, version := user.version + 1 })
        else pure (.error (.versionError userId))

/-- `revokeAllForActor`: how many sessions it revoked. -/
def revokeAllForActor (actorId reason : String) : ComplianceProg Nat := do
  let now ← look ComplianceDb.clock
  write (.revokeSessions actorId reason now) fun db =>
    db.sessions.countP fun s => s.actorId = actorId && s.status = .active

/-! ## Cancelling -/

/-- Cancel a request before work starts. -/
def cancelRequest (requestId : String) (actor : Option String) (reason : String) :
    ComplianceProg (Result ComplianceLog) := do
  match ← look fun db => db.requests requestId with
  | none => fail (ApiError.notFound "Compliance request not found")
  | some row =>
      let now ← look ComplianceDb.clock
      match ← transition requestId [.received, .inProgress] .cancelled
          { cancelledReason := some reason, completedAt := some now } with
      | none =>
          fail (ApiError.conflict "Compliance request cannot be cancelled in its current state")
      | some updated =>
          let event : AuditEvent :=
            { actorType := .admin, actorId := some (actor.getD "system"), actorDisplay := none
              action := ⟨row.type, .cancelled⟩, resourceId := requestId
              tenantId := row.tenantScope.head?
              before := [("status", .str row.status.text)]
              after := [("status", .str "cancelled")]
              reason }
          write (.audit event) fun _ => ()
          succeed updated

/-! ## Processing -/

/-- Advance a request to `in_progress`, validating it is the right type. -/
def startProcessing (requestId : String) (expectedType : RequestType) :
    ComplianceProg (Result (Option ComplianceLog)) :=
  if requestId = "" then fail (ApiError.badRequest "requestId is required")
  else do
    match ← look fun db => db.requests requestId with
    | none => succeed none
    | some row =>
        if row.type ≠ expectedType then
          fail (ApiError.badRequest s!"request is not of type {expectedType.text}")
        else
          -- A transition that matched nothing returns the row just the same.
          let _ ← transition requestId [.received] .inProgress {}
          succeed (some row)

/-- The row of `startProcessing`, or the 404 of every processor. -/
def startOrNotFound (requestId : String) (expectedType : RequestType) :
    ComplianceProg (Result ComplianceLog) :=
  (startProcessing requestId expectedType).andThen fun row =>
    row.elim (fail (ApiError.notFound "Compliance request not found")) succeed

/-- What a processor returns. -/
structure Summary where
  requestId : String
  status : RequestStatus
  storageKey : String
  recordCount : Option Nat
  deriving DecidableEq, Repr

/-- Store evidence key + emit the audit event for a completed request. -/
def attachEvidenceAndAudit (row : ComplianceLog) (done : Option ComplianceLog)
    (storageKey : String) (recordCount : Nat) : ComplianceProg Unit := do
  let event : AuditEvent :=
    { actorType := .service, actorId := none, actorDisplay := some "compliance-worker"
      action := ⟨row.type, .completed⟩, resourceId := row.requestId
      tenantId := row.tenantScope.head?
      before := [("status", .str "received")]
      after := [("status", .str "completed"), ("evidenceKey", .str storageKey),
        ("recordCount", .num ⟨.int, .finite recordCount⟩)]
      reason := "queued compliance job completed" }
  if done.isSome then
    write (.attach row.requestId storageKey) fun _ => ()
    write (.audit event) fun _ => ()
  else write (.audit event) fun _ => ()

/-- The end of every processor: the evidence, the completed status and the audit event. -/
def finish (requestId : String) (row : ComplianceLog) (storageKey : String)
    (manifest : Mongo.Doc) (recordCount : Nat) : ComplianceProg RequestStatus := do
  write (.put storageKey manifest) fun _ => ()
  let now ← look ComplianceDb.clock
  let done ← transition requestId [.inProgress] .completed
    { evidenceKey := some storageKey, completedAt := some now }
  attachEvidenceAndAudit row done storageKey recordCount
  return (done.map ComplianceLog.status).getD .completed

def evidenceKeyOf (folder requestId : String) (row : ComplianceLog) : String :=
  s!"compliance/{folder}/{row.subjectType.text}/{row.subjectId}/{requestId}.json"

/-! ## Export -/

/-- Safe user projection (never passwordHash or MFA secrets). -/
def safeUserSummary (userId : String) :
    ComplianceProg (Result (Option (Mongo.Doc × Option String))) :=
  (findUser userId).andThen fun found =>
    succeed (found.map fun user =>
      ([("id", .str user.id), ("email", .str user.email), ("tenantId", .str user.tenantId),
        ("status", .str user.status.text),
        ("profile", .obj
          [("name", .str user.profile.name), ("locale", .str user.profile.locale),
            ("timezone", .str user.profile.timezone),
            ("avatarUrl", user.profile.avatarUrl.elim .null .str),
            ("phone", user.profile.phone.elim .null .str)]),
        ("createdAt", .date user.createdAt)], some user.tenantId))

/-- Minimal tenant record summary (no owner secrets). -/
def getTenantSummary (tenantId : String) : ComplianceProg (Result (Option Mongo.Doc)) :=
  if Mongo.isHexId tenantId then do
    let found ← look fun db => db.tenant tenantId
    succeed (found.map fun tenant =>
      [("id", .str tenant.id), ("name", .str tenant.name), ("slug", .str tenant.slug),
        ("status", .str tenant.status), ("createdAt", .date tenant.createdAt)])
  else pure (.error (.castError tenantId))

/-- `subjectType === 'tenant' && tenantScope ? { tenantId } : { $or: [actorId, resourceId] }`. -/
def touchesSubject (subjectId : String) (subjectType : SubjectType)
    (tenantScope : Option String) (e : AuditEntry) : Bool :=
  match subjectType, tenantScope.filter (· ≠ "") with
  | .tenant, some tenantId => e.tenantId = some tenantId
  | _, _ => e.actorId = some subjectId || e.resourceId = some subjectId

def pageSize : Nat := 200

def maxRecords : Nat := 1000

/-- One page of `auditLogRepository.list`, newest first. -/
def auditPage (filter : AuditEntry → Bool) (page : Nat) (db : ComplianceDb) : List AuditEntry :=
  let matching := (db.trail.filter filter).mergeSort fun a b => b.occurredAt ≤ a.occurredAt
  (matching.drop ((page - 1) * pageSize)).take pageSize

/-- The loop of `collectSubjectRecords` from page `page` on; `left` bounds the pages, as the
fifth full one brings `maxRecords`. -/
def collectPages (filter : AuditEntry → Bool) :
    Nat → Nat → List AuditEntry → ComplianceProg (List AuditEntry)
  | 0, _, records => pure (records.take maxRecords)
  | left + 1, page, records => do
      let docs ← look (auditPage filter page)
      let records := records ++ docs
      if maxRecords ≤ records.length then return records.take maxRecords
      if docs.length < pageSize then return records
      collectPages filter left (page + 1) records

/-- Collect a bounded set of audit records touching the subject. -/
def collectSubjectRecords (subjectId : String) (subjectType : SubjectType)
    (tenantScope : Option String) : ComplianceProg (List AuditEntry) :=
  collectPages (touchesSubject subjectId subjectType tenantScope) (maxRecords / pageSize) 1 []

def subjectSummary (row : ComplianceLog) :
    ComplianceProg (Result (Option (Mongo.Doc × Option String))) :=
  match row.subjectType with
  | .user => safeUserSummary row.subjectId
  | .tenant => (getTenantSummary row.subjectId).andThen fun found =>
      succeed (found.map fun doc => (doc, none))

/-- Build a bounded subject manifest for an export request; returns it with its record count. -/
def buildSubjectManifest (row : ComplianceLog) : ComplianceProg (Result (Mongo.Doc × Nat)) :=
  (subjectSummary row).andThen fun subject => do
    let tenantScope := row.tenantScope.head?.or (subject.bind Prod.snd)
    let records ← collectSubjectRecords row.subjectId row.subjectType tenantScope
    let now ← look ComplianceDb.clock
    succeed
      ([("requestId", .str row.requestId), ("type", .str "export"),
        ("subjectId", .str row.subjectId), ("subjectType", .str row.subjectType.text),
        ("generatedAt", .date now), ("subject", subject.elim .null fun s => .obj s.1),
        ("records", .arr (records.map fun e => .obj e.entry)),
        ("recordCount", .num ⟨.int, .finite records.length⟩),
        ("note", .str "data subject access request export")], records.length)

/-! ## The processors -/

/-- Materialise an export request: a bounded subject manifest, stored as evidence. -/
def processExport (requestId : String) : ComplianceProg (Result Summary) :=
  (startOrNotFound requestId .dataExport).andThen fun row =>
    (buildSubjectManifest row).andThen fun (manifest, recordCount) => do
      let storageKey := evidenceKeyOf "exports" requestId row
      let status ← finish requestId row storageKey manifest recordCount
      succeed { requestId, status, storageKey, recordCount := some recordCount }

/-- Erase the subject of a delete request; the fields that the purge adds to the manifest. -/
def purgeSubject (row : ComplianceLog) : ComplianceProg (Result Mongo.Doc) :=
  match row.subjectType with
  | .user =>
      (findUser row.subjectId).andThen fun found =>
        match found with
        | none => succeed [("purged", .null)]
        | some user =>
            (softDelete row.subjectId (some "compliance")).andThen fun _ => do
              let _ ← revokeAllForActor row.subjectId "compliance: erasure"
              let now ← look ComplianceDb.clock
              succeed
                [("purged", .obj
                  [("email", .str user.email), ("tenantId", .str user.tenantId),
                    ("status", .str user.status.text), ("deletedAt", .date now)])]
  | .tenant =>
      (getTenantSummary row.subjectId).andThen fun tenant =>
        succeed
          [("purged", tenant.elim .null .obj),
            ("flag", .str "tenant lifecycle owns bulk erasure; record flagged for purge")]

/-- Erase a subject's data. -/
def processDelete (requestId : String) : ComplianceProg (Result Summary) :=
  (startOrNotFound requestId .delete).andThen fun row => do
    let now ← look ComplianceDb.clock
    (purgeSubject row).andThen fun purged => do
      let manifest : Mongo.Doc :=
        [("requestId", .str requestId), ("type", .str "delete"), ("subjectId", .str row.subjectId),
          ("subjectType", .str row.subjectType.text), ("purgedAt", .date now)] ++ purged
      let storageKey := evidenceKeyOf "purges" requestId row
      let status ← finish requestId row storageKey manifest 1
      succeed { requestId, status, storageKey, recordCount := none }

def recordRequest (requestId folder timeField note : String) (type : RequestType) :
    ComplianceProg (Result Summary) :=
  (startOrNotFound requestId type).andThen fun row => do
    let now ← look ComplianceDb.clock
    let manifest : Mongo.Doc :=
      [("requestId", .str requestId), ("type", .str type.text), ("subjectId", .str row.subjectId),
        ("subjectType", .str row.subjectType.text), ("reason", row.reason.elim .null .str),
        (timeField, .date now), ("note", .str note)]
    let storageKey := evidenceKeyOf folder requestId row
    let status ← finish requestId row storageKey manifest 0
    succeed { requestId, status, storageKey, recordCount := none }

/-- Restrict processing for a subject. -/
def processRestrict (requestId : String) : ComplianceProg (Result Summary) :=
  recordRequest requestId "restrictions" "restrictedAt"
    "processing restricted until the data subject lifts the restriction" .restrict

/-- Consent withdrawal. -/
def processConsentWithdraw (requestId : String) : ComplianceProg (Result Summary) :=
  recordRequest requestId "consent" "withdrawnAt"
    "marketing/analytics processing withdrawn until the subject consents again" .consentWithdraw

def complianceProcessor : RequestType → String → ComplianceProg (Result Summary)
  | .dataExport => processExport
  | .delete => processDelete
  | .restrict => processRestrict
  | .consentWithdraw => processConsentWithdraw

end AnalyticsBackend.Compliance
