import AnalyticsBackend.Lib.Collection
import AnalyticsBackend.Lib.Interleaving
import AnalyticsBackend.Tenancy.PurgeRegistry

/-!
# The deletion of a workspace

`services/tenantDeletion.service.js` and the transitions of `services/tenantLifecycle.service.js`
for one workspace, over the conditional updates of `repositories/tenantDeletion.repository.js` and
`repositories/tenant.repository.js`. A `deleteMany` takes the documents away in batches, between
which other processes step and after which the store may fail; a worker that crashes takes no
further step. Sessions, caches, notices and the audit trail are left out.
-/

namespace AnalyticsBackend.Tenancy
open Lib Collection

/-! ## Records -/

/-- `TENANT_DELETION_STATUSES`. -/
inductive DeletionStatus where
  | scheduled
  | purging
  | purged
  | failed
  | cancelled
  deriving DecidableEq, Repr

/-- `TENANT_DELETION_SOURCES`. -/
inductive DeletionSource where
  | ownerRequest
  | archiveRetention
  deriving DecidableEq, Repr

/-- A `TenantDeletion` of the workspace. -/
structure TenantDeletion where
  id : String
  status : DeletionStatus
  isOpen : Bool
  source : DeletionSource
  requestedAt : Int
  purgeAfter : Int
  previousStatus : TenantStatus
  attempts : Nat
  leaseUntil : Option Int
  retryAfter : Option Int
  deriving DecidableEq, Repr

/-- `settings` and `purgeConfig`. -/
structure DeletionSettings where
  graceDays : Int
  archivedRetentionDays : Int
  purgeArchivedEnabled : Bool
  maxAttempts : Nat
  leaseMs : Int
  config : PurgeConfig
  deriving DecidableEq, Repr

def dayMs : Int := 24 * 60 * 60 * 1000

def retryStepMs : Int := 15 * 60 * 1000

/-- `retryAfterFor`. -/
def retryAfterFor (record : TenantDeletion) (now : Int) : Int :=
  now + retryStepMs * max 1 record.attempts

/-! ## Errors -/

inductive DeletionErrorCode where
  | badRequest
  | forbidden
  | notFound
  | conflict
  | validationFailed
  | deletionPending
  | tenantActive
  | purgeFailed
  deriving DecidableEq, Repr

structure DeletionError where
  statusCode : Nat
  code : DeletionErrorCode
  message : String
  deriving DecidableEq, Repr

namespace DeletionError

def notFound (message : String) : DeletionError := { statusCode := 404, code := .notFound, message }

def conflict (message : String) : DeletionError := { statusCode := 409, code := .conflict, message }

def alreadyScheduled : DeletionError where
  statusCode := 409
  code := .deletionPending
  message := "This workspace is already scheduled for deletion"

def purgeStarted : DeletionError :=
  conflict "The purge has already started; this deletion can no longer be cancelled"

/-- What a failure of the store is recorded as. -/
def purgeFailed : DeletionError where
  statusCode := 500
  code := .purgeFailed
  message := "The purge failed"

end DeletionError

/-! ## The store -/

/-- The deletions of the workspace in the order of their creation, the collections and the stored
files. `drawnIds` are the ids of deletions drawn so far; no code reads it. -/
structure DeletionDb where
  clock : Int
  deletions : List TenantDeletion
  docs : Model → List Document
  files : List String
  drawnIds : List String

/-- The document of the workspace. -/
def DeletionDb.tenant (tenantId : String) (db : DeletionDb) : Option Document :=
  (db.docs .tenant).find? (·.id = tenantId)

/-- `findOpenByTenant`. -/
def DeletionDb.openDeletion (db : DeletionDb) : Option TenantDeletion := db.deletions.find? (·.isOpen)

/-- The lifecycle writes of `tenant.repository.js`. -/
inductive TenantWrite where
  | suspend
  | restore
  | disable
  | archive (archivedAt : Int)
  | disableForDeletion
  deriving DecidableEq, Repr

/-- The filter of a write, its `_id` apart. -/
def TenantWrite.matches : TenantWrite → Document → Bool
  | .disableForDeletion, d => d.status = some .active
  | _, _ => true

def TenantWrite.set : TenantWrite → Document → Document
  | .suspend, d => { d with status := some .suspended }
  | .restore, d => { d with status := some .active }
  | .disable, d | .disableForDeletion, d => { d with status := some .disabled }
  | .archive archivedAt, d => { d with status := some .archived, archivedAt := some archivedAt }

/-- The filter of `claimDue`. -/
def TenantDeletion.due (settings : DeletionSettings) (now : Int) (r : TenantDeletion) : Bool :=
  r.attempts < settings.maxAttempts && r.purgeAfter ≤ now &&
    match r.status with
    | .scheduled => true
    | .failed => r.retryAfter.all (· ≤ now)
    | .purging => r.leaseUntil.any (· < now)
    | _ => false

/-- The update of `claimDue`. -/
def TenantDeletion.claimed (settings : DeletionSettings) (now : Int) (r : TenantDeletion) :
    TenantDeletion :=
  { r with
    status := .purging, leaseUntil := some (now + settings.leaseMs), attempts := r.attempts + 1 }

/-- The label of an atomic step; the steps of a purge name the deletion that they are for. -/
inductive DeletionLabel where
  | look
  | create (record : TenantDeletion)
  | cancel (id : String)
  | claim (now : Int)
  | markPurged (id : String)
  | markFailed (id : String) (retryAfter : Int)
  | lifecycle (w : TenantWrite)
  | remove (deletion : String) (model : Model) (which : Document → Bool)
  | rewrite (deletion : String) (model : Model) (which : Document → Bool)
      (update : Document → Document)
  | removeFile (deletion : String) (key : String)

/-- The filter of a conditional update of one document. -/
def DeletionLabel.selects (settings : DeletionSettings) : DeletionLabel → TenantDeletion → Bool
  | .cancel id, r => r.id = id && r.status = .scheduled
  | .claim now, r => r.due settings now
  | .markPurged id, r => r.id = id && r.status = .purging
  | .markFailed id _, r => r.id = id && r.status = .purging
  | _, _ => false

/-- The update of a record. -/
def DeletionLabel.set (settings : DeletionSettings) : DeletionLabel → TenantDeletion → TenantDeletion
  | .cancel _, r => { r with status := .cancelled, isOpen := false }
  | .claim now, r => r.claimed settings now
  | .markPurged _, r => { r with status := .purged, isOpen := false, leaseUntil := none }
  | .markFailed _ retryAfter, r =>
      { r with status := .failed, leaseUntil := none, retryAfter := some retryAfter }
  | _, r => r

/-- What a step does. A second open record is refused by the unique index; no workspace has two
records that are due, so that `claimDue` has nothing to choose. -/
def DeletionLabel.act (settings : DeletionSettings) (tenantId : String) :
    DeletionLabel → DeletionDb → DeletionDb
  | .look, db => db
  | .create record, db =>
      { db with
        deletions :=
          if db.openDeletion.isSome then db.deletions else db.deletions ++ [record]
        drawnIds := record.id :: db.drawnIds }
  | .lifecycle w, db =>
      { db with
        docs := Function.update db.docs .tenant
          (updateFirst (fun d => d.id = tenantId && w.matches d) w.set (db.docs .tenant)) }
  | .remove _ model which, db =>
      { db with docs := Function.update db.docs model ((db.docs model).filter fun d => !which d) }
  | .rewrite _ model which update, db =>
      { db with
        docs := Function.update db.docs model
          ((db.docs model).map fun d => if which d then update d else d) }
  | .removeFile _ key, db => { db with files := db.files.filter (· ≠ key) }
  | label, db =>
      { db with deletions := updateFirst (label.selects settings) (label.set settings) db.deletions }

abbrev DeletionProg := Prog DeletionLabel DeletionDb

section Programs

variable (settings : DeletionSettings) (tenantId : String)

def look {A : Type} (f : DeletionDb → A) : DeletionProg A := Prog.read .look f

def updateRecord (label : DeletionLabel) : DeletionProg (Option TenantDeletion) :=
  Prog.update label (label.act settings tenantId) fun db =>
    (db.deletions.find? (label.selects settings)).map (label.set settings)

def writeTenant (w : TenantWrite) : DeletionProg Bool :=
  Prog.update (.lifecycle w) (DeletionLabel.act settings tenantId (.lifecycle w)) fun db =>
    (db.docs .tenant).any fun d => d.id = tenantId && w.matches d

/-- `tenantDeletionRepository.create`: whether no open record was in the way. -/
def createDeletion (record : TenantDeletion) : DeletionProg Bool :=
  Prog.update (.create record) (DeletionLabel.act settings tenantId (.create record)) fun db =>
    db.openDeletion.isNone

/-! ## The lifecycle -/

/-- The four transitions. -/
inductive LifecycleAction where
  | suspend
  | restore
  | disable
  | archive
  deriving DecidableEq, Repr

def LifecycleAction.verb : LifecycleAction → String
  | suspend => "suspend"
  | restore => "restore"
  | disable => "disable"
  | archive => "archive"

/-- `allowedFrom`. -/
def LifecycleAction.allowedFrom : LifecycleAction → List TenantStatus
  | suspend => [.active]
  | restore => [.suspended, .disabled]
  | disable => [.active, .suspended]
  | archive => [.pending, .active, .suspended, .disabled]

/-- `repoFn`, at a time. -/
def LifecycleAction.write (now : Int) : LifecycleAction → TenantWrite
  | suspend => .suspend
  | restore => .restore
  | disable => .disable
  | archive => .archive now

/-- What an operation answers. -/
abbrev DeletionResult := Except DeletionError Unit

/-- `findById` of the workspace. -/
def findTenant : DeletionProg (Except DeletionError Document) := do
  let tenant ← look (DeletionDb.tenant tenantId)
  match tenant with
  | some tenant => return .ok tenant
  | none => return .error (.notFound "Tenant not found")

def commitTransition (action : LifecycleAction) : DeletionProg DeletionResult := do
  let now ← look DeletionDb.clock
  let updated ← writeTenant settings tenantId (action.write now)
  return if updated then .ok () else .error (.notFound "Tenant not found")

def transition (action : LifecycleAction) : DeletionProg DeletionResult :=
  (findTenant tenantId).andThen fun tenant =>
    let status := tenant.status.getD .pending
    if status = .archived then return .error (.conflict "Archived tenants cannot change status")
    else if !action.allowedFrom.contains status then
      return .error (.conflict s!"Cannot {action.verb} a tenant in status \"{status.text}\"")
    else if action = .restore then do
      let pending ← look DeletionDb.openDeletion
      if pending.isSome then
        return .error
          { statusCode := 409, code := .deletionPending
            message := "This workspace is scheduled for deletion; cancel the deletion to reopen it" }
      else commitTransition settings tenantId action
    else commitTransition settings tenantId action

/-! ## Requests and cancellations -/

/-- `requestDeletion`, with the id of the record; `refusal` is what the checks of ownership, of the
typed slug and of the password answer. -/
def requestDeletion (id : String) (refusal : Option DeletionError) : DeletionProg DeletionResult := do
  let now ← look DeletionDb.clock
  (findTenant tenantId).andThen fun tenant =>
    if tenant.status ≠ some .active then
      return .error (.conflict "Only an active workspace can be scheduled for deletion")
    else
      match refusal with
      | some error => return .error error
      | none => do
          let pending ← look DeletionDb.openDeletion
          if pending.isSome then return .error .alreadyScheduled
          else do
            let created ← createDeletion settings tenantId
              { id, status := .scheduled, isOpen := true, source := .ownerRequest
                requestedAt := now, purgeAfter := now + settings.graceDays * dayMs
                previousStatus := .active, attempts := 0, leaseUntil := none, retryAfter := none }
            if !created then return .error .alreadyScheduled
            else do
              let closed ← writeTenant settings tenantId .disableForDeletion
              if closed then return .ok ()
              else do
                let _ ← updateRecord settings tenantId (.cancel id)
                return .error (.conflict "The workspace status changed; reload and try again")

/-- `cancelDeletion`. -/
def cancelDeletion : DeletionProg DeletionResult := do
  let pending ← look DeletionDb.openDeletion
  match pending with
  | none => return .error (.notFound "This workspace has no pending deletion")
  | some pending =>
      if pending.status ≠ .scheduled then return .error .purgeStarted
      else do
        let cancelled ← updateRecord settings tenantId (.cancel pending.id)
        if cancelled.isNone then return .error .purgeStarted
        else do
          let tenant ← look (DeletionDb.tenant tenantId)
          if pending.previousStatus = .active && tenant.any (·.status = some .disabled) then do
            let _ ← writeTenant settings tenantId .restore
            return .ok ()
          else return .ok ()

/-- Whether the workspace was archived before. -/
def archivedBefore (before : Int) (tenant : Option Document) : Bool :=
  tenant.any fun d => d.status = some .archived && d.archivedAt.any (· ≤ before)

/-- `scheduleArchivedTenants` as far as it is about the workspace, with the id of a record. -/
def scheduleArchivedTenants (id : String) (now : Int) : DeletionProg Unit :=
  if !settings.purgeArchivedEnabled then return ()
  else do
    let tenant ← look (DeletionDb.tenant tenantId)
    if !archivedBefore (now - settings.archivedRetentionDays * dayMs) tenant then return ()
    else do
      let latest ← look fun db => db.deletions.getLast?
      if latest.any fun r => r.isOpen || r.status = .cancelled then return ()
      else do
        let _ ← createDeletion settings tenantId
          { id, status := .scheduled, isOpen := true, source := .archiveRetention
            requestedAt := now, purgeAfter := now, previousStatus := .archived, attempts := 0
            leaseUntil := none, retryAfter := none }
        return ()

/-! ## The purge -/

/-- The operations of a purge that the store or the storage may fail. -/
inductive PurgeOperation where
  | context
  | tenant
  | sessions
  | clear (model : Model)
  | count (model : Model)
  | listFiles
  | deleteFile (key : String)
  | countFiles
  | outcome
  | failure
  deriving DecidableEq, Repr

/-- What happens to one attempt: the batches in which a collection is cleared, and what fails. -/
structure PurgeAttempt where
  batches : Model → List (Document → Bool)
  fails : PurgeOperation → Bool

/-- What a part of a purge answers. -/
abbrev PurgeResult (A : Type) := Except DeletionError A

def tryLook {A : Type} (fails : Bool) (f : DeletionDb → A) : DeletionProg (PurgeResult A) :=
  if fails then return .error .purgeFailed
  else do
    let a ← look f
    return .ok a

def purgeStep (label : DeletionLabel) : DeletionProg Unit :=
  Prog.update label (label.act settings tenantId) fun _ => ()

/-- The steps of a `deleteMany` or `updateMany`: some of the documents, and more of them, until the
store fails or has them all. -/
def clearBatches (label : (Document → Bool) → DeletionLabel) (filter : Document → Bool)
    (fails : Bool) : List (Document → Bool) → DeletionProg (PurgeResult Unit)
  | [] =>
      if fails then return .error .purgeFailed
      else do
        purgeStep settings tenantId (label filter)
        return .ok ()
  | batch :: rest => do
      purgeStep settings tenantId (label fun d => filter d && batch d)
      clearBatches label filter fails rest

/-- `collectContext`; an id that is not one of an object fails like the store. -/
def collectContext (attempt : PurgeAttempt) : DeletionProg (PurgeResult PurgeContext) :=
  (tryLook (attempt.fails .context) fun db =>
      ((db.docs .user).filter (·.tenantId = some tenantId)).map Document.id).andThen fun userIds =>
    (tryLook (attempt.fails .context) fun db =>
        ((db.docs .role).filter (·.tenantId = some tenantId)).map Document.id).andThen fun roleIds =>
      return .ok { tenantId, userIds, roleIds }

def clearEntry (deletion : String) (attempt : PurgeAttempt) (ctx : PurgeContext)
    (entry : PurgeEntry) : DeletionProg (PurgeResult Unit) :=
  if entry.keeps settings.config then return .ok ()
  else
    match entry.mode with
    | .detach update =>
        clearBatches settings tenantId
          (fun which => .rewrite deletion entry.model which (update ctx)) (entry.filter ctx)
          (attempt.fails (.clear entry.model)) (attempt.batches entry.model)
    | _ =>
        clearBatches settings tenantId (.remove deletion entry.model) (entry.filter ctx)
          (attempt.fails (.clear entry.model)) (attempt.batches entry.model)

def clearEntries (deletion : String) (attempt : PurgeAttempt) (ctx : PurgeContext) :
    List PurgeEntry → DeletionProg (PurgeResult Unit)
  | [] => return .ok ()
  | entry :: rest =>
      (clearEntry settings tenantId deletion attempt ctx entry).andThen fun _ =>
        clearEntries deletion attempt ctx rest

def storageBatch : Nat := 500

/-- `storageService.list`. -/
def listFiles (pre : String) (db : DeletionDb) : List String :=
  (db.files.filter fun key => pre.toList.isPrefixOf key.toList).take storageBatch

/-- `storageService.del` of some keys. -/
def deleteFiles (deletion : String) (attempt : PurgeAttempt) : List String → DeletionProg (PurgeResult Unit)
  | [] => return .ok ()
  | key :: rest =>
      if attempt.fails (.deleteFile key) then return .error .purgeFailed
      else do
        purgeStep settings tenantId (.removeFile deletion key)
        deleteFiles deletion attempt rest

def purgePrefix (deletion : String) (attempt : PurgeAttempt) (pre : String) : Nat → DeletionProg (PurgeResult Unit)
  | 0 => return .ok ()
  | rounds + 1 =>
      (tryLook (attempt.fails .listFiles) (listFiles pre)).andThen fun keys =>
        if keys.isEmpty then return .ok ()
        else
          (deleteFiles settings tenantId deletion attempt keys).andThen fun _ =>
            purgePrefix deletion attempt pre rounds

/-- `purgeStorage`. -/
def purgeStorage (deletion : String) (attempt : PurgeAttempt) : List String → DeletionProg (PurgeResult Unit)
  | [] => return .ok ()
  | pre :: rest =>
      (purgePrefix settings tenantId deletion attempt pre 1000).andThen fun _ =>
        purgeStorage deletion attempt rest

/-- The second walk: whether nothing remains of what is not retained. -/
def countEntries (attempt : PurgeAttempt) (ctx : PurgeContext) : List PurgeEntry → DeletionProg (PurgeResult Bool)
  | [] => return .ok true
  | entry :: rest =>
      (tryLook (attempt.fails (.count entry.model)) fun db =>
          (db.docs entry.model).countP (entry.filter ctx)).andThen fun remaining =>
        (countEntries attempt ctx rest).andThen fun others =>
          return .ok ((entry.keeps settings.config || remaining = 0) && others)

/-- `countStorage`. -/
def countStorage (attempt : PurgeAttempt) : List String → DeletionProg (PurgeResult Nat)
  | [] => return .ok 0
  | pre :: rest =>
      (tryLook (attempt.fails .countFiles) (listFiles pre)).andThen fun keys =>
        (countStorage attempt rest).andThen fun others => return .ok (keys.length + others)

/-- The end of `purgeTenant`: the files, and what is counted again. -/
def purgeFilesAndVerify (deletion : String) (attempt : PurgeAttempt) (ctx : PurgeContext) :
    DeletionProg (PurgeResult Bool) := do
  let storage ← purgeStorage settings tenantId deletion attempt (storagePrefixes tenantId)
  (countEntries settings attempt ctx purgeRegistry).andThen fun cleared => do
    let remaining ← countStorage attempt (storagePrefixes tenantId)
    return .ok (cleared && storage.isOk && remaining.toOption = some 0)

/-- `purgeTenant`: the `ok` of its report. -/
def purgeTenant (deletion : String) (attempt : PurgeAttempt) : DeletionProg (PurgeResult Bool) :=
  (collectContext tenantId attempt).andThen fun ctx =>
    (tryLook (attempt.fails .tenant) (DeletionDb.tenant tenantId)).andThen fun tenant =>
      if tenant.any fun d => d.status = some .active || d.status = some .pending then
        return .error
          { statusCode := 409, code := .tenantActive
            message := "Refusing to purge a workspace that is active" }
      else if attempt.fails .sessions then return .error .purgeFailed
      else
        (clearEntries settings tenantId deletion attempt ctx purgeRegistry).andThen fun _ =>
          purgeFilesAndVerify settings tenantId deletion attempt ctx

/-- The end of an attempt that has thrown; that the failure is not recorded is passed over. -/
def recordFailure (deletion : TenantDeletion) (now : Int) (attempt : PurgeAttempt) :
    DeletionProg Unit :=
  if attempt.fails .failure then return ()
  else do
    let _ ← updateRecord settings tenantId (.markFailed deletion.id (retryAfterFor deletion now))
    return ()

def recordOutcome (deletion : TenantDeletion) (now : Int) (attempt : PurgeAttempt) :
    Except DeletionError Bool → DeletionProg Unit
  | .ok verified =>
      if attempt.fails .outcome then recordFailure settings tenantId deletion now attempt
      else if verified then do
        let _ ← updateRecord settings tenantId (.markPurged deletion.id)
        return ()
      else do
        let _ ← updateRecord settings tenantId (.markFailed deletion.id (retryAfterFor deletion now))
        return ()
  | .error _ => recordFailure settings tenantId deletion now attempt

/-- One round of a batch: `claimDue` finds another workspace first, or it asks for this one. -/
inductive PurgeTurn where
  | elsewhere
  | here (attempt : PurgeAttempt)

/-- The rounds of a batch, all with the time of its start. -/
def purgeRounds (now : Int) : List PurgeTurn → DeletionProg Unit
  | [] => return ()
  | .elsewhere :: rest => purgeRounds now rest
  | .here attempt :: rest => do
      let claimed ← updateRecord settings tenantId (.claim now)
      match claimed with
      | none => return ()
      | some deletion => do
          let report ← purgeTenant settings tenantId deletion.id attempt
          recordOutcome settings tenantId deletion now attempt report
          purgeRounds now rest

/-- `runDuePurges`, with the id of a record that it may create. -/
def runDuePurges (id : String) (turns : List PurgeTurn) : DeletionProg Unit := do
  let now ← look DeletionDb.clock
  scheduleArchivedTenants settings tenantId id now
  purgeRounds settings tenantId now turns

end Programs

/-! ## The system -/

/-- The requests about the workspace, and the purge jobs. -/
inductive DeletionRequest where
  | requestDeletion (id : String) (refusal : Option DeletionError)
  | cancelDeletion
  | transition (action : LifecycleAction)
  | runDuePurges (id : String) (turns : List PurgeTurn)

def DeletionRequest.program (settings : DeletionSettings) (tenantId : String) :
    DeletionRequest → DeletionProg DeletionResult
  | .requestDeletion id refusal => Tenancy.requestDeletion settings tenantId id refusal
  | .cancelDeletion => Tenancy.cancelDeletion settings tenantId
  | .transition action => Tenancy.transition settings tenantId action
  | .runDuePurges id turns => Tenancy.runDuePurges settings tenantId id turns >>= fun _ => pure (.ok ())

def DeletionDrawn (label : DeletionLabel) (db _ : DeletionDb) : Prop :=
  match label with
  | .create record => record.id ∉ db.drawnIds
  | _ => True

instance (label : DeletionLabel) (db db' : DeletionDb) : Decidable (DeletionDrawn label db db') := by
  unfold DeletionDrawn
  split <;> infer_instance

/-- Any number of requests and of purge jobs; the clock goes on. -/
def deletionSystem (settings : DeletionSettings) (tenantId : String) :
    System Nat DeletionLabel DeletionDb DeletionResult where
  start := fun _ p => ∃ request : DeletionRequest, p = request.program settings tenantId
  env := fun db db' => ∃ clock, db.clock ≤ clock ∧ db' = { db with clock }
  ok := DeletionDrawn

instance (settings : DeletionSettings) (tenantId : String) (label : DeletionLabel)
    (db db' : DeletionDb) : Decidable ((deletionSystem settings tenantId).ok label db db') :=
  inferInstanceAs (Decidable (DeletionDrawn label db db'))

abbrev DeletionEvent := Event Nat DeletionLabel DeletionDb

abbrev DeletionTrace := List DeletionEvent

abbrev DeletionWorld := World Nat DeletionLabel DeletionDb

end AnalyticsBackend.Tenancy
