import AnalyticsBackend.Lib.Mongo.Pipeline
import AnalyticsBackend.Security.Engine

/-!
# The sources of the detector

`repositories/securityDetectionSource.repository.js` and `findBuckets` of
`repositories/securitySignal.repository.js`, as far as the rules of sliding windows read them. A row
has the fields that these rules read.
-/

namespace AnalyticsBackend.Security
open Lib Mongo

/-! ## Rows -/

/-- `ACTOR_TYPES`. -/
inductive ActorType where
  | admin
  | user
  | service
  | system
  deriving DecidableEq, Repr

def ActorType.name : ActorType → String
  | .admin => "admin"
  | .user => "user"
  | .service => "service"
  | .system => "system"

structure LoginAttempt where
  id : ObjectId
  actorId : Option String
  actorType : ActorType
  email : String
  tenantId : Option String
  ip : String
  success : Bool
  reason : String
  occurredAt : Int
  deriving DecidableEq, Repr

structure AuditRow where
  id : ObjectId
  actorType : ActorType
  actorId : Option String
  actorDisplay : String
  module : String
  action : String
  reason : Option String
  occurredAt : Int
  deriving DecidableEq, Repr

structure AccessRow where
  id : ObjectId
  actorType : ActorType
  actorId : Option String
  tenantId : Option String
  method : String
  path : String
  statusCode : Nat
  occurredAt : Int
  deriving DecidableEq, Repr

/-- A `SyncRun`; `failed` is its status. -/
structure SyncRunRow where
  id : ObjectId
  tenantId : String
  connectorId : String
  failed : Bool
  errorCode : Option String
  finishedAt : Option Int
  deriving DecidableEq, Repr

inductive SignalKind where
  | apiKeyRequest
  | apiKeyAuthFailed
  | rateLimitHit
  | tenantRequest
  | connectorAuthFailed
  | webhookUnknownToken
  deriving DecidableEq, Repr

structure SecuritySignal where
  id : ObjectId
  kind : SignalKind
  subject : String
  tenantId : Option String
  bucket : Int
  count : Nat
  clientErrors : Nat
  serverErrors : Nat
  deriving DecidableEq, Repr

structure ApiKeyRow where
  id : ObjectId
  keyPrefix : String
  name : String
  tenantId : String
  deriving DecidableEq, Repr

/-- What has happened; none of it is written later than it is read. -/
structure History where
  loginAttempts : List LoginAttempt
  auditLog : List AuditRow
  accessLog : List AccessRow
  syncRuns : List SyncRunRow
  signals : List SecuritySignal
  apiKeys : List ApiKeyRow

/-! ## Reads -/

def DEFAULT_LIMIT : Nat := 50000

/-- The limit of `findBuckets`. -/
def BUCKET_LIMIT : Nat := 20000

section Reads

variable {R : Type} (server : Server)

/-- `find(filter).sort({ time: 1 }).limit(limit)`. -/
def readSorted (limit : Nat) (time : R → Int) (filter : R → Bool) (rows : List R) : List R :=
  (((arrange server rows).filter filter).insertionSort fun a b => time a ≤ time b).take limit

/-- `range`: what lies in `(from, to]`. -/
def inRange (start stop time : Int) : Bool := start < time && time ≤ stop

/-- The filter of `listLoginAttempts`. -/
def attemptFilter (start stop : Int) (success : Bool) (actorType : Option ActorType)
    (row : LoginAttempt) : Bool :=
  inRange start stop row.occurredAt && row.success = success && actorType.all (row.actorType = ·)

/-- `listLoginAttempts`. -/
def listLoginAttempts (history : History) (start stop : Int) (success : Bool)
    (actorType : Option ActorType := none) : List LoginAttempt :=
  readSorted server DEFAULT_LIMIT LoginAttempt.occurredAt (attemptFilter start stop success actorType)
    history.loginAttempts

/-- The filter of `listAuditEvents`, for one pair and some reasons. -/
def auditFilter (module action : String) (reasons : List String) (start stop : Int)
    (row : AuditRow) : Bool :=
  row.module = module && row.action = action && inRange start stop row.occurredAt &&
    row.reason.any reasons.contains

/-- `listAuditEvents`. -/
def listAuditEvents (history : History) (module action : String) (reasons : List String)
    (start stop : Int) : List AuditRow :=
  readSorted server DEFAULT_LIMIT AuditRow.occurredAt (auditFilter module action reasons start stop)
    history.auditLog

/-- The filter of `listAccessByStatus`. -/
def accessFilter (statusCode : Nat) (start stop : Int) (row : AccessRow) : Bool :=
  row.statusCode = statusCode && inRange start stop row.occurredAt

/-- `listAccessByStatus`. -/
def listAccessByStatus (history : History) (statusCode : Nat) (start stop : Int) : List AccessRow :=
  readSorted server DEFAULT_LIMIT AccessRow.occurredAt (accessFilter statusCode start stop)
    history.accessLog

def SyncRunRow.time (row : SyncRunRow) : Int := row.finishedAt.getD 0

/-- The filter of `listFailedSyncRuns`. -/
def syncFilter (codes : List String) (start stop : Int) (row : SyncRunRow) : Bool :=
  row.failed && row.finishedAt.any (inRange start stop) && row.errorCode.any codes.contains

/-- `listFailedSyncRuns`. -/
def listFailedSyncRuns (history : History) (codes : List String) (start stop : Int) :
    List SyncRunRow :=
  readSorted server DEFAULT_LIMIT SyncRunRow.time (syncFilter codes start stop) history.syncRuns

/-- The filter of `findBuckets`, whose range is closed. -/
def bucketFilter (kind : SignalKind) (start stop : Int) (row : SecuritySignal) : Bool :=
  row.kind = kind && start ≤ row.bucket && row.bucket ≤ stop

/-- `findBuckets`. -/
def findBuckets (history : History) (kind : SignalKind) (start stop : Int) : List SecuritySignal :=
  readSorted server BUCKET_LIMIT SecuritySignal.bucket (bucketFilter kind start stop) history.signals

/-- The entry of a key in the answer of `findApiKeysByIds`. -/
def findApiKey (history : History) (id : String) : Option ApiKeyRow :=
  history.apiKeys.find? fun key => key.id.toHex = id

/-! ## Whole reads -/

variable {server}

/-- A read that the limit does not cut. -/
def Whole (limit : Nat) (filter : R → Bool) (rows : List R) : Prop := rows.countP filter ≤ limit

theorem sorted_readSorted (limit : Nat) (time : R → Int) (filter : R → Bool) (rows : List R) :
    (readSorted server limit time filter rows).Pairwise fun a b => time a ≤ time b := by
  have total : Std.Total fun a b : R => time a ≤ time b := ⟨fun a b => le_total ..⟩
  have trans : IsTrans R fun a b => time a ≤ time b := ⟨fun _ _ _ => le_trans⟩
  exact (List.pairwise_insertionSort _ _).sublist (List.take_sublist ..)

theorem of_mem_readSorted {limit : Nat} {time : R → Int} {filter : R → Bool} {rows : List R} {row : R}
    (mem : row ∈ readSorted server limit time filter rows) : filter row = true :=
  List.of_mem_filter ((List.mem_insertionSort _).mp (List.mem_of_mem_take mem))

theorem perm_readSorted {limit : Nat} {time : R → Int} {filter : R → Bool} {rows : List R}
    (whole : Whole limit filter rows) :
    (readSorted server limit time filter rows).Perm (rows.filter filter) := by
  have all : ((arrange server rows).filter filter).Perm (rows.filter filter) :=
    (perm_arrange rows).filter filter
  unfold readSorted
  rw [List.take_of_length_le]
  · exact (List.perm_insertionSort _ _).trans all
  · rw [List.length_insertionSort, all.length_eq, ← List.countP_eq_length_filter]
    exact whole

end Reads

end AnalyticsBackend.Security
