import AnalyticsBackend.ApiError
import AnalyticsBackend.Lib.Interleaving
import AnalyticsBackend.Lib.Mongo.Value

/-!
# Feature flags

The flags of `models/FeatureFlag.js`, their revisions, and the cached catalogue of the enabled ones, as
`services/featureFlag.service.js` evaluates and validates them. Every stored read, update of one document
and cache operation is an atomic step; the cache does not fail.
-/

namespace AnalyticsBackend.Flags
open Lib

/-! ## Flags -/

/-- `ROLLOUT_STRATEGIES`. -/
inductive RolloutStrategy where
  | all
  | tenantId
  | percentage
  | attribute
  deriving DecidableEq, Repr

def RolloutStrategy.text : RolloutStrategy → String
  | .all => "all"
  | .tenantId => "tenantId"
  | .percentage => "percentage"
  | .attribute => "attribute"

structure Rollout where
  strategy : RolloutStrategy := .all
  tenantIds : List String := []
  percentage : ℚ := 100
  deriving DecidableEq, Repr

/-- A stored flag. -/
structure FeatureFlag where
  id : String
  key : String
  name : String
  description : String
  enabled : Bool
  rollout : Rollout
  isReadonly : Bool := false
  version : Nat
  updatedBy : Option String
  deletedAt : Option Int := none
  deletedBy : Option String := none
  deriving DecidableEq, Repr

/-- A row that the soft-delete filter lets through. -/
def FeatureFlag.live (flag : FeatureFlag) : Bool := flag.deletedAt = none

/-- The keys of `DEFAULT_FLAGS`. -/
def systemFlagKeys : List String :=
  ["analytics.realtime", "analytics.export.csv", "connectors.webhooks", "compliance.eu_mode",
    "ai.assistant", "ai.kill_switch"]

/-- What the runtime and the schema provide: the digest of SHA-256 in hexadecimal digits, and the
setters `trim` and `lowercase` of a key. -/
structure FlagEnv where
  sha256 : String → String
  castKey : String → String

/-! ## Evaluation -/

inductive FlagReason where
  | disabled
  | all
  | noTenant
  | allowList
  | notInAllowList
  | percentageIn
  | percentageOut
  | unsupportedStrategy
  deriving DecidableEq, Repr

structure FlagOutcome where
  value : Bool
  reason : FlagReason
  deriving DecidableEq, Repr

/-- Deterministic bucket in [0, 100) for a (flag, tenant) pair. -/
def bucketOf (env : FlagEnv) (flagKey tenantId : String) : Nat :=
  let hex := (env.sha256 s!"{flagKey}:{tenantId}").toList.take 8
  hex.foldl (fun n c => 16 * n + (Mongo.hexDigit c).getD 0) 0 % 100

/-- Evaluate one flag for a tenant. -/
def explainFlag (env : FlagEnv) (flag : FeatureFlag) (tenantId : Option String) : FlagOutcome :=
  if !flag.enabled then ⟨false, .disabled⟩
  else if flag.rollout.strategy = .all then ⟨true, .all⟩
  else
    match tenantId.filter (· ≠ "") with
    | none => ⟨false, .noTenant⟩
    | some id =>
        match flag.rollout.strategy with
        | .tenantId =>
            if flag.rollout.tenantIds.contains id then ⟨true, .allowList⟩ else ⟨false, .notInAllowList⟩
        | .percentage =>
            if (bucketOf env flag.key id : ℚ) < flag.rollout.percentage then ⟨true, .percentageIn⟩
            else ⟨false, .percentageOut⟩
        | _ => ⟨false, .unsupportedStrategy⟩

/-- Boolean evaluation of one flag for a tenant. -/
def evaluateFlag (env : FlagEnv) (flag : FeatureFlag) (tenantId : Option String) : Bool :=
  (explainFlag env flag tenantId).value

/-! ## Revisions and events -/

/-- Managed state recorded in history and audit. -/
structure FlagState where
  name : String
  description : String
  enabled : Bool
  rollout : Rollout
  deleted : Bool
  deriving DecidableEq, Repr

/-- `stateOf`. -/
def stateOf (flag : FeatureFlag) : FlagState where
  name := flag.name
  description := flag.description
  enabled := flag.enabled
  rollout := flag.rollout
  deleted := flag.deletedAt.isSome

inductive FlagAction where
  | baseline
  | create
  | update
  | delete
  | rollback
  deriving DecidableEq, Repr

/-- The `action` of the audit event. -/
def FlagAction.event : FlagAction → String
  | baseline => "feature_flag.baseline"
  | create => "feature_flag.created"
  | update => "feature_flag.updated"
  | delete => "feature_flag.deleted"
  | rollback => "feature_flag.rolled_back"

structure Actor where
  type : String
  id : Option String
  display : Option String := none
  deriving DecidableEq, Repr

/-- Normalise a request actor into the `changedBy` / audit actor shape. -/
def actorOf : Option Actor → Actor
  | none => { type := "system", id := none }
  | some actor =>
      { actor with
        type := if ["admin", "user", "service", "system"].contains actor.type then actor.type
          else "system" }

def actorId (actor : Option Actor) : Option String := actor.bind Actor.id

/-- A revision of kind `feature_flag`. -/
structure FlagRevision where
  resourceKey : String
  version : Nat
  action : FlagAction
  state : FlagState
  rolledBackFrom : Option Int := none
  reason : Option String := none
  changedBy : Actor
  deriving DecidableEq, Repr

/-- What `auditChange` emits. -/
structure FlagEvent where
  actor : Actor
  action : String
  resourceKey : String
  before : Option (FlagState × Nat)
  after : FlagState × Nat
  rolledBackFrom : Option Int := none
  reason : Option String
  deriving DecidableEq, Repr

/-! ## The store and the cache -/

def catalogueTtlSeconds : Int := 60

/-- The collections, and the cached catalogue with the instant at which it lapses. -/
structure FlagDb where
  clock : Int
  flags : List FeatureFlag
  revisions : List FlagRevision
  tenants : List String
  catalogue : Option (List FeatureFlag × Int)
  recorded : List FlagEvent

/-- The `$set` of a change; what is `none` is not set. -/
structure FlagSet where
  name : Option String := none
  description : Option String := none
  enabled : Option Bool := none
  rollout : Option Rollout := none
  deletedAt : Option (Option Int) := none
  deletedBy : Option (Option String) := none
  updatedBy : Option String := none
  deriving DecidableEq, Repr

/-- `{ $set: set, $inc: { version: 1 } }`. -/
def FlagSet.apply (set : FlagSet) (flag : FeatureFlag) : FeatureFlag :=
  { flag with
    name := set.name.getD flag.name
    description := set.description.getD flag.description
    enabled := set.enabled.getD flag.enabled
    rollout := set.rollout.getD flag.rollout
    deletedAt := set.deletedAt.getD flag.deletedAt
    deletedBy := set.deletedBy.getD flag.deletedBy
    updatedBy := set.updatedBy
    version := flag.version + 1 }

namespace FlagDb

/-- `findByKey`. -/
def findByKey (db : FlagDb) (key : String) : Option FeatureFlag :=
  db.flags.find? fun f => f.key = key && f.live

/-- `findByKeyIncludingDeleted`. -/
def findByKeyIncludingDeleted (db : FlagDb) (key : String) : Option FeatureFlag :=
  db.flags.find? fun f => f.key = key

/-- `findEnabled`. -/
def findEnabled (db : FlagDb) : List FeatureFlag := db.flags.filter fun f => f.enabled && f.live

def latestRevision (db : FlagDb) (key : String) : Option FlagRevision :=
  (db.revisions.filter fun r => r.resourceKey = key).foldl
    (fun best r => match best with
      | some b => if b.version < r.version then some r else some b
      | none => some r) none

/-- The revision with a version. -/
def findVersion (db : FlagDb) (key : String) (version : Int) : Option FlagRevision :=
  db.revisions.find? fun r => r.resourceKey = key && (r.version : Int) = version

/-- `cache.get` of the catalogue. -/
def cached (db : FlagDb) : Option (List FeatureFlag) :=
  (db.catalogue.filter fun entry => db.clock < entry.2).map Prod.fst

def keyTaken (db : FlagDb) (flag : FeatureFlag) : Bool :=
  flag.live && db.flags.any fun f => f.id ≠ flag.id && f.key = flag.key && f.live

/-- The flag that the filter of `updateIfVersion` finds. -/
def atVersion (db : FlagDb) (id : String) (version : Nat) (includeDeleted : Bool) :
    Option FeatureFlag :=
  db.flags.find? fun f => f.id = id && f.version = version && (includeDeleted || f.live)

end FlagDb

/-- What a stored write answers. -/
inductive Written (A : Type) where
  | done (a : A)
  | none
  | duplicate
  | invalid

/-- The atomic steps. -/
inductive FlagLabel where
  | look
  | get
  | load
  | set (catalogue : List FeatureFlag)
  | del
  | insert (flag : FeatureFlag)
  | update (id : String) (version : Nat) (set : FlagSet) (includeDeleted : Bool)
  | revise (revision : FlagRevision)
  | audit (event : FlagEvent)
  deriving DecidableEq, Repr

/-- What an `insert` answers. -/
def FlagDb.inserted (db : FlagDb) (flag : FeatureFlag) : Written FeatureFlag :=
  if db.keyTaken flag || db.flags.any (fun f => f.id = flag.id) then .duplicate else .done flag

/-- What `updateIfVersion` answers; its validators require a name. -/
def FlagDb.updated (db : FlagDb) (id : String) (version : Nat) (set : FlagSet)
    (includeDeleted : Bool) : Written FeatureFlag :=
  if set.name = some "" then .invalid
  else match db.atVersion id version includeDeleted with
  | none => .none
  | some flag => if db.keyTaken (set.apply flag) then .duplicate else .done (set.apply flag)

def FlagDb.revised (db : FlagDb) (revision : FlagRevision) : Bool :=
  db.revisions.any fun r => r.resourceKey = revision.resourceKey && r.version = revision.version

/-- What a step does. -/
def FlagLabel.act : FlagLabel → FlagDb → FlagDb
  | .look, db | .get, db | .load, db => db
  | .set catalogue, db =>
      { db with catalogue := some (catalogue, db.clock + catalogueTtlSeconds * 1000) }
  | .del, db => { db with catalogue := none }
  | .insert flag, db =>
      match db.inserted flag with
      | .done flag => { db with flags := db.flags ++ [flag] }
      | _ => db
  | .update id version changes includeDeleted, db =>
      match db.updated id version changes includeDeleted with
      | .done flag => { db with flags := db.flags.map fun f => if f.id = id then flag else f }
      | _ => db
  | .revise revision, db =>
      if db.revised revision then db else { db with revisions := db.revisions ++ [revision] }
  | .audit event, db => { db with recorded := event :: db.recorded }

abbrev FlagProg := Prog FlagLabel FlagDb

/-- What ends an operation early. -/
inductive FlagFailure where
  | api (error : ApiError)
  | duplicateKey
  | validationError
  deriving DecidableEq, Repr

abbrev Result := Except FlagFailure

def fail {A : Type} (error : ApiError) : FlagProg (Result A) := pure (.error (.api error))

def succeed {A : Type} (a : A) : FlagProg (Result A) := pure (.ok a)

/-- A stored read. -/
def look {A : Type} (f : FlagDb → A) : FlagProg A := Prog.update .look FlagLabel.look.act f

/-- A step and what it reports of the store it found. -/
def step {A : Type} (label : FlagLabel) (report : FlagDb → A) : FlagProg A :=
  Prog.update label label.act report

end AnalyticsBackend.Flags
