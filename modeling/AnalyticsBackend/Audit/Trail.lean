import AnalyticsBackend.Audit.Chain
import AnalyticsBackend.Lib.Interleaving

/-!
# Writing and purging the audit trail

`insertChained` of `repositories/auditLog.repository.js`, and `purgeAuditLog` with its batches of
`services/retention.service.js`. A server process seals its events one at a time and keeps the
last head it knows; the unique index on `seq` orders the processes. Object ids are never issued
twice, so the store of the model remembers the ids it has ever held and refuses them.
-/

namespace AnalyticsBackend.Audit
open Lib Lib.Mongo

/-- The collection, and the clock. `stored` is every id the collection has ever held. -/
structure TrailDb where
  rows : List Doc
  stored : List ObjectId
  clock : Int

/-- No rows yet. -/
def TrailDb.empty (clock : Int) : TrailDb := { rows := [], stored := [], clock }

/-- `_id` of a row. -/
def rowId (row : Doc) : Option ObjectId :=
  match Doc.get row "_id" with
  | some (.oid id) => some id
  | _ => none

/-- The rows a purge is about: older than the boundary and, where a first row to keep was found,
below its `seq` or without one. -/
structure PurgeFilter where
  boundary : Int
  firstKept : Option Number

/-- `occurredAt < t`. -/
def occurredBefore (t : Int) (row : Doc) : Bool :=
  match Doc.get row "occurredAt" with
  | some (.date ms) => ms < t
  | _ => false

def PurgeFilter.matches (filter : PurgeFilter) (row : Doc) : Bool :=
  occurredBefore filter.boundary row && filter.firstKept.all fun kept =>
    match Doc.get row "seq" with
    | some (.num n) => n.compare kept = .lt
    | some .null => true
    | none => true
    | _ => false

/-- The label of an atomic step. -/
inductive TrailLabel where
  | look
  | insert (row : Doc) (unpaired : List UnpairedText) (head : ChainHead)
  | pick (filter : PurgeFilter) (limit : Nat)
  | delete (filter : PurgeFilter) (ids : List (Option ObjectId))

abbrev TrailProg := Prog TrailLabel TrailDb

def look {A : Type} (f : TrailDb → A) : TrailProg A := Prog.read .look f

/-! ## Inserting -/

/-- `{ seq, hash }` of a row. -/
def ChainHead.ofRow (row : Doc) : ChainHead where
  seq :=
    match asNumber (Doc.get row "seq") with
    | some (.finite q) => q.num
    | _ => 0
  hash :=
    match Doc.get row "hash" with
    | some (.str s) => s
    | _ => ""

/-- The row with the highest `seq`. -/
def TrailDb.newest (db : TrailDb) : Option Doc :=
  ((db.rows.filter fun row => (Doc.get row "seq").any fun v => v.rank = 10).insertionSort
    fun a b => seqLE b a).head?

/-- Read the current chain head from the database. -/
def TrailDb.findChainHead (db : TrailDb) : ChainHead := (db.newest.map .ofRow).getD .genesis

/-- An audit event: its fields as storage holds them, and the texts among them that are not in memory what
they are in storage. -/
structure AuditEvent where
  id : ObjectId
  occurredAt : Option Int
  fields : Doc
  unpaired : List UnpairedText := []

/-- `new AuditLog({ ...event, occurredAt: event.occurredAt ?? new Date() })`. -/
def AuditEvent.document (event : AuditEvent) (now : Int) : Doc :=
  Doc.set (Doc.set event.fields "_id" (.oid event.id)) "occurredAt"
    (.date (event.occurredAt.getD now))

/-- What the unique indexes say of an insert. -/
inductive InsertResult where
  | inserted
  | seqConflict
  | idConflict
  deriving DecidableEq, Repr

def TrailDb.insertResult (db : TrailDb) (row : Doc) : InsertResult :=
  if (rowId row).all db.stored.contains then .idConflict
  else if db.rows.any fun r =>
      Value.compareOption (Doc.get r "seq") (Doc.get row "seq") = .eq then .seqConflict
  else .inserted

/-- `doc.save()`. -/
def TrailDb.insertRow (row : Doc) (db : TrailDb) : TrailDb :=
  match db.insertResult row with
  | .inserted =>
      { db with rows := db.rows ++ [row], stored := (rowId row).toList ++ db.stored }
  | _ => db

/-- What `insertChained` throws. -/
inductive InsertError where
  | seqConflict
  | idConflict
  | unserialisable
  deriving DecidableEq, Repr

/-- The head an attempt starts from: the cached one, or what the database says. -/
def headFrom : Option ChainHead → TrailProg ChainHead
  | some head => return head
  | none => look TrailDb.findChainHead

/-- The loop of `insertChained` with `attempts` left: the result, and the cached head. -/
def insertAttempts (rt : Runtime) (key : Option SigningKey) (event : AuditEvent) :
    Nat → Option ChainHead → TrailProg (Except InsertError Doc × Option ChainHead)
  | 0, chainHead => return (.error .seqConflict, chainHead)
  | attempts + 1, chainHead => do
      let head ← headFrom chainHead
      let now ← look TrailDb.clock
      match sealMemory rt (event.document now) event.unpaired head key with
      | none => return (.error .unserialisable, some head)
      | some (row, next) =>
          match ← Prog.update (.insert row event.unpaired head) (TrailDb.insertRow row)
              (fun db => db.insertResult row) with
          | .inserted => return (.ok row, some next)
          | .idConflict => return (.error .idConflict, some head)
          | .seqConflict => insertAttempts rt key event attempts none

def maxChainAttempts : Nat := 10

/-- The write queue of a server process: the events in the order in which the process seals them
(`insert` and `insertMany` put them there one by one). -/
def writeQueue (rt : Runtime) (key : Option SigningKey) :
    List AuditEvent → Option ChainHead → TrailProg Unit
  | [], _ => return ()
  | event :: rest, chainHead => do
      let (_, chainHead) ← insertAttempts rt key event maxChainAttempts chainHead
      writeQueue rt key rest chainHead

/-! ## Purging -/

/-- The context of a retention run: held tenants in both stored forms of their ids. -/
structure PurgeRequest where
  cutoff : Int
  heldTenantIds : List Value
  batchSize : Nat
  maxBatches : Nat
  dryRun : Bool

/-- `{ matched, deleted, more, heldBack }`. -/
structure Purged where
  matched : Nat
  deleted : Nat
  more : Bool
  heldBack : Bool
  deriving DecidableEq, Repr

/-- The oldest `occurredAt` among a held tenant's rows before the cutoff. -/
def TrailDb.oldestHeld (db : TrailDb) (req : PurgeRequest) : Option Int :=
  (db.rows.filterMap fun row =>
    match Doc.get row "tenantId", Doc.get row "occurredAt" with
    | some tenant, some (.date ms) =>
        if (req.heldTenantIds.any fun held => held.same tenant) && ms < req.cutoff then some ms
        else none
    | _, _ => none).min?

/-- The lowest `seq` among the rows at or after the boundary. -/
def TrailDb.firstKept (db : TrailDb) (boundary : Int) : Option Number :=
  match ((db.rows.filter fun row => occurredSince boundary row &&
      (Doc.get row "seq").any fun v => v.rank = 10).insertionSort fun a b => seqLE a b).head? with
  | some row =>
      match Doc.get row "seq" with
      | some (.num n) => some n
      | _ => none
  | none => none

/-- `sort: { seq: 1, occurredAt: 1 }`. -/
def purgeLE (a b : Doc) : Bool :=
  ((Value.compareOption (Doc.get a "seq") (Doc.get b "seq")).then
    (Value.compareOption (Doc.get a "occurredAt") (Doc.get b "occurredAt"))).isLE

/-- The ids of a batch. -/
def TrailDb.batch (db : TrailDb) (filter : PurgeFilter) (limit : Nat) : List (Option ObjectId) :=
  (((db.rows.filter filter.matches).insertionSort fun a b => purgeLE a b).take limit).map rowId

/-- The rows a `deleteMany` of a batch removes: the filter is applied again. -/
def inBatch (filter : PurgeFilter) (ids : List (Option ObjectId)) (row : Doc) : Bool :=
  filter.matches row && ids.contains (rowId row)

def TrailDb.deleteBatch (filter : PurgeFilter) (ids : List (Option ObjectId)) (db : TrailDb) :
    TrailDb :=
  { db with rows := db.rows.filter fun row => !inBatch filter ids row }

/-- The loop of `purgeBatched` with `batches` left: how many rows were deleted, and whether there
are more. -/
def purgeBatches (filter : PurgeFilter) (batchSize : Nat) : Nat → Nat → TrailProg (Nat × Bool)
  | 0, deleted => return (deleted, false)
  | batches + 1, deleted => do
      let ids ← Prog.read (.pick filter batchSize) fun db => db.batch filter batchSize
      if ids.isEmpty then return (deleted, false)
      else
        let count ← Prog.update (.delete filter ids) (TrailDb.deleteBatch filter ids)
          fun db => db.rows.countP (inBatch filter ids)
        if ids.length < batchSize then return (deleted + count, false)
        else if batches = 0 then
          let more ← look fun db => db.rows.any filter.matches
          return (deleted + count, more)
        else purgeBatches filter batchSize batches (deleted + count)

/-- `purgeBatched`. -/
def purgeBatched (filter : PurgeFilter) (req : PurgeRequest) : TrailProg (Nat × Nat × Bool) := do
  if req.dryRun then
    let matched ← look fun db => db.rows.countP filter.matches
    return (matched, 0, false)
  else
    let (deleted, more) ← purgeBatches filter req.batchSize req.maxBatches 0
    return (deleted, deleted, more)

def boundaryOf (req : PurgeRequest) : TrailProg Int := do
  if req.heldTenantIds.isEmpty then return req.cutoff
  else
    let oldest ← look fun db => db.oldestHeld req
    return oldest.getD req.cutoff

/-- The audit policy: the trail is truncated from its oldest end. -/
def purgeAuditLog (req : PurgeRequest) : TrailProg Purged := do
  let boundary ← boundaryOf req
  let firstKept ← look fun db => db.firstKept boundary
  let (matched, deleted, more) ← purgeBatched { boundary, firstKept } req
  return { matched, deleted, more, heldBack := boundary ≠ req.cutoff }

/-! ## The system -/

/-- Server processes that sign with one of `keys` or with none, and retention runs. The clock may
be set. -/
def trailSystem (rt : Runtime) (keys : List String) (ok : TrailLabel → TrailDb → TrailDb → Prop) :
    System Nat TrailLabel TrailDb Unit where
  start := fun _ p =>
    (∃ current ∈ "" :: keys, ∃ events, p = writeQueue rt (signingKey rt current) events none) ∨
      ∃ req, p = purgeAuditLog req >>= fun _ => pure ()
  env := fun db db' => db'.rows = db.rows ∧ db'.stored = db.stored
  ok := ok

end AnalyticsBackend.Audit
