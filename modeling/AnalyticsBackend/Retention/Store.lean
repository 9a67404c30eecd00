import AnalyticsBackend.Lib.Mongo.Pipeline
import AnalyticsBackend.Lib.Triple
import AnalyticsBackend.Lib.Calendar
import Mathlib.Algebra.Order.Floor.Div
import Mathlib.Data.Rat.Floor

/-!
# The store of the retention service

The collections by the names of their models, and the stored files. Of a document there is what
retention reads of some model. A call to the database or to the storage may fail, and the failed call
may have been carried out.
-/

namespace AnalyticsBackend.Retention
open Lib Mongo

/-! ## Documents -/

/-- The tenant of a document, in one of the two stored shapes. -/
inductive TenantRef where
  | text (id : String)
  | oid (id : ObjectId)
  deriving DecidableEq, Repr

def TenantRef.name : TenantRef → String
  | .text id => id
  | .oid id => id.toHex

/-- An entry of `runs` of a report, and its `lastRun`. -/
structure ReportRun where
  id : ObjectId
  resultKey : Option String
  finishedAt : Option Int
  expiredAt : Option Int := none
  deriving DecidableEq, Repr

/-- `artifact` of an analytics query. -/
structure Artifact where
  resultKey : Option String
  finishedAt : Option Int
  expiredAt : Option Int := none
  deriving DecidableEq, Repr

/-- A document; `dates` are its date fields by their names. -/
structure Document where
  id : ObjectId
  tenantId : Option TenantRef := none
  legalHold : Bool := false
  status : Option String := none
  kind : Option String := none
  userId : Option String := none
  exportId : Option String := none
  seq : Option Int := none
  dates : List (String × Int) := []
  storageKey : Option String := none
  artifact : Option Artifact := none
  runs : List ReportRun := []
  lastRun : Option ReportRun := none
  attachments : List String := []
  deriving DecidableEq, Repr

namespace Document

def date (d : Document) (name : String) : Option Int := d.dates.lookup name

/-- `{ [name]: { $lt: cutoff } }` of a date. -/
def before (d : Document) (name : String) (cutoff : Int) : Bool :=
  (d.date name).any fun at' => at' < cutoff

theorem before_iff {d : Document} {name : String} {cutoff : Int} :
    d.before name cutoff = true ↔ ∃ t, d.date name = some t ∧ t < cutoff := by
  unfold before
  cases d.date name with
  | none => simp
  | some t => simp

/-- `$set` of a date. -/
def setDate (d : Document) (name : String) (value : Int) : Document :=
  { d with dates := (name, value) :: d.dates }

def resultKey (d : Document) : Option String := d.artifact.bind Artifact.resultKey

/-- The stored files that a document refers to. -/
def fileKeys (d : Document) : List String :=
  d.resultKey.toList ++ d.storageKey.toList ++ d.runs.filterMap ReportRun.resultKey ++
    (d.lastRun.bind ReportRun.resultKey).toList ++ d.attachments

end Document

/-- `idForms`. -/
def idForms (ids : List String) : List TenantRef :=
  ids.flatMap fun id =>
    TenantRef.text id :: if isHexId id then [TenantRef.oid (ObjectId.ofHex id)] else []

/-- `{ tenantId: { $in: idForms(ids) } }`. -/
def Document.inTenants (d : Document) (ids : List String) : Bool :=
  (idForms ids).any fun ref => d.tenantId = some ref

theorem inTenants_iff {d : Document} {ids : List String} :
    d.inTenants ids = true ↔ ∃ ref ∈ idForms ids, d.tenantId = some ref := by
  simp [Document.inTenants]

theorem text_mem_idForms {id : String} {ids : List String} : .text id ∈ idForms ids ↔ id ∈ ids := by
  simp only [idForms, List.mem_flatMap, List.mem_cons, TenantRef.text.injEq]
  constructor
  · rintro ⟨other, mem, same | hex⟩
    · rwa [same]
    · split at hex
      · exact nomatch List.mem_singleton.mp hex
      · exact nomatch hex
  · exact fun mem => ⟨id, mem, .inl rfl⟩

theorem oid_mem_idForms {id : ObjectId} {ids : List String} (bytes : id.value < 16 ^ 24)
    (mem : id.toHex ∈ ids) : .oid id ∈ idForms ids := by
  refine List.mem_flatMap.mpr ⟨id.toHex, mem, List.mem_cons_of_mem _ ?_⟩
  rw [if_pos (isHexId_toHex id), ofHex_toHex bytes]
  exact List.mem_singleton_self _

/-! ## Calls -/

/-- How a call ends: `refused` has done nothing, `unanswered` was carried out. -/
inductive Fault where
  | none
  | refused
  | unanswered
  deriving DecidableEq, Repr

/-- The database, the storage, and how the next calls end. -/
structure RetentionDb where
  colls : String → List Document
  files : List String
  faults : List Fault

namespace RetentionDb

def fault (db : RetentionDb) : Fault := db.faults.head?.getD .none

def perform (act : RetentionDb → RetentionDb) (db : RetentionDb) : RetentionDb :=
  let rest := { db with faults := db.faults.tail }
  if db.fault = .refused then rest else act rest

def update (db : RetentionDb) (model : String) (f : List Document → List Document) : RetentionDb :=
  { db with colls := Function.update db.colls model (f (db.colls model)) }

@[simp] theorem colls_update_self (db : RetentionDb) (model : String)
    (f : List Document → List Document) : (db.update model f).colls model = f (db.colls model) :=
  Function.update_self ..

theorem update_congr {db : RetentionDb} {model : String} {f g : List Document → List Document}
    (same : f (db.colls model) = g (db.colls model)) : db.update model f = db.update model g := by
  rw [update, same, update]

theorem colls_update_of_ne (db : RetentionDb) {model other : String} (ne : other ≠ model)
    (f : List Document → List Document) : (db.update model f).colls other = db.colls other :=
  Function.update_of_ne ne ..

end RetentionDb

abbrev RetentionProg := Prog Unit RetentionDb

/-- A program that may throw the code of an error. -/
abbrev RetentionM := ExceptT String RetentionProg

def access {A : Type} (act : RetentionDb → RetentionDb) (report : RetentionDb → A) : RetentionM A :=
  ExceptT.mk (Prog.update () (RetentionDb.perform act) fun db =>
    if db.fault = .none then .ok (report db) else .error "RETENTION_POLICY_FAILED")

/-- A `try` whose `catch` goes on. -/
def attempt {A : Type} (p : RetentionM A) : RetentionM (Except String A) :=
  ExceptT.mk (p.run >>= fun result => pure (.ok result))

def find (server : Server) (filter : Document → Bool) (docs : List Document) : List Document :=
  (arrange server docs).filter filter

def countDocuments (model : String) (filter : Document → Bool) : RetentionM Nat :=
  access id fun db => (db.colls model).countP filter

/-- `deleteMany`, and `deleteOne` of an `_id`: how many it has deleted. -/
def deleteMany (model : String) (filter : Document → Bool) : RetentionM Nat :=
  access (fun db => db.update model fun docs => docs.filter fun d => !filter d)
    fun db => (db.colls model).countP filter

/-- `updateOne` of an `_id`. -/
def updateOne (model : String) (id : ObjectId) (f : Document → Document) : RetentionM Unit :=
  access (fun db => db.update model fun docs => docs.map fun d => if d.id = id then f d else d)
    fun _ => ()

/-- `storageService.del`. -/
def del (key : String) : RetentionM Unit :=
  access (fun db => { db with files := db.files.filter (· ≠ key) }) fun _ => ()

/-- `storageService.delMany`: how many it has deleted, and how many it has failed to. -/
def delMany (keys : List String) : RetentionM (Nat × Nat) :=
  go (keys.filter (· ≠ "")).eraseDups 0 0
where
  go : List String → Nat → Nat → RetentionM (Nat × Nat)
    | [], deleted, failed => return (deleted, failed)
    | key :: rest, deleted, failed => do
        match ← attempt (del key) with
        | .ok () => go rest (deleted + 1) failed
        | .error _ => go rest deleted (failed + 1)

def below (path key : String) : Bool := path.toList.isPrefixOf key.toList

/-- What `delPrefix` reports. -/
structure PrefixReport where
  matched : Nat
  deleted : Nat
  failed : Nat
  deriving DecidableEq, Repr

/-- `storageService.delPrefix`. -/
def delPrefix (path : String) (limit : Nat) (dryRun : Bool) : RetentionM PrefixReport := do
  let keys ← access id fun db => (db.files.filter (below path)).take limit
  if dryRun then return { matched := keys.length, deleted := 0, failed := 0 }
  else
    let (deleted, failed) ← delMany keys
    return { matched := keys.length, deleted, failed }

end AnalyticsBackend.Retention
