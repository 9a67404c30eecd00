import AnalyticsBackend.Lib.Mongo.Expression
import Mathlib.Data.List.Induction
import Mathlib.Data.List.Sort

/-!
# Query predicates and aggregation pipelines

A predicate is the filter of `find` or of a `$match` stage; a pipeline is a list of stages run
one after the other over a list of documents. The whole pipeline is checked before the first
document is read.
-/

namespace AnalyticsBackend.Lib.Mongo

/-! ## Predicates -/

/-- A condition on the values a path reaches. -/
inductive Condition where
  | eq (v : Value)
  | ne (v : Value)
  | oneOf (vs : List Value)
  | noneOf (vs : List Value)
  | gte (v : Value)
  | lte (v : Value)

namespace Condition

/-- Equality with one tried value; an absent value equals null. -/
def equal (v : Value) : Option Value → Bool
  | some w => w.same v
  | none => v.same .null

/-- A comparison takes only values of the bound's own type. -/
def within (ok : Ordering → Bool) (bound : Value) : Option Value → Bool
  | some w => w.rank == bound.rank && ok (w.compare bound)
  | none => false

def holds (tried : List (Option Value)) : Condition → Bool
  | .eq v => tried.any (equal v)
  | .ne v => !tried.any (equal v)
  | .oneOf vs => tried.any fun w => vs.any fun v => equal v w
  | .noneOf vs => !tried.any fun w => vs.any fun v => equal v w
  | .gte v => tried.any (within (fun o => o != .lt) v)
  | .lte v => tried.any (within (fun o => o != .gt) v)

end Condition

/-- `conditions` is the conjunction of conditions on paths. -/
inductive Predicate where
  | conditions (conds : List (List String × Condition))
  | expr (e : Expr)

namespace Predicate

def meets (server : Server) (doc : Doc) (conds : List (List String × Condition)) : Bool :=
  conds.all fun c => c.2.holds (candidates server.searchIndexed c.1 (.obj doc))

def test (server : Server) (doc : Doc) : Predicate → Except ServerError Bool
  | .conditions conds => .ok (meets server doc conds)
  | .expr e => do
      let x ← e.eval server doc []
      .ok (truthy x)

def wellFormed : Predicate → Bool
  | .conditions _ => true
  | .expr e => e.wellFormed

end Predicate

/-- The documents a test that may fail keeps. -/
def keep (p : Doc → Except ServerError Bool) : List Doc → Except ServerError (List Doc)
  | [] => .ok []
  | doc :: rest => do
      let kept ← p doc
      let docs ← keep p rest
      .ok (if kept then doc :: docs else docs)

section Keep

variable {p : Doc → Except ServerError Bool} {docs : List Doc}

/-- A test that never fails keeps what a filter keeps. -/
theorem keep_ok {α : Type} {f : α → Doc} {q : α → Bool} {xs : List α}
    (total : ∀ x ∈ xs, p (f x) = .ok (q x)) :
    keep p (xs.map f) = .ok ((xs.filter q).map f) := by
  induction xs with
  | nil => rfl
  | cons x rest ih =>
      have head := total x (List.mem_cons_self ..)
      have tail := ih fun y member => total y (List.mem_cons_of_mem _ member)
      simp only [List.map_cons, keep, head, tail, List.filter_cons]
      cases q x with
      | true => rfl
      | false => rfl

end Keep

/-! ## Stages -/

inductive Accumulator where
  | sum (e : Expr)
  | avg (e : Expr)
  | min (e : Expr)
  | max (e : Expr)
  | addToSet (e : Expr)
  | unknown (name : String) (e : Expr)

namespace Accumulator

def input : Accumulator → Expr
  | .sum e | .avg e | .min e | .max e | .addToSet e | .unknown _ e => e

def known : Accumulator → Bool
  | .unknown _ _ => false
  | _ => true

def numbers (xs : List (Option Value)) : List Number :=
  xs.filterMap fun
    | some (.num n) => some n
    | _ => none

def values (xs : List (Option Value)) : List Value :=
  xs.filterMap fun x => if isNullish x then none else x

/-- The first of the values that no other goes before. -/
def best (better : Ordering) : List Value → Option Value
  | [] => none
  | v :: rest =>
      match best better rest with
      | none => some v
      | some w => if w.compare v == better then some w else some v

def distinct : List Value → List Value
  | [] => []
  | v :: rest => v :: (distinct rest).filter fun w => !w.same v

/-- What the accumulator makes of its input over the documents of a group. -/
def finish (server : Server) (xs : List (Option Value)) : Accumulator → Value
  | .sum _ => .num (server.total (numbers xs))
  | .avg _ => if (numbers xs).isEmpty then .null else .num (server.mean (numbers xs))
  | .min _ => (best .lt (values xs)).getD .null
  | .max _ => (best .gt (values xs)).getD .null
  | .addToSet _ => .arr (distinct (xs.filterMap id))
  | .unknown _ _ => .null

end Accumulator

inductive Projection where
  | exclude
  | keep
  | computed (e : Expr)

inductive Direction where
  | asc
  | desc
  deriving DecidableEq, Repr

inductive Stage where
  | matching (p : Predicate)
  | addFields (fields : List (String × Expr))
  | group (id : Expr) (accumulators : List (String × Accumulator))
  | project (spec : List (String × Projection))
  | sort (spec : List (String × Direction))
  | skip (n : Nat)
  | limit (n : Nat)
  | count (name : String)
  | unwind (name : String)

/-- The documents in the order the server takes them up. -/
def arrange (server : Server) {α : Type} (docs : List α) : List α :=
  (server.order docs.length).filterMap fun i => docs[i]?

theorem arrange_map (server : Server) {α β : Type} (f : α → β) (docs : List α) :
    arrange server (docs.map f) = (arrange server docs).map f := by
  simp only [arrange, List.length_map, List.getElem?_map, List.map_filterMap]

theorem filterMap_getElem? {α : Type} (docs : List α) :
    ((List.range docs.length).filterMap fun i => docs[i]?) = docs := by
  induction docs using List.reverseRecOn with
  | nil => rfl
  | append_singleton docs doc ih =>
      have first : ((List.range docs.length).filterMap fun i => (docs ++ [doc])[i]?) = docs := by
        refine (List.filterMap_congr fun i mem => ?_).trans ih
        exact List.getElem?_append_left (List.mem_range.mp mem)
      rw [List.length_append, List.length_singleton, List.range_succ, List.filterMap_append, first]
      simp

theorem perm_arrange {server : Server} {α : Type} (docs : List α) :
    (arrange server docs).Perm docs :=
  ((server.order_perm docs.length).filterMap _).trans (List.Perm.of_eq (filterMap_getElem? docs))

theorem arrange_plain {α : Type} (docs : List α) : arrange Server.plain docs = docs :=
  filterMap_getElem? docs

/-- `fields` set on the document one after the other. -/
def setAll (doc fields : Doc) : Doc :=
  fields.foldl (fun d entry => Doc.set d entry.1 entry.2) doc

/-! ### Grouping -/

/-- What `$group` reads of one document: the group it belongs to and the inputs of the
accumulators. -/
def groupRow (server : Server) (id : Expr) (inputs : List Expr) (doc : Doc) :
    Except ServerError (Value × List (Option Value)) := do
  let key ← id.eval server doc []
  let xs ← Expr.evalAll server doc [] inputs
  .ok (key.getD .null, xs)

def groupRows (server : Server) (id : Expr) (inputs : List Expr) :
    List Doc → Except ServerError (List (Value × List (Option Value)))
  | [] => .ok []
  | doc :: rest => do
      let row ← groupRow server id inputs doc
      let rows ← groupRows server id inputs rest
      .ok (row :: rows)

/-- Put a row with the others of its group, a new group last. -/
def addToGroup (key : Value) (row : List (Option Value)) :
    List (Value × List (List (Option Value))) → List (Value × List (List (Option Value)))
  | [] => [(key, [row])]
  | (k, rows) :: rest =>
      if k.same key then (k, rows ++ [row]) :: rest else (k, rows) :: addToGroup key row rest

def collectGroups (rows : List (Value × List (Option Value))) :
    List (Value × List (List (Option Value))) :=
  rows.foldl (fun groups row => addToGroup row.1 row.2 groups) []

/-- The values of the accumulators over the rows of a group, in their order. -/
def finishAll (server : Server) (rows : List (List (Option Value))) :
    Nat → List (String × Accumulator) → Doc
  | _, [] => []
  | i, (name, acc) :: rest =>
      (name, acc.finish server (rows.map fun row => (row[i]?).join)) ::
        finishAll server rows (i + 1) rest

def groupDocs (server : Server) (id : Expr) (accumulators : List (String × Accumulator))
    (docs : List Doc) : Except ServerError (List Doc) := do
  let rows ← groupRows server id (accumulators.map fun a => a.2.input) (arrange server docs)
  .ok ((collectGroups rows).map fun g => ("_id", g.1) :: finishAll server g.2 0 accumulators)

/-! ### Projection and sorting -/

def projectKept (spec : List (String × Projection)) (doc : Doc) : Doc :=
  doc.filter fun entry =>
    match spec.lookup entry.1 with
    | some .keep => true
    | some _ => false
    | none => entry.1 == "_id"

def projectComputed (spec : List (String × Projection)) : List (String × Expr) :=
  spec.filterMap fun entry =>
    match entry.2 with
    | .computed e => some (entry.1, e)
    | _ => none

def projectDoc (server : Server) (spec : List (String × Projection)) (doc : Doc) :
    Except ServerError Doc := do
  let computed ← Expr.evalFields server doc [] (projectComputed spec)
  .ok (projectKept spec doc ++ computed)

/-- What a document is sorted by: of an array its least or greatest item, and null where
there is nothing. -/
def sortValue (dir : Direction) (doc : Doc) (name : String) : Option Value :=
  match Doc.get doc name with
  | none => some .null
  | some (.arr items) => Accumulator.best (if dir = .asc then .lt else .gt) items
  | some v => some v

def sortKey (spec : List (String × Direction)) (doc : Doc) : List (Option Value) :=
  spec.map fun key => sortValue key.2 doc key.1

def compareKeys : List (String × Direction) → List (Option Value) → List (Option Value) → Ordering
  | (_, dir) :: spec, a :: as, b :: bs =>
      (match dir with
        | .asc => Value.compareOption a b
        | .desc => Value.compareOption b a).then (compareKeys spec as bs)
  | _, _, _ => .eq

def sortDocs (server : Server) (spec : List (String × Direction)) (docs : List Doc) : List Doc :=
  (arrange server docs).mergeSort fun a b =>
    compareKeys spec (sortKey spec a) (sortKey spec b) != .gt

/-- One document for each item of the array. -/
def unwindDoc (name : String) (doc : Doc) : List Doc :=
  match Doc.get doc name with
  | some (.arr items) => items.map fun item => Doc.set doc name item
  | some .null | none => []
  | some _ => [doc]

def mapDocs (f : Doc → Except ServerError Doc) : List Doc → Except ServerError (List Doc)
  | [] => .ok []
  | doc :: rest => do
      let d ← f doc
      let docs ← mapDocs f rest
      .ok (d :: docs)

namespace Stage

def run (server : Server) (docs : List Doc) : Stage → Except ServerError (List Doc)
  | .matching p => keep (fun doc => p.test server doc) docs
  | .addFields fields => mapDocs (fun doc => do
      let computed ← Expr.evalFields server doc [] fields
      .ok (setAll doc computed)) docs
  | .group id accumulators => groupDocs server id accumulators docs
  | .project spec => mapDocs (projectDoc server spec) docs
  | .sort spec => .ok (sortDocs server spec docs)
  | .skip n => .ok (docs.drop n)
  | .limit n => .ok (docs.take n)
  | .count name =>
      .ok (if docs.isEmpty then []
        else [[(name, .num { type := .int, value := .finite docs.length })]])
  | .unwind name => .ok (docs.flatMap (unwindDoc name))

/-- What the server checks of a stage before it runs the pipeline. -/
def wellFormed : Stage → Bool
  | .matching p => p.wellFormed
  | .addFields fields => fields.all fun entry => entry.2.wellFormed
  | .group id accumulators =>
      id.wellFormed && accumulators.all fun a => a.2.known && a.2.input.wellFormed
  | .project spec => (projectComputed spec).all fun entry => entry.2.wellFormed
  | .sort _ | .skip _ | .limit _ | .count _ | .unwind _ => true

end Stage

def runStages (server : Server) : List Stage → List Doc → Except ServerError (List Doc)
  | [], docs => .ok docs
  | stage :: rest, docs => do
      let out ← stage.run server docs
      runStages server rest out

theorem runStages_append (server : Server) (first rest : List Stage) (docs : List Doc) :
    runStages server (first ++ rest) docs
      = (runStages server first docs).bind (runStages server rest) := by
  induction first generalizing docs with
  | nil => rfl
  | cons stage stages ih =>
      simp only [List.cons_append, runStages]
      cases stage.run server docs with
      | error e => rfl
      | ok out => exact ih out

@[simp] theorem arrange_nil (server : Server) {α : Type} : arrange server ([] : List α) = [] := by
  simp [arrange]

/-- Every stage makes nothing of nothing. -/
theorem run_nil (server : Server) (stage : Stage) : stage.run server [] = .ok [] := by
  cases stage with
  | matching | addFields | project | count | unwind => rfl
  | skip | limit => simp [Stage.run]
  | group id accumulators => simp [Stage.run, groupDocs, groupRows, collectGroups]
  | sort spec => simp [Stage.run, sortDocs]

theorem runStages_nil (server : Server) (stages : List Stage) :
    runStages server stages [] = .ok [] := by
  induction stages with
  | nil => rfl
  | cons stage rest ih =>
      simp only [runStages, run_nil]
      exact ih

theorem run_matching {server : Server} {p : Predicate} {α : Type} {f : α → Doc} {q : α → Bool}
    (total : ∀ x, p.test server (f x) = .ok (q x)) (xs : List α) :
    runStages server [.matching p] (xs.map f) = .ok ((xs.filter q).map f) := by
  have kept : keep (fun doc => p.test server doc) (xs.map f) = .ok ((xs.filter q).map f) :=
    keep_ok fun x _ => total x
  simp only [runStages, Stage.run, kept]
  rfl

/-- A match stage that is left out when every document would pass it. -/
theorem run_matching_unless {server : Server} {p : Predicate} {α : Type} {f : α → Doc}
    {q : α → Bool} {skip : Bool} (total : ∀ x, p.test server (f x) = .ok (q x))
    (vacuous : skip = true → ∀ x, q x = true) (xs : List α) :
    runStages server (if skip then [] else [.matching p]) (xs.map f) =
      .ok ((xs.filter q).map f) := by
  cases skip with
  | true =>
      have all : xs.filter q = xs := List.filter_eq_self.mpr fun x _ => vacuous rfl x
      rw [all]
      rfl
  | false => exact run_matching total xs

def pipelineError : ServerError :=
  { code := 40352, message := "FieldPath cannot be constructed with empty string" }

/-- `aggregate` over the documents of a collection. -/
def aggregate (server : Server) (pipeline : List Stage) (docs : List Doc) :
    Except ServerError (List Doc) :=
  if pipeline.all Stage.wellFormed then runStages server pipeline docs
  else .error pipelineError

/-- `aggregate` with a last `$facet` of two pipelines. -/
def aggregateFacet (server : Server) (lead first second : List Stage) (docs : List Doc) :
    Except ServerError (List Doc × List Doc) :=
  if (lead ++ first ++ second).all Stage.wellFormed then do
    let found ← runStages server lead docs
    let a ← runStages server first found
    let b ← runStages server second found
    .ok (a, b)
  else .error pipelineError

end AnalyticsBackend.Lib.Mongo
