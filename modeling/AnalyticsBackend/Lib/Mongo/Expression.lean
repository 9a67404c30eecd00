import AnalyticsBackend.Lib.Mongo.Value

/-!
# Aggregation expressions

The expression language of an aggregation pipeline over one document. Conversions, date
functions and arithmetic are the server's (`Server.apply`); what an expression reads of its
document is `Expr.paths`.
-/

namespace AnalyticsBackend.Lib.Mongo

structure ServerError where
  code : Nat
  message : String
  deriving DecidableEq, Repr

inductive Comparison where
  | eq
  | ne
  | gt
  | gte
  | lt
  | lte
  deriving DecidableEq, Repr

def Comparison.holds : Comparison → Ordering → Bool
  | .eq, o => o == .eq
  | .ne, o => o != .eq
  | .gt, o => o == .gt
  | .gte, o => o != .lt
  | .lt, o => o == .lt
  | .lte, o => o != .gt

/-- The operators whose value the server computes. `convert` and `dateFromString` stand with
`onError: null` and `onNull: null`. -/
inductive Operator where
  | convert (target : String)
  | regexMatch (regex : String)
  | dateFromString (timezone : Option String)
  | dateToString (format timezone : String)
  | dateFromParts
  | dateFromIsoWeek
  | datePart (part timezone : String)
  | add
  | subtract
  | multiply
  | divide
  | floor
  deriving DecidableEq, Repr

/-- The choices of one server. `order` is the order in which a stage that reorders or groups
takes up `n` documents: documents that compare equal stay in it. -/
structure Server where
  order : Nat → List Nat
  order_perm : ∀ n, (order n).Perm (List.range n)
  searchIndexed : Bool
  apply : Operator → List (Option Value) → Except ServerError (Option Value)
  total : List Number → Number
  mean : List Number → Number

/-- A server that keeps documents in their stored order and whose operators yield null. -/
def Server.plain : Server where
  order := List.range
  order_perm _ := List.Perm.refl _
  searchIndexed := true
  apply _ _ := .ok (some .null)
  total _ := { type := .int, value := .finite 0 }
  mean _ := { type := .int, value := .finite 0 }

/-- An expression. `keys` stands for the names of an object's fields, an array:
`$map` of `$objectToArray` to `$$this.k`. -/
inductive Expr where
  | literal (v : Value)
  | field (path : List String)
  | var (name : String)
  | remove
  | document (fields : List (String × Expr))
  | compare (op : Comparison) (a b : Expr)
  | and (es : List Expr)
  | or (es : List Expr)
  | not (e : Expr)
  | isIn (e : Expr) (items : List Expr)
  | ifNull (e fallback : Expr)
  | cond (test yes no : Expr)
  | switch (branches : List (Expr × Expr)) (otherwise : Expr)
  | letIn (vars : List (String × Expr)) (body : Expr)
  | type (e : Expr)
  | size (e : Expr)
  | keys (e : Expr)
  | call (f : Operator) (args : List Expr)

/-- The server's reading of a value as a condition. -/
def truthy : Option Value → Bool
  | none => false
  | some .null => false
  | some (.bool b) => b
  | some (.num n) => n.value != .finite 0
  | some _ => true

def isNullish : Option Value → Bool
  | none => true
  | some .null => true
  | some _ => false

namespace Expr

abbrev Env := List (String × Option Value)

mutual

def eval (server : Server) (root : Doc) (env : Env) : Expr → Except ServerError (Option Value)
  | .literal v => .ok (some v)
  | .field path => .ok (fieldPath path root)
  | .var name => .ok (env.lookup name).join
  | .remove => .ok none
  | .document fields => do
      let doc ← evalFields server root env fields
      .ok (some (.obj doc))
  | .compare op a b => do
      let x ← eval server root env a
      let y ← eval server root env b
      .ok (some (.bool (op.holds (Value.compareOption x y))))
  | .and es => do
      let b ← evalAnd server root env es
      .ok (some (.bool b))
  | .or es => do
      let b ← evalOr server root env es
      .ok (some (.bool b))
  | .not e => do
      let x ← eval server root env e
      .ok (some (.bool (!truthy x)))
  | .isIn e items => do
      let x ← eval server root env e
      let ys ← evalAll server root env items
      .ok (some (.bool (ys.any fun y => Value.sameOption x y)))
  | .ifNull e fallback => do
      let x ← eval server root env e
      if isNullish x then eval server root env fallback else .ok x
  | .cond test yes no => do
      let x ← eval server root env test
      if truthy x then eval server root env yes else eval server root env no
  | .switch branches otherwise => do
      match ← evalSwitch server root env branches with
      | some found => .ok found
      | none => eval server root env otherwise
  | .letIn vars body => do
      let bound ← evalVars server root env vars
      eval server root (bound ++ env) body
  | .type e => do
      let x ← eval server root env e
      .ok (some (.str ((x.map Value.typeName).getD "missing")))
  | .size e => do
      match ← eval server root env e with
      | some (.arr items) =>
          .ok (some (.num { type := .int, value := .finite items.length }))
      | _ => .error { code := 17124, message := "The argument to $size must be an array" }
  | .keys e => do
      match ← eval server root env e with
      | some (.obj fields) => .ok (some (.arr (fields.map fun entry => .str entry.1)))
      | some .null | none => .ok (some .null)
      | _ => .error { code := 40390, message := "$objectToArray requires a document input" }
  | .call f args => do
      let xs ← evalAll server root env args
      server.apply f xs

def evalAll (server : Server) (root : Doc) (env : Env) :
    List Expr → Except ServerError (List (Option Value))
  | [] => .ok []
  | e :: rest => do
      let x ← eval server root env e
      let xs ← evalAll server root env rest
      .ok (x :: xs)

/-- The operands in turn until one is false. -/
def evalAnd (server : Server) (root : Doc) (env : Env) : List Expr → Except ServerError Bool
  | [] => .ok true
  | e :: rest => do
      let x ← eval server root env e
      if truthy x then evalAnd server root env rest else .ok false

/-- The operands in turn until one is true. -/
def evalOr (server : Server) (root : Doc) (env : Env) : List Expr → Except ServerError Bool
  | [] => .ok false
  | e :: rest => do
      let x ← eval server root env e
      if truthy x then .ok true else evalOr server root env rest

/-- A document of expressions; a field whose value is absent is left out. -/
def evalFields (server : Server) (root : Doc) (env : Env) :
    List (String × Expr) → Except ServerError Doc
  | [] => .ok []
  | (name, e) :: rest => do
      let x ← eval server root env e
      let doc ← evalFields server root env rest
      .ok (match x with
        | some v => (name, v) :: doc
        | none => doc)

def evalVars (server : Server) (root : Doc) (env : Env) :
    List (String × Expr) → Except ServerError Env
  | [] => .ok []
  | (name, e) :: rest => do
      let x ← eval server root env e
      let bound ← evalVars server root env rest
      .ok ((name, x) :: bound)

/-- The value of the first branch whose case is true. -/
def evalSwitch (server : Server) (root : Doc) (env : Env) :
    List (Expr × Expr) → Except ServerError (Option (Option Value))
  | [] => .ok none
  | (test, value) :: rest => do
      let x ← eval server root env test
      if truthy x then do
        let y ← eval server root env value
        .ok (some y)
      else evalSwitch server root env rest

end

mutual

/-- The field paths an expression reads. -/
def paths : Expr → List (List String)
  | .literal _ | .var _ | .remove => []
  | .field path => [path]
  | .document fields => pathsFields fields
  | .compare _ a b => paths a ++ paths b
  | .and es | .or es => pathsAll es
  | .not e | .type e | .size e | .keys e => paths e
  | .isIn e items => paths e ++ pathsAll items
  | .ifNull e fallback => paths e ++ paths fallback
  | .cond test yes no => paths test ++ paths yes ++ paths no
  | .switch branches otherwise => pathsBranches branches ++ paths otherwise
  | .letIn vars body => pathsFields vars ++ paths body
  | .call _ args => pathsAll args

def pathsAll : List Expr → List (List String)
  | [] => []
  | e :: rest => paths e ++ pathsAll rest

def pathsFields : List (String × Expr) → List (List String)
  | [] => []
  | (_, e) :: rest => paths e ++ pathsFields rest

def pathsBranches : List (Expr × Expr) → List (List String)
  | [] => []
  | (a, b) :: rest => paths a ++ paths b ++ pathsBranches rest

end

/-- The server refuses an expression with an ill-formed path before it reads a document. -/
def wellFormed (e : Expr) : Bool := e.paths.all wellFormedPath

theorem pathsAll_map {α : Type} (f : α → Expr) (xs : List α) :
    pathsAll (xs.map f) = xs.flatMap fun x => (f x).paths := by
  induction xs with
  | nil => rfl
  | cons x rest ih => simp only [List.map_cons, pathsAll, ih, List.flatMap_cons]

/-! ## Tests that do not fail -/

section Tests

variable {server : Server} {root : Doc} {env : Env}

theorem eval_compare {a b : Expr} {x y : Option Value} (op : Comparison)
    (ha : a.eval server root env = .ok x) (hb : b.eval server root env = .ok y) :
    (Expr.compare op a b).eval server root env =
      .ok (some (.bool (op.holds (Value.compareOption x y)))) := by
  simp only [eval, ha, hb]
  rfl

theorem evalAll_literals (vs : List Value) :
    evalAll server root env (vs.map literal) = .ok (vs.map some) := by
  induction vs with
  | nil => rfl
  | cons v rest ih =>
      simp only [List.map_cons, evalAll, eval, ih]
      rfl

theorem eval_isIn_literals {e : Expr} {x : Option Value} (vs : List Value)
    (he : e.eval server root env = .ok x) :
    (Expr.isIn e (vs.map literal)).eval server root env =
      .ok (some (.bool (vs.any fun v => Value.sameOption x (some v)))) := by
  simp only [eval, he, evalAll_literals]
  change Except.ok _ = _
  rw [List.any_map]
  rfl

theorem eval_or {a b : Expr} {x y : Bool} (ha : a.eval server root env = .ok (some (.bool x)))
    (hb : b.eval server root env = .ok (some (.bool y))) :
    (Expr.or [a, b]).eval server root env = .ok (some (.bool (x || y))) := by
  simp only [eval, evalOr, ha, hb]
  cases x with
  | true => rfl
  | false =>
      cases y with
      | true => rfl
      | false => rfl

theorem evalAnd_map {α : Type} {f : α → Expr} {q : α → Bool} {xs : List α}
    (each : ∀ x ∈ xs, (f x).eval server root env = .ok (some (.bool (q x)))) :
    evalAnd server root env (xs.map f) = .ok (xs.all q) := by
  induction xs with
  | nil => rfl
  | cons x rest ih =>
      have head := each x (List.mem_cons_self ..)
      have tail := ih fun y member => each y (List.mem_cons_of_mem _ member)
      simp only [List.map_cons, evalAnd, head, tail, List.all_cons]
      cases q x with
      | true => rfl
      | false => rfl

theorem eval_and_map {α : Type} {f : α → Expr} {q : α → Bool} {xs : List α}
    (each : ∀ x ∈ xs, (f x).eval server root env = .ok (some (.bool (q x)))) :
    (Expr.and (xs.map f)).eval server root env = .ok (some (.bool (xs.all q))) := by
  simp only [eval, evalAnd_map each]
  rfl

end Tests

end Expr

end AnalyticsBackend.Lib.Mongo
