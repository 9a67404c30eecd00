import AnalyticsBackend.Lib.Js
import AnalyticsBackend.Lib.Result

/-!
# Documents of a MongoDB collection

BSON values as far as JSON data, dates and object ids need them, the comparison order of the
server, and the two ways a dotted path is read: `fieldPath` for an aggregation expression and
`candidates` for a query predicate. An absent value is `none`.
-/

namespace AnalyticsBackend.Lib.Mongo

inductive NumberType where
  | int
  | long
  | double
  | decimal
  deriving DecidableEq, Repr

structure Number where
  type : NumberType
  value : Magnitude
  deriving DecidableEq, Repr

/-- The twelve bytes of an object id, as a number. -/
structure ObjectId where
  value : Nat
  deriving DecidableEq, Repr

inductive Value where
  | null
  | bool (b : Bool)
  | num (n : Number)
  | str (s : String)
  | date (ms : Int)
  | oid (id : ObjectId)
  | arr (items : List Value)
  | obj (fields : List (String × Value))

/-- The fields of a document in their stored order. -/
abbrev Doc := List (String × Value)

/-! ## Hexadecimal object ids -/

def hexDigit (c : Char) : Option Nat :=
  if '0' ≤ c ∧ c ≤ '9' then some (c.toNat - '0'.toNat)
  else if 'a' ≤ c ∧ c ≤ 'f' then some (c.toNat - 'a'.toNat + 10)
  else if 'A' ≤ c ∧ c ≤ 'F' then some (c.toNat - 'A'.toNat + 10)
  else none

/-- Twenty-four hexadecimal digits, in either letter case. -/
def isHexId (s : String) : Bool :=
  s.toList.length == 24 && s.toList.all fun c => (hexDigit c).isSome

/-- `new ObjectId(s)` for a string that `isHexId` accepts. -/
def ObjectId.ofHex (s : String) : ObjectId :=
  ⟨s.toList.foldl (fun acc c => 16 * acc + (hexDigit c).getD 0) 0⟩

def hexChar (n : Nat) : Char := "0123456789abcdef".toList.getD n '0'

/-- `String(id)`: twenty-four lower-case digits. -/
def ObjectId.toHex (id : ObjectId) : String :=
  String.ofList ((List.range 24).map fun i => hexChar (id.value / 16 ^ (23 - i) % 16))

theorem hexDigit_hexChar {n : Nat} (small : n < 16) : hexDigit (hexChar n) = some n := by
  have all : ∀ k < 16, hexDigit (hexChar k) = some k := by decide
  exact all n small

/-- The last `n` digits write the number up to `16 ^ n`. -/
theorem foldl_hexChars (n v : Nat) :
    (((List.range n).map fun i => hexChar (v / 16 ^ (n - 1 - i) % 16)).foldl
      (fun acc c => 16 * acc + (hexDigit c).getD 0) 0) = v % 16 ^ n := by
  induction n generalizing v with
  | zero => simp [Nat.mod_one]
  | succ n ih =>
      have higher : (List.range n).map (fun i => hexChar (v / 16 ^ (n - i) % 16)) =
          (List.range n).map fun i => hexChar (v / 16 / 16 ^ (n - 1 - i) % 16) := by
        refine List.map_congr_left fun i mem => ?_
        have exponent : n - i = n - 1 - i + 1 := by
          have := List.mem_range.mp mem
          omega
        rw [exponent, Nat.pow_succ', Nat.div_div_eq_div_mul]
      rw [List.range_succ, List.map_append, List.foldl_append]
      simp only [Nat.add_sub_cancel, List.map_cons, List.map_nil, List.foldl_cons, List.foldl_nil,
        Nat.sub_self, Nat.pow_zero, Nat.div_one]
      rw [higher, ih, hexDigit_hexChar (Nat.mod_lt _ (by decide)), Option.getD_some, Nat.pow_succ',
        Nat.mod_mul]
      omega

theorem isHexId_toHex (id : ObjectId) : isHexId id.toHex = true := by
  have digit (k : Nat) : (hexDigit (hexChar (k % 16))).isSome = true := by
    rw [hexDigit_hexChar (Nat.mod_lt k (by decide))]
    rfl
  simp [isHexId, ObjectId.toHex, digit]

/-- Twelve bytes are written and read back. -/
theorem ofHex_toHex {id : ObjectId} (bytes : id.value < 16 ^ 24) : ObjectId.ofHex id.toHex = id := by
  have written := foldl_hexChars 24 id.value
  rw [Nat.mod_eq_of_lt bytes] at written
  simp only [ObjectId.ofHex, ObjectId.toHex, String.toList_ofList]
  exact congrArg ObjectId.mk written

/-! ## Comparison -/

namespace Number

def magnitudeRank : Magnitude → Nat
  | .nan => 0
  | .negInf => 1
  | .finite _ => 2
  | .posInf => 3

/-- By value, whatever the types; NaN is below every other number. -/
def compare (a b : Number) : Ordering :=
  match a.value, b.value with
  | .finite p, .finite q => compareOfLessAndEq p q
  | x, y => Ord.compare (magnitudeRank x) (magnitudeRank y)

end Number

namespace Value

/-- The place of the value's type in the comparison order. -/
def rank : Value → Nat
  | .null => 5
  | .num _ => 10
  | .str _ => 15
  | .obj _ => 20
  | .arr _ => 25
  | .oid _ => 35
  | .bool _ => 40
  | .date _ => 45

/-- `$type` of a value that is there. -/
def typeName : Value → String
  | .null => "null"
  | .bool _ => "bool"
  | .num n =>
    match n.type with
    | .int => "int"
    | .long => "long"
    | .double => "double"
    | .decimal => "decimal"
  | .str _ => "string"
  | .date _ => "date"
  | .oid _ => "objectId"
  | .arr _ => "array"
  | .obj _ => "object"

mutual

/-- The order of the server: by type, then by value; numbers of every type together. -/
def compare : Value → Value → Ordering
  | .null, .null => .eq
  | .bool a, .bool b => Ord.compare a b
  | .num a, .num b => a.compare b
  | .str a, .str b => Ord.compare a b
  | .date a, .date b => Ord.compare a b
  | .oid a, .oid b => Ord.compare a.value b.value
  | .arr a, .arr b => compareItems a b
  | .obj a, .obj b => compareFields a b
  | a, b => Ord.compare a.rank b.rank

def compareItems : List Value → List Value → Ordering
  | [], [] => .eq
  | [], _ :: _ => .lt
  | _ :: _, [] => .gt
  | a :: as, b :: bs => (compare a b).then (compareItems as bs)

def compareFields : List (String × Value) → List (String × Value) → Ordering
  | [], [] => .eq
  | [], _ :: _ => .lt
  | _ :: _, [] => .gt
  | (k, a) :: as, (l, b) :: bs =>
      (((Ord.compare a.rank b.rank).then (Ord.compare k l)).then (compare a b)).then
        (compareFields as bs)

end

/-- Equality as the server tests it. -/
def same (a b : Value) : Bool := a.compare b == .eq

/-- An absent value is below every other. -/
def compareOption : Option Value → Option Value → Ordering
  | none, none => .eq
  | none, some _ => .lt
  | some _, none => .gt
  | some a, some b => a.compare b

theorem same_str (v : Value) (s : String) : v.same (.str s) = true ↔ v = .str s := by
  cases v with
  | str t =>
      have texts : (Value.str t).same (.str s) = (Ord.compare t s == .eq) := rfl
      simp [texts]
  | null | bool | num | date | oid | arr | obj => exact iff_of_false Bool.false_ne_true nofun

theorem same_oid (v : Value) (id : ObjectId) : v.same (.oid id) = true ↔ v = .oid id := by
  cases v with
  | oid other =>
      have ids : (Value.oid other).same (.oid id) = (Ord.compare other.value id.value == .eq) := rfl
      cases other
      cases id
      simp [ids]
  | null | bool | num | str | date | arr | obj => exact iff_of_false Bool.false_ne_true nofun

theorem same_null (v : Value) : v.same .null = true ↔ v = .null := by
  cases v with
  | null => exact iff_of_true rfl rfl
  | bool | num | str | date | oid | arr | obj => exact iff_of_false Bool.false_ne_true nofun

/-- Equality of values that may be absent. -/
def sameOption : Option Value → Option Value → Bool
  | none, none => true
  | some a, some b => a.same b
  | _, _ => false

end Value

/-! ## Fields and paths -/

namespace Doc

def get (doc : Doc) (name : String) : Option Value := doc.lookup name

/-- Set a field: in its place when it is there, else at the end. -/
def set : Doc → String → Value → Doc
  | [], name, v => [(name, v)]
  | (k, w) :: rest, name, v =>
      if k = name then (name, v) :: rest else (k, w) :: set rest name v

theorem set_cons (k : String) (w : Value) (rest : Doc) (name : String) (v : Value) :
    Doc.set ((k, w) :: rest) name v =
      if k = name then (name, v) :: rest else (k, w) :: Doc.set rest name v :=
  rfl

theorem get_cons (k : String) (w : Value) (rest : Doc) (name : String) :
    Doc.get ((k, w) :: rest) name = if name = k then some w else Doc.get rest name := by
  refine List.lookup_cons.trans ?_
  by_cases h : name = k
  · rw [if_pos h, h, beq_self_eq_true]
  · rw [if_neg h, beq_false_of_ne h]
    rfl

theorem get_set (doc : Doc) (name other : String) (v : Value) :
    Doc.get (Doc.set doc name v) other = if other = name then some v else Doc.get doc other := by
  induction doc with
  | nil => exact get_cons name v [] other
  | cons entry rest ih =>
      obtain ⟨k, w⟩ := entry
      rw [set_cons, get_cons]
      by_cases hk : k = name
      · subst hk
        rw [if_pos rfl, get_cons]
        split
        · rfl
        · rfl
      · rw [if_neg hk, get_cons, ih]
        split
        · rename_i h
          rw [if_neg (fun is => hk (h.symm.trans is))]
        · rfl

end Doc

/-- A field path of an aggregation expression, below `doc`. Below an array it yields the array
of what its object items yield; anything else on the way has no fields. -/
def fieldPath : List String → Doc → Option Value
  | [], doc => some (.obj doc)
  | [name], doc => Doc.get doc name
  | name :: next :: rest, doc =>
      match Doc.get doc name with
      | some (.obj inner) => fieldPath (next :: rest) inner
      | some (.arr items) => some (.arr (items.filterMap fun
          | .obj inner => fieldPath (next :: rest) inner
          | _ => none))
      | _ => none

/-- A path the server accepts in an expression: no component is empty. -/
def wellFormedPath (path : List String) : Bool :=
  !path.isEmpty && path.all fun name => !name.isEmpty

/-- The field of an object, or the item of an array when the component is its position. -/
def child : Value → String → Option Value
  | .obj fields, name => Doc.get fields name
  | .arr items, name => (decimalIndex name).bind fun i => items[i]?
  | _, _ => none

/-- A value at the end of a path: an array is tried itself and item by item. -/
def leaves : Value → List (Option Value)
  | .arr items => items.map some ++ [some (.arr items)]
  | v => [some v]

/-- The values a query predicate tries for a path below `container`. An array on the way is
searched item by item (only items that are objects) and by position. Whether an array that a
position names at the end of a path is itself searched is left open: `searchIndexed`. -/
def candidates (searchIndexed : Bool) : List String → Value → List (Option Value)
  | [], v => leaves v
  | name :: rest, container =>
      match child container name, rest with
      | none, _ => [none]
      | some v, [] => leaves v
      | some (.obj fields), rest => candidates searchIndexed rest (.obj fields)
      | some (.arr items), next :: rest =>
          (items.flatMap fun
            | .obj fields => candidates searchIndexed (next :: rest) (.obj fields)
            | _ => []) ++
          (match child (.arr items) next with
          | none => []
          | some item =>
              match rest with
              | [] => if searchIndexed then leaves item else [some item]
              | after :: rest =>
                  match item with
                  | .obj fields => candidates searchIndexed (after :: rest) (.obj fields)
                  | .arr inner => candidates searchIndexed (after :: rest) (.arr inner)
                  | _ => [])
      | some _, _ :: _ => [none]

/-! ### Paths that meet no array -/

/-- What a path reaches from object to object. -/
def plainPath : List String → Doc → Option Value
  | [], doc => some (.obj doc)
  | [name], doc => Doc.get doc name
  | name :: next :: rest, doc =>
      match Doc.get doc name with
      | some (.obj inner) => plainPath (next :: rest) inner
      | _ => none

/-- Going from object to object the path comes to an array, on the way or at its end. -/
def meetsArray : List String → Doc → Bool
  | [], _ => false
  | [name], doc =>
      match Doc.get doc name with
      | some (.arr _) => true
      | _ => false
  | name :: next :: rest, doc =>
      match Doc.get doc name with
      | some (.arr _) => true
      | some (.obj inner) => meetsArray (next :: rest) inner
      | _ => false

/-- An expression reads a string exactly where the path goes through objects alone. -/
theorem fieldPath_str (path : List String) (doc : Doc) (s : String) :
    fieldPath path doc = some (.str s) ↔ plainPath path doc = some (.str s) := by
  fun_induction plainPath path doc with
  | case1 doc => simp [fieldPath]
  | case2 name doc => simp [fieldPath]
  | case3 name next rest doc inner found ih =>
      rw [← ih]
      simp only [fieldPath, found]
  | case4 name next rest doc other =>
      simp only [fieldPath]
      constructor
      · intro h
        split at h
        · rename_i inner found
          exact absurd found (other inner)
        · simp at h
        · simp at h
      · simp

/-- A predicate finds a string where the path goes through objects alone, and otherwise only in
an array. -/
theorem mem_candidates_of_plain (searchIndexed : Bool) (path : List String) (doc : Doc)
    (s : String) (plain : meetsArray path doc = false) (nonempty : path ≠ []) :
    some (.str s) ∈ candidates searchIndexed path (.obj doc) ↔
      plainPath path doc = some (.str s) := by
  fun_induction plainPath path doc with
  | case1 doc => exact absurd rfl nonempty
  | case2 name doc =>
      cases found : Doc.get doc name with
      | none => simp [candidates, child, found]
      | some v =>
          cases v with
          | arr items => simp [meetsArray, found] at plain
          | null | bool | num | str | date | oid | obj =>
              simp [candidates, child, found, leaves, eq_comm]
  | case3 name next rest doc inner found ih =>
      simp only [meetsArray, found] at plain
      have step : candidates searchIndexed (name :: next :: rest) (.obj doc)
          = candidates searchIndexed (next :: rest) (.obj inner) := by
        conv_lhs => unfold candidates
        simp only [child, found]
      rw [step]
      exact ih plain (List.cons_ne_nil _ _)
  | case4 name next rest doc other =>
      cases found : Doc.get doc name with
      | none => simp [candidates, child, found]
      | some v =>
          cases v with
          | obj inner => exact absurd found (other inner)
          | arr items => simp [meetsArray, found] at plain
          | null | bool | num | str | date | oid => simp [candidates, child, found]

theorem plainPath_ne_str_of_meetsArray {path : List String} {doc : Doc}
    (h : meetsArray path doc = true) (s : String) : plainPath path doc ≠ some (.str s) := by
  fun_induction plainPath path doc with
  | case1 doc => simp [meetsArray] at h
  | case2 name doc =>
      intro found
      simp [meetsArray, found] at h
  | case3 name next rest doc inner found ih =>
      simp only [meetsArray, found] at h
      exact ih h
  | case4 name next rest doc other => simp

end AnalyticsBackend.Lib.Mongo
