import AnalyticsBackend.Analytics.BusinessTime
import AnalyticsBackend.Lib.Mongo.Value
import Mathlib.Data.List.Sort

/-!
# Canonical JSON of stored data

`canonicalJson` of `utils/auditPayload.js`, which serialises without redaction and without
limits, on data as it is read back from the store. The text that is hashed is `JSON.stringify`
of the tree computed here; it is the tree that the model keeps.
-/

namespace AnalyticsBackend.Audit
open Lib Lib.Mongo

/-- JSON data. -/
inductive Json where
  | null
  | bool (b : Bool)
  | num (q : ℚ)
  | str (s : String)
  | arr (items : List Json)
  | obj (fields : List (String × Json))

/-- A long that the driver reads as a number. -/
def safeLong (q : ℚ) : Bool := q.num.natAbs < 2 ^ 53

/-- A number; the driver keeps a decimal, and a long beyond 2⁵³, as an object with a text. -/
def serialiseNumber (decimalText : Number → String) (n : Number) : Json :=
  match n.type, n.value with
  | .decimal, _ => .str (decimalText n)
  | .long, .finite q => if safeLong q then .num q else .str (toString q.num)
  | _, .finite q => .num q
  | _, _ => .null

/-- Dates lie within 8.64·10¹⁵ milliseconds of the epoch. -/
def serialiseDate (ms : Int) : Json :=
  if ms.natAbs ≤ 8640000000000000 then .str (Analytics.isoText ms) else .null

/-- `value.toString()` of a plain object. -/
def plainText (fields : List (String × Value)) : Option Json :=
  if (Doc.get fields "toString").isSome then none else some (.str "[object Object]")

mutual

/-- `serialise`; `none` where it throws. A plain object with a `_bsontype` of its own passes for
the value it names. -/
def serialise (decimalText : Number → String) : Value → Option Json
  | .null => some .null
  | .bool b => some (.bool b)
  | .num n => some (serialiseNumber decimalText n)
  | .str s => some (.str s)
  | .date ms => some (serialiseDate ms)
  | .oid id => some (.str id.toHex)
  | .arr items => (serialiseItems decimalText items).map .arr
  | .obj fields =>
      match Doc.get fields "_bsontype" with
      | some (.str "ObjectId") => none
      | some (.str "ObjectID") => none
      | some (.str "Decimal128") => plainText fields
      | some (.str "Long") => plainText fields
      | some (.str "Binary") => some (.str "[binary]")
      | _ => (serialiseFields decimalText fields).map .obj

def serialiseItems (decimalText : Number → String) : List Value → Option (List Json)
  | [] => some []
  | v :: rest => do
      let item ← serialise decimalText v
      return item :: (← serialiseItems decimalText rest)

/-- Assigning `out['__proto__']` adds no property. -/
def serialiseFields (decimalText : Number → String) :
    List (String × Value) → Option (List (String × Json))
  | [] => some []
  | (key, raw) :: rest => do
      let serialised ← serialise decimalText raw
      let out ← serialiseFields decimalText rest
      return if key = "__proto__" then out else (key, serialised) :: out

end

/-- The order of `Object.keys(value).sort()`. -/
def keyBefore {A : Type} (a b : String × A) : Bool :=
  sortStrings.compareLex (utf16 a.1) (utf16 b.1)

mutual

/-- `sortKeys`. -/
def sortKeys : Json → Json
  | .arr items => .arr (sortItems items)
  | .obj fields => .obj ((sortFields fields).insertionSort fun a b => keyBefore a b)
  | v => v

def sortItems : List Json → List Json
  | [] => []
  | v :: rest => sortKeys v :: sortItems rest

def sortFields : List (String × Json) → List (String × Json)
  | [] => []
  | (key, v) :: rest => (key, sortKeys v) :: sortFields rest

end

/-- Deterministic JSON: object keys sorted at every level. -/
def canonicalJson (decimalText : Number → String) (v : Value) : Option Json :=
  (serialise decimalText v).map sortKeys

end AnalyticsBackend.Audit
