import AnalyticsBackend.Archive.Manifest
import AnalyticsBackend.Lib.JsOrder
import Mathlib.Data.List.Nodup
import Mathlib.Data.List.SplitBy
import Mathlib.Algebra.Ring.Nat

/-!
# Ids of a restored workspace

`remapValue`, `remapDocument`, `invertIdMap` and `CollectionDigest` of `services/tenantArchive.js`: a
clone gets new ids, and the restored documents are verified with the ids put back.
-/

namespace AnalyticsBackend.Archive
open Lib

/-! ## Values -/

/-- An `ObjectId`, by its `toHexString()`. -/
structure ObjectId where
  hex : List Char
  length : hex.length = 24
  lower : ∀ c ∈ hex, isLowerHex c = true
  deriving DecidableEq

/-- A value of a document. A scalar is a primitive value other than a string, or null; a BSON value is
an object of a class, such as a date or a binary. -/
inductive Value (Scalar Bson : Type) where
  | scalar (isNull : Bool) (value : Scalar)
  | str (s : String)
  | id (oid : ObjectId)
  | bson (value : Bson)
  | arr (items : List (Value Scalar Bson))
  | obj (fields : List (String × Value Scalar Bson))
  /-- An object that inherits from another value than `Object.prototype`. -/
  | inheriting (proto : Value Scalar Bson) (fields : List (String × Value Scalar Bson))

variable {Scalar Bson : Type}

/-! ## Id maps -/

/-- A `Map` of ids by the text of ids, in insertion order. -/
structure IdMap where
  entries : List (ObjectId × ObjectId)
  keys : (entries.map Prod.fst).Nodup

namespace IdMap

def empty : IdMap := ⟨[], List.nodup_nil⟩

def get (map : IdMap) (text : List Char) : Option ObjectId :=
  (map.entries.find? fun entry => entry.1.hex == text).map Prod.snd

/-- The entries after `map.set(key, value)`. -/
def setIn (key value : ObjectId) : List (ObjectId × ObjectId) → List (ObjectId × ObjectId)
  | [] => [(key, value)]
  | (k, v) :: rest => if k = key then (key, value) :: rest else (k, v) :: setIn key value rest

theorem mem_keys_setIn {key value other : ObjectId} {entries : List (ObjectId × ObjectId)} :
    other ∈ (setIn key value entries).map Prod.fst ↔ other = key ∨ other ∈ entries.map Prod.fst := by
  induction entries with
  | nil => simp [setIn]
  | cons entry rest ih =>
      unfold setIn
      split
      next same => simp [same]
      next => rw [List.map_cons, List.mem_cons, ih, List.map_cons, List.mem_cons, or_left_comm]

theorem nodup_keys_setIn {key value : ObjectId} {entries : List (ObjectId × ObjectId)}
    (nodup : (entries.map Prod.fst).Nodup) : ((setIn key value entries).map Prod.fst).Nodup := by
  induction entries with
  | nil => exact List.nodup_singleton _
  | cons entry rest ih =>
      obtain ⟨fresh, others⟩ := List.nodup_cons.mp nodup
      unfold setIn
      split
      next same => exact List.nodup_cons.mpr ⟨same ▸ fresh, others⟩
      next apart =>
        refine List.nodup_cons.mpr ⟨fun mem => ?_, ih others⟩
        exact (mem_keys_setIn.mp mem).elim apart fresh

def set (map : IdMap) (key value : ObjectId) : IdMap :=
  ⟨setIn key value map.entries, nodup_keys_setIn map.keys⟩

end IdMap

/-- `invertIdMap`. -/
def invertIdMap (map : IdMap) : IdMap :=
  map.entries.foldl (fun inverse entry => inverse.set entry.2 entry.1) IdMap.empty

/-! ## Texts -/

/-- `[0-9a-fA-F]`. -/
def isHexDigit (c : Char) : Bool := c.isDigit || "abcdefABCDEF".toList.contains c

/-- A text cut into its longest runs of hexadecimal digits and its other characters. -/
def hexRuns (s : List Char) : List (List Char) := s.splitBy fun a b => isHexDigit a && isHexDigit b

/-- The matches of `HEX_ID_TOKEN` are the runs of 24 digits: no digit stands before or after them. -/
def isToken (run : List Char) : Bool := run.length == 24 && run.all isHexDigit

/-- `token.toLowerCase()` of hexadecimal digits. -/
def lowerCase (token : List Char) : List Char := token.map Char.toLower

def remapToken (map : IdMap) (run : List Char) : List Char :=
  if isToken run then
    match map.get (lowerCase run) with
    | some mapped => mapped.hex
    | none => run
  else run

def remapString (map : IdMap) (value : String) : String :=
  if jsLength value < 24 then value
  else String.ofList ((hexRuns value.toList).flatMap (remapToken map))

/-! ## Values and documents -/

/-- `map.get(value.toHexString()) ?? value`. -/
def remapId (map : IdMap) (oid : ObjectId) : ObjectId := (map.get oid.hex).getD oid

/-- `out[key] = value`, on an object that was written as `{}`: its own `__proto__` is never set, for
the setter of that name takes an object, or null, as the new prototype and drops other values. -/
def assignField (out : Value Scalar Bson) (field : String × Value Scalar Bson) : Value Scalar Bson :=
  match out, field with
  | .obj fields, ("__proto__", proto) =>
      match proto with
      | .scalar _ _ | .str _ => .obj fields
      | _ => .inheriting proto fields
  | .obj fields, (key, value) => .obj (JsObject.set fields key value)
  | .inheriting proto fields, (key, value) => .inheriting proto (JsObject.set fields key value)
  | other, _ => other

mutual

/-- The recursion of `remapValue`: strings and the keys of plain objects through `text`, ids through
`oid`. -/
def rename (text : String → String) (oid : ObjectId → ObjectId) :
    Value Scalar Bson → Value Scalar Bson
  | .str s => .str (text s)
  | .id o => .id (oid o)
  | .arr items => .arr (renameItems text oid items)
  | .obj fields => (renameFields text oid fields).foldl assignField (.obj [])
  | .scalar isNull value => .scalar isNull value
  | .bson value => .bson value
  | .inheriting proto fields => .inheriting proto fields

def renameItems (text : String → String) (oid : ObjectId → ObjectId) :
    List (Value Scalar Bson) → List (Value Scalar Bson)
  | [] => []
  | item :: rest => rename text oid item :: renameItems text oid rest

def renameFields (text : String → String) (oid : ObjectId → ObjectId) :
    List (String × Value Scalar Bson) → List (String × Value Scalar Bson)
  | [] => []
  | (key, inner) :: rest => (text key, rename text oid inner) :: renameFields text oid rest

end

def remapValue (value : Value Scalar Bson) (map : IdMap) : Value Scalar Bson :=
  if map.entries.isEmpty then value else rename (remapString map) (remapId map) value

/-- The remapping policy of a collection. -/
inductive Policy where
  | deep
  | fields (names : List String)

/-- The own properties of an object. -/
def ownFields : Value Scalar Bson → List (String × Value Scalar Bson)
  | .obj fields | .inheriting _ fields => fields
  | _ => []

/-- `if (hasOwn(out, field)) out[field] = remapValue(out[field], map)`. -/
def remapField (map : IdMap) (out : List (String × Value Scalar Bson)) (field : String) :
    List (String × Value Scalar Bson) :=
  match out.lookup field with
  | some value => JsObject.set out field (remapValue value map)
  | none => out

def remapDocument (doc : Value Scalar Bson) (policy : Policy) (map : IdMap) : Value Scalar Bson :=
  match policy with
  | .deep => remapValue doc map
  | .fields names => .obj (names.foldl (remapField map) (ownFields doc))

/-! ## Digests -/

/-- `CollectionDigest`: `documentDigest` is the number of the SHA-256 of a document's canonical text. -/
structure CollectionDigest where
  count : ℕ
  sum : ℕ
  deriving DecidableEq

namespace CollectionDigest

def start : CollectionDigest := { count := 0, sum := 0 }

def add (documentDigest : Value Scalar Bson → ℕ) (digest : CollectionDigest)
    (doc : Value Scalar Bson) : CollectionDigest :=
  { count := digest.count + 1, sum := (digest.sum + documentDigest doc) % 2 ^ 256 }

/-- The digest of a collection, before it is hashed once more. -/
def ofDocuments (documentDigest : Value Scalar Bson → ℕ) (docs : List (Value Scalar Bson)) :
    CollectionDigest := docs.foldl (add documentDigest) start

end CollectionDigest

end AnalyticsBackend.Archive
