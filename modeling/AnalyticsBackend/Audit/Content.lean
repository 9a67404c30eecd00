import AnalyticsBackend.Audit.Chain
import AnalyticsBackend.Logging.NeverLogged

/-!
# What the sealed content says of a row

The text of the content determines the tree that was serialised: a tree whose properties are in
ascending order is known by what stands at its places, and the text can be read in one way only.
So the content determines a stored row up to what the serialisation leaves out of it: what stands
under a key `__proto__`, and what stands in an object that passes for a text.
-/

namespace AnalyticsBackend.Audit
open Lib Lib.Mongo
open Logging (onesFormat)

/-! ## Places in a tree -/

/-- A property or an item. -/
inductive Place where
  | name (key : String)
  | index (i : Nat)
  deriving DecidableEq

/-- What a tree is at its root. -/
inductive Face where
  | null
  | bool (b : Bool)
  | num (q : ℚ)
  | str (s : String)
  | arr (length : Nat)
  | obj
  deriving DecidableEq

namespace Json

def face : Json → Face
  | .null => .null
  | .bool b => .bool b
  | .num q => .num q
  | .str s => .str s
  | .arr items => .arr items.length
  | .obj _ => .obj

def child : Json → Place → Option Json
  | .arr items, .index i => items[i]?
  | .obj fields, .name key => fields.lookup key
  | _, _ => none

def look : Json → List Place → Option Face
  | v, [] => some v.face
  | v, place :: path => (v.child place).bind fun w => w.look path

mutual

/-- The properties of every object are named once and in ascending order. -/
def Canonical : Json → Prop
  | .arr items => CanonicalItems items
  | .obj fields => (JsObject.keys fields).Nodup ∧ fields.Pairwise (fun a b => keyBefore a b = true) ∧
      CanonicalFields fields
  | _ => True

def CanonicalItems : List Json → Prop
  | [] => True
  | v :: rest => Canonical v ∧ CanonicalItems rest

def CanonicalFields : List (String × Json) → Prop
  | [] => True
  | (_, v) :: rest => Canonical v ∧ CanonicalFields rest

end

theorem canonicalItems_iff {items : List Json} : CanonicalItems items ↔ ∀ v ∈ items, Canonical v := by
  induction items with
  | nil => simp [CanonicalItems]
  | cons v rest ih => simp [CanonicalItems, ih]

theorem canonicalFields_iff {fields : List (String × Json)} :
    CanonicalFields fields ↔ ∀ entry ∈ fields, Canonical entry.2 := by
  induction fields with
  | nil => simp [CanonicalFields]
  | cons entry rest ih => simp [CanonicalFields, ih]

theorem mem_of_child {v w : Json} {place : Place} (found : v.child place = some w) :
    (∃ items, v = .arr items ∧ w ∈ items) ∨ ∃ fields key, v = .obj fields ∧ (key, w) ∈ fields := by
  cases v with
  | arr items =>
      cases place with
      | index i => exact .inl ⟨items, rfl, List.mem_of_getElem? found⟩
      | name key => exact nomatch found
  | obj fields =>
      cases place with
      | index i => exact nomatch found
      | name key => exact .inr ⟨fields, key, rfl, JsObject.mem_of_lookup found⟩
  | null => exact nomatch found
  | bool b => exact nomatch found
  | num q => exact nomatch found
  | str s => exact nomatch found

theorem Canonical.child {v w : Json} {place : Place} (canonical : v.Canonical)
    (found : v.child place = some w) : w.Canonical := by
  rcases mem_of_child found with ⟨items, rfl, mem⟩ | ⟨fields, key, rfl, mem⟩
  · exact canonicalItems_iff.mp canonical w mem
  · exact canonicalFields_iff.mp canonical.2.2 (key, w) mem

theorem look_cons (v : Json) (place : Place) (path : List Place) :
    v.look (place :: path) = (v.child place).bind fun w => w.look path := rfl

theorem look_singleton (v : Json) (place : Place) :
    v.look [place] = (v.child place).map face := by
  rw [look_cons]
  cases v.child place <;> rfl

theorem look_child {v v' w w' : Json} (place : Place)
    (same : ∀ path, v.look path = v'.look path) (found : v.child place = some w)
    (found' : v'.child place = some w') (path : List Place) : w.look path = w'.look path := by
  have below := same (place :: path)
  rwa [look_cons, look_cons, found, found'] at below

theorem child_isSome {v v' : Json} (same : ∀ path, v.look path = v'.look path) (place : Place) :
    (v.child place).isSome = (v'.child place).isSome := by
  have there := congrArg Option.isSome (same [place])
  rwa [look_singleton, look_singleton, Option.isSome_map, Option.isSome_map] at there

theorem keys_eq {fields fields' : List (String × Json)} (nodup : (JsObject.keys fields).Nodup)
    (nodup' : (JsObject.keys fields').Nodup)
    (ascending : fields.Pairwise fun a b => keyBefore a b = true)
    (ascending' : fields'.Pairwise fun a b => keyBefore a b = true)
    (names : ∀ key, key ∈ JsObject.keys fields ↔ key ∈ JsObject.keys fields') :
    JsObject.keys fields = JsObject.keys fields' := by
  have perm := (List.perm_ext_iff_of_nodup nodup nodup').mpr names
  have sorted : (JsObject.keys fields).Pairwise fun a b =>
      sortStrings.compareLex (utf16 a) (utf16 b) = true := List.pairwise_map.mpr ascending
  have sorted' : (JsObject.keys fields').Pairwise fun a b =>
      sortStrings.compareLex (utf16 a) (utf16 b) = true := List.pairwise_map.mpr ascending'
  refine List.Perm.eq_of_pairwise ?_ sorted sorted' perm
  intro a b _ _ before after
  exact utf16_injective (compareLex_antisymm before after)

mutual

theorem eq_of_look : (v v' : Json) → v.Canonical → v'.Canonical →
    (∀ path, v.look path = v'.look path) → v = v'
  | .arr items, v', canonical, canonical', same => by
      have root := Option.some.inj (same [])
      cases v' with
      | arr items' =>
          have length : items.length = items'.length := Face.arr.inj root
          have each := eq_of_look_items items canonical
          refine congrArg Json.arr (List.ext_getElem length fun i inside inside' => ?_)
          exact each _ (List.getElem_mem inside) _
            (canonicalItems_iff.mp canonical' _ (List.getElem_mem inside'))
            (look_child (.index i) same (List.getElem?_eq_getElem inside)
              (List.getElem?_eq_getElem inside'))
      | _ => exact nomatch root
  | .obj fields, v', canonical, canonical', same => by
      have root := Option.some.inj (same [])
      cases v' with
      | obj fields' =>
          obtain ⟨nodup, ascending, values⟩ := canonical
          obtain ⟨nodup', ascending', values'⟩ := canonical'
          have each := eq_of_look_fields fields values
          have there (key : String) : (fields.lookup key).isSome = (fields'.lookup key).isSome :=
            child_isSome same (.name key)
          have names : JsObject.keys fields = JsObject.keys fields' := by
            refine keys_eq nodup nodup' ascending ascending' fun key => ?_
            rw [← JsObject.has_iff, ← JsObject.has_iff, ← JsObject.lookup_isSome, there,
              JsObject.lookup_isSome]
          refine congrArg Json.obj (JsObject.ext_lookup names nodup fun key mem => ?_)
          rw [← JsObject.has_iff, ← JsObject.lookup_isSome] at mem
          obtain ⟨w, found⟩ := Option.isSome_iff_exists.mp mem
          obtain ⟨w', found'⟩ := Option.isSome_iff_exists.mp ((there key).symm.trans mem)
          have value : w = w' := each _ (JsObject.mem_of_lookup found) w'
            (canonicalFields_iff.mp values' _ (JsObject.mem_of_lookup found'))
            (look_child (.name key) same found found')
          rw [found, found', value]
      | _ => exact nomatch root
  | .null, v', _, _, same => by
      have root := Option.some.inj (same [])
      cases v' with
      | null => rfl
      | _ => exact nomatch root
  | .bool b, v', _, _, same => by
      have root := Option.some.inj (same [])
      cases v' with
      | bool b' => exact congrArg Json.bool (Face.bool.inj root)
      | _ => exact nomatch root
  | .num q, v', _, _, same => by
      have root := Option.some.inj (same [])
      cases v' with
      | num q' => exact congrArg Json.num (Face.num.inj root)
      | _ => exact nomatch root
  | .str s, v', _, _, same => by
      have root := Option.some.inj (same [])
      cases v' with
      | str s' => exact congrArg Json.str (Face.str.inj root)
      | _ => exact nomatch root

theorem eq_of_look_items : (items : List Json) → CanonicalItems items → ∀ v ∈ items, ∀ v' : Json,
    v'.Canonical → (∀ path, v.look path = v'.look path) → v = v'
  | [], _, _, mem, _, _, _ => absurd mem List.not_mem_nil
  | w :: rest, canonical, v, mem, v', canonical', same => by
      rcases List.mem_cons.mp mem with here | later
      · rw [here] at same ⊢
        exact eq_of_look w v' canonical.1 canonical' same
      · exact eq_of_look_items rest canonical.2 v later v' canonical' same

theorem eq_of_look_fields : (fields : List (String × Json)) → CanonicalFields fields →
    ∀ entry ∈ fields, ∀ v' : Json, v'.Canonical →
      (∀ path, entry.2.look path = v'.look path) → entry.2 = v'
  | [], _, _, mem, _, _, _ => absurd mem List.not_mem_nil
  | (key, w) :: rest, canonical, entry, mem, v', canonical', same => by
      rcases List.mem_cons.mp mem with here | later
      · rw [here] at same ⊢
        exact eq_of_look w v' canonical.1 canonical' same
      · exact eq_of_look_fields rest canonical.2 entry later v' canonical' same

end

/-! ## The text of a tree -/

mutual

/-- The tree as `JSON.stringify` goes through it: the properties of an object in the order of an
object that was built by assignments. -/
def enumerated : Json → Lib.Json
  | .null => .null
  | .bool b => .bool b
  | .num q => .num q
  | .str s => .str s
  | .arr items => .arr (enumeratedItems items)
  | .obj fields => .obj (JsObject.assign [] (enumeratedFields fields))

def enumeratedItems : List Json → List Lib.Json
  | [] => []
  | v :: rest => v.enumerated :: enumeratedItems rest

def enumeratedFields : List (String × Json) → List (String × Lib.Json)
  | [] => []
  | (key, v) :: rest => (key, v.enumerated) :: enumeratedFields rest

end

def stringify (fmt : NumberFormat) (v : Json) : List Char := Lib.Json.render fmt v.enumerated

theorem enumeratedItems_eq (items : List Json) : enumeratedItems items = items.map enumerated := by
  induction items with
  | nil => rfl
  | cons v rest ih => rw [enumeratedItems, ih, List.map_cons]

theorem enumeratedFields_eq (fields : List (String × Json)) :
    enumeratedFields fields = JsObject.mapValues enumerated fields := by
  induction fields with
  | nil => rfl
  | cons entry rest ih =>
      rw [enumeratedFields, ih]
      rfl

/-- A property reads the same in whatever order the properties are. -/
theorem lookup_enumerated {fields : List (String × Json)} (nodup : (JsObject.keys fields).Nodup)
    (key : String) : (JsObject.assign [] (enumeratedFields fields)).lookup key =
      (fields.lookup key).map enumerated := by
  rw [enumeratedFields_eq, JsObject.lookup_assign _ (by rwa [JsObject.keys_mapValues]),
    JsObject.lookup_mapValues]
  exact Option.or_none

theorem face_of_enumerated {v v' : Json} (same : v.enumerated = v'.enumerated) : v.face = v'.face := by
  cases v <;> cases v' <;>
    simp only [enumerated, enumeratedItems_eq, reduceCtorEq, Lib.Json.bool.injEq, Lib.Json.num.injEq,
      Lib.Json.str.injEq, Lib.Json.arr.injEq] at same
  · rfl
  · rw [same]
  · rw [same]
  · rw [same]
  · have length := congrArg List.length same
    rw [List.length_map, List.length_map] at length
    rw [face, face, length]
  · rfl

/-- Trees that are gone through alike have, at every place, trees that are gone through alike. -/
theorem child_of_enumerated {v v' : Json} (canonical : v.Canonical) (canonical' : v'.Canonical)
    (same : v.enumerated = v'.enumerated) (place : Place) :
    (v.child place).map enumerated = (v'.child place).map enumerated := by
  have alike := face_of_enumerated same
  cases v with
  | arr items =>
      cases v' with
      | arr items' =>
          cases place with
          | name key => rfl
          | index i =>
              simp only [enumerated, enumeratedItems_eq, Lib.Json.arr.injEq] at same
              simp only [child]
              rw [← List.getElem?_map, ← List.getElem?_map, same]
      | _ => exact nomatch alike
  | obj fields =>
      cases v' with
      | obj fields' =>
          cases place with
          | index i => rfl
          | name key =>
              simp only [enumerated, Lib.Json.obj.injEq] at same
              simp only [child]
              rw [← lookup_enumerated canonical.1, ← lookup_enumerated canonical'.1, same]
      | _ => exact nomatch alike
  | _ =>
      cases v' with
      | arr items => exact nomatch alike
      | obj fields => exact nomatch alike
      | _ => rfl

theorem look_of_enumerated {v v' : Json} (canonical : v.Canonical) (canonical' : v'.Canonical)
    (same : v.enumerated = v'.enumerated) (path : List Place) : v.look path = v'.look path := by
  induction path generalizing v v' with
  | nil => exact congrArg some (face_of_enumerated same)
  | cons place path ih =>
      have children := child_of_enumerated canonical canonical' same place
      rw [look_cons, look_cons]
      cases found : v.child place with
      | none =>
          rw [found, Option.map_none, eq_comm, Option.map_eq_none_iff] at children
          rw [children]
      | some w =>
          rw [found, Option.map_some, eq_comm] at children
          obtain ⟨w', found', alike⟩ := Option.map_eq_some_iff.mp children
          rw [found', Option.bind_some, Option.bind_some]
          exact ih (canonical.child found) (canonical'.child found') alike.symm

theorem stringify_inj (fmt : NumberFormat) {v v' : Json} (canonical : v.Canonical)
    (canonical' : v'.Canonical) (same : v.stringify fmt = v'.stringify fmt) : v = v' :=
  eq_of_look v v' canonical canonical'
    (look_of_enumerated canonical canonical' (Lib.Json.render_injective fmt same))

end Json

/-! ## Stored values as JSON -/

mutual

/-- No object has two properties of one name. -/
def Distinct : Value → Prop
  | .arr items => DistinctItems items
  | .obj fields => (JsObject.keys fields).Nodup ∧ DistinctFields fields
  | _ => True

def DistinctItems : List Value → Prop
  | [] => True
  | v :: rest => Distinct v ∧ DistinctItems rest

def DistinctFields : List (String × Value) → Prop
  | [] => True
  | (_, v) :: rest => Distinct v ∧ DistinctFields rest

end

theorem distinctItems_iff {items : List Value} : DistinctItems items ↔ ∀ v ∈ items, Distinct v := by
  induction items with
  | nil => simp [DistinctItems]
  | cons v rest ih => simp [DistinctItems, ih]

theorem distinctFields_iff {fields : List (String × Value)} :
    DistinctFields fields ↔ ∀ entry ∈ fields, Distinct entry.2 := by
  induction fields with
  | nil => simp [DistinctFields]
  | cons entry rest ih => simp [DistinctFields, ih]

/-- What a serialisation leaves out: the content of the objects that it takes for a text, and the
properties with a lost name. -/
structure Losses where
  text : List (String × Value) → Option String
  lost : String → Bool

/-- Nothing is left out. -/
def Losses.none : Losses where
  text _ := .none
  lost _ := false

/-- What `serialise` leaves out of stored values. -/
def Losses.hashed : Losses where
  text fields :=
    match Doc.get fields "_bsontype" with
    | some (.str "Decimal128") => some "[object Object]"
    | some (.str "Long") => some "[object Object]"
    | some (.str "Binary") => some "[binary]"
    | _ => .none
  lost key := key = "__proto__"

section Losses

variable (losses : Losses) (decimalText : Number → String)

mutual

/-- The JSON form of a stored value, with what is left out: dates and ids are texts, what JSON
does not know is null, and the order of properties does not count. -/
def normalise : Value → Json
  | .null => .null
  | .bool b => .bool b
  | .num n => serialiseNumber decimalText n
  | .str s => .str s
  | .date ms => serialiseDate ms
  | .oid id => .str id.toHex
  | .arr items => .arr (normaliseItems items)
  | .obj fields =>
      match losses.text fields with
      | some text => .str text
      | .none => .obj ((normaliseFields fields).insertionSort fun a b => keyBefore a b)

def normaliseItems : List Value → List Json
  | [] => []
  | v :: rest => normalise v :: normaliseItems rest

def normaliseFields : List (String × Value) → List (String × Json)
  | [] => []
  | (key, v) :: rest =>
      if losses.lost key then normaliseFields rest else (key, normalise v) :: normaliseFields rest

end

def part : Value → Place → Option Value
  | .arr items, .index i => items[i]?
  | .obj fields, .name key =>
      if (losses.text fields).isSome || losses.lost key then .none else Doc.get fields key
  | _, _ => .none

def shownAt : Value → List Place → Option Face
  | v, [] => some (normalise losses decimalText v).face
  | v, place :: path => (part losses v place).bind fun w => shownAt w path

theorem normaliseItems_eq (items : List Value) :
    normaliseItems losses decimalText items = items.map (normalise losses decimalText) := by
  induction items with
  | nil => rfl
  | cons v rest ih => rw [normaliseItems, ih, List.map_cons]

theorem normaliseFields_eq (fields : List (String × Value)) :
    normaliseFields losses decimalText fields =
      JsObject.mapValues (normalise losses decimalText)
        (fields.filter fun entry => !losses.lost entry.1) := by
  induction fields with
  | nil => rfl
  | cons entry rest ih =>
      obtain ⟨key, v⟩ := entry
      rw [normaliseFields, List.filter_cons, ih]
      cases losses.lost key <;> rfl

theorem lookup_kept (fields : List (String × Value)) (key : String) :
    (fields.filter fun entry => !losses.lost entry.1).lookup key =
      if losses.lost key then .none else fields.lookup key := by
  induction fields with
  | nil => split <;> rfl
  | cons entry rest ih =>
      obtain ⟨k, v⟩ := entry
      rw [List.filter_cons, JsObject.lookup_cons_eq]
      by_cases here : key = k
      · subst here
        cases lost : losses.lost key with
        | true =>
            rw [lost] at ih
            simpa using ih
        | false => simp
      · cases losses.lost k with
        | true => simpa [here] using ih
        | false => simpa [JsObject.lookup_cons_eq, here] using ih

theorem keys_sorted {fields : List (String × Json)} (nodup : (JsObject.keys fields).Nodup) :
    (JsObject.keys (fields.insertionSort fun a b => keyBefore a b)).Nodup :=
  ((List.perm_insertionSort _ fields).map Prod.fst).nodup_iff.mpr nodup

theorem nodup_normaliseFields {fields : List (String × Value)} (nodup : (JsObject.keys fields).Nodup) :
    (JsObject.keys (normaliseFields losses decimalText fields)).Nodup := by
  rw [normaliseFields_eq, JsObject.keys_mapValues]
  exact nodup.sublist (List.filter_sublist.map Prod.fst)

theorem pairwise_sorted (fields : List (String × Json)) :
    (fields.insertionSort fun a b => keyBefore a b).Pairwise fun a b => keyBefore a b = true := by
  have : Std.Total fun a b : String × Json => keyBefore a b = true := ⟨fun _ _ => compareLex_total _ _⟩
  have : IsTrans (String × Json) fun a b => keyBefore a b = true := ⟨fun _ _ _ => compareLex_trans⟩
  exact List.pairwise_insertionSort _ fields

theorem canonical_number (n : Number) : (serialiseNumber decimalText n).Canonical := by
  unfold serialiseNumber
  split
  · trivial
  · split <;> trivial
  · trivial
  · trivial

theorem canonical_date (ms : Int) : (serialiseDate ms).Canonical := by
  unfold serialiseDate
  split <;> trivial

mutual

theorem canonical_normalise : (v : Value) → Distinct v → (normalise losses decimalText v).Canonical
  | .null, _ => trivial
  | .bool _, _ => trivial
  | .num n, _ => canonical_number decimalText n
  | .str _, _ => trivial
  | .date ms, _ => canonical_date ms
  | .oid _, _ => trivial
  | .arr items, distinct => canonical_normaliseItems items distinct
  | .obj fields, distinct => by
      rw [normalise]
      split
      · trivial
      · refine ⟨keys_sorted (nodup_normaliseFields losses decimalText distinct.1), pairwise_sorted _,
          Json.canonicalFields_iff.mpr fun entry mem => ?_⟩
        exact canonical_normaliseFields fields distinct.2 entry ((List.mem_insertionSort _).mp mem)

theorem canonical_normaliseItems : (items : List Value) → DistinctItems items →
    Json.CanonicalItems (normaliseItems losses decimalText items)
  | [], _ => trivial
  | v :: rest, distinct =>
      ⟨canonical_normalise v distinct.1, canonical_normaliseItems rest distinct.2⟩

theorem canonical_normaliseFields : (fields : List (String × Value)) → DistinctFields fields →
    ∀ entry ∈ normaliseFields losses decimalText fields, entry.2.Canonical
  | [], _, _, mem => absurd mem List.not_mem_nil
  | (key, v) :: rest, distinct, entry, mem => by
      rw [normaliseFields] at mem
      split at mem
      · exact canonical_normaliseFields rest distinct.2 entry mem
      · rcases List.mem_cons.mp mem with rfl | later
        · exact canonical_normalise v distinct.1
        · exact canonical_normaliseFields rest distinct.2 entry later

end

theorem child_normalise {v : Value} (distinct : Distinct v) (place : Place) :
    (normalise losses decimalText v).child place =
      (part losses v place).map (normalise losses decimalText) := by
  cases v with
  | arr items =>
      cases place with
      | name key => rfl
      | index i =>
          rw [normalise, normaliseItems_eq]
          exact List.getElem?_map ..
  | obj fields =>
      rw [normalise]
      cases place with
      | index i => split <;> rfl
      | name key =>
          split
          · rename_i text known
            rw [part, known]
            rfl
          · rename_i unknown
            have nodup := nodup_normaliseFields losses decimalText distinct.1
            rw [part, unknown, Option.isSome_none, Bool.false_or]
            show List.lookup key _ = _
            rw [JsObject.lookup_perm (List.perm_insertionSort _ _) (keys_sorted nodup),
              normaliseFields_eq, JsObject.lookup_mapValues, lookup_kept]
            rfl
  | num n =>
      have leaf : ∀ place, (serialiseNumber decimalText n).child place = .none := by
        unfold serialiseNumber
        intro place
        split
        · rfl
        · split <;> rfl
        · rfl
        · rfl
      exact leaf place
  | date ms =>
      have leaf : ∀ place, (serialiseDate ms).child place = .none := by
        unfold serialiseDate
        intro place
        split <;> rfl
      exact leaf place
  | _ => rfl

theorem distinct_part {v w : Value} (distinct : Distinct v) {place : Place}
    (found : part losses v place = some w) : Distinct w := by
  cases v with
  | arr items =>
      cases place with
      | name key => exact nomatch found
      | index i => exact distinctItems_iff.mp distinct w (List.mem_of_getElem? found)
  | obj fields =>
      cases place with
      | index i => exact nomatch found
      | name key =>
          rw [part] at found
          split at found
          · exact nomatch found
          · exact distinctFields_iff.mp distinct.2 _ (JsObject.mem_of_lookup found)
  | _ => exact nomatch found

theorem look_normalise {v : Value} (distinct : Distinct v) (path : List Place) :
    (normalise losses decimalText v).look path = shownAt losses decimalText v path := by
  induction path generalizing v with
  | nil => rfl
  | cons place path ih =>
      rw [Json.look_cons, child_normalise losses decimalText distinct, shownAt]
      cases found : part losses v place with
      | none => rfl
      | some w => exact ih (distinct_part losses distinct found)

/-- Stored values have one JSON form when they show the same at every place. -/
theorem normalise_eq_iff {v v' : Value} (distinct : Distinct v) (distinct' : Distinct v') :
    normalise losses decimalText v = normalise losses decimalText v' ↔
      ∀ path, shownAt losses decimalText v path = shownAt losses decimalText v' path := by
  constructor
  · intro same path
    rw [← look_normalise losses decimalText distinct, same, look_normalise losses decimalText distinct']
  · intro same
    refine Json.eq_of_look _ _ (canonical_normalise losses decimalText v distinct)
      (canonical_normalise losses decimalText v' distinct') fun path => ?_
    rw [look_normalise losses decimalText distinct, same, look_normalise losses decimalText distinct']

end Losses

/-! ## The content of a row -/

theorem sortKeys_number (decimalText : Number → String) (n : Number) :
    sortKeys (serialiseNumber decimalText n) = serialiseNumber decimalText n := by
  unfold serialiseNumber
  split
  · rfl
  · split <;> rfl
  · rfl
  · rfl

theorem sortKeys_date (ms : Int) : sortKeys (serialiseDate ms) = serialiseDate ms := by
  unfold serialiseDate
  split <;> rfl

theorem plainText_eq {fields : List (String × Value)} {j : Json} (done : plainText fields = some j) :
    j = .str "[object Object]" := by
  unfold plainText at done
  split at done
  · exact nomatch done
  · exact (Option.some.inj done).symm

mutual

theorem sortKeys_serialise (decimalText : Number → String) : (v : Value) → (j : Json) →
    serialise decimalText v = some j → sortKeys j = normalise .hashed decimalText v
  | .null, _, done => by cases done; rfl
  | .bool _, _, done => by cases done; rfl
  | .num n, _, done => by cases done; exact sortKeys_number decimalText n
  | .str _, _, done => by cases done; rfl
  | .date ms, _, done => by cases done; exact sortKeys_date ms
  | .oid _, _, done => by cases done; rfl
  | .arr items, j, done => by
      rw [serialise, Option.map_eq_some_iff] at done
      obtain ⟨out, each, rfl⟩ := done
      rw [sortKeys, normalise, sortItems_serialise decimalText items out each]
  | .obj fields, j, done => by
      rw [serialise] at done
      rw [normalise]
      split at done
      · exact nomatch done
      · exact nomatch done
      · rename_i type
        have text : Losses.hashed.text fields = some "[object Object]" := by
          simp only [Losses.hashed, type]
        rw [plainText_eq done, text]
        rfl
      · rename_i type
        have text : Losses.hashed.text fields = some "[object Object]" := by
          simp only [Losses.hashed, type]
        rw [plainText_eq done, text]
        rfl
      · rename_i type
        have text : Losses.hashed.text fields = some "[binary]" := by
          simp only [Losses.hashed, type]
        rw [← Option.some.inj done, text]
        rfl
      · obtain ⟨out, each, rfl⟩ := Option.map_eq_some_iff.mp done
        have plain : Losses.hashed.text fields = .none := by simp only [Losses.hashed]
        rw [plain, sortKeys, sortFields_serialise decimalText fields out each]

theorem sortItems_serialise (decimalText : Number → String) : (items : List Value) →
    (out : List Json) → serialiseItems decimalText items = some out →
      sortItems out = normaliseItems .hashed decimalText items
  | [], _, done => by cases done; rfl
  | v :: rest, out, done => by
      simp only [serialiseItems, Option.bind_eq_bind, Option.bind_eq_some_iff, Option.pure_def,
        Option.some.injEq] at done
      obtain ⟨item, first, out, others, rfl⟩ := done
      rw [sortItems, normaliseItems, sortKeys_serialise decimalText v item first,
        sortItems_serialise decimalText rest out others]

theorem sortFields_serialise (decimalText : Number → String) : (fields : List (String × Value)) →
    (out : List (String × Json)) → serialiseFields decimalText fields = some out →
      sortFields out = normaliseFields .hashed decimalText fields
  | [], _, done => by cases done; rfl
  | (key, v) :: rest, out, done => by
      simp only [serialiseFields, Option.bind_eq_bind, Option.bind_eq_some_iff, Option.pure_def,
        Option.some.injEq] at done
      obtain ⟨value, first, out, others, rfl⟩ := done
      rw [normaliseFields, ← sortFields_serialise decimalText rest out others,
        ← sortKeys_serialise decimalText v value first]
      by_cases proto : key = "__proto__"
      · simp [Losses.hashed, proto]
      · simp [Losses.hashed, proto, sortFields]

end

theorem canonicalJson_eq {decimalText : Number → String} {v : Value} {c : Json}
    (done : canonicalJson decimalText v = some c) : c = normalise .hashed decimalText v := by
  obtain ⟨j, serialised, rfl⟩ := Option.map_eq_some_iff.mp done
  exact sortKeys_serialise decimalText v j serialised

/-- A row as it is stored. -/
structure StoredRow where
  doc : Doc
  distinct : Distinct (.obj doc)

theorem distinct_picked (row : StoredRow) : Distinct (.obj (picked row.doc)) := by
  refine ⟨?_, distinctFields_iff.mpr fun entry mem => ?_⟩
  · have names : JsObject.keys (picked row.doc) = chainFields := by
      rw [JsObject.keys, picked, List.map_map]
      exact List.map_id _
    rw [names]
    decide
  · obtain ⟨name, -, rfl⟩ := List.mem_map.mp mem
    cases found : Doc.get row.doc name with
    | none => trivial
    | some v => exact distinctFields_iff.mp row.distinct.2 _ (JsObject.mem_of_lookup found)

/-- The values of `CHAIN_FIELDS` after JSON normalisation. -/
def chainValues (rt : Runtime) (row : StoredRow) : Json :=
  normalise .none rt.decimalText (.obj (picked row.doc))

/-- What a row holds at a place of the fields in `CHAIN_FIELDS`. -/
def heldAt (rt : Runtime) (row : StoredRow) : List Place → Option Face :=
  shownAt .none rt.decimalText (.obj (picked row.doc))

/-- What the hash covers at a place of the fields in `CHAIN_FIELDS`. -/
def coveredAt (rt : Runtime) (row : StoredRow) : List Place → Option Face :=
  shownAt .hashed rt.decimalText (.obj (picked row.doc))

/-- The rows differ, and only where the hash does not cover it: under a key `__proto__`, or in an
object that passes for a text. -/
def DifferUncovered (rt : Runtime) (row row' : StoredRow) : Prop :=
  (∃ path, heldAt rt row path ≠ heldAt rt row' path) ∧
    ∀ path, coveredAt rt row path = coveredAt rt row' path

section Rows

variable {rt : Runtime} {row row' : StoredRow} {c c' : Json}

theorem chainValues_eq_iff : chainValues rt row = chainValues rt row' ↔
    ∀ path, heldAt rt row path = heldAt rt row' path :=
  normalise_eq_iff .none rt.decimalText (distinct_picked row) (distinct_picked row')

theorem stringify_eq_iff (fmt : NumberFormat) (content : chainContent rt row.doc = some c)
    (content' : chainContent rt row'.doc = some c') :
    c.stringify fmt = c'.stringify fmt ↔ ∀ path, coveredAt rt row path = coveredAt rt row' path := by
  have distinct := distinct_picked row
  have distinct' := distinct_picked row'
  obtain rfl := canonicalJson_eq content
  obtain rfl := canonicalJson_eq content'
  rw [coveredAt, coveredAt, ← normalise_eq_iff .hashed rt.decimalText distinct distinct']
  constructor
  · exact Json.stringify_inj fmt (canonical_normalise .hashed _ _ distinct)
      (canonical_normalise .hashed _ _ distinct')
  · exact congrArg (Json.stringify fmt)

end Rows

/-- The text that is hashed determines the values of the row exactly when the two rows do not
differ in uncovered places only. -/
theorem content_determines_iff (rt : Runtime) (fmt : NumberFormat) (row row' : StoredRow) (c c' : Json)
    (content : chainContent rt row.doc = some c) (content' : chainContent rt row'.doc = some c') :
    (c.stringify fmt = c'.stringify fmt → chainValues rt row = chainValues rt row') ↔
      ¬ DifferUncovered rt row row' := by
  rw [stringify_eq_iff fmt content content', chainValues_eq_iff, DifferUncovered, ← not_forall, not_and,
    not_imp_not]

/-! ## A role under `__proto__` -/

namespace RoleRow

def runtime : Runtime where
  sha256 _ := ""
  hmacSha256 _ _ := ""
  sha256Escaped _ _ := ""
  hmacSha256Escaped _ _ _ := ""
  sha256Text _ := ""
  decimalText _ := ""
  text _ := ""
  castDate _ := none

/-- The user as it was written. -/
def admin : StoredRow where
  doc := [("action", .str "user.updated"),
    ("after", .obj [("role", .str "admin"), ("email", .str "a@b.co")])]
  distinct := ⟨by decide, trivial, ⟨by decide, trivial, trivial, trivial⟩, trivial⟩

/-- The same user, with the properties in another order. -/
def reordered : StoredRow where
  doc := [("after", .obj [("email", .str "a@b.co"), ("role", .str "admin")]),
    ("action", .str "user.updated")]
  distinct := ⟨by decide, ⟨by decide, trivial, trivial, trivial⟩, trivial, trivial⟩

/-- A user with a second role, under `__proto__`. -/
def owner : StoredRow where
  doc := [("action", .str "user.updated"),
    ("after", .obj [("role", .str "admin"), ("email", .str "a@b.co"),
      ("__proto__", .obj [("role", .str "owner")])])]
  distinct := ⟨by decide, trivial, ⟨by decide, trivial, trivial, ⟨by decide, trivial, trivial⟩, trivial⟩,
    trivial⟩

end RoleRow

theorem content_determines_reordered :
    ∃ c c', chainContent RoleRow.runtime RoleRow.admin.doc = some c ∧
      chainContent RoleRow.runtime RoleRow.reordered.doc = some c' ∧
      (c.stringify onesFormat = c'.stringify onesFormat →
        chainValues RoleRow.runtime RoleRow.admin = chainValues RoleRow.runtime RoleRow.reordered) := by
  obtain ⟨c, content⟩ : ∃ c, chainContent RoleRow.runtime RoleRow.admin.doc = some c := ⟨_, rfl⟩
  obtain ⟨c', content'⟩ : ∃ c', chainContent RoleRow.runtime RoleRow.reordered.doc = some c' := ⟨_, rfl⟩
  have same : chainValues RoleRow.runtime RoleRow.admin =
      chainValues RoleRow.runtime RoleRow.reordered := by rfl
  refine ⟨c, c', content, content', (content_determines_iff RoleRow.runtime onesFormat RoleRow.admin
    RoleRow.reordered c c' content content').mpr ?_⟩
  rintro ⟨⟨path, apart⟩, -⟩
  exact apart (chainValues_eq_iff.mp same path)

/-- What stands under a key `__proto__` is in the row and not in its content. -/
theorem proto_not_covered :
    ¬ ∀ (rt : Runtime) (fmt : NumberFormat) (row row' : StoredRow) (c c' : Json),
      chainContent rt row.doc = some c → chainContent rt row'.doc = some c' →
      c.stringify fmt = c'.stringify fmt → chainValues rt row = chainValues rt row' := by
  intro determines
  obtain ⟨c, content⟩ : ∃ c, chainContent RoleRow.runtime RoleRow.admin.doc = some c := ⟨_, rfl⟩
  have content' : chainContent RoleRow.runtime RoleRow.owner.doc = some c := content
  have same := determines RoleRow.runtime onesFormat RoleRow.admin RoleRow.owner c c content content' rfl
  have shown := chainValues_eq_iff.mp same [.name "after", .name "__proto__"]
  exact absurd shown (by decide)

end AnalyticsBackend.Audit
