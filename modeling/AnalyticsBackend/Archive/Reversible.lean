import AnalyticsBackend.Archive.Tokens

/-!
# Restored documents

Remapping a document and then remapping it back with the inverse map. Nothing is lost when the ids in
its texts and keys are written in lower case: a token is found in any letter case, and is always put
in in lower case.
-/

namespace AnalyticsBackend.Archive
open Lib

variable {Scalar Bson : Type}

/-! ## The parts of a value -/

/-- What remapping looks at. -/
inductive Part where
  | text (s : String)
  | key (s : String)
  | id (oid : ObjectId)

def Part.rename (text : String → String) (oid : ObjectId → ObjectId) : Part → Part
  | .text s => .text (text s)
  | .key s => .key (text s)
  | .id o => .id (oid o)

mutual

def parts : Value Scalar Bson → List Part
  | .str s => [.text s]
  | .id o => [.id o]
  | .arr items => partsOfItems items
  | .obj fields => partsOfFields fields
  | .scalar _ _ | .bson _ | .inheriting _ _ => []

def partsOfItems : List (Value Scalar Bson) → List Part
  | [] => []
  | item :: rest => parts item ++ partsOfItems rest

def partsOfFields : List (String × Value Scalar Bson) → List Part
  | [] => []
  | (key, inner) :: rest => .key key :: parts inner ++ partsOfFields rest

end

mutual

/-- The keys of an object differ and are enumerated in the order of the language. -/
def Proper : Value Scalar Bson → Prop
  | .arr items => ProperItems items
  | .obj fields => (JsObject.keys fields).Nodup ∧ (JsObject.keys fields).Pairwise JsObject.Before ∧
      ProperFields fields
  | .scalar _ _ | .str _ | .id _ | .bson _ | .inheriting _ _ => True

def ProperItems : List (Value Scalar Bson) → Prop
  | [] => True
  | item :: rest => Proper item ∧ ProperItems rest

def ProperFields : List (String × Value Scalar Bson) → Prop
  | [] => True
  | (_, inner) :: rest => Proper inner ∧ ProperFields rest

end

theorem renameFields_eq (text : String → String) (oid : ObjectId → ObjectId)
    (fields : List (String × Value Scalar Bson)) :
    renameFields text oid fields = fields.map fun e => (text e.1, rename text oid e.2) := by
  induction fields with
  | nil => rfl
  | cons field rest ih => rw [renameFields, ih, List.map_cons]

theorem mem_partsOfFields {fields : List (String × Value Scalar Bson)} {part : Part} :
    part ∈ partsOfFields fields ↔ ∃ e ∈ fields, part = .key e.1 ∨ part ∈ parts e.2 := by
  induction fields with
  | nil => simp [partsOfFields]
  | cons field rest ih =>
      obtain ⟨key, inner⟩ := field
      rw [partsOfFields, List.cons_append, List.mem_cons, List.mem_append, ih, ← or_assoc,
        List.exists_mem_cons_iff]

/-! ## Rebuilding an object -/

theorem assignField_obj {fields : List (String × Value Scalar Bson)} {key : String}
    {value : Value Scalar Bson} (apart : key ≠ "__proto__") :
    assignField (.obj fields) (key, value) = .obj (JsObject.set fields key value) := by
  unfold assignField
  split
  next same => exact absurd (Prod.mk.inj same).1 apart
  next same same' =>
    cases same
    cases same'
    rfl
  next same _ => cases same
  next other _ => exact (other _ _ _ rfl rfl).elim

theorem rebuild_eq {fields : List (String × Value Scalar Bson)}
    (nodup : (JsObject.keys fields).Nodup) (ordered : (JsObject.keys fields).Pairwise JsObject.Before)
    (own : "__proto__" ∉ JsObject.keys fields) :
    fields.foldl assignField (.obj []) = .obj fields := by
  have added (todo : List (String × Value Scalar Bson)) : ∀ done : List (String × Value Scalar Bson),
      (JsObject.keys (done ++ todo)).Nodup → (JsObject.keys (done ++ todo)).Pairwise JsObject.Before →
      "__proto__" ∉ JsObject.keys todo →
      todo.foldl assignField (.obj done) = .obj (done ++ todo) := by
    induction todo with
    | nil =>
        intro done _ _ _
        rw [List.foldl_nil, List.append_nil]
    | cons field rest ih =>
        intro done nodup ordered own
        obtain ⟨key, value⟩ := field
        obtain ⟨apart, own⟩ := List.ne_and_not_mem_of_not_mem_cons own
        rw [JsObject.keys_append] at nodup ordered
        have fresh : JsObject.has done key = false := by
          rw [← Bool.not_eq_true, JsObject.has_iff]
          exact fun mem => (List.nodup_append.mp nodup).2.2 _ mem _ (List.mem_cons_self ..) rfl
        have last : ∀ other ∈ JsObject.keys done, JsObject.Before other key := fun other mem =>
          (List.pairwise_append.mp ordered).2.2 other mem key (List.mem_cons_self ..)
        have step := ih (done ++ [(key, value)]) (by
            rw [List.append_assoc, JsObject.keys_append]
            exact nodup) (by
            rw [List.append_assoc, JsObject.keys_append]
            exact ordered) own
        rw [List.foldl_cons, assignField_obj (Ne.symm apart), JsObject.set_of_not_has fresh,
          JsObject.insert_of_last last, step, List.append_assoc]
        rfl
  exact added fields [] nodup ordered own

/-! ## Renaming -/

/-- A change of texts that keeps the keys of a value apart, and indices and `__proto__` as they are. -/
structure Renames (text : String → String) (v : Value Scalar Bson) : Prop where
  apart : ∀ a b, .key a ∈ parts v → .key b ∈ parts v → text a = text b → a = b
  index : ∀ a, .key a ∈ parts v → propertyIndex (text a) = propertyIndex a
  own : ∀ a, .key a ∈ parts v → text a ≠ "__proto__"

theorem Renames.mono {text : String → String} {v w : Value Scalar Bson} (renames : Renames text v)
    (sub : ∀ part ∈ parts w, part ∈ parts v) : Renames text w where
  apart a b memA memB := renames.apart a b (sub _ memA) (sub _ memB)
  index a mem := renames.index a (sub _ mem)
  own a mem := renames.own a (sub _ mem)

variable {text : String → String} {oid : ObjectId → ObjectId}

theorem rename_obj {fields : List (String × Value Scalar Bson)} (proper : Proper (.obj fields))
    (renames : Renames text (.obj fields)) :
    rename text oid (.obj fields) = .obj (renameFields text oid fields) ∧
      (JsObject.keys (renameFields text oid fields)).Nodup ∧
      (JsObject.keys (renameFields text oid fields)).Pairwise JsObject.Before := by
  obtain ⟨nodup, ordered, -⟩ := proper
  have isKey : ∀ key ∈ JsObject.keys fields, Part.key key ∈ parts (.obj fields) := by
    intro key mem
    obtain ⟨e, inside, rfl⟩ := List.mem_map.mp mem
    exact mem_partsOfFields.mpr ⟨e, inside, .inl rfl⟩
  have keys : JsObject.keys (renameFields text oid fields) = (JsObject.keys fields).map text := by
    rw [renameFields_eq, JsObject.keys, List.map_map, JsObject.keys, List.map_map]
    rfl
  have nodup' : ((JsObject.keys fields).map text).Nodup :=
    nodup.map_on fun a memA b memB => renames.apart a b (isKey a memA) (isKey b memB)
  have ordered' : ((JsObject.keys fields).map text).Pairwise JsObject.Before := by
    rw [List.pairwise_map]
    refine ordered.imp_of_mem fun {a b} memA memB before => ?_
    rw [JsObject.Before, renames.index a (isKey a memA), renames.index b (isKey b memB)]
    exact before
  rw [rename, keys]
  refine ⟨rebuild_eq (keys ▸ nodup') (keys ▸ ordered') ?_, nodup', ordered'⟩
  rw [keys, List.mem_map]
  rintro ⟨key, mem, same⟩
  exact renames.own key (isKey key mem) same

mutual

/-- Two changes of a value are one, where the first keeps its keys apart. -/
theorem rename_rename {text' : String → String} {oid' : ObjectId → ObjectId} :
    ∀ v : Value Scalar Bson, Proper v → Renames text v →
      rename text' oid' (rename text oid v) = rename (text' ∘ text) (oid' ∘ oid) v
  | .scalar _ _, _, _ => rfl
  | .str _, _, _ => rfl
  | .id _, _, _ => rfl
  | .bson _, _, _ => rfl
  | .inheriting _ _, _, _ => rfl
  | .arr items, proper, renames => by
      rw [rename, rename, rename, renameItems_renameItems items proper renames]
  | .obj fields, proper, renames => by
      rw [(rename_obj proper renames).1, rename, rename,
        renameFields_renameFields fields proper.2.2 renames]

theorem renameItems_renameItems {text' : String → String} {oid' : ObjectId → ObjectId} :
    ∀ items : List (Value Scalar Bson), ProperItems items → Renames text (.arr items) →
      renameItems text' oid' (renameItems text oid items) =
        renameItems (text' ∘ text) (oid' ∘ oid) items
  | [], _, _ => rfl
  | item :: rest, proper, renames => by
      rw [renameItems, renameItems, renameItems,
        rename_rename item proper.1 (renames.mono fun _ => List.mem_append_left _),
        renameItems_renameItems rest proper.2 (renames.mono fun _ => List.mem_append_right _)]

theorem renameFields_renameFields {text' : String → String} {oid' : ObjectId → ObjectId} :
    ∀ fields : List (String × Value Scalar Bson), ProperFields fields → Renames text (.obj fields) →
      renameFields text' oid' (renameFields text oid fields) =
        renameFields (text' ∘ text) (oid' ∘ oid) fields
  | [], _, _ => rfl
  | (key, inner) :: rest, proper, renames => by
      rw [renameFields, renameFields, renameFields,
        rename_rename inner proper.1 (renames.mono fun _ mem =>
          List.mem_append_left _ (List.mem_cons_of_mem _ mem)),
        renameFields_renameFields rest proper.2 (renames.mono fun _ => List.mem_append_right _)]
      rfl

end

def Leaves (text : String → String) (oid : ObjectId → ObjectId) : Part → Prop
  | .text s => text s = s
  | .key s => text s = s ∧ s ≠ "__proto__"
  | .id o => oid o = o

mutual

theorem rename_of_leaves : ∀ v : Value Scalar Bson, Proper v → (∀ part ∈ parts v, Leaves text oid part) →
    rename text oid v = v
  | .scalar _ _, _, _ => rfl
  | .str s, _, leaves => congrArg Value.str (leaves (.text s) (List.mem_singleton_self _))
  | .id o, _, leaves => congrArg Value.id (leaves (.id o) (List.mem_singleton_self _))
  | .bson _, _, _ => rfl
  | .inheriting _ _, _, _ => rfl
  | .arr items, proper, leaves => by rw [rename, renameItems_of_leaves items proper leaves]
  | .obj fields, proper, leaves => by
      have same := renameFields_of_leaves fields proper.2.2 leaves
      rw [rename, same]
      refine rebuild_eq proper.1 proper.2.1 fun mem => ?_
      obtain ⟨e, mem, is⟩ := List.mem_map.mp mem
      exact (leaves (.key e.1) (mem_partsOfFields.mpr ⟨e, mem, .inl rfl⟩)).2 is

theorem renameItems_of_leaves : ∀ items : List (Value Scalar Bson), ProperItems items →
    (∀ part ∈ partsOfItems items, Leaves text oid part) → renameItems text oid items = items
  | [], _, _ => rfl
  | item :: rest, proper, leaves => by
      rw [renameItems,
        rename_of_leaves item proper.1 fun part mem => leaves part (List.mem_append_left _ mem),
        renameItems_of_leaves rest proper.2 fun part mem => leaves part (List.mem_append_right _ mem)]

theorem renameFields_of_leaves : ∀ fields : List (String × Value Scalar Bson), ProperFields fields →
    (∀ part ∈ partsOfFields fields, Leaves text oid part) → renameFields text oid fields = fields
  | [], _, _ => rfl
  | (key, inner) :: rest, proper, leaves => by
      rw [renameFields, (leaves (.key key) (List.mem_cons_self ..)).1,
        rename_of_leaves inner proper.1 fun part mem =>
          leaves part (List.mem_append_left _ (List.mem_cons_of_mem _ mem)),
        renameFields_of_leaves rest proper.2 fun part mem => leaves part (List.mem_append_right _ mem)]

end

/-! ## The parts of a changed value -/

theorem mem_of_mem_insert {fields : List (String × Value Scalar Bson)} {key : String}
    {value : Value Scalar Bson} {e : String × Value Scalar Bson}
    (mem : e ∈ JsObject.insert key value fields) : e = (key, value) ∨ e ∈ fields := by
  induction fields with
  | nil => exact .inl (List.mem_singleton.mp mem)
  | cons field rest ih =>
      have behind (mem : e ∈ field :: JsObject.insert key value rest) :
          e = (key, value) ∨ e ∈ field :: rest := by
        rcases List.mem_cons.mp mem with rfl | later
        · exact .inr (List.mem_cons_self ..)
        · exact (ih later).imp_right (List.mem_cons_of_mem _)
      unfold JsObject.insert at mem
      split at mem
      · exact behind mem
      · exact List.mem_cons.mp mem
      · split at mem
        · exact List.mem_cons.mp mem
        · exact behind mem

theorem mem_of_mem_set {fields : List (String × Value Scalar Bson)} {key : String}
    {value : Value Scalar Bson} {e : String × Value Scalar Bson}
    (mem : e ∈ JsObject.set fields key value) : e = (key, value) ∨ e ∈ fields := by
  unfold JsObject.set at mem
  split at mem
  · obtain ⟨old, inside, rfl⟩ := List.mem_map.mp mem
    split
    · exact .inl rfl
    · exact .inr inside
  · exact mem_of_mem_insert mem

theorem rebuild_inheriting (proto : Value Scalar Bson) (todo fields : List (String × Value Scalar Bson)) :
    ∃ fields', todo.foldl assignField (.inheriting proto fields) = .inheriting proto fields' := by
  induction todo generalizing fields with
  | nil => exact ⟨fields, rfl⟩
  | cons field rest ih => exact ih (JsObject.set fields field.1 field.2)

theorem rebuild_cases (todo done : List (String × Value Scalar Bson)) :
    (∃ proto fields, todo.foldl assignField (.obj done) = .inheriting proto fields) ∨
      ∃ fields, todo.foldl assignField (.obj done) = .obj fields ∧
        ∀ e ∈ fields, e ∈ done ∨ (e ∈ todo ∧ e.1 ≠ "__proto__") := by
  induction todo generalizing done with
  | nil => exact .inr ⟨done, rfl, fun e mem => .inl mem⟩
  | cons field rest ih =>
      have later (acc : List (String × Value Scalar Bson))
          (from' : ∀ e ∈ acc, e ∈ done ∨ (e = field ∧ e.1 ≠ "__proto__"))
          (first : assignField (.obj done) field = .obj acc) :
          (∃ proto fields, (field :: rest).foldl assignField (.obj done) = .inheriting proto fields) ∨
            ∃ fields, (field :: rest).foldl assignField (.obj done) = .obj fields ∧
              ∀ e ∈ fields, e ∈ done ∨ (e ∈ field :: rest ∧ e.1 ≠ "__proto__") := by
        rw [List.foldl_cons, first]
        refine (ih acc).imp_right fun ⟨fields, eq, each⟩ => ⟨fields, eq, fun e mem => ?_⟩
        rcases each e mem with old | ⟨new, own⟩
        · refine (from' e old).imp_right fun ⟨same, own⟩ => ⟨?_, own⟩
          rw [same]
          exact List.mem_cons_self ..
        · exact .inr ⟨List.mem_cons_of_mem _ new, own⟩
      obtain ⟨key, value⟩ := field
      by_cases proto : key = "__proto__"
      · subst proto
        have kept (e : String × Value Scalar Bson) (mem : e ∈ done) :
            e ∈ done ∨ (e = ("__proto__", value) ∧ e.1 ≠ "__proto__") := .inl mem
        cases value with
        | scalar isNull value => exact later done kept rfl
        | str s => exact later done kept rfl
        | id o => exact .inl ⟨.id o, rebuild_inheriting _ _ _⟩
        | bson value => exact .inl ⟨.bson value, rebuild_inheriting _ _ _⟩
        | arr items => exact .inl ⟨.arr items, rebuild_inheriting _ _ _⟩
        | obj fields => exact .inl ⟨.obj fields, rebuild_inheriting _ _ _⟩
        | inheriting proto fields => exact .inl ⟨.inheriting proto fields, rebuild_inheriting _ _ _⟩
      · refine later (JsObject.set done key value) (fun e mem => ?_) (assignField_obj proto)
        refine (mem_of_mem_set mem).symm.imp_right fun same => ⟨same, ?_⟩
        rw [same]
        exact proto

mutual

theorem mem_parts_rename : ∀ (v : Value Scalar Bson), ∀ part ∈ parts (rename text oid v),
    part ≠ .key "__proto__" ∧ ∃ old ∈ parts v, part = old.rename text oid
  | .scalar _ _, _, mem => nomatch mem
  | .str s, part, mem => by
      rw [List.mem_singleton.mp mem]
      exact ⟨nofun, .text s, List.mem_singleton_self _, rfl⟩
  | .id o, part, mem => by
      rw [List.mem_singleton.mp mem]
      exact ⟨nofun, .id o, List.mem_singleton_self _, rfl⟩
  | .bson _, _, mem => nomatch mem
  | .inheriting _ _, _, mem => nomatch mem
  | .arr items, part, mem => mem_parts_renameItems items part mem
  | .obj fields, part, mem => by
      rw [rename] at mem
      rcases rebuild_cases (renameFields text oid fields) [] with ⟨proto, other, eq⟩ | ⟨out, eq, each⟩
      · rw [eq] at mem
        exact nomatch mem
      · rw [eq] at mem
        obtain ⟨e, inside, is⟩ := mem_partsOfFields.mp mem
        obtain ⟨assigned, own⟩ := (each e inside).resolve_left List.not_mem_nil
        have whole := mem_parts_renameFields fields part
          (mem_partsOfFields.mpr ⟨e, assigned, is⟩)
        refine ⟨?_, whole.2⟩
        rintro rfl
        rcases is with key | nested
        · exact own (Part.key.inj key).symm
        · exact whole.1 ⟨e, assigned, nested⟩ rfl

theorem mem_parts_renameItems : ∀ (items : List (Value Scalar Bson)),
    ∀ part ∈ partsOfItems (renameItems text oid items),
      part ≠ .key "__proto__" ∧ ∃ old ∈ partsOfItems items, part = old.rename text oid
  | [], _, mem => nomatch mem
  | item :: rest, part, mem => by
      rcases List.mem_append.mp mem with first | later
      · obtain ⟨own, old, inside, is⟩ := mem_parts_rename item part first
        exact ⟨own, old, List.mem_append_left _ inside, is⟩
      · obtain ⟨own, old, inside, is⟩ := mem_parts_renameItems rest part later
        exact ⟨own, old, List.mem_append_right _ inside, is⟩

theorem mem_parts_renameFields : ∀ (fields : List (String × Value Scalar Bson)),
    ∀ part ∈ partsOfFields (renameFields text oid fields),
      ((∃ e ∈ renameFields text oid fields, part ∈ parts e.2) → part ≠ .key "__proto__") ∧
        ∃ old ∈ partsOfFields fields, part = old.rename text oid
  | [], _, mem => nomatch mem
  | (key, inner) :: rest, part, mem => by
      constructor
      · rintro ⟨e, inside, nested⟩
        rcases List.mem_cons.mp inside with rfl | later
        · exact (mem_parts_rename inner part nested).1
        · exact (mem_parts_renameFields rest part
            (mem_partsOfFields.mpr ⟨e, later, .inr nested⟩)).1 ⟨e, later, nested⟩
      · rcases List.mem_append.mp mem with first | later
        · rcases List.mem_cons.mp first with is | nested
          · exact ⟨.key key, List.mem_append_left _ (List.mem_cons_self ..), is⟩
          · obtain ⟨-, old, inside, is⟩ := mem_parts_rename inner part nested
            exact ⟨old, List.mem_append_left _ (List.mem_cons_of_mem _ inside), is⟩
        · obtain ⟨-, old, inside, is⟩ := mem_parts_renameFields rest part later
          exact ⟨old, List.mem_append_right _ inside, is⟩

end

theorem mem_parts_iterate (k : ℕ) (v : Value Scalar Bson) {part : Part}
    (mem : part ∈ parts ((rename text oid)^[k] v)) :
    (0 < k → part ≠ .key "__proto__") ∧ ∃ old ∈ parts v, part = old.rename text^[k] oid^[k] := by
  induction k generalizing part with
  | zero =>
      refine ⟨fun none => absurd none (Nat.lt_irrefl 0), part, mem, ?_⟩
      cases part <;> rfl
  | succ k ih =>
      rw [Function.iterate_succ_apply'] at mem
      obtain ⟨own, middle, inside, rfl⟩ := mem_parts_rename _ part mem
      obtain ⟨-, old, there, rfl⟩ := ih inside
      refine ⟨fun _ => own, old, there, ?_⟩
      rw [Function.iterate_succ', Function.iterate_succ']
      cases old <;> rfl

/-- Repeated changes are one, where no step brings keys together. -/
theorem iterate_rename (k : ℕ) {text' : String → String} {oid' : ObjectId → ObjectId}
    {v : Value Scalar Bson} (proper : Proper v) (renames : ∀ j < k, Renames (text^[j] ∘ text') v) :
    (rename text oid)^[k] (rename text' oid' v) = rename (text^[k] ∘ text') (oid^[k] ∘ oid') v := by
  induction k with
  | zero => rfl
  | succ k ih =>
      rw [Function.iterate_succ_apply', ih fun j less => renames j (Nat.lt_succ_of_lt less),
        rename_rename v proper (renames k (Nat.lt_succ_self k)), Function.iterate_succ',
        Function.iterate_succ']
      rfl

/-! ## Remapping and its inverse -/

variable {map : IdMap}

/-- The ids that the map gives out occur nowhere in a value. -/
def UnusedPart (map : IdMap) : Part → Prop
  | .text s | .key s => UnusedText map s
  | .id o => o ∉ map.news

def SpelledPart (map : IdMap) : Part → Prop
  | .text s => SpelledText map s
  | .key s => SpelledText map s ∧ s ≠ "__proto__"
  | .id _ => True

/-- Every id in the texts and keys of a value that the map knows is in lower case, and no object has a
key `__proto__`. -/
def Restorable (map : IdMap) (v : Value Scalar Bson) : Prop := ∀ part ∈ parts v, SpelledPart map part

theorem hex_remapId (map : IdMap) (o : ObjectId) : (remapId map o).hex = remapToken map o.hex := by
  unfold remapId
  cases known : map.get o.hex with
  | none =>
      rw [Option.getD_none, remapToken_of_unknown]
      rw [lowerCase_hex]
      exact fun _ => known
  | some mapped =>
      rw [remapToken_of_known (isToken_hex o) (by rwa [lowerCase_hex])]
      rfl

theorem hex_iterate_remapId (map : IdMap) (k : ℕ) (o : ObjectId) :
    ((remapId map)^[k] o).hex = (remapToken map)^[k] o.hex := by
  induction k with
  | zero => rfl
  | succ k ih => rw [Function.iterate_succ_apply', hex_remapId, ih, Function.iterate_succ_apply']

theorem iterate_remapId (injective : map.Injective) {o : ObjectId} (unused : o ∉ map.news) (k : ℕ) :
    (remapId (invertIdMap map))^[k] ((remapId map)^[k] o) = o := by
  refine ObjectId.hex_inj ?_
  rw [hex_iterate_remapId, hex_iterate_remapId]
  refine iterate_remapToken injective (fun _ new mem same => ?_) (spelled_hex map o) k
  rw [lowerCase_hex] at same
  exact unused (ObjectId.hex_inj same ▸ mem)

theorem propertyIndex_of_long {s : String} (long : 24 ≤ s.toList.length) : propertyIndex s = none := by
  have grows (digits : List Char) (acc : ℕ) :
      acc * 10 ^ digits.length ≤
        digits.foldl (fun acc c => 10 * acc + (c.toNat - '0'.toNat)) acc := by
    induction digits generalizing acc with
    | nil => simp
    | cons c rest ih =>
        refine le_trans ?_ (ih _)
        rw [List.length_cons, pow_succ, ← mul_assoc, mul_right_comm]
        refine Nat.mul_le_mul_right _ ?_
        rw [mul_comm]
        exact Nat.le_add_right ..
  unfold propertyIndex
  rw [Option.filter_eq_none_iff]
  intro n is small
  simp only [decimalIndex] at is
  split at is
  next digits =>
    obtain ⟨-, all, canonical⟩ := digits
    match text : s.toList with
    | [] => simp [text] at long
    | c :: rest =>
        rw [text] at is all canonical long
        have first : 1 ≤ c.toNat - '0'.toNat := by
          rcases canonical with zero | other
          · rw [zero] at long
            exact absurd long (by decide)
          · have digit : c.isDigit = true := (List.all_eq_true.mp all) c (List.mem_cons_self ..)
            simp only [Char.isDigit, Bool.and_eq_true, decide_eq_true_eq] at digit
            have apart : c.toNat ≠ '0'.toNat := fun same => other (by
              rw [List.head?_cons, Char.toNat_inj.mp same])
            have above : '0'.toNat ≤ c.toNat := UInt32.le_iff_toNat_le.mp digit.1
            omega
        have value := grows rest (c.toNat - '0'.toNat)
        have power : 10 ^ 23 ≤ 10 ^ rest.length :=
          Nat.pow_le_pow_right (by decide) (by
            rw [List.length_cons] at long
            omega)
        have large : 10 ^ 23 ≤ rest.foldl (fun acc c => 10 * acc + (c.toNat - '0'.toNat))
            (c.toNat - '0'.toNat) :=
          (power.trans (Nat.le_mul_of_pos_left _ first)).trans value
        simp only [List.foldl_cons, Nat.mul_zero, Nat.zero_add, Option.some.injEq] at is
        rw [is] at large
        have bound : n < 2 ^ 32 - 1 := by simpa using small
        omega
  next => cases is

theorem propertyIndex_remapString (map : IdMap) (s : String) :
    propertyIndex (remapString map s) = propertyIndex s := by
  rcases remapString_eq_or_long map s with same | ⟨before, after⟩
  · rw [same]
  · rw [propertyIndex_of_long before, propertyIndex_of_long after]

theorem remapString_eq_proto {map : IdMap} {s : String} :
    remapString map s = "__proto__" ↔ s = "__proto__" := by
  rcases remapString_eq_or_long map s with same | ⟨before, after⟩
  · rw [same]
  · constructor
    · intro is
      rw [is] at after
      exact absurd after (by decide)
    · intro is
      rw [is] at before
      exact absurd before (by decide)

theorem propertyIndex_iterate (map : IdMap) (k : ℕ) (s : String) :
    propertyIndex ((remapString map)^[k] s) = propertyIndex s := by
  induction k with
  | zero => rfl
  | succ k ih => rw [Function.iterate_succ_apply', propertyIndex_remapString, ih]

theorem iterate_eq_proto {map : IdMap} (k : ℕ) {s : String} :
    (remapString map)^[k] s = "__proto__" ↔ s = "__proto__" := by
  induction k with
  | zero => rfl
  | succ k ih => rw [Function.iterate_succ_apply', remapString_eq_proto, ih]

theorem iterate_remap_of_restorable (injective : map.Injective) {v : Value Scalar Bson}
    (proper : Proper v) (unused : ∀ part ∈ parts v, UnusedPart map part)
    (restorable : Restorable map v) (k : ℕ) :
    (rename (remapString (invertIdMap map)) (remapId (invertIdMap map)))^[k]
      ((rename (remapString map) (remapId map))^[k] v) = v := by
  have back (key : String) (mem : .key key ∈ parts v) (j : ℕ) :
      (remapString (invertIdMap map))^[j] ((remapString map)^[j] key) = key :=
    iterate_remapString injective (unused (.key key) mem) (restorable (.key key) mem).1 j
  have own (key : String) (mem : .key key ∈ parts v) : key ≠ "__proto__" :=
    (restorable (.key key) mem).2
  have forth (j : ℕ) : Renames ((remapString map)^[j]) v :=
    { apart := fun a b memA memB same => by rw [← back a memA j, same, back b memB j]
      index := fun a _ => propertyIndex_iterate map j a
      own := fun a mem is => own a mem ((iterate_eq_proto j).mp is) }
  have undoing (j : ℕ) (less : j < k) :
      Renames ((remapString (invertIdMap map))^[j] ∘ (remapString map)^[k]) v :=
    { apart := fun a b memA memB same => by
        have both := congrArg (remapString (invertIdMap map))^[k - j] same
        rw [Function.comp_apply, Function.comp_apply, ← Function.iterate_add_apply,
          ← Function.iterate_add_apply, Nat.sub_add_cancel less.le, back a memA, back b memB] at both
        exact both
      index := fun a _ =>
        (propertyIndex_iterate (invertIdMap map) j _).trans (propertyIndex_iterate map k a)
      own := fun a mem is => own a mem ((iterate_eq_proto k).mp ((iterate_eq_proto j).mp is)) }
  have whole : (rename (remapString map) (remapId map))^[k] v =
      rename (remapString map)^[k] (remapId map)^[k] v := by
    have start : rename id id v = v := rename_of_leaves v proper fun part mem =>
      match part, mem with
      | .text _, _ => rfl
      | .key s, mem => ⟨rfl, own s mem⟩
      | .id _, _ => rfl
    have steps : (rename (remapString map) (remapId map))^[k] (rename id id v) =
        rename ((remapString map)^[k] ∘ id) ((remapId map)^[k] ∘ id) v :=
      iterate_rename k proper fun j _ => forth j
    rwa [start] at steps
  rw [whole, iterate_rename k proper undoing]
  refine rename_of_leaves v proper fun part mem => ?_
  match part, mem with
  | .text s, mem =>
      exact iterate_remapString injective (unused (.text s) mem) (restorable (.text s) mem) k
  | .key s, mem => exact ⟨back s mem k, own s mem⟩
  | .id o, mem => exact iterate_remapId injective (unused (.id o) mem) k

/-- What comes back has every known id in lower case, so nothing else can come back as it was. -/
theorem restorable_of_iterate {v : Value Scalar Bson} {k : ℕ} (some : 0 < k)
    (same : (rename (remapString (invertIdMap map)) (remapId (invertIdMap map)))^[k]
      ((rename (remapString map) (remapId map))^[k] v) = v) : Restorable map v := by
  intro part mem
  rw [← same] at mem
  obtain ⟨own, middle, inside, rfl⟩ := mem_parts_iterate k _ mem
  obtain ⟨-, old, -, rfl⟩ := mem_parts_iterate k _ inside
  cases old with
  | text s => exact spelledText_iterate s some
  | key s => exact ⟨spelledText_iterate s some, fun is => own some (congrArg Part.key is)⟩
  | id o => trivial

theorem invertIdMap_isEmpty (injective : map.Injective) :
    (invertIdMap map).entries.isEmpty = map.entries.isEmpty := by
  rw [entries_invertIdMap injective]
  cases map.entries <;> rfl

/-- Remapping a value `k` times and then back as often gives the value, just when it is restorable. -/
theorem iterate_remapValue_iff (injective : map.Injective) {v : Value Scalar Bson} (proper : Proper v)
    (unused : ∀ part ∈ parts v, UnusedPart map part) {k : ℕ} (some : 0 < k) :
    (remapValue · (invertIdMap map))^[k] ((remapValue · map)^[k] v) = v ↔
      map.entries = [] ∨ Restorable map v := by
  have isEmpty := invertIdMap_isEmpty injective
  by_cases empty : map.entries = []
  · have none : (remapValue · map) = (id : Value Scalar Bson → Value Scalar Bson) := by
      funext w
      rw [remapValue, empty]
      rfl
    have none' : (remapValue · (invertIdMap map)) = (id : Value Scalar Bson → Value Scalar Bson) := by
      funext w
      rw [remapValue, isEmpty, empty]
      rfl
    rw [none, none', Function.iterate_id, id, id]
    exact iff_of_true rfl (.inl empty)
  · have full : map.entries.isEmpty = false := by simpa using empty
    have all : (remapValue · map) =
        (rename (remapString map) (remapId map) : Value Scalar Bson → Value Scalar Bson) := by
      funext w
      rw [remapValue, full]
      rfl
    have all' : (remapValue · (invertIdMap map)) = (rename (remapString (invertIdMap map))
        (remapId (invertIdMap map)) : Value Scalar Bson → Value Scalar Bson) := by
      funext w
      rw [remapValue, isEmpty, full]
      rfl
    rw [all, all', or_iff_right empty]
    exact ⟨restorable_of_iterate some,
      fun restorable => iterate_remap_of_restorable injective proper unused restorable k⟩

/-! ## Documents -/

/-- A document: an object as the language builds it. -/
structure Document (Scalar Bson : Type) where
  fields : List (String × Value Scalar Bson)
  proper : Proper (.obj fields)

def Document.value (doc : Document Scalar Bson) : Value Scalar Bson := .obj doc.fields

theorem ProperFields.of_mem {fields : List (String × Value Scalar Bson)} (proper : ProperFields fields) :
    ∀ e ∈ fields, Proper e.2 := by
  induction fields with
  | nil => simp
  | cons field rest ih =>
      obtain ⟨key, inner⟩ := field
      exact List.forall_mem_cons.mpr ⟨proper.1, ih proper.2⟩

theorem remapField_eq {fields : List (String × Value Scalar Bson)}
    (nodup : (JsObject.keys fields).Nodup) (name : String) :
    remapField map fields name =
      fields.map fun e => if e.1 = name then (e.1, remapValue e.2 map) else e := by
  unfold remapField
  cases found : fields.lookup name with
  | none =>
      have absent : name ∉ JsObject.keys fields := by
        rw [← JsObject.has_iff, ← JsObject.lookup_isSome, found]
        exact Bool.false_ne_true
      refine ((List.map_congr_left fun e mem => ?_).trans (List.map_id _)).symm
      have apart : e.1 ≠ name := fun same => absent (same ▸ List.mem_map_of_mem mem)
      rw [if_neg apart]
      rfl
  | some value =>
      have present : JsObject.has fields name = true := by
        rw [← JsObject.lookup_isSome, found]
        rfl
      simp only [JsObject.set, if_pos present]
      refine List.map_congr_left fun e mem => ?_
      by_cases same : e.1 = name
      · have there : (name, value) ∈ fields := by
          obtain ⟨before, after, split, -⟩ := List.lookup_eq_some_iff.mp found
          rw [split]
          exact List.mem_append_right _ (List.mem_cons_self ..)
        have : e = (name, value) := List.inj_on_of_nodup_map nodup mem there same
        rw [if_pos same, if_pos same, this]
      · rw [if_neg same, if_neg same]

theorem keys_map_values {fields : List (String × Value Scalar Bson)}
    (f : String × Value Scalar Bson → Value Scalar Bson) :
    JsObject.keys (fields.map fun e => (e.1, f e)) = JsObject.keys fields := by
  rw [JsObject.keys, List.map_map]
  rfl

theorem remapFields_eq {fields : List (String × Value Scalar Bson)}
    (nodup : (JsObject.keys fields).Nodup) (names : List String) :
    names.foldl (remapField map) fields =
      fields.map fun e => (e.1, (remapValue · map)^[names.count e.1] e.2) := by
  induction names generalizing fields with
  | nil => exact (List.map_id _).symm
  | cons name rest ih =>
      have step : (fields.map fun e => if e.1 = name then (e.1, remapValue e.2 map) else e) =
          fields.map fun e => (e.1, if e.1 = name then remapValue e.2 map else e.2) := by
        refine List.map_congr_left fun e _ => ?_
        split <;> rfl
      rw [List.foldl_cons, remapField_eq nodup, step, ih (by rwa [keys_map_values]), List.map_map]
      refine List.map_congr_left fun e _ => ?_
      rw [Function.comp_apply, List.count_cons]
      by_cases same : e.1 = name
      · rw [if_pos same, if_pos (by simpa using same.symm), Function.iterate_succ_apply]
      · rw [if_neg same, if_neg (by simpa using Ne.symm same), Nat.add_zero]

/-- The values that a policy remaps. -/
def scope : Policy → Document Scalar Bson → List (Value Scalar Bson)
  | .deep, doc => [doc.value]
  | .fields names, doc => (doc.fields.filter fun e => names.contains e.1).map Prod.snd

/-- Nothing that the policy remaps stands in the way. -/
def Reversible (map : IdMap) (policy : Policy) (doc : Document Scalar Bson) : Prop :=
  map.entries = [] ∨ ∀ v ∈ scope policy doc, Restorable map v

/-- The ids that the map gives out occur nowhere in a document. -/
def UnusedIn (map : IdMap) (doc : Document Scalar Bson) : Prop :=
  ∀ part ∈ parts doc.value, UnusedPart map part

theorem remapDocument_invert_iff (injective : map.Injective) (policy : Policy)
    {doc : Document Scalar Bson} (unused : UnusedIn map doc) :
    remapDocument (remapDocument doc.value policy map) policy (invertIdMap map) = doc.value ↔
      Reversible map policy doc := by
  cases policy with
  | deep =>
      have once := iterate_remapValue_iff injective doc.proper unused Nat.one_pos
      rw [Reversible, scope, List.forall_mem_singleton]
      exact once
  | fields names =>
      have nodup := doc.proper.1
      have back : remapDocument (remapDocument doc.value (.fields names) map) (.fields names)
          (invertIdMap map) = .obj (doc.fields.map fun e => (e.1,
            (remapValue · (invertIdMap map))^[names.count e.1]
              ((remapValue · map)^[names.count e.1] e.2))) := by
        refine congrArg Value.obj ?_
        simp only [remapDocument, ownFields, Document.value]
        rw [remapFields_eq nodup, remapFields_eq (by rwa [keys_map_values]), List.map_map]
        rfl
      have each (e : String × Value Scalar Bson) (mem : e ∈ doc.fields) :
          (remapValue · (invertIdMap map))^[names.count e.1]
            ((remapValue · map)^[names.count e.1] e.2) = e.2 ↔
          e.1 ∈ names → map.entries = [] ∨ Restorable map e.2 := by
        by_cases named : e.1 ∈ names
        · have partsIn (part : Part) (inside : part ∈ parts e.2) : UnusedPart map part :=
            unused part (mem_partsOfFields.mpr ⟨e, mem, .inr inside⟩)
          rw [iterate_remapValue_iff injective (doc.proper.2.2.of_mem e mem) partsIn
            (List.count_pos_iff.mpr named)]
          exact ⟨fun so _ => so, fun so => so named⟩
        · rw [List.count_eq_zero_of_not_mem named]
          exact iff_of_true rfl fun is => absurd is named
      rw [back, Document.value, Value.obj.injEq]
      constructor
      · intro same
        by_cases empty : map.entries = []
        · exact .inl empty
        · refine .inr fun v mem => ?_
          obtain ⟨e, inside, rfl⟩ := List.mem_map.mp mem
          obtain ⟨there, named⟩ := List.mem_filter.mp inside
          have kept := List.map_inj_left.mp (same.trans (List.map_id _).symm) e there
          exact ((each e there).mp (congrArg Prod.snd kept) (by simpa using named)).resolve_left empty
      · intro reversible
        refine (List.map_congr_left fun e mem => ?_).trans (List.map_id _)
        refine Prod.ext rfl ((each e mem).mpr fun named => ?_)
        refine reversible.imp_right fun all => all e.2 (List.mem_map_of_mem ?_)
        exact List.mem_filter.mpr ⟨mem, by simpa using named⟩

/-! ## Digests -/

theorem ofDocuments_eq (documentDigest : Value Scalar Bson → ℕ) (docs : List (Value Scalar Bson)) :
    CollectionDigest.ofDocuments documentDigest docs =
      { count := docs.length, sum := (docs.map documentDigest).sum % 2 ^ 256 } := by
  have added (digest : CollectionDigest) (small : digest.sum % 2 ^ 256 = digest.sum) :
      docs.foldl (CollectionDigest.add documentDigest) digest =
        { count := digest.count + docs.length,
          sum := (digest.sum + (docs.map documentDigest).sum) % 2 ^ 256 } := by
    induction docs generalizing digest with
    | nil =>
        rw [List.foldl_nil, List.map_nil, List.sum_nil, Nat.add_zero, small]
        rfl
    | cons doc rest ih =>
        rw [List.foldl_cons, ih _ (Nat.mod_mod _ _), List.length_cons, List.map_cons, List.sum_cons]
        simp only [CollectionDigest.add, Nat.mod_add_mod, Nat.add_assoc, Nat.add_comm 1]
  have whole := added CollectionDigest.start rfl
  simpa [CollectionDigest.start, CollectionDigest.ofDocuments] using whole

/-- A restored document is put back exactly when every id that the map knows, in the texts and keys
that the policy covers, is in lower case, and no object there has a key `__proto__`. A collection of
such documents has the digest that it had, in whatever order it is read. What a clone rewrites besides
the ids, and the fresh `_id`s of rows that nothing refers to, are left out of the second part. -/
theorem remap_reversible_iff {map : IdMap} (injective : map.Injective) (policy : Policy) :
    (∀ doc : Document Scalar Bson, UnusedIn map doc →
      (remapDocument (remapDocument doc.value policy map) policy (invertIdMap map) = doc.value ↔
        Reversible map policy doc)) ∧
    ∀ (documentDigest : Value Scalar Bson → ℕ) (docs : List (Document Scalar Bson))
      (stored : List (Value Scalar Bson)),
      (∀ doc ∈ docs, UnusedIn map doc ∧ Reversible map policy doc) →
      stored.Perm (docs.map fun doc => remapDocument doc.value policy map) →
      CollectionDigest.ofDocuments documentDigest
          (stored.map fun doc => remapDocument doc policy (invertIdMap map)) =
        CollectionDigest.ofDocuments documentDigest (docs.map Document.value) := by
  refine ⟨fun doc unused => remapDocument_invert_iff injective policy unused, ?_⟩
  intro documentDigest docs stored all restored
  have back : (docs.map fun doc => remapDocument doc.value policy map).map
      (fun doc => remapDocument doc policy (invertIdMap map)) = docs.map Document.value := by
    rw [List.map_map]
    refine List.map_congr_left fun doc mem => ?_
    exact (remapDocument_invert_iff injective policy (all doc mem).1).mpr (all doc mem).2
  have perm := restored.map fun doc => remapDocument doc policy (invertIdMap map)
  rw [back] at perm
  rw [ofDocuments_eq, ofDocuments_eq, perm.length_eq, (perm.map documentDigest).sum_nat]

namespace Sample

def oldId : ObjectId := ⟨List.replicate 24 'a', by decide, List.all_eq_true.mp (by decide +kernel)⟩

def newId : ObjectId := ⟨List.replicate 24 'b', by decide, List.all_eq_true.mp (by decide +kernel)⟩

def idMap : IdMap := ⟨[(oldId, newId)], List.nodup_singleton _⟩

theorem injective : idMap.Injective := List.nodup_singleton _

/-- A document with a text. -/
def noteWith (text : String) : Document Unit Unit where
  fields := [("note", .str text)]
  proper := ⟨List.nodup_singleton _, List.pairwise_singleton .., trivial, trivial⟩

instance (map : IdMap) (run : List Char) : Decidable (Unused map run) :=
  inferInstanceAs (Decidable (_ → _))

instance (map : IdMap) (run : List Char) : Decidable (Spelled map run) :=
  inferInstanceAs (Decidable (_ → _ → _))

theorem unusedIn_note {text : String} (unused : ∀ run ∈ hexRuns text.toList, Unused idMap run) :
    UnusedIn idMap (noteWith text) := by
  have key : ∀ run ∈ hexRuns "note".toList, Unused idMap run := by decide +kernel
  intro part mem
  rcases List.mem_cons.mp mem with rfl | rest
  · exact key
  · rcases List.mem_cons.mp rest with rfl | none
    · exact unused
    · exact nomatch none

theorem reversible_note {text : String} :
    Reversible idMap .deep (noteWith text) ↔ ∀ run ∈ hexRuns text.toList, Spelled idMap run := by
  constructor
  · intro reversible run mem
    have all := reversible.resolve_left (List.cons_ne_nil _ _) _ (List.mem_singleton_self _)
    exact all (.text text) (List.mem_cons_of_mem _ (List.mem_cons_self ..)) run mem
  · intro spelled
    have key : ∀ run ∈ hexRuns "note".toList, Spelled idMap run := by decide +kernel
    refine .inr fun v mem part inside => ?_
    rw [List.mem_singleton.mp mem] at inside
    rcases List.mem_cons.mp inside with rfl | rest
    · exact ⟨key, by decide⟩
    · rcases List.mem_cons.mp rest with rfl | none
      · exact spelled
      · exact nomatch none

end Sample

/-- A path with an id comes back. -/
theorem remap_reversible_path :
    remapDocument (remapDocument (Sample.noteWith "files/aaaaaaaaaaaaaaaaaaaaaaaa/x.csv").value .deep
      Sample.idMap) .deep (invertIdMap Sample.idMap) =
        (Sample.noteWith "files/aaaaaaaaaaaaaaaaaaaaaaaa/x.csv").value :=
  ((remap_reversible_iff Sample.injective .deep).1 _
    (Sample.unusedIn_note (by decide +kernel))).mpr (Sample.reversible_note.mpr (by decide +kernel))

/-- An id in capital letters comes back in small ones. -/
theorem capitals_are_lost :
    ¬ ∀ (map : IdMap) (policy : Policy) (doc : Document Unit Unit), map.Injective → UnusedIn map doc →
      remapDocument (remapDocument doc.value policy map) policy (invertIdMap map) = doc.value := by
  intro always
  have unused : UnusedIn Sample.idMap (Sample.noteWith "AAAAAAAAAAAAAAAAAAAAAAAA") :=
    Sample.unusedIn_note (by decide +kernel)
  have same := always Sample.idMap .deep _ Sample.injective unused
  have spelled := Sample.reversible_note.mp
    ((remapDocument_invert_iff Sample.injective .deep unused).mp same)
  exact absurd spelled (by decide +kernel)

end AnalyticsBackend.Archive
