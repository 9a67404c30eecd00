import AnalyticsBackend.Lib.JsOrder
import AnalyticsBackend.Logging.Redact

/-!
# Values under sensitive keys in the log

Two logged objects that differ only under sensitive keys have the same text once they are masked, up
to what `redactDeep` lets through unmasked.
-/

namespace AnalyticsBackend.Logging

open Lib

namespace LogValue

/-! ## Log objects -/

mutual

/-- Every object in the value names each property once. -/
def Distinct : LogValue → Prop
  | .plain fields | .error _ _ _ fields | .bare fields | .itself fields =>
      (JsObject.keys fields).Nodup ∧ DistinctFields fields
  | .form _ own json => (JsObject.keys own).Nodup ∧ DistinctFields own ∧ Distinct json
  | .arr items => DistinctItems items
  | _ => True

def DistinctFields : List (String × LogValue) → Prop
  | [] => True
  | (_, v) :: rest => Distinct v ∧ DistinctFields rest

def DistinctItems : List LogValue → Prop
  | [] => True
  | v :: rest => Distinct v ∧ DistinctItems rest

end

mutual

/-- The levels of objects that a walk goes through; what a `toJSON` returns is on the instance's own. -/
def nesting : LogValue → Nat
  | .plain fields | .error _ _ _ fields => nestingFields fields + 1
  | .arr items => nestingItems items + 1
  | .itself _ => 1
  | .form false _ json => max 1 (nesting json)
  | _ => 0

def nestingFields : List (String × LogValue) → Nat
  | [] => 0
  | (_, v) :: rest => max (nesting v) (nestingFields rest)

def nestingItems : List LogValue → Nat
  | [] => 0
  | v :: rest => max (nesting v) (nestingItems rest)

end

end LogValue

open LogValue

mutual

/-- The values differ only in values under sensitive keys that are neither null nor booleans. -/
def Differ : LogValue → LogValue → Prop
  | .undefined, .undefined => True
  | .null, .null => True
  | .bool a, .bool b => a = b
  | .num a, .num b => a = b
  | .str a, .str b => a = b
  | .plain fs, .plain gs => DifferFields fs gs
  | .arr as, .arr bs => DifferItems as bs
  | .error name message stack fs, .error name' message' stack' gs =>
      name = name' ∧ message = message' ∧ stack = stack' ∧ DifferFields fs gs
  | .bare fs, .bare gs => DifferFields fs gs
  | .itself fs, .itself gs => DifferFields fs gs
  | .form asIs fs v, .form asIs' gs w => asIs = asIs' ∧ DifferFields fs gs ∧ Differ v w
  | _, _ => False

def DifferFields : List (String × LogValue) → List (String × LogValue) → Prop
  | [], [] => True
  | (k, v) :: fs, (l, w) :: gs =>
      k = l ∧ (isSensitiveKey k = true ∧ v.hideable = true ∧ w.hideable = true ∨ Differ v w) ∧
        DifferFields fs gs
  | _, _ => False

def DifferItems : List LogValue → List LogValue → Prop
  | [], [] => True
  | v :: as, w :: bs => Differ v w ∧ DifferItems as bs
  | _, _ => False

end

/-! ## What is let through -/

/-- What a masked copy shows beside the parts that were walked: the JSON of an instance that was
handed over as it is, and whether there was a value under a sensitive key. -/
inductive Passed where
  | instance (json : Option Json)
  | secret (there : Bool)

mutual

/-- What `redactDeep` lets through of a value, in the order of the walk. -/
def passed : LogValue → List Passed
  | .plain fields => passedFields fields
  | .arr items => passedItems items
  | .error _ _ _ own => passedOwn own
  | .bare own => [.instance (json (.bare own))]
  | .itself own => [.instance (json (.itself own))]
  | .form true own v => [.instance (json (.form true own v))]
  | .form false _ v => passed v
  | _ => []

def passedFields : List (String × LogValue) → List Passed
  | [] => []
  | (key, v) :: rest =>
      if key = "__proto__" then passedFields rest
      else (if isSensitiveKey key && v.hideable then [.secret !v.isUndefined] else passed v) ++
        passedFields rest

def passedItems : List LogValue → List Passed
  | [] => []
  | v :: rest => passed v ++ passedItems rest

def passedOwn : List (String × LogValue) → List Passed
  | [] => []
  | (key, v) :: rest =>
      if key = "message" ∨ key = "stack" ∨ key = "__proto__" then passedOwn rest
      else (if isSensitiveKey key then [] else passed v) ++ passedOwn rest

end

theorem hideable_eq {v w : LogValue} (differ : Differ v w) : v.hideable = w.hideable := by
  cases v <;> cases w <;> first | rfl | exact absurd differ id

/-! ## The masked copies -/

/-- Lists of equal length that are equal exactly when `P` holds. -/
structure Tells (P : Prop) (p q : List Passed) : Prop where
  length : p.length = q.length
  same : P ↔ p = q

theorem Tells.of_nil {P : Prop} (holds : P) : Tells P [] [] :=
  ⟨rfl, fun _ => rfl, fun _ => holds⟩

theorem Tells.append {P Q : Prop} {p q r s : List Passed} (first : Tells P p q) (later : Tells Q r s) :
    Tells (P ∧ Q) (p ++ r) (q ++ s) where
  length := by rw [List.length_append, List.length_append, first.length, later.length]
  same := by
    rw [first.same, later.same]
    exact ⟨fun both => by rw [both.1, both.2], fun all => List.append_inj all first.length⟩

theorem Tells.of_iff {P Q : Prop} {p q : List Passed} (tells : Tells P p q) (iff : Q ↔ P) :
    Tells Q p q :=
  ⟨tells.length, iff.trans tells.same⟩

theorem Tells.instance (a b : Option Json) : Tells (a = b) [.instance a] [.instance b] := by
  refine ⟨rfl, ?_⟩
  simp

/-! ### Objects -/

theorem lookup_jsonFields {fields : List (String × LogValue)} (nodup : (JsObject.keys fields).Nodup)
    (name : String) : (jsonFields fields).lookup name = (fields.lookup name).bind json := by
  induction fields with
  | nil => rfl
  | cons entry rest ih =>
      obtain ⟨k, v⟩ := entry
      obtain ⟨once, later⟩ := List.nodup_cons.mp nodup
      have absent : (rest.lookup k) = none := by
        rw [← Option.not_isSome_iff_eq_none, JsObject.lookup_isSome, JsObject.has_iff]
        exact once
      rw [jsonFields, JsObject.lookup_cons_eq]
      by_cases own : name = k
      · subst own
        cases shown : json v with
        | none =>
            rw [if_pos rfl, Option.bind_some, shown, ih later, absent]
            rfl
        | some j =>
            rw [if_pos rfl, Option.bind_some, shown, JsObject.lookup_cons_eq, if_pos rfl]
      · cases shown : json v with
        | none => rw [if_neg own, ih later]
        | some j => rw [if_neg own, JsObject.lookup_cons_eq, if_neg own, ih later]

theorem jsonFields_eq (fields : List (String × LogValue)) :
    jsonFields fields =
      (JsObject.mapValues json fields).filterMap fun entry => entry.2.map fun j => (entry.1, j) := by
  induction fields with
  | nil => rfl
  | cons entry rest ih =>
      obtain ⟨k, v⟩ := entry
      rw [jsonFields, JsObject.mapValues, List.map_cons, List.filterMap_cons, ← JsObject.mapValues, ← ih]
      cases json v <;> rfl

/-- Properties set on the same object show the same JSON exactly when each does. -/
theorem json_assign_iff {object fs gs : List (String × LogValue)}
    (fresh : (JsObject.keys object).Nodup) (names : JsObject.keys fs = JsObject.keys gs)
    (nodup : (JsObject.keys fs).Nodup) :
    json (.plain (JsObject.assign object fs)) = json (.plain (JsObject.assign object gs)) ↔
      JsObject.mapValues json fs = JsObject.mapValues json gs := by
  simp only [json, Option.some.injEq, Json.obj.injEq]
  constructor
  · intro same
    refine JsObject.ext_lookup (by simpa using names) (by simpa using nodup) fun name mem => ?_
    rw [JsObject.keys_mapValues] at mem
    obtain ⟨v, isV⟩ := Option.isSome_iff_exists.mp (JsObject.lookup_isSome.trans (JsObject.has_iff.mpr mem))
    obtain ⟨w, isW⟩ := Option.isSome_iff_exists.mp
      (JsObject.lookup_isSome.trans (JsObject.has_iff.mpr (names ▸ mem)))
    have read := congrArg (List.lookup name) same
    rw [lookup_jsonFields (JsObject.nodup_assign fresh), lookup_jsonFields (JsObject.nodup_assign fresh),
      JsObject.lookup_assign _ nodup, JsObject.lookup_assign _ (names ▸ nodup), isV, isW,
      Option.some_or, Option.some_or, Option.bind_some, Option.bind_some] at read
    rw [JsObject.lookup_mapValues, JsObject.lookup_mapValues, isV, isW, Option.map_some,
      Option.map_some, read]
  · intro same
    rw [jsonFields_eq, jsonFields_eq, JsObject.mapValues_assign, JsObject.mapValues_assign, same]

section Walk

variable {redactString : String → String} {maxDepth : Nat}

theorem keys_walkFields (depth : Nat) (fields : List (String × LogValue)) :
    JsObject.keys (walkFields redactString maxDepth depth fields) =
      (JsObject.keys fields).filter (· ≠ "__proto__") := by
  induction fields with
  | nil => rfl
  | cons entry rest ih =>
      obtain ⟨k, v⟩ := entry
      simp only [JsObject.keys] at ih
      by_cases proto : k = "__proto__"
      · simp [walkFields, JsObject.keys, proto, ih]
      · simp [walkFields, JsObject.keys, proto, ih]

theorem keys_walkOwn (depth : Nat) (own : List (String × LogValue)) :
    JsObject.keys (walkOwn redactString maxDepth depth own) =
      (JsObject.keys own).filter fun k => ¬ (k = "message" ∨ k = "stack" ∨ k = "__proto__") := by
  induction own with
  | nil => rfl
  | cons entry rest ih =>
      obtain ⟨k, v⟩ := entry
      simp only [JsObject.keys] at ih
      by_cases skipped : k = "message" ∨ k = "stack" ∨ k = "__proto__"
      · rw [walkOwn, if_pos skipped]
        refine ih.trans (List.filter_cons_of_neg fun keep => ?_).symm
        exact (of_decide_eq_true keep : ¬ _) skipped
      · rw [walkOwn, if_neg skipped]
        refine (congrArg (k :: ·) ih).trans (List.filter_cons_of_pos ?_).symm
        exact decide_eq_true (p := ¬ _) skipped

theorem keys_eq : {fs gs : List (String × LogValue)} → DifferFields fs gs →
    JsObject.keys fs = JsObject.keys gs
  | [], [], _ => rfl
  | (k, _) :: fs, (_, _) :: gs, ⟨rfl, _, rest⟩ => congrArg (k :: ·) (@keys_eq fs gs rest)

theorem nodup_errorFields (name message : String) (stack : Option String) :
    (JsObject.keys (errorFields redactString name message stack)).Nodup := by
  cases stack with
  | none => simp [errorFields, JsObject.keys]
  | some text => simp [errorFields, JsObject.keys]

/-- What stands in a copy under a sensitive key. -/
theorem json_hidden {key : String} {v : LogValue} (depth : Nat)
    (hidden : (isSensitiveKey key && v.hideable) = true) :
    json (if v.replaced key then .str REDACTED else walk redactString maxDepth depth v) =
      if v.isUndefined then none else some (.str REDACTED) := by
  rw [replaced, hidden, Bool.true_and]
  cases v <;> rfl

theorem entry_tells {key : String} {v w : LogValue} (depth : Nat)
    (one : isSensitiveKey key = true ∧ v.hideable = true ∧ w.hideable = true ∨ Differ v w)
    (walked : Differ v w → Tells (json (walk redactString maxDepth depth v) =
      json (walk redactString maxDepth depth w)) (passed v) (passed w)) :
    Tells (json (if v.replaced key then .str REDACTED else walk redactString maxDepth depth v) =
        json (if w.replaced key then .str REDACTED else walk redactString maxDepth depth w))
      (if isSensitiveKey key && v.hideable then [.secret !v.isUndefined] else passed v)
      (if isSensitiveKey key && w.hideable then [.secret !w.isUndefined] else passed w) := by
  have both : (isSensitiveKey key && v.hideable) = (isSensitiveKey key && w.hideable) := by
    rcases one with ⟨-, hideV, hideW⟩ | differ
    · rw [hideV, hideW]
    · rw [hideable_eq differ]
  cases hidden : isSensitiveKey key && v.hideable with
  | true =>
      rw [json_hidden depth hidden, json_hidden depth (both ▸ hidden), if_pos rfl, ← both, hidden,
        if_pos rfl]
      refine ⟨rfl, ?_⟩
      cases v.isUndefined <;> cases w.isUndefined <;> simp
  | false =>
      have differ : Differ v w := by
        refine one.resolve_left fun secret => ?_
        rw [secret.1, secret.2.1] at hidden
        cases hidden
      have keep (u : LogValue) (open' : (isSensitiveKey key && u.hideable) = false) :
          u.replaced key = false := by
        rw [replaced, open', Bool.false_and]
      rw [keep v hidden, keep w (both ▸ hidden), ← both, hidden]
      exact walked differ

/-! ### Values that show nothing -/

theorem isSome_json : (v w : LogValue) → Differ v w → (json v).isSome = (json w).isSome
  | .undefined, .undefined, _ | .null, .null, _ | .bool _, .bool _, _ | .str _, .str _, _
  | .bare _, .bare _, _ | .itself _, .itself _, _ | .plain _, .plain _, _ | .arr _, .arr _, _
  | .error _ _ _ _, .error _ _ _ _, _ => rfl
  | .num _, .num _, differ => by rw [show _ = _ from differ]
  | .form _ _ v, .form _ _ w, differ => by
      have inner := isSome_json v w differ.2.2
      cases v <;> cases w <;> first | exact inner | rfl | exact absurd differ.2.2 id

theorem isSome_walk (depth : Nat) : (v w : LogValue) → Differ v w →
    (json (walk redactString maxDepth depth v)).isSome =
      (json (walk redactString maxDepth depth w)).isSome
  | .undefined, .undefined, _ | .null, .null, _ | .bool _, .bool _, _ | .str _, .str _, _
  | .bare _, .bare _, _ => rfl
  | .num _, .num _, differ => by rw [show _ = _ from differ]
  | .itself _, .itself _, _ | .plain _, .plain _, _ | .arr _, .arr _, _
  | .error _ _ _ _, .error _ _ _ _, _ => by
      rw [walk, walk]
      split <;> rfl
  | .form true _ _, .form true _ _, differ => isSome_json _ _ differ
  | .form false _ v, .form false _ w, differ => by
      rw [walk, walk]
      split
      · rfl
      · exact isSome_walk depth v w differ.2.2

theorem getD_null_iff {a b : Option Json} (both : a.isSome = b.isSome) :
    a.getD .null = b.getD .null ↔ a = b := by
  cases a <;> cases b <;> simp_all

mutual

/-- Masked copies of such values show the same JSON exactly when the same is let through of both. -/
theorem walk_tells (depth : Nat) : (v w : LogValue) → Differ v w → v.Distinct → w.Distinct →
    depth + v.nesting ≤ maxDepth + 1 → depth + w.nesting ≤ maxDepth + 1 →
    Tells (json (walk redactString maxDepth depth v) = json (walk redactString maxDepth depth w))
      (passed v) (passed w)
  | .undefined, .undefined, _, _, _, _, _ | .null, .null, _, _, _, _, _ => Tells.of_nil rfl
  | .bool _, .bool _, differ, _, _, _, _ => Tells.of_nil (by rw [show _ = _ from differ])
  | .num _, .num _, differ, _, _, _, _ => Tells.of_nil (by rw [show _ = _ from differ])
  | .str _, .str _, differ, _, _, _, _ => Tells.of_nil (by rw [show _ = _ from differ])
  | .bare _, .bare _, _, _, _, _, _ => Tells.instance _ _
  | .form true _ _, .form true _ _, _, _, _, _, _ => Tells.instance _ _
  | .itself _, .itself _, _, _, _, shallow, _ => by
      have inside : ¬ maxDepth < depth := by
        rw [nesting] at shallow
        omega
      rw [walk, walk, if_neg inside, if_neg inside]
      exact Tells.instance _ _
  | .form false _ v, .form false _ w, differ, dv, dw, shallow, shallow' => by
      rw [nesting] at shallow shallow'
      have inside : ¬ maxDepth < depth := by omega
      rw [walk, walk, if_neg inside, if_neg inside]
      exact walk_tells depth v w differ.2.2 dv.2.2 dw.2.2 (by omega) (by omega)
  | .plain fs, .plain gs, differ, dv, dw, shallow, shallow' => by
      rw [nesting] at shallow shallow'
      have inside : ¬ maxDepth < depth := by omega
      rw [walk, walk, if_neg inside, if_neg inside]
      refine (walkFields_tells (depth + 1) fs gs differ dv.2 dw.2 (by omega) (by omega)).of_iff ?_
      refine json_assign_iff List.nodup_nil ?_ ?_
      · rw [keys_walkFields, keys_walkFields, keys_eq differ]
      · rw [keys_walkFields]
        exact dv.1.filter _
  | .arr as, .arr bs, differ, dv, dw, shallow, shallow' => by
      rw [nesting] at shallow shallow'
      have inside : ¬ maxDepth < depth := by omega
      rw [walk, walk, if_neg inside, if_neg inside]
      refine (walkItems_tells (depth + 1) as bs differ dv dw (by omega) (by omega)).of_iff ?_
      simp only [json, Option.some.injEq, Json.arr.injEq]
  | .error name message stack fs, .error _ _ _ gs, ⟨rfl, rfl, rfl, differ⟩, dv, dw, shallow,
      shallow' => by
      rw [nesting] at shallow shallow'
      have inside : ¬ maxDepth < depth := by omega
      rw [walk, walk, if_neg inside, if_neg inside]
      refine (walkOwn_tells (depth + 1) fs gs differ dv.2 dw.2 (by omega) (by omega)).of_iff ?_
      refine json_assign_iff (nodup_errorFields name message stack) ?_ ?_
      · rw [keys_walkOwn, keys_walkOwn, keys_eq differ]
      · rw [keys_walkOwn]
        exact dv.1.filter _

theorem walkFields_tells (depth : Nat) : (fs gs : List (String × LogValue)) → DifferFields fs gs →
    DistinctFields fs → DistinctFields gs → depth + nestingFields fs ≤ maxDepth + 1 →
    depth + nestingFields gs ≤ maxDepth + 1 →
    Tells (JsObject.mapValues json (walkFields redactString maxDepth depth fs) =
        JsObject.mapValues json (walkFields redactString maxDepth depth gs))
      (passedFields fs) (passedFields gs)
  | [], [], _, _, _, _, _ => Tells.of_nil rfl
  | (k, v) :: fs, (_, w) :: gs, ⟨rfl, one, rest⟩, dv, dw, shallow, shallow' => by
      rw [nestingFields] at shallow shallow'
      have later := walkFields_tells depth fs gs rest dv.2 dw.2 (by omega) (by omega)
      rw [walkFields, walkFields, passedFields, passedFields]
      by_cases proto : k = "__proto__"
      · rwa [if_pos proto, if_pos proto, if_pos proto, if_pos proto]
      · rw [if_neg proto, if_neg proto, if_neg proto, if_neg proto]
        have head := entry_tells depth one fun differ =>
          walk_tells depth v w differ dv.1 dw.1 (by omega) (by omega)
        refine (head.append later).of_iff ?_
        simp [JsObject.mapValues]

theorem walkItems_tells (depth : Nat) : (as bs : List LogValue) → DifferItems as bs →
    DistinctItems as → DistinctItems bs → depth + nestingItems as ≤ maxDepth + 1 →
    depth + nestingItems bs ≤ maxDepth + 1 →
    Tells (jsonItems (walkItems redactString maxDepth depth as) =
        jsonItems (walkItems redactString maxDepth depth bs)) (passedItems as) (passedItems bs)
  | [], [], _, _, _, _, _ => Tells.of_nil rfl
  | v :: as, w :: bs, ⟨one, rest⟩, dv, dw, shallow, shallow' => by
      rw [nestingItems] at shallow shallow'
      have later := walkItems_tells depth as bs rest dv.2 dw.2 (by omega) (by omega)
      have head := walk_tells depth v w one dv.1 dw.1 (by omega) (by omega)
      refine (head.append later).of_iff ?_
      rw [walkItems, walkItems, jsonItems, jsonItems, List.cons.injEq,
        getD_null_iff (isSome_walk depth v w one)]

theorem walkOwn_tells (depth : Nat) : (fs gs : List (String × LogValue)) → DifferFields fs gs →
    DistinctFields fs → DistinctFields gs → depth + nestingFields fs ≤ maxDepth + 1 →
    depth + nestingFields gs ≤ maxDepth + 1 →
    Tells (JsObject.mapValues json (walkOwn redactString maxDepth depth fs) =
        JsObject.mapValues json (walkOwn redactString maxDepth depth gs))
      (passedOwn fs) (passedOwn gs)
  | [], [], _, _, _, _, _ => Tells.of_nil rfl
  | (k, v) :: fs, (_, w) :: gs, ⟨rfl, one, rest⟩, dv, dw, shallow, shallow' => by
      rw [nestingFields] at shallow shallow'
      have later := walkOwn_tells depth fs gs rest dv.2 dw.2 (by omega) (by omega)
      rw [walkOwn, walkOwn, passedOwn, passedOwn]
      by_cases skipped : k = "message" ∨ k = "stack" ∨ k = "__proto__"
      · rwa [if_pos skipped, if_pos skipped, if_pos skipped, if_pos skipped]
      · rw [if_neg skipped, if_neg skipped, if_neg skipped, if_neg skipped]
        cases sensitive : isSensitiveKey k with
        | true => exact later.of_iff (by simp [JsObject.mapValues])
        | false =>
            have differ : Differ v w := one.resolve_left fun secret => by
              rw [sensitive] at secret
              exact Bool.false_ne_true secret.1
            have head := walk_tells depth v w differ dv.1 dw.1 (by omega) (by omega)
            exact (head.append later).of_iff (by simp [JsObject.mapValues])

end

end Walk

/-- Numbers written in ones: the sign, the numerator and the denominator. -/
def onesFormat : NumberFormat where
  text q := (if q.num < 0 then ['-'] else ['+']) ++
    (List.replicate q.num.natAbs '1' ++ '.' :: List.replicate q.den '1')
  injective := by
    intro p q same
    have signs : (if p.num < 0 then ['-'] else ['+']).length = (if q.num < 0 then ['-'] else ['+']).length := by
      split <;> split <;> rfl
    obtain ⟨sign, ones⟩ := List.append_inj same signs
    have parts : p.num.natAbs = q.num.natAbs ∧ p.den = q.den := by
      have count := congrArg (List.idxOf '.') ones
      have size := congrArg List.length ones
      simp [List.idxOf_append, List.mem_replicate] at count size
      omega
    have below : p.num < 0 ↔ q.num < 0 := by
      by_cases neg : p.num < 0 <;> by_cases neg' : q.num < 0 <;> simp [neg, neg'] at sign ⊢
    exact Rat.ext (by omega) parts.2
  chars q c mem := by
    rcases List.mem_append.mp mem with mem | mem
    · split at mem <;> obtain rfl := List.mem_singleton.mp mem <;> rfl
    · rcases List.mem_append.mp mem with mem | mem
      · obtain rfl := List.eq_of_mem_replicate mem
        rfl
      · rcases List.mem_cons.mp mem with rfl | mem
        · rfl
        · obtain rfl := List.eq_of_mem_replicate mem
          rfl
  some q := by
    split <;> exact List.cons_ne_nil _ _

end AnalyticsBackend.Logging
