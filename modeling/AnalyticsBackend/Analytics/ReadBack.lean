import AnalyticsBackend.Analytics.Encode
import AnalyticsBackend.Analytics.IsoText
import AnalyticsBackend.Lib.JsOrder

/-!
# Reading a prepared query back

What the validators of the query contract make of their own results: the parts of an accepted query,
written out again, are read as the same parts.
-/

namespace AnalyticsBackend.Analytics

open Lib Lib.Mongo

/-! ## Checks without errors -/

section Checks

variable {α β : Type}

@[simp] theorem Check.pure_bind (a : α) (f : α → Check β) : (pure a >>= f) = f a := rfl

theorem Check.eq_pure {x : Check α} (clean : x.errors = []) : x = pure x.value := by
  cases x
  cases clean
  rfl

theorem failIf_eq_pure {bad : Bool} {path message : String} (good : bad = false) :
    failIf bad path message = pure () := by
  rw [failIf, good]
  rfl

theorem good_of_failIf {bad : Bool} {path message : String}
    (clean : (failIf bad path message).errors = []) : bad = false := by
  cases bad with
  | true => exact nomatch clean
  | false => rfl

theorem checkItems_eq_pure {γ : Type} {f : Nat → α → Check β} {enc : γ → α} {g : γ → β}
    {items : List γ} (reads : ∀ c ∈ items, ∀ i, f i (enc c) = pure (g c)) (i : Nat) :
    checkItems f i (items.map enc) = pure (items.map g) := by
  induction items generalizing i with
  | nil => rfl
  | cons c rest ih =>
      have head := reads c (List.mem_cons_self ..) i
      have tail := ih (fun d mem => reads d (List.mem_cons_of_mem _ mem)) (i + 1)
      rw [List.map_cons, checkItems, head, Check.pure_bind, tail]
      rfl

theorem clean_of_mem {f : Nat → α → Check β} {i : Nat} {items : List α}
    (clean : (checkItems f i items).errors = []) {a : α} (mem : a ∈ items) :
    ∃ j, (f j a).errors = [] := by
  induction items generalizing i with
  | nil => exact absurd mem List.not_mem_nil
  | cons b rest ih =>
      simp only [checkItems, Check.bind_errors, Check.pure_errors, List.append_nil,
        List.append_eq_nil_iff] at clean
      rcases List.mem_cons.mp mem with rfl | later
      · exact ⟨i, clean.1⟩
      · exact ih clean.2 later

theorem length_checkItems (f : Nat → α → Check β) (i : Nat) (items : List α) :
    (checkItems f i items).value.length = items.length := by
  induction items generalizing i with
  | nil => rfl
  | cons a rest ih => simp [checkItems, ih]

theorem checkItems_unit {f : Nat → α → Check Unit} {l : List α}
    (clean : ∀ a ∈ l, ∀ i, f i a = pure ()) (i : Nat) :
    checkItems f i l = pure (l.map fun _ => ()) := by
  induction l generalizing i with
  | nil => rfl
  | cons a rest ih =>
      have head := clean a (List.mem_cons_self ..) i
      have tail := ih (fun b mem => clean b (List.mem_cons_of_mem _ mem)) (i + 1)
      rw [checkItems, head, Check.pure_bind, tail]
      rfl

end Checks

theorem rejectUnknownKeys_eq_pure {fields : List (String × Js)} {allowed : List String}
    (known : ∀ entry ∈ fields, entry.1 ∈ allowed) (path : String) :
    rejectUnknownKeys fields allowed path = pure () := by
  rw [rejectUnknownKeys, checkItems_unit fun entry mem i => failIf_eq_pure (by simp [known entry mem])]
  rfl

/-! ## Filters -/

theorem valueJs_of_scalar {j : Js} {v : Value} (is : scalar j = some v) : valueJs v = j := by
  cases j with
  | null => cases is; rfl
  | bool b => cases is; rfl
  | str s =>
      rw [scalar] at is
      split at is
      · cases is
        rfl
      · exact nomatch is
  | num m =>
      cases m with
      | finite q => cases is; rfl
      | nan | posInf | negInf => exact nomatch is
  | undefined | date | arr | obj => exact nomatch is

theorem valuesJs_of_scalars {items : List Js} (all : (items.all fun v => (scalar v).isSome) = true) :
    (items.filterMap scalar).map valueJs = items := by
  induction items with
  | nil => rfl
  | cons j rest ih =>
      rw [List.all_cons, Bool.and_eq_true] at all
      obtain ⟨v, is⟩ := Option.isSome_iff_exists.mp all.1
      rw [List.filterMap_cons_some is, List.map_cons, valueJs_of_scalar is, ih all.2]

theorem value_checkValues (column value : Js) (path : String) :
    (checkValues column value path).value = (listOf value).filterMap scalar := by
  rw [checkValues]
  dsimp only [Check.bind_value]
  split <;> rfl

theorem clean_checkValues {column value : Js} {path : String} :
    (checkValues column value path).errors = [] ↔
      (listOf value).length ≤ LIMITS.inValues ∧
        ((listOf value).all fun v => (scalar v).isSome) = true ∧
        (column.text = some "connectorId" → (listOf value).all isDatasetId = true) := by
  rw [checkValues]
  dsimp only
  cases (listOf value).all fun v => (scalar v).isSome with
  | true => simp [imp_iff_not_or]
  | false => simp

theorem checkValues_again {column value : Js} {path : String}
    (clean : (checkValues column value path).errors = []) (path' : String) :
    checkValues column (.arr ((checkValues column value path).value.map valueJs)) path' =
      pure (checkValues column value path).value := by
  obtain ⟨few, all, ids⟩ := clean_checkValues.mp clean
  rw [value_checkValues, valuesJs_of_scalars all]
  have again : (checkValues column (.arr (listOf value)) path').errors = [] :=
    clean_checkValues.mpr ⟨few, all, ids⟩
  rw [Check.eq_pure again, value_checkValues]
  rfl

theorem clean_checkScalar {column value : Js} {path : String} :
    (checkScalar column value path).errors = [] ↔
      ∃ v, scalar value = some v ∧ (column.text = some "connectorId" → isDatasetId value = true) := by
  rw [checkScalar]
  cases scalar value with
  | none => simp
  | some v => simp [imp_iff_not_or]

theorem checkScalar_again {column value : Js} {path : String}
    (clean : (checkScalar column value path).errors = []) (path' : String) :
    checkScalar column (valueJs (checkScalar column value path).value) path' =
      pure (checkScalar column value path).value := by
  obtain ⟨v, is, ids⟩ := clean_checkScalar.mp clean
  have read (path : String) : (checkScalar column value path).value = v := by
    rw [checkScalar, is]
    rfl
  have again : (checkScalar column value path').errors = [] := clean_checkScalar.mpr ⟨v, is, ids⟩
  rw [read, valueJs_of_scalar is, Check.eq_pure again, read]

theorem rangeBound_again {rt : Runtime} {value : Js} {n : Number} (is : rangeBound rt value = some n) :
    rangeBound rt (.num n.value) = some n := by
  have double : ∃ q, n = { type := .double, value := .finite q } := by
    unfold rangeBound at is
    split at is
    · exact ⟨_, (Option.some.inj is).symm⟩
    · split at is
      · exact nomatch is
      · split at is
        · exact ⟨_, (Option.some.inj is).symm⟩
        · exact nomatch is
    · exact nomatch is
  obtain ⟨q, rfl⟩ := double
  rfl

theorem checkTest_again {rt : Runtime} {op : FilterOp} {column value : Js} {path : String}
    (clean : (checkTest rt op column value path).errors = []) (path' : String) :
    FILTER_OPS.lookup (checkTest rt op column value path).value.op = some op ∧
      checkTest rt op column (checkTest rt op column value path).value.operand path' =
        pure (checkTest rt op column value path).value := by
  cases op with
  | isIn =>
      simp only [checkTest, Check.bind_errors, Check.pure_errors, List.append_nil] at clean
      refine ⟨rfl, ?_⟩
      simp only [checkTest, Check.bind_value, Check.pure_value, FilterTest.operand,
        checkValues_again clean path', Check.pure_bind]
  | nin =>
      simp only [checkTest, Check.bind_errors, Check.pure_errors, List.append_nil] at clean
      refine ⟨rfl, ?_⟩
      simp only [checkTest, Check.bind_value, Check.pure_value, FilterTest.operand,
        checkValues_again clean path', Check.pure_bind]
  | eq =>
      simp only [checkTest, Check.bind_errors, Check.pure_errors, List.append_nil] at clean
      refine ⟨rfl, ?_⟩
      simp only [checkTest, Check.bind_value, Check.pure_value, FilterTest.operand,
        checkScalar_again clean path', Check.pure_bind]
  | neq =>
      simp only [checkTest, Check.bind_errors, Check.pure_errors, List.append_nil] at clean
      refine ⟨rfl, ?_⟩
      simp only [checkTest, Check.bind_value, Check.pure_value, FilterTest.operand,
        checkScalar_again clean path', Check.pure_bind]
  | range op =>
      cases is : rangeBound rt value with
      | none => simp [checkTest, is] at clean
      | some n =>
          have read : (checkTest rt (.range op) column value path).value = .range op n := by
            simp [checkTest, is]
          rw [read]
          refine ⟨by cases op <;> rfl, ?_⟩
          simp only [checkTest, FilterTest.operand, rangeBound_again is]
  | present =>
      cases is : booleanOf value with
      | none => simp [checkTest, is] at clean
      | some b =>
          have read : (checkTest rt .present column value path).value = .present b := by
            simp [checkTest, is]
          rw [read]
          exact ⟨rfl, rfl⟩

theorem safeName_eq {j : Js} {name : String} (is : safeName j = some name) :
    j = .str name ∧ isSafeText name = true := by
  cases j with
  | str s =>
      rw [safeName] at is
      split at is
      · rename_i safe
        cases is
        exact ⟨rfl, safe⟩
      · exact nomatch is
  | undefined | null | bool | num | date | arr | obj => exact nomatch is

theorem checkFilterField_again {column : Js} {path : String}
    (clean : (checkFilterField column path).errors = []) :
    column = .str (checkFilterField column path).value ∧
      ∀ path', checkFilterField column path' = pure (checkFilterField column path).value := by
  cases is : safeName column with
  | none => simp [checkFilterField, is] at clean
  | some name =>
      have read (path : String) : (checkFilterField column path).value = name := by
        simp only [checkFilterField, is]
        split <;> rfl
      rw [read]
      refine ⟨(safeName_eq is).1, fun path' => ?_⟩
      have again : (checkFilterField column path').errors = [] := by
        simp only [checkFilterField, is] at clean ⊢
        split at clean
        · exact nomatch clean
        · rename_i plain
          rw [if_neg plain]
          simp only [Check.bind_errors, Check.pure_errors, List.append_nil] at clean ⊢
          rw [failIf_eq_pure (good_of_failIf clean)]
          rfl
      rw [Check.eq_pure again, read]

theorem field_cons (fields : List (String × Js)) (k name : String) (v : Js) :
    field ((k, v) :: fields) name = if name = k then v else field fields name := by
  rw [field, List.lookup_cons]
  by_cases same : name = k
  · rw [if_pos same, beq_iff_eq.mpr same, Option.getD_some]
  · rw [if_neg same, beq_false_of_ne same, ← field]

theorem clean_validateFilter {rt : Runtime} {value : Js} {path : String}
    (clean : (validateFilter rt value path).errors = []) :
    ∃ column op test at' at'', (checkFilterField column at').errors = [] ∧
      (checkTest rt op column test at'').errors = [] ∧
      (validateFilter rt value path).value =
        { field := (checkFilterField column at').value
          test := (checkTest rt op column test at'').value } := by
  unfold validateFilter at clean ⊢
  cases object : value.plainObject with
  | none => simp [object] at clean
  | some f =>
      simp only [object, Check.bind_errors, List.append_eq_nil_iff] at clean
      obtain ⟨-, name, clean⟩ := clean
      cases isOp : (field f "op").text.bind fun s => FILTER_OPS.lookup s with
      | none => simp [isOp] at clean
      | some op =>
          simp only [isOp, Check.bind_errors, Check.pure_errors, List.append_nil] at clean
          refine ⟨field f "field", op, field f "value", _, _, name, clean, ?_⟩
          simp only [Check.bind_value, isOp, Check.pure_value]

theorem validateFilter_again {rt : Runtime} {value : Js} {path : String}
    (clean : (validateFilter rt value path).errors = []) (path' : String) :
    validateFilter rt (validateFilter rt value path).value.js path' =
      pure (validateFilter rt value path).value := by
  obtain ⟨column, op, test, at', at'', name, tested, read⟩ := clean_validateFilter clean
  obtain ⟨text, named⟩ := checkFilterField_again name
  obtain ⟨asked, again⟩ := checkTest_again tested (path' ++ ".value")
  rw [read, validateFilter, Filter.js]
  dsimp only [Js.plainObject]
  rw [rejectUnknownKeys_eq_pure (by simp), Check.pure_bind]
  simp only [field_cons, if_true, String.reduceEq, if_false, Js.text, Option.bind_some, asked]
  rw [← text, named, Check.pure_bind, again]
  rfl

theorem validateFilters_again {rt : Runtime} {value : Js} {path : String}
    (clean : (validateFilters rt value path).errors = []) (path' : String) :
    validateFilters rt (.arr ((validateFilters rt value path).value.map Filter.js)) path' =
      pure (validateFilters rt value path).value := by
  unfold validateFilters at clean ⊢
  cases value with
  | arr items =>
      simp only [Check.bind_errors, List.append_eq_nil_iff] at clean
      obtain ⟨few, each⟩ := clean
      have few := good_of_failIf few
      simp only [Check.bind_value, List.length_map, length_checkItems]
      rw [failIf_eq_pure few, Check.pure_bind]
      refine (checkItems_eq_pure (g := id) (fun f mem i => ?_) 0).trans (by rw [List.map_id])
      obtain ⟨j, item, accepted, rfl⟩ := checkItems_accepted each mem
      exact validateFilter_again accepted _
  | undefined | null | bool | num | str | date | obj => simp at clean

theorem validateFiltersOp_again (op : FiltersOp) (path : String) :
    validateFiltersOp (.str op.text) path = pure op := by
  cases op with
  | and => rfl
  | or => rfl

theorem validateFilterGroup_again {rt : Runtime} {value : Js} {path : String}
    {found : Option FilterGroup} (clean : (validateFilterGroup rt value path).errors = [])
    (is : (validateFilterGroup rt value path).value = found) :
    ∃ g, found = some g ∧ ∀ path', validateFilterGroup rt g.js path' = pure (some g) := by
  unfold validateFilterGroup at clean is
  cases object : value.plainObject with
  | none => simp [object] at clean
  | some group =>
      simp only [object, Check.bind_errors, List.append_eq_nil_iff, Check.bind_value,
        Check.pure_value] at clean is
      obtain ⟨-, filters, -⟩ := clean
      generalize firstOf (field group "filters") (.arr []) = given at filters is
      generalize (checkGroupOp (field group "filtersOp") (path ++ ".filtersOp")).value = op at is
      refine ⟨_, is.symm, fun path' => ?_⟩
      rw [validateFilterGroup, FilterGroup.js]
      dsimp only [Js.plainObject]
      rw [rejectUnknownKeys_eq_pure (by simp), Check.pure_bind]
      simp only [field_cons, if_true, String.reduceEq, if_false, firstOf, Js.isNullish,
        Bool.false_eq_true, validateFilters_again filters, Check.pure_bind, checkGroupOp,
        isUndefined, validateFiltersOp_again]

theorem checkItems_some {A : Type} {f : Nat → Js → Check (Option A)} {R : A → Prop} {i : Nat}
    {items : List Js} (clean : (checkItems f i items).errors = [])
    (each : ∀ j item, (f j item).errors = [] → ∃ a, (f j item).value = some a ∧ R a) :
    ∃ l : List A, (checkItems f i items).value = l.map some ∧ l.length = items.length ∧ ∀ a ∈ l, R a := by
  induction items generalizing i with
  | nil => exact ⟨[], rfl, rfl, fun a mem => absurd mem List.not_mem_nil⟩
  | cons item rest ih =>
      simp only [checkItems, Check.bind_errors, Check.pure_errors, List.append_nil,
        List.append_eq_nil_iff] at clean
      obtain ⟨a, is, holds⟩ := each i item clean.1
      obtain ⟨l, are, size, all⟩ := ih clean.2
      refine ⟨a :: l, ?_, by rw [List.length_cons, size, List.length_cons],
        List.forall_mem_cons.mpr ⟨holds, all⟩⟩
      simp only [checkItems, Check.bind_value, Check.pure_value, is, are, List.map_cons]

theorem validateFilterGroups_again {rt : Runtime} {value : Js}
    (clean : (validateFilterGroups rt value).errors = []) :
    validateFilterGroups rt (.arr ((validateFilterGroups rt value).value.map FilterGroup.js)) =
      pure (validateFilterGroups rt value).value := by
  cases value with
  | undefined | null => rfl
  | bool | num | str | date | obj => simp [validateFilterGroups, Js.isNullish] at clean
  | arr items =>
      simp only [validateFilterGroups, Js.isNullish, Bool.false_eq_true, if_false, Check.bind_errors,
        Check.pure_errors, List.append_nil, List.append_eq_nil_iff, Check.bind_value,
        Check.pure_value] at clean ⊢
      obtain ⟨few, each⟩ := clean
      obtain ⟨l, are, size, again⟩ := checkItems_some each fun j item accepted =>
        validateFilterGroup_again accepted rfl
      have few := good_of_failIf few
      rw [← size] at few
      rw [are, List.filterMap_map, Function.id_comp, List.filterMap_some, List.length_map,
        failIf_eq_pure few, Check.pure_bind, checkItems_eq_pure fun g mem i => again g mem _,
        Check.pure_bind, List.filterMap_map, Function.id_comp, List.filterMap_some]

/-! ## Datasets, groups, order and pages -/

theorem validateConnectorIds_eq_pure (rt : Runtime) {ids : List String}
    (few : ids.length ≤ LIMITS.connectorIds) (hex : ∀ id ∈ ids, isHexId id = true) (path : String) :
    validateConnectorIds rt (.arr (ids.map .str)) path = pure ids := by
  rw [validateConnectorIds]
  rw [failIf_eq_pure (by simpa using few), Check.pure_bind]
  have each := checkItems_unit (f := fun i id =>
    failIf (!isDatasetId id) s!"{path}[{i}]" "must be a dataset id") (l := ids.map Js.str)
    (fun id mem i => ?_) 0
  · rw [each, Check.pure_bind, List.map_map]
    exact congrArg pure (List.map_id ids)
  · obtain ⟨text, inside, rfl⟩ := List.mem_map.mp mem
    exact failIf_eq_pure (by simp [isDatasetId, hex text inside])

theorem clean_validateConnectorIds {rt : Runtime} {value : Js} {path : String}
    (clean : (validateConnectorIds rt value path).errors = []) :
    (validateConnectorIds rt value path).value.length ≤ LIMITS.connectorIds ∧
      ∀ id ∈ (validateConnectorIds rt value path).value, isHexId id = true := by
  cases value with
  | undefined | null | bool | num | str | date | obj => simp [validateConnectorIds] at clean
  | arr items =>
      simp only [validateConnectorIds, Check.bind_errors, Check.pure_errors, List.append_nil,
        List.append_eq_nil_iff, Check.bind_value, Check.pure_value] at clean ⊢
      refine ⟨by simpa using good_of_failIf clean.1, fun id mem => ?_⟩
      obtain ⟨item, inside, rfl⟩ := List.mem_map.mp mem
      obtain ⟨i, hex⟩ := clean_of_mem clean.2 inside
      have hex := good_of_failIf hex
      cases item with
      | str s => simpa [isDatasetId, Runtime.text] using hex
      | undefined | null | bool | num | date | arr | obj => exact nomatch hex

theorem field_optional (k name : String) (v : Option Js) (rest : List (String × Js)) :
    field (optional k v ++ rest) name =
      if name = k then v.getD (field rest name) else field rest name := by
  cases v with
  | none => split <;> rfl
  | some j => exact field_cons rest k name j

theorem field_nil (name : String) : field [] name = .undefined := rfl

theorem field_lone (k name : String) (v : Option Js) :
    field (optional k v) name = if name = k then v.getD .undefined else .undefined := by
  have split := field_optional k name v []
  rwa [List.append_nil] at split

theorem mem_optional {k : String} {v : Option Js} {entry : String × Js}
    (mem : entry ∈ optional k v) : entry.1 = k := by
  obtain ⟨j, -, rfl⟩ := List.mem_map.mp mem
  rfl

theorem checkWhole_again {rt : Runtime} {value : Js} {most : Nat} {path : String}
    (clean : (checkWhole rt value most path).errors = []) (path' : String) :
    checkWhole rt (((checkWhole rt value most path).value.map wholeJs).getD .undefined) most path' =
      pure (checkWhole rt value most path).value := by
  unfold checkWhole at clean
  split at clean
  · rename_i nullish
    have read : (checkWhole rt value most path).value = none := by
      rw [checkWhole, if_pos nullish]
      rfl
    rw [read]
    rfl
  · rename_i given
    split at clean
    · rename_i n isInt
      split at clean
      · rename_i within
        have read : (checkWhole rt value most path).value = some n.toNat := by
          rw [checkWhole, if_neg given, isInt]
          simp only [if_pos within, Check.pure_value]
        rw [read]
        have whole : intOf rt (wholeJs n.toNat) = some (n.toNat : Int) := by
          simp [intOf, wholeJs, Magnitude.integer]
        simp only [Option.map_some, Option.getD_some, checkWhole, whole]
        rw [if_neg (by simp [wholeJs, Js.isNullish]), if_pos (by omega), Int.toNat_natCast]
      · cases clean
    · cases clean

theorem validatePagination_again {rt : Runtime} {value : Js} {path : String}
    (clean : (validatePagination rt value path).errors = []) (path' : String) :
    validatePagination rt (validatePagination rt value path).value.js path' =
      pure (validatePagination rt value path).value := by
  unfold validatePagination at clean ⊢
  cases object : value.plainObject with
  | none => simp [object] at clean
  | some p =>
      simp only [object, Check.bind_errors, List.append_eq_nil_iff, Check.pure_errors,
        Check.bind_value, Check.pure_value] at clean ⊢
      obtain ⟨-, page, limit, -⟩ := clean
      simp only [Pagination.js, Js.plainObject]
      have known (a b : Option Js) : ∀ entry ∈ optional "page" a ++ optional "limit" b,
          entry.1 ∈ ["page", "limit"] := by
        intro entry mem
        rcases List.mem_append.mp mem with mem | mem
        · simp [mem_optional mem]
        · simp [mem_optional mem]
      rw [rejectUnknownKeys_eq_pure (known _ _), Check.pure_bind]
      simp only [field_optional, field_lone, String.reduceEq, if_true, if_false, checkWhole_again page,
        checkWhole_again limit, Check.pure_bind]

theorem validateCompare_again (c : CompareType) (path : String) :
    validateCompare c.js path = pure c := by
  rw [validateCompare, CompareType.js]
  dsimp only [Js.plainObject]
  rw [rejectUnknownKeys_eq_pure (by simp), Check.pure_bind]
  cases c <;> rfl

/-- An accepted sort column is the text that was given. -/
theorem checkOrderField_again {value : Js} {path : String}
    (clean : (checkOrderField value path).errors = []) (path' : String) :
    checkOrderField (.str (checkOrderField value path).value) path' =
      pure (checkOrderField value path).value := by
  cases is : safeName value with
  | none => simp [checkOrderField, is] at clean
  | some name =>
      have read (path : String) : (checkOrderField value path).value = name := by
        simp only [checkOrderField, is]
        split <;> rfl
      have again : (checkOrderField value path').errors = [] := by
        simp only [checkOrderField, is] at clean ⊢
        split at clean
        · exact nomatch clean
        · rename_i plain
          rw [if_neg plain]
          simp only [Check.bind_errors, Check.pure_errors, List.append_nil] at clean ⊢
          rw [failIf_eq_pure (good_of_failIf clean)]
          rfl
      rw [read, ← (safeName_eq is).1, Check.eq_pure again, read]

theorem validateOrder_again {value : Js} {path : String}
    (clean : (validateOrder value path).errors = []) :
    ∃ o, (validateOrder value path).value = some o ∧
      ∀ path', validateOrder o.js path' = pure (some o) := by
  unfold validateOrder at clean ⊢
  cases object : itemOf value with
  | none => simp [object] at clean
  | some item =>
      simp only [object, Check.bind_errors, List.append_eq_nil_iff, Check.bind_value,
        Check.pure_value] at clean ⊢
      obtain ⟨-, name, -⟩ := clean
      generalize (if (firstOf (field item "direction") (firstOf (field item "dir") (.str "asc"))).text =
        some "desc" then Direction.desc else Direction.asc) = direction
      refine ⟨_, rfl, fun path' => ?_⟩
      simp only [OrderBy.js, itemOf, Js.plainObject]
      rw [rejectUnknownKeys_eq_pure (by simp), Check.pure_bind]
      simp only [field_cons, String.reduceEq, if_true, if_false, checkOrderField_again name,
        Check.pure_bind]
      cases direction <;> rfl

theorem validateOrderBy_again {value : Js} {path : String}
    (clean : (validateOrderBy value path).errors = []) :
    ∃ os : List OrderBy, (validateOrderBy value path).value = os.map some ∧
      ∀ path', validateOrderBy (.arr (os.map OrderBy.js)) path' = pure (os.map some) := by
  cases value with
  | undefined | null | bool | num | str | date | obj => simp [validateOrderBy] at clean
  | arr items =>
      simp only [validateOrderBy, Check.bind_errors, List.append_eq_nil_iff, Check.bind_value] at clean ⊢
      obtain ⟨few, each⟩ := clean
      obtain ⟨os, are, size, again⟩ := checkItems_some each fun j item accepted =>
        validateOrder_again accepted
      have few := good_of_failIf few
      rw [← size] at few
      refine ⟨os, are, fun path' => ?_⟩
      rw [List.length_map, failIf_eq_pure few, Check.pure_bind,
        checkItems_eq_pure fun o mem i => again o mem _]

theorem checkGroupField_again {shorthand : Bool} {seen : List String} {value : Js} {path : String}
    (clean : (checkGroupField shorthand seen value path).errors = []) (path' : String) :
    checkGroupField true seen (.str (checkGroupField shorthand seen value path).value) path' =
        pure (checkGroupField shorthand seen value path).value ∧
      checkGroupField false seen (.str (checkGroupField shorthand seen value path).value) path' =
        pure (checkGroupField shorthand seen value path).value := by
  cases is : safeName value with
  | none => simp [checkGroupField, is] at clean
  | some name =>
      have read (shorthand : Bool) (path : String) :
          (checkGroupField shorthand seen value path).value = name := by
        simp only [checkGroupField, is]
        split
        · rfl
        · split <;> rfl
      have again (shorthand : Bool) (path' : String) :
          (checkGroupField shorthand seen value path').errors = [] := by
        simp only [checkGroupField, is] at clean ⊢
        split at clean
        · exact nomatch clean
        · rename_i free
          rw [if_neg free]
          split at clean
          · exact nomatch clean
          · rename_i plain
            rw [if_neg plain]
            simp only [Check.bind_errors, Check.pure_errors, List.append_nil] at clean ⊢
            rw [failIf_eq_pure (good_of_failIf clean)]
            rfl
      rw [read, ← (safeName_eq is).1, Check.eq_pure (again true path'),
        Check.eq_pure (again false path'), read, read]
      exact ⟨rfl, rfl⟩

theorem checkBucket_again {name : String} {value : Js} {path : String}
    (clean : (checkBucket name value path).errors = []) (path' : String) :
    checkBucket name (((checkBucket name value path).value.map fun b =>
      .str (checkBucket.bucketText b)).getD .undefined) path' =
      pure (checkBucket name value path).value := by
  unfold checkBucket at clean
  split at clean
  · rename_i nullish
    have read : (checkBucket name value path).value = none := by
      rw [checkBucket, if_pos nullish]
      rfl
    rw [read]
    rfl
  · rename_i given
    cases is : choice checkBucket.buckets checkBucket.bucketText value with
    | none => simp [is] at clean
    | some bucket =>
        rw [is] at clean
        dsimp only at clean
        split at clean
        · exact nomatch clean
        · rename_i date
          have read : (checkBucket name value path).value = some bucket := by
            rw [checkBucket, if_neg given, is]
            dsimp only
            rw [if_neg date]
            rfl
          have named : choice checkBucket.buckets checkBucket.bucketText
              (.str (checkBucket.bucketText bucket)) = some bucket := by
            cases bucket <;> decide
          rw [read]
          simp only [Option.map_some, Option.getD_some, checkBucket, named, if_neg date]
          rfl

theorem validateGroup_again {seen : List String} {value : Js} {path : String}
    (clean : (validateGroup seen value path).errors = []) :
    ∃ g, (validateGroup seen value path).value = some g ∧
      ∀ path', validateGroup seen g.js path' = pure (some g) := by
  unfold validateGroup at clean ⊢
  cases object : itemOf value with
  | none => simp [object] at clean
  | some item =>
      simp only [object, Check.bind_errors, List.append_eq_nil_iff, Check.bind_value,
        Check.pure_value, Check.pure_errors] at clean ⊢
      obtain ⟨-, name, bucket, -⟩ := clean
      generalize value.text.isSome = shorthand at name bucket
      refine ⟨_, rfl, fun path' => ?_⟩
      simp only [GroupBy.js, itemOf, Js.plainObject]
      rw [rejectUnknownKeys_eq_pure (fun entry mem => ?_), Check.pure_bind]
      · simp only [List.cons_append, List.nil_append, field_cons, field_lone, String.reduceEq, if_true,
          if_false, Js.text, Option.isSome_none, (checkGroupField_again name _).2, Check.pure_bind,
          checkBucket_again bucket]
      · rcases List.mem_append.mp mem with mem | mem
        · simp [List.mem_singleton.mp mem]
        · simp [mem_optional mem]

theorem validateGroupList_again {path : String} {i : Nat} {seen : List String} {items : List Js}
    (clean : (validateGroupList path i seen items).errors = []) :
    ∃ gs : List GroupBy, (validateGroupList path i seen items).value = gs.map some ∧
      gs.length = items.length ∧
      ∀ path' i', validateGroupList path' i' seen (gs.map GroupBy.js) = pure (gs.map some) := by
  induction items generalizing i seen with
  | nil => exact ⟨[], rfl, rfl, fun _ _ => rfl⟩
  | cons item rest ih =>
      simp only [validateGroupList, Check.bind_errors, Check.pure_errors, List.append_nil,
        List.append_eq_nil_iff] at clean
      obtain ⟨g, is, again⟩ := validateGroup_again clean.1
      rw [is] at clean
      obtain ⟨gs, are, size, later⟩ := ih clean.2
      refine ⟨g :: gs, ?_, by rw [List.length_cons, size, List.length_cons], fun path' i' => ?_⟩
      · simp only [validateGroupList, Check.bind_value, Check.pure_value, is, are, List.map_cons]
      · rw [List.map_cons, validateGroupList, again, Check.pure_bind]
        simp only [later, Check.pure_bind, List.map_cons]

theorem validateGroupBy_again {value : Js} {path : String}
    (clean : (validateGroupBy value path).errors = []) :
    ∃ gs : List GroupBy, (validateGroupBy value path).value = gs.map some ∧
      ∀ path', validateGroupBy (.arr (gs.map GroupBy.js)) path' = pure (gs.map some) := by
  cases value with
  | undefined | null | bool | num | str | date | obj => simp [validateGroupBy] at clean
  | arr items =>
      simp only [validateGroupBy, Check.bind_errors, List.append_eq_nil_iff, Check.bind_value] at clean ⊢
      obtain ⟨few, each⟩ := clean
      obtain ⟨gs, are, size, again⟩ := validateGroupList_again each
      have few := good_of_failIf few
      rw [← size] at few
      refine ⟨gs, are, fun path' => ?_⟩
      rw [List.length_map, failIf_eq_pure few, Check.pure_bind, again]

/-! ## Metrics -/

/-- A metric as an accepted query holds it. -/
def Metric.Readable : Metric → Prop
  | .plain op column name =>
      (op = .count ∨ column.isSome = true) ∧
        (∀ f ∈ column, isSafeText f = true ∧ isSensitiveFieldName f = false) ∧
        ∀ a ∈ name, isSafeText a = true
  | .ref text name => isMetricRef text = true ∧ ∀ a ∈ name, isSafeText a = true

theorem not_isEmpty_of_safe {s : String} (safe : isSafeText s = true) : s.isEmpty = false := by
  simp only [isSafeText, Bool.and_eq_true, Bool.not_eq_true'] at safe
  exact safe.1.1

theorem safeName_str {s : String} (safe : isSafeText s = true) : safeName (.str s) = some s := by
  rw [safeName, if_pos safe]

theorem checkAlias_eq_pure {name : Option String} (safe : ∀ a ∈ name, isSafeText a = true)
    (path : String) : checkAlias ((name.map Js.str).getD .undefined) path = pure name := by
  cases name with
  | none => rfl
  | some a =>
      have safe := safe a rfl
      simp only [Option.map_some, Option.getD_some, checkAlias, Js.isBlank, not_isEmpty_of_safe safe,
        safeName_str safe]
      rfl

theorem clean_checkAlias {value : Js} {path : String} (clean : (checkAlias value path).errors = []) :
    ∀ a ∈ (checkAlias value path).value, isSafeText a = true := by
  unfold checkAlias at clean ⊢
  split at clean
  · rename_i blank
    rw [if_pos blank]
    exact fun a mem => nomatch mem
  · rename_i given
    rw [if_neg given]
    cases is : safeName value with
    | none => simp [is] at clean
    | some name =>
        rintro a mem
        obtain rfl : name = a := Option.some.inj mem
        exact (safeName_eq is).2

theorem checkMetricField_eq_pure {op : MetricOp} {column : Option String}
    (there : op = .count ∨ column.isSome = true)
    (plain : ∀ f ∈ column, isSafeText f = true ∧ isSensitiveFieldName f = false) (path : String) :
    checkMetricField (some op) ((column.map Js.str).getD .undefined) path = pure column := by
  cases column with
  | none =>
      obtain rfl : op = .count := there.resolve_right (by simp)
      rfl
  | some f =>
      obtain ⟨safe, open'⟩ := plain f rfl
      simp only [Option.map_some, Option.getD_some, checkMetricField, Js.isBlank,
        not_isEmpty_of_safe safe, safeName_str safe, open']
      rfl

theorem clean_checkMetricField {op : MetricOp} {value : Js} {path : String}
    (clean : (checkMetricField (some op) value path).errors = []) :
    (op = .count ∨ (checkMetricField (some op) value path).value.isSome = true) ∧
      ∀ f ∈ (checkMetricField (some op) value path).value,
        isSafeText f = true ∧ isSensitiveFieldName f = false := by
  unfold checkMetricField at clean ⊢
  split at clean
  · rename_i blank
    rw [if_pos blank]
    cases op with
    | count => exact ⟨.inl rfl, fun f mem => nomatch mem⟩
    | sum | avg | min | max | countDistinct | countNonNull => simp at clean
  · rename_i given
    rw [if_neg given]
    cases is : safeName value with
    | none => simp [is] at clean
    | some name =>
        rw [is] at clean
        dsimp only at clean ⊢
        split at clean
        · exact nomatch clean
        · rename_i plain
          rw [if_neg plain]
          refine ⟨.inr rfl, fun f mem => ?_⟩
          obtain rfl : name = f := Option.some.inj mem
          exact ⟨(safeName_eq is).2, by simpa using plain⟩

theorem choice_metricOp (op : MetricOp) :
    choice MetricOp.all MetricOp.text (.str op.text) = some op := by
  cases op <;> decide

theorem validateMetric_js {m : Metric} (readable : m.Readable) (seen : List (String × Nat))
    (path : String) : validateMetric seen m.js path = (do
      checkMetricName seen m path
      pure (some m)) := by
  cases m with
  | plain op column name =>
      obtain ⟨there, plain, safe⟩ := readable
      simp only [validateMetric, Metric.js, Js.plainObject, List.cons_append, List.nil_append,
        field_cons, field_optional, field_lone, String.reduceEq, if_false, if_true, validatePlainMetric,
        choice_metricOp]
      rw [rejectUnknownKeys_eq_pure (fun entry mem => ?_), Check.pure_bind,
        failIf_eq_pure (by rfl), Check.pure_bind, checkMetricField_eq_pure there plain, Check.pure_bind,
        checkAlias_eq_pure safe, Check.pure_bind]
      · simp only [Option.getD_some]
        exact congrArg₂ Check.mk (by simp) rfl
      · rcases List.mem_cons.mp mem with rfl | mem
        · simp
        · rcases List.mem_append.mp mem with mem | mem
          · simp [mem_optional mem]
          · simp [mem_optional mem]
  | ref text name =>
      obtain ⟨known, safe⟩ := readable
      simp only [validateMetric, Metric.js, Js.plainObject, List.cons_append, List.nil_append,
        field_cons, field_lone, String.reduceEq, if_false, if_true, validateMetricRef, Js.text,
        Option.getD_some, known, Bool.not_true]
      rw [rejectUnknownKeys_eq_pure (fun entry mem => ?_), Check.pure_bind,
        failIf_eq_pure (by rfl), Check.pure_bind, checkAlias_eq_pure safe, Check.pure_bind]
      · exact congrArg₂ Check.mk (by simp) rfl
      · rcases List.mem_cons.mp mem with rfl | mem
        · simp
        · simp [mem_optional mem]

theorem clean_checkMetricName {seen : List (String × Nat)} {m : Metric} {path : String} :
    (checkMetricName seen m path).errors = [] ↔
      isReservedOutputName (metricAlias m) = false ∧ seen.lookup (metricAlias m) = none := by
  rw [checkMetricName]
  cases found : seen.lookup (metricAlias m) with
  | none => simp
  | some i => simp

theorem clean_validateMetric {seen : List (String × Nat)} {value : Js} {path : String}
    (clean : (validateMetric seen value path).errors = []) :
    ∃ m, (validateMetric seen value path).value = some m ∧ m.Readable ∧
      isReservedOutputName (metricAlias m) = false ∧ seen.lookup (metricAlias m) = none := by
  unfold validateMetric at clean ⊢
  cases object : value.plainObject with
  | none => simp [object] at clean
  | some f =>
      rw [object] at clean
      dsimp only at clean ⊢
      split at clean
      · rename_i plain
        simp only [validatePlainMetric, Check.bind_errors, List.append_eq_nil_iff, Check.pure_errors,
          Check.bind_value, Check.pure_value] at clean ⊢
        obtain ⟨⟨-, known, column, name, free, -⟩, -⟩ := clean
        cases isOp : choice MetricOp.all MetricOp.text (field f "op") with
        | none => exact absurd (good_of_failIf known) (by simp [isOp])
        | some op =>
            rw [isOp] at column free
            obtain ⟨there, plain⟩ := clean_checkMetricField column
            exact ⟨_, rfl, ⟨there, plain, clean_checkAlias name⟩, clean_checkMetricName.mp free⟩
      · simp only [validateMetricRef, Check.bind_errors, List.append_eq_nil_iff, Check.pure_errors,
          Check.bind_value, Check.pure_value] at clean ⊢
        obtain ⟨⟨-, known, name, free, -⟩, -⟩ := clean
        exact ⟨_, rfl, ⟨by simpa using good_of_failIf known, clean_checkAlias name⟩,
          clean_checkMetricName.mp free⟩

/-- What is known of the metrics of an accepted query. -/
structure ReadableMetrics (ms : List Metric) : Prop where
  each : ∀ m ∈ ms, m.Readable
  free : ∀ m ∈ ms, isReservedOutputName (metricAlias m) = false
  once : (ms.map metricAlias).Nodup

theorem lookup_taken {seen : List (String × Nat)} {m : Metric} {i : Nat} {name : String} :
    (if (seen.lookup (metricAlias m)).isSome then seen else (metricAlias m, i) :: seen).lookup name =
        none ↔
      ((seen.lookup (metricAlias m)).isSome = true ∨ name ≠ metricAlias m) ∧
        seen.lookup name = none := by
  split
  · rename_i known
    simp [known]
  · rename_i fresh
    rw [JsObject.lookup_cons_eq]
    by_cases same : name = metricAlias m
    · simp [same, fresh]
    · simp [same]

theorem clean_validateMetricList {path : String} {i : Nat} {seen : List (String × Nat)}
    {items : List Js} (clean : (validateMetricList path i seen items).errors = []) :
    ∃ ms : List Metric, (validateMetricList path i seen items).value = ms.map some ∧
      ms.length = items.length ∧ ReadableMetrics ms ∧
      ∀ m ∈ ms, seen.lookup (metricAlias m) = none := by
  induction items generalizing i seen with
  | nil => exact ⟨[], rfl, rfl, ⟨by simp, by simp, List.nodup_nil⟩, by simp⟩
  | cons item rest ih =>
      simp only [validateMetricList, Check.bind_errors, Check.pure_errors, List.append_nil,
        List.append_eq_nil_iff] at clean
      obtain ⟨m, is, readable, free, fresh⟩ := clean_validateMetric clean.1
      rw [is] at clean
      obtain ⟨ms, are, size, all, later⟩ := ih clean.2
      have apart : ∀ o ∈ ms, metricAlias o ≠ metricAlias m ∧ seen.lookup (metricAlias o) = none := by
        intro o mem
        obtain ⟨other, unknown⟩ := lookup_taken.mp (later o mem)
        exact ⟨other.resolve_left (by simp [fresh]), unknown⟩
      refine ⟨m :: ms, ?_, by rw [List.length_cons, size, List.length_cons],
        ⟨List.forall_mem_cons.mpr ⟨readable, all.each⟩, List.forall_mem_cons.mpr ⟨free, all.free⟩, ?_⟩,
        List.forall_mem_cons.mpr ⟨fresh, fun o mem => (apart o mem).2⟩⟩
      · simp only [validateMetricList, Check.bind_value, Check.pure_value, is, are, List.map_cons]
      · rw [List.map_cons, List.nodup_cons]
        refine ⟨fun mem => ?_, all.once⟩
        obtain ⟨o, inside, same⟩ := List.mem_map.mp mem
        exact (apart o inside).1 same

theorem validateMetricList_eq_pure {ms : List Metric} (readable : ReadableMetrics ms) (path : String)
    (i : Nat) {seen : List (String × Nat)} (fresh : ∀ m ∈ ms, seen.lookup (metricAlias m) = none) :
    validateMetricList path i seen (ms.map Metric.js) = pure (ms.map some) := by
  induction ms generalizing i seen with
  | nil => rfl
  | cons m rest ih =>
      obtain ⟨each, others⟩ := List.forall_mem_cons.mp readable.each
      obtain ⟨free, later⟩ := List.forall_mem_cons.mp readable.free
      obtain ⟨once, apart⟩ := List.nodup_cons.mp readable.once
      obtain ⟨first, unknown⟩ := List.forall_mem_cons.mp fresh
      have named (path : String) : checkMetricName seen m path = pure () :=
        Check.eq_pure (clean_checkMetricName.mpr ⟨free, first⟩)
      rw [List.map_cons, validateMetricList, validateMetric_js each, named, Check.pure_bind,
        Check.pure_bind]
      dsimp only
      rw [ih ⟨others, later, apart⟩ (i + 1) fun o mem => lookup_taken.mpr
        ⟨.inr fun same => once (List.mem_map.mpr ⟨o, mem, same⟩), unknown o mem⟩]
      rfl

theorem clean_validateMetrics {value : Js} {path : String}
    (clean : (validateMetrics value path).errors = []) :
    ∃ ms : List Metric, (validateMetrics value path).value = ms.map some ∧
      ms.length ≤ LIMITS.metrics ∧ ReadableMetrics ms := by
  cases value with
  | undefined | null | bool | num | str | date | obj => simp [validateMetrics] at clean
  | arr items =>
      simp only [validateMetrics, Check.bind_errors, List.append_eq_nil_iff, Check.bind_value] at clean ⊢
      obtain ⟨ms, are, size, readable, -⟩ := clean_validateMetricList clean.2
      have few := good_of_failIf clean.1
      exact ⟨ms, are, by simpa [size] using few, readable⟩

theorem validateMetrics_eq_pure {ms : List Metric} (few : ms.length ≤ LIMITS.metrics)
    (readable : ReadableMetrics ms) (path : String) :
    validateMetrics (.arr (ms.map Metric.js)) path = pure (ms.map some) := by
  rw [validateMetrics, List.length_map, failIf_eq_pure (by simpa using few), Check.pure_bind,
    validateMetricList_eq_pure readable path 0 fun m mem => rfl]

end AnalyticsBackend.Analytics
