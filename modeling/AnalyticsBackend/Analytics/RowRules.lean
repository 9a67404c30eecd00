import AnalyticsBackend.Analytics.Pipeline

/-!
# Row rules

What a data access scope admits of the stored rows: through the aggregation stages of
`buildAccessStages` and through the match of a raw listing, `rowListMatch`.
-/

namespace AnalyticsBackend.Analytics

open Lib Lib.Mongo

/-! ## Stored rows -/

/-- `models/ConnectorRow.js`: one ingested row of a dataset. -/
structure ConnectorRow where
  id : ObjectId
  tenantId : String
  connectorId : ObjectId
  sourceRowId : String
  data : Value
  ingestedAt : Int
  deletedAt : Option Int

namespace ConnectorRow

/-- The row as it is stored. -/
def doc (row : ConnectorRow) : Doc :=
  [("_id", .oid row.id), ("tenantId", .str row.tenantId), ("connectorId", .oid row.connectorId),
    ("sourceRowId", .str row.sourceRowId), ("data", row.data), ("ingestedAt", .date row.ingestedAt),
    ("deletedAt", (row.deletedAt.map Value.date).getD .null)]

@[simp] theorem get_connectorId (row : ConnectorRow) :
    Doc.get row.doc "connectorId" = some (.oid row.connectorId) := by
  simp [Doc.get, doc, List.lookup_cons]

@[simp] theorem get_tenantId (row : ConnectorRow) :
    Doc.get row.doc "tenantId" = some (.str row.tenantId) := by
  simp [Doc.get, doc, List.lookup_cons]

@[simp] theorem get_deletedAt (row : ConnectorRow) :
    Doc.get row.doc "deletedAt" = some ((row.deletedAt.map Value.date).getD .null) := by
  simp [Doc.get, doc, List.lookup_cons]

end ConnectorRow

/-! ## One rule -/

namespace Rule

def values (r : Rule) : List String :=
  match r.test with
  | .eq value => [value]
  | .isIn values => values

def path (r : Rule) : List String := "data" :: splitDots r.field.name

/-- The rule's field, read through objects alone, holds one of the rule's values. -/
def metBy (r : Rule) (row : ConnectorRow) : Bool :=
  match plainPath r.path row.doc with
  | some (.str s) => r.values.contains s
  | _ => false

/-- The rule's field comes to an array, in which one of the rule's values is found. -/
def foundInArray (searchIndexed : Bool) (r : Rule) (row : ConnectorRow) : Bool :=
  meetsArray r.path row.doc &&
    (candidates searchIndexed r.path (.obj row.doc)).any fun v =>
      r.values.any fun s => Condition.equal (.str s) v

theorem path_ne_nil (r : Rule) : r.path ≠ [] := List.cons_ne_nil _ _

theorem name_ne_connectorId (r : Rule) : r.field.name ≠ "connectorId" := by
  intro same
  exact r.field.unreserved (by simp [same, RESERVED_FIELDS])

theorem metBy_iff (r : Rule) (row : ConnectorRow) :
    r.metBy row = true ↔ ∃ s ∈ r.values, plainPath r.path row.doc = some (.str s) := by
  unfold metBy
  split
  · rename_i s found
    simp [found]
  · rename_i other
    constructor
    · intro h
      exact absurd h (by simp)
    · rintro ⟨s, -, found⟩
      exact absurd found (other s)

theorem not_metBy_of_meetsArray {r : Rule} {row : ConnectorRow}
    (h : meetsArray r.path row.doc = true) : r.metBy row = false := by
  rw [Bool.eq_false_iff]
  intro met
  obtain ⟨s, -, found⟩ := (metBy_iff r row).mp met
  exact plainPath_ne_str_of_meetsArray h s found

theorem equal_str (s : String) (v : Option Value) :
    Condition.equal (.str s) v = true ↔ v = some (.str s) := by
  cases v with
  | none => simp [Condition.equal, Value.same_null]
  | some w => simp [Condition.equal, Value.same_str]

theorem condition_holds (searchIndexed : Bool) (r : Rule) (row : ConnectorRow) :
    r.condition.2.holds (candidates searchIndexed r.condition.1 (.obj row.doc)) =
      (r.metBy row || r.foundInArray searchIndexed row) := by
  have tried : r.condition.2.holds (candidates searchIndexed r.condition.1 (.obj row.doc)) =
      (candidates searchIndexed r.path (.obj row.doc)).any fun v =>
        r.values.any fun s => Condition.equal (.str s) v := by
    cases test : r.test with
    | eq value => simp [condition, test, Condition.holds, path, values]
    | isIn vs => simp [condition, test, Condition.holds, path, values, List.any_map, Function.comp_def]
  rw [tried]
  cases array : meetsArray r.path row.doc with
  | true => simp [foundInArray, array, not_metBy_of_meetsArray array]
  | false =>
      simp only [foundInArray, array, Bool.false_and, Bool.or_false]
      rw [Bool.eq_iff_iff, metBy_iff]
      simp only [List.any_eq_true, equal_str]
      constructor
      · rintro ⟨v, member, s, hs, rfl⟩
        exact ⟨s, hs,
          (mem_candidates_of_plain searchIndexed r.path row.doc s array r.path_ne_nil).mp member⟩
      · rintro ⟨s, hs, found⟩
        exact ⟨some (.str s),
          (mem_candidates_of_plain searchIndexed r.path row.doc s array r.path_ne_nil).mpr found,
          s, hs, rfl⟩

theorem sameOption_str (v : Option Value) (s : String) :
    Value.sameOption v (some (.str s)) = true ↔ v = some (.str s) := by
  cases v with
  | none => simp [Value.sameOption]
  | some w => simp [Value.sameOption, Value.same_str]

theorem compareOption_str (v : Option Value) (s : String) :
    Comparison.eq.holds (Value.compareOption v (some (.str s))) = true ↔ v = some (.str s) := by
  cases v with
  | none => simp [Value.compareOption, Comparison.holds]
  | some w =>
      have : Comparison.eq.holds (w.compare (.str s)) = w.same (.str s) := rfl
      simp [Value.compareOption, this, Value.same_str]

theorem eval_filter (server : Server) (r : Rule) (row : ConnectorRow) (env : Expr.Env) :
    (filterExpr r.filter).eval server row.doc env = .ok (some (.bool (r.metBy row))) := by
  have read : dataPath r.field.name = r.path := r.field.dataPath
  have field : (Expr.field r.path).eval server row.doc env = .ok (fieldPath r.path row.doc) := rfl
  have plain : ∀ v : Value, lit r.field.name v = .literal v := by
    intro v
    rw [lit, if_neg r.name_ne_connectorId]
  cases test : r.test with
  | eq value =>
      have met : r.metBy row = Comparison.eq.holds
          (Value.compareOption (fieldPath r.path row.doc) (some (.str value))) := by
        rw [Bool.eq_iff_iff, metBy_iff, compareOption_str, fieldPath_str]
        simp [values, test]
      simp only [filter, test, filterExpr, read, plain, met]
      exact Expr.eval_compare .eq field rfl
  | isIn vs =>
      have met : r.metBy row = (vs.map Value.str).any fun v =>
          Value.sameOption (fieldPath r.path row.doc) (some v) := by
        rw [Bool.eq_iff_iff, metBy_iff]
        simp [values, test, sameOption_str, fieldPath_str]
      have literals : (vs.map Value.str).map (lit r.field.name)
          = (vs.map Value.str).map Expr.literal := List.map_congr_left fun v _ => plain v
      simp only [filter, test, filterExpr, read, literals, met]
      exact Expr.eval_isIn_literals _ field

end Rule

/-! ## A scope over the aggregation -/

def RowScope.metBy (s : RowScope) (row : ConnectorRow) : Bool :=
  match s.rule with
  | .none => false
  | .filters rules => rules.all fun r => r.metBy row

def RowScope.governs (s : RowScope) (row : ConnectorRow) : Bool :=
  s.connectorId.objectId == row.connectorId

/-- The rows a scope permits: of a dataset that is not denied, and meeting every rule of their
dataset's row scope. -/
def AccessScope.permits (scope : AccessScope) (row : ConnectorRow) : Bool :=
  scope.bypass ||
    (!(scope.denied.any fun d => d.objectId == row.connectorId) &&
      scope.rowScopes.all fun s => !s.governs row || s.metBy row)

def AccessScope.rulePaths (scope : AccessScope) : List (List String) :=
  scope.rowScopes.flatMap fun s =>
    match s.rule with
    | .none => []
    | .filters rules => rules.map Rule.path

theorem RowScope.eval_expr (server : Server) (s : RowScope) (row : ConnectorRow)
    (env : Expr.Env) :
    s.expr.eval server row.doc env = .ok (some (.bool (!s.governs row || s.metBy row))) := by
  have other : Comparison.ne.holds (Value.compareOption (some (.oid row.connectorId))
      (some (.oid s.connectorId.objectId))) = !s.governs row := by
    have same : Comparison.ne.holds (Value.compareOption (some (.oid row.connectorId))
        (some (.oid s.connectorId.objectId)))
        = !(Value.oid row.connectorId).same (.oid s.connectorId.objectId) := rfl
    rw [same, governs]
    congr 1
    rw [Bool.eq_iff_iff, Value.same_oid, beq_iff_eq, Value.oid.injEq]
    exact eq_comm
  have field : (Expr.field ["connectorId"]).eval server row.doc env =
      .ok (some (.oid row.connectorId)) := by
    simp [Expr.eval, fieldPath]
  have elsewhere := Expr.eval_compare .ne field
    (b := .literal (.oid s.connectorId.objectId)) rfl
  rw [other] at elsewhere
  cases rule : s.rule with
  | none =>
      simp only [expr, rule, metBy]
      exact Expr.eval_or elsewhere rfl
  | filters rules =>
      simp only [expr, rule, metBy]
      exact Expr.eval_or elsewhere
        (Expr.eval_and_map fun r _ => Rule.eval_filter server r row env)

theorem test_noneOf (server : Server) (denied : List DatasetId) (row : ConnectorRow) :
    (Predicate.conditions [(["connectorId"], .noneOf (denied.map fun d => .oid d.objectId))]).test
        server row.doc =
      .ok (!(denied.any fun d => d.objectId == row.connectorId)) := by
  have tried : candidates server.searchIndexed ["connectorId"] (.obj row.doc)
      = [some (.oid row.connectorId)] := by
    simp [candidates, child, leaves]
  have equal : ∀ d : DatasetId, Condition.equal (.oid d.objectId) (some (.oid row.connectorId))
      = (d.objectId == row.connectorId) := by
    intro d
    rw [Condition.equal, Bool.eq_iff_iff, Value.same_oid, beq_iff_eq, Value.oid.injEq]
    exact eq_comm
  simp only [Predicate.test, Predicate.meets, List.all_cons, List.all_nil, Bool.and_true, tried,
    Condition.holds, List.any_cons, List.any_nil, Bool.or_false, List.any_map, Function.comp_def,
    equal]

theorem test_rowScopes (server : Server) (scopes : List RowScope) (row : ConnectorRow) :
    (Predicate.expr (.and (scopes.map RowScope.expr))).test server row.doc =
      .ok (scopes.all fun s => !s.governs row || s.metBy row) := by
  have value : (Expr.and (scopes.map RowScope.expr)).eval server row.doc [] = _ :=
    Expr.eval_and_map fun s (_ : s ∈ scopes) => RowScope.eval_expr server s row []
  simp only [Predicate.test, value]
  rfl

theorem run_accessStages (server : Server) (scope : AccessScope) (rows : List ConnectorRow) :
    runStages server (buildAccessStages (some scope)) (rows.map ConnectorRow.doc) =
      .ok ((rows.filter scope.permits).map ConnectorRow.doc) := by
  cases bypass : scope.bypass with
  | true =>
      have all : rows.filter scope.permits = rows :=
        List.filter_eq_self.mpr fun row _ => by simp [AccessScope.permits, bypass]
      simp only [buildAccessStages, bypass, if_true, all]
      rfl
  | false =>
      have denied := run_matching_unless (test_noneOf server scope.denied)
        (fun (none : scope.denied.isEmpty = true) row => by simp [List.isEmpty_iff.mp none])
      have rules := run_matching_unless (test_rowScopes server scope.rowScopes)
        (fun (none : scope.rowScopes.isEmpty = true) row => by simp [List.isEmpty_iff.mp none])
      have both : (rows.filter fun row => !(scope.denied.any fun d =>
            d.objectId == row.connectorId)).filter (fun row =>
            scope.rowScopes.all fun s => !s.governs row || s.metBy row)
          = rows.filter scope.permits := by
        rw [List.filter_filter]
        refine List.filter_congr fun row _ => ?_
        simp only [AccessScope.permits, bypass, Bool.false_or]
        exact Bool.and_comm _ _
      have stages : buildAccessStages (some scope) =
          (if scope.denied.isEmpty then [] else [Stage.matching (.conditions [(["connectorId"],
            .noneOf (scope.denied.map fun d => .oid d.objectId))])]) ++
          (if scope.rowScopes.isEmpty then []
            else [.matching (.expr (.and (scope.rowScopes.map RowScope.expr)))]) := by
        simp [buildAccessStages, bypass]
      rw [stages, runStages_append, denied, ← both]
      exact rules _

theorem filterExpr_rule_paths (r : Rule) : (filterExpr r.filter).paths = [r.path] := by
  have read : dataPath r.field.name = r.path := r.field.dataPath
  have literals : ∀ vs : List String,
      Expr.pathsAll ((vs.map Value.str).map (lit r.field.name)) = [] := by
    intro vs
    rw [Expr.pathsAll_map, List.flatMap_eq_nil_iff]
    intro v _
    rfl
  cases test : r.test with
  | eq value => simp [Rule.filter, test, filterExpr, Expr.paths, lit, read]
  | isIn vs => simp only [Rule.filter, test, filterExpr, Expr.paths, literals, read,
      List.append_nil]

theorem RowScope.wellFormed_expr (s : RowScope) :
    s.expr.wellFormed = (match s.rule with
      | .none => true
      | .filters rules => (rules.map Rule.path).all wellFormedPath) := by
  have own : wellFormedPath ["connectorId"] = true := rfl
  cases rule : s.rule with
  | none => simp [expr, rule, Expr.wellFormed, Expr.paths, Expr.pathsAll, own]
  | filters rules =>
      simp only [expr, rule, Expr.wellFormed, Expr.paths, Expr.pathsAll, Expr.pathsAll_map,
        filterExpr_rule_paths, List.append_nil, List.all_append, List.all_cons, List.all_nil, own,
        Bool.true_and, Bool.and_true, List.all_flatMap, List.all_map, Function.comp_def]

theorem wellFormed_accessStages (scope : AccessScope) :
    (buildAccessStages (some scope)).all Stage.wellFormed =
      (scope.bypass || scope.rulePaths.all wellFormedPath) := by
  have rules : (Expr.and (scope.rowScopes.map RowScope.expr)).wellFormed =
      scope.rulePaths.all wellFormedPath := by
    rw [Expr.wellFormed, Expr.paths, Expr.pathsAll_map, AccessScope.rulePaths, List.all_flatMap,
      List.all_flatMap]
    congr 1
    funext s
    have one := s.wellFormed_expr
    rw [Expr.wellFormed] at one
    rw [one]
    cases s.rule with
    | none => rfl
    | filters rules => rfl
  cases bypass : scope.bypass with
  | true => simp [buildAccessStages, bypass]
  | false =>
      have denied : (if scope.denied.isEmpty then [] else [Stage.matching (.conditions
          [(["connectorId"], .noneOf (scope.denied.map fun d => .oid d.objectId))])]).all
          Stage.wellFormed = true := by
        split
        · rfl
        · rfl
      cases empty : scope.rowScopes with
      | nil =>
          simp only [buildAccessStages, bypass, Bool.false_eq_true, if_false, List.all_append,
            denied, empty, List.isEmpty_nil, if_true, List.all_nil, Bool.and_true,
            AccessScope.rulePaths, List.flatMap_nil, Bool.false_or]
      | cons s rest =>
          rw [empty] at rules
          simp only [buildAccessStages, bypass, Bool.false_eq_true, if_false, List.all_append,
            denied, empty, List.isEmpty_cons, List.all_cons, List.all_nil, Bool.and_true,
            Stage.wellFormed, Predicate.wellFormed, rules, Bool.true_and, Bool.false_or]

/-! ## The two enforcers -/

/-- The row passes the aggregation stages of the scope. -/
def stagesAdmit (server : Server) (scope : AccessScope) (row : ConnectorRow) : Bool :=
  match aggregate server (buildAccessStages (some scope)) [row.doc] with
  | .ok docs => !docs.isEmpty
  | .error _ => false

/-- The raw listing of the dataset returns the row: the dataset is found for the actor and the
extra match, if there is one, holds. -/
def listingAdmits (server : Server) (scope : AccessScope) (connectorId : String)
    (row : ConnectorRow) : Bool :=
  match rowListMatch scope connectorId with
  | .error _ => false
  | .ok none => true
  | .ok (some p) =>
      match p.test server row.doc with
      | .ok found => found
      | .error _ => false

/-- Each rule of the row scope finds one of its values, directly or in an array. -/
def RowScope.finds (searchIndexed : Bool) (s : RowScope) (row : ConnectorRow) : Bool :=
  match s.rule with
  | .none => false
  | .filters rules => rules.all fun r => r.metBy row || r.foundInArray searchIndexed row

theorem stagesAdmit_eq (server : Server) (scope : AccessScope) (row : ConnectorRow) :
    stagesAdmit server scope row =
      ((scope.bypass || scope.rulePaths.all wellFormedPath) && scope.permits row) := by
  have run := run_accessStages server scope [row]
  simp only [List.map_cons, List.map_nil] at run
  unfold stagesAdmit aggregate
  rw [wellFormed_accessStages, run]
  cases scope.bypass || scope.rulePaths.all wellFormedPath with
  | false => rfl
  | true =>
      cases permitted : scope.permits row with
      | true => simp [permitted]
      | false => simp [permitted]

/-- The row scope a listing goes by: the one stored under the id as it was given. -/
def AccessScope.ownScope (scope : AccessScope) (connectorId : String) : Option RowScope :=
  scope.rowScopes.find? fun s => s.connectorId.text = connectorId

def RowScope.listMatch (s : RowScope) : Predicate :=
  match s.rule with
  | .none => noRow
  | .filters rules => .conditions (rules.map Rule.condition)

theorem RowScope.test_listMatch (server : Server) (s : RowScope) (row : ConnectorRow) :
    s.listMatch.test server row.doc = .ok (s.finds server.searchIndexed row) := by
  cases rule : s.rule with
  | none => simp [finds, listMatch, rule, noRow, Predicate.test, Predicate.meets, Condition.holds]
  | filters rules =>
      simp only [finds, listMatch, rule, Predicate.test, Predicate.meets, List.all_map,
        Function.comp_def, Rule.condition_holds]

theorem rowListMatch_eq (scope : AccessScope) (connectorId : String) :
    rowListMatch scope connectorId =
      if scope.bypass then .ok none
      else if (scope.denied.map DatasetId.text).contains connectorId then
        .error (ApiError.notFound "Dataset not found")
      else .ok ((scope.ownScope connectorId).map RowScope.listMatch) := by
  have queryable : scope.bypass = false → assertQueryable (some scope) [connectorId] =
      if (scope.denied.map DatasetId.text).contains connectorId then
        .error (ApiError.notFound "Dataset not found")
      else .ok () := by
    intro active
    cases denied : scope.denied with
    | nil => simp [assertQueryable, active, denied]
    | cons d others =>
        simp only [assertQueryable, active, denied, List.isEmpty_cons, Bool.false_eq_true,
          or_self, if_false, List.any_cons, List.any_nil, Bool.or_false]
  unfold rowListMatch AccessScope.ownScope
  cases bypass : scope.bypass with
  | true => simp [assertQueryable, bypass]
  | false =>
      rw [queryable bypass]
      cases (scope.denied.map DatasetId.text).contains connectorId with
      | true => rfl
      | false =>
          cases scope.rowScopes.find? fun s => s.connectorId.text = connectorId with
          | none => rfl
          | some s =>
              simp only [Option.map_some, RowScope.listMatch]
              cases s.rule with
              | none => rfl
              | filters rules => rfl

theorem listingAdmits_eq (server : Server) (scope : AccessScope) (connectorId : String)
    (row : ConnectorRow) :
    listingAdmits server scope connectorId row =
      (scope.bypass || (!(scope.denied.map DatasetId.text).contains connectorId &&
        (scope.ownScope connectorId).all fun s => s.finds server.searchIndexed row)) := by
  unfold listingAdmits
  rw [rowListMatch_eq]
  cases scope.bypass with
  | true => rfl
  | false =>
      cases (scope.denied.map DatasetId.text).contains connectorId with
      | true => rfl
      | false =>
          cases scope.ownScope connectorId with
          | none => rfl
          | some s =>
              simp only [Bool.false_eq_true, if_false, Option.map_some, RowScope.test_listMatch,
                Option.all_some, Bool.not_false, Bool.true_and, Bool.false_or]

/-- When the two enforcers agree on a row of dataset `d`. The scope bypasses, or both refuse
the row (the dataset is denied as it is spelled, or a rule of its row scope finds its value
nowhere in the row); or else every rule path of the scope is well formed, no spelling of the
dataset is denied, and the row scopes of every spelling are met without looking into arrays. -/
def EnforcersAgree (searchIndexed : Bool) (scope : AccessScope) (d : DatasetId)
    (row : ConnectorRow) : Prop :=
  scope.bypass = true ∨ d ∈ scope.denied ∨
    (∃ s ∈ scope.rowScopes, s.connectorId = d ∧ s.finds searchIndexed row = false) ∨
    ((∀ path ∈ scope.rulePaths, wellFormedPath path = true) ∧
      (∀ e ∈ scope.denied, e.objectId ≠ d.objectId) ∧
      ∀ s ∈ scope.rowScopes, s.connectorId.objectId = d.objectId → s.metBy row = true)

theorem DatasetId.eq_of_text {d e : DatasetId} (h : d.text = e.text) : d = e := by
  cases d
  cases e
  simp only at h
  subst h
  rfl

theorem denied_contains (scope : AccessScope) (d : DatasetId) :
    (scope.denied.map DatasetId.text).contains d.text = true ↔ d ∈ scope.denied := by
  rw [List.contains_iff_mem, List.mem_map]
  constructor
  · rintro ⟨e, member, same⟩
    exact DatasetId.eq_of_text same ▸ member
  · intro member
    exact ⟨d, member, rfl⟩

theorem ownScope_eq_some {scope : AccessScope} {d : DatasetId} {s : RowScope}
    (member : s ∈ scope.rowScopes) (own : s.connectorId = d) :
    scope.ownScope d.text = some s := by
  have unique : ∀ scopes : List RowScope, (scopes.map RowScope.connectorId).Nodup →
      s ∈ scopes → (scopes.find? fun t => t.connectorId.text = d.text) = some s := by
    intro scopes
    induction scopes with
    | nil => intro _ h; exact absurd h List.not_mem_nil
    | cons t rest ih =>
        intro distinct h
        rw [List.map_cons, List.nodup_cons] at distinct
        rcases List.mem_cons.mp h with rfl | later
        · simp [own]
        · have other : t.connectorId.text ≠ d.text := by
            intro same
            have : t.connectorId = s.connectorId := by
              rw [own]
              exact DatasetId.eq_of_text same
            exact distinct.1 (this ▸ List.mem_map_of_mem later)
          rw [List.find?_cons_of_neg (by simpa using other)]
          exact ih distinct.2 later
  exact unique scope.rowScopes scope.distinct member

theorem ownScope_mem {scope : AccessScope} {d : DatasetId} {s : RowScope}
    (h : scope.ownScope d.text = some s) : s ∈ scope.rowScopes ∧ s.connectorId = d :=
  ⟨List.mem_of_find?_eq_some h,
    DatasetId.eq_of_text (by simpa using List.find?_some h)⟩

theorem RowScope.finds_of_metBy {searchIndexed : Bool} {s : RowScope} {row : ConnectorRow}
    (h : s.metBy row = true) : s.finds searchIndexed row = true := by
  cases rule : s.rule with
  | none => simp [metBy, rule] at h
  | filters rules =>
      simp only [metBy, rule, List.all_eq_true] at h
      simp only [finds, rule, List.all_eq_true, Bool.or_eq_true]
      exact fun r member => .inl (h r member)

theorem permits_iff {scope : AccessScope} {d : DatasetId} {row : ConnectorRow}
    (of : row.connectorId = d.objectId) (active : scope.bypass = false) :
    scope.permits row = true ↔
      (∀ e ∈ scope.denied, e.objectId ≠ d.objectId) ∧
        ∀ s ∈ scope.rowScopes, s.connectorId.objectId = d.objectId → s.metBy row = true := by
  simp only [AccessScope.permits, active, Bool.false_or, Bool.and_eq_true, Bool.not_eq_true',
    List.any_eq_false, beq_iff_eq, List.all_eq_true, Bool.or_eq_true, RowScope.governs, of]
  constructor
  · rintro ⟨allowed, met⟩
    refine ⟨allowed, fun s member spelled => ?_⟩
    rcases met s member with other | here
    · exact absurd spelled (by simpa using other)
    · exact here
  · rintro ⟨allowed, met⟩
    refine ⟨allowed, fun s member => ?_⟩
    by_cases spelled : s.connectorId.objectId = d.objectId
    · exact .inr (met s member spelled)
    · exact .inl (by simpa using spelled)

/-- The raw listing and the aggregation admit a row of a dataset alike exactly when
`EnforcersAgree`. -/
theorem enforcers_agree_iff (server : Server) (scope : AccessScope) (d : DatasetId)
    (row : ConnectorRow) (of : row.connectorId = d.objectId) :
    listingAdmits server scope d.text row = stagesAdmit server scope row ↔
      EnforcersAgree server.searchIndexed scope d row := by
  rw [listingAdmits_eq, stagesAdmit_eq]
  cases bypass : scope.bypass with
  | true => simp [EnforcersAgree, bypass, AccessScope.permits]
  | false =>
      simp only [Bool.false_or]
      by_cases denied : d ∈ scope.denied
      · -- Both refuse a dataset that is denied as it is spelled.
        have refused : scope.permits row = false := by
          rw [Bool.eq_false_iff]
          intro permitted
          exact ((permits_iff of bypass).mp permitted).1 d denied rfl
        simp only [(denied_contains scope d).mpr denied, refused, Bool.not_true, Bool.false_and,
          Bool.and_false, true_iff]
        exact .inr (.inl denied)
      · have listed : (scope.denied.map DatasetId.text).contains d.text = false :=
          Bool.eq_false_iff.mpr fun h => denied ((denied_contains scope d).mp h)
        simp only [listed, Bool.not_false, Bool.true_and]
        cases found : (scope.ownScope d.text).all fun s => s.finds server.searchIndexed row with
        | false =>
            -- The listing refuses; the aggregation asks more.
            cases own : scope.ownScope d.text with
            | none => simp [own] at found
            | some s =>
                rw [own, Option.all_some] at found
                obtain ⟨member, spelled⟩ := ownScope_mem own
                have refused : scope.permits row = false := by
                  rw [Bool.eq_false_iff]
                  intro permitted
                  have met := ((permits_iff of bypass).mp permitted).2 s member (by rw [spelled])
                  rw [RowScope.finds_of_metBy met] at found
                  exact absurd found (by simp)
                simp only [refused, Bool.and_false, true_iff]
                exact .inr (.inr (.inl ⟨s, member, spelled, found⟩))
        | true =>
            have noRefusal : ¬ ∃ s ∈ scope.rowScopes, s.connectorId = d ∧
                s.finds server.searchIndexed row = false := by
              rintro ⟨s, member, spelled, missed⟩
              rw [ownScope_eq_some member spelled, Option.all_some, missed] at found
              exact absurd found (by simp)
            rw [eq_comm, Bool.and_eq_true, List.all_eq_true, permits_iff of bypass]
            simp only [EnforcersAgree, bypass, Bool.false_eq_true, denied, noRefusal, false_or]

/-! ### A rule `region = eu` -/

def euDataset : DatasetId where
  text := "64b7f0c2a1d3e4f5a6b7c8d9"
  hex := by decide

def euRule : Rule where
  field := { name := "region", safe := by decide, unreserved := by decide }
  test := .eq "eu"

def euScope : AccessScope where
  bypass := false
  denied := []
  hidden := []
  rowScopes := [{ connectorId := euDataset, rule := .filters [euRule] }]
  distinct := List.nodup_singleton _

/-- A row of the dataset with this value in its `region` column. -/
def regionRow (region : Value) : ConnectorRow where
  id := ⟨1⟩
  tenantId := "t1"
  connectorId := euDataset.objectId
  sourceRowId := "1"
  data := .obj [("region", region)]
  ingestedAt := 0
  deletedAt := none

theorem enforcers_agree_on_string :
    listingAdmits Server.plain euScope euDataset.text (regionRow (.str "eu")) =
      stagesAdmit Server.plain euScope (regionRow (.str "eu")) := by
  refine (enforcers_agree_iff Server.plain euScope euDataset _ rfl).mpr (.inr (.inr (.inr ?_)))
  refine ⟨by decide, fun e member => absurd member List.not_mem_nil, fun s member _ => ?_⟩
  obtain rfl := List.mem_singleton.mp member
  decide

/-- A row whose column holds an array with the value is listed and not queried. -/
theorem array_listed_not_queried :
    listingAdmits Server.plain euScope euDataset.text (regionRow (.arr [.str "eu", .str "us"])) =
        true ∧
      stagesAdmit Server.plain euScope (regionRow (.arr [.str "eu", .str "us"])) = false := by
  constructor
  · decide
  · decide

end AnalyticsBackend.Analytics
