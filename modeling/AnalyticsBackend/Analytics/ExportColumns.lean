import AnalyticsBackend.Analytics.RowSecurity
import AnalyticsBackend.Lib.Mongo.Grouping
import AnalyticsBackend.Lib.Sorted

/-!
# The columns of a raw export

A raw row stream reports its columns before its first row: the data keys of the matching rows
that are not credential-like. The database sorts the keys and cuts the list before the
credential-like ones are taken out of it and the rest is counted.
-/

namespace AnalyticsBackend.Analytics

open Lib Lib.Mongo

/-! ## The key list -/

theorem typeName_object (v : Value) : v.typeName = "object" ↔ ∃ fields, v = .obj fields := by
  cases v with
  | obj fields => simp [Value.typeName]
  | num n => cases type : n.type <;> simp [Value.typeName, type]
  | null | bool | str | date | oid | arr => simp [Value.typeName]

/-- The first stage keeps of a row the names in its data. -/
theorem run_projectKeys (server : Server) (docs : List Doc) :
    mapDocs (projectDoc server [("_id", .exclude), ("k", .computed (.keys (.cond
        (.compare .eq (.type (.field ["data"])) (.literal (.str "object"))) (.field ["data"])
        (.document []))))]) docs =
      .ok (docs.map fun doc => [("k", .arr ((dataKeys doc).map .str))]) := by
  induction docs with
  | nil => rfl
  | cons doc rest ih =>
      have kept (doc : Doc) (e : Expr) :
          projectKept [("_id", .exclude), ("k", .computed e)] doc = [] := by
        refine List.filter_eq_nil_iff.mpr fun entry _ => ?_
        by_cases id : entry.1 = "_id"
        · simp [id]
        · by_cases k : entry.1 = "k"
          · simp [List.lookup_cons, k]
          · simp [List.lookup_cons, id, k, beq_false_of_ne]
      have one : projectDoc server [("_id", .exclude), ("k", .computed (.keys (.cond
          (.compare .eq (.type (.field ["data"])) (.literal (.str "object"))) (.field ["data"])
          (.document []))))] doc = .ok [("k", .arr ((dataKeys doc).map .str))] := by
        rw [projectDoc, kept]
        cases data : Doc.get doc "data" with
        | none =>
            simp [projectComputed, Expr.evalFields, Expr.eval, fieldPath, data, dataKeys,
              Comparison.holds, Value.compareOption, Value.compare, truthy]
        | some v =>
            by_cases object : ∃ fields, v = .obj fields
            · obtain ⟨fields, rfl⟩ := object
              simp [projectComputed, Expr.evalFields, Expr.eval, fieldPath, data, dataKeys,
                Comparison.holds, Value.compareOption, Value.compare, truthy, Value.typeName]
            · have other : v.typeName ≠ "object" := fun is => object ((typeName_object v).mp is)
              have keys : dataKeys doc = [] := by
                cases v with
                | obj fields => exact absurd ⟨fields, rfl⟩ object
                | null | bool | num | str | date | oid | arr => simp [dataKeys, data]
              simp [projectComputed, Expr.evalFields, Expr.eval, fieldPath, data, keys,
                Comparison.holds, Value.compareOption, Value.compare, truthy, other]
      rw [mapDocs, one, ih]
      rfl

theorem groupRows_field (server : Server) (name : String) (names : List String) :
    groupRows server (.field [name]) [] (names.map fun s => [(name, .str s)]) =
      .ok (names.map fun s => (.str s, [])) := by
  induction names with
  | nil => rfl
  | cons s rest ih =>
      rw [List.map_cons, groupRows, ih]
      simp [groupRow, Expr.eval, Expr.evalAll, fieldPath, Doc.get]

theorem run_keyStages (server : Server) (maxColumns : Nat) (docs : List Doc) :
    ∃ sorted : List String, sorted.Pairwise (· < ·) ∧
      (∀ s, s ∈ sorted ↔ s ∈ docs.flatMap dataKeys) ∧
      runStages server (keyStages maxColumns) docs =
        .ok ((sorted.take (maxColumns + 1)).map fun s => [("_id", .str s)]) := by
  have unwound : (docs.map fun doc => [("k", .arr ((dataKeys doc).map .str))]).flatMap
      (unwindDoc "k") = (docs.flatMap dataKeys).map fun s => [("k", .str s)] := by
    rw [List.flatMap_map, List.map_flatMap]
    refine List.flatMap_congr fun doc _ => ?_
    simp [unwindDoc, Doc.get, Doc.set, Function.comp_def]
  obtain ⟨keys, nodup, same, are⟩ := keys_collectGroups (f := Value.str) (r := fun _ => [])
    (fun s t => (Value.same_str _ t).trans ⟨fun is => Value.str.inj is, congrArg _⟩)
    (arrange server (docs.flatMap dataKeys))
  have grouped : groupDocs server (.field ["k"]) []
      ((docs.flatMap dataKeys).map fun s => [("k", .str s)]) =
        .ok (keys.map fun s => [("_id", .str s)]) := by
    simp only [groupDocs, arrange_map, List.map_nil, groupRows_field, ok_bind, finishAll]
    congr 1
    have made : (keys.map Value.str).map (fun v => [("_id", v)]) =
        keys.map fun s => [("_id", .str s)] := by
      rw [List.map_map]
      rfl
    rw [← made, ← are, List.map_map]
    rfl
  obtain ⟨sorted, ascending, all, sorts⟩ := sortDocs_names server "_id" nodup
  refine ⟨sorted, ascending, fun s => ?_, ?_⟩
  · rw [all, same, (perm_arrange _).mem_iff]
  · simp only [keyStages, runStages, Stage.run, run_projectKeys, ok_bind, unwound, grouped, sorts,
      List.map_take]

theorem keyStages_wellFormed (maxColumns : Nat) :
    (keyStages maxColumns).all Stage.wellFormed = true := by
  simp [keyStages, Stage.wellFormed, projectComputed, Expr.wellFormed, Expr.paths, Expr.pathsFields,
    wellFormedPath]

theorem shownKeys_names (names : List String) :
    shownKeys (names.map fun s => [("_id", .str s)]) =
      names.filter fun s => isSensitiveFieldName s = false := by
  induction names with
  | nil => rfl
  | cons s rest ih =>
      cases sensitive : isSensitiveFieldName s with
      | true => simpa [shownKeys, Doc.get, sensitive] using ih
      | false => simpa [shownKeys, Doc.get, sensitive] using ih

/-! ## Every column or none -/

def exportable (keys : List String) : Finset String :=
  keys.toFinset.filter fun k => isSensitiveFieldName k = false

/-- The stream has every key that may be shown as a column, once and in order, or is refused
because there are too many. -/
structure EveryColumn (maxColumns : Nat) (keys : List String)
    (outcome : Except EngineError RowStream) : Prop where
  listed : (exportable keys).card ≤ maxColumns → ∃ stream, outcome = .ok stream ∧
    stream.columns.Pairwise (· < ·) ∧ stream.columns.toFinset = exportable keys
  refused : maxColumns < (exportable keys).card →
    ∃ e, outcome = .error (.api e) ∧ e.code = .tooManyColumns

/-- The key is among the first `maxColumns + 1` in order. -/
def Early (maxColumns : Nat) (keys : List String) (k : String) : Prop :=
  (keys.toFinset.filter (· < k)).card < maxColumns + 1

instance (maxColumns : Nat) (keys : List String) (k : String) :
    Decidable (Early maxColumns keys k) :=
  inferInstanceAs (Decidable (_ < _))

/-- A raw query that was prepared for export and whose rows the database has found. -/
structure RawExport (server : Server) (rt : Runtime) (ws : Workspace) (store : List ConnectorRow)
    (raw : EngineOptions) (found : List Doc) where
  p : Prepared
  unpaged : isUndefined (field raw.entries "pagination") = true
  prepared : prepareQuery rt ws raw = .ok p
  alone : p.options.compare = none
  raw_mode : p.options.groupMode = false
  answered : aggregate server p.options.selection (storeDocs store) = .ok found

variable {server : Server} {rt : Runtime} {ws : Workspace} {store : List ConnectorRow}
  {raw : EngineOptions} {found : List Doc}

theorem ok_of_aggregate {lead : List Stage} {docs out : List Doc}
    (answered : aggregate server lead docs = .ok out) (rest : List Stage)
    (formed : rest.all Stage.wellFormed = true) :
    aggregate server (lead ++ rest) docs = runStages server rest out := by
  unfold aggregate at answered ⊢
  by_cases leading : lead.all Stage.wellFormed = true
  · rw [if_pos leading] at answered
    rw [List.all_append, leading, formed, runStages_append, answered]
    rfl
  · rw [if_neg leading] at answered
    exact nomatch answered

theorem RawExport.openRowStream_eq (query : RawExport server rt ws store raw found)
    (maxColumns : Nat) :
    ∃ sorted : List String, sorted.Pairwise (· < ·) ∧
      (∀ s, s ∈ sorted ↔ s ∈ found.flatMap dataKeys) ∧
      let shown := (sorted.take (maxColumns + 1)).filter fun s => isSensitiveFieldName s = false
      (maxColumns < shown.length → ∃ e,
        openRowStream server rt ws store raw maxColumns = .error (.api e) ∧
          e.code = .tooManyColumns) ∧
      (shown.length ≤ maxColumns → ∃ stream,
        openRowStream server rt ws store raw maxColumns = .ok stream ∧ stream.columns = shown) := by
  obtain ⟨sorted, ascending, same, ran⟩ := run_keyStages server maxColumns found
  refine ⟨sorted, ascending, same, ?_⟩
  have keys := ok_of_aggregate query.answered _ (keyStages_wellFormed maxColumns)
  rw [ran] at keys
  have built : buildQueryStages query.p.options query.p.defs = .ok
      { groupMode := false, lead := query.p.options.selection, group := []
        rowStages := buildRawStages query.p.options.orderBy } := by
    rw [buildQueryStages, if_neg (by simp [query.raw_mode])]
  have opened : openRowStream server rt ws store raw maxColumns =
      streamPrepared server rt store query.p maxColumns := by
    rw [openRowStream, if_pos query.unpaged, query.prepared]
    rfl
  rw [opened, streamPrepared, if_neg (by simp [query.alone]), built]
  simp only [liftApi, ok_bind, streamColumns, query.raw_mode, Bool.false_eq_true, if_false, keys,
    liftServer, shownKeys_names]
  constructor
  · intro many
    rw [if_pos many]
    exact ⟨_, rfl, rfl⟩
  · intro few
    rw [if_neg (not_lt.mpr few)]
    exact ⟨_, rfl, rfl⟩

section Cut

variable {maxColumns : Nat} {keys sorted : List String} {outcome : Except EngineError RowStream}

/-- With the columns taken from a cut list, every column is there or the export refused exactly
when the cut loses no column and hides no excess. -/
theorem everyColumn_of_cut (ascending : sorted.Pairwise (· < ·)) (same : ∀ s, s ∈ sorted ↔ s ∈ keys)
    (many : maxColumns <
        ((sorted.take (maxColumns + 1)).filter fun s => isSensitiveFieldName s = false).length →
      ∃ e, outcome = .error (.api e) ∧ e.code = .tooManyColumns)
    (few : ((sorted.take (maxColumns + 1)).filter fun s =>
        isSensitiveFieldName s = false).length ≤ maxColumns →
      ∃ stream, outcome = .ok stream ∧ stream.columns =
        (sorted.take (maxColumns + 1)).filter fun s => isSensitiveFieldName s = false) :
    EveryColumn maxColumns keys outcome ↔
      ((sorted.filter fun s => isSensitiveFieldName s = false).length ≤ maxColumns →
        ((sorted.take (maxColumns + 1)).filter fun s => isSensitiveFieldName s = false) =
          sorted.filter fun s => isSensitiveFieldName s = false) ∧
      (maxColumns < (sorted.filter fun s => isSensitiveFieldName s = false).length →
        maxColumns <
          ((sorted.take (maxColumns + 1)).filter fun s => isSensitiveFieldName s = false).length) := by
  have distinct : sorted.Nodup := ascending.imp fun less => ne_of_lt less
  have all : (sorted.filter fun k => isSensitiveFieldName k = false).toFinset = exportable keys := by
    ext k
    simp [exportable, same]
  have size : (exportable keys).card =
      (sorted.filter fun k => isSensitiveFieldName k = false).length := by
    rw [← all, List.toFinset_card_of_nodup (distinct.filter _)]
  have part : ((sorted.take (maxColumns + 1)).filter fun s => isSensitiveFieldName s = false).Sublist
      (sorted.filter fun s => isSensitiveFieldName s = false) := (List.take_sublist ..).filter _
  constructor
  · rintro ⟨listed, refused⟩
    rw [size] at listed refused
    constructor
    · intro fits
      obtain ⟨stream, is, -, columns⟩ := listed fits
      obtain ⟨stream', is', shown⟩ := few (part.length_le.trans fits)
      obtain rfl : stream = stream' := Except.ok.inj (is.symm.trans is')
      refine part.eq_of_length ?_
      rw [← size, ← columns, shown, List.toFinset_card_of_nodup ((distinct.filter _).sublist part)]
    · intro tooMany
      obtain ⟨e, failed, -⟩ := refused tooMany
      by_contra fits
      obtain ⟨stream, is, -⟩ := few (not_lt.mp fits)
      exact nomatch failed.symm.trans is
  · rintro ⟨kept, hidden⟩
    constructor
    · intro fits
      rw [size] at fits
      obtain ⟨stream, is, shown⟩ := few (part.length_le.trans fits)
      rw [kept fits] at shown
      exact ⟨stream, is, shown ▸ ascending.filter _, by rw [shown, all]⟩
    · intro tooMany
      rw [size] at tooMany
      exact many (hidden tooMany)

theorem early_iff (ascending : sorted.Pairwise (· < ·)) (same : ∀ s, s ∈ sorted ↔ s ∈ keys)
    (k : String) : k ∈ keys ∧ Early maxColumns keys k ↔ k ∈ sorted.take (maxColumns + 1) := by
  have listed : sorted.toFinset = keys.toFinset := by
    ext k
    rw [List.mem_toFinset, List.mem_toFinset, same]
  rw [Early, mem_take_ascending ascending, listed, same]

theorem late_iff (ascending : sorted.Pairwise (· < ·)) (same : ∀ s, s ∈ sorted ↔ s ∈ keys)
    (k : String) : k ∈ keys ∧ ¬ Early maxColumns keys k ↔ k ∈ sorted.drop (maxColumns + 1) := by
  have distinct : sorted.Nodup := ascending.imp fun less => ne_of_lt less
  have parts : k ∈ sorted.take (maxColumns + 1) ∨ k ∈ sorted.drop (maxColumns + 1) ↔
      k ∈ sorted := by
    rw [← List.mem_append, List.take_append_drop]
  have apart := List.disjoint_take_drop distinct (le_refl (maxColumns + 1))
  constructor
  · rintro ⟨mem, late⟩
    refine (parts.mpr ((same k).mpr mem)).resolve_left fun first => late ?_
    exact ((early_iff ascending same k).mpr first).2
  · intro mem
    refine ⟨(same k).mp (parts.mp (.inr mem)), fun early => apart ?_ mem⟩
    exact (early_iff ascending same k).mp ⟨(same k).mp (parts.mp (.inr mem)), early⟩

end Cut

/-- An export has every column or is refused exactly when no credential-like key is among the
first `maxColumns + 1`, or every later key is credential-like. -/
theorem everyColumn_iff (query : RawExport server rt ws store raw found) (maxColumns : Nat) :
    EveryColumn maxColumns (found.flatMap dataKeys)
        (openRowStream server rt ws store raw maxColumns) ↔
      (∀ k ∈ found.flatMap dataKeys, Early maxColumns (found.flatMap dataKeys) k →
          isSensitiveFieldName k = false) ∨
        ∀ k ∈ found.flatMap dataKeys, ¬ Early maxColumns (found.flatMap dataKeys) k →
          isSensitiveFieldName k = true := by
  obtain ⟨sorted, ascending, same, many, few⟩ := query.openRowStream_eq maxColumns
  rw [everyColumn_of_cut ascending same many few, filter_cut_iff]
  simp only [decide_eq_true_iff, decide_eq_false_iff_not, Bool.not_eq_false,
    ← early_iff ascending same, ← late_iff ascending same, and_imp]

/-! ## An access token in front -/

/-- A query of tenant `t1` for all the rows of a dataset. -/
def allQuery : EngineOptions where
  entries := [("tenantId", .str "t1"), ("connectorIds", .arr [.str euDataset.text])]
  access := some .unrestricted

def allPrepared : Prepared where
  options :=
    { tenantId := "t1", timezone := "UTC", filterGroups := [], access := some .unrestricted
      connectorIds := [euDataset.text], filters := [], filtersOp := .and, dateRange := none, metrics := []
      groupBy := [], orderBy := [], pagination := { page := none, limit := none }
      compare := none }
  window := none
  timezone := "UTC"
  defs := []

/-- A row with a credential-like column before its two others. -/
def tokenRow : ConnectorRow :=
  { regionRow .null with
    data := .obj [("zone", .str "north"), ("accessToken", .str "x"), ("region", .str "eu")] }

def tokenExport : RawExport .plain .plain bareWorkspace [tokenRow] allQuery [tokenRow.doc] where
  p := allPrepared
  unpaged := rfl
  prepared := rfl
  alone := rfl
  raw_mode := rfl
  answered := rfl

/-- With room for all three keys the export has its two columns. -/
theorem tokenExport_complete : EveryColumn 2 ["zone", "accessToken", "region"]
    (openRowStream .plain .plain bareWorkspace [tokenRow] allQuery 2) :=
  (everyColumn_iff tokenExport 2).mpr (.inr (by decide +kernel))

/-- With room for one column it leaves `zone` out: the token took its place among the two keys
that were counted. -/
theorem tokenExport_incomplete : ¬ ∀ (server : Server) (rt : Runtime) (ws : Workspace)
    (store : List ConnectorRow) (raw : EngineOptions) (found : List Doc),
    RawExport server rt ws store raw found → ∀ maxColumns,
      EveryColumn maxColumns (found.flatMap dataKeys)
        (openRowStream server rt ws store raw maxColumns) := by
  intro complete
  have every := complete _ _ _ _ _ _ tokenExport 1
  obtain ⟨sorted, ascending, same, many, few⟩ := tokenExport.openRowStream_eq 1
  rw [everyColumn_of_cut ascending same many few, filter_cut_iff] at every
  simp only [decide_eq_true_iff, decide_eq_false_iff_not, Bool.not_eq_false,
    ← early_iff ascending same, ← late_iff ascending same, and_imp] at every
  revert every
  decide +kernel

end AnalyticsBackend.Analytics
