import AnalyticsBackend.Connectors.SourceRow
import AnalyticsBackend.Lib.JsOrder
import Mathlib.Data.List.Induction
import Mathlib.Data.Rat.Encodable

/-!
# The identity of rows

Without an id field, a row is known by a digest of its record. The text that is digested says what
`forget` leaves of the record: dates and the classes of driver values are lost, and a number that is
not finite reads as null. Records that differ in nothing else are merged into one row.
-/

namespace AnalyticsBackend.Connectors
open Lib

/-! ## Content -/

mutual

/-- A value with the keys in order, at every level. -/
def SourceValue.sorted : SourceValue → SourceValue
  | .arr items => .arr (sortedItems items)
  | .obj fields => .obj ((sortedFields fields).insertionSort fun a b => keyBefore a b)
  | .driver className internal fields =>
      .driver className internal ((sortedFields fields).insertionSort fun a b => keyBefore a b)
  | v => v

def sortedItems : List SourceValue → List SourceValue
  | [] => []
  | item :: rest => item.sorted :: sortedItems rest

def sortedFields : List (String × SourceValue) → List (String × SourceValue)
  | [] => []
  | (k, v) :: rest => (k, v.sorted) :: sortedFields rest

end

/-- The same content: nothing differs but the order of keys. -/
def SameContent (v w : SourceValue) : Prop := v.sorted = w.sorted

mutual

/-- What a text says of a value: a date is an object without properties, a value of the driver an
object with its own properties, and a number that is not finite is null. -/
def SourceValue.forget : SourceValue → Json
  | .null => .null
  | .bool b => .bool b
  | .num (.finite q) => .num q
  | .num _ => .null
  | .str s => .str s
  | .arr items => .arr (forgetItems items)
  | .date _ => .obj []
  | .obj fields => .obj (forgetFields fields)
  | .driver _ _ fields => .obj (forgetFields fields)

def forgetItems : List SourceValue → List Json
  | [] => []
  | item :: rest => item.forget :: forgetItems rest

def forgetFields : List (String × SourceValue) → List (String × Json)
  | [] => []
  | (k, v) :: rest => (k, v.forget) :: forgetFields rest

end

theorem sortedItems_eq (items : List SourceValue) :
    sortedItems items = items.map SourceValue.sorted := by
  induction items with
  | nil => rfl
  | cons item rest ih => rw [sortedItems, ih, List.map_cons]

theorem sortedFields_eq (fields : List (String × SourceValue)) :
    sortedFields fields = fields.map fun e => (e.1, e.2.sorted) := by
  induction fields with
  | nil => rfl
  | cons e rest ih => rw [sortedFields, ih, List.map_cons]

theorem forgetItems_eq (items : List SourceValue) :
    forgetItems items = items.map SourceValue.forget := by
  induction items with
  | nil => rfl
  | cons item rest ih => rw [forgetItems, ih, List.map_cons]

theorem forgetFields_eq (fields : List (String × SourceValue)) :
    forgetFields fields = fields.map fun e => (e.1, e.2.forget) := by
  induction fields with
  | nil => rfl
  | cons e rest ih => rw [forgetFields, ih, List.map_cons]

theorem stableItems_eq (fmt : NumberFormat) (items : List SourceValue) :
    stableItems fmt items = items.map (stableStringify fmt) := by
  induction items with
  | nil => rfl
  | cons item rest ih => rw [stableItems, ih, List.map_cons]

theorem stableFields_eq (fmt : NumberFormat) (fields : List (String × SourceValue)) :
    stableFields fmt fields = fields.map fun e => (e.1, stableStringify fmt e.2) := by
  induction fields with
  | nil => rfl
  | cons e rest ih => rw [stableFields, ih, List.map_cons]

theorem map_sort {A B : Type} (f : A → B) (entries : List (String × A)) :
    (entries.insertionSort fun a b => keyBefore a b).map (fun e => (e.1, f e.2)) =
      (entries.map fun e => (e.1, f e.2)).insertionSort fun a b => keyBefore a b :=
  List.map_insertionSort _ _ _ _ fun _ _ _ _ => Iff.rfl

theorem objectText_eq (fmt : NumberFormat) {fields : List (String × SourceValue)}
    (texts : ∀ e ∈ fields, stableStringify fmt e.2 = e.2.sorted.forget.render fmt) :
    objectText (stableFields fmt fields) =
      (Json.obj (forgetFields ((sortedFields fields).insertionSort fun a b => keyBefore a b))).render
        fmt := by
  have entries : stableFields fmt fields =
      (sortedFields fields).map fun e => (e.1, e.2.forget.render fmt) := by
    rw [stableFields_eq, sortedFields_eq, List.map_map]
    refine List.map_congr_left fun e mem => ?_
    rw [texts e mem]
    rfl
  rw [objectText, entries, ← map_sort (fun v : SourceValue => v.forget.render fmt), Json.render,
    Json.renderFields_eq, forgetFields_eq, List.map_map, List.map_map]
  rfl

mutual

theorem stableStringify_eq (fmt : NumberFormat) :
    (v : SourceValue) → stableStringify fmt v = v.sorted.forget.render fmt
  | .null => rfl
  | .bool _ => rfl
  | .num (.finite _) => rfl
  | .num .nan => rfl
  | .num .negInf => rfl
  | .num .posInf => rfl
  | .str _ => rfl
  | .date _ => rfl
  | .arr items => by
      rw [stableStringify, SourceValue.sorted, SourceValue.forget, Json.render, Json.renderItems_eq,
        stableItems_eq, forgetItems_eq, sortedItems_eq, List.map_map, List.map_map]
      rw [List.map_congr_left (stableStringify_items fmt items)]
      rfl
  | .obj fields => by
      rw [stableStringify, SourceValue.sorted, SourceValue.forget]
      exact objectText_eq fmt (stableStringify_fields fmt fields)
  | .driver _ _ fields => by
      rw [stableStringify, SourceValue.sorted, SourceValue.forget]
      exact objectText_eq fmt (stableStringify_fields fmt fields)

theorem stableStringify_items (fmt : NumberFormat) : (items : List SourceValue) →
    ∀ v ∈ items, stableStringify fmt v = v.sorted.forget.render fmt
  | [], _, mem => absurd mem List.not_mem_nil
  | v :: rest, w, mem => by
      rcases List.mem_cons.mp mem with same | later
      · rw [same]
        exact stableStringify_eq fmt v
      · exact stableStringify_items fmt rest w later

theorem stableStringify_fields (fmt : NumberFormat) : (fields : List (String × SourceValue)) →
    ∀ e ∈ fields, stableStringify fmt e.2 = e.2.sorted.forget.render fmt
  | [], _, mem => absurd mem List.not_mem_nil
  | (_, v) :: rest, w, mem => by
      rcases List.mem_cons.mp mem with same | later
      · rw [same]
        exact stableStringify_eq fmt v
      · exact stableStringify_fields fmt rest w later

end

/-- Two texts are the same when what they say is. -/
theorem stableStringify_inj (fmt : NumberFormat) {v w : SourceValue} :
    stableStringify fmt v = stableStringify fmt w ↔ v.sorted.forget = w.sorted.forget := by
  rw [stableStringify_eq, stableStringify_eq]
  exact (Json.render_injective fmt).eq_iff

/-! ## The rows after a sync -/

section Rows

variable {D : Type}

def rowOf (node : Node) (mapRecord : SourceValue → D × List FieldError) (record : SourceValue) :
    SourceRow D :=
  ⟨deriveSourceRowId node record none, (mapRecord record).1⟩

/-- Rows that are upserted one by one. -/
def stored (rows : List (SourceRow D)) (batch : List (SourceRow D)) : List (SourceRow D) :=
  batch.foldl (fun rows row => (upsertRow rows row).1) rows

theorem rows_flush (result : Ingested D) (batch : List (SourceRow D)) :
    (flush result batch).rows = stored result.rows batch := by
  induction batch generalizing result with
  | nil => rfl
  | cons row batch ih =>
      unfold flush stored at ih ⊢
      rw [List.foldl_cons, List.foldl_cons, ih]
      cases upsertRow result.rows row with
      | mk rows inserted => cases inserted <;> rfl

theorem rows_ingestLoop (node : Node) (mapRecord : SourceValue → D × List FieldError)
    (batchSize : Nat) (records : List SourceValue) (result : Ingested D)
    (batch : List (SourceRow D)) :
    (ingestLoop node none mapRecord batchSize result batch records).rows =
      stored result.rows
        (batch ++ (records.filter SourceValue.isRecord).map (rowOf node mapRecord)) := by
  induction records generalizing result batch with
  | nil =>
      rw [ingestLoop, rows_flush, List.filter_nil, List.map_nil, List.append_nil]
  | cons record records ih =>
      unfold ingestLoop
      cases is : record.isRecord with
      | false =>
          rw [Bool.not_false, if_pos rfl, ih, List.filter_cons_of_neg (by simp [is])]
      | true =>
          rw [Bool.not_true, if_neg Bool.false_ne_true, List.filter_cons_of_pos is, List.map_cons]
          dsimp only
          split
          · have one := List.append_cons batch (rowOf node mapRecord record)
              ((records.filter SourceValue.isRecord).map (rowOf node mapRecord))
            rw [ih, rows_flush, List.nil_append, one]
            exact List.foldl_append.symm
          · rw [ih, List.append_assoc]
            rfl

theorem nodup_upsertRow {rows : List (SourceRow D)} (once : (rows.map (·.sourceRowId)).Nodup)
    (row : SourceRow D) : ((upsertRow rows row).1.map (·.sourceRowId)).Nodup := by
  unfold upsertRow
  split
  · have keys : ∀ rows : List (SourceRow D), (Collection.updateFirst
        (·.sourceRowId = row.sourceRowId) (fun stored => { stored with data := row.data })
        rows).map (·.sourceRowId) = rows.map (·.sourceRowId) :=
      Collection.map_updateFirst fun _ => rfl
    dsimp only
    rwa [keys]
  · next fresh =>
      rw [List.map_append, List.map_singleton, List.nodup_append]
      refine ⟨once, List.pairwise_singleton .., ?_⟩
      rintro id mem _ is rfl
      obtain ⟨old, mem, same⟩ := List.mem_map.mp mem
      refine fresh (List.any_eq_true.mpr ⟨old, mem, ?_⟩)
      rw [same, List.mem_singleton.mp is]
      exact decide_eq_true rfl

theorem mem_upsertRow {rows : List (SourceRow D)} (once : (rows.map (·.sourceRowId)).Nodup)
    (row other : SourceRow D) : other ∈ (upsertRow rows row).1 ↔
      (other ∈ rows ∧ other.sourceRowId ≠ row.sourceRowId) ∨ other = row := by
  unfold upsertRow
  split
  · next known =>
      obtain ⟨old, mem, same⟩ := List.any_eq_true.mp known
      have same : old.sourceRowId = row.sourceRowId := of_decide_eq_true same
      have updated : { old with data := row.data } = row := by
        rw [same]
      rw [← same, Collection.mem_updateFirst_key once mem, updated]
  · next fresh =>
      rw [List.mem_append, List.mem_singleton]
      refine or_congr_left (and_iff_left_of_imp fun mem same => fresh ?_).symm
      exact List.any_eq_true.mpr ⟨other, mem, decide_eq_true same⟩

theorem stored_spec (batch : List (SourceRow D)) :
    ((stored [] batch).map (·.sourceRowId)).Nodup ∧ (∀ row ∈ stored [] batch, row ∈ batch) ∧
      ∀ row ∈ batch, ∃ row' ∈ stored [] batch, row'.sourceRowId = row.sourceRowId := by
  induction batch using List.reverseRecOn with
  | nil => exact ⟨List.nodup_nil, nofun, nofun⟩
  | append_singleton batch last ih =>
      obtain ⟨once, from', kept⟩ := ih
      have step : stored [] (batch ++ [last]) = (upsertRow (stored [] batch) last).1 := by
        unfold stored
        rw [List.foldl_append]
        rfl
      rw [step]
      refine ⟨nodup_upsertRow once last, fun row mem => ?_, fun row mem => ?_⟩
      · rcases (mem_upsertRow once last row).mp mem with ⟨old, -⟩ | is
        · exact List.mem_append_left _ (from' row old)
        · exact List.mem_append_right _ (List.mem_singleton.mpr is)
      · by_cases same : row.sourceRowId = last.sourceRowId
        · exact ⟨last, (mem_upsertRow once last last).mpr (.inr rfl), same.symm⟩
        · rcases List.mem_append.mp mem with old | is
          · obtain ⟨row', mem', id⟩ := kept row old
            exact ⟨row', (mem_upsertRow once last row').mpr (.inl ⟨mem', id ▸ same⟩), id⟩
          · exact absurd (congrArg SourceRow.sourceRowId (List.mem_singleton.mp is)) same

/-! ## No record is lost -/

/-- Records have the same id when they have the same content; each row is that of a record, and
each record has one row, of a record with its content. -/
structure RowsAreRecords (node : Node) (mapRecord : SourceValue → D × List FieldError)
    (records : List SourceValue) (rows : List (SourceRow D)) : Prop where
  identity : ∀ r ∈ records, ∀ r' ∈ records,
    deriveSourceRowId node r none = deriveSourceRowId node r' none ↔ SameContent r r'
  once : (rows.map (·.sourceRowId)).Nodup
  source : ∀ row ∈ rows, ∃ r ∈ records, row = rowOf node mapRecord r
  kept : ∀ r ∈ records, ∃ r' ∈ records, SameContent r r' ∧ rowOf node mapRecord r' ∈ rows

/-- No two records differ only in what their texts forget. -/
def Told (records : List SourceValue) : Prop :=
  ∀ r ∈ records, ∀ r' ∈ records, r.sorted.forget = r'.sorted.forget → SameContent r r'

/-- SHA-256 tells the texts that occur apart. -/
def TellsApart (node : Node) (records : List SourceValue) : Prop :=
  ∀ r ∈ records, ∀ r' ∈ records, deriveSourceRowId node r none = deriveSourceRowId node r' none →
    stableStringify node.number r = stableStringify node.number r'

theorem rowId_eq_iff {node : Node} {records : List SourceValue} (apart : TellsApart node records)
    {r r' : SourceValue} (mem : r ∈ records) (mem' : r' ∈ records) :
    deriveSourceRowId node r none = deriveSourceRowId node r' none ↔
      r.sorted.forget = r'.sorted.forget := by
  rw [← stableStringify_inj node.number]
  refine ⟨apart r mem r' mem', fun same => ?_⟩
  change node.sha256 _ = node.sha256 _
  rw [same]

/-- After the first sync of a connector without an id field the rows are the distinct records, when
and only when no two records differ only in what their texts forget. -/
theorem rows_are_records (node : Node) (mapRecord : SourceValue → D × List FieldError)
    (batchSize : Nat) (records : List SourceValue)
    (apart : TellsApart node (records.filter SourceValue.isRecord)) :
    RowsAreRecords node mapRecord (records.filter SourceValue.isRecord)
        (ingestRecords node none mapRecord batchSize [] records).rows ↔
      Told (records.filter SourceValue.isRecord) := by
  have rows : (ingestRecords node none mapRecord batchSize [] records).rows =
      stored [] ((records.filter SourceValue.isRecord).map (rowOf node mapRecord)) :=
    rows_ingestLoop node mapRecord batchSize records { rows := [] } []
  obtain ⟨once, from', kept⟩ :=
    stored_spec ((records.filter SourceValue.isRecord).map (rowOf node mapRecord))
  constructor
  · intro are r mem r' mem' same
    exact (are.identity r mem r' mem').mp ((rowId_eq_iff apart mem mem').mpr same)
  · intro told
    have identity : ∀ r ∈ records.filter SourceValue.isRecord,
        ∀ r' ∈ records.filter SourceValue.isRecord,
        deriveSourceRowId node r none = deriveSourceRowId node r' none ↔ SameContent r r' := by
      intro r mem r' mem'
      rw [rowId_eq_iff apart mem mem']
      exact ⟨told r mem r' mem', congrArg SourceValue.forget⟩
    have fromRecord : ∀ row ∈ stored []
        ((records.filter SourceValue.isRecord).map (rowOf node mapRecord)),
        ∃ r ∈ records.filter SourceValue.isRecord, row = rowOf node mapRecord r := by
      intro row mem
      obtain ⟨r, mem, is⟩ := List.mem_map.mp (from' row mem)
      exact ⟨r, mem, is.symm⟩
    rw [rows]
    refine ⟨identity, once, fromRecord, fun r mem => ?_⟩
    obtain ⟨row, inRows, id⟩ := kept _ (List.mem_map_of_mem mem)
    obtain ⟨r', mem', is⟩ := fromRecord row inRows
    rw [is] at inRows id
    exact ⟨r', mem', (identity r mem r' mem').mp id.symm, inRows⟩

end Rows

namespace Workbook

/-- A runtime that writes numbers in unary, and keeps texts for digests. -/
def node : Node where
  number :=
    { text := fun q => List.replicate (Encodable.encode q + 1) '1'
      injective := fun q q' same => by
        have length := congrArg List.length same
        rw [List.length_replicate, List.length_replicate] at length
        exact Encodable.encode_injective (Nat.succ_injective length)
      chars := fun q c mem => by
        rw [List.eq_of_mem_replicate mem]
        rfl
      some := fun q => List.replicate_succ_ne_nil }
  string _ := ""
  sha256 text := text

theorem tellsApart (records : List SourceValue) : TellsApart node records :=
  fun _ _ _ _ same => String.ofList_injective same

/-- The records are stored as they are. -/
def asIs (record : SourceValue) : SourceValue × List FieldError := (record, [])

/-- Two columns, and the same row with the columns in the other order. -/
def columns : List SourceValue :=
  [.obj [("name", .str "Ada"), ("city", .str "London")],
    .obj [("city", .str "London"), ("name", .str "Ada")]]

/-- Rows with a date each. -/
def row (ms : Int) : SourceValue := .obj [("day", toPrimitive (.date (some ms)))]

end Workbook

open Workbook in
/-- Records that differ only in key order are one row. -/
theorem rows_are_records_reordered :
    RowsAreRecords node asIs columns (ingestRecords node none asIs 500 [] columns).rows := by
  refine (rows_are_records node asIs 500 columns (tellsApart _)).mpr fun r mem r' mem' _ => ?_
  have all : columns.filter SourceValue.isRecord = columns := rfl
  rw [all, columns, List.mem_cons, List.mem_singleton] at mem mem'
  rcases mem with rfl | rfl <;> rcases mem' with rfl | rfl <;> rfl

open Workbook in
/-- Two rows of a workbook that differ only in a date have the same id. -/
theorem dates_are_merged :
    ¬∀ (node : Node) (mapRecord : SourceValue → SourceValue × List FieldError) (batchSize : Nat)
      (records : List SourceValue), TellsApart node (records.filter SourceValue.isRecord) →
      RowsAreRecords node mapRecord (records.filter SourceValue.isRecord)
        (ingestRecords node none mapRecord batchSize [] records).rows := by
  intro all
  have are := all node asIs 500 [row 0, row 86400000] (tellsApart _)
  have first : row 0 ∈ [row 0, row 86400000].filter SourceValue.isRecord := List.mem_cons_self ..
  have second : row 86400000 ∈ [row 0, row 86400000].filter SourceValue.isRecord :=
    List.mem_cons_of_mem _ (List.mem_cons_self ..)
  have same := (are.identity _ first _ second).mp rfl
  simp only [SameContent, row, toPrimitive, SourceValue.sorted, sortedFields,
    List.insertionSort_cons, List.insertionSort_nil, List.orderedInsert_nil,
    SourceValue.obj.injEq, List.cons.injEq, Prod.mk.injEq, SourceValue.date.injEq] at same
  exact absurd same.1.2 (by decide)

end AnalyticsBackend.Connectors
