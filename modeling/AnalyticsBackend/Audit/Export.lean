import AnalyticsBackend.Analytics.BusinessTime
import AnalyticsBackend.Lib.Csv
import AnalyticsBackend.Lib.Mongo.Value
import AnalyticsBackend.Lib.Pages

/-!
# Exports of the logs

`collectRows` and `toCsv` of `services/auditExport.service.js`, and those of
`services/accessLog.service.js`, which differ in the fields that they write. The database is free in
the order of rows of one instant, for each page anew.
-/

namespace AnalyticsBackend.Audit

open Lib Lib.Mongo

/-! ## Rows and pages -/

/-- A row of a log; `occurredAt` is the timestamp its model sets. -/
structure LogRow where
  doc : Doc
  occurredAt : Int
  dated : Doc.get doc "occurredAt" = some (.date occurredAt)

/-- Hard cap on exported rows per request. -/
def MAX_EXPORT_ROWS : Nat := 10000

def PAGE_SIZE : Nat := 500

/-- `list` of the repositories: page `page`, counted from one, of the rows that a filter matches.
The `maxLimit` of the plugin binds nothing. -/
def list (order : Nat → List LogRow → List LogRow) (matching : List LogRow) (page limit : Nat) :
    List LogRow :=
  Lib.page limit (page - 1) (order (page - 1) matching)

/-- `collectRows` from a page on: page through the log until the cap is reached. -/
def collectRows (list : Nat → Nat → List LogRow) (rows : List LogRow) (page : Nat) : List LogRow :=
  let docs := list page PAGE_SIZE
  if MAX_EXPORT_ROWS ≤ (rows ++ docs).length then (rows ++ docs).take MAX_EXPORT_ROWS
  else if docs.length < PAGE_SIZE then rows ++ docs
  else collectRows list (rows ++ docs) (page + 1)
termination_by MAX_EXPORT_ROWS - rows.length
decreasing_by
  rename_i below full
  change MAX_EXPORT_ROWS - (rows ++ docs).length < MAX_EXPORT_ROWS - rows.length
  rw [List.length_append] at below ⊢
  unfold PAGE_SIZE at full
  omega

/-! ## Files -/

/-- What one service exports: its columns, whose names need no quotes, and the value of a cell. -/
structure ExportKind where
  CSV_HEADER : List String
  csvValue : (string : Value → String) → Doc → String → Value
  plain : CSV_HEADER.all (fun name => !name.toList.any Csv.isSpecial) = true
  wide : 1 < CSV_HEADER.length

def orElse (value : Option Value) (otherwise : Value) : Value :=
  match value with
  | none | some .null => otherwise
  | some v => v

/-- `String(value)`; what it makes of a number, an array or an object is a parameter. -/
def stringOf (string : Value → String) : Value → String
  | .null => "null"
  | .bool b => if b then "true" else "false"
  | .str s => s
  | .oid id => id.toHex
  | v => string v

/-- The cells that both services have: `id` is the row's `_id`. -/
def csvField (string : Value → String) (row : Doc) (field : String) : Value :=
  if field = "id" then
    match orElse (Doc.get row "_id") .null with
    | .null => .str ""
    | id => .str (stringOf string id)
  else
    match field, Doc.get row field with
    | "occurredAt", some (.date ms) => .str (Analytics.isoText ms)
    | _, value => orElse value (.str "")

def errorField (row : Doc) (name : String) : Value :=
  match Doc.get row "error" with
  | some (.obj fields) => orElse (Doc.get fields name) (.str "")
  | _ => .str ""

/-- The audit trail; legacy rows count as `change`. -/
def auditExport : ExportKind where
  CSV_HEADER := [
    "id", "occurredAt", "actorType", "actorId", "actorDisplay", "tenantId",
    "module", "action", "resourceType", "resourceId", "result", "errorCode",
    "ip", "requestId", "reason", "category", "severity", "userAgent", "seq", "hash"]
  csvValue string row field :=
    if field = "category" then orElse (Doc.get row "category") (.str "change")
    else csvField string row field
  plain := by decide +kernel
  wide := by decide

/-- The access log; error fields are nested. -/
def accessLog : ExportKind where
  CSV_HEADER := [
    "id", "occurredAt", "actorType", "actorId", "tenantId",
    "method", "path", "statusCode", "latencyMs", "ip",
    "userAgent", "requestId", "event", "errorCode", "errorMessage"]
  csvValue string row field :=
    if field = "errorCode" then errorField row "code"
    else if field = "errorMessage" then errorField row "message"
    else csvField string row field
  plain := by decide +kernel
  wide := by decide

/-- `escapeCsv` before it quotes. -/
def cellString (string : Value → String) : Value → List Char
  | .null => []
  | v => (stringOf string v).toList

/-- `escapeCsv`. -/
def escapeCsv (string : Value → String) (value : Value) : List Char :=
  Csv.field (cellString string value)

/-- `toCsv`. -/
def toCsv (kind : ExportKind) (string : Value → String) (rows : List LogRow) : List Char :=
  let header := [','].intercalate (kind.CSV_HEADER.map String.toList)
  ['\n'].intercalate (header :: rows.map fun row =>
    [','].intercalate (kind.CSV_HEADER.map fun field =>
      escapeCsv string (kind.csvValue string row.doc field)))

/-- What `processExport` stores for the format `csv`, and the count that it records. -/
structure StoredExport where
  text : List Char
  recordCount : Nat

def processExport (kind : ExportKind) (string : Value → String) (list : Nat → Nat → List LogRow) :
    StoredExport :=
  let rows := collectRows list [] 1
  { text := toCsv kind string rows, recordCount := rows.length }

/-! ## Every row once -/

section Collect

variable {order : Nat → List LogRow → List LogRow} {matching : List LogRow}

theorem collectRows_pages (perm : ∀ k, (order k matching).Perm matching) (left k : Nat)
    (full : k * PAGE_SIZE ≤ matching.length) (last : matching.length / PAGE_SIZE = k + left) :
    collectRows (list order matching) (pages PAGE_SIZE order matching k) (k + 1) =
      (pages PAGE_SIZE order matching (matching.length / PAGE_SIZE + 1)).take MAX_EXPORT_ROWS := by
  have size : (list order matching (k + 1) PAGE_SIZE).length =
      min PAGE_SIZE (matching.length - k * PAGE_SIZE) := by
    rw [list, length_page, Nat.add_sub_cancel, (perm k).length_eq]
  have next : pages PAGE_SIZE order matching k ++ list order matching (k + 1) PAGE_SIZE =
      pages PAGE_SIZE order matching (k + 1) := (pages_succ ..).symm
  have share := Nat.div_add_mod matching.length PAGE_SIZE
  have rest := Nat.mod_lt matching.length (show 0 < PAGE_SIZE by decide)
  induction left generalizing k with
  | zero =>
      rw [collectRows, next]
      split
      · rw [last, Nat.add_zero]
      · rename_i below
        rw [if_pos, last, Nat.add_zero, List.take_of_length_le (Nat.le_of_not_le below)]
        rw [last, Nat.add_zero] at share
        rw [size]
        simp only [PAGE_SIZE] at share rest ⊢
        omega
  | succ left ih =>
      rw [collectRows, next]
      split
      · rename_i reached
        have more : pages PAGE_SIZE order matching (k + 1) <+:
            pages PAGE_SIZE order matching (matching.length / PAGE_SIZE + 1) :=
          pages_prefix _ _ _ (by omega)
        obtain ⟨later, is⟩ := more
        rw [← is, List.take_append_of_le_length reached]
      · have whole : (k + 1) * PAGE_SIZE ≤ matching.length := by
          rw [last] at share
          simp only [PAGE_SIZE] at share ⊢
          omega
        rw [if_neg]
        · refine ih (k + 1) whole (by omega) ?_ (pages_succ ..).symm
          rw [list, length_page, Nat.add_sub_cancel, (perm (k + 1)).length_eq]
        · rw [size]
          simp only [PAGE_SIZE] at whole ⊢
          omega

theorem collectRows_eq (perm : ∀ k, (order k matching).Perm matching) :
    collectRows (list order matching) [] 1 =
      (pages PAGE_SIZE order matching (matching.length / PAGE_SIZE + 1)).take MAX_EXPORT_ROWS :=
  collectRows_pages perm (matching.length / PAGE_SIZE) 0 (by simp) (Nat.zero_add _).symm

end Collect

/-- Whatever order the database has for rows of one instant, an export holds every matching row once,
exactly when they are no more than the cap and no page ends between two of one instant. -/
theorem export_whole_iff {matching : List LogRow} (distinct : matching.Nodup) :
    (∀ order : Nat → List LogRow → List LogRow, (∀ k, NewestFirst LogRow.occurredAt (order k)) →
        (collectRows (list order matching) [] 1).Perm matching) ↔
      matching.length ≤ MAX_EXPORT_ROWS ∧ CleanPages LogRow.occurredAt PAGE_SIZE matching := by
  have enough : matching.length ≤ (matching.length / PAGE_SIZE + 1) * PAGE_SIZE := by
    have rest := Nat.mod_lt matching.length (show 0 < PAGE_SIZE by decide)
    have share := Nat.div_add_mod matching.length PAGE_SIZE
    unfold PAGE_SIZE at *
    omega
  have whole (few : matching.length ≤ MAX_EXPORT_ROWS) (order : Nat → List LogRow → List LogRow)
      (newest : ∀ k, NewestFirst LogRow.occurredAt (order k)) :
      collectRows (list order matching) [] 1 =
        pages PAGE_SIZE order matching (matching.length / PAGE_SIZE + 1) := by
    have perm := fun k => (newest k).perm matching
    rw [collectRows_eq perm, List.take_of_length_le]
    rw [length_pages PAGE_SIZE perm]
    exact (Nat.min_le_right ..).trans few
  rw [← pages_whole_iff (by decide) distinct enough]
  constructor
  · intro always
    have few : matching.length ≤ MAX_EXPORT_ROWS := by
      have newest := newestFirst_worst LogRow.occurredAt fun _ : LogRow => false
      have one := always (fun _ => _) fun _ => newest
      rw [← one.length_eq, collectRows_eq fun _ => newest.perm matching]
      exact List.length_take_le ..
    exact ⟨few, fun order newest => whole few order newest ▸ always order newest⟩
  · rintro ⟨few, always⟩ order newest
    rw [whole few order newest]
    exact always order newest

/-- Rows of one instant, one more than a page holds. -/
def crowd : List LogRow :=
  (List.range 501).map fun i : Nat =>
    { doc := [("seq", .num ⟨.int, .finite (i : ℚ)⟩), ("occurredAt", .date 0)]
      occurredAt := 0
      dated := rfl }

/-- For some order, the export of the crowd is not what it should hold. -/
theorem crowd_exported_wrong :
    ¬ ∀ order : Nat → List LogRow → List LogRow, (∀ k, NewestFirst LogRow.occurredAt (order k)) →
      (collectRows (list order crowd) [] 1).Perm crowd := by
  have distinct : crowd.Nodup := by
    refine List.Nodup.map (fun i j is => ?_) List.nodup_range
    have docs := congrArg LogRow.doc is
    simpa using docs
  have size : crowd.length = 501 := by rw [crowd, List.length_map, List.length_range]
  intro always
  obtain ⟨-, clean⟩ := (export_whole_iff distinct).mp always
  obtain ⟨d, mem, count⟩ := clean 1 (by decide) (by rw [size]; decide)
  have together : ∀ r ∈ crowd, r.occurredAt = 0 := List.forall_mem_map.mpr fun _ _ => rfl
  have all : crowd.countP (fun r => d.occurredAt ≤ r.occurredAt) = crowd.length :=
    List.countP_eq_length.mpr fun r other => by rw [together d mem, together r other]; rfl
  rw [all, size] at count
  exact absurd count (by decide)

/-! ## The file -/

theorem record_header (kind : ExportKind) :
    [','].intercalate (kind.CSV_HEADER.map String.toList) =
      Csv.record (kind.CSV_HEADER.map String.toList) := by
  have same : (kind.CSV_HEADER.map String.toList).map Csv.field = kind.CSV_HEADER.map String.toList := by
    rw [List.map_map]
    refine List.map_congr_left fun name mem => ?_
    have plain := List.all_eq_true.mp kind.plain name mem
    rw [Function.comp_apply, Csv.field, if_neg (by simpa using plain)]
  rw [Csv.record, same]

/-- A reader of an exported file gets back the columns, and of each collected row in turn the texts of
its values; the count that is recorded is that of the rows it gets. -/
theorem export_reads_back (kind : ExportKind) (string : Value → String)
    (list : Nat → Nat → List LogRow) :
    Csv.parse (processExport kind string list).text =
        kind.CSV_HEADER.map String.toList :: (collectRows list [] 1).map (fun row =>
          kind.CSV_HEADER.map fun field => cellString string (kind.csvValue string row.doc field)) ∧
      (Csv.parse (processExport kind string list).text).length =
        (processExport kind string list).recordCount + 1 := by
  have read : Csv.parse (processExport kind string list).text =
      kind.CSV_HEADER.map String.toList :: (collectRows list [] 1).map (fun row =>
        kind.CSV_HEADER.map fun field => cellString string (kind.csvValue string row.doc field)) := by
    have lines : (processExport kind string list).text = ['\n'].intercalate
        ((kind.CSV_HEADER.map String.toList :: (collectRows list [] 1).map fun row =>
          kind.CSV_HEADER.map fun field =>
            cellString string (kind.csvValue string row.doc field)).map Csv.record) := by
      simp [processExport, toCsv, record_header, Csv.record, escapeCsv, Function.comp_def]
    rw [lines]
    refine Csv.parse_table (List.cons_ne_nil _ _) (List.forall_mem_cons.mpr ⟨?_, ?_⟩)
    · rw [List.length_map]
      exact kind.wide
    · refine List.forall_mem_map.mpr fun row _ => ?_
      rw [List.length_map]
      exact kind.wide
  refine ⟨read, ?_⟩
  rw [read, List.length_cons, List.length_map]
  rfl

end AnalyticsBackend.Audit
