import AnalyticsBackend.ApiError
import AnalyticsBackend.Lib.Collection
import AnalyticsBackend.Lib.Js
import AnalyticsBackend.Lib.Json
import Mathlib.Data.List.Sort

/-!
# Rows of a source

`stableStringify` and `deriveSourceRowId` of `modules/connectors/shared/field-mapping.js`,
`ingestRecords` of `shared/sync-engine.js` with the upsert of
`repositories/connectorRow.repository.js`, and the cells of `xlsx/xlsx.parser.js`.
-/

namespace AnalyticsBackend.Connectors
open Lib

/-- What a parser emits. A value of the driver, such as an `ObjectId`, has a class, own enumerable
properties, and what it holds besides. -/
inductive SourceValue where
  | null
  | bool (b : Bool)
  | num (n : Magnitude)
  | str (s : String)
  | date (ms : Int)
  | arr (items : List SourceValue)
  | obj (fields : List (String × SourceValue))
  | driver (className : String) (internal : String) (fields : List (String × SourceValue))

/-! ## Cells of a workbook -/

/-- A cell value of the workbook reader; of an object, the properties that `toPrimitive` reads. -/
inductive CellValue where
  | null
  | bool (b : Bool)
  | num (n : Magnitude)
  | str (s : String)
  | date (ms : Option Int)
  | object (richText : Option (List String)) (formula : Bool) (result : Option CellValue)
      (error : Bool) (text : Option CellValue)

/-- `toPrimitive`. -/
def toPrimitive : CellValue → SourceValue
  | .null => .null
  | .date none => .null
  | .date (some ms) => .date ms
  | .num (.finite q) => .num (.finite q)
  | .num _ => .null
  | .bool b => .bool b
  | .str s => .str s
  | .object (some richText) _ _ _ _ => .str (String.join richText)
  | .object none formula result error text =>
      match formula, result with
      | _, some result => toPrimitive result
      | true, none => .null
      | false, none =>
          match error, text with
          | true, _ => .null
          | false, some text => toPrimitive text
          | false, none => .null

/-! ## The identity of a row -/

/-- What the runtime provides: the texts of numbers, `String(value)`, and the digest of SHA-256. -/
structure Node where
  number : NumberFormat
  string : SourceValue → String
  sha256 : String → String

/-- The order of `Object.keys(value).sort()`. -/
def keyBefore {A : Type} (a b : String × A) : Bool :=
  sortStrings.compareLex (utf16 a.1) (utf16 b.1)

def objectText (entries : List (String × List Char)) : List Char :=
  '{' :: [','].intercalate ((entries.insertionSort fun a b => keyBefore a b).map
    fun e => Json.quote e.1 ++ ':' :: e.2) ++ ['}']

mutual

/-- `stableStringify`: a date has no properties of its own. -/
def stableStringify (fmt : NumberFormat) : SourceValue → List Char
  | .null => "null".toList
  | .bool b => if b then "true".toList else "false".toList
  | .num (.finite q) => fmt.text q
  | .num _ => "null".toList
  | .str s => Json.quote s
  | .arr items => '[' :: [','].intercalate (stableItems fmt items) ++ [']']
  | .date _ => objectText []
  | .obj fields => objectText (stableFields fmt fields)
  | .driver _ _ fields => objectText (stableFields fmt fields)

def stableItems (fmt : NumberFormat) : List SourceValue → List (List Char)
  | [] => []
  | item :: rest => stableStringify fmt item :: stableItems fmt rest

def stableFields (fmt : NumberFormat) : List (String × SourceValue) → List (String × List Char)
  | [] => []
  | (k, v) :: rest => (k, stableStringify fmt v) :: stableFields fmt rest

end

/-- `record[name]`, of own properties. -/
def SourceValue.get (record : SourceValue) (name : String) : Option SourceValue :=
  match record with
  | .obj fields => fields.lookup name
  | .driver _ _ fields => fields.lookup name
  | _ => none

/-- `value !== undefined && value !== null && value !== ''`. -/
def identifies : Option SourceValue → Option SourceValue
  | none => none
  | some .null => none
  | some (.str "") => none
  | some v => some v

/-- `deriveSourceRowId`, with the id field that the mapping configures. -/
def deriveSourceRowId (node : Node) (record : SourceValue) (idField : Option String) : String :=
  match idField, idField.bind fun name => identifies (record.get name) with
  | some name, some v => s!"{name}:{node.string v}"
  | _, _ => node.sha256 (String.ofList (stableStringify node.number record))

/-! ## The sync -/

/-- A row of a batch, and as it is stored. -/
structure SourceRow (D : Type) where
  sourceRowId : String
  data : D

section Ingest

variable {D : Type}

/-- One upsert of `upsertRows`: the rows, and whether one was inserted. -/
def upsertRow (rows : List (SourceRow D)) (row : SourceRow D) : List (SourceRow D) × Bool :=
  if rows.any (·.sourceRowId = row.sourceRowId) then
    (Collection.updateFirst (·.sourceRowId = row.sourceRowId)
      (fun stored => { stored with data := row.data }) rows, false)
  else (rows ++ [row], true)

/-- The result of `ingestRecords`, and the rows stored so far. -/
structure Ingested (D : Type) where
  rows : List (SourceRow D)
  processed : Nat := 0
  skipped : Nat := 0
  upserted : Nat := 0
  matched : Nat := 0
  errors : List FieldError := []

/-- `flush`: the batch is persisted with `upsertRows`. -/
def flush (result : Ingested D) (batch : List (SourceRow D)) : Ingested D :=
  batch.foldl
    (fun result row =>
      match upsertRow result.rows row with
      | (rows, true) => { result with rows, upserted := result.upserted + 1 }
      | (rows, false) => { result with rows, matched := result.matched + 1 })
    result

/-- A record is an object that is no array. -/
def SourceValue.isRecord : SourceValue → Bool
  | .obj _ | .driver .. | .date _ => true
  | _ => false

/-- The loop of `ingestRecords`, with the batch so far; `mapRecord` is the field mapping. -/
def ingestLoop (node : Node) (idField : Option String)
    (mapRecord : SourceValue → D × List FieldError) (batchSize : Nat) (result : Ingested D)
    (batch : List (SourceRow D)) : List SourceValue → Ingested D
  | [] => flush result batch
  | record :: records =>
      if !record.isRecord then
        let refused := FieldError.mk "record" "source record is not an object; skipped"
        ingestLoop node idField mapRecord batchSize
          { result with skipped := result.skipped + 1, errors := result.errors ++ [refused] }
          batch records
      else
        let (data, errors) := mapRecord record
        let result :=
          { result with processed := result.processed + 1, errors := result.errors ++ errors }
        let batch := batch ++ [⟨deriveSourceRowId node record idField, data⟩]
        if batchSize ≤ batch.length then
          ingestLoop node idField mapRecord batchSize (flush result batch) [] records
        else ingestLoop node idField mapRecord batchSize result batch records

/-- `ingestRecords` of a sync, into the rows of a connector. -/
def ingestRecords (node : Node) (idField : Option String)
    (mapRecord : SourceValue → D × List FieldError) (batchSize : Nat) (rows : List (SourceRow D))
    (records : List SourceValue) : Ingested D :=
  ingestLoop node idField mapRecord batchSize { rows } [] records

end Ingest

end AnalyticsBackend.Connectors
