import AnalyticsBackend.Analytics.Engine
import AnalyticsBackend.Lib.Csv

/-!
# The CSV file of a query

`writeQueryArtifact` of `services/artifact.service.js` for the format `csv`: the rows of one stream,
written in batches up to a cap, where the query does not fail and neither does the store. What `String`
and `JSON.stringify` make of numbers and of nested values is a parameter.
-/

namespace AnalyticsBackend.Analytics

open Lib Lib.Mongo

/-! ## Cells -/

/-- The texts the language gives to numbers, objects and arrays. -/
structure Texts where
  number : Number → String
  string : Value → String
  json : Value → String

/-- What `record[name]` is. -/
inductive Cell where
  | missing
  | own (v : Value)
  | inherited (name : String)

def cellOf (record : Doc) (name : String) : Cell :=
  match Doc.get record name with
  | some v => .own v
  | none => if name ∈ JsObject.inherited then .inherited name else .missing

def isTruthy : Value → Bool
  | .null => false
  | .bool b => b
  | .str s => s ≠ ""
  | .num n => n.type = .decimal || n.value ≠ .nan && n.value ≠ .finite 0
  | _ => true

/-- `recordOf`. -/
def recordOf (row : Doc) (groupMode : Bool) : Doc :=
  if groupMode then row
  else
    match Doc.get row "data" with
    | some (.obj fields) => fields
    | _ => []

/-- The largest distance of a `Date` from the epoch. -/
def MAX_TIME : Nat := 8640000000000000

def textOf (texts : Texts) : Value → String
  | .str s => s
  | .bool b => if b then "true" else "false"
  | .num n => texts.number n
  | .date ms => if ms.natAbs ≤ MAX_TIME then isoText ms else ""
  | .oid id => id.toHex
  | .obj fields =>
      if (Doc.get fields "_bsontype").any isTruthy then texts.string (.obj fields)
      else texts.json (.obj fields)
  | v => texts.json v

/-- `String` of what an object inherits, which are functions but for its prototype. -/
def inheritedText (name : String) : String :=
  if name = "__proto__" then "\x7b\x7d"
  else
    let name := if name = "constructor" then "Object" else name
    "function " ++ name ++ "() \x7b [native code] \x7d"

/-- `FORMULA_START_RE`. -/
def startsFormula (text : List Char) : Bool :=
  text.head?.any fun c => c ∈ ['=', '+', '-', '@', '\t', '\r']

def skipSign : List Char → List Char
  | '+' :: rest => rest
  | '-' :: rest => rest
  | text => text

/-- `([eE][+-]?\d+)?$`. -/
def isExponent : List Char → Bool
  | [] => true
  | c :: rest => (c == 'e' || c == 'E') && !(skipSign rest).isEmpty && (skipSign rest).all Char.isDigit

/-- `NUMERIC_TEXT_RE`. -/
def isNumericText (text : List Char) : Bool :=
  let unsigned := skipSign text
  let whole := unsigned.takeWhile Char.isDigit
  match unsigned.dropWhile Char.isDigit with
  | '.' :: rest =>
      (!whole.isEmpty || !(rest.takeWhile Char.isDigit).isEmpty) &&
        isExponent (rest.dropWhile Char.isDigit)
  | rest => !whole.isEmpty && isExponent rest

/-- The text of a cell before it is quoted; formula-looking text is neutralised. -/
def cellText (texts : Texts) : Cell → List Char
  | .missing => []
  | .inherited name => (inheritedText name).toList
  | .own .null => []
  | .own (.str s) =>
      if startsFormula s.toList && !isNumericText s.toList then '\'' :: s.toList else s.toList
  | .own v => (textOf texts v).toList

/-- `csvCell`. -/
def csvCell (texts : Texts) (cell : Cell) : List Char := Csv.field (cellText texts cell)

/-! ## The writer -/

def WRITE_BATCH_ROWS : Nat := 500

structure CsvWriter where
  lines : List (List Char)
  chunks : List (List Char) := []

/-- `lines.join('\n')` and a line break. -/
def joinLines (lines : List (List Char)) : List Char := ['\n'].intercalate lines ++ ['\n']

/-- `columns.map(...).join(',')`. -/
def joinCells (cells : List (List Char)) : List Char := [','].intercalate cells

def csvWriter (texts : Texts) (columns : List String) : CsvWriter :=
  { lines := [joinCells (columns.map fun c => csvCell texts (.own (.str c)))] }

def CsvWriter.row (texts : Texts) (columns : List String) (w : CsvWriter) (record : Doc) : CsvWriter :=
  let lines := w.lines ++ [joinCells (columns.map fun c => csvCell texts (cellOf record c))]
  if WRITE_BATCH_ROWS ≤ lines.length then { lines := [], chunks := w.chunks ++ [joinLines lines] }
  else { w with lines }

/-- `end`: the chunks that were written. -/
def CsvWriter.finish (w : CsvWriter) : List (List Char) :=
  if w.lines.isEmpty then w.chunks else w.chunks ++ [joinLines w.lines]

/-! ## The artifact -/

/-- What `writeQueryArtifact` stores and tells. -/
structure Artifact where
  key : String
  contentType : String
  text : List Char
  rowCount : Nat
  truncated : Bool
  rowLimit : Option Nat
  columns : List String
  groupMode : Bool
  window : Option WindowView
  timezone : String

/-- The rows that go into the file, their number, and whether there are more. -/
def writeRows (texts : Texts) (columns : List String) (groupMode : Bool) (cap : Nat) :
    CsvWriter → Nat → List Doc → CsvWriter × Nat × Bool
  | w, rowCount, [] => (w, rowCount, false)
  | w, rowCount, row :: rest =>
      if cap ≤ rowCount then (w, rowCount, true)
      else writeRows texts columns groupMode cap (w.row texts columns (recordOf row groupMode))
        (rowCount + 1) rest

/-- `Math.max(1, Math.floor(Number(maxRows) || env.artifacts.maxRows))`. -/
def requestedRows (maxRows envMaxRows : Nat) : Nat :=
  max 1 (if maxRows = 0 then envMaxRows else maxRows)

/-- The options of a query without its pages. -/
def EngineOptions.unpaged (query : EngineOptions) : EngineOptions :=
  { query with entries := query.entries.filter fun entry => entry.1 ≠ "pagination" }

/-- `writeQueryArtifact` for the format `csv`: what it stores and answers. -/
def writeQueryArtifact (texts : Texts) (envMaxRows : Nat) (server : Server) (rt : Runtime)
    (ws : Workspace) (store : List ConnectorRow) (maxColumns : Nat) (query : EngineOptions)
    (key : String) (maxRows : Nat) : Except EngineError Artifact := do
  let cap := requestedRows maxRows envMaxRows
  let stream ← openRowStream server rt ws store query.unpaged maxColumns
  let rows ← stream.rows
  let written := writeRows texts stream.columns stream.groupMode cap
    (csvWriter texts stream.columns) 0 rows
  return {
    key
    contentType := "text/csv; charset=utf-8"
    text := written.1.finish.flatten
    rowCount := written.2.1
    truncated := written.2.2
    rowLimit := if written.2.2 then some cap else none
    columns := stream.columns
    groupMode := stream.groupMode
    window := stream.window
    timezone := stream.timezone }

/-! ## What the file holds -/

variable {texts : Texts} {columns : List String} {groupMode : Bool} {cap : Nat}

/-- The texts of the columns, and of a row. -/
def headerTexts (texts : Texts) (columns : List String) : List (List Char) :=
  columns.map fun c => cellText texts (.own (.str c))

def rowTexts (texts : Texts) (columns : List String) (groupMode : Bool) (row : Doc) :
    List (List Char) :=
  columns.map fun c => cellText texts (cellOf (recordOf row groupMode) c)

theorem joinCells_header : joinCells (columns.map fun c => csvCell texts (.own (.str c))) =
    Csv.record (headerTexts texts columns) := by
  simp [joinCells, Csv.record, headerTexts, csvCell, Function.comp_def]

theorem joinCells_row (row : Doc) :
    joinCells (columns.map fun c => csvCell texts (cellOf (recordOf row groupMode) c)) =
      Csv.record (rowTexts texts columns groupMode row) := by
  simp [joinCells, Csv.record, rowTexts, csvCell, Function.comp_def]

def broken (lines : List (List Char)) : List Char := lines.flatMap (· ++ ['\n'])

theorem joinLines_eq {lines : List (List Char)} (some : lines ≠ []) :
    joinLines lines = broken lines := by
  obtain ⟨init, last, rfl⟩ := List.eq_nil_or_concat' lines |>.resolve_left some
  rw [joinLines, Csv.intercalate_concat, broken, List.flatMap_append, List.append_assoc]
  simp

/-- All that a writer was given: the chunks it wrote and the lines that wait. -/
def CsvWriter.text (w : CsvWriter) : List Char := w.chunks.flatten ++ broken w.lines

theorem finish_flatten (w : CsvWriter) : w.finish.flatten = w.text := by
  unfold CsvWriter.finish
  split
  · rename_i none
    rw [CsvWriter.text, List.isEmpty_iff.mp none, broken, List.flatMap_nil, List.append_nil]
  · rename_i some
    rw [List.flatten_append, List.flatten_singleton, joinLines_eq (by simpa using some),
      CsvWriter.text]

/-- A row adds its line, whether or not it completes a batch. -/
theorem text_row (w : CsvWriter) (row : Doc) :
    (w.row texts columns (recordOf row groupMode)).text =
      w.text ++ (Csv.record (rowTexts texts columns groupMode row) ++ ['\n']) := by
  unfold CsvWriter.row
  rw [joinCells_row]
  dsimp only
  split
  · rw [joinLines_eq (List.concat_ne_nil _ _)]
    simp [CsvWriter.text, broken]
  · simp [CsvWriter.text, broken]

theorem writeRows_eq (w : CsvWriter) (rowCount : Nat) (rows : List Doc) :
    let written := writeRows texts columns groupMode cap w rowCount rows
    let taken := rows.take (cap - rowCount)
    written.1.text = w.text ++
        taken.flatMap (fun row => Csv.record (rowTexts texts columns groupMode row) ++ ['\n']) ∧
      written.2 = (rowCount + taken.length, decide (cap - rowCount < rows.length)) := by
  induction rows generalizing w rowCount with
  | nil => simp [writeRows]
  | cons row rest ih =>
      dsimp only at ih ⊢
      rw [writeRows]
      split
      · rename_i full
        simp [Nat.sub_eq_zero_of_le full]
      · rename_i room
        obtain ⟨left, is⟩ := Nat.exists_eq_succ_of_ne_zero (Nat.sub_ne_zero_of_lt (Nat.lt_of_not_le room))
        have later : cap - (rowCount + 1) = left := by omega
        obtain ⟨text, count⟩ := ih (w.row texts columns (recordOf row groupMode)) (rowCount + 1)
        rw [later] at text count
        rw [text, count, is, text_row, List.take_succ_cons, List.flatMap_cons]
        refine ⟨by simp, ?_⟩
        rw [List.length_cons, List.length_cons]
        simp
        omega

/-- A file holds the whole result of a stream, up to a cap, and tells whether there was more. -/
structure HoldsResult (texts : Texts) (cap : Nat) (stream : RowStream) (rows : List Doc)
    (artifact : Artifact) : Prop where
  reads : Csv.parse artifact.text = ((headerTexts texts stream.columns) ::
    (rows.take cap).map (rowTexts texts stream.columns stream.groupMode)).map Csv.shown
  columns : artifact.columns = stream.columns
  rowCount : artifact.rowCount = (rows.take cap).length
  truncated : artifact.truncated = true ↔ cap < rows.length
  rowLimit : artifact.rowLimit = if artifact.truncated then some cap else none

theorem text_file (texts : Texts) (columns : List String) (groupMode : Bool) (cap : Nat)
    (rows : List Doc) :
    (writeRows texts columns groupMode cap (csvWriter texts columns) 0 rows).1.finish.flatten =
      ((headerTexts texts columns) ::
        (rows.take cap).map (rowTexts texts columns groupMode)).flatMap fun fields =>
          Csv.record fields ++ ['\n'] := by
  have written := (@writeRows_eq texts columns groupMode cap (csvWriter texts columns) 0 rows).1
  rw [finish_flatten, written, List.flatMap_cons, List.flatMap_map, Nat.sub_zero]
  simp [csvWriter, CsvWriter.text, broken, joinCells_header]

/-- Whatever the batches, a reader of the file gets back the columns and the texts of the rows, of
all of them or of as many as the cap allows. -/
theorem csv_artifact_reads_back (texts : Texts) (envMaxRows : Nat) (server : Server) (rt : Runtime)
    (ws : Workspace) (store : List ConnectorRow) (maxColumns : Nat) (query : EngineOptions)
    (key : String) (maxRows : Nat) :
    match openRowStream server rt ws store query.unpaged maxColumns with
    | .error _ => True
    | .ok stream =>
        match stream.rows with
        | .error _ => True
        | .ok rows => ∃ artifact,
            writeQueryArtifact texts envMaxRows server rt ws store maxColumns query key maxRows =
              .ok artifact ∧
            HoldsResult texts (requestedRows maxRows envMaxRows) stream rows artifact := by
  unfold writeQueryArtifact
  cases opened : openRowStream server rt ws store query.unpaged maxColumns with
  | error e => trivial
  | ok stream =>
      dsimp only
      cases yielded : stream.rows with
      | error e => trivial
      | ok rows =>
          dsimp only
          rw [ok_bind, yielded, ok_bind]
          have count := (@writeRows_eq texts stream.columns stream.groupMode
            (requestedRows maxRows envMaxRows) (csvWriter texts stream.columns) 0 rows).2
          rw [Nat.sub_zero] at count
          refine ⟨_, rfl, ⟨?_, rfl, ?_, ?_, rfl⟩⟩
          · dsimp only
            rw [text_file, Csv.parse_lines]
          · dsimp only
            rw [count, Nat.zero_add]
          · dsimp only
            rw [count, decide_eq_true_eq]

/-! ## Formulas -/

/-- The cells of the file, a missing one in a record without columns. -/
def cells (columns : List String) (groupMode : Bool) (cap : Nat) (rows : List Doc) :
    List (List Cell) :=
  let header := columns.map fun c => Cell.own (.str c)
  let ofRow (row : Doc) := columns.map fun c => cellOf (recordOf row groupMode) c
  (header :: (rows.take cap).map ofRow).map fun cells => if cells = [] then [.missing] else cells

/-- A cell whose text does not come from a number, a date, an id, or a nested value. -/
def Cell.isText : Cell → Bool
  | .own (.str _) | .own .null | .inherited _ | .missing => true
  | .own _ => false

/-- A text stands for a cell, and if that is one of text, no spreadsheet runs it. -/
structure Neutralised (texts : Texts) (text : List Char) (cell : Cell) : Prop where
  text_eq : text = cellText texts cell
  harmless : cell.isText = true → startsFormula text = false ∨ isNumericText text = true

theorem neutralised_cellText (texts : Texts) (cell : Cell) :
    Neutralised texts (cellText texts cell) cell := by
  refine ⟨rfl, fun isText => ?_⟩
  cases cell with
  | missing => exact .inl rfl
  | inherited name =>
      refine .inl ?_
      simp only [cellText, inheritedText]
      split
      · rfl
      · rw [String.toList_append, String.toList_append]
        rfl
  | own v =>
      cases v with
      | null => exact .inl rfl
      | str s =>
          simp only [cellText]
          split
          · exact .inl rfl
          · rename_i kept
            cases starts : startsFormula s.toList with
            | false => exact .inl rfl
            | true =>
                rw [starts, Bool.true_and, Bool.not_eq_true', Bool.not_eq_false] at kept
                exact .inr kept
      | bool | num | date | oid | arr | obj => exact nomatch isText

/-- What a reader gets from the file are the texts of its cells, one for one, and none that comes
from a text is run by a spreadsheet. -/
theorem csv_artifact_runs_no_formula (texts : Texts) (columns : List String) (groupMode : Bool)
    (cap : Nat) (rows : List Doc) :
    List.Forall₂ (List.Forall₂ (Neutralised texts))
      (Csv.parse
        (writeRows texts columns groupMode cap (csvWriter texts columns) 0 rows).1.finish.flatten)
      (cells columns groupMode cap rows) := by
  have grid : Csv.parse
      (writeRows texts columns groupMode cap (csvWriter texts columns) 0 rows).1.finish.flatten =
      (cells columns groupMode cap rows).map (List.map (cellText texts)) := by
    rw [text_file, Csv.parse_lines]
    cases columns with
    | nil => simp [cells, headerTexts, rowTexts, Csv.shown, cellText, Function.comp_def]
    | cons c rest => simp [cells, headerTexts, rowTexts, Csv.shown, Function.comp_def]
  rw [grid, List.forall₂_map_left_iff]
  refine List.forall₂_same.mpr fun line _ => ?_
  rw [List.forall₂_map_left_iff]
  exact List.forall₂_same.mpr fun cell _ => neutralised_cellText texts cell

end AnalyticsBackend.Analytics
