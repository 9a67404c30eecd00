import AnalyticsBackend.Lib.CountMap
import AnalyticsBackend.Lib.Js

/-!
# The rows of a worksheet

`toPrimitive`, `headerFields` and `toRecord` of `modules/connectors/xlsx/xlsx.parser.js`. The row values
of ExcelJS are sparse: an empty cell is a hole. `string` is the text that `String` gives a value that is
none itself.
-/

namespace AnalyticsBackend.Connectors.Worksheet
open Lib

variable (string : Js → String)

/-- The text of a value, as `join` and `String` have it. -/
def textOf : Js → String
  | .str s => s
  | v => string v

/-- `r?.text ?? ''` of a run of rich text. -/
def runText : Js → String
  | .obj fields => if (field fields "text").isNullish then "" else textOf string (field fields "text")
  | _ => ""

/-- `name in value`. -/
def hasField (fields : List (String × Js)) (name : String) : Bool := (fields.lookup name).isSome

mutual

/-- Normalise an ExcelJS cell value to a JSON-friendly primitive (or Date). -/
def toPrimitive : Js → Js
  | .undefined | .null | .arr _ => .null
  | .bool b => .bool b
  | .num n => if n.isFinite then .num n else .null
  | .str s => .str s
  | .date ms => if ms.isSome then .date ms else .null
  | .obj fields =>
      match field fields "richText" with
      | .arr runs => .str (String.join (runs.map (runText string)))
      | _ =>
          if hasField fields "formula" || hasField fields "sharedFormula" || hasField fields "result" then
            ((toPrimitives fields).lookup "result").getD .null
          else if hasField fields "error" then .null
          else ((toPrimitives fields).lookup "text").getD .null

def toPrimitives : List (String × Js) → List (String × Js)
  | [] => []
  | (name, v) :: rest => (name, toPrimitive v) :: toPrimitives rest

end

/-! ## Headers -/

def columnField (i : Nat) : String := s!"col_{i}"

def headerText (i : Nat) (v : Js) : String :=
  match toPrimitive string v with
  | .null => columnField i
  | .str s => if s = "" then columnField i else s
  | base => string base

/-- The name of a column whose text `count` columns before it have. -/
def numbered (text : String) (count : Nat) : String :=
  if 0 < count then s!"{text}_{count + 1}" else text

/-- `headerFields`, from a column on; a hole has no name. -/
def headerFieldsFrom (seen : CountMap String) (i : Nat) : List (Option Js) → List (Option String)
  | [] => []
  | none :: rest => none :: headerFieldsFrom seen (i + 1) rest
  | some v :: rest =>
      let text := headerText string i v
      let count := (seen.lookup text).getD 0
      some (numbered text count) :: headerFieldsFrom (seen.increment text) (i + 1) rest

def headerFields (values : List (Option Js)) : List (Option String) := headerFieldsFrom string ∅ 0 values

/-! ## Records -/

/-- `fields[i] ?? col_${i}`. -/
def fieldName (fields : List (Option String)) (i : Nat) : String :=
  (fields[i]?.join).getD (columnField i)

/-- `toPrimitive(values[i])`. -/
def cellAt (values : List (Option Js)) (i : Nat) : Js :=
  toPrimitive string ((values[i]?.join).getD .undefined)

/-- `record[field] = v`. Assigning `__proto__` makes no property; no two columns have that name. -/
def assignField (record : List (String × Js)) (field : String) (v : Js) : List (String × Js) :=
  if field = "__proto__" then record else JsObject.set record field v

/-- The columns of a row, up to `width`, as they are assigned. -/
def toRecordUpTo (fields : List (Option String)) (values : List (Option Js)) : Nat → List (String × Js)
  | 0 => []
  | i + 1 => assignField (toRecordUpTo fields values i) (fieldName fields i) (cellAt string values i)

def toRecord (fields : List (Option String)) (values : List (Option Js)) : List (String × Js) :=
  toRecordUpTo string fields values (max fields.length values.length)

end AnalyticsBackend.Connectors.Worksheet
