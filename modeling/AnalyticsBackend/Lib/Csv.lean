import Mathlib.Data.List.Basic

/-!
# Comma-separated values

Records of fields as text: a comma between two fields, a line break behind a record, and a field
in quotes where its text could be taken for either. A reader gets back what was written.
-/

namespace AnalyticsBackend.Lib.Csv

/-! ## Writing -/

/-- A character that is not written without quotes. -/
def isSpecial (c : Char) : Bool := c == '"' || c == ',' || c == '\n' || c == '\r'

/-- Every quote twice. -/
def doubled (text : List Char) : List Char :=
  text.flatMap fun c => if c = '"' then ['"', '"'] else [c]

/-- The text of a field, in quotes where it has to be. -/
def field (text : List Char) : List Char :=
  if text.any isSpecial then '"' :: (doubled text ++ ['"']) else text

def record (fields : List (List Char)) : List Char := [','].intercalate (fields.map field)

/-! ## Reading -/

/-- Where the reader is in a field: outside quotes, in quotes, or behind a quote that stood in
quotes. -/
inductive Mode where
  | plain
  | quoted
  | closing
  deriving DecidableEq

/-- What was read: the records, and of the record that is being read the fields and the begin of
the next one. -/
structure Reading where
  records : List (List (List Char)) := []
  fields : List (List Char) := []
  cell : List Char := []
  mode : Mode := .plain

/-- Outside quotes; carriage returns there belong to line breaks. -/
def Reading.outside (r : Reading) (c : Char) : Reading :=
  if c = ',' then { records := r.records, fields := r.fields ++ [r.cell] }
  else if c = '\n' then { records := r.records ++ [r.fields ++ [r.cell]] }
  else if c = '\r' then r
  else if c = '"' ∧ r.cell = [] then { r with mode := .quoted }
  else { r with cell := r.cell ++ [c], mode := .plain }

def Reading.step (r : Reading) (c : Char) : Reading :=
  match r.mode with
  | .plain => r.outside c
  | .quoted =>
      if c = '"' then { r with mode := .closing } else { r with cell := r.cell ++ [c] }
  | .closing =>
      if c = '"' then { r with cell := r.cell ++ [c], mode := .quoted } else r.outside c

/-- At the end of the text, a record that was begun is complete. -/
def Reading.finish (r : Reading) : List (List (List Char)) :=
  if r.fields = [] ∧ r.cell = [] ∧ r.mode = .plain then r.records
  else r.records ++ [r.fields ++ [r.cell]]

def parse (text : List Char) : List (List (List Char)) := (text.foldl Reading.step {}).finish

/-! ## Fields -/

theorem not_special {c : Char} (plain : isSpecial c = false) :
    c ≠ '"' ∧ c ≠ ',' ∧ c ≠ '\n' ∧ c ≠ '\r' := by
  simpa [isSpecial, not_or, and_assoc] using plain

/-- A text without special characters is read as it stands. -/
theorem read_plain (text : List Char) (r : Reading) (mode : r.mode = .plain)
    (plain : ∀ c ∈ text, isSpecial c = false) :
    text.foldl Reading.step r = { r with cell := r.cell ++ text } := by
  induction text generalizing r with
  | nil => rw [List.append_nil, List.foldl_nil]
  | cons c rest ih =>
      obtain ⟨first, others⟩ := List.forall_mem_cons.mp plain
      obtain ⟨quote, comma, feed, carriage⟩ := not_special first
      have one : r.step c = { r with cell := r.cell ++ [c], mode := .plain } := by
        rw [Reading.step, mode, Reading.outside, if_neg comma, if_neg feed, if_neg carriage,
          if_neg fun opens => quote opens.1]
      rw [List.foldl_cons, one, ih _ rfl others, ← mode]
      simp

/-- In quotes, the doubled text is read as the text. -/
theorem read_doubled (text : List Char) (r : Reading) (mode : r.mode = .quoted) :
    (doubled text).foldl Reading.step r = { r with cell := r.cell ++ text } := by
  induction text generalizing r with
  | nil => simp [doubled]
  | cons c rest ih =>
      have others := ih { r with cell := r.cell ++ [c] } mode
      have one : (if c = '"' then ['"', '"'] else [c]).foldl Reading.step r =
          { r with cell := r.cell ++ [c] } := by
        split
        · rename_i quote
          simp [Reading.step, mode, quote]
        · rename_i quote
          simp [Reading.step, mode, quote]
      rw [doubled, List.flatMap_cons, List.foldl_append, one, ← doubled, others,
        List.append_assoc, List.singleton_append]

/-- What ends a field. -/
def Ends (c : Char) : Prop := c = ',' ∨ c = '\n'

/-- A field is read up to what ends it, from where no field was begun. -/
theorem read_field (text : List Char) {r : Reading} (mode : r.mode = .plain) (fresh : r.cell = [])
    {c : Char} (ends : Ends c) :
    (field text ++ [c]).foldl Reading.step r = { r with cell := text }.outside c := by
  have nothing : ({ r with cell := r.cell ++ text } : Reading) = { r with cell := text } := by
    rw [fresh, List.nil_append]
  unfold field
  split
  · have opened : r.step '"' = { r with mode := .quoted } := by
      simp [Reading.step, mode, Reading.outside, fresh]
    rw [List.cons_append, List.foldl_cons, opened, List.append_assoc, List.foldl_append,
      read_doubled text _ rfl]
    rcases ends with rfl | rfl <;> simp [Reading.step, Reading.outside, fresh]
  · rename_i plain
    have each : ∀ c ∈ text, isSpecial c = false := by simpa using plain
    rw [List.foldl_append, read_plain text r mode each, nothing, List.foldl_cons, List.foldl_nil,
      Reading.step, mode]

/-! ## Records -/

/-- A record is read, with the line break behind it. -/
theorem read_record (fields : List (List Char)) (r : Reading) (mode : r.mode = .plain)
    (fresh : r.cell = []) :
    (record fields ++ ['\n']).foldl Reading.step r =
      { records := r.records ++ [r.fields ++ if fields = [] then [[]] else fields] } := by
  induction fields generalizing r with
  | nil => simp [record, List.intercalate, Reading.step, mode, Reading.outside, fresh]
  | cons text rest ih =>
      cases rest with
      | nil =>
          rw [record, List.map_singleton, List.intercalate_singleton,
            read_field text mode fresh (.inr rfl)]
          simp [Reading.outside]
      | cons next rest =>
          have parts : record (text :: next :: rest) ++ ['\n'] =
              (field text ++ [',']) ++ (record (next :: rest) ++ ['\n']) := by
            simp [record, List.intercalate_cons_cons]
          rw [parts, List.foldl_append, read_field text mode fresh (.inl rfl), Reading.outside,
            if_pos rfl, ih _ rfl rfl]
          simp

/-- What a reader makes of a record: without fields, it reads as one empty field. -/
def shown (fields : List (List Char)) : List (List Char) := if fields = [] then [[]] else fields

/-- Lines are read as their records. -/
theorem read_lines (records : List (List (List Char))) (before : List (List (List Char))) :
    (records.flatMap fun fields => record fields ++ ['\n']).foldl Reading.step
      { records := before } = { records := before ++ records.map shown } := by
  induction records generalizing before with
  | nil => simp
  | cons fields rest ih =>
      rw [List.flatMap_cons, List.foldl_append, read_record fields _ rfl rfl, List.nil_append, ih]
      simp [shown]

/-- **Round trip.** A text of lines is read as what was written. -/
theorem parse_lines (records : List (List (List Char))) :
    parse (records.flatMap fun fields => record fields ++ ['\n']) = records.map shown := by
  rw [parse, read_lines, List.nil_append]
  rfl

/-- At the end of the text a record is complete as it is by a line break, if it is not empty. -/
theorem finish_of_step {r : Reading} {before : List (List (List Char))} {last : List (List Char)}
    (ended : r.step '\n' = { records := before ++ [last] }) (some : last ≠ [[]]) :
    r.finish = before ++ [last] := by
  have broken : r.mode ≠ .quoted → r.records ++ [r.fields ++ [r.cell]] = before ++ [last] := by
    intro outside
    have same : r.step '\n' = { records := r.records ++ [r.fields ++ [r.cell]] } := by
      cases mode : r.mode with
      | plain => rw [Reading.step, mode]; rfl
      | quoted => exact absurd mode outside
      | closing => rw [Reading.step, mode]; rfl
    rw [same] at ended
    exact congrArg Reading.records ended
  unfold Reading.finish
  split
  · rename_i nothing
    obtain ⟨fields, cell, mode⟩ := nothing
    have empty := broken (by rw [mode]; nofun)
    rw [fields, cell] at empty
    exact absurd (List.append_inj_right' empty rfl) fun is => some (List.cons.inj is).1.symm
  · by_cases mode : r.mode = .quoted
    · have kept : (r.step '\n').cell = r.cell ++ ['\n'] := by rw [Reading.step, mode]; rfl
      rw [ended] at kept
      exact absurd kept.symm (List.append_ne_nil_of_right_ne_nil _ (List.cons_ne_nil _ _))
    · exact broken mode

theorem intercalate_concat (lines : List (List Char)) (last : List Char) :
    ['\n'].intercalate (lines ++ [last]) = lines.flatMap (· ++ ['\n']) ++ last := by
  induction lines with
  | nil => exact List.intercalate_singleton ..
  | cons line rest ih =>
      have some : rest ++ [last] ≠ [] := List.concat_ne_nil last rest
      obtain ⟨next, others, is⟩ := List.exists_cons_of_ne_nil some
      rw [List.cons_append, is, List.intercalate_cons_cons, ← is, ih, List.flatMap_cons]
      simp

/-- **Round trip.** So is a text of lines with breaks between them, unless the last line is empty. -/
theorem parse_intercalate (records : List (List (List Char))) {last : List (List Char)}
    (some : shown last ≠ [[]]) :
    parse (['\n'].intercalate ((records ++ [last]).map record)) = (records ++ [last]).map shown := by
  rw [List.map_append, List.map_singleton, intercalate_concat, List.flatMap_map, parse,
    List.foldl_append, read_lines, List.map_append, List.map_singleton]
  refine finish_of_step ?_ some
  have whole := read_record last { records := [] ++ records.map shown } rfl rfl
  rwa [List.foldl_append] at whole

/-- Records of several fields are read as they were written. -/
theorem parse_table {records : List (List (List Char))} (some : records ≠ [])
    (wide : ∀ fields ∈ records, 1 < fields.length) :
    parse (['\n'].intercalate (records.map record)) = records := by
  have shows : ∀ fields ∈ records, shown fields = fields := fun fields mem =>
    if_neg fun none => by simpa [none] using wide fields mem
  obtain ⟨init, last, rfl⟩ := (List.eq_nil_or_concat' records).resolve_left some
  have mem : last ∈ init ++ [last] := by simp
  rw [parse_intercalate, List.map_congr_left shows, List.map_id']
  rw [shows last mem]
  intro is
  simpa [is] using wide last mem

end AnalyticsBackend.Lib.Csv
