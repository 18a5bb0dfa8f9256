/-
  File:      Helpdesk/Python/Csv.lean
  Subject:   `csv.reader(io.StringIO(value))`, in the dialect `excel`.

  The reader is a machine over the characters of a line; the end of the line is an event of
  its own. A line of the file ends behind `\n`, so a cell in quotes may go over several.

  * **`csvReader_written`**: any rows are the rows of a file.
-/
import Mathlib.Data.List.Basic
import Mathlib.Tactic.Common

namespace Helpdesk.Python

/-! ## 1. The reader -/

/-- The states of `parse_process_char`, without the ones of an escape character. -/
inductive CsvMode where
  | startRecord | startField | inField | inQuotedField | quoteInQuotedField | eatCrnl
  deriving DecidableEq, Repr

structure CsvReader where
  mode : CsvMode := .startRecord
  field : List Char := []
  fields : List String := []
  records : List (List String) := []

/-- `csv.field_size_limit()`. -/
def fieldSizeLimit : Nat := 131072

namespace CsvReader

/-- `parse_add_char`. -/
def addChar (r : CsvReader) (mode : CsvMode) (c : Char) : Option CsvReader :=
  if r.field.length < fieldSizeLimit then some { r with mode, field := r.field ++ [c] } else none

/-- `parse_save_field`. -/
def saveField (r : CsvReader) (mode : CsvMode) : CsvReader :=
  { r with mode, field := [], fields := r.fields ++ [String.ofList r.field] }

/-- What `Reader_iternext` returns at the end of a line. -/
def endRecord (r : CsvReader) : CsvReader :=
  { r with mode := .startRecord, fields := [], records := r.records ++ [r.fields] }

/-- The first character of a field. -/
def startField (r : CsvReader) (c : Char) : Option CsvReader :=
  if c = '\n' ∨ c = '\r' then some (r.saveField .eatCrnl)
  else if c = '"' then some { r with mode := .inQuotedField }
  else if c = ',' then some (r.saveField .startField)
  else r.addChar .inField c

/-- `parse_process_char`: the end of the line is `none`. -/
def process (r : CsvReader) : Option Char → Option CsvReader
  | none =>
      match r.mode with
      | .startRecord | .eatCrnl => some r.endRecord
      | .inQuotedField => some r
      | .startField | .inField | .quoteInQuotedField => some (r.saveField .startRecord).endRecord
  | some c =>
      match r.mode with
      | .startRecord =>
          if c = '\n' ∨ c = '\r' then some { r with mode := .eatCrnl } else r.startField c
      | .startField => r.startField c
      | .inField =>
          if c = '\n' ∨ c = '\r' then some (r.saveField .eatCrnl)
          else if c = ',' then some (r.saveField .startField)
          else r.addChar .inField c
      | .inQuotedField =>
          if c = '"' then some { r with mode := .quoteInQuotedField }
          else r.addChar .inQuotedField c
      | .quoteInQuotedField =>
          if c = '"' then r.addChar .inQuotedField c
          else if c = ',' then some (r.saveField .startField)
          else if c = '\n' ∨ c = '\r' then some (r.saveField .eatCrnl)
          else r.addChar .inField c
      | .eatCrnl => if c = '\n' ∨ c = '\r' then some r else none

/-- A file that ends inside of quotes ends the field and the record. -/
def finish (r : CsvReader) : List (List String) :=
  if r.mode = .inQuotedField then r.records ++ [(r.saveField .startRecord).fields] else r.records

end CsvReader

/-- A character, and the end of the line behind `\n`. -/
def charEvents (c : Char) : List (Option Char) := if c = '\n' then [some c, none] else [some c]

/-- The events of the lines of a file. -/
def lineEvents (text : List Char) : List (Option Char) :=
  text.flatMap charEvents ++ if text = [] ∨ text.getLast? = some '\n' then [] else [none]

/-- `list(csv.reader(io.StringIO(value)))`; `none` where it raises `csv.Error`. -/
def csvReader (value : String) : Option (List (List String)) :=
  ((lineEvents value.toList).foldlM CsvReader.process {}).map CsvReader.finish

/-! ## 2. Every table is the table of a file -/

/-- A cell in quotes. -/
def quoted (cell : String) : List Char :=
  '"' :: (cell.toList.flatMap (fun c => if c = '"' then ['"', '"'] else [c]) ++ ['"'])

/-- The line of a row whose cells stand in quotes. -/
def written (row : List String) : List Char := [','].intercalate (row.map quoted) ++ ['\n']

namespace CsvReader

variable {r : CsvReader}

/-- The reader behind a text. -/
def run (text : List Char) (r : CsvReader) : Option CsvReader :=
  (text.flatMap charEvents).foldlM process r

theorem run_append (front back : List Char) (r : CsvReader) :
    run (front ++ back) r = (run front r).bind (run back) := by
  rw [run, List.flatMap_append, List.foldlM_append]
  rfl

theorem run_cons {c : Char} (hc : c ≠ '\n') (cs : List Char) (r : CsvReader) :
    run (c :: cs) r = (r.process (some c)).bind (run cs) := by
  rw [run, List.flatMap_cons, charEvents, if_neg hc, List.singleton_append, List.foldlM_cons]
  rfl

/-- Inside of quotes a line may end. -/
theorem run_quoted_cons {c : Char} (hmode : r.mode = .inQuotedField) (hc : c ≠ '"')
    (hroom : r.field.length < fieldSizeLimit) (cs : List Char) :
    run (c :: cs) r = run cs { r with field := r.field ++ [c] } := by
  have hstep : r.process (some c) = some { r with field := r.field ++ [c] } := by
    rw [process, hmode]
    simp only [if_neg hc, addChar, if_pos hroom]
  by_cases hline : c = '\n'
  · have hend : process { r with field := r.field ++ [c] } none = some { r with field := r.field ++ [c] } := by
      rw [process]
      simp only [hmode]
    rw [run, List.flatMap_cons, charEvents, if_pos hline, List.cons_append, List.singleton_append,
      List.foldlM_cons, hstep]
    show ((some { r with field := r.field ++ [c] } : Option CsvReader).bind fun r =>
      (none :: cs.flatMap charEvents).foldlM process r) = _
    rw [Option.bind_some, List.foldlM_cons, hend]
    rfl
  · rw [run_cons hline, hstep, Option.bind_some]

/-- A quote inside of quotes is written twice. -/
theorem run_quotes (hmode : r.mode = .inQuotedField) (hroom : r.field.length < fieldSizeLimit)
    (cs : List Char) : run ('"' :: '"' :: cs) r = run cs { r with field := r.field ++ ['"'] } := by
  have hfirst : r.process (some '"') = some { r with mode := .quoteInQuotedField } := by
    rw [process, hmode]
    rfl
  have hsecond : process { r with mode := .quoteInQuotedField } (some '"') =
      some { r with field := r.field ++ ['"'] } := by
    show addChar { r with mode := .quoteInQuotedField } .inQuotedField '"' = _
    rw [addChar, if_pos hroom, ← hmode]
  rw [run_cons (by decide), hfirst, Option.bind_some, run_cons (by decide), hsecond,
    Option.bind_some]

theorem run_content : ∀ (cell : List Char) {r : CsvReader}, r.mode = .inQuotedField →
    r.field.length + cell.length ≤ fieldSizeLimit →
      run (cell.flatMap fun c => if c = '"' then ['"', '"'] else [c]) r =
        some { r with field := r.field ++ cell }
  | [], r, _, _ => by
    rw [List.append_nil]
    rfl
  | c :: cell, r, hmode, hroom => by
    rw [List.length_cons] at hroom
    have hnow : r.field.length < fieldSizeLimit := by omega
    have hrest : (r.field ++ [c]).length + cell.length ≤ fieldSizeLimit := by
      rw [List.length_append, List.length_singleton]
      omega
    have ih := run_content cell (r := { r with field := r.field ++ [c] }) hmode hrest
    rw [List.append_assoc, List.singleton_append] at ih
    rw [List.flatMap_cons, ← ih]
    by_cases hc : c = '"'
    · rw [if_pos hc, hc]
      exact run_quotes hmode hnow _
    · rw [if_neg hc]
      exact run_quoted_cons hmode hc hnow _

/-- The reader where a field begins. -/
structure AtField (r : CsvReader) : Prop where
  mode : r.mode = .startRecord ∨ r.mode = .startField
  field : r.field = []

theorem run_cell (h : AtField r) {cell : String} (hroom : cell.toList.length ≤ fieldSizeLimit) :
    run (quoted cell) r = some { r with mode := .quoteInQuotedField, field := cell.toList } := by
  have hopen : r.process (some '"') = some { r with mode := .inQuotedField } := by
    rcases h.mode with hmode | hmode
    · rw [process, hmode]
      rfl
    · rw [process, hmode]
      rfl
  have hcontent := run_content cell.toList (r := { r with mode := .inQuotedField }) rfl
    (by rw [h.field, List.length_nil, Nat.zero_add]; exact hroom)
  rw [quoted, run_cons (by decide), hopen, Option.bind_some, run_append, hcontent, Option.bind_some,
    h.field, List.nil_append]
  rfl

/-- The cells of a row that are still to be read. -/
theorem run_cells : ∀ (cell : String) (cells : List String) {r : CsvReader}, AtField r →
    (∀ text ∈ cell :: cells, text.toList.length ≤ fieldSizeLimit) →
      run (written (cell :: cells)) r =
        some { mode := .startRecord, records := r.records ++ [r.fields ++ cell :: cells] }
  | cell, [], r, h, hroom => by
    rw [written, List.map_singleton, List.intercalate_singleton, run_append,
      run_cell h (hroom cell List.mem_cons_self), Option.bind_some]
    show some (endRecord (saveField _ _)) = _
    rw [saveField, endRecord, String.ofList_toList]
  | cell, next :: cells, r, h, hroom => by
    have ih := run_cells next cells
      (r := { r with mode := .startField, field := [], fields := r.fields ++ [cell] })
      ⟨.inr rfl, rfl⟩ (fun text htext => hroom text (List.mem_cons_of_mem cell htext))
    have hcomma : process { r with mode := .quoteInQuotedField, field := cell.toList } (some ',') =
        some { r with mode := .startField, field := [], fields := r.fields ++ [cell] } := by
      show some (saveField _ _) = _
      rw [saveField, String.ofList_toList]
    have hline : written (cell :: next :: cells) = quoted cell ++ ',' :: written (next :: cells) := by
      rw [written, written, List.map_cons, List.map_cons, List.intercalate_cons_cons, List.append_assoc,
        List.append_assoc, List.singleton_append]
    rw [hline, run_append, run_cell h (hroom cell List.mem_cons_self), Option.bind_some,
      run_cons (by decide), hcomma, Option.bind_some, ih, List.append_assoc, List.singleton_append]

theorem run_row (row : List String) (hroom : ∀ cell ∈ row, cell.toList.length ≤ fieldSizeLimit)
    (records : List (List String)) :
    run (written row) { records } = some { records := records ++ [row] } := by
  cases row with
  | nil => rfl
  | cons cell cells => exact run_cells cell cells ⟨.inl rfl, rfl⟩ hroom

theorem run_rows (rows : List (List String))
    (hroom : ∀ row ∈ rows, ∀ cell ∈ row, cell.toList.length ≤ fieldSizeLimit)
    (records : List (List String)) :
    run (rows.flatMap written) { records } = some { records := records ++ rows } := by
  induction rows generalizing records with
  | nil =>
    rw [List.append_nil]
    rfl
  | cons row rows ih =>
    have hrest := ih (fun r hr => hroom r (List.mem_cons_of_mem row hr)) (records ++ [row])
    rw [List.flatMap_cons, run_append, run_row row (hroom row List.mem_cons_self), Option.bind_some,
      hrest, List.append_assoc, List.singleton_append]

end CsvReader

/-- **Any rows are the rows of a file**, if no cell is longer than the reader allows. -/
theorem csvReader_written {rows : List (List String)}
    (hroom : ∀ row ∈ rows, ∀ cell ∈ row, cell.toList.length ≤ fieldSizeLimit) :
    csvReader (String.ofList (rows.flatMap written)) = some rows := by
  have hend : lineEvents (rows.flatMap written) = (rows.flatMap written).flatMap charEvents := by
    rw [lineEvents, if_pos, List.append_nil]
    rcases List.eq_nil_or_concat' rows with rfl | ⟨front, row, rfl⟩
    · exact .inl rfl
    · right
      rw [List.flatMap_append, List.flatMap_singleton, written, ← List.append_assoc,
        List.getLast?_concat]
  have hrun := CsvReader.run_rows rows hroom []
  rw [CsvReader.run, List.nil_append] at hrun
  rw [csvReader, String.toList_ofList, hend]
  show Option.map CsvReader.finish (((rows.flatMap written).flatMap charEvents).foldlM _ { records := [] }) = _
  rw [hrun]
  rfl

end Helpdesk.Python
