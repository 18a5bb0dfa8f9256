/-
  File:      Helpdesk/Knowledge/TableTexts.lean
  Subject:   What the text of a table keeps of its cells (ingestion/parsers/documents.py).

  A table becomes lines of cells between bars; the rows are padded to the longest one, and a
  rule follows the first. No cell is escaped. A table of a document is a section of its own;
  the text of a CSV file is cut into paragraphs like any other one.

  * `rowsMarkdown_toList`: the text of rows as a table of lines;
  * `docx_kept_iff`, `html_kept_iff`, `csv_kept_iff`: which tables can be read back;
  * **`table_law`**: all three.
-/
import Helpdesk.Knowledge.CleanTexts
import Helpdesk.Python.Csv

namespace Helpdesk.Knowledge

open Helpdesk.Python Helpdesk.Separated

/-! ## 1. CSV files -/

/-- `_csv_markdown`. -/
def csvMarkdown (value : String) : Except ParseFailure String :=
  match csvReader value with
  | none => .error (.parsing "INVALID_CSV")
  | some rows => .ok (rowsMarkdown rows)

/-- `PlainTextParser.parse` of a CSV file, whose bytes are UTF-8. -/
def parseCsv (value : String) : Except ParseFailure ParsedDocument := do
  let value ← csvMarkdown value
  let sections := markdownSections value "text/csv"
  if sections = [] then throw (.parsing "EMPTY_EXTRACTION")
  return ⟨sections, none, [("encoding", "utf-8")]⟩

/-- The texts of the sections of a CSV file. -/
def csvTexts (value : String) : List String :=
  match parseCsv value with
  | .ok document => document.sections.map (·.text)
  | .error _ => []

/-! ## 2. The rows behind a text -/

/-- The rows of a text that is a table: its bars part the cells, its second line is a rule. -/
def readTable (text : String) : List (List (List Char)) := readRows '|' '\n' strip text.toList

def tableWidth (rows : List (List String)) : Nat := (rows.map (·.length)).max?.getD 0

def padded (rows : List (List String)) (row : List String) : List String :=
  row ++ List.replicate (tableWidth rows - row.length) ""

/-- The rows as a table can show them: of one length, the cells without blanks at their ends. -/
def laid (rows : List (List String)) : List (List (List Char)) :=
  rows.map fun row => (padded rows row).map fun cell => (clean cell).toList

/-- The texts keep the rows: they are one table, from which the rows can be read. -/
def TableKept (rows : List (List String)) (texts : List String) : Prop :=
  if rows = [] then texts = [] else ∃ text, texts = [text] ∧ readTable text = laid rows

/-- A cell between two bars. -/
def pad (cell : List Char) : List Char := ' ' :: (cell ++ [' '])

def ruleLine (width : Nat) : List Char := line '|' pad (List.replicate width "---".toList)

/-- The characters of a row. -/
def chars (row : List String) : List (List Char) := row.map (·.toList)

/-! ## 3. The text of rows -/

theorem markdownRow_toList {row : List String} (hne : row ≠ []) :
    (markdownRow row).toList = line '|' pad (chars row) := by
  have htail : ∀ (cell : String) (cells : List String),
      ['|'].intercalate ((chars (cell :: cells)).map pad ++ [[]]) =
        ' ' :: ([' ', '|', ' '].intercalate (chars (cell :: cells)) ++ [' ', '|']) := by
    intro cell cells
    induction cells generalizing cell with
    | nil => simp [chars, pad, List.intercalate_cons_cons]
    | cons next cells ih =>
      have hrest := ih next
      rw [chars, List.map_cons, List.map_cons, List.map_cons, List.intercalate_cons_cons,
        List.cons_append, List.map_cons, List.cons_append, List.intercalate_cons_cons]
      rw [chars, List.map_cons, List.map_cons, List.cons_append] at hrest
      rw [hrest]
      simp [pad]
  obtain ⟨cell, cells, rfl⟩ := List.exists_cons_of_ne_nil hne
  have hline : line '|' pad (chars (cell :: cells)) =
      '|' :: ['|'].intercalate ((chars (cell :: cells)).map pad ++ [[]]) := by
    rw [line, chars, List.map_cons, List.map_cons, List.cons_append, List.intercalate_cons_cons]
    rfl
  rw [hline, htail, markdownRow, String.toList_append, String.toList_append, String.toList_intercalate]
  rfl

theorem le_tableWidth {rows : List (List String)} {row : List String} (h : row ∈ rows) :
    row.length ≤ tableWidth rows := by
  rw [tableWidth]
  cases hmax : (rows.map (·.length)).max? with
  | none =>
    rw [List.max?_eq_none_iff, List.map_eq_nil_iff] at hmax
    rw [hmax] at h
    cases h
  | some width => exact (List.max?_eq_some_iff.mp hmax).2 _ (List.mem_map_of_mem h)

/-- Padding makes rows as long as the longest. -/
theorem length_padded {rows : List (List String)} {row : List String} (h : row ∈ rows) :
    (padded rows row).length = tableWidth rows := by
  have hle := le_tableWidth h
  rw [padded, List.length_append, List.length_replicate]
  omega

/-- The first row has a cell. -/
def Headed (rows : List (List String)) : Prop := ∃ first rest, rows = first :: rest ∧ first ≠ []

theorem headed_iff {rows : List (List String)} : Headed rows ↔ rows ≠ [] ∧ rows.head? ≠ some [] := by
  cases rows with
  | nil => exact iff_of_false (fun ⟨_, _, h, _⟩ => nomatch h) fun h => h.1 rfl
  | cons first rest =>
    constructor
    · intro ⟨_, _, heq, hfirst⟩
      obtain ⟨rfl, rfl⟩ := List.cons.inj heq
      exact ⟨List.cons_ne_nil _ _, fun hnil => hfirst (Option.some.inj hnil)⟩
    · intro ⟨_, hfirst⟩
      exact ⟨first, rest, rfl, fun hnil => hfirst (congrArg some hnil)⟩

theorem rowsMarkdown_of_not_headed {rows : List (List String)} (h : ¬ Headed rows) :
    rowsMarkdown rows = "" := by
  match rows with
  | [] => rfl
  | [] :: _ => rfl
  | (cell :: cells) :: rest => exact absurd ⟨_, _, rfl, List.cons_ne_nil _ _⟩ h

/-- The lines of the text of rows. -/
def tableLines (rows : List (List String)) : List (List Char) :=
  match rows with
  | [] => []
  | first :: rest =>
      line '|' pad (chars (padded rows first)) :: ruleLine (tableWidth rows) ::
        rest.map fun row => line '|' pad (chars (padded rows row))

variable {rows : List (List String)}

/-- **The text of rows** is a table of lines. -/
theorem rowsMarkdown_toList (h : Headed rows) :
    (rowsMarkdown rows).toList = ['\n'].intercalate (tableLines rows) := by
  have hrow : ∀ row ∈ rows, padded rows row ≠ [] := by
    intro row hrow hnil
    have hlength := length_padded hrow
    obtain ⟨first, rest, rfl, hfirst⟩ := h
    have hle : first.length ≤ tableWidth (first :: rest) := le_tableWidth List.mem_cons_self
    have hpos := List.length_pos_of_ne_nil hfirst
    rw [hnil, List.length_nil] at hlength
    omega
  obtain ⟨first, rest, hrows, hfirst⟩ := h
  have hmem : first ∈ rows := by
    rw [hrows]
    exact List.mem_cons_self
  have hwidth : tableWidth rows ≠ 0 := by
    rw [← length_padded hmem]
    exact (List.length_pos_of_ne_nil (hrow first hmem)).ne'
  have hrule : (markdownRow (List.replicate (tableWidth rows) "---")).toList =
      ruleLine (tableWidth rows) := by
    rw [markdownRow_toList fun hnil => hwidth ((List.replicate_eq_nil_iff _).mp hnil), chars,
      List.map_replicate]
    rfl
  have hlines : rowsMarkdown rows =
      "\n".intercalate (markdownRow (padded rows first) ::
        markdownRow (List.replicate (tableWidth rows) "---") ::
          rest.map fun row => markdownRow (padded rows row)) := by
    obtain ⟨cell, cells, rfl⟩ := List.exists_cons_of_ne_nil hfirst
    rw [hrows]
    rfl
  have hrest : (rest.map fun row => markdownRow (padded rows row)).map (·.toList) =
      rest.map fun row => line '|' pad (chars (padded rows row)) := by
    rw [List.map_map]
    refine List.map_congr_left ?_
    intro row hin
    refine markdownRow_toList (hrow row ?_)
    rw [hrows]
    exact List.mem_cons_of_mem first hin
  rw [hlines, String.toList_intercalate, List.map_cons, List.map_cons, hrest, hrule,
    markdownRow_toList (hrow first hmem), hrows]
  rfl

theorem framed_of_mem_tableLines {text : List Char} (h : text ∈ tableLines rows) : Framed '|' text := by
  cases rows with
  | nil => cases h
  | cons first rest =>
    rcases List.mem_cons.mp h with rfl | h
    · exact framed_line _ _ _
    · rcases List.mem_cons.mp h with rfl | h
      · exact framed_line _ _ _
      · obtain ⟨row, _, rfl⟩ := List.mem_map.mp h
        exact framed_line _ _ _

theorem mem_tableLines {row : List String} (h : row ∈ rows) :
    line '|' pad (chars (padded rows row)) ∈ tableLines rows := by
  cases rows with
  | nil => cases h
  | cons first rest =>
    rcases List.mem_cons.mp h with rfl | h
    · exact List.mem_cons_self
    · exact List.mem_cons_of_mem _ (List.mem_cons_of_mem _ (List.mem_map_of_mem h))

theorem length_tableLines (h : Headed rows) : (tableLines rows).length = rows.length + 1 := by
  obtain ⟨first, rest, rfl, _⟩ := h
  rw [tableLines, List.length_cons, List.length_cons, List.length_map, List.length_cons]

theorem tableLines_ne_nil (h : Headed rows) : tableLines rows ≠ [] := by
  obtain ⟨first, rest, rfl, _⟩ := h
  exact List.cons_ne_nil _ _

/-- The text of rows stands between two bars. -/
theorem framed_rowsMarkdown (h : Headed rows) : Framed '|' (rowsMarkdown rows).toList := by
  rw [rowsMarkdown_toList h]
  exact framed_join_of_forall _ (tableLines_ne_nil h) fun _ => framed_of_mem_tableLines

theorem rowsMarkdown_eq_empty_iff : rowsMarkdown rows = "" ↔ ¬ Headed rows := by
  constructor
  · intro hempty h
    obtain ⟨back, hback⟩ := (framed_rowsMarkdown h).front
    rw [hempty] at hback
    cases hback
  · exact rowsMarkdown_of_not_headed

/-! ## 4. Tables of documents -/

theorem strip_pad (cell : List Char) : strip (pad cell) = strip cell := by
  have hspace : strip (' ' :: cell) = strip cell := rfl
  rw [pad, ← List.cons_append, strip_append_blank (List.forall_mem_singleton.mpr rfl), hspace]

theorem mem_pad_iff {c : Char} (hc : c ≠ ' ') {cell : List Char} : c ∈ pad cell ↔ c ∈ cell := by
  simp [pad, hc]

/-- What holds of the cells holds of the empty ones, too. -/
theorem forall_padded {p : List Char → Prop} (hempty : p []) :
    (∀ row ∈ rows, ∀ cell ∈ chars (padded rows row), p cell) ↔
      ∀ row ∈ rows, ∀ cell ∈ row, p cell.toList := by
  refine forall₂_congr fun row _ => ?_
  rw [chars, List.forall_mem_map, padded, List.forall_mem_append]
  refine and_iff_left ?_
  intro cell hcell
  rw [List.eq_of_mem_replicate hcell]
  exact hempty

theorem not_mem_ruleLine (width : Nat) : '\n' ∉ ruleLine width := by
  rw [ruleLine, mem_line_iff (by decide)]
  intro ⟨cell, hcell, hmem⟩
  rw [List.eq_of_mem_replicate hcell] at hmem
  exact absurd hmem (by decide)

/-- **Where the rows can be read back** from their text, for any way to read a cell. -/
theorem readRows_tableLines_iff (h : Headed rows) (read : List Char → List Char) :
    readRows '|' '\n' read (['\n'].intercalate (tableLines rows)) =
        rows.map (fun row => (chars (padded rows row)).map fun cell => read (pad cell)) ↔
      ∀ row ∈ rows, ∀ cell ∈ row, '|' ∉ cell.toList ∧ '\n' ∉ cell.toList := by
  have hcells : (∀ row ∈ rows, ∀ cell ∈ chars (padded rows row), '|' ∉ pad cell ∧ '\n' ∉ pad cell) ↔
      ∀ row ∈ rows, ∀ cell ∈ row, '|' ∉ pad cell.toList ∧ '\n' ∉ pad cell.toList :=
    forall_padded (p := fun cell => '|' ∉ pad cell ∧ '\n' ∉ pad cell) (by decide)
  have hiff : readRows '|' '\n' read (['\n'].intercalate (tableLines rows)) =
      (rows.map fun row => chars (padded rows row)).map (·.map fun cell => read (pad cell)) ↔
      ∀ row ∈ rows.map fun row => chars (padded rows row), ∀ cell ∈ row,
        '|' ∉ pad cell ∧ '\n' ∉ pad cell := by
    obtain ⟨first, rest, rfl, _⟩ := h
    have hbar : '\n' ≠ '|' := by decide
    have hlines : tableLines (first :: rest) = line '|' pad (chars (padded (first :: rest) first)) ::
        ruleLine (tableWidth (first :: rest)) ::
          (rest.map fun row => chars (padded (first :: rest) row)).map (line '|' pad) := by
      rw [List.map_map]
      rfl
    rw [List.map_cons, hlines]
    exact readRows_table_iff hbar (not_mem_ruleLine (tableWidth (first :: rest)))
  rw [List.map_map, List.forall_mem_map, hcells] at hiff
  simp only [mem_pad_iff (c := '|') (by decide), mem_pad_iff (c := '\n') (by decide)] at hiff
  exact hiff

theorem clean_empty : clean "" = "" := by decide

/-- Cleaning the cells before or after the rows are padded. -/
theorem padded_clean (rows : List (List String)) (row : List String) :
    padded (rows.map (·.map clean)) (row.map clean) = (padded rows row).map clean := by
  have hwidth : tableWidth (rows.map (·.map clean)) = tableWidth rows := by
    rw [tableWidth, tableWidth, List.map_map]
    simp [Function.comp_def]
  rw [padded, padded, hwidth, List.length_map, List.map_append, List.map_replicate, clean_empty]

/-- The cells that are read back are the ones the table can show. -/
theorem laid_clean (rows : List (List String)) :
    (rows.map (·.map clean)).map (fun row =>
      (chars (padded (rows.map (·.map clean)) row)).map fun cell => strip (pad cell)) = laid rows := by
  rw [List.map_map, laid]
  refine List.map_congr_left ?_
  intro row _
  rw [Function.comp_apply, padded_clean, chars, List.map_map, List.map_map]
  refine List.map_congr_left ?_
  intro text _
  rw [Function.comp_apply, Function.comp_apply, strip_pad, strip_clean]

/-- The texts of a table of a document. -/
def documentTexts (rows : List (List String)) : List String :=
  let markdown := rowsMarkdown (rows.map (·.map clean))
  if markdown = "" then [] else [markdown]

theorem docx_texts (t : DocxTable) : (tableSection t).toList.map (·.text) = documentTexts t.rows := by
  rw [tableSection, documentTexts]
  by_cases hempty : rowsMarkdown (t.rows.map (·.map clean)) = ""
  · simp only [if_pos hempty]
    rfl
  · simp only [if_neg hempty]
    rfl

theorem html_texts (node : HtmlNode) : (htmlTable node).toList = documentTexts node.rows := by
  rw [htmlTable, documentTexts]
  by_cases hempty : rowsMarkdown (node.rows.map (·.map clean)) = ""
  · simp only [if_pos hempty]
    rfl
  · simp only [if_neg hempty]
    rfl

theorem headed_map_iff {f : String → String} : Headed (rows.map (·.map f)) ↔ Headed rows := by
  match rows with
  | [] => exact Iff.rfl
  | [] :: rest =>
    refine iff_of_false ?_ ?_
    · exact fun h => (headed_iff.mp h).2 rfl
    · exact fun h => (headed_iff.mp h).2 rfl
  | (cell :: cells) :: rest =>
    refine iff_of_true ?_ ?_
    · exact ⟨_, _, rfl, List.cons_ne_nil _ _⟩
    · exact ⟨_, _, rfl, List.cons_ne_nil _ _⟩

/-- Rows without a first cell leave no text. -/
theorem kept_nil_iff : TableKept rows [] ↔ rows = [] := by
  rw [TableKept]
  split
  · next hnil => exact iff_of_true rfl hnil
  · next hne => exact iff_of_false (fun ⟨_, h, _⟩ => nomatch h) hne

theorem kept_singleton_iff (hne : rows ≠ []) {text : String} :
    TableKept rows [text] ↔ readTable text = laid rows := by
  rw [TableKept, if_neg hne]
  constructor
  · intro ⟨_, heq, hread⟩
    rw [List.singleton_inj.mp heq]
    exact hread
  · intro hread
    exact ⟨text, rfl, hread⟩

/-- Where the first row is empty, nothing can be read back, unless there is no row. -/
theorem not_headed_iff {p : Prop} (h : ¬ Headed rows) :
    rows = [] ↔ rows = [] ∨ rows.head? ≠ some [] ∧ p := by
  constructor
  · exact .inl
  · intro hor
    refine hor.elim id fun hcond => ?_
    by_contra hne
    exact h (headed_iff.mpr ⟨hne, hcond.1⟩)

/-- Which tables of documents can be read back. -/
theorem document_kept_iff (rows : List (List String)) :
    TableKept rows (documentTexts rows) ↔ rows = [] ∨ rows.head? ≠ some [] ∧
      ∀ row ∈ rows, ∀ cell ∈ row, '|' ∉ (clean cell).toList ∧ '\n' ∉ (clean cell).toList := by
  by_cases h : Headed rows
  · have hclean : Headed (rows.map (·.map clean)) := headed_map_iff.mpr h
    obtain ⟨hne, hhead⟩ := headed_iff.mp h
    have hiff := readRows_tableLines_iff hclean strip
    have hcells : (∀ row ∈ rows.map (·.map clean), ∀ cell ∈ row,
        '|' ∉ cell.toList ∧ '\n' ∉ cell.toList) ↔ ∀ row ∈ rows, ∀ cell ∈ row,
          '|' ∉ (clean cell).toList ∧ '\n' ∉ (clean cell).toList := by
      rw [List.forall_mem_map]
      refine forall₂_congr fun row _ => ?_
      rw [List.forall_mem_map]
    rw [laid_clean, hcells, ← rowsMarkdown_toList hclean] at hiff
    have htexts : documentTexts rows = [rowsMarkdown (rows.map (·.map clean))] :=
      if_neg fun hempty => rowsMarkdown_eq_empty_iff.mp hempty hclean
    rw [htexts, kept_singleton_iff hne, or_iff_right hne, and_iff_right hhead]
    exact hiff
  · have htexts : documentTexts rows = [] :=
      if_pos (rowsMarkdown_of_not_headed (mt headed_map_iff.mp h))
    rw [htexts, kept_nil_iff]
    exact not_headed_iff h

/-! ## 5. CSV files -/

/-- A cell that is read after the blanks of the whole text are collapsed. -/
def readCell (cell : List Char) : List Char := strip (collapseBlanks false cell)

theorem strip_collapseBlanks (cell : List Char) :
    strip (collapseBlanks true cell) = strip (collapseBlanks false cell) := by
  cases cell with
  | nil => rfl
  | cons c cell =>
    rw [collapseBlanks, collapseBlanks]
    split
    · exact (rfl : strip (collapseBlanks true cell) = strip (' ' :: collapseBlanks true cell))
    · rfl

theorem collapseBlanks_concat : ∀ (cell : List Char) (inRun : Bool),
    ∃ tail, collapseBlanks inRun (cell ++ [' ']) = collapseBlanks inRun cell ++ tail ∧ Blank tail
  | [], true => ⟨[], rfl, fun c hc => absurd hc List.not_mem_nil⟩
  | [], false => ⟨[' '], rfl, List.forall_mem_singleton.mpr rfl⟩
  | c :: cell, inRun => by
    rw [List.cons_append, collapseBlanks, collapseBlanks]
    split
    · obtain ⟨tail, htail, hblank⟩ := collapseBlanks_concat cell true
      exact ⟨tail, by rw [htail, List.append_assoc], hblank⟩
    · obtain ⟨tail, htail, hblank⟩ := collapseBlanks_concat cell false
      exact ⟨tail, by rw [htail, List.cons_append], hblank⟩

theorem readCell_pad (cell : List Char) : readCell (pad cell) = readCell cell := by
  obtain ⟨tail, htail, hblank⟩ := collapseBlanks_concat cell true
  have hfront : strip (' ' :: collapseBlanks true (cell ++ [' '])) =
      strip (collapseBlanks true (cell ++ [' '])) := rfl
  show strip (' ' :: collapseBlanks true (cell ++ [' '])) = _
  rw [hfront, htail, strip_append_blank hblank, strip_collapseBlanks, readCell]

/-- The blanks are collapsed before the cells are parted, or after. -/
theorem readRows_collapseBlanks (text : List Char) :
    readRows '|' '\n' strip (collapseBlanks false text) = readRows '|' '\n' readCell text := by
  have hfields : ∀ line : List Char, fields '|' strip (collapseBlanks false line) = fields '|' readCell line := by
    intro line
    rw [fields, fields, splitOn_collapseBlanks (by decide), ← List.map_drop, List.dropLast_eq_take,
      List.length_map, ← List.map_take, ← List.dropLast_eq_take, List.map_map]
    rfl
  rw [readRows, readRows, splitOn_collapseBlanks (by decide)]
  cases text.splitOn '\n' with
  | nil => rfl
  | cons first rest =>
    cases rest with
    | nil => rfl
    | cons rule rest =>
      show (collapseBlanks false first :: rest.map (collapseBlanks false)).map _ = _
      rw [← List.map_cons, List.map_map]
      exact List.map_congr_left fun line _ => hfields line

/-- A text between two bars has nothing to strip. -/
theorem strip_framed {text : List Char} (h : Framed '|' text) : strip text = text := by
  refine stripWhere_eq_self ?_ ?_
  · obtain ⟨back, rfl⟩ := h.front
    intro c hc
    rw [← Option.some.inj hc]
    decide
  · obtain ⟨front, rfl⟩ := h.back
    intro c hc
    rw [List.getLast?_concat] at hc
    rw [← Option.some.inj hc]
    decide

theorem framed_collapseBlanks {text : List Char} (h : Framed '|' text) :
    Framed '|' (collapseBlanks false text) := by
  constructor
  · obtain ⟨back, rfl⟩ := h.front
    exact ⟨_, collapseBlanks_cons (by decide) false⟩
  · obtain ⟨front, rfl⟩ := h.back
    exact ⟨_, collapseBlanks_append_cons (by decide) false⟩

theorem shown_framed {text : List Char} (h : Framed '|' text) : Shown text := by
  obtain ⟨back, rfl⟩ := h.front
  exact ⟨'|', List.mem_cons_self, rfl⟩

theorem csvTexts_eq {value : String} (h : csvReader value = some rows) :
    csvTexts value = lineTexts [] (splitLines (rowsMarkdown rows).toList) := by
  have hplain : "text/csv" ≠ "text/markdown" := by decide
  have hmarkdown : csvMarkdown value = .ok (rowsMarkdown rows) := by
    rw [csvMarkdown, h]
  rw [← markdownSections_texts hplain, csvTexts, parseCsv, hmarkdown]
  by_cases hempty : markdownSections (rowsMarkdown rows) "text/csv" = []
  · simp only [bind, Except.bind, hempty, if_true, throw, throwThe, MonadExceptOf.throw, List.map_nil]
  · simp only [bind, Except.bind, if_neg hempty, pure, Except.pure]

section Csv

variable (h : Headed rows)
include h

/-- The lines of the text, which may be more than the lines of the table. -/
theorem splitLines_rowsMarkdown :
    splitLines (rowsMarkdown rows).toList = (tableLines rows).flatMap splitLines := by
  rw [rowsMarkdown_toList h]
  refine splitLines_join ?_
  intro text htext
  obtain ⟨front, hfront⟩ := (framed_of_mem_tableLines htext).back
  exact ⟨front, '|', hfront, rfl⟩

/-- The first and the last line of the text. -/
theorem splitLines_ends : (∃ line lines, splitLines (rowsMarkdown rows).toList = ('|' :: line) :: lines) ∧
    ∃ lines line, splitLines (rowsMarkdown rows).toList = lines ++ [line ++ ['|']] := by
  have hframed := framed_rowsMarkdown h
  constructor
  · obtain ⟨back, hback⟩ := hframed.front
    rw [hback]
    exact splitLines_front rfl
  · obtain ⟨front, hfront⟩ := hframed.back
    exact splitLines_back rfl hfront

/-- A blank line cuts the text. -/
theorem two_le_csvTexts (hblank : ∃ l ∈ splitLines (rowsMarkdown rows).toList, strip l = []) :
    2 ≤ (lineTexts [] (splitLines (rowsMarkdown rows).toList)).length := by
  obtain ⟨⟨first, lines, hlines⟩, body, last, hbody⟩ := splitLines_ends h
  have hfirst : Shown ('|' :: first) := ⟨'|', List.mem_cons_self, rfl⟩
  have hlast : Shown (last ++ ['|']) := ⟨'|', List.mem_append_right last List.mem_cons_self, rfl⟩
  obtain ⟨l, hl, hstrip⟩ := hblank
  rw [hlines] at hl hbody ⊢
  rcases List.mem_cons.mp hl with rfl | hl
  · exact absurd hstrip (strip_ne_nil hfirst)
  · rw [lineTexts, if_neg fun hflush => hflush.2 rfl, List.nil_append]
    rcases last_behind hbody with ⟨rfl, _⟩ | ⟨body, hrest⟩
    · cases hl
    · exact two_le_lineTexts List.mem_cons_self hfirst hrest hlast ⟨l, hl, hstrip⟩

/-- Without a blank line the text is one section, read with its blanks collapsed. -/
theorem lineTexts_of_shown (hshown : ∀ l ∈ splitLines (rowsMarkdown rows).toList, strip l ≠ []) :
    ∃ text, lineTexts [] (splitLines (rowsMarkdown rows).toList) = [text] ∧
      readTable text = readRows '|' '\n' readCell
        (['\n'].intercalate (splitLines (rowsMarkdown rows).toList)) := by
  obtain ⟨⟨first, lines, hlines⟩, body, last, hbody⟩ := splitLines_ends h
  have hmem : '|' :: first ∈ splitLines (rowsMarkdown rows).toList := by
    rw [hlines]
    exact List.mem_cons_self
  have hframed : Framed '|' (['\n'].intercalate (splitLines (rowsMarkdown rows).toList)) :=
    framed_join _ ⟨first, lines, hlines⟩ ⟨body, last, hbody⟩
  have hreturn : '\r' ∉ ['\n'].intercalate (splitLines (rowsMarkdown rows).toList) := by
    rw [mem_join_iff (by decide)]
    intro ⟨l, hl, hin⟩
    exact Bool.noConfusion (mem_splitLines hl '\r' hin)
  refine ⟨bufferText (splitLines (rowsMarkdown rows).toList), ?_, ?_⟩
  · rw [lineTexts_whole hshown, List.nil_append]
    exact bufferTexts_of_shown hmem ⟨'|', List.mem_cons_self, rfl⟩
  · rw [readTable, bufferText_eq, clean_toList (by rw [String.toList_ofList]; exact hreturn),
      String.toList_ofList, strip_framed (framed_collapseBlanks hframed), readRows_collapseBlanks]

/-- Without a line break in a cell the lines of the text are those of the table. -/
theorem splitLines_eq_tableLines
    (hcells : ∀ row ∈ rows, ∀ cell ∈ row, ∀ c ∈ cell.toList, isLineBreak c = false) :
    splitLines (rowsMarkdown rows).toList = tableLines rows := by
  have hline : ∀ cells : List (List Char), (∀ cell ∈ cells, ∀ c ∈ cell, isLineBreak c = false) →
      splitLines (line '|' pad cells) = [line '|' pad cells] := by
    intro cells hcells
    obtain ⟨back, hback⟩ := (framed_line '|' pad cells).front
    refine splitLines_eq_singleton (by rw [hback]; exact List.cons_ne_nil _ _) ?_
    intro c hc
    by_cases hbar : c = '|'
    · rw [hbar]
      rfl
    · obtain ⟨cell, hcell, hin⟩ := (mem_line_iff hbar).mp hc
      by_cases hspace : c = ' '
      · rw [hspace]
        rfl
      · exact hcells cell hcell c ((mem_pad_iff hspace).mp hin)
  have hpadded : ∀ row ∈ rows, ∀ cell ∈ chars (padded rows row), ∀ c ∈ cell, isLineBreak c = false :=
    (forall_padded (p := fun cell => ∀ c ∈ cell, isLineBreak c = false)
      (List.forall_mem_nil _)).mpr hcells
  have hwhole : ∀ text ∈ tableLines rows, splitLines text = [text] := by
    obtain ⟨first, rest, rfl, _⟩ := h
    rw [List.forall_mem_cons] at hpadded
    rw [tableLines, List.forall_mem_cons, List.forall_mem_cons, List.forall_mem_map]
    refine ⟨hline _ hpadded.1, hline _ ?_, fun row hrow => hline _ (hpadded.2 row hrow)⟩
    intro cell hcell
    rw [List.eq_of_mem_replicate hcell]
    exact none_of_all (by decide)
  rw [splitLines_rowsMarkdown h, List.flatMap_congr hwhole, List.flatMap_singleton']

/-- The lines of the text are no more than those of the table only if no cell has a line break. -/
theorem cells_of_length
    (hlength : (splitLines (rowsMarkdown rows).toList).length = (tableLines rows).length) :
    ∀ row ∈ rows, ∀ cell ∈ row, ∀ c ∈ cell.toList, isLineBreak c = false := by
  rw [splitLines_rowsMarkdown h] at hlength
  have hone := length_eq_one_of_flatMap (fun text htext => ?_) hlength
  · have hpadded : ∀ row ∈ rows, ∀ cell ∈ chars (padded rows row), ∀ c ∈ cell, isLineBreak c = false := by
      intro row hrow cell hcell c hc
      by_contra hbreak
      have hlen := hone (line '|' pad (chars (padded rows row))) (mem_tableLines hrow)
      obtain ⟨front, hfront⟩ := (framed_line '|' pad (chars (padded rows row))).back
      have hbar : c ≠ '|' := by
        intro heq
        rw [heq] at hbreak
        exact hbreak rfl
      have hspace : c ≠ ' ' := by
        intro heq
        rw [heq] at hbreak
        exact hbreak rfl
      have hin : c ∈ line '|' pad (chars (padded rows row)) :=
        (mem_line_iff hbar).mpr ⟨cell, hcell, (mem_pad_iff hspace).mpr hc⟩
      have htwo := two_le_splitLines rfl hfront ⟨c, hin, Bool.not_eq_false _ ▸ hbreak⟩
      omega
    exact (forall_padded (List.forall_mem_nil _)).mp hpadded
  · obtain ⟨back, hback⟩ := (framed_of_mem_tableLines htext).front
    exact splitLines_ne_nil (by rw [hback]; exact List.cons_ne_nil _ _)

end Csv

theorem readCell_clean {cell : String} (hreturn : '\r' ∉ cell.toList) :
    readCell (pad cell.toList) = (clean cell).toList := by
  rw [readCell_pad, readCell, clean_toList hreturn]

/-- The cells that are read back are the ones the table can show. -/
theorem laid_csv (hcells : ∀ row ∈ rows, ∀ cell ∈ row, ∀ c ∈ cell.toList, isLineBreak c = false) :
    rows.map (fun row => (chars (padded rows row)).map fun cell => readCell (pad cell)) = laid rows := by
  rw [laid]
  refine List.map_congr_left ?_
  intro row hrow
  rw [chars, List.map_map]
  refine List.map_congr_left ?_
  intro cell hcell
  refine readCell_clean fun hin => ?_
  rcases List.mem_append.mp hcell with hcell | hcell
  · exact Bool.noConfusion (hcells row hrow cell hcell '\r' hin)
  · rw [List.eq_of_mem_replicate hcell] at hin
    cases hin

/-- Which CSV files can be read back. -/
theorem csv_kept_iff {value : String} (hrows : csvReader value = some rows) :
    TableKept rows (csvTexts value) ↔ rows = [] ∨ rows.head? ≠ some [] ∧
      ∀ row ∈ rows, ∀ cell ∈ row, '|' ∉ cell.toList ∧ ∀ c ∈ cell.toList, isLineBreak c = false := by
  rw [csvTexts_eq hrows]
  by_cases h : Headed rows
  · obtain ⟨hne, hhead⟩ := headed_iff.mp h
    rw [or_iff_right hne, and_iff_right hhead]
    constructor
    · intro hkept
      have hshown : ∀ l ∈ splitLines (rowsMarkdown rows).toList, strip l ≠ [] := by
        intro l hl hstrip
        have htwo := two_le_csvTexts h ⟨l, hl, hstrip⟩
        rw [TableKept, if_neg hne] at hkept
        obtain ⟨text, htext, _⟩ := hkept
        rw [htext, List.length_singleton] at htwo
        omega
      obtain ⟨text, htext, hread⟩ := lineTexts_of_shown h hshown
      rw [htext, kept_singleton_iff hne, hread] at hkept
      -- no more lines come out than the table has
      have hlines : splitLines (rowsMarkdown rows).toList ≠ [] := by
        obtain ⟨⟨first, lines, hlines⟩, _⟩ := splitLines_ends h
        rw [hlines]
        exact List.cons_ne_nil _ _
      have hlength := congrArg List.length hkept
      rw [length_readRows, (splitOn_join_iff hlines).mpr fun l hl hin =>
        Bool.noConfusion (mem_splitLines hl '\n' hin), laid, List.length_map] at hlength
      have hpos := List.length_pos_of_ne_nil hlines
      have hcells := cells_of_length h (by rw [length_tableLines h]; omega)
      rw [splitLines_eq_tableLines h hcells, ← laid_csv hcells, readRows_tableLines_iff h] at hkept
      exact fun row hrow cell hcell => ⟨(hkept row hrow cell hcell).1, hcells row hrow cell hcell⟩
    · intro hcond
      have hcells : ∀ row ∈ rows, ∀ cell ∈ row, ∀ c ∈ cell.toList, isLineBreak c = false :=
        fun row hrow cell hcell => (hcond row hrow cell hcell).2
      have hsame := splitLines_eq_tableLines h hcells
      have hshown : ∀ l ∈ splitLines (rowsMarkdown rows).toList, strip l ≠ [] := by
        rw [hsame]
        exact fun l hl => strip_ne_nil (shown_framed (framed_of_mem_tableLines hl))
      obtain ⟨text, htext, hread⟩ := lineTexts_of_shown h hshown
      rw [htext, kept_singleton_iff hne, hread, hsame, ← laid_csv hcells, readRows_tableLines_iff h]
      exact fun row hrow cell hcell =>
        ⟨(hcond row hrow cell hcell).1, fun hin => Bool.noConfusion (hcells row hrow cell hcell '\n' hin)⟩
  · have hnone : lineTexts [] (splitLines (rowsMarkdown rows).toList) = [] := by
      rw [rowsMarkdown_of_not_headed h]
      decide
    rw [hnone, kept_nil_iff]
    exact not_headed_iff h

/-! ## 6. The law -/

/-- **A table can be read back from the text of its section** exactly where its first row has
    a cell and no cell has a bar or a line break. -/
theorem table_law (value : String) (rows : List (List String)) (t : DocxTable) (node : HtmlNode) :
    (csvReader value = some rows →
      (TableKept rows (csvTexts value) ↔ rows = [] ∨ rows.head? ≠ some [] ∧
        ∀ row ∈ rows, ∀ cell ∈ row, '|' ∉ cell.toList ∧ ∀ c ∈ cell.toList, isLineBreak c = false)) ∧
    (TableKept t.rows ((tableSection t).toList.map (·.text)) ↔
      t.rows = [] ∨ t.rows.head? ≠ some [] ∧
        ∀ row ∈ t.rows, ∀ cell ∈ row, '|' ∉ (clean cell).toList ∧ '\n' ∉ (clean cell).toList) ∧
    (TableKept node.rows (htmlTable node).toList ↔
      node.rows = [] ∨ node.rows.head? ≠ some [] ∧
        ∀ row ∈ node.rows, ∀ cell ∈ row, '|' ∉ (clean cell).toList ∧ '\n' ∉ (clean cell).toList) := by
  refine ⟨fun hrows => csv_kept_iff hrows, ?_, ?_⟩
  · rw [docx_texts]
    exact document_kept_iff t.rows
  · rw [html_texts]
    exact document_kept_iff node.rows

theorem table_law_ragged :
    csvReader "name,note\n\nVPN" = some [["name", "note"], [], ["VPN"]] ∧
      TableKept [["name", "note"], [], ["VPN"]] (csvTexts "name,note\n\nVPN") :=
  have hrows : csvReader "name,note\n\nVPN" = some [["name", "note"], [], ["VPN"]] := by decide
  ⟨hrows, ((table_law _ _ ⟨[]⟩ ⟨.table, "", none, []⟩).1 hrows).mpr
    (.inr ⟨by decide, by simp [isLineBreak]⟩)⟩

/-- A bar in a cell makes two cells of it, a blank line two sections of the table, and a file
    whose first line is empty has no section at all. -/
theorem cells_run_together :
    (csvReader "key\na|b" = some [["key"], ["a|b"]] ∧ ¬ TableKept [["key"], ["a|b"]] (csvTexts "key\na|b")) ∧
      (csvReader "\"a\n\nb\"" = some [["a\n\nb"]] ∧ ¬ TableKept [["a\n\nb"]] (csvTexts "\"a\n\nb\"")) ∧
      (csvReader "\na" = some [[], ["a"]] ∧ ¬ TableKept [[], ["a"]] (csvTexts "\na")) := by
  refine ⟨⟨by decide, ?_⟩, ⟨by decide, ?_⟩, ⟨by decide, ?_⟩⟩
  · have htexts : csvTexts "key\na|b" = ["| key |\n| --- |\n| a|b |"] := by decide
    rw [htexts, kept_singleton_iff (List.cons_ne_nil _ _)]
    decide
  · have htexts : csvTexts "\"a\n\nb\"" = ["| a", "b |\n| --- |"] := by decide
    rw [htexts]
    exact fun ⟨_, htext, _⟩ => nomatch htext
  · have htexts : csvTexts "\na" = [] := by decide
    rw [htexts, kept_nil_iff]
    exact List.cons_ne_nil _ _

end Helpdesk.Knowledge
