/-
  File:      Helpdesk/Knowledge/Parsers.lean
  Subject:   The parsers that read headings (ingestion/parsers/documents.py).

  A text is read line by line. What the HTML and the DOCX library give of a document is
  the input here: the nodes that `find_all` finds and the blocks of the body, in the
  order of the document.
-/
import Helpdesk.Knowledge.Chunking
import Helpdesk.Lib.Fallible
import Helpdesk.Lib.Outline

namespace Helpdesk.Knowledge

open Helpdesk.Python Helpdesk.Outline

/-- What `parse` raises. -/
inductive ParseFailure where
  | parsing (code : String)
  | typeError
  | valueError
  deriving DecidableEq, Repr

/-! ## 1. Texts and tables -/

/-- `re.sub(r"[ \t]+", " ", text)`; the flag tells whether a run is going on. -/
def collapseBlanks : Bool → List Char → List Char
  | _, [] => []
  | inRun, c :: cs =>
      if c = ' ' ∨ c = '\t' then (if inRun then [] else [' ']) ++ collapseBlanks true cs
      else c :: collapseBlanks false cs

/-- `_clean`. -/
def clean (value : String) : String :=
  let normalized := replace ['\r'] ['\n'] (replace ['\r', '\n'] ['\n'] value.toList)
  String.ofList (strip (collapseBlanks false normalized))

def markdownRow (row : List String) : String := "| " ++ " | ".intercalate row ++ " |"

/-- `_rows_markdown`. -/
def rowsMarkdown : List (List String) → String
  | [] => ""
  | [] :: _ => ""
  | first :: rest =>
      let width := ((first :: rest).map (·.length)).max?.getD 0
      let normalized := fun row : List String => row ++ List.replicate (width - row.length) ""
      "\n".intercalate (markdownRow (normalized first) ::
        markdownRow (List.replicate width "---") :: rest.map fun row => markdownRow (normalized row))

/-! ## 2. `_markdown_sections` -/

/-- The characters that end a line for `splitlines`. -/
def isLineBreak (c : Char) : Bool :=
  let n := c.toNat
  (0xa ≤ n && n ≤ 0xd) || (0x1c ≤ n && n ≤ 0x1e) || [0x85, 0x2028, 0x2029].contains n

/-- `splitlines()`. -/
def splitLines : List Char → List (List Char)
  | [] => []
  | '\r' :: '\n' :: cs => [] :: splitLines cs
  | c :: cs =>
      if isLineBreak c then [] :: splitLines cs
      else
        match splitLines cs with
        | line :: lines => (c :: line) :: lines
        | [] => [[c]]

/-- The groups of `^(#{1,6})\s+(.+)$` in a line: the number of signs and the text. Where
    only white space follows the signs, its last character is the text. -/
def headingLine? (line : List Char) : Option (Nat × List Char) :=
  let level := (line.takeWhile (· = '#')).length
  let rest := line.dropWhile (· = '#')
  let gap := rest.takeWhile isSpace
  if 1 ≤ level ∧ level ≤ 6 ∧ gap ≠ [] then
    match rest.dropWhile isSpace with
    | [] => if 2 ≤ gap.length then some (level, gap.drop (gap.length - 1)) else none
    | c :: cs => some (level, c :: cs)
  else none

/-- The heading of a line of a text of the type. -/
def matchHeading (contentType : String) (line : List Char) : Option (Heading String) :=
  if contentType = "text/markdown" then
    (headingLine? line).map fun (level, text) => ⟨level, clean (String.ofList text)⟩
  else none

structure MarkdownState where
  headings : List String := []
  buffer : List (List Char) := []
  sections : List ParsedSection := []

/-- The text of some lines. -/
def bufferText (buffer : List (List Char)) : String :=
  clean ("\n".intercalate (buffer.map String.ofList))

/-- A section of text; where it stands is filled in. -/
def textSection (text : String) (contentType : String) : ParsedSection where
  headingPath := []
  text
  pageNumber := none
  anchor := none
  contentType

def under (path : List String) (section_ : ParsedSection) : ParsedSection :=
  { section_ with headingPath := path }

/-- `flush`. -/
def MarkdownState.flush (contentType : String) (s : MarkdownState) : MarkdownState :=
  let text := bufferText s.buffer
  { s with
    buffer := []
    sections := if text ≠ "" then s.sections ++ [under s.headings (textSection text contentType)]
      else s.sections }

/-- One round of the loop over the lines. -/
def MarkdownState.read (contentType : String) (s : MarkdownState) (line : List Char) :
    MarkdownState :=
  match matchHeading contentType line with
  | some heading =>
      let s := s.flush contentType
      { s with headings := enter s.headings heading.level heading.title }
  | none =>
      if strip line = [] ∧ s.buffer ≠ [] then s.flush contentType
      else { s with buffer := s.buffer ++ [line] }

/-- `_markdown_sections`. -/
def markdownSections (value : String) (contentType : String) : List ParsedSection :=
  (((splitLines value.toList).foldl (MarkdownState.read contentType) {}).flush contentType).sections

/-! ## 3. `HtmlDocumentParser` -/

inductive HtmlName where
  | h1 | h2 | h3 | h4 | h5 | h6 | p | pre | li | table
  deriving DecidableEq, Repr

/-- `int(node.name[1])` of a name that begins with an `h`. -/
def HtmlName.level? : HtmlName → Option Nat
  | .h1 => some 1
  | .h2 => some 2
  | .h3 => some 3
  | .h4 => some 4
  | .h5 => some 5
  | .h6 => some 6
  | _ => none

theorem level_of_htmlName {name : HtmlName} {level : Nat} (h : name.level? = some level) :
    1 ≤ level := by
  cases name <;> cases h <;> decide

structure HtmlNode where
  name : HtmlName
  /-- `node.get_text(" ", strip=True)` -/
  text : String
  /-- `node.get("id")` -/
  id : Option String := none
  /-- the texts of the cells of the rows inside -/
  rows : List (List String) := []

structure HtmlDocument where
  /-- what `body.find_all` finds -/
  nodes : List HtmlNode
  /-- `body.get_text("\n", strip=True)` -/
  bodyText : String
  /-- `soup.title.get_text(" ")` -/
  title : Option String := none

/-- `_html_table`. -/
def htmlTable (node : HtmlNode) : Option String :=
  let markdown := rowsMarkdown (node.rows.map (·.map clean))
  if markdown = "" then none else some markdown

/-- The section of a node that is no heading; `unescape` is `html.unescape`. -/
def htmlSection (unescape : String → String) (node : HtmlNode) : Option ParsedSection :=
  let table := if node.name = .table then htmlTable node else none
  let text := table.getD (clean (unescape node.text))
  if text = "" then none
  else some
    { headingPath := []
      text
      pageNumber := none
      anchor := node.id.filter (· ≠ "")
      contentType := if table.isSome then "table" else "text"
      tableMarkdown := table }

/-- One round of the loop over the nodes: the headings and the sections there are. -/
def readNode (unescape : String → String) (state : List String × List ParsedSection)
    (node : HtmlNode) : List String × List ParsedSection :=
  let (headings, sections) := state
  match node.name.level? with
  | some level => (enter headings level (clean node.text), sections)
  | none =>
      match htmlSection unescape node with
      | some section_ => (headings, sections ++ [under headings section_])
      | none => (headings, sections)

/-- The body as one section, where its nodes have none. -/
def bodySection (page : HtmlDocument) : List ParsedSection :=
  if clean page.bodyText = "" then [] else [textSection (clean page.bodyText) "text"]

def HtmlDocument.sections (unescape : String → String) (page : HtmlDocument) :
    List ParsedSection :=
  let sections := (page.nodes.foldl (readNode unescape) ([], [])).2
  if sections = [] then bodySection page else sections

/-- `HtmlDocumentParser.parse`. -/
def HtmlDocument.parse (unescape : String → String) (page : HtmlDocument) :
    Except ParseFailure ParsedDocument :=
  if page.sections unescape = [] then .error (.parsing "EMPTY_EXTRACTION")
  else
    let title := (page.title.map clean).getD ""
    .ok ⟨page.sections unescape, none, if title = "" then [] else [("title", title)]⟩

/-! ## 4. `DocxDocumentParser` -/

structure DocxParagraph where
  text : String
  /-- `paragraph.style` and its name -/
  style : Option (Option String) := none

structure DocxTable where
  /-- the texts of the cells of the rows -/
  rows : List (List String)

/-- What stands in the body. -/
inductive DocxBlock where
  | paragraph (p : DocxParagraph)
  | table (t : DocxTable)

/-- `document.paragraphs`. -/
def docxParagraphs (body : List DocxBlock) : List DocxParagraph :=
  body.filterMap fun
    | .paragraph p => some p
    | .table _ => none

/-- `document.tables`. -/
def docxTables (body : List DocxBlock) : List DocxTable :=
  body.filterMap fun
    | .paragraph _ => none
    | .table t => some t

/-- `int(digits)`, which refuses more than 4300 of them. -/
def intOfDigits (digits : List Nat) : Except ParseFailure Nat :=
  if 4300 < digits.length then .error .valueError
  else .ok (digits.foldl (fun n d => 10 * n + d) 0)

/-- The level that `re.match(r"Heading (\d+)", style)` finds. -/
def styleLevel? (style : String) : Except ParseFailure (Option Nat) :=
  match dropPrefix? "Heading ".toList style.toList with
  | none => .ok none
  | some rest =>
      match (rest.map decimalDigit?).takeWhile (·.isSome) with
      | [] => .ok none
      | d :: ds => (intOfDigits ((d :: ds).filterMap id)).map some

/-- The level of a paragraph with text; a style without a name cannot be matched. -/
def DocxParagraph.level? (p : DocxParagraph) : Except ParseFailure (Option Nat) :=
  match p.style with
  | none => styleLevel? ""
  | some none => .error .typeError
  | some (some name) => styleLevel? name

/-- One round of the loop over the paragraphs. -/
def readParagraph (state : List String × List ParsedSection) (p : DocxParagraph) :
    Except ParseFailure (List String × List ParsedSection) :=
  let (headings, sections) := state
  let text := clean p.text
  if text = "" then .ok (headings, sections)
  else do
    match ← p.level? with
    | some level => return (enter headings level text, sections)
    | none => return (headings, sections ++ [under headings (textSection text "text")])

def tableSection (t : DocxTable) : Option ParsedSection :=
  let markdown := rowsMarkdown (t.rows.map (·.map clean))
  if markdown = "" then none
  else some { textSection markdown "table" with tableMarkdown := some markdown }

/-- `DocxDocumentParser.parse`: the tables come after all the paragraphs. -/
def parseDocx (body : List DocxBlock) : Except ParseFailure ParsedDocument := do
  let (headings, sections) ← (docxParagraphs body).foldlM readParagraph ([], [])
  let sections := sections ++ ((docxTables body).filterMap tableSection).map (under headings)
  if sections = [] then throw (.parsing "EMPTY_EXTRACTION")
  return ⟨sections, none, []⟩

end Helpdesk.Knowledge
