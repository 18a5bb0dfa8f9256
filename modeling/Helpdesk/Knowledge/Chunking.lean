/-
  File:      Helpdesk/Knowledge/Chunking.lean
  Subject:   The parsed document and its chunks (ingestion/parsers/documents.py,
             ingestion/chunkers/semantic.py).

  The sections of a document are cut into pieces of at most `maximum_tokens`, and
  consecutive pieces under one heading are put together again while they stay
  within `target_tokens`. What the interpreter knows of characters and digests is
  in `Runtime`; nothing here depends on what it is.

  * `groups_sections`: the groups of `chunk` are the groups of the pieces;
  * `chunk_sequence_lt`: the chunks are numbered upwards;
  * `chunk_hashes_distinct`: their digests are distinct exactly when the groups'
    texts are, those that are blank apart.
-/
import Helpdesk.Lib.Grouping
import Helpdesk.Python.Text
import Mathlib.Data.List.Basic

namespace Helpdesk.Knowledge

open Helpdesk.Python

/-! ## 1. Parsed documents -/

structure ParsedSection where
  headingPath : List String
  text : String
  pageNumber : Option Nat
  anchor : Option String
  contentType : String
  tableMarkdown : Option String := none
  deriving DecidableEq, Repr

structure ParsedDocument where
  sections : List ParsedSection
  pageCount : Option Nat
  metadata : List (String × String)
  deriving DecidableEq, Repr

/-- `"\n\n".join(texts)`. -/
def paragraphsJoined (texts : List String) : String := "\n\n".intercalate texts

def ParsedDocument.normalizedText (document : ParsedDocument) : String :=
  paragraphsJoined ((document.sections.map (·.text)).filter fun text => stripText text ≠ "")

/-! ## 2. Tokens, words and paragraphs -/

/-- What the interpreter knows of characters and of digests. -/
structure Runtime where
  /-- `\w` matches the character -/
  isWord : Char → Bool
  /-- `hashlib.sha256(value.encode()).hexdigest()` -/
  sha256 : String → String
  /-- `uuid5(NAMESPACE_URL, name)` -/
  uuid5 : String → Nat

/-- The matches of `\w+|[^\w\s]`; the flag tells whether a word is going on. -/
def tokenCount (py : Runtime) : Bool → List Char → Nat
  | _, [] => 0
  | inWord, c :: cs =>
      if py.isWord c then (if inWord then 0 else 1) + tokenCount py true cs
      else (if isSpace c then 0 else 1) + tokenCount py false cs

/-- `_tokens`. -/
def tokens (py : Runtime) (value : String) : Nat := max 1 (tokenCount py false value.toList)

/-- The rest of a text after a match of `\n\s*\n` at its head: the white space there
    up to its last line break. -/
def afterBlankLines? : List Char → Option (List Char)
  | '\n' :: cs =>
      let run := cs.takeWhile isSpace
      if '\n' ∈ run then
        some ((run.reverse.takeWhile (· ≠ '\n')).reverse ++ cs.dropWhile isSpace)
      else none
  | _ => none

/-- `re.split(r"\n\s*\n", text)`; the first argument bounds the length of the text. -/
def splitParagraphs : Nat → List Char → List (List Char)
  | 0, text => [text]
  | _ + 1, [] => [[]]
  | n + 1, c :: cs =>
      match afterBlankLines? (c :: cs) with
      | some rest => [] :: splitParagraphs n rest
      | none =>
          match splitParagraphs n cs with
          | part :: parts => (c :: part) :: parts
          | [] => [[c]]

/-- `text.split()`. -/
def words (text : String) : List String :=
  ((text.toList.splitOnP isSpace).filter (· ≠ [])).map String.ofList

/-! ## 3. `_split_oversized` -/

/-- `_piece`. -/
def piece (section_ : ParsedSection) (text : String) : ParsedSection :=
  { headingPath := section_.headingPath
    text
    pageNumber := section_.pageNumber
    anchor := section_.anchor
    contentType := section_.contentType }

/-- The paragraphs of an oversized section, or runs of its words where it has but
    one. -/
def paragraphs (section_ : ParsedSection) (maximum : Nat) : List String :=
  let parts := (splitParagraphs section_.text.length section_.text.toList).map fun part =>
    String.ofList (strip part)
  let parts := parts.filter (· ≠ "")
  if parts.length = 1 then ((words section_.text).toChunks maximum).map (" ".intercalate ·)
  else parts

/-- One round of the loop over the paragraphs: the pieces there are and the buffer. -/
def bufferParagraph (py : Runtime) (section_ : ParsedSection) (maximum : Nat)
    (state : List ParsedSection × List String) (paragraph : String) :
    List ParsedSection × List String :=
  let (result, buffer) := state
  if buffer ≠ [] ∧ maximum < tokens py (paragraphsJoined (buffer ++ [paragraph])) then
    (result ++ [piece section_ (paragraphsJoined buffer)], [paragraph])
  else (result, buffer ++ [paragraph])

/-- `_split_oversized`. -/
def splitOversized (py : Runtime) (section_ : ParsedSection) (maximum : Nat) :
    List ParsedSection :=
  if tokens py section_.text ≤ maximum ∨ section_.tableMarkdown ≠ none then [section_]
  else
    let (result, buffer) :=
      (paragraphs section_ maximum).foldl (bufferParagraph py section_ maximum) ([], [])
    if buffer ≠ [] then result ++ [piece section_ (paragraphsJoined buffer)] else result

/-! ## 4. `SemanticChunker` -/

/-- What `__post_init__` lets through. -/
structure ChunkingConfig where
  targetTokens : Nat := 600
  maximumTokens : Nat := 800
  minimumTokens : Nat := 300
  overlapTokens : Nat := 40
  bounds : 50 ≤ minimumTokens ∧ minimumTokens ≤ targetTokens ∧ targetTokens ≤ maximumTokens ∧
    maximumTokens ≤ 2000 := by decide
  overlap : overlapTokens ≤ minimumTokens / 2 := by decide

structure Chunk where
  sequence : Nat
  headingPath : List String
  content : String
  pageNumber : Option Nat
  anchor : Option String
  contentType : String
  tokenCount : Nat
  contentHash : String
  embeddingInput : String
  embeddingInputHash : String
  deriving DecidableEq, Repr

/-- An entry of `groups`: a heading and the pieces under it. -/
structure Group where
  heading : List String
  sections : List ParsedSection
  nonempty : sections ≠ []
  heading_first : (sections.head nonempty).headingPath = heading

/-- A piece that opens a group. -/
def Group.single (part : ParsedSection) : Group where
  heading := part.headingPath
  sections := [part]
  nonempty := List.cons_ne_nil part []
  heading_first := rfl

/-- `groups[-1][1].append(piece)`. -/
def Group.append (last : Group) (part : ParsedSection) : Group where
  heading := last.heading
  sections := last.sections ++ [part]
  nonempty := by simp
  heading_first := by
    rw [List.head_append_of_ne_nil last.nonempty]
    exact last.heading_first

/-- The condition under which a piece joins the pieces before it. -/
def joins (py : Runtime) (config : ChunkingConfig) (heading : List String)
    (sections : List ParsedSection) (part : ParsedSection) : Bool :=
  heading = part.headingPath &&
    tokens py (paragraphsJoined (sections.map (·.text) ++ [part.text])) ≤ config.targetTokens &&
    part.tableMarkdown = none

/-- One round of the inner loop of `chunk`. -/
def addPiece (py : Runtime) (config : ChunkingConfig) (groups : List Group)
    (part : ParsedSection) : List Group :=
  match groups.getLast? with
  | some last =>
      if joins py config last.heading last.sections part then groups.dropLast ++ [last.append part]
      else groups ++ [.single part]
  | none => groups ++ [.single part]

/-- The two nested loops of `chunk`. -/
def groupsOf (py : Runtime) (config : ChunkingConfig) (document : ParsedDocument) : List Group :=
  document.sections.foldl
    (fun groups section_ =>
      (splitOversized py section_ config.maximumTokens).foldl (addPiece py config) groups) []

/-- The text of a group. -/
def blockContent (sections : List ParsedSection) : String :=
  stripText (paragraphsJoined (sections.map (·.text)))

/-- The chunk of one group; a group of blank text has none. -/
def chunkOf (py : Runtime) (title : String) (group : Group) (sequence : Nat) : Option Chunk :=
  let content := blockContent group.sections
  if content = "" then none
  else
    let headingText := " > ".intercalate group.heading
    let parts := ["Title: " ++ title, if group.heading ≠ [] then "Heading: " ++ headingText else "",
      content]
    let embeddingInput := "\n".intercalate (parts.filter (· ≠ ""))
    let first := group.sections.head group.nonempty
    some
      { sequence
        headingPath := group.heading
        content
        pageNumber := first.pageNumber
        anchor := first.anchor
        contentType := first.contentType
        tokenCount := tokens py content
        contentHash := py.sha256 content
        embeddingInput
        embeddingInputHash := py.sha256 embeddingInput }

/-- `SemanticChunker.chunk`. -/
def chunk (py : Runtime) (config : ChunkingConfig) (title : String) (document : ParsedDocument) :
    List Chunk :=
  ((groupsOf py config document).zipIdx 1).filterMap fun entry => chunkOf py title entry.1 entry.2

/-! ## 5. The groups are the groups of the pieces -/

/-- All the pieces of a document, in their order. -/
def pieces (py : Runtime) (config : ChunkingConfig) (document : ParsedDocument) :
    List ParsedSection :=
  document.sections.flatMap fun section_ => splitOversized py section_ config.maximumTokens

/-- A piece fits a run of pieces: it is under the heading of the first of them, is no
    table, and what they hold together stays within `target_tokens`. -/
def fitsBlock (py : Runtime) (config : ChunkingConfig) (block : List ParsedSection)
    (part : ParsedSection) : Bool :=
  match block with
  | [] => false
  | first :: rest => joins py config first.headingPath (first :: rest) part

variable {py : Runtime} {config : ChunkingConfig}

theorem joins_eq_fitsBlock (group : Group) (part : ParsedSection) :
    joins py config group.heading group.sections part = fitsBlock py config group.sections part := by
  obtain ⟨heading, sections, hne, hhead⟩ := group
  cases sections with
  | nil => exact absurd rfl hne
  | cons first rest =>
      subst hhead
      rfl

/-- A round of the loop places the piece. -/
theorem addPiece_sections (groups : List Group) (part : ParsedSection) :
    (addPiece py config groups part).map (·.sections) =
      place (fitsBlock py config) (groups.map (·.sections)) part := by
  rcases List.eq_nil_or_concat' groups with rfl | ⟨front, last, rfl⟩
  · rfl
  · rw [List.map_append, List.map_singleton, place_append, ← joins_eq_fitsBlock]
    simp only [addPiece, List.getLast?_concat, List.dropLast_concat]
    by_cases hjoins : joins py config last.heading last.sections part = true
    · rw [if_pos hjoins, if_pos hjoins, List.map_append]
      rfl
    · rw [if_neg hjoins, if_neg hjoins, List.map_append, List.map_append]
      rfl

theorem foldl_addPiece_sections (parts : List ParsedSection) (groups : List Group) :
    (parts.foldl (addPiece py config) groups).map (·.sections) =
      parts.foldl (place (fitsBlock py config)) (groups.map (·.sections)) := by
  induction parts generalizing groups with
  | nil => rfl
  | cons part parts ih =>
      rw [List.foldl_cons, List.foldl_cons, ih, addPiece_sections]

/-- **The groups `chunk` makes are the groups of the pieces.** -/
theorem groups_sections (document : ParsedDocument) :
    (groupsOf py config document).map (·.sections) =
      group (fitsBlock py config) (pieces py config document) := by
  have hnested : groupsOf py config document =
      (pieces py config document).foldl (addPiece py config) [] := by
    rw [groupsOf, pieces, List.foldl_flatMap]
  rw [hnested, foldl_addPiece_sections]
  rfl

/-! ## 6. Numbers and digests of the chunks -/

theorem chunkOf_eq_some {title : String} {group : Group} {n : Nat} {c : Chunk}
    (h : chunkOf py title group n = some c) :
    c.sequence = n ∧ c.content = blockContent group.sections ∧ c.content ≠ "" ∧
      c.contentHash = py.sha256 c.content := by
  unfold chunkOf at h
  dsimp only at h
  by_cases hblank : blockContent group.sections = ""
  · rw [if_pos hblank] at h
    cases h
  · rw [if_neg hblank] at h
    cases h
    exact ⟨rfl, rfl, hblank, rfl⟩

theorem chunkOf_isSome {group : Group} (h : blockContent group.sections ≠ "") (py : Runtime)
    (title : String) (n : Nat) : ∃ c, chunkOf py title group n = some c := by
  unfold chunkOf
  dsimp only
  rw [if_neg h]
  exact ⟨_, rfl⟩

/-- **The chunks are numbered upwards**, whatever the document. -/
theorem chunk_sequence_lt (title : String) (document : ParsedDocument) :
    (chunk py config title document).Pairwise fun a b => a.sequence < b.sequence := by
  rw [chunk, List.pairwise_filterMap]
  have hindex : ((groupsOf py config document).zipIdx 1).Pairwise fun a b => a.2 < b.2 := by
    have hmap : (List.range' 1 (groupsOf py config document).length).Pairwise (· < ·) :=
      List.pairwise_lt_range'
    rw [← List.zipIdx_map_snd 1 (groupsOf py config document), List.pairwise_map] at hmap
    exact hmap
  refine hindex.imp ?_
  intro a b hlt c hc d hd
  have hcn : c.sequence = a.2 := (chunkOf_eq_some hc).1
  have hdn : d.sequence = b.2 := (chunkOf_eq_some hd).1
  rw [hcn, hdn]
  exact hlt

/-- Two runs of pieces whose texts, where neither is blank, have different digests. -/
def DigestsDiffer (py : Runtime) (a b : List ParsedSection) : Prop :=
  blockContent a ≠ "" → blockContent b ≠ "" → py.sha256 (blockContent a) ≠ py.sha256 (blockContent b)

/-- The digests of the chunks of two groups differ exactly when the groups' do. -/
theorem chunkOf_hash_ne_iff {title : String} {g h : Group} {m n : Nat} :
    (∀ c, chunkOf py title g m = some c → ∀ d, chunkOf py title h n = some d →
      c.contentHash ≠ d.contentHash) ↔ DigestsDiffer py g.sections h.sections := by
  constructor
  · intro hne hg hh
    obtain ⟨c, hc⟩ := chunkOf_isSome hg py title m
    obtain ⟨d, hd⟩ := chunkOf_isSome hh py title n
    have hcd := hne c hc d hd
    obtain ⟨_, hcontent, _, hhash⟩ := chunkOf_eq_some hc
    obtain ⟨_, hcontent', _, hhash'⟩ := chunkOf_eq_some hd
    rw [hhash, hhash', hcontent, hcontent'] at hcd
    exact hcd
  · intro hdiff c hc d hd
    obtain ⟨_, hcontent, hblank, hhash⟩ := chunkOf_eq_some hc
    obtain ⟨_, hcontent', hblank', hhash'⟩ := chunkOf_eq_some hd
    rw [hhash, hhash', hcontent, hcontent']
    exact hdiff (hcontent ▸ hblank) (hcontent' ▸ hblank')

/-- **The chunks' digests are distinct exactly when the groups' are.** -/
theorem chunk_hashes_distinct (title : String) (document : ParsedDocument) :
    (chunk py config title document).Pairwise (fun a b => a.contentHash ≠ b.contentHash) ↔
      ((groupsOf py config document).map (·.sections)).Pairwise (DigestsDiffer py) := by
  have hgroups : (groupsOf py config document).map (·.sections) =
      ((groupsOf py config document).zipIdx 1).map fun entry => entry.1.sections := by
    have hfst := congrArg (List.map (·.sections))
      (List.zipIdx_map_fst 1 (groupsOf py config document))
    rw [List.map_map] at hfst
    exact hfst.symm
  rw [hgroups, List.pairwise_map, chunk, List.pairwise_filterMap]
  constructor
  · exact fun h => h.imp fun hne => chunkOf_hash_ne_iff.mp hne
  · exact fun h => h.imp fun hdiff => chunkOf_hash_ne_iff.mpr hdiff

end Helpdesk.Knowledge
