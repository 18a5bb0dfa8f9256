/-
  File:      Helpdesk/Knowledge/HeadingPaths.lean
  Subject:   Whether the heading paths are the outline of the document.

  A document in its order is a list of headings and blocks, and the outline of a block is
  read off the headings before it. The parsers keep one list of texts instead, which they
  cut at each heading to the number of its level: after a level that was skipped, a
  heading of the same level finds its sibling still there. The DOCX parser reads the
  tables after all the paragraphs, under the last path.

  * `markdown_laidOut`, `html_laidOut`, `docx_laidOut`: what each parser makes of the
    headings before a block;
  * `laidOut_eq_iff`: it is the outline where the headings are placed;
  * **`heading_paths_outline_iff`**: over all documents of the three formats.
-/
import Helpdesk.Knowledge.Parsers

namespace Helpdesk.Knowledge

open Helpdesk.Python Helpdesk.Outline

/-! ## 1. Documents in their order -/

inductive Item where
  | heading (h : Heading String)
  | block (section_ : ParsedSection)

/-- The headings at the end, from the nearest one back. -/
def headingsAfter : List (Heading String) → List Item → List (Heading String)
  | seen, [] => seen
  | seen, .heading h :: items => headingsAfter (h :: seen) items
  | seen, .block _ :: items => headingsAfter seen items

/-- The blocks, each with the headings before it. -/
def places : List (Heading String) → List Item → List (ParsedSection × List (Heading String))
  | _, [] => []
  | seen, .heading h :: items => places (h :: seen) items
  | seen, .block section_ :: items => (section_, seen) :: places seen items

/-- **The path of the outline**, from the outermost heading. -/
def outlinePath (headings : List (Heading String)) : List String :=
  ((outline headings).map (·.title)).reverse

/-- The sections with paths made of the headings before them. -/
def laidOut (pathOf : List (Heading String) → List String)
    (ps : List (ParsedSection × List (Heading String))) : List ParsedSection :=
  ps.map fun p => under (pathOf p.2) p.1

/-- The lines of a paragraph as a block. -/
def paragraphItem (contentType : String) (buffer : List (List Char)) : List Item :=
  if bufferText buffer ≠ "" then [.block (textSection (bufferText buffer) contentType)] else []

/-- The headings and paragraphs of some lines, after the lines of a paragraph so far. -/
def lineItems (contentType : String) : List (List Char) → List (List Char) → List Item
  | buffer, [] => paragraphItem contentType buffer
  | buffer, line :: lines =>
      match matchHeading contentType line with
      | some h => paragraphItem contentType buffer ++ .heading h :: lineItems contentType [] lines
      | none =>
          if strip line = [] ∧ buffer ≠ [] then
            paragraphItem contentType buffer ++ lineItems contentType [] lines
          else lineItems contentType (buffer ++ [line]) lines

def markdownItems (value : String) (contentType : String) : List Item :=
  lineItems contentType [] (splitLines value.toList)

def htmlItem (unescape : String → String) (node : HtmlNode) : Option Item :=
  match node.name.level? with
  | some level => some (.heading ⟨level, clean node.text⟩)
  | none => (htmlSection unescape node).map .block

/-- The nodes of a page; a page without a block is one itself, from its beginning on. -/
def htmlItems (unescape : String → String) (page : HtmlDocument) : List Item :=
  let items := page.nodes.filterMap (htmlItem unescape)
  if places [] items = [] then (bodySection page).map .block else items

def docxItem : DocxBlock → Option Item
  | .paragraph p =>
      let text := clean p.text
      if text = "" then none
      else
        match p.level? with
        | .ok (some level) => some (.heading ⟨level, text⟩)
        | .ok none => some (.block (textSection text "text"))
        | .error _ => none
  | .table t => (tableSection t).map .block

def docxItems (body : List DocxBlock) : List Item := body.filterMap docxItem

def isTable (p : ParsedSection × List (Heading String)) : Bool := p.1.contentType = "table"

/-- The sections of a DOCX document: its tables are listed after its paragraphs. -/
def docxLaidOut (pathOf : List (Heading String) → List String)
    (ps : List (ParsedSection × List (Heading String))) : List ParsedSection :=
  laidOut pathOf (ps.filter fun p => !isTable p) ++ laidOut pathOf (ps.filter isTable)

/-- **The headings before every block are placed.** -/
def AllPlaced (items : List Item) : Prop := ∀ p ∈ places [] items, Placed p.2

/-- **The paths of a DOCX document are safe**: no heading has level `0`, the headings
    before every block are placed, and none comes after a table. -/
structure DocxPlaced (items : List Item) : Prop where
  levels : ∀ h, Item.heading h ∈ items → 1 ≤ h.level
  placed : AllPlaced items
  tables : ∀ p ∈ places [] items, isTable p = true → p.2 = headingsAfter [] items

/-! ## 2. The headings before a block -/

variable {items : List Item} {seen : List (Heading String)}
  {p : ParsedSection × List (Heading String)} {contentType : String}

theorem places_append (seen : List (Heading String)) (front back : List Item) :
    places seen (front ++ back) = places seen front ++ places (headingsAfter seen front) back := by
  induction front generalizing seen with
  | nil => rfl
  | cons item front ih =>
      cases item with
      | heading h => exact ih (h :: seen)
      | block section_ => exact congrArg _ (ih seen)

theorem places_suffix (hp : p ∈ places seen items) : p.2 <:+ headingsAfter seen items := by
  have hseen : ∀ (items : List Item) (seen), seen <:+ headingsAfter seen items := by
    intro items
    induction items with
    | nil => exact fun _ => List.suffix_rfl
    | cons item items ih =>
        intro seen
        cases item with
        | heading h => exact (List.suffix_cons h seen).trans (ih (h :: seen))
        | block section_ => exact ih seen
  induction items generalizing seen with
  | nil => cases hp
  | cons item items ih =>
      cases item with
      | heading h => exact ih hp
      | block section_ =>
          rcases List.mem_cons.mp hp with rfl | hp
          · exact hseen items seen
          · exact ih hp

theorem mem_headingsAfter {h : Heading String} (hmem : h ∈ headingsAfter seen items) :
    h ∈ seen ∨ Item.heading h ∈ items := by
  induction items generalizing seen with
  | nil => exact .inl hmem
  | cons item items ih =>
      cases item with
      | heading g =>
          rcases ih hmem with hin | hin
          · rcases List.mem_cons.mp hin with rfl | hin
            · exact .inr List.mem_cons_self
            · exact .inl hin
          · exact .inr (List.mem_cons_of_mem _ hin)
      | block section_ => exact (ih hmem).imp_right (List.mem_cons_of_mem _)

/-- The headings before a block are headings of the document. -/
theorem heading_of_places {h : Heading String} (hp : p ∈ places [] items) (hh : h ∈ p.2) :
    Item.heading h ∈ items :=
  (mem_headingsAfter ((places_suffix hp).subset hh)).resolve_left List.not_mem_nil

/-- **The paths are those of the outline exactly where the headings are placed.** -/
theorem laidOut_eq_iff {ps : List (ParsedSection × List (Heading String))}
    (hlevels : ∀ p ∈ ps, ∀ h ∈ p.2, 1 ≤ h.level) :
    laidOut path ps = laidOut outlinePath ps ↔ ∀ p ∈ ps, Placed p.2 := by
  rw [laidOut, laidOut, List.map_inj_left]
  refine forall₂_congr fun p hp => ?_
  rw [← path_eq_outline_iff (hlevels p hp)]
  exact ⟨fun h => congrArg (·.headingPath) h, fun h => by rw [h]; rfl⟩

theorem laidOut_append (pathOf : List (Heading String) → List String)
    (front back : List (ParsedSection × List (Heading String))) :
    laidOut pathOf (front ++ back) = laidOut pathOf front ++ laidOut pathOf back :=
  List.map_append

/-! ## 3. Markdown -/

theorem flush_buffer (s : MarkdownState) : (s.flush contentType).buffer = [] := rfl

theorem flush_headings (s : MarkdownState) : (s.flush contentType).headings = s.headings := rfl

theorem flush_sections (contentType : String) (s : MarkdownState) (hpath : s.headings = path seen) :
    (s.flush contentType).sections =
      s.sections ++ laidOut path (places seen (paragraphItem contentType s.buffer)) := by
  unfold MarkdownState.flush paragraphItem
  by_cases htext : bufferText s.buffer = ""
  · simp [htext, places, laidOut]
  · simp [htext, places, laidOut, hpath]

theorem headingsAfter_paragraphItem (buffer : List (List Char)) :
    headingsAfter seen (paragraphItem contentType buffer) = seen := by
  unfold paragraphItem
  split
  · rfl
  · rfl

/-- The sections of the lines that are left, after those there are. -/
theorem read_laidOut (lines : List (List Char)) (s : MarkdownState) (seen : List (Heading String))
    (hpath : s.headings = path seen) :
    ((lines.foldl (MarkdownState.read contentType) s).flush contentType).sections =
      s.sections ++ laidOut path (places seen (lineItems contentType s.buffer lines)) := by
  induction lines generalizing s seen with
  | nil => exact flush_sections contentType s hpath
  | cons line lines ih =>
      have hflush := flush_sections contentType s hpath
      rw [List.foldl_cons, lineItems, MarkdownState.read]
      cases matchHeading contentType line with
      | some h =>
          dsimp only
          rw [places_append, headingsAfter_paragraphItem, laidOut_append, ← List.append_assoc,
            ← hflush, places, flush_headings, flush_buffer]
          have hrest := ih ⟨enter s.headings h.level h.title, [], (s.flush contentType).sections⟩
            (h :: seen) (by rw [hpath, path])
          dsimp only at hrest
          exact hrest
      | none =>
          dsimp only
          by_cases hblank : strip line = [] ∧ s.buffer ≠ []
          · rw [if_pos hblank, if_pos hblank, places_append, headingsAfter_paragraphItem,
              laidOut_append, ← List.append_assoc, ← hflush]
            have hrest := ih (s.flush contentType) seen (by rw [flush_headings, hpath])
            exact hrest
          · rw [if_neg hblank, if_neg hblank]
            exact ih _ seen hpath

theorem markdown_laidOut (value contentType : String) :
    markdownSections value contentType =
      laidOut path (places [] (markdownItems value contentType)) :=
  read_laidOut _ {} [] rfl

theorem level_of_headingLine {line text : List Char} {level : Nat}
    (h : headingLine? line = some (level, text)) : 1 ≤ level := by
  dsimp only [headingLine?] at h
  split at h
  · next hlevel =>
      split at h
      · split at h
        · cases h
          exact hlevel.1
        · cases h
      · cases h
        exact hlevel.1
  · cases h

theorem level_of_matchHeading {line : List Char} {h : Heading String}
    (hmatch : matchHeading contentType line = some h) : 1 ≤ h.level := by
  unfold matchHeading at hmatch
  split at hmatch
  · obtain ⟨⟨level, text⟩, hline, rfl⟩ := Option.map_eq_some_iff.mp hmatch
    exact level_of_headingLine hline
  · cases hmatch

theorem heading_not_mem_paragraphItem {h : Heading String} (buffer : List (List Char)) :
    Item.heading h ∉ paragraphItem contentType buffer := by
  unfold paragraphItem
  split
  · simp
  · simp

theorem level_of_lineItems {h : Heading String} (buffer lines : List (List Char))
    (hmem : Item.heading h ∈ lineItems contentType buffer lines) : 1 ≤ h.level := by
  induction lines generalizing buffer with
  | nil => exact absurd hmem (heading_not_mem_paragraphItem buffer)
  | cons line lines ih =>
      rw [lineItems] at hmem
      split at hmem
      · next g hmatch =>
          rcases List.mem_append.mp hmem with hin | hin
          · exact absurd hin (heading_not_mem_paragraphItem buffer)
          · rcases List.mem_cons.mp hin with hin | hin
            · cases hin
              exact level_of_matchHeading hmatch
            · exact ih [] hin
      · split at hmem
        · exact ih [] ((List.mem_append.mp hmem).resolve_left
            (heading_not_mem_paragraphItem buffer))
        · exact ih _ hmem

/-! ## 4. HTML -/

/-- The sections of the nodes that are left, after those there are. -/
theorem readNode_laidOut (unescape : String → String) (nodes : List HtmlNode)
    (sections : List ParsedSection) (seen : List (Heading String)) :
    (nodes.foldl (readNode unescape) (path seen, sections)).2 =
      sections ++ laidOut path (places seen (nodes.filterMap (htmlItem unescape))) := by
  induction nodes generalizing sections seen with
  | nil => exact (List.append_nil sections).symm
  | cons node nodes ih =>
      rw [List.foldl_cons, List.filterMap_cons, readNode, htmlItem]
      cases hlevel : node.name.level? with
      | some level => exact ih sections (⟨level, clean node.text⟩ :: seen)
      | none =>
          cases hsection : htmlSection unescape node with
          | none => exact ih sections seen
          | some section_ =>
              dsimp only [Option.map_some]
              rw [ih, List.append_assoc]
              rfl

theorem level_of_htmlItems {unescape : String → String} {page : HtmlDocument} {h : Heading String}
    (hmem : Item.heading h ∈ htmlItems unescape page) : 1 ≤ h.level := by
  dsimp only [htmlItems] at hmem
  split at hmem
  · obtain ⟨section_, -, hblock⟩ := List.mem_map.mp hmem
    cases hblock
  · obtain ⟨node, -, hitem⟩ := List.mem_filterMap.mp hmem
    unfold htmlItem at hitem
    split at hitem
    · next level hlevel =>
        cases hitem
        exact level_of_htmlName hlevel
    · obtain ⟨section_, -, hblock⟩ := Option.map_eq_some_iff.mp hitem
      cases hblock

theorem sections_laidOut (unescape : String → String) (page : HtmlDocument) :
    page.sections unescape = laidOut path (places [] (htmlItems unescape page)) := by
  have hnodes : (page.nodes.foldl (readNode unescape) ([], [])).2 =
      laidOut path (places [] (page.nodes.filterMap (htmlItem unescape))) :=
    readNode_laidOut unescape page.nodes [] []
  dsimp only [HtmlDocument.sections, htmlItems]
  rw [hnodes]
  by_cases hnone : places [] (page.nodes.filterMap (htmlItem unescape)) = []
  · rw [if_pos hnone, hnone, if_pos (by rfl)]
    unfold bodySection
    split
    · rfl
    · rfl
  · rw [if_neg hnone]
    exact if_neg fun hempty => hnone (List.map_eq_nil_iff.mp hempty)

theorem html_laidOut {unescape : String → String} {page : HtmlDocument} {document : ParsedDocument}
    (h : page.parse unescape = .ok document) :
    document.sections = laidOut path (places [] (htmlItems unescape page)) := by
  rw [← sections_laidOut]
  unfold HtmlDocument.parse at h
  split at h
  · cases h
  · cases h
    rfl

/-! ## 5. DOCX -/

variable {body : List DocxBlock}

theorem docxItems_paragraph (p : DocxParagraph) :
    docxItems (.paragraph p :: body) = (docxItem (.paragraph p)).toList ++ docxItems body := by
  rw [docxItems, List.filterMap_cons]
  cases docxItem (.paragraph p) with
  | none => rfl
  | some item => rfl

theorem docxItems_table (t : DocxTable) :
    docxItems (.table t :: body) = ((tableSection t).map Item.block).toList ++ docxItems body := by
  rw [docxItems, List.filterMap_cons, docxItem]
  cases tableSection t with
  | none => rfl
  | some section_ => rfl

theorem isTable_textSection (text : String) (seen : List (Heading String)) :
    isTable (textSection text "text", seen) = false := rfl

theorem isTable_tableSection {t : DocxTable} {section_ : ParsedSection}
    (h : tableSection t = some section_) (seen : List (Heading String)) :
    isTable (section_, seen) = true := by
  dsimp only [tableSection] at h
  split at h
  · cases h
  · rw [← Option.some.inj h]
    rfl

/-- The headings and the sections of the paragraphs that are left, after those there are. -/
theorem paragraphs_laidOut (sections : List ParsedSection) (seen : List (Heading String))
    {result : List String × List ParsedSection}
    (h : (docxParagraphs body).foldlM readParagraph (path seen, sections) = .ok result) :
    result.1 = path (headingsAfter seen (docxItems body)) ∧
      result.2 = sections ++
        laidOut path ((places seen (docxItems body)).filter fun p => !isTable p) := by
  induction body generalizing sections seen with
  | nil =>
      cases h
      exact ⟨rfl, (List.append_nil sections).symm⟩
  | cons block body ih =>
      cases block with
      | table t =>
          rw [docxItems_table]
          have hrest := ih sections seen h
          cases hsection : tableSection t with
          | none => exact hrest
          | some section_ =>
              refine ⟨hrest.1, hrest.2.trans ?_⟩
              dsimp only [Option.map_some, Option.toList_some, List.singleton_append, places]
              rw [List.filter_cons_of_neg (by rw [isTable_tableSection hsection]; decide)]
      | paragraph p =>
          rw [docxItems_paragraph, docxItem]
          obtain ⟨state, hread, hrest⟩ := bind_eq_ok.mp h
          dsimp only [readParagraph] at hread
          by_cases hempty : clean p.text = ""
          · rw [if_pos hempty] at hread ⊢
            cases hread
            exact ih sections seen hrest
          · rw [if_neg hempty] at hread ⊢
            obtain ⟨level?, hlevel, hstate⟩ := bind_eq_ok.mp hread
            rw [hlevel]
            cases level? with
            | some level =>
                cases hstate
                exact ih sections (⟨level, clean p.text⟩ :: seen) hrest
            | none =>
                cases hstate
                obtain ⟨hpath, hsections⟩ := ih _ seen hrest
                refine ⟨hpath, hsections.trans ?_⟩
                rw [List.append_assoc]
                rfl

theorem tables_laidOut (seen : List (Heading String)) :
    (docxTables body).filterMap tableSection =
      ((places seen (docxItems body)).filter isTable).map (·.1) := by
  induction body generalizing seen with
  | nil => rfl
  | cons block body ih =>
      cases block with
      | table t =>
          rw [docxItems_table, docxTables, List.filterMap_cons]
          dsimp only
          rw [List.filterMap_cons]
          cases hsection : tableSection t with
          | none => exact ih seen
          | some section_ =>
              dsimp only [Option.map_some, Option.toList_some, List.singleton_append, places]
              rw [List.filter_cons_of_pos (isTable_tableSection hsection seen), List.map_cons]
              exact congrArg _ (ih seen)
      | paragraph p =>
          rw [docxItems_paragraph, docxItem]
          by_cases hempty : clean p.text = ""
          · rw [if_pos hempty]
            exact ih seen
          · rw [if_neg hempty]
            cases p.level? with
            | error failure => exact ih seen
            | ok level? =>
                cases level? with
                | some level => exact ih (⟨level, clean p.text⟩ :: seen)
                | none => exact ih seen

/-- The paragraphs stand under the headings before them, the tables under the last path. -/
theorem docx_laidOut {document : ParsedDocument} (h : parseDocx body = .ok document) :
    document.sections =
      laidOut path ((places [] (docxItems body)).filter fun p => !isTable p) ++
        ((places [] (docxItems body)).filter isTable).map fun p =>
          under (path (headingsAfter [] (docxItems body))) p.1 := by
  obtain ⟨⟨headings, sections⟩, hread, hrest⟩ := bind_eq_ok.mp h
  obtain ⟨hpath, hsections⟩ := paragraphs_laidOut [] [] hread
  have hdocument : document.sections =
      sections ++ ((docxTables body).filterMap tableSection).map (under headings) := by
    dsimp only at hrest
    split at hrest
    · cases hrest
    · cases hrest
      rfl
  rw [hdocument, tables_laidOut [], List.map_map]
  rw [show headings = _ from hpath, show sections = _ from hsections]
  rfl

/-! ## 6. The outline -/

theorem levels_of_places (hlevels : ∀ h, Item.heading h ∈ items → 1 ≤ h.level) :
    ∀ p ∈ places [] items, ∀ h ∈ p.2, 1 ≤ h.level :=
  fun _ hp h hh => hlevels h (heading_of_places hp hh)

theorem markdown_outline_iff (value contentType : String) :
    markdownSections value contentType =
        laidOut outlinePath (places [] (markdownItems value contentType)) ↔
      AllPlaced (markdownItems value contentType) := by
  rw [markdown_laidOut]
  exact laidOut_eq_iff (levels_of_places fun _ => level_of_lineItems [] _)

theorem html_outline_iff {unescape : String → String} {page : HtmlDocument}
    {document : ParsedDocument} (h : page.parse unescape = .ok document) :
    document.sections = laidOut outlinePath (places [] (htmlItems unescape page)) ↔
      AllPlaced (htmlItems unescape page) := by
  rw [html_laidOut h]
  exact laidOut_eq_iff (levels_of_places fun _ => level_of_htmlItems)

theorem docx_outline_of_placed {document : ParsedDocument} (h : parseDocx body = .ok document)
    (hplaced : DocxPlaced (docxItems body)) :
    document.sections = docxLaidOut outlinePath (places [] (docxItems body)) := by
  have hlevels := levels_of_places hplaced.levels
  have hpath : ∀ p ∈ places [] (docxItems body), path p.2 = outlinePath p.2 := fun p hp =>
    path_of_placed (hlevels p hp) (hplaced.placed p hp)
  rw [docx_laidOut h, docxLaidOut]
  congr 1
  · refine List.map_inj_left.mpr fun p hp => ?_
    rw [hpath p (List.mem_of_mem_filter hp)]
  · refine List.map_inj_left.mpr fun p hp => ?_
    obtain ⟨hin, htable⟩ := List.mem_filter.mp hp
    rw [← hplaced.tables p hin htable, hpath p hin]

/-- A path that ends with a later heading is no outline of the headings before it. -/
theorem eq_of_last_path {all headings : List (Heading String)} (hsuffix : headings <:+ all)
    (hdistinct : (all.map (·.title)).Nodup) (hpath : path all = outlinePath headings) :
    headings = all := by
  obtain ⟨later, rfl⟩ := hsuffix
  cases later with
  | nil => rfl
  | cons last later =>
      exfalso
      have hlast : last.title ∈ path (last :: later ++ headings) := by
        rw [List.cons_append, path]
        unfold enter
        exact List.mem_append_right _ List.mem_cons_self
      rw [hpath, outlinePath, List.mem_reverse] at hlast
      obtain ⟨h, hmem, htitle⟩ := List.mem_map.mp hlast
      rw [List.cons_append, List.map_cons] at hdistinct
      refine (List.nodup_cons.mp hdistinct).1 (List.mem_map.mpr ⟨h, ?_, htitle⟩)
      exact List.mem_append_right later (mem_outline hmem)

theorem docx_placed_of_outline {document : ParsedDocument} (h : parseDocx body = .ok document)
    (hlevels : ∀ g, Item.heading g ∈ docxItems body → 1 ≤ g.level)
    (hdistinct : ((headingsAfter [] (docxItems body)).map (·.title)).Nodup)
    (hsections : document.sections = docxLaidOut outlinePath (places [] (docxItems body))) :
    DocxPlaced (docxItems body) := by
  rw [docx_laidOut h, docxLaidOut] at hsections
  obtain ⟨hparagraphs, htables⟩ := List.append_inj hsections (by simp [laidOut])
  have hbefore := levels_of_places hlevels
  have hlast : ∀ p ∈ places [] (docxItems body), isTable p = true →
      path (headingsAfter [] (docxItems body)) = outlinePath p.2 := by
    intro p hp htable
    have hunder := List.map_inj_left.mp htables p (List.mem_filter.mpr ⟨hp, htable⟩)
    exact congrArg (·.headingPath) hunder
  have hend : ∀ p ∈ places [] (docxItems body), isTable p = true →
      p.2 = headingsAfter [] (docxItems body) := fun p hp htable =>
    eq_of_last_path (places_suffix hp) hdistinct (hlast p hp htable)
  refine ⟨hlevels, fun p hp => ?_, hend⟩
  cases htable : isTable p with
  | true =>
      refine (path_eq_outline_iff (hbefore p hp)).mp ?_
      exact (congrArg path (hend p hp htable)).trans (hlast p hp htable)
  | false =>
      refine (laidOut_eq_iff fun p hp => hbefore p (List.mem_of_mem_filter hp)).mp hparagraphs p ?_
      exact List.mem_filter.mpr ⟨hp, by rw [htable]; rfl⟩

/-- **The heading paths are the outline of the document exactly where the headings before
    its sections are placed**; in a DOCX document no heading comes after a table besides.
    Along an outline no level occurs twice. -/
theorem heading_paths_outline_iff (unescape : String → String) :
    (∀ headings : List (Heading String),
      (outline headings).Pairwise fun near far => far.level < near.level) ∧
    (∀ value contentType, markdownSections value contentType =
        laidOut outlinePath (places [] (markdownItems value contentType)) ↔
      AllPlaced (markdownItems value contentType)) ∧
    (∀ (page : HtmlDocument) (document : ParsedDocument), page.parse unescape = .ok document →
      (document.sections = laidOut outlinePath (places [] (htmlItems unescape page)) ↔
        AllPlaced (htmlItems unescape page))) ∧
    ∀ (body : List DocxBlock) (document : ParsedDocument), parseDocx body = .ok document →
      (DocxPlaced (docxItems body) →
        document.sections = docxLaidOut outlinePath (places [] (docxItems body))) ∧
      ((∀ g, Item.heading g ∈ docxItems body → 1 ≤ g.level) →
        ((headingsAfter [] (docxItems body)).map (·.title)).Nodup →
        document.sections = docxLaidOut outlinePath (places [] (docxItems body)) →
        DocxPlaced (docxItems body)) :=
  ⟨outline_levels, markdown_outline_iff, fun _ _ h => html_outline_iff h, fun _ _ h =>
    ⟨docx_outline_of_placed h, docx_placed_of_outline h⟩⟩

/-- A page and a document whose levels follow on one another. -/
def nestedPage : HtmlDocument where
  nodes := [⟨.h1, "Plans", none, []⟩, ⟨.h2, "Basic", none, []⟩, ⟨.h2, "Premium", none, []⟩,
    ⟨.p, "Costs more.", none, []⟩]
  bodyText := "Plans Basic Premium Costs more."

def nestedBody : List DocxBlock :=
  [.paragraph ⟨"Fees", some (some "Heading 1")⟩, .table ⟨[["Plan", "Fee"]]⟩]

theorem nested_outline :
    (∃ document, nestedPage.parse id = .ok document ∧
      document.sections = laidOut outlinePath (places [] (htmlItems id nestedPage))) ∧
    ∃ document, parseDocx nestedBody = .ok document ∧
      document.sections = docxLaidOut outlinePath (places [] (docxItems nestedBody)) := by
  obtain ⟨-, -, hhtml, hdocx⟩ := heading_paths_outline_iff id
  refine ⟨⟨_, rfl, (hhtml nestedPage _ rfl).mpr ?_⟩, _, rfl, (hdocx nestedBody _ rfl).1 ⟨?_, ?_, ?_⟩⟩
  · unfold AllPlaced
    decide +kernel
  · have hitems : docxItems nestedBody = [.heading ⟨1, "Fees"⟩,
        .block { textSection "| Plan | Fee |\n| --- | --- |" "table" with
          tableMarkdown := some "| Plan | Fee |\n| --- | --- |" }] := by rfl
    rw [hitems]
    simp
  · unfold AllPlaced
    decide +kernel
  · decide +kernel

/-- Two headings of level 3 below one of level 1. -/
def skippedLevel : String := "# Plans\n### Basic\n### Premium\nCosts more."

/-- A table under a heading before another one. -/
def tableBetween : List DocxBlock :=
  [.paragraph ⟨"Fees", some (some "Heading 1")⟩, .table ⟨[["Plan", "Fee"]]⟩,
    .paragraph ⟨"Taxes", some (some "Heading 1")⟩]

/-- **A sibling stays in the path, and a table gets the last one.** -/
theorem sibling_stays_in_path :
    (¬ ∀ value, markdownSections value "text/markdown" =
      laidOut outlinePath (places [] (markdownItems value "text/markdown"))) ∧
    ¬ ∀ body document, parseDocx body = .ok document →
      document.sections = docxLaidOut outlinePath (places [] (docxItems body)) := by
  constructor
  · intro hclaim
    have hskipped := congrArg (List.map (·.headingPath)) (hclaim skippedLevel)
    revert hskipped
    decide +kernel
  · intro hclaim
    obtain ⟨document, hdocument⟩ : ∃ document, parseDocx tableBetween = .ok document :=
      ⟨_, rfl⟩
    have htable := congrArg (List.map (·.headingPath)) (hclaim tableBetween document hdocument)
    rw [docx_laidOut hdocument] at htable
    revert htable
    decide +kernel

end Helpdesk.Knowledge
