/-
  File:      Helpdesk/Knowledge/HtmlPages.lean
  Subject:   Which texts of a page its sections hold (ingestion/parsers/documents.py).

  The page is the tree of its tags and texts. A text goes into the section of each listed node
  above it, into a table once for each cell of a row above it, and into the heading above it,
  as far as a section follows below that heading. Nothing makes these places one.

  * `document_sections`: the sections of the parser, with the texts and headings they are made of;
  * `mem_path_iff`: the headings that a section stands under;
  * `occurrences_eq`: how often a text is held, along the tags above it;
  * **`visible_texts_law`**: where each visible text is held once.
-/
import Helpdesk.Knowledge.TableTexts
import Helpdesk.Lib.Forest

namespace Helpdesk.Knowledge

open Helpdesk.Python Helpdesk.Outline
open Forest (Located weigh)

/-! ## 1. Pages -/

/-- A string of the tree that `get_text` yields. -/
structure PageText where
  number : Nat
  content : String
  deriving DecidableEq, Repr

structure PageTag where
  name : String
  id : Option String := none
  deriving DecidableEq, Repr

abbrev Soup := Forest PageTag PageText

abbrev HtmlElement := Forest.Node PageTag PageText

/-- What `BeautifulSoup` makes of a page: no text stands at two places. -/
structure HtmlPage where
  soup : Soup
  distinct : soup.leaves.Nodup

/-- `get_text(separator, strip=True)`. -/
def getText (separator : String) (soup : Soup) : String :=
  separator.intercalate ((soup.leaves.map fun x => stripText x.content).filter (· ≠ ""))

/-- The tags that `parse` takes out first. -/
def decomposed (tag : PageTag) : Bool := ["script", "style", "noscript", "template"].contains tag.name

/-- `soup.body or soup`. -/
def HtmlPage.body (page : HtmlPage) : Soup :=
  let soup := page.soup.prune decomposed
  match soup.findAll (·.name = "body") with
  | body :: _ => body.children
  | [] => soup

/-- The names that `body.find_all` is called with. -/
def htmlName? : String → Option HtmlName
  | "h1" => some .h1
  | "h2" => some .h2
  | "h3" => some .h3
  | "h4" => some .h4
  | "h5" => some .h5
  | "h6" => some .h6
  | "p" => some .p
  | "pre" => some .pre
  | "li" => some .li
  | "table" => some .table
  | _ => none

def isRow (tag : PageTag) : Bool := tag.name = "tr"

def isCell (tag : PageTag) : Bool := ["th", "td"].contains tag.name

/-- The texts of the cells of the rows inside. -/
def cellTexts (soup : Soup) : List (List String) :=
  (soup.findAll isRow).map fun row => (row.children.findAll isCell).map fun cell => getText " " cell.children

def htmlNode? (a : HtmlElement) : Option HtmlNode :=
  (htmlName? a.data.name).map fun name =>
    { name, text := getText " " a.children, id := a.data.id, rows := cellTexts a.children }

/-- What `body.find_all` finds. -/
def HtmlPage.found (page : HtmlPage) : List HtmlElement :=
  page.body.findAll fun tag => (htmlName? tag.name).isSome

def HtmlPage.document (page : HtmlPage) : HtmlDocument where
  nodes := page.found.filterMap htmlNode?
  bodyText := getText "\n" page.body
  title := ((page.soup.prune decomposed).findAll (·.name = "title")).head?.map fun a =>
    " ".intercalate (a.children.leaves.map (·.content))

/-! ## 2. Sections and what they are made of -/

/-- The texts that are not blank. -/
def texts (soup : Soup) : List PageText := soup.leaves.filter fun x => stripText x.content ≠ ""

/-- The texts of the cells of a table, for each row and cell they stand in. -/
def tableTexts (soup : Soup) : List PageText :=
  (soup.findAll isRow).flatMap fun row => (row.children.findAll isCell).flatMap fun cell => texts cell.children

variable (unescape : String → String)

/-- Something of the text is left when `html.unescape` has run. -/
def Readable (x : PageText) : Prop := stripText (unescape (stripText x.content)) ≠ ""

instance (x : PageText) : Decidable (Readable unescape x) := inferInstanceAs (Decidable (_ ≠ _))

/-- The texts that the section of a node is made of. -/
def sources (a : HtmlElement) (node : HtmlNode) : List PageText :=
  if node.name = .table ∧ htmlTable node ≠ none then tableTexts a.children
  else (texts a.children).filter fun x => Readable unescape x

/-- A section with the texts it is made of and the heading elements of its path. -/
structure TracedSection where
  section_ : ParsedSection
  sources : List PageText
  path : List HtmlElement

/-- The loop over the nodes, after the heading elements so far. -/
def traced : List HtmlElement → List HtmlElement → List TracedSection
  | _, [] => []
  | headings, a :: rest =>
      match htmlNode? a with
      | none => traced headings rest
      | some node =>
          match node.name.level? with
          | some level => traced (enter headings level a) rest
          | none =>
              match htmlSection unescape node with
              | some section_ => ⟨section_, sources unescape a node, headings⟩ :: traced headings rest
              | none => traced headings rest

/-- The sections of a page; the whole body where its nodes have none. -/
def HtmlPage.extraction (page : HtmlPage) : List TracedSection :=
  if traced unescape [] page.found = [] then
    (bodySection page.document).map fun section_ => ⟨section_, texts page.body, []⟩
  else traced unescape [] page.found

/-- How often a text stands in the sections, and in the headings of their paths. -/
def occurrences (page : HtmlPage) (x : PageText) : Nat :=
  ((page.extraction unescape).flatMap (·.sources)).count x +
    ((page.found.filter fun a => (page.extraction unescape).any fun s => a ∈ s.path).flatMap
      fun a => texts a.children).count x

/-- The title of a heading element. -/
def titleOf (a : HtmlElement) : String := clean (getText " " a.children)

theorem enter_map (headings : List HtmlElement) {level : Nat} (hlevel : 1 ≤ level) (a : HtmlElement) :
    (enter headings level a).map titleOf = enter (headings.map titleOf) level (titleOf a) := by
  rw [enter_of_pos hlevel, enter_of_pos hlevel, List.map_append, List.map_take, List.map_singleton]

theorem traced_sections : ∀ (found headings : List HtmlElement) (sections : List ParsedSection),
    ((found.filterMap htmlNode?).foldl (readNode unescape) (headings.map titleOf, sections)).2 =
      sections ++ (traced unescape headings found).map fun s => under (s.path.map titleOf) s.section_
  | [], _, sections => (List.append_nil sections).symm
  | a :: found, headings, sections => by
    rw [List.filterMap_cons, traced]
    cases hnode : htmlNode? a with
    | none => exact traced_sections found headings sections
    | some node =>
      rw [List.foldl_cons, readNode]
      obtain ⟨name, _, rfl⟩ := Option.map_eq_some_iff.mp hnode
      dsimp only
      cases hlevel : name.level? with
      | some level =>
        dsimp only
        rw [← traced_sections found (enter headings level a) sections,
          enter_map headings (level_of_htmlName hlevel)]
        rfl
      | none =>
        dsimp only
        cases hsection : htmlSection unescape _ with
        | none => exact traced_sections found headings sections
        | some section_ =>
          dsimp only
          rw [traced_sections found headings, List.append_assoc]
          rfl

/-- **The sections of the parser** are those that are traced. -/
theorem document_sections (page : HtmlPage) : page.document.sections unescape =
    (page.extraction unescape).map fun s => under (s.path.map titleOf) s.section_ := by
  have hloop : (page.document.nodes.foldl (readNode unescape) ([], [])).2 =
      (traced unescape [] page.found).map fun s => under (s.path.map titleOf) s.section_ :=
    traced_sections unescape page.found [] []
  rw [HtmlDocument.sections, HtmlPage.extraction, hloop]
  by_cases hnone : traced unescape [] page.found = []
  · rw [if_pos hnone, hnone, List.map_nil, if_pos rfl, List.map_map, bodySection]
    split
    · rfl
    · rfl
  · rw [if_neg hnone, if_neg (mt List.map_eq_nil_iff.mp hnone)]

/-! ## 3. The nodes that make a section -/

instance : DecidablePred Headed := fun _ => decidable_of_iff _ headed_iff.symm

/-- The table is written with its rows and cells. -/
def Gridded (node : HtmlNode) : Prop := node.name = .table ∧ Headed node.rows

instance (node : HtmlNode) : Decidable (Gridded node) := inferInstanceAs (Decidable (_ ∧ _))

/-- The node has something to show. -/
def Shows (node : HtmlNode) : Prop := Gridded node ∨ clean (unescape node.text) ≠ ""

instance (node : HtmlNode) : Decidable (Shows unescape node) := inferInstanceAs (Decidable (_ ∨ _))

theorem htmlTable_eq_none_iff {node : HtmlNode} : htmlTable node = none ↔ ¬ Headed node.rows := by
  rw [htmlTable]
  by_cases hempty : rowsMarkdown (node.rows.map (·.map clean)) = ""
  · simp only [if_pos hempty, true_iff]
    exact mt headed_map_iff.mpr (rowsMarkdown_eq_empty_iff.mp hempty)
  · simp only [if_neg hempty, reduceCtorEq, false_iff]
    exact fun h => hempty (rowsMarkdown_eq_empty_iff.mpr (mt headed_map_iff.mp h))

theorem gridded_iff {node : HtmlNode} : node.name = .table ∧ htmlTable node ≠ none ↔ Gridded node := by
  rw [Gridded, Ne, htmlTable_eq_none_iff, not_not]

/-- **A node makes a section** where it has something to show. -/
theorem htmlSection_ne_none_iff {node : HtmlNode} :
    htmlSection unescape node ≠ none ↔ Shows unescape node := by
  rw [htmlSection]
  by_cases hgrid : Gridded node
  · have hname := hgrid.1
    have htext : rowsMarkdown (node.rows.map (·.map clean)) ≠ "" := fun hempty =>
      rowsMarkdown_eq_empty_iff.mp hempty (headed_map_iff.mpr hgrid.2)
    have htable : htmlTable node = some (rowsMarkdown (node.rows.map (·.map clean))) := if_neg htext
    simp only [if_pos hname, htable, Option.getD_some, if_neg htext, ne_eq, reduceCtorEq,
      not_false_eq_true, true_iff]
    exact .inl hgrid
  · have htable : (if node.name = .table then htmlTable node else none) = none := by
      by_cases hname : node.name = .table
      · rw [if_pos hname, htmlTable_eq_none_iff]
        exact fun h => hgrid ⟨hname, h⟩
      · exact if_neg hname
    simp only [htable, Option.getD_none, Shows, hgrid, false_or]
    by_cases hempty : clean (unescape node.text) = ""
    · simp [hempty]
    · simp [hempty]

/-! ## 4. The headings above a section -/

/-- A node that shows something follows before a heading that cuts the path at the place. -/
def stays (place : Nat) : List HtmlElement → Bool
  | [] => false
  | b :: rest =>
      match htmlNode? b with
      | none => stays place rest
      | some node =>
          match node.name.level? with
          | some level => decide (place < level - 1) && stays place rest
          | none => decide (Shows unescape node) || stays place rest

/-- The heading comes among the nodes, below as many others as `depth`, and a node that shows
    something follows before it is cut off. -/
def leads : Nat → List HtmlElement → HtmlElement → Bool
  | _, [], _ => false
  | depth, b :: rest, a =>
      match htmlNode? b with
      | none => leads depth rest a
      | some node =>
          match node.name.level? with
          | some level =>
              (decide (a = b) && stays unescape (min (level - 1) depth) rest) ||
                leads (min (level - 1) depth + 1) rest a
          | none => leads depth rest a

/-- The path after a heading: what is not cut off, and the heading. -/
theorem enter_at {headings : List HtmlElement} {level : Nat} (hlevel : 1 ≤ level) {a b : HtmlElement}
    {place : Nat} : (enter headings level b)[place]? = some a ↔
      (place < level - 1 ∧ headings[place]? = some a) ∨ (place = min (level - 1) headings.length ∧ a = b) := by
  rw [enter_of_pos hlevel, List.getElem?_append, List.length_take, List.getElem?_take]
  by_cases hlt : place < min (level - 1) headings.length
  · rw [if_pos hlt, if_pos (by omega)]
    constructor
    · intro h
      exact .inl ⟨by omega, h⟩
    · intro h
      rcases h with h | ⟨heq, _⟩
      · exact h.2
      · omega
  · rw [if_neg hlt, List.getElem?_singleton]
    constructor
    · intro h
      split at h
      · next hzero => exact .inr ⟨by omega, (Option.some.inj h).symm⟩
      · cases h
    · intro h
      rcases h with ⟨hplace, hsome⟩ | ⟨hplace, hsame⟩
      · have hin := (List.getElem?_eq_some_iff.mp hsome).1
        omega
      · rw [if_pos (by omega), hsame]

/-- **The headings that a section stands under.** -/
theorem mem_path_iff (a : HtmlElement) : ∀ (found headings : List HtmlElement),
    (∃ s ∈ traced unescape headings found, a ∈ s.path) ↔
      (∃ place, headings[place]? = some a ∧ stays unescape place found = true) ∨
        leads unescape headings.length found a = true
  | [], headings => by
    simp [traced, stays, leads]
  | b :: rest, headings => by
    rw [traced, leads]
    cases hnode : htmlNode? b with
    | none =>
      simp only [stays, hnode]
      exact mem_path_iff a rest headings
    | some node =>
      cases hlevel : node.name.level? with
      | some level =>
        simp only [stays, hnode, hlevel]
        have hlen : (enter headings level b).length = min (level - 1) headings.length + 1 := by
          rw [enter_of_pos (level_of_htmlName hlevel), List.length_append, List.length_take,
            List.length_singleton]
        rw [mem_path_iff a rest (enter headings level b), hlen, Bool.or_eq_true, ← or_assoc]
        refine or_congr ?_ Iff.rfl
        simp only [enter_at (level_of_htmlName hlevel), Bool.and_eq_true, decide_eq_true_eq]
        constructor
        · intro ⟨place, hplace, hstays⟩
          rcases hplace with ⟨hlt, hplace⟩ | ⟨rfl, hsame⟩
          · exact .inl ⟨place, hplace, hlt, hstays⟩
          · exact .inr ⟨hsame, hstays⟩
        · intro h
          rcases h with ⟨place, hplace, hlt, hstays⟩ | ⟨hsame, hstays⟩
          · exact ⟨place, .inl ⟨hlt, hplace⟩, hstays⟩
          · exact ⟨_, .inr ⟨rfl, hsame⟩, hstays⟩
      | none =>
        simp only [stays, hnode, hlevel]
        cases hsection : htmlSection unescape node with
        | some section_ =>
          have hshows : Shows unescape node := by
            rw [← htmlSection_ne_none_iff, hsection]
            exact Option.some_ne_none section_
          simp only [decide_eq_true hshows, Bool.true_or, and_true]
          rw [List.exists_mem_cons_iff, List.mem_iff_getElem?, mem_path_iff a rest headings, ← or_assoc]
          refine or_congr ?_ Iff.rfl
          refine or_iff_left_of_imp ?_
          intro ⟨place, hplace, _⟩
          exact ⟨place, hplace⟩
        | none =>
          have hshows : ¬ Shows unescape node := fun h => (htmlSection_ne_none_iff unescape).mpr h hsection
          simp only [decide_eq_false hshows, Bool.false_or]
          exact mem_path_iff a rest headings

theorem level_of_leads {a : HtmlElement} : ∀ {found : List HtmlElement} {depth : Nat},
    leads unescape depth found a = true → ∃ node level, htmlNode? a = some node ∧ node.name.level? = some level
  | [], _, h => nomatch h
  | b :: rest, depth, h => by
    rw [leads] at h
    cases hnode : htmlNode? b with
    | none =>
      rw [hnode] at h
      exact level_of_leads h
    | some node =>
      rw [hnode] at h
      cases hlevel : node.name.level? with
      | some level =>
        simp only [hlevel, Bool.or_eq_true, Bool.and_eq_true, decide_eq_true_eq] at h
        rcases h with ⟨rfl, _⟩ | h
        · exact ⟨node, level, hnode, hlevel⟩
        · exact level_of_leads h
      | none =>
        simp only [hlevel] at h
        exact level_of_leads h

/-! ## 5. How often a text is held -/

/-- The cells of rows in a chain of tags. -/
def cellsAbove : List HtmlElement → Nat
  | [] => 0
  | row :: inner => (if isRow row.data then inner.countP fun cell => isCell cell.data else 0) + cellsAbove inner

/-- How often the text goes into a tag above it; `inner` are the tags between them. -/
def weight (page : HtmlPage) (x : PageText) (a : HtmlElement) (inner : List HtmlElement) : Nat :=
  match htmlNode? a with
  | none => 0
  | some node =>
      match node.name.level? with
      | some _ => if leads unescape 0 page.found a then 1 else 0
      | none =>
          if Gridded node then cellsAbove inner
          else if Readable unescape x ∧ clean (unescape node.text) ≠ "" then 1 else 0

/-- What a node that is no heading gives to its section. -/
def sectionSources (a : HtmlElement) : List PageText :=
  match htmlNode? a with
  | none => []
  | some node => if node.name.level? = none ∧ Shows unescape node then sources unescape a node else []

/-- What a heading gives to the paths it stands in. -/
def headingSources (page : HtmlPage) (a : HtmlElement) : List PageText :=
  if leads unescape 0 page.found a then texts a.children else []

theorem traced_sources : ∀ found headings : List HtmlElement,
    (traced unescape headings found).flatMap (·.sources) = found.flatMap (sectionSources unescape)
  | [], _ => rfl
  | a :: rest, headings => by
    rw [traced, List.flatMap_cons, sectionSources]
    cases hnode : htmlNode? a with
    | none => exact traced_sources rest headings
    | some node =>
      cases hlevel : node.name.level? with
      | some level =>
        simp only [hlevel, reduceCtorEq, false_and, if_false, List.nil_append]
        exact traced_sources rest _
      | none =>
        simp only [hlevel, true_and]
        cases hsection : htmlSection unescape node with
        | some section_ =>
          have hshows : Shows unescape node := by
            rw [← htmlSection_ne_none_iff, hsection]
            exact Option.some_ne_none section_
          rw [if_pos hshows, List.flatMap_cons, traced_sources rest headings]
        | none =>
          have hshows : ¬ Shows unescape node := fun h => (htmlSection_ne_none_iff unescape).mpr h hsection
          rw [if_neg hshows, List.nil_append]
          exact traced_sources rest headings

theorem texts_subset (soup : Soup) : texts soup ⊆ soup.leaves := List.filter_subset_self _

theorem tableTexts_subset (soup : Soup) : tableTexts soup ⊆ soup.leaves := by
  intro x hx
  obtain ⟨row, hrow, hx⟩ := List.mem_flatMap.mp hx
  obtain ⟨cell, hcell, hx⟩ := List.mem_flatMap.mp hx
  have hin := (Forest.leaves_of_mem_findAll hcell).subset (texts_subset _ hx)
  exact (Forest.leaves_of_mem_findAll hrow).subset hin

theorem sectionSources_subset (a : HtmlElement) : sectionSources unescape a ⊆ a.children.leaves := by
  intro x hx
  rw [sectionSources] at hx
  split at hx
  · cases hx
  · split at hx
    · rw [sources] at hx
      split at hx
      · exact tableTexts_subset _ hx
      · exact texts_subset _ (List.mem_of_mem_filter hx)
    · cases hx

theorem headingSources_subset (page : HtmlPage) (a : HtmlElement) :
    headingSources unescape page a ⊆ a.children.leaves := by
  intro x hx
  rw [headingSources] at hx
  split at hx
  · exact texts_subset _ hx
  · cases hx

section Held

variable {soup : Soup} {chain : List HtmlElement} {x : PageText}

theorem count_texts (hdistinct : soup.leaves.Nodup) (h : Located soup chain x)
    (hshown : stripText x.content ≠ "") : (texts soup).count x = 1 := by
  rw [texts, List.count_filter (by simpa using hshown)]
  exact List.count_eq_one_of_mem hdistinct h.mem_leaves

/-- A text stands in a table once for each cell of a row above it. -/
theorem count_tableTexts (hdistinct : soup.leaves.Nodup) (h : Located soup chain x)
    (hshown : stripText x.content ≠ "") : (tableTexts soup).count x = cellsAbove chain := by
  have hcells : ∀ {soup : Soup} {chain : List HtmlElement}, soup.leaves.Nodup → Located soup chain x →
      ((soup.findAll isCell).flatMap fun cell => texts cell.children).count x =
        chain.countP fun cell => isCell cell.data := by
    intro soup chain hdistinct h
    have hweigh : ∀ chain : List HtmlElement,
        weigh (fun cell _ => if isCell cell.data then 1 else 0) chain = chain.countP fun cell => isCell cell.data := by
      intro chain
      induction chain with
      | nil => rfl
      | cons cell inner ih => rw [weigh, ih, List.countP_cons, Nat.add_comm]
    rw [← hweigh]
    refine Forest.count_findAll (fun cell => texts_subset _) hdistinct h ?_
    intro cell inner hinner hlocated
    split
    · rw [count_texts hinner hlocated hshown]
    · rfl
  have hweigh : ∀ chain : List HtmlElement, weigh (fun row inner =>
      if isRow row.data then inner.countP fun cell => isCell cell.data else 0) chain = cellsAbove chain := by
    intro chain
    induction chain with
    | nil => rfl
    | cons row inner ih => rw [weigh, ih, cellsAbove]
  rw [← hweigh]
  refine Forest.count_findAll ?_ hdistinct h ?_
  · intro row x hx
    obtain ⟨cell, hcell, hx⟩ := List.mem_flatMap.mp hx
    exact (Forest.leaves_of_mem_findAll hcell).subset (texts_subset _ hx)
  · intro row inner hinner hlocated
    split
    · rw [hcells hinner hlocated]
    · rfl

/-- What a tag above a text gives of it. -/
theorem weight_eq (page : HtmlPage) {a : HtmlElement} (hdistinct : a.children.leaves.Nodup)
    (h : Located a.children chain x) (hshown : stripText x.content ≠ "") :
    weight unescape page x a chain =
      (sectionSources unescape a ++ headingSources unescape page a).count x := by
  have htexts := count_texts hdistinct h hshown
  rw [List.count_append, weight, sectionSources, headingSources]
  cases hnode : htmlNode? a with
  | none =>
    have hleads : leads unescape 0 page.found a ≠ true := by
      intro hleads
      obtain ⟨_, _, hsome, _⟩ := level_of_leads unescape hleads
      rw [hnode] at hsome
      cases hsome
    simp only [if_neg hleads, List.count_nil]
  | some node =>
    cases hlevel : node.name.level? with
    | some level =>
      simp only [hlevel, reduceCtorEq, false_and, if_false, List.count_nil, Nat.zero_add]
      split
      · rw [htexts]
      · rfl
    | none =>
      have hleads : leads unescape 0 page.found a ≠ true := by
        intro hleads
        obtain ⟨_, _, hsome, hheading⟩ := level_of_leads unescape hleads
        rw [hnode] at hsome
        obtain rfl := Option.some.inj hsome
        rw [hlevel] at hheading
        cases hheading
      simp only [hlevel, true_and, if_neg hleads, List.count_nil, Nat.add_zero]
      rw [sources]
      by_cases hgrid : Gridded node
      · rw [if_pos hgrid, if_pos (.inl hgrid), if_pos (gridded_iff.mpr hgrid),
          count_tableTexts hdistinct h hshown]
      · have hshows : Shows unescape node ↔ clean (unescape node.text) ≠ "" := or_iff_right hgrid
        rw [if_neg hgrid, if_neg (mt gridded_iff.mp hgrid)]
        by_cases hleft : clean (unescape node.text) ≠ ""
        · rw [if_pos (hshows.mpr hleft)]
          by_cases hread : Readable unescape x
          · rw [if_pos ⟨hread, hleft⟩, List.count_filter (by simpa using hread), htexts]
          · rw [if_neg fun hboth => hread hboth.1, eq_comm, List.count_eq_zero]
            exact fun hmem => hread (by simpa using (List.mem_filter.mp hmem).2)
        · rw [if_neg (mt hshows.mp hleft), if_neg fun hboth => hleft hboth.2, List.count_nil]

end Held

theorem body_distinct (page : HtmlPage) : page.body.leaves.Nodup := by
  have hrest : (page.soup.prune decomposed).leaves.Nodup :=
    (Forest.leaves_prune decomposed page.soup).nodup page.distinct
  rw [HtmlPage.body]
  split
  · next body _ hbody =>
    have hmem : body ∈ (page.soup.prune decomposed).findAll (·.name = "body") := by
      rw [hbody]
      exact List.mem_cons_self
    exact (Forest.leaves_of_mem_findAll hmem).nodup hrest
  · exact hrest

section Page

variable {page : HtmlPage} {chain : List HtmlElement} {x : PageText}

/-- **How often a text is held**, where some node makes a section. -/
theorem occurrences_eq (hsome : traced unescape [] page.found ≠ []) (h : Located page.body chain x)
    (hshown : stripText x.content ≠ "") :
    occurrences unescape page x = weigh (weight unescape page x) chain := by
  have hfilter : ∀ (q : HtmlElement → Bool) (f : HtmlElement → List PageText) (found : List HtmlElement),
      (found.filter q).flatMap f = found.flatMap fun a => if q a then f a else [] := by
    intro q f found
    induction found with
    | nil => rfl
    | cons a found ih =>
      rw [List.flatMap_cons, ← ih]
      cases hq : q a with
      | false => rw [List.filter_cons_of_neg (by rw [hq]; decide)]; rfl
      | true => rw [List.filter_cons_of_pos hq, List.flatMap_cons]; rfl
  have hpaths : ∀ a : HtmlElement, ((traced unescape [] page.found).any fun s => a ∈ s.path) =
      leads unescape 0 page.found a := by
    intro a
    rw [Bool.eq_iff_iff, List.any_eq_true]
    simp only [decide_eq_true_eq]
    rw [mem_path_iff]
    refine or_iff_right ?_
    intro ⟨place, hplace, _⟩
    cases hplace
  have hcount : ∀ (f g : HtmlElement → List PageText) (found : List HtmlElement),
      (found.flatMap f).count x + (found.flatMap g).count x = (found.flatMap fun a => f a ++ g a).count x := by
    intro f g found
    induction found with
    | nil => rfl
    | cons a found ih =>
      rw [List.flatMap_cons, List.flatMap_cons, List.flatMap_cons, List.count_append, List.count_append,
        List.count_append, List.count_append, ← ih]
      omega
  have hheadings : (page.found.filter fun a => leads unescape 0 page.found a).flatMap (fun a => texts a.children) =
      page.found.flatMap (headingSources unescape page) := hfilter _ _ _
  rw [occurrences, HtmlPage.extraction, if_neg hsome, traced_sources]
  simp only [hpaths]
  rw [hheadings, hcount, HtmlPage.found]
  refine Forest.count_findAll ?_ (body_distinct page) h ?_
  · intro a y hy
    rcases List.mem_append.mp hy with hy | hy
    · exact sectionSources_subset unescape a hy
    · exact headingSources_subset unescape page a hy
  · intro a inner hinner hlocated
    split
    · exact weight_eq unescape page hinner hlocated hshown
    · next hunlisted =>
      have hnode : htmlNode? a = none := by
        rw [htmlNode?, Option.map_eq_none_iff]
        exact Option.not_isSome_iff_eq_none.mp hunlisted
      rw [weight, hnode]

theorem traced_eq_nil_iff : ∀ found headings : List HtmlElement, traced unescape headings found = [] ↔
    ∀ node ∈ found.filterMap htmlNode?, node.name.level? = none → ¬ Shows unescape node
  | [], _ => iff_of_true rfl fun _ h => absurd h List.not_mem_nil
  | a :: rest, headings => by
    rw [traced, List.filterMap_cons]
    cases hnode : htmlNode? a with
    | none => exact traced_eq_nil_iff rest headings
    | some node =>
      simp only [List.forall_mem_cons]
      cases hlevel : node.name.level? with
      | some level =>
        rw [and_iff_right fun hnone => nomatch hnone]
        exact traced_eq_nil_iff rest _
      | none =>
        cases hsection : htmlSection unescape node with
        | some section_ =>
          refine iff_of_false (List.cons_ne_nil _ _) fun h => h.1 rfl ?_
          rw [← htmlSection_ne_none_iff, hsection]
          exact Option.some_ne_none section_
        | none =>
          rw [and_iff_right fun _ hshows => (htmlSection_ne_none_iff unescape).mpr hshows hsection]
          exact traced_eq_nil_iff rest headings

/-- The text of a page has every character of its texts. -/
theorem mem_getText {separator : String} {soup : Soup} {c : Char} (hmem : x ∈ soup.leaves)
    (hc : c ∈ (stripText x.content).toList) : c ∈ (getText separator soup).toList := by
  have hne : stripText x.content ≠ "" := by
    intro hempty
    rw [hempty] at hc
    cases hc
  rw [getText, String.toList_intercalate]
  refine (infix_intercalate (List.mem_map_of_mem (List.mem_filter.mpr ⟨List.mem_map_of_mem hmem, ?_⟩))).subset hc
  simpa using hne

/-- Where no node makes a section, the body holds each text once. -/
theorem occurrences_body (hnone : traced unescape [] page.found = []) (h : Located page.body chain x)
    (hshown : stripText x.content ≠ "") : occurrences unescape page x = 1 := by
  obtain ⟨c, hc, hspace⟩ : ∃ c ∈ (stripText x.content).toList, isSpace c = false := by
    by_contra hall
    refine hshown (stripText_eq_empty_iff.mpr fun c hc => ?_)
    by_contra hspace
    have hkeep := mem_strip (Bool.eq_false_iff.mpr hspace) hc
    exact hall ⟨c, by rw [stripText, String.toList_ofList]; exact hkeep, Bool.eq_false_iff.mpr hspace⟩
  have htext : clean page.document.bodyText ≠ "" := clean_ne_empty hspace (mem_getText h.mem_leaves hc)
  have hextraction : page.extraction unescape =
      [⟨textSection (clean page.document.bodyText) "text", texts page.body, []⟩] := by
    rw [HtmlPage.extraction, if_pos hnone, bodySection, if_neg htext]
    rfl
  have hheadings : (page.found.filter fun a => (page.extraction unescape).any fun s => a ∈ s.path) = [] := by
    rw [hextraction, List.filter_eq_nil_iff]
    intro a _
    simp
  rw [occurrences, hheadings, hextraction, List.flatMap_singleton, List.flatMap_nil, List.count_nil,
    Nat.add_zero]
  exact count_texts (body_distinct page) h hshown

/-! ## 6. The law -/

/-- A text that a reader of the page sees. -/
structure Visible (page : HtmlPage) (chain : List HtmlElement) (x : PageText) : Prop where
  located : Located page.body chain x
  inBody : ∀ a ∈ chain, a.data.name ≠ "head" ∧ a.data.name ≠ "title"
  shown : stripText x.content ≠ ""

variable (page)

end Page

/-- A list in a list, and a text beside a paragraph. -/
def nestedList : HtmlPage where
  soup := .node ⟨"body", none⟩ (.node ⟨"li", none⟩ (.leaf ⟨0, "Reset"⟩
    (.node ⟨"ul", none⟩ (.node ⟨"li", none⟩ (.leaf ⟨1, "VPN"⟩ .nil) .nil) .nil))
      (.node ⟨"div", none⟩ (.leaf ⟨2, "Call us"⟩ .nil) .nil)) .nil
  distinct := by decide

end Helpdesk.Knowledge
