/-
  File:      Helpdesk/Knowledge/TableIsolation.lean
  Subject:   Whether a table is a chunk of its own.

  A table is never cut and joins no piece before it. The condition under which a piece
  joins looks at the piece that comes, not at the group it joins: what follows a table
  under the same heading joins the table while both stay within `target_tokens`.

  * `pieces_at_table`, `groups_at_table`: the pieces and the groups before a table, the
    table with what joins it, and the groups after it;
  * `blockContent_alone_iff`: the text of a group is that of its first piece exactly where
    the others are blank;
  * **`table_isolated_iff`**: over all documents.
-/
import Helpdesk.Knowledge.ChunkBounds

namespace Helpdesk.Knowledge

open Helpdesk.Python

variable {py : Runtime} {config : ChunkingConfig} {title : String} {document : ParsedDocument}
  {before after : List ParsedSection} {table : ParsedSection}

/-- The pieces of some sections, in their order. -/
def piecesOf (py : Runtime) (config : ChunkingConfig) (sections : List ParsedSection) :
    List ParsedSection :=
  sections.flatMap fun section_ => splitOversized py section_ config.maximumTokens

/-- **The table is a chunk of its own**: of the groups, those before it hold the sections
    before it, and the group that begins with the table has a chunk with the table's text
    and nothing else. -/
def Isolated (py : Runtime) (config : ChunkingConfig) (title : String) (document : ParsedDocument)
    (before : List ParsedSection) (table : ParsedSection) : Prop :=
  ∃ front g n back c, (groupsOf py config document).zipIdx 1 = front ++ (g, n) :: back ∧
    (front.flatMap fun entry => entry.1.sections) = piecesOf py config before ∧
    g.sections.head? = some table ∧ chunkOf py title g n = some c ∧
    c.content = stripText table.text

/-- **Nothing but blank text joins the table**: what follows it up to the first piece that
    is a table, stands under another heading or takes the group over the target is blank. -/
def StaysAlone (py : Runtime) (config : ChunkingConfig) (table : ParsedSection)
    (after : List ParsedSection) : Prop :=
  ∀ part ∈ joined (fitsBlock py config) [table] (piecesOf py config after),
    stripText part.text = ""

/-! ## 1. The groups around a table -/

theorem pieces_at_table (hsections : document.sections = before ++ table :: after)
    (htable : table.tableMarkdown ≠ none) :
    pieces py config document = piecesOf py config before ++ table :: piecesOf py config after := by
  have hwhole : splitOversized py table config.maximumTokens = [table] := by
    rw [splitOversized, if_pos (.inr htable)]
  rw [pieces, hsections, List.flatMap_append, List.flatMap_cons, hwhole]
  rfl

/-- A table joins no group. -/
theorem fitsBlock_table (htable : table.tableMarkdown ≠ none) (block : List ParsedSection) :
    fitsBlock py config block table = false := by
  cases block with
  | nil => rfl
  | cons first rest => simp [fitsBlock, joins, htable]

theorem groups_at_table (py : Runtime) (config : ChunkingConfig)
    (hsections : document.sections = before ++ table :: after)
    (htable : table.tableMarkdown ≠ none) :
    ∃ rest, (groupsOf py config document).map (·.sections) =
      group (fitsBlock py config) (piecesOf py config before) ++
        (table :: joined (fitsBlock py config) [table] (piecesOf py config after)) :: rest := by
  obtain ⟨rest, hrest⟩ := group_cons (fitsBlock py config) table (piecesOf py config after)
  refine ⟨rest, ?_⟩
  rw [groups_sections, pieces_at_table hsections htable,
    group_append_of_opens (fitsBlock_table htable), hrest]

/-! ## 2. The text of a group -/

theorem stripText_eq_empty {text : String} : stripText text = "" ↔ Blank text.toList := by
  rw [stripText, String.ofList_eq_empty_iff, strip_eq_nil_iff]
  rfl

/-- **The text of a group is that of its first piece exactly where the others are blank.** -/
theorem blockContent_alone_iff {first : ParsedSection} {rest : List ParsedSection} :
    blockContent (first :: rest) = stripText first.text ↔
      ∀ part ∈ rest, stripText part.text = "" := by
  constructor
  · intro hcontent part hpart
    have hwords := congrArg words hcontent
    rw [blockContent_words, words_stripText, List.flatMap_cons, List.append_right_eq_self] at hwords
    have hnone : words part.text = [] := List.flatMap_eq_nil_iff.mp hwords part hpart
    rw [words_eq, List.map_eq_nil_iff, words_eq_nil_iff] at hnone
    exact stripText_eq_empty.mpr hnone
  · intro hblank
    have htexts : ∀ text ∈ (rest.map (·.text)).map String.toList, Blank text := by
      intro text htext
      obtain ⟨_, hmem, rfl⟩ := List.mem_map.mp htext
      obtain ⟨part, hpart, rfl⟩ := List.mem_map.mp hmem
      exact stripText_eq_empty.mp (hblank part hpart)
    obtain ⟨tail, htail, hspace⟩ := intercalate_blank blank_paragraph htexts
    rw [blockContent, stripText, paragraphsJoined, String.toList_intercalate, List.map_cons,
      List.map_cons, htail, strip_append_blank hspace, stripText]

/-! ## 3. Isolation -/

/-- Groups that hold the same elements before a point are the same groups. -/
theorem split_unique {α : Type} {xs xs' ys ys' : List (List α)} {g g' : List α}
    (h : xs ++ g :: ys = xs' ++ g' :: ys') (hne : ∀ x ∈ xs ++ g :: ys, x ≠ [])
    (hflatten : xs.flatten = xs'.flatten) : g = g' := by
  -- what one side has more before the point is empty
  have hmore : ∀ {front mid : List (List α)}, (∀ x ∈ front ++ mid, x ≠ []) →
      front.flatten = (front ++ mid).flatten → mid = [] := by
    intro front mid hall heq
    rw [List.flatten_append] at heq
    have hnone : mid.flatten = [] := List.append_right_eq_self.mp heq.symm
    exact List.eq_nil_iff_forall_not_mem.mpr fun x hx =>
      hall x (List.mem_append_right _ hx) (List.flatten_eq_nil_iff.mp hnone x hx)
  rcases List.append_eq_append_iff.mp h with ⟨mid, rfl, hmid⟩ | ⟨mid, rfl, hmid⟩
  · have hnil : mid = [] := by
      refine hmore (fun x hx => hne x ?_) hflatten
      rw [h]
      exact List.mem_append_left _ hx
    rw [hnil, List.nil_append] at hmid
    exact (List.cons.inj hmid).1
  · have hnil : mid = [] :=
      hmore (fun x hx => hne x (List.mem_append_left _ hx)) hflatten.symm
    rw [hnil, List.nil_append] at hmid
    exact (List.cons.inj hmid).1.symm

/-- **A table is isolated exactly when it has text and nothing but blank text joins it.** -/
theorem isolated_iff (hsections : document.sections = before ++ table :: after)
    (htable : table.tableMarkdown ≠ none) :
    Isolated py config title document before table ↔
      stripText table.text ≠ "" ∧ StaysAlone py config table after := by
  obtain ⟨rest, hgroups⟩ := groups_at_table py config hsections htable
  have hflatten : (group (fitsBlock py config) (piecesOf py config before)).flatten =
      piecesOf py config before := (isGrouping_group _).flatten
  have hindexed : ((groupsOf py config document).zipIdx 1).map (fun entry => entry.1.sections) =
      (groupsOf py config document).map (·.sections) := by
    have hfst := congrArg (List.map (·.sections))
      (List.zipIdx_map_fst 1 (groupsOf py config document))
    rwa [List.map_map] at hfst
  constructor
  · rintro ⟨front, g, n, back, c, hsplit, hfront, hhead, hchunk, hcontent⟩
    have hsections' : g.sections =
        table :: joined (fitsBlock py config) [table] (piecesOf py config after) := by
      rw [hgroups, hsplit, List.map_append, List.map_cons] at hindexed
      refine split_unique hindexed (fun x hx => ?_) ?_
      · rw [hindexed, ← hgroups] at hx
        exact (groups_isGrouping py config document).nonempty x hx
      · rw [hflatten, ← hfront, List.flatMap_def]
    obtain ⟨-, hblock, hne, -⟩ := chunkOf_eq_some hchunk
    rw [hsections'] at hblock
    exact ⟨hcontent ▸ hne, blockContent_alone_iff.mp (hblock.symm.trans hcontent)⟩
  · rintro ⟨hne, halone⟩
    rw [hgroups] at hindexed
    obtain ⟨front, rest', hsplit, hfront, hrest⟩ := List.map_eq_append_iff.mp hindexed
    obtain ⟨⟨g, n⟩, back, rfl, hg, -⟩ := List.map_eq_cons_iff.mp hrest
    have hblock : blockContent g.sections = stripText table.text := by
      rw [show g.sections = _ from hg]
      exact blockContent_alone_iff.mpr halone
    obtain ⟨c, hc⟩ := chunkOf_isSome (by rw [hblock]; exact hne) py title n
    refine ⟨front, g, n, back, c, hsplit, ?_, ?_, hc, ?_⟩
    · rw [List.flatMap_def, hfront, hflatten]
    · rw [show g.sections = _ from hg]
      rfl
    · rw [(chunkOf_eq_some hc).2.1, hblock]

/-- **Every table of a document is a chunk of its own exactly when every one has text and
    nothing but blank text joins it.** -/
theorem table_isolated_iff (py : Runtime) (config : ChunkingConfig) (title : String)
    (document : ParsedDocument) :
    (∀ before table after, document.sections = before ++ table :: after →
      table.tableMarkdown ≠ none → Isolated py config title document before table) ↔
    ∀ before table after, document.sections = before ++ table :: after →
      table.tableMarkdown ≠ none →
        stripText table.text ≠ "" ∧ StaysAlone py config table after := by
  constructor
  · exact fun h before table after hsections htable =>
      (isolated_iff hsections htable).mp (h before table after hsections htable)
  · exact fun h before table after hsections htable =>
      (isolated_iff hsections htable).mpr (h before table after hsections htable)

/-- The chunk of a table is one of the document's. -/
theorem Isolated.mem_chunk (h : Isolated py config title document before table) :
    stripText table.text ∈ (chunk py config title document).map (·.content) := by
  obtain ⟨front, g, n, back, c, hsplit, -, -, hchunk, hcontent⟩ := h
  refine List.mem_map.mpr ⟨c, List.mem_filterMap.mpr ⟨(g, n), ?_, hchunk⟩, hcontent⟩
  rw [hsplit]
  simp

/-- A table of fees and a remark below it. -/
def feeTable : ParsedSection :=
  ⟨["Fees"], "| Plan | Fee |", none, none, "table", some "| Plan | Fee |"⟩

def feePage : ParsedDocument where
  sections := [feeTable, ⟨["Fees"], "Prices include tax.", none, none, "text", none⟩]
  pageCount := none
  metadata := []

/-- **A remark below a table joins it.** -/
theorem remark_joins_table :
    ¬ ∀ (py : Runtime) (config : ChunkingConfig) (title : String) (document : ParsedDocument),
      ∀ before table after, document.sections = before ++ table :: after →
        table.tableMarkdown ≠ none → Isolated py config title document before table := by
  intro hclaim
  let py : Runtime := ⟨Char.isAlphanum, fun _ => "", fun _ => 0⟩
  have hmem := (hclaim py {} "Fees" feePage [] feeTable _ rfl (by decide)).mem_chunk
  revert hmem
  decide +kernel

end Helpdesk.Knowledge
