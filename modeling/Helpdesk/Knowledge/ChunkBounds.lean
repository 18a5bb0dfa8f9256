/-
  File:      Helpdesk/Knowledge/ChunkBounds.lean
  Subject:   How many tokens a chunk holds.

  A section over the bound is cut into paragraphs, or into runs of `maximum` words where
  it has one paragraph. Neither is cut further: a paragraph over the bound, or a run whose
  words hold more than one token each, becomes a chunk as it is.

  * `tokens_le_of_part`: a part of a text has no more tokens;
  * `splitOversized_fits`, `splitOversized_oversized`: the pieces of a section are within
    the bound where its cuts are, and a cut over the bound is a piece by itself;
  * **`chunk_tokens_bounded_iff`**: over all documents.
-/
import Helpdesk.Knowledge.ChunkWords

namespace Helpdesk.Knowledge

open Helpdesk.Python

variable {py : Runtime} {config : ChunkingConfig}

/-! ## 1. Tokens of a part of a text -/

/-- A word that goes on is one token less at most. -/
theorem tokenCount_inWord (py : Runtime) (text : List Char) :
    tokenCount py true text ≤ tokenCount py false text ∧
      tokenCount py false text ≤ tokenCount py true text + 1 := by
  cases text with
  | nil => exact ⟨le_refl _, Nat.zero_le _⟩
  | cons c text =>
      unfold tokenCount
      split
      · rw [if_pos rfl, if_neg Bool.false_ne_true]
        omega
      · exact ⟨le_refl _, Nat.le_succ _⟩

theorem tokenCount_append_left (py : Runtime) (b : Bool) (front back : List Char) :
    tokenCount py b front ≤ tokenCount py b (front ++ back) := by
  induction front generalizing b with
  | nil => exact Nat.zero_le _
  | cons c front ih =>
      rw [List.cons_append, tokenCount, tokenCount]
      split
      · exact Nat.add_le_add_left (ih true) _
      · exact Nat.add_le_add_left (ih false) _

theorem tokenCount_append_right (py : Runtime) (b : Bool) (front back : List Char) :
    tokenCount py false back ≤ tokenCount py b (front ++ back) + if b then 1 else 0 := by
  induction front generalizing b with
  | nil =>
      have hback := tokenCount_inWord py back
      cases b with
      | true => exact hback.2
      | false => exact le_refl _
  | cons c front ih =>
      have htrue := ih true
      have hfalse := ih false
      rw [List.cons_append, tokenCount]
      split <;> cases b <;> simp at htrue hfalse ⊢ <;> omega

/-- **A part of a text has no more tokens.** -/
theorem tokens_le_of_part {part text : String} (h : part.toList <:+: text.toList) :
    tokens py part ≤ tokens py text := by
  obtain ⟨front, back, hsplit⟩ := h
  have hright := tokenCount_append_right py false front (part.toList ++ back)
  have hleft := tokenCount_append_left py false part.toList back
  rw [← List.append_assoc, hsplit] at hright
  have hcount : tokenCount py false part.toList ≤ tokenCount py false text.toList := by
    simpa using hleft.trans hright
  unfold tokens
  omega

theorem infix_paragraphsJoined {text : String} {texts : List String} (h : text ∈ texts) :
    text.toList <:+: (paragraphsJoined texts).toList := by
  rw [paragraphsJoined, String.toList_intercalate]
  exact infix_intercalate (List.mem_map_of_mem h)

theorem stripText_part (text : String) : (stripText text).toList <:+: text.toList := by
  obtain ⟨lead, trail, htext, -, -⟩ := strip_parts text.toList
  rw [stripText, String.toList_ofList]
  exact ⟨lead, trail, htext.symm⟩

@[simp] theorem paragraphsJoined_singleton (text : String) : paragraphsJoined [text] = text :=
  String.intercalate_singleton

/-! ## 2. The cuts of a section -/

/-- The cuts of a section over the bound hold no more tokens than the bound. -/
def CutsFit (py : Runtime) (maximum : Nat) (section_ : ParsedSection) : Prop :=
  section_.tableMarkdown = none → maximum < tokens py section_.text →
    ∀ cut ∈ paragraphs section_ maximum, tokens py cut ≤ maximum

/-- What the loop over the paragraphs leaves in the end. -/
def flushed (section_ : ParsedSection) (state : List ParsedSection × List String) :
    List ParsedSection :=
  if state.2 ≠ [] then state.1 ++ [piece section_ (paragraphsJoined state.2)] else state.1

theorem splitOversized_eq {section_ : ParsedSection} {maximum : Nat}
    (htable : section_.tableMarkdown = none) (hover : maximum < tokens py section_.text) :
    splitOversized py section_ maximum = flushed section_
      ((paragraphs section_ maximum).foldl (bufferParagraph py section_ maximum) ([], [])) := by
  unfold splitOversized
  rw [if_neg (by rintro (hle | htab); exact absurd hle (not_le.mpr hover); exact htab htable)]
  rfl

/-- **Cuts within the bound make pieces within it.** -/
theorem flushed_fits {section_ : ParsedSection} {maximum : Nat} (texts : List String)
    (htexts : ∀ text ∈ texts, tokens py text ≤ maximum)
    (state : List ParsedSection × List String)
    (hstate : ∀ part ∈ flushed section_ state, tokens py part.text ≤ maximum) :
    ∀ part ∈ flushed section_ (texts.foldl (bufferParagraph py section_ maximum) state),
      tokens py part.text ≤ maximum := by
  induction texts generalizing state with
  | nil => exact hstate
  | cons text texts ih =>
      refine ih (fun t ht => htexts t (List.mem_cons_of_mem _ ht)) _ ?_
      obtain ⟨result, buffer⟩ := state
      unfold bufferParagraph
      dsimp only
      split
      · -- the buffer is flushed, the paragraph starts the next one
        next hflush =>
          intro part hpart
          rw [flushed, if_pos (List.cons_ne_nil _ _)] at hpart
          rcases List.mem_append.mp hpart with hmem | hmem
          · refine hstate part ?_
            rw [flushed, if_pos hflush.1]
            exact hmem
          · rw [List.mem_singleton.mp hmem]
            simpa [piece] using htexts text List.mem_cons_self
      · next hkeep =>
          intro part hpart
          rw [flushed, if_pos (by simp)] at hpart
          rcases List.mem_append.mp hpart with hmem | hmem
          · refine hstate part ?_
            unfold flushed
            split
            · exact List.mem_append_left _ hmem
            · exact hmem
          · rw [List.mem_singleton.mp hmem, piece]
            by_cases hbuffer : buffer = []
            · subst hbuffer
              simpa using htexts text List.mem_cons_self
            · exact not_lt.mp fun hlt => hkeep ⟨hbuffer, hlt⟩

/-- Pieces that were made stay. -/
theorem mem_flushed_of_mem {section_ : ParsedSection} {maximum : Nat} (texts : List String)
    {part : ParsedSection} (state : List ParsedSection × List String) (h : part ∈ state.1) :
    part ∈ flushed section_ (texts.foldl (bufferParagraph py section_ maximum) state) := by
  induction texts generalizing state with
  | nil =>
      unfold flushed
      split
      · exact List.mem_append_left _ h
      · exact h
  | cons text texts ih =>
      refine ih _ ?_
      unfold bufferParagraph
      dsimp only
      split
      · exact List.mem_append_left _ h
      · exact h

/-- **A cut over the bound is a piece by itself.** -/
theorem flushed_oversized {section_ : ParsedSection} {maximum : Nat} {cut : String}
    (hover : maximum < tokens py cut) (texts : List String)
    (state : List ParsedSection × List String) (h : state.2 = [cut] ∨ cut ∈ texts) :
    piece section_ cut ∈
      flushed section_ (texts.foldl (bufferParagraph py section_ maximum) state) := by
  induction texts generalizing state with
  | nil =>
      have hbuffer : state.2 = [cut] := h.resolve_right List.not_mem_nil
      rw [List.foldl_nil, flushed, hbuffer, if_pos (List.cons_ne_nil _ _),
        paragraphsJoined_singleton]
      exact List.mem_append_right _ (List.mem_singleton_self _)
  | cons text texts ih =>
      obtain ⟨result, buffer⟩ := state
      rw [List.foldl_cons]
      rcases h with hbuffer | hmem
      · -- nothing joins it
        obtain rfl : buffer = [cut] := hbuffer
        have hjoined : maximum < tokens py (paragraphsJoined ([cut] ++ [text])) :=
          hover.trans_le (tokens_le_of_part (infix_paragraphsJoined (by simp)))
        refine mem_flushed_of_mem texts _ ?_
        rw [bufferParagraph, if_pos ⟨List.cons_ne_nil _ _, hjoined⟩, paragraphsJoined_singleton]
        exact List.mem_append_right _ (List.mem_singleton_self _)
      · rcases List.mem_cons.mp hmem with rfl | hrest
        · -- it joins nothing
          refine ih _ (.inl ?_)
          rw [bufferParagraph]
          split
          · rfl
          · next hkeep =>
              have hempty : buffer = [] := by
                by_contra hbuffer
                refine hkeep ⟨hbuffer, hover.trans_le ?_⟩
                exact tokens_le_of_part (infix_paragraphsJoined (by simp))
              rw [hempty]
              rfl
        · exact ih _ (.inr hrest)

/-! ## 3. Cuts are stripped -/

/-- Words joined by spaces have no white space around. -/
theorem strip_joined {run : List (List Char)}
    (hrun : ∀ w ∈ run, w ≠ [] ∧ ∀ c ∈ w, isSpace c = false) :
    strip ([' '].intercalate run) = [' '].intercalate run := by
  cases run with
  | nil => rfl
  | cons first rest =>
      have hsolid : ∀ w ∈ first :: rest, ∀ c ∈ w, ¬ isSpace c = true := by
        intro w hw c hc
        rw [(hrun w hw).2 c hc]
        exact Bool.false_ne_true
      refine stripWhere_eq_self (fun c hc => ?_) fun c hc => ?_
      · rw [head?_intercalate [' '] (hrun first List.mem_cons_self).1] at hc
        exact hsolid first List.mem_cons_self c (List.mem_of_mem_head? hc)
      · obtain ⟨w, hw, hlast⟩ := getLast?_intercalate (fun w hw => (hrun w hw).1) c hc
        exact hsolid w hw c (List.mem_of_mem_getLast? hlast)

/-- **A cut is stripped already.** -/
theorem stripText_cut {section_ : ParsedSection} {maximum : Nat} {cut : String}
    (hcut : cut ∈ paragraphs section_ maximum) : stripText cut = cut := by
  unfold paragraphs at hcut
  dsimp only at hcut
  split at hcut
  · obtain ⟨run, hrun, rfl⟩ := List.mem_map.mp hcut
    have hwords : ∀ w ∈ run.map String.toList, w ≠ [] ∧ ∀ c ∈ w, isSpace c = false := by
      intro w hw
      obtain ⟨s, hs, rfl⟩ := List.mem_map.mp hw
      have hin : s ∈ ((words section_.text).toChunks maximum).flatten :=
        List.mem_flatten.mpr ⟨run, hrun, hs⟩
      rw [toChunks_flatten] at hin
      obtain ⟨w', hw', rfl⟩ := List.mem_map.mp hin
      rw [String.toList_ofList]
      exact mem_words hw'
    rw [stripText, String.toList_intercalate]
    show String.ofList (strip ([' '].intercalate (run.map String.toList))) = _
    rw [strip_joined hwords, ← String.toList_inj, String.toList_ofList, String.toList_intercalate]
    rfl
  · obtain ⟨part, -, rfl⟩ := List.mem_map.mp (List.mem_of_mem_filter hcut)
    rw [stripText, String.toList_ofList, strip_strip]

/-! ## 4. The chunks -/

/-- A group of pieces, none of them a table. -/
def Group.isText (g : Group) : Prop := ∀ part ∈ g.sections, part.tableMarkdown = none

theorem groups_isGrouping (py : Runtime) (config : ChunkingConfig) (document : ParsedDocument) :
    IsGrouping (fitsBlock py config) (pieces py config document)
      ((groupsOf py config document).map (·.sections)) := by
  rw [groups_sections]
  exact isGrouping_group _

/-- Where pieces are together, they hold what they may hold together. -/
theorem tokens_block {block : List ParsedSection} {part : ParsedSection}
    (h : fitsBlock py config block part = true) :
    tokens py (paragraphsJoined ((block ++ [part]).map (·.text))) ≤ config.targetTokens := by
  cases block with
  | nil => cases h
  | cons first rest =>
      simp only [fitsBlock, joins, Bool.and_eq_true, decide_eq_true_eq] at h
      rw [List.map_append, List.map_singleton]
      exact h.1.2

/-- **A piece over the bound is a group by itself.** -/
theorem group_of_oversized {document : ParsedDocument} {part : ParsedSection}
    (hmem : part ∈ pieces py config document) (hover : config.maximumTokens < tokens py part.text) :
    ∃ g ∈ groupsOf py config document, g.sections = [part] := by
  have hgrouping := groups_isGrouping py config document
  have htarget : config.targetTokens < tokens py part.text :=
    config.bounds.2.2.1.trans_lt hover
  rw [← hgrouping.flatten] at hmem
  obtain ⟨block, hblock, hin⟩ := List.mem_flatten.mp hmem
  obtain ⟨g, hg, rfl⟩ := List.mem_map.mp hblock
  refine ⟨g, hg, ?_⟩
  obtain ⟨front, back, hsplit⟩ := List.append_of_mem hin
  -- together with any other piece it would be over the target
  have halone : ∀ (before : List ParsedSection) (next : ParsedSection) (after : List ParsedSection),
      g.sections = before ++ next :: after → before ≠ [] →
        part ∉ before ++ [next] := by
    intro before next after hcut hbefore hpart
    have hfits := hgrouping.inside g.sections hblock before next after hcut hbefore
    have hle : tokens py part.text ≤ _ :=
      tokens_le_of_part (infix_paragraphsJoined (List.mem_map_of_mem (f := (·.text)) hpart))
    exact absurd (hle.trans (tokens_block hfits)) (not_le.mpr htarget)
  have hfront : front = [] := by
    by_contra hne
    exact halone front part back hsplit hne (by simp)
  subst hfront
  cases back with
  | nil => exact hsplit
  | cons next back =>
      exact absurd (by simp) (halone [part] next back hsplit (List.cons_ne_nil _ _))

theorem chunkOf_tokenCount {title : String} {g : Group} {n : Nat} {c : Chunk}
    (h : chunkOf py title g n = some c) : c.tokenCount = tokens py (blockContent g.sections) := by
  unfold chunkOf at h
  dsimp only at h
  split at h
  · cases h
  · cases h
    rfl

/-- The chunks of the groups without a table are within the bound. -/
def TokensBounded (py : Runtime) (config : ChunkingConfig) (title : String)
    (document : ParsedDocument) : Prop :=
  ∀ g n c, (g, n) ∈ (groupsOf py config document).zipIdx 1 → g.isText →
    chunkOf py title g n = some c → c.tokenCount ≤ config.maximumTokens

/-- A piece that is no table is within the bound where the cuts of its section are. -/
theorem pieces_fit {document : ParsedDocument}
    (hcuts : ∀ section_ ∈ document.sections, CutsFit py config.maximumTokens section_)
    {part : ParsedSection} (hmem : part ∈ pieces py config document)
    (htable : part.tableMarkdown = none) : tokens py part.text ≤ config.maximumTokens := by
  obtain ⟨section_, hsection, hpart⟩ := List.mem_flatMap.mp hmem
  by_cases hover : config.maximumTokens < tokens py section_.text
  · by_cases htab : section_.tableMarkdown = none
    · rw [splitOversized_eq htab hover] at hpart
      refine flushed_fits _ (hcuts section_ hsection htab hover) ([], []) ?_ part hpart
      simp [flushed]
    · rw [splitOversized, if_pos (.inr htab), List.mem_singleton] at hpart
      exact absurd (hpart ▸ htable) htab
  · rw [splitOversized, if_pos (.inl (not_lt.mp hover)), List.mem_singleton] at hpart
    rw [hpart]
    exact not_lt.mp hover

/-- **Chunks without a table are within `maximum_tokens` exactly when the cuts of the
    sections over it are.** -/
theorem chunk_tokens_bounded_iff (py : Runtime) (config : ChunkingConfig) (title : String)
    (document : ParsedDocument) :
    TokensBounded py config title document ↔
      ∀ section_ ∈ document.sections, CutsFit py config.maximumTokens section_ := by
  constructor
  · intro hbounded section_ hsection htable hover cut hcut
    by_contra hlong
    have hlong : config.maximumTokens < tokens py cut := not_le.mp hlong
    have hpiece : piece section_ cut ∈ pieces py config document := by
      refine List.mem_flatMap.mpr ⟨section_, hsection, ?_⟩
      rw [splitOversized_eq htable hover]
      exact flushed_oversized hlong _ _ (.inr hcut)
    obtain ⟨g, hg, hsections⟩ := group_of_oversized hpiece hlong
    obtain ⟨n, hn⟩ : ∃ n, (g, n) ∈ (groupsOf py config document).zipIdx 1 := by
      obtain ⟨k, hk, hget⟩ := List.getElem_of_mem hg
      exact ⟨1 + k, List.mk_add_mem_zipIdx_iff_getElem?.mpr
        (by rw [List.getElem?_eq_getElem hk, hget])⟩
    have hcontent : blockContent g.sections = cut := by
      rw [hsections, blockContent, List.map_singleton, paragraphsJoined_singleton]
      exact stripText_cut hcut
    have hne : blockContent g.sections ≠ "" := by
      rw [hcontent]
      rintro rfl
      have hbounds := config.bounds
      have hone : tokens py "" = 1 := rfl
      omega
    obtain ⟨c, hc⟩ := chunkOf_isSome hne py title n
    have htext : g.isText := by
      intro part hpart
      rw [hsections, List.mem_singleton] at hpart
      rw [hpart]
      rfl
    have hle := hbounded g n c hn htext hc
    rw [chunkOf_tokenCount hc, hcontent] at hle
    exact absurd hle (not_le.mpr hlong)
  · intro hcuts g n c hn htext hc
    have hg : g ∈ groupsOf py config document := List.fst_mem_of_mem_zipIdx hn
    have hgrouping := groups_isGrouping py config document
    have hblock : g.sections ∈ (groupsOf py config document).map (·.sections) :=
      List.mem_map_of_mem hg
    rw [chunkOf_tokenCount hc, blockContent]
    refine (tokens_le_of_part (stripText_part _)).trans ?_
    rcases List.eq_nil_or_concat' g.sections with hnil | ⟨front, last, hsplit⟩
    · exact absurd hnil g.nonempty
    · by_cases hfront : front = []
      · -- one piece
        have hlast : last ∈ pieces py config document := by
          rw [← hgrouping.flatten]
          exact List.mem_flatten.mpr ⟨g.sections, hblock, by simp [hsplit]⟩
        rw [hsplit, hfront, List.nil_append, List.map_singleton, paragraphsJoined_singleton]
        exact pieces_fit hcuts hlast (htext last (by simp [hsplit]))
      · have hfits := hgrouping.inside g.sections hblock front last [] hsplit hfront
        rw [hsplit]
        exact (tokens_block hfits).trans config.bounds.2.2.1

/-- In a document without tables every chunk is within the bound. -/
theorem TokensBounded.chunks {title : String} {document : ParsedDocument}
    (h : TokensBounded py config title document)
    (htext : ∀ part ∈ pieces py config document, part.tableMarkdown = none) :
    ∀ c ∈ chunk py config title document, c.tokenCount ≤ config.maximumTokens := by
  intro c hc
  obtain ⟨⟨g, n⟩, hmem, hchunk⟩ := List.mem_filterMap.mp hc
  have hg : g.sections ∈ (groupsOf py config document).map (·.sections) :=
    List.mem_map_of_mem (List.fst_mem_of_mem_zipIdx hmem)
  refine h g n c hmem (fun part hpart => htext part ?_) hchunk
  rw [← (groups_isGrouping py config document).flatten]
  exact List.mem_flatten.mpr ⟨g.sections, hg, hpart⟩

/-- A paragraph of 26 version numbers. -/
def versionList : ParsedDocument where
  sections := [⟨[], " ".intercalate (List.replicate 26 "1.2"), none, none, "text/plain", none⟩]
  pageCount := none
  metadata := []

/-- **Words of several tokens break the bound**: 26 words, 78 tokens, one chunk. -/
theorem chunk_of_dense_words :
    ¬ ∀ (py : Runtime) (config : ChunkingConfig) (title : String) (document : ParsedDocument),
      TokensBounded py config title document := by
  intro hclaim
  let py : Runtime := ⟨Char.isAlphanum, fun _ => "", fun _ => 0⟩
  let config : ChunkingConfig := ⟨50, 50, 50, 0, by decide, by decide⟩
  have hbounded := (hclaim py config "Releases" versionList).chunks (by decide +kernel)
  have hcounts : (chunk py config "Releases" versionList).map (·.tokenCount) = [78] := by
    decide +kernel
  obtain ⟨c, hc⟩ : ∃ c, chunk py config "Releases" versionList = [c] :=
    List.length_eq_one_iff.mp (by simpa using congrArg List.length hcounts)
  have hle := hbounded c (by rw [hc]; exact List.mem_singleton_self c)
  rw [hc, List.map_singleton, List.singleton_inj] at hcounts
  rw [hcounts] at hle
  exact absurd hle (by decide)

end Helpdesk.Knowledge
