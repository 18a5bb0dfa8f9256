/-
  File:      Helpdesk/Knowledge/ChunkWords.lean
  Subject:   The words of a document and of its chunks.

  A section is cut into pieces, the pieces are put together into groups, a group is
  stripped and becomes a chunk: every one of these steps cuts or joins at white space.

  * `splitOversized_words`: the pieces of a section have its words and its heading path;
  * `blockContent_words`: so has the text of a group;
  * **`chunk_keeps_words`**: the words of the chunks, each with its heading path, are
    those of the sections.
-/
import Helpdesk.Knowledge.Chunking
import Helpdesk.Python.Words

namespace Helpdesk.Knowledge

open Helpdesk.Python

variable {py : Runtime} {config : ChunkingConfig}

/-! ## 1. Words of joined and stripped texts -/

theorem words_eq (text : String) : words text = (Python.words text.toList).map String.ofList := rfl

theorem blank_paragraph : Blank "\n\n".toList := by
  simp only [Blank, ← List.all_eq_true]
  decide

theorem words_paragraphsJoined (texts : List String) :
    words (paragraphsJoined texts) = texts.flatMap words := by
  rw [words_eq, paragraphsJoined, String.toList_intercalate,
    words_intercalate_texts blank_paragraph (List.cons_ne_nil _ _), List.flatMap_map, List.map_flatMap]
  rfl

theorem words_stripText (text : String) : words (stripText text) = words text := by
  rw [words_eq, stripText, String.toList_ofList, words_strip, ← words_eq]

theorem words_eq_nil {text : String} (h : stripText text = "") : words text = [] := by
  rw [← words_stripText, h]
  rfl

/-- The words of the text of a group. -/
theorem blockContent_words (block : List ParsedSection) :
    words (blockContent block) = block.flatMap fun part => words part.text := by
  rw [blockContent, words_stripText, words_paragraphsJoined, List.flatMap_map]

/-! ## 2. The paragraphs of a section -/

/-- What follows the blank lines at the head of a text. -/
theorem afterBlankLines_parts {text rest : List Char} (h : afterBlankLines? text = some rest) :
    ∃ sep, text = sep ++ rest ∧ Blank sep ∧ sep ≠ [] := by
  unfold afterBlankLines? at h
  split at h
  · next cs =>
      dsimp only at h
      split at h
      · next hmem =>
          obtain rfl := Option.some.inj h
          -- the white space up to its last line break, and what is left of it
          have hrun : cs.takeWhile isSpace ++ cs.dropWhile isSpace = cs :=
            List.takeWhile_append_dropWhile
          have hback : ((cs.takeWhile isSpace).reverse.dropWhile (· ≠ '\n')).reverse ++
              ((cs.takeWhile isSpace).reverse.takeWhile (· ≠ '\n')).reverse =
              cs.takeWhile isSpace := by
            rw [← List.reverse_append, List.takeWhile_append_dropWhile, List.reverse_reverse]
          refine ⟨'\n' :: ((cs.takeWhile isSpace).reverse.dropWhile (· ≠ '\n')).reverse, ?_, ?_,
            List.cons_ne_nil _ _⟩
          · rw [List.cons_append, ← List.append_assoc, hback, hrun]
          · intro c hc
            rcases List.mem_cons.mp hc with rfl | hc
            · decide
            · have hmem' : c ∈ cs.takeWhile isSpace :=
                List.mem_reverse.mp ((List.dropWhile_subset _) (List.mem_reverse.mp hc))
              exact List.mem_takeWhile_imp hmem'
      · cases h
  · cases h

/-- **`re.split` cuts at white space.** -/
theorem splitParagraphs_parted (n : Nat) (text : List Char) :
    Parted text (splitParagraphs n text) := by
  induction n generalizing text with
  | zero => exact .last text
  | succ n ih =>
      cases text with
      | nil => exact .last []
      | cons c cs =>
          rw [splitParagraphs]
          split
          · next rest hrest =>
              obtain ⟨sep, hsplit, hsep, hne⟩ := afterBlankLines_parts hrest
              have hcut : Parted ([] ++ sep ++ rest) ([] :: splitParagraphs n rest) :=
                .cut hsep hne (ih rest)
              rw [List.nil_append, ← hsplit] at hcut
              exact hcut
          · have hcs := ih cs
            split
            · next part parts heq =>
                rw [heq] at hcs
                exact hcs.cons
            · next heq =>
                rw [heq] at hcs
                cases hcs

theorem splitParagraphs_words (n : Nat) (text : List Char) :
    (splitParagraphs n text).flatMap Python.words = Python.words text :=
  (splitParagraphs_parted n text).words

/-- A run of words joined by spaces has these words. -/
theorem words_joined (text : String) {run : List String} (hrun : ∀ w ∈ run, w ∈ words text) :
    words (" ".intercalate run) = run := by
  have hwords : ∀ w ∈ run.map String.toList, w ≠ [] ∧ ∀ c ∈ w, isSpace c = false := by
    intro w hw
    obtain ⟨s, hs, rfl⟩ := List.mem_map.mp hw
    obtain ⟨w', hw', rfl⟩ := List.mem_map.mp (hrun s hs)
    rw [String.toList_ofList]
    exact mem_words hw'
  rw [words_eq, String.toList_intercalate]
  show (Python.words ([' '].intercalate (run.map String.toList))).map String.ofList = run
  rw [words_intercalate hwords, List.map_map]
  simp

/-- What has no words may be left out. -/
theorem flatMap_filter_words (texts : List String) :
    (texts.filter (· ≠ "")).flatMap words = texts.flatMap words := by
  induction texts with
  | nil => rfl
  | cons text texts ih =>
      by_cases htext : text = ""
      · rw [List.filter_cons_of_neg (by simpa using htext), ih, List.flatMap_cons, htext]
        rfl
      · rw [List.filter_cons_of_pos (by simpa using htext), List.flatMap_cons, List.flatMap_cons, ih]

/-- **The paragraphs of a section have its words.** -/
theorem paragraphs_words (section_ : ParsedSection) (maximum : Nat) :
    (paragraphs section_ maximum).flatMap words = words section_.text := by
  unfold paragraphs
  dsimp only
  split
  · -- runs of words
    have hrun : ∀ run ∈ (words section_.text).toChunks maximum, words (" ".intercalate run) = run := by
      intro run hmem
      refine words_joined section_.text fun w hw => ?_
      have hin : w ∈ ((words section_.text).toChunks maximum).flatten :=
        List.mem_flatten.mpr ⟨run, hmem, hw⟩
      rwa [toChunks_flatten] at hin
    rw [List.flatMap_map, List.flatMap_congr hrun, List.flatMap_id', toChunks_flatten]
  · have hpart : ∀ part, words (String.ofList (strip part)) =
        (Python.words part).map String.ofList := by
      intro part
      rw [words_eq, String.toList_ofList, words_strip]
    rw [flatMap_filter_words, List.flatMap_map, words_eq, ← splitParagraphs_words,
      List.map_flatMap]
    exact List.flatMap_congr fun part _ => hpart part

/-! ## 3. Pieces and groups -/

/-- A round of the loop over the paragraphs keeps their words. -/
theorem bufferParagraph_words (section_ : ParsedSection) (maximum : Nat)
    (state : List ParsedSection × List String) (paragraph : String) :
    (bufferParagraph py section_ maximum state paragraph).1.flatMap (fun part => words part.text) ++
        (bufferParagraph py section_ maximum state paragraph).2.flatMap words =
      state.1.flatMap (fun part => words part.text) ++ state.2.flatMap words ++
        words paragraph := by
  unfold bufferParagraph
  dsimp only
  split
  · rw [List.flatMap_append, List.flatMap_singleton, List.flatMap_singleton, piece,
      words_paragraphsJoined]
  · rw [List.flatMap_append, List.flatMap_singleton, List.append_assoc]

theorem foldl_bufferParagraph_words (py : Runtime) (section_ : ParsedSection) (maximum : Nat)
    (texts : List String) (state : List ParsedSection × List String) :
    (texts.foldl (bufferParagraph py section_ maximum) state).1.flatMap
          (fun part => words part.text) ++
        (texts.foldl (bufferParagraph py section_ maximum) state).2.flatMap words =
      state.1.flatMap (fun part => words part.text) ++ state.2.flatMap words ++
        texts.flatMap words := by
  induction texts generalizing state with
  | nil => simp
  | cons text texts ih =>
      rw [List.foldl_cons, ih, bufferParagraph_words, List.flatMap_cons, List.append_assoc]

/-- **The pieces of a section have its words.** -/
theorem splitOversized_words (section_ : ParsedSection) (maximum : Nat) :
    (splitOversized py section_ maximum).flatMap (fun part => words part.text) =
      words section_.text := by
  unfold splitOversized
  split
  · rw [List.flatMap_singleton]
  · have hfold :=
      foldl_bufferParagraph_words py section_ maximum (paragraphs section_ maximum) ([], [])
    rw [paragraphs_words] at hfold
    dsimp only
    split
    · rw [List.flatMap_append, List.flatMap_singleton, piece, words_paragraphsJoined, hfold]
      rfl
    · next hempty =>
        rw [not_not.mp hempty, List.flatMap_nil, List.append_nil] at hfold
        rw [hfold]
        rfl

/-- The pieces of a section are under its heading. -/
theorem foldl_bufferParagraph_heading (py : Runtime) (section_ : ParsedSection) (maximum : Nat)
    (texts : List String) (state : List ParsedSection × List String)
    (hstate : ∀ part ∈ state.1, part.headingPath = section_.headingPath) :
    ∀ part ∈ (texts.foldl (bufferParagraph py section_ maximum) state).1,
      part.headingPath = section_.headingPath := by
  induction texts generalizing state with
  | nil => exact hstate
  | cons text texts ih =>
      refine ih _ fun part hpart => ?_
      unfold bufferParagraph at hpart
      dsimp only at hpart
      split at hpart
      · rcases List.mem_append.mp hpart with hmem | hmem
        · exact hstate part hmem
        · rw [List.mem_singleton.mp hmem]
          rfl
      · exact hstate part hpart

theorem splitOversized_heading (section_ : ParsedSection) (maximum : Nat) :
    ∀ part ∈ splitOversized py section_ maximum, part.headingPath = section_.headingPath := by
  unfold splitOversized
  split
  · simp
  · dsimp only
    have hfold := foldl_bufferParagraph_heading py section_ maximum (paragraphs section_ maximum)
      ([], []) (by simp)
    split
    · intro part hpart
      rcases List.mem_append.mp hpart with hmem | hmem
      · exact hfold part hmem
      · rw [List.mem_singleton.mp hmem]
        rfl
    · exact hfold

/-- The words of a section, each with the heading path it stands under. -/
def wordsUnder (headingPath : List String) (text : String) : List (List String × String) :=
  (words text).map fun word => (headingPath, word)

theorem wordsUnder_flatMap (headingPath : List String) (parts : List ParsedSection)
    (hparts : ∀ part ∈ parts, part.headingPath = headingPath) :
    parts.flatMap (fun part => wordsUnder part.headingPath part.text) =
      (parts.flatMap fun part => words part.text).map fun word => (headingPath, word) := by
  rw [List.map_flatMap]
  exact List.flatMap_congr fun part hpart => by rw [hparts part hpart, wordsUnder]

theorem pieces_words (py : Runtime) (config : ChunkingConfig) (document : ParsedDocument) :
    (pieces py config document).flatMap (fun part => wordsUnder part.headingPath part.text) =
      document.sections.flatMap fun section_ =>
        wordsUnder section_.headingPath section_.text := by
  rw [pieces, List.flatMap_assoc]
  refine List.flatMap_congr fun section_ _ => ?_
  rw [wordsUnder_flatMap section_.headingPath _ (splitOversized_heading section_ _),
    splitOversized_words, wordsUnder]

/-- **A group holds pieces under one heading.** -/
theorem group_heading {document : ParsedDocument} {g : Group} (hg : g ∈ groupsOf py config document) :
    ∀ part ∈ g.sections, part.headingPath = g.heading := by
  have hgrouping : IsGrouping (fitsBlock py config) (pieces py config document)
      ((groupsOf py config document).map (·.sections)) := by
    rw [groups_sections]
    exact isGrouping_group _
  have hinside := hgrouping.inside g.sections (List.mem_map_of_mem hg)
  intro part hpart
  obtain ⟨front, back, hsplit⟩ := List.append_of_mem hpart
  have hhead := g.heading_first
  cases front with
  | nil =>
      rw [← hhead]
      exact congrArg _ (by simp [hsplit])
  | cons first front =>
      -- a piece that joined the group
      have hfits := hinside (first :: front) part back hsplit (List.cons_ne_nil _ _)
      have hfirst : first.headingPath = g.heading := by
        rw [← hhead]
        exact congrArg _ (by simp [hsplit])
      simp only [fitsBlock, joins, Bool.and_eq_true, decide_eq_true_eq] at hfits
      rw [← hfits.1.1, hfirst]

/-! ## 4. The chunks of a document -/

/-- A chunk has the words of its group, a group without a chunk has none. -/
theorem chunkOf_words {title : String} {g : Group} {n : Nat}
    (hg : ∀ part ∈ g.sections, part.headingPath = g.heading) :
    ((chunkOf py title g n).toList.flatMap fun c => wordsUnder c.headingPath c.content) =
      g.sections.flatMap fun part => wordsUnder part.headingPath part.text := by
  rw [wordsUnder_flatMap g.heading _ hg, ← blockContent_words]
  unfold chunkOf
  dsimp only
  split
  · next hblank =>
      rw [hblank]
      rfl
  · rw [Option.toList_some, List.flatMap_singleton, wordsUnder]

theorem chunkOf_heading {title : String} {g : Group} {n : Nat} {c : Chunk}
    (h : chunkOf py title g n = some c) : c.headingPath = g.heading := by
  unfold chunkOf at h
  dsimp only at h
  split at h
  · cases h
  · cases h
    rfl

/-- **Chunking loses and duplicates nothing.** The words of the chunks in their order, each
    with its heading path, are those of the sections; a group, and so a chunk, holds pieces
    under one heading; and the chunks are numbered upwards. -/
theorem chunk_keeps_words (py : Runtime) (config : ChunkingConfig) (title : String)
    (document : ParsedDocument) :
    ((chunk py config title document).flatMap fun c => words c.content) =
        (document.sections.flatMap fun section_ => words section_.text) ∧
      ((chunk py config title document).flatMap fun c => wordsUnder c.headingPath c.content) =
        (document.sections.flatMap fun section_ =>
          wordsUnder section_.headingPath section_.text) ∧
      (∀ c ∈ chunk py config title document, ∃ g ∈ groupsOf py config document,
        c.content = blockContent g.sections ∧
          ∀ part ∈ g.sections, part.headingPath = c.headingPath) ∧
      (chunk py config title document).Pairwise fun a b => a.sequence < b.sequence := by
  have htagged : ((chunk py config title document).flatMap fun c =>
      wordsUnder c.headingPath c.content) =
        document.sections.flatMap fun section_ =>
          wordsUnder section_.headingPath section_.text := by
    have hgroups : ∀ entry ∈ (groupsOf py config document).zipIdx 1,
        ((chunkOf py title entry.1 entry.2).toList.flatMap fun c =>
          wordsUnder c.headingPath c.content) =
          entry.1.sections.flatMap fun part => wordsUnder part.headingPath part.text :=
      fun entry hentry => chunkOf_words (group_heading (List.fst_mem_of_mem_zipIdx hentry))
    have hflatten : ((groupsOf py config document).map (·.sections)).flatten =
        pieces py config document := by
      rw [groups_sections]
      exact (isGrouping_group _).flatten
    rw [chunk, List.filterMap_eq_flatMap_toList, List.flatMap_assoc, List.flatMap_congr hgroups,
      ← pieces_words py config, ← hflatten, List.flatten_eq_flatMap, List.flatMap_assoc,
      List.flatMap_map, ← List.zipIdx_map_fst 1 (groupsOf py config document), List.flatMap_map]
    simp
  refine ⟨?_, htagged, ?_, chunk_sequence_lt title document⟩
  · have huntag := congrArg (List.map Prod.snd) htagged
    simpa [List.map_flatMap, wordsUnder, Function.comp_def] using huntag
  · intro c hc
    obtain ⟨⟨g, n⟩, hmem, hchunk⟩ := List.mem_filterMap.mp hc
    have hg : g ∈ groupsOf py config document := List.fst_mem_of_mem_zipIdx hmem
    refine ⟨g, hg, (chunkOf_eq_some hchunk).2.1, fun part hpart => ?_⟩
    rw [chunkOf_heading hchunk]
    exact group_heading hg part hpart

end Helpdesk.Knowledge
