/-
  File:      Helpdesk/Knowledge/CleanTexts.lean
  Subject:   What `_clean` and the paragraphs of a text keep (ingestion/parsers/documents.py).

  Blanks are collapsed and the ends are stripped; every other character stays, and so do the
  places where a text is split at one that is no blank.

  * `mem_clean`: characters that are no white space stay;
  * `splitOn_collapseBlanks`: splitting before or after the blanks are collapsed;
  * `splitLines_join`: the lines of texts that are joined by line breaks;
  * `markdownSections_texts`: the texts of the sections of a text without headings.
-/
import Helpdesk.Knowledge.Parsers
import Helpdesk.Lib.Separated
import Helpdesk.Python.Words

namespace Helpdesk.Knowledge

open Helpdesk.Python Helpdesk.Separated

variable {c : Char} {text front back : List Char}

/-! ## 1. Characters that stay -/

theorem dropPrefix?_eq_some : ∀ {ps cs rest : List Char}, dropPrefix? ps cs = some rest →
    cs = ps ++ rest
  | [], cs, rest, h => Option.some.inj h
  | p :: ps, [], rest, h => nomatch h
  | p :: ps, c :: cs, rest, h => by
    rw [dropPrefix?] at h
    split at h
    · next heq => rw [heq, dropPrefix?_eq_some h, List.cons_append]
    · cases h

theorem mem_replace {p : Char} {ps by_ : List Char} (hc : c ∉ p :: ps) (h : c ∈ text) :
    c ∈ replace (p :: ps) by_ text := by
  have hfuel : ∀ (n : Nat) (cs : List Char), cs.length ≤ n → c ∈ cs →
      c ∈ replaceFuel (p :: ps) by_ n cs := by
    intro n
    induction n with
    | zero =>
      intro cs hcs hmem
      rw [List.eq_nil_of_length_eq_zero (Nat.le_zero.mp hcs)] at hmem
      cases hmem
    | succ n ih =>
      intro cs hcs hmem
      cases cs with
      | nil => cases hmem
      | cons d cs =>
        rw [List.length_cons] at hcs
        rw [replaceFuel]
        split
        · next rest hrest =>
          have hsplit := dropPrefix?_eq_some hrest
          rw [hsplit] at hmem
          have hin := (List.mem_append.mp hmem).resolve_left hc
          have hlength := congrArg List.length hsplit
          rw [List.length_append, List.length_cons, List.length_cons] at hlength
          exact List.mem_append_right _ (ih rest (by omega) hin)
        · rcases List.mem_cons.mp hmem with rfl | hmem
          · exact List.mem_cons_self
          · exact List.mem_cons_of_mem d (ih cs (by omega) hmem)
  exact hfuel _ _ (Nat.le_refl _) h

/-- A blank of `_clean`. -/
def isBlank (c : Char) : Prop := c = ' ' ∨ c = '\t'

instance (c : Char) : Decidable (isBlank c) := inferInstanceAs (Decidable (c = ' ' ∨ c = '\t'))

theorem collapseBlanks_cons (hc : ¬ isBlank c) (inRun : Bool) :
    collapseBlanks inRun (c :: text) = c :: collapseBlanks false text := if_neg hc

/-- A character that is no blank ends a run. -/
theorem collapseBlanks_append_cons (hc : ¬ isBlank c) (inRun : Bool) :
    collapseBlanks inRun (front ++ c :: back) =
      collapseBlanks inRun front ++ c :: collapseBlanks false back := by
  induction front generalizing inRun with
  | nil => exact collapseBlanks_cons hc inRun
  | cons d front ih =>
    rw [List.cons_append, collapseBlanks, collapseBlanks]
    split
    · rw [ih, List.append_assoc]
    · rw [ih, List.cons_append]

theorem mem_collapseBlanks (hc : ¬ isBlank c) {inRun : Bool} :
    c ∈ collapseBlanks inRun text ↔ c ∈ text := by
  induction text generalizing inRun with
  | nil => exact Iff.rfl
  | cons d text ih =>
    rw [collapseBlanks]
    split
    · next hd =>
      have hne : c ≠ d := fun heq => hc (heq ▸ hd)
      have hspace : c ≠ ' ' := fun heq => hc (.inl heq)
      rw [List.mem_append, ih, List.mem_cons, or_iff_right hne]
      cases inRun <;> simp [hspace]
    · rw [List.mem_cons, List.mem_cons, ih]

theorem mem_strip (hc : isSpace c = false) (h : c ∈ text) : c ∈ strip text := by
  obtain ⟨lead, trail, htext, hlead, htrail⟩ := strip_parts text
  rw [htext] at h
  rcases List.mem_append.mp h with h | h
  · rcases List.mem_append.mp h with h | h
    · rw [hlead c h] at hc
      cases hc
    · exact h
  · rw [htrail c h] at hc
    cases hc

theorem not_isBlank (hc : isSpace c = false) : ¬ isBlank c := by
  intro hblank
  rcases hblank with rfl | rfl <;> cases hc

/-- **Characters that are no white space stay.** -/
theorem mem_clean {value : String} (hc : isSpace c = false) (h : c ∈ value.toList) :
    c ∈ (clean value).toList := by
  have hreturn : c ≠ '\r' := by
    intro heq
    rw [heq] at hc
    cases hc
  have hnewline : c ≠ '\n' := by
    intro heq
    rw [heq] at hc
    cases hc
  rw [clean, String.toList_ofList]
  refine mem_strip hc ((mem_collapseBlanks (not_isBlank hc)).mpr ?_)
  refine mem_replace (by simp [hreturn]) (mem_replace (by simp [hreturn, hnewline]) h)

/-- What has a character of its own is not cleaned away. -/
theorem clean_ne_empty {value : String} (hc : isSpace c = false) (h : c ∈ value.toList) :
    clean value ≠ "" := by
  intro hempty
  have hmem := mem_clean hc h
  rw [hempty] at hmem
  cases hmem

/-- Without a carriage return only the blanks and the ends count. -/
theorem clean_toList {value : String} (h : '\r' ∉ value.toList) :
    (clean value).toList = strip (collapseBlanks false value.toList) := by
  rw [clean, String.toList_ofList, replace_of_not_mem h, replace_of_not_mem h]

/-- What is cleaned has nothing to strip. -/
theorem strip_clean (value : String) : strip (clean value).toList = (clean value).toList := by
  rw [clean, String.toList_ofList, strip_strip]

/-! ## 2. Places where a text is split -/

/-- **Splitting at a character that is no blank**, before or after the blanks are collapsed. -/
theorem splitOn_collapseBlanks (hc : ¬ isBlank c) (text : List Char) :
    (collapseBlanks false text).splitOn c = (text.splitOn c).map (collapseBlanks false) := by
  by_cases hmem : c ∈ text
  · obtain ⟨front, back, rfl, hfront⟩ := List.eq_append_cons_of_mem hmem
    have hlt : back.length < (front ++ c :: back).length := by
      rw [List.length_append, List.length_cons]
      omega
    have hfront' : c ∉ collapseBlanks false front := fun h => hfront ((mem_collapseBlanks hc).mp h)
    rw [collapseBlanks_append_cons hc, List.splitOn_append_cons_self_of_not_mem hfront',
      List.splitOn_append_cons_self_of_not_mem hfront, List.map_cons,
      splitOn_collapseBlanks hc back]
  · have hmem' : c ∉ collapseBlanks false text := fun h => hmem ((mem_collapseBlanks hc).mp h)
    rw [List.splitOn_eq_singleton hmem, List.splitOn_eq_singleton hmem', List.map_singleton]
termination_by text.length

/-! ## 3. Lines -/

section Lines

variable {z : Char} {body : List Char}

theorem splitLines_ne_nil (h : text ≠ []) : splitLines text ≠ [] := by
  fun_cases splitLines text with
  | case1 => exact absurd rfl h
  | case2 => exact List.cons_ne_nil _ _
  | case3 => exact List.cons_ne_nil _ _
  | case4 => exact List.cons_ne_nil _ _
  | case5 => exact List.cons_ne_nil _ _

/-- No line has a line break. -/
theorem mem_splitLines {line : List Char} (h : line ∈ splitLines text) :
    ∀ c ∈ line, isLineBreak c = false := by
  fun_induction splitLines text generalizing line with
  | case1 => exact absurd h List.not_mem_nil
  | case2 cs ih =>
    rcases List.mem_cons.mp h with rfl | h
    · exact fun c hc => absurd hc List.not_mem_nil
    · exact ih h
  | case3 c cs _ _ ih =>
    rcases List.mem_cons.mp h with rfl | h
    · exact fun c hc => absurd hc List.not_mem_nil
    · exact ih h
  | case4 c cs _ hbreak first lines hlines ih =>
    rcases List.mem_cons.mp h with rfl | h
    · rw [hlines] at ih
      exact List.forall_mem_cons.mpr ⟨Bool.eq_false_iff.mpr hbreak, ih List.mem_cons_self⟩
    · rw [hlines] at ih
      exact ih (List.mem_cons_of_mem _ h)
  | case5 c cs _ hbreak hlines ih =>
    rw [List.mem_singleton.mp h]
    exact List.forall_mem_singleton.mpr (Bool.eq_false_iff.mpr hbreak)

/-- A text without line breaks is its line. -/
theorem splitLines_eq_singleton (hne : text ≠ []) (h : ∀ c ∈ text, isLineBreak c = false) :
    splitLines text = [text] := by
  fun_induction splitLines text with
  | case1 => exact absurd rfl hne
  | case2 cs => exact Bool.noConfusion (h '\r' List.mem_cons_self)
  | case3 c cs _ hbreak =>
    rw [h c List.mem_cons_self] at hbreak
    cases hbreak
  | case4 c cs _ _ first lines hlines ih =>
    have hcs : cs ≠ [] := by
      rintro rfl
      cases hlines
    rw [ih hcs fun d hd => h d (List.mem_cons_of_mem c hd)] at hlines
    obtain ⟨rfl, rfl⟩ := List.cons.inj hlines
    rfl
  | case5 c cs _ _ hlines =>
    by_cases hcs : cs = []
    · rw [hcs]
    · exact absurd hlines (splitLines_ne_nil hcs)

theorem splitLines_break (hc : isLineBreak c = true) (h : c = '\r' → text.head? ≠ some '\n') :
    splitLines (c :: text) = [] :: splitLines text := by
  rw [splitLines.eq_def]
  split
  · next hnil => cases hnil
  · next cs heq =>
    obtain ⟨rfl, rfl⟩ := List.cons.inj heq
    exact absurd rfl (h rfl)
  · next d ds _ heq =>
    obtain ⟨rfl, rfl⟩ := List.cons.inj heq
    rw [if_pos hc]

theorem splitLines_cons (hc : isLineBreak c = false) {line : List Char} {lines : List (List Char)}
    (h : splitLines text = line :: lines) : splitLines (c :: text) = (c :: line) :: lines := by
  rw [splitLines.eq_def]
  split
  · next hnil => cases hnil
  · next cs heq =>
    obtain ⟨rfl, rfl⟩ := List.cons.inj heq
    cases hc
  · next d ds _ heq =>
    obtain ⟨rfl, rfl⟩ := List.cons.inj heq
    rw [if_neg (Bool.eq_false_iff.mp hc), h]

/-- A line break inside a text makes two lines. -/
theorem two_le_splitLines (hz : isLineBreak z = false) (htext : text = body ++ [z])
    (h : ∃ c ∈ text, isLineBreak c = true) : 2 ≤ (splitLines text).length := by
  have hnext : ∀ {cs body : List Char}, cs = body ++ [z] → 2 ≤ ([] :: splitLines cs).length := by
    intro cs body hcs
    have hne : cs ≠ [] := by
      rw [hcs]
      exact List.append_ne_nil_of_right_ne_nil body (List.cons_ne_nil z [])
    have hpos := List.length_pos_of_ne_nil (splitLines_ne_nil hne)
    rw [List.length_cons]
    omega
  fun_induction splitLines text generalizing body with
  | case1 => exact absurd htext (by simp)
  | case2 cs =>
    rcases last_behind htext with ⟨hnil, _⟩ | ⟨body, hcs⟩
    · cases hnil
    · rcases last_behind hcs with ⟨_, rfl⟩ | ⟨body, hcs⟩
      · cases hz
      · exact hnext hcs
  | case3 c cs _ hbreak =>
    rcases last_behind htext with ⟨_, rfl⟩ | ⟨body, hcs⟩
    · rw [hbreak] at hz
      cases hz
    · exact hnext hcs
  | case4 c cs _ hbreak first lines hlines ih =>
    obtain ⟨d, hd, hin⟩ := h
    rcases List.mem_cons.mp hd with rfl | hd
    · exact absurd hin hbreak
    · rcases last_behind htext with ⟨rfl, _⟩ | ⟨body, hcs⟩
      · cases hd
      · have hmore := ih hcs ⟨d, hd, hin⟩
        rw [hlines] at hmore
        exact hmore
  | case5 c cs _ hbreak hlines =>
    obtain ⟨d, hd, hin⟩ := h
    rcases List.mem_cons.mp hd with rfl | hd
    · exact absurd hin hbreak
    · exact absurd hlines (splitLines_ne_nil (List.ne_nil_of_mem hd))

/-- The lines of a text and of what follows it behind a line break. -/
theorem splitLines_append (hz : isLineBreak z = false) (htext : text = body ++ [z]) :
    splitLines (text ++ '\n' :: back) = splitLines text ++ splitLines back := by
  fun_induction splitLines text generalizing body with
  | case1 => exact absurd htext (by simp)
  | case2 cs ih =>
    rcases last_behind htext with ⟨hnil, _⟩ | ⟨body, hcs⟩
    · cases hnil
    · rcases last_behind hcs with ⟨_, rfl⟩ | ⟨body, hcs⟩
      · cases hz
      · show splitLines ('\r' :: '\n' :: (cs ++ '\n' :: back)) = _
        rw [splitLines, ih hcs]
        rfl
  | case3 c cs hcrlf hbreak ih =>
    rcases last_behind htext with ⟨_, rfl⟩ | ⟨body, hcs⟩
    · rw [hbreak] at hz
      cases hz
    · have hhead : c = '\r' → (cs ++ '\n' :: back).head? ≠ some '\n' := by
        intro hc hhead
        cases cs with
        | nil => exact absurd hcs (by simp)
        | cons d ds =>
          obtain rfl := Option.some.inj hhead
          exact hcrlf ds hc rfl
      rw [List.cons_append, splitLines_break hbreak hhead, ih hcs]
      rfl
  | case4 c cs _ hbreak first lines hlines ih =>
    rcases last_behind htext with ⟨rfl, _⟩ | ⟨body, hcs⟩
    · cases hlines
    · have hmore := ih hcs
      rw [hlines, List.cons_append] at hmore
      rw [List.cons_append, splitLines_cons (Bool.eq_false_iff.mpr hbreak) hmore]
      rfl
  | case5 c cs _ hbreak hlines =>
    have hcs : cs = [] := by
      by_contra hne
      exact splitLines_ne_nil hne hlines
    rw [hcs]
    exact splitLines_cons (Bool.eq_false_iff.mpr hbreak) (splitLines_break rfl fun h => nomatch h)

/-- **The lines of texts that are joined by line breaks**, if none of them ends in one. -/
theorem splitLines_join : ∀ {texts : List (List Char)},
    (∀ text ∈ texts, ∃ body z, text = body ++ [z] ∧ isLineBreak z = false) →
    splitLines (['\n'].intercalate texts) = texts.flatMap splitLines
  | [], _ => rfl
  | [text], _ => by rw [List.intercalate_singleton, List.flatMap_singleton]
  | text :: next :: rest, h => by
    obtain ⟨body, z, htext, hz⟩ := h text List.mem_cons_self
    have hrest : splitLines (['\n'].intercalate (next :: rest)) = (next :: rest).flatMap splitLines :=
      splitLines_join fun t ht => h t (List.mem_cons_of_mem text ht)
    rw [List.intercalate_cons_cons, List.append_assoc, List.singleton_append,
      splitLines_append hz htext, hrest]
    rfl

theorem splitLines_front (hc : isLineBreak c = false) :
    ∃ line lines, splitLines (c :: text) = (c :: line) :: lines := by
  by_cases hnil : text = []
  · rw [hnil, splitLines_eq_singleton (List.cons_ne_nil c []) (List.forall_mem_singleton.mpr hc)]
    exact ⟨[], [], rfl⟩
  · obtain ⟨line, lines, hlines⟩ := List.exists_cons_of_ne_nil (splitLines_ne_nil hnil)
    exact ⟨line, lines, splitLines_cons hc hlines⟩

/-- The last character ends the last line. -/
theorem splitLines_back (hz : isLineBreak z = false) (htext : text = body ++ [z]) :
    ∃ lines line, splitLines text = lines ++ [line ++ [z]] := by
  fun_induction splitLines text generalizing body with
  | case1 => exact absurd htext (by simp)
  | case2 cs ih =>
    rcases last_behind htext with ⟨hnil, _⟩ | ⟨body, hcs⟩
    · cases hnil
    · rcases last_behind hcs with ⟨_, rfl⟩ | ⟨body, hcs⟩
      · cases hz
      · obtain ⟨lines, line, hlines⟩ := ih hcs
        exact ⟨[] :: lines, line, by rw [hlines, List.cons_append]⟩
  | case3 c cs _ hbreak ih =>
    rcases last_behind htext with ⟨_, rfl⟩ | ⟨body, hcs⟩
    · rw [hbreak] at hz
      cases hz
    · obtain ⟨lines, line, hlines⟩ := ih hcs
      exact ⟨[] :: lines, line, by rw [hlines, List.cons_append]⟩
  | case4 c cs _ hbreak first rest hrest ih =>
    rcases last_behind htext with ⟨rfl, _⟩ | ⟨body, hcs⟩
    · cases hrest
    · obtain ⟨lines, line, hlines⟩ := ih hcs
      rw [hrest] at hlines
      cases lines with
      | nil =>
        obtain ⟨rfl, rfl⟩ := List.cons.inj hlines
        exact ⟨[], c :: line, rfl⟩
      | cons next lines =>
        obtain ⟨rfl, rfl⟩ := List.cons.inj hlines
        exact ⟨(c :: first) :: lines, line, rfl⟩
  | case5 c cs _ hbreak hrest =>
    rcases last_behind htext with ⟨_, rfl⟩ | ⟨body, hcs⟩
    · exact ⟨[], [], rfl⟩
    · exact absurd hrest (splitLines_ne_nil (by rw [hcs]; simp))

end Lines

/-! ## 4. Paragraphs -/

section Paragraphs

variable {buffer lines body : List (List Char)} {line last : List Char}

/-- The text of some lines, unless it is empty. -/
def bufferTexts (buffer : List (List Char)) : List String :=
  if bufferText buffer = "" then [] else [bufferText buffer]

/-- What the lines of a text without headings make: a blank line ends what is gathered. -/
def lineTexts (buffer : List (List Char)) : List (List Char) → List String
  | [] => bufferTexts buffer
  | line :: lines =>
      if strip line = [] ∧ buffer ≠ [] then bufferTexts buffer ++ lineTexts [] lines
      else lineTexts (buffer ++ [line]) lines

theorem flush_texts (contentType : String) (s : MarkdownState) :
    (s.flush contentType).sections.map (·.text) = s.sections.map (·.text) ++ bufferTexts s.buffer := by
  rw [MarkdownState.flush, bufferTexts]
  by_cases hempty : bufferText s.buffer = ""
  · rw [if_pos hempty, List.append_nil, if_neg (fun hne => hne hempty)]
  · rw [if_neg hempty, if_pos hempty, List.map_append]
    rfl

/-- **The texts of the sections** of a text that cannot have headings. -/
theorem markdownSections_texts {contentType : String} (hplain : contentType ≠ "text/markdown") (value : String) :
    (markdownSections value contentType).map (·.text) = lineTexts [] (splitLines value.toList) := by
  have hloop : ∀ (lines : List (List Char)) (s : MarkdownState),
      ((lines.foldl (MarkdownState.read contentType) s).flush contentType).sections.map (·.text) =
        s.sections.map (·.text) ++ lineTexts s.buffer lines := by
    intro lines
    induction lines with
    | nil => exact flush_texts contentType
    | cons line lines ih =>
      intro s
      have hmatch : matchHeading contentType line = none := if_neg hplain
      rw [List.foldl_cons, ih, MarkdownState.read, hmatch, lineTexts]
      by_cases hblank : strip line = [] ∧ s.buffer ≠ []
      · simp only [if_pos hblank]
        rw [flush_texts, List.append_assoc]
        rfl
      · simp only [if_neg hblank]
  exact hloop _ {}

/-- A line that shows something. -/
def Shown (line : List Char) : Prop := ∃ c ∈ line, isSpace c = false

theorem strip_ne_nil (h : Shown line) : strip line ≠ [] := by
  obtain ⟨c, hc, hspace⟩ := h
  exact List.ne_nil_of_mem (mem_strip hspace hc)

theorem bufferText_eq (buffer : List (List Char)) :
    bufferText buffer = clean (String.ofList (['\n'].intercalate buffer)) := by
  have htext : "\n".intercalate (buffer.map String.ofList) = String.ofList (['\n'].intercalate buffer) := by
    rw [← String.toList_inj, String.toList_intercalate, String.toList_ofList, List.map_map]
    simp
  rw [bufferText, htext]

/-- Lines of which one shows something have a text. -/
theorem bufferTexts_of_shown (hmem : line ∈ buffer) (h : Shown line) :
    bufferTexts buffer = [bufferText buffer] := by
  obtain ⟨c, hc, hspace⟩ := h
  refine if_neg ?_
  rw [bufferText_eq]
  refine clean_ne_empty hspace ?_
  rw [String.toList_ofList]
  exact (infix_intercalate hmem).subset hc

/-- Lines that all show something are gathered. -/
theorem lineTexts_whole (h : ∀ line ∈ lines, strip line ≠ []) :
    lineTexts buffer lines = bufferTexts (buffer ++ lines) := by
  induction lines generalizing buffer with
  | nil => rw [lineTexts, List.append_nil]
  | cons line lines ih =>
    rw [lineTexts, if_neg fun hblank => h line List.mem_cons_self hblank.1,
      ih fun l hl => h l (List.mem_cons_of_mem line hl), List.append_assoc, List.singleton_append]

theorem lineTexts_ne_nil (hmem : line ∈ buffer ++ lines) (h : Shown line) :
    lineTexts buffer lines ≠ [] := by
  induction lines generalizing buffer with
  | nil =>
    rw [List.append_nil] at hmem
    rw [lineTexts, bufferTexts_of_shown hmem h]
    exact List.cons_ne_nil _ _
  | cons next lines ih =>
    rw [lineTexts]
    split
    · next hblank =>
      rcases List.mem_append.mp hmem with hin | hin
      · rw [bufferTexts_of_shown hin h]
        exact List.cons_ne_nil _ _
      · rcases List.mem_cons.mp hin with rfl | hin
        · exact absurd hblank.1 (strip_ne_nil h)
        · have hrest : lineTexts [] lines ≠ [] := ih (List.mem_append_right [] hin)
          exact List.append_ne_nil_of_right_ne_nil _ hrest
    · exact ih (by rw [List.append_assoc]; exact hmem)

/-- **A blank line between two that show something** parts them. -/
theorem two_le_lineTexts (hmem : line ∈ buffer) (h : Shown line) (hlines : lines = body ++ [last])
    (hlast : Shown last) (hblank : ∃ l ∈ lines, strip l = []) : 2 ≤ (lineTexts buffer lines).length := by
  induction lines generalizing buffer body with
  | nil => exact absurd hlines (by simp)
  | cons next lines ih =>
    obtain ⟨l, hl, hstrip⟩ := hblank
    rw [lineTexts]
    split
    · next hflush =>
      rcases last_behind hlines with ⟨_, rfl⟩ | ⟨body, hrest⟩
      · exact absurd hflush.1 (strip_ne_nil hlast)
      · have hin : last ∈ [] ++ lines := by
          rw [hrest]
          exact List.mem_append_right body List.mem_cons_self
        have hpos := List.length_pos_of_ne_nil (lineTexts_ne_nil hin hlast)
        rw [bufferTexts_of_shown hmem h, List.length_append, List.length_singleton]
        omega
    · next hkeep =>
      have hne : strip next ≠ [] := fun hnext => hkeep ⟨hnext, List.ne_nil_of_mem hmem⟩
      rcases List.mem_cons.mp hl with rfl | hl
      · exact absurd hstrip hne
      · rcases last_behind hlines with ⟨rfl, _⟩ | ⟨body, hrest⟩
        · cases hl
        · exact ih (List.mem_append_left _ hmem) hrest ⟨l, hl, hstrip⟩

end Paragraphs

end Helpdesk.Knowledge
