/-
  File:      Helpdesk/Python/Words.lean
  Subject:   The words of a text that is put together or taken apart.

  `text.split()` does not see which white space stands between two words, so what
  strips, joins and splits at white space keeps the words in their order.

  * `words_strip`, `words_intercalate_texts`: stripping, and joining at white space;
  * `infix_intercalate`, `head?_intercalate`, `getLast?_intercalate`: where joined texts stand;
  * `Parted`, `Parted.words`: a text cut at runs of white space;
  * `strip_parts`, `strip_append_blank`: what stripping takes away;
  * `collapse_eq_self`: texts whose words are a space apart.
-/
import Helpdesk.Python.Text

namespace Helpdesk.Python

/-- Nothing but white space. -/
def Blank (text : List Char) : Prop := ∀ c ∈ text, isSpace c = true

/-- The code points of white space. -/
theorem toNat_mem_of_isSpace {c : Char} (h : isSpace c = true) :
    c.toNat ∈ List.range' 0x9 5 ++ List.range' 0x1c 5 ++ List.range' 0x2000 11 ++
      [0x85, 0xa0, 0x1680, 0x2028, 0x2029, 0x202f, 0x205f, 0x3000] := by
  simp only [isSpace, Bool.or_eq_true, Bool.and_eq_true, decide_eq_true_eq,
    List.contains_iff_mem] at h
  simp only [List.mem_append, List.mem_range'_1]
  rcases h with ((h | h) | h) | h
  · exact .inl (.inl (.inl (by omega)))
  · exact .inl (.inl (.inr (by omega)))
  · exact .inl (.inr (by omega))
  · exact .inr h

/-- White space is no digit. -/
theorem decimalDigit?_of_isSpace {c : Char} (h : isSpace c = true) : decimalDigit? c = none := by
  have hnone : ∀ n ∈ List.range' 0x9 5 ++ List.range' 0x1c 5 ++ List.range' 0x2000 11 ++
      [0x85, 0xa0, 0x1680, 0x2028, 0x2029, 0x202f, 0x205f, 0x3000],
      (digitZeros.find? fun z => z ≤ n && n ≤ z + 9) = none := by
    decide
  rw [decimalDigit?, hnone _ (toNat_mem_of_isSpace h)]
  rfl

variable {text front back sep : List Char}

theorem blank_append : Blank (front ++ back) ↔ Blank front ∧ Blank back := by
  simp only [Blank, List.mem_append, or_imp, forall_and]

theorem words_of_blank (h : Blank text) : words text = [] := words_eq_nil_iff.mpr h

theorem words_nil : words [] = [] := rfl

/-! ## 1. Texts put together -/

/-- White space separates. -/
theorem words_append_cons {c : Char} (hc : isSpace c = true) :
    words (front ++ c :: back) = words front ++ words back := by
  rw [words, List.splitOnP_append_cons _ _ hc, List.filter_append, words, words]

theorem words_append_sep (hsep : Blank sep) (hne : sep ≠ []) :
    words (front ++ sep ++ back) = words front ++ words back := by
  induction sep generalizing front with
  | nil => exact absurd rfl hne
  | cons c sep ih =>
      have hc : isSpace c = true := hsep c List.mem_cons_self
      have hrest : Blank sep := fun d hd => hsep d (List.mem_cons_of_mem c hd)
      rw [List.append_assoc, List.cons_append, words_append_cons hc]
      by_cases hnil : sep = []
      · rw [hnil, List.nil_append]
      · have hmore : words ([] ++ sep ++ back) = words [] ++ words back := ih hrest hnil
        rw [List.nil_append, words_nil, List.nil_append] at hmore
        rw [hmore]

theorem words_append_blank (h : Blank back) : words (front ++ back) = words front := by
  by_cases hnil : back = []
  · rw [hnil, List.append_nil]
  · have hsplit : words (front ++ back ++ []) = words front ++ words [] := words_append_sep h hnil
    rw [List.append_nil, words_nil, List.append_nil] at hsplit
    exact hsplit

theorem words_blank_append (h : Blank front) : words (front ++ back) = words back := by
  by_cases hnil : front = []
  · rw [hnil, List.nil_append]
  · have hsplit : words ([] ++ front ++ back) = words [] ++ words back := words_append_sep h hnil
    rw [List.nil_append, words_nil, List.nil_append] at hsplit
    exact hsplit

/-- **Joining at white space keeps the words.** -/
theorem words_intercalate_texts (hsep : Blank sep) (hne : sep ≠ []) :
    ∀ texts : List (List Char), words (sep.intercalate texts) = texts.flatMap words
  | [] => words_of_blank (by simp [Blank])
  | [text] => by
      rw [List.intercalate_singleton, List.flatMap_cons, List.flatMap_nil, List.append_nil]
  | text :: next :: rest => by
      rw [List.intercalate_cons_cons, words_append_sep hsep hne,
        words_intercalate_texts hsep hne (next :: rest), ← List.flatMap_cons]

theorem blank_intercalate (hsep : Blank sep) :
    ∀ {texts : List (List Char)}, (∀ text ∈ texts, Blank text) → Blank (sep.intercalate texts)
  | [], _ => by simp [Blank]
  | [text], h => by
      rw [List.intercalate_singleton]
      exact h text (List.mem_singleton_self text)
  | text :: next :: rest, h => by
      rw [List.intercalate_cons_cons, blank_append, blank_append]
      exact ⟨⟨h text List.mem_cons_self, hsep⟩,
        blank_intercalate hsep fun t ht => h t (List.mem_cons_of_mem _ ht)⟩

/-- A text joined with blank ones. -/
theorem intercalate_blank (hsep : Blank sep) {texts : List (List Char)}
    (htexts : ∀ t ∈ texts, Blank t) :
    ∃ tail, sep.intercalate (text :: texts) = text ++ tail ∧ Blank tail := by
  cases texts with
  | nil => exact ⟨[], by rw [List.intercalate_singleton, List.append_nil], by simp [Blank]⟩
  | cons next rest =>
      refine ⟨sep ++ sep.intercalate (next :: rest), ?_,
        blank_append.mpr ⟨hsep, blank_intercalate hsep htexts⟩⟩
      rw [List.intercalate_cons_cons, List.append_assoc]

/-- What is joined stands in the whole. -/
theorem infix_intercalate :
    ∀ {texts : List (List Char)}, text ∈ texts → text <:+: sep.intercalate texts
  | [last], h => by
      obtain rfl := List.mem_singleton.mp h
      exact ⟨[], [], by rw [List.intercalate_singleton, List.nil_append, List.append_nil]⟩
  | first :: next :: rest, h => by
      rw [List.intercalate_cons_cons]
      rcases List.mem_cons.mp h with rfl | hmem
      · exact ⟨[], sep ++ sep.intercalate (next :: rest), by simp⟩
      · exact (infix_intercalate hmem).trans (List.suffix_append _ _).isInfix

/-- The ends of texts that are joined. -/
theorem head?_intercalate (sep : List Char) {first : List Char} (hfirst : first ≠ [])
    (rest : List (List Char)) :
    (sep.intercalate (first :: rest)).head? = first.head? := by
  obtain ⟨c, cs, rfl⟩ := List.exists_cons_of_ne_nil hfirst
  cases rest with
  | nil => rw [List.intercalate_singleton]
  | cons next rest => rw [List.intercalate_cons_cons]; rfl

theorem getLast?_intercalate :
    ∀ {texts : List (List Char)}, (∀ text ∈ texts, text ≠ []) →
      ∀ c ∈ (sep.intercalate texts).getLast?, ∃ text ∈ texts, c ∈ text.getLast?
  | [], _, c, hc => by cases hc
  | [text], _, c, hc => by
      rw [List.intercalate_singleton] at hc
      exact ⟨text, List.mem_singleton_self text, hc⟩
  | first :: next :: rest, h, c, hc => by
      have hne : sep.intercalate (next :: rest) ≠ [] := by
        intro hnil
        have hhead := head?_intercalate sep (h next (by simp)) rest
        rw [hnil] at hhead
        exact h next (by simp) (List.head?_eq_none_iff.mp hhead.symm)
      rw [List.intercalate_cons_cons, List.getLast?_append_of_ne_nil _ hne] at hc
      obtain ⟨text, htext, hlast⟩ :=
        getLast?_intercalate (fun t ht => h t (List.mem_cons_of_mem _ ht)) c hc
      exact ⟨text, List.mem_cons_of_mem _ htext, hlast⟩

/-! ## 2. Stripping -/

/-- What is stripped is white space on both sides. -/
theorem strip_parts (text : List Char) :
    ∃ lead trail, text = lead ++ strip text ++ trail ∧ Blank lead ∧ Blank trail := by
  have hlead : text.takeWhile isSpace ++ text.dropWhile isSpace = text :=
    List.takeWhile_append_dropWhile
  have htrail : strip text ++ ((text.dropWhile isSpace).reverse.takeWhile isSpace).reverse =
      text.dropWhile isSpace := by
    rw [strip, stripWhere, ← List.reverse_append, List.takeWhile_append_dropWhile,
      List.reverse_reverse]
  refine ⟨text.takeWhile isSpace,
    ((text.dropWhile isSpace).reverse.takeWhile isSpace).reverse, ?_,
    fun c hc => List.mem_takeWhile_imp hc,
    fun c hc => List.mem_takeWhile_imp (List.mem_reverse.mp hc)⟩
  rw [List.append_assoc, htrail, hlead]

theorem words_strip (text : List Char) : words (strip text) = words text := by
  obtain ⟨lead, trail, htext, hlead, htrail⟩ := strip_parts text
  rw [congrArg words htext, words_append_blank htrail, words_blank_append hlead]

theorem strip_append_blank (hback : Blank back) : strip (text ++ back) = strip text := by
  by_cases htext : Blank text
  · have hall : Blank (text ++ back) := blank_append.mpr ⟨htext, hback⟩
    rw [strip_eq_nil_iff.mpr hall, strip_eq_nil_iff.mpr htext]
  · have hne : text.dropWhile isSpace ≠ [] := by
      intro hnil
      exact htext (List.dropWhile_eq_nil_iff.mp hnil)
    have hdrop : (text ++ back).dropWhile isSpace = text.dropWhile isSpace ++ back := by
      rw [List.dropWhile_append, if_neg]
      simpa using hne
    rw [strip, stripWhere, hdrop, List.reverse_append,
      List.dropWhile_append_of_pos fun c hc => hback c (List.mem_reverse.mp hc), strip, stripWhere]

/-! ## 3. Texts cut at white space -/

/-- **A text cut into parts**: between two parts there was white space. -/
inductive Parted : List Char → List (List Char) → Prop where
  | last (text : List Char) : Parted text [text]
  | cut {part sep rest : List Char} {parts : List (List Char)} (hsep : Blank sep) (hne : sep ≠ [])
      (hrest : Parted rest parts) : Parted (part ++ sep ++ rest) (part :: parts)

theorem Parted.words {parts : List (List Char)} (h : Parted text parts) :
    parts.flatMap words = Python.words text := by
  induction h with
  | last text => rw [List.flatMap_cons, List.flatMap_nil, List.append_nil]
  | cut hsep hne _ ih => rw [List.flatMap_cons, ih, words_append_sep hsep hne]

/-- A character before the text belongs to its first part. -/
theorem Parted.cons {c : Char} {part : List Char} {parts : List (List Char)}
    (h : Parted text (part :: parts)) : Parted (c :: text) ((c :: part) :: parts) := by
  cases h with
  | last text => exact .last _
  | cut hsep hne hrest =>
      exact (Parted.cut hsep hne hrest : Parted ((c :: _) ++ _ ++ _) ((c :: _) :: _))

/-! ## 4. Texts with single spaces -/

/-- `" ".join(text.split())`, on the characters. -/
def collapse (text : List Char) : List Char := [' '].intercalate (words text)

/-- White space is single spaces, each after something else. -/
def SingleSpaced (text : List Char) : Prop :=
  ∀ before c after, text = before ++ c :: after → isSpace c = true →
    c = ' ' ∧ ∃ d ∈ before.getLast?, isSpace d = false

theorem SingleSpaced.beginning (h : SingleSpaced (front ++ back)) : SingleSpaced front := by
  rintro before c after rfl hc
  exact h before c (after ++ back) (by rw [List.append_assoc]; rfl) hc

/-- A word, and what follows it. -/
theorem singleSpaced_append {word : List Char} (hspace : ∀ c ∈ word, isSpace c = false)
    (hback : ∀ before c after, back = before ++ c :: after → isSpace c = true →
      c = ' ' ∧ ∃ d ∈ (word ++ before).getLast?, isSpace d = false) : SingleSpaced (word ++ back) := by
  intro before c after htext hc
  rcases List.append_eq_append_iff.mp htext with ⟨middle, rfl, hrest⟩ | ⟨middle, hword, hrest⟩
  · exact hback middle c after hrest hc
  · cases middle with
    | nil =>
      rw [List.append_nil] at hword
      subst hword
      obtain ⟨hblank, hlast⟩ := hback [] c after hrest.symm hc
      rw [List.append_nil] at hlast
      exact ⟨hblank, hlast⟩
    | cons d middle =>
      obtain ⟨rfl, _⟩ := List.cons.inj hrest
      rw [hspace c (by rw [hword]; simp)] at hc
      cases hc

theorem singleSpaced_join : ∀ {ws : List (List Char)},
    (∀ word ∈ ws, word ≠ [] ∧ ∀ c ∈ word, isSpace c = false) → SingleSpaced ([' '].intercalate ws)
  | [], _ => fun before c after h => absurd h (by simp [List.intercalate])
  | [word], h => by
      have hspace := (h word List.mem_cons_self).2
      rw [List.intercalate_singleton, ← List.append_nil word]
      exact singleSpaced_append hspace fun before c after hnil => absurd hnil (by simp)
  | word :: next :: rest, h => by
      obtain ⟨hne, hspace⟩ := h word List.mem_cons_self
      have hrest : SingleSpaced ([' '].intercalate (next :: rest)) :=
        singleSpaced_join fun w hw => h w (List.mem_cons_of_mem word hw)
      rw [List.intercalate_cons_cons, List.append_assoc]
      refine singleSpaced_append hspace fun before c after htext hc => ?_
      cases before with
      | nil =>
        obtain ⟨rfl, _⟩ := List.cons.inj htext
        obtain ⟨body, d, rfl⟩ := (List.eq_nil_or_concat' word).resolve_left hne
        exact ⟨rfl, d, by rw [List.append_nil, List.getLast?_concat]; rfl,
          hspace d (List.mem_append_right _ List.mem_cons_self)⟩
      | cons b before =>
        obtain ⟨rfl, hmore⟩ := List.cons.inj htext
        obtain ⟨hblank, d, hd, hlast⟩ := hrest before c after hmore hc
        refine ⟨hblank, d, ?_, hlast⟩
        rw [List.append_cons, List.getLast?_append_of_ne_nil]
        · exact hd
        · rintro rfl
          cases hd

theorem SingleSpaced.rest {word : List Char} (h : SingleSpaced (word ++ ' ' :: back)) :
    SingleSpaced back := by
  rintro before c after rfl hc
  obtain ⟨hblank, d, hd, hlast⟩ := h (word ++ ' ' :: before) c after (by simp) hc
  refine ⟨hblank, d, ?_, hlast⟩
  rw [List.append_cons, List.getLast?_append] at hd
  cases hbefore : before.getLast? with
  | none =>
    rw [hbefore, Option.none_or, List.getLast?_concat] at hd
    obtain rfl := Option.some.inj hd
    cases hlast
  | some e =>
    rw [hbefore, Option.some_or] at hd
    exact hd

/-- **Texts with single spaces are words a space apart.** -/
theorem SingleSpaced.join {text : List Char} (h : SingleSpaced text) (hlast : text.getLast? ≠ some ' ') :
    ∃ ws, (∀ word ∈ ws, word ≠ [] ∧ ∀ c ∈ word, isSpace c = false) ∧ text = [' '].intercalate ws := by
  have hsplit : text.takeWhile (fun c => !isSpace c) ++ text.dropWhile (fun c => !isSpace c) = text :=
    List.takeWhile_append_dropWhile
  have hword : ∀ c ∈ text.takeWhile (fun c => !isSpace c), isSpace c = false := by
    intro c hc
    simpa using List.mem_takeWhile_imp hc
  cases hback : text.dropWhile (fun c => !isSpace c) with
  | nil =>
    rw [hback, List.append_nil] at hsplit
    by_cases hnil : text = []
    · exact ⟨[], by simp, by rw [hnil]; rfl⟩
    · refine ⟨[text], List.forall_mem_singleton.mpr ⟨hnil, ?_⟩, List.intercalate_singleton.symm⟩
      rwa [← hsplit]
  | cons c back =>
    have hc : isSpace c = true := by
      have hnot := List.head?_dropWhile_not (fun c => !isSpace c) text
      rw [hback] at hnot
      simpa using hnot
    rw [hback] at hsplit
    obtain ⟨rfl, d, hd, _⟩ := h _ c back hsplit.symm hc
    have hne : text.takeWhile (fun c => !isSpace c) ≠ [] := by
      intro hnil
      rw [hnil] at hd
      cases hd
    have hrest : SingleSpaced back := by
      rw [← hsplit] at h
      exact h.rest
    have hfilled : back ≠ [] := by
      rintro rfl
      exact hlast (by rw [← hsplit, List.getLast?_concat])
    have hend : back.getLast? ≠ some ' ' := by
      intro hspace
      refine hlast ?_
      rw [← hsplit, List.append_cons, List.getLast?_append_of_ne_nil _ hfilled, hspace]
    have hlt : back.length < text.length := by
      rw [← hsplit, List.length_append, List.length_cons]
      omega
    obtain ⟨ws, hws, htext⟩ := hrest.join hend
    refine ⟨text.takeWhile (fun c => !isSpace c) :: ws, List.forall_mem_cons.mpr ⟨⟨hne, hword⟩, hws⟩, ?_⟩
    cases ws with
    | nil => exact absurd htext hfilled
    | cons next ws =>
      rw [List.intercalate_cons_cons, ← htext, List.append_assoc]
      exact hsplit.symm
termination_by text.length

theorem collapse_eq_self (h : SingleSpaced text) (hlast : text.getLast? ≠ some ' ') :
    collapse text = text := by
  obtain ⟨ws, hws, rfl⟩ := h.join hlast
  rw [collapse, words_intercalate hws]

theorem singleSpaced_collapse (text : List Char) : SingleSpaced (collapse text) :=
  singleSpaced_join fun _ => mem_words

/-- A space at the end goes. -/
theorem collapse_concat (h : SingleSpaced (text ++ [' '])) : collapse (text ++ [' ']) = text := by
  have hwords : words (text ++ [' ']) = words text :=
    words_append_blank (List.forall_mem_singleton.mpr rfl)
  rw [collapse, hwords]
  refine collapse_eq_self h.beginning fun hlast => ?_
  obtain ⟨_, d, hd, hspace⟩ := h text ' ' [] rfl rfl
  rw [hlast] at hd
  obtain rfl := Option.some.inj hd
  cases hspace

end Helpdesk.Python
