/-
  File:      Helpdesk/Retrieval/ErrorCodes.lean
  Subject:   The error-code index and the queries against it
             (knowledge/error_code_extraction.py, retrieval/error_code_matching.py and
             `_persist` of worker/knowledge_processing_worker.py).

  The worker takes the codes from a chunk as it stands, a query is normalized first.
  `normalize_query` turns fullwidth and styled digits into ASCII ones, so a code with
  such digits is stored under a name no query has.

  * `boost_of_indexed`: what the index returns for a query is boosted, whatever the
    query is expanded by;
  * `codes_agree_iff`: a stored code is extracted from the queries that contain it
    exactly if its digits are normal.
-/
import Helpdesk.Retrieval.Identifiers
import Helpdesk.Retrieval.Normalization

namespace Helpdesk.Retrieval

open Helpdesk.Python

/-! ## 1. Stored codes -/

/-- `extract_error_codes` -/
def extractErrorCodes (parts : List (Option String)) : List String :=
  identifiers (" ".intercalate (parts.filterMap fun part => part.filter (· ≠ "")))

/-- What the worker persists of a chunk. -/
structure IndexedChunk where
  documentTitle : String
  headingPath : List String
  content : String

/-- `" > ".join(chunk.heading_path) or None` -/
def IndexedChunk.heading (chunk : IndexedChunk) : Option String :=
  let joined := " > ".intercalate chunk.headingPath
  if joined = "" then none else some joined

/-- `chunk.heading_path[-1] if chunk.heading_path else None` -/
def IndexedChunk.section_ (chunk : IndexedChunk) : Option String := chunk.headingPath.getLast?

/-- kb.chunk_error_code, the rows of a chunk -/
def storedCodes (chunk : IndexedChunk) : List String :=
  extractErrorCodes [some chunk.documentTitle, chunk.heading, chunk.section_, some chunk.content]

/-- A candidate with the fields of the chunk's row. -/
structure Carries (chunk : IndexedChunk) (candidate : RetrievalCandidate) : Prop where
  title : candidate.documentTitle = chunk.documentTitle
  heading : candidate.headingPath = chunk.heading
  section_ : candidate.sectionTitle = chunk.section_
  content : candidate.contentText = chunk.content

/-- **Fusion looks for codes where the worker does.** -/
theorem identifiers_searchedText {chunk : IndexedChunk} {candidate : RetrievalCandidate}
    (h : Carries chunk candidate) : identifiers (searchedText candidate) = storedCodes chunk := by
  rw [searchedText, h.title, h.heading, h.section_, h.content]
  rfl

/-! ## 2. Codes of a query -/

/-- `query_error_codes` -/
def queryErrorCodes (normalizedQuery : String) : List String :=
  (identifiers normalizedQuery).dedup.mergeSort fun a b => decide (a ≤ b)

theorem mem_queryErrorCodes {query code : String} :
    code ∈ queryErrorCodes query ↔ code ∈ identifiers query := by
  rw [queryErrorCodes, List.mem_mergeSort, List.mem_dedup]

/-- `EXISTS (... entry.error_code=ANY(:error_codes))` of `_ERROR_CODE` -/
def Indexed (chunk : IndexedChunk) (codes : List String) : Prop :=
  ∃ code ∈ storedCodes chunk, code ∈ codes

/-! ## 3. The boost -/

section Boost

variable {query : String} {lexical vector errorCodeMatches : List RetrievalCandidate}
  {filters : RetrievalFilters} {configuration : RetrievalConfiguration}
  {rerankScores : List (ChunkId × PyFloat)} {limit : Int} {evidence : List RetrievalEvidence}

/-- What is fused was shaped from a candidate of its chunk. -/
theorem evidence_of_fused
    (h : fuseCandidates query lexical vector filters configuration rerankScores errorCodeMatches
      limit = some evidence) {e : RetrievalEvidence} (he : e ∈ evidence) :
    ∃ ch candidate shaped, candidate ∈ errorCodeMatches ++ lexical ++ vector ∧
      candidate.chunkId = e.chunkId ∧
      evidenceOf query ch filters configuration rerankScores (e.chunkId, candidate) = some shaped ∧
      shaped.components = e.components := by
  obtain ⟨ordered, hordered, h⟩ := Option.bind_eq_some_iff.mp h
  obtain rfl := Option.some.inj h
  obtain ⟨ch, -, -, rfl⟩ := orderedEvidence_eq_some.mp hordered
  obtain ⟨p, hp, rfl⟩ := List.mem_map.mp he
  have hin := (firstItems_sublist limit _).subset (List.fst_mem_of_mem_zipIdx hp)
  rw [List.mem_mergeSort] at hin
  obtain ⟨⟨id, candidate⟩, hitem, hshaped⟩ := List.mem_filterMap.mp hin
  have hchunk : p.1.chunkId = id := evidence_chunk hshaped
  have hlookup := (mem_iff_item? (nodup_candidates lexical vector errorCodeMatches)).mp hitem
  have hpair := mem_of_item?_dictOf hlookup
  obtain ⟨c, hc, hpair⟩ := List.mem_map.mp hpair
  obtain ⟨hid, rfl⟩ := Prod.mk.inj hpair
  refine ⟨ch, c, p.1, hc, hid.trans hchunk.symm, ?_, rfl⟩
  dsimp only
  rw [hchunk]
  exact hshaped

/-- **What the index returns for a query is boosted**, whatever is appended to it. -/
theorem boost_of_indexed {chunk : IndexedChunk} {id : ChunkId} {more : String}
    (hcarries : ∀ c ∈ errorCodeMatches ++ lexical ++ vector, c.chunkId = id → Carries chunk c)
    (hindexed : Indexed chunk (queryErrorCodes query))
    (h : fuseCandidates (query ++ " " ++ more) lexical vector filters configuration rerankScores
      errorCodeMatches limit = some evidence) :
    ∀ e ∈ evidence, e.chunkId = id →
      e.components.exactIdentifierBoost = configuration.exactIdentifierBoost := by
  intro e he hid
  obtain ⟨ch, candidate, shaped, hcandidate, hchunk, hshaped, hcomponents⟩ := evidence_of_fused h he
  have hcodes := identifiers_searchedText (hcarries candidate hcandidate (hchunk.trans hid))
  obtain ⟨code, hstored, hcode⟩ := hindexed
  rw [mem_queryErrorCodes] at hcode
  have hany : (identifiers (query ++ " " ++ more)).any (· ∈ identifiers (searchedText candidate)) =
      true := by
    refine List.any_eq_true.mpr ⟨code, identifiers_append query more hcode, ?_⟩
    rw [hcodes]
    exact decide_eq_true hstored
  simp only [evidenceOf, Option.bind_eq_bind, Option.bind_eq_some_iff] at hshaped
  obtain ⟨_, -, _, -, _, -, hshaped⟩ := hshaped
  rw [← hcomponents, ← Option.some.inj hshaped]
  exact if_pos hany

end Boost

/-! ## 4. Codes in normalized text -/

/-- Digits have no case. -/
theorem upperExpanded_digit {c : Char} (h : isDigit c = true) : upperExpanded c = [c] := by
  have hother : ∀ {n : Nat}, c.toNat = n →
      (digitZeros.find? fun z => z ≤ n && n ≤ z + 9) ≠ none := by
    rintro n rfl hnone
    rw [isDigit_congr hnone] at h
    cases h
  unfold upperExpanded
  split
  all_goals first
    | (rename_i hcode; exact (hother hcode (by decide)).elim)
    | skip
  unfold upperChar
  split_ifs with hlower
  · have hcodes : c.toNat ∈ List.range' 97 26 := by
      have hlow : 97 ≤ c.toNat := hlower.1
      have hhigh : c.toNat ≤ 122 := hlower.2
      rw [List.mem_range'_1]
      omega
    have hnone : ∀ n ∈ List.range' 97 26,
        (digitZeros.find? fun z => z ≤ n && n ≤ z + 9) = none := by decide
    exact absurd (hnone _ hcodes) (hother rfl)
  · split
    all_goals first
      | rfl
      | (rename_i hcode; exact (hother hcode (by decide)).elim)

/-- The case of a letter is restored. -/
theorem upperExpanded_lowerChar {c : Char} (h : isUpperAscii c = true) :
    upperExpanded (lowerChar c) = [c] := by
  rw [isUpperAscii, Bool.and_eq_true, decide_eq_true_iff, decide_eq_true_iff] at h
  have hcodes : c.toNat ∈ List.range' 65 26 := by
    have hlow : 65 ≤ c.toNat := h.1
    have hhigh : c.toNat ≤ 90 := h.2
    rw [List.mem_range'_1]
    omega
  have hall : ∀ n ∈ List.range' 65 26, upperExpanded (lowerChar (Char.ofNat n)) = [Char.ofNat n] := by
    decide
  have hchar := hall _ hcodes
  rwa [Char.ofNat_toNat] at hchar

/-- A letter, the hyphen or a decimal digit. -/
def isCodeChar (c : Char) : Bool := isUpperAscii c || c = '-' || isDigit c

theorem isCodeChar_of_mem {code : List Char} (h : IsIdentifier ['-'] code) :
    ∀ c ∈ code, isCodeChar c = true := by
  intro c hc
  simp only [isCodeChar, Bool.or_eq_true, decide_eq_true_eq]
  cases h with
  | inl h =>
      obtain ⟨letters, separator, digits, rfl, hl, -, -, hseparator, hd, -⟩ := h
      rcases List.mem_append.mp hc with hc | hc
      · exact .inl (.inl (hl c hc))
      · rcases List.mem_cons.mp hc with rfl | hc
        · exact .inl (.inr (List.mem_singleton.mp hseparator))
        · exact .inr (hd c hc)
  | inr h =>
      obtain ⟨letters, digits, rfl, hl, -, -, hd, -⟩ := h
      rcases List.mem_append.mp hc with hc | hc
      · exact .inl (.inl (hl c hc))
      · exact .inr (hd c hc)

section Normalized

variable {u : Unicode} {c : Char} {code : List Char}

theorem isPlain_or_digit (h : isCodeChar c = true) :
    isPlain c = true ∨ (decimalDigit? c).isSome = true := by
  simp only [isCodeChar, isUpperAscii, isDigit, Bool.or_eq_true, decide_eq_true_eq] at h
  rcases h with (h | rfl) | h
  · exact .inl (by simp [isPlain, h])
  · exact .inl (by decide)
  · exact .inr h

/-- Folding the case and back leaves a code alone. -/
theorem upperExpanded_casefold (hu : u.Documented) (h : isCodeChar c = true) :
    (u.casefold c).flatMap upperExpanded = [c] := by
  simp only [isCodeChar, Bool.or_eq_true, decide_eq_true_eq] at h
  rcases h with (h | rfl) | h
  · have hbounds := h
    rw [isUpperAscii, Bool.and_eq_true, decide_eq_true_iff, decide_eq_true_iff] at hbounds
    rw [hu.casefold_upper c hbounds, List.flatMap_singleton, upperExpanded_lowerChar h]
  · rw [hu.casefold_plain '-' (by decide) (by decide), List.flatMap_singleton]
    decide
  · rw [hu.casefold_digit c h, List.flatMap_singleton, upperExpanded_digit h]

theorem length_casefold (hu : u.Documented) : ∀ {text : List Char},
    (∀ c ∈ text, isCodeChar c = true) → (text.flatMap u.casefold).length = text.length
  | [], _ => rfl
  | c :: cs, h => by
      have hone : (u.casefold c).length = 1 := by
        have hchar := h c List.mem_cons_self
        simp only [isCodeChar, Bool.or_eq_true, decide_eq_true_eq] at hchar
        rcases hchar with (hchar | rfl) | hchar
        · rw [isUpperAscii, Bool.and_eq_true, decide_eq_true_iff, decide_eq_true_iff] at hchar
          rw [hu.casefold_upper c hchar]
          rfl
        · rw [hu.casefold_plain '-' (by decide) (by decide)]
          rfl
        · rw [hu.casefold_digit c hchar]
          rfl
      rw [List.flatMap_cons, List.length_append, hone,
        length_casefold hu fun d hd => h d (List.mem_cons_of_mem c hd), List.length_cons,
        Nat.add_comm]

theorem casefold_code (hu : u.Documented) (h : ∀ c ∈ code, isCodeChar c = true) :
    (code.flatMap u.casefold).flatMap upperExpanded = code := by
  rw [List.flatMap_assoc]
  calc code.flatMap (fun c => (u.casefold c).flatMap upperExpanded)
      = code.flatMap (fun c => [c]) :=
        List.flatMap_congr fun c hc => upperExpanded_casefold hu (h c hc)
    _ = code := List.flatMap_singleton' code

/-- What takes each character to one character leaves the text alone exactly if it
    leaves each character alone. -/
theorem flatMap_eq_self_iff {f : Char → List Char} : ∀ {text : List Char},
    (∀ c ∈ text, ∃ d, f c = [d]) → (text.flatMap f = text ↔ ∀ c ∈ text, f c = [c])
  | [], _ => by simp
  | c :: cs, h => by
      obtain ⟨d, hd⟩ := h c List.mem_cons_self
      rw [List.flatMap_cons, hd, List.singleton_append, List.cons.injEq,
        flatMap_eq_self_iff fun e he => h e (List.mem_cons_of_mem c he), List.forall_mem_cons, hd,
        List.cons.injEq, and_iff_left rfl]

/-- The digits of a code become digits. -/
theorem nfkc_digits (hu : u.Documented) : ∀ {digits : List Char},
    (∀ d ∈ digits, isDigit d = true) → ∃ digits', digits.flatMap (fun c => u.nfkc [c]) = digits' ∧
      digits'.length = digits.length ∧ ∀ d ∈ digits', isDigit d = true
  | [], _ => ⟨[], rfl, rfl, fun d hd => nomatch hd⟩
  | c :: cs, h => by
      obtain ⟨d, hd, hdigit⟩ := hu.digit c (h c List.mem_cons_self)
      obtain ⟨digits', hdigits, hlength, hall⟩ :=
        nfkc_digits hu fun e he => h e (List.mem_cons_of_mem c he)
      refine ⟨d :: digits', ?_, ?_, ?_⟩
      · rw [List.flatMap_cons, hd, hdigits, List.singleton_append]
      · rw [List.length_cons, List.length_cons, hlength]
      · intro e he
        rcases List.mem_cons.mp he with rfl | he
        · exact hdigit
        · exact hall e he

theorem nfkc_letters (hu : u.Documented) {letters : List Char}
    (h : ∀ d ∈ letters, isUpperAscii d = true) :
    letters.flatMap (fun c => u.nfkc [c]) = letters := by
  refine (flatMap_eq_self_iff fun c hc => ?_).mpr fun c hc => ?_
  all_goals
    have hplain : u.nfkc [c] = [c] := hu.plain c (by
      have hupper := h c hc
      simp only [isUpperAscii] at hupper
      simp [isPlain, hupper])
  · exact ⟨c, hplain⟩
  · exact hplain

/-- **A code is normalized to a code**, to itself exactly if its characters are normal. -/
theorem nfkc_code (hu : u.Documented) (h : IsIdentifier ['-'] code) :
    IsIdentifier ['-'] (u.nfkc code) ∧ (u.nfkc code = code ↔ ∀ c ∈ code, u.nfkc [c] = [c]) := by
  have hchars := isCodeChar_of_mem h
  have hmap := hu.nfkc_plain code fun c hc => isPlain_or_digit (hchars c hc)
  constructor
  · rw [hmap]
    cases h with
    | inl h =>
        obtain ⟨letters, separator, digits, rfl, hl, hlow, hhigh, hseparator, hd, hdlow, hdhigh⟩ := h
        obtain ⟨digits', hdigits, hlength, hall⟩ := nfkc_digits hu hd
        obtain rfl := List.mem_singleton.mp hseparator
        refine .inl ⟨letters, '-', digits', ?_, hl, hlow, hhigh, hseparator, hall,
          hlength ▸ hdlow, hlength ▸ hdhigh⟩
        rw [List.flatMap_append, List.flatMap_cons, nfkc_letters hu hl, hdigits,
          hu.plain '-' (by decide), List.singleton_append]
    | inr h =>
        obtain ⟨letters, digits, rfl, hl, hlow, hhigh, hd, hdlow, hdhigh⟩ := h
        obtain ⟨digits', hdigits, hlength, hall⟩ := nfkc_digits hu hd
        refine .inr ⟨letters, digits', ?_, hl, hlow, hhigh, hall, hlength ▸ hdlow,
          hlength ▸ hdhigh⟩
        rw [List.flatMap_append, nfkc_letters hu hl, hdigits]
  · rw [hmap]
    refine flatMap_eq_self_iff fun c hc => ?_
    cases isPlain_or_digit (hchars c hc) with
    | inl hplain => exact ⟨c, hu.plain c hplain⟩
    | inr hdigit =>
        obtain ⟨d, hd, -⟩ := hu.digit c hdigit
        exact ⟨d, hd⟩

theorem isSpace_code (h : IsIdentifier ['-'] code) : ∀ c ∈ code, isSpace c = false := by
  intro c hc
  have hchar := isCodeChar_of_mem h c hc
  simp only [isCodeChar, Bool.or_eq_true, decide_eq_true_eq] at hchar
  rcases hchar with (hchar | rfl) | hchar
  · exact (isUpperAscii_class hchar).2.1
  · decide
  · exact (isDigit_class hchar).2.1

theorem code_ne_nil (h : IsIdentifier ['-'] code) : code ≠ [] := by
  obtain ⟨d, hd, -⟩ := head?_code [] h
  intro hnil
  rw [hnil] at hd
  cases hd

/-- A code is one word. -/
theorem words_code (h : IsIdentifier ['-'] code) : words code = [code] := by
  have hone : words ([' '].intercalate [code]) = [code] := by
    refine words_intercalate fun word hword => ?_
    obtain rfl := List.mem_singleton.mp hword
    exact ⟨code_ne_nil h, isSpace_code h⟩
  rwa [List.intercalate_singleton] at hone

/-- The words of a code without control characters. -/
theorem bare_code (hu : u.Documented) (h : IsIdentifier ['-'] code) :
    bare u code = [u.nfkc code] := by
  have hcode := (nfkc_code hu h).1
  have hkeep : (u.nfkc code).filter (fun c => !u.control c || isSpace c) = u.nfkc code := by
    refine List.filter_eq_self.mpr fun c hc => ?_
    rw [hu.control_plain c (isPlain_or_digit (isCodeChar_of_mem hcode c hc))]
    rfl
  rw [bare, hkeep, words_code hcode]

theorem length_code (h : IsIdentifier ['-'] code) : 5 ≤ code.length ∧ code.length ≤ 25 := by
  cases h with
  | inl h =>
      obtain ⟨letters, separator, digits, rfl, -, hlow, hhigh, -, -, hdlow, hdhigh⟩ := h
      rw [List.length_append, List.length_cons]
      omega
  | inr h =>
      obtain ⟨letters, digits, rfl, -, hlow, hhigh, -, hdlow, hdhigh⟩ := h
      rw [List.length_append]
      omega

/-- A word among others, with the spaces on its sides. -/
theorem intercalate_split {word : List Char} : ∀ {ws : List (List Char)}, word ∈ ws →
    ∃ front back, [' '].intercalate ws = front ++ (word ++ back) ∧
      (front = [] ∨ ∃ front', front = front' ++ [' ']) ∧ (back = [] ∨ ∃ back', back = ' ' :: back')
  | [first], h => by
      obtain rfl := List.mem_singleton.mp h
      exact ⟨[], [], by rw [List.intercalate_singleton, List.append_nil, List.nil_append], .inl rfl,
        .inl rfl⟩
  | first :: second :: ws, h => by
      rw [List.intercalate_cons_cons]
      rcases List.mem_cons.mp h with rfl | h
      · exact ⟨[], ' ' :: [' '].intercalate (second :: ws), by simp, .inl rfl, .inr ⟨_, rfl⟩⟩
      · obtain ⟨front, back, hsplit, hfront, hback⟩ := intercalate_split h
        refine ⟨first ++ [' '] ++ front, back, by rw [hsplit]; simp, .inr ?_, hback⟩
        rcases hfront with rfl | ⟨front', rfl⟩
        · exact ⟨first, by simp⟩
        · exact ⟨first ++ [' '] ++ front', by simp⟩

/-- **The normalized code is among the codes of a query that contains the code.** -/
theorem code_mem_identifiers (hu : u.Documented) (h : IsIdentifier ['-'] code)
    {query normalized : String} (hquery : code ∈ words query.toList)
    (hnormalized : normalizeQuery u query = .ok normalized) :
    String.ofList (u.nfkc code) ∈ identifiers normalized := by
  obtain ⟨htext, -, -⟩ := normalizeQuery_eq_ok.mp hnormalized
  have hcode := (nfkc_code hu h).1
  have hmem : u.nfkc code ∈ bare u query.toList := by
    rw [bare_words hu, List.mem_flatMap]
    exact ⟨code, hquery, by rw [bare_code hu h]; exact List.mem_singleton_self _⟩
  obtain ⟨front, back, hsplit, hfront, hback⟩ := intercalate_split hmem
  have hfold : (u.casefold ' ').flatMap upperExpanded = [' '] := by
    rw [hu.casefold_space, List.flatMap_singleton, upperExpanded_space]
  have hupper : normalized.toList.flatMap upperExpanded =
      (front.flatMap u.casefold).flatMap upperExpanded ++ (u.nfkc code ++
        (back.flatMap u.casefold).flatMap upperExpanded) := by
    rw [htext, normalizedText, hsplit, List.flatMap_append, List.flatMap_append,
      List.flatMap_append, List.flatMap_append, casefold_code hu (isCodeChar_of_mem hcode)]
  have hbetween : Between ((front.flatMap u.casefold).flatMap upperExpanded)
      ((back.flatMap u.casefold).flatMap upperExpanded) := by
    constructor
    · intro d hd
      rcases hfront with rfl | ⟨front', rfl⟩
      · cases hd
      · rw [List.flatMap_append, List.flatMap_append, List.flatMap_singleton, hfold,
          List.getLast?_concat] at hd
        obtain rfl := Option.some.inj hd
        decide
    · intro d hd
      rcases hback with rfl | ⟨back', rfl⟩
      · cases hd
      · rw [List.flatMap_cons, List.flatMap_append, hfold] at hd
        obtain rfl := Option.some.inj hd
        decide
  have hfound := mem_findIdentifiers_token hcode hbetween (le_refl _)
  rw [← hupper] at hfound
  rw [identifiers_eq]
  refine List.mem_map.mpr ⟨u.nfkc code, hfound, ?_⟩
  rw [folded_code hcode]

end Normalized

/-! ## 5. Agreement -/

/-- **A query for a code has the normalized code, and no other.** -/
theorem identifiers_of_code {u : Unicode} (hu : u.Documented) {code : String}
    (h : IsIdentifier ['-'] code.toList) :
    ∃ normalized, normalizeQuery u code = .ok normalized ∧
      identifiers normalized = [String.ofList (u.nfkc code.toList)] := by
  have hcode := (nfkc_code hu h).1
  have hchars := isCodeChar_of_mem hcode
  have htext : normalizedText u code.toList = (u.nfkc code.toList).flatMap u.casefold := by
    rw [normalizedText, bare_code hu h, List.intercalate_singleton]
  have hupper := casefold_code hu hchars
  have hlength := length_casefold hu hchars
  obtain ⟨hlow, hhigh⟩ := length_code hcode
  refine ⟨String.ofList ((u.nfkc code.toList).flatMap u.casefold), ?_, ?_⟩
  · rw [normalizeQuery_eq_ok, ← String.length_toList, String.toList_ofList, hlength]
    refine ⟨htext.symm, ?_, hhigh.trans (by decide)⟩
    intro hnil
    rw [hnil, List.length_nil] at hlength
    omega
  · rw [identifiers_eq, String.toList_ofList, hupper, findIdentifiers_code hcode (le_refl _),
      List.map_singleton, folded_code hcode]

/-- **The index and the queries agree on the codes**: what the index returns for a query
    is boosted under every expansion of the query, which keeps the query's codes; and
    a stored code is extracted from every query that contains it as a word exactly if
    NFKC leaves its characters alone. -/
theorem codes_agree_iff (u : Unicode) (hu : u.Documented) (chunk : IndexedChunk) :
    (∀ (query more : String) (lexical vector errorCodeMatches : List RetrievalCandidate)
        (filters : RetrievalFilters) (configuration : RetrievalConfiguration)
        (rerankScores : List (ChunkId × PyFloat)) (limit : Int) (evidence : List RetrievalEvidence)
        (id : ChunkId),
      (∀ c ∈ errorCodeMatches ++ lexical ++ vector, c.chunkId = id → Carries chunk c) →
      Indexed chunk (queryErrorCodes query) →
      fuseCandidates (query ++ " " ++ more) lexical vector filters configuration rerankScores
        errorCodeMatches limit = some evidence →
      ∀ e ∈ evidence, e.chunkId = id →
        e.components.exactIdentifierBoost = configuration.exactIdentifierBoost) ∧
    (∀ query more, identifiers query ⊆ identifiers (query ++ " " ++ more)) ∧
    ∀ code ∈ storedCodes chunk,
      ((∀ query normalized, code.toList ∈ words query.toList →
          normalizeQuery u query = .ok normalized → code ∈ queryErrorCodes normalized) ↔
        ∀ c ∈ code.toList, u.nfkc [c] = [c]) := by
  refine ⟨?_, identifiers_append, ?_⟩
  · intro query more lexical vector errorCodeMatches filters configuration rerankScores limit
      evidence id hcarries hindexed hfused
    exact boost_of_indexed hcarries hindexed hfused
  · intro code hstored
    have hcode := isCode_of_mem_identifiers hstored
    rw [← (nfkc_code hu hcode).2]
    constructor
    · intro hall
      obtain ⟨normalized, hnormalized, hcodes⟩ := identifiers_of_code hu hcode
      have hword : code.toList ∈ words code.toList := by
        rw [words_code hcode]
        exact List.mem_singleton_self _
      have hmem := mem_queryErrorCodes.mp (hall code normalized hword hnormalized)
      rw [hcodes, List.mem_singleton] at hmem
      exact ((congrArg String.toList hmem).trans String.toList_ofList).symm
    · intro hself query normalized hquery hnormalized
      have hmem := code_mem_identifiers hu hcode hquery hnormalized
      rw [hself, String.ofList_toList] at hmem
      exact mem_queryErrorCodes.mpr hmem

/-! ## 6. Fullwidth digits -/

/-- NFKC on ASCII text and fullwidth digits. -/
def narrow (c : Char) : Char :=
  if 0xff10 ≤ c.toNat ∧ c.toNat ≤ 0xff19 then Char.ofNat (c.toNat - 0xfee0) else c

/-- The tables as far as ASCII text with fullwidth digits sees them. -/
def narrowTables : Unicode where
  nfkc := List.map narrow
  control := fun _ => false
  casefold := fun c => [lowerChar c]

theorem narrow_of_lt {c : Char} (h : c.toNat < 0xff10) : narrow c = c := if_neg (by omega)

theorem plain_lt {c : Char} (h : isPlain c = true) : c.toNat < 128 := by
  simp only [isPlain, Bool.or_eq_true, Bool.and_eq_true, decide_eq_true_eq] at h
  rcases h with (((h | h) | h) | rfl) | rfl
  · exact Nat.lt_of_le_of_lt (show c.toNat ≤ 90 from h.2) (by decide)
  · exact Nat.lt_of_le_of_lt (show c.toNat ≤ 122 from h.2) (by decide)
  · exact Nat.lt_of_le_of_lt (show c.toNat ≤ 57 from h.2) (by decide)
  · decide
  · decide

theorem narrowTables_documented : narrowTables.Documented where
  nfkc_nil := rfl
  nfkc_space := by
    intro front w back _
    simp [narrowTables]
  nfkc_quote := by
    intro front back
    simp [narrowTables, narrow]
  space := by
    intro w hw
    refine ⟨by simp [narrowTables], fun c hc => ?_⟩
    obtain rfl := List.mem_singleton.mp hc
    have hnarrow : narrow w = w := by
      refine if_neg fun hwide => ?_
      have hdigit : ∀ n ∈ List.range' 0xff10 10, isSpace (Char.ofNat n) = false := by decide
      have hcode := hdigit w.toNat (by rw [List.mem_range'_1]; omega)
      rw [Char.ofNat_toNat, hw] at hcode
      cases hcode
    rw [hnarrow]
    exact hw
  nfkc_plain := by
    intro text _
    exact (List.flatMap_pure_eq_map narrow text).symm
  plain := by
    intro c hc
    have hlt := plain_lt hc
    exact congrArg ([·]) (narrow_of_lt (by omega))
  digit := by
    intro c hc
    refine ⟨narrow c, rfl, ?_⟩
    unfold narrow
    split_ifs with hwide
    · have hdigit : ∀ n ∈ List.range' 0xff10 10,
          (decimalDigit? (Char.ofNat (n - 0xfee0))).isSome = true := by decide
      exact hdigit c.toNat (by rw [List.mem_range'_1]; omega)
    · exact hc
  control_plain := fun _ _ => rfl
  casefold_upper := fun _ _ => rfl
  casefold_plain := by
    intro c hc hupper
    have hlt := plain_lt hc
    have hkelvin : c.toNat ≠ 0x212a := by omega
    simp [narrowTables, lowerChar, hupper, hkelvin]
  casefold_digit := by
    intro c hc
    have hupper : ¬('A' ≤ c ∧ c ≤ 'Z') := by
      intro hbounds
      have hclass := (isDigit_class hc).1
      simp [isUpperAscii, hbounds] at hclass
    have hkelvin : c.toNat ≠ 0x212a := by
      intro heq
      have hnone : isDigit c = false := isDigit_congr (by rw [heq]; decide)
      rw [isDigit, hc] at hnone
      cases hnone
    simp [narrowTables, lowerChar, hupper, hkelvin]
  casefold_space := rfl

def oraChunk (content : String) : IndexedChunk := ⟨"Import errors", ["Faults", "Import"], content⟩

/-- A stored code is extracted from every query that contains it. -/
theorem codes_agree_iff_ora :
    normalizeQuery narrowTables "fix ORA-600" = .ok "fix ora-600" ∧
      "ORA-600" ∈ queryErrorCodes "fix ora-600" :=
  have hnormal : normalizeQuery narrowTables "fix ORA-600" = .ok "fix ora-600" := by decide +kernel
  ⟨hnormal, ((codes_agree_iff narrowTables narrowTables_documented (oraChunk "See ORA_600.")).2.2
    "ORA-600" (by decide +kernel)).mpr (by simp [narrowTables, narrow]) "fix ORA-600" _
    (by decide +kernel) hnormal⟩

/-- **A code with fullwidth digits is stored, and no query has it.** -/
theorem fullwidth_code_lost : ¬ ∀ (u : Unicode), u.Documented → ∀ (chunk : IndexedChunk),
    ∀ code ∈ storedCodes chunk, ∀ query normalized, code.toList ∈ words query.toList →
      normalizeQuery u query = .ok normalized → code ∈ queryErrorCodes normalized := by
  intro h
  have hlost := h narrowTables narrowTables_documented (oraChunk "See ORA-\uff16\uff10\uff10.")
    "ORA-\uff16\uff10\uff10" (by decide +kernel) "ORA-\uff16\uff10\uff10" "ora-600"
    (by decide +kernel) (by decide +kernel)
  rw [mem_queryErrorCodes] at hlost
  exact absurd hlost (by decide +kernel)

end Helpdesk.Retrieval
