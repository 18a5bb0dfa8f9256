/-
  File:      Helpdesk/Retrieval/Expansion.lean
  Subject:   Synonym expansion of retrieval queries (apps/api/app/retrieval/expansion.py).

  The lexical channel reads the expanded query in the language of web searches
  (Helpdesk.Lib.Websearch); how that reader classifies characters and what an operand
  says about a text are parameters.

  * `appended_appendExpansions`: what is appended fits the query on its own, and
    together it stays within the limit;
  * `expansion_law`: when expansion only broadens the lexical match, and when
    `normalize_query` takes both expanded queries as they are.
-/
import Helpdesk.Lib.Websearch
import Helpdesk.Retrieval.ErrorCodes

namespace Helpdesk.Retrieval

open Helpdesk.Python Helpdesk.Websearch

/-! ## 1. Expansion -/

/-- `MAX_APPENDED_EXPANSIONS` -/
def maxAppendedExpansions : Nat := 5

/-- `pattern in text` -/
def containsText (pattern text : String) : Bool := decide (pattern.toList <:+: text.toList)

/-- `text.split(" ")` -/
def splitSpaces (text : String) : List (List Char) := text.toList.splitOn ' '

structure ExpandedQuery where
  searchQuery : String
  lexicalQuery : String
  applied : Bool
  expandedTermCount : Nat

/-- The expansion as a phrase. -/
def quoted (expansion : String) : String := "\x22" ++ expansion ++ "\x22"

/-- `_lexical_query` -/
def lexicalQuery (normalizedQuery : String) (expansions : List String) : String :=
  normalizedQuery ++ " or " ++ " or ".intercalate (expansions.map quoted)

/-- The query with the expansions as plain words behind it. -/
def searchQuery (normalizedQuery : String) (expansions : List String) : String :=
  " ".intercalate (normalizedQuery :: expansions)

/-- The loop of `expand_query` over the entries, terms with their expansions; `present`
    are the words already there. -/
def appendExpansions (normalizedQuery : String) :
    List (String × String) → List (List Char) → List String → List String
  | [], _, appended => appended
  | (term, expansion) :: entries, present, appended =>
      if maxAppendedExpansions ≤ appended.length then appended
      else if !containsText (" " ++ term ++ " ") (" " ++ normalizedQuery ++ " ") then
        appendExpansions normalizedQuery entries present appended
      else if (splitSpaces expansion).all present.contains then
        appendExpansions normalizedQuery entries present appended
      else if maxQueryCharacters < (searchQuery normalizedQuery (appended ++ [expansion])).length then
        appended
      else if maxQueryCharacters < (lexicalQuery normalizedQuery (appended ++ [expansion])).length then
        appended
      else
        appendExpansions normalizedQuery entries (present ++ splitSpaces expansion)
          (appended ++ [expansion])

/-- What `expand_query` appends. -/
def expansionsFor (normalizedQuery : String) (entries : List (String × String)) : List String :=
  appendExpansions normalizedQuery entries (splitSpaces normalizedQuery) []

/-- `expand_query` -/
def expandQuery (normalizedQuery : String) (entries : List (String × String)) : ExpandedQuery :=
  match expansionsFor normalizedQuery entries with
  | [] => ⟨normalizedQuery, normalizedQuery, false, 0⟩
  | expansion :: more =>
      ⟨searchQuery normalizedQuery (expansion :: more), lexicalQuery normalizedQuery (expansion :: more),
        true, (expansion :: more).length⟩

/-! ## 2. What is appended -/

/-- **The entry would be applied alone**: its term stands in the query as whole words,
    its expansion has a word of its own, and both queries stay within the limit. -/
structure Fits (query : String) (entry : String × String) : Prop where
  term : containsText (" " ++ entry.1 ++ " ") (" " ++ query ++ " ") = true
  fresh : ∃ word ∈ splitSpaces entry.2, word ∉ splitSpaces query
  search : (searchQuery query [entry.2]).length ≤ maxQueryCharacters
  lexical : (lexicalQuery query [entry.2]).length ≤ maxQueryCharacters

/-- The expansions come from entries that fit, and stay within the limit together. -/
structure Appended (query : String) (entries : List (String × String)) (expansions : List String) :
    Prop where
  fits : ∀ expansion ∈ expansions, ∃ entry ∈ entries, Fits query entry ∧ entry.2 = expansion
  within : expansions ≠ [] → (searchQuery query expansions).length ≤ maxQueryCharacters ∧
    (lexicalQuery query expansions).length ≤ maxQueryCharacters

variable {query expansion : String} {expansions appended : List String}
  {entries all : List (String × String)}

theorem length_searchQuery_snoc : (searchQuery query [expansion]).length ≤
    (searchQuery query (appended ++ [expansion])).length := by
  have hsnoc : searchQuery query (appended ++ [expansion]) =
      searchQuery query appended ++ " " ++ expansion := by
    rw [searchQuery, ← List.cons_append,
      String.intercalate_append_of_ne_nil (List.cons_ne_nil _ _) (List.cons_ne_nil _ _),
      String.intercalate_singleton]
    rfl
  have hfront : query.length ≤ (searchQuery query appended).length := by
    cases appended with
    | nil => rw [searchQuery, String.intercalate_singleton]
    | cons first rest =>
        rw [searchQuery, String.intercalate_cons_cons, String.length_append, String.length_append]
        omega
  rw [hsnoc, searchQuery, String.intercalate_cons_cons, String.intercalate_singleton]
  simp only [String.length_append]
  omega

theorem length_lexicalQuery_snoc : (lexicalQuery query [expansion]).length ≤
    (lexicalQuery query (appended ++ [expansion])).length := by
  have hback : (quoted expansion).length ≤
      (" or ".intercalate ((appended ++ [expansion]).map quoted)).length := by
    cases appended with
    | nil => rw [List.nil_append, List.map_singleton, String.intercalate_singleton]
    | cons first rest =>
        rw [List.map_append, List.map_cons, List.map_singleton,
          String.intercalate_append_of_ne_nil (List.cons_ne_nil _ _) (List.cons_ne_nil _ _),
          String.intercalate_singleton, String.length_append]
        omega
  rw [lexicalQuery, lexicalQuery, List.map_singleton, String.intercalate_singleton]
  simp only [String.length_append]
  omega

theorem appended_loop : ∀ {entries : List (String × String)} {present : List (List Char)}
    {appended : List String}, (∀ entry ∈ entries, entry ∈ all) →
      (∀ word ∈ splitSpaces query, word ∈ present) → Appended query all appended →
        Appended query all (appendExpansions query entries present appended)
  | [], _, _, _, _, h => h
  | (term, expansion) :: entries, present, appended, hall, hpresent, h => by
      have hrest : ∀ entry ∈ entries, entry ∈ all := fun entry hentry =>
        hall entry (List.mem_cons_of_mem _ hentry)
      rw [appendExpansions]
      split_ifs with hfull hterm hknown hsearch hlexical
      · exact h
      · exact appended_loop hrest hpresent h
      · exact appended_loop hrest hpresent h
      · exact h
      · exact h
      · rw [Nat.not_lt] at hsearch hlexical
        have hfits : Fits query (term, expansion) := by
          refine ⟨by simpa using hterm, ?_, length_searchQuery_snoc.trans hsearch,
            length_lexicalQuery_snoc.trans hlexical⟩
          simp only [List.all_eq_true, not_forall, List.contains_iff_mem] at hknown
          obtain ⟨word, hword, hnew⟩ := hknown
          exact ⟨word, hword, fun hold => hnew (hpresent word hold)⟩
        refine appended_loop hrest (fun word hword => List.mem_append_left _ (hpresent word hword)) ⟨?_, ?_⟩
        · intro other hother
          rcases List.mem_append.mp hother with hother | hother
          · exact h.fits other hother
          · obtain rfl := List.mem_singleton.mp hother
            exact ⟨_, hall _ List.mem_cons_self, hfits, rfl⟩
        · exact fun _ => ⟨hsearch, hlexical⟩

/-- **What is appended fits**, one by one and together. -/
theorem appended_expansionsFor : Appended query entries (expansionsFor query entries) := by
  refine appended_loop (fun _ hentry => hentry) (fun _ hword => hword) ⟨?_, ?_⟩
  · intro expansion hexpansion
    cases hexpansion
  · intro hne
    exact absurd rfl hne

theorem expansionsFor_singleton {entry : String × String} (h : Fits query entry) :
    expansionsFor query [entry] = [entry.2] := by
  obtain ⟨term, expansion⟩ := entry
  obtain ⟨word, hword, hnew⟩ := h.fresh
  have hknown : ¬((splitSpaces expansion).all (splitSpaces query).contains = true) := by
    intro hall
    exact hnew (List.contains_iff_mem.mp (List.all_eq_true.mp hall word hword))
  rw [expansionsFor, appendExpansions, if_neg (by decide), if_neg (by simp [h.term]), if_neg hknown,
    List.nil_append, if_neg (Nat.not_lt.mpr h.search), if_neg (Nat.not_lt.mpr h.lexical),
    appendExpansions]

theorem expandQuery_nil (h : expansionsFor query entries = []) :
    expandQuery query entries = ⟨query, query, false, 0⟩ := by
  rw [expandQuery, h]

theorem expandQuery_cons (h : expansionsFor query entries = expansion :: expansions) :
    expandQuery query entries = ⟨searchQuery query (expansion :: expansions),
      lexicalQuery query (expansion :: expansions), true, (expansion :: expansions).length⟩ := by
  rw [expandQuery, h]

/-- **Both queries stay within the limit.** -/
theorem length_expandQuery (hquery : query.length ≤ maxQueryCharacters) :
    (expandQuery query entries).searchQuery.length ≤ maxQueryCharacters ∧
      (expandQuery query entries).lexicalQuery.length ≤ maxQueryCharacters := by
  have happended : Appended query entries (expansionsFor query entries) := appended_expansionsFor
  cases h : expansionsFor query entries with
  | nil =>
      rw [expandQuery_nil h]
      exact ⟨hquery, hquery⟩
  | cons expansion expansions =>
      rw [h] at happended
      rw [expandQuery_cons h]
      exact happended.within (List.cons_ne_nil _ _)

/-! ## 3. Queries taken as they are -/

theorem searchQuery_cons :
    searchQuery query (expansion :: expansions) = searchQuery (query ++ " " ++ expansion) expansions := by
  rw [searchQuery, searchQuery, String.intercalate_cons_cons]
  cases expansions with
  | nil => rw [String.intercalate_singleton, String.intercalate_singleton]
  | cons second rest =>
      rw [String.intercalate_cons_cons, String.intercalate_cons_cons]
      simp only [String.append_assoc]

theorem lexicalQuery_singleton :
    lexicalQuery query [expansion] = query ++ " " ++ "or" ++ " " ++ quoted expansion := by
  rw [lexicalQuery, List.map_singleton, String.intercalate_singleton]
  simp only [String.append_assoc]
  rfl

theorem lexicalQuery_cons (hne : expansions ≠ []) :
    lexicalQuery query (expansion :: expansions) =
      lexicalQuery (lexicalQuery query [expansion]) expansions := by
  obtain ⟨second, rest, rfl⟩ := List.exists_cons_of_ne_nil hne
  rw [lexicalQuery, lexicalQuery, lexicalQuery, List.map_singleton, String.intercalate_singleton,
    List.map_cons, List.map_cons, String.intercalate_cons_cons]
  simp only [String.append_assoc]

theorem length_le_searchQuery : query.length ≤ (searchQuery query expansions).length := by
  cases expansions with
  | nil => rw [searchQuery, String.intercalate_singleton]
  | cons expansion expansions =>
      rw [searchQuery, String.intercalate_cons_cons, String.length_append, String.length_append]
      omega

theorem length_le_lexicalQuery : query.length ≤ (lexicalQuery query expansions).length := by
  rw [lexicalQuery, String.length_append, String.length_append]
  omega

variable {u : Unicode}

theorem normal_searchQuery (hu : u.Documented) (hquery : Normal u query)
    (hexpansions : ∀ expansion ∈ expansions, Normal u expansion)
    (hwithin : (searchQuery query expansions).length ≤ maxQueryCharacters) :
    Normal u (searchQuery query expansions) := by
  induction expansions generalizing query with
  | nil => rwa [searchQuery, String.intercalate_singleton]
  | cons expansion expansions ih =>
      rw [searchQuery_cons] at hwithin ⊢
      refine ih ((normal_join hu hquery).mpr ⟨?_, ?_⟩) ?_ hwithin
      · exact hexpansions expansion List.mem_cons_self
      · exact length_le_searchQuery.trans hwithin
      · exact fun other hother => hexpansions other (List.mem_cons_of_mem _ hother)

/-- The query with an `or` and one phrase behind it. -/
theorem normal_lexicalQuery_singleton (hu : u.Documented) (hquery : Normal u query)
    (hwithin : (lexicalQuery query [expansion]).length ≤ maxQueryCharacters) :
    Normal u (lexicalQuery query [expansion]) ↔ Normal u (quoted expansion) := by
  rw [lexicalQuery_singleton] at hwithin ⊢
  have hor : (query ++ " " ++ "or").length ≤ maxQueryCharacters := by
    rw [String.length_append, String.length_append] at hwithin
    omega
  rw [normal_join hu ((normal_join hu hquery).mpr ⟨normal_or hu, hor⟩)]
  exact and_iff_left hwithin

theorem normal_lexicalQuery (hu : u.Documented) (hne : expansions ≠ []) (hquery : Normal u query)
    (hexpansions : ∀ expansion ∈ expansions, Normal u (quoted expansion))
    (hwithin : (lexicalQuery query expansions).length ≤ maxQueryCharacters) :
    Normal u (lexicalQuery query expansions) := by
  induction expansions generalizing query with
  | nil => exact absurd rfl hne
  | cons expansion expansions ih =>
      have hphrase := hexpansions expansion List.mem_cons_self
      by_cases hlast : expansions = []
      · subst hlast
        exact (normal_lexicalQuery_singleton hu hquery hwithin).mpr hphrase
      · rw [lexicalQuery_cons hlast] at hwithin ⊢
        have hfront := length_le_lexicalQuery.trans hwithin
        exact ih hlast ((normal_lexicalQuery_singleton hu hquery hfront).mpr hphrase)
          (fun other hother => hexpansions other (List.mem_cons_of_mem _ hother)) hwithin

/-- `normalize_query` takes both queries as they are. -/
def Accepted (u : Unicode) (expanded : ExpandedQuery) : Prop :=
  Normal u expanded.searchQuery ∧ Normal u expanded.lexicalQuery

/-- **Both queries are taken as they are, whatever the registry's lists**, exactly when
    the query is and what fits it is, as words and as a phrase. -/
theorem accepted_iff (hu : u.Documented) (registry : List (String × String)) :
    (∀ entries ⊆ registry, Accepted u (expandQuery query entries)) ↔
      Normal u query ∧ ∀ entry ∈ registry, Fits query entry →
        Normal u entry.2 ∧ Normal u (quoted entry.2) := by
  constructor
  · intro hall
    have hquery : Normal u query := by
      have hnone := hall [] (List.nil_subset registry)
      rw [expandQuery_nil rfl] at hnone
      exact hnone.1
    refine ⟨hquery, fun entry hentry hfits => ?_⟩
    have hone := hall [entry] (List.cons_subset.mpr ⟨hentry, List.nil_subset registry⟩)
    rw [expandQuery_cons (expansionsFor_singleton hfits)] at hone
    obtain ⟨hsearch, hlexical⟩ := hone
    refine ⟨?_, (normal_lexicalQuery_singleton hu hquery hfits.lexical).mp hlexical⟩
    dsimp only at hsearch
    rw [searchQuery_cons, searchQuery, String.intercalate_singleton] at hsearch
    exact ((normal_join hu hquery).mp hsearch).1
  · intro ⟨hquery, hregistry⟩ entries hentries
    have happended : Appended query entries (expansionsFor query entries) := appended_expansionsFor
    cases h : expansionsFor query entries with
    | nil =>
        rw [expandQuery_nil h]
        exact ⟨hquery, hquery⟩
    | cons expansion expansions =>
        rw [h] at happended
        rw [expandQuery_cons h]
        obtain ⟨hsearch, hlexical⟩ := happended.within (List.cons_ne_nil _ _)
        have hnormal : ∀ other ∈ expansion :: expansions, Normal u other ∧ Normal u (quoted other) := by
          intro other hother
          obtain ⟨entry, hentry, hfits, rfl⟩ := happended.fits other hother
          exact hregistry entry (hentries hentry) hfits
        refine ⟨normal_searchQuery hu hquery (fun other hother => (hnormal other hother).1) hsearch, ?_⟩
        exact normal_lexicalQuery hu (List.cons_ne_nil _ _) hquery
          (fun other hother => (hnormal other hother).2) hlexical

/-! ## 4. The lexical match -/

/-- Whatever the operands say about a text, it matches the longer query when it matches
    the query. -/
def Broadens (A : Alphabet) (query lexical : String) : Prop :=
  ∀ meaning, DropsOr A meaning → Matches meaning (parse A query.toList) →
    Matches meaning (parse A lexical.toList)

variable {A : Alphabet}

theorem toList_lexicalQuery_singleton : (lexicalQuery query [expansion]).toList =
    query.toList ++ orQuote (expansion.toList ++ [quote]) := by
  rw [lexicalQuery_singleton, quoted]
  simp [orQuote, quote]

theorem toList_lexicalQuery (query expansion : String) (expansions : List String) : ∃ more,
    (lexicalQuery query (expansion :: expansions)).toList = query.toList ++ orQuote more := by
  cases expansions with
  | nil => exact ⟨_, toList_lexicalQuery_singleton⟩
  | cons second rest =>
      refine ⟨expansion.toList ++
        quote :: (" or " ++ " or ".intercalate ((second :: rest).map quoted)).toList, ?_⟩
      rw [lexicalQuery, List.map_cons, List.map_cons, String.intercalate_cons_cons, quoted]
      simp [orQuote, quote]

/-- A query that is settled, or whose last alternative adds nothing, is only broadened. -/
theorem broadens_expandQuery (hA : A.Plain)
    (h : Settled A query.toList ∨ Redundant A query.toList ∨ ∀ entry ∈ entries, ¬Fits query entry) :
    Broadens A query (expandQuery query entries).lexicalQuery := by
  intro meaning hm hmatch
  have happended : Appended query entries (expansionsFor query entries) := appended_expansionsFor
  cases hexpansions : expansionsFor query entries with
  | nil => rwa [expandQuery_nil hexpansions]
  | cons expansion expansions =>
      rw [expandQuery_cons hexpansions]
      obtain ⟨more, hmore⟩ := toList_lexicalQuery query expansion expansions
      dsimp only
      rw [hmore]
      refine matches_append_of hA hm ?_ hmatch
      rw [← or_assoc] at h
      refine h.resolve_right fun hnone => ?_
      obtain ⟨entry, hentry, hfits, -⟩ := happended.fits expansion (by simp [hexpansions])
      exact hnone entry hentry hfits

/-- A plain word that is no operand of the query. -/
def FreshWord (A : Alphabet) (query word : String) : Prop :=
  PlainWord A word.toList ∧ ∀ group ∈ parse A query.toList, ∀ l ∈ group, l.operand.text ≠ word.toList

/-! ## 5. What expansion keeps -/

/-- **What synonym expansion does to a normalized query.** Both queries stay within the
    limit; the lexical match is only broadened where the query is settled, where its last
    alternative adds nothing, or where nothing fits it, and an expansion the query does
    not mention narrows every other; both queries are taken as they are, for all lists
    from a registry, exactly when the query is and whatever fits it in that registry. -/
theorem expansion_law (u : Unicode) (hu : u.Documented) (A : Alphabet) (hA : A.Plain)
    (raw query : String) (hquery : normalizeQuery u raw = .ok query) :
    (∀ entries, (expandQuery query entries).searchQuery.length ≤ maxQueryCharacters ∧
      (expandQuery query entries).lexicalQuery.length ≤ maxQueryCharacters) ∧
    (∀ entries, (Settled A query.toList ∨ Redundant A query.toList ∨
      ∀ entry ∈ entries, ¬Fits query entry) →
        Broadens A query (expandQuery query entries).lexicalQuery) ∧
    (∀ entry, Fits query entry → FreshWord A query entry.2 →
      (Broadens A query (expandQuery query [entry]).lexicalQuery ↔
        Settled A query.toList ∨ Redundant A query.toList)) ∧
    ∀ registry : List (String × String),
      (∀ entries ⊆ registry, Accepted u (expandQuery query entries)) ↔
        Normal u query ∧ ∀ entry ∈ registry, Fits query entry →
          Normal u entry.2 ∧ Normal u (quoted entry.2) := by
  have hwithin : query.length ≤ maxQueryCharacters := (normalizeQuery_eq_ok.mp hquery).2.2
  refine ⟨fun entries => length_expandQuery hwithin, fun entries h => broadens_expandQuery hA h, ?_,
    fun registry => accepted_iff hu registry⟩
  intro entry hfits hfresh
  rw [expandQuery_cons (expansionsFor_singleton hfits)]
  dsimp only [Broadens]
  rw [toList_lexicalQuery_singleton]
  exact matches_append_iff hA hfresh.1 hfresh.2

/-- The characters as PostgreSQL's reader of web searches sees them. -/
def webAlphabet : Alphabet where
  space := isSpace
  ignored c := ['!', '&', '|', '(', ')'].contains c
  wordChar c := c.isAlphanum

theorem webAlphabet_plain : webAlphabet.Plain where
  blank := by decide
  quote := by decide
  word := by decide
  letter c h := by
    rcases h with rfl | rfl | rfl | rfl <;> exact ⟨by decide, by decide⟩

/-- The words of an operand, without the stop word `or`. -/
def lexemes (text : List Char) : List (List Char) :=
  (text.splitOnP fun c => !c.isAlphanum).filter fun word =>
    word ≠ [] && word.map Char.toLower ≠ ['o', 'r']

/-- What the operands say about a text of these words. -/
def textMeaning (document : List (List Char)) : Meaning := fun operand =>
  match lexemes operand.text with
  | [] => none
  | word :: more => some (decide (word :: more <:+: document))

theorem textMeaning_eq_none {document : List (List Char)} {operand : Operand}
    (h : lexemes operand.text = []) : textMeaning document operand = none := by
  rw [textMeaning, h]

theorem isAlphanum_of_space {c : Char} (h : isSpace c = true) : c.isAlphanum = false := by
  rw [Bool.eq_false_iff]
  intro hword
  have hcode : c.toNat = c.val.toNat := rfl
  rw [Char.isAlphanum] at hword
  delta Char.isAlpha at hword
  delta Char.isUpper Char.isLower at hword
  simp only [Char.isDigit, Bool.or_eq_true, Bool.and_eq_true, decide_eq_true_eq, ge_iff_le,
    UInt32.le_iff_toNat_le] at hword
  simp only [isSpace, Bool.or_eq_true, Bool.and_eq_true, decide_eq_true_eq, List.contains_iff_mem,
    List.mem_cons, List.not_mem_nil, or_false, hcode] at h
  simp at hword
  omega

/-- A character between words ends the word before it. -/
theorem lexemes_mark {c : Char} (h : c.isAlphanum = false) (text : List Char) :
    lexemes (text ++ [c]) = lexemes text := by
  rw [lexemes, List.splitOnP_append_cons _ _ (by rw [h]; rfl), List.splitOnP_nil, List.filter_append,
    lexemes]
  simp

theorem textMeaning_dropsOr (document : List (List Char)) :
    DropsOr webAlphabet (textMeaning document) := by
  refine ⟨fun text hstarts hlength => textMeaning_eq_none ?_,
    fun text hblank => textMeaning_eq_none ?_⟩
  · match text, hstarts, hlength with
    | [o, r], hstarts, _ =>
        simp only [orStarts, Bool.and_eq_true, Bool.or_eq_true, decide_eq_true_eq] at hstarts
        obtain ⟨⟨rfl | rfl, rfl | rfl⟩, -⟩ := hstarts <;> decide
    | [o, r, c], hstarts, _ =>
        simp only [orStarts, Bool.and_eq_true, Bool.or_eq_true, decide_eq_true_eq, List.head?_cons,
          Option.any_some, Bool.not_eq_true', Bool.or_eq_false_iff] at hstarts
        obtain ⟨⟨ho, hr⟩, -, hmark⟩ := hstarts
        rw [show [o, r, c] = [o, r] ++ [c] from rfl, lexemes_mark hmark]
        rcases ho with rfl | rfl <;> rcases hr with rfl | rfl <;> decide
  · -- white space holds no word
    induction text using List.reverseRecOn with
    | nil => rfl
    | append_singleton text c ih =>
        rw [lexemes_mark (isAlphanum_of_space (hblank c (by simp)))]
        exact ih fun d hd => hblank d (List.mem_append_left [c] hd)

/-- "vpn" as the approved entry of the registry. -/
def vpnEntry : String × String := ("vpn", "virtual private network")

/-- A settled query is broadened by the registry's entry, and both queries stay as they are. -/
theorem expansion_law_vpn :
    Broadens webAlphabet "vpn slow" (expandQuery "vpn slow" [vpnEntry]).lexicalQuery :=
  (expansion_law narrowTables narrowTables_documented webAlphabet webAlphabet_plain " VPN  slow"
    "vpn slow" (by decide +kernel)).2.1 [vpnEntry] (.inl (by decide +kernel))

/-- **An open quote takes the `or` in**, and a text with both words is no longer found. -/
theorem open_quote_narrows : ¬ ∀ (u : Unicode), u.Documented → ∀ (A : Alphabet), A.Plain →
    ∀ raw query, normalizeQuery u raw = .ok query → ∀ entries,
      Broadens A query (expandQuery query entries).lexicalQuery ∧
      (expandQuery query entries).searchQuery.length ≤ maxQueryCharacters ∧
      (expandQuery query entries).lexicalQuery.length ≤ maxQueryCharacters ∧
      Accepted u (expandQuery query entries) := by
  intro h
  have hbroadens := (h narrowTables narrowTables_documented webAlphabet webAlphabet_plain
    "vpn \x22tunnel" "vpn \x22tunnel" (by decide +kernel) [vpnEntry]).1
  have hlexical : (expandQuery "vpn \x22tunnel" [vpnEntry]).lexicalQuery =
      "vpn \x22tunnel or \x22virtual private network\x22" := by decide +kernel
  rw [hlexical] at hbroadens
  refine absurd (hbroadens (textMeaning ["vpn".toList, "tunnel".toList])
    (textMeaning_dropsOr _) ?_) ?_
  · decide +kernel
  · decide +kernel

end Helpdesk.Retrieval
