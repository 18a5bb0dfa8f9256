/-
  File:      Helpdesk/Retrieval/Fusion.lean
  Subject:   `fuse_candidates` (apps/api/app/retrieval: fusion.py, models.py, and
             `_valid_configuration` of repository.py).

  * `score_nonNegative`: under a valid configuration no score is NaN, so the
    order by score and chunk is one;
  * `candidates_ranked`: among the candidates, those of the two ranked channels
    are what they are without error-code matches;
  * `ordered_matches`: the evidence with matches is the merge of the evidence
    without them and the evidence of the chunks only the matches bring.
-/
import Helpdesk.Lib.Fallible
import Helpdesk.Lib.Ranking
import Helpdesk.Python.Arithmetic
import Helpdesk.Python.Dict
import Helpdesk.Python.Text
import Helpdesk.Python.Uuid

namespace Helpdesk.Retrieval

open Helpdesk.Python

/-! ## 1. Contracts -/

/-- A UUID as the database hands it out. -/
abbrev ChunkId := {id : Uuid // id < 2 ^ 128}

structure RetrievalFilters where
  productCodes : List String
  moduleCodes : List String
  releaseFamilies : List String
  releaseCodes : List String
  languageCodes : List String
  sourceIds : List Uuid
  deriving DecidableEq

inductive CandidateKind where
  | lexical
  | vector
  | errorCode
  deriving DecidableEq

structure RetrievalCandidate where
  rank : Int
  kind : CandidateKind
  chunkId : ChunkId
  documentId : Uuid
  documentVersionId : Uuid
  sourceId : Uuid
  documentTitle : String
  headingPath : Option String
  contentText : String
  languageCode : String
  releaseFamily : Option String
  releaseCode : Option String
  productCode : Option String
  productName : Option String
  moduleCode : Option String
  moduleName : Option String
  sourceType : String
  canonicalUri : String
  sectionTitle : Option String
  sectionAnchor : Option String
  pageNumber : Option Int
  score : PyFloat
  documentType : Option String
  deriving DecidableEq

structure RetrievalConfiguration where
  versionId : Uuid
  rrfK : Int
  lexicalWeight : PyFloat
  vectorWeight : PyFloat
  exactIdentifierBoost : PyFloat
  metadataBoost : PyFloat
  rerankWeight : PyFloat
  rerankingEnabled : Bool
  sourceAuthorityWeights : List (String × PyFloat)
  deriving DecidableEq

structure ScoreComponents where
  lexical : Option PyFloat
  vector : Option PyFloat
  fusion : PyFloat
  exactIdentifierBoost : PyFloat
  metadataBoost : PyFloat
  sourceAuthorityBoost : PyFloat
  rerank : Option PyFloat
  deriving DecidableEq

structure RetrievalEvidence where
  rank : Nat
  chunkId : ChunkId
  documentId : Uuid
  documentVersionId : Uuid
  sourceId : Uuid
  documentTitle : String
  headingPath : Option String
  sectionTitle : Option String
  sectionAnchor : Option String
  contentText : String
  languageCode : String
  releaseFamily : Option String
  releaseCode : Option String
  productCode : Option String
  productName : Option String
  moduleCode : Option String
  moduleName : Option String
  sourceType : String
  canonicalUri : String
  pageNumber : Option Int
  score : PyFloat
  components : ScoreComponents
  documentType : Option String
  deriving DecidableEq

/-- `_valid_configuration` -/
def validConfiguration (configuration : RetrievalConfiguration) : Bool :=
  let bounded := [configuration.lexicalWeight, configuration.vectorWeight,
    configuration.exactIdentifierBoost, configuration.metadataBoost] ++
    configuration.sourceAuthorityWeights.map Prod.snd
  (1 ≤ configuration.rrfK && configuration.rrfK ≤ 1000) &&
    bounded.all (fun value => PyFloat.zero.le value && value.le (.finite 10 0)) &&
    (PyFloat.zero.le configuration.rerankWeight && configuration.rerankWeight.le (.finite 1 0)) &&
    PyFloat.zero.lt (configuration.lexicalWeight.add configuration.vectorWeight) &&
    configuration.sourceAuthorityWeights.length ≤ 20 &&
    configuration.sourceAuthorityWeights.all (fun item => item.1.length ≤ 80)

/-! ## 2. Identifiers -/

def isUpperAscii (c : Char) : Bool := 'A' ≤ c && c ≤ 'Z'

/-- `[A-Z0-9]` -/
def isWordChar (c : Char) : Bool := isUpperAscii c || ('0' ≤ c && c ≤ '9')

/-- `\d`, which takes every decimal digit of Unicode. -/
def isDigit (c : Char) : Bool := (decimalDigit? c).isSome

/-- The lengths a greedy `[..]{low,high}` tries, the longest first. -/
def repeats (accepts : Char → Bool) (low high : Nat) (text : List Char) : List Nat :=
  let longest := min high (text.takeWhile accepts).length
  ((List.range (longest + 1)).filter (low ≤ ·)).reverse

/-- The lengths of the matches at the start of a text, in the order the pattern
    tries them, without what must not follow. -/
def identifierLengths (text : List Char) : List Nat :=
  let separated := (repeats isUpperAscii 2 12 text).flatMap fun letters =>
    match text.drop letters with
    | [] => []
    | c :: rest =>
        if c = '-' ∨ c = '_' ∨ c = ' ' then
          (repeats isDigit 2 12 rest).map fun digits => letters + 1 + digits
        else []
  let joined := (repeats isUpperAscii 3 12 text).flatMap fun letters =>
    (repeats isDigit 3 12 (text.drop letters)).map fun digits => letters + digits
  separated ++ joined

/-- `_IDENTIFIER.match` -/
def identifierLength? (text : List Char) : Option Nat :=
  (identifierLengths text).find? fun n => !((text.drop n).head?.any isWordChar)

/-- `_IDENTIFIER.finditer`: `previous` is the character before the text, `fuel`
    bounds what is left of it. -/
def findIdentifiers : Nat → Option Char → List Char → List (List Char)
  | 0, _, _ => []
  | _, _, [] => []
  | fuel + 1, previous, c :: cs =>
      match if previous.any isWordChar then none else identifierLength? (c :: cs) with
      | some n =>
          (c :: cs).take n ::
            findIdentifiers fuel ((c :: cs).take n).getLast? ((c :: cs).drop n)
      | none => findIdentifiers fuel (some c) cs

/-- One character of `text.upper()`, with the letters that expand to an ASCII letter
    and a mark. -/
def upperExpanded (c : Char) : List Char :=
  match c.toNat with
  | 0x149 => ['\u02bc', 'N']
  | 0x1f0 => ['J', '\u030c']
  | 0x1e96 => ['H', '\u0331']
  | 0x1e97 => ['T', '\u0308']
  | 0x1e98 => ['W', '\u030a']
  | 0x1e99 => ['Y', '\u030a']
  | 0x1e9a => ['A', '\u02be']
  | _ => upperChar c

/-- `_identifiers` -/
def identifiers (value : String) : List String :=
  let text := value.toList.flatMap upperExpanded
  (findIdentifiers text.length none text).map fun found =>
    String.ofList (found.map fun c => if c = ' ' ∨ c = '_' then '-' else c)

example : identifiers "see abc-123, Err 4711 and WXYZ0815" = ["ABC-123", "ERR-4711", "WXYZ0815"] := by
  decide +kernel

/-! ## 3. Scores -/

/-- `min(candidate.score ..)` -/
def minimum (first : PyFloat) (scores : List PyFloat) : PyFloat :=
  scores.foldl (fun best score => if score.lt best then score else best) first

/-- `max(candidate.score ..)` -/
def maximum (first : PyFloat) (scores : List PyFloat) : PyFloat :=
  scores.foldl (fun best score => if best.lt score then score else best) first

/-- `_normalized` -/
def normalized : List RetrievalCandidate → Option (List (ChunkId × PyFloat))
  | [] => some []
  | first :: rest =>
      let low := minimum first.score (rest.map (·.score))
      let high := maximum first.score (rest.map (·.score))
      if high.eq low then
        some (dictOf ((first :: rest).map fun c => (c.chunkId, .finite 1 0)))
      else do
        let pairs ← (first :: rest).mapM fun c => do
          let score ← (c.score.sub low).div? (high.sub low)
          return (c.chunkId, score)
        return dictOf pairs

/-- `_metadata_matches` -/
def metadataMatches (candidate : RetrievalCandidate) (filters : RetrievalFilters) : Nat :=
  let hit : List String → Option String → Nat := fun codes code =>
    if codes ≠ [] ∧ code ∈ codes.map some then 1 else 0
  hit filters.productCodes candidate.productCode + hit filters.moduleCodes candidate.moduleCode +
    hit filters.releaseFamilies candidate.releaseFamily +
    hit filters.releaseCodes candidate.releaseCode

/-- `weight / (rrf_k + rank)` of a channel, zero without a rank in it. -/
def channelScore (weight : PyFloat) (rrfK : Int) (rank : Option Int) : Option PyFloat :=
  match rank with
  | none => some .zero
  | some rank => do weight.div? (← PyFloat.ofInt? (rrfK + rank))

/-- `fusion / maximum_fusion if maximum_fusion else 0.0` -/
def relative (fusion maximumFusion : PyFloat) : Option PyFloat :=
  if maximumFusion.isZero then some .zero else fusion.div? maximumFusion

/-- The text in which a candidate's identifiers are looked for. -/
def searchedText (candidate : RetrievalCandidate) : String :=
  " ".intercalate ([some candidate.documentTitle, candidate.headingPath, candidate.sectionTitle,
    some candidate.contentText].filterMap fun part => part.filter (· ≠ ""))

/-- What `fuse_candidates` computes before it goes through the candidates. -/
structure Channels where
  lexicalScores : List (ChunkId × PyFloat)
  vectorScores : List (ChunkId × PyFloat)
  lexicalRanks : List (ChunkId × Int)
  vectorRanks : List (ChunkId × Int)
  maximumFusion : PyFloat

def channels (lexical vector : List RetrievalCandidate) (configuration : RetrievalConfiguration) :
    Option Channels := do
  let lexicalScores ← normalized lexical
  let vectorScores ← normalized vector
  let maximumFusion ← (configuration.lexicalWeight.add configuration.vectorWeight).div?
    (← PyFloat.ofInt? (configuration.rrfK + 1))
  return {
    lexicalScores := lexicalScores
    vectorScores := vectorScores
    maximumFusion := maximumFusion
    lexicalRanks := dictOf (lexical.map fun c => (c.chunkId, c.rank))
    vectorRanks := dictOf (vector.map fun c => (c.chunkId, c.rank)) }

/-- `base` and `final`. -/
def finalScore (configuration : RetrievalConfiguration) (fusion identifier metadata authority : PyFloat)
    (rerank : Option PyFloat) : PyFloat :=
  let base := ((fusion.add identifier).add metadata).add authority
  match rerank with
  | some rerank =>
      (((PyFloat.finite 1 0).sub configuration.rerankWeight).mul base).add
        (configuration.rerankWeight.mul rerank)
  | none => base

/-- One item of `results`. -/
def evidenceOf (query : String) (ch : Channels) (filters : RetrievalFilters)
    (configuration : RetrievalConfiguration) (rerankScores : List (ChunkId × PyFloat))
    (item : ChunkId × RetrievalCandidate) : Option RetrievalEvidence := do
  let (chunkId, candidate) := item
  let lexicalPart ←
    channelScore configuration.lexicalWeight configuration.rrfK (item? ch.lexicalRanks chunkId)
  let vectorPart ←
    channelScore configuration.vectorWeight configuration.rrfK (item? ch.vectorRanks chunkId)
  let fusion ← relative (lexicalPart.add vectorPart) ch.maximumFusion
  let identifierBoost :=
    if (identifiers query).any (· ∈ identifiers (searchedText candidate)) then
      configuration.exactIdentifierBoost else .zero
  let metadataBoost :=
    configuration.metadataBoost.mul (.finite (metadataMatches candidate filters) 0)
  let authorityBoost := (item? configuration.sourceAuthorityWeights candidate.sourceType).getD .zero
  let rerank := item? rerankScores chunkId
  return {
    rank := 0, chunkId := chunkId, documentId := candidate.documentId,
    documentVersionId := candidate.documentVersionId, sourceId := candidate.sourceId,
    documentTitle := candidate.documentTitle, headingPath := candidate.headingPath,
    sectionTitle := candidate.sectionTitle, sectionAnchor := candidate.sectionAnchor,
    contentText := candidate.contentText, languageCode := candidate.languageCode,
    releaseFamily := candidate.releaseFamily, releaseCode := candidate.releaseCode,
    productCode := candidate.productCode, productName := candidate.productName,
    moduleCode := candidate.moduleCode, moduleName := candidate.moduleName,
    sourceType := candidate.sourceType, canonicalUri := candidate.canonicalUri,
    pageNumber := candidate.pageNumber,
    score := finalScore configuration fusion identifierBoost metadataBoost authorityBoost rerank,
    components := {
      lexical := item? ch.lexicalScores chunkId, vector := item? ch.vectorScores chunkId,
      fusion := fusion, exactIdentifierBoost := identifierBoost, metadataBoost := metadataBoost,
      sourceAuthorityBoost := authorityBoost, rerank := rerank },
    documentType := candidate.documentType }

/-! ## 4. Order and limit -/

/-- `a <= b` of the sort keys `(-score, str(chunk_id))`: `b` is not before `a`. -/
def precedes (a b : RetrievalEvidence) : Bool :=
  !(if b.score.neg.eq a.score.neg then uuidText b.chunkId < uuidText a.chunkId
    else b.score.neg.lt a.score.neg)

/-- `values[:limit]` -/
def firstItems {α : Type} (limit : Int) (values : List α) : List α :=
  if 0 ≤ limit then values.take limit.toNat else values.take (values.length - limit.natAbs)

/-- `replace(item, rank=rank)` over `enumerate(ordered, start=1)` -/
def numbered (items : List RetrievalEvidence) : List RetrievalEvidence :=
  items.zipIdx.map fun p => { p.1 with rank := p.2 + 1 }

/-- The candidates by chunk: matches first, the ranked channels over them. -/
def candidatesByChunk (lexical vector errorCodeMatches : List RetrievalCandidate) :
    List (ChunkId × RetrievalCandidate) :=
  dictOf ((errorCodeMatches ++ lexical ++ vector).map fun c => (c.chunkId, c))

/-- The sorted results, before the limit. -/
def orderedEvidence (query : String) (lexical vector : List RetrievalCandidate)
    (filters : RetrievalFilters) (configuration : RetrievalConfiguration)
    (rerankScores : List (ChunkId × PyFloat)) (errorCodeMatches : List RetrievalCandidate) :
    Option (List RetrievalEvidence) := do
  let ch ← channels lexical vector configuration
  let results ← (candidatesByChunk lexical vector errorCodeMatches).mapM
    (evidenceOf query ch filters configuration rerankScores)
  return results.mergeSort precedes

/-- `fuse_candidates`; `none` is an arithmetic exception, and without a reranker
    `rerankScores` is empty. -/
def fuseCandidates (query : String) (lexical vector : List RetrievalCandidate)
    (filters : RetrievalFilters) (configuration : RetrievalConfiguration)
    (rerankScores : List (ChunkId × PyFloat)) (errorCodeMatches : List RetrievalCandidate)
    (limit : Int) : Option (List RetrievalEvidence) := do
  let ordered ←
    orderedEvidence query lexical vector filters configuration rerankScores errorCodeMatches
  return numbered (firstItems limit ordered)

/-! ## 5. The candidates of the ranked channels -/

variable {lexical vector errorCodeMatches : List RetrievalCandidate}

/-- The chunks of the lexical and the vector channel. -/
def rankedChunks (lexical vector : List RetrievalCandidate) : List ChunkId :=
  (lexical ++ vector).map (·.chunkId)

theorem nodup_candidates (lexical vector errorCodeMatches : List RetrievalCandidate) :
    ((candidatesByChunk lexical vector errorCodeMatches).map Prod.fst).Nodup :=
  nodup_dictOf _

theorem mem_chunks_candidates {id : ChunkId} :
    id ∈ (candidatesByChunk lexical vector errorCodeMatches).map Prod.fst ↔
      id ∈ (errorCodeMatches ++ lexical ++ vector).map (·.chunkId) := by
  rw [candidatesByChunk, mem_keys_dictOf, List.map_map]
  rfl

/-- **Among the candidates, those of the two ranked channels are what they are
    without error-code matches.** -/
theorem candidates_ranked (lexical vector errorCodeMatches : List RetrievalCandidate) :
    ((candidatesByChunk lexical vector errorCodeMatches).filter
        fun item => item.1 ∈ rankedChunks lexical vector).Perm
      (candidatesByChunk lexical vector []) := by
  have hnodup := nodup_candidates lexical vector errorCodeMatches
  have hplain := nodup_candidates lexical vector []
  have hitem : ∀ key, item? (candidatesByChunk lexical vector errorCodeMatches) key =
      (item? (candidatesByChunk lexical vector []) key).or
        (item? (dictOf (errorCodeMatches.map fun c => (c.chunkId, c))) key) := by
    intro key
    rw [candidatesByChunk, List.append_assoc, List.map_append, item?_dictOf_append]
    rfl
  refine (List.perm_ext_iff_of_nodup ((List.Nodup.of_map _ hnodup).filter _)
    (List.Nodup.of_map _ hplain)).mpr ?_
  rintro ⟨id, candidate⟩
  rw [List.mem_filter, mem_iff_item? hnodup, mem_iff_item? hplain, hitem, decide_eq_true_iff]
  have hkey : id ∈ rankedChunks lexical vector ↔
      item? (candidatesByChunk lexical vector []) id ≠ none := by
    rw [ne_eq, item?_eq_none, not_not, mem_chunks_candidates]
    rfl
  rw [hkey]
  cases item? (candidatesByChunk lexical vector []) id with
  | none => simp
  | some c => simp

/-! ## 6. Scores are numbers -/

section Scores

variable {query : String} {ch : Channels} {filters : RetrievalFilters}
  {configuration : RetrievalConfiguration} {item : ChunkId × RetrievalCandidate}
  {evidence : RetrievalEvidence}

/-- What a weight between zero and ten is. -/
structure Weight (x : PyFloat) : Prop where
  nonNegative : x.NonNegative
  value : ∃ a, x.value? = some a ∧ 0 ≤ a ∧ a ≤ 10

theorem Weight.finite {x : PyFloat} (h : Weight x) : x.Finite := by
  obtain ⟨a, ha, -⟩ := h.value
  exact Option.isSome_iff_exists.mpr ⟨a, ha⟩

theorem weight_of_bounded {x : PyFloat}
    (h : (PyFloat.zero.le x && x.le (.finite 10 0)) = true) : Weight x := by
  rw [Bool.and_eq_true] at h
  have hx : x.NonNegative := h.1
  refine ⟨hx, ?_⟩
  rcases PyFloat.nonNegative_iff.mp hx with ⟨m, e, rfl, -⟩ | rfl | rfl
  · refine ⟨_, rfl, hx.value rfl, ?_⟩
    simpa [PyFloat.le, PyFloat.compare, PyFloat.order?, Prod.Lex.toLex_le_toLex] using h.2
  · exact ⟨0, rfl, le_refl _, by norm_num⟩
  · exact absurd h.2 (by decide +kernel)

/-- What a valid configuration promises. -/
structure Valid (configuration : RetrievalConfiguration) : Prop where
  rrfK : 1 ≤ configuration.rrfK ∧ configuration.rrfK ≤ 1000
  lexicalWeight : Weight configuration.lexicalWeight
  vectorWeight : Weight configuration.vectorWeight
  exactIdentifierBoost : Weight configuration.exactIdentifierBoost
  metadataBoost : Weight configuration.metadataBoost
  authority : ∀ item ∈ configuration.sourceAuthorityWeights, Weight item.2

theorem valid_of_validConfiguration (h : validConfiguration configuration = true) :
    Valid configuration := by
  simp only [validConfiguration, Bool.and_eq_true, decide_eq_true_eq] at h
  obtain ⟨⟨⟨⟨⟨hrrf, hbounded⟩, -⟩, -⟩, -⟩, -⟩ := h
  have hweight := fun x hx => weight_of_bounded (List.all_eq_true.mp hbounded x hx)
  exact ⟨hrrf, hweight _ (by simp), hweight _ (by simp), hweight _ (by simp), hweight _ (by simp),
    fun item hitem => hweight _ (List.mem_append_right _ (List.mem_map_of_mem hitem))⟩

/-- The sum of two weights. -/
theorem Weight.add_value {x y : PyFloat} (hx : Weight x) (hy : Weight y) :
    ∃ a, (x.add y).value? = some a ∧ 0 ≤ a ∧ a ≤ 41 := by
  have hround : ∀ q : ℚ, 0 ≤ q → q ≤ 20 → ∃ a, (PyFloat.ofRat q).value? = some a ∧ 0 ≤ a ∧ a ≤ 41 := by
    intro q hq hle
    obtain ⟨a, ha, -, hup⟩ := PyFloat.value_ofRat hq (hle.trans (by norm_num))
    exact ⟨a, ha, (PyFloat.nonNegative_ofRat hq).value ha, by linarith⟩
  obtain ⟨a, ha, ha0, ha1⟩ := hx.value
  obtain ⟨b, hb, hb0, hb1⟩ := hy.value
  cases x with
  | finite m e =>
      obtain rfl := Option.some.inj ha
      cases y with
      | finite m' e' =>
          obtain rfl := Option.some.inj hb
          exact hround _ (add_nonneg ha0 hb0) (by linarith)
      | negZero => exact hround _ ha0 (by linarith)
      | inf negative => cases hb
      | nan => cases hb
  | negZero =>
      cases y with
      | finite m' e' =>
          obtain rfl := Option.some.inj hb
          exact hround _ hb0 (by linarith)
      | negZero => exact ⟨0, rfl, le_refl _, by norm_num⟩
      | inf negative => cases hb
      | nan => cases hb
  | inf negative => cases ha
  | nan => cases ha

/-- The largest fusion is finite. -/
theorem maximumFusion_finite (hvalid : Valid configuration)
    (h : channels lexical vector configuration = some ch) :
    ch.maximumFusion.NonNegative ∧ ch.maximumFusion.Finite := by
  simp only [channels, Option.bind_eq_bind, Option.bind_eq_some_iff] at h
  obtain ⟨_, -, _, -, n, hn, top, htop, hch⟩ := h
  obtain rfl := Option.some.inj hch
  have hrrf : 1 ≤ configuration.rrfK + 1 := by have := hvalid.rrfK.1; omega
  have hsum := hvalid.lexicalWeight.nonNegative.add hvalid.vectorWeight.nonNegative
  have hnn := PyFloat.nonNegative_ofInt? (by omega) hn
  refine ⟨hsum.div hnn (PyFloat.finite_ofInt? hn) htop, ?_⟩
  obtain ⟨a, ha, ha0, ha1⟩ := hvalid.lexicalWeight.add_value hvalid.vectorWeight
  have hcast : (1 : ℚ) ≤ (configuration.rrfK + 1 : Int) := by exact_mod_cast hrrf
  have hlarge : ((configuration.rrfK + 1 : Int) : ℚ) ≤ 2 ^ 100 := by
    have hthousand : ((configuration.rrfK + 1 : Int) : ℚ) ≤ 1001 := by
      have := hvalid.rrfK.2
      exact_mod_cast (by omega : configuration.rrfK + 1 ≤ 1001)
    exact hthousand.trans (by norm_num)
  obtain ⟨b, hb, hlow⟩ := PyFloat.value_ofInt? (by omega) hlarge hn
  have hquarter : (1 / 4 : ℚ) ≤ b := by linarith
  have hratio : a / b ≤ 2 ^ 100 := by
    rw [div_le_iff₀ (by linarith)]
    nlinarith
  exact PyFloat.finite_div ha hb (div_nonneg ha0 (by linarith)) hratio htop

/-- What a channel contributes is not negative. -/
theorem channelScore_nonNegative {weight score : PyFloat} {rank : Option Int}
    (hweight : Weight weight) (hrank : ∀ r, rank = some r → 0 ≤ configuration.rrfK + r)
    (h : channelScore weight configuration.rrfK rank = some score) : score.NonNegative := by
  cases rank with
  | none =>
      obtain rfl := Option.some.inj h
      decide +kernel
  | some r =>
      obtain ⟨n, hn, hdiv⟩ := Option.bind_eq_some_iff.mp h
      exact hweight.nonNegative.div (PyFloat.nonNegative_ofInt? (hrank r rfl) hn)
        (PyFloat.finite_ofInt? hn) hdiv

/-- The ranks of the channels are those of their candidates. -/
theorem ranks_pos (hranks : ∀ c ∈ lexical ++ vector, 1 ≤ c.rank)
    (h : channels lexical vector configuration = some ch) (id : ChunkId) :
    (∀ r, item? ch.lexicalRanks id = some r → 1 ≤ r) ∧
      ∀ r, item? ch.vectorRanks id = some r → 1 ≤ r := by
  have hchannel : ∀ (cs : List RetrievalCandidate), (∀ c ∈ cs, 1 ≤ c.rank) → ∀ r,
      item? (dictOf (cs.map fun c => (c.chunkId, c.rank))) id = some r → 1 ≤ r := by
    intro cs hcs
    induction cs using List.reverseRecOn with
    | nil => exact fun r hr => nomatch hr
    | append_singleton cs c ih =>
        intro r hr
        rw [List.map_append, List.map_singleton, dictOf_concat, item?_assign] at hr
        split_ifs at hr
        · rw [← Option.some.inj hr]
          exact hcs c (List.mem_append_right _ (List.mem_singleton_self c))
        · exact ih (fun c' hc' => hcs c' (List.mem_append_left _ hc')) r hr
  simp only [channels, Option.bind_eq_bind, Option.bind_eq_some_iff] at h
  obtain ⟨_, -, _, -, _, -, _, -, hch⟩ := h
  obtain rfl := Option.some.inj hch
  exact ⟨hchannel lexical fun c hc => hranks c (List.mem_append_left _ hc),
    hchannel vector fun c hc => hranks c (List.mem_append_right _ hc)⟩

/-- **Without a reranker every score is a number.** -/
theorem score_nonNegative (hvalid : Valid configuration)
    (hranks : ∀ c ∈ lexical ++ vector, 1 ≤ c.rank)
    (hch : channels lexical vector configuration = some ch)
    (h : evidenceOf query ch filters configuration [] item = some evidence) :
    evidence.score.NonNegative := by
  obtain ⟨hlexical, hvector⟩ := ranks_pos hranks hch item.1
  obtain ⟨hmax, hmaxFinite⟩ := maximumFusion_finite hvalid hch
  have hrrf := hvalid.rrfK.1
  have hzero : PyFloat.zero.NonNegative := by decide +kernel
  simp only [evidenceOf, Option.bind_eq_bind, Option.bind_eq_some_iff] at h
  obtain ⟨lexicalPart, hl, vectorPart, hv, fusion, hfusion, hevidence⟩ := h
  obtain rfl := Option.some.inj hevidence
  have hparts : (lexicalPart.add vectorPart).NonNegative :=
    (channelScore_nonNegative hvalid.lexicalWeight
      (fun r hr => by have := hlexical r hr; omega) hl).add
    (channelScore_nonNegative hvalid.vectorWeight
      (fun r hr => by have := hvector r hr; omega) hv)
  have hfused : fusion.NonNegative := by
    unfold relative at hfusion
    split_ifs at hfusion
    · exact Option.some.inj hfusion ▸ hzero
    · exact hparts.div hmax hmaxFinite hfusion
  have hmatches : (PyFloat.finite (metadataMatches item.2 filters) 0).NonNegative :=
    PyFloat.nonNegative_iff.mpr (.inl ⟨_, _, rfl, Int.natCast_nonneg _⟩)
  have hmetadata := hvalid.metadataBoost.nonNegative.mul hmatches hvalid.metadataBoost.finite rfl
  have hauthority :
      ((item? configuration.sourceAuthorityWeights item.2.sourceType).getD .zero).NonNegative := by
    cases hitem : item? configuration.sourceAuthorityWeights item.2.sourceType with
    | none => exact hzero
    | some w => exact (hvalid.authority _ (mem_of_item? hitem)).nonNegative
  refine ((hfused.add ?_).add hmetadata).add hauthority
  split_ifs
  · exact hvalid.exactIdentifierBoost.nonNegative
  · exact hzero

end Scores

/-! ## 7. The order of the evidence -/

theorem neg_order? : ∀ {x : PyFloat} {i : Int} {q : ℚ}, x.order? = some (toLex (i, q)) →
    x.neg.order? = some (toLex (-i, -q))
  | .finite m e, i, q, h => by
      obtain ⟨rfl, rfl⟩ := Prod.mk.inj (toLex.injective (Option.some.inj h))
      by_cases hm : m = 0
      · simp [PyFloat.neg, PyFloat.order?, hm]
      · simp [PyFloat.neg, PyFloat.order?, hm]
  | .negZero, i, q, h => by
      obtain ⟨rfl, rfl⟩ := Prod.mk.inj (toLex.injective (Option.some.inj h))
      simp [PyFloat.neg, PyFloat.zero, PyFloat.order?]
  | .inf negative, i, q, h => by
      obtain ⟨rfl, rfl⟩ := Prod.mk.inj (toLex.injective (Option.some.inj h))
      cases negative <;> simp [PyFloat.neg, PyFloat.order?]

theorem order?_of_nonNegative {x : PyFloat} (h : x.NonNegative) : ∃ k, x.order? = some k := by
  rcases PyFloat.nonNegative_iff.mp h with ⟨m, e, rfl, -⟩ | rfl | rfl
  · exact ⟨_, rfl⟩
  · exact ⟨_, rfl⟩
  · exact ⟨_, rfl⟩

/-- **`precedes` is the order by score, the higher one first, and then by the
    chunk's text.** -/
theorem precedes_iff {a b : RetrievalEvidence} {ka kb : Int ×ₗ ℚ} (ha : a.score.order? = some ka)
    (hb : b.score.order? = some kb) :
    precedes a b = true ↔ kb < ka ∨ ka = kb ∧ uuidText a.chunkId ≤ uuidText b.chunkId := by
  obtain ⟨⟨i, q⟩, rfl⟩ := toLex.surjective ka
  obtain ⟨⟨j, r⟩, rfl⟩ := toLex.surjective kb
  have hlt : toLex (-j, -r) < toLex (-i, -q) ↔ toLex (i, q) < toLex (j, r) := by
    simp only [Prod.Lex.toLex_lt_toLex, neg_lt_neg_iff, neg_inj]
    exact or_congr_right ⟨fun h => ⟨h.1.symm, h.2⟩, fun h => ⟨h.1.symm, h.2⟩⟩
  have heq : toLex (-j, -r) = toLex (-i, -q) ↔ toLex (i, q) = toLex (j, r) := by
    simp only [EmbeddingLike.apply_eq_iff_eq, Prod.mk.injEq, neg_inj]
    exact ⟨fun h => ⟨h.1.symm, h.2.symm⟩, fun h => ⟨h.1.symm, h.2.symm⟩⟩
  simp only [precedes, PyFloat.eq, PyFloat.lt, PyFloat.compare, neg_order? ha, neg_order? hb,
    decide_eq_true_eq, heq, hlt]
  by_cases hkey : toLex (i, q) = toLex (j, r)
  · simp only [hkey, if_true, lt_self_iff_false, false_or, true_and, Bool.not_eq_true',
      decide_eq_false_iff_not]
    exact String.not_lt
  · have hne : toLex (i, q) ≠ toLex (j, r) := hkey
    simp only [hkey, if_false, false_and, or_false, Bool.not_eq_true', decide_eq_false_iff_not, not_lt]
    exact ⟨fun h => lt_of_le_of_ne h (Ne.symm hne), le_of_lt⟩

variable {results : List RetrievalEvidence}

/-- **On evidence whose scores are numbers and whose chunks differ, `precedes` is an
    order.** -/
theorem ordersOn_precedes (hscores : ∀ e ∈ results, e.score.NonNegative)
    (hnodup : (results.map (·.chunkId)).Nodup) : OrdersOn precedes (· ∈ results) where
  trans := by
    intro a b c ha hb hc hab hbc
    obtain ⟨ka, hka⟩ := order?_of_nonNegative (hscores a ha)
    obtain ⟨kb, hkb⟩ := order?_of_nonNegative (hscores b hb)
    obtain ⟨kc, hkc⟩ := order?_of_nonNegative (hscores c hc)
    rw [precedes_iff hka hkb] at hab
    rw [precedes_iff hkb hkc] at hbc
    rw [precedes_iff hka hkc]
    rcases hab with hab | ⟨rfl, hab⟩
    · rcases hbc with hbc | ⟨rfl, -⟩
      · exact .inl (hbc.trans hab)
      · exact .inl hab
    · rcases hbc with hbc | ⟨rfl, hbc⟩
      · exact .inl hbc
      · exact .inr ⟨rfl, String.le_trans hab hbc⟩
  total := by
    intro a b ha hb
    obtain ⟨ka, hka⟩ := order?_of_nonNegative (hscores a ha)
    obtain ⟨kb, hkb⟩ := order?_of_nonNegative (hscores b hb)
    rw [Bool.or_eq_true, precedes_iff hka hkb, precedes_iff hkb hka]
    rcases lt_trichotomy ka kb with h | rfl | h
    · exact .inr (.inl h)
    · exact (String.le_total (uuidText a.chunkId) (uuidText b.chunkId)).imp
        (fun hle => .inr ⟨rfl, hle⟩) fun hle => .inr ⟨rfl, hle⟩
    · exact .inl (.inl h)
  antisymm := by
    intro a b ha hb hab hba
    obtain ⟨ka, hka⟩ := order?_of_nonNegative (hscores a ha)
    obtain ⟨kb, hkb⟩ := order?_of_nonNegative (hscores b hb)
    rw [precedes_iff hka hkb] at hab
    rw [precedes_iff hkb hka] at hba
    have htext : uuidText a.chunkId = uuidText b.chunkId := by
      rcases hab with hab | ⟨rfl, hab⟩
      · rcases hba with hba | ⟨rfl, -⟩
        · exact absurd hba (lt_asymm hab)
        · exact absurd hab (lt_irrefl _)
      · rcases hba with hba | ⟨-, hba⟩
        · exact absurd hba (lt_irrefl _)
        · exact String.le_antisymm hab hba
    have hid : a.chunkId = b.chunkId :=
      Subtype.ext (uuidText_injective a.chunkId.2 b.chunkId.2 htext)
    exact List.inj_on_of_nodup_map hnodup ha hb hid

/-! ## 8. Error-code matches -/

/-- A test on the chunk can be made before the evidence is shaped. -/
theorem evidence_chunk {query : String} {ch : Channels} {filters : RetrievalFilters}
    {configuration : RetrievalConfiguration} {rerankScores : List (ChunkId × PyFloat)}
    {item : ChunkId × RetrievalCandidate} {e : RetrievalEvidence}
    (h : evidenceOf query ch filters configuration rerankScores item = some e) :
    e.chunkId = item.1 := by
  simp only [evidenceOf, Option.bind_eq_bind, Option.bind_eq_some_iff] at h
  obtain ⟨_, -, _, -, _, -, he⟩ := h
  rw [← Option.some.inj he]

/-- A chunk without a rank in either channel cannot make the fusion fail. -/
theorem unranked_isSome {query : String} {ch : Channels} {filters : RetrievalFilters}
    {configuration : RetrievalConfiguration} {rerankScores : List (ChunkId × PyFloat)}
    {item : ChunkId × RetrievalCandidate} (hl : item? ch.lexicalRanks item.1 = none)
    (hv : item? ch.vectorRanks item.1 = none) :
    (evidenceOf query ch filters configuration rerankScores item).isSome = true := by
  have hfusion : (relative (PyFloat.zero.add .zero) ch.maximumFusion).isSome = true := by
    unfold relative
    split_ifs with hzero
    · rfl
    · rw [PyFloat.div?, if_neg hzero]
      rfl
  obtain ⟨fusion, hf⟩ := Option.isSome_iff_exists.mp hfusion
  simp only [evidenceOf, hl, hv, channelScore, Option.bind_eq_bind, Option.bind_some, hf]
  rfl

theorem ranks_eq_none {ch : Channels} {configuration : RetrievalConfiguration}
    (h : channels lexical vector configuration = some ch) {id : ChunkId}
    (hid : id ∉ rankedChunks lexical vector) :
    item? ch.lexicalRanks id = none ∧ item? ch.vectorRanks id = none := by
  have hchannel : ∀ cs : List RetrievalCandidate, id ∉ cs.map (·.chunkId) →
      item? (dictOf (cs.map fun c => (c.chunkId, c.rank))) id = none := by
    intro cs hcs
    rw [item?_eq_none, mem_keys_dictOf, List.map_map]
    exact hcs
  rw [rankedChunks, List.map_append, List.mem_append, not_or] at hid
  simp only [channels, Option.bind_eq_bind, Option.bind_eq_some_iff] at h
  obtain ⟨_, -, _, -, _, -, _, -, hch⟩ := h
  obtain rfl := Option.some.inj hch
  exact ⟨hchannel lexical hid.1, hchannel vector hid.2⟩

/-- **What error-code matches leave alone**: `plain` is the evidence of the ranked
    channels, `merged` the evidence of all three. -/
structure Undisturbed (lexical vector errorCodeMatches : List RetrievalCandidate)
    (plain merged : List RetrievalEvidence) : Prop where
  /-- every field of the ranked chunks, their scores and their order -/
  ranked : (merged.filter fun e => e.chunkId ∈ rankedChunks lexical vector) = plain
  merge : merged =
    plain.merge (merged.filter fun e => e.chunkId ∉ rankedChunks lexical vector) precedes
  /-- by descending score, then by chunk -/
  order : merged.Pairwise fun a b => b.score.lt a.score = true ∨
    a.score.eq b.score = true ∧ uuidText a.chunkId ≤ uuidText b.chunkId
  chunks : ∀ id, id ∈ merged.map (·.chunkId) ↔
    id ∈ (errorCodeMatches ++ lexical ++ vector).map (·.chunkId)
  once : (merged.map (·.chunkId)).Nodup

section Matches

variable {query : String} {filters : RetrievalFilters} {configuration : RetrievalConfiguration}

theorem orderedEvidence_eq_some {rerankScores : List (ChunkId × PyFloat)}
    {merged : List RetrievalEvidence} :
    orderedEvidence query lexical vector filters configuration rerankScores errorCodeMatches =
        some merged ↔
      ∃ ch, channels lexical vector configuration = some ch ∧
        (∀ item ∈ candidatesByChunk lexical vector errorCodeMatches,
          (evidenceOf query ch filters configuration rerankScores item).isSome = true) ∧
        merged = ((candidatesByChunk lexical vector errorCodeMatches).filterMap
          (evidenceOf query ch filters configuration rerankScores)).mergeSort precedes := by
  simp only [orderedEvidence, Option.bind_eq_bind, Option.bind_eq_some_iff,
    mapM_option_iff_filterMap]
  constructor
  · rintro ⟨ch, hch, results, ⟨hall, rfl⟩, hmerged⟩
    exact ⟨ch, hch, hall, (Option.some.inj hmerged).symm⟩
  · rintro ⟨ch, hch, hall, rfl⟩
    exact ⟨ch, hch, _, ⟨hall, rfl⟩, rfl⟩

/-- Matches neither cause nor prevent an exception. -/
theorem isSome_iff_matches :
    (orderedEvidence query lexical vector filters configuration [] errorCodeMatches).isSome =
      (orderedEvidence query lexical vector filters configuration [] []).isSome := by
  rw [Bool.eq_iff_iff, Option.isSome_iff_exists, Option.isSome_iff_exists]
  simp only [orderedEvidence_eq_some]
  have hranked := candidates_ranked lexical vector errorCodeMatches
  constructor
  · rintro ⟨_, ch, hch, hall, -⟩
    exact ⟨_, ch, hch, fun item hitem =>
      hall item (List.mem_filter.mp (hranked.mem_iff.mpr hitem)).1, rfl⟩
  · rintro ⟨_, ch, hch, hall, -⟩
    refine ⟨_, ch, hch, fun item hitem => ?_, rfl⟩
    by_cases hid : item.1 ∈ rankedChunks lexical vector
    · exact hall item (hranked.mem_iff.mp (List.mem_filter.mpr ⟨hitem, decide_eq_true hid⟩))
    · obtain ⟨hl, hv⟩ := ranks_eq_none hch hid
      exact unranked_isSome hl hv

/-- The shaped evidence: each chunk once, and the ranked chunks' evidence apart. -/
theorem filterMap_filter {ch : Channels} {items : List (ChunkId × RetrievalCandidate)} :
    (items.filterMap (evidenceOf query ch filters configuration [])).filter
        (fun e => e.chunkId ∈ rankedChunks lexical vector) =
      (items.filter fun item => item.1 ∈ rankedChunks lexical vector).filterMap
        (evidenceOf query ch filters configuration []) := by
  rw [List.filter_filterMap, List.filterMap_filter]
  refine List.filterMap_congr fun item _ => ?_
  cases he : evidenceOf query ch filters configuration [] item with
  | none => simp
  | some e =>
      rw [Option.filter_some, evidence_chunk he]

theorem chunks_filterMap {ch : Channels} {items : List (ChunkId × RetrievalCandidate)}
    (hall : ∀ item ∈ items,
      (evidenceOf query ch filters configuration [] item).isSome = true) :
    (items.filterMap (evidenceOf query ch filters configuration [])).map (·.chunkId) =
      items.map Prod.fst := by
  induction items with
  | nil => rfl
  | cons item items ih =>
      rw [List.forall_mem_cons] at hall
      obtain ⟨e, he⟩ := Option.isSome_iff_exists.mp hall.1
      rw [List.filterMap_cons_some he, List.map_cons, List.map_cons, ih hall.2, evidence_chunk he]

/-- **Error-code matches leave the ranked channels alone.** -/
theorem ordered_matches (hvalid : Valid configuration)
    (hranks : ∀ c ∈ lexical ++ vector, 1 ≤ c.rank) {plain merged : List RetrievalEvidence}
    (hplain : orderedEvidence query lexical vector filters configuration [] [] = some plain)
    (hmerged : orderedEvidence query lexical vector filters configuration [] errorCodeMatches =
      some merged) :
    Undisturbed lexical vector errorCodeMatches plain merged := by
  obtain ⟨ch, hch, hall, hm⟩ := orderedEvidence_eq_some.mp hmerged
  obtain ⟨ch', hch', -, hp⟩ := orderedEvidence_eq_some.mp hplain
  obtain rfl : ch = ch' := Option.some.inj (hch.symm.trans hch')
  generalize hresults : (candidatesByChunk lexical vector errorCodeMatches).filterMap
    (evidenceOf query ch filters configuration []) = results at hm
  have hchunks : results.map (·.chunkId) =
      (candidatesByChunk lexical vector errorCodeMatches).map Prod.fst :=
    hresults ▸ chunks_filterMap hall
  have hnodup : (results.map (·.chunkId)).Nodup := hchunks ▸ nodup_candidates _ _ _
  have hscores : ∀ e ∈ results, e.score.NonNegative := by
    intro e he
    rw [← hresults] at he
    obtain ⟨item, -, hitem⟩ := List.mem_filterMap.mp he
    exact score_nonNegative hvalid hranks hch hitem
  have horder := ordersOn_precedes hscores hnodup
  have hperm : (results.filter fun e => e.chunkId ∈ rankedChunks lexical vector).Perm
      ((candidatesByChunk lexical vector []).filterMap
        (evidenceOf query ch filters configuration [])) := by
    rw [← hresults, filterMap_filter]
    exact (candidates_ranked lexical vector errorCodeMatches).filterMap _
  have hranked : (merged.filter fun e => e.chunkId ∈ rankedChunks lexical vector) = plain := by
    rw [hm, horder.filter_mergeSort, hp]
    exact (horder.mono fun _ he => (List.mem_filter.mp he).1).mergeSort_perm hperm
  have hsorted := horder.pairwise_mergeSort
  rw [← hm] at hsorted
  have hperm' : merged.Perm results := hm ▸ List.mergeSort_perm results precedes
  refine ⟨hranked, ?_, ?_, ?_, (hperm'.map _).nodup_iff.mpr hnodup⟩
  · have hsplit := horder.mergeSort_eq_merge fun e => e.chunkId ∈ rankedChunks lexical vector
    rw [← hm, ← horder.filter_mergeSort, ← horder.filter_mergeSort, ← hm, hranked] at hsplit
    simpa only [decide_not] using hsplit
  · refine hsorted.imp_of_mem fun {a b} ha hb hab => ?_
    obtain ⟨ka, hka⟩ := order?_of_nonNegative (hscores a (hperm'.mem_iff.mp ha))
    obtain ⟨kb, hkb⟩ := order?_of_nonNegative (hscores b (hperm'.mem_iff.mp hb))
    simp only [PyFloat.lt, PyFloat.eq, PyFloat.compare, hka, hkb, decide_eq_true_eq]
    exact (precedes_iff hka hkb).mp hab
  · intro id
    rw [(hperm'.map _).mem_iff, hchunks, mem_chunks_candidates]

theorem chunks_numbered (items : List RetrievalEvidence) :
    (numbered items).map (·.chunkId) = items.map (·.chunkId) := by
  have hfst : (numbered items).map (·.chunkId) =
      (items.zipIdx.map Prod.fst).map (·.chunkId) := by
    rw [numbered, List.map_map, List.map_map]
    rfl
  rw [hfst, List.zipIdx_map_fst]

theorem firstItems_sublist {α : Type} (limit : Int) (values : List α) :
    (firstItems limit values).Sublist values := by
  unfold firstItems
  split_ifs
  · exact List.take_sublist _ _
  · exact List.take_sublist _ _

end Matches

/-- A candidate of the database's pages. -/
def candidateRow (rank : Int) (kind : CandidateKind) (id : ChunkId) (title : String) :
    RetrievalCandidate where
  rank := rank
  kind := kind
  chunkId := id
  documentId := 1
  documentVersionId := 2
  sourceId := 3
  documentTitle := title
  headingPath := none
  contentText := "Restart the service."
  languageCode := "en"
  releaseFamily := none
  releaseCode := none
  productCode := none
  productName := none
  moduleCode := none
  moduleName := none
  sourceType := "MANUAL"
  canonicalUri := "kb://1"
  sectionTitle := none
  sectionAnchor := none
  pageNumber := none
  score := .finite 1 (-1)
  documentType := none

def publishedConfiguration : RetrievalConfiguration where
  versionId := 9
  rrfK := 60
  lexicalWeight := .finite 1 0
  vectorWeight := .finite 1 0
  exactIdentifierBoost := .finite 1 (-2)
  metadataBoost := .finite 1 (-4)
  rerankWeight := .finite 0 0
  rerankingEnabled := false
  sourceAuthorityWeights := [("MANUAL", .finite 1 (-3))]

def noFilters : RetrievalFilters := ⟨[], [], [], [], [], []⟩

end Helpdesk.Retrieval
