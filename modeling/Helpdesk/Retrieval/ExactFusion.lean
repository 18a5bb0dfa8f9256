/-
  File:      Helpdesk/Retrieval/ExactFusion.lean
  Subject:   `fuse_candidates` over the rationals (apps/api/app/retrieval/fusion.py),
             without a reranker.

  The texts, the dicts and the order of the steps are those of `Fusion`; each
  float stands for its rational value and each operation is exact.

  * `exact_evidence_agrees`: what needs no arithmetic is what `Fusion` computes;
  * `share_le`, `le_share`: where one chunk moves forward, its share of the channel
    does not fall and no other chunk's share rises;
  * `fusion_monotone`: such a chunk gets no later rank.
-/
import Helpdesk.Retrieval.Fusion

namespace Helpdesk.Retrieval

open Helpdesk.Python

/-! ## 1. Exact numbers -/

/-- `x / y`; `none` is the `ZeroDivisionError`. -/
def quotient? (x y : ℚ) : Option ℚ := if y = 0 then none else some (x / y)

structure ExactConfiguration where
  rrfK : Int
  lexicalWeight : ℚ
  vectorWeight : ℚ
  exactIdentifierBoost : ℚ
  metadataBoost : ℚ
  sourceAuthorityWeights : List (String × ℚ)
  deriving DecidableEq

/-- The numbers of a configuration; `none` where one is an infinity or NaN. -/
def exactConfiguration? (configuration : RetrievalConfiguration) : Option ExactConfiguration := do
  let lexicalWeight ← configuration.lexicalWeight.value?
  let vectorWeight ← configuration.vectorWeight.value?
  let exactIdentifierBoost ← configuration.exactIdentifierBoost.value?
  let metadataBoost ← configuration.metadataBoost.value?
  let sourceAuthorityWeights ← configuration.sourceAuthorityWeights.mapM fun item => do
    return (item.1, ← item.2.value?)
  return {
    rrfK := configuration.rrfK
    lexicalWeight := lexicalWeight
    vectorWeight := vectorWeight
    exactIdentifierBoost := exactIdentifierBoost
    metadataBoost := metadataBoost
    sourceAuthorityWeights := sourceAuthorityWeights }

structure ExactComponents where
  lexical : Option ℚ
  vector : Option ℚ
  fusion : ℚ
  exactIdentifierBoost : ℚ
  metadataBoost : ℚ
  sourceAuthorityBoost : ℚ
  deriving DecidableEq

/-- `RetrievalEvidence`; the fields it copies are those of `candidate`. -/
structure ExactEvidence where
  rank : Nat
  chunkId : ChunkId
  candidate : RetrievalCandidate
  score : ℚ
  components : ExactComponents
  deriving DecidableEq

/-! ## 2. Exact scores -/

/-- `_normalized`; `none` where a score is an infinity or NaN. -/
def exactNormalized (candidates : List RetrievalCandidate) : Option (List (ChunkId × ℚ)) := do
  let scores ← candidates.mapM fun c => do return (c.chunkId, ← c.score.value?)
  match scores with
  | [] => return []
  | first :: rest =>
      let low := (rest.map Prod.snd).foldl min first.2
      let high := (rest.map Prod.snd).foldl max first.2
      if high = low then
        return dictOf (scores.map fun item => (item.1, 1))
      else
        return dictOf (scores.map fun item => (item.1, (item.2 - low) / (high - low)))

/-- `weight / (rrf_k + rank)` of a channel, zero without a rank in it. -/
def exactChannelScore (weight : ℚ) (rrfK : Int) (rank : Option Int) : Option ℚ :=
  match rank with
  | none => some 0
  | some rank => quotient? weight (rrfK + rank : Int)

/-- `fusion / maximum_fusion if maximum_fusion else 0.0` -/
def exactRelative (fusion maximumFusion : ℚ) : Option ℚ :=
  if maximumFusion = 0 then some 0 else quotient? fusion maximumFusion

structure ExactChannels where
  lexicalScores : List (ChunkId × ℚ)
  vectorScores : List (ChunkId × ℚ)
  lexicalRanks : List (ChunkId × Int)
  vectorRanks : List (ChunkId × Int)
  maximumFusion : ℚ

def exactChannels (lexical vector : List RetrievalCandidate) (configuration : ExactConfiguration) :
    Option ExactChannels := do
  let lexicalScores ← exactNormalized lexical
  let vectorScores ← exactNormalized vector
  let maximumFusion ← quotient? (configuration.lexicalWeight + configuration.vectorWeight)
    (configuration.rrfK + 1 : Int)
  return {
    lexicalScores := lexicalScores
    vectorScores := vectorScores
    maximumFusion := maximumFusion
    lexicalRanks := dictOf (lexical.map fun c => (c.chunkId, c.rank))
    vectorRanks := dictOf (vector.map fun c => (c.chunkId, c.rank)) }

/-- `identifier_boost` -/
def exactIdentifierBoost (query : String) (configuration : ExactConfiguration)
    (candidate : RetrievalCandidate) : ℚ :=
  if (identifiers query).any (· ∈ identifiers (searchedText candidate)) then
    configuration.exactIdentifierBoost else 0

/-- `authority_boost` -/
def exactAuthorityBoost (configuration : ExactConfiguration) (candidate : RetrievalCandidate) : ℚ :=
  (item? configuration.sourceAuthorityWeights candidate.sourceType).getD 0

/-- One item of `results`. -/
def exactEvidenceOf (query : String) (ch : ExactChannels) (filters : RetrievalFilters)
    (configuration : ExactConfiguration) (item : ChunkId × RetrievalCandidate) :
    Option ExactEvidence := do
  let (chunkId, candidate) := item
  let lexicalPart ←
    exactChannelScore configuration.lexicalWeight configuration.rrfK (item? ch.lexicalRanks chunkId)
  let vectorPart ←
    exactChannelScore configuration.vectorWeight configuration.rrfK (item? ch.vectorRanks chunkId)
  let fusion ← exactRelative (lexicalPart + vectorPart) ch.maximumFusion
  let identifierBoost := exactIdentifierBoost query configuration candidate
  let metadataBoost := configuration.metadataBoost * metadataMatches candidate filters
  let authorityBoost := exactAuthorityBoost configuration candidate
  return {
    rank := 0, chunkId := chunkId, candidate := candidate
    score := fusion + identifierBoost + metadataBoost + authorityBoost
    components := {
      lexical := item? ch.lexicalScores chunkId, vector := item? ch.vectorScores chunkId
      fusion := fusion, exactIdentifierBoost := identifierBoost, metadataBoost := metadataBoost
      sourceAuthorityBoost := authorityBoost } }

/-- `a <= b` of the sort keys `(-score, str(chunk_id))`. -/
def exactPrecedes (a b : ExactEvidence) : Bool :=
  decide (b.score < a.score ∨ a.score = b.score ∧ uuidText a.chunkId ≤ uuidText b.chunkId)

def exactNumbered (items : List ExactEvidence) : List ExactEvidence :=
  items.zipIdx.map fun p => { p.1 with rank := p.2 + 1 }

/-- The sorted results, before the limit. -/
def exactOrdered (query : String) (lexical vector : List RetrievalCandidate)
    (filters : RetrievalFilters) (configuration : ExactConfiguration)
    (errorCodeMatches : List RetrievalCandidate) : Option (List ExactEvidence) := do
  let ch ← exactChannels lexical vector configuration
  let results ← (candidatesByChunk lexical vector errorCodeMatches).mapM
    (exactEvidenceOf query ch filters configuration)
  return results.mergeSort exactPrecedes

/-- `fuse_candidates` over the rationals; `none` is an arithmetic exception or a
    number that is no rational. -/
def fuseExactly (query : String) (lexical vector : List RetrievalCandidate)
    (filters : RetrievalFilters) (configuration : RetrievalConfiguration)
    (errorCodeMatches : List RetrievalCandidate) (limit : Int) : Option (List ExactEvidence) := do
  let configuration ← exactConfiguration? configuration
  let ordered ← exactOrdered query lexical vector filters configuration errorCodeMatches
  return exactNumbered (firstItems limit ordered)

/-! ## 3. What the exact evidence shares with the computed one -/

theorem value?_zero : PyFloat.zero.value? = some 0 := by simp [PyFloat.zero, PyFloat.value?]

theorem item?_exact {weights : List (String × PyFloat)} {exact : List (String × ℚ)}
    (h : weights.mapM (fun item => do return (item.1, ← item.2.value?)) = some exact)
    (key : String) : (item? weights key).map PyFloat.value? = (item? exact key).map some := by
  induction weights generalizing exact with
  | nil =>
      obtain rfl := Option.some.inj h
      rfl
  | cons item weights ih =>
      simp only [List.mapM_cons, Option.bind_eq_bind, Option.bind_eq_some_iff] at h
      obtain ⟨p, ⟨v, hv, hp⟩, rest, hrest, hexact⟩ := h
      obtain rfl := Option.some.inj hp
      obtain rfl := Option.some.inj hexact
      by_cases hkey : item.1 = key
      · simp [item?, hkey, hv]
      · simp only [item?, if_neg hkey]
        exact ih hrest

/-- **The boosts that need no arithmetic are those of the computed evidence.** -/
theorem exact_evidence_agrees {query : String} {ch : Channels} {exactCh : ExactChannels}
    {filters : RetrievalFilters} {configuration : RetrievalConfiguration}
    {exact : ExactConfiguration} {item : ChunkId × RetrievalCandidate} {e : RetrievalEvidence}
    {x : ExactEvidence} (hexact : exactConfiguration? configuration = some exact)
    (he : evidenceOf query ch filters configuration [] item = some e)
    (hx : exactEvidenceOf query exactCh filters exact item = some x) :
    x.chunkId = e.chunkId ∧ x.candidate = item.2 ∧
      e.components.exactIdentifierBoost.value? = some x.components.exactIdentifierBoost ∧
      e.components.sourceAuthorityBoost.value? = some x.components.sourceAuthorityBoost := by
  simp only [exactConfiguration?, Option.bind_eq_bind, Option.bind_eq_some_iff] at hexact
  obtain ⟨_, -, _, -, boost, hboost, _, -, weights, hweights, hexact⟩ := hexact
  obtain rfl := Option.some.inj hexact
  simp only [evidenceOf, Option.bind_eq_bind, Option.bind_eq_some_iff] at he
  obtain ⟨_, -, _, -, _, -, he⟩ := he
  obtain rfl := Option.some.inj he
  simp only [exactEvidenceOf, Option.bind_eq_bind, Option.bind_eq_some_iff] at hx
  obtain ⟨_, -, _, -, _, -, hx⟩ := hx
  obtain rfl := Option.some.inj hx
  refine ⟨rfl, rfl, ?_, ?_⟩
  · dsimp only [exactIdentifierBoost]
    split_ifs
    · exact hboost
    · exact value?_zero
  · have hitem := item?_exact hweights item.2.sourceType
    dsimp only [exactAuthorityBoost]
    cases hw : item? configuration.sourceAuthorityWeights item.2.sourceType with
    | none =>
        rw [hw] at hitem
        rw [Option.map_eq_none_iff.mp hitem.symm]
        exact value?_zero
    | some w =>
        rw [hw, Option.map_some] at hitem
        obtain ⟨v, hv, hvalue⟩ := Option.map_eq_some_iff.mp hitem.symm
        rw [hv]
        exact hvalue.symm

/-! ## 4. Valid configurations -/

/-- What the order and the shares need of a configuration. -/
structure ExactValid (configuration : ExactConfiguration) : Prop where
  rrfK : 1 ≤ configuration.rrfK
  lexicalWeight : 0 ≤ configuration.lexicalWeight
  vectorWeight : 0 ≤ configuration.vectorWeight
  positive : 0 < configuration.lexicalWeight + configuration.vectorWeight

/-- Two floats that stand for zero have a sum that is not positive. -/
theorem add_not_positive {x y : PyFloat} (hx : x.value? = some 0) (hy : y.value? = some 0) :
    PyFloat.zero.lt (x.add y) = false := by
  have hround : PyFloat.zero.lt (PyFloat.ofRat 0) = false := by decide +kernel
  cases x with
  | finite m e =>
      have hm : m * (2 : ℚ) ^ e = 0 := Option.some.inj hx
      cases y with
      | finite m' e' =>
          have hm' : m' * (2 : ℚ) ^ e' = 0 := Option.some.inj hy
          dsimp only [PyFloat.add]
          rw [hm, hm', add_zero]
          exact hround
      | negZero =>
          dsimp only [PyFloat.add]
          rw [hm]
          exact hround
      | inf negative => cases hy
      | nan => cases hy
  | negZero =>
      cases y with
      | finite m' e' =>
          have hm' : m' * (2 : ℚ) ^ e' = 0 := Option.some.inj hy
          dsimp only [PyFloat.add]
          rw [hm']
          exact hround
      | negZero => decide +kernel
      | inf negative => cases hy
      | nan => cases hy
  | inf negative => cases hx
  | nan => cases hx

/-- **A valid configuration has rational weights, one of them positive.** -/
theorem exact_of_validConfiguration {configuration : RetrievalConfiguration}
    (h : validConfiguration configuration = true) :
    ∃ exact, exactConfiguration? configuration = some exact ∧ ExactValid exact := by
  have hvalid := valid_of_validConfiguration h
  obtain ⟨lexicalWeight, hlexical, hlexical0, -⟩ := hvalid.lexicalWeight.value
  obtain ⟨vectorWeight, hvector, hvector0, -⟩ := hvalid.vectorWeight.value
  obtain ⟨identifier, hidentifier, -⟩ := hvalid.exactIdentifierBoost.value
  obtain ⟨metadata, hmetadata, -⟩ := hvalid.metadataBoost.value
  obtain ⟨authority, hauthority⟩ : ∃ exact, configuration.sourceAuthorityWeights.mapM
      (fun item => do return (item.1, ← item.2.value?)) = some exact := by
    refine ⟨_, mapM_option_iff_filterMap.mpr ⟨fun item hitem => ?_, rfl⟩⟩
    obtain ⟨a, ha, -⟩ := (hvalid.authority item hitem).value
    rw [ha]
    rfl
  refine ⟨⟨configuration.rrfK, lexicalWeight, vectorWeight, identifier, metadata, authority⟩, ?_,
    hvalid.rrfK.1, hlexical0, hvector0, ?_⟩
  · simp only [exactConfiguration?, hlexical, hvector, hidentifier, hmetadata, Option.bind_eq_bind,
      Option.bind_some]
    exact Option.bind_eq_some_iff.mpr ⟨authority, hauthority, rfl⟩
  · dsimp only
    by_contra hsum
    have hl : lexicalWeight = 0 := by linarith
    have hv : vectorWeight = 0 := by linarith
    subst hl hv
    have hpositive : PyFloat.zero.lt (configuration.lexicalWeight.add configuration.vectorWeight) =
        true := by
      simp only [validConfiguration, Bool.and_eq_true] at h
      exact h.1.1.2
    rw [add_not_positive hlexical hvector] at hpositive
    cases hpositive

/-! ## 5. Shares of a channel -/

/-- A channel as the database hands it out: distinct chunks, ranks from one. -/
structure Ranked (candidates : List RetrievalCandidate) : Prop where
  once : (candidates.map (·.chunkId)).Nodup
  ranks : candidates.map (·.rank) = (List.range candidates.length).map fun i : Nat => (i : Int) + 1

section Shares

variable {candidates : List RetrievalCandidate} {configuration : ExactConfiguration}
  {chunks chunks' : List ChunkId} {key : ChunkId} {weight : ℚ} {rrfK : Int}

/-- The rank of a candidate is the place of its chunk. -/
theorem Ranked.rank_eq (h : Ranked candidates) {c : RetrievalCandidate} (hc : c ∈ candidates) :
    c.rank = (candidates.map (·.chunkId)).idxOf c.chunkId + 1 := by
  obtain ⟨i, hi, rfl⟩ := List.mem_iff_getElem.mp hc
  have hplace : (candidates.map (·.chunkId)).idxOf candidates[i].chunkId = i := by
    have hget := h.once.idxOf_getElem i (by rw [List.length_map]; exact hi)
    rwa [List.getElem_map] at hget
  have hrank : (candidates.map (·.rank))[i]? = some candidates[i].rank := by
    rw [List.getElem?_map, List.getElem?_eq_getElem hi]
    rfl
  rw [h.ranks, List.getElem?_map, List.getElem?_range hi] at hrank
  rw [hplace]
  exact (Option.some.inj hrank).symm

/-- **The rank the channel's dict holds for a chunk.** -/
theorem Ranked.item?_ranks (h : Ranked candidates) (key : ChunkId) :
    item? (dictOf (candidates.map fun c => (c.chunkId, c.rank))) key =
      if key ∈ candidates.map (·.chunkId) then
        some ((candidates.map (·.chunkId)).idxOf key + 1 : Int) else none := by
  have hkeys : (candidates.map fun c => (c.chunkId, c.rank)).map Prod.fst =
      candidates.map (·.chunkId) := by
    rw [List.map_map]
    rfl
  have honce : ((candidates.map fun c => (c.chunkId, c.rank)).map Prod.fst).Nodup :=
    hkeys ▸ h.once
  rw [dictOf_self honce]
  by_cases hkey : key ∈ candidates.map (·.chunkId)
  · rw [if_pos hkey]
    obtain ⟨c, hc, rfl⟩ := List.mem_map.mp hkey
    rw [← h.rank_eq hc]
    exact (mem_iff_item? honce).mp (List.mem_map.mpr ⟨c, hc, rfl⟩)
  · rw [if_neg hkey, item?_eq_none, hkeys]
    exact hkey

/-- What a channel contributes to the fusion of a chunk. -/
def share (weight : ℚ) (rrfK : Int) (chunks : List ChunkId) (key : ChunkId) : ℚ :=
  if key ∈ chunks then weight / (rrfK + (chunks.idxOf key + 1) : Int) else 0

theorem exactChannelScore_eq (hrrf : 1 ≤ rrfK) (h : Ranked candidates) :
    exactChannelScore weight rrfK
        (item? (dictOf (candidates.map fun c => (c.chunkId, c.rank))) key) =
      some (share weight rrfK (candidates.map (·.chunkId)) key) := by
  rw [h.item?_ranks]
  by_cases hkey : key ∈ candidates.map (·.chunkId)
  · have hne : ((rrfK + ((candidates.map (·.chunkId)).idxOf key + 1) : Int) : ℚ) ≠ 0 :=
      Int.cast_ne_zero.mpr (by omega)
    rw [if_pos hkey, share, if_pos hkey]
    exact if_neg hne
  · rw [if_neg hkey, share, if_neg hkey]
    rfl

theorem share_nonneg (hrrf : 1 ≤ rrfK) (hweight : 0 ≤ weight) : 0 ≤ share weight rrfK chunks key := by
  unfold share
  split_ifs
  · exact div_nonneg hweight (Int.cast_nonneg (by omega))
  · exact le_refl _

/-- A later place has the smaller share. -/
theorem weight_div_anti (hrrf : 1 ≤ rrfK) (hweight : 0 ≤ weight) {i j : Nat} (hij : i ≤ j) :
    weight / (rrfK + (j + 1) : Int) ≤ weight / (rrfK + (i + 1) : Int) := by
  have hpos : (0 : ℚ) < (rrfK + (i + 1) : Int) := Int.cast_pos.mpr (by omega)
  have hle : ((rrfK + (i + 1) : Int) : ℚ) ≤ (rrfK + (j + 1) : Int) := Int.cast_le.mpr (by omega)
  exact div_le_div_of_nonneg_left hweight hpos hle

theorem share_le_first (hrrf : 1 ≤ rrfK) (hweight : 0 ≤ weight) :
    share weight rrfK chunks key ≤ weight / (rrfK + 1 : Int) := by
  unfold share
  split_ifs
  · exact weight_div_anti hrrf hweight (Nat.zero_le _)
  · exact div_nonneg hweight (Int.cast_nonneg (by omega))

/-- **The share of a chunk that moves forward does not fall.** -/
theorem share_le (hrrf : 1 ≤ rrfK) (hweight : 0 ≤ weight) (h : Moved key chunks chunks') :
    share weight rrfK chunks key ≤ share weight rrfK chunks' key := by
  unfold share
  by_cases hkey : key ∈ chunks
  · rw [if_pos hkey, if_pos (h.mem.mpr hkey)]
    exact weight_div_anti hrrf hweight (h.place hkey)
  · rw [if_neg hkey, if_neg (mt h.mem.mp hkey)]

/-- **The share of every other chunk does not rise.** -/
theorem le_share (hrrf : 1 ≤ rrfK) (hweight : 0 ≤ weight) {moved : ChunkId}
    (h : Moved moved chunks chunks') (honce : chunks.Nodup) (honce' : chunks'.Nodup)
    (hkey : key ≠ moved) : share weight rrfK chunks' key ≤ share weight rrfK chunks key := by
  unfold share
  by_cases hmem : key ∈ chunks
  · rw [if_pos hmem, if_pos ((h.mem_iff key).mpr hmem)]
    exact weight_div_anti hrrf hweight (h.idxOf_le honce honce' hkey)
  · rw [if_neg hmem, if_neg (mt (h.mem_iff key).mp hmem)]

end Shares

/-! ## 6. The evidence of ranked channels -/

section Evidence

variable {query : String} {filters : RetrievalFilters} {configuration : ExactConfiguration}
  {lexical vector errorCodeMatches : List RetrievalCandidate} {ch : ExactChannels}

/-- The fusion of a chunk, from the places it has in the two channels. -/
def fusionOf (configuration : ExactConfiguration) (lexical vector : List ChunkId) (key : ChunkId) :
    ℚ :=
  (share configuration.lexicalWeight configuration.rrfK lexical key +
      share configuration.vectorWeight configuration.rrfK vector key) /
    ((configuration.lexicalWeight + configuration.vectorWeight) / (configuration.rrfK + 1 : Int))

/-- The boosts of a candidate. -/
def boosts (query : String) (filters : RetrievalFilters) (configuration : ExactConfiguration)
    (candidate : RetrievalCandidate) : ℚ :=
  exactIdentifierBoost query configuration candidate +
    configuration.metadataBoost * metadataMatches candidate filters +
    exactAuthorityBoost configuration candidate

theorem maximum_pos (hvalid : ExactValid configuration) :
    0 < (configuration.lexicalWeight + configuration.vectorWeight) /
      (configuration.rrfK + 1 : Int) := by
  have hrrf := hvalid.rrfK
  exact div_pos hvalid.positive (Int.cast_pos.mpr (by omega))

/-- **Every fusion lies between zero and one.** -/
theorem fusionOf_bounds (hvalid : ExactValid configuration) (lexical vector : List ChunkId)
    (key : ChunkId) :
    0 ≤ fusionOf configuration lexical vector key ∧
      fusionOf configuration lexical vector key ≤ 1 := by
  have hpos := maximum_pos hvalid
  constructor
  · exact div_nonneg (add_nonneg (share_nonneg hvalid.rrfK hvalid.lexicalWeight)
      (share_nonneg hvalid.rrfK hvalid.vectorWeight)) hpos.le
  · rw [fusionOf, div_le_one hpos, add_div]
    exact add_le_add (share_le_first hvalid.rrfK hvalid.lexicalWeight)
      (share_le_first hvalid.rrfK hvalid.vectorWeight)

theorem foldl_min_le : ∀ (values : List ℚ) (start : ℚ),
    values.foldl min start ≤ start ∧ ∀ x ∈ values, values.foldl min start ≤ x
  | [], start => ⟨le_refl _, fun x hx => nomatch hx⟩
  | v :: values, start => by
      obtain ⟨hstart, hall⟩ := foldl_min_le values (min start v)
      refine ⟨hstart.trans (min_le_left _ _), fun x hx => ?_⟩
      rcases List.mem_cons.mp hx with rfl | hx
      · exact hstart.trans (min_le_right _ _)
      · exact hall x hx

theorem le_foldl_max : ∀ (values : List ℚ) (start : ℚ),
    start ≤ values.foldl max start ∧ ∀ x ∈ values, x ≤ values.foldl max start
  | [], start => ⟨le_refl _, fun x hx => nomatch hx⟩
  | v :: values, start => by
      obtain ⟨hstart, hall⟩ := le_foldl_max values (max start v)
      refine ⟨(le_max_left _ _).trans hstart, fun x hx => ?_⟩
      rcases List.mem_cons.mp hx with rfl | hx
      · exact (le_max_right _ _).trans hstart
      · exact hall x hx

/-- **Every normalized score lies between zero and one.** -/
theorem exactNormalized_bounds {candidates : List RetrievalCandidate}
    {scores : List (ChunkId × ℚ)} (h : exactNormalized candidates = some scores) {key : ChunkId}
    {score : ℚ} (hscore : item? scores key = some score) : 0 ≤ score ∧ score ≤ 1 := by
  obtain ⟨pairs, -, h⟩ := Option.bind_eq_some_iff.mp h
  cases pairs with
  | nil =>
      obtain rfl := Option.some.inj h
      cases hscore
  | cons first rest =>
      obtain ⟨hlow, hlows⟩ := foldl_min_le (rest.map Prod.snd) first.2
      obtain ⟨hhigh, hhighs⟩ := le_foldl_max (rest.map Prod.snd) first.2
      dsimp only at h
      split_ifs at h with heq
      · obtain rfl := Option.some.inj h
        obtain ⟨p, -, hp⟩ := List.mem_map.mp (mem_of_item?_dictOf hscore)
        rw [← (Prod.mk.inj hp).2]
        exact ⟨zero_le_one, le_refl _⟩
      · obtain rfl := Option.some.inj h
        obtain ⟨p, hmem, hp⟩ := List.mem_map.mp (mem_of_item?_dictOf hscore)
        rw [← (Prod.mk.inj hp).2]
        have hbounds : (rest.map Prod.snd).foldl min first.2 ≤ p.2 ∧
            p.2 ≤ (rest.map Prod.snd).foldl max first.2 := by
          rcases List.mem_cons.mp hmem with rfl | hmem
          · exact ⟨hlow, hhigh⟩
          · exact ⟨hlows _ (List.mem_map_of_mem hmem), hhighs _ (List.mem_map_of_mem hmem)⟩
        have hpos : 0 < (rest.map Prod.snd).foldl max first.2 - (rest.map Prod.snd).foldl min first.2 :=
          sub_pos.mpr (lt_of_le_of_ne (hlow.trans hhigh) (Ne.symm heq))
        exact ⟨div_nonneg (sub_nonneg.mpr hbounds.1) hpos.le,
          (div_le_one hpos).mpr (sub_le_sub_right hbounds.2 _)⟩

theorem exactNormalized_isSome {candidates : List RetrievalCandidate}
    (h : ∀ c ∈ candidates, c.score.Finite) : ∃ scores, exactNormalized candidates = some scores := by
  have hscores : ∃ pairs, candidates.mapM (fun c => do return (c.chunkId, ← c.score.value?)) =
      some pairs := by
    refine ⟨_, mapM_option_iff_filterMap.mpr ⟨fun c hc => ?_, rfl⟩⟩
    obtain ⟨v, hv⟩ := Option.isSome_iff_exists.mp (h c hc)
    rw [hv]
    rfl
  obtain ⟨pairs, hpairs⟩ := hscores
  unfold exactNormalized
  rw [hpairs]
  cases pairs with
  | nil => exact ⟨_, rfl⟩
  | cons first rest =>
      dsimp only [Option.bind_eq_bind, Option.bind_some]
      split_ifs
      · exact ⟨_, rfl⟩
      · exact ⟨_, rfl⟩

/-- What the evidence of an item says. -/
structure Shaped (query : String) (filters : RetrievalFilters) (configuration : ExactConfiguration)
    (lexical vector : List ChunkId) (item : ChunkId × RetrievalCandidate) (e : ExactEvidence) :
    Prop where
  chunk : e.chunkId = item.1
  score : e.score = fusionOf configuration lexical vector item.1 +
    boosts query filters configuration item.2
  fusion : 0 ≤ e.components.fusion ∧ e.components.fusion ≤ 1
  lexical : ∀ s, e.components.lexical = some s → 0 ≤ s ∧ s ≤ 1
  vector : ∀ s, e.components.vector = some s → 0 ≤ s ∧ s ≤ 1

theorem exactEvidenceOf_ranked (hvalid : ExactValid configuration) (hlexical : Ranked lexical)
    (hvector : Ranked vector) (hch : exactChannels lexical vector configuration = some ch)
    (item : ChunkId × RetrievalCandidate) :
    ∃ e, exactEvidenceOf query ch filters configuration item = some e ∧
      Shaped query filters configuration (lexical.map (·.chunkId)) (vector.map (·.chunkId)) item e := by
  simp only [exactChannels, Option.bind_eq_bind, Option.bind_eq_some_iff] at hch
  obtain ⟨lexicalScores, hlexicalScores, vectorScores, hvectorScores, top, htop, hch⟩ := hch
  obtain rfl := Option.some.inj hch
  have hrrf : ((configuration.rrfK + 1 : Int) : ℚ) ≠ 0 := by
    have := hvalid.rrfK
    exact Int.cast_ne_zero.mpr (by omega)
  have htop' : (configuration.lexicalWeight + configuration.vectorWeight) /
      (configuration.rrfK + 1 : Int) = top := by
    rw [quotient?, if_neg hrrf] at htop
    exact Option.some.inj htop
  have hne : top ≠ 0 := htop' ▸ (maximum_pos hvalid).ne'
  have hfusion : exactRelative
      (share configuration.lexicalWeight configuration.rrfK (lexical.map (·.chunkId)) item.1 +
        share configuration.vectorWeight configuration.rrfK (vector.map (·.chunkId)) item.1) top =
      some (fusionOf configuration (lexical.map (·.chunkId)) (vector.map (·.chunkId)) item.1) := by
    rw [exactRelative, if_neg hne, quotient?, if_neg hne, fusionOf, htop']
  simp only [exactEvidenceOf, exactChannelScore_eq hvalid.rrfK hlexical,
    exactChannelScore_eq hvalid.rrfK hvector, hfusion, Option.bind_eq_bind, Option.bind_some]
  refine ⟨_, rfl, rfl, ?_, fusionOf_bounds hvalid _ _ _, fun s hs => ?_, fun s hs => ?_⟩
  · dsimp only [boosts]
    ring
  · exact exactNormalized_bounds hlexicalScores hs
  · exact exactNormalized_bounds hvectorScores hs

theorem exactOrdered_ranked (query : String) (filters : RetrievalFilters)
    (errorCodeMatches : List RetrievalCandidate) (hvalid : ExactValid configuration)
    (hlexical : Ranked lexical) (hvector : Ranked vector)
    (hscores : ∀ c ∈ lexical ++ vector, c.score.Finite) :
    ∃ shape : ChunkId × RetrievalCandidate → ExactEvidence,
      (∀ item, Shaped query filters configuration (lexical.map (·.chunkId))
        (vector.map (·.chunkId)) item (shape item)) ∧
      exactOrdered query lexical vector filters configuration errorCodeMatches =
        some (((candidatesByChunk lexical vector errorCodeMatches).map shape).mergeSort
          exactPrecedes) := by
  obtain ⟨lexicalScores, hl⟩ := exactNormalized_isSome fun c hc =>
    hscores c (List.mem_append_left _ hc)
  obtain ⟨vectorScores, hv⟩ := exactNormalized_isSome fun c hc =>
    hscores c (List.mem_append_right _ hc)
  have hrrf : ((configuration.rrfK + 1 : Int) : ℚ) ≠ 0 := by
    have := hvalid.rrfK
    exact Int.cast_ne_zero.mpr (by omega)
  obtain ⟨ch, hch⟩ : ∃ ch, exactChannels lexical vector configuration = some ch := by
    simp only [exactChannels, hl, hv, quotient?, if_neg hrrf, Option.bind_eq_bind, Option.bind_some]
    exact ⟨_, rfl⟩
  have hitem : ∀ item, ∃ e, exactEvidenceOf query ch filters configuration item = some e ∧
      Shaped query filters configuration (lexical.map (·.chunkId)) (vector.map (·.chunkId)) item e :=
    exactEvidenceOf_ranked hvalid hlexical hvector hch
  choose shape hshape hshaped using hitem
  refine ⟨shape, hshaped, ?_⟩
  have hresults : (candidatesByChunk lexical vector errorCodeMatches).mapM
      (exactEvidenceOf query ch filters configuration) =
        some ((candidatesByChunk lexical vector errorCodeMatches).map shape) := by
    rw [funext hshape, mapM_option_iff_filterMap]
    exact ⟨fun _ _ => rfl, by rw [List.filterMap_eq_map']⟩
  unfold exactOrdered
  rw [hch]
  dsimp only [Option.bind_eq_bind, Option.bind_some]
  rw [hresults]
  rfl

/-- **`exactPrecedes` orders evidence of distinct chunks.** -/
theorem ordersOn_exactPrecedes {results : List ExactEvidence}
    (honce : (results.map (·.chunkId)).Nodup) : OrdersOn exactPrecedes (· ∈ results) where
  trans := by
    intro a b c _ _ _ hab hbc
    rw [exactPrecedes, decide_eq_true_iff] at hab hbc ⊢
    rcases hab with hab | ⟨hab, htext⟩
    · rcases hbc with hbc | ⟨hbc, -⟩
      · exact .inl (hbc.trans hab)
      · exact .inl (hbc ▸ hab)
    · rcases hbc with hbc | ⟨hbc, htext'⟩
      · exact .inl (hab ▸ hbc)
      · exact .inr ⟨hab.trans hbc, String.le_trans htext htext'⟩
  total := by
    intro a b _ _
    rw [Bool.or_eq_true, exactPrecedes, exactPrecedes, decide_eq_true_iff, decide_eq_true_iff]
    rcases lt_trichotomy a.score b.score with h | h | h
    · exact .inr (.inl h)
    · exact (String.le_total (uuidText a.chunkId) (uuidText b.chunkId)).imp
        (fun hle => .inr ⟨h, hle⟩) fun hle => .inr ⟨h.symm, hle⟩
    · exact .inl (.inl h)
  antisymm := by
    intro a b ha hb hab hba
    rw [exactPrecedes, decide_eq_true_iff] at hab hba
    have htext : uuidText a.chunkId = uuidText b.chunkId := by
      rcases hab with hab | ⟨hab, htext⟩
      · rcases hba with hba | ⟨hba, -⟩
        · exact absurd hba (lt_asymm hab)
        · exact absurd hba hab.ne
      · rcases hba with hba | ⟨-, htext'⟩
        · exact absurd hab hba.ne
        · exact String.le_antisymm htext htext'
    have hid : a.chunkId = b.chunkId :=
      Subtype.ext (uuidText_injective a.chunkId.2 b.chunkId.2 htext)
    exact List.inj_on_of_nodup_map honce ha hb hid

end Evidence

/-! ## 7. One chunk moves forward -/

/-- What a chunk is, whatever its rank and score. -/
def content (candidate : RetrievalCandidate) : RetrievalCandidate :=
  { candidate with rank := 0, score := .zero }

/-- **`after` is the channel `before` with one chunk at a rank that is not worse**: it
    is the same chunk, and the others keep their relative order. -/
structure Raised (moved : ChunkId) (before after : List RetrievalCandidate) : Prop where
  others : (after.filter (·.chunkId ≠ moved)).map content =
    (before.filter (·.chunkId ≠ moved)).map content
  own : (after.filter (·.chunkId = moved)).map content =
    (before.filter (·.chunkId = moved)).map content
  rank : ∀ c ∈ before, ∀ c' ∈ after, c.chunkId = moved → c'.chunkId = moved → c'.rank ≤ c.rank

section Raising

variable {moved : ChunkId} {before after : List RetrievalCandidate}

/-- A channel in which nothing moves. -/
theorem Raised.refl (h : Ranked before) : Raised moved before before where
  others := rfl
  own := rfl
  rank := by
    intro c hc c' hc' hid hid'
    rw [List.inj_on_of_nodup_map h.once hc hc' (hid.trans hid'.symm)]

theorem Raised.chunks_filter (h : Raised moved before after) (p : ChunkId → Bool)
    (hp : p = (fun id => decide (id ≠ moved)) ∨ p = fun id => decide (id = moved)) :
    (after.map (·.chunkId)).filter p = (before.map (·.chunkId)).filter p := by
  have hchunk : ∀ cs : List RetrievalCandidate, (cs.map (·.chunkId)).filter p =
      ((cs.filter fun c => p c.chunkId).map content).map (·.chunkId) := by
    intro cs
    rw [List.filter_map, List.map_map]
    rfl
  rw [hchunk, hchunk]
  rcases hp with rfl | rfl
  · rw [h.others]
  · rw [h.own]

theorem Raised.places (h : Raised moved before after) (hbefore : Ranked before)
    (hafter : Ranked after) : Moved moved (before.map (·.chunkId)) (after.map (·.chunkId)) where
  others := h.chunks_filter _ (.inl rfl)
  mem := by
    have hown := h.chunks_filter _ (.inr rfl)
    have hmem : moved ∈ (after.map (·.chunkId)).filter (fun id => decide (id = moved)) ↔
        moved ∈ (before.map (·.chunkId)).filter (fun id => decide (id = moved)) := by rw [hown]
    simpa only [List.mem_filter, decide_true, and_true] using hmem
  place := by
    intro hin
    obtain ⟨c, hc, hid⟩ := List.mem_map.mp hin
    by_cases hin' : moved ∈ after.map (·.chunkId)
    · obtain ⟨c', hc', hid'⟩ := List.mem_map.mp hin'
      have hrank := h.rank c hc c' hc' hid hid'
      rw [hbefore.rank_eq hc, hafter.rank_eq hc', hid, hid'] at hrank
      omega
    · have hown := h.chunks_filter _ (.inr rfl)
      have hmem : moved ∈ (before.map (·.chunkId)).filter (fun id => decide (id = moved)) :=
        List.mem_filter.mpr ⟨hin, decide_eq_true rfl⟩
      rw [← hown] at hmem
      exact absurd (List.mem_filter.mp hmem).1 hin'

/-- A channel's chunks are the same ones. -/
theorem Raised.perm (h : Raised moved before after) :
    (after.map content).Perm (before.map content) := by
  have hsplit : ∀ cs : List RetrievalCandidate, (cs.map content).Perm
      ((cs.filter (·.chunkId = moved)).map content ++
        (cs.filter (·.chunkId ≠ moved)).map content) := by
    intro cs
    rw [← List.map_append]
    refine (List.Perm.symm ?_).map content
    have hparts := List.filter_append_perm (fun c : RetrievalCandidate => decide (c.chunkId = moved)) cs
    simpa only [ne_eq, decide_not] using hparts
  refine (hsplit after).trans (List.Perm.trans ?_ (hsplit before).symm)
  rw [h.own, h.others]

/-- **The channel's dict holds the same chunk under each key.** -/
theorem Raised.content_item (h : Raised moved before after) (hbefore : Ranked before)
    (hafter : Ranked after) (key : ChunkId) :
    (item? (dictOf (after.map fun c => (c.chunkId, c))) key).map content =
      (item? (dictOf (before.map fun c => (c.chunkId, c))) key).map content := by
  have hkeys : ∀ cs : List RetrievalCandidate, (cs.map fun c => (c.chunkId, c)).map Prod.fst =
      cs.map (·.chunkId) := by
    intro cs
    rw [List.map_map]
    rfl
  have honce : ∀ {cs : List RetrievalCandidate}, Ranked cs →
      ((cs.map fun c => (c.chunkId, c)).map Prod.fst).Nodup := fun hcs => hkeys _ ▸ hcs.once
  have hfound : ∀ {cs : List RetrievalCandidate}, Ranked cs → ∀ c ∈ cs, c.chunkId = key →
      item? (dictOf (cs.map fun c => (c.chunkId, c))) key = some c := by
    intro cs hcs c hc hid
    rw [dictOf_self (honce hcs)]
    exact (mem_iff_item? (honce hcs)).mp (List.mem_map.mpr ⟨c, hc, by rw [hid]⟩)
  by_cases hkey : key ∈ before.map (·.chunkId)
  · obtain ⟨c, hc, hid⟩ := List.mem_map.mp hkey
    obtain ⟨c', hc', hcontent⟩ := List.mem_map.mp (h.perm.mem_iff.mpr (List.mem_map_of_mem hc))
    have hid' : c'.chunkId = key := (congrArg (·.chunkId) hcontent).trans hid
    rw [hfound hbefore c hc hid, hfound hafter c' hc' hid', Option.map_some, Option.map_some,
      hcontent]
  · have hkey' : key ∉ after.map (·.chunkId) := mt ((h.places hbefore hafter).mem_iff key).mp hkey
    have hnone : ∀ cs : List RetrievalCandidate, key ∉ cs.map (·.chunkId) →
        item? (dictOf (cs.map fun c => (c.chunkId, c))) key = none := by
      intro cs hcs
      rw [item?_eq_none, mem_keys_dictOf, hkeys]
      exact hcs
    rw [hnone _ hkey, hnone _ hkey']

end Raising

section Fusion

variable {query : String} {filters : RetrievalFilters} {exact : ExactConfiguration}
  {lexical lexical' vector vector' errorCodeMatches : List RetrievalCandidate} {moved : ChunkId}

/-- **The candidates hold the same chunk under each key.** -/
theorem candidates_content (hl : Raised moved lexical lexical') (hv : Raised moved vector vector')
    (hlexical : Ranked lexical) (hlexical' : Ranked lexical') (hvector : Ranked vector)
    (hvector' : Ranked vector') (key : ChunkId) :
    (item? (candidatesByChunk lexical' vector' errorCodeMatches) key).map content =
      (item? (candidatesByChunk lexical vector errorCodeMatches) key).map content := by
  simp only [candidatesByChunk, List.map_append, item?_dictOf_append, Option.map_or]
  rw [hl.content_item hlexical hlexical' key, hv.content_item hvector hvector' key]

theorem candidate_content (hl : Raised moved lexical lexical') (hv : Raised moved vector vector')
    (hlexical : Ranked lexical) (hlexical' : Ranked lexical') (hvector : Ranked vector)
    (hvector' : Ranked vector') {key : ChunkId} {d' : RetrievalCandidate}
    (hd' : (key, d') ∈ candidatesByChunk lexical' vector' errorCodeMatches) :
    ∃ d, (key, d) ∈ candidatesByChunk lexical vector errorCodeMatches ∧ content d = content d' := by
  have hlookup : (item? (candidatesByChunk lexical' vector' errorCodeMatches) key).map content =
      (item? (candidatesByChunk lexical vector errorCodeMatches) key).map content :=
    candidates_content hl hv hlexical hlexical' hvector hvector' key
  rw [(mem_iff_item? (nodup_candidates _ _ _)).mp hd', Option.map_some] at hlookup
  obtain ⟨d, hd, hcontent⟩ := Option.map_eq_some_iff.mp hlookup.symm
  exact ⟨d, (mem_iff_item? (nodup_candidates _ _ _)).mpr hd, hcontent⟩

theorem candidate_unique {key : ChunkId} {c d : RetrievalCandidate}
    (hc : (key, c) ∈ candidatesByChunk lexical vector errorCodeMatches)
    (hd : (key, d) ∈ candidatesByChunk lexical vector errorCodeMatches) : c = d := by
  have hnodup := nodup_candidates lexical vector errorCodeMatches
  exact Option.some.inj (((mem_iff_item? hnodup).mp hc).symm.trans ((mem_iff_item? hnodup).mp hd))

/-- The boosts do not see rank and score. -/
theorem boosts_content {c d : RetrievalCandidate} (h : content c = content d) :
    boosts query filters exact c = boosts query filters exact d := by
  have hself : ∀ c, boosts query filters exact (content c) = boosts query filters exact c :=
    fun _ => rfl
  rw [← hself c, h, hself]

theorem fusionOf_le {chunks chunks' others others' : List ChunkId} (hvalid : ExactValid exact)
    (hl : Moved moved chunks chunks') (hv : Moved moved others others') :
    fusionOf exact chunks others moved ≤ fusionOf exact chunks' others' moved :=
  div_le_div_of_nonneg_right
    (add_le_add (share_le hvalid.rrfK hvalid.lexicalWeight hl)
      (share_le hvalid.rrfK hvalid.vectorWeight hv)) (maximum_pos hvalid).le

theorem le_fusionOf {chunks chunks' others others' : List ChunkId} (hvalid : ExactValid exact)
    (hl : Moved moved chunks chunks') (hv : Moved moved others others') (hchunks : chunks.Nodup)
    (hchunks' : chunks'.Nodup) (hothers : others.Nodup) (hothers' : others'.Nodup) {key : ChunkId}
    (hkey : key ≠ moved) : fusionOf exact chunks' others' key ≤ fusionOf exact chunks others key :=
  div_le_div_of_nonneg_right
    (add_le_add (le_share hvalid.rrfK hvalid.lexicalWeight hl hchunks hchunks' hkey)
      (le_share hvalid.rrfK hvalid.vectorWeight hv hothers hothers' hkey)) (maximum_pos hvalid).le

/-- The chunks of the results. -/
theorem chunks_shaped {chunks others : List ChunkId}
    {shape : ChunkId × RetrievalCandidate → ExactEvidence}
    (hshape : ∀ item, Shaped query filters exact chunks others item (shape item)) :
    ((candidatesByChunk lexical vector errorCodeMatches).map shape).map (·.chunkId) =
      (candidatesByChunk lexical vector errorCodeMatches).map Prod.fst := by
  rw [List.map_map]
  exact List.map_congr_left fun item _ => (hshape item).chunk

/-- **The chunk that moves forward gets no later place.** -/
theorem place_le (hvalid : ExactValid exact) (hl : Raised moved lexical lexical')
    (hv : Raised moved vector vector') (hlexical : Ranked lexical) (hlexical' : Ranked lexical')
    (hvector : Ranked vector) (hvector' : Ranked vector')
    {shape shape' : ChunkId × RetrievalCandidate → ExactEvidence}
    (hshape : ∀ item, Shaped query filters exact (lexical.map (·.chunkId))
      (vector.map (·.chunkId)) item (shape item))
    (hshape' : ∀ item, Shaped query filters exact (lexical'.map (·.chunkId))
      (vector'.map (·.chunkId)) item (shape' item))
    {c c' : RetrievalCandidate}
    (hc : (moved, c) ∈ candidatesByChunk lexical vector errorCodeMatches)
    (hc' : (moved, c') ∈ candidatesByChunk lexical' vector' errorCodeMatches) :
    (((candidatesByChunk lexical' vector' errorCodeMatches).map shape').mergeSort
        exactPrecedes).idxOf (shape' (moved, c')) ≤
      (((candidatesByChunk lexical vector errorCodeMatches).map shape).mergeSort
        exactPrecedes).idxOf (shape (moved, c)) := by
  have honce := (chunks_shaped hshape).symm ▸ nodup_candidates lexical vector errorCodeMatches
  have honce' := (chunks_shaped hshape').symm ▸ nodup_candidates lexical' vector' errorCodeMatches
  have hplaces := hl.places hlexical hlexical'
  have hplaces' := hv.places hvector hvector'
  have hown : (shape (moved, c)).score ≤ (shape' (moved, c')).score := by
    obtain ⟨d, hd, hcontent⟩ := candidate_content hl hv hlexical hlexical' hvector hvector' hc'
    obtain rfl := candidate_unique hd hc
    rw [(hshape _).score, (hshape' _).score, boosts_content hcontent]
    exact add_le_add (fusionOf_le hvalid hplaces hplaces') (le_refl _)
  refine (ordersOn_exactPrecedes honce).idxOf_mergeSort_le (·.chunkId)
    (ordersOn_exactPrecedes honce') (List.Nodup.of_map _ honce) honce' (List.mem_map_of_mem hc)
    (List.mem_map_of_mem hc') ?_
  intro e' he' hne hprecedes
  obtain ⟨⟨key, d'⟩, hd', rfl⟩ := List.mem_map.mp he'
  obtain ⟨d, hd, hcontent⟩ := candidate_content hl hv hlexical hlexical' hvector hvector' hd'
  have hkey : key ≠ moved := by
    intro hkey
    subst hkey
    exact hne (by rw [candidate_unique hd' hc'])
  have hother : (shape' (key, d')).score ≤ (shape (key, d)).score := by
    rw [(hshape _).score, (hshape' _).score, boosts_content hcontent]
    exact add_le_add (le_fusionOf hvalid hplaces hplaces' hlexical.once hlexical'.once hvector.once
      hvector'.once hkey) (le_refl _)
  refine ⟨shape (key, d), List.mem_map_of_mem hd, ?_, ?_, ?_⟩
  · rw [(hshape _).chunk, (hshape' _).chunk]
  · intro heq
    exact hkey (((hshape (key, d)).chunk.symm.trans (congrArg (·.chunkId) heq)).trans
      (hshape (moved, c)).chunk)
  · -- what is before the chunk now has no higher score than it had
    rw [exactPrecedes, decide_eq_true_iff, (hshape' _).chunk, (hshape' _).chunk] at hprecedes
    rw [exactPrecedes, decide_eq_true_iff, (hshape _).chunk, (hshape _).chunk]
    rcases hprecedes with hlt | ⟨heq, htext⟩
    · exact .inl (lt_of_le_of_lt hown (lt_of_lt_of_le hlt hother))
    · rcases lt_or_eq_of_le (hown.trans (heq ▸ hother)) with hlt | heq'
      · exact .inl hlt
      · exact .inr ⟨heq'.symm, htext⟩

end Fusion

/-! ## 8. Limit and ranks -/

theorem getElem?_exactNumbered (items : List ExactEvidence) (i : Nat) :
    (exactNumbered items)[i]? = items[i]?.map fun e => { e with rank := i + 1 } := by
  rw [exactNumbered, List.getElem?_map, List.getElem?_zipIdx, Option.map_map, Nat.zero_add]
  rfl

theorem length_exactNumbered (items : List ExactEvidence) :
    (exactNumbered items).length = items.length := by
  rw [exactNumbered, List.length_map, List.length_zipIdx]

theorem map_exactNumbered {β : Type} (f : ExactEvidence → β) (items : List ExactEvidence)
    (hf : ∀ e n, f { e with rank := n } = f e) : (exactNumbered items).map f = items.map f := by
  refine List.ext_getElem? fun i => ?_
  rw [List.getElem?_map, getElem?_exactNumbered, Option.map_map, List.getElem?_map]
  congr 1
  funext e
  exact hf e _

/-- How many of `n` items a limit leaves. -/
def allowed (limit : Int) (n : Nat) : Nat := if 0 ≤ limit then limit.toNat else n - limit.natAbs

theorem firstItems_eq_take {α : Type} (limit : Int) (values : List α) :
    firstItems limit values = values.take (allowed limit values.length) := by
  unfold firstItems allowed
  split_ifs
  · rfl
  · rfl

/-- **What `fuse_candidates` returns.** -/
structure WellFormed (lexical vector errorCodeMatches : List RetrievalCandidate) (limit : Int)
    (evidence : List ExactEvidence) : Prop where
  once : (evidence.map (·.chunkId)).Nodup
  ranks : evidence.map (·.rank) = List.range' 1 evidence.length
  /-- by descending score, then by chunk -/
  order : evidence.Pairwise fun a b => b.score < a.score ∨
    a.score = b.score ∧ uuidText a.chunkId ≤ uuidText b.chunkId
  candidates : ∀ e ∈ evidence, e.chunkId ∈ (errorCodeMatches ++ lexical ++ vector).map (·.chunkId)
  /-- a limit that leaves out no candidate -/
  complete : ((candidatesByChunk lexical vector errorCodeMatches).length : Int) ≤ limit →
    ∀ id ∈ (errorCodeMatches ++ lexical ++ vector).map (·.chunkId), id ∈ evidence.map (·.chunkId)
  fusion : ∀ e ∈ evidence, 0 ≤ e.components.fusion ∧ e.components.fusion ≤ 1
  lexical : ∀ e ∈ evidence, ∀ s, e.components.lexical = some s → 0 ≤ s ∧ s ≤ 1
  vector : ∀ e ∈ evidence, ∀ s, e.components.vector = some s → 0 ≤ s ∧ s ≤ 1

section Fused

variable {query : String} {filters : RetrievalFilters} {exact : ExactConfiguration}
  {lexical vector errorCodeMatches : List RetrievalCandidate} {limit : Int}
  {chunks others : List ChunkId} {shape : ChunkId × RetrievalCandidate → ExactEvidence}

theorem wellFormed_numbered
    (hshape : ∀ item, Shaped query filters exact chunks others item (shape item)) :
    WellFormed lexical vector errorCodeMatches limit (exactNumbered (firstItems limit
      (((candidatesByChunk lexical vector errorCodeMatches).map shape).mergeSort
        exactPrecedes))) := by
  generalize hsorted : ((candidatesByChunk lexical vector errorCodeMatches).map shape).mergeSort
    exactPrecedes = sorted
  have hperm : sorted.Perm ((candidatesByChunk lexical vector errorCodeMatches).map shape) :=
    hsorted ▸ List.mergeSort_perm _ _
  have honce := (chunks_shaped hshape).symm ▸ nodup_candidates lexical vector errorCodeMatches
  have horder : sorted.Pairwise (exactPrecedes · · = true) :=
    hsorted ▸ (ordersOn_exactPrecedes honce).pairwise_mergeSort
  have hsub : (firstItems limit sorted).Sublist sorted := firstItems_sublist limit sorted
  have hchunks : ∀ id, id ∈ sorted.map (·.chunkId) ↔
      id ∈ (errorCodeMatches ++ lexical ++ vector).map (·.chunkId) := by
    intro id
    rw [(hperm.map _).mem_iff, chunks_shaped hshape, mem_chunks_candidates]
  have hitem : ∀ e ∈ exactNumbered (firstItems limit sorted), ∃ item,
      e.chunkId = (shape item).chunkId ∧ (shape item).chunkId ∈ sorted.map (·.chunkId) ∧
        e.components = (shape item).components := by
    intro e he
    obtain ⟨i, hi⟩ := List.mem_iff_getElem?.mp he
    rw [getElem?_exactNumbered] at hi
    obtain ⟨e', he', rfl⟩ := Option.map_eq_some_iff.mp hi
    have hin := hsub.subset (List.mem_of_getElem? he')
    obtain ⟨item, -, rfl⟩ := List.mem_map.mp (hperm.mem_iff.mp hin)
    exact ⟨item, rfl, List.mem_map_of_mem hin, rfl⟩
  refine ⟨?_, ?_, ?_, ?_, ?_, ?_, ?_, ?_⟩
  · rw [map_exactNumbered _ _ fun _ _ => rfl]
    exact ((hperm.map _).nodup_iff.mpr honce).sublist (hsub.map _)
  · refine List.ext_getElem? fun i => ?_
    rw [List.getElem?_map, getElem?_exactNumbered, length_exactNumbered, Option.map_map]
    by_cases hi : i < (firstItems limit sorted).length
    · rw [List.getElem?_eq_getElem hi, List.getElem?_range' hi, Option.map_some, Nat.one_mul,
        Nat.add_comm 1 i]
      rfl
    · rw [List.getElem?_eq_none (Nat.le_of_not_lt hi), List.getElem?_eq_none]
      · rfl
      · rw [List.length_range']
        exact Nat.le_of_not_lt hi
  · have hkeys := (List.pairwise_map (f := fun e : ExactEvidence => (e.score, e.chunkId))
      (R := fun a b : ℚ × ChunkId => b.1 < a.1 ∨
        a.1 = b.1 ∧ uuidText a.2 ≤ uuidText b.2)).mpr
      ((horder.sublist hsub).imp fun hab => of_decide_eq_true hab)
    rw [← map_exactNumbered (fun e => (e.score, e.chunkId)) _ fun _ _ => rfl] at hkeys
    exact List.pairwise_map.mp hkeys
  · intro e he
    obtain ⟨item, hchunk, hin, -⟩ := hitem e he
    rw [hchunk]
    exact (hchunks _).mp hin
  · intro hlimit id hid
    have hlength : sorted.length ≤ allowed limit sorted.length := by
      have hlength := hperm.length_eq
      rw [List.length_map] at hlength
      rw [allowed, if_pos (by omega)]
      omega
    rw [map_exactNumbered _ _ fun _ _ => rfl, firstItems_eq_take, List.take_of_length_le hlength]
    exact (hchunks id).mpr hid
  · intro e he
    obtain ⟨item, -, -, hcomponents⟩ := hitem e he
    exact hcomponents ▸ (hshape item).fusion
  · intro e he
    obtain ⟨item, -, -, hcomponents⟩ := hitem e he
    exact hcomponents ▸ (hshape item).lexical
  · intro e he
    obtain ⟨item, -, -, hcomponents⟩ := hitem e he
    exact hcomponents ▸ (hshape item).vector

/-- The evidence of a chunk at its place. -/
theorem mem_exactNumbered_take {items : List ExactEvidence} {n : Nat} (hnodup : items.Nodup)
    {e : ExactEvidence} : e ∈ exactNumbered (items.take n) ↔
      ∃ e' ∈ items, items.idxOf e' < n ∧ e = { e' with rank := items.idxOf e' + 1 } := by
  constructor
  · intro he
    obtain ⟨i, hi⟩ := List.mem_iff_getElem?.mp he
    rw [getElem?_exactNumbered] at hi
    obtain ⟨e', he', rfl⟩ := Option.map_eq_some_iff.mp hi
    rw [List.getElem?_take] at he'
    split_ifs at he' with hin
    obtain ⟨hlt, rfl⟩ := List.getElem?_eq_some_iff.mp he'
    refine ⟨items[i], List.getElem_mem hlt, ?_⟩
    rw [hnodup.idxOf_getElem i hlt]
    exact ⟨hin, rfl⟩
  · rintro ⟨e', he', hlt, rfl⟩
    refine List.mem_iff_getElem?.mpr ⟨items.idxOf e', ?_⟩
    have hplace := List.idxOf_lt_length_of_mem he'
    rw [getElem?_exactNumbered, List.getElem?_take, if_pos hlt, List.getElem?_eq_getElem hplace,
      List.getElem_idxOf hplace]
    rfl

end Fused

/-- The candidates are as many as before. -/
theorem length_candidates {lexical lexical' vector vector' : List RetrievalCandidate}
    {moved : ChunkId} (errorCodeMatches : List RetrievalCandidate)
    (hl : Moved moved (lexical.map (·.chunkId)) (lexical'.map (·.chunkId)))
    (hv : Moved moved (vector.map (·.chunkId)) (vector'.map (·.chunkId))) :
    (candidatesByChunk lexical' vector' errorCodeMatches).length =
      (candidatesByChunk lexical vector errorCodeMatches).length := by
  have hkeys : ((candidatesByChunk lexical' vector' errorCodeMatches).map Prod.fst).Perm
      ((candidatesByChunk lexical vector errorCodeMatches).map Prod.fst) := by
    refine (List.perm_ext_iff_of_nodup (nodup_candidates _ _ _) (nodup_candidates _ _ _)).mpr ?_
    intro id
    rw [mem_chunks_candidates, mem_chunks_candidates]
    simp only [List.map_append, List.mem_append, hl.mem_iff id, hv.mem_iff id]
  simpa only [List.length_map] using hkeys.length_eq

/-- **`fuse_candidates` is monotone and well formed**: when one chunk moves to a rank
    that is not worse in the channels and the others keep their relative order there,
    the chunk gets no later rank, whatever the limit. -/
theorem fusion_monotone (query : String) (filters : RetrievalFilters)
    (configuration : RetrievalConfiguration) (limit : Int)
    (lexical lexical' vector vector' errorCodeMatches : List RetrievalCandidate) (moved : ChunkId)
    (hvalid : validConfiguration configuration = true) (hlexical : Ranked lexical)
    (hlexical' : Ranked lexical') (hvector : Ranked vector) (hvector' : Ranked vector')
    (hscores : ∀ c ∈ lexical ++ vector, c.score.Finite)
    (hscores' : ∀ c ∈ lexical' ++ vector', c.score.Finite) (hl : Raised moved lexical lexical')
    (hv : Raised moved vector vector') :
    ∃ before after,
      fuseExactly query lexical vector filters configuration errorCodeMatches limit = some before ∧
      fuseExactly query lexical' vector' filters configuration errorCodeMatches limit = some after ∧
      WellFormed lexical vector errorCodeMatches limit before ∧
      WellFormed lexical' vector' errorCodeMatches limit after ∧
      ∀ e ∈ before, e.chunkId = moved → ∃ e' ∈ after, e'.chunkId = moved ∧ e'.rank ≤ e.rank := by
  obtain ⟨exact, hexact, hexactValid⟩ := exact_of_validConfiguration hvalid
  obtain ⟨shape, hshape, hordered⟩ := exactOrdered_ranked query filters errorCodeMatches hexactValid
    hlexical hvector hscores
  obtain ⟨shape', hshape', hordered'⟩ := exactOrdered_ranked query filters errorCodeMatches
    hexactValid hlexical' hvector' hscores'
  refine ⟨_, _, ?_, ?_, wellFormed_numbered hshape, wellFormed_numbered hshape', ?_⟩
  · unfold fuseExactly
    rw [hexact]
    dsimp only [Option.bind_eq_bind, Option.bind_some]
    rw [hordered]
    rfl
  · unfold fuseExactly
    rw [hexact]
    dsimp only [Option.bind_eq_bind, Option.bind_some]
    rw [hordered']
    rfl
  have hnodup := List.Nodup.of_map _
    ((chunks_shaped hshape).symm ▸ nodup_candidates lexical vector errorCodeMatches)
  have hnodup' := List.Nodup.of_map _
    ((chunks_shaped hshape').symm ▸ nodup_candidates lexical' vector' errorCodeMatches)
  intro e he hchunk
  rw [firstItems_eq_take, mem_exactNumbered_take
    ((List.mergeSort_perm _ _).nodup_iff.mpr hnodup)] at he
  obtain ⟨e₀, hin, hlt, rfl⟩ := he
  obtain ⟨⟨key, c⟩, hc, rfl⟩ := List.mem_map.mp (List.mem_mergeSort.mp hin)
  obtain rfl : key = moved := (hshape (key, c)).chunk.symm.trans hchunk
  obtain ⟨c', hc'⟩ : ∃ c', (key, c') ∈ candidatesByChunk lexical' vector' errorCodeMatches := by
    have hlookup : (item? (candidatesByChunk lexical' vector' errorCodeMatches) key).map content =
        (item? (candidatesByChunk lexical vector errorCodeMatches) key).map content :=
      candidates_content hl hv hlexical hlexical' hvector hvector' key
    rw [(mem_iff_item? (nodup_candidates _ _ _)).mp hc, Option.map_some] at hlookup
    obtain ⟨c', hc', -⟩ := Option.map_eq_some_iff.mp hlookup
    exact ⟨c', (mem_iff_item? (nodup_candidates _ _ _)).mpr hc'⟩
  have hplace := place_le hexactValid hl hv hlexical hlexical' hvector hvector' hshape hshape' hc hc'
  have hlength := length_candidates errorCodeMatches (hl.places hlexical hlexical')
    (hv.places hvector hvector')
  have hlt' : (((candidatesByChunk lexical' vector' errorCodeMatches).map shape').mergeSort
      exactPrecedes).idxOf (shape' (key, c')) <
        allowed limit (((candidatesByChunk lexical' vector' errorCodeMatches).map shape').mergeSort
          exactPrecedes).length := by
    rw [List.length_mergeSort, List.length_map] at hlt ⊢
    rw [hlength]
    exact lt_of_le_of_lt hplace hlt
  have hin' := (mem_exactNumbered_take ((List.mergeSort_perm _ _).nodup_iff.mpr hnodup')).mpr
    ⟨_, List.mem_mergeSort.mpr (List.mem_map_of_mem hc'), hlt', rfl⟩
  rw [← firstItems_eq_take] at hin'
  exact ⟨_, hin', (hshape' (key, c')).chunk, Nat.succ_le_succ hplace⟩

/-- Of two lexical chunks the second one moves before the first. -/
theorem fusion_monotone_second : ∃ before after,
    fuseExactly "abc-123"
        [candidateRow 1 .lexical ⟨11, by decide⟩ "Manual",
          candidateRow 2 .lexical ⟨12, by decide⟩ "Guide"]
        [candidateRow 1 .vector ⟨13, by decide⟩ "Notes"] noFilters publishedConfiguration [] 3 =
      some before ∧
    fuseExactly "abc-123"
        [candidateRow 1 .lexical ⟨12, by decide⟩ "Guide",
          candidateRow 2 .lexical ⟨11, by decide⟩ "Manual"]
        [candidateRow 1 .vector ⟨13, by decide⟩ "Notes"] noFilters publishedConfiguration [] 3 =
      some after ∧
    ∀ e ∈ before, e.chunkId = ⟨12, by decide⟩ →
      ∃ e' ∈ after, e'.chunkId = ⟨12, by decide⟩ ∧ e'.rank ≤ e.rank := by
  have hscore : ∀ rank kind id title, (candidateRow rank kind id title).score.Finite :=
    fun _ _ _ _ => rfl
  have hvector : Ranked [candidateRow 1 .vector ⟨13, by decide⟩ "Notes"] := ⟨by decide, by decide⟩
  obtain ⟨before, after, hbefore, hafter, -, -, hrank⟩ := fusion_monotone "abc-123" noFilters
    publishedConfiguration 3
    [candidateRow 1 .lexical ⟨11, by decide⟩ "Manual",
      candidateRow 2 .lexical ⟨12, by decide⟩ "Guide"]
    [candidateRow 1 .lexical ⟨12, by decide⟩ "Guide",
      candidateRow 2 .lexical ⟨11, by decide⟩ "Manual"]
    [candidateRow 1 .vector ⟨13, by decide⟩ "Notes"]
    [candidateRow 1 .vector ⟨13, by decide⟩ "Notes"] [] ⟨12, by decide⟩ (by decide +kernel)
    ⟨by decide, by decide⟩ ⟨by decide, by decide⟩ hvector hvector (by simp [hscore])
    (by simp [hscore]) ⟨by decide +kernel, by decide +kernel, by decide +kernel⟩ (Raised.refl hvector)
  exact ⟨before, after, hbefore, hafter, hrank⟩

end Helpdesk.Retrieval
