/-
  File:      Helpdesk/Knowledge/Suppression.lean
  Subject:   Whether a suppressed chunk leaves a copy that is served.

  The detector looks at pairs: of two near duplicates the one in the later document is
  flagged, whatever becomes of the other. The earlier one may itself be flagged for a
  third chunk that is not near the first, and it need not be served at all, since the
  scan takes documents that are not approved, not published or for others. Flags of
  chunks that are no longer scanned stay as they are and are published with the rest.

  * `excluded_iff_hidden`: what the published version excludes, read from the corpus
    that was validated;
  * `leaves_copy_iff_represented`: when every excluded chunk leaves a copy;
  * `unserved_copy`: a published document that is hidden behind a draft.
-/
import Helpdesk.Knowledge.CorpusPublication
import Helpdesk.Knowledge.Persistence
import Helpdesk.Knowledge.Retrieval

namespace Helpdesk.Knowledge

open Helpdesk.Python

/-! ## 1. What the detector flags -/

variable {sim : Similarity} {store store' : Store} {tenantId : Uuid}

theorem mem_capped {α : Type} {order : α → α → Prop} [DecidableRel order] {rows : List α} {row : α}
    (h : truncates rows = false) : row ∈ capped order rows ↔ row ∈ rows := by
  have hlength : rows.length ≤ findingLimit := by
    simpa [truncates] using h
  unfold capped
  rw [List.take_of_length_le (by rw [List.length_insertionSort]; exact hlength)]
  exact List.mem_insertionSort order

theorem near_symm (a b : ScannedChunk) : near sim store a b = near sim store b a := by
  unfold near
  rw [sim.symm, Bool.and_right_comm _ (store.embedded a.chunk.chunkId)]
  congr 3
  rw [decide_eq_decide]
  exact ⟨Ne.symm, Ne.symm⟩

/-- `b` comes before `a` in a pair of near duplicates: `a` is flagged. -/
def Overtaken (sim : Similarity) (store : Store) (b a : ScannedChunk) : Prop :=
  near sim store a b = true ∧ b.chunk.chunkId ≠ a.chunk.chunkId ∧ canonicalFirst b a

theorem lexicographic_total (s t : Int) {d e a b : Nat} (hne : a ≠ b) :
    ¬ (s < t ∨ s = t ∧ (d < e ∨ d = e ∧ a ≤ b)) ↔
      (t < s ∨ t = s ∧ (e < d ∨ e = d ∧ b ≤ a)) := by
  omega

theorem canonicalFirst_total {a b : ScannedChunk} (hne : a.chunk.chunkId ≠ b.chunk.chunkId) :
    ¬ canonicalFirst a b ↔ canonicalFirst b a := by
  unfold canonicalFirst
  exact lexicographic_total _ _ hne

/-- **The flagged chunks are those with an earlier near duplicate.** -/
theorem flagged_iff_overtaken {a : ScannedChunk} :
    (∃ f ∈ nearFindings sim store tenantId, f.flagged = a) ↔
      a ∈ store.scannedChunks tenantId ∧
        ∃ b ∈ store.scannedChunks tenantId, Overtaken sim store b a := by
  constructor
  · rintro ⟨f, hf, rfl⟩
    obtain ⟨⟨x, y⟩, hpair, rfl⟩ := List.mem_map.mp hf
    simp only [nearPairs, List.mem_filter, List.mem_product, Bool.and_eq_true,
      decide_eq_true_eq] at hpair
    obtain ⟨⟨hx, hy⟩, hlt, hnear⟩ := hpair
    by_cases hfirst : canonicalFirst x y
    · simp only [if_pos hfirst]
      exact ⟨hy, x, hx, by rw [near_symm, hnear], hlt.ne, hfirst⟩
    · simp only [if_neg hfirst]
      exact ⟨hx, y, hy, hnear, hlt.ne', (canonicalFirst_total hlt.ne).mp hfirst⟩
  · rintro ⟨ha, b, hb, hnear, hne, hfirst⟩
    rcases lt_or_gt_of_ne hne with hlt | hlt
    · refine ⟨_, List.mem_map.mpr ⟨(b, a), ?_, rfl⟩, by simp [hfirst]⟩
      simp only [nearPairs, List.mem_filter, List.mem_product, Bool.and_eq_true,
        decide_eq_true_eq]
      exact ⟨⟨hb, ha⟩, hlt, by rw [near_symm, hnear]⟩
    · have hnot : ¬ canonicalFirst a b := (canonicalFirst_total hne.symm).mpr hfirst
      refine ⟨_, List.mem_map.mpr ⟨(a, b), ?_, rfl⟩, by simp [hnot]⟩
      simp only [nearPairs, List.mem_filter, List.mem_product, Bool.and_eq_true,
        decide_eq_true_eq]
      exact ⟨⟨ha, hb⟩, hlt, hnear⟩

/-- A chunk of the tenant that an earlier near duplicate of the scanned corpus hides. -/
def Overshadowed (sim : Similarity) (store : Store) (tenantId chunkId : Uuid) : Prop :=
  ∃ a ∈ store.scannedChunks tenantId, a.chunk.chunkId = chunkId ∧ suppressible tenantId a = true ∧
    ∃ b ∈ store.scannedChunks tenantId, Overtaken sim store b a

/-- A chunk of the tenant with the flag of an earlier run that is no longer scanned. -/
def Leftover (store : Store) (tenantId chunkId : Uuid) : Prop :=
  ∃ c ∈ store.chunks, c.chunkId = chunkId ∧ c.tenantId = tenantId ∧
    c.nearDuplicateSuppressedFlag = true ∧ store.scans tenantId chunkId = false

/-- What a publication of the corpus will exclude. -/
def Hidden (sim : Similarity) (store : Store) (tenantId chunkId : Uuid) : Prop :=
  Overshadowed sim store tenantId chunkId ∨ Leftover store tenantId chunkId

/-- A finding of a run that suppresses is one of a near duplicate. -/
theorem mem_validationFindings {runId : Uuid} {f : Finding} (hflagged : f.suppressionFlagged = true)
    (hcomplete : truncates (nearFindings sim store tenantId) = false) :
    f ∈ validationFindings sim store runId tenantId ↔
      ∃ n ∈ nearFindings sim store tenantId, nearDuplicateFinding runId tenantId n = f := by
  have hplain : ∀ {α : Type} {rows : List α} {g : α → Finding},
      (∀ row, (g row).suppressionFlagged = false) → f ∉ rows.map g := by
    intro α rows g hg hmem
    obtain ⟨row, _, rfl⟩ := List.mem_map.mp hmem
    rw [hg row] at hflagged
    cases hflagged
  unfold validationFindings
  rw [List.mem_append, or_iff_right, List.mem_map]
  · simp only [mem_capped hcomplete]
  · rw [List.mem_append, List.mem_append, not_or, not_or]
    exact ⟨⟨hplain fun _ => rfl, hplain fun _ => rfl⟩, hplain fun _ => rfl⟩

/-- **What a run flags**: the chunks of the tenant that are overshadowed. -/
theorem flaggedBy_iff_overshadowed {runId chunkId : Uuid} {findings : List Finding}
    (hfindings : findings = store.findings ++ validationFindings sim store runId tenantId)
    (hnew : ∀ f ∈ store.findings, f.runId ≠ runId)
    (hcomplete : truncates (nearFindings sim store tenantId) = false) :
    (findings.any fun f =>
        f.runId = runId && f.suppressionFlagged && f.chunkId = some chunkId) = true ↔
      Overshadowed sim store tenantId chunkId := by
  simp only [List.any_eq_true, Bool.and_eq_true, decide_eq_true_eq]
  constructor
  · rintro ⟨f, hf, ⟨hrun, hflagged⟩, hchunk⟩
    rw [hfindings] at hf
    rcases List.mem_append.mp hf with hold | hmem
    · exact absurd hrun (hnew f hold)
    · obtain ⟨n, hn, rfl⟩ := (mem_validationFindings hflagged hcomplete).mp hmem
      obtain ⟨ha, hb⟩ := flagged_iff_overtaken.mp ⟨n, hn, rfl⟩
      exact ⟨n.flagged, ha, Option.some.inj hchunk, hflagged, hb⟩
  · rintro ⟨a, ha, rfl, hsuppressible, hb⟩
    obtain ⟨n, hn, rfl⟩ := flagged_iff_overtaken.mpr ⟨ha, hb⟩
    refine ⟨nearDuplicateFinding runId tenantId n, ?_, ⟨rfl, hsuppressible⟩, rfl⟩
    rw [hfindings]
    refine List.mem_append_right _ ?_
    exact (mem_validationFindings hsuppressible hcomplete).mpr ⟨n, hn, rfl⟩

/-! ## 2. What a publication excludes -/

/-- Identifiers that are taken are below the supply. -/
structure Store.Keyed (store : Store) : Prop where
  findings : ∀ f ∈ store.findings, f.runId < store.nextId
  corpusRuns : ∀ r ∈ store.corpusRuns, r.runId < store.nextId
  suppressedChunks : ∀ s ∈ store.suppressedChunks, s.corpusVersionId < store.nextId

theorem mem_latestRun {run : CorpusRun} (h : store.latestRun tenantId = some run) :
    run ∈ store.corpusRuns ∧ run.tenantId = tenantId := by
  have hmem := List.mem_of_mem_head? h
  rw [List.mem_insertionSort, List.mem_filter, decide_eq_true_eq] at hmem
  exact hmem

/-- What `publish` has done. -/
theorem publishCorpus_eq_some {version : CorpusVersion}
    (h : publishCorpus tenantId store = some (version, store')) :
    ∃ run, store.latestRun tenantId = some run ∧ run.truncatedFlag = false ∧
      store.stale tenantId run.startedAt = false ∧ version = newCorpusVersion store tenantId run ∧
      store' = { store with
        corpusVersions := store.corpusVersions.map (deactivateActive tenantId) ++ [version]
        suppressedChunks := store.suppressedChunks ++ (suppressedIds store tenantId).map
          fun chunkId => ⟨version.corpusVersionId, tenantId, chunkId⟩
        nextId := store.nextId + 1 } := by
  unfold publishCorpus at h
  by_cases hblockers : blockers store tenantId ≠ []
  · rw [if_pos hblockers] at h
    cases h
  · rw [if_neg hblockers] at h
    simp only [Option.bind_eq_bind, Option.bind_eq_some_iff, Option.pure_def, Option.some.injEq,
      Prod.mk.injEq] at h
    obtain ⟨run, hrun, rfl, rfl⟩ := h
    have hnone : blockers store tenantId = [] := not_not.mp hblockers
    simp only [blockers, hrun, raised] at hnone
    cases htruncated : run.truncatedFlag <;>
      cases hstale : store.stale tenantId run.startedAt <;>
        simp [htruncated, hstale] at hnone
    exact ⟨run, hrun, htruncated, hstale, rfl, rfl⟩

/-- **A published corpus excludes the chunks that carry the flag.** -/
theorem excluded_iff_flagged {version : CorpusVersion} {chunkId : Uuid}
    (hkeyed : ∀ s ∈ store.suppressedChunks, s.corpusVersionId < store.nextId)
    (h : publishCorpus tenantId store = some (version, store')) :
    store'.excluded tenantId chunkId = true ↔ chunkId ∈ suppressedIds store tenantId := by
  obtain ⟨run, _, _, _, rfl, rfl⟩ := publishCorpus_eq_some h
  simp only [Store.excluded, List.any_eq_true, Bool.and_eq_true, decide_eq_true_eq]
  constructor
  · rintro ⟨s, hs, rfl, v, hv, ⟨hid, hactive⟩, htenant⟩
    rcases List.mem_append.mp hv with hold | hself
    · -- the versions of the tenant that were there are not active
      obtain ⟨old, _, rfl⟩ := List.mem_map.mp hold
      unfold deactivateActive at hactive htenant
      split at hactive <;> simp_all
    · rw [List.mem_singleton.mp hself] at hid
      rcases List.mem_append.mp hs with hbefore | hnew
      · exact absurd hid.symm (hkeyed s hbefore).ne
      · obtain ⟨id, hmem, rfl⟩ := List.mem_map.mp hnew
        exact hmem
  · intro hmem
    refine ⟨⟨store.nextId, tenantId, chunkId⟩, List.mem_append_right _ ?_, rfl,
      newCorpusVersion store tenantId run, List.mem_append_right _ (List.mem_singleton_self _),
      ⟨rfl, rfl⟩, rfl⟩
    exact List.mem_map_of_mem hmem

section Flags

variable {runId : Uuid} (c : ChunkRow)

@[simp] theorem suppressionFlag_chunkId :
    (suppressionFlag store runId tenantId c).chunkId = c.chunkId := by
  unfold suppressionFlag
  split <;> rfl

@[simp] theorem suppressionFlag_tenantId :
    (suppressionFlag store runId tenantId c).tenantId = c.tenantId := by
  unfold suppressionFlag
  split <;> rfl

@[simp] theorem suppressionFlag_documentId :
    (suppressionFlag store runId tenantId c).documentId = c.documentId := by
  unfold suppressionFlag
  split <;> rfl

@[simp] theorem suppressionFlag_documentVersionId :
    (suppressionFlag store runId tenantId c).documentVersionId = c.documentVersionId := by
  unfold suppressionFlag
  split <;> rfl

@[simp] theorem suppressionFlag_processingVersionId :
    (suppressionFlag store runId tenantId c).processingVersionId = c.processingVersionId := by
  unfold suppressionFlag
  split <;> rfl

theorem suppressionFlag_flag (h : c.tenantId = tenantId) :
    (suppressionFlag store runId tenantId c).nearDuplicateSuppressedFlag = true ↔
      store.flaggedBy runId c.chunkId = true ∨
        c.nearDuplicateSuppressedFlag = true ∧ store.scans tenantId c.chunkId = false := by
  simp [suppressionFlag, h]

end Flags

theorem scannedChunks_mem {a : ScannedChunk} (h : a ∈ store.scannedChunks tenantId) :
    a.chunk ∈ store.chunks := by
  obtain ⟨chunk, hchunk, hscanned⟩ := List.mem_flatMap.mp h
  obtain ⟨scanned, _, heq⟩ := List.mem_filterMap.mp hscanned
  split at heq
  · cases heq
    exact hchunk
  · cases heq

/-- **The chunks that carry the flag after a run.** -/
theorem flagged_after_validation {now : Instant} (hkeyed : store.Keyed)
    (hcomplete : truncates (nearFindings sim store tenantId) = false) (chunkId : Uuid) :
    chunkId ∈ suppressedIds (runValidation sim now tenantId store) tenantId ↔
      Hidden sim store tenantId chunkId := by
  have hflagged : ∀ id, Store.flaggedBy { store with
      findings := store.findings ++ validationFindings sim store store.nextId tenantId }
        store.nextId id = true ↔ Overshadowed sim store tenantId id :=
    fun id => flaggedBy_iff_overshadowed rfl (fun f hf => (hkeyed.findings f hf).ne) hcomplete
  simp only [suppressedIds, List.mem_map, List.mem_filter, Bool.and_eq_true, decide_eq_true_eq]
  constructor
  · rintro ⟨c', ⟨hmem, htenant, hflag⟩, rfl⟩
    obtain ⟨c, hc, rfl⟩ := List.mem_map.mp hmem
    rw [suppressionFlag_tenantId] at htenant
    rw [suppressionFlag_chunkId]
    rcases (suppressionFlag_flag c htenant).mp hflag with hnew | ⟨hold, hscans⟩
    · exact Or.inl ((hflagged c.chunkId).mp hnew)
    · exact Or.inr ⟨c, hc, rfl, htenant, hold, hscans⟩
  · rintro (hover | ⟨c, hc, rfl, htenant, hold, hscans⟩)
    · have hnew := (hflagged chunkId).mpr hover
      obtain ⟨a, ha, rfl, hsuppressible, _⟩ := hover
      have htenant : a.chunk.tenantId = tenantId := by
        simpa using (Bool.and_eq_true_iff.mp hsuppressible).2
      refine ⟨_, ⟨List.mem_map_of_mem (scannedChunks_mem ha), ?_, ?_⟩, suppressionFlag_chunkId _⟩
      · rw [suppressionFlag_tenantId, htenant]
      · exact (suppressionFlag_flag a.chunk htenant).mpr (Or.inl hnew)
    · refine ⟨_, ⟨List.mem_map_of_mem hc, ?_, ?_⟩, suppressionFlag_chunkId _⟩
      · rw [suppressionFlag_tenantId, htenant]
      · exact (suppressionFlag_flag c htenant).mpr (Or.inr ⟨hold, hscans⟩)

/-- **What is excluded after a run and the publication of it**, read from the corpus
    before both. -/
theorem excluded_iff_hidden {now : Instant} {version : CorpusVersion} (hkeyed : store.Keyed)
    (hpublish : publishCorpus tenantId (runValidation sim now tenantId store) =
      some (version, store'))
    (hrun : version.validationRunId = store.nextId) (chunkId : Uuid) :
    store'.excluded tenantId chunkId = true ↔ Hidden sim store tenantId chunkId := by
  have hcomplete : truncates (nearFindings sim store tenantId) = false := by
    obtain ⟨run, hlatest, htruncated, _, rfl, _⟩ := publishCorpus_eq_some hpublish
    rcases List.mem_append.mp (mem_latestRun hlatest).1 with hold | hself
    · exact absurd hrun (hkeyed.corpusRuns run hold).ne
    · rw [List.mem_singleton.mp hself] at htruncated
      exact (Bool.or_eq_false_iff.mp htruncated).2
  have hkeys : ∀ s ∈ (runValidation sim now tenantId store).suppressedChunks,
      s.corpusVersionId < (runValidation sim now tenantId store).nextId :=
    fun s hs => Nat.lt_succ_of_lt (hkeyed.suppressedChunks s hs)
  rw [excluded_iff_flagged hkeys hpublish, flagged_after_validation hkeyed hcomplete]

/-! ## 3. Copies that are served -/

/-- A near duplicate of another document. -/
def Store.NearDuplicate (sim : Similarity) (store : Store) (a b : ChunkRow) : Prop :=
  a.documentId ≠ b.documentId ∧ store.embedded a.chunkId = true ∧ store.embedded b.chunkId = true ∧
    nearDuplicateSimilarityThreshold ≤ sim.score a.chunkId b.chunkId

/-- The principals of a tenant. -/
def IsPrincipal (tenantId : Uuid) (principal : RetrievalPrincipal) : Prop :=
  ∃ caller persona, caller.tenantId = tenantId ∧
    resolveKnowledgePrincipal caller persona = some principal

/-- **Every excluded chunk leaves a copy**: a near duplicate that is not excluded and that
    everybody can retrieve who could have retrieved the chunk. -/
def LeavesCopy (sim : Similarity) (directory : Directory) (today : Day) (tenantId : Uuid)
    (store : Store) : Prop :=
  ∀ c ∈ store.chunks, store.excluded tenantId c.chunkId = true →
    ∃ copy ∈ store.chunks, store.NearDuplicate sim c copy ∧
      store.excluded tenantId copy.chunkId = false ∧
      ∀ p, IsPrincipal tenantId p → store.serves directory today p c = true →
        store.retrievable directory today p copy = true

/-- **Every chunk that is hidden has a representative**: a near duplicate that is not
    hidden itself and is served to everybody the chunk is served to. -/
def Represented (sim : Similarity) (directory : Directory) (today : Day) (tenantId : Uuid)
    (store : Store) : Prop :=
  ∀ c ∈ store.chunks, Hidden sim store tenantId c.chunkId →
    ∃ copy ∈ store.chunks, store.NearDuplicate sim c copy ∧
      ¬ Hidden sim store tenantId copy.chunkId ∧
      ∀ p, IsPrincipal tenantId p → store.serves directory today p c = true →
        store.serves directory today p copy = true

/-- Neither a run nor a publication changes anything of a chunk but its flag, and to whom
    it is served. -/
theorem published_rows {now : Instant} {version : CorpusVersion}
    (hpublish : publishCorpus tenantId (runValidation sim now tenantId store) =
      some (version, store')) :
    ∃ flag : ChunkRow → ChunkRow, store'.chunks = store.chunks.map flag ∧
      (∀ c, (flag c).chunkId = c.chunkId) ∧
      (∀ a b, store'.NearDuplicate sim (flag a) (flag b) ↔ store.NearDuplicate sim a b) ∧
      ∀ directory today p c, store'.serves directory today p (flag c) =
        store.serves directory today p c := by
  obtain ⟨run, _, _, _, _, rfl⟩ := publishCorpus_eq_some hpublish
  refine ⟨_, rfl, suppressionFlag_chunkId, fun a b => ?_, fun directory today p c => ?_⟩
  · unfold Store.NearDuplicate
    simp only [suppressionFlag_chunkId, suppressionFlag_documentId]
    rfl
  · unfold Store.serves
    simp only [suppressionFlag_tenantId, suppressionFlag_documentVersionId,
      suppressionFlag_processingVersionId]
    rfl

/-- **When a validated and published corpus leaves a copy of all it excludes.** -/
theorem leaves_copy_iff_represented {now : Instant} {version : CorpusVersion} (directory : Directory)
    (today : Day) (hkeyed : store.Keyed)
    (hpublish : publishCorpus tenantId (runValidation sim now tenantId store) =
      some (version, store'))
    (hrun : version.validationRunId = store.nextId) :
    LeavesCopy sim directory today tenantId store' ↔
      Represented sim directory today tenantId store := by
  have hexcluded := excluded_iff_hidden hkeyed hpublish hrun
  have hvisible : ∀ id, store'.excluded tenantId id = false ↔ ¬ Hidden sim store tenantId id := by
    intro id
    rw [← hexcluded, Bool.not_eq_true]
  obtain ⟨flag, hchunks, hid, hnear, hserves⟩ := published_rows hpublish
  have hprincipal : ∀ p, IsPrincipal tenantId p → p.tenantId = tenantId := by
    rintro p ⟨caller, persona, rfl, hresolve⟩
    unfold resolveKnowledgePrincipal at hresolve
    dsimp only at hresolve
    split at hresolve <;> cases hresolve
    rfl
  constructor
  · intro hleaves c hc hhidden
    obtain ⟨copy', hcopy', hdup, hout, hall⟩ := hleaves (flag c)
      (hchunks ▸ List.mem_map_of_mem hc) (by rw [hid, hexcluded]; exact hhidden)
    rw [hchunks] at hcopy'
    obtain ⟨copy, hcopy, rfl⟩ := List.mem_map.mp hcopy'
    rw [hid, hvisible] at hout
    refine ⟨copy, hcopy, (hnear c copy).mp hdup, hout, fun p hp hserved => ?_⟩
    have hretrievable := hall p hp (by rw [hserves]; exact hserved)
    unfold Store.retrievable at hretrievable
    rw [hserves] at hretrievable
    exact (Bool.and_eq_true_iff.mp hretrievable).1
  · intro hrepresented c' hc' hexcluded'
    rw [hchunks] at hc'
    obtain ⟨c, hc, rfl⟩ := List.mem_map.mp hc'
    rw [hid, hexcluded] at hexcluded'
    obtain ⟨copy, hcopy, hdup, hout, hall⟩ := hrepresented c hc hexcluded'
    refine ⟨flag copy, hchunks ▸ List.mem_map_of_mem hcopy, (hnear c copy).mpr hdup, ?_,
      fun p hp hserved => ?_⟩
    · rw [hid, hvisible]
      exact hout
    · rw [hserves] at hserved
      have hfree := (hvisible copy.chunkId).mpr hout
      unfold Store.retrievable
      rw [hserves, hid, hprincipal p hp, hall p hp hserved, hfree]
      rfl

/-! ## 4. A document behind a draft -/

/-- All embeddings are the same. -/
def sameEverywhere : Similarity where
  score := fun _ _ => 1
  symm := fun _ _ => rfl

def guideDocument (documentId : Uuid) (approvalStatus : DocumentApproval) (createdAt : Instant) :
    Document where
  documentId
  tenantId := some 3
  sourceId := 2
  externalDocumentKey := uuidText documentId
  documentTitle := "Guide"
  documentType := "USER_GUIDE"
  audienceCode := .employee
  securityClassification := .internalUse
  canonicalUrl := none
  approvalStatus
  effectiveFrom := none
  effectiveTo := none
  nextReviewDate := none
  activeFlag := true
  rowVersion := 1
  createdAt

def guideVersion (documentId versionId : Uuid) (published : Option Uuid) : DocumentVersion where
  documentVersionId := versionId
  documentId
  versionNumber := 1
  originalFileUri := "guide"
  contentType := "text/markdown"
  sha256Checksum := uuidText documentId
  acquisitionRunId := 6
  copyrightNotice := none
  extractionStatus := .completed
  validationStatus := .passed
  currentVersionFlag := published.isSome
  publishedProcessingVersionId := published

def guideProcessing (documentId versionId processingId : Uuid) : ProcessingVersion where
  processingVersionId := processingId
  tenantId := 3
  documentId
  documentVersionId := versionId
  processingNumber := 1
  key := ⟨"markdown", "1", "semantic-structure", "1", "0", "DEFAULT_1536"⟩
  processingStatus := .completed
  validationStatus := .passed
  chunkCount := some 1
  embeddedChunkCount := some 1
  startedAt := 0
  completedAt := some 0
  createdAt := 0

def guideChunk (documentId versionId processingId chunkId : Uuid) : ChunkRow where
  chunkId
  documentVersionId := versionId
  processingVersionId := processingId
  tenantId := 3
  documentId
  sourceId := 2
  chunkSequence := 1
  headingPath := none
  pageNumber := none
  contentText := "Restart the service."
  tokenCount := 4
  contentHash := "0"
  audienceCode := .employee
  securityClassification := .internalUse
  embeddingInputHash := "0"
  nearDuplicateSuppressedFlag := false

/-- An older guide that is still a draft, and a published one with the same text. -/
def guidesStore : Store :=
  { emptyStore with
    sources := [boilerplateSource]
    documents := [guideDocument 10 .draft 0, guideDocument 20 .approved 1]
    versions := [guideVersion 10 11 none, guideVersion 20 21 (some 22)]
    processings := [guideProcessing 10 11 12, guideProcessing 20 21 22]
    chunks := [guideChunk 10 11 12 13, guideChunk 20 21 22 23]
    embeddings := [⟨13, "DEFAULT_1536", 3, 12⟩, ⟨23, "DEFAULT_1536", 3, 22⟩] }

theorem guidesStore_keyed : guidesStore.Keyed := by
  constructor <;> simp [guidesStore, emptyStore]

/-- The corpus that `publish` makes of the guides. -/
def publishedGuides : Option (CorpusVersion × Store) :=
  publishCorpus 3 (runValidation sameEverywhere 5 3 guidesStore)

theorem publishedGuides_run :
    ∃ version store', publishedGuides = some (version, store') ∧
      version.validationRunId = guidesStore.nextId := by
  have hmap : publishedGuides.map (·.1.validationRunId) = some guidesStore.nextId := by
    decide +kernel
  obtain ⟨⟨version, store'⟩, hpublish, hrun⟩ := Option.map_eq_some_iff.mp hmap
  exact ⟨version, store', hpublish, hrun⟩

theorem leaves_copy_iff_represented_sample :
    ∃ version store', publishedGuides = some (version, store') ∧
      (LeavesCopy sameEverywhere ⟨[], []⟩ 0 3 store' ↔
        Represented sameEverywhere ⟨[], []⟩ 0 3 guidesStore) := by
  obtain ⟨version, store', hpublish, hrun⟩ := publishedGuides_run
  exact ⟨version, store', hpublish,
    leaves_copy_iff_represented ⟨[], []⟩ 0 guidesStore_keyed hpublish hrun⟩

/-- An agent who reads as an employee. -/
def guideReader : Caller where
  tenantId := 3
  userId := 9
  roles := ["AGENT"]
  supportGroupIds := []
  businessUnitId := none

/-- **A published document that is hidden behind a draft.** -/
theorem unserved_copy :
    ¬ ∀ (sim : Similarity) (store store' : Store) (tenantId : Uuid) (now : Instant)
      (version : CorpusVersion) (directory : Directory) (today : Day), store.Keyed →
      publishCorpus tenantId (runValidation sim now tenantId store) = some (version, store') →
      version.validationRunId = store.nextId → LeavesCopy sim directory today tenantId store' := by
  intro hclaim
  obtain ⟨version, store', hpublish, hrun⟩ := publishedGuides_run
  have hleaves := hclaim sameEverywhere guidesStore store' 3 5 version ⟨[], []⟩ 0 guidesStore_keyed
    hpublish hrun
  obtain ⟨p, hp⟩ : ∃ p, resolveKnowledgePrincipal guideReader .employee = some p := ⟨_, rfl⟩
  have hrows : publishedGuides.map (fun r => r.2.chunks.map fun c => (r.2.excluded 3 c.chunkId,
      (resolveKnowledgePrincipal guideReader .employee).any fun p =>
        r.2.serves ⟨[], []⟩ 0 p c)) = some [(false, false), (true, true)] := by
    decide +kernel
  rw [hpublish, hp] at hrows
  simp only [Option.map_some, Option.any_some, Option.some.injEq] at hrows
  obtain ⟨c, hc, hrow⟩ := List.mem_map.mp (by rw [hrows]; simp : (true, true) ∈ store'.chunks.map
    fun c => (store'.excluded 3 c.chunkId, store'.serves ⟨[], []⟩ 0 p c))
  obtain ⟨hexcluded, hserved⟩ := Prod.mk.inj hrow
  obtain ⟨copy, hcopy, _, hvisible, hall⟩ := hleaves c hc hexcluded
  -- the only chunk that is not excluded is the draft's, which is served to nobody
  have hcopyRow : (store'.excluded 3 copy.chunkId, store'.serves ⟨[], []⟩ 0 p copy) ∈
      [(false, false), (true, true)] := by
    rw [← hrows]
    exact List.mem_map_of_mem hcopy
  have hretrievable := hall p ⟨guideReader, .employee, rfl, hp⟩ hserved
  have hcopyServed := (Bool.and_eq_true_iff.mp hretrievable).1
  rw [hvisible, hcopyServed] at hcopyRow
  simp at hcopyRow

end Helpdesk.Knowledge
