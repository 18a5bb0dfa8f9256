/-
  File:      Helpdesk/Knowledge/CorpusValidation.lean
  Subject:   Validation of a tenant's corpus (apps/api/app/knowledge:
             corpus_validation_repository.py, run_validation of
             corpus_validation_service.py).

  The similarity of two embeddings is a function of the chunks they belong to. Runs
  always end `COMPLETED`; their counters are left out.
-/
import Helpdesk.Knowledge.Acquisition
import Mathlib.Data.List.ProdSigma
import Mathlib.Data.Rat.Floor

namespace Helpdesk.Knowledge

open Helpdesk.Python

/-! ## 1. The scanned corpus -/

/-- `1-(a.embedding<=>b.embedding)` of two chunks. -/
structure Similarity where
  score : Uuid → Uuid → ℚ
  symm : ∀ a b, score a b = score b a

/-- `ORDER BY current_version_flag DESC,version_number DESC`. -/
def scanOrder (a b : DocumentVersion) : Prop :=
  (a.currentVersionFlag = true ∧ b.currentVersionFlag = false) ∨
    (a.currentVersionFlag = b.currentVersionFlag ∧ b.versionNumber ≤ a.versionNumber)

instance : DecidableRel scanOrder := fun _ _ => inferInstanceAs (Decidable (_ ∨ _))

/-- `ORDER BY processing_number DESC`. -/
def newerProcessing (a b : ProcessingVersion) : Prop := b.processingNumber ≤ a.processingNumber

instance : DecidableRel newerProcessing :=
  fun a b => inferInstanceAs (Decidable (b.processingNumber ≤ a.processingNumber))

/-- A document of the scope with the version that is scanned. -/
structure ScannedVersion where
  document : Document
  version : DocumentVersion
  deriving DecidableEq, Repr

/-- The CTE `scanned_version`. -/
def Store.scannedVersions (store : Store) (tenantId : Uuid) : List ScannedVersion :=
  (store.documents.filter fun d => d.activeFlag && visibleTo tenantId d.tenantId).filterMap fun d =>
    ((store.versionsOf d.documentId).insertionSort scanOrder).head?.map (⟨d, ·⟩)

/-- The latest processing version of a version, of the CTE `scanned_processing`. -/
def Store.latestProcessing (store : Store) (versionId : Uuid) : Option ProcessingVersion :=
  ((store.processings.filter fun p => p.documentVersionId = versionId).insertionSort
    newerProcessing).head?

/-- A chunk with the document and version it is scanned for. -/
structure ScannedChunk where
  chunk : ChunkRow
  document : Document
  version : DocumentVersion
  deriving DecidableEq, Repr

/-- The CTE `scanned_chunk`. -/
def Store.scannedChunks (store : Store) (tenantId : Uuid) : List ScannedChunk :=
  store.chunks.flatMap fun chunk =>
    (store.scannedVersions tenantId).filterMap fun scanned =>
      if (store.latestProcessing scanned.version.documentVersionId).any fun p =>
          p.processingVersionId = chunk.processingVersionId then
        some ⟨chunk, scanned.document, scanned.version⟩
      else none

/-! ## 2. Findings -/

/-- `_FINDING_LIMIT`. -/
def findingLimit : Nat := 200

/-- `NEAR_DUPLICATE_SIMILARITY_THRESHOLD`. -/
def nearDuplicateSimilarityThreshold : ℚ := 95 / 100

/-- What `_capped_insert` inserts. -/
def capped {α : Type} (order : α → α → Prop) [DecidableRel order] (rows : List α) : List α :=
  (rows.insertionSort order).take findingLimit

/-- What `_capped_insert` reports as truncated. -/
def truncates {α : Type} (rows : List α) : Bool := findingLimit < rows.length

/-- A finding that suppresses nothing. -/
def plainFinding (runId tenantId : Uuid) (findingType : FindingType) (document : Document)
    (version : DocumentVersion) : Finding where
  runId
  tenantId
  findingType
  documentId := document.documentId
  documentVersionId := version.documentVersionId
  chunkId := none
  counterpartDocumentId := none
  counterpartChunkId := none
  similarityScore := none
  suppressionFlagged := false

/-- The rows of `insert_structural_findings`. -/
def structuralDefects (store : Store) (tenantId : Uuid) : List ScannedVersion :=
  (store.scannedVersions tenantId).filter fun scanned =>
    (store.latestProcessing scanned.version.documentVersionId).any fun p =>
      p.processingStatus = .failed || p.validationStatus = .failed

/-- `ORDER BY document_id`. -/
def documentOrder (a b : ScannedVersion) : Prop := a.document.documentId ≤ b.document.documentId

instance : DecidableRel documentOrder :=
  fun a b => inferInstanceAs (Decidable (a.document.documentId ≤ b.document.documentId))

/-- The rows of `insert_empty_chunk_findings`; `btrim` removes blanks. -/
def emptyChunks (store : Store) (tenantId : Uuid) : List ScannedChunk :=
  (store.scannedChunks tenantId).filter fun scanned =>
    scanned.chunk.contentText.toList.all (· = ' ') || scanned.chunk.tokenCount = 0

/-- `ORDER BY document_id,chunk_sequence`. -/
def chunkOrder (a b : ScannedChunk) : Prop :=
  a.document.documentId < b.document.documentId ∨
    a.document.documentId = b.document.documentId ∧ a.chunk.chunkSequence ≤ b.chunk.chunkSequence

instance : DecidableRel chunkOrder := fun _ _ => inferInstanceAs (Decidable (_ ∨ _))

/-- The scanned versions with the checksum of another one. -/
def sameChecksum (store : Store) (tenantId : Uuid) (scanned : ScannedVersion) :
    List ScannedVersion :=
  (store.scannedVersions tenantId).filter fun other =>
    other.version.sha256Checksum = scanned.version.sha256Checksum

/-- The rows of `insert_duplicate_document_findings`. -/
def duplicateDocuments (store : Store) (tenantId : Uuid) : List ScannedVersion :=
  (store.scannedVersions tenantId).filter fun scanned =>
    1 < (sameChecksum store tenantId scanned).length

/-- `ORDER BY sha256_checksum,document_id`. -/
def checksumOrder (a b : ScannedVersion) : Prop :=
  a.version.sha256Checksum < b.version.sha256Checksum ∨
    a.version.sha256Checksum = b.version.sha256Checksum ∧ documentOrder a b

instance : DecidableRel checksumOrder := fun _ _ => inferInstanceAs (Decidable (_ ∨ _))

/-- The finding of a duplicate document; the first document of the group has no
    counterpart. -/
def duplicateFinding (runId tenantId : Uuid) (store : Store) (scanned : ScannedVersion) : Finding :=
  let ids := (sameChecksum store tenantId scanned).map (·.document.documentId)
  let first := ids.foldr min scanned.document.documentId
  { plainFinding runId tenantId .duplicateDocument scanned.document scanned.version with
    counterpartDocumentId := if scanned.document.documentId = first then none else some first }

/-! ## 3. Near duplicates -/

/-- The chunk has a vector. -/
def Store.embedded (store : Store) (chunkId : Uuid) : Bool :=
  store.embeddings.any fun e => e.chunkId = chunkId

/-- The join of `near_pair`, for two chunks in any order. -/
def near (sim : Similarity) (store : Store) (a b : ScannedChunk) : Bool :=
  a.document.documentId ≠ b.document.documentId && store.embedded a.chunk.chunkId &&
    store.embedded b.chunk.chunkId &&
    nearDuplicateSimilarityThreshold ≤ sim.score a.chunk.chunkId b.chunk.chunkId

/-- The CTE `near_pair`: the chunk with the lower identifier comes first. -/
def nearPairs (sim : Similarity) (store : Store) (tenantId : Uuid) :
    List (ScannedChunk × ScannedChunk) :=
  let scanned := store.scannedChunks tenantId
  (scanned ×ˢ scanned).filter fun pair =>
    pair.1.chunk.chunkId < pair.2.chunk.chunkId && near sim store pair.1 pair.2

/-- `(created_at,document_id,chunk_id)<=(created_at,document_id,chunk_id)`. -/
def canonicalFirst (a b : ScannedChunk) : Prop :=
  a.document.createdAt < b.document.createdAt ∨ a.document.createdAt = b.document.createdAt ∧
    (a.document.documentId < b.document.documentId ∨
      a.document.documentId = b.document.documentId ∧ a.chunk.chunkId ≤ b.chunk.chunkId)

instance : DecidableRel canonicalFirst := fun _ _ => inferInstanceAs (Decidable (_ ∨ _))

/-- A row of `near_finding`. -/
structure NearFinding where
  flagged : ScannedChunk
  canonical : ScannedChunk
  similarity : ℚ
  deriving DecidableEq

/-- `round(...::numeric,4)` of a similarity that is not negative. -/
def rounded (q : ℚ) : ℚ := (⌊q * 10000 + 1 / 2⌋ : ℚ) / 10000

/-- The CTE `near_finding`. -/
def nearFindings (sim : Similarity) (store : Store) (tenantId : Uuid) : List NearFinding :=
  (nearPairs sim store tenantId).map fun (a, b) =>
    let similarity := rounded (sim.score a.chunk.chunkId b.chunk.chunkId)
    if canonicalFirst a b then ⟨b, a, similarity⟩ else ⟨a, b, similarity⟩

/-- `ORDER BY similarity DESC,flagged_chunk_id,canonical_chunk_id`. -/
def similarityOrder (a b : NearFinding) : Prop :=
  b.similarity < a.similarity ∨ a.similarity = b.similarity ∧
    (a.flagged.chunk.chunkId < b.flagged.chunk.chunkId ∨
      a.flagged.chunk.chunkId = b.flagged.chunk.chunkId ∧
        a.canonical.chunk.chunkId ≤ b.canonical.chunk.chunkId)

instance : DecidableRel similarityOrder := fun _ _ => inferInstanceAs (Decidable (_ ∨ _))

/-- Suppression is limited to chunks of the tenant in documents that are not global. -/
def suppressible (tenantId : Uuid) (scanned : ScannedChunk) : Bool :=
  scanned.document.tenantId.isSome && scanned.chunk.tenantId = tenantId

/-- The finding of a near duplicate. -/
def nearDuplicateFinding (runId tenantId : Uuid) (finding : NearFinding) : Finding :=
  { plainFinding runId tenantId .nearDuplicateChunk finding.flagged.document
      finding.flagged.version with
    chunkId := some finding.flagged.chunk.chunkId
    counterpartDocumentId := some finding.canonical.document.documentId
    counterpartChunkId := some finding.canonical.chunk.chunkId
    similarityScore := some finding.similarity
    suppressionFlagged := suppressible tenantId finding.flagged }

/-! ## 4. `run_validation` -/

/-- The findings a run inserts. -/
def validationFindings (sim : Similarity) (store : Store) (runId tenantId : Uuid) : List Finding :=
  (capped documentOrder (structuralDefects store tenantId)).map (fun scanned =>
      plainFinding runId tenantId .structuralDefect scanned.document scanned.version) ++
    (capped chunkOrder (emptyChunks store tenantId)).map (fun scanned =>
      { plainFinding runId tenantId .emptyChunk scanned.document scanned.version with
        chunkId := some scanned.chunk.chunkId }) ++
    (capped checksumOrder (duplicateDocuments store tenantId)).map
      (duplicateFinding runId tenantId store) ++
    (capped similarityOrder (nearFindings sim store tenantId)).map
      (nearDuplicateFinding runId tenantId)

/-- Some detector found more than it may insert. -/
def validationTruncated (sim : Similarity) (store : Store) (tenantId : Uuid) : Bool :=
  truncates (structuralDefects store tenantId) || truncates (emptyChunks store tenantId) ||
    truncates (duplicateDocuments store tenantId) || truncates (nearFindings sim store tenantId)

/-- The chunks that the findings of a run suppress. -/
def Store.flaggedBy (store : Store) (runId chunkId : Uuid) : Bool :=
  store.findings.any fun f => f.runId = runId && f.suppressionFlagged && f.chunkId = some chunkId

/-- A chunk of the scanned corpus. -/
def Store.scans (store : Store) (tenantId chunkId : Uuid) : Bool :=
  (store.scannedChunks tenantId).any fun scanned => scanned.chunk.chunkId = chunkId

/-- The row that `apply_suppression_flags` writes: its first statement clears the flags
    of the scanned chunks, its second one sets those of the flagged ones. -/
def suppressionFlag (store : Store) (runId tenantId : Uuid) (chunk : ChunkRow) : ChunkRow :=
  if chunk.tenantId = tenantId then
    { chunk with
      nearDuplicateSuppressedFlag := store.flaggedBy runId chunk.chunkId ||
        (chunk.nearDuplicateSuppressedFlag && !store.scans tenantId chunk.chunkId) }
  else chunk

/-- `apply_suppression_flags`. -/
def applySuppressionFlags (runId tenantId : Uuid) (store : Store) : Store :=
  { store with chunks := store.chunks.map (suppressionFlag store runId tenantId) }

/-- `run_validation`, with a new idempotency key. -/
def runValidation (sim : Similarity) (now : Instant) (tenantId : Uuid) (store : Store) : Store :=
  let runId := store.nextId
  let run : CorpusRun :=
    { runId
      tenantId
      threshold := nearDuplicateSimilarityThreshold
      truncatedFlag := validationTruncated sim store tenantId
      startedAt := now
      createdAt := now }
  applySuppressionFlags runId tenantId
    { store with
      corpusRuns := store.corpusRuns ++ [run]
      findings := store.findings ++ validationFindings sim store runId tenantId
      nextId := runId + 1 }

end Helpdesk.Knowledge
