/-
  File:      Helpdesk/Knowledge/Database.lean
  Subject:   The tables of the knowledge base that ingestion, processing and
             publication write (database/baseline 05_knowledge.sql, alembic 0012 to
             0014 and 0027 to 0030).

  A table is the list of its rows. What no statement reads is left out.
-/
import Helpdesk.Lib.Fallible
import Helpdesk.Python.Datetime
import Helpdesk.Python.Uuid
import Mathlib.Data.Rat.Defs

namespace Helpdesk.Knowledge

open Helpdesk.Python

/-! ## 1. Sources and manifest entries -/

inductive AcquisitionMethod where
  | manualUpload | approvedDirectDownload | apiFeed | repositoryConnector | ticketPublication
  deriving DecidableEq, Repr

inductive SourceType where
  | oraclePublicDocumentation | companyPolicy | companyProcedure | internalKnowledge
  | historicalResolution | otherExternal
  deriving DecidableEq, Repr

inductive SourceStatus where
  | active | disabled | retired
  deriving DecidableEq, Repr

inductive SourceApproval where
  | draft | underReview | approved | rejected
  deriving DecidableEq, Repr

inductive RefreshState where
  | current | refreshDue | refreshing | stale
  deriving DecidableEq, Repr

/-- `audience_code`. -/
inductive Audience where
  | employee | analyst | technicalSpecialist | admin | all
  deriving DecidableEq, Repr

/-- `security_classification`. -/
inductive Classification where
  | publicAccess | internalUse | confidential | restricted
  deriving DecidableEq, Repr

/-- A row of `kb.source`. -/
structure Source where
  sourceId : Uuid
  tenantId : Option Uuid
  sourceCode : String
  sourceType : SourceType
  acquisitionMethod : AcquisitionMethod
  automatedAccessAllowed : Bool
  sourceStatus : SourceStatus
  approvalStatus : SourceApproval
  ownerUserId : Option Uuid
  ownerGroupId : Option Uuid
  rowVersion : Nat
  refreshState : RefreshState
  refreshDueAt : Option Instant
  deriving DecidableEq, Repr

/-- A row of `kb.source_acquisition_authorization`. -/
structure SourceAuthorization where
  authorizationId : Uuid
  tenantId : Option Uuid
  sourceId : Uuid
  sourceRowVersion : Nat
  approved : Bool
  acquisitionMethod : AcquisitionMethod
  validFrom : Instant
  validTo : Option Instant
  decidedAt : Instant
  deriving DecidableEq, Repr

inductive AcquisitionPermission where
  | pending | approved | rejected | notRequired
  deriving DecidableEq, Repr

/-- A row of `kb.ingestion_manifest_entry`. -/
structure ManifestEntry where
  manifestEntryId : Uuid
  tenantId : Option Uuid
  sourceId : Uuid
  manifestKey : String
  documentTitle : String
  documentType : String
  audienceCode : Audience
  canonicalUrl : Option String
  pdfUrl : Option String
  htmlUrl : Option String
  securityClassification : Classification
  acquisitionPermission : AcquisitionPermission
  permissionReference : Option String
  acquisitionMethod : AcquisitionMethod
  enabledFlag : Bool
  expectedSha256 : Option String
  originalFilename : Option String
  declaredContentType : Option String
  declaredSizeBytes : Option Nat
  copyrightNotice : Option String
  approvedBy : Option Uuid
  rowVersion : Nat
  deriving DecidableEq, Repr

/-! ## 2. Runs and their items -/

inductive RunType where
  | acquisition | refresh
  deriving DecidableEq, Repr

inductive RunStatus where
  | queued | running | completed | completedWithErrors | failed
  deriving DecidableEq, Repr

/-- A row of `kb.ingestion_run`. -/
structure IngestionRun where
  runId : Uuid
  tenantId : Uuid
  runType : RunType
  runStatus : RunStatus
  totalItems : Nat
  completedItems : Nat
  failedItems : Nat
  startedAt : Option Instant
  completedAt : Option Instant
  rowVersion : Nat
  deriving DecidableEq, Repr

/-- The values of `item_status`; no statement writes `extracted`, `chunking`,
    `chunked`, `embedding` and `validating`. -/
inductive ItemStatus where
  | awaitingUpload | queued | acquiring | acquired | extracting | extracted | chunking | chunked
  | embedding | embedded | validating | published | skippedUnchanged | skippedRemoved
  | skippedRedirected | blockedPermission | failed
  deriving DecidableEq, Repr

inductive PipelineStage where
  | acquisition | processing | complete
  deriving DecidableEq, Repr

inductive ChangeClassification where
  | unchanged | changed | removed | redirected
  deriving DecidableEq, Repr

/-- A row of `kb.ingestion_run_item`. -/
structure RunItem where
  itemId : Uuid
  runId : Uuid
  manifestEntryId : Uuid
  tenantId : Uuid
  itemStatus : ItemStatus
  pipelineStage : PipelineStage
  finalFailure : Bool
  sourceRowVersion : Nat
  manifestEntryRowVersion : Nat
  quarantineObjectKey : String
  documentId : Option Uuid
  documentVersionId : Option Uuid
  attemptCount : Nat
  processingAttemptCount : Nat
  nextAttemptAt : Instant
  processingNextAttemptAt : Instant
  lockedAt : Option Instant
  lockedBy : Option String
  errorCode : Option String
  changeClassification : Option ChangeClassification
  previousSha256 : Option String
  observedSha256 : Option String
  completedAt : Option Instant
  createdAt : Instant
  rowVersion : Nat
  deriving DecidableEq, Repr

/-! ## 3. Documents, their versions and chunks -/

inductive DocumentApproval where
  | draft | underReview | approved | rejected | retired
  deriving DecidableEq, Repr

/-- A row of `kb.document`. -/
structure Document where
  documentId : Uuid
  tenantId : Option Uuid
  sourceId : Uuid
  externalDocumentKey : String
  documentTitle : String
  documentType : String
  audienceCode : Audience
  securityClassification : Classification
  canonicalUrl : Option String
  approvalStatus : DocumentApproval
  effectiveFrom : Option Int
  effectiveTo : Option Int
  nextReviewDate : Option Int
  activeFlag : Bool
  rowVersion : Nat
  createdAt : Instant
  deriving DecidableEq, Repr

inductive ExtractionStatus where
  | pending | running | completed | failed | skipped
  deriving DecidableEq, Repr

inductive ValidationStatus where
  | pending | passed | warning | failed
  deriving DecidableEq, Repr

/-- A row of `kb.document_version`. -/
structure DocumentVersion where
  documentVersionId : Uuid
  documentId : Uuid
  versionNumber : Nat
  originalFileUri : String
  contentType : String
  sha256Checksum : String
  acquisitionRunId : Uuid
  copyrightNotice : Option String
  extractionStatus : ExtractionStatus
  validationStatus : ValidationStatus
  currentVersionFlag : Bool
  publishedProcessingVersionId : Option Uuid
  deriving DecidableEq, Repr

inductive ProcessingStatus where
  | running | completed | failed | superseded
  deriving DecidableEq, Repr

/-- The columns that tell the processing versions of one document version apart. -/
structure ProcessingKey where
  parserName : String
  parserVersion : String
  chunkerName : String
  chunkerVersion : String
  chunkingConfigurationHash : String
  embeddingModelCode : String
  deriving DecidableEq, Repr

/-- A row of `kb.document_processing_version`. -/
structure ProcessingVersion where
  processingVersionId : Uuid
  tenantId : Uuid
  documentId : Uuid
  documentVersionId : Uuid
  processingNumber : Nat
  key : ProcessingKey
  processingStatus : ProcessingStatus
  validationStatus : ValidationStatus
  chunkCount : Option Nat
  embeddedChunkCount : Option Nat
  startedAt : Instant
  completedAt : Option Instant
  createdAt : Instant
  deriving DecidableEq, Repr

/-- A row of `kb.document_chunk`. -/
structure ChunkRow where
  chunkId : Uuid
  documentVersionId : Uuid
  processingVersionId : Uuid
  tenantId : Uuid
  documentId : Uuid
  sourceId : Uuid
  chunkSequence : Nat
  headingPath : Option String
  pageNumber : Option Nat
  contentText : String
  tokenCount : Nat
  contentHash : String
  audienceCode : Audience
  securityClassification : Classification
  embeddingInputHash : String
  nearDuplicateSuppressedFlag : Bool
  deriving DecidableEq, Repr

/-- A row of `kb.chunk_embedding_1536`, without the vector. -/
structure EmbeddingRow where
  chunkId : Uuid
  embeddingModelCode : String
  tenantId : Uuid
  processingVersionId : Uuid
  deriving DecidableEq, Repr

inductive PrincipalType where
  | role | supportGroup | businessUnit | department | user | allEmployees | allAnalysts
  deriving DecidableEq, Repr

/-- A row of `kb.document_permission`; every permission code lets read. -/
structure DocumentPermission where
  documentId : Uuid
  principalType : PrincipalType
  principalCode : String
  deriving DecidableEq, Repr

/-! ## 4. Validation and publication of the corpus -/

/-- A row of `kb.corpus_validation_run`; the status is always `COMPLETED`. -/
structure CorpusRun where
  runId : Uuid
  tenantId : Uuid
  threshold : ℚ
  truncatedFlag : Bool
  startedAt : Instant
  createdAt : Instant
  deriving DecidableEq

inductive FindingType where
  | structuralDefect | emptyChunk | duplicateDocument | nearDuplicateChunk
  deriving DecidableEq, Repr

/-- A row of `kb.corpus_validation_finding`. -/
structure Finding where
  runId : Uuid
  tenantId : Uuid
  findingType : FindingType
  documentId : Uuid
  documentVersionId : Uuid
  chunkId : Option Uuid
  counterpartDocumentId : Option Uuid
  counterpartChunkId : Option Uuid
  similarityScore : Option ℚ
  suppressionFlagged : Bool
  deriving DecidableEq

/-- A row of `kb.corpus_version`. -/
structure CorpusVersion where
  corpusVersionId : Uuid
  tenantId : Uuid
  versionNumber : Nat
  validationRunId : Uuid
  documentCount : Nat
  chunkCount : Nat
  suppressedChunkCount : Nat
  activeFlag : Bool
  rowVersion : Nat
  deriving DecidableEq, Repr

/-- A row of `kb.corpus_version_suppressed_chunk`. -/
structure SuppressedChunk where
  corpusVersionId : Uuid
  tenantId : Uuid
  chunkId : Uuid
  deriving DecidableEq, Repr

/-! ## 5. The database -/

structure Store where
  sources : List Source
  authorizations : List SourceAuthorization
  manifests : List ManifestEntry
  runs : List IngestionRun
  items : List RunItem
  documents : List Document
  versions : List DocumentVersion
  processings : List ProcessingVersion
  chunks : List ChunkRow
  embeddings : List EmbeddingRow
  permissions : List DocumentPermission
  corpusRuns : List CorpusRun
  findings : List Finding
  corpusVersions : List CorpusVersion
  suppressedChunks : List SuppressedChunk
  /-- the supply that stands for `uuid4()` and `gen_random_uuid()` -/
  nextId : Uuid

/-- The unique constraints that an `INSERT` of ingestion or processing can meet. -/
inductive UniqueViolation where
  | chunkKey
  | chunkSequence
  | chunkHash
  | embeddingKey
  | documentKey
  | versionKey
  deriving DecidableEq, Repr

namespace Store

/-- `UPDATE kb.ingestion_run_item ... WHERE ingestion_run_item_id=:item_id AND
    tenant_id=:tenant_id AND ...`. -/
def updateItem (store : Store) (itemId tenantId : Uuid) (selected : RunItem → Bool)
    (change : RunItem → RunItem) : Store :=
  { store with
    items := store.items.map fun item =>
      if item.itemId = itemId && item.tenantId = tenantId && selected item then change item
      else item }

/-- `UPDATE kb.document_processing_version ... WHERE processing_version_id=:processing_id`. -/
def updateProcessing (store : Store) (processingId : Uuid)
    (change : ProcessingVersion → ProcessingVersion) : Store :=
  { store with
    processings := store.processings.map fun p =>
      if p.processingVersionId = processingId then change p else p }

/-- `UPDATE kb.document_version ... WHERE document_version_id=:version_id`. -/
def updateVersion (store : Store) (versionId : Uuid)
    (change : DocumentVersion → DocumentVersion) : Store :=
  { store with
    versions := store.versions.map fun v =>
      if v.documentVersionId = versionId then change v else v }

end Store

end Helpdesk.Knowledge
