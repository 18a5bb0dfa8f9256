/-
  File:      Helpdesk/Knowledge/Processing.lean
  Subject:   The statements of the processing worker
             (apps/worker/worker/knowledge_processing_worker.py, the claim function
             of alembic 0014_knowledge_processing_publication).

  Each definition is one transaction of the worker, or the read that loads its work.
-/
import Helpdesk.Knowledge.Corpus

namespace Helpdesk.Knowledge

open Helpdesk.Python

/-! ## 1. Claiming and loading -/

structure WorkerSettings where
  workerId : String
  workerMaxAttempts : Nat
  oracleDocumentAcquisitionEnabled : Bool
  attempts_bounds : 1 ≤ workerMaxAttempts ∧ workerMaxAttempts ≤ 20

/-- The age from which a lock is stale. -/
def staleLock : Int := 5 * 60 * second

/-- `locked_at IS NULL OR locked_at<clock_timestamp()-interval '5 minutes'`. -/
def unlocked (now : Instant) (item : RunItem) : Bool :=
  !item.lockedAt.any fun lockedAt => now - staleLock ≤ lockedAt

/-- The `WHERE` of `kb.claim_processing_item`. -/
def processable (now : Instant) (item : RunItem) : Bool :=
  item.pipelineStage = .processing && !item.finalFailure &&
    (item.itemStatus = .acquired || item.itemStatus = .failed) &&
    item.processingNextAttemptAt ≤ now && unlocked now item

/-- `ORDER BY processing_next_attempt_at,created_at,ingestion_run_item_id`. -/
def processingOrder (a b : RunItem) : Prop :=
  a.processingNextAttemptAt < b.processingNextAttemptAt ∨
    a.processingNextAttemptAt = b.processingNextAttemptAt ∧
      (a.createdAt < b.createdAt ∨ a.createdAt = b.createdAt ∧ a.itemId ≤ b.itemId)

instance : DecidableRel processingOrder := fun _ _ => inferInstanceAs (Decidable (_ ∨ _))

/-- What `clock_timestamp()` is, and which rows other transactions have locked. -/
structure ClaimEnv where
  now : Instant
  lockedItems : List Uuid

/-- A claimed item. -/
structure Claim where
  itemId : Uuid
  tenantId : Uuid
  deriving DecidableEq, Repr

/-- The row of `candidate` in `kb.claim_processing_item`. -/
def processingCandidate (env : ClaimEnv) (store : Store) : Option RunItem :=
  ((store.items.filter fun item =>
    processable env.now item && !env.lockedItems.contains item.itemId).insertionSort
      processingOrder).head?

/-- The row the claim writes. -/
def processingClaimed (now : Instant) (workerId : String) (item : RunItem) : RunItem :=
  { item with
    itemStatus := .extracting
    processingAttemptCount := item.processingAttemptCount + 1
    lockedAt := some now
    lockedBy := some workerId
    errorCode := none
    rowVersion := item.rowVersion + 1 }

/-- `kb.claim_processing_item`. -/
def claimProcessingItem (settings : WorkerSettings) (env : ClaimEnv) (store : Store) :
    Option (Claim × Store) :=
  (processingCandidate env store).map fun item =>
    (⟨item.itemId, item.tenantId⟩, store.updateItem item.itemId item.tenantId (fun _ => true)
      (processingClaimed env.now settings.workerId))

/-- How a step of a worker ends when it does not return: with an exception its caller
    tells apart, with another exception, or with the end of the worker itself. -/
inductive Raised where
  /-- `PermanentProcessingError` and `ParsingError`; `PermanentAcquisitionError` -/
  | permanent (code : String)
  /-- `EmbeddingError` and `StorageError`; `RetryableAcquisitionError`, `StorageError` and
      `ScannerError` -/
  | retryable (name : String)
  | other
  | crash
  deriving DecidableEq, Repr

structure ProcessingWork where
  itemId : Uuid
  runId : Uuid
  tenantId : Uuid
  processingAttemptCount : Nat
  sourceRowVersion : Nat
  manifestRowVersion : Nat
  originalKey : String
  contentType : String
  documentId : Uuid
  documentVersionId : Uuid
  documentTitle : String
  documentApprovalStatus : DocumentApproval
  canonicalUrl : Option String
  audienceCode : Audience
  securityClassification : Classification
  copyrightNotice : Option String
  manifest : ManifestEntry
  source : Source
  authorization : Option SourceAuthorization
  deriving DecidableEq, Repr

/-- `KnowledgeProcessingWorker._load`. -/
def loadProcessing (settings : WorkerSettings) (now : Instant) (claim : Claim) (store : Store) :
    Except Raised ProcessingWork := do
  let held := fun (item : RunItem) => item.itemId = claim.itemId && item.tenantId = claim.tenantId &&
    item.itemStatus = .extracting && item.lockedBy = some settings.workerId &&
    item.pipelineStage = .processing
  let lost := Raised.permanent "PROCESSING_CLAIM_LOST"
  let some item := store.items.find? held | throw lost
  let some document := store.documents.find? fun d => some d.documentId = item.documentId
    | throw lost
  let some version := store.versions.find? fun v => some v.documentVersionId = item.documentVersionId
    | throw lost
  let some manifest := store.manifest claim.tenantId item.manifestEntryId
    | throw (.permanent "MANIFEST_NOT_FOUND")
  let some source := store.source claim.tenantId manifest.sourceId
    | throw (.permanent "SOURCE_NOT_FOUND")
  return {
    itemId := claim.itemId
    runId := item.runId
    tenantId := claim.tenantId
    processingAttemptCount := item.processingAttemptCount
    sourceRowVersion := item.sourceRowVersion
    manifestRowVersion := item.manifestEntryRowVersion
    originalKey := version.originalFileUri
    contentType := version.contentType
    documentId := document.documentId
    documentVersionId := version.documentVersionId
    documentTitle := document.documentTitle
    documentApprovalStatus := document.approvalStatus
    canonicalUrl := document.canonicalUrl
    audienceCode := document.audienceCode
    securityClassification := document.securityClassification
    copyrightNotice := version.copyrightNotice
    manifest
    source
    authorization := store.effectiveAuthorization now claim.tenantId source }

/-- `_permission_reasons`. -/
def ProcessingWork.permissionReasons (settings : WorkerSettings) (work : ProcessingWork) :
    List PermissionReason :=
  let external : Bool := work.manifest.acquisitionMethod ≠ .manualUpload
  let expected := if external then AcquisitionPermission.approved else .notRequired
  raised
    [(work.source.rowVersion ≠ work.sourceRowVersion, .sourceVersionChanged),
     (work.manifest.rowVersion ≠ work.manifestRowVersion, .manifestVersionChanged)] ++
  acquisitionPermissionReasons settings.oracleDocumentAcquisitionEnabled work.source
    work.authorization external ++
  raised [(work.manifest.acquisitionPermission ≠ expected,
    PermissionReason.manifestEntryNotApproved)]

/-! ## 2. `_start_processing` -/

/-- `ChunkingConfig.digest`. -/
def ChunkingConfig.digest (py : Runtime) (config : ChunkingConfig) : String :=
  let field := fun (name : String) (value : Nat) => "\"" ++ name ++ "\":" ++ toString value
  let opening := String.singleton (Char.ofNat 0x7b)
  let closing := String.singleton (Char.ofNat 0x7d)
  py.sha256 (opening ++ ",".intercalate
    [field "maximum_tokens" config.maximumTokens, field "minimum_tokens" config.minimumTokens,
     field "overlap_tokens" config.overlapTokens, field "target_tokens" config.targetTokens] ++
    closing)

/-- The parser the registry has for a content type. -/
structure Parser where
  name : String
  version : String
  deriving DecidableEq, Repr

/-- The columns by which a processing version is found again. -/
def processingKey (py : Runtime) (config : ChunkingConfig) (parser : Parser) (modelCode : String) :
    ProcessingKey where
  parserName := parser.name
  parserVersion := parser.version
  chunkerName := "semantic-structure"
  chunkerVersion := "1"
  chunkingConfigurationHash := config.digest py
  embeddingModelCode := modelCode

/-- The embedding provider, and the dimension `kb.embedding_model` has for its model. -/
structure EmbeddingModel where
  modelCode : String
  dimension : Nat
  approvedDimension : Option Nat

/-- `_start_processing`: the id of the processing version and whether it is complete. -/
def startProcessing (now : Instant) (model : EmbeddingModel) (key : ProcessingKey)
    (work : ProcessingWork) : Transaction Store Raised (Uuid × Bool) := do
  if model.dimension ≠ 1536 then throw (.permanent "UNSUPPORTED_EMBEDDING_DIMENSION")
  if model.approvedDimension ≠ some model.dimension then
    throw (.permanent "EMBEDDING_MODEL_NOT_APPROVED")
  let store ← get
  match store.processings.find? fun p =>
      p.documentVersionId = work.documentVersionId && p.key = key with
  | some existing =>
      if existing.processingStatus = .completed then
        return (existing.processingVersionId, true)
      else
        set (store.updateProcessing existing.processingVersionId fun p =>
          { p with
            processingStatus := .running, validationStatus := .pending
            startedAt := now, completedAt := none })
        return (existing.processingVersionId, false)
  | none =>
      let numbers := (store.processings.filter fun p =>
        p.documentVersionId = work.documentVersionId).map (·.processingNumber)
      let row : ProcessingVersion :=
        { processingVersionId := store.nextId
          tenantId := work.tenantId
          documentId := work.documentId
          documentVersionId := work.documentVersionId
          processingNumber := numbers.foldr max 0 + 1
          key
          processingStatus := .running
          validationStatus := .pending
          chunkCount := none
          embeddedChunkCount := none
          startedAt := now
          completedAt := none
          createdAt := now }
      set { store with processings := store.processings ++ [row], nextId := store.nextId + 1 }
      return (row.processingVersionId, false)

/-! ## 3. `_persist` -/

/-- An `INSERT` into `kb.document_chunk`. -/
def insertChunk (row : ChunkRow) : Transaction Store UniqueViolation Unit := do
  let store ← get
  let own := fun (other : ChunkRow) => other.processingVersionId = row.processingVersionId
  if store.chunks.any fun other => other.chunkId = row.chunkId then throw .chunkKey
  if store.chunks.any fun other => own other && other.chunkSequence = row.chunkSequence then
    throw .chunkSequence
  if store.chunks.any fun other => own other && other.contentHash = row.contentHash then
    throw .chunkHash
  set { store with chunks := store.chunks ++ [row] }

/-- An `INSERT` into `kb.chunk_embedding_1536`. -/
def insertEmbedding (row : EmbeddingRow) : Transaction Store UniqueViolation Unit := do
  let store ← get
  if store.embeddings.any fun other => other.chunkId = row.chunkId then throw .embeddingKey
  set { store with embeddings := store.embeddings ++ [row] }

/-- `" > ".join(chunk.heading_path) or None`. -/
def headingText (headingPath : List String) : Option String :=
  let text := " > ".intercalate headingPath
  if text = "" then none else some text

/-- The row of a chunk. -/
def chunkRow (py : Runtime) (work : ProcessingWork) (processingId : Uuid) (c : Chunk) : ChunkRow where
  chunkId := py.uuid5 ("helpdesk:" ++ uuidText processingId ++ ":" ++ toString c.sequence ++ ":" ++
    c.contentHash)
  documentVersionId := work.documentVersionId
  processingVersionId := processingId
  tenantId := work.tenantId
  documentId := work.documentId
  sourceId := work.source.sourceId
  chunkSequence := c.sequence
  headingPath := headingText c.headingPath
  pageNumber := c.pageNumber
  contentText := c.content
  tokenCount := c.tokenCount
  contentHash := c.contentHash
  audienceCode := work.audienceCode
  securityClassification := work.securityClassification
  embeddingInputHash := c.embeddingInputHash
  nearDuplicateSuppressedFlag := false

/-- The body of the loop of `_persist`; there is a vector for each chunk, as `_embed`
    has checked. -/
def persistChunk (py : Runtime) (modelCode : String) (work : ProcessingWork) (processingId : Uuid)
    (c : Chunk) : Transaction Store UniqueViolation Unit := do
  let row := chunkRow py work processingId c
  insertChunk row
  insertEmbedding ⟨row.chunkId, modelCode, work.tenantId, processingId⟩

/-- The processing version of a document that was processed. -/
def processedVersion (now : Instant) (chunkCount : Nat) (status : ValidationStatus)
    (p : ProcessingVersion) : ProcessingVersion :=
  { p with
    processingStatus := if status = .failed then .failed else .completed
    chunkCount := some chunkCount
    embeddedChunkCount := some chunkCount
    validationStatus := status
    completedAt := some now }

/-- The item of a document that was processed. -/
def processedItem (status : ValidationStatus) (item : RunItem) : RunItem :=
  { item with
    itemStatus := if status = .failed then .failed else .embedded
    finalFailure := status = .failed
    errorCode := if status = .failed then some "VALIDATION_FAILED" else none
    lockedAt := none
    lockedBy := none
    rowVersion := item.rowVersion + 1 }

/-- `_persist`. -/
def persist (py : Runtime) (now : Instant) (modelCode : String) (work : ProcessingWork)
    (processingId : Uuid) (chunks : List Chunk) (status : ValidationStatus) :
    Transaction Store UniqueViolation Unit := do
  chunks.forM (persistChunk py modelCode work processingId)
  modify fun store => store.updateProcessing processingId
    (processedVersion now chunks.length status)
  modify fun store => store.updateVersion work.documentVersionId fun v =>
    { v with extractionStatus := .completed, validationStatus := status }
  modify fun store => store.updateItem work.itemId work.tenantId (fun _ => true)
    (processedItem status)

/-! ## 4. `_mark_replayed` and `_failed` -/

/-- `_mark_replayed`. -/
def markReplayed (work : ProcessingWork) (store : Store) : Store :=
  store.updateItem work.itemId work.tenantId (fun _ => true) fun item =>
    { item with
      itemStatus := .embedded, lockedAt := none, lockedBy := none, errorCode := none
      rowVersion := item.rowVersion + 1 }

/-- The delay before the next attempt. -/
def retryDelay (attempts : Nat) : Int := min 3600 (2 ^ min attempts 10 : Nat) * second

/-- `error_code[:100]`. -/
def truncated (code : String) : String := String.ofList (code.toList.take 100)

/-- The item of a document whose processing failed. -/
def processingFailedItem (now : Instant) (work : ProcessingWork) (code : String) (final : Bool)
    (item : RunItem) : RunItem :=
  { item with
    itemStatus := .failed
    finalFailure := final
    completedAt := if final then some now else none
    errorCode := some (truncated code)
    processingNextAttemptAt := if final then item.processingNextAttemptAt
      else now + retryDelay work.processingAttemptCount
    lockedAt := none
    lockedBy := none
    rowVersion := item.rowVersion + 1 }

/-- `KnowledgeProcessingWorker._failed`. -/
def processingFailed (settings : WorkerSettings) (now : Instant) (work : ProcessingWork)
    (processingId : Option Uuid) (code : String) (final : Bool) (store : Store) : Store :=
  let final := final || settings.workerMaxAttempts ≤ work.processingAttemptCount
  let store := match processingId with
    | some id => store.updateProcessing id fun p =>
        { p with
          processingStatus := .failed, validationStatus := .failed
          completedAt := if final then some now else none }
    | none => store
  let store := if final then
      store.updateVersion work.documentVersionId fun v =>
        { v with extractionStatus := .failed, validationStatus := .failed }
    else store
  store.updateItem work.itemId work.tenantId (fun _ => true)
    (processingFailedItem now work code final)

end Helpdesk.Knowledge
