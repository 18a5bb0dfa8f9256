/-
  File:      Helpdesk/Knowledge/Acquisition.lean
  Subject:   The statements of the acquisition worker
             (apps/worker/worker/acquisition_worker.py, the claim function of alembic
             0014_knowledge_processing_publication).

  Each definition is one transaction of the worker, or the read that loads its work.
  Every transaction that ends an attempt ends with `finalizeRun`.
-/
import Helpdesk.Knowledge.Processing

namespace Helpdesk.Knowledge

open Helpdesk.Python

/-! ## 1. Claiming and loading -/

/-- The `WHERE` of `kb.claim_acquisition_item`. -/
def acquirable (now : Instant) (item : RunItem) : Bool :=
  item.pipelineStage = .acquisition && !item.finalFailure &&
    (item.itemStatus = .queued || item.itemStatus = .failed) &&
    item.nextAttemptAt ≤ now && unlocked now item

/-- `ORDER BY next_attempt_at,created_at,ingestion_run_item_id`. -/
def acquisitionOrder (a b : RunItem) : Prop :=
  a.nextAttemptAt < b.nextAttemptAt ∨ a.nextAttemptAt = b.nextAttemptAt ∧
    (a.createdAt < b.createdAt ∨ a.createdAt = b.createdAt ∧ a.itemId ≤ b.itemId)

instance : DecidableRel acquisitionOrder := fun _ _ => inferInstanceAs (Decidable (_ ∨ _))

/-- The row of `candidate` in `kb.claim_acquisition_item`. -/
def acquisitionCandidate (env : ClaimEnv) (store : Store) : Option RunItem :=
  ((store.items.filter fun item =>
    acquirable env.now item && !env.lockedItems.contains item.itemId).insertionSort
      acquisitionOrder).head?

/-- The row the claim writes. -/
def acquisitionClaimed (now : Instant) (workerId : String) (item : RunItem) : RunItem :=
  { item with
    itemStatus := .acquiring
    attemptCount := item.attemptCount + 1
    lockedAt := some now
    lockedBy := some workerId
    errorCode := none
    rowVersion := item.rowVersion + 1 }

/-- `kb.claim_acquisition_item`. -/
def claimAcquisitionItem (settings : WorkerSettings) (env : ClaimEnv) (store : Store) :
    Option (Claim × Store) :=
  (acquisitionCandidate env store).map fun item =>
    (⟨item.itemId, item.tenantId⟩, store.updateItem item.itemId item.tenantId (fun _ => true)
      (acquisitionClaimed env.now settings.workerId))

structure AcquisitionWork where
  itemId : Uuid
  runId : Uuid
  tenantId : Uuid
  attemptCount : Nat
  sourceRowVersion : Nat
  manifestRowVersion : Nat
  quarantineKey : String
  manifest : ManifestEntry
  source : Source
  authorization : Option SourceAuthorization
  runType : RunType
  previousSha256 : Option String
  deriving DecidableEq, Repr

/-- The document of a manifest key. -/
def Store.documentOf (store : Store) (sourceId : Uuid) (manifestKey : String) : Option Document :=
  store.documents.find? fun d => d.sourceId = sourceId && d.externalDocumentKey = manifestKey

/-- The versions of a document. -/
def Store.versionsOf (store : Store) (documentId : Uuid) : List DocumentVersion :=
  store.versions.filter fun v => v.documentId = documentId

/-- `ORDER BY version_number DESC`. -/
def newerVersion (a b : DocumentVersion) : Prop := b.versionNumber ≤ a.versionNumber

instance : DecidableRel newerVersion :=
  fun a b => inferInstanceAs (Decidable (b.versionNumber ≤ a.versionNumber))

/-- The checksum of the newest version of the document of a manifest key. -/
def Store.previousSha256 (store : Store) (sourceId : Uuid) (manifestKey : String) :
    Option String := do
  let document ← store.documentOf sourceId manifestKey
  let version ← ((store.versionsOf document.documentId).insertionSort newerVersion).head?
  return version.sha256Checksum

/-- `AcquisitionWorker._load`. -/
def loadAcquisition (settings : WorkerSettings) (now : Instant) (claim : Claim) (store : Store) :
    Except Raised AcquisitionWork := do
  let held := fun (item : RunItem) => item.itemId = claim.itemId && item.tenantId = claim.tenantId &&
    item.itemStatus = .acquiring && item.lockedBy = some settings.workerId
  let lost := Raised.permanent "CLAIM_LOST"
  let some item := store.items.find? held | throw lost
  let some run := store.runs.find? fun r => r.runId = item.runId | throw lost
  let some manifest := store.manifest claim.tenantId item.manifestEntryId
    | throw (.permanent "MANIFEST_NOT_FOUND")
  let some source := store.source claim.tenantId manifest.sourceId
    | throw (.permanent "SOURCE_NOT_FOUND")
  return {
    itemId := claim.itemId
    runId := item.runId
    tenantId := claim.tenantId
    attemptCount := item.attemptCount
    sourceRowVersion := item.sourceRowVersion
    manifestRowVersion := item.manifestEntryRowVersion
    quarantineKey := item.quarantineObjectKey
    manifest
    source
    authorization := store.effectiveAuthorization now claim.tenantId source
    runType := run.runType
    previousSha256 := if run.runType = .refresh then
        store.previousSha256 source.sourceId manifest.manifestKey
      else none }

/-- `_permission_reasons`. -/
def AcquisitionWork.permissionReasons (settings : WorkerSettings) (work : AcquisitionWork) :
    List PermissionReason :=
  if work.source.rowVersion ≠ work.sourceRowVersion then [.sourceVersionChanged]
  else if work.manifest.rowVersion ≠ work.manifestRowVersion then [.manifestVersionChanged]
  else
    let external : Bool := work.manifest.acquisitionMethod ≠ .manualUpload
    let expected := if external then AcquisitionPermission.approved else .notRequired
    acquisitionPermissionReasons settings.oracleDocumentAcquisitionEnabled work.source
      work.authorization external ++
    raised
      [(!work.manifest.enabledFlag, .manifestEntryDisabled),
       (work.manifest.acquisitionPermission ≠ expected, .manifestEntryNotApproved),
       (work.manifest.acquisitionMethod ≠ work.source.acquisitionMethod, .manifestMethodMismatch),
       (external && !present work.manifest.permissionReference,
         PermissionReason.manifestPermissionReferenceMissing)]

/-! ## 2. The run and its source -/

/-- A status that `_refresh_run` counts as completed. -/
def ItemStatus.counted (status : ItemStatus) : Bool :=
  [ItemStatus.acquired, .skippedUnchanged, .skippedRemoved, .skippedRedirected].contains status

/-- A status that `_refresh_run` counts as failed once the failure is final. -/
def ItemStatus.failing (status : ItemStatus) : Bool :=
  status = .blockedPermission || status = .failed

structure Totals where
  completed : Nat
  failed : Nat
  pending : Nat
  stale : Nat
  deriving DecidableEq, Repr

/-- An item that `_refresh_run` counts as pending. -/
def RunItem.pending (item : RunItem) : Bool :=
  (!item.itemStatus.counted && !item.itemStatus.failing) ||
    (item.itemStatus = .failed && !item.finalFailure)

/-- An item that makes the source of a refresh run stale. -/
def RunItem.stale (item : RunItem) : Bool :=
  (item.changeClassification.any fun c => c = .changed || c = .removed || c = .redirected) ||
    (item.itemStatus.failing && item.finalFailure)

/-- The CTE `totals`. -/
def totals (items : List RunItem) : Totals where
  completed := items.countP fun item => item.itemStatus.counted
  failed := items.countP fun item => item.itemStatus.failing && item.finalFailure
  pending := items.countP RunItem.pending
  stale := items.countP RunItem.stale

def Store.itemsOf (store : Store) (runId : Uuid) : List RunItem :=
  store.items.filter fun item => item.runId = runId

/-- The run that `_refresh_run` writes from the totals. -/
def refreshedRun (now : Instant) (t : Totals) (run : IngestionRun) : IngestionRun :=
  { run with
    completedItems := t.completed
    failedItems := t.failed
    runStatus := if 0 < t.pending then .running
      else if t.failed = 0 then .completed
      else if t.completed = 0 then .failed
      else .completedWithErrors
    startedAt := run.startedAt.or (some now)
    completedAt := if t.pending = 0 then some now else none
    rowVersion := run.rowVersion + 1 }

/-- `_refresh_run`. -/
def refreshRun (now : Instant) (runId : Uuid) (store : Store) : Store :=
  let t := totals (store.itemsOf runId)
  { store with
    runs := store.runs.map fun run => if run.runId = runId then refreshedRun now t run else run }

/-- The source that `_complete_refresh_source` writes from the totals. -/
def refreshedSource (t : Totals) (source : Source) : Source :=
  { source with
    refreshState := if 0 < t.stale then .stale else .current
    refreshDueAt := if 0 < t.stale then source.refreshDueAt else none }

/-- `_complete_refresh_source`. -/
def completeRefreshSource (runId sourceId : Uuid) (store : Store) : Store :=
  let t := totals (store.itemsOf runId)
  { store with
    sources := store.sources.map fun source =>
      if source.sourceId = sourceId && source.refreshState = .refreshing && t.pending = 0 then
        refreshedSource t source
      else source }

/-- `_finalize_run`. -/
def finalizeRun (now : Instant) (work : AcquisitionWork) (store : Store) : Store :=
  let store := refreshRun now work.runId store
  if work.runType = .refresh then completeRefreshSource work.runId work.source.sourceId store
  else store

/-! ## 3. What an attempt records -/

/-- The item that `_finish_item` writes. -/
def finishedItem (now : Instant) (work : AcquisitionWork) (acquired : Bool) (checksum : String)
    (documentId : Uuid) (versionId : Option Uuid) (classification : Option ChangeClassification)
    (item : RunItem) : RunItem :=
  { item with
    itemStatus := if acquired then .acquired else .skippedUnchanged
    documentId := some documentId
    documentVersionId := versionId
    completedAt := some now
    observedSha256 := some checksum
    errorCode := if acquired then none else some "DUPLICATE_CHECKSUM"
    finalFailure := false
    changeClassification := classification
    previousSha256 := work.previousSha256
    pipelineStage := if acquired then .processing else .complete
    processingNextAttemptAt := if acquired then now else item.processingNextAttemptAt
    lockedAt := none
    lockedBy := none
    rowVersion := item.rowVersion + 1 }

/-- `_finish_item`. -/
def finishItem (now : Instant) (work : AcquisitionWork) (acquired : Bool) (checksum : String)
    (documentId : Uuid) (versionId : Option Uuid) (classification : Option ChangeClassification)
    (store : Store) : Store :=
  store.updateItem work.itemId work.tenantId (·.itemStatus = .acquiring)
    (finishedItem now work acquired checksum documentId versionId classification)

/-- `INSERT INTO kb.document`. -/
def insertDocument (row : Document) : Transaction Store UniqueViolation Unit := do
  let store ← get
  if store.documents.any fun d => d.documentId = row.documentId ||
      (d.sourceId = row.sourceId && d.externalDocumentKey = row.externalDocumentKey) then
    throw .documentKey
  set { store with documents := store.documents ++ [row] }

/-- `INSERT INTO kb.document_version`. -/
def insertVersion (row : DocumentVersion) : Transaction Store UniqueViolation Unit := do
  let store ← get
  if store.versions.any fun v => v.documentVersionId = row.documentVersionId ||
      (v.documentId = row.documentId &&
        (v.versionNumber = row.versionNumber || v.sha256Checksum = row.sha256Checksum)) then
    throw .versionKey
  set { store with versions := store.versions ++ [row] }

/-- The document `_complete` inserts for a manifest key that has none. -/
def newDocument (py : Runtime) (now : Instant) (work : AcquisitionWork) : Document where
  documentId := py.uuid5 ("helpdesk:" ++ uuidText work.source.sourceId ++ ":" ++
    work.manifest.manifestKey)
  tenantId := work.source.tenantId
  sourceId := work.source.sourceId
  externalDocumentKey := work.manifest.manifestKey
  documentTitle := work.manifest.documentTitle
  documentType := work.manifest.documentType
  audienceCode := work.manifest.audienceCode
  securityClassification := work.manifest.securityClassification
  canonicalUrl := work.manifest.canonicalUrl
  approvalStatus := .draft
  effectiveFrom := none
  effectiveTo := none
  nextReviewDate := none
  activeFlag := true
  rowVersion := 1
  createdAt := now

/-- What was fetched, scanned and found clean. -/
structure Content where
  checksum : String
  detectedType : String
  deriving DecidableEq, Repr

/-- The version `_complete` inserts. -/
def newVersion (py : Runtime) (work : AcquisitionWork) (content : Content) (documentId : Uuid)
    (versions : List DocumentVersion) : DocumentVersion :=
  let versionId := py.uuid5 ("helpdesk:" ++ uuidText documentId ++ ":" ++ content.checksum)
  let scope := (work.source.tenantId.map uuidText).getD "global"
  let filename := work.manifest.originalFilename.getD "document.bin"
  { documentVersionId := versionId
    documentId
    versionNumber := (versions.map (·.versionNumber)).foldr max 0 + 1
    originalFileUri := "knowledge/" ++ scope ++ "/" ++ work.source.sourceCode ++ "/" ++
      uuidText documentId ++ "/" ++ uuidText versionId ++ "/original/" ++
      (if filename = "" then "document.bin" else filename)
    contentType := content.detectedType
    sha256Checksum := content.checksum
    acquisitionRunId := work.runId
    copyrightNotice := work.manifest.copyrightNotice
    extractionStatus := .pending
    validationStatus := .pending
    currentVersionFlag := false
    publishedProcessingVersionId := none }

/-- The classification of a refreshed page. -/
def classification (work : AcquisitionWork) (content : Content) : Option ChangeClassification :=
  if work.runType = .refresh then
    if some content.checksum = work.previousSha256 then some .unchanged else some .changed
  else none

/-- The part of `_complete` that stores new content as a version of a document: the ids
    of both. -/
def storeVersion (py : Runtime) (now : Instant) (work : AcquisitionWork) (content : Content)
    (documentId : Uuid) : Transaction Store UniqueViolation (Uuid × Option Uuid) := do
  let store ← get
  let version := newVersion py work content documentId (store.versionsOf documentId)
  insertVersion version
  modify (finishItem now work true content.checksum documentId (some version.documentVersionId)
    (classification work content))
  modify (finalizeRun now work)
  return (documentId, some version.documentVersionId)

/-- `_complete`, up to the cleanup after its transaction: the document, and the new
    version unless the content was known. -/
def completeAcquisition (py : Runtime) (now : Instant) (work : AcquisitionWork)
    (content : Content) : Transaction Store UniqueViolation (Uuid × Option Uuid) := do
  let store ← get
  match store.documentOf work.source.sourceId work.manifest.manifestKey with
  | some document =>
      let duplicate := (store.versionsOf document.documentId).any fun v =>
        v.sha256Checksum = content.checksum
      if duplicate then
        set (finalizeRun now work (finishItem now work false content.checksum document.documentId
          none (classification work content) store))
        return (document.documentId, none)
      else storeVersion py now work content document.documentId
  | none =>
      let document := newDocument py now work
      insertDocument document
      storeVersion py now work content document.documentId

/-- `_blocked`. -/
def blockItem (now : Instant) (work : AcquisitionWork) (store : Store) : Store :=
  finalizeRun now work (store.updateItem work.itemId work.tenantId (fun _ => true) fun item =>
    { item with
      itemStatus := .blockedPermission
      finalFailure := true
      completedAt := some now
      errorCode := some "PERMISSION_DENIED"
      lockedAt := none
      lockedBy := none
      rowVersion := item.rowVersion + 1 })

/-- The item of an attempt that failed. -/
def acquisitionFailedItem (now : Instant) (work : AcquisitionWork) (code : String) (final : Bool)
    (item : RunItem) : RunItem :=
  { item with
    itemStatus := .failed
    finalFailure := final
    completedAt := if final then some now else none
    errorCode := some (truncated code)
    nextAttemptAt := if final then item.nextAttemptAt else now + retryDelay work.attemptCount
    lockedAt := none
    lockedBy := none
    rowVersion := item.rowVersion + 1 }

/-- `AcquisitionWorker._failed`. -/
def acquisitionFailed (settings : WorkerSettings) (now : Instant) (work : AcquisitionWork)
    (code : String) (final : Bool) (store : Store) : Store :=
  let final := final || settings.workerMaxAttempts ≤ work.attemptCount
  finalizeRun now work (store.updateItem work.itemId work.tenantId (fun _ => true)
    (acquisitionFailedItem now work code final))

/-- `_skipped_remote`: the page of a refresh run was removed, or it redirects. -/
def skipRemote (now : Instant) (work : AcquisitionWork) (removed : Bool) (store : Store) : Store :=
  finalizeRun now work
    (store.updateItem work.itemId work.tenantId (·.itemStatus = .acquiring) fun item =>
      { item with
        itemStatus := if removed then .skippedRemoved else .skippedRedirected
        changeClassification := some (if removed then .removed else .redirected)
        previousSha256 := work.previousSha256
        completedAt := some now
        errorCode := none
        finalFailure := false
        pipelineStage := .complete
        lockedAt := none
        lockedBy := none
        rowVersion := item.rowVersion + 1 })

end Helpdesk.Knowledge
