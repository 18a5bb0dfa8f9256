/-
  File:      Helpdesk/Knowledge/Ingestion.lean
  Subject:   Manifest entries and ingestion runs (apps/api/app/ingestion/repository.py
             and the checks of service.py around it).

  Each definition is one transaction; `none` is a command that is refused.
-/
import Helpdesk.Knowledge.Acquisition

namespace Helpdesk.Knowledge

open Helpdesk.Python

/-! ## 1. Manifest entries -/

structure ManifestEntryInput where
  sourceId : Uuid
  manifestKey : String
  documentTitle : String
  documentType : String
  audienceCode : Audience
  canonicalUrl : Option String
  acquisitionUrl : String
  securityClassification : Classification
  acquisitionMethod : AcquisitionMethod
  expectedSha256 : Option String
  originalFilename : String
  declaredContentType : String
  declaredSizeBytes : Option Nat
  copyrightNotice : Option String
  deriving DecidableEq, Repr

/-- The columns `import_entry` writes, into a new row or over the one there is. -/
def importedEntry (entry : ManifestEntryInput) (row : ManifestEntry) : ManifestEntry :=
  let isPdf := lower entry.declaredContentType = "application/pdf"
  { row with
    documentTitle := entry.documentTitle
    documentType := entry.documentType
    audienceCode := entry.audienceCode
    canonicalUrl := entry.canonicalUrl
    pdfUrl := if isPdf then some entry.acquisitionUrl else none
    htmlUrl := if isPdf then none else some entry.acquisitionUrl
    securityClassification := entry.securityClassification
    acquisitionPermission := .pending
    permissionReference := none
    acquisitionMethod := entry.acquisitionMethod
    enabledFlag := true
    expectedSha256 := entry.expectedSha256
    originalFilename := some entry.originalFilename
    declaredContentType := some entry.declaredContentType
    declaredSizeBytes := entry.declaredSizeBytes
    copyrightNotice := entry.copyrightNotice
    approvedBy := none }

/-- A row before its columns are written. -/
def blankEntry (entryId : Uuid) (tenantId : Option Uuid) (sourceId : Uuid) (manifestKey : String) :
    ManifestEntry where
  manifestEntryId := entryId
  tenantId
  sourceId
  manifestKey
  documentTitle := ""
  documentType := ""
  audienceCode := .all
  canonicalUrl := none
  pdfUrl := none
  htmlUrl := none
  securityClassification := .internalUse
  acquisitionPermission := .pending
  permissionReference := none
  acquisitionMethod := .manualUpload
  enabledFlag := true
  expectedSha256 := none
  originalFilename := none
  declaredContentType := none
  declaredSizeBytes := none
  copyrightNotice := none
  approvedBy := none
  rowVersion := 1

/-- `INSERT ... ON CONFLICT (source_id,manifest_key) DO UPDATE`: a row that is there is
    written over and gets the next version. -/
def upsertManifest (store : Store) (tenantId : Option Uuid) (sourceId : Uuid) (manifestKey : String)
    (write : ManifestEntry → ManifestEntry) : Store :=
  let same := fun (m : ManifestEntry) => m.sourceId = sourceId && m.manifestKey = manifestKey
  if store.manifests.any same then
    { store with
      manifests := store.manifests.map fun m =>
        if same m then { write m with rowVersion := m.rowVersion + 1 } else m }
  else
    { store with
      manifests := store.manifests ++ [write (blankEntry store.nextId tenantId sourceId manifestKey)]
      nextId := store.nextId + 1 }

/-- `import_manifest` for one entry. -/
def importEntry (tenantId : Uuid) (entry : ManifestEntryInput) (store : Store) : Option Store := do
  let source ← store.source tenantId entry.sourceId
  if source.acquisitionMethod ≠ entry.acquisitionMethod then none
  else
    return upsertManifest store source.tenantId entry.sourceId entry.manifestKey
      (importedEntry entry)

structure ManifestApprovalCommand where
  approved : Bool
  permissionReference : String
  expectedVersion : Nat
  deriving DecidableEq, Repr

/-- Who gives a command. -/
structure Actor where
  tenantId : Uuid
  userId : Uuid
  supportGroupIds : List Uuid
  deriving DecidableEq, Repr

/-- A source's owner must not decide on its manifest entries and documents. -/
def Source.ownedBy (source : Source) (actor : Actor) : Bool :=
  source.ownerUserId = some actor.userId ||
    source.ownerGroupId.any fun groupId => actor.supportGroupIds.contains groupId

/-- `decide_manifest`. -/
def decideManifest (oracleEnabled : Bool) (actor : Actor) (entryId : Uuid)
    (command : ManifestApprovalCommand) (store : Store) : Option Store := do
  let entry ← store.manifest actor.tenantId entryId
  let source ← store.source actor.tenantId entry.sourceId
  if source.ownedBy actor then none
  else if acquisitionPermissionReasons oracleEnabled source none false ≠ [] then none
  else if entry.rowVersion ≠ command.expectedVersion then none
  else return { store with
    manifests := store.manifests.map fun m =>
      if m.manifestEntryId = entryId && visibleTo actor.tenantId m.tenantId &&
          m.rowVersion = command.expectedVersion then
        { m with
          acquisitionPermission := if command.approved then .approved else .rejected
          permissionReference := some (stripText command.permissionReference)
          approvedBy := if command.approved then some actor.userId else none
          rowVersion := m.rowVersion + 1 }
      else m }

/-! ## 2. Runs -/

/-- `_entry_permission_reasons`, but for the version number that is never below 1. -/
def entryPermissionReasons (oracleEnabled : Bool) (entry : ManifestEntry) (source : Source)
    (authorization : Option SourceAuthorization) : List PermissionReason :=
  acquisitionPermissionReasons oracleEnabled source authorization true ++
  raised
    [(!entry.enabledFlag, .manifestEntryDisabled),
     (entry.acquisitionPermission ≠ .approved, .manifestEntryNotApproved),
     (!present entry.permissionReference, .manifestPermissionReferenceMissing),
     (entry.acquisitionMethod ≠ source.acquisitionMethod,
       PermissionReason.manifestMethodMismatch)]

/-- The item of an entry in a new run. -/
def newItem (now : Instant) (runId itemId tenantId : Uuid) (awaitingUpload : Bool)
    (entry : ManifestEntry) (sourceVersion : Nat) : RunItem where
  itemId
  runId
  manifestEntryId := entry.manifestEntryId
  tenantId
  itemStatus := if awaitingUpload then .awaitingUpload else .queued
  pipelineStage := .acquisition
  finalFailure := false
  sourceRowVersion := sourceVersion
  manifestEntryRowVersion := entry.rowVersion
  quarantineObjectKey := "quarantine/knowledge/" ++ uuidText tenantId ++ "/" ++ uuidText runId ++
    "/" ++ uuidText itemId
  documentId := none
  documentVersionId := none
  attemptCount := 0
  processingAttemptCount := 0
  nextAttemptAt := now
  processingNextAttemptAt := now
  lockedAt := none
  lockedBy := none
  errorCode := none
  changeClassification := none
  previousSha256 := none
  observedSha256 := none
  completedAt := none
  createdAt := now
  rowVersion := 1

/-- `IngestionRepository.create_run`: the run takes the next identifier, its items the
    ones after it. -/
def createRun (now : Instant) (tenantId : Uuid) (entries : List (ManifestEntry × Nat))
    (awaitingUpload : Bool) (runType : RunType) (store : Store) : Store :=
  let runId := store.nextId
  let run : IngestionRun :=
    { runId
      tenantId
      runType
      runStatus := .queued
      totalItems := entries.length
      completedItems := 0
      failedItems := 0
      startedAt := none
      completedAt := none
      rowVersion := 1 }
  { store with
    runs := store.runs ++ [run]
    items := store.items ++ (entries.zipIdx (runId + 1)).map fun e =>
      newItem now runId e.2 tenantId awaitingUpload e.1.1 e.1.2
    nextId := runId + 1 + entries.length }

/-- The entries of a command with the versions of their sources, all of which may be
    acquired from. -/
def snapshots (oracleEnabled : Bool) (now : Instant) (tenantId : Uuid) (store : Store)
    (entries : List ManifestEntry) : Option (List (ManifestEntry × Nat)) :=
  entries.mapM fun entry => do
    let source ← store.source tenantId entry.sourceId
    let authorization := store.effectiveAuthorization now tenantId source
    if entryPermissionReasons oracleEnabled entry source authorization = [] then
      some (entry, source.rowVersion)
    else none

/-- `IngestionService.create_run`; the ids of the command are distinct. -/
def createAcquisitionRun (oracleEnabled : Bool) (now : Instant) (tenantId : Uuid)
    (entryIds : List Uuid) (store : Store) : Option Store := do
  let entries ← entryIds.dedup.mapM (store.manifest tenantId)
  let items ← snapshots oracleEnabled now tenantId store entries
  return createRun now tenantId items false .acquisition store

/-- `create_refresh_run`, with `approved_entries_for_source` and `start_refresh`. -/
def createRefreshRun (oracleEnabled : Bool) (now : Instant) (tenantId sourceId : Uuid)
    (expectedVersion : Nat) (store : Store) : Option Store := do
  let source ← store.source tenantId sourceId
  if source.sourceStatus = .retired ∨ source.refreshState = .refreshing ∨
      source.rowVersion ≠ expectedVersion then none
  else
    let entries := store.manifests.filter fun m =>
      m.sourceId = sourceId && m.enabledFlag && m.acquisitionPermission = .approved &&
        visibleTo tenantId m.tenantId
    if entries = [] then none
    else
      let items ← snapshots oracleEnabled now tenantId store entries
      let started : Store := { store with
        sources := store.sources.map fun s =>
          if s.sourceId = sourceId then { s with refreshState := .refreshing } else s }
      return createRun now tenantId items false .refresh started

/-! ## 3. Manual uploads -/

structure ManualUploadCommand where
  sourceId : Uuid
  manifestKey : String
  documentTitle : String
  documentType : String
  audienceCode : Audience
  securityClassification : Classification
  sha256Checksum : String
  filename : String
  contentType : String
  fileSizeBytes : Nat
  copyrightNotice : Option String
  deriving DecidableEq, Repr

/-- The columns `upsert_manual_manifest` writes; it leaves the URLs and the permission
    reference of a row that is there. -/
def uploadedEntry (command : ManualUploadCommand) (row : ManifestEntry) : ManifestEntry :=
  { row with
    documentTitle := command.documentTitle
    documentType := command.documentType
    audienceCode := command.audienceCode
    securityClassification := command.securityClassification
    acquisitionPermission := .notRequired
    acquisitionMethod := .manualUpload
    enabledFlag := true
    expectedSha256 := some command.sha256Checksum
    originalFilename := some command.filename
    declaredContentType := some command.contentType
    declaredSizeBytes := some command.fileSizeBytes
    copyrightNotice := command.copyrightNotice
    approvedBy := none }

/-- `authorize_manual_upload`: the entry, and a run whose one item waits for the upload. -/
def authorizeManualUpload (oracleEnabled : Bool) (now : Instant) (tenantId : Uuid)
    (command : ManualUploadCommand) (store : Store) : Option Store := do
  let source ← store.source tenantId command.sourceId
  if source.acquisitionMethod ≠ .manualUpload then none
  else if acquisitionPermissionReasons oracleEnabled source none false ≠ [] then none
  else
    let store := upsertManifest store source.tenantId command.sourceId command.manifestKey
      (uploadedEntry command)
    let entry ← store.manifests.find? fun m =>
      m.sourceId = command.sourceId && m.manifestKey = command.manifestKey
    return createRun now tenantId [(entry, source.rowVersion)] true .acquisition store

/-- `complete_upload`. -/
def completeUpload (now : Instant) (tenantId itemId : Uuid) (store : Store) : Store :=
  store.updateItem itemId tenantId (·.itemStatus = .awaitingUpload) fun item =>
    { item with itemStatus := .queued, nextAttemptAt := now, rowVersion := item.rowVersion + 1 }

end Helpdesk.Knowledge
